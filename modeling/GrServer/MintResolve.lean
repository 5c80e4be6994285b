import GrServer.MintGate

/-!
# The gate and the resolver over all keys

The gate assesses a fixed list of keys, the resolver every key that the fields
or a source report.  Both look for a conflict on a silicon key, and both keep
the keys of their own poison list out of what they return once they have seen
one.
-/

namespace GrServer

open Json Text EvidenceMerge

namespace MintGate

def mintSemanticKeys : List String :=
  ["residual_std", "residual_mean", "residual_ok", "hw_curve_webgl", "hw_curve_audio",
    "hw_curve_cpu", "webrtc_host_ip_hash", "webrtc_host_ip_hash_v2", "os_instance_hash",
    "hardware_concurrency", "device_memory", "form_class", "platform", "os_family",
    "architecture", "timezone", "user_agent", "gateway_user_agent", "media_input_count",
    "media_output_count", "media_video_count", "media_device_count", "display_count",
    "screen_width", "screen_height", "webgl_unmasked_renderer", "unit_surface_id",
    "gl_max_texture_size", "webgl_max_texture", "ja4", "protocol_engine",
    "http_header_order_hash"]

def fieldsBySourceOf (evidence : Option Json) : Option Fields :=
  (evidence.bind (·.get? "fields_by_source")).bind asObject

def sourceConflictsOf (evidence : Option Json) : List String :=
  (((evidence.bind (·.get? "source_conflicts")).bind asArray).getD []).filterMap asStr

def inputFor (fields : Json) (evidence : Option Json) (key : String) : MintInput :=
  { key := key
    fields := fields
    fieldsBySource := fieldsBySourceOf evidence
    sourceConflicts := sourceConflictsOf evidence
    evidence := evidence }

section Source

variable (floats : FloatCompare)

def isSiliconConflict (i : MintInput) : Bool :=
  let d := fieldMintDecisionEx floats i
  keyClass i.key = .silicon &&
    (d.boolOr "conflicted" || d.strOr "reason" = "silicon_conflict_exclude_mint")

/-! ## The gate -/

def gatePoisonKeys : List String :=
  ["residual_std", "residual_mean", "residual_ok", "residual_algo", "hw_curve_webgl",
    "hw_curve_audio", "hw_curve_cpu", "unit_surface_id", "webgl_unmasked_renderer",
    "webgl_unmasked_vendor"]

def isGatePoisoned (key : String) : Bool :=
  gatePoisonKeys.contains key || startsWith key "hw_curve_"

structure LadderEntry where
  key : String
  resolution : SourceResolution
  candidates : List (String × SourceTrust)

/-- A value counts for the ladder unless it is null or an empty string. -/
def ladderValue (v : Json) : Bool := !v.isNull && v ≠ .str ""

def buildSourceAuthLadderView (fieldsBySource : Fields) (keys : List String) :
    List LadderEntry :=
  keys.map fun k =>
    let entries := fieldsBySource.entries.filterMap fun source =>
      ((source.2.get? k).filter ladderValue).map fun v => (source.1, v)
    { key := k
      resolution := resolveFieldSource (approxEq floats) k entries
      candidates := entries.map fun entry => (entry.1, sourceTrustFor entry.1 k) }

structure GateReport where
  decisions : List (String × Json)
  sourceAuthLadder : List LadderEntry
  mintOkKeys : List String
  confOnlyKeys : List String
  conflictKeys : List String
  siliconHardConflict : Bool
  siliconConflictKeys : List String
  siliconMintOk : Bool
  residualMintOk : Bool
  hostMintOk : Bool
  conflictPressure : ℚ
  singleSourcePressure : ℚ
  sourceConflictsN : ℕ

def hostKeys : List String :=
  ["webrtc_host_ip_hash", "webrtc_host_ip_hash_v2", "os_instance_hash"]

def gateSiliconConflicts (fields : Json) (evidence : Option Json) : List String :=
  mintSemanticKeys.filter fun k => isSiliconConflict floats (inputFor fields evidence k)

/-- Under a silicon conflict no poisoned key stays mintable. -/
def gateMintOkKeys (fields : Json) (evidence : Option Json) : List String :=
  mintSemanticKeys.filter fun k =>
    (fieldMintDecisionEx floats (inputFor fields evidence k)).boolOr "mint_ok" &&
      ((gateSiliconConflicts floats fields evidence).isEmpty || !isGatePoisoned k)

def clamped (low high x : ℚ) : ℚ := max low (min x high)

def assessMintGate (fields : Json) (evidence : Option Json) : GateReport :=
  let decision := fun k => fieldMintDecisionEx floats (inputFor fields evidence k)
  let flagged := fun (member : String) (k : String) => (decision k).boolOr member
  let siliconConflictKeys := gateSiliconConflicts floats fields evidence
  let siliconHardConflict := !siliconConflictKeys.isEmpty
  let mintOkKeys := gateMintOkKeys floats fields evidence
  let confOnly := mintSemanticKeys.filter (flagged "conf_only")
  let confOnlyKeys := confOnly ++ siliconConflictKeys.filter fun k => !confOnly.contains k
  let conflictKeys := mintSemanticKeys.filter (flagged "conflicted")
  let siliconMint := !siliconHardConflict && mintOkKeys.any fun k =>
    ["residual_std", "residual_mean", "hw_curve_webgl"].contains k ||
      startsWith k "hw_curve_webgl" || startsWith k "webgl_residual"
  let residualMint := !siliconHardConflict && mintOkKeys.any fun k =>
    ["residual_std", "residual_mean", "residual_ok", "hw_curve_webgl"].contains k
  let hostKeyPresent := hostKeys.any fun k =>
    ((inputFor fields evidence k).merged.get? k).any nonempty
  { decisions := mintSemanticKeys.map fun k => (k, decision k)
    sourceAuthLadder := (fieldsBySourceOf evidence).elim [] fun fbs =>
      buildSourceAuthLadderView floats fbs mintSemanticKeys
    mintOkKeys := mintOkKeys
    confOnlyKeys := confOnlyKeys
    conflictKeys := conflictKeys
    siliconHardConflict := siliconHardConflict
    siliconConflictKeys := siliconConflictKeys
    siliconMintOk := siliconMint
    residualMintOk := residualMint
    hostMintOk := mintOkKeys.any hostKeys.contains || (residualMint && hostKeyPresent) ||
      (siliconMint && hostKeyPresent)
    conflictPressure := clamped 0 1 (conflictKeys.length / 6)
    singleSourcePressure := clamped 0 (6 / 10) (confOnlyKeys.length / 10)
    sourceConflictsN := (sourceConflictsOf evidence).length }

/-! ## The resolver -/

def residualPathsUnionKeys : List String :=
  ["residual_paths", "residual_paths_b10x", "residual_paths_extra",
    "residual_paths_merged", "residual_paths_n"]

def isResidualPathsUnionKey (key : String) : Bool := residualPathsUnionKeys.contains key

def resolverPoisonKeys : List String :=
  ["residual_mean", "residual_std", "residual_ok", "residual_algo", "hw_curve_webgl",
    "hw_curve_audio", "hw_curve_cpu", "hw_webgl_stable", "hw_audio_stable",
    "unit_surface_id"]

def isResolverPoisoned (key : String) : Bool :=
  resolverPoisonKeys.contains key || startsWith key "hw_curve_"

def mergedOf (fields : Json) : Fields := fields.asObject.getD SortedMap.empty

/-- Every key of the fixed list, of the fields and of a source, once. -/
def reportedKeys (fields : Json) (evidence : Option Json) : List String :=
  let buckets := ((fieldsBySourceOf evidence).getD SortedMap.empty).entries
  let names := mintSemanticKeys ++ (mergedOf fields).keys ++
    buckets.flatMap fun source => (source.2.asObject.map SortedMap.keys).getD []
  (SortedMap.ofEntries (names.map fun k => (k, ()))).keys

/-- What the chosen source itself reports for the key, unless it is null. -/
def chosenValue (i : MintInput) : Option Json :=
  let d := fieldMintDecisionEx floats i
  let chosen := d.strOr "chosen_source"
  if chosen ≠ "" ∧ (d.boolOr "mint_ok" ∨ d.boolOr "conflicted" ∨ d.boolOr "agreed" ∨
      d.boolOr "conf_only") then
    (((i.fieldsBySource.bind (·.get? chosen)).bind (·.get? i.key))).filter (!·.isNull)
  else none

def appliesChosen (hardConflict : Bool) (i : MintInput) : Bool :=
  match keyClass i.key with
  | .silicon => (fieldMintDecisionEx floats i).boolOr "mint_ok" && !hardConflict
  | _ => !isResidualPathsUnionKey i.key

def isSiliconExcluded (hardConflict : Bool) (i : MintInput) : Bool :=
  isSiliconConflict floats i || (keyClass i.key = .silicon && hardConflict)

def applyResolution (hardConflict : Bool) (i : MintInput) (resolved : Fields) : Fields :=
  let resolved :=
    if isSiliconExcluded floats hardConflict i then resolved.erase i.key else resolved
  match chosenValue floats i with
  | some v =>
      if appliesChosen floats hardConflict i then resolved.insert i.key v else resolved
  | none => resolved

def siliconHard (fields : Json) (evidence : Option Json) : Bool :=
  (reportedKeys fields evidence).any fun k =>
    isSiliconConflict floats (inputFor fields evidence k)

def appliedFields (hardConflict : Bool) (fields : Json) (evidence : Option Json) : Fields :=
  (reportedKeys fields evidence).foldl
    (fun resolved k => applyResolution floats hardConflict (inputFor fields evidence k) resolved)
    (mergedOf fields)

def poisonedKeys (hardConflict : Bool) (applied : Fields) : List String :=
  if hardConflict then applied.keys.filter isResolverPoisoned else []

structure ResolverReport where
  resolvedFields : Fields
  resolutions : List (String × Json)
  conflictKeysN : ℕ
  agreeKeysN : ℕ
  mintOkKeysN : ℕ
  confOnlyKeysN : ℕ
  siliconExcludedN : ℕ
  siliconHardConflict : Bool

def resolveFieldsMultiSource (fields : Json) (evidence : Option Json) : ResolverReport :=
  let keys := reportedKeys fields evidence
  let decision := fun k => fieldMintDecisionEx floats (inputFor fields evidence k)
  let flagged := fun (member : String) (k : String) => (decision k).boolOr member
  let hardConflict := siliconHard floats fields evidence
  let applied := appliedFields floats hardConflict fields evidence
  let poisonKeys := poisonedKeys hardConflict applied
  { resolvedFields := poisonKeys.foldl SortedMap.erase applied
    resolutions := (keys.filter fun k =>
      0 < (decision k).i64Or "source_count" 0 || flagged "conflicted" k ||
        flagged "mint_ok" k).map fun k => (k, decision k)
    conflictKeysN := keys.countP (flagged "conflicted")
    agreeKeysN := keys.countP (flagged "agreed")
    mintOkKeysN := keys.countP (flagged "mint_ok")
    confOnlyKeysN := keys.countP (flagged "conf_only")
    siliconExcludedN := keys.countP (fun k =>
      isSiliconExcluded floats hardConflict (inputFor fields evidence k)) + poisonKeys.length
    siliconHardConflict := hardConflict }

end Source

/-! ## The members of a decision -/

section Members

variable {floats : FloatCompare} {i : MintInput}

theorem decision_get? (hkey : i.key ∉ neverCommercialMintKeys) (member : String) :
    (fieldMintDecisionEx floats i).get? member =
      Assoc.find? member (decisionMembers floats i).reverse := by
  unfold fieldMintDecisionEx
  rw [if_neg (by simpa using hkey), get?_ofFields, SortedMap.get?_insertEach,
    SortedMap.get?_empty, Option.or_none]

theorem decision_conflicted (hkey : i.key ∉ neverCommercialMintKeys) :
    (fieldMintDecisionEx floats i).boolOr "conflicted" = conflicted floats i := by
  rw [boolOr, decision_get? hkey]
  simp [decisionMembers, Assoc.find?, asBool]

theorem decision_mintOk (hkey : i.key ∉ neverCommercialMintKeys) :
    (fieldMintDecisionEx floats i).boolOr "mint_ok" = mintOk floats i := by
  rw [boolOr, decision_get? hkey]
  simp [decisionMembers, Assoc.find?, asBool]

theorem decision_confOnly (hkey : i.key ∉ neverCommercialMintKeys) :
    (fieldMintDecisionEx floats i).boolOr "conf_only" =
      ((resolvedValue floats i).isSome && !mintOk floats i) := by
  rw [boolOr, decision_get? hkey]
  simp [decisionMembers, Assoc.find?, asBool]

theorem decision_reason (hkey : i.key ∉ neverCommercialMintKeys) :
    (fieldMintDecisionEx floats i).strOr "reason" = (resolution floats i).reason := by
  rw [strOr, decision_get? hkey]
  simp [decisionMembers, Assoc.find?, asStr]

theorem decision_chosen (hkey : i.key ∉ neverCommercialMintKeys) :
    (fieldMintDecisionEx floats i).strOr "chosen_source" =
      (resolution floats i).chosenSource.getD "" := by
  rw [strOr, decision_get? hkey]
  cases hchosen : (resolution floats i).chosenSource <;>
    simp [decisionMembers, Assoc.find?, asStr, hchosen]

end Members

section Conflict

variable {floats : FloatCompare} {i : MintInput}

def Disagreement (floats : FloatCompare) (i : MintInput) : Prop :=
  i.listedConflict = true ∨
    ∃ first rest, eligible i.key i.entries = first :: rest ∧
      ∃ entry ∈ rest, approxEq floats first.2 entry.2 = false

theorem silicon_reason (h : (resolution floats i).reason = "silicon_conflict_exclude_mint") :
    (resolution floats i).conflicted = true := by
  unfold resolution resolveFieldSource at h ⊢
  split at h
  case h_1 => simp [noEligibleSource] at h
  case h_2 => simp at h
  case h_3 =>
    dsimp only at h ⊢
    split_ifs at h ⊢
    · split at h <;> simp [noEligibleSource] at h
    · rfl
    · split at h <;> simp [noEligibleSource, conflictResolution] at h
      split_ifs at h <;> simp at h

theorem resolution_conflicted_iff (hclass : keyClass i.key = .silicon) :
    (resolution floats i).conflicted = true ↔
      ∃ first rest, eligible i.key i.entries = first :: rest ∧
        ∃ entry ∈ rest, approxEq floats first.2 entry.2 = false := by
  match hall : eligible i.key i.entries with
  | [] =>
      rw [resolution_of_none hall]
      simp [noEligibleSource]
  | [(src, v)] =>
      rw [resolution_of_one hall]
      simp
  | first :: second :: rest =>
      have hboth := @resolution_silicon floats i _ _ _ hclass hall
      constructor
      · intro hconflict
        refine ⟨first, second :: rest, rfl, ?_⟩
        by_contra hnone
        have hclose : ∀ entry ∈ second :: rest, approxEq floats first.2 entry.2 = true := by
          intro entry hentry
          by_contra hfar
          exact hnone ⟨entry, hentry, Bool.eq_false_of_not_eq_true hfar⟩
        rw [(hboth.1 hclose).2] at hconflict
        cases hconflict
      · rintro ⟨first', rest', hcons, entry, hentry, hfar⟩
        cases hcons
        apply hboth.2
        intro hclose
        rw [hclose entry hentry] at hfar
        cases hfar

theorem isSiliconConflict_iff :
    isSiliconConflict floats i = true ↔
      keyClass i.key = .silicon ∧ Disagreement floats i := by
  unfold isSiliconConflict
  simp only [Bool.and_eq_true, Bool.or_eq_true, decide_eq_true_eq]
  apply and_congr_right
  intro hclass
  have hkey := not_never_of_silicon hclass
  rw [decision_conflicted hkey, decision_reason hkey, Disagreement,
    ← resolution_conflicted_iff hclass, conflicted, Bool.or_eq_true]
  constructor
  · rintro ((hlisted | hconflict) | hreason)
    · exact .inl hlisted
    · exact .inr hconflict
    · exact .inr (silicon_reason hreason)
  · intro h
    exact .inl h

end Conflict

section Keys

variable {fields : Json} {evidence : Option Json} {k : String}

theorem mem_reportedKeys :
    k ∈ reportedKeys fields evidence ↔
      k ∈ mintSemanticKeys ∨ ((mergedOf fields).get? k).isSome = true ∨
        ∃ fbs, fieldsBySourceOf evidence = some fbs ∧ ∃ source ∈ fbs.entries,
          ∃ bucket, source.2.asObject = some bucket ∧ (bucket.get? k).isSome = true := by
  have hnames (names : List String) :
      k ∈ (SortedMap.ofEntries (names.map fun k => (k, ()))).keys ↔ k ∈ names := by
    rw [SortedMap.mem_keys, SortedMap.get?_ofEntries, Assoc.find?_isSome, Assoc.keys,
      List.map_map]
    simp
  unfold reportedKeys
  simp only [hnames, List.mem_append, SortedMap.mem_keys, List.mem_flatMap, or_assoc]
  cases fieldsBySourceOf evidence with
  | none => simp [SortedMap.empty]
  | some fbs =>
      have hbucket (v : Json) : k ∈ (v.asObject.map SortedMap.keys).getD [] ↔
          ∃ bucket, v.asObject = some bucket ∧ (bucket.get? k).isSome = true := by
        cases v.asObject with
        | none => simp
        | some bucket => simp [SortedMap.mem_keys]
      simp [hbucket]

theorem reportedKeys_nodup : (reportedKeys fields evidence).Nodup :=
  SortedMap.keys_nodup _

end Keys

section Passes

variable {floats : FloatCompare} {fields : Json} {evidence : Option Json}

theorem applyResolution_other {hard : Bool} {i : MintInput} {k : String} (hne : i.key ≠ k)
    (resolved : Fields) :
    (applyResolution floats hard i resolved).get? k = resolved.get? k := by
  have hkept : (if isSiliconExcluded floats hard i then resolved.erase i.key
      else resolved).get? k = resolved.get? k := by
    split_ifs
    · rw [SortedMap.get?_erase, if_neg (Ne.symm hne)]
    · rfl
  unfold applyResolution
  dsimp only
  generalize (if isSiliconExcluded floats hard i then resolved.erase i.key
    else resolved) = kept at hkept ⊢
  cases chosenValue floats i with
  | none => exact hkept
  | some v =>
      dsimp only
      split_ifs
      · rw [SortedMap.get?_insert_of_ne (Ne.symm hne), hkept]
      · exact hkept

def leftAt (floats : FloatCompare) (hard : Bool) (i : MintInput) (old : Option Json) :
    Option Json :=
  let kept := if isSiliconExcluded floats hard i then none else old
  match chosenValue floats i with
  | some v => if appliesChosen floats hard i then some v else kept
  | none => kept

theorem applyResolution_self {hard : Bool} {i : MintInput} (resolved : Fields) :
    (applyResolution floats hard i resolved).get? i.key =
      leftAt floats hard i (resolved.get? i.key) := by
  have hkept : (if isSiliconExcluded floats hard i then resolved.erase i.key
      else resolved).get? i.key =
      if isSiliconExcluded floats hard i then none else resolved.get? i.key := by
    split_ifs
    · rw [SortedMap.get?_erase, if_pos rfl]
    · rfl
  unfold applyResolution leftAt
  dsimp only
  rw [← hkept]
  generalize (if isSiliconExcluded floats hard i then resolved.erase i.key
    else resolved) = kept
  cases chosenValue floats i with
  | none => rfl
  | some v =>
      dsimp only
      split_ifs
      · exact SortedMap.get?_insert_self _ _ _
      · rfl

theorem appliedFields_get? (hard : Bool) (k : String) :
    (appliedFields floats hard fields evidence).get? k =
      if k ∈ reportedKeys fields evidence then
        leftAt floats hard (inputFor fields evidence k) ((mergedOf fields).get? k)
      else (mergedOf fields).get? k :=
  SortedMap.get?_foldl_keys
    (fun m _ hne => applyResolution_other hne m) (fun m => applyResolution_self m)
    reportedKeys_nodup (mergedOf fields)

theorem foldl_erase_get? (m : Fields) {ks : List String} (hks : ks.Nodup) (k : String) :
    (ks.foldl SortedMap.erase m).get? k = if k ∈ ks then none else m.get? k :=
  SortedMap.get?_foldl_keys (g := fun _ => none)
    (fun m j hne => by rw [SortedMap.get?_erase, if_neg (Ne.symm hne)])
    (fun m => by rw [SortedMap.get?_erase, if_pos rfl]) hks m

theorem resolvedFields_get? (k : String) :
    (resolveFieldsMultiSource floats fields evidence).resolvedFields.get? k =
      if siliconHard floats fields evidence = true ∧ isResolverPoisoned k = true then none
      else (appliedFields floats (siliconHard floats fields evidence) fields evidence).get? k := by
  unfold resolveFieldsMultiSource
  dsimp only
  generalize siliconHard floats fields evidence = hard
  generalize appliedFields floats hard fields evidence = applied
  cases hard with
  | false => simp [poisonedKeys]
  | true =>
      rw [poisonedKeys, if_pos rfl, foldl_erase_get? _ (applied.keys_nodup.filter _)]
      simp only [List.mem_filter, SortedMap.mem_keys, true_and]
      by_cases hpoison : isResolverPoisoned k = true
      · cases hget : applied.get? k <;> simp [hpoison]
      · simp [hpoison]

end Passes

section Other

variable {floats : FloatCompare} {i : MintInput}

theorem eligible_other (hclass : keyClass i.key = .other) :
    eligible i.key i.entries = i.entries := by
  apply List.filter_eq_self.mpr
  intro entry _
  simp [sourceCanSupply, hclass]

theorem chosenSource_other (hclass : keyClass i.key = .other) :
    (resolution floats i).chosenSource =
      (rankSourcesForKey i.key i.entries).head?.map Ranked.source := by
  have hsame := eligible_other hclass
  match hall : i.entries with
  | [] =>
      rw [hall] at hsame
      rw [resolution_of_none (by rw [hall]; exact hsame)]
      rfl
  | [(src, v)] =>
      rw [hall] at hsame
      rw [resolution_of_one (by rw [hall]; exact hsame), rankSourcesForKey, hsame]
      rfl
  | first :: second :: rest =>
      rw [hall] at hsame
      have hranked : rankSourcesForKey i.key (first :: second :: rest) ≠ [] :=
        rankSourcesForKey_ne_nil (by rw [hsame]; exact List.cons_ne_nil _ _)
      rcases List.exists_cons_of_ne_nil hranked with ⟨r, tail, hr⟩
      unfold resolution resolveFieldSource
      rw [hall, hsame]
      simp only [hr, pickAgreed, hclass, List.head?_cons, Option.map_some]
      split_ifs with hcluster hsilicon
      · rfl
      · cases hsilicon
      · rfl

theorem label_pushAbsent {P : String → Prop} {label : String} (hlabel : P label)
    (v : Option Json) {out : List (String × Json)} (h : ∀ entry ∈ out, P entry.1) :
    ∀ entry ∈ pushAbsent label v out, P entry.1 := by
  unfold pushAbsent
  cases v with
  | none => exact h
  | some v =>
      dsimp only
      split_ifs
      · intro entry hentry
        rcases List.mem_append.mp hentry with hold | hnew
        · exact h entry hold
        · rw [List.mem_singleton.mp hnew]
          exact hlabel
      · exact h

theorem label_edgeSlice {P : String → Prop} {label : String} (hlabel : P label)
    (key : String) (slice : Option Json) {out : List (String × Json)}
    (h : ∀ entry ∈ out, P entry.1) :
    ∀ entry ∈ edgeSlice key label slice out, P entry.1 := by
  cases slice with
  | none => exact h
  | some o =>
      have hkey := label_pushAbsent hlabel (o.get? key) h
      have hagent := label_pushAbsent hlabel
        ((o.get? "gateway_user_agent").or (o.get? "edge_user_agent")) hkey
      have hcf : ∀ {out : List (String × Json)}, (∀ entry ∈ out, P entry.1) →
          ∀ entry ∈ cfIpAliases.foldl
            (fun out ak => pushAbsent label (o.get? ak) out) out, P entry.1 := by
        intro out hout
        exact label_pushAbsent hlabel _
          (label_pushAbsent hlabel _ (label_pushAbsent hlabel _ hout))
      unfold edgeSlice
      dsimp only
      split_ifs
      · exact hcf hagent
      · exact hcf hkey
      · exact hagent
      · exact hkey

theorem label_ne_empty (i : MintInput) : ∀ entry ∈ i.entries, entry.1 ≠ "" := by
  let P : String → Prop := fun label => label ≠ ""
  have hgatewayName : P "gateway" := by decide
  have hcloudflareName : P "cloudflare" := by decide
  have hmergedName : P "merged" := by decide
  have hbuckets : ∀ entry ∈ bucketValues i.key i.fieldsBySource, P entry.1 := by
    intro entry hentry
    cases hfbs : i.fieldsBySource with
    | none => simp [bucketValues, hfbs] at hentry
    | some fbs =>
        simp only [bucketValues, hfbs, List.mem_filterMap] at hentry
        rcases hentry with ⟨source, -, hsource⟩
        split_ifs at hsource with hname
        rcases Option.map_eq_some_iff.mp hsource with ⟨v, -, rfl⟩
        intro hempty
        rw [show source.1 = "" from hempty] at hname
        exact absurd hname (by decide)
  unfold MintInput.entries collectSourceValues
  cases i.evidence with
  | none =>
      dsimp only
      split_ifs
      · exact label_pushAbsent hmergedName _ hbuckets
      · exact hbuckets
  | some ev =>
      have hgateway := label_edgeSlice hgatewayName i.key (ev.get? "gateway_fields") hbuckets
      have hedge : ∀ entry ∈ evidenceValues i.key ev (bucketValues i.key i.fieldsBySource),
          P entry.1 := by
        unfold evidenceValues
        dsimp only
        split_ifs
        · exact label_pushAbsent hgatewayName _
            (label_edgeSlice hcloudflareName _ _ hgateway)
        · exact label_pushAbsent hgatewayName _ hgateway
        · exact label_edgeSlice hcloudflareName _ _ hgateway
        · exact hgateway
      dsimp only
      split_ifs
      · exact label_pushAbsent hmergedName _ hedge
      · exact hedge

/-- What the most trusted source that reports the key holds for it in its own
bucket, unless it is null. -/
def firstReported (i : MintInput) : Option Json :=
  ((rankSourcesForKey i.key i.entries).head?.bind fun r =>
    (i.fieldsBySource.bind (·.get? r.source)).bind (·.get? i.key)).filter (!·.isNull)

theorem chosenValue_other (hclass : keyClass i.key = .other)
    (hkey : i.key ∉ neverCommercialMintKeys) :
    chosenValue floats i = firstReported i := by
  have hchosen := @chosenSource_other floats i hclass
  unfold chosenValue firstReported
  simp only [decision_chosen hkey, decision_mintOk hkey, decision_confOnly hkey]
  cases hhead : (rankSourcesForKey i.key i.entries).head? with
  | none =>
      rw [hhead] at hchosen
      simp [hchosen]
  | some r =>
      rw [hhead, Option.map_some] at hchosen
      have hentry := mem_rankSourcesForKey (List.mem_of_head? hhead)
      have hname := label_ne_empty i _ (mem_eligible.mp hentry).1
      rcases resolvedValue_of_chosen hchosen with ⟨v, -, -, hresolved⟩
      have hused : mintOk floats i = true ∨
          (fieldMintDecisionEx floats i).boolOr "conflicted" = true ∨
          (fieldMintDecisionEx floats i).boolOr "agreed" = true ∨
          ((resolvedValue floats i).isSome && !mintOk floats i) = true := by
        rw [hresolved]
        cases mintOk floats i <;> simp
      rw [hchosen, Option.getD_some, if_pos ⟨hname, hused⟩]
      rfl

end Other

end MintGate

end GrServer
