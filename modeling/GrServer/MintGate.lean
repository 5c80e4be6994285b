import GrServer.SourceTrust

/-!
# The mint gate of a field

A field enters the commercial mint body through `fieldMintDecisionEx`.  The
values reported for its key are collected from the browser and the edge,
resolved by trust, and the gate adds rules of its own for a lone source, for
dual channels and for conflicts listed with the evidence.
-/

namespace GrServer

open Json Text EvidenceMerge

namespace MintGate

def neverCommercialMintKeys : List String :=
  ["cpu_cache_ladder", "cpu_cache_knee_bytes", "h2_priority_fingerprint", "h3_pseudo_order",
    "h3_settings_fp", "governed_webgl_renderer", "webgl_renderer_governed", "server_client_ip"]

def dualChannels : List (String × String) :=
  [("hw_curve_webgl", "hw_curve_audio"),
    ("residual_std", "hw_curve_webgl"),
    ("residual_mean", "hw_curve_webgl"),
    ("residual_std", "hw_curve_audio"),
    ("webrtc_host_ip_hash", "os_instance_hash"),
    ("webrtc_host_ip_hash_v2", "os_instance_hash"),
    ("webrtc_host_ip_hash_v2", "webrtc_host_ip_hash"),
    ("hardware_concurrency", "device_memory"),
    ("media_device_count", "display_count"),
    ("media_input_count", "media_output_count"),
    ("screen_width", "hardware_concurrency"),
    ("form_class", "platform")]

def browserBases : List String :=
  ["main", "iframe", "worker", "sandbox", "sandbox_iframe", "shared_worker", "service_worker"]

def isBrowserSrc (src : String) : Bool := browserBases.contains (sourceBase src)

def isEdgeSrc (src : String) : Bool := edgeBases.contains (sourceBase src)

def nonempty : Json → Bool
  | .null => false
  | .str s => s ≠ ""
  | .arr items => !items.isEmpty
  | .obj members => !members.isEmpty
  | .bool _ | .num _ => true

/-- The two comparisons made in floating point. -/
structure FloatCompare where
  numbersClose : ℚ → ℚ → Bool
  meansClose : List Json → List Json → Bool

/-- The lengths of two curves are within an eighth, and at least within two. -/
def sameLengthClass (a b : ℕ) : Bool :=
  |(a : ℤ) - b| ≤ max ((max a b / 8 : ℕ) : ℤ) 2

def approxEq (floats : FloatCompare) (a b : Json) : Bool :=
  if a = b then true
  else
    match a, b with
    | .num _, .num _ => floats.numbersClose (a.asF64.getD 0) (b.asF64.getD 0)
    | .arr xs, .arr ys =>
        !xs.isEmpty && !ys.isEmpty && sameLengthClass xs.length ys.length &&
          floats.meansClose (xs.take 32) (ys.take 32)
    | .str s, .str t => eqIgnoreAsciiCase s t
    | _, _ => false

def pushAbsent (label : String) (v : Option Json) (out : List (String × Json)) :
    List (String × Json) :=
  match v with
  | some v => if nonempty v ∧ ¬ out.any (·.1 = label) then out ++ [(label, v)] else out
  | none => out

def bucketValues (key : String) (fieldsBySource : Option Fields) : List (String × Json) :=
  match fieldsBySource with
  | some fbs =>
      fbs.entries.filterMap fun source =>
        if isBrowserSrc source.1 || isEdgeSrc source.1 then
          ((source.2.get? key).filter nonempty).map fun v => (source.1, v)
        else none
  | none => []

/-- Cloudflare's slice counts only where the edge was really met. -/
def cfOk (ev : Json) : Bool :=
  ((ev.get? "cf_fields").any fun o =>
      (((o.get? "cf_connecting_ip").or (o.get? "cf-connecting-ip")).or (o.get? "cf_ray")).any
        nonempty) ||
    ((ev.get? "fields").bind fun f => (f.get? "cf_edge_present").bind asBool) = some true

def cfIpAliases : List String := ["cf_connecting_ip", "cf-connecting-ip", "client_ip"]

def edgeSlice (key label : String) (slice : Option Json) (out : List (String × Json)) :
    List (String × Json) :=
  match slice with
  | none => out
  | some o =>
      let out := pushAbsent label (o.get? key) out
      let out :=
        if key = "user_agent" then
          pushAbsent label ((o.get? "gateway_user_agent").or (o.get? "edge_user_agent")) out
        else out
      if key = "server_client_ip" ∧ label = "cloudflare" then
        cfIpAliases.foldl (fun out ak => pushAbsent label (o.get? ak) out) out
      else out

/-- The slices of the edge that stand outside `fields_by_source`. -/
def evidenceValues (key : String) (ev : Json) (out : List (String × Json)) :
    List (String × Json) :=
  let out := edgeSlice key "gateway" (ev.get? "gateway_fields") out
  let out := if cfOk ev then edgeSlice key "cloudflare" (ev.get? "cf_fields") out else out
  if key = "user_agent" ∨ key = "gateway_user_agent" then
    pushAbsent "gateway" (ev.pointer ["fields", "gateway_user_agent"]) out
  else out

def collectSourceValues (key : String) (fieldsBySource : Option Fields) (merged : Fields)
    (evidence : Option Json) : List (String × Json) :=
  let out := bucketValues key fieldsBySource
  let out := match evidence with
    | some ev => evidenceValues key ev out
    | none => out
  if out = [] then pushAbsent "merged" (merged.get? key) out else out

def dualChannelPartnerPresent (key : String) (merged : Fields) : Option String :=
  dualChannels.findSome? fun pair =>
    if pair.1 = key then
      if (merged.get? pair.2).any nonempty then some pair.2 else none
    else if pair.2 = key then
      if (merged.get? pair.1).any nonempty then some pair.1 else none
    else none

/-! ## The decision -/

structure MintInput where
  key : String
  fields : Json
  fieldsBySource : Option Fields
  sourceConflicts : List String
  evidence : Option Json

namespace MintInput

def merged (i : MintInput) : Fields := (i.fields.asObject).getD SortedMap.empty

def entries (i : MintInput) : List (String × Json) :=
  collectSourceValues i.key i.fieldsBySource i.merged i.evidence

def listedConflict (i : MintInput) : Bool := (conflictKeys i.sourceConflicts).contains i.key

def dual (i : MintInput) : Option String := dualChannelPartnerPresent i.key i.merged

end MintInput

section Decision

variable (floats : FloatCompare) (i : MintInput)

def resolution : SourceResolution := resolveFieldSource (approxEq floats) i.key i.entries

def conflicted : Bool := i.listedConflict || (resolution floats i).conflicted

/-- The value of the chosen source, else the merged one of a dual channel, else
the only one. -/
def resolvedValue : Option Json :=
  match (resolution floats i).chosenSource with
  | some src => ((i.entries.find? (·.1 = src)).map Prod.snd).or (i.merged.get? i.key)
  | none =>
      if i.dual.isSome then i.merged.get? i.key
      else if i.entries.length = 1 then i.entries.head?.map Prod.snd
      else none

def nonSiliconSingleOk : Bool :=
  (resolvedValue floats i).isSome && i.entries.length = 1 && !conflicted floats i &&
    keyClass i.key ≠ .silicon

def mintOk : Bool :=
  if keyClass i.key = .silicon ∧ (resolution floats i).conflicted then false
  else
    (resolvedValue floats i).isSome &&
      ((resolution floats i).mintValueOk || (i.dual.isSome && keyClass i.key ≠ .silicon) ||
        (i.dual.isSome && !conflicted floats i) || nonSiliconSingleOk floats i)

def decisionMembers : List (String × Json) :=
  let res := resolution floats i
  [("key", .str i.key),
    ("source_count", ofInt i.entries.length),
    ("sources", .arr (i.entries.map fun entry => .str entry.1)),
    ("agreed", .bool res.agreed),
    ("dual_channel", (i.dual.map Json.str).getD .null),
    ("mint_ok", .bool (mintOk floats i)),
    ("conf_only", .bool ((resolvedValue floats i).isSome && !mintOk floats i)),
    ("conflicted", .bool (conflicted floats i)),
    ("chosen_source", (res.chosenSource.map Json.str).getD .null),
    ("chosen_trust", .str ((res.chosenSource.map fun src =>
      (sourceTrustFor src i.key).asStr).getD "none")),
    ("key_class", .str (keyClass i.key).asStr),
    ("reason", .str res.reason),
    ("resolved_present", .bool (resolvedValue floats i).isSome),
    ("policy", .str "prefer_harder_to_forge_on_conflict")]

def neverMintMembers : List (String × Json) :=
  [("key", .str i.key),
    ("mint_ok", .bool false),
    ("mint_value", .null),
    ("reason", .str "never_commercial_mint_key"),
    ("source_count", ofInt 0),
    ("sources", .arr []),
    ("commercial_mint_allowed", .bool false)]

def fieldMintDecisionEx : Json :=
  if neverCommercialMintKeys.contains i.key then
    ofFields (SortedMap.empty.insertEach (neverMintMembers i))
  else ofFields (SortedMap.empty.insertEach (decisionMembers floats i))

def mintAllowed : Bool := (fieldMintDecisionEx floats i).boolOr "mint_ok"

end Decision

section Answer

variable {floats : FloatCompare} {i : MintInput}

theorem mintAllowed_eq :
    mintAllowed floats i =
      (!neverCommercialMintKeys.contains i.key && mintOk floats i) := by
  unfold mintAllowed fieldMintDecisionEx boolOr
  split_ifs with hnever
  · rw [get?_ofFields, SortedMap.get?_insertEach, hnever]
    simp [neverMintMembers, Assoc.find?, asBool]
  · rw [get?_ofFields, SortedMap.get?_insertEach, Bool.eq_false_iff.mpr hnever]
    simp [decisionMembers, Assoc.find?, asBool]

theorem mintAllowed_iff :
    mintAllowed floats i = true ↔
      i.key ∉ neverCommercialMintKeys ∧ mintOk floats i = true := by
  rw [mintAllowed_eq, Bool.and_eq_true, Bool.not_eq_true', Bool.eq_false_iff]
  simp only [ne_eq, List.contains_iff_mem]

end Answer

/-! ## Collected values -/

section Entries

variable {out : List (String × Json)}

def Filled (out : List (String × Json)) : Prop := ∀ entry ∈ out, nonempty entry.2 = true

theorem Filled.pushAbsent (label : String) (v : Option Json) (h : Filled out) :
    Filled (pushAbsent label v out) := by
  unfold MintGate.pushAbsent
  cases v with
  | none => exact h
  | some v =>
      dsimp only
      split_ifs with hpush
      · intro entry hentry
        simp only [List.mem_append, List.mem_singleton] at hentry
        rcases hentry with hentry | hentry
        · exact h entry hentry
        · rw [hentry]
          exact hpush.1
      · exact h

theorem filled_bucketValues (key : String) (fbs : Option Fields) :
    Filled (bucketValues key fbs) := by
  intro entry hentry
  cases fbs with
  | none => simp [bucketValues] at hentry
  | some fbs =>
      simp only [bucketValues, List.mem_filterMap] at hentry
      obtain ⟨source, -, hsource⟩ := hentry
      split_ifs at hsource
      obtain ⟨v, hv, rfl⟩ := Option.map_eq_some_iff.mp hsource
      exact (Option.filter_eq_some_iff.mp hv).2

theorem Filled.edgeSlice (key label : String) (slice : Option Json) (h : Filled out) :
    Filled (edgeSlice key label slice out) := by
  cases slice with
  | none => exact h
  | some o =>
      have hkey := h.pushAbsent label (o.get? key)
      have hagent :=
        hkey.pushAbsent label ((o.get? "gateway_user_agent").or (o.get? "edge_user_agent"))
      have hcf : ∀ {out}, Filled out →
          Filled (cfIpAliases.foldl (fun out ak => MintGate.pushAbsent label (o.get? ak) out) out) :=
        fun hout => ((hout.pushAbsent label _).pushAbsent label _).pushAbsent label _
      unfold MintGate.edgeSlice
      dsimp only
      split_ifs
      · exact hcf hagent
      · exact hcf hkey
      · exact hagent
      · exact hkey

theorem Filled.evidenceValues (key : String) (ev : Json) (h : Filled out) :
    Filled (evidenceValues key ev out) := by
  have hgateway := h.edgeSlice key "gateway" (ev.get? "gateway_fields")
  unfold MintGate.evidenceValues
  dsimp only
  split_ifs
  · exact (hgateway.edgeSlice key "cloudflare" _).pushAbsent "gateway" _
  · exact hgateway.pushAbsent "gateway" _
  · exact hgateway.edgeSlice key "cloudflare" _
  · exact hgateway

theorem filled_entries (i : MintInput) : Filled i.entries := by
  have hbuckets := filled_bucketValues i.key i.fieldsBySource
  unfold MintInput.entries collectSourceValues
  cases i.evidence with
  | none =>
      dsimp only
      split_ifs
      · exact hbuckets.pushAbsent "merged" _
      · exact hbuckets
  | some ev =>
      dsimp only
      split_ifs
      · exact (hbuckets.evidenceValues i.key ev).pushAbsent "merged" _
      · exact hbuckets.evidenceValues i.key ev

end Entries

theorem not_never_of_silicon {key : String} (h : keyClass key = .silicon) :
    key ∉ neverCommercialMintKeys := by
  have hnone : ∀ k ∈ neverCommercialMintKeys, keyClass k ≠ .silicon := by decide
  exact fun hmem => hnone key hmem h

theorem dual_isSome {key : String} {merged : Fields}
    (h : (dualChannelPartnerPresent key merged).isSome = true) :
    ∃ pair ∈ dualChannels, pair.1 = key ∨ pair.2 = key := by
  obtain ⟨partner, hpartner⟩ := Option.isSome_iff_exists.mp h
  obtain ⟨pair, hpair, hfound⟩ := List.exists_of_findSome?_eq_some hpartner
  refine ⟨pair, hpair, ?_⟩
  split_ifs at hfound with hfst hmerged hsnd
  · exact Or.inl hfst
  · exact Or.inr hsnd

theorem dual_none_of_edgeClass {key : String} (merged : Fields)
    (h : keyClass key = .protocol ∨ keyClass key = .network) :
    dualChannelPartnerPresent key merged = none := by
  have hclass : ∀ pair ∈ dualChannels, ∀ k ∈ [pair.1, pair.2],
      ¬ (keyClass k = .protocol ∨ keyClass k = .network) := by decide
  by_contra hdual
  obtain ⟨pair, hpair, hkey⟩ := dual_isSome (Option.isSome_iff_ne_none.mpr hdual)
  refine hclass pair hpair key ?_ h
  rcases hkey with hkey | hkey <;> simp [hkey]

theorem edge_of_canSupply {src key : String}
    (hclass : keyClass key = .protocol ∨ keyClass key = .network)
    (h : sourceCanSupply src key = true) : isEdgeSrc src = true := by
  unfold sourceCanSupply at h
  rcases hclass with hclass | hclass <;> simpa [hclass, isEdgeSrc] using h

theorem not_edge_of_browser {src : String} (h : isBrowserSrc src = true) :
    isEdgeSrc src = false := by
  have hdisjoint : ∀ base ∈ browserBases, edgeBases.contains base = false := by decide
  exact hdisjoint _ (List.contains_iff_mem.mp h)

section Resolution

variable {floats : FloatCompare} {i : MintInput}

theorem resolution_of_none (h : eligible i.key i.entries = []) :
    resolution floats i = noEligibleSource := by
  unfold resolution resolveFieldSource
  rw [h]

theorem resolution_of_one {src : String} {v : Json} (h : eligible i.key i.entries = [(src, v)]) :
    resolution floats i =
      ⟨some src, sourceTrustFor src i.key, false, false, false, "single_source_conf_only"⟩ := by
  unfold resolution resolveFieldSource
  rw [h]

theorem resolution_silicon {first second : String × Json} {rest : List (String × Json)}
    (hclass : keyClass i.key = .silicon)
    (h : eligible i.key i.entries = first :: second :: rest) :
    ((∀ entry ∈ second :: rest, approxEq floats first.2 entry.2 = true) →
        (resolution floats i).mintValueOk = true ∧ (resolution floats i).conflicted = false) ∧
      (¬ (∀ entry ∈ second :: rest, approxEq floats first.2 entry.2 = true) →
        (resolution floats i).conflicted = true) := by
  have hsingle := @clustersOf_single (approxEq floats) first (second :: rest)
  have hranked : rankSourcesForKey i.key (first :: second :: rest) ≠ [] := by
    apply rankSourcesForKey_ne_nil
    rw [← h, eligible_eligible, h]
    exact List.cons_ne_nil _ _
  obtain ⟨r, hr⟩ := Option.isSome_iff_exists.mp (@pickAgreed_isSome i.key _ hranked)
  unfold resolution resolveFieldSource
  rw [h]
  dsimp only
  constructor
  · intro hagree
    rw [if_pos (hsingle.mpr hagree), hr]
    exact ⟨rfl, rfl⟩
  · intro hconflict
    rw [if_neg fun hone => hconflict (hsingle.mp hone), if_pos hclass]

theorem resolvedValue_of_chosen {src : String}
    (h : (resolution floats i).chosenSource = some src) :
    ∃ v, (src, v) ∈ i.entries ∧ sourceCanSupply src i.key = true ∧
      resolvedValue floats i = some v := by
  obtain ⟨w, hw⟩ := chosen_eligible h
  obtain ⟨hmem, hsupply⟩ := mem_eligible.mp hw
  have hsome : (i.entries.find? (·.1 = src)).isSome = true :=
    List.find?_isSome.mpr ⟨(src, w), hmem, by simp⟩
  obtain ⟨entry, hfind⟩ := Option.isSome_iff_exists.mp hsome
  have hlabel : entry.1 = src := by simpa using List.find?_some hfind
  have hentry : entry ∈ i.entries := List.mem_of_find?_eq_some hfind
  have hresolved : resolvedValue floats i = some entry.2 := by
    unfold resolvedValue
    rw [h]
    dsimp only
    rw [hfind, Option.map_some, Option.some_or]
  exact ⟨entry.2, hlabel ▸ hentry, hsupply, hresolved⟩

theorem mintValueOk_of_none (h : (resolution floats i).chosenSource = none) :
    (resolution floats i).mintValueOk = false := by
  by_contra hok
  have hsome := chosen_of_mintValueOk (Bool.eq_true_of_not_eq_false hok)
  rw [show resolveFieldSource (approxEq floats) i.key i.entries = resolution floats i from rfl,
    h] at hsome
  exact Bool.false_ne_true hsome

theorem lone_of_mintOk (hmint : mintOk floats i = true) (hdual : i.dual = none)
    (hchosen : (resolution floats i).chosenSource = none) :
    keyClass i.key ≠ .silicon ∧ i.listedConflict = false ∧ ∃ entry, i.entries = [entry] := by
  unfold mintOk at hmint
  rw [mintValueOk_of_none hchosen, hdual] at hmint
  split_ifs at hmint
  simp only [Option.isSome_none, Bool.false_and, Bool.or_false, Bool.false_or,
    Bool.and_eq_true, nonSiliconSingleOk, decide_eq_true_eq, Bool.not_eq_true',
    ne_eq] at hmint
  obtain ⟨-, ⟨⟨-, hone⟩, hconflict⟩, hclass⟩ := hmint
  have hlisted : i.listedConflict = false := (Bool.or_eq_false_iff.mp hconflict).1
  exact ⟨hclass, hlisted, List.length_eq_one_iff.mp hone⟩

end Resolution

/-! ## Only entitled sources reach the mint -/

/-- What the gate owes to the trust table. -/
structure EntitledOnly (floats : FloatCompare) (i : MintInput) : Prop where
  supplied : mintAllowed floats i = true → i.dual = none →
    ∃ src v, (src, v) ∈ i.entries ∧ sourceCanSupply src i.key = true ∧
      nonempty v = true ∧ resolvedValue floats i = some v
  edgeOnly : keyClass i.key = .protocol ∨ keyClass i.key = .network →
    (∀ entry ∈ i.entries, isBrowserSrc entry.1 = true) → mintAllowed floats i = false
  agreedSilicon : keyClass i.key = .silicon →
    ∀ a ∈ i.entries, ∀ b ∈ i.entries, isBrowserSrc a.1 = true → isBrowserSrc b.1 = true →
      approxEq floats a.2 b.2 = false → mintAllowed floats i = false

/-- The only value of the key comes from a source that may not supply it. -/
structure LoneIneligible (i : MintInput) : Prop where
  mintable : i.key ∉ neverCommercialMintKeys
  notSilicon : keyClass i.key ≠ .silicon
  noDual : i.dual = none
  notListed : i.listedConflict = false
  lone : ∃ entry, i.entries = [entry] ∧ sourceCanSupply entry.1 i.key = false

/-- Two browser values of a silicon key differ, but the eligible ones look alike
to the gate: each is close to the first of them, or there is at most one and a
dual channel stands in. -/
structure UnseenDisagreement (floats : FloatCompare) (i : MintInput) : Prop where
  silicon : keyClass i.key = .silicon
  disagree : ∃ a ∈ i.entries, ∃ b ∈ i.entries, isBrowserSrc a.1 = true ∧
    isBrowserSrc b.1 = true ∧ approxEq floats a.2 b.2 = false
  unseen :
    (∃ first second rest, eligible i.key i.entries = first :: second :: rest ∧
      ∀ entry ∈ second :: rest, approxEq floats first.2 entry.2 = true) ∨
    (i.dual.isSome = true ∧ i.listedConflict = false ∧
      ((∃ entry, eligible i.key i.entries = [entry]) ∨
        eligible i.key i.entries = [] ∧ (i.merged.get? i.key).isSome = true))

section Contract

variable {floats : FloatCompare} {i : MintInput}

theorem LoneIneligible.eligible_nil (h : LoneIneligible i) : eligible i.key i.entries = [] := by
  obtain ⟨entry, hentry, hsupply⟩ := h.lone
  rw [hentry, eligible, List.filter_cons_of_neg (by simp [hsupply]), List.filter_nil]

theorem LoneIneligible.minted (h : LoneIneligible i) : mintAllowed floats i = true := by
  have hres := @resolution_of_none floats i h.eligible_nil
  obtain ⟨entry, hentry, -⟩ := h.lone
  have hresolved : resolvedValue floats i = some entry.2 := by
    unfold resolvedValue
    rw [hres, h.noDual, hentry]
    rfl
  have hquiet : conflicted floats i = false := by
    rw [conflicted, hres, h.notListed]
    rfl
  have hsingle : nonSiliconSingleOk floats i = true := by
    unfold nonSiliconSingleOk
    rw [hresolved, hquiet, hentry]
    simp [h.notSilicon]
  rw [mintAllowed_iff]
  refine ⟨h.mintable, ?_⟩
  unfold mintOk
  rw [if_neg fun hsilicon => h.notSilicon hsilicon.1, hresolved, hsingle]
  simp

theorem supplied_or_lone (hmint : mintAllowed floats i = true) (hdual : i.dual = none) :
    (∃ src v, (src, v) ∈ i.entries ∧ sourceCanSupply src i.key = true ∧
      nonempty v = true ∧ resolvedValue floats i = some v) ∨ LoneIneligible i := by
  obtain ⟨hmintable, hok⟩ := mintAllowed_iff.mp hmint
  cases hchosen : (resolution floats i).chosenSource with
  | some src =>
      obtain ⟨v, hmem, hsupply, hresolved⟩ := resolvedValue_of_chosen hchosen
      exact Or.inl ⟨src, v, hmem, hsupply, filled_entries i _ hmem, hresolved⟩
  | none =>
      obtain ⟨hclass, hlisted, entry, hentry⟩ := lone_of_mintOk hok hdual hchosen
      refine Or.inr ⟨hmintable, hclass, hdual, hlisted, entry, hentry, ?_⟩
      by_contra hsupply
      have hone : eligible i.key i.entries = [(entry.1, entry.2)] := by
        rw [hentry, eligible, List.filter_cons_of_pos (by simpa using hsupply), List.filter_nil]
      rw [resolution_of_one hone] at hchosen
      cases hchosen

theorem lone_of_edgeClass (hclass : keyClass i.key = .protocol ∨ keyClass i.key = .network)
    (hbrowser : ∀ entry ∈ i.entries, isBrowserSrc entry.1 = true)
    (hmint : mintAllowed floats i = true) : LoneIneligible i := by
  have hdual : i.dual = none := dual_none_of_edgeClass i.merged hclass
  rcases supplied_or_lone hmint hdual with ⟨src, v, hmem, hsupply, -, -⟩ | hlone
  · have hedge := edge_of_canSupply hclass hsupply
    rw [not_edge_of_browser (hbrowser _ hmem)] at hedge
    exact absurd hedge Bool.false_ne_true
  · exact hlone

theorem mintAllowed_silicon_quiet (hclass : keyClass i.key = .silicon)
    (hvalue : (resolution floats i).mintValueOk = false)
    (hconflict : (resolution floats i).conflicted = false) :
    mintAllowed floats i = true ↔
      (resolvedValue floats i).isSome = true ∧ i.dual.isSome = true ∧
        i.listedConflict = false := by
  have hmintable := not_never_of_silicon hclass
  rw [mintAllowed_iff]
  unfold mintOk nonSiliconSingleOk conflicted
  rw [hvalue, hconflict, hclass]
  simp [hmintable]

theorem mintAllowed_silicon (hclass : keyClass i.key = .silicon) :
    mintAllowed floats i = true ↔
      (∃ first second rest, eligible i.key i.entries = first :: second :: rest ∧
        ∀ entry ∈ second :: rest, approxEq floats first.2 entry.2 = true) ∨
      (i.dual.isSome = true ∧ i.listedConflict = false ∧
        ((∃ entry, eligible i.key i.entries = [entry]) ∨
          eligible i.key i.entries = [] ∧ (i.merged.get? i.key).isSome = true)) := by
  match hlist : eligible i.key i.entries with
  | [] =>
      have hres := @resolution_of_none floats i hlist
      rw [mintAllowed_silicon_quiet hclass (by rw [hres]; rfl) (by rw [hres]; rfl)]
      have hresolved : i.dual.isSome = true →
          resolvedValue floats i = i.merged.get? i.key := by
        intro hdual
        unfold resolvedValue
        rw [hres]
        exact if_pos hdual
      constructor
      · intro h
        obtain ⟨hsome, hdual, hlisted⟩ := h
        rw [hresolved hdual] at hsome
        exact Or.inr ⟨hdual, hlisted, Or.inr ⟨rfl, hsome⟩⟩
      · intro h
        rcases h with ⟨_, _, _, hcons, -⟩ | ⟨hdual, hlisted, ⟨_, hcons⟩ | ⟨-, hsome⟩⟩
        · cases hcons
        · cases hcons
        · exact ⟨by rw [hresolved hdual]; exact hsome, hdual, hlisted⟩
  | [(src, v)] =>
      have hres := @resolution_of_one floats i _ _ hlist
      rw [mintAllowed_silicon_quiet hclass (by rw [hres]) (by rw [hres])]
      obtain ⟨w, -, -, hresolved⟩ :=
        @resolvedValue_of_chosen floats i src (by rw [hres])
      rw [hresolved]
      simp
  | first :: second :: rest =>
      obtain ⟨hagree, hdisagree⟩ := @resolution_silicon floats i _ _ _ hclass hlist
      have hmintable := not_never_of_silicon hclass
      rw [mintAllowed_iff]
      unfold mintOk
      by_cases hclose : ∀ entry ∈ second :: rest, approxEq floats first.2 entry.2 = true
      · obtain ⟨hvalue, hquiet⟩ := hagree hclose
        obtain ⟨src, hsrc⟩ := Option.isSome_iff_exists.mp (chosen_of_mintValueOk hvalue)
        obtain ⟨v, -, -, hresolved⟩ := @resolvedValue_of_chosen floats i _ hsrc
        rw [hquiet, hvalue, hresolved]
        have hmint : i.key ∉ neverCommercialMintKeys ∧
            (if keyClass i.key = .silicon ∧ false = true then false
              else (some v).isSome && (true || (i.dual.isSome && keyClass i.key ≠ .silicon) ||
                (i.dual.isSome && !conflicted floats i) || nonSiliconSingleOk floats i)) = true := by
          simp [hmintable]
        exact iff_of_true hmint (Or.inl ⟨first, second, rest, rfl, hclose⟩)
      · rw [if_pos ⟨hclass, hdisagree hclose⟩]
        constructor
        · intro h
          exact absurd h.2 Bool.false_ne_true
        · intro h
          rcases h with ⟨_, _, _, hcons, hall⟩ | ⟨-, -, ⟨_, hcons⟩ | ⟨hcons, -⟩⟩
          · simp only [List.cons.injEq] at hcons
            obtain ⟨rfl, rfl, rfl⟩ := hcons
            exact absurd hall hclose
          · cases hcons
          · cases hcons

theorem UnseenDisagreement.minted (h : UnseenDisagreement floats i) :
    mintAllowed floats i = true :=
  (mintAllowed_silicon h.silicon).mpr h.unseen

/-- The gate mints only what an entitled source supplies, unless a source that
may not supply the key stands alone or a silicon disagreement escapes it. -/
theorem entitledOnly_iff :
    EntitledOnly floats i ↔ ¬ LoneIneligible i ∧ ¬ UnseenDisagreement floats i := by
  constructor
  · intro h
    constructor
    · intro hlone
      obtain ⟨src, v, hmem, hsupply, -, -⟩ := h.supplied hlone.minted hlone.noDual
      have heligible := mem_eligible.mpr ⟨hmem, hsupply⟩
      rw [hlone.eligible_nil] at heligible
      exact List.not_mem_nil heligible
    · intro hunseen
      obtain ⟨a, ha, b, hb, habrowser, hbbrowser, hdiffer⟩ := hunseen.disagree
      have hmint := hunseen.minted
      rw [h.agreedSilicon hunseen.silicon a ha b hb habrowser hbbrowser hdiffer] at hmint
      exact Bool.false_ne_true hmint
  · intro h
    obtain ⟨hlone, hunseen⟩ := h
    constructor
    · intro hmint hdual
      exact (supplied_or_lone hmint hdual).resolve_right hlone
    · intro hclass hbrowser
      by_contra hmint
      exact hlone (lone_of_edgeClass hclass hbrowser (Bool.eq_true_of_not_eq_false hmint))
    · intro hclass a ha b hb habrowser hbbrowser hdiffer
      by_contra hmint
      exact hunseen ⟨hclass, ⟨a, ha, b, hb, habrowser, hbbrowser, hdiffer⟩,
        (mintAllowed_silicon hclass).mp (Bool.eq_true_of_not_eq_false hmint)⟩

end Contract

def exactCompare : FloatCompare := ⟨fun x y => x = y, fun xs ys => xs = ys⟩

def browserJa4 : MintInput :=
  let fields : List (String × Json) := [("ja4", .str "t13d1516h2")]
  { key := "ja4"
    fields := .obj fields
    fieldsBySource := some (SortedMap.ofEntries [("main", .obj fields)])
    sourceConflicts := []
    evidence := none }

theorem browser_ja4_minted : ¬ EntitledOnly exactCompare browserJa4 := by
  have hentries : browserJa4.entries = [("main", .str "t13d1516h2")] := by decide
  have hlone : LoneIneligible browserJa4 :=
    ⟨by decide, by decide, by decide, by decide, _, hentries, by decide⟩
  intro h
  have hrefused := h.edgeOnly (Or.inl (by decide)) (by rw [hentries]; decide)
  rw [hlone.minted] at hrefused
  exact Bool.false_ne_true hrefused.symm

end MintGate

end GrServer
