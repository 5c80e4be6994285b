import GrServer.JsonPath
import GrServer.PlanEpoch
import GrServer.Text

/-!
# The analyze mask

The evidence of a session is hashed in two families, its `fields` and the rest,
after the members the analyzer writes itself have been left out.  A stored mask
that matches the current one lets the analysis be skipped.
-/

namespace GrServer

open Json Text PlanEpoch

namespace AnalyzeMask

/-! ## Masks -/

def analyzeMaskSchema : String := "analyze_mask_v1"

def maskBookkeepingKeys : List String :=
  ["analyzed_mask_v1", "analysis_rev", "skip_session_probe", "session_ticket", "pagehide_flush",
    "stop_reason", "updated_ms", "last_upload_ms", "plan_version", "plan_epoch", "belief",
    "missions", "capability_envelope", "battle_log", "battle_log_history", "policy_band",
    "direction_priors", "unknown_bucket", "prior_belief"]

def isBookkeeping (k : String) : Bool := maskBookkeepingKeys.contains k

structure MaskEnv where
  toText : Json → String
  sha256Hex : List UInt8 → String

def cleanBookkeeping (v : Json) : Json := strip isBookkeeping v

def MaskEnv.valueHash (env : MaskEnv) (v : Json) : String :=
  String.ofList ((env.sha256Hex (asBytes (env.toText v))).toList.take 16)

def fieldsOf (v : Json) : Json := (v.get? "fields").getD .null

def restOf (v : Json) : Json :=
  match v with
  | .obj members => .obj (Assoc.erase "fields" members)
  | v => v

def familyHashes (env : MaskEnv) (evidence : Json) : Json :=
  let cleaned := cleanBookkeeping evidence
  .obj [
    ("fields", .str (env.valueHash (fieldsOf cleaned))),
    ("rest", .str (env.valueHash (restOf cleaned)))]

def evidenceInputHash (env : MaskEnv) (evidence : Json) : String :=
  env.valueHash (cleanBookkeeping evidence)

def buildMask (env : MaskEnv) (evidence : Json) (productVersion : String) : Json :=
  .obj [
    ("families", familyHashes env evidence),
    ("input_hash", .str (evidenceInputHash env evidence)),
    ("product_version", .str productVersion),
    ("schema", .str analyzeMaskSchema)]

def maskMatches (stored : Option Json) (current : Json) : Bool :=
  match stored with
  | none => false
  | some s =>
      if (s.get? "schema").bind asStr ≠ some analyzeMaskSchema then false
      else if (s.get? "product_version").bind asStr ≠
          (current.get? "product_version").bind asStr then false
      else s.get? "families" = current.get? "families"

section Matching

variable {env : MaskEnv} {version : String}

theorem fieldsOf_clean (v : Json) :
    fieldsOf (cleanBookkeeping v) = cleanBookkeeping (fieldsOf v) := by
  cases v with
  | obj members =>
      have hfind := @find?_stripMembers isBookkeeping "fields" members
      rw [if_neg (by decide)] at hfind
      unfold fieldsOf cleanBookkeeping
      rw [Json.strip, get?_obj, get?_obj, hfind]
      cases Assoc.find? "fields" members <;> rfl
  | _ => rfl

theorem restOf_clean (v : Json) : restOf (cleanBookkeeping v) = cleanBookkeeping (restOf v) := by
  cases v with
  | obj members =>
      unfold restOf cleanBookkeeping
      rw [Json.strip]
      dsimp only
      rw [Json.strip, stripMembers_eq, stripMembers_eq, Assoc.erase, Assoc.erase, List.filter_map,
        List.filter_filter, List.filter_filter]
      congr 3
      funext entry
      exact Bool.and_comm _ _
  | _ => rfl

theorem maskMatches_iff {a b : Json} :
    maskMatches (some (buildMask env a version)) (buildMask env b version) = true ↔
      env.valueHash (cleanBookkeeping (fieldsOf a)) =
          env.valueHash (cleanBookkeeping (fieldsOf b)) ∧
        env.valueHash (cleanBookkeeping (restOf a)) =
          env.valueHash (cleanBookkeeping (restOf b)) := by
  simp [maskMatches, buildMask, familyHashes, Assoc.find?, fieldsOf_clean, restOf_clean]

end Matching

/-! ## Evidence up to bookkeeping -/

def Evidence : Type := { v : Json // v.Canonical }

def eraseBookkeeping (v : Json) : Json :=
  match v with
  | .obj members => .obj (members.filter fun entry => !isBookkeeping entry.1)
  | v => v

/-- Evidence without the bookkeeping members at the root and in the members
`places`, where the analyzer writes them. -/
def eraseDocumented (places : List String) (v : Json) : Json :=
  match v with
  | .obj members =>
      .obj ((members.filter fun entry => !isBookkeeping entry.1).map fun entry =>
        (entry.1, if entry.1 ∈ places then eraseBookkeeping entry.2 else entry.2))
  | v => v

def startsHidden : List Step → Bool
  | .key k :: _ => isBookkeeping k
  | _ => false

/-- A path at or below a bookkeeping member of the root or of one of `places`. -/
def documented (places : List String) : List Step → Bool
  | .key k :: rest => isBookkeeping k || places.contains k && startsHidden rest
  | _ => false

/-- A path the mask does not see although nothing documents it: through a
bookkeeping name elsewhere, or the fields themselves, where null stands for
none. -/
def Covert (places : List String) (p : List Step) : Prop :=
  documented places p = false ∧ (plain isBookkeeping p = false ∨ p = [.key "fields"])

/-- Nothing that the mask sees differs. -/
def VisiblyEqual (a b : Json) : Prop :=
  ∀ p, plain isBookkeeping p = true → headAt a p = headAt b p

section Erase

variable {places : List String}

theorem find?_filter_bookkeeping (k : String) (members : List (String × Json)) :
    Assoc.find? k (members.filter fun entry => !isBookkeeping entry.1) =
      if isBookkeeping k then none else Assoc.find? k members := by
  induction members with
  | nil => simp
  | cons entry rest ih =>
      rw [List.filter_cons]
      by_cases hk : k = entry.1
      · subst hk
        by_cases hname : isBookkeeping entry.1 = true
        · simpa [hname] using ih
        · simp [hname, Assoc.find?]
      · by_cases hname : isBookkeeping entry.1 = true
        · simp [hname, ih, Assoc.find?, hk]
        · simp [hname, ih, Assoc.find?, hk]

theorem find?_map_value (f : String → Json → Json) (k : String) (members : List (String × Json)) :
    Assoc.find? k (members.map fun entry => (entry.1, f entry.1 entry.2)) =
      (Assoc.find? k members).map (f k) := by
  induction members with
  | nil => simp
  | cons entry rest ih =>
      by_cases hk : k = entry.1
      · simp [Assoc.find?, ← hk]
      · simp [Assoc.find?, hk, ih]

theorem headAt_eraseBookkeeping (v : Json) (p : List Step) :
    headAt (eraseBookkeeping v) p = if startsHidden p then none else headAt v p := by
  match p with
  | [] => cases v <;> rfl
  | .item i :: rest => cases v <;> rfl
  | .key k :: rest =>
      cases v with
      | obj members =>
          rw [eraseBookkeeping, headAt_key, headAt_key, find?_filter_bookkeeping, startsHidden]
          by_cases hname : isBookkeeping k = true
          · rw [if_pos hname, if_pos hname, Option.bind_none]
          · rw [if_neg hname, if_neg hname]
      | _ => simp [eraseBookkeeping, headAt, at?]

theorem headAt_eraseDocumented (v : Json) (p : List Step) :
    headAt (eraseDocumented places v) p = if documented places p then none else headAt v p := by
  match p with
  | [] => cases v <;> rfl
  | .item i :: rest => cases v <;> rfl
  | .key k :: rest =>
      cases v with
      | obj members =>
          rw [eraseDocumented, headAt_key, headAt_key,
            find?_map_value (fun k v => if k ∈ places then eraseBookkeeping v else v),
            find?_filter_bookkeeping, documented]
          by_cases hname : isBookkeeping k = true
          · simp [hname]
          · by_cases hplace : k ∈ places
            · cases hfind : Assoc.find? k members <;>
                simp [hname, hplace, headAt_eraseBookkeeping]
            · simp [hname, hplace]
      | _ => simp [eraseDocumented, headAt, at?]

theorem canonical_eraseBookkeeping {v : Json} (h : Canonical v) :
    Canonical (eraseBookkeeping v) := by
  cases v with
  | obj members =>
      apply Canonical.obj
      · exact h.sorted.sublist (List.Sublist.map Prod.fst List.filter_sublist)
      · intro entry hentry
        exact h.members entry (List.mem_of_mem_filter hentry)
  | _ => exact h

theorem canonical_eraseDocumented {v : Json} (h : Canonical v) :
    Canonical (eraseDocumented places v) := by
  cases v with
  | obj members =>
      apply Canonical.obj
      · have hkeys : Assoc.keys ((members.filter fun entry => !isBookkeeping entry.1).map
            fun entry => (entry.1,
              if entry.1 ∈ places then eraseBookkeeping entry.2 else entry.2)) =
            Assoc.keys (members.filter fun entry => !isBookkeeping entry.1) := by
          simp [Assoc.keys, Function.comp_def]
        unfold Assoc.Sorted
        rw [hkeys]
        exact h.sorted.sublist (List.Sublist.map Prod.fst List.filter_sublist)
      · intro entry hentry
        obtain ⟨source, hsource, rfl⟩ := List.mem_map.mp hentry
        have hvalue := h.members source (List.mem_of_mem_filter hsource)
        dsimp only
        split_ifs
        · exact canonical_eraseBookkeeping hvalue
        · exact hvalue
  | _ => exact h

theorem eraseDocumented_eq_iff {a b : Json} (ha : Canonical a) (hb : Canonical b) :
    eraseDocumented places a = eraseDocumented places b ↔
      ∀ p, documented places p = false → headAt a p = headAt b p := by
  constructor
  · intro h p hp
    have hat := congrArg (fun v => headAt v p) h
    simpa [headAt_eraseDocumented, hp] using hat
  · intro h
    apply (canonical_eraseDocumented ha).ext (canonical_eraseDocumented hb)
    intro p
    rw [headAt_eraseDocumented, headAt_eraseDocumented]
    by_cases hp : documented places p = true
    · rw [if_pos hp, if_pos hp]
    · rw [if_neg hp, if_neg hp, h p (Bool.eq_false_iff.mpr hp)]

theorem canonical_fieldsOf {v : Json} (h : Canonical v) : Canonical (fieldsOf v) := by
  unfold fieldsOf
  cases v with
  | obj members =>
      rw [get?_obj]
      cases hfind : Assoc.find? "fields" members with
      | none => exact .null
      | some w => exact h.members _ (Assoc.mem_of_find? hfind)
  | _ => exact .null

theorem canonical_restOf {v : Json} (h : Canonical v) : Canonical (restOf v) := by
  cases v with
  | obj members =>
      apply Canonical.obj
      · exact h.sorted.erase "fields"
      · intro entry hentry
        exact h.members entry (List.mem_of_mem_filter hentry)
  | _ => exact h

theorem headAt_fields (v : Json) (step : Step) (rest : List Step) :
    headAt v (.key "fields" :: step :: rest) = headAt (fieldsOf v) (step :: rest) := by
  cases v with
  | obj members =>
      rw [headAt_key, fieldsOf, get?_obj]
      cases Assoc.find? "fields" members with
      | none => simp [headAt, at?]
      | some w => rfl
  | _ => simp [fieldsOf, Json.get?, headAt, at?]

theorem headAt_rest (v : Json) (p : List Step) (h : ∀ rest, p ≠ .key "fields" :: rest) :
    headAt v p = headAt (restOf v) p := by
  cases v with
  | obj members =>
      match p with
      | [] => rfl
      | .item i :: rest => rfl
      | .key k :: rest =>
          have hk : k ≠ "fields" := by
            intro heq
            exact h rest (by rw [heq])
          rw [restOf, headAt_key, headAt_key, Assoc.find?_erase, if_neg hk]
  | _ => rfl

theorem eraseDocumented_eq_of_visible {a b : Json} (ha : Canonical a) (hb : Canonical b)
    (hfields : VisiblyEqual (fieldsOf a) (fieldsOf b)) (hrest : VisiblyEqual (restOf a) (restOf b)) :
    eraseDocumented places a = eraseDocumented places b ↔
      ∀ p, Covert places p → headAt a p = headAt b p := by
  rw [eraseDocumented_eq_iff ha hb]
  constructor
  · intro h p hp
    exact h p hp.1
  · intro h p hp
    by_cases hplain : plain isBookkeeping p = true
    · by_cases hbelow : ∃ rest, p = .key "fields" :: rest
      · obtain ⟨rest, rfl⟩ := hbelow
        cases rest with
        | nil => exact h _ ⟨hp, Or.inr rfl⟩
        | cons step rest =>
            rw [plain, List.all_cons, Bool.and_eq_true] at hplain
            rw [headAt_fields, headAt_fields, hfields _ hplain.2]
      · have hother : ∀ rest, p ≠ .key "fields" :: rest := fun rest heq => hbelow ⟨rest, heq⟩
        rw [headAt_rest a p hother, headAt_rest b p hother, hrest p hplain]
    · exact h p ⟨hp, Or.inl (Bool.eq_false_iff.mpr hplain)⟩

end Erase

structure EvidenceBase where
  sessionId : String
  visitorTerminalId : String
  sources : Json
  batches : List Json
  fields : Json
  fieldsBySource : Json
  sourceConflicts : Json
  multiSourceConsistency : Json
  sourceAuthView : Json
  realmConflictGraph : Json
  authenticFieldsForMint : Json
  hasGateway : Bool
  hasCloudflare : Bool
  gatewayFields : Json
  cfFields : Json

def EvidenceBase.evidenceRev (base : EvidenceBase) : Json := ofInt base.batches.length

def metaOut (rev : Json) (v : Json) : Json :=
  match v with
  | .obj members => ofFields ((SortedMap.ofEntries members).insert "evidence_rev" rev)
  | v => v

def batchMembers (base : EvidenceBase) : List (String × Json) :=
  [("session_id", .str base.sessionId),
    ("visitor_terminal_id", .str base.visitorTerminalId),
    ("sources", base.sources),
    ("batches", .arr base.batches),
    ("fields", base.fields),
    ("fields_by_source", base.fieldsBySource),
    ("source_conflicts", base.sourceConflicts),
    ("multi_source_consistency", base.multiSourceConsistency),
    ("source_auth_view", base.sourceAuthView),
    ("realm_conflict_graph", base.realmConflictGraph),
    ("authentic_fields_for_mint", base.authenticFieldsForMint),
    ("evidence_rev", base.evidenceRev),
    ("has_gateway", .bool base.hasGateway),
    ("has_cloudflare", .bool base.hasCloudflare),
    ("gateway_fields", base.gatewayFields),
    ("cf_fields", base.cfFields)]

/-- The page id, which both analyzers raise from the fields to the root. -/
def pageMembers (base : EvidenceBase) : List (String × Json) :=
  ((base.fields.get? "page_id").map fun pid => ("page_id", pid)).toList

def rowMembers (base : EvidenceBase) (sessionMeta : Json) (updatedMs : ℤ) :
    List (String × Json) :=
  [("meta", metaOut base.evidenceRev sessionMeta),
    ("session_meta", metaOut base.evidenceRev sessionMeta),
    ("prior_belief", (sessionMeta.get? "belief").getD .null),
    ("last_upload_ms", ofInt updatedMs),
    ("updated_ms", ofInt updatedMs)]

/-- `build_evidence`, as far as the meta and the clock go into it, with the page id
in its place. -/
def buildEvidence (base : EvidenceBase) (sessionMeta : Json) (updatedMs : ℤ) : Json :=
  ofFields (SortedMap.empty.insertEach
    (batchMembers base ++ pageMembers base ++ rowMembers base sessionMeta updatedMs))

/-! ## What the analyzer writes back -/

/-- A write of the analyzer; a write of the HTTP path may rest on an older
meta. -/
inductive AnalyzerWrite where
  | worker (result curMask : Json) (rev : Int64)
  | mask (curMask : Json) (rev : Int64)
  | brain (result : Json) (rev : Int64) (prior history : Json)
  | ticket (result : Json)

def AnalyzerWrite.patch (w : AnalyzerWrite) (sessionMeta : Json) : Fields :=
  match w with
  | .worker result curMask rev =>
      assembleBundleMetaPatch (workerBundle result curMask) rev sessionMeta
  | .mask curMask rev =>
      SortedMap.empty.insertEach
        [("analyzed_mask_v1", curMask), ("analysis_rev", ofInt rev.toInt)]
  | .brain result rev prior history =>
      withMember (persistPatch result rev prior) "battle_log_history"
        ((result.get? "battle_log").map (rollHistory history))
  | .ticket result =>
      match (result.get? "session_ticket").filter isObject with
      | some t =>
          SortedMap.empty.insertEach [("session_ticket", t), ("skip_session_probe", .bool true)]
      | none => SortedMap.empty.insertEach [("skip_session_probe", .bool false)]

def afterWrites (sessionMeta : Json) (writes : List AnalyzerWrite) : Json :=
  writes.foldl (fun v w => mergePatch v (w.patch v)) sessionMeta

section WriteBack

variable {k : String}

theorem controlKeys_written : ∀ j ∈ controlKeys, isBookkeeping j = true ∨ j = "evidence_rev" := by
  decide

theorem ne_of_visible {j : String} (hk : isBookkeeping k = false) (hj : isBookkeeping j = true) :
    k ≠ j := by
  intro heq
  rw [heq, hj] at hk
  cases hk

theorem patch_get?_of_visible (hk : isBookkeeping k = false) (hrev : k ≠ "evidence_rev")
    (w : AnalyzerWrite) (v : Json) : (w.patch v).get? k = none := by
  have hne : ∀ {j : String}, isBookkeeping j = true → k ≠ j := ne_of_visible hk
  have hcontrol : k ∉ controlKeys := by
    intro hmem
    rcases controlKeys_written k hmem with hbook | heq
    · rw [hk] at hbook
      cases hbook
    · exact hrev heq
  have hepoch : k ≠ "plan_epoch" := hne (by decide)
  cases w with
  | worker result curMask rev =>
      have hpieces : (brainControlPieces result).1.get? k = none := by
        unfold brainControlPieces
        rw [get?_withControl_of_not_mem hcontrol, get?_withMember, if_neg (hne (by decide)),
          get?_withMember, if_neg (hne (by decide)), SortedMap.get?_empty]
      unfold AnalyzerWrite.patch assembleBundleMetaPatch workerBundle
      dsimp only
      rw [get?_withMember, if_neg (hne (by decide)), SortedMap.get?_insertAll, hpieces,
        get?_withEpoch_of_ne hepoch, SortedMap.get?_insert, if_neg (hne (by decide)),
        Option.none_or]
      cases result.get? "session_ticket" with
      | none => rw [get?_withMember, if_neg (hne (by decide)), SortedMap.get?_empty]
      | some t =>
          rw [SortedMap.get?_insert, if_neg (hne (by decide)), SortedMap.get?_insert,
            if_neg (hne (by decide)), get?_withMember, if_neg (hne (by decide)),
            SortedMap.get?_empty]
  | mask curMask rev =>
      have hmask : k ≠ "analyzed_mask_v1" := hne (by decide)
      have hanalysis : k ≠ "analysis_rev" := hne (by decide)
      simp [AnalyzerWrite.patch, SortedMap.get?_insertEach, Assoc.find?, hmask, hanalysis]
  | brain result rev prior history =>
      unfold AnalyzerWrite.patch persistPatch
      dsimp only
      rw [get?_withMember, if_neg (hne (by decide)), get?_withControl_of_not_mem hcontrol,
        get?_withMember, if_neg (hne (by decide)), get?_withEpoch_of_ne hepoch, get?_withMember,
        if_neg (hne (by decide)), SortedMap.get?_insert, if_neg (hne (by decide)),
        SortedMap.get?_empty]
  | ticket result =>
      have hticket : k ≠ "session_ticket" := hne (by decide)
      have hskip : k ≠ "skip_session_probe" := hne (by decide)
      unfold AnalyzerWrite.patch
      dsimp only
      split
      · simp [SortedMap.get?_insertEach, Assoc.find?, hticket, hskip]
      · simp [SortedMap.get?_insertEach, Assoc.find?, hskip]

theorem isObject_afterWrites (v : Json) (writes : List AnalyzerWrite) :
    isObject (afterWrites v writes) = isObject v := by
  induction writes generalizing v with
  | nil => rfl
  | cons w rest ih =>
      have hstep := ih (mergePatch v (w.patch v))
      rw [isObject_mergePatch] at hstep
      exact hstep

theorem afterWrites_of_not_object {v : Json} (h : isObject v = false)
    (writes : List AnalyzerWrite) : afterWrites v writes = v := by
  induction writes with
  | nil => rfl
  | cons w rest ih =>
      have hsame : mergePatch v (w.patch v) = v := by
        cases v with
        | obj members => simp [isObject, asObject] at h
        | _ => rfl
      unfold afterWrites
      rw [List.foldl_cons, hsame]
      exact ih

theorem get?_afterWrites (hk : isBookkeeping k = false) (hrev : k ≠ "evidence_rev") (v : Json)
    (writes : List AnalyzerWrite) : (afterWrites v writes).get? k = v.get? k := by
  induction writes generalizing v with
  | nil => rfl
  | cons w rest ih =>
      have hstep : (mergePatch v (w.patch v)).get? k = v.get? k := by
        by_cases hobject : isObject v = true
        · rw [get?_mergePatch hobject, patch_get?_of_visible hk hrev, Option.none_or]
        · rw [get?_of_not_object (by simpa using hobject),
            get?_of_not_object (by simpa using hobject)]
      exact (ih (mergePatch v (w.patch v))).trans hstep

theorem clean_ofFields_congr {m m' : Fields}
    (h : ∀ k, isBookkeeping k = false →
      (m.get? k).map cleanBookkeeping = (m'.get? k).map cleanBookkeeping) :
    cleanBookkeeping (ofFields m) = cleanBookkeeping (ofFields m') := by
  unfold cleanBookkeeping
  rw [ofFields, ofFields, Json.strip, Json.strip]
  congr 1
  exact stripMembers_congr m.sorted m'.sorted h

theorem clean_metaOut_afterWrites (rev v : Json) (writes : List AnalyzerWrite) :
    cleanBookkeeping (metaOut rev (afterWrites v writes)) = cleanBookkeeping (metaOut rev v) := by
  by_cases hobject : isObject v = true
  · have hafter := isObject_afterWrites v writes
    rw [hobject] at hafter
    have hform : ∀ {w : Json}, isObject w = true → ∃ members, w = .obj members := by
      intro w hw
      cases w with
      | obj members => exact ⟨members, rfl⟩
      | _ => simp [isObject, asObject] at hw
    obtain ⟨members, hmembers⟩ := hform hobject
    obtain ⟨others, hothers⟩ := hform hafter
    have hget : ∀ k, isBookkeeping k = false → k ≠ "evidence_rev" →
        Assoc.find? k others = Assoc.find? k members := by
      intro k hk hrev
      have hsame := get?_afterWrites hk hrev v writes
      rwa [hothers, hmembers, get?_obj, get?_obj] at hsame
    rw [hothers, hmembers]
    apply clean_ofFields_congr
    intro k hk
    rw [SortedMap.get?_insert, SortedMap.get?_insert, SortedMap.get?_ofEntries,
      SortedMap.get?_ofEntries]
    by_cases hrev : k = "evidence_rev"
    · rw [if_pos hrev, if_pos hrev]
    · rw [if_neg hrev, if_neg hrev, hget k hk hrev]
  · rw [afterWrites_of_not_object (by simpa using hobject)]

def Alike (entry other : String × Json) : Prop :=
  entry.1 = other.1 ∧
    (isBookkeeping entry.1 = false → cleanBookkeeping entry.2 = cleanBookkeeping other.2)

theorem find?_of_alike {entries others : List (String × Json)}
    (h : List.Forall₂ Alike entries others) (hk : isBookkeeping k = false) :
    (Assoc.find? k entries).map cleanBookkeeping = (Assoc.find? k others).map cleanBookkeeping := by
  induction h with
  | nil => rfl
  | @cons entry other entries others hhead _ ih =>
      obtain ⟨hname, hvalue⟩ := hhead
      by_cases heq : k = entry.1
      · have hclean := hvalue (heq ▸ hk)
        simp [Assoc.find?, heq, ← hname, hclean]
      · simp [Assoc.find?, heq, ← hname, ih]

theorem alike_refl (entry : String × Json) : Alike entry entry := ⟨rfl, fun _ => rfl⟩

theorem alike_of_bookkeeping {j : String} (hj : isBookkeeping j = true) (v w : Json) :
    Alike (j, v) (j, w) := by
  refine ⟨rfl, ?_⟩
  intro hvisible
  rw [hj] at hvisible
  cases hvisible

theorem rowMembers_alike (base : EvidenceBase) (v : Json) (writes : List AnalyzerWrite)
    (updatedMs laterMs : ℤ) :
    List.Forall₂ Alike (rowMembers base v updatedMs)
      (rowMembers base (afterWrites v writes) laterMs) := by
  have hmeta : cleanBookkeeping (metaOut base.evidenceRev v) =
      cleanBookkeeping (metaOut base.evidenceRev (afterWrites v writes)) :=
    (clean_metaOut_afterWrites base.evidenceRev v writes).symm
  have hbelief := alike_of_bookkeeping (j := "prior_belief") (by decide)
    ((v.get? "belief").getD .null) (((afterWrites v writes).get? "belief").getD .null)
  have hupload := alike_of_bookkeeping (j := "last_upload_ms") (by decide) (ofInt updatedMs)
    (ofInt laterMs)
  have hupdated := alike_of_bookkeeping (j := "updated_ms") (by decide) (ofInt updatedMs)
    (ofInt laterMs)
  exact .cons ⟨rfl, fun _ => hmeta⟩ (.cons ⟨rfl, fun _ => hmeta⟩
    (.cons hbelief (.cons hupload (.cons hupdated .nil))))

theorem clean_buildEvidence_afterWrites (base : EvidenceBase) (v : Json)
    (writes : List AnalyzerWrite) (updatedMs laterMs : ℤ) :
    cleanBookkeeping (buildEvidence base v updatedMs) =
      cleanBookkeeping (buildEvidence base (afterWrites v writes) laterMs) := by
  have hall : List.Forall₂ Alike
      (batchMembers base ++ pageMembers base ++ rowMembers base v updatedMs)
      (batchMembers base ++ pageMembers base ++ rowMembers base (afterWrites v writes) laterMs) :=
    List.rel_append (List.forall₂_same.mpr fun entry _ => alike_refl entry)
      (rowMembers_alike base v writes updatedMs laterMs)
  apply clean_ofFields_congr
  intro k hk
  have hfind := find?_of_alike (List.rel_reverse hall) hk
  rw [SortedMap.get?_insertEach, SortedMap.get?_insertEach, SortedMap.get?_empty, Option.or_none,
    Option.or_none]
  exact hfind

theorem maskMatches_of_clean {env : MaskEnv} {version : String} {a b : Json}
    (h : cleanBookkeeping a = cleanBookkeeping b) :
    maskMatches (some (buildMask env a version)) (buildMask env b version) = true := by
  rw [maskMatches_iff, ← fieldsOf_clean, ← fieldsOf_clean, ← restOf_clean, ← restOf_clean, h]
  exact ⟨rfl, rfl⟩

end WriteBack

/-- No collision of the family hash on two values. -/
def MaskEnv.Apart (env : MaskEnv) (a b : Json) : Prop := env.valueHash a = env.valueHash b → a = b

/-- What a matching mask promises: the same evidence up to the documented
bookkeeping, and no dirt from the analyzer's own writes. -/
structure MaskSound (env : MaskEnv) (version : String) (places : List String) (a b : Evidence) :
    Prop where
  sound : maskMatches (some (buildMask env a.val version)) (buildMask env b.val version) = true →
    eraseDocumented places a.val = eraseDocumented places b.val
  writeBack : ∀ (base : EvidenceBase) (sessionMeta : Json) (writes : List AnalyzerWrite)
    (updatedMs laterMs : ℤ),
    maskMatches (some (buildMask env (buildEvidence base sessionMeta updatedMs) version))
      (buildMask env (buildEvidence base (afterWrites sessionMeta writes) laterMs) version) = true

section Sound

variable {env : MaskEnv} {version : String} {places : List String} {a b : Evidence}

theorem matches_iff_visible
    (hfields : env.Apart (cleanBookkeeping (fieldsOf a.val)) (cleanBookkeeping (fieldsOf b.val)))
    (hrest : env.Apart (cleanBookkeeping (restOf a.val)) (cleanBookkeeping (restOf b.val))) :
    maskMatches (some (buildMask env a.val version)) (buildMask env b.val version) = true ↔
      VisiblyEqual (fieldsOf a.val) (fieldsOf b.val) ∧
        VisiblyEqual (restOf a.val) (restOf b.val) := by
  have hfamily : ∀ {x y : Json}, Canonical x → Canonical y →
      env.Apart (cleanBookkeeping x) (cleanBookkeeping y) →
      (env.valueHash (cleanBookkeeping x) = env.valueHash (cleanBookkeeping y) ↔
        VisiblyEqual x y) := by
    intro x y hx hy hapart
    constructor
    · intro hhash
      exact (strip_eq_iff hx hy).mp (hapart hhash)
    · intro hvisible
      have hclean : cleanBookkeeping x = cleanBookkeeping y := (strip_eq_iff hx hy).mpr hvisible
      rw [hclean]
  rw [maskMatches_iff,
    hfamily (canonical_fieldsOf a.property) (canonical_fieldsOf b.property) hfields,
    hfamily (canonical_restOf a.property) (canonical_restOf b.property) hrest]

/-- A match is sound when the evidence differs somewhere the mask sees, or
agrees on every covert path. -/
theorem maskSound_iff
    (hfields : env.Apart (cleanBookkeeping (fieldsOf a.val)) (cleanBookkeeping (fieldsOf b.val)))
    (hrest : env.Apart (cleanBookkeeping (restOf a.val)) (cleanBookkeeping (restOf b.val))) :
    MaskSound env version places a b ↔
      ¬ (VisiblyEqual (fieldsOf a.val) (fieldsOf b.val) ∧
          VisiblyEqual (restOf a.val) (restOf b.val)) ∨
        ∀ p, Covert places p → headAt a.val p = headAt b.val p := by
  have hmatch := @matches_iff_visible env version a b hfields hrest
  constructor
  · intro h
    by_cases hvisible : VisiblyEqual (fieldsOf a.val) (fieldsOf b.val) ∧
        VisiblyEqual (restOf a.val) (restOf b.val)
    · right
      have hsame := h.sound (hmatch.mpr hvisible)
      exact (eraseDocumented_eq_of_visible a.property b.property hvisible.1 hvisible.2).mp hsame
    · exact Or.inl hvisible
  · intro h
    constructor
    · intro hmatches
      have hvisible := hmatch.mp hmatches
      have hcovert := h.resolve_left (not_not_intro hvisible)
      exact (eraseDocumented_eq_of_visible a.property b.property hvisible.1 hvisible.2).mpr hcovert
    · intro base sessionMeta writes updatedMs laterMs
      exact maskMatches_of_clean
        (clean_buildEvidence_afterWrites base sessionMeta writes updatedMs laterMs)

end Sound

theorem canonical_single (k : String) {v : Json} (h : Canonical v) : Canonical (.obj [(k, v)]) := by
  apply Canonical.obj
  · simp [Assoc.Sorted, Assoc.keys]
  · intro entry hentry
    rw [List.mem_singleton.mp hentry]
    exact h

def fieldSample (name : String) (n : ℤ) : Json := .obj [(name, ofInt n)]

def metaSample : Json := .obj [("meta", .obj [("site_id", .str "s1")])]

def evidenceSample (name : String) (n : ℤ) : Evidence :=
  ⟨.obj [("fields", fieldSample name n), ("meta", .obj [("site_id", .str "s1")])], by
    have horder : "fields" < "meta" := by decide
    apply Canonical.obj
    · simpa only [Assoc.Sorted, Assoc.keys, List.map_cons, List.map_nil, List.pairwise_pair]
        using horder
    · intro entry hentry
      simp only [List.mem_cons, List.not_mem_nil, or_false] at hentry
      rcases hentry with rfl | rfl
      · exact canonical_single name (.num _)
      · exact canonical_single "site_id" (.str _)⟩

def sampleMaskEnv : MaskEnv where
  toText v :=
    if v = fieldSample "a" 1 then "\x7b\"a\":1\x7d"
    else if v = fieldSample "a" 2 then "\x7b\"a\":2\x7d"
    else if v = metaSample then "\x7b\"meta\":\x7b\"site_id\":\"s1\"\x7d\x7d"
    else ""
  sha256Hex input :=
    if input = asBytes "\x7b\"a\":1\x7d" then
      "015abd7f5cc57a2dd94b7590f04ad8084273905ee33ec5cebeae62276a97f862"
    else if input = asBytes "\x7b\"a\":2\x7d" then
      "7e8059f495589fcd981232cc11d00b00da3802c01d688fa1cf1f6bed6e5bb33c"
    else "1f8cc6afc7e73ed21633dd40378a9dbbe2f2ead196ac9b31ea7d1e4260aa6841"

/-- A changed field shows, so the mask of the old evidence does not match. -/
theorem changed_field_sound :
    MaskSound sampleMaskEnv "6.0.21" ["meta", "session_meta"] (evidenceSample "a" 1)
      (evidenceSample "a" 2) := by
  have hfields : sampleMaskEnv.Apart
      (cleanBookkeeping (fieldsOf (evidenceSample "a" 1).val))
      (cleanBookkeeping (fieldsOf (evidenceSample "a" 2).val)) :=
    fun hcollision => absurd hcollision (by decide)
  have hrest : sampleMaskEnv.Apart
      (cleanBookkeeping (restOf (evidenceSample "a" 1).val))
      (cleanBookkeeping (restOf (evidenceSample "a" 2).val)) := fun _ => by decide
  refine (maskSound_iff hfields hrest).mpr (Or.inl ?_)
  intro hvisible
  have hvalue := hvisible.1 [.key "a"] (by decide)
  simp [evidenceSample, fieldsOf, fieldSample, headAt, at?, Json.get?, Assoc.find?, head, ofInt] at hvalue

/-- A field of a client that bears the name of a bookkeeping member is not
seen. -/
theorem nested_bookkeeping_name_unseen :
    sampleMaskEnv.Apart (cleanBookkeeping (fieldsOf (evidenceSample "belief" 1).val))
        (cleanBookkeeping (fieldsOf (evidenceSample "belief" 2).val)) ∧
      sampleMaskEnv.Apart (cleanBookkeeping (restOf (evidenceSample "belief" 1).val))
        (cleanBookkeeping (restOf (evidenceSample "belief" 2).val)) ∧
      ¬ MaskSound sampleMaskEnv "6.0.21" ["meta", "session_meta"] (evidenceSample "belief" 1)
        (evidenceSample "belief" 2) := by
  refine ⟨fun _ => by decide, fun _ => by decide, ?_⟩
  intro h
  have hmatch := @maskMatches_of_clean sampleMaskEnv "6.0.21"
    (evidenceSample "belief" 1).val (evidenceSample "belief" 2).val (by decide)
  exact absurd (h.sound hmatch) (by decide)

end AnalyzeMask

end GrServer
