import GrServer.EvidenceMerge

/-!
# The main source decides identity fields

Whatever order the batches of a session come in, an identity field has the last
value that main sent, or the first value of anyone while main has sent none.
Only the payload loop writes identity keys; every other pass writes entries
whose keys are none.
-/

namespace GrServer

open Json Text SortedMap

namespace EvidenceMerge

def sent (k : String) (batches : List Batch) : List Json :=
  batches.filterMap fun b => b.pf.get? k

def sentBy (src k : String) (batches : List Batch) : List Json :=
  sent k (batches.filter fun b => b.baseSrc = src)

abbrev IsIdentity (k : String) : Prop :=
  isIdentityPreferMainKey k = true

abbrev SameIdentity (fields fields' : Fields) : Prop :=
  AgreeOn IsIdentity fields fields'

/-! ## Passes that write no identity key -/

abbrev lateKeys : List String :=
  ["b8_edge_seen", "b8_converge_without_edge", "fe_version_changed",
    "fe_code_version", "fe_build_mismatch", "sandbox_residual_algo_match"]

abbrev residualKeys : List String :=
  ["residual_paths", "residual_paths_n"]

abbrev markerKeys : List String :=
  ["verify_not_score_material", "verify_role", "verify_algo"]

section Frames

variable {P : String → Prop}

theorem roleMarkers_not (hnone : ∀ k ∈ markerKeys, ¬ P k) (pf : Fields) :
    ∀ entry ∈ roleMarkers pf, ¬ P entry.1 := by
  intro entry hentry
  unfold roleMarkers at hentry
  simp only [List.mem_append, Option.mem_toList, Option.map_eq_some_iff] at hentry
  rcases hentry with (⟨v, _, rfl⟩ | ⟨v, _, rfl⟩) | ⟨v, _, rfl⟩
  · exact hnone "verify_not_score_material" (by decide)
  · exact hnone "verify_role" (by decide)
  · exact hnone "verify_algo" (by decide)

theorem mergeResidualPathsFieldEx_same (hnone : ∀ k ∈ residualKeys, ¬ P k)
    (fields : Fields) (incoming : Json) (batchId : Option String) :
    AgreeOn P fields (mergeResidualPathsFieldEx fields incoming batchId) := by
  unfold mergeResidualPathsFieldEx
  cases incoming.asArray with
  | none => exact AgreeOn.refl fields
  | some inc =>
      apply AgreeOn.insertEach
      intro entry hentry
      exact hnone entry.1 (List.mem_map_of_mem hentry)

variable (hlate : ∀ k ∈ lateKeys, ¬ P k)

include hlate

theorem checkEdge_same (b : Batch) (gatewayFields fields : Fields) :
    AgreeOn P fields (checkEdge b gatewayFields fields) := by
  have hseen : ¬ P "b8_edge_seen" := hlate _ (by decide)
  have hconverge : ¬ P "b8_converge_without_edge" := hlate _ (by decide)
  unfold checkEdge
  split_ifs
  · apply AgreeOn.insertEach
    simp [hseen, hconverge]
  · exact AgreeOn.refl fields

theorem checkFeVersion_same (b : Batch) (before : Option String) (fields : Fields) :
    AgreeOn P fields (checkFeVersion b before fields) := by
  have hchanged : ¬ P "fe_version_changed" := hlate _ (by decide)
  have hversion : ¬ P "fe_code_version" := hlate _ (by decide)
  have hmismatch : ¬ P "fe_build_mismatch" := hlate _ (by decide)
  unfold checkFeVersion
  split_ifs
  · extract_lets drifted
    have hdrift : AgreeOn P fields drifted := by
      unfold drifted
      split
      · split_ifs
        · exact AgreeOn.insert fields hchanged _
        · exact AgreeOn.refl fields
      · exact AgreeOn.insert fields hversion _
      · exact AgreeOn.refl fields
    apply hdrift.trans
    split
    · split_ifs
      · exact AgreeOn.insert drifted hmismatch _
      · exact AgreeOn.refl drifted
    · exact AgreeOn.refl drifted
  · exact AgreeOn.refl fields

theorem checkNestResidual_same (b : Batch) (fields : Fields) :
    AgreeOn P fields (checkNestResidual b fields) := by
  have hmatch : ¬ P "sandbox_residual_algo_match" := hlate _ (by decide)
  unfold checkNestResidual
  cases nonemptyStr b.pf "nest_residual_algo" with
  | none => exact AgreeOn.refl fields
  | some nestAlgo =>
      dsimp only
      split_ifs
      · exact AgreeOn.refl fields
      · exact AgreeOn.erase fields hmatch
      · exact AgreeOn.insert fields hmatch _

end Frames

theorem lateKeys_not_identity : ∀ k ∈ lateKeys, ¬ IsIdentity k := by
  decide

theorem residualKeys_not_identity : ∀ k ∈ residualKeys, ¬ IsIdentity k := by
  decide

theorem markerKeys_not_identity : ∀ k ∈ markerKeys, ¬ IsIdentity k := by
  decide

theorem verifyRatios_not_identity {φ : Type} (F : F64Ops φ)
    (ops empty nonempty ok maxDimFail : φ) :
    ∀ entry ∈ verifyRatios F ops empty nonempty ok maxDimFail,
      ¬ IsIdentity entry.1 := by
  have hnone : ∀ k ∈ verifyScoreKeys, ¬ IsIdentity k := by decide
  intro entry hentry
  exact hnone entry.1 (List.mem_map_of_mem hentry)

theorem aggregateEntries_not_identity {φ : Type} (F : F64Ops φ) (batchId : String)
    (pf fields : Fields) (ops : φ) :
    ∀ entry ∈ aggregateEntries F batchId pf fields ops, ¬ IsIdentity entry.1 := by
  have hsums : ∀ k ∈ ["verify_agg_pack_n", "verify_agg_ops_n", "verify_agg_empty_n",
      "verify_agg_nonempty_n", "verify_agg_ok_n", "verify_agg_dim_fail_n_max",
      "verify_agg_dim_fail_n_sum", "verify_aggregate_algo", "verify_last_pack",
      "verify_agg_pack_ids"], ¬ IsIdentity k := by
    decide
  intro entry hentry
  unfold aggregateEntries at hentry
  rcases List.mem_append.mp hentry with hentry | hmarker
  · rcases List.mem_append.mp hentry with hsum | hratio
    · exact hsums _ (List.mem_map_of_mem hsum)
    · split_ifs at hratio
      · exact verifyRatios_not_identity F _ _ _ _ _ entry hratio
      · cases hratio
  · exact roleMarkers_not markerKeys_not_identity pf entry hmarker

theorem applyVerifySpotcheckAggregate_same {φ : Type} (F : F64Ops φ)
    (batchId : String) (pf fields : Fields) :
    SameIdentity fields (applyVerifySpotcheckAggregate F batchId pf fields) := by
  unfold applyVerifySpotcheckAggregate
  dsimp only
  split_ifs
  · exact AgreeOn.refl fields
  · exact AgreeOn.insertEach fields
      (aggregateEntries_not_identity F batchId pf fields _)
  · exact AgreeOn.refl fields

theorem mergeVerify_same {φ : Type} (F : F64Ops φ) (b : Batch) (fields : Fields) :
    SameIdentity fields (mergeVerify F b fields) := by
  unfold mergeVerify
  cases b.batchId with
  | some bid => exact applyVerifySpotcheckAggregate_same F bid b.pf fields
  | none =>
      dsimp only
      split_ifs
      · exact applyVerifySpotcheckAggregate_same F _ b.pf fields
      · exact AgreeOn.refl fields

/-! ## The payload -/

def afterBatch (b : Batch) (k : String) (old : Option Json) : Option Json :=
  match b.pf.get? k with
  | none => old
  | some v => if b.isMain then some v else old.or (some v)

theorem afterBatch_of_not_main {b : Batch} (hmain : b.isMain = false) (k : String)
    (old : Option Json) : afterBatch b k old = old.or (b.pf.get? k) := by
  unfold afterBatch
  rw [hmain]
  cases b.pf.get? k with
  | none => rw [Option.or_none]
  | some v => rfl

theorem mergeField_other {P : String → Prop} (hnone : ∀ k ∈ residualKeys, ¬ P k) (b : Batch)
    (fields : Fields) {j k : String} (v : Json) (hk : P k) (hne : j ≠ k) :
    (mergeField b fields (j, v)).get? k = fields.get? k := by
  have hinsert : (fields.insert j v).get? k = fields.get? k :=
    get?_insert_of_ne (Ne.symm hne) v
  have hfill : (fields.insertNew j v).get? k = fields.get? k :=
    get?_insertNew_of_ne (Ne.symm hne) v
  have hpaths := mergeResidualPathsFieldEx_same hnone fields v b.batchId k hk
  unfold mergeField
  dsimp only
  split_ifs
  all_goals first | rfl | exact hinsert | exact hfill | exact hpaths

theorem mergeField_self {b : Batch} {fields : Fields} {k : String} {v : Json}
    (hk : IsIdentity k) :
    (mergeField b fields (k, v)).get? k =
      if b.isMain then some v else (fields.get? k).or (some v) := by
  have hscore : verifyScoreKeys.contains k = false := by
    have hnone : ∀ j ∈ verifyScoreKeys, ¬ IsIdentity j := by decide
    rw [Bool.eq_false_iff]
    intro hmem
    exact hnone k (List.contains_iff_mem.mp hmem) hk
  have hpaths : k ≠ "residual_paths" := by
    rintro rfl
    exact absurd hk (by decide)
  have hinsert : (fields.insert k v).get? k = some v :=
    get?_insert_self fields k v
  have hfill : (fields.insertNew k v).get? k = (fields.get? k).or (some v) := by
    rw [get?_insertNew, if_pos rfl]
    cases fields.get? k <;> rfl
  unfold mergeField
  dsimp only
  rw [hscore, Bool.and_false, if_neg Bool.false_ne_true, if_neg hpaths]
  cases hmain : b.isMain with
  | true => simp [hk, hinsert]
  | false => simp [hk, hfill]

theorem mergePayload_fields (b : Batch) (s : MergeState) {k : String}
    (hk : IsIdentity k) :
    (mergePayload b s).fields.get? k = afterBatch b k (s.fields.get? k) := by
  unfold mergePayload
  split_ifs with hgateway hcloudflare
  · have hmain : b.isMain = false := by
      unfold Batch.isMain
      rw [hgateway]
      decide
    rw [afterBatch_of_not_main hmain]
    exact get?_fillAll s.fields b.pf k
  · have hmain : b.isMain = false := by
      unfold Batch.isMain
      rw [hcloudflare]
      decide
    rw [afterBatch_of_not_main hmain]
    exact get?_fillAll s.fields b.pf k
  · have hloop := get?_foldl (f := mergeField b)
      (g := fun old v => if b.isMain then some v else old.or (some v))
      (fun m j v hne => mergeField_other residualKeys_not_identity b m v hk hne)
      (fun m v => mergeField_self hk) b.pf s.fields
    change (b.pf.entries.foldl (mergeField b) s.fields).get? k = _
    rw [hloop]
    unfold afterBatch
    cases b.pf.get? k <;> rfl

theorem mergePayload_fieldsBySource (b : Batch) (s : MergeState) :
    (mergePayload b s).fieldsBySource = s.fieldsBySource := by
  unfold mergePayload
  split_ifs <;> rfl

def Objects (fieldsBySource : Fields) : Prop :=
  ∀ src v, fieldsBySource.get? src = some v → ∃ members, v = .obj members

def sourceValue (fieldsBySource : Fields) (src k : String) : Option Json :=
  (fieldsBySource.get? src).bind fun v => v.get? k

theorem recordSource_spec {fieldsBySource : Fields} (h : Objects fieldsBySource)
    (b : Batch) :
    ∃ recorded, recordSource fieldsBySource b = some recorded ∧ Objects recorded ∧
      ∀ src k, sourceValue recorded src k =
        if b.baseSrc = src then (b.pf.get? k).or (sourceValue fieldsBySource src k)
        else sourceValue fieldsBySource src k := by
  obtain ⟨members, hmembers, hvalues⟩ : ∃ members,
      (fieldsBySource.insertNew b.baseSrc (.obj [])).get? b.baseSrc =
        some (.obj members) ∧
      ∀ k, Assoc.find? k members = sourceValue fieldsBySource b.baseSrc k := by
    rw [get?_insertNew, if_pos rfl]
    unfold sourceValue
    cases hget : fieldsBySource.get? b.baseSrc with
    | none => exact ⟨[], rfl, fun k => rfl⟩
    | some v =>
        obtain ⟨members, rfl⟩ := h _ v hget
        exact ⟨members, rfl, fun k => rfl⟩
  let bucket : Fields := SortedMap.ofEntries members
  let recorded : Fields :=
    (fieldsBySource.insertNew b.baseSrc (.obj [])).insert b.baseSrc
      (ofFields (bucket.insertAll b.pf))
  have hrecord : recordSource fieldsBySource b = some recorded := by
    unfold recordSource
    dsimp only
    rw [hmembers]
    rfl
  have hother {src : String} (hne : src ≠ b.baseSrc) :
      recorded.get? src = fieldsBySource.get? src := by
    rw [get?_insert_of_ne hne, get?_insertNew_of_ne hne]
  have hself : recorded.get? b.baseSrc =
      some (ofFields (bucket.insertAll b.pf)) :=
    get?_insert_self _ _ _
  refine ⟨recorded, hrecord, ?_, ?_⟩
  · intro src v hv
    by_cases hsrc : src = b.baseSrc
    · subst hsrc
      rw [hself] at hv
      exact ⟨_, (Option.some.inj hv).symm⟩
    · rw [hother hsrc] at hv
      exact h src v hv
  · intro src k
    by_cases hsrc : b.baseSrc = src
    · subst hsrc
      rw [if_pos rfl, ← hvalues k]
      unfold sourceValue
      rw [hself, Option.bind_some, get?_ofFields, get?_insertAll, get?_ofEntries]
    · rw [if_neg hsrc]
      unfold sourceValue
      rw [hother (Ne.symm hsrc)]

/-! ## One batch and all of them -/

theorem mergeBatchWithId_passes {φ : Type} (F : F64Ops φ) {s : MergeState}
    (h : Objects s.fieldsBySource) (b : Batch) :
    ∃ s', mergeBatchWithId F s b = some s' ∧ Objects s'.fieldsBySource ∧
      (∀ P : String → Prop, (∀ k ∈ lateKeys, ¬ P k) →
        AgreeOn P (mergeVerify F b (mergePayload b s).fields) s'.fields) ∧
      ∀ src k, sourceValue s'.fieldsBySource src k =
        if b.baseSrc = src then
          (b.pf.get? k).or (sourceValue s.fieldsBySource src k)
        else sourceValue s.fieldsBySource src k := by
  obtain ⟨recorded, hrecord, hobjects, hvalues⟩ := recordSource_spec h b
  let before := (s.fields.get? "fe_code_version").bind asStr
  let s₁ := mergePayload b { s with fieldsBySource := recorded }
  let fields₁ := mergeVerify F b s₁.fields
  let fields₂ := checkEdge b s₁.gatewayFields fields₁
  let fields₃ := checkFeVersion b before fields₂
  have hmerge : mergeBatchWithId F s b =
      some { s₁ with fields := checkNestResidual b fields₃ } := by
    unfold mergeBatchWithId
    rw [hrecord]
    rfl
  have hsources : s₁.fieldsBySource = recorded :=
    mergePayload_fieldsBySource b _
  have hpayload : s₁.fields = (mergePayload b s).fields := by
    unfold s₁ mergePayload
    split_ifs <;> rfl
  refine ⟨_, hmerge, ?_, ?_, ?_⟩
  · change Objects s₁.fieldsBySource
    rw [hsources]
    exact hobjects
  · intro P hlate
    rw [← hpayload]
    exact (checkEdge_same hlate b _ fields₁).trans
      ((checkFeVersion_same hlate b before fields₂).trans
        (checkNestResidual_same hlate b fields₃))
  · intro src k
    change sourceValue s₁.fieldsBySource src k = _
    rw [hsources]
    exact hvalues src k

theorem mergeBatchWithId_spec {φ : Type} (F : F64Ops φ) {s : MergeState}
    (h : Objects s.fieldsBySource) (b : Batch) :
    ∃ s', mergeBatchWithId F s b = some s' ∧ Objects s'.fieldsBySource ∧
      (∀ k, IsIdentity k → s'.fields.get? k = afterBatch b k (s.fields.get? k)) ∧
      ∀ src k, sourceValue s'.fieldsBySource src k =
        if b.baseSrc = src then
          (b.pf.get? k).or (sourceValue s.fieldsBySource src k)
        else sourceValue s.fieldsBySource src k := by
  obtain ⟨s', hmerge, hobjects, hpasses, hvalues⟩ := mergeBatchWithId_passes F h b
  refine ⟨s', hmerge, hobjects, ?_, hvalues⟩
  intro k hk
  calc
    s'.fields.get? k = (mergeVerify F b (mergePayload b s).fields).get? k :=
      hpasses IsIdentity lateKeys_not_identity k hk
    _ = (mergePayload b s).fields.get? k := mergeVerify_same F b _ k hk
    _ = afterBatch b k (s.fields.get? k) := mergePayload_fields b s hk

structure MergedFrom (batches : List Batch) (s : MergeState) : Prop where
  objects : Objects s.fieldsBySource
  fields : ∀ k, IsIdentity k → s.fields.get? k =
    (sentBy "main" k batches).getLast?.or (sent k batches).head?
  bySource : ∀ src k, sourceValue s.fieldsBySource src k =
    (sentBy src k batches).getLast?

theorem mergedFrom_nil : MergedFrom [] MergeState.empty where
  objects := by
    intro src v hv
    cases hv
  fields := by
    intro k _
    rfl
  bySource := by
    intro src k
    rfl

theorem sent_concat (k : String) (batches : List Batch) (b : Batch) :
    sent k (batches ++ [b]) = sent k batches ++ (b.pf.get? k).toList := by
  unfold sent
  rw [List.filterMap_append]
  cases hget : b.pf.get? k with
  | none => simp [hget]
  | some v => simp [hget]

theorem sentBy_concat (src k : String) (batches : List Batch) (b : Batch) :
    sentBy src k (batches ++ [b]) =
      sentBy src k batches ++
        if b.baseSrc = src then (b.pf.get? k).toList else [] := by
  unfold sentBy
  rw [List.filter_append]
  by_cases hsrc : b.baseSrc = src
  · have hkept : [b].filter (fun b => b.baseSrc = src) = [b] := by
      simp [hsrc]
    rw [hkept, sent_concat, if_pos hsrc]
  · have hgone : [b].filter (fun b => b.baseSrc = src) = [] := by
      simp [hsrc]
    rw [hgone, List.append_nil, if_neg hsrc, List.append_nil]

theorem getLast?_append_toList (values : List Json) (v : Option Json) :
    (values ++ v.toList).getLast? = v.or values.getLast? := by
  cases v with
  | none => simp
  | some v => simp

theorem head?_append_toList (values : List Json) (v : Option Json) :
    (values ++ v.toList).head? = values.head?.or v := by
  rw [List.head?_append]
  cases v <;> rfl

theorem MergedFrom.concat {φ : Type} (F : F64Ops φ) {batches : List Batch}
    {s : MergeState} (h : MergedFrom batches s) (b : Batch) :
    ∃ s', mergeBatchWithId F s b = some s' ∧ MergedFrom (batches ++ [b]) s' := by
  obtain ⟨s', hmerge, hobjects, hfields, hsources⟩ :=
    mergeBatchWithId_spec F h.objects b
  refine ⟨s', hmerge, ?_⟩
  refine { objects := hobjects, fields := ?_, bySource := ?_ }
  · intro k hk
    rw [hfields k hk, h.fields k hk, sent_concat, sentBy_concat,
      head?_append_toList]
    unfold afterBatch Batch.isMain
    by_cases hmain : b.baseSrc = "main"
    · rw [if_pos hmain, getLast?_append_toList]
      cases b.pf.get? k with
      | none => simp
      | some v => simp [hmain]
    · rw [if_neg hmain, List.append_nil]
      cases b.pf.get? k with
      | none => simp
      | some v => simp [hmain]
  · intro src k
    rw [hsources src k, h.bySource src k, sentBy_concat]
    by_cases hsrc : b.baseSrc = src
    · rw [if_pos hsrc, if_pos hsrc, getLast?_append_toList]
    · rw [if_neg hsrc, if_neg hsrc, List.append_nil]

theorem mergeAll_mergedFrom {φ : Type} (F : F64Ops φ) (batches : List Batch) :
    ∃ s, mergeAll F batches = some s ∧ MergedFrom batches s := by
  induction batches using List.reverseRecOn with
  | nil => exact ⟨MergeState.empty, rfl, mergedFrom_nil⟩
  | append_singleton batches b ih =>
      obtain ⟨s, hrun, hmerged⟩ := ih
      obtain ⟨s', hstep, hnext⟩ := hmerged.concat F b
      refine ⟨s', ?_, hnext⟩
      unfold mergeAll at hrun ⊢
      rw [List.foldlM_append, hrun]
      change (mergeBatchWithId F s b).bind pure = some s'
      rw [hstep]
      rfl

/-- The merge never panics; an identity field has main's last value, or the
first of all; other sources change nothing once main has sent one; and each
source's map has its last values. -/
theorem main_decides_identity {φ : Type} (F : F64Ops φ) (batches : List Batch) :
    ∃ s, mergeAll F batches = some s ∧
      (∀ k, IsIdentity k → s.fields.get? k =
        (sentBy "main" k batches).getLast?.or (sent k batches).head?) ∧
      (∀ k others s', IsIdentity k → sentBy "main" k batches ≠ [] →
        others.filter (fun b => b.baseSrc = "main") =
          batches.filter (fun b => b.baseSrc = "main") →
        mergeAll F others = some s' → s'.fields.get? k = s.fields.get? k) ∧
      ∀ src k, sourceValue s.fieldsBySource src k =
        (sentBy src k batches).getLast? := by
  obtain ⟨s, hrun, hmerged⟩ := mergeAll_mergedFrom F batches
  refine ⟨s, hrun, hmerged.fields, ?_, hmerged.bySource⟩
  intro k others s' hk hmain hsame hrun'
  obtain ⟨s₂, hrun₂, hmerged'⟩ := mergeAll_mergedFrom F others
  have hs : s' = s₂ := Option.some.inj (hrun'.symm.trans hrun₂)
  have hsent : sentBy "main" k others = sentBy "main" k batches := by
    unfold sentBy
    rw [hsame]
  obtain ⟨v, hlast⟩ := Option.ne_none_iff_exists'.mp
    (mt List.getLast?_eq_none_iff.mp hmain)
  rw [hs, hmerged'.fields k hk, hmerged.fields k hk, hsent, hlast]
  rfl

def exactOps : F64Ops ℚ where
  ofNum
    | .int n => n
    | .float q => q
  toJson q := .num (.float q)
  zero := 0
  add := (· + ·)
  sub := (· - ·)
  div := (· / ·)
  max := max
  positive q := decide (0 < q)

def userAgentBatch (src agent : String) : Batch where
  baseSrc := src
  batchId := some "B2_host"
  pf := SortedMap.ofEntries [("user_agent", .str agent)]

theorem worker_does_not_replace_main :
    ∃ s, mergeAll exactOps [userAgentBatch "iframe" "NEST_UA",
        userAgentBatch "main" "MAIN_UA", userAgentBatch "worker" "WORKER_UA"] = some s ∧
      s.fields.get? "user_agent" = some (.str "MAIN_UA") ∧
      sourceValue s.fieldsBySource "worker" "user_agent" =
        some (.str "WORKER_UA") := by
  obtain ⟨s, hrun, hfields, _, hsources⟩ := main_decides_identity exactOps
    [userAgentBatch "iframe" "NEST_UA", userAgentBatch "main" "MAIN_UA",
      userAgentBatch "worker" "WORKER_UA"]
  have hagent : IsIdentity "user_agent" := by decide
  refine ⟨s, hrun, ?_, ?_⟩
  · rw [hfields "user_agent" hagent]
    decide
  · rw [hsources "worker" "user_agent"]
    decide

end EvidenceMerge

end GrServer
