import GrServer.MainAuthority

/-!
# The verification aggregate is a sum

Spot-check batches of the main source leave their own scores out of the payload
loop, and the aggregate is the one pass that writes score keys.  The invariant is
on the sums the aggregate keeps in the fields; the order of the batches drops
out because sums and maxima do not depend on it.
-/

namespace GrServer

open Json Text SortedMap

namespace EvidenceMerge

def packOps (pf : Fields) : ℚ :=
  ((f64Field exactOps pf "verify_probe_ops_n").or
    (f64Field exactOps pf "verify_exec_n")).getD 0

def packEmpty (pf : Fields) : ℚ :=
  (f64Field exactOps pf "verify_empty_n").getD 0

def packNonempty (pf : Fields) : ℚ :=
  (f64Field exactOps pf "verify_nonempty_n").getD
    (max (packOps pf - packEmpty pf) 0)

def packOk (pf : Fields) : ℚ :=
  (f64Field exactOps pf "verify_ok_n").getD (packNonempty pf)

def packDimFail (pf : Fields) : ℚ :=
  (f64Field exactOps pf "verify_dim_fail_n").getD 0

/-! ## What the packs of a session count together -/

def packs (batches : List Batch) : List Fields :=
  (batches.map Batch.pf).filter fun pf => decide (0 < packOps pf)

def total (count : Fields → ℚ) (batches : List Batch) : ℚ :=
  ((packs batches).map count).sum

def worstDimFail (batches : List Batch) : ℚ :=
  ((packs batches).map packDimFail).foldr max 0

theorem packs_concat (batches : List Batch) (b : Batch) :
    packs (batches ++ [b]) =
      packs batches ++ if 0 < packOps b.pf then [b.pf] else [] := by
  unfold packs
  rw [List.map_append, List.filter_append]
  by_cases hops : 0 < packOps b.pf <;> simp [hops]

theorem packs_concat_of_idle {batches : List Batch} {b : Batch}
    (hops : ¬ 0 < packOps b.pf) : packs (batches ++ [b]) = packs batches := by
  rw [packs_concat, if_neg hops, List.append_nil]

theorem total_concat (count : Fields → ℚ) {batches : List Batch} {b : Batch}
    (hops : 0 < packOps b.pf) :
    total count (batches ++ [b]) = total count batches + count b.pf := by
  unfold total
  rw [packs_concat, if_pos hops]
  simp

theorem foldr_max_concat (values : List ℚ) (v : ℚ) :
    (values ++ [v]).foldr max 0 = max (values.foldr max 0) v := by
  induction values with
  | nil => exact max_comm v 0
  | cons w values ih =>
      rw [List.cons_append, List.foldr_cons, ih, List.foldr_cons, max_assoc]

theorem worstDimFail_concat {batches : List Batch} {b : Batch}
    (hops : 0 < packOps b.pf) :
    worstDimFail (batches ++ [b]) = max (worstDimFail batches) (packDimFail b.pf) := by
  unfold worstDimFail
  rw [packs_concat, if_pos hops, List.map_append]
  exact foldr_max_concat _ _

theorem total_packOps_pos {batches : List Batch} (hpacks : packs batches ≠ []) :
    0 < total packOps batches := by
  apply List.sum_pos
  · intro count hcount
    obtain ⟨pf, hpf, rfl⟩ := List.mem_map.mp hcount
    exact of_decide_eq_true (List.mem_filter.mp hpf).2
  · simpa using hpacks

theorem packs_perm {batches order : List Batch} (h : order.Perm batches) :
    (packs order).Perm (packs batches) :=
  (h.map Batch.pf).filter _

theorem total_perm (count : Fields → ℚ) {batches order : List Batch}
    (h : (packs order).Perm (packs batches)) : total count order = total count batches :=
  (h.map count).sum_eq

theorem worstDimFail_perm {batches order : List Batch}
    (h : (packs order).Perm (packs batches)) :
    worstDimFail order = worstDimFail batches :=
  (h.map packDimFail).foldr_eq 0

theorem le_foldr_max {values : List ℚ} {v : ℚ} (hv : v ∈ values) :
    v ≤ values.foldr max 0 := by
  induction values with
  | nil => cases hv
  | cons w values ih =>
      rw [List.foldr_cons]
      rcases List.mem_cons.mp hv with rfl | hv
      · exact le_max_left _ _
      · exact (ih hv).trans (le_max_right _ _)

theorem foldr_max_mem_or_zero (values : List ℚ) :
    values.foldr max 0 ∈ values ∨ values.foldr max 0 = 0 := by
  induction values with
  | nil => exact Or.inr rfl
  | cons w values ih =>
      rw [List.foldr_cons]
      rcases max_choice w (values.foldr max 0) with hmax | hmax
      · rw [hmax]
        exact Or.inl List.mem_cons_self
      · rw [hmax]
        exact ih.imp_left (List.mem_cons_of_mem w)

theorem foldr_max_isGreatest {values : List ℚ} (hne : values ≠ [])
    (hnonneg : ∀ v ∈ values, 0 ≤ v) :
    IsGreatest {v | v ∈ values} (values.foldr max 0) := by
  constructor
  · rcases foldr_max_mem_or_zero values with hmem | hzero
    · exact hmem
    · obtain ⟨w, hw⟩ := List.exists_mem_of_ne_nil values hne
      have hle : w ≤ 0 := hzero ▸ le_foldr_max hw
      have heq : w = values.foldr max 0 := by
        rw [hzero]
        exact le_antisymm hle (hnonneg w hw)
      exact heq ▸ hw
  · intro v hv
    exact le_foldr_max hv

/-! ## Batches of the claim's kind -/

def counterKeys : List String :=
  ["verify_probe_ops_n", "verify_exec_n", "verify_empty_n", "verify_nonempty_n",
    "verify_ok_n", "verify_dim_fail_n"]

/-- A spot check of the main source that brings counters and no sums. -/
structure Batch.MainSpotcheck (b : Batch) : Prop where
  main : b.baseSrc = "main"
  named : b.batchId.any isVerifySpotcheckBatch = true
  noSums : ∀ k, startsWith k "verify_agg_" = true → b.pf.get? k = none
  nonneg : ∀ k ∈ counterKeys, ∀ q, f64Field exactOps b.pf k = some q → 0 ≤ q

def IsSumKey (k : String) : Prop :=
  startsWith k "verify_agg_" = true ∨ k ∈ verifyScoreKeys

instance : DecidablePred IsSumKey := fun k => by
  unfold IsSumKey
  infer_instance

theorem lateKeys_not_sum : ∀ k ∈ lateKeys, ¬ IsSumKey k := by
  decide

theorem residualKeys_not_sum : ∀ k ∈ residualKeys, ¬ IsSumKey k := by
  decide

theorem markerKeys_not_sum : ∀ k ∈ markerKeys, ¬ IsSumKey k := by
  decide

theorem Batch.MainSpotcheck.isVerify {b : Batch} (h : b.MainSpotcheck) :
    b.isVerify = true := by
  unfold Batch.isVerify
  rw [h.named, Bool.true_or]

theorem packDimFail_nonneg {batches : List Batch}
    (hbatches : ∀ b ∈ batches, b.MainSpotcheck) :
    ∀ v ∈ (packs batches).map packDimFail, 0 ≤ v := by
  intro v hv
  obtain ⟨pf, hpf, rfl⟩ := List.mem_map.mp hv
  obtain ⟨b, hb, rfl⟩ := List.mem_map.mp (List.mem_of_mem_filter hpf)
  unfold packDimFail
  cases hfield : f64Field exactOps b.pf "verify_dim_fail_n" with
  | none => exact le_refl 0
  | some q => exact (hbatches b hb).nonneg _ (by decide) q hfield

theorem mergePayload_keeps_sums {b : Batch} (h : b.MainSpotcheck) (s : MergeState) :
    AgreeOn IsSumKey s.fields (mergePayload b s).fields := by
  have hfields : (mergePayload b s).fields =
      b.pf.entries.foldl (mergeField b) s.fields := by
    unfold mergePayload
    rw [h.main]
    rfl
  intro k hk
  rw [hfields]
  rcases hk with hagg | hscore
  · have hnot : k ∉ Assoc.keys b.pf.entries := by
      intro hmem
      have hsome : (b.pf.get? k).isSome := mem_keys.mp hmem
      rw [h.noSums k hagg] at hsome
      cases hsome
    apply get?_foldl_of_not_mem _ hnot
    intro m j v hne
    exact mergeField_other residualKeys_not_sum b m v (Or.inl hagg) hne
  · rw [get?_foldl (g := fun old _ => old)]
    · cases b.pf.get? k <;> rfl
    · intro m j v hne
      exact mergeField_other residualKeys_not_sum b m v (Or.inr hscore) hne
    · intro m v
      unfold mergeField
      dsimp only
      rw [h.isVerify, List.contains_iff_mem.mpr hscore]
      rfl

structure Aggregated (batches : List Batch) (fields : Fields) : Prop where
  ops : f64Or exactOps fields "verify_agg_ops_n" = total packOps batches
  empty : f64Or exactOps fields "verify_agg_empty_n" = total packEmpty batches
  nonempty : f64Or exactOps fields "verify_agg_nonempty_n" =
    total packNonempty batches
  ok : f64Or exactOps fields "verify_agg_ok_n" = total packOk batches
  dimFail : f64Or exactOps fields "verify_agg_dim_fail_n_max" = worstDimFail batches
  scores : ∀ k ∈ verifyScoreKeys, fields.get? k =
    if packs batches = [] then none
    else Assoc.find? k (verifyRatios exactOps (total packOps batches)
      (total packEmpty batches) (total packNonempty batches) (total packOk batches)
      (worstDimFail batches))

theorem f64Or_congr {fields fields' : Fields} {k : String}
    (h : fields'.get? k = fields.get? k) :
    f64Or exactOps fields' k = f64Or exactOps fields k := by
  unfold f64Or f64Field
  rw [h]

theorem Aggregated.of_same {batches : List Batch} {fields fields' : Fields}
    (h : Aggregated batches fields) (hsame : AgreeOn IsSumKey fields fields') :
    Aggregated batches fields' where
  ops := (f64Or_congr (hsame _ (by decide))).trans h.ops
  empty := (f64Or_congr (hsame _ (by decide))).trans h.empty
  nonempty := (f64Or_congr (hsame _ (by decide))).trans h.nonempty
  ok := (f64Or_congr (hsame _ (by decide))).trans h.ok
  dimFail := (f64Or_congr (hsame _ (by decide))).trans h.dimFail
  scores k hk := (hsame k (Or.inr hk)).trans (h.scores k hk)

theorem Aggregated.of_perm {batches order : List Batch} {fields : Fields}
    (h : Aggregated order fields) (hperm : (packs order).Perm (packs batches)) :
    Aggregated batches fields := by
  have hnil : packs order = [] ↔ packs batches = [] := by
    rw [← List.length_eq_zero_iff, hperm.length_eq, List.length_eq_zero_iff]
  constructor
  · rw [← total_perm packOps hperm]
    exact h.ops
  · rw [← total_perm packEmpty hperm]
    exact h.empty
  · rw [← total_perm packNonempty hperm]
    exact h.nonempty
  · rw [← total_perm packOk hperm]
    exact h.ok
  · rw [← worstDimFail_perm hperm]
    exact h.dimFail
  · intro k hk
    rw [← total_perm packOps hperm, ← total_perm packEmpty hperm,
      ← total_perm packNonempty hperm, ← total_perm packOk hperm,
      ← worstDimFail_perm hperm, h.scores k hk]
    simp only [hnil]

theorem Aggregated.entries {batches : List Batch} {fields : Fields} {b : Batch}
    (h : Aggregated batches fields) (bid : String) (hops : 0 < packOps b.pf) :
    ∃ packN sumDimFail,
      aggregateEntries exactOps bid b.pf fields (packOps b.pf) =
        ([("verify_agg_pack_n", packN),
          ("verify_agg_ops_n",
            exactOps.toJson (total packOps (batches ++ [b]))),
          ("verify_agg_empty_n",
            exactOps.toJson (total packEmpty (batches ++ [b]))),
          ("verify_agg_nonempty_n",
            exactOps.toJson (total packNonempty (batches ++ [b]))),
          ("verify_agg_ok_n",
            exactOps.toJson (total packOk (batches ++ [b]))),
          ("verify_agg_dim_fail_n_max",
            exactOps.toJson (worstDimFail (batches ++ [b]))),
          ("verify_agg_dim_fail_n_sum", sumDimFail),
          ("verify_aggregate_algo", .str "gr_verify_agg_v1"),
          ("verify_last_pack", .str bid),
          ("verify_agg_pack_ids", .arr ((packIds fields bid).map Json.str))] ++
        verifyRatios exactOps (total packOps (batches ++ [b]))
          (total packEmpty (batches ++ [b])) (total packNonempty (batches ++ [b]))
          (total packOk (batches ++ [b])) (worstDimFail (batches ++ [b]))) ++
        roleMarkers b.pf := by
  have hpos : exactOps.positive (total packOps (batches ++ [b])) = true := by
    apply decide_eq_true
    apply total_packOps_pos
    rw [packs_concat, if_pos hops]
    simp
  have hsums : ∀ k count, f64Or exactOps fields k = total count batches →
      total count (batches ++ [b]) =
        exactOps.add (f64Or exactOps fields k) (count b.pf) := by
    intro k count hk
    rw [hk, total_concat count hops]
    rfl
  have hworst : worstDimFail (batches ++ [b]) =
      exactOps.max (f64Or exactOps fields "verify_agg_dim_fail_n_max")
        (packDimFail b.pf) := by
    rw [h.dimFail, worstDimFail_concat hops]
    rfl
  rw [hsums _ packOps h.ops] at hpos
  rw [hsums _ packOps h.ops, hsums _ packEmpty h.empty,
    hsums _ packNonempty h.nonempty, hsums _ packOk h.ok, hworst]
  let packN : ℕ := ((((fields.get? "verify_agg_pack_n").bind asU64).getD 0) + 1) % 2 ^ 64
  let sumDimFail := exactOps.add (f64Or exactOps fields "verify_agg_dim_fail_n_sum")
    (packDimFail b.pf)
  refine ⟨ofInt packN, exactOps.toJson sumDimFail, ?_⟩
  unfold aggregateEntries
  dsimp only
  rw [if_pos hpos]
  rfl

theorem Aggregated.concat {batches : List Batch} {fields : Fields} {b : Batch}
    (h : Aggregated batches fields) (bid : String) (hops : 0 < packOps b.pf) :
    Aggregated (batches ++ [b])
      (fields.insertEach (aggregateEntries exactOps bid b.pf fields (packOps b.pf))) := by
  obtain ⟨packN, sumDimFail, hentries⟩ := h.entries bid hops
  have hpacks : packs (batches ++ [b]) ≠ [] := by
    rw [packs_concat, if_pos hops]
    simp
  rw [hentries, insertEach_append]
  apply Aggregated.of_same _
    (AgreeOn.insertEach _ (roleMarkers_not markerKeys_not_sum b.pf))
  constructor
  · unfold f64Or f64Field
    rw [get?_insertEach]
    rfl
  · unfold f64Or f64Field
    rw [get?_insertEach]
    rfl
  · unfold f64Or f64Field
    rw [get?_insertEach]
    rfl
  · unfold f64Or f64Field
    rw [get?_insertEach]
    rfl
  · unfold f64Or f64Field
    rw [get?_insertEach]
    rfl
  · intro k hk
    rw [if_neg hpacks, get?_insertEach]
    fin_cases hk <;> rfl

/-! ## One batch and all of them -/

theorem mergeVerify_eq {b : Batch} (h : b.MainSpotcheck) :
    ∃ bid, ∀ fields, mergeVerify exactOps b fields =
      if 0 < packOps b.pf then
        fields.insertEach (aggregateEntries exactOps bid b.pf fields (packOps b.pf))
      else fields := by
  obtain ⟨bid, hbid, hspot⟩ := (Option.any_eq_true _ _).mp h.named
  have hnamed : ¬ (¬ isVerifySpotcheckBatch bid ∧ ¬ isMarkedSpotcheck bid b.pf) := by
    simp [hspot]
  refine ⟨bid, ?_⟩
  intro fields
  unfold mergeVerify
  rw [hbid]
  dsimp only
  unfold applyVerifySpotcheckAggregate
  dsimp only
  rw [if_neg hnamed]
  change (if ¬ decide (0 < packOps b.pf) = true then _ else _) = _
  by_cases hops : 0 < packOps b.pf
  · rw [if_pos hops, if_neg (by simp [hops])]
    rfl
  · rw [if_neg hops, if_pos (by simp [hops])]

theorem Aggregated.step {batches : List Batch} {s : MergeState} {b : Batch}
    (h : Aggregated batches s.fields) (hobjects : Objects s.fieldsBySource)
    (hb : b.MainSpotcheck) :
    ∃ s', mergeBatchWithId exactOps s b = some s' ∧ Objects s'.fieldsBySource ∧
      Aggregated (batches ++ [b]) s'.fields := by
  obtain ⟨s', hmerge, hobjects', hpasses, _⟩ :=
    mergeBatchWithId_passes exactOps hobjects b
  refine ⟨s', hmerge, hobjects', ?_⟩
  have hpayload : Aggregated batches (mergePayload b s).fields :=
    h.of_same (mergePayload_keeps_sums hb s)
  obtain ⟨bid, hverify⟩ := mergeVerify_eq hb
  apply Aggregated.of_same _ (hpasses IsSumKey lateKeys_not_sum)
  rw [hverify]
  by_cases hops : 0 < packOps b.pf
  · rw [if_pos hops]
    exact hpayload.concat bid hops
  · rw [if_neg hops]
    apply hpayload.of_perm
    rw [packs_concat_of_idle hops]

theorem aggregated_nil : Aggregated [] MergeState.empty.fields where
  ops := rfl
  empty := rfl
  nonempty := rfl
  ok := rfl
  dimFail := rfl
  scores := by
    intro k _
    rfl

theorem mergeAll_aggregated {batches : List Batch}
    (hbatches : ∀ b ∈ batches, b.MainSpotcheck) :
    ∃ s, mergeAll exactOps batches = some s ∧ Objects s.fieldsBySource ∧
      Aggregated batches s.fields := by
  induction batches using List.reverseRecOn with
  | nil => exact ⟨MergeState.empty, rfl, mergedFrom_nil.objects, aggregated_nil⟩
  | append_singleton batches b ih =>
      have hbefore : ∀ b' ∈ batches, b'.MainSpotcheck := by
        intro b' hb'
        exact hbatches b' (List.mem_append_left _ hb')
      obtain ⟨s, hrun, hobjects, hsums⟩ := ih hbefore
      obtain ⟨s', hstep, hobjects', hnext⟩ :=
        hsums.step hobjects (hbatches b (by simp))
      refine ⟨s', ?_, hobjects', hnext⟩
      unfold mergeAll at hrun ⊢
      rw [List.foldlM_append, hrun]
      change (mergeBatchWithId exactOps s b).bind pure = some s'
      rw [hstep]
      rfl

theorem Aggregated.score {batches : List Batch} {fields : Fields}
    (h : Aggregated batches fields) {k : String} (hk : k ∈ verifyScoreKeys) {q : ℚ}
    (hfind : Assoc.find? k (verifyRatios exactOps (total packOps batches)
      (total packEmpty batches) (total packNonempty batches) (total packOk batches)
      (worstDimFail batches)) = some (.num (.float q))) (hzero : packs batches = [] → q = 0) :
    f64Or exactOps fields k = q := by
  unfold f64Or f64Field
  rw [h.scores k hk, hfind]
  by_cases hpacks : packs batches = []
  · rw [if_pos hpacks, hzero hpacks]
    rfl
  · rw [if_neg hpacks]
    rfl

theorem total_of_no_packs {count : Fields → ℚ} {batches : List Batch}
    (hpacks : packs batches = []) : total count batches = 0 := by
  unfold total
  rw [hpacks]
  rfl

/-- In whatever order the batches are merged, the counters are the sums over the
packs that ran an operation, the worst dimension failure is the largest, and the
ratios are those of the sums; without such a pack there is no score at all. -/
theorem spotcheck_aggregate_is_sum {batches order : List Batch}
    (hbatches : ∀ b ∈ batches, b.MainSpotcheck) (horder : order.Perm batches) :
    ∃ s, mergeAll exactOps order = some s ∧
      f64Or exactOps s.fields "verify_probe_ops_n" = total packOps batches ∧
      f64Or exactOps s.fields "verify_exec_n" = total packOps batches ∧
      f64Or exactOps s.fields "verify_empty_n" = total packEmpty batches ∧
      f64Or exactOps s.fields "verify_nonempty_n" = total packNonempty batches ∧
      f64Or exactOps s.fields "verify_ok_n" = total packOk batches ∧
      (packs batches ≠ [] →
        IsGreatest {d | d ∈ (packs batches).map packDimFail}
          (f64Or exactOps s.fields "verify_dim_fail_n") ∧
        s.fields.get? "verify_nonempty_ratio" = some (exactOps.toJson
          (total packNonempty batches / total packOps batches)) ∧
        s.fields.get? "verify_exec_ratio" = some (exactOps.toJson
          (total packOk batches / total packOps batches)) ∧
        ∀ k ∈ verifyScoreKeys, (s.fields.get? k).isSome) ∧
      (packs batches = [] → ∀ k ∈ verifyScoreKeys, s.fields.get? k = none) := by
  have horder' : ∀ b ∈ order, b.MainSpotcheck := by
    intro b hb
    exact hbatches b (horder.mem_iff.mp hb)
  obtain ⟨s, hrun, _, hsums⟩ := mergeAll_aggregated horder'
  have h : Aggregated batches s.fields := hsums.of_perm (packs_perm horder)
  refine ⟨s, hrun, ?_, ?_, ?_, ?_, ?_, ?_, ?_⟩
  · exact h.score (by decide) rfl total_of_no_packs
  · exact h.score (by decide) rfl total_of_no_packs
  · exact h.score (by decide) rfl total_of_no_packs
  · exact h.score (by decide) rfl total_of_no_packs
  · exact h.score (by decide) rfl total_of_no_packs
  · intro hpacks
    have hscores : ∀ k ∈ verifyScoreKeys, s.fields.get? k = _ := h.scores
    simp only [if_neg hpacks] at hscores
    have hworst : f64Or exactOps s.fields "verify_dim_fail_n" = worstDimFail batches :=
      h.score (by decide) rfl (fun hnone => absurd hnone hpacks)
    refine ⟨?_, hscores _ (by decide), hscores _ (by decide), ?_⟩
    · rw [hworst]
      apply foldr_max_isGreatest
      · simpa using hpacks
      · exact packDimFail_nonneg hbatches
    · intro k hk
      rw [hscores k hk]
      fin_cases hk <;> rfl
  · intro hpacks k hk
    rw [h.scores k hk, if_pos hpacks]

def spotcheckBatch (bid : String) (ops empty nonempty dimFail : ℤ) : Batch where
  baseSrc := "main"
  batchId := some bid
  pf := SortedMap.ofEntries [
    ("verify_probe_ops_n", ofInt ops),
    ("verify_empty_n", ofInt empty),
    ("verify_nonempty_n", ofInt nonempty),
    ("verify_dim_fail_n", ofInt dimFail),
    ("verify_nonempty_ratio", ofInt 1)]

theorem spotcheckBatch_mainSpotcheck {bid : String}
    (hbid : isVerifySpotcheckBatch bid = true) {ops empty nonempty dimFail : ℤ}
    (hnonneg : 0 ≤ ops ∧ 0 ≤ empty ∧ 0 ≤ nonempty ∧ 0 ≤ dimFail) :
    (spotcheckBatch bid ops empty nonempty dimFail).MainSpotcheck where
  main := rfl
  named := hbid
  noSums := by
    intro k hk
    unfold spotcheckBatch
    rw [get?_ofEntries]
    have hnone : ∀ j ∈ ["verify_probe_ops_n", "verify_empty_n", "verify_nonempty_n",
        "verify_dim_fail_n", "verify_nonempty_ratio"], k ≠ j := by
      rintro j hj rfl
      fin_cases hj <;> exact absurd hk (by decide)
    simp only [List.forall_mem_cons] at hnone
    simp [Assoc.find?, hnone]
  nonneg := by
    intro k hk q hq
    unfold f64Field spotcheckBatch at hq
    rw [get?_ofEntries] at hq
    have hcast (n : ℤ) (hn : 0 ≤ n) (heq : some (n : ℚ) = some q) : 0 ≤ q := by
      rw [← Option.some.inj heq]
      exact_mod_cast hn
    fin_cases hk
    · exact hcast ops hnonneg.1 hq
    · cases hq
    · exact hcast empty hnonneg.2.1 hq
    · exact hcast nonempty hnonneg.2.2.1 hq
    · cases hq
    · exact hcast dimFail hnonneg.2.2.2 hq

theorem later_small_pack_does_not_decide :
    ∃ s, mergeAll exactOps [spotcheckBatch "R02_spotcheck" 10 0 10 1,
        spotcheckBatch "R01_spotcheck" 30 20 10 3] = some s ∧
      f64Or exactOps s.fields "verify_probe_ops_n" = 40 ∧
      s.fields.get? "verify_nonempty_ratio" = some (.num (.float (1 / 2))) := by
  have hlarge : (spotcheckBatch "R01_spotcheck" 30 20 10 3).MainSpotcheck :=
    spotcheckBatch_mainSpotcheck (by decide) (by decide)
  have hsmall : (spotcheckBatch "R02_spotcheck" 10 0 10 1).MainSpotcheck :=
    spotcheckBatch_mainSpotcheck (by decide) (by decide)
  have hbatches : ∀ b ∈ [spotcheckBatch "R01_spotcheck" 30 20 10 3,
      spotcheckBatch "R02_spotcheck" 10 0 10 1], b.MainSpotcheck := by
    simp [hlarge, hsmall]
  obtain ⟨s, hrun, hops, _, _, _, _, hratio, _⟩ :=
    spotcheck_aggregate_is_sum hbatches (List.Perm.swap _ _ [])
  have hpacks : packs [spotcheckBatch "R01_spotcheck" 30 20 10 3,
      spotcheckBatch "R02_spotcheck" 10 0 10 1] ≠ [] := by
    decide
  refine ⟨s, hrun, ?_, ?_⟩
  · rw [hops]
    decide +kernel
  · rw [(hratio hpacks).2.1]
    decide +kernel

end EvidenceMerge

end GrServer
