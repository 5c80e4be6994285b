import GrServer.GuardedRun
import GrServer.Json
import GrServer.MapMerge

/-!
# The plan epoch of a session

Two writers store `plan_epoch` in the meta of a session.  The worker computes
its patch on the locked row, in one transaction.  The HTTP path goes through
`merge_session_meta`, a SELECT and an UPDATE without a lock between them, once
or twice to read the prior meta and a last time to write; even the reads write
back what they read.  So does the gate of ingest, which reads the meta through a
merge of its own.
-/

namespace GrServer

open Json

namespace PlanEpoch

/-! ## Patches -/

def planEpochOf (v : Json) : ℤ := v.i64Or "plan_epoch" 0

/-- Insert every member of the patch; only an object takes them. -/
def mergePatch (v : Json) (patch : Fields) : Json :=
  match v with
  | .obj members => ofFields ((SortedMap.ofEntries members).insertAll patch)
  | v => v

def withMember (patch : Fields) (k : String) (v : Option Json) : Fields :=
  v.elim patch (patch.insert k)

def controlKeys : List String :=
  ["belief", "missions", "capability_envelope", "battle_log", "policy_band",
    "direction_priors", "unknown_bucket", "evidence_rev"]

def controlSource (result : Json) : Json :=
  (result.get? "control_persist").getD result

def withControl (patch : Fields) (result : Json) : Fields :=
  controlKeys.foldl (fun p k => withMember p k ((controlSource result).get? k)) patch

def candidateEpoch (result : Json) : Option ℤ :=
  ((result.get? "plan_epoch").bind asI64).or
    (((result.pointer ["route_plan", "plan_epoch"]).bind asI64).or
      ((result.get? "plan_version").bind asI64))

/-- The plan epoch is written unless it is below the prior one. -/
def withEpoch (patch : Fields) (pe : ℤ) (prior : Json) : Fields :=
  if planEpochOf prior ≤ pe then patch.insert "plan_epoch" (ofInt pe) else patch

def rollHistory (prior battleLog : Json) : Json :=
  let hist := (((prior.get? "battle_log_history").bind asArray).getD []) ++ [battleLog]
  .arr (if 32 < hist.length then hist.drop (hist.length - 32) else hist)

def brainControlPieces (result : Json) : Fields × Option ℤ × Option Json :=
  let pieces := withMember SortedMap.empty "plan_version" (result.get? "plan_version")
  let pieces := withMember pieces "stop_reason" (result.get? "stop_reason")
  (withControl pieces result, candidateEpoch result, result.get? "battle_log")

structure AnalysisBundleMeta where
  analyzedMaskV1 : Option Json
  sessionTicket : Option Json
  brainPieces : Fields
  brainPlanEpoch : Option ℤ
  battleLog : Option Json

def assembleBundleMetaPatch (bundle : AnalysisBundleMeta) (rev : Int64) (prior : Json) :
    Fields :=
  let patch := withMember SortedMap.empty "analyzed_mask_v1" bundle.analyzedMaskV1
  let patch := match bundle.sessionTicket with
    | some t => (patch.insert "session_ticket" t).insert "skip_session_probe" (.bool true)
    | none => patch
  let patch := patch.insert "analysis_rev" (ofInt rev.toInt)
  let patch := withEpoch patch (bundle.brainPlanEpoch.getD rev.toInt) prior
  let patch := patch.insertAll bundle.brainPieces
  withMember patch "battle_log_history" (bundle.battleLog.map (rollHistory prior))

def workerBundle (result curMask : Json) : AnalysisBundleMeta :=
  let pieces := brainControlPieces result
  { analyzedMaskV1 := some curMask
    sessionTicket := result.get? "session_ticket"
    brainPieces := pieces.1
    brainPlanEpoch := pieces.2.1
    battleLog := pieces.2.2 }

/-- The patch of `persist_brain_control` before the battle history. -/
def persistPatch (result : Json) (rev : Int64) (prior : Json) : Fields :=
  let patch := (SortedMap.empty : Fields).insert "analysis_rev" (ofInt rev.toInt)
  let patch := withMember patch "plan_version" (result.get? "plan_version")
  let patch := withEpoch patch ((candidateEpoch result).getD rev.toInt) prior
  let patch := withMember patch "stop_reason" (result.get? "stop_reason")
  withControl patch result

/-! ## Steps -/

/-- The merge a call of `persist_brain_control` is in. -/
inductive Stage where
  | prior
  | history (patch : Fields) (battleLog : Json)
  | write (patch : Fields)

/-- A call; `readEpoch` is the plan epoch its first merge returned, and
`snapshot` what the SELECT of the current merge read. -/
structure Call where
  result : Json
  rev : Int64
  stage : Stage
  readEpoch : ℤ
  snapshot : Option Json

structure State where
  sessionMeta : Json
  calls : ℕ → Option Call

inductive Event where
  | persist (call : ℕ) (result : Json) (rev : Int64)
  | select (call : ℕ) (succeeds : Bool)
  | update (call : ℕ) (succeeds : Bool)
  /-- The gate of ingest: one merge, of nothing. -/
  | gate (call : ℕ)
  | worker (result curMask : Json) (rev : Int64)

def Stage.patch : Stage → Fields
  | .write patch => patch
  | _ => SortedMap.empty

def Call.next (call : Call) (returned : Json) : Option Call :=
  match call.stage with
  | .prior =>
      let patch := persistPatch call.result call.rev returned
      let stage := match call.result.get? "battle_log" with
        | some battleLog => .history patch battleLog
        | none => .write patch
      some { call with stage := stage, readEpoch := planEpochOf returned, snapshot := none }
  | .history patch battleLog =>
      some { call with
        stage := .write (patch.insert "battle_log_history" (rollHistory returned battleLog))
        snapshot := none }
  | .write _ => none

def State.setCall (s : State) (i : ℕ) (call : Option Call) : State :=
  { s with calls := Function.update s.calls i call }

/-- The SELECT of a merge; a failed merge counts as an empty meta. -/
def State.select (s : State) (i : ℕ) (call : Call) (succeeds : Bool) : State :=
  if succeeds then s.setCall i (some { call with snapshot := some s.sessionMeta })
  else s.setCall i (call.next (.obj []))

def State.update (s : State) (i : ℕ) (call : Call) (snapshot : Json) (succeeds : Bool) :
    State :=
  let merged := mergePatch snapshot call.stage.patch
  if succeeds then { s.setCall i (call.next merged) with sessionMeta := merged }
  else s.setCall i (call.next (.obj []))

def State.worker (s : State) (result curMask : Json) (rev : Int64) : State :=
  let patch := assembleBundleMetaPatch (workerBundle result curMask) rev s.sessionMeta
  { s with sessionMeta := mergePatch s.sessionMeta patch }

def step (s : State) : Event → State
  | .persist i result rev =>
      s.setCall i (some ⟨result, rev, .prior, 0, none⟩)
  | .select i succeeds =>
      match s.calls i with
      | some call => if call.snapshot.isNone then s.select i call succeeds else s
      | none => s
  | .update i succeeds =>
      match s.calls i with
      | some call => call.snapshot.elim s fun snapshot => s.update i call snapshot succeeds
      | none => s
  | .gate i => s.setCall i (some ⟨.null, 0, .write SortedMap.empty, 0, none⟩)
  | .worker result curMask rev => s.worker result curMask rev

/-- A batch that names a positive plan epoch is refused below the session's. -/
def stalePlan (clientEpoch : Option ℤ) (v : Json) : Bool :=
  (clientEpoch.filter fun c => 0 < c).any fun c => 0 < planEpochOf v && c < planEpochOf v

theorem lt_of_stalePlan {c : ℤ} {v : Json} (h : stalePlan (some c) v = true) :
    c < planEpochOf v := by
  by_cases hpos : 0 < c
  · simp [stalePlan, hpos] at h
    exact h.2
  · simp [stalePlan, hpos] at h

theorem stalePlan_mono {clientEpoch : Option ℤ} {v w : Json}
    (hle : planEpochOf v ≤ planEpochOf w) (h : stalePlan clientEpoch v = true) :
    stalePlan clientEpoch w = true := by
  cases clientEpoch with
  | none => simp [stalePlan] at h
  | some c =>
      by_cases hpos : 0 < c
      · simp [stalePlan, hpos] at h ⊢
        omega
      · simp [stalePlan, hpos] at h

/-! ## What a patch does to a member -/

def isObject (v : Json) : Bool := v.asObject.isSome

theorem get?_mergePatch {v : Json} (h : isObject v = true) (patch : Fields) (k : String) :
    (mergePatch v patch).get? k = (patch.get? k).or (v.get? k) := by
  cases v with
  | obj members =>
      rw [mergePatch, get?_ofFields, SortedMap.get?_insertAll, SortedMap.get?_ofEntries,
        get?_obj]
  | _ => simp [isObject, asObject] at h

theorem get?_of_not_object {v : Json} (h : isObject v = false) (k : String) :
    v.get? k = none := by
  cases v with
  | obj members => simp [isObject, asObject] at h
  | _ => rfl

@[simp] theorem isObject_mergePatch (v : Json) (patch : Fields) :
    isObject (mergePatch v patch) = isObject v := by
  cases v <;> rfl

theorem get?_withMember (patch : Fields) (k j : String) (v : Option Json) :
    (withMember patch k v).get? j = if j = k then v.or (patch.get? j) else patch.get? j := by
  cases v with
  | none => simp [withMember]
  | some w => simp [withMember, SortedMap.get?_insert]

theorem get?_withControl_of_not_mem {k : String} (h : k ∉ controlKeys) (patch : Fields)
    (result : Json) : (withControl patch result).get? k = patch.get? k := by
  have hfold : ∀ keys : List String, k ∉ keys → ∀ p : Fields,
      (keys.foldl (fun p j => withMember p j ((controlSource result).get? j)) p).get? k =
        p.get? k := by
    intro keys
    induction keys with
    | nil => intro _ p; rfl
    | cons j rest ih =>
        intro hnot p
        rw [List.mem_cons, not_or] at hnot
        rw [List.foldl_cons, ih hnot.2, get?_withMember, if_neg hnot.1]
  exact hfold controlKeys h patch

theorem get?_withControl_evidenceRev (patch : Fields) (result : Json) :
    (withControl patch result).get? "evidence_rev" =
      ((controlSource result).get? "evidence_rev").or (patch.get? "evidence_rev") := by
  simp [withControl, controlKeys, get?_withMember]

theorem get?_withEpoch_of_ne {k : String} (h : k ≠ "plan_epoch") (patch : Fields) (pe : ℤ)
    (prior : Json) : (withEpoch patch pe prior).get? k = patch.get? k := by
  unfold withEpoch
  split_ifs with hle
  · exact SortedMap.get?_insert_of_ne h _
  · rfl

def epochMember (result : Json) (rev : Int64) (prior : Json) : Option Json :=
  (withEpoch SortedMap.empty ((candidateEpoch result).getD rev.toInt) prior).get? "plan_epoch"

theorem get?_withEpoch {patch : Fields} (h : patch.get? "plan_epoch" = none) (result : Json)
    (rev : Int64) (prior : Json) :
    (withEpoch patch ((candidateEpoch result).getD rev.toInt) prior).get? "plan_epoch" =
      epochMember result rev prior := by
  unfold epochMember withEpoch
  split_ifs with hle
  · simp
  · simpa using h

theorem persistPatch_planEpoch (result : Json) (rev : Int64) (prior : Json) :
    (persistPatch result rev prior).get? "plan_epoch" = epochMember result rev prior := by
  have hnot : "plan_epoch" ∉ controlKeys := by decide
  unfold persistPatch
  rw [get?_withControl_of_not_mem hnot, get?_withMember, if_neg (by decide)]
  apply get?_withEpoch
  rw [get?_withMember, if_neg (by decide), SortedMap.get?_insert, if_neg (by decide),
    SortedMap.get?_empty]

theorem persistPatch_evidenceRev (result : Json) (rev : Int64) (prior : Json) :
    (persistPatch result rev prior).get? "evidence_rev" =
      (controlSource result).get? "evidence_rev" := by
  simp [persistPatch, get?_withControl_evidenceRev, get?_withMember, get?_withEpoch_of_ne,
    SortedMap.get?_insert]

theorem brainPieces_planEpoch (result : Json) :
    (brainControlPieces result).1.get? "plan_epoch" = none := by
  have hnot : "plan_epoch" ∉ controlKeys := by decide
  simp [brainControlPieces, get?_withControl_of_not_mem hnot, get?_withMember]

theorem brainPieces_evidenceRev (result : Json) :
    (brainControlPieces result).1.get? "evidence_rev" =
      (controlSource result).get? "evidence_rev" := by
  simp [brainControlPieces, get?_withControl_evidenceRev, get?_withMember]

theorem bundlePatch_planEpoch (result curMask : Json) (rev : Int64) (prior : Json) :
    (assembleBundleMetaPatch (workerBundle result curMask) rev prior).get? "plan_epoch" =
      epochMember result rev prior := by
  unfold assembleBundleMetaPatch
  rw [get?_withMember, if_neg (by decide), SortedMap.get?_insertAll]
  simp only [workerBundle, brainPieces_planEpoch, Option.none_or]
  apply get?_withEpoch
  cases result.get? "session_ticket" <;>
    simp [get?_withMember, SortedMap.get?_insert]

theorem bundlePatch_evidenceRev (result curMask : Json) (rev : Int64) (prior : Json) :
    (assembleBundleMetaPatch (workerBundle result curMask) rev prior).get? "evidence_rev" =
      (controlSource result).get? "evidence_rev" := by
  unfold assembleBundleMetaPatch
  rw [get?_withMember, if_neg (by decide), SortedMap.get?_insertAll]
  simp only [workerBundle, brainPieces_evidenceRev]
  cases result.get? "session_ticket" <;>
    simp [get?_withMember, get?_withEpoch_of_ne, SortedMap.get?_insert]

theorem asI64_range {v : Json} {n : ℤ} (h : v.asI64 = some n) : -2 ^ 63 ≤ n ∧ n < 2 ^ 63 := by
  cases v with
  | num n' =>
      cases n' with
      | int m =>
          simp only [asI64] at h
          split_ifs at h with hrange
          rw [Option.some.injEq] at h
          rw [← h]
          exact hrange
      | float q => simp [asI64] at h
  | _ => simp [asI64] at h

theorem candidateEpoch_range {result : Json} {pe : ℤ} (h : candidateEpoch result = some pe) :
    -2 ^ 63 ≤ pe ∧ pe < 2 ^ 63 := by
  have hbind : ∀ v : Option Json, v.bind asI64 = some pe → -2 ^ 63 ≤ pe ∧ pe < 2 ^ 63 := by
    intro v hv
    obtain ⟨w, -, hw⟩ := Option.bind_eq_some_iff.mp hv
    exact asI64_range hw
  simp only [candidateEpoch, Option.or_eq_some_iff] at h
  rcases h with h | ⟨-, h | ⟨-, h⟩⟩
  · exact hbind _ h
  · exact hbind _ h
  · exact hbind _ h

theorem epoch_range (result : Json) (rev : Int64) :
    -2 ^ 63 ≤ (candidateEpoch result).getD rev.toInt ∧
      (candidateEpoch result).getD rev.toInt < 2 ^ 63 := by
  cases hcandidate : candidateEpoch result with
  | none => exact ⟨rev.le_toInt, rev.toInt_lt⟩
  | some pe => exact candidateEpoch_range hcandidate

theorem le_of_epochMember {result : Json} {rev : Int64} {prior v : Json}
    (h : epochMember result rev prior = some v) :
    ∃ pe, v.asI64 = some pe ∧ planEpochOf prior ≤ pe := by
  unfold epochMember withEpoch at h
  split_ifs at h with hle
  · rw [SortedMap.get?_insert_self, Option.some.injEq] at h
    rw [← h]
    exact ⟨_, asI64_ofInt (epoch_range result rev), hle⟩
  · simp at h

theorem planEpochOf_mergePatch_none {v : Json} {patch : Fields}
    (h : patch.get? "plan_epoch" = none) : planEpochOf (mergePatch v patch) = planEpochOf v := by
  cases hobj : isObject v with
  | true => simp [planEpochOf, i64Or, get?_mergePatch hobj, h]
  | false =>
      have hmerged : isObject (mergePatch v patch) = false := by rw [isObject_mergePatch, hobj]
      simp [planEpochOf, i64Or, get?_of_not_object hobj, get?_of_not_object hmerged]

theorem planEpochOf_mergePatch_some {v w : Json} {patch : Fields} {pe : ℤ}
    (hobj : isObject v = true) (h : patch.get? "plan_epoch" = some w)
    (hw : w.asI64 = some pe) : planEpochOf (mergePatch v patch) = pe := by
  simp [planEpochOf, i64Or, get?_mergePatch hobj, h, hw]

theorem planEpochOf_of_not_object {v : Json} (h : isObject v = false) : planEpochOf v = 0 := by
  simp [planEpochOf, i64Or, get?_of_not_object h]

theorem planEpochOf_le_worker (v result curMask : Json) (rev : Int64) :
    planEpochOf v ≤ planEpochOf (mergePatch v
      (assembleBundleMetaPatch (workerBundle result curMask) rev v)) := by
  cases hmember : epochMember result rev v with
  | none =>
      rw [planEpochOf_mergePatch_none (by rw [bundlePatch_planEpoch, hmember])]
  | some w =>
      obtain ⟨pe, hw, hle⟩ := le_of_epochMember hmember
      cases hobj : isObject v with
      | true =>
          rw [planEpochOf_mergePatch_some hobj (by rw [bundlePatch_planEpoch, hmember]) hw]
          exact hle
      | false =>
          have hmerged := isObject_mergePatch v
            (assembleBundleMetaPatch (workerBundle result curMask) rev v)
          rw [hobj] at hmerged
          rw [planEpochOf_of_not_object hobj, planEpochOf_of_not_object hmerged]

end PlanEpoch

end GrServer
