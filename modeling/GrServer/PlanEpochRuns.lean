import GrServer.PlanEpoch

/-!
# Interleaved writers of the plan epoch

`NotRaised` says at an UPDATE of the HTTP path or of the gate that no other writer has raised
the stored plan epoch since this call read it.  The runs whose steps all keep to
it never lower the plan epoch.
-/

namespace GrServer

open Json

namespace PlanEpoch

/-- The plan epoch that the UPDATE of a merge rests on: where it writes one, the
one that the call's first merge returned, else the one its own SELECT read. -/
def Call.basis (call : Call) (snapshot : Json) : ℤ :=
  if call.stage.patch.contains "plan_epoch" then call.readEpoch else planEpochOf snapshot

def NotRaised (s : State) : Event → Prop
  | .update i true => ∀ call snapshot, s.calls i = some call →
      call.snapshot = some snapshot → planEpochOf s.sessionMeta ≤ call.basis snapshot
  | _ => True

instance (s : State) : ∀ e, Decidable (NotRaised s e)
  | .update i true =>
      decidable_of_iff (∀ call ∈ s.calls i, ∀ snapshot ∈ call.snapshot,
        planEpochOf s.sessionMeta ≤ call.basis snapshot)
        ⟨fun h call snapshot hcall hsnapshot => h call hcall snapshot hsnapshot,
          fun h call hcall snapshot hsnapshot => h call snapshot hcall hsnapshot⟩
  | .update _ false => isTrue trivial
  | .persist .. => isTrue trivial
  | .select .. => isTrue trivial
  | .gate .. => isTrue trivial
  | .worker .. => isTrue trivial

def Idle (s : State) : Prop := ∀ i, s.calls i = none

/-! ## Calls under way -/

def Stage.pending : Stage → Fields
  | .prior => SortedMap.empty
  | .history patch _ => patch
  | .write patch => patch

/-- A call read a meta of the row's shape, and the plan epoch it is going to
write is not below the one it read. -/
structure Call.Ok (shape : Bool) (call : Call) : Prop where
  shape : ∀ snapshot, call.snapshot = some snapshot → isObject snapshot = shape
  epoch : ∀ v, call.stage.pending.get? "plan_epoch" = some v →
    ∃ pe, v.asI64 = some pe ∧ call.readEpoch ≤ pe

def Inv (s : State) : Prop :=
  ∀ i call, s.calls i = some call → call.Ok (isObject s.sessionMeta)

theorem Call.Ok.next {shape : Bool} {call call' : Call} (h : call.Ok shape) {returned : Json}
    (hnext : call.next returned = some call') : call'.Ok shape := by
  unfold Call.next at hnext
  cases hstage : call.stage with
  | prior =>
      simp only [hstage, Option.some.injEq] at hnext
      subst hnext
      constructor
      · intro snapshot hsnapshot
        simp at hsnapshot
      · intro v hv
        have hmember : epochMember call.result call.rev returned = some v := by
          rw [← persistPatch_planEpoch]
          cases hlog : call.result.get? "battle_log" <;> simpa [hlog, Stage.pending] using hv
        exact le_of_epochMember hmember
  | history patch battleLog =>
      simp only [hstage, Option.some.injEq] at hnext
      subst hnext
      constructor
      · intro snapshot hsnapshot
        simp at hsnapshot
      · intro v hv
        have hpatch : patch.get? "plan_epoch" = some v := by
          simpa [Stage.pending, SortedMap.get?_insert] using hv
        exact h.epoch v (by rw [hstage]; exact hpatch)
  | write patch => simp [hstage] at hnext

theorem Inv.setCall {s : State} (h : Inv s) (i : ℕ) {call : Option Call}
    (hcall : ∀ c, call = some c → c.Ok (isObject s.sessionMeta)) : Inv (s.setCall i call) := by
  intro j c hc
  by_cases hj : j = i
  · subst hj
    exact hcall c (by simpa [State.setCall] using hc)
  · exact h j c (by simpa [State.setCall, Function.update_of_ne hj] using hc)

theorem Inv.select {s : State} (h : Inv s) {i : ℕ} {call : Call}
    (hcall : s.calls i = some call) (succeeds : Bool) : Inv (s.select i call succeeds) := by
  have hok := h i call hcall
  cases succeeds with
  | false => exact h.setCall i fun c hc => hok.next hc
  | true =>
      apply h.setCall i
      intro c hc
      rw [Option.some.injEq] at hc
      subst hc
      exact ⟨by simp, hok.epoch⟩

theorem Inv.update {s : State} (h : Inv s) {i : ℕ} {call : Call} {snapshot : Json}
    (hcall : s.calls i = some call) (hsnapshot : call.snapshot = some snapshot)
    (succeeds : Bool) : Inv (s.update i call snapshot succeeds) := by
  have hok := h i call hcall
  cases succeeds with
  | false => exact h.setCall i fun c hc => hok.next hc
  | true =>
      have hshape : isObject (mergePatch snapshot call.stage.patch) =
          isObject s.sessionMeta := by
        rw [isObject_mergePatch, hok.shape snapshot hsnapshot]
      intro j c hc
      change c.Ok (isObject (mergePatch snapshot call.stage.patch))
      rw [hshape]
      exact (h.setCall i fun c hc => hok.next hc) j c hc

theorem step_cases (s : State) (e : Event) :
    step s e = s ∨
      (∃ i call, call.snapshot = none ∧ call.stage.pending = SortedMap.empty ∧
        step s e = s.setCall i (some call)) ∨
      (∃ i call succeeds, e = .select i succeeds ∧ s.calls i = some call ∧
        step s e = s.select i call succeeds) ∨
      (∃ i call snapshot succeeds, e = .update i succeeds ∧ s.calls i = some call ∧
        call.snapshot = some snapshot ∧ step s e = s.update i call snapshot succeeds) ∨
      ∃ result curMask rev, e = .worker result curMask rev ∧
        step s e = s.worker result curMask rev := by
  cases e with
  | persist i result rev =>
      exact Or.inr (Or.inl ⟨i, ⟨result, rev, .prior, 0, none⟩, rfl, rfl, rfl⟩)
  | gate i =>
      exact Or.inr (Or.inl ⟨i, ⟨.null, 0, .write SortedMap.empty, 0, none⟩, rfl, rfl, rfl⟩)
  | select i succeeds =>
      cases hcall : s.calls i with
      | none => simp [step, hcall]
      | some call =>
          cases hsnapshot : call.snapshot with
          | none =>
              right; right; left
              exact ⟨i, call, succeeds, rfl, hcall, by simp [step, hcall, hsnapshot]⟩
          | some snapshot => simp [step, hcall, hsnapshot]
  | update i succeeds =>
      cases hcall : s.calls i with
      | none => simp [step, hcall]
      | some call =>
          cases hsnapshot : call.snapshot with
          | none => simp [step, hcall, hsnapshot]
          | some snapshot =>
              right; right; right; left
              exact ⟨i, call, snapshot, succeeds, rfl, hcall, hsnapshot,
                by simp [step, hcall, hsnapshot]⟩
  | worker result curMask rev =>
      right; right; right; right
      exact ⟨result, curMask, rev, rfl, rfl⟩

theorem Inv.step {s : State} (h : Inv s) (e : Event) : Inv (step s e) := by
  rcases step_cases s e with hsame | ⟨i, fresh, hsnapshot, hpending, hnext⟩ |
    ⟨i, call, succeeds, -, hcall, hnext⟩ |
    ⟨i, call, snapshot, succeeds, -, hcall, hsnapshot, hnext⟩ |
    ⟨result, curMask, rev, -, hnext⟩
  · rw [hsame]
    exact h
  · rw [hnext]
    apply h.setCall i
    intro c hc
    rw [Option.some.injEq] at hc
    subst hc
    constructor
    · simp [hsnapshot]
    · simp [hpending]
  · rw [hnext]
    exact h.select hcall succeeds
  · rw [hnext]
    exact h.update hcall hsnapshot succeeds
  · rw [hnext]
    intro j c hc
    have hok := h j c hc
    simpa [State.worker] using hok

theorem planEpochOf_le_update {s : State} {call : Call} {snapshot : Json}
    (hok : call.Ok (isObject s.sessionMeta)) (hsnapshot : call.snapshot = some snapshot)
    (hbasis : planEpochOf s.sessionMeta ≤ call.basis snapshot) :
    planEpochOf s.sessionMeta ≤ planEpochOf (mergePatch snapshot call.stage.patch) := by
  have hshape := hok.shape snapshot hsnapshot
  cases hobj : isObject s.sessionMeta with
  | false =>
      have hmerged : isObject (mergePatch snapshot call.stage.patch) = false := by
        rw [isObject_mergePatch, hshape, hobj]
      rw [planEpochOf_of_not_object hobj, planEpochOf_of_not_object hmerged]
  | true =>
      rw [hobj] at hshape
      cases hmember : call.stage.patch.get? "plan_epoch" with
      | none =>
          rw [planEpochOf_mergePatch_none hmember]
          simpa [Call.basis, SortedMap.contains, hmember] using hbasis
      | some v =>
          have hpending : call.stage.pending.get? "plan_epoch" = some v := by
            cases hstage : call.stage <;> simp_all [Stage.patch, Stage.pending]
          obtain ⟨pe, hv, hle⟩ := hok.epoch v hpending
          rw [planEpochOf_mergePatch_some hshape hmember hv]
          have hread : planEpochOf s.sessionMeta ≤ call.readEpoch := by
            simpa [Call.basis, SortedMap.contains, hmember] using hbasis
          omega

theorem planEpochOf_le_step {s : State} {e : Event} (h : Inv s) (hstep : NotRaised s e) :
    planEpochOf s.sessionMeta ≤ planEpochOf (step s e).sessionMeta := by
  rcases step_cases s e with hsame | ⟨i, fresh, -, -, hnext⟩ |
    ⟨i, call, succeeds, -, hcall, hnext⟩ |
    ⟨i, call, snapshot, succeeds, he, hcall, hsnapshot, hnext⟩ |
    ⟨result, curMask, rev, -, hnext⟩
  · rw [hsame]
  · rw [hnext]
    rfl
  · rw [hnext]
    cases succeeds <;> rfl
  · rw [hnext]
    cases succeeds with
    | false => rfl
    | true =>
        subst he
        exact planEpochOf_le_update (h i call hcall) hsnapshot
          (hstep call snapshot hcall hsnapshot)
  · rw [hnext]
    exact planEpochOf_le_worker s.sessionMeta result curMask rev

/-! ## Both writers alone -/

def aloneCall (i : ℕ) (result : Json) (rev : Int64) : List Event :=
  let merge : List Event := [.select i true, .update i true]
  [.persist i result rev] ++ merge ++
    (if (result.get? "battle_log").isSome then merge else []) ++ merge

theorem run_merge {s : State} {i : ℕ} {call : Call} (hcall : s.calls i = some call)
    (hnone : call.snapshot = none) :
    let s' := runFrom step s [.select i true, .update i true]
    s'.sessionMeta = mergePatch s.sessionMeta call.stage.patch ∧
      s'.calls i = Call.next { call with snapshot := some s.sessionMeta }
        (mergePatch s.sessionMeta call.stage.patch) := by
  simp [step, hcall, hnone, State.select, State.update, State.setCall]

def State.readBack (s : State) : Json := mergePatch s.sessionMeta SortedMap.empty

theorem run_aloneCall (s : State) (i : ℕ) (result : Json) (rev : Int64) :
    ∃ v patch, (runFrom step s (aloneCall i result rev)).sessionMeta = mergePatch v patch ∧
      (v = s.readBack ∨ v = mergePatch s.readBack SortedMap.empty) ∧
      ∀ k, k ≠ "battle_log_history" →
        patch.get? k = (persistPatch result rev s.readBack).get? k := by
  let s₁ := step s (.persist i result rev)
  have hcall₁ : s₁.calls i = some ⟨result, rev, .prior, 0, none⟩ := by
    simp [s₁, step, State.setCall]
  obtain ⟨hmeta₂, hcall₂⟩ := run_merge hcall₁ rfl
  let s₂ := runFrom step s₁ [.select i true, .update i true]
  have hread : s₂.sessionMeta = s.readBack := hmeta₂
  cases hlog : result.get? "battle_log" with
  | none =>
      simp only [Call.next, hlog] at hcall₂
      obtain ⟨hmeta₃, -⟩ := run_merge hcall₂ rfl
      refine ⟨s.readBack, persistPatch result rev s.readBack, ?_, Or.inl rfl, fun _ _ => rfl⟩
      have hrun : runFrom step s (aloneCall i result rev) =
          runFrom step s₂ [.select i true, .update i true] := by
        simp [aloneCall, hlog, s₂, s₁]
      rw [hrun, hmeta₃, hread]
      rfl
  | some battleLog =>
      simp only [Call.next, hlog] at hcall₂
      obtain ⟨hmeta₃, hcall₃⟩ := run_merge hcall₂ rfl
      simp only [Call.next] at hcall₃
      obtain ⟨hmeta₄, -⟩ := run_merge hcall₃ rfl
      have hrun : runFrom step s (aloneCall i result rev) =
          runFrom step (runFrom step s₂ [.select i true, .update i true])
            [.select i true, .update i true] := by
        simp [aloneCall, hlog, s₂, s₁]
      let prior := mergePatch s.readBack SortedMap.empty
      refine ⟨prior, (persistPatch result rev s.readBack).insert "battle_log_history"
        (rollHistory prior battleLog), ?_, Or.inr rfl, ?_⟩
      · rw [hrun, hmeta₄, hmeta₃, hread]
        rfl
      · intro k hk
        exact SortedMap.get?_insert_of_ne hk _

theorem get?_mergePatch_empty (v : Json) (k : String) :
    (mergePatch v SortedMap.empty).get? k = v.get? k := by
  cases hobj : isObject v with
  | true => simp [get?_mergePatch hobj]
  | false =>
      have hmerged : isObject (mergePatch v SortedMap.empty) = false := by
        rw [isObject_mergePatch, hobj]
      rw [get?_of_not_object hobj, get?_of_not_object hmerged]

theorem epochMember_readBack (s : State) (result : Json) (rev : Int64) :
    epochMember result rev s.readBack = epochMember result rev s.sessionMeta := by
  have hepoch : planEpochOf s.readBack = planEpochOf s.sessionMeta :=
    planEpochOf_mergePatch_none rfl
  simp only [epochMember, withEpoch, hepoch]

theorem aloneCall_agrees (s : State) (i : ℕ) (result curMask : Json) (rev : Int64) {k : String}
    (hk : k ≠ "battle_log_history")
    (hpatch : (persistPatch result rev s.readBack).get? k =
      (assembleBundleMetaPatch (workerBundle result curMask) rev s.sessionMeta).get? k) :
    (runFrom step s (aloneCall i result rev)).sessionMeta.get? k =
      (step s (.worker result curMask rev)).sessionMeta.get? k := by
  obtain ⟨v, patch, hmeta, hv, hsame⟩ := run_aloneCall s i result rev
  have hget : v.get? k = s.sessionMeta.get? k := by
    rcases hv with rfl | rfl <;> simp [State.readBack, get?_mergePatch_empty]
  have hshape : isObject v = isObject s.sessionMeta := by
    rcases hv with rfl | rfl <;> simp [State.readBack]
  change _ = (mergePatch s.sessionMeta (assembleBundleMetaPatch (workerBundle result curMask)
    rev s.sessionMeta)).get? k
  rw [hmeta]
  cases hobj : isObject s.sessionMeta with
  | true =>
      rw [hobj] at hshape
      rw [get?_mergePatch hshape, get?_mergePatch hobj, hsame k hk, hpatch, hget]
  | false =>
      have hleft : isObject (mergePatch v patch) = false := by
        rw [isObject_mergePatch, hshape, hobj]
      rw [get?_of_not_object hleft, get?_of_not_object (by rw [isObject_mergePatch, hobj])]

/-- The step does not lower the plan epoch, and a batch that it finds refused as
stale stays refused. -/
structure EpochKept (s : State) (e : Event) : Prop where
  mono : planEpochOf s.sessionMeta ≤ planEpochOf (step s e).sessionMeta
  stale : ∀ clientEpoch, stalePlan clientEpoch s.sessionMeta = true →
    stalePlan clientEpoch (step s e).sessionMeta = true

/-- Both writers store the same plan epoch and evidence revision. -/
structure WritersAgree (s : State) : Prop where
  planEpoch : ∀ i result curMask rev,
    (runFrom step s (aloneCall i result rev)).sessionMeta.get? "plan_epoch" =
      (step s (.worker result curMask rev)).sessionMeta.get? "plan_epoch"
  evidenceRev : ∀ i result curMask rev,
    (runFrom step s (aloneCall i result rev)).sessionMeta.get? "evidence_rev" =
      (step s (.worker result curMask rev)).sessionMeta.get? "evidence_rev"

theorem writersAgree (s : State) : WritersAgree s where
  planEpoch := by
    intro i result curMask rev
    apply aloneCall_agrees s i result curMask rev (by decide)
    rw [persistPatch_planEpoch, bundlePatch_planEpoch, epochMember_readBack]
  evidenceRev := by
    intro i result curMask rev
    apply aloneCall_agrees s i result curMask rev (by decide)
    rw [persistPatch_evidenceRev, bundlePatch_evidenceRev]

theorem epochKept_step {s : State} {e : Event} (h : Inv s) (hstep : NotRaised s e) :
    EpochKept s e ∧ Inv (step s e) := by
  have hmono := planEpochOf_le_step h hstep
  exact ⟨⟨hmono, fun _ hstale => stalePlan_mono hmono hstale⟩, h.step e⟩

/-- In a run where no UPDATE of the HTTP path or of the gate finds the plan epoch raised since
its read, no step lowers it or accepts a stale batch again; in every state both
writers agree, and a batch is refused only below the stored plan epoch. -/
theorem run_keeps_plan_epoch {s : State} {events : List Event} (hs : Idle s)
    (hrun : Along step NotRaised s events) :
    Along step EpochKept s events ∧ WritersAgree (runFrom step s events) ∧
      ∀ c, stalePlan (some c) (runFrom step s events).sessionMeta = true →
        c < planEpochOf (runFrom step s events).sessionMeta := by
  have hinv : Inv s := by
    intro i call hcall
    simp [hs i] at hcall
  refine ⟨hrun.steps (fun _ _ h hstep => epochKept_step h hstep) hinv, writersAgree _, ?_⟩
  intro c hstale
  exact lt_of_stalePlan hstale

def metaWith (epoch : ℤ) : Json := .obj [("plan_epoch", ofInt epoch)]

def quiet (epoch : ℤ) : State := ⟨metaWith epoch, fun _ => none⟩

def gatedRun : List Event :=
  [.worker (metaWith 6) .null 1, .gate 1, .select 1 true, .persist 0 (metaWith 7) 2,
    .select 0 true, .update 0 true, .update 1 true, .select 0 true, .update 0 true, .gate 2,
    .select 2 true, .update 2 true]

theorem gatedRun_keeps_plan_epoch :
    Along step EpochKept (quiet 5) gatedRun ∧
      planEpochOf (runFrom step (quiet 5) gatedRun).sessionMeta = 7 := by
  have hs : Idle (quiet 5) := fun _ => rfl
  have hrun : Along step NotRaised (quiet 5) gatedRun := by decide
  exact ⟨(run_keeps_plan_epoch hs hrun).1, by decide⟩

/-- The worker stores 9 after the last SELECT of a call whose analysis has plan
epoch 6; its UPDATE brings 6 back, and a batch of epoch 7 is accepted again. -/
theorem late_update_lowers_plan_epoch :
    let before := runFrom step (quiet 5)
      [.persist 0 (metaWith 6) 1, .select 0 true, .update 0 true, .select 0 true,
        .worker (metaWith 9) .null 2]
    planEpochOf before.sessionMeta = 9 ∧
      planEpochOf (step before (.update 0 true)).sessionMeta = 6 ∧
      stalePlan (some 7) before.sessionMeta = true ∧
      stalePlan (some 7) (step before (.update 0 true)).sessionMeta = false := by
  decide

end PlanEpoch

end GrServer
