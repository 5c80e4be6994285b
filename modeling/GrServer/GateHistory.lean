import GrServer.GuardedRun
import GrServer.ReturnGate

/-!
# The return gate and its configuration

The idle threshold of the gate and the completion policy are process-global
cells.  A `static` belongs to the function it is declared in, so each setter
and each getter has a cell of its own.

Times are those of a clock that counts milliseconds from the epoch in an `i64`;
their differences fit it.
-/

namespace GrServer

open Json

namespace ReturnGate

def defaultIdleMs : ℤ := 60_000

/-- The cells named `V`, by the function that declares them. -/
structure Statics where
  sdkReturnIdleMs : ℤ
  setSdkReturnIdleMs : ℤ
  completeOnCommercialSilicon : ℕ
  setCompleteOnCommercialSilicon : ℕ

def Statics.initial : Statics := ⟨0, 0, 1, 1⟩

def sdkReturnIdleMs (v : Statics) : ℤ :=
  let x := v.sdkReturnIdleMs
  if 10_000 ≤ x then x else defaultIdleMs

def setSdkReturnIdleMs (ms : ℤ) (v : Statics) : Statics :=
  { v with setSdkReturnIdleMs := max ms 10_000 }

def completeOnCommercialSilicon (v : Statics) : Bool := v.completeOnCommercialSilicon != 0

def setCompleteOnCommercialSilicon (on : Bool) (v : Statics) : Statics :=
  { v with setCompleteOnCommercialSilicon := if on then 1 else 0 }

structure Flags where
  probeComplete : Bool
  pagehideFinal : Bool
  hasMinEvidence : Bool

def idleMs (lastUploadMs : Option ℤ) (nowMs : ℤ) : Option ℤ :=
  lastUploadMs.map fun t => max (nowMs - t) 0

def idleOk (thr : ℤ) (idle : Option ℤ) : Bool := (idle.map fun i => decide (thr ≤ i)).getD false

def verdict (flags : Flags) (idleOk : Bool) : Bool × List String :=
  if flags.probeComplete && idleOk then (true, ["probe_complete_and_vt_idle_1m"])
  else if flags.pagehideFinal && flags.hasMinEvidence then (true, ["pagehide_min_evidence"])
  else if idleOk && flags.hasMinEvidence then (true, ["vt_idle_1m_min_evidence"])
  else
    (false,
      (if !flags.probeComplete then ["probe_incomplete"] else []) ++
      (if !idleOk then ["vt_upload_idle_lt_1m"] else []) ++
      (if flags.pagehideFinal && !flags.hasMinEvidence then ["pagehide_without_min_evidence"]
        else []))

def shouldReturnIdentityToSdkEx (v : Statics) (flags : Flags) (lastUploadMs : Option ℤ)
    (nowMs : ℤ) : Json :=
  let idle := idleMs lastUploadMs nowMs
  let thr := sdkReturnIdleMs v
  let (emit, reasons) := verdict flags (idleOk thr idle)
  record
    [("emit", .bool emit),
      ("probe_complete", .bool flags.probeComplete),
      ("pagehide_final", .bool flags.pagehideFinal),
      ("has_min_evidence", .bool flags.hasMinEvidence),
      ("last_upload_ms", jsonOf (lastUploadMs.map ofInt)),
      ("idle_ms", jsonOf (idle.map ofInt)),
      ("idle_threshold_ms", ofInt thr),
      ("reasons", .arr (reasons.map Json.str))]

def shouldReturnIdentityToSdk (v : Statics) (probeComplete : Bool) (lastUploadMs : Option ℤ)
    (nowMs : ℤ) : Json :=
  shouldReturnIdentityToSdkEx v ⟨probeComplete, false, false⟩ lastUploadMs nowMs

def Documented (thr : ℤ) (flags : Flags) (idle : Option ℤ) : Prop :=
  (flags.probeComplete ∧ ∃ i, idle = some i ∧ thr ≤ i) ∨
    (flags.pagehideFinal ∧ flags.hasMinEvidence) ∨
    ((∃ i, idle = some i ∧ thr ≤ i) ∧ flags.hasMinEvidence)

/-! ## Histories -/

/-- The configuration as the setters are meant. -/
structure Configured where
  idleMs : ℤ
  completeOnSilicon : Bool

structure Process where
  statics : Statics
  configured : Configured
  nowMs : ℕ
  lastUploadMs : Option ℤ

inductive Event where
  | setIdle (ms : ℤ)
  | setComplete (on : Bool)
  | upload
  | advance (ms : ℕ)
  /-- An evaluation of the gate. -/
  | gate (flags : Flags)
  /-- A call of `complete_on_commercial_silicon`. -/
  | complete

def Process.start (nowMs : ℕ) : Process := ⟨Statics.initial, ⟨defaultIdleMs, true⟩, nowMs, none⟩

def step (p : Process) : Event → Process
  | .setIdle ms =>
      { p with
        statics := setSdkReturnIdleMs ms p.statics
        configured := { p.configured with idleMs := max ms 10_000 } }
  | .setComplete on =>
      { p with
        statics := setCompleteOnCommercialSilicon on p.statics
        configured := { p.configured with completeOnSilicon := on } }
  | .upload => { p with lastUploadMs := some p.nowMs }
  | .advance ms => { p with nowMs := p.nowMs + ms }
  | .gate _ => p
  | .complete => p

def Process.evaluate (p : Process) (flags : Flags) : Json :=
  shouldReturnIdentityToSdkEx p.statics flags p.lastUploadMs p.nowMs

/-- What an event promises of the history so far, and an evaluation also of
what follows it. -/
def Obeyed (p : Process) : Event → Prop
  | .gate flags =>
      let answer := p.evaluate flags
      answer.get? "idle_threshold_ms" = some (ofInt p.configured.idleMs) ∧
        (answer.boolOr "emit" = true →
          Documented p.configured.idleMs flags (idleMs p.lastUploadMs p.nowMs)) ∧
        (answer.boolOr "emit" = true → ∀ later, Event.upload ∉ later →
          ((runFrom step p later).evaluate flags).boolOr "emit" = true)
  | .complete => completeOnCommercialSilicon p.statics = p.configured.completeOnSilicon
  | _ => True

/-- What is set last when it is asked for is the default. -/
def AsDefault (p : Process) : Event → Prop
  | .gate _ => p.configured.idleMs = defaultIdleMs
  | .complete => p.configured.completeOnSilicon = true
  | _ => True

section Gate

variable {v : Statics} {flags : Flags} {last : Option ℤ} {now : ℤ} {thr : ℤ} {idle : Option ℤ}

theorem idleOk_iff : idleOk thr idle = true ↔ ∃ i, idle = some i ∧ thr ≤ i := by
  unfold idleOk
  cases idle with
  | none => exact ⟨nofun, nofun⟩
  | some i =>
      rw [Option.map_some, Option.getD_some, decide_eq_true_iff]
      constructor
      · intro hle
        exact ⟨i, rfl, hle⟩
      · rintro ⟨j, hj, hle⟩
        cases hj
        exact hle

theorem verdict_iff :
    (verdict flags (idleOk thr idle)).1 = true ↔ Documented thr flags idle := by
  unfold Documented
  rw [← idleOk_iff]
  unfold verdict
  rcases flags with ⟨probeComplete, pagehideFinal, hasMinEvidence⟩
  cases probeComplete
  all_goals
    cases pagehideFinal
    all_goals
      cases hasMinEvidence
      all_goals
        cases idleOk thr idle
        all_goals decide

theorem threshold_answer :
    (shouldReturnIdentityToSdkEx v flags last now).get? "idle_threshold_ms" =
      some (ofInt (sdkReturnIdleMs v)) := by
  unfold shouldReturnIdentityToSdkEx record
  rfl

theorem emit_answer :
    (shouldReturnIdentityToSdkEx v flags last now).boolOr "emit" = true ↔
      Documented (sdkReturnIdleMs v) flags (idleMs last now) := by
  rw [← verdict_iff]
  exact Iff.rfl

theorem Documented.later {later : ℤ} (h : Documented thr flags (idleMs last now))
    (hle : now ≤ later) : Documented thr flags (idleMs last later) := by
  have hidle : (∃ i, idleMs last now = some i ∧ thr ≤ i) →
      ∃ i, idleMs last later = some i ∧ thr ≤ i := by
    rintro ⟨i, hi, hthr⟩
    unfold idleMs at hi ⊢
    rcases Option.map_eq_some_iff.mp hi with ⟨t, rfl, rfl⟩
    refine ⟨max (later - t) 0, rfl, hthr.trans ?_⟩
    omega
  exact h.imp (And.imp_right hidle) (Or.imp_right (And.imp_left hidle))

end Gate

/-! ## What a history does -/

section Histories

variable {p : Process}

def Unread (p : Process) : Prop :=
  p.statics.sdkReturnIdleMs = 0 ∧ p.statics.completeOnCommercialSilicon = 1

theorem Unread.step (h : Unread p) (e : Event) : Unread (step p e) := by
  cases e with
  | setIdle ms => exact h
  | setComplete on => exact h
  | upload => exact h
  | advance ms => exact h
  | gate flags => exact h
  | complete => exact h

theorem Unread.threshold (h : Unread p) : sdkReturnIdleMs p.statics = defaultIdleMs := by
  unfold sdkReturnIdleMs
  rw [h.1]
  rfl

theorem Unread.complete (h : Unread p) : completeOnCommercialSilicon p.statics = true := by
  unfold completeOnCommercialSilicon
  rw [h.2]
  rfl

theorem unread_start (nowMs : ℕ) : Unread (Process.start nowMs) := ⟨rfl, rfl⟩

theorem step_without_upload {e : Event} (h : e ≠ .upload) :
    (step p e).lastUploadMs = p.lastUploadMs ∧ p.nowMs ≤ (step p e).nowMs := by
  cases e with
  | upload => exact absurd rfl h
  | advance ms => exact ⟨rfl, Nat.le_add_right p.nowMs ms⟩
  | setIdle ms => exact ⟨rfl, le_rfl⟩
  | setComplete on => exact ⟨rfl, le_rfl⟩
  | gate flags => exact ⟨rfl, le_rfl⟩
  | complete => exact ⟨rfl, le_rfl⟩

theorem run_without_upload {later : List Event} (h : Event.upload ∉ later) :
    (runFrom step p later).lastUploadMs = p.lastUploadMs ∧
      p.nowMs ≤ (runFrom step p later).nowMs := by
  induction later generalizing p with
  | nil => exact ⟨rfl, le_rfl⟩
  | cons e later ih =>
      rw [List.mem_cons, not_or] at h
      rcases h with ⟨hne, hrest⟩
      rcases @step_without_upload p e (Ne.symm hne) with ⟨hlast, hnow⟩
      rcases @ih (step p e) hrest with ⟨hlastRun, hnowRun⟩
      exact ⟨hlastRun.trans hlast, hnow.trans hnowRun⟩

theorem emit_iff (h : Unread p) (flags : Flags) :
    (p.evaluate flags).boolOr "emit" = true ↔
      Documented defaultIdleMs flags (idleMs p.lastUploadMs p.nowMs) := by
  unfold Process.evaluate
  rw [emit_answer, h.threshold]

theorem emit_persists (h : Unread p) {flags : Flags}
    (hemit : (p.evaluate flags).boolOr "emit" = true) {later : List Event}
    (hlater : Event.upload ∉ later) :
    ((runFrom step p later).evaluate flags).boolOr "emit" = true := by
  rcases @run_without_upload p later hlater with ⟨hlast, hnow⟩
  have hend : Unread (runFrom step p later) :=
    runFrom_invariant (I := Unread) (fun _ e hu => Unread.step hu e) h later
  rw [emit_iff hend, hlast]
  refine ((emit_iff h flags).mp hemit).later ?_
  exact_mod_cast hnow

theorem ofInt_inj {a b : ℤ} (h : ofInt a = ofInt b) : a = b := by
  cases h
  rfl

theorem obeyed_iff (h : Unread p) (e : Event) : Obeyed p e ↔ AsDefault p e := by
  cases e with
  | gate flags =>
      unfold Obeyed AsDefault
      dsimp only
      constructor
      · rintro ⟨hthreshold, -⟩
        have hanswer := @threshold_answer p.statics flags p.lastUploadMs p.nowMs
        rw [h.threshold] at hanswer
        exact ofInt_inj (Option.some.inj (hthreshold.symm.trans hanswer))
      · intro hdefault
        rw [hdefault]
        refine ⟨?_, (emit_iff h flags).mp, fun hemit later => emit_persists h hemit⟩
        rw [← h.threshold]
        exact threshold_answer
  | complete =>
      unfold Obeyed AsDefault
      dsimp only
      rw [h.complete]
      exact eq_comm
  | setIdle ms => exact Iff.rfl
  | setComplete on => exact Iff.rfl
  | upload => exact Iff.rfl
  | advance ms => exact Iff.rfl

theorem configuration_obeyed_iff (nowMs : ℕ) (history : List Event) :
    Along step Obeyed (Process.start nowMs) history ↔
      Along step AsDefault (Process.start nowMs) history :=
  Along.iff_of_steps (fun _ e hu _ => obeyed_iff hu e) (fun _ e hu _ _ => Unread.step hu e)
    (along_of_forall fun _ _ _ => trivial) (unread_start nowMs)

/-- A threshold of ten seconds is set, and a policy; neither is in force. -/
theorem configuration_not_in_force :
    ¬ Along step Obeyed (Process.start 0)
        [.setIdle 10_000, .upload, .advance 20_000, .gate ⟨true, false, false⟩] ∧
      ¬ Along step Obeyed (Process.start 0) [.setComplete false, .complete] := by
  constructor
  · intro hrun
    have hgate := hrun.2.2.2.1.1
    cases hgate
  · intro hrun
    have hcomplete := hrun.2.1
    cases hcomplete

end Histories

end ReturnGate

end GrServer
