import GrServer.AnalyzeSchedule

/-!
# When the arms follow the policy

The arm of the upsert comes first and is due at once, so that the handler's arm
never moves the due away: the due of a session stays that of its first upload,
until the handler arms for complete coverage.  The policy is followed just where
it would itself have the analysis run by the end of every ingest.
-/

namespace GrServer

open AnalyzeJobs

namespace AnalyzeSchedule

def policyAt (env : PolicyEnv) (s : ArmState) (t : ℤ) : AnalyzeDueReason :=
  analyzeDueNow env.override t s.lastUpload (s.firstUpload.getD 0) s.analyzedMs s.coverage true
    false false

def idleMs (env : PolicyEnv) : ℤ := analyzeIdleUploadMsRt env.override

structure FourArms (env : PolicyEnv) (s : ArmState) : Prop where
  ceiling : s.analyzedMs = none → ∀ due ∈ s.due, ∀ first ∈ s.firstUpload,
    due ≤ first + analyzeNoResultMs
  quiet : ∀ t, s.clock ≤ t → s.coverage = false →
    ¬ (s.analyzedMs = none ∧ ∃ first ∈ s.firstUpload, first + analyzeNoResultMs ≤ t) →
    t < s.lastUpload + idleMs env → ∀ due ∈ s.due, s.lastUpload + idleMs env ≤ due
  asSpecified : ∀ t, s.clock ≤ t →
    ((∃ due ∈ s.due, due ≤ t) ↔ (policyAt env s t).shouldRun = true)

/-- The policy has the analysis run by the end of the ingest, and an arm is past:
that for complete coverage, or that of the first upload. -/
def Settled (env : PolicyEnv) (s : ArmState) : Prop :=
  (policyAt env s s.clock).shouldRun = true ∧
    (s.pulled = true ∨ ∀ first ∈ s.firstUpload, first + analyzeDebounceMs ≤ s.clock)

theorem idleMs_floor (env : PolicyEnv) : 5_000 ≤ idleMs env := by
  unfold idleMs analyzeIdleUploadMsRt
  split_ifs with h
  · exact h
  · decide

theorem shouldRun_iff (env : PolicyEnv) (s : ArmState) (t : ℤ) :
    (policyAt env s t).shouldRun = true ↔
      s.coverage = true ∨
      (s.analyzedMs = none ∧ 0 < s.firstUpload.getD 0 ∧
        analyzeNoResultMs ≤ t - s.firstUpload.getD 0) ∨
      (0 < s.lastUpload ∧ idleMs env ≤ t - s.lastUpload) := by
  unfold policyAt analyzeDueNow idleMs
  simp only [Bool.false_eq_true, if_false, Bool.not_true]
  split_ifs with hcoverage hresult hidle
  · simp [AnalyzeDueReason.shouldRun, hcoverage]
  · simp [AnalyzeDueReason.shouldRun, hresult]
  · simp [AnalyzeDueReason.shouldRun, hidle]
  · simp only [AnalyzeDueReason.shouldRun, Bool.false_eq_true, false_iff]
    rintro (h | h | h)
    · exact hcoverage h
    · exact hresult h
    · exact hidle h

theorem shouldRun_later {env : PolicyEnv} {s : ArmState} {t t' : ℤ} (hle : t ≤ t')
    (h : (policyAt env s t).shouldRun = true) : (policyAt env s t').shouldRun = true := by
  rw [shouldRun_iff] at h ⊢
  rcases h with hcoverage | ⟨hnone, hfirst, hresult⟩ | ⟨hlast, hidle⟩
  · exact Or.inl hcoverage
  · exact Or.inr (Or.inl ⟨hnone, hfirst, by omega⟩)
  · exact Or.inr (Or.inr ⟨hlast, by omega⟩)

/-! ## The due after an ingest -/

theorem le_firstUploadMs {received : List ReceivedBatch} {e : Ingest} {first : ℤ}
    (hne : received ≠ []) (h : ∀ b ∈ received, first ≤ b.createdMs) :
    first ≤ firstUploadMs received e := by
  have hsome : ∃ m, (received.map ReceivedBatch.createdMs).min? = some m := by
    rw [← Option.isSome_iff_exists, List.isSome_min?_iff]
    simpa using hne
  rcases hsome with ⟨m, hm⟩
  have hmem : m ∈ received.map ReceivedBatch.createdMs := List.min?_mem hm
  obtain ⟨b, hb, rfl⟩ := List.mem_map.mp hmem
  unfold firstUploadMs
  rw [hm]
  exact h b hb

theorem upsertReceived_ne_nil (received : List ReceivedBatch) (e : Ingest) :
    upsertReceived received e ≠ [] := by
  unfold upsertReceived
  split_ifs with h
  · rw [List.any_eq_true] at h
    rcases h with ⟨b, hb, _⟩
    simp only [ne_eq, List.map_eq_nil_iff]
    exact List.ne_nil_of_mem hb
  · simp

theorem le_of_mem_upsertReceived {received : List ReceivedBatch} {e : Ingest} {first : ℤ}
    (h : ∀ b ∈ received, first ≤ b.createdMs) (hupload : first ≤ e.uploadMs) :
    ∀ b ∈ upsertReceived received e, first ≤ b.createdMs := by
  intro b hb
  unfold upsertReceived at hb
  split_ifs at hb
  · obtain ⟨old, hold, rfl⟩ := List.mem_map.mp hb
    have hfirst := h old hold
    split_ifs
    · exact le_min hfirst hupload
    · exact hfirst
  · rcases List.mem_append.mp hb with hold | hnew
    · exact h b hold
    · rw [List.mem_singleton] at hnew
      rw [hnew]
      exact hupload

theorem due_after_handler (env : PolicyEnv) {received : List ReceivedBatch} {e : Ingest}
    {first armed : ℤ} (hread : first ≤ firstUploadMs received e) (hfirst : first ≤ e.nowMs)
    (harmed : armed ≤ first + analyzeDebounceMs) :
    (match brainAnalyzeArm env true false false received e with
      | some (debounce, merge) => scheduled (some armed) e.nowMs debounce merge
      | none => armed) =
      if readsCoverage received e && env.coverageComplete received then min armed e.nowMs
      else armed := by
  have himminent : armed ≤ e.nowMs + analyzeIdleImminentMs := by
    unfold analyzeDebounceMs at harmed
    unfold analyzeIdleImminentMs
    omega
  have hreset (debounce : ℤ) : scheduled (some armed) e.nowMs debounce .idleReset = armed :=
    if_pos himminent
  unfold brainAnalyzeArm readsCoverage
  simp only [Bool.not_true, Bool.false_eq_true, if_false, Bool.not_false, Bool.and_true]
  by_cases hskip : b8OnlySkip received e = true
  · simp [hskip]
  by_cases hsoft : softNonIdentityBatch e.batchId = true
  · cases e.latestAnalysis with
    | none => simp [hskip, hsoft, hreset]
    | some a => simp [hskip, hsoft]
  simp only [hskip, hsoft, Bool.false_eq_true, if_false, not_false_eq_true, decide_true,
    Bool.true_and]
  cases hcoverage : env.coverageComplete received with
  | true =>
      simp [scheduled, mergedDue, analyzeArmDebounceMsAfterIngest, analyzeArmDueMsAfterIngest]
  | false =>
      have hlater : first + analyzeDebounceMs ≤ e.nowMs +
          max (analyzeArmDebounceMsAfterIngest env.override e.nowMs (firstUploadMs received e)
            (lastAnalyzeOk e) false) 0 := by
        have hidle := idleMs_floor env
        unfold idleMs at hidle
        unfold analyzeArmDebounceMsAfterIngest analyzeArmDueMsAfterIngest analyzeDebounceMs
          analyzeNoResultMs
        simp only [Bool.false_eq_true, if_false]
        split_ifs <;> omega
      simp only [Bool.false_eq_true, if_false]
      split_ifs
      · exact min_eq_left (harmed.trans hlater)
      · exact hreset _

/-- The due is that of the first upload, unless it has been pulled to a reading of
the clock. -/
structure Armed (s : ArmState) (first due : ℤ) : Prop where
  due_eq : s.due = some due
  first_eq : s.firstUpload = some first
  within : due ≤ first + analyzeDebounceMs
  last : first ≤ s.lastUpload
  clock : s.lastUpload ≤ s.clock
  created : ∀ b ∈ s.received, first ≤ b.createdMs
  pulled : s.pulled = true → due ≤ s.clock
  untouched : s.pulled = false → due = first + analyzeDebounceMs

def Inv (s : ArmState) : Prop :=
  s = ArmState.init ∨ ∃ first due, Armed s first due

theorem Armed.of_handler {env : PolicyEnv} {s : ArmState} {e : Ingest} {first armed : ℤ}
    (harm : scheduled s.due e.uploadMs analyzeDebounceMs .pullEarlier = armed)
    (hfirst : s.firstUpload.getD e.uploadMs = first) (hupload : first ≤ e.uploadMs)
    (hnow : e.uploadMs ≤ e.nowMs) (hcreated : ∀ b ∈ s.received, first ≤ b.createdMs)
    (hwithin : armed ≤ first + analyzeDebounceMs) (hpulled : s.pulled = true → armed ≤ e.nowMs)
    (huntouched : s.pulled = false → armed = first + analyzeDebounceMs) :
    ∃ due, Armed (step env s e) first due := by
  have hreceived := le_of_mem_upsertReceived hcreated hupload
  have hread : first ≤ firstUploadMs (upsertReceived s.received e) e :=
    le_firstUploadMs (upsertReceived_ne_nil _ _) hreceived
  have hdue := due_after_handler env hread (hupload.trans hnow) hwithin
  refine ⟨if readsCoverage (upsertReceived s.received e) e &&
      env.coverageComplete (upsertReceived s.received e) then min armed e.nowMs else armed, ?_⟩
  constructor
  · unfold step
    simp only [harm]
    exact congrArg some hdue
  · exact congrArg some hfirst
  · split_ifs
    · exact (min_le_left _ _).trans hwithin
    · exact hwithin
  · exact hupload
  · exact hnow
  · exact hreceived
  · intro hpull
    split_ifs with hcomplete
    · exact min_le_right _ _
    · unfold step at hpull
      simp only [hcomplete, Bool.or_false] at hpull
      exact hpulled hpull
  · intro hpull
    unfold step at hpull
    simp only [Bool.or_eq_false_iff] at hpull
    rw [if_neg (by simp [hpull.2])]
    exact huntouched hpull.1

theorem Inv.step {env : PolicyEnv} {s : ArmState} {e : Ingest} (h : Inv s)
    (hclock : ClockForward s e) : ∃ first due, Armed (step env s e) first due := by
  rcases h with rfl | ⟨first, due, harmed⟩
  · have harm : scheduled ArmState.init.due e.uploadMs analyzeDebounceMs .pullEarlier =
        e.uploadMs + analyzeDebounceMs := rfl
    refine ⟨e.uploadMs, Armed.of_handler harm rfl le_rfl hclock.2 ?_ le_rfl ?_ ?_⟩
    · intro b hb
      cases hb
    · intro hpulled
      cases hpulled
    · intro _
      rfl
  · have hupload : s.clock ≤ e.uploadMs := hclock.1 (by rw [harmed.first_eq]; rfl)
    have hbefore : first ≤ e.uploadMs := (harmed.last.trans harmed.clock).trans hupload
    have harm : scheduled s.due e.uploadMs analyzeDebounceMs .pullEarlier = due := by
      rw [harmed.due_eq]
      have hmin : due ≤ e.uploadMs + max analyzeDebounceMs 0 := by
        have hwithin := harmed.within
        unfold analyzeDebounceMs at hwithin ⊢
        omega
      exact min_eq_left hmin
    refine ⟨first, Armed.of_handler harm ?_ hbefore hclock.2 harmed.created harmed.within ?_
      harmed.untouched⟩
    · rw [harmed.first_eq]
      rfl
    · intro hpulled
      exact (harmed.pulled hpulled).trans (hupload.trans hclock.2)

theorem Armed.fourArms_iff {env : PolicyEnv} {s : ArmState} {first due : ℤ}
    (h : Armed s first due) : FourArms env s ↔ Settled env s := by
  have hfloor := idleMs_floor env
  have hwithin := h.within
  have hlast := h.last
  have hfires (t : ℤ) : (policyAt env s t).shouldRun = true ↔
      s.coverage = true ∨
      (s.analyzedMs = none ∧ 0 < first ∧ analyzeNoResultMs ≤ t - first) ∨
      (0 < s.lastUpload ∧ idleMs env ≤ t - s.lastUpload) := by
    rw [shouldRun_iff, h.first_eq]
    rfl
  have hdue (t : ℤ) : (∃ d ∈ s.due, d ≤ t) ↔ due ≤ t := by
    rw [h.due_eq]
    simp
  unfold analyzeDebounceMs at hwithin
  constructor
  · intro hfour
    have hspec (t : ℤ) (ht : s.clock ≤ t) : due ≤ t ↔ (policyAt env s t).shouldRun = true := by
      rw [← hdue]
      exact hfour.asSpecified t ht
    -- before its due a job that is not yet to run has no arm that could fire
    have hpast : due ≤ s.clock := by
      by_contra hahead
      have hquiet : ¬ (policyAt env s s.clock).shouldRun = true := by
        rwa [← hspec s.clock le_rfl]
      have hrun := (hspec due (by omega)).mp le_rfl
      rw [hfires] at hquiet hrun
      rcases hrun with hcoverage | ⟨_, _, hresult⟩ | ⟨_, hidle⟩
      · exact hquiet (Or.inl hcoverage)
      · unfold analyzeNoResultMs at hresult
        omega
      · omega
    refine ⟨(hspec s.clock le_rfl).mp hpast, ?_⟩
    cases hpulled : s.pulled with
    | true => exact Or.inl rfl
    | false =>
        right
        intro first' hfirst'
        rw [h.first_eq, Option.mem_some_iff] at hfirst'
        rw [← hfirst', ← h.untouched hpulled]
        exact hpast
  · intro hsettled
    have hpast : due ≤ s.clock := by
      rcases hsettled.2 with hpulled | hfirst
      · exact h.pulled hpulled
      · exact h.within.trans (hfirst first h.first_eq)
    constructor
    · intro _ due' hdue' first' hfirst'
      rw [h.due_eq, Option.mem_some_iff] at hdue'
      rw [h.first_eq, Option.mem_some_iff] at hfirst'
      unfold analyzeNoResultMs
      omega
    · intro t ht hcoverage hresult hidle
      have hrun := (hfires t).mp (shouldRun_later ht hsettled.1)
      rcases hrun with hcomplete | ⟨hnone, _, hceiling⟩ | ⟨_, hquiet⟩
      · exact absurd hcomplete (by rw [hcoverage]; exact Bool.false_ne_true)
      · exact absurd ⟨hnone, first, h.first_eq, by omega⟩ hresult
      · omega
    · intro t ht
      rw [hdue]
      exact iff_of_true (hpast.trans ht) (shouldRun_later ht hsettled.1)

/-- In a run of ingests the due follows the four arms throughout exactly when
every ingest ends with an arm that has fired. -/
theorem arming_follows_policy_iff (ms : ℤ) (coverage : List ReceivedBatch → Bool)
    {events : List Ingest}
    (hclock : Along (step ⟨setAnalyzeIdleUploadMs ms, coverage⟩) ClockForward ArmState.init
      events) :
    let env : PolicyEnv := ⟨setAnalyzeIdleUploadMs ms, coverage⟩
    Along (step env) (fun s e => FourArms env (step env s e)) ArmState.init events ↔
      Along (step env) (fun s e => Settled env (step env s e)) ArmState.init events := by
  intro env
  apply Along.iff_of_steps (I := Inv) ?_ ?_ hclock (Or.inl rfl)
  · intro s e hinv hforward
    rcases hinv.step hforward with ⟨first, due, harmed⟩
    exact harmed.fourArms_iff
  · intro s e hinv hforward _
    exact Or.inr (hinv.step hforward)

def mainBatch (uploadMs : ℤ) : Ingest :=
  ⟨"B1_static", "main", true, uploadMs, uploadMs + 10, none, none⟩

/-- Complete coverage is armed for at once. -/
theorem complete_upload_is_due :
    let env : PolicyEnv := ⟨setAnalyzeIdleUploadMs 20_000, fun _ => true⟩
    Along (step env) (fun s e => FourArms env (step env s e)) ArmState.init
      [mainBatch 1_000_000, mainBatch 1_005_000] := by
  intro env
  apply (arming_follows_policy_iff 20_000 (fun _ => true) ?_).mpr
  · exact ⟨⟨rfl, Or.inl rfl⟩, ⟨rfl, Or.inl rfl⟩, trivial⟩
  · exact ⟨⟨nofun, by decide⟩, ⟨fun _ => by decide, by decide⟩, trivial⟩

/-- One upload of an incomplete session is due 50 ms later, not after the quiet
window. -/
theorem upload_due_at_once :
    let env : PolicyEnv := ⟨setAnalyzeIdleUploadMs 20_000, fun _ => false⟩
    ¬ Along (step env) (fun s e => FourArms env (step env s e)) ArmState.init
      [mainBatch 1_000_000] := by
  intro env hfour
  have hdue : (step env ArmState.init (mainBatch 1_000_000)).due = some 1_000_050 := by decide
  have hquiet := hfour.1.quiet 1_000_010 (by decide) rfl ?_ (by decide) 1_000_050 hdue
  · exact absurd hquiet (by decide)
  · rintro ⟨_, first, hfirst, hceiling⟩
    have hvalue : first = 1_000_000 := (Option.some.inj hfirst).symm
    rw [hvalue] at hceiling
    exact absurd hceiling (by decide)

end AnalyzeSchedule

end GrServer
