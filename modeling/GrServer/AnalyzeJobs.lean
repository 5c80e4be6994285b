import GrServer.GuardedRun
import GrServer.Lease

/-!
# The analyze job of a session

One row of `analyze_jobs`, the session's committed batches and the workers.
Commits are counted, and an evidence read sees a prefix of them, so a batch is
late for an analysis when its number is at least what the analysis read.  The
`status` column is `pending` in every row the code writes, so a row is a
pending job.

`clock` and `analyzed` are not in the source: the latest clock reading of the
run, and how many commits the saved analyses have read.
-/

namespace GrServer

open Lease

namespace AnalyzeJobs

def analyzeDebounceMs : ℤ := 50

def analyzeIdleImminentMs : ℤ := 10_000

inductive AnalyzeDueMerge where
  | pullEarlier
  | idleReset
  | replace
  deriving DecidableEq

variable {ω : Type*} [DecidableEq ω]

/-- `lockedBy` is `none` for the empty worker id. -/
structure JobRow (ω : Type*) where
  due : ℤ
  lockedUntil : ℤ
  lockedBy : Option ω
  deriving DecidableEq

def mergedDue (merge : AnalyzeDueMerge) (existing : Option ℤ) (now newDue : ℤ) :
    ℤ :=
  match merge, existing with
  | _, none => newDue
  | .replace, _ => newDue
  | .pullEarlier, some ex => min ex newDue
  | .idleReset, some ex =>
      if ex ≤ now + analyzeIdleImminentMs then ex else newDue

/-- A conflicting row gets the merged due and keeps its lock. -/
def scheduleAnalyze (job : Option (JobRow ω)) (now debounce : ℤ)
    (merge : AnalyzeDueMerge) : JobRow ω :=
  let newDue := now + max debounce 0
  let due := mergedDue merge (job.map JobRow.due) now newDue
  match job with
  | none => { due := due, lockedUntil := 0, lockedBy := none }
  | some row => { row with due := due }

/-- `none` when the row is not due or still locked. -/
def claimDue (job : Option (JobRow ω)) (w : ω) (now lockMs : ℤ) :
    Option (JobRow ω) :=
  job.bind fun row =>
    if row.due ≤ now ∧ row.lockedUntil < now then
      some { row with lockedUntil := now + max lockMs 1000, lockedBy := some w }
    else none

/-- The end of `save_analysis_bundle`, at its time stamp. -/
def finishJob (job : Option (JobRow ω)) (w : ω) (ts : ℤ) : Option (JobRow ω) :=
  match job with
  | none => none
  | some row =>
      if row.lockedBy = some w ∨ row.lockedBy = none then
        if ts < row.due then
          some { row with lockedUntil := 0, lockedBy := none }
        else none
      else some row

/-- The row afterwards, and whether a job is still pending for the caller. -/
def completeAnalyzeJob (job : Option (JobRow ω)) (w : ω) (now : ℤ) :
    Option (JobRow ω) × Bool :=
  match job with
  | none => (none, false)
  | some row =>
      if row.lockedBy ≠ some w ∧ row.lockedBy ≠ none then (some row, false)
      else if now < row.due then
        (some { row with lockedUntil := 0, lockedBy := none }, true)
      else (none, false)

/-! ## Steps -/

/-- A worker holds its claim until `expiry` and has read `seen` commits. -/
inductive Phase where
  | idle
  | claimed (expiry : ℤ)
  | read (expiry : ℤ) (seen : ℕ)
  deriving DecidableEq

def Phase.expiry : Phase → Option ℤ
  | .idle => none
  | .claimed expiry => some expiry
  | .read expiry _ => some expiry

structure State (ω : Type*) where
  job : Option (JobRow ω)
  commits : ℕ
  analyzed : ℕ
  phase : ω → Phase
  clock : ℤ

def State.init : State ω where
  job := none
  commits := 0
  analyzed := 0
  phase := fun _ => .idle
  clock := 0

/-- `abandon` is a worker that fails or is cancelled: the lock stays. -/
inductive Event (ω : Type*) where
  | commit (now : ℤ)
  | schedule (now debounce : ℤ) (merge : AnalyzeDueMerge)
  | claim (w : ω) (now lockMs : ℤ)
  | read (w : ω)
  | save (w : ω) (ts : ℤ)
  | complete (w : ω) (now : ℤ)
  | abandon (w : ω)

def State.setPhase (s : State ω) (w : ω) (phase : Phase) : State ω :=
  { s with phase := Function.update s.phase w phase }

def State.readClock (s : State ω) (now : ℤ) : State ω :=
  { s with clock := max s.clock now }

-- A worker that is not at the point of an event leaves the state as it is.

def State.claim (s : State ω) (w : ω) (now lockMs : ℤ) : State ω :=
  match s.phase w, claimDue s.job w now lockMs with
  | .idle, some row =>
      { (s.readClock now).setPhase w (.claimed row.lockedUntil) with
        job := some row }
  | _, _ => s.readClock now

def State.buildEvidence (s : State ω) (w : ω) : State ω :=
  match s.phase w with
  | .claimed expiry => s.setPhase w (.read expiry s.commits)
  | _ => s

def State.saveBundle (s : State ω) (w : ω) (ts : ℤ) : State ω :=
  match s.phase w with
  | .read _ seen =>
      { (s.readClock ts).setPhase w .idle with
        analyzed := max s.analyzed seen
        job := finishJob s.job w ts }
  | _ => s

def State.complete (s : State ω) (w : ω) (now : ℤ) : State ω :=
  match s.phase w with
  | .claimed _ =>
      { (s.readClock now).setPhase w .idle with
        job := (completeAnalyzeJob s.job w now).1 }
  | _ => s

def step (s : State ω) : Event ω → State ω
  | .commit now =>
      { s.readClock now with
        commits := s.commits + 1
        job := some (scheduleAnalyze s.job now analyzeDebounceMs .pullEarlier) }
  | .schedule now debounce merge =>
      { s.readClock now with job := some (scheduleAnalyze s.job now debounce merge) }
  | .claim w now lockMs => s.claim w now lockMs
  | .read w => s.buildEvidence w
  | .save w ts => s.saveBundle w ts
  | .complete w now => s.complete w now
  | .abandon w => s.setPhase w .idle

/-! ## What the statements do to the lock -/

def lockOf (job : Option (JobRow ω)) : Option (ω × ℤ) :=
  job.bind fun row => row.lockedBy.map fun owner => (owner, row.lockedUntil)

def State.held (s : State ω) (w : ω) : Option ℤ :=
  (s.phase w).expiry

theorem held_setPhase (s : State ω) (w : ω) (phase : Phase) :
    (s.setPhase w phase).held = Function.update s.held w phase.expiry := by
  funext w'
  unfold State.held State.setPhase
  by_cases hw : w' = w
  · simp [hw]
  · simp [hw]

omit [DecidableEq ω] in
theorem lockOf_scheduleAnalyze (job : Option (JobRow ω)) (now debounce : ℤ)
    (merge : AnalyzeDueMerge) :
    lockOf (some (scheduleAnalyze job now debounce merge)) = lockOf job := by
  cases job with
  | none => rfl
  | some row => rfl

omit [DecidableEq ω] in
theorem claimDue_eq_some {job : Option (JobRow ω)} {w : ω} {now lockMs : ℤ}
    {row : JobRow ω} (h : claimDue job w now lockMs = some row) :
    lockOf (some row) = some (w, row.lockedUntil) ∧
      ∀ owner old, lockOf job = some (owner, old) → old < now := by
  unfold claimDue at h
  obtain ⟨before, hjob, hclaim⟩ := Option.bind_eq_some_iff.mp h
  split_ifs at hclaim with hdue
  rw [Option.some.injEq] at hclaim
  rw [← hclaim]
  refine ⟨rfl, ?_⟩
  intro owner old hlock
  unfold lockOf at hlock
  rw [hjob, Option.bind_some, Option.map_eq_some_iff] at hlock
  obtain ⟨_, -, hpair⟩ := hlock
  rw [Prod.mk.injEq] at hpair
  have hold : before.lockedUntil = old := hpair.2
  omega

theorem completeAnalyzeJob_fst (job : Option (JobRow ω)) (w : ω) (now : ℤ) :
    (completeAnalyzeJob job w now).1 = finishJob job w now := by
  unfold completeAnalyzeJob finishJob
  cases job with
  | none => rfl
  | some row =>
      by_cases hown : row.lockedBy = some w ∨ row.lockedBy = none
      · have hkeep : ¬ (row.lockedBy ≠ some w ∧ row.lockedBy ≠ none) := by
          rintro ⟨hw, hnone⟩
          rcases hown with h | h
          · exact hw h
          · exact hnone h
        dsimp only
        rw [if_neg hkeep, if_pos hown]
        by_cases hdue : now < row.due
        · rw [if_pos hdue, if_pos hdue]
        · rw [if_neg hdue, if_neg hdue]
      · rw [not_or] at hown
        dsimp only
        rw [if_pos hown, if_neg (not_or.mpr hown)]

theorem finishJob_of_other {job : Option (JobRow ω)} {row : JobRow ω}
    {w owner : ω} (ts : ℤ) (hjob : job = some row)
    (hlocked : row.lockedBy = some owner) (hne : owner ≠ w) :
    finishJob job w ts = job := by
  have hown : ¬ (row.lockedBy = some w ∨ row.lockedBy = none) := by
    rw [hlocked]
    rintro (h | h)
    · exact hne (Option.some.inj h)
    · cases h
  unfold finishJob
  rw [hjob]
  exact if_neg hown

def State.Deletes (s : State ω) (w : ω) (t : ℤ) : Prop :=
  ∃ row, s.job = some row ∧
    (row.lockedBy = some w ∨ row.lockedBy = none) ∧ row.due ≤ t

theorem finishJob_cases {s : State ω} {row : JobRow ω} (w : ω) (t : ℤ)
    (hjob : s.job = some row) :
    (∃ row', finishJob s.job w t = some row' ∧ row'.due = row.due ∧ ¬ s.Deletes w t) ∨
      (finishJob s.job w t = none ∧ s.Deletes w t) := by
  by_cases hown : row.lockedBy = some w ∨ row.lockedBy = none
  · by_cases hdue : t < row.due
    · left
      refine ⟨{ row with lockedUntil := 0, lockedBy := none }, ?_, rfl, ?_⟩
      · unfold finishJob
        simp [hjob, hown, hdue]
      · rintro ⟨row', hjob', -, hle⟩
        rw [hjob, Option.some.injEq] at hjob'
        rw [← hjob'] at hle
        omega
    · right
      refine ⟨?_, row, hjob, hown, not_lt.mp hdue⟩
      unfold finishJob
      simp [hjob, hown, hdue]
  · left
    refine ⟨row, ?_, rfl, ?_⟩
    · unfold finishJob
      simp [hjob, hown]
    · rintro ⟨row', hjob', hown', -⟩
      rw [hjob, Option.some.injEq] at hjob'
      rw [← hjob'] at hown'
      exact hown hown'

theorem lockOf_finishJob_of_own {job : Option (JobRow ω)} {w : ω} (ts : ℤ)
    (hown : ∀ owner expiry, lockOf job = some (owner, expiry) → owner = w) :
    lockOf (finishJob job w ts) = none := by
  unfold finishJob
  cases job with
  | none => rfl
  | some row =>
      have hlocked : row.lockedBy = some w ∨ row.lockedBy = none := by
        cases hby : row.lockedBy with
        | none => exact Or.inr rfl
        | some owner =>
            left
            have hlock : lockOf (some row) = some (owner, row.lockedUntil) := by
              unfold lockOf
              rw [Option.bind_some, hby, Option.map_some]
            rw [hown owner row.lockedUntil hlock]
      dsimp only
      rw [if_pos hlocked]
      split_ifs
      · rfl
      · rfl

theorem backed_finishJob {job : Option (JobRow ω)} {held : ω → Option ℤ}
    {clock : ℤ} (h : Backed (lockOf job) held clock) (w : ω) (ts : ℤ) :
    Backed (lockOf (finishJob job w ts)) (Function.update held w none) clock := by
  by_cases hown : ∀ owner expiry, lockOf job = some (owner, expiry) → owner = w
  · rw [lockOf_finishJob_of_own ts hown]
    exact h.release hown
  · push Not at hown
    obtain ⟨owner, expiry, hlock, hne⟩ := hown
    obtain ⟨row, hjob, hmap⟩ := Option.bind_eq_some_iff.mp hlock
    obtain ⟨by', hby, hpair⟩ := Option.map_eq_some_iff.mp hmap
    rw [Prod.mk.injEq] at hpair
    rw [hpair.1] at hby
    rw [finishJob_of_other ts hjob hby hne]
    exact h.drop w

/-- Some commit is in none of the saved analyses and not among `seen`. -/
def State.Late (s : State ω) (seen : ℕ) : Prop :=
  ∃ i, seen ≤ i ∧ i < s.commits ∧ s.analyzed ≤ i

/-- A saved analysis that missed a batch leaves a pending job. -/
def LateBatchPending (s : State ω) (e : Event ω) : Prop :=
  ∀ w ts expiry seen, e = .save w ts → s.phase w = .read expiry seen →
    s.Late seen → (step s e).job.isSome

/-- What a worker finishes or completes is not locked by another one. -/
def OwnerKept (s : State ω) (e : Event ω) : Prop :=
  ∀ w t row owner, e = .save w t ∨ e = .complete w t → s.job = some row →
    row.lockedBy = some owner → owner ≠ w → (step s e).job = some row

/-- No two workers hold the job at a time no earlier than the clock. -/
def SoleHolder (s : State ω) : Prop :=
  ∀ t, s.clock ≤ t → ∀ w w' expiry expiry', s.held w = some expiry → t ≤ expiry →
    s.held w' = some expiry' → t ≤ expiry' → w = w'

/-! ## Leases -/

def Leased (s : State ω) : Prop :=
  Backed (lockOf s.job) s.held s.clock

omit [DecidableEq ω] in
theorem leased_init : Leased (State.init : State ω) :=
  backed_none none 0

omit [DecidableEq ω] in
theorem Leased.soleHolder {s : State ω} (h : Leased s) : SoleHolder s := by
  intro t ht w w' expiry expiry' hw hlive hw' hlive'
  exact h.single ht hw hlive hw' hlive'

omit [DecidableEq ω] in
theorem Leased.tick {s : State ω} (h : Leased s) (now : ℤ) : Leased (s.readClock now) :=
  Backed.tick h (le_max_left _ _)

omit [DecidableEq ω] in
theorem Leased.schedule {s : State ω} (h : Leased s) (commits : ℕ) (now debounce : ℤ)
    (merge : AnalyzeDueMerge) :
    Leased { s.readClock now with
      commits := commits
      job := some (scheduleAnalyze s.job now debounce merge) } := by
  change Backed (lockOf (some _)) s.held (max s.clock now)
  rw [lockOf_scheduleAnalyze]
  exact h.tick now

theorem Leased.claim {s : State ω} (h : Leased s) (w : ω) (now lockMs : ℤ) :
    Leased (s.claim w now lockMs) := by
  unfold State.claim
  cases hphase : s.phase w with
  | claimed expiry => exact h.tick now
  | read expiry seen => exact h.tick now
  | idle =>
      cases hclaim : claimDue s.job w now lockMs with
      | none => exact h.tick now
      | some row =>
          obtain ⟨hlock, hexpired⟩ := claimDue_eq_some hclaim
          change Backed (lockOf (some row))
            (((s.readClock now).setPhase w (.claimed row.lockedUntil)).held) _
          rw [hlock, held_setPhase]
          exact Backed.claim h w row.lockedUntil hexpired

theorem Leased.read {s : State ω} (h : Leased s) (w : ω) :
    Leased (s.buildEvidence w) := by
  unfold State.buildEvidence
  cases hphase : s.phase w with
  | idle => exact h
  | read expiry seen => exact h
  | claimed expiry =>
      have hheld : (s.setPhase w (.read expiry s.commits)).held = s.held := by
        have hw : s.held w = some expiry := by
          unfold State.held
          rw [hphase]
          rfl
        rw [held_setPhase]
        change Function.update s.held w (some expiry) = s.held
        rw [← hw, Function.update_eq_self]
      change Backed (lockOf s.job) _ s.clock
      rw [hheld]
      exact h

theorem Leased.finish {s : State ω} (h : Leased s) (w : ω) (t : ℤ) (analyzed : ℕ) :
    Leased { (s.readClock t).setPhase w .idle with
      analyzed := analyzed
      job := finishJob s.job w t } := by
  change Backed (lockOf (finishJob s.job w t))
    ((s.readClock t).setPhase w .idle).held (max s.clock t)
  rw [held_setPhase]
  exact (backed_finishJob h w t).tick (le_max_left _ _)

theorem Leased.step {s : State ω} (h : Leased s) (e : Event ω) : Leased (step s e) := by
  cases e with
  | commit now => exact h.schedule (s.commits + 1) now analyzeDebounceMs .pullEarlier
  | schedule now debounce merge => exact h.schedule s.commits now debounce merge
  | claim w now lockMs => exact h.claim w now lockMs
  | read w => exact h.read w
  | save w ts =>
      change Leased (s.saveBundle w ts)
      unfold State.saveBundle
      cases s.phase w with
      | idle => exact h
      | claimed expiry => exact h
      | read expiry seen => exact h.finish w ts _
  | complete w now =>
      change Leased (s.complete w now)
      unfold State.complete
      cases s.phase w with
      | idle => exact h
      | read expiry seen => exact h
      | claimed expiry =>
          dsimp only
          rw [completeAnalyzeJob_fst]
          exact h.finish w now s.analyzed
  | abandon w =>
      change Backed (lockOf s.job) (s.setPhase w .idle).held s.clock
      rw [held_setPhase]
      exact h.drop w

theorem ownerKept (s : State ω) (e : Event ω) : OwnerKept s e := by
  intro w t row owner he hjob hlocked hne
  have hsame := finishJob_of_other t hjob hlocked hne
  rcases he with rfl | rfl
  · change (s.saveBundle w t).job = some row
    unfold State.saveBundle
    cases s.phase w with
    | read expiry seen =>
        change finishJob s.job w t = some row
        rw [hsame, hjob]
    | idle => exact hjob
    | claimed expiry => exact hjob
  · change (s.complete w t).job = some row
    unfold State.complete
    cases s.phase w with
    | claimed expiry =>
        change (completeAnalyzeJob s.job w t).1 = some row
        rw [completeAnalyzeJob_fst, hsame, hjob]
    | idle => exact hjob
    | read expiry seen => exact hjob

structure Arm where
  now : ℤ
  debounce : ℤ
  merge : AnalyzeDueMerge

def Event.arm : Event ω → Option Arm
  | .commit now => some ⟨now, analyzeDebounceMs, .pullEarlier⟩
  | .schedule now debounce merge => some ⟨now, debounce, merge⟩
  | _ => none

/-- The time the arm asks for is after `t`, and so is an earlier one that it
keeps; `due` is what it finds. -/
def Arm.Reaches (a : Arm) (due : Option ℤ) (t : ℤ) : Prop :=
  match a.merge, due with
  | .pullEarlier, some ex => t < ex ∧ t < a.now + max a.debounce 0
  | .idleReset, some ex =>
      if ex ≤ a.now + analyzeIdleImminentMs then t < ex
      else t < a.now + max a.debounce 0
  | _, _ => t < a.now + max a.debounce 0

def State.due (s : State ω) : Option ℤ := s.job.map JobRow.due

omit [DecidableEq ω] in
theorem reaches_iff (job : Option (JobRow ω)) (a : Arm) (t : ℤ) :
    t < (scheduleAnalyze job a.now a.debounce a.merge).due ↔
      a.Reaches (job.map JobRow.due) t := by
  obtain ⟨now, debounce, merge⟩ := a
  cases job with
  | none => cases merge <;> exact Iff.rfl
  | some row =>
      cases merge with
      | replace => exact Iff.rfl
      | pullEarlier => exact lt_min_iff
      | idleReset =>
          change t < (if row.due ≤ now + analyzeIdleImminentMs then row.due
            else now + max debounce 0) ↔ _
          unfold Arm.Reaches
          dsimp only [Option.map_some]
          split_ifs <;> exact Iff.rfl

theorem job_step_arm {e : Event ω} {a : Arm} (s : State ω) (harm : e.arm = some a) :
    (step s e).job = some (scheduleAnalyze s.job a.now a.debounce a.merge) := by
  cases e with
  | commit now =>
      cases harm
      rfl
  | schedule now debounce merge =>
      cases harm
      rfl
  | claim w now lockMs => cases harm
  | read w => cases harm
  | save w ts => cases harm
  | complete w now => cases harm
  | abandon w => cases harm

/-- The event takes the row away: a worker finishes or completes a job that is
due, and that no one else has locked. -/
def Removes (s : State ω) : Event ω → Prop
  | .save w t => (∃ expiry seen, s.phase w = .read expiry seen) ∧ s.Deletes w t
  | .complete w t => (∃ expiry, s.phase w = .claimed expiry) ∧ s.Deletes w t
  | _ => False

theorem job_step_quiet {s : State ω} {e : Event ω} {row : JobRow ω}
    (harm : e.arm = none) (hjob : s.job = some row) :
    (∃ row', (step s e).job = some row' ∧ row'.due = row.due ∧ ¬ Removes s e) ∨
      ((step s e).job = none ∧ Removes s e) := by
  cases e with
  | commit now => cases harm
  | schedule now debounce merge => cases harm
  | claim w now lockMs =>
      left
      have hkept : ∃ row', (s.claim w now lockMs).job = some row' ∧ row'.due = row.due := by
        unfold State.claim
        cases hphase : s.phase w with
        | claimed expiry => exact ⟨row, hjob, rfl⟩
        | read expiry seen => exact ⟨row, hjob, rfl⟩
        | idle =>
            cases hclaim : claimDue s.job w now lockMs with
            | none => exact ⟨row, hjob, rfl⟩
            | some row' =>
                refine ⟨row', rfl, ?_⟩
                unfold claimDue at hclaim
                rw [hjob, Option.bind_some] at hclaim
                split_ifs at hclaim
                rw [Option.some.injEq] at hclaim
                rw [← hclaim]
      obtain ⟨row', hrow', hdue⟩ := hkept
      exact ⟨row', hrow', hdue, id⟩
  | read w =>
      left
      refine ⟨row, ?_, rfl, id⟩
      change (s.buildEvidence w).job = some row
      unfold State.buildEvidence
      cases s.phase w <;> exact hjob
  | abandon w => exact Or.inl ⟨row, hjob, rfl, id⟩
  | save w t =>
      change (∃ row', (s.saveBundle w t).job = some row' ∧ _) ∨
        ((s.saveBundle w t).job = none ∧ _)
      unfold State.saveBundle
      cases hphase : s.phase w with
      | idle => exact Or.inl ⟨row, hjob, rfl, fun h => by simp [Removes, hphase] at h⟩
      | claimed expiry => exact Or.inl ⟨row, hjob, rfl, fun h => by simp [Removes, hphase] at h⟩
      | read expiry seen =>
          rcases finishJob_cases w t hjob with ⟨row', hrow', hdue, hkeep⟩ | ⟨hnone, hdelete⟩
          · exact Or.inl ⟨row', hrow', hdue, fun h => hkeep h.2⟩
          · exact Or.inr ⟨hnone, ⟨expiry, seen, hphase⟩, hdelete⟩
  | complete w t =>
      change (∃ row', (s.complete w t).job = some row' ∧ _) ∨
        ((s.complete w t).job = none ∧ _)
      unfold State.complete
      cases hphase : s.phase w with
      | idle => exact Or.inl ⟨row, hjob, rfl, fun h => by simp [Removes, hphase] at h⟩
      | read expiry seen =>
          exact Or.inl ⟨row, hjob, rfl, fun h => by simp [Removes, hphase] at h⟩
      | claimed expiry =>
          dsimp only
          rw [completeAnalyzeJob_fst]
          rcases finishJob_cases w t hjob with ⟨row', hrow', hdue, hkeep⟩ | ⟨hnone, hdelete⟩
          · exact Or.inl ⟨row', hrow', hdue, fun h => hkeep h.2⟩
          · exact Or.inr ⟨hnone, ⟨expiry, hphase⟩, hdelete⟩

theorem job_step_none {s : State ω} {e : Event ω} (harm : e.arm = none)
    (hjob : s.job = none) : (step s e).job = none := by
  cases e with
  | commit now => cases harm
  | schedule now debounce merge => cases harm
  | claim w now lockMs =>
      change (s.claim w now lockMs).job = none
      unfold State.claim claimDue
      rw [hjob]
      cases s.phase w <;> exact hjob
  | read w =>
      change (s.buildEvidence w).job = none
      unfold State.buildEvidence
      cases s.phase w <;> exact hjob
  | save w t =>
      change (s.saveBundle w t).job = none
      unfold State.saveBundle finishJob
      rw [hjob]
      cases s.phase w <;> first | exact hjob | rfl
  | complete w t =>
      change (s.complete w t).job = none
      unfold State.complete completeAnalyzeJob
      rw [hjob]
      cases s.phase w <;> first | exact hjob | rfl
  | abandon w => exact hjob

theorem batches_step_quiet {e : Event ω} (s : State ω) (harm : e.arm = none) :
    (step s e).commits = s.commits ∧ s.analyzed ≤ (step s e).analyzed := by
  cases e with
  | commit now => cases harm
  | schedule now debounce merge => cases harm
  | claim w now lockMs =>
      change (s.claim w now lockMs).commits = s.commits ∧
        s.analyzed ≤ (s.claim w now lockMs).analyzed
      unfold State.claim
      split <;> exact ⟨rfl, le_rfl⟩
  | read w =>
      change (s.buildEvidence w).commits = s.commits ∧
        s.analyzed ≤ (s.buildEvidence w).analyzed
      unfold State.buildEvidence
      split <;> exact ⟨rfl, le_rfl⟩
  | save w t =>
      change (s.saveBundle w t).commits = s.commits ∧
        s.analyzed ≤ (s.saveBundle w t).analyzed
      unfold State.saveBundle
      split
      · exact ⟨rfl, Nat.le_max_left _ _⟩
      · exact ⟨rfl, le_rfl⟩
  | complete w t =>
      change (s.complete w t).commits = s.commits ∧
        s.analyzed ≤ (s.complete w t).analyzed
      unfold State.complete
      split <;> exact ⟨rfl, le_rfl⟩
  | abandon w => exact ⟨rfl, le_rfl⟩

section Quiet

variable {s : State ω} {row : JobRow ω} {es : List (Event ω)}

theorem batches_run_quiet (hquiet : ∀ e ∈ es, e.arm = none) (s : State ω) :
    (runFrom step s es).commits = s.commits ∧ s.analyzed ≤ (runFrom step s es).analyzed := by
  induction es generalizing s with
  | nil => exact ⟨rfl, le_rfl⟩
  | cons e es ih =>
      obtain ⟨hcommits, hanalyzed⟩ := batches_step_quiet s (hquiet e List.mem_cons_self)
      obtain ⟨hrest, hmore⟩ := ih (fun e' he' => hquiet e' (List.mem_cons_of_mem _ he'))
        (step s e)
      exact ⟨hrest.trans hcommits, hanalyzed.trans hmore⟩

theorem job_run_none (hquiet : ∀ e ∈ es, e.arm = none) (hjob : s.job = none) :
    (runFrom step s es).job = none := by
  induction es generalizing s with
  | nil => exact hjob
  | cons e es ih =>
      exact ih (fun e' he' => hquiet e' (List.mem_cons_of_mem _ he'))
        (job_step_none (hquiet e List.mem_cons_self) hjob)

theorem job_run_quiet (hquiet : ∀ e ∈ es, e.arm = none) (hjob : s.job = some row) :
    (∃ row', (runFrom step s es).job = some row' ∧ row'.due = row.due ∧
        ∀ mid e rest, es = mid ++ e :: rest → ¬ Removes (runFrom step s mid) e) ∨
      ((runFrom step s es).job = none ∧
        ∃ mid e rest row', es = mid ++ e :: rest ∧ (runFrom step s mid).job = some row' ∧
          row'.due = row.due ∧ Removes (runFrom step s mid) e) := by
  induction es generalizing s row with
  | nil =>
      left
      refine ⟨row, hjob, rfl, ?_⟩
      intro mid e rest hsplit
      simp at hsplit
  | cons e es ih =>
      have hrest : ∀ e' ∈ es, e'.arm = none :=
        fun e' he' => hquiet e' (List.mem_cons_of_mem _ he')
      rcases job_step_quiet (hquiet e List.mem_cons_self) hjob with
        ⟨row₁, hrow₁, hdue₁, hkeep⟩ | ⟨hnone, hremoves⟩
      · rcases ih hrest hrow₁ with
          ⟨row', hrow', hdue', hall⟩ | ⟨hnone, mid, e', rest, row', hsplit, hrow', hdue', hremoves⟩
        · left
          refine ⟨row', hrow', hdue'.trans hdue₁, ?_⟩
          intro mid e' rest hsplit
          rcases List.cons_eq_append_iff.mp hsplit with ⟨rfl, hhead⟩ | ⟨mid', rfl, htail⟩
          · cases hhead
            exact hkeep
          · exact hall mid' e' rest htail
        · right
          refine ⟨hnone, e :: mid, e', rest, row', ?_, hrow', hdue'.trans hdue₁, hremoves⟩
          rw [hsplit, List.cons_append]
      · have hend : (runFrom step (step s e) es).job = none := job_run_none hrest hnone
        exact Or.inr ⟨hend, [], e, es, row, rfl, hjob, rfl, hremoves⟩

end Quiet

/-! ## Runs -/

abbrev after (past : List (Event ω)) : State ω := runFrom step State.init past

def State.MayComplete (s : State ω) (w : ω) : Prop :=
  (∃ expiry, s.phase w = .claimed expiry) ∧
    ∃ row, s.job = some row ∧ (row.lockedBy = some w ∨ row.lockedBy = none)

def State.TakenOver (s : State ω) (w : ω) : Prop :=
  ∃ row w', s.job = some row ∧ row.lockedBy = some w' ∧ w' ≠ w

/-- What a save of `w` at `ts` finds: the last arm before it reaches past every
completion since and, unless another worker has the lock, past `ts`. -/
def Outlasts (past : List (Event ω)) (w : ω) (ts : ℤ) : Prop :=
  ∀ before e a between, past = before ++ e :: between → e.arm = some a →
    (∀ e' ∈ between, e'.arm = none) →
    (∀ mid w' now rest, between = mid ++ .complete w' now :: rest →
      (after (before ++ e :: mid)).MayComplete w' → a.Reaches (after before).due now) ∧
    (a.Reaches (after before).due ts ∨ (after past).TakenOver w)

/-- Every save that has missed a batch finds the job armed past it. -/
def ArmsOutlast (events : List (Event ω)) : Prop :=
  ∀ past w ts rest, events = past ++ .save w ts :: rest →
    ∀ expiry seen, (after past).phase w = .read expiry seen → (after past).Late seen →
      Outlasts past w ts

theorem ArmsOutlast.front {es fs : List (Event ω)} (h : ArmsOutlast (es ++ fs)) :
    ArmsOutlast es := by
  intro past w ts rest hsplit
  apply h past w ts (rest ++ fs)
  rw [hsplit, List.append_assoc, List.cons_append]

theorem exists_lastArm {past : List (Event ω)} (h : 0 < (after past).commits) :
    ∃ before e a between, past = before ++ e :: between ∧ e.arm = some a ∧
      ∀ e' ∈ between, e'.arm = none := by
  induction past using List.reverseRecOn with
  | nil => exact absurd h (Nat.lt_irrefl 0)
  | append_singleton past e ih =>
      cases harm : e.arm with
      | some a =>
          refine ⟨past, e, a, [], rfl, harm, ?_⟩
          intro e' he'
          cases he'
      | none =>
          rw [after, runFrom_append, runFrom_cons, runFrom_nil,
            (batches_step_quiet (after past) harm).1] at h
          obtain ⟨before, e₀, a, between, rfl, hlast, hquiet⟩ := ih h
          refine ⟨before, e₀, a, between ++ [e], by simp, hlast, ?_⟩
          intro e' he'
          rcases List.mem_append.mp he' with hold | hnew
          · exact hquiet e' hold
          · rw [List.mem_singleton.mp hnew]
            exact harm

theorem job_after_lastArm (before : List (Event ω)) {between : List (Event ω)} {e : Event ω}
    {a : Arm}
    (harm : e.arm = some a) (hquiet : ∀ e' ∈ between, e'.arm = none) :
    (∃ row, (after (before ++ e :: between)).job = some row ∧
        (∀ t, t < row.due ↔ a.Reaches (after before).due t) ∧
        ∀ mid e' rest, between = mid ++ e' :: rest →
          ¬ Removes (after (before ++ e :: mid)) e') ∨
      ((after (before ++ e :: between)).job = none ∧
        ∃ mid e' rest row, between = mid ++ e' :: rest ∧
          (after (before ++ e :: mid)).job = some row ∧
          (∀ t, t < row.due ↔ a.Reaches (after before).due t) ∧
          Removes (after (before ++ e :: mid)) e') := by
  have hrun (mid : List (Event ω)) :
      after (before ++ e :: mid) = runFrom step (step (after before) e) mid := by
    rw [after, runFrom_append, runFrom_cons]
  simp only [hrun]
  have hreach := reaches_iff (after before).job a
  rcases job_run_quiet hquiet (job_step_arm (after before) harm) with
    ⟨row, hrow, hdue, hall⟩ | ⟨hnone, mid, e', rest, row, hsplit, hrow, hdue, hremoves⟩
  · left
    refine ⟨row, hrow, ?_, hall⟩
    intro t
    rw [hdue]
    exact hreach t
  · right
    refine ⟨hnone, mid, e', rest, row, hsplit, hrow, ?_, hremoves⟩
    intro t
    rw [hdue]
    exact hreach t

theorem job_save {s : State ω} {w : ω} {expiry : ℤ} {seen : ℕ} (ts : ℤ)
    (hread : s.phase w = .read expiry seen) :
    (step s (.save w ts)).job = finishJob s.job w ts ∧
      (step s (.save w ts)).analyzed = max s.analyzed seen := by
  change (s.saveBundle w ts).job = _ ∧ (s.saveBundle w ts).analyzed = _
  unfold State.saveBundle
  rw [hread]
  exact ⟨rfl, rfl⟩

theorem not_removed {before between mid rest : List (Event ω)} {e e' : Event ω} {a : Arm}
    {w : ω} {ts : ℤ} {seen : ℕ} {row : JobRow ω} (harm : e.arm = some a)
    (hquiet : ∀ e' ∈ between, e'.arm = none) (hsplit : between = mid ++ e' :: rest)
    (hkept : Along step LateBatchPending State.init (before ++ e :: between))
    (hout : Outlasts (before ++ e :: between) w ts)
    (hlate : (after (before ++ e :: between)).Late seen)
    (hrow : (after (before ++ e :: mid)).job = some row)
    (hdue : ∀ t, t < row.due ↔ a.Reaches (after before).due t)
    (hremoves : Removes (after (before ++ e :: mid)) e') : False := by
  obtain ⟨hcompletes, -⟩ := hout before e a between rfl harm hquiet
  have hmidQuiet : e'.arm = none := hquiet e' (by rw [hsplit]; simp)
  have hrestQuiet : ∀ e₁ ∈ rest, e₁.arm = none := by
    intro e₁ he₁
    apply hquiet
    rw [hsplit]
    simp [he₁]
  cases e' with
  | complete w' now =>
      obtain ⟨hclaimed, row', hrow', hown, hle⟩ := hremoves
      have hreach := hcompletes mid w' now rest hsplit ⟨hclaimed, row', hrow', hown⟩
      have hlt := (hdue now).mpr hreach
      rw [hrow, Option.some.injEq] at hrow'
      rw [← hrow'] at hle
      omega
  | save w' t =>
      have hall : before ++ e :: between = (before ++ e :: mid) ++ .save w' t :: rest := by
        rw [hsplit]
        simp
      obtain ⟨⟨expiry', seen', hread'⟩, hdelete⟩ := hremoves
      have hfinish := job_save t hread'
      have hnone : (step (after (before ++ e :: mid)) (.save w' t)).job = none := by
        rcases job_step_quiet hmidQuiet hrow with ⟨-, -, -, hkeep⟩ | ⟨hnone, -⟩
        · exact absurd ⟨⟨expiry', seen', hread'⟩, hdelete⟩ hkeep
        · exact hnone
      -- the save left nothing unread, and nothing came in after it
      have hcovered : ¬ (after (before ++ e :: mid)).Late seen' := by
        intro hlate'
        rw [hall, along_append] at hkept
        have hsome := hkept.2.1 w' t expiry' seen' rfl hread' hlate'
        rw [hnone] at hsome
        cases hsome
      obtain ⟨hcommits, hanalyzed⟩ := batches_run_quiet hrestQuiet
        (step (after (before ++ e :: mid)) (.save w' t))
      rw [(batches_step_quiet (after (before ++ e :: mid)) hmidQuiet).1] at hcommits
      rw [hfinish.2] at hanalyzed
      have hend : after (before ++ e :: between) =
          runFrom step (step (after (before ++ e :: mid)) (.save w' t)) rest := by
        rw [hall]
        exact runFrom_append _ _ _
      obtain ⟨i, -, hi, hunread⟩ := hlate
      rw [hend] at hi hunread
      rw [hcommits] at hi
      exact hcovered ⟨i, by omega, hi, by omega⟩
  | commit now => exact hremoves
  | schedule now debounce merge => exact hremoves
  | claim w' now lockMs => exact hremoves
  | read w' => exact hremoves
  | abandon w' => exact hremoves

theorem pending_of_outlasts {past : List (Event ω)} {w : ω} {ts expiry : ℤ} {seen : ℕ}
    (hkept : Along step LateBatchPending State.init past)
    (hread : (after past).phase w = .read expiry seen) (hlate : (after past).Late seen)
    (hout : Outlasts past w ts) : (step (after past) (.save w ts)).job.isSome := by
  have hsome : 0 < (after past).commits := by
    obtain ⟨i, -, hi, -⟩ := hlate
    omega
  obtain ⟨before, e, a, between, rfl, harm, hquiet⟩ := exists_lastArm hsome
  rcases job_after_lastArm before harm hquiet with
    ⟨row, hrow, hdue, -⟩ | ⟨-, mid, e', rest, row, hsplit, hrow, hdue, hremoves⟩
  · rw [(job_save ts hread).1]
    rcases finishJob_cases w ts hrow with ⟨row', hrow', -, -⟩ | ⟨-, row', hrow', hown, hle⟩
    · rw [hrow']
      rfl
    · rw [hrow, Option.some.injEq] at hrow'
      rw [← hrow'] at hown hle
      rcases (hout before e a between rfl harm hquiet).2 with hreach | htaken
      · have hlt := (hdue ts).mpr hreach
        omega
      · obtain ⟨row', w', hrow', hlocked, hne⟩ := htaken
        rw [hrow, Option.some.injEq] at hrow'
        rw [hrow', hlocked] at hown
        rcases hown with hsame | hnone
        · exact absurd (Option.some.inj hsame) hne
        · cases hnone
  · exact (not_removed harm hquiet hsplit hkept hout hlate hrow hdue hremoves).elim

theorem outlasts_of_pending {past : List (Event ω)} {w : ω} {ts expiry : ℤ} {seen : ℕ}
    (hread : (after past).phase w = .read expiry seen)
    (hsome : (step (after past) (.save w ts)).job.isSome) : Outlasts past w ts := by
  rw [(job_save ts hread).1] at hsome
  intro before e a between hpast harm hquiet
  subst hpast
  rcases job_after_lastArm before harm hquiet with
    ⟨row, hrow, hdue, hall⟩ | ⟨hnone, -⟩
  · constructor
    · intro mid w' now rest hsplit hmay
      obtain ⟨hclaimed, row', hrow', hown⟩ := hmay
      have hmidQuiet : ∀ e₁ ∈ mid, e₁.arm = none := by
        intro e₁ he₁
        apply hquiet
        rw [hsplit]
        simp [he₁]
      rcases job_after_lastArm before harm hmidQuiet with
        ⟨row₁, hrow₁, hdue₁, -⟩ | ⟨hnone, -⟩
      · by_contra hnot
        have hle : row₁.due ≤ now := not_lt.mp (mt (hdue₁ now).mp hnot)
        rw [hrow₁, Option.some.injEq] at hrow'
        rw [← hrow'] at hown
        exact hall mid (.complete w' now) rest hsplit ⟨hclaimed, row₁, hrow₁, hown, hle⟩
      · rw [hnone] at hrow'
        cases hrow'
    · by_cases hown : row.lockedBy = some w ∨ row.lockedBy = none
      · left
        rcases finishJob_cases w ts hrow with ⟨row', -, -, hkeep⟩ | ⟨hnone, -⟩
        · apply (hdue ts).mp
          by_contra hlt
          exact hkeep ⟨row, hrow, hown, not_lt.mp hlt⟩
        · rw [hnone] at hsome
          cases hsome
      · right
        rw [not_or] at hown
        obtain ⟨w', hlocked⟩ := Option.ne_none_iff_exists'.mp hown.2
        refine ⟨row, w', hrow, hlocked, ?_⟩
        rintro rfl
        exact hown.1 hlocked
  · rw [hnone] at hsome
    cases hsome

/-- In every run no two workers hold the job and no worker touches the job of
another; and no analysis strands a late batch exactly in the runs whose arms
outlast the saves. -/
theorem run_leaves_late_batches_pending (events : List (Event ω)) :
    Along step (fun s e => OwnerKept s e ∧ SoleHolder (step s e)) State.init events ∧
      (Along step LateBatchPending State.init events ↔ ArmsOutlast events) := by
  constructor
  · have hall : Along step (fun _ _ => True) (State.init : State ω) events :=
      along_of_forall fun _ _ _ => trivial
    apply Along.steps (I := Leased) ?_ hall leased_init
    intro s e h _
    have hnext := h.step e
    exact ⟨⟨ownerKept s e, hnext.soleHolder⟩, hnext⟩
  · constructor
    · intro hkept past w ts rest hsplit expiry seen hread hlate
      rw [hsplit, along_append] at hkept
      exact outlasts_of_pending hread (hkept.2.1 w ts expiry seen rfl hread hlate)
    · intro harmed
      induction events using List.reverseRecOn with
      | nil => trivial
      | append_singleton events e ih =>
          have hkept := ih harmed.front
          rw [along_append]
          refine ⟨hkept, ?_, trivial⟩
          intro w ts expiry seen he hread hlate
          subst he
          exact pending_of_outlasts hkept hread hlate
            (harmed events w ts [] rfl expiry seen hread hlate)

theorem outlasts_concat {past : List (Event ω)} {e : Event ω} {a : Arm} {w : ω} {ts : ℤ}
    (harm : e.arm = some a) (hreach : a.Reaches (after past).due ts) :
    Outlasts (past ++ [e]) w ts := by
  intro before e' a' between hsplit harm' hquiet
  rcases List.eq_nil_or_concat between with rfl | ⟨mid, last, rfl⟩
  · obtain ⟨rfl, hsame⟩ := List.append_inj' hsplit rfl
    rw [List.cons.injEq] at hsame
    rw [hsame.1, harm', Option.some.injEq] at harm
    rw [harm]
    refine ⟨?_, Or.inl hreach⟩
    intro mid w' now rest hnil
    simp at hnil
  · have hends : past ++ [e] = (before ++ e' :: mid) ++ [last] := by
      rw [hsplit]
      simp
    have hlast := (List.append_inj' hends rfl).2
    rw [List.cons.injEq] at hlast
    have hnone := hquiet last (by simp)
    rw [← hlast.1, harm] at hnone
    cases hnone

theorem armsOutlast_concat {past : List (Event ω)} {w : ω} {ts : ℤ}
    (hnone : ∀ w ts, Event.save w ts ∉ past) (hout : Outlasts past w ts) :
    ArmsOutlast (past ++ [.save w ts]) := by
  intro past' w' ts' rest hsplit expiry seen _ _
  rcases List.eq_nil_or_concat rest with rfl | ⟨mid, last, rfl⟩
  · obtain ⟨rfl, hsame⟩ := List.append_inj' hsplit rfl
    cases hsame
    exact hout
  · have hends : past ++ [.save w ts] = (past' ++ .save w' ts' :: mid) ++ [last] := by
      rw [hsplit]
      simp
    have hfront := (List.append_inj' hends rfl).1
    exact absurd (by rw [hfront]; simp) (hnone w' ts')

/-- The late batch is re-armed for a moment after the save. -/
theorem rearmed_batch_stays_pending :
    Along step LateBatchPending (State.init : State ℕ)
      [.commit 1000, .claim 1 1100 15000, .read 1, .commit 1200,
        .schedule 1200 60000 .replace, .save 1 1300] := by
  apply (run_leaves_late_batches_pending _).2.mpr
  have hsaves : ∀ w ts, Event.save w ts ∉ [.commit 1000, .claim 1 1100 15000, .read (1 : ℕ),
      .commit 1200, .schedule 1200 60000 .replace] := by
    intro w ts hmem
    simp at hmem
  have hout : Outlasts ([.commit 1000, .claim 1 1100 15000, .read (1 : ℕ), .commit 1200] ++
      [.schedule 1200 60000 .replace]) 1 1300 := by
    apply outlasts_concat rfl
    change (1300 : ℤ) < 1200 + max 60000 0
    decide
  exact armsOutlast_concat hsaves hout

/-- The arms of a late batch keep the due time that has passed, and the save
deletes the job. -/
theorem late_batch_stranded :
    ¬ LateBatchPending
      (runFrom step (State.init : State ℕ)
        [.commit 1000, .claim 1 1100 15000, .read 1, .commit 1200,
          .schedule 1200 60000 .idleReset])
      (.save 1 1300) := by
  intro h
  have hpending := h 1 1300 16100 1 rfl rfl ⟨1, by decide⟩
  exact absurd hpending (by decide)

end AnalyzeJobs

end GrServer
