import GrServer.CycleWrites
import GrServer.GuardedRun

/-!
# Runs of the cycle store

How the paths of an open end, and the store under any sequence of its operations.
-/

namespace GrServer

open Json Text Relation

namespace CycleStore

/-! ## How a path ends -/

section Endings

variable (cfg : Config) (s : Store) (e : Entry)

theorem Stamped.compatible {info : Fields} (h : Stamped e info) :
    cycleCompatible info e.productVersion = true := by
  unfold cycleCompatible
  by_cases hversion : e.productVersion = ""
  · simp [hversion]
  · have hinfo : productVersionFromMeta info = trimmed e.productVersion := by
      simp [productVersionFromMeta, h hversion, asStr]
    by_cases htrimmed : trimmed e.productVersion = ""
    · simp [htrimmed]
    · simp [htrimmed, hinfo]

structure Opened (s' : Store) (e : Entry) (a : OpenAnswer) : Prop where
  phase : a.phase ≠ .cool
  named : a.cycleId ≠ ""
  row : ∃ row, s'.sessions.get? a.cycleId = some row ∧ row.visitor = e.vt ∧
    row.created = a.created ∧ cycleStatus row.info = "active" ∧
    cycleCompatible row.info e.productVersion = true

theorem attach_sessions (vt c : String) (now : ℕ) :
    (attachOrphanB8ForVt s vt c now).1.sessions = s.sessions := by
  unfold attachOrphanB8ForVt
  split_ifs <;> simp

theorem resumedInfo_stamped (row : SessionRow) : Stamped e (resumedInfo e row) := by
  intro hversion
  simp [resumedInfo, hversion]

theorem resume_opened {c : String} (row : SessionRow) (hne : c ≠ "")
    (converged : Option Bool) :
    Opened (resume s e c row converged).1 e (resume s e c row converged).2 := by
  refine ⟨by simp [resume], hne, { row with visitor := e.vt, info := resumedInfo e row }, ?_, rfl,
    rfl, by simp, (resumedInfo_stamped e row).compatible⟩
  simp [resume, attach_sessions, session_putSession]

theorem mintCycle_opened {info : Fields} {hint : Option String}
    {reason : Option ReprobeReason} {s' : Store} {a : OpenAnswer} (hstamped : Stamped e info)
    (h : mintCycle s e info hint reason = (s', .answered a)) : Opened s' e a := by
  unfold mintCycle at h
  set cycle := "cycle_" ++ e.reading.mint
  set minted := (info.insert "cycle_status" (.str "active")).insert "cycle_id" (.str cycle)
  have hstatus : cycleStatus minted = "active" := by
    simp [minted, cycleStatus_insert_other]
  have hcompatible : cycleCompatible minted e.productVersion = true :=
    ((hstamped.insert (by decide) _).insert (by decide) _).compatible
  have hne : cycle ≠ "" := by
    intro hempty
    have hlength := congrArg String.length hempty
    simp [cycle] at hlength
  by_cases htaken : (s.sessions.get? cycle).isSome = true
  · simp [htaken] at h
  simp only [htaken, if_false, Bool.false_eq_true] at h
  cases hint with
  | none =>
      simp only [Option.isSome_none, Bool.false_or, Bool.false_eq_true, if_false,
        Prod.mk.injEq, Outcome.answered.injEq] at h
      obtain ⟨rfl, rfl⟩ := h
      refine ⟨by simp, hne, ⟨e.vt, e.reading.now, minted⟩, ?_, rfl, rfl, hstatus, hcompatible⟩
      split_ifs <;> simp [session_putSession, minted]
  | some hint =>
      simp only [Option.isSome_some, Bool.true_or, if_true,
        Prod.mk.injEq, Outcome.answered.injEq] at h
      obtain ⟨rfl, rfl⟩ := h
      refine ⟨by simp, hne, ⟨e.vt, e.reading.now, minted⟩, ?_, rfl, rfl, hstatus, hcompatible⟩
      simp [attach_sessions, session_putSession, minted]

theorem resumeOrHeal_opened {c : String} {row : SessionRow} {converged : Option Bool}
    {s' : Store} {a : OpenAnswer} (hne : c ≠ "")
    (h : resumeOrHeal cfg s e c row converged = (s', .answered a)) : Opened s' e a := by
  unfold resumeOrHeal at h
  split_ifs at h
  · simp at h
  · simp only [Prod.mk.injEq, Outcome.answered.injEq] at h
    obtain ⟨rfl, rfl⟩ := h
    exact resume_opened s e _ hne converged

theorem unknownHint_opened {hint : String} {s' : Store} {a : OpenAnswer} (hne : hint ≠ "")
    (hstamped : Stamped e e.info) (h : unknownHint cfg s e hint = (s', .answered a)) :
    Opened s' e a := by
  unfold unknownHint at h
  set minted := (e.info.insert "cycle_status" (.str "active")).insert "cycle_id" (.str hint)
  have hstatus : cycleStatus minted = "active" := by
    simp [minted, cycleStatus_insert_other]
  have hcompatible : cycleCompatible minted e.productVersion = true :=
    ((hstamped.insert (by decide) _).insert (by decide) _).compatible
  split_ifs at h
  · simp at h
  all_goals
    simp only [Prod.mk.injEq, Outcome.answered.injEq] at h
    obtain ⟨rfl, rfl⟩ := h
    refine ⟨by simp, hne, ⟨e.vt, e.reading.now, minted⟩, ?_, rfl, rfl, hstatus, hcompatible⟩
    simp [attach_sessions, session_putSession, minted]

theorem openPath_opened {hint : Option String} {s' : Store} {a : OpenAnswer}
    (hstamped : Stamped e e.info) (h : openPath cfg s e hint = (s', .answered a)) :
    Opened s' e a := by
  unfold openPath at h
  split at h
  · rename_i hfilter
    have hne := (Option.filter_eq_some_iff.mp hfilter).2
    split at h
    · rename_i row _
      unfold storedHint at h
      split_ifs at h
      · exact resumeOrHeal_opened cfg s e (by simpa using hne) h
      · refine mintCycle_opened s e ?_ h
        cases supersedeReason cfg e row with
        | none => exact hstamped
        | some reason => exact (hstamped.insert (by decide) _).insert (by decide) _
    · exact unknownHint_opened cfg s e (by simpa using hne) hstamped h
  · unfold activePath at h
    split at h
    · exact mintCycle_opened s e hstamped h
    · rename_i hactive
      split_ifs at h
      · simp at h
      · exact mintCycle_opened _ e hstamped h
      · split_ifs at hactive with hnone
        exact resumeOrHeal_opened cfg s e hnone h
      · exact mintCycle_opened s e hstamped h

inductive Reentry : Store → Option String → Option String → Prop
  | converge (hint : String) (hconverges : convergesTo cfg s e hint = true) :
      Reentry s (some e.row.activeCycle) (some hint)
  | healed (c : String) (row : SessionRow) (hne : c ≠ "") (hrow : s.sessions.get? c = some row)
      (howned : ownedBy e row = true) (hcloses : closesCycle cfg s c = true) :
      Reentry (completeRow cfg e.reading.inner c row s) none none
  | expired :
      Reentry (upsertVt (purgeCycleEvidence e.reading.inner e.row.activeCycle s) e.vt
        (clearedRow e)) none none

theorem mintCycle_not_again {info : Fields} {hint : Option String}
    {reason : Option ReprobeReason} {s' : Store} {hint' converged : Option String} :
    mintCycle s e info hint reason ≠ (s', .again hint' converged) := by
  unfold mintCycle
  by_cases htaken : (s.sessions.get? ("cycle_" ++ e.reading.mint)).isSome = true
  · simp [htaken]
  · simp [htaken]

theorem resumeOrHeal_again {c : String} {row : SessionRow} {converged : Option Bool}
    {s' : Store} {hint' converged' : Option String} (hne : c ≠ "")
    (hrow : s.sessions.get? c = some row) (howned : ownedBy e row = true)
    (h : resumeOrHeal cfg s e c row converged = (s', .again hint' converged')) :
    Reentry cfg s e s' hint' converged' := by
  unfold resumeOrHeal at h
  split_ifs at h with hcloses
  · simp only [Prod.mk.injEq, Outcome.again.injEq] at h
    obtain ⟨rfl, rfl, rfl⟩ := h
    exact .healed c row hne hrow howned hcloses
  · simp at h

theorem openPath_again {hint : Option String} {s' : Store} {hint' converged : Option String}
    (h : openPath cfg s e hint = (s', .again hint' converged)) :
    Reentry cfg s e s' hint' converged := by
  unfold openPath at h
  split at h
  · rename_i hfilter
    have hne := (Option.filter_eq_some_iff.mp hfilter).2
    split at h
    · rename_i row hrow
      unfold storedHint at h
      split_ifs at h with hresumable
      · simp only [resumable, Bool.and_eq_true] at hresumable
        exact resumeOrHeal_again cfg s e (by simpa using hne) hrow hresumable.2 h
      · exact absurd h (mintCycle_not_again _ _)
    · unfold unknownHint at h
      split_ifs at h with hconverges
      · simp only [Prod.mk.injEq, Outcome.again.injEq] at h
        obtain ⟨rfl, rfl, rfl⟩ := h
        exact .converge _ hconverges
      all_goals simp at h
  · unfold activePath at h
    split at h
    · exact absurd h (mintCycle_not_again _ _)
    · rename_i row hactive
      split_ifs at h with hexpired hversion hresumable
      · simp only [Prod.mk.injEq, Outcome.again.injEq] at h
        obtain ⟨rfl, rfl, rfl⟩ := h
        exact .expired
      · exact absurd h (mintCycle_not_again _ _)
      · split_ifs at hactive with hnone
        exact resumeOrHeal_again cfg s e hnone hactive hresumable.2.1 h
      · exact absurd h (mintCycle_not_again _ _)

end Endings

section Requests

variable (cfg : Config)

/-- A request that asks for nothing that `info` does not ask for. -/
structure Carries (info info' : Fields) : Prop where
  version : trimmed (currentProductVersion cfg info') = trimmed (currentProductVersion cfg info)
  forced : forceIdentity info' = false → forceIdentity info = false

@[simp] theorem forceIdentity_stampInfo (info : Fields) (productVersion : String) :
    forceIdentity (stampInfo info productVersion) = forceIdentity info := by
  unfold stampInfo
  split_ifs <;>
    simp [forceIdentity, SortedMap.get?_insert_of_ne, SortedMap.get?_insertNew_of_ne]

theorem trimmed_productVersionFromMeta (info : Fields) :
    trimmed (productVersionFromMeta info) = productVersionFromMeta info := by
  unfold productVersionFromMeta
  cases ((info.get? "product_version").or (info.get? "version")).or (info.get? "sdk_v") with
  | none => simp
  | some v => cases v <;> simp [asStr]

theorem productVersionFromMeta_stampInfo (info : Fields) (productVersion : String) :
    productVersionFromMeta (stampInfo info productVersion) =
      if productVersion = "" then productVersionFromMeta info else trimmed productVersion := by
  unfold stampInfo
  split_ifs <;>
    simp [productVersionFromMeta, SortedMap.get?_insertNew_of_ne, asStr]

theorem stampInfo_carries (info : Fields) :
    Carries cfg info (stampInfo info (currentProductVersion cfg info)) := by
  refine ⟨?_, by simp⟩
  by_cases hmeta : productVersionFromMeta info = ""
  · have hcurrent : currentProductVersion cfg info = cfg.productVersion := by
      simp [currentProductVersion, hmeta]
    rw [hcurrent]
    by_cases hcfg : cfg.productVersion = ""
    · simp [currentProductVersion, productVersionFromMeta_stampInfo, hcfg, hmeta]
    · by_cases htrimmed : trimmed cfg.productVersion = ""
      · simp [currentProductVersion, productVersionFromMeta_stampInfo, hcfg, htrimmed]
      · simp [currentProductVersion, productVersionFromMeta_stampInfo, hcfg, htrimmed]
  · simp [currentProductVersion, productVersionFromMeta_stampInfo, hmeta,
      trimmed_productVersionFromMeta]

theorem Carries.trans {info info' info'' : Fields} (h : Carries cfg info info')
    (h' : Carries cfg info' info'') : Carries cfg info info'' :=
  ⟨h'.version.trans h.version, fun hforced => h.forced (h'.forced hforced)⟩

theorem Passed.carries {r : Reading} {s s' : Store} {vt : String} {info : Fields} {e : Entry}
    (h : Passed s (enter cfg r s vt info) s' e) : Carries cfg info e.info :=
  (stampInfo_carries cfg info).trans cfg
    ⟨by simp [currentProductVersion, h.version, enter], h.forced⟩

end Requests

section Operation

variable (cfg : Config) {vt : String} {may : Store → String → Prop} {s s' : Store}

theorem Write.journal (h : Write cfg vt may s s') : s.journal <+: s'.journal := by
  cases h with
  | settle row => simp
  | book c row => simp
  | promote c row vrow => simp
  | resume c row info vrow => simp
  | bond c => simp
  | complete now c row => simp
  | purge now c => simp [journal_purge]

theorem Writes.journal (h : Writes cfg vt may s s') : s.journal <+: s'.journal := by
  induction h with
  | refl => exact List.prefix_refl _
  | tail _ hlast ih => exact ih.trans (hlast.journal cfg)

theorem enter_loaded (r : Reading) (s : Store) (vt : String) (info : Fields) :
    Loaded s (enter cfg r s vt info) := rfl

theorem enter_stamped (r : Reading) (s : Store) (vt : String) (info : Fields) :
    Stamped (enter cfg r s vt info) (enter cfg r s vt info).info := by
  intro hversion
  have hne : currentProductVersion cfg info ≠ "" := hversion
  simp [enter, stampInfo, hne]

@[simp] theorem markConverged_phase (converged : Option String) (a : OpenAnswer) :
    (markConverged converged a).phase = a.phase := by
  cases converged <;> rfl

@[simp] theorem markConverged_cycleId (converged : Option String) (a : OpenAnswer) :
    (markConverged converged a).cycleId = a.cycleId := by
  cases converged <;> rfl

theorem openCycleInner_writes (readings : List Reading) (s : Store) (hint : Option String)
    (vt : String) (info : Fields) :
    Writes cfg vt (fun _ _ => True) s (openCycleInner cfg readings s hint vt info).1 := by
  induction readings generalizing s hint info with
  | nil => exact .refl
  | cons r rest ih =>
      set e := enter cfg r s vt info with he
      have hvt : e.vt = vt := rfl
      have hgate := coolGate_writes cfg (fun _ _ => True) s e hint (forceIdentity e.info)
        (enter_loaded cfg r s vt info)
      rw [hvt] at hgate
      simp only [openCycleInner, ← he]
      split
      · rename_i s₁ answer heq
        simpa [heq] using hgate
      · rename_i s₁ e₁ heq
        have hpassed := coolGate_passed s e (enter_loaded cfg r s vt info) heq
        have hpath := openPath_writes cfg (fun _ _ => True) s₁ e₁ hint
          (fun _ _ _ => trivial) (fun _ _ _ _ _ => trivial)
        rw [heq] at hgate
        rw [hpassed.vt, hvt] at hpath
        split
        · rename_i s₂ answer hend
          simpa [hend] using hgate.trans hpath
        · rename_i s₂ error hend
          simpa [hend] using hgate.trans hpath
        · rename_i s₂ hint' converged hend
          rw [hend] at hpath
          exact (hgate.trans hpath).trans (ih s₂ hint' e₁.info)

end Operation

inductive Event where
  | openCycle (readings : List Reading) (vtMint : String) (hint visitor : Option String)
      (info : Fields)
  | completeCycle (now : ℕ) (cycle : String)
  | purgeCycleEvidence (now : ℕ) (cycle : String)
  | upsertBatch (now : ℕ) (key : BatchKey)
  | saveAnalysis (now created : ℕ) (session : String) (productVersion : Option String)
      (result : Fields)

/-- The store after an event; a failed completion or ingest leaves it as it is. -/
def step (cfg : Config) (s : Store) : Event → Store
  | .openCycle readings vtMint hint visitor info =>
      (openCycle cfg readings vtMint s hint visitor info).1
  | .completeCycle now cycle => (completeCycle cfg now cycle s).toOption.getD s
  | .purgeCycleEvidence now cycle => purgeCycleEvidence now cycle s
  | .upsertBatch now key => (upsertBatch cfg now key s).toOption.getD s
  | .saveAnalysis now created session productVersion result =>
      (saveAnalysis cfg now created session productVersion result s).toOption.getD s

theorem openVisitor_ne (visitor : Option String) (vtMint : String) :
    openVisitor visitor vtMint ≠ "" := by
  unfold openVisitor
  cases h : visitor.filter (· ≠ "") with
  | none =>
      simp only [Option.getD_none]
      intro hempty
      have hlength := congrArg String.length hempty
      simp at hlength
  | some v => simpa using (Option.filter_eq_some_iff.mp h).2

theorem step_upsertBatch (cfg : Config) (s : Store) (now : ℕ) (key : BatchKey) :
    step cfg s (.upsertBatch now key) = s ∨
      step cfg s (.upsertBatch now key) = putBatch s key := by
  simp only [step, upsertBatch]
  cases requireActiveSession cfg now key.session s with
  | error err => exact .inl rfl
  | ok w =>
      by_cases hnone : (s.sessions.get? key.session).isNone = true
      · left
        simp [bind, Except.bind, hnone, throw, throwThe, MonadExceptOf.throw, Except.toOption]
      · right
        simp [bind, Except.bind, hnone, pure, Except.pure, Except.toOption]

theorem step_saveAnalysis (cfg : Config) (s : Store) (now created : ℕ) (session : String)
    (productVersion : Option String) (result : Fields) :
    ∃ analyses, step cfg s (.saveAnalysis now created session productVersion result) =
      { s with analyses := analyses } := by
  simp only [step, saveAnalysis]
  cases requireActiveSession cfg now session s with
  | error err => exact ⟨s.analyses, rfl⟩
  | ok w => exact ⟨_, rfl⟩

theorem requireActiveSession_status {cfg : Config} {now : ℕ} {session : String} {s : Store}
    {w : Window} (h : requireActiveSession cfg now session s = .ok w) :
    ∃ row, s.sessions.get? session = some row ∧ cycleStatus row.info ≠ "complete" ∧
      cycleStatus row.info ≠ "purged" ∧ now - row.created ≤ cfg.incompleteMs := by
  unfold requireActiveSession sessionWindow at h
  cases hrow : s.sessions.get? session with
  | none => simp [hrow, bind, Except.bind] at h
  | some row =>
      refine ⟨row, rfl, ?_⟩
      by_cases hcomplete : cycleStatus row.info = "complete"
      · simp [hrow, hcomplete, bind, Except.bind, throw, throwThe, MonadExceptOf.throw] at h
      by_cases hpurged : cycleStatus row.info = "purged"
      · simp [hrow, hpurged, bind, Except.bind, throw, throwThe, MonadExceptOf.throw] at h
      by_cases hage : cfg.incompleteMs < now - row.created
      · simp [hrow, hcomplete, hpurged, hage, bind, Except.bind, throw, throwThe,
          MonadExceptOf.throw] at h
      · exact ⟨hcomplete, hpurged, by omega⟩

def sampleConfig : Config where
  productVersion := "1"
  coolMs := fun _ => 1000
  incompleteMs := 1000
  completeOnCommercialSilicon := true
  historyKeep := 3

def openAs (now : ℕ) (visitor : String) (hint : Option String) : Event :=
  .openCycle [⟨now, "m", now⟩] "m" hint (some visitor) .empty

end CycleStore

end GrServer
