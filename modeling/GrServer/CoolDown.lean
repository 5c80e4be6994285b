import GrServer.CoolInvariant

/-!
# Who is granted a cool-down

An open may enter itself several times, each time with the meta of the entry
before.  What an entry asks for, the request has asked for.
-/

namespace GrServer

open Json Text Relation

namespace CycleStore

/-! ## Requests -/

section Requests

variable (cfg : Config)

def coolRequest (s : Store) (vt : String) (info : Fields) (r : Reading) : Bool :=
  coolOk (enter cfg r s vt info) (forceIdentity info)

/-- Where the gate would answer, it has the visitor's active cycle, which is
complete, to answer with. -/
def CoolStands (s : Store) (vt : String) (hint : Option String) (info : Fields)
    (r : Reading) : Prop :=
  coolRequest cfg s vt info r = true →
  siliconOk s (coolCycle (visitorRow s vt) hint r.mint) = true →
  (visitorRow s vt).activeCycle ≠ "" ∧
    ((s.sessions.get? (visitorRow s vt).activeCycle).any fun row =>
      cycleStatus row.info = "complete") = true

instance (s : Store) (vt : String) (hint : Option String) (info : Fields) (r : Reading) :
    Decidable (CoolStands cfg s vt hint info r) := by
  unfold CoolStands
  infer_instance

theorem coolValid_congr {current current' : String} (h : trimmed current' = trimmed current)
    (coolUntil now : ℤ) (last : String) :
    coolValidForProductVersion coolUntil now last current' =
      coolValidForProductVersion coolUntil now last current := by
  simp [coolValidForProductVersion, h]

theorem coolRequest_iff (s : Store) (vt : String) (info : Fields) (r : Reading) :
    coolRequest cfg s vt info r = true ↔
      coolValidForProductVersion (visitorRow s vt).coolUntil r.now
        (visitorRow s vt).productVersionLast (currentProductVersion cfg info) = true ∧
      forceIdentity info = false := by
  simp [coolRequest, coolOk, enter, visitorRow]

theorem coolRequest_of_carries {s : Store} {vt : String} {info info' : Fields} {r : Reading}
    (h : Carries cfg info info') (hcool : coolRequest cfg s vt info' r = true) :
    coolRequest cfg s vt info r = true := by
  rw [coolRequest_iff] at hcool ⊢
  exact ⟨coolValid_congr h.version _ _ _ ▸ hcool.1, h.forced hcool.2⟩

theorem lt_of_coolValid {coolUntil now : ℤ} {last current : String}
    (h : coolValidForProductVersion coolUntil now last current = true) : now < coolUntil := by
  unfold coolValidForProductVersion at h
  split_ifs at h <;> omega

/-- What an answer in the cool phase rests on. -/
structure CoolFounded (s : Store) (vt : String) (info : Fields) (readings : List Reading)
    (a : OpenAnswer) : Prop where
  visitor : a.visitor = vt
  owner : ∃ row, s.sessions.get? a.cycleId = some row ∧ row.visitor = vt
  identity : a.lastIdentityResult = latestAnalysis s a.cycleId
  finished : Finished s vt a.cycleId
  unforced : forceIdentity info = false
  window : ∃ r ∈ readings, (r.now : ℤ) < (visitorRow s vt).coolUntil ∧
    coolValidForProductVersion (visitorRow s vt).coolUntil r.now
      (visitorRow s vt).productVersionLast (currentProductVersion cfg info) = true

theorem CoolFounded.carried {s : Store} {vt : String} {info info' : Fields}
    {readings readings' : List Reading} {a : OpenAnswer} (h : CoolFounded cfg s vt info' readings a)
    (hinfo : Carries cfg info info') (hreadings : readings ⊆ readings')
    (converged : Option String) :
    CoolFounded cfg s vt info readings' (markConverged converged a) := by
  obtain ⟨r, hr, hnow, hvalid⟩ := h.window
  have hwindow : ∃ r ∈ readings', (r.now : ℤ) < (visitorRow s vt).coolUntil ∧
      coolValidForProductVersion (visitorRow s vt).coolUntil r.now
        (visitorRow s vt).productVersionLast (currentProductVersion cfg info) = true :=
    ⟨r, hreadings hr, hnow, coolValid_congr hinfo.version _ _ _ ▸ hvalid⟩
  cases converged with
  | none => exact ⟨h.visitor, h.owner, h.identity, h.finished, hinfo.forced h.unforced, hwindow⟩
  | some hint =>
      exact ⟨h.visitor, h.owner, h.identity, h.finished, hinfo.forced h.unforced, hwindow⟩

end Requests

/-! ## An open -/

section Opens

variable (cfg : Config) {s : Store} {vt : String} {hint : Option String} {info : Fields}

@[simp] theorem siliconOk_bookCycle (s : Store) (e : Entry) (c c' : String) :
    siliconOk (bookCycle s e c) c' = siliconOk s c' := by
  unfold bookCycle
  split <;> rfl

theorem coolGate_founded (h : Inv s) {r : Reading} (hstands : CoolStands cfg s vt hint info r)
    {s' : Store} {a : OpenAnswer}
    (hgate : coolGate s hint (forceIdentity (enter cfg r s vt info).info)
      (enter cfg r s vt info) = (s', .ok a)) :
    s' = s ∧ CoolFounded cfg s vt info [r] a := by
  set e := enter cfg r s vt info with he
  have hforced : forceIdentity e.info = forceIdentity info := forceIdentity_stampInfo info _
  simp only [coolGate, hforced] at hgate
  split_ifs at hgate with hinvalid hcool hsilicon
  · simp at hgate
  · simp only [Prod.mk.injEq, Except.ok.injEq] at hgate
    rw [siliconOk_bookCycle] at hsilicon
    obtain ⟨hactive, hstored⟩ := hstands hcool hsilicon
    obtain ⟨row, hrow, hcomplete⟩ := (Option.any_eq_true _ _).mp hstored
    have hpick : coolCycle e.row hint e.reading.mint = (visitorRow s vt).activeCycle :=
      if_pos hactive
    have hbook : bookCycle s e (visitorRow s vt).activeCycle = s := by
      simp [bookCycle, hrow]
    rw [hpick, hbook] at hgate
    obtain ⟨rfl, rfl⟩ := hgate
    obtain ⟨hvalid, hunforced⟩ := (coolRequest_iff cfg s vt info r).mp hcool
    have hnow := lt_of_coolValid hvalid
    obtain ⟨owner, howner, hvisitor, -⟩ := h.active vt hactive
    exact ⟨rfl, rfl, ⟨owner, howner, hvisitor⟩, rfl,
      h.cool vt row hactive hrow (by simpa using hcomplete) (by omega), hunforced, r, by simp, hnow, hvalid⟩
  · simp at hgate
  · simp at hgate

def HintSettled (s : Store) (e : Entry) (hint : Option String) : Prop :=
  ∀ c, hint = some c → ∀ v, .purged v c ∈ s.journal →
    ∃ row, s.sessions.get? c = some row ∧ resumable cfg e row = false

theorem resumable_of_passed {e e' : Entry} {s' : Store} (hpassed : Passed s e s' e')
    (row : SessionRow) : resumable cfg e' row = resumable cfg e row := by
  unfold resumable versionOk age ownedBy
  rw [hpassed.productVersion, hpassed.reading, hpassed.vt]

theorem not_resumable_of_complete (e : Entry) {row : SessionRow}
    (h : cycleStatus row.info = "complete") : resumable cfg e row = false := by
  simp [resumable, h]

theorem HintSettled.passed {e e' : Entry} {s' : Store} (h : HintSettled cfg s e hint)
    (hpassed : Passed s e s' e') : HintSettled cfg s' e' hint := by
  intro c hc v hmark
  rw [hpassed.journal] at hmark
  obtain ⟨row, hrow, hresumable⟩ := h c hc v hmark
  exact ⟨row, hpassed.sessions c row hrow, (resumable_of_passed cfg hpassed row).trans hresumable⟩

theorem Inv.openPath (h : Inv s) {e : Entry} (hvt : e.vt ≠ "") (hhint : HintSettled cfg s e hint) :
    Inv (openPath cfg s e hint).1 := by
  refine h.writes hvt (openPath_writes cfg Unpurged s e hint ?_ ?_)
  · intro row hrow hstatus v hmark
    obtain ⟨old, hold, hpurged, -⟩ := h.purged v _ hmark
    obtain rfl : row = old := by simpa [hrow] using hold
    obtain hstatus | hstatus := hstatus <;> simp [hstatus] at hpurged
  · intro c row hc hrow hresumable v hmark
    obtain ⟨old, hold, hsettled⟩ := hhint c hc v hmark
    obtain rfl : row = old := by simpa [hrow] using hold
    exact absurd hresumable (by simp [hsettled])

theorem coolStands_of_coolUntil (hzero : (visitorRow s vt).coolUntil = 0) (r : Reading) :
    CoolStands cfg s vt hint info r := by
  intro hcool
  have hnow := lt_of_coolValid ((coolRequest_iff cfg s vt info r).mp hcool).1
  omega

section Again

variable {r : Reading} {s₁ s₂ : Store} {e : Entry} {hint' converged : Option String}

theorem Reentry.settled (hpassed : Passed s (enter cfg r s vt info) s₁ e) (h : Inv s₁)
    (hagain : Reentry cfg s₁ e s₂ hint' converged) (e' : Entry) :
    HintSettled cfg s₂ e' hint' := by
  cases hagain with
  | converge hint hconverges =>
      intro c hc v hmark
      have hactive : e.row.activeCycle = (visitorRow s₁ vt).activeCycle := by
        rw [hpassed.row]
        exact hpassed.active.symm
      simp only [convergesTo, Bool.and_eq_true, decide_eq_true_eq] at hconverges
      obtain ⟨⟨hne, -⟩, -⟩ := hconverges
      rw [Option.some.injEq] at hc
      rw [hactive] at hc hne
      obtain ⟨row, hrow, -, hunpurged⟩ := h.active vt hne
      rw [hc] at hrow
      obtain ⟨old, hold, hstatus, -⟩ := h.purged v c hmark
      obtain rfl : row = old := by simpa [hrow] using hold
      exact ⟨row, hrow,
        not_resumable_of_complete cfg e' (hstatus.resolve_left hunpurged)⟩
  | healed => simp [HintSettled]
  | expired => simp [HintSettled]

theorem Reentry.stands (hpassed : Passed s (enter cfg r s vt info) s₁ e) (h : Inv s₁)
    (hinfo : Carries cfg info e.info) (hagain : Reentry cfg s₁ e s₂ hint' converged)
    {r' : Reading} (hstands : CoolStands cfg s vt hint info r') :
    CoolStands cfg s₂ vt hint' e.info r' := by
  have hvt : e.vt = vt := hpassed.vt
  cases hagain with
  | converge hint hconverges =>
      obtain ⟨rfl, rfl⟩ | hzero := hpassed.kept
      · simp only [convergesTo, Bool.and_eq_true, decide_eq_true_eq] at hconverges
        obtain ⟨⟨hne, -⟩, -⟩ := hconverges
        intro hcool hsilicon
        refine hstands (coolRequest_of_carries cfg hinfo hcool) ?_
        have hactive : (visitorRow s₁ vt).activeCycle ≠ "" := hne
        simpa [coolCycle, hactive] using hsilicon
      · exact coolStands_of_coolUntil cfg hzero r'
  | healed c row hne hrow howned _ =>
      have hvisitor : row.visitor = vt := by
        have howned : row.visitor = e.vt ∨ row.visitor = "" := by simpa [ownedBy] using howned
        exact hvt ▸ howned.resolve_right (h.owned c row hrow)
      intro _ _
      rw [visitorRow_completeRow, if_pos hvisitor.symm]
      exact ⟨hne, by simp [session_completeRow]⟩
  | expired =>
      refine coolStands_of_coolUntil cfg ?_ r'
      simp [visitorRow_upsertVt, hvt, clearedRow]

end Again

theorem openCycleInner_founded (readings : List Reading) (h : Inv s) (hvt : vt ≠ "")
    (hhint : ∀ r ∈ readings.head?, HintSettled cfg s (enter cfg r s vt info) hint)
    (hstands : ∀ r ∈ readings, CoolStands cfg s vt hint info r) :
    Inv (openCycleInner cfg readings s hint vt info).1 ∧
      ∀ a, (openCycleInner cfg readings s hint vt info).2 = .ok a → a.phase = .cool →
        CoolFounded cfg (openCycleInner cfg readings s hint vt info).1 vt info readings a := by
  induction readings generalizing s hint info with
  | nil => exact ⟨h, by simp [openCycleInner]⟩
  | cons r rest ih =>
      have hgate := coolGate_writes cfg Unpurged s (enter cfg r s vt info) hint
        (forceIdentity (enter cfg r s vt info).info) (enter_loaded cfg r s vt info)
      simp only [openCycleInner]
      split
      · rename_i s₁ answer heq
        obtain ⟨rfl, hfounded⟩ :=
          coolGate_founded cfg h (hstands r List.mem_cons_self) heq
        refine ⟨h, fun a ha _ => ?_⟩
        obtain rfl : answer = a := by simpa using ha
        exact hfounded.carried cfg ⟨rfl, id⟩ (by simp) none
      · rename_i s₁ e heq
        have hpassed := coolGate_passed s _ (enter_loaded cfg r s vt info) heq
        have hevt : e.vt = vt := hpassed.vt
        rw [heq] at hgate
        have h₁ : Inv s₁ := h.writes hvt hgate
        have hpath := h₁.openPath cfg (hevt ▸ hvt)
          ((hhint r rfl).passed cfg hpassed)
        have hinfo : Carries cfg info e.info := hpassed.carries cfg
        split
        · rename_i s₂ answer hend
          rw [hend] at hpath
          refine ⟨hpath, fun a ha hcool => ?_⟩
          obtain rfl : answer = a := by simpa using ha
          have hopened := openPath_opened cfg s₁ e (hpassed.stamped (enter_stamped cfg r s vt info))
            hend
          exact absurd hcool hopened.phase
        · rename_i s₂ error hend
          rw [hend] at hpath
          exact ⟨hpath, by simp⟩
        · rename_i s₂ hint' converged hend
          rw [hend] at hpath
          have hagain := openPath_again cfg s₁ e hend
          obtain ⟨hinv, hfounded⟩ := ih hpath (fun r' _ => hagain.settled cfg hpassed h₁ _)
            fun r' hr' => hagain.stands cfg hpassed h₁ hinfo (hstands r' (List.mem_cons_of_mem _ hr'))
          refine ⟨hinv, fun a ha hcool => ?_⟩
          cases hresult : (openCycleInner cfg rest s₂ hint' vt e.info).2 with
          | error err => simp [hresult, Except.map] at ha
          | ok inner =>
              obtain rfl : markConverged converged inner = a := by
                simpa [hresult, Except.map] using ha
              rw [markConverged_phase] at hcool
              exact (hfounded inner hresult hcool).carried cfg hinfo
                (List.subset_cons_self r rest) converged

end Opens

/-! ## Runs -/

/-- The hint names no purged cycle that is young enough, of the version and of
the visitor, or of nobody, to be resumed at this reading. -/
def HintKept (cfg : Config) (s : Store) (vt : String) (hint : Option String) (info : Fields)
    (r : Reading) : Prop :=
  ∀ c ∈ hint, ((s.sessions.get? c).any fun row =>
    cycleStatus row.info = "purged" && resumable cfg (enter cfg r s vt info) row) = false

instance (cfg : Config) (s : Store) (vt : String) (hint : Option String) (info : Fields)
    (r : Reading) : Decidable (HintKept cfg s vt hint info r) := by
  unfold HintKept
  infer_instance

/-- The condition on a step: an open finds its visitor's complete active cycle
where its gate would answer, and its hint names no purged cycle to resume. -/
def CoolGuarded (cfg : Config) (s : Store) : Event → Prop
  | .openCycle readings vtMint hint visitor info =>
      (∀ r ∈ readings, CoolStands cfg s (openVisitor visitor vtMint) hint info r) ∧
        ∀ r ∈ readings.head?, HintKept cfg s (openVisitor visitor vtMint) hint info r
  | _ => True

instance (cfg : Config) (s : Store) : ∀ event, Decidable (CoolGuarded cfg s event)
  | .openCycle readings vtMint hint visitor info =>
      inferInstanceAs (Decidable ((∀ r ∈ readings, CoolStands cfg s (openVisitor visitor vtMint)
        hint info r) ∧ ∀ r ∈ readings.head?, HintKept cfg s (openVisitor visitor vtMint)
        hint info r))
  | .completeCycle .. => isTrue trivial
  | .purgeCycleEvidence .. => isTrue trivial
  | .upsertBatch .. => isTrue trivial
  | .saveAnalysis .. => isTrue trivial

/-- An open that skips the identity probe does so on a founded cool-down. -/
def CoolAnswersFounded (cfg : Config) (s : Store) : Event → Prop
  | .openCycle readings vtMint hint visitor info =>
      ∀ a, (openCycle cfg readings vtMint s hint visitor info).2 = .ok a →
        a.skipIdentityProbe = true →
        CoolFounded cfg (openCycle cfg readings vtMint s hint visitor info).1
          (openVisitor visitor vtMint) info readings a
  | _ => True

theorem Inv.settled (cfg : Config) {s : Store} {vt : String} {hint : Option String}
    {info : Fields} {r : Reading} (h : Inv s) (hkept : HintKept cfg s vt hint info r) :
    HintSettled cfg s (enter cfg r s vt info) hint := by
  intro c hc v hmark
  obtain ⟨row, hrow, hstatus, -⟩ := h.purged v c hmark
  refine ⟨row, hrow, ?_⟩
  rcases hstatus with hpurged | hcomplete
  · have hunresumed := hkept c hc
    rw [hrow, Option.any_some, hpurged] at hunresumed
    simpa using hunresumed
  · exact not_resumable_of_complete cfg _ hcomplete

theorem step_founded (cfg : Config) (s : Store) (event : Event) (h : Inv s)
    (hguard : CoolGuarded cfg s event) :
    CoolAnswersFounded cfg s event ∧ Inv (step cfg s event) := by
  cases event with
  | openCycle readings vtMint hint visitor info =>
      obtain ⟨hinv, hfounded⟩ := openCycleInner_founded cfg readings h
        (openVisitor_ne visitor vtMint) (fun r hr => h.settled cfg (hguard.2 r hr)) hguard.1
      refine ⟨fun a ha hskip => hfounded a ha ?_, hinv⟩
      simpa [OpenAnswer.skipIdentityProbe] using hskip
  | completeCycle now c =>
      refine ⟨trivial, ?_⟩
      simp only [step, completeCycle]
      cases hrow : s.sessions.get? c with
      | none => exact h
      | some row => exact h.complete cfg now hrow
  | purgeCycleEvidence now c => exact ⟨trivial, h.purge now c⟩
  | upsertBatch now key =>
      refine ⟨trivial, ?_⟩
      simp only [step, upsertBatch]
      cases hactive : requireActiveSession cfg now key.session s with
      | error err => exact h
      | ok w =>
          obtain ⟨row, hrow, hcomplete, hpurged, -⟩ := requireActiveSession_status hactive
          have hput : Inv (putBatch s key) := h.putBatch fun v hmark => by
            obtain ⟨old, hold, hstatus, -⟩ := h.purged v _ hmark
            obtain rfl : row = old := by simpa [hrow] using hold
            exact absurd hstatus (by simp [hcomplete, hpurged])
          simpa [bind, Except.bind, hrow, pure, Except.pure, Except.toOption] using hput
  | saveAnalysis now created session productVersion result =>
      refine ⟨trivial, ?_⟩
      simp only [step, saveAnalysis]
      cases hactive : requireActiveSession cfg now session s with
      | error err => exact h
      | ok w =>
          obtain ⟨row, hrow, hcomplete, hpurged, -⟩ := requireActiveSession_status hactive
          refine h.evidence rfl rfl rfl fun v c hmark hc => ⟨hc.1, fun a ha => ?_⟩
          have hsession : session ≠ c := by
            rintro rfl
            obtain ⟨old, hold, hstatus, -⟩ := h.purged v _ hmark
            obtain rfl : row = old := by simpa [hrow] using hold
            exact absurd hstatus (by simp [hcomplete, hpurged])
          have hrows : a ∈ s.analyses ∨ a.session = session := by
            simp only [bind, Except.bind, pure, Except.pure, Except.toOption,
              Option.getD_some] at ha
            have hmem : a ∈ s.analyses ++
                [⟨session, nextRev s session, created, productVersion, result⟩] := by
              split_ifs at ha
              · exact List.mem_of_mem_filter ha
              · exact ha
            simp only [List.mem_append, List.mem_singleton] at hmem
            exact hmem.imp_right fun heq => by rw [heq]
          exact hrows.elim (hc.2 a) fun hs => hs ▸ hsession

def completedVisit : List Event :=
  [openAs 0 "A" (some "cA"), .upsertBatch 1 ⟨"cA", "B10_hw_curves", "main"⟩,
    .completeCycle 2 "cA", openAs 3 "A" none]

/-- The visitor's completed cycle is purged, which clears the active cycle but
not the cool-down. -/
def purgedVisit : List Event :=
  [openAs 0 "A" (some "cA"), openAs 0 "B" (some "cB"),
    .upsertBatch 1 ⟨"cA", "B10_hw_curves", "main"⟩,
    .upsertBatch 1 ⟨"cB", "B10_hw_curves", "main"⟩, .completeCycle 2 "cA",
    .purgeCycleEvidence 3 "cA"]

end CycleStore

end GrServer
