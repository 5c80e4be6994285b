import GrServer.CycleRuns

/-!
# The live cycle of a visitor

`Live` says that the visitor's row names an active cycle of its own that another
open would resume.  The writes of other visitors leave it alone, unless they
purge it, which the journal shows.
-/

namespace GrServer

open Json Text Relation

namespace CycleStore

def Mark.visitor : Mark → String
  | .completed v _ _ => v
  | .purged v _ => v

def marksOf (s : Store) (v : String) : List Mark := s.journal.filter (·.visitor = v)

theorem marksOf_length_le {s s' : Store} (h : s.journal <+: s'.journal) (v : String) :
    (marksOf s v).length ≤ (marksOf s' v).length :=
  (h.filter _).length_le

theorem marksOf_append {s s' : Store} {m : Mark} (h : s'.journal = s.journal ++ [m])
    {v : String} (hm : m.visitor = v) :
    (marksOf s v).length < (marksOf s' v).length := by
  simp [marksOf, h, hm]

structure Live (s : Store) (v c : String) (created : ℤ) (version : String) : Prop where
  active : (visitorRow s v).activeCycle = c
  named : c ≠ ""
  row : ∃ row, s.sessions.get? c = some row ∧ row.visitor = v ∧ row.created = created ∧
    cycleStatus row.info = "active" ∧ cycleCompatible row.info version = true

theorem cycleCompatible_congr {info : Fields} {current current' : String}
    (h : trimmed current' = trimmed current) :
    cycleCompatible info current' = cycleCompatible info current := by
  simp [cycleCompatible, h]

section Writes

variable {cfg : Config} {s s' : Store} {v c version : String} {created : ℤ}

theorem Live.of_rows (h : Live s v c created version)
    (hvisitor : visitorRow s' v = visitorRow s v)
    (hsession : s'.sessions.get? c = s.sessions.get? c) : Live s' v c created version :=
  ⟨hvisitor ▸ h.active, h.named, hsession ▸ h.row⟩

theorem Live.ne_of_visitor (h : Live s v c created version) {c' : String} {row : SessionRow}
    (hrow : s.sessions.get? c' = some row) (hne : row.visitor ≠ v) : c ≠ c' := by
  rintro rfl
  obtain ⟨own, hown, hvisitor, -⟩ := h.row
  obtain rfl : row = own := by simpa [hrow] using hown
  exact hne hvisitor

theorem Live.purge (h : Live s v c created version) (now : ℕ) (c' : String) :
    Live (purgeCycleEvidence now c' s) v c created version ∨
      (marksOf s v).length < (marksOf (purgeCycleEvidence now c' s) v).length := by
  have hjournal := journal_purge s now c'
  cases hrow : s.sessions.get? c' with
  | none =>
      left
      refine h.of_rows ?_ ?_
      · simp [visitorRow_purge, hrow]
      · rw [session_purge, if_neg]
        rintro rfl
        obtain ⟨own, hown, -⟩ := h.row
        simp [hrow] at hown
  | some row =>
      by_cases hvisitor : row.visitor = v
      · right
        rw [hrow] at hjournal
        exact marksOf_append hjournal hvisitor
      · left
        refine h.of_rows ?_ ?_
        · simp [visitorRow_purge, hrow, hvisitor]
        · rw [session_purge, if_neg (h.ne_of_visitor hrow hvisitor)]

theorem Live.foreign (h : Live s v c created version) {w : String} {may : Store → String → Prop}
    (hv : v ≠ "") (hne : v ≠ w) (hw : Write cfg w may s s') :
    Live s' v c created version ∨ (marksOf s v).length < (marksOf s' v).length := by
  cases hw with
  | settle row => exact .inl (h.of_rows (by simp [visitorRow_upsertVt, hne]) rfl)
  | book c' row hnew =>
      refine .inl (h.of_rows (visitorRow_putSession s c' row v) ?_)
      rw [session_putSession, if_neg]
      rintro rfl
      obtain ⟨own, hown, -⟩ := h.row
      simp [hnew] at hown
  | promote c' row vrow => exact .inl (h.of_rows (by simp [visitorRow_upsertVt, hne]) rfl)
  | resume c' row info vrow hrow howned =>
      have hvisitor : row.visitor ≠ v := by
        obtain hown | hown := howned <;> simp [hown, hne.symm, hv.symm]
      refine .inl (h.of_rows (by simp [visitorRow_upsertVt, hne]) ?_)
      rw [upsertVt_sessions, session_putSession, if_neg (h.ne_of_visitor hrow hvisitor)]
  | bond c' => exact .inl (h.of_rows (by simp) (by simp))
  | complete now c' row hrow howned =>
      have hvisitor : row.visitor ≠ v := by
        obtain hown | hown := howned <;> simp [hown, hne.symm, hv.symm]
      refine .inl (h.of_rows (by simp [visitorRow_completeRow, hvisitor.symm]) ?_)
      rw [session_completeRow, if_neg (h.ne_of_visitor hrow hvisitor)]
  | purge now c' => exact h.purge now c'

theorem Live.foreigns (h : Live s v c created version) {w : String}
    {may : Store → String → Prop} (hv : v ≠ "") (hne : v ≠ w) (hw : Writes cfg w may s s') :
    Live s' v c created version ∨ (marksOf s v).length < (marksOf s' v).length := by
  induction hw with
  | refl => exact .inl h
  | tail hfirst hlast ih =>
      obtain hlive | hmarked := ih
      · have hle := marksOf_length_le (Writes.journal cfg hfirst) v
        exact (hlive.foreign hv hne hlast).imp_right fun hlt => by omega
      · have hle := marksOf_length_le (hlast.journal cfg) v
        right
        omega

end Writes

/-! ## The visitor's own opens -/

section Own

variable {cfg : Config} {s : Store} {e : Entry} {v c version : String} {created : ℤ}

structure Current (cfg : Config) (s : Store) (e : Entry) (v c : String) (created : ℤ)
    (version : String) : Prop where
  live : Live s v c created version
  vt : e.vt = v
  active : e.row.activeCycle = c
  version : trimmed e.productVersion = trimmed version
  unexpired : age e created < cfg.incompleteMs

def Continues (s : Store) (v c : String) (created : ℤ) (version : String) (s' : Store) :
    Outcome → Prop
  | .answered a => a.cycleId = c ∧ Live s' v c created version
  | .failed _ => False
  | .again hint _ => hint = some c ∧ Live s' v c created version ∨
      (marksOf s v).length < (marksOf s' v).length

theorem attach_visitorRow (s : Store) (vt c v : String) (now : ℕ) :
    visitorRow (attachOrphanB8ForVt s vt c now).1 v = visitorRow s v := by
  unfold attachOrphanB8ForVt
  split_ifs <;> simp

theorem Current.row (h : Current cfg s e v c created version) :
    ∃ row, s.sessions.get? c = some row ∧ row.visitor = v ∧ row.created = created ∧
      cycleStatus row.info = "active" ∧ resumable cfg e row = true := by
  obtain ⟨row, hrow, hvisitor, hcreated, hstatus, hcompatible⟩ := h.live.row
  refine ⟨row, hrow, hvisitor, hcreated, hstatus, ?_⟩
  have hversion : versionOk e row = true := by
    rw [versionOk, cycleCompatible_congr h.version]
    exact hcompatible
  have hage : age e row.created < cfg.incompleteMs := hcreated ▸ h.unexpired
  simp [resumable, hstatus, hversion, hage, ownedBy, hvisitor, h.vt]

theorem Current.resumeOrHeal (h : Current cfg s e v c created version) {row : SessionRow}
    (hvisitor : row.visitor = v) (hcreated : row.created = created) (converged : Option Bool) :
    Continues s v c created version (resumeOrHeal cfg s e c row converged).1
      (resumeOrHeal cfg s e c row converged).2 := by
  unfold CycleStore.resumeOrHeal
  split_ifs with hcloses
  · exact .inr (marksOf_append (journal_completeRow cfg s _ c row) hvisitor)
  · obtain ⟨-, -, row', hrow', hvisitor', hcreated', hstatus', hcompatible'⟩ :=
      resume_opened s e row h.live.named converged
    refine ⟨rfl, ?_, h.live.named, row', hrow', hvisitor'.trans h.vt,
      hcreated'.trans hcreated, hstatus', ?_⟩
    · simp [resume, attach_visitorRow, visitorRow_upsertVt, h.vt]
    · rw [← cycleCompatible_congr h.version]
      exact hcompatible'

theorem Current.openPath (h : Current cfg s e v c created version) {hint : Option String}
    (hhint : ∀ x ∈ hint, x = "" ∨ x = c ∨ s.sessions.get? x = none) :
    Continues s v c created version (openPath cfg s e hint).1 (openPath cfg s e hint).2 := by
  obtain ⟨row, hrow, hvisitor, hcreated, hstatus, hresumable⟩ := h.row
  have hcontinues := fun converged => h.resumeOrHeal hvisitor hcreated converged
  unfold CycleStore.openPath
  cases hfilter : hint.filter (· ≠ "") with
  | none =>
      simp only [resumable, Bool.and_eq_true, decide_eq_true_eq] at hresumable
      obtain ⟨⟨⟨-, hversion⟩, hage⟩, howned⟩ := hresumable
      have hyoung : ¬ cfg.incompleteMs ≤ age e row.created := by omega
      simpa [activePath, h.active, h.live.named, hrow, hstatus, hyoung, hversion, howned, hage]
        using hcontinues _
  | some x =>
      obtain ⟨hx, hne⟩ := Option.filter_eq_some_iff.mp hfilter
      obtain hempty | rfl | hunknown := hhint x hx
      · simp [hempty] at hne
      · simpa [hrow, storedHint, hresumable] using hcontinues none
      · have hother : c ≠ x := by
          rintro rfl
          simp [hrow] at hunknown
        have hconverges : convergesTo cfg s e x = true := by
          simp [convergesTo, h.active, h.live.named, hother, hrow, hresumable]
        simp only [hunknown, unknownHint, hconverges, if_true]
        exact .inl ⟨by rw [h.active], h.live⟩

theorem Live.coolGate (h : Live s v c created version) (hvt : e.vt = v)
    (hactive : e.row.activeCycle = c) (hint : Option String) (forced : Bool) :
    Live (coolGate s hint forced e).1 v c created version ∧
      (coolGate s hint forced e).1.sessions = s.sessions ∧
      ∀ a, (coolGate s hint forced e).2 = .ok a → a.cycleId = c := by
  obtain ⟨row, hrow, -⟩ := h.row
  have hpick : coolCycle e.row hint e.reading.mint = c := by
    simp [coolCycle, hactive, h.named]
  have hbook : bookCycle s e c = s := by simp [bookCycle, hrow]
  have hended : Live (upsertVt s e.vt { e.row with coolUntil := 0 }) v c created version :=
    ⟨by simp [visitorRow_upsertVt, hvt, hactive], h.named, h.row⟩
  simp only [CycleStore.coolGate, hpick, hbook]
  split_ifs
  · exact ⟨hended, rfl, by simp⟩
  · refine ⟨h, rfl, fun a ha => ?_⟩
    rw [Except.ok.injEq] at ha
    rw [← ha]
    rfl
  · exact ⟨hended, rfl, by simp⟩
  · exact ⟨h, rfl, by simp⟩

theorem openCycleInner_live (readings : List Reading) (hint : Option String) (info : Fields)
    (h : Live s v c created version)
    (hyoung : ∀ r ∈ readings, (r.now : ℤ) - created < cfg.incompleteMs)
    (hversion : trimmed (currentProductVersion cfg info) = trimmed version)
    (hhint : ∀ x ∈ hint, x = "" ∨ x = c ∨ s.sessions.get? x = none) :
    (Live (openCycleInner cfg readings s hint v info).1 v c created version ∧
        ∀ a, (openCycleInner cfg readings s hint v info).2 = .ok a → a.cycleId = c) ∨
      (marksOf s v).length <
        (marksOf (openCycleInner cfg readings s hint v info).1 v).length := by
  induction readings generalizing s hint info with
  | nil => exact .inl ⟨h, by simp [openCycleInner]⟩
  | cons r rest ih =>
      obtain ⟨hgate, hsessions, hanswer⟩ :=
        Live.coolGate h (e := enter cfg r s v info) rfl h.active hint
          (forceIdentity (enter cfg r s v info).info)
      simp only [openCycleInner]
      split
      · rename_i s₁ answer heq
        rw [heq] at hgate hanswer
        refine .inl ⟨hgate, fun a ha => ?_⟩
        obtain rfl : answer = a := by simpa using ha
        exact hanswer answer rfl
      · rename_i s₁ e heq
        have hpassed := coolGate_passed s _ (enter_loaded cfg r s v info) heq
        rw [heq] at hgate hsessions
        dsimp only at hgate hsessions
        have hle : (marksOf s v).length = (marksOf s₁ v).length := by
          simp [marksOf, hpassed.journal]
        have hcurrent : Current cfg s₁ e v c created version := by
          refine ⟨hgate, hpassed.vt, ?_, ?_, ?_⟩
          · rw [hpassed.row]
            exact h.active
          · rw [hpassed.productVersion]
            exact hversion
          · rw [age, hpassed.reading]
            exact hyoung r List.mem_cons_self
        have hends := hcurrent.openPath (hsessions ▸ hhint)
        rw [hle]
        split
        · rename_i s₂ answer hend
          rw [hend] at hends
          refine .inl ⟨hends.2, fun a ha => ?_⟩
          obtain rfl : answer = a := by simpa using ha
          exact hends.1
        · rename_i s₂ error hend
          rw [hend] at hends
          exact hends.elim
        · rename_i s₂ hint' converged hend
          rw [hend] at hends
          obtain ⟨rfl, hlive⟩ | hmarked := hends
          · have hinfo : trimmed (currentProductVersion cfg e.info) = trimmed version :=
              (hpassed.carries cfg).version.trans hversion
            have hpath := openPath_writes cfg (fun _ _ => True) s₁ e hint
              (fun _ _ _ => trivial) (fun _ _ _ _ _ => trivial)
            rw [hend] at hpath
            have hkept := marksOf_length_le (Writes.journal cfg hpath) v
            have hyoung' : ∀ r' ∈ rest, (r'.now : ℤ) - created < cfg.incompleteMs :=
              fun r' hr' => hyoung r' (List.mem_cons_of_mem r hr')
            have hfits : ∀ x ∈ some c, x = "" ∨ x = c ∨ s₂.sessions.get? x = none := by simp
            obtain ⟨hfinal, hanswers⟩ | hmarked :=
              ih (some c) e.info hlive hyoung' hinfo hfits
            · refine .inl ⟨hfinal, fun a ha => ?_⟩
              cases hresult : (openCycleInner cfg rest s₂ (some c) v e.info).2 with
              | error err => simp [hresult, Except.map] at ha
              | ok inner =>
                  obtain rfl : markConverged converged inner = a := by
                    simpa [hresult, Except.map] using ha
                  rw [markConverged_cycleId]
                  exact hanswers inner hresult
            · right
              exact hkept.trans_lt hmarked
          · have hrest := marksOf_length_le
              (Writes.journal cfg (openCycleInner_writes cfg rest s₂ hint' v e.info)) v
            right
            exact hmarked.trans_le hrest

end Own

theorem coolGate_phase {s : Store} {e : Entry} {hint : Option String} {forced : Bool}
    {s' : Store} {a : OpenAnswer} (h : coolGate s hint forced e = (s', .ok a)) :
    a.phase = .cool := by
  simp only [coolGate] at h
  split_ifs at h
  · simp at h
  · simp only [Prod.mk.injEq, Except.ok.injEq] at h
    rw [← h.2]
    rfl
  · simp at h
  · simp at h

@[simp] theorem markConverged_created (converged : Option String) (a : OpenAnswer) :
    (markConverged converged a).created = a.created := by
  cases converged <;> rfl

theorem openCycleInner_opens (cfg : Config) {v : String} (readings : List Reading) {s : Store}
    {hint : Option String} {info : Fields} {a : OpenAnswer}
    (ha : (openCycleInner cfg readings s hint v info).2 = .ok a) (hphase : a.phase ≠ .cool)
    (hactive : (visitorRow (openCycleInner cfg readings s hint v info).1 v).activeCycle =
      a.cycleId) :
    Live (openCycleInner cfg readings s hint v info).1 v a.cycleId a.created
      (currentProductVersion cfg info) := by
  induction readings generalizing s hint info a with
  | nil => simp [openCycleInner] at ha
  | cons r rest ih =>
      simp only [openCycleInner] at ha hactive ⊢
      split at ha
      · rename_i s₁ answer heq
        obtain rfl : answer = a := by simpa using ha
        exact absurd (coolGate_phase heq) hphase
      · rename_i s₁ e heq
        have hpassed := coolGate_passed s _ (enter_loaded cfg r s v info) heq
        simp only [heq] at hactive ⊢
        split at ha
        · rename_i s₂ answer hend
          obtain rfl : answer = a := by simpa using ha
          simp only [hend] at hactive ⊢
          obtain ⟨-, hnamed, row, hrow, hvisitor, hcreated, hstatus, hcompatible⟩ :=
            openPath_opened cfg s₁ e (hpassed.stamped (enter_stamped cfg r s v info)) hend
          rw [hpassed.productVersion] at hcompatible
          exact ⟨hactive, hnamed, row, hrow, hvisitor.trans hpassed.vt, hcreated, hstatus,
            hcompatible⟩
        · simp at ha
        · rename_i s₂ hint' converged hend
          simp only [hend] at hactive ⊢
          cases hresult : (openCycleInner cfg rest s₂ hint' v e.info).2 with
          | error err => simp [hresult, Except.map] at ha
          | ok inner =>
              obtain rfl : markConverged converged inner = a := by
                simpa [hresult, Except.map] using ha
              simp only [markConverged_phase, markConverged_cycleId, markConverged_created]
                at hphase hactive ⊢
              obtain ⟨hact, hnamed, row, hrow, hvisitor, hcreated, hstatus, hcompatible⟩ :=
                ih hresult hphase hactive
              exact ⟨hact, hnamed, row, hrow, hvisitor, hcreated, hstatus,
                cycleCompatible_congr (hpassed.carries cfg).version ▸ hcompatible⟩

def OpensInTime (cfg : Config) (v : String) (created : ℤ) (version : String) : Event → Prop
  | .openCycle readings vtMint _ visitor info =>
      openVisitor visitor vtMint = v →
        (∀ r ∈ readings, (r.now : ℤ) - created < cfg.incompleteMs) ∧
          trimmed (currentProductVersion cfg info) = trimmed version
  | _ => True

instance (cfg : Config) (v : String) (created : ℤ) (version : String) :
    ∀ event, Decidable (OpensInTime cfg v created version event)
  | .openCycle readings vtMint _ visitor info =>
      inferInstanceAs (Decidable (openVisitor visitor vtMint = v →
        (∀ r ∈ readings, (r.now : ℤ) - created < cfg.incompleteMs) ∧
          trimmed (currentProductVersion cfg info) = trimmed version))
  | .completeCycle .. => isTrue trivial
  | .purgeCycleEvidence .. => isTrue trivial
  | .upsertBatch .. => isTrue trivial
  | .saveAnalysis .. => isTrue trivial

/-- The step neither completes nor purges a cycle of the visitor, and its opens
come in time. -/
def Undisturbed (cfg : Config) (v : String) (created : ℤ) (version : String) (s : Store)
    (event : Event) : Prop :=
  marksOf (step cfg s event) v = marksOf s v ∧ OpensInTime cfg v created version event

instance (cfg : Config) (v : String) (created : ℤ) (version : String) (s : Store)
    (event : Event) : Decidable (Undisturbed cfg v created version s event) := by
  unfold Undisturbed
  infer_instance

def HintsLive (v : String) (s : Store) : Event → Prop
  | .openCycle _ vtMint hint visitor _ =>
      openVisitor visitor vtMint = v →
        ∀ x ∈ hint, x = "" ∨ x = (visitorRow s v).activeCycle ∨ s.sessions.get? x = none
  | _ => True

instance (v : String) (s : Store) : ∀ event, Decidable (HintsLive v s event)
  | .openCycle _ vtMint hint visitor _ =>
      inferInstanceAs (Decidable (openVisitor visitor vtMint = v →
        ∀ x ∈ hint, x = "" ∨ x = (visitorRow s v).activeCycle ∨ s.sessions.get? x = none))
  | .completeCycle .. => isTrue trivial
  | .purgeCycleEvidence .. => isTrue trivial
  | .upsertBatch .. => isTrue trivial
  | .saveAnalysis .. => isTrue trivial

/-- The visitor's opens answer with the cycle. -/
def AnswersCycle (cfg : Config) (v c : String) (s : Store) : Event → Prop
  | .openCycle readings vtMint hint visitor info =>
      openVisitor visitor vtMint = v →
        ∀ a, (openCycle cfg readings vtMint s hint visitor info).2 = .ok a → a.cycleId = c
  | _ => True

section Runs

variable {cfg : Config} {s : Store} {v c version : String} {created : ℤ}

theorem Live.step (h : Live s v c created version) (hv : v ≠ "") (event : Event)
    (hquiet : Undisturbed cfg v created version s event ∧ HintsLive v s event) :
    AnswersCycle cfg v c s event ∧ Live (step cfg s event) v c created version := by
  obtain ⟨⟨hmarks, htime⟩, hhint⟩ := hquiet
  have hsame : ¬ (marksOf s v).length < (marksOf (CycleStore.step cfg s event) v).length := by
    rw [hmarks]
    omega
  cases event with
  | openCycle readings vtMint hint visitor info =>
      by_cases hopener : openVisitor visitor vtMint = v
      · obtain ⟨hyoung, hversion⟩ := htime hopener
        have hfits := hhint hopener
        rw [h.active] at hfits
        have hlive := openCycleInner_live readings hint info h hyoung hversion hfits
        subst hopener
        obtain ⟨hkept, hanswers⟩ := hlive.resolve_right hsame
        exact ⟨fun _ => hanswers, hkept⟩
      · have hwrites := openCycleInner_writes cfg readings s hint (openVisitor visitor vtMint) info
        exact ⟨fun heq => absurd heq hopener,
          (h.foreigns hv (fun heq => hopener heq.symm) hwrites).resolve_right hsame⟩
  | completeCycle now c' =>
      refine ⟨trivial, ?_⟩
      simp only [CycleStore.step, completeCycle] at hsame ⊢
      cases hrow : s.sessions.get? c' with
      | none => exact h
      | some row =>
          simp only [hrow, Except.toOption, Option.getD_some] at hsame ⊢
          by_cases hvisitor : row.visitor = v
          · exact absurd (marksOf_append (journal_completeRow cfg s now c' row) hvisitor) hsame
          · have hw : Write cfg row.visitor (fun _ _ => True) s (completeRow cfg now c' row s) :=
              .complete now c' row hrow (.inl rfl)
            exact (h.foreign hv (fun heq => hvisitor heq.symm) hw).resolve_right hsame
  | purgeCycleEvidence now c' => exact ⟨trivial, (h.purge now c').resolve_right hsame⟩
  | upsertBatch now key =>
      refine ⟨trivial, ?_⟩
      obtain hstep | hstep := step_upsertBatch cfg s now key
      · rw [hstep]
        exact h
      · rw [hstep]
        exact h.of_rows (by simp) (by simp)
  | saveAnalysis now saved session productVersion result =>
      refine ⟨trivial, ?_⟩
      obtain ⟨analyses, hstep⟩ := step_saveAnalysis cfg s now saved session productVersion result
      rw [hstep]
      exact h.of_rows rfl rfl

end Runs

section Late

variable (cfg : Config) (s : Store) (now : ℕ) {v c : String}

theorem completeCycle_beside (hne : (visitorRow s v).activeCycle ≠ c) :
    let s' := step cfg s (.completeCycle now c)
    s'.sessions.get? (visitorRow s v).activeCycle =
        s.sessions.get? (visitorRow s v).activeCycle ∧
      s'.batches = s.batches ∧ s'.analyses = s.analyses ∧
      (∀ t, requireActiveSession cfg t (visitorRow s v).activeCycle s' =
        requireActiveSession cfg t (visitorRow s v).activeCycle s) ∧
      ((visitorRow s' v).activeCycle = (visitorRow s v).activeCycle ↔
        ((s.sessions.get? c).any fun row => row.visitor = v) = false) := by
  intro s'
  cases hrow : s.sessions.get? c with
  | none =>
      have hs' : s' = s := by simp [s', step, completeCycle, hrow, Except.toOption]
      simp [hs']
  | some row =>
      have hs' : s' = completeRow cfg now c row s := by
        simp [s', step, completeCycle, hrow, Except.toOption]
      have hsession : s'.sessions.get? (visitorRow s v).activeCycle =
          s.sessions.get? (visitorRow s v).activeCycle := by
        rw [hs', session_completeRow, if_neg hne]
      refine ⟨hsession, by rw [hs']; rfl, by rw [hs']; rfl, fun t => ?_, ?_⟩
      · simp [requireActiveSession, sessionWindow, hsession]
      · rw [hs', visitorRow_completeRow]
        by_cases hvisitor : row.visitor = v
        · simp [hvisitor, hne.symm]
        · have hother : v ≠ row.visitor := fun heq => hvisitor heq.symm
          simp [hvisitor, hother]

end Late

def laterOpens : List Event :=
  [openAs 1 "B" (some "cB"), openAs 2 "A" none, openAs 3 "A" (some "tab"),
    openAs 4 "A" (some "cA")]

def sampleAfter (events : List Event) : Store :=
  runFrom (step sampleConfig) Store.empty events

def twoVisitors : Store := sampleAfter [openAs 0 "B" (some "cB"), openAs 0 "A" (some "cA")]

def expiredTab : Store := sampleAfter [openAs 0 "A" (some "cA"), openAs 1000 "A" (some "cA")]

end CycleStore

end GrServer
