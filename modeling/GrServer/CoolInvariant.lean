import GrServer.CycleRuns

/-!
# The cool-down invariant

The invariant ties the visitor's row to the journal: an active cycle belongs to
the visitor, and where it is complete with a cool-down left, it was completed
with silicon and never purged.  A purged cycle has no silicon.
-/

namespace GrServer

open Json Text Relation

namespace CycleStore

def Bare (s : Store) (c : String) : Prop :=
  (∀ b ∈ s.batches, b.session = c → b.batch ≠ "B10_hw_curves") ∧
    ∀ a ∈ s.analyses, a.session ≠ c

def Unpurged (s : Store) (c : String) : Prop := ∀ v, .purged v c ∉ s.journal

def Finished (s : Store) (v c : String) : Prop :=
  .completed v c true ∈ s.journal ∧ Unpurged s c

structure Inv (s : Store) : Prop where
  owned : ∀ c row, s.sessions.get? c = some row → row.visitor ≠ ""
  active : ∀ v, (visitorRow s v).activeCycle ≠ "" →
    ∃ row, s.sessions.get? (visitorRow s v).activeCycle = some row ∧ row.visitor = v ∧
      cycleStatus row.info ≠ "purged"
  cool : ∀ v row, (visitorRow s v).activeCycle ≠ "" →
    s.sessions.get? (visitorRow s v).activeCycle = some row →
    cycleStatus row.info = "complete" → 0 < (visitorRow s v).coolUntil →
    Finished s v (visitorRow s v).activeCycle
  purged : ∀ v c, .purged v c ∈ s.journal →
    ∃ row, s.sessions.get? c = some row ∧
      (cycleStatus row.info = "purged" ∨ cycleStatus row.info = "complete") ∧ Bare s c

theorem Finished.mark {s s' : Store} {v c : String} {m : Mark} (h : Finished s v c)
    (hjournal : s'.journal = s.journal ++ [m]) (hm : ∀ w, m ≠ .purged w c) :
    Finished s' v c := by
  constructor
  · rw [hjournal]
    exact List.mem_append_left _ h.1
  · intro w hw
    rw [hjournal, List.mem_append, List.mem_singleton] at hw
    exact hw.elim (h.2 w) fun heq => hm w heq.symm

theorem Inv.empty : Inv Store.empty := by
  constructor <;> simp [Store.empty, visitorRow, VisitorRow.absent]

theorem Bare.latestRow {s : Store} {c : String} (h : Bare s c) : latestRow s c = none := by
  have hnone : s.analyses.filter (fun a => a.session = c) = [] := by
    simpa [List.filter_eq_nil_iff] using h.2
  simp [CycleStore.latestRow, hnone]

theorem Bare.siliconOk {s : Store} {c : String} (h : Bare s c) : siliconOk s c = false := by
  have hb10 : hasB10 s c = false := by
    simp only [hasB10, List.any_eq_false, Bool.and_eq_true, decide_eq_true_eq, not_and]
    exact h.1
  simp [CycleStore.siliconOk, hb10, latestAnalysis, h.latestRow, lastIdentityHasSilicon]

/-! ## What a write keeps -/

section Keeps

variable {s s' : Store}

theorem Inv.update (h : Inv s) (vt : String)
    (hsessions : ∀ c row, s.sessions.get? c = some row → row.visitor ≠ vt →
      s'.sessions.get? c = some row)
    (hvisitors : ∀ v, v ≠ vt → visitorRow s' v = visitorRow s v)
    (hfinished : ∀ v c row, s.sessions.get? c = some row → row.visitor ≠ vt →
      Finished s v c → Finished s' v c)
    (howned : ∀ c row, s'.sessions.get? c = some row → row.visitor ≠ "")
    (hactive : (visitorRow s' vt).activeCycle ≠ "" →
      ∃ row, s'.sessions.get? (visitorRow s' vt).activeCycle = some row ∧ row.visitor = vt ∧
        cycleStatus row.info ≠ "purged")
    (hcool : ∀ row, (visitorRow s' vt).activeCycle ≠ "" →
      s'.sessions.get? (visitorRow s' vt).activeCycle = some row →
      cycleStatus row.info = "complete" → 0 < (visitorRow s' vt).coolUntil →
      Finished s' vt (visitorRow s' vt).activeCycle)
    (hpurged : ∀ v c, .purged v c ∈ s'.journal →
      ∃ row, s'.sessions.get? c = some row ∧
        (cycleStatus row.info = "purged" ∨ cycleStatus row.info = "complete") ∧ Bare s' c) :
    Inv s' := by
  refine ⟨howned, fun v hv => ?_, fun v row hv hrow hcomplete hpos => ?_, hpurged⟩
  · by_cases hvt : v = vt
    · subst hvt
      exact hactive hv
    · rw [hvisitors v hvt] at hv ⊢
      obtain ⟨row, hrow, hvisitor, hstatus⟩ := h.active v hv
      exact ⟨row, hsessions _ row hrow (hvisitor ▸ hvt), hvisitor, hstatus⟩
  · by_cases hvt : v = vt
    · subst hvt
      exact hcool row hv hrow hcomplete hpos
    · rw [hvisitors v hvt] at hv hrow hpos ⊢
      obtain ⟨old, hold, hvisitor, -⟩ := h.active v hv
      have hother : old.visitor ≠ vt := hvisitor ▸ hvt
      obtain rfl : row = old := by simpa [hsessions _ old hold hother] using hrow.symm
      exact hfinished v _ row hold hother (h.cool v row hv hold hcomplete hpos)

theorem Inv.evidence (h : Inv s) (hsessions : s'.sessions = s.sessions)
    (hvisitors : s'.visitors = s.visitors) (hjournal : s'.journal = s.journal)
    (hbare : ∀ v c, .purged v c ∈ s.journal → Bare s c → Bare s' c) : Inv s' := by
  have hrow : ∀ v, visitorRow s' v = visitorRow s v := fun v => by
    simp [visitorRow, hvisitors]
  constructor
  · simpa [hsessions] using h.owned
  · simpa [hsessions, hrow] using h.active
  · simpa [hsessions, hrow, Finished, Unpurged, hjournal] using h.cool
  · intro v c hmark
    rw [hjournal] at hmark
    obtain ⟨row, hstored, hstatus, hc⟩ := h.purged v c hmark
    exact ⟨row, hsessions ▸ hstored, hstatus, hbare v c hmark hc⟩

theorem Inv.upsert (h : Inv s) {vt : String} {vrow : VisitorRow} (hcool : vrow.coolUntil = 0)
    (hactive : vrow.activeCycle ≠ "" →
      ∃ row, s.sessions.get? vrow.activeCycle = some row ∧ row.visitor = vt ∧
        cycleStatus row.info ≠ "purged") : Inv (upsertVt s vt vrow) := by
  have hvt : visitorRow (upsertVt s vt vrow) vt = vrow := by simp [visitorRow_upsertVt]
  refine h.update vt (fun c row hrow _ => hrow) (fun v hv => ?_) (fun _ _ _ _ _ hf => hf)
    h.owned ?_ ?_ h.purged
  · simp [visitorRow_upsertVt, hv]
  · rw [hvt]
    exact hactive
  · rw [hvt]
    intro _ _ _ _ hpos
    omega

theorem Inv.book (h : Inv s) {c : String} {row : SessionRow} (hnew : s.sessions.get? c = none)
    (hvisitor : row.visitor ≠ "") : Inv (putSession s c row) := by
  have hkept : ∀ c' row', s.sessions.get? c' = some row' →
      (putSession s c row).sessions.get? c' = some row' := by
    intro c' row' hrow
    rw [session_putSession, if_neg, hrow]
    rintro rfl
    simp [hnew] at hrow
  refine ⟨fun c' row' hrow => ?_, fun v hv => ?_, fun v row' hv hrow hcomplete hpos => ?_,
    fun v c' hmark => ?_⟩
  · rw [session_putSession] at hrow
    split_ifs at hrow
    · simp only [Option.some.injEq] at hrow
      exact hrow ▸ hvisitor
    · exact h.owned c' row' hrow
  · obtain ⟨old, hold, hrest⟩ := h.active v hv
    exact ⟨old, hkept _ old hold, hrest⟩
  · obtain ⟨old, hold, -⟩ := h.active v hv
    obtain rfl : old = row' := by
      simpa [hkept _ old hold] using hrow
    exact h.cool v old hv hold hcomplete hpos
  · obtain ⟨old, hold, hrest⟩ := h.purged v c' hmark
    exact ⟨old, hkept _ old hold, hrest⟩

theorem Inv.resume (h : Inv s) {vt c : String} {row : SessionRow} {info : Fields}
    {vrow : VisitorRow} (hvt : vt ≠ "") (hrow : s.sessions.get? c = some row)
    (hvisitor : row.visitor = vt) (hinfo : cycleStatus info = "active")
    (hactive : vrow.activeCycle = c) (hunpurged : Unpurged s c) :
    Inv (upsertVt (putSession s c { row with visitor := vt, info := info }) vt vrow) := by
  set s' := upsertVt (putSession s c { row with visitor := vt, info := info }) vt vrow
  have hown : visitorRow s' vt = vrow := by simp [s', visitorRow_upsertVt]
  have hc : s'.sessions.get? c = some { row with visitor := vt, info := info } := by
    simp [s', session_putSession]
  have hother : ∀ c', c' ≠ c → s'.sessions.get? c' = s.sessions.get? c' := by
    intro c' hne
    simp [s', session_putSession, hne]
  refine h.update vt (fun c' row' hrow' hne => ?_) (fun v hv => ?_) (fun _ _ _ _ _ hf => hf)
    (fun c' row' hrow' => ?_) (fun _ => ?_) (fun row' _ hrow' hcomplete _ => ?_)
    (fun v c' hmark => ?_)
  · rw [hother c', hrow']
    rintro rfl
    rw [hrow, Option.some.injEq] at hrow'
    exact hne (hrow' ▸ hvisitor)
  · simp [s', visitorRow_upsertVt, hv]
  · by_cases hc' : c' = c
    · subst hc'
      rw [hc, Option.some.injEq] at hrow'
      simpa [← hrow'] using hvt
    · rw [hother c' hc'] at hrow'
      exact h.owned c' row' hrow'
  · rw [hown, hactive]
    exact ⟨_, hc, rfl, by simp [hinfo]⟩
  · rw [hown, hactive, hc, Option.some.injEq] at hrow'
    subst hrow'
    simp [hinfo] at hcomplete
  · obtain ⟨old, hold, hrest⟩ := h.purged v c' hmark
    have hc' : c' ≠ c := by
      rintro rfl
      exact hunpurged v hmark
    exact ⟨old, (hother c' hc').trans hold, hrest⟩

theorem Inv.complete (h : Inv s) (cfg : Config) (now : ℕ) {c : String} {row : SessionRow}
    (hrow : s.sessions.get? c = some row) : Inv (completeRow cfg now c row s) := by
  set s' := completeRow cfg now c row s
  have hown : visitorRow s' row.visitor = ⟨now, grantedCool cfg s c row.info now, c,
      completedVersion cfg s c row.info⟩ := by
    simp [s', visitorRow_completeRow]
  have hc := session_completeRow cfg s now c row c
  rw [if_pos rfl] at hc
  have hother : ∀ c', c' ≠ c → s'.sessions.get? c' = s.sessions.get? c' := by
    intro c' hne
    simp [s', session_completeRow, hne]
  have hmarks : ∀ v c', .purged v c' ∈ s'.journal ↔ .purged v c' ∈ s.journal := by
    simp [s']
  refine h.update row.visitor (fun c' row' hrow' hne => ?_) (fun v hv => ?_)
    (fun v c' _ _ _ hf => ?_) (fun c' row' hrow' => ?_) (fun _ => ?_)
    (fun row' _ _ _ hpos => ?_) (fun v c' hmark => ?_)
  · rw [hother c', hrow']
    rintro rfl
    rw [hrow, Option.some.injEq] at hrow'
    exact hne (hrow' ▸ rfl)
  · simp [s', visitorRow_completeRow, hv]
  · exact ⟨by simp [s', hf.1], fun w hw => hf.2 w ((hmarks w c').mp hw)⟩
  · by_cases hc' : c' = c
    · subst hc'
      rw [hc, Option.some.injEq] at hrow'
      simpa [← hrow'] using h.owned c' row hrow
    · rw [hother c' hc'] at hrow'
      exact h.owned c' row' hrow'
  · rw [hown]
    exact ⟨_, hc, rfl, by simp⟩
  · rw [hown] at hpos ⊢
    -- A positive grant needs silicon, which a purged cycle has not.
    have hsilicon : siliconOk s c = true := by
      by_contra hnone
      simp [grantedCool, hnone] at hpos
    refine ⟨by simp [s', hsilicon], fun w hw => ?_⟩
    obtain ⟨_, -, -, hbare⟩ := h.purged w c ((hmarks w c).mp hw)
    simp [hbare.siliconOk] at hsilicon
  · obtain ⟨old, hold, hstatus, hbare⟩ := h.purged v c' ((hmarks v c').mp hmark)
    by_cases hc' : c' = c
    · subst hc'
      exact ⟨_, hc, .inr (by simp), hbare⟩
    · exact ⟨old, (hother c' hc').trans hold, hstatus, hbare⟩

theorem bare_purge (s : Store) (now : ℕ) (c : String) : Bare (purgeCycleEvidence now c s) c := by
  obtain ⟨hbatches, hanalyses⟩ := evidence_purge s now c
  constructor
  · intro b hb hsession
    simp [hbatches, hsession] at hb
  · intro a ha
    rw [hanalyses, List.mem_filter] at ha
    simpa using ha.2

theorem Bare.purge {c' : String} (h : Bare s c') (now : ℕ) (c : String) :
    Bare (purgeCycleEvidence now c s) c' := by
  obtain ⟨hbatches, hanalyses⟩ := evidence_purge s now c
  constructor
  · intro b hb
    rw [hbatches, List.mem_filter] at hb
    exact h.1 b hb.1
  · intro a ha
    rw [hanalyses, List.mem_filter] at ha
    exact h.2 a ha.1

theorem Inv.purge (h : Inv s) (now : ℕ) (c : String) : Inv (purgeCycleEvidence now c s) := by
  have hbare := bare_purge s now c
  cases hrow : s.sessions.get? c with
  | none =>
      have hgone : purgeCycleEvidence now c s = withoutEvidence s c := by
        simp [purgeCycleEvidence, hrow]
      refine h.evidence (by rw [hgone]; rfl) (by rw [hgone]; rfl) (by rw [hgone]; rfl)
        fun v c' _ hc' => hc'.purge now c
  | some row =>
      set s' := purgeCycleEvidence now c s
      have hc : s'.sessions.get? c = some { row with info := purgedInfo row.info now } := by
        simp [s', session_purge, hrow]
      have hother : ∀ c', c' ≠ c → s'.sessions.get? c' = s.sessions.get? c' := by
        intro c' hne
        simp [s', session_purge, hne]
      have hjournal : s'.journal = s.journal ++ [.purged row.visitor c] := by
        simp [s', journal_purge, hrow]
      have howned : row.visitor ≠ "" := h.owned c row hrow
      have hvisitor : visitorRow s' row.visitor =
          if (visitorRow s row.visitor).activeCycle = c then
            { visitorRow s row.visitor with activeCycle := "" }
          else visitorRow s row.visitor := by
        simp [s', visitorRow_purge, hrow, howned]
      refine h.update row.visitor (fun c' row' hrow' hne => ?_) (fun v hv => ?_)
        (fun v c' row' hrow' hne hf => ?_) (fun c' row' hrow' => ?_) (fun hactive => ?_)
        (fun row' hactive hrow' hcomplete hpos => ?_) (fun v c' hmark => ?_)
      · rw [hother c', hrow']
        rintro rfl
        rw [hrow, Option.some.injEq] at hrow'
        exact hne (hrow' ▸ rfl)
      · have hne : ¬ row.visitor = v := fun heq => hv heq.symm
        simp [s', visitorRow_purge, hrow, hne]
      · have hne' : c' ≠ c := by
          rintro rfl
          rw [hrow, Option.some.injEq] at hrow'
          exact hne (hrow' ▸ rfl)
        exact hf.mark hjournal fun w heq => hne' (Mark.purged.inj heq).2.symm
      · by_cases hc' : c' = c
        · subst hc'
          rw [hc, Option.some.injEq] at hrow'
          simpa [← hrow'] using howned
        · rw [hother c' hc'] at hrow'
          exact h.owned c' row' hrow'
      · rw [hvisitor] at hactive ⊢
        split_ifs at hactive ⊢ with hcurrent
        · simp at hactive
        · rw [hother _ hcurrent]
          exact h.active row.visitor hactive
      · rw [hvisitor] at hactive hrow' hpos ⊢
        split_ifs at hactive hrow' hpos ⊢ with hcurrent
        · simp at hactive
        · rw [hother _ hcurrent] at hrow'
          exact (h.cool row.visitor row' hactive hrow' hcomplete hpos).mark hjournal
            fun w heq => hcurrent (Mark.purged.inj heq).2.symm
      · by_cases hc' : c' = c
        · subst hc'
          exact ⟨_, hc, .inl (by simp), hbare⟩
        · have hold : .purged v c' ∈ s.journal := by
            rw [hjournal] at hmark
            simpa [hc'] using hmark
          obtain ⟨old, hstored, hstatus, hbare'⟩ := h.purged v c' hold
          exact ⟨old, (hother c' hc').trans hstored, hstatus, hbare'.purge now c⟩

theorem Bare.putBatch {c : String} (h : Bare s c) {key : BatchKey}
    (hkey : key.session = c → key.batch ≠ "B10_hw_curves") : Bare (putBatch s key) c := by
  unfold CycleStore.putBatch
  split
  · exact h
  · refine ⟨fun b hb => ?_, h.2⟩
    simp only [List.mem_append, List.mem_singleton] at hb
    obtain hb | rfl := hb
    · exact h.1 b hb
    · exact hkey

theorem Inv.putBatch (h : Inv s) {key : BatchKey}
    (hkey : ∀ v, .purged v key.session ∈ s.journal → key.batch ≠ "B10_hw_curves") :
    Inv (putBatch s key) := by
  refine h.evidence (by simp) ?_ (by simp) fun v c hmark hc => hc.putBatch ?_
  · unfold CycleStore.putBatch
    split <;> rfl
  · rintro rfl
    exact hkey v hmark

theorem Inv.write (h : Inv s) {cfg : Config} {vt : String} (hvt : vt ≠ "")
    (hw : Write cfg vt Unpurged s s') : Inv s' := by
  cases hw with
  | settle row hcool hactive =>
      refine h.upsert hcool fun hne => ?_
      obtain hnone | hsame := hactive
      · exact absurd hnone hne
      · rw [hsame] at hne ⊢
        exact h.active vt hne
  | book c row hnew hvisitor => exact h.book hnew (hvisitor ▸ hvt)
  | promote c row vrow hrow hvisitor hstatus hcool hactive =>
      refine h.upsert hcool fun _ => ⟨row, hactive ▸ hrow, hvisitor, ?_⟩
      simp [hstatus]
  | resume c row info vrow hrow howned hstatus hinfo hactive hmay =>
      have hvisitor : row.visitor = vt := howned.resolve_right (h.owned c row hrow)
      exact h.resume hvt hrow hvisitor hinfo hactive hmay
  | bond c => exact h.putBatch fun _ _ => by simp
  | complete now c row hrow howned => exact h.complete cfg now hrow
  | purge now c => exact h.purge now c

theorem Inv.writes (h : Inv s) {cfg : Config} {vt : String} (hvt : vt ≠ "")
    (hw : Writes cfg vt Unpurged s s') : Inv s' := by
  induction hw with
  | refl => exact h
  | tail _ hlast ih => exact ih.write hvt hlast

end Keeps

end CycleStore

end GrServer
