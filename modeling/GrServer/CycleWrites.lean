import GrServer.CycleOpen
import Mathlib.Logic.Relation

/-!
# What the operations write

An open, on whichever path, is a sequence of a few kinds of write to the rows of
its visitor.  Completing and purging a cycle are two of the kinds.
-/

namespace GrServer

open Json Text Relation

namespace CycleStore

def visitorRow (s : Store) (v : String) : VisitorRow := (s.visitors.get? v).getD .absent

/-! ## Updates, row by row -/

section Updates

variable (s : Store) (vt c : String)

@[simp] theorem upsertVt_sessions (row : VisitorRow) :
    (upsertVt s vt row).sessions = s.sessions := rfl

@[simp] theorem upsertVt_journal (row : VisitorRow) :
    (upsertVt s vt row).journal = s.journal := rfl

@[simp] theorem putSession_journal (row : SessionRow) :
    (putSession s c row).journal = s.journal := rfl

@[simp] theorem putBatch_sessions (key : BatchKey) :
    (putBatch s key).sessions = s.sessions := by
  unfold putBatch
  split <;> rfl

@[simp] theorem putBatch_journal (key : BatchKey) : (putBatch s key).journal = s.journal := by
  unfold putBatch
  split <;> rfl

theorem visitorRow_upsertVt (row : VisitorRow) (v : String) :
    visitorRow (upsertVt s vt row) v = if v = vt then row else visitorRow s v := by
  simp only [visitorRow, upsertVt, SortedMap.get?_insert]
  split <;> simp

@[simp] theorem visitorRow_putSession (row : SessionRow) (v : String) :
    visitorRow (putSession s c row) v = visitorRow s v := rfl

@[simp] theorem visitorRow_putBatch (key : BatchKey) (v : String) :
    visitorRow (putBatch s key) v = visitorRow s v := by
  unfold putBatch
  split <;> rfl

theorem session_putSession (row : SessionRow) (c' : String) :
    (putSession s c row).sessions.get? c' =
      if c' = c then some row else s.sessions.get? c' := by
  simp only [putSession, SortedMap.get?_insert]

end Updates

/-! ## Completing and purging -/

section Completing

variable (cfg : Config) (s : Store) (now : ℕ) (c : String) (row : SessionRow)

@[simp] theorem cycleStatus_insert_status (info : Fields) (status : String) :
    cycleStatus (info.insert "cycle_status" (.str status)) = status := by
  simp [cycleStatus, asStr]

theorem cycleStatus_insert_other (info : Fields) {k : String} (hk : "cycle_status" ≠ k)
    (v : Json) : cycleStatus (info.insert k v) = cycleStatus info := by
  simp [cycleStatus, SortedMap.get?_insert_of_ne hk]

@[simp] theorem cycleStatus_completedInfo (info : Fields) (silicon : Bool) (version : String) :
    cycleStatus (completedInfo info now silicon version) = "complete" := by
  unfold completedInfo
  cases silicon <;> by_cases hversion : version = "" <;>
    simp [hversion, cycleStatus_insert_other]

theorem session_completeRow (c' : String) :
    (completeRow cfg now c row s).sessions.get? c' =
      if c' = c then
        some { row with info := completedInfo row.info now (siliconOk s c)
                                 (completedVersion cfg s c row.info) }
      else s.sessions.get? c' := by
  simp only [completeRow, upsertVt_sessions, session_putSession]

theorem visitorRow_completeRow (v : String) :
    visitorRow (completeRow cfg now c row s) v =
      if v = row.visitor then
        ⟨now, grantedCool cfg s c row.info now, c, completedVersion cfg s c row.info⟩
      else visitorRow s v := by
  simp only [completeRow]
  exact visitorRow_upsertVt _ _ _ _

@[simp] theorem journal_completeRow :
    (completeRow cfg now c row s).journal =
      s.journal ++ [.completed row.visitor c (siliconOk s c)] := rfl

@[simp] theorem forgetActive_sessions (vt : String) :
    (forgetActive s vt c).sessions = s.sessions := by
  unfold forgetActive
  split
  · rfl
  · split <;> rfl

@[simp] theorem forgetActive_journal (vt : String) :
    (forgetActive s vt c).journal = s.journal := by
  unfold forgetActive
  split
  · rfl
  · split <;> rfl

theorem visitorRow_forgetActive (vt v : String) :
    visitorRow (forgetActive s vt c) v =
      if v = vt ∧ (visitorRow s v).activeCycle = c then
        { visitorRow s v with activeCycle := "" }
      else visitorRow s v := by
  unfold forgetActive
  cases hrow : s.visitors.get? vt with
  | none =>
      by_cases hv : v = vt
      · subst hv
        simp [visitorRow, hrow, VisitorRow.absent]
      · simp [hv]
  | some vrow =>
      have hvt : visitorRow s vt = vrow := by simp [visitorRow, hrow]
      by_cases hactive : vrow.activeCycle = c
      · simp only [hactive, if_true, visitorRow_upsertVt]
        by_cases hv : v = vt
        · simp [hv, hvt, hactive]
        · simp [hv]
      · by_cases hv : v = vt
        · simp [hv, hvt, hactive]
        · simp [hv, hactive]

@[simp] theorem cycleStatus_purgedInfo (info : Fields) :
    cycleStatus (purgedInfo info now) = "purged" := by
  simp [purgedInfo, cycleStatus_insert_other]

theorem session_purge (c' : String) :
    (purgeCycleEvidence now c s).sessions.get? c' =
      if c' = c then
        (s.sessions.get? c).map fun row => { row with info := purgedInfo row.info now }
      else s.sessions.get? c' := by
  unfold purgeCycleEvidence
  cases hrow : s.sessions.get? c with
  | none =>
      by_cases hc : c' = c
      · simp [hc, withoutEvidence, hrow]
      · simp [hc, withoutEvidence]
  | some row =>
      have hput := session_putSession (withoutEvidence s c) c
        { row with info := purgedInfo row.info now } c'
      simp only [Option.map_some]
      split
      · exact hput
      · rw [forgetActive_sessions]
        exact hput

theorem journal_purge :
    (purgeCycleEvidence now c s).journal =
      s.journal ++ ((s.sessions.get? c).map fun row => .purged row.visitor c).toList := by
  unfold purgeCycleEvidence
  cases hrow : s.sessions.get? c with
  | none => simp [withoutEvidence]
  | some row =>
      simp only [Option.map_some, Option.toList_some]
      split
      · rfl
      · rw [forgetActive_journal]

theorem evidence_purge :
    (purgeCycleEvidence now c s).batches = s.batches.filter (·.session ≠ c) ∧
      (purgeCycleEvidence now c s).analyses = s.analyses.filter (·.session ≠ c) := by
  unfold purgeCycleEvidence forgetActive
  cases s.sessions.get? c with
  | none => exact ⟨rfl, rfl⟩
  | some row =>
      dsimp only
      split
      · exact ⟨rfl, rfl⟩
      · split
        · exact ⟨rfl, rfl⟩
        · split <;> exact ⟨rfl, rfl⟩

theorem visitorRow_purge (v : String) :
    visitorRow (purgeCycleEvidence now c s) v =
      if (s.sessions.get? c).any (fun row => row.visitor = v ∧ v ≠ "") ∧
          (visitorRow s v).activeCycle = c then
        { visitorRow s v with activeCycle := "" }
      else visitorRow s v := by
  unfold purgeCycleEvidence
  cases hrow : s.sessions.get? c with
  | none => simp [withoutEvidence, visitorRow]
  | some row =>
      simp only [Option.any_some]
      split
      · rename_i hvisitor
        have hv : ¬ (row.visitor = v ∧ v ≠ "") := fun h => h.2 (h.1 ▸ hvisitor)
        simp only [hv, decide_false, Bool.false_eq_true, false_and, if_false]
        rfl
      · rename_i hvisitor
        rw [visitorRow_forgetActive]
        have hv : (v = row.visitor) ↔ (row.visitor = v ∧ v ≠ "") :=
          ⟨fun h => ⟨h.symm, h ▸ hvisitor⟩, fun h => h.1.symm⟩
        simp only [hv, decide_eq_true_eq]
        rfl

end Completing

/-- One write of an open by `vt`; `may` says which cycles it may resume. -/
inductive Write (cfg : Config) (vt : String) (may : Store → String → Prop) (s : Store) :
    Store → Prop
  | settle (row : VisitorRow) (hcool : row.coolUntil = 0)
      (hactive : row.activeCycle = "" ∨ row.activeCycle = (visitorRow s vt).activeCycle) :
      Write cfg vt may s (upsertVt s vt row)
  | book (c : String) (row : SessionRow) (hnew : s.sessions.get? c = none)
      (hvisitor : row.visitor = vt) : Write cfg vt may s (putSession s c row)
  | promote (c : String) (row : SessionRow) (vrow : VisitorRow)
      (hrow : s.sessions.get? c = some row) (hvisitor : row.visitor = vt)
      (hstatus : cycleStatus row.info = "active") (hcool : vrow.coolUntil = 0)
      (hactive : vrow.activeCycle = c) : Write cfg vt may s (upsertVt s vt vrow)
  | resume (c : String) (row : SessionRow) (info : Fields) (vrow : VisitorRow)
      (hrow : s.sessions.get? c = some row) (howned : row.visitor = vt ∨ row.visitor = "")
      (hstatus : cycleStatus row.info ≠ "complete") (hinfo : cycleStatus info = "active")
      (hactive : vrow.activeCycle = c) (hmay : may s c) :
      Write cfg vt may s
        (upsertVt (putSession s c { row with visitor := vt, info := info }) vt vrow)
  | bond (c : String) : Write cfg vt may s (putBatch s ⟨c, "B8_gateway", "gateway"⟩)
  | complete (now : ℕ) (c : String) (row : SessionRow) (hrow : s.sessions.get? c = some row)
      (howned : row.visitor = vt ∨ row.visitor = "") :
      Write cfg vt may s (completeRow cfg now c row s)
  | purge (now : ℕ) (c : String) : Write cfg vt may s (purgeCycleEvidence now c s)

abbrev Writes (cfg : Config) (vt : String) (may : Store → String → Prop) : Store → Store → Prop :=
  ReflTransGen (Write cfg vt may)

/-! ## The gate -/

section Gate

variable (cfg : Config) (may : Store → String → Prop) (s : Store) (e : Entry)

def Loaded (s : Store) (e : Entry) : Prop :=
  e.row.activeCycle = (visitorRow s e.vt).activeCycle

theorem bookCycle_writes (c : String) : Writes cfg e.vt may s (bookCycle s e c) := by
  unfold bookCycle
  split
  · rename_i hnew
    exact .single (.book c _ (by simpa using hnew) rfl)
  · exact .refl

@[simp] theorem visitorRow_bookCycle (c v : String) :
    visitorRow (bookCycle s e c) v = visitorRow s v := by
  unfold bookCycle
  split <;> rfl

theorem coolGate_writes (hint : Option String) (forced : Bool) (h : Loaded s e) :
    Writes cfg e.vt may s (coolGate s hint forced e).1 := by
  simp only [coolGate]
  split_ifs
  · exact .single (.settle _ rfl (.inr h))
  · exact bookCycle_writes cfg may s e _
  · refine (bookCycle_writes cfg may s e _).tail (.settle _ rfl (.inr ?_))
    exact (visitorRow_bookCycle s e _ e.vt).symm ▸ h
  · exact .refl

def Stamped (e : Entry) (info : Fields) : Prop :=
  e.productVersion ≠ "" → info.get? "product_version" = some (.str e.productVersion)

theorem Stamped.insert {e : Entry} {info : Fields} (h : Stamped e info) {k : String}
    (hk : "product_version" ≠ k) (v : Json) : Stamped e (info.insert k v) := by
  intro hversion
  rw [SortedMap.get?_insert_of_ne hk]
  exact h hversion

theorem productVersionFromMeta_insert {info : Fields} {k : String} (v : Json)
    (hproduct : "product_version" ≠ k) (hversion : "version" ≠ k) (hsdk : "sdk_v" ≠ k) :
    productVersionFromMeta (info.insert k v) = productVersionFromMeta info := by
  simp [productVersionFromMeta, SortedMap.get?_insert_of_ne hproduct,
    SortedMap.get?_insert_of_ne hversion, SortedMap.get?_insert_of_ne hsdk]

theorem forceIdentity_insert {info : Fields} {k : String} (v : Json)
    (hidentity : "force_identity" ≠ k) (hreprobe : "force_reprobe" ≠ k) :
    forceIdentity (info.insert k v) = forceIdentity info := by
  simp [forceIdentity, SortedMap.get?_insert_of_ne hidentity,
    SortedMap.get?_insert_of_ne hreprobe]

structure Passed (s : Store) (e : Entry) (s' : Store) (e' : Entry) : Prop where
  vt : e'.vt = e.vt
  row : e'.row = e.row
  reading : e'.reading = e.reading
  productVersion : e'.productVersion = e.productVersion
  active : (visitorRow s' e.vt).activeCycle = e.row.activeCycle
  sessions : ∀ c row, s.sessions.get? c = some row → s'.sessions.get? c = some row
  journal : s'.journal = s.journal
  kept : s' = s ∧ e' = e ∨ (visitorRow s' e.vt).coolUntil = 0
  stamped : Stamped e e.info → Stamped e' e'.info
  version : productVersionFromMeta e'.info = productVersionFromMeta e.info
  forced : forceIdentity e'.info = false → forceIdentity e.info = false

theorem bookCycle_sessions {c c' : String} {row : SessionRow}
    (hrow : s.sessions.get? c' = some row) :
    (bookCycle s e c).sessions.get? c' = some row := by
  unfold bookCycle
  split
  · rename_i hnew
    rw [session_putSession, if_neg, hrow]
    rintro rfl
    simp [hrow] at hnew
  · exact hrow

theorem coolGate_passed {hint : Option String} {forced : Bool} {s' : Store} {e' : Entry}
    (hloaded : Loaded s e) (h : coolGate s hint forced e = (s', .error e')) :
    Passed s e s' e' := by
  simp only [coolGate] at h
  split_ifs at h
  · simp only [Prod.mk.injEq, Except.error.injEq] at h
    obtain ⟨rfl, rfl⟩ := h
    refine ⟨rfl, rfl, rfl, rfl, ?_, fun _ _ hrow => hrow, rfl, .inr ?_,
      fun hstamped => (hstamped.insert (by decide) _).insert (by decide) _, ?_, ?_⟩
    · simp [visitorRow_upsertVt]
    · simp [visitorRow_upsertVt]
    · simp [invalidateCool, productVersionFromMeta_insert]
    · simp [invalidateCool, forceIdentity_insert]
  · simp at h
  · simp only [Prod.mk.injEq, Except.error.injEq] at h
    obtain ⟨rfl, rfl⟩ := h
    refine ⟨rfl, rfl, rfl, rfl, ?_, fun _ _ hrow => bookCycle_sessions s e hrow, ?_, .inr ?_,
      fun hstamped => (hstamped.insert (by decide) _).insert (by decide) _, ?_, ?_⟩
    · simp [visitorRow_upsertVt]
    · unfold bookCycle
      split <;> rfl
    · simp [visitorRow_upsertVt]
    · simp [productVersionFromMeta_insert]
    · simp [forceIdentity, asBool]
  · simp only [Prod.mk.injEq, Except.error.injEq] at h
    obtain ⟨rfl, rfl⟩ := h
    exact ⟨rfl, rfl, rfl, rfl, hloaded.symm, fun _ _ hrow => hrow, rfl, .inl ⟨rfl, rfl⟩,
      fun h => h, rfl, fun h => h⟩

end Gate

/-! ## The paths -/

section Paths

variable (cfg : Config) (may : Store → String → Prop) (s : Store) (e : Entry)

theorem attach_writes (c : String) (now : ℕ) :
    Writes cfg e.vt may s (attachOrphanB8ForVt s e.vt c now).1 := by
  unfold attachOrphanB8ForVt
  split_ifs
  · exact .refl
  · exact .single (.bond c)
  · exact .refl

@[simp] theorem cycleStatus_resumedInfo (row : SessionRow) :
    cycleStatus (resumedInfo e row) = "active" := by
  unfold resumedInfo
  split <;> simp [cycleStatus_insert_other]

theorem resume_writes {c : String} {row : SessionRow} (converged : Option Bool)
    (hrow : s.sessions.get? c = some row) (howned : ownedBy e row = true)
    (hstatus : cycleStatus row.info ≠ "complete") (hmay : may s c) :
    Writes cfg e.vt may s (resume s e c row converged).1 := by
  have hresume : Write cfg e.vt may s _ := .resume c row (resumedInfo e row)
    { e.row with coolUntil := e.coolUntil, activeCycle := c } hrow
    (by simpa [ownedBy] using howned) hstatus (by simp) rfl hmay
  exact (ReflTransGen.single hresume).trans (attach_writes cfg may _ e c e.reading.inner)

theorem resumeOrHeal_writes {c : String} {row : SessionRow} (converged : Option Bool)
    (hrow : s.sessions.get? c = some row) (howned : ownedBy e row = true)
    (hstatus : cycleStatus row.info ≠ "complete") (hmay : may s c) :
    Writes cfg e.vt may s (resumeOrHeal cfg s e c row converged).1 := by
  unfold resumeOrHeal
  split_ifs
  · exact .single (.complete _ c row hrow (by simpa [ownedBy] using howned))
  · exact resume_writes cfg may s e converged hrow howned hstatus hmay

theorem mintCycle_writes (info : Fields) (hint : Option String)
    (reason : Option ReprobeReason) :
    Writes cfg e.vt may s (mintCycle s e info hint reason).1 := by
  unfold mintCycle
  set cycle := "cycle_" ++ e.reading.mint
  set minted := (info.insert "cycle_status" (.str "active")).insert "cycle_id" (.str cycle)
  have hstatus : cycleStatus minted = "active" := by
    simp [minted, cycleStatus_insert_other]
  by_cases htaken : (s.sessions.get? cycle).isSome = true
  · simp only [htaken, if_true]
    exact .refl
  have hbook : Writes cfg e.vt may s (putSession s cycle ⟨e.vt, e.reading.now, minted⟩) :=
    .single (.book cycle _ (by simpa using htaken) rfl)
  have hpromote := hbook.tail (.promote cycle ⟨e.vt, e.reading.now, minted⟩
    { e.row with coolUntil := 0, activeCycle := cycle } (by simp [session_putSession]) rfl
    hstatus rfl rfl)
  simp only [htaken, if_false, Bool.false_eq_true]
  cases hint with
  | none =>
      by_cases hversion : e.productVersion = ""
      · simpa [hversion] using hbook
      · simpa [hversion] using hpromote
  | some h => exact hpromote.trans (attach_writes cfg may _ e cycle e.reading.inner)

theorem storedHint_writes {hint : String} {row : SessionRow}
    (hrow : s.sessions.get? hint = some row)
    (hmay : resumable cfg e row = true → may s hint) :
    Writes cfg e.vt may s (storedHint cfg s e hint row).1 := by
  unfold storedHint
  split_ifs with hresumable
  · have hchecks := hresumable
    simp only [resumable, Bool.and_eq_true, decide_eq_true_eq, ne_eq] at hchecks
    obtain ⟨⟨⟨hstatus, -⟩, -⟩, howned⟩ := hchecks
    exact resumeOrHeal_writes cfg may s e none hrow howned hstatus (hmay hresumable)
  · exact mintCycle_writes cfg may s e _ _ _

theorem unknownHint_writes {hint : String} (hnew : s.sessions.get? hint = none) :
    Writes cfg e.vt may s (unknownHint cfg s e hint).1 := by
  unfold unknownHint
  set minted := (e.info.insert "cycle_status" (.str "active")).insert "cycle_id" (.str hint)
  have hstatus : cycleStatus minted = "active" := by
    simp [minted, cycleStatus_insert_other]
  have hbook : Writes cfg e.vt may s (putSession s hint ⟨e.vt, e.reading.now, minted⟩) :=
    .single (.book hint _ hnew rfl)
  have hpromote := hbook.tail (.promote hint ⟨e.vt, e.reading.now, minted⟩
    { e.row with coolUntil := 0, activeCycle := hint } (by simp [session_putSession]) rfl
    hstatus rfl rfl)
  split_ifs
  · exact .refl
  · exact hbook.trans (attach_writes cfg may _ e hint e.reading.inner)
  · exact hpromote.trans (attach_writes cfg may _ e hint e.reading.inner)

theorem activePath_writes (hint : Option String)
    (hmay : ∀ row, s.sessions.get? e.row.activeCycle = some row →
      cycleStatus row.info = "active" ∨ cycleStatus row.info = "" →
      may s e.row.activeCycle) :
    Writes cfg e.vt may s (activePath cfg s e hint).1 := by
  unfold activePath
  split
  · exact mintCycle_writes cfg may s e _ _ _
  · rename_i row hactive
    have hrow : s.sessions.get? e.row.activeCycle = some row := by
      split_ifs at hactive with hnone
      exact hactive
    split_ifs with hexpired hversion hresumable
    · exact (ReflTransGen.single (.purge _ _)).tail (.settle _ rfl (.inl rfl))
    · exact (ReflTransGen.single (.settle _ rfl (.inl rfl))).trans
        (mintCycle_writes cfg may _ e _ _ _)
    · obtain ⟨hstatus, howned, -, -⟩ := hresumable
      refine resumeOrHeal_writes cfg may s e _ hrow howned ?_ (hmay row hrow hstatus)
      obtain hstatus | hstatus := hstatus <;> simp [hstatus]
    · exact mintCycle_writes cfg may s e _ _ _

theorem openPath_writes (hint : Option String)
    (hactive : ∀ row, s.sessions.get? e.row.activeCycle = some row →
      cycleStatus row.info = "active" ∨ cycleStatus row.info = "" →
      may s e.row.activeCycle)
    (hhint : ∀ h row, hint = some h → s.sessions.get? h = some row →
      resumable cfg e row = true → may s h) :
    Writes cfg e.vt may s (openPath cfg s e hint).1 := by
  unfold openPath
  cases hfilter : hint.filter (· ≠ "") with
  | none => exact activePath_writes cfg may s e hint hactive
  | some h =>
      have hsome : hint = some h := (Option.filter_eq_some_iff.mp hfilter).1
      cases hrow : s.sessions.get? h with
      | none =>
          simp only [hrow]
          exact unknownHint_writes cfg may s e hrow
      | some row =>
          simp only [hrow]
          exact storedHint_writes cfg may s e hrow (hhint h row hsome hrow)

end Paths

end CycleStore

end GrServer
