import GrServer.SubjectReach

/-!
# When an erasure is honest

The erase answers `ok` whenever the sessions were resolved.  What it leaves
behind is decided row by row: a row of the subject has to meet a statement that
removes it, or clears its mark, and that does not fail.  The rows that refer to
a session have to be gone before the sessions are deleted, or that delete is
refused.
-/

namespace GrServer

namespace SubjectErase

open Tables SideStore

/-- An erase that answers `ok` has left nothing of the subject, and a later
export is empty; otherwise it answers with an error. -/
def Honest (sql : Sql) (turns : ℕ → Turn) (db : Store) (kind value : String) :
    Prop :=
  match dsarErase sql turns db kind value with
  | (.error _, _) => True
  | (.ok out, left) =>
      out.ok = true →
        (∀ k sessions, SubjectKind.parse kind = some k →
          dsarResolveSessions sql db kind value = .ok sessions →
            ∀ t, ∀ r ∈ left t, marked k value sessions t r = false) ∧
        ∃ bundle, dsarExport sql.answering left kind value = .ok bundle ∧
          bundle.isEmpty

theorem forall_resolved_iff {sql : Sql} {db : Store} {kind value : String}
    {k : SubjectKind} {sessions : List String}
    (hparse : SubjectKind.parse kind = some k)
    (hresolve : dsarResolveSessions sql db kind value = .ok sessions)
    (P : SubjectKind → List String → Prop) :
    (∀ k' sessions', SubjectKind.parse kind = some k' →
      dsarResolveSessions sql db kind value = .ok sessions' → P k' sessions') ↔
      P k sessions := by
  constructor
  · intro h
    exact h k sessions hparse hresolve
  · intro h k' sessions' hparse' hresolve'
    rw [hparse] at hparse'
    rw [hresolve] at hresolve'
    cases hparse'
    cases hresolve'
    exact h

theorem honest_iff_rowsSettle {sql : Sql} {turns : ℕ → Turn} {db : Store}
    {kind value : String} (hcons : Consistent schemaReferences db)
    {k : SubjectKind} {sessions : List String}
    (hparse : SubjectKind.parse kind = some k)
    (hresolve : dsarResolveSessions sql db kind value = .ok sessions)
    (hlegal : Legal schemaReferences db
      (eraseEvents turns (eraseStatements kind value sessions))) :
    Honest sql turns db kind value ↔ RowsSettle turns db k kind value sessions := by
  obtain ⟨found, hfound, hquery⟩ := query_of_resolve hresolve
  have hsite : k ≠ .siteId := by
    rw [hparse] at hfound
    rw [Option.some.inj hfound]
    exact (sessionQuery_ok hquery).2
  have hsweep : Sweep schemaReferences (marked k value sessions) (statements
      (eraseEvents turns (eraseStatements kind value sessions))) := by
    rw [statements_eraseEvents]
    exact erase_sweep k kind value sessions
  have hiff := clean_run_iff hsweep hcons hlegal
  unfold Honest dsarErase
  rw [hresolve]
  dsimp only
  rw [delEach_fst]
  constructor
  · intro hhonest
    exact hiff.mp ((hhonest rfl).1 k sessions hparse rfl)
  · intro hsettle _
    have hclean := hiff.mpr hsettle
    refine ⟨?_, export_clean sql hparse hsite hclean⟩
    intro k' sessions' hparse' hsessions
    cases hsessions
    rw [hparse] at hparse'
    cases hparse'
    exact hclean

theorem honest_of_unresolved {sql : Sql} (turns : ℕ → Turn) {db : Store}
    {kind value e : String} (h : dsarResolveSessions sql db kind value = .error e) :
    Honest sql turns db kind value := by
  unfold Honest dsarErase
  rw [h]
  trivial

/-- An erase is honest exactly when every row of the subject meets a statement
that clears it, in a database that keeps its references; a quiet one exactly
when there is no stray row. -/
theorem erase_honest_iff (sql : Sql) (turns : ℕ → Turn) (db : Store)
    (kind value : String) (hcons : Consistent schemaReferences db)
    (hlegal : ∀ sessions, dsarResolveSessions sql db kind value = .ok sessions →
      Legal schemaReferences db
        (eraseEvents turns (eraseStatements kind value sessions))) :
    (Honest sql turns db kind value ↔
      ∀ k sessions, SubjectKind.parse kind = some k →
        dsarResolveSessions sql db kind value = .ok sessions →
          RowsSettle turns db k kind value sessions) ∧
    (Quiet turns → InSchema db →
      (Honest sql turns db kind value ↔
        ∀ k sessions, SubjectKind.parse kind = some k →
          dsarResolveSessions sql db kind value = .ok sessions →
            ∀ t, ∀ r ∈ db t, stray k value sessions t r = false)) := by
  cases hresolve : dsarResolveSessions sql db kind value with
  | error e =>
      have hhonest := honest_of_unresolved turns hresolve
      refine ⟨iff_of_true hhonest ?_, fun _ _ => iff_of_true hhonest ?_⟩
      · intro k sessions _ hsessions
        cases hsessions
      · intro k sessions _ hsessions
        cases hsessions
  | ok found =>
      obtain ⟨k, hparse, hquery⟩ := query_of_resolve hresolve
      have hsettle := honest_iff_rowsSettle hcons hparse hresolve
        (hlegal found hresolve)
      rw [← hresolve]
      constructor
      · rw [hsettle, forall_resolved_iff hparse hresolve]
      · intro hquiet hschema
        rw [hsettle, quiet_rowsSettle_iff hquiet hschema (sessionQuery_ok hquery).2
          hparse value found, forall_resolved_iff hparse hresolve]

/-! ## One visitor -/

def record (cells : List (Column × String)) : Record :=
  fun column => cells.lookup column

def sampleStore : Store
  | .sessions => [record [(.sessionId, "s1"), (.visitorTerminalId, "v1")]]
  | .probeBatches => [record [(.sessionId, "s1")]]
  | .deviceSessions => [record [(.deviceId, "d1"), (.sessionId, "s1")]]
  | .devices => [record [(.deviceId, "d1")]]
  | .visitorTerminals => [record [(.vtId, "v1"), (.activeCycleId, "s1")]]
  | _ => []

def sampleSql : Sql where
  queryFails := none
  noOperator := "db error: ERROR: operator does not exist: text ->> unknown"

def quietTurns : ℕ → Turn := fun _ => ⟨[], false⟩

/-- The delete from `probe_batches` fails. -/
def batchesFail : ℕ → Turn := fun i => ⟨[], decide (i = 5)⟩

theorem sampleStore_consistent : Consistent schemaReferences sampleStore := by
  unfold Consistent
  decide

theorem sampleStore_inSchema : InSchema sampleStore where
  columns := by
    intro t r hr column hcolumn
    cases t
    case sessions | probeBatches | deviceSessions | devices | visitorTerminals =>
      rcases List.mem_singleton.mp hr with rfl
      cases column
      all_goals first
        | rfl
        | exact absurd (by decide) hcolumn
    all_goals exact absurd hr List.not_mem_nil
  key := by
    decide

theorem sample_erase_honest :
    Honest sampleSql quietTurns sampleStore "visitor_terminal_id" "v1" := by
  have hquiet : Quiet quietTurns := fun _ => ⟨rfl, rfl⟩
  have hhonest := erase_honest_iff sampleSql quietTurns sampleStore
    "visitor_terminal_id" "v1" sampleStore_consistent
    (by
      intro sessions _
      rw [eraseEvents_quiet hquiet]
      exact legal_quiet sampleStore _)
  apply (hhonest.2 hquiet sampleStore_inSchema).mpr
  intro k sessions hparse hsessions
  have hresolved : dsarResolveSessions sampleSql sampleStore
      "visitor_terminal_id" "v1" = .ok ["s1"] := by
    decide
  cases hparse
  cases hresolved.symm.trans hsessions
  intro t
  cases t
  all_goals decide

/-- With one failed delete the session stays, and the erase answers `ok`. -/
theorem failed_delete_keeps_session :
    (∃ out, (dsarErase sampleSql batchesFail sampleStore "visitor_terminal_id" "v1").1 =
        .ok out ∧ out.ok = true) ∧
      ¬ Honest sampleSql batchesFail sampleStore "visitor_terminal_id" "v1" := by
  refine ⟨⟨_, rfl, rfl⟩, ?_⟩
  intro hhonest
  have hclean := (hhonest rfl).1 .visitorTerminalId ["s1"] (by decide) (by decide)
  have hleft := hclean .sessions
    (record [(.sessionId, "s1"), (.visitorTerminalId, "v1")]) List.mem_cons_self
  exact absurd hleft (by decide)

end SubjectErase

end GrServer
