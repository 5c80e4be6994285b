import GrServer.SubjectErase

/-!
# The marks of a subject

A row is marked if it carries a session of the subject or the selector value.
The statements of the erase are a sweep of the schema, and a store without
marks exports nothing.
-/

namespace GrServer

namespace SubjectErase

open Tables SideStore

/-! ## What may not be left -/

def sessionColumns : List Column :=
  [.sessionId, .aSession, .bSession, .lastSessionId, .activeCycleId]

def valueColumns : SubjectKind → List Column
  | .visitorTerminalId => [.visitorTerminalId, .vtId]
  | .deviceId => [.deviceId, .keyValue]
  | .clientIp => [.clientIp, .lastClientIp, .keyValue]
  | .siteId => [.siteId, .tenantId]

def selectorForms (kind : SubjectKind) (value : String) : List String :=
  match kind with
  | .clientIp => [value, dsarMaskIp value]
  | _ => [value]

def marked (kind : SubjectKind) (value : String) (sessions : List String)
    (_ : Table) (r : Record) : Bool :=
  (sessionColumns.any fun column => holds column sessions r) ||
    (valueColumns kind).any fun column => holds column (selectorForms kind value) r

def Sql.answering (sql : Sql) : Sql := { sql with queryFails := none }

def eraseEvents : (ℕ → Turn) → List Query → List DbEvent
  | _, [] => []
  | turns, st :: sts =>
      (turns 0).commits ++ .statement st (turns 0).fails ::
        eraseEvents (fun i => turns (i + 1)) sts

/-- Every row of the tables, or committed meanwhile, settles under the
statements it meets. -/
def RowsSettle (turns : ℕ → Turn) (db : Store) (kind : SubjectKind)
    (kindText value : String) (sessions : List String) : Prop :=
  AllSettle schemaReferences (marked kind value sessions) db
    (eraseEvents turns (eraseStatements kindText value sessions))

theorem statements_commits (turn : Turn) : statements turn.commits = [] := by
  unfold statements Turn.commits
  rw [List.filterMap_map, List.filterMap_eq_nil_iff]
  intro ingest hingest
  rfl

theorem statements_eraseEvents (turns : ℕ → Turn) (sts : List Query) :
    statements (eraseEvents turns sts) = sts := by
  induction sts generalizing turns with
  | nil => rfl
  | cons st sts ih =>
      unfold eraseEvents
      rw [statements_append, statements_commits, List.nil_append]
      change st :: statements _ = st :: sts
      rw [ih]

theorem delEach_fst (turns : ℕ → Turn) (sts : List Query)
    (acc : Store × SortedMap String ℕ) :
    (delEach turns sts acc).1 =
      run schemaReferences acc.1 (eraseEvents turns sts) := by
  induction sts generalizing turns acc with
  | nil => rfl
  | cons st sts ih =>
      unfold delEach eraseEvents
      rw [ih]
      unfold run delAny
      rw [List.foldl_append]
      rfl

/-! ## The statements look at keys -/

theorem parents_of_references :
    ∀ ref ∈ schemaReferences,
      (ref.parent = .sessions ∧ ref.key = .sessionId) ∨
        (ref.parent = .devices ∧ ref.key = .deviceId ∧ ref.cascade = true) := by
  decide

theorem references_flat :
    ∀ ref ∈ schemaReferences, ∀ ref' ∈ schemaReferences,
      ref.child ≠ ref'.parent := by
  decide

theorem mem_sessionCascade {sessions : List String} {st : Query}
    (h : st ∈ sessionCascade sessions) :
    st.action = .delete ∧ st.table ≠ .devices ∧
      (st.table = .sessions → st.hits = holds .sessionId sessions) := by
  unfold sessionCascade at h
  split_ifs at h
  · cases h
  · rcases List.mem_append.mp h with hmem | hmem
    · obtain ⟨t, ht, rfl⟩ := List.mem_map.mp hmem
      have hother : ∀ t ∈ sessionTables, t ≠ .devices := by decide
      exact ⟨rfl, hother t ht, fun _ => rfl⟩
    · rw [List.mem_cons, List.mem_singleton] at hmem
      rcases hmem with rfl | rfl
      · simp [deleteFrom]
      · simp [deleteFrom]

theorem mem_selectorDirect {kind : SubjectKind} {value : String} {st : Query}
    (h : st ∈ selectorDirect kind value) :
    st.table ≠ .sessions ∧
      (st.table = .devices →
        st.action = .delete ∧ st.hits = holds .deviceId [value] ∨
          st.action = .setNull .lastClientIp) := by
  cases kind with
  | visitorTerminalId =>
      simp only [selectorDirect, List.mem_cons, List.not_mem_nil, or_false] at h
      rcases h with rfl | rfl | rfl | rfl
      all_goals simp [deleteFrom]
  | deviceId =>
      simp only [selectorDirect, List.mem_cons, List.not_mem_nil, or_false] at h
      rcases h with rfl | rfl | rfl | rfl | rfl | rfl | rfl | rfl
      all_goals simp [deleteFrom, setNull]
  | clientIp =>
      simp only [selectorDirect, List.map_cons, List.map_nil, List.cons_append,
        List.nil_append, List.mem_cons, List.not_mem_nil, or_false] at h
      rcases h with rfl | rfl | rfl | rfl | rfl | rfl | rfl | rfl
      all_goals simp [deleteFrom, setNull]
  | siteId =>
      simp only [selectorDirect, List.mem_cons, List.not_mem_nil, or_false] at h
      rcases h with rfl | rfl | rfl | rfl
      all_goals simp [deleteFrom]

theorem mem_eraseStatements {kind value : String} {sessions : List String}
    {st : Query} (h : st ∈ eraseStatements kind value sessions) :
    st ∈ sessionCascade sessions ∨ ∃ k, st ∈ selectorDirect k value := by
  unfold eraseStatements at h
  rcases List.mem_append.mp h with hmem | hmem
  · exact Or.inl hmem
  · cases hparse : SubjectKind.parse kind with
    | none =>
        rw [hparse] at hmem
        cases hmem
    | some k =>
        rw [hparse] at hmem
        exact Or.inr ⟨k, hmem⟩

theorem holds_eq (column : Column) (values : List String) :
    ∃ f : Option String → Bool, f none = false ∧
      ∀ r : Record, holds column values r = f (r column) := by
  refine ⟨fun x => x.any fun v => decide (v ∈ values), rfl, ?_⟩
  intro r
  unfold holds
  cases r column with
  | none => rfl
  | some v => rfl

theorem marked_of_session {kind : SubjectKind} {value : String}
    {sessions : List String} {t : Table} {r : Record}
    (h : holds .sessionId sessions r = true) :
    marked kind value sessions t r = true := by
  unfold marked
  rw [Bool.or_eq_true, List.any_eq_true]
  exact Or.inl ⟨.sessionId, by decide, h⟩

theorem sessions_last (kind value : String) (sessions : List String) :
    (eraseStatements kind value sessions).Pairwise fun st later =>
      st.table = .sessions → later.table ≠ .sessions := by
  unfold eraseStatements
  rw [List.pairwise_append]
  refine ⟨?_, ?_, ?_⟩
  · unfold sessionCascade
    split_ifs
    · exact List.Pairwise.nil
    · have hother : ∀ t ∈ sessionTables, t ≠ .sessions := by decide
      rw [List.pairwise_append]
      refine ⟨?_, ?_, ?_⟩
      · apply List.pairwise_of_forall_mem_list
        intro st hst later _ htable
        obtain ⟨t, ht, rfl⟩ := List.mem_map.mp hst
        exact absurd htable (hother t ht)
      · simp [deleteFrom]
      · intro st hst later _ htable
        obtain ⟨t, ht, rfl⟩ := List.mem_map.mp hst
        exact absurd htable (hother t ht)
  · apply List.pairwise_of_forall_mem_list
    intro st _ later hlater _
    split at hlater
    · exact (mem_selectorDirect hlater).1
    · cases hlater
  · intro st _ later hlater _
    split at hlater
    · exact (mem_selectorDirect hlater).1
    · cases hlater

theorem sessions_of_refusable {st : Query} (h : Refusable schemaReferences st) :
    st.table = .sessions := by
  obtain ⟨-, ref, href, hparent, hcascade⟩ := h
  rcases parents_of_references ref href with ⟨hsessions, -⟩ | ⟨-, -, hdevices⟩
  · rw [← hparent]
    exact hsessions
  · rw [hcascade] at hdevices
    cases hdevices

theorem erase_sweep (k : SubjectKind) (kind value : String) (sessions : List String) :
    Sweep schemaReferences (marked k value sessions)
      (eraseStatements kind value sessions) where
  flat := references_flat
  keyed := by
    intro st hst hdelete ref href hparent
    rcases parents_of_references ref href with ⟨hsessions, hkey⟩ | ⟨hdevices, hkey, -⟩
    · rw [hsessions] at hparent
      rw [hkey]
      rcases mem_eraseStatements hst with hmem | ⟨k', hmem⟩
      · rw [(mem_sessionCascade hmem).2.2 hparent.symm]
        exact holds_eq .sessionId sessions
      · exact absurd hparent.symm (mem_selectorDirect hmem).1
    · rw [hdevices] at hparent
      rw [hkey]
      rcases mem_eraseStatements hst with hmem | ⟨k', hmem⟩
      · exact absurd hparent.symm (mem_sessionCascade hmem).2.1
      · rcases (mem_selectorDirect hmem).2 hparent.symm with ⟨-, hhits⟩ | hset
        · rw [hhits]
          exact holds_eq .deviceId [value]
        · rw [hdelete] at hset
          cases hset
  keeps := by
    intro st hst column hset ref href hparent
    rcases mem_eraseStatements hst with hmem | ⟨k', hmem⟩
    · rw [(mem_sessionCascade hmem).1] at hset
      cases hset
    · rcases parents_of_references ref href with ⟨hsessions, -⟩ | ⟨hdevices, hkey, -⟩
      · rw [hsessions] at hparent
        exact absurd hparent.symm (mem_selectorDirect hmem).1
      · rw [hdevices] at hparent
        rcases (mem_selectorDirect hmem).2 hparent.symm with ⟨hdelete, -⟩ | hip
        · rw [hdelete] at hset
          cases hset
        · rw [hip] at hset
          cases hset
          rw [hkey]
          decide
  marks := by
    intro st hst hrefusable r hhit
    have htable := sessions_of_refusable hrefusable
    rcases mem_eraseStatements hst with hmem | ⟨k', hmem⟩
    · rw [(mem_sessionCascade hmem).2.2 htable] at hhit
      exact marked_of_session hhit
    · exact absurd htable (mem_selectorDirect hmem).1
  last := by
    apply (sessions_last kind value sessions).imp
    intro st later hlast hrefusable
    have htable := sessions_of_refusable hrefusable
    rw [htable]
    exact hlast htable

theorem holds_false_of_marked {k : SubjectKind} {value : String}
    {sessions : List String} {t : Table} {r : Record} {column : Column}
    (h : marked k value sessions t r = false) (hcolumn : column ∈ valueColumns k) :
    holds column (selectorForms k value) r = false := by
  unfold marked at h
  rw [Bool.or_eq_false_iff, List.any_eq_false] at h
  have hvalue := List.any_eq_false.mp h.2 column hcolumn
  simpa using hvalue

theorem sessionsWhere_eq_nil {db : Store} {t : Table} {condition : Record → Bool}
    (h : ∀ r ∈ db t, condition r = false) : sessionsWhere db t condition = [] := by
  have hnone : (db t).filter condition = [] := by
    rw [List.filter_eq_nil_iff]
    intro r hr
    simp [h r hr]
  unfold sessionsWhere
  rw [hnone]
  rfl

theorem query_of_resolve {sql : Sql} {db : Store} {kind value : String}
    {sessions : List String} (h : dsarResolveSessions sql db kind value = .ok sessions) :
    ∃ k, SubjectKind.parse kind = some k ∧ sessionQuery sql db k value = .ok sessions := by
  unfold dsarResolveSessions at h
  cases hparse : SubjectKind.parse kind with
  | none =>
      rw [hparse] at h
      cases h
  | some k =>
      rw [hparse] at h
      dsimp only at h
      refine ⟨k, rfl, ?_⟩
      cases hquery : sessionQuery sql db k value with
      | error e =>
          rw [hquery] at h
          cases h
      | ok out =>
          rw [hquery] at h
          dsimp only at h
          split_ifs at h
          exact h

theorem sessionQuery_ok {sql : Sql} {db : Store} {k : SubjectKind} {value : String}
    {sessions : List String} (h : sessionQuery sql db k value = .ok sessions) :
    sql.queryFails = none ∧ k ≠ .siteId := by
  unfold sessionQuery at h
  cases hfails : sql.queryFails with
  | some e =>
      rw [hfails] at h
      cases h
  | none =>
      refine ⟨rfl, ?_⟩
      rintro rfl
      rw [hfails] at h
      cases h

section Clean

variable {k : SubjectKind} {kind value : String} {sessions : List String}
variable {left : Store}

theorem resolve_clean (sql : Sql) (hparse : SubjectKind.parse kind = some k)
    (hsite : k ≠ .siteId)
    (hclean : ∀ t, ∀ r ∈ left t, marked k value sessions t r = false) :
    dsarResolveSessions sql.answering left kind value = .ok [] := by
  have hquery : sessionQuery sql.answering left k value = .ok [] := by
    unfold sessionQuery Sql.answering
    cases k with
    | siteId => exact absurd rfl hsite
    | visitorTerminalId =>
        dsimp only
        rw [sessionsWhere_eq_nil]
        intro r hr
        exact holds_false_of_marked (hclean _ r hr) (by decide)
    | clientIp =>
        dsimp only
        rw [sessionsWhere_eq_nil]
        intro r hr
        exact holds_false_of_marked (hclean _ r hr) (by decide)
    | deviceId =>
        have hnone (t : Table) : sessionsWhere left t (holds .deviceId [value]) = [] := by
          apply sessionsWhere_eq_nil
          intro r hr
          exact holds_false_of_marked (hclean t r hr) (by decide)
        dsimp only
        rw [hnone, hnone, hnone]
        rfl
  unfold dsarResolveSessions
  rw [hparse]
  dsimp only
  rw [hquery]
  rfl

theorem export_clean (sql : Sql) (hparse : SubjectKind.parse kind = some k)
    (hsite : k ≠ .siteId)
    (hclean : ∀ t, ∀ r ∈ left t, marked k value sessions t r = false) :
    ∃ bundle, dsarExport sql.answering left kind value = .ok bundle ∧
      bundle.isEmpty := by
  have hfilter (t : Table) (column : Column) (hcolumn : column ∈ valueColumns k) :
      (left t).filter (holds column (selectorForms k value)) = [] := by
    rw [List.filter_eq_nil_iff]
    intro r hr
    rw [holds_false_of_marked (hclean t r hr) hcolumn]
    decide
  unfold dsarExport
  rw [resolve_clean sql hparse hsite hclean, hparse]
  refine ⟨_, rfl, rfl, rfl, rfl, rfl, rfl, ?_, ?_⟩
  · dsimp only
    split_ifs with hdevice
    · cases hdevice
      exact hfilter .devices .deviceId (by decide)
    · rfl
  · dsimp only
    split_ifs with hip
    · cases hip
      have hnone := hfilter .opsServerEvents .clientIp (by decide)
      unfold selectorForms at hnone
      dsimp only at hnone
      rw [hnone]
      rfl
    · rfl

end Clean

end SubjectErase

end GrServer
