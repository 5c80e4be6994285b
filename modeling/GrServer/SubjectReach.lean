import GrServer.SubjectMarks

/-!
# How far the statements reach

In a quiet erase no statement fails and nothing is committed meanwhile.  Its
statements still do not reach every marked row: the last session of a device,
the active cycle of a visitor terminal, rows of a terminal that belong to other
sessions, and the velocity hits of an address stay.
-/

namespace GrServer

namespace SubjectErase

open Tables SideStore

def tableColumns : Table → List Column
  | .analyzeJobs => [.sessionId]
  | .pageResults => [.sessionId]
  | .observationEvents => [.sessionId, .tenantId]
  | .analysisResults => [.sessionId, .deviceId, .clientIp, .siteId]
  | .analysisLatest =>
      [.sessionId, .deviceId, .clientIp, .visitorTerminalId, .siteId]
  | .probeBatches => [.sessionId, .clientIp]
  | .probeCold => [.sessionId, .visitorTerminalId, .clientIp]
  | .opsClientEvents => [.siteId, .visitorTerminalId, .sessionId, .clientIp]
  | .opsServerEvents => [.siteId, .visitorTerminalId, .sessionId, .clientIp]
  | .deviceSessions => [.deviceId, .sessionId, .clientIp, .visitorTerminalId]
  | .softHeat => [.tenantId, .deviceId, .sessionId]
  | .velocityHits => [.keyValue, .sessionId]
  | .softEdges => [.tenantId, .aSession, .bSession]
  | .sessions => [.sessionId, .visitorTerminalId, .clientIp]
  | .visitorTerminals => [.vtId, .activeCycleId]
  | .devices => [.deviceId, .lastClientIp, .lastSessionId]
  | .deviceIndexDevices => [.tenantId, .deviceId]
  | .deviceIndexKeys => [.tenantId, .deviceId]

structure InSchema (db : Store) : Prop where
  columns : ∀ t, ∀ r ∈ db t, ∀ column, column ∉ tableColumns t → r column = none
  key : ∀ r ∈ db .sessions, (r .sessionId).isSome = true

def ofSessions (sessions : List String) (r : Record) : Bool :=
  holds .sessionId sessions r ||
    (holds .aSession sessions r || holds .bSession sessions r)

def unreached (kind : SubjectKind) (value : String) (sessions : List String) :
    Table → Record → Bool
  | .devices, r =>
      holds .lastSessionId sessions r &&
        !(decide (kind = .deviceId) && holds .deviceId [value] r)
  | .visitorTerminals, r =>
      holds .activeCycleId sessions r &&
        !(decide (kind = .visitorTerminalId) && holds .vtId [value] r)
  | .analysisLatest, r | .deviceSessions, r =>
      decide (kind = .visitorTerminalId) && holds .visitorTerminalId [value] r
  | .velocityHits, r =>
      decide (kind = .clientIp) && holds .keyValue (selectorForms .clientIp value) r
  | .sessions, r =>
      (decide (kind = .visitorTerminalId) && holds .visitorTerminalId [value] r) ||
        (decide (kind = .clientIp) &&
          holds .clientIp (selectorForms .clientIp value) r)
  | _, _ => false

def stray (kind : SubjectKind) (value : String) (sessions : List String)
    (t : Table) (r : Record) : Bool :=
  unreached kind value sessions t r && !ofSessions sessions r

/-! ## The statements by selector -/

theorem holds_of_null {column : Column} {values : List String} {r : Record}
    (h : r column = none) : holds column values r = false := by
  unfold holds
  rw [h]

@[simp]
theorem holds_cleared (column cleared : Column) (values : List String)
    (r : Record) (b : Prop) [Decidable b] :
    holds column values (if b then Function.update r cleared none else r) =
      (holds column values r && !(decide (column = cleared) && decide b)) := by
  by_cases hb : b
  · by_cases hcolumn : column = cleared
    · simp [hb, hcolumn, holds]
    · simp [hb, hcolumn, holds]
  · simp [hb]

def quietEvents (sts : List Query) : List DbEvent :=
  sts.map fun st => .statement st false

theorem quietEvents_append (sts sts' : List Query) :
    quietEvents (sts ++ sts') = quietEvents sts ++ quietEvents sts' :=
  List.map_append

theorem no_reference_to {t : Table} (hsessions : t ≠ .sessions)
    (hdevices : t ≠ .devices) : ∀ ref ∈ schemaReferences, ref.parent ≠ t := by
  intro ref href hparent
  rcases parents_of_references ref href with ⟨h, -⟩ | ⟨h, -⟩
  · exact hsessions (hparent.symm.trans h)
  · exact hdevices (hparent.symm.trans h)

theorem settles_deleteFrom {marked : Table → Record → Bool} (table : Table)
    (htable : table ≠ .sessions ∧ table ≠ .devices) {condition : Record → Bool}
    {events : List DbEvent} {t : Table} {r : Record} :
    Settles schemaReferences marked
        (.statement (deleteFrom table condition) false :: events) t r ↔
      (t = table ∧ condition r = true) ∨
        Settles schemaReferences marked events t r :=
  settles_delete_leaf rfl (no_reference_to htable.1 htable.2)

theorem settles_deleteDevices {marked : Table → Record → Bool}
    {condition : Record → Bool} {events : List DbEvent} {t : Table} {r : Record} :
    Settles schemaReferences marked
        (.statement (deleteFrom .devices condition) false :: events) t r ↔
      (condition r = true ∧ (t = .devices ∨ t = .deviceSessions)) ∨
        Settles schemaReferences marked events t r := by
  have hcascades : ∀ ref ∈ schemaReferences, ref.parent = .devices →
      ref.cascade = true := by
    decide
  have hchildren : (∃ ref ∈ schemaReferences, ref.parent = .devices ∧
      ref.cascade = true ∧ ref.child = t) ↔ t = .deviceSessions := by
    cases t
    all_goals decide
  have hdelete : Settles schemaReferences marked
        (.statement (deleteFrom .devices condition) false :: events) t r ↔
      (condition r = true ∧ (t = .devices ∨ ∃ ref ∈ schemaReferences,
        ref.parent = .devices ∧ ref.cascade = true ∧ ref.child = t)) ∨
        Settles schemaReferences marked events t r :=
    settles_delete rfl hcascades
  rw [hdelete, hchildren]

theorem settles_setNullOf {marked : Table → Record → Bool} (table : Table)
    {column : Column} {condition : Record → Bool} {events : List DbEvent}
    {t : Table} {r : Record} :
    Settles schemaReferences marked
        (.statement (setNull table column condition) false :: events) t r ↔
      Settles schemaReferences marked events t
        (if t = table ∧ condition r = true then Function.update r column none
          else r) :=
  settles_setNull rfl

theorem marked_of_kept {kind : SubjectKind} {value : String}
    {sessions : List String} {t : Table} {r : Record}
    (hsessions : ofSessions sessions r = false) :
    marked kind value sessions t r =
      (holds .lastSessionId sessions r || holds .activeCycleId sessions r ||
        (valueColumns kind).any fun column =>
          holds column (selectorForms kind value) r) := by
  unfold ofSessions at hsessions
  simp only [Bool.or_eq_false_iff] at hsessions
  obtain ⟨hsession, ha, hb⟩ := hsessions
  unfold marked sessionColumns
  simp only [List.any_cons, List.any_nil, hsession, ha, hb, Bool.false_or,
    Bool.or_false]

theorem ofSessions_cleared {column : Column} {sessions : List String}
    {r : Record} {b : Prop} [Decidable b]
    (hcolumn : column ∉ [Column.sessionId, .aSession, .bSession])
    (hsessions : ofSessions sessions r = false) :
    ofSessions sessions (if b then Function.update r column none else r) = false := by
  simp only [List.mem_cons, List.not_mem_nil, or_false, not_or] at hcolumn
  obtain ⟨hsession, ha, hb⟩ := hcolumn
  have hkept : ofSessions sessions (if b then Function.update r column none else r) =
      ofSessions sessions r := by
    unfold ofSessions
    simp [Ne.symm hsession, Ne.symm ha, Ne.symm hb]
  rw [hkept]
  exact hsessions

theorem settles_selectorDirect {kind : SubjectKind} (hsite : kind ≠ .siteId)
    (value : String) (sessions : List String) {t : Table} {r : Record}
    (hcolumns : ∀ column, column ∉ tableColumns t → r column = none)
    (hsessions : ofSessions sessions r = false) :
    Settles schemaReferences (marked kind value sessions)
        (quietEvents (selectorDirect kind value)) t r ↔
      unreached kind value sessions t r = false := by
  have habsent : ∀ column values, column ∉ tableColumns t →
      holds column values r = false := by
    intro column values hcolumn
    exact holds_of_null (hcolumns column hcolumn)
  clear hcolumns
  unfold selectorDirect quietEvents
  cases kind with
  | siteId => exact absurd rfl hsite
  | visitorTerminalId =>
      simp only [List.map_cons, List.map_nil]
      rw [settles_deleteFrom .visitorTerminals (by decide),
        settles_deleteFrom .probeCold (by decide),
        settles_deleteFrom .opsClientEvents (by decide),
        settles_deleteFrom .opsServerEvents (by decide)]
      unfold Settles
      rw [marked_of_kept hsessions]
      cases t
      all_goals
        simp only [tableColumns, List.mem_cons, List.not_mem_nil, or_false, not_or,
          and_imp] at habsent
      case visitorTerminals =>
        cases hvt : holds .vtId [value] r with
        | true => simp [unreached, hvt]
        | false => simp [unreached, valueColumns, selectorForms, habsent, hvt]
      all_goals simp [unreached, valueColumns, selectorForms, habsent]
  | deviceId =>
      simp only [List.map_cons, List.map_nil]
      rw [settles_deleteFrom .deviceSessions (by decide), settles_deleteDevices,
        settles_deleteFrom .deviceIndexDevices (by decide),
        settles_deleteFrom .deviceIndexKeys (by decide),
        settles_deleteFrom .softHeat (by decide),
        settles_deleteFrom .velocityHits (by decide),
        settles_setNullOf .analysisResults, settles_setNullOf .analysisLatest]
      unfold Settles
      rw [marked_of_kept (ofSessions_cleared (by decide)
        (ofSessions_cleared (by decide) hsessions))]
      cases t
      all_goals
        simp only [tableColumns, List.mem_cons, List.not_mem_nil, or_false, not_or,
          and_imp] at habsent
      case devices =>
        cases hdevice : holds .deviceId [value] r with
        | true => simp [unreached, hdevice]
        | false => simp [unreached, valueColumns, selectorForms, habsent, hdevice]
      all_goals simp [unreached, valueColumns, selectorForms, habsent]
  | clientIp =>
      simp only [List.map_cons, List.map_nil, List.cons_append, List.nil_append]
      rw [settles_deleteFrom .probeBatches (by decide),
        settles_deleteFrom .probeCold (by decide),
        settles_deleteFrom .deviceSessions (by decide),
        settles_deleteFrom .opsClientEvents (by decide),
        settles_deleteFrom .opsServerEvents (by decide),
        settles_setNullOf .devices, settles_setNullOf .analysisResults,
        settles_setNullOf .analysisLatest]
      unfold Settles
      rw [marked_of_kept (ofSessions_cleared (by decide)
        (ofSessions_cleared (by decide) (ofSessions_cleared (by decide) hsessions)))]
      cases t
      all_goals
        simp only [tableColumns, List.mem_cons, List.not_mem_nil, or_false, not_or,
          and_imp] at habsent
        simp [unreached, valueColumns, selectorForms, habsent]

section Rows

variable {marked : Table → Record → Bool} {events : List DbEvent}
variable {t : Table} {r : Record}

theorem settles_deleteEach {tables : List Table} (condition : Record → Bool)
    (hleaf : ∀ t ∈ tables, ∀ ref ∈ schemaReferences, ref.parent ≠ t) :
    Settles schemaReferences marked
        (quietEvents (tables.map fun t => deleteFrom t condition) ++ events) t r ↔
      (t ∈ tables ∧ condition r = true) ∨
        Settles schemaReferences marked events t r := by
  induction tables with
  | nil => simp [quietEvents]
  | cons first rest ih =>
      have hrest := ih fun t ht => hleaf t (List.mem_cons_of_mem first ht)
      have hfirst : Settles schemaReferences marked
          (quietEvents ((first :: rest).map fun t => deleteFrom t condition) ++
            events) t r ↔ (t = first ∧ condition r = true) ∨ _ :=
        settles_delete_leaf rfl (hleaf first List.mem_cons_self)
      rw [hfirst, List.mem_cons, or_and_right, or_assoc]
      exact or_congr_right hrest

theorem table_of_session {column : Column} (h : column ∈ tableColumns t) :
    (column = .sessionId → t ∈ sessionTables ∨ t = .sessions) ∧
      (column = .aSession ∨ column = .bSession → t = .softEdges) := by
  have hall : (∀ column ∈ tableColumns t,
      (column = .sessionId → t ∈ sessionTables ∨ t = .sessions) ∧
        (column = .aSession ∨ column = .bSession → t = .softEdges)) := by
    cases t
    all_goals decide
  exact hall column h

theorem settles_session_row {st : Query} (hdelete : st.action = .delete)
    (htable : st.table = .sessions) (hhit : st.hits r = true) :
    Settles schemaReferences marked (.statement st false :: events) .sessions r := by
  have hremoves : removes schemaReferences st .sessions r = true :=
    (removes_iff hdelete).mpr ⟨hhit, Or.inl htable.symm⟩
  have hblocks : blocks schemaReferences (.statement st false) .sessions r = false := by
    change refuses schemaReferences st .sessions r = false
    rw [← Bool.not_eq_true, refuses_iff hdelete]
    rintro ⟨-, ref, href, hparent, -, hchild⟩
    rw [htable] at hparent
    exact references_flat ref href ref href (hchild.trans hparent.symm)
  rw [settles_cons, hblocks, after_delete hdelete, hremoves]
  simp

theorem settles_sessionCascade (sessions : List String)
    (hcolumns : ∀ column, column ∉ tableColumns t → r column = none) :
    Settles schemaReferences marked
        (quietEvents (sessionCascade sessions) ++ events) t r ↔
      ofSessions sessions r = true ∨ Settles schemaReferences marked events t r := by
  unfold sessionCascade
  split_ifs with hnone
  · have hnothing : ofSessions sessions r = false := by
      have hempty (column : Column) : holds column [] r = false := by
        unfold holds
        cases r column with
        | none => rfl
        | some x => rfl
      rw [hnone]
      unfold ofSessions
      rw [hempty, hempty, hempty]
      rfl
    rw [hnothing]
    simp [quietEvents]
  · have htable : ∀ column values, holds column values r = true →
        column ∈ tableColumns t := by
      intro column values hholds
      by_contra hcolumn
      rw [holds_of_null (hcolumns column hcolumn)] at hholds
      cases hholds
    have hleaf : ∀ t ∈ sessionTables, ∀ ref ∈ schemaReferences, ref.parent ≠ t := by
      decide
    have hlast : quietEvents [
          deleteFrom .softEdges fun r =>
            holds .aSession sessions r || holds .bSession sessions r,
          deleteFrom .sessions (holds .sessionId sessions)] ++ events =
        .statement (deleteFrom .softEdges fun r =>
            holds .aSession sessions r || holds .bSession sessions r) false ::
          .statement (deleteFrom .sessions (holds .sessionId sessions)) false ::
            events :=
      rfl
    rw [quietEvents_append, List.append_assoc, settles_deleteEach _ hleaf, hlast,
      settles_deleteFrom .softEdges (by decide)]
    unfold ofSessions
    cases hhit : holds .sessionId sessions r with
    | true =>
        rcases (table_of_session (htable _ _ hhit)).1 rfl with ht | rfl
        · simp [ht]
        · have hgone : Settles schemaReferences marked (.statement (deleteFrom
              .sessions (holds .sessionId sessions)) false :: events) .sessions r :=
            settles_session_row rfl rfl hhit
          simp [hgone]
    | false =>
        have hedge : (holds .aSession sessions r || holds .bSession sessions r) = true →
            t = .softEdges := by
          rw [Bool.or_eq_true]
          rintro (ha | hb)
          · exact (table_of_session (htable _ _ ha)).2 (Or.inl rfl)
          · exact (table_of_session (htable _ _ hb)).2 (Or.inr rfl)
        have hmiss : Settles schemaReferences marked (.statement (deleteFrom
            .sessions (holds .sessionId sessions)) false :: events) t r ↔
              Settles schemaReferences marked events t r :=
          settles_delete_miss rfl hhit
        rw [hmiss]
        constructor
        · rintro (⟨-, h⟩ | ⟨-, h⟩ | h)
          · cases h
          · exact Or.inl h
          · exact Or.inr h
        · rintro (h | h)
          · exact Or.inr (Or.inl ⟨hedge h, h⟩)
          · exact Or.inr (Or.inr h)

end Rows

def Quiet (turns : ℕ → Turn) : Prop :=
  ∀ i, (turns i).ingests = [] ∧ (turns i).fails = false

theorem eraseEvents_quiet {turns : ℕ → Turn} (hquiet : Quiet turns)
    (sts : List Query) : eraseEvents turns sts = quietEvents sts := by
  induction sts generalizing turns with
  | nil => rfl
  | cons st sts ih =>
      obtain ⟨hingests, hfails⟩ := hquiet 0
      unfold eraseEvents Turn.commits
      rw [hingests, hfails, ih fun i => hquiet (i + 1)]
      rfl

theorem legal_quiet (db : Store) (sts : List Query) :
    Legal schemaReferences db (quietEvents sts) := by
  induction sts generalizing db with
  | nil => trivial
  | cons st sts ih => exact ih _

theorem addedSettle_quiet (marked : Table → Record → Bool) (sts : List Query) :
    AddedSettle schemaReferences marked (quietEvents sts) := by
  induction sts with
  | nil => trivial
  | cons st sts ih => exact ih

theorem quiet_rowsSettle_iff {turns : ℕ → Turn} (hquiet : Quiet turns)
    {db : Store} (hschema : InSchema db) {k : SubjectKind} (hsite : k ≠ .siteId)
    {kind : String} (hparse : SubjectKind.parse kind = some k) (value : String)
    (sessions : List String) :
    RowsSettle turns db k kind value sessions ↔
      ∀ t, ∀ r ∈ db t, stray k value sessions t r = false := by
  have hrow : ∀ t, ∀ r ∈ db t,
      (Settles schemaReferences (marked k value sessions)
        (quietEvents (eraseStatements kind value sessions)) t r ↔
      stray k value sessions t r = false) := by
    intro t r hr
    have hcolumns := hschema.columns t r hr
    unfold eraseStatements stray
    rw [hparse, quietEvents_append, settles_sessionCascade sessions hcolumns]
    cases hof : ofSessions sessions r with
    | true => simp
    | false =>
        dsimp only
        rw [settles_selectorDirect hsite value sessions hcolumns hof]
        simp
  unfold RowsSettle AllSettle
  rw [eraseEvents_quiet hquiet]
  constructor
  · rintro ⟨hrows, -⟩ t r hr
    exact (hrow t r hr).mp (hrows t r hr)
  · intro hstray
    refine ⟨?_, addedSettle_quiet _ _⟩
    intro t r hr
    exact (hrow t r hr).mpr (hstray t r hr)

end SubjectErase

end GrServer
