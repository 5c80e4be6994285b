import GrServer.IpPolicy
import GrServer.SortedMap
import GrServer.TableStatements

/-!
# Erasure of a subject

`dsar_erase_inner` and `dsar_export_inner` over the tables of the Postgres
schema.  A row holds its identifying columns; payloads are left out.  The erase
resolves the subject's sessions first and then runs its statements one by one,
outside a transaction and without looking at their errors.
-/

namespace GrServer

namespace SubjectErase

open Tables SideStore

inductive Table where
  | analyzeJobs
  | pageResults
  | observationEvents
  | analysisResults
  | analysisLatest
  | probeBatches
  | probeCold
  | opsClientEvents
  | opsServerEvents
  | deviceSessions
  | softHeat
  | velocityHits
  | softEdges
  | sessions
  | visitorTerminals
  | devices
  | deviceIndexDevices
  | deviceIndexKeys
  deriving DecidableEq

def Table.name : Table → String
  | .analyzeJobs => "analyze_jobs"
  | .pageResults => "page_results"
  | .observationEvents => "observation_events"
  | .analysisResults => "analysis_results"
  | .analysisLatest => "analysis_latest"
  | .probeBatches => "probe_batches"
  | .probeCold => "probe_cold"
  | .opsClientEvents => "ops_client_events"
  | .opsServerEvents => "ops_server_events"
  | .deviceSessions => "device_sessions"
  | .softHeat => "soft_heat"
  | .velocityHits => "velocity_hits"
  | .softEdges => "soft_edges"
  | .sessions => "sessions"
  | .visitorTerminals => "visitor_terminals"
  | .devices => "devices"
  | .deviceIndexDevices => "device_index_devices"
  | .deviceIndexKeys => "device_index_keys"

/-- The identifying columns; a row has NULL in those its table lacks. -/
inductive Column where
  | sessionId
  | tenantId
  | visitorTerminalId
  | deviceId
  | clientIp
  | siteId
  | aSession
  | bSession
  | keyValue
  | vtId
  | activeCycleId
  | lastClientIp
  | lastSessionId
  deriving DecidableEq

abbrev Record := Row Column String

abbrev Store := Database Table Column String

/-- The `REFERENCES` clauses of the schema; only those of `analysis_latest` and
`device_sessions` say `ON DELETE CASCADE`. -/
def schemaReferences : List (Reference Table Column) := [
  ⟨.probeBatches, .sessions, .sessionId, false⟩,
  ⟨.analysisResults, .sessions, .sessionId, false⟩,
  ⟨.analyzeJobs, .sessions, .sessionId, false⟩,
  ⟨.pageResults, .sessions, .sessionId, false⟩,
  ⟨.analysisLatest, .sessions, .sessionId, true⟩,
  ⟨.deviceSessions, .devices, .deviceId, true⟩]

/-- `column = ANY(values)`; NULL is equal to nothing. -/
def holds (column : Column) (values : List String) (r : Record) : Bool :=
  match r column with
  | some x => decide (x ∈ values)
  | none => false

inductive SubjectKind where
  | visitorTerminalId
  | deviceId
  | clientIp
  | siteId
  deriving DecidableEq

def SubjectKind.parse (kind : String) : Option SubjectKind :=
  if kind = "visitor_terminal_id" ∨ kind = "vt" then some .visitorTerminalId
  else if kind = "device_id" then some .deviceId
  else if kind = "client_ip" then some .clientIp
  else if kind = "site_id" then some .siteId
  else none

/-- The answers of the database that the tables do not decide. -/
structure Sql where
  /-- The error of the query for the sessions, if it fails. -/
  queryFails : Option String
  /-- How an operator without a definition for its operands is refused. -/
  noOperator : String

def dsarMaxSessions : ℕ := 50000

def sessionsWhere (db : Store) (t : Table) (condition : Record → Bool) :
    List String :=
  ((db t).filter condition).filterMap fun r => r .sessionId

def sessionQuery (sql : Sql) (db : Store) (kind : SubjectKind) (value : String) :
    Except String (List String) :=
  match sql.queryFails with
  | some e => .error e
  | none =>
      match kind with
      | .visitorTerminalId =>
          .ok (sessionsWhere db .sessions (holds .visitorTerminalId [value]))
      | .deviceId =>
          .ok ((sessionsWhere db .analysisResults (holds .deviceId [value]) ++
            sessionsWhere db .analysisLatest (holds .deviceId [value]) ++
            sessionsWhere db .deviceSessions (holds .deviceId [value])).dedup)
      | .clientIp =>
          .ok (sessionsWhere db .sessions (holds .clientIp [value, dsarMaskIp value]))
      -- `sessions.meta_json` is TEXT, which has no operator `->>`
      | .siteId => .error sql.noOperator

def dsarResolveSessions (sql : Sql) (db : Store) (kind value : String) :
    Except String (List String) :=
  match SubjectKind.parse kind with
  | none =>
      .error ("unknown subject kind " ++ kind ++
        " (want visitor_terminal_id|device_id|client_ip|site_id)")
  | some k =>
      match sessionQuery sql db k value with
      | .error e => .error ("dsar resolve: " ++ e)
      | .ok out =>
          if dsarMaxSessions < out.length then
            .error ("dsar selector too broad: " ++ out.length.repr ++
              " sessions > " ++ dsarMaxSessions.repr ++ " cap")
          else .ok out

abbrev Query := Statement Table Column String

def deleteFrom (t : Table) (condition : Record → Bool) : Query :=
  ⟨t, .delete, condition⟩

def setNull (t : Table) (column : Column) (condition : Record → Bool) : Query :=
  ⟨t, .setNull column, condition⟩

def sessionTables : List Table := [
  .analyzeJobs, .pageResults, .observationEvents, .analysisResults,
  .analysisLatest, .probeBatches, .probeCold, .opsClientEvents,
  .opsServerEvents, .deviceSessions, .softHeat, .velocityHits]

def sessionCascade (sessions : List String) : List Query :=
  if sessions = [] then []
  else
    sessionTables.map (fun t => deleteFrom t (holds .sessionId sessions)) ++ [
      deleteFrom .softEdges fun r =>
        holds .aSession sessions r || holds .bSession sessions r,
      deleteFrom .sessions (holds .sessionId sessions)]

def selectorDirect (kind : SubjectKind) (value : String) : List Query :=
  match kind with
  | .visitorTerminalId => [
      deleteFrom .visitorTerminals (holds .vtId [value]),
      deleteFrom .probeCold (holds .visitorTerminalId [value]),
      deleteFrom .opsClientEvents (holds .visitorTerminalId [value]),
      deleteFrom .opsServerEvents (holds .visitorTerminalId [value])]
  | .deviceId => [
      deleteFrom .deviceSessions (holds .deviceId [value]),
      deleteFrom .devices (holds .deviceId [value]),
      deleteFrom .deviceIndexDevices (holds .deviceId [value]),
      deleteFrom .deviceIndexKeys (holds .deviceId [value]),
      deleteFrom .softHeat (holds .deviceId [value]),
      deleteFrom .velocityHits (holds .keyValue [value]),
      setNull .analysisResults .deviceId (holds .deviceId [value]),
      setNull .analysisLatest .deviceId (holds .deviceId [value])]
  | .clientIp =>
      let forms := [value, dsarMaskIp value]
      [.probeBatches, .probeCold, .deviceSessions, .opsClientEvents,
          .opsServerEvents].map (fun t => deleteFrom t (holds .clientIp forms)) ++ [
        setNull .devices .lastClientIp (holds .lastClientIp forms),
        setNull .analysisResults .clientIp (holds .clientIp forms),
        setNull .analysisLatest .clientIp (holds .clientIp forms)]
  | .siteId => [
      deleteFrom .opsClientEvents (holds .siteId [value]),
      deleteFrom .opsServerEvents (holds .siteId [value]),
      deleteFrom .observationEvents (holds .tenantId [value]),
      deleteFrom .analysisLatest (holds .siteId [value])]

def eraseStatements (kind : String) (value : String) (sessions : List String) :
    List Query :=
  sessionCascade sessions ++
    match SubjectKind.parse kind with
    | some k => selectorDirect k value
    | none => []

/-! ## The erase -/

/-- What another session commits: rows it replaces, and rows it adds. -/
structure Ingest where
  replaced : Table → Record → Bool
  added : List (Table × Record)

/-- What happens at one statement: the commits in front of it, and whether it
fails. -/
structure Turn where
  ingests : List Ingest
  fails : Bool

abbrev DbEvent := Event Table Column String

def Turn.commits (turn : Turn) : List DbEvent :=
  turn.ingests.map fun ingest => .commit ingest.replaced ingest.added

/-- Rows affected by a statement; `unwrap_or(0)` where it fails. -/
def rowsAffected (fails : Bool) (st : Query) (db : Store) : ℕ :=
  if fails then 0
  else if (exec schemaReferences st db).isSome then (hitRows st db).length
  else 0

def delAny (turn : Turn) (st : Query) (acc : Store × SortedMap String ℕ) :
    Store × SortedMap String ℕ :=
  let db := run schemaReferences acc.1 turn.commits
  let n := rowsAffected turn.fails st db
  (step schemaReferences db (.statement st turn.fails),
    if 0 < n then acc.2.insert st.table.name n else acc.2)

def delEach : (ℕ → Turn) → List Query → Store × SortedMap String ℕ →
    Store × SortedMap String ℕ
  | _, [], acc => acc
  | turns, st :: sts, acc =>
      delEach (fun i => turns (i + 1)) sts (delAny (turns 0) st acc)

structure Erased where
  ok : Bool
  subjectKind : String
  sessionsMatched : ℕ
  deleted : SortedMap String ℕ

def dsarErase (sql : Sql) (turns : ℕ → Turn) (db : Store) (kind value : String) :
    Except String Erased × Store :=
  match dsarResolveSessions sql db kind value with
  | .error e => (.error e, db)
  | .ok sessions =>
      let out := delEach turns (eraseStatements kind value sessions)
        (db, SortedMap.empty)
      (.ok {
        ok := true
        subjectKind := kind
        sessionsMatched := sessions.length
        deleted := out.2 }, out.1)

structure Export where
  sessionsMatched : ℕ
  sessionIds : List String
  sessions : List Record
  probeFields : List Record
  analysisResults : List Record
  devices : List Record
  opsServerEvents : List Record

def exportLimit : ℕ := 5000

def dsarExport (sql : Sql) (db : Store) (kind value : String) :
    Except String Export :=
  match dsarResolveSessions sql db kind value with
  | .error e => .error e
  | .ok sessions =>
      let held := fun t => ((db t).filter (holds .sessionId sessions)).take exportLimit
      let k := SubjectKind.parse kind
      .ok {
        sessionsMatched := sessions.length
        sessionIds := sessions
        sessions := if sessions = [] then [] else held .sessions
        probeFields := if sessions = [] then [] else held .probeCold
        analysisResults := if sessions = [] then [] else held .analysisResults
        devices :=
          if k = some .deviceId then (db .devices).filter (holds .deviceId [value])
          else []
        opsServerEvents :=
          if k = some .clientIp then
            ((db .opsServerEvents).filter
              (holds .clientIp [value, dsarMaskIp value])).take exportLimit
          else [] }

def Export.isEmpty (bundle : Export) : Prop :=
  bundle.sessionsMatched = 0 ∧ bundle.sessionIds = [] ∧ bundle.sessions = [] ∧
    bundle.probeFields = [] ∧ bundle.analysisResults = [] ∧
    bundle.devices = [] ∧ bundle.opsServerEvents = []

end SubjectErase

end GrServer
