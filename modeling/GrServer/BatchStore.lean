import GrServer.AnalyzeJobs
import GrServer.Json
import GrServer.Text

/-!
# Upserting a probe batch

The rows of one (session, batch, source) key in `probe_batches` and
`probe_cold`, and the upsert of a delivery in its three database steps: the
merge read of a dual-fired gateway batch, the pre-read with the material
decisions, and the transaction.  Deliveries are in flight side by side.

A stored payload copy is the JSON value it parses to; the printer is injective.
`fields_json` is computed from the payload and is left out.
-/

namespace GrServer

open Json

namespace BatchStore

structure BatchKey where
  sessionId : String
  batchId : String
  source : String
  deriving DecidableEq

/-! ## Material of a payload -/

structure Material where
  generation : ℤ
  hash : Option String
  capture : Option String
  deriving DecidableEq

def materialStr (payload : Json) (inner outer : String) : String :=
  (((payload.pointer ["fields", inner]).or (payload.get? outer)).bind asStr).getD ""

def clientCapture (payload : Json) : String :=
  materialStr payload "capture_id" "capture_id"

def clientPayloadHash (payload : Json) : String :=
  materialStr payload "client_payload_hash" "payload_hash"

def clientGeneration (payload : Json) : ℤ :=
  max ((((payload.pointer ["fields", "material_generation"]).or
    (payload.get? "material_generation")).bind asI64).getD 1) 1

def nonEmpty (s : String) : Option String :=
  if s = "" then none else some s

def materialOf (payload : Json) : Material where
  generation := clientGeneration payload
  hash := nonEmpty (clientPayloadHash payload)
  capture := nonEmpty (clientCapture payload)

def depthKey (k : String) : Bool :=
  Text.startsWith k "tcp_" || Text.startsWith k "tls_" ||
    k ∈ ["ja4", "h2_fingerprint", "client_tcp_rtt", "client_tcp_rtt_us",
      "protocol_fp_source", "tcp_info_available", "tcp_saved_syn"]

def mergeB8Field (incIsEdge incIsCdn : Bool) (fields : Fields)
    (entry : String × Json) : Fields :=
  let (k, v) := entry
  if v.isNull || v.asStr == some "" then fields
  else if depthKey k then
    if incIsCdn && fields.contains k && !incIsEdge then fields
    else fields.insert k v
  else if k ∈ ["b8_via_cdn", "b8_path_kind", "b8_dual"] then
    match fields.get? k with
    | some prev => (fields.insert (k ++ "_prev") prev).insert k v
    | none => fields.insert k v
  else fields.insert k v

def mergeB8Fields (fields inc : Fields) : Fields :=
  let kind := (inc.get? "b8_path_kind").bind asStr
  let incIsEdge := kind == some "edge" || !inc.contains "b8_via_cdn"
  let incIsCdn := inc.contains "b8_via_cdn" || kind == some "cdn"
  let fields := inc.entries.foldl (mergeB8Field incIsEdge incIsCdn) fields
  let fields :=
    if (fields.contains "b8_via_cdn" || fields.contains "b8_via_cdn_prev") &&
        incIsEdge then
      fields.insert "b8_edge_enriched" (.bool true)
    else fields
  if incIsCdn then fields.insert "b8_cdn_joined" (.bool true) else fields

def mergeB8Payload (existing incoming : Json) : Json :=
  let fields := ((existing.get? "fields").bind asObject).getD SortedMap.empty
  let fields :=
    match (incoming.get? "fields").bind asObject with
    | some inc => mergeB8Fields fields inc
    | none => fields
  match existing with
  | .obj _ =>
      let out := existing.setMember "fields" (ofFields fields)
      let out :=
        match incoming.get? "inject_path", out.get? "inject_path" with
        | some ip, none => out.setMember "inject_path" ip
        | _, _ => out
      (out.setMember "early" (.bool true)).setMember "merged" (.bool true)
  | _ => incoming

structure BatchRow where
  /-- The debug copy; `none` is the empty string. -/
  payloadJson : Option Json
  createdMs : ℤ
  clientIp : Option String
  material : Material
  deriving DecidableEq

structure ColdRow where
  visitorTerminalId : String
  clientIp : Option String
  payload : Json
  createdMs : ℤ
  deriving DecidableEq

structure Tables where
  batch : Option BatchRow
  cold : Option ColdRow
  deriving DecidableEq

/-- The conflicting row is rewritten only under the `WHERE` of the statement. -/
def upsertGuard (row excluded : BatchRow) : Bool :=
  decide (row.payloadJson ≠ excluded.payloadJson) ||
    decide (row.clientIp ≠ excluded.clientIp) ||
    decide (row.material.generation < excluded.material.generation)

def upsertBatchRow (stored : Option BatchRow) (excluded : BatchRow) : BatchRow :=
  match stored with
  | none => excluded
  | some row =>
      if upsertGuard row excluded then
        { payloadJson := excluded.payloadJson.or row.payloadJson
          createdMs := min row.createdMs excluded.createdMs
          clientIp := excluded.clientIp.or row.clientIp
          material := excluded.material }
      else row

/-- The row afterwards, and whether the statement wrote it. -/
def upsertColdRow (stored : Option ColdRow) (excluded : ColdRow) :
    ColdRow × Bool :=
  match stored with
  | none => (excluded, true)
  | some row =>
      if row.payload ≠ excluded.payload ∨ row.clientIp ≠ excluded.clientIp ∨
          row.visitorTerminalId ≠ excluded.visitorTerminalId then
        ({ visitorTerminalId := excluded.visitorTerminalId
           clientIp := excluded.clientIp.or row.clientIp
           payload := excluded.payload
           createdMs := min row.createdMs excluded.createdMs }, true)
      else (row, false)

def columnsMatch (row : BatchRow) (payload : Json) : Bool :=
  (clientCapture payload ≠ "" &&
      row.material.capture.getD "" = clientCapture payload) ||
    (clientPayloadHash payload ≠ "" &&
      row.material.hash.getD "" = clientPayloadHash payload)

def fieldStr (payload : Json) (k : String) : String :=
  ((payload.pointer ["fields", k]).bind asStr).getD ""

/-- The fallback for rows without material columns reads the debug copy. -/
def legacyMatch (row : BatchRow) (payload : Json) : Bool :=
  match row.payloadJson with
  | none => false
  | some prev =>
      row.material.capture.getD "" = "" && row.material.hash.getD "" = "" &&
        ((clientCapture payload ≠ "" &&
            fieldStr prev "capture_id" = clientCapture payload) ||
          (clientPayloadHash payload ≠ "" &&
            fieldStr prev "client_payload_hash" = clientPayloadHash payload))

def sameCapture (row : BatchRow) (payload : Json) : Bool :=
  columnsMatch row payload || legacyMatch row payload

inductive Decision where
  | stale (prevGen : ℤ)
  | duplicate (prevGen : ℤ)
  | write (wasInsert : Bool)
  deriving DecidableEq

def decideMaterial (row : Option BatchRow) (payload : Json) : Decision :=
  match row with
  | none => .write true
  | some row =>
      let prevGen := row.material.generation
      if ¬ sameCapture row payload ∧ 0 < prevGen ∧
          clientGeneration payload < prevGen then
        .stale prevGen
      else if sameCapture row payload then .duplicate prevGen
      else .write false

/-! ## Acknowledgements -/

def optStr (s : Option String) : Json :=
  (s.map Json.str).getD .null

structure Delivery where
  payload : Json
  clientIp : Option String
  skipCold : Bool

/-- The explicit client address, else the one the server wrote into the fields. -/
def ipOf (d : Delivery) (final : Json) : Option String :=
  d.clientIp.or (((final.pointer ["fields", "server_client_ip"]).bind asStr).filter
    (· ≠ ""))

def mergedFlag (final : Json) : Json :=
  (final.get? "merged").getD (.bool false)

def staleAck (key : BatchKey) (d : Delivery) (final : Json) (ts prevGen : ℤ) :
    Json :=
  .obj [
    ("batch_id", .str key.batchId),
    ("client_ip", optStr (ipOf d final)),
    ("client_material_generation", ofInt (clientGeneration final)),
    ("cold_error", .null),
    ("cold_written", .bool false),
    ("conflict", .bool true),
    ("created_ms", ofInt ts),
    ("durability_state", .str "rejected"),
    ("error", .str "stale_material_generation"),
    ("material_generation", ofInt prevGen),
    ("ok", .bool false),
    ("same_capture", .bool false),
    ("session_id", .str key.sessionId),
    ("source", .str key.source),
    ("unchanged", .bool false),
    ("was_insert", .bool false)]

def duplicateAck (key : BatchKey) (d : Delivery) (final : Json)
    (ts prevGen : ℤ) : Json :=
  .obj [
    ("analyze_debounce_ms", ofInt AnalyzeJobs.analyzeDebounceMs),
    ("analyze_scheduled", .bool true),
    ("batch_id", .str key.batchId),
    ("capture_id", .str (clientCapture final)),
    ("client_ip", optStr (ipOf d final)),
    ("cold_error", .null),
    ("cold_skipped_unchanged", .bool true),
    ("cold_written", .bool false),
    ("created_ms", ofInt ts),
    ("durability_state", .str "duplicate_durable"),
    ("material_generation", ofInt (max prevGen (clientGeneration final))),
    ("material_hash", .str (clientPayloadHash final)),
    ("merged", mergedFlag final),
    ("ok", .bool true),
    ("same_capture", .bool true),
    ("session_id", .str key.sessionId),
    ("source", .str key.source),
    ("unchanged", .bool true),
    ("was_insert", .bool false)]

structure TxEnv where
  ts : ℤ
  payloadCopyEnabled : Bool
  visitorTerminalId : String
  coldFieldsBytes : ℕ
  coldPayloadZBytes : ℕ
  touchMinIntervalMs : ℤ

def storedAck (key : BatchKey) (d : Delivery) (final : Json) (wasInsert : Bool)
    (env : TxEnv) (coldWrote : Bool) : Json :=
  let skipped := d.skipCold || !coldWrote
  .obj <|
    [("analyze_debounce_ms", ofInt AnalyzeJobs.analyzeDebounceMs),
      ("analyze_scheduled", .bool (!d.skipCold)),
      ("batch_id", .str key.batchId),
      ("capture_id", .str (clientCapture final)),
      ("client_ip", optStr (ipOf d final)),
      ("cold_error", .null),
      ("cold_fields_bytes", ofInt env.coldFieldsBytes),
      ("cold_payload_z_bytes", ofInt env.coldPayloadZBytes)] ++
    (if d.skipCold then [("cold_skip_reason", .str "robot_fastlane")] else []) ++
    [("cold_skipped_unchanged", .bool skipped),
      ("cold_written", .bool (!d.skipCold)),
      ("created_ms", ofInt env.ts),
      ("durability_state", .str "stored_durable"),
      ("material_generation", ofInt (clientGeneration final)),
      ("material_hash", .str (clientPayloadHash final)),
      ("merged", mergedFlag final),
      ("ok", .bool true)] ++
    (if d.skipCold then [("robot_fastlane", .bool true)] else []) ++
    [("same_capture", .bool false),
      ("session_id", .str key.sessionId),
      ("session_touch_min_interval_ms", ofInt env.touchMinIntervalMs),
      ("source", .str key.source),
      ("unchanged", .bool (skipped && !wasInsert)),
      ("was_insert", .bool wasInsert)]

def coldFailedAck (key : BatchKey) (d : Delivery) (final : Json)
    (wasInsert : Bool) (env : TxEnv) (error : String) : Json :=
  .obj [
    ("analyze_scheduled", .bool false),
    ("batch_id", .str key.batchId),
    ("capture_id", .str (clientCapture final)),
    ("client_ip", optStr (ipOf d final)),
    ("cold_error", .str error),
    ("cold_written", .bool false),
    ("created_ms", ofInt env.ts),
    ("durability_state", .str "failed"),
    ("error", .str "cold_write_failed"),
    ("material_generation", ofInt (clientGeneration final)),
    ("material_hash", .str (clientPayloadHash final)),
    ("ok", .bool false),
    ("same_capture", .bool false),
    ("session_id", .str key.sessionId),
    ("source", .str key.source),
    ("was_insert", .bool wasInsert)]

def scheduleFailedAck (key : BatchKey) (error : String) : Json :=
  .obj [
    ("batch_id", .str key.batchId),
    ("cold_written", .bool true),
    ("detail", .str error),
    ("durability_state", .str "failed"),
    ("error", .str "analyze_schedule_failed"),
    ("ok", .bool false),
    ("session_id", .str key.sessionId),
    ("source", .str key.source)]

/-- The `type` of the transport acknowledgement for an upsert outcome. -/
def ackType (upsert payload : Json) : String :=
  if upsert.boolOr "conflict" then "conflict"
  else if ¬ upsert.boolOr "ok" ∨ upsert.strOr "durability_state" = "failed" then
    "rejected"
  else if upsert.boolOr "merged" ∨ payload.boolOr "merged" then "merged"
  else if upsert.boolOr "cold_skipped_unchanged" ∨ upsert.boolOr "unchanged" ∨
      upsert.boolOr "same_capture" then
    "duplicate"
  else "stored"

end BatchStore

end GrServer
