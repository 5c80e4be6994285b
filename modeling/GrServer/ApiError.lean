import GrServer.Json
import GrServer.Text

/-!
# API errors

A handler's error: a status and a text.  A closed cycle is reported as status
200 with a marked text, and an expired session as 410 with halt members.
-/

namespace GrServer

open Json Text

structure ApiError where
  code : ℕ
  text : String
  deriving DecidableEq

namespace ApiError

def productVersion : String := "1.0.14"

def softCycleClosedPrefix : String := "SOFT_CYCLE_CLOSED|"

def classifySessionExpiredReason (msg : String) : String :=
  if containsStr msg "cycle_complete" then "cycle_complete"
  else if containsStr msg "cycle_purged" then "cycle_purged"
  else if containsStr msg "incomplete_ttl" then "incomplete_ttl"
  else "session_expired"

def businessState (reason : String) : String :=
  if reason = "cycle_complete" then "identity_complete_cool"
  else if reason = "cycle_purged" then "purged"
  else if reason = "incomplete_ttl" then "incomplete_expired"
  else "inactive"

def cycleStatus (reason : String) : String :=
  if reason = "cycle_complete" then "complete"
  else if reason = "cycle_purged" then "purged"
  else "inactive"

def softCycleClosedJson (reason detail : String) : Json :=
  .obj [
    ("accepted", .bool false),
    ("business_state", .str (businessState reason)),
    ("code", .str reason),
    ("cycle_closed", .bool true),
    ("cycle_probe_status", .obj [
      ("algo", .str "cycle_probe_status_v3_soft200"),
      ("business_state", .str (businessState reason)),
      ("cycle_closed", .bool true),
      ("cycle_status", .str (cycleStatus reason)),
      ("expired_reason", .str reason),
      ("halt_uploads", .bool true),
      ("http_soft_close", .bool true),
      ("skip_identity_probe", .bool true)]),
    ("detail", .str (String.ofList (detail.toList.take 200))),
    ("expired_reason", .str reason),
    ("halt_uploads", .bool true),
    ("identity_accepted", .bool false),
    ("ok", .bool true),
    ("product_version", .str productVersion),
    ("skip_identity_probe", .bool true)]

/-- `{"ok": false, "error": {…}}` with a code and a message. -/
def codedJson (code message : String) : Json :=
  .obj [
    ("error", .obj [
      ("code", .str code),
      ("message", .str message),
      ("retryable", .bool false)]),
    ("ok", .bool false)]

def sessionExpiredJson (text reason : String) : Json :=
  .obj [
    ("business_state", .str (businessState reason)),
    ("code", .str reason),
    ("cycle_closed", .bool true),
    ("cycle_probe_status", .obj [
      ("algo", .str "cycle_probe_status_v2"),
      ("business_state", .str (businessState reason)),
      ("cycle_closed", .bool true),
      ("cycle_status", .str (cycleStatus reason)),
      ("expired_reason", .str reason),
      ("halt_uploads", .bool true),
      ("skip_identity_probe", .bool true)]),
    ("error", .str text),
    ("expired_reason", .str reason),
    ("halt_uploads", .bool true),
    ("ok", .bool false),
    ("skip_identity_probe", .bool true)]

def toJson (e : ApiError) : Json :=
  if e.code = 200 ∧ startsWith e.text softCycleClosedPrefix then
    let detail := String.ofList (e.text.toList.drop softCycleClosedPrefix.length)
    softCycleClosedJson (classifySessionExpiredReason detail) detail
  else if e.code = 409 ∧ startsWith e.text "idempotency_conflict" then
    codedJson "idempotency_conflict"
      "same Idempotency-Key with a different request body"
  else if e.code = 400 ∧ (e.text = "idempotency_key_required" ∨
      e.text = "idempotency_key_invalid") then
    codedJson e.text e.text
  else if e.code = 410 then
    sessionExpiredJson e.text (classifySessionExpiredReason e.text)
  else .obj [("error", .str e.text), ("ok", .bool false)]

end ApiError

end GrServer
