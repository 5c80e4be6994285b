import GrServer.GuardedRun
import GrServer.Json
import GrServer.Text

/-!
# The webhook outbox

The two queues in memory, the JSONL files behind them and the items a drain
call has taken out.  A drain takes ready items in one critical section, sends
them without the lock, puts failed ones back in a critical section each, and
persists once at its end.  A crash loses memory and drains and reloads the
files, whose writes are atomic.

Webhook ids are not unique, so every item carries the serial number `uid` of
its enqueueing.  `enqueued` keeps the items as they were enqueued, `settled` the
numbers that were answered 2xx, acknowledged or dropped by the bound of the dead
letter queue.  None of the three is in the source.
-/

namespace GrServer

open Json Text

namespace WebhookOutbox

def maxOutbox : ℕ := 256

def maxDlq : ℕ := 128

structure OutboxItem where
  id : String
  tenant : String
  event : String
  url : String
  body : Json
  attempts : UInt32
  nextAttemptMs : Int64
  lastError : Option String
  createdMs : Int64
  deriving DecidableEq

def OutboxItem.toJson (item : OutboxItem) : Json :=
  .obj [
    ("attempts", ofInt item.attempts.toNat),
    ("body", item.body),
    ("created_ms", ofInt item.createdMs.toInt),
    ("event", .str item.event),
    ("id", .str item.id),
    ("last_error", (item.lastError.map Json.str).getD .null),
    ("next_attempt_ms", ofInt item.nextAttemptMs.toInt),
    ("tenant", .str item.tenant),
    ("url", .str item.url)]

def OutboxItem.fromJson (v : Json) : Option OutboxItem :=
  ((v.get? "id").bind asStr).map fun id => {
    id := id
    tenant := v.strOr "tenant"
    event := v.strOr "event"
    url := v.strOr "url"
    body := (v.get? "body").getD (.obj [])
    attempts := UInt32.ofNat (((v.get? "attempts").bind asU64).getD 0)
    nextAttemptMs := Int64.ofInt (v.i64Or "next_attempt_ms" 0)
    lastError := (v.get? "last_error").bind asStr
    createdMs := Int64.ofInt (v.i64Or "created_ms" 0) }

theorem fromJson_toJson (item : OutboxItem) :
    OutboxItem.fromJson item.toJson = some item := by
  have hint64 (n : Int64) : -2 ^ 63 ≤ n.toInt ∧ n.toInt < 2 ^ 63 :=
    ⟨n.le_toInt, n.toInt_lt⟩
  have hid : (item.toJson.get? "id").bind asStr = some item.id := rfl
  have htenant : item.toJson.strOr "tenant" = item.tenant :=
    strOr_of_get? rfl
  have hevent : item.toJson.strOr "event" = item.event :=
    strOr_of_get? rfl
  have hurl : item.toJson.strOr "url" = item.url :=
    strOr_of_get? rfl
  have hbody : item.toJson.get? "body" = some item.body := rfl
  have hattempts : ((item.toJson.get? "attempts").bind asU64).getD 0 =
      item.attempts.toNat := by
    have hget : item.toJson.get? "attempts" =
        some (ofInt item.attempts.toNat) := rfl
    have hlt := item.attempts.toNat_lt
    have hrange : (0 : ℤ) ≤ item.attempts.toNat ∧
        (item.attempts.toNat : ℤ) < 2 ^ 64 := by
      omega
    rw [hget, Option.bind_some, asU64_ofInt hrange, Option.getD_some,
      Int.toNat_natCast]
  have hnext : item.toJson.i64Or "next_attempt_ms" 0 =
      item.nextAttemptMs.toInt :=
    i64Or_of_get? rfl (hint64 item.nextAttemptMs)
  have herror : (item.toJson.get? "last_error").bind asStr =
      item.lastError := by
    have hget : item.toJson.get? "last_error" =
        some ((item.lastError.map Json.str).getD .null) := rfl
    rw [hget]
    cases item.lastError <;> rfl
  have hcreated : item.toJson.i64Or "created_ms" 0 = item.createdMs.toInt :=
    i64Or_of_get? rfl (hint64 item.createdMs)
  unfold OutboxItem.fromJson
  rw [hid, htenant, hevent, hurl, hbody, hattempts, hnext, herror, hcreated,
    UInt32.ofNat_toNat, Int64.ofInt_toInt, Int64.ofInt_toInt]
  rfl

/-! ## Queues and files -/

structure Tagged where
  uid : ℕ
  item : OutboxItem
  deriving DecidableEq

def Tagged.origin (t : Tagged) : Tagged :=
  { t with item := { t.item with
    attempts := 0
    nextAttemptMs := t.item.createdMs
    lastError := none } }

structure Boxes where
  pending : List Tagged
  dlq : List Tagged

structure Files where
  pending : List (ℕ × Json)
  dlq : List (ℕ × Json)

def toLine (t : Tagged) : ℕ × Json :=
  (t.uid, t.item.toJson)

def fromLine (line : ℕ × Json) : Option Tagged :=
  (OutboxItem.fromJson line.2).map fun item => { uid := line.1, item := item }

def persistBoxes (b : Boxes) : Files where
  pending := b.pending.map toLine
  dlq := b.dlq.map toLine

/-- Lines that do not parse are skipped. -/
def loadBoxes (f : Files) : Boxes where
  pending := f.pending.filterMap fromLine
  dlq := f.dlq.filterMap fromLine

theorem loadBoxes_persistBoxes (b : Boxes) : loadBoxes (persistBoxes b) = b := by
  have hline (t : Tagged) : fromLine (toLine t) = some t := by
    unfold fromLine toLine
    rw [fromJson_toJson]
    rfl
  have hlines (items : List Tagged) :
      (items.map toLine).filterMap fromLine = items := by
    rw [List.filterMap_map]
    have hid : fromLine ∘ toLine = some := funext hline
    rw [hid, List.filterMap_some]
  unfold loadBoxes persistBoxes
  rw [hlines, hlines]

/-! ## Enqueueing and settling -/

structure WebhookCrypto where
  sha256Hex : List UInt8 → String
  jsonText : Json → String

def hexOf (n : Int64) : String :=
  String.ofList (Nat.toDigits 16 n.toUInt64.toNat)

def webhookId (now : Int64) (tenant : String) : String :=
  "wh_" ++ hexOf now ++ "_" ++ String.ofList (tenant.toList.take 8)

def signWebhookBody (C : WebhookCrypto) (secret : String) (body : Json) : String :=
  C.sha256Hex (asBytes secret ++ asBytes "|" ++ asBytes (C.jsonText body))

def webhookBody (C : WebhookCrypto) (id tenant event : String) (payload : Json)
    (secret : Option String) (now : Int64) : Json :=
  match payload with
  | .obj _ =>
      let body := (((payload.setMember "event" (.str event)).setMember "tenant"
        (.str tenant)).setMember "webhook_id" (.str id)).setMember "ts_ms"
        (ofInt now.toInt)
      match secret with
      | some sec =>
          let digest := C.sha256Hex (asBytes (C.jsonText body))
          body.setMember "sig" (.str (signWebhookBody C sec (.obj [
            ("event", .str event),
            ("payload_digest", .str digest),
            ("tenant", .str tenant)])))
      | none => body
  | _ => payload

def newItem (C : WebhookCrypto) (tenant event url : String) (payload : Json)
    (secret : Option String) (now : Int64) : OutboxItem where
  id := webhookId now tenant
  tenant := tenant
  event := event
  url := url
  body := webhookBody C (webhookId now tenant) tenant event payload secret now
  attempts := 0
  nextAttemptMs := now
  lastError := none
  createdMs := now

/-- Dead letters past the bound fall out at the front. -/
def boundDlq (dlq : List Tagged) : List Tagged × List ℕ :=
  let excess := dlq.length - maxDlq
  (dlq.drop excess, (dlq.take excess).map Tagged.uid)

/-- The queues, and the numbers dropped by the bound. -/
def pushPending (b : Boxes) (t : Tagged) : Boxes × List ℕ :=
  let pending := b.pending ++ [t]
  let excess := pending.length - maxOutbox
  let bounded := boundDlq (b.dlq ++ pending.take excess)
  ({ pending := pending.drop excess, dlq := bounded.1 }, bounded.2)

/-- A failed item with its count and error, back to retry or dead. -/
def requeueFailed (b : Boxes) (t : Tagged) (error : String) (maxAttempts : UInt32)
    (now : Int64) : Boxes × List ℕ :=
  let attempts := t.item.attempts + 1
  let item := { t.item with attempts := attempts, lastError := some error }
  if maxAttempts ≤ attempts then
    let bounded := boundDlq (b.dlq ++ [{ t with item := item }])
    ({ b with dlq := bounded.1 }, bounded.2)
  else
    let backoff := Int64.ofInt (2 ^ min attempts.toNat 8 * 1000)
    let item := { item with nextAttemptMs := now + backoff }
    ({ b with pending := b.pending ++ [{ t with item := item }] }, [])

def splitReady (now : Int64) : ℕ → List Tagged → List Tagged × List Tagged
  | _, [] => ([], [])
  | maxN, t :: rest =>
      if 0 < maxN ∧ t.item.nextAttemptMs ≤ now then
        let split := splitReady now (maxN - 1) rest
        (t :: split.1, split.2)
      else
        let split := splitReady now maxN rest
        (split.1, t :: split.2)

/-! ## Steps -/

structure State where
  boxes : Boxes
  files : Files
  /-- The items each running drain call has not handled yet. -/
  drains : ℕ → Option (List Tagged)
  enqueued : List Tagged
  settled : List ℕ

def State.init : State where
  boxes := { pending := [], dlq := [] }
  files := { pending := [], dlq := [] }
  drains := fun _ => none
  enqueued := []
  settled := []

/-- `deliver` is the answer to the next item of drain call `k`. -/
inductive Event where
  | enqueue (tenant event url : String) (payload : Json) (secret : Option String)
      (now : Int64)
  | drainPop (k maxN : ℕ) (now : Int64)
  | deliver (k : ℕ) (answer : Except String ℕ) (maxAttempts : UInt32) (now : Int64)
  | drainFinish (k : ℕ)
  | markFailed (id error : String) (maxAttempts : UInt32) (now : Int64)
  | markOk (id : String)
  | crash

def isDelivered : Except String ℕ → Bool
  | .ok code => 200 ≤ code && code < 300
  | .error _ => false

def answerError : Except String ℕ → String
  | .ok code => "http_" ++ code.repr
  | .error e => e

def State.write (s : State) (b : Boxes) (dropped : List ℕ) : State :=
  { s with
    boxes := b
    files := persistBoxes b
    settled := dropped ++ s.settled }

def State.setDrain (s : State) (k : ℕ) (items : Option (List Tagged)) : State :=
  { s with drains := Function.update s.drains k items }

def State.uidsOf (s : State) (id : String) : List ℕ :=
  (s.enqueued.filter fun t => t.item.id = id).map Tagged.uid

def State.enqueue (C : WebhookCrypto) (s : State) (tenant event url : String)
    (payload : Json) (secret : Option String) (now : Int64) : State :=
  let t : Tagged :=
    { uid := s.enqueued.length, item := newItem C tenant event url payload secret now }
  let pushed := pushPending s.boxes t
  { s.write pushed.1 pushed.2 with enqueued := t :: s.enqueued }

def State.drainPop (s : State) (k maxN : ℕ) (now : Int64) : State :=
  match s.drains k with
  | some _ => s
  | none =>
      let split := splitReady now maxN s.boxes.pending
      { s.setDrain k (some split.1) with
        boxes := { s.boxes with pending := split.2 } }

def State.deliver (s : State) (k : ℕ) (answer : Except String ℕ)
    (maxAttempts : UInt32) (now : Int64) : State :=
  match s.drains k with
  | some (t :: rest) =>
      let s := s.setDrain k (some rest)
      if isDelivered answer then { s with settled := t.uid :: s.settled }
      else
        let requeued :=
          requeueFailed s.boxes t (answerError answer) maxAttempts now
        s.write requeued.1 requeued.2
  | _ => s

def State.drainFinish (s : State) (k : ℕ) : State :=
  match s.drains k with
  | some [] => (s.setDrain k none).write s.boxes []
  | _ => s

def State.markFailed (s : State) (id error : String) (maxAttempts : UInt32)
    (now : Int64) : State :=
  match s.boxes.pending.find? fun t => t.item.id = id with
  | none => s
  | some t =>
      let b := { s.boxes with
        pending := s.boxes.pending.eraseP fun t => t.item.id = id }
      let requeued := requeueFailed b t error maxAttempts now
      s.write requeued.1 requeued.2

def State.markOk (s : State) (id : String) : State :=
  s.write
    { s.boxes with pending := s.boxes.pending.filter fun t => t.item.id ≠ id }
    (s.uidsOf id)

def State.crash (s : State) : State :=
  { s with boxes := loadBoxes s.files, drains := fun _ => none }

def step (C : WebhookCrypto) (s : State) : Event → State
  | .enqueue tenant event url payload secret now =>
      s.enqueue C tenant event url payload secret now
  | .drainPop k maxN now => s.drainPop k maxN now
  | .deliver k answer maxAttempts now => s.deliver k answer maxAttempts now
  | .drainFinish k => s.drainFinish k
  | .markFailed id error maxAttempts now => s.markFailed id error maxAttempts now
  | .markOk id => s.markOk id
  | .crash => s.crash

end WebhookOutbox

end GrServer
