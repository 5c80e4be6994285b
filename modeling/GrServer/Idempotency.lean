import GrServer.ApiError
import GrServer.GuardedRun

/-!
# Idempotency keys

A wrapped call looks its key up, runs its handler and stores the response, each
an atomic step of its own, and nothing marks a key while its handler runs.  The
request of call `i` is `reqs i`; the handler's outcome and the failures of the
store are part of the events, so a run is any interleaving with any of them.

A stored response is serialised and parsed again when it is read; `reread` is
this round trip, which need not be exact for every float.
-/

namespace GrServer

open Json Text

namespace Idempotency

structure Env where
  sha256Hex : List UInt8 → String
  reread : Json → Json
  requireKey : Bool

structure Request where
  headers : List (String × String)
  route : String
  body : List UInt8

/-! ## The key of a request -/

def headerCi (headers : List (String × String)) (name : String) : String :=
  ((headers.find? fun h => lowered h.1 = lowered name).map Prod.snd).getD ""

def header? (headers : List (String × String)) (name : String) : Option String :=
  (headers.find? fun h => h.1 = name).map Prod.snd

def siteOf (headers : List (String × String)) : String :=
  match (header? headers "host").or (header? headers "Host") with
  | some host => lowered (String.ofList (host.toList.takeWhile (· ≠ ':')))
  | none => "_"

def principalOf (env : Env) (headers : List (String × String)) : String :=
  let sdkKey := headerCi headers "x-gr-sdk-key"
  let auth := headerCi headers "authorization"
  let bearer := ((stripPrefix? auth "Bearer ").or (stripPrefix? auth "bearer ")).getD ""
  let raw := if sdkKey = "" then trimmed bearer else sdkKey
  if raw = "" then "anon"
  else "k:" ++ String.ofList ((env.sha256Hex (asBytes raw)).toList.take 12)

def tenantOf (env : Env) (headers : List (String × String)) : String :=
  siteOf headers ++ "|" ++ principalOf env headers

def isKeyChar (c : Char) : Bool :=
  c.isAlphanum || c = '-' || c = '_' || c = '.' || c = ':'

def keyInvalid : ApiError := ⟨400, "idempotency_key_invalid"⟩

def keyRequired : ApiError := ⟨400, "idempotency_key_required"⟩

def conflict : ApiError := ⟨409, "idempotency_conflict"⟩

def sanitizeKey (raw : String) : Except ApiError (Option String) :=
  let t := trimmed raw
  if t = "" then .ok none
  else if (asBytes t).length < 8 ∨ 128 < (asBytes t).length then .error keyInvalid
  else if t.toList.all isKeyChar then .ok (some t)
  else .error keyInvalid

structure RowKey where
  tenant : String
  route : String
  key : String
  deriving DecidableEq

structure Row where
  bodyHash : String
  status : ℕ
  response : Json
  deriving DecidableEq

abbrev Store := RowKey → Option Row

/-- `INSERT OR IGNORE`. -/
def putRow (store : Store) (k : RowKey) (row : Row) : Store :=
  if (store k).isSome then store else Function.update store k (some row)

/-! ## One call -/

structure Fresh where
  key : RowKey
  bodyHash : String

inductive Begun where
  | fresh (f : Fresh)
  | replay (status : ℕ) (response : Json)

def lookupRow (env : Env) (store : Store) (k : RowKey) (bodyHash : String)
    (lookupFails : Option String) : Except ApiError (Option Begun) :=
  match lookupFails with
  | some e => .error ⟨500, e⟩
  | none =>
      match store k with
      | some hit =>
          if hit.bodyHash ≠ bodyHash then .error conflict
          else .ok (some (.replay hit.status (env.reread hit.response)))
      | none => .ok (some (.fresh ⟨k, bodyHash⟩))

def begin (env : Env) (store : Store) (req : Request)
    (lookupFails : Option String) : Except ApiError (Option Begun) :=
  match sanitizeKey (headerCi req.headers "idempotency-key") with
  | .error e => .error e
  | .ok none => if env.requireKey then .error keyRequired else .ok none
  | .ok (some key) =>
      lookupRow env store ⟨tenantOf env req.headers, req.route, key⟩
        (env.sha256Hex req.body) lookupFails

/-- The status and the response that an outcome has stored, if any. -/
def storable : Except ApiError Json → Option (ℕ × Json)
  | .ok v => some (200, v)
  | .error e => if e.code < 500 ∧ e.code ≠ 429 then some (e.code, e.toJson) else none

def commit (store : Store) (begun : Option Fresh) (outcome : Except ApiError Json)
    (putFails : Bool) : Store :=
  match begun, storable outcome with
  | some f, some (status, response) =>
      if putFails then store
      else putRow store f.key ⟨f.bodyHash, status, response⟩
  | _, _ => store

abbrev Result := Except ApiError (ℕ × Json)

def finish : Except ApiError Json → Result
  | .ok v => .ok (200, v)
  | .error e => .error e

def wrapJson (env : Env) (store : Store) (req : Request)
    (lookupFails : Option String) (outcome : Except ApiError Json)
    (putFails : Bool) : Store × Result :=
  match begin env store req lookupFails with
  | .error e => (store, .error e)
  | .ok (some (.replay status response)) => (store, .ok (status, response))
  | .ok (some (.fresh f)) => (commit store (some f) outcome putFails, finish outcome)
  | .ok none => (commit store none outcome putFails, finish outcome)

def dispatch : Result → ℕ × Json
  | .ok answer => answer
  | .error e => (e.code, e.toJson)

/-! ## Interleaved calls -/

/-- `done` keeps the handler's outcome, if it ran. -/
inductive Call where
  | idle
  | begun (f : Option Fresh)
  | ran (f : Option Fresh) (outcome : Except ApiError Json)
  | done (outcome : Option (Except ApiError Json)) (result : Result)

structure State where
  store : Store
  calls : ℕ → Call

def State.init : State where
  store := fun _ => none
  calls := fun _ => .idle

inductive Event where
  | lookup (i : ℕ) (lookupFails : Option String)
  | run (i : ℕ) (outcome : Except ApiError Json)
  | put (i : ℕ) (putFails : Bool)

def State.setCall (s : State) (i : ℕ) (call : Call) : State :=
  { s with calls := Function.update s.calls i call }

def afterLookup : Except ApiError (Option Begun) → Call
  | .error e => .done none (.error e)
  | .ok (some (.replay status response)) => .done none (.ok (status, response))
  | .ok (some (.fresh f)) => .begun (some f)
  | .ok none => .begun none

def step (env : Env) (reqs : ℕ → Request) (s : State) : Event → State
  | .lookup i lookupFails =>
      match s.calls i with
      | .idle => s.setCall i (afterLookup (begin env s.store (reqs i) lookupFails))
      | _ => s
  | .run i outcome =>
      match s.calls i with
      | .begun f => s.setCall i (.ran f outcome)
      | _ => s
  | .put i putFails =>
      match s.calls i with
      | .ran f outcome =>
          { s.setCall i (.done (some outcome) (finish outcome)) with
            store := commit s.store f outcome putFails }
      | _ => s

def requestKey (env : Env) (req : Request) : Option RowKey :=
  match sanitizeKey (headerCi req.headers "idempotency-key") with
  | .ok (some key) => some ⟨tenantOf env req.headers, req.route, key⟩
  | _ => none

theorem run_alone (env : Env) (reqs : ℕ → Request) {s : State} {i : ℕ}
    (hidle : s.calls i = .idle) (lookupFails : Option String)
    (outcome : Except ApiError Json) (putFails : Bool) :
    let s' := runFrom (step env reqs) s
      [.lookup i lookupFails, .run i outcome, .put i putFails]
    let answer := wrapJson env s.store (reqs i) lookupFails outcome putFails
    s'.store = answer.1 ∧
      ∃ ran, s'.calls i = .done ran answer.2 := by
  simp only [runFrom_cons, runFrom_nil]
  unfold wrapJson
  cases hbegin : begin env s.store (reqs i) lookupFails with
  | error e =>
      simp [step, hidle, hbegin, afterLookup, State.setCall]
  | ok begun =>
      match begun with
      | none => simp [step, hidle, hbegin, afterLookup, State.setCall]
      | some (.fresh f) => simp [step, hidle, hbegin, afterLookup, State.setCall]
      | some (.replay status response) =>
          simp [step, hidle, hbegin, afterLookup, State.setCall]

end Idempotency

end GrServer
