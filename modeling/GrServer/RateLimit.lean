import GrServer.EdgeFingerprint
import GrServer.GuardedRun
import GrServer.RuntimeCfg

/-!
# Rate limits per minute

Every check of a key counts in the minute of the caller's clock, in the shared
table while the store answers and in the process otherwise.  A count starts
again with another minute, an earlier one included.
-/

namespace GrServer

open Text PanelConfig

namespace RateLimit

/-! ## Limits -/

/-- What a process knows at a call: its environment, by the names behind `GR_`, and the
configuration it holds. -/
structure Config where
  env : String → Option String
  cfg : RuntimeCfg

def truthy (v : String) : Bool := decide (lowered v ∈ ["1", "true", "yes", "on"])

def resultTokenEnforced (env : String → Option String) : Bool :=
  let allowOpen := ((env "ALLOW_OPEN_RESULTS").map fun v => truthy (trimmed v)).getD false
  let legacyOpen := ((env "REQUIRE_RESULT_TOKEN").map fun v =>
    decide (lowered (trimmed v) ∈ ["0", "false", "no", "off", "open"])).getD false
  !(allowOpen || legacyOpen)

def enabled (env : String → Option String) : Bool :=
  if env "RATE_LIMIT_FORCE" = some "1" then true
  else if env "RATE_LIMIT_OFF" = some "1" then false
  else resultTokenEnforced env

def nonneg (v : ℤ) : Option ℕ := if 0 ≤ v then some v.toNat else none

def envKey (route : String) : String :=
  if route = "open" then "RATE_LIMIT_OPEN_PER_MIN"
  else if route = "ingest" then "RATE_LIMIT_INGEST_PER_MIN"
  else if route = "analyze" then "RATE_LIMIT_ANALYZE_PER_MIN"
  else if route = "complete" then "RATE_LIMIT_COMPLETE_PER_MIN"
  else if route = "result" then "RATE_LIMIT_RESULT_PER_MIN"
  else if route = "client_event" then "RATE_LIMIT_CLIENT_EVENT_PER_MIN"
  else "RATE_LIMIT_DEFAULT_PER_MIN"

def fromCfg (c : RuntimeCfg) (route : String) : Option ℕ :=
  if route = "open" then nonneg c.rateLimitOpenPerMin
  else if route = "ingest" then nonneg c.rateLimitIngestPerMin
  else if route = "analyze" then nonneg c.rateLimitAnalyzePerMin
  else if route = "complete" then nonneg c.rateLimitCompletePerMin
  else if route = "result" then nonneg c.rateLimitResultPerMin
  else if route = "client_event" then nonneg c.rateLimitClientEventPerMin
  else none

def envLimit (env : String → Option String) (key : String) (default : ℕ) : ℕ :=
  ((env key).bind (EdgeFingerprint.parseUnsigned 64)).getD default

/-- `limit_for`: a published configuration goes before the environment. -/
def limitFor (c : Config) (route : String) : ℕ :=
  ((if 0 < c.cfg.version then fromCfg c.cfg route else none)).getD
    (envLimit c.env (envKey route) 0)

def limitClientEventPerIp (c : Config) : ℕ :=
  ((if 0 < c.cfg.version then nonneg c.cfg.rateLimitClientEventPerIpPerMin else none)).getD
    (envLimit c.env "RATE_LIMIT_CLIENT_EVENT_PER_IP_PER_MIN" 100)

/-! ## Counters -/

abbrev Window := ℕ × ℕ

/-- A `CASE WHEN` of the update, and the reset of a local bucket. -/
def Window.next (row : Option Window) (window : ℕ) : ℕ :=
  match row with
  | some (w, n) => if w = window then n + 1 else 1
  | none => 1

def purge (rows : SortedMap String Window) (window : ℕ) : SortedMap String Window :=
  rows.filter fun _ row => !decide (row.1 < window - 2)

def bumpRateLimitWindow (rows : SortedMap String Window) (key : String) (window : ℕ) :
    SortedMap String Window × ℕ :=
  let rows := purge rows window
  let count := Window.next (rows.get? key) window
  (rows.insert key (window, count), count)

def asI64 (cap : ℕ) : ℤ := (Int64.ofNat cap).toInt

/-- How the store takes part in a check: it is another backend, it answers, its purge or
its update is done but no answer comes, or it is not reached. -/
inductive StoreState where
  | other
  | up
  | purged
  | lost
  | down
  deriving DecidableEq

/-- A check as it was counted: by the shared table or a process, with the answer where the
caller had one. -/
structure Counted (ν : Type*) where
  authority : Option ν
  key : String
  window : ℕ
  cap : ℕ
  answer : Option Bool
  deriving DecidableEq

/-- The shared table, the buckets of each process, and what was counted so far. -/
structure Limiter (ν : Type*) where
  rows : SortedMap String Window := .empty
  buckets : ν → SortedMap String Window := fun _ => .empty
  log : List (Counted ν) := []
  clock : ℕ := 0

inductive Request where
  | check (site route : String)
  | checkClientEvent (site ip : String)
  deriving DecidableEq

structure Call (ν : Type*) where
  node : ν
  config : Config
  store : StoreState
  window : ℕ
  request : Request

section Checks

variable {ν : Type*} [DecidableEq ν]

def checkLocal (s : Limiter ν) (c : Call ν) (key : String) (cap : ℕ) : Limiter ν × Bool :=
  let n := Window.next ((s.buckets c.node).get? key) c.window
  let ok := decide (n ≤ cap)
  ({ s with
      buckets := Function.update s.buckets c.node ((s.buckets c.node).insert key (c.window, n))
      log := s.log ++ [⟨some c.node, key, c.window, cap, some ok⟩] }, ok)

def checkKey (s : Limiter ν) (c : Call ν) (key : String) (cap : ℕ) : Limiter ν × Bool :=
  if cap = 0 then (s, true)
  else
    let bumped := bumpRateLimitWindow s.rows key c.window
    match c.store with
    | .other => checkLocal s c key cap
    | .up =>
        let ok := decide ((bumped.2 : ℤ) ≤ asI64 cap)
        ({ s with
            rows := bumped.1
            log := s.log ++ [⟨none, key, c.window, cap, some ok⟩] }, ok)
    | .purged => checkLocal { s with rows := purge s.rows c.window } c key cap
    | .lost =>
        checkLocal
          { s with
            rows := bumped.1
            log := s.log ++ [⟨none, key, c.window, cap, none⟩] } c key cap
    | .down => checkLocal s c key cap

def answer (s : Limiter ν) (c : Call ν) : Limiter ν × Except String Unit :=
  if !enabled c.config.env then (s, .ok ())
  else
    match c.request with
    | .check site route =>
        let cap := limitFor c.config route
        if cap = 0 then (s, .ok ())
        else
          let r := checkKey s c (site ++ ":" ++ route) cap
          (r.1, if r.2 then .ok () else .error ("rate_limited:" ++ route))
    | .checkClientEvent site ip =>
        let perIp := limitClientEventPerIp c.config
        let r := if 0 < perIp then checkKey s c ("ce:" ++ ip) perIp else (s, true)
        if !r.2 then (r.1, .error "rate_limited:client_event:ip")
        else
          let total := limitFor c.config "client_event"
          let siteKey := if site = "" then "_" else site
          let t := if 0 < total then checkKey r.1 c (siteKey ++ ":client_event") total
            else (r.1, true)
          (t.1, if t.2 then .ok () else .error "rate_limited:client_event:site")

def Limiter.at (s : Limiter ν) (c : Call ν) : Limiter ν := { s with clock := max s.clock c.window }

def Limiter.step (s : Limiter ν) (c : Call ν) : Limiter ν := (answer (s.at c) c).1

structure Layer where
  key : String
  cap : ℕ
  tag : String

/-- The layers of a request; a cap of zero lets everything pass. -/
def Request.layers (config : Config) : Request → List Layer
  | .check site route => [⟨site ++ ":" ++ route, limitFor config route, route⟩]
  | .checkClientEvent site ip =>
      [⟨"ce:" ++ ip, limitClientEventPerIp config, "client_event:ip"⟩,
        ⟨(if site = "" then "_" else site) ++ ":client_event", limitFor config "client_event",
          "client_event:site"⟩]

omit [DecidableEq ν] in
def Call.layers (c : Call ν) : List Layer :=
  if enabled c.config.env then c.request.layers c.config else []

/-- The layers one after the other, up to the first that refuses. -/
def runLayers (s : Limiter ν) (c : Call ν) : List Layer → Limiter ν × Except String Unit
  | [] => (s, .ok ())
  | l :: rest =>
      let r := checkKey s c l.key l.cap
      if r.2 then runLayers r.1 c rest else (r.1, .error ("rate_limited:" ++ l.tag))

theorem checkKey_zero (s : Limiter ν) (c : Call ν) (key : String) :
    checkKey s c key 0 = (s, true) := if_pos rfl

theorem checkKey_guarded (s : Limiter ν) (c : Call ν) (key : String) (cap : ℕ) :
    (if 0 < cap then checkKey s c key cap else (s, true)) = checkKey s c key cap := by
  cases cap with
  | zero => rfl
  | succ n => exact if_pos (Nat.succ_pos n)

theorem answer_eq (s : Limiter ν) (c : Call ν) : answer s c = runLayers s c c.layers := by
  unfold answer Call.layers
  cases enabled c.config.env with
  | false => rfl
  | true =>
      rw [if_neg (by simp), if_pos rfl]
      unfold Request.layers
      cases c.request with
      | check site route =>
          dsimp only [runLayers]
          by_cases hcap : limitFor c.config route = 0
          · rw [if_pos hcap, hcap, checkKey_zero]
            rfl
          · rw [if_neg hcap]
            cases (checkKey s c (site ++ ":" ++ route) (limitFor c.config route)).2 with
            | true => rfl
            | false => rfl
      | checkClientEvent site ip =>
          dsimp only [runLayers]
          rw [checkKey_guarded, checkKey_guarded]
          cases (checkKey s c ("ce:" ++ ip) (limitClientEventPerIp c.config)).2 with
          | false => rfl
          | true =>
              rw [if_neg (by simp), if_pos rfl]
              cases (checkKey (checkKey s c ("ce:" ++ ip) (limitClientEventPerIp c.config)).1 c
                ((if site = "" then "_" else site) ++ ":client_event")
                (limitFor c.config "client_event")).2 with
              | true => rfl
              | false => rfl

end Checks

end RateLimit

end GrServer
