import GrServer.ApiError
import GrServer.GuardedRun

/-!
# The replay ledger of sealed ingest

An ingest delivery in the order of its checks.  The nonce of a delivery is
consumed in a statement of its own, before the later checks and the upsert.
What the surroundings answer (the signature check, site authorization, panel
policy, the session's plan epoch, the SDK key, the upsert, a crash) is the
environment of a delivery; the store is the ledger and the triples of the
deliveries that were stored.
-/

namespace GrServer

open Text

namespace SealLedger

structure IngestBody where
  sessionId : String
  batchId : String
  planEpoch : Option ℤ
  deriving DecidableEq

/-- A request as the handler sees it: headers, the size and digest of the body,
and what parsing it gives. -/
structure Request where
  bodyLen : ℕ
  bodyHash : String
  relayTs : Option ℤ
  relayNonce : Option String
  relaySig : Option String
  claimedHash : Option String
  sealVerified : Bool
  parsed : Except ApiError IngestBody

structure Env where
  relaySigValid : Bool
  siteAuth : Except ApiError Unit
  /-- `none` when the component catalog cannot be loaded. -/
  catalog : Option (String → Bool)
  ledgerFails : Bool
  crashAfterLedger : Bool
  collectEnabled : Bool
  rpaCollect : Bool
  serverPlanEpoch : ℤ
  sdkKey : Except String Unit
  /-- The `ok` member of the upsert outcome, or its error. -/
  upsert : Except ApiError Bool

inductive Reply where
  | error (e : ApiError)
  | ignored
  | stalePlan (serverEpoch clientEpoch : ℤ)
  | acked (ok : Bool)
  | lost
  deriving DecidableEq

structure NonceKey where
  sessionId : String
  batchId : String
  nonce : String
  deriving DecidableEq

structure Store where
  consumed : List NonceKey
  stored : List NonceKey

def validateIngestBatchId (catalog : Option (String → Bool)) (batchId : String) :
    Except ApiError Unit :=
  let bid := trimmed batchId
  if bid = "" then .error ⟨400, "batch_id empty"⟩
  else if startsWith bid "ops." || startsWith bid "lab." || bid = "B8_gateway" then
    .ok ()
  else
    match catalog with
    | none => .ok ()
    | some resolves =>
        if resolves bid then .ok ()
        else if resolves "B8_gateway_early" && bid = "gateway.b8" then .ok ()
        else
          .error ⟨400, "batch_id not in catalog: " ++ bid ++ " (A-DF-1 ingest allowlist)"⟩

def relayGate (env : Env) (req : Request) : Except ApiError Unit :=
  match req.relayTs, req.relayNonce, req.relaySig with
  | some _, some _, some _ =>
      if env.relaySigValid then .ok ()
      else .error ⟨401, "relay signature invalid"⟩
  | _, _, _ => .ok ()

def checksBeforeLedger (env : Env) (req : Request) : Except ApiError IngestBody :=
  if 512 * 1024 < req.bodyLen then .error ⟨413, "ingest body too large"⟩
  else do
    relayGate env req
    let body ← req.parsed
    env.siteAuth
    validateIngestBatchId env.catalog body.batchId
    return body

def isStalePlan (env : Env) (body : IngestBody) : Option ℤ :=
  (body.planEpoch.filter (0 < ·)).filter fun client =>
    0 < env.serverPlanEpoch && client < env.serverPlanEpoch

/-- The reply of the first check that stops the delivery. -/
def checksBehindLedger (env : Env) (req : Request) (body : IngestBody) :
    Option Reply :=
  if ¬ env.collectEnabled then some (.error ⟨403, "collect_disabled"⟩)
  else if ¬ env.rpaCollect ∧ containsStr body.batchId "B11" then some .ignored
  else
    match isStalePlan env body with
    | some client => some (.stalePlan env.serverPlanEpoch client)
    | none =>
        let claimed := req.claimedHash.getD ""
        if claimed ≠ "" ∧ claimed ≠ req.bodyHash then
          some (.error ⟨400, "payload_hash mismatch (iss/49 ingest audit)"⟩)
        else if req.sealVerified then none
        else
          match env.sdkKey with
          | .ok _ => none
          | .error e => some (.error ⟨401, e⟩)

def markSealConsumed (s : Store) (key : NonceKey) : Store × Bool :=
  if key ∈ s.consumed then (s, false)
  else ({ s with consumed := key :: s.consumed }, true)

def replayed : ApiError := ⟨409, "replayed sealed batch"⟩

def ledgerUnavailable : ApiError := ⟨503, "seal ledger unavailable"⟩

/-- Everything behind the ledger; `key` is the triple of a delivery that has a
nonce. -/
def finishDelivery (env : Env) (s : Store) (req : Request) (body : IngestBody)
    (key : Option NonceKey) : Store × Reply :=
  if env.crashAfterLedger then (s, .lost)
  else
    match checksBehindLedger env req body with
    | some reply => (s, reply)
    | none =>
        match env.upsert with
        | .error e => (s, .error e)
        | .ok false => (s, .acked false)
        | .ok true => ({ s with stored := key.toList ++ s.stored }, .acked true)

def ingestPlainBody (env : Env) (s : Store) (req : Request) : Store × Reply :=
  match checksBeforeLedger env req with
  | .error e => (s, .error e)
  | .ok body =>
      match req.relayNonce with
      | none => finishDelivery env s req body none
      | some nonce =>
          let key : NonceKey := ⟨body.sessionId, body.batchId, nonce⟩
          if env.ledgerFails then (s, .error ledgerUnavailable)
          else
            match markSealConsumed s key with
            | (s, true) => finishDelivery env s req body (some key)
            | (s, false) => (s, .error replayed)

/-! ## Runs of deliveries -/

/-- A delivery, a retry of the same request being one more. -/
structure Attempt where
  req : Request
  env : Env

def Store.init : Store where
  consumed := []
  stored := []

def step (s : Store) (a : Attempt) : Store :=
  (ingestPlainBody a.env s a.req).1

def reply (s : Store) (a : Attempt) : Reply :=
  (ingestPlainBody a.env s a.req).2

def Attempt.key (a : Attempt) : Option NonceKey :=
  match checksBeforeLedger a.env a.req, a.req.relayNonce with
  | .ok body, some nonce => some ⟨body.sessionId, body.batchId, nonce⟩
  | _, _ => none

/-- A replay is refused only for a triple that is stored. -/
def ReplayJustified (s : Store) (a : Attempt) : Prop :=
  ∀ key, a.key = some key → reply s a = .error replayed → key ∈ s.stored

/-- An attempt that is not acknowledged as stored consumes nothing. -/
def FailureUnconsumed (s : Store) (a : Attempt) : Prop :=
  ∀ key, a.key = some key → key ∉ s.consumed → reply s a ≠ .acked true →
    key ∉ (step s a).consumed

/-- A new triple is followed by no crash, no failing check and no failing
upsert. -/
def StoresNewTriple (s : Store) (a : Attempt) : Prop :=
  ∀ body nonce, checksBeforeLedger a.env a.req = .ok body →
    a.req.relayNonce = some nonce → a.env.ledgerFails = false →
    (⟨body.sessionId, body.batchId, nonce⟩ : NonceKey) ∉ s.consumed →
    a.env.crashAfterLedger = false ∧
      checksBehindLedger a.env a.req body = none ∧ a.env.upsert = .ok true

structure Inv (s : Store) : Prop where
  justified : ∀ key ∈ s.consumed, key ∈ s.stored
  ledgered : ∀ key ∈ s.stored, key ∈ s.consumed
  once : s.stored.Nodup

theorem key_eq_some {a : Attempt} {key : NonceKey} (h : a.key = some key) :
    ∃ body nonce, checksBeforeLedger a.env a.req = .ok body ∧
      a.req.relayNonce = some nonce ∧
      key = ⟨body.sessionId, body.batchId, nonce⟩ := by
  unfold Attempt.key at h
  cases hbody : checksBeforeLedger a.env a.req with
  | error e =>
      rw [hbody] at h
      cases h
  | ok body =>
      cases hnonce : a.req.relayNonce with
      | none =>
          rw [hbody, hnonce] at h
          cases h
      | some nonce =>
          rw [hbody, hnonce] at h
          exact ⟨body, nonce, rfl, rfl, (Option.some.inj h).symm⟩

theorem step_of_no_key {s : Store} {a : Attempt} (h : a.key = none) :
    step s a = s := by
  unfold step ingestPlainBody
  cases hbody : checksBeforeLedger a.env a.req with
  | error e => rfl
  | ok body =>
      cases hnonce : a.req.relayNonce with
      | some nonce =>
          unfold Attempt.key at h
          rw [hbody, hnonce] at h
          cases h
      | none =>
          change (finishDelivery a.env s a.req body none).1 = s
          unfold finishDelivery
          split_ifs
          · rfl
          · cases checksBehindLedger a.env a.req body with
            | some reply => rfl
            | none =>
                cases a.env.upsert with
                | error e => rfl
                | ok durable => cases durable <;> rfl

theorem deliver_consumed {s : Store} {a : Attempt} {body : IngestBody}
    {nonce : String} (hbody : checksBeforeLedger a.env a.req = .ok body)
    (hnonce : a.req.relayNonce = some nonce) (hledger : a.env.ledgerFails = false)
    (hmem : (⟨body.sessionId, body.batchId, nonce⟩ : NonceKey) ∈ s.consumed) :
    ingestPlainBody a.env s a.req = (s, .error replayed) := by
  have hmark : markSealConsumed s ⟨body.sessionId, body.batchId, nonce⟩ =
      (s, false) := if_pos hmem
  unfold ingestPlainBody
  rw [hbody, hnonce]
  dsimp only
  rw [hledger, hmark]
  rfl

theorem deliver_new {s : Store} {a : Attempt} {body : IngestBody}
    {nonce : String} (hbody : checksBeforeLedger a.env a.req = .ok body)
    (hnonce : a.req.relayNonce = some nonce) (hledger : a.env.ledgerFails = false)
    (hmem : (⟨body.sessionId, body.batchId, nonce⟩ : NonceKey) ∉ s.consumed)
    (hstores : StoresNewTriple s a) :
    ingestPlainBody a.env s a.req =
      ({ consumed := ⟨body.sessionId, body.batchId, nonce⟩ :: s.consumed
         stored := ⟨body.sessionId, body.batchId, nonce⟩ :: s.stored },
        .acked true) := by
  obtain ⟨hcrash, hchecks, hupsert⟩ := hstores body nonce hbody hnonce hledger hmem
  have hmark : markSealConsumed s ⟨body.sessionId, body.batchId, nonce⟩ =
      ({ s with consumed := ⟨body.sessionId, body.batchId, nonce⟩ :: s.consumed },
        true) := if_neg hmem
  unfold ingestPlainBody
  rw [hbody, hnonce]
  dsimp only
  rw [hledger, hmark]
  dsimp only
  unfold finishDelivery
  rw [hcrash, hchecks, hupsert]
  rfl

theorem deliver_unledgered {s : Store} {a : Attempt} {body : IngestBody}
    {nonce : String} (hbody : checksBeforeLedger a.env a.req = .ok body)
    (hnonce : a.req.relayNonce = some nonce) (hledger : a.env.ledgerFails = true) :
    ingestPlainBody a.env s a.req = (s, .error ledgerUnavailable) := by
  unfold ingestPlainBody
  rw [hbody, hnonce]
  dsimp only
  rw [hledger]
  rfl

theorem Inv.step {s : Store} {a : Attempt} (h : Inv s)
    (hstores : StoresNewTriple s a) :
    (ReplayJustified s a ∧ FailureUnconsumed s a) ∧ Inv (step s a) := by
  cases hkey : a.key with
  | none =>
      rw [step_of_no_key hkey]
      refine ⟨⟨?_, ?_⟩, h⟩
      · intro key hsome
        rw [hkey] at hsome
        cases hsome
      · intro key hsome
        rw [hkey] at hsome
        cases hsome
  | some key =>
      obtain ⟨body, nonce, hbody, hnonce, rfl⟩ := key_eq_some hkey
      unfold ReplayJustified FailureUnconsumed SealLedger.step reply
      rw [hkey]
      cases hledger : a.env.ledgerFails with
      | true =>
          rw [deliver_unledgered hbody hnonce hledger]
          refine ⟨⟨?_, ?_⟩, h⟩
          · intro key hsome hreply
            have hsame : ledgerUnavailable = replayed := Reply.error.inj hreply
            exact absurd hsame (by decide)
          · intro key hsome hnew _
            exact hnew
      | false =>
          by_cases hmem : (⟨body.sessionId, body.batchId, nonce⟩ : NonceKey) ∈
              s.consumed
          · rw [deliver_consumed hbody hnonce hledger hmem]
            refine ⟨⟨?_, ?_⟩, h⟩
            · intro key hsome _
              rw [← Option.some.inj hsome]
              exact h.justified _ hmem
            · intro key hsome hnew _
              exact hnew
          · rw [deliver_new hbody hnonce hledger hmem hstores]
            refine ⟨⟨?_, ?_⟩, ?_⟩
            · intro key hsome hreply
              cases hreply
            · intro key hsome hnew hreply
              exact absurd rfl hreply
            · refine { justified := ?_, ledgered := ?_, once := ?_ }
              · intro key hin
                rcases List.mem_cons.mp hin with rfl | hin
                · exact List.mem_cons_self
                · exact List.mem_cons_of_mem _ (h.justified key hin)
              · intro key hin
                rcases List.mem_cons.mp hin with rfl | hin
                · exact List.mem_cons_self
                · exact List.mem_cons_of_mem _ (h.ledgered key hin)
              · apply List.nodup_cons.mpr
                refine ⟨?_, h.once⟩
                intro hin
                exact hmem (h.ledgered _ hin)

theorem inv_init : Inv Store.init where
  justified := by
    intro key hin
    cases hin
  ledgered := by
    intro key hin
    cases hin
  once := List.nodup_nil

def sampleRequest : Request where
  bodyLen := 2048
  bodyHash := "9f86d081"
  relayTs := some 1700000000000
  relayNonce := some "n_abc"
  relaySig := some "c0ffee"
  claimedHash := none
  sealVerified := true
  parsed := .ok { sessionId := "s_1", batchId := "B5_main", planEpoch := none }

def calmEnv (upsert : Except ApiError Bool) : Env where
  relaySigValid := true
  siteAuth := .ok ()
  catalog := some fun bid => bid = "B5_main"
  ledgerFails := false
  crashAfterLedger := false
  collectEnabled := true
  rpaCollect := true
  serverPlanEpoch := 0
  sdkKey := .ok ()
  upsert := upsert

end SealLedger

end GrServer
