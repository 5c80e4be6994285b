import GrServer.DigestParts
import GrServer.SourceTrust

/-!
# The observation envelope of a sealed batch

Every batch is stamped with an envelope that says who produced it.  The producer
class is read off the source label and the injection path, which the browser
sends; the id of the observation is the claimed one where it looks like an id.
-/

namespace GrServer

open Json Text EvidenceMerge

namespace ObservationEnvelope

inductive SourceKind where
  | fe
  | gateway
  | cloudEdge
  | backend
  deriving DecidableEq

def SourceKind.asStr : SourceKind → String
  | fe => "fe"
  | gateway => "gateway"
  | cloudEdge => "cloud_edge"
  | backend => "backend"

def inferSourceKind (source : String) (injectPath : Option String) : SourceKind :=
  let s := lowered (trimmed source)
  let inj := lowered (injectPath.getD "")
  if containsStr s "cloudflare" ∨ s = "cf" ∨ startsWith s "cf_" ∨ inj = "cf_worker" ∨
      inj = "cloudflare" then .cloudEdge
  else if containsStr s "gateway" ∨ s = "b8" ∨ inj = "nginx" then .gateway
  else if containsStr s "backend" ∨ s = "sdk" then .backend
  else .fe

def inferRealmKind (source : String) : String :=
  let s := lowered (trimmed source)
  if containsStr s "worker" then "worker"
  else if containsStr s "sandbox" then "sandbox_iframe"
  else if containsStr s "iframe" then "iframe"
  else if containsStr s "h3" then "h3_connection"
  else if containsStr s "gateway" ∨ containsStr s "cloudflare" ∨ s = "cf" then "none"
  else "document"

def shortSrc (source : String) : String :=
  String.ofList ((source.toList.filter fun c =>
    c.isAlphanum || c = '_' || c = '-' || c = '.').take 32)

def inferSourceId (source : String) (sourceKind : SourceKind) (realmKind : String) : String :=
  match sourceKind with
  | .cloudEdge => "gw.cloudflare"
  | .gateway => "gw.edge.tls"
  | .backend => "be.result"
  | .fe =>
      if realmKind = "worker" then "fe.worker." ++ shortSrc source
      else if realmKind = "iframe" then "fe.iframe." ++ shortSrc source
      else if realmKind = "sandbox_iframe" then "fe.sandbox." ++ shortSrc source
      else "fe.main"

/-! ## Claims -/

def isControl (c : Char) : Bool :=
  c.toNat < 0x20 || (0x7f ≤ c.toNat && c.toNat ≤ 0x9f)

def sanitizeToken (raw : Option String) (max : ℕ) : Option String :=
  raw.bind fun raw =>
    let s := trimmed raw
    if s = "" then none
    else
      let t := s.toList.take max
      if t.any isControl then none else some (String.ofList t)

/-- A lower-case letter and up to 62 letters, digits, `_`, `.` or `-`. -/
def methodOk (id : String) : Bool :=
  match id.toList with
  | [] => false
  | c :: rest =>
      c.isLower && rest.length ≤ 62 &&
        rest.all fun d => d.isLower || d.isDigit || d = '_' || d = '.' || d = '-'

def methodFamilies : List String :=
  ["b10", "b11", "b7", "b8", "b0", "b1", "b12", "cf_", "gateway_"]

def methodNames : List String := ["legacy_unknown", "gateway_tls", "cf_http_headers"]

/-- What the stamp takes from elsewhere: the digest in lower-case hex and the
catalog's `resolve`, absent where the catalog cannot be loaded. -/
structure Env where
  sha256Hex : List UInt8 → String
  catalog : Option (String → Bool)

def validateProbeMethodId (E : Env) (claimed : Option String) (batchId : String) :
    Option String :=
  (sanitizeToken claimed 64).bind fun raw =>
    let id := lowered raw
    if ¬ methodOk id then none
    else if E.catalog.any fun resolve => resolve id || resolve batchId then some id
    else if methodFamilies.any (startsWith id) || methodNames.contains id then some id
    else none

structure ClaimedEnvelope where
  sourceKind : Option String
  realmId : Option String
  realmKind : Option String
  probeMethodId : Option String
  methodVersion : Option String
  observationId : Option String
  attemptId : Option String
  captureId : Option String
  materialGeneration : Option ℤ

def observationSeed (sessionId batchId source : String) (attemptId captureId : Option String) :
    String :=
  sessionId ++ "|" ++ batchId ++ "|" ++ source ++ "|" ++ attemptId.getD "" ++ "|" ++
    captureId.getD ""

def makeObservationId (E : Env) (sessionId batchId source : String)
    (attemptId captureId : Option String) : String :=
  let h := E.sha256Hex (asBytes (observationSeed sessionId batchId source attemptId captureId))
  "obs_" ++ String.ofList (h.toList.take 16)

/-- The claimed id, where it is taken. -/
def claimedToken (claimed : ClaimedEnvelope) : Option String :=
  (sanitizeToken claimed.observationId 80).filter fun s => startsWith s "obs_"

/-! ## The stamp -/

def jsonOfOption (v : Option String) : Json := v.elim .null .str

section Stamp

variable (E : Env) (sessionId batchId source : String) (injectPath : Option String)
  (claimed : ClaimedEnvelope)

def validatedKind : SourceKind :=
  let inferred := inferSourceKind source injectPath
  let claimedKind := (claimed.sourceKind.map fun s => lowered (trimmed s)).filter fun s =>
    ["fe", "gateway", "cloud_edge", "backend"].contains s
  if claimedKind = some "fe" ∧ inferred = .fe then .fe
  else if claimedKind = some "backend" ∧ inferred = .backend then .backend
  else inferred

def validatedRealm : String :=
  let claimedRealm := claimed.realmKind.map fun s => lowered (trimmed s)
  match claimedRealm with
  | some r =>
      if inferSourceKind source injectPath = .fe ∧
          ["document", "iframe", "worker", "sandbox_iframe"].contains r then r
      else inferRealmKind source
  | none => inferRealmKind source

def validatedMethod : String :=
  (validateProbeMethodId E claimed.probeMethodId batchId).getD "legacy_unknown"

def observationIdOf : String :=
  (claimedToken claimed).getD
    (makeObservationId E sessionId batchId source claimed.attemptId claimed.captureId)

def trustClass (kind : SourceKind) : String :=
  if kind = .fe then "client_sealed_claim" else "server_edge"

def claimedPart : Json :=
  .obj [
    ("method_version", jsonOfOption claimed.methodVersion),
    ("probe_method_id", jsonOfOption claimed.probeMethodId),
    ("realm_id", jsonOfOption claimed.realmId),
    ("realm_kind", jsonOfOption claimed.realmKind),
    ("source", .str source),
    ("source_kind", jsonOfOption claimed.sourceKind)]

def validatedPart : Json :=
  let kind := validatedKind source injectPath claimed
  let realm := validatedRealm source injectPath claimed
  .obj [
    ("probe_method_id", .str (validatedMethod E batchId claimed)),
    ("provenance_quality",
      .str (if claimed.probeMethodId.isSome then "partial" else "legacy_batch")),
    ("realm_id", jsonOfOption (claimed.realmId.filter fun _ => kind = .fe)),
    ("realm_kind", .str realm),
    ("source_id", .str (inferSourceId source kind realm)),
    ("source_kind", .str kind.asStr),
    ("trust_class", .str (trustClass kind))]

def lineagePart (payload : Json) : Json :=
  let keys := ((((payload.get? "fields").bind asObject).map SortedMap.keys).getD [])
  let hex := E.sha256Hex (asBytes (",".intercalate keys))
  .obj [
    ("duplicate_weight_policy", .str "retain_candidates_limit_repeat_weight"),
    ("equivalence_group", .str ((validatedKind source injectPath claimed).asStr ++ ":" ++
      validatedMethod E batchId claimed)),
    ("input_snapshot_hash", .str ("sha256:" ++ String.ofList (hex.toList.take 16)))]

/-- The envelope; the caller also finds it in the payload's `observation`. -/
def stampObservationEnvelope (payload : Json) (now : ℤ) : Json :=
  .obj [
    ("attempt_id", jsonOfOption claimed.attemptId),
    ("batch_id", .str batchId),
    ("capture_id", jsonOfOption claimed.captureId),
    ("claimed", claimedPart source claimed),
    ("lineage", lineagePart E batchId source injectPath claimed payload),
    ("material_generation", claimed.materialGeneration.elim .null ofInt),
    ("observation_id", .str (observationIdOf E sessionId batchId source claimed)),
    ("probe_pack_id", .str batchId),
    ("schema", .str "gr.observation_envelope.v1"),
    ("session_id", .str sessionId),
    ("stamped_at_ms", ofInt now),
    ("validated", validatedPart E batchId source injectPath claimed)]

end Stamp

/-- A body as the stamp reads it; `payload` is what stands there when the
handler has enriched it. -/
structure IngestBody where
  sessionId : String
  batchId : String
  source : String
  payload : Json
  injectPath : Option String
  claimed : ClaimedEnvelope

structure ObservationRow where
  observationId : String
  sessionId : String
  batchId : String
  source : String
  envelope : Json

structure Intake where
  /-- The source labels under which the batches of a session stand. -/
  labels : List (String × String × String)
  observations : List ObservationRow

def IngestBody.envelope (E : Env) (b : IngestBody) (now : ℤ) : Json :=
  stampObservationEnvelope E b.sessionId b.batchId b.source b.injectPath b.claimed b.payload now

/-- The label of the batch and the observation of an accepted body; a row whose
id exists is not inserted. -/
def ingestPlainBody (E : Env) (s : Intake) (b : IngestBody) (now : ℤ) : Intake :=
  let envelope := b.envelope E now
  let row : ObservationRow :=
    ⟨envelope.strOr "observation_id", b.sessionId, b.batchId, b.source, envelope⟩
  let label := (b.sessionId, b.batchId, b.source)
  { labels := if label ∈ s.labels then s.labels else s.labels ++ [label]
    observations :=
      if s.observations.any fun o => o.observationId = row.observationId then s.observations
      else s.observations ++ [row] }

end ObservationEnvelope

end GrServer
