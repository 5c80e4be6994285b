import GrServer.Json
import GrServer.Text

/-!
# Sealed probe envelopes

A browser encrypts and signs a probe payload under a short-lived session key
that the server derives again from its master secret.  Both seal protocols are
here, with the policy and content gates of the second one.

The cryptographic, compression, base64 and JSON library functions enter as
`SealCrypto`; the environment is a function from variable names.
-/

namespace GrServer

open Json Text

namespace SealEnvelope

abbrev Bytes := List UInt8

structure SealCrypto where
  hmacSha256 : Bytes → Bytes → Bytes
  sha256 : Bytes → Bytes
  aesEncrypt : Bytes → Bytes → Bytes → Except String Bytes
  aesDecrypt : Bytes → Bytes → Bytes → Option Bytes
  b64Encode : Bytes → String
  b64Decode : String → Except String Bytes
  deflate : Bytes → Except String Bytes
  /-- Read at most so many bytes of the inflated stream. -/
  inflateTake : ℕ → Bytes → Except String Bytes
  toVec : Json → Except String Bytes
  fromSlice : Bytes → Except String Json
  /-- The `{:?}` form of a list of strings. -/
  debugList : List String → String

inductive SealError where
  | crypto (text : String)
  | io (text : String)
  | json (text : String)
  | badSignature
  | envelope (text : String)
  | expired
  | tooLarge
  deriving DecidableEq

inductive Fault where
  | panicked (text : String)
  | error (e : SealError)
  deriving DecidableEq

structure SealedEnvelope where
  v : UInt32
  alg : String
  sessionId : String
  visitorTerminalId : String
  batchId : String
  nonceB64 : String
  ciphertextB64 : String
  sigB64 : String
  keyMode : Option String
  sealExpMs : Option Int64
  suiteId : Option String
  feEpoch : Option String
  wasmModuleId : Option String
  challengeBind : Option String
  packSetHash : Option String

def sessionSealTtlMs : UInt64 := 6 * 60 * 60 * 1000

def maxDecompressedBytes : ℕ := 2 * 1024 * 1024

def grProductVersion : String := "1.0.14"

def sealSuite : String := "s2-aesgcm-hkdf-v1"

def sealWasmModuleId : String := "wm-v2-s2-20260806"

def b10AllowedAlgoPrefixes : List String := ["gr_cpu_curve_v3_multiround", "v3_multiround"]

def b10LegacyV2AlgoPrefixes : List String := ["gr_cpu_curve_v2_multiworkload", "v2_multiworkload"]

/-! ## Settings -/

section Settings

variable (env : String → Option String)

def sealAllowB10V2 : Bool :=
  envIs env "SEAL_ALLOW_B10_V2" ["1", "true", "TRUE", "yes", "YES"]

def sealRequireV2 : Bool :=
  match envGet env "SEAL_REQUIRE_V2" with
  | some v => decide (trimmed v ∉ ["0", "false", "FALSE", "no", "NO"])
  | none =>
      envIs env "REQUIRE_SEALED_INGEST" ["1", "true", "TRUE", "yes", "YES"] ||
        !envIs env "ALLOW_PLAIN_INGEST" ["1", "true", "TRUE"]

/-- Add a trimmed epoch that is neither empty nor there already. -/
def pushEpoch (out : List String) (p : String) : List String :=
  if trimmed p ≠ "" ∧ trimmed p ∉ out then out ++ [trimmed p] else out

def allowedFeEpochs : List String :=
  let extra := ((envGet env "SEAL_ALLOW_EPOCHS").map (splitChar ',')).getD []
  let out := extra.foldl pushEpoch [grProductVersion]
  -- the source asks for this variable twice
  ["GR_PRODUCT_VERSION", "GR_PRODUCT_VERSION"].foldl
    (fun out key => (env key).elim out (pushEpoch out)) out

def labishSealEnv : Bool :=
  envIsLowered env "DEPLOY_ENV" ["lab", "dev", "local"] ||
    (((envGet env "LAB_DISABLE_COOL").or (envGet env "ALLOW_LAB_CHALLENGE")).map fun v =>
      decide (trimmed v ∈ ["1", "true", "TRUE", "yes"])).getD false

def feImplEpochOk (feImpl : String) : Bool :=
  let allowed := allowedFeEpochs env
  let allowContent :=
    envIs env "SEAL_ALLOW_CONTENT_FE_IMPL" ["1", "true", "TRUE", "yes"] ||
      (labishSealEnv env &&
        !envIs env "SEAL_ALLOW_CONTENT_FE_IMPL" ["0", "false", "FALSE", "no"])
  if feImpl = "" then false
  else if allowed.any fun e =>
      feImpl = e || containsStr feImpl e || containsStr e feImpl then true
  else if allowContent then
    allowed.any (containsStr feImpl ·) ||
      (labishSealEnv env &&
        (startsWith feImpl "v5.8." || startsWith feImpl "v6." || startsWith feImpl "6."))
  else false

def currentSuiteId : String := sealSuite

def currentWasmModuleId : String := sealWasmModuleId

/-- The current id, or one listed in the variable. -/
def idAllowed (current name id : String) : Bool :=
  id = current ||
    ((envGet env name).map fun extra => (splitChar ',' extra).any (trimmed · = id)).getD false

def suiteAllowed (suiteId : String) : Bool :=
  idAllowed env sealSuite "SEAL_ALLOW_SUITES" suiteId

def wasmModuleAllowed (id : String) : Bool :=
  idAllowed env sealWasmModuleId "SEAL_ALLOW_WASM_MODULES" id

end Settings

/-! ## Keys and signatures -/

section Keys

variable (C : SealCrypto)

def hmacNew (key message : Bytes) : Except Fault Bytes :=
  if key = [] then
    .error (.panicked
      "seal master key is empty — set GR_SEAL_SECRET (refusing fail-open zero key)")
  else .ok (C.hmacSha256 key message)

def sessionKeyInputV2 (sessionId : String) (expMs : Int64) (feEpoch suiteId : String) : String :=
  "gr-session-seal-v2|" ++ sessionId ++ "|" ++ expMs.toInt.repr ++ "|" ++ feEpoch ++ "|" ++
    suiteId

def deriveSessionSealSecretV2 (master : Bytes) (sessionId : String) (expMs : Int64)
    (feEpoch suiteId : String) : Except Fault Bytes :=
  hmacNew C master (asBytes (sessionKeyInputV2 sessionId expMs feEpoch suiteId))

def deriveSessionSealSecret (master : Bytes) (sessionId : String) (expMs : Int64) :
    Except Fault Bytes :=
  hmacNew C master (asBytes ("gr-session-seal-v1|" ++ sessionId ++ "|" ++ expMs.toInt.repr))

def labelledKey (label : String) (secret : Bytes) : Bytes :=
  C.sha256 (asBytes label ++ secret)

def deriveKeys (secret : Bytes) : Bytes × Bytes :=
  (labelledKey C "gr-seal-enc-v1" secret, labelledKey C "gr-seal-mac-v1" secret)

def deriveKeysV2 (secret : Bytes) : Bytes × Bytes :=
  (labelledKey C "gr-seal-enc-v2" secret, labelledKey C "gr-seal-mac-v2" secret)

def signInput (e : SealedEnvelope) : String :=
  "v1|" ++ e.sessionId ++ "|" ++ e.visitorTerminalId ++ "|" ++ e.batchId ++ "|" ++
    e.nonceB64 ++ "|" ++ e.ciphertextB64

/-- A MAC accepts keys of any length, so signing does not fail. -/
def sign (macKey : Bytes) (e : SealedEnvelope) : String :=
  C.b64Encode (C.hmacSha256 macKey (asBytes (signInput e)))

def signInputV2 (e : SealedEnvelope) : String :=
  "v2|" ++ e.sessionId ++ "|" ++ e.visitorTerminalId ++ "|" ++ e.batchId ++ "|" ++
    e.suiteId.getD "" ++ "|" ++ e.feEpoch.getD "" ++ "|" ++ e.wasmModuleId.getD "" ++ "|" ++
    e.challengeBind.getD "" ++ "|" ++ e.packSetHash.getD "" ++ "|" ++ e.nonceB64 ++ "|" ++
    e.ciphertextB64

def signEnvelopeV2 (macKey : Bytes) (e : SealedEnvelope) : String :=
  C.b64Encode (C.hmacSha256 macKey (asBytes (signInputV2 e)))

end Keys

def saturatingAdd (a b : UInt64) : UInt64 :=
  UInt64.ofNat (min (a.toNat + b.toNat) (2 ^ 64 - 1))

/-- The lifetime of a grant: the default where the caller gives zero. -/
def effectiveTtl (ttlMs : UInt64) : UInt64 :=
  if ttlMs = 0 then sessionSealTtlMs else ttlMs

/-- The grant object; `wasmSha` is the digest of the WASM file, where one is
found. -/
def grantV2 (wasmSha : Option String) (sessionId : String) (expMs : Int64) (ttl : UInt64)
    (feEpoch keyB64 grantSig : String) : Json :=
  let wasmHash12 := ((wasmSha.map fun s => String.ofList (s.toList.take 12)).filter
    fun s => 8 ≤ s.utf8ByteSize).getD "missing00000"
  let wasmUrl := "/g5/dist/gr_seal_v2." ++ wasmHash12 ++ ".wasm"
  .obj [
    ("algo", .str "gr_session_seal_v2"),
    ("exp_ms", ofInt expMs.toInt),
    ("fe_epoch", .str feEpoch),
    ("grant_sig_b64", .str grantSig),
    ("key_b64", .str keyB64),
    ("key_mode", .str "session"),
    ("loader_url", .str ("/g5/dist/gr_seal_v2_loader." ++ wasmHash12 ++ ".js")),
    ("note", .str
      "v2 epoch-bound grant; wasm URL is content-hash filename (no version path)"),
    ("product_version", .str feEpoch),
    ("require_wasm", .bool true),
    ("seal_protocol", ofInt 2),
    ("session_id", .str sessionId),
    ("suite_id", .str currentSuiteId),
    ("ttl_ms", ofInt ttl.toNat),
    ("wasm_module_id", .str currentWasmModuleId),
    ("wasm_url", .str wasmUrl),
    ("wasm_url_flat", .str wasmUrl)]

def grantInputV2 (sessionId : String) (expMs : Int64) (feEpoch keyB64 : String) : String :=
  "gr-session-seal-grant-v2|" ++ sessionId ++ "|" ++ expMs.toInt.repr ++ "|" ++ feEpoch ++
    "|" ++ currentSuiteId ++ "|" ++ currentWasmModuleId ++ "|" ++ keyB64

def issueSessionSealGrantV2 (C : SealCrypto) (wasmSha : Option String) (master : Bytes)
    (sessionId : String) (nowMs ttlMs : UInt64) (feEpoch : String) : Except Fault Json := do
  let ttl := effectiveTtl ttlMs
  let expMs := (saturatingAdd nowMs ttl).toInt64
  let key ← deriveSessionSealSecretV2 C master sessionId expMs feEpoch currentSuiteId
  let keyB64 := C.b64Encode key
  let sig ← hmacNew C master (asBytes (grantInputV2 sessionId expMs feEpoch keyB64))
  return grantV2 wasmSha sessionId expMs ttl feEpoch keyB64 (C.b64Encode sig)

section Sealing

variable (C : SealCrypto)

def wrapError {α : Type} (wrap : String → SealError) (x : Except String α) : Except Fault α :=
  x.mapError fun text => .error (wrap text)

def sealAlg (useDeflate : Bool) : String :=
  if useDeflate then "aes256gcm+hmacsha256+deflate" else "aes256gcm+hmacsha256+identity"

def compress (useDeflate : Bool) (plain : Bytes) : Except Fault Bytes :=
  if useDeflate then wrapError .io (C.deflate plain) else .ok plain

def sealProbePayloadV2 (nonce : { n : Bytes // n.length = 12 }) (secret : Bytes)
    (sessionId visitorTerminalId batchId : String) (payload : Json) (sealExpMs : Int64)
    (feEpoch suiteId wasmModuleId challengeBind packSetHash : String) (useDeflate : Bool) :
    Except Fault SealedEnvelope := do
  let plain ← wrapError .json (C.toVec payload)
  let preAes ← compress C useDeflate plain
  let keys := deriveKeysV2 C secret
  let ct ← wrapError (fun text => .crypto ("encrypt: " ++ text))
    (C.aesEncrypt keys.1 nonce.val preAes)
  let e : SealedEnvelope :=
    { v := 2
      alg := sealAlg useDeflate
      sessionId := sessionId
      visitorTerminalId := visitorTerminalId
      batchId := batchId
      nonceB64 := C.b64Encode nonce.val
      ciphertextB64 := C.b64Encode ct
      sigB64 := ""
      keyMode := some "session"
      sealExpMs := some sealExpMs
      suiteId := some suiteId
      feEpoch := some feEpoch
      wasmModuleId := some wasmModuleId
      challengeBind := some challengeBind
      packSetHash := some packSetHash }
  return { e with sigB64 := signEnvelopeV2 C keys.2 e }

/-! ## Unsealing -/

def decompressLimited (data : Bytes) (max : ℕ) : Except Fault Bytes := do
  let out ← wrapError .io (C.inflateTake (max + 1) data)
  if max < out.length then .error (.error .tooLarge) else return out

def openBody (encKey : Bytes) (e : SealedEnvelope) : Except Fault Bytes := do
  let nonce ← wrapError .envelope (C.b64Decode e.nonceB64)
  if nonce.length ≠ 12 then .error (.error (.envelope "nonce must be 12 bytes"))
  else
    let ct ← wrapError .envelope (C.b64Decode e.ciphertextB64)
    match C.aesDecrypt encKey nonce ct with
    | some pre => .ok pre
    | none => .error (.error (.crypto "decrypt failed"))

def envelopeUsesDeflate (alg : String) : Bool :=
  let a := lowered alg
  containsStr a "deflate" && !containsStr a "identity" && !containsStr a "+rawplain"

def unsealProbePayload (secret : Bytes) (e : SealedEnvelope) : Except Fault Json :=
  let keys := deriveKeys C secret
  if e.v ≠ 1 then
    .error (.error (.envelope ("unseal_probe_payload is v1-only; got v=" ++ e.v.toNat.repr ++
      " (use unseal_probe_payload_auto)")))
  else if sign C keys.2 e ≠ e.sigB64 then .error (.error .badSignature)
  else do
    let pre ← openBody C keys.1 e
    let plain ←
      if envelopeUsesDeflate e.alg then decompressLimited C pre maxDecompressedBytes
      else .ok pre
    wrapError .json (C.fromSlice plain)

/-- The current secret, then the previous one where it differs. -/
def unsealProbePayloadRotated (secret : Bytes) (secretPrev : Option Bytes)
    (e : SealedEnvelope) : Except Fault Json :=
  match unsealProbePayload C secret e with
  | .error (.error .badSignature) =>
      match secretPrev with
      | some prev =>
          if prev ≠ [] ∧ prev ≠ secret then unsealProbePayload C prev e
          else .error (.error .badSignature)
      | none => .error (.error .badSignature)
  | other => other

/-- The session attempt of the first protocol; `none` where it does not decide. -/
def unsealSessionLegacy (master : Bytes) (masterPrev : Option Bytes) (e : SealedEnvelope)
    (exp : Int64) : Except Fault (Option Json) := do
  let sess ← deriveSessionSealSecret C master e.sessionId exp
  match unsealProbePayload C sess e with
  | .ok v => return some v
  | .error (.error .badSignature) =>
      match masterPrev with
      | some prev =>
          if prev ≠ [] then
            let sessPrev ← deriveSessionSealSecret C prev e.sessionId exp
            return (unsealProbePayload C sessPrev e).toOption
          else return none
      | none => return none
  | .error f => .error f

def unsealProbePayloadAutoLegacy (master : Bytes) (masterPrev : Option Bytes)
    (e : SealedEnvelope) (nowMs : Int64) : Except Fault Json := do
  if lowered (e.keyMode.getD "") = "session" ∨ e.sealExpMs.isSome then
    let exp := e.sealExpMs.getD 0
    if 0 < exp ∧ exp < nowMs then .error (.error .expired)
    if 0 < exp ∧ e.sessionId ≠ "" then
      if let some v ← unsealSessionLegacy C master masterPrev e exp then
        return v
  unsealProbePayloadRotated C master masterPrev e

def decompressV2 (alg : String) (pre : Bytes) : Except Fault Bytes :=
  let a := lowered alg
  if containsStr a "deflate" ∧ ¬ containsStr a "identity" then
    decompressLimited C pre maxDecompressedBytes
  else if maxDecompressedBytes < pre.length then .error (.error .tooLarge)
  else .ok pre

def unsealV2Body (secret : Bytes) (e : SealedEnvelope) : Except Fault Json :=
  let keys := deriveKeysV2 C secret
  if signEnvelopeV2 C keys.2 e ≠ e.sigB64 then .error (.error .badSignature)
  else do
    let pre ← openBody C keys.1 e
    let plain ← decompressV2 C e.alg pre
    wrapError .json (C.fromSlice plain)

variable (env : String → Option String)

def reject {α : Type} (text : String) : Except Fault α :=
  .error (.error (.envelope text))

def validateEnvelopeV2Policy (e : SealedEnvelope) : Except Fault Unit :=
  let suite := e.suiteId.getD ""
  let epoch := e.feEpoch.getD ""
  let allowed := allowedFeEpochs env
  let wasmId := e.wasmModuleId.getD ""
  if e.v < 2 then reject "seal_v1_rejected: require seal protocol v2 (upgrade FE pin/WASM)"
  else if !suiteAllowed env suite then reject ("seal_suite_rejected: suite_id=" ++ suite)
  else if epoch = "" then reject "seal_epoch_missing"
  else if epoch ∉ allowed then
    reject ("seal_epoch_rejected: fe_epoch=" ++ epoch ++ " allowed=" ++ C.debugList allowed)
  else if wasmId = "" ∨ !wasmModuleAllowed env wasmId then
    reject ("seal_wasm_rejected: wasm_module_id=" ++ wasmId)
  else if e.challengeBind.getD "" = "" then reject "seal_challenge_bind_missing"
  else if e.packSetHash.getD "" = "" then reject "seal_pack_set_hash_missing"
  else .ok ()

/-- The `fields` of an ingest-shaped or of a bare payload. -/
def payloadFields (payload : Json) : Json :=
  (((payload.get? "payload").bind (·.get? "fields")).or (payload.get? "fields")).getD (.obj [])

def validateUnsealedContent (batchId : String) (payload : Json) : Except Fault Unit :=
  let fields := payloadFields payload
  let algo := fields.strOr "cpu_loop_algo"
  let okV3 := b10AllowedAlgoPrefixes.any (containsStr algo ·)
  let okV2 := sealAllowB10V2 env && b10LegacyV2AlgoPrefixes.any (containsStr algo ·)
  let feImpl := fields.strOr "fe_impl_version"
  if trimmed batchId ≠ "B10_hw_curves" then .ok ()
  else if algo = "" then
    reject "b10_algo_missing: cpu_loop_algo required for B10 under seal v2"
  else if !(okV3 || okV2) then
    reject ("b10_algo_rejected: cpu_loop_algo=" ++ algo ++
      " (require v3_multiround; set GR_SEAL_ALLOW_B10_V2=1 only for lab migration)")
  else if feImpl = "" ∧ !envIs env "SEAL_ALLOW_EMPTY_FE_IMPL" ["1", "true"] then
    reject "fe_impl_missing: fe_impl_version required on B10 under seal v2"
  else if feImpl ≠ "" ∧ !feImplEpochOk env feImpl then
    reject ("fe_impl_epoch_rejected: fe_impl_version=" ++ feImpl ++ " allowed=" ++
      C.debugList (allowedFeEpochs env))
  else .ok ()

def tryUnseal (e : SealedEnvelope) (master : Bytes) : Except Fault Json := do
  let sess ← deriveSessionSealSecretV2 C master e.sessionId (e.sealExpMs.getD 0)
    (e.feEpoch.getD "") (e.suiteId.getD sealSuite)
  unsealV2Body C sess e

/-- The attempt after a bad signature under the current master; an error of
this one is reported as a bad signature again. -/
def tryPrevious (masterPrev : Option Bytes) (e : SealedEnvelope) : Except Fault Json :=
  match masterPrev with
  | none => .error (.error .badSignature)
  | some prev =>
      if prev = [] then .error (.error .badSignature)
      else
        match tryUnseal C e prev with
        | .ok v => (validateUnsealedContent C env e.batchId v).map fun _ => v
        | .error (.panicked text) => .error (.panicked text)
        | .error (.error _) => .error (.error .badSignature)

def unsealProbePayloadAutoV2 (master : Bytes) (masterPrev : Option Bytes)
    (e : SealedEnvelope) (nowMs : Int64) : Except Fault Json :=
  let exp := e.sealExpMs.getD 0
  if sealRequireV2 env ∧ e.v < 2 then
    reject "seal_v1_rejected: GR_SEAL_REQUIRE_V2 — upgrade FE to pin+WASM seal v2"
  else if 2 ≤ e.v then do
    validateEnvelopeV2Policy C env e
    if 0 < exp ∧ exp < nowMs then .error (.error .expired)
    else
      match tryUnseal C e master with
      | .ok v => (validateUnsealedContent C env e.batchId v).map fun _ => v
      | .error (.error .badSignature) => tryPrevious C env masterPrev e
      | .error f => .error f
  else unsealProbePayloadAutoLegacy C master masterPrev e nowMs

end Sealing

end SealEnvelope

end GrServer
