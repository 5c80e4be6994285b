import GrServer.Faults
import GrServer.SealEnvelope

/-!
# Sealing under a grant and unsealing across a key rotation

An envelope sealed with the key of a grant opens under the master secret that
issued the grant, whether it is the current or the previous one, until the
grant expires.  The library functions enter through their round trips.
-/

namespace GrServer

open Json Text

namespace SealEnvelope

/-- What sealing and unsealing rely on: decoding inverts encoding, for every
input of the byte functions and for the payload at hand. -/
structure RoundTrips (C : SealCrypto) (payload : Json) : Prop where
  b64 : ∀ b, C.b64Decode (C.b64Encode b) = .ok b
  aes : ∀ k n p c, C.aesEncrypt k n p = .ok c → C.aesDecrypt k n c = some p
  inflate : ∀ p c n, C.deflate p = .ok c → C.inflateTake n c = .ok (p.take n)
  json : ∀ b, C.toVec payload = .ok b → C.fromSlice b = .ok payload

def TagsApart (C : SealCrypto) (k k' message : Bytes) : Prop :=
  k ≠ k' → C.hmacSha256 k message ≠ C.hmacSha256 k' message

def DigestsApart (C : SealCrypto) (a b : Bytes) : Prop :=
  a ≠ b → C.sha256 a ≠ C.sha256 b

def grantKey (C : SealCrypto) (grant : Json) : Option Bytes :=
  ((grant.get? "key_b64").bind asStr).bind fun s => (C.b64Decode s).toOption

def grantExpMs (grant : Json) : Option Int64 :=
  ((grant.get? "exp_ms").bind asI64).map Int64.ofInt

structure SealRequest where
  sessionId : String
  visitorTerminalId : String
  batchId : String
  feEpoch : String
  suiteId : String
  wasmModuleId : String
  challengeBind : String
  packSetHash : String
  payload : Json
  useDeflate : Bool
  nonce : { n : Bytes // n.length = 12 }

def SealRequest.sealWith (r : SealRequest) (C : SealCrypto) (key : Bytes) (exp : Int64) :
    Except Fault SealedEnvelope :=
  sealProbePayloadV2 C r.nonce key r.sessionId r.visitorTerminalId r.batchId r.payload exp
    r.feEpoch r.suiteId r.wasmModuleId r.challengeBind r.packSetHash r.useDeflate

structure SealRequest.Admissible (r : SealRequest) (C : SealCrypto)
    (env : String → Option String) : Prop where
  epoch : r.feEpoch ∈ allowedFeEpochs env
  suite : suiteAllowed env r.suiteId = true
  wasm : r.wasmModuleId ≠ "" ∧ wasmModuleAllowed env r.wasmModuleId = true
  challenge : r.challengeBind ≠ ""
  packs : r.packSetHash ≠ ""
  size : ∀ plain, C.toVec r.payload = .ok plain → plain.length ≤ maxDecompressedBytes
  content : validateUnsealedContent C env r.batchId r.payload = .ok ()

def keyInput (e : SealedEnvelope) : Bytes :=
  asBytes (sessionKeyInputV2 e.sessionId (e.sealExpMs.getD 0) (e.feEpoch.getD "")
    (e.suiteId.getD sealSuite))

/-- Distinct keys and messages of this envelope are told apart: the two masters
by the session keys, the session keys by the MAC keys, these by the tags. -/
structure KeysApart (C : SealCrypto) (m cur : Bytes) (e : SealedEnvelope) : Prop where
  sessionKeys : TagsApart C m cur (keyInput e)
  macKeys : DigestsApart C
    (asBytes "gr-seal-mac-v2" ++ C.hmacSha256 m (keyInput e))
    (asBytes "gr-seal-mac-v2" ++ C.hmacSha256 cur (keyInput e))
  tags : TagsApart C (deriveKeysV2 C (C.hmacSha256 m (keyInput e))).2
    (deriveKeysV2 C (C.hmacSha256 cur (keyInput e))).2 (asBytes (signInputV2 e))

def SealRequest.unsigned (r : SealRequest) (C : SealCrypto) (exp : Int64) (ct : Bytes) :
    SealedEnvelope where
  v := 2
  alg := sealAlg r.useDeflate
  sessionId := r.sessionId
  visitorTerminalId := r.visitorTerminalId
  batchId := r.batchId
  nonceB64 := C.b64Encode r.nonce.val
  ciphertextB64 := C.b64Encode ct
  sigB64 := ""
  keyMode := some "session"
  sealExpMs := some exp
  suiteId := some r.suiteId
  feEpoch := some r.feEpoch
  wasmModuleId := some r.wasmModuleId
  challengeBind := some r.challengeBind
  packSetHash := some r.packSetHash

variable {C : SealCrypto} {env : String → Option String} {r : SealRequest}
  {key : Bytes} {exp : Int64} {e : SealedEnvelope}

theorem wrapError_eq_ok {α : Type} {wrap : String → SealError} {x : Except String α} {a : α} :
    wrapError wrap x = .ok a ↔ x = .ok a := by
  cases x <;> simp [wrapError, Except.mapError]

theorem sealWith_eq_ok (h : r.sealWith C key exp = .ok e) :
    ∃ plain preAes ct,
      C.toVec r.payload = .ok plain ∧
        compress C r.useDeflate plain = .ok preAes ∧
        C.aesEncrypt (deriveKeysV2 C key).1 r.nonce.val preAes = .ok ct ∧
        e = { r.unsigned C exp ct with
          sigB64 := signEnvelopeV2 C (deriveKeysV2 C key).2 (r.unsigned C exp ct) } := by
  unfold SealRequest.sealWith sealProbePayloadV2 at h
  obtain ⟨plain, hplain, h⟩ := Faults.bind_eq_ok h
  obtain ⟨preAes, hpre, h⟩ := Faults.bind_eq_ok h
  obtain ⟨ct, hct, h⟩ := Faults.bind_eq_ok h
  exact ⟨plain, preAes, ct, wrapError_eq_ok.mp hplain, hpre, wrapError_eq_ok.mp hct,
    (Except.ok.inj h).symm⟩

theorem signEnvelopeV2_signed (macKey : Bytes) (e : SealedEnvelope) (sig : String) :
    signEnvelopeV2 C macKey { e with sigB64 := sig } = signEnvelopeV2 C macKey e := rfl

theorem decompressLimited_of_deflate {plain c : Bytes} {max : ℕ}
    (hC : RoundTrips C r.payload) (hdeflate : C.deflate plain = .ok c)
    (hsize : plain.length ≤ max) : decompressLimited C c max = .ok plain := by
  have htake : plain.take (max + 1) = plain := List.take_of_length_le (by omega)
  simp only [decompressLimited, hC.inflate plain c (max + 1) hdeflate, htake]
  simp [wrapError, Except.mapError, bind, Except.bind, hsize, pure, Except.pure]

theorem decompressV2_compress {plain pre : Bytes} (hC : RoundTrips C r.payload)
    (hpre : compress C r.useDeflate plain = .ok pre)
    (hsize : plain.length ≤ maxDecompressedBytes) :
    decompressV2 C (sealAlg r.useDeflate) pre = .ok plain := by
  cases hdeflate : r.useDeflate with
  | false =>
      have halg : ¬ containsStr (lowered (sealAlg false)) "deflate" = true := by decide
      rw [hdeflate] at hpre
      have hsame : plain = pre := by simpa [compress] using hpre
      simp [decompressV2, halg, ← hsame, hsize]
  | true =>
      have halg : containsStr (lowered (sealAlg true)) "deflate" = true ∧
          ¬ containsStr (lowered (sealAlg true)) "identity" = true := by decide
      rw [hdeflate] at hpre
      have hc : C.deflate plain = .ok pre := by
        simpa [compress, wrapError_eq_ok] using hpre
      unfold decompressV2
      rw [if_pos halg]
      exact decompressLimited_of_deflate hC hc hsize

theorem openBody_unsigned {encKey preAes ct : Bytes} (exp : Int64) (sig : String)
    (hC : RoundTrips C r.payload) (hct : C.aesEncrypt encKey r.nonce.val preAes = .ok ct) :
    openBody C encKey { r.unsigned C exp ct with sigB64 := sig } = .ok preAes := by
  have hlen : r.nonce.val.length = 12 := r.nonce.property
  simp [openBody, SealRequest.unsigned, hC.b64, hC.aes _ _ _ _ hct, wrapError,
    Except.mapError, bind, Except.bind, hlen]

theorem unsealV2Body_sealWith (hC : RoundTrips C r.payload) (hr : r.Admissible C env)
    (h : r.sealWith C key exp = .ok e) : unsealV2Body C key e = .ok r.payload := by
  obtain ⟨plain, preAes, ct, hplain, hpre, hct, rfl⟩ := sealWith_eq_ok h
  have hopened := openBody_unsigned exp
    (signEnvelopeV2 C (deriveKeysV2 C key).2 (r.unsigned C exp ct)) hC hct
  have hinflated : decompressV2 C (sealAlg r.useDeflate) preAes = .ok plain :=
    decompressV2_compress hC hpre (hr.size plain hplain)
  have hparsed : wrapError .json (C.fromSlice plain) = .ok r.payload :=
    wrapError_eq_ok.mpr (hC.json plain hplain)
  unfold unsealV2Body
  rw [if_neg (by simp [signEnvelopeV2_signed]), hopened]
  simp only [SealRequest.unsigned, bind, Except.bind, hinflated, hparsed]

theorem empty_not_mem_pushEpoch {out : List String} (h : "" ∉ out) (p : String) :
    "" ∉ pushEpoch out p := by
  unfold pushEpoch
  split_ifs with hp
  · intro hmem
    rcases List.mem_append.mp hmem with hmem | hmem
    · exact h hmem
    · exact hp.1 (List.mem_singleton.mp hmem).symm
  · exact h

theorem empty_not_mem_foldl_pushEpoch {out : List String} (h : "" ∉ out)
    (ps : List String) : "" ∉ ps.foldl pushEpoch out := by
  induction ps generalizing out with
  | nil => exact h
  | cons p ps ih =>
      rw [List.foldl_cons]
      exact ih (empty_not_mem_pushEpoch h p)

theorem empty_not_mem_elim_pushEpoch {out : List String} (h : "" ∉ out) (v : Option String) :
    "" ∉ v.elim out (pushEpoch out) := by
  cases v with
  | none => exact h
  | some v => exact empty_not_mem_pushEpoch h v

theorem empty_not_mem_allowedFeEpochs (env : String → Option String) :
    "" ∉ allowedFeEpochs env := by
  have hstart : "" ∉ [grProductVersion] := by decide
  have hextra := empty_not_mem_foldl_pushEpoch hstart
    (((envGet env "SEAL_ALLOW_EPOCHS").map (splitChar ',')).getD [])
  simp only [allowedFeEpochs, List.foldl_cons, List.foldl_nil]
  exact empty_not_mem_elim_pushEpoch (empty_not_mem_elim_pushEpoch hextra _) _

theorem policy_sealWith (hr : r.Admissible C env) (h : r.sealWith C key exp = .ok e) :
    validateEnvelopeV2Policy C env e = .ok () := by
  obtain ⟨plain, preAes, ct, -, -, -, rfl⟩ := sealWith_eq_ok h
  have hepoch : r.feEpoch ≠ "" := by
    intro hempty
    exact empty_not_mem_allowedFeEpochs env (hempty ▸ hr.epoch)
  have hversion : ¬ (2 : UInt32) < 2 := by decide
  simp [validateEnvelopeV2Policy, SealRequest.unsigned, hr.suite, hr.epoch, hepoch, hr.wasm,
    hr.challenge, hr.packs, hversion]

theorem tryUnseal_eq {master : Bytes} (hmaster : master ≠ []) (e : SealedEnvelope) :
    tryUnseal C e master = unsealV2Body C (C.hmacSha256 master (keyInput e)) e := by
  unfold tryUnseal deriveSessionSealSecretV2 hmacNew
  rw [if_neg hmaster]
  rfl

theorem keyInput_sealWith (h : r.sealWith C key exp = .ok e) :
    keyInput e = asBytes (sessionKeyInputV2 r.sessionId exp r.feEpoch r.suiteId) := by
  obtain ⟨plain, preAes, ct, -, -, -, rfl⟩ := sealWith_eq_ok h
  rfl

theorem sig_sealWith (h : r.sealWith C key exp = .ok e) :
    e.sigB64 = signEnvelopeV2 C (deriveKeysV2 C key).2 e := by
  obtain ⟨plain, preAes, ct, -, -, -, rfl⟩ := sealWith_eq_ok h
  rfl

theorem unsealV2Body_badSignature {s : Bytes} (hC : RoundTrips C r.payload)
    (h : r.sealWith C key exp = .ok e)
    (htags : C.hmacSha256 (deriveKeysV2 C key).2 (asBytes (signInputV2 e)) ≠
      C.hmacSha256 (deriveKeysV2 C s).2 (asBytes (signInputV2 e))) :
    unsealV2Body C s e = .error (.error .badSignature) := by
  have hsig : signEnvelopeV2 C (deriveKeysV2 C s).2 e ≠ e.sigB64 := by
    rw [sig_sealWith h]
    intro hsame
    have hdecoded := congrArg C.b64Decode hsame
    simp only [signEnvelopeV2, hC.b64, Except.ok.injEq] at hdecoded
    exact htags hdecoded.symm
  simp [unsealV2Body, hsig]

/-! ## Receiving -/

theorem receive_sealWith (hr : r.Admissible C env) (h : r.sealWith C key exp = .ok e)
    (master : Bytes) (prev : Option Bytes) (t : Int64) :
    unsealProbePayloadAutoV2 C env master prev e t =
      if 0 < exp ∧ exp < t then .error (.error .expired)
      else
        match tryUnseal C e master with
        | .ok v => (validateUnsealedContent C env e.batchId v).map fun _ => v
        | .error (.error .badSignature) => tryPrevious C env prev e
        | .error f => .error f := by
  have hpolicy := policy_sealWith hr h
  have hfields : e.v = 2 ∧ e.sealExpMs = some exp := by
    obtain ⟨plain, preAes, ct, -, -, -, rfl⟩ := sealWith_eq_ok h
    exact ⟨rfl, rfl⟩
  have hcurrent : ¬ (sealRequireV2 env = true ∧ e.v < 2) := by
    rw [hfields.1]
    exact fun hold => absurd hold.2 (by decide)
  have hv2 : 2 ≤ e.v := by
    rw [hfields.1]
    decide
  unfold unsealProbePayloadAutoV2
  dsimp only
  rw [if_neg hcurrent, if_pos hv2, hpolicy, hfields.2]
  rfl

theorem content_sealWith (hr : r.Admissible C env) (h : r.sealWith C key exp = .ok e) :
    (validateUnsealedContent C env e.batchId r.payload).map (fun _ => r.payload) =
      .ok r.payload := by
  obtain ⟨plain, preAes, ct, -, -, -, rfl⟩ := sealWith_eq_ok h
  exact congrArg (Except.map fun _ => r.payload) hr.content

section Receivers

variable {m cur : Bytes} {t : Int64}

theorem tryUnseal_sealWith (hC : RoundTrips C r.payload) (hr : r.Admissible C env)
    (hm : m ≠ []) (hkey : C.hmacSha256 m (keyInput e) = key)
    (h : r.sealWith C key exp = .ok e) : tryUnseal C e m = .ok r.payload := by
  rw [tryUnseal_eq hm, hkey]
  exact unsealV2Body_sealWith hC hr h

theorem unseal_under_current (hC : RoundTrips C r.payload) (hr : r.Admissible C env)
    (hm : m ≠ []) (hkey : C.hmacSha256 m (keyInput e) = key)
    (h : r.sealWith C key exp = .ok e) (ht : t ≤ exp) (prev : Option Bytes) :
    unsealProbePayloadAutoV2 C env m prev e t = .ok r.payload := by
  have hlive : ¬ (0 < exp ∧ exp < t) := fun hlate => absurd hlate.2 (Int64.not_lt.mpr ht)
  rw [receive_sealWith hr h, if_neg hlive, tryUnseal_sealWith hC hr hm hkey h]
  exact content_sealWith hr h

theorem unseal_under_previous (hC : RoundTrips C r.payload) (hr : r.Admissible C env)
    (hm : m ≠ []) (hkey : C.hmacSha256 m (keyInput e) = key)
    (h : r.sealWith C key exp = .ok e) (ht : t ≤ exp) (hcur : cur ≠ []) (hne : m ≠ cur)
    (hapart : KeysApart C m cur e) :
    unsealProbePayloadAutoV2 C env cur (some m) e t = .ok r.payload := by
  have hlive : ¬ (0 < exp ∧ exp < t) := fun hlate => absurd hlate.2 (Int64.not_lt.mpr ht)
  have hsecrets := hapart.sessionKeys hne
  have hmacs : (deriveKeysV2 C (C.hmacSha256 m (keyInput e))).2 ≠
      (deriveKeysV2 C (C.hmacSha256 cur (keyInput e))).2 :=
    hapart.macKeys fun hsame => hsecrets (List.append_cancel_left hsame)
  have htags := hapart.tags hmacs
  rw [hkey] at htags
  have hfirst : tryUnseal C e cur = .error (.error .badSignature) := by
    rw [tryUnseal_eq hcur]
    exact unsealV2Body_badSignature hC h htags
  have hsecond : tryUnseal C e m = .ok r.payload := tryUnseal_sealWith hC hr hm hkey h
  rw [receive_sealWith hr h, if_neg hlive, hfirst]
  simp only [tryPrevious, if_neg hm, hsecond]
  exact content_sealWith hr h

theorem unseal_expired (hr : r.Admissible C env) (h : r.sealWith C key exp = .ok e)
    (hpos : 0 < exp) (ht : exp < t) (master : Bytes) (prev : Option Bytes) :
    unsealProbePayloadAutoV2 C env master prev e t = .error (.error .expired) := by
  rw [receive_sealWith hr h, if_pos ⟨hpos, ht⟩]

end Receivers

theorem saturatingAdd_toInt {a b : UInt64} (h : a.toNat + b.toNat < 2 ^ 63) :
    (saturatingAdd a b).toInt64.toInt = a.toNat + b.toNat := by
  have hmin : min (a.toNat + b.toNat) (2 ^ 64 - 1) = a.toNat + b.toNat := by omega
  have hcast : (UInt64.ofNat (a.toNat + b.toNat)).toInt64 = Int64.ofNat (a.toNat + b.toNat) :=
    rfl
  rw [saturatingAdd, hmin, hcast, Int64.toInt_ofNat_of_lt h, Nat.cast_add]

theorem effectiveTtl_pos (ttlMs : UInt64) : 0 < (effectiveTtl ttlMs).toNat := by
  unfold effectiveTtl
  split_ifs with hzero
  · decide
  · exact Nat.pos_of_ne_zero fun h => hzero (UInt64.toNat_inj.mp h)

theorem grantExpMs_grantV2 (wasmSha : Option String) (sessionId : String) (exp : Int64)
    (ttl : UInt64) (feEpoch keyB64 sig : String) :
    grantExpMs (grantV2 wasmSha sessionId exp ttl feEpoch keyB64 sig) = some exp := by
  have hget : (grantV2 wasmSha sessionId exp ttl feEpoch keyB64 sig).get? "exp_ms" =
      some (ofInt exp.toInt) := rfl
  rw [grantExpMs, hget, Option.bind_some, asI64_ofInt ⟨exp.le_toInt, exp.toInt_lt⟩,
    Option.map_some, Int64.ofInt_toInt]

theorem grantKey_grantV2 {key : Bytes} (hb64 : ∀ b, C.b64Decode (C.b64Encode b) = .ok b)
    (wasmSha : Option String) (sessionId : String) (exp : Int64) (ttl : UInt64)
    (feEpoch sig : String) :
    grantKey C (grantV2 wasmSha sessionId exp ttl feEpoch (C.b64Encode key) sig) =
      some key := by
  have hget : (grantV2 wasmSha sessionId exp ttl feEpoch (C.b64Encode key) sig).get?
      "key_b64" = some (.str (C.b64Encode key)) := rfl
  rw [grantKey, hget, Option.bind_some, asStr_str, Option.bind_some, hb64]
  rfl

theorem issue_eq_ok {m : Bytes} (hb64 : ∀ b, C.b64Decode (C.b64Encode b) = .ok b)
    (hm : m ≠ []) (wasmSha : Option String) (sessionId : String) (nowMs ttlMs : UInt64)
    (feEpoch : String) :
    let exp := (saturatingAdd nowMs (effectiveTtl ttlMs)).toInt64
    ∃ grant,
      issueSessionSealGrantV2 C wasmSha m sessionId nowMs ttlMs feEpoch = .ok grant ∧
        grantExpMs grant = some exp ∧
        grantKey C grant = some (C.hmacSha256 m
          (asBytes (sessionKeyInputV2 sessionId exp feEpoch currentSuiteId))) := by
  intro exp
  let key := C.hmacSha256 m (asBytes (sessionKeyInputV2 sessionId exp feEpoch currentSuiteId))
  let sig := C.hmacSha256 m (asBytes (grantInputV2 sessionId exp feEpoch (C.b64Encode key)))
  have hmac : ∀ message, hmacNew C m message = .ok (C.hmacSha256 m message) :=
    fun _ => if_neg hm
  have hissue : issueSessionSealGrantV2 C wasmSha m sessionId nowMs ttlMs feEpoch =
      .ok (grantV2 wasmSha sessionId exp (effectiveTtl ttlMs) feEpoch (C.b64Encode key)
        (C.b64Encode sig)) := by
    simp only [issueSessionSealGrantV2, deriveSessionSealSecretV2, hmac]
    rfl
  exact ⟨_, hissue, grantExpMs_grantV2 .., grantKey_grantV2 hb64 ..⟩

/-- An envelope sealed with the key of a grant, for the grant's suite, opens to
its payload until the grant expires, under the issuing master and, after a
rotation, under its successor with the issuing master as the previous one; from
then on every receiver refuses it as expired. -/
theorem sealed_envelope_survives_rotation {m : Bytes} (hm : m ≠ [])
    (hC : RoundTrips C r.payload) (hr : r.Admissible C env)
    (hsuite : r.suiteId = currentSuiteId) {nowMs ttlMs : UInt64}
    (hlife : nowMs.toNat + (effectiveTtl ttlMs).toNat < 2 ^ 63) (wasmSha : Option String) :
    ∃ grant key exp,
      issueSessionSealGrantV2 C wasmSha m r.sessionId nowMs ttlMs r.feEpoch = .ok grant ∧
        grantKey C grant = some key ∧ grantExpMs grant = some exp ∧
        exp.toInt = nowMs.toNat + (effectiveTtl ttlMs).toNat ∧
        ∀ e, r.sealWith C key exp = .ok e → ∀ t : Int64,
          (t ≤ exp →
            (∀ prev, unsealProbePayloadAutoV2 C env m prev e t = .ok r.payload) ∧
              ∀ cur, cur ≠ [] → m ≠ cur → KeysApart C m cur e →
                unsealProbePayloadAutoV2 C env cur (some m) e t = .ok r.payload) ∧
            (exp < t → ∀ master prev,
              unsealProbePayloadAutoV2 C env master prev e t = .error (.error .expired)) := by
  obtain ⟨grant, hgrant, hexp, hkey⟩ :=
    issue_eq_ok hC.b64 hm wasmSha r.sessionId nowMs ttlMs r.feEpoch
  have hvalue := saturatingAdd_toInt hlife
  refine ⟨grant, _, _, hgrant, hkey, hexp, hvalue, ?_⟩
  intro e hseal t
  have hderived : C.hmacSha256 m (keyInput e) = C.hmacSha256 m (asBytes
      (sessionKeyInputV2 r.sessionId (saturatingAdd nowMs (effectiveTtl ttlMs)).toInt64
        r.feEpoch currentSuiteId)) := by
    rw [keyInput_sealWith hseal, hsuite]
  have hpos : 0 < (saturatingAdd nowMs (effectiveTtl ttlMs)).toInt64 := by
    have httl := effectiveTtl_pos ttlMs
    rw [Int64.lt_iff_toInt_lt, hvalue, Int64.toInt_zero]
    omega
  constructor
  · intro ht
    constructor
    · exact unseal_under_current hC hr hm hderived hseal ht
    · intro cur hcur hne hapart
      exact unseal_under_previous hC hr hm hderived hseal ht hcur hne hapart
  · intro ht
    exact unseal_expired hr hseal hpos ht

/-! ## A rotation, and a suite that is not the grant's -/

def plainCrypto : SealCrypto where
  hmacSha256 k message := k ++ message
  sha256 := id
  aesEncrypt k n p := .ok (k ++ n ++ p)
  aesDecrypt k n c := if k ++ n <+: c then some (c.drop (k ++ n).length) else none
  b64Encode bs := String.ofList (bs.map fun b => Char.ofNat b.toNat)
  b64Decode s := .ok (s.toList.map fun c => UInt8.ofNat c.toNat)
  deflate p := .ok p
  inflateTake n p := .ok (p.take n)
  toVec _ := .ok (asBytes "{}")
  fromSlice _ := .ok (.obj [])
  debugList := String.join

theorem plainCrypto_roundTrips : RoundTrips plainCrypto (.obj []) where
  b64 := by
    intro b
    have hbyte : ∀ x : UInt8, UInt8.ofNat (Char.ofNat x.toNat).toNat = x := by
      intro x
      have hvalid : x.toNat.isValidChar := Or.inl (by have := x.toNat_lt; omega)
      rw [Char.toNat_ofNat, if_pos hvalid, UInt8.ofNat_toNat]
    simp only [plainCrypto, String.toList_ofList, List.map_map, Except.ok.injEq]
    exact List.map_id'' (fun x => hbyte x) b
  aes := by
    intro k n p c hc
    simp only [plainCrypto, Except.ok.injEq] at hc
    simp [plainCrypto, ← hc]
  inflate := by
    intro p c n hc
    simp only [plainCrypto, Except.ok.injEq] at hc
    simp [plainCrypto, hc]
  json := fun _ _ => rfl

theorem plainCrypto_tagsApart (k k' message : Bytes) : TagsApart plainCrypto k k' message :=
  fun hne hsame => hne (List.append_cancel_right hsame)

theorem plainCrypto_keysApart (m cur : Bytes) (e : SealedEnvelope) :
    KeysApart plainCrypto m cur e where
  sessionKeys := plainCrypto_tagsApart _ _ _
  macKeys := id
  tags := plainCrypto_tagsApart _ _ _

theorem plainCrypto_message_inj {k a b : Bytes}
    (h : plainCrypto.hmacSha256 k a = plainCrypto.hmacSha256 k b) : a = b :=
  List.append_cancel_left h

theorem plainCrypto_macKey_inj {a b : Bytes}
    (h : (deriveKeysV2 plainCrypto a).2 = (deriveKeysV2 plainCrypto b).2) : a = b :=
  List.append_cancel_left h

def sampleRequest (suiteId : String) : SealRequest where
  sessionId := "cycle_1"
  visitorTerminalId := "vt_1"
  batchId := "B01"
  feEpoch := grProductVersion
  suiteId := suiteId
  wasmModuleId := sealWasmModuleId
  challengeBind := "c"
  packSetHash := "p"
  payload := .obj []
  useDeflate := true
  nonce := ⟨[0, 1, 2, 3, 4, 5, 6, 7, 8, 9, 10, 11], rfl⟩

theorem sampleRequest_admissible {env : String → Option String} {suiteId : String}
    (hepoch : grProductVersion ∈ allowedFeEpochs env)
    (hsuite : suiteAllowed env suiteId = true)
    (hwasm : wasmModuleAllowed env sealWasmModuleId = true) :
    (sampleRequest suiteId).Admissible plainCrypto env where
  epoch := hepoch
  suite := hsuite
  wasm := ⟨by simp [sampleRequest, sealWasmModuleId], hwasm⟩
  challenge := by simp [sampleRequest]
  packs := by simp [sampleRequest]
  size := by
    intro plain hplain
    simp only [plainCrypto, Except.ok.injEq] at hplain
    rw [← hplain]
    decide
  content := by
    have hbatch : trimmed "B01" ≠ "B10_hw_curves" := by decide
    simp [validateUnsealedContent, sampleRequest, hbatch]

/-- A payload sealed under the master `[1]` opens after the rotation to `[2]` in
the last millisecond of its grant, and not in the next one. -/
theorem rotated_payload_opens :
    ∃ e : SealedEnvelope,
      unsealProbePayloadAutoV2 plainCrypto (fun _ => none) [2] (some [1]) e
          1700000060000 = .ok (.obj []) ∧
        unsealProbePayloadAutoV2 plainCrypto (fun _ => none) [2] (some [1]) e
          1700000060001 = .error (.error .expired) := by
  have hr : (sampleRequest currentSuiteId).Admissible plainCrypto fun _ => none :=
    sampleRequest_admissible (by decide) (by decide) (by decide)
  have hmaster : ([1] : Bytes) ≠ [] := by decide
  have hlife : (1700000000000 : UInt64).toNat + (effectiveTtl 60000).toNat < 2 ^ 63 := by decide
  obtain ⟨grant, key, exp, -, -, -, hvalue, hopens⟩ :=
    sealed_envelope_survives_rotation hmaster plainCrypto_roundTrips hr rfl hlife none
  have hexp : exp = 1700000060000 := Int64.toInt_inj.mp hvalue
  subst hexp
  obtain ⟨e, he⟩ : ∃ e, (sampleRequest currentSuiteId).sealWith plainCrypto key
      1700000060000 = .ok e := ⟨_, rfl⟩
  have hkeeps := (hopens e he 1700000060000).1 (by decide)
  have hends := (hopens e he 1700000060001).2 (by decide)
  exact ⟨e, hkeeps.2 [2] (by decide) (by decide) (plainCrypto_keysApart [1] [2] e),
    hends [2] (some [1])⟩

def canaryEnv (name : String) : Option String :=
  if name = "GR_SEAL_ALLOW_SUITES" then some "s3" else none

theorem suite_of_sessionKeyInputV2 {sessionId : String} {exp : Int64}
    {feEpoch suiteId suiteId' : String}
    (h : sessionKeyInputV2 sessionId exp feEpoch suiteId =
      sessionKeyInputV2 sessionId exp feEpoch suiteId') : suiteId = suiteId' :=
  (String.append_right_inj _).mp h

theorem sampleRequest_sealed (suiteId : String) (key : Bytes) (exp : Int64) :
    ∃ e, (sampleRequest suiteId).sealWith plainCrypto key exp = .ok e := ⟨_, rfl⟩

theorem tryUnseal_other_suite {suiteId : String} {key : Bytes} {exp : Int64}
    {e : SealedEnvelope} (hsuite : suiteId ≠ currentSuiteId)
    (hkey : key = plainCrypto.hmacSha256 [1] (asBytes (sessionKeyInputV2 "cycle_1" exp
      grProductVersion currentSuiteId)))
    (he : (sampleRequest suiteId).sealWith plainCrypto key exp = .ok e) :
    tryUnseal plainCrypto e [1] = .error (.error .badSignature) := by
  have hinput := keyInput_sealWith he
  have hdiffer : key ≠ plainCrypto.hmacSha256 [1] (keyInput e) := by
    rw [hkey, hinput]
    intro hsame
    have hinputs := asBytes_inj.mp (plainCrypto_message_inj hsame)
    exact hsuite (suite_of_sessionKeyInputV2 hinputs).symm
  rw [tryUnseal_eq (by decide)]
  apply unsealV2Body_badSignature plainCrypto_roundTrips he
  apply plainCrypto_tagsApart
  intro hmacs
  exact hdiffer (plainCrypto_macKey_inj hmacs)

/-- The grant's key is bound to the current suite: an envelope sealed for another
allowed one does not verify under the master that issued the grant. -/
theorem other_suite_refused :
    RoundTrips plainCrypto (.obj []) ∧
      (sampleRequest "s3").Admissible plainCrypto canaryEnv ∧
      ∃ grant key exp e,
        issueSessionSealGrantV2 plainCrypto none [1] "cycle_1" 1700000000000 60000
            grProductVersion = .ok grant ∧
          grantKey plainCrypto grant = some key ∧ grantExpMs grant = some exp ∧
          (sampleRequest "s3").sealWith plainCrypto key exp = .ok e ∧
          unsealProbePayloadAutoV2 plainCrypto canaryEnv [1] none e exp =
            .error (.error .badSignature) := by
  have hr : (sampleRequest "s3").Admissible plainCrypto canaryEnv :=
    sampleRequest_admissible (by decide) (by decide) (by decide)
  have hmaster : ([1] : Bytes) ≠ [] := by decide
  obtain ⟨grant, hgrant, hexp, hkey⟩ := issue_eq_ok plainCrypto_roundTrips.b64 hmaster none
    "cycle_1" 1700000000000 60000 grProductVersion
  generalize (saturatingAdd 1700000000000 (effectiveTtl 60000)).toInt64 = exp at hexp hkey
  obtain ⟨e, he⟩ := sampleRequest_sealed "s3" (plainCrypto.hmacSha256 [1] (asBytes
    (sessionKeyInputV2 "cycle_1" exp grProductVersion currentSuiteId))) exp
  have hrefused := tryUnseal_other_suite (by decide) rfl he
  refine ⟨plainCrypto_roundTrips, hr, grant, _, exp, e, hgrant, hkey, hexp, he, ?_⟩
  have hlive : ¬ (0 < exp ∧ exp < exp) := fun h => absurd h.2 Int64.lt_irrefl
  rw [receive_sealWith hr he, if_neg hlive, hrefused]
  rfl

end SealEnvelope

end GrServer
