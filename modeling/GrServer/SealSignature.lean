import GrServer.Delimited
import GrServer.SealEnvelope

/-!
# What the signature of a v2 envelope determines

The MACed strings join their fields with `|` and no escaping.
-/

namespace GrServer

open Text Delimited

namespace SealEnvelope

def signedFields (e : SealedEnvelope) : List String :=
  [e.sessionId, e.visitorTerminalId, e.batchId, e.suiteId.getD "", e.feEpoch.getD "",
    e.wasmModuleId.getD "", e.challengeBind.getD "", e.packSetHash.getD "", e.nonceB64,
    e.ciphertextB64]

/-- Equal MACed bytes come from equal fields. -/
def SignaturePins (e : SealedEnvelope) : Prop :=
  ∀ e' : SealedEnvelope, asBytes (signInputV2 e') = asBytes (signInputV2 e) →
    signedFields e' = signedFields e

/-- Equal MACed bytes of a session key come from equal arguments. -/
def SessionKeyPins (sessionId : String) (expMs : Int64) (feEpoch suiteId : String) : Prop :=
  ∀ (sessionId' : String) (expMs' : Int64) (feEpoch' suiteId' : String),
    asBytes (sessionKeyInputV2 sessionId' expMs' feEpoch' suiteId') =
        asBytes (sessionKeyInputV2 sessionId expMs feEpoch suiteId) →
      sessionId' = sessionId ∧ expMs' = expMs ∧ feEpoch' = feEpoch ∧ suiteId' = suiteId

def HasBar (s : String) : Prop := '|' ∈ s.toList

/-- The text is the decimal form of some `i64`. -/
def IsDecimal (s : String) : Prop := ∃ n : Int64, n.toInt.repr = s

theorem signInputV2_toList (e : SealedEnvelope) :
    (signInputV2 e).toList =
      "v2|".toList ++ ['|'].intercalate ((signedFields e).map String.toList) := by
  have hbar : "|".toList = ['|'] := rfl
  unfold signInputV2 signedFields
  simp only [List.map_cons, List.map_nil, join_cons_cons, join_singleton,
    String.toList_append]
  simp only [hbar, List.append_assoc, List.cons_append, List.nil_append]

theorem signInputV2_bytes_eq_iff (e e' : SealedEnvelope) :
    asBytes (signInputV2 e') = asBytes (signInputV2 e) ↔
      ['|'].intercalate ((signedFields e').map String.toList) =
        ['|'].intercalate ((signedFields e).map String.toList) := by
  rw [asBytes_inj, ← String.toList_inj, signInputV2_toList, signInputV2_toList,
    List.append_cancel_left_eq]

theorem exists_signedFields_eq {parts : List (List Char)} (h : parts.length = 10) :
    ∃ e : SealedEnvelope, (signedFields e).map String.toList = parts := by
  match parts, h with
  | [sid, vt, batch, suite, epoch, wasm, challenge, packs, nonce, ct], _ =>
      let e : SealedEnvelope :=
        { v := 2
          alg := ""
          sessionId := String.ofList sid
          visitorTerminalId := String.ofList vt
          batchId := String.ofList batch
          nonceB64 := String.ofList nonce
          ciphertextB64 := String.ofList ct
          sigB64 := ""
          keyMode := none
          sealExpMs := none
          suiteId := some (String.ofList suite)
          feEpoch := some (String.ofList epoch)
          wasmModuleId := some (String.ofList wasm)
          challengeBind := some (String.ofList challenge)
          packSetHash := some (String.ofList packs) }
      exact ⟨e, by simp [signedFields, e]⟩

theorem signaturePins_iff (e : SealedEnvelope) :
    SignaturePins e ↔ ∀ f ∈ signedFields e, ¬ HasBar f := by
  have hlen : ((signedFields e).map String.toList).length = 10 := rfl
  have hfields : (∀ f ∈ signedFields e, ¬ HasBar f) ↔
      ∀ p ∈ (signedFields e).map String.toList, '|' ∉ p := by
    simp [HasBar]
  rw [hfields, ← joinsUniquely_iff (by omega)]
  constructor
  · intro hpins others hothers hjoin
    obtain ⟨e', rfl⟩ := exists_signedFields_eq (hothers.trans hlen)
    rw [hpins e' ((signInputV2_bytes_eq_iff e e').mpr hjoin)]
  · intro hunique e' hbytes
    have hsame := hunique ((signedFields e').map String.toList) rfl
      ((signInputV2_bytes_eq_iff e e').mp hbytes)
    have hinjective : Function.Injective String.toList := fun _ _ => String.toList_injective
    exact List.map_injective_iff.mpr hinjective hsame

theorem sessionKeyInputV2_toList (sessionId : String) (expMs : Int64)
    (feEpoch suiteId : String) :
    (sessionKeyInputV2 sessionId expMs feEpoch suiteId).toList =
      "gr-session-seal-v2|".toList ++ ['|'].intercalate [sessionId.toList,
        expMs.toInt.repr.toList, feEpoch.toList, suiteId.toList] := by
  have hbar : "|".toList = ['|'] := rfl
  unfold sessionKeyInputV2
  simp only [join_cons_cons, join_singleton, String.toList_append]
  simp only [hbar, List.append_assoc, List.cons_append, List.nil_append]

def DecimalText (p : List Char) : Prop := ∃ n : Int64, n.toInt.repr.toList = p

theorem bar_not_mem_decimalText {p : List Char} (h : DecimalText p) : '|' ∉ p := by
  obtain ⟨n, rfl⟩ := h
  exact bar_not_mem_repr n.toInt

theorem sessionKeyPins_iff_joinsUniquelyAround (sessionId : String) (expMs : Int64)
    (feEpoch suiteId : String) :
    SessionKeyPins sessionId expMs feEpoch suiteId ↔
      JoinsUniquelyAround '|' DecimalText sessionId.toList expMs.toInt.repr.toList
        feEpoch.toList suiteId.toList := by
  constructor
  · rintro hpins a' d' b' c' ⟨n, rfl⟩ hjoin
    have hbytes : asBytes (sessionKeyInputV2 (String.ofList a') n (String.ofList b')
        (String.ofList c')) = asBytes (sessionKeyInputV2 sessionId expMs feEpoch suiteId) := by
      rw [asBytes_inj, ← String.toList_inj, sessionKeyInputV2_toList,
        sessionKeyInputV2_toList]
      simpa using hjoin
    obtain ⟨hsid, hexp, hepoch, hsuite⟩ := hpins _ n _ _ hbytes
    refine ⟨?_, by rw [hexp], ?_, ?_⟩
    · rw [← hsid, String.toList_ofList]
    · rw [← hepoch, String.toList_ofList]
    · rw [← hsuite, String.toList_ofList]
  · intro hunique sessionId' expMs' feEpoch' suiteId' hbytes
    rw [asBytes_inj, ← String.toList_inj, sessionKeyInputV2_toList,
      sessionKeyInputV2_toList, List.append_cancel_left_eq] at hbytes
    obtain ⟨hsid, hexp, hepoch, hsuite⟩ := hunique _ _ _ _ ⟨expMs', rfl⟩ hbytes
    refine ⟨String.toList_injective hsid, ?_, String.toList_injective hepoch,
      String.toList_injective hsuite⟩
    exact Int64.toInt_inj.mp (Int.repr_inj.mp (String.toList_injective hexp))

theorem sessionKeyPins_iff (sessionId : String) (expMs : Int64) (feEpoch suiteId : String) :
    SessionKeyPins sessionId expMs feEpoch suiteId ↔
      ¬ HasBar feEpoch ∧ ¬ HasBar suiteId ∧
        ∀ s ∈ (splitChar '|' sessionId).tail, ¬ IsDecimal s := by
  have hsegments : (∀ s ∈ (splitChar '|' sessionId).tail, ¬ IsDecimal s) ↔
      ∀ p ∈ (sessionId.toList.splitOn '|').tail, ¬ DecimalText p := by
    rw [splitChar, ← List.map_tail, List.forall_mem_map]
    simp [IsDecimal, DecimalText, ← String.toList_inj]
  rw [sessionKeyPins_iff_joinsUniquelyAround, hsegments]
  exact joinsUniquelyAround_iff (fun _ hp => bar_not_mem_decimalText hp) ⟨expMs, rfl⟩

/-- The signature of an envelope and the MAC of a session key pin their fields
exactly when no field contains the separator, or, in the session id of a key,
no decimal number stands behind one. -/
theorem metadata_pinned_iff (e : SealedEnvelope) (sessionId : String) (expMs : Int64)
    (feEpoch suiteId : String) :
    (SignaturePins e ∧ SessionKeyPins sessionId expMs feEpoch suiteId) ↔
      (∀ f ∈ signedFields e, ¬ HasBar f) ∧ ¬ HasBar feEpoch ∧ ¬ HasBar suiteId ∧
        ∀ s ∈ (splitChar '|' sessionId).tail, ¬ IsDecimal s := by
  rw [signaturePins_iff, sessionKeyPins_iff]

section Relabel

variable (C : SealCrypto) (env : String → Option String)

def relabel (e : SealedEnvelope) (visitorTerminalId batchId : String) : SealedEnvelope :=
  { e with visitorTerminalId := visitorTerminalId, batchId := batchId }

variable {e : SealedEnvelope} {visitorTerminalId batchId : String}

theorem unsealV2Body_relabel
    (hinput : signInputV2 (relabel e visitorTerminalId batchId) = signInputV2 e)
    (secret : Bytes) :
    unsealV2Body C secret (relabel e visitorTerminalId batchId) =
      unsealV2Body C secret e := by
  simp only [unsealV2Body, signEnvelopeV2, hinput]
  rfl

theorem tryUnseal_relabel
    (hinput : signInputV2 (relabel e visitorTerminalId batchId) = signInputV2 e)
    (master : Bytes) :
    tryUnseal C (relabel e visitorTerminalId batchId) master = tryUnseal C e master := by
  simp only [tryUnseal, unsealV2Body_relabel C hinput]
  rfl

theorem unsealProbePayloadAutoV2_relabel (hv : 2 ≤ e.v)
    (hinput : signInputV2 (relabel e visitorTerminalId batchId) = signInputV2 e)
    (hcontent : ∀ v, validateUnsealedContent C env batchId v =
      validateUnsealedContent C env e.batchId v)
    (master : Bytes) (masterPrev : Option Bytes) (nowMs : Int64) :
    unsealProbePayloadAutoV2 C env master masterPrev
        (relabel e visitorTerminalId batchId) nowMs =
      unsealProbePayloadAutoV2 C env master masterPrev e nowMs := by
  have hbatch : (relabel e visitorTerminalId batchId).batchId = batchId := rfl
  have hversion : (relabel e visitorTerminalId batchId).v = e.v := rfl
  have hexp : (relabel e visitorTerminalId batchId).sealExpMs = e.sealExpMs := rfl
  have hpolicy : validateEnvelopeV2Policy C env (relabel e visitorTerminalId batchId) =
      validateEnvelopeV2Policy C env e := rfl
  simp only [unsealProbePayloadAutoV2, tryPrevious, hpolicy, hbatch, hversion, hexp,
    tryUnseal_relabel C hinput, hcontent, if_pos hv]

end Relabel

def labelledEnvelope (visitorTerminalId batchId : String) : SealedEnvelope where
  v := 2
  alg := "aes256gcm+hmacsha256+identity"
  sessionId := "cycle_1"
  visitorTerminalId := visitorTerminalId
  batchId := batchId
  nonceB64 := "AAAAAAAAAAAAAAAA"
  ciphertextB64 := "AAAA"
  sigB64 := "c2ln"
  keyMode := some "session"
  sealExpMs := some 1700000060000
  suiteId := some sealSuite
  feEpoch := some grProductVersion
  wasmModuleId := some sealWasmModuleId
  challengeBind := some "c"
  packSetHash := some "p"

/-- The terminal's name can end in what the batch's name began with: every
receiver answers both envelopes alike. -/
theorem envelope_relabelled :
    asBytes (signInputV2 (labelledEnvelope "v" "x|B01")) =
        asBytes (signInputV2 (labelledEnvelope "v|x" "B01")) ∧
      ¬ SignaturePins (labelledEnvelope "v|x" "B01") ∧
      ∀ (C : SealCrypto) (env : String → Option String) (master : Bytes)
        (masterPrev : Option Bytes) (nowMs : Int64),
        unsealProbePayloadAutoV2 C env master masterPrev
            (labelledEnvelope "v" "x|B01") nowMs =
          unsealProbePayloadAutoV2 C env master masterPrev
            (labelledEnvelope "v|x" "B01") nowMs := by
  have hinput : signInputV2 (labelledEnvelope "v" "x|B01") =
      signInputV2 (labelledEnvelope "v|x" "B01") := by
    decide
  refine ⟨by rw [hinput], ?_, ?_⟩
  · intro hpins
    have hfields := hpins _ (by rw [hinput])
    simp [signedFields, labelledEnvelope] at hfields
  · intro C env master masterPrev nowMs
    have hcontent : ∀ v, validateUnsealedContent C env "x|B01" v =
        validateUnsealedContent C env "B01" v := by
      intro v
      have hx : trimmed "x|B01" ≠ "B10_hw_curves" := by decide
      have hB : trimmed "B01" ≠ "B10_hw_curves" := by decide
      simp [validateUnsealedContent, hx, hB]
    have hversion : 2 ≤ (labelledEnvelope "v|x" "B01").v := by decide
    exact unsealProbePayloadAutoV2_relabel C env hversion hinput hcontent master
      masterPrev nowMs

end SealEnvelope

end GrServer
