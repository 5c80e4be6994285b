import GrServer.QuicHello

/-!
# The extensions of a ClientHello, index by index

`tls_ext.rs`: key shares, transport parameters and the smaller lists, read from
the payloads that a stream declares.  The lengths of transport parameters are
varints again.
-/

namespace GrServer

namespace HelloExtensions

open Faults QuicFrames WireBytes TlsHello

def parseAlpsProtocols (data : List UInt8) : Run (List String) := do
  if data.length < 2 then return []
  let listLen := (← u16From data 0).toNat
  let stop := min (← add 2 listLen) data.length
  QuicHello.readStrings data stop 2 []

def parseU16ListLenPrefixed (data : List UInt8) : Run (List UInt16) :=
  QuicHello.parseSupportedGroups data

def parseCertCompression (data : List UInt8) : Run (List UInt16) :=
  QuicHello.parseSupportedVersions data

def parsePskModes (data : List UInt8) : Run (List UInt8) := QuicHello.parseEcPointFormats data

abbrev KeyShares := List UInt16 × List (UInt16 × ℕ)

def parseKeyShare (data : List UInt8) : Run KeyShares := do
  if data.length < 2 then return ([], [])
  let listLen := (← u16From data 0).toNat
  let stop := min (← add 2 listLen) data.length
  let s ← loop (fun (i, shares) => do
    if stop < (← add i 4) then return .done (i, shares)
    let group ← u16From data i
    let kxLen := (← u16From data (← add i 2)).toNat
    let i ← add i 4
    if stop < (← add i kxLen) then return .done (i, shares)
    return .yield (← add i kxLen, (shares.1 ++ [group], shares.2 ++ [(group, kxLen)])))
    (data.length + 1) (2, (([], []) : KeyShares))
  return s.2

structure QuicTransportParam where
  id : ℕ
  idHex : String
  name : String
  valueLen : ℕ
  valueInt : Option ℕ
  valueHex : Option String

def beFrom (b : List UInt8) (n : ℕ) : Run ℕ :=
  forRange (fun j v => do return v * 256 + (← index b j).toNat) n 0 0

def decodeTpInt (val : List UInt8) : Run (Option ℕ) := do
  if val.length = 0 then return some 0
  else if val.length = 1 ∨ val.length = 2 ∨ val.length = 4 ∨ val.length = 8 then
    return some (← beFrom val val.length)
  else return (← readVarint val 0).map Prod.fst

def quicTpNames : List (ℕ × String) :=
  [(0x00, "original_destination_connection_id"), (0x01, "max_idle_timeout"),
    (0x02, "stateless_reset_token"), (0x03, "max_udp_payload_size"), (0x04, "initial_max_data"),
    (0x05, "initial_max_stream_data_bidi_local"), (0x06, "initial_max_stream_data_bidi_remote"),
    (0x07, "initial_max_stream_data_uni"), (0x08, "initial_max_streams_bidi"),
    (0x09, "initial_max_streams_uni"), (0x0a, "ack_delay_exponent"), (0x0b, "max_ack_delay"),
    (0x0c, "disable_active_migration"), (0x0d, "preferred_address"),
    (0x0e, "active_connection_id_limit"), (0x0f, "initial_source_connection_id"),
    (0x10, "retry_source_connection_id"), (0x11, "version_information"),
    (0x20, "max_datagram_frame_size"), (0x32, "grease_quic_bit")]

def quicTpName (id : ℕ) : String := (quicTpNames.lookup id).getD "unknown/private"

def readTransportParam (data : List UInt8) (s : ℕ × List QuicTransportParam) :
    Run (ForInStep (ℕ × List QuicTransportParam)) := do
  if data.length ≤ s.1 then return .done s
  let some (id, i) ← readVarint data s.1 | return .done s
  let some (len, i) ← readVarint data i | return .done s
  if data.length < (← add i len) then return .done s
  let val ← Faults.slice data i (← add i len)
  let i ← add i len
  let valueInt ← decodeTpInt val
  let head ← Faults.slice val 0 (min val.length 32)
  let out := s.2 ++
    [({ id := id
        idHex := digits 16 1 id
        name := quicTpName id
        valueLen := len
        valueInt := valueInt
        valueHex := if val = [] then none else some (hexEncode head) } : QuicTransportParam)]
  if 64 ≤ out.length then return .done (i, out)
  return .yield (i, out)

def parseQuicTransportParams (data : List UInt8) : Run (List QuicTransportParam) := do
  let s ← loop (readTransportParam data) (data.length + 1) (0, [])
  return s.2

def summarizeQuicTp (params : List QuicTransportParam) : String :=
  if params = [] then "-"
  else
    "; ".intercalate
      ((params.filter fun p =>
        [0x01, 0x03, 0x04, 0x05, 0x06, 0x07, 0x08, 0x09, 0x0e, 0x20].contains p.id).map fun p =>
          match p.valueInt with
          | some v => p.name ++ "=" ++ digits 10 1 v
          | none => p.name ++ "(len=" ++ digits 10 1 p.valueLen ++ ")")

structure ClientHelloExtDetail where
  keyShareGroups : List UInt16 := []
  keyShareGroupsHex : List String := []
  keyShareEntryLens : List (UInt16 × ℕ) := []
  pskModes : List UInt8 := []
  pskModesNames : List String := []
  certCompressionAlgs : List UInt16 := []
  certCompressionAlgsHex : List String := []
  signatureAlgorithmsCert : List UInt16 := []
  quicTransportParams : List QuicTransportParam := []
  quicTpSummary : Option String := none
  hasEncryptedClientHello : Bool := false
  alpsProtocols : List String := []
  recordSizeLimit : Option UInt16 := none
  extensionOrderHex : String := ""
  extensionPresence : List String := []

def hex4 (v : UInt16) : String := digits 16 4 v.toNat

def pskModeName (m : UInt8) : String :=
  if m = 0 then "psk_ke" else if m = 1 then "psk_dhe_ke" else "mode_" ++ digits 10 1 m.toNat

def presenceNames : List (UInt16 × String) :=
  [(0, "server_name"), (5, "status_request"), (18, "signed_cert_timestamp"),
    (35, "session_ticket"), (41, "pre_shared_key"), (42, "early_data"), (44, "cookie"),
    (49, "post_handshake_auth")]

def readDetail (d : ClientHelloExtDetail) (r : Record) : Run ClientHelloExtDetail := do
  let (et, data) := r
  let present := fun (name : String) => d.extensionPresence ++ [name]
  if et = 27 then
    let algs ← parseCertCompression data
    return { d with
      certCompressionAlgs := algs
      certCompressionAlgsHex := algs.map hex4
      extensionPresence := present "compress_certificate" }
  else if et = 28 then
    let d := { d with extensionPresence := present "record_size_limit" }
    if data.length < 2 then return d
    return { d with recordSizeLimit := some (← u16From data 0) }
  else if et = 45 then
    let modes ← parsePskModes data
    return { d with
      pskModes := modes
      pskModesNames := modes.map pskModeName
      extensionPresence := present "psk_key_exchange_modes" }
  else if et = 50 then
    return { d with
      signatureAlgorithmsCert := ← parseU16ListLenPrefixed data
      extensionPresence := present "signature_algorithms_cert" }
  else if et = 51 then
    let (groups, lens) ← parseKeyShare data
    return { d with
      keyShareGroups := groups
      keyShareGroupsHex := groups.map hex4
      keyShareEntryLens := lens
      extensionPresence := present "key_share" }
  else if et = 57 then
    let params ← parseQuicTransportParams data
    return { d with
      quicTransportParams := params
      quicTpSummary := some (summarizeQuicTp params)
      extensionPresence := present "quic_transport_parameters" }
  else if et = 17513 then
    return { d with
      alpsProtocols := ← parseAlpsProtocols data
      extensionPresence := present "application_settings" }
  else if et = 65037 then
    return { d with
      hasEncryptedClientHello := true
      extensionPresence := present "encrypted_client_hello" }
  else
    match presenceNames.lookup et with
    | some name => return { d with extensionPresence := present name }
    | none => return d

def parseClientHelloExtDetail (payloads : List Record) : Run ClientHelloExtDetail :=
  payloads.foldlM readDetail
    { extensionOrderHex := ",".intercalate (payloads.map fun r => hex4 r.1) }

/-! ## Nothing faults -/

section Returns

variable {data : List UInt8}

theorem returns_parseAlpsProtocols (hfits : data.length < 2 ^ 63) :
    Returns (parseAlpsProtocols data) fun _ => True := by
  unfold parseAlpsProtocols
  refine Returns.ite (fun _ => Returns.pure trivial) fun hlong => ?_
  refine (returns_u16From hfits (by omega)).bind ?_
  intro listLen _
  have hlen := listLen.toNat_lt
  refine (returns_add (by omega)).bind ?_
  intro stop _
  exact Returns.mono (QuicHello.returns_readStrings hfits (min_le_right _ _) 2 [])
    fun _ _ => trivial

theorem returns_parseKeyShare (hfits : data.length < 2 ^ 63) :
    Returns (parseKeyShare data) fun _ => True := by
  unfold parseKeyShare
  refine Returns.ite (fun _ => Returns.pure trivial) fun hlong => ?_
  refine (returns_u16From hfits (by omega)).bind ?_
  intro listLen _
  have hlen := listLen.toNat_lt
  refine (returns_add (by omega)).bind ?_
  intro declared _
  refine Returns.bind (returns_loop (I := fun s : ℕ × KeyShares => s.1 ≤ data.length)
    (Q := fun _ => True) (m := fun s => data.length - s.1) ?_ (by dsimp only; omega)
    (by dsimp only; omega)) fun _ _ => Returns.pure trivial
  rintro ⟨i, shares⟩ hi
  dsimp only at hi
  refine (returns_add (by omega)).bind ?_
  rintro headEnd rfl
  refine Returns.ite (fun _ => Returns.pure trivial) fun hin => ?_
  refine (returns_u16From hfits (by omega)).bind ?_
  intro group _
  refine (returns_add (by omega)).bind ?_
  rintro lenAt rfl
  refine (returns_u16From hfits (by omega)).bind ?_
  intro kxLen _
  have hkx := kxLen.toNat_lt
  refine (returns_add (by omega)).bind ?_
  rintro shareAt rfl
  refine (returns_add (by omega)).bind ?_
  rintro shareEnd rfl
  refine Returns.ite (fun _ => Returns.pure trivial) fun hfit => ?_
  refine (returns_add (by omega)).bind ?_
  rintro next rfl
  exact Returns.pure ⟨by dsimp only; omega, by dsimp only; omega⟩

theorem returns_decodeTpInt (hfits : data.length < 2 ^ 63) :
    Returns (decodeTpInt data) fun _ => True := by
  unfold decodeTpInt
  refine Returns.ite (fun _ => Returns.pure trivial) fun _ => ?_
  refine Returns.ite ?_ ?_
  · intro _
    refine Returns.bind (Q := fun _ => True) ?_ fun _ _ => Returns.pure trivial
    refine returns_forRange (I := fun _ _ => True) ?_ trivial
    intro j v _ hj _
    refine (returns_index (by omega)).bind ?_
    intro b _
    exact Returns.pure trivial
  · intro _
    exact bind_readVarint hfits (fun _ => Returns.pure trivial) fun _ _ _ => Returns.pure trivial

theorem returns_readTransportParam (hfits : data.length < 2 ^ 63)
    (s : ℕ × List QuicTransportParam) : Returns (readTransportParam data s) fun
      | .yield s' => s.1 < s'.1 ∧ s'.1 ≤ data.length
      | .done _ => True := by
  unfold readTransportParam
  refine Returns.ite (fun _ => Returns.pure trivial) fun hin => ?_
  refine bind_readVarint hfits (fun _ => Returns.pure trivial) ?_
  intro id i hid
  have hidAt := hid.advances
  refine bind_readVarint hfits (fun _ => Returns.pure trivial) ?_
  intro len j hlen
  have hsmall := hlen.small
  have hlenAt := hlen.advances
  have hinside := hlen.inside
  refine (returns_add (by omega)).bind ?_
  rintro stop rfl
  refine Returns.ite (fun _ => Returns.pure trivial) fun hfit => ?_
  refine (returns_add (by omega)).bind ?_
  rintro stop rfl
  refine (returns_slice (by omega) (by omega)).bind ?_
  rintro val ⟨-, hval⟩
  refine (returns_add (by omega)).bind ?_
  rintro next rfl
  refine (returns_decodeTpInt (by omega)).bind ?_
  intro valueInt _
  refine (returns_sliceTo (min_le_left _ _)).bind ?_
  intro head _
  refine Returns.ite (fun _ => Returns.pure trivial) fun _ => ?_
  exact Returns.pure ⟨by dsimp only; omega, by dsimp only; omega⟩

theorem returns_parseQuicTransportParams (hfits : data.length < 2 ^ 63) :
    Returns (parseQuicTransportParams data) fun _ => True := by
  refine Returns.bind (returns_loop (I := fun _ => True) (Q := fun _ => True)
    (m := fun s => data.length - s.1) ?_ trivial (by dsimp only; omega))
    fun _ _ => Returns.pure trivial
  intro s _
  refine Returns.mono (returns_readTransportParam hfits s) ?_
  intro r hr
  cases r with
  | yield s' =>
      have hlt := hr.1
      have hin := hr.2
      exact ⟨trivial, by omega⟩
  | done s' => trivial

theorem returns_readDetail (d : ClientHelloExtDetail) {r : Record}
    (hfits : r.2.length < 2 ^ 63) : Returns (readDetail d r) fun _ => True := by
  unfold readDetail
  refine Returns.ite ?_ fun _ => ?_
  · intro _
    exact (QuicHello.returns_parseSupportedVersions _).bind fun _ _ => Returns.pure trivial
  refine Returns.ite ?_ fun _ => ?_
  · intro _
    refine Returns.ite (fun _ => Returns.pure trivial) fun hlong => ?_
    exact (returns_u16From hfits (by omega)).bind fun _ _ => Returns.pure trivial
  refine Returns.ite ?_ fun _ => ?_
  · intro _
    exact (QuicHello.returns_parseEcPointFormats _).bind fun _ _ => Returns.pure trivial
  refine Returns.ite ?_ fun _ => ?_
  · intro _
    exact (QuicHello.returns_parseSupportedGroups hfits).bind fun _ _ => Returns.pure trivial
  refine Returns.ite ?_ fun _ => ?_
  · intro _
    exact (returns_parseKeyShare hfits).bind fun _ _ => Returns.pure trivial
  refine Returns.ite ?_ fun _ => ?_
  · intro _
    exact (returns_parseQuicTransportParams hfits).bind fun _ _ => Returns.pure trivial
  refine Returns.ite ?_ fun _ => ?_
  · intro _
    exact (returns_parseAlpsProtocols hfits).bind fun _ _ => Returns.pure trivial
  refine Returns.ite (fun _ => Returns.pure trivial) fun _ => ?_
  cases presenceNames.lookup r.1 with
  | none => exact Returns.pure trivial
  | some name => exact Returns.pure trivial

theorem returns_parseClientHelloExtDetail {payloads : List Record}
    (hfits : ∀ r ∈ payloads, r.2.length < 2 ^ 63) :
    Returns (parseClientHelloExtDetail payloads) fun _ => True :=
  returns_foldlM (fun d r hr _ => returns_readDetail d (hfits r hr)) trivial

theorem walk_payloads (body : List UInt8) (stop i : ℕ) (out : List Record)
    (hout : ∀ r ∈ out, r.2.length ≤ body.length) :
    ∀ r ∈ walk (fun out et data => out ++ [(et, data)]) body stop i out,
      r.2.length ≤ body.length := by
  fun_induction walk (fun out et data => out ++ [(et, data)]) body stop i out with
  | case1 i out hin et hover => exact hout
  | case2 i out hin et el hfit ih =>
      apply ih
      intro r hr
      rcases List.mem_append.mp hr with hr | hr
      · exact hout r hr
      · rw [List.mem_singleton.mp hr]
        exact ((List.take_sublist _ _).trans (List.drop_sublist _ _)).length_le
  | case3 i out hend => exact hout

theorem length_payload {r : Record} (hr : r ∈ TlsHello.extractExtPayloadsFromCrypto data) :
    r.2.length ≤ data.length := by
  have hrecord := QuicHello.length_afterRecordHeader data
  unfold TlsHello.extractExtPayloadsFromCrypto at hr
  dsimp only at hr
  split_ifs at hr
  · cases hr
  · cases hr
  · refine (walk_payloads _ _ _ [] nofun r hr).trans ?_
    rw [List.length_drop]
    omega

end Returns

end HelloExtensions

end GrServer
