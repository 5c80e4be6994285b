import GrServer.HelloCapture
import GrServer.HelloExtensions
import GrServer.QuicInitials

/-!
# QUIC datagrams

`parse_quic_datagram`: the long header, the token and the length of a datagram
that anybody may have sent, then its Initials, their reassembly and the
ClientHello in them.  Over any run of datagrams, and whatever the cryptographic
crates give, it comes to an end and faults nowhere.
-/

namespace GrServer

namespace QuicDatagrams

open Faults QuicFrames QuicInitials PieceAssembly TlsHello HelloExtensions

structure Hashes where
  sha256 : List UInt8 → Vector UInt8 32
  md5 : List UInt8 → Vector UInt8 16

def Hashes.digests (H : Hashes) : Digests where
  sha256 := fun bytes => (H.sha256 bytes).toList
  md5 := fun bytes => (H.md5 bytes).toList

def hexHead (text : String) (n : ℕ) : Run String := do
  return String.ofList (← slice text.toList 0 n)

structure QuicInitialInfo where
  parseOk : Bool := false
  version : Option ℕ := none
  versionHex : Option String := none
  versionLabel : Option String := none
  longHeader : Bool := false
  packetType : Option String := none
  fixedBit : Option Bool := none
  dcidLen : Option ℕ := none
  dcidHex : Option String := none
  scidLen : Option ℕ := none
  scidHex : Option String := none
  tokenLen : Option ℕ := none
  tokenPresent : Bool := false
  tokenHex : Option String := none
  length : Option ℕ := none
  packetNumberLen : Option ℕ := none
  packetNumber : Option ℕ := none
  aeadOk : Bool := false
  cryptoLen : Option ℕ := none
  datagramLen : ℕ
  quicFp : Option String := none
  quicFpHash : Option String := none
  tlsJa3 : Option String := none
  tlsJa3Hash : Option String := none
  tlsJa4 : Option String := none
  sni : Option String := none
  alpn : List String := []
  keyShareGroups : List UInt16 := []
  keyShareGroupsHex : List String := []
  transportParams : List QuicTransportParam := []
  transportParamsSummary : Option String := none
  transportParamsMap : SortedMap String String := SortedMap.empty
  pskModesNames : List String := []
  hasEch : Bool := false
  isVersionNegotiation : Bool := false
  isRetry : Bool := false
  supportedVersionsOffered : List String := []
  notes : List String := []
  rawHeaderHex : Option String := none

namespace QuicInitialInfo

def note (info : QuicInitialInfo) (text : String) : QuicInitialInfo :=
  { info with notes := info.notes ++ [text] }

end QuicInitialInfo

def dec (n : ℕ) : String := digits 10 1 n

def paramText (p : QuicTransportParam) : String :=
  match p.valueInt, p.valueHex with
  | some v, _ => dec v
  | none, some h => h
  | none, none => "len=" ++ dec p.valueLen

/-- `apply_client_hello_to_info`, or nothing where no hello is parsed. -/
def applyClientHelloToInfo (H : Hashes) (info : QuicInitialInfo) (crypto : List UInt8)
    (via : String) : Run (Option QuicInitialInfo) := do
  let some hello ← QuicHello.tryParseTlsClientHelloFull crypto | return none
  let payloads ← QuicHello.extractExtPayloadsFromCrypto crypto
  let detail ← parseClientHelloExtDetail payloads
  let info :=
    { info with
      tlsJa3 := some (buildJa3String hello)
      tlsJa3Hash := some (ja3Hash H.digests hello)
      tlsJa4 := some (buildJa4 captureVersions H.digests hello)
      sni := hello.sni
      alpn := hello.alpn
      keyShareGroups := detail.keyShareGroups
      keyShareGroupsHex := detail.keyShareGroupsHex
      transportParams := detail.quicTransportParams
      transportParamsSummary := detail.quicTpSummary
      transportParamsMap := detail.quicTransportParams.foldl
        (fun m (p : QuicTransportParam) => m.insert p.name (paramText p)) SortedMap.empty
      pskModesNames := detail.pskModesNames
      hasEch := detail.hasEncryptedClientHello
      cryptoLen := some crypto.length }
  let info := info.note
    ("TLS ClientHello from " ++ via ++ " → JA3/JA4 (crypto=" ++ dec crypto.length ++ "B)")
  match info.transportParamsSummary with
  | some sum => return some (if sum = "-" then info else info.note ("QUIC TP: " ++ sum))
  | none => return some info

def drainPieces (pieces : List (Piece UInt8)) : Run (List (Piece UInt8)) := do
  if 64 < pieces.length then
    slice pieces (← sub pieces.length 64) pieces.length
  else return pieces

def reasmPushCrypto (oldest : QuicCapture.Oldest) (now : ℕ) (g : QuicCapture.CryptoReasm)
    (dcidHex : String) (pieces : List (Piece UInt8)) :
    Run (QuicCapture.CryptoReasm × List UInt8) := do
  if dcidHex = "" ∨ pieces = [] then return (g, ← assembleCrypto pieces)
  let g := QuicCapture.swept oldest now g
  let e := (g.get? dcidHex).getD (QuicCapture.newEntry now)
  let kept ← drainPieces (e.pieces ++ pieces)
  let stream ← assembleCrypto kept
  let best := if e.bestStream.length < stream.length then stream else e.bestStream
  return (g.insert dcidHex ⟨kept, now, best⟩, best)

structure Progress where
  info : QuicInitialInfo
  reasm : QuicCapture.CryptoReasm
  bestCrypto : List UInt8 := []
  bestPn : Option ℕ := none
  totalCryptoPiece : ℕ := 0

/-- The moment of every push, and the order in which a full map is thinned out. -/
structure Clock where
  now : ℕ → ℕ
  oldest : QuicCapture.Oldest

def Progress.see (s : Progress) (d : DecryptedInitial) : Progress :=
  if s.bestPn.isNone ∨ s.bestCrypto.length < d.cryptoData.length then
    { s with
      bestCrypto := if d.cryptoData = [] then s.bestCrypto else d.cryptoData
      bestPn := some d.packetNumber
      info := { s.info with
        packetNumber := some d.packetNumber
        packetNumberLen := some d.pnLen } }
  else s

def seePacket (clock : Clock) (s : Progress) (p : DecryptedInitial × ℕ) : Run Progress := do
  let (d, idx) := p
  let cid ← hexHead d.dcidHex (min d.dcidHex.length 16)
  let text := "Initial[" ++ dec idx ++ "] AEAD ok: pn=" ++ dec d.packetNumber ++ " crypto=" ++
    dec d.cryptoData.length ++ "B pieces=" ++ dec d.cryptoPieces.length ++ " plaintext=" ++
    dec d.plaintext.length ++ "B dcid=" ++ cid
  let s := { s with info := s.info.note text }.see d
  -- A count for a note, over lengths of buffers that are all held at once.
  let total := s.totalCryptoPiece + (d.cryptoPieces.map fun p => p.2.length).sum
  let s := { s with totalCryptoPiece := total }
  if d.cryptoPieces ≠ [] then
    let (reasm, stream) ← reasmPushCrypto clock.oldest (clock.now idx) s.reasm d.dcidHex
      d.cryptoPieces
    let s := { s with reasm := reasm }
    if s.bestCrypto.length < stream.length then
      let cid ← hexHead d.dcidHex (min d.dcidHex.length 16)
      let text := "CRYPTO reasm dcid=" ++ cid ++ " stream=" ++ dec stream.length ++ "B"
      return { s with bestCrypto := stream, info := s.info.note text }
    return s
  else if d.cryptoData ≠ [] then
    let (reasm, stream) ← reasmPushCrypto clock.oldest (clock.now idx) s.reasm d.dcidHex
      [(0, d.cryptoData)]
    let s := { s with reasm := reasm }
    if s.bestCrypto.length < stream.length then return { s with bestCrypto := stream }
    return s
  else return s

abbrev Parsed := QuicInitialInfo × QuicCapture.CryptoReasm

def enrichQuicWithAead (H : Hashes) (P : Primitives) (clock : Clock) (data : List UInt8)
    (info : QuicInitialInfo) (reasm : QuicCapture.CryptoReasm) : Run Parsed := do
  let packets ← decryptAllClientInitials P data
  if packets = [] then
    match ← decryptClientInitial P data with
    | .ok _ => return (info, reasm)
    | .error e => return ({ info with aeadOk := false }.note ("Initial AEAD: " ++ e), reasm)
  let s ← packets.zipIdx.foldlM (seePacket clock)
    { info := { info with aeadOk := true }, reasm := reasm }
  let best := s.bestCrypto
  let info := { s.info with cryptoLen := some best.length }
  let info :=
    if 1 < packets.length then
      info.note ("coalesced_initials=" ++ dec packets.length ++ " total_crypto_piece_bytes=" ++
        dec s.totalCryptoPiece)
    else info
  if best = [] then
    return (info.note "AEAD ok but no CRYPTO/ClientHello yet (reasm waiting)", s.reasm)
  match ← applyClientHelloToInfo H info best "CRYPTO reasm/AEAD" with
  | some info => return (info, s.reasm)
  | none =>
      let head ← slice best 0 (min best.length 32)
      return (info.note
        ("CRYPTO present (" ++ dec best.length ++ "B) but ClientHello parse failed; head_hex=" ++
          hexEncode head), s.reasm)

def versionLabel (v : ℕ) : String :=
  if v = quicV1 then "QUIC v1"
  else if v = quicV2 then "QUIC v2"
  else if v = 0x51303334 then "Q034(gquic)"
  else if v = 0x51303530 then "Q050(gquic)"
  else "unknown/draft"

def packetTypeName (ptype : UInt8) : String :=
  if ptype = 0 then "Initial"
  else if ptype = 1 then "0-RTT"
  else if ptype = 2 then "Handshake"
  else if ptype = 3 then "Retry"
  else "type_" ++ dec ptype.toNat

abbrev Stage := Run (Except QuicInitialInfo (QuicInitialInfo × ℕ))

def readConnectionIds (data : List UInt8) (info : QuicInitialInfo) : Stage := do
  let i := 5
  if data.length ≤ i then return .error info
  let dcidLen := (← index data i).toNat
  let i ← add i 1
  let info := { info with dcidLen := some dcidLen }
  if data.length < (← add i dcidLen) then return .error (info.note "truncated DCID")
  let dcid ← slice data i (← add i dcidLen)
  let info := { info with dcidHex := some (hexEncode dcid) }
  let i ← add i dcidLen
  if data.length ≤ i then return .error info
  let scidLen := (← index data i).toNat
  let i ← add i 1
  let info := { info with scidLen := some scidLen }
  if data.length < (← add i scidLen) then return .error (info.note "truncated SCID")
  let scid ← slice data i (← add i scidLen)
  let info := { info with scidHex := some (hexEncode scid) }
  return .ok (info, ← add i scidLen)

/-- At most 16 of the versions that a Version Negotiation lists. -/
def readVersions (data : List UInt8) (i : ℕ) : Run (List String) := do
  let s ← loop (fun ((i, vers) : ℕ × List String) => do
    if data.length < (← add i 4) ∨ 16 ≤ vers.length then return .done (i, vers)
    let v ← u32From data i
    return .yield (← add i 4, vers ++ [digits 16 8 v])) (data.length + 1) (i, [])
  return s.2

def tokenHexOf (data : List UInt8) (tokenLen i : ℕ) : Run (Option String) := do
  if 0 < tokenLen then
    return some (hexEncode (← slice data i (← add i (min tokenLen 64))))
  return none

def readTokenAndLength (data : List UInt8) (info : QuicInitialInfo) (i : ℕ) : Stage := do
  let some (tokenLen, i) ← readVarint data i | return .error (info.note "bad token varint")
  let info := { info with tokenLen := some tokenLen, tokenPresent := decide (0 < tokenLen) }
  if data.length < (← add i tokenLen) then return .error (info.note "truncated token")
  let tokenHex ← tokenHexOf data tokenLen i
  let info := { info with tokenHex := tokenHex }
  let info :=
    if 64 < tokenLen then
      info.note ("token truncated in hex store (" ++ dec tokenLen ++ "B → 64B)")
    else info
  let i ← add i tokenLen
  let some (length, i) ← readVarint data i | return .error (info.note "bad length varint")
  return .ok ({ info with length := some length }, i)

def parseQuicDatagram (H : Hashes) (P : Primitives) (clock : Clock) (data : List UInt8)
    (reasm : QuicCapture.CryptoReasm) : Run Parsed := do
  let info : QuicInitialInfo := { datagramLen := data.length }
  if data = [] then return (info.note "empty datagram", reasm)
  let first ← index data 0
  if first &&& 0x80 = 0 then
    return ({ info with packetType := some "short" }.note
      "short header (1-RTT) — not Initial", reasm)
  let info := { info with longHeader := true }
  if data.length < 6 then return (info.note "long header too short", reasm)
  let version ← u32From data 1
  let ptype := (first &&& 0x30) >>> 4
  let negotiation := version == 0
  let info :=
    { info with
      version := some version
      versionHex := some (digits 16 8 version)
      versionLabel := some (versionLabel version)
      fixedBit := some (first &&& 0x40 != 0)
      isVersionNegotiation := negotiation
      parseOk := negotiation
      isRetry := !negotiation && ptype == 3
      packetType := some (if negotiation then "VersionNegotiation" else packetTypeName ptype)
      packetNumberLen := some ((first &&& 0x03).toNat + 1) }
  match ← readConnectionIds data info with
  | .error info => return (info, reasm)
  | .ok (info, i) =>
      if info.isVersionNegotiation then
        let vers ← readVersions data i
        return ({ info with supportedVersionsOffered := vers }.note
          "QUIC Version Negotiation observed", reasm)
      if info.isRetry then
        return ({ info with parseOk := true }.note
          "QUIC Retry observed (no AEAD ClientHello)", reasm)
      -- An Initial of version 2 has the type of a 0-RTT packet of version 1.
      let initialLayout := ptype == 0 || (version == quicV2 && ptype == 1)
      match ← (if initialLayout then readTokenAndLength data info i
        else return .ok (info, i) : Stage) with
      | .error info => return (info, reasm)
      | .ok (info, i) =>
          let header ← slice data 0 (min (min i data.length) 128)
          let fp := "q" ++ digits 16 8 version ++ "_d" ++ dec (info.dcidLen.getD 0) ++ "_s" ++
            dec (info.scidLen.getD 0) ++ "_t" ++ (if info.tokenPresent then "1" else "0") ++
            "_pn" ++ dec (info.packetNumberLen.getD 0) ++ "_sz" ++ dec data.length
          let fpHash ← hexHead (hexEncode (H.sha256 (Text.asBytes fp)).toList) 16
          let info :=
            { info with
              rawHeaderHex := some (hexEncode header)
              parseOk := true
              quicFp := some fp
              quicFpHash := some fpHash }
          if initialLayout then enrichQuicWithAead H P clock data info reasm
          else return (info, reasm)

/-! ## Nothing faults -/

theorem length_digits_byte (b : UInt8) : (digits 16 2 b.toNat).toList.length = 2 := by
  have hle : (Nat.toDigits 16 b.toNat).length ≤ 2 :=
    (Nat.length_toDigits_le_iff (by decide) (by decide)).mpr b.toNat_lt
  unfold digits
  rw [String.toList_ofList, List.length_append, List.length_replicate]
  omega

theorem length_hexEncode (bytes : List UInt8) :
    (hexEncode bytes).toList.length = 2 * bytes.length := by
  unfold hexEncode
  rw [String.toList_join]
  induction bytes with
  | nil => rfl
  | cons b bytes ih =>
      rw [List.map_cons, List.flatMap_cons, List.length_append, ih, length_digits_byte,
        List.length_cons]
      omega

theorem returns_hexHead {text : String} {n : ℕ} (h : n ≤ text.toList.length) :
    Returns (hexHead text n) fun _ => True :=
  (returns_sliceTo h).bind fun _ _ => Returns.pure trivial

theorem returns_dcidHead (dcidHex : String) :
    Returns (hexHead dcidHex (min dcidHex.length 16)) fun _ => True := by
  apply returns_hexHead
  rw [String.length_toList]
  exact min_le_left _ _

section Enriching

variable {H : Hashes} {P : Primitives} {clock : Clock} {data : List UInt8}

theorem returns_applyClientHelloToInfo (info : QuicInitialInfo) {crypto : List UInt8}
    (hfits : crypto.length < 2 ^ 63) (via : String) :
    Returns (applyClientHelloToInfo H info crypto via) fun _ => True := by
  unfold applyClientHelloToInfo
  refine (QuicHello.returns_tryParseTlsClientHelloFull hfits).bind ?_
  rintro hello -
  cases hello with
  | none => exact Returns.pure trivial
  | some hello =>
      dsimp only
      refine (QuicHello.returns_extractExtPayloadsFromCrypto hfits).bind ?_
      rintro payloads rfl
      refine (returns_parseClientHelloExtDetail fun r hr =>
        (length_payload hr).trans_lt hfits).bind ?_
      intro detail _
      split
      · exact Returns.pure trivial
      · exact Returns.pure trivial

theorem returns_drainPieces (pieces : List (Piece UInt8)) :
    Returns (drainPieces pieces) (· = QuicCapture.capPieces pieces) := by
  unfold drainPieces QuicCapture.capPieces
  refine Returns.ite ?_ ?_
  · intro hmany
    refine (returns_sub hmany.le).bind ?_
    rintro first rfl
    exact returns_sliceFrom (Nat.sub_le _ _)
  · intro hfew
    rw [Nat.sub_eq_zero_of_le (by omega)]
    exact Returns.pure rfl

/-- What every push leaves in the map: pieces of varint offsets, and streams of
at most the size of the buffer. -/
def Sound (g : QuicCapture.CryptoReasm) : Prop :=
  ∀ k e, g.get? k = some e → (∀ p ∈ e.pieces, Bounded p) ∧ e.bestStream.length ≤ 64 * 1024

theorem sound_empty : Sound SortedMap.empty := by
  intro k e h
  exact nomatch h

theorem Sound.entry {g : QuicCapture.CryptoReasm} (hg : Sound g) (oldest : QuicCapture.Oldest)
    (now : ℕ) (k : String) :
    (∀ p ∈ (((QuicCapture.swept oldest now g).get? k).getD (QuicCapture.newEntry now)).pieces,
      Bounded p) ∧
    (((QuicCapture.swept oldest now g).get? k).getD
      (QuicCapture.newEntry now)).bestStream.length ≤ 64 * 1024 := by
  cases hk : (QuicCapture.swept oldest now g).get? k with
  | none => exact ⟨nofun, Nat.zero_le _⟩
  | some e => exact hg k e (QuicCapture.get?_swept_eq_some hk)

theorem length_push {e : QuicCapture.CryptoReasmEntry} (he : e.bestStream.length ≤ 64 * 1024)
    (now : ℕ) (pieces : List (Piece UInt8)) :
    (e.push now pieces).bestStream.length ≤ 64 * 1024 := by
  rw [QuicCapture.push_bestStream]
  unfold QuicCapture.longer
  split_ifs
  · exact length_assembleCrypto _
  · exact he

theorem Sound.push {g : QuicCapture.CryptoReasm} (hg : Sound g) (oldest : QuicCapture.Oldest)
    (now : ℕ) (dcidHex : String) {pieces : List (Piece UInt8)}
    (hpieces : ∀ p ∈ pieces, Bounded p) :
    Sound (QuicCapture.reasmPushCrypto oldest now g dcidHex pieces).1 ∧
      (QuicCapture.reasmPushCrypto oldest now g dcidHex pieces).2.length ≤ 64 * 1024 := by
  unfold QuicCapture.reasmPushCrypto
  split_ifs
  · exact ⟨hg, length_assembleCrypto pieces⟩
  · have hentry := hg.entry oldest now dcidHex
    dsimp only
    refine ⟨?_, length_push hentry.2 now pieces⟩
    intro k e hk
    rw [SortedMap.get?_insert] at hk
    split_ifs at hk with hsame
    · rw [← Option.some.inj hk]
      refine ⟨?_, length_push hentry.2 now pieces⟩
      intro p hp
      rw [QuicCapture.push_pieces] at hp
      rcases List.mem_append.mp (QuicCapture.mem_of_mem_capPieces hp) with hp | hp
      · exact hentry.1 p hp
      · exact hpieces p hp
    · exact hg k e (QuicCapture.get?_swept_eq_some hk)

theorem returns_reasmPushCrypto {g : QuicCapture.CryptoReasm} (hg : Sound g)
    (oldest : QuicCapture.Oldest) (now : ℕ) (dcidHex : String) {pieces : List (Piece UInt8)}
    (hpieces : ∀ p ∈ pieces, Bounded p) :
    Returns (reasmPushCrypto oldest now g dcidHex pieces)
      (· = QuicCapture.reasmPushCrypto oldest now g dcidHex pieces) := by
  unfold reasmPushCrypto QuicCapture.reasmPushCrypto
  refine Returns.ite ?_ ?_
  · intro hnone
    rw [if_pos hnone]
    refine (returns_assembleCrypto fun p hp => (hpieces p hp).sum_lt).bind ?_
    rintro stream rfl
    exact Returns.pure rfl
  · intro hsome
    rw [if_neg hsome]
    have hentry := hg.entry oldest now dcidHex
    refine (returns_drainPieces _).bind ?_
    rintro kept rfl
    refine (returns_assembleCrypto ?_).bind ?_
    · intro p hp
      rcases List.mem_append.mp (QuicCapture.mem_of_mem_capPieces hp) with hp | hp
      · exact (hentry.1 p hp).sum_lt
      · exact (hpieces p hp).sum_lt
    · rintro stream rfl
      exact Returns.pure rfl

structure Held (s : Progress) : Prop where
  reasm : Sound s.reasm
  best : s.bestCrypto.length < 2 ^ 63

theorem see_kept {s : Progress} (hs : Held s) {d : DecryptedInitial}
    (hd : d.cryptoData.length < 2 ^ 63) : Held (s.see d) := by
  unfold Progress.see
  split_ifs
  · exact ⟨hs.reasm, hs.best⟩
  · exact ⟨hs.reasm, hd⟩
  · exact hs

theorem returns_seePacket (clock : Clock) {s : Progress} (hs : Held s) {d : DecryptedInitial}
    {tail : List UInt8} (hd : InitialOf tail d) (idx : ℕ) :
    Returns (seePacket clock s (d, idx)) Held := by
  have hdata : d.cryptoData.length < 2 ^ 63 := by
    rw [hd.stream]
    exact length_cryptoData hd.fits
  have hpieces : ∀ p ∈ d.cryptoPieces, Bounded p := by
    rw [hd.pieces]
    exact bounded_extractCryptoPieces hd.fits
  unfold seePacket
  refine (returns_dcidHead d.dcidHex).bind ?_
  intro cid _
  dsimp only
  generalize hseen : Progress.see _ d = seen
  have hheld : Held seen := by
    rw [← hseen]
    apply see_kept _ hdata
    exact ⟨hs.reasm, hs.best⟩
  refine Returns.ite ?_ fun _ => Returns.ite ?_ ?_
  · intro _
    have hpush := hheld.reasm.push clock.oldest (clock.now idx) d.dcidHex hpieces
    refine (returns_reasmPushCrypto hheld.reasm clock.oldest (clock.now idx) d.dcidHex
      hpieces).bind ?_
    rintro pushed rfl
    refine Returns.ite ?_ ?_
    · intro _
      refine (returns_dcidHead d.dcidHex).bind ?_
      intro cid _
      exact Returns.pure ⟨hpush.1, by dsimp only; omega⟩
    · intro _
      exact Returns.pure ⟨hpush.1, hheld.best⟩
  · intro _
    have hone : ∀ p ∈ [((0, d.cryptoData) : Piece UInt8)], Bounded p := by
      intro p hp
      rw [List.mem_singleton.mp hp]
      exact ⟨by norm_num, hdata⟩
    have hpush := hheld.reasm.push clock.oldest (clock.now idx) d.dcidHex hone
    refine (returns_reasmPushCrypto hheld.reasm clock.oldest (clock.now idx) d.dcidHex
      hone).bind ?_
    rintro pushed rfl
    refine Returns.ite ?_ ?_
    · intro _
      exact Returns.pure ⟨hpush.1, by dsimp only; omega⟩
    · intro _
      exact Returns.pure ⟨hpush.1, hheld.best⟩
  · intro _
    exact Returns.pure ⟨hheld.reasm, hheld.best⟩

theorem returns_enrichQuicWithAead (H : Hashes) (P : Primitives) (clock : Clock)
    (hfits : data.length < 2 ^ 63) (info : QuicInitialInfo) {reasm : QuicCapture.CryptoReasm}
    (hreasm : Sound reasm) :
    Returns (enrichQuicWithAead H P clock data info reasm) fun r => Sound r.2 := by
  unfold enrichQuicWithAead
  refine (returns_decryptAllClientInitials P hfits).bind ?_
  intro packets hpackets
  refine Returns.ite ?_ ?_
  · intro _
    refine bind_accepts (returns_decryptClientInitial P hfits) ?_ ?_
    · intro e
      exact Returns.pure hreasm
    · intro d _
      exact Returns.pure hreasm
  intro _
  refine Returns.bind (returns_foldlM (I := Held) ?_ ⟨hreasm, by norm_num⟩) ?_
  · rintro s ⟨d, idx⟩ hmem hs
    rcases hpackets d (List.fst_mem_of_mem_zipIdx hmem) with ⟨tail, hd⟩
    exact returns_seePacket clock hs hd idx
  intro s hs
  refine Returns.ite (fun _ => Returns.pure hs.reasm) fun _ => ?_
  refine (returns_applyClientHelloToInfo _ hs.best _).bind ?_
  intro applied _
  cases applied with
  | some info => exact Returns.pure hs.reasm
  | none =>
      refine (returns_sliceTo (min_le_left _ _)).bind ?_
      intro head _
      exact Returns.pure hs.reasm

end Enriching

section Parsing

variable {data : List UInt8}

theorem returns_readConnectionIds (hfits : data.length < 2 ^ 63) (info : QuicInitialInfo) :
    Returns (readConnectionIds data info) (Accepts fun r => r.2 ≤ data.length) := by
  unfold readConnectionIds
  refine Returns.ite (fun _ => returns_refused) fun hlong => ?_
  refine (returns_index (by omega)).bind ?_
  intro dcidLen _
  have hdcidLen := dcidLen.toNat_lt
  refine (returns_add (by omega)).bind ?_
  rintro dcidAt rfl
  refine (returns_add (by omega)).bind ?_
  rintro dcidEnd rfl
  refine Returns.ite (fun _ => returns_refused) fun hdcid => ?_
  refine (returns_add (by omega)).bind ?_
  rintro dcidEnd rfl
  refine (returns_slice (by omega) (by omega)).bind ?_
  intro dcid _
  refine (returns_add (by omega)).bind ?_
  rintro i rfl
  refine Returns.ite (fun _ => returns_refused) fun hscidLen => ?_
  refine (returns_index (by omega)).bind ?_
  intro scidLen _
  have hscidLen := scidLen.toNat_lt
  refine (returns_add (by omega)).bind ?_
  rintro scidAt rfl
  refine (returns_add (by omega)).bind ?_
  rintro scidEnd rfl
  refine Returns.ite (fun _ => returns_refused) fun hscid => ?_
  refine (returns_add (by omega)).bind ?_
  rintro scidEnd rfl
  refine (returns_slice (by omega) (by omega)).bind ?_
  intro scid _
  refine (returns_add (by omega)).bind ?_
  rintro next rfl
  exact returns_accepted (by dsimp only; omega)

theorem returns_readVersions (hfits : data.length < 2 ^ 63) {i : ℕ} (hi : i ≤ data.length) :
    Returns (readVersions data i) fun _ => True := by
  refine Returns.bind (returns_loop (I := fun s : ℕ × List String => s.1 ≤ data.length)
    (Q := fun _ => True) (m := fun s => data.length - s.1) ?_ hi (by dsimp only; omega))
    fun _ _ => Returns.pure trivial
  rintro ⟨j, vers⟩ hj
  dsimp only at hj
  refine (returns_add (by omega)).bind ?_
  rintro stop rfl
  refine Returns.ite (fun _ => Returns.pure trivial) fun hgo => ?_
  rw [not_or] at hgo
  refine (returns_u32From hfits (by omega)).bind ?_
  intro v _
  refine (returns_add (by omega)).bind ?_
  rintro next rfl
  exact Returns.pure ⟨by dsimp only; omega, by dsimp only; omega⟩

theorem returns_tokenHexOf (hfits : data.length < 2 ^ 63) {tokenLen i : ℕ}
    (hin : i + tokenLen ≤ data.length) : Returns (tokenHexOf data tokenLen i) fun _ => True := by
  unfold tokenHexOf
  refine Returns.ite ?_ fun _ => Returns.pure trivial
  intro _
  refine (returns_add (by omega)).bind ?_
  rintro stop rfl
  refine (returns_slice (by omega) (by omega)).bind ?_
  intro token _
  exact Returns.pure trivial

theorem returns_readTokenAndLength (hfits : data.length < 2 ^ 63) (info : QuicInitialInfo)
    (i : ℕ) : Returns (readTokenAndLength data info i) (Accepts fun r => r.2 ≤ data.length) := by
  unfold readTokenAndLength
  refine bind_readVarint hfits (fun _ => returns_refused) ?_
  intro tokenLen j htoken
  have hsmall := htoken.small
  have hinside := htoken.inside
  refine (returns_add (by omega)).bind ?_
  rintro tokenEnd rfl
  refine Returns.ite (fun _ => returns_refused) fun hfit => ?_
  refine (returns_tokenHexOf hfits (by omega)).bind ?_
  intro tokenHex _
  refine (returns_add (by omega)).bind ?_
  rintro lengthAt rfl
  refine bind_readVarint hfits (fun _ => returns_refused) ?_
  intro length k hlength
  exact returns_accepted hlength.inside

theorem returns_parseQuicDatagram (H : Hashes) (P : Primitives) (clock : Clock)
    (hfits : data.length < 2 ^ 63) {reasm : QuicCapture.CryptoReasm} (hreasm : Sound reasm) :
    Returns (parseQuicDatagram H P clock data reasm) fun r => Sound r.2 := by
  unfold parseQuicDatagram
  refine Returns.ite (fun _ => Returns.pure hreasm) fun hsome => ?_
  refine (returns_index (List.length_pos_of_ne_nil hsome)).bind ?_
  intro first _
  refine Returns.ite (fun _ => Returns.pure hreasm) fun _ => ?_
  refine Returns.ite (fun _ => Returns.pure hreasm) fun hlong => ?_
  refine (returns_u32From hfits (by omega)).bind ?_
  intro version _
  refine bind_accepts (returns_readConnectionIds hfits _) (fun _ => Returns.pure hreasm) ?_
  rintro ⟨info, i⟩ hi
  refine Returns.ite ?_ fun _ => ?_
  · intro _
    refine (returns_readVersions hfits hi).bind ?_
    intro vers _
    exact Returns.pure hreasm
  refine Returns.ite (fun _ => Returns.pure hreasm) fun _ => ?_
  have hlayout : ∀ c : Bool, Returns
      (if c then readTokenAndLength data info i else return .ok (info, i) : Stage)
      (Accepts fun r => r.2 ≤ data.length) := by
    intro c
    refine Returns.ite (fun _ => returns_readTokenAndLength hfits info i) fun _ => ?_
    exact returns_accepted hi
  refine bind_accepts (hlayout _) (fun _ => Returns.pure hreasm) ?_
  rintro ⟨info, i⟩ hi
  refine (returns_sliceTo ((min_le_left _ _).trans (min_le_right _ _))).bind ?_
  intro header _
  refine (returns_hexHead ?_).bind ?_
  · rw [length_hexEncode, Vector.length_toList]
    norm_num
  intro fpHash _
  refine Returns.ite ?_ fun _ => Returns.pure hreasm
  intro _
  exact returns_enrichQuicWithAead H P clock hfits _ hreasm

end Parsing

/-! ## Every run -/

structure Arrival where
  data : Buffer
  clock : Clock

def handle (H : Hashes) (P : Primitives) (reasm : QuicCapture.CryptoReasm) (a : Arrival) :
    Run Parsed :=
  parseQuicDatagram H P a.clock a.data.bytes reasm

def handleAll (H : Hashes) (P : Primitives) (as : List Arrival) : Run QuicCapture.CryptoReasm :=
  as.foldlM (fun reasm a => do return (← handle H P reasm a).2) SortedMap.empty

theorem returns_handle (H : Hashes) (P : Primitives) {reasm : QuicCapture.CryptoReasm}
    (hreasm : Sound reasm) (a : Arrival) : Returns (handle H P reasm a) fun r => Sound r.2 :=
  returns_parseQuicDatagram H P a.clock a.data.fits hreasm

theorem returns_handleAll (H : Hashes) (P : Primitives) (as : List Arrival) :
    Returns (handleAll H P as) Sound := by
  refine returns_foldlM (I := Sound) ?_ sound_empty
  intro reasm a _ hreasm
  refine (returns_handle H P hreasm a).bind ?_
  intro r hr
  exact Returns.pure hr

theorem takePacket_advances {P : Primitives} {data : Buffer} {s s' : Coalesced}
    (h : takePacket P data.bytes s = .ok (.yield s')) : s.off < s'.off := by
  by_cases hoff : s.off ≤ data.bytes.length
  · exact ((returns_takePacket P data.fits hoff).of_eq h).1
  · exfalso
    unfold takePacket at h
    by_cases hsum : s.off + 20 < 2 ^ 64
    · have hstop : Returns (takePacket P data.bytes s) (· = .done s) := by
        refine (returns_add hsum).bind ?_
        rintro least rfl
        refine Returns.ite (fun _ => Returns.pure rfl) fun hgo => ?_
        omega
      exact nomatch hstop.of_eq h
    · rw [add, if_neg hsum] at h
      cases h

theorem walkFrame_advances {frames : Buffer} {s s' : Walk}
    (h : walkFrame frames.bytes s = .ok (.yield s')) : s.1 < s'.1 :=
  ((returns_walkFrame frames.fits s).of_eq h).2.1

theorem readVarint_advances {data : Buffer} {i v n : ℕ}
    (h : readVarint data.bytes i = .ok (some (v, n))) :
    v < 2 ^ 62 ∧ i < n ∧ n ≤ data.bytes.length := by
  rcases (returns_readVarint data.fits).of_eq h with ⟨hnone, -⟩ | ⟨w, m, hsome, hw⟩
  · exact nomatch hnone
  · cases hsome
    exact ⟨hw.small, hw.advances, hw.inside⟩

/-- Whatever arrives and whatever the primitives give, every datagram of every
run is parsed to the end, and so are the packets and the frames of any buffer;
each packet and each frame that is taken, and each varint, moves its walk on. -/
theorem quic_parsing_total (H : Hashes) (P : Primitives) :
    (∀ as a, ∃ reasm parsed, handleAll H P as = .ok reasm ∧ handle H P reasm a = .ok parsed) ∧
      (∀ data : Buffer, ∃ out, decryptAllClientInitials P data.bytes = .ok out) ∧
      (∀ frames : Buffer, extractCryptoPieces frames.bytes =
        .ok (QuicCapture.extractCryptoPieces frames.bytes)) ∧
      (∀ (data : Buffer) s s', takePacket P data.bytes s = .ok (.yield s') → s.off < s'.off) ∧
      (∀ (frames : Buffer) s s', walkFrame frames.bytes s = .ok (.yield s') → s.1 < s'.1) ∧
      ∀ (data : Buffer) i v n, readVarint data.bytes i = .ok (some (v, n)) →
        v < 2 ^ 62 ∧ i < n ∧ n ≤ data.bytes.length := by
  refine ⟨?_, ?_, ?_, ?_, ?_, ?_⟩
  · intro as a
    rcases returns_handleAll H P as with ⟨reasm, hrun, hreasm⟩
    rcases returns_handle H P hreasm a with ⟨parsed, hparsed, -⟩
    exact ⟨reasm, parsed, hrun, hparsed⟩
  · intro data
    rcases returns_decryptAllClientInitials P data.fits with ⟨out, hout, -⟩
    exact ⟨out, hout⟩
  · intro frames
    rcases returns_extractCryptoPieces frames.fits with ⟨pieces, hpieces, rfl⟩
    exact hpieces
  · exact fun data s s' h => takePacket_advances h
  · exact fun frames s s' h => walkFrame_advances h
  · exact fun data i v n h => readVarint_advances h

end QuicDatagrams

end GrServer
