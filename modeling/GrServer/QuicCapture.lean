import GrServer.PieceAssembly
import GrServer.SortedMap
import GrServer.TlsHello

/-!
# The capture of QUIC Initials

The CRYPTO frames of decrypted Initial packets are collected by connection id,
over several datagrams, in one map that all threads share.  Old entries are
dropped by age and by number.  When the packets of a datagram are through, the
longest stream seen with it is parsed as a ClientHello.

A datagram enters with its packets decrypted; one datagram has one connection
id.
-/

namespace GrServer

namespace QuicCapture

open WireBytes PieceAssembly TlsHello

/-! ## Frames -/

/-- `read_varint`, with the bytes that follow. -/
def readVarint (bs : List UInt8) : Option (ℕ × List UInt8) :=
  match bs with
  | [] => none
  | b :: _ =>
      let len := 2 ^ (b.toNat / 64)
      if bs.length < len then none
      else
        some (((bs.take len).drop 1).foldl (fun v x => v * 256 + x.toNat) (b.toNat % 64),
          bs.drop len)

/-- At most `n` of them; a loop of skips ends at the first that fails. -/
def skipVarints : ℕ → List UInt8 → List UInt8
  | 0, bs => bs
  | n + 1, bs =>
      match readVarint bs with
      | some (_, rest) => skipVarints n rest
      | none => bs

def passVarints : ℕ → List UInt8 → Option (List UInt8)
  | 0, bs => some bs
  | n + 1, bs => (readVarint bs).bind fun v => passVarints n v.2

def readAck (ftype : ℕ) (bs : List UInt8) : Option (List UInt8) :=
  (passVarints 2 bs).bind fun bs =>
    (readVarint bs).bind fun ranges =>
      (passVarints 1 ranges.2).map fun bs =>
        let bs := skipVarints (2 * ranges.1) bs
        if ftype = 0x03 then skipVarints 3 bs else bs

def readStream (ftype : ℕ) (bs : List UInt8) : Option (List UInt8) :=
  (passVarints 1 bs).bind fun bs =>
    (passVarints (if ftype.testBit 2 then 1 else 0) bs).bind fun bs =>
      if ftype.testBit 1 then (readVarint bs).map fun len => len.2.drop len.1 else none

def readFrame (ftype : ℕ) (bs : List UInt8) : List (Piece UInt8) × Option (List UInt8) :=
  if ftype = 0x00 ∨ ftype = 0x01 then ([], some bs)
  else if ftype = 0x02 ∨ ftype = 0x03 then ([], readAck ftype bs)
  else if ftype = 0x04 then ([], passVarints 3 bs)
  else if ftype = 0x05 then ([], passVarints 2 bs)
  else if ftype = 0x06 then
    match (readVarint bs).bind fun off => (readVarint off.2).map fun len => (off.1, len) with
    | none => ([], none)
    | some (off, len, data) =>
        if data.length < len then ([(off, data)], none)
        else ([(off, data.take len)], some (data.drop len))
  else if ftype = 0x07 then ([], (readVarint bs).map fun len => len.2.drop len.1)
  else if 0x08 ≤ ftype ∧ ftype ≤ 0x0f then ([], readStream ftype bs)
  else ([], none)

/-- A frame takes a byte at least, so that the number of bytes bounds the walk. -/
def walkFrames : ℕ → List UInt8 → List (Piece UInt8)
  | 0, _ => []
  | fuel + 1, frames =>
      match readVarint frames with
      | none => []
      | some (ftype, bs) =>
          match readFrame ftype bs with
          | (pieces, some rest) => pieces ++ walkFrames fuel rest
          | (pieces, none) => pieces

def extractCryptoPieces (frames : List UInt8) : List (Piece UInt8) :=
  walkFrames frames.length frames

def assembleCrypto (pieces : List (Piece UInt8)) : List UInt8 := assemble (64 * 1024) pieces

def wholeHelloAt (data : List UInt8) (i : ℕ) : Bool :=
  let len := u24At data (i + 1)
  byteAt data i == 0x01 && decide (38 ≤ len) && decide (len ≤ 16 * 1024) &&
    decide (i + 4 + len ≤ data.length) && byteAt data (i + 4) == 0x03 &&
    (byteAt data (i + 5) == 0x03 || byteAt data (i + 5) == 0x01) &&
    decide (35 + byteAt data (i + 38) + 2 ≤ len)

def findClientHelloInBytes (data : List UInt8) : Option (List UInt8) :=
  if data.length < 42 then none
  else
    ((List.range (data.length - 42)).find? (wholeHelloAt data)).map fun i =>
      slice data i (4 + u24At data (i + 1))

/-! ## Reassembly -/

structure CryptoReasmEntry where
  pieces : List (Piece UInt8)
  lastSeen : ℕ
  bestStream : List UInt8

abbrev CryptoReasm := SortedMap String CryptoReasmEntry

def reasmTtl : ℕ := 30000

def reasmMaxKeys : ℕ := 256

/-- The key that the iteration over the hash map finds with the least
`last_seen`; of several it is the first on the way. -/
structure Oldest where
  find : CryptoReasm → Option String
  finds : ∀ g, find g = none → g.entries = []
  least : ∀ g k, find g = some k →
    ∃ e, g.get? k = some e ∧ ∀ j f, g.get? j = some f → e.lastSeen ≤ f.lastSeen

def dropExpired (now : ℕ) (g : CryptoReasm) : CryptoReasm :=
  g.filter fun _ e => decide (now - e.lastSeen < reasmTtl)

def evict (oldest : Oldest) : ℕ → CryptoReasm → CryptoReasm
  | 0, g => g
  | n + 1, g =>
      if g.entries.length < reasmMaxKeys then g
      else
        match oldest.find g with
        | some k => evict oldest n (g.erase k)
        | none => g

def swept (oldest : Oldest) (now : ℕ) (g : CryptoReasm) : CryptoReasm :=
  let live := dropExpired now g
  evict oldest live.entries.length live

def capPieces (pieces : List (Piece UInt8)) : List (Piece UInt8) :=
  pieces.drop (pieces.length - 64)

def CryptoReasmEntry.push (e : CryptoReasmEntry) (now : ℕ) (pieces : List (Piece UInt8)) :
    CryptoReasmEntry :=
  let kept := capPieces (e.pieces ++ pieces)
  let stream := assembleCrypto kept
  { pieces := kept
    lastSeen := now
    bestStream := if e.bestStream.length < stream.length then stream else e.bestStream }

def newEntry (now : ℕ) : CryptoReasmEntry := ⟨[], now, []⟩

def reasmPushCrypto (oldest : Oldest) (now : ℕ) (g : CryptoReasm) (dcidHex : String)
    (pieces : List (Piece UInt8)) : CryptoReasm × List UInt8 :=
  if dcidHex = "" ∨ pieces = [] then (g, assembleCrypto pieces)
  else
    let g := swept oldest now g
    let e := ((g.get? dcidHex).getD (newEntry now)).push now pieces
    (g.insert dcidHex e, e.bestStream)

/-! ## Datagrams -/

def cryptoData (plaintext : List UInt8) : List UInt8 :=
  let data := assembleCrypto (extractCryptoPieces plaintext)
  if data = [] then (findClientHelloInBytes plaintext).getD [] else data

def pushedPieces (plaintext : List UInt8) : List (Piece UInt8) :=
  if extractCryptoPieces plaintext ≠ [] then extractCryptoPieces plaintext
  else if cryptoData plaintext ≠ [] then [(0, cryptoData plaintext)]
  else []

/-- A datagram on its way through `enrich_quic_with_aead`. -/
structure Datagram where
  bestCrypto : List UInt8
  bestPn : Option ℕ
  /-- The ids of its packets so far. -/
  dcids : List String
  /-- All that had come for the id of the last packet that gave pieces. -/
  behind : List (Piece UInt8)

def emptyDatagram : Datagram := ⟨[], none, [], []⟩

structure TlsReport where
  tlsJa3 : String
  tlsJa3Hash : String
  tlsJa4 : String
  sni : Option String

def applyClientHelloToInfo (D : Digests) (crypto : List UInt8) : Option TlsReport :=
  (tryParseTlsClientHelloFull crypto).map fun hello =>
    { tlsJa3 := buildJa3String hello
      tlsJa3Hash := ja3Hash D hello
      tlsJa4 := buildJa4 captureVersions D hello
      sni := hello.sni }

structure World where
  reasm : CryptoReasm
  /-- The datagram a thread is at. -/
  datagram : ℕ → Datagram
  /-- All pieces that came for a connection id. -/
  arrived : String → List (Piece UInt8)
  /-- What the last push for it returned. -/
  returned : String → List UInt8
  /-- What the last datagram with a packet of it reported. -/
  report : String → Option TlsReport

/-- A thread begins a datagram, goes through its decrypted Initials one by one
and parses the longest stream. -/
inductive Event where
  | datagram (t : ℕ)
  | packet (t : ℕ) (pn : ℕ) (dcidHex : String) (plaintext : List UInt8) (now : ℕ)
      (oldest : Oldest)
  | finish (t : ℕ)

def longer (best crypto : List UInt8) : List UInt8 :=
  if best.length < crypto.length then crypto else best

/-- The packet's own stream replaces a shorter one; the first packet's any. -/
def Datagram.see (d : Datagram) (pn : ℕ) (crypto : List UInt8) : Datagram :=
  if d.bestPn = none ∨ d.bestCrypto.length < crypto.length then
    { d with bestCrypto := if crypto = [] then d.bestCrypto else crypto, bestPn := some pn }
  else d

def packet (s : World) (t pn : ℕ) (dcidHex : String) (plaintext : List UInt8) (now : ℕ)
    (oldest : Oldest) : World :=
  let d := (s.datagram t).see pn (cryptoData plaintext)
  let d := { d with dcids := d.dcids ++ [dcidHex] }
  let pieces := pushedPieces plaintext
  if pieces = [] then { s with datagram := Function.update s.datagram t d }
  else
    let pushed := reasmPushCrypto oldest now s.reasm dcidHex pieces
    let came := s.arrived dcidHex ++ pieces
    { s with
      reasm := pushed.1
      datagram := Function.update s.datagram t
        { d with bestCrypto := longer d.bestCrypto pushed.2, behind := came }
      arrived := Function.update s.arrived dcidHex came
      returned := Function.update s.returned dcidHex pushed.2 }

def finish (D : Digests) (s : World) (t : ℕ) : World :=
  let d := s.datagram t
  { s with
    report := fun c =>
      if c ∈ d.dcids then
        if d.bestCrypto = [] then none else applyClientHelloToInfo D d.bestCrypto
      else s.report c }

def step (D : Digests) (s : World) : Event → World
  | .datagram t => { s with datagram := Function.update s.datagram t emptyDatagram }
  | .packet t pn dcidHex plaintext now oldest => packet s t pn dcidHex plaintext now oldest
  | .finish t => finish D s t

def start : World where
  reasm := SortedMap.empty
  datagram := fun _ => emptyDatagram
  arrived := fun _ => []
  returned := fun _ => []
  report := fun _ => none

end QuicCapture

end GrServer
