import GrServer.Text
import GrServer.WireBytes

/-!
# The ClientHello parsers and the JA4 builders

Two crates parse the ClientHello and build its fingerprints: one behind the
gateway's TLS records, one behind the CRYPTO frames of QUIC.  They read the
hello alike, but for the list of application protocols, and they number the
protocol versions by tables of their own.
-/

namespace GrServer

namespace TlsHello

open WireBytes Text

def isGreaseU16 (v : UInt16) : Bool :=
  let hi := v >>> 8
  let lo := v &&& 0xff
  hi == lo && hi &&& 0x0f == 0x0a

/-- `ClientHelloParts` of either crate, and `TlsHelloFull`. -/
structure ClientHelloParts where
  legacyVersion : UInt16
  ciphers : List UInt16
  extensions : List UInt16 := []
  supportedGroups : List UInt16 := []
  ecPointFormats : List UInt8 := []
  supportedVersions : List UInt16 := []
  signatureAlgorithms : List UInt16 := []
  alpn : List String := []
  sni : Option String := none

/-! ## Extensions -/

def fromUtf8 (bytes : List UInt8) : Option String := String.fromUTF8? ⟨bytes.toArray⟩

def parseSupportedGroups (data : List UInt8) : List UInt16 :=
  if data.length < 2 then []
  else
    let rest := data.drop 2
    u16List (rest.take (min (u16At data 0).toNat rest.length))

def parseSignatureAlgorithms (data : List UInt8) : List UInt16 := parseSupportedGroups data

def parseEcPointFormats (data : List UInt8) : List UInt8 :=
  slice data 1 (min (byteAt data 0) (data.length - 1))

def parseSupportedVersions (data : List UInt8) : List UInt16 :=
  if data = [] then []
  else
    let rest := data.drop 1
    u16List (rest.take (min (byteAt data 0) rest.length))

def parseSni (data : List UInt8) : Option String :=
  if data.length < 5 ∨ byteAt data 2 ≠ 0 then none
  else
    let nameLen := (u16At data 3).toNat
    if data.length < 5 + nameLen then none else fromUtf8 (slice data 5 nameLen)

/-- The gateway's list ends where it is declared to end. -/
def parseAlpn (data : List UInt8) : List String :=
  if data.length < 2 then []
  else
    let stop := min (2 + (u16At data 0).toNat) data.length
    (strings data stop 2).filterMap fromUtf8

/-- The list in `try_parse_tls_client_hello_full` ends with the extension. -/
def alpnOfExtension (data : List UInt8) : List String :=
  (strings data data.length 2).filterMap fromUtf8

def readExtension (p : ClientHelloParts) (et : UInt16) (data : List UInt8) : ClientHelloParts :=
  let p := { p with extensions := p.extensions ++ [et] }
  if et = 0 then { p with sni := parseSni data }
  else if et = 10 then { p with supportedGroups := parseSupportedGroups data }
  else if et = 11 then { p with ecPointFormats := parseEcPointFormats data }
  else if et = 13 then { p with signatureAlgorithms := parseSignatureAlgorithms data }
  else if et = 43 then { p with supportedVersions := parseSupportedVersions data }
  else p

/-- A later list of the gateway's replaces an earlier one. -/
def gatewayExtension (p : ClientHelloParts) (et : UInt16) (data : List UInt8) :
    ClientHelloParts :=
  let p := readExtension p et data
  if et = 16 then { p with alpn := parseAlpn data } else p

/-- Behind QUIC all lists are collected. -/
def captureExtension (p : ClientHelloParts) (et : UInt16) (data : List UInt8) :
    ClientHelloParts :=
  let p := readExtension p et data
  if et = 16 then { p with alpn := p.alpn ++ alpnOfExtension data } else p

/-! ## The hello -/

def ciphersAt (ch : List UInt8) : ℕ := 35 + byteAt ch 34

def compressionAt (ch : List UInt8) : ℕ :=
  ciphersAt ch + 2 + (u16At ch (ciphersAt ch)).toNat

def extensionsAt (ch : List UInt8) : ℕ :=
  compressionAt ch + 1 + byteAt ch (compressionAt ch)

def extensionsEnd (ch : List UInt8) : ℕ :=
  min (extensionsAt ch + 2 + (u16At ch (extensionsAt ch)).toNat) ch.length

/-- `parse_client_hello_body`, and the same reading in
`try_parse_tls_client_hello_full`.  The length of the compression methods has
to be there, the methods themselves have not. -/
def readHello (step : ClientHelloParts → UInt16 → List UInt8 → ClientHelloParts)
    (ch : List UInt8) : Option ClientHelloParts :=
  if ch.length ≤ 34 ∨ ch.length < ciphersAt ch + 2 ∨ ch.length ≤ compressionAt ch then none
  else
    let parts : ClientHelloParts :=
      { legacyVersion := u16At ch 0
        ciphers := u16List (slice ch (ciphersAt ch + 2) (u16At ch (ciphersAt ch)).toNat) }
    if ch.length < extensionsAt ch + 2 then some parts
    else some (walk step ch (extensionsEnd ch) (extensionsAt ch + 2) parts)

/-- The gateway's parser: a TLS record, or the handshake message itself. -/
def parseClientHello (buf : List UInt8) : Option ClientHelloParts :=
  if buf.length < 6 then none
  else
    let body :=
      if byteAt buf 0 = 0x16 then
        let recLen := (u16At buf 3).toNat
        if buf.length < 5 + recLen then buf.drop 5 else slice buf 5 recLen
      else buf
    if body.length < 4 ∨ byteAt body 0 ≠ 0x01 then none
    else readHello gatewayExtension (slice body 4 (min (u24At body 1) (body.length - 4)))

def plausibleHello (p : List UInt8) (idx : ℕ) : Bool :=
  let hsLen := u24At p (idx + 1)
  byteAt p idx == 0x01 && decide (38 ≤ hsLen) && decide (hsLen < 16 * 1024) &&
    decide (idx + 4 + min hsLen 38 ≤ p.length) && decide (idx + 6 ≤ p.length) &&
    [0x0303, 0x0301, 0x0302].contains (u16At p (idx + 4))

def findClientHello (p : List UInt8) : Option ℕ :=
  (List.range (p.length - 4)).find? (plausibleHello p)

def afterRecordHeader (crypto : List UInt8) : List UInt8 :=
  if byteAt crypto 0 = 0x16 ∧ 5 < crypto.length then crypto.drop 5 else crypto

/-- The parser behind QUIC does not look at the declared length. -/
def tryParseTlsClientHelloFull (crypto : List UInt8) : Option ClientHelloParts :=
  if crypto.length < 4 then none
  else
    let p := afterRecordHeader crypto
    let found :=
      if p = [] ∨ byteAt p 0 ≠ 0x01 then (findClientHello p).map p.drop else some p
    found.bind fun p => if p.length < 38 then none else readHello captureExtension (p.drop 4)

def extractExtPayloadsFromCrypto (crypto : List UInt8) : List Record :=
  let p := afterRecordHeader crypto
  if p.length < 42 ∨ byteAt p 0 ≠ 0x01 then []
  else
    let body := p.drop 4
    if body.length < 38 ∨ body.length < ciphersAt body + 2 ∨
        body.length ≤ compressionAt body ∨ body.length < extensionsAt body + 2 then []
    else
      walk (fun out et data => out ++ [(et, data)]) body (extensionsEnd body)
        (extensionsAt body + 2) []

/-! ## Fingerprints -/

structure Digests where
  sha256 : List UInt8 → List UInt8
  md5 : List UInt8 → List UInt8

def digits (base width n : ℕ) : String :=
  let ds := Nat.toDigits base n
  String.ofList (List.replicate (width - ds.length) '0' ++ ds)

def hexEncode (bytes : List UInt8) : String :=
  String.join (bytes.map fun b => digits 16 2 b.toNat)

def sha25612 (D : Digests) (s : String) : String :=
  String.ofList ((hexEncode (D.sha256 (asBytes s))).toList.take 12)

def joinU16Dash (vs : List UInt16) : String :=
  "-".intercalate (vs.map fun v => digits 10 1 v.toNat)

def nonGrease (vs : List UInt16) : List UInt16 := vs.filter fun v => !isGreaseU16 v

def buildJa3String (p : ClientHelloParts) : String :=
  ",".intercalate
    [digits 10 1 p.legacyVersion.toNat, joinU16Dash (nonGrease p.ciphers),
      joinU16Dash (nonGrease p.extensions), joinU16Dash (nonGrease p.supportedGroups),
      "-".intercalate (p.ecPointFormats.map fun b => digits 10 1 b.toNat)]

def ja3Hash (D : Digests) (p : ClientHelloParts) : String :=
  hexEncode (D.md5 (asBytes (buildJa3String p)))

def bestVersion (p : ClientHelloParts) : UInt16 :=
  (nonGrease p.supportedVersions).max?.getD p.legacyVersion

def gatewayVersions : List (UInt16 × String) :=
  [(0x0304, "13"), (0x0303, "12"), (0x0302, "11"), (0x0301, "10"), (0x0300, "s3")]

def captureVersions : List (UInt16 × String) :=
  [(0x0304, "13"), (0x0303, "12"), (0x0302, "11"), (0x0301, "10"), (0x0300, "s3"),
    (0x0002, "s2"), (0xfeff, "d1"), (0xfefd, "d2"), (0xfefc, "d3")]

def ja4VersionCode (codes : List (UInt16 × String)) (p : ClientHelloParts) : String :=
  (codes.lookup (bestVersion p)).getD "00"

def isAsciiAlphanumeric (b : UInt8) : Bool :=
  (0x30 ≤ b && b ≤ 0x39) || (0x41 ≤ b && b ≤ 0x5a) || (0x61 ≤ b && b ≤ 0x7a)

def ja4AlpnChars (first : Option String) : String :=
  match first.map asBytes with
  | some (b :: rest) =>
      let last := (b :: rest).getLast (List.cons_ne_nil b rest)
      if isAsciiAlphanumeric b && isAsciiAlphanumeric last then
        String.ofList [Char.ofNat b.toNat, Char.ofNat last.toNat]
      else digits 16 1 b.toNat ++ digits 16 1 last.toNat
  | _ => "00"

def formatCount (n : ℕ) : String := if 99 < n then "99" else digits 10 2 n

def sortedHex (vs : List UInt16) : List String :=
  (vs.map fun v => digits 16 4 v.toNat).mergeSort fun a b => decide (a ≤ b)

def ja4Tail (D : Digests) (p : ClientHelloParts) : String :=
  let sniC := if p.sni.isSome || p.extensions.contains 0 then "d" else "i"
  let ciphers := nonGrease p.ciphers
  let exts := nonGrease p.extensions
  let cipherHex := sortedHex ciphers
  let extHex := sortedHex (exts.filter fun e => e != 0x0000 && e != 0x0010)
  let sigHex := (nonGrease p.signatureAlgorithms).map fun v => digits 16 4 v.toNat
  let b := if cipherHex = [] then "000000000000" else sha25612 D (",".intercalate cipherHex)
  let cRaw := ",".intercalate extHex ++ (if sigHex = [] then "" else "_" ++ ",".intercalate sigHex)
  let c := if extHex = [] then "000000000000" else sha25612 D cRaw
  sniC ++ formatCount ciphers.length ++ formatCount exts.length ++
    ja4AlpnChars p.alpn.head? ++ "_" ++ b ++ "_" ++ c

/-- `build_ja4` by a table of version codes; the transport is `t` in both. -/
def buildJa4 (codes : List (UInt16 × String)) (D : Digests) (p : ClientHelloParts) : String :=
  "t" ++ ja4VersionCode codes p ++ ja4Tail D p

end TlsHello

end GrServer
