import GrServer.EdgeFingerprint
import GrServer.IpDisplay
import GrServer.TlsHello

/-!
# PROXY headers

`try_parse` reads a header in front of a stream: a line of text in version 1, a
signature with a block of addresses in version 2.  A whole header is taken off
exactly, and the beginning of one is not taken for a header.  Of what else it
takes, the addresses of version 1 are not looked at.
-/

namespace GrServer

open Text WireBytes

namespace ProxyProtocol

structure ProxyProtocolInfo where
  version : ℕ
  command : String := ""
  family : String := ""
  transport : String := ""
  srcIp : Option String := none
  srcPort : Option ℕ := none
  dstIp : Option String := none
  dstPort : Option ℕ := none
  rawHeaderHex : Option String := none
  rawHeaderLen : ℕ
  parseOk : Bool := false
  notes : List String := []
  deriving DecidableEq

/-! ## Parsing -/

def crlfAt : List UInt8 → Option ℕ
  | [] => none
  | b :: rest => if b = 13 ∧ rest.head? = some 10 then some 0 else (crlfAt rest).map (· + 1)

def splitWhitespace (line : Text) : List Text :=
  (line.splitOnP isWhitespace).filter fun part => decide (part ≠ [])

def parsePort (part : Text) : Option ℕ := EdgeFingerprint.parseUnsigned 16 (String.ofList part)

def proxyWord : Text := ['P', 'R', 'O', 'X', 'Y']

def unknownWord : Text := ['U', 'N', 'K', 'N', 'O', 'W', 'N']

def readV1 (info : ProxyProtocolInfo) : List Text → ProxyProtocolInfo
  | command :: fam :: fields =>
      if command ≠ proxyWord then { info with notes := ["invalid v1 line"] }
      else
        let info := { info with command := "PROXY", family := String.ofList fam }
        if fam = unknownWord then { info with parseOk := true, notes := ["v1 UNKNOWN"] }
        else
          match fields with
          | src :: dst :: srcPort :: dstPort :: _ =>
              let info := { info with
                transport := if "TCP".toList.isPrefixOf fam then "stream" else "unknown"
                srcIp := some (String.ofList src)
                dstIp := some (String.ofList dst)
                srcPort := parsePort srcPort
                dstPort := parsePort dstPort }
              { info with parseOk := info.srcIp.isSome && info.srcPort.isSome }
          | _ => { info with notes := ["v1 missing fields"] }
  | _ => { info with notes := ["invalid v1 line"] }

def hexHead (buf : List UInt8) (n : ℕ) : Option String :=
  some (TlsHello.hexEncode (buf.take (min n 256)))

def parseV1 (buf : List UInt8) : Option (ProxyProtocolInfo × ℕ) :=
  match crlfAt buf with
  | none => none
  | some stop =>
      match TlsHello.fromUtf8 (buf.take stop) with
      | none => none
      | some line =>
          let consumed := stop + 2
          let info : ProxyProtocolInfo :=
            { version := 1, rawHeaderLen := consumed, rawHeaderHex := hexHead buf consumed }
          some (readV1 info (splitWhitespace line.toList), consumed)

def sig : List UInt8 := [13, 10, 13, 10, 0, 13, 10, 81, 85, 73, 84, 10]

def commandName (cmd : ℕ) : String :=
  if cmd = 0 then "LOCAL" else if cmd = 1 then "PROXY" else "cmd_" ++ cmd.repr

def familyName (family : ℕ) : String :=
  if family = 0 then "UNSPEC" else if family = 1 then "INET" else if family = 2 then "INET6"
  else if family = 3 then "UNIX" else "fam_" ++ family.repr

def transportName (proto : ℕ) : String :=
  if proto = 0 then "UNSPEC" else if proto = 1 then "STREAM" else if proto = 2 then "DGRAM"
  else "proto_" ++ proto.repr

def ipv4Text (octets : List UInt8) : String :=
  String.ofList (IpAddr.display (.v4 (BitVec.ofNat 32 (IpAddr.valueOf octets))))

def ipv6Text (octets : List UInt8) : String :=
  String.ofList (IpAddr.display (.v6 (BitVec.ofNat 128 (IpAddr.valueOf octets))))

def readV2 (info : ProxyProtocolInfo) (cmd family : ℕ) (addr : List UInt8) : ProxyProtocolInfo :=
  if family = 1 ∧ 12 ≤ addr.length then
    { info with
      srcIp := some (ipv4Text (slice addr 0 4))
      dstIp := some (ipv4Text (slice addr 4 4))
      srcPort := some (u16At addr 8).toNat
      dstPort := some (u16At addr 10).toNat
      parseOk := true }
  else if family = 2 ∧ 36 ≤ addr.length then
    { info with
      srcIp := some (ipv6Text (slice addr 0 16))
      dstIp := some (ipv6Text (slice addr 16 16))
      srcPort := some (u16At addr 32).toNat
      dstPort := some (u16At addr 34).toNat
      parseOk := true }
  else if family = 0 then { info with parseOk := true, notes := ["v2 LOCAL/UNSPEC"] }
  else
    { info with
      notes := ["v2 unparsed family=" ++ family.repr ++ " len=" ++ addr.length.repr]
      parseOk := cmd == 0 }

def parseV2 (buf : List UInt8) : Option (ProxyProtocolInfo × ℕ) :=
  if buf.length < 16 then none
  else
    let verCmd := byteAt buf 12
    let cmd := verCmd % 16
    let family := byteAt buf 13 / 16
    let total := 16 + (u16At buf 14).toNat
    if buf.length < total then none
    else
      let info : ProxyProtocolInfo := {
        version := verCmd / 16
        command := commandName cmd
        family := familyName family
        transport := transportName (byteAt buf 13 % 16)
        rawHeaderLen := total
        rawHeaderHex := hexHead buf total }
      some (readV2 info cmd family (slice buf 16 (total - 16)), total)

def tryParse (buf : List UInt8) : Option (ProxyProtocolInfo × ℕ) :=
  if (asBytes "PROXY ").isPrefixOf buf then parseV1 buf
  else if 16 ≤ buf.length ∧ sig.isPrefixOf buf then parseV2 buf
  else none

/-! ## Headers -/

/-- A header as its sender means it; the parts of a line stand one blank apart. -/
inductive Header where
  | unknown (tail : Text)
  | tcp4 (src dst : Text) (srcPort dstPort : UInt16)
  | tcp6 (src dst : Text) (srcPort dstPort : UInt16)
  | v2 (proxied : Bool) (famProto : UInt8) (block : List UInt8)

namespace Header

def tcpLine (fam src dst : Text) (srcPort dstPort : UInt16) : Text :=
  proxyWord ++ ' ' :: (fam ++ ' ' :: (src ++ ' ' :: (dst ++
    ' ' :: (srcPort.toNat.repr.toList ++ ' ' :: dstPort.toNat.repr.toList))))

def lineBytes (line : Text) : List UInt8 := asBytes (String.ofList line) ++ [13, 10]

def bytes : Header → List UInt8
  | unknown tail => lineBytes (proxyWord ++ ' ' :: (unknownWord ++ tail))
  | tcp4 src dst srcPort dstPort => lineBytes (tcpLine "TCP4".toList src dst srcPort dstPort)
  | tcp6 src dst srcPort dstPort => lineBytes (tcpLine "TCP6".toList src dst srcPort dstPort)
  | v2 proxied famProto block =>
      sig ++ [if proxied then 0x21 else 0x20, famProto] ++
        beBytes (UInt16.ofNat block.length) ++ block

def blockSize (famProto : UInt8) : ℕ :=
  if famProto.toNat / 16 = 1 then 12 else if famProto.toNat / 16 = 2 then 36
  else if famProto.toNat / 16 = 3 then 216 else 0

/-- What a receiver has to understand: behind `UNKNOWN` anything but the end of the
line, address texts of their family, and known families with a whole block. -/
def Valid : Header → Prop
  | unknown tail =>
      (tail = [] ∨ tail.head? = some ' ') ∧ ¬[13, 10] <:+: asBytes (String.ofList tail)
  | tcp4 src dst _ _ =>
      (∃ value, IpAddr.parse src = some (.v4 value)) ∧ ∃ value, IpAddr.parse dst = some (.v4 value)
  | tcp6 src dst _ _ =>
      (∃ value, IpAddr.parse src = some (.v6 value)) ∧ ∃ value, IpAddr.parse dst = some (.v6 value)
  | v2 _ famProto block =>
      famProto ∈ [0x00, 0x11, 0x12, 0x21, 0x22, 0x31, 0x32] ∧
        blockSize famProto ≤ block.length ∧ block.length < 2 ^ 16

def command : Header → String
  | v2 false _ _ => "LOCAL"
  | _ => "PROXY"

structure Addresses where
  srcIp : String
  dstIp : String
  srcPort : ℕ
  dstPort : ℕ

def addresses : Header → Option Addresses
  | unknown _ => none
  | tcp4 src dst srcPort dstPort =>
      some ⟨String.ofList src, String.ofList dst, srcPort.toNat, dstPort.toNat⟩
  | tcp6 src dst srcPort dstPort =>
      some ⟨String.ofList src, String.ofList dst, srcPort.toNat, dstPort.toNat⟩
  | v2 _ famProto block =>
      if famProto.toNat / 16 = 1 then
        some ⟨ipv4Text (slice block 0 4), ipv4Text (slice block 4 4), (u16At block 8).toNat,
          (u16At block 10).toNat⟩
      else if famProto.toNat / 16 = 2 then
        some ⟨ipv6Text (slice block 0 16), ipv6Text (slice block 16 16), (u16At block 32).toNat,
          (u16At block 34).toNat⟩
      else none

end Header

/-! ## The end of a line -/

section Lines

variable {l p : List UInt8}

theorem crlfAt_eq_none_iff : crlfAt l = none ↔ ¬[13, 10] <:+: l := by
  induction l with
  | nil => simp [crlfAt]
  | cons b rest ih =>
      have hhere : (b = 13 ∧ rest.head? = some 10) ↔ [13, 10] <+: b :: rest := by
        cases rest with
        | nil => simp
        | cons c rest =>
            rw [List.cons_prefix_cons, List.cons_prefix_cons, List.head?_cons, Option.some.injEq]
            constructor
            · rintro ⟨rfl, rfl⟩
              exact ⟨rfl, rfl, List.nil_prefix⟩
            · rintro ⟨rfl, rfl, -⟩
              exact ⟨rfl, rfl⟩
      rw [crlfAt, List.infix_cons_iff, ← hhere]
      by_cases hb : b = 13 ∧ rest.head? = some 10
      · simp [hb]
      · rw [if_neg hb, Option.map_eq_none_iff, ih]
        simp [hb]

theorem crlfAt_line (h : crlfAt l = none) (d : List UInt8) :
    crlfAt (l ++ 13 :: 10 :: d) = some l.length := by
  induction l with
  | nil => rfl
  | cons b rest ih =>
      rw [crlfAt] at h
      by_cases hb : b = 13 ∧ rest.head? = some 10
      · rw [if_pos hb] at h
        cases h
      · rw [if_neg hb, Option.map_eq_none_iff] at h
        have hnext : ¬(b = 13 ∧ (rest ++ 13 :: 10 :: d).head? = some 10) := by
          rintro ⟨hcr, hlf⟩
          cases rest with
          | nil => exact absurd hlf (by simp)
          | cons c rest => exact hb ⟨hcr, hlf⟩
        rw [List.cons_append, crlfAt, if_neg hnext, ih h]
        rfl

theorem crlfAt_prefix (h : crlfAt l = none) (hp : p <+: l) : crlfAt p = none := by
  rw [crlfAt_eq_none_iff] at h ⊢
  intro hin
  exact h (hin.trans hp.isInfix)

theorem crlfAt_concat (h : crlfAt l = none) : crlfAt (l ++ [13]) = none := by
  rw [crlfAt_eq_none_iff] at h ⊢
  rintro ⟨front, back, heq⟩
  rcases List.eq_nil_or_concat back with rfl | ⟨back, last, rfl⟩
  · have hlast := congrArg List.getLast? heq
    simp at hlast
  · rw [List.concat_eq_append, ← List.append_assoc] at heq
    exact h ⟨front, back, (List.append_inj' heq rfl).1⟩

theorem crlfAt_strict (h : crlfAt l = none) (hp : p <+: l ++ [13, 10]) (hne : p ≠ l ++ [13, 10]) :
    crlfAt p = none := by
  have hsplit : l ++ [13, 10] = (l ++ [13]) ++ [10] := by simp
  rw [hsplit] at hp hne
  rcases List.prefix_concat_iff.mp hp with heq | hp
  · exact absurd heq hne
  · exact crlfAt_prefix (crlfAt_concat h) hp

theorem crlfAt_append (h : 13 ∉ l) (r : List UInt8) :
    crlfAt (l ++ r) = (crlfAt r).map (· + l.length) := by
  induction l with
  | nil => simp
  | cons b rest ih =>
      rw [List.mem_cons, not_or] at h
      rw [List.cons_append, crlfAt, if_neg (fun hb => h.1 hb.1.symm), ih h.2, Option.map_map]
      rfl

theorem crlfAt_of_not_mem (h : 13 ∉ l) : crlfAt l = none := by
  have hend := crlfAt_append h []
  rw [List.append_nil] at hend
  exact hend

end Lines

section Words

variable {t word rest : Text}

theorem asBytes_ofList_append (s t : Text) :
    asBytes (String.ofList (s ++ t)) = asBytes (String.ofList s) ++ asBytes (String.ofList t) := by
  rw [String.ofList_append, asBytes_append]

theorem cr_not_mem (h : '\r' ∉ t) : 13 ∉ asBytes (String.ofList t) := by
  intro hbyte
  have hchar := mem_of_mem_asBytes (by decide) hbyte
  rw [String.toList_ofList] at hchar
  exact h hchar

structure Word (word : Text) : Prop where
  ne : word ≠ []
  blank : ∀ c ∈ word, isWhitespace c = false

theorem Word.cr_not_mem (h : Word word) : '\r' ∉ word := by
  intro hmem
  exact absurd (h.blank _ hmem) (by decide)

theorem Word.splitOnP (h : Word word) : word.splitOnP isWhitespace = [word] :=
  List.splitOnP_eq_singleton h.blank

theorem splitWhitespace_word (h : Word word) : splitWhitespace word = [word] := by
  unfold splitWhitespace
  rw [h.splitOnP]
  simp [h.ne]

theorem splitWhitespace_cons (h : Word word) (rest : Text) :
    splitWhitespace (word ++ ' ' :: rest) = word :: splitWhitespace rest := by
  unfold splitWhitespace
  rw [List.splitOnP_append_cons_of_forall_mem h.blank ' ' (by decide)]
  simp [h.ne]

theorem word_address {a : IpAddr} (h : IpAddr.parse word = some a) : Word word := by
  constructor
  · rintro rfl
    cases h
  · intro c hc
    exact (IpAddr.addressChar_not_special (IpAddr.parse_chars h c hc)).1

theorem word_number (n : ℕ) : Word n.repr.toList := by
  constructor
  · rw [Nat.toList_repr]
    exact Nat.toDigits_ne_nil
  · intro c hc
    exact IpAddr.digit_not_space (isDigit_of_mem_repr_nat hc)

theorem word_proxy : Word proxyWord := ⟨by decide, by simp [proxyWord, isWhitespace]⟩

theorem word_unknown : Word unknownWord := ⟨by decide, by simp [unknownWord, isWhitespace]⟩

theorem parsePort_repr {n : ℕ} (hn : n < 2 ^ 16) : parsePort n.repr.toList = some n := by
  rcases @IpAddr.readDigits_toDigits 10 (by decide) (by decide) n with
    ⟨ds, hread, hvalue, hlen, -⟩
  have hplus : IpAddr.readChar '+' (Nat.toDigits 10 n) = none := by
    cases hdigits : Nat.toDigits 10 n with
    | nil => rfl
    | cons c cs =>
        have hc : c ∈ Nat.toDigits 10 n := by
          rw [hdigits]
          exact List.mem_cons_self
        have hdigit := Nat.isDigit_of_mem_toDigits (by omega) (by omega) hc
        rw [IpAddr.readChar, if_neg]
        rintro rfl
        exact absurd hdigit (by decide)
  have hne : ds ≠ [] := by
    rintro rfl
    exact absurd hlen.symm Nat.length_toDigits_pos.ne'
  unfold parsePort EdgeFingerprint.parseUnsigned
  rw [String.toList_ofList, Nat.toList_repr, hplus, Option.getD_none, hread]
  dsimp only
  rw [hvalue, if_pos ⟨hne, rfl, hn⟩]

end Words

/-! ## Version 1 -/

section Version1

variable {line : Text} {d p : List UInt8}

structure Line (line : Text) : Prop where
  start : ∃ rest, line = proxyWord ++ ' ' :: rest
  whole : crlfAt (asBytes (String.ofList line)) = none

theorem Line.bytes (h : Line line) :
    ∃ rest, asBytes (String.ofList line) = 80 :: 82 :: 79 :: 88 :: 89 :: 32 :: rest := by
  rcases h.start with ⟨rest, rfl⟩
  have hword : asBytes (String.ofList (proxyWord ++ [' '])) = [80, 82, 79, 88, 89, 32] := by
    decide
  refine ⟨asBytes (String.ofList rest), ?_⟩
  rw [← List.singleton_append, ← List.append_assoc, asBytes_ofList_append, hword]
  rfl

theorem asBytes_proxy : asBytes "PROXY " = [80, 82, 79, 88, 89, 32] := by decide

theorem Line.tryParse (h : Line line) (d : List UInt8) :
    tryParse (Header.lineBytes line ++ d) = some (readV1 {
      version := 1
      rawHeaderLen := (Header.lineBytes line).length
      rawHeaderHex := hexHead (Header.lineBytes line ++ d) (Header.lineBytes line).length }
        (splitWhitespace line), (Header.lineBytes line).length) := by
  rcases h.bytes with ⟨rest, hrest⟩
  have hbytes : Header.lineBytes line ++ d =
      asBytes (String.ofList line) ++ 13 :: 10 :: d := by
    unfold Header.lineBytes
    rw [List.append_assoc]
    rfl
  have hlength : (Header.lineBytes line).length = (asBytes (String.ofList line)).length + 2 := by
    unfold Header.lineBytes
    rw [List.length_append]
    rfl
  have hstarts : (asBytes "PROXY ").isPrefixOf (asBytes (String.ofList line) ++ 13 :: 10 :: d) =
      true := by
    rw [asBytes_proxy, hrest]
    rfl
  have htext : TlsHello.fromUtf8 (asBytes (String.ofList line)) = some (String.ofList line) :=
    fromUTF8?_asBytes _
  rw [hlength, hbytes]
  unfold ProxyProtocol.tryParse parseV1
  rw [if_pos hstarts, crlfAt_line h.whole d]
  dsimp only
  rw [List.take_left, htext]
  dsimp only
  rw [String.toList_ofList]

theorem Line.tryParse_strict (h : Line line) (hp : p <+: Header.lineBytes line)
    (hne : p ≠ Header.lineBytes line) : ProxyProtocol.tryParse p = none := by
  have hnone : crlfAt p = none := crlfAt_strict h.whole hp hne
  have hsig : ¬(16 ≤ p.length ∧ sig.isPrefixOf p = true) := by
    rintro ⟨-, hsig⟩
    rcases h.bytes with ⟨rest, hrest⟩
    have hin := (List.isPrefixOf_iff_prefix.mp hsig).trans hp
    unfold Header.lineBytes at hin
    rw [hrest] at hin
    exact absurd (List.cons_prefix_cons.mp hin).1 (by decide)
  unfold ProxyProtocol.tryParse parseV1
  rw [hnone, if_neg hsig]
  split_ifs <;> rfl

theorem tcpLine_words {fam src dst : Text} (hfam : Word fam) (hsrc : Word src) (hdst : Word dst)
    (srcPort dstPort : UInt16) : splitWhitespace (Header.tcpLine fam src dst srcPort dstPort) =
      [proxyWord, fam, src, dst, srcPort.toNat.repr.toList, dstPort.toNat.repr.toList] := by
  unfold Header.tcpLine
  rw [splitWhitespace_cons word_proxy, splitWhitespace_cons hfam, splitWhitespace_cons hsrc,
    splitWhitespace_cons hdst, splitWhitespace_cons (word_number _),
    splitWhitespace_word (word_number _)]

theorem line_tcp {fam src dst : Text} (hfam : Word fam) (hsrc : Word src) (hdst : Word dst)
    (srcPort dstPort : UInt16) : Line (Header.tcpLine fam src dst srcPort dstPort) := by
  constructor
  · exact ⟨_, rfl⟩
  · apply crlfAt_of_not_mem
    apply cr_not_mem
    have hnumber (n : ℕ) : '\r' ∉ Nat.toDigits 10 n := by
      rw [← Nat.toList_repr]
      exact (word_number n).cr_not_mem
    simp [Header.tcpLine, word_proxy.cr_not_mem, hfam.cr_not_mem, hsrc.cr_not_mem,
      hdst.cr_not_mem, hnumber]

theorem line_unknown {tail : Text} (h : ¬[13, 10] <:+: asBytes (String.ofList tail)) :
    Line (proxyWord ++ ' ' :: (unknownWord ++ tail)) := by
  constructor
  · exact ⟨_, rfl⟩
  · have hword : '\r' ∉ proxyWord ++ ' ' :: unknownWord := by decide
    have hsplit : proxyWord ++ ' ' :: (unknownWord ++ tail) =
        (proxyWord ++ ' ' :: unknownWord) ++ tail := by simp
    rw [hsplit, asBytes_ofList_append, crlfAt_append (cr_not_mem hword),
      crlfAt_eq_none_iff.mpr h]
    rfl

theorem unknown_words {tail : Text} (h : tail = [] ∨ tail.head? = some ' ') :
    ∃ fields, splitWhitespace (proxyWord ++ ' ' :: (unknownWord ++ tail)) =
      proxyWord :: unknownWord :: fields := by
  rw [splitWhitespace_cons word_proxy]
  cases tail with
  | nil =>
      rw [List.append_nil, splitWhitespace_word word_unknown]
      exact ⟨[], rfl⟩
  | cons c tail =>
      have hc : c = ' ' := by simpa using h
      rw [hc, splitWhitespace_cons word_unknown]
      exact ⟨_, rfl⟩

end Version1

section Version2

variable {proxied : Bool} {famProto : UInt8} {block d p : List UInt8}

theorem length_v2 : (Header.v2 proxied famProto block).bytes.length = 16 + block.length := by
  have hsig : sig.length = 12 := rfl
  unfold Header.bytes
  simp only [List.length_append, hsig, length_beBytes, List.length_cons, List.length_nil]

theorem fields_v2 (hblock : block.length < 2 ^ 16) (d : List UInt8) :
    byteAt ((Header.v2 proxied famProto block).bytes ++ d) 12 = (if proxied then 0x21 else 0x20) ∧
      byteAt ((Header.v2 proxied famProto block).bytes ++ d) 13 = famProto.toNat ∧
        (u16At ((Header.v2 proxied famProto block).bytes ++ d) 14).toNat = block.length ∧
          slice ((Header.v2 proxied famProto block).bytes ++ d) 16 block.length = block := by
  have hwhole : (Header.v2 proxied famProto block).bytes ++ d =
      (sig ++ [if proxied then 0x21 else 0x20, famProto] ++
        beBytes (UInt16.ofNat block.length)) ++ (block ++ d) := by
    unfold Header.bytes
    rw [List.append_assoc]
  refine ⟨?_, ?_, ?_, ?_⟩
  · rw [hwhole]
    cases proxied <;> rfl
  · rw [hwhole]
    rfl
  · have hfield : u16At ((Header.v2 proxied famProto block).bytes ++ d) 14 =
        UInt16.ofNat block.length := by
      rw [hwhole]
      exact ofNat_toNat_pair _
    rw [hfield, UInt16.toNat_ofNat', Nat.mod_eq_of_lt hblock]
  · rw [hwhole]
    unfold slice
    have hhead : (sig ++ [if proxied then 0x21 else 0x20, famProto] ++
        beBytes (UInt16.ofNat block.length)).length = 16 := rfl
    rw [List.drop_left' hhead, List.take_left]

theorem not_line_of_sig (h : sig <+: p) : ¬(asBytes "PROXY ").isPrefixOf p = true := by
  intro hline
  rw [asBytes_proxy] at hline
  rcases h with ⟨rest, rfl⟩
  cases hline

theorem tryParse_v2 (hblock : block.length < 2 ^ 16) (d : List UInt8) :
    ∃ info : ProxyProtocolInfo, info.command = commandName (if proxied then 1 else 0) ∧
      info.srcIp = none ∧ info.srcPort = none ∧ info.dstIp = none ∧ info.dstPort = none ∧
      tryParse ((Header.v2 proxied famProto block).bytes ++ d) =
        some (readV2 info (if proxied then 1 else 0) (famProto.toNat / 16) block,
          (Header.v2 proxied famProto block).bytes.length) := by
  rcases @fields_v2 proxied famProto block hblock d with ⟨hcmd, hfam, hlen, hslice⟩
  have hsig : sig <+: (Header.v2 proxied famProto block).bytes ++ d := by
    unfold Header.bytes
    simp only [List.append_assoc]
    exact List.prefix_append _ _
  have htotal : ((Header.v2 proxied famProto block).bytes ++ d).length =
      16 + block.length + d.length := by
    rw [List.length_append, length_v2]
  have hshort : ¬((Header.v2 proxied famProto block).bytes ++ d).length < 16 := by omega
  have hwhole : ¬((Header.v2 proxied famProto block).bytes ++ d).length < 16 + block.length := by
    omega
  have hguard : 16 ≤ ((Header.v2 proxied famProto block).bytes ++ d).length ∧
      sig.isPrefixOf ((Header.v2 proxied famProto block).bytes ++ d) = true :=
    ⟨by omega, List.isPrefixOf_iff_prefix.mpr hsig⟩
  have hmod : (if proxied then 0x21 else 0x20) % 16 = if proxied then 1 else 0 := by
    cases proxied <;> rfl
  unfold tryParse
  rw [if_neg (not_line_of_sig hsig), if_pos hguard]
  unfold parseV2
  rw [if_neg hshort]
  dsimp only
  rw [hlen, if_neg hwhole, hcmd, hfam, hmod, Nat.add_sub_cancel_left, hslice, length_v2]
  refine ⟨_, ?_, ?_, ?_, ?_, ?_, rfl⟩
  all_goals rfl

theorem tryParse_v2_strict (hblock : block.length < 2 ^ 16)
    (hp : p <+: (Header.v2 proxied famProto block).bytes)
    (hne : p ≠ (Header.v2 proxied famProto block).bytes) : tryParse p = none := by
  have hless : p.length < 16 + block.length := by
    rw [← @length_v2 proxied famProto block]
    exact lt_of_le_of_ne hp.length_le fun h => hne (hp.eq_of_length h)
  have hline : ¬(asBytes "PROXY ").isPrefixOf p = true := by
    rw [asBytes_proxy]
    intro hline
    have hin := (List.isPrefixOf_iff_prefix.mp hline).trans hp
    exact absurd (List.cons_prefix_cons.mp hin).1 (by decide)
  unfold tryParse
  rw [if_neg hline]
  by_cases hguard : 16 ≤ p.length ∧ sig.isPrefixOf p = true
  · have hlen : (u16At p 14).toNat = block.length := by
      rcases hp with ⟨rest, hrest⟩
      have hsame : u16At p 14 = u16At (p ++ rest) 14 := by
        have htake := @u16At_take 14 (p ++ rest) p.length (by omega)
        rwa [List.take_left] at htake
      have hfield := (@fields_v2 proxied famProto block hblock []).2.2.1
      rw [List.append_nil] at hfield
      rw [hsame, hrest, hfield]
    rw [if_pos hguard]
    unfold parseV2
    rw [if_neg (by omega)]
    dsimp only
    rw [hlen, if_pos hless]
  · rw [if_neg hguard]

end Version2

def Yields (info : ProxyProtocolInfo) (h : Header) : Prop :=
  info.command = h.command ∧ info.srcIp = h.addresses.map (·.srcIp) ∧
    info.dstIp = h.addresses.map (·.dstIp) ∧ info.srcPort = h.addresses.map (·.srcPort) ∧
      info.dstPort = h.addresses.map (·.dstPort)

theorem readV1_tcp (info : ProxyProtocolInfo) {fam : Text} (hfam : fam ≠ unknownWord)
    (src dst srcPort dstPort : Text) (rest : List Text) :
    let read := readV1 info (proxyWord :: fam :: src :: dst :: srcPort :: dstPort :: rest)
    read.command = "PROXY" ∧ read.family = String.ofList fam ∧
      read.srcIp = some (String.ofList src) ∧ read.dstIp = some (String.ofList dst) ∧
        read.srcPort = parsePort srcPort ∧ read.dstPort = parsePort dstPort ∧
          read.parseOk = (parsePort srcPort).isSome := by
  dsimp only
  rw [readV1, if_neg (not_not.mpr rfl)]
  dsimp only
  rw [if_neg hfam]
  exact ⟨rfl, rfl, rfl, rfl, rfl, rfl, rfl⟩

theorem tryParse_tcp {fam src dst : Text} (hfam : Word fam) (hknown : fam ≠ unknownWord)
    (hsrc : Word src) (hdst : Word dst) (srcPort dstPort : UInt16) (d : List UInt8) :
    ∃ info, tryParse (Header.lineBytes (Header.tcpLine fam src dst srcPort dstPort) ++ d) =
        some (info, (Header.lineBytes (Header.tcpLine fam src dst srcPort dstPort)).length) ∧
      info.command = "PROXY" ∧ info.srcIp = some (String.ofList src) ∧
        info.dstIp = some (String.ofList dst) ∧ info.srcPort = some srcPort.toNat ∧
          info.dstPort = some dstPort.toNat := by
  have hparse := (line_tcp hfam hsrc hdst srcPort dstPort).tryParse d
  rw [tcpLine_words hfam hsrc hdst] at hparse
  rcases readV1_tcp { version := 1
                      rawHeaderLen := (Header.lineBytes
                        (Header.tcpLine fam src dst srcPort dstPort)).length
                      rawHeaderHex := hexHead
                        (Header.lineBytes (Header.tcpLine fam src dst srcPort dstPort) ++ d)
                        (Header.lineBytes (Header.tcpLine fam src dst srcPort dstPort)).length }
    hknown src dst srcPort.toNat.repr.toList dstPort.toNat.repr.toList [] with
    ⟨hcommand, -, hsrcIp, hdstIp, hsrcPort, hdstPort, -⟩
  rw [parsePort_repr srcPort.toNat_lt] at hsrcPort
  rw [parsePort_repr dstPort.toNat_lt] at hdstPort
  exact ⟨_, hparse, hcommand, hsrcIp, hdstIp, hsrcPort, hdstPort⟩

theorem word_tcp4 : Word "TCP4".toList := ⟨by decide, by simp [isWhitespace]⟩

theorem word_tcp6 : Word "TCP6".toList := ⟨by decide, by simp [isWhitespace]⟩

theorem readV2_yields {info : ProxyProtocolInfo} {proxied : Bool} {famProto : UInt8}
    {block : List UInt8} (hsize : Header.blockSize famProto ≤ block.length)
    (hcommand : info.command = commandName (if proxied then 1 else 0))
    (hnone : info.srcIp = none ∧ info.srcPort = none ∧ info.dstIp = none ∧ info.dstPort = none) :
    Yields (readV2 info (if proxied then 1 else 0) (famProto.toNat / 16) block)
      (.v2 proxied famProto block) := by
  have hname : info.command = (Header.v2 proxied famProto block).command := by
    rw [hcommand]
    cases proxied <;> rfl
  unfold Header.blockSize at hsize
  unfold readV2 Yields
  rw [Header.addresses]
  by_cases hinet : famProto.toNat / 16 = 1
  · rw [if_pos hinet] at hsize
    rw [if_pos ⟨hinet, hsize⟩, if_pos hinet]
    exact ⟨hname, rfl, rfl, rfl, rfl⟩
  · by_cases hinet6 : famProto.toNat / 16 = 2
    · rw [if_neg hinet, if_pos hinet6] at hsize
      rw [if_neg (fun h => hinet h.1), if_pos ⟨hinet6, hsize⟩, if_neg hinet, if_pos hinet6]
      exact ⟨hname, rfl, rfl, rfl, rfl⟩
    · rw [if_neg (fun h => hinet h.1), if_neg (fun h => hinet6 h.1), if_neg hinet, if_neg hinet6]
      rcases hnone with ⟨hsrcIp, hsrcPort, hdstIp, hdstPort⟩
      by_cases hunspec : famProto.toNat / 16 = 0
      · rw [if_pos hunspec]
        exact ⟨hname, hsrcIp, hdstIp, hsrcPort, hdstPort⟩
      · rw [if_neg hunspec]
        exact ⟨hname, hsrcIp, hdstIp, hsrcPort, hdstPort⟩

theorem tryParse_header {h : Header} (hvalid : h.Valid) (d : List UInt8) :
    ∃ info, tryParse (h.bytes ++ d) = some (info, h.bytes.length) ∧ Yields info h := by
  cases h with
  | unknown tail =>
      rcases unknown_words hvalid.1 with ⟨fields, hwords⟩
      have hparse := (line_unknown hvalid.2).tryParse d
      rw [hwords] at hparse
      exact ⟨_, hparse, rfl, rfl, rfl, rfl, rfl⟩
  | tcp4 src dst srcPort dstPort =>
      rcases hvalid with ⟨⟨value, hsrc⟩, value', hdst⟩
      exact tryParse_tcp word_tcp4 (by decide) (word_address hsrc) (word_address hdst) srcPort
        dstPort d
  | tcp6 src dst srcPort dstPort =>
      rcases hvalid with ⟨⟨value, hsrc⟩, value', hdst⟩
      exact tryParse_tcp word_tcp6 (by decide) (word_address hsrc) (word_address hdst) srcPort
        dstPort d
  | v2 proxied famProto block =>
      rcases hvalid with ⟨-, hsize, hblock⟩
      rcases @tryParse_v2 proxied famProto block hblock d with
        ⟨info, hcommand, hsrcIp, hsrcPort, hdstIp, hdstPort, hparse⟩
      exact ⟨_, hparse, readV2_yields hsize hcommand ⟨hsrcIp, hsrcPort, hdstIp, hdstPort⟩⟩

theorem tryParse_strict {h : Header} (hvalid : h.Valid) {p : List UInt8} (hp : p <+: h.bytes)
    (hne : p ≠ h.bytes) : tryParse p = none := by
  cases h with
  | unknown tail => exact (line_unknown hvalid.2).tryParse_strict hp hne
  | tcp4 src dst srcPort dstPort =>
      rcases hvalid with ⟨⟨value, hsrc⟩, value', hdst⟩
      exact (line_tcp word_tcp4 (word_address hsrc) (word_address hdst) srcPort
        dstPort).tryParse_strict hp hne
  | tcp6 src dst srcPort dstPort =>
      rcases hvalid with ⟨⟨value, hsrc⟩, value', hdst⟩
      exact (line_tcp word_tcp6 (word_address hsrc) (word_address hdst) srcPort
        dstPort).tryParse_strict hp hne
  | v2 proxied famProto block => exact tryParse_v2_strict hvalid.2.2 hp hne

/-! ## The addresses of what is taken -/

def Named (family : String) : IpAddr → Prop
  | .v4 _ => family = "TCP4" ∨ family = "INET"
  | .v6 _ => family = "TCP6" ∨ family = "INET6"

def OfFamily (family ip : String) : Prop :=
  ∃ a, IpAddr.parse ip.toList = some a ∧ Named family a

/-- A header that parsed with a source address is a PROXY command, and the address is
one of its family. -/
def SourceExact (buf : List UInt8) : Prop :=
  ∀ info n ip, tryParse buf = some (info, n) → info.parseOk = true → info.srcIp = some ip →
    info.command = "PROXY" ∧ OfFamily info.family ip

structure LineParts (buf : List UInt8) (fam src srcPort : Text) : Prop where
  start : (asBytes "PROXY ").isPrefixOf buf = true
  parts : ∃ stop line dst dstPort rest, crlfAt buf = some stop ∧
    TlsHello.fromUtf8 (buf.take stop) = some line ∧ splitWhitespace line.toList =
      proxyWord :: fam :: src :: dst :: srcPort :: dstPort :: rest

structure Block (buf : List UInt8) : Prop where
  long : 16 ≤ buf.length
  start : sig.isPrefixOf buf = true
  whole : 16 + (u16At buf 14).toNat ≤ buf.length
  room : byteAt buf 13 / 16 = 1 ∧ 12 ≤ (u16At buf 14).toNat ∨
    byteAt buf 13 / 16 = 2 ∧ 36 ≤ (u16At buf 14).toNat

/-- In a line with a family and a port, the source is an address of the family; and a
block of addresses comes with the command PROXY. -/
structure Declared (buf : List UInt8) : Prop where
  line : ∀ fam src srcPort, LineParts buf fam src srcPort → fam ≠ unknownWord →
    (parsePort srcPort).isSome = true → OfFamily (String.ofList fam) (String.ofList src)
  block : Block buf → byteAt buf 12 % 16 = 1

theorem commandName_eq_proxy {cmd : ℕ} : commandName cmd = "PROXY" ↔ cmd = 1 := by
  unfold commandName
  constructor
  · intro h
    by_cases hzero : cmd = 0
    · rw [if_pos hzero] at h
      exact absurd h (by decide)
    · rw [if_neg hzero] at h
      by_cases hone : cmd = 1
      · exact hone
      · rw [if_neg hone] at h
        have hlist := congrArg String.toList h
        rw [String.toList_append] at hlist
        exact absurd (List.cons.inj hlist).1 (by decide)
  · rintro rfl
    rfl

theorem ofFamily_ipv4 (octets : List UInt8) : OfFamily "INET" (ipv4Text octets) := by
  refine ⟨.v4 (BitVec.ofNat 32 (IpAddr.valueOf octets)), ?_, Or.inr rfl⟩
  unfold ipv4Text
  rw [String.toList_ofList]
  exact IpAddr.parse_display _

theorem ofFamily_ipv6 (octets : List UInt8) : OfFamily "INET6" (ipv6Text octets) := by
  refine ⟨.v6 (BitVec.ofNat 128 (IpAddr.valueOf octets)), ?_, Or.inr rfl⟩
  unfold ipv6Text
  rw [String.toList_ofList]
  exact IpAddr.parse_display _

theorem Block.tryParse {buf : List UInt8} (h : Block buf) : ∃ info n,
    tryParse buf = some (info, n) ∧ info.parseOk = true ∧ info.srcIp.isSome = true ∧
      info.command = commandName (byteAt buf 12 % 16) := by
  have hsig := List.isPrefixOf_iff_prefix.mp h.start
  have hlen : (slice buf 16 (u16At buf 14).toNat).length = (u16At buf 14).toNat := by
    unfold slice
    rw [List.length_take, List.length_drop]
    have hwhole := h.whole
    omega
  unfold ProxyProtocol.tryParse
  rw [if_neg (not_line_of_sig hsig), if_pos ⟨h.long, h.start⟩]
  unfold parseV2
  rw [if_neg (not_lt.mpr h.long)]
  dsimp only
  rw [if_neg (not_lt.mpr h.whole), Nat.add_sub_cancel_left]
  unfold readV2
  rw [hlen]
  rcases h.room with ⟨hfam, hroom⟩ | ⟨hfam, hroom⟩
  · rw [if_pos ⟨hfam, hroom⟩]
    exact ⟨_, _, rfl, rfl, rfl, rfl⟩
  · rw [if_neg (by omega), if_pos ⟨hfam, hroom⟩]
    exact ⟨_, _, rfl, rfl, rfl, rfl⟩

theorem LineParts.tryParse {buf : List UInt8} {fam src srcPort : Text}
    (h : LineParts buf fam src srcPort) (hfam : fam ≠ unknownWord) : ∃ info n,
      tryParse buf = some (info, n) ∧ info.family = String.ofList fam ∧
        info.srcIp = some (String.ofList src) ∧ info.parseOk = (parsePort srcPort).isSome := by
  rcases h.parts with ⟨stop, line, dst, dstPort, rest, hstop, hline, hparts⟩
  unfold ProxyProtocol.tryParse
  rw [if_pos h.start]
  unfold parseV1
  rw [hstop]
  dsimp only
  rw [hline]
  dsimp only
  rw [hparts]
  rcases readV1_tcp { version := 1, rawHeaderLen := stop + 2, rawHeaderHex := hexHead buf (stop + 2) }
    hfam src dst srcPort dstPort rest with ⟨-, hfamily, hsrc, -, -, -, hok⟩
  exact ⟨_, _, rfl, hfamily, hsrc, hok⟩

theorem source_of_readV1 {info : ProxyProtocolInfo} {parts : List Text} {ip : String}
    (hnone : info.srcIp = none) (h : (readV1 info parts).srcIp = some ip) :
    ∃ fam src dst srcPort dstPort rest,
      parts = proxyWord :: fam :: src :: dst :: srcPort :: dstPort :: rest ∧
        fam ≠ unknownWord ∧ ip = String.ofList src := by
  match parts with
  | [] => cases hnone.symm.trans h
  | [_] => cases hnone.symm.trans h
  | command :: fam :: fields =>
      rw [readV1] at h
      by_cases hcommand : command = proxyWord
      · rw [if_neg (not_not.mpr hcommand)] at h
        dsimp only at h
        by_cases hfam : fam = unknownWord
        · rw [if_pos hfam] at h
          cases hnone.symm.trans h
        · rw [if_neg hfam] at h
          match fields with
          | [] => cases hnone.symm.trans h
          | [_] => cases hnone.symm.trans h
          | [_, _] => cases hnone.symm.trans h
          | [_, _, _] => cases hnone.symm.trans h
          | src :: dst :: srcPort :: dstPort :: rest =>
              refine ⟨fam, src, dst, srcPort, dstPort, rest, by rw [hcommand], hfam, ?_⟩
              exact (Option.some.inj h).symm
      · rw [if_pos hcommand] at h
        cases hnone.symm.trans h

theorem source_of_readV2 {info : ProxyProtocolInfo} {cmd family : ℕ} {addr : List UInt8}
    {ip : String} (hnone : info.srcIp = none)
    (h : (readV2 info cmd family addr).srcIp = some ip) :
    family = 1 ∧ 12 ≤ addr.length ∧ OfFamily "INET" ip ∨
      family = 2 ∧ 36 ≤ addr.length ∧ OfFamily "INET6" ip := by
  unfold readV2 at h
  by_cases hinet : family = 1 ∧ 12 ≤ addr.length
  · rw [if_pos hinet] at h
    left
    rw [← Option.some.inj h]
    exact ⟨hinet.1, hinet.2, ofFamily_ipv4 _⟩
  · rw [if_neg hinet] at h
    by_cases hinet6 : family = 2 ∧ 36 ≤ addr.length
    · rw [if_pos hinet6] at h
      right
      rw [← Option.some.inj h]
      exact ⟨hinet6.1, hinet6.2, ofFamily_ipv6 _⟩
    · rw [if_neg hinet6] at h
      by_cases hunspec : family = 0
      · rw [if_pos hunspec] at h
        cases hnone.symm.trans h
      · rw [if_neg hunspec] at h
        cases hnone.symm.trans h

theorem names_readV2 (info : ProxyProtocolInfo) (cmd family : ℕ) (addr : List UInt8) :
    (readV2 info cmd family addr).command = info.command ∧
      (readV2 info cmd family addr).family = info.family := by
  unfold readV2
  split_ifs <;> exact ⟨rfl, rfl⟩

theorem exact_of_parseV1 {buf : List UInt8} {info : ProxyProtocolInfo} {n : ℕ} {ip : String}
    (h : Declared buf) (hstart : (asBytes "PROXY ").isPrefixOf buf = true)
    (hparse : parseV1 buf = some (info, n)) (hok : info.parseOk = true)
    (hip : info.srcIp = some ip) : info.command = "PROXY" ∧ OfFamily info.family ip := by
  unfold parseV1 at hparse
  cases hstop : crlfAt buf with
  | none =>
      rw [hstop] at hparse
      cases hparse
  | some stop =>
      rw [hstop] at hparse
      dsimp only at hparse
      cases hline : TlsHello.fromUtf8 (buf.take stop) with
      | none =>
          rw [hline] at hparse
          cases hparse
      | some line =>
          rw [hline] at hparse
          cases hparse
          rcases source_of_readV1 rfl hip with ⟨fam, src, dst, srcPort, dstPort, rest, hparts, hfam, rfl⟩
          rw [hparts] at hok ⊢
          rcases readV1_tcp { version := 1, rawHeaderLen := stop + 2, rawHeaderHex := hexHead buf (stop + 2) }
            hfam src dst srcPort dstPort rest with ⟨hcommand, hfamily, -, -, -, -, hport⟩
          refine ⟨hcommand, ?_⟩
          rw [hfamily]
          exact h.line fam src srcPort ⟨hstart, stop, line, dst, dstPort, rest, hstop, hline, hparts⟩
            hfam (hport.symm.trans hok)

theorem exact_of_parseV2 {buf : List UInt8} {info : ProxyProtocolInfo} {n : ℕ} {ip : String}
    (h : Declared buf) (hlong : 16 ≤ buf.length) (hstart : sig.isPrefixOf buf = true)
    (hparse : parseV2 buf = some (info, n)) (hip : info.srcIp = some ip) :
    info.command = "PROXY" ∧ OfFamily info.family ip := by
  unfold parseV2 at hparse
  rw [if_neg (not_lt.mpr hlong)] at hparse
  dsimp only at hparse
  by_cases hwhole : buf.length < 16 + (u16At buf 14).toNat
  · rw [if_pos hwhole] at hparse
    cases hparse
  · rw [if_neg hwhole] at hparse
    cases hparse
    have hlen : (slice buf 16 (16 + (u16At buf 14).toNat - 16)).length = (u16At buf 14).toNat := by
      unfold slice
      rw [List.length_take, List.length_drop]
      omega
    have hsource := source_of_readV2 rfl hip
    rw [hlen] at hsource
    have hcmd : byteAt buf 12 % 16 = 1 := by
      apply h.block
      refine ⟨hlong, hstart, not_lt.mp hwhole, ?_⟩
      rcases hsource with ⟨hfam, hroom, -⟩ | ⟨hfam, hroom, -⟩
      · exact Or.inl ⟨hfam, hroom⟩
      · exact Or.inr ⟨hfam, hroom⟩
    rw [(names_readV2 _ _ _ _).1, (names_readV2 _ _ _ _).2]
    dsimp only
    refine ⟨commandName_eq_proxy.mpr hcmd, ?_⟩
    rcases hsource with ⟨hfam, -, hof⟩ | ⟨hfam, -, hof⟩
    · rw [hfam]
      exact hof
    · rw [hfam]
      exact hof

theorem sourceExact_iff (buf : List UInt8) : SourceExact buf ↔ Declared buf := by
  constructor
  · intro h
    constructor
    · intro fam src srcPort hparts hfam hport
      rcases hparts.tryParse hfam with ⟨info, n, hparse, hfamily, hsrc, hok⟩
      have hexact := h info n _ hparse (hok.trans hport) hsrc
      rw [← hfamily]
      exact hexact.2
    · intro hblock
      rcases hblock.tryParse with ⟨info, n, hparse, hok, hsome, hcommand⟩
      rcases Option.isSome_iff_exists.mp hsome with ⟨ip, hip⟩
      have hexact := h info n ip hparse hok hip
      rw [hcommand] at hexact
      exact commandName_eq_proxy.mp hexact.1
  · intro h info n ip hparse hok hip
    unfold tryParse at hparse
    by_cases hline : (asBytes "PROXY ").isPrefixOf buf = true
    · rw [if_pos hline] at hparse
      exact exact_of_parseV1 h hline hparse hok hip
    · rw [if_neg hline] at hparse
      by_cases hblock : 16 ≤ buf.length ∧ sig.isPrefixOf buf = true
      · rw [if_pos hblock] at hparse
        exact exact_of_parseV2 h hblock.1 hblock.2 hparse hip
      · rw [if_neg hblock] at hparse
        cases hparse

end ProxyProtocol

end GrServer
