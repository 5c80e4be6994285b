import GrServer.SynPacket

/-!
# The views of a SYN packet

The parser takes one view of a packet: where the TCP header begins and which
byte is the TTL.  What it returns is what that view holds, and nothing faults.
-/

namespace GrServer

open Faults QuicFrames QuicDatagrams WireBytes IpAddr

namespace TcpSyn

/-! ## What a header holds -/

def dataOff (tcp : List UInt8) : ℕ := byteAt tcp 12 / 16 * 4

def optionArea (tcp : List UInt8) : List UInt8 := (tcp.drop 20).take (dataOff tcp - 20)

structure Readable (tcp : List UInt8) : Prop where
  long : 20 ≤ tcp.length
  room : dataOff tcp ≤ tcp.length
  syn : synOnly (tcp.getD 13 0)

structure Reads (tcp : List UInt8) (info : TcpSynInfo) : Prop where
  srcPort : info.srcPort = some (u16At tcp 0)
  dstPort : info.dstPort = some (u16At tcp 2)
  seq : info.tcpSeq = some (u32At tcp 4)
  window : info.tcpWindow = some (u16At tcp 14)
  raw : info.optionRawHex =
    if optionArea tcp = [] then none else some (TlsHello.hexEncode (optionArea tcp))
  options : walkOptions (optionArea tcp) {} = .ok info.toTcpOptions

structure Keeps (info out : TcpSynInfo) : Prop where
  srcPort : out.srcPort = info.srcPort
  dstPort : out.dstPort = info.dstPort
  seq : out.tcpSeq = info.tcpSeq
  window : out.tcpWindow = info.tcpWindow
  raw : out.optionRawHex = info.optionRawHex
  options : out.toTcpOptions = info.toTcpOptions

theorem Reads.keeps {tcp : List UInt8} {info out : TcpSynInfo} (h : Reads tcp info)
    (hkeep : Keeps info out) : Reads tcp out where
  srcPort := hkeep.srcPort.trans h.srcPort
  dstPort := hkeep.dstPort.trans h.dstPort
  seq := hkeep.seq.trans h.seq
  window := hkeep.window.trans h.window
  raw := hkeep.raw.trans h.raw
  options := h.options.trans (congrArg Except.ok hkeep.options.symm)

theorem shiftRight_four (x : UInt8) : (x >>> 4).toNat = x.toNat / 16 := by
  rw [UInt8.toNat_shiftRight, Nat.shiftRight_eq_div_pow]
  rfl

theorem and_fifteen (x : UInt8) : (x &&& 0x0f).toNat = x.toNat % 16 := by
  rw [UInt8.toNat_and]
  exact Nat.and_two_pow_sub_one_eq_mod x.toNat 4

theorem nibble_eq_iff {b : List UInt8} {i : ℕ} {x n : UInt8} (hx : b[i]? = some x) :
    x >>> 4 = n ↔ byteAt b i / 16 = n.toNat := by
  rw [← UInt8.toNat_inj, shiftRight_four, toNat_eq_byteAt hx]

/-! ## The views of a packet -/

/-- A way to take a packet: where it takes the TCP header to be, and the TTL it
reads, if the rest of the packet allows it. -/
structure View where
  guard : Prop
  tcp : List UInt8
  ttl : Option UInt8

def View.Accepts (v : View) : Prop := v.guard ∧ Readable v.tcp

def View.Outcome (v : View) : Option TcpSynInfo → Prop
  | none => ¬v.Accepts
  | some info => v.Accepts ∧ Reads v.tcp info ∧ info.ipTtl = v.ttl

def bareView (frame : List UInt8) : View where
  guard := 20 ≤ dataOff frame
  tcp := frame
  ttl := none

def headerLen (ip : List UInt8) : ℕ := byteAt ip 0 % 16 * 4

def ipv4View (ip : List UInt8) : View where
  guard := 20 ≤ ip.length ∧ headerLen ip + 20 ≤ ip.length ∧ byteAt ip 9 = 6
  tcp := ip.drop (headerLen ip)
  ttl := ip[8]?

def ipv6View (ip : List UInt8) : View where
  guard := 60 ≤ ip.length ∧ byteAt ip 6 = 6
  tcp := ip.drop 40
  ttl := ip[7]?

theorem ipv6View_tcp (ip : List UInt8) : (ipv6View ip).tcp = ip.drop 40 := rfl

def version (ip : List UInt8) : ℕ := byteAt ip 0 / 16

def payload (frame : List UInt8) : List UInt8 :=
  if version frame = 4 ∨ version frame = 6 ∨ frame.length ≤ 54 then frame
  else if u16At frame 12 = 0x0800 ∨ u16At frame 12 = 0x86dd then frame.drop 14
  else if u16At frame 12 = 0x8100 then frame.drop 18
  else frame

def viewOf (frame : List UInt8) : View :=
  if version (payload frame) = 4 then ipv4View (payload frame)
  else if version (payload frame) = 6 then ipv6View (payload frame)
  else bareView frame

section Parsing

variable {H : Hashes} {tcp ip frame : List UInt8} {ttl : Option UInt8}

structure HeaderReads (tcp : List UInt8) (info : TcpSynInfo) : Prop where
  srcPort : info.srcPort = some (u16At tcp 0)
  dstPort : info.dstPort = some (u16At tcp 2)
  seq : info.tcpSeq = some (u32At tcp 4)
  window : info.tcpWindow = some (u16At tcp 14)
  flags : info.tcpFlags = some (tcp.getD 13 0)
  ttl : info.ipTtl = none

theorem returns_headerInfo (hfits : tcp.length < 2 ^ 63) (hlong : 20 ≤ tcp.length) :
    Returns (headerInfo tcp) fun info =>
      HeaderReads tcp info ∧ info.toTcpOptions = {} ∧ info.optionRawHex = none := by
  unfold headerInfo
  refine (returns_index (by omega)).bind fun flags hflags => ?_
  refine (returns_u16From hfits (by omega)).bind fun srcPort hsrc => ?_
  refine (returns_u16From hfits (by omega)).bind fun dstPort hdst => ?_
  refine (returns_u32From (by omega)).bind fun seq hseq => ?_
  refine (returns_u32From (by omega)).bind fun ack _ => ?_
  refine (returns_index (by omega)).bind fun off _ => ?_
  refine (returns_u16From hfits (by omega)).bind fun window hwindow => ?_
  refine (returns_u16From hfits (by omega)).bind fun urgent _ => ?_
  subst hsrc hdst hseq hwindow
  refine Returns.pure ⟨⟨rfl, rfl, rfl, rfl, ?_, rfl⟩, rfl, rfl⟩
  rw [List.getD_eq_getElem?_getD, hflags]
  rfl

theorem returns_parseTcpOptions {opts : List UInt8} {info : TcpSynInfo}
    (hfits : opts.length ≤ 40) (hnone : info.toTcpOptions = {}) :
    Returns (parseTcpOptions opts info) fun out => ∃ o order,
      walkOptions opts {} = .ok o ∧ out = { info with toTcpOptions := o, optionOrderStr := order } := by
  rcases returns_walkOptions hfits with ⟨o, ho, -⟩
  unfold parseTcpOptions
  rw [hnone, ho]
  exact Returns.pure ⟨o, _, rfl, rfl⟩

def BaseReads (tcp : List UInt8) : Option TcpSynInfo → Prop
  | none => ¬(20 ≤ tcp.length ∧ dataOff tcp ≤ tcp.length)
  | some info => (20 ≤ tcp.length ∧ dataOff tcp ≤ tcp.length) ∧ Reads tcp info ∧
      info.tcpFlags = some (tcp.getD 13 0) ∧ info.ipTtl = none

theorem returns_baseTcpSyn (hfits : tcp.length < 2 ^ 63) :
    Returns (baseTcpSyn tcp) (BaseReads tcp) := by
  unfold baseTcpSyn
  refine Returns.ite ?_ fun hshort => ?_
  · intro hshort
    exact Returns.pure fun h => absurd h.1 (by omega)
  have hlong : 20 ≤ tcp.length := not_lt.mp hshort
  refine (returns_index (by omega)).bind ?_
  intro off hoff
  have hdata : (off >>> 4).toNat * 4 = dataOff tcp := by
    rw [shiftRight_four, toNat_eq_byteAt hoff]
    rfl
  have hsixty : dataOff tcp ≤ 60 := by
    have hbyte := off.toNat_lt
    rw [← hdata, shiftRight_four]
    omega
  rw [hdata]
  refine Returns.ite ?_ fun hroom => ?_
  · intro hroom
    exact Returns.pure fun h => absurd h.2 (by omega)
  have hin : dataOff tcp ≤ tcp.length := not_lt.mp hroom
  refine (returns_headerInfo hfits hlong).bind ?_
  rintro info ⟨hread, hnone, hraw⟩
  refine Returns.ite ?_ fun hplain => ?_
  · intro hoptions
    refine (returns_slice (by omega) hin).bind ?_
    rintro _ ⟨rfl, hlen⟩
    change (optionArea tcp).length = _ at hlen
    have hlen' : (optionArea tcp).length ≤ 40 := by omega
    have hne : optionArea tcp ≠ [] := by
      intro hnil
      rw [hnil, List.length_nil] at hlen
      omega
    refine (returns_sliceTo (min_le_left _ _)).bind ?_
    rintro _ rfl
    refine Returns.bind (returns_parseTcpOptions hlen' hnone) ?_
    rintro _ ⟨o, order, ho, rfl⟩
    have hall : (optionArea tcp).take (min (optionArea tcp).length 40) = optionArea tcp :=
      List.take_of_length_le (by omega)
    refine Returns.pure ⟨⟨hlong, hin⟩, ?_, hread.flags, hread.ttl⟩
    refine ⟨hread.srcPort, hread.dstPort, hread.seq, hread.window, ?_, ho⟩
    rw [if_neg hne]
    exact congrArg (fun b => some (TlsHello.hexEncode b)) hall
  · refine Returns.pure ⟨⟨hlong, hin⟩, ?_, hread.flags, hread.ttl⟩
    have hnil : optionArea tcp = [] := by
      unfold optionArea
      rw [Nat.sub_eq_zero_of_le (not_lt.mp hplain), List.take_zero]
    refine ⟨hread.srcPort, hread.dstPort, hread.seq, hread.window, ?_, ?_⟩
    · rw [if_pos hnil, hraw]
    · rw [hnil, hnone]
      rfl

theorem returns_finalizeP0f (info : TcpSynInfo) :
    Returns (finalizeP0f H info) fun out => Keeps info out ∧ out.ipTtl = info.ipTtl := by
  unfold finalizeP0f
  refine (returns_hexHead ?_).bind fun _ _ => Returns.pure ⟨⟨rfl, rfl, rfl, rfl, rfl, rfl⟩, rfl⟩
  rw [length_hexEncode, Vector.length_toList]
  norm_num

theorem returns_finish (hfits : tcp.length < 2 ^ 63) {ipFields : TcpSynInfo → Run TcpSynInfo}
    (hfields : ∀ info, info.ipTtl = none →
      Returns (ipFields info) fun out => Keeps info out ∧ out.ipTtl = ttl) :
    Returns (do finish H (← baseTcpSyn tcp) ipFields) (View.Outcome ⟨True, tcp, ttl⟩) := by
  refine (returns_baseTcpSyn hfits).bind ?_
  rintro (_ | info) hbase
  · exact Returns.pure fun h => hbase ⟨h.2.long, h.2.room⟩
  obtain ⟨⟨hlong, hroom⟩, hread, hflags, httl⟩ := hbase
  unfold finish
  have hsyn : isSyn info ↔ synOnly (tcp.getD 13 0) := by
    unfold isSyn
    rw [hflags, Option.getD_some]
  refine Returns.ite ?_ fun hseen => ?_
  · intro hother
    exact Returns.pure fun h => hother (hsyn.mpr h.2.syn)
  refine (hfields info httl).bind ?_
  rintro fields ⟨hkeep, httl⟩
  refine (returns_finalizeP0f fields).bind ?_
  rintro out ⟨hkeep', hout⟩
  refine Returns.pure ⟨⟨trivial, hlong, hroom, hsyn.mp (not_not.mp hseen)⟩, ?_, hout.trans httl⟩
  exact (hread.keeps hkeep).keeps hkeep'

theorem View.Outcome.guarded {guard : Prop} {o : Option TcpSynInfo}
    (h : View.Outcome ⟨True, tcp, ttl⟩ o) (hguard : guard) : View.Outcome ⟨guard, tcp, ttl⟩ o := by
  cases o with
  | none => exact fun hall => h ⟨trivial, hall.2⟩
  | some info => exact ⟨⟨hguard, h.1.2⟩, h.2⟩

theorem returns_parseBareTcpSyn (hfits : frame.length < 2 ^ 63) :
    Returns (parseBareTcpSyn H frame) (bareView frame).Outcome := by
  unfold parseBareTcpSyn
  refine Returns.ite ?_ fun hshort => ?_
  · intro hshort
    exact Returns.pure fun h => not_le.mpr hshort h.2.long
  refine (returns_index (by omega)).bind ?_
  intro off hoff
  have hdata : (off >>> 4).toNat * 4 = dataOff frame := by
    rw [shiftRight_four, toNat_eq_byteAt hoff]
    rfl
  rw [hdata]
  refine Returns.ite ?_ fun hgood => ?_
  · rintro (hlow | hroom)
    · exact Returns.pure fun h => not_le.mpr hlow h.1
    · exact Returns.pure fun h => not_le.mpr hroom h.2.room
  refine Returns.mono (returns_finish hfits ?_) fun o ho => ho.guarded (by omega)
  intro info httl
  exact Returns.pure ⟨⟨rfl, rfl, rfl, rfl, rfl, rfl⟩, httl⟩

theorem returns_dotted {i : ℕ} (h : i + 3 < ip.length) :
    Returns (dotted ip i) fun _ => True := by
  refine (returns_index (by omega)).bind fun _ _ => ?_
  refine (returns_index (by omega)).bind fun _ _ => ?_
  refine (returns_index (by omega)).bind fun _ _ => ?_
  exact (returns_index h).bind fun _ _ => Returns.pure trivial

theorem returns_ipv4Fields (hfits : ip.length < 2 ^ 63) (hlong : 20 ≤ ip.length)
    (info : TcpSynInfo) :
    Returns (ipv4Fields ip info) fun out => Keeps info out ∧ out.ipTtl = ip[8]? := by
  unfold ipv4Fields
  refine (returns_u16From hfits (by omega)).bind fun _ _ => ?_
  refine (returns_index (by omega)).bind fun _ _ => ?_
  refine (returns_index (by omega)).bind fun ttl httl => ?_
  refine (returns_u16From hfits (by omega)).bind fun _ _ => ?_
  refine (returns_u16From hfits (by omega)).bind fun _ _ => ?_
  refine (returns_dotted (by omega)).bind fun _ _ => ?_
  refine (returns_dotted (by omega)).bind fun _ _ => ?_
  exact Returns.pure ⟨⟨rfl, rfl, rfl, rfl, rfl, rfl⟩, httl.symm⟩

theorem returns_parseIpv4TcpSyn (hfits : ip.length < 2 ^ 63) :
    Returns (parseIpv4TcpSyn H ip) (ipv4View ip).Outcome := by
  unfold parseIpv4TcpSyn
  refine Returns.ite ?_ fun hshort => ?_
  · intro hshort
    exact Returns.pure fun h => absurd h.1.1 (by omega)
  have hlong : 20 ≤ ip.length := not_lt.mp hshort
  refine (returns_index (by omega)).bind ?_
  intro first hfirst
  have hihl : (first &&& 0x0f).toNat * 4 = headerLen ip := by
    rw [and_fifteen, toNat_eq_byteAt hfirst]
    rfl
  rw [hihl]
  refine Returns.ite ?_ fun hroom => ?_
  · intro hroom
    exact Returns.pure fun h => absurd h.1.2.1 (by omega)
  refine (returns_index (by omega)).bind ?_
  intro proto hproto
  have htcp : proto = 6 ↔ byteAt ip 9 = 6 := byteAt_eq_iff hproto (by decide)
  refine Returns.ite ?_ fun hsix => ?_
  · intro hother
    exact Returns.pure fun h => hother (htcp.mpr h.1.2.2)
  refine (returns_sliceFrom (by omega)).bind ?_
  rintro _ rfl
  have hrest : (ip.drop (headerLen ip)).length < 2 ^ 63 := by
    rw [List.length_drop]
    omega
  refine Returns.mono (returns_finish hrest fun info _ => returns_ipv4Fields hfits hlong info) ?_
  intro o ho
  exact ho.guarded ⟨hlong, not_lt.mp hroom, htcp.mp (not_not.mp hsix)⟩

theorem returns_ipv6Fields (hfits : ip.length < 2 ^ 63) (hlong : 60 ≤ ip.length)
    (info : TcpSynInfo) :
    Returns (ipv6Fields ip info) fun out => Keeps info out ∧ out.ipTtl = ip[7]? := by
  unfold ipv6Fields
  refine (returns_index (by omega)).bind fun _ _ => ?_
  refine (returns_index (by omega)).bind fun _ _ => ?_
  refine (returns_index (by omega)).bind fun ttl httl => ?_
  refine (returns_slice (by omega) (by omega)).bind fun _ _ => ?_
  refine (returns_slice (by omega) (by omega)).bind fun _ _ => ?_
  exact Returns.pure ⟨⟨rfl, rfl, rfl, rfl, rfl, rfl⟩, httl.symm⟩

theorem returns_parseIpv6TcpSyn (hfits : ip.length < 2 ^ 63) :
    Returns (parseIpv6TcpSyn H ip) (ipv6View ip).Outcome := by
  unfold parseIpv6TcpSyn
  refine Returns.ite ?_ fun hshort => ?_
  · intro hshort
    exact Returns.pure fun h => absurd h.1.1 (by omega)
  have hlong : 60 ≤ ip.length := not_lt.mp hshort
  refine (returns_index (by omega)).bind ?_
  intro next hnext
  have htcp : next = 6 ↔ byteAt ip 6 = 6 := byteAt_eq_iff hnext (by decide)
  refine Returns.ite ?_ fun hsix => ?_
  · intro hother
    exact Returns.pure fun h => hother (htcp.mpr h.1.2)
  refine (returns_sliceFrom (by omega)).bind ?_
  rintro _ rfl
  have hrest : (ip.drop 40).length < 2 ^ 63 := by
    rw [List.length_drop]
    omega
  refine Returns.mono (returns_finish hrest fun info _ => returns_ipv6Fields hfits hlong info) ?_
  intro o ho
  exact ho.guarded ⟨hlong, htcp.mp (not_not.mp hsix)⟩

theorem returns_skipEthernet (hfits : frame.length < 2 ^ 63) (hlong : 20 ≤ frame.length) :
    Returns (skipEthernet frame) (· = payload frame) := by
  unfold skipEthernet payload
  refine (returns_index (by omega)).bind ?_
  intro first hfirst
  have hfour : first >>> 4 = 4 ↔ version frame = 4 := nibble_eq_iff hfirst
  have hsix : first >>> 4 = 6 ↔ version frame = 6 := nibble_eq_iff hfirst
  refine Returns.ite ?_ fun hother => Returns.ite ?_ fun hsmall => ?_
  · rintro (rfl | h | h)
    · exact Returns.pure (if_pos (Or.inl (hfour.mp rfl))).symm
    · exact Returns.pure (if_pos (Or.inl (hfour.mp h))).symm
    · exact Returns.pure (if_pos (Or.inr (Or.inl (hsix.mp h)))).symm
  · intro hlarge
    have hframe : ¬(version frame = 4 ∨ version frame = 6 ∨ frame.length ≤ 54) := by
      rintro (h | h | h)
      · exact hother (Or.inr (Or.inl (hfour.mpr h)))
      · exact hother (Or.inr (Or.inr (hsix.mpr h)))
      · omega
    rw [if_neg hframe]
    refine (returns_u16From hfits (by omega)).bind ?_
    rintro _ rfl
    refine Returns.ite ?_ fun hplain => Returns.ite ?_ fun hvlan => ?_
    · intro h
      rw [if_pos h]
      exact returns_sliceFrom (by omega)
    · rintro ⟨h, hmore⟩
      rw [if_neg hplain, if_pos h]
      exact returns_sliceFrom hmore.le
    · have hno : u16At frame 12 ≠ 0x8100 := fun h => hvlan ⟨h, by omega⟩
      rw [if_neg hplain, if_neg hno]
      exact Returns.pure rfl
  · exact Returns.pure (if_pos (Or.inr (Or.inr (not_lt.mp hsmall)))).symm

theorem length_payload_le (frame : List UInt8) : (payload frame).length ≤ frame.length := by
  unfold payload
  split_ifs
  · exact le_rfl
  · rw [List.length_drop]
    exact Nat.sub_le _ _
  · rw [List.length_drop]
    exact Nat.sub_le _ _
  · exact le_rfl

theorem payload_nonempty (hlong : 20 ≤ frame.length) : 0 < (payload frame).length := by
  unfold payload
  split_ifs with hplain
  · omega
  · rw [List.length_drop]
    omega
  · rw [List.length_drop]
    omega
  · omega

theorem length_of_viewOf (h : (viewOf frame).Accepts) : 20 ≤ frame.length := by
  have hle := length_payload_le frame
  unfold viewOf at h
  split_ifs at h with hfour hsix
  · exact h.1.1.trans hle
  · have hsixty : 60 ≤ (payload frame).length := h.1.1
    omega
  · exact h.2.long

theorem returns_parseTcpSynPacket (hfits : frame.length < 2 ^ 63) :
    Returns (parseTcpSynPacket H frame) (viewOf frame).Outcome := by
  unfold parseTcpSynPacket
  refine Returns.ite ?_ fun hshort => ?_
  · intro hshort
    exact Returns.pure fun h => absurd (length_of_viewOf h) (by omega)
  have hlong : 20 ≤ frame.length := not_lt.mp hshort
  refine (returns_skipEthernet hfits hlong).bind ?_
  rintro _ rfl
  have hpayload : (payload frame).length < 2 ^ 63 := (length_payload_le frame).trans_lt hfits
  refine (returns_index (payload_nonempty hlong)).bind ?_
  intro first hfirst
  have hfour : first >>> 4 = 4 ↔ version (payload frame) = 4 := nibble_eq_iff hfirst
  have hsix : first >>> 4 = 6 ↔ version (payload frame) = 6 := nibble_eq_iff hfirst
  unfold viewOf
  refine Returns.ite ?_ fun hother => Returns.ite ?_ fun hneither => ?_
  · intro h
    rw [if_pos (hfour.mp h)]
    exact returns_parseIpv4TcpSyn hpayload
  · intro h
    rw [if_neg (mt hfour.mpr hother), if_pos (hsix.mp h)]
    exact returns_parseIpv6TcpSyn hpayload
  · rw [if_neg (mt hfour.mpr hother), if_neg (mt hsix.mpr hneither)]
    exact returns_parseBareTcpSyn hfits

end Parsing

end TcpSyn

end GrServer
