import GrServer.SynViews

/-!
# Recovering a SYN

A segment is sent bare, behind an IP header or behind an Ethernet header.  It is
recovered when the view that is taken of the packet is that of its framing, or
spells the same segment by accident.
-/

namespace GrServer

open Faults QuicFrames QuicDatagrams WireBytes IpAddr

namespace TcpSyn

/-! ## Segments -/

inductive OptionItem where
  | nop
  | sized (kind : UInt8) (data : List UInt8) (two_le : 2 ≤ kind)

namespace OptionItem

def kind : OptionItem → UInt8
  | nop => 1
  | sized kind _ _ => kind

def bytes : OptionItem → List UInt8
  | nop => [1]
  | sized kind data _ => kind :: UInt8.ofNat (data.length + 2) :: data

def mss : OptionItem → Option UInt16
  | nop => none
  | sized kind data _ => mssOf kind data

def wscale : OptionItem → Option UInt8
  | nop => none
  | sized kind data _ => wscaleOf kind data

def timestamps : OptionItem → Option (UInt32 × UInt32)
  | nop => none
  | sized kind data _ => timestampsOf kind data

end OptionItem

structure OptionList where
  items : List OptionItem
  padding : Option (List UInt8)

namespace OptionList

def bytes (os : OptionList) : List UInt8 :=
  os.items.flatMap OptionItem.bytes ++ os.padding.elim [] (0 :: ·)

def kinds (os : OptionList) : List UInt8 :=
  os.items.map OptionItem.kind ++ os.padding.elim [] fun _ => [0]

end OptionList

/-- A segment with the SYN flag and options that fit its header. -/
structure Segment where
  srcPort : UInt16
  dstPort : UInt16
  seq : UInt32
  ack : UInt32
  reserved : BitVec 4
  flags : UInt8
  window : UInt16
  checksum : UInt16
  urgent : UInt16
  options : OptionList
  syn : flags &&& 0x02 ≠ 0
  aligned : options.bytes.length % 4 = 0
  fits : options.bytes.length ≤ 40

def Segment.bytes (s : Segment) : List UInt8 :=
  beBytes s.srcPort ++ (beBytes s.dstPort ++ (bytesOf 4 s.seq.toNat ++ (bytesOf 4 s.ack.toNat ++
    (UInt8.ofNat ((5 + s.options.bytes.length / 4) * 16 + s.reserved.toNat) :: s.flags ::
      (beBytes s.window ++ (beBytes s.checksum ++ (beBytes s.urgent ++ s.options.bytes)))))))

/-! ## Framings -/

structure Ipv4Header where
  tos : UInt8
  totalLen : UInt16
  id : UInt16
  flagsFrag : UInt16
  ttl : UInt8
  checksum : UInt16
  src : BitVec 32
  dst : BitVec 32
  options : List UInt8
  aligned : options.length % 4 = 0
  fits : options.length ≤ 40

def Ipv4Header.bytes (h : Ipv4Header) : List UInt8 :=
  UInt8.ofNat (4 * 16 + (5 + h.options.length / 4)) :: h.tos :: (beBytes h.totalLen ++
    (beBytes h.id ++ (beBytes h.flagsFrag ++ (h.ttl :: 6 :: (beBytes h.checksum ++
      (bytesOf 4 h.src.toNat ++ (bytesOf 4 h.dst.toNat ++ h.options)))))))

structure Ipv6Header where
  trafficClass : UInt8
  flowLabel : BitVec 20
  payloadLen : UInt16
  hopLimit : UInt8
  src : BitVec 128
  dst : BitVec 128

def Ipv6Header.bytes (h : Ipv6Header) : List UInt8 :=
  bytesOf 4 (6 * 2 ^ 28 + h.trafficClass.toNat * 2 ^ 20 + h.flowLabel.toNat) ++
    (beBytes h.payloadLen ++ (6 :: h.hopLimit :: (bytesOf 16 h.src.toNat ++
      bytesOf 16 h.dst.toNat)))

inductive IpHeader where
  | v4 (header : Ipv4Header)
  | v6 (header : Ipv6Header)

namespace IpHeader

def bytes : IpHeader → List UInt8
  | v4 header => header.bytes
  | v6 header => header.bytes

def ttl : IpHeader → UInt8
  | v4 header => header.ttl
  | v6 header => header.hopLimit

def ethertype : IpHeader → UInt16
  | v4 _ => 0x0800
  | v6 _ => 0x86dd

end IpHeader

structure EthernetHeader where
  dst : BitVec 48
  src : BitVec 48
  vlan : Option UInt16

def EthernetHeader.bytes (e : EthernetHeader) (ethertype : UInt16) : List UInt8 :=
  bytesOf 6 e.dst.toNat ++ (bytesOf 6 e.src.toNat ++
    (e.vlan.elim [] (fun tag => beBytes 0x8100 ++ beBytes tag) ++ beBytes ethertype))

inductive Framing where
  | bare
  | ip (header : IpHeader)
  | ethernet (frame : EthernetHeader) (header : IpHeader)

namespace Framing

def bytes : Framing → List UInt8
  | bare => []
  | ip header => header.bytes
  | ethernet frame header => frame.bytes header.ethertype ++ header.bytes

def ttl : Framing → Option UInt8
  | bare => none
  | ip header => some header.ttl
  | ethernet _ header => some header.ttl

end Framing

/-- A segment in its framing, before a payload or padding. -/
structure Packet where
  framing : Framing
  segment : Segment
  trailer : List UInt8
  fits : (framing.bytes ++ (segment.bytes ++ trailer)).length < 2 ^ 63

def Packet.bytes (p : Packet) : List UInt8 :=
  p.framing.bytes ++ (p.segment.bytes ++ p.trailer)

/-- The options in order; of several that say the same, the last one counts. -/
structure Carried (os : OptionList) (o : TcpOptions) : Prop where
  order : o.optionOrder = os.kinds
  mss : o.tcpMss = (os.items.filterMap OptionItem.mss).getLast?
  wscale : o.tcpWscale = (os.items.filterMap OptionItem.wscale).getLast?
  sackOk : o.tcpSackOk = os.items.any fun item => item.kind == 4
  timestamp : o.tcpTimestamp = (os.items.filterMap OptionItem.timestamps).getLast?.isSome
  tsVal : o.tcpTsVal = (os.items.filterMap OptionItem.timestamps).getLast?.map Prod.fst
  tsEcr : o.tcpTsEcr = (os.items.filterMap OptionItem.timestamps).getLast?.map Prod.snd
  nops : o.tcpNopCount.toNat = os.items.countP fun item => item.kind == 1
  eol : o.tcpEol = os.padding.isSome

structure Recovered (s : Segment) (ttl : Option UInt8) (info : TcpSynInfo) : Prop where
  srcPort : info.srcPort = some s.srcPort
  dstPort : info.dstPort = some s.dstPort
  seq : info.tcpSeq = some s.seq
  window : info.tcpWindow = some s.window
  ttl : info.ipTtl = ttl
  raw : info.optionRawHex =
    if s.options.bytes = [] then none else some (TlsHello.hexEncode s.options.bytes)
  options : Carried s.options info.toTcpOptions

/-! ## The walk over the options that were sent -/

section Options

variable {items : List OptionItem} {item : OptionItem} {o o' : TcpOptions}

theorem getLast?_filterMap_concat {α β : Type} (f : α → Option β) (front : List α) (x : α) :
    ((front ++ [x]).filterMap f).getLast? = (f x).or (front.filterMap f).getLast? := by
  rw [List.filterMap_append, List.getLast?_append]
  cases hx : f x with
  | none => rw [List.filterMap_cons_none hx]; rfl
  | some y => rw [List.filterMap_cons_some hx]; rfl

abbrev Passed (items : List OptionItem) (o : TcpOptions) : Prop := Carried ⟨items, none⟩ o

theorem Passed.nop (h : Passed items o) (hcount : o.tcpNopCount.toNat + 1 < 2 ^ 8) :
    Passed (items ++ [.nop])
      { o with optionOrder := o.optionOrder ++ [1], tcpNopCount := o.tcpNopCount + 1 } := by
  have horder : o.optionOrder = items.map OptionItem.kind ++ [] := h.order
  constructor
  · simp [OptionList.kinds, horder, OptionItem.kind]
  · rw [getLast?_filterMap_concat]
    exact h.mss
  · rw [getLast?_filterMap_concat]
    exact h.wscale
  · simp [h.sackOk, OptionItem.kind]
  · rw [getLast?_filterMap_concat]
    exact h.timestamp
  · rw [getLast?_filterMap_concat]
    exact h.tsVal
  · rw [getLast?_filterMap_concat]
    exact h.tsEcr
  · rw [UInt8.toNat_add, List.countP_append, ← h.nops]
    exact Nat.mod_eq_of_lt hcount
  · exact h.eol

theorem Passed.sized {kind : UInt8} {data : List UInt8} (two_le : 2 ≤ kind) (h : Passed items o)
    (hread : ReadsOption kind data { o with optionOrder := o.optionOrder ++ [kind] } o') :
    Passed (items ++ [.sized kind data two_le]) o' := by
  have horder : o.optionOrder = items.map OptionItem.kind ++ [] := h.order
  have hone : kind ≠ 1 := by
    rintro rfl
    exact absurd two_le (by decide)
  constructor
  · rw [hread.order]
    simp [OptionList.kinds, horder, OptionItem.kind]
  · rw [hread.mss, getLast?_filterMap_concat, h.mss]
    rfl
  · rw [hread.wscale, getLast?_filterMap_concat, h.wscale]
    rfl
  · rw [hread.sackOk, List.any_append, h.sackOk]
    simp [OptionItem.kind]
  · rw [hread.timestamp, getLast?_filterMap_concat, h.timestamp]
    simp [OptionItem.timestamps]
  · rw [hread.tsVal, getLast?_filterMap_concat, h.tsVal, Option.map_or]
    rfl
  · rw [hread.tsEcr, getLast?_filterMap_concat, h.tsEcr, Option.map_or]
    rfl
  · rw [hread.nops, List.countP_append, h.nops]
    simp [OptionItem.kind, hone]
  · exact hread.eol.trans h.eol

theorem getElem?_front (front tail : List UInt8) (k : ℕ) :
    (front ++ tail)[front.length + k]? = tail[k]? := by
  rw [List.getElem?_append_right (Nat.le_add_right _ _), Nat.add_sub_cancel_left]

theorem not_two_le_zero : ¬(2 : UInt8) ≤ 0 := by decide

theorem not_two_le_one : ¬(2 : UInt8) ≤ 1 := by decide

section Round

variable {front rest : List UInt8} {r : ForInStep (ℕ × TcpOptions)}

theorem OptionStep.passes_nop (h : OptionStep (front ++ (1 :: rest)) front.length o r) :
    ∃ o', r = .yield (front.length + 1, o') ∧
      ∀ items, Passed items o → Passed (items ++ [.nop]) o' := by
  have hkind (k : UInt8) (hk : (front ++ (1 :: rest))[front.length]? = some k) : k = 1 := by
    rw [← Nat.add_zero front.length, getElem?_front] at hk
    exact (Option.some.inj hk).symm
  cases h with
  | stop hend =>
      rw [List.length_append, List.length_cons] at hend
      omega
  | eol hzero => exact absurd (hkind 0 hzero) (by decide)
  | nop _ hnops => exact ⟨_, rfl, fun items hpass => hpass.nop hnops⟩
  | broken k hk hsized _ =>
      rw [hkind k hk] at hsized
      exact absurd hsized not_two_le_one
  | sized k len o' hk hsized _ _ _ _ =>
      rw [hkind k hk] at hsized
      exact absurd hsized not_two_le_one

theorem OptionStep.passes_sized {kind : UInt8} {data : List UInt8} {two_le : 2 ≤ kind}
    (hdata : data.length ≤ 40)
    (h : OptionStep (front ++ ((OptionItem.sized kind data two_le).bytes ++ rest))
      front.length o r) :
    ∃ o', r = .yield (front.length + (data.length + 2), o') ∧
      ∀ items, Passed items o → Passed (items ++ [.sized kind data two_le]) o' := by
  set tail := (OptionItem.sized kind data two_le).bytes ++ rest with htail
  have htail' : tail = kind :: UInt8.ofNat (data.length + 2) :: (data ++ rest) := htail
  have hkind (k : UInt8) (hk : (front ++ tail)[front.length]? = some k) : k = kind := by
    rw [← Nat.add_zero front.length, getElem?_front, htail'] at hk
    exact (Option.some.inj hk).symm
  have hlenAt : (front ++ tail)[front.length + 1]? = some (UInt8.ofNat (data.length + 2)) := by
    rw [getElem?_front, htail']
    rfl
  have hwidth : (UInt8.ofNat (data.length + 2)).toNat = data.length + 2 := by
    rw [UInt8.toNat_ofNat', Nat.mod_eq_of_lt (by omega)]
  have hroom : front.length + (data.length + 2) ≤ (front ++ tail).length := by
    rw [htail', List.length_append, List.length_cons, List.length_cons, List.length_append]
    omega
  cases h with
  | stop hend => omega
  | eol hzero =>
      rw [← hkind 0 hzero] at two_le
      exact absurd two_le not_two_le_zero
  | nop hone _ =>
      rw [← hkind 1 hone] at two_le
      exact absurd two_le not_two_le_one
  | broken k _ _ hlen =>
      have hbad := hlen _ hlenAt
      rw [hwidth] at hbad
      omega
  | sized k len o' hk _ hlen _ _ hread =>
      obtain rfl := hkind k hk
      rw [hlenAt] at hlen
      obtain rfl := Option.some.inj hlen
      have hslice : ((front ++ tail).drop (front.length + 2)).take (data.length + 2 - 2) = data := by
        rw [List.drop_append, List.drop_eq_nil_of_le (Nat.le_add_right _ _), List.nil_append,
          Nat.add_sub_cancel_left, htail', Nat.add_sub_cancel]
        exact List.take_left
      rw [hwidth, hslice] at hread
      refine ⟨o', ?_, fun items hpass => hpass.sized two_le hread⟩
      rw [hwidth]

theorem OptionStep.passes {item : OptionItem} (hfits : item.bytes.length ≤ 40)
    (h : OptionStep (front ++ (item.bytes ++ rest)) front.length o r) :
    ∃ o', r = .yield (front.length + item.bytes.length, o') ∧
      ∀ items, Passed items o → Passed (items ++ [item]) o' := by
  cases item with
  | nop => exact h.passes_nop
  | sized kind data two_le =>
      have hdata : data.length + 2 ≤ 40 := hfits
      exact h.passes_sized (by omega)

theorem OptionStep.ends {padding : Option (List UInt8)}
    (h : OptionStep (front ++ padding.elim [] (0 :: ·)) front.length o r)
    (hpass : Passed items o) : ∃ s, r = .done s ∧ Carried ⟨items, padding⟩ s.2 := by
  have hat (k : UInt8) (hk : (front ++ padding.elim [] (0 :: ·))[front.length]? = some k) :
      k = 0 ∧ padding.isSome := by
    rw [← Nat.add_zero front.length, getElem?_front] at hk
    cases padding with
    | none => cases hk
    | some pad => exact ⟨(Option.some.inj hk).symm, rfl⟩
  cases h with
  | stop hend =>
      cases padding with
      | none => exact ⟨_, rfl, hpass⟩
      | some pad =>
          rw [List.length_append, Option.elim_some, List.length_cons] at hend
          omega
  | eol hzero =>
      obtain ⟨pad, rfl⟩ := Option.isSome_iff_exists.mp (hat 0 hzero).2
      have horder : o.optionOrder = items.map OptionItem.kind ++ [] := hpass.order
      refine ⟨_, rfl, ?_, hpass.mss, hpass.wscale, hpass.sackOk, hpass.timestamp, hpass.tsVal,
        hpass.tsEcr, hpass.nops, rfl⟩
      rw [horder, List.append_nil]
      rfl
  | nop hone _ => exact absurd (hat 1 hone).1 (by decide)
  | broken k hk hsized _ =>
      rw [(hat k hk).1] at hsized
      exact absurd hsized not_two_le_zero
  | sized k len o' hk hsized _ _ _ _ =>
      rw [(hat k hk).1] at hsized
      exact absurd hsized not_two_le_zero

end Round

theorem returns_walk_carried (os : OptionList) (hfits : os.bytes.length ≤ 40) :
    Returns (walkOptions os.bytes {}) (Carried os) := by
  have hstart : Passed [] {} := ⟨rfl, rfl, rfl, rfl, rfl, rfl, rfl, rfl, rfl⟩
  unfold walkOptions
  refine Returns.bind (returns_loop (I := fun s : ℕ × TcpOptions =>
    s.2.tcpNopCount.toNat ≤ s.1 ∧ ∃ front rest, os.items = front ++ rest ∧
      s.1 = (front.flatMap OptionItem.bytes).length ∧ Passed front s.2)
    (Q := fun s => Carried os s.2) (m := fun s => os.bytes.length - s.1) ?_
    ⟨le_rfl, [], os.items, rfl, rfl, hstart⟩ (Nat.lt_succ_self _))
    fun s hs => Returns.pure hs
  rintro ⟨i, o⟩ ⟨hnops, front, rest, hitems, hi, hpass⟩
  dsimp only at hnops hi hpass
  subst hi
  have hbytes : os.bytes = front.flatMap OptionItem.bytes ++
      (rest.flatMap OptionItem.bytes ++ os.padding.elim [] (0 :: ·)) := by
    rw [OptionList.bytes, hitems, List.flatMap_append, List.append_assoc]
  have hlen := congrArg List.length hbytes
  rw [List.length_append] at hlen
  refine (returns_optionRound (by omega) (by omega)).mono ?_
  intro r hstep
  cases rest with
  | nil =>
      rw [hbytes] at hstep
      obtain ⟨s, rfl, hcarried⟩ := hstep.ends hpass
      have hos : os = ⟨front, os.padding⟩ := by
        rw [← List.append_nil front, ← hitems]
      rw [hos]
      exact hcarried
  | cons item rest =>
      have hmoves := hstep
      rw [List.flatMap_cons, List.append_assoc] at hbytes hlen
      rw [List.length_append] at hlen
      rw [hbytes] at hstep
      obtain ⟨o', rfl, hnext⟩ := hstep.passes (by omega)
      obtain ⟨hmove, hin, hcount⟩ := hmoves.moves
      refine ⟨⟨?_, front ++ [item], rest, ?_, ?_, hnext front hpass⟩, ?_⟩
      · dsimp only at hcount hmove ⊢
        omega
      · rw [hitems, List.append_assoc]
        rfl
      · rw [List.flatMap_append, List.length_append, List.flatMap_singleton]
      · dsimp only at hmove hin ⊢
        omega

end Options

theorem hexEncode_inj {a b : List UInt8} (h : TlsHello.hexEncode a = TlsHello.hexEncode b) :
    a = b := by
  have hlist := congrArg String.toList h
  rw [TlsHello.hexEncode_toList, TlsHello.hexEncode_toList] at hlist
  clear h
  induction a generalizing b with
  | nil =>
      cases b with
      | nil => rfl
      | cons y b => cases hlist
  | cons x a ih =>
      cases b with
      | nil => cases hlist
      | cons y b =>
          rw [List.flatMap_cons, List.flatMap_cons] at hlist
          obtain ⟨hhead, hrest⟩ := List.append_inj hlist rfl
          have hx := x.toNat_lt
          have hy := y.toNat_lt
          have hhigh := Text.digitChar_inj (by omega) (by omega) (List.cons.inj hhead).1
          have hlow := Text.digitChar_inj (by omega) (by omega)
            (List.cons.inj (List.cons.inj hhead).2).1
          have hxy : x = y := UInt8.toNat_inj.mp (by omega)
          rw [hxy, ih hrest]

structure Spells (tcp : List UInt8) (s : Segment) : Prop where
  srcPort : u16At tcp 0 = s.srcPort
  dstPort : u16At tcp 2 = s.dstPort
  seq : u32At tcp 4 = s.seq
  window : u16At tcp 14 = s.window
  options : optionArea tcp = s.options.bytes

def View.Holds (v : View) (s : Segment) (ttl : Option UInt8) : Prop :=
  v.Accepts ∧ Spells v.tcp s ∧ v.ttl = ttl

theorem Reads.recovered_iff {tcp : List UInt8} {info : TcpSynInfo} (h : Reads tcp info)
    (s : Segment) (ttl : Option UInt8) :
    Recovered s ttl info ↔ Spells tcp s ∧ info.ipTtl = ttl := by
  constructor
  · intro hrec
    refine ⟨⟨?_, ?_, ?_, ?_, ?_⟩, hrec.ttl⟩
    · exact Option.some.inj (h.srcPort.symm.trans hrec.srcPort)
    · exact Option.some.inj (h.dstPort.symm.trans hrec.dstPort)
    · exact Option.some.inj (h.seq.symm.trans hrec.seq)
    · exact Option.some.inj (h.window.symm.trans hrec.window)
    · have hraw := h.raw.symm.trans hrec.raw
      split_ifs at hraw with harea hnone hnone
      · rw [harea, hnone]
      · exact hexEncode_inj (Option.some.inj hraw)
  · rintro ⟨hspell, httl⟩
    have hoptions := h.options
    rw [hspell.options] at hoptions
    refine ⟨?_, ?_, ?_, ?_, httl, ?_, (returns_walk_carried s.options s.fits).of_eq hoptions⟩
    · rw [h.srcPort, hspell.srcPort]
    · rw [h.dstPort, hspell.dstPort]
    · rw [h.seq, hspell.seq]
    · rw [h.window, hspell.window]
    · rw [h.raw, hspell.options]

def Recovers (H : Hashes) (frame : List UInt8) (s : Segment) (ttl : Option UInt8) : Prop :=
  ∃ info, parseTcpSynPacket H frame = .ok (some info) ∧ Recovered s ttl info

theorem recovers_iff (H : Hashes) {frame : List UInt8} (hfits : frame.length < 2 ^ 63)
    (s : Segment) (ttl : Option UInt8) :
    Recovers H frame s ttl ↔ (viewOf frame).Holds s ttl := by
  rcases returns_parseTcpSynPacket hfits with ⟨o, ho, hview⟩
  unfold Recovers
  rw [ho]
  constructor
  · rintro ⟨info, hinfo, hrec⟩
    cases hinfo
    obtain ⟨hspell, httl⟩ := (hview.2.1.recovered_iff s ttl).mp hrec
    exact ⟨hview.1, hspell, hview.2.2.symm.trans httl⟩
  · rintro ⟨haccept, hspell, httl⟩
    cases o with
    | none => exact absurd haccept hview
    | some info =>
        refine ⟨info, rfl, (hview.2.1.recovered_iff s ttl).mpr ⟨hspell, ?_⟩⟩
        exact hview.2.2.trans httl

namespace Segment

variable (s : Segment) (rest : List UInt8)

def AckClear : Prop := s.flags &&& 0x10 = 0

theorem length_bytes : s.bytes.length = 20 + s.options.bytes.length := by
  unfold bytes
  simp only [List.length_append, List.length_cons, length_beBytes, length_bytesOf]
  omega

theorem dataOff_bytes : dataOff (s.bytes ++ rest) = 20 + s.options.bytes.length := by
  have hfits := s.fits
  have haligned := s.aligned
  have hreserved := s.reserved.isLt
  have hbyte : byteAt (s.bytes ++ rest) 12 =
      (UInt8.ofNat ((5 + s.options.bytes.length / 4) * 16 + s.reserved.toNat)).toNat := rfl
  rw [dataOff, hbyte, UInt8.toNat_ofNat', Nat.mod_eq_of_lt (by omega)]
  omega

theorem seq_bytes : u32At (s.bytes ++ rest) 4 = s.seq := by
  have hseq := s.seq.toNat_lt
  change UInt32.ofNat (valueOf (bytesOf 4 s.seq.toNat)) = s.seq
  rw [valueOf_bytesOf, Nat.mod_eq_of_lt hseq, UInt32.ofNat_toNat]

theorem spells_bytes : Spells (s.bytes ++ rest) s := by
  refine ⟨ofNat_toNat_pair s.srcPort, ofNat_toNat_pair s.dstPort, s.seq_bytes rest,
    ofNat_toNat_pair s.window, ?_⟩
  have harea : (s.bytes ++ rest).drop 20 = s.options.bytes ++ rest := rfl
  rw [optionArea, dataOff_bytes, harea, Nat.add_sub_cancel_left, List.take_left]

theorem readable_iff : Readable (s.bytes ++ rest) ↔ s.AckClear := by
  constructor
  · intro h
    exact h.syn.2
  · intro hack
    refine ⟨?_, ?_, s.syn, hack⟩
    · rw [List.length_append, length_bytes]
      omega
    · rw [dataOff_bytes, List.length_append, length_bytes]
      omega

end Segment

/-! ## The headers before it -/

theorem View.holds_segment {v : View} {s : Segment} {ttl : UInt8} (rest : List UInt8)
    (hguard : v.guard) (htcp : v.tcp = s.bytes ++ rest) (httl : v.ttl = some ttl) :
    v.Holds s (some ttl) ↔ s.AckClear := by
  unfold Holds Accepts
  rw [htcp, s.readable_iff]
  exact ⟨fun h => h.1.2, fun h => ⟨⟨hguard, h⟩, s.spells_bytes rest, httl⟩⟩

section Headers

variable (s : Segment) (trailer : List UInt8)

theorem Ipv4Header.length_bytes (h : Ipv4Header) : h.bytes.length = 20 + h.options.length := by
  unfold bytes
  simp only [List.length_append, List.length_cons, length_beBytes, length_bytesOf]
  omega

theorem Ipv4Header.byteAt_bytes (h : Ipv4Header) (rest : List UInt8) :
    byteAt (h.bytes ++ rest) 0 = 4 * 16 + (5 + h.options.length / 4) := by
  have hfits := h.fits
  change (UInt8.ofNat _).toNat = _
  rw [UInt8.toNat_ofNat', Nat.mod_eq_of_lt (by omega)]

theorem Ipv4Header.holds_iff (h : Ipv4Header) :
    (ipv4View (h.bytes ++ (s.bytes ++ trailer))).Holds s (some h.ttl) ↔ s.AckClear := by
  have hfits := h.fits
  have haligned := h.aligned
  have hlen : headerLen (h.bytes ++ (s.bytes ++ trailer)) = h.bytes.length := by
    rw [headerLen, h.byteAt_bytes, h.length_bytes]
    omega
  refine View.holds_segment trailer ⟨?_, ?_, rfl⟩ ?_ rfl
  · rw [List.length_append, h.length_bytes]
    omega
  · rw [hlen, List.length_append, List.length_append, s.length_bytes]
    omega
  · change (h.bytes ++ (s.bytes ++ trailer)).drop _ = _
    rw [hlen, List.drop_left]

theorem Ipv6Header.length_bytes (h : Ipv6Header) : h.bytes.length = 40 := by
  unfold bytes
  simp only [List.length_append, List.length_cons, length_beBytes, length_bytesOf]

theorem Ipv6Header.version_bytes (h : Ipv6Header) (rest : List UInt8) :
    version (h.bytes ++ rest) = 6 := by
  have hclass := h.trafficClass.toNat_lt
  have hlabel := h.flowLabel.isLt
  change (UInt8.ofNat ((6 * 2 ^ 28 + h.trafficClass.toNat * 2 ^ 20 + h.flowLabel.toNat) /
    2 ^ 8 / 2 ^ 8 / 2 ^ 8 % 2 ^ 8)).toNat / 16 = 6
  rw [UInt8.toNat_ofNat']
  omega

theorem Ipv6Header.holds_iff (h : Ipv6Header) :
    (ipv6View (h.bytes ++ (s.bytes ++ trailer))).Holds s (some h.hopLimit) ↔ s.AckClear := by
  refine View.holds_segment trailer ⟨?_, rfl⟩ ?_ rfl
  · rw [List.length_append, List.length_append, h.length_bytes, s.length_bytes]
    omega
  · rw [ipv6View_tcp, List.drop_left' h.length_bytes]

variable {frame : List UInt8} (header : IpHeader)

theorem IpHeader.version_bytes (rest : List UInt8) :
    version (header.bytes ++ rest) = 4 ∨ version (header.bytes ++ rest) = 6 := by
  cases header with
  | v4 h =>
      have hfits := h.fits
      left
      unfold version
      rw [bytes, h.byteAt_bytes]
      omega
  | v6 h => exact Or.inr (h.version_bytes rest)

theorem payload_self (h : version frame = 4 ∨ version frame = 6 ∨ frame.length ≤ 54) :
    payload frame = frame := if_pos h

theorem IpHeader.holds_iff (hpayload : payload frame = header.bytes ++ (s.bytes ++ trailer)) :
    (viewOf frame).Holds s (some header.ttl) ↔ s.AckClear := by
  unfold viewOf
  rw [hpayload]
  cases header with
  | v4 h =>
      have hfits := h.fits
      have hversion : version ((IpHeader.v4 h).bytes ++ (s.bytes ++ trailer)) = 4 := by
        unfold version
        rw [bytes, h.byteAt_bytes]
        omega
      rw [if_pos hversion]
      exact h.holds_iff s trailer
  | v6 h =>
      have hversion : version ((IpHeader.v6 h).bytes ++ (s.bytes ++ trailer)) = 6 :=
        h.version_bytes _
      rw [if_neg (by omega), if_pos hversion]
      exact h.holds_iff s trailer

end Headers

/-! ## Bare segments and Ethernet frames -/

section Guessing

variable (s : Segment) (trailer : List UInt8)

theorem Segment.version_bytes (rest : List UInt8) :
    version (s.bytes ++ rest) = s.srcPort.toNat / 4096 := by
  have hport := s.srcPort.toNat_lt
  change (UInt8.ofNat (s.srcPort.toNat / 256)).toNat / 16 = _
  rw [UInt8.toNat_ofNat']
  omega

theorem Segment.not_ethertype (rest : List UInt8) :
    u16At (s.bytes ++ rest) 12 ≠ 0x0800 ∧ u16At (s.bytes ++ rest) 12 ≠ 0x86dd ∧
      u16At (s.bytes ++ rest) 12 ≠ 0x8100 := by
  have hfits := s.fits
  have hreserved := s.reserved.isLt
  have hflags := s.flags.toNat_lt
  have hsyn := s.syn
  have htype : (u16At (s.bytes ++ rest) 12).toNat =
      ((5 + s.options.bytes.length / 4) * 16 + s.reserved.toNat) * 256 + s.flags.toNat := by
    change (UInt16.ofNat ((UInt8.ofNat ((5 + s.options.bytes.length / 4) * 16 +
      s.reserved.toNat)).toNat * 256 + s.flags.toNat)).toNat = _
    rw [UInt16.toNat_ofNat', UInt8.toNat_ofNat']
    omega
  have hflag (n : UInt8) (hn : n &&& 0x02 = 0) : s.flags.toNat ≠ n.toNat := by
    intro h
    rw [UInt8.toNat_inj.mp h] at hsyn
    exact hsyn hn
  have hdd : s.flags.toNat ≠ 0xdd := hflag 0xdd (by decide)
  have hzero : s.flags.toNat ≠ 0 := hflag 0 (by decide)
  refine ⟨?_, ?_, ?_⟩
  · intro h
    rw [h] at htype
    change 0x0800 = _ at htype
    omega
  · intro h
    rw [h] at htype
    change 0x86dd = _ at htype
    omega
  · intro h
    rw [h] at htype
    change 0x8100 = _ at htype
    omega

theorem ipv4View_not_bare {ip : List UInt8} : ¬(ipv4View ip).Holds s none := by
  rintro ⟨⟨⟨hlong, -⟩, -⟩, -, httl⟩
  change ip[8]? = none at httl
  rw [List.getElem?_eq_none_iff] at httl
  omega

theorem ipv6View_not_bare {ip : List UInt8} : ¬(ipv6View ip).Holds s none := by
  rintro ⟨⟨⟨hlong, -⟩, -⟩, -, httl⟩
  change ip[7]? = none at httl
  rw [List.getElem?_eq_none_iff] at httl
  omega

theorem bareView_not_ip {frame : List UInt8} {ttl : UInt8} :
    ¬(bareView frame).Holds s (some ttl) := fun h => nomatch h.2.2

theorem Segment.holds_bare_iff :
    (viewOf (s.bytes ++ trailer)).Holds s none ↔
      s.AckClear ∧ s.srcPort.toNat / 4096 ≠ 4 ∧ s.srcPort.toNat / 4096 ≠ 6 := by
  have hversion := s.version_bytes trailer
  have hpayload : payload (s.bytes ++ trailer) = s.bytes ++ trailer := by
    have htype := s.not_ethertype trailer
    unfold payload
    split_ifs with hplain hip htag
    · rfl
    · exact absurd hip (by tauto)
    · exact absurd htag htype.2.2
    · rfl
  unfold viewOf
  rw [hpayload, hversion]
  split_ifs with hfour hsix
  · exact iff_of_false (ipv4View_not_bare s) fun h => h.2.1 hfour
  · exact iff_of_false (ipv6View_not_bare s) fun h => h.2.2 hsix
  · constructor
    · intro h
      exact ⟨(s.readable_iff trailer).mp h.1.2, hfour, hsix⟩
    · intro h
      refine ⟨⟨?_, (s.readable_iff trailer).mpr h.1⟩, s.spells_bytes trailer, rfl⟩
      change 20 ≤ dataOff (s.bytes ++ trailer)
      rw [s.dataOff_bytes]
      omega

variable (e : EthernetHeader) (header : IpHeader)

theorem EthernetHeader.version_bytes (ethertype : UInt16) (rest : List UInt8) :
    version (e.bytes ethertype ++ rest) = e.dst.toNat / 2 ^ 44 := by
  have hdst := e.dst.isLt
  change (UInt8.ofNat (e.dst.toNat / 2 ^ 8 / 2 ^ 8 / 2 ^ 8 / 2 ^ 8 / 2 ^ 8 % 2 ^ 8)).toNat / 16 = _
  rw [UInt8.toNat_ofNat']
  omega

theorem EthernetHeader.payload_bytes {rest : List UInt8}
    (hfour : e.dst.toNat / 2 ^ 44 ≠ 4) (hsix : e.dst.toNat / 2 ^ 44 ≠ 6)
    (hlong : 54 < (e.bytes header.ethertype ++ rest).length) :
    payload (e.bytes header.ethertype ++ rest) = rest := by
  have hversion := e.version_bytes header.ethertype rest
  unfold payload
  rw [hversion, if_neg (by omega)]
  obtain ⟨dst, src, vlan⟩ := e
  cases vlan with
  | none =>
      have htype : u16At ((EthernetHeader.mk dst src none).bytes header.ethertype ++ rest) 12 =
          header.ethertype := ofNat_toNat_pair header.ethertype
      have hip : header.ethertype = 0x0800 ∨ header.ethertype = 0x86dd := by
        cases header with
        | v4 h => exact Or.inl rfl
        | v6 h => exact Or.inr rfl
      rw [htype, if_pos hip]
      rfl
  | some tag =>
      have htype : u16At ((EthernetHeader.mk dst src (some tag)).bytes header.ethertype ++ rest)
          12 = 0x8100 := ofNat_toNat_pair 0x8100
      have hno : ¬((0x8100 : UInt16) = 0x0800 ∨ (0x8100 : UInt16) = 0x86dd) := by decide
      rw [htype, if_neg hno, if_pos rfl]
      rfl

theorem EthernetHeader.holds_iff :
    (viewOf (e.bytes header.ethertype ++ (header.bytes ++ (s.bytes ++ trailer)))).Holds s
        (some header.ttl) ↔
      if e.dst.toNat / 2 ^ 44 = 4 then
        (ipv4View (e.bytes header.ethertype ++ (header.bytes ++ (s.bytes ++ trailer)))).Holds s
          (some header.ttl)
      else if e.dst.toNat / 2 ^ 44 = 6 then
        (ipv6View (e.bytes header.ethertype ++ (header.bytes ++ (s.bytes ++ trailer)))).Holds s
          (some header.ttl)
      else s.AckClear ∧
        54 < (e.bytes header.ethertype ++ (header.bytes ++ (s.bytes ++ trailer))).length := by
  have hversion := e.version_bytes header.ethertype (header.bytes ++ (s.bytes ++ trailer))
  set frame := e.bytes header.ethertype ++ (header.bytes ++ (s.bytes ++ trailer)) with hframe
  rw [← hversion]
  split_ifs with hfour hsix
  · unfold viewOf
    rw [payload_self (Or.inl hfour), if_pos hfour]
  · unfold viewOf
    rw [payload_self (Or.inr (Or.inl hsix)), if_neg hfour, if_pos hsix]
  · rcases Nat.lt_or_ge 54 frame.length with hlong | hshort
    · rw [hversion] at hfour hsix
      have hpayload := e.payload_bytes header hfour hsix hlong
      exact (header.holds_iff s trailer hpayload).trans (and_iff_left hlong).symm
    · unfold viewOf
      rw [payload_self (Or.inr (Or.inr hshort)), if_neg hfour, if_neg hsix]
      exact iff_of_false (bareView_not_ip s) fun h => absurd h.2 (by omega)

end Guessing

/-! ## What is recovered -/

/-- No acknowledgement, and nothing at the front that looks like what it is not: a
bare segment's source port, or the address an Ethernet frame is for, like a
version of IP; an Ethernet frame like a segment, when it is short.  Behind such an
address, the bytes of the addresses have to spell the same segment. -/
def Packet.Seen (p : Packet) : Prop :=
  match p.framing with
  | .bare => p.segment.AckClear ∧ p.segment.srcPort.toNat / 4096 ≠ 4 ∧
      p.segment.srcPort.toNat / 4096 ≠ 6
  | .ip _ => p.segment.AckClear
  | .ethernet e header =>
      if e.dst.toNat / 2 ^ 44 = 4 then (ipv4View p.bytes).Holds p.segment (some header.ttl)
      else if e.dst.toNat / 2 ^ 44 = 6 then (ipv6View p.bytes).Holds p.segment (some header.ttl)
      else p.segment.AckClear ∧ 54 < p.bytes.length

theorem Packet.holds_iff (p : Packet) :
    (viewOf p.bytes).Holds p.segment p.framing.ttl ↔ p.Seen := by
  obtain ⟨framing, s, trailer, hfits⟩ := p
  cases framing with
  | bare => exact s.holds_bare_iff trailer
  | ip header =>
      refine header.holds_iff s trailer ?_
      have hversion := header.version_bytes (s.bytes ++ trailer)
      exact payload_self (hversion.imp_right Or.inl)
  | ethernet e header =>
      unfold Seen Packet.bytes Framing.bytes
      dsimp only
      rw [List.append_assoc]
      exact e.holds_iff s trailer header

/-- Every packet is read without a fault, and a SYN is recovered from exactly the
packets in which it is seen. -/
theorem tcp_syn_law (H : Hashes) :
    (∀ frame : Buffer, ∃ o, parseTcpSynPacket H frame.bytes = .ok o) ∧
      ∀ p : Packet, Recovers H p.bytes p.segment p.framing.ttl ↔ p.Seen := by
  constructor
  · intro frame
    rcases returns_parseTcpSynPacket frame.fits with ⟨o, ho, -⟩
    exact ⟨o, ho⟩
  · intro p
    exact (recovers_iff H p.fits p.segment p.framing.ttl).trans p.holds_iff

def plainSyn (srcPort : UInt16) : Segment where
  srcPort := srcPort
  dstPort := 443
  seq := 1
  ack := 0
  reserved := 0
  flags := 0x02
  window := 64240
  checksum := 0
  urgent := 0
  options := ⟨[], none⟩
  syn := by decide
  aligned := rfl
  fits := by decide

def plainIpv4 : IpHeader := .v4 {
  tos := 0
  totalLen := 40
  id := 1
  flagsFrag := 0x4000
  ttl := 64
  checksum := 0
  src := 0xc0a80102
  dst := 0x0a000001
  options := []
  aligned := rfl
  fits := by decide }

def fromPort16384 : Packet := ⟨.bare, plainSyn 16384, [], by decide⟩

def unpaddedFrame : Packet :=
  ⟨.ethernet ⟨0x020000000001, 0x020000000002, none⟩ plainIpv4, plainSyn 50000, [], by decide⟩

def frameTo40 : Packet :=
  ⟨.ethernet ⟨0x40b076000001, 0x020000000002, none⟩ plainIpv4, plainSyn 50000, [0], by decide⟩

def sampleHashes : Hashes := ⟨fun _ => Vector.replicate 32 0, fun _ => Vector.replicate 16 0⟩

/-- Three plain SYNs of which nothing is returned. -/
theorem unseen_syns :
    parseTcpSynPacket sampleHashes fromPort16384.bytes = .ok none ∧
      parseTcpSynPacket sampleHashes unpaddedFrame.bytes = .ok none ∧
      parseTcpSynPacket sampleHashes frameTo40.bytes = .ok none ∧
      ¬∀ p : Packet, p.segment.AckClear →
        Recovers sampleHashes p.bytes p.segment p.framing.ttl := by
  refine ⟨rfl, rfl, rfl, ?_⟩
  intro hall
  obtain ⟨info, hinfo, -⟩ := hall fromPort16384 rfl
  have hnone : parseTcpSynPacket sampleHashes fromPort16384.bytes = .ok none := rfl
  rw [hnone] at hinfo
  cases hinfo

end TcpSyn

end GrServer
