import GrServer.IpDisplay
import GrServer.Ja4Laws
import GrServer.QuicDatagrams

/-!
# TCP SYN packets

A packet is taken for IPv4, IPv6, Ethernet or a bare TCP header by its first
bytes, and the options of the TCP header are walked by kind and length.
-/

namespace GrServer

open Faults QuicFrames QuicDatagrams WireBytes

namespace TcpSyn

structure TcpOptions where
  tcpMss : Option UInt16 := none
  tcpWscale : Option UInt8 := none
  tcpSackOk : Bool := false
  tcpTimestamp : Bool := false
  tcpTsVal : Option UInt32 := none
  tcpTsEcr : Option UInt32 := none
  tcpNopCount : UInt8 := 0
  tcpEol : Bool := false
  optionOrder : List UInt8 := []

structure TcpSynInfo extends TcpOptions where
  parseOk : Bool := false
  ipVersion : Option UInt8 := none
  srcIp : Option String := none
  dstIp : Option String := none
  srcPort : Option UInt16 := none
  dstPort : Option UInt16 := none
  ipTtl : Option UInt8 := none
  ipTos : Option UInt8 := none
  ipTotalLen : Option UInt16 := none
  ipId : Option UInt16 := none
  ipDf : Option Bool := none
  ipMf : Option Bool := none
  tcpSeq : Option UInt32 := none
  tcpAck : Option UInt32 := none
  tcpDataOff : Option UInt8 := none
  tcpFlags : Option UInt8 := none
  tcpFlagsStr : Option String := none
  tcpWindow : Option UInt16 := none
  tcpWindowScaled : Option UInt32 := none
  tcpUrgent : Option UInt16 := none
  tcpEce : Bool := false
  tcpCwr : Bool := false
  ipEcn : Option UInt8 := none
  optionRawHex : Option String := none
  optionOrderStr : Option String := none
  p0fSig : Option String := none
  p0fHash : Option String := none
  quirks : Option String := none
  ttlBucket : Option UInt8 := none
  osFamilyHintZh : Option String := none
  optionLayoutCompact : Option String := none
  notes : List String := []
  rawLen : ℕ := 0

/-! ## The TCP header -/

def u32From (b : List UInt8) (i : ℕ) : Run UInt32 := do
  let bytes := [← index b i, ← index b (i + 1), ← index b (i + 2), ← index b (i + 3)]
  return UInt32.ofNat (IpAddr.valueOf bytes)

def flagsStr (f : UInt8) : String :=
  let s := [(0x01, "F"), (0x02, "S"), (0x04, "R"), (0x08, "P"), (0x10, "A"), (0x20, "U"),
    (0x40, "E"), (0x80, "C")].filterMap fun (bit, c) => if f &&& bit ≠ 0 then some c else none
  if s = [] then "-" else String.join s

def increment (n : UInt8) : Run UInt8 :=
  if n.toNat + 1 < 2 ^ 8 then .ok (n + 1) else .error .overflow

def readOption (kind : UInt8) (data : List UInt8) (o : TcpOptions) : Run TcpOptions :=
  if kind = 2 ∧ 2 ≤ data.length then
    return { o with tcpMss := some (← u16From data 0) }
  else if kind = 3 ∧ data ≠ [] then
    return { o with tcpWscale := some (← index data 0) }
  else if kind = 4 then return { o with tcpSackOk := true }
  else if kind = 8 ∧ 8 ≤ data.length then
    return { o with
      tcpTimestamp := true
      tcpTsVal := some (← u32From data 0)
      tcpTsEcr := some (← u32From data 4) }
  else return o

def sizedOption (opts : List UInt8) (i : ℕ) (kind : UInt8) (o : TcpOptions) :
    Run (ForInStep (ℕ × TcpOptions)) := do
  if opts.length ≤ (← add i 1) then return .done (i, o)
  let len := (← index opts (← add i 1)).toNat
  let next ← add i len
  if len < 2 ∨ opts.length < next then return .done (i, o)
  let data ← slice opts (← add i 2) next
  return .yield (next, ← readOption kind data o)

def optionRound (opts : List UInt8) (s : ℕ × TcpOptions) : Run (ForInStep (ℕ × TcpOptions)) := do
  let (i, o) := s
  if ¬i < opts.length then return .done (i, o)
  let kind ← index opts i
  let o : TcpOptions := { o with optionOrder := o.optionOrder ++ [kind] }
  if kind = 0 then return .done (i, { o with tcpEol := true })
  else if kind = 1 then
    return .yield (← add i 1, { o with tcpNopCount := ← increment o.tcpNopCount })
  else sizedOption opts i kind o

def walkOptions (opts : List UInt8) (o : TcpOptions) : Run TcpOptions := do
  let last ← loop (optionRound opts) (opts.length + 1) (0, o)
  return last.2

def optionName (kind : UInt8) : String :=
  if kind = 0 then "eol"
  else if kind = 1 then "nop"
  else if kind = 2 then "mss"
  else if kind = 3 then "ws"
  else if kind = 4 then "sok"
  else if kind = 8 then "ts"
  else kind.toNat.repr

def parseTcpOptions (opts : List UInt8) (info : TcpSynInfo) : Run TcpSynInfo := do
  let o ← walkOptions opts info.toTcpOptions
  return { info with
    toTcpOptions := o
    optionOrderStr := some (",".intercalate (o.optionOrder.map optionName)) }

/-- The record `base_tcp_syn` starts from. -/
def headerInfo (tcp : List UInt8) : Run TcpSynInfo := do
  let flags ← index tcp 13
  return {
    parseOk := true
    srcPort := some (← u16From tcp 0)
    dstPort := some (← u16From tcp 2)
    tcpSeq := some (← u32From tcp 4)
    tcpAck := some (← u32From tcp 8)
    tcpDataOff := some ((← index tcp 12) >>> 4)
    tcpFlags := some flags
    tcpFlagsStr := some (flagsStr flags)
    tcpWindow := some (← u16From tcp 14)
    tcpUrgent := some (← u16From tcp 18)
    tcpEce := flags &&& 0x40 != 0
    tcpCwr := flags &&& 0x80 != 0
    rawLen := tcp.length }

def baseTcpSyn (tcp : List UInt8) : Run (Option TcpSynInfo) := do
  if tcp.length < 20 then return none
  let dataOff := ((← index tcp 12) >>> 4).toNat * 4
  if tcp.length < dataOff then return none
  let info ← headerInfo tcp
  if 20 < dataOff then
    let opts ← slice tcp 20 dataOff
    let raw ← slice opts 0 (min opts.length 40)
    return some (← parseTcpOptions opts
      { info with optionRawHex := some (TlsHello.hexEncode raw) })
  else return some info

def synOnly (f : UInt8) : Prop := f &&& 0x02 ≠ 0 ∧ f &&& 0x10 = 0

instance (f : UInt8) : Decidable (synOnly f) := inferInstanceAs (Decidable (_ ∧ _))

def isSyn (info : TcpSynInfo) : Prop := synOnly (info.tcpFlags.getD 0)

instance (info : TcpSynInfo) : Decidable (isSyn info) := inferInstanceAs (Decidable (synOnly _))

def windowScaled (window : Option UInt16) (wscale : Option UInt8) : Option UInt32 :=
  match window, wscale with
  | some w, some ws => some (w.toUInt32 <<< (min ws 14).toUInt32)
  | some w, none => some w.toUInt32
  | none, _ => none

def quirksOf (info : TcpSynInfo) : List String :=
  [(info.ipDf == some true, "df"),
    (info.ipDf == some false, "!df"),
    (info.tcpSeq == some 0, "seq0"),
    (info.tcpAck != some 0 && info.tcpAck.isSome, "ack+"),
    (info.tcpUrgent.getD 0 != 0, "urg"),
    (decide (3 ≤ info.tcpNopCount), "many_nop"),
    (info.tcpEol, "eol"),
    (!info.tcpTimestamp && info.tcpSackOk, "sack_no_ts"),
    (info.tcpWscale.isNone && info.tcpMss.isSome, "mss_no_ws"),
    (info.tcpEce, "ece"),
    (info.tcpCwr, "cwr"),
    (info.ipEcn.getD 0 != 0, "ip_ecn")].filterMap fun (seen, name) =>
      if seen then some name else none

def ttlBucketOf (ttl : UInt8) : UInt8 :=
  if ttl = 0 then 0 else if ttl ≤ 64 then 64 else if ttl ≤ 128 then 128 else 255

def osFamilyHint (bucket : UInt8) : String :=
  if bucket = 64 then "偏 Linux/macOS/BSD 初始 TTL 族"
  else if bucket = 128 then "偏 Windows 初始 TTL 族或经跳数衰减"
  else if bucket = 255 then "高 TTL / 定制网络栈"
  else "未知"

def p0fSigOf (info : TcpSynInfo) (quirksStr : String) : String :=
  let ver := (info.ipVersion.getD 0).toNat.repr
  let ttl := (info.ipTtl.getD 0).toNat.repr
  let mss := (info.tcpMss.getD 0).toNat.repr
  let wsize := (info.tcpWindow.getD 0).toNat.repr
  let scale := (info.tcpWscale.map fun s => s.toNat.repr).getD "*"
  let olayout := info.optionOrderStr.getD ""
  let df := if info.ipDf = some true then "df" else ""
  ver ++ ":" ++ ttl ++ ":0:" ++ mss ++ ":" ++ wsize ++ "," ++ scale ++ ":" ++ olayout ++ ":" ++
    df ++ ":" ++ quirksStr

def finalizeP0f (H : Hashes) (info : TcpSynInfo) : Run TcpSynInfo := do
  let quirksStr := ",".intercalate (quirksOf info)
  let bucket := ttlBucketOf (info.ipTtl.getD 0)
  let sig := p0fSigOf info quirksStr
  let hash ← hexHead (TlsHello.hexEncode (H.sha256 (Text.asBytes sig)).toList) 16
  return { info with
    tcpWindowScaled := windowScaled info.tcpWindow info.tcpWscale
    optionLayoutCompact :=
      some ("-".intercalate (info.optionOrder.map fun k => k.toNat.repr))
    quirks := some quirksStr
    ttlBucket := some bucket
    osFamilyHintZh := some (osFamilyHint bucket)
    p0fSig := some sig
    p0fHash := some hash
    parseOk := true }

/-! ## The framings -/

def noteBare (info : TcpSynInfo) : TcpSynInfo :=
  { info with notes := info.notes ++ ["parsed bare TCP (no IP header)"] }

def finish (H : Hashes) (base : Option TcpSynInfo) (ipFields : TcpSynInfo → Run TcpSynInfo) :
    Run (Option TcpSynInfo) :=
  match base with
  | none => return none
  | some info =>
      if ¬isSyn info then return none
      else do return some (← finalizeP0f H (← ipFields info))

def parseBareTcpSyn (H : Hashes) (tcp : List UInt8) : Run (Option TcpSynInfo) := do
  if tcp.length < 20 then return none
  let doff := ((← index tcp 12) >>> 4).toNat * 4
  if doff < 20 ∨ tcp.length < doff then return none
  finish H (← baseTcpSyn tcp) fun info => return noteBare info

def dotted (ip : List UInt8) (i : ℕ) : Run String := do
  return ".".intercalate [(← index ip i).toNat.repr, (← index ip (i + 1)).toNat.repr,
    (← index ip (i + 2)).toNat.repr, (← index ip (i + 3)).toNat.repr]

def ipv4Fields (ip : List UInt8) (info : TcpSynInfo) : Run TcpSynInfo := do
  let flagsFrag ← u16From ip 6
  let tos ← index ip 1
  return { info with
    ipVersion := some 4
    ipTtl := some (← index ip 8)
    ipTos := some tos
    ipEcn := some (tos &&& 0x03)
    ipTotalLen := some (← u16From ip 2)
    ipId := some (← u16From ip 4)
    ipDf := some (flagsFrag &&& 0x4000 != 0)
    ipMf := some (flagsFrag &&& 0x2000 != 0)
    srcIp := some (← dotted ip 12)
    dstIp := some (← dotted ip 16) }

def parseIpv4TcpSyn (H : Hashes) (ip : List UInt8) : Run (Option TcpSynInfo) := do
  if ip.length < 20 then return none
  let ihl := ((← index ip 0) &&& 0x0f).toNat * 4
  if ip.length < ihl + 20 then return none
  if (← index ip 9) ≠ 6 then return none
  let tcp ← slice ip ihl ip.length
  finish H (← baseTcpSyn tcp) (ipv4Fields ip)

/-- The groups of `chunks(2)`, with no group left out. -/
def formatIpv6 (b : List UInt8) : String :=
  ":".intercalate ((u16List b).map fun g => TlsHello.digits 16 1 g.toNat)

def ipv6Fields (ip : List UInt8) (info : TcpSynInfo) : Run TcpSynInfo := do
  let tc := (((← index ip 0) &&& 0x0f) <<< 4) ||| (((← index ip 1) &&& 0xf0) >>> 4)
  return { info with
    ipVersion := some 6
    ipTtl := some (← index ip 7)
    ipTos := some tc
    ipEcn := some (tc &&& 0x03)
    srcIp := some (formatIpv6 (← slice ip 8 24))
    dstIp := some (formatIpv6 (← slice ip 24 40)) }

def parseIpv6TcpSyn (H : Hashes) (ip : List UInt8) : Run (Option TcpSynInfo) := do
  if ip.length < 40 + 20 then return none
  if (← index ip 6) ≠ 6 then return none
  let tcp ← slice ip 40 ip.length
  finish H (← baseTcpSyn tcp) (ipv6Fields ip)

def skipEthernet (frame : List UInt8) : Run (List UInt8) := do
  let first ← index frame 0
  if first = 0x45 ∨ first >>> 4 = 4 ∨ first >>> 4 = 6 then return frame
  else if 14 + 40 < frame.length then
    let ethertype ← u16From frame 12
    if ethertype = 0x0800 ∨ ethertype = 0x86dd then slice frame 14 frame.length
    else if ethertype = 0x8100 ∧ 18 < frame.length then slice frame 18 frame.length
    else return frame
  else return frame

def parseTcpSynPacket (H : Hashes) (frame : List UInt8) : Run (Option TcpSynInfo) := do
  if frame.length < 20 then return none
  let ip ← skipEthernet frame
  let ver := (← index ip 0) >>> 4
  if ver = 4 then parseIpv4TcpSyn H ip
  else if ver = 6 then parseIpv6TcpSyn H ip
  else parseBareTcpSyn H frame

/-! ## One option -/

/-- `u32::from_be_bytes`; the callers check the end first. -/
def u32At (b : List UInt8) (i : ℕ) : UInt32 := UInt32.ofNat (IpAddr.valueOf ((b.drop i).take 4))

theorem returns_u32From {b : List UInt8} {i : ℕ} (h : i + 3 < b.length) :
    Returns (u32From b i) (· = u32At b i) := by
  refine (returns_index (by omega)).bind fun w hw => ?_
  refine (returns_index (by omega)).bind fun x hx => ?_
  refine (returns_index (by omega)).bind fun y hy => ?_
  refine (returns_index h).bind fun z hz => ?_
  refine Returns.pure ?_
  have hbytes : (b.drop i).take 4 = [w, x, y, z] := by
    rw [List.drop_eq_getElem_cons (by omega), List.drop_eq_getElem_cons (by omega),
      List.drop_eq_getElem_cons (by omega), List.drop_eq_getElem_cons (by omega)]
    rw [List.getElem?_eq_some_iff] at hw hx hy hz
    rw [← hw.2, ← hx.2, ← hy.2, ← hz.2]
    rfl
  rw [u32At, hbytes]

def mssOf (kind : UInt8) (data : List UInt8) : Option UInt16 :=
  if kind = 2 ∧ 2 ≤ data.length then some (u16At data 0) else none

def wscaleOf (kind : UInt8) (data : List UInt8) : Option UInt8 :=
  if kind = 3 then data.head? else none

def timestampsOf (kind : UInt8) (data : List UInt8) : Option (UInt32 × UInt32) :=
  if kind = 8 ∧ 8 ≤ data.length then some (u32At data 0, u32At data 4) else none

structure ReadsOption (kind : UInt8) (data : List UInt8) (o o' : TcpOptions) : Prop where
  mss : o'.tcpMss = (mssOf kind data).or o.tcpMss
  wscale : o'.tcpWscale = (wscaleOf kind data).or o.tcpWscale
  sackOk : o'.tcpSackOk = (o.tcpSackOk || kind == 4)
  timestamp : o'.tcpTimestamp = ((timestampsOf kind data).isSome || o.tcpTimestamp)
  tsVal : o'.tcpTsVal = ((timestampsOf kind data).map Prod.fst).or o.tcpTsVal
  tsEcr : o'.tcpTsEcr = ((timestampsOf kind data).map Prod.snd).or o.tcpTsEcr
  nops : o'.tcpNopCount = o.tcpNopCount
  eol : o'.tcpEol = o.tcpEol
  order : o'.optionOrder = o.optionOrder

theorem returns_readOption (kind : UInt8) {data : List UInt8} (hfits : data.length < 2 ^ 63)
    (o : TcpOptions) : Returns (readOption kind data o) (ReadsOption kind data o) := by
  unfold readOption
  refine Returns.ite ?_ fun hmss => Returns.ite ?_ fun hwscale => Returns.ite ?_ fun hsack =>
    Returns.ite ?_ fun hts => Returns.pure ?_
  · rintro ⟨rfl, hlen⟩
    refine (returns_u16From hfits (by omega)).bind ?_
    rintro _ rfl
    refine Returns.pure ?_
    constructor <;> simp [mssOf, wscaleOf, timestampsOf, hlen]
  · rintro ⟨rfl, hne⟩
    refine (returns_index (List.length_pos_iff_ne_nil.mpr hne)).bind ?_
    intro x hx
    refine Returns.pure ?_
    rw [← List.head?_eq_getElem?] at hx
    constructor <;> simp [mssOf, wscaleOf, timestampsOf, hx]
  · rintro rfl
    refine Returns.pure ?_
    constructor <;> simp [mssOf, wscaleOf, timestampsOf]
  · rintro ⟨rfl, hlen⟩
    refine (returns_u32From (by omega)).bind ?_
    rintro _ rfl
    refine (returns_u32From (by omega)).bind ?_
    rintro _ rfl
    refine Returns.pure ?_
    constructor <;> simp [mssOf, wscaleOf, timestampsOf, hlen]
  · have hhead : wscaleOf kind data = none := by
      unfold wscaleOf
      split_ifs with hkind
      · rw [not_not.mp fun hne => hwscale ⟨hkind, hne⟩, List.head?_nil]
      · rfl
    constructor <;> simp [mssOf, timestampsOf, hmss, hhead, hsack, hts]

inductive OptionStep (opts : List UInt8) (i : ℕ) (o : TcpOptions) :
    ForInStep (ℕ × TcpOptions) → Prop where
  | stop (hend : opts.length ≤ i) : OptionStep opts i o (.done (i, o))
  | eol (hkind : opts[i]? = some 0) :
      OptionStep opts i o
        (.done (i, { o with optionOrder := o.optionOrder ++ [0], tcpEol := true }))
  | nop (hkind : opts[i]? = some 1) (hnops : o.tcpNopCount.toNat + 1 < 2 ^ 8) :
      OptionStep opts i o
        (.yield (i + 1, { o with
          optionOrder := o.optionOrder ++ [1]
          tcpNopCount := o.tcpNopCount + 1 }))
  | broken (kind : UInt8) (hkind : opts[i]? = some kind) (hsized : 2 ≤ kind)
      (hlen : ∀ len, opts[i + 1]? = some len → len.toNat < 2 ∨ opts.length < i + len.toNat) :
      OptionStep opts i o (.done (i, { o with optionOrder := o.optionOrder ++ [kind] }))
  | sized (kind len : UInt8) (o' : TcpOptions) (hkind : opts[i]? = some kind) (hsized : 2 ≤ kind)
      (hlen : opts[i + 1]? = some len) (htwo : 2 ≤ len.toNat)
      (hroom : i + len.toNat ≤ opts.length)
      (hread : ReadsOption kind ((opts.drop (i + 2)).take (len.toNat - 2))
        { o with optionOrder := o.optionOrder ++ [kind] } o') :
      OptionStep opts i o (.yield (i + len.toNat, o'))

theorem two_le_of_ne {kind : UInt8} (h₀ : kind ≠ 0) (h₁ : kind ≠ 1) : 2 ≤ kind := by
  rw [Ne, ← UInt8.toNat_inj] at h₀ h₁
  rw [UInt8.le_iff_toNat_le]
  have h₀' : kind.toNat ≠ 0 := h₀
  have h₁' : kind.toNat ≠ 1 := h₁
  have htwo : (2 : UInt8).toNat = 2 := rfl
  omega

section Walk

variable {opts : List UInt8} {i : ℕ} {o : TcpOptions}

theorem returns_sizedOption {kind : UInt8} (hfits : opts.length < 2 ^ 63)
    (hkind : opts[i]? = some kind) (hsized : 2 ≤ kind) :
    Returns (sizedOption opts i kind { o with optionOrder := o.optionOrder ++ [kind] })
      (OptionStep opts i o) := by
  have hi := (List.getElem?_eq_some_iff.mp hkind).1
  unfold sizedOption
  refine (returns_add (by omega)).bind ?_
  rintro _ rfl
  refine Returns.ite ?_ fun hmore => ?_
  · intro hend
    refine Returns.pure (OptionStep.broken kind hkind hsized ?_)
    intro len hlen
    rw [List.getElem?_eq_none hend] at hlen
    cases hlen
  refine (returns_add (by omega)).bind ?_
  rintro _ rfl
  refine (returns_index (by omega)).bind ?_
  intro len hlen
  have hbyte := len.toNat_lt
  refine (returns_add (by omega)).bind ?_
  rintro _ rfl
  refine Returns.ite ?_ fun hroom => ?_
  · intro hbad
    refine Returns.pure (OptionStep.broken kind hkind hsized ?_)
    intro len' hlen'
    rw [hlen] at hlen'
    rwa [← Option.some.inj hlen']
  refine (returns_add (by omega)).bind ?_
  rintro _ rfl
  refine (returns_slice (by omega) (by omega)).bind ?_
  rintro data ⟨rfl, hdata⟩
  refine (returns_readOption kind (by omega) _).bind ?_
  intro o' ho'
  have hwidth : i + len.toNat - (i + 2) = len.toNat - 2 := by omega
  rw [hwidth] at ho'
  exact Returns.pure (OptionStep.sized kind len o' hkind hsized hlen (by omega) (by omega) ho')

theorem returns_optionRound (hfits : opts.length < 2 ^ 63)
    (hnops : o.tcpNopCount.toNat + 1 < 2 ^ 8) :
    Returns (optionRound opts (i, o)) (OptionStep opts i o) := by
  unfold optionRound
  refine Returns.ite ?_ fun hi => ?_
  · intro hend
    exact Returns.pure (OptionStep.stop (not_lt.mp hend))
  refine (returns_index (not_not.mp hi)).bind ?_
  intro kind hkind
  refine Returns.ite ?_ fun hzero => Returns.ite ?_ fun hone => ?_
  · rintro rfl
    exact Returns.pure (OptionStep.eol hkind)
  · rintro rfl
    refine (returns_add (by omega)).bind ?_
    rintro _ rfl
    have hinc : Returns (increment o.tcpNopCount) (· = o.tcpNopCount + 1) := ⟨_, if_pos hnops, rfl⟩
    refine hinc.bind ?_
    rintro _ rfl
    exact Returns.pure (OptionStep.nop hkind hnops)
  · exact returns_sizedOption hfits hkind (two_le_of_ne hzero hone)

theorem OptionStep.moves {s : ℕ × TcpOptions} (h : OptionStep opts i o (.yield s)) :
    i < s.1 ∧ s.1 ≤ opts.length ∧ s.2.tcpNopCount.toNat ≤ o.tcpNopCount.toNat + 1 := by
  cases h with
  | nop hkind hnops =>
      have hlt := (List.getElem?_eq_some_iff.mp hkind).1
      refine ⟨Nat.lt_succ_self i, hlt, ?_⟩
      rw [UInt8.toNat_add]
      exact Nat.mod_le _ _
  | sized kind len o' hkind hsized hlen htwo hroom hread =>
      refine ⟨by dsimp only; omega, hroom, ?_⟩
      rw [hread.nops]
      exact Nat.le_succ _

theorem returns_walkOptions (hfits : opts.length ≤ 40) :
    Returns (walkOptions opts {}) fun _ => True := by
  unfold walkOptions
  refine Returns.bind (returns_loop (I := fun s : ℕ × TcpOptions =>
    s.1 ≤ opts.length ∧ s.2.tcpNopCount.toNat ≤ s.1) (Q := fun _ => True)
      (m := fun s => opts.length - s.1) ?_ ⟨Nat.zero_le _, le_rfl⟩ (Nat.lt_succ_self _))
      fun _ _ => Returns.pure trivial
  rintro ⟨i, o⟩ ⟨hi, hnops⟩
  dsimp only at hi hnops
  refine (returns_optionRound (by omega) (by omega)).mono ?_
  rintro (s | s) hs
  · trivial
  · obtain ⟨hmove, hin, hcount⟩ := hs.moves
    dsimp only
    omega

end Walk

end TcpSyn

end GrServer
