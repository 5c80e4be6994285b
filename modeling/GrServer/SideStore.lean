import GrServer.IpAddress
import GrServer.Json
import GrServer.MapMerge
import GrServer.RankedChoice

/-!
# Side-channel samples

Listeners next to the web server leave samples of QUIC, TCP SYN, WebRTC and
HTTP/3 traffic.  A request is enriched with the best fresh sample of each
channel that its address and ports allow, and the strongest of the joins
decides whether a hard link is allowed.
-/

namespace GrServer

open Json Text

namespace SideStore

/-! ## Scope and strength -/

structure JoinScope where
  clientIp : Option String
  srcPort : Option ℕ
  dstPort : Option ℕ
  connToken : Option String

inductive JoinStrength where
  | none
  | weakIpTtl
  | strongIpPort
  | strongIpConn
  deriving DecidableEq

namespace JoinStrength

def level : JoinStrength → ℕ
  | none => 0
  | weakIpTtl => 1
  | strongIpPort => 2
  | strongIpConn => 3

def asStr : JoinStrength → String
  | none => "none"
  | weakIpTtl => "ip_ttl_window_weak"
  | strongIpPort => "ip_port_ttl_strong"
  | strongIpConn => "ip_conn_ttl_strong"

def isStrong : JoinStrength → Bool
  | strongIpPort | strongIpConn => true
  | none | weakIpTtl => false

def commercialMergeAllowed (_ : JoinStrength) : Bool := false

def softHardLinkAllowed (st : JoinStrength) : Bool := st.isStrong

theorem isStrong_iff (st : JoinStrength) : st.isStrong = true ↔ 2 ≤ st.level := by
  cases st <;> simp [isStrong, level]

end JoinStrength

structure JoinKeys where
  ip : Option String
  sport : Option ℕ
  dport : Option ℕ
  conn : Option String
  bonus : ℕ

def samePort (a b : Option ℕ) : Bool :=
  match a, b with
  | some a, some b => 0 < a && 0 < b && a = b
  | _, _ => false

def sameToken (want got : Option String) : Bool :=
  match want, got with
  | some want, some got => want ≠ "" && want = got
  | _, _ => false

/-- A destination port only counts on top of a strong match. -/
def addDstPort (hit : Bool) (s : ℕ × JoinStrength) : ℕ × JoinStrength :=
  if hit && s.2.isStrong then (s.1 + 20, .strongIpConn) else s

/-- A token alone makes an address match strong. -/
def addToken (hit : Bool) (s : ℕ × JoinStrength) : ℕ × JoinStrength :=
  if hit then
    if s.2.isStrong then (s.1 + 30, .strongIpConn) else (s.1 + 30 + 40, .strongIpPort)
  else s

def scoreIpPort (k : JoinKeys) (scope : JoinScope) : ℕ × JoinStrength :=
  match scope.clientIp with
  | none => (0, .none)
  | some wantIp =>
      if k.ip ≠ some wantIp then (0, .none)
      else
        let rest := fun s =>
          addToken (sameToken scope.connToken k.conn)
            (addDstPort (samePort scope.dstPort k.dport) s)
        if samePort scope.srcPort k.sport then rest (10 + 50, .strongIpPort)
        else if scope.srcPort.isSome && k.sport.isSome then (0, .none)
        else rest (10, .weakIpTtl)

/-! ## Samples -/

structure QuicInfo where
  srcIp : Option String
  srcPort : Option ℕ
  dcidHex : Option String
  cryptoLen : Option ℕ
  tlsJa4 : Option String
  tlsJa3Hash : Option String
  quicFp : Option String
  quicFpHash : Option String
  sni : Option String
  alpn : List String
  aeadOk : Bool
  isRetry : Bool
  versionLabel : Option String
  version : Option ℕ
  dcidLen : Option ℕ
  scidLen : Option ℕ
  keyShareGroups : List ℕ
  keyShareGroupsHex : List String
  pskModesNames : List String
  hasEch : Bool
  transportParamsSummary : Option String
  transportParamsMap : SortedMap String String

structure SynInfo where
  srcIp : Option String
  srcPort : Option ℕ
  dstPort : Option ℕ
  ipTtl : Option ℕ
  tcpWindow : Option ℕ
  tcpWindowScaled : Option ℕ
  tcpMss : Option ℕ
  tcpWscale : Option ℕ
  tcpSackOk : Bool
  tcpTimestamp : Bool
  tcpTsVal : Option ℕ
  ipTos : Option ℕ
  ipEcn : Option ℕ
  ipId : Option ℕ
  p0fSig : Option String
  p0fHash : Option String
  optionOrder : List ℕ
  optionOrderStr : Option String
  tcpFlagsStr : Option String

structure WebrtcInfo where
  srcIp : Option String
  srcPort : Option ℕ
  dstPort : Option ℕ
  kind : Option String
  isStun : Bool
  isDtlsClientHello : Bool
  dtlsJa4 : Option String

structure H3AppInfo where
  srcIp : String
  srcPort : ℕ
  alpn : String
  method : String
  path : String
  pseudoOrder : String
  settingsFp : String
  rttMs : Option ℚ
  framesRx : Option ℕ
  udpRx : Option ℕ
  note : String

structure Timed (α : Type) where
  seenAtMs : ℤ
  info : α

structure Store where
  quic : List (Timed QuicInfo)
  syn : List (Timed SynInfo)
  webrtc : List (Timed WebrtcInfo)
  h3App : List (Timed H3AppInfo)

def quicKeys (q : QuicInfo) : JoinKeys :=
  ⟨q.srcIp, q.srcPort, none, q.dcidHex,
    (if q.tlsJa4.isSome then 5 else 0) + min (q.cryptoLen.getD 0) 1000 / 100⟩

def synKeys (s : SynInfo) : JoinKeys := ⟨s.srcIp, s.srcPort, s.dstPort, none, 0⟩

def webrtcKeys (w : WebrtcInfo) : JoinKeys := ⟨w.srcIp, w.srcPort, w.dstPort, none, 0⟩

def h3Keys (h : H3AppInfo) : JoinKeys :=
  ⟨some h.srcIp, if 0 < h.srcPort then some h.srcPort else none, none, none, 0⟩

def sideTtlMs : ℤ := 30000

section Pick

variable {α : Type} (keys : α → JoinKeys) (now : ℤ) (scope : JoinScope)

def scored (t : Timed α) : Option (ℕ × JoinStrength × α) :=
  let s := scoreIpPort (keys t.info) scope
  if now - sideTtlMs ≤ t.seenAtMs ∧ s.1 ≠ 0 then
    some (s.1 + (keys t.info).bonus, s.2, t.info)
  else none

def pickRank (c : ℕ × JoinStrength × α) : ℕ ×ₗ ℕ := toLex (c.1, c.2.1.level)

/-- The best match, newest first among equals. -/
def pick (samples : List (Timed α)) : Option (α × JoinStrength) :=
  ((samples.reverse.filterMap (scored keys now scope)).foldl
    (RankedChoice.keepBest pickRank) none).map fun c => (c.2.2, c.2.1)

end Pick

section Picks

variable (now : ℤ) (scope : JoinScope) (s : Store)

def pickQuic : Option (QuicInfo × JoinStrength) := pick quicKeys now scope s.quic

def pickSyn : Option (SynInfo × JoinStrength) := pick synKeys now scope s.syn

def pickWebrtc : Option (WebrtcInfo × JoinStrength) := pick webrtcKeys now scope s.webrtc

def pickH3 : Option (H3AppInfo × JoinStrength) := pick h3Keys now scope s.h3App

end Picks

/-! ## Fields of the joined samples -/

section Fields

def whenSome {α : Type} (k : String) (toJson : α → Json) (v : Option α) :
    List (String × Json) :=
  (v.map fun a => (k, toJson a)).toList

def whenTrue (b : Bool) (members : List (String × Json)) : List (String × Json) :=
  if b then members else []

def nat (n : ℕ) : Json := ofInt n

def text (s : String) : Json := .str s

def optNat (v : Option ℕ) : Json := (v.map nat).getD .null

def joined (sep : String) (parts : List String) : String := sep.intercalate parts

def weakMembers (st : JoinStrength) (k : String) : List (String × Json) :=
  whenTrue (!st.isStrong) [(k, .bool true)]

def ja4Members (j : String) : List (String × Json) :=
  [("ja4", text j), ("tls_ja4", text j), ("protocol_fp_source", text "gr_quic_listen"),
    ("tls_fingerprint_available", .bool true)]

def underscored (k : String) : String :=
  String.ofList (k.toList.map fun c => if c = '-' then '_' else c)

def hexLiteral (n : ℕ) : String := "0x" ++ String.ofList (Nat.toDigits 16 n)

def quicMembers (q : QuicInfo) : List (String × Json) :=
  whenSome "quic_tls_ja3_hash" text q.tlsJa3Hash ++
    whenSome "quic_fp" text q.quicFp ++ whenSome "quic_initial_fp" text q.quicFp ++
    whenSome "quic_fp_hash" text q.quicFpHash ++ whenSome "quic_sni" text q.sni ++
    whenTrue (!q.alpn.isEmpty) [("quic_alpn", text (joined "," q.alpn))] ++
    [("quic_aead_ok", .bool q.aeadOk), ("quic_retry", .bool q.isRetry),
      ("quic_version_label", text (q.versionLabel.getD ""))] ++
    whenSome "quic_version" (fun v => text (hexLiteral v)) q.version ++
    whenSome "quic_dcid_len" nat q.dcidLen ++ whenSome "quic_scid_len" nat q.scidLen ++
    whenTrue (!q.keyShareGroups.isEmpty)
      [("quic_key_share_groups", .arr (q.keyShareGroups.map nat)),
        ("quic_key_share_groups_hex", .arr (q.keyShareGroupsHex.map text))] ++
    whenTrue (!q.pskModesNames.isEmpty) [("quic_psk_modes", text (joined "," q.pskModesNames))] ++
    [("quic_has_ech", .bool q.hasEch)] ++
    whenSome "quic_tp_summary" text q.transportParamsSummary ++
    whenSome "quic_tp_hash"
      (fun sum => .obj [("v", text (String.ofList (sum.toList.take 64)))])
      q.transportParamsSummary ++
    whenTrue (!q.transportParamsMap.entries.isEmpty)
      (q.transportParamsMap.entries.map (fun p => ("quic_tp_" ++ underscored p.1, text p.2)) ++
        [("quic_tp_map", .obj (q.transportParamsMap.entries.map fun p => (p.1, text p.2)))])

/-- Whether the JA4 of TCP and of QUIC agree, where both are there. -/
def agreeMembers (q : QuicInfo) (fields : Fields) : List (String × Json) :=
  match (fields.get? "ja4").bind asStr, q.tlsJa4 with
  | some tj, some qj =>
      whenTrue (tj ≠ "" && qj ≠ "") [("protocol_tcp_quic_agree", .bool (tj = qj))]
  | _, _ => []

def putQuic (q : QuicInfo) (st : JoinStrength) (fields : Fields) : Fields :=
  let fields := fields.insertEach
    ([("quic_side_join_strength", text st.asStr), ("quic_listen_present", .bool true)] ++
      whenSome "quic_tls_ja4" text q.tlsJa4)
  let fields := match q.tlsJa4 with
    | some j => if (fields.get? "ja4").isNone then fields.insertEach (ja4Members j) else fields
    | none => fields
  let fields := fields.insertEach (quicMembers q)
  (fields.insertEach (agreeMembers q fields)).insertEach (weakMembers st "quic_side_join_weak")

def formatJa4t (s : SynInfo) : String :=
  let number := fun v : Option ℕ => (v.map Nat.repr).getD "0"
  let opts := s.optionOrderStr.getD (joined "-" (s.optionOrder.map Nat.repr))
  number s.tcpWindow ++ "_" ++ opts ++ "_" ++ number s.tcpMss ++ "_" ++ number s.tcpWscale

def synSignature (s : SynInfo) : String :=
  let number := fun v : Option ℕ => (v.map Nat.repr).getD "-"
  let bit := fun b : Bool => if b then "1" else "0"
  "mss=" ++ number s.tcpMss ++ "|ws=" ++ number s.tcpWscale ++ "|sack=" ++ bit s.tcpSackOk ++
    "|ts=" ++ bit s.tcpTimestamp ++ "|ttl=" ++ number s.ipTtl

def synMembers (s : SynInfo) : List (String × Json) :=
  whenSome "tcp_syn_ttl" nat s.ipTtl ++ whenSome "tcp_syn_window" nat s.tcpWindow ++
    whenSome "tcp_syn_window_scaled" nat s.tcpWindowScaled ++
    whenSome "tcp_syn_mss" nat s.tcpMss ++ whenSome "tcp_syn_wscale" nat s.tcpWscale ++
    [("tcp_syn_sack_perm", .bool s.tcpSackOk), ("tcp_syn_ts", .bool s.tcpTimestamp)] ++
    whenSome "tcp_syn_ts_val" nat s.tcpTsVal ++ whenSome "tcp_syn_tos" nat s.ipTos ++
    whenSome "tcp_syn_ip_ecn" nat s.ipEcn ++ whenSome "tcp_syn_ip_id" nat s.ipId ++
    whenSome "tcp_syn_p0f_sig" text s.p0fSig ++ whenSome "tcp_syn_p0f_hash" text s.p0fHash ++
    whenSome "tcp_syn_option_order" text s.optionOrderStr ++
    [("ja4t", text (formatJa4t s)), ("tcp_syn_ja4t", text (formatJa4t s)),
      ("tcp_syn_options_sig", text (synSignature s))] ++
    whenSome "tcp_syn_flags" text s.tcpFlagsStr

def putSyn (s : SynInfo) (st : JoinStrength) (fields : Fields) : Fields :=
  fields.insertEach
    ([("tcp_syn_side_join_strength", text st.asStr), ("tcp_syn_present", .bool true)] ++
      synMembers s ++ weakMembers st "tcp_syn_side_join_weak")

def putWebrtc (w : WebrtcInfo) (st : JoinStrength) (fields : Fields) : Fields :=
  fields.insertEach
    ([("webrtc_side_join_strength", text st.asStr), ("webrtc_side_present", .bool true),
        ("webrtc_side_kind", (w.kind.map text).getD .null)] ++
      whenTrue w.isStun [("webrtc_stun", .bool true)] ++
      whenTrue w.isDtlsClientHello
        (("webrtc_dtls_hello", .bool true) :: whenSome "dtls_ja4" text w.dtlsJa4) ++
      weakMembers st "webrtc_side_join_weak")

def putH3 (h : H3AppInfo) (st : JoinStrength) (fields : Fields) : Fields :=
  fields.insertEach
    ([("h3_side_join_strength", text st.asStr), ("h3_app_present", .bool true),
        ("h3_alpn", text h.alpn), ("h3_pseudo_order", text h.pseudoOrder),
        ("h3_settings_fp", text h.settingsFp), ("h3_method", text h.method),
        ("h3_path", text h.path)] ++
      whenTrue (0 < h.srcPort) [("h3_src_port", nat h.srcPort)] ++
      whenTrue (h.note ≠ "") [("h3_note", text h.note)] ++
      [("protocol_fp_source", text "gr_h3_app")] ++
      whenSome "h3_rtt_ms" (fun q => .num (.float q)) h.rttMs ++
      whenSome "h3_frames_rx" nat h.framesRx ++ whenSome "h3_udp_rx" nat h.udpRx ++
      weakMembers st "h3_side_join_weak")

def putPicked {α : Type} (put : α → JoinStrength → Fields → Fields)
    (picked : Option (α × JoinStrength)) (fields : Fields) : Fields :=
  match picked with
  | some (info, st) => put info st fields
  | none => fields

end Fields

def protocolDiagnosticOnlyKeys : List String :=
  ["h2_priority_fingerprint", "h2_pseudo_order", "h3_pseudo_order", "h3_settings_fp",
    "h2_fingerprint_partial_v1"]

def protocolDepthExportKeys : List String :=
  ["ja4", "tls_ja4", "ja3", "ja4_r", "ja4t", "tcp_syn_ja4t", "tcp_syn_p0f_sig",
    "tcp_syn_p0f_hash", "quic_tp_summary", "quic_tp_map", "quic_key_share_groups",
    "h2_fingerprint", "h2_connection_window_update", "tls_extensions_order",
    "cipher_suites_order"]

def fieldNonempty (fields : Fields) (key : String) : Bool :=
  match fields.get? key with
  | none | some .null => false
  | some (.str s) => s ≠ ""
  | some (.arr items) => !items.isEmpty
  | some (.obj members) => !members.isEmpty
  | some _ => true

/-- The role of a priority fingerprint; an empty or zero one is a placeholder. -/
def priorityRole (fields : Fields) : String :=
  let p := ((fields.get? "h2_priority_fingerprint").bind asStr).getD ""
  if p = "" ∨ p = "0" then "synthetic_placeholder" else "captured_or_partial"

def honestyMembers (fields : Fields) : List (String × Json) :=
  let diag := protocolDiagnosticOnlyKeys.filter (fieldNonempty fields)
  let depth := protocolDepthExportKeys.filter (fieldNonempty fields)
  diag.flatMap (fun k =>
      [(k ++ "__diagnostic_only", .bool true), (k ++ "__commercial_mint", .bool false),
        (k ++ "__hard_browser_uniqueness", .bool false)]) ++
    whenTrue (fieldNonempty fields "h3_pseudo_order")
      [("h3_pseudo_order_role", text "diagnostic_partial")] ++
    whenTrue (fieldNonempty fields "h2_priority_fingerprint")
      [("h2_priority_fingerprint_role", text (priorityRole fields))] ++
    [("protocol_export_honesty", .obj [
      ("algo", text "protocol_export_honesty_v1"),
      ("commercial_mint_from_protocol_diagnostic", .bool false),
      ("depth_exported", .arr (depth.map text)),
      ("diagnostic_only", .arr (diag.map text)),
      ("hard_browser_uniqueness_from_h2h3_pseudo_priority", .bool false),
      ("note", text
        "H2 PRIORITY / H3 pseudo may be partial or padded; never mint or hard-uniqueness")])] ++
    whenTrue (!diag.isEmpty) [("protocol_has_diagnostic_only", .bool true)] ++
    whenTrue (!depth.isEmpty) [("protocol_depth_export_n", nat depth.length)]

def annotateProtocolExportHonesty (fields : Fields) : Fields :=
  fields.insertEach (honestyMembers fields)

/-! ## Enrichment -/

def scopeMembers (now : ℤ) (scope : JoinScope) : List (String × Json) :=
  [("side_join_ttl_ms", ofInt sideTtlMs),
    ("side_join_algo", text "side_join_v2_ip_port_ttl"),
    ("side_source", text "side_channel_listen"),
    ("side_association_level", text "network_protocol_enrichment"),
    ("side_seen_at_ms", ofInt now),
    ("side_expiry_ms", ofInt (now + sideTtlMs)),
    ("side_join_scope_src_port", optNat scope.srcPort),
    ("side_join_scope_dst_port", optNat scope.dstPort)]

def bestStrength (joins : List JoinStrength) : JoinStrength :=
  let best := joins.foldl (fun best st => if best.level < st.level then st else best) .none
  if joins.isEmpty then .none else if best = .none then .weakIpTtl else best

def truthLevel (any : Bool) (best : JoinStrength) : String :=
  if !any || best = .none then "absent"
  else if best = .weakIpTtl then "inferred_weak"
  else "observed_connection"

def verdictMembers (any : Bool) (best : JoinStrength) : List (String × Json) :=
  let ipOnly := best = .weakIpTtl || best = .none
  [("side_join_strength", text best.asStr),
    ("side_join_commercial_merge_allowed", .bool best.commercialMergeAllowed),
    ("side_join_soft_hard_link_allowed", .bool best.softHardLinkAllowed),
    ("side_join_is_strong", .bool best.isStrong),
    ("side_join_policy", .obj [
      ("commercial_device_hard_merge", .bool false),
      ("enrich_ok", .bool any),
      ("note", text
        "NAT-safe: request port must match sample port when both known; IP-only is weak"),
      ("strong_join_soft_hard_link", .bool best.isStrong),
      ("weak_join_soft_hard_link", .bool false)]),
    ("s0_observation", .obj [
      ("availability", text (if any then "observed" else "absent")),
      ("commercial_eligible", .bool false),
      ("commercial_eligible_reason", text
        (if ipOnly then "ip_only_join_weak" else "side_channel_protocol_not_commercial_mint")),
      ("join_strength", text best.asStr),
      ("scope", text "connection"),
      ("source_kind", text "gateway"),
      ("truth_level", text (truthLevel any best))]),
    ("s0_truth_level", text (truthLevel any best)),
    ("s0_commercial_eligible", .bool false)]

def joinStrengths (now : ℤ) (scope : JoinScope) (s : Store) : List JoinStrength :=
  ((pickQuic now scope s).map Prod.snd).toList ++ ((pickSyn now scope s).map Prod.snd).toList ++
    ((pickWebrtc now scope s).map Prod.snd).toList ++ ((pickH3 now scope s).map Prod.snd).toList

/-- `enrich_protocol_fields_scoped`, at one instant. -/
def enrichProtocolFieldsScoped (now : ℤ) (s : Store) (scope : JoinScope) (fields : Fields) :
    Fields :=
  if (scope.clientIp.filter (· ≠ "")).isNone then fields
  else
    let fields := fields.insertEach (scopeMembers now scope)
    let fields := putPicked putQuic (pickQuic now scope s) fields
    let fields := putPicked putSyn (pickSyn now scope s) fields
    let fields := putPicked putWebrtc (pickWebrtc now scope s) fields
    let fields := putPicked putH3 (pickH3 now scope s) fields
    let joins := joinStrengths now scope s
    annotateProtocolExportHonesty
      (fields.insertEach (verdictMembers (!joins.isEmpty) (bestStrength joins)))

def ipForensicMode (env : String → Option String) : Bool :=
  envIsLowered env "IP_FORENSIC_MODE" ["1", "true", "on", "yes"]

/-- An address cut to its network, `/24` or `/48`. -/
def maskIpSubnet (ip : String) : String :=
  let t := trimmed ip
  if t = "" then ""
  else if '/' ∈ t.toList then t
  else
    match IpAddr.parse t.toList with
    | some (.v4 value) =>
        let octet := fun i => (value.toNat / 2 ^ (8 * i) % 256).repr
        octet 3 ++ "." ++ octet 2 ++ "." ++ octet 1 ++ ".0/24"
    | some (.v6 value) =>
        let group := fun i => String.ofList (Nat.toDigits 16 (value.toNat / 2 ^ (16 * i) % 65536))
        group 7 ++ ":" ++ group 6 ++ ":" ++ group 5 ++ "::/48"
    | none => t

def applyIpPolicy (env : String → Option String) (ip : String) : String :=
  if ipForensicMode env then trimmed ip else maskIpSubnet ip

/-- A gateway request: the address it really came from and what it says of its
connection. -/
structure Request where
  realIp : Option String
  peerPort : Option ℕ
  localPort : Option ℕ
  connToken : Option String

/-- The scope `gateway_early` joins with: its address is already under the
policy. -/
def joinScope (env : String → Option String) (req : Request) : JoinScope :=
  ⟨req.realIp.map (applyIpPolicy env), req.peerPort, req.localPort, req.connToken⟩

end SideStore

end GrServer
