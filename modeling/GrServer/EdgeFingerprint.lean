import GrServer.IpAddress
import GrServer.Json
import GrServer.MapWrites

/-!
# Edge fingerprints in the gateway fields

The edge joins what it captured of a connection (the ClientHello, the TCP socket,
the HTTP/2 settings) to the headers the client sent; the mapper and the gateway
then read the protocol fields off the headers.  Each step is the list of its
writes, in the order of the code.
-/

namespace GrServer

open Text Json MapWrite

namespace EdgeFingerprint

abbrev Headers := SortedMap String String

structure TlsClientFp where
  ja4 : String
  ja3Hash : String
  alpn : Option String
  ja4R : String
  tlsExtensionsOrder : String
  cipherSuitesOrder : String
  keyShareGroups : String
  pskModes : String
  hasEch : Bool
  hasAlps : Bool
  hasSessionTicket : Bool
  hasEarlyData : Bool
  tlsExtPresence : String

structure TcpInfo where
  rtt : ℕ
  minRtt : ℕ
  sndCwnd : ℕ
  totalRetrans : ℕ
  sndMss : ℕ
  bytesAcked : ℕ

/-- The socket: the option order of a saved SYN, the kernel's counters and two
socket options. -/
structure TcpDepth where
  savedSyn : Option (Option String)
  info : Option TcpInfo
  maxSeg : Option ℤ
  congestion : Option String

structure H2Cap where
  fingerprint : String
  fingerprintHash : String
  prefaceOk : Bool
  windowUpdate : Option ℕ
  frameTypeSequence : List ℕ
  priorityFingerprint : String

structure Peer where
  addr : String
  inet : Option (String × ℕ)
  trustedProxy : Bool

structure ProxyInfo where
  version : ℕ
  srcIp : Option String
  srcPort : Option ℕ
  dstIp : Option String

inductive ProxyMode where
  | origin
  | transparent
  | lb
  deriving DecidableEq

structure Connection where
  mode : ProxyMode
  peer : Option Peer
  proxy : Option ProxyInfo
  tls : Option TlsClientFp
  socket : Option TcpDepth
  h2 : Option H2Cap

/-! ## Header assembly -/

def nonEmpty (s : String) : Option String := if s = "" then none else some s

def positive (n : ℕ) : Option String := if 0 < n then some n.repr else none

def flag (b : Bool) : Option String := if b then some "1" else none

def headersMap (lines : List (String × String)) : Headers :=
  lines.foldl (fun m line => m.insert (lowered line.1) line.2) .empty

def injectPeer (peer : Peer) (headers : Headers) : Headers :=
  let headers := headers.insertNew "x-gr-peer-addr" peer.addr
  let headers := applyAll headers
    [put "x-gr-peer-ip" (peer.inet.map Prod.fst),
      put "x-gr-peer-port" (peer.inet.map fun inet => inet.2.repr)]
  if !peer.trustedProxy then
    apply ((headers.erase "x-forwarded-for").erase "x-real-ip")
      (put "x-real-ip" (peer.inet.map Prod.fst))
  else if !headers.contains "x-forwarded-for" && !headers.contains "x-real-ip" &&
      !headers.contains "cf-connecting-ip" then
    apply headers (keep "x-real-ip" (peer.inet.map Prod.fst))
  else headers

def injectProxyIntoHeaders (info : Option ProxyInfo) : List (MapWrite String String) :=
  [put "x-gr-proxy-protocol" (info.map fun _ => "1"),
    put "x-gr-proxy-version" (info.map (·.version.repr)),
    put "x-real-ip" (info.bind (·.srcIp)),
    put "x-forwarded-for" (info.bind (·.srcIp)),
    put "x-gr-proxy-src-ip" (info.bind (·.srcIp)),
    put "x-gr-proxy-src-port" ((info.bind (·.srcPort)).map Nat.repr),
    put "x-gr-proxy-dst-ip" (info.bind (·.dstIp))]

def injectIntoHeaders (fp : Option TlsClientFp) : List (MapWrite String String) :=
  [keep "x-tls-ja4" (fp.map (·.ja4)),
    keep "x-gr-tls-ja4-source" (fp.map fun _ => "gr_pingora"),
    keep "x-tls-ja3" (fp.bind (nonEmpty ·.ja3Hash)),
    keep "x-tls-alpn" (fp.bind (·.alpn)),
    keep "x-tls-ja4-r" (fp.bind (nonEmpty ·.ja4R)),
    keep "x-tls-ext-order" (fp.bind (nonEmpty ·.tlsExtensionsOrder)),
    keep "x-tls-cipher-order" (fp.bind (nonEmpty ·.cipherSuitesOrder)),
    keep "x-tls-key-share-groups" (fp.bind (nonEmpty ·.keyShareGroups)),
    keep "x-tls-psk-modes" (fp.bind (nonEmpty ·.pskModes)),
    keep "x-tls-ech" (fp.bind (flag ·.hasEch)),
    keep "x-tls-alps" (fp.bind (flag ·.hasAlps)),
    keep "x-tls-session-ticket" (fp.bind (flag ·.hasSessionTicket)),
    keep "x-tls-early-data" (fp.bind (flag ·.hasEarlyData)),
    keep "x-tls-ext-presence" (fp.bind (nonEmpty ·.tlsExtPresence))]

def injectTcpInfoHeaders (info : Option TcpInfo) : List (MapWrite String String) :=
  [put "x-gr-tcp-info" (info.map fun _ => "1"),
    put "x-gr-tcp-rtt-us" (info.bind (positive ·.rtt)),
    put "x-gr-tcp-min-rtt-us" (info.bind (positive ·.minRtt)),
    put "x-gr-tcp-snd-cwnd" (info.bind (positive ·.sndCwnd)),
    put "x-gr-tcp-total-retrans" (info.bind (positive ·.totalRetrans)),
    put "x-gr-tcp-mss" (info.bind (positive ·.sndMss)),
    put "x-gr-tcp-bytes-acked" (info.bind (positive ·.bytesAcked))]

def injectSockoptHeaders (sock : Option TcpDepth) : List (MapWrite String String) :=
  [keep "x-gr-tcp-mss" ((sock.bind (·.maxSeg)).bind fun v => positive v.toNat),
    put "x-gr-tcp-congestion" ((sock.bind (·.congestion)).bind nonEmpty)]

def injectTcpDepth (sock : Option TcpDepth) : List (MapWrite String String) :=
  [put "x-gr-tcp-saved-syn" ((sock.bind (·.savedSyn)).map fun _ => "1"),
    put "x-gr-tcp-syn-opts" ((sock.bind (·.savedSyn)).bind id)] ++
    injectTcpInfoHeaders (sock.bind (·.info)) ++ injectSockoptHeaders sock

def injectH2IntoHeaders (fp : Option H2Cap) : List (MapWrite String String) :=
  [put "x-h2-fingerprint" (fp.map (·.fingerprint)),
    put "x-http2-fingerprint" (fp.map (·.fingerprint)),
    put "x-gr-h2-hash" (fp.map (·.fingerprintHash)),
    put "x-gr-h2-capture-version" (fp.map fun _ => "v2_priority_real"),
    put "x-gr-h2-preface-ok" (fp.bind (flag ·.prefaceOk)),
    put "x-gr-h2-window-update" ((fp.bind (·.windowUpdate)).map Nat.repr),
    put "x-gr-h2-priority-fp" (fp.bind (nonEmpty ·.priorityFingerprint)),
    put "x-gr-h2-frame-seq" (fp.bind fun c =>
      if c.frameTypeSequence = [] then none
      else some (String.intercalate "," (c.frameTypeSequence.map Nat.repr)))]

def captureWrites (conn : Connection) : List (MapWrite String String) :=
  injectProxyIntoHeaders conn.proxy ++ injectIntoHeaders conn.tls ++
    injectTcpDepth conn.socket ++ injectH2IntoHeaders conn.h2

/-- `request_filter` up to the routing; `Lb` passes the headers through. -/
def requestFilter (conn : Connection) (client : Headers) : Headers :=
  if conn.mode = .lb then client
  else
    applyAll ((conn.peer.map fun peer => injectPeer peer client).getD client)
      (captureWrites conn)

/-- What the edge joins to a request that has no header of its own. -/
def captureHeaders (conn : Connection) : Headers :=
  if conn.mode = .lb then .empty else applyAll .empty (captureWrites conn)

/-! ## The mapper -/

def trustedJa4Headers : List String := ["x-tls-ja4", "x-ja4", "cf-ja4", "x-client-ja4"]

def trustedJa3Headers : List String := ["x-tls-ja3", "x-ja3", "cf-ja3"]

def trustedH2Headers : List String :=
  ["x-http2-fingerprint", "x-h2-fingerprint", "x-akamai-h2", "cf-http2-fingerprint"]

def trustedAlpnHeaders : List String := ["x-tls-alpn", "x-alpn"]

def trustedTlsVersionHeaders : List String := ["x-tls-version", "x-ssl-protocol"]

def nonBlank (value : String) : Option String := nonEmpty (trimmed value)

def pick (headers : Headers) (names : List String) : Option String :=
  names.findSome? fun name => (headers.get? name).bind nonBlank

def classifyProtocolEngine (ja4 h2 alpn : String) : String :=
  let j := lowered ja4
  let h := lowered h2
  let a := lowered alpn
  if containsStr j "firefox" || startsWith j "ff_" || containsStr j "|ff|" ||
      containsStr h "firefox" || containsStr j "nss" then "firefox"
  else if containsStr j "safari" || containsStr j "apple" || containsStr h "safari" then "safari"
  else if containsStr j "edge" || startsWith j "ed_" then "edge"
  else if (containsStr j "chrome" || startsWith j "cr_" || containsStr j "|cr|" ||
        containsStr j "boringssl" || containsStr h "chrome" ||
        (containsStr a "h2" && containsStr j "t13d")) &&
      (containsStr j "chrome" || startsWith j "cr_" || containsStr h "chrome") then "chrome"
  else if j ≠ "" && (startsWith j "t13d" || startsWith j "t13i" || startsWith j "t12d" ||
      startsWith j "t12i") then "unknown_tls13"
  else if j ≠ "" || h ≠ "" then "unknown"
  else "absent"

/-- The writes of `inject_protocol_from_headers`, the export notes left out. -/
def injectProtocolFromHeaders (headers : Headers) : List (MapWrite String Json) :=
  let ja4 := pick headers trustedJa4Headers
  let ja3 := pick headers trustedJa3Headers
  let h2 := pick headers trustedH2Headers
  let alpn := pick headers trustedAlpnHeaders
  let engine := classifyProtocolEngine (ja4.getD "") (h2.getD "") (alpn.getD "")
  [put "ja4" (ja4.map str),
    put "tls_ja4" (ja4.map str),
    put "protocol_fp_source" (ja4.map fun _ =>
      str (((headers.get? "x-gr-tls-ja4-source").bind nonEmpty).getD "edge_header")),
    put "tls_fingerprint_available" (ja4.map fun _ => bool true),
    keep "tls_fingerprint_available" (if ja4.isNone then some (bool false) else none),
    put "ja3" (ja3.map str),
    put "tls_ja3" (ja3.map str),
    put "h2_fingerprint" (h2.map str),
    put "http2_fingerprint" (h2.map str),
    put "tls_alpn" (alpn.map str),
    put "tls_version" ((pick headers trustedTlsVersionHeaders).map str),
    put "ja4_r" ((pick headers ["x-tls-ja4-r", "x-ja4-r"]).map str),
    put "tls_extensions_order"
      ((pick headers ["x-tls-ext-order", "x-tls-extensions-order"]).map str),
    put "cipher_suites_order"
      ((pick headers ["x-tls-cipher-order", "x-tls-ciphers-order"]).map str),
    put "protocol_engine" (if engine = "absent" then none else some (str engine))]

/-! ## The gateway's own readings -/

def parseUnsigned (bits : ℕ) (s : String) : Option ℕ :=
  let (ds, rest) := IpAddr.readDigits 10 ((IpAddr.readChar '+' s.toList).getD s.toList)
  let value := ds.foldl (fun n d => n * 10 + d) 0
  if ds ≠ [] ∧ rest = [] ∧ value < 2 ^ bits then some value else none

def direct (headers : Headers) (name : String) (read : String → Option Json) : Option Json :=
  (headers.get? name).bind read

def readStr (value : String) : Option Json := some (str value)

def readFlag (value : String) : Option Json := if value = "1" then some (bool true) else none

def readPresent (_ : String) : Option Json := some (bool true)

def readUnsigned (bits : ℕ) (value : String) : Option Json :=
  (parseUnsigned bits value).map fun n => ofInt n

def readFrameSeq (seq : String) : Option Json :=
  let frames := (splitChar ',' seq).filterMap fun part => parseUnsigned 8 (trimmed part)
  if frames = [] then none else some (arr (frames.map fun n => ofInt n))

def gatewayDepthFields (headers : Headers) : List (MapWrite String Json) :=
  [put "h2_settings_available" (direct headers "x-gr-h2-preface-ok" readFlag),
    put "h2_preface_ok" (direct headers "x-gr-h2-preface-ok" readFlag),
    put "h2_connection_window_update"
      (direct headers "x-gr-h2-window-update" (readUnsigned 32)),
    put "h2_fingerprint_hash" (direct headers "x-gr-h2-hash" readStr),
    put "h2_fingerprint" (direct headers "x-h2-fingerprint" readStr),
    put "h2_fingerprint_partial_v1" (direct headers "x-h2-fingerprint" readStr),
    put "h2_priority_fingerprint" (direct headers "x-gr-h2-priority-fp" readStr),
    put "h2_frame_type_sequence" (direct headers "x-gr-h2-frame-seq" readFrameSeq),
    put "h2_capture_version" (direct headers "x-gr-h2-capture-version" readStr),
    put "tls_key_share_groups" (direct headers "x-tls-key-share-groups" readStr),
    put "tls_psk_modes" (direct headers "x-tls-psk-modes" readStr),
    put "tls_ech_present" (direct headers "x-tls-ech" readFlag),
    put "tls_alps_present" (direct headers "x-tls-alps" readFlag),
    put "tls_session_ticket" (direct headers "x-tls-session-ticket" readFlag),
    put "tls_early_data" (direct headers "x-tls-early-data" readFlag),
    put "tls_ext_presence" (direct headers "x-tls-ext-presence" readStr)]

/-- The bucket of a round trip of `us` microseconds; the code compares the same
thresholds in floating milliseconds. -/
def rttBucket (us : ℕ) : String :=
  if us < 20000 then "lt20ms" else if us < 50000 then "20_50ms"
  else if us < 100000 then "50_100ms" else if us < 200000 then "100_200ms" else "gte200ms"

def minRttBucket (us : ℕ) : String :=
  if us < 20000 then "lt20" else if us < 50000 then "20_50"
  else if us < 100000 then "50_100" else "gte100"

def retransClass (n : ℕ) : String := if n = 0 then "r0" else if n < 3 then "r1" else "rN"

/-- The bucket of the least round trip, of the round trip itself where no header
has the least one. -/
def minBucket (headers : Headers) (rtt : ℕ) : String :=
  minRttBucket (((headers.get? "x-gr-tcp-min-rtt-us").bind (parseUnsigned 64)).getD rtt)

def retxFlag (headers : Headers) : String :=
  retransClass (((headers.get? "x-gr-tcp-total-retrans").bind (parseUnsigned 64)).getD 0)

def ja4l (headers : Headers) : Option Json :=
  ((headers.get? "x-gr-tcp-rtt-us").bind (parseUnsigned 64)).map fun rtt =>
    str ("q" ++ rttBucket rtt ++ "_" ++ (minBucket headers rtt ++ "_" ++ retxFlag headers))

def readRttBucket (value : String) : Option Json :=
  (parseUnsigned 64 value).map fun rtt => str ("t_" ++ rttBucket rtt)

/-- `apply_tcp_depth_to_fields` and the SYN options of `gateway_early`; the role
marks and the rounded copy of the round trip are left out. -/
def applyTcpDepthToFields (headers : Headers) : List (MapWrite String Json) :=
  [put "tcp_info_available" ((direct headers "x-gr-tcp-info" readFlag).or
      (direct headers "x-gr-tcp-rtt-us" readPresent)),
    put "tcp_info_rtt_us" (direct headers "x-gr-tcp-rtt-us" (readUnsigned 64)),
    put "client_tcp_rtt_us" (direct headers "x-gr-tcp-rtt-us" (readUnsigned 64)),
    put "client_tcp_rtt" (direct headers "x-gr-tcp-rtt-us" (readUnsigned 64)),
    put "ja4l_lite" (direct headers "x-gr-tcp-rtt-us" readRttBucket),
    put "ja4l" (ja4l headers),
    put "tcp_info_min_rtt_us" (direct headers "x-gr-tcp-min-rtt-us" (readUnsigned 64)),
    put "tcp_info_snd_cwnd" (direct headers "x-gr-tcp-snd-cwnd" (readUnsigned 64)),
    put "tcp_info_total_retrans" (direct headers "x-gr-tcp-total-retrans" (readUnsigned 64)),
    put "tcp_info_snd_mss" (direct headers "x-gr-tcp-mss" (readUnsigned 64)),
    put "tcp_congestion" (direct headers "x-gr-tcp-congestion" readStr),
    put "tcp_saved_syn" (direct headers "x-gr-tcp-saved-syn" readFlag),
    put "tcp_syn_option_order" (direct headers "x-gr-tcp-syn-opts" fun opts =>
      (nonEmpty opts).map str),
    put "tcp_syn_option_order" (direct headers "x-gr-tcp-syn-opts" readStr)]

/-- What the side channels hold for the client and ports named by the headers:
the JA4 of a QUIC sample and the option order of a SYN. -/
structure SideJoin where
  quicJa4 : Headers → Option String
  synOptionOrder : Headers → Option String

def SideJoin.empty : SideJoin := ⟨fun _ => none, fun _ => none⟩

/-- `enrich_protocol_fields_scoped` on the fields followed here. -/
def enrichProtocolFieldsScoped (quicJa4 synOptionOrder : Option String) (obj : Fields) :
    List (MapWrite String Json) :=
  [put "ja4" (if obj.contains "ja4" then none else quicJa4.map str),
    put "tls_ja4" (if obj.contains "ja4" then none else quicJa4.map str),
    put "tcp_syn_option_order" (synOptionOrder.map str)]

/-- The fields a client may not claim in the body. -/
def strippedKeys : List String :=
  ["ja4", "tls_ja4", "ja3", "h2_fingerprint", "protocol_engine", "protocol_fp_source",
    "cipher_suites_order", "tls_extensions_order", "ja4_r"]

def strip (body : Fields) : Fields := strippedKeys.foldl SortedMap.erase body

def gatewayEarly (side : SideJoin) (headers : Headers) (body : Fields) : Fields :=
  let obj := applyAll (strip body) (injectProtocolFromHeaders headers)
  let obj := applyAll obj
    (enrichProtocolFieldsScoped (side.quicJa4 headers) (side.synOptionOrder headers) obj)
  applyAll obj (gatewayDepthFields headers ++ applyTcpDepthToFields headers)

end EdgeFingerprint

end GrServer
