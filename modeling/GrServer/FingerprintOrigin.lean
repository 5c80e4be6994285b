import GrServer.EdgeFingerprint

/-!
# Where the protocol fields come from

The TLS headers of the capture only fill gaps, those of the TCP and HTTP/2
captures replace.  A protocol field the capture provides is therefore the
capture's exactly where the client's own headers do not come first.
-/

namespace GrServer

open Text Json MapWrite

namespace EdgeFingerprint

def protocolKeys : List String :=
  ["ja4", "tls_ja4", "ja3", "tls_ja3", "tls_alpn", "ja4_r", "tls_extensions_order",
    "cipher_suites_order", "tls_key_share_groups", "tls_psk_modes", "tls_ech_present",
    "tls_alps_present", "tls_session_ticket", "tls_early_data", "tls_ext_presence",
    "h2_fingerprint", "http2_fingerprint", "h2_fingerprint_partial_v1", "h2_fingerprint_hash",
    "h2_settings_available", "h2_preface_ok", "h2_connection_window_update",
    "h2_priority_fingerprint", "h2_frame_type_sequence", "h2_capture_version",
    "tcp_info_available", "tcp_info_rtt_us", "client_tcp_rtt_us", "client_tcp_rtt",
    "ja4l_lite", "ja4l", "tcp_info_min_rtt_us", "tcp_info_snd_cwnd", "tcp_info_total_retrans",
    "tcp_info_snd_mss", "tcp_congestion", "tcp_saved_syn", "tcp_syn_option_order"]

def captured (conn : Connection) (k : String) : Option Json :=
  (gatewayEarly .empty (captureHeaders conn) .empty).get? k

def stored (conn : Connection) (side : SideJoin) (client : Headers) (body : Fields) : Fields :=
  gatewayEarly side (requestFilter conn client) body

/-- Every protocol field that the capture provides holds the captured value. -/
def ComesFromCapture (conn : Connection) (side : SideJoin) (client : Headers)
    (body : Fields) : Prop :=
  ∀ k ∈ protocolKeys, ∀ v, captured conn k = some v →
    (stored conn side client body).get? k = some v

/-! ## Fields and the headers they are read off -/

structure Slot where
  key : String
  header : String
  read : String → Option Json
  aliases : List (String × (String → Option Json))

namespace Slot

def others (slot : Slot) (headers : Headers) : Option Json :=
  slot.aliases.findSome? fun source => direct headers source.1 source.2

def reading (slot : Slot) (headers : Headers) : Option Json :=
  (direct headers slot.header slot.read).or (slot.others headers)

end Slot

def readNonBlank (value : String) : Option Json := (nonBlank value).map str

def picked (key header : String) (aliases : List String) : Slot where
  key := key
  header := header
  read := readNonBlank
  aliases := aliases.map fun name => (name, readNonBlank)

def single (key header : String) (read : String → Option Json) : Slot where
  key := key
  header := header
  read := read
  aliases := []

def tlsSlots : List Slot :=
  [picked "ja4" "x-tls-ja4" ["x-ja4", "cf-ja4", "x-client-ja4"],
    picked "tls_ja4" "x-tls-ja4" ["x-ja4", "cf-ja4", "x-client-ja4"],
    picked "ja3" "x-tls-ja3" ["x-ja3", "cf-ja3"],
    picked "tls_ja3" "x-tls-ja3" ["x-ja3", "cf-ja3"],
    picked "tls_alpn" "x-tls-alpn" ["x-alpn"],
    picked "ja4_r" "x-tls-ja4-r" ["x-ja4-r"],
    picked "tls_extensions_order" "x-tls-ext-order" ["x-tls-extensions-order"],
    picked "cipher_suites_order" "x-tls-cipher-order" ["x-tls-ciphers-order"],
    single "tls_key_share_groups" "x-tls-key-share-groups" readStr,
    single "tls_psk_modes" "x-tls-psk-modes" readStr,
    single "tls_ech_present" "x-tls-ech" readFlag,
    single "tls_alps_present" "x-tls-alps" readFlag,
    single "tls_session_ticket" "x-tls-session-ticket" readFlag,
    single "tls_early_data" "x-tls-early-data" readFlag,
    single "tls_ext_presence" "x-tls-ext-presence" readStr]

def mssSlot : Slot := single "tcp_info_snd_mss" "x-gr-tcp-mss" (readUnsigned 64)

def h2Slot : Slot where
  key := "h2_fingerprint"
  header := "x-h2-fingerprint"
  read := readStr
  aliases := trustedH2Headers.map fun name => (name, readNonBlank)

def tcpInfoSlot : Slot where
  key := "tcp_info_available"
  header := "x-gr-tcp-info"
  read := readFlag
  aliases := [("x-gr-tcp-rtt-us", readPresent)]

def insertedSlots : List Slot :=
  [h2Slot,
    picked "http2_fingerprint" "x-http2-fingerprint"
      ["x-h2-fingerprint", "x-akamai-h2", "cf-http2-fingerprint"],
    single "h2_fingerprint_partial_v1" "x-h2-fingerprint" readStr,
    single "h2_fingerprint_hash" "x-gr-h2-hash" readStr,
    single "h2_settings_available" "x-gr-h2-preface-ok" readFlag,
    single "h2_preface_ok" "x-gr-h2-preface-ok" readFlag,
    single "h2_connection_window_update" "x-gr-h2-window-update" (readUnsigned 32),
    single "h2_priority_fingerprint" "x-gr-h2-priority-fp" readStr,
    single "h2_frame_type_sequence" "x-gr-h2-frame-seq" readFrameSeq,
    single "h2_capture_version" "x-gr-h2-capture-version" readStr,
    tcpInfoSlot,
    single "tcp_info_rtt_us" "x-gr-tcp-rtt-us" (readUnsigned 64),
    single "client_tcp_rtt_us" "x-gr-tcp-rtt-us" (readUnsigned 64),
    single "client_tcp_rtt" "x-gr-tcp-rtt-us" (readUnsigned 64),
    single "ja4l_lite" "x-gr-tcp-rtt-us" readRttBucket,
    single "tcp_info_min_rtt_us" "x-gr-tcp-min-rtt-us" (readUnsigned 64),
    single "tcp_info_snd_cwnd" "x-gr-tcp-snd-cwnd" (readUnsigned 64),
    single "tcp_info_total_retrans" "x-gr-tcp-total-retrans" (readUnsigned 64),
    single "tcp_congestion" "x-gr-tcp-congestion" readStr,
    single "tcp_saved_syn" "x-gr-tcp-saved-syn" readFlag,
    single "tcp_syn_option_order" "x-gr-tcp-syn-opts" readStr]

def slots : List Slot := tlsSlots ++ mssSlot :: insertedSlots

theorem slot_of_mem_protocolKeys {k : String} (hk : k ∈ protocolKeys) :
    k = "ja4l" ∨ ∃ slot ∈ slots, slot.key = k := by
  have hall : ∀ k ∈ protocolKeys, k = "ja4l" ∨ k ∈ slots.map Slot.key := by decide +kernel
  simpa using hall k hk

theorem key_mem_protocolKeys {slot : Slot} (hslot : slot ∈ slots) :
    slot.key ∈ protocolKeys := by
  have hall : ∀ k ∈ slots.map Slot.key, k ∈ protocolKeys := by decide +kernel
  exact hall slot.key (List.mem_map_of_mem hslot)

/-! ## The gateway bag, field by field -/

def fallback (side : SideJoin) (headers : Headers) (body : Fields) : Fields :=
  applyAll (strip body)
    (enrichProtocolFieldsScoped (side.quicJa4 headers) (side.synOptionOrder headers) (strip body))

theorem fallback_empty (headers : Headers) (k : String) :
    (fallback .empty headers .empty).get? k = none := by
  have hstrip : strip .empty = (SortedMap.empty : Fields) := by rfl
  simp [fallback, hstrip, enrichProtocolFieldsScoped, SideJoin.empty, applyAll, apply, put]

theorem findSome?_readNonBlank (headers : Headers) (names : List String) :
    (names.findSome? fun name => direct headers name readNonBlank) =
      (pick headers names).map str := by
  unfold pick
  induction names with
  | nil => rfl
  | cons name names ih =>
      rw [List.findSome?_cons, List.findSome?_cons, ih]
      cases hget : headers.get? name with
      | none => simp [direct, hget]
      | some value =>
          cases hblank : nonBlank value with
          | none => simp [direct, hget, readNonBlank, hblank]
          | some t => simp [direct, hget, readNonBlank, hblank]

theorem reading_picked (key header : String) (aliases : List String) (headers : Headers) :
    (picked key header aliases).reading headers =
      (pick headers (header :: aliases)).map str := by
  rw [← findSome?_readNonBlank, List.findSome?_cons]
  simp only [Slot.reading, Slot.others, picked, List.findSome?_map, Function.comp_def]
  cases direct headers header readNonBlank <;> rfl

theorem reading_single (key header : String) (read : String → Option Json)
    (headers : Headers) : (single key header read).reading headers = direct headers header read := by
  simp [Slot.reading, Slot.others, single]

@[simp] theorem key_picked (key header : String) (aliases : List String) :
    (picked key header aliases).key = key := rfl

@[simp] theorem key_single (key header : String) (read : String → Option Json) :
    (single key header read).key = key := rfl

@[simp] theorem others_single (key header : String) (read : String → Option Json)
    (headers : Headers) : (single key header read).others headers = none := rfl

theorem direct_readStr_or (headers : Headers) (name : String) (v : Option Json) :
    (direct headers name readStr).or
        ((direct headers name fun value => (nonEmpty value).map str).or v) =
      (direct headers name readStr).or v := by
  cases hget : headers.get? name <;> simp [direct, hget, readStr]

theorem get?_gatewayEarly (side : SideJoin) (headers : Headers) (body : Fields) :
    ∀ slot ∈ slots, (gatewayEarly side headers body).get? slot.key =
      (slot.reading headers).or ((fallback side headers body).get? slot.key) := by
  have hstrip : (strip body).get? "ja4" = none := by
    simp [strip, strippedKeys, SortedMap.get?_erase]
  -- the QUIC sample gives a JA4 only where no header does
  have hquic : ∀ k ∈ ["ja4", "tls_ja4"], (gatewayEarly side headers body).get? k =
      ((pick headers trustedJa4Headers).map str).or ((fallback side headers body).get? k) := by
    cases hja4 : pick headers trustedJa4Headers <;>
      simp [gatewayEarly, fallback, get?_applyAll, injectProtocolFromHeaders,
        enrichProtocolFieldsScoped, gatewayDepthFields, applyTcpDepthToFields,
        SortedMap.contains, hstrip, hja4]
  have hh2 : h2Slot.reading headers = (direct headers "x-h2-fingerprint" readStr).or
      ((pick headers trustedH2Headers).map str) := by
    simp only [Slot.reading, Slot.others, h2Slot, List.findSome?_map, Function.comp_def,
      findSome?_readNonBlank]
  have hinfo : tcpInfoSlot.reading headers = (direct headers "x-gr-tcp-info" readFlag).or
      (direct headers "x-gr-tcp-rtt-us" readPresent) := by
    simp [Slot.reading, Slot.others, tcpInfoSlot]
  simp only [slots, tlsSlots, insertedSlots, mssSlot, List.cons_append, List.nil_append,
    List.forall_mem_cons, reading_picked, reading_single, hh2, hinfo, key_picked, key_single,
    ← trustedJa4Headers.eq_1]
  refine ⟨hquic "ja4" (by simp), hquic "tls_ja4" (by simp), ?_⟩
  simp [gatewayEarly, fallback, get?_applyAll, injectProtocolFromHeaders,
    enrichProtocolFieldsScoped, gatewayDepthFields, applyTcpDepthToFields, h2Slot, tcpInfoSlot,
    trustedJa3Headers, trustedAlpnHeaders, trustedH2Headers, direct_readStr_or, Option.or_assoc]

/-! ## Headers of the capture and headers of the client -/

def peerHeaders : List String :=
  ["x-gr-peer-addr", "x-gr-peer-ip", "x-gr-peer-port", "x-forwarded-for", "x-real-ip"]

def tlsHeaders : List String :=
  ["x-tls-ja4", "x-tls-ja3", "x-tls-alpn", "x-tls-ja4-r", "x-tls-ext-order",
    "x-tls-cipher-order", "x-tls-key-share-groups", "x-tls-psk-modes", "x-tls-ech",
    "x-tls-alps", "x-tls-session-ticket", "x-tls-early-data", "x-tls-ext-presence"]

def replacedHeaders : List String :=
  ["x-h2-fingerprint", "x-http2-fingerprint", "x-gr-h2-hash", "x-gr-h2-capture-version",
    "x-gr-h2-preface-ok", "x-gr-h2-window-update", "x-gr-h2-priority-fp", "x-gr-h2-frame-seq",
    "x-gr-tcp-info", "x-gr-tcp-rtt-us", "x-gr-tcp-min-rtt-us", "x-gr-tcp-snd-cwnd",
    "x-gr-tcp-total-retrans", "x-gr-tcp-congestion", "x-gr-tcp-saved-syn", "x-gr-tcp-syn-opts"]

def aliasHeaders : List String :=
  ["x-ja4", "cf-ja4", "x-client-ja4", "x-ja3", "cf-ja3", "x-alpn", "x-ja4-r",
    "x-tls-extensions-order", "x-tls-ciphers-order", "x-akamai-h2", "cf-http2-fingerprint"]

def captureKinds : List (String × Bool) :=
  (captureWrites ⟨.origin, none, none, none, none, none⟩).map fun w => (w.key, w.replaces)

theorem captureWrites_kinds (conn : Connection) :
    (captureWrites conn).map (fun w => (w.key, w.replaces)) = captureKinds := rfl

theorem kind_mem {conn : Connection} {w : MapWrite String String}
    (hw : w ∈ captureWrites conn) : (w.key, w.replaces) ∈ captureKinds := by
  rw [← captureWrites_kinds conn]
  exact List.mem_map_of_mem hw

section Requests

variable {conn : Connection} {client : Headers} {name : String}

theorem get?_captureHeaders_lb (hlb : conn.mode = .lb) :
    (captureHeaders conn).get? name = none := by
  simp [captureHeaders, hlb]

theorem get?_injectPeer (peer : Peer) (hname : name ∉ peerHeaders) :
    (injectPeer peer client).get? name = client.get? name := by
  simp only [peerHeaders, List.mem_cons, List.not_mem_nil, or_false, not_or] at hname
  obtain ⟨haddr, hip, hport, hforwarded, hreal⟩ := hname
  simp only [injectPeer]
  split_ifs <;>
    simp [get?_applyAll, get?_apply, SortedMap.get?_insertNew, SortedMap.get?_erase, haddr,
      hforwarded, hreal, Ne.symm hip, Ne.symm hport, Ne.symm hreal]

theorem get?_requestFilter (hmode : conn.mode ≠ .lb) (hname : name ∉ peerHeaders) :
    (requestFilter conn client).get? name =
      (applyAll client (captureWrites conn)).get? name := by
  unfold requestFilter
  rw [if_neg hmode, get?_applyAll, get?_applyAll]
  cases conn.peer with
  | none => rfl
  | some peer => simp [get?_injectPeer peer hname]

/-- How the lists of header names lie to each other. -/
structure NamesApart : Prop where
  tlsPeer : ∀ n ∈ tlsHeaders, n ∉ peerHeaders
  replacedPeer : ∀ n ∈ replacedHeaders, n ∉ peerHeaders
  aliasPeer : ∀ n ∈ aliasHeaders, n ∉ peerHeaders
  keeps : ∀ kind ∈ captureKinds, kind.1 ∈ tlsHeaders → kind.2 = false
  puts : ∀ kind ∈ captureKinds, kind.1 ∈ replacedHeaders → kind.2 = true
  noAlias : ∀ kind ∈ captureKinds, kind.1 ∉ aliasHeaders
  tlsSlots : ∀ slot ∈ tlsSlots, slot.header ∈ tlsHeaders ∧
    ∀ source ∈ slot.aliases, source.1 ∈ aliasHeaders
  insertedSlots : ∀ slot ∈ insertedSlots, slot.header ∈ replacedHeaders

theorem namesApart : NamesApart := by
  constructor <;> decide +kernel

theorem get?_tlsHeader (hmode : conn.mode ≠ .lb) (hname : name ∈ tlsHeaders) :
    (requestFilter conn client).get? name =
      (client.get? name).or ((captureHeaders conn).get? name) := by
  rw [get?_requestFilter hmode (namesApart.tlsPeer name hname), captureHeaders, if_neg hmode]
  apply get?_applyAll_of_keeps
  intro w hw hkey
  exact namesApart.keeps (w.key, w.replaces) (kind_mem hw) (by rwa [hkey])

theorem get?_replacedHeader (hmode : conn.mode ≠ .lb) (hname : name ∈ replacedHeaders) :
    (requestFilter conn client).get? name =
      ((captureHeaders conn).get? name).or (client.get? name) := by
  rw [get?_requestFilter hmode (namesApart.replacedPeer name hname), captureHeaders,
    if_neg hmode]
  apply get?_applyAll_of_puts
  intro w hw hkey
  exact namesApart.puts (w.key, w.replaces) (kind_mem hw) (by rwa [hkey])

theorem captureWrites_ne_alias (hname : name ∈ aliasHeaders) :
    ∀ w ∈ captureWrites conn, w.key ≠ name := by
  intro w hw hkey
  exact namesApart.noAlias (w.key, w.replaces) (kind_mem hw) (by rwa [hkey])

theorem get?_aliasHeader (hmode : conn.mode ≠ .lb) (hname : name ∈ aliasHeaders) :
    (requestFilter conn client).get? name = client.get? name := by
  rw [get?_requestFilter hmode (namesApart.aliasPeer name hname)]
  exact get?_applyAll_of_not_mem (captureWrites_ne_alias hname)

theorem get?_captureHeaders_alias (hname : name ∈ aliasHeaders) :
    (captureHeaders conn).get? name = none := by
  unfold captureHeaders
  split_ifs
  · rfl
  · rw [get?_applyAll_of_not_mem (captureWrites_ne_alias hname), SortedMap.get?_empty]

end Requests

def counterMss (conn : Connection) : Option String :=
  (conn.socket.bind (·.info)).bind (positive ·.sndMss)

theorem get?_captureHeaders_mss {conn : Connection} (hmode : conn.mode ≠ .lb) :
    (captureHeaders conn).get? "x-gr-tcp-mss" = (counterMss conn).or
      ((conn.socket.bind (·.maxSeg)).bind fun v => positive v.toNat) := by
  simp [captureHeaders, hmode, get?_applyAll, captureWrites, injectProxyIntoHeaders,
    injectIntoHeaders, injectTcpDepth, injectTcpInfoHeaders, injectSockoptHeaders,
    injectH2IntoHeaders, counterMss]

theorem get?_mssHeader {conn : Connection} (hmode : conn.mode ≠ .lb) (client : Headers) :
    (requestFilter conn client).get? "x-gr-tcp-mss" =
      ((counterMss conn).or (client.get? "x-gr-tcp-mss")).or
        ((captureHeaders conn).get? "x-gr-tcp-mss") := by
  rw [get?_requestFilter hmode (by decide), get?_captureHeaders_mss hmode, get?_applyAll]
  cases hmss : counterMss conn <;>
    simp [captureWrites, injectProxyIntoHeaders, injectIntoHeaders, injectTcpDepth,
      injectTcpInfoHeaders, injectSockoptHeaders, injectH2IntoHeaders, ← counterMss.eq_1, hmss]

/-! ## Fields under the client's headers -/

/-- The field's first header is filled only where the client leaves it out, and
its aliases are the client's alone. -/
structure Slot.Filled (slot : Slot) (conn : Connection) (client : Headers) : Prop where
  header : (requestFilter conn client).get? slot.header =
    (client.get? slot.header).or ((captureHeaders conn).get? slot.header)
  others : slot.others (requestFilter conn client) = slot.others client
  noOthers : slot.others (captureHeaders conn) = none

theorem Slot.Filled.reading_iff {slot : Slot} {conn : Connection} {client : Headers}
    (h : slot.Filled conn client) {base : Option Json} {v : Json}
    (hcap : slot.reading (captureHeaders conn) = some v) :
    (slot.reading (requestFilter conn client)).or base = some v ↔
      client.get? slot.header = none ∨ (slot.reading client).or base = some v := by
  simp only [Slot.reading, h.noOthers, Option.or_none] at hcap
  simp only [Slot.reading, h.others]
  cases hclient : client.get? slot.header with
  | none =>
      have hfirst : direct (requestFilter conn client) slot.header slot.read = some v := by
        rw [direct, h.header, hclient, Option.none_or]
        exact hcap
      simp [hfirst]
  | some value =>
      have hfirst : direct (requestFilter conn client) slot.header slot.read =
          direct client slot.header slot.read := by
        rw [direct, direct, h.header, hclient, Option.some_or]
      simp [hfirst]

theorem others_congr {slot : Slot} {headers headers' : Headers}
    (halias : ∀ source ∈ slot.aliases, headers.get? source.1 = headers'.get? source.1) :
    slot.others headers = slot.others headers' := by
  unfold Slot.others
  generalize slot.aliases = sources at halias ⊢
  induction sources with
  | nil => rfl
  | cons source rest ih =>
      have hrest := ih fun source' hsource' => halias source' (List.mem_cons_of_mem _ hsource')
      rw [List.findSome?_cons, List.findSome?_cons, hrest, direct, direct,
        halias source List.mem_cons_self]

theorem others_eq_none {slot : Slot} {headers : Headers}
    (halias : ∀ source ∈ slot.aliases, headers.get? source.1 = none) :
    slot.others headers = none := by
  simp only [Slot.others, List.findSome?_eq_none_iff]
  intro source hsource
  simp [direct, halias source hsource]

theorem filled_of_mem_tlsSlots {conn : Connection} (hmode : conn.mode ≠ .lb)
    (client : Headers) {slot : Slot} (hslot : slot ∈ tlsSlots) : slot.Filled conn client := by
  obtain ⟨hheader, haliases⟩ := namesApart.tlsSlots slot hslot
  refine ⟨get?_tlsHeader hmode hheader, others_congr ?_, others_eq_none ?_⟩
  · intro source hsource
    exact get?_aliasHeader hmode (haliases source hsource)
  · intro source hsource
    exact get?_captureHeaders_alias (haliases source hsource)

theorem filled_mssSlot {conn : Connection} (hmode : conn.mode ≠ .lb) (client : Headers)
    (hcounter : counterMss conn = none) : mssSlot.Filled conn client where
  header := by
    rw [mssSlot, single, get?_mssHeader hmode, hcounter, Option.none_or]
  others := rfl
  noOthers := rfl

theorem direct_replaced {conn : Connection} (hmode : conn.mode ≠ .lb) (client : Headers)
    {name : String} (hname : name ∈ replacedHeaders) {read : String → Option Json} {v : Json}
    (hcap : direct (captureHeaders conn) name read = some v) :
    direct (requestFilter conn client) name read = some v := by
  unfold direct at hcap ⊢
  obtain ⟨value, hvalue, hread⟩ := Option.bind_eq_some_iff.mp hcap
  rw [get?_replacedHeader hmode hname, hvalue, Option.some_or, Option.bind_some, hread]

theorem get?_captureHeaders_http2 (conn : Connection) :
    (captureHeaders conn).get? "x-http2-fingerprint" =
      (captureHeaders conn).get? "x-h2-fingerprint" := by
  unfold captureHeaders
  split_ifs
  · rfl
  · simp [get?_applyAll, captureWrites, injectProxyIntoHeaders, injectIntoHeaders,
      injectTcpDepth, injectTcpInfoHeaders, injectSockoptHeaders, injectH2IntoHeaders]

theorem get?_captureHeaders_tcpInfo (conn : Connection)
    (hinfo : direct (captureHeaders conn) "x-gr-tcp-info" readFlag = none) :
    (captureHeaders conn).get? "x-gr-tcp-rtt-us" = none := by
  by_cases hmode : conn.mode = .lb
  · exact get?_captureHeaders_lb hmode
  · have hflag : (captureHeaders conn).get? "x-gr-tcp-info" =
        (conn.socket.bind (·.info)).map fun _ => "1" := by
      simp [captureHeaders, hmode, get?_applyAll, captureWrites, injectProxyIntoHeaders,
        injectIntoHeaders, injectTcpDepth, injectTcpInfoHeaders, injectSockoptHeaders,
        injectH2IntoHeaders]
    have hrtt : (captureHeaders conn).get? "x-gr-tcp-rtt-us" =
        (conn.socket.bind (·.info)).bind (positive ·.rtt) := by
      simp [captureHeaders, hmode, get?_applyAll, captureWrites, injectProxyIntoHeaders,
        injectIntoHeaders, injectTcpDepth, injectTcpInfoHeaders, injectSockoptHeaders,
        injectH2IntoHeaders]
    cases hcounters : conn.socket.bind (·.info) with
    | none => rw [hrtt, hcounters, Option.bind_none]
    | some info => simp [direct, hflag, hcounters, readFlag] at hinfo

theorem noOthers_of_mem_insertedSlots (conn : Connection) :
    ∀ slot ∈ insertedSlots, direct (captureHeaders conn) slot.header slot.read = none →
      slot.others (captureHeaders conn) = none := by
  have hakamai : (captureHeaders conn).get? "x-akamai-h2" = none :=
    get?_captureHeaders_alias (by decide)
  have hcf : (captureHeaders conn).get? "cf-http2-fingerprint" = none :=
    get?_captureHeaders_alias (by decide)
  have hhttp2 := get?_captureHeaders_http2 conn
  have hh2 : direct (captureHeaders conn) h2Slot.header h2Slot.read = none →
      h2Slot.others (captureHeaders conn) = none := by
    intro hnone
    have hfingerprint : (captureHeaders conn).get? "x-h2-fingerprint" = none := by
      cases hget : (captureHeaders conn).get? "x-h2-fingerprint" with
      | none => rfl
      | some value => simp [direct, h2Slot, hget, readStr] at hnone
    simp [Slot.others, h2Slot, trustedH2Headers, direct, hhttp2, hfingerprint, hakamai, hcf]
  have hpicked : direct (captureHeaders conn) "x-http2-fingerprint" readNonBlank = none →
      (picked "http2_fingerprint" "x-http2-fingerprint"
        ["x-h2-fingerprint", "x-akamai-h2", "cf-http2-fingerprint"]).others
          (captureHeaders conn) = none := by
    intro hnone
    rw [direct, hhttp2] at hnone
    simp [Slot.others, picked, direct, hnone, hakamai, hcf]
  have hinfo : direct (captureHeaders conn) tcpInfoSlot.header tcpInfoSlot.read = none →
      tcpInfoSlot.others (captureHeaders conn) = none := by
    intro hnone
    simp [Slot.others, tcpInfoSlot, direct, get?_captureHeaders_tcpInfo conn hnone]
  simp only [insertedSlots, List.forall_mem_cons, others_single, implies_true, true_and]
  exact ⟨hh2, hpicked, hinfo, by simp⟩

theorem reading_of_mem_insertedSlots {conn : Connection} (hmode : conn.mode ≠ .lb)
    (client : Headers) {slot : Slot} (hslot : slot ∈ insertedSlots) {v : Json}
    (hcap : slot.reading (captureHeaders conn) = some v) :
    slot.reading (requestFilter conn client) = some v := by
  have hfirst : direct (captureHeaders conn) slot.header slot.read = some v := by
    cases hdirect : direct (captureHeaders conn) slot.header slot.read with
    | none =>
        have hothers := noOthers_of_mem_insertedSlots conn slot hslot hdirect
        simp [Slot.reading, hdirect, hothers] at hcap
    | some w => simpa [Slot.reading, hdirect] using hcap
  rw [Slot.reading, direct_replaced hmode client (namesApart.insertedSlots slot hslot)
    hfirst, Option.some_or]

theorem timing_inj {b m m' f f' : String}
    (hm : m ∈ ["lt20", "20_50", "50_100", "gte100"])
    (hm' : m' ∈ ["lt20", "20_50", "50_100", "gte100"])
    (hf : f ∈ ["r0", "r1", "rN"]) (hf' : f' ∈ ["r0", "r1", "rN"]) :
    str ("q" ++ b ++ "_" ++ (m ++ "_" ++ f)) = str ("q" ++ b ++ "_" ++ (m' ++ "_" ++ f')) ↔
      m = m' ∧ f = f' := by
  have hall : ∀ m ∈ ["lt20", "20_50", "50_100", "gte100"],
      ∀ m' ∈ ["lt20", "20_50", "50_100", "gte100"], ∀ f ∈ ["r0", "r1", "rN"],
      ∀ f' ∈ ["r0", "r1", "rN"], m ++ "_" ++ f = m' ++ "_" ++ f' → m = m' ∧ f = f' := by
    decide +kernel
  constructor
  · intro h
    rw [Json.str.injEq, String.append_right_inj] at h
    exact hall m hm m' hm' f hf f' hf' h
  · rintro ⟨rfl, rfl⟩
    rfl

theorem minBucket_mem (headers : Headers) (rtt : ℕ) :
    minBucket headers rtt ∈ ["lt20", "20_50", "50_100", "gte100"] := by
  unfold minBucket minRttBucket
  split_ifs <;> simp

theorem retxFlag_mem (headers : Headers) : retxFlag headers ∈ ["r0", "r1", "rN"] := by
  unfold retxFlag retransClass
  split_ifs <;> simp

/-- The counters that the capture leaves out put the client's headers in the
classes they would be in without them. -/
structure TimingKept (conn : Connection) (client : Headers) (rtt : ℕ) : Prop where
  minRtt : (captureHeaders conn).get? "x-gr-tcp-min-rtt-us" = none →
    minBucket client rtt = minBucket .empty rtt
  retrans : (captureHeaders conn).get? "x-gr-tcp-total-retrans" = none →
    retxFlag client = retxFlag .empty

theorem get?_gatewayEarly_ja4l (side : SideJoin) (headers : Headers) (body : Fields) :
    (gatewayEarly side headers body).get? "ja4l" = (ja4l headers).or (body.get? "ja4l") := by
  simp [gatewayEarly, get?_applyAll, injectProtocolFromHeaders, enrichProtocolFieldsScoped,
    gatewayDepthFields, applyTcpDepthToFields, strip, strippedKeys, SortedMap.get?_erase]

theorem minBucket_congr {headers headers' : Headers} (rtt : ℕ)
    (h : headers.get? "x-gr-tcp-min-rtt-us" = headers'.get? "x-gr-tcp-min-rtt-us") :
    minBucket headers rtt = minBucket headers' rtt := by
  rw [minBucket, minBucket, h]

theorem retxFlag_congr {headers headers' : Headers}
    (h : headers.get? "x-gr-tcp-total-retrans" = headers'.get? "x-gr-tcp-total-retrans") :
    retxFlag headers = retxFlag headers' := by
  rw [retxFlag, retxFlag, h]

theorem ja4l_kept_iff {conn : Connection} (hmode : conn.mode ≠ .lb) (client : Headers)
    {rtt : ℕ} {base : Option Json}
    (hrtt : ((captureHeaders conn).get? "x-gr-tcp-rtt-us").bind (parseUnsigned 64) = some rtt) :
    (ja4l (requestFilter conn client)).or base = ja4l (captureHeaders conn) ↔
      TimingKept conn client rtt := by
  have hrtt' : ((requestFilter conn client).get? "x-gr-tcp-rtt-us").bind (parseUnsigned 64) =
      some rtt := by
    obtain ⟨value, hvalue, hparse⟩ := Option.bind_eq_some_iff.mp hrtt
    rw [get?_replacedHeader hmode (by decide), hvalue, Option.some_or, Option.bind_some,
      hparse]
  have hmin : (requestFilter conn client).get? "x-gr-tcp-min-rtt-us" =
      ((captureHeaders conn).get? "x-gr-tcp-min-rtt-us").or
        (client.get? "x-gr-tcp-min-rtt-us") :=
    get?_replacedHeader hmode (by decide)
  have hretrans : (requestFilter conn client).get? "x-gr-tcp-total-retrans" =
      ((captureHeaders conn).get? "x-gr-tcp-total-retrans").or
        (client.get? "x-gr-tcp-total-retrans") :=
    get?_replacedHeader hmode (by decide)
  have hbucket : minBucket (requestFilter conn client) rtt = minBucket (captureHeaders conn) rtt ↔
      ((captureHeaders conn).get? "x-gr-tcp-min-rtt-us" = none →
        minBucket client rtt = minBucket .empty rtt) := by
    cases hcap : (captureHeaders conn).get? "x-gr-tcp-min-rtt-us" with
    | none =>
        rw [hcap, Option.none_or] at hmin
        have hempty := minBucket_congr rtt (hcap.trans (SortedMap.get?_empty _).symm)
        simp [minBucket_congr rtt hmin, hempty]
    | some value =>
        rw [hcap, Option.some_or, ← hcap] at hmin
        simp [minBucket_congr rtt hmin]
  have hflag : retxFlag (requestFilter conn client) = retxFlag (captureHeaders conn) ↔
      ((captureHeaders conn).get? "x-gr-tcp-total-retrans" = none →
        retxFlag client = retxFlag .empty) := by
    cases hcap : (captureHeaders conn).get? "x-gr-tcp-total-retrans" with
    | none =>
        rw [hcap, Option.none_or] at hretrans
        have hempty := retxFlag_congr (hcap.trans (SortedMap.get?_empty _).symm)
        simp [retxFlag_congr hretrans, hempty]
    | some value =>
        rw [hcap, Option.some_or, ← hcap] at hretrans
        simp [retxFlag_congr hretrans]
  rw [ja4l, ja4l, hrtt, hrtt', Option.map_some, Option.map_some, Option.some_or, Option.some.injEq,
    timing_inj (minBucket_mem _ _) (minBucket_mem _ _) (retxFlag_mem _) (retxFlag_mem _),
    hbucket, hflag]
  exact ⟨fun h => ⟨h.1, h.2⟩, fun h => ⟨h.minRtt, h.retrans⟩⟩

/-! ## When the capture decides -/

def filledSlots (conn : Connection) : List Slot :=
  if counterMss conn = none then mssSlot :: tlsSlots else tlsSlots

/-- The client does not come before the capture: of a header that only fills a
gap the client sends none, or what it sends gives the captured value; and its
counters do not move the timing classes. -/
structure NotOverridden (conn : Connection) (side : SideJoin) (client : Headers)
    (body : Fields) : Prop where
  filled : ∀ slot ∈ filledSlots conn, ∀ v, slot.reading (captureHeaders conn) = some v →
    client.get? slot.header = none ∨
      (slot.reading client).or
        ((fallback side (requestFilter conn client) body).get? slot.key) = some v
  timing : ∀ rtt,
    ((captureHeaders conn).get? "x-gr-tcp-rtt-us").bind (parseUnsigned 64) = some rtt →
      TimingKept conn client rtt

variable {conn : Connection} {side : SideJoin} {client : Headers} {body : Fields}

theorem captured_slot {slot : Slot} (hslot : slot ∈ slots) :
    captured conn slot.key = slot.reading (captureHeaders conn) := by
  rw [captured, get?_gatewayEarly _ _ _ slot hslot, fallback_empty, Option.or_none]

theorem captured_ja4l : captured conn "ja4l" = ja4l (captureHeaders conn) := by
  rw [captured, get?_gatewayEarly_ja4l, SortedMap.get?_empty, Option.or_none]

theorem captured_lb (hmode : conn.mode = .lb) {k : String} (hk : k ∈ protocolKeys) :
    captured conn k = none := by
  have hempty : captureHeaders conn = .empty := by simp [captureHeaders, hmode]
  have hall : ∀ k ∈ protocolKeys, (gatewayEarly .empty .empty .empty).get? k = none := by
    decide +kernel
  rw [captured, hempty]
  exact hall k hk

theorem filled_of_mem_filledSlots (hmode : conn.mode ≠ .lb) {slot : Slot}
    (hslot : slot ∈ filledSlots conn) : slot.Filled conn client := by
  unfold filledSlots at hslot
  split_ifs at hslot with hcounter
  · cases hslot with
    | head => exact filled_mssSlot hmode client hcounter
    | tail _ htls => exact filled_of_mem_tlsSlots hmode client htls
  · exact filled_of_mem_tlsSlots hmode client hslot

theorem mem_slots_of_filled {slot : Slot} (hslot : slot ∈ filledSlots conn) : slot ∈ slots := by
  unfold filledSlots at hslot
  split_ifs at hslot
  · cases hslot with
    | head => simp [slots]
    | tail _ htls => exact List.mem_append_left _ htls
  · exact List.mem_append_left _ hslot

theorem filled_or_stored (hmode : conn.mode ≠ .lb) (client : Headers) {slot : Slot}
    (hslot : slot ∈ slots) {v : Json} (hcap : slot.reading (captureHeaders conn) = some v) :
    slot ∈ filledSlots conn ∨ slot.reading (requestFilter conn client) = some v := by
  have htls : ∀ slot ∈ tlsSlots, slot ∈ filledSlots conn := by
    intro slot hslot
    unfold filledSlots
    split_ifs
    · exact List.mem_cons_of_mem _ hslot
    · exact hslot
  rcases List.mem_append.mp hslot with hslot | hslot
  · exact Or.inl (htls slot hslot)
  · cases hslot with
    | tail _ hinserted =>
        exact Or.inr (reading_of_mem_insertedSlots hmode client hinserted hcap)
    | head =>
        cases hcounter : counterMss conn with
        | none =>
            left
            simp [filledSlots, hcounter]
        | some mss =>
            right
            rw [mssSlot, reading_single, direct, get?_captureHeaders_mss hmode, hcounter] at hcap
            rw [mssSlot, reading_single, direct, get?_mssHeader hmode, hcounter]
            exact hcap

theorem notOverridden_of_lb (hmode : conn.mode = .lb) : NotOverridden conn side client body := by
  constructor
  · intro slot hslot v hcap
    have hmem := mem_slots_of_filled hslot
    rw [← captured_slot hmem, captured_lb hmode (key_mem_protocolKeys hmem)] at hcap
    contradiction
  · intro rtt hrtt
    simp [get?_captureHeaders_lb hmode] at hrtt

theorem ComesFromCapture.notOverridden (hmode : conn.mode ≠ .lb)
    (h : ComesFromCapture conn side client body) : NotOverridden conn side client body := by
  constructor
  · intro slot hslot v hcap
    have hmem := mem_slots_of_filled hslot
    have hstored := h slot.key (key_mem_protocolKeys hmem) v ((captured_slot hmem).trans hcap)
    rw [stored, get?_gatewayEarly _ _ _ slot hmem] at hstored
    exact ((filled_of_mem_filledSlots hmode hslot).reading_iff hcap).mp hstored
  · intro rtt hrtt
    cases hja4l : ja4l (captureHeaders conn) with
    | none => simp [ja4l, hrtt] at hja4l
    | some v =>
        have hstored := h "ja4l" (by decide) v (captured_ja4l.trans hja4l)
        rw [stored, get?_gatewayEarly_ja4l, ← hja4l] at hstored
        exact (ja4l_kept_iff hmode client hrtt).mp hstored

theorem NotOverridden.comesFromCapture (hmode : conn.mode ≠ .lb)
    (h : NotOverridden conn side client body) : ComesFromCapture conn side client body := by
  intro k hk v hcap
  rcases slot_of_mem_protocolKeys hk with rfl | ⟨slot, hslot, rfl⟩
  · rw [captured_ja4l] at hcap
    rw [stored, get?_gatewayEarly_ja4l, ← hcap]
    cases hrtt : ((captureHeaders conn).get? "x-gr-tcp-rtt-us").bind (parseUnsigned 64) with
    | none => simp [ja4l, hrtt] at hcap
    | some rtt => exact (ja4l_kept_iff hmode client hrtt).mpr (h.timing rtt hrtt)
  · rw [captured_slot hslot] at hcap
    rw [stored, get?_gatewayEarly _ _ _ slot hslot]
    cases filled_or_stored hmode client hslot hcap with
    | inl hfilled =>
        exact ((filled_of_mem_filledSlots hmode hfilled).reading_iff hcap).mpr
          (h.filled slot hfilled v hcap)
    | inr hstored => rw [hstored, Option.some_or]

theorem comesFromCapture_iff :
    ComesFromCapture conn side client body ↔ NotOverridden conn side client body := by
  by_cases hmode : conn.mode = .lb
  · constructor
    · intro _
      exact notOverridden_of_lb hmode
    · intro _ k hk v hcap
      rw [captured_lb hmode hk] at hcap
      contradiction
  · exact ⟨fun h => h.notOverridden hmode, fun h => h.comesFromCapture hmode⟩

/-- The protocol fields come from the capture exactly where the client's headers
do not come first, and then do not depend on them. -/
theorem protocol_fields_from_capture_iff (conn : Connection) (side : SideJoin) (body : Fields) :
    (∀ lines, ComesFromCapture conn side (headersMap lines) body ↔
      NotOverridden conn side (headersMap lines) body) ∧
    ∀ lines lines', NotOverridden conn side (headersMap lines) body →
      NotOverridden conn side (headersMap lines') body →
        ∀ k ∈ protocolKeys, captured conn k ≠ none →
          (stored conn side (headersMap lines) body).get? k =
            (stored conn side (headersMap lines') body).get? k := by
  constructor
  · intro lines
    exact comesFromCapture_iff
  · intro lines lines' hlines hlines' k hk hcap
    obtain ⟨v, hv⟩ := Option.ne_none_iff_exists'.mp hcap
    rw [comesFromCapture_iff.mpr hlines k hk v hv, comesFromCapture_iff.mpr hlines' k hk v hv]

def sampleConnection : Connection where
  mode := .origin
  peer := some ⟨"203.0.113.7:50000", some ("203.0.113.7", 50000), false⟩
  proxy := none
  tls := some ⟨"t13d1516h2_8daaf6152771_02713d6af862", "", some "h2", "", "", "", "", "",
    false, false, false, false, ""⟩
  socket := none
  h2 := none

/-- A client that names another fingerprint is believed. -/
theorem client_header_replaces_captured_ja4 :
    captured sampleConnection "ja4" =
        some (str "t13d1516h2_8daaf6152771_02713d6af862") ∧
      (stored sampleConnection .empty (headersMap []) .empty).get? "ja4" =
        some (str "t13d1516h2_8daaf6152771_02713d6af862") ∧
      (stored sampleConnection .empty (headersMap [("X-TLS-JA4", "t13d1715h2_5b57614c22b0")])
        .empty).get? "ja4" = some (str "t13d1715h2_5b57614c22b0") := by
  refine ⟨?_, ?_, ?_⟩ <;> decide +kernel

end EdgeFingerprint

end GrServer
