import GrServer.GuardedRun
import GrServer.ProxyHeader

/-!
# PROXY headers of connections

A header is taken off before TLS and kept under the key of its connection, in
one store for the process.  A request looks up its connection, and failing that
a header that names its peer as the source.  The headers it adds are those of
its own connection as long as what is kept under its key is its own and no kept
header of another connection names the peer.
-/

namespace GrServer

open Text WireBytes EdgeFingerprint

namespace ProxyProtocol

structure SocketDigest where
  cookie : Option ℕ
  peer : Option (IpAddr × UInt16)
  loc : Option (IpAddr × UInt16)

structure Conn where
  id : ℕ
  digest : Option SocketDigest

def ipText (ip : IpAddr) : String := String.ofList (IpAddr.display ip)

/-- `key_from_stream` and `connection_key_from_session`. -/
def connectionKey (c : Conn) : Option String :=
  match c.digest with
  | none => none
  | some dig =>
      match dig.cookie.filter fun cookie => decide (cookie ≠ 0) with
      | some cookie => some ("sockcookie:" ++ String.ofList (Nat.toDigits 16 cookie))
      | none =>
          match dig.peer, dig.loc with
          | some (peer, peerPort), some (here, herePort) =>
              some ("tuple:" ++ ipText peer ++ ":" ++ peerPort.toNat.repr ++ "-" ++ ipText here ++
                ":" ++ herePort.toNat.repr)
          | _, _ => none

def peerText (c : Conn) : Option String :=
  (c.digest.bind (·.peer)).map fun peer => ipText peer.1

/-! ## The store -/

abbrev Entry := String × ProxyProtocolInfo

def get (store : List Entry) (key : String) : Option ProxyProtocolInfo :=
  (store.find? fun entry => decide (entry.1 = key)).map Prod.snd

def put (store : List Entry) (key : String) (info : ProxyProtocolInfo) : List Entry :=
  (key, info) :: store.filter fun entry => decide (entry.1 ≠ key)

/-- `max_by_key`: the last of those with the greatest key. -/
def maxByKey {α : Type} (f : α → ℕ) (l : List α) : Option α :=
  l.foldl (fun best x => match best with
    | none => some x
    | some b => if f b ≤ f x then some x else some b) none

section Lookup

variable (order : List Entry → List Entry)

/-- The map is walked in an order of its own. -/
def latestProxyForIp (store : List Entry) (ip : String) : Option ProxyProtocolInfo :=
  maxByKey (·.rawHeaderLen) (((order store).map Prod.snd).filter fun info =>
    decide (info.srcIp = some ip))

def proxyInfo (store : List Entry) (c : Conn) : Option ProxyProtocolInfo :=
  (((connectionKey c).bind (get store)).or
    ((peerText c).bind (latestProxyForIp order store))).filter (·.parseOk)

def headerInfo (info : ProxyProtocolInfo) : ProxyInfo :=
  ⟨info.version, info.srcIp, info.srcPort, info.dstIp⟩

def injected (store : List Entry) (c : Conn) : List (MapWrite String String) :=
  injectProxyIntoHeaders ((proxyInfo order store c).map headerInfo)

end Lookup

def takeHeader (buf later : List UInt8) : Option ProxyProtocolInfo × List UInt8 :=
  match tryParse buf with
  | some (info, consumed) => (some info, buf.drop consumed ++ later)
  | none => (none, buf ++ later)

/-- `first` is what the one read gave, nothing at the end of the stream or on an error;
`later` is what comes after it.  A block of version 2 is read to its end. -/
def process (enabled : Bool) (first later : List UInt8) :
    Option ProxyProtocolInfo × List UInt8 :=
  if ¬enabled ∨ first = [] then (none, first ++ later)
  else
    let len := 16 + (u16At first 14).toNat
    let more := len - first.length
    if sig.isPrefixOf first ∧ 16 ≤ first.length ∧ first.length < len ∧ len ≤ 4096 then
      if more ≤ later.length then takeHeader (first ++ later.take more) (later.drop more)
      else (none, first)
    else takeHeader first later

/-! ## Runs -/

/-- The store, which connection each header came on, under which key, and which
one last kept a header under a key. -/
structure State where
  store : List Entry := []
  received : List (ℕ × String × ProxyProtocolInfo) := []
  writer : String → ℕ := fun _ => 0

inductive Event where
  | opened (c : Conn) (first later : List UInt8)
  | request (c : Conn)

def step (enabled : Bool) (s : State) : Event → State
  | .opened c first later =>
      match (process enabled first later).1 with
      | none => s
      | some info =>
          let key := (connectionKey c).getD "unknown"
          { store := put s.store key info
            received := (c.id, key, info) :: s.received
            writer := Function.update s.writer key c.id }
  | .request _ => s

/-- The headers added to a request are those of a header of its own connection. -/
def OwnHeaders (order : List Entry → List Entry) (s : State) : Event → Prop
  | .opened _ _ _ => True
  | .request c => injected order s.store c = injectProxyIntoHeaders none ∨
      ∃ key info, (c.id, key, info) ∈ s.received ∧
        injected order s.store c = injectProxyIntoHeaders (some (headerInfo info))

/-- A header kept under the key of a connection is its own; and where none is kept
under it, no kept header of another connection names the peer as its source. -/
def Apart (s : State) : Event → Prop
  | .opened _ _ _ => True
  | .request c =>
      (∀ entry ∈ s.store, entry.2.parseOk = true → connectionKey c = some entry.1 →
        s.writer entry.1 = c.id) ∧
      ((connectionKey c).bind (get s.store) = none → ∀ entry ∈ s.store,
        entry.2.parseOk = true → entry.2.srcIp = peerText c → s.writer entry.1 = c.id)

/-- What is kept was received on the connection that last wrote its key. -/
def Kept (s : State) : Prop :=
  ∀ entry ∈ s.store, (s.writer entry.1, entry.1, entry.2) ∈ s.received

section Run

variable {order : List Entry → List Entry} {s : State} {enabled : Bool}

theorem kept_step (h : Kept s) (e : Event) : Kept (step enabled s e) := by
  cases e with
  | request c => exact h
  | opened c first later =>
      unfold step
      dsimp only
      cases (process enabled first later).1 with
      | none => exact h
      | some info =>
          intro entry hmem
          dsimp only
          rcases List.mem_cons.mp hmem with rfl | hold
          · dsimp only
            rw [Function.update_self]
            exact List.mem_cons_self
          · obtain ⟨hkept, hother⟩ := List.mem_filter.mp hold
            rw [Function.update_of_ne (of_decide_eq_true hother)]
            exact List.mem_cons_of_mem _ (h entry hkept)

theorem mem_of_get {store : List Entry} {key : String} {info : ProxyProtocolInfo}
    (h : get store key = some info) : (key, info) ∈ store := by
  unfold get at h
  rcases Option.map_eq_some_iff.mp h with ⟨entry, hfind, rfl⟩
  have hkey := List.find?_some hfind
  rw [← of_decide_eq_true hkey]
  exact List.mem_of_find?_eq_some hfind

theorem mem_of_maxByKey {α : Type} {f : α → ℕ} {l : List α} {x : α}
    (h : maxByKey f l = some x) : x ∈ l := by
  unfold maxByKey at h
  induction l using List.reverseRecOn generalizing x with
  | nil => cases h
  | append_singleton l last ih =>
      rw [List.foldl_append, List.foldl_cons, List.foldl_nil] at h
      cases hbest : l.foldl (fun best x => match best with
          | none => some x
          | some b => if f b ≤ f x then some x else some b) none with
      | none =>
          rw [hbest] at h
          rw [← Option.some.inj h]
          simp
      | some b =>
          rw [hbest] at h
          dsimp only at h
          split_ifs at h
          · rw [← Option.some.inj h]
            simp
          · rw [← Option.some.inj h]
            exact List.mem_append_left _ (ih hbest)

theorem mem_of_latest (horder : ∀ l, (order l).Perm l) {store : List Entry} {ip : String}
    {info : ProxyProtocolInfo} (h : latestProxyForIp order store ip = some info) :
    info.srcIp = some ip ∧ ∃ entry ∈ store, entry.2 = info := by
  rcases List.mem_filter.mp (mem_of_maxByKey h) with ⟨hmem, hip⟩
  rcases List.mem_map.mp hmem with ⟨entry, hentry, rfl⟩
  exact ⟨of_decide_eq_true hip, entry, (horder store).subset hentry, rfl⟩

theorem own_of_apart (horder : ∀ l, (order l).Perm l) (hkept : Kept s) {e : Event}
    (h : Apart s e) : OwnHeaders order s e := by
  cases e with
  | opened c first later => trivial
  | request c =>
      unfold OwnHeaders injected
      dsimp only
      cases hinfo : proxyInfo order s.store c with
      | none => exact Or.inl rfl
      | some info =>
          right
          unfold proxyInfo at hinfo
          rcases Option.filter_eq_some_iff.mp hinfo with ⟨hlookup, hok⟩
          have hown : ∃ key, (c.id, key, info) ∈ s.received := by
            cases hkey : (connectionKey c).bind (get s.store) with
            | some found =>
                rw [hkey, Option.some_or] at hlookup
                cases hlookup
                rcases Option.bind_eq_some_iff.mp hkey with ⟨key, hconn, hget⟩
                have hstore := mem_of_get hget
                have hreceived := hkept (key, info) hstore
                rw [h.1 (key, info) hstore hok hconn] at hreceived
                exact ⟨key, hreceived⟩
            | none =>
                rw [hkey, Option.none_or] at hlookup
                rcases Option.bind_eq_some_iff.mp hlookup with ⟨ip, hpeer, hlatest⟩
                rcases mem_of_latest horder hlatest with ⟨hip, entry, hstore, rfl⟩
                have hreceived := hkept entry hstore
                rw [h.2 hkey entry hstore hok (hip.trans hpeer.symm)] at hreceived
                exact ⟨entry.1, hreceived⟩
          rcases hown with ⟨key, hmem⟩
          exact ⟨key, info, hmem, rfl⟩

end Run

/-- What a whole header gives, and that its beginning gives nothing. -/
def HeadersExact : Prop :=
  (∀ h : Header, h.Valid → ∀ d, ∃ info, tryParse (h.bytes ++ d) = some (info, h.bytes.length) ∧
      Yields info h) ∧
    ∀ h : Header, h.Valid → ∀ p, p <+: h.bytes → p ≠ h.bytes → tryParse p = none

/-- Headers are always taken off exactly; what parsed with a source address is exact where
the bytes declare it so; and the headers added to requests are their connections' own in
every run in which connections are apart. -/
theorem proxy_protocol_law (order : List Entry → List Entry) (horder : ∀ l, (order l).Perm l)
    (buf : List UInt8) (enabled : Bool) (events : List Event) :
    (HeadersExact ∧ SourceExact buf ↔ Declared buf) ∧
      (Along (step enabled) Apart {} events → Along (step enabled) (OwnHeaders order) {} events) := by
  constructor
  · rw [sourceExact_iff]
    apply and_iff_right
    constructor
    · intro h hvalid d
      exact tryParse_header hvalid d
    · intro h hvalid p hp hne
      exact tryParse_strict hvalid hp hne
  · intro hrun
    have hstart : Kept {} := nofun
    apply hrun.steps (I := Kept) _ hstart
    intro s e hkept hapart
    exact ⟨own_of_apart horder hkept hapart, kept_step hkept e⟩

def wordsLine : List UInt8 := asBytes "PROXY TCP4 foo bar 1 2\r\n"

def balancerConn : Conn := ⟨1, some ⟨some 1, some (.v4 0x0a000001, 4000), some (.v4 0x0a000009, 443)⟩⟩

def clientConn : Conn := ⟨2, some ⟨some 2, some (.v4 0xc0000207, 5000), some (.v4 0x0a000009, 443)⟩⟩

def balancerLine : List UInt8 := asBytes "PROXY TCP4 192.0.2.7 10.0.0.9 1 443\r\n"

def leakingRun : List Event :=
  [.opened balancerConn balancerLine [], .opened clientConn (asBytes "GET / HTTP/1.1\r\n") [],
    .request clientConn]

theorem wordsLine_parts :
    LineParts wordsLine "TCP4".toList "foo".toList "1".toList := by
  constructor
  · decide
  · refine ⟨22, "PROXY TCP4 foo bar 1 2", "bar".toList, "2".toList, [], ?_, ?_, ?_⟩
    · decide
    · decide
    · decide

/-- A word is taken for an address; and the client's request is given the balancer's
address and port. -/
theorem words_and_leak : ¬(HeadersExact ∧ SourceExact wordsLine) ∧
    ¬Along (step true) (OwnHeaders id) {} leakingRun := by
  constructor
  · rintro ⟨-, hexact⟩
    have hdeclared := (sourceExact_iff wordsLine).mp hexact
    rcases hdeclared.line _ _ _ wordsLine_parts (by decide) (by decide) with ⟨a, ha, -⟩
    have hnone : IpAddr.parse (String.ofList "foo".toList).toList = none := by decide
    rw [hnone] at ha
    cases ha
  · rintro ⟨-, -, hlast, -⟩
    have hids : ∀ entry ∈ (step true (step true {} (.opened balancerConn balancerLine []))
        (.opened clientConn (asBytes "GET / HTTP/1.1\r\n") [])).received, entry.1 = 1 := by
      decide
    rcases hlast with hnone | ⟨key, info, hmem, -⟩
    · have hvalues := congrArg (List.map (·.value)) hnone
      revert hvalues
      decide
    · have hid : (2 : ℕ) = 1 := hids _ hmem
      exact absurd hid (by decide)

def secondConn : Conn :=
  ⟨3, some ⟨none, some (.v4 0x0a000001, 4001), some (.v4 0x0a000009, 443)⟩⟩

def thirdConn : Conn :=
  ⟨4, some ⟨none, some (.v4 0x0a000001, 4001), some (.v4 0x0a000009, 443)⟩⟩

def secondLine : List UInt8 := asBytes "PROXY TCP4 198.51.100.9 10.0.0.9 2 443\r\n"

def balancerRun : List Event :=
  [.opened balancerConn balancerLine [], .opened secondConn secondLine (asBytes "GET"),
    .request balancerConn, .request secondConn, .opened thirdConn balancerLine [],
    .request balancerConn, .request thirdConn]

theorem balancerRun_apart : Along (step true) Apart {} balancerRun := by
  refine ⟨trivial, trivial, ⟨?_, ?_⟩, ⟨?_, ?_⟩, trivial, ⟨?_, ?_⟩, ⟨?_, ?_⟩, trivial⟩
  all_goals decide

theorem balancerLine_declared : Declared balancerLine where
  line := by
    rintro fam src srcPort ⟨-, stop, line, dst, dstPort, rest, hstop, hline, hparts⟩ - -
    have hend : crlfAt balancerLine = some 35 := by decide
    rw [hend] at hstop
    cases hstop
    have htext : TlsHello.fromUtf8 (balancerLine.take 35) =
        some "PROXY TCP4 192.0.2.7 10.0.0.9 1 443" := by decide
    rw [htext] at hline
    cases hline
    have hwords : splitWhitespace "PROXY TCP4 192.0.2.7 10.0.0.9 1 443".toList =
        ["PROXY".toList, "TCP4".toList, "192.0.2.7".toList, "10.0.0.9".toList, "1".toList,
          "443".toList] := by decide
    rw [hwords, List.cons.injEq, List.cons.injEq, List.cons.injEq] at hparts
    rw [← hparts.2.1, ← hparts.2.2.1]
    have hfamily : Named (String.ofList "TCP4".toList) (.v4 0xc0000207) := Or.inl (by decide)
    exact ⟨.v4 0xc0000207, by decide, hfamily⟩
  block := fun h => absurd h.start (by decide)

/-- The line parses as it declares, and each request is given its own connection's
addresses. -/
theorem balancerRun_own : (∀ l : List Entry, (id l).Perm l) ∧
    (HeadersExact ∧ SourceExact balancerLine) ∧
      Along (step true) (OwnHeaders id) {} balancerRun :=
  ⟨fun l => List.Perm.refl l,
    (proxy_protocol_law id (fun l => List.Perm.refl l) balancerLine true balancerRun).1.mpr
      balancerLine_declared,
    (proxy_protocol_law id (fun l => List.Perm.refl l) balancerLine true balancerRun).2
      balancerRun_apart⟩

end ProxyProtocol

end GrServer
