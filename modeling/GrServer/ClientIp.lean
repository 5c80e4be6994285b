import GrServer.IpAddress

/-!
# The client's address and its source tag

A request's client address comes from the headers of a cdn, from those of a
proxy when the peer is trusted, or from the peer itself.  The value and the tag
are found by two ladders: the one for the value passes over the proxy headers
twice and leaves loopback addresses for the second time, the one for the tag
passes over them once.
-/

namespace GrServer

open Text

/-- The leading `bits` bits agree. -/
def SamePrefix {w : ℕ} (a b : BitVec w) (bits : ℕ) : Prop :=
  ∀ i < bits, a.getMsbD i = b.getMsbD i

theorem getMsbD_prefixMask {w bits i : ℕ} (hbits : bits ≤ w) :
    (prefixMask w bits).getMsbD i = decide (i < bits) := by
  unfold prefixMask
  split_ifs with hzero
  · simp [hzero]
  · rw [BitVec.getMsbD_shiftLeft, BitVec.getMsbD_allOnes]
    congr 1
    apply propext
    omega

theorem and_prefixMask_eq_iff {w bits : ℕ} (hbits : bits ≤ w) (a b : BitVec w) :
    a &&& prefixMask w bits = b &&& prefixMask w bits ↔ SamePrefix a b bits := by
  constructor
  · intro h i hi
    have hbit := congrArg (fun x => x.getMsbD i) h
    simp only [BitVec.getMsbD_and, getMsbD_prefixMask hbits] at hbit
    simpa [hi] using hbit
  · intro h
    apply BitVec.eq_of_getMsbD_eq
    intro i hi
    rw [BitVec.getMsbD_and, BitVec.getMsbD_and, getMsbD_prefixMask hbits]
    by_cases hin : i < bits
    · rw [h i hin]
    · simp [hin]

namespace IpAddr

/-- `is_loopback`: 127.0.0.0/8, or ::1. -/
def isLoopback : IpAddr → Bool
  | v4 value => value.toNat / 2 ^ 24 = 127
  | v6 value => value.toNat = 1

end IpAddr

def ipInCidr (ip base : IpAddr) (bits : ℕ) : Bool :=
  match ip, base with
  | .v4 a, .v4 b =>
      if 32 < bits then false
      else a &&& prefixMask 32 bits = b &&& prefixMask 32 bits
  | .v6 a, .v6 b =>
      if 128 < bits then false
      else a &&& prefixMask 128 bits = b &&& prefixMask 128 bits
  | _, _ => false

/-- The address is in the network of `bits` leading bits around `base`. -/
def InNetwork (base : IpAddr) (bits : ℕ) : IpAddr → Prop
  | .v4 a => ∃ b, base = .v4 b ∧ bits ≤ 32 ∧ SamePrefix a b bits
  | .v6 a => ∃ b, base = .v6 b ∧ bits ≤ 128 ∧ SamePrefix a b bits

theorem ipInCidr_iff (ip base : IpAddr) (bits : ℕ) :
    ipInCidr ip base bits = true ↔ InNetwork base bits ip := by
  cases ip with
  | v4 a =>
      cases base with
      | v4 b =>
          unfold ipInCidr InNetwork
          by_cases hbits : bits ≤ 32
          · simp [hbits, and_prefixMask_eq_iff hbits]
          · simp [hbits]
      | v6 b => simp [ipInCidr, InNetwork]
  | v6 a =>
      cases base with
      | v4 b => simp [ipInCidr, InNetwork]
      | v6 b =>
          unfold ipInCidr InNetwork
          by_cases hbits : bits ≤ 128
          · simp [hbits, and_prefixMask_eq_iff hbits]
          · simp [hbits]

namespace ClientIp

structure Peer where
  addr : IpAddr
  text : String
  reads : IpAddr.parse text.toList = some addr

structure ProxyConfig where
  clusterTrusted : List String
  trustedProxies : Option String

def isLoopbackStr (s : String) : Bool :=
  (IpAddr.parse s.toList).any IpAddr.isLoopback

def clusterTrustedContains (cfg : ProxyConfig) (ip : String) : Bool :=
  cfg.clusterTrusted.any fun p => eqIgnoreAsciiCase p ip

def partCovers (ip : IpAddr) (part : String) : Bool :=
  let p := trimmed part
  if p = "" then false
  else
    match IpAddr.parse p.toList with
    | some exact => exact = ip
    | none =>
        match splitOnce '/' p.toList with
        | some (net, bits) =>
            match IpAddr.parse net, IpAddr.parseU8 bits with
            | some base, some bits => ipInCidr ip base bits
            | _, _ => false
        | none => false

def peerIsTrustedProxy (cfg : ProxyConfig) (peerIp : Option String) : Bool :=
  if peerIp.any isLoopbackStr then true
  else if peerIp.any (clusterTrustedContains cfg) then true
  else
    let raw := trimmed (cfg.trustedProxies.getD "")
    if raw = "" then false
    else if raw = "*" ∨ eqIgnoreAsciiCase raw "any" then true
    else
      match peerIp.bind fun ip => IpAddr.parse ip.toList with
      | some ip => (splitChar ',' raw).any (partCovers ip)
      | none => false

/-! ## The two ladders -/

/-- The entries of a header map in the order it is gone through. -/
abbrev Headers := List (String × String)

def headerGet (headers : Headers) (name : String) : Option String :=
  (headers.find? fun h => eqIgnoreAsciiCase h.1 name).map Prod.snd

def firstIpToken (v : String) : Option String :=
  let first := trimmed (String.ofList (v.toList.takeWhile (· ≠ ',')))
  if first = "" ∨ eqIgnoreAsciiCase first "unknown" then none
  else if (IpAddr.parse first.toList).isSome ∨ '.' ∈ first.toList ∨ ':' ∈ first.toList then
    some first
  else none

def headerToken (headers : Headers) (key : String) : Option String :=
  (headerGet headers key).bind firstIpToken

def cdnHeaders : List String := ["cf-connecting-ip", "true-client-ip"]

def proxyHeaders : List String := ["x-real-ip", "x-forwarded-for"]

def clientIpFrom (cfg : ProxyConfig) (headers : Headers) (peer : Option Peer) :
    Option String :=
  let peerIp := peer.map Peer.text
  let cdn := cdnHeaders.findSome? fun key =>
    (headerGet headers key).bind fun v => if trimmed v = "" then none else firstIpToken v
  let proxy :=
    if peerIsTrustedProxy cfg peerIp then
      (proxyHeaders.findSome? fun key =>
        (headerToken headers key).filter fun ip => !isLoopbackStr ip).or
      (proxyHeaders.findSome? (headerToken headers))
    else none
  (cdn.or proxy).or peerIp

def clientIpSource (cfg : ProxyConfig) (headers : Headers) (peer : Option Peer) : String :=
  let peerIp := peer.map Peer.text
  if (headerToken headers "cf-connecting-ip").isSome then "cf"
  else if (headerToken headers "true-client-ip").isSome then "true_client_ip"
  else if peerIsTrustedProxy cfg peerIp ∧ (headerToken headers "x-real-ip").isSome then
    "x_real_ip"
  else if peerIsTrustedProxy cfg peerIp ∧ (headerToken headers "x-forwarded-for").isSome then
    "x_forwarded_for"
  else if peerIp.any isLoopbackStr then "peer_loopback"
  else "peer"

inductive Place where
  | cf
  | trueClientIp
  | xRealIp
  | xForwardedFor
  | peer
  deriving DecidableEq

def placeOfTag (tag : String) : Place :=
  if tag = "cf" then .cf
  else if tag = "true_client_ip" then .trueClientIp
  else if tag = "x_real_ip" then .xRealIp
  else if tag = "x_forwarded_for" then .xForwardedFor
  else .peer

/-- The rung of `clientIpFrom` that gives the value. -/
def takenFrom (cfg : ProxyConfig) (headers : Headers) (peer : Option Peer) : Place :=
  let token := headerToken headers
  let outer (key : String) := (token key).any fun ip => !isLoopbackStr ip
  if (token "cf-connecting-ip").isSome then .cf
  else if (token "true-client-ip").isSome then .trueClientIp
  else if peerIsTrustedProxy cfg (peer.map Peer.text) then
    if outer "x-real-ip" then .xRealIp
    else if outer "x-forwarded-for" then .xForwardedFor
    else if (token "x-real-ip").isSome then .xRealIp
    else if (token "x-forwarded-for").isSome then .xForwardedFor
    else .peer
  else .peer

def valueAt (headers : Headers) (peer : Option Peer) : Place → Option String
  | .cf => headerToken headers "cf-connecting-ip"
  | .trueClientIp => headerToken headers "true-client-ip"
  | .xRealIp => headerToken headers "x-real-ip"
  | .xForwardedFor => headerToken headers "x-forwarded-for"
  | .peer => peer.map Peer.text

theorem firstIpToken_of_blank {v : String} (h : trimmed v = "") : firstIpToken v = none := by
  have hall : ∀ c ∈ v.toList, isWhitespace c = true := by
    apply trim_eq_nil_iff.mp
    simpa [trimmed] using congrArg String.toList h
  have hfirst : trimmed (String.ofList (v.toList.takeWhile (· ≠ ','))) = "" := by
    unfold trimmed
    have hnil : trim (v.toList.takeWhile (· ≠ ',')) = [] := by
      apply trim_eq_nil_iff.mpr
      intro c hc
      exact hall c (List.takeWhile_subset _ hc)
    rw [String.toList_ofList, hnil]
  unfold firstIpToken
  dsimp only
  rw [if_pos (Or.inl hfirst)]

theorem blank_or_token (v : String) :
    (if trimmed v = "" then none else firstIpToken v) = firstIpToken v := by
  by_cases hblank : trimmed v = ""
  · rw [if_pos hblank, firstIpToken_of_blank hblank]
  · rw [if_neg hblank]

theorem findSome?_pair {α β : Type} (f : α → Option β) (a b : α) :
    [a, b].findSome? f = (f a).or (f b) := by
  cases ha : f a <;> cases hb : f b <;> simp [List.findSome?, ha, hb]

theorem clientIpFrom_eq (cfg : ProxyConfig) (headers : Headers) (peer : Option Peer) :
    clientIpFrom cfg headers peer =
      (((headerToken headers "cf-connecting-ip").or
          (headerToken headers "true-client-ip")).or
        (if peerIsTrustedProxy cfg (peer.map Peer.text) then
          (((headerToken headers "x-real-ip").filter fun ip => !isLoopbackStr ip).or
            ((headerToken headers "x-forwarded-for").filter fun ip => !isLoopbackStr ip)).or
          ((headerToken headers "x-real-ip").or (headerToken headers "x-forwarded-for"))
        else none)).or (peer.map Peer.text) := by
  unfold clientIpFrom cdnHeaders proxyHeaders
  simp only [findSome?_pair, blank_or_token]
  rfl

theorem valueAt_takenFrom (cfg : ProxyConfig) (headers : Headers) (peer : Option Peer) :
    valueAt headers peer (takenFrom cfg headers peer) = clientIpFrom cfg headers peer := by
  rw [clientIpFrom_eq]
  unfold takenFrom
  dsimp only
  rcases Option.eq_none_or_eq_some (headerToken headers "cf-connecting-ip") with
    hcf | ⟨ip, hcf⟩
  · rcases Option.eq_none_or_eq_some (headerToken headers "true-client-ip") with
      htrue | ⟨ip, htrue⟩
    · cases htrusted : peerIsTrustedProxy cfg (peer.map Peer.text) with
      | false => simp [hcf, htrue, valueAt]
      | true =>
          rcases Option.eq_none_or_eq_some (headerToken headers "x-real-ip") with
            hreal | ⟨real, hreal⟩
          · rcases Option.eq_none_or_eq_some (headerToken headers "x-forwarded-for") with
              hforwarded | ⟨forwarded, hforwarded⟩
            · simp [hcf, htrue, hreal, hforwarded, valueAt, Option.filter]
            · cases hfar : isLoopbackStr forwarded <;>
                simp [hcf, htrue, hreal, hforwarded, hfar, valueAt, Option.filter]
          · cases hnear : isLoopbackStr real with
            | false => simp [hcf, htrue, hreal, hnear, valueAt, Option.filter]
            | true =>
                rcases Option.eq_none_or_eq_some (headerToken headers "x-forwarded-for") with
                  hforwarded | ⟨forwarded, hforwarded⟩
                · simp [hcf, htrue, hreal, hnear, hforwarded, valueAt, Option.filter]
                · cases hfar : isLoopbackStr forwarded <;>
                    simp [hcf, htrue, hreal, hnear, hforwarded, hfar, valueAt, Option.filter]
    · simp [hcf, htrue, valueAt, Option.filter]
  · simp [hcf, valueAt, Option.filter]

def PartCovers (part : String) (ip : IpAddr) : Prop :=
  IpAddr.parse part.toList = some ip ∨
    IpAddr.parse part.toList = none ∧ ∃ net bits base n,
      splitOnce '/' part.toList = some (net, bits) ∧ IpAddr.parse net = some base ∧
        IpAddr.parseU8 bits = some n ∧ InNetwork base n ip

def Covered (cfg : ProxyConfig) (peer : Peer) : Prop :=
  (∃ p ∈ cfg.clusterTrusted, eqIgnoreAsciiCase p peer.text = true) ∨
    trimmed (cfg.trustedProxies.getD "") = "*" ∨
    eqIgnoreAsciiCase (trimmed (cfg.trustedProxies.getD "")) "any" = true ∨
    ∃ part ∈ splitChar ',' (trimmed (cfg.trustedProxies.getD "")),
      PartCovers (trimmed part) peer.addr

theorem partCovers_iff (ip : IpAddr) (part : String) :
    partCovers ip part = true ↔ PartCovers (trimmed part) ip := by
  unfold partCovers PartCovers
  dsimp only
  by_cases hempty : trimmed part = ""
  · rw [hempty]
    have hnone : IpAddr.parse [] = none := by decide
    simp [hnone, splitOnce]
  rw [if_neg hempty]
  cases hparse : IpAddr.parse (trimmed part).toList with
  | some exact => simp
  | none =>
      cases hsplit : splitOnce '/' (trimmed part).toList with
      | none => simp
      | some parts =>
          obtain ⟨net, bits⟩ := parts
          cases hbase : IpAddr.parse net with
          | none => simp [hbase]
          | some base =>
              cases hbits : IpAddr.parseU8 bits with
              | none => simp [hbits]
              | some n => simp [hbase, hbits, ipInCidr_iff]

theorem peerIsTrustedProxy_iff (cfg : ProxyConfig) (peer : Peer) :
    peerIsTrustedProxy cfg (some peer.text) = true ↔
      peer.addr.isLoopback = true ∨ Covered cfg peer := by
  have hloopback : isLoopbackStr peer.text = peer.addr.isLoopback := by
    unfold isLoopbackStr
    rw [peer.reads]
    rfl
  have hcluster : clusterTrustedContains cfg peer.text = true ↔
      ∃ p ∈ cfg.clusterTrusted, eqIgnoreAsciiCase p peer.text = true := by
    unfold clusterTrustedContains
    exact List.any_eq_true
  unfold peerIsTrustedProxy Covered
  dsimp only
  rw [Option.any_some, Option.any_some, hloopback, Option.bind_some, peer.reads]
  generalize trimmed (cfg.trustedProxies.getD "") = raw
  have hparts : (splitChar ',' raw).any (partCovers peer.addr) = true ↔
      ∃ part ∈ splitChar ',' raw, PartCovers (trimmed part) peer.addr := by
    rw [List.any_eq_true]
    simp only [partCovers_iff]
  by_cases hloop : peer.addr.isLoopback = true
  · rw [if_pos hloop]
    exact iff_of_true rfl (Or.inl hloop)
  rw [if_neg hloop]
  by_cases hpeer : clusterTrustedContains cfg peer.text = true
  · rw [if_pos hpeer]
    exact iff_of_true rfl (Or.inr (Or.inl (hcluster.mp hpeer)))
  rw [if_neg hpeer]
  have hnone : ¬ ∃ p ∈ cfg.clusterTrusted, eqIgnoreAsciiCase p peer.text = true :=
    mt hcluster.mpr hpeer
  rw [← hparts]
  by_cases hraw : raw = ""
  · have hstar : eqIgnoreAsciiCase "" "any" = false := by decide
    have hsplit : splitChar ',' "" = [""] := by decide
    have hpart : partCovers peer.addr "" = false := by
      unfold partCovers
      rw [trimmed_empty]
      rfl
    rw [if_pos hraw, hraw, hstar, hsplit, List.any_cons, hpart]
    simp [hloop, hnone]
  rw [if_neg hraw]
  by_cases hany : raw = "*" ∨ eqIgnoreAsciiCase raw "any" = true
  · rw [if_pos hany]
    apply iff_of_true rfl
    rcases hany with hstar | hany
    · exact Or.inr (Or.inr (Or.inl hstar))
    · exact Or.inr (Or.inr (Or.inr (Or.inl hany)))
  · rw [if_neg hany]
    rw [not_or] at hany
    simp only [hloop, hnone, hany.1, hany.2, false_or, Bool.false_eq_true]

/-- `x-real-ip` has a loopback address, so that the value is `x-forwarded-for`'s. -/
def PassesRealIp (cfg : ProxyConfig) (headers : Headers) (peer : Option Peer) : Prop :=
  (∀ key ∈ cdnHeaders, headerToken headers key = none) ∧
    peerIsTrustedProxy cfg (peer.map Peer.text) = true ∧
    (∃ ip, headerToken headers "x-real-ip" = some ip ∧ isLoopbackStr ip = true) ∧
    ∃ ip, headerToken headers "x-forwarded-for" = some ip ∧ isLoopbackStr ip = false

theorem tag_iff (cfg : ProxyConfig) (headers : Headers) (peer : Option Peer) :
    placeOfTag (clientIpSource cfg headers peer) = takenFrom cfg headers peer ↔
      ¬ PassesRealIp cfg headers peer := by
  have hcfTag : placeOfTag "cf" = .cf := by decide
  have htrueTag : placeOfTag "true_client_ip" = .trueClientIp := by decide
  have hrealTag : placeOfTag "x_real_ip" = .xRealIp := by decide
  have hforwardedTag : placeOfTag "x_forwarded_for" = .xForwardedFor := by decide
  have hpeerTag (loopback : Bool) :
      placeOfTag (if loopback then "peer_loopback" else "peer") = .peer := by
    cases loopback <;> decide
  have hcdn : (∀ key ∈ cdnHeaders, headerToken headers key = none) ↔
      headerToken headers "cf-connecting-ip" = none ∧
        headerToken headers "true-client-ip" = none := by
    simp [cdnHeaders]
  unfold clientIpSource takenFrom PassesRealIp
  rw [hcdn]
  dsimp only
  rcases Option.eq_none_or_eq_some (headerToken headers "cf-connecting-ip") with
    hcf | ⟨ip, hcf⟩
  · rcases Option.eq_none_or_eq_some (headerToken headers "true-client-ip") with
      htrue | ⟨ip, htrue⟩
    · cases htrusted : peerIsTrustedProxy cfg (peer.map Peer.text) with
      | false => simp [hcf, htrue, hpeerTag]
      | true =>
          rcases Option.eq_none_or_eq_some (headerToken headers "x-real-ip") with
            hreal | ⟨real, hreal⟩
          · rcases Option.eq_none_or_eq_some (headerToken headers "x-forwarded-for") with
              hforwarded | ⟨forwarded, hforwarded⟩
            · simp [hcf, htrue, hreal, hforwarded, hpeerTag]
            · simp [hcf, htrue, hreal, hforwarded, hforwardedTag]
          · cases hnear : isLoopbackStr real with
            | false => simp [hcf, htrue, hreal, hnear, hrealTag]
            | true =>
                rcases Option.eq_none_or_eq_some (headerToken headers "x-forwarded-for") with
                  hforwarded | ⟨forwarded, hforwarded⟩
                · simp [hcf, htrue, hreal, hnear, hforwarded, hrealTag]
                · cases hfar : isLoopbackStr forwarded <;>
                    simp [hcf, htrue, hreal, hnear, hforwarded, hfar, hrealTag]
    · simp [hcf, htrue, htrueTag]
  · simp [hcf, hcfTag]

/-- What the value and its tag owe to each other and to the peer. -/
structure Attributed (cfg : ProxyConfig) (headers : Headers) (peer : Option Peer) : Prop where
  value : clientIpFrom cfg headers peer =
    valueAt headers peer (placeOfTag (clientIpSource cfg headers peer))
  place : takenFrom cfg headers peer = placeOfTag (clientIpSource cfg headers peer)
  unspoofed : ∀ p, peer = some p → p.addr.isLoopback = false → ¬ Covered cfg p →
    (∀ key ∈ cdnHeaders, headerToken headers key = none) →
      clientIpFrom cfg headers peer = some p.text

theorem clientIpFrom_of_untrusted {cfg : ProxyConfig} {headers : Headers} {peer : Option Peer}
    (htrusted : peerIsTrustedProxy cfg (peer.map Peer.text) = false)
    (hcdn : ∀ key ∈ cdnHeaders, headerToken headers key = none) :
    clientIpFrom cfg headers peer = peer.map Peer.text := by
  rw [clientIpFrom_eq, hcdn _ (by decide), hcdn _ (by decide), htrusted]
  rfl

/-- The tag names the place of the value exactly where `x-real-ip` is not passed
over. -/
theorem attributed_iff (cfg : ProxyConfig) (headers : Headers) (peer : Option Peer) :
    Attributed cfg headers peer ↔ ¬ PassesRealIp cfg headers peer := by
  rw [← tag_iff]
  constructor
  · intro h
    exact h.place.symm
  · intro htag
    constructor
    · rw [htag, valueAt_takenFrom]
    · exact htag.symm
    · rintro p rfl hloopback hcovered hcdn
      apply clientIpFrom_of_untrusted _ hcdn
      rw [Option.map_some, Bool.eq_false_iff]
      intro htrusted
      rcases (peerIsTrustedProxy_iff cfg p).mp htrusted with hloop | hcover
      · rw [hloopback] at hloop
        cases hloop
      · exact hcovered hcover

def localPeer : Peer where
  addr := .v4 (BitVec.ofNat 32 (127 * 2 ^ 24 + 1))
  text := "127.0.0.1"
  reads := by decide

theorem loopback_real_ip_mislabels :
    clientIpFrom ⟨[], none⟩
        [("x-real-ip", "127.0.0.1"), ("x-forwarded-for", "198.51.100.7")] (some localPeer) =
      some "198.51.100.7" ∧
    clientIpSource ⟨[], none⟩
        [("x-real-ip", "127.0.0.1"), ("x-forwarded-for", "198.51.100.7")] (some localPeer) =
      "x_real_ip" ∧
    ¬ Attributed ⟨[], none⟩
        [("x-real-ip", "127.0.0.1"), ("x-forwarded-for", "198.51.100.7")] (some localPeer) := by
  have hvalue : clientIpFrom ⟨[], none⟩
      [("x-real-ip", "127.0.0.1"), ("x-forwarded-for", "198.51.100.7")] (some localPeer) =
        some "198.51.100.7" := by
    decide
  have htag : clientIpSource ⟨[], none⟩
      [("x-real-ip", "127.0.0.1"), ("x-forwarded-for", "198.51.100.7")] (some localPeer) =
        "x_real_ip" := by
    decide
  refine ⟨hvalue, htag, ?_⟩
  intro h
  have heq := h.value
  rw [hvalue, htag] at heq
  revert heq
  decide

end ClientIp

end GrServer
