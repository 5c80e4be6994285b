import GrServer.LoadBalancer

/-!
# Internal addresses in redirects

In internal-IP mode a visitor inside a configured network is redirected to the
internal address of a node.  This file asks which visitors outside every
network are redirected as in redirect mode.
-/

namespace GrServer

namespace LoadBalancer

def MatchesRule (c : LbConfig) (visitor : Option IpAddr) : Prop :=
  ∃ ip, visitor = some ip ∧ ∃ r ∈ c.internalCidrs, ∃ net,
    parseCidr r.cidr = some net ∧ net.contains ip = true

def LbConfig.asRedirect (c : LbConfig) : LbConfig :=
  { c with mode := "redirect" }

def LbPool.pickedNode (p : LbPool) (visitor : Option IpAddr) (sticky : Option String) :
    Option LbNode :=
  (p.pick visitor sticky).bind fun picked => picked.1.bind p.nodes.get?

def LbPool.outsideNode (p : LbPool) (visitor : Option IpAddr) (sticky : Option String) :
    Option LbNode :=
  ((stickyPick p.candidates p.config.stickyCookie sticky).or
    (pickStrategy p.config p.candidates p.nodes visitor p.rr).1).bind p.nodes.get?

/-- Only visitors of a rule's network learn an internal address. -/
structure AddressGuarded (p : LbPool) (visitor : Option IpAddr) (sticky : Option String)
    (pathAndQuery : String) : Prop where
  outside : ∀ t n, ¬ MatchesRule p.config visitor →
    (p.select visitor sticky pathAndQuery).2 = .returned (some t) →
    p.pickedNode visitor sticky = some n →
    t = targetOf p.config.asRedirect false n pathAndQuery
  internal : ∀ n addr cookie, p.pickedNode visitor sticky = some n →
    n.internalAddr = some addr → addr ≠ n.advertise →
    (p.select visitor sticky pathAndQuery).2 = .returned (some (.redirect
      (p.config.urlScheme ++ "://" ++ addr ++ pathAndQuery) cookie)) →
    MatchesRule p.config visitor

/-- Where no rule matches, the node picked by cookie or strategy has no internal
address of its own. -/
def OutsideNodePublic (p : LbPool) (visitor : Option IpAddr) (sticky : Option String) :
    Prop :=
  p.poisoned = false → p.config.enabled = true → ¬ MatchesRule p.config visitor →
    ∀ n, p.outsideNode visitor sticky = some n →
      n.internalAddr.getD n.advertise = n.advertise

section Outside

variable {p : LbPool} {visitor : Option IpAddr} {sticky : Option String}
  {pathAndQuery : String}

theorem internalRule_eq_none {c : LbConfig} (h : ¬ MatchesRule c visitor) :
    internalRule c visitor = none := by
  unfold internalRule
  split_ifs
  · cases visitor with
    | none => rfl
    | some ip =>
        rw [Option.bind_some, List.find?_eq_none]
        intro r hr hcontains
        cases hnet : parseCidr r.cidr with
        | none => simp [hnet] at hcontains
        | some net =>
            have hin : net.contains ip = true := by
              simpa [hnet] using hcontains
            exact h ⟨ip, rfl, r, hr, net, hnet, hin⟩
  · rfl

theorem pickedNode_outside (h : ¬ MatchesRule p.config visitor) :
    p.pickedNode visitor sticky = p.outsideNode visitor sticky := by
  unfold LbPool.pickedNode LbPool.outsideNode LbPool.pick
  cases hsticky : stickyPick p.candidates p.config.stickyCookie sticky with
  | some id => simp [hsticky]
  | none => simp [hsticky, internalRule_eq_none h]

theorem pickStrategy_nil (c : LbConfig) (nodes : SortedMap String LbNode) (rr : ℕ) :
    (pickStrategy c [] nodes visitor rr).1 = none := by
  have hrr : (pickRr [] c.nodeWeights rr).1 = none := by
    simp [pickRr, WeightedChoice.total]
  unfold pickStrategy
  cases c.parsedStrategy with
  | none => exact hrr
  | some strategy =>
      cases strategy with
      | roundRobin => exact hrr
      | leastInflight => simp [leastInflight]
      | ipHash => simp [ipHash]

theorem candidates_ne_nil {n : LbNode} (h : p.outsideNode visitor sticky = some n) :
    p.candidates ≠ [] := by
  intro hnil
  have hsticky : stickyPick p.candidates p.config.stickyCookie sticky = none := by
    rw [Option.eq_none_iff_forall_ne_some]
    intro id hid
    have hmem := stickyPick_mem hid
    simp [hnil] at hmem
  unfold LbPool.outsideNode at h
  rw [hsticky, hnil, pickStrategy_nil] at h
  simp at h

theorem select_of_pickedNode {n : LbNode} (hp : p.poisoned = false)
    (henabled : p.config.enabled = true) (hne : p.candidates ≠ [])
    (hn : p.pickedNode visitor sticky = some n) :
    (p.select visitor sticky pathAndQuery).2 = .returned (some
      (targetOf p.config (internalRule p.config visitor).isSome n pathAndQuery)) := by
  have hnodes : p.nodes.isEmpty = false := by
    cases hempty : p.nodes.isEmpty with
    | false => rfl
    | true =>
        unfold SortedMap.isEmpty at hempty
        rw [List.isEmpty_iff] at hempty
        exact absurd (by simp [LbPool.candidates, SortedMap.keys, hempty]) hne
  unfold LbPool.pickedNode at hn
  unfold LbPool.select
  cases hpick : p.pick visitor sticky with
  | none => simp [hpick] at hn
  | some picked =>
      obtain ⟨id, rr⟩ := picked
      rw [hpick, Option.bind_some] at hn
      cases id with
      | none => simp at hn
      | some id =>
          rw [Option.bind_some] at hn
          simp [hp, henabled, hnodes, hne, hn]

theorem enabled_of_select {t : LbTarget}
    (h : (p.select visitor sticky pathAndQuery).2 = .returned (some t)) :
    p.poisoned = false ∧ p.config.enabled = true := by
  unfold LbPool.select at h
  split_ifs at h with hp hnone
  · simp at h
  · constructor
    · simpa using hp
    · by_contra hdisabled
      exact hnone (Or.inl hdisabled)

theorem targetOf_outside_iff {c : LbConfig} (hmode : c.parsedMode = some .internalIp)
    (n : LbNode) :
    targetOf c false n pathAndQuery = targetOf c.asRedirect false n pathAndQuery ↔
      n.internalAddr.getD n.advertise = n.advertise := by
  have hredirect : c.asRedirect.parsedMode = some .redirect := by
    change LbMode.parse "redirect" = some .redirect
    decide
  unfold targetOf
  rw [hmode, hredirect]
  simp [LbConfig.asRedirect]
  intro _
  rfl

/-- In internal-IP mode the internal addresses are guarded exactly for the
requests whose outside node has none of its own. -/
theorem addressGuarded_iff (hmode : p.config.parsedMode = some .internalIp) :
    AddressGuarded p visitor sticky pathAndQuery ↔ OutsideNodePublic p visitor sticky := by
  constructor
  · intro hguarded hp henabled hrule n hn
    have hpicked : p.pickedNode visitor sticky = some n := by
      rw [pickedNode_outside hrule, hn]
    have hselect : (p.select visitor sticky pathAndQuery).2 = .returned (some
        (targetOf p.config (internalRule p.config visitor).isSome n pathAndQuery)) :=
      select_of_pickedNode hp henabled (candidates_ne_nil hn) hpicked
    have htarget := hguarded.outside _ n hrule hselect hpicked
    rw [internalRule_eq_none hrule] at htarget
    exact (targetOf_outside_iff hmode n).mp htarget
  · intro hpublic
    have houtside : ∀ t n, ¬ MatchesRule p.config visitor →
        (p.select visitor sticky pathAndQuery).2 = .returned (some t) →
        p.pickedNode visitor sticky = some n →
        t = targetOf p.config false n pathAndQuery ∧
          n.internalAddr.getD n.advertise = n.advertise := by
      intro t n hrule hselect hpicked
      obtain ⟨hp, henabled⟩ := enabled_of_select hselect
      have hn : p.outsideNode visitor sticky = some n := by
        rw [← pickedNode_outside hrule, hpicked]
      rw [select_of_pickedNode hp henabled (candidates_ne_nil hn) hpicked,
        internalRule_eq_none hrule] at hselect
      simp only [Outcome.returned.injEq, Option.some.injEq] at hselect
      exact ⟨hselect.symm, hpublic hp henabled hrule n hn⟩
    constructor
    · intro t n hrule hselect hpicked
      obtain ⟨htarget, haddr⟩ := houtside t n hrule hselect hpicked
      rw [htarget]
      exact (targetOf_outside_iff hmode n).mpr haddr
    · intro n addr cookie hpicked hinternal hne hselect
      by_contra hrule
      obtain ⟨-, haddr⟩ := houtside _ n hrule hselect hpicked
      rw [hinternal, Option.getD_some] at haddr
      exact hne haddr

end Outside

def lanNode : LbNode :=
  { sampleNode "a" "203.0.113.5:80" with internalAddr := some "192.168.1.2:80" }

def lanPool (node : LbNode) : LbPool :=
  { LbPool.new with
    config := sampleConfig ["a"]
    nodes := nodeMap [node] }

/-- A node without an internal address. -/
theorem public_node_guarded :
    AddressGuarded (lanPool (sampleNode "a" "203.0.113.5:80"))
      (some (.v4 0x08080808#32)) none "/" := by
  apply (addressGuarded_iff (by decide)).mpr
  intro _ _ _ n hn
  have hnode : (lanPool (sampleNode "a" "203.0.113.5:80")).outsideNode
      (some (.v4 0x08080808#32)) none = some (sampleNode "a" "203.0.113.5:80") := rfl
  rw [hnode, Option.some.injEq] at hn
  rw [← hn]
  rfl

/-- The redirect of a visitor at 8.8.8.8 names the internal address. -/
theorem outside_visitor_sees_internal_address :
    (lanPool lanNode).config.validate = .ok () ∧
      (lanPool lanNode).config.parsedMode = some .internalIp ∧
      ((lanPool lanNode).select (some (.v4 0x08080808#32)) none "/").2 =
        .returned (some (.redirect "http://192.168.1.2:80/" none)) ∧
      ¬ AddressGuarded (lanPool lanNode) (some (.v4 0x08080808#32)) none "/" := by
  have hselect : ((lanPool lanNode).select (some (.v4 0x08080808#32)) none "/").2 =
      .returned (some (.redirect "http://192.168.1.2:80/" none)) := by
    decide
  have hrule : ¬ MatchesRule (lanPool lanNode).config (some (.v4 0x08080808#32)) := by
    rintro ⟨ip, hip, r, hr, net, hnet, hcontains⟩
    have hr' : r = ⟨"10.0.0.0/8", ["a"]⟩ := List.mem_singleton.mp hr
    have hcidr : parseCidr "10.0.0.0/8" = some ⟨.v4 0x0a000000#32, 8⟩ := by decide
    rw [hr', hcidr, Option.some.injEq] at hnet
    rw [← hnet, ← Option.some.inj hip] at hcontains
    exact absurd hcontains (by decide)
  refine ⟨by decide, by decide, hselect, ?_⟩
  intro hguarded
  have htarget := hguarded.outside _ lanNode hrule hselect rfl
  exact absurd htarget (by decide)

end LoadBalancer

end GrServer
