import GrServer.GuardedRun
import GrServer.IpAddress
import GrServer.SortedMap
import GrServer.WeightedChoice

/-!
# The load-balancer pool

Configuration, node set, probe health and the selection of a node for a visitor
request.  A hash map is read in sorted key order wherever the source sorts its
keys.  A panic while the pool's write lock is held poisons the lock, and every
later call panics on it.
-/

namespace GrServer

open Text

namespace LoadBalancer

inductive LbMode where
  | proxy
  | redirect
  | internalIp
  deriving DecidableEq

def LbMode.parse (s : String) : Option LbMode :=
  match lowered (trimmed s) with
  | "proxy" => some .proxy
  | "redirect" => some .redirect
  | "internal_ip" => some .internalIp
  | _ => none

inductive Strategy where
  | roundRobin
  | leastInflight
  | ipHash
  deriving DecidableEq

def Strategy.parse (s : String) : Option Strategy :=
  match lowered (trimmed s) with
  | "round_robin" | "round-robin" | "rr" => some .roundRobin
  | "least_inflight" | "least-inflight" | "least_conn" => some .leastInflight
  | "ip_hash" | "iphash" | "ip_hash/sticky" => some .ipHash
  | _ => none

structure CidrRule where
  cidr : String
  nodes : List String

structure LbConfig where
  enabled : Bool
  mode : String
  strategy : String
  urlScheme : String
  stickyCookie : Bool
  nodeWeights : SortedMap String ℕ
  internalCidrs : List CidrRule
  activeHealthCheck : Bool
  healthCheckIntervalMs : ℕ
  healthCheckTimeoutMs : ℕ
  healthCheckFailThreshold : ℕ
  tlsUpstream : Bool

def LbConfig.default : LbConfig where
  enabled := false
  mode := "proxy"
  strategy := "round_robin"
  urlScheme := "http"
  stickyCookie := false
  nodeWeights := SortedMap.empty
  internalCidrs := []
  activeHealthCheck := true
  healthCheckIntervalMs := 5_000
  healthCheckTimeoutMs := 2_000
  healthCheckFailThreshold := 3
  tlsUpstream := false

def LbConfig.parsedMode (c : LbConfig) : Option LbMode := LbMode.parse c.mode

def LbConfig.parsedStrategy (c : LbConfig) : Option Strategy :=
  Strategy.parse c.strategy

def LbConfig.validate (c : LbConfig) : Except String Unit :=
  if c.parsedMode = none then
    .error "mode must be one of proxy|redirect|internal_ip"
  else if c.parsedStrategy = none then
    .error "strategy must be round_robin|least_inflight|ip_hash"
  else if c.urlScheme ≠ "http" ∧ c.urlScheme ≠ "https" then
    .error "url_scheme must be http|https"
  else if c.healthCheckIntervalMs < 1000 ∨ 300_000 < c.healthCheckIntervalMs then
    .error "health_check_interval_ms must be 1000..300000"
  else if c.healthCheckTimeoutMs < 100 ∨ 30_000 < c.healthCheckTimeoutMs then
    .error "health_check_timeout_ms must be 100..30000"
  else if c.healthCheckFailThreshold < 1 ∨ 20 < c.healthCheckFailThreshold then
    .error "health_check_fail_threshold must be 1..20"
  else
    match c.internalCidrs.find? fun r => parseCidr r.cidr = none with
    | some r => .error ("bad internal cidr: " ++ r.cidr)
    | none => .ok ()

def ValidConfig : Type := { c : LbConfig // c.validate = .ok () }

structure LbNode where
  nodeId : String
  advertise : String
  internalAddr : Option String
  loadInflight : ℕ
  degraded : Bool

inductive LbTarget where
  | forward (addr : String) (tls : Bool) (sni : String)
  | redirect (location : String) (sticky : Option String)
  deriving DecidableEq

structure NodeHealth where
  probeOk : Bool
  fails : ℕ

structure LbPool where
  config : LbConfig
  nodes : SortedMap String LbNode
  health : SortedMap String NodeHealth
  rr : ℕ
  poisoned : Bool

def LbPool.new : LbPool where
  config := LbConfig.default
  nodes := SortedMap.empty
  health := SortedMap.empty
  rr := 0
  poisoned := false

/-- What a node without a health entry counts as. -/
def freshHealth : NodeHealth where
  probeOk := true
  fails := 0

def LbPool.setConfig (p : LbPool) (c : LbConfig) : LbPool :=
  { p with config := c, rr := 0 }

/-- The node set of a list; a later node replaces an earlier one of its id. -/
def nodeMap (nodes : List LbNode) : SortedMap String LbNode :=
  nodes.foldl (fun m n => m.insert n.nodeId n) SortedMap.empty

def LbPool.setNodes (p : LbPool) (nodes : List LbNode) : LbPool :=
  let next := nodeMap nodes
  let health := p.health.filterKeys next.contains
  let health :=
    if health.isEmpty && !p.config.activeHealthCheck then
      next.keys.foldl (fun h id => h.insertNew id freshHealth) health
    else health
  { p with nodes := next, health := health }

/-- `fails` saturates at `u32::MAX`. -/
def LbPool.reportHealth (p : LbPool) (id : String) (ok : Bool) : LbPool :=
  let h := (p.health.get? id).getD freshHealth
  let h :=
    if ok then { probeOk := true, fails := 0 }
    else
      let fails := min (h.fails + 1) (2 ^ 32 - 1)
      { probeOk := if max p.config.healthCheckFailThreshold 1 ≤ fails then false
          else h.probeOk
        fails := fails }
  { p with health := p.health.insert id h }

/-! ## Picks -/

/-- Not degraded and, under active checks, with its last probe good. -/
def LbPool.isHealthy (p : LbPool) (id : String) (n : LbNode) : Bool :=
  !n.degraded && (!p.config.activeHealthCheck ||
    ((p.health.get? id).getD freshHealth).probeOk)

/-- The closure `ui`; `none` is the panic on an id outside the node set. -/
def LbPool.ui (p : LbPool) (id : String) : Option Bool :=
  (p.nodes.get? id).map (p.isHealthy id)

def LbPool.candidates (p : LbPool) : List String :=
  p.nodes.keys.filter fun id => p.ui id == some true

def stickyPick (candidates : List String) (stickyOn : Bool)
    (sticky : Option String) : Option String :=
  if ¬ stickyOn then none
  else
    let s := trimmed (sticky.getD "")
    if s = "" then none else candidates.find? (· = s)

/-- The first healthy id of a rule; the outer `none` is a panic. -/
def LbPool.findRuleNode (p : LbPool) : List String → Option (Option String)
  | [] => some none
  | id :: rest =>
      match p.ui id with
      | none => none
      | some true => some (some id)
      | some false => p.findRuleNode rest

def u64Max : ℕ := 2 ^ 64 - 1

def leastInflight (candidates : List String) (nodes : SortedMap String LbNode) :
    Option String :=
  candidates.argmin fun id =>
    ((nodes.get? id).map LbNode.loadInflight).getD u64Max

def ipHash (candidates : List String) (visitor : Option IpAddr) : Option String :=
  candidates[((visitor.map IpAddr.low64).getD 0) % candidates.length]?

def weightOf (weights : SortedMap String ℕ) (id : String) : ℕ :=
  ((weights.get? id).filter (0 < ·)).getD 1

def pickRr (candidates : List String) (weights : SortedMap String ℕ) (rr : ℕ) :
    Option String × ℕ :=
  let total := WeightedChoice.total (weightOf weights) candidates
  if total = 0 then (none, rr)
  else
    let next := (rr + 1) % 2 ^ 64
    match WeightedChoice.choose (weightOf weights) candidates (rr % total) with
    | some id => (some id, next)
    | none => (candidates.head?, next)

def pickStrategy (c : LbConfig) (candidates : List String)
    (nodes : SortedMap String LbNode) (visitor : Option IpAddr) (rr : ℕ) :
    Option String × ℕ :=
  match c.parsedStrategy with
  | some .leastInflight => (leastInflight candidates nodes, rr)
  | some .ipHash => (ipHash candidates visitor, rr)
  | _ => pickRr candidates c.nodeWeights rr

def hostOf (addr : String) : String :=
  match rsplitOnce ':' addr.toList with
  | some (h, _) =>
      let h := trimStartMatches '[' h
      String.ofList ((h.reverse.dropWhile (· = ']')).reverse)
  | none => addr

def internalRule (c : LbConfig) (visitor : Option IpAddr) : Option CidrRule :=
  if c.parsedMode = some .internalIp then
    visitor.bind fun ip => c.internalCidrs.find? fun r =>
      ((parseCidr r.cidr).map fun n => n.contains ip).getD false
  else none

def targetOf (c : LbConfig) (ruled : Bool) (n : LbNode) (pathAndQuery : String) :
    LbTarget :=
  let useInternal := ruled || decide (c.parsedMode = some .internalIp)
  match c.parsedMode with
  | some .proxy => .forward n.advertise c.tlsUpstream (hostOf n.advertise)
  | _ =>
      let host := if useInternal then n.internalAddr.getD n.advertise else n.advertise
      .redirect (c.urlScheme ++ "://" ++ host ++ pathAndQuery)
        (if c.stickyCookie then some n.nodeId else none)

inductive Outcome where
  | panicked
  | returned (target : Option LbTarget)
  deriving DecidableEq

/-- The id a request goes to and the cursor afterwards; the outer `none` is a
panic. -/
def LbPool.pick (p : LbPool) (visitor : Option IpAddr) (sticky : Option String) :
    Option (Option String × ℕ) :=
  let candidates := p.candidates
  let ruled :=
    match stickyPick candidates p.config.stickyCookie sticky with
    | some id => some (some id)
    | none =>
        match internalRule p.config visitor with
        | some rule => p.findRuleNode rule.nodes
        | none => some none
  match ruled with
  | none => none
  | some (some id) => some (some id, p.rr)
  | some none => some (pickStrategy p.config candidates p.nodes visitor p.rr)

def LbPool.select (p : LbPool) (visitor : Option IpAddr) (sticky : Option String)
    (pathAndQuery : String) : LbPool × Outcome :=
  if p.poisoned then (p, .panicked)
  else if ¬ p.config.enabled ∨ p.nodes.isEmpty ∨ p.candidates = [] then
    (p, .returned none)
  else
    match p.pick visitor sticky with
    | none => ({ p with poisoned := true }, .panicked)
    | some (picked, rr) =>
        ({ p with rr := rr }, .returned (picked.bind fun id =>
          (p.nodes.get? id).map fun n =>
            targetOf p.config (internalRule p.config visitor).isSome n pathAndQuery))

/-! ## Runs -/

inductive Event where
  | setConfig (c : ValidConfig)
  | setNodes (nodes : List LbNode)
  | reportHealth (id : String) (ok : Bool)
  | select (visitor : Option IpAddr) (sticky : Option String) (pathAndQuery : String)

/-- On a poisoned lock every call panics and changes nothing. -/
def step (p : LbPool) (e : Event) : LbPool :=
  if p.poisoned then p
  else
    match e with
    | .setConfig c => p.setConfig c.val
    | .setNodes nodes => p.setNodes nodes
    | .reportHealth id ok => p.reportHealth id ok
    | .select visitor sticky pathAndQuery => (p.select visitor sticky pathAndQuery).1

/-- Where there are candidates and no sticky cookie decides, a matching rule
lists no unknown node before its first healthy one. -/
def RuleNodesKnown (p : LbPool) (e : Event) : Prop :=
  ∀ visitor sticky pathAndQuery rule, e = .select visitor sticky pathAndQuery →
    p.config.enabled = true → p.candidates ≠ [] →
    internalRule p.config visitor = some rule →
    stickyPick p.candidates p.config.stickyCookie sticky = none →
    ∀ id ∈ rule.nodes.takeWhile fun id => p.ui id ≠ some true,
      p.nodes.contains id = true

def SelectSafe (p : LbPool) (e : Event) : Prop :=
  ∀ visitor sticky pathAndQuery, e = .select visitor sticky pathAndQuery →
    (p.select visitor sticky pathAndQuery).2 ≠ .panicked ∧
    ((∃ t, (p.select visitor sticky pathAndQuery).2 = .returned (some t)) ↔
      p.config.enabled = true ∧
        ∃ id n, p.nodes.get? id = some n ∧ p.isHealthy id n = true) ∧
    ∀ t, (p.select visitor sticky pathAndQuery).2 = .returned (some t) →
      ∃ id n, p.nodes.get? id = some n ∧ p.isHealthy id n = true ∧
        t = targetOf p.config (internalRule p.config visitor).isSome n pathAndQuery

section Picks

variable {p : LbPool}

theorem ui_eq_some_true {id : String} :
    p.ui id = some true ↔
      ∃ n, p.nodes.get? id = some n ∧ p.isHealthy id n = true := by
  unfold LbPool.ui
  exact Option.map_eq_some_iff

theorem mem_candidates {id : String} :
    id ∈ p.candidates ↔ p.ui id = some true := by
  unfold LbPool.candidates
  rw [List.mem_filter, beq_iff_eq]
  constructor
  · rintro ⟨-, hui⟩
    exact hui
  · intro hui
    refine ⟨?_, hui⟩
    obtain ⟨n, hget, -⟩ := ui_eq_some_true.mp hui
    rw [SortedMap.mem_keys, hget]
    rfl

theorem stickyPick_mem {candidates : List String} {stickyOn : Bool}
    {sticky : Option String} {id : String}
    (h : stickyPick candidates stickyOn sticky = some id) : id ∈ candidates := by
  unfold stickyPick at h
  dsimp only at h
  split_ifs at h
  exact List.mem_of_find?_eq_some h

theorem findRuleNode_returns {ids : List String}
    (hknown : ∀ id ∈ ids.takeWhile fun id => p.ui id ≠ some true,
      p.nodes.contains id = true) :
    ∃ found, p.findRuleNode ids = some found ∧
      ∀ id, found = some id → p.ui id = some true := by
  induction ids with
  | nil =>
      refine ⟨none, rfl, ?_⟩
      intro id hid
      cases hid
  | cons id rest ih =>
      cases hui : p.ui id with
      | none =>
          -- an unknown id stands before the first healthy one
          have hmem : id ∈ (id :: rest).takeWhile fun id => p.ui id ≠ some true := by
            rw [List.takeWhile_cons_of_pos (by simp [hui])]
            exact List.mem_cons_self
          have hcontains := hknown id hmem
          unfold SortedMap.contains at hcontains
          unfold LbPool.ui at hui
          rw [Option.map_eq_none_iff] at hui
          rw [hui] at hcontains
          cases hcontains
      | some healthy =>
          cases healthy with
          | true =>
              refine ⟨some id, ?_, ?_⟩
              · unfold LbPool.findRuleNode
                rw [hui]
              · intro id' hid'
                rw [← Option.some.inj hid']
                exact hui
          | false =>
              have hrest : ∀ id ∈ rest.takeWhile fun id => p.ui id ≠ some true,
                  p.nodes.contains id = true := by
                intro id' hid'
                apply hknown id'
                rw [List.takeWhile_cons_of_pos (by simp [hui])]
                exact List.mem_cons_of_mem _ hid'
              obtain ⟨found, hfound, hhealthy⟩ := ih hrest
              refine ⟨found, ?_, hhealthy⟩
              unfold LbPool.findRuleNode
              rw [hui]
              exact hfound

theorem leastInflight_mem {candidates : List String}
    (nodes : SortedMap String LbNode) (hne : candidates ≠ []) :
    ∃ id ∈ candidates, leastInflight candidates nodes = some id := by
  unfold leastInflight
  cases hmin : candidates.argmin fun id =>
      ((nodes.get? id).map LbNode.loadInflight).getD u64Max with
  | none => exact absurd (List.argmin_eq_none.mp hmin) hne
  | some id => exact ⟨id, List.argmin_mem hmin, rfl⟩

theorem ipHash_mem {candidates : List String} (visitor : Option IpAddr)
    (hne : candidates ≠ []) :
    ∃ id ∈ candidates, ipHash candidates visitor = some id := by
  have hlen : 0 < candidates.length := List.length_pos_iff.mpr hne
  have hlt := Nat.mod_lt ((visitor.map IpAddr.low64).getD 0) hlen
  refine ⟨_, List.getElem_mem hlt, ?_⟩
  unfold ipHash
  exact List.getElem?_eq_getElem hlt

theorem weightOf_pos (weights : SortedMap String ℕ) (id : String) :
    0 < weightOf weights id := by
  unfold weightOf
  cases hweight : (weights.get? id).filter (0 < ·) with
  | none => exact Nat.one_pos
  | some w =>
      obtain ⟨-, hw⟩ := Option.filter_eq_some_iff.mp hweight
      exact of_decide_eq_true hw

theorem pickRr_mem {candidates : List String} (weights : SortedMap String ℕ)
    (rr : ℕ) (hne : candidates ≠ []) :
    ∃ id ∈ candidates, (pickRr candidates weights rr).1 = some id := by
  have hpos : 0 < WeightedChoice.total (weightOf weights) candidates :=
    WeightedChoice.total_pos hne fun id _ => weightOf_pos weights id
  have hsome := WeightedChoice.choose_isSome (Nat.mod_lt rr hpos)
  obtain ⟨id, hchoose⟩ := Option.isSome_iff_exists.mp hsome
  refine ⟨id, WeightedChoice.choose_mem hchoose, ?_⟩
  unfold pickRr
  dsimp only
  rw [if_neg (by omega), hchoose]

theorem pickStrategy_mem {candidates : List String} (c : LbConfig)
    (nodes : SortedMap String LbNode) (visitor : Option IpAddr) (rr : ℕ)
    (hne : candidates ≠ []) :
    ∃ id ∈ candidates, (pickStrategy c candidates nodes visitor rr).1 = some id := by
  unfold pickStrategy
  cases c.parsedStrategy with
  | none => exact pickRr_mem c.nodeWeights rr hne
  | some strategy =>
      cases strategy with
      | roundRobin => exact pickRr_mem c.nodeWeights rr hne
      | leastInflight => exact leastInflight_mem nodes hne
      | ipHash => exact ipHash_mem visitor hne

theorem pick_healthy {visitor : Option IpAddr} {sticky : Option String}
    (hne : p.candidates ≠ [])
    (hknown : ∀ rule, internalRule p.config visitor = some rule →
      stickyPick p.candidates p.config.stickyCookie sticky = none →
      ∀ id ∈ rule.nodes.takeWhile fun id => p.ui id ≠ some true,
        p.nodes.contains id = true) :
    ∃ id rr, p.pick visitor sticky = some (some id, rr) ∧ p.ui id = some true := by
  obtain ⟨fallback, hfallback, hstrategy⟩ :=
    pickStrategy_mem p.config p.nodes visitor p.rr hne
  have hdefault : ∃ id rr,
      some (pickStrategy p.config p.candidates p.nodes visitor p.rr) =
        some (some id, rr) ∧ p.ui id = some true := by
    refine ⟨fallback, (pickStrategy p.config p.candidates p.nodes visitor p.rr).2,
      ?_, mem_candidates.mp hfallback⟩
    rw [← hstrategy]
  unfold LbPool.pick
  dsimp only
  cases hsticky : stickyPick p.candidates p.config.stickyCookie sticky with
  | some id =>
      exact ⟨id, p.rr, rfl, mem_candidates.mp (stickyPick_mem hsticky)⟩
  | none =>
      cases hrule : internalRule p.config visitor with
      | none => exact hdefault
      | some rule =>
          obtain ⟨found, hfound, hhealthy⟩ :=
            findRuleNode_returns (hknown rule hrule hsticky)
          dsimp only
          rw [hfound]
          cases found with
          | none => exact hdefault
          | some id => exact ⟨id, p.rr, rfl, hhealthy id rfl⟩

end Picks

theorem selectSafe_of_unpoisoned {p : LbPool} {e : Event}
    (hp : p.poisoned = false) (hknown : RuleNodesKnown p e) : SelectSafe p e := by
  intro visitor sticky pathAndQuery he
  unfold LbPool.select
  rw [hp, if_neg (by decide)]
  by_cases hnone : ¬ p.config.enabled ∨ p.nodes.isEmpty ∨ p.candidates = []
  · rw [if_pos hnone]
    refine ⟨by simp, ?_, by simp⟩
    constructor
    · rintro ⟨t, ht⟩
      cases ht
    · rintro ⟨henabled, id, n, hget, hhealthy⟩
      have hmem : id ∈ p.candidates :=
        mem_candidates.mpr (ui_eq_some_true.mpr ⟨n, hget, hhealthy⟩)
      rcases hnone with hdisabled | hempty | hcandidates
      · exact absurd henabled hdisabled
      · unfold SortedMap.isEmpty at hempty
        rw [List.isEmpty_iff] at hempty
        rw [SortedMap.get?_eq_some_iff, hempty] at hget
        cases hget
      · rw [hcandidates] at hmem
        cases hmem
  · rw [if_neg hnone]
    push Not at hnone
    obtain ⟨henabled, -, hne⟩ := hnone
    obtain ⟨id, rr, hpick, hui⟩ := pick_healthy hne
      fun rule hrule hsticky =>
        hknown visitor sticky pathAndQuery rule he henabled hne hrule hsticky
    obtain ⟨n, hget, hhealthy⟩ := ui_eq_some_true.mp hui
    rw [hpick]
    dsimp only
    rw [Option.bind_some, hget, Option.map_some]
    refine ⟨by simp, ?_, ?_⟩
    · constructor
      · intro _
        exact ⟨henabled, id, n, hget, hhealthy⟩
      · intro _
        exact ⟨_, rfl⟩
    · intro t ht
      simp only [Outcome.returned.injEq, Option.some.injEq] at ht
      exact ⟨id, n, hget, hhealthy, ht.symm⟩

theorem unpoisoned_step {p : LbPool} {e : Event} (hp : p.poisoned = false)
    (hsafe : SelectSafe p e) : (step p e).poisoned = false := by
  unfold step
  rw [hp, if_neg (by decide)]
  cases e with
  | setConfig c => exact hp
  | setNodes nodes => exact hp
  | reportHealth id ok => exact hp
  | select visitor sticky pathAndQuery =>
      obtain ⟨hreturns, -, -⟩ := hsafe visitor sticky pathAndQuery rfl
      dsimp only
      unfold LbPool.select at hreturns ⊢
      rw [hp, if_neg (by decide)] at hreturns ⊢
      split_ifs with hnone
      · exact hp
      · rw [if_neg hnone] at hreturns
        cases hpick : p.pick visitor sticky with
        | none =>
            rw [hpick] at hreturns
            exact absurd rfl hreturns
        | some picked =>
            obtain ⟨id, rr⟩ := picked
            rfl

/-- In a run whose matching rules list known nodes, `select` never panics,
returns a target exactly when the pool is enabled and has a healthy node, and
the target is that of a healthy node of the current set. -/
theorem run_selects_healthy_nodes (events : List Event)
    (hknown : Along step RuleNodesKnown LbPool.new events) :
    Along step SelectSafe LbPool.new events := by
  apply Along.steps (I := fun p => p.poisoned = false) ?_ hknown rfl
  intro p e hp hcond
  have hsafe := selectSafe_of_unpoisoned hp hcond
  exact ⟨hsafe, unpoisoned_step hp hsafe⟩

def sampleNode (id advertise : String) : LbNode where
  nodeId := id
  advertise := advertise
  internalAddr := none
  loadInflight := 0
  degraded := false

def sampleConfig (ruleNodes : List String) : LbConfig :=
  { LbConfig.default with
    enabled := true
    mode := "internal_ip"
    internalCidrs := [⟨"10.0.0.0/8", ruleNodes⟩] }

def lanVisit : Event :=
  .select (some (.v4 0x0a010203#32)) none "/"

theorem known_rule_node_selected :
    Along step SelectSafe LbPool.new
      [.setConfig ⟨sampleConfig ["a"], by decide⟩,
        .setNodes [sampleNode "a" "10.0.0.5:80"], lanVisit] := by
  apply run_selects_healthy_nodes
  refine ⟨?_, ?_, ?_, trivial⟩
  · intro visitor sticky pathAndQuery rule he
    cases he
  · intro visitor sticky pathAndQuery rule he
    cases he
  · intro visitor sticky pathAndQuery rule he _ _ hrule _
    cases he
    have hrule' : rule = ⟨"10.0.0.0/8", ["a"]⟩ := by
      have hfound : internalRule (sampleConfig ["a"]) (some (.v4 0x0a010203#32)) =
          some ⟨"10.0.0.0/8", ["a"]⟩ := rfl
      exact (Option.some.inj (hfound.symm.trans hrule)).symm
    rw [hrule']
    decide

/-- A rule that lists a node outside the node set first. -/
theorem unknown_rule_node_panics :
    let p := runFrom step LbPool.new
      [.setConfig ⟨sampleConfig ["gone", "a"], by decide⟩,
        .setNodes [sampleNode "a" "10.0.0.5:80"]]
    p.config.enabled = true ∧ p.ui "a" = some true ∧
      (p.select (some (.v4 0x0a010203#32)) none "/").2 = .panicked ∧
      ¬ SelectSafe p lanVisit := by
  have hpanic : ((runFrom step LbPool.new
      [.setConfig ⟨sampleConfig ["gone", "a"], by decide⟩,
        .setNodes [sampleNode "a" "10.0.0.5:80"]]).select
      (some (.v4 0x0a010203#32)) none "/").2 = .panicked := by
    decide
  refine ⟨by decide, by decide, hpanic, ?_⟩
  intro hsafe
  exact (hsafe _ _ _ rfl).1 hpanic

end LoadBalancer

end GrServer
