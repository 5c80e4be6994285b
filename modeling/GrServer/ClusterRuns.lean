import GrServer.ClusterHub
import GrServer.GuardedRun

/-!
# Clusters exchanging heartbeats

Several hubs share one cluster key.  Any beat that was ever signed may be
delivered to any hub, any number of times and in any order; on its way the
modules may come to stand in another order.

Each node keeps, beside its hub, what it accepted from its peers and when it
last took a snapshot.  The code has neither: they are what the peer table is
compared with.
-/

namespace GrServer

open Text

namespace ClusterHub

structure Beat where
  info : NodeInfo
  tsMs : ℤ
  sig : String

/-- A beat of a peer that was taken in, with its place among the signed beats
and the time of the delivery. -/
structure Acceptance where
  peer : String
  seq : ℕ
  tsMs : ℤ
  payload : String
  time : ℕ

structure Node where
  hub : Hub
  /-- The wall clock, in milliseconds. -/
  wall : ℕ
  /-- The clock of `Instant`, in milliseconds. -/
  mono : ℕ
  /-- The newest acceptance comes first. -/
  heard : List Acceptance
  /-- The time of the last snapshot. -/
  looked : Option ℕ

structure Cluster where
  nodes : String → Node
  /-- The oldest beat comes first. -/
  signed : List Beat

inductive Action where
  | updateSelf (node : String) (f : NodeInfo → NodeInfo)
  | signHeartbeat (node : String)
  | snapshot (node : String)
  | advance (node : String) (wall mono : ℕ)
  | ingestPeer (node key : String) (seq : ℕ) (modules : List (String × String))

def Cluster.set (c : Cluster) (node : String) (n : Node) : Cluster :=
  { c with nodes := Function.update c.nodes node n }

def recode (info : NodeInfo) (modules : List (String × String)) : NodeInfo :=
  { info with modules := modules }

section Steps

variable (env : HubEnv)

def Node.deliver (n : Node) (key : String) (seq : ℕ) (info : NodeInfo) (tsMs : ℤ)
    (sig : String) : Node :=
  let r := n.hub.ingestPeer env key info tsMs sig n.wall n.mono
  { n with
    hub := r.2
    heard :=
      if r.1 = true ∧ info.nodeId ≠ n.hub.nodeId then
        ⟨info.nodeId, seq, tsMs, env.toText info, n.mono⟩ :: n.heard
      else n.heard }

def Cluster.step (c : Cluster) : Action → Cluster
  | .updateSelf node f =>
      c.set node { c.nodes node with
        hub := (c.nodes node).hub.updateSelf f (c.nodes node).wall }
  | .signHeartbeat node =>
      let beat := (c.nodes node).hub.signHeartbeat env (c.nodes node).wall
      { c with signed := c.signed ++ [⟨beat.1, beat.2.1, beat.2.2⟩] }
  | .snapshot node =>
      c.set node { c.nodes node with
        hub := ((c.nodes node).hub.snapshot (c.nodes node).mono).2
        looked := some (c.nodes node).mono }
  | .advance node wall mono =>
      c.set node { c.nodes node with
        wall := (c.nodes node).wall + wall
        mono := (c.nodes node).mono + mono }
  | .ingestPeer node key seq modules =>
      match c.signed[seq]? with
      | none => c
      | some beat =>
          c.set node ((c.nodes node).deliver env key seq (recode beat.info modules) beat.tsMs
            beat.sig)

structure Boot where
  advertise : String
  version : String
  wall : ℕ
  mono : ℕ

def Cluster.boot (clusterKey : String) (config : String → Boot) : Cluster where
  nodes node :=
    { hub := Hub.new env node clusterKey (config node).advertise (config node).version
        (config node).wall
      wall := (config node).wall
      mono := (config node).mono
      heard := []
      looked := none }
  signed := []

end Steps

/-- What can happen: a node does not change its own id, and a beat comes out of
the transport with its modules in some order. -/
def Legal (c : Cluster) : Action → Prop
  | .updateSelf _ f => ∀ info, (f info).nodeId = info.nodeId
  | .ingestPeer _ _ seq modules =>
      ∀ beat, c.signed[seq]? = some beat → modules.Perm beat.info.modules
  | _ => True

def NotBefore (late early : Acceptance) : Prop :=
  early.tsMs ≤ late.tsMs ∧ (early.tsMs = late.tsMs → early.payload = late.payload)

def SameBeat (a b : Acceptance) : Prop :=
  a.peer = b.peer ∧ a.tsMs = b.tsMs ∧ a.payload = b.payload

def FirstHeard (heard : List Acceptance) (a : Acceptance) : Prop :=
  ∃ later earlier, heard = later ++ a :: earlier ∧ ∀ b ∈ earlier, ¬ SameBeat b a

/-- What the protocol promises of a delivery. -/
structure DeliverySound (env : HubEnv) (n : Node) (key : String) (seq : ℕ) (info : NodeInfo)
    (tsMs : ℤ) (sig : String) : Prop where
  /-- A peer does not go back. -/
  monotone : (n.hub.ingestPeer env key info tsMs sig n.wall n.mono).1 = true →
    info.nodeId ≠ n.hub.nodeId → ∀ a ∈ n.heard, a.peer = info.nodeId →
      NotBefore ⟨info.nodeId, seq, tsMs, env.toText info, n.mono⟩ a
  /-- A new beat that comes in order gets through. -/
  complete : info.nodeId ≠ n.hub.nodeId → n.hub.authOk env key = true →
    |(n.wall : ℤ) - tsMs| ≤ heartbeatWindowMs →
    (∀ a ∈ n.heard, a.peer = info.nodeId → a.seq < seq) →
      (n.hub.ingestPeer env key info tsMs sig n.wall n.mono).1 = true

def SnapshotFresh (n : Node) : Prop :=
  ∀ info ∈ (n.hub.snapshot n.mono).1, info.nodeId ≠ n.hub.nodeId →
    ∃ a, FirstHeard n.heard a ∧ a.peer = info.nodeId ∧ n.mono < a.time + n.hub.staleAfter

def StepSound (env : HubEnv) (c : Cluster) : Action → Prop
  | .ingestPeer node key seq modules =>
      ∀ beat, c.signed[seq]? = some beat →
        DeliverySound env (c.nodes node) key seq (recode beat.info modules) beat.tsMs beat.sig
  | .snapshot node => SnapshotFresh (c.nodes node)
  | _ => True

def lastHeard (heard : List Acceptance) (peer : String) : Option Acceptance :=
  heard.find? fun a => a.peer == peer

def GoesBack (env : HubEnv) (info : NodeInfo) (tsMs : ℤ) (a : Acceptance) : Prop :=
  tsMs < a.tsMs ∨ tsMs = a.tsMs ∧ env.toText info ≠ a.payload

/-- The beat comes in the order in which its sender signed. -/
def InOrder (n : Node) (seq : ℕ) (peer : String) : Prop :=
  ∀ a ∈ n.heard, a.peer = peer → a.seq < seq

structure Clear (env : HubEnv) (signed : List Beat) (n : Node) (seq : ℕ)
    (original info : NodeInfo) (tsMs : ℤ) : Prop where
  /-- In order, the modules come as they were signed. -/
  faithful : InOrder n seq info.nodeId → env.toText info = env.toText original
  /-- In order, no other payload of the sender was signed at the same time. -/
  distinct : InOrder n seq info.nodeId → ∀ a ∈ lastHeard n.heard info.nodeId,
    tsMs = a.tsMs → env.toText info = a.payload
  /-- Where the beat goes back, its sender stamped the info of the newer beat
  after signing it. -/
  updated : ∀ a ∈ lastHeard n.heard info.nodeId, GoesBack env info tsMs a →
    ∀ newer ∈ signed[a.seq]?,
      tsMs < newer.info.tsMs ∨ tsMs = newer.info.tsMs ∧ env.toText info ≠ a.payload
  /-- Where the beat goes back, the receiver took no snapshot by which the newer
  one was stale. -/
  held : ∀ a ∈ lastHeard n.heard info.nodeId, GoesBack env info tsMs a →
    ∀ t ∈ n.looked, t < a.time + n.hub.staleAfter

def Unprolonged (n : Node) : Prop :=
  ∀ peer, ∀ a ∈ lastHeard n.heard peer, ∀ first, FirstHeard n.heard first →
    SameBeat first a → first.time + n.hub.staleAfter ≤ n.mono →
      a.time + n.hub.staleAfter ≤ n.mono

/-- Deliveries to a peer that come inside the window with the cluster key are
clear, and no snapshot is taken in the time that a retry has won. -/
def StepClear (env : HubEnv) (c : Cluster) : Action → Prop
  | .ingestPeer node key seq modules =>
      ∀ beat, c.signed[seq]? = some beat → beat.info.nodeId ≠ (c.nodes node).hub.nodeId →
        (c.nodes node).hub.authOk env key = true →
        |((c.nodes node).wall : ℤ) - beat.tsMs| ≤ heartbeatWindowMs →
          Clear env c.signed (c.nodes node) seq beat.info (recode beat.info modules) beat.tsMs
  | .snapshot node => Unprolonged (c.nodes node)
  | _ => True

/-! ## Acceptances -/

section Heard

variable {heard : List Acceptance} {a b m x : Acceptance} {p : String}

theorem NotBefore.refl (a : Acceptance) : NotBefore a a :=
  ⟨le_refl _, fun _ => rfl⟩

theorem NotBefore.trans (h : NotBefore x m) (h' : NotBefore m a) : NotBefore x a := by
  refine ⟨h'.1.trans h.1, fun heq => ?_⟩
  have hmid : a.tsMs = m.tsMs := by
    have := h.1
    have := h'.1
    omega
  rw [h'.2 hmid]
  exact h.2 (by omega)

def Ordered (heard : List Acceptance) : Prop :=
  heard.Pairwise fun late early => early.peer = late.peer → NotBefore late early

theorem lastHeard_cons_self (heard : List Acceptance) (x : Acceptance) :
    lastHeard (x :: heard) x.peer = some x := by
  simp [lastHeard]

theorem lastHeard_cons_of_ne (hne : p ≠ x.peer) :
    lastHeard (x :: heard) p = lastHeard heard p := by
  simp [lastHeard, hne.symm]

theorem Ordered.lastHeard (h : Ordered heard) (ha : a ∈ heard) :
    ∃ m, lastHeard heard a.peer = some m ∧ NotBefore m a := by
  induction heard with
  | nil => cases ha
  | cons x rest ih =>
      have hx := List.pairwise_cons.mp h
      rcases List.mem_cons.mp ha with rfl | hrest
      · exact ⟨a, lastHeard_cons_self rest a, NotBefore.refl a⟩
      · by_cases hpeer : a.peer = x.peer
        · refine ⟨x, ?_, hx.1 a hrest hpeer⟩
          rw [hpeer]
          exact lastHeard_cons_self rest x
        · rw [lastHeard_cons_of_ne hpeer]
          exact ih hx.2 hrest

theorem FirstHeard.cons (h : FirstHeard heard a) (x : Acceptance) :
    FirstHeard (x :: heard) a := by
  obtain ⟨later, earlier, hheard, hfirst⟩ := h
  exact ⟨x :: later, earlier, by rw [hheard, List.cons_append], hfirst⟩

theorem FirstHeard.head (h : ∀ b ∈ heard, ¬ SameBeat b x) : FirstHeard (x :: heard) x :=
  ⟨[], heard, rfl, h⟩

theorem SameBeat.trans (h : SameBeat a b) (h' : SameBeat b m) : SameBeat a m :=
  ⟨h.1.trans h'.1, h.2.1.trans h'.2.1, h.2.2.trans h'.2.2⟩

theorem exists_firstHeard (ha : a ∈ heard) : ∃ first, FirstHeard heard first ∧ SameBeat first a := by
  induction heard generalizing a with
  | nil => cases ha
  | cons x rest ih =>
      rcases List.mem_cons.mp ha with rfl | hrest
      · by_cases hagain : ∃ b ∈ rest, SameBeat b a
        · obtain ⟨b, hb, hsame⟩ := hagain
          obtain ⟨first, hfirst, hfirstSame⟩ := ih hb
          exact ⟨first, hfirst.cons a, hfirstSame.trans hsame⟩
        · refine ⟨a, FirstHeard.head fun b hb hsame => hagain ⟨b, hb, hsame⟩, rfl, rfl, rfl⟩
      · obtain ⟨first, hfirst, hsame⟩ := ih hrest
        exact ⟨first, hfirst.cons x, hsame⟩

end Heard

/-! ## The invariant -/

structure Tracked (env : HubEnv) (signed : List Beat) (heard : List Acceptance) (p : String)
    (e : PeerEntry) : Prop where
  name : e.info.nodeId = p
  last : ∃ a beat, lastHeard heard p = some a ∧ signed[a.seq]? = some beat ∧
    e.info.tsMs = beat.info.tsMs ∧ env.toText e.info = a.payload ∧ e.lastSeen = a.time

structure NodeInv (env : HubEnv) (clusterKey : String) (signed : List Beat) (name : String)
    (n : Node) : Prop where
  nodeId : n.hub.nodeId = name
  hmacKey : n.hub.hmacKey = env.sha256 (asBytes clusterKey)
  selfId : n.hub.selfInfo.nodeId = name
  selfTs : n.hub.selfInfo.tsMs ≤ n.wall
  genuine : ∀ a ∈ n.heard, ∃ beat, signed[a.seq]? = some beat ∧ beat.info.nodeId = a.peer ∧
    beat.tsMs = a.tsMs
  past : ∀ a ∈ n.heard, a.time ≤ n.mono
  lookedPast : ∀ t ∈ n.looked, t ≤ n.mono
  ordered : Ordered n.heard
  tracked : ∀ p e, n.hub.peers.get? p = some e → Tracked env signed n.heard p e
  /-- A beat stays in the table until a snapshot finds it stale. -/
  kept : ∀ p, ∀ a ∈ lastHeard n.heard p,
    (∀ t ∈ n.looked, t < a.time + n.hub.staleAfter) → ∃ e, n.hub.peers.get? p = some e

structure BeatInv (env : HubEnv) (clusterKey : String) (c : Cluster) (beat : Beat) : Prop where
  infoTs : beat.info.tsMs ≤ beat.tsMs
  nonneg : 0 ≤ beat.tsMs
  past : beat.tsMs ≤ (c.nodes beat.info.nodeId).wall
  sig : beat.sig = env.hexEncode (hmacSha256 env (env.sha256 (asBytes clusterKey))
    (asBytes (beat.info.nodeId ++ "|" ++ beat.tsMs.repr ++ "|" ++ env.toText beat.info)))

structure Invariant (env : HubEnv) (clusterKey : String) (c : Cluster) : Prop where
  nodes : ∀ name, NodeInv env clusterKey c.signed name (c.nodes name)
  beats : ∀ beat ∈ c.signed, BeatInv env clusterKey c beat
  inOrder : c.signed.Pairwise fun early late =>
    early.info.nodeId = late.info.nodeId → early.tsMs ≤ late.tsMs

section Preservation

variable {env : HubEnv} {clusterKey : String} {c : Cluster} {node name : String} {n : Node}
  {signed : List Beat}

theorem invariant_boot (config : String → Boot) :
    Invariant env clusterKey (Cluster.boot env clusterKey config) where
  nodes name :=
    { nodeId := rfl
      hmacKey := rfl
      selfId := rfl
      selfTs := le_refl _
      genuine := fun a ha => by cases ha
      past := fun a ha => by cases ha
      lookedPast := fun t ht => by cases ht
      ordered := List.Pairwise.nil
      tracked := fun p e he => by cases he
      kept := fun p a ha => by cases ha }
  beats beat hbeat := by cases hbeat
  inOrder := List.Pairwise.nil

theorem Invariant.set (h : Invariant env clusterKey c)
    (hn : NodeInv env clusterKey c.signed node n) (hwall : (c.nodes node).wall ≤ n.wall) :
    Invariant env clusterKey (c.set node n) where
  nodes name := by
    by_cases hname : name = node
    · subst hname
      simpa [Cluster.set] using hn
    · simpa [Cluster.set, hname] using h.nodes name
  beats beat hbeat := by
    have hold := h.beats beat hbeat
    refine ⟨hold.infoTs, hold.nonneg, ?_, hold.sig⟩
    by_cases hname : beat.info.nodeId = node
    · have hpast := hold.past
      rw [hname] at hpast
      simp only [Cluster.set, hname, Function.update_self]
      omega
    · simpa [Cluster.set, hname] using hold.past
  inOrder := h.inOrder

theorem NodeInv.sign (h : NodeInv env clusterKey signed name n) (beat : Beat) :
    NodeInv env clusterKey (signed ++ [beat]) name n := by
  have hold {seq : ℕ} {old : Beat} (hget : signed[seq]? = some old) :
      (signed ++ [beat])[seq]? = some old := by
    rw [List.getElem?_append_left (List.getElem?_eq_some_iff.mp hget).1, hget]
  refine { h with genuine := fun a ha => ?_, tracked := fun p e he => ?_ }
  · obtain ⟨old, hget, hrest⟩ := h.genuine a ha
    exact ⟨old, hold hget, hrest⟩
  · have htracked := h.tracked p e he
    obtain ⟨a, old, hlast, hget, hrest⟩ := htracked.last
    exact ⟨htracked.name, a, old, hlast, hold hget, hrest⟩

theorem NodeInv.updateSelf (h : NodeInv env clusterKey signed name n)
    {f : NodeInfo → NodeInfo} (hf : ∀ info, (f info).nodeId = info.nodeId) :
    NodeInv env clusterKey signed name { n with hub := n.hub.updateSelf f n.wall } where
  nodeId := h.nodeId
  hmacKey := h.hmacKey
  selfId := (hf _).trans h.selfId
  selfTs := le_refl _
  genuine := h.genuine
  past := h.past
  lookedPast := h.lookedPast
  ordered := h.ordered
  tracked := h.tracked
  kept := h.kept

theorem NodeInv.snapshot (h : NodeInv env clusterKey signed name n) :
    NodeInv env clusterKey signed name
      { n with hub := (n.hub.snapshot n.mono).2, looked := some n.mono } where
  nodeId := h.nodeId
  hmacKey := h.hmacKey
  selfId := h.selfId
  selfTs := h.selfTs
  genuine := h.genuine
  past := h.past
  lookedPast t ht := by
    rw [Option.mem_some_iff] at ht
    rw [← ht]
  ordered := h.ordered
  tracked p e he := h.tracked p e (get?_peers_snapshot he)
  kept p a ha hlooked := by
    have hfresh : n.mono < a.time + n.hub.staleAfter := hlooked n.mono rfl
    have hbefore : ∀ t ∈ n.looked, t < a.time + n.hub.staleAfter := by
      intro t ht
      have hpast := h.lookedPast t ht
      omega
    obtain ⟨e, he⟩ := h.kept p a ha hbefore
    obtain ⟨a', _, ha', _, _, _, hseen⟩ := (h.tracked p e he).last
    have hsame : a' = a := Option.some.inj (ha'.symm.trans ha)
    have hpast : a.time ≤ n.mono := h.past a (List.mem_of_find?_eq_some ha)
    refine ⟨e, SortedMap.get?_filter_eq_some.mpr ⟨he, ?_⟩⟩
    rw [hseen, hsame, decide_eq_true_iff]
    omega

theorem NodeInv.advance (h : NodeInv env clusterKey signed name n) (wall mono : ℕ) :
    NodeInv env clusterKey signed name { n with wall := n.wall + wall, mono := n.mono + mono } where
  nodeId := h.nodeId
  hmacKey := h.hmacKey
  selfId := h.selfId
  selfTs := by
    have := h.selfTs
    push_cast
    omega
  genuine := h.genuine
  past a ha := (h.past a ha).trans (Nat.le_add_right _ _)
  lookedPast t ht := (h.lookedPast t ht).trans (Nat.le_add_right _ _)
  ordered := h.ordered
  tracked := h.tracked
  kept := h.kept

theorem Invariant.sign (h : Invariant env clusterKey c) (node : String) :
    Invariant env clusterKey (c.step env (.signHeartbeat node)) := by
  have hself := h.nodes node
  constructor
  · intro name
    exact (h.nodes name).sign _
  · intro beat hbeat
    rcases List.mem_append.mp hbeat with hold | hnew
    · have holdInv := h.beats beat hold
      exact ⟨holdInv.infoTs, holdInv.nonneg, holdInv.past, holdInv.sig⟩
    · rw [List.mem_singleton.mp hnew]
      refine ⟨hself.selfTs, Int.natCast_nonneg _, ?_, ?_⟩
      · show ((c.nodes node).wall : ℤ) ≤ (c.nodes (c.nodes node).hub.selfInfo.nodeId).wall
        rw [hself.selfId]
      · show (c.nodes node).hub.signPayload env _ _ _ = _
        unfold Hub.signPayload
        rw [hself.hmacKey]
        rfl
  · refine List.pairwise_append.mpr ⟨h.inOrder, List.pairwise_singleton _ _, ?_⟩
    intro early hearly late hlate hsame
    rw [List.mem_singleton.mp hlate] at hsame ⊢
    have hname : early.info.nodeId = node := hsame.trans hself.selfId
    have hpast := (h.beats early hearly).past
    rw [hname] at hpast
    exact hpast

end Preservation

/-! ## Deliveries -/

section Delivery

variable {env : HubEnv} {clusterKey key sig : String} {c : Cluster} {name : String} {n : Node}
  {signed : List Beat} {seq : ℕ} {original info : NodeInfo} {tsMs : ℤ}

theorem not_advances_of_stored {e : PeerEntry} (he : n.hub.peers.get? info.nodeId = some e)
    (h : tsMs < e.info.tsMs ∨ tsMs = e.info.tsMs ∧ env.toText info ≠ env.toText e.info) :
    ¬ n.hub.Advances env info tsMs := by
  have hprev : n.hub.prevTs info.nodeId = e.info.tsMs := by simp [Hub.prevTs, he]
  have hsame : n.hub.identical env info = (env.toText e.info == env.toText info) := by
    simp [Hub.identical, he]
  rintro (hlt | ⟨heq, hidentical⟩)
  · rcases h with hold | hother <;> omega
  · rcases h with hold | hother
    · omega
    · rw [hsame] at hidentical
      exact hother.2 (by simpa using Eq.symm (by simpa using hidentical))

theorem not_advances_of_goesBack (hn : NodeInv env clusterKey signed name n)
    (hclear : Clear env signed n seq original info tsMs) {a : Acceptance}
    (ha : lastHeard n.heard info.nodeId = some a) (hback : GoesBack env info tsMs a) :
    ¬ n.hub.Advances env info tsMs := by
  obtain ⟨e, he⟩ := hn.kept info.nodeId a ha (hclear.held a ha hback)
  obtain ⟨a', newer, ha', hnewer, hts, htext, -⟩ := (hn.tracked _ e he).last
  have hsame : a' = a := Option.some.inj (ha'.symm.trans ha)
  rw [hsame] at hnewer htext
  have hupdated := hclear.updated a ha hback newer hnewer
  rw [← hts, ← htext] at hupdated
  exact not_advances_of_stored he hupdated

theorem notBefore_of_clear (hn : NodeInv env clusterKey signed name n)
    (hclear : Clear env signed n seq original info tsMs)
    (hadvances : n.hub.Advances env info tsMs)
    {a : Acceptance} (ha : a ∈ n.heard) (hpeer : a.peer = info.nodeId) :
    NotBefore ⟨info.nodeId, seq, tsMs, env.toText info, n.mono⟩ a := by
  obtain ⟨m, hm, hma⟩ := hn.ordered.lastHeard ha
  rw [hpeer] at hm
  have hnotBack : ¬ GoesBack env info tsMs m :=
    fun hback => not_advances_of_goesBack hn hclear hm hback hadvances
  have hxm : NotBefore ⟨info.nodeId, seq, tsMs, env.toText info, n.mono⟩ m := by
    constructor
    · by_contra hlt
      exact hnotBack (Or.inl (not_le.mp hlt))
    · intro heq
      by_contra hne
      exact hnotBack (Or.inr ⟨heq.symm, fun hsame => hne hsame.symm⟩)
  exact hxm.trans hma

theorem complete_of_clear (h : Invariant env clusterKey c) {beat : Beat} {node : String}
    {modules : List (String × String)} (hbeat : c.signed[seq]? = some beat)
    (hclear : Clear env c.signed (c.nodes node) seq beat.info (recode beat.info modules)
      beat.tsMs)
    (hauth : (c.nodes node).hub.authOk env key = true)
    (hwindow : |((c.nodes node).wall : ℤ) - beat.tsMs| ≤ heartbeatWindowMs)
    (horder : ∀ a ∈ (c.nodes node).heard, a.peer = beat.info.nodeId → a.seq < seq) :
    ((c.nodes node).hub.ingestPeer env key (recode beat.info modules) beat.tsMs beat.sig
      (c.nodes node).wall (c.nodes node).mono).1 = true := by
  have hn := h.nodes node
  have hsent := h.beats beat (List.mem_of_getElem? hbeat)
  have hsigned : (c.nodes node).hub.signPayload env beat.info.nodeId (recode beat.info modules)
      beat.tsMs = beat.sig := by
    unfold Hub.signPayload
    rw [hn.hmacKey, hclear.faithful horder, hsent.sig]
  have hadmitted : Admitted env (c.nodes node).hub key (recode beat.info modules) beat.tsMs
      beat.sig (c.nodes node).wall := by
    refine ⟨hauth, hwindow, ?_⟩
    show ctEq (asBytes ((c.nodes node).hub.signPayload env beat.info.nodeId
      (recode beat.info modules) beat.tsMs)) (asBytes beat.sig) = true
    rw [hsigned]
    exact ctEq_self _
  refine ingestPeer_of_admitted hadmitted (Or.inr ?_)
  show (c.nodes node).hub.prevTs beat.info.nodeId < beat.tsMs ∨
    (c.nodes node).hub.prevTs beat.info.nodeId = beat.tsMs ∧
      (c.nodes node).hub.identical env (recode beat.info modules) = true
  cases hentry : (c.nodes node).hub.peers.get? beat.info.nodeId with
  | none =>
      left
      have hnonneg := hsent.nonneg
      simp only [Hub.prevTs, hentry, Option.map_none, Option.getD_none, noBeat]
      omega
  | some e =>
      have hprev : (c.nodes node).hub.prevTs beat.info.nodeId = e.info.tsMs := by
        simp [Hub.prevTs, hentry]
      obtain ⟨a, newer, ha, hnewer, hts, htext, -⟩ := (hn.tracked _ e hentry).last
      have hmem : a ∈ (c.nodes node).heard := List.mem_of_find?_eq_some ha
      have hpeer : a.peer = beat.info.nodeId := by simpa using List.find?_some ha
      obtain ⟨early, hearly, hname, hearlyTs⟩ := hn.genuine a hmem
      have hsame : early = newer := Option.some.inj (hearly.symm.trans hnewer)
      have hstamped := (h.beats newer (List.mem_of_getElem? hnewer)).infoTs
      -- the last beat taken from the peer was signed before this one
      have hle : early.tsMs ≤ beat.tsMs := by
        obtain ⟨hearlyLt, hearlyGet⟩ := List.getElem?_eq_some_iff.mp hearly
        obtain ⟨hbeatLt, hbeatGet⟩ := List.getElem?_eq_some_iff.mp hbeat
        have hpair := List.pairwise_iff_getElem.mp h.inOrder a.seq seq hearlyLt hbeatLt
          (horder a hmem hpeer)
        rw [hearlyGet, hbeatGet] at hpair
        exact hpair (hname.trans hpeer)
      rw [← hsame] at hstamped hts
      rw [hprev]
      by_cases heq : e.info.tsMs = beat.tsMs
      · right
        refine ⟨heq, ?_⟩
        have hpayload := hclear.distinct horder a ha (by omega)
        rw [← htext] at hpayload
        simp [Hub.identical, recode, hentry] at hpayload ⊢
        exact hpayload.symm
      · left
        omega

theorem deliver_of_rejected
    (h : n.hub.ingestPeer env key info tsMs sig n.wall n.mono = (false, n.hub)) :
    n.deliver env key seq info tsMs sig = n := by
  simp [Node.deliver, h]

theorem deliver_of_own (h : n.hub.ingestPeer env key info tsMs sig n.wall n.mono = (true, n.hub))
    (hown : info.nodeId = n.hub.nodeId) : n.deliver env key seq info tsMs sig = n := by
  simp [Node.deliver, h, hown]

theorem deliver_of_accepted
    (h : n.hub.ingestPeer env key info tsMs sig n.wall n.mono =
      (true, { n.hub with peers := n.hub.peers.insert info.nodeId ⟨info, n.mono⟩ }))
    (hpeer : info.nodeId ≠ n.hub.nodeId) :
    n.deliver env key seq info tsMs sig =
      { n with
        hub := { n.hub with peers := n.hub.peers.insert info.nodeId ⟨info, n.mono⟩ }
        heard := ⟨info.nodeId, seq, tsMs, env.toText info, n.mono⟩ :: n.heard } := by
  simp [Node.deliver, h, hpeer]

theorem NodeInv.deliver (hn : NodeInv env clusterKey signed name n) {beat : Beat}
    (hbeat : signed[seq]? = some beat) (hname : info.nodeId = beat.info.nodeId)
    (hinfo : info.tsMs = beat.info.tsMs) (hbeatTs : beat.tsMs = tsMs)
    (hclear : info.nodeId ≠ n.hub.nodeId → n.hub.authOk env key = true →
      |(n.wall : ℤ) - tsMs| ≤ heartbeatWindowMs →
        Clear env signed n seq original info tsMs) :
    NodeInv env clusterKey signed name (n.deliver env key seq info tsMs sig) := by
  rcases @ingestPeer_cases env n.hub key info tsMs sig n.wall n.mono with
    ⟨hreject, -⟩ | ⟨howned, hown⟩ | ⟨haccept, hpeer, hadmitted, hadvances⟩
  · rw [deliver_of_rejected hreject]
    exact hn
  · rw [deliver_of_own howned hown]
    exact hn
  · rw [deliver_of_accepted haccept hpeer]
    have hclear := hclear hpeer hadmitted.auth hadmitted.window
    constructor
    · exact hn.nodeId
    · exact hn.hmacKey
    · exact hn.selfId
    · exact hn.selfTs
    · intro a ha
      rcases List.mem_cons.mp ha with rfl | hold
      · exact ⟨beat, hbeat, hname.symm, hbeatTs⟩
      · exact hn.genuine a hold
    · intro a ha
      rcases List.mem_cons.mp ha with rfl | hold
      · exact le_refl _
      · exact hn.past a hold
    · exact hn.lookedPast
    · refine List.pairwise_cons.mpr ⟨fun a ha hsame => ?_, hn.ordered⟩
      exact notBefore_of_clear hn hclear hadvances ha hsame
    · intro p e he
      by_cases hp : p = info.nodeId
      · subst hp
        have hentry : e = ⟨info, n.mono⟩ := by simpa using he.symm
        rw [hentry]
        exact ⟨rfl, _, beat, lastHeard_cons_self _ _, hbeat, hinfo, rfl, rfl⟩
      · rw [SortedMap.get?_insert_of_ne hp] at he
        have hold := hn.tracked p e he
        obtain ⟨a, old, ha, hlast⟩ := hold.last
        exact ⟨hold.name, a, old, (lastHeard_cons_of_ne hp).trans ha, hlast⟩
    · intro p a ha hlooked
      by_cases hp : p = info.nodeId
      · subst hp
        exact ⟨_, SortedMap.get?_insert_self _ _ _⟩
      · rw [lastHeard_cons_of_ne hp] at ha
        obtain ⟨e, he⟩ := hn.kept p a ha hlooked
        exact ⟨e, (SortedMap.get?_insert_of_ne hp _).trans he⟩

theorem snapshotFresh_of_unprolonged (hn : NodeInv env clusterKey signed name n)
    (hunprolonged : Unprolonged n) : SnapshotFresh n := by
  intro info hinfo hpeer
  rcases mem_snapshot hinfo with rfl | ⟨p, e, he, rfl, hfresh⟩
  · exact absurd (hn.selfId.trans hn.nodeId.symm) hpeer
  · have htracked := hn.tracked p e he
    obtain ⟨a, _, ha, _, _, _, hseen⟩ := htracked.last
    obtain ⟨first, hfirst, hsame⟩ := exists_firstHeard (List.mem_of_find?_eq_some ha)
    have hname : a.peer = p := by simpa using List.find?_some ha
    have hpast := hn.past a (List.mem_of_find?_eq_some ha)
    refine ⟨first, hfirst, hsame.1.trans (hname.trans htracked.name.symm), ?_⟩
    by_contra hstale
    have hretry := hunprolonged p a ha first hfirst hsame (not_lt.mp hstale)
    rw [hseen] at hfresh
    omega

end Delivery

section Runs

variable {env : HubEnv} {clusterKey : String} {c : Cluster}

theorem invariant_step (a : Action) (h : Invariant env clusterKey c) (hlegal : Legal c a)
    (hclear : StepClear env c a) : Invariant env clusterKey (c.step env a) := by
  cases a with
  | updateSelf node f => exact h.set ((h.nodes node).updateSelf hlegal) (le_refl _)
  | signHeartbeat node => exact h.sign node
  | snapshot node => exact h.set (h.nodes node).snapshot (le_refl _)
  | advance node wall mono =>
      exact h.set ((h.nodes node).advance wall mono) (Nat.le_add_right _ _)
  | ingestPeer node key seq modules =>
      cases hbeat : c.signed[seq]? with
      | none => simpa [Cluster.step, hbeat] using h
      | some beat =>
          simp only [Cluster.step, hbeat]
          refine h.set ?_ (le_refl _)
          exact (h.nodes node).deliver hbeat rfl rfl rfl (hclear beat hbeat)

theorem stepSound_of_clear (a : Action) (h : Invariant env clusterKey c)
    (hclear : StepClear env c a) : StepSound env c a := by
  cases a with
  | updateSelf node f => trivial
  | signHeartbeat node => trivial
  | snapshot node => exact snapshotFresh_of_unprolonged (h.nodes node) hclear
  | advance node wall mono => trivial
  | ingestPeer node key seq modules =>
      intro beat hbeat
      constructor
      · intro haccept hpeer a ha haPeer
        rcases @ingestPeer_cases env (c.nodes node).hub key (recode beat.info modules) beat.tsMs
          beat.sig (c.nodes node).wall (c.nodes node).mono with
          ⟨hreject, -⟩ | ⟨-, hown⟩ | ⟨-, -, hadmitted, hadvances⟩
        · rw [hreject] at haccept
          cases haccept
        · exact absurd hown hpeer
        · exact notBefore_of_clear (h.nodes node)
            (hclear beat hbeat hpeer hadmitted.auth hadmitted.window) hadvances ha haPeer
      · intro hpeer hauth hwindow horder
        exact complete_of_clear h hbeat (hclear beat hbeat hpeer hauth hwindow) hauth hwindow
          horder

/-- A run whose deliveries are all clear is sound at every step. -/
theorem heartbeats_sound (config : String → Boot) (actions : List Action)
    (hrun : Along (Cluster.step env) (fun c a => Legal c a ∧ StepClear env c a)
      (Cluster.boot env clusterKey config) actions) :
    Along (Cluster.step env) (StepSound env) (Cluster.boot env clusterKey config) actions := by
  refine Along.steps (I := Invariant env clusterKey) ?_ hrun (invariant_boot config)
  intro c a hinv hguard
  exact ⟨stepSound_of_clear a hinv hguard.2, invariant_step a hinv hguard.1 hguard.2⟩

end Runs

/-! ## Samples -/

def sampleEnv : HubEnv where
  sha256 input := input.reverse.take 32
  hexEncode bytes := String.ofList (bytes.map fun b => Char.ofNat b.toNat)
  toText info := info.nodeId ++ "|" ++ info.tsMs.repr ++ "|" ++
    ",".intercalate (info.modules.map fun m => m.1 ++ "=" ++ m.2)

def sampleBoot : Cluster :=
  Cluster.boot sampleEnv "secret" fun _ => ⟨"127.0.0.1:7900", "6.0.21", 1000, 0⟩

section Decide

variable {env : HubEnv} {c : Cluster} {node key : String} {seq : ℕ}
  {modules : List (String × String)}

instance (n : Node) (seq : ℕ) (peer : String) : Decidable (InOrder n seq peer) :=
  inferInstanceAs (Decidable (∀ a ∈ n.heard, a.peer = peer → a.seq < seq))

instance (info : NodeInfo) (tsMs : ℤ) (a : Acceptance) : Decidable (GoesBack env info tsMs a) :=
  inferInstanceAs (Decidable (tsMs < a.tsMs ∨ tsMs = a.tsMs ∧ env.toText info ≠ a.payload))

instance (signed : List Beat) (n : Node) (seq : ℕ) (original info : NodeInfo) (tsMs : ℤ) :
    Decidable (Clear env signed n seq original info tsMs) :=
  decidable_of_iff
    ((InOrder n seq info.nodeId → env.toText info = env.toText original) ∧
      (InOrder n seq info.nodeId → ∀ a ∈ lastHeard n.heard info.nodeId,
        tsMs = a.tsMs → env.toText info = a.payload) ∧
      (∀ a ∈ lastHeard n.heard info.nodeId, GoesBack env info tsMs a →
        ∀ newer ∈ signed[a.seq]?,
          tsMs < newer.info.tsMs ∨ tsMs = newer.info.tsMs ∧ env.toText info ≠ a.payload) ∧
      (∀ a ∈ lastHeard n.heard info.nodeId, GoesBack env info tsMs a →
        ∀ t ∈ n.looked, t < a.time + n.hub.staleAfter))
    ⟨fun h => ⟨h.1, h.2.1, h.2.2.1, h.2.2.2⟩,
      fun h => ⟨h.faithful, h.distinct, h.updated, h.held⟩⟩

theorem guarded_ingest
    (h : ∀ beat ∈ c.signed[seq]?, modules = beat.info.modules ∧
      Clear env c.signed (c.nodes node) seq beat.info (recode beat.info modules) beat.tsMs) :
    Legal c (.ingestPeer node key seq modules) ∧
      StepClear env c (.ingestPeer node key seq modules) := by
  constructor
  · intro beat hbeat
    rw [(h beat hbeat).1]
  · intro beat hbeat _ _ _
    exact (h beat hbeat).2

end Decide

def signRun : List Action :=
  [.advance "n2" 50 50, .updateSelf "n2" fun info => { info with modules := [("core", "6.0.21")] },
    .signHeartbeat "n2"]

def take (seq : ℕ) : Action := .ingestPeer "n1" "secret" seq [("core", "6.0.21")]

/-- Two beats of `n2` reach `n1` in order, each of them twice: the first at once
and again after the second. -/
def replayRun : List Action :=
  signRun ++ [take 0, .advance "n1" 20 20, take 0] ++ signRun ++ [take 1, take 0, .snapshot "n1"]

/-- The retry is taken, the replay is not, and the run is sound. -/
theorem beats_in_order_sound :
    Along (Cluster.step sampleEnv) (StepSound sampleEnv) sampleBoot replayRun ∧
      (((runFrom (Cluster.step sampleEnv) sampleBoot replayRun).nodes "n1").heard.map
        Acceptance.seq) = [1, 0, 0] := by
  constructor
  · refine heartbeats_sound _ _ ?_
    have hrename : ∀ info : NodeInfo,
        ({ info with modules := [("core", "6.0.21")] } : NodeInfo).nodeId = info.nodeId :=
      fun _ => rfl
    let at' (k : ℕ) : Cluster := runFrom (Cluster.step sampleEnv) sampleBoot (replayRun.take k)
    have htake (k seq : ℕ) (h : ∀ beat ∈ (at' k).signed[seq]?,
        [("core", "6.0.21")] = beat.info.modules ∧
          Clear sampleEnv (at' k).signed ((at' k).nodes "n1") seq beat.info
            (recode beat.info [("core", "6.0.21")]) beat.tsMs) :
        Legal (at' k) (take seq) ∧ StepClear sampleEnv (at' k) (take seq) :=
      guarded_ingest h
    have hsnapshot : Unprolonged ((at' 11).nodes "n1") := by
      intro peer a _ first _ _ hstale
      have hclock : ((at' 11).nodes "n1").mono = 20 := rfl
      have hafter : ((at' 11).nodes "n1").hub.staleAfter = 30000 := rfl
      omega
    exact ⟨⟨trivial, trivial⟩, ⟨hrename, trivial⟩, ⟨trivial, trivial⟩,
      htake 3 0 (by decide), ⟨trivial, trivial⟩, htake 5 0 (by decide),
      ⟨trivial, trivial⟩, ⟨hrename, trivial⟩, ⟨trivial, trivial⟩,
      htake 9 1 (by decide), htake 10 0 (by decide), ⟨trivial, hsnapshot⟩, trivial⟩
  · decide

/-- Two beats of `n2`, signed 50 and 100 ms after its info was stamped, reach
`n1` in the wrong order. -/
def rollbackRun : List Action :=
  [.advance "n2" 50 50, .signHeartbeat "n2", .advance "n2" 50 50, .signHeartbeat "n2",
    .ingestPeer "n1" "secret" 1 [], .ingestPeer "n1" "secret" 0 []]

/-- The older beat is taken in after the newer one. -/
theorem rollback_accepted :
    Along (Cluster.step sampleEnv) Legal sampleBoot rollbackRun ∧
      ¬ Along (Cluster.step sampleEnv) (StepSound sampleEnv) sampleBoot rollbackRun := by
  constructor
  · have hplain : ∀ seq ∈ [1, 0], ∀ beat ∈ (runFrom (Cluster.step sampleEnv) sampleBoot
        rollbackRun).signed[seq]?, [] = beat.info.modules := by decide
    refine ⟨trivial, trivial, trivial, trivial, fun beat hbeat => ?_, fun beat hbeat => ?_, trivial⟩
    · rw [← hplain 1 (by simp) beat hbeat]
    · rw [← hplain 0 (by simp) beat hbeat]
  · intro hsound
    have hlast := hsound.2.2.2.2.2.1
    have hstep := (hlast _ rfl).monotone (by decide) (by decide) _ (List.mem_cons_self ..)
      (by decide)
    exact absurd hstep.1 (by decide)

end ClusterHub

end GrServer
