import GrServer.SortedMap
import GrServer.Text

/-!
# Peer heartbeats

A node signs what it knows of itself, and its peers keep the last beat of every
node.  A receiver asks for the cluster key, a signature, a timestamp near its
own clock, and a timestamp that does not go back.

The iteration order of a hash map is part of a `NodeInfo` here: the modules are
the entries in the order in which they are serialised.
-/

namespace GrServer

open Text

namespace ClusterHub

def heartbeatWindowMs : ℤ := 30000

structure NodeLoad where
  /-- The bits of an `f32`. -/
  cpuPct : UInt32
  memPct : UInt32
  inflight : UInt64
  analyzeWorkers : UInt32
  deriving DecidableEq

structure NodeInfo where
  nodeId : String
  advertise : String
  internalAddr : Option String
  roles : List String
  productVersion : String
  modules : List (String × String)
  load : NodeLoad
  degraded : Bool
  tsMs : ℤ
  deriving DecidableEq

structure HubEnv where
  sha256 : List UInt8 → List UInt8
  hexEncode : List UInt8 → String
  /-- `serde_json::to_string`. -/
  toText : NodeInfo → String

structure PeerEntry where
  info : NodeInfo
  lastSeen : ℕ

structure Hub where
  nodeId : String
  clusterKeyHash : String
  hmacKey : List UInt8
  peers : SortedMap String PeerEntry
  selfInfo : NodeInfo
  staleAfter : ℕ

section Source

variable (env : HubEnv)

def keyHash (key : String) : String := env.hexEncode (env.sha256 (asBytes key))

/-- RFC 2104 with blocks of 64 bytes. -/
def hmacSha256 (key msg : List UInt8) : List UInt8 :=
  let short := if 64 < key.length then env.sha256 key else key
  let k := short ++ List.replicate (64 - short.length) 0
  let inner := env.sha256 (k.map (0x36 ^^^ ·) ++ msg)
  env.sha256 (k.map (0x5c ^^^ ·) ++ inner)

def ctEq (a b : List UInt8) : Bool :=
  if a.length ≠ b.length then false
  else (List.zip a b).foldl (fun acc x => acc ||| (x.1 ^^^ x.2)) 0 == 0

def Hub.new (nodeId clusterKey advertise version : String) (nowMs : ℤ) : Hub where
  nodeId := nodeId
  clusterKeyHash := keyHash env clusterKey
  hmacKey := env.sha256 (asBytes clusterKey)
  peers := SortedMap.empty
  selfInfo :=
    { nodeId := nodeId
      advertise := advertise
      internalAddr := none
      roles := ["all"]
      productVersion := version
      modules := []
      load := ⟨0, 0, 0, 0⟩
      degraded := false
      tsMs := nowMs }
  staleAfter := 30000

def Hub.authOk (hub : Hub) (presentedKey : String) : Bool :=
  ctEq (asBytes (keyHash env presentedKey)) (asBytes hub.clusterKeyHash)

def Hub.updateSelf (hub : Hub) (f : NodeInfo → NodeInfo) (nowMs : ℤ) : Hub :=
  { hub with selfInfo := { f hub.selfInfo with tsMs := nowMs } }

def Hub.signPayload (hub : Hub) (senderNodeId : String) (info : NodeInfo) (tsMs : ℤ) : String :=
  env.hexEncode (hmacSha256 env hub.hmacKey
    (asBytes (senderNodeId ++ "|" ++ tsMs.repr ++ "|" ++ env.toText info)))

def Hub.signHeartbeat (hub : Hub) (nowMs : ℤ) : NodeInfo × ℤ × String :=
  (hub.selfInfo, nowMs, hub.signPayload env hub.selfInfo.nodeId hub.selfInfo nowMs)

/-- `i64::MIN`, which stands for no earlier beat. -/
def noBeat : ℤ := -9223372036854775808

def Hub.prevTs (hub : Hub) (peer : String) : ℤ :=
  ((hub.peers.get? peer).map fun e => e.info.tsMs).getD noBeat

def Hub.identical (hub : Hub) (info : NodeInfo) : Bool :=
  ((hub.peers.get? info.nodeId).map fun e => env.toText e.info == env.toText info).getD false

def Hub.ingestPeer (hub : Hub) (key : String) (info : NodeInfo) (tsMs : ℤ) (sig : String)
    (nowMs : ℤ) (now : ℕ) : Bool × Hub :=
  if !hub.authOk env key then (false, hub)
  else if heartbeatWindowMs < |nowMs - tsMs| then (false, hub)
  else if !ctEq (asBytes (hub.signPayload env info.nodeId info tsMs)) (asBytes sig) then
    (false, hub)
  else if info.nodeId = hub.nodeId then (true, hub)
  else if tsMs < hub.prevTs info.nodeId then (false, hub)
  else if tsMs = hub.prevTs info.nodeId ∧ hub.identical env info = false then (false, hub)
  else (true, { hub with peers := hub.peers.insert info.nodeId ⟨info, now⟩ })

/-- The own info and those of the peers heard of lately; the others are
dropped. -/
def Hub.snapshot (hub : Hub) (now : ℕ) : List NodeInfo × Hub :=
  let peers := hub.peers.filter fun _ e => now - e.lastSeen < hub.staleAfter
  (hub.selfInfo :: peers.entries.map fun entry => entry.2.info, { hub with peers := peers })

end Source

/-! ## What one call does -/

section Calls

variable {env : HubEnv}

theorem foldl_or_xor_self (bytes : List UInt8) (acc : UInt8) :
    (List.zip bytes bytes).foldl (fun acc x => acc ||| (x.1 ^^^ x.2)) acc = acc := by
  induction bytes generalizing acc with
  | nil => rfl
  | cons b rest ih =>
      rw [List.zip_cons_cons, List.foldl_cons, ih]
      simp

@[simp] theorem ctEq_self (bytes : List UInt8) : ctEq bytes bytes = true := by
  simp [ctEq, foldl_or_xor_self]

structure Admitted (env : HubEnv) (hub : Hub) (key : String) (info : NodeInfo) (tsMs : ℤ)
    (sig : String) (nowMs : ℤ) : Prop where
  auth : hub.authOk env key = true
  window : |nowMs - tsMs| ≤ heartbeatWindowMs
  signed : ctEq (asBytes (hub.signPayload env info.nodeId info tsMs)) (asBytes sig) = true

def Hub.Advances (env : HubEnv) (hub : Hub) (info : NodeInfo) (tsMs : ℤ) : Prop :=
  hub.prevTs info.nodeId < tsMs ∨
    hub.prevTs info.nodeId = tsMs ∧ hub.identical env info = true

variable {hub : Hub} {key : String} {info : NodeInfo} {tsMs : ℤ} {sig : String} {nowMs : ℤ}
  {now : ℕ}

theorem ingestPeer_eq (h : Admitted env hub key info tsMs sig nowMs) :
    hub.ingestPeer env key info tsMs sig nowMs now =
      if info.nodeId = hub.nodeId then (true, hub)
      else if tsMs < hub.prevTs info.nodeId then (false, hub)
      else if tsMs = hub.prevTs info.nodeId ∧ hub.identical env info = false then (false, hub)
      else (true, { hub with peers := hub.peers.insert info.nodeId ⟨info, now⟩ }) := by
  have hwindow : ¬ heartbeatWindowMs < |nowMs - tsMs| := not_lt.mpr h.window
  unfold Hub.ingestPeer
  simp only [h.auth, hwindow, h.signed, Bool.not_true, Bool.false_eq_true, if_false]

theorem ingestPeer_of_not_admitted (h : ¬ Admitted env hub key info tsMs sig nowMs) :
    hub.ingestPeer env key info tsMs sig nowMs now = (false, hub) := by
  by_cases hauth : hub.authOk env key = true
  · by_cases hwindow : heartbeatWindowMs < |nowMs - tsMs|
    · simp [Hub.ingestPeer, hauth, hwindow]
    · have hsigned : ctEq (asBytes (hub.signPayload env info.nodeId info tsMs)) (asBytes sig)
          = false := by
        by_contra hsig
        exact h ⟨hauth, not_lt.mp hwindow, by simpa using hsig⟩
      simp [Hub.ingestPeer, hauth, hwindow, hsigned]
  · simp [Hub.ingestPeer, hauth]

theorem ingestPeer_cases :
    (hub.ingestPeer env key info tsMs sig nowMs now = (false, hub) ∧
        ¬ (Admitted env hub key info tsMs sig nowMs ∧
          (info.nodeId = hub.nodeId ∨ hub.Advances env info tsMs))) ∨
      (hub.ingestPeer env key info tsMs sig nowMs now = (true, hub) ∧
        info.nodeId = hub.nodeId) ∨
      (hub.ingestPeer env key info tsMs sig nowMs now =
          (true, { hub with peers := hub.peers.insert info.nodeId ⟨info, now⟩ }) ∧
        info.nodeId ≠ hub.nodeId ∧ Admitted env hub key info tsMs sig nowMs ∧
        hub.Advances env info tsMs) := by
  by_cases hadmitted : Admitted env hub key info tsMs sig nowMs
  · rw [ingestPeer_eq hadmitted]
    by_cases hown : info.nodeId = hub.nodeId
    · right
      left
      exact ⟨if_pos hown, hown⟩
    · rw [if_neg hown]
      by_cases hback : tsMs < hub.prevTs info.nodeId
      · left
        refine ⟨if_pos hback, fun h => ?_⟩
        rcases h.2.resolve_left hown with hlt | ⟨heq, -⟩ <;> omega
      · rw [if_neg hback]
        by_cases hother : tsMs = hub.prevTs info.nodeId ∧ hub.identical env info = false
        · left
          refine ⟨if_pos hother, fun h => ?_⟩
          rcases h.2.resolve_left hown with hlt | ⟨-, hsame⟩
          · omega
          · rw [hsame] at hother
            exact absurd hother.2 (by simp)
        · right
          right
          refine ⟨if_neg hother, hown, hadmitted, ?_⟩
          by_cases heq : hub.prevTs info.nodeId = tsMs
          · have hsame : hub.identical env info = true := by
              by_contra hdiffers
              exact hother ⟨heq.symm, by simpa using hdiffers⟩
            exact Or.inr ⟨heq, hsame⟩
          · exact Or.inl (by omega)
  · left
    exact ⟨ingestPeer_of_not_admitted hadmitted, fun h => hadmitted h.1⟩

theorem ingestPeer_of_admitted (h : Admitted env hub key info tsMs sig nowMs)
    (hpeer : info.nodeId = hub.nodeId ∨ hub.Advances env info tsMs) :
    (hub.ingestPeer env key info tsMs sig nowMs now).1 = true := by
  rcases @ingestPeer_cases env hub key info tsMs sig nowMs now with hcase | hcase | hcase
  · exact absurd ⟨h, hpeer⟩ hcase.2
  · rw [hcase.1]
  · rw [hcase.1]

theorem mem_snapshot (h : info ∈ (hub.snapshot now).1) :
    info = hub.selfInfo ∨
      ∃ p e, hub.peers.get? p = some e ∧ e.info = info ∧ now - e.lastSeen < hub.staleAfter := by
  unfold Hub.snapshot at h
  rcases List.mem_cons.mp h with hself | hpeer
  · exact Or.inl hself
  · right
    obtain ⟨entry, hentry, rfl⟩ := List.mem_map.mp hpeer
    obtain ⟨hmem, hfresh⟩ := List.mem_filter.mp hentry
    exact ⟨entry.1, entry.2, SortedMap.get?_eq_some_iff.mpr hmem, rfl,
      of_decide_eq_true hfresh⟩

theorem get?_peers_snapshot {p : String} {e : PeerEntry}
    (h : (hub.snapshot now).2.peers.get? p = some e) : hub.peers.get? p = some e :=
  (SortedMap.get?_filter_eq_some.mp h).1

end Calls

end ClusterHub

end GrServer
