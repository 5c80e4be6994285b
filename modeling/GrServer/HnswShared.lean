import GrServer.HnswEviction
import GrServer.HnswFile

/-!
# The HNSW graph across its shared file

A graph that was built by inserts comes back from its file as it was.  Of a
document that another process wrote, a reader takes levels, lists and the entry
point as they stand, and a record that it leaves out shifts every position
behind: which documents still give a graph with its invariant, and with the
neighbours that the records name.
-/

namespace GrServer

namespace Hnsw

open Json Faults SharedGovernance SwapRemove

variable {F D : Type} (N : F32 F)

def ByIdentity (v : Json) (g : Graph (Emb F)) : Prop :=
  ∀ (i : ℕ) (r : Json) (n : Node (Emb F)), (kept N v)[i]? = some r → g.nodes[i]? = some n →
    ∀ nbs ∈ n.neighbors, ∀ j ∈ nbs,
      ∃ m : Node (Emb F), g.nodes[j]? = some m ∧ m.id ∈ listedIds v r

def Faithful (v : Json) : Prop :=
  ∃ g, loadGraph N Graph.new v = .ok g ∧ WellFormed g ∧ ByIdentity N v g

/-- A document whose kept records have lists of their own positions. -/
structure Valid (v : Json) : Prop where
  fits : ∀ r ∈ kept N v, Fits r
  ids : ((kept N v).map recordId).Nodup
  entry : ∀ e r, docEntry v = some e → (kept N v)[e]? = some r →
    ∀ s ∈ kept N v, recordLevel s ≤ recordLevel r
  lists : ∀ i r, (kept N v)[i]? = some r → ∀ layer nbs, (listed r)[layer]? = some nbs →
    NeighborList ((kept N v).map recordLevel) layer i nbs
  /-- The record at a listed position, now that some are left out. -/
  names : ∀ r ∈ kept N v, ∀ nbs ∈ listed r, ∀ j ∈ nbs, ∀ s, (kept N v)[j]? = some s →
    recordId s ∈ listedIds v r

section Documents

variable {N} {g : Graph (Emb F)} {v : Json}

theorem entryHighest_iff (rs : List Json) (doc : Option ℕ) :
    EntryHighest (rs.map recordLevel) ((doc.filter fun e => decide (e < rs.length)).or
        (highest (rs.map recordLevel))) ↔
      ∀ e r, doc = some e → rs[e]? = some r → ∀ s ∈ rs, recordLevel s ≤ recordLevel r := by
  cases doc with
  | none =>
      refine iff_of_true (entryHighest_highest _) ?_
      intro e r hnone
      cases hnone
  | some e =>
      by_cases hlt : e < rs.length
      · rw [Option.filter_some_pos (by simpa using hlt)]
        have hr := List.getElem?_eq_getElem hlt
        constructor
        · rintro ⟨top, htop, hall⟩ e' r he hr' s hs
          cases he
          rw [List.getElem?_map, hr'] at htop
          cases htop
          exact hall _ (List.mem_map_of_mem hs)
        · intro hall
          refine ⟨recordLevel rs[e], by rw [List.getElem?_map, hr]; rfl, ?_⟩
          intro k hk
          rcases List.mem_map.mp hk with ⟨s, hs, rfl⟩
          exact hall e _ rfl hr s hs
      · rw [Option.filter_some_neg (by simpa using hlt)]
        refine iff_of_true (entryHighest_highest _) ?_
        intro e' r he hr
        cases he
        exact absurd (List.getElem?_eq_some_iff.mp hr).1 hlt

theorem Loaded.linked_iff {rs : List Json} (h : Loaded N rs g) :
    AllLinked g.levels g.nodes ↔
      ∀ i r, rs[i]? = some r → ∀ layer nbs, (listed r)[layer]? = some nbs →
        NeighborList (rs.map recordLevel) layer i nbs := by
  rw [h.levels]
  constructor
  · intro hlinked i r hr layer nbs hnbs
    rcases h.node hr with ⟨n, hn, hrn⟩
    rcases hrn.lists with ⟨more, hlists⟩
    apply hlinked i n hn layer nbs
    rw [hlists, List.getElem?_append_left (List.getElem?_eq_some_iff.mp hnbs).1]
    exact hnbs
  · intro hrecords i n hn layer nbs hnbs
    rcases h.record hn with ⟨r, hr, hrn⟩
    rcases hrn.lists with ⟨more, hlists⟩
    rw [hlists, List.getElem?_append] at hnbs
    split_ifs at hnbs with hlt
    · exact hrecords i r hr layer nbs hnbs
    · rw [(List.mem_replicate.mp (List.mem_of_getElem? hnbs)).2]
      exact neighborList_nil

theorem Loaded.byIdentity_iff (h : Loaded N (kept N v) g) (hwf : WellFormed g) :
    ByIdentity N v g ↔ ∀ r ∈ kept N v, ∀ nbs ∈ listed r, ∀ j ∈ nbs, ∀ s, (kept N v)[j]? = some s →
      recordId s ∈ listedIds v r := by
  constructor
  · intro hnodes r hr nbs hnbs j hj s hs
    rcases List.mem_iff_getElem?.mp hr with ⟨i, hi⟩
    rcases h.node hi with ⟨n, hn, hrn⟩
    rcases hrn.lists with ⟨more, hlists⟩
    have hmem : nbs ∈ n.neighbors := by
      rw [hlists]
      exact List.mem_append_left _ hnbs
    rcases hnodes i r n hi hn nbs hmem j hj with ⟨m, hm, hid⟩
    rcases h.record hm with ⟨s', hs', hms⟩
    rw [hs] at hs'
    cases hs'
    rw [← hms.id]
    exact hid
  · intro hrecords i r n hi hn nbs hnbs j hj
    rcases h.record hn with ⟨r', hi', hrn⟩
    rw [hi] at hi'
    cases hi'
    rcases hrn.lists with ⟨more, hlists⟩
    rcases List.mem_iff_getElem?.mp hnbs with ⟨layer, hlayer⟩
    have hlt := ((hwf.linked i n hn layer nbs hlayer).inLayer j hj).lt
    rw [length_levels] at hlt
    have hm := List.getElem?_eq_getElem hlt
    rcases h.record hm with ⟨s, hs, hms⟩
    refine ⟨_, hm, ?_⟩
    rw [hms.id]
    rw [hlists] at hnbs
    rcases List.mem_append.mp hnbs with hnbs | hadded
    · exact hrecords r (List.mem_of_getElem? hi) nbs hnbs j hj s hs
    · rw [(List.mem_replicate.mp hadded).2] at hj
      cases hj

theorem Loaded.wellFormed_iff (h : Loaded N (kept N v) g)
    (hentry : g.entry = ((docEntry v).filter fun e => decide (e < g.nodes.length)).or
      (highest g.levels)) :
    WellFormed g ↔ ((kept N v).map recordId).Nodup ∧
      (∀ e r, docEntry v = some e → (kept N v)[e]? = some r →
        ∀ s ∈ kept N v, recordLevel s ≤ recordLevel r) ∧
      ∀ i r, (kept N v)[i]? = some r → ∀ layer nbs, (listed r)[layer]? = some nbs →
        NeighborList ((kept N v).map recordLevel) layer i nbs := by
  have hhighest : EntryHighest g.levels g.entry ↔ ∀ e r, docEntry v = some e →
      (kept N v)[e]? = some r → ∀ s ∈ kept N v, recordLevel s ≤ recordLevel r := by
    rw [hentry, h.levels, ← h.nodes.length_eq]
    exact entryHighest_iff (kept N v) (docEntry v)
  rw [← h.linked_iff, ← hhighest, ← h.ids]
  constructor
  · intro hwf
    exact ⟨hwf.ids, hwf.entry, hwf.linked⟩
  · rintro ⟨hids, htop, hlinked⟩
    refine ⟨hids, ?_, htop, hlinked⟩
    rw [h.byId]
    exact get?_indexed hids

theorem faithful_iff (v : Json) : Faithful N v ↔ Valid N v := by
  unfold Faithful
  rcases loadGraph_spec (N := N) Graph.new v with ⟨hfits, g, hread, hloaded, hentry⟩ | ⟨hbad, e, he⟩
  · have hwf := hloaded.wellFormed_iff hentry
    constructor
    · rintro ⟨g', hread', hgood, hnames⟩
      rw [hread] at hread'
      cases hread'
      rcases hwf.mp hgood with ⟨hids, htop, hlists⟩
      exact ⟨hfits, hids, htop, hlists, (hloaded.byIdentity_iff hgood).mp hnames⟩
    · intro hvalid
      have hgood := hwf.mpr ⟨hvalid.ids, hvalid.entry, hvalid.lists⟩
      exact ⟨g, hread, hgood, (hloaded.byIdentity_iff hgood).mpr hvalid.names⟩
  · constructor
    · rintro ⟨g, hread, -⟩
      rw [he] at hread
      cases hread
    · intro hvalid
      exact absurd hvalid.fits hbad

end Documents

/-! ## Graphs that were built by inserts -/

def maxLevel : ℕ := 12

def Setting.capped (S : Setting (Emb F) D) : Setting (Emb F) D :=
  { S with assignLevel := fun deviceId => min (S.assignLevel deviceId) maxLevel }

/-- What a process can have in memory, when every file is one that was written. -/
inductive Reachable (S : Setting (Emb F) D) : Graph (Emb F) → Prop
  | new : Reachable S Graph.new
  | insert {g : Graph (Emb F)} (h : Reachable S g) {deviceId : String} (hid : deviceId ≠ "")
      (emb : Emb F) (lsh : String) (persist : Bool) :
      Reachable S (hnswInsertGraph S.capped g deviceId emb lsh persist)
  | load {g g' : Graph (Emb F)} (h : Reachable S g) {v : Json}
      (hload : loadGraph N Graph.new (persistGraph N g v) = .ok g') : Reachable S g'

/-- A file gives back the nodes, their neighbours and the entry point. -/
def RoundTrip (S : Setting (Emb F) D) : Prop :=
  ∀ g, Reachable N S g → ∀ v, ∃ g', loadGraph N Graph.new (persistGraph N g v) = .ok g' ∧
    g'.nodes = g.nodes ∧ g'.entry = g.entry

def Node.Layered (n : Node (Emb F)) : Prop := n.level ≤ maxLevel ∧ n.neighbors ≠ []

structure Persistable (g : Graph (Emb F)) : Prop where
  wellFormed : WellFormed g
  named : "" ∉ g.ids
  few : g.ids.length ≤ maxNodes
  layered : ∀ n ∈ g.nodes, n.Layered

section Inserts

variable {N} {S : Setting (Emb F) D} {g : Graph (Emb F)} {nodes : List (Node (Emb F))}

theorem layered_modify (h : ∀ n ∈ nodes, n.Layered) {change : Node (Emb F) → Node (Emb F)}
    (hchange : ∀ n, n.Layered → (change n).Layered) (i : ℕ) :
    ∀ n ∈ nodes.modify i change, n.Layered := by
  intro n hn
  rcases List.mem_iff_getElem?.mp hn with ⟨k, hk⟩
  rw [List.getElem?_modify] at hk
  rcases Option.map_eq_some_iff.mp hk with ⟨old, hold, rfl⟩
  have hlayered := h old (List.mem_of_getElem? hold)
  split_ifs
  · exact hchange old hlayered
  · exact hlayered

theorem Node.Layered.withLayer {n : Node (Emb F)} (h : n.Layered) (layer : ℕ) :
    (n.withLayer layer).Layered :=
  ⟨h.1, List.append_ne_nil_of_left_ne_nil h.2 _⟩

theorem Node.Layered.addNeighbor {n : Node (Emb F)} (h : n.Layered) (embs : List (Emb F))
    (layer dst : ℕ) : (n.addNeighbor S embs layer dst).Layered := by
  refine ⟨h.1, ?_⟩
  unfold Node.addNeighbor
  apply List.ne_nil_of_length_pos
  dsimp only
  rw [List.length_modify]
  exact List.length_pos_of_ne_nil h.2

theorem layered_connect (h : ∀ n ∈ g.nodes, n.Layered) (a b layer : ℕ) :
    ∀ n ∈ (connect S g a b layer).nodes, n.Layered := by
  unfold connect
  split_ifs
  · exact h
  · have hwith := layered_modify h (fun n hn => hn.withLayer layer) a
    have hboth := layered_modify hwith (fun n hn => hn.withLayer layer) b
    have hfirst := layered_modify hboth
      (fun n hn => hn.addNeighbor (S := S) (g.nodes.map Node.emb) layer b) a
    exact layered_modify hfirst (fun n hn => hn.addNeighbor (g.nodes.map Node.emb) layer a) b

theorem layered_connectAll (h : ∀ n ∈ g.nodes, n.Layered) (idx : ℕ) (lists : List (List ℕ)) :
    ∀ n ∈ (connectAll S g idx lists).nodes, n.Layered := by
  have hlayer : ∀ (nbs : List ℕ) (layer : ℕ) (g : Graph (Emb F)), (∀ n ∈ g.nodes, n.Layered) →
      ∀ n ∈ (nbs.foldl (fun g nb => connect S g idx nb layer) g).nodes, n.Layered := by
    intro nbs layer
    induction nbs with
    | nil => exact fun g h => h
    | cons nb nbs ih => exact fun g h => ih _ (layered_connect h idx nb layer)
  unfold connectAll
  generalize lists.zipIdx = pairs
  induction pairs generalizing g with
  | nil => exact h
  | cons p pairs ih => exact ih (hlayer p.1 p.2 g h)

theorem layered_makeRoom (h : ∀ n ∈ g.nodes, n.Layered) : ∀ n ∈ (makeRoom g).nodes, n.Layered := by
  unfold makeRoom
  split_ifs with hfull
  · have hpos : 0 < g.nodes.length := lt_of_lt_of_le (by decide) hfull
    intro n hn
    rw [nodes_removeIdx hpos] at hn
    rcases List.mem_map.mp hn with ⟨old, hold, rfl⟩
    have hperm := swapRemove_perm (List.getElem?_eq_getElem hpos)
    have hlayered := h old (hperm.mem_iff.mpr (List.mem_cons_of_mem _ hold))
    exact ⟨hlayered.1, fun hnil => hlayered.2 (List.map_eq_nil_iff.mp hnil)⟩
  · exact h

theorem layered_addNode (h : ∀ n ∈ g.nodes, n.Layered) (deviceId : String) (emb : Emb F)
    (lsh : String) : ∀ n ∈ (addNode S.capped g deviceId emb lsh).nodes, n.Layered := by
  have hlevel : S.capped.assignLevel deviceId ≤ maxLevel := min_le_right _ _
  unfold addNode
  dsimp only
  split_ifs with hempty
  · intro n hn
    rw [List.mem_singleton.mp hn]
    exact ⟨hlevel, List.ne_nil_of_length_pos (by simp)⟩
  all_goals
    apply layered_connectAll
    intro n hn
    rcases List.mem_append.mp hn with hn | hn
    · exact h n hn
    · rw [List.mem_singleton.mp hn]
      refine ⟨hlevel, List.ne_nil_of_length_pos ?_⟩
      dsimp only
      rw [(chooseNeighbors_spec _ _ _ _).1]
      exact Nat.succ_pos _

theorem length_roomIn {ids : List String} (h : ids.length ≤ maxNodes) :
    (roomIn ids).length + 1 ≤ maxNodes := by
  have hpos : 0 < maxNodes := by decide
  unfold roomIn
  split_ifs with hfull
  · rw [length_swapRemove]
    omega
  · omega

theorem persistable_insert (h : Persistable g) {deviceId : String} (hid : deviceId ≠ "")
    (emb : Emb F) (lsh : String) (persist : Bool) :
    Persistable (hnswInsertGraph S.capped g deviceId emb lsh persist) := by
  rcases insert_spec (S := S.capped) h.wellFormed deviceId emb lsh persist with ⟨hwf, hids⟩
  refine ⟨hwf, ?_, ?_, ?_⟩
  · rw [hids]
    unfold idsAfter
    split_ifs
    · exact h.named
    · intro hmem
      rcases List.mem_append.mp hmem with hmem | hmem
      · exact h.named (roomIn_subset g.ids hmem)
      · exact hid (List.mem_singleton.mp hmem).symm
  · rw [hids]
    unfold idsAfter
    split_ifs
    · exact h.few
    · rw [List.length_append, List.length_singleton]
      exact length_roomIn h.few
  · unfold hnswInsertGraph
    split
    · rw [nodes_settled]
      unfold updateNode
      refine layered_modify h.layered ?_ _
      intro n hn
      exact hn
    · rw [nodes_settled]
      exact layered_addNode (layered_makeRoom h.layered) deviceId emb lsh

end Inserts

/-! ## Reading what was written -/

section Written

variable {N} {g : Graph (Emb F)} {n : Node (Emb F)}

theorem persistGraph_members (g : Graph (Emb F)) (v : Json) :
    (persistGraph N g v).get? "nodes" = some (.arr (g.nodes.map (nodeJson N))) ∧
      (persistGraph N g v).get? "entry" = some (entryJson g.entry) := by
  have hobject : ∃ members, asObjectOrEmpty v = .obj members := by
    cases v with
    | obj members => exact ⟨members, rfl⟩
    | _ => exact ⟨[], rfl⟩
  rcases hobject with ⟨members, hmembers⟩
  unfold persistGraph
  rw [hmembers]
  simp only [setMember, get?_obj, Assoc.find?_insert]
  simp

theorem docNodes_persistGraph (g : Graph (Emb F)) (v : Json) :
    docNodes (persistGraph N g v) = g.nodes.map (nodeJson N) := by
  unfold docNodes
  rw [(persistGraph_members g v).1]
  rfl

theorem asU64_ofNat {j : ℕ} (hj : j < 2 ^ 64) : asU64 (ofInt j) = some j := by
  rw [asU64_ofInt (by omega), Int.toNat_natCast]

theorem docEntry_persistGraph (hentry : ∀ e, g.entry = some e → e < 2 ^ 64) (v : Json) :
    docEntry (persistGraph N g v) = g.entry := by
  unfold docEntry
  rw [(persistGraph_members g v).2, Option.bind_some]
  cases hsome : g.entry with
  | none => rfl
  | some e => exact asU64_ofNat (hentry e hsome)

theorem positions_positionsJson {nbs : List ℕ} (h : ∀ j ∈ nbs, j < 2 ^ 64) :
    ((positionsJson nbs).asArray.map positions).getD [] = nbs := by
  unfold positionsJson positions
  dsimp only [asArray, Option.map_some, Option.getD_some]
  rw [List.filterMap_map]
  have hread : ∀ j ∈ nbs, (asU64 ∘ fun (j : ℕ) => ofInt j) j = some j := by
    intro j hj
    rw [Function.comp_apply]
    exact asU64_ofNat (h j hj)
  rw [List.filterMap_congr hread, List.filterMap_some]

theorem layersOf_positionsJson {lists : List (List ℕ)}
    (h : ∀ nbs ∈ lists, ∀ j ∈ nbs, j < 2 ^ 64) : layersOf (lists.map positionsJson) = lists := by
  unfold layersOf
  rw [List.map_map]
  have hread : ∀ nbs ∈ lists,
      ((fun layer => (layer.asArray.map positions).getD []) ∘ positionsJson) nbs = id nbs :=
    fun nbs hnbs => positions_positionsJson (h nbs hnbs)
  rw [List.map_congr_left hread, List.map_id]

theorem recordEmb_nodeJson (n : Node (Emb F)) : recordEmb N (nodeJson N n) = List.ofFn n.emb := by
  show ((List.ofFn n.emb).map fun x => Json.num (.float (N.toF64 x))).filterMap
    (fun x => x.asF64.map N.ofF64) = _
  rw [List.filterMap_map]
  have hread : ((fun x : Json => x.asF64.map N.ofF64) ∘ fun x => .num (.float (N.toF64 x))) =
      some := by
    funext x
    exact congrArg some (N.exact x)
  rw [hread, List.filterMap_some]

theorem represents_nodeJson (hn : n.Layered) (h : ∀ nbs ∈ n.neighbors, ∀ j ∈ nbs, j < 2 ^ 64) :
    Represents N (nodeJson N n) n where
  id := rfl
  emb := (recordEmb_nodeJson n).symm
  lsh := rfl
  level := by
    have hlt : n.level < 2 ^ 64 := lt_of_le_of_lt hn.1 (by decide)
    have hmember : (nodeJson N n).get? "level" = some (ofInt n.level) := rfl
    unfold recordLevel
    rw [hmember, Option.bind_some, asU64_ofNat hlt, Option.getD_some]
  neighbors := by
    have hlayered : isLayered (n.neighbors.map positionsJson) = true := by
      cases hlists : n.neighbors with
      | nil => exact absurd hlists hn.2
      | cons nbs lists => rfl
    have hmember : (nodeJson N n).get? "neighbors" =
        some (.arr (n.neighbors.map positionsJson)) := rfl
    unfold recordNeighbors
    rw [hmember]
    exact (if_pos hlayered).trans (congrArg Except.ok (layersOf_positionsJson h))

theorem keeps_nodeJson (hid : n.id ≠ "") : Keeps N (nodeJson N n) := by
  refine ⟨hid, ?_⟩
  rw [recordEmb_nodeJson, List.length_ofFn]

theorem Persistable.position_lt (h : Persistable g) (hn : n ∈ g.nodes) {nbs : List ℕ}
    (hnbs : nbs ∈ n.neighbors) {j : ℕ} (hj : j ∈ nbs) : j < 2 ^ 64 := by
  rcases List.mem_iff_getElem?.mp hn with ⟨i, hi⟩
  rcases List.mem_iff_getElem?.mp hnbs with ⟨layer, hlayer⟩
  have hlt := ((h.wellFormed.linked i n hi layer nbs hlayer).inLayer j hj).lt
  have hlength : g.levels.length = g.ids.length := by
    unfold Graph.levels Graph.ids
    rw [List.length_map, List.length_map]
  have hfew := h.few
  unfold maxNodes at hfew
  omega

theorem Persistable.represents (h : Persistable g) (hn : n ∈ g.nodes) :
    Represents N (nodeJson N n) n :=
  represents_nodeJson (h.layered n hn) fun _ hnbs _ hj => h.position_lt hn hnbs hj

theorem Persistable.kept_eq (h : Persistable g) (v : Json) :
    kept N (persistGraph N g v) = g.nodes.map (nodeJson N) := by
  unfold kept
  rw [docNodes_persistGraph, List.filter_eq_self]
  intro r hr
  rcases List.mem_map.mp hr with ⟨n, hn, rfl⟩
  apply decide_eq_true
  apply keeps_nodeJson
  intro hid
  apply h.named
  rw [← hid]
  exact List.mem_map_of_mem hn

theorem Persistable.entry_lt (h : Persistable g) {e : ℕ} (he : g.entry = some e) :
    e < g.nodes.length := by
  have hentry := h.wellFormed.entry
  rw [he] at hentry
  rcases hentry with ⟨top, htop, -⟩
  rw [← length_levels g]
  exact (List.getElem?_eq_some_iff.mp htop).1

theorem Persistable.docEntry_eq (h : Persistable g) (v : Json) :
    docEntry (persistGraph N g v) = g.entry := by
  apply docEntry_persistGraph
  intro e he
  have hlt := h.entry_lt he
  have hlength : g.ids.length = g.nodes.length := List.length_map ..
  have hfew := h.few
  unfold maxNodes at hfew
  omega

theorem Persistable.restored (h : Persistable g) (v : Json) :
    ∃ g', loadGraph N Graph.new (persistGraph N g v) = .ok g' ∧ g'.nodes = g.nodes ∧
      g'.entry = g.entry ∧ g'.byId = indexed g'.ids := by
  have hfits : ∀ r ∈ kept N (persistGraph N g v), Fits r := by
    intro r hr
    rw [h.kept_eq] at hr
    rcases List.mem_map.mp hr with ⟨n, hn, rfl⟩
    exact fits_of_recordNeighbors (h.represents hn : Represents N (nodeJson N n) n).neighbors
  rcases loadGraph_spec (N := N) Graph.new (persistGraph N g v) with
    ⟨-, g', hread, hloaded, hentry⟩ | ⟨hbad, -⟩
  · have hown : List.Forall₂ (Represents N) (g.nodes.map (nodeJson N)) g.nodes := by
      rw [List.forall₂_map_left_iff, List.forall₂_same]
      intro n hn
      exact h.represents hn
    have hnodes : g'.nodes = g.nodes := by
      have hread' := hloaded.nodes
      rw [h.kept_eq] at hread'
      exact List.right_unique_forall₂' (fun _ _ _ hn hn' => hn.unique hn') hread' hown
    refine ⟨g', hread, hnodes, ?_, hloaded.byId⟩
    rw [hentry, h.docEntry_eq, hnodes]
    cases hsome : g.entry with
    | none =>
        have hempty := h.wellFormed.entry
        rw [hsome] at hempty
        have hlevels : g'.levels = [] := by
          unfold Graph.levels
          rw [hnodes]
          exact hempty
        rw [hlevels]
        rfl
    | some e =>
        rw [Option.filter_some_pos (by simpa using h.entry_lt hsome)]
        rfl
  · exact absurd hfits hbad

theorem Persistable.copy (h : Persistable g) {g' : Graph (Emb F)} (hnodes : g'.nodes = g.nodes)
    (hentry : g'.entry = g.entry) (hbyId : g'.byId = indexed g'.ids) : Persistable g' := by
  have hids : g'.ids = g.ids := by
    unfold Graph.ids
    rw [hnodes]
  have hlevels : g'.levels = g.levels := by
    unfold Graph.levels
    rw [hnodes]
  refine ⟨⟨?_, ?_, ?_, ?_⟩, ?_, ?_, ?_⟩
  · rw [hids]
    exact h.wellFormed.ids
  · rw [hbyId, hids]
    exact get?_indexed h.wellFormed.ids
  · rw [hlevels, hentry]
    exact h.wellFormed.entry
  · rw [hlevels, hnodes]
    exact h.wellFormed.linked
  · rw [hids]
    exact h.named
  · rw [hids]
    exact h.few
  · rw [hnodes]
    exact h.layered

theorem persistable_of_reachable {S : Setting (Emb F) D} (h : Reachable N S g) :
    Persistable g := by
  induction h with
  | new =>
      refine ⟨wellFormed_new, List.not_mem_nil, Nat.zero_le _, ?_⟩
      intro n hn
      cases hn
  | insert h hid emb lsh persist ih => exact persistable_insert ih hid emb lsh persist
  | load h hload ih =>
      rcases ih.restored (N := N) _ with ⟨g'', hread, hnodes, hentry, hbyId⟩
      rw [hload] at hread
      cases hread
      exact ih.copy hnodes hentry hbyId

theorem roundTrip (S : Setting (Emb F) D) : RoundTrip N S := by
  intro g hg v
  rcases (persistable_of_reachable hg).restored (N := N) v with ⟨g', hread, hnodes, hentry, -⟩
  exact ⟨g', hread, hnodes, hentry⟩

end Written

/-- Which documents are read as they were meant; what was written always is. -/
theorem sharedFile_iff (S : Setting (Emb F) D) :
    (∀ v, Faithful N v ↔ Valid N v) ∧ RoundTrip N S :=
  ⟨faithful_iff, roundTrip S⟩

def rationalNumbers : F32 ℚ := ⟨id, id, fun _ => rfl⟩

def bottomRecord (id : String) (x : Json) (nbs : List ℕ) : Json :=
  .obj [("emb", .arr (List.replicate embDim x)), ("id", .str id), ("level", ofInt 0),
    ("neighbors", .arr [positionsJson nbs])]

/-- The first embedding is not of numbers; `serde_json` writes `null` for a NaN. -/
def shiftedDoc : Json :=
  .obj [("nodes", .arr [bottomRecord "n" .null [1], bottomRecord "a" (ofInt 1) [2],
    bottomRecord "b" (ofInt 1) [1], bottomRecord "c" (ofInt 1) []])]

/-- `a` was a neighbour of `b` and is one of `c` now. -/
theorem shiftedDoc_not_faithful : ¬Faithful rationalNumbers shiftedDoc := by
  intro hfaithful
  have hvalid := (faithful_iff shiftedDoc).mp hfaithful
  have hkept : kept rationalNumbers shiftedDoc = [bottomRecord "a" (ofInt 1) [2],
      bottomRecord "b" (ofInt 1) [1], bottomRecord "c" (ofInt 1) []] := by decide
  have hlisted : listed (bottomRecord "a" (ofInt 1) [2]) = [[2]] := by decide
  have hids : listedIds shiftedDoc (bottomRecord "a" (ofInt 1) [2]) = ["b"] := by decide
  have hnames := hvalid.names
  rw [hkept] at hnames
  have hname := hnames (bottomRecord "a" (ofInt 1) [2]) List.mem_cons_self [2]
    (by rw [hlisted]; exact List.mem_cons_self) 2 List.mem_cons_self _ rfl
  rw [hids] at hname
  exact absurd hname (by decide)

end Hnsw

end GrServer
