import GrServer.HnswSearch

/-!
# The invariant of the HNSW graph

Ids are unique and indexed, the entry point is a highest node, and every list
of neighbours on a layer names other nodes of the layer, each once and not too
many.  Linking and trimming keep this, and so does a removal, which moves the
last node to the place that it frees and renames it in every list.
-/

namespace GrServer

namespace Hnsw

open SwapRemove

variable {E D : Type}

structure NeighborList (levels : List ℕ) (layer i : ℕ) (nbs : List ℕ) : Prop where
  inLayer : ∀ j ∈ nbs, InLayer levels layer j
  apart : i ∉ nbs
  nodup : nbs.Nodup
  few : nbs.length ≤ mForLayer layer

def Linked (levels : List ℕ) (i : ℕ) (n : Node E) : Prop :=
  ∀ layer nbs, n.neighbors[layer]? = some nbs → NeighborList levels layer i nbs

def AllLinked (levels : List ℕ) (nodes : List (Node E)) : Prop :=
  ∀ i n, nodes[i]? = some n → Linked levels i n

def EntryHighest (levels : List ℕ) : Option ℕ → Prop
  | none => levels = []
  | some e => ∃ top, levels[e]? = some top ∧ ∀ k ∈ levels, k ≤ top

structure WellFormed (g : Graph E) : Prop where
  ids : g.ids.Nodup
  byId : ∀ id i, g.byId.get? id = some i ↔ g.ids[i]? = some id
  entry : EntryHighest g.levels g.entry
  linked : AllLinked g.levels g.nodes

theorem wellFormed_new : WellFormed (Graph.new : Graph E) where
  ids := List.nodup_nil
  byId := by
    intro id i
    simp [Graph.new, Graph.ids]
  entry := rfl
  linked := nofun

section Lists

variable {S : Setting E D} {levels : List ℕ} {layer i j m : ℕ} {nbs : List ℕ} {n : Node E}

theorem neighborList_nil : NeighborList levels layer i [] :=
  ⟨nofun, nofun, List.nodup_nil, Nat.zero_le _⟩

theorem NeighborList.append (h : NeighborList levels layer i nbs) (more : List ℕ) :
    NeighborList (levels ++ more) layer i nbs where
  inLayer := fun j hj => (h.inLayer j hj).append more
  apart := h.apart
  nodup := h.nodup
  few := h.few

theorem trim_subperm (embs : List E) (emb : E) (m : ℕ) (nbs : List ℕ) :
    (trim S embs emb m nbs).Subperm nbs := by
  unfold trim
  split_ifs
  · dsimp only [selectNeighbors]
    generalize hscored : (nbs.map fun j =>
      (j, ((embs[j]?).map (S.cosineDist emb)).getD S.far)) = scored
    have hnames : scored.map Prod.fst = nbs := by
      rw [← hscored, List.map_map]
      exact List.map_id' nbs
    have hperm : ((sortByDist S scored).map Prod.fst).Perm nbs := by
      rw [← hnames]
      exact (List.mergeSort_perm scored _).map Prod.fst
    exact (((List.take_sublist m _).map Prod.fst).subperm).trans hperm.subperm
  · exact List.Subperm.refl _

theorem length_trim_le (embs : List E) (emb : E) (m : ℕ) (nbs : List ℕ) :
    (trim S embs emb m nbs).length ≤ m := by
  unfold trim
  split_ifs with hmany
  · unfold selectNeighbors
    rw [List.length_map]
    exact List.length_take_le _ _
  · exact not_lt.mp hmany

theorem neighborList_add (h : NeighborList levels layer i nbs) (hj : InLayer levels layer j)
    (hne : j ≠ i) (embs : List E) (emb : E) :
    NeighborList levels layer i (trim S embs emb (mForLayer layer)
      (if nbs.contains j then nbs else nbs ++ [j])) := by
  generalize hmore : (if nbs.contains j then nbs else nbs ++ [j]) = more
  have hin : ∀ k ∈ more, InLayer levels layer k := by
    rw [← hmore]
    intro k hk
    split_ifs at hk
    · exact h.inLayer k hk
    · rcases List.mem_append.mp hk with hk | hk
      · exact h.inLayer k hk
      · rwa [List.mem_singleton.mp hk]
  have hapart : i ∉ more := by
    rw [← hmore]
    intro hi
    split_ifs at hi
    · exact h.apart hi
    · rcases List.mem_append.mp hi with hi | hi
      · exact h.apart hi
      · exact hne (List.mem_singleton.mp hi).symm
  have hnodup : more.Nodup := by
    rw [← hmore]
    split_ifs with hmem
    · exact h.nodup
    · rw [List.contains_iff_mem] at hmem
      rw [← List.concat_eq_append]
      exact h.nodup.concat hmem
  have hsub := trim_subperm (S := S) embs emb (mForLayer layer) more
  have hkept : (trim S embs emb (mForLayer layer) more).Nodup := by
    rcases hsub with ⟨l, hperm, hl⟩
    exact hperm.nodup_iff.mp (hnodup.sublist hl)
  exact ⟨fun k hk => hin k (hsub.subset hk), fun hi => hapart (hsub.subset hi), hkept,
    length_trim_le _ _ _ _⟩

theorem Linked.append (h : Linked levels i n) (more : List ℕ) : Linked (levels ++ more) i n :=
  fun layer nbs hnbs => (h layer nbs hnbs).append more

theorem Linked.withLayer (h : Linked levels i n) (layer : ℕ) :
    Linked levels i (n.withLayer layer) := by
  intro l nbs hnbs
  unfold Node.withLayer at hnbs
  dsimp only at hnbs
  rw [List.getElem?_append] at hnbs
  split_ifs at hnbs with hlt
  · exact h l nbs hnbs
  · rw [(List.mem_replicate.mp (List.mem_of_getElem? hnbs)).2]
    exact neighborList_nil

theorem Linked.addNeighbor (h : Linked levels i n) (hj : InLayer levels layer j) (hne : j ≠ i)
    (embs : List E) : Linked levels i (n.addNeighbor S embs layer j) := by
  intro l nbs hnbs
  unfold Node.addNeighbor at hnbs
  dsimp only at hnbs
  rw [List.getElem?_modify] at hnbs
  rcases Option.map_eq_some_iff.mp hnbs with ⟨old, hold, heq⟩
  by_cases hl : layer = l
  · subst hl
    rw [if_pos rfl] at heq
    rw [← heq]
    exact neighborList_add (h layer old hold) hj hne embs n.emb
  · rw [if_neg hl] at heq
    rw [← heq]
    exact h l old hold

end Lists

/-! ## Links -/

section Links

variable {S : Setting E D} {g : Graph E} {levels : List ℕ} {layer a b : ℕ}
  {nodes : List (Node E)}

theorem map_modify_of_eq {α β : Type} {f : α → β} {change : α → α}
    (h : ∀ x, f (change x) = f x) (l : List α) (i : ℕ) : (l.modify i change).map f = l.map f := by
  apply List.ext_getElem?
  intro k
  rw [List.getElem?_map, List.getElem?_map, List.getElem?_modify]
  cases l[k]? with
  | none => rfl
  | some x =>
      by_cases hik : i = k
      · simp [hik, h]
      · simp [hik]

theorem AllLinked.modify (h : AllLinked levels nodes) {change : Node E → Node E} {i : ℕ}
    (hchange : ∀ n, Linked levels i n → Linked levels i (change n)) :
    AllLinked levels (nodes.modify i change) := by
  intro k n hn
  rw [List.getElem?_modify] at hn
  rcases Option.map_eq_some_iff.mp hn with ⟨old, hold, heq⟩
  split_ifs at heq with hik
  · subst hik
    rw [← heq]
    exact hchange old (h i old hold)
  · rw [← heq]
    exact h k old hold

theorem AllLinked.link (h : AllLinked levels nodes) (hb : InLayer levels layer b) (hne : b ≠ a)
    (embs : List E) : AllLinked levels (link S embs layer nodes a b) :=
  h.modify fun _ hn => hn.addNeighbor hb hne embs

structure SameShape (g g' : Graph E) : Prop where
  ids : g'.ids = g.ids
  levels : g'.levels = g.levels
  byId : g'.byId = g.byId
  entry : g'.entry = g.entry

theorem SameShape.refl (g : Graph E) : SameShape g g := ⟨rfl, rfl, rfl, rfl⟩

theorem SameShape.trans {g₁ g₂ g₃ : Graph E} (h : SameShape g₁ g₂) (h' : SameShape g₂ g₃) :
    SameShape g₁ g₃ :=
  ⟨h'.ids.trans h.ids, h'.levels.trans h.levels, h'.byId.trans h.byId, h'.entry.trans h.entry⟩

theorem WellFormed.of_sameShape (h : WellFormed g) {g' : Graph E} (hsame : SameShape g g')
    (hlinked : AllLinked g.levels g'.nodes) : WellFormed g' where
  ids := by
    rw [hsame.ids]
    exact h.ids
  byId := by
    rw [hsame.ids, hsame.byId]
    exact h.byId
  entry := by
    rw [hsame.levels, hsame.entry]
    exact h.entry
  linked := by
    rw [hsame.levels]
    exact hlinked

theorem sameShape_connect (g : Graph E) (a b layer : ℕ) : SameShape g (connect S g a b layer) := by
  unfold connect
  split_ifs
  · exact SameShape.refl g
  · have hall : ∀ {β : Type} (f : Node E → β), (∀ n : Node E, f (n.withLayer layer) = f n) →
        (∀ (embs : List E) (dst : ℕ) (n : Node E), f (n.addNeighbor S embs layer dst) = f n) →
        (link S (g.nodes.map Node.emb) layer (link S (g.nodes.map Node.emb) layer
          ((g.nodes.modify a (Node.withLayer layer)).modify b (Node.withLayer layer)) a b) b a).map
            f = g.nodes.map f := by
      intro β f hwith hadd
      unfold link
      rw [map_modify_of_eq (hadd _ _), map_modify_of_eq (hadd _ _), map_modify_of_eq hwith,
        map_modify_of_eq hwith]
    exact ⟨hall Node.id (fun _ => rfl) (fun _ _ _ => rfl),
      hall Node.level (fun _ => rfl) (fun _ _ _ => rfl), rfl, rfl⟩

theorem linked_connect (h : AllLinked levels g.nodes) (ha : InLayer levels layer a)
    (hb : InLayer levels layer b) : AllLinked levels (connect S g a b layer).nodes := by
  unfold connect
  split_ifs with hskip
  · exact h
  · have hne : a ≠ b := fun heq => hskip (Or.inl heq)
    have hpadded : AllLinked levels
        ((g.nodes.modify a (Node.withLayer layer)).modify b (Node.withLayer layer)) :=
      (h.modify fun _ hn => hn.withLayer layer).modify fun _ hn => hn.withLayer layer
    exact (hpadded.link hb hne.symm _).link ha hne _

theorem connectAll_spec {idx : ℕ} {lists : List (List ℕ)} (h : AllLinked levels g.nodes)
    (hlists : ∀ layer nbs, lists[layer]? = some nbs →
      InLayer levels layer idx ∧ ∀ nb ∈ nbs, InLayer levels layer nb) :
    SameShape g (connectAll S g idx lists) ∧
      AllLinked levels (connectAll S g idx lists).nodes := by
  have hlayer : ∀ (layer : ℕ) (nbs : List ℕ) (g : Graph E), AllLinked levels g.nodes →
      InLayer levels layer idx → (∀ nb ∈ nbs, InLayer levels layer nb) →
      SameShape g (nbs.foldl (fun g nb => connect S g idx nb layer) g) ∧
        AllLinked levels (nbs.foldl (fun g nb => connect S g idx nb layer) g).nodes := by
    intro layer nbs
    induction nbs with
    | nil => exact fun g h _ _ => ⟨SameShape.refl g, h⟩
    | cons nb nbs ih =>
        intro g h hidx hnbs
        have hstep := linked_connect (S := S) h hidx (hnbs nb List.mem_cons_self)
        have hrest := ih _ hstep hidx fun k hk => hnbs k (List.mem_cons_of_mem nb hk)
        exact ⟨(sameShape_connect g idx nb layer).trans hrest.1, hrest.2⟩
  have hmem : ∀ p ∈ lists.zipIdx, InLayer levels p.2 idx ∧ ∀ nb ∈ p.1, InLayer levels p.2 nb :=
    fun p hp => hlists p.2 p.1 (List.mem_zipIdx_iff_getElem?.mp hp)
  unfold connectAll
  generalize lists.zipIdx = pairs at hmem
  induction pairs generalizing g with
  | nil => exact ⟨SameShape.refl g, h⟩
  | cons p pairs ih =>
      have hp := hmem p List.mem_cons_self
      have hstep := hlayer p.2 p.1 g h hp.1 hp.2
      have hrest := ih hstep.2 fun q hq => hmem q (List.mem_cons_of_mem p hq)
      exact ⟨hstep.1.trans hrest.1, hrest.2⟩

end Links

end Hnsw

end GrServer
