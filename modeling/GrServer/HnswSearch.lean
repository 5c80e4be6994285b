import GrServer.HnswGraph

/-!
# What a search of the HNSW graph gives

A search of a layer gives nodes of that layer, each once and nearest first, and
it comes to an end with one round for each node.  The answer to a query names
nodes of the graph, each once, in the order of the distances it gives.
-/

namespace GrServer

namespace Hnsw

variable {E D : Type}

def InLayer (levels : List ℕ) (layer j : ℕ) : Prop := ∃ k, levels[j]? = some k ∧ layer ≤ k

section Layer

variable {levels : List ℕ} {layer j : ℕ}

theorem InLayer.lt (h : InLayer levels layer j) : j < levels.length := by
  rcases h with ⟨k, hk, -⟩
  exact (List.getElem?_eq_some_iff.mp hk).1

theorem InLayer.append (h : InLayer levels layer j) (more : List ℕ) :
    InLayer (levels ++ more) layer j := by
  have hlt := h.lt
  rcases h with ⟨k, hk, hle⟩
  exact ⟨k, by rw [List.getElem?_append_left hlt, hk], hle⟩

theorem inLayer_of_node {g : Graph E} {n : Node E} (hn : g.nodes[j]? = some n)
    (hle : layer ≤ n.level) : InLayer g.levels layer j := by
  refine ⟨n.level, ?_, hle⟩
  unfold Graph.levels
  rw [List.getElem?_map, hn]
  rfl

theorem length_levels (g : Graph E) : g.levels.length = g.nodes.length := List.length_map ..

end Layer

section Frontiers

variable {S : Setting E D} {g : Graph E} {query : E} {ef layer i : ℕ} {f : Frontier S} {n : Node E}

/-- What a search keeps: it sees every node at most once, and what is in its
heaps is on the layer. -/
structure Sound (g : Graph E) (layer : ℕ) (f : Frontier S) : Prop where
  seen : ∀ i ∈ f.visited, i < g.nodes.length
  once : f.visited.Nodup
  candidates : ∀ c ∈ S.candidates.items f.candidates, InLayer g.levels layer c.2
  results : ∀ c ∈ S.results.items f.w, InLayer g.levels layer c.1 ∧ c.1 ∈ f.visited
  distinct : ((S.results.items f.w).map Prod.fst).Nodup

theorem sound_empty : Sound g layer (Frontier.empty S) where
  seen := nofun
  once := List.nodup_nil
  candidates := by
    rw [Frontier.empty, S.candidates.items_empty]
    exact nofun
  results := by
    rw [Frontier.empty, S.results.items_empty]
    exact nofun
  distinct := by
    rw [Frontier.empty, S.results.items_empty]
    exact List.nodup_nil

theorem Sound.mark (h : Sound g layer f) (hn : g.nodes[i]? = some n) (hnew : i ∉ f.visited) :
    Sound g layer { f with visited := i :: f.visited } where
  seen := by
    intro j hj
    rcases List.mem_cons.mp hj with rfl | hj
    · exact (List.getElem?_eq_some_iff.mp hn).1
    · exact h.seen j hj
  once := List.nodup_cons.mpr ⟨hnew, h.once⟩
  candidates := h.candidates
  results := fun c hc => ⟨(h.results c hc).1, List.mem_cons_of_mem i (h.results c hc).2⟩
  distinct := h.distinct

theorem Sound.take (h : Sound g layer f) (hn : g.nodes[i]? = some n) (hnew : i ∉ f.visited)
    (hle : layer ≤ n.level) (d : D) : Sound g layer (f.take S d i) := by
  have hmark := h.mark hn hnew
  have hin := inLayer_of_node hn hle
  refine ⟨hmark.seen, hmark.once, ?_, ?_, ?_⟩
  · intro c hc
    rcases PriorityQueue.mem_push.mp hc with rfl | hc
    · exact hin
    · exact h.candidates c hc
  · intro c hc
    rcases PriorityQueue.mem_push.mp hc with rfl | hc
    · exact ⟨hin, List.mem_cons_self⟩
    · exact hmark.results c hc
  · have hperm := (S.results.items_push (i, d) f.w).map Prod.fst
    refine hperm.nodup_iff.mpr (List.nodup_cons.mpr ⟨?_, h.distinct⟩)
    intro hmem
    rcases List.mem_map.mp hmem with ⟨c, hc, hci⟩
    have hold := (h.results c hc).2
    rw [hci] at hold
    exact hnew hold

theorem Sound.dropWorst (h : Sound g layer f) :
    Sound g layer { f with w := S.results.dropTop f.w } where
  seen := h.seen
  once := h.once
  candidates := h.candidates
  results := fun c hc => h.results c ((PriorityQueue.dropTop_subperm f.w).subset hc)
  distinct := by
    have hsub := PriorityQueue.dropTop_subperm (H := S.results) f.w
    rcases hsub with ⟨l, hperm, hsub⟩
    exact (hperm.map Prod.fst).nodup_iff.mp (h.distinct.sublist (hsub.map Prod.fst))

theorem Sound.popCandidate (h : Sound g layer f) {c : D × ℕ} {rest : S.candidates.Queue}
    (hpop : S.candidates.pop f.candidates = some (c, rest)) :
    Sound g layer { f with candidates := rest } where
  seen := h.seen
  once := h.once
  candidates := fun b hb => h.candidates b (PriorityQueue.mem_of_mem_pop hpop hb)
  results := h.results
  distinct := h.distinct

theorem sound_enter (h : Sound g layer f) (e : ℕ) : Sound g layer (enter S g query layer f e) := by
  unfold enter
  cases hn : g.nodes[e]? with
  | none => exact h
  | some n =>
      dsimp only
      split_ifs with hskip
      · exact h
      · rw [not_or, List.contains_iff_mem, not_lt] at hskip
        exact h.take hn hskip.1 hskip.2 _

theorem sound_seeds (ep : List ℕ) : Sound g layer (seeds S g query ep layer) := by
  have hall : ∀ (ep : List ℕ) (f : Frontier S), Sound g layer f →
      Sound g layer (ep.foldl (enter S g query layer) f) := by
    intro ep
    induction ep with
    | nil => exact fun f h => h
    | cons e ep ih => exact fun f h => ih _ (sound_enter h e)
  have hstart : Sound g layer (ep.foldl (enter S g query layer) (Frontier.empty S)) :=
    hall ep _ sound_empty
  unfold seeds
  dsimp only
  split_ifs
  · cases g.nodes.findIdx? fun n => decide (layer ≤ n.level) with
    | none => exact hstart
    | some i => exact sound_enter hstart i
  · exact hstart

theorem sound_visit (h : Sound g layer f) (nb : ℕ) :
    Sound g layer (visit S g query ef layer f nb) := by
  unfold visit
  cases hn : g.nodes[nb]? with
  | none => exact h
  | some n =>
      dsimp only
      split_ifs with hseen hlow hnear hfull
      · exact h
      · exact h.mark hn (by rwa [List.contains_iff_mem] at hseen)
      · exact (h.take hn (by rwa [List.contains_iff_mem] at hseen) (not_lt.mp hlow) _).dropWorst
      · exact h.take hn (by rwa [List.contains_iff_mem] at hseen) (not_lt.mp hlow) _
      · exact h.mark hn (by rwa [List.contains_iff_mem] at hseen)

theorem sound_visits (h : Sound g layer f) (nbs : List ℕ) :
    Sound g layer (nbs.foldl (visit S g query ef layer) f) := by
  induction nbs generalizing f with
  | nil => exact h
  | cons nb nbs ih => exact ih (sound_visit h nb)

theorem sound_expand (h : Sound g layer f) (fuel : ℕ) :
    Sound g layer (expand S g query ef layer fuel f) := by
  induction fuel generalizing f with
  | zero => exact h
  | succ fuel ih =>
      rw [expand]
      cases hpop : S.candidates.pop f.candidates with
      | none => exact h
      | some p =>
          have hrest := h.popCandidate hpop
          dsimp only
          split_ifs
          · exact hrest
          · exact ih (sound_visits hrest _)

/-! ### The end of a search -/

def rounds (g : Graph E) (f : Frontier S) : ℕ :=
  g.nodes.length - f.visited.length + (S.candidates.items f.candidates).length

theorem Sound.visited_le (h : Sound g layer f) : f.visited.length ≤ g.nodes.length := by
  have hsub : f.visited ⊆ List.range g.nodes.length := fun i hi => List.mem_range.mpr (h.seen i hi)
  have hle := (h.once.subperm hsub).length_le
  rwa [List.length_range] at hle

theorem rounds_mark (h : Sound g layer f) (hn : g.nodes[i]? = some n) (hnew : i ∉ f.visited) :
    rounds g { f with visited := i :: f.visited } + 1 = rounds g f := by
  have hle := (h.mark hn hnew).visited_le
  unfold rounds
  dsimp only at hle ⊢
  rw [List.length_cons] at hle ⊢
  omega

theorem rounds_take (h : Sound g layer f) (hn : g.nodes[i]? = some n) (hnew : i ∉ f.visited)
    (d : D) : rounds g (f.take S d i) = rounds g f := by
  have hmark := rounds_mark h hn hnew
  have hpush := PriorityQueue.length_push (H := S.candidates) (q := f.candidates) (x := (d, i))
  unfold rounds Frontier.take at *
  dsimp only at hmark ⊢
  omega

theorem rounds_visit (h : Sound g layer f) (nb : ℕ) :
    rounds g (visit S g query ef layer f nb) ≤ rounds g f := by
  unfold visit
  cases hn : g.nodes[nb]? with
  | none => exact le_rfl
  | some n =>
      dsimp only
      split_ifs with hseen hlow hnear hfull
      · exact le_rfl
      all_goals
        rw [List.contains_iff_mem] at hseen
        have hmark := rounds_mark h hn hseen
        have htake := rounds_take h hn hseen (S.cosineDist query n.emb)
        unfold rounds at *
        dsimp only at hmark htake ⊢
        omega

theorem rounds_visits (h : Sound g layer f) (nbs : List ℕ) :
    rounds g (nbs.foldl (visit S g query ef layer) f) ≤ rounds g f := by
  induction nbs generalizing f with
  | nil => exact le_rfl
  | cons nb nbs ih => exact (ih (sound_visit h nb)).trans (rounds_visit h nb)

theorem rounds_pop {c : D × ℕ} {rest : S.candidates.Queue}
    (hpop : S.candidates.pop f.candidates = some (c, rest)) :
    rounds g { f with candidates := rest } + 1 = rounds g f := by
  have hlength := PriorityQueue.length_pop hpop
  unfold rounds
  dsimp only
  omega

theorem expand_enough (h : Sound g layer f) {k m : ℕ} (hk : rounds g f ≤ k) (hkm : k ≤ m) :
    expand S g query ef layer m f = expand S g query ef layer k f := by
  induction k generalizing f m with
  | zero =>
      cases m with
      | zero => rfl
      | succ m =>
          have hnone : S.candidates.pop f.candidates = none := by
            rw [S.candidates.pop_none, ← List.length_eq_zero_iff]
            unfold rounds at hk
            omega
          simp only [expand, hnone]
  | succ k ih =>
      cases m with
      | zero => omega
      | succ m =>
          rw [expand, expand]
          cases hpop : S.candidates.pop f.candidates with
          | none => rfl
          | some p =>
              have hrest := h.popCandidate hpop
              have hrounds := rounds_pop (g := g) hpop
              dsimp only
              split_ifs
              · rfl
              · exact ih (sound_visits hrest _) ((rounds_visits hrest _).trans (by omega))
                  (by omega)

theorem candidates_enter (h : (S.candidates.items f.candidates).length ≤ f.visited.length)
    (e : ℕ) : (S.candidates.items (enter S g query layer f e).candidates).length ≤
      (enter S g query layer f e).visited.length := by
  unfold enter
  cases hn : g.nodes[e]? with
  | none => exact h
  | some n =>
      dsimp only
      split_ifs
      · exact h
      · unfold Frontier.take
        rw [PriorityQueue.length_push, List.length_cons]
        exact Nat.succ_le_succ h

/-- No search is cut short: the rounds that `searchLayer` gives are enough. -/
theorem search_ends (ep : List ℕ) (m : ℕ) :
    expand S g query ef layer (g.nodes.length + 1 + m) (seeds S g query ep layer) =
      expand S g query ef layer (g.nodes.length + 1) (seeds S g query ep layer) := by
  have hall : ∀ (ep : List ℕ) (f : Frontier S),
      (S.candidates.items f.candidates).length ≤ f.visited.length →
      (S.candidates.items (ep.foldl (enter S g query layer) f).candidates).length ≤
        (ep.foldl (enter S g query layer) f).visited.length := by
    intro ep
    induction ep with
    | nil => exact fun f h => h
    | cons e ep ih => exact fun f h => ih _ (candidates_enter h e)
  have hstart : (S.candidates.items (Frontier.empty S).candidates).length ≤
      (Frontier.empty S).visited.length := by
    rw [Frontier.empty, S.candidates.items_empty]
    exact le_rfl
  have hseeds : (S.candidates.items (seeds S g query ep layer).candidates).length ≤
      (seeds S g query ep layer).visited.length := by
    unfold seeds
    dsimp only
    split_ifs
    · cases g.nodes.findIdx? fun n => decide (layer ≤ n.level) with
      | none => exact hall ep _ hstart
      | some i => exact candidates_enter (hall ep _ hstart) i
    · exact hall ep _ hstart
  have hsound : Sound g layer (seeds S g query ep layer) := sound_seeds ep
  have hle := hsound.visited_le
  have hrounds : rounds g (seeds S g query ep layer) ≤ g.nodes.length + 1 := by
    unfold rounds
    omega
  exact expand_enough hsound hrounds (Nat.le_add_right _ m)

end Frontiers

/-! ## Hits -/

section Answers

variable {S : Setting E D} {g : Graph E}

structure Hits (S : Setting E D) (levels : List ℕ) (layer : ℕ) (hits : List (Cand D)) :
    Prop where
  inLayer : ∀ h ∈ hits, InLayer levels layer h.1
  distinct : (hits.map Prod.fst).Nodup
  ordered : hits.Pairwise fun a b => S.le a.2 b.2

theorem Hits.sublist {levels : List ℕ} {layer : ℕ} {hits some : List (Cand D)}
    (h : Hits S levels layer hits) (hsub : some.Sublist hits) : Hits S levels layer some where
  inLayer := fun c hc => h.inLayer c (hsub.subset hc)
  distinct := h.distinct.sublist (hsub.map Prod.fst)
  ordered := h.ordered.sublist hsub

theorem hits_sortByDist {levels : List ℕ} {layer : ℕ} {hits : List (Cand D)}
    (hin : ∀ h ∈ hits, InLayer levels layer h.1) (hdistinct : (hits.map Prod.fst).Nodup) :
    Hits S levels layer (sortByDist S hits) where
  inLayer := fun c hc => hin c (List.mem_mergeSort.mp hc)
  distinct := ((List.mergeSort_perm hits _).map Prod.fst).nodup_iff.mpr hdistinct
  ordered := List.pairwise_mergeSort (fun a b c => S.trans a.2 b.2 c.2)
    (fun a b => S.total a.2 b.2) hits

theorem zipIdx_map_snd_nodup {α : Type} (l : List α) : (l.zipIdx.map Prod.snd).Nodup := by
  rw [List.zipIdx_map_snd]
  exact List.nodup_range'

theorem mem_zipIdx_node {p : Node E × ℕ} (hp : p ∈ g.nodes.zipIdx) : g.nodes[p.2]? = some p.1 :=
  List.mem_zipIdx_iff_getElem?.mp hp

theorem hits_bruteForce (query : E) (layer : ℕ) :
    Hits S g.levels layer (bruteForce S g query layer) := by
  apply hits_sortByDist
  · intro h hh
    rcases List.mem_map.mp hh with ⟨p, hp, rfl⟩
    rcases List.mem_filter.mp hp with ⟨hmem, hle⟩
    exact inLayer_of_node (mem_zipIdx_node hmem) (of_decide_eq_true hle)
  · rw [List.map_map]
    exact (zipIdx_map_snd_nodup g.nodes).sublist (List.filter_sublist.map Prod.snd)

theorem hits_searchLayer (query : E) (ep : List ℕ) (ef layer : ℕ) :
    Hits S g.levels layer (searchLayer S g query ep ef layer) := by
  have hnone : Hits S g.levels layer [] := ⟨nofun, List.nodup_nil, List.Pairwise.nil⟩
  unfold searchLayer
  dsimp only
  split_ifs
  · exact hnone
  · exact hnone
  · exact (hits_bruteForce query layer).sublist (List.take_sublist _ _)
  · have hsound : Sound g layer (expand S g query (max ef 1) layer (g.nodes.length + 1)
        (seeds S g query ep layer)) := sound_expand (sound_seeds ep) _
    exact hits_sortByDist (fun c hc => (hsound.results c hc).1) hsound.distinct

theorem inLayer_zero {j : ℕ} {n : Node E} (hn : g.nodes[j]? = some n) : InLayer g.levels 0 j :=
  inLayer_of_node hn (Nat.zero_le _)

theorem boost_hits (query : E) (lsh : String) {hits : List (Cand D)}
    (hin : ∀ h ∈ hits, InLayer g.levels 0 h.1) (hdistinct : (hits.map Prod.fst).Nodup) :
    (∀ h ∈ boost S g query lsh hits, InLayer g.levels 0 h.1) ∧
      ((boost S g query lsh hits).map Prod.fst).Nodup := by
  unfold boost
  dsimp only
  split_ifs
  · exact ⟨hin, hdistinct⟩
  · have hmem : ∀ p ∈ g.nodes.zipIdx, g.nodes[p.2]? = some p.1 := fun p => mem_zipIdx_node
    generalize g.nodes.zipIdx = nodes at hmem
    induction nodes generalizing hits with
    | nil => exact ⟨hin, hdistinct⟩
    | cons p nodes ih =>
        rw [List.foldl_cons]
        have hp := hmem p List.mem_cons_self
        have hrest : ∀ q ∈ nodes, g.nodes[q.2]? = some q.1 :=
          fun q hq => hmem q (List.mem_cons_of_mem p hq)
        split_ifs with hnew
        · have hnot : p.2 ∉ hits.map Prod.fst := by
            intro hfound
            rcases List.mem_map.mp hfound with ⟨h, hh, heq⟩
            exact hnew.2 (List.any_eq_true.mpr ⟨h, hh, beq_iff_eq.mpr heq⟩)
          refine ih ?_ ?_ hrest
          · intro h hh
            rcases List.mem_append.mp hh with hh | hh
            · exact hin h hh
            · rw [List.mem_singleton.mp hh]
              exact inLayer_zero hp
          · rw [List.map_append, List.map_singleton, ← List.concat_eq_append]
            exact hdistinct.concat hnot
        · exact ih hin hdistinct hrest

/-- What the answer to a query says: nodes of the graph, each once, nearest first. -/
structure Answer (S : Setting E D) (g : Graph E) (hits : List (String × D)) : Prop where
  present : ∀ h ∈ hits, h.1 ∈ g.ids
  distinct : (hits.map Prod.fst).Nodup
  ordered : hits.Pairwise fun a b => S.le a.2 b.2

theorem answer_of_hits (hids : g.ids.Nodup) {hits : List (Cand D)} {layer : ℕ}
    (h : Hits S g.levels layer hits) :
    Answer S g (hits.filterMap fun h => g.nodes[h.1]?.map fun n => (n.id, h.2)) := by
  refine ⟨?_, ?_, ?_⟩
  · intro c hc
    rcases List.mem_filterMap.mp hc with ⟨b, -, hb⟩
    rcases Option.map_eq_some_iff.mp hb with ⟨n, hn, rfl⟩
    exact List.mem_map_of_mem (List.mem_of_getElem? hn)
  · have hnames : (hits.filterMap fun h => g.nodes[h.1]?.map fun n => (n.id, h.2)).map Prod.fst =
        (hits.map Prod.fst).filterMap fun i => g.ids[i]? := by
      rw [List.map_filterMap, List.filterMap_map]
      congr 1
      funext h
      dsimp only [Function.comp_apply]
      rw [Graph.ids, List.getElem?_map, Option.map_map]
      rfl
    rw [hnames]
    refine h.distinct.filterMap ?_
    intro i j id hi hj
    rcases List.getElem?_eq_some_iff.mp hi with ⟨hlt, -⟩
    exact (List.getElem?_inj hlt hids).mp (hi.trans hj.symm)
  · refine h.ordered.filterMap _ ?_
    intro a b hab c hc d hd
    rcases Option.map_eq_some_iff.mp hc with ⟨n, -, rfl⟩
    rcases Option.map_eq_some_iff.mp hd with ⟨m, -, rfl⟩
    exact hab

theorem answer_hnswSearchGraph (hids : g.ids.Nodup) (query : E) (lsh : String) (k : ℕ) :
    Answer S g (hnswSearchGraph S g query lsh k) := by
  unfold hnswSearchGraph
  dsimp only
  split_ifs
  · exact ⟨nofun, List.nodup_nil, List.Pairwise.nil⟩
  · have hbase : Hits S g.levels 0 (searchLayer S g query (descend S g query 1
        (entryLevel g (g.entry.getD 0)) [g.entry.getD 0])
        (min (max efSearch k) (max g.nodes.length 1)) 0) := hits_searchLayer query _ _ _
    rcases boost_hits query lsh hbase.inLayer hbase.distinct with ⟨hin, hdistinct⟩
    exact answer_of_hits hids ((hits_sortByDist hin hdistinct).sublist
      ((List.take_sublist _ _).trans (List.destutter_sublist _ _)))

end Answers

end Hnsw

end GrServer
