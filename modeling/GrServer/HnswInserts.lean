import GrServer.HnswInvariant

/-!
# Inserts keep the invariant of the HNSW graph

A removal renames positions in every list and builds the index and the entry
point anew.  A new node is linked to hits of searches, all of them nodes that
were there before, and takes the entry point over where it is higher.
-/

namespace GrServer

namespace Hnsw

open SwapRemove

variable {E D : Type}

/-! ## Removal -/

section Highest

def better (best : Option (ℕ × ℕ)) (p : ℕ × ℕ) : Option (ℕ × ℕ) :=
  match best with
  | some b => if b.1 ≤ p.1 then some p else some b
  | none => some p

theorem better_spec (best : Option (ℕ × ℕ)) (p : ℕ × ℕ) :
    ∃ b, better best p = some b ∧ (b = p ∨ best = some b) ∧ p.1 ≤ b.1 ∧
      ∀ a, best = some a → a.1 ≤ b.1 := by
  unfold better
  cases best with
  | none => exact ⟨p, rfl, Or.inl rfl, le_rfl, nofun⟩
  | some a =>
      dsimp only
      split_ifs with hle
      · refine ⟨p, rfl, Or.inl rfl, le_rfl, ?_⟩
        intro c hc
        cases hc
        exact hle
      · refine ⟨a, rfl, Or.inr rfl, (not_le.mp hle).le, ?_⟩
        intro c hc
        cases hc
        exact le_rfl

theorem foldl_better (ps : List (ℕ × ℕ)) (b : ℕ × ℕ) :
    ∃ top, ps.foldl better (some b) = some top ∧ (top = b ∨ top ∈ ps) ∧ b.1 ≤ top.1 ∧
      ∀ p ∈ ps, p.1 ≤ top.1 := by
  induction ps generalizing b with
  | nil => exact ⟨b, rfl, Or.inl rfl, le_rfl, nofun⟩
  | cons p ps ih =>
      rcases better_spec (some b) p with ⟨c, hc, hfrom, hp, hb⟩
      rcases ih c with ⟨top, htop, hmem, hct, hps⟩
      refine ⟨top, by rw [List.foldl_cons, hc, htop], ?_, (hb b rfl).trans hct, ?_⟩
      · rcases hmem with rfl | hmem
        · rcases hfrom with rfl | hfrom
          · exact Or.inr List.mem_cons_self
          · cases hfrom
            exact Or.inl rfl
        · exact Or.inr (List.mem_cons_of_mem p hmem)
      · intro q hq
        rcases List.mem_cons.mp hq with rfl | hq
        · exact hp.trans hct
        · exact hps q hq

theorem entryHighest_highest (levels : List ℕ) : EntryHighest levels (highest levels) := by
  have hfold : highest levels = (levels.zipIdx.foldl better none).map Prod.snd := rfl
  rw [hfold]
  cases levels with
  | nil => rfl
  | cons k levels =>
      rcases foldl_better (levels.zipIdx 1) (k, 0) with ⟨top, htop, hmem, hk, hall⟩
      have hstart : ((k :: levels).zipIdx.foldl better none) = some top := htop
      rw [hstart]
      have htopmem : top ∈ (k :: levels).zipIdx := by
        rcases hmem with rfl | hmem
        · exact List.mem_cons_self
        · exact List.mem_cons_of_mem _ hmem
      refine ⟨top.1, List.mem_zipIdx_iff_getElem?.mp htopmem, ?_⟩
      intro l hl
      rcases List.mem_cons.mp hl with rfl | hl
      · exact hk
      · rcases List.mem_iff_getElem.mp hl with ⟨j, hj, rfl⟩
        exact hall (levels[j], j + 1) (List.mem_zipIdx_iff_le_and_getElem?_sub.mpr
          ⟨by omega, by simp [List.getElem?_eq_getElem hj]⟩)

end Highest

theorem get?_foldl_insert {ps : List (String × ℕ)} (hps : (ps.map Prod.fst).Nodup)
    (m : SortedMap String ℕ) (id : String) (i : ℕ) :
    (ps.foldl (fun m p => m.insert p.1 p.2) m).get? id = some i ↔
      (id, i) ∈ ps ∨ (id ∉ ps.map Prod.fst ∧ m.get? id = some i) := by
  induction ps generalizing m with
  | nil => simp
  | cons p ps ih =>
      rcases List.nodup_cons.mp hps with ⟨hnot, hrest⟩
      rw [List.foldl_cons, ih hrest, SortedMap.get?_insert]
      by_cases hid : id = p.1
      · subst hid
        have hmem : (p.1, i) ∉ ps := fun h => hnot (List.mem_map.mpr ⟨_, h, rfl⟩)
        simp [hnot, hmem, Prod.ext_iff, eq_comm]
      · have hne : (id, i) ≠ p := fun h => hid (congrArg Prod.fst h)
        simp [hid, hne]

theorem get?_indexed {ids : List String} (hids : ids.Nodup) (id : String) (i : ℕ) :
    (indexed ids).get? id = some i ↔ ids[i]? = some id := by
  have hkeys : (ids.zipIdx.map Prod.fst).Nodup := by
    rw [List.zipIdx_map_fst]
    exact hids
  unfold indexed
  rw [get?_foldl_insert hkeys]
  simp [List.mem_zipIdx_iff_getElem?]

section Removal

variable {g : Graph E} {levels : List ℕ} {last idx i layer : ℕ}

/-- The lists of a node after `idx` is removed and `last` moved to its place. -/
def Node.rename (last idx : ℕ) (n : Node E) : Node E :=
  { n with neighbors := n.neighbors.map fun layer => layer.filterMap (renamed last idx) }

theorem nodes_removeIdx (h : idx < g.nodes.length) :
    (removeIdx g idx).nodes =
      (swapRemove g.nodes idx).map (Node.rename (g.nodes.length - 1) idx) := by
  unfold removeIdx
  rw [if_neg (not_le.mpr h)]
  rfl

theorem ids_removeIdx (h : idx < g.nodes.length) :
    (removeIdx g idx).ids = swapRemove g.ids idx := by
  unfold Graph.ids
  rw [nodes_removeIdx h, List.map_map, ← map_swapRemove]
  rfl

theorem levels_removeIdx (h : idx < g.nodes.length) :
    (removeIdx g idx).levels = swapRemove g.levels idx := by
  unfold Graph.levels
  rw [nodes_removeIdx h, List.map_map, ← map_swapRemove]
  rfl

theorem NeighborList.rename {nbs : List ℕ} (hlast : levels.length = last + 1) (hidx : idx ≤ last)
    (hi : i < last) (h : NeighborList levels layer (before last idx i) nbs) :
    NeighborList (swapRemove levels idx) layer i (nbs.filterMap (renamed last idx)) where
  inLayer := by
    intro k hk
    rcases List.mem_filterMap.mp hk with ⟨j, hj, hjk⟩
    rcases h.inLayer j hj with ⟨l, hl, hle⟩
    exact ⟨l, by rw [getElem?_renamed hlast hidx hjk, hl], hle⟩
  apart := by
    intro hmem
    rcases List.mem_filterMap.mp hmem with ⟨j, hj, hji⟩
    have hself := renamed_inj hji (renamed_before hi)
    rw [hself] at hj
    exact h.apart hj
  nodup := h.nodup.filterMap fun _ _ _ hj hk => renamed_inj hj hk
  few := (List.length_filterMap_le _ _).trans h.few

theorem wellFormed_removeIdx (h : WellFormed g) (idx : ℕ) : WellFormed (removeIdx g idx) := by
  by_cases hlt : idx < g.nodes.length
  · have hids := ids_removeIdx hlt
    have hlevels := levels_removeIdx hlt
    have hidlt : idx < g.ids.length := by
      unfold Graph.ids
      rwa [List.length_map]
    have hnodup : (removeIdx g idx).ids.Nodup := by
      rw [hids]
      have hperm := swapRemove_perm (List.getElem?_eq_getElem hidlt)
      exact (List.nodup_cons.mp (hperm.nodup_iff.mp h.ids)).2
    have hbuilt : (removeIdx g idx).byId = indexed (removeIdx g idx).ids ∧
        (removeIdx g idx).entry = highest (removeIdx g idx).levels := by
      unfold removeIdx
      rw [if_neg (not_le.mpr hlt)]
      exact ⟨rfl, rfl⟩
    refine ⟨hnodup, ?_, ?_, ?_⟩
    · rw [hbuilt.1]
      exact get?_indexed hnodup
    · rw [hbuilt.2]
      exact entryHighest_highest _
    · rw [hlevels, nodes_removeIdx hlt]
      intro i n hn layer nbs hnbs
      rw [List.getElem?_map] at hn
      rcases Option.map_eq_some_iff.mp hn with ⟨old, hold, rfl⟩
      have hi : i < g.nodes.length - 1 := by
        rw [← length_swapRemove g.nodes idx]
        exact (List.getElem?_eq_some_iff.mp hold).1
      have hlast : g.nodes.length = g.nodes.length - 1 + 1 := by omega
      rw [getElem?_swapRemove hlast hi] at hold
      unfold Node.rename at hnbs
      dsimp only at hnbs
      rw [List.getElem?_map] at hnbs
      rcases Option.map_eq_some_iff.mp hnbs with ⟨was, hwas, rfl⟩
      exact (h.linked _ old hold layer was hwas).rename ((length_levels g).trans hlast) (by omega) hi
  · unfold removeIdx
    rwa [if_pos (not_lt.mp hlt)]

end Removal

/-! ## Insertion -/

section Insertion

variable {S : Setting E D} {g : Graph E}

theorem chooseNeighbors_spec (emb : E) (level entryLevel : ℕ) (curr : List ℕ) :
    (chooseNeighbors S g emb level entryLevel curr).length = level + 1 ∧
      ∀ layer nbs, (chooseNeighbors S g emb level entryLevel curr)[layer]? = some nbs →
        NeighborList g.levels layer g.levels.length nbs := by
  unfold chooseNeighbors
  generalize (List.range (min level entryLevel + 1)).reverse = layers
  have hstart : ∀ layer nbs, (List.replicate (level + 1) ([] : List ℕ))[layer]? = some nbs →
      NeighborList g.levels layer g.levels.length nbs := by
    intro layer nbs hnbs
    rw [(List.mem_replicate.mp (List.mem_of_getElem? hnbs)).2]
    exact neighborList_nil
  have hlength : (List.replicate (level + 1) ([] : List ℕ)).length = level + 1 :=
    List.length_replicate
  generalize List.replicate (level + 1) ([] : List ℕ) = lists at hstart hlength
  induction layers generalizing lists curr with
  | nil => exact ⟨hlength, hstart⟩
  | cons lc layers ih =>
      rw [List.foldl_cons]
      refine ih _ _ ?_ ?_
      · intro layer nbs hnbs
        rw [List.getElem?_set] at hnbs
        split_ifs at hnbs with heq hlt
        · subst heq
          have hhits := hits_searchLayer (S := S) (g := g) emb curr efConstruction lc
          have hsub : ((searchLayer S g emb curr efConstruction lc).take
              (mForLayer lc)).Sublist _ := List.take_sublist _ _
          have hsome := hhits.sublist hsub
          cases hnbs
          refine ⟨?_, ?_, hsome.distinct, ?_⟩
          · intro j hj
            rcases List.mem_map.mp hj with ⟨c, hc, rfl⟩
            exact hsome.inLayer c hc
          · intro hself
            rcases List.mem_map.mp hself with ⟨c, hc, hcself⟩
            have hlt := (hsome.inLayer c hc).lt
            omega
          · unfold selectNeighbors
            rw [List.length_map]
            exact List.length_take_le _ _
        · exact hstart layer nbs hnbs
      · rw [List.length_set]
        exact hlength

theorem sameShape_settled (persist : Bool) (g : Graph E) : SameShape g (settled persist g) := by
  unfold settled maybePersist
  dsimp only
  split_ifs
  all_goals exact ⟨rfl, rfl, rfl, rfl⟩

theorem nodes_settled (persist : Bool) (g : Graph E) : (settled persist g).nodes = g.nodes := by
  unfold settled maybePersist
  dsimp only
  split_ifs
  all_goals rfl

theorem wellFormed_settled (h : WellFormed g) (persist : Bool) :
    WellFormed (settled persist g) := by
  refine h.of_sameShape (sameShape_settled persist g) ?_
  rw [nodes_settled]
  exact h.linked

theorem sameShape_updateNode (g : Graph E) (idx : ℕ) (emb : E) (lsh : String) :
    SameShape g (updateNode g idx emb lsh) := by
  have hmap : ∀ {β : Type} (f : Node E → β),
      (∀ n : Node E, f { n with emb := emb, lsh := lsh } = f n) →
      (updateNode g idx emb lsh).nodes.map f = g.nodes.map f :=
    fun f hf => map_modify_of_eq hf _ _
  exact ⟨hmap Node.id fun _ => rfl, hmap Node.level fun _ => rfl, rfl, rfl⟩

theorem wellFormed_updateNode (h : WellFormed g) (idx : ℕ) (emb : E) (lsh : String) :
    WellFormed (updateNode g idx emb lsh) :=
  h.of_sameShape (sameShape_updateNode g idx emb lsh) (h.linked.modify fun _ hn => hn)

theorem get?_insert_end {ids : List String} {byId : SortedMap String ℕ} {id : String}
    (hbyId : ∀ k i, byId.get? k = some i ↔ ids[i]? = some k) (hnew : id ∉ ids) (k : String)
    (i : ℕ) : (byId.insert id ids.length).get? k = some i ↔ (ids ++ [id])[i]? = some k := by
  rw [SortedMap.get?_insert, List.getElem?_append]
  by_cases hk : k = id
  · subst hk
    rw [if_pos rfl]
    split_ifs with hi
    · constructor
      · intro heq
        cases heq
        omega
      · intro hfound
        exact absurd (List.mem_of_getElem? hfound) hnew
    · constructor
      · intro heq
        cases heq
        simp
      · intro hfound
        have hzero : i - ids.length < 1 := (List.getElem?_eq_some_iff.mp hfound).1
        congr 1
        omega
  · rw [if_neg hk, hbyId]
    split_ifs with hi
    · exact Iff.rfl
    · rw [List.getElem?_eq_none (by omega)]
      constructor
      · exact nofun
      · intro hfound
        rw [List.getElem?_singleton] at hfound
        split_ifs at hfound
        cases hfound
        exact absurd rfl hk

theorem AllLinked.concat {levels : List ℕ} {nodes : List (Node E)} (h : AllLinked levels nodes)
    {n : Node E} {level : ℕ} (hn : Linked levels nodes.length n) :
    AllLinked (levels ++ [level]) (nodes ++ [n]) := by
  intro i m hm
  rw [List.getElem?_append] at hm
  split_ifs at hm with hi
  · exact (h i m hm).append [level]
  · rw [List.getElem?_singleton] at hm
    split_ifs at hm with hzero
    cases hm
    have hlast : i = nodes.length := by omega
    rw [hlast]
    exact hn.append [level]

theorem entryLevel_spec (h : WellFormed g) (hne : g.nodes ≠ []) :
    g.levels[g.entry.getD 0]? = some (entryLevel g (g.entry.getD 0)) ∧
      ∀ k ∈ g.levels, k ≤ entryLevel g (g.entry.getD 0) := by
  have hentry := h.entry
  cases hsome : g.entry with
  | none =>
      rw [hsome] at hentry
      exact absurd (List.map_eq_nil_iff.mp hentry) hne
  | some e =>
      rw [hsome] at hentry
      rcases hentry with ⟨top, htop, hall⟩
      have hlevel : entryLevel g e = top := by
        unfold entryLevel
        unfold Graph.levels at htop
        rw [List.getElem?_map] at htop
        rw [htop]
        rfl
      rw [Option.getD_some, hlevel]
      exact ⟨htop, hall⟩

theorem addNode_spec (h : WellFormed g) {id : String} (hnew : id ∉ g.ids) (emb : E)
    (lsh : String) :
    WellFormed (addNode S g id emb lsh) ∧ (addNode S g id emb lsh).ids = g.ids ++ [id] := by
  have hlength : g.ids.length = g.nodes.length := List.length_map ..
  have hids : (g.ids ++ [id]).Nodup := by
    rw [← List.concat_eq_append]
    exact h.ids.concat hnew
  have hbyId := get?_insert_end h.byId hnew
  rw [hlength] at hbyId
  unfold addNode
  dsimp only
  by_cases hempty : g.nodes = []
  · rw [if_pos hempty]
    have hnone : g.ids = [] := by
      unfold Graph.ids
      rw [hempty]
      rfl
    rw [hempty] at hbyId ⊢
    rw [hnone] at hids hbyId ⊢
    refine ⟨⟨hids, hbyId, ⟨S.assignLevel id, rfl, ?_⟩, ?_⟩, rfl⟩
    · intro k hk
      exact (List.mem_singleton.mp hk).le
    · have hnil : AllLinked (E := E) [] [] := nofun
      refine hnil.concat ?_
      intro layer nbs hnbs
      rw [(List.mem_replicate.mp (List.mem_of_getElem? hnbs)).2]
      exact neighborList_nil
  · rw [if_neg hempty]
    rcases entryLevel_spec h hempty with ⟨htop, hhighest⟩
    generalize entryLevel g (g.entry.getD 0) = top at htop hhighest ⊢
    generalize S.assignLevel id = level
    generalize descend S g emb (level + 1) (max top level) [g.entry.getD 0] = curr
    rcases chooseNeighbors_spec (S := S) (g := g) emb level top curr with ⟨hlists, hchosen⟩
    generalize chooseNeighbors S g emb level top curr = lists at hlists hchosen ⊢
    have hidx : (g.levels ++ [level])[g.nodes.length]? = some level := by
      rw [← length_levels g]
      exact List.getElem?_concat_length
    have hlinked : AllLinked (g.levels ++ [level])
        (g.nodes ++ [(⟨id, emb, lsh, level, lists⟩ : Node E)]) := by
      refine h.linked.concat ?_
      rw [← length_levels g]
      exact hchosen
    have hends : ∀ layer nbs, lists[layer]? = some nbs →
        InLayer (g.levels ++ [level]) layer g.nodes.length ∧
          ∀ nb ∈ nbs, InLayer (g.levels ++ [level]) layer nb := by
      intro layer nbs hnbs
      have hlayer := (List.getElem?_eq_some_iff.mp hnbs).1
      exact ⟨⟨level, hidx, by omega⟩, fun nb hnb => ((hchosen layer nbs hnbs).inLayer nb hnb).append _⟩
    generalize hpush : ({ g with
      nodes := g.nodes ++ [(⟨id, emb, lsh, level, lists⟩ : Node E)]
      byId := g.byId.insert id g.nodes.length } : Graph E) = pushed
    have hpushed : pushed.nodes = g.nodes ++ [(⟨id, emb, lsh, level, lists⟩ : Node E)] ∧
        pushed.ids = g.ids ++ [id] ∧ pushed.levels = g.levels ++ [level] ∧
        pushed.byId = g.byId.insert id g.nodes.length ∧ pushed.entry = g.entry := by
      rw [← hpush]
      exact ⟨rfl, List.map_append, List.map_append, rfl, rfl⟩
    rcases hpushed with ⟨hnodes, hpushedIds, hpushedLevels, hpushedById, hpushedEntry⟩
    rw [← hnodes] at hlinked
    rcases connectAll_spec (S := S) hlinked hends with ⟨hsame, hall⟩
    rw [← hpushedIds] at hids hbyId ⊢
    rw [← hpushedById] at hbyId
    rw [← hpushedLevels] at hall hidx
    rw [← hsame.levels] at hall hidx
    rw [← hsame.ids] at hids hbyId ⊢
    rw [← hsame.byId] at hbyId
    have hmem : ∀ k ∈ (connectAll S pushed g.nodes.length lists).levels,
        k ∈ g.levels ∨ k = level := by
      intro k hk
      rw [hsame.levels, hpushedLevels] at hk
      exact (List.mem_append.mp hk).imp_right List.mem_singleton.mp
    split_ifs with hhigher
    · refine ⟨⟨hids, hbyId, ⟨level, hidx, ?_⟩, hall⟩, rfl⟩
      intro k hk
      rcases hmem k hk with hk | rfl
      · exact (hhighest k hk).trans hhigher.le
      · exact le_rfl
    · refine ⟨⟨hids, hbyId, ?_, hall⟩, rfl⟩
      rw [hsame.entry, hpushedEntry]
      cases hentry : g.entry with
      | none =>
          have hnone := h.entry
          rw [hentry] at hnone
          exact absurd (List.map_eq_nil_iff.mp hnone) hempty
      | some e =>
          rw [hentry, Option.getD_some] at htop
          refine ⟨top, ?_, ?_⟩
          · rw [hsame.levels, hpushedLevels,
              List.getElem?_append_left (List.getElem?_eq_some_iff.mp htop).1, htop]
          · intro k hk
            rcases hmem k hk with hk | rfl
            · exact hhighest k hk
            · exact not_lt.mp hhigher

theorem mem_ids_iff (h : WellFormed g) (id : String) :
    id ∈ g.ids ↔ (g.byId.get? id).isSome = true := by
  rw [Option.isSome_iff_exists, List.mem_iff_getElem?]
  simp only [h.byId]

def roomIn (ids : List String) : List String :=
  if maxNodes ≤ ids.length then swapRemove ids 0 else ids

def idsAfter (ids : List String) (id : String) : List String :=
  if id ∈ ids then ids else roomIn ids ++ [id]

theorem roomIn_subset (ids : List String) : roomIn ids ⊆ ids := by
  unfold roomIn
  split_ifs with hfull
  · cases ids with
    | nil => exact List.Subset.refl _
    | cons a ids =>
        exact fun k hk => (swapRemove_perm (i := 0) rfl).mem_iff.mpr (List.mem_cons_of_mem a hk)
  · exact List.Subset.refl _

theorem makeRoom_spec (h : WellFormed g) :
    WellFormed (makeRoom g) ∧ (makeRoom g).ids = roomIn g.ids := by
  have hlength : g.ids.length = g.nodes.length := List.length_map ..
  unfold makeRoom roomIn
  rw [hlength]
  split_ifs with hfull
  · have hpos : 0 < maxNodes := by decide
    exact ⟨wellFormed_removeIdx h 0, ids_removeIdx (hpos.trans_le hfull)⟩
  · exact ⟨h, rfl⟩

theorem insert_spec (h : WellFormed g) (id : String) (emb : E) (lsh : String) (persist : Bool) :
    WellFormed (hnswInsertGraph S g id emb lsh persist) ∧
      (hnswInsertGraph S g id emb lsh persist).ids = idsAfter g.ids id := by
  have hmem := mem_ids_iff h id
  unfold hnswInsertGraph idsAfter
  cases hfound : g.byId.get? id with
  | some idx =>
      rw [hfound] at hmem
      rw [if_pos (hmem.mpr rfl)]
      refine ⟨wellFormed_settled (wellFormed_updateNode h idx emb lsh) persist, ?_⟩
      dsimp only
      rw [(sameShape_settled persist _).ids]
      exact (sameShape_updateNode g idx emb lsh).ids
  | none =>
      rw [hfound] at hmem
      have hnot : id ∉ g.ids := fun hin => nomatch hmem.mp hin
      rw [if_neg hnot]
      rcases makeRoom_spec h with ⟨hroom, hids⟩
      have hnew : id ∉ (makeRoom g).ids := by
        rw [hids]
        exact fun hin => hnot (roomIn_subset g.ids hin)
      rcases addNode_spec (S := S) hroom hnew emb lsh with ⟨hadded, haddedIds⟩
      refine ⟨wellFormed_settled hadded persist, ?_⟩
      dsimp only
      rw [(sameShape_settled persist _).ids, haddedIds, hids]

end Insertion

end Hnsw

end GrServer
