import GrServer.GuardedRun
import GrServer.HnswInserts

/-!
# Which node a full HNSW graph drops

A full graph drops the node at index 0 and moves the last one there.  The first
that is dropped is the oldest; from then on index 0 holds a late one, while the
oldest stays at index 1 for good.
-/

namespace GrServer

namespace Hnsw

open SwapRemove

variable {E D : Type}

structure Insert (E : Type) where
  deviceId : String
  emb : E
  lsh : String
  persist : Bool

structure World (E : Type) where
  graph : Graph E
  /-- The ids of the nodes, in the order in which they were inserted. -/
  order : List String
  /-- The nodes inserted so far, also those that are gone. -/
  inserted : ℕ

def World.start : World E := ⟨Graph.new, [], 0⟩

variable (S : Setting E D)

def step (w : World E) (e : Insert E) : World E :=
  let g := hnswInsertGraph S w.graph e.deviceId e.emb e.lsh e.persist
  let order := w.order.filter fun id => decide (id ∈ g.ids)
  if e.deviceId ∈ w.graph.ids then ⟨g, order, w.inserted⟩
  else ⟨g, order ++ [e.deviceId], w.inserted + 1⟩

/-- The invariant of the graph, and what it answers to any query. -/
structure Serving (g : Graph E) : Prop where
  wellFormed : WellFormed g
  answers : ∀ query lsh k, Answer S g (hnswSearchGraph S g query lsh k)

/-- What an insert promises. -/
structure Kept (w : World E) (e : Insert E) : Prop where
  serving : Serving S (step S w e).graph
  /-- The node that is dropped is the one inserted longest ago. -/
  oldest : ∀ id ∈ w.graph.ids, id ∉ (step S w e).graph.ids → w.order.head? = some id

/-- An id of the graph, or one of the first that are not, up to the first that
finds the graph full. -/
def InTime (w : World E) (e : Insert E) : Prop :=
  e.deviceId ∈ w.graph.ids ∨ w.inserted ≤ maxNodes

/-! ## Before and after the first removal -/

structure Filling (w : World E) : Prop where
  room : w.inserted ≤ maxNodes
  order : w.order = w.graph.ids
  length : w.graph.ids.length = w.inserted

structure Passed (w : World E) : Prop where
  many : maxNodes < w.inserted
  full : w.graph.ids.length = maxNodes
  oldest : w.order.head? = w.graph.ids[1]?

def Known (w : World E) : Prop := WellFormed w.graph ∧ (Filling w ∨ Passed w)

section Steps

variable {S} {w : World E} {e : Insert E}

theorem known_start : Known (World.start : World E) :=
  ⟨wellFormed_new, Or.inl ⟨Nat.zero_le _, rfl, rfl⟩⟩

theorem serving_step (h : WellFormed w.graph) (e : Insert E) : Serving S (step S w e).graph := by
  have hspec := insert_spec (S := S) h e.deviceId e.emb e.lsh e.persist
  have hgraph : (step S w e).graph =
      hnswInsertGraph S w.graph e.deviceId e.emb e.lsh e.persist := by
    unfold step
    dsimp only
    split_ifs
    all_goals rfl
  rw [hgraph]
  exact ⟨hspec.1, fun query lsh k => answer_hnswSearchGraph hspec.1.ids query lsh k⟩

theorem step_known (h : WellFormed w.graph) (hin : e.deviceId ∈ w.graph.ids) :
    (step S w e).graph.ids = w.graph.ids ∧
      (step S w e).order = w.order.filter (fun id => decide (id ∈ w.graph.ids)) ∧
      (step S w e).inserted = w.inserted := by
  have hids := (insert_spec (S := S) h e.deviceId e.emb e.lsh e.persist).2
  unfold idsAfter at hids
  rw [if_pos hin] at hids
  unfold step
  dsimp only
  rw [if_pos hin]
  dsimp only
  rw [hids]
  exact ⟨rfl, rfl, rfl⟩

theorem step_new (h : WellFormed w.graph) (hnew : e.deviceId ∉ w.graph.ids) :
    (step S w e).graph.ids = roomIn w.graph.ids ++ [e.deviceId] ∧
      (step S w e).order =
        w.order.filter (fun id => decide (id ∈ roomIn w.graph.ids ++ [e.deviceId])) ++
          [e.deviceId] ∧
      (step S w e).inserted = w.inserted + 1 := by
  have hids := (insert_spec (S := S) h e.deviceId e.emb e.lsh e.persist).2
  unfold idsAfter at hids
  rw [if_neg hnew] at hids
  unfold step
  dsimp only
  rw [if_neg hnew]
  dsimp only
  rw [hids]
  exact ⟨rfl, rfl, rfl⟩

theorem roomIn_full {ids : List String} (hids : ids.Nodup) (hfull : ids.length = maxNodes) :
    ∃ a b rest, ids = a :: b :: rest ∧ a ∉ roomIn ids ∧ (∀ k ∈ b :: rest, k ∈ roomIn ids) ∧
      (roomIn ids)[1]? = some b ∧ (roomIn ids).length + 1 = maxNodes := by
  have hmax : 2 < maxNodes := by decide
  have hroom : roomIn ids = swapRemove ids 0 := by
    unfold roomIn
    rw [if_pos hfull.ge]
  rw [hroom]
  rcases ids with _ | ⟨a, _ | ⟨b, rest⟩⟩
  · rw [List.length_nil] at hfull
    omega
  · rw [List.length_singleton] at hfull
    omega
  · have hperm : (a :: b :: rest).Perm (a :: swapRemove (a :: b :: rest) 0) :=
      swapRemove_perm rfl
    have hstay : (b :: rest).Perm (swapRemove (a :: b :: rest) 0) := hperm.cons_inv
    have hlength : (b :: rest).length + 1 = maxNodes := hfull
    refine ⟨a, b, rest, rfl, ?_, ?_, ?_, ?_⟩
    · rw [← hstay.mem_iff]
      exact (List.nodup_cons.mp hids).1
    · intro k hk
      exact hstay.mem_iff.mp hk
    · rw [@getElem?_swapRemove _ _ _ _ (b :: rest).length rfl (by omega)]
      rfl
    · rw [← hstay.length_eq]
      exact hlength

theorem roomIn_room {ids : List String} (h : ids.length < maxNodes) : roomIn ids = ids := by
  unfold roomIn
  rw [if_neg (not_le.mpr h)]

theorem filter_all {ids kept : List String} (h : ids ⊆ kept) :
    ids.filter (fun id => decide (id ∈ kept)) = ids :=
  List.filter_eq_self.mpr fun _ hk => decide_eq_true (h hk)

theorem head?_filter {order kept : List String} {b : String} (hhead : order.head? = some b)
    (hb : b ∈ kept) (more : List String) :
    (order.filter (fun id => decide (id ∈ kept)) ++ more).head? = some b := by
  cases order with
  | nil => cases hhead
  | cons c order =>
      cases hhead
      rw [List.filter_cons_of_pos (by simpa using hb)]
      rfl

theorem passed_step (hw : WellFormed w.graph) (h : Passed w) : Passed (step S w e) := by
  rcases roomIn_full hw.ids h.full with ⟨a, b, rest, hids, -, hstay, hone, hlength⟩
  have hhead : w.order.head? = some b := by
    rw [h.oldest, hids]
    rfl
  by_cases hin : e.deviceId ∈ w.graph.ids
  · rcases step_known (S := S) hw hin with ⟨hsame, horder, hinserted⟩
    refine ⟨?_, ?_, ?_⟩
    · rw [hinserted]
      exact h.many
    · rw [hsame]
      exact h.full
    · have hb : b ∈ w.graph.ids := by
        rw [hids]
        exact List.mem_cons_of_mem a List.mem_cons_self
      have hfirst := head?_filter hhead hb []
      rw [List.append_nil] at hfirst
      rw [horder, hfirst, hsame, hids]
      rfl
  · rcases step_new (S := S) hw hin with ⟨hafter, horder, hinserted⟩
    refine ⟨?_, ?_, ?_⟩
    · rw [hinserted]
      exact h.many.trans (Nat.lt_succ_self _)
    · rw [hafter, List.length_append, List.length_singleton]
      exact hlength
    · have hb := List.mem_append_left [e.deviceId] (hstay b List.mem_cons_self)
      rw [horder, head?_filter hhead hb, hafter,
        List.getElem?_append_left (List.getElem?_eq_some_iff.mp hone).1, hone]

theorem filling_step (hw : WellFormed w.graph) (h : Filling w) :
    Filling (step S w e) ∨ Passed (step S w e) := by
  by_cases hin : e.deviceId ∈ w.graph.ids
  · rcases step_known (S := S) hw hin with ⟨hsame, horder, hinserted⟩
    left
    refine ⟨?_, ?_, ?_⟩
    · rw [hinserted]
      exact h.room
    · rw [horder, hsame, h.order, filter_all (List.Subset.refl _)]
    · rw [hsame, hinserted]
      exact h.length
  · rcases step_new (S := S) hw hin with ⟨hafter, horder, hinserted⟩
    rcases h.room.lt_or_eq with hroom | hfull
    · have hsame : roomIn w.graph.ids = w.graph.ids := by
        apply roomIn_room
        rw [h.length]
        exact hroom
      rw [hsame] at hafter horder
      left
      refine ⟨?_, ?_, ?_⟩
      · rw [hinserted]
        exact hroom
      · rw [horder, hafter, h.order, filter_all (List.subset_append_left _ _)]
      · rw [hafter, hinserted, List.length_append, h.length]
        rfl
    · right
      have hlen : w.graph.ids.length = maxNodes := h.length.trans hfull
      rcases roomIn_full hw.ids hlen with ⟨a, b, rest, hids, hgone, hstay, hone, hlength⟩
      refine ⟨?_, ?_, ?_⟩
      · rw [hinserted, hfull]
        exact Nat.lt_succ_self _
      · rw [hafter, List.length_append, List.length_singleton]
        exact hlength
      · have ha : a ∉ roomIn w.graph.ids ++ [e.deviceId] := by
          intro hmem
          rcases List.mem_append.mp hmem with hmem | hmem
          · exact hgone hmem
          · apply hin
            rw [← List.mem_singleton.mp hmem, hids]
            exact List.mem_cons_self
        have hb := List.mem_append_left [e.deviceId] (hstay b List.mem_cons_self)
        rw [horder, hafter, h.order,
          List.getElem?_append_left (List.getElem?_eq_some_iff.mp hone).1, hone]
        generalize roomIn w.graph.ids ++ [e.deviceId] = kept at ha hb
        rw [hids, List.filter_cons_of_neg (by simpa using ha)]
        exact @head?_filter (b :: rest) kept b rfl hb _

theorem known_step (h : Known w) : Known (step S w e) := by
  refine ⟨(serving_step h.1 e).wellFormed, ?_⟩
  rcases h.2 with hfill | hpassed
  · exact filling_step h.1 hfill
  · exact Or.inr (passed_step h.1 hpassed)

theorem kept_iff (h : Known w) : Kept S w e ↔ InTime w e := by
  have hserving : Serving S (step S w e).graph := serving_step h.1 e
  by_cases hin : e.deviceId ∈ w.graph.ids
  · have hsame := (step_known (S := S) h.1 hin).1
    refine iff_of_true ⟨hserving, ?_⟩ (Or.inl hin)
    intro id hid hgone
    rw [hsame] at hgone
    exact absurd hid hgone
  · have hafter := (step_new (S := S) h.1 hin).1
    rcases h.2 with hfill | hpassed
    · refine iff_of_true ⟨hserving, ?_⟩ (Or.inr hfill.room)
      intro id hid hgone
      rw [hafter, List.mem_append, not_or] at hgone
      rcases hfill.room.lt_or_eq with hroom | hfull
      · rw [roomIn_room (by rw [hfill.length]; exact hroom)] at hgone
        exact absurd hid hgone.1
      · rcases roomIn_full h.1.ids (hfill.length.trans hfull) with ⟨a, b, rest, hids, -, hstay, -⟩
        rw [hids] at hid
        rcases List.mem_cons.mp hid with rfl | hid
        · rw [hfill.order, hids]
          rfl
        · exact absurd (hstay id hid) hgone.1
    · have hlate : ¬InTime w e := by
        rintro (hknown | hearly)
        · exact hin hknown
        · exact absurd hpassed.many (not_lt.mpr hearly)
      refine iff_of_false ?_ hlate
      intro hkept
      rcases roomIn_full h.1.ids hpassed.full with ⟨a, b, rest, hids, hgone, -⟩
      have ha : a ∈ w.graph.ids := by
        rw [hids]
        exact List.mem_cons_self
      have hdropped : a ∉ (step S w e).graph.ids := by
        rw [hafter, List.mem_append, not_or]
        refine ⟨hgone, ?_⟩
        intro hmem
        rw [List.mem_singleton.mp hmem] at ha
        exact hin ha
      have hold := hkept.oldest a ha hdropped
      have hnodup := h.1.ids
      rw [hpassed.oldest, hids] at hold
      rw [hids] at hnodup
      cases hold
      exact (List.nodup_cons.mp hnodup).1 List.mem_cons_self

end Steps

/-- Every insert leaves a graph with its invariant, that answers as it should; and
the node that is dropped is the oldest as long as only one was dropped before. -/
theorem eviction_order_iff (es : List (Insert E)) :
    Along (step S) (fun w e => Serving S (step S w e).graph) World.start es ∧
      (Along (step S) (Kept S) World.start es ↔ Along (step S) InTime World.start es) := by
  have hany : ∀ (w : World E) (es : List (Insert E)),
      Along (step S) (fun _ _ => True) w es := fun w es => along_of_forall fun _ _ _ => trivial
  constructor
  · exact (hany World.start es).steps
      (fun w e h _ => ⟨serving_step h.1 e, known_step h⟩) known_start
  · exact Along.iff_of_steps (I := Known) (fun w e h _ => kept_iff h)
      (fun w e h _ _ => known_step h) (hany World.start es) known_start

section Crowd

variable {S} {w : World E} {es : List (Insert E)}

theorem run_new (hw : Known w) (hes : (es.map Insert.deviceId).Nodup)
    (hnew : ∀ id ∈ es.map Insert.deviceId, id ∉ w.graph.ids) :
    Known (runFrom (step S) w es) ∧
      (runFrom (step S) w es).inserted = w.inserted + es.length ∧
      ∀ id ∈ (runFrom (step S) w es).graph.ids,
        id ∈ w.graph.ids ∨ id ∈ es.map Insert.deviceId := by
  induction es generalizing w with
  | nil => exact ⟨hw, rfl, fun id hid => Or.inl hid⟩
  | cons e es ih =>
      rcases List.nodup_cons.mp hes with ⟨hfirst, hrest⟩
      have hin := hnew e.deviceId List.mem_cons_self
      rcases step_new (S := S) hw.1 hin with ⟨hafter, -, hinserted⟩
      have hids : ∀ id ∈ (step S w e).graph.ids, id ∈ w.graph.ids ∨ id = e.deviceId := by
        intro id hid
        rw [hafter] at hid
        rcases List.mem_append.mp hid with hid | hid
        · exact Or.inl (roomIn_subset _ hid)
        · exact Or.inr (List.mem_singleton.mp hid)
      have hlater : ∀ id ∈ es.map Insert.deviceId, id ∉ (step S w e).graph.ids := by
        intro id hid hmem
        rcases hids id hmem with hold | rfl
        · exact hnew id (List.mem_cons_of_mem _ hid) hold
        · exact hfirst hid
      rcases ih (known_step hw) hrest hlater with ⟨hknown, hcount, hall⟩
      refine ⟨hknown, ?_, ?_⟩
      · rw [runFrom_cons, hcount, hinserted, List.length_cons]
        omega
      · intro id hid
        rcases hall id hid with hid | hid
        · rcases hids id hid with hid | rfl
          · exact Or.inl hid
          · exact Or.inr List.mem_cons_self
        · exact Or.inr (List.mem_cons_of_mem _ hid)

theorem not_kept_of_crowd {e : Insert E} (hes : ((es ++ [e]).map Insert.deviceId).Nodup)
    (hmany : maxNodes < es.length) : ¬Along (step S) (Kept S) World.start (es ++ [e]) := by
  rw [List.map_append, List.map_singleton, ← List.concat_eq_append, List.nodup_concat] at hes
  rcases run_new (S := S) known_start hes.2 (fun _ _ => List.not_mem_nil) with
    ⟨hknown, hcount, hall⟩
  intro hrun
  have hlast := (along_append _ es [e]).mp hrun
  rcases (kept_iff hknown).mp hlast.2.1 with hin | hearly
  · rcases hall e.deviceId hin with hnone | hmem
    · exact absurd hnone List.not_mem_nil
    · exact hes.1 hmem
  · rw [hcount] at hearly
    have hstart : (World.start : World E).inserted = 0 := rfl
    omega

end Crowd

/-! ## Unit vectors -/

section Sorted

variable (K : Metric E D)

theorem nearer_iff (x y : D × ℕ) :
    nearer K x y = true ↔ K.le x.1 y.1 = false ∨ (K.le y.1 x.1 = true ∧ y.2 ≤ x.2) := by
  unfold nearer Metric.lt
  simp

theorem le_or_le (a b : D) : K.le a b = true ∨ K.le b a = true := by
  have htotal := K.total a b
  rwa [Bool.or_eq_true] at htotal

theorem nearer_total (x y : D × ℕ) : nearer K x y || nearer K y x := by
  rw [Bool.or_eq_true, nearer_iff, nearer_iff]
  cases hxy : K.le x.1 y.1 with
  | false => exact Or.inl (Or.inl rfl)
  | true =>
      cases hyx : K.le y.1 x.1 with
      | false => exact Or.inr (Or.inl rfl)
      | true => exact (le_total y.2 x.2).imp (fun h => Or.inr ⟨rfl, h⟩) fun h => Or.inr ⟨rfl, h⟩

theorem nearer_trans (x y z : D × ℕ) (hxy : nearer K x y) (hyz : nearer K y z) :
    nearer K x z := by
  rw [nearer_iff] at *
  have hyx : K.le y.1 x.1 = true := by
    rcases hxy with hfar | hnear
    · exact (le_or_le K x.1 y.1).resolve_left (by simp [hfar])
    · exact hnear.1
  have hzy : K.le z.1 y.1 = true := by
    rcases hyz with hfar | hnear
    · exact (le_or_le K y.1 z.1).resolve_left (by simp [hfar])
    · exact hnear.1
  cases hxz : K.le x.1 z.1 with
  | false => exact Or.inl rfl
  | true =>
      have hxy' : K.le x.1 y.1 = true := K.trans _ _ _ hxz hzy
      have hyz' : K.le y.1 z.1 = true := K.trans _ _ _ hyx hxz
      rw [hxy'] at hxy
      rw [hyz'] at hyz
      have hfirst := (hxy.resolve_left Bool.noConfusion).2
      have hsecond := (hyz.resolve_left Bool.noConfusion).2
      exact Or.inr ⟨K.trans _ _ _ hzy hyx, hsecond.trans hfirst⟩

theorem farther_total (x y : Cand D) : farther K x y || farther K y x := K.total x.2 y.2

theorem farther_trans (x y z : Cand D) (hxy : farther K x y) (hyz : farther K y z) :
    farther K x z := K.trans x.2 y.2 z.2 hxy hyz

def Metric.sorted (assignLevel : String → ℕ) : Setting E D where
  toMetric := K
  assignLevel := assignLevel
  candidates := PriorityQueue.sorted (nearer K) (nearer_total K) (nearer_trans K)
  results := PriorityQueue.sorted (farther K) (farther_total K) (farther_trans K)

end Sorted

def rationals : Metric (Fin 32 → ℚ) ℚ where
  cosineDist a b := max (1 - ∑ i, a i * b i) 0
  le a b := decide (a ≤ b)
  total a b := by
    have htotal := le_total a b
    simpa using htotal
  trans a b c hab hbc := by
    rw [decide_eq_true_iff] at *
    exact hab.trans hbc
  far := 2
  most := 2 ^ 128
  discounted d := d * (85 / 100)

def visitor (n : ℕ) : Insert (Fin 32 → ℚ) where
  deviceId := String.ofList (List.replicate (n + 1) 'd')
  emb i := if i = 0 then 1 else 0
  lsh := ""
  persist := true

theorem visitor_injective : Function.Injective fun n => (visitor n).deviceId := by
  intro n m h
  have hlist := String.ofList_injective h
  have hlength := congrArg List.length hlist
  rw [List.length_replicate, List.length_replicate] at hlength
  exact Nat.succ_injective hlength

theorem not_kept_of_visitors (n : ℕ) (hn : maxNodes < n) :
    ¬∃ assignLevel : String → ℕ, Along (step (rationals.sorted assignLevel))
      (Kept (rationals.sorted assignLevel)) World.start ((List.range (n + 1)).map visitor) := by
  rintro ⟨assignLevel, hrun⟩
  have hnodup : (((List.range (n + 1)).map visitor).map Insert.deviceId).Nodup := by
    rw [List.map_map]
    exact List.nodup_range.map visitor_injective
  rw [List.range_succ, List.map_append, List.map_singleton] at hrun hnodup
  refine not_kept_of_crowd hnodup ?_ hrun
  rw [List.length_map, List.length_range]
  exact hn

/-- The second node that is dropped is not the oldest. -/
theorem eviction_order_counterexample :
    ¬∃ assignLevel : String → ℕ, Along (step (rationals.sorted assignLevel))
      (Kept (rationals.sorted assignLevel)) World.start
      ((List.range (maxNodes + 2)).map visitor) :=
  not_kept_of_visitors (maxNodes + 1) (Nat.lt_succ_self _)

end Hnsw

end GrServer
