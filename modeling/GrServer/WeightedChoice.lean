import Mathlib

/-!
# Choosing by cumulative weight

A list of candidates with weights cuts the numbers below the total weight into
intervals, one for each candidate in list order.  `choose` walks the intervals
by subtracting weights, `blocks` lays them out; consecutive residues read off a
rotation of the blocks.
-/

namespace GrServer

namespace WeightedChoice

variable {α : Type*} (weight : α → ℕ)

def total (candidates : List α) : ℕ :=
  (candidates.map weight).sum

def choose : List α → ℕ → Option α
  | [], _ => none
  | a :: rest, residue =>
      if residue < weight a then some a else choose rest (residue - weight a)

def blocks (candidates : List α) : List α :=
  candidates.flatMap fun a => List.replicate (weight a) a

variable {weight}

theorem choose_mem {candidates : List α} {residue : ℕ} {a : α}
    (h : choose weight candidates residue = some a) : a ∈ candidates := by
  induction candidates generalizing residue with
  | nil => cases h
  | cons b rest ih =>
      unfold choose at h
      split_ifs at h with hlt
      · rw [Option.some.injEq] at h
        rw [h]
        exact List.mem_cons_self
      · exact List.mem_cons_of_mem _ (ih h)

theorem choose_isSome {candidates : List α} {residue : ℕ}
    (h : residue < total weight candidates) :
    (choose weight candidates residue).isSome := by
  induction candidates generalizing residue with
  | nil =>
      unfold total at h
      simp at h
  | cons a rest ih =>
      unfold choose
      split_ifs with hlt
      · rfl
      · apply ih
        have htotal : total weight (a :: rest) = weight a + total weight rest := by
          simp [total]
        omega

theorem total_pos {candidates : List α} (hne : candidates ≠ [])
    (hpos : ∀ a ∈ candidates, 0 < weight a) : 0 < total weight candidates := by
  cases candidates with
  | nil => exact absurd rfl hne
  | cons a rest =>
      have ha : 0 < weight a := hpos a List.mem_cons_self
      have htotal : total weight (a :: rest) = weight a + total weight rest := by
        simp [total]
      omega

theorem blocks_cons (a : α) (rest : List α) :
    blocks weight (a :: rest) = List.replicate (weight a) a ++ blocks weight rest :=
  List.flatMap_cons

theorem length_blocks (candidates : List α) :
    (blocks weight candidates).length = total weight candidates := by
  induction candidates with
  | nil => rfl
  | cons a rest ih =>
      have htotal : total weight (a :: rest) = weight a + total weight rest := by
        simp [total]
      rw [blocks_cons, List.length_append, List.length_replicate, ih, htotal]

theorem choose_eq_blocks (candidates : List α) (residue : ℕ) :
    choose weight candidates residue = (blocks weight candidates)[residue]? := by
  induction candidates generalizing residue with
  | nil => rfl
  | cons a rest ih =>
      rw [choose, blocks_cons]
      by_cases hlt : residue < weight a
      · have hfront : residue < (List.replicate (weight a) a).length := by simpa using hlt
        rw [if_pos hlt, List.getElem?_append_left hfront, List.getElem?_replicate, if_pos hlt]
      · have hback : (List.replicate (weight a) a).length ≤ residue := by simpa using hlt
        rw [if_neg hlt, List.getElem?_append_right hback, List.length_replicate, ih]

theorem count_blocks_of_not_mem [DecidableEq α] {candidates : List α} {a : α}
    (h : a ∉ candidates) : (blocks weight candidates).count a = 0 := by
  rw [List.count_eq_zero]
  intro hmem
  obtain ⟨b, hb, ha⟩ := List.mem_flatMap.mp hmem
  rw [List.eq_of_mem_replicate ha] at h
  exact h hb

theorem count_blocks [DecidableEq α] {candidates : List α} (hnodup : candidates.Nodup) {a : α}
    (h : a ∈ candidates) : (blocks weight candidates).count a = weight a := by
  induction candidates with
  | nil => cases h
  | cons b rest ih =>
      obtain ⟨hb, hrest⟩ := List.nodup_cons.mp hnodup
      rw [blocks_cons, List.count_append, List.count_replicate]
      by_cases hab : b = a
      · subst hab
        rw [count_blocks_of_not_mem hb]
        simp
      · have hmem : a ∈ rest := (List.mem_cons.mp h).resolve_left (Ne.symm hab)
        rw [ih hrest hmem]
        simp [hab]

theorem sorted_blocks [LinearOrder α] {candidates : List α}
    (h : candidates.Pairwise (· < ·)) : (blocks weight candidates).Pairwise (· ≤ ·) := by
  induction candidates with
  | nil => exact List.Pairwise.nil
  | cons a rest ih =>
      obtain ⟨hhead, htail⟩ := List.pairwise_cons.mp h
      rw [blocks_cons, List.pairwise_append]
      refine ⟨List.pairwise_replicate.mpr (Or.inr le_rfl), ih htail, ?_⟩
      intro b hb c hc
      obtain ⟨d, hd, hcd⟩ := List.mem_flatMap.mp hc
      rw [List.eq_of_mem_replicate hb, List.eq_of_mem_replicate hcd]
      exact (hhead d hd).le

theorem round_eq_rotate (candidates : List α) (r : ℕ) :
    ((List.range (total weight candidates)).map fun k =>
        choose weight candidates ((r + k) % total weight candidates)) =
      ((blocks weight candidates).rotate (r % total weight candidates)).map some := by
  apply List.ext_getElem?
  intro k
  rw [← length_blocks]
  by_cases hk : k < (blocks weight candidates).length
  · have hpos : 0 < (blocks weight candidates).length := by omega
    have hindex : (k + r % (blocks weight candidates).length) %
        (blocks weight candidates).length = (r + k) % (blocks weight candidates).length := by
      rw [Nat.add_mod_mod, Nat.add_comm]
    have hsome := List.getElem?_eq_getElem (Nat.mod_lt (r + k) hpos)
    simp only [List.getElem?_map, List.getElem?_range hk, Option.map_some, choose_eq_blocks,
      List.getElem?_rotate hk, hindex, hsome]
  · have hlength : ((List.range (blocks weight candidates).length).map fun k =>
        choose weight candidates ((r + k) % (blocks weight candidates).length)).length ≤ k := by
      rw [List.length_map, List.length_range]
      omega
    rw [List.getElem?_eq_none hlength, List.getElem?_eq_none]
    rw [List.length_map, List.length_rotate]
    omega

end WeightedChoice

end GrServer
