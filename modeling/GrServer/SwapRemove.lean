import Mathlib

/-!
# Removal by the last

A table of slots that refer to each other by position.  A slot is removed by
moving the last one into it, and every reference is renamed with it: what
referred to the removed slot is gone, what referred to the last one refers to
its new place.
-/

namespace GrServer

namespace SwapRemove

variable {α β : Type*}

def swapRemove (l : List α) (i : ℕ) : List α :=
  match l.getLast? with
  | some z => (l.set i z).dropLast
  | none => []

/-- The new name of position `j`, when `i` is removed and `last` moves there. -/
def renamed (last i j : ℕ) : Option ℕ :=
  if j = i then none else if j = last then some i else if j < last then some j else none

def before (last i j : ℕ) : ℕ := if j = i then last else j

section Slots

variable {l : List α} {i j k last : ℕ}

theorem swapRemove_eq (hl : l ≠ []) :
    swapRemove l i = (l.set i (l.getLast hl)).dropLast := by
  unfold swapRemove
  rw [List.getLast?_eq_getLast_of_ne_nil hl]

theorem length_swapRemove (l : List α) (i : ℕ) : (swapRemove l i).length = l.length - 1 := by
  by_cases hl : l = []
  · subst hl
    rfl
  · rw [swapRemove_eq hl, List.length_dropLast, List.length_set]

theorem map_swapRemove (f : α → β) (l : List α) (i : ℕ) :
    (swapRemove l i).map f = swapRemove (l.map f) i := by
  by_cases hl : l = []
  · subst hl
    rfl
  · have hmap : l.map f ≠ [] := fun h => hl (List.map_eq_nil_iff.mp h)
    rw [swapRemove_eq hl, swapRemove_eq hmap, List.map_dropLast, List.map_set, List.getLast_map]

theorem getElem?_swapRemove (hlast : l.length = last + 1) (hj : j < last) :
    (swapRemove l i)[j]? = l[before last i j]? := by
  have hl : l ≠ [] := by
    intro h
    rw [h] at hlast
    cases hlast
  rw [swapRemove_eq hl, List.getElem?_dropLast, if_pos (by rw [List.length_set]; omega),
    List.getElem?_set]
  unfold before
  by_cases hij : i = j
  · rw [if_pos hij, if_pos (by omega), if_pos hij.symm, List.getLast_eq_getElem,
      List.getElem?_eq_getElem (by omega)]
    congr 2
    omega
  · rw [if_neg hij, if_neg (Ne.symm hij)]

theorem renamed_lt (h : renamed last i j = some k) (hi : i ≤ last) : k < last := by
  unfold renamed at h
  split_ifs at h
  all_goals
    cases h
    omega

theorem before_renamed (h : renamed last i j = some k) : before last i k = j := by
  unfold renamed at h
  unfold before
  split_ifs at h ⊢
  all_goals
    cases h
    omega

theorem renamed_before (hj : j < last) : renamed last i (before last i j) = some j := by
  unfold before renamed
  split_ifs
  all_goals
    first
      | rfl
      | omega
      | (congr 1; omega)

theorem renamed_inj {j' : ℕ} (h : renamed last i j = some k) (h' : renamed last i j' = some k) :
    j = j' := by
  rw [← before_renamed h, ← before_renamed h']

theorem getElem?_renamed (hlast : l.length = last + 1) (hi : i ≤ last)
    (h : renamed last i j = some k) : (swapRemove l i)[k]? = l[j]? := by
  rw [getElem?_swapRemove hlast (renamed_lt h hi), before_renamed h]

theorem swapRemove_last (xs : List α) (x : α) : swapRemove (xs ++ [x]) xs.length = xs := by
  unfold swapRemove
  rw [List.getLast?_concat]
  simp

theorem swapRemove_middle (xs ys : List α) (x z : α) :
    swapRemove (xs ++ x :: (ys ++ [z])) xs.length = xs ++ z :: ys := by
  have hsplit : xs ++ x :: (ys ++ [z]) = (xs ++ x :: ys) ++ [z] := by simp
  have hset : (xs ++ x :: ys ++ [z]).set xs.length z = (xs ++ z :: ys) ++ [z] := by simp
  unfold swapRemove
  rw [hsplit, List.getLast?_concat]
  dsimp only
  rw [hset, List.dropLast_concat]

theorem swapRemove_perm {x : α} (hx : l[i]? = some x) : l.Perm (x :: swapRemove l i) := by
  rcases List.getElem?_eq_some_iff.mp hx with ⟨hi, rfl⟩
  have hsplit : l = l.take i ++ l[i] :: l.drop (i + 1) := by
    rw [List.cons_getElem_drop_succ, List.take_append_drop]
  have hlen : (l.take i).length = i := by
    rw [List.length_take]
    omega
  generalize l[i] = x at hsplit ⊢
  generalize l.take i = xs at hsplit hlen
  generalize l.drop (i + 1) = ys at hsplit
  subst hlen hsplit
  rcases List.eq_nil_or_concat ys with rfl | ⟨zs, z, rfl⟩
  · rw [swapRemove_last]
    exact List.perm_append_singleton x xs
  · rw [List.concat_eq_append, swapRemove_middle]
    refine List.perm_middle.trans (List.Perm.cons x ?_)
    refine (List.Perm.append_left xs (List.perm_append_singleton z zs)).trans ?_
    exact List.Perm.refl _

end Slots

end SwapRemove

end GrServer
