import Mathlib

/-!
# Taking the oldest

Entries sorted by age, a tie in list order.  What is taken from the front is
no younger than what is left behind, and an entry comes first exactly when the
entries listed before it are younger and the ones after it no older.
-/

namespace GrServer

namespace OldestFirst

variable {α ρ : Type*} [LinearOrder ρ] (age : α → ρ)

def oldestFirst (xs : List α) : List α :=
  xs.insertionSort fun x y => age x ≤ age y

variable {age}

theorem mem_oldestFirst {xs : List α} {x : α} : x ∈ oldestFirst age xs ↔ x ∈ xs :=
  List.mem_insertionSort _

theorem pairwise_oldestFirst (xs : List α) :
    (oldestFirst age xs).Pairwise fun x y => age x ≤ age y := by
  have : Std.Total fun x y : α => age x ≤ age y := ⟨fun x y => le_total (age x) (age y)⟩
  have : IsTrans α fun x y => age x ≤ age y := ⟨fun _ _ _ hxy hyz => hxy.trans hyz⟩
  exact List.pairwise_insertionSort _ xs

theorem taken_le_left {xs : List α} {n : ℕ} {x y : α}
    (hx : x ∈ (oldestFirst age xs).take n) (hy : y ∈ xs)
    (hleft : y ∉ (oldestFirst age xs).take n) : age x ≤ age y := by
  have hsorted := @pairwise_oldestFirst α ρ _ age xs
  rw [← List.take_append_drop n (oldestFirst age xs), List.pairwise_append] at hsorted
  have hmem : y ∈ (oldestFirst age xs).take n ++ (oldestFirst age xs).drop n := by
    rw [List.take_append_drop]
    exact mem_oldestFirst.mpr hy
  have hdrop := (List.mem_append.mp hmem).resolve_left hleft
  exact hsorted.2.2 x hx y hdrop

theorem head?_le {xs : List α} {x : α} (h : (oldestFirst age xs).head? = some x) :
    ∀ y ∈ xs, age x ≤ age y := by
  intro y hy
  have hsorted := @pairwise_oldestFirst α ρ _ age xs
  obtain ⟨rest, hrest⟩ := List.head?_eq_some_iff.mp h
  have hmem : y ∈ oldestFirst age xs := mem_oldestFirst.mpr hy
  rw [hrest] at hsorted hmem
  rcases List.mem_cons.mp hmem with hsame | hmem
  · rw [hsame]
  · exact (List.pairwise_cons.mp hsorted).1 y hmem

theorem head?_cons (x : α) (xs : List α) :
    (oldestFirst age (x :: xs)).head? =
      match (oldestFirst age xs).head? with
      | none => some x
      | some y => if age x ≤ age y then some x else some y := by
  change (List.orderedInsert _ x (oldestFirst age xs)).head? = _
  cases oldestFirst age xs with
  | nil => rfl
  | cons y ys =>
      rw [List.orderedInsert_cons]
      by_cases hle : age x ≤ age y <;> simp [hle]

theorem head?_isSome {xs : List α} (h : xs ≠ []) : (oldestFirst age xs).head?.isSome = true := by
  obtain ⟨x, hx⟩ := List.exists_mem_of_ne_nil xs h
  cases hsort : oldestFirst age xs with
  | nil =>
      have hmem := @mem_oldestFirst α ρ _ age xs x
      rw [hsort] at hmem
      exact absurd (hmem.mpr hx) List.not_mem_nil
  | cons y ys => rfl

theorem head?_eq_iff {front back : List α} {x : α} (hfront : x ∉ front) :
    (oldestFirst age (front ++ x :: back)).head? = some x ↔
      (∀ y ∈ front, age x < age y) ∧ ∀ y ∈ back, age x ≤ age y := by
  induction front with
  | nil =>
      rw [List.nil_append]
      constructor
      · intro h
        have hle := head?_le h
        exact ⟨fun y hy => absurd hy List.not_mem_nil,
          fun y hy => hle y (List.mem_cons_of_mem _ hy)⟩
      · intro h
        rw [head?_cons]
        cases hback : (oldestFirst age back).head? with
        | none => rfl
        | some y =>
            have hy : y ∈ back := mem_oldestFirst.mp (List.mem_of_head? hback)
            exact if_pos (h.2 y hy)
  | cons f front ih =>
      rw [List.mem_cons, not_or] at hfront
      obtain ⟨hne, hfront⟩ := hfront
      have hih := ih hfront
      have hsome := @head?_isSome α ρ _ age (front ++ x :: back) (by simp)
      obtain ⟨y, hy⟩ := Option.isSome_iff_exists.mp hsome
      rw [List.cons_append, head?_cons, hy]
      rw [hy, Option.some.injEq] at hih
      dsimp only
      constructor
      · intro h
        split_ifs at h with hle
        · exact absurd (Option.some.inj h).symm hne
        · have hyx : y = x := Option.some.inj h
          obtain ⟨hlt, hback⟩ := hih.mp hyx
          refine ⟨?_, hback⟩
          intro z hz
          rcases List.mem_cons.mp hz with hz | hz
          · rw [hz, ← hyx]
            exact not_le.mp hle
          · exact hlt z hz
      · intro h
        have hyx : y = x :=
          hih.mpr ⟨fun z hz => h.1 z (List.mem_cons_of_mem _ hz), h.2⟩
        have hlt : age x < age f := h.1 f List.mem_cons_self
        rw [hyx, if_neg (not_le.mpr hlt)]

theorem pair_sublist_iff {front back : List α} {x k : α} (hback : x ∉ back) :
    [k, x].Sublist (front ++ x :: back) ↔ k ∈ front := by
  constructor
  · intro hsub
    obtain ⟨l₁, l₂, hsplit, hl₁, hl₂⟩ := List.sublist_append_iff.mp hsub
    cases l₁ with
    | nil =>
        rw [List.nil_append] at hsplit
        subst hsplit
        have hlast : [x].Sublist back := by
          cases hl₂ with
          | cons _ hsub => exact (List.sublist_cons_self _ _).trans hsub
          | cons_cons _ hsub => exact hsub
        exact absurd (List.singleton_sublist.mp hlast) hback
    | cons y l₁ =>
        have hy : k = y := (List.cons.inj hsplit).1
        rw [hy]
        exact hl₁.subset List.mem_cons_self
  · intro hk
    have hright : [x].Sublist (x :: back) := by simp
    exact (List.singleton_sublist.mpr hk).append hright

end OldestFirst

end GrServer
