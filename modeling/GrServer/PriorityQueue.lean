import Mathlib

/-!
# Priority queues

A binary heap as its documentation has it: what is in it, and a top that
outranks whatever else is in it.  Which of several equals is the top, and the
order in which the rest is handed out, is left to the queue.
-/

namespace GrServer

structure PriorityQueue (α : Type) (le : α → α → Bool) where
  Queue : Type
  empty : Queue
  push : α → Queue → Queue
  pop : Queue → Option (α × Queue)
  items : Queue → List α
  items_empty : items empty = []
  items_push : ∀ x q, (items (push x q)).Perm (x :: items q)
  pop_none : ∀ q, pop q = none ↔ items q = []
  pop_some : ∀ q x r, pop q = some (x, r) → (items q).Perm (x :: items r)
  pop_top : ∀ q x r, pop q = some (x, r) → ∀ y ∈ items q, le y x

namespace PriorityQueue

variable {α : Type} {le : α → α → Bool} (H : PriorityQueue α le)

def peek (q : H.Queue) : Option α := (H.pop q).map Prod.fst

def dropTop (q : H.Queue) : H.Queue :=
  match H.pop q with
  | some (_, r) => r
  | none => q

variable {H} {q r : H.Queue} {x y : α}

theorem mem_push : y ∈ H.items (H.push x q) ↔ y = x ∨ y ∈ H.items q := by
  rw [(H.items_push x q).mem_iff, List.mem_cons]

theorem length_push : (H.items (H.push x q)).length = (H.items q).length + 1 :=
  (H.items_push x q).length_eq

theorem length_pop (h : H.pop q = some (x, r)) : (H.items q).length = (H.items r).length + 1 :=
  (H.pop_some q x r h).length_eq

theorem mem_of_mem_pop (h : H.pop q = some (x, r)) (hy : y ∈ H.items r) : y ∈ H.items q := by
  rw [(H.pop_some q x r h).mem_iff]
  exact List.mem_cons_of_mem x hy

theorem dropTop_subperm (q : H.Queue) : (H.items (H.dropTop q)).Subperm (H.items q) := by
  unfold dropTop
  cases hpop : H.pop q with
  | none => exact List.Subperm.refl _
  | some p =>
      have hperm := H.pop_some q p.1 p.2 hpop
      exact (List.sublist_cons_self p.1 _).subperm.trans hperm.symm.subperm

def sorted (le : α → α → Bool) (total : ∀ a b, le a b || le b a)
    (trans : ∀ a b c, le a b → le b c → le a c) : PriorityQueue α le where
  Queue := { l : List α // l.Pairwise fun a b => le b a }
  empty := ⟨[], List.Pairwise.nil⟩
  push x q := ⟨(x :: q.1).mergeSort fun a b => le b a,
    List.pairwise_mergeSort (fun a b c hab hbc => trans c b a hbc hab)
      (fun a b => by rw [Bool.or_comm]; exact total a b) _⟩
  pop
    | ⟨[], _⟩ => none
    | ⟨x :: l, h⟩ => some (x, ⟨l, (List.pairwise_cons.mp h).2⟩)
  items q := q.1
  items_empty := rfl
  items_push x q := List.mergeSort_perm _ _
  pop_none q := by
    rcases q with ⟨_ | ⟨x, l⟩, h⟩
    · simp
    · simp
  pop_some q x r hpop := by
    rcases q with ⟨_ | ⟨z, l⟩, h⟩
    · cases hpop
    · cases hpop
      exact List.Perm.refl _
  pop_top q x r hpop y hy := by
    rcases q with ⟨_ | ⟨z, l⟩, h⟩
    · cases hpop
    · cases hpop
      rcases List.mem_cons.mp hy with rfl | hy
      · have hself := total y y
        rw [Bool.or_self] at hself
        exact hself
      · exact (List.pairwise_cons.mp h).1 y hy

end PriorityQueue

end GrServer
