import Mathlib.Data.List.Perm.Basic
import Mathlib.Data.List.Count

/-!
# Calls under way

Several calls are under way at once.  One of them takes its next step and gives
way to what that leaves of it; the others stay as they are.
-/

namespace GrServer

namespace UnderWay

universe u v

variable {α : Type u} {calls new : List α} {k : ℕ} {a : α} {P : α → Prop}

theorem forall_replaced (hnew : ∀ b ∈ new, P b) (hcalls : ∀ b ∈ calls, P b) :
    ∀ b ∈ new ++ calls.eraseIdx k, P b := by
  intro b hb
  rcases List.mem_append.mp hb with hmem | hrest
  · exact hnew b hmem
  · exact hcalls b (List.mem_of_mem_eraseIdx hrest)

theorem forall_some_eq (ha : P a) : ∀ b, some a = some b → P b := by
  intro b hb
  rw [← Option.some.inj hb]
  exact ha

theorem forall_none_eq : ∀ b, none = some b → P b :=
  fun b hb => absurd hb.symm (Option.some_ne_none b)

theorem countP_eraseIdx (hk : calls[k]? = some a) (p : α → Bool) :
    calls.countP p = (calls.eraseIdx k).countP p + if p a then 1 else 0 := by
  obtain ⟨hlt, ha⟩ := List.getElem?_eq_some_iff.mp hk
  have hperm := (List.getElem_cons_eraseIdx_perm hlt).countP_eq p
  rw [← hperm, List.countP_cons, ha]

theorem count_flatMap_eraseIdx {β : Type v} [DecidableEq β] (hk : calls[k]? = some a)
    (f : α → List β) (b : β) :
    (calls.flatMap f).count b = (f a).count b + ((calls.eraseIdx k).flatMap f).count b := by
  obtain ⟨hlt, ha⟩ := List.getElem?_eq_some_iff.mp hk
  have hperm := (List.getElem_cons_eraseIdx_perm hlt).flatMap_right f
  rw [← hperm.count_eq b, List.flatMap_cons, List.count_append, ha]

end UnderWay

end GrServer
