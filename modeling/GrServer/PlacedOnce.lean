import Mathlib.Data.List.Nodup
import Mathlib.Data.List.Perm.Subperm

/-!
# Items that stand in one place

Lists at several places hold every item at most once, and no item at two places.
Items may be moved between two places, dropped, and brought in when they are new.
-/

namespace GrServer

universe u v

variable {ι : Type u} {α : Type v}

structure PlacedOnce (items : ι → List α) : Prop where
  nodup : ∀ p, (items p).Nodup
  apart : ∀ p q x, x ∈ items p → x ∈ items q → p = q

namespace PlacedOnce

variable {items items' : ι → List α}

theorem rewriteAt (h : PlacedOnce items) {a : ι} (hother : ∀ p, p ≠ a → items' p = items p)
    (hnodup : (items' a).Nodup)
    (hfrom : ∀ x ∈ items' a, x ∈ items a ∨ ∀ p, x ∉ items p) : PlacedOnce items' where
  nodup := by
    intro p
    by_cases hp : p = a
    · rw [hp]
      exact hnodup
    · rw [hother p hp]
      exact h.nodup p
  apart := by
    have hcross : ∀ q, q ≠ a → ∀ x, x ∈ items' a → x ∉ items' q := by
      intro q hq x ha hx
      rw [hother q hq] at hx
      rcases hfrom x ha with hold | hnew
      · exact hq (h.apart a q x hold hx).symm
      · exact hnew q hx
    intro p q x hp hq
    by_cases hpa : p = a
    · subst hpa
      by_contra hne
      exact hcross q (Ne.symm hne) x hp hq
    · by_cases hqa : q = a
      · subst hqa
        exact absurd hp (hcross p hpa x hq)
      · rw [hother p hpa] at hp
        rw [hother q hqa] at hq
        exact h.apart p q x hp hq

theorem move (h : PlacedOnce items) {a b : ι} (hne : a ≠ b)
    (hother : ∀ p, p ≠ a → p ≠ b → items' p = items p)
    (hsub : (items' a ++ items' b).Subperm (items a ++ items b)) : PlacedOnce items' := by
  have hboth : (items a ++ items b).Nodup := by
    apply List.Nodup.append (h.nodup a) (h.nodup b)
    intro x ha hb
    exact hne (h.apart a b x ha hb)
  have hboth' : (items' a ++ items' b).Nodup := by
    rcases hsub with ⟨l, hperm, hsubl⟩
    exact hperm.nodup_iff.mp (hboth.sublist hsubl)
  have hparts := List.nodup_append.mp hboth'
  have hfrom : ∀ x, x ∈ items' a ∨ x ∈ items' b → x ∈ items a ∨ x ∈ items b := by
    intro x hx
    exact List.mem_append.mp (hsub.subset (List.mem_append.mpr hx))
  have hcross : ∀ q, q ≠ a → q ≠ b → ∀ x, x ∈ items' a ∨ x ∈ items' b → x ∉ items' q := by
    intro q hqa hqb x hx hq
    rw [hother q hqa hqb] at hq
    rcases hfrom x hx with ha | hb
    · exact hqa (h.apart a q x ha hq).symm
    · exact hqb (h.apart b q x hb hq).symm
  constructor
  · intro p
    by_cases hpa : p = a
    · rw [hpa]
      exact hparts.1
    by_cases hpb : p = b
    · rw [hpb]
      exact hparts.2.1
    rw [hother p hpa hpb]
    exact h.nodup p
  · have hdistinct : ∀ x, x ∈ items' a → x ∉ items' b :=
      fun x ha hb => hparts.2.2 x ha x hb rfl
    intro p q x hp hq
    by_cases hpa : p = a
    · subst hpa
      by_cases hqp : q = p
      · exact hqp.symm
      by_cases hqb : q = b
      · subst hqb
        exact absurd hq (hdistinct x hp)
      · exact absurd hq (hcross q hqp hqb x (.inl hp))
    by_cases hpb : p = b
    · subst hpb
      by_cases hqp : q = p
      · exact hqp.symm
      by_cases hqa : q = a
      · subst hqa
        exact absurd hp (hdistinct x hq)
      · exact absurd hq (hcross q hqa hqp x (.inr hp))
    by_cases hqa : q = a
    · subst hqa
      exact absurd hp (hcross p hpa hpb x (.inl hq))
    by_cases hqb : q = b
    · subst hqb
      exact absurd hp (hcross p hpa hpb x (.inr hq))
    rw [hother p hpa hpb] at hp
    rw [hother q hqa hqb] at hq
    exact h.apart p q x hp hq

end PlacedOnce

end GrServer
