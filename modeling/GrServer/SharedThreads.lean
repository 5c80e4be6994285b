import Mathlib

/-!
# Threads over a shared state

Every thread relies on something of the shared state and of its own state, and
any two threads stand in a relation.  A step of one thread keeps all of this when
it keeps what that thread relies on and does not disturb the others.
-/

namespace GrServer

namespace SharedThreads

universe u v w

variable {ι : Type u} [DecidableEq ι] {σ : Type v} {τ : Type w}

structure Threads (ι : Type u) (σ : Type v) (τ : Type w) where
  shared : σ
  locals : ι → Option τ

namespace Threads

def move (s : Threads ι σ τ) (i : ι) (shared : σ) (t : τ) : Threads ι σ τ where
  shared := shared
  locals := Function.update s.locals i (some t)

variable {s : Threads ι σ τ} {i j : ι} {shared : σ} {t u : τ}

theorem locals_move_self : (s.move i shared t).locals i = some t := Function.update_self i _ _

theorem locals_move_ne (h : j ≠ i) : (s.move i shared t).locals j = s.locals j :=
  Function.update_of_ne h _ _

theorem locals_move_eq_some (h : (s.move i shared t).locals j = some u) :
    j = i ∧ u = t ∨ j ≠ i ∧ s.locals j = some u := by
  by_cases hj : j = i
  · subst hj
    rw [locals_move_self] at h
    exact Or.inl ⟨rfl, (Option.some.inj h).symm⟩
  · rw [locals_move_ne hj] at h
    exact Or.inr ⟨hj, h⟩

end Threads

structure Rely (I : σ → τ → Prop) (R : τ → τ → Prop) (s : Threads ι σ τ) : Prop where
  each : ∀ i t, s.locals i = some t → I s.shared t
  pair : ∀ i j t u, i ≠ j → s.locals i = some t → s.locals j = some u → R t u

section Rules

variable {I : σ → τ → Prop} {R : τ → τ → Prop} {s : Threads ι σ τ} {i : ι} {shared : σ} {t t' : τ}

theorem Rely.spawn (h : Rely I R s) (hnone : s.locals i = none) (hown : I s.shared t)
    (hpair : ∀ j u, s.locals j = some u → R t u ∧ R u t) : Rely I R (s.move i s.shared t) := by
  constructor
  · intro j u hu
    rcases Threads.locals_move_eq_some hu with ⟨-, rfl⟩ | ⟨-, hold⟩
    · exact hown
    · exact h.each j u hold
  · intro j k u v hne hu hv
    rcases Threads.locals_move_eq_some hu with ⟨rfl, rfl⟩ | ⟨-, hold⟩
    · rcases Threads.locals_move_eq_some hv with ⟨rfl, rfl⟩ | ⟨-, hold'⟩
      · exact absurd rfl hne
      · exact (hpair k v hold').1
    · rcases Threads.locals_move_eq_some hv with ⟨rfl, rfl⟩ | ⟨-, hold'⟩
      · exact (hpair j u hold).2
      · exact h.pair j k u v hne hold hold'

theorem Rely.move (h : Rely I R s) (ht : s.locals i = some t) (hown : I shared t')
    (hto : ∀ u, R t u → R t' u) (hfrom : ∀ u, R u t → R u t')
    (hothers : ∀ u, R t u → R u t → I s.shared u → I shared u) :
    Rely I R (s.move i shared t') := by
  constructor
  · intro j u hu
    rcases Threads.locals_move_eq_some hu with ⟨-, rfl⟩ | ⟨hne, hold⟩
    · exact hown
    · exact hothers u (h.pair i j t u hne.symm ht hold) (h.pair j i u t hne hold ht)
        (h.each j u hold)
  · intro j k u v hne hu hv
    rcases Threads.locals_move_eq_some hu with ⟨rfl, rfl⟩ | ⟨-, hold⟩
    · rcases Threads.locals_move_eq_some hv with ⟨rfl, rfl⟩ | ⟨-, hold'⟩
      · exact absurd rfl hne
      · exact hto v (h.pair j k t v hne ht hold')
    · rcases Threads.locals_move_eq_some hv with ⟨rfl, rfl⟩ | ⟨-, hold'⟩
      · exact hfrom u (h.pair j k u t hne hold ht)
      · exact h.pair j k u v hne hold hold'

omit [DecidableEq ι] in
theorem Rely.drift (h : Rely I R s) (hall : ∀ u, I s.shared u → I shared u) :
    Rely I R { s with shared := shared } :=
  ⟨fun i t ht => hall t (h.each i t ht), h.pair⟩

end Rules

end SharedThreads

end GrServer
