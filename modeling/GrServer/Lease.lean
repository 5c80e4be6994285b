import Mathlib

/-!
# Leases

One lock with an owner and an expiry time, and what each worker believes it
holds.  A worker that was told of an expiry keeps its belief when the lock is
taken over.  `Backed` is the invariant: by the latest clock reading a belief has
expired, or it is what the lock says.
-/

namespace GrServer

namespace Lease

variable {ω : Type*}

def Backed (lock : Option (ω × ℤ)) (held : ω → Option ℤ) (clock : ℤ) : Prop :=
  ∀ w expiry, held w = some expiry → expiry < clock ∨ lock = some (w, expiry)

section Rules

variable {lock : Option (ω × ℤ)} {held : ω → Option ℤ} {clock : ℤ}

theorem backed_none (lock : Option (ω × ℤ)) (clock : ℤ) :
    Backed lock (fun _ => none) clock := by
  intro w expiry hheld
  cases hheld

theorem Backed.single
    (h : Backed lock held clock) {t : ℤ} (ht : clock ≤ t) {w w' : ω}
    {expiry expiry' : ℤ} (hw : held w = some expiry) (hlive : t ≤ expiry)
    (hw' : held w' = some expiry') (hlive' : t ≤ expiry') :
    w = w' := by
  rcases h w expiry hw with hlt | hlock
  · omega
  · rcases h w' expiry' hw' with hlt' | hlock'
    · omega
    · rw [hlock, Option.some.injEq, Prod.mk.injEq] at hlock'
      exact hlock'.1

theorem Backed.tick
    (h : Backed lock held clock) {clock' : ℤ} (hle : clock ≤ clock') :
    Backed lock held clock' := by
  intro w expiry hheld
  rcases h w expiry hheld with hlt | hlock
  · exact Or.inl (by omega)
  · exact Or.inr hlock

variable [DecidableEq ω]

theorem Backed.drop
    (h : Backed lock held clock) (w : ω) :
    Backed lock (Function.update held w none) clock := by
  intro w' expiry hheld
  by_cases hw : w' = w
  · rw [hw, Function.update_self] at hheld
    cases hheld
  · rw [Function.update_of_ne hw] at hheld
    exact h w' expiry hheld

theorem Backed.release
    (h : Backed lock held clock) {w : ω}
    (hown : ∀ owner expiry, lock = some (owner, expiry) → owner = w) :
    Backed none (Function.update held w none) clock := by
  intro w' expiry hheld
  rcases h.drop w w' expiry hheld with hlt | hlock
  · exact Or.inl hlt
  · have hw : w' = w := hown w' expiry hlock
    rw [hw, Function.update_self] at hheld
    cases hheld

theorem Backed.claim
    (h : Backed lock held clock) {now : ℤ} (w : ω) (expiry : ℤ)
    (hexpired : ∀ owner old, lock = some (owner, old) → old < now) :
    Backed (some (w, expiry)) (Function.update held w (some expiry))
      (max clock now) := by
  intro w' old hheld
  by_cases hw : w' = w
  · rw [hw, Function.update_self, Option.some.injEq] at hheld
    rw [hw, hheld]
    exact Or.inr rfl
  · rw [Function.update_of_ne hw] at hheld
    rcases h w' old hheld with hlt | hlock
    · exact Or.inl (by omega)
    · have hold := hexpired w' old hlock
      exact Or.inl (by omega)

end Rules

end Lease

end GrServer
