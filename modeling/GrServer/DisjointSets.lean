import Mathlib

/-!
# Disjoint sets

A parent map makes a forest when following it from any node comes to a root.
The root of a node is the name of its set.  Pointing a node at its root changes
no name; pointing one root at another merges the two sets.  Starting from the
identity and merging the ends of some links, the sets are the classes of the
equivalence that the links generate.
-/

namespace GrServer

namespace DisjointSets

open Relation

variable {α : Type*}

section Leads

inductive Leads (parent : α → α) (r : α) : ℕ → α → Prop where
  | root (hroot : parent r = r) : Leads parent r 0 r
  | step {k : ℕ} {x : α} (hne : parent x ≠ x) (hrest : Leads parent r k (parent x)) :
      Leads parent r (k + 1) x

variable {parent : α → α} {r s x : α} {k m : ℕ}

theorem Leads.isRoot (h : Leads parent r k x) : parent r = r := by
  induction h with
  | root hroot => exact hroot
  | step _ _ ih => exact ih

theorem Leads.eq_of_isRoot (h : Leads parent r k x) (hx : parent x = x) : r = x := by
  cases h with
  | root _ => rfl
  | step hne _ => exact absurd hx hne

theorem Leads.unique (h : Leads parent r k x) (h' : Leads parent s m x) : r = s ∧ k = m := by
  induction h generalizing m with
  | root hroot =>
      cases h' with
      | root _ => exact ⟨rfl, rfl⟩
      | step hne _ => exact absurd hroot hne
  | step hne _ ih =>
      cases h' with
      | root hroot => exact absurd hroot hne
      | step _ hrest =>
          rcases ih hrest with ⟨hroot, hsteps⟩
          exact ⟨hroot, congrArg (· + 1) hsteps⟩

theorem Leads.closed {P : α → Prop} (hP : ∀ y, P y → P (parent y)) (h : Leads parent r k x)
    (hx : P x) : P r := by
  induction h with
  | root _ => exact hx
  | step _ _ ih => exact ih (hP _ hx)

theorem Leads.onTheWay (h : Leads parent r k x) {j : ℕ} (hj : j ≤ k) :
    ∃ y, Leads parent r j y := by
  induction h with
  | root hroot =>
      rw [Nat.le_zero.mp hj]
      exact ⟨_, .root hroot⟩
  | @step k x hne hrest ih =>
      rcases Nat.lt_or_ge k j with hlt | hle
      · have hall : j = k + 1 := by omega
        rw [hall]
        exact ⟨x, .step hne hrest⟩
      · exact ih hle

theorem Leads.length_le (h : Leads parent r k x) {inner : Finset α}
    (hinner : ∀ y, parent y ≠ y → y ∈ inner) : k ≤ inner.card := by
  have hway : ∀ j : Fin k, ∃ y, Leads parent r (j + 1) y := fun j => h.onTheWay j.isLt
  choose node hnode using hway
  have hmem : ∀ j ∈ (Finset.univ : Finset (Fin k)), node j ∈ inner := by
    intro j _
    apply hinner
    cases hnode j with
    | step hne _ => exact hne
  have hinj : Set.InjOn node (Finset.univ : Finset (Fin k)) := by
    intro i _ j _ heq
    have hi := hnode i
    rw [heq] at hi
    have hsteps := (hi.unique (hnode j)).2
    exact Fin.ext (by omega)
  have hcard := Finset.card_le_card_of_injOn node hmem hinj
  rwa [Finset.card_univ, Fintype.card_fin] at hcard

end Leads

/-! ## Roots as names -/

section Roots

def Roots (parent rep : α → α) : Prop := ∀ x, ∃ k, Leads parent (rep x) k x

variable {parent rep : α → α}

theorem roots_id : Roots (id : α → α) id := fun _ => ⟨0, .root rfl⟩

theorem Roots.root (h : Roots parent rep) (x : α) : parent (rep x) = rep x := by
  rcases h x with ⟨k, hk⟩
  exact hk.isRoot

theorem Roots.eq_of_leads (h : Roots parent rep) {r x : α} {k : ℕ} (hx : Leads parent r k x) :
    r = rep x := by
  rcases h x with ⟨m, hm⟩
  exact (hx.unique hm).1

theorem Roots.rep_parent (h : Roots parent rep) (x : α) : rep (parent x) = rep x := by
  by_cases hx : parent x = x
  · rw [hx]
  · rcases h (parent x) with ⟨k, hk⟩
    exact h.eq_of_leads (.step hx hk)

variable [DecidableEq α]

theorem Roots.compress (h : Roots parent rep) (x : α) :
    Roots (Function.update parent x (rep x)) rep := by
  have hroot : ∀ y, Function.update parent x (rep x) (rep y) = rep y := by
    intro y
    by_cases hy : rep y = x
    · have hx := h.root y
      rw [hy] at hx ⊢
      rcases h x with ⟨k, hk⟩
      rw [Function.update_self]
      exact hk.eq_of_isRoot hx
    · rw [Function.update_of_ne hy]
      exact h.root y
  have hway : ∀ {r y : α} {k : ℕ}, Leads parent r k y → r = rep y →
      ∃ m, Leads (Function.update parent x (rep x)) r m y := by
    intro r y k hy
    induction hy with
    | root _ =>
        intro hr
        refine ⟨0, .root ?_⟩
        have hself := hroot r
        rwa [← hr] at hself
    | @step k y hne hrest ih =>
        intro hr
        by_cases hyx : y = x
        · subst hyx
          have hself : Function.update parent y (rep y) y = rep y := Function.update_self ..
          refine ⟨1, .step ?_ ?_⟩
          · rw [hself]
            intro heq
            have hfix := h.root y
            rw [heq] at hfix
            exact hne hfix
          · rw [hself, hr]
            exact .root (hroot y)
        · have hother : Function.update parent x (rep x) y = parent y :=
            Function.update_of_ne hyx ..
          rcases ih (hr.trans (h.rep_parent y).symm) with ⟨m, hm⟩
          refine ⟨m + 1, .step ?_ ?_⟩
          · rwa [hother]
          · rwa [hother]
  intro y
  rcases h y with ⟨k, hk⟩
  exact hway hk rfl

def merge (rep : α → α) (a b y : α) : α := if rep y = rep a then rep b else rep y

theorem merge_of_eq {a b : α} (hab : rep a = rep b) : merge rep a b = rep := by
  funext y
  unfold merge
  split_ifs with hy
  · rw [hy, hab]
  · rfl

theorem Roots.link (h : Roots parent rep) {a b : α} (hab : rep a ≠ rep b) :
    Roots (Function.update parent (rep a) (rep b)) (merge rep a b) := by
  have hself : Function.update parent (rep a) (rep b) (rep a) = rep b := Function.update_self ..
  have hb : Function.update parent (rep a) (rep b) (rep b) = rep b := by
    rw [Function.update_of_ne hab.symm]
    exact h.root b
  have hway : ∀ {r y : α} {k : ℕ}, Leads parent r k y → r = rep y →
      ∃ m, Leads (Function.update parent (rep a) (rep b)) (merge rep a b y) m y := by
    intro r y k hy
    induction hy with
    | root hroot =>
        intro hr
        unfold merge
        rw [← hr]
        split_ifs with ha
        · rw [ha]
          refine ⟨1, .step ?_ ?_⟩
          · rw [hself]
            exact hab.symm
          · rw [hself]
            exact .root hb
        · refine ⟨0, .root ?_⟩
          rw [Function.update_of_ne ha]
          exact hroot
    | @step k y hne hrest ih =>
        intro hr
        have hya : y ≠ rep a := by
          rintro rfl
          exact hne (h.root a)
        have hother : Function.update parent (rep a) (rep b) y = parent y :=
          Function.update_of_ne hya ..
        rcases ih (hr.trans (h.rep_parent y).symm) with ⟨m, hm⟩
        refine ⟨m + 1, .step ?_ ?_⟩
        · rwa [hother]
        · rw [hother]
          unfold merge at hm ⊢
          rwa [h.rep_parent] at hm
  intro y
  rcases h y with ⟨k, hk⟩
  exact hway hk rfl

end Roots

section Classes

def Classifies (rep : α → α) (link : α → α → Prop) : Prop :=
  ∀ x y, rep x = rep y ↔ EqvGen link x y

variable {rep : α → α} {link link' : α → α → Prop}

theorem Classifies.congr (h : Classifies rep link) (hlink : ∀ x y, link x y ↔ link' x y) :
    Classifies rep link' := by
  have heq : link = link' := funext fun x => funext fun y => propext (hlink x y)
  rwa [← heq]

theorem classifies_id (hnone : ∀ x y, ¬ link x y) : Classifies (id : α → α) link := by
  intro x y
  constructor
  · rintro rfl
    exact .refl _
  · intro h
    induction h with
    | rel x y hxy => exact absurd hxy (hnone x y)
    | refl _ => rfl
    | symm _ _ _ ih => exact ih.symm
    | trans _ _ _ _ _ ih ih' => exact ih.trans ih'

theorem eqvGen_iff_reflTransGen (hsymm : ∀ x y, link x y → link y x) {x y : α} :
    EqvGen link x y ↔ ReflTransGen link x y := by
  have hback : ∀ {x y}, ReflTransGen link x y → ReflTransGen link y x := by
    intro x y h
    induction h with
    | refl => exact .refl
    | tail _ hlink ih => exact .head (hsymm _ _ hlink) ih
  constructor
  · intro h
    induction h with
    | rel _ _ hlink => exact .single hlink
    | refl _ => exact .refl
    | symm _ _ _ ih => exact hback ih
    | trans _ _ _ _ _ ih ih' => exact ih.trans ih'
  · intro h
    induction h with
    | refl => exact .refl _
    | tail _ hlink ih => exact .trans _ _ _ ih (.rel _ _ hlink)

theorem eqvGen_oneWay {oneWay : α → α → Prop} (hsub : ∀ x y, oneWay x y → link x y)
    (hall : ∀ x y, link x y → x = y ∨ oneWay x y ∨ oneWay y x) {x y : α} :
    EqvGen oneWay x y ↔ EqvGen link x y := by
  constructor
  · exact fun h => h.mono hsub
  · intro h
    induction h with
    | rel x y hlink =>
        rcases hall x y hlink with rfl | hxy | hyx
        · exact .refl _
        · exact .rel _ _ hxy
        · exact .symm _ _ (.rel _ _ hyx)
    | refl _ => exact .refl _
    | symm _ _ _ ih => exact .symm _ _ ih
    | trans _ _ _ _ _ ih ih' => exact .trans _ _ _ ih ih'

variable [DecidableEq α]

theorem Classifies.merge (h : Classifies rep link) (a b : α) :
    Classifies (merge rep a b) fun x y => link x y ∨ (x = a ∧ y = b) := by
  have hold : ∀ {x y}, rep x = rep y → EqvGen (fun x y => link x y ∨ (x = a ∧ y = b)) x y :=
    fun hxy => ((h _ _).mp hxy).mono fun _ _ => Or.inl
  have hnew : EqvGen (fun x y => link x y ∨ (x = a ∧ y = b)) a b := .rel _ _ (.inr ⟨rfl, rfl⟩)
  intro x y
  unfold DisjointSets.merge
  constructor
  · intro hxy
    split_ifs at hxy with hx hy hy
    · exact hold (hx.trans hy.symm)
    · exact .trans _ _ _ (.trans _ _ _ (hold hx) hnew) (hold hxy)
    · exact .trans _ _ _ (hold hxy) (.symm _ _ (.trans _ _ _ (hold hy) hnew))
    · exact hold hxy
  · intro hxy
    induction hxy with
    | rel x y hlink =>
        rcases hlink with hlink | ⟨rfl, rfl⟩
        · rw [(h x y).mpr (.rel _ _ hlink)]
        · rw [if_pos rfl]
          split_ifs <;> rfl
    | refl _ => rfl
    | symm _ _ _ ih => exact ih.symm
    | trans _ _ _ _ _ ih ih' => exact ih.trans ih'

end Classes

end DisjointSets

end GrServer
