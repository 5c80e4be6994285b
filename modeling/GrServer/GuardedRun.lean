import Mathlib

/-!
# Runs of a total step function

A system here is a total function `step : σ → ε → σ`; an event that is not
enabled leaves the state as it is.  A run is the fold of `step` over a list of
events.  `Along step P s es` says that every step of the run from `s` over
`es` satisfies `P` at the state before it.

The two rules are the ones every history argument needs: what one guarded
step preserves, a whole guarded run preserves, and what one guarded step
guarantees, every step of a guarded run guarantees.
-/

namespace GrServer

universe u v

variable {σ : Type u} {ε : Type v}

def runFrom (step : σ → ε → σ) (s : σ) (es : List ε) : σ :=
  es.foldl step s

/-- Every step of the run from `s` over `es` satisfies `P`. -/
def Along (step : σ → ε → σ) (P : σ → ε → Prop) : σ → List ε → Prop
  | _, [] => True
  | s, e :: es => P s e ∧ Along step P (step s e) es

section Runs

variable {step : σ → ε → σ} {P Q : σ → ε → Prop} {I : σ → Prop}

@[simp] theorem runFrom_nil (s : σ) : runFrom step s [] = s := rfl

@[simp] theorem runFrom_cons (s : σ) (e : ε) (es : List ε) :
    runFrom step s (e :: es) = runFrom step (step s e) es := rfl

theorem runFrom_append (s : σ) (es fs : List ε) :
    runFrom step s (es ++ fs) = runFrom step (runFrom step s es) fs :=
  List.foldl_append

@[simp] theorem along_nil (s : σ) : Along step P s [] := trivial

@[simp] theorem along_cons (s : σ) (e : ε) (es : List ε) :
    Along step P s (e :: es) ↔ P s e ∧ Along step P (step s e) es := Iff.rfl

theorem along_append (s : σ) (es fs : List ε) :
    Along step P s (es ++ fs) ↔
      Along step P s es ∧ Along step P (runFrom step s es) fs := by
  induction es generalizing s with
  | nil => simp
  | cons e es ih => simp [ih, and_assoc]

theorem along_chain {q : ℕ → σ} {e : ℕ → ε} {n : ℕ}
    (h : ∀ i < n, P (q i) (e i) ∧ step (q i) (e i) = q (i + 1)) :
    Along step P (q 0) ((List.range n).map e) ∧
      runFrom step (q 0) ((List.range n).map e) = q n := by
  induction n with
  | zero => exact ⟨trivial, rfl⟩
  | succ n ih =>
      obtain ⟨hrun, hend⟩ := ih fun i hi => h i (hi.trans (Nat.lt_succ_self n))
      obtain ⟨hlast, hnext⟩ := h n (Nat.lt_succ_self n)
      rw [List.range_succ, List.map_append, along_append, runFrom_append, hend]
      exact ⟨⟨hrun, hlast, trivial⟩, hnext⟩

instance decidableAlong [∀ s e, Decidable (P s e)] :
    ∀ (s : σ) (es : List ε), Decidable (Along step P s es)
  | _, [] => isTrue trivial
  | s, e :: es =>
      haveI := decidableAlong (step s e) es
      inferInstanceAs (Decidable (P s e ∧ Along step P (step s e) es))

theorem Along.invariant
    (hstep : ∀ s e, I s → P s e → I (step s e)) {s : σ} {es : List ε}
    (hrun : Along step P s es) (hs : I s) : I (runFrom step s es) := by
  induction es generalizing s with
  | nil => exact hs
  | cons e es ih => exact ih hrun.2 (hstep s e hs hrun.1)

theorem Along.steps
    (hstep : ∀ s e, I s → P s e → Q s e ∧ I (step s e)) {s : σ} {es : List ε}
    (hrun : Along step P s es) (hs : I s) : Along step Q s es := by
  induction es generalizing s with
  | nil => trivial
  | cons e es ih =>
      obtain ⟨hq, hnext⟩ := hstep s e hs hrun.1
      exact ⟨hq, ih hrun.2 hnext⟩

theorem Along.iff_invariant
    (hstep : ∀ s e, I s → (I (step s e) ↔ P s e)) {s : σ} (hs : I s) (es : List ε) :
    Along step (fun s e => I (step s e)) s es ↔ Along step P s es := by
  induction es generalizing s with
  | nil => simp
  | cons e es ih =>
      rw [along_cons, along_cons, hstep s e hs]
      constructor
      · rintro ⟨hp, hrest⟩
        exact ⟨hp, (ih ((hstep s e hs).mpr hp)).mp hrest⟩
      · rintro ⟨hp, hrest⟩
        exact ⟨hp, (ih ((hstep s e hs).mpr hp)).mpr hrest⟩

theorem Along.iff_of_steps {G : σ → ε → Prop}
    (hstep : ∀ s e, I s → G s e → (Q s e ↔ P s e))
    (hnext : ∀ s e, I s → G s e → Q s e → I (step s e)) {s : σ} {es : List ε}
    (hrun : Along step G s es) (hs : I s) : Along step Q s es ↔ Along step P s es := by
  induction es generalizing s with
  | nil => exact Iff.rfl
  | cons e es ih =>
      have hhere := hstep s e hs hrun.1
      rw [along_cons, along_cons, ← hhere]
      constructor
      · rintro ⟨hq, hrest⟩
        exact ⟨hq, (ih hrun.2 (hnext s e hs hrun.1 hq)).mp hrest⟩
      · rintro ⟨hq, hrest⟩
        exact ⟨hq, (ih hrun.2 (hnext s e hs hrun.1 hq)).mpr hrest⟩

theorem along_of_forall {s : σ} {es : List ε} (h : ∀ s, ∀ e ∈ es, P s e) :
    Along step P s es := by
  induction es generalizing s with
  | nil => trivial
  | cons e es ih =>
      exact ⟨h s e List.mem_cons_self, ih fun s e he => h s e (List.mem_cons_of_mem _ he)⟩

theorem along_of_invariant {s : σ} {es : List ε} (hs : I s)
    (h : ∀ s, I s → ∀ e ∈ es, P s e ∧ I (step s e)) : Along step P s es := by
  induction es generalizing s with
  | nil => trivial
  | cons e es ih =>
      obtain ⟨hp, hnext⟩ := h s hs e List.mem_cons_self
      exact ⟨hp, ih hnext fun s hs e he => h s hs e (List.mem_cons_of_mem _ he)⟩

theorem Along.and {s : σ} {es : List ε} (hp : Along step P s es) (hq : Along step Q s es) :
    Along step (fun s e => P s e ∧ Q s e) s es := by
  induction es generalizing s with
  | nil => trivial
  | cons e es ih => exact ⟨⟨hp.1, hq.1⟩, ih hp.2 hq.2⟩

theorem Along.last {s : σ} {es : List ε} (h : Along step (fun s e => I (step s e)) s es)
    (hne : es ≠ []) : I (runFrom step s es) := by
  induction es generalizing s with
  | nil => exact absurd rfl hne
  | cons e es ih =>
      cases es with
      | nil => exact h.1
      | cons e' es => exact ih h.2 (List.cons_ne_nil e' es)

theorem runFrom_invariant
    (hstep : ∀ s e, I s → I (step s e)) {s : σ} (hs : I s) (es : List ε) :
    I (runFrom step s es) := by
  induction es generalizing s with
  | nil => exact hs
  | cons e es ih => exact ih (hstep s e hs)

end Runs

end GrServer
