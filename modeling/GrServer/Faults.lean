import Mathlib

/-!
# Programs that may fault

A run gives a value or a fault: an index or a slice out of range, a sum out of
the machine's range, a buffer of the wrong length, a loop that is not through
by its fuel.  `Returns m Q` says that the run gives a value, and one with `Q`.
Every operation has one rule, which names what keeps it from faulting; a loop
returns when an invariant holds and a measure falls with every round.
-/

namespace GrServer

namespace Faults

inductive Fault where
  | index
  | slice
  | overflow
  | length
  | fuel
deriving DecidableEq, Repr

abbrev Run (α : Type) := Except Fault α

/-- A slice as the language hands it out takes at most `isize::MAX` bytes. -/
structure Buffer where
  bytes : List UInt8
  fits : bytes.length < 2 ^ 63

/-! ## Operations -/

section Operations

variable {α : Type}

def index (b : List α) (i : ℕ) : Run α :=
  match b[i]? with
  | some x => .ok x
  | none => .error .index

def slice (b : List α) (i j : ℕ) : Run (List α) :=
  if i ≤ j ∧ j ≤ b.length then .ok ((b.drop i).take (j - i)) else .error .slice

def modifyAt (b : List α) (i : ℕ) (f : α → α) : Run (List α) :=
  if i < b.length then .ok (b.modify i f) else .error .index

def add (a b : ℕ) : Run ℕ := if a + b < 2 ^ 64 then .ok (a + b) else .error .overflow

def sub (a b : ℕ) : Run ℕ := if b ≤ a then .ok (a - b) else .error .overflow

def shl (v n : ℕ) : Run ℕ := if n < 64 then .ok (v <<< n % 2 ^ 64) else .error .overflow

def shr (v n : ℕ) : Run ℕ := if n < 64 then .ok (v >>> n) else .error .overflow

def copyFromSlice (n : ℕ) (b : List α) : Run (Vector α n) :=
  if h : b.length = n then .ok ⟨b.toArray, by simpa using h⟩ else .error .length

end Operations

section Loops

variable {σ : Type}

/-- A loop that is left by a round that is `done`. -/
def loop (body : σ → Run (ForInStep σ)) : ℕ → σ → Run σ
  | 0, _ => .error .fuel
  | fuel + 1, s => do
      match ← body s with
      | .yield s => loop body fuel s
      | .done s => pure s

def forRange (body : ℕ → σ → Run σ) : ℕ → ℕ → σ → Run σ
  | 0, _, s => pure s
  | n + 1, lo, s => do forRange body n (lo + 1) (← body lo s)

end Loops

/-! ## Returning -/

def Returns {α : Type} (m : Run α) (Q : α → Prop) : Prop := ∃ v, m = .ok v ∧ Q v

section Rules

variable {α β σ : Type} {Q : α → Prop} {R : β → Prop} {b : List α} {i j m n : ℕ}

theorem Returns.pure {v : α} (h : Q v) : Returns (Pure.pure v) Q := ⟨v, rfl, h⟩

theorem Returns.mono {m : Run α} {Q' : α → Prop} (h : Returns m Q) (himp : ∀ v, Q v → Q' v) :
    Returns m Q' := by
  rcases h with ⟨v, hv, hq⟩
  exact ⟨v, hv, himp v hq⟩

theorem Returns.bind {m : Run α} {k : α → Run β} (h : Returns m Q)
    (hk : ∀ v, Q v → Returns (k v) R) : Returns (m >>= k) R := by
  rcases h with ⟨v, rfl, hq⟩
  exact hk v hq

theorem bind_eq_ok {ε : Type} {m : Except ε α} {k : α → Except ε β} {v : β}
    (h : m >>= k = .ok v) :
    ∃ w, m = .ok w ∧ k w = .ok v := by
  cases m with
  | error e => cases h
  | ok w => exact ⟨w, rfl, h⟩

theorem Returns.ite {c : Prop} [Decidable c] {m m' : Run α} (h : c → Returns m Q)
    (h' : ¬c → Returns m' Q) : Returns (if c then m else m') Q := by
  split_ifs with hc
  · exact h hc
  · exact h' hc

theorem Returns.of_eq {m : Run α} {v : α} (h : Returns m Q) (hv : m = .ok v) : Q v := by
  rcases h with ⟨w, hw, hq⟩
  rw [hv] at hw
  cases hw
  exact hq

theorem returns_index (h : i < b.length) : Returns (index b i) fun x => b[i]? = some x := by
  refine ⟨b[i], ?_, List.getElem?_eq_getElem h⟩
  rw [index, List.getElem?_eq_getElem h]

theorem returns_slice (hij : i ≤ j) (hj : j ≤ b.length) :
    Returns (slice b i j) fun s => s = (b.drop i).take (j - i) ∧ s.length = j - i := by
  refine ⟨_, if_pos ⟨hij, hj⟩, rfl, ?_⟩
  rw [List.length_take, List.length_drop]
  omega

theorem returns_sliceFrom (hi : i ≤ b.length) : Returns (slice b i b.length) (· = b.drop i) := by
  refine Returns.mono (returns_slice hi le_rfl) ?_
  rintro s ⟨hs, -⟩
  rw [hs, List.take_of_length_le (by rw [List.length_drop])]

theorem returns_sliceTo (hj : j ≤ b.length) : Returns (slice b 0 j) (· = b.take j) :=
  Returns.mono (returns_slice (Nat.zero_le j) hj) fun _ hs => hs.1

theorem returns_modifyAt (f : α → α) (h : i < b.length) :
    Returns (modifyAt b i f) fun c => c = b.modify i f ∧ c.length = b.length :=
  ⟨_, if_pos h, rfl, List.length_modify ..⟩

theorem returns_add (h : m + n < 2 ^ 64) : Returns (add m n) (· = m + n) := ⟨_, if_pos h, rfl⟩

theorem returns_sub (h : n ≤ m) : Returns (sub m n) (· = m - n) := ⟨_, if_pos h, rfl⟩

theorem returns_shl (h : n < 64) : Returns (shl m n) (· = m <<< n % 2 ^ 64) :=
  ⟨_, if_pos h, rfl⟩

theorem returns_shr (h : n < 64) : Returns (shr m n) (· = m >>> n) := ⟨_, if_pos h, rfl⟩

theorem returns_copyFromSlice (h : b.length = n) :
    Returns (copyFromSlice n b) fun v => v.toList = b :=
  ⟨_, dif_pos h, rfl⟩

theorem returns_loop {f : σ → Run (ForInStep σ)} {Q I : σ → Prop} {m : σ → ℕ}
    (hf : ∀ s, I s → Returns (f s) fun
      | .yield s' => I s' ∧ m s' < m s
      | .done s' => Q s')
    {n : ℕ} {s : σ} (hs : I s) (hfuel : m s < n) : Returns (loop f n s) Q := by
  induction n generalizing s with
  | zero => omega
  | succ n ih =>
      refine (hf s hs).bind ?_
      intro r hr
      cases r with
      | yield s' =>
          have hsize : m s' < n := by
            have hlt := hr.2
            omega
          exact ih hr.1 hsize
      | done s' => exact Returns.pure hr

theorem returns_forRange {f : ℕ → σ → Run σ} {I : ℕ → σ → Prop} {a n : ℕ} {s : σ}
    (hf : ∀ k s, a ≤ k → k < a + n → I k s → Returns (f k s) (I (k + 1)))
    (hs : I a s) : Returns (forRange f n a s) (I (a + n)) := by
  induction n generalizing a s with
  | zero => exact Returns.pure hs
  | succ n ih =>
      refine (hf a s le_rfl (by omega) hs).bind ?_
      intro s' hs'
      have hrest : ∀ k s, a + 1 ≤ k → k < a + 1 + n → I k s → Returns (f k s) (I (k + 1)) :=
        fun k s hlo hhi => hf k s (by omega) (by omega)
      have hend : a + 1 + n = a + (n + 1) := by omega
      rw [← hend]
      exact ih hrest hs'

theorem returns_foldlM {f : σ → α → Run σ} {I : σ → Prop} {l : List α} {s : σ}
    (hf : ∀ s, ∀ x ∈ l, I s → Returns (f s x) I) (hs : I s) : Returns (l.foldlM f s) I := by
  induction l generalizing s with
  | nil => exact Returns.pure hs
  | cons x l ih =>
      rw [List.foldlM_cons]
      refine (hf s x List.mem_cons_self hs).bind ?_
      intro s' hs'
      exact ih (fun s y hy => hf s y (List.mem_cons_of_mem x hy)) hs'

theorem returns_mapM {f : α → Run β} {g : α → β} {l : List α}
    (hf : ∀ x ∈ l, Returns (f x) (· = g x)) : Returns (l.mapM f) (· = l.map g) := by
  induction l with
  | nil => exact Returns.pure rfl
  | cons x l ih =>
      rw [List.mapM_cons]
      refine (hf x List.mem_cons_self).bind ?_
      rintro y rfl
      refine (ih fun z hz => hf z (List.mem_cons_of_mem x hz)).bind ?_
      rintro ys rfl
      exact Returns.pure rfl

end Rules

end Faults

end GrServer
