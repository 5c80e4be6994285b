import Mathlib

/-!
# Assembling a stream from pieces

Pieces of a stream are laid out by their offsets and the result is what is
contiguous from the start.  Of slices of one stream the result is its beginning
as far as the slices reach without a gap, in whatever order and however often
they come.
-/

namespace GrServer

namespace PieceAssembly

variable {α : Type*}

abbrev Piece (α : Type*) := ℕ × List α

def fill (cells : List (Option α)) (p : Piece α) : List (Option α) :=
  cells.mapIdx fun i cell =>
    if p.1 ≤ i ∧ i < p.1 + p.2.length then p.2[i - p.1]? else cell

def farEnd (ps : List (Piece α)) : ℕ :=
  ps.foldl (fun n p => max n (p.1 + p.2.length)) 0

/-- The contiguous beginning, of a stream of at most `cap` elements. -/
def assemble (cap : ℕ) (ps : List (Piece α)) : List α :=
  ((ps.foldl fill (List.replicate (min (farEnd ps) cap) none)).takeWhile
    Option.isSome).reduceOption

/-! ## Slices and coverage -/

structure IsSlice (s : List α) (p : Piece α) : Prop where
  ends : p.1 + p.2.length ≤ s.length
  same : ∀ j, j < p.2.length → p.2[j]? = s[p.1 + j]?

def Covered (ps : List (Piece α)) (i : ℕ) : Prop :=
  ∃ p ∈ ps, p.1 ≤ i ∧ i < p.1 + p.2.length

def Covers (ps : List (Piece α)) (n : ℕ) : Prop := ∀ i, i < n → Covered ps i

/-- The pieces cover the stream up to `n`, and no further. -/
structure Reaches (ps : List (Piece α)) (s : List α) (n : ℕ) : Prop where
  bound : n ≤ s.length
  covers : Covers ps n
  stops : n = s.length ∨ ¬ Covered ps n

variable {s : List α} {ps qs : List (Piece α)} {m n cap : ℕ}

instance decidableCovered (ps : List (Piece α)) (i : ℕ) : Decidable (Covered ps i) :=
  inferInstanceAs (Decidable (∃ p ∈ ps, p.1 ≤ i ∧ i < p.1 + p.2.length))

theorem Covered.mono {i : ℕ} (h : Covered ps i) (hsub : ∀ p ∈ ps, p ∈ qs) : Covered qs i := by
  obtain ⟨p, hp, hi⟩ := h
  exact ⟨p, hsub p hp, hi⟩

theorem Covers.mono (h : Covers ps n) (hsub : ∀ p ∈ ps, p ∈ qs) : Covers qs n :=
  fun i hi => (h i hi).mono hsub

theorem Reaches.mono (h : Reaches ps s m) (h' : Reaches qs s n) (hsub : ∀ p ∈ ps, p ∈ qs) :
    m ≤ n := by
  by_contra hlt
  rcases h'.stops with hend | hgap
  · have hbound := h.bound
    omega
  · exact hgap ((h.covers n (by omega)).mono hsub)

theorem Reaches.eq_length (h : Reaches ps s n) (hall : Covers ps s.length) : n = s.length := by
  rcases h.stops with hend | hgap
  · exact hend
  · by_contra hne
    exact hgap (hall n (lt_of_le_of_ne h.bound hne))

/-! ## The layout -/

theorem length_fill (cells : List (Option α)) (p : Piece α) :
    (fill cells p).length = cells.length := List.length_mapIdx

theorem length_foldl_fill (ps : List (Piece α)) (cells : List (Option α)) :
    (ps.foldl fill cells).length = cells.length := by
  induction ps generalizing cells with
  | nil => rfl
  | cons p ps ih => rw [List.foldl_cons, ih, length_fill]

theorem getElem?_fill {p : Piece α} (hp : IsSlice s p) (cells : List (Option α)) (i : ℕ) :
    (fill cells p)[i]? =
      cells[i]?.map fun cell => if p.1 ≤ i ∧ i < p.1 + p.2.length then s[i]? else cell := by
  unfold fill
  rw [List.getElem?_mapIdx]
  congr 1
  funext cell
  split_ifs with hin
  · have hsame := hp.same (i - p.1) (by omega)
    rw [hsame, Nat.add_sub_cancel' hin.1]
  · rfl

theorem getElem?_foldl_fill (hps : ∀ p ∈ ps, IsSlice s p) (cells : List (Option α)) (i : ℕ) :
    (ps.foldl fill cells)[i]? =
      cells[i]?.map fun cell => if Covered ps i then s[i]? else cell := by
  induction ps generalizing cells with
  | nil =>
      have hnone : ¬ Covered ([] : List (Piece α)) i := by
        rintro ⟨p, hp, -⟩
        cases hp
      simp [hnone]
  | cons p ps ih =>
      rw [List.foldl_cons, ih (fun q hq => hps q (List.mem_cons_of_mem p hq)),
        getElem?_fill (hps p List.mem_cons_self), Option.map_map]
      congr 1
      funext cell
      have hcons : Covered (p :: ps) i ↔ (p.1 ≤ i ∧ i < p.1 + p.2.length) ∨ Covered ps i := by
        unfold Covered
        simp
      by_cases hrest : Covered ps i
      · simp [hcons, hrest]
      · by_cases hhere : p.1 ≤ i ∧ i < p.1 + p.2.length
        · simp [hcons, hrest, hhere]
        · simp only [hcons, hrest, hhere, or_self, if_false, Function.comp_apply]

theorem le_farEnd {p : Piece α} (hp : p ∈ ps) : p.1 + p.2.length ≤ farEnd ps := by
  have hmax : ∀ (ps : List (Piece α)) (n : ℕ),
      n ≤ ps.foldl (fun n p => max n (p.1 + p.2.length)) n ∧
        ∀ p ∈ ps, p.1 + p.2.length ≤ ps.foldl (fun n p => max n (p.1 + p.2.length)) n := by
    intro ps
    induction ps with
    | nil => exact fun n => ⟨le_rfl, nofun⟩
    | cons q ps ih =>
        intro n
        obtain ⟨hstart, hall⟩ := ih (max n (q.1 + q.2.length))
        rw [List.foldl_cons]
        refine ⟨le_trans (le_max_left _ _) hstart, ?_⟩
        intro p hp
        rcases List.mem_cons.mp hp with rfl | hp
        · exact le_trans (le_max_right _ _) hstart
        · exact hall p hp
  exact (hmax ps 0).2 p hp

theorem farEnd_le (hps : ∀ p ∈ ps, p.1 + p.2.length ≤ n) : farEnd ps ≤ n := by
  have hfold : ∀ (ps : List (Piece α)) (m : ℕ), m ≤ n →
      (∀ p ∈ ps, p.1 + p.2.length ≤ n) →
      ps.foldl (fun n p => max n (p.1 + p.2.length)) m ≤ n := by
    intro ps
    induction ps with
    | nil => exact fun m hm _ => hm
    | cons q ps ih =>
        intro m hm hall
        exact ih _ (max_le hm (hall q List.mem_cons_self))
          fun p hp => hall p (List.mem_cons_of_mem q hp)
  exact hfold ps 0 (Nat.zero_le n) hps

theorem reduceOption_map_some (xs : List α) : (xs.map some).reduceOption = xs := by
  induction xs with
  | nil => rfl
  | cons x xs ih => rw [List.map_cons, List.reduceOption_cons_of_some, ih]

theorem takeWhile_layout {cells : List (Option α)} {C : ℕ → Prop} [DecidablePred C]
    (hlength : cells.length ≤ s.length)
    (hcell : ∀ i, i < cells.length → cells[i]? = some (if C i then s[i]? else none)) :
    ∃ n, n ≤ cells.length ∧ (∀ i, i < n → C i) ∧ (n = cells.length ∨ ¬ C n) ∧
      (cells.takeWhile Option.isSome).reduceOption = s.take n := by
  let run := cells.takeWhile Option.isSome
  have hsplit : run ++ cells.dropWhile Option.isSome = cells := List.takeWhile_append_dropWhile
  have hle : run.length ≤ cells.length := by
    have hsum := congrArg List.length hsplit
    rw [List.length_append] at hsum
    omega
  -- every cell of the run is filled, from the stream
  have hfilled : ∀ i, i < run.length → C i ∧ run[i]? = some s[i]? := by
    intro i hi
    have hrun : run[i]? = cells[i]? := by
      rw [← hsplit, List.getElem?_append_left hi]
    have hmem : run[i] ∈ run := List.getElem_mem hi
    have hsome := List.mem_takeWhile_imp hmem
    rw [hcell i (by omega), List.getElem?_eq_getElem hi, Option.some.injEq] at hrun
    by_cases hin : C i
    · rw [if_pos hin] at hrun
      exact ⟨hin, by rw [List.getElem?_eq_getElem hi, hrun]⟩
    · rw [if_neg hin] at hrun
      rw [hrun] at hsome
      cases hsome
  refine ⟨run.length, hle, fun i hi => (hfilled i hi).1, ?_, ?_⟩
  · by_cases hend : run.length < cells.length
    · right
      intro hin
      have hnext : (cells.dropWhile Option.isSome).head? = some s[run.length]? := by
        have hat := hcell run.length hend
        rw [if_pos hin, ← hsplit, List.getElem?_append_right le_rfl, Nat.sub_self] at hat
        rw [List.head?_eq_getElem?]
        exact hat
      have hlast := List.head?_dropWhile_not Option.isSome cells
      rw [hnext, List.getElem?_eq_getElem (by omega)] at hlast
      cases hlast
    · left
      omega
  · have hrun : run = (s.take run.length).map some := by
      apply List.ext_getElem?
      intro i
      by_cases hi : i < run.length
      · rw [(hfilled i hi).2, List.getElem?_map, List.getElem?_take_of_lt hi,
          List.getElem?_eq_getElem (by omega)]
        rfl
      · rw [List.getElem?_eq_none (by omega), List.getElem?_eq_none]
        rw [List.length_map, List.length_take]
        omega
    change run.reduceOption = s.take run.length
    conv_lhs => rw [hrun]
    exact reduceOption_map_some _

theorem assemble_slices (hcap : s.length ≤ cap) (hps : ∀ p ∈ ps, IsSlice s p) :
    ∃ n, Reaches ps s n ∧ assemble cap ps = s.take n := by
  have hfar : farEnd ps ≤ s.length := farEnd_le fun p hp => (hps p hp).ends
  let cells := ps.foldl fill (List.replicate (min (farEnd ps) cap) none)
  have hlength : cells.length = farEnd ps := by
    rw [length_foldl_fill, List.length_replicate]
    omega
  have hcell : ∀ i, i < cells.length →
      cells[i]? = some (if Covered ps i then s[i]? else none) := by
    intro i hi
    rw [getElem?_foldl_fill hps, List.getElem?_replicate_of_lt (by omega)]
    rfl
  obtain ⟨n, hle, hcovers, hstops, htake⟩ := takeWhile_layout (by omega) hcell
  refine ⟨n, ⟨by omega, hcovers, ?_⟩, htake⟩
  right
  rcases hstops with rfl | hgap
  · rintro ⟨p, hp, -, hin⟩
    have hfarther := le_farEnd hp
    omega
  · exact hgap

end PieceAssembly

end GrServer
