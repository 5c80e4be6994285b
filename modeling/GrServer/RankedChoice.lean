import Mathlib

/-!
# Choice by rank

The first of a list by rank, equal ranks by key, found in two ways: by sorting
and taking the head, and by a loop that keeps the first element of strictly
greater rank.  On a list in key order they choose the same element, since it is
the only one that no other precedes.
-/

namespace GrServer

universe u v w

variable {α : Type u} {κ : Type v} {ρ : Type w} [LinearOrder κ] [LinearOrder ρ]

namespace RankedChoice

section

variable (key : α → κ) (rank : α → ρ)

/-- `a` does not come after `b`: greater rank, or equal rank and smaller key. -/
def Ahead (a b : α) : Prop :=
  rank b < rank a ∨ rank b = rank a ∧ key a ≤ key b

instance (a b : α) : Decidable (Ahead key rank a b) :=
  inferInstanceAs (Decidable (rank b < rank a ∨ rank b = rank a ∧ key a ≤ key b))

def Leads (a : α) (xs : List α) : Prop :=
  a ∈ xs ∧ ∀ b ∈ xs, Ahead key rank a b

def keepBest (best : Option α) (x : α) : Option α :=
  if best.all fun b => rank b < rank x then some x else best

end

variable {key : α → κ} {rank : α → ρ}

theorem ahead_total (a b : α) : Ahead key rank a b ∨ Ahead key rank b a := by
  rcases lt_trichotomy (rank a) (rank b) with hlt | heq | hgt
  · exact Or.inr (Or.inl hlt)
  · rcases le_total (key a) (key b) with hle | hle
    · exact Or.inl (Or.inr ⟨heq.symm, hle⟩)
    · exact Or.inr (Or.inr ⟨heq, hle⟩)
  · exact Or.inl (Or.inl hgt)

theorem ahead_trans {a b c : α} (hab : Ahead key rank a b)
    (hbc : Ahead key rank b c) : Ahead key rank a c := by
  rcases hab with hab | ⟨hab, hkab⟩
  · rcases hbc with hbc | ⟨hbc, _⟩
    · exact Or.inl (hbc.trans hab)
    · rw [← hbc] at hab
      exact Or.inl hab
  · rcases hbc with hbc | ⟨hbc, hkbc⟩
    · rw [hab] at hbc
      exact Or.inl hbc
    · exact Or.inr ⟨hbc.trans hab, hkab.trans hkbc⟩

theorem key_eq_of_ahead {a b : α} (hab : Ahead key rank a b)
    (hba : Ahead key rank b a) : key a = key b := by
  rcases hab with hab | ⟨_, hkab⟩
  · rcases hba with hba | ⟨hba, _⟩
    · exact absurd hab (lt_asymm hba)
    · exact absurd hba.symm hab.ne
  · rcases hba with hba | ⟨_, hkba⟩
    · rename_i heq
      exact absurd heq.symm hba.ne
    · exact le_antisymm hkab hkba

theorem eq_of_key_eq {xs : List α} (hxs : xs.Pairwise fun a b => key a < key b)
    {a b : α} (ha : a ∈ xs) (hb : b ∈ xs) (h : key a = key b) : a = b := by
  induction xs with
  | nil => cases ha
  | cons x xs ih =>
      obtain ⟨hhead, htail⟩ := List.pairwise_cons.mp hxs
      rcases List.mem_cons.mp ha with rfl | ha'
      · rcases List.mem_cons.mp hb with rfl | hb'
        · rfl
        · exact absurd h (hhead b hb').ne
      · rcases List.mem_cons.mp hb with rfl | hb'
        · exact absurd h.symm (hhead a ha').ne
        · exact ih htail ha' hb'

theorem Leads.unique {xs : List α} (hxs : xs.Pairwise fun a b => key a < key b)
    {a b : α} (ha : Leads key rank a xs) (hb : Leads key rank b xs) : a = b :=
  eq_of_key_eq hxs ha.1 hb.1 (key_eq_of_ahead (ha.2 b hb.1) (hb.2 a ha.1))

theorem leads_head_insertionSort {xs : List α} {a : α}
    (h : (xs.insertionSort (Ahead key rank)).head? = some a) :
    Leads key rank a xs := by
  have htotal : Std.Total (Ahead key rank) := ⟨ahead_total⟩
  have htrans : IsTrans α (Ahead key rank) := ⟨fun _ _ _ => ahead_trans⟩
  have hsorted := List.pairwise_insertionSort (Ahead key rank) xs
  obtain ⟨rest, hrest⟩ : ∃ rest, xs.insertionSort (Ahead key rank) = a :: rest := by
    cases hsort : xs.insertionSort (Ahead key rank) with
    | nil =>
        rw [hsort] at h
        cases h
    | cons x rest =>
        rw [hsort] at h
        cases h
        exact ⟨rest, rfl⟩
  rw [hrest] at hsorted
  have hmem (b : α) : b ∈ a :: rest ↔ b ∈ xs := by
    rw [← hrest]
    exact List.mem_insertionSort _
  refine ⟨(hmem a).mp List.mem_cons_self, ?_⟩
  intro b hb
  rcases List.mem_cons.mp ((hmem b).mpr hb) with rfl | hrest
  · exact (ahead_total b b).elim id id
  · exact (List.pairwise_cons.mp hsorted).1 b hrest

theorem leads_foldl_keepBest {xs seen : List α} {best : Option α} {a : α}
    (hxs : (seen ++ xs).Pairwise fun a b => key a < key b)
    (hseen : ∀ b, best = some b → Leads key rank b seen)
    (hnone : best = none → seen = [])
    (h : xs.foldl (keepBest rank) best = some a) :
    Leads key rank a (seen ++ xs) := by
  induction xs generalizing seen best with
  | nil =>
      rw [List.append_nil]
      exact hseen a h
  | cons x xs ih =>
      have hassoc : seen ++ x :: xs = (seen ++ [x]) ++ xs := by simp
      rw [hassoc] at hxs ⊢
      rw [List.foldl_cons] at h
      have hbefore : ∀ b ∈ seen, key b < key x := by
        intro b hb
        have hpair := (List.pairwise_append.mp (List.pairwise_append.mp hxs).1).2.2
        exact hpair b hb x List.mem_cons_self
      apply ih hxs ?_ ?_ h
      · intro b hb
        unfold keepBest at hb
        cases hbest : best with
        | none =>
            rw [hbest] at hb
            cases hb
            rw [hnone hbest]
            refine ⟨List.mem_cons_self, ?_⟩
            intro c hc
            rcases List.mem_cons.mp hc with rfl | hc
            · exact (ahead_total c c).elim id id
            · cases hc
        | some old =>
            rw [hbest] at hb
            have hold := hseen old hbest
            by_cases hlt : rank old < rank x
            · rw [if_pos (by simpa using hlt)] at hb
              cases hb
              refine ⟨List.mem_append_right _ List.mem_cons_self, ?_⟩
              intro c hc
              rcases List.mem_append.mp hc with hc | hc
              · exact ahead_trans (Or.inl hlt) (hold.2 c hc)
              · rcases List.mem_cons.mp hc with rfl | hc
                · exact (ahead_total c c).elim id id
                · cases hc
            · rw [if_neg (by simpa using hlt)] at hb
              rw [← Option.some.inj hb]
              refine ⟨List.mem_append_left _ hold.1, ?_⟩
              intro c hc
              rcases List.mem_append.mp hc with hc | hc
              · exact hold.2 c hc
              · rcases List.mem_cons.mp hc with rfl | hc
                · rcases lt_or_eq_of_le (not_lt.mp hlt) with hlt' | heq
                  · exact Or.inl hlt'
                  · exact Or.inr ⟨heq, (hbefore old hold.1).le⟩
                · cases hc
      · intro himpossible
        unfold keepBest at himpossible
        split_ifs at himpossible with hall
        rw [himpossible] at hall
        exact absurd rfl hall

theorem foldl_keepBest_max {xs : List α} {best : Option α} {a : α}
    (h : xs.foldl (keepBest rank) best = some a) :
    (a ∈ xs ∨ best = some a) ∧ (∀ b ∈ xs, rank b ≤ rank a) ∧
      ∀ b, best = some b → rank b ≤ rank a := by
  induction xs generalizing best with
  | nil =>
      rw [List.foldl_nil] at h
      subst h
      simp
  | cons x xs ih =>
      rw [List.foldl_cons] at h
      obtain ⟨hmem, hrest, hkept⟩ := ih h
      by_cases hbetter : (best.all fun b => rank b < rank x) = true
      · have hkeep : keepBest rank best x = some x := if_pos hbetter
        rw [hkeep] at hmem hkept
        have hx : rank x ≤ rank a := hkept x rfl
        refine ⟨?_, ?_, ?_⟩
        · rcases hmem with hmem | hmem
          · exact Or.inl (List.mem_cons_of_mem x hmem)
          · exact Or.inl (by rw [Option.some.inj hmem]; exact List.mem_cons_self)
        · intro b hb
          rcases List.mem_cons.mp hb with rfl | hb
          · exact hx
          · exact hrest b hb
        · intro b hb
          subst hb
          have hlt : rank b < rank x := by simpa using hbetter
          exact hlt.le.trans hx
      · have hkeep : keepBest rank best x = best := if_neg hbetter
        rw [hkeep] at hmem hkept
        refine ⟨hmem.imp_left (List.mem_cons_of_mem x), ?_, hkept⟩
        intro b hb
        rcases List.mem_cons.mp hb with rfl | hb
        · cases best with
          | none => simp at hbetter
          | some c =>
              have hle : rank b ≤ rank c := by simpa using hbetter
              exact hle.trans (hkept c rfl)
        · exact hrest b hb

theorem foldl_keepBest_isSome {xs : List α} {best : Option α}
    (h : best.isSome ∨ xs ≠ []) : (xs.foldl (keepBest rank) best).isSome := by
  induction xs generalizing best with
  | nil =>
      rcases h with h | h
      · exact h
      · exact absurd rfl h
  | cons x xs ih =>
      apply ih
      left
      unfold keepBest
      split_ifs with hall
      · rfl
      · cases best with
        | none => exact absurd rfl hall
        | some b => rfl

theorem foldl_keepBest_map {β : Type*} {rank' : β → ρ} {f : α → β}
    (hf : ∀ a, rank' (f a) = rank a) (xs : List α) (best : Option α) :
    (xs.map f).foldl (keepBest rank') (best.map f) =
      (xs.foldl (keepBest rank) best).map f := by
  induction xs generalizing best with
  | nil => rfl
  | cons x xs ih =>
      have hstep : keepBest rank' (best.map f) (f x) = (keepBest rank best x).map f := by
        unfold keepBest
        cases best with
        | none => rfl
        | some b =>
            by_cases hlt : rank b < rank x
            · simp [hf, hlt]
            · simp [hf, hlt]
      rw [List.map_cons, List.foldl_cons, List.foldl_cons, hstep, ih]

theorem foldl_keepBest_eq_some {xs : List α}
    (hxs : xs.Pairwise fun a b => key a < key b) {a : α} :
    xs.foldl (keepBest rank) none = some a ↔ Leads key rank a xs := by
  have hloop {b : α} (hb : xs.foldl (keepBest rank) none = some b) :
      Leads key rank b xs := by
    have hlead : Leads key rank b ([] ++ xs) := by
      apply leads_foldl_keepBest hxs ?_ ?_ hb
      · intro c hc
        cases hc
      · intro _
        rfl
    exact hlead
  constructor
  · exact hloop
  · intro hlead
    have hsome : (xs.foldl (keepBest rank) none).isSome :=
      foldl_keepBest_isSome (Or.inr (List.ne_nil_of_mem hlead.1))
    obtain ⟨b, hb⟩ := Option.isSome_iff_exists.mp hsome
    rw [hb, hlead.unique hxs (hloop hb)]

theorem head?_insertionSort_eq_foldl {xs : List α}
    (hxs : xs.Pairwise fun a b => key a < key b) :
    (xs.insertionSort (Ahead key rank)).head? = xs.foldl (keepBest rank) none := by
  cases hsort : (xs.insertionSort (Ahead key rank)).head? with
  | none =>
      have hempty : xs = [] := by
        have hlength := List.length_insertionSort (Ahead key rank) xs
        rw [List.head?_eq_none_iff.mp hsort] at hlength
        exact List.length_eq_zero_iff.mp hlength.symm
      rw [hempty]
      rfl
  | some a =>
      have hlead := leads_head_insertionSort hsort
      exact ((foldl_keepBest_eq_some hxs).mpr hlead).symm

end RankedChoice

end GrServer
