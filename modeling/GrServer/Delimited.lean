import Mathlib

/-!
# Lists joined by an unescaped separator

When a joined list determines its parts.  A separator inside a part can be
taken for one between parts, so a list of parts is the only one of its length
with its join exactly when no part contains the separator.
-/

namespace GrServer

universe u

variable {α : Type u} [DecidableEq α] {sep : α}

namespace Delimited

omit [DecidableEq α] in
theorem join_singleton (p : List α) : [sep].intercalate [p] = p := by
  simp

omit [DecidableEq α] in
theorem join_cons_cons (p q : List α) (qs : List (List α)) :
    [sep].intercalate (p :: q :: qs) = p ++ sep :: [sep].intercalate (q :: qs) := by
  simp [List.intercalate]

theorem splitOn_join {parts : List (List α)} (h : parts ≠ []) :
    ([sep].intercalate parts).splitOn sep = parts.flatMap (List.splitOn sep) := by
  induction parts with
  | nil => exact absurd rfl h
  | cons p ps ih =>
      cases ps with
      | nil => simp
      | cons q qs =>
          rw [join_cons_cons, List.splitOn_append_cons_self, ih (List.cons_ne_nil q qs)]
          simp

theorem join_eq_join_iff {parts others : List (List α)} (h : parts ≠ []) (h' : others ≠ []) :
    [sep].intercalate others = [sep].intercalate parts ↔
      others.flatMap (List.splitOn sep) = parts.flatMap (List.splitOn sep) := by
  rw [← splitOn_join h, ← splitOn_join h']
  constructor
  · intro hjoin
    rw [hjoin]
  · intro hsplit
    have hback : ∀ l : List α, [sep].intercalate (l.splitOn sep) = l :=
      fun _ => List.intercalate_splitOn sep
    rw [← hback ([sep].intercalate others), hsplit, hback]

omit [DecidableEq α] in
theorem join_append_nil (parts : List (List α)) :
    [sep].intercalate (parts ++ [[]]) = parts.flatMap (· ++ [sep]) := by
  induction parts with
  | nil => simp
  | cons p ps ih =>
      have hcons : ∃ q qs, ps ++ [[]] = q :: qs := List.exists_cons_of_ne_nil (by simp)
      obtain ⟨q, qs, hrest⟩ := hcons
      rw [List.cons_append, hrest, join_cons_cons, ← hrest, ih, List.flatMap_cons]
      simp

theorem terminated_eq_iff {parts others : List (List α)} :
    others.flatMap (· ++ [sep]) = parts.flatMap (· ++ [sep]) ↔
      others.flatMap (List.splitOn sep) = parts.flatMap (List.splitOn sep) := by
  rw [← join_append_nil, ← join_append_nil, join_eq_join_iff (by simp) (by simp),
    List.flatMap_append, List.flatMap_append, List.append_left_inj]

omit [DecidableEq α] in
theorem mem_join {parts : List (List α)} {x : α} (h : x ∈ [sep].intercalate parts) :
    x = sep ∨ ∃ p ∈ parts, x ∈ p := by
  induction parts with
  | nil => exact absurd h (by simp)
  | cons p ps ih =>
      cases ps with
      | nil =>
          rw [join_singleton] at h
          exact Or.inr ⟨p, List.mem_cons_self, h⟩
      | cons q qs =>
          rw [join_cons_cons] at h
          rcases List.mem_append.mp h with hp | hrest
          · exact Or.inr ⟨p, List.mem_cons_self, hp⟩
          · rcases List.mem_cons.mp hrest with hsep | hqs
            · exact Or.inl hsep
            · rcases ih hqs with hsep | ⟨r, hr, hx⟩
              · exact Or.inl hsep
              · exact Or.inr ⟨r, List.mem_cons_of_mem p hr, hx⟩

omit [DecidableEq α] in
theorem join_ne_nil {parts : List (List α)} (h : parts ≠ []) (hne : ∀ p ∈ parts, p ≠ []) :
    [sep].intercalate parts ≠ [] := by
  cases parts with
  | nil => exact absurd rfl h
  | cons p ps =>
      cases ps with
      | nil =>
          rw [join_singleton]
          exact hne p List.mem_cons_self
      | cons q qs =>
          rw [join_cons_cons]
          simp

theorem splitOn_length_pos (p : List α) : 0 < (p.splitOn sep).length :=
  List.length_pos_of_ne_nil (List.splitOn_ne_nil sep p)

theorem flatMap_splitOn_eq_self {parts : List (List α)} (h : ∀ p ∈ parts, sep ∉ p) :
    parts.flatMap (List.splitOn sep) = parts := by
  induction parts with
  | nil => rfl
  | cons p ps ih =>
      rw [List.flatMap_cons, List.splitOn_eq_singleton (h p List.mem_cons_self),
        ih fun q hq => h q (List.mem_cons_of_mem p hq), List.singleton_append]

theorem join_inj {parts others : List (List α)} (h : ∀ p ∈ parts, p ≠ [] ∧ sep ∉ p)
    (h' : ∀ p ∈ others, p ≠ [] ∧ sep ∉ p) :
    [sep].intercalate parts = [sep].intercalate others ↔ parts = others := by
  constructor
  · intro hjoin
    by_cases hparts : parts = []
    · by_cases hothers : others = []
      · rw [hparts, hothers]
      · have hnil : [sep].intercalate others = [] := by
          rw [← hjoin, hparts]
          rfl
        exact absurd hnil (join_ne_nil hothers fun p hp => (h' p hp).1)
    · by_cases hothers : others = []
      · have hnil : [sep].intercalate parts = [] := by
          rw [hjoin, hothers]
          rfl
        exact absurd hnil (join_ne_nil hparts fun p hp => (h p hp).1)
      · have hcut := (join_eq_join_iff hothers hparts).mp hjoin
        rwa [flatMap_splitOn_eq_self fun p hp => (h p hp).2,
          flatMap_splitOn_eq_self fun p hp => (h' p hp).2] at hcut
  · intro heq
    rw [heq]

theorem length_le_flatMap_splitOn (parts : List (List α)) :
    parts.length ≤ (parts.flatMap (List.splitOn sep)).length := by
  induction parts with
  | nil => simp
  | cons p ps ih =>
      have hp : 0 < (p.splitOn sep).length := splitOn_length_pos p
      rw [List.flatMap_cons, List.length_append, List.length_cons]
      omega

theorem not_mem_of_splitOn_length {p : List α} (h : (p.splitOn sep).length = 1) : sep ∉ p := by
  intro hmem
  obtain ⟨x, y, rfl⟩ := List.append_of_mem hmem
  have hx : 0 < (x.splitOn sep).length := splitOn_length_pos x
  have hy : 0 < (y.splitOn sep).length := splitOn_length_pos y
  rw [List.splitOn_append_cons_self, List.length_append] at h
  omega

theorem splitOn_eq_singleton_of_length {p : List α} (h : (p.splitOn sep).length = 1) :
    p.splitOn sep = [p] :=
  List.splitOn_eq_singleton (not_mem_of_splitOn_length h)

theorem not_mem_of_flatMap_length {parts : List (List α)}
    (h : (parts.flatMap (List.splitOn sep)).length = parts.length) :
    ∀ p ∈ parts, sep ∉ p := by
  induction parts with
  | nil => simp
  | cons p ps ih =>
      have hp : 0 < (p.splitOn sep).length := splitOn_length_pos p
      have hps : ps.length ≤ (ps.flatMap (List.splitOn sep)).length :=
        length_le_flatMap_splitOn ps
      rw [List.flatMap_cons, List.length_append, List.length_cons] at h
      intro q hq
      rcases List.mem_cons.mp hq with rfl | hrest
      · exact not_mem_of_splitOn_length (by omega)
      · exact ih (by omega) q hrest

theorem flatMap_splitOn_eq_of_length {parts : List (List α)}
    (h : (parts.flatMap (List.splitOn sep)).length = parts.length) :
    parts.flatMap (List.splitOn sep) = parts :=
  flatMap_splitOn_eq_self (not_mem_of_flatMap_length h)

theorem join_shift (before after : List (List α)) (x y q : List α) :
    [sep].intercalate (before ++ x :: (y ++ sep :: q) :: after) =
      [sep].intercalate (before ++ (x ++ sep :: y) :: q :: after) := by
  apply (join_eq_join_iff (by simp) (by simp)).mpr
  simp [List.flatMap_append, List.splitOn_append_cons_self]

def JoinsUniquely (sep : α) (parts : List (List α)) : Prop :=
  ∀ others : List (List α), others.length = parts.length →
    [sep].intercalate others = [sep].intercalate parts → others = parts

theorem joinsUniquely_iff {parts : List (List α)} (h : 2 ≤ parts.length) :
    JoinsUniquely sep parts ↔ ∀ p ∈ parts, sep ∉ p := by
  constructor
  · intro hunique p hp hsep
    obtain ⟨before, after, rfl⟩ := List.append_of_mem hp
    obtain ⟨x, y, rfl⟩ := List.append_of_mem hsep
    cases after with
    | cons q after =>
        have hsame := hunique (before ++ x :: (y ++ sep :: q) :: after) (by simp)
          (join_shift before after x y q)
        simp at hsame
    | nil =>
        -- the last part takes its separator from the part before it
        have hbefore : before ≠ [] := by
          rintro rfl
          simp at h
        obtain ⟨front, q, rfl⟩ := List.eq_nil_or_concat before |>.resolve_left hbefore
        have hsame := hunique (front ++ (q ++ sep :: x) :: [y]) (by simp)
          (by simpa using (join_shift front [] q x y).symm)
        simp at hsame
  · intro hclean others hlen hjoin
    have hparts : parts ≠ [] := by
      rintro rfl
      simp at h
    have hothers : others ≠ [] := by
      rintro rfl
      rw [List.length_nil] at hlen
      omega
    have hsplit := (join_eq_join_iff hparts hothers).mp hjoin
    rw [flatMap_splitOn_eq_self hclean] at hsplit
    rw [← hsplit]
    exact (flatMap_splitOn_eq_of_length (by rw [hsplit, hlen])).symm

/-- No other list of four parts whose second has the form `D` has the same join. -/
def JoinsUniquelyAround (sep : α) (D : List α → Prop) (a d b c : List α) : Prop :=
  ∀ a' d' b' c' : List α, D d' →
    [sep].intercalate [a', d', b', c'] = [sep].intercalate [a, d, b, c] →
      a' = a ∧ d' = d ∧ b' = b ∧ c' = c

variable {D : List α → Prop} {a d b c : List α}

theorem join_regroup {first : List α} {pre post : List (List α)} {s : List α}
    (h : a.splitOn sep = first :: (pre ++ s :: post)) :
    [sep].intercalate [[sep].intercalate (first :: pre), s,
        [sep].intercalate (post ++ [d]), b ++ sep :: c] =
      [sep].intercalate [a, d, b, c] := by
  have ha : a = [sep].intercalate (first :: pre ++ s :: post) := by
    rw [List.cons_append, ← h, List.intercalate_splitOn]
  apply (join_eq_join_iff (by simp) (by simp)).mpr
  rw [ha]
  simp only [List.flatMap_cons, List.flatMap_nil, List.append_nil]
  rw [splitOn_join (by simp), splitOn_join (by simp), splitOn_join (by simp),
    List.splitOn_append_cons_self]
  simp [List.flatMap_append]

theorem joinsUniquelyAround_iff (hD : ∀ p, D p → sep ∉ p) (hd : D d) :
    JoinsUniquelyAround sep D a d b c ↔
      sep ∉ b ∧ sep ∉ c ∧ ∀ s ∈ (a.splitOn sep).tail, ¬ D s := by
  constructor
  · intro hunique
    refine ⟨?_, ?_, ?_⟩
    · intro hb
      obtain ⟨x, y, rfl⟩ := List.append_of_mem hb
      obtain ⟨-, -, hsame, -⟩ := hunique a d x (y ++ sep :: c) hd
        (join_shift [a, d] [] x y c)
      simp at hsame
    · intro hc
      obtain ⟨x, y, rfl⟩ := List.append_of_mem hc
      obtain ⟨-, -, hsame, -⟩ := hunique a d (b ++ sep :: x) y hd
        (join_shift [a, d] [] b x y).symm
      simp at hsame
    · intro s hs hform
      cases hsplit : a.splitOn sep with
      | nil => exact List.splitOn_ne_nil sep a hsplit
      | cons first rest =>
          rw [hsplit, List.tail_cons] at hs
          obtain ⟨pre, post, rfl⟩ := List.append_of_mem hs
          obtain ⟨-, -, -, hsame⟩ := hunique _ s _ _ hform (join_regroup hsplit)
          have hlen := congrArg List.length hsame
          simp at hlen
          omega
  · rintro ⟨hb, hc, ha⟩ a' d' b' c' hd' hjoin
    have hsplit := (join_eq_join_iff (by simp) (by simp)).mp hjoin
    simp only [List.flatMap_cons, List.flatMap_nil, List.append_nil,
      List.splitOn_eq_singleton (hD d hd), List.splitOn_eq_singleton (hD d' hd'),
      List.splitOn_eq_singleton hb, List.splitOn_eq_singleton hc,
      List.singleton_append] at hsplit
    have hb' : 0 < (b'.splitOn sep).length := splitOn_length_pos b'
    have hc' : 0 < (c'.splitOn sep).length := splitOn_length_pos c'
    have ha' : a'.splitOn sep ≠ [] := List.splitOn_ne_nil sep a'
    have halign : a'.splitOn sep = a.splitOn sep ∧
        d' :: (b'.splitOn sep ++ c'.splitOn sep) = [d, b, c] := by
      rcases List.append_eq_append_iff.mp hsplit with ⟨w, hw, hrest⟩ | ⟨w, hw, hrest⟩
      · cases w with
        | nil => exact ⟨by simpa using hw.symm, by simpa using hrest⟩
        | cons x w =>
            -- `d'` would be a later piece of `a`
            rw [List.cons_append, List.cons.injEq] at hrest
            have hmem : d' ∈ (a.splitOn sep).tail := by
              rw [hw, List.tail_append_of_ne_nil ha', ← hrest.1]
              simp
            exact absurd hd' (ha d' hmem)
      · cases w with
        | nil => exact ⟨by simpa using hw, by simpa using hrest.symm⟩
        | cons x w =>
            have hlen := congrArg List.length hrest
            simp at hlen
            omega
    obtain ⟨hfirst, hrest⟩ := halign
    rw [List.cons.injEq] at hrest
    have hlen := congrArg List.length hrest.2
    rw [List.length_append] at hlen
    have hbone : (b'.splitOn sep).length = 1 := by
      simp at hlen
      omega
    have hcone : (c'.splitOn sep).length = 1 := by
      simp at hlen
      omega
    have hpair := hrest.2
    rw [splitOn_eq_singleton_of_length hbone, splitOn_eq_singleton_of_length hcone] at hpair
    simp only [List.singleton_append, List.cons.injEq, and_true] at hpair
    refine ⟨?_, hrest.1, hpair.1, hpair.2⟩
    have hback : [sep].intercalate (a'.splitOn sep) = a' := List.intercalate_splitOn sep
    rw [← hback, hfirst, List.intercalate_splitOn]

end Delimited

end GrServer
