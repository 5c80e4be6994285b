import GrServer.SortedMap

/-!
# A map with an index over one attribute of its rows

`Indexes f m ix` says that `ix` is the inverse of `f` on the rows of `m`: every
row is found under its attribute, and the index holds nothing else.  Rows
leave together with their index entries (`eraseRow`, `eraseRows`); a row that
enters, or changes its attribute, keeps the index exact only under the
condition of `Indexes.rebind_iff`.
-/

namespace GrServer

universe u v w

variable {κ : Type u} [LinearOrder κ] {ι : Type v} [LinearOrder ι] {α : Type w}

namespace ReverseIndex

def Indexes (f : α → ι) (m : SortedMap κ α) (ix : SortedMap ι κ) : Prop :=
  ∀ i k, ix.get? i = some k ↔ ∃ a, m.get? k = some a ∧ f a = i

def Owned (f : α → ι) (m : SortedMap κ α) (ks : List κ) (i : ι) : Prop :=
  ∃ k ∈ ks, ∃ a, m.get? k = some a ∧ f a = i

def eraseRow (f : α → ι) (t : SortedMap κ α × SortedMap ι κ) (k : κ) :
    SortedMap κ α × SortedMap ι κ :=
  match t.1.get? k with
  | none => t
  | some a => (t.1.erase k, t.2.erase (f a))

def eraseRows (f : α → ι) (t : SortedMap κ α × SortedMap ι κ) (ks : List κ) :
    SortedMap κ α × SortedMap ι κ :=
  ks.foldl (eraseRow f) t

variable {f : α → ι}

theorem eraseRow_rows (t : SortedMap κ α × SortedMap ι κ) (k j : κ) :
    (eraseRow f t k).1.get? j = if j = k then none else t.1.get? j := by
  unfold eraseRow
  cases hrow : t.1.get? k with
  | none =>
      by_cases hj : j = k
      · simp [hj, hrow]
      · simp [hj]
  | some a => exact SortedMap.get?_erase t.1 k j

theorem eraseRow_index (t : SortedMap κ α × SortedMap ι κ) (k : κ) (i : ι) (j : κ) :
    (eraseRow f t k).2.get? i = some j ↔
      t.2.get? i = some j ∧ ¬ ∃ a, t.1.get? k = some a ∧ f a = i := by
  unfold eraseRow
  cases hrow : t.1.get? k with
  | none => simp
  | some a =>
      dsimp only
      rw [SortedMap.get?_erase]
      by_cases hi : i = f a
      · simp [hi]
      · simp [hi, Ne.symm hi]

theorem eraseRows_rows (t : SortedMap κ α × SortedMap ι κ) (ks : List κ) (j : κ) :
    (eraseRows f t ks).1.get? j = if j ∈ ks then none else t.1.get? j := by
  induction ks generalizing t with
  | nil => simp [eraseRows]
  | cons k ks ih =>
      have hstep : eraseRows f t (k :: ks) = eraseRows f (eraseRow f t k) ks := rfl
      rw [hstep, ih, eraseRow_rows]
      by_cases hk : j = k <;> by_cases hks : j ∈ ks <;> simp [hk, hks]

theorem eraseRows_index (t : SortedMap κ α × SortedMap ι κ) (ks : List κ) (i : ι) (j : κ) :
    (eraseRows f t ks).2.get? i = some j ↔ t.2.get? i = some j ∧ ¬ Owned f t.1 ks i := by
  induction ks generalizing t with
  | nil => simp [eraseRows, Owned]
  | cons k ks ih =>
      have hstep : eraseRows f t (k :: ks) = eraseRows f (eraseRow f t k) ks := rfl
      have howned : Owned f t.1 (k :: ks) i ↔
          (∃ a, t.1.get? k = some a ∧ f a = i) ∨ Owned f (eraseRow f t k).1 ks i := by
        constructor
        · rintro ⟨k', hk', a, ha, hi⟩
          by_cases hsame : k' = k
          · subst hsame
            exact Or.inl ⟨a, ha, hi⟩
          · right
            refine ⟨k', (List.mem_cons.mp hk').resolve_left hsame, a, ?_, hi⟩
            rw [eraseRow_rows, if_neg hsame, ha]
        · rintro (⟨a, ha, hi⟩ | ⟨k', hk', a, ha, hi⟩)
          · exact ⟨k, List.mem_cons_self, a, ha, hi⟩
          · rw [eraseRow_rows] at ha
            split_ifs at ha
            exact ⟨k', List.mem_cons_of_mem _ hk', a, ha, hi⟩
      rw [hstep, ih, eraseRow_index, howned, not_or, and_assoc]

variable {m : SortedMap κ α} {ix : SortedMap ι κ}

theorem indexes_empty : Indexes f (SortedMap.empty : SortedMap κ α) SortedMap.empty := by
  intro i k
  simp

theorem Indexes.get? (h : Indexes f m ix) {k : κ} {a : α} (ha : m.get? k = some a) :
    ix.get? (f a) = some k :=
  (h (f a) k).mpr ⟨a, ha, rfl⟩

theorem Indexes.eraseRows (h : Indexes f m ix) (ks : List κ) :
    Indexes f (eraseRows f (m, ix) ks).1 (eraseRows f (m, ix) ks).2 := by
  intro i k
  rw [eraseRows_index, eraseRows_rows]
  constructor
  · rintro ⟨hix, hnot⟩
    obtain ⟨a, ha, hi⟩ := (h i k).mp hix
    have hk : k ∉ ks := fun hk => hnot ⟨k, hk, a, ha, hi⟩
    exact ⟨a, by rw [if_neg hk, ha], hi⟩
  · rintro ⟨a, ha, hi⟩
    split_ifs at ha with hk
    have hix : ix.get? i = some k := (h i k).mpr ⟨a, ha, hi⟩
    refine ⟨hix, ?_⟩
    rintro ⟨k', hk', a', ha', hi'⟩
    have hix' : ix.get? i = some k' := (h i k').mpr ⟨a', ha', hi'⟩
    have hsame : k' = k := Option.some.inj (hix'.symm.trans hix)
    exact hk (hsame ▸ hk')

theorem Indexes.replace (h : Indexes f m ix) {k : κ} {a b : α} (ha : m.get? k = some a)
    (hf : f b = f a) : Indexes f (m.insert k b) ix := by
  intro i j
  rw [h i j, SortedMap.get?_insert]
  by_cases hj : j = k
  · subst hj
    simp [ha, hf]
  · simp [hj]

theorem Indexes.rebind_iff (h : Indexes f m ix) {k : κ} {ks : List κ} (hk : k ∉ ks) (a : α) :
    Indexes f (ReverseIndex.eraseRows f (m.insert k a, ix) ks).1
        ((ReverseIndex.eraseRows f (m.insert k a, ix) ks).2.insert (f a) k) ↔
      (∀ b, m.get? k = some b → f b = f a) ∧
        ∀ j, ix.get? (f a) = some j → j = k ∨ j ∈ ks := by
  have hrows : ∀ j, (ReverseIndex.eraseRows f (m.insert k a, ix) ks).1.get? j =
      if j ∈ ks then none else if j = k then some a else m.get? j := by
    intro j
    rw [eraseRows_rows, SortedMap.get?_insert]
  have howned : ∀ i, Owned f (m.insert k a) ks i ↔ Owned f m ks i := by
    intro i
    have hget : ∀ j ∈ ks, (m.insert k a).get? j = m.get? j := by
      intro j hj
      have hne : j ≠ k := by
        rintro rfl
        exact hk hj
      exact SortedMap.get?_insert_of_ne hne a
    constructor
    · rintro ⟨j, hj, b, hb, hi⟩
      exact ⟨j, hj, b, by rw [← hget j hj, hb], hi⟩
    · rintro ⟨j, hj, b, hb, hi⟩
      exact ⟨j, hj, b, by rw [hget j hj, hb], hi⟩
  have hindex : ∀ i j,
      ((ReverseIndex.eraseRows f (m.insert k a, ix) ks).2.insert (f a) k).get? i = some j ↔
        (i = f a ∧ j = k) ∨ (i ≠ f a ∧ ix.get? i = some j ∧ ¬ Owned f m ks i) := by
    intro i j
    rw [SortedMap.get?_insert]
    by_cases hi : i = f a
    · simp [hi, eq_comm]
    · rw [if_neg hi, eraseRows_index, howned]
      simp [hi]
  constructor
  · intro hnew
    constructor
    · -- the old attribute of `k` would still lead to `k`
      intro b hb
      by_contra hne
      have hix : ix.get? (f b) = some k := h.get? hb
      have hnot : ¬ Owned f m ks (f b) := by
        rintro ⟨j, hj, c, hc, hcb⟩
        have hix' : ix.get? (f b) = some j := hcb ▸ h.get? hc
        have hsame : j = k := Option.some.inj (hix'.symm.trans hix)
        exact hk (hsame ▸ hj)
      obtain ⟨c, hc, hcb⟩ := (hnew (f b) k).mp ((hindex (f b) k).mpr (Or.inr ⟨hne, hix, hnot⟩))
      rw [hrows, if_neg hk, if_pos rfl, Option.some.injEq] at hc
      exact hne (hcb.symm.trans (congrArg f hc.symm))
    · -- another row with the attribute of `a` would have lost its entry
      intro j hj
      by_contra hnot
      rw [not_or] at hnot
      obtain ⟨c, hc, hca⟩ := (h (f a) j).mp hj
      have hrow : (ReverseIndex.eraseRows f (m.insert k a, ix) ks).1.get? j = some c := by
        rw [hrows, if_neg hnot.2, if_neg hnot.1, hc]
      have hback := (hnew (f a) j).mpr ⟨c, hrow, hca⟩
      rcases (hindex (f a) j).mp hback with ⟨-, hjk⟩ | ⟨hne, -⟩
      · exact hnot.1 hjk
      · exact hne rfl
  · rintro ⟨hown, hholder⟩ i j
    rw [hindex, hrows]
    constructor
    · rintro (⟨rfl, rfl⟩ | ⟨hi, hix, hnot⟩)
      · exact ⟨a, by rw [if_neg hk, if_pos rfl], rfl⟩
      · obtain ⟨b, hb, hbi⟩ := (h i j).mp hix
        have hjks : j ∉ ks := fun hj => hnot ⟨j, hj, b, hb, hbi⟩
        have hjk : j ≠ k := by
          rintro rfl
          exact hi (hbi.symm.trans (hown b hb))
        exact ⟨b, by rw [if_neg hjks, if_neg hjk, hb], hbi⟩
    · rintro ⟨b, hb, hbi⟩
      split_ifs at hb with hjks hjk
      · rw [Option.some.injEq] at hb
        exact Or.inl ⟨hbi.symm.trans (congrArg f hb.symm), hjk⟩
      · have hix : ix.get? i = some j := (h i j).mpr ⟨b, hb, hbi⟩
        have hi : i ≠ f a := by
          rintro rfl
          rcases hholder j hix with hj | hj
          · exact hjk hj
          · exact hjks hj
        refine Or.inr ⟨hi, hix, ?_⟩
        rintro ⟨j', hj', c, hc, hci⟩
        have hix' : ix.get? i = some j' := (h i j').mpr ⟨c, hc, hci⟩
        have hsame : j' = j := Option.some.inj (hix'.symm.trans hix)
        exact hjks (hsame ▸ hj')

end ReverseIndex

end GrServer
