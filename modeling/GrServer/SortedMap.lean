import Mathlib

/-!
# Key-ordered finite maps

An ordered map is a list of entries in strictly increasing key order, which
is how a balanced-tree map iterates.  `Assoc` has the operations on raw entry
lists; they are total on unsorted lists as well, where a lookup sees the first
entry of its key.  `SortedMap` bundles the order, so that two maps with the
same bindings are the same list.
-/

namespace GrServer

universe u v

variable {κ : Type u} [LinearOrder κ] {α : Type v}

namespace Assoc

def find? (k : κ) : List (κ × α) → Option α
  | [] => none
  | (k', v) :: rest => if k = k' then some v else find? k rest

def insert (k : κ) (v : α) : List (κ × α) → List (κ × α)
  | [] => [(k, v)]
  | (k', v') :: rest =>
      if k < k' then (k, v) :: (k', v') :: rest
      else if k = k' then (k, v) :: rest
      else (k', v') :: insert k v rest

def erase (k : κ) (entries : List (κ × α)) : List (κ × α) :=
  entries.filter fun entry => entry.1 ≠ k

def keys (entries : List (κ × α)) : List κ :=
  entries.map Prod.fst

def Sorted (entries : List (κ × α)) : Prop :=
  (keys entries).Pairwise (· < ·)

@[simp] theorem find?_nil (k : κ) : find? k ([] : List (κ × α)) = none := rfl

omit [LinearOrder κ] in
@[simp] theorem keys_nil : keys ([] : List (κ × α)) = [] := rfl

omit [LinearOrder κ] in
@[simp] theorem keys_cons (entry : κ × α) (rest : List (κ × α)) :
    keys (entry :: rest) = entry.1 :: keys rest := rfl

omit [LinearOrder κ] in
theorem keys_map {β : Type*} (f : α → β) (entries : List (κ × α)) :
    keys (entries.map fun entry => (entry.1, f entry.2)) = keys entries := by
  unfold keys
  rw [List.map_map]
  rfl

theorem find?_insert (k j : κ) (v : α) (entries : List (κ × α)) :
    find? j (insert k v entries) =
      if j = k then some v else find? j entries := by
  induction entries with
  | nil => simp [insert, find?]
  | cons entry rest ih =>
      obtain ⟨k', v'⟩ := entry
      unfold insert
      split_ifs with hlt heq <;> by_cases hjk : j = k <;>
        simp_all [find?]

theorem find?_erase (k j : κ) (entries : List (κ × α)) :
    find? j (erase k entries) =
      if j = k then none else find? j entries := by
  induction entries with
  | nil => simp [erase]
  | cons entry rest ih =>
      obtain ⟨k', v'⟩ := entry
      unfold erase at ih ⊢
      by_cases hk : k' = k
      · subst hk
        by_cases hj : j = k' <;> simp_all [find?]
      · by_cases hj : j = k' <;> simp_all [find?]

theorem mem_keys_insert {k j : κ} {v : α} {entries : List (κ × α)} :
    j ∈ keys (insert k v entries) ↔ j = k ∨ j ∈ keys entries := by
  induction entries with
  | nil => simp [insert]
  | cons entry rest ih =>
      obtain ⟨k', v'⟩ := entry
      unfold insert
      split_ifs with hlt heq
      · simp
      · simp [heq]
      · simp [ih, or_left_comm]

theorem Sorted.insert {entries : List (κ × α)} (h : Sorted entries)
    (k : κ) (v : α) : Sorted (insert k v entries) := by
  induction entries with
  | nil => simp [Assoc.insert, Sorted]
  | cons entry rest ih =>
      obtain ⟨k', v'⟩ := entry
      obtain ⟨hhead, htail⟩ := List.pairwise_cons.mp h
      unfold Assoc.insert
      split_ifs with hlt heq
      · refine List.pairwise_cons.mpr ⟨?_, h⟩
        intro j hj
        rcases List.mem_cons.mp hj with rfl | hj
        · exact hlt
        · exact hlt.trans (hhead j hj)
      · subst heq
        exact List.pairwise_cons.mpr ⟨hhead, htail⟩
      · refine List.pairwise_cons.mpr ⟨?_, ih htail⟩
        intro j hj
        rcases mem_keys_insert.mp hj with rfl | hj
        · exact lt_of_le_of_ne (not_lt.mp hlt) (Ne.symm heq)
        · exact hhead j hj

theorem Sorted.erase {entries : List (κ × α)} (h : Sorted entries) (k : κ) :
    Sorted (erase k entries) :=
  h.sublist (List.Sublist.map Prod.fst List.filter_sublist)

theorem find?_isSome {k : κ} {entries : List (κ × α)} :
    (find? k entries).isSome ↔ k ∈ keys entries := by
  induction entries with
  | nil => simp
  | cons entry rest ih =>
      by_cases hk : k = entry.1 <;> simp [find?, hk, ← ih]

theorem mem_of_find? {k : κ} {v : α} {entries : List (κ × α)}
    (h : find? k entries = some v) : (k, v) ∈ entries := by
  induction entries with
  | nil => simp at h
  | cons entry rest ih =>
      obtain ⟨k', v'⟩ := entry
      by_cases hk : k = k'
      · simp_all [find?]
      · simp only [find?, if_neg hk] at h
        exact List.mem_cons_of_mem _ (ih h)

theorem find?_of_mem {k : κ} {v : α} {entries : List (κ × α)}
    (hsorted : Sorted entries) (h : (k, v) ∈ entries) :
    find? k entries = some v := by
  induction entries with
  | nil => simp at h
  | cons entry rest ih =>
      obtain ⟨hhead, htail⟩ := List.pairwise_cons.mp hsorted
      rcases List.mem_cons.mp h with rfl | hmem
      · simp [find?]
      · have hlt : entry.1 < k := hhead k (List.mem_map.mpr ⟨_, hmem, rfl⟩)
        simp only [find?, if_neg hlt.ne']
        exact ih htail hmem

theorem mem_iff_of_find?_eq {entries others : List (κ × α)} (h : Sorted entries)
    (h' : Sorted others) (hfind : ∀ k, find? k entries = find? k others) (entry : κ × α) :
    entry ∈ entries ↔ entry ∈ others := by
  constructor
  · intro hmem
    have hbound := find?_of_mem h hmem
    rw [hfind] at hbound
    exact mem_of_find? hbound
  · intro hmem
    have hbound := find?_of_mem h' hmem
    rw [← hfind] at hbound
    exact mem_of_find? hbound

theorem Sorted.ext {entries others : List (κ × α)} (h : Sorted entries) (h' : Sorted others)
    (hfind : ∀ k, find? k entries = find? k others) : entries = others := by
  have hpair : ∀ {l : List (κ × α)}, Sorted l → l.Pairwise fun a b => a.1 < b.1 :=
    fun hl => List.pairwise_map.mp hl
  have hnodup : ∀ {l : List (κ × α)}, Sorted l → l.Nodup :=
    fun hl => (hpair hl).imp fun hlt heq => absurd (congrArg Prod.fst heq) hlt.ne
  have hperm : entries.Perm others :=
    (List.perm_ext_iff_of_nodup (hnodup h) (hnodup h')).mpr (mem_iff_of_find?_eq h h' hfind)
  exact hperm.eq_of_pairwise
    (fun a b _ _ hab hba => absurd hab (lt_asymm hba)) (hpair h) (hpair h')

theorem find?_append (k : κ) (entries others : List (κ × α)) :
    find? k (entries ++ others) = (find? k entries).or (find? k others) := by
  induction entries with
  | nil => simp
  | cons entry rest ih =>
      by_cases hk : k = entry.1 <;> simp [find?, hk, ih]

end Assoc

structure SortedMap (κ : Type u) [LinearOrder κ] (α : Type v) where
  entries : List (κ × α)
  sorted : Assoc.Sorted entries

namespace SortedMap

def empty : SortedMap κ α := ⟨[], List.Pairwise.nil⟩

def get? (m : SortedMap κ α) (k : κ) : Option α :=
  Assoc.find? k m.entries

def contains (m : SortedMap κ α) (k : κ) : Bool :=
  (m.get? k).isSome

def insert (m : SortedMap κ α) (k : κ) (v : α) : SortedMap κ α :=
  ⟨Assoc.insert k v m.entries, m.sorted.insert k v⟩

def insertNew (m : SortedMap κ α) (k : κ) (v : α) : SortedMap κ α :=
  if m.contains k then m else m.insert k v

def erase (m : SortedMap κ α) (k : κ) : SortedMap κ α :=
  ⟨Assoc.erase k m.entries, m.sorted.erase k⟩

def filterKeys (m : SortedMap κ α) (p : κ → Bool) : SortedMap κ α :=
  ⟨m.entries.filter fun entry => p entry.1,
    m.sorted.sublist (List.filter_sublist.map Prod.fst)⟩

def filter (m : SortedMap κ α) (p : κ → α → Bool) : SortedMap κ α :=
  ⟨m.entries.filter fun entry => p entry.1 entry.2,
    m.sorted.sublist (List.filter_sublist.map Prod.fst)⟩

def keys (m : SortedMap κ α) : List κ :=
  Assoc.keys m.entries

def isEmpty (m : SortedMap κ α) : Bool :=
  m.entries.isEmpty

/-- The map of a raw entry list; of two entries of one key the first counts. -/
def ofEntries : List (κ × α) → SortedMap κ α
  | [] => empty
  | (k, v) :: rest => (ofEntries rest).insert k v

@[simp] theorem get?_empty (k : κ) : (empty : SortedMap κ α).get? k = none := rfl

theorem get?_insert (m : SortedMap κ α) (k j : κ) (v : α) :
    (m.insert k v).get? j = if j = k then some v else m.get? j :=
  Assoc.find?_insert k j v m.entries

@[simp] theorem get?_insert_self (m : SortedMap κ α) (k : κ) (v : α) :
    (m.insert k v).get? k = some v := by
  simp [get?_insert]

theorem get?_insert_of_ne {m : SortedMap κ α} {k j : κ} (hne : j ≠ k) (v : α) :
    (m.insert k v).get? j = m.get? j := by
  simp [get?_insert, hne]

theorem get?_insertNew (m : SortedMap κ α) (k j : κ) (v : α) :
    (m.insertNew k v).get? j =
      if j = k then some ((m.get? k).getD v) else m.get? j := by
  unfold insertNew contains
  by_cases hjk : j = k
  · subst hjk
    cases hget : m.get? j <;> simp [hget]
  · cases hget : m.get? k <;> simp [get?_insert, hjk]

theorem get?_insertNew_of_ne {m : SortedMap κ α} {k j : κ} (hne : j ≠ k)
    (v : α) : (m.insertNew k v).get? j = m.get? j := by
  simp [get?_insertNew, hne]

theorem get?_erase (m : SortedMap κ α) (k j : κ) :
    (m.erase k).get? j = if j = k then none else m.get? j :=
  Assoc.find?_erase k j m.entries

@[simp] theorem get?_ofEntries (entries : List (κ × α)) (k : κ) :
    (ofEntries entries).get? k = Assoc.find? k entries := by
  induction entries with
  | nil => rfl
  | cons entry rest ih =>
      simp [ofEntries, get?_insert, Assoc.find?, ih]

theorem mem_keys {m : SortedMap κ α} {k : κ} :
    k ∈ m.keys ↔ (m.get? k).isSome :=
  Assoc.find?_isSome.symm

theorem get?_eq_some_iff {m : SortedMap κ α} {k : κ} {v : α} :
    m.get? k = some v ↔ (k, v) ∈ m.entries :=
  ⟨Assoc.mem_of_find?, Assoc.find?_of_mem m.sorted⟩

theorem ext_get? {m m' : SortedMap κ α} (h : ∀ k, m.get? k = m'.get? k) : m = m' := by
  rcases m with ⟨entries, hsorted⟩
  rcases m' with ⟨entries', hsorted'⟩
  have hentries : entries = entries' := Assoc.Sorted.ext hsorted hsorted' h
  subst hentries
  rfl

theorem ofEntries_entries (m : SortedMap κ α) : ofEntries m.entries = m :=
  ext_get? fun k => get?_ofEntries m.entries k

theorem get?_filter_eq_some {m : SortedMap κ α} {p : κ → α → Bool} {k : κ} {v : α} :
    (m.filter p).get? k = some v ↔ m.get? k = some v ∧ p k v = true := by
  rw [get?_eq_some_iff, get?_eq_some_iff]
  exact List.mem_filter

theorem keys_nodup (m : SortedMap κ α) : m.keys.Nodup :=
  m.sorted.imp fun hlt => hlt.ne

theorem keys_perm {m : SortedMap κ α} {ks : List κ} (hks : ks.Nodup)
    (h : ∀ k, (m.get? k).isSome = true ↔ k ∈ ks) : m.keys.Perm ks :=
  (List.perm_ext_iff_of_nodup m.keys_nodup hks).mpr fun k => mem_keys.trans (h k)

end SortedMap

end GrServer
