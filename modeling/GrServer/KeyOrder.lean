import GrServer.SortedMap

/-!
# Maps in the order of insertion

A map beside the list of its keys in the order they first came.  An insertion
under a new key appends its value, one under an old key replaces the value where
it stands.
-/

namespace GrServer

universe u v

variable {κ : Type u} [LinearOrder κ] {α : Type v}

namespace SortedMap

structure Ordered (m : SortedMap κ α) (order : List κ) : Prop where
  nodup : order.Nodup
  bound : ∀ k, (m.get? k).isSome = true ↔ k ∈ order

def valuesOf (m : SortedMap κ α) (order : List κ) : List α :=
  order.filterMap m.get?

variable {m : SortedMap κ α} {order : List κ} {k : κ}

theorem ordered_empty : (empty : SortedMap κ α).Ordered [] := by
  refine ⟨List.nodup_nil, ?_⟩
  intro k
  simp

theorem valuesOf_append (ks js : List κ) :
    m.valuesOf (ks ++ js) = m.valuesOf ks ++ m.valuesOf js :=
  List.filterMap_append

theorem valuesOf_cons {old : α} (h : m.get? k = some old) (ks : List κ) :
    m.valuesOf (k :: ks) = old :: m.valuesOf ks :=
  List.filterMap_cons_some h

theorem valuesOf_insert_of_not_mem (h : k ∉ order) (v : α) :
    (m.insert k v).valuesOf order = m.valuesOf order := by
  refine List.filterMap_congr ?_
  intro j hj
  exact get?_insert_of_ne (ne_of_mem_of_not_mem hj h) v

theorem Ordered.length_entries (h : m.Ordered order) : m.entries.length = order.length := by
  have hperm := (keys_perm h.nodup h.bound).length_eq
  rwa [keys, Assoc.keys, List.length_map] at hperm

theorem Ordered.length_valuesOf (h : m.Ordered order) :
    (m.valuesOf order).length = order.length := by
  have hall : ∀ j ∈ order, (m.get? j).isSome = true := fun j hj => (h.bound j).mpr hj
  clear h
  induction order with
  | nil => rfl
  | cons j rest ih =>
      obtain ⟨v, hv⟩ := Option.isSome_iff_exists.mp (hall j List.mem_cons_self)
      rw [valuesOf_cons hv, List.length_cons, List.length_cons,
        ih fun i hi => hall i (List.mem_cons_of_mem _ hi)]

theorem Ordered.insert_new (h : m.Ordered order) (hk : k ∉ order) (v : α) :
    (m.insert k v).Ordered (order ++ [k]) := by
  refine ⟨?_, ?_⟩
  · rw [List.nodup_append]
    refine ⟨h.nodup, List.nodup_singleton k, ?_⟩
    intro j hj i hi
    rw [List.mem_singleton.mp hi]
    exact ne_of_mem_of_not_mem hj hk
  · intro j
    rw [get?_insert, List.mem_append, List.mem_singleton, ← h.bound]
    by_cases hj : j = k <;> simp [hj]

theorem valuesOf_insert_new (hk : k ∉ order) (v : α) :
    (m.insert k v).valuesOf (order ++ [k]) = m.valuesOf order ++ [v] := by
  rw [valuesOf_append, valuesOf_insert_of_not_mem hk, valuesOf_cons (get?_insert_self m k v)]
  rfl

theorem Ordered.insert_old (h : m.Ordered order) (hk : k ∈ order) (v : α) :
    (m.insert k v).Ordered order := by
  refine ⟨h.nodup, ?_⟩
  intro j
  rw [get?_insert, ← h.bound]
  have hbound := (h.bound k).mpr hk
  by_cases hj : j = k
  · subst hj
    simp [hbound]
  · simp [hj]

theorem Ordered.valuesOf_split (h : m.Ordered order) (hk : k ∈ order) :
    ∃ ks js old, order = ks ++ k :: js ∧ m.get? k = some old ∧
      m.valuesOf order = m.valuesOf ks ++ old :: m.valuesOf js ∧
      (m.valuesOf ks).length = ks.length ∧
      ∀ v, (m.insert k v).valuesOf order = m.valuesOf ks ++ v :: m.valuesOf js := by
  obtain ⟨ks, js, rfl⟩ := List.append_of_mem hk
  obtain ⟨old, hold⟩ := Option.isSome_iff_exists.mp ((h.bound k).mpr hk)
  obtain ⟨hks, hjs, hdisjoint⟩ := List.nodup_append.mp h.nodup
  have hnotks : k ∉ ks := fun hmem => hdisjoint k hmem k List.mem_cons_self rfl
  have hnotjs : k ∉ js := (List.nodup_cons.mp hjs).1
  refine ⟨ks, js, old, rfl, hold, ?_, ?_, ?_⟩
  · rw [valuesOf_append, valuesOf_cons hold]
  · have hlength := h.length_valuesOf
    have hrest : (m.valuesOf js).length ≤ js.length := List.length_filterMap_le _ _
    have hfront : (m.valuesOf ks).length ≤ ks.length := List.length_filterMap_le _ _
    rw [valuesOf_append, valuesOf_cons hold, List.length_append, List.length_append,
      List.length_cons, List.length_cons] at hlength
    omega
  · intro v
    rw [valuesOf_append, valuesOf_cons (get?_insert_self m k v),
      valuesOf_insert_of_not_mem hnotks, valuesOf_insert_of_not_mem hnotjs]

end SortedMap

end GrServer
