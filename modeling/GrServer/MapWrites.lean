import GrServer.SortedMap

/-!
# Conditional writes to a map

A write has a key, a value that may be missing, and says whether it replaces a
binding or only fills a gap.  What a key holds after a list of writes depends on
the writes of that key alone.
-/

namespace GrServer

universe u v

structure MapWrite (κ : Type u) (α : Type v) where
  key : κ
  value : Option α
  replaces : Bool

namespace MapWrite

variable {κ : Type u} {α : Type v}

def put (k : κ) (v : Option α) : MapWrite κ α := ⟨k, v, true⟩

def keep (k : κ) (v : Option α) : MapWrite κ α := ⟨k, v, false⟩

def onto (w : MapWrite κ α) (old : Option α) : Option α :=
  if w.replaces then w.value.or old else old.or w.value

@[simp] theorem key_put (k : κ) (v : Option α) : (put k v).key = k := rfl

@[simp] theorem key_keep (k : κ) (v : Option α) : (keep k v).key = k := rfl

@[simp] theorem onto_put (k : κ) (v old : Option α) : (put k v).onto old = v.or old := rfl

@[simp] theorem onto_keep (k : κ) (v old : Option α) : (keep k v).onto old = old.or v := rfl

variable [LinearOrder κ]

def apply (m : SortedMap κ α) (w : MapWrite κ α) : SortedMap κ α :=
  match w.value with
  | none => m
  | some v => if w.replaces then m.insert w.key v else m.insertNew w.key v

def applyAll (m : SortedMap κ α) (ws : List (MapWrite κ α)) : SortedMap κ α :=
  ws.foldl apply m

theorem get?_apply (m : SortedMap κ α) (w : MapWrite κ α) (k : κ) :
    (apply m w).get? k = if w.key = k then w.onto (m.get? k) else m.get? k := by
  unfold apply onto
  cases w.value with
  | none => simp
  | some v =>
      by_cases hkey : w.key = k
      · subst hkey
        cases w.replaces <;> cases hget : m.get? w.key <;>
          simp [SortedMap.get?_insertNew, hget]
      · cases w.replaces <;>
          simp [hkey, SortedMap.get?_insert_of_ne (Ne.symm hkey),
            SortedMap.get?_insertNew_of_ne (Ne.symm hkey)]

theorem get?_applyAll (m : SortedMap κ α) (ws : List (MapWrite κ α)) (k : κ) :
    (applyAll m ws).get? k =
      (ws.filter (·.key = k)).foldl (fun old w => w.onto old) (m.get? k) := by
  unfold applyAll
  induction ws generalizing m with
  | nil => rfl
  | cons w ws ih =>
      rw [List.foldl_cons, ih, get?_apply]
      by_cases hkey : w.key = k <;> simp [hkey]

section Overlay

variable {m : SortedMap κ α} {ws : List (MapWrite κ α)} {k : κ}

theorem applyAll_concat (w : MapWrite κ α) :
    applyAll m (ws ++ [w]) = apply (applyAll m ws) w := by
  simp [applyAll]

theorem get?_applyAll_of_not_mem (hkey : ∀ w ∈ ws, w.key ≠ k) :
    (applyAll m ws).get? k = m.get? k := by
  have hfilter : ws.filter (·.key = k) = [] := by
    simpa [List.filter_eq_nil_iff] using hkey
  rw [get?_applyAll, hfilter, List.foldl_nil]

theorem get?_applyAll_of_puts (hput : ∀ w ∈ ws, w.key = k → w.replaces = true) :
    (applyAll m ws).get? k = ((applyAll .empty ws).get? k).or (m.get? k) := by
  induction ws using List.reverseRecOn with
  | nil => simp [applyAll]
  | append_singleton ws w ih =>
      have hws := ih fun w' hw' => hput w' (List.mem_append_left _ hw')
      simp only [applyAll_concat, get?_apply]
      by_cases hkey : w.key = k
      · have hrep := hput w (by simp) hkey
        simp [hkey, onto, hrep, hws, Option.or_assoc]
      · simpa [hkey] using hws

theorem get?_applyAll_of_keeps (hkeep : ∀ w ∈ ws, w.key = k → w.replaces = false) :
    (applyAll m ws).get? k = (m.get? k).or ((applyAll .empty ws).get? k) := by
  induction ws using List.reverseRecOn with
  | nil => simp [applyAll]
  | append_singleton ws w ih =>
      have hws := ih fun w' hw' => hkeep w' (List.mem_append_left _ hw')
      simp only [applyAll_concat, get?_apply]
      by_cases hkey : w.key = k
      · have hrep := hkeep w (by simp) hkey
        simp [hkey, onto, hrep, hws, Option.or_assoc]
      · simpa [hkey] using hws

end Overlay

end MapWrite

end GrServer
