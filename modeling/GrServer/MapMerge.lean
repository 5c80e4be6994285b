import GrServer.SortedMap

/-!
# Merging one map into another

`insertEach` writes entries one after the other, `insertAll` and `fillAll` go
through a whole map, the second without replacing a binding.  `get?_foldl` is
the rule behind both: a loop over a map that treats the keys apart acts on each
key at most once.  `collectAll` groups what several maps hold under a key.
`AgreeOn` is the frame of an update on the keys it must not touch.
-/

namespace GrServer

universe u v w x

variable {κ : Type u} [LinearOrder κ] {α : Type v} {β : Type w}

namespace SortedMap

def insertEach (m : SortedMap κ α) (entries : List (κ × α)) : SortedMap κ α :=
  entries.foldl (fun m entry => m.insert entry.1 entry.2) m

def insertAll (m p : SortedMap κ α) : SortedMap κ α :=
  m.insertEach p.entries

def fillAll (m p : SortedMap κ α) : SortedMap κ α :=
  p.entries.foldl (fun m entry => m.insertNew entry.1 entry.2) m

def collect (f : κ → α → Option β) (groups : SortedMap κ (List β)) (entry : κ × α) :
    SortedMap κ (List β) :=
  match f entry.1 entry.2 with
  | some b => groups.insert entry.1 (((groups.get? entry.1).getD []) ++ [b])
  | none => groups

def collectAll {σ : Type x} (members : σ → Option (SortedMap κ α))
    (f : σ → κ → α → Option β) (sources : List σ) : SortedMap κ (List β) :=
  sources.foldl (fun groups source =>
    match members source with
    | some m => m.entries.foldl (collect (f source)) groups
    | none => groups) SortedMap.empty

theorem get?_foldl_of_not_mem {f : SortedMap κ α → κ × β → SortedMap κ α} {k : κ}
    (hother : ∀ m j v, j ≠ k → (f m (j, v)).get? k = m.get? k)
    {entries : List (κ × β)} (hnot : k ∉ Assoc.keys entries) (m : SortedMap κ α) :
    (entries.foldl f m).get? k = m.get? k := by
  induction entries generalizing m with
  | nil => rfl
  | cons entry rest ih =>
      obtain ⟨j, v⟩ := entry
      rw [Assoc.keys_cons, List.mem_cons, not_or] at hnot
      rw [List.foldl_cons, ih hnot.2, hother m j v (Ne.symm hnot.1)]

theorem get?_foldl {f : SortedMap κ α → κ × β → SortedMap κ α} {k : κ}
    {g : Option α → β → Option α}
    (hother : ∀ m j v, j ≠ k → (f m (j, v)).get? k = m.get? k)
    (hself : ∀ m v, (f m (k, v)).get? k = g (m.get? k) v)
    (p : SortedMap κ β) (m : SortedMap κ α) :
    (p.entries.foldl f m).get? k = (p.get? k).elim (m.get? k) (g (m.get? k)) := by
  obtain ⟨entries, hsorted⟩ := p
  change (entries.foldl f m).get? k =
    (Assoc.find? k entries).elim (m.get? k) (g (m.get? k))
  induction entries generalizing m with
  | nil => rfl
  | cons entry rest ih =>
      obtain ⟨j, v⟩ := entry
      obtain ⟨hhead, htail⟩ := List.pairwise_cons.mp hsorted
      rw [List.foldl_cons]
      by_cases hk : k = j
      · subst hk
        have hnot : k ∉ Assoc.keys rest := by
          intro hmem
          exact lt_irrefl k (hhead k hmem)
        rw [get?_foldl_of_not_mem hother hnot, hself]
        simp [Assoc.find?]
      · rw [ih _ htail, hother m j v (Ne.symm hk)]
        simp [Assoc.find?, hk]

theorem get?_insertAll (m p : SortedMap κ α) (k : κ) :
    (m.insertAll p).get? k = (p.get? k).or (m.get? k) := by
  unfold insertAll insertEach
  rw [get?_foldl (g := fun _ v => some v) ?_ ?_]
  · cases p.get? k <;> rfl
  · intro m j v hne
    exact get?_insert_of_ne (Ne.symm hne) v
  · intro m v
    exact get?_insert_self m k v

theorem get?_fillAll (m p : SortedMap κ α) (k : κ) :
    (m.fillAll p).get? k = (m.get? k).or (p.get? k) := by
  unfold fillAll
  rw [get?_foldl (g := fun old v => old.or (some v)) ?_ ?_]
  · cases p.get? k with
    | none => exact (Option.or_none).symm
    | some v => rfl
  · intro m j v hne
    exact get?_insertNew_of_ne (Ne.symm hne) v
  · intro m v
    rw [get?_insertNew, if_pos rfl]
    cases m.get? k <;> rfl

theorem get?_foldl_keys {f : SortedMap κ α → κ → SortedMap κ α} {k : κ}
    {g : Option α → Option α}
    (hother : ∀ m j, j ≠ k → (f m j).get? k = m.get? k)
    (hself : ∀ m, (f m k).get? k = g (m.get? k))
    {ks : List κ} (hks : ks.Nodup) (m : SortedMap κ α) :
    (ks.foldl f m).get? k = if k ∈ ks then g (m.get? k) else m.get? k := by
  induction ks generalizing m with
  | nil => rfl
  | cons j ks ih =>
      obtain ⟨hnot, hks⟩ := List.nodup_cons.mp hks
      rw [List.foldl_cons, ih hks]
      by_cases hk : j = k
      · subst hk
        rw [if_neg hnot, if_pos List.mem_cons_self, hself]
      · have hmem : k ∈ j :: ks ↔ k ∈ ks := by
          simp [Ne.symm hk]
        simp only [hmem, hother m j hk]

theorem get?_insertEach_of_not_mem {k : κ} {entries : List (κ × α)}
    (hnot : k ∉ Assoc.keys entries) (m : SortedMap κ α) :
    (m.insertEach entries).get? k = m.get? k := by
  unfold insertEach
  apply get?_foldl_of_not_mem ?_ hnot
  intro m j v hne
  exact get?_insert_of_ne (Ne.symm hne) v

theorem get?_insertEach_of_mem {k : κ} {v : α} {entries : List (κ × α)}
    (hmem : (k, v) ∈ entries) (hnodup : (Assoc.keys entries).Nodup) (m : SortedMap κ α) :
    (m.insertEach entries).get? k = some v := by
  induction entries generalizing m with
  | nil => cases hmem
  | cons entry rest ih =>
      rw [Assoc.keys_cons] at hnodup
      rcases List.nodup_cons.mp hnodup with ⟨hnot, hrest⟩
      rcases List.mem_cons.mp hmem with rfl | hin
      · have htail := get?_insertEach_of_not_mem hnot (m.insert k v)
        exact htail.trans (get?_insert_self m k v)
      · exact ih hin hrest (m.insert entry.1 entry.2)

theorem mem_entries_insertEach {k : κ} {v : α} {entries : List (κ × α)}
    (hnodup : (Assoc.keys entries).Nodup) :
    (k, v) ∈ (empty.insertEach entries).entries ↔ (k, v) ∈ entries := by
  rw [← get?_eq_some_iff]
  constructor
  · intro hget
    by_cases hmem : k ∈ Assoc.keys entries
    · obtain ⟨⟨k', w⟩, hentry, rfl⟩ := List.mem_map.mp hmem
      rw [get?_insertEach_of_mem hentry hnodup] at hget
      cases hget
      exact hentry
    · rw [get?_insertEach_of_not_mem hmem, get?_empty] at hget
      cases hget
  · intro hmem
    exact get?_insertEach_of_mem hmem hnodup empty

theorem get?_insertEach_map {k : κ} {ks : List κ} (hk : k ∈ ks) (hks : ks.Nodup)
    (f : κ → α) (m : SortedMap κ α) :
    (m.insertEach (ks.map fun j => (j, f j))).get? k = some (f k) := by
  apply get?_insertEach_of_mem
  · exact List.mem_map_of_mem hk
  · have hkeys : Assoc.keys (ks.map fun j => (j, f j)) = ks := by
      unfold Assoc.keys
      rw [List.map_map]
      exact List.map_id ks
    rwa [hkeys]

theorem get?_foldl_collect (f : κ → α → Option β) (members : SortedMap κ α)
    (groups : SortedMap κ (List β)) (k : κ) :
    ((members.entries.foldl (collect f) groups).get? k).getD [] =
      ((groups.get? k).getD []) ++ ((members.get? k).bind (f k)).toList := by
  have hloop := get?_foldl (f := collect f) (k := k)
    (g := fun old v => (f k v).elim old fun b => some ((old.getD []) ++ [b])) ?_ ?_
    members groups
  · rw [hloop]
    cases members.get? k with
    | none => simp
    | some v =>
        cases hf : f k v with
        | none => simp [hf]
        | some b => simp [hf]
  · intro m j v hne
    unfold collect
    cases f j v with
    | none => rfl
    | some b => exact get?_insert_of_ne (Ne.symm hne) _
  · intro m v
    unfold collect
    cases f k v with
    | none => simp
    | some b => simp

theorem get?_collectAll {σ : Type x} (members : σ → Option (SortedMap κ α))
    (f : σ → κ → α → Option β) (sources : List σ) (k : κ) :
    ((collectAll members f sources).get? k).getD [] =
      sources.flatMap fun source =>
        ((members source).bind fun m => (m.get? k).bind (f source k)).toList := by
  have hloop (groups : SortedMap κ (List β)) :
      ((sources.foldl (fun groups source =>
        match members source with
        | some m => m.entries.foldl (collect (f source)) groups
        | none => groups) groups).get? k).getD [] =
      ((groups.get? k).getD []) ++ sources.flatMap fun source =>
        ((members source).bind fun m => (m.get? k).bind (f source k)).toList := by
    induction sources generalizing groups with
    | nil => simp
    | cons source rest ih =>
        rw [List.foldl_cons, ih, List.flatMap_cons]
        cases members source with
        | none => simp
        | some m =>
            dsimp only
            rw [get?_foldl_collect, List.append_assoc]
            rfl
  exact hloop SortedMap.empty

theorem insertEach_append (m : SortedMap κ α) (entries entries' : List (κ × α)) :
    m.insertEach (entries ++ entries') = (m.insertEach entries).insertEach entries' :=
  List.foldl_append

theorem get?_insertEach (m : SortedMap κ α) (entries : List (κ × α)) (k : κ) :
    (m.insertEach entries).get? k = (Assoc.find? k entries.reverse).or (m.get? k) := by
  unfold insertEach
  induction entries using List.reverseRecOn with
  | nil => simp
  | append_singleton entries entry ih =>
      rw [List.foldl_append, List.foldl_cons, List.foldl_nil, get?_insert, ih,
        List.reverse_append, List.reverse_singleton, List.singleton_append]
      by_cases hk : k = entry.1 <;> simp [Assoc.find?, hk]

def AgreeOn (P : κ → Prop) (m m' : SortedMap κ α) : Prop :=
  ∀ k, P k → m'.get? k = m.get? k

namespace AgreeOn

variable {P : κ → Prop} {m m' m'' : SortedMap κ α}

theorem refl (m : SortedMap κ α) : AgreeOn P m m := by
  intro k _
  rfl

theorem trans (h : AgreeOn P m m') (h' : AgreeOn P m' m'') : AgreeOn P m m'' := by
  intro k hk
  rw [h' k hk, h k hk]

theorem insert (m : SortedMap κ α) {k : κ} (hk : ¬ P k) (v : α) :
    AgreeOn P m (m.insert k v) := by
  intro j hj
  have hne : j ≠ k := by
    rintro rfl
    exact hk hj
  exact get?_insert_of_ne hne v

theorem erase (m : SortedMap κ α) {k : κ} (hk : ¬ P k) : AgreeOn P m (m.erase k) := by
  intro j hj
  have hne : j ≠ k := by
    rintro rfl
    exact hk hj
  rw [get?_erase, if_neg hne]

theorem insertEach (m : SortedMap κ α) {entries : List (κ × α)}
    (hentries : ∀ entry ∈ entries, ¬ P entry.1) :
    AgreeOn P m (m.insertEach entries) := by
  intro k hk
  apply get?_foldl_of_not_mem
  · intro m j v hne
    exact get?_insert_of_ne (Ne.symm hne) v
  · intro hmem
    obtain ⟨entry, hentry, rfl⟩ := List.mem_map.mp hmem
    exact hentries entry hentry hk

end AgreeOn

end SortedMap

end GrServer
