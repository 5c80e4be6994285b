import GrServer.HotProbeCache
import GrServer.OldestFirst

/-!
# The cap of the hot cache

An upsert into a full cache evicts the terminal that has been idle longest.
Which one that is, is settled before the upserted terminal is spared: when its
own time stamp is the smallest, nothing is evicted and the cache outgrows its
cap.
-/

namespace GrServer

namespace HotProbeCache

open OldestFirst ReverseIndex

def Cache.lenHot (c : Cache) : ℕ := c.byVt.keys.length

section FloodBound

variable (compactProbePayload : Json → Json)

def Cache.entered (c : Cache) (b : BatchUpsert) : SortedMap String HotProbeEntry :=
  c.byVt.insert b.visitorTerminalId
    (b.entry compactProbePayload (c.byVt.get? b.visitorTerminalId))

/-- The iteration lists every terminal of the map once. -/
def ListsKeys (c : Cache) (b : BatchUpsert) : Prop :=
  b.iter.Perm (c.entered compactProbePayload b).keys

/-- What one upsert owes to the cap. -/
structure FloodBounded (c : Cache) (b : BatchUpsert) : Prop where
  bounded : (c.upsertBatch compactProbePayload b).lenHot ≤ b.hotMaxVts
  kept : ((c.upsertBatch compactProbePayload b).byVt.get? b.visitorTerminalId).isSome = true
  idlest : ∀ v e, c.byVt.get? v = some e →
    (c.upsertBatch compactProbePayload b).byVt.get? v = none →
    ∀ w e', (c.upsertBatch compactProbePayload b).byVt.get? w = some e' →
      w ≠ b.visitorTerminalId → e.lastUpdateMs ≤ e'.lastUpdateMs

/-- There is room, the terminal is in the cache already, or another one is
idle for longer: by its time stamp, or by the iteration between equal ones. -/
def LeavesRoom (c : Cache) (b : BatchUpsert) : Prop :=
  c.lenHot < b.hotMaxVts ∨ (c.byVt.get? b.visitorTerminalId).isSome = true ∨
    ∃ v e, c.byVt.get? v = some e ∧
      (e.lastUpdateMs < b.now ∨
        e.lastUpdateMs = b.now ∧ [v, b.visitorTerminalId].Sublist b.iter)

def Cache.idle (c : Cache) (b : BatchUpsert) : List (String × ℤ) :=
  b.iter.filterMap fun k =>
    ((c.entered compactProbePayload b).get? k).map fun e => (k, e.lastUpdateMs)

def Cache.excess (c : Cache) (b : BatchUpsert) : ℕ :=
  (c.entered compactProbePayload b).keys.length - b.hotMaxVts

variable {compactProbePayload} {c : Cache} {b : BatchUpsert}

/-! ## What an upsert leaves -/

theorem get?_entered (v : String) :
    (c.entered compactProbePayload b).get? v =
      if v = b.visitorTerminalId then
        some (b.entry compactProbePayload (c.byVt.get? b.visitorTerminalId))
      else c.byVt.get? v :=
  SortedMap.get?_insert _ _ _ _

theorem upsertBatch_byVt (v : String) :
    (c.upsertBatch compactProbePayload b).byVt.get? v =
      if v ∈ c.evicted compactProbePayload b then none
      else (c.entered compactProbePayload b).get? v :=
  eraseRows_rows _ _ v

theorem evicted_eq :
    c.evicted compactProbePayload b =
      if 0 < b.hotMaxVts ∧ b.hotMaxVts < (c.entered compactProbePayload b).keys.length then
        (((oldestFirst Prod.snd (c.idle compactProbePayload b)).take
          (min (c.excess compactProbePayload b) 64)).map Prod.fst).filter
            (· ≠ b.visitorTerminalId)
      else [] := by
  have hlength : (c.entered compactProbePayload b).keys.length =
      (c.entered compactProbePayload b).entries.length := List.length_map _
  unfold Cache.evicted victims Cache.excess
  rw [hlength]
  rfl

theorem mem_idle (hlists : ListsKeys compactProbePayload c b) {v : String} {t : ℤ} :
    (v, t) ∈ c.idle compactProbePayload b ↔
      ∃ e, (c.entered compactProbePayload b).get? v = some e ∧ e.lastUpdateMs = t := by
  unfold Cache.idle
  simp only [List.mem_filterMap, Option.map_eq_some_iff, Prod.mk.injEq]
  constructor
  · rintro ⟨k, -, e, he, hk, ht⟩
    exact ⟨e, hk ▸ he, ht⟩
  · rintro ⟨e, he, ht⟩
    have hmem : v ∈ (c.entered compactProbePayload b).keys := by
      rw [SortedMap.mem_keys, he]
      rfl
    exact ⟨v, hlists.mem_iff.mpr hmem, e, he, rfl, ht⟩

theorem upserted_kept :
    ((c.upsertBatch compactProbePayload b).byVt.get? b.visitorTerminalId).isSome = true := by
  have hspared : b.visitorTerminalId ∉ c.evicted compactProbePayload b := not_mem_victims _ b
  rw [upsertBatch_byVt, if_neg hspared, get?_entered, if_pos rfl]
  rfl

theorem evicted_idlest (hlists : ListsKeys compactProbePayload c b) {v w : String}
    {e e' : HotProbeEntry} (hv : c.byVt.get? v = some e)
    (hgone : (c.upsertBatch compactProbePayload b).byVt.get? v = none)
    (hw : (c.upsertBatch compactProbePayload b).byVt.get? w = some e')
    (hother : w ≠ b.visitorTerminalId) : e.lastUpdateMs ≤ e'.lastUpdateMs := by
  have hne : v ≠ b.visitorTerminalId := by
    intro hsame
    have hkept := @upserted_kept compactProbePayload c b
    rw [← hsame, hgone] at hkept
    cases hkept
  rw [upsertBatch_byVt] at hgone hw
  have hvin : (c.entered compactProbePayload b).get? v = some e := by
    rw [get?_entered, if_neg hne, hv]
  have hvout : v ∈ c.evicted compactProbePayload b := by
    by_contra hstays
    rw [if_neg hstays, hvin] at hgone
    cases hgone
  have hwstays : w ∉ c.evicted compactProbePayload b := by
    intro hgone
    rw [if_pos hgone] at hw
    cases hw
  rw [if_neg hwstays] at hw
  rw [evicted_eq] at hvout hwstays
  split_ifs at hvout hwstays with hfull
  · obtain ⟨hvtaken, -⟩ := List.mem_filter.mp hvout
    obtain ⟨⟨v', t⟩, htaken, hkey⟩ := List.mem_map.mp hvtaken
    dsimp only at hkey
    subst hkey
    have hidle := mem_oldestFirst.mp (List.mem_of_mem_take htaken)
    obtain ⟨e₁, he₁, ht⟩ := (mem_idle hlists).mp hidle
    rw [hvin, Option.some.injEq] at he₁
    have hwidle : (w, e'.lastUpdateMs) ∈ c.idle compactProbePayload b :=
      (mem_idle hlists).mpr ⟨e', hw, rfl⟩
    have hleft : (w, e'.lastUpdateMs) ∉
        (oldestFirst Prod.snd (c.idle compactProbePayload b)).take
          (min (c.excess compactProbePayload b) 64) := by
      intro hin
      apply hwstays
      rw [List.mem_filter]
      exact ⟨List.mem_map.mpr ⟨_, hin, rfl⟩, by simpa using hother⟩
    have hle := taken_le_left htaken hwidle hleft
    rw [he₁, ht]
    exact hle
  · cases hvout

theorem length_keys_entered :
    (c.entered compactProbePayload b).keys.length =
      if (c.byVt.get? b.visitorTerminalId).isSome = true then c.lenHot else c.lenHot + 1 := by
  unfold Cache.lenHot
  by_cases hin : (c.byVt.get? b.visitorTerminalId).isSome = true
  · have hperm : (c.entered compactProbePayload b).keys.Perm c.byVt.keys := by
      apply SortedMap.keys_perm c.byVt.keys_nodup
      intro k
      rw [get?_entered, SortedMap.mem_keys]
      by_cases hk : k = b.visitorTerminalId
      · simp [hk, hin]
      · simp [hk]
    rw [if_pos hin, hperm.length_eq]
  · have hnew : b.visitorTerminalId ∉ c.byVt.keys := fun hmem => hin (SortedMap.mem_keys.mp hmem)
    have hperm : (c.entered compactProbePayload b).keys.Perm
        (b.visitorTerminalId :: c.byVt.keys) := by
      apply SortedMap.keys_perm (List.nodup_cons.mpr ⟨hnew, c.byVt.keys_nodup⟩)
      intro k
      rw [get?_entered, List.mem_cons, SortedMap.mem_keys]
      by_cases hk : k = b.visitorTerminalId <;> simp [hk]
    rw [if_neg hin, hperm.length_eq, List.length_cons]

theorem lenHot_of_none_evicted (h : c.evicted compactProbePayload b = []) :
    (c.upsertBatch compactProbePayload b).lenHot =
      (c.entered compactProbePayload b).keys.length := by
  have hperm : (c.upsertBatch compactProbePayload b).byVt.keys.Perm
      (c.entered compactProbePayload b).keys := by
    apply SortedMap.keys_perm (SortedMap.keys_nodup _)
    intro k
    rw [upsertBatch_byVt, h, SortedMap.mem_keys]
    simp
  exact hperm.length_eq

theorem lenHot_of_one_evicted {v : String} (h : c.evicted compactProbePayload b = [v])
    (hv : v ∈ (c.entered compactProbePayload b).keys) :
    (c.upsertBatch compactProbePayload b).lenHot + 1 =
      (c.entered compactProbePayload b).keys.length := by
  have hperm : (v :: (c.upsertBatch compactProbePayload b).byVt.keys).Perm
      (c.entered compactProbePayload b).keys := by
    apply List.Perm.symm
    apply SortedMap.keys_perm
    · refine List.nodup_cons.mpr ⟨?_, SortedMap.keys_nodup _⟩
      rw [SortedMap.mem_keys, upsertBatch_byVt, h]
      simp
    · intro k
      rw [List.mem_cons, SortedMap.mem_keys, upsertBatch_byVt, h]
      by_cases hk : k = v
      · subst hk
        simpa using SortedMap.mem_keys.mp hv
      · simp [hk]
  rw [← hperm.length_eq, List.length_cons]
  rfl

theorem idle_append {front back : List String}
    (h : b.iter = front ++ b.visitorTerminalId :: back) :
    c.idle compactProbePayload b =
      (front.filterMap fun k =>
        ((c.entered compactProbePayload b).get? k).map fun e => (k, e.lastUpdateMs)) ++
      (b.visitorTerminalId, b.now) :: back.filterMap fun k =>
        ((c.entered compactProbePayload b).get? k).map fun e => (k, e.lastUpdateMs) := by
  unfold Cache.idle
  rw [h, List.filterMap_append, List.filterMap_cons, get?_entered, if_pos rfl]
  rfl

theorem mem_ages {ks : List String} (hself : b.visitorTerminalId ∉ ks) {k : String} {t : ℤ} :
    (k, t) ∈ ks.filterMap (fun k =>
        ((c.entered compactProbePayload b).get? k).map fun e => (k, e.lastUpdateMs)) ↔
      k ∈ ks ∧ ∃ e, c.byVt.get? k = some e ∧ e.lastUpdateMs = t := by
  rw [List.mem_filterMap]
  constructor
  · rintro ⟨k', hk, he⟩
    have hne : k' ≠ b.visitorTerminalId := fun hsame => hself (hsame ▸ hk)
    rw [get?_entered, if_neg hne] at he
    obtain ⟨e, hold, hpair⟩ := Option.map_eq_some_iff.mp he
    obtain ⟨rfl, rfl⟩ := Prod.mk.inj hpair
    exact ⟨hk, e, hold, rfl⟩
  · rintro ⟨hk, e, hold, rfl⟩
    have hne : k ≠ b.visitorTerminalId := fun hsame => hself (hsame ▸ hk)
    refine ⟨k, hk, ?_⟩
    rw [get?_entered, if_neg hne, hold]
    rfl

theorem head?_idle_iff (hlists : ListsKeys compactProbePayload c b) :
    (oldestFirst Prod.snd (c.idle compactProbePayload b)).head? =
        some (b.visitorTerminalId, b.now) ↔
      ¬ ∃ v e, c.byVt.get? v = some e ∧ v ≠ b.visitorTerminalId ∧
        (e.lastUpdateMs < b.now ∨
          e.lastUpdateMs = b.now ∧ [v, b.visitorTerminalId].Sublist b.iter) := by
  have hin : b.visitorTerminalId ∈ b.iter := by
    rw [hlists.mem_iff, SortedMap.mem_keys, get?_entered, if_pos rfl]
    rfl
  have hnodup : b.iter.Nodup := hlists.nodup_iff.mpr (SortedMap.keys_nodup _)
  obtain ⟨front, back, hiter⟩ := List.append_of_mem hin
  rw [hiter, List.nodup_middle, List.nodup_cons] at hnodup
  have hapart : b.visitorTerminalId ∉ front ∧ b.visitorTerminalId ∉ back := by
    rw [List.mem_append, not_or] at hnodup
    exact hnodup.1
  have hfront : (b.visitorTerminalId, b.now) ∉ front.filterMap fun k =>
      ((c.entered compactProbePayload b).get? k).map fun e => (k, e.lastUpdateMs) :=
    fun hmem => hapart.1 ((mem_ages hapart.1).mp hmem).1
  rw [idle_append hiter, head?_eq_iff hfront]
  have hsublist : ∀ k, [k, b.visitorTerminalId].Sublist b.iter ↔ k ∈ front := by
    intro k
    rw [hiter]
    exact pair_sublist_iff hapart.2
  constructor
  · rintro ⟨hbefore, hafter⟩ ⟨v, e, hv, hne, hidle⟩
    have hmem : v ∈ b.iter := by
      rw [hlists.mem_iff, SortedMap.mem_keys, get?_entered, if_neg hne, hv]
      rfl
    rw [hiter, List.mem_append, List.mem_cons] at hmem
    rcases hmem with hmem | hmem | hmem
    · have hlt := hbefore (v, e.lastUpdateMs) ((mem_ages hapart.1).mpr ⟨hmem, e, hv, rfl⟩)
      dsimp only at hlt
      rcases hidle with hidle | hidle <;> omega
    · exact hne hmem
    · have hle := hafter (v, e.lastUpdateMs) ((mem_ages hapart.2).mpr ⟨hmem, e, hv, rfl⟩)
      dsimp only at hle
      rcases hidle with hidle | hidle
      · omega
      · have hfirst := (hsublist v).mp hidle.2
        exact (List.disjoint_of_nodup_append hnodup.2) hfirst hmem
  · intro hnone
    constructor
    · rintro ⟨k, t⟩ hentry
      obtain ⟨hk, e, hold, rfl⟩ := (mem_ages hapart.1).mp hentry
      have hne : k ≠ b.visitorTerminalId := fun hsame => hapart.1 (hsame ▸ hk)
      by_contra hle
      apply hnone
      refine ⟨k, e, hold, hne, ?_⟩
      rcases lt_or_eq_of_le (not_lt.mp hle) with hlt | heq
      · exact Or.inl hlt
      · exact Or.inr ⟨heq, (hsublist k).mpr hk⟩
    · rintro ⟨k, t⟩ hentry
      obtain ⟨hk, e, hold, rfl⟩ := (mem_ages hapart.2).mp hentry
      have hne : k ≠ b.visitorTerminalId := fun hsame => hapart.2 (hsame ▸ hk)
      by_contra hlt
      exact hnone ⟨k, e, hold, hne, Or.inl (not_le.mp hlt)⟩

theorem evicted_of_fits (h : (c.entered compactProbePayload b).keys.length ≤ b.hotMaxVts) :
    c.evicted compactProbePayload b = [] := by
  rw [evicted_eq, if_neg fun hfull => absurd hfull.2 (not_lt.mpr h)]

theorem evicted_of_full (hcap : 0 < b.hotMaxVts)
    (h : (c.entered compactProbePayload b).keys.length = b.hotMaxVts + 1) :
    c.evicted compactProbePayload b =
      ((oldestFirst Prod.snd (c.idle compactProbePayload b)).head?.toList.map Prod.fst).filter
        (· ≠ b.visitorTerminalId) := by
  have hone : min (c.excess compactProbePayload b) 64 = 1 := by
    unfold Cache.excess
    omega
  rw [evicted_eq, if_pos ⟨hcap, by omega⟩, hone, List.take_one]

theorem bounded_of_full (hcap : 0 < b.hotMaxVts) (hlists : ListsKeys compactProbePayload c b)
    (hfull : c.lenHot = b.hotMaxVts)
    (hnew : (c.byVt.get? b.visitorTerminalId).isSome = false) :
    (c.upsertBatch compactProbePayload b).lenHot ≤ b.hotMaxVts ↔
      ¬ (oldestFirst Prod.snd (c.idle compactProbePayload b)).head? =
        some (b.visitorTerminalId, b.now) := by
  have hlength : (c.entered compactProbePayload b).keys.length = b.hotMaxVts + 1 := by
    rw [length_keys_entered, hnew, if_neg Bool.false_ne_true, hfull]
  have hevicted := evicted_of_full hcap hlength
  have hupserted : (b.visitorTerminalId, b.now) ∈ c.idle compactProbePayload b :=
    (mem_idle hlists).mpr ⟨_, by rw [get?_entered, if_pos rfl], rfl⟩
  have hsome := @head?_isSome _ _ _ Prod.snd _ (List.ne_nil_of_mem hupserted)
  obtain ⟨⟨v, t⟩, hhead⟩ := Option.isSome_iff_exists.mp hsome
  obtain ⟨e, he, ht⟩ := (mem_idle hlists).mp (mem_oldestFirst.mp (List.mem_of_head? hhead))
  rw [hhead] at hevicted ⊢
  by_cases hv : v = b.visitorTerminalId
  · have hnow : t = b.now := by
      rw [hv, get?_entered, if_pos rfl, Option.some.injEq] at he
      rw [← ht, ← he]
      rfl
    have hnone : c.evicted compactProbePayload b = [] := by
      rw [hevicted, hv]
      simp
    rw [lenHot_of_none_evicted hnone, hlength, hv, hnow]
    constructor
    · intro hle
      omega
    · intro hother
      exact absurd rfl hother
  · have hone : c.evicted compactProbePayload b = [v] := by
      rw [hevicted]
      simp [hv]
    have hmem : v ∈ (c.entered compactProbePayload b).keys := by
      rw [SortedMap.mem_keys, he]
      rfl
    have hcount := lenHot_of_one_evicted hone hmem
    constructor
    · intro _ hsame
      exact hv (Prod.mk.inj (Option.some.inj hsame)).1
    · intro _
      omega

theorem floodBounded_iff (hcap : 0 < b.hotMaxVts) (hlists : ListsKeys compactProbePayload c b)
    (hwithin : c.lenHot ≤ b.hotMaxVts) :
    FloodBounded compactProbePayload c b ↔ LeavesRoom c b := by
  have hbound : FloodBounded compactProbePayload c b ↔
      (c.upsertBatch compactProbePayload b).lenHot ≤ b.hotMaxVts := by
    constructor
    · intro h
      exact h.bounded
    · intro h
      refine ⟨h, upserted_kept, ?_⟩
      intro v e hv hgone w e' hw hother
      exact evicted_idlest hlists hv hgone hw hother
  rw [hbound]
  cases hin : (c.byVt.get? b.visitorTerminalId).isSome with
  | true =>
      have hlength : (c.entered compactProbePayload b).keys.length = c.lenHot := by
        rw [length_keys_entered, if_pos hin]
      have hnone := @evicted_of_fits compactProbePayload c b (by omega)
      have hlen := lenHot_of_none_evicted hnone
      exact iff_of_true (by omega) (Or.inr (Or.inl hin))
  | false =>
      have hlength : (c.entered compactProbePayload b).keys.length = c.lenHot + 1 := by
        rw [length_keys_entered, hin, if_neg Bool.false_ne_true]
      by_cases hroom : c.lenHot < b.hotMaxVts
      · have hnone := @evicted_of_fits compactProbePayload c b (by omega)
        have hlen := lenHot_of_none_evicted hnone
        exact iff_of_true (by omega) (Or.inl hroom)
      · have hfull : c.lenHot = b.hotMaxVts := by omega
        rw [bounded_of_full hcap hlists hfull hin, head?_idle_iff hlists, not_not]
        constructor
        · rintro ⟨v, e, hv, -, hidle⟩
          exact Or.inr (Or.inr ⟨v, e, hv, hidle⟩)
        · rintro (hlt | hsome | ⟨v, e, hv, hidle⟩)
          · exact absurd hlt hroom
          · rw [hin] at hsome
            cases hsome
          · refine ⟨v, e, hv, ?_, hidle⟩
            intro hsame
            rw [← hsame, hv] at hin
            cases hin

/-- The cap holds after every upsert of a run exactly when each of them leaves
room. -/
theorem run_flood_bounded_iff {cap : ℕ} (hcap : 0 < cap) {upserts : List BatchUpsert}
    (hcaps : ∀ b ∈ upserts, b.hotMaxVts = cap)
    (hlists : Along (Cache.upsertBatch compactProbePayload) (ListsKeys compactProbePayload)
      Cache.new upserts) :
    Along (Cache.upsertBatch compactProbePayload) (FloodBounded compactProbePayload)
        Cache.new upserts ↔
      Along (Cache.upsertBatch compactProbePayload) LeavesRoom Cache.new upserts := by
  have hguard := hlists.and (along_of_forall fun _ b hb => hcaps b hb)
  have hwithin : (Cache.new).lenHot ≤ cap := Nat.zero_le cap
  refine Along.iff_of_steps (I := fun c => c.lenHot ≤ cap) ?_ ?_ hguard hwithin
  · intro c b hc hb
    obtain ⟨hlist, hb⟩ := hb
    exact floodBounded_iff (by omega) hlist (by omega)
  · intro c b _ hb hbounded
    have hnext := hbounded.bounded
    rw [hb.2] at hnext
    exact hnext

end FloodBound

def capUpsert (vt : String) (now : ℤ) (iter : List String) : BatchUpsert where
  visitorTerminalId := vt
  sessionId := "c_" ++ vt
  batchId := "B0_bootstrap"
  payload := .null
  clientIp := none
  now := now
  hotMaxVts := 1
  iter := iter

/-- A later terminal takes the place of the first. -/
theorem later_terminal_bounded :
    Along (Cache.upsertBatch id) (FloodBounded id) Cache.new
      [capUpsert "vt_1" 10 ["vt_1"], capUpsert "vt_2" 11 ["vt_2", "vt_1"]] := by
  have hroom : Along (Cache.upsertBatch id) LeavesRoom Cache.new
      [capUpsert "vt_1" 10 ["vt_1"], capUpsert "vt_2" 11 ["vt_2", "vt_1"]] := by
    refine ⟨Or.inl (by decide), Or.inr (Or.inr ?_), trivial⟩
    exact ⟨"vt_1", _, rfl, Or.inl (by decide)⟩
  have hlists : Along (Cache.upsertBatch id) (ListsKeys id) Cache.new
      [capUpsert "vt_1" 10 ["vt_1"], capUpsert "vt_2" 11 ["vt_2", "vt_1"]] := by
    refine ⟨?_, ?_, trivial⟩ <;> unfold ListsKeys <;> decide
  exact (run_flood_bounded_iff Nat.one_pos (by decide) hlists).mpr hroom

/-- In one millisecond with the first, and listed before it, the second terminal
is picked for eviction, spared, and leaves two in the cache. -/
theorem same_millisecond_overflows :
    Along (Cache.upsertBatch id) (ListsKeys id) Cache.new
        [capUpsert "vt_1" 10 ["vt_1"], capUpsert "vt_2" 10 ["vt_2", "vt_1"]] ∧
      ¬ Along (Cache.upsertBatch id) (FloodBounded id) Cache.new
        [capUpsert "vt_1" 10 ["vt_1"], capUpsert "vt_2" 10 ["vt_2", "vt_1"]] := by
  constructor
  · refine ⟨?_, ?_, trivial⟩ <;> unfold ListsKeys <;> decide
  · intro hrun
    have hbounded := hrun.2.1.bounded
    have htwo : (runFrom (Cache.upsertBatch id) Cache.new
        [capUpsert "vt_1" 10 ["vt_1"],
          capUpsert "vt_2" 10 ["vt_2", "vt_1"]]).lenHot = 2 := by
      decide
    have hcap : (runFrom (Cache.upsertBatch id) Cache.new
        [capUpsert "vt_1" 10 ["vt_1"],
          capUpsert "vt_2" 10 ["vt_2", "vt_1"]]).lenHot ≤ 1 := hbounded
    omega

end HotProbeCache

end GrServer
