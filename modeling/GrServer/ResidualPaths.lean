import GrServer.EvidenceMerge
import GrServer.GuardedRun
import GrServer.KeyOrder

/-!
# The residual paths over a run of batches

A path without an id is kept under a made-up key, and a deepen batch is held off
from what stands under a primary id at that moment.  Two things can go wrong: a
made-up key meets a real id, and the deepen batch comes before the healthy
primary path or after a better unhealthy one.
-/

namespace GrServer

open Json Text

namespace EvidenceMerge

/-! ## Runs -/

structure PathBatch where
  batchId : Option String
  paths : List Json

structure PathRun where
  fields : Fields
  offers : List (Option String × Json)

def PathRun.start (base : Fields) : PathRun := ⟨base, []⟩

def PathRun.merge (r : PathRun) (b : PathBatch) : PathRun where
  fields := mergeResidualPathsFieldEx r.fields (.arr b.paths) b.batchId
  offers := r.offers ++ b.paths.map fun e => (b.batchId, e)

def pathId (e : Json) : String := e.strOr "path_id"

def PathRun.paths (r : PathRun) : List Json :=
  ((r.fields.get? "residual_paths").bind asArray).getD []

def namedIds (paths : List Json) : List String :=
  (paths.map pathId).filter (· ≠ "")

def PathRun.Genuine (r : PathRun) (e : Json) : Prop :=
  ∃ o ∈ r.offers, isB10xBatchId o.1 = false ∧ o.2 = e

def PathRun.HealthySeen (r : PathRun) (p : String) : Prop :=
  ∃ e, r.Genuine e ∧ pathId e = p ∧ residualPathOk e = true

/-- What a merge owes to the ids, their order and the primary paths. -/
structure PathsSound (before after : PathRun) : Prop where
  once : (namedIds after.paths).Nodup
  seen : ∀ p, p ∈ namedIds after.paths ↔ p ≠ "" ∧ ∃ o ∈ after.offers, pathId o.2 = p
  counted : after.fields.get? "residual_paths_n" = some (ofInt after.paths.length)
  ordered : (namedIds before.paths).Sublist (namedIds after.paths)
  guarded : ∀ p, isB10PrimaryResidualPathId p = true → after.HealthySeen p →
    ∀ e ∈ after.paths, pathId e = p → after.Genuine e

/-- A path takes the place of another under its key. -/
def prefersNew (batchId : Option String) (key : String) (old e : Json) : Bool :=
  !(isB10xBatchId batchId && isB10PrimaryResidualPathId key && residualPathOk old) &&
    pathScore old ≤ pathScore e

def anonKey (n : ℕ) : String := "anon_" ++ n.repr

structure PathKept (r : PathRun) (batchId : Option String) (e : Json) : Prop where
  /-- A path without an id does not displace the path whose id it is given. -/
  unnamed : pathId e = "" → ∀ old ∈ r.paths, pathId old = anonKey r.paths.length →
    prefersNew batchId (anonKey r.paths.length) old e = false
  /-- A path displaces one without an id that was given its id. -/
  named : ∀ i old, r.paths[i]? = some old → pathId old = "" → pathId e = anonKey i →
    prefersNew batchId (anonKey i) old e = true
  deepened : isB10xBatchId batchId = true → isB10PrimaryResidualPathId (pathId e) = true →
    r.HealthySeen (pathId e) → ∀ old ∈ r.paths, pathId old = pathId e →
      residualPathOk old = true ∨ pathScore e < pathScore old ∨ r.Genuine e
  primary : isB10xBatchId batchId = false → isB10PrimaryResidualPathId (pathId e) = true →
    r.HealthySeen (pathId e) ∨ residualPathOk e = true →
      ∀ old ∈ r.paths, pathId old = pathId e →
        pathScore old ≤ pathScore e ∨ r.Genuine old

def PathRun.mergePart (r : PathRun) (b : PathBatch) (es : List Json) : PathRun :=
  r.merge ⟨b.batchId, es⟩

/-! ## Keys -/

def keyAt (n : ℕ) (e : Json) : String :=
  if pathId e = "" then anonKey n else pathId e

def keysOf (paths : List Json) : List String := paths.mapIdx keyAt

theorem keyOf_eq (t : PathTable) (e : Json) :
    t.keyOf e = keyAt t.byId.entries.length e := rfl

theorem keysOf_concat (paths : List Json) (e : Json) :
    keysOf (paths ++ [e]) = keysOf paths ++ [keyAt paths.length e] :=
  List.mapIdx_concat

theorem keysOf_replace {front back : List Json} {old e : Json}
    (h : keyAt front.length e = keyAt front.length old) :
    keysOf (front ++ e :: back) = keysOf (front ++ old :: back) := by
  unfold keysOf
  rw [List.mapIdx_append, List.mapIdx_append, List.mapIdx_cons, List.mapIdx_cons,
    Nat.zero_add, h]

theorem length_keysOf (paths : List Json) : (keysOf paths).length = paths.length :=
  List.length_mapIdx

theorem keyAt_of_named {e : Json} (h : pathId e ≠ "") (n : ℕ) : keyAt n e = pathId e :=
  if_neg h

theorem keyAt_of_unnamed {e : Json} (h : pathId e = "") (n : ℕ) : keyAt n e = anonKey n :=
  if_pos h

theorem anonKey_inj {m n : ℕ} (h : anonKey m = anonKey n) : m = n := by
  have hlist := congrArg String.toList h
  simp only [anonKey, String.toList_append] at hlist
  exact Nat.repr_injective (String.toList_injective (List.append_cancel_left hlist))

theorem anonKey_ne_empty (n : ℕ) : anonKey n ≠ "" := by
  intro h
  have hlist := congrArg String.toList h
  simp [anonKey] at hlist

theorem keyAt_ne_empty (n : ℕ) (e : Json) : keyAt n e ≠ "" := by
  unfold keyAt
  split_ifs with h
  · exact anonKey_ne_empty n
  · exact h

theorem mem_namedIds {paths : List Json} {p : String} :
    p ∈ namedIds paths ↔ p ≠ "" ∧ ∃ e ∈ paths, pathId e = p := by
  unfold namedIds
  rw [List.mem_filter, List.mem_map, and_comm, decide_eq_true_eq]

theorem keysOf_getElem? (paths : List Json) (i : ℕ) :
    (keysOf paths)[i]? = (paths[i]?).map (keyAt i) :=
  List.getElem?_mapIdx

theorem eq_of_key {paths : List Json} (hkeys : (keysOf paths).Nodup) {i j : ℕ} {x y : Json}
    (hx : paths[i]? = some x) (hy : paths[j]? = some y) (hkey : keyAt i x = keyAt j y) :
    i = j := by
  have hbound : i < (keysOf paths).length := by
    rw [length_keysOf]
    exact (List.getElem?_eq_some_iff.mp hx).1
  refine (List.getElem?_inj hbound hkeys).mp ?_
  rw [keysOf_getElem?, keysOf_getElem?, hx, hy, Option.map_some, Option.map_some, hkey]

theorem namedIds_concat (paths : List Json) (e : Json) :
    namedIds (paths ++ [e]) = namedIds paths ++ namedIds [e] := by
  unfold namedIds
  rw [List.map_append, List.filter_append]

theorem namedIds_sublist_keysOf (paths : List Json) :
    (namedIds paths).Sublist (keysOf paths) := by
  induction paths using List.reverseRecOn with
  | nil => exact List.Sublist.refl _
  | append_singleton init e ih =>
      rw [namedIds_concat, keysOf_concat]
      refine ih.append ?_
      by_cases he : pathId e = ""
      · simp [namedIds, he]
      · simp [namedIds, he, keyAt_of_named he]

theorem namedIds_replace_named {front back : List Json} {old e : Json}
    (h : pathId e = pathId old) :
    namedIds (front ++ e :: back) = namedIds (front ++ old :: back) := by
  simp [namedIds, h]

theorem namedIds_replace_unnamed {front back : List Json} {old e : Json}
    (h : pathId old = "") :
    (namedIds (front ++ old :: back)).Sublist (namedIds (front ++ e :: back)) := by
  have hdrop : namedIds (front ++ old :: back) = namedIds (front ++ back) := by
    simp [namedIds, h]
  rw [hdrop]
  exact ((List.Sublist.refl front).append (List.sublist_cons_self e back)).map pathId |>.filter _

/-! ## One path -/

structure Tabled (t : PathTable) (paths : List Json) : Prop where
  ordered : t.byId.Ordered t.order
  order : t.order = keysOf paths
  values : t.byId.valuesOf t.order = paths

theorem Tabled.length {t : PathTable} {paths : List Json} (h : Tabled t paths) :
    t.byId.entries.length = paths.length := by
  rw [h.ordered.length_entries, h.order, length_keysOf]

theorem noted_of_mem {t : PathTable} {key : String} (h : t.byId.Ordered t.order)
    (hkey : key ∈ t.order) : t.noted key = t.order :=
  if_pos ((h.bound key).mpr hkey)

theorem noted_of_not_mem {t : PathTable} {key : String} (h : t.byId.Ordered t.order)
    (hkey : key ∉ t.order) : t.noted key = t.order ++ [key] :=
  if_neg fun hbound => hkey ((h.bound key).mp hbound)

theorem Tabled.append {t : PathTable} {paths : List Json} (h : Tabled t paths) {e : Json}
    (hkey : keyAt paths.length e ∉ keysOf paths) :
    Tabled ⟨t.byId.insert (keyAt paths.length e) e, t.noted (keyAt paths.length e)⟩
      (paths ++ [e]) := by
  rw [← h.order] at hkey
  rw [noted_of_not_mem h.ordered hkey]
  refine ⟨h.ordered.insert_new hkey e, ?_, ?_⟩
  · rw [keysOf_concat, h.order]
  · exact (SortedMap.valuesOf_insert_new hkey e).trans (congrArg (· ++ [e]) h.values)

theorem tabled_existing {paths : List Json} (hkeys : (keysOf paths).Nodup) :
    Tabled (paths.foldl PathTable.addExisting ⟨SortedMap.empty, []⟩) paths := by
  induction paths using List.reverseRecOn with
  | nil => exact ⟨SortedMap.ordered_empty, rfl, rfl⟩
  | append_singleton init e ih =>
      rw [keysOf_concat] at hkeys
      obtain ⟨hinit, -, hdisjoint⟩ := List.nodup_append.mp hkeys
      have htabled := ih hinit
      have hnew : keyAt init.length e ∉ keysOf init := fun hmem =>
        hdisjoint _ hmem _ (List.mem_singleton_self _) rfl
      rw [List.foldl_append, List.foldl_cons, List.foldl_nil, PathTable.addExisting, keyOf_eq,
        htabled.length]
      exact htabled.append hnew

inductive Placed (batchId : Option String) (paths : List Json) (e : Json) :
    List Json → Prop
  | fresh : keyAt paths.length e ∉ keysOf paths → Placed batchId paths e (paths ++ [e])
  | kept (front back : List Json) (old : Json) : paths = front ++ old :: back →
      keyAt front.length old = keyAt paths.length e →
      prefersNew batchId (keyAt paths.length e) old e = false → Placed batchId paths e paths
  | replaced (front back : List Json) (old : Json) : paths = front ++ old :: back →
      keyAt front.length old = keyAt paths.length e →
      prefersNew batchId (keyAt paths.length e) old e = true →
      Placed batchId paths e (front ++ e :: back)

theorem addIncoming_eq (batchId : Option String) (t : PathTable) (e : Json) :
    t.addIncoming batchId e =
      if (t.byId.get? (t.keyOf e)).all fun old => prefersNew batchId (t.keyOf e) old e then
        ⟨t.byId.insert (t.keyOf e) e, t.noted (t.keyOf e)⟩
      else ⟨t.byId, t.noted (t.keyOf e)⟩ := by
  unfold PathTable.addIncoming prefersNew
  cases hget : t.byId.get? (t.keyOf e) with
  | none => simp [hget]
  | some old =>
      cases hdeep : isB10xBatchId batchId && isB10PrimaryResidualPathId (t.keyOf e) &&
          residualPathOk old with
      | true =>
          simp only [hget, hdeep, Option.any_some, Option.all_some, Bool.not_true,
            Bool.false_and, Bool.false_eq_true, if_true, if_false]
      | false =>
          simp only [hget, hdeep, Option.any_some, Option.all_some, Bool.not_false,
            Bool.true_and, Bool.false_eq_true, if_false]

theorem Tabled.addIncoming {t : PathTable} {paths : List Json} (h : Tabled t paths)
    (batchId : Option String) (e : Json) :
    ∃ paths', Placed batchId paths e paths' ∧
      (t.addIncoming batchId e).byId.valuesOf (t.addIncoming batchId e).order = paths' ∧
      (keysOf paths <+: keysOf paths' → Tabled (t.addIncoming batchId e) paths') := by
  rw [addIncoming_eq, keyOf_eq, h.length]
  by_cases hkey : keyAt paths.length e ∈ t.order
  · obtain ⟨ks, js, old, horder, hold, hvalues, hlength, hinsert⟩ := h.ordered.valuesOf_split hkey
    have hpaths : paths = t.byId.valuesOf ks ++ old :: t.byId.valuesOf js :=
      h.values.symm.trans hvalues
    have hkeyOld : keyAt (t.byId.valuesOf ks).length old = keyAt paths.length e := by
      have hplace : (keysOf paths)[ks.length]? = some (keyAt paths.length e) := by
        rw [← h.order, horder]
        simp
      rw [keysOf_getElem?, hpaths, ← hlength, List.getElem?_append_right le_rfl, Nat.sub_self,
        List.getElem?_cons_zero, Option.map_some] at hplace
      rw [hpaths]
      exact Option.some.inj hplace
    rw [noted_of_mem h.ordered hkey, hold, Option.all_some]
    split_ifs with hprefers
    · refine ⟨_, .replaced _ _ old hpaths hkeyOld hprefers, hinsert e, ?_⟩
      intro hkeys
      refine ⟨h.ordered.insert_old hkey e, ?_, hinsert e⟩
      refine h.order.trans (hkeys.eq_of_length ?_)
      rw [length_keysOf, length_keysOf, hpaths]
      simp
    · refine ⟨paths, .kept _ _ old hpaths hkeyOld (Bool.not_eq_true _ ▸ hprefers), h.values, ?_⟩
      intro hkeys
      exact h
  · have hnew : t.byId.get? (keyAt paths.length e) = none := by
      rw [← Option.not_isSome_iff_eq_none, h.ordered.bound]
      exact hkey
    rw [h.order] at hkey
    rw [hnew, Option.all_none, if_pos rfl]
    have happended := h.append hkey
    exact ⟨_, .fresh hkey, happended.values, fun _ => happended⟩

/-! ## What a path does to the promise -/

structure PathsHeld (r : PathRun) : Prop where
  seen : ∀ p, p ∈ namedIds r.paths ↔ p ≠ "" ∧ ∃ o ∈ r.offers, pathId o.2 = p
  guarded : ∀ p, isB10PrimaryResidualPathId p = true → r.HealthySeen p →
    ∀ e ∈ r.paths, pathId e = p → r.Genuine e

structure PathInv (r : PathRun) : Prop extends PathsHeld r where
  keys : (keysOf r.paths).Nodup

theorem ne_empty_of_primary {p : String} (h : isB10PrimaryResidualPathId p = true) :
    p ≠ "" := by
  rintro rfl
  revert h
  decide

section Offer

variable {r r' : PathRun} {batchId : Option String} {e : Json}

theorem genuine_offer (hoffers : r'.offers = r.offers ++ [(batchId, e)]) (x : Json) :
    r'.Genuine x ↔ r.Genuine x ∨ (isB10xBatchId batchId = false ∧ e = x) := by
  unfold PathRun.Genuine
  rw [hoffers]
  simp [or_and_right, exists_or]

theorem healthySeen_offer (hoffers : r'.offers = r.offers ++ [(batchId, e)]) (p : String) :
    r'.HealthySeen p ↔ r.HealthySeen p ∨
      (isB10xBatchId batchId = false ∧ pathId e = p ∧ residualPathOk e = true) := by
  unfold PathRun.HealthySeen
  simp only [genuine_offer hoffers, or_and_right, exists_or, and_assoc]
  simp

theorem seen_offer (hoffers : r'.offers = r.offers ++ [(batchId, e)]) (p : String) :
    (∃ o ∈ r'.offers, pathId o.2 = p) ↔
      (∃ o ∈ r.offers, pathId o.2 = p) ∨ pathId e = p := by
  rw [hoffers]
  simp only [List.mem_append, List.mem_singleton, or_and_right, exists_or, exists_eq_left]

theorem seen_of_healthySeen {p : String} (h : r.HealthySeen p) :
    ∃ o ∈ r.offers, pathId o.2 = p := by
  obtain ⟨x, ⟨o, ho, -, rfl⟩, hp, -⟩ := h
  exact ⟨o, ho, hp⟩

theorem named_mem_keysOf {paths : List Json} {x : Json} (hx : x ∈ paths)
    (hnamed : pathId x ≠ "") : pathId x ∈ keysOf paths :=
  (namedIds_sublist_keysOf paths).subset (mem_namedIds.mpr ⟨hnamed, x, hx, rfl⟩)

theorem key_mem_keysOf {paths : List Json} {x : Json} {i : ℕ} (hx : paths[i]? = some x) :
    keyAt i x ∈ keysOf paths := by
  have hkey : (keysOf paths)[i]? = some (keyAt i x) := by
    rw [keysOf_getElem?, hx, Option.map_some]
  exact List.mem_of_getElem? hkey

theorem genuine_of_unseen (hinv : PathInv r) (hoffers : r'.offers = r.offers ++ [(batchId, e)])
    (hprimary : isB10PrimaryResidualPathId (pathId e) = true)
    (hunseen : pathId e ∉ namedIds r.paths) (hhealthy : r'.HealthySeen (pathId e)) :
    r'.Genuine e := by
  rcases (healthySeen_offer hoffers _).mp hhealthy with hseen | hnew
  · exact absurd ((hinv.seen _).mpr
      ⟨ne_empty_of_primary hprimary, seen_of_healthySeen hseen⟩) hunseen
  · exact (genuine_offer hoffers e).mpr (Or.inr ⟨hnew.1, rfl⟩)

theorem genuine_of_other (hinv : PathInv r) (hoffers : r'.offers = r.offers ++ [(batchId, e)])
    {p : String} (hprimary : isB10PrimaryResidualPathId p = true) (hp : pathId e ≠ p)
    (hhealthy : r'.HealthySeen p) {x : Json} (hx : x ∈ r.paths) (hxp : pathId x = p) :
    r'.Genuine x := by
  rcases (healthySeen_offer hoffers p).mp hhealthy with hseen | hnew
  · exact (genuine_offer hoffers x).mpr (Or.inl (hinv.guarded p hprimary hseen x hx hxp))
  · exact absurd hnew.2.1 hp

theorem kept_of_fresh (hkey : keyAt r.paths.length e ∉ keysOf r.paths) :
    PathKept r batchId e := by
  have hother : pathId e ≠ "" → ∀ old ∈ r.paths, pathId old ≠ pathId e := by
    intro hnamed old hold heq
    apply hkey
    rw [keyAt_of_named hnamed, ← heq]
    exact named_mem_keysOf hold (heq ▸ hnamed)
  refine ⟨?_, ?_, ?_, ?_⟩
  · intro hunnamed old hold hid
    refine absurd (named_mem_keysOf hold (hid ▸ anonKey_ne_empty _)) ?_
    rw [hid, ← keyAt_of_unnamed hunnamed]
    exact hkey
  · intro i old hold hunnamed hid
    refine absurd (key_mem_keysOf hold) ?_
    rw [keyAt_of_unnamed hunnamed, ← hid, ← keyAt_of_named (hid ▸ anonKey_ne_empty i)]
    exact hkey
  · intro _ hprimary _ old hold hid
    exact absurd hid (hother (ne_empty_of_primary hprimary) old hold)
  · intro _ hprimary _ old hold hid
    exact absurd hid (hother (ne_empty_of_primary hprimary) old hold)

theorem held_of_unseen (hinv : PathInv r) (hoffers : r'.offers = r.offers ++ [(batchId, e)])
    (hids : ∀ p, p ∈ namedIds r'.paths ↔ p ∈ namedIds r.paths ∨ p ≠ "" ∧ pathId e = p)
    (hpaths : ∀ x ∈ r'.paths, x = e ∨ x ∈ r.paths)
    (hunseen : pathId e ≠ "" → pathId e ∉ namedIds r.paths) : PathsHeld r' := by
  constructor
  · intro p
    rw [hids, hinv.seen, seen_offer hoffers, and_or_left]
  · intro p hprimary hhealthy x hx hid
    by_cases hp : pathId e = p
    · subst hp
      have hnamed := ne_empty_of_primary hprimary
      rcases hpaths x hx with rfl | hx
      · exact genuine_of_unseen hinv hoffers hprimary (hunseen hnamed) hhealthy
      · exact absurd (mem_namedIds.mpr ⟨hnamed, x, hx, hid⟩) (hunseen hnamed)
    · rcases hpaths x hx with rfl | hx
      · exact absurd hid hp
      · exact genuine_of_other hinv hoffers hprimary hp hhealthy hx hid

theorem held_of_fresh (hinv : PathInv r) (hoffers : r'.offers = r.offers ++ [(batchId, e)])
    (hkey : keyAt r.paths.length e ∉ keysOf r.paths) (hpaths : r'.paths = r.paths ++ [e]) :
    PathsHeld r' := by
  apply held_of_unseen hinv hoffers
  · intro p
    have hnew : p ∈ namedIds [e] ↔ p ≠ "" ∧ pathId e = p := by
      rw [mem_namedIds]
      simp only [List.mem_singleton, exists_eq_left]
    rw [hpaths, namedIds_concat, List.mem_append, hnew]
  · intro x hx
    rw [hpaths, List.mem_append, List.mem_singleton] at hx
    exact hx.symm
  · intro hnamed hmem
    apply hkey
    rw [keyAt_of_named hnamed]
    exact (namedIds_sublist_keysOf _).subset hmem

end Offer

section Collision

variable {r r' : PathRun} {batchId : Option String} {e old : Json} {front back : List Json}

theorem at_place (hkeys : (keysOf r.paths).Nodup) (hpaths : r.paths = front ++ old :: back)
    {i : ℕ} {x : Json} (hx : r.paths[i]? = some x)
    (hkey : keyAt i x = keyAt front.length old) : i = front.length ∧ x = old := by
  have hold : r.paths[front.length]? = some old := by
    rw [hpaths]
    simp
  have hplace := eq_of_key hkeys hx hold hkey
  rw [hplace, hold] at hx
  exact ⟨hplace, (Option.some.inj hx).symm⟩

theorem eq_old (hkeys : (keysOf r.paths).Nodup) (hpaths : r.paths = front ++ old :: back)
    {x : Json} (hx : x ∈ r.paths) (hid : pathId x = keyAt front.length old) : x = old := by
  obtain ⟨i, hi⟩ := List.mem_iff_getElem?.mp hx
  have hnamed : pathId x ≠ "" := hid ▸ keyAt_ne_empty _ _
  exact (at_place hkeys hpaths hi ((keyAt_of_named hnamed i).trans hid)).2

theorem rest_ne (hkeys : (keysOf r.paths).Nodup) (hpaths : r.paths = front ++ old :: back)
    {x : Json} (hx : x ∈ front ∨ x ∈ back) : pathId x ≠ keyAt front.length old := by
  intro hid
  have hnamed : pathId x ≠ "" := hid ▸ keyAt_ne_empty _ _
  have hsome : ∃ i, i ≠ front.length ∧ r.paths[i]? = some x := by
    rw [hpaths]
    rcases hx with hx | hx
    · obtain ⟨i, hi, hget⟩ := List.mem_iff_getElem.mp hx
      refine ⟨i, hi.ne, ?_⟩
      rw [List.getElem?_append_left hi, List.getElem?_eq_getElem hi, hget]
    · obtain ⟨i, hi⟩ := List.mem_iff_getElem?.mp hx
      refine ⟨front.length + (i + 1), by omega, ?_⟩
      rw [List.getElem?_append_right (by omega), Nat.add_sub_cancel_left,
        List.getElem?_cons_succ, hi]
  obtain ⟨i, hi, hget⟩ := hsome
  exact hi (at_place hkeys hpaths hget ((keyAt_of_named hnamed i).trans hid)).1

theorem collision_cases (hpaths : r.paths = front ++ old :: back)
    (hkey : keyAt front.length old = keyAt r.paths.length e) :
    (pathId old = "" ∧ pathId e = anonKey front.length) ∨
      (pathId e = "" ∧ pathId old = anonKey r.paths.length) ∨
      (pathId e ≠ "" ∧ pathId old = pathId e) := by
  by_cases hold : pathId old = ""
  · by_cases he : pathId e = ""
    · rw [keyAt_of_unnamed hold, keyAt_of_unnamed he] at hkey
      have hplace := anonKey_inj hkey
      have hlength := congrArg List.length hpaths
      rw [List.length_append, List.length_cons] at hlength
      omega
    · rw [keyAt_of_unnamed hold, keyAt_of_named he] at hkey
      exact Or.inl ⟨hold, hkey.symm⟩
  · rw [keyAt_of_named hold] at hkey
    by_cases he : pathId e = ""
    · rw [keyAt_of_unnamed he] at hkey
      exact Or.inr (Or.inl ⟨he, hkey⟩)
    · rw [keyAt_of_named he] at hkey
      exact Or.inr (Or.inr ⟨he, hkey⟩)

theorem unseen_of_given (hkeys : (keysOf r.paths).Nodup)
    (hpaths : r.paths = front ++ old :: back) (hold : pathId old = "")
    (he : pathId e = anonKey front.length) : pathId e ∉ namedIds r.paths := by
  intro hmem
  obtain ⟨hnamed, x, hx, hid⟩ := mem_namedIds.mp hmem
  rw [he, ← keyAt_of_unnamed hold] at hid
  have heq := eq_old hkeys hpaths hx hid
  rw [heq, hold] at hid
  exact keyAt_ne_empty _ _ hid.symm

theorem held_of_given_kept (hinv : PathInv r)
    (hoffers : r'.offers = r.offers ++ [(batchId, e)])
    (hpaths : r.paths = front ++ old :: back) (hold : pathId old = "")
    (he : pathId e = anonKey front.length) (hpaths' : r'.paths = r.paths) :
    ¬ PathsHeld r' := by
  intro hheld
  refine unseen_of_given hinv.keys hpaths hold he ?_
  rw [← hpaths', hheld.seen, seen_offer hoffers]
  exact ⟨he ▸ anonKey_ne_empty _, Or.inr rfl⟩

theorem held_of_given_replaced (hinv : PathInv r)
    (hoffers : r'.offers = r.offers ++ [(batchId, e)])
    (hpaths : r.paths = front ++ old :: back) (hold : pathId old = "")
    (he : pathId e = anonKey front.length) (hpaths' : r'.paths = front ++ e :: back) :
    PathsHeld r' := by
  apply held_of_unseen hinv hoffers
  · intro p
    rw [hpaths', hpaths, mem_namedIds, mem_namedIds]
    simp only [List.mem_append, List.mem_cons]
    constructor
    · rintro ⟨hp, x, hx | rfl | hx, hid⟩
      · exact Or.inl ⟨hp, x, Or.inl hx, hid⟩
      · exact Or.inr ⟨hp, hid⟩
      · exact Or.inl ⟨hp, x, Or.inr (Or.inr hx), hid⟩
    · rintro (⟨hp, x, hx | rfl | hx, hid⟩ | ⟨hp, hid⟩)
      · exact ⟨hp, x, Or.inl hx, hid⟩
      · exact absurd (hid.symm.trans hold) hp
      · exact ⟨hp, x, Or.inr (Or.inr hx), hid⟩
      · exact ⟨hp, e, Or.inr (Or.inl rfl), hid⟩
  · intro x hx
    rw [hpaths', List.mem_append, List.mem_cons] at hx
    rw [hpaths, List.mem_append, List.mem_cons]
    rcases hx with hx | hx | hx
    · exact Or.inr (Or.inl hx)
    · exact Or.inl hx
    · exact Or.inr (Or.inr (Or.inr hx))
  · exact fun _ => unseen_of_given hinv.keys hpaths hold he

theorem kept_iff_of_given (hkeys : (keysOf r.paths).Nodup)
    (hpaths : r.paths = front ++ old :: back) (hold : pathId old = "")
    (he : pathId e = anonKey front.length) :
    PathKept r batchId e ↔ prefersNew batchId (pathId e) old e = true := by
  have hnamed : pathId e ≠ "" := he ▸ anonKey_ne_empty _
  have hget : r.paths[front.length]? = some old := by
    rw [hpaths]
    simp
  have hunseen := unseen_of_given hkeys hpaths hold he
  constructor
  · intro h
    rw [he]
    exact h.named front.length old hget hold he
  · intro h
    refine ⟨?_, ?_, ?_, ?_⟩
    · intro hunnamed
      exact absurd hunnamed hnamed
    · intro i x hx hunnamed hid
      have hkey : keyAt i x = keyAt front.length old := by
        rw [keyAt_of_unnamed hunnamed, keyAt_of_unnamed hold, ← hid, he]
      rw [(at_place hkeys hpaths hx hkey).2, ← hid]
      exact h
    · intro _ _ _ x hx hid
      exact absurd (mem_namedIds.mpr ⟨hnamed, x, hx, hid⟩) hunseen
    · intro _ _ _ x hx hid
      exact absurd (mem_namedIds.mpr ⟨hnamed, x, hx, hid⟩) hunseen

theorem kept_iff_of_unnamed (hkeys : (keysOf r.paths).Nodup)
    (hpaths : r.paths = front ++ old :: back)
    (hkey : keyAt front.length old = keyAt r.paths.length e) (he : pathId e = "")
    (hold : pathId old = anonKey r.paths.length) :
    PathKept r batchId e ↔ prefersNew batchId (anonKey r.paths.length) old e = false := by
  have hmem : old ∈ r.paths := by
    rw [hpaths]
    simp
  have hempty : isB10PrimaryResidualPathId (pathId e) ≠ true := by
    intro hprimary
    exact ne_empty_of_primary hprimary he
  constructor
  · intro h
    exact h.unnamed he old hmem hold
  · intro h
    refine ⟨?_, ?_, ?_, ?_⟩
    · intro _ x hx hid
      rw [keyAt_of_unnamed he] at hkey
      rw [eq_old hkeys hpaths hx (hid.trans hkey.symm)]
      exact h
    · intro i x _ _ hid
      exact absurd (hid.symm.trans he) (anonKey_ne_empty i)
    · intro _ hprimary
      exact absurd hprimary hempty
    · intro _ hprimary
      exact absurd hprimary hempty

theorem held_of_unnamed_kept (hinv : PathInv r)
    (hoffers : r'.offers = r.offers ++ [(batchId, e)]) (he : pathId e = "")
    (hpaths' : r'.paths = r.paths) : PathsHeld r' := by
  refine ⟨?_, ?_⟩
  · intro p
    rw [hpaths', hinv.seen, seen_offer hoffers, he]
    constructor
    · rintro ⟨hp, hseen⟩
      exact ⟨hp, Or.inl hseen⟩
    · rintro ⟨hp, hseen | hp'⟩
      · exact ⟨hp, hseen⟩
      · exact absurd hp'.symm hp
  · intro p hprimary hhealthy x hx hid
    have hp : pathId e ≠ p := by
      rw [he]
      exact (ne_empty_of_primary hprimary).symm
    rw [hpaths'] at hx
    exact genuine_of_other hinv hoffers hprimary hp hhealthy hx hid

theorem not_held_of_unnamed_replaced (hinv : PathInv r)
    (hoffers : r'.offers = r.offers ++ [(batchId, e)])
    (hpaths : r.paths = front ++ old :: back)
    (hkey : keyAt front.length old = keyAt r.paths.length e) (he : pathId e = "")
    (hold : pathId old = anonKey r.paths.length) (hpaths' : r'.paths = front ++ e :: back) :
    ¬ PathsHeld r' := by
  intro hheld
  rw [keyAt_of_unnamed he, ← hold] at hkey
  have hnamed : pathId old ≠ "" := hold ▸ anonKey_ne_empty _
  have hseen : ∃ o ∈ r.offers, pathId o.2 = pathId old := by
    refine ((hinv.seen (pathId old)).mp (mem_namedIds.mpr ⟨hnamed, old, ?_, rfl⟩)).2
    rw [hpaths]
    simp
  have hmem : pathId old ∈ namedIds r'.paths :=
    (hheld.seen _).mpr ⟨hnamed, (seen_offer hoffers _).mpr (Or.inl hseen)⟩
  obtain ⟨-, x, hx, hid⟩ := mem_namedIds.mp hmem
  rw [hpaths', List.mem_append, List.mem_cons] at hx
  rcases hx with hx | rfl | hx
  · exact rest_ne hinv.keys hpaths (Or.inl hx) (hid.trans hkey.symm)
  · exact hnamed (hid.symm.trans he)
  · exact rest_ne hinv.keys hpaths (Or.inr hx) (hid.trans hkey.symm)

theorem kept_iff_of_same (hkeys : (keysOf r.paths).Nodup)
    (hpaths : r.paths = front ++ old :: back)
    (hkey : keyAt front.length old = keyAt r.paths.length e) (he : pathId e ≠ "")
    (hold : pathId old = pathId e) :
    PathKept r batchId e ↔ (isB10PrimaryResidualPathId (pathId e) = true →
      (isB10xBatchId batchId = true → r.HealthySeen (pathId e) →
        residualPathOk old = true ∨ pathScore e < pathScore old ∨ r.Genuine e) ∧
      (isB10xBatchId batchId = false → r.HealthySeen (pathId e) ∨ residualPathOk e = true →
        pathScore old ≤ pathScore e ∨ r.Genuine old)) := by
  have hmem : old ∈ r.paths := by
    rw [hpaths]
    simp
  rw [keyAt_of_named he] at hkey
  constructor
  · intro h hprimary
    exact ⟨fun hdeep hseen => h.deepened hdeep hprimary hseen old hmem hold,
      fun hdeep hseen => h.primary hdeep hprimary hseen old hmem hold⟩
  · intro h
    refine ⟨?_, ?_, ?_, ?_⟩
    · intro hunnamed
      exact absurd hunnamed he
    · intro i x hx hunnamed hid
      have hplace := at_place hkeys hpaths hx
        ((keyAt_of_unnamed hunnamed i).trans (hid.symm.trans hkey.symm))
      rw [hplace.2, hold] at hunnamed
      exact absurd hunnamed he
    · intro hdeep hprimary hseen x hx hid
      rw [eq_old hkeys hpaths hx (hid.trans hkey.symm)]
      exact (h hprimary).1 hdeep hseen
    · intro hdeep hprimary hseen x hx hid
      rw [eq_old hkeys hpaths hx (hid.trans hkey.symm)]
      exact (h hprimary).2 hdeep hseen

theorem held_iff_of_same (hinv : PathInv r)
    (hoffers : r'.offers = r.offers ++ [(batchId, e)])
    (hpaths : r.paths = front ++ old :: back)
    (hkey : keyAt front.length old = keyAt r.paths.length e) (he : pathId e ≠ "")
    (hold : pathId old = pathId e) {w : Json} (hw : pathId w = pathId e)
    (hpaths' : r'.paths = front ++ w :: back) :
    PathsHeld r' ↔ (isB10PrimaryResidualPathId (pathId e) = true →
      r'.HealthySeen (pathId e) → r'.Genuine w) := by
  rw [keyAt_of_named he] at hkey
  constructor
  · intro h hprimary hhealthy
    refine h.guarded _ hprimary hhealthy w ?_ hw
    rw [hpaths']
    simp
  · intro h
    refine ⟨?_, ?_⟩
    · intro p
      rw [hpaths', namedIds_replace_named (hw.trans hold.symm), ← hpaths, hinv.seen,
        seen_offer hoffers]
      constructor
      · rintro ⟨hp, hseen⟩
        exact ⟨hp, Or.inl hseen⟩
      · rintro ⟨hp, hseen | rfl⟩
        · exact ⟨hp, hseen⟩
        · refine (hinv.seen _).mp (mem_namedIds.mpr ⟨he, old, ?_, hold⟩)
          rw [hpaths]
          simp
    · intro p hprimary hhealthy x hx hid
      rw [hpaths', List.mem_append, List.mem_cons] at hx
      by_cases hp : pathId e = p
      · subst hp
        rcases hx with hx | rfl | hx
        · exact absurd (hid.trans hkey.symm) (rest_ne hinv.keys hpaths (Or.inl hx))
        · exact h hprimary hhealthy
        · exact absurd (hid.trans hkey.symm) (rest_ne hinv.keys hpaths (Or.inr hx))
      · refine genuine_of_other hinv hoffers hprimary hp hhealthy ?_ hid
        rw [hpaths, List.mem_append, List.mem_cons]
        rcases hx with hx | rfl | hx
        · exact Or.inl hx
        · exact absurd (hw.symm.trans hid) hp
        · exact Or.inr (Or.inr hx)

theorem prefersNew_iff {key : String} (hprimary : isB10PrimaryResidualPathId key = true) :
    prefersNew batchId key old e = true ↔
      (isB10xBatchId batchId = true → residualPathOk old = false) ∧
        pathScore old ≤ pathScore e := by
  unfold prefersNew
  rw [hprimary]
  cases isB10xBatchId batchId <;> simp

theorem held_iff_kept_of_same (hinv : PathInv r)
    (hoffers : r'.offers = r.offers ++ [(batchId, e)])
    (hpaths : r.paths = front ++ old :: back)
    (hkey : keyAt front.length old = keyAt r.paths.length e) (he : pathId e ≠ "")
    (hold : pathId old = pathId e)
    (hpaths' : r'.paths =
      front ++ (if prefersNew batchId (pathId e) old e = true then e else old) :: back) :
    PathsHeld r' ↔ PathKept r batchId e := by
  rw [kept_iff_of_same hinv.keys hpaths hkey he hold,
    held_iff_of_same hinv hoffers hpaths hkey he hold ?_ hpaths']
  · refine forall_congr' fun hprimary => ?_
    have hgenuine : r.HealthySeen (pathId e) → r.Genuine old := by
      intro hseen
      refine hinv.guarded _ hprimary hseen old ?_ hold
      rw [hpaths]
      simp
    have hprefers := @prefersNew_iff batchId e old _ hprimary
    rw [healthySeen_offer hoffers, genuine_offer hoffers]
    cases hdeep : isB10xBatchId batchId with
    | true =>
        rw [hdeep] at hprefers
        simp only [forall_const, Bool.true_eq_false, false_and, or_false, false_implies,
          and_true] at hprefers ⊢
        refine forall_congr' fun hseen => ?_
        split_ifs with hnew
        · obtain ⟨hunhealthy, hscore⟩ := hprefers.mp hnew
          simp [hunhealthy, hscore.not_gt]
        · rw [hprefers, not_and_or, Bool.not_eq_false, not_le] at hnew
          exact iff_of_true (hgenuine hseen) (or_assoc.mp (Or.inl hnew))
    | false =>
        rw [hdeep] at hprefers
        simp only [Bool.false_eq_true, false_implies, true_and, true_imp_iff] at hprefers ⊢
        refine forall_congr' fun hseen => ?_
        split_ifs with hnew
        · exact iff_of_true (Or.inr rfl) (Or.inl (hprefers.mp hnew))
        · rw [hprefers] at hnew
          have hne : e ≠ old := by
            rintro rfl
            exact hnew le_rfl
          simp [hnew, hne]
  · split_ifs
    · rfl
    · exact hold

end Collision

/-! ## One batch -/

section Step

variable {r r' : PathRun} {batchId : Option String} {e : Json}

theorem held_iff_kept (hinv : PathInv r) (hoffers : r'.offers = r.offers ++ [(batchId, e)])
    {paths' : List Json} (hpaths' : r'.paths = paths')
    (hplaced : Placed batchId r.paths e paths') : PathsHeld r' ↔ PathKept r batchId e := by
  cases hplaced with
  | fresh hkey => exact iff_of_true (held_of_fresh hinv hoffers hkey hpaths') (kept_of_fresh hkey)
  | kept front back old hpaths hkey hprefers =>
      rcases collision_cases hpaths hkey with ⟨hold, he⟩ | ⟨he, hold⟩ | ⟨he, hold⟩
      · rw [keyAt_of_named (he ▸ anonKey_ne_empty _)] at hprefers
        rw [kept_iff_of_given hinv.keys hpaths hold he, hprefers]
        exact iff_of_false (held_of_given_kept hinv hoffers hpaths hold he hpaths') (by simp)
      · rw [keyAt_of_unnamed he] at hprefers
        rw [kept_iff_of_unnamed hinv.keys hpaths hkey he hold, hprefers]
        exact iff_of_true (held_of_unnamed_kept hinv hoffers he hpaths') rfl
      · rw [keyAt_of_named he] at hprefers
        refine held_iff_kept_of_same hinv hoffers hpaths hkey he hold ?_
        rw [hprefers, hpaths', hpaths]
        rfl
  | replaced front back old hpaths hkey hprefers =>
      rcases collision_cases hpaths hkey with ⟨hold, he⟩ | ⟨he, hold⟩ | ⟨he, hold⟩
      · rw [keyAt_of_named (he ▸ anonKey_ne_empty _)] at hprefers
        rw [kept_iff_of_given hinv.keys hpaths hold he, hprefers]
        exact iff_of_true (held_of_given_replaced hinv hoffers hpaths hold he hpaths') rfl
      · rw [keyAt_of_unnamed he] at hprefers
        rw [kept_iff_of_unnamed hinv.keys hpaths hkey he hold, hprefers]
        exact iff_of_false
          (not_held_of_unnamed_replaced hinv hoffers hpaths hkey he hold hpaths') (by simp)
      · rw [keyAt_of_named he] at hprefers
        refine held_iff_kept_of_same hinv hoffers hpaths hkey he hold ?_
        rw [hprefers, hpaths']
        rfl

theorem PathKept.ordered (hkept : PathKept r batchId e) (hkeys : (keysOf r.paths).Nodup)
    {paths' : List Json} (hplaced : Placed batchId r.paths e paths') :
    keysOf r.paths <+: keysOf paths' ∧ (keysOf paths').Nodup ∧
      (namedIds r.paths).Sublist (namedIds paths') := by
  cases hplaced with
  | fresh hkey =>
      rw [keysOf_concat, namedIds_concat]
      refine ⟨List.prefix_append _ _, ?_, List.sublist_append_left _ _⟩
      rw [List.nodup_append]
      refine ⟨hkeys, List.nodup_singleton _, ?_⟩
      intro k hk j hj
      rw [List.mem_singleton.mp hj]
      exact ne_of_mem_of_not_mem hk hkey
  | kept => exact ⟨List.prefix_rfl, hkeys, List.Sublist.refl _⟩
  | replaced front back old hpaths hkey hprefers =>
      rcases collision_cases hpaths hkey with ⟨hold, he⟩ | ⟨he, hold⟩ | ⟨he, hold⟩
      · have hsame : keyAt front.length e = keyAt front.length old := by
          rw [hkey, keyAt_of_named (he ▸ anonKey_ne_empty _),
            keyAt_of_named (he ▸ anonKey_ne_empty _)]
        rw [hpaths] at hkeys
        rw [hpaths, keysOf_replace hsame]
        exact ⟨List.prefix_rfl, hkeys, namedIds_replace_unnamed hold⟩
      · rw [keyAt_of_unnamed he] at hprefers
        have hlost := (kept_iff_of_unnamed hkeys hpaths hkey he hold).mp hkept
        rw [hprefers] at hlost
        cases hlost
      · have hsame : keyAt front.length e = keyAt front.length old := by
          rw [hkey, keyAt_of_named he, keyAt_of_named he]
        rw [hpaths] at hkeys
        rw [hpaths, keysOf_replace hsame, namedIds_replace_named hold.symm]
        exact ⟨List.prefix_rfl, hkeys, List.Sublist.refl _⟩

end Step

section Batch

variable {r : PathRun} {b : PathBatch} {es : List Json}

def PathRun.tableAfter (r : PathRun) (b : PathBatch) (es : List Json) : PathTable :=
  es.foldl (PathTable.addIncoming b.batchId)
    (r.paths.foldl PathTable.addExisting ⟨SortedMap.empty, []⟩)

theorem mergePart_fields : (r.mergePart b es).fields =
    (r.fields.insert "residual_paths"
      (.arr ((r.tableAfter b es).byId.valuesOf (r.tableAfter b es).order))).insert
      "residual_paths_n"
      (ofInt ((r.tableAfter b es).byId.valuesOf (r.tableAfter b es).order).length) := rfl

theorem mergePart_paths : (r.mergePart b es).paths =
    (r.tableAfter b es).byId.valuesOf (r.tableAfter b es).order := by
  unfold PathRun.paths
  rw [mergePart_fields, SortedMap.get?_insert_of_ne (by decide), SortedMap.get?_insert_self]
  rfl

theorem mergePart_counted : (r.mergePart b es).fields.get? "residual_paths_n" =
    some (ofInt (r.mergePart b es).paths.length) := by
  rw [mergePart_paths, mergePart_fields, SortedMap.get?_insert_self]

theorem mergePart_offers (e : Json) : (r.mergePart b (es ++ [e])).offers =
    (r.mergePart b es).offers ++ [(b.batchId, e)] := by
  simp [PathRun.mergePart, PathRun.merge]

theorem tableAfter_concat (e : Json) :
    r.tableAfter b (es ++ [e]) = (r.tableAfter b es).addIncoming b.batchId e := by
  simp [PathRun.tableAfter]

theorem PathInv.congr {r' : PathRun} (hinv : PathInv r) (hpaths : r'.paths = r.paths)
    (hoffers : r'.offers = r.offers) : PathInv r' := by
  have hgenuine : ∀ x, r'.Genuine x ↔ r.Genuine x := by
    intro x
    unfold PathRun.Genuine
    rw [hoffers]
  refine ⟨⟨?_, ?_⟩, ?_⟩
  · intro p
    rw [hpaths, hoffers]
    exact hinv.seen p
  · intro p hprimary hhealthy x hx hid
    obtain ⟨y, hy, hrest⟩ := hhealthy
    rw [hpaths] at hx
    rw [hgenuine]
    exact hinv.guarded p hprimary ⟨y, (hgenuine y).mp hy, hrest⟩ x hx hid
  · rw [hpaths]
    exact hinv.keys

structure PartInv (r : PathRun) (b : PathBatch) (es : List Json) : Prop where
  inv : PathInv (r.mergePart b es)
  tabled : Tabled (r.tableAfter b es) (r.mergePart b es).paths
  ordered : (namedIds r.paths).Sublist (namedIds (r.mergePart b es).paths)

theorem partInv_nil (hinv : PathInv r) : PartInv r b [] := by
  have htabled := tabled_existing hinv.keys
  have hpaths : (r.mergePart b []).paths = r.paths := mergePart_paths.trans htabled.values
  refine ⟨hinv.congr hpaths (List.append_nil _), ?_, ?_⟩
  · rw [hpaths]
    exact htabled
  · rw [hpaths]

theorem PartInv.held_iff (h : PartInv r b es) (e : Json) :
    PathsHeld (r.mergePart b (es ++ [e])) ↔ PathKept (r.mergePart b es) b.batchId e := by
  obtain ⟨paths', hplaced, hvalues, -⟩ := h.tabled.addIncoming b.batchId e
  refine held_iff_kept h.inv (mergePart_offers e) ?_ hplaced
  rw [mergePart_paths, tableAfter_concat]
  exact hvalues

theorem PartInv.step (h : PartInv r b es) {e : Json}
    (hkept : PathKept (r.mergePart b es) b.batchId e) : PartInv r b (es ++ [e]) := by
  obtain ⟨paths', hplaced, hvalues, htabled⟩ := h.tabled.addIncoming b.batchId e
  have hpaths : (r.mergePart b (es ++ [e])).paths = paths' := by
    rw [mergePart_paths, tableAfter_concat]
    exact hvalues
  obtain ⟨hfront, hkeys, hsublist⟩ := hkept.ordered h.inv.keys hplaced
  refine ⟨⟨(h.held_iff e).mpr hkept, ?_⟩, ?_, ?_⟩
  · rw [hpaths]
    exact hkeys
  · rw [hpaths, tableAfter_concat]
    exact htabled hfront
  · rw [hpaths]
    exact h.ordered.trans hsublist

theorem PartInv.sound (h : PartInv r b es) : PathsSound r (r.mergePart b es) :=
  ⟨h.inv.keys.sublist (namedIds_sublist_keysOf _), h.inv.seen, mergePart_counted, h.ordered,
    h.inv.guarded⟩

theorem partInv_of_steps (hinv : PathInv r)
    (hsteps : ∀ es e, es ++ [e] <+: b.paths → PartInv r b es →
      PathKept (r.mergePart b es) b.batchId e)
    (hes : es <+: b.paths) : PartInv r b es := by
  induction es using List.reverseRecOn with
  | nil => exact partInv_nil hinv
  | append_singleton init e ih =>
      have hpart := ih ((List.prefix_append init [e]).trans hes)
      exact hpart.step (hsteps init e hes hpart)

/-- The promise holds wherever the batch ends. -/
def PathsSoundIn (r : PathRun) (b : PathBatch) : Prop :=
  ∀ es, es <+: b.paths → PathsSound r (r.mergePart b es)

def PathsKeptIn (r : PathRun) (b : PathBatch) : Prop :=
  ∀ es e, es ++ [e] <+: b.paths → PathKept (r.mergePart b es) b.batchId e

theorem partInv_of_sound (hinv : PathInv r) (hsound : PathsSoundIn r b)
    (hes : es <+: b.paths) : PartInv r b es := by
  refine partInv_of_steps hinv ?_ hes
  intro init e hprefix hpart
  have hhere := hsound (init ++ [e]) hprefix
  exact (hpart.held_iff e).mp ⟨hhere.seen, hhere.guarded⟩

theorem soundIn_iff_keptIn (hinv : PathInv r) : PathsSoundIn r b ↔ PathsKeptIn r b := by
  constructor
  · intro hsound es e hprefix
    have hpart := partInv_of_sound hinv hsound ((List.prefix_append es [e]).trans hprefix)
    have hhere := hsound (es ++ [e]) hprefix
    exact (hpart.held_iff e).mp ⟨hhere.seen, hhere.guarded⟩
  · intro hkept es hes
    exact (partInv_of_steps hinv (fun init e hprefix _ => hkept init e hprefix) hes).sound

end Batch

theorem pathInv_start {base : Fields} (hbase : base.get? "residual_paths" = none) :
    PathInv (PathRun.start base) := by
  have hpaths : (PathRun.start base).paths = [] := by
    rw [PathRun.paths, PathRun.start, hbase]
    rfl
  refine ⟨⟨?_, ?_⟩, ?_⟩
  · intro p
    rw [hpaths]
    simp [namedIds, PathRun.start]
  · intro p _ _ x hx
    rw [hpaths] at hx
    cases hx
  · rw [hpaths]
    exact List.nodup_nil

/-- The merge keeps ids, order and primary paths, wherever the run is stopped,
exactly when every path of it meets the condition where it comes. -/
theorem residual_paths_sound_iff (base : Fields) (hbase : base.get? "residual_paths" = none)
    (bs : List PathBatch) :
    Along PathRun.merge PathsSoundIn (PathRun.start base) bs ↔
      Along PathRun.merge PathsKeptIn (PathRun.start base) bs := by
  have hany : Along PathRun.merge (fun _ _ => True) (PathRun.start base) bs :=
    along_of_forall fun _ _ _ => trivial
  refine Along.iff_of_steps ?_ ?_ hany (pathInv_start hbase)
  · intro r b hinv _
    exact soundIn_iff_keptIn hinv
  · intro r b hinv _ hsound
    exact (partInv_of_sound hinv hsound List.prefix_rfl).inv

/-! ## Deepened last and deepened first -/

def primaryPath (entropyOk : Bool) : Json :=
  .obj [
    ("curve", .arr ((List.range 8).map fun n => ofInt n)),
    ("entropy_ok", .bool entropyOk),
    ("ok", .bool true),
    ("path_id", .str "v3f_128_noderiv")]

def b10Batch : PathBatch := ⟨some "B10_hw_curves", [primaryPath false]⟩

def b10xBatch : PathBatch := ⟨some "B10x_legacy_webgl1", [primaryPath true]⟩

def barePath (id : String) : Json := .obj [("path_id", .str id)]

def b10Pair : PathBatch := ⟨some "B10_hw_curves", [primaryPath false, barePath "fma_pair_64"]⟩

def b10xPair : PathBatch :=
  ⟨some "B10x_legacy_webgl1", [primaryPath true, barePath "b10x_legacy_rint"]⟩

theorem keptIn_pair {r : PathRun} {batchId : Option String} {a b : Json}
    (ha : PathKept (r.mergePart ⟨batchId, [a, b]⟩ []) batchId a)
    (hb : PathKept (r.mergePart ⟨batchId, [a, b]⟩ [a]) batchId b) :
    PathsKeptIn r ⟨batchId, [a, b]⟩ := by
  intro es e hprefix
  match es with
  | [] =>
      obtain ⟨rfl, -⟩ := List.cons_prefix_cons.mp hprefix
      exact ha
  | [x] =>
      obtain ⟨rfl, hrest⟩ := List.cons_prefix_cons.mp hprefix
      obtain ⟨rfl, -⟩ := List.cons_prefix_cons.mp hrest
      exact hb
  | x :: y :: rest =>
      have hlength := hprefix.length_le
      simp only [List.length_append, List.length_cons, List.length_nil] at hlength
      omega

/-- The healthy primary path stays, and both other ids are there. -/
theorem primary_outlives_deepened :
    Along PathRun.merge PathsSoundIn (PathRun.start SortedMap.empty) [b10Pair, b10xPair] ∧
      (runFrom PathRun.merge (PathRun.start SortedMap.empty) [b10Pair, b10xPair]).paths =
        [primaryPath false, barePath "fma_pair_64", barePath "b10x_legacy_rint"] := by
  let before := (PathRun.start SortedMap.empty).merge b10Pair
  have hfirst : PathsKeptIn (PathRun.start SortedMap.empty) b10Pair := by
    refine keptIn_pair (kept_of_fresh List.not_mem_nil) (kept_of_fresh ?_)
    decide
  have hpaths : (before.mergePart b10xPair []).paths =
      [] ++ primaryPath false :: [barePath "fma_pair_64"] := by decide
  have hguarded : PathKept (before.mergePart b10xPair []) b10xPair.batchId (primaryPath true) := by
    have hnamed : ∀ n ok, keyAt n (primaryPath ok) = "v3f_128_noderiv" := fun _ _ => rfl
    have hkeys : (keysOf (before.mergePart b10xPair []).paths).Nodup := by
      rw [hpaths]
      decide
    refine (kept_iff_of_same hkeys hpaths ((hnamed _ false).trans (hnamed _ true).symm) (by decide)
      rfl).mpr fun _ => ⟨fun _ _ => ?_, ?_⟩
    · exact Or.inl (by decide)
    · intro hdeep
      cases hdeep
  have hnew : PathKept (before.mergePart b10xPair [primaryPath true]) b10xPair.batchId
      (barePath "b10x_legacy_rint") := by
    refine kept_of_fresh ?_
    decide
  refine ⟨?_, by decide⟩
  exact (residual_paths_sound_iff SortedMap.empty rfl [b10Pair, b10xPair]).mpr
    ⟨hfirst, keptIn_pair hguarded hnew, trivial⟩

/-- The healthy path of the primary batch scores below the deepen path that came
before it and is dropped. -/
theorem b10x_first_stays :
    let before := (PathRun.start SortedMap.empty).merge b10xBatch
    let after := before.merge b10Batch
    after.HealthySeen "v3f_128_noderiv" ∧ after.paths = [primaryPath true] ∧
      ¬ PathsSound before after := by
  intro before after
  have hoffers : after.offers =
      [(b10xBatch.batchId, primaryPath true), (b10Batch.batchId, primaryPath false)] := rfl
  have hpaths : after.paths = [primaryPath true] := by decide
  have hhealthy : after.HealthySeen "v3f_128_noderiv" := by
    refine ⟨primaryPath false, ⟨(b10Batch.batchId, primaryPath false), ?_, by decide, rfl⟩,
      by decide, by decide⟩
    rw [hoffers]
    simp
  refine ⟨hhealthy, hpaths, ?_⟩
  intro hsound
  have hmem : primaryPath true ∈ after.paths := by
    rw [hpaths]
    exact List.mem_singleton_self _
  obtain ⟨o, ho, hbatch, hpath⟩ :=
    hsound.guarded "v3f_128_noderiv" (by decide) hhealthy (primaryPath true) hmem (by decide)
  rw [hoffers, List.mem_cons, List.mem_singleton] at ho
  rcases ho with rfl | rfl
  · revert hbatch
    decide
  · revert hpath
    decide

/-- A path without an id takes the place of the path called `anon_1`. -/
example :
    namedIds ((PathRun.start SortedMap.empty).merge
      ⟨none, [.obj [("path_id", .str "anon_1")], .obj []]⟩).paths = [] := by
  decide

end EvidenceMerge

end GrServer
