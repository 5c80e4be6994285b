import GrServer.MapMerge
import GrServer.SourceAuth

/-!
# Where the view and the mint freeze agree

Both rank the sources of a key alike, so they agree on every soft key.  For a
silicon key the freeze acts only when main has an object: without one it neither
drops a disputed value nor takes the value of the hardest source.
-/

namespace GrServer

open Json Text SortedMap RankedChoice

namespace EvidenceMerge

def HasValue (fieldsBySource : Fields) (k src : String) (v : Json) : Prop :=
  ((fieldsBySource.get? src).bind fun bucket => filledMember bucket k) = some v

/-- Of the sources that have a value for `k`, the one of greatest trust, by name
among equals, has `v`. -/
def Hardest (fieldsBySource : Fields) (k src : String) (v : Json) : Prop :=
  HasValue fieldsBySource k src v ∧ ∀ src' v', HasValue fieldsBySource k src' v' →
    storeSourceTrustScore src' k < storeSourceTrustScore src k ∨
      storeSourceTrustScore src' k = storeSourceTrustScore src k ∧ src ≤ src'

def Disputed (fieldsBySource : Fields) (k : String) : Prop :=
  k = "webgl_unmasked_renderer" ∧ ∃ src v src' v',
    isConflictSource src = true ∧ isConflictSource src' = true ∧
      HasValue fieldsBySource k src v ∧ HasValue fieldsBySource k src' v' ∧ v ≠ v'

def valuesOf (fieldsBySource : Fields) (k : String) : List (String × Json) :=
  fieldsBySource.entries.filterMap fun source =>
    (filledMember source.2 k).map fun v => (source.1, v)

theorem mem_valuesOf {fieldsBySource : Fields} {k src : String} {v : Json} :
    (src, v) ∈ valuesOf fieldsBySource k ↔ HasValue fieldsBySource k src v := by
  unfold valuesOf HasValue
  rw [List.mem_filterMap]
  constructor
  · intro h
    obtain ⟨⟨src', bucket⟩, hmem, hvalue⟩ := h
    obtain ⟨v', hfilled, heq⟩ := Option.map_eq_some_iff.mp hvalue
    cases heq
    rw [get?_eq_some_iff.mpr hmem]
    exact hfilled
  · intro h
    obtain ⟨bucket, hbucket, hfilled⟩ := Option.bind_eq_some_iff.mp h
    refine ⟨(src, bucket), get?_eq_some_iff.mp hbucket, ?_⟩
    rw [hfilled]
    rfl

theorem valuesOf_sorted (fieldsBySource : Fields) (k : String) :
    (valuesOf fieldsBySource k).Pairwise fun a b => a.1 < b.1 := by
  have hsorted : fieldsBySource.entries.Pairwise fun a b => a.1 < b.1 :=
    List.pairwise_map.mp fieldsBySource.sorted
  unfold valuesOf
  apply List.Pairwise.filterMap _ _ hsorted
  intro source source' hlt entry hentry entry' hentry'
  obtain ⟨v, _, rfl⟩ := Option.map_eq_some_iff.mp hentry
  obtain ⟨v', _, rfl⟩ := Option.map_eq_some_iff.mp hentry'
  exact hlt

abbrev scoreOf (k : String) (entry : String × Json) : ℕ :=
  storeSourceTrustScore entry.1 k

def hardestEntry (fieldsBySource : Fields) (k : String) : Option (String × Json) :=
  (valuesOf fieldsBySource k).foldl (keepBest (scoreOf k)) none

theorem hardestEntry_eq_some {fieldsBySource : Fields} {k src : String} {v : Json} :
    hardestEntry fieldsBySource k = some (src, v) ↔ Hardest fieldsBySource k src v := by
  unfold hardestEntry
  rw [foldl_keepBest_eq_some (valuesOf_sorted fieldsBySource k)]
  unfold Leads Hardest
  rw [mem_valuesOf]
  constructor
  · intro h
    refine ⟨h.1, ?_⟩
    intro src' v' hvalue
    exact h.2 (src', v') (mem_valuesOf.mpr hvalue)
  · intro h
    refine ⟨h.1, ?_⟩
    intro entry hentry
    exact h.2 entry.1 entry.2 (mem_valuesOf.mp hentry)

theorem candidates_head? (fieldsBySource : Fields) (k : String) :
    (candidates fieldsBySource k).head? =
      (hardestEntry fieldsBySource k).map fun entry => (entry.1, scoreOf k entry) := by
  have hscored : scoredSources fieldsBySource k =
      (valuesOf fieldsBySource k).map fun entry => (entry.1, scoreOf k entry) := by
    unfold scoredSources valuesOf
    rw [List.map_filterMap]
    congr 1
    funext source
    cases filledMember source.2 k <;> rfl
  have hsorted : (scoredSources fieldsBySource k).Pairwise fun a b => a.1 < b.1 := by
    rw [hscored]
    exact List.pairwise_map.mpr (valuesOf_sorted fieldsBySource k)
  unfold candidates
  rw [head?_insertionSort_eq_foldl hsorted, hscored]
  exact foldl_keepBest_map (fun _ => rfl) (valuesOf fieldsBySource k) none

theorem foldl_keepHardest (fieldsBySource : Fields) (k : String) :
    fieldsBySource.entries.foldl (keepHardest k) none =
      (hardestEntry fieldsBySource k).map fun entry => (scoreOf k entry, entry.2) := by
  have hloop (entries : List (String × Json)) (best : Option (String × Json)) :
      entries.foldl (keepHardest k)
          (best.map fun entry => (scoreOf k entry, entry.2)) =
        ((entries.filterMap fun source =>
            (filledMember source.2 k).map fun v => (source.1, v)).foldl
          (keepBest (scoreOf k)) best).map fun entry => (scoreOf k entry, entry.2) := by
    induction entries generalizing best with
    | nil => rfl
    | cons source rest ih =>
        rw [List.foldl_cons, List.filterMap_cons]
        cases hfilled : filledMember source.2 k with
        | none =>
            have hstep : keepHardest k
                (best.map fun entry => (scoreOf k entry, entry.2)) source =
                best.map fun entry => (scoreOf k entry, entry.2) := by
              unfold keepHardest
              rw [hfilled]
            rw [hstep, ih]
            rfl
        | some v =>
            have hstep : keepHardest k
                (best.map fun entry => (scoreOf k entry, entry.2)) source =
                (keepBest (scoreOf k) best (source.1, v)).map
                  fun entry => (scoreOf k entry, entry.2) := by
              unfold keepHardest keepBest
              rw [hfilled]
              cases best with
              | none => rfl
              | some old =>
                  by_cases hlt : scoreOf k old < scoreOf k (source.1, v)
                  · simp [hlt]
                  · simp [hlt]
            rw [hstep, ih]
            rfl
  exact hloop fieldsBySource.entries none

/-! ## Detected conflicts -/

def comparedIn (k : String) (source : String × Json) : List (String × Json) :=
  if isComparedKey k && isConflictSource source.1 then
    ((filledMember source.2 k).map fun v => (source.1, v)).toList
  else []

def comparedValues (fieldsBySource : Fields) (k : String) : List (String × Json) :=
  fieldsBySource.entries.flatMap (comparedIn k)

theorem mem_comparedValues {fieldsBySource : Fields} {k src : String} {v : Json}
    (hcompared : isComparedKey k = true) :
    (src, v) ∈ comparedValues fieldsBySource k ↔
      HasValue fieldsBySource k src v ∧ isConflictSource src = true := by
  have hin (source : String × Json) : (src, v) ∈ comparedIn k source ↔
      ((filledMember source.2 k).map fun v => (source.1, v)) = some (src, v) ∧
        isConflictSource source.1 = true := by
    unfold comparedIn
    rw [hcompared, Bool.true_and]
    cases isConflictSource source.1 <;> simp [eq_comm]
  rw [← mem_valuesOf]
  unfold comparedValues valuesOf
  rw [List.mem_flatMap, List.mem_filterMap]
  constructor
  · intro h
    obtain ⟨source, hsource, hmem⟩ := h
    obtain ⟨hvalue, hconflict⟩ := (hin source).mp hmem
    have hname : source.1 = src := by
      obtain ⟨w, _, heq⟩ := Option.map_eq_some_iff.mp hvalue
      exact congrArg Prod.fst heq
    rw [hname] at hconflict
    exact ⟨⟨source, hsource, hvalue⟩, hconflict⟩
  · intro h
    obtain ⟨⟨source, hsource, hvalue⟩, hconflict⟩ := h
    have hname : source.1 = src := by
      obtain ⟨w, _, heq⟩ := Option.map_eq_some_iff.mp hvalue
      exact congrArg Prod.fst heq
    rw [← hname] at hconflict
    exact ⟨source, hsource, (hin source).mpr ⟨hvalue, hconflict⟩⟩

def comparedMembers (source : String × Json) : Option Fields :=
  if isConflictSource source.1 then source.2.asObject else none

def comparedEntry (source : String × Json) (k : String) (v : Json) : Option (String × Json) :=
  if isComparedKey k && ¬ isBlank v then some (source.1, v) else none

theorem keySources_eq (fieldsBySource : Fields) :
    keySources fieldsBySource =
      collectAll comparedMembers comparedEntry fieldsBySource.entries := by
  have hentry (source : String × Json) :
      addEntry source.1 = collect (comparedEntry source) := by
    funext groups entry
    unfold addEntry collect comparedEntry
    by_cases hkeep : (isComparedKey entry.1 && ¬ isBlank entry.2) = true
    · rw [if_pos hkeep, if_pos hkeep]
    · rw [if_neg hkeep, if_neg hkeep]
  unfold keySources collectAll
  congr 1
  funext groups source
  unfold addSource comparedMembers
  rw [hentry]
  cases isConflictSource source.1 with
  | false => rfl
  | true =>
      cases source.2.asObject with
      | none => rfl
      | some members => rfl

theorem keySources_get? (fieldsBySource : Fields) (k : String) :
    ((keySources fieldsBySource).get? k).getD [] = comparedValues fieldsBySource k := by
  rw [keySources_eq, get?_collectAll]
  unfold comparedValues
  congr 1
  funext source
  unfold comparedIn filledMember member comparedMembers comparedEntry
  cases isConflictSource source.1 with
  | false => simp
  | true =>
      cases source.2.asObject with
      | none => simp
      | some members =>
          cases hget : members.get? k with
          | none => simp [hget]
          | some v =>
              cases isComparedKey k with
              | false => simp
              | true =>
                  cases hblank : isBlank v with
                  | false => simp [hget, Option.filter, hblank]
                  | true => simp [hget, Option.filter, hblank]

theorem mem_conflictKeys {conflicts : List String} {k : String} :
    k ∈ conflictKeys conflicts ↔ conflictPrefix ++ k ∈ conflicts := by
  unfold conflictKeys
  rw [List.mem_filterMap]
  constructor
  · intro h
    obtain ⟨c, hc, hstrip⟩ := h
    rw [← stripPrefix?_eq_some.mp hstrip]
    exact hc
  · intro h
    exact ⟨_, h, stripPrefix?_eq_some.mpr rfl⟩

theorem conflictPrefix_inj {k k' : String}
    (h : conflictPrefix ++ k = conflictPrefix ++ k') : k = k' := by
  have hlists := congrArg String.toList h
  rw [String.toList_append, String.toList_append] at hlists
  exact String.toList_injective (List.append_cancel_left hlists)

theorem mem_detected (T : TextOps) (fieldsBySource : Fields) (k : String) :
    k ∈ conflictKeys (detectSourceConflicts T fieldsBySource) ↔
      keyConflicts T k (comparedValues fieldsBySource k) = true := by
  rw [mem_conflictKeys, ← keySources_get?]
  unfold detectSourceConflicts
  rw [List.mem_insertionSort, List.mem_filterMap]
  constructor
  · intro h
    obtain ⟨⟨k', entries⟩, hgroup, hconflict⟩ := h
    dsimp only at hconflict
    split_ifs at hconflict with hkey
    have hk : k' = k := conflictPrefix_inj (Option.some.inj hconflict)
    subst hk
    rw [get?_eq_some_iff.mpr hgroup]
    exact hkey
  · intro h
    cases hget : (keySources fieldsBySource).get? k with
    | none =>
        rw [hget] at h
        cases h
    | some entries =>
        rw [hget] at h
        refine ⟨(k, entries), get?_eq_some_iff.mp hget, ?_⟩
        exact if_pos h

theorem keyConflicts_hard {T : TextOps} {k : String} (hhard : isHardEquiKey k = true)
    (entries : List (String × Json)) :
    keyConflicts T k entries = true ↔
      ∃ a ∈ entries, ∃ b ∈ entries, a.2 ≠ b.2 := by
  unfold keyConflicts
  rw [hhard]
  match entries with
  | [] => simp
  | [a] => simp
  | a :: b :: rest =>
      have hlength : ¬ (a :: b :: rest).length < 2 := by
        simp
      rw [if_neg hlength, if_pos rfl, List.any_eq_true]
      constructor
      · intro h
        obtain ⟨c, hc, hdiffers⟩ := h
        refine ⟨c, hc, a, List.mem_cons_self, ?_⟩
        simpa using hdiffers
      · intro h
        obtain ⟨c, hc, d, hd, hdiffers⟩ := h
        by_cases hca : c.2 = a.2
        · refine ⟨d, hd, ?_⟩
          have hda : d.2 ≠ a.2 := by
            intro hda
            exact hdiffers (hca.trans hda.symm)
          simpa using hda
        · refine ⟨c, hc, ?_⟩
          simpa using hca

theorem mem_detected_silicon {k : String} (T : TextOps) (fieldsBySource : Fields)
    (hview : k ∈ authKeys) (hsilicon : k ∈ siliconKeys) :
    k ∈ conflictKeys (detectSourceConflicts T fieldsBySource) ↔
      Disputed fieldsBySource k := by
  have honly : ∀ j ∈ authKeys, j ∈ siliconKeys →
      isComparedKey j = true → j = "webgl_unmasked_renderer" := by
    decide
  rw [mem_detected]
  by_cases hk : k = "webgl_unmasked_renderer"
  · have hcompared : isComparedKey k = true := by
      rw [hk]
      decide
    have hhard : isHardEquiKey k = true := by
      rw [hk]
      decide
    have hmem (src : String) (v : Json) :
        (src, v) ∈ comparedValues fieldsBySource k ↔
          HasValue fieldsBySource k src v ∧ isConflictSource src = true :=
      mem_comparedValues hcompared
    rw [keyConflicts_hard hhard]
    unfold Disputed
    constructor
    · intro h
      obtain ⟨⟨src, v⟩, ha, ⟨src', v'⟩, hb, hdiffers⟩ := h
      obtain ⟨hvalue, hsource⟩ := (hmem src v).mp ha
      obtain ⟨hvalue', hsource'⟩ := (hmem src' v').mp hb
      exact ⟨hk, src, v, src', v', hsource, hsource', hvalue, hvalue', hdiffers⟩
    · intro h
      obtain ⟨_, src, v, src', v', hsource, hsource', hvalue, hvalue', hdiffers⟩ := h
      exact ⟨(src, v), (hmem src v).mpr ⟨hvalue, hsource⟩, (src', v'),
        (hmem src' v').mpr ⟨hvalue', hsource'⟩, hdiffers⟩
  · have hnot : isComparedKey k = false := by
      rw [Bool.eq_false_iff]
      intro hcompared
      exact hk (honly k hview hsilicon hcompared)
    have hnone : comparedValues fieldsBySource k = [] := by
      unfold comparedValues
      rw [List.flatMap_eq_nil_iff]
      intro source _
      unfold comparedIn
      rw [hnot]
      rfl
    rw [hnone]
    constructor
    · intro h
      cases h
    · intro h
      exact absurd h.1 hk

theorem view_entry {fieldsBySource : Fields} {conflicts : List String} {k : String}
    (hk : k ∈ authKeys) (memberKey : String) :
    (buildSourceAuthView fieldsBySource conflicts).pointer ["keys", k, memberKey] =
      (authEntry fieldsBySource conflicts k).get? memberKey := by
  have hdistinct : authKeys.Nodup := by decide
  have hentry := get?_insertEach_map hk hdistinct
    (authEntry fieldsBySource conflicts) SortedMap.empty
  have hkeys (algo ladder policy : Json) (keys : Fields) :
      (Json.obj [("algo", algo), ("keys", ofFields keys), ("ladder", ladder),
        ("policy", policy)]).get? "keys" = some (ofFields keys) := rfl
  unfold buildSourceAuthView
  dsimp only
  rw [pointer_cons, hkeys, Option.bind_some, pointer_cons, get?_ofFields, hentry,
    Option.bind_some, pointer_cons]
  cases (authEntry fieldsBySource conflicts k).get? memberKey <;> rfl

theorem view_mintUsable {fieldsBySource : Fields} {conflicts : List String}
    {k : String} (hk : k ∈ authKeys) :
    (buildSourceAuthView fieldsBySource conflicts).pointer
        ["keys", k, "mint_usable"] =
      some (.bool (authenticSource fieldsBySource
        ((conflictKeys conflicts).contains k) k).2) := by
  rw [view_entry hk]
  rfl

theorem view_authenticSource {fieldsBySource : Fields} {conflicts : List String}
    {k : String} (hk : k ∈ authKeys) :
    (buildSourceAuthView fieldsBySource conflicts).pointer
        ["keys", k, "authentic_source"] =
      some (.str (authenticSource fieldsBySource
        ((conflictKeys conflicts).contains k) k).1) := by
  rw [view_entry hk]
  rfl

/-! ## What the freeze keeps -/

def frozenSilicon (main : Fields) (conflicts : List String) (k : String)
    (old : Option Json) : Option Json :=
  if conflicts.contains k then none
  else
    match main.get? k with
    | some v => if v.isNull then old else some v
    | none => old

def frozenSoft (fieldsBySource : Fields) (conflicts : List String) (k : String)
    (old : Option Json) : Option Json :=
  match hardestEntry fieldsBySource k with
  | some entry => some entry.2
  | none => if conflicts.contains k then none else old

theorem freezeSilicon_other (main : Fields) (conflicts : List String) (out : Fields)
    {j k : String} (hne : j ≠ k) :
    (freezeSilicon main conflicts out j).get? k = out.get? k := by
  unfold freezeSilicon
  split_ifs
  · rw [get?_erase, if_neg (Ne.symm hne)]
  · cases main.get? j with
    | none => rfl
    | some v =>
        dsimp only
        split_ifs
        · rfl
        · exact get?_insert_of_ne (Ne.symm hne) v

theorem freezeSilicon_self (main : Fields) (conflicts : List String) (out : Fields)
    (k : String) :
    (freezeSilicon main conflicts out k).get? k =
      frozenSilicon main conflicts k (out.get? k) := by
  unfold freezeSilicon frozenSilicon
  split_ifs
  · rw [get?_erase, if_pos rfl]
  · cases main.get? k with
    | none => rfl
    | some v =>
        dsimp only
        split_ifs
        · rfl
        · exact get?_insert_self out k v

theorem freezeSoft_other (fieldsBySource : Fields) (conflicts : List String)
    (out : Fields) {j k : String} (hne : j ≠ k) :
    (freezeSoft fieldsBySource conflicts out j).get? k = out.get? k := by
  unfold freezeSoft
  cases fieldsBySource.entries.foldl (keepHardest j) none with
  | some best => exact get?_insert_of_ne (Ne.symm hne) best.2
  | none =>
      dsimp only
      split_ifs
      · rw [get?_erase, if_neg (Ne.symm hne)]
      · rfl

theorem freezeSoft_self (fieldsBySource : Fields) (conflicts : List String)
    (out : Fields) (k : String) :
    (freezeSoft fieldsBySource conflicts out k).get? k =
      frozenSoft fieldsBySource conflicts k (out.get? k) := by
  unfold freezeSoft frozenSoft
  rw [foldl_keepHardest]
  cases hardestEntry fieldsBySource k with
  | some entry => exact get?_insert_self out k entry.2
  | none =>
      change (if conflicts.contains k then out.erase k else out).get? k = _
      split_ifs
      · rw [get?_erase, if_pos rfl]
      · rfl

theorem softPass_get? (fieldsBySource : Fields) (conflicts : List String)
    (out : Fields) (k : String) :
    (softKeys.foldl (freezeSoft fieldsBySource conflicts) out).get? k =
      if k ∈ softKeys then frozenSoft fieldsBySource conflicts k (out.get? k)
      else out.get? k := by
  have hdistinct : softKeys.Nodup := by decide
  apply get?_foldl_keys ?_ ?_ hdistinct
  · intro m j hne
    exact freezeSoft_other fieldsBySource conflicts m hne
  · intro m
    exact freezeSoft_self fieldsBySource conflicts m k

theorem mint_soft {fieldsBySource merged : Fields} {conflicts : List String}
    {k src : String} {v : Json} (hk : k ∈ softKeys)
    (hhardest : hardestEntry fieldsBySource k = some (src, v)) :
    (authenticFieldsForMint merged fieldsBySource conflicts).get? k = some v := by
  unfold authenticFieldsForMint
  dsimp only
  rw [softPass_get?, if_pos hk]
  unfold frozenSoft
  rw [hhardest]

theorem mint_silicon {fieldsBySource merged : Fields} {conflicts : List String}
    {k : String} (hk : k ∈ siliconKeys) :
    (authenticFieldsForMint merged fieldsBySource conflicts).get? k =
      match mainObject fieldsBySource with
      | some main => frozenSilicon main (conflictKeys conflicts) k (merged.get? k)
      | none => merged.get? k := by
  have hsoft : k ∉ softKeys := by
    have hdisjoint : ∀ j ∈ siliconKeys, j ∉ softKeys := by decide
    exact hdisjoint k hk
  have hdistinct : siliconKeys.Nodup := by decide
  unfold authenticFieldsForMint
  dsimp only
  rw [softPass_get?, if_neg hsoft]
  cases mainObject fieldsBySource with
  | none => rfl
  | some main =>
      dsimp only
      rw [get?_foldl_keys (g := frozenSilicon main (conflictKeys conflicts) k)
        ?_ ?_ hdistinct, if_pos hk]
      · intro m j hne
        exact freezeSilicon_other main _ m hne
      · intro m
        exact freezeSilicon_self main _ m k

/-! ## Agreement -/

/-- The view's report of `k` and the minted value of `k` say the same. -/
def Agree (T : TextOps) (fieldsBySource merged : Fields) (k : String) : Prop :=
  let conflicts := detectSourceConflicts T fieldsBySource
  let view := buildSourceAuthView fieldsBySource conflicts
  let minted := authenticFieldsForMint merged fieldsBySource conflicts
  (view.pointer ["keys", k, "mint_usable"] = some (.bool false) →
    view.pointer ["keys", k, "authentic_source"] =
      some (.str "conflict_silicon_skip") →
    minted.get? k = none) ∧
  ∀ src, view.pointer ["keys", k, "mint_usable"] = some (.bool true) →
    view.pointer ["keys", k, "authentic_source"] = some (.str src) →
    minted.get? k = (fieldsBySource.get? src).bind fun bucket => bucket.get? k

def sharedKeys : List String :=
  authKeys.filter fun k => siliconKeys.contains k || softKeys.contains k

/-- A disputed silicon key needs main to have an object, or no merged value; an
undisputed one that main has no value for needs the merged value to be the
hardest source's, and no empty value of main in its place. -/
def SiliconSettled (fieldsBySource merged : Fields) (k : String) : Prop :=
  (Disputed fieldsBySource k →
    (mainObject fieldsBySource).isSome ∨ merged.get? k = none) ∧
  (¬ Disputed fieldsBySource k → mainHas fieldsBySource k = false →
    ∀ src v, Hardest fieldsBySource k src v →
      ((mainObject fieldsBySource).bind fun main => main.get? k) ≠ some (.str "") ∧
        merged.get? k = some v)

theorem value_of_hardestEntry {fieldsBySource : Fields} {k src : String} {v : Json}
    (h : hardestEntry fieldsBySource k = some (src, v)) :
    ((fieldsBySource.get? src).bind fun bucket => bucket.get? k) = some v ∧
      isBlank v = false := by
  have hvalue := (hardestEntry_eq_some.mp h).1
  unfold HasValue at hvalue
  obtain ⟨bucket, hbucket, hfilled⟩ := Option.bind_eq_some_iff.mp hvalue
  unfold filledMember at hfilled
  obtain ⟨hmember, hblank⟩ := Option.filter_eq_some_iff.mp hfilled
  unfold member at hmember
  obtain ⟨members, hobject, hget⟩ := Option.bind_eq_some_iff.mp hmember
  rw [hbucket, Option.bind_some, get?_of_asObject hobject]
  exact ⟨hget, by simpa using hblank⟩

theorem authenticSource_of_none {fieldsBySource : Fields} {k : String}
    (h : hardestEntry fieldsBySource k = none) (conflicted : Bool) :
    authenticSource fieldsBySource conflicted k = ("missing", false) := by
  have hhead := candidates_head? fieldsBySource k
  rw [h, Option.map_none] at hhead
  unfold authenticSource
  rw [List.head?_eq_none_iff.mp hhead]

theorem authenticSource_of_some {fieldsBySource : Fields} {k src : String} {v : Json}
    (h : hardestEntry fieldsBySource k = some (src, v)) (conflicted : Bool) :
    authenticSource fieldsBySource conflicted k =
      if conflicted && isSiliconViewKey k then ("conflict_silicon_skip", false)
      else if conflicted then (src, true)
      else if isSiliconViewKey k && mainHas fieldsBySource k then ("main", true)
      else (src, true) := by
  have hhead := candidates_head? fieldsBySource k
  rw [h, Option.map_some] at hhead
  unfold authenticSource
  cases hcandidates : candidates fieldsBySource k with
  | nil =>
      rw [hcandidates] at hhead
      cases hhead
  | cons c rest =>
      rw [hcandidates] at hhead
      cases hhead
      rfl

theorem agree_iff {T : TextOps} {fieldsBySource merged : Fields} {k : String}
    (hk : k ∈ authKeys) :
    Agree T fieldsBySource merged k ↔
      let conflicts := detectSourceConflicts T fieldsBySource
      let authentic := authenticSource fieldsBySource
        ((conflictKeys conflicts).contains k) k
      let minted := authenticFieldsForMint merged fieldsBySource conflicts
      (authentic = ("conflict_silicon_skip", false) → minted.get? k = none) ∧
        ∀ src, authentic = (src, true) →
          minted.get? k = (fieldsBySource.get? src).bind fun bucket => bucket.get? k := by
  unfold Agree
  dsimp only
  rw [view_mintUsable hk, view_authenticSource hk]
  simp only [Option.some.injEq, Json.bool.injEq, Json.str.injEq, Prod.ext_iff]
  constructor
  · intro h
    exact ⟨fun ha => h.1 ha.2 ha.1, fun src ha => h.2 src ha.2 ha.1⟩
  · intro h
    exact ⟨fun hmint hsource => h.1 ⟨hsource, hmint⟩,
      fun src hmint hsource => h.2 src ⟨hsource, hmint⟩⟩

theorem agree_of_soft (T : TextOps) (fieldsBySource merged : Fields) {k : String}
    (hview : k ∈ authKeys) (hsoft : k ∈ softKeys) :
    Agree T fieldsBySource merged k := by
  have hnot : isSiliconViewKey k = false := by
    have hnone : ∀ j ∈ softKeys, isSiliconViewKey j = false := by decide
    exact hnone k hsoft
  rw [agree_iff hview]
  dsimp only
  cases hhardest : hardestEntry fieldsBySource k with
  | none =>
      rw [authenticSource_of_none hhardest]
      constructor
      · intro himpossible
        exact absurd (congrArg Prod.fst himpossible) (by decide)
      · intro src himpossible
        cases congrArg Prod.snd himpossible
  | some entry =>
      obtain ⟨src, v⟩ := entry
      rw [authenticSource_of_some hhardest, hnot, Bool.and_false, Bool.false_and,
        if_neg Bool.false_ne_true, if_neg Bool.false_ne_true, ite_self]
      constructor
      · intro himpossible
        cases congrArg Prod.snd himpossible
      · intro src' hsame
        have hsrc : src = src' := congrArg Prod.fst hsame
        rw [mint_soft hsoft hhardest, ← hsrc, (value_of_hardestEntry hhardest).1]

theorem hardestEntry_isSome {fieldsBySource : Fields} {k src : String} {v : Json}
    (h : HasValue fieldsBySource k src v) :
    ∃ entry, hardestEntry fieldsBySource k = some entry := by
  have hne : valuesOf fieldsBySource k ≠ [] :=
    List.ne_nil_of_mem (mem_valuesOf.mpr h)
  exact Option.isSome_iff_exists.mp (foldl_keepBest_isSome (Or.inr hne))

theorem mainHas_iff {fieldsBySource : Fields} {k : String} :
    mainHas fieldsBySource k = true ↔
      ∃ main v, mainObject fieldsBySource = some main ∧ main.get? k = some v ∧
        isBlank v = false := by
  unfold mainHas
  cases mainObject fieldsBySource with
  | none => simp
  | some main => cases hget : main.get? k <;> simp [hget]

theorem frozenSilicon_of_not_main {main : Fields} {conflicts : List String}
    {k : String} {old : Option Json} {v : Json}
    (hclear : conflicts.contains k = false)
    (hmain : ∀ w, main.get? k = some w → isBlank w = true) (hv : isBlank v = false) :
    frozenSilicon main conflicts k old = some v ↔
      main.get? k ≠ some (.str "") ∧ old = some v := by
  unfold frozenSilicon
  rw [hclear, if_neg Bool.false_ne_true]
  cases hget : main.get? k with
  | none => simp
  | some w =>
      have hblank := hmain w hget
      match w with
      | .null => simp [isNull]
      | .str text =>
          have htext : text = "" := by
            simpa [isBlank, isNull] using hblank
          subst htext
          have hother : Json.str "" ≠ v := by
            rintro rfl
            cases hv
          simp [isNull, hother]
      | .bool _ | .num _ | .arr _ | .obj _ => simp [isBlank, isNull, asStr] at hblank

section Freeze

variable {fieldsBySource : Fields} {conflicts : List String} {k : String} {old : Option Json}

theorem freeze_eq_none_iff (hcontains : conflicts.contains k = true) :
    (match mainObject fieldsBySource with
      | some main => frozenSilicon main conflicts k old
      | none => old) = none ↔ (mainObject fieldsBySource).isSome ∨ old = none := by
  cases mainObject fieldsBySource with
  | none => simp
  | some main =>
      unfold frozenSilicon
      rw [hcontains]
      simp

theorem freeze_of_main (hclear : conflicts.contains k = false)
    (hmain : mainHas fieldsBySource k = true) :
    (match mainObject fieldsBySource with
      | some main => frozenSilicon main conflicts k old
      | none => old) = (fieldsBySource.get? "main").bind fun bucket => bucket.get? k := by
  obtain ⟨main, w, hobject, hget, hblank⟩ := mainHas_iff.mp hmain
  have hnull : w.isNull = false := by
    unfold isBlank at hblank
    exact (Bool.or_eq_false_iff.mp hblank).1
  have hfrozen : frozenSilicon main conflicts k old = some w := by
    unfold frozenSilicon
    rw [hclear, hget]
    simp [hnull]
  rw [hobject]
  dsimp only
  rw [hfrozen]
  unfold mainObject at hobject
  obtain ⟨bucket, hbucket, hbucketObject⟩ := Option.bind_eq_some_iff.mp hobject
  rw [hbucket, Option.bind_some, get?_of_asObject hbucketObject, hget]

theorem freeze_eq_some_iff (hclear : conflicts.contains k = false)
    (hmain : mainHas fieldsBySource k = false) {v : Json} (hfilled : isBlank v = false) :
    (match mainObject fieldsBySource with
      | some main => frozenSilicon main conflicts k old
      | none => old) = some v ↔
      ((mainObject fieldsBySource).bind fun main => main.get? k) ≠ some (.str "") ∧
        old = some v := by
  cases hobject : mainObject fieldsBySource with
  | none => simp
  | some main =>
      have hblank : ∀ w, main.get? k = some w → isBlank w = true := by
        intro w hget
        by_contra hw
        rw [mainHas_iff.mpr ⟨main, w, hobject, hget, Bool.eq_false_iff.mpr hw⟩] at hmain
        cases hmain
      exact frozenSilicon_of_not_main hclear hblank hfilled

end Freeze

theorem agree_silicon_iff (T : TextOps) (fieldsBySource merged : Fields) {k : String}
    (hview : k ∈ authKeys) (hsilicon : k ∈ siliconKeys) :
    Agree T fieldsBySource merged k ↔ SiliconSettled fieldsBySource merged k := by
  have hviewKey : isSiliconViewKey k = true := by
    have hall : ∀ j ∈ authKeys, j ∈ siliconKeys → isSiliconViewKey j = true := by
      decide
    exact hall k hview hsilicon
  have hdetected := mem_detected_silicon T fieldsBySource hview hsilicon
  rw [agree_iff hview]
  unfold SiliconSettled
  dsimp only
  rw [mint_silicon hsilicon]
  by_cases hdisputed : Disputed fieldsBySource k
  · -- the view skips the key
    have hcontains : (conflictKeys (detectSourceConflicts T fieldsBySource)).contains k
        = true :=
      List.contains_iff_mem.mpr (hdetected.mpr hdisputed)
    obtain ⟨_, src, v, _, _, _, _, hvalue, _, _⟩ := id hdisputed
    obtain ⟨⟨hardest, w⟩, hhardest⟩ := hardestEntry_isSome hvalue
    have hdropped := @freeze_eq_none_iff fieldsBySource _ _ (merged.get? k) hcontains
    rw [authenticSource_of_some hhardest, hcontains, hviewKey, if_pos (by rfl)]
    constructor
    · intro h
      exact ⟨fun _ => hdropped.mp (h.1 rfl), fun hnot => absurd hdisputed hnot⟩
    · intro h
      refine ⟨fun _ => hdropped.mpr (h.1 hdisputed), ?_⟩
      intro src' himpossible
      cases congrArg Prod.snd himpossible
  · have hclear : (conflictKeys (detectSourceConflicts T fieldsBySource)).contains k
        = false := by
      rw [Bool.eq_false_iff]
      intro hmem
      exact hdisputed (hdetected.mp (List.contains_iff_mem.mp hmem))
    rw [hclear]
    cases hhardest : hardestEntry fieldsBySource k with
    | none =>
        -- no source has a value
        rw [authenticSource_of_none hhardest]
        constructor
        · intro _
          refine ⟨fun hnot => absurd hnot hdisputed, ?_⟩
          intro _ _ src v hlead
          rw [hardestEntry_eq_some.mpr hlead] at hhardest
          cases hhardest
        · intro _
          constructor
          · intro himpossible
            exact absurd (congrArg Prod.fst himpossible) (by decide)
          · intro src himpossible
            cases congrArg Prod.snd himpossible
    | some entry =>
        obtain ⟨src, v⟩ := entry
        obtain ⟨hvalue, hfilled⟩ := value_of_hardestEntry hhardest
        rw [authenticSource_of_some hhardest, hviewKey, Bool.and_true, Bool.true_and,
          if_neg Bool.false_ne_true, if_neg Bool.false_ne_true]
        cases hmain : mainHas fieldsBySource k with
        | true =>
            -- both take main's value
            rw [if_pos rfl, freeze_of_main hclear hmain]
            constructor
            · intro _
              exact ⟨fun hnot => absurd hnot hdisputed, fun _ hnot => by cases hnot⟩
            · intro _
              constructor
              · intro himpossible
                cases congrArg Prod.snd himpossible
              · intro src' hsame
                have hsrc : "main" = src' := congrArg Prod.fst hsame
                rw [← hsrc]
        | false =>
            -- the view names the hardest source, the freeze keeps what was merged
            have hkept := @freeze_eq_some_iff _ _ _ (merged.get? k) hclear hmain _ hfilled
            rw [if_neg Bool.false_ne_true]
            constructor
            · intro h
              refine ⟨fun hnot => absurd hnot hdisputed, ?_⟩
              intro _ _ src' v' hlead
              have hsame := hardestEntry_eq_some.mpr hlead
              rw [hhardest] at hsame
              cases hsame
              have hminted := h.2 src rfl
              rw [hvalue] at hminted
              exact hkept.mp hminted
            · intro h
              constructor
              · intro himpossible
                cases congrArg Prod.snd himpossible
              · intro src' hsame
                have hsrc : src = src' := congrArg Prod.fst hsame
                rw [← hsrc, hvalue]
                exact hkept.mpr (h.2 hdisputed rfl src v
                  (hardestEntry_eq_some.mp hhardest))

/-- View and freeze agree on a key exactly when it is soft or its silicon
condition holds. -/
theorem view_and_mint_agree_iff (T : TextOps) (fieldsBySource merged : Fields)
    (k : String) (hk : k ∈ sharedKeys) :
    Agree T fieldsBySource merged k ↔
      (k ∈ siliconKeys → SiliconSettled fieldsBySource merged k) := by
  unfold sharedKeys at hk
  obtain ⟨hview, hhandled⟩ := List.mem_filter.mp hk
  by_cases hsilicon : k ∈ siliconKeys
  · rw [agree_silicon_iff T fieldsBySource merged hview hsilicon]
    simp [hsilicon]
  · have hsoft : k ∈ softKeys := by
      simpa [hsilicon] using hhandled
    simp [hsilicon, agree_of_soft T fieldsBySource merged hview hsoft]

def asciiText : TextOps where
  isAlphanumeric := Char.isAlphanum
  minusZero := fun _ _ => false
  jsonText := fun _ _ _ => ""

def rendererOf (renderer : String) : Json :=
  .obj [("webgl_unmasked_renderer", .str renderer)]

def mergedRenderer (renderer : String) : Fields :=
  SortedMap.ofEntries [("webgl_unmasked_renderer", .str renderer)]

def mainAndWorker : Fields :=
  SortedMap.ofEntries [("main", rendererOf "ANGLE (Intel)"),
    ("worker", rendererOf "SwiftShader")]

def iframeAndWorker : Fields :=
  SortedMap.ofEntries [("iframe", rendererOf "ANGLE (Intel)"),
    ("worker", rendererOf "SwiftShader")]

theorem disputed_renderer_dropped :
    Agree asciiText mainAndWorker (mergedRenderer "ANGLE (Intel)")
      "webgl_unmasked_renderer" := by
  have hdisputed : Disputed mainAndWorker "webgl_unmasked_renderer" := by
    refine ⟨rfl, "main", .str "ANGLE (Intel)", "worker", .str "SwiftShader",
      rfl, rfl, ?_, ?_, ?_⟩
    · unfold HasValue
      decide
    · unfold HasValue
      decide
    · decide
  apply (view_and_mint_agree_iff asciiText mainAndWorker
    (mergedRenderer "ANGLE (Intel)") "webgl_unmasked_renderer" (by decide)).mpr
  intro _
  refine ⟨?_, fun hnot => absurd hdisputed hnot⟩
  intro _
  exact Or.inl (by decide)

/-- Without a main source the freeze keeps a renderer that the view refuses. -/
theorem disputed_renderer_minted :
    ¬ Agree asciiText iframeAndWorker (mergedRenderer "ANGLE (Intel)")
      "webgl_unmasked_renderer" := by
  intro hagree
  have hdropped := hagree.1 (by decide) (by decide)
  revert hdropped
  decide

end EvidenceMerge

end GrServer
