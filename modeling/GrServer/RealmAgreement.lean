import GrServer.RealmDiff
import GrServer.SourceAgreement

/-!
# Where the two conflict detectors agree

Both compare the classes of a soft key, so they agree on it.  For a hard key the
flat detector compares the values themselves.  It can see a difference that the
classes no longer show, and it does not see what equal values show in their
text only.
-/

namespace GrServer

open Json Text SortedMap

namespace EvidenceMerge

/-- No source name carries more than its base. -/
def BaseNamed (fieldsBySource : Fields) : Prop :=
  ∀ src ∈ fieldsBySource.keys, sourceBase src = src

def structuredKeys (T : TextOps) (order : HashOrder) (fieldsBySource : Fields) : List String :=
  conflictedKeysOf (structuredRealmDiff T order fieldsBySource)

/-- The sources that are compared have different values, and all of one class. -/
structure Merged (T : TextOps) (fieldsBySource : Fields) (k : String) : Prop where
  differ : ∃ src v src' v', isConflictSource src = true ∧ isConflictSource src' = true ∧
    HasValue fieldsBySource k src v ∧ HasValue fieldsBySource k src' v' ∧ v ≠ v'
  sameClass : ∀ src v src' v', isConflictSource src = true → isConflictSource src' = true →
    HasValue fieldsBySource k src v → HasValue fieldsBySource k src' v' →
      softNormalizeForCompare T src k v ≠ "" → softNormalizeForCompare T src' k v' ≠ "" →
        softNormalizeForCompare T src k v = softNormalizeForCompare T src' k v'

def isCompound : Json → Bool
  | .arr _ => true
  | .obj _ => true
  | _ => false

/-- Two sources give one value in two texts: as a zero of either sign, or as a
compound value. -/
def TextsDiffer (T : TextOps) (k src src' : String) (v : Json) : Prop :=
  (v = .num (.float 0) ∧ T.minusZero src k ≠ T.minusZero src' k) ∨
    (isCompound v = true ∧ T.jsonText src k v ≠ "" ∧ T.jsonText src' k v ≠ "" ∧
      T.jsonText src k v ≠ T.jsonText src' k v)

/-- The sources that are compared have one value, but not in one text. -/
structure Retold (T : TextOps) (fieldsBySource : Fields) (k : String) : Prop where
  sameValue : ∀ src v src' v', isConflictSource src = true → isConflictSource src' = true →
    HasValue fieldsBySource k src v → HasValue fieldsBySource k src' v' → v = v'
  differ : ∃ src src' v, isConflictSource src = true ∧ isConflictSource src' = true ∧
    HasValue fieldsBySource k src v ∧ HasValue fieldsBySource k src' v ∧
      TextsDiffer T k src src' v

theorem conflictedKeysOf_strs {v : Json} {keys : List String}
    (h : v.get? "conflicted_keys" = some (strs keys)) : conflictedKeysOf v = keys := by
  have hitems : (keys.map Json.str).filterMap asStr = keys := by
    rw [List.filterMap_map]
    exact List.filterMap_some
  unfold conflictedKeysOf
  rw [h]
  exact hitems

theorem mem_sortDedup {keys : List String} {k : String} : k ∈ sortDedup keys ↔ k ∈ keys := by
  unfold sortDedup
  rw [List.mem_dedup, List.mem_insertionSort]

theorem mem_layerOut {groups : SortedMap String (List RealmEntry)} {entry : String × Json} :
    entry ∈ (layerOut groups).entries ↔
      ∃ layer ∈ realmLayers, (layer.1, layerJson groups layer) = entry := by
  have hdistinct : (Assoc.keys (realmLayers.map fun layer =>
      (layer.1, layerJson groups layer))).Nodup := by
    have hnames : (realmLayers.map Prod.fst).Nodup := by decide
    unfold Assoc.keys
    rwa [List.map_map]
  unfold layerOut
  rw [mem_entries_insertEach hdistinct, List.mem_map]

/-- The sources disagree on `k` beyond what its class allows. -/
def InConflict (groups : SortedMap String (List RealmEntry)) (layer k : String) : Prop :=
  ∃ verdict, comparedVerdict groups layer k = some verdict ∧ verdict ≠ .agree

theorem mem_layerKeys {groups : SortedMap String (List RealmEntry)}
    {layer : String × List String} {k : String} :
    k ∈ conflictedKeysOf (layerJson groups layer) ↔
      k ∈ layer.2 ∧ InConflict groups layer.1 k := by
  have hget : (layerJson groups layer).get? "conflicted_keys" = some (strs (sortDedup
      (((layer.2.filterMap fun key => (comparedVerdict groups layer.1 key).map
        fun verdict => (key, verdict)).filter fun v => v.2 ≠ .agree).map Prod.fst))) := by
    unfold layerJson
    simp [Assoc.find?]
  rw [conflictedKeysOf_strs hget, mem_sortDedup, List.mem_map]
  unfold InConflict
  constructor
  · rintro ⟨⟨key, verdict⟩, hmem, rfl⟩
    rw [List.mem_filter, List.mem_filterMap] at hmem
    rcases hmem with ⟨⟨key', hkey, hmap⟩, hverdict⟩
    obtain ⟨verdict', hcompared, heq⟩ := Option.map_eq_some_iff.mp hmap
    cases heq
    exact ⟨hkey, verdict, hcompared, of_decide_eq_true hverdict⟩
  · rintro ⟨hkey, verdict, hcompared, hverdict⟩
    refine ⟨(k, verdict), ?_, rfl⟩
    rw [List.mem_filter, List.mem_filterMap]
    refine ⟨⟨k, hkey, ?_⟩, decide_eq_true hverdict⟩
    rw [hcompared]
    rfl

theorem mem_structuredKeys (T : TextOps) (order : HashOrder) (fieldsBySource : Fields)
    (k : String) :
    k ∈ structuredKeys T order fieldsBySource ↔
      ∃ layer ∈ realmLayers, k ∈ layer.2 ∧
        InConflict (keyEntries T fieldsBySource) layer.1 k := by
  have hget : (structuredRealmDiff T order fieldsBySource).get? "conflicted_keys" =
      some (strs (sortDedup ((layerOut (keyEntries T fieldsBySource)).entries.flatMap
        fun layer => conflictedKeysOf layer.2))) := by
    unfold structuredRealmDiff
    simp [Assoc.find?]
  unfold structuredKeys
  rw [conflictedKeysOf_strs hget, mem_sortDedup, List.mem_flatMap]
  constructor
  · rintro ⟨entry, hentry, hk⟩
    obtain ⟨layer, hlayer, rfl⟩ := mem_layerOut.mp hentry
    exact ⟨layer, hlayer, mem_layerKeys.mp hk⟩
  · rintro ⟨layer, hlayer, hk⟩
    exact ⟨_, mem_layerOut.mpr ⟨layer, hlayer, rfl⟩, mem_layerKeys.mpr hk⟩

/-! ## Classes -/

def realmClasses (T : TextOps) (fieldsBySource : Fields) (k : String) : List String :=
  (((keyEntries T fieldsBySource).get? k).getD []).map RealmEntry.norm

def flatClasses (T : TextOps) (k : String) (entries : List (String × Json)) : List String :=
  (entries.map fun entry => softNormalizeForCompare T entry.1 k entry.2).filter (· ≠ "")

theorem realmClasses_eq {T : TextOps} {fieldsBySource : Fields} {k : String}
    (hbase : BaseNamed fieldsBySource) (hcompared : isComparedKey k = true) :
    realmClasses T fieldsBySource k = flatClasses T k (comparedValues fieldsBySource k) := by
  have hsurface : isSurfaceLocalKey k = false := by
    unfold isComparedKey at hcompared
    simp only [Bool.and_eq_true] at hcompared
    simpa using hcompared.1
  unfold realmClasses flatClasses keyEntries comparedValues
  rw [get?_collectAll, List.map_flatMap, List.map_flatMap, List.filter_flatMap]
  apply List.flatMap_congr
  intro source hsource
  have hname : sourceBase source.1 = source.1 :=
    hbase source.1 (List.mem_map_of_mem hsource)
  unfold realmMembers realmEntry comparedIn filledMember member
  rw [hname, hcompared, hsurface]
  cases isConflictSource source.1 with
  | false => simp
  | true =>
      cases source.2.asObject with
      | none => simp
      | some members =>
          cases hget : members.get? k with
          | none => simp [hget]
          | some v =>
              cases hblank : isBlank v with
              | true => simp [hget, Option.filter, hblank]
              | false =>
                  by_cases hclass : softNormalizeForCompare T source.1 k v = ""
                  · simp [hget, Option.filter, hblank, hclass]
                  · simp [hget, Option.filter, hblank, hclass]

theorem mem_flatClasses {T : TextOps} {fieldsBySource : Fields} {k c : String}
    (hcompared : isComparedKey k = true) :
    c ∈ flatClasses T k (comparedValues fieldsBySource k) ↔
      c ≠ "" ∧ ∃ src v, isConflictSource src = true ∧ HasValue fieldsBySource k src v ∧
        softNormalizeForCompare T src k v = c := by
  unfold flatClasses
  rw [List.mem_filter, List.mem_map, decide_eq_true_iff, and_comm]
  apply and_congr_right
  intro _
  constructor
  · rintro ⟨⟨src, v⟩, hmem, hclass⟩
    rcases (mem_comparedValues hcompared).mp hmem with ⟨hvalue, hconflict⟩
    exact ⟨src, v, hconflict, hvalue, hclass⟩
  · rintro ⟨src, v, hconflict, hvalue, hclass⟩
    exact ⟨(src, v), (mem_comparedValues hcompared).mpr ⟨hvalue, hconflict⟩, hclass⟩

def Clash (k : String) (classes : List String) : Prop :=
  (∃ c ∈ classes, ∃ d ∈ classes, c ≠ d) ∧
    (k = "hardware_concurrency" ∨ k = "device_memory" → withinOneStep classes = false)

theorem all_head_iff (classes : List String) :
    (classes.all fun c => some c = classes.head?) = true ↔
      ¬ ∃ c ∈ classes, ∃ d ∈ classes, c ≠ d := by
  cases classes with
  | nil => simp
  | cons first rest =>
      rw [List.all_eq_true]
      constructor
      · rintro hall ⟨c, hc, d, hd, hne⟩
        have hcfirst : c = first := by simpa using hall c hc
        have hdfirst : d = first := by simpa using hall d hd
        exact hne (hcfirst.trans hdfirst.symm)
      · intro hnone c hc
        by_contra hne
        exact hnone ⟨c, hc, first, List.mem_cons_self, by simpa using hne⟩

theorem two_le_of_differ {classes : List String}
    (h : ∃ c ∈ classes, ∃ d ∈ classes, c ≠ d) : 2 ≤ classes.length := by
  rcases h with ⟨c, hc, d, hd, hne⟩
  match classes with
  | [] => cases hc
  | [e] =>
      rw [List.mem_singleton] at hc hd
      exact absurd (hc.trans hd.symm) hne
  | _ :: _ :: _ => simp

theorem inConflict_iff (T : TextOps) (fieldsBySource : Fields) (layer k : String) :
    InConflict (keyEntries T fieldsBySource) layer k ↔
      Clash k (realmClasses T fieldsBySource k) := by
  have hverdict (classes : List String) :
      realmKeyVerdict k layer classes ≠ .agree ↔ Clash k classes := by
    unfold realmKeyVerdict Clash hardwareClassDriftOk
    split_ifs with hall hcores hdrift hhard
    · simp [(all_head_iff classes).mp hall]
    · simp [hcores, hdrift]
    · have hdiffer := not_not.mp (mt (all_head_iff classes).mpr hall)
      simp [hdiffer, hdrift]
    · have hdiffer := not_not.mp (mt (all_head_iff classes).mpr hall)
      simp [hdiffer, hcores]
    · have hdiffer := not_not.mp (mt (all_head_iff classes).mpr hall)
      simp [hdiffer, hcores]
  unfold InConflict comparedVerdict
  constructor
  · rintro ⟨verdict, hcompared, hne⟩
    dsimp only at hcompared
    split_ifs at hcompared with hlength
    rw [← Option.some.inj hcompared] at hne
    exact (hverdict _).mp hne
  · intro hclash
    have hlength := two_le_of_differ hclash.1
    unfold realmClasses at hlength
    rw [List.length_map] at hlength
    exact ⟨_, if_neg (by omega), (hverdict _).mpr hclash⟩

theorem keyConflicts_soft {T : TextOps} {k : String} (hhard : isHardEquiKey k = false)
    (entries : List (String × Json)) :
    keyConflicts T k entries = true ↔ Clash k (flatClasses T k entries) := by
  have hshort : (flatClasses T k entries).length ≤ entries.length := by
    have hfilter := List.length_filter_le (· ≠ "")
      (entries.map fun entry => softNormalizeForCompare T entry.1 k entry.2)
    rwa [List.length_map] at hfilter
  unfold keyConflicts
  rw [hhard, if_neg Bool.false_ne_true]
  change (if entries.length < 2 then false else
    if (flatClasses T k entries).length < 2 then false
    else if (flatClasses T k entries).all fun c => some c = (flatClasses T k entries).head? then
      false
    else if (k = "hardware_concurrency" || k = "device_memory") &&
      withinOneStep (flatClasses T k entries) then false else true) = true ↔ _
  unfold Clash
  by_cases hdiffer : ∃ c ∈ flatClasses T k entries, ∃ d ∈ flatClasses T k entries, c ≠ d
  · have htwo := two_le_of_differ hdiffer
    have hall := mt (all_head_iff (flatClasses T k entries)).mp (not_not.mpr hdiffer)
    rw [if_neg (by omega), if_neg (by omega), if_neg hall]
    cases withinOneStep (flatClasses T k entries) with
    | false => simp [hdiffer]
    | true => simp [hdiffer]
  · rw [(all_head_iff _).mpr hdiffer]
    simp [hdiffer]

theorem mem_structuredKeys_iff {T : TextOps} {fieldsBySource : Fields} {k : String}
    (order : HashOrder) (hbase : BaseNamed fieldsBySource) (hcompared : isComparedKey k = true)
    (hlayer : ∃ layer ∈ realmLayers, k ∈ layer.2) :
    k ∈ structuredKeys T order fieldsBySource ↔
      Clash k (flatClasses T k (comparedValues fieldsBySource k)) := by
  rw [mem_structuredKeys, ← realmClasses_eq hbase hcompared]
  constructor
  · rintro ⟨layer, _, _, hconflict⟩
    exact (inConflict_iff T fieldsBySource layer.1 k).mp hconflict
  · intro hclash
    rcases hlayer with ⟨layer, hin, hk⟩
    exact ⟨layer, hin, hk, (inConflict_iff T fieldsBySource layer.1 k).mpr hclash⟩

theorem layer_key_not_surface {k : String} (h : ∃ layer ∈ realmLayers, k ∈ layer.2) :
    isSurfaceLocalKey k = false := by
  have hall : ∀ layer ∈ realmLayers, ∀ j ∈ layer.2, isSurfaceLocalKey j = false := by
    decide
  rcases h with ⟨layer, hlayer, hk⟩
  exact hall layer hlayer k hk

theorem hard_not_cores {k : String} (h : isHardEquiKey k = true) :
    ¬ (k = "hardware_concurrency" ∨ k = "device_memory") := by
  rintro (rfl | rfl)
  · exact absurd h (by decide)
  · exact absurd h (by decide)

theorem keyConflicts_compared {T : TextOps} {fieldsBySource : Fields} {k : String}
    (hcompared : isComparedKey k = true) (hhard : isHardEquiKey k = true) :
    keyConflicts T k (comparedValues fieldsBySource k) = true ↔
      ∃ src v src' v', isConflictSource src = true ∧ isConflictSource src' = true ∧
        HasValue fieldsBySource k src v ∧ HasValue fieldsBySource k src' v' ∧ v ≠ v' := by
  rw [keyConflicts_hard hhard]
  constructor
  · rintro ⟨⟨src, v⟩, hmem, ⟨src', v'⟩, hmem', hne⟩
    rcases (mem_comparedValues hcompared).mp hmem with ⟨hvalue, hconflict⟩
    rcases (mem_comparedValues hcompared).mp hmem' with ⟨hvalue', hconflict'⟩
    exact ⟨src, v, src', v', hconflict, hconflict', hvalue, hvalue', hne⟩
  · rintro ⟨src, v, src', v', hconflict, hconflict', hvalue, hvalue', hne⟩
    exact ⟨(src, v), (mem_comparedValues hcompared).mpr ⟨hvalue, hconflict⟩,
      (src', v'), (mem_comparedValues hcompared).mpr ⟨hvalue', hconflict'⟩, hne⟩

theorem hard_class (T : TextOps) {k : String} (hhard : isHardEquiKey k = true) (src : String)
    (v : Json) : softNormalizeForCompare T src k v =
      match v with
      | .str s => takeChars 64 (lowered s)
      | .bool b => boolText b
      | .num n => zeroSign T src k (.num n) ++ fixedText 4 ((numF64 (.num n)).getD 0)
      | w => T.jsonText src k w := by
  have hkeys : k = "webgl_unmasked_renderer" ∨ k = "webgl_unmasked_vendor" ∨
      k = "form_class" := by
    unfold isHardEquiKey at hhard
    simpa using hhard
  rcases hkeys with rfl | rfl | rfl
  · cases v <;> simp [softNormalizeForCompare]
  · cases v <;> simp [softNormalizeForCompare]
  · cases v <;> simp [softNormalizeForCompare]

theorem class_differs_iff {T : TextOps} {k src src' : String} {v : Json}
    (hhard : isHardEquiKey k = true) (hfull : isBlank v = false) :
    (softNormalizeForCompare T src k v ≠ "" ∧ softNormalizeForCompare T src' k v ≠ "" ∧
      softNormalizeForCompare T src k v ≠ softNormalizeForCompare T src' k v) ↔
      TextsDiffer T k src src' v := by
  rw [hard_class T hhard, hard_class T hhard]
  unfold TextsDiffer
  cases v with
  | null => cases hfull
  | bool b => simp [isCompound]
  | str s => simp [isCompound]
  | arr items => simp [isCompound]
  | obj members => simp [isCompound]
  | num n =>
      by_cases hzero : n = .float 0
      · have htext : fixedText 4 ((numF64 (.num (.float 0))).getD 0) = "0.0000" := by decide +kernel
        subst hzero
        dsimp only
        rw [htext]
        unfold zeroSign
        cases T.minusZero src k with
        | false => cases T.minusZero src' k <;> simp [isCompound]
        | true => cases T.minusZero src' k <;> simp [isCompound]
      · have hsign : ∀ s, zeroSign T s k (.num n) = "" := by
          intro s
          unfold zeroSign
          simp [hzero]
        dsimp only
        rw [hsign, hsign]
        simp [isCompound, hzero]

theorem HasValue.not_blank {fieldsBySource : Fields} {k src : String} {v : Json}
    (h : HasValue fieldsBySource k src v) : isBlank v = false := by
  obtain ⟨bucket, -, hfilled⟩ := Option.bind_eq_some_iff.mp h
  obtain ⟨-, hfull⟩ := Option.filter_eq_some_iff.mp hfilled
  simpa using hfull

/-- On a soft key of a layer the two detectors agree.  On a hard key the flat one
alone reports the values that differ within one class, and the structured one
alone the equal values whose texts differ. -/
theorem detectors_agree (T : TextOps) (order : HashOrder) {fieldsBySource : Fields}
    (hbase : BaseNamed fieldsBySource) {k : String}
    (hlayer : ∃ layer ∈ realmLayers, k ∈ layer.2) :
    (isSoftIdentityKey k = true →
      (k ∈ conflictKeys (detectSourceConflicts T fieldsBySource) ↔
        k ∈ structuredKeys T order fieldsBySource)) ∧
    (isHardEquiKey k = true →
      (k ∈ conflictKeys (detectSourceConflicts T fieldsBySource) ∧
          k ∉ structuredKeys T order fieldsBySource ↔
        Merged T fieldsBySource k) ∧
      (k ∈ structuredKeys T order fieldsBySource ∧
          k ∉ conflictKeys (detectSourceConflicts T fieldsBySource) ↔
        Retold T fieldsBySource k)) := by
  have hsurface := layer_key_not_surface hlayer
  rw [mem_detected]
  constructor
  · intro hsoft
    have hcompared : isComparedKey k = true := by
      unfold isComparedKey
      simp [hsurface, hsoft]
    have hhard : isHardEquiKey k = false := by
      have hapart : ∀ layer ∈ realmLayers, ∀ j ∈ layer.2,
          isSoftIdentityKey j = true → isHardEquiKey j = false := by
        decide
      rcases hlayer with ⟨layer, hin, hk⟩
      exact hapart layer hin k hk hsoft
    rw [mem_structuredKeys_iff order hbase hcompared hlayer]
    exact keyConflicts_soft hhard _
  · intro hhard
    have hcompared : isComparedKey k = true := by
      unfold isComparedKey
      simp [hsurface, hhard]
    have hclash : Clash k (flatClasses T k (comparedValues fieldsBySource k)) ↔
        ∃ c ∈ flatClasses T k (comparedValues fieldsBySource k),
          ∃ d ∈ flatClasses T k (comparedValues fieldsBySource k), c ≠ d := by
      unfold Clash
      simp [hard_not_cores hhard]
    rw [mem_structuredKeys_iff order hbase hcompared hlayer, hclash,
      keyConflicts_compared hcompared hhard]
    constructor
    · constructor
      · rintro ⟨hdiffer, hsame⟩
        refine ⟨hdiffer, ?_⟩
        intro src v src' v' hconflict hconflict' hvalue hvalue' hne hne'
        by_contra hclasses
        exact hsame ⟨_, (mem_flatClasses hcompared).mpr ⟨hne, src, v, hconflict, hvalue, rfl⟩,
          _, (mem_flatClasses hcompared).mpr ⟨hne', src', v', hconflict', hvalue', rfl⟩, hclasses⟩
      · intro hmerged
        refine ⟨hmerged.differ, ?_⟩
        rintro ⟨c, hc, d, hd, hne⟩
        rcases (mem_flatClasses hcompared).mp hc with ⟨hfull, src, v, hconflict, hvalue, rfl⟩
        rcases (mem_flatClasses hcompared).mp hd with ⟨hfull', src', v', hconflict', hvalue', rfl⟩
        exact hne (hmerged.sameClass src v src' v' hconflict hconflict' hvalue hvalue' hfull hfull')
    · constructor
      · rintro ⟨⟨c, hc, d, hd, hne⟩, hsame⟩
        have hvalues : ∀ src v src' v', isConflictSource src = true →
            isConflictSource src' = true → HasValue fieldsBySource k src v →
            HasValue fieldsBySource k src' v' → v = v' := by
          intro src v src' v' hconflict hconflict' hvalue hvalue'
          by_contra hdiffer
          exact hsame ⟨src, v, src', v', hconflict, hconflict', hvalue, hvalue', hdiffer⟩
        rcases (mem_flatClasses hcompared).mp hc with ⟨hfull, src, v, hconflict, hvalue, rfl⟩
        rcases (mem_flatClasses hcompared).mp hd with ⟨hfull', src', v', hconflict', hvalue', rfl⟩
        have hone := hvalues src v src' v' hconflict hconflict' hvalue hvalue'
        subst hone
        exact ⟨hvalues, src, src', v, hconflict, hconflict', hvalue, hvalue',
          (class_differs_iff hhard hvalue.not_blank).mp ⟨hfull, hfull', hne⟩⟩
      · intro hretold
        obtain ⟨src, src', v, hconflict, hconflict', hvalue, hvalue', htexts⟩ := hretold.differ
        obtain ⟨hfull, hfull', hne⟩ := (class_differs_iff hhard hvalue.not_blank).mpr htexts
        refine ⟨⟨_, (mem_flatClasses hcompared).mpr ⟨hfull, src, v, hconflict, hvalue, rfl⟩,
          _, (mem_flatClasses hcompared).mpr ⟨hfull', src', v, hconflict', hvalue', rfl⟩, hne⟩, ?_⟩
        rintro ⟨a, w, b, w', hconflict, hconflict', hvalue, hvalue', hdiffer⟩
        exact hdiffer (hretold.sameValue a w b w' hconflict hconflict' hvalue hvalue')

def givenAs (k : String) (v w : Json) : Fields :=
  SortedMap.ofEntries [("main", .obj [(k, v)]), ("worker", .obj [(k, w)])]

def asGiven : HashOrder := ⟨id, id⟩

theorem givenAs_baseNamed (k : String) (v w : Json) : BaseNamed (givenAs k v w) := by
  have hnames : ∀ src ∈ ["main", "worker"], sourceBase src = src := by decide
  exact hnames

theorem two_platforms_conflict :
    "platform" ∈ structuredKeys asciiText asGiven
      (givenAs "platform" (.str "Win32") (.str "Linux x86_64")) := by
  have hbase := givenAs_baseNamed "platform" (.str "Win32") (.str "Linux x86_64")
  have hlayer : ∃ layer ∈ realmLayers, "platform" ∈ layer.2 := by decide
  have hflat : "platform" ∈ conflictKeys (detectSourceConflicts asciiText
      (givenAs "platform" (.str "Win32") (.str "Linux x86_64"))) := by
    decide
  exact ((detectors_agree asciiText asGiven hbase hlayer).1 (by decide)).mp hflat

/-- The values are strings that agree up to case and length. -/
def CaseOrLength (v w : Json) : Prop :=
  ∃ s t, v = .str s ∧ w = .str t ∧ takeChars 64 (lowered s) = takeChars 64 (lowered t)

/-- Texts of sources whose worker gives its zeros as the negative one. -/
def workerMinus : TextOps := { asciiText with minusZero := fun src _ => src = "worker" }

/-- `true` and `"1"` are of one class as well, and the two zeros are one value of
two classes. -/
theorem merged_beyond_case :
    (¬ ∀ (fieldsBySource : Fields) (k : String), BaseNamed fieldsBySource →
      (∃ layer ∈ realmLayers, k ∈ layer.2) → isHardEquiKey k = true →
      k ∈ conflictKeys (detectSourceConflicts asciiText fieldsBySource) →
      k ∉ structuredKeys asciiText asGiven fieldsBySource →
      ∀ src v src' v', isConflictSource src = true → isConflictSource src' = true →
        HasValue fieldsBySource k src v → HasValue fieldsBySource k src' v' →
          CaseOrLength v v') ∧
    ¬ ∀ (T : TextOps) (fieldsBySource : Fields) (k : String), BaseNamed fieldsBySource →
      (∃ layer ∈ realmLayers, k ∈ layer.2) → isHardEquiKey k = true →
      k ∈ structuredKeys T asGiven fieldsBySource →
      k ∈ conflictKeys (detectSourceConflicts T fieldsBySource) := by
  have hlayer : ∃ layer ∈ realmLayers, "form_class" ∈ layer.2 := by decide
  constructor
  · intro hclaim
    have hbase := givenAs_baseNamed "form_class" (.bool true) (.str "1")
    have hflat : "form_class" ∈ conflictKeys (detectSourceConflicts asciiText
        (givenAs "form_class" (.bool true) (.str "1"))) := by
      decide
    have hstructured : "form_class" ∉ structuredKeys asciiText asGiven
        (givenAs "form_class" (.bool true) (.str "1")) := by
      rw [mem_structuredKeys_iff asGiven hbase (by decide) hlayer]
      have hone : flatClasses asciiText "form_class" (comparedValues
          (givenAs "form_class" (.bool true) (.str "1")) "form_class") = ["1", "1"] := by
        decide
      rw [hone]
      unfold Clash
      simp
    rcases hclaim _ _ hbase hlayer (by decide) hflat hstructured "main" (.bool true) "worker"
      (.str "1") (by decide) (by decide) (by unfold HasValue; decide)
      (by unfold HasValue; decide) with ⟨s, _, hs, _⟩
    cases hs
  · intro hclaim
    have hbase := givenAs_baseNamed "form_class" (.num (.float 0)) (.num (.float 0))
    have hflat : "form_class" ∉ conflictKeys (detectSourceConflicts workerMinus
        (givenAs "form_class" (.num (.float 0)) (.num (.float 0)))) := by
      decide
    have hstructured : "form_class" ∈ structuredKeys workerMinus asGiven
        (givenAs "form_class" (.num (.float 0)) (.num (.float 0))) := by
      rw [mem_structuredKeys_iff asGiven hbase (by decide) hlayer]
      have htwo : flatClasses workerMinus "form_class" (comparedValues
          (givenAs "form_class" (.num (.float 0)) (.num (.float 0))) "form_class") =
            ["0.0000", "-0.0000"] := by
        decide +kernel
      rw [htwo]
      unfold Clash
      simp
    exact hflat (hclaim _ _ _ hbase hlayer (by decide) hstructured)

end EvidenceMerge

end GrServer
