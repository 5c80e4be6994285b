import GrServer.MintResolve

/-!
# One silicon conflict for the gate and the resolver

The resolver sees every conflict that the gate sees.  The other way round, and
for what the resolver keeps, it depends on keys that neither list names.
-/

namespace GrServer

open Json Text EvidenceMerge

namespace MintGate

/-! ## Names of silicon keys -/

def isHwStable (key : String) : Bool :=
  startsWith key "hw_" && "_stable".toList.isSuffixOf key.toList &&
    10 ≤ key.toList.length

def SiliconNamed (key : String) : Prop :=
  keyClass key = .silicon ∨ startsWith key "hw_curve_" = true ∨ isHwStable key = true ∨
    key = "unit_surface_id"

structure UnlistedStable (key : String) : Prop where
  stable : isHwStable key = true
  notSilicon : keyClass key ≠ .silicon
  notWebgl : key ≠ "hw_webgl_stable"
  notAudio : key ≠ "hw_audio_stable"

theorem contains_of_prefix {start key : String} {keys : List String}
    (hkey : startsWith key start = true)
    (hnone : ∀ listed ∈ keys, startsWith listed start = false) :
    keys.contains key = false := by
  by_contra hmem
  have hlisted := List.contains_iff_mem.mp (Bool.eq_true_of_not_eq_false hmem)
  rw [hnone key hlisted] at hkey
  cases hkey

theorem silicon_of_curve {key : String} (h : startsWith key "hw_curve_" = true) :
    keyClass key = .silicon := by
  have hprotocol : protocolKeys.contains key = false := contains_of_prefix h (by decide)
  have hnetwork : networkKeys.contains key = false := contains_of_prefix h (by decide)
  have hsoft : softIdentityKeys.contains key = false := contains_of_prefix h (by decide)
  unfold keyClass
  rw [hprotocol, hnetwork, hsoft, h]
  simp

theorem other_of_stable {key : String} (h : UnlistedStable key) :
    keyClass key = .other := by
  have hstart : startsWith key "hw_" = true := by
    have hstable := h.stable
    simp only [isHwStable, Bool.and_eq_true] at hstable
    exact hstable.1.1
  have hprotocol : protocolKeys.contains key = false :=
    contains_of_prefix hstart (by decide)
  have hnetwork : networkKeys.contains key = false :=
    contains_of_prefix hstart (by decide)
  have hsoft : softIdentityKeys.contains key = false :=
    contains_of_prefix hstart (by decide)
  have hviewport : viewportKeys.contains key = false :=
    contains_of_prefix hstart (by decide)
  have hinventory : inventoryKeys.contains key = false :=
    contains_of_prefix hstart (by decide)
  have hclass := h.notSilicon
  unfold keyClass at hclass ⊢
  simp only [hprotocol, hnetwork, hsoft, hviewport, hinventory, Bool.false_eq_true,
    if_false] at hclass ⊢
  by_cases hsilicon : (siliconClassKeys.contains key || startsWith key "hw_curve_") = true
  · rw [if_pos hsilicon] at hclass
    exact absurd rfl hclass
  · rw [if_neg hsilicon]

theorem not_never_of_stable {key : String} (h : UnlistedStable key) :
    key ∉ neverCommercialMintKeys := by
  have hstable := h.stable
  simp only [isHwStable, Bool.and_eq_true] at hstable
  have hnever : neverCommercialMintKeys.contains key = false :=
    contains_of_prefix hstable.1.1 (by decide)
  simpa using hnever

theorem not_union_of_stable {key : String} (h : UnlistedStable key) :
    isResidualPathsUnionKey key = false := by
  have hstable := h.stable
  simp only [isHwStable, Bool.and_eq_true] at hstable
  exact contains_of_prefix hstable.1.1 (by decide)

theorem not_poisoned_of_stable {key : String} (h : UnlistedStable key) :
    isResolverPoisoned key = false := by
  have hlisted : ∀ listed ∈ resolverPoisonKeys, keyClass listed = .silicon ∨
      listed = "hw_webgl_stable" ∨ listed = "hw_audio_stable" := by decide
  unfold isResolverPoisoned
  rw [Bool.or_eq_false_iff]
  constructor
  · by_contra hmem
    rcases hlisted key (List.contains_iff_mem.mp (Bool.eq_true_of_not_eq_false hmem))
      with hclass | hwebgl | haudio
    · exact h.notSilicon hclass
    · exact h.notWebgl hwebgl
    · exact h.notAudio haudio
  · by_contra hcurve
    exact h.notSilicon (silicon_of_curve (Bool.eq_true_of_not_eq_false hcurve))

theorem other_of_union {key : String} (h : isResidualPathsUnionKey key = true) :
    keyClass key = .other := by
  have hall : ∀ listed ∈ residualPathsUnionKeys, keyClass listed = .other := by decide
  exact hall key (List.contains_iff_mem.mp h)

theorem not_poisoned_of_union {key : String} (h : isResidualPathsUnionKey key = true) :
    isResolverPoisoned key = false := by
  have hall : ∀ listed ∈ residualPathsUnionKeys, isResolverPoisoned listed = false := by
    decide
  exact hall key (List.contains_iff_mem.mp h)

theorem not_named_of_kept {key : String} (hkey : key ∈ mintSemanticKeys)
    (hkept : isGatePoisoned key = false) : ¬ SiliconNamed key := by
  have hall : ∀ listed ∈ mintSemanticKeys, isGatePoisoned listed = false →
      keyClass listed ≠ .silicon ∧ startsWith listed "hw_curve_" = false ∧
        isHwStable listed = false ∧ listed ≠ "unit_surface_id" := by decide
  rcases hall key hkey hkept with ⟨hclass, hcurve, hstable, hunit⟩
  rintro (h | h | h | h)
  · exact hclass h
  · rw [hcurve] at h
    cases h
  · rw [hstable] at h
    cases h
  · exact hunit h

section Left

variable {floats : FloatCompare} {fields : Json} {evidence : Option Json} {key : String}

theorem leftAt_silicon {i : MintInput} (hclass : keyClass i.key = .silicon)
    (old : Option Json) : leftAt floats true i old = none := by
  have hexcluded : isSiliconExcluded floats true i = true := by
    simp [isSiliconExcluded, hclass]
  have happlies : appliesChosen floats true i = false := by
    simp [appliesChosen, hclass]
  unfold leftAt
  rw [hexcluded, happlies]
  cases chosenValue floats i <;> rfl

theorem leftAt_other {hard : Bool} {i : MintInput} (hclass : keyClass i.key = .other)
    (old : Option Json) :
    leftAt floats hard i old =
      if isResidualPathsUnionKey i.key then old else (chosenValue floats i).or old := by
  have hkept : isSiliconExcluded floats hard i = false := by
    simp [isSiliconExcluded, isSiliconConflict, hclass]
  have happlies : appliesChosen floats hard i = !isResidualPathsUnionKey i.key := by
    simp [appliesChosen, hclass]
  unfold leftAt
  rw [hkept, happlies]
  cases chosenValue floats i <;> cases isResidualPathsUnionKey i.key <;> rfl

theorem resolved_union (h : isResidualPathsUnionKey key = true) :
    (resolveFieldsMultiSource floats fields evidence).resolvedFields.get? key =
      (mergedOf fields).get? key := by
  have hleft : ∀ hard, leftAt floats hard (inputFor fields evidence key)
      ((mergedOf fields).get? key) = (mergedOf fields).get? key := by
    intro hard
    rw [leftAt_other (other_of_union h)]
    exact if_pos h
  rw [resolvedFields_get?, not_poisoned_of_union h, appliedFields_get?, hleft]
  simp

theorem resolved_silicon (hhard : siliconHard floats fields evidence = true)
    (hclass : keyClass key = .silicon) :
    (resolveFieldsMultiSource floats fields evidence).resolvedFields.get? key = none := by
  rw [resolvedFields_get?, hhard, appliedFields_get?]
  have hleft := @leftAt_silicon floats (inputFor fields evidence key) hclass
    ((mergedOf fields).get? key)
  split_ifs with hpoison hreported
  · rfl
  · exact hleft
  · by_contra hget
    exact hreported (mem_reportedKeys.mpr (.inr (.inl (Option.isSome_iff_ne_none.mpr hget))))

theorem reported_of_firstReported
    (h : (firstReported (inputFor fields evidence key)).isSome = true) :
    key ∈ reportedKeys fields evidence := by
  rcases Option.isSome_iff_exists.mp h with ⟨v, hv⟩
  have hfound := (Option.filter_eq_some_iff.mp hv).1
  rcases Option.bind_eq_some_iff.mp hfound with ⟨r, -, hr⟩
  rcases Option.bind_eq_some_iff.mp hr with ⟨bucket, hbucket, hget⟩
  rcases Option.bind_eq_some_iff.mp hbucket with ⟨fbs, hfbs, hsource⟩
  have hobject : ∃ members, bucket = .obj members := by
    cases bucket <;> simp [get?] at hget ⊢
  rcases hobject with ⟨members, rfl⟩
  apply mem_reportedKeys.mpr
  refine .inr (.inr ⟨fbs, hfbs, _, SortedMap.get?_eq_some_iff.mp hsource,
    SortedMap.ofEntries members, rfl, ?_⟩)
  rw [SortedMap.get?_ofEntries]
  exact Option.isSome_iff_exists.mpr ⟨v, hget⟩

theorem resolved_stable (h : UnlistedStable key) :
    (resolveFieldsMultiSource floats fields evidence).resolvedFields.get? key =
      (firstReported (inputFor fields evidence key)).or ((mergedOf fields).get? key) := by
  have hchosen := @chosenValue_other floats (inputFor fields evidence key)
    (other_of_stable h) (not_never_of_stable h)
  have hunion : isResidualPathsUnionKey (inputFor fields evidence key).key = false :=
    not_union_of_stable h
  rw [resolvedFields_get?, not_poisoned_of_stable h, appliedFields_get?,
    leftAt_other (other_of_stable h), hchosen, hunion]
  simp only [Bool.false_eq_true, and_false, if_false]
  split_ifs with hreported
  · rfl
  · have hnone : firstReported (inputFor fields evidence key) = none := by
      by_contra hsome
      exact hreported (reported_of_firstReported (Option.isSome_iff_ne_none.mpr hsome))
    rw [hnone, Option.none_or]

end Left

/-! ## Agreement -/

def GateConflict (floats : FloatCompare) (fields : Json) (evidence : Option Json) : Prop :=
  ∃ k ∈ mintSemanticKeys, keyClass k = .silicon ∧
    Disagreement floats (inputFor fields evidence k)

structure OneSiliconConflict (floats : FloatCompare) (fields : Json)
    (evidence : Option Json) : Prop where
  same : (resolveFieldsMultiSource floats fields evidence).siliconHardConflict =
    (assessMintGate floats fields evidence).siliconHardConflict
  noField : (resolveFieldsMultiSource floats fields evidence).siliconHardConflict = true →
    ∀ k, SiliconNamed k →
      (resolveFieldsMultiSource floats fields evidence).resolvedFields.get? k = none
  noMint : (resolveFieldsMultiSource floats fields evidence).siliconHardConflict = true →
    ∀ k ∈ (assessMintGate floats fields evidence).mintOkKeys, ¬ SiliconNamed k
  keepsUnion : ∀ k, isResidualPathsUnionKey k = true →
    (resolveFieldsMultiSource floats fields evidence).resolvedFields.get? k =
      (mergedOf fields).get? k

/-- What neither list names does no harm: a conflict on a silicon key outside the
gate's list comes with one on it, and then no stable digest is there that the
resolver's list leaves out. -/
structure ListsSuffice (floats : FloatCompare) (fields : Json)
    (evidence : Option Json) : Prop where
  gateSees : ∀ k ∈ reportedKeys fields evidence, keyClass k = .silicon →
    Disagreement floats (inputFor fields evidence k) → GateConflict floats fields evidence
  noStable : GateConflict floats fields evidence → ∀ k, UnlistedStable k →
    (mergedOf fields).get? k = none ∧ firstReported (inputFor fields evidence k) = none

section Agreement

variable {floats : FloatCompare} {fields : Json} {evidence : Option Json}

theorem resolver_hard :
    (resolveFieldsMultiSource floats fields evidence).siliconHardConflict =
      siliconHard floats fields evidence := by
  rw [resolveFieldsMultiSource]

theorem gate_hard :
    (assessMintGate floats fields evidence).siliconHardConflict =
      !(gateSiliconConflicts floats fields evidence).isEmpty := by
  rw [assessMintGate]

theorem gate_mintOkKeys :
    (assessMintGate floats fields evidence).mintOkKeys =
      gateMintOkKeys floats fields evidence := by
  rw [assessMintGate]

theorem siliconHard_iff :
    siliconHard floats fields evidence = true ↔
      ∃ k ∈ reportedKeys fields evidence, keyClass k = .silicon ∧
        Disagreement floats (inputFor fields evidence k) := by
  unfold siliconHard
  simp only [List.any_eq_true, isSiliconConflict_iff]
  rfl

theorem gateHard_iff :
    (gateSiliconConflicts floats fields evidence).isEmpty = false ↔
      GateConflict floats fields evidence := by
  unfold gateSiliconConflicts GateConflict
  rw [← Bool.not_eq_true, List.isEmpty_iff, List.filter_eq_nil_iff]
  simp only [isSiliconConflict_iff]
  constructor
  · intro h
    by_contra hnone
    exact h fun k hk hconflict => hnone ⟨k, hk, hconflict⟩
  · rintro ⟨k, hk, hconflict⟩ h
    exact h k hk hconflict

theorem siliconHard_of_gate (h : GateConflict floats fields evidence) :
    siliconHard floats fields evidence = true := by
  rcases h with ⟨k, hk, hconflict⟩
  exact siliconHard_iff.mpr ⟨k, mem_reportedKeys.mpr (.inl hk), hconflict⟩

theorem gateMintOkKeys_not_named (h : GateConflict floats fields evidence) :
    ∀ k ∈ gateMintOkKeys floats fields evidence, ¬ SiliconNamed k := by
  have hhard := (@gateHard_iff floats fields evidence).mpr h
  intro k hk
  rw [gateMintOkKeys, List.mem_filter, hhard, Bool.false_or, Bool.and_eq_true_iff,
    Bool.not_eq_true'] at hk
  exact not_named_of_kept hk.1 hk.2.2

/-- Gate and resolver see the same conflict, and keep silicon out under it,
exactly where their lists suffice. -/
theorem oneSiliconConflict_iff (floats : FloatCompare) (fields : Json)
    (evidence : Option Json) :
    OneSiliconConflict floats fields evidence ↔ ListsSuffice floats fields evidence := by
  constructor
  · intro h
    have hsame := h.same
    have hnoField := h.noField
    rw [resolver_hard] at hsame hnoField
    rw [gate_hard] at hsame
    constructor
    · intro k hk hclass hdisagree
      have hhard := siliconHard_iff.mpr ⟨k, hk, hclass, hdisagree⟩
      rw [hhard] at hsame
      exact gateHard_iff.mp (by simpa using hsame.symm)
    · intro hgate k hk
      have hnone := hnoField (siliconHard_of_gate hgate) k (.inr (.inr (.inl hk.stable)))
      rw [resolved_stable hk, Option.or_eq_none_iff] at hnone
      exact ⟨hnone.2, hnone.1⟩
  · intro h
    have hgate : siliconHard floats fields evidence = true →
        GateConflict floats fields evidence := by
      intro hhard
      rcases siliconHard_iff.mp hhard with ⟨k, hk, hclass, hdisagree⟩
      exact h.gateSees k hk hclass hdisagree
    constructor
    · rw [resolver_hard, gate_hard, Bool.eq_iff_iff, Bool.not_eq_true', gateHard_iff]
      exact ⟨hgate, siliconHard_of_gate⟩
    · rw [resolver_hard]
      intro hhard k hnamed
      by_cases hclass : keyClass k = .silicon
      · exact resolved_silicon hhard hclass
      rcases hnamed with hsilicon | hcurve | hstable | hunit
      · exact absurd hsilicon hclass
      · exact absurd (silicon_of_curve hcurve) hclass
      · by_cases hpoison : isResolverPoisoned k = true
        · rw [resolvedFields_get?, if_pos ⟨hhard, hpoison⟩]
        · have hunlisted : UnlistedStable k :=
            { stable := hstable
              notSilicon := hclass
              notWebgl := by
                rintro rfl
                exact hpoison (by decide)
              notAudio := by
                rintro rfl
                exact hpoison (by decide) }
          have hnone := h.noStable (hgate hhard) k hunlisted
          rw [resolved_stable hunlisted, hnone.1, hnone.2]
          rfl
      · subst hunit
        exact absurd (by decide) hclass
    · rw [resolver_hard, gate_mintOkKeys]
      intro hhard
      exact gateMintOkKeys_not_named (hgate hhard)
    · intro k hk
      exact resolved_union hk

end Agreement

/-- Two sources report different canvas curves, which the gate does not look at. -/
def canvasConflict : Option Json :=
  some (.obj [("fields_by_source", .obj
    [("iframe", .obj [("hw_curve_canvas", ofInt 2)]),
      ("main", .obj [("hw_curve_canvas", ofInt 1)])])])

theorem canvas_conflict_unseen :
    ¬ ∀ (floats : FloatCompare) (fields : Json) (evidence : Option Json),
      OneSiliconConflict floats fields evidence := by
  intro h
  have hsame := (h exactCompare (.obj []) canvasConflict).same
  have hentries : ∀ k ∈ mintSemanticKeys, (inputFor (.obj []) canvasConflict k).entries = [] := by
    decide
  have hlisted : ∀ k, (inputFor (.obj []) canvasConflict k).listedConflict = false := by
    intro k
    rfl
  have hgate : ¬ GateConflict exactCompare (.obj []) canvasConflict := by
    rintro ⟨k, hk, -, hdisagree⟩
    rcases hdisagree with hlist | ⟨first, rest, hall, -⟩
    · rw [hlisted k] at hlist
      cases hlist
    · rw [hentries k hk, eligible] at hall
      cases hall
  have hresolver : siliconHard exactCompare (.obj []) canvasConflict = true := by
    apply siliconHard_iff.mpr
    refine ⟨"hw_curve_canvas", by decide, by decide, .inr ?_⟩
    exact ⟨("iframe", ofInt 2), [("main", ofInt 1)], by decide, _,
      List.mem_singleton_self _, by decide⟩
  rw [resolver_hard, gate_hard, hresolver] at hsame
  exact hgate (gateHard_iff.mp (by simpa using hsame.symm))

end MintGate

end GrServer
