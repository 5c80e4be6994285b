import GrServer.VersionOrder

/-!
# The gate of the unattended upgrade

The gate looks at the versions of the active modules before it applies a
desired release.  It compares versions of three numbers and takes any other for
not greater, while the activation refuses by `semver`.
-/

namespace GrServer

open Text

namespace VersionGate

/-- `str::parse::<u64>`: an optional plus sign and decimal digits. -/
def parseU64 (s : Text) : Option ℕ :=
  let digits := match s with
    | '+' :: rest => rest
    | _ => s
  (SemVer.decimal digits).filter fun n => decide (n < 2 ^ 64)

def threeParts (s : String) : Option (ℕ × ℕ × ℕ) :=
  match (trim s.toList).splitOn '.' with
  | [major, minor, patch] => do
      return (← parseU64 major, ← parseU64 minor, ← parseU64 patch)
  | _ => none

/-- Upgrade-only: what cannot be read does not authorize. -/
def versionGt (a b : String) : Bool :=
  match threeParts a, threeParts b with
  | some (x, y, z), some (x', y', z') =>
      decide (x' < x ∨ (x' = x ∧ (y' < y ∨ (y' = y ∧ z' < z))))
  | _, _ => false

inductive HotApplyDecision where
  | apply
  | closed
  | downgradeBlocked
  deriving DecidableEq

def hotApplyDecision (versions : List String) (desired : String) : HotApplyDecision :=
  let desired := trimmed desired
  if versions = [] then .apply
  else if ¬versions.any fun v => trimmed v != desired then .closed
  else if versions.any fun v => versionGt (trimmed v) desired then .downgradeBlocked
  else .apply

section Gate

variable (V : SemVer)

/-- The floor of `ota_activate` refuses the version over the active one. -/
def FloorRefuses (active version : String) : Prop := V.lower version active = true

def Higher (active desired : String) : Prop := V.lower (trimmed desired) (trimmed active) = true

/-- What the gate promises for a set of active versions. -/
structure GateAgrees (versions : List String) (desired : String) : Prop where
  applies : hotApplyDecision versions desired = .apply →
    ∀ v ∈ versions, ¬FloorRefuses V v desired ∧ ¬Higher V v desired
  closed : hotApplyDecision versions desired = .closed ↔
    versions ≠ [] ∧ ∀ v ∈ versions, trimmed v = trimmed desired
  /-- When the desired version is activated for every module. -/
  converges : ∀ after : List String, after ≠ [] → (∀ v ∈ after, v = desired) →
    hotApplyDecision after desired = .closed

/-- Where an active version is higher than the desired one, one is so also by the
three numbers that the gate compares. -/
def HigherSeen (versions : List String) (desired : String) : Prop :=
  (∃ v ∈ versions, Higher V v desired) → ∃ v ∈ versions, versionGt v desired = true

variable {V} {versions : List String} {desired : String}

theorem closed_iff : hotApplyDecision versions desired = .closed ↔
    versions ≠ [] ∧ ∀ v ∈ versions, trimmed v = trimmed desired := by
  unfold hotApplyDecision
  dsimp only
  split_ifs with hnone hsame hblocked
  · simp [hnone]
  · simpa [hnone] using hsame
  · simpa [hnone] using hsame
  · simpa [hnone] using hsame

theorem versionGt_trimmed (a b : String) : versionGt (trimmed a) (trimmed b) = versionGt a b := by
  unfold versionGt threeParts trimmed
  rw [String.toList_ofList, String.toList_ofList, trim_trim, trim_trim]

theorem apply_iff : hotApplyDecision versions desired = .apply ↔ versions = [] ∨
    (∃ v ∈ versions, trimmed v ≠ trimmed desired) ∧
      ∀ v ∈ versions, versionGt v desired = false := by
  unfold hotApplyDecision
  dsimp only
  split_ifs with hnone hsame hblocked
  · simp [hnone]
  · simp only [List.any_eq_true, versionGt_trimmed] at hblocked
    rcases hblocked with ⟨v, hv, hgt⟩
    refine iff_of_false (by decide) ?_
    rintro (hempty | ⟨-, hall⟩)
    · exact hnone hempty
    · rw [hall v hv] at hgt
      cases hgt
  · simp only [List.any_eq_true, versionGt_trimmed] at hblocked
    refine iff_of_true rfl (Or.inr ⟨by simpa using hsame, ?_⟩)
    intro v hv
    exact Bool.eq_false_iff.mpr fun hgt => hblocked ⟨v, hv, hgt⟩
  · refine iff_of_false (by decide) ?_
    rintro (hempty | ⟨hdiffers, -⟩)
    · exact hnone hempty
    · exact hsame (by simpa using hdiffers)

theorem FloorRefuses.higher {v : String} (h : FloorRefuses V v desired) : Higher V v desired := by
  rcases SemVer.lower_iff.mp h with ⟨x, y, hx, hy, -⟩
  unfold Higher
  rw [V.parse_trimmed _ _ hx, V.parse_trimmed _ _ hy]
  exact h

theorem Higher.trimmed_ne {v : String} (h : Higher V v desired) : trimmed v ≠ trimmed desired := by
  intro hsame
  unfold Higher at h
  rw [hsame, SemVer.not_lower_self] at h
  cases h

/-- The gate keeps its promise exactly where it sees what `semver` sees. -/
theorem gate_agrees_iff (V : SemVer) (versions : List String) (desired : String) :
    GateAgrees V versions desired ↔ HigherSeen V versions desired := by
  constructor
  · rintro h ⟨v, hv, hhigher⟩
    by_contra hunseen
    have hlow : ∀ w ∈ versions, versionGt w desired = false :=
      fun w hw => Bool.eq_false_iff.mpr fun hgt => hunseen ⟨w, hw, hgt⟩
    have happly : hotApplyDecision versions desired = .apply :=
      apply_iff.mpr (Or.inr ⟨⟨v, hv, hhigher.trimmed_ne⟩, hlow⟩)
    exact (h.applies happly v hv).2 hhigher
  · intro hseen
    refine ⟨?_, closed_iff, ?_⟩
    · intro happly v hv
      have hnot : ¬Higher V v desired := by
        intro hhigher
        rcases hseen ⟨v, hv, hhigher⟩ with ⟨w, hw, hgt⟩
        rcases apply_iff.mp happly with hnone | ⟨-, hall⟩
        · exact List.ne_nil_of_mem hv hnone
        · rw [hall w hw] at hgt
          cases hgt
      exact ⟨fun hrefuses => hnot hrefuses.higher, hnot⟩
    · intro after hne hall
      exact closed_iff.mpr ⟨hne, fun v hv => by rw [hall v hv]⟩

end Gate

/-- A release candidate is active, and the release before is desired. -/
theorem candidate_counterexample : ¬GateAgrees SemVer.plain ["1.0.6-rc1"] "1.0.5" := by
  intro h
  have happly : hotApplyDecision ["1.0.6-rc1"] "1.0.5" = .apply := by decide
  have hhigher : Higher SemVer.plain "1.0.6-rc1" "1.0.5" := by
    unfold Higher
    decide
  exact (h.applies happly "1.0.6-rc1" List.mem_cons_self).2 hhigher

end VersionGate

end GrServer
