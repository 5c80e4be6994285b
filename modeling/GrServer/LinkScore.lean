import GrServer.ServerMint

/-!
# The link score

Two observations are scored by what their binders have in common, and the score
is then lowered by rules that keep it below the link threshold.  All scores are
exact rationals.
-/

namespace GrServer

open Text

namespace LinkScore

structure BinderObs extends ServerMint.BinderObs where
  family : String

section Binders

variable {α : Type}

def Shared (x y : Option α) : Prop := x.isSome = true ∧ x = y

def Apart (x y : Option α) : Prop := x.isSome = true ∧ y.isSome = true ∧ x ≠ y

instance [DecidableEq α] (x y : Option α) : Decidable (Shared x y) :=
  inferInstanceAs (Decidable (x.isSome = true ∧ x = y))

instance [DecidableEq α] (x y : Option α) : Decidable (Apart x y) :=
  inferInstanceAs (Decidable (x.isSome = true ∧ y.isSome = true ∧ x ≠ y))

theorem shared_comm {x y : Option α} : Shared x y ↔ Shared y x := by
  constructor
  · rintro ⟨hsome, rfl⟩
    exact ⟨hsome, rfl⟩
  · rintro ⟨hsome, rfl⟩
    exact ⟨hsome, rfl⟩

theorem apart_comm {x y : Option α} : Apart x y ↔ Apart y x := by
  unfold Apart
  rw [ne_comm]
  tauto

theorem Shared.not_apart {x y : Option α} (h : Shared x y) : ¬ Apart x y := by
  intro happart
  exact happart.2.2 h.2

end Binders

/-! ## The rules -/

section Rules

variable (existing obs : BinderObs)

def osPoints : ℚ :=
  if Shared existing.osInstanceHash obs.osInstanceHash then 55 / 100 else 0

def unitPoints : ℚ :=
  if Shared existing.unitSurfaceId obs.unitSurfaceId then
    if obs.softClass ∨ existing.softClass then 15 / 100
    else if obs.unitMultiroundStable ∧ existing.unitMultiroundStable then
      35 / 100 + 12 / 100
    else 35 / 100
  else 0

def residualPoints : ℚ :=
  if Shared existing.residualClass obs.residualClass then
    if obs.softClass ∨ existing.softClass then 10 / 100 else 25 / 100
  else 0

/-- The bonus for one class id looks at the side of `obs` only. -/
def classPoints : ℚ :=
  if Shared existing.classDeviceId obs.classDeviceId then
    if obs.softClass then 8 / 100 else 15 / 100
  else 0

/-- Distinct residual classes cap the score; a shared one lets the class id count. -/
def residualRule (s : ℚ) : ℚ :=
  if Apart existing.residualClass obs.residualClass then min s (15 / 100)
  else if Shared existing.residualClass obs.residualClass then
    s + classPoints existing obs
  else s

def crossFamilyPenalty (s : ℚ) : ℚ :=
  if existing.family ≠ obs.family ∧ Apart existing.osInstanceHash obs.osInstanceHash then
    s * (2 / 10)
  else s

def hostOf (o : BinderObs) : Option String := o.osInstanceHash.or o.webrtcHostIpHash

def crossFamilyLadder (s : ℚ) : ℚ :=
  if existing.family ≠ obs.family ∧ existing.softClass = false ∧ obs.softClass = false ∧
      Shared existing.residualClass obs.residualClass then
    if Shared (hostOf existing) (hostOf obs) then min (s + 28 / 100) 1
    else if Shared existing.webrtcHostIpHash obs.webrtcHostIpHash then
      min (s + 22 / 100) 1
    else s
  else s

/-- Tenants are compared where both are given. -/
def tenantBan (s : ℚ) : ℚ :=
  if Apart existing.tenantId obs.tenantId then 0 else s

def eitherSoft : Prop := obs.softClass = true ∨ existing.softClass = true

instance : Decidable (eitherSoft existing obs) :=
  inferInstanceAs (Decidable (obs.softClass = true ∨ existing.softClass = true))

def unitsFork : Prop :=
  existing.unitVersionedOk = true ∧ obs.unitVersionedOk = true ∧
    existing.unitSurfaceId ≠ obs.unitSurfaceId

instance : Decidable (unitsFork existing obs) :=
  inferInstanceAs (Decidable (_ ∧ _ ∧ _))

def capIf (p : Prop) [Decidable p] (cap s : ℚ) : ℚ := if p then min s cap else s

def softCaps (s : ℚ) : ℚ :=
  let s := capIf (eitherSoft existing obs ∧
    Shared existing.unitSurfaceId obs.unitSurfaceId ∧
    Apart existing.osInstanceHash obs.osInstanceHash) (25 / 100) s
  let s := capIf (eitherSoft existing obs ∧
    Shared existing.residualClass obs.residualClass ∧
    Apart existing.osInstanceHash obs.osInstanceHash) (25 / 100) s
  let s := capIf (eitherSoft existing obs ∧
    Apart existing.residualClass obs.residualClass) (25 / 100) s
  capIf (eitherSoft existing obs ∧ unitsFork existing obs) (25 / 100) s

def comp (o : BinderObs) : ℚ :=
  (if o.residualClass.any fun r => r ≠ "" && r ≠ "rm_none" then 4 / 10 else 0) +
  (if o.webrtcHostIpHash.any (· ≠ "") then 3 / 10 else 0) +
  (if o.unitVersionedOk then 15 / 100 else 0) +
  (if o.coresClass.any (· ≠ "") then 1 / 10 else 0) +
  (if o.osFamily.any (· ≠ "") then 5 / 100 else 0)

def Thin (o : BinderObs) : Prop := comp o < 45 / 100

instance (o : BinderObs) : Decidable (Thin o) :=
  inferInstanceAs (Decidable (comp o < 45 / 100))

def thinCap (s : ℚ) : ℚ := capIf (Thin existing ∨ Thin obs) (34 / 100) s

def scoreLinkLegacy : ℚ :=
  let s := osPoints existing obs + unitPoints existing obs + residualPoints existing obs
  let s := residualRule existing obs s
  let s := crossFamilyPenalty existing obs s
  let s := crossFamilyLadder existing obs s
  let s := tenantBan existing obs s
  let s := softCaps existing obs s
  let s := thinCap existing obs s
  min s 1

end Rules

/-! ## The lowest threshold -/

section Threshold

variable {existing obs : BinderObs}

theorem le_capIf {p : Prop} [Decidable p] {cap s : ℚ} (hcap : cap < 35 / 100) :
    35 / 100 ≤ capIf p cap s ↔ ¬ p ∧ 35 / 100 ≤ s := by
  unfold capIf
  split_ifs with hp
  · rw [le_min_iff]
    constructor
    · intro h
      linarith [h.2]
    · intro h
      exact absurd hp h.1
  · simp [hp]

/-- What the observations have in common, before any rule for tenants, soft or
thin observations. -/
def commonScore (existing obs : BinderObs) : ℚ :=
  crossFamilyLadder existing obs (crossFamilyPenalty existing obs
    (residualRule existing obs
      (osPoints existing obs + unitPoints existing obs + residualPoints existing obs)))

theorem le_softCaps {s : ℚ} :
    35 / 100 ≤ softCaps existing obs s ↔
      ¬ (eitherSoft existing obs ∧ unitsFork existing obs) ∧
      ¬ (eitherSoft existing obs ∧ Apart existing.residualClass obs.residualClass) ∧
      ¬ (eitherSoft existing obs ∧ Shared existing.residualClass obs.residualClass ∧
        Apart existing.osInstanceHash obs.osInstanceHash) ∧
      ¬ (eitherSoft existing obs ∧ Shared existing.unitSurfaceId obs.unitSurfaceId ∧
        Apart existing.osInstanceHash obs.osInstanceHash) ∧
      35 / 100 ≤ s := by
  have hcap : (25 / 100 : ℚ) < 35 / 100 := by norm_num
  simp only [softCaps, le_capIf hcap]

theorem le_score_iff :
    35 / 100 ≤ scoreLinkLegacy existing obs ↔
      ¬ (Thin existing ∨ Thin obs) ∧
      ¬ (eitherSoft existing obs ∧ unitsFork existing obs) ∧
      ¬ (eitherSoft existing obs ∧ Apart existing.residualClass obs.residualClass) ∧
      ¬ (eitherSoft existing obs ∧ Shared existing.residualClass obs.residualClass ∧
        Apart existing.osInstanceHash obs.osInstanceHash) ∧
      ¬ (eitherSoft existing obs ∧ Shared existing.unitSurfaceId obs.unitSurfaceId ∧
        Apart existing.osInstanceHash obs.osInstanceHash) ∧
      ¬ Apart existing.tenantId obs.tenantId ∧ 35 / 100 ≤ commonScore existing obs := by
  have hthin : (34 / 100 : ℚ) < 35 / 100 := by norm_num
  have hone : (35 / 100 : ℚ) ≤ 1 := by norm_num
  have htenant (s : ℚ) : 35 / 100 ≤ tenantBan existing obs s ↔
      ¬ Apart existing.tenantId obs.tenantId ∧ 35 / 100 ≤ s := by
    unfold tenantBan
    split_ifs with hapart
    · simp only [hapart, not_true_eq_false, false_and, iff_false]
      norm_num
    · simp [hapart]
  unfold scoreLinkLegacy
  simp only [le_min_iff, hone, and_true, thinCap, le_capIf hthin, le_softCaps, htenant,
    commonScore]

end Threshold

section Common

variable {existing obs : BinderObs}

theorem commonScore_of_apart (h : Apart existing.residualClass obs.residualClass) :
    commonScore existing obs < 35 / 100 := by
  have hnot : ¬ Shared existing.residualClass obs.residualClass := fun hs => hs.not_apart h
  have hcap : residualRule existing obs (osPoints existing obs + unitPoints existing obs +
      residualPoints existing obs) ≤ 15 / 100 := by
    rw [residualRule, if_pos h]
    exact min_le_right _ _
  unfold commonScore crossFamilyLadder crossFamilyPenalty
  simp only [hnot, and_false, if_false]
  split_ifs
  · linarith
  · linarith

def Penalised (existing obs : BinderObs) : Prop :=
  existing.family ≠ obs.family ∧ Apart existing.osInstanceHash obs.osInstanceHash

theorem commonScore_soft (hsoft : eitherSoft existing obs)
    (hres : ¬ Apart existing.residualClass obs.residualClass) :
    35 / 100 ≤ commonScore existing obs ↔
      Shared existing.osInstanceHash obs.osInstanceHash ∨
      (Shared existing.unitSurfaceId obs.unitSurfaceId ∧
        Shared existing.residualClass obs.residualClass ∧
        Shared existing.classDeviceId obs.classDeviceId ∧ obs.softClass = false ∧
        ¬ Penalised existing obs) := by
  have hladder (s : ℚ) : crossFamilyLadder existing obs s = s := by
    unfold crossFamilyLadder
    rw [if_neg]
    rintro ⟨-, hexisting, hobs, -⟩
    rcases hsoft with h | h
    · rw [hobs] at h
      cases h
    · rw [hexisting] at h
      cases h
  have hsoft' : obs.softClass = true ∨ existing.softClass = true := hsoft
  unfold commonScore
  rw [hladder]
  unfold crossFamilyPenalty residualRule osPoints unitPoints residualPoints classPoints
  rw [if_neg hres]
  by_cases hos : Shared existing.osInstanceHash obs.osInstanceHash
  · have hpenalty : ¬ (existing.family ≠ obs.family ∧
        Apart existing.osInstanceHash obs.osInstanceHash) := fun h => hos.not_apart h.2
    simp only [hos, hpenalty, hsoft', if_true, if_false, true_or, iff_true]
    split_ifs <;> norm_num
  · simp only [hos, hsoft', if_true, if_false, false_or, Penalised]
    split_ifs <;> norm_num <;> simp_all

theorem not_shared_host_of_apart (h : Apart existing.osInstanceHash obs.osInstanceHash) :
    ¬ Shared (hostOf existing) (hostOf obs) := by
  rcases Option.isSome_iff_exists.mp h.1 with ⟨x, hx⟩
  rcases Option.isSome_iff_exists.mp h.2.1 with ⟨y, hy⟩
  intro hshared
  apply h.2.2
  have hsame := hshared.2
  rw [hostOf, hostOf, hx, hy, Option.some_or, Option.some_or] at hsame
  rw [hx, hy, hsame]

def realPoints (existing obs : BinderObs) : ℚ :=
  osPoints existing obs + unitPoints existing obs + residualPoints existing obs +
    if Shared existing.residualClass obs.residualClass then classPoints existing obs else 0

theorem commonScore_real (hres : ¬ Apart existing.residualClass obs.residualClass) :
    commonScore existing obs = crossFamilyLadder existing obs
      (crossFamilyPenalty existing obs (realPoints existing obs)) := by
  unfold commonScore residualRule realPoints
  rw [if_neg hres]
  split_ifs
  · rfl
  · rw [add_zero]

theorem realPoints_eq (hexisting : existing.softClass = false) (hobs : obs.softClass = false) :
    realPoints existing obs =
      (if Shared existing.osInstanceHash obs.osInstanceHash then 55 / 100 else 0) +
      (if Shared existing.unitSurfaceId obs.unitSurfaceId then
        if obs.unitMultiroundStable ∧ existing.unitMultiroundStable then 47 / 100
        else 35 / 100
      else 0) +
      (if Shared existing.residualClass obs.residualClass then 25 / 100 else 0) +
      (if Shared existing.residualClass obs.residualClass then
        if Shared existing.classDeviceId obs.classDeviceId then 15 / 100 else 0
      else 0) := by
  unfold realPoints osPoints unitPoints residualPoints classPoints
  simp only [hexisting, hobs, Bool.false_eq_true, or_self, if_false]
  norm_num

theorem le_realPoints_iff (hexisting : existing.softClass = false)
    (hobs : obs.softClass = false) :
    35 / 100 ≤ realPoints existing obs ↔
      Shared existing.osInstanceHash obs.osInstanceHash ∨
      Shared existing.unitSurfaceId obs.unitSurfaceId ∨
      (Shared existing.residualClass obs.residualClass ∧
        Shared existing.classDeviceId obs.classDeviceId) := by
  rw [realPoints_eq hexisting hobs]
  split_ifs <;> norm_num <;> simp_all

theorem realPoints_of_shared (hexisting : existing.softClass = false)
    (hobs : obs.softClass = false)
    (hshared : Shared existing.residualClass obs.residualClass) :
    25 / 100 ≤ realPoints existing obs := by
  rw [realPoints_eq hexisting hobs]
  simp only [hshared, if_true]
  split_ifs <;> norm_num

theorem le_ladder {s bonus : ℚ} (h : 35 / 100 ≤ s + bonus) :
    35 / 100 ≤ min (s + bonus) 1 := by
  apply le_min h
  norm_num

theorem crossFamilyLadder_real (hexisting : existing.softClass = false)
    (hobs : obs.softClass = false) (s : ℚ) :
    crossFamilyLadder existing obs s =
      if existing.family ≠ obs.family ∧
          Shared existing.residualClass obs.residualClass then
        if Shared (hostOf existing) (hostOf obs) then min (s + 28 / 100) 1
        else if Shared existing.webrtcHostIpHash obs.webrtcHostIpHash then
          min (s + 22 / 100) 1
        else s
      else s := by
  unfold crossFamilyLadder
  simp only [hexisting, hobs, true_and]

theorem commonScore_unpenalised (hexisting : existing.softClass = false)
    (hobs : obs.softClass = false)
    (hres : ¬ Apart existing.residualClass obs.residualClass)
    (hpenalty : ¬ Penalised existing obs) :
    35 / 100 ≤ commonScore existing obs ↔
      Shared existing.osInstanceHash obs.osInstanceHash ∨
      Shared existing.unitSurfaceId obs.unitSurfaceId ∨
      (Shared existing.residualClass obs.residualClass ∧
        (Shared existing.classDeviceId obs.classDeviceId ∨
          (existing.family ≠ obs.family ∧
            (Shared (hostOf existing) (hostOf obs) ∨
              Shared existing.webrtcHostIpHash obs.webrtcHostIpHash)))) := by
  have hplain : crossFamilyPenalty existing obs (realPoints existing obs) =
      realPoints existing obs := if_neg hpenalty
  have hpoints := le_realPoints_iff hexisting hobs
  rw [commonScore_real hres, hplain, crossFamilyLadder_real hexisting hobs]
  by_cases hladder : existing.family ≠ obs.family ∧
      Shared existing.residualClass obs.residualClass
  · have hlow := realPoints_of_shared hexisting hobs hladder.2
    rw [if_pos hladder]
    by_cases hhost : Shared (hostOf existing) (hostOf obs)
    · rw [if_pos hhost]
      have hle := @le_ladder (realPoints existing obs) (28 / 100) (by linarith)
      simp only [hle, hladder.1, hladder.2, hhost, ne_eq, not_false_eq_true, true_or,
        and_self, or_true]
    · rw [if_neg hhost]
      by_cases hweb : Shared existing.webrtcHostIpHash obs.webrtcHostIpHash
      · rw [if_pos hweb]
        have hle := @le_ladder (realPoints existing obs) (22 / 100) (by linarith)
        simp only [hle, hladder.1, hladder.2, hweb, ne_eq, not_false_eq_true, or_true,
          and_self]
      · rw [if_neg hweb, hpoints]
        simp only [hhost, hweb, or_self, and_false, or_false]
  · rw [if_neg hladder, hpoints]
    have hnone : ∀ rung : Prop, Shared existing.residualClass obs.residualClass →
        ¬ (existing.family ≠ obs.family ∧ rung) :=
      fun _ hshared h => hladder ⟨h.1, hshared⟩
    constructor
    · rintro (h | h | h)
      · exact .inl h
      · exact .inr (.inl h)
      · exact .inr (.inr ⟨h.1, .inl h.2⟩)
    · rintro (h | h | ⟨hshared, hclass | hrung⟩)
      · exact .inl h
      · exact .inr (.inl h)
      · exact .inr (.inr ⟨hshared, hclass⟩)
      · exact absurd hrung (hnone _ hshared)

theorem commonScore_penalised (hexisting : existing.softClass = false)
    (hobs : obs.softClass = false)
    (hres : ¬ Apart existing.residualClass obs.residualClass)
    (hpenalty : Penalised existing obs) :
    35 / 100 ≤ commonScore existing obs ↔
      Shared existing.residualClass obs.residualClass ∧
      Shared existing.webrtcHostIpHash obs.webrtcHostIpHash ∧
      Shared existing.unitSurfaceId obs.unitSurfaceId ∧
      (Shared existing.classDeviceId obs.classDeviceId ∨
        (obs.unitMultiroundStable = true ∧ existing.unitMultiroundStable = true)) := by
  have hlowered : crossFamilyPenalty existing obs (realPoints existing obs) =
      realPoints existing obs * (2 / 10) := if_pos hpenalty
  have hos : ¬ Shared existing.osInstanceHash obs.osInstanceHash :=
    fun h => h.not_apart hpenalty.2
  have hhost := not_shared_host_of_apart hpenalty.2
  have hpoints := realPoints_eq hexisting hobs
  rw [commonScore_real hres, hlowered, crossFamilyLadder_real hexisting hobs]
  simp only [hpenalty.1, ne_eq, not_false_eq_true, true_and, hhost, if_false]
  simp only [hos, if_false, zero_add] at hpoints
  by_cases hshared : Shared existing.residualClass obs.residualClass
  · by_cases hweb : Shared existing.webrtcHostIpHash obs.webrtcHostIpHash
    · simp only [hshared, hweb, if_true, true_and] at hpoints ⊢
      rw [hpoints, le_min_iff]
      split_ifs <;> norm_num <;> simp_all
    · simp only [hshared, hweb, if_true, if_false, false_and, and_false, iff_false,
        not_le] at hpoints ⊢
      rw [hpoints]
      split_ifs <;> norm_num
  · simp only [hshared, if_false, false_and, iff_false, not_le] at hpoints ⊢
    rw [hpoints]
    split_ifs <;> norm_num

end Common

end LinkScore

end GrServer
