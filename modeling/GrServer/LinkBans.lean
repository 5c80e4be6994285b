import GrServer.LinkScore

/-!
# Bans of the link score and its symmetry

Which observations may be linked at the lowest threshold, in terms of their
binders, and where the two directions of a comparison score differently.
-/

namespace GrServer

namespace LinkScore

def SoftEnough (existing obs : BinderObs) : Prop :=
  ¬ unitsFork existing obs ∧
    (Shared existing.osInstanceHash obs.osInstanceHash ∨
      (Shared existing.unitSurfaceId obs.unitSurfaceId ∧
        Shared existing.residualClass obs.residualClass ∧
        Shared existing.classDeviceId obs.classDeviceId ∧ obs.softClass = false ∧
        ¬ Apart existing.osInstanceHash obs.osInstanceHash))

def RealEnough (existing obs : BinderObs) : Prop :=
  (¬ Penalised existing obs ∧
    (Shared existing.osInstanceHash obs.osInstanceHash ∨
      Shared existing.unitSurfaceId obs.unitSurfaceId ∨
      (Shared existing.residualClass obs.residualClass ∧
        (Shared existing.classDeviceId obs.classDeviceId ∨
          (existing.family ≠ obs.family ∧
            (Shared (hostOf existing) (hostOf obs) ∨
              Shared existing.webrtcHostIpHash obs.webrtcHostIpHash)))))) ∨
  (Penalised existing obs ∧
    Shared existing.residualClass obs.residualClass ∧
    Shared existing.webrtcHostIpHash obs.webrtcHostIpHash ∧
    Shared existing.unitSurfaceId obs.unitSurfaceId ∧
    (Shared existing.classDeviceId obs.classDeviceId ∨
      (obs.unitMultiroundStable = true ∧ existing.unitMultiroundStable = true)))

structure MayLink (existing obs : BinderObs) : Prop where
  rich : ¬ Thin existing ∧ ¬ Thin obs
  tenants : ¬ Apart existing.tenantId obs.tenantId
  residuals : ¬ Apart existing.residualClass obs.residualClass
  soft : eitherSoft existing obs → SoftEnough existing obs
  real : ¬ eitherSoft existing obs → RealEnough existing obs

section Link

variable {existing obs : BinderObs}

theorem real_sides (h : ¬ eitherSoft existing obs) :
    existing.softClass = false ∧ obs.softClass = false := by
  constructor
  · exact Bool.eq_false_of_not_eq_true fun hs => h (.inr hs)
  · exact Bool.eq_false_of_not_eq_true fun hs => h (.inl hs)

theorem commonScore_real_iff (hreal : ¬ eitherSoft existing obs)
    (hres : ¬ Apart existing.residualClass obs.residualClass) :
    35 / 100 ≤ commonScore existing obs ↔ RealEnough existing obs := by
  rcases real_sides hreal with ⟨hexisting, hobs⟩
  unfold RealEnough
  by_cases hpenalty : Penalised existing obs
  · rw [commonScore_penalised hexisting hobs hres hpenalty]
    simp only [hpenalty, not_true_eq_false, false_and, true_and, false_or]
  · rw [commonScore_unpenalised hexisting hobs hres hpenalty]
    simp only [hpenalty, not_false_eq_true, false_and, true_and, or_false]

theorem not_apart_of_le (h : 35 / 100 ≤ commonScore existing obs) :
    ¬ Apart existing.residualClass obs.residualClass := by
  intro happart
  have hlow := commonScore_of_apart happart
  linarith

theorem le_score_iff_mayLink :
    35 / 100 ≤ scoreLinkLegacy existing obs ↔ MayLink existing obs := by
  rw [le_score_iff]
  constructor
  · rintro ⟨hthin, hfork, -, hresOs, hunitOs, htenants, hcommon⟩
    have hres := not_apart_of_le hcommon
    constructor
    · exact not_or.mp hthin
    · exact htenants
    · exact hres
    · intro hsoft
      rw [commonScore_soft hsoft hres] at hcommon
      refine ⟨fun h => hfork ⟨hsoft, h⟩, hcommon.imp_right ?_⟩
      rintro ⟨hunit, hshared, hclass, hobs, -⟩
      exact ⟨hunit, hshared, hclass, hobs, fun h => hunitOs ⟨hsoft, hunit, h⟩⟩
    · intro hreal
      exact (commonScore_real_iff hreal hres).mp hcommon
  · intro h
    refine ⟨not_or.mpr h.rich, fun hs => (h.soft hs.1).1 hs.2, fun hs => h.residuals hs.2,
      ?_, ?_, h.tenants, ?_⟩
    · rintro ⟨hsoft, hshared, happart⟩
      rcases (h.soft hsoft).2 with hos | henough
      · exact hos.not_apart happart
      · exact henough.2.2.2.2 happart
    · rintro ⟨hsoft, hunit, happart⟩
      rcases (h.soft hsoft).2 with hos | henough
      · exact hos.not_apart happart
      · exact henough.2.2.2.2 happart
    · by_cases hsoft : eitherSoft existing obs
      · rw [commonScore_soft hsoft h.residuals]
        apply (h.soft hsoft).2.imp_right
        rintro ⟨hunit, hshared, hclass, hobs, hos⟩
        exact ⟨hunit, hshared, hclass, hobs, fun hpenalty => hos hpenalty.2⟩
      · exact (commonScore_real_iff hsoft h.residuals).mpr (h.real hsoft)

end Link

/-! ## Symmetry -/

section Symmetry

variable (a b : BinderObs)

theorem points_comm :
    osPoints a b + unitPoints a b + residualPoints a b =
      osPoints b a + unitPoints b a + residualPoints b a := by
  unfold osPoints unitPoints residualPoints
  simp only [@shared_comm _ a.osInstanceHash, @shared_comm _ a.unitSurfaceId,
    @shared_comm _ a.residualClass, or_comm (a := b.softClass = true),
    and_comm (a := b.unitMultiroundStable = true)]

def finish (s : ℚ) : ℚ :=
  min (thinCap a b (softCaps a b (tenantBan a b
    (crossFamilyLadder a b (crossFamilyPenalty a b s))))) 1

theorem score_eq_finish :
    scoreLinkLegacy a b =
      finish a b (residualRule a b (osPoints a b + unitPoints a b + residualPoints a b)) := by
  rw [scoreLinkLegacy, finish]

theorem eitherSoft_comm : eitherSoft a b ↔ eitherSoft b a := or_comm

theorem unitsFork_comm : unitsFork a b ↔ unitsFork b a := by
  unfold unitsFork
  rw [ne_comm]
  tauto

theorem finish_comm (s : ℚ) : finish a b s = finish b a s := by
  unfold finish thinCap softCaps tenantBan crossFamilyLadder crossFamilyPenalty capIf
  simp only [ne_comm (a := a.family), @apart_comm _ a.osInstanceHash,
    @shared_comm _ a.residualClass, @apart_comm _ a.residualClass,
    @shared_comm _ a.unitSurfaceId, @shared_comm _ (hostOf a),
    @shared_comm _ a.webrtcHostIpHash, @apart_comm _ a.tenantId, eitherSoft_comm a b,
    unitsFork_comm a b, or_comm (a := Thin a), and_left_comm (a := a.softClass = false)]

def OneSided : Prop :=
  a.softClass ≠ b.softClass ∧ Shared a.residualClass b.residualClass ∧
    Shared a.classDeviceId b.classDeviceId

theorem residualRule_comm (h : ¬ OneSided a b) (s : ℚ) :
    residualRule a b s = residualRule b a s := by
  unfold residualRule classPoints
  simp only [@shared_comm _ a.residualClass, @apart_comm _ a.residualClass,
    @shared_comm _ a.classDeviceId]
  split_ifs with happart hshared hclass hb ha ha
  · rfl
  · rfl
  · exact absurd ⟨by simp [hb, ha], shared_comm.mp hshared, shared_comm.mp hclass⟩ h
  · exact absurd ⟨by simp [hb, ha], shared_comm.mp hshared, shared_comm.mp hclass⟩ h
  · rfl
  · rfl
  · rfl

/-- A later rule hides which side was soft. -/
def Hidden : Prop :=
  Apart a.tenantId b.tenantId ∨
  (Shared a.osInstanceHash b.osInstanceHash ∧ (Thin a ∨ Thin b ∨ unitsFork a b)) ∨
  (Apart a.osInstanceHash b.osInstanceHash ∧ a.family = b.family ∧
    Shared a.unitSurfaceId b.unitSurfaceId)

theorem Hidden.symm {a b : BinderObs} (h : Hidden a b) : Hidden b a := by
  unfold Hidden at h ⊢
  rw [apart_comm, @shared_comm _ b.osInstanceHash, @apart_comm _ b.osInstanceHash,
    @shared_comm _ b.unitSurfaceId, unitsFork_comm, @eq_comm _ b.family]
  tauto

theorem OneSided.symm {a b : BinderObs} (h : OneSided a b) : OneSided b a :=
  ⟨h.1.symm, shared_comm.mp h.2.1, shared_comm.mp h.2.2⟩

theorem finish_bonus_iff {a b : BinderObs} (hobs : b.softClass = true)
    (hshared : Shared a.residualClass b.residualClass) :
    finish a b (osPoints a b + unitPoints a b + residualPoints a b + 8 / 100) =
        finish a b (osPoints a b + unitPoints a b + residualPoints a b + 15 / 100) ↔
      Hidden a b := by
  have hsoft : eitherSoft a b := .inl hobs
  have hsoft' : b.softClass = true ∨ a.softClass = true := hsoft
  have hres : ¬ Apart a.residualClass b.residualClass := hshared.not_apart
  have hladder (s : ℚ) : crossFamilyLadder a b s = s := by
    simp [crossFamilyLadder, hobs]
  have hpoints : osPoints a b + unitPoints a b + residualPoints a b =
      (if Shared a.osInstanceHash b.osInstanceHash then 55 / 100 else 0) +
      (if Shared a.unitSurfaceId b.unitSurfaceId then 15 / 100 else 0) + 10 / 100 := by
    simp only [osPoints, unitPoints, residualPoints, hshared, hsoft', if_true]
  rw [hpoints]
  unfold finish Hidden
  rw [hladder, hladder]
  by_cases htenants : Apart a.tenantId b.tenantId
  · simp only [tenantBan, htenants, if_true, true_or]
  simp only [tenantBan, htenants, if_false, false_or, thinCap, softCaps, capIf, hsoft,
    hshared, hres, true_and, and_false, if_false, crossFamilyPenalty, ← or_assoc]
  by_cases hos : Shared a.osInstanceHash b.osInstanceHash
  · have happart := hos.not_apart
    simp only [hos, happart, and_false, if_true, if_false, false_and, or_false, true_and]
    by_cases hfork : unitsFork a b <;> by_cases hthin : Thin a ∨ Thin b <;>
      simp only [hfork, hthin, if_true, if_false, or_true, or_false] <;>
      split_ifs <;> norm_num [min_def]
  · by_cases happart : Apart a.osInstanceHash b.osInstanceHash
    · simp only [hos, happart, and_true, if_true, if_false, false_and, false_or, true_and]
      by_cases hfamily : a.family = b.family <;>
        by_cases hunit : Shared a.unitSurfaceId b.unitSurfaceId <;>
        simp only [hfamily, hunit, ne_eq, not_true_eq_false, not_false_eq_true, if_true,
          if_false, and_self, and_false, iff_true, iff_false] <;>
        split_ifs <;> norm_num [min_def]
    · simp only [hos, happart, and_false, if_false, false_and, or_self, iff_false]
      by_cases hfork : unitsFork a b
      · have hunit : ¬ Shared a.unitSurfaceId b.unitSurfaceId := fun h => hfork.2.2 h.2
        simp only [hfork, hunit, if_true, if_false]
        split_ifs <;> norm_num [min_def]
      · simp only [hfork, if_false]
        split_ifs <;> norm_num [min_def]

theorem score_of_oneSided {a b : BinderObs} (h : OneSided a b)
    (hobs : b.softClass = true) :
    scoreLinkLegacy a b = scoreLinkLegacy b a ↔ Hidden a b := by
  have hexisting : a.softClass = false := by
    have hne := h.1
    rw [hobs] at hne
    exact Bool.eq_false_of_not_eq_true hne
  have hres : ¬ Apart a.residualClass b.residualClass := h.2.1.not_apart
  have hres' : ¬ Apart b.residualClass a.residualClass := (shared_comm.mp h.2.1).not_apart
  have hlow (s : ℚ) : residualRule a b s = s + 8 / 100 := by
    simp only [residualRule, classPoints, if_neg hres, if_pos h.2.1, if_pos h.2.2, if_pos hobs]
  have hhigh (s : ℚ) : residualRule b a s = s + 15 / 100 := by
    simp only [residualRule, classPoints, if_neg hres', if_pos h.symm.2.1,
      if_pos h.symm.2.2, hexisting, Bool.false_eq_true, if_false]
  rw [score_eq_finish, score_eq_finish, hlow, hhigh, finish_comm b a, points_comm b a]
  exact finish_bonus_iff hobs h.2.1

theorem score_symm_iff :
    scoreLinkLegacy a b = scoreLinkLegacy b a ↔ (OneSided a b → Hidden a b) := by
  by_cases h : OneSided a b
  · simp only [h, true_imp_iff]
    cases hobs : b.softClass with
    | true => exact score_of_oneSided h hobs
    | false =>
        have hexisting : a.softClass = true := by
          have hne := h.1
          rw [hobs] at hne
          exact Bool.eq_true_of_not_eq_false hne
        have hswapped := score_of_oneSided h.symm hexisting
        constructor
        · intro heq
          exact (hswapped.mp heq.symm).symm
        · intro hhidden
          exact (hswapped.mpr hhidden.symm).symm
  · simp only [h, false_imp_iff, iff_true]
    rw [score_eq_finish, score_eq_finish, points_comm b a, residualRule_comm a b h,
      finish_comm b a]

end Symmetry

/-- Nothing forbids linking the two observations. -/
structure Unbanned (a b : BinderObs) : Prop where
  residual : ¬ Apart a.residualClass b.residualClass
  tenant : a.tenant = b.tenant
  rich : ¬ Thin a ∧ ¬ Thin b
  softOs : eitherSoft a b → ¬ Apart a.osInstanceHash b.osInstanceHash
  softUnit : eitherSoft a b → ¬ unitsFork a b

structure RespectsBans (a b : BinderObs) : Prop where
  bans : ∀ threshold : ℚ, 35 / 100 ≤ threshold → threshold ≤ 95 / 100 →
    threshold ≤ scoreLinkLegacy a b → Unbanned a b
  symmetric : scoreLinkLegacy a b = scoreLinkLegacy b a

/-- No tenant is left out beside another one than the default, where the pair
may be linked, and no one-sided bonus shows. -/
structure SidesAlike (a b : BinderObs) : Prop where
  tenants : a.tenant ≠ b.tenant →
    (a.tenantId.isSome = true ∧ b.tenantId.isSome = true) ∨ ¬ MayLink a b
  bonus : OneSided a b → Hidden a b

theorem MayLink.unbanned {a b : BinderObs} (h : MayLink a b) (htenant : a.tenant = b.tenant) :
    Unbanned a b where
  residual := h.residuals
  tenant := htenant
  rich := h.rich
  softOs := by
    intro hsoft happart
    rcases (h.soft hsoft).2 with hos | henough
    · exact hos.not_apart happart
    · exact henough.2.2.2.2 happart
  softUnit := fun hsoft => (h.soft hsoft).1

/-- The score respects its bans in both directions alike exactly for pairs whose
sides are alike. -/
theorem respectsBans_iff (a b : BinderObs) : RespectsBans a b ↔ SidesAlike a b := by
  constructor
  · intro h
    refine ⟨?_, (score_symm_iff a b).mp h.symmetric⟩
    intro htenant
    right
    intro hlink
    have hbans := h.bans (35 / 100) le_rfl (by norm_num) (le_score_iff_mayLink.mpr hlink)
    exact htenant hbans.tenant
  · intro h
    refine ⟨?_, (score_symm_iff a b).mpr h.bonus⟩
    intro threshold hlow _ hscore
    have hlink := le_score_iff_mayLink.mp (hlow.trans hscore)
    apply hlink.unbanned
    by_contra htenant
    rcases h.tenants htenant with hgiven | hnot
    · apply hlink.tenants
      refine ⟨hgiven.1, hgiven.2, ?_⟩
      intro hsame
      exact htenant (congrArg (Option.getD · "default") hsame)
    · exact hnot hlink

def tenantObs (tenant : Option String) : BinderObs where
  softClass := false
  unitSurfaceId := none
  unitSurfaceAlgo := none
  unitMultiroundStable := false
  residualClass := some "rm_0.26000"
  osInstanceHash := some "m1"
  osFamily := some "linux"
  coresClass := none
  webrtcHostIpHash := some "h1"
  classDeviceId := none
  tenantId := tenant
  residualEntropyOk := none
  hwAudioStable := none
  hwWebglStable := none
  family := "blink_or_real"

theorem untold_tenant_linked : ¬ ∀ a b : BinderObs, RespectsBans a b := by
  intro h
  have hscore : (35 / 100 : ℚ) ≤ scoreLinkLegacy (tenantObs none) (tenantObs (some "acme")) := by
    decide +kernel
  have hbans := (h (tenantObs none) (tenantObs (some "acme"))).bans (35 / 100) le_rfl
    (by norm_num) hscore
  exact absurd hbans.tenant (by decide)

end LinkScore

end GrServer
