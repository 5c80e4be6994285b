import GrServer.SessionTicket

/-!
# Skipping the session probe

`shouldSkipSessionProbe` looks a flag up under several names and takes the
first name that is present, whatever stands there.  A true flag under a later
name is then not seen, and the evidence may be cooled like any other.
-/

namespace GrServer

open Json

namespace SessionTicket

/-! ## Flags -/

def firstPresent (evidence : Json) (aliases : List (List String)) : Option Json :=
  aliases.findSome? evidence.pointer

def flagSet (evidence : Json) (aliases : List (List String)) : Bool :=
  ((firstPresent evidence aliases).bind asBool).getD false

def forceIdentityAliases : List (List String) :=
  [["force_identity"], ["force_identity_probe"], ["meta", "force_identity"],
    ["meta", "force_identity_probe"]]

def forceReprobeAliases : List (List String) := [["force_reprobe"], ["meta", "force_reprobe"]]

def skipAliases : List (List String) := [["meta", "skip_session_probe"], ["skip_session_probe"]]

def ticketAliases : List (List String) := [["session_ticket"], ["meta", "session_ticket"]]

def versionAliases : List (List String) := [["product_version"], ["meta", "product_version"]]

def ticketOf (evidence : Json) : Option Json := firstPresent evidence ticketAliases

section Skip

variable (C : TicketCrypto) (env : String → Option String) (evidence : Json) (ts : ℤ)

/-- The verdict on a ticket of the evidence; `none` is a panic. -/
def ticketVerdict (t : Json) (fields : Option Json) : Option Bool :=
  validateSessionTicketEx C env t (evidence.strOr "session_id") fields ts
    ((firstPresent evidence versionAliases).bind asStr) false

def shouldSkipSessionProbe : Option Bool :=
  if flagSet evidence forceIdentityAliases then some false
  else if flagSet evidence forceReprobeAliases then some false
  else if flagSet evidence skipAliases then
    match evidence.get? "fields" with
    | some f =>
        if hasSiliconMaterials f then
          match ticketOf evidence with
          | some t => ticketVerdict C env evidence ts t (some f)
          | none => some true
        else some false
    | none => some false
  else
    match ticketOf evidence with
    | some t => ticketVerdict C env evidence ts t (evidence.get? "fields")
    | none => some false

/-! ## The kill switch -/

def Forced : Prop :=
  ∃ path ∈ forceIdentityAliases ++ forceReprobeAliases,
    evidence.pointer path = some (.bool true)

def ForceSeen : Prop :=
  firstPresent evidence forceIdentityAliases = some (.bool true) ∨
    firstPresent evidence forceReprobeAliases = some (.bool true)

def SiliconProved : Prop :=
  ∃ f, evidence.get? "fields" = some f ∧ hasSiliconMaterials f = true

/-- Without the force flags the evidence would be cooled: the skip is asked for
and silicon proved, or not asked for, and no ticket is refused. -/
def Coolable : Prop :=
  (flagSet evidence skipAliases = true → SiliconProved evidence) ∧
    (flagSet evidence skipAliases = false → (ticketOf evidence).isSome = true) ∧
    ∀ t, ticketOf evidence = some t →
      ticketVerdict C env evidence ts t (evidence.get? "fields") ≠ some false

/-- What the skip owes to the force flags and to the materials. -/
structure SkipSound : Prop where
  killed : Forced evidence → shouldSkipSessionProbe C env evidence ts = some false
  grounded : shouldSkipSessionProbe C env evidence ts = some true →
    SiliconProved evidence ∨ ∃ t, ticketOf evidence = some t ∧
      ticketVerdict C env evidence ts t (evidence.get? "fields") = some true

end Skip

section Soundness

variable {C : TicketCrypto} {env : String → Option String} {evidence : Json} {ts : ℤ}

theorem flagSet_iff {aliases : List (List String)} :
    flagSet evidence aliases = true ↔ firstPresent evidence aliases = some (.bool true) := by
  unfold flagSet
  cases firstPresent evidence aliases with
  | none => simp
  | some v =>
      cases v with
      | bool b => cases b <;> simp [asBool]
      | _ => simp [asBool]

theorem forceSeen_iff :
    ForceSeen evidence ↔
      flagSet evidence forceIdentityAliases = true ∨
        flagSet evidence forceReprobeAliases = true := by
  rw [flagSet_iff, flagSet_iff]
  rfl

theorem skip_of_forceSeen (h : ForceSeen evidence) :
    shouldSkipSessionProbe C env evidence ts = some false := by
  unfold shouldSkipSessionProbe
  rcases forceSeen_iff.mp h with hidentity | hreprobe
  · rw [if_pos hidentity]
  · rw [hreprobe]
    simp

theorem refused_iff (h : ¬ ForceSeen evidence) :
    shouldSkipSessionProbe C env evidence ts = some false ↔ ¬ Coolable C env evidence ts := by
  rw [forceSeen_iff, not_or, Bool.not_eq_true, Bool.not_eq_true] at h
  unfold shouldSkipSessionProbe Coolable SiliconProved
  rw [h.1, h.2]
  simp only [Bool.false_eq_true, if_false]
  cases hasked : flagSet evidence skipAliases with
  | false =>
      cases hticket : ticketOf evidence with
      | none => simp
      | some t => simp
  | true =>
      cases hfields : evidence.get? "fields" with
      | none => simp
      | some f =>
          cases hsilicon : hasSiliconMaterials f with
          | false => simp [hsilicon]
          | true =>
              cases hticket : ticketOf evidence with
              | none => simp [hsilicon]
              | some t => simp [hsilicon]

theorem skip_grounded (h : shouldSkipSessionProbe C env evidence ts = some true) :
    SiliconProved evidence ∨ ∃ t, ticketOf evidence = some t ∧
      ticketVerdict C env evidence ts t (evidence.get? "fields") = some true := by
  unfold shouldSkipSessionProbe at h
  split_ifs at h with hidentity hreprobe hasked
  · cases h
  · cases h
  · cases hfields : evidence.get? "fields" with
    | none =>
        rw [hfields] at h
        cases h
    | some f =>
        simp only [hfields] at h
        split_ifs at h with hsilicon
        · exact Or.inl ⟨f, hfields, hsilicon⟩
        · cases h
  · cases hticket : ticketOf evidence with
    | none =>
        rw [hticket] at h
        cases h
    | some t =>
        rw [hticket] at h
        exact Or.inr ⟨t, rfl, h⟩

/-- A force flag prevails exactly where it is the one that is looked at or the
evidence is not to be cooled anyway. -/
theorem skipSound_iff :
    SkipSound C env evidence ts ↔
      (Forced evidence → ForceSeen evidence ∨ ¬ Coolable C env evidence ts) := by
  constructor
  · intro h hforced
    by_cases hseen : ForceSeen evidence
    · exact Or.inl hseen
    · exact Or.inr ((refused_iff hseen).mp (h.killed hforced))
  · intro h
    refine ⟨?_, skip_grounded⟩
    intro hforced
    by_cases hseen : ForceSeen evidence
    · exact skip_of_forceSeen hseen
    · exact (refused_iff hseen).mpr ((h hforced).resolve_left hseen)

end Soundness

/-- The operator's flag stands in `meta`, the browser sent a false one. -/
def shadowedForce : Json :=
  .obj [
    ("fields", .obj [
      ("hw_curve_webgl", .arr ((List.range 8).map fun n => ofInt n)),
      ("residual_ok", .bool true)]),
    ("force_identity", .bool false),
    ("meta", .obj [("force_identity", .bool true)]),
    ("skip_session_probe", .bool true)]

theorem shadowedForce_skips (C : TicketCrypto) (env : String → Option String) (ts : ℤ) :
    Forced shadowedForce ∧ shouldSkipSessionProbe C env shadowedForce ts = some true ∧
      ¬ SkipSound C env shadowedForce ts := by
  have hforced : Forced shadowedForce := ⟨["meta", "force_identity"], by decide, by decide⟩
  have hskip : shouldSkipSessionProbe C env shadowedForce ts = some true := by
    have hidentity : flagSet shadowedForce forceIdentityAliases = false := by decide
    have hreprobe : flagSet shadowedForce forceReprobeAliases = false := by decide
    have hasked : flagSet shadowedForce skipAliases = true := by decide
    have hticket : ticketOf shadowedForce = none := by decide
    unfold shouldSkipSessionProbe
    rw [hidentity, hreprobe, hasked, hticket]
    rfl
  refine ⟨hforced, hskip, ?_⟩
  intro hsound
  have hkilled := hsound.killed hforced
  rw [hskip] at hkilled
  cases hkilled

def unusedCrypto : TicketCrypto := ⟨fun _ _ => "", fun _ => "", fun _ => ""⟩

theorem shadowed_force_skips :
    Forced shadowedForce ∧
      shouldSkipSessionProbe unusedCrypto (fun _ => none) shadowedForce 0 = some true ∧
      ¬ SkipSound unusedCrypto (fun _ => none) shadowedForce 0 :=
  shadowedForce_skips unusedCrypto (fun _ => none) 0

end SessionTicket

end GrServer
