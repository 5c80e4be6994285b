import GrServer.Text

/-!
# The order of versions

Versions are read by `semver`, which is given as a parser into a linear order;
labels it cannot read come behind all that it can, among themselves in reverse
alphabetical order.  Sorting and choosing both use this order, newest first.
-/

namespace GrServer

open Text

/-- `semver::Version`: what is read, in the order it is compared in. -/
structure SemVer where
  Version : Type
  order : LinearOrder Version
  parse : String → Option Version
  /-- No version has blanks around it. -/
  parse_trimmed : ∀ s v, parse s = some v → trimmed s = s

namespace SemVer

variable (V : SemVer)

instance : LinearOrder V.Version := V.order

/-- The comparison of `prune_versions` and `pick_module` is not `Greater`. -/
def newerFirst (a b : String) : Bool :=
  match V.parse a, V.parse b with
  | some x, some y => decide (y ≤ x)
  | some _, none => true
  | none, some _ => false
  | none, none => decide (b ≤ a)

def lower (a b : String) : Bool :=
  match V.parse a, V.parse b with
  | some x, some y => decide (x < y)
  | _, _ => false

variable {V} {a b c : String}

theorem lower_iff : V.lower a b = true ↔ ∃ x y, V.parse a = some x ∧ V.parse b = some y ∧ x < y := by
  unfold lower
  cases V.parse a with
  | none => simp
  | some x =>
      cases V.parse b with
      | none => simp
      | some y => simp

theorem not_lower_self (a : String) : V.lower a a = false := by
  unfold lower
  cases V.parse a with
  | none => rfl
  | some x => simp

theorem newerFirst_total (a b : String) : V.newerFirst a b || V.newerFirst b a := by
  unfold newerFirst
  cases V.parse a with
  | none =>
      cases V.parse b with
      | none => simpa using le_total b a
      | some y => rfl
  | some x =>
      cases V.parse b with
      | none => rfl
      | some y => simpa using le_total y x

theorem newerFirst_trans (a b c : String) (hab : V.newerFirst a b = true)
    (hbc : V.newerFirst b c = true) : V.newerFirst a c = true := by
  unfold newerFirst at *
  cases ha : V.parse a with
  | none =>
      cases hb : V.parse b with
      | none =>
          cases hc : V.parse c with
          | none =>
              simp only [ha, hb, hc, decide_eq_true_iff] at hab hbc ⊢
              exact hbc.trans hab
          | some z => simp [hb, hc] at hbc
      | some y => simp [ha, hb] at hab
  | some x =>
      cases hc : V.parse c with
      | none => rfl
      | some z =>
          cases hb : V.parse b with
          | none => simp [hb, hc] at hbc
          | some y =>
              simp only [ha, hb, hc, decide_eq_true_iff] at hab hbc ⊢
              exact hbc.trans hab

def decimalDigit (c : Char) : Option ℕ :=
  if '0' ≤ c ∧ c ≤ '9' then some (c.toNat - '0'.toNat) else none

def decimal (s : Text) : Option ℕ :=
  if s = [] then none
  else (s.mapM decimalDigit).map fun ds => ds.foldl (fun n d => n * 10 + d) 0

/-- `X.Y.Z` with an optional `-` part, whose release is higher than all of its
pre-releases, themselves in alphabetical order. -/
def readPlain (s : String) : Option (List ℕ) :=
  let (core, pre) := (splitOnce '-' s.toList).getD (s.toList, [])
  match (core.splitOn '.').mapM decimal with
  | some [major, minor, patch] =>
      some ([major, minor, patch] ++ if pre = [] then [1] else 0 :: pre.map Char.toNat)
  | _ => none

/-- The part of `semver` that a release with a plain label needs. -/
def plain : SemVer where
  Version := List ℕ
  order := inferInstance
  parse s := if trimmed s = s then readPlain s else none
  parse_trimmed s v h := by
    split_ifs at h with htrim
    exact htrim

end SemVer

end GrServer
