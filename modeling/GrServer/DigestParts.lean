import GrServer.Delimited
import GrServer.Text

/-!
# Digests over parts

A commercial id is a digest over a list of strings, each followed by a bar that
is not escaped.  Two lists are digested alike exactly when they fall into the
same pieces once every part is cut at its bars.
-/

namespace GrServer

open Text

namespace DigestParts

def digestInput (parts : List String) : List UInt8 :=
  parts.flatMap fun p => asBytes p ++ asBytes "|"

def pieces (parts : List String) : List Text :=
  (parts.map String.toList).flatMap (List.splitOn '|')

/-- Different parts with the same pieces: a bar inside one stands for a bar
between two of the other. -/
def Shifted (parts others : List String) : Prop :=
  parts ≠ others ∧ pieces parts = pieces others

def Apart (digest : List UInt8 → String) (a b : List UInt8) : Prop :=
  digest a = digest b → a = b

theorem digestInput_eq_asBytes (parts : List String) :
    digestInput parts =
      asBytes (String.ofList ((parts.map String.toList).flatMap (· ++ ['|']))) := by
  induction parts with
  | nil => rfl
  | cons p ps ih =>
      have hbar : String.ofList ['|'] = "|" := rfl
      rw [List.map_cons, List.flatMap_cons, String.ofList_append, String.ofList_append,
        String.ofList_toList, hbar, asBytes_append, asBytes_append, ← ih]
      rfl

theorem digestInput_eq_iff {parts others : List String} :
    digestInput parts = digestInput others ↔ pieces parts = pieces others := by
  rw [digestInput_eq_asBytes, digestInput_eq_asBytes, asBytes_inj, String.ofList_inj,
    Delimited.terminated_eq_iff]
  rfl

theorem not_shifted_of_no_bar {parts others : List String}
    (h : ∀ p ∈ parts, '|' ∉ p.toList) (h' : ∀ p ∈ others, '|' ∉ p.toList) :
    ¬ Shifted parts others := by
  intro hshifted
  obtain ⟨hdiffer, hpieces⟩ := hshifted
  have hself : ∀ {ps : List String}, (∀ p ∈ ps, '|' ∉ p.toList) →
      pieces ps = ps.map String.toList := by
    intro ps hps
    apply Delimited.flatMap_splitOn_eq_self
    intro q hq
    obtain ⟨p, hp, rfl⟩ := List.mem_map.mp hq
    exact hps p hp
  rw [hself h, hself h'] at hpieces
  exact hdiffer (List.map_injective_iff.mpr (fun _ _ h => String.toList_injective h) hpieces)

theorem pieces_cons {p : String} (ps : List String) (h : '|' ∉ p.toList) :
    pieces (p :: ps) = p.toList :: pieces ps := by
  unfold pieces
  rw [List.map_cons, List.flatMap_cons, List.splitOn_eq_singleton h, List.singleton_append]

theorem digest_eq_iff {digest : List UInt8 → String} {parts others : List String}
    (h : Apart digest (digestInput parts) (digestInput others)) :
    digest (digestInput parts) = digest (digestInput others) ↔
      parts = others ∨ Shifted parts others := by
  constructor
  · intro heq
    by_cases hsame : parts = others
    · exact Or.inl hsame
    · exact Or.inr ⟨hsame, digestInput_eq_iff.mp (h heq)⟩
  · intro hor
    rcases hor with rfl | hshifted
    · rfl
    · rw [digestInput_eq_iff.mpr hshifted.2]

end DigestParts

end GrServer
