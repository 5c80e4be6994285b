import GrServer.Text

/-!
# Lexical paths

Slash-separated paths as the directories they lead to.  A directory is its
stack of names, innermost first; a path is walked component by component, with
empty and `.` components staying and `..` leaving.  `join` is `Path::join`: an
absolute argument replaces the path it is joined to.

The second half is about deleting every pair of one character, the way
`str::replace` deletes `..` from a path.
-/

namespace GrServer

namespace LexicalPath

def components (p : Text) : List Text :=
  p.splitOn '/'

def isAbsolute (p : Text) : Bool :=
  p.head? == some '/'

def enter (dir : List Text) (name : Text) : List Text :=
  if name = [] ∨ name = ['.'] then dir
  else if name = ['.', '.'] then dir.tail
  else name :: dir

def walk (dir : List Text) (p : Text) : List Text :=
  (components p).foldl enter dir

def resolve (cwd : List Text) (p : Text) : List Text :=
  walk (if isAbsolute p then [] else cwd) p

inductive Joined where
  | inside (root rel : Text)
  | replaced (path : Text)
  deriving DecidableEq

def join (root p : Text) : Joined :=
  if isAbsolute p then .replaced p else .inside root p

def Joined.text : Joined → Text
  | .inside root rel =>
      if root = [] ∨ root.getLast? = some '/' then root ++ rel
      else root ++ '/' :: rel
  | .replaced path => path

theorem walk_append_slash (dir : List Text) (p q : Text) :
    walk dir (p ++ '/' :: q) = walk (walk dir p) q := by
  unfold walk components
  rw [List.splitOn_append_cons_self, List.foldl_append]

@[simp]
theorem walk_nil (dir : List Text) : walk dir [] = dir := by
  simp [walk, components, enter]

theorem suffix_enter {dir : List Text} {name : Text}
    (hname : name ≠ ['.', '.']) : dir <:+ enter dir name := by
  unfold enter
  by_cases hstay : name = [] ∨ name = ['.']
  · simp [hstay]
  · rw [if_neg hstay, if_neg hname]
    exact List.suffix_cons name dir

theorem suffix_walk {dir : List Text} {p : Text}
    (hp : ['.', '.'] ∉ components p) : dir <:+ walk dir p := by
  unfold walk
  revert hp
  induction components p generalizing dir with
  | nil =>
      intro _
      exact List.suffix_refl dir
  | cons name names ih =>
      intro hp
      rw [List.mem_cons, not_or] at hp
      have henter : dir <:+ enter dir name := suffix_enter (Ne.symm hp.1)
      exact henter.trans (ih hp.2)

theorem resolve_join_inside (cwd : List Text) {root rel : Text}
    (hrel : isAbsolute rel = false) :
    resolve cwd (Joined.inside root rel).text =
      walk (resolve cwd root) rel := by
  unfold Joined.text
  cases hroot : root with
  | nil =>
      have hcwd : resolve cwd [] = cwd := walk_nil cwd
      rw [hcwd]
      unfold resolve
      simp [hrel]
  | cons c cs =>
      have habs (tail : Text) :
          isAbsolute (c :: cs ++ tail) = isAbsolute (c :: cs) := rfl
      dsimp only
      by_cases hlast : (c :: cs).getLast? = some '/'
      · -- the last component of such a root is empty
        obtain ⟨init, hinit⟩ := List.getLast?_eq_some_iff.mp hlast
        rw [if_pos (Or.inr hlast)]
        unfold resolve
        rw [habs rel, hinit, List.append_assoc, List.singleton_append,
          walk_append_slash, walk_append_slash, walk_nil]
      · rw [if_neg (by simp [hlast])]
        unfold resolve
        rw [habs ('/' :: rel), walk_append_slash]

theorem suffix_resolve_join (cwd : List Text) {root rel : Text}
    (hrel : isAbsolute rel = false) (hup : ['.', '.'] ∉ components rel) :
    resolve cwd root <:+ resolve cwd (Joined.inside root rel).text := by
  rw [resolve_join_inside cwd hrel]
  exact suffix_walk hup

/-! ## Deleting pairs -/

section Pairs

variable {α : Type*} [DecidableEq α]

def deletePairs (c : α) : List α → List α
  | a :: b :: rest =>
      if a = c ∧ b = c then deletePairs c rest
      else a :: deletePairs c (b :: rest)
  | [a] => [a]
  | [] => []

def EvenRunBefore (c d : α) (s : List α) : Prop :=
  (s.takeWhile (· = c)).length % 2 = 0 ∧
    (s.dropWhile (· = c)).head? = some d

instance (c d : α) (s : List α) : Decidable (EvenRunBefore c d s) :=
  inferInstanceAs (Decidable (_ ∧ _))

theorem deletePairs_cons_of_ne {c a : α} (ha : a ≠ c) (rest : List α) :
    deletePairs c (a :: rest) = a :: deletePairs c rest := by
  cases rest with
  | nil => rfl
  | cons b rest => simp [deletePairs, ha]

theorem not_pair_infix_deletePairs (c : α) (s : List α) :
    ¬ [c, c] <:+: deletePairs c s := by
  fun_induction deletePairs c s with
  | case1 a b rest hpair ih => exact ih
  | case2 a b rest hpair ih =>
      intro hinfix
      rcases List.infix_cons_iff.mp hinfix with hprefix | hinfix
      · obtain ⟨rfl, hhead⟩ := List.cons_prefix_cons.mp hprefix
        have hb : b ≠ c := fun hb => hpair ⟨rfl, hb⟩
        rw [deletePairs_cons_of_ne hb] at hhead
        exact hb (List.cons_prefix_cons.mp hhead).1.symm
      · exact ih hinfix
  | case3 a =>
      intro hinfix
      have hlen := hinfix.length_le
      simp at hlen
  | case4 =>
      intro hinfix
      have hlen := hinfix.length_le
      simp at hlen

theorem evenRunBefore_pair (c d : α) (rest : List α) :
    EvenRunBefore c d (c :: c :: rest) ↔ EvenRunBefore c d rest := by
  unfold EvenRunBefore
  simp only [decide_true, List.takeWhile_cons_of_pos, List.length_cons,
    List.dropWhile_cons_of_pos]
  rw [Nat.add_assoc, Nat.add_mod_right]

theorem head?_deletePairs {c d : α} (hd : d ≠ c) (s : List α) :
    (deletePairs c s).head? = some d ↔ EvenRunBefore c d s := by
  fun_induction deletePairs c s with
  | case1 a b rest hpair ih =>
      obtain ⟨rfl, rfl⟩ := hpair
      rw [evenRunBefore_pair]
      exact ih
  | case2 a b rest hpair ih =>
      by_cases ha : a = c
      · -- an odd run keeps one character, which stands at the head
        have hb : b ≠ c := fun hb => hpair ⟨ha, hb⟩
        simp [EvenRunBefore, ha, hb, Ne.symm hd]
      · simp [EvenRunBefore, ha]
  | case3 a =>
      by_cases ha : a = c
      · simp [EvenRunBefore, ha, Ne.symm hd]
      · simp [EvenRunBefore, ha]
  | case4 => simp [EvenRunBefore]

theorem evenRunBefore_append {c d : α} (hd : d ≠ c) (before x y : List α) :
    EvenRunBefore c d (before ++ d :: x) ↔
      EvenRunBefore c d (before ++ d :: y) := by
  have htake (z : List α) : (before ++ d :: z).takeWhile (· = c) =
      before.takeWhile (· = c) := by
    induction before with
    | nil => simp [hd]
    | cons a before ih => by_cases ha : a = c <;> simp [ha, ih]
  have hdrop (z : List α) : ((before ++ d :: z).dropWhile (· = c)).head? =
      (before.dropWhile (· = c) ++ [d]).head? := by
    clear htake
    induction before with
    | nil => simp [hd]
    | cons a before ih =>
        by_cases ha : a = c
        · simpa [ha] using ih
        · simp [ha]
  unfold EvenRunBefore
  rw [htake x, htake y, hdrop x, hdrop y]

theorem not_evenRunBefore_of_not_mem {c d : α} {s : List α} (hs : d ∉ s) :
    ¬ EvenRunBefore c d s := by
  rintro ⟨-, hhead⟩
  have hmem : d ∈ s.dropWhile (· = c) := List.mem_of_mem_head? hhead
  exact hs ((List.dropWhile_sublist _).subset hmem)

end Pairs

theorem infix_intercalate {sep name : Text} {names : List Text}
    (h : name ∈ names) : name <:+: sep.intercalate names := by
  induction names with
  | nil => simp at h
  | cons first rest ih =>
      cases rest with
      | nil =>
          have hname : name = first := List.mem_singleton.mp h
          simp [hname]
      | cons second rest =>
          rw [List.intercalate_cons_cons]
          rcases List.mem_cons.mp h with rfl | hrest
          · exact ⟨[], sep ++ sep.intercalate (second :: rest), by simp⟩
          · exact (ih hrest).trans (List.infix_append_right ..)

theorem infix_of_mem_components {p name : Text} (h : name ∈ components p) :
    name <:+: p := by
  have hp : ['/'].intercalate (components p) = p := List.intercalate_splitOn '/'
  rw [← hp]
  exact infix_intercalate h

end LexicalPath

end GrServer
