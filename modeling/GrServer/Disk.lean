import Mathlib

/-!
# A tree of files

Files and directories under paths that are stacks of names, innermost first.
There are no links, and an operation that is issued is carried out.
-/

namespace GrServer

universe u

structure Disk (Name : Type u) where
  files : List (List Name × List UInt8)
  dirs : List (List Name)

namespace Disk

variable {Name : Type u} [DecidableEq Name]

def empty : Disk Name := ⟨[], []⟩

def read (d : Disk Name) (p : List Name) : Option (List UInt8) :=
  (d.files.find? fun file => decide (file.1 = p)).map Prod.snd

def isDir (d : Disk Name) (p : List Name) : Bool :=
  decide (p ∈ d.dirs)

def remove (d : Disk Name) (p : List Name) : Disk Name :=
  { d with files := d.files.filter fun file => decide (file.1 ≠ p) }

def write (d : Disk Name) (p : List Name) (bytes : List UInt8) : Disk Name :=
  { d with files := (p, bytes) :: (d.remove p).files }

def rename (d : Disk Name) (src dst : List Name) : Disk Name :=
  match d.read src with
  | none => d
  | some bytes => (d.remove src).write dst bytes

def mkdirs (d : Disk Name) (p : List Name) : Disk Name :=
  { d with dirs := (p.tails.filter fun q => decide (q ∉ d.dirs)) ++ d.dirs }

def removeTree (d : Disk Name) (p : List Name) : Disk Name where
  files := d.files.filter fun file => decide (¬ p <:+ file.1)
  dirs := d.dirs.filter fun q => decide (¬ p <:+ q)

def childName (p : List Name) : List Name → Option Name
  | [] => none
  | name :: rest => if rest = p then some name else none

def subdirs (d : Disk Name) (p : List Name) : List Name :=
  d.dirs.filterMap (childName p)

def filesIn (d : Disk Name) (p : List Name) : List Name :=
  (d.files.map Prod.fst).filterMap (childName p)

section Lemmas

variable {d : Disk Name} {p q : List Name} {bytes : List UInt8}

theorem find?_filter_ne (files : List (List Name × List UInt8)) :
    (files.filter fun file => decide (file.1 ≠ p)).find? (fun file => decide (file.1 = q)) =
      if q = p then none else files.find? fun file => decide (file.1 = q) := by
  induction files with
  | nil => simp
  | cons file rest ih =>
      by_cases hp : file.1 = p
      · rw [List.filter_cons_of_neg (by simpa using hp), ih]
        by_cases hq : q = p
        · simp [hq]
        · have hne : file.1 ≠ q := fun h => hq (h.symm.trans hp)
          simp [hq, hne]
      · rw [List.filter_cons_of_pos (by simpa using hp)]
        by_cases hfile : file.1 = q
        · have hq : q ≠ p := fun h => hp (hfile.trans h)
          simp [hfile, hq]
        · rw [List.find?_cons_of_neg (by simpa using hfile),
            List.find?_cons_of_neg (by simpa using hfile), ih]

theorem read_remove : (d.remove p).read q = if q = p then none else d.read q := by
  unfold read remove
  rw [find?_filter_ne]
  by_cases hq : q = p <;> simp [hq]

theorem read_write : (d.write p bytes).read q = if q = p then some bytes else d.read q := by
  by_cases hq : q = p
  · subst hq
    simp [read, write]
  · have hrest := read_remove (d := d) (p := p) (q := q)
    rw [if_neg hq] at hrest
    have hne : p ≠ q := fun h => hq h.symm
    rw [if_neg hq, ← hrest]
    simp [read, write, hne]

theorem read_rename (h : d.read p = some bytes) {dst : List Name} :
    (d.rename p dst).read q = if q = dst then some bytes else if q = p then none else d.read q := by
  unfold rename
  rw [h]
  simp only [read_write, read_remove]

@[simp] theorem read_mkdirs : (d.mkdirs p).read q = d.read q := rfl

theorem read_removeTree :
    (d.removeTree p).read q = if p <:+ q then none else d.read q := by
  unfold read removeTree
  dsimp only
  induction d.files with
  | nil => simp
  | cons file rest ih =>
      by_cases hfile : p <:+ file.1
      · rw [List.filter_cons_of_neg (by simpa using hfile), ih]
        by_cases hq : p <:+ q
        · simp [hq]
        · have hne : file.1 ≠ q := fun h => hq (h ▸ hfile)
          simp [hq, hne]
      · rw [List.filter_cons_of_pos (by simpa using hfile)]
        by_cases hsame : file.1 = q
        · have hq : ¬ p <:+ q := hsame ▸ hfile
          simp [hsame, hq]
        · simpa [hsame] using ih

@[simp] theorem isDir_write : (d.write p bytes).isDir q = d.isDir q := rfl

@[simp] theorem isDir_remove : (d.remove p).isDir q = d.isDir q := rfl

@[simp] theorem isDir_rename {dst : List Name} : (d.rename p dst).isDir q = d.isDir q := by
  unfold rename
  cases d.read p <;> rfl

theorem isDir_mkdirs : (d.mkdirs p).isDir q = true ↔ q <:+ p ∨ d.isDir q = true := by
  by_cases hq : q ∈ d.dirs <;> simp [isDir, mkdirs, hq]

theorem isDir_removeTree :
    (d.removeTree p).isDir q = true ↔ d.isDir q = true ∧ ¬ p <:+ q := by
  simp [isDir, removeTree]

theorem childName_eq_some {name : Name} : childName p q = some name ↔ q = name :: p := by
  cases q with
  | nil => simp [childName]
  | cons n rest =>
      by_cases h : rest = p <;> simp [childName, h]

theorem mem_filesIn {name : Name} : name ∈ d.filesIn p ↔ (d.read (name :: p)).isSome = true := by
  simp [filesIn, read, List.mem_filterMap, childName_eq_some, List.find?_isSome]

theorem mem_subdirs {name : Name} : name ∈ d.subdirs p ↔ d.isDir (name :: p) = true := by
  simp [subdirs, isDir, List.mem_filterMap, childName_eq_some]

theorem subdirs_mkdirs (h : ∀ name, ¬ name :: p <:+ q) :
    (d.mkdirs q).subdirs p = d.subdirs p := by
  have hnew : (q.tails.filter fun r => decide (r ∉ d.dirs)).filterMap (childName p) = [] := by
    apply List.filterMap_eq_nil_iff.mpr
    intro r hr
    have hsuffix := (List.mem_tails _ _).mp (List.mem_of_mem_filter hr)
    cases hname : childName p r with
    | none => rfl
    | some name =>
        rw [childName_eq_some.mp hname] at hsuffix
        exact absurd hsuffix (h name)
  unfold subdirs mkdirs
  rw [List.filterMap_append, hnew, List.nil_append]

theorem subdirs_removeTree {name : Name} :
    (d.removeTree (name :: p)).subdirs p = (d.subdirs p).filter fun n => decide (n ≠ name) := by
  unfold subdirs removeTree
  dsimp only
  induction d.dirs with
  | nil => rfl
  | cons q rest ih =>
      cases hchild : childName p q with
      | none =>
          rw [List.filterMap_cons_none hchild, ← ih]
          by_cases hq : name :: p <:+ q
          · rw [List.filter_cons_of_neg (by simpa using hq)]
          · rw [List.filter_cons_of_pos (by simpa using hq), List.filterMap_cons_none hchild]
      | some n =>
          have hsuffix : name :: p <:+ q ↔ n = name := by
            rw [childName_eq_some.mp hchild]
            constructor
            · intro h
              exact (List.cons.inj (h.eq_of_length (by simp))).1.symm
            · rintro rfl
              exact List.suffix_refl _
          rw [List.filterMap_cons_some hchild]
          by_cases hn : n = name
          · rw [List.filter_cons_of_neg (by simpa using hsuffix.mpr hn),
              List.filter_cons_of_neg (by simpa using hn), ih]
          · rw [List.filter_cons_of_pos (by simpa [hsuffix] using hn),
              List.filterMap_cons_some hchild, List.filter_cons_of_pos (by simpa using hn), ih]

theorem childName_below {r : List Name} (h : ∀ name : Name, ¬ p <:+ name :: q)
    (hr : p <:+ r) : childName q r = none := by
  cases hname : childName q r with
  | none => rfl
  | some name =>
      rw [childName_eq_some.mp hname] at hr
      exact absurd hr (h name)

theorem entries_removeTree_apart (h : ∀ name : Name, ¬ p <:+ name :: q) :
    (d.removeTree p).filesIn q = d.filesIn q ∧ (d.removeTree p).subdirs q = d.subdirs q := by
  constructor
  · unfold filesIn removeTree
    dsimp only
    induction d.files with
    | nil => rfl
    | cons file rest ih =>
        by_cases hfile : p <:+ file.1
        · rw [List.filter_cons_of_neg (by simpa using hfile), ih, List.map_cons,
            List.filterMap_cons_none (childName_below h hfile)]
        · rw [List.filter_cons_of_pos (by simpa using hfile), List.map_cons, List.map_cons,
            List.filterMap_cons, List.filterMap_cons, ih]
  · unfold subdirs removeTree
    dsimp only
    induction d.dirs with
    | nil => rfl
    | cons r rest ih =>
        by_cases hr : p <:+ r
        · rw [List.filter_cons_of_neg (by simpa using hr), ih,
            List.filterMap_cons_none (childName_below h hr)]
        · rw [List.filter_cons_of_pos (by simpa using hr), List.filterMap_cons,
            List.filterMap_cons, ih]

theorem entries_removeTree_self :
    (d.removeTree p).filesIn p = [] ∧ (d.removeTree p).subdirs p = [] := by
  constructor
  · apply List.eq_nil_iff_forall_not_mem.mpr
    intro name hname
    rw [mem_filesIn, read_removeTree, if_pos (List.suffix_cons name p)] at hname
    cases hname
  · apply List.eq_nil_iff_forall_not_mem.mpr
    intro name hname
    exact (isDir_removeTree.mp (mem_subdirs.mp hname)).2 (List.suffix_cons name p)

theorem filesIn_write_apart (h : childName q p = none) :
    (d.write p bytes).filesIn q = d.filesIn q := by
  unfold write filesIn remove
  dsimp only
  rw [List.map_cons, List.filterMap_cons_none h]
  induction d.files with
  | nil => rfl
  | cons file rest ih =>
      by_cases hfile : file.1 = p
      · rw [List.filter_cons_of_neg (by simpa using hfile), ih, List.map_cons,
          List.filterMap_cons_none (hfile ▸ h)]
      · rw [List.filter_cons_of_pos (by simpa using hfile), List.map_cons, List.map_cons,
          List.filterMap_cons, List.filterMap_cons, ih]

/-- Each directory is listed once, and below directories only. -/
structure Tree (d : Disk Name) : Prop where
  nodup : d.dirs.Nodup
  closed : ∀ name p, name :: p ∈ d.dirs → p ∈ d.dirs

omit [DecidableEq Name] in
theorem tree_empty : Tree (empty : Disk Name) := ⟨List.nodup_nil, nofun⟩

omit [DecidableEq Name] in
theorem Tree.of_dirs {d' : Disk Name} (h : d.Tree) (hdirs : d'.dirs = d.dirs) : d'.Tree := by
  constructor
  · rw [hdirs]
    exact h.nodup
  · rw [hdirs]
    exact h.closed

theorem dirs_rename {dst : List Name} : (d.rename p dst).dirs = d.dirs := by
  unfold rename
  cases d.read p <;> rfl

omit [DecidableEq Name] in
theorem nodup_tails (p : List Name) : p.tails.Nodup := by
  induction p with
  | nil => simp
  | cons name rest ih =>
      rw [List.tails_cons, List.nodup_cons]
      refine ⟨?_, ih⟩
      intro hmem
      have hlen := ((List.mem_tails _ _).mp hmem).length_le
      simp at hlen

theorem Tree.isDir_above (h : d.Tree) {name : Name} (hdir : d.isDir (name :: p) = true) :
    d.isDir p = true :=
  decide_eq_true (h.closed name p (of_decide_eq_true hdir))

theorem Tree.mkdirs (h : d.Tree) (p : List Name) : (d.mkdirs p).Tree := by
  constructor
  · apply List.Nodup.append ((nodup_tails p).filter _) h.nodup
    intro q hq hold
    have hnew := List.of_mem_filter hq
    exact absurd hold (by simpa using hnew)
  · intro name q hq
    have hdir : (d.mkdirs p).isDir (name :: q) = true := decide_eq_true hq
    have hcase := isDir_mkdirs.mp hdir
    have hgoal : q <:+ p ∨ d.isDir q = true := by
      rcases hcase with hsuffix | hold
      · exact Or.inl ((List.suffix_cons name q).trans hsuffix)
      · exact Or.inr (h.isDir_above hold)
    exact of_decide_eq_true (isDir_mkdirs.mpr hgoal)

theorem Tree.removeTree (h : d.Tree) (p : List Name) : (d.removeTree p).Tree := by
  constructor
  · exact h.nodup.filter _
  · intro name q hq
    rcases List.mem_filter.mp hq with ⟨hold, hstays⟩
    apply List.mem_filter.mpr
    refine ⟨h.closed name q hold, decide_eq_true ?_⟩
    intro hsuffix
    exact of_decide_eq_true hstays (hsuffix.trans (List.suffix_cons _ _))

theorem Tree.nodup_subdirs (h : d.Tree) (p : List Name) : (d.subdirs p).Nodup := by
  apply h.nodup.filterMap
  intro q q' name hq hq'
  rw [childName_eq_some.mp hq, childName_eq_some.mp hq']

end Lemmas

/-! ## Operations that may fail

The errors of the file system, by the texts it gives them. -/

section Checked

variable (d : Disk Name) (p : List Name) (bytes : List UInt8)

def isFile : Bool := (d.read p).isSome

def readFile : Except String (List UInt8) :=
  match d.read p with
  | some bytes => .ok bytes
  | none =>
      if d.isDir p then .error "Is a directory (os error 21)"
      else if p.tails.any d.isFile then .error "Not a directory (os error 20)"
      else .error "No such file or directory (os error 2)"

/-- `fs::create_dir_all`: fails without an effect where a file is in the way. -/
def createDirAll : Except String (Disk Name) :=
  if d.isFile p then .error "File exists (os error 17)"
  else if p.tails.any d.isFile then .error "Not a directory (os error 20)"
  else .ok (d.mkdirs p)

def writeFile : Except String (Disk Name) :=
  if d.isDir p then .error "Is a directory (os error 21)" else .ok (d.write p bytes)

/-- Nothing lies below a file, and a file is no directory. -/
def Sound : Prop :=
  ∀ p q, (d.read p).isSome = true → p <:+ q → d.isDir q = false ∧ (q ≠ p → d.read q = none)

variable {d p bytes}

theorem Sound.of_lists (hdirs : ∀ file ∈ d.files, ∀ q ∈ d.dirs, ¬ file.1 <:+ q)
    (hfiles : ∀ file ∈ d.files, ∀ other ∈ d.files, file.1 <:+ other.1 → other.1 = file.1) :
    d.Sound := by
  intro p q hp hsuffix
  simp only [read, Option.isSome_map, List.find?_isSome, decide_eq_true_eq] at hp
  rcases hp with ⟨file, hfile, rfl⟩
  constructor
  · apply decide_eq_false
    intro hq
    exact hdirs file hfile q hq hsuffix
  · intro hne
    cases hread : d.read q with
    | none => rfl
    | some bytes =>
        have hsome : (d.read q).isSome = true := by rw [hread]; rfl
        simp only [read, Option.isSome_map, List.find?_isSome, decide_eq_true_eq] at hsome
        rcases hsome with ⟨other, hother, rfl⟩
        exact absurd (hfiles file hfile other hother hsuffix) hne

theorem readFile_eq_ok : d.readFile p = .ok bytes ↔ d.read p = some bytes := by
  unfold readFile
  cases d.read p with
  | some b => simp
  | none =>
      dsimp only
      split_ifs <;> simp

theorem createDirAll_eq_ok {d' : Disk Name} : d.createDirAll p = .ok d' ↔
    (∀ q, q <:+ p → d.read q = none) ∧ d.mkdirs p = d' := by
  have hclear : p.tails.any d.isFile = false ↔ ∀ q, q <:+ p → d.read q = none := by
    simp [isFile, List.any_eq_false]
  unfold createDirAll
  rw [← hclear]
  split_ifs with hself hany
  · have hall : p.tails.any d.isFile = true :=
      List.any_eq_true.mpr ⟨p, (List.mem_tails _ _).mpr (List.suffix_refl _), hself⟩
    simp [hall]
  · simp [hany]
  · simp [hany]

end Checked

end Disk

end GrServer
