import GrServer.OtaSafety

/-!
# Product data from a staged release

A verified manifest declares data files with their digests.  Those that are
missing or differ are copied from the tree of the bundle into the data
directory, one at a time; at boot the bundle is looked for among the staged
ones, newest first.

The bundle and the data directory are trees of their own.  A relative path
without a parent component names the place of its components below a root.  A
file is written whole or not at all.
-/

namespace GrServer

open Text LexicalPath

namespace ReleaseSignature

/-! ## Overlay -/

def nameStack (rel : Text) : List Text :=
  ((components rel).filter fun c => decide (c ≠ [] ∧ c ≠ ['.'])).reverse

def placeIn (root : List Text) (rel : String) : List Text := nameStack rel.toList ++ root

def endsInName (rel : String) : Bool :=
  decide ((components rel.toList).getLast? ∉ [some [], some ['.']])

def badRelativePath (rel : String) : Bool :=
  containsStr rel ".." || startsWith rel "/" || containsStr rel "\\"

section Source

variable (env : OtaEnv)

def HasDigest (bytes : Bytes) (want : String) : Prop :=
  env.sha256Hex bytes = lowered want ∨ env.sha256Hex bytes = want

instance (bytes : Bytes) (want : String) : Decidable (HasDigest env bytes want) :=
  inferInstanceAs (Decidable (_ ∨ _))

def readIn (d : Disk Text) (root : List Text) (rel : String) : Except String Bytes :=
  match d.readFile (placeIn root rel) with
  | .error t => .error t
  | .ok bytes => if endsInName rel then .ok bytes else .error "Not a directory (os error 20)"

def overlayFile (bundle : Disk Text) (bundleRoot dest : List Text) (rel want : String)
    (d : Disk Text) : Except String Bool × Disk Text :=
  if badRelativePath rel then (.error ("data_tree bad relative path: " ++ rel), d)
  else
    match readIn bundle ("data".toList :: bundleRoot) rel with
    | .error t => (.error ("bundle data file " ++ rel ++ ": " ++ t), d)
    | .ok src =>
        if ¬HasDigest env src want then (.error ("data_tree sha mismatch: " ++ rel), d)
        else
          let needsWrite := match readIn d dest rel with
            | .ok cur => env.sha256Hex cur != env.sha256Hex src
            | .error _ => true
          if needsWrite then
            match d.createDirAll (placeIn dest rel).tail with
            | .error t => (.error t, d)
            | .ok made =>
                match made.writeFile (placeIn dest rel) src with
                | .error t => (.error ("install " ++ rel ++ ": " ++ t), made)
                | .ok written => (.ok true, written)
          else (.ok false, d)

def overlayFiles (bundle : Disk Text) (bundleRoot dest : List Text) :
    List (String × String) → Disk Text → Except String (List String) × Disk Text
  | [], d => (.ok [], d)
  | (rel, want) :: rest, d =>
      match overlayFile env bundle bundleRoot dest rel want d with
      | (.error t, d) => (.error t, d)
      | (.ok wrote, d) =>
          match overlayFiles bundle bundleRoot dest rest d with
          | (.error t, d) => (.error t, d)
          | (.ok installed, d) => (.ok (if wrote then rel :: installed else installed), d)

def overlayDataTree (bundle : Disk Text) (bundleRoot : List Text) (man : ReleaseManifest)
    (dest : List Text) (d : Disk Text) : Except String (List String) × Disk Text :=
  match man.dataTree with
  | none => (.ok [], d)
  | some tree => overlayFiles env bundle bundleRoot dest tree.files.entries d

/-! ## Bootstrap -/

/-- `bundle_tree_root`: the single directory of an archive, if it is alone. -/
def bundleTreeRoot (staging : Disk Text) (dir : List Text) : List Text :=
  match staging.filesIn dir, staging.subdirs dir with
  | [], [only] => only :: dir
  | _, _ => dir

def manifestPlace (root : List Text) : List Text := "manifest.json".toList :: root

def stagedTrees (staging : Disk Text) (root : List Text) : List (List Text) :=
  (staging.subdirs root).filterMap fun name =>
    if staging.isFile (manifestPlace (name :: root)) then some (name :: root)
    else
      let tree := bundleTreeRoot staging (name :: root)
      if staging.isFile (manifestPlace tree) then some tree else none

/-- Newest first; `modified` are the seconds of the directory, zero if there are
none. -/
def candidates (staging : Disk Text) (root : List Text) (modified : List Text → ℕ) :
    List (List Text) :=
  ((stagedTrees staging root).mergeSort fun a b => decide (modified a ≤ modified b)).reverse

def stagedManifest (parseManifest : String → Except String ReleaseManifest) (staging : Disk Text)
    (root : List Text) : Except String ReleaseManifest :=
  match staging.readFile (manifestPlace root) with
  | .error t => .error ("staged manifest read: " ++ t)
  | .ok bytes =>
      match utf8? bytes with
      | none => .error "staged manifest read: stream did not contain valid UTF-8"
      | some s =>
          match parseManifest s with
          | .error t => .error ("staged manifest parse: " ++ t)
          | .ok man => .ok man

/-- A staged tree that may be installed: its manifest declares data, and its chain
verifies; or why not. -/
def usableManifest (parseManifest : String → Except String ReleaseManifest) (pubkey : Bytes)
    (staging : Disk Text) (root : List Text) : Except String ReleaseManifest :=
  match stagedManifest parseManifest staging root with
  | .error t => .error t
  | .ok man =>
      if man.dataTree = none then .error "staged manifest has no data_tree (pre-1.0.8 bundle)"
      else
        match verifyManifestChain env pubkey man with
        | .error err => .error ("staged manifest chain: " ++ err.message)
        | .ok _ => .ok man

/-- The first usable tree is installed, whatever comes of it. -/
def tryCandidates (parseManifest : String → Except String ReleaseManifest) (pubkey : Bytes)
    (staging : Disk Text) (dest : List Text) (d : Disk Text) :
    List (List Text) → String → Except String (List String) × Disk Text
  | [], lastErr => (.error lastErr, d)
  | root :: rest, _ =>
      match usableManifest env parseManifest pubkey staging root with
      | .error t => tryCandidates parseManifest pubkey staging dest d rest t
      | .ok man => overlayDataTree env staging root man dest d

def displayPath (place : List Text) : String :=
  String.ofList (place.reverse.flatMap fun name => '/' :: name)

def bootstrapDataTree (parseManifest : String → Except String ReleaseManifest) (pubkey : Bytes)
    (staging : Disk Text) (stagingRoot : List Text) (modified : List Text → ℕ)
    (dest : List Text) (d : Disk Text) : Except String (List String) × Disk Text :=
  if staging.isDir stagingRoot then
    match candidates staging stagingRoot modified with
    | [] => (.error "no staged bundle manifest under ota_staging/bundle", d)
    | found => tryCandidates env parseManifest pubkey staging dest d found
        "no usable staged bundle manifest"
  else
    (.error ("staging dir " ++ displayPath stagingRoot ++ ": " ++
      "No such file or directory (os error 2)"), d)

end Source

/-! ## One file -/

section Files

variable {env : OtaEnv} {bundle : Disk Text} {bundleRoot dest : List Text} {rel want : String}
  {d d' : Disk Text}

structure Declared (env : OtaEnv) (bundle : Disk Text) (bundleRoot : List Text)
    (rel want : String) (src : Bytes) : Prop where
  path : badRelativePath rel = false
  name : endsInName rel = true
  read : bundle.read (placeIn ("data".toList :: bundleRoot) rel) = some src
  digest : env.sha256Hex src = lowered want

def Current (env : OtaEnv) (dest : List Text) (d : Disk Text) (rel want : String) : Prop :=
  ∃ cur, d.read (placeIn dest rel) = some cur ∧ env.sha256Hex cur = lowered want

structure Free (dest : List Text) (d : Disk Text) (rel : String) : Prop where
  above : ∀ q, q <:+ (placeIn dest rel).tail → d.read q = none
  place : d.isDir (placeIn dest rel) = false

def writeTo (dest : List Text) (rel : String) (src : Bytes) (d : Disk Text) : Disk Text :=
  (d.mkdirs (placeIn dest rel).tail).write (placeIn dest rel) src

theorem readIn_eq_ok {root : List Text} {bytes : Bytes} : readIn d root rel = .ok bytes ↔
    d.read (placeIn root rel) = some bytes ∧ endsInName rel = true := by
  unfold readIn
  cases hread : d.readFile (placeIn root rel) with
  | error t =>
      refine iff_of_false nofun ?_
      rintro ⟨hsome, -⟩
      rw [Disk.readFile_eq_ok.mpr hsome] at hread
      cases hread
  | ok cur =>
      have hcur := Disk.readFile_eq_ok.mp hread
      rw [hcur]
      by_cases hname : endsInName rel = true
      · simp [hname]
      · simp [hname]

theorem hasDigest_iff (hlower : ∀ b, lowered (env.sha256Hex b) = env.sha256Hex b)
    {bytes : Bytes} : HasDigest env bytes want ↔ env.sha256Hex bytes = lowered want := by
  unfold HasDigest
  constructor
  · rintro (h | h)
    · exact h
    · rw [← h, hlower]
  · exact Or.inl

theorem nameStack_ne_nil (h : endsInName rel = true) : nameStack rel.toList ≠ [] := by
  intro hnil
  unfold nameStack at hnil
  rw [List.reverse_eq_nil_iff, List.filter_eq_nil_iff] at hnil
  have hne : components rel.toList ≠ [] := List.splitOn_ne_nil _ _
  have hlast := hnil _ (List.getLast_mem hne)
  have hends := of_decide_eq_true h
  rw [List.getLast?_eq_getLast_of_ne_nil hne] at hends
  simp only [List.mem_cons, Option.some.injEq, List.not_mem_nil, or_false, not_or] at hends
  simp only [ne_eq, decide_eq_true_eq, not_and, not_not] at hlast
  exact hends.2 (hlast hends.1)

theorem placeIn_ne_nil (h : endsInName rel = true) : placeIn dest rel ≠ [] := by
  intro hnil
  exact nameStack_ne_nil h (List.append_eq_nil_iff.mp hnil).1

theorem overlayFile_source {src : Bytes}
    (hlower : ∀ b, lowered (env.sha256Hex b) = env.sha256Hex b)
    (hsrc : Declared env bundle bundleRoot rel want src) :
    overlayFile env bundle bundleRoot dest rel want d =
      if (match readIn d dest rel with
        | .ok cur => env.sha256Hex cur != env.sha256Hex src
        | .error _ => true) then
        match d.createDirAll (placeIn dest rel).tail with
        | .error t => (.error t, d)
        | .ok made =>
            match made.writeFile (placeIn dest rel) src with
            | .error t => (.error ("install " ++ rel ++ ": " ++ t), made)
            | .ok written => (.ok true, written)
      else (.ok false, d) := by
  have hread : readIn bundle ("data".toList :: bundleRoot) rel = .ok src :=
    readIn_eq_ok.mpr ⟨hsrc.read, hsrc.name⟩
  have hdigest : HasDigest env src want := (hasDigest_iff hlower).mpr hsrc.digest
  unfold overlayFile
  rw [if_neg (by simp [hsrc.path]), hread]
  dsimp only
  rw [if_neg (not_not.mpr hdigest)]

theorem overlayFile_cases (hlower : ∀ b, lowered (env.sha256Hex b) = env.sha256Hex b) :
    (∃ t, overlayFile env bundle bundleRoot dest rel want d = (.error t, d)) ∨
      ∃ src, Declared env bundle bundleRoot rel want src := by
  cases hpath : badRelativePath rel with
  | true =>
      left
      unfold overlayFile
      rw [if_pos hpath]
      exact ⟨_, rfl⟩
  | false =>
      cases hread : readIn bundle ("data".toList :: bundleRoot) rel with
      | error t =>
          left
          unfold overlayFile
          rw [if_neg (by simp [hpath]), hread]
          exact ⟨_, rfl⟩
      | ok src =>
          by_cases hdigest : HasDigest env src want
          · rcases readIn_eq_ok.mp hread with ⟨hsome, hname⟩
            exact Or.inr ⟨src, hpath, hname, hsome, (hasDigest_iff hlower).mp hdigest⟩
          · left
            unfold overlayFile
            rw [if_neg (by simp [hpath]), hread]
            dsimp only
            rw [if_pos hdigest]
            exact ⟨_, rfl⟩

theorem overlayFile_current {src : Bytes}
    (hlower : ∀ b, lowered (env.sha256Hex b) = env.sha256Hex b)
    (hsrc : Declared env bundle bundleRoot rel want src) (hcurrent : Current env dest d rel want) :
    overlayFile env bundle bundleRoot dest rel want d = (.ok false, d) := by
  rcases hcurrent with ⟨cur, hcur, hsha⟩
  have hsame : ¬(match readIn d dest rel with
      | .ok cur => env.sha256Hex cur != env.sha256Hex src
      | .error _ => true) = true := by
    rw [readIn_eq_ok.mpr ⟨hcur, hsrc.name⟩]
    simp [hsha, hsrc.digest]
  rw [overlayFile_source hlower hsrc, if_neg hsame]

theorem overlayFile_stale {src : Bytes}
    (hlower : ∀ b, lowered (env.sha256Hex b) = env.sha256Hex b)
    (hsrc : Declared env bundle bundleRoot rel want src)
    (hstale : ¬ Current env dest d rel want) :
    overlayFile env bundle bundleRoot dest rel want d =
      match d.createDirAll (placeIn dest rel).tail with
      | .error t => (.error t, d)
      | .ok made =>
          match made.writeFile (placeIn dest rel) src with
          | .error t => (.error ("install " ++ rel ++ ": " ++ t), made)
          | .ok written => (.ok true, written) := by
  have hwrite : (match readIn d dest rel with
      | .ok cur => env.sha256Hex cur != env.sha256Hex src
      | .error _ => true) = true := by
    cases hcur : readIn d dest rel with
    | error t => rfl
    | ok cur =>
        by_contra hsame
        simp only [bne_iff_ne, ne_eq, not_not] at hsame
        exact hstale ⟨cur, (readIn_eq_ok.mp hcur).1, hsame.trans hsrc.digest⟩
  rw [overlayFile_source hlower hsrc, if_pos hwrite]

theorem overlayFile_free {src : Bytes} (hlower : ∀ b, lowered (env.sha256Hex b) = env.sha256Hex b)
    (hsrc : Declared env bundle bundleRoot rel want src)
    (hstale : ¬ Current env dest d rel want) (hfree : Free dest d rel) :
    overlayFile env bundle bundleRoot dest rel want d = (.ok true, writeTo dest rel src d) := by
  have hmade : d.createDirAll (placeIn dest rel).tail = .ok (d.mkdirs (placeIn dest rel).tail) :=
    Disk.createDirAll_eq_ok.mpr ⟨hfree.above, rfl⟩
  have hplace : (d.mkdirs (placeIn dest rel).tail).isDir (placeIn dest rel) = false := by
    by_contra hdir
    rw [Bool.not_eq_false] at hdir
    rcases Disk.isDir_mkdirs.mp hdir with hsuffix | hdir
    · have hlen := hsuffix.length_le
      have hpos := List.length_pos_iff.mpr (@placeIn_ne_nil dest rel hsrc.name)
      rw [List.length_tail] at hlen
      omega
    · rw [hfree.place] at hdir
      cases hdir
  rw [overlayFile_stale hlower hsrc hstale, hmade]
  dsimp only
  unfold Disk.writeFile
  rw [hplace]
  rfl

theorem overlayFile_blocked {src : Bytes}
    (hlower : ∀ b, lowered (env.sha256Hex b) = env.sha256Hex b)
    (hsrc : Declared env bundle bundleRoot rel want src)
    (hstale : ¬ Current env dest d rel want) (hblocked : ¬ Free dest d rel) :
    ∃ t made, overlayFile env bundle bundleRoot dest rel want d = (.error t, made) ∧
      (made = d ∨ made = d.mkdirs (placeIn dest rel).tail) := by
  rw [overlayFile_stale hlower hsrc hstale]
  cases hmade : d.createDirAll (placeIn dest rel).tail with
  | error t => exact ⟨t, d, rfl, Or.inl rfl⟩
  | ok made =>
      rcases Disk.createDirAll_eq_ok.mp hmade with ⟨habove, rfl⟩
      have hplace : (d.mkdirs (placeIn dest rel).tail).isDir (placeIn dest rel) = true := by
        by_contra hdir
        rw [Bool.not_eq_true] at hdir
        refine hblocked ⟨habove, ?_⟩
        by_contra hwas
        rw [Bool.not_eq_false] at hwas
        rw [Disk.isDir_mkdirs.mpr (Or.inr hwas)] at hdir
        cases hdir
      dsimp only
      unfold Disk.writeFile
      rw [if_pos hplace]
      exact ⟨_, _, rfl, Or.inr rfl⟩

end Files

/-! ## All files -/

section Tree

variable {env : OtaEnv} {bundle : Disk Text} {bundleRoot dest : List Text}
  {files : List (String × String)} {d d' : Disk Text} {rel rel' want want' : String} {src src' : Bytes}

theorem read_writeTo {p : List Text} : (writeTo dest rel src d).read p =
    if p = placeIn dest rel then some src else d.read p := by
  unfold writeTo
  rw [Disk.read_write, Disk.read_mkdirs]

theorem isDir_writeTo {q : List Text} : (writeTo dest rel src d).isDir q = true ↔
    q <:+ (placeIn dest rel).tail ∨ d.isDir q = true := by
  unfold writeTo
  rw [Disk.isDir_write, Disk.isDir_mkdirs]

theorem placeIn_eq_iff {root root' : List Text} :
    placeIn root rel = placeIn root rel' ↔ placeIn root' rel = placeIn root' rel' := by
  unfold placeIn
  rw [List.append_left_inj, List.append_left_inj]

theorem placeIn_suffix_iff {root root' : List Text} :
    placeIn root rel <:+ placeIn root rel' ↔ placeIn root' rel <:+ placeIn root' rel' := by
  unfold placeIn
  rw [List.suffix_append_self_iff, List.suffix_append_self_iff]

theorem Declared.same (h : Declared env bundle bundleRoot rel want src)
    (h' : Declared env bundle bundleRoot rel' want' src')
    (hplace : placeIn dest rel = placeIn dest rel') : src = src' ∧ lowered want = lowered want' := by
  have hread := h.read
  rw [placeIn_eq_iff.mp hplace, h'.read] at hread
  have hsrc : src' = src := Option.some.inj hread
  refine ⟨hsrc.symm, ?_⟩
  rw [← h.digest, ← h'.digest, hsrc]

theorem Current.congr (h : Current env dest d rel want)
    (hread : d'.read (placeIn dest rel) = d.read (placeIn dest rel)) :
    Current env dest d' rel want := by
  rcases h with ⟨cur, hcur, hsha⟩
  exact ⟨cur, hread.trans hcur, hsha⟩

theorem current_writeTo (h : Declared env bundle bundleRoot rel want src) :
    Current env dest (writeTo dest rel src d) rel want :=
  ⟨src, by rw [read_writeTo, if_pos rfl], h.digest⟩

theorem current_after_iff (h : Declared env bundle bundleRoot rel want src)
    (h' : Declared env bundle bundleRoot rel' want' src') :
    Current env dest (writeTo dest rel src d) rel' want' ↔
      placeIn dest rel = placeIn dest rel' ∨ Current env dest d rel' want' := by
  by_cases hplace : placeIn dest rel = placeIn dest rel'
  · refine iff_of_true ⟨src, ?_, ?_⟩ (Or.inl hplace)
    · rw [read_writeTo, if_pos hplace.symm]
    · rw [h.digest, (h.same h' hplace).2]
  · have hread : (writeTo dest rel src d).read (placeIn dest rel') =
        d.read (placeIn dest rel') := by
      rw [read_writeTo, if_neg fun heq => hplace heq.symm]
    constructor
    · intro hcurrent
      exact Or.inr (hcurrent.congr hread.symm)
    · rintro (heq | hcurrent)
      · exact absurd heq hplace
      · exact hcurrent.congr hread

structure Overlaid (env : OtaEnv) (bundle : Disk Text) (bundleRoot dest : List Text)
    (files : List (String × String)) (d : Disk Text) (installed : List String) (d' : Disk Text) :
    Prop where
  declared : ∀ f ∈ files, ∃ src, Declared env bundle bundleRoot f.1 f.2 src
  current : ∀ f ∈ files, Current env dest d' f.1 f.2
  others : ∀ p, (∀ f ∈ files, p ≠ placeIn dest f.1) → d'.read p = d.read p
  listed : ∀ rel ∈ installed, ∃ want, (rel, want) ∈ files
  once : (installed.map (placeIn dest)).Nodup
  installed : ∀ p, p ∈ installed.map (placeIn dest) ↔
    ∃ f ∈ files, placeIn dest f.1 = p ∧ ¬ Current env dest d f.1 f.2

theorem Overlaid.nil : Overlaid env bundle bundleRoot dest [] d [] d := by
  constructor
  · intro f hf
    cases hf
  · intro f hf
    cases hf
  · intro p _
    rfl
  · intro rel hrel
    cases hrel
  · exact List.nodup_nil
  · intro p
    simp

theorem Overlaid.cons_current {installed : List String}
    (h : Overlaid env bundle bundleRoot dest files d installed d')
    (hsrc : Declared env bundle bundleRoot rel want src) (hcurrent : Current env dest d rel want) :
    Overlaid env bundle bundleRoot dest ((rel, want) :: files) d installed d' := by
  have hafter : Current env dest d' rel want := by
    by_cases hshared : ∃ f ∈ files, placeIn dest f.1 = placeIn dest rel
    · rcases hshared with ⟨f, hf, hplace⟩
      rcases h.declared f hf with ⟨src', hsrc'⟩
      rcases h.current f hf with ⟨cur, hcur, hsha⟩
      refine ⟨cur, ?_, ?_⟩
      · rw [← hplace]
        exact hcur
      · rw [hsha, (hsrc'.same hsrc hplace).2]
    · apply hcurrent.congr
      apply h.others
      intro f hf heq
      exact hshared ⟨f, hf, heq.symm⟩
  constructor
  · intro f hf
    rcases List.mem_cons.mp hf with rfl | hf
    · exact ⟨src, hsrc⟩
    · exact h.declared f hf
  · intro f hf
    rcases List.mem_cons.mp hf with rfl | hf
    · exact hafter
    · exact h.current f hf
  · intro p hp
    exact h.others p fun f hf => hp f (List.mem_cons_of_mem _ hf)
  · intro r hr
    rcases h.listed r hr with ⟨w, hw⟩
    exact ⟨w, List.mem_cons_of_mem _ hw⟩
  · exact h.once
  · intro p
    rw [h.installed p]
    constructor
    · rintro ⟨f, hf, hplace, hstale⟩
      exact ⟨f, List.mem_cons_of_mem _ hf, hplace, hstale⟩
    · rintro ⟨f, hf, hplace, hstale⟩
      rcases List.mem_cons.mp hf with rfl | hf
      · exact absurd hcurrent hstale
      · exact ⟨f, hf, hplace, hstale⟩

theorem Overlaid.cons_written {installed : List String}
    (h : Overlaid env bundle bundleRoot dest files (writeTo dest rel src d) installed d')
    (hsrc : Declared env bundle bundleRoot rel want src) (hstale : ¬ Current env dest d rel want) :
    Overlaid env bundle bundleRoot dest ((rel, want) :: files) d (rel :: installed) d' := by
  have hkept : Overlaid env bundle bundleRoot dest ((rel, want) :: files)
      (writeTo dest rel src d) installed d' := h.cons_current hsrc (current_writeTo hsrc)
  -- a file is stale after the write if it was before and lies elsewhere
  have hstaleIff : ∀ f ∈ files, ¬ Current env dest (writeTo dest rel src d) f.1 f.2 ↔
      placeIn dest rel ≠ placeIn dest f.1 ∧ ¬ Current env dest d f.1 f.2 := by
    intro f hf
    rcases h.declared f hf with ⟨src', hsrc'⟩
    rw [current_after_iff hsrc hsrc', not_or]
  have hnew : placeIn dest rel ∉ installed.map (placeIn dest) := by
    intro hmem
    rcases (h.installed _).mp hmem with ⟨f, hf, hplace, hstaleAfter⟩
    exact ((hstaleIff f hf).mp hstaleAfter).1 hplace.symm
  constructor
  · exact hkept.declared
  · exact hkept.current
  · intro p hp
    rw [hkept.others p hp, read_writeTo, if_neg (hp (rel, want) List.mem_cons_self)]
  · intro r hr
    rcases List.mem_cons.mp hr with rfl | hr
    · exact ⟨want, List.mem_cons_self⟩
    · exact hkept.listed r hr
  · rw [List.map_cons, List.nodup_cons]
    exact ⟨hnew, h.once⟩
  · intro p
    rw [List.map_cons, List.mem_cons, h.installed p]
    constructor
    · rintro (rfl | ⟨f, hf, hplace, hstaleAfter⟩)
      · exact ⟨(rel, want), List.mem_cons_self, rfl, hstale⟩
      · exact ⟨f, List.mem_cons_of_mem _ hf, hplace, ((hstaleIff f hf).mp hstaleAfter).2⟩
    · rintro ⟨f, hf, hplace, hstaleBefore⟩
      rcases List.mem_cons.mp hf with rfl | hf
      · exact Or.inl hplace.symm
      · by_cases hsame : placeIn dest rel = placeIn dest f.1
        · exact Or.inl (hplace.symm.trans hsame.symm)
        · exact Or.inr ⟨f, hf, hplace, (hstaleIff f hf).mpr ⟨hsame, hstaleBefore⟩⟩

structure Touched (env : OtaEnv) (dest : List Text) (files : List (String × String))
    (d d' : Disk Text) : Prop where
  content : ∀ p, d'.read p = d.read p ∨
    ∃ f ∈ files, placeIn dest f.1 = p ∧ Current env dest d' f.1 f.2
  made : ∀ q, d'.isDir q = true → d.isDir q = true ∨ ∃ f ∈ files, q <:+ placeIn dest f.1

theorem Touched.refl : Touched env dest files d d :=
  ⟨fun _ => Or.inl rfl, fun _ => Or.inl⟩

theorem Touched.cons_kept (h : Touched env dest files d d') :
    Touched env dest ((rel, want) :: files) d d' := by
  constructor
  · intro p
    rcases h.content p with hsame | ⟨f, hf, hplace⟩
    · exact Or.inl hsame
    · exact Or.inr ⟨f, List.mem_cons_of_mem _ hf, hplace⟩
  · intro q hq
    rcases h.made q hq with hwas | ⟨f, hf, hsuffix⟩
    · exact Or.inl hwas
    · exact Or.inr ⟨f, List.mem_cons_of_mem _ hf, hsuffix⟩

theorem Touched.cons_written (h : Touched env dest files (writeTo dest rel src d) d')
    (hsrc : Declared env bundle bundleRoot rel want src) :
    Touched env dest ((rel, want) :: files) d d' := by
  constructor
  · intro p
    rcases h.content p with hsame | ⟨f, hf, hplace⟩
    · by_cases hp : p = placeIn dest rel
      · right
        refine ⟨(rel, want), List.mem_cons_self, hp.symm, ?_⟩
        rw [hp] at hsame
        exact (current_writeTo hsrc).congr hsame
      · left
        rw [hsame, read_writeTo, if_neg hp]
    · exact Or.inr ⟨f, List.mem_cons_of_mem _ hf, hplace⟩
  · intro q hq
    rcases h.made q hq with hwas | ⟨f, hf, hsuffix⟩
    · rcases isDir_writeTo.mp hwas with hsuffix | hwas
      · exact Or.inr ⟨(rel, want), List.mem_cons_self, hsuffix.trans (List.tail_suffix _)⟩
      · exact Or.inl hwas
    · exact Or.inr ⟨f, List.mem_cons_of_mem _ hf, hsuffix⟩

theorem touched_blocked {made : Disk Text}
    (h : made = d ∨ made = d.mkdirs (placeIn dest rel).tail) :
    Touched env dest ((rel, want) :: files) d made := by
  rcases h with rfl | rfl
  · exact Touched.refl
  · refine ⟨fun _ => Or.inl rfl, ?_⟩
    intro q hq
    rcases Disk.isDir_mkdirs.mp hq with hsuffix | hwas
    · exact Or.inr ⟨(rel, want), List.mem_cons_self, hsuffix.trans (List.tail_suffix _)⟩
    · exact Or.inl hwas

theorem overlayFiles_spec (hlower : ∀ b, lowered (env.sha256Hex b) = env.sha256Hex b)
    (files : List (String × String)) (d : Disk Text) :
    (∃ t d', overlayFiles env bundle bundleRoot dest files d = (.error t, d') ∧
        Touched env dest files d d') ∨
      ∃ installed d', overlayFiles env bundle bundleRoot dest files d = (.ok installed, d') ∧
        Overlaid env bundle bundleRoot dest files d installed d' ∧ Touched env dest files d d' := by
  induction files generalizing d with
  | nil => exact Or.inr ⟨[], d, rfl, Overlaid.nil, Touched.refl⟩
  | cons f rest ih =>
      rcases f with ⟨rel, want⟩
      rcases @overlayFile_cases env bundle bundleRoot dest rel want d hlower with ⟨t, hrefused⟩ | ⟨src, hsrc⟩
      · left
        refine ⟨t, d, ?_, Touched.refl⟩
        unfold overlayFiles
        rw [hrefused]
      · by_cases hcurrent : Current env dest d rel want
        · have hfile := overlayFile_current hlower hsrc hcurrent
          rcases ih d with ⟨t, d', hrest, htouched⟩ | ⟨installed, d', hrest, hover, htouched⟩
          · refine Or.inl ⟨t, d', ?_, htouched.cons_kept⟩
            unfold overlayFiles
            rw [hfile]
            dsimp only
            rw [hrest]
          · refine Or.inr ⟨installed, d', ?_, hover.cons_current hsrc hcurrent,
              htouched.cons_kept⟩
            unfold overlayFiles
            rw [hfile]
            dsimp only
            rw [hrest]
            rfl
        · by_cases hfree : Free dest d rel
          · have hfile := overlayFile_free hlower hsrc hcurrent hfree
            rcases ih (writeTo dest rel src d) with
              ⟨t, d', hrest, htouched⟩ | ⟨installed, d', hrest, hover, htouched⟩
            · refine Or.inl ⟨t, d', ?_, htouched.cons_written hsrc⟩
              unfold overlayFiles
              rw [hfile]
              dsimp only
              rw [hrest]
            · refine Or.inr ⟨rel :: installed, d', ?_, hover.cons_written hsrc hcurrent,
                htouched.cons_written hsrc⟩
              unfold overlayFiles
              rw [hfile]
              dsimp only
              rw [hrest]
              rfl
          · rcases overlayFile_blocked hlower hsrc hcurrent hfree with ⟨t, made, hfile, hmade⟩
            refine Or.inl ⟨t, made, ?_, touched_blocked hmade⟩
            unfold overlayFiles
            rw [hfile]

theorem overlayFiles_current (hlower : ∀ b, lowered (env.sha256Hex b) = env.sha256Hex b)
    (hdeclared : ∀ f ∈ files, ∃ src, Declared env bundle bundleRoot f.1 f.2 src)
    (hcurrent : ∀ f ∈ files, Current env dest d f.1 f.2) :
    overlayFiles env bundle bundleRoot dest files d = (.ok [], d) := by
  induction files with
  | nil => rfl
  | cons f rest ih =>
      rcases hdeclared f List.mem_cons_self with ⟨src, hsrc⟩
      have hfile := overlayFile_current hlower hsrc (hcurrent f List.mem_cons_self)
      have hrest := ih (fun g hg => hdeclared g (List.mem_cons_of_mem _ hg))
        fun g hg => hcurrent g (List.mem_cons_of_mem _ hg)
      unfold overlayFiles
      rw [hfile]
      dsimp only
      rw [hrest]
      rfl

def Accepts (env : OtaEnv) (dest : List Text) (d : Disk Text) (files : List (String × String)) :
    Prop :=
  ∀ f ∈ files, Current env dest d f.1 f.2 ∨ Free dest d f.1

theorem Free.after_write (hsound : bundle.Sound)
    (hsrc : Declared env bundle bundleRoot rel want src)
    (hsrc' : Declared env bundle bundleRoot rel' want' src')
    (hfree : Free dest d rel') (hne : placeIn dest rel ≠ placeIn dest rel') :
    Free dest (writeTo dest rel src d) rel' := by
  have hapart : ∀ r w s r' w' s', Declared env bundle bundleRoot r w s →
      Declared env bundle bundleRoot r' w' s' → placeIn dest r ≠ placeIn dest r' →
        ¬ placeIn dest r <:+ placeIn dest r' := by
    intro r w s r' w' s' h h' hne hsuffix
    have hbelow := (hsound _ _ (by rw [h.read]; rfl) (placeIn_suffix_iff.mp hsuffix)).2
    have hne' : placeIn ("data".toList :: bundleRoot) r' ≠
        placeIn ("data".toList :: bundleRoot) r := fun heq => hne (placeIn_eq_iff.mp heq.symm)
    rw [h'.read] at hbelow
    cases hbelow hne'
  constructor
  · intro q hq
    rw [read_writeTo, if_neg]
    · exact hfree.above q hq
    · rintro rfl
      exact hapart _ _ _ _ _ _ hsrc hsrc' hne (hq.trans (List.tail_suffix _))
  · by_contra hdir
    rw [Bool.not_eq_false] at hdir
    rcases isDir_writeTo.mp hdir with hsuffix | hwas
    · exact hapart _ _ _ _ _ _ hsrc' hsrc hne.symm (hsuffix.trans (List.tail_suffix _))
    · rw [hfree.place] at hwas
      cases hwas

theorem Free.of_place (h : Free dest d rel) (hplace : placeIn dest rel = placeIn dest rel') :
    Free dest d rel' := by
  constructor
  · rw [← hplace]
    exact h.above
  · rw [← hplace]
    exact h.place

theorem Free.before_write (h : Free dest (writeTo dest rel src d) rel') : Free dest d rel' := by
  constructor
  · intro q hq
    have hnone := h.above q hq
    rw [read_writeTo] at hnone
    split_ifs at hnone with hplace
    exact hnone
  · by_contra hdir
    rw [Bool.not_eq_false] at hdir
    have hafter := (@isDir_writeTo dest d rel src _).mpr (Or.inr hdir)
    rw [h.place] at hafter
    cases hafter

theorem ok_of_cons {r : Except String (List String) × Disk Text} {wrote : Bool}
    {installed : List String}
    (h : (match r with
      | (.error t, d) => ((.error t, d) : Except String (List String) × Disk Text)
      | (.ok l, d) => (.ok (if wrote then rel :: l else l), d)).1 = .ok installed) :
    ∃ l, r.1 = .ok l := by
  rcases r with ⟨_ | l, d⟩
  · cases h
  · exact ⟨l, rfl⟩

theorem cons_of_ok {r : Except String (List String) × Disk Text} {wrote : Bool}
    (h : ∃ l, r.1 = .ok l) :
    ∃ installed, (match r with
      | (.error t, d) => ((.error t, d) : Except String (List String) × Disk Text)
      | (.ok l, d) => (.ok (if wrote then rel :: l else l), d)).1 = .ok installed := by
  rcases r with ⟨_ | l, d⟩
  · rcases h with ⟨l, hl⟩
    cases hl
  · exact ⟨_, rfl⟩

theorem overlayFiles_ok_iff (hlower : ∀ b, lowered (env.sha256Hex b) = env.sha256Hex b)
    (hsound : bundle.Sound) (files : List (String × String)) (d : Disk Text) :
    (∃ installed, (overlayFiles env bundle bundleRoot dest files d).1 = .ok installed) ↔
      (∀ f ∈ files, ∃ src, Declared env bundle bundleRoot f.1 f.2 src) ∧
        Accepts env dest d files := by
  induction files generalizing d with
  | nil => exact iff_of_true ⟨[], rfl⟩ ⟨nofun, nofun⟩
  | cons f rest ih =>
      rcases f with ⟨rel, want⟩
      constructor
      · rintro ⟨installed, hok⟩
        unfold overlayFiles at hok
        rcases @overlayFile_cases env bundle bundleRoot dest rel want d hlower with ⟨t, hrefused⟩ | ⟨src, hsrc⟩
        · rw [hrefused] at hok
          cases hok
        · by_cases hcurrent : Current env dest d rel want
          · rw [overlayFile_current hlower hsrc hcurrent] at hok
            rcases (ih d).mp (ok_of_cons hok) with ⟨hdeclared, haccepts⟩
            exact ⟨List.forall_mem_cons.mpr ⟨⟨src, hsrc⟩, hdeclared⟩,
              List.forall_mem_cons.mpr ⟨Or.inl hcurrent, haccepts⟩⟩
          · by_cases hfree : Free dest d rel
            · rw [overlayFile_free hlower hsrc hcurrent hfree] at hok
              rcases (ih _).mp (ok_of_cons hok) with ⟨hdeclared, haccepts⟩
              refine ⟨List.forall_mem_cons.mpr ⟨⟨src, hsrc⟩, hdeclared⟩,
                List.forall_mem_cons.mpr ⟨Or.inr hfree, ?_⟩⟩
              intro f hf
              rcases hdeclared f hf with ⟨src', hsrc'⟩
              rcases haccepts f hf with hafter | hafter
              · rcases (current_after_iff hsrc hsrc').mp hafter with hplace | hwas
                · exact Or.inr (hfree.of_place hplace)
                · exact Or.inl hwas
              · exact Or.inr hafter.before_write
            · rcases overlayFile_blocked hlower hsrc hcurrent hfree with ⟨t, made, hfile, -⟩
              rw [hfile] at hok
              cases hok
      · rintro ⟨hdeclared, haccepts⟩
        rcases List.forall_mem_cons.mp hdeclared with ⟨⟨src, hsrc⟩, hrest⟩
        rcases List.forall_mem_cons.mp haccepts with ⟨hroom, hrooms⟩
        unfold overlayFiles
        by_cases hcurrent : Current env dest d rel want
        · rw [overlayFile_current hlower hsrc hcurrent]
          exact cons_of_ok ((ih d).mpr ⟨hrest, hrooms⟩)
        · have hfree := hroom.resolve_left hcurrent
          rw [overlayFile_free hlower hsrc hcurrent hfree]
          apply cons_of_ok
          refine (ih _).mpr ⟨hrest, ?_⟩
          intro f hf
          rcases hrest f hf with ⟨src', hsrc'⟩
          by_cases hplace : placeIn dest rel = placeIn dest f.1
          · exact Or.inl ((current_after_iff hsrc hsrc').mpr (Or.inl hplace))
          · rcases hrooms f hf with hwas | hwas
            · exact Or.inl ((current_after_iff hsrc hsrc').mpr (Or.inr hwas))
            · exact Or.inr (hwas.after_write hsound hsrc hsrc' hplace)

end Tree

/-! ## The promise of the overlay and of the bootstrap -/

section Promise

variable (env : OtaEnv)

def declaredFiles (man : ReleaseManifest) : List (String × String) :=
  (man.dataTree.map fun tree => tree.files.entries).getD []

/-- What one overlay promises. -/
structure OverlayLaw (bundle : Disk Text) (bundleRoot : List Text) (man : ReleaseManifest)
    (dest : List Text) (d : Disk Text) : Prop where
  ok : ∀ installed, (overlayDataTree env bundle bundleRoot man dest d).1 = .ok installed →
    Overlaid env bundle bundleRoot dest (declaredFiles man) d installed
        (overlayDataTree env bundle bundleRoot man dest d).2 ∧
      overlayDataTree env bundle bundleRoot man dest
          (overlayDataTree env bundle bundleRoot man dest d).2 =
        (.ok [], (overlayDataTree env bundle bundleRoot man dest d).2)
  error : ∀ t, (overlayDataTree env bundle bundleRoot man dest d).1 = .error t → ∀ p,
    (overlayDataTree env bundle bundleRoot man dest d).2.read p = d.read p ∨
      ∃ f ∈ declaredFiles man, placeIn dest f.1 = p ∧
        Current env dest (overlayDataTree env bundle bundleRoot man dest d).2 f.1 f.2
  /-- Files change below the destination only, and directories appear only there or
  on the way to it. -/
  inside : (∀ p, (overlayDataTree env bundle bundleRoot man dest d).2.read p ≠ d.read p →
      dest <:+ p) ∧
    ∀ q, (overlayDataTree env bundle bundleRoot man dest d).2.isDir q = true →
      d.isDir q = true ∨ dest <:+ q ∨ q <:+ dest

def Intact (staging : Disk Text) (man : ReleaseManifest) (root : List Text) : Prop :=
  ∀ f ∈ declaredFiles man, ∃ src, Declared env staging root f.1 f.2 src

variable (parseManifest : String → Except String ReleaseManifest) (pubkey : Bytes)
  (staging : Disk Text) (stagingRoot : List Text) (modified : List Text → ℕ) (dest : List Text)
  (d : Disk Text)

def SomeIntact : Prop :=
  staging.isDir stagingRoot = true ∧ ∃ root ∈ candidates staging stagingRoot modified,
    ∃ man, usableManifest env parseManifest pubkey staging root = .ok man ∧
      Intact env staging man root

/-- What the bootstrap promises. -/
structure BootstrapLaw : Prop where
  /-- It changes nothing, or is the overlay of a candidate whose chain verifies. -/
  verified : (∃ t, bootstrapDataTree env parseManifest pubkey staging stagingRoot modified dest d =
      (.error t, d)) ∨
    ∃ root ∈ candidates staging stagingRoot modified, ∃ man,
      usableManifest env parseManifest pubkey staging root = .ok man ∧
        bootstrapDataTree env parseManifest pubkey staging stagingRoot modified dest d =
          overlayDataTree env staging root man dest d
  succeeds : SomeIntact env parseManifest pubkey staging stagingRoot modified →
    ∃ installed, (bootstrapDataTree env parseManifest pubkey staging stagingRoot modified dest
      d).1 = .ok installed

/-- The newest candidate whose chain verifies has all its files, and the data
directory has room for them, as soon as any such candidate has all its files. -/
def NewestInstalls : Prop :=
  SomeIntact env parseManifest pubkey staging stagingRoot modified →
    ∀ newer root older man, candidates staging stagingRoot modified = newer ++ root :: older →
      (∀ c ∈ newer, ∀ m, usableManifest env parseManifest pubkey staging c ≠ .ok m) →
        usableManifest env parseManifest pubkey staging root = .ok man →
          Intact env staging man root ∧ Accepts env dest d (declaredFiles man)

variable {env parseManifest pubkey staging stagingRoot modified dest d}
  {bundle : Disk Text} {bundleRoot : List Text} {man : ReleaseManifest}

theorem overlayDataTree_eq : overlayDataTree env bundle bundleRoot man dest d =
    overlayFiles env bundle bundleRoot dest (declaredFiles man) d := by
  unfold overlayDataTree declaredFiles
  cases man.dataTree <;> rfl

theorem Touched.inside {files : List (String × String)} {d' : Disk Text}
    (h : Touched env dest files d d') :
    (∀ p, d'.read p ≠ d.read p → dest <:+ p) ∧
      ∀ q, d'.isDir q = true → d.isDir q = true ∨ dest <:+ q ∨ q <:+ dest := by
  constructor
  · intro p hp
    rcases h.content p with hsame | ⟨f, -, hplace, -⟩
    · exact absurd hsame hp
    · rw [← hplace]
      exact List.suffix_append _ _
  · intro q hq
    rcases h.made q hq with hwas | ⟨f, -, hsuffix⟩
    · exact Or.inl hwas
    · have hdest : dest <:+ placeIn dest f.1 := List.suffix_append _ _
      exact Or.inr (List.suffix_or_suffix_of_suffix hdest hsuffix)

theorem overlayLaw (hlower : ∀ b, lowered (env.sha256Hex b) = env.sha256Hex b)
    (bundle : Disk Text) (bundleRoot : List Text) (man : ReleaseManifest) (dest : List Text)
    (d : Disk Text) : OverlayLaw env bundle bundleRoot man dest d := by
  rcases @overlayFiles_spec env bundle bundleRoot dest hlower (declaredFiles man) d with
    ⟨t, d', hrun, htouched⟩ | ⟨installed, d', hrun, hover, htouched⟩
  · constructor
    · intro installed hok
      rw [overlayDataTree_eq, hrun] at hok
      cases hok
    · intro _ _
      rw [overlayDataTree_eq, hrun]
      exact htouched.content
    · rw [overlayDataTree_eq, hrun]
      exact htouched.inside
  · constructor
    · intro l hok
      rw [overlayDataTree_eq, hrun] at hok ⊢
      cases hok
      refine ⟨hover, ?_⟩
      rw [overlayDataTree_eq]
      exact overlayFiles_current hlower hover.declared hover.current
    · intro t herror
      rw [overlayDataTree_eq, hrun] at herror
      cases herror
    · rw [overlayDataTree_eq, hrun]
      exact htouched.inside

theorem tryCandidates_cases (found : List (List Text)) (lastErr : String) :
    ((∀ c ∈ found, ∀ m, usableManifest env parseManifest pubkey staging c ≠ .ok m) ∧
      ∃ t, tryCandidates env parseManifest pubkey staging dest d found lastErr = (.error t, d)) ∨
    ∃ newer root older man, found = newer ++ root :: older ∧
      (∀ c ∈ newer, ∀ m, usableManifest env parseManifest pubkey staging c ≠ .ok m) ∧
        usableManifest env parseManifest pubkey staging root = .ok man ∧
          tryCandidates env parseManifest pubkey staging dest d found lastErr =
            overlayDataTree env staging root man dest d := by
  induction found generalizing lastErr with
  | nil => exact Or.inl ⟨nofun, lastErr, rfl⟩
  | cons c rest ih =>
      cases husable : usableManifest env parseManifest pubkey staging c with
      | ok man =>
          refine Or.inr ⟨[], c, rest, man, rfl, nofun, husable, ?_⟩
          unfold tryCandidates
          rw [husable]
      | error t =>
          have hstep : tryCandidates env parseManifest pubkey staging dest d (c :: rest) lastErr =
              tryCandidates env parseManifest pubkey staging dest d rest t := by
            rw [tryCandidates, husable]
          have hskip : ∀ m, usableManifest env parseManifest pubkey staging c ≠ .ok m := by
            intro m hm
            rw [husable] at hm
            cases hm
          rcases ih t with ⟨hnone, hrest⟩ | ⟨newer, root, older, man, hfound, hnewer, hroot, hrest⟩
          · refine Or.inl ⟨List.forall_mem_cons.mpr ⟨hskip, hnone⟩, ?_⟩
            rw [hstep]
            exact hrest
          · refine Or.inr ⟨c :: newer, root, older, man, by rw [hfound]; rfl,
              List.forall_mem_cons.mpr ⟨hskip, hnewer⟩, hroot, ?_⟩
            rw [hstep]
            exact hrest

theorem bootstrap_eq (hdir : staging.isDir stagingRoot = true) :
    ∃ lastErr, bootstrapDataTree env parseManifest pubkey staging stagingRoot modified dest d =
      tryCandidates env parseManifest pubkey staging dest d
        (candidates staging stagingRoot modified) lastErr := by
  unfold bootstrapDataTree
  rw [if_pos hdir]
  cases candidates staging stagingRoot modified with
  | nil => exact ⟨_, rfl⟩
  | cons c rest => exact ⟨_, rfl⟩

theorem first_unique {newer older newer' older' : List (List Text)} {root root' : List Text}
    {m m' : ReleaseManifest} (hsame : newer ++ root :: older = newer' ++ root' :: older')
    (hnewer : ∀ c ∈ newer, ∀ m, usableManifest env parseManifest pubkey staging c ≠ .ok m)
    (hnewer' : ∀ c ∈ newer', ∀ m, usableManifest env parseManifest pubkey staging c ≠ .ok m)
    (hroot : usableManifest env parseManifest pubkey staging root = .ok m)
    (hroot' : usableManifest env parseManifest pubkey staging root' = .ok m') : root = root' := by
  rcases List.append_eq_append_iff.mp hsame with ⟨w, hfirst, hrest⟩ | ⟨w, hfirst, hrest⟩
  · cases w with
    | nil => exact (List.cons.inj hrest).1
    | cons c w =>
        have hc : c = root := (List.cons.inj hrest).1.symm
        exact absurd hroot (hnewer' root (by rw [hfirst, hc]; simp) m)
  · cases w with
    | nil => exact (List.cons.inj hrest).1.symm
    | cons c w =>
        have hc : c = root' := (List.cons.inj hrest).1.symm
        exact absurd hroot' (hnewer root' (by rw [hfirst, hc]; simp) m')

theorem bootstrapLaw_iff (hlower : ∀ b, lowered (env.sha256Hex b) = env.sha256Hex b)
    (hsound : staging.Sound) :
    BootstrapLaw env parseManifest pubkey staging stagingRoot modified dest d ↔
      NewestInstalls env parseManifest pubkey staging stagingRoot modified dest d := by
  by_cases hdir : staging.isDir stagingRoot = true
  · rcases @bootstrap_eq env parseManifest pubkey staging stagingRoot modified dest d hdir with
      ⟨lastErr, hrun⟩
    rcases @tryCandidates_cases env parseManifest pubkey staging dest d
      (candidates staging stagingRoot modified) lastErr with
      ⟨hnone, t, hloop⟩ | ⟨newer, root, older, man, hfound, hnewer, hroot, hloop⟩
    · have hnotIntact : ¬SomeIntact env parseManifest pubkey staging stagingRoot modified := by
        rintro ⟨-, c, hc, m, husable, -⟩
        exact hnone c hc m husable
      refine iff_of_true ⟨Or.inl ⟨t, hrun.trans hloop⟩, ?_⟩ ?_
      · intro hsome
        exact absurd hsome hnotIntact
      · intro hsome
        exact absurd hsome hnotIntact
    · have hinstalls := @overlayFiles_ok_iff env staging root dest hlower hsound
        (declaredFiles man) d
      rw [← overlayDataTree_eq, ← hloop, ← hrun] at hinstalls
      constructor
      · intro h hsome newer' root' older' man' hfound' hnewer' hroot'
        have hsame : root' = root :=
          first_unique (hfound'.symm.trans hfound) hnewer' hnewer hroot' hroot
        rw [hsame, hroot] at hroot'
        cases Except.ok.inj hroot'
        rw [hsame]
        exact hinstalls.mp (h.succeeds hsome)
      · intro h
        constructor
        · right
          refine ⟨root, by rw [hfound]; simp, man, hroot, hrun.trans hloop⟩
        · intro hsome
          exact hinstalls.mpr (h hsome newer root older man hfound hnewer hroot)
  · have hnotIntact : ¬SomeIntact env parseManifest pubkey staging stagingRoot modified :=
      fun h => hdir h.1
    refine iff_of_true ⟨Or.inl ?_, ?_⟩ ?_
    · unfold bootstrapDataTree
      rw [if_neg hdir]
      exact ⟨_, rfl⟩
    · intro hsome
      exact absurd hsome hnotIntact
    · intro hsome
      exact absurd hsome hnotIntact

end Promise

/-- The overlay keeps its promise always; the bootstrap keeps its own exactly
where the newest verified candidate is intact and fits. -/
theorem data_tree_law_iff (env : OtaEnv)
    (hlower : ∀ b, lowered (env.sha256Hex b) = env.sha256Hex b)
    (parseManifest : String → Except String ReleaseManifest) (pubkey : Bytes)
    (staging : Disk Text) (hsound : staging.Sound) (stagingRoot : List Text)
    (modified : List Text → ℕ) (dest : List Text) (d : Disk Text) :
    ((∀ bundle bundleRoot man dest d, OverlayLaw env bundle bundleRoot man dest d) ∧
        BootstrapLaw env parseManifest pubkey staging stagingRoot modified dest d) ↔
      NewestInstalls env parseManifest pubkey staging stagingRoot modified dest d := by
  rw [← bootstrapLaw_iff hlower hsound]
  exact and_iff_right (overlayLaw hlower)

def dataSample : ReleaseManifest :=
  { manifestSample with
    dataTree := some ⟨none, ⟨[("a.json", emptyHash)], List.pairwise_singleton _ _⟩⟩
    sigData := some lineSig }

def dataEnv : OtaEnv := (hostEnv [123, 125]).toOtaEnv

/-- Two staged bundles of one manifest; the data file of the newer is gone. -/
def stagedSample : Disk Text where
  files := [
    (["manifest.json".toList, "old.d".toList, "bundle".toList], [123, 125]),
    (["a.json".toList, "data".toList, "old.d".toList, "bundle".toList], []),
    (["manifest.json".toList, "new.d".toList, "bundle".toList], [123, 125])]
  dirs := [["bundle".toList], ["old.d".toList, "bundle".toList],
    ["data".toList, "old.d".toList, "bundle".toList], ["new.d".toList, "bundle".toList]]

def stagedAt (tree : List Text) : ℕ := if tree = ["new.d".toList, "bundle".toList] then 2 else 1

theorem dataEnv_lower (b : Bytes) : lowered (dataEnv.sha256Hex b) = dataEnv.sha256Hex b := by
  by_cases hb : b = []
  · have hhex : dataEnv.sha256Hex b = emptyHash := if_pos hb
    rw [hhex]
    rfl
  · have hhex : dataEnv.sha256Hex b = "" := if_neg hb
    rw [hhex]
    rfl

/-- An older and a newer bundle are staged, and the one called `whole` has its data file. -/
structure TwoBundles (d : Disk Text) (whole : Text) : Prop where
  sound : d.Sound
  isDir : d.isDir ["bundle".toList] = true
  trees : stagedTrees d ["bundle".toList] =
    [["old.d".toList, "bundle".toList], ["new.d".toList, "bundle".toList]]
  manifest : ∀ name ∈ ["old.d".toList, "new.d".toList],
    d.readFile (manifestPlace [name, "bundle".toList]) = .ok [123, 125]
  data : ∀ name ∈ ["old.d".toList, "new.d".toList],
    d.read (placeIn ["data".toList, name, "bundle".toList] "a.json") =
      if name = whole then some [] else none

theorem stagedSample_bundles : TwoBundles stagedSample "old.d".toList := by
  refine ⟨Disk.Sound.of_lists ?_ ?_, ?_, ?_, ?_, ?_⟩ <;> decide

theorem TwoBundles.candidates {d : Disk Text} {whole : Text} (h : TwoBundles d whole) :
    candidates d ["bundle".toList] stagedAt =
      [["new.d".toList, "bundle".toList], ["old.d".toList, "bundle".toList]] := by
  have hsorted : [["old.d".toList, "bundle".toList], ["new.d".toList, "bundle".toList]].Pairwise
      fun a b => (decide (stagedAt a ≤ stagedAt b)) = true := by
    decide
  unfold ReleaseSignature.candidates
  rw [h.trees, List.mergeSort_of_pairwise hsorted]
  rfl

theorem dataSample_accepted : verifyManifestChain dataEnv sampleRoot dataSample = .ok none := by
  have hbody : manifestSignMessage dataEnv dataSample = manifestSampleText := by
    simp [manifestSignMessage, dataEnv, hostEnv, dataSample, signedEnv, manifestBody,
      manifestSignMap]
  have hdata : manifestSignMessageData dataEnv dataSample = [123, 125] := by
    have hother : manifestBodyData dataSample ≠ manifestBody manifestSample := by decide
    simp [manifestSignMessageData, dataEnv, hostEnv, signedEnv, hother]
  have hsig : verifyManifestSig dataEnv sampleRoot dataSample = .ok () := by
    have hsome : nonEmpty dataSample.sig = some bodySig := rfl
    unfold verifyManifestSig
    rw [hsome, hbody]
    exact hostEnv_signed_iff.mpr (body_signed [123, 125])
  have hsigData : verifyManifestSigData dataEnv sampleRoot dataSample = .ok () := by
    have hsome : nonEmpty dataSample.sigData = some lineSig := rfl
    unfold verifyManifestSigData
    rw [hsome, hdata]
    exact hostEnv_signed_iff.mpr (line_signed [123, 125])
  unfold verifyManifestChain
  rw [hsig, hsigData]
  rfl

theorem dataSample_usable {staging : Disk Text} {root : List Text}
    (h : staging.readFile (manifestPlace root) = .ok [123, 125]) :
    usableManifest dataEnv (fun _ => .ok dataSample) sampleRoot staging root = .ok dataSample := by
  have hman : stagedManifest (fun _ => .ok dataSample) staging root = .ok dataSample := by
    have htext : utf8? [123, 125] = some "\x7b\x7d" := rfl
    unfold stagedManifest
    rw [h]
    dsimp only
    rw [htext]
  unfold usableManifest
  rw [hman]
  dsimp only
  rw [if_neg (by simp [dataSample]), dataSample_accepted]

theorem dataSample_intact {staging : Disk Text} {root : List Text}
    (h : staging.read (placeIn ("data".toList :: root) "a.json") = some []) :
    Intact dataEnv staging dataSample root := by
  intro f hf
  have hf : f = ("a.json", emptyHash) := List.mem_singleton.mp hf
  rw [hf]
  refine ⟨[], ?_, ?_, h, ?_⟩
  · decide
  · decide
  · decide

/-- The overlay of the first bundle fails, and the intact one is not tried. -/
theorem damaged_newest_bundle :
    ¬((∀ bundle bundleRoot man dest d, OverlayLaw dataEnv bundle bundleRoot man dest d) ∧
      BootstrapLaw dataEnv (fun _ => .ok dataSample) sampleRoot stagedSample ["bundle".toList]
        stagedAt ["data".toList] Disk.empty) := by
  have hstaged := stagedSample_bundles
  have hnew := dataSample_usable (hstaged.manifest "new.d".toList (by simp))
  have hold := dataSample_usable (hstaged.manifest "old.d".toList (by simp))
  have hintact := dataSample_intact (hstaged.data "old.d".toList (by simp))
  have hsome : SomeIntact dataEnv (fun _ => .ok dataSample) sampleRoot stagedSample
      ["bundle".toList] stagedAt :=
    ⟨hstaged.isDir, ["old.d".toList, "bundle".toList], by rw [hstaged.candidates]; simp,
      dataSample, hold, hintact⟩
  rintro ⟨-, hlaw⟩
  have h := (bootstrapLaw_iff dataEnv_lower hstaged.sound).mp hlaw
  have hinstalls := h hsome [] _ _ dataSample hstaged.candidates nofun hnew
  rcases hinstalls.1 ("a.json", emptyHash) List.mem_cons_self with ⟨src, hsrc⟩
  have hread := hsrc.read
  rw [hstaged.data "new.d".toList (by simp)] at hread
  cases hread

/-- Two staged bundles of one manifest; the data file of the older is gone. -/
def intactSample : Disk Text where
  files := [
    (["manifest.json".toList, "old.d".toList, "bundle".toList], [123, 125]),
    (["manifest.json".toList, "new.d".toList, "bundle".toList], [123, 125]),
    (["a.json".toList, "data".toList, "new.d".toList, "bundle".toList], [])]
  dirs := [["bundle".toList], ["old.d".toList, "bundle".toList], ["new.d".toList, "bundle".toList],
    ["data".toList, "new.d".toList, "bundle".toList]]

theorem intactSample_bundles : TwoBundles intactSample "new.d".toList := by
  refine ⟨Disk.Sound.of_lists ?_ ?_, ?_, ?_, ?_, ?_⟩ <;> decide

theorem intactSample_installs : NewestInstalls dataEnv (fun _ => .ok dataSample) sampleRoot
    intactSample ["bundle".toList] stagedAt ["data".toList] Disk.empty := by
  have hnew := dataSample_usable (intactSample_bundles.manifest "new.d".toList (by simp))
  intro _ newer root older man hsplit hnone hman
  rw [intactSample_bundles.candidates] at hsplit
  cases newer with
  | cons first rest =>
      have hfirst := (List.cons.inj hsplit).1
      exact absurd hnew (hfirst ▸ hnone first List.mem_cons_self dataSample)
  | nil =>
      have hroot := (List.cons.inj hsplit).1
      rw [← hroot, hnew] at hman
      cases hman
      rw [← hroot]
      refine ⟨dataSample_intact (intactSample_bundles.data "new.d".toList (by simp)), ?_⟩
      intro f hf
      have hf : f = ("a.json", emptyHash) := List.mem_singleton.mp hf
      rw [hf]
      exact Or.inr ⟨fun _ _ => rfl, rfl⟩

/-- The newer bundle is installed into an empty data directory. -/
theorem intact_sample_law :
    ((∀ bundle bundleRoot man dest d, OverlayLaw dataEnv bundle bundleRoot man dest d) ∧
        BootstrapLaw dataEnv (fun _ => .ok dataSample) sampleRoot intactSample
          ["bundle".toList] stagedAt ["data".toList] Disk.empty) ∧
      ∃ installed, (bootstrapDataTree dataEnv (fun _ => .ok dataSample) sampleRoot intactSample
        ["bundle".toList] stagedAt ["data".toList] Disk.empty).1 = .ok installed := by
  have hstaged := intactSample_bundles
  have hlaw := (data_tree_law_iff dataEnv dataEnv_lower (fun _ => .ok dataSample) sampleRoot
    intactSample hstaged.sound ["bundle".toList] stagedAt ["data".toList] Disk.empty).mpr
      intactSample_installs
  refine ⟨hlaw, hlaw.2.succeeds ⟨hstaged.isDir, ["new.d".toList, "bundle".toList], ?_, dataSample,
    dataSample_usable (hstaged.manifest "new.d".toList (by simp)),
    dataSample_intact (hstaged.data "new.d".toList (by simp))⟩⟩
  rw [hstaged.candidates]
  exact List.mem_cons_self

end ReleaseSignature

end GrServer
