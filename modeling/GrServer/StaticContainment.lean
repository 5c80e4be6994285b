import GrServer.StaticFiles

/-!
# Where a served path leads

Leading slashes are trimmed before the `..` pairs are deleted.  A routed name
that starts with an even number of dots and a slash therefore ends up absolute
and replaces the static directory; every other name stays below it.  The
logical names of the reverse map are those of files that were under the
directory when they were recorded.
-/

namespace GrServer

open LexicalPath Text

namespace StaticFiles

/-- The path `resolveStatic` gives is the root joined with a relative path
without `..` components, and leads below the root. -/
def Contained (root rel : Text) : Prop :=
  ∃ r, resolveStatic root rel = .inside root r ∧
    ['.', '.'] ∉ components r ∧
    ∀ cwd, resolve cwd root <:+ resolve cwd (resolveStatic root rel).text

/-- Behind its leading slashes, `s` does not start with an even number of dots
and a slash. -/
def StartsBelow (s : Text) : Prop :=
  ¬ EvenRunBefore '.' '/' (trimStartMatches '/' s)

instance (s : Text) : Decidable (StartsBelow s) :=
  inferInstanceAs (Decidable (¬ _))

theorem isAbsolute_cleanRel (rel : Text) :
    isAbsolute (cleanRel rel) = true ↔ ¬ StartsBelow rel := by
  unfold StartsBelow isAbsolute cleanRel
  rw [not_not, beq_iff_eq]
  exact head?_deletePairs (by decide) _

theorem cleanRel_no_parent (rel : Text) :
    ['.', '.'] ∉ components (cleanRel rel) := by
  intro hmem
  exact not_pair_infix_deletePairs '.' _ (infix_of_mem_components hmem)

theorem contained_iff_startsBelow (root rel : Text) :
    Contained root rel ↔ StartsBelow rel := by
  have habs := isAbsolute_cleanRel rel
  constructor
  · rintro ⟨r, hjoin, -, -⟩
    by_contra hbelow
    unfold resolveStatic join at hjoin
    rw [if_pos (habs.mpr hbelow)] at hjoin
    cases hjoin
  · intro hbelow
    have hrel : isAbsolute (cleanRel rel) = false := by
      rw [Bool.eq_false_iff]
      intro h
      exact habs.mp h hbelow
    have hjoin : resolveStatic root rel = .inside root (cleanRel rel) := by
      unfold resolveStatic join
      rw [hrel]
      rfl
    refine ⟨cleanRel rel, hjoin, cleanRel_no_parent rel, ?_⟩
    intro cwd
    rw [hjoin]
    exact suffix_resolve_join cwd hrel (cleanRel_no_parent rel)

/-! ## What routing does to the start of a name -/

theorem startsBelow_of_no_slash {s : Text} (hs : '/' ∉ s) : StartsBelow s := by
  apply not_evenRunBefore_of_not_mem
  intro hmem
  exact hs ((List.dropWhile_sublist _).subset hmem)

theorem unhashed_no_slash {file stem : Text} {ext : String}
    (hfile : '/' ∉ file) (hstem : '/' ∉ stem) (hext : '/' ∉ ext.toList) :
    '/' ∉ unhashed file stem ext := by
  unfold unhashed
  cases hsplit : rsplitOnce '.' stem with
  | none => exact hfile
  | some parts =>
      obtain ⟨base, hash⟩ := parts
      obtain ⟨hparts, -⟩ := rsplitOnce_eq_some hsplit
      dsimp only
      by_cases htoken : isContentHashToken hash = true
      · rw [if_pos htoken, List.mem_append, not_or]
        refine ⟨?_, hext⟩
        intro hbase
        apply hstem
        rw [hparts]
        exact List.mem_append_left _ hbase
      · rw [if_neg htoken]
        exact hfile

theorem hashedExtensions_no_slash :
    ∀ ext ∈ hashedExtensions, '/' ∉ ext.toList := by
  decide

theorem unhashedFile_no_slash {file : Text} (hfile : '/' ∉ file) :
    '/' ∉ unhashedFile file := by
  unfold unhashedFile
  cases hfind : hashedExtensions.findSome? fun ext =>
      (stripSuffix ext file).map fun stem => unhashed file stem ext with
  | none => exact hfile
  | some name =>
      obtain ⟨ext, hmem, hname⟩ := List.exists_of_findSome?_eq_some hfind
      obtain ⟨stem, hstem, hname⟩ := Option.map_eq_some_iff.mp hname
      have hext := hashedExtensions_no_slash ext hmem
      have hstem' : '/' ∉ stem := by
        obtain ⟨rest, hsplit, -⟩ := List.dropSuffix?_eq_some_iff.mp hstem
        intro hslash
        apply hfile
        rw [hsplit]
        exact List.mem_append_left _ hslash
      rw [Option.getD_some, ← hname]
      exact unhashed_no_slash hfile hstem' hext

theorem head?_trimStartMatches (s : Text) :
    (trimStartMatches '/' s).head? ≠ some '/' := by
  unfold trimStartMatches
  intro hhead
  have hnot := List.head?_dropWhile_not (fun c : Char => decide (c = '/')) s
  rw [hhead] at hnot
  simp at hnot

theorem trimStartMatches_eq_self {s : Text} (hs : s.head? ≠ some '/') :
    trimStartMatches '/' s = s := by
  unfold trimStartMatches
  cases s with
  | nil => rfl
  | cons c cs =>
      have hc : c ≠ '/' := by
        intro hc
        exact hs (by rw [hc]; rfl)
      rw [List.dropWhile_cons_of_neg (by simpa using hc)]

theorem startsBelow_stripContentHashFilename (rel : Text) :
    StartsBelow (stripContentHashFilename rel) ↔ StartsBelow rel := by
  have htrim := head?_trimStartMatches rel
  unfold stripContentHashFilename
  dsimp only
  cases hsplit : rsplitOnce '/' (trimStartMatches '/' rel) with
  | none =>
      have hslash := rsplitOnce_eq_none hsplit
      have hrel : StartsBelow rel := not_evenRunBefore_of_not_mem hslash
      have hfile := startsBelow_of_no_slash (unhashedFile_no_slash hslash)
      exact iff_of_true hfile hrel
  | some parts =>
      obtain ⟨dir, file⟩ := parts
      obtain ⟨hparts, hfile⟩ := rsplitOnce_eq_some hsplit
      have hdir : dir ≠ [] := by
        intro hdir
        rw [hparts, hdir] at htrim
        exact htrim rfl
      have hhead (tail : Text) : (dir ++ '/' :: tail).head? ≠ some '/' := by
        obtain ⟨c, cs, rfl⟩ := List.exists_cons_of_ne_nil hdir
        rw [hparts] at htrim
        exact htrim
      unfold StartsBelow
      dsimp only
      rw [if_neg hdir, trimStartMatches_eq_self (hhead _), hparts]
      exact not_congr (evenRunBefore_append (by decide) dir _ _)

theorem aliasOf_eq_some {table : List (List String × String)}
    {name target : Text} (h : aliasOf table name = some target) :
    ∃ row ∈ table, (∃ listed ∈ row.1, listed.toList = name) ∧
      row.2.toList = target := by
  unfold aliasOf at h
  obtain ⟨row, hrow, htarget⟩ := Option.map_eq_some_iff.mp h
  have hmem := List.mem_of_find?_eq_some hrow
  have hlisted := List.find?_some hrow
  refine ⟨row, hmem, ?_, htarget⟩
  simpa using hlisted

theorem bootAliases_no_slash :
    ∀ row ∈ bootAliases, '/' ∉ row.2.toList ∧
      ∀ listed ∈ row.1, '/' ∉ listed.toList := by
  decide

theorem fullPathAliases_startsBelow :
    ∀ row ∈ fullPathAliases, StartsBelow row.2.toList ∧
      ∀ listed ∈ row.1, StartsBelow (pathNv listed.toList) := by
  decide

theorem startsBelow_mapLogical (logical : Text) :
    StartsBelow (mapLogical logical) ↔ StartsBelow logical := by
  unfold mapLogical mapBootAlias
  cases halias : aliasOf bootAliases logical with
  | none => rfl
  | some target =>
      obtain ⟨row, hrow, ⟨listed, hlisted, hname⟩, htarget⟩ :=
        aliasOf_eq_some halias
      obtain ⟨htargets, hnames⟩ := bootAliases_no_slash row hrow
      have hslash := hnames listed hlisted
      rw [htarget] at htargets
      rw [hname] at hslash
      exact iff_of_true (startsBelow_of_no_slash htargets)
        (startsBelow_of_no_slash hslash)

theorem startsBelow_fixedRel {path rel : Text}
    (h : fixedRel path = some rel) :
    StartsBelow rel ↔ StartsBelow (pathNv path) := by
  unfold fixedRel at h
  cases halias : aliasOf fullPathAliases path with
  | some target =>
      rw [halias, Option.some.injEq] at h
      obtain ⟨row, hrow, ⟨listed, hlisted, hname⟩, htarget⟩ :=
        aliasOf_eq_some halias
      obtain ⟨htargets, hnames⟩ := fullPathAliases_startsBelow row hrow
      have hpath := hnames listed hlisted
      rw [htarget, h] at htargets
      rw [hname] at hpath
      exact iff_of_true htargets hpath
  | none =>
      rw [halias] at h
      dsimp only at h
      split_ifs at h
      rw [Option.some.injEq] at h
      rw [← h, startsBelow_mapLogical, startsBelow_stripContentHashFilename]

/-! ## The reverse map -/

/-- A file the name stands for was under the directory. -/
def Recorded (ever : List StaticFile) (logical : Text) : Prop :=
  ∃ f ∈ ever, f.rel = diskName logical

structure MapRecorded (d : StaticDir) : Prop where
  listed : ∀ f ∈ d.files, f ∈ d.ever
  recorded : ∀ name logical, opaqueMapLookup d name = some logical →
    bareToken name = true → Recorded d.ever logical

section Runs

variable {sha256Hex : List UInt8 → Text}

theorem trimStartMatches_idem (s : Text) :
    trimStartMatches '/' (trimStartMatches '/' s) = trimStartMatches '/' s :=
  trimStartMatches_eq_self (head?_trimStartMatches s)

theorem diskName_trimStartMatches (logical : Text) :
    diskName (trimStartMatches '/' logical) = diskName logical := by
  unfold diskName sealV2Physical
  dsimp only
  rw [trimStartMatches_idem]
  split_ifs
  · rfl
  · rfl
  · exact trimStartMatches_idem logical

theorem bareToken_missing :
    bareToken (missingToken ++ ".bin".toList) = false ∧
      ∀ ext ∈ hashedExtensions,
        bareToken (missingToken ++ ext.toList) = false := by
  decide

theorem trim_missingToken : trim missingToken = missingToken := by
  decide

theorem recorded_of_public_name {d : StaticDir} {logical : Text}
    (hlisted : ∀ f ∈ d.files, f ∈ d.ever)
    (htoken : bareToken (opaquePublicFilename logical
      (fileContentHash12 sha256Hex d logical)) = true) :
    Recorded d.ever logical := by
  unfold fileContentHash12 at htoken
  cases hfile : d.files.find? fun f => f.rel = diskName logical with
  | some f =>
      have hmem := List.mem_of_find?_eq_some hfile
      have hname := List.find?_some hfile
      exact ⟨f, hlisted f hmem, by simpa using hname⟩
  | none =>
      rw [hfile] at htoken
      unfold opaquePublicFilename at htoken
      have hne : missingToken ≠ [] := by decide
      dsimp only at htoken
      rw [trim_missingToken, if_neg hne] at htoken
      cases hext : hashedExtensions.find? fun ext =>
          endsWith (trimStartMatches '/' logical) ext with
      | none =>
          rw [hext] at htoken
          rw [bareToken_missing.1] at htoken
          cases htoken
      | some ext =>
          rw [hext] at htoken
          have hmem := List.mem_of_find?_eq_some hext
          rw [bareToken_missing.2 ext hmem] at htoken
          cases htoken

theorem MapRecorded.writeMap {d : StaticDir} {m : SortedMap Text Text}
    (h : MapRecorded d)
    (hm : ∀ name logical, m.get? name = some logical →
      bareToken name = true → Recorded d.ever logical) :
    MapRecorded (d.writeMap m) := by
  unfold StaticDir.writeMap
  cases d.writable with
  | false => exact h
  | true => exact { listed := h.listed, recorded := hm }

theorem MapRecorded.hashedAssetUrl {d : StaticDir} (h : MapRecorded d)
    (logical : Text) : MapRecorded (hashedAssetUrl sha256Hex d logical) := by
  unfold StaticFiles.hashedAssetUrl opaqueMapInsert
  apply h.writeMap
  intro name found hfound htoken
  rw [SortedMap.get?_insert] at hfound
  split_ifs at hfound with hname
  · rw [Option.some.injEq] at hfound
    rw [hname] at htoken
    obtain ⟨f, hf, hrel⟩ := recorded_of_public_name h.listed htoken
    refine ⟨f, hf, ?_⟩
    rw [hrel, ← hfound, diskName_trimStartMatches]
  · apply h.recorded name found ?_ htoken
    unfold opaqueMapLookup
    cases hmap : d.opaqueMap with
    | none =>
        rw [hmap] at hfound
        cases hfound
    | some m =>
        rw [hmap] at hfound
        exact hfound

theorem MapRecorded.rebuildOpaqueMap {d : StaticDir} (h : MapRecorded d) :
    MapRecorded (rebuildOpaqueMap sha256Hex d) := by
  unfold StaticFiles.rebuildOpaqueMap
  apply h.writeMap
  -- every map of the fold holds recorded names only
  have hfold (files : List StaticFile) (m : SortedMap Text Text)
      (hm : ∀ name logical, m.get? name = some logical →
        bareToken name = true → Recorded d.ever logical) :
      ∀ name logical, (files.foldl (fun m f =>
          m.insert (opaquePublicFilename (recordedRel f.rel)
            (fileContentHash12 sha256Hex d (recordedRel f.rel)))
              (recordedRel f.rel)) m).get? name = some logical →
        bareToken name = true → Recorded d.ever logical := by
    induction files generalizing m with
    | nil => exact hm
    | cons f files ih =>
        apply ih
        intro name logical hfound htoken
        rw [SortedMap.get?_insert] at hfound
        split_ifs at hfound with hname
        · rw [Option.some.injEq] at hfound
          rw [hname] at htoken
          rw [← hfound]
          exact recorded_of_public_name h.listed htoken
        · exact hm name logical hfound htoken
  apply hfold
  intro name logical hfound
  cases hfound

theorem opaqueLogical_mapRecorded {d : StaticDir} (h : MapRecorded d)
    (file : Text) : MapRecorded (opaqueLogical sha256Hex file d).2 := by
  unfold opaqueLogical
  split_ifs
  · cases opaqueMapLookup d file with
    | some logical => exact h
    | none => exact h.rebuildOpaqueMap
  · exact h

theorem opaqueLogical_recorded {d : StaticDir} (h : MapRecorded d)
    {file logical : Text}
    (hlookup : (opaqueLogical sha256Hex file d).1 = some logical) :
    Recorded (opaqueLogical sha256Hex file d).2.ever logical := by
  have hafter : MapRecorded (opaqueLogical sha256Hex file d).2 :=
    opaqueLogical_mapRecorded h file
  unfold opaqueLogical at hlookup hafter ⊢
  split_ifs at hlookup hafter ⊢ with htoken
  cases hfound : opaqueMapLookup d file with
  | some found =>
      rw [hfound, Option.some.injEq] at hlookup
      rw [← hlookup]
      exact h.recorded file found hfound htoken
  | none =>
      rw [hfound] at hlookup hafter
      exact hafter.recorded file logical hlookup htoken

theorem staticRel_snd (path : Text) (d : StaticDir) :
    (staticRel sha256Hex path d).2 =
      (opaqueLogical sha256Hex (basename (pathNv path)) d).2 := by
  unfold staticRel
  rcases opaqueLogical sha256Hex (basename (pathNv path)) d with
    ⟨_ | logical, after⟩
  · rfl
  · rfl

theorem MapRecorded.step {d : StaticDir} (h : MapRecorded d) (e : Event) :
    MapRecorded (step sha256Hex d e) := by
  cases e with
  | deploy files writable keepMap =>
      refine { listed := ?_, recorded := ?_ }
      · intro f hf
        exact List.mem_append_right _ hf
      · intro name logical hfound htoken
        cases keepMap with
        | false => cases hfound
        | true =>
            obtain ⟨f, hf, hrel⟩ := h.recorded name logical hfound htoken
            exact ⟨f, List.mem_append_left _ hf, hrel⟩
  | bootstrap => exact h.rebuildOpaqueMap
  | assetUrl logical => exact h.hashedAssetUrl logical
  | request path =>
      change MapRecorded (staticRel sha256Hex path d).2
      rw [staticRel_snd]
      exact opaqueLogical_mapRecorded h _

theorem fresh_mapRecorded : MapRecorded fresh where
  listed := by
    intro f hf
    cases hf
  recorded := by
    intro name logical hfound
    cases hfound

/-- The name a request is routed to: the opaque logical name where there is
one, and the path behind its route and version segments otherwise. -/
def routedName (sha256Hex : List UInt8 → Text) (path : Text) (d : StaticDir) :
    Text :=
  (opaqueLogical sha256Hex (basename (pathNv path)) d).1.getD (pathNv path)

theorem startsBelow_staticRel {path rel : Text} {d : StaticDir}
    (h : (staticRel sha256Hex path d).1 = some rel) :
    StartsBelow rel ↔ StartsBelow (routedName sha256Hex path d) := by
  unfold staticRel at h
  unfold routedName
  rcases hlookup : opaqueLogical sha256Hex (basename (pathNv path)) d with
    ⟨_ | logical, after⟩
  · rw [hlookup] at h
    exact startsBelow_fixedRel h
  · rw [hlookup] at h
    have hrel : mapLogical logical = rel := Option.some.inj h
    rw [← hrel]
    exact startsBelow_mapLogical logical

/-- In every reachable directory a resolved path is contained, and an opaque
name recorded, exactly when the routed name starts below the root. -/
theorem static_contained_iff (events : List Event) (root path rel : Text)
    (hrel : (staticRel sha256Hex path
      (runFrom (step sha256Hex) fresh events)).1 = some rel) :
    (Contained root rel ∧
        ∀ logical, (opaqueLogical sha256Hex (basename (pathNv path))
            (runFrom (step sha256Hex) fresh events)).1 = some logical →
          Recorded (staticRel sha256Hex path
            (runFrom (step sha256Hex) fresh events)).2.ever logical) ↔
      StartsBelow (routedName sha256Hex path
        (runFrom (step sha256Hex) fresh events)) := by
  have hmap : MapRecorded (runFrom (step sha256Hex) fresh events) :=
    runFrom_invariant (fun d e hd => hd.step e) fresh_mapRecorded events
  rw [contained_iff_startsBelow, startsBelow_staticRel hrel]
  constructor
  · rintro ⟨hbelow, -⟩
    exact hbelow
  · intro hbelow
    refine ⟨hbelow, ?_⟩
    intro logical hlookup
    rw [staticRel_snd]
    exact opaqueLogical_recorded hmap hlookup

def noHash : List UInt8 → Text :=
  fun _ => []

/-- A versioned collector path of the bootstrap manifest. -/
theorem versioned_collector_contained :
    Contained "/srv/fe".toList "collectors/registry.mid.min.js".toList := by
  have hiff := @static_contained_iff noHash [.bootstrap] "/srv/fe".toList
    "/dist/v/6.0.14/g/deadbeef0123/collectors/registry.mid.min.js".toList
    "collectors/registry.mid.min.js".toList (by decide)
  exact (hiff.mpr (by decide)).1

/-- Two dots and a slash behind `/dist/` make the path absolute. -/
theorem parent_segment_escapes :
    (staticRel noHash "/dist/../etc/passwd".toList fresh).1 =
        some "../etc/passwd".toList ∧
      resolveStatic "/srv/fe".toList "../etc/passwd".toList =
        .replaced "/etc/passwd".toList ∧
      ¬ Contained "/srv/fe".toList "../etc/passwd".toList := by
  refine ⟨by decide, by decide, ?_⟩
  rw [contained_iff_startsBelow]
  decide

end Runs

end StaticFiles

end GrServer
