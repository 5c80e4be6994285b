import GrServer.HashedNames

/-!
# What a hashed asset URL serves

A hashed URL ends in a content hash and an extension.  The request for it is
looked up in the reverse map, and the name found there goes through the boot
aliases and the deletion of `..` before it is opened.  The hash was taken of
the file under the logical name, so the two agree as long as neither step
changes the name.
-/

namespace GrServer

open LexicalPath Text

namespace StaticFiles

/-! ## URLs and what they lead to -/

def trimEndMatches (c : Char) (s : Text) : Text :=
  (s.reverse.dropWhile (· = c)).reverse

/-- The server's files, by the names from the innermost to the root, and
where the static directory is among them. -/
structure Site where
  sha256Hex : List UInt8 → Text
  read : List Text → Option (List UInt8)
  cwd : List Text
  root : Text

namespace Site

variable (site : Site)

def token (d : StaticDir) (logical : Text) : Text :=
  fileContentHash12 site.sha256Hex d logical

def publicName (d : StaticDir) (logical : Text) : Text :=
  opaquePublicFilename logical (site.token d logical)

/-- The path of the URL `hashed_asset_url` returns; `distRoot` is the path of
the asset root. -/
def assetUrl (d : StaticDir) (distRoot logical : Text) : Text :=
  trimEndMatches '/' distRoot ++
    '/' :: trimStartMatches '/' (site.publicName d logical)

def Reaches (rel token : Text) : Prop :=
  ∃ bytes, site.read (resolve site.cwd (resolveStatic site.root rel).text) =
      some bytes ∧ (site.sha256Hex bytes).take 12 = token

/-- A request for `path` is answered with a file of this content hash. -/
def Serves (d : StaticDir) (path token : Text) : Prop :=
  ∃ rel, (staticRel site.sha256Hex path d).1 = some rel ∧ site.Reaches rel token

/-- The files of the listing are the ones below the static directory. -/
def Shows (d : StaticDir) : Prop :=
  ∀ f ∈ d.files, site.read (walk (resolve site.cwd site.root) f.rel) = some f.bytes

/-- A digest is written with 64 hex digits. -/
structure HexDigest : Prop where
  length : ∀ bytes, (site.sha256Hex bytes).length = 64
  hex : ∀ bytes, ∀ c ∈ site.sha256Hex bytes, isAsciiHexdigit c = true

end Site

/-- `logical` names a file of the tree with one of the shipped extensions. -/
def NamesAsset (d : StaticDir) (logical : Text) : Prop :=
  ∃ f ∈ d.files, f.rel = diskName logical ∧
    ∃ ext ∈ hashedExtensions, endsWith f.rel ext = true

def renamedBoots : List String :=
  ["mp.boot.min.js", "mp.boot.js", "gr.js", "gr.pin.js"]

/-- Neither the boot aliases nor the deletion of `..` change the name. -/
def KeptName (logical : Text) : Prop :=
  (∀ name ∈ renamedBoots, trimStartMatches '/' logical ≠ name.toList) ∧
    ¬ ['.', '.'] <:+: logical

def Routed (path : Text) : Bool :=
  startsWithText path "/dist/" || startsWithText path "/fe/"

def rebuiltEntry (site : Site) (d : StaticDir) (name : Text) : Option Text :=
  ((d.files.filter fun f => walked f.rel).reverse.find? fun f =>
    site.publicName d (recordedRel f.rel) = name).map fun f => recordedRel f.rel

namespace Site

variable (site : Site)

def Leads (path token : Text) : Option Text → Prop
  | some logical => site.Reaches (mapLogical logical) token
  | none => Routed path = true ∧ site.Reaches (pathNv path) token

/-- The condition after `hashed_asset_url`. -/
def UrlLeads (d : StaticDir) (distRoot logical : Text) : Prop :=
  if d.writable then
    KeptName logical ∨
      site.Reaches (mapLogical (trimStartMatches '/' logical))
        (site.token d logical)
  else
    site.Leads (site.assetUrl d distRoot logical) (site.token d logical)
      (opaqueMapLookup d (site.publicName d logical))

/-- The condition after `rebuild_opaque_map`. -/
def RebuildLeads (d : StaticDir) (distRoot logical : Text) : Prop :=
  site.Leads (site.assetUrl d distRoot logical) (site.token d logical)
    (if d.writable then rebuiltEntry site d (site.publicName d logical)
    else opaqueMapLookup d (site.publicName d logical))

end Site

theorem basename_of_no_slash {name : Text} (h : '/' ∉ name) :
    basename name = name := by
  unfold basename
  cases hsplit : rsplitOnce '/' name with
  | none => rfl
  | some parts =>
      obtain ⟨hparts, -⟩ := rsplitOnce_eq_some hsplit
      rw [hparts] at h
      exact absurd (List.mem_append_right _ List.mem_cons_self) h

theorem basename_append_slash (front tail : Text) :
    basename (front ++ '/' :: tail) = basename tail := by
  cases hsplit : rsplitOnce '/' tail with
  | none =>
      have htail := rsplitOnce_eq_none hsplit
      unfold basename
      rw [rsplitOnce_of_not_mem htail, hsplit]
  | some parts =>
      obtain ⟨dir, file⟩ := parts
      obtain ⟨hparts, hfile⟩ := rsplitOnce_eq_some hsplit
      have hwhole : front ++ '/' :: tail = (front ++ '/' :: dir) ++ '/' :: file := by
        rw [hparts, List.append_assoc, List.cons_append]
      unfold basename
      rw [hwhole, rsplitOnce_of_not_mem hfile, hsplit]

theorem basename_trimStartMatches (s : Text) :
    basename (trimStartMatches '/' s) = basename s := by
  induction s with
  | nil => rfl
  | cons c cs ih =>
      by_cases hc : c = '/'
      · have htrim : trimStartMatches '/' (c :: cs) = trimStartMatches '/' cs := by
          unfold trimStartMatches
          rw [List.dropWhile_cons_of_pos (by simpa using hc)]
        have hslash := basename_append_slash [] cs
        rw [htrim, ih, hc]
        exact hslash.symm
      · rw [trimStartMatches_eq_self]
        simpa using hc

theorem stripPrefix_eq_some {p : String} {s rest : Text}
    (h : stripPrefix p s = some rest) : s = p.toList ++ rest := by
  unfold stripPrefix at h
  obtain ⟨before, hs, hbefore⟩ := List.dropPrefix?_eq_some_iff.mp h
  rw [hs, eq_of_beq hbefore]

theorem basename_stripPrefix {p : String} (front : Text)
    (hp : p.toList = front ++ ['/']) {s rest : Text}
    (h : stripPrefix p s = some rest) : basename s = basename rest := by
  rw [stripPrefix_eq_some h, hp, List.append_assoc]
  exact basename_append_slash front rest

theorem basename_splitOnce {s before after : Text}
    (h : splitOnce '/' s = some (before, after)) : basename s = basename after := by
  rw [(splitOnce_eq_some h).1]
  exact basename_append_slash before after

theorem basename_stripVersionRoute (rel : Text) :
    basename (stripVersionRoute rel) = basename rel := by
  rw [← basename_trimStartMatches rel]
  unfold stripVersionRoute
  dsimp only
  cases hv : stripPrefix "v/" (trimStartMatches '/' rel) with
  | none => rfl
  | some rest =>
      have hrest := basename_stripPrefix ['v'] rfl hv
      dsimp only
      cases hver : splitOnce '/' rest with
      | none => rfl
      | some parts =>
          obtain ⟨ver, afterVer⟩ := parts
          have hafter := basename_splitOnce hver
          dsimp only
          cases hg : stripPrefix "g/" afterVer with
          | none => rw [hrest, hafter]
          | some afterG =>
              have hafterG := basename_stripPrefix ['g'] rfl hg
              dsimp only
              cases hgen : splitOnce '/' afterG with
              | none => rfl
              | some parts =>
                  obtain ⟨gen, file⟩ := parts
                  rw [hrest, hafter, hafterG, basename_splitOnce hgen]

theorem basename_pathNv (path : Text) : basename (pathNv path) = basename path := by
  unfold pathNv
  cases hdist : stripPrefix "/dist/" path with
  | some r =>
      have hpath := basename_stripPrefix "/dist".toList rfl hdist
      rw [hpath]
      exact basename_stripVersionRoute r
  | none =>
      dsimp only
      cases hfe : stripPrefix "/fe/" path with
      | some r =>
          have hpath := basename_stripPrefix "/fe".toList rfl hfe
          rw [hpath]
          exact basename_stripVersionRoute r
      | none => rfl

/-! ## Token file names -/

theorem byteLen_of_hex {t : Text} (ht : ∀ c ∈ t, isAsciiHexdigit c = true) :
    byteLen t = t.length := by
  have hsize : ∀ c : Char, isAsciiHexdigit c = true → c.utf8Size = 1 := by
    intro c hc
    rw [Char.utf8Size_eq_one_iff]
    have hrange := isAsciiHexdigit_range hc
    exact UInt32.le_iff_toNat_le.mpr (by simpa using by omega)
  unfold byteLen
  induction t with
  | nil => rfl
  | cons c cs ih =>
      rw [List.map_cons, List.sum_cons, List.length_cons,
        hsize c (ht c List.mem_cons_self), ih]
      · omega
      · intro d hd
        exact ht d (List.mem_cons_of_mem c hd)

theorem isContentHashToken_of_hex {t : Text}
    (ht : ∀ c ∈ t, isAsciiHexdigit c = true) (hlength : t.length = 12) :
    isContentHashToken t = true := by
  unfold isContentHashToken
  rw [byteLen_of_hex ht, hlength]
  simpa using ht

theorem not_containsText {file : Text} {p : String} {c : Char}
    (hp : c ∈ p.toList) (hc : c ∉ file) : containsText file p = false := by
  unfold containsText
  rw [decide_eq_false_iff_not]
  intro hinside
  exact hc (hinside.subset hp)

theorem bareToken_token {token : Text} (ht : isContentHashToken token = true)
    {ext : String} (hext : ext ∈ hashedExtensions) :
    bareToken (token ++ ext.toList) = true := by
  have hhex := hex_of_token ht
  have habsent (c : Char) (hc : isAsciiHexdigit c = false)
      (hexts : ∀ ext ∈ hashedExtensions, c ∉ ext.toList) :
      c ∉ token ++ ext.toList := by
    rw [List.mem_append, not_or]
    exact ⟨not_mem_of_hex hhex hc, hexts ext hext⟩
  have hg := habsent 'g' (by decide) (by decide)
  have hunderscore := habsent '_' (by decide) (by decide)
  have hbase := findSome?_stripSuffix (fun _ stem => stem)
    (find?_hashed (Or.inl rfl) (endsInHex_of_hex hhex (ne_nil_of_token ht)) hext)
  simp only [Option.map_id'] at hbase
  have hdots : ∀ ext ∈ hashedExtensions, ext.toList.count '.' ≤ 2 := by
    decide
  have htoken : token.count '.' = 0 :=
    List.count_eq_zero.mpr (not_mem_of_hex hhex (by decide))
  unfold bareToken
  rw [hbase, not_containsText (p := "gr") (by decide) hg,
    not_containsText (p := "registry") (by decide) hg,
    not_containsText (p := "pack_loader") (by decide) hunderscore,
    not_containsText (p := "nest_frame") (by decide) hunderscore,
    List.count_append, htoken]
  simpa [ht] using hdots ext hext

theorem token_no_slash {token : Text} (ht : isContentHashToken token = true)
    {ext : String} (hext : ext ∈ hashedExtensions) :
    '/' ∉ token ++ ext.toList := by
  rw [List.mem_append, not_or]
  exact ⟨not_mem_of_hex (hex_of_token ht) (by decide),
    hashedExtensions_no_slash ext hext⟩

theorem aliasOf_of_bareToken {table : List (List String × String)}
    (htable : ∀ row ∈ table, ∀ listed ∈ row.1,
      bareToken (basename listed.toList) = false)
    {path : Text} (hbare : bareToken (basename path) = true) :
    aliasOf table path = none := by
  cases halias : aliasOf table path with
  | none => rfl
  | some target =>
      obtain ⟨row, hrow, ⟨listed, hlisted, hname⟩, -⟩ := aliasOf_eq_some halias
      have hnot := htable row hrow listed hlisted
      rw [hname, hbare] at hnot
      cases hnot

theorem fullPathAliases_no_token :
    ∀ row ∈ fullPathAliases, ∀ listed ∈ row.1,
      bareToken (basename listed.toList) = false := by
  decide

theorem bootAliases_no_token :
    ∀ row ∈ bootAliases, ∀ listed ∈ row.1,
      bareToken (basename listed.toList) = false := by
  decide

theorem strip_of_unhashed_basename {rel : Text}
    (hfile : unhashedFile (basename rel) = basename rel) :
    stripContentHashFilename rel = trimStartMatches '/' rel := by
  have htrim := head?_trimStartMatches rel
  rw [← basename_trimStartMatches rel] at hfile
  unfold stripContentHashFilename
  dsimp only
  unfold basename at hfile
  cases hsplit : rsplitOnce '/' (trimStartMatches '/' rel) with
  | none =>
      rw [hsplit] at hfile
      exact hfile
  | some parts =>
      obtain ⟨dir, file⟩ := parts
      obtain ⟨hparts, -⟩ := rsplitOnce_eq_some hsplit
      rw [hsplit] at hfile
      have hdir : dir ≠ [] := by
        intro hdir
        rw [hparts, hdir] at htrim
        exact htrim rfl
      dsimp only at hfile ⊢
      rw [if_neg hdir, hfile, hparts]

theorem fixedRel_token {token path : Text} (ht : isContentHashToken token = true)
    {ext : String} (hext : ext ∈ hashedExtensions)
    (hpath : basename path = token ++ ext.toList) :
    fixedRel path =
      if Routed path then some (trimStartMatches '/' (pathNv path)) else none := by
  have hbare : bareToken (basename path) = true := by
    rw [hpath]
    exact bareToken_token ht hext
  have hstrip : stripContentHashFilename (pathNv path) =
      trimStartMatches '/' (pathNv path) := by
    apply strip_of_unhashed_basename
    rw [basename_pathNv, hpath]
    exact unhashedFile_token ht hext
  have hboot : mapLogical (trimStartMatches '/' (pathNv path)) =
      trimStartMatches '/' (pathNv path) := by
    have hnone : mapBootAlias (trimStartMatches '/' (pathNv path)) = none := by
      apply aliasOf_of_bareToken bootAliases_no_token
      rw [basename_trimStartMatches, basename_pathNv]
      exact hbare
    unfold mapLogical
    rw [hnone]
    rfl
  unfold fixedRel
  rw [aliasOf_of_bareToken fullPathAliases_no_token hbare, hstrip, hboot]
  rfl

/-! ## Names that keep their file -/

theorem deletePairs_eq_self {c : Char} {s : Text} (h : ¬ [c, c] <:+: s) :
    deletePairs c s = s := by
  fun_induction deletePairs c s with
  | case1 a b rest hpair ih =>
      rcases hpair with ⟨rfl, rfl⟩
      exact absurd ⟨[], rest, rfl⟩ h
  | case2 a b rest hpair ih =>
      rw [ih]
      intro hinside
      exact h (hinside.trans (List.suffix_cons a _).isInfix)
  | case3 a => rfl
  | case4 => rfl

theorem mapLogical_of_not_renamed {logical : Text}
    (h : ∀ name ∈ renamedBoots, trimStartMatches '/' logical ≠ name.toList) :
    mapLogical (trimStartMatches '/' logical) = diskName logical := by
  rw [← diskName_trimStartMatches]
  have htable : ∀ row ∈ bootAliases, ∀ listed ∈ row.1,
      listed ∈ renamedBoots ∨ row.2.toList = diskName listed.toList := by
    decide
  have hseals : ∀ name ∈ ["gr_seal_v2.wasm", "gr_seal_v2_loader.js"],
      mapBootAlias name.toList ≠ none := by
    decide
  unfold mapLogical
  cases halias : mapBootAlias (trimStartMatches '/' logical) with
  | some target =>
      obtain ⟨row, hrow, ⟨listed, hlisted, hname⟩, htarget⟩ :=
        aliasOf_eq_some halias
      rcases htable row hrow listed hlisted with hrenamed | hkept
      · exact absurd hname.symm (h listed hrenamed)
      · rw [Option.getD_some, ← htarget, hkept, hname]
  | none =>
      unfold diskName sealV2Physical
      dsimp only
      rw [trimStartMatches_idem, if_neg, if_neg, trimStartMatches_idem]
      · rfl
      · intro hname
        rw [hname] at halias
        exact hseals "gr_seal_v2_loader.js" (by simp) halias
      · intro hname
        rw [hname] at halias
        exact hseals "gr_seal_v2.wasm" (by simp) halias

theorem diskName_no_pair {logical : Text} (h : ¬ ['.', '.'] <:+: logical) :
    ¬ ['.', '.'] <:+: diskName logical := by
  unfold diskName sealV2Physical
  dsimp only
  split_ifs
  · decide
  · decide
  · intro hinside
    have htrim : trimStartMatches '/' logical <:+ logical :=
      List.dropWhile_suffix _
    exact h (hinside.trans htrim.isInfix)

theorem cleanRel_diskName {logical : Text} (h : ¬ ['.', '.'] <:+: logical) :
    cleanRel (diskName logical) = diskName logical := by
  have htrim : trimStartMatches '/' (diskName logical) = diskName logical :=
    trimStartMatches_idem _
  unfold cleanRel
  rw [htrim, deletePairs_eq_self (diskName_no_pair h)]

theorem isAbsolute_diskName (logical : Text) :
    isAbsolute (diskName logical) = false := by
  have hhead := head?_trimStartMatches (sealV2Physical logical)
  unfold isAbsolute diskName
  simpa using hhead

theorem resolveStatic_congr {root rel rel' : Text}
    (h : trimStartMatches '/' rel = trimStartMatches '/' rel') :
    resolveStatic root rel = resolveStatic root rel' := by
  unfold resolveStatic cleanRel
  rw [h]

section Serving

variable {site : Site} {d : StaticDir}

theorem NamesAsset.found {logical : Text} (h : NamesAsset d logical) (site : Site) :
    ∃ f ∈ d.files, f.rel = diskName logical ∧
      site.token d logical = (site.sha256Hex f.bytes).take 12 := by
  obtain ⟨f₀, hf₀, hrel₀, -⟩ := h
  have hsome : (d.files.find? fun f => f.rel = diskName logical).isSome = true := by
    rw [List.find?_isSome]
    exact ⟨f₀, hf₀, by simpa using hrel₀⟩
  obtain ⟨f, hf⟩ := Option.isSome_iff_exists.mp hsome
  have hname := List.find?_some hf
  refine ⟨f, List.mem_of_find?_eq_some hf, by simpa using hname, ?_⟩
  unfold Site.token fileContentHash12
  rw [hf]

theorem token_isContentHash (hdigest : site.HexDigest) {logical : Text}
    (h : NamesAsset d logical) :
    isContentHashToken (site.token d logical) = true := by
  obtain ⟨f, -, -, htoken⟩ := h.found site
  rw [htoken]
  apply isContentHashToken_of_hex
  · intro c hc
    exact hdigest.hex f.bytes c (List.mem_of_mem_take hc)
  · rw [List.length_take, hdigest.length]
    rfl

theorem reaches_of_kept (hshows : site.Shows d) {logical : Text}
    (h : NamesAsset d logical) (hkept : KeptName logical) :
    site.Reaches (mapLogical (trimStartMatches '/' logical))
      (site.token d logical) := by
  obtain ⟨f, hf, hrel, htoken⟩ := h.found site
  refine ⟨f.bytes, ?_, htoken.symm⟩
  have hjoin : resolveStatic site.root (diskName logical) =
      .inside site.root (diskName logical) := by
    unfold resolveStatic join
    rw [cleanRel_diskName hkept.2, isAbsolute_diskName]
    rfl
  rw [mapLogical_of_not_renamed hkept.1, hjoin,
    resolve_join_inside site.cwd (isAbsolute_diskName logical), ← hrel]
  exact hshows f hf

theorem NamesAsset.shipped {logical : Text} (h : NamesAsset d logical) :
    ∃ ext ∈ hashedExtensions,
      hashedExtensions.find? (endsWith (trimStartMatches '/' logical)) = some ext := by
  obtain ⟨f, -, hrel, ext, hext, hends⟩ := h
  have hsome : (hashedExtensions.find?
      (endsWith (trimStartMatches '/' logical))).isSome = true := by
    rw [List.find?_isSome]
    rw [hrel] at hends
    unfold diskName sealV2Physical at hends
    dsimp only at hends
    split_ifs at hends with hwasm hloader
    · rw [hwasm]
      exact ⟨".wasm", by decide, by decide⟩
    · rw [hloader]
      exact ⟨".js", by decide, by decide⟩
    · exact ⟨ext, hext, hends⟩
  obtain ⟨found, hfound⟩ := Option.isSome_iff_exists.mp hsome
  exact ⟨found, List.mem_of_find?_eq_some hfound, hfound⟩

theorem publicName_eq (hdigest : site.HexDigest) {logical : Text}
    (h : NamesAsset d logical) :
    ∃ ext ∈ hashedExtensions,
      site.publicName d logical = site.token d logical ++ ext.toList := by
  obtain ⟨ext, hext, hfind⟩ := h.shipped
  have htoken := token_isContentHash hdigest h
  refine ⟨ext, hext, ?_⟩
  unfold Site.publicName opaquePublicFilename
  dsimp only
  rw [trim_of_hex (hex_of_token htoken), if_neg (ne_nil_of_token htoken)]
  have hfind' : (hashedExtensions.find? fun ext =>
      endsWith (trimStartMatches '/' logical) ext) = some ext := hfind
  rw [hfind']

theorem basename_assetUrl (hdigest : site.HexDigest) {logical : Text}
    (h : NamesAsset d logical) (distRoot : Text) :
    basename (site.assetUrl d distRoot logical) = site.publicName d logical := by
  obtain ⟨ext, hext, hname⟩ := publicName_eq hdigest h
  have hslash : '/' ∉ site.publicName d logical := by
    rw [hname]
    exact token_no_slash (token_isContentHash hdigest h) hext
  unfold Site.assetUrl
  rw [basename_append_slash, basename_trimStartMatches,
    basename_of_no_slash hslash]

/-! ## What the map holds -/

theorem opaqueLogical_fst {file : Text} (hbare : bareToken file = true) :
    (opaqueLogical site.sha256Hex file d).1 =
      (opaqueMapLookup d file).or
        (opaqueMapLookup (rebuildOpaqueMap site.sha256Hex d) file) := by
  unfold opaqueLogical
  rw [if_pos hbare]
  cases opaqueMapLookup d file with
  | some logical => rfl
  | none => rfl

theorem staticRel_fst (site : Site) (path : Text) (d : StaticDir) :
    (staticRel site.sha256Hex path d).1 =
      match (opaqueLogical site.sha256Hex (basename (pathNv path)) d).1 with
      | some logical => some (mapLogical logical)
      | none => fixedRel path := by
  unfold staticRel
  rcases opaqueLogical site.sha256Hex (basename (pathNv path)) d with
    ⟨_ | logical, after⟩
  · rfl
  · rfl

theorem serves_iff (hdigest : site.HexDigest) {logical : Text}
    (h : NamesAsset d logical) (after : StaticDir) (distRoot : Text) :
    site.Serves after (site.assetUrl d distRoot logical)
        (site.token d logical) ↔
      site.Leads (site.assetUrl d distRoot logical) (site.token d logical)
        ((opaqueMapLookup after (site.publicName d logical)).or
          (opaqueMapLookup (rebuildOpaqueMap site.sha256Hex after)
            (site.publicName d logical))) := by
  have htoken := token_isContentHash hdigest h
  have hbase := basename_assetUrl hdigest h distRoot
  obtain ⟨ext, hext, hname⟩ := publicName_eq hdigest h
  have hbare : bareToken (site.publicName d logical) = true := by
    rw [hname]
    exact bareToken_token htoken hext
  have hrel := staticRel_fst site (site.assetUrl d distRoot logical) after
  rw [basename_pathNv, hbase, opaqueLogical_fst hbare] at hrel
  unfold Site.Serves
  rw [hrel]
  cases (opaqueMapLookup after (site.publicName d logical)).or
      (opaqueMapLookup (rebuildOpaqueMap site.sha256Hex after)
        (site.publicName d logical)) with
  | some entry =>
      constructor
      · rintro ⟨rel, hsome, hreach⟩
        rw [← Option.some.inj hsome] at hreach
        exact hreach
      · intro hreach
        exact ⟨mapLogical entry, rfl, hreach⟩
  | none =>
      rw [hname] at hbase
      dsimp only
      rw [fixedRel_token htoken hext hbase]
      have hopens : site.Reaches
            (trimStartMatches '/' (pathNv (site.assetUrl d distRoot logical)))
            (site.token d logical) ↔
          site.Reaches (pathNv (site.assetUrl d distRoot logical))
            (site.token d logical) := by
        unfold Site.Reaches
        rw [resolveStatic_congr (trimStartMatches_idem _)]
      unfold Site.Leads
      cases Routed (site.assetUrl d distRoot logical) with
      | true => simpa using hopens
      | false => simp

theorem opaqueMapLookup_writeMap (m : SortedMap Text Text) (name : Text) :
    opaqueMapLookup (d.writeMap m) name =
      if d.writable then m.get? name else opaqueMapLookup d name := by
  unfold StaticDir.writeMap
  split_ifs
  · rfl
  · rfl

theorem get?_foldl_insert {α : Type} (key value : α → Text) (xs : List α)
    (m : SortedMap Text Text) (name : Text) :
    (xs.foldl (fun m x => m.insert (key x) (value x)) m).get? name =
      ((xs.reverse.find? fun x => key x = name).map value).or (m.get? name) := by
  induction xs using List.reverseRecOn with
  | nil => rfl
  | append_singleton xs x ih =>
      rw [List.foldl_append, List.foldl_cons, List.foldl_nil,
        SortedMap.get?_insert, ih, List.reverse_append, List.reverse_singleton,
        List.singleton_append, List.find?_cons]
      by_cases hkey : key x = name
      · simp [hkey]
      · simp [hkey, Ne.symm hkey]

theorem rebuild_eq_writeMap (site : Site) (d : StaticDir) :
    ∃ m, rebuildOpaqueMap site.sha256Hex d = d.writeMap m ∧
      ∀ name, m.get? name = rebuiltEntry site d name := by
  refine ⟨_, rfl, ?_⟩
  intro name
  have hfold := get?_foldl_insert
    (fun f : StaticFile => site.publicName d (recordedRel f.rel))
    (fun f => recordedRel f.rel) (d.files.filter fun f => walked f.rel)
    SortedMap.empty name
  have hempty : (SortedMap.empty : SortedMap Text Text).get? name = none := rfl
  rw [hempty, Option.or_none] at hfold
  exact hfold

theorem opaqueMapLookup_rebuild (name : Text) :
    opaqueMapLookup (rebuildOpaqueMap site.sha256Hex d) name =
      if d.writable then rebuiltEntry site d name else opaqueMapLookup d name := by
  obtain ⟨m, hm, hentries⟩ := rebuild_eq_writeMap site d
  rw [hm, opaqueMapLookup_writeMap, hentries]

theorem rebuiltEntry_writeMap (m : SortedMap Text Text) (name : Text) :
    rebuiltEntry site (d.writeMap m) name = rebuiltEntry site d name := by
  unfold StaticDir.writeMap
  split_ifs
  · rfl
  · rfl

theorem writable_writeMap (m : SortedMap Text Text) :
    (d.writeMap m).writable = d.writable := by
  unfold StaticDir.writeMap
  split_ifs
  · rfl
  · rfl

theorem entry_after_write (m : SortedMap Text Text) (name : Text)
    (hcold : d.writable = true → m.get? name = none →
      rebuiltEntry site d name = none) :
    (opaqueMapLookup (d.writeMap m) name).or
        (opaqueMapLookup
          (rebuildOpaqueMap site.sha256Hex (d.writeMap m)) name) =
      if d.writable then m.get? name else opaqueMapLookup d name := by
  rw [opaqueMapLookup_rebuild, writable_writeMap, rebuiltEntry_writeMap,
    opaqueMapLookup_writeMap]
  cases hwritable : d.writable with
  | true =>
      cases hentry : m.get? name with
      | none => simp [hcold hwritable hentry]
      | some entry => rfl
  | false => simp

/-- The condition under which hashed asset URLs serve the hashed bytes, and
under which a hash comes out of a name again. -/
theorem hashed_assets_serve_iff (site : Site) (hdigest : site.HexDigest)
    (d : StaticDir) (hshows : site.Shows d) (distRoot logical : Text)
    (hasset : NamesAsset d logical) :
    (site.Serves (hashedAssetUrl site.sha256Hex d logical)
        (site.assetUrl d distRoot logical) (site.token d logical) ↔
      site.UrlLeads d distRoot logical) ∧
    (site.Serves (rebuildOpaqueMap site.sha256Hex d)
        (site.assetUrl d distRoot logical) (site.token d logical) ↔
      site.RebuildLeads d distRoot logical) ∧
    ∀ name hash, isContentHashToken hash = true → lastLabelIsHash name = false →
      (stripContentHashFilename (contentHashedFilename name hash) = name ↔
        name.head? ≠ some '/' ∧
          ∃ ext ∈ hashedExtensions, endsWith name ext = true) := by
  refine ⟨?_, ?_, ?_⟩
  · rw [serves_iff hdigest hasset]
    unfold hashedAssetUrl opaqueMapInsert
    have hentry : opaquePublicFilename logical
        (fileContentHash12 site.sha256Hex d logical) = site.publicName d logical := rfl
    rw [hentry, entry_after_write]
    · unfold Site.UrlLeads
      rw [SortedMap.get?_insert, if_pos rfl]
      cases d.writable with
      | true =>
          constructor
          · intro hleads
            exact Or.inr hleads
          · rintro (hkept | hleads)
            · exact reaches_of_kept hshows hasset hkept
            · exact hleads
      | false => rfl
    · intro _ hnone
      rw [SortedMap.get?_insert, if_pos rfl] at hnone
      cases hnone
  · obtain ⟨m, hm, hentries⟩ := rebuild_eq_writeMap site d
    rw [serves_iff hdigest hasset, hm, entry_after_write, hentries]
    · rfl
    · intro _ hnone
      rw [← hentries]
      exact hnone
  · intro name hash hhash hlabel
    exact strip_contentHashed_iff hhash hlabel

end Serving

def sampleDigest (bytes : List UInt8) : Text :=
  if bytes = [97] then
    "ca978112ca1bbdcafac231b39a23dc4da786eff8147c4e72b9807785afee48bb".toList
  else if bytes = [98] then
    "3e23e8160039594a33894f6564e1b1348bbd7a0088d42c4acb73eeaed59c009d".toList
  else List.replicate 64 '0'

def sampleSite (d : StaticDir) : Site where
  sha256Hex := sampleDigest
  read := fun place =>
    (d.files.find? fun f => walk ["fe".toList, "srv".toList] f.rel = place).map
      StaticFile.bytes
  cwd := []
  root := "/srv/fe".toList

theorem sampleSite_hexDigest (d : StaticDir) : (sampleSite d).HexDigest where
  length := by
    intro bytes
    change (sampleDigest bytes).length = 64
    unfold sampleDigest
    split_ifs
    · rfl
    · rfl
    · rfl
  hex := by
    intro bytes
    change ∀ c ∈ sampleDigest bytes, isAsciiHexdigit c = true
    unfold sampleDigest
    split_ifs
    · exact List.all_eq_true.mp (by rfl)
    · exact List.all_eq_true.mp (by rfl)
    · intro c hc
      rw [List.eq_of_mem_replicate hc]
      rfl

def raceTree : StaticDir where
  files := [⟨"gr.race.min.js".toList, [97]⟩, ⟨"gr.min.js".toList, [98]⟩]
  opaqueMap := none
  writable := true
  ever := []

/-- The race bundle is served under its hashed URL. -/
theorem race_served :
    (sampleSite raceTree).Serves
      (hashedAssetUrl sampleDigest raceTree "gr.race.min.js".toList)
      ((sampleSite raceTree).assetUrl raceTree
        "/dist/v/1.0.3/g/deadbeef0123/".toList "gr.race.min.js".toList)
      "ca978112ca1b".toList := by
  have hserve := hashed_assets_serve_iff (sampleSite raceTree)
    (sampleSite_hexDigest raceTree) raceTree
    (by
      intro f hf
      rcases List.mem_cons.mp hf with rfl | hf
      · rfl
      · rcases List.mem_singleton.mp hf with rfl
        rfl)
    "/dist/v/1.0.3/g/deadbeef0123/".toList "gr.race.min.js".toList
    ⟨_, List.mem_cons_self, by decide, ".min.js", by decide, by decide⟩
  apply hserve.1.mpr
  exact Or.inl ⟨by decide, by decide⟩

def pinTree : StaticDir where
  files := [⟨"gr.js".toList, [97]⟩, ⟨"gr.min.js".toList, [98]⟩]
  opaqueMap := none
  writable := true
  ever := []

/-- The hashed URL of `gr.js` leads to `gr.min.js`, which has another hash. -/
theorem pin_source_serves_min :
    NamesAsset pinTree "gr.js".toList ∧
      (sampleSite pinTree).assetUrl pinTree "/dist".toList "gr.js".toList =
        "/dist/ca978112ca1b.js".toList ∧
      (staticRel sampleDigest "/dist/ca978112ca1b.js".toList
        (hashedAssetUrl sampleDigest pinTree "gr.js".toList)).1 =
          some "gr.min.js".toList ∧
      ¬ (sampleSite pinTree).Serves
        (hashedAssetUrl sampleDigest pinTree "gr.js".toList)
        "/dist/ca978112ca1b.js".toList "ca978112ca1b".toList := by
  have hrel : (staticRel sampleDigest "/dist/ca978112ca1b.js".toList
      (hashedAssetUrl sampleDigest pinTree "gr.js".toList)).1 =
        some "gr.min.js".toList := by
    decide
  refine ⟨⟨_, List.mem_cons_self, by decide, ".js", by decide, by decide⟩,
    by decide, hrel, ?_⟩
  rintro ⟨rel, hsome, bytes, hread, htoken⟩
  have hname : some "gr.min.js".toList = some rel := hrel.symm.trans hsome
  rw [← Option.some.inj hname] at hread
  have hopened : (sampleSite pinTree).read (resolve [] (resolveStatic
      "/srv/fe".toList "gr.min.js".toList).text) = some [98] := by
    decide
  have hbytes : some [98] = some bytes := hopened.symm.trans hread
  rw [← Option.some.inj hbytes] at htoken
  revert htoken
  decide

end StaticFiles

end GrServer
