import GrServer.StaticContainment

/-!
# Content hashes in file names

`content_hashed_filename` puts a hash in front of the extension and
`strip_content_hash_filename` takes it out again.  Both look for an extension
among the same five, in two orders.  What they find is decided by the text
behind the hash, because no extension has a hex digit in front of another one.
-/

namespace GrServer

open Text

namespace StaticFiles

def endsInHash (stem : Text) : Bool :=
  match rsplitOnce '.' stem with
  | some (_, label) => isContentHashToken label
  | none => false

def insertHash (logical hash stem : Text) (ext : String) : Text :=
  -- only a plain `.js` name is looked at for a hash it has already
  if ext = ".js" ∧ endsInHash stem = true then logical
  else stem ++ '.' :: hash ++ ext.toList

def insertedExtensions : List String :=
  [".min.js", ".js", ".wasm", ".html", ".css"]

def contentHashedFilename (logical hash : Text) : Text :=
  let logical := trimStartMatches '/' logical
  let hash := trim hash
  if hash = [] then logical
  else
    (insertedExtensions.findSome? fun ext =>
      (stripSuffix ext logical).map fun stem =>
        insertHash logical hash stem ext).getD (logical ++ '.' :: hash)

def lastLabelIsHash (logical : Text) : Bool :=
  endsInHash ((insertedExtensions.findSome? fun ext =>
    stripSuffix ext logical).getD logical)

/-! ## Which extension is found -/

theorem endsWith_iff {s : Text} {ext : String} :
    endsWith s ext = true ↔ ext.toList <:+ s := by
  unfold endsWith
  exact List.isSuffixOf_iff_suffix

theorem stripSuffix_eq_some {s stem : Text} {ext : String} :
    stripSuffix ext s = some stem ↔ s = stem ++ ext.toList := by
  unfold stripSuffix
  rw [List.dropSuffix?_eq_some_iff]
  constructor
  · rintro ⟨rest, hs, hrest⟩
    rw [hs, eq_of_beq hrest]
  · intro hs
    exact ⟨ext.toList, hs, beq_self_eq_true _⟩

theorem stripSuffix_eq_none {s : Text} {ext : String}
    (h : endsWith s ext = false) : stripSuffix ext s = none := by
  cases hstrip : stripSuffix ext s with
  | none => rfl
  | some stem =>
      have hs : ext.toList <:+ s := by
        rw [stripSuffix_eq_some.mp hstrip]
        exact List.suffix_append stem ext.toList
      rw [endsWith_iff.mpr hs] at h
      cases h

theorem findSome?_stripSuffix {β : Type} (f : String → Text → β) {stem : Text}
    {ext : String} {exts : List String}
    (hfind : exts.find? (endsWith (stem ++ ext.toList)) = some ext) :
    (exts.findSome? fun e =>
        (stripSuffix e (stem ++ ext.toList)).map (f e)) = some (f ext stem) := by
  induction exts with
  | nil => cases hfind
  | cons e exts ih =>
      rw [List.find?_cons] at hfind
      rw [List.findSome?_cons]
      cases hends : endsWith (stem ++ ext.toList) e with
      | true =>
          rw [hends, Option.some.injEq] at hfind
          rw [hfind, stripSuffix_eq_some.mpr rfl]
          rfl
      | false =>
          rw [hends] at hfind
          rw [stripSuffix_eq_none hends]
          exact ih hfind

theorem findSome?_stripSuffix_eq_none {β : Type} (f : String → Text → β)
    {s : Text} {exts : List String} (hfind : exts.find? (endsWith s) = none) :
    (exts.findSome? fun e => (stripSuffix e s).map (f e)) = none := by
  rw [List.findSome?_eq_none_iff]
  intro e he
  have hends := List.find?_eq_none.mp hfind e he
  rw [stripSuffix_eq_none (by simpa using hends)]
  rfl

def EndsInHex (s : Text) : Prop :=
  ∃ c, s.getLast? = some c ∧ isAsciiHexdigit c = true

theorem endsInHex_append (s : Text) {t : Text} (ht : EndsInHex t) :
    EndsInHex (s ++ t) := by
  rcases ht with ⟨c, hlast, hhex⟩
  refine ⟨c, ?_, hhex⟩
  rw [List.getLast?_append, hlast]
  rfl

theorem hashedExtensions_apart :
    ∀ e ∈ hashedExtensions,
      (e.toList.getLast?.any isAsciiHexdigit) = false ∧
      ∀ ext ∈ hashedExtensions, ∀ front,
        stripSuffix ext e.toList = some front →
          (front.getLast?.any isAsciiHexdigit) = false := by
  decide

theorem insertedExtensions_mem :
    ∀ e, e ∈ insertedExtensions ↔ e ∈ hashedExtensions := by
  intro e
  simp only [insertedExtensions, hashedExtensions, List.mem_cons]
  tauto

theorem endsWith_hashed {s : Text} (hs : EndsInHex s) {e ext : String}
    (he : e ∈ hashedExtensions) (hext : ext ∈ hashedExtensions) :
    endsWith (s ++ ext.toList) e = endsWith ext.toList e := by
  obtain ⟨c, hlast, hhex⟩ := hs
  rw [Bool.eq_iff_iff, endsWith_iff, endsWith_iff]
  constructor
  · intro hsuffix
    have hext' : ext.toList <:+ s ++ ext.toList := List.suffix_append s ext.toList
    rcases List.suffix_or_suffix_of_suffix hsuffix hext' with h | ⟨front, hfront⟩
    · exact h
    · -- `e` reaches past the extension, into the hex digits
      have hstrip : stripSuffix ext e.toList = some front :=
        stripSuffix_eq_some.mpr hfront.symm
      have hapart := (hashedExtensions_apart e he).2 ext hext front hstrip
      have hinto : front <:+ s := by
        rw [← hfront] at hsuffix
        obtain ⟨before, hbefore⟩ := hsuffix
        rw [← List.append_assoc] at hbefore
        exact ⟨before, List.append_cancel_right hbefore⟩
      cases hfrontLast : front.getLast? with
      | none =>
          rw [List.getLast?_eq_none_iff] at hfrontLast
          rw [← hfront, hfrontLast]
          exact List.suffix_refl _
      | some a =>
          obtain ⟨before, rfl⟩ := hinto
          rw [List.getLast?_append, hfrontLast] at hlast
          have hac : a = c := Option.some.inj hlast
          rw [hfrontLast, hac, Option.any_some, hhex] at hapart
          cases hapart
  · intro hsuffix
    exact hsuffix.trans (List.suffix_append s ext.toList)

theorem find?_hashed {exts : List String} (hexts : exts = hashedExtensions ∨
    exts = insertedExtensions) {s : Text} (hs : EndsInHex s) {ext : String}
    (hext : ext ∈ hashedExtensions) :
    exts.find? (endsWith (s ++ ext.toList)) = some ext := by
  have hsame : exts.find? (endsWith (s ++ ext.toList)) =
      exts.find? (endsWith ext.toList) := by
    apply List.find?_congr
    intro e he
    have he' : e ∈ hashedExtensions := by
      rcases hexts with rfl | rfl
      · exact he
      · exact (insertedExtensions_mem e).mp he
    exact endsWith_hashed hs he' hext
  have hown : ∀ ext ∈ hashedExtensions,
      hashedExtensions.find? (endsWith ext.toList) = some ext ∧
        insertedExtensions.find? (endsWith ext.toList) = some ext := by
    decide
  rw [hsame]
  rcases hexts with rfl | rfl
  · exact (hown ext hext).1
  · exact (hown ext hext).2

theorem find?_bare {s : Text} (hs : EndsInHex s) :
    hashedExtensions.find? (endsWith s) = none := by
  rw [List.find?_eq_none]
  intro e he hends
  obtain ⟨c, hlast, hhex⟩ := hs
  have hany := (hashedExtensions_apart e he).1
  obtain ⟨before, hbefore⟩ := endsWith_iff.mp hends
  rw [← hbefore, List.getLast?_append] at hlast
  cases helast : e.toList.getLast? with
  | none =>
      have hempty : ∀ e ∈ hashedExtensions, e.toList.getLast? ≠ none := by
        decide
      exact hempty e he helast
  | some a =>
      rw [helast] at hlast hany
      have hac : a = c := Option.some.inj hlast
      rw [hac, Option.any_some, hhex] at hany
      cases hany

theorem isAsciiHexdigit_ne {c d : Char} (hc : isAsciiHexdigit c = true)
    (hd : isAsciiHexdigit d = false) : c ≠ d := by
  intro hcd
  rw [hcd, hd] at hc
  cases hc

theorem not_mem_of_hex {t : Text} (ht : ∀ c ∈ t, isAsciiHexdigit c = true)
    {d : Char} (hd : isAsciiHexdigit d = false) : d ∉ t := by
  intro hmem
  exact isAsciiHexdigit_ne (ht d hmem) hd rfl

theorem endsInHex_of_hex {t : Text} (ht : ∀ c ∈ t, isAsciiHexdigit c = true)
    (hne : t ≠ []) : EndsInHex t := by
  refine ⟨t.getLast hne, List.getLast?_eq_some_getLast hne, ?_⟩
  exact ht _ (List.getLast_mem hne)

theorem isAsciiHexdigit_range {c : Char} (hc : isAsciiHexdigit c = true) :
    48 ≤ c.toNat ∧ c.toNat ≤ 102 := by
  unfold isAsciiHexdigit Char.isDigit at hc
  simp only [Bool.or_eq_true, Bool.and_eq_true, decide_eq_true_eq, ge_iff_le,
    Char.le_def, UInt32.le_iff_toNat_le] at hc
  have h0 : ('0' : Char).val.toNat = 48 := rfl
  have h9 : ('9' : Char).val.toNat = 57 := rfl
  have ha : ('a' : Char).val.toNat = 97 := rfl
  have hf : ('f' : Char).val.toNat = 102 := rfl
  have hA : ('A' : Char).val.toNat = 65 := rfl
  have hF : ('F' : Char).val.toNat = 70 := rfl
  have hval : c.toNat = c.val.toNat := rfl
  have h48 : (48 : UInt32).toNat = 48 := rfl
  have h57 : (57 : UInt32).toNat = 57 := rfl
  omega

theorem isAsciiHexdigit_not_whitespace {c : Char}
    (hc : isAsciiHexdigit c = true) : isWhitespace c = false := by
  have hrange := isAsciiHexdigit_range hc
  unfold isWhitespace
  simp
  omega

theorem trim_of_hex {t : Text} (ht : ∀ c ∈ t, isAsciiHexdigit c = true) :
    trim t = t := by
  have hblank : ∀ c ∈ t, isWhitespace c = false := by
    intro c hc
    exact isAsciiHexdigit_not_whitespace (ht c hc)
  have hstart : trimStart t = t := by
    unfold trimStart
    rw [List.dropWhile_eq_self_iff]
    intro hpos
    rw [hblank _ (List.getElem_mem hpos)]
    decide
  unfold trim trimEnd
  rw [hstart, List.dropWhile_eq_self_iff.mpr, List.reverse_reverse]
  intro hpos
  rw [hblank _ (List.mem_reverse.mp (List.getElem_mem hpos))]
  decide

theorem hex_of_token {t : Text} (ht : isContentHashToken t = true) :
    ∀ c ∈ t, isAsciiHexdigit c = true := by
  unfold isContentHashToken at ht
  rw [Bool.and_eq_true, List.all_eq_true] at ht
  exact ht.2

theorem ne_nil_of_token {t : Text} (ht : isContentHashToken t = true) : t ≠ [] := by
  rintro rfl
  revert ht
  decide

/-! ## Taking the hash out again -/

theorem unhashedFile_hashed {base token : Text}
    (ht : isContentHashToken token = true) {ext : String}
    (hext : ext ∈ hashedExtensions) :
    unhashedFile (base ++ '.' :: token ++ ext.toList) = base ++ ext.toList := by
  have hhex := hex_of_token ht
  have hends : EndsInHex (base ++ '.' :: token) := by
    have hrest : EndsInHex ('.' :: token) :=
      endsInHex_append ['.'] (endsInHex_of_hex hhex (ne_nil_of_token ht))
    exact endsInHex_append base hrest
  have hdot : '.' ∉ token := not_mem_of_hex hhex (by decide)
  unfold unhashedFile
  rw [findSome?_stripSuffix (fun e stem =>
    unhashed (base ++ '.' :: token ++ ext.toList) stem e)
    (find?_hashed (Or.inl rfl) hends hext), Option.getD_some]
  unfold unhashed
  rw [rsplitOnce_of_not_mem hdot]
  exact if_pos ht

theorem unhashedFile_token {token : Text} (ht : isContentHashToken token = true)
    {ext : String} (hext : ext ∈ hashedExtensions) :
    unhashedFile (token ++ ext.toList) = token ++ ext.toList := by
  have hhex := hex_of_token ht
  have hdot : '.' ∉ token := not_mem_of_hex hhex (by decide)
  have hsplit : rsplitOnce '.' token = none := by
    cases h : rsplitOnce '.' token with
    | none => rfl
    | some parts =>
        obtain ⟨hparts, -⟩ := rsplitOnce_eq_some h
        rw [hparts] at hdot
        exact absurd (List.mem_append_right _ List.mem_cons_self) hdot
  unfold unhashedFile
  rw [findSome?_stripSuffix (fun e stem => unhashed (token ++ ext.toList) stem e)
    (find?_hashed (Or.inl rfl) (endsInHex_of_hex hhex (ne_nil_of_token ht)) hext),
    Option.getD_some]
  unfold unhashed
  rw [hsplit]

theorem unhashedFile_bare {s : Text} (hs : EndsInHex s) : unhashedFile s = s := by
  unfold unhashedFile
  rw [findSome?_stripSuffix_eq_none (fun e stem => unhashed s stem e)
    (find?_bare hs)]
  rfl

theorem stripContentHashFilename_append {front tail : Text}
    (hhead : (front ++ tail).head? ≠ some '/') (htail : '/' ∉ tail) :
    ∃ dir base, front = dir ++ base ∧ '/' ∉ base ∧
      stripContentHashFilename (front ++ tail) =
        dir ++ unhashedFile (base ++ tail) := by
  unfold stripContentHashFilename
  dsimp only
  rw [trimStartMatches_eq_self hhead]
  cases hsplit : rsplitOnce '/' front with
  | none =>
      have hfront := rsplitOnce_eq_none hsplit
      have hnone : rsplitOnce '/' (front ++ tail) = none := by
        cases h : rsplitOnce '/' (front ++ tail) with
        | none => rfl
        | some parts =>
            obtain ⟨hparts, -⟩ := rsplitOnce_eq_some h
            have hmem : '/' ∈ front ++ tail := by
              rw [hparts]
              exact List.mem_append_right _ List.mem_cons_self
            rcases List.mem_append.mp hmem with h | h
            · exact absurd h hfront
            · exact absurd h htail
      refine ⟨[], front, rfl, hfront, ?_⟩
      rw [hnone]
      rfl
  | some parts =>
      obtain ⟨dir, base⟩ := parts
      obtain ⟨hfront, hbase⟩ := rsplitOnce_eq_some hsplit
      have hrest : '/' ∉ base ++ tail := by
        rw [List.mem_append, not_or]
        exact ⟨hbase, htail⟩
      have hsome : rsplitOnce '/' (front ++ tail) = some (dir, base ++ tail) := by
        rw [hfront, List.append_assoc, List.cons_append]
        exact rsplitOnce_of_not_mem hrest dir
      have hdir : dir ≠ [] := by
        intro hdir
        rw [hfront, hdir] at hhead
        exact hhead rfl
      refine ⟨dir ++ ['/'], base, ?_, hbase, ?_⟩
      · rw [hfront, List.append_assoc]
        rfl
      · rw [hsome, List.append_assoc]
        exact if_neg hdir

theorem head?_stripContentHashFilename (rel : Text) :
    (stripContentHashFilename rel).head? ≠ some '/' := by
  have htrim := head?_trimStartMatches rel
  unfold stripContentHashFilename
  dsimp only
  cases hsplit : rsplitOnce '/' (trimStartMatches '/' rel) with
  | none =>
      have hfile := unhashedFile_no_slash (rsplitOnce_eq_none hsplit)
      intro hhead
      exact hfile (List.mem_of_head? hhead)
  | some parts =>
      obtain ⟨dir, file⟩ := parts
      obtain ⟨hparts, -⟩ := rsplitOnce_eq_some hsplit
      have hdir : dir ≠ [] := by
        intro hdir
        rw [hparts, hdir] at htrim
        exact htrim rfl
      dsimp only
      rw [if_neg hdir]
      obtain ⟨c, cs, rfl⟩ := List.exists_cons_of_ne_nil hdir
      rw [hparts] at htrim
      exact htrim

theorem head?_append_dot {front : Text} (hhead : front.head? ≠ some '/')
    (tail : Text) : (front ++ '.' :: tail).head? ≠ some '/' := by
  cases front with
  | nil => simp
  | cons c cs => exact hhead

theorem strip_insertedHash {stem token : Text} (ht : isContentHashToken token = true)
    {ext : String} (hext : ext ∈ hashedExtensions)
    (hhead : stem.head? ≠ some '/') :
    stripContentHashFilename (stem ++ '.' :: token ++ ext.toList) =
      stem ++ ext.toList := by
  have hname (front : Text) : front ++ '.' :: token ++ ext.toList =
      front ++ '.' :: (token ++ ext.toList) := by
    simp
  have htail : '/' ∉ '.' :: (token ++ ext.toList) := by
    rw [List.mem_cons, List.mem_append, not_or, not_or]
    have hslash : '/' ∉ token := not_mem_of_hex (hex_of_token ht) (by decide)
    exact ⟨by decide, hslash, hashedExtensions_no_slash ext hext⟩
  obtain ⟨dir, base, hsplit, -, hstrip⟩ :=
    stripContentHashFilename_append (head?_append_dot hhead _) htail
  rw [hname, hstrip, ← hname, unhashedFile_hashed ht hext, ← List.append_assoc,
    ← hsplit]

theorem strip_appendedHash {logical token : Text}
    (ht : isContentHashToken token = true) (hhead : logical.head? ≠ some '/') :
    stripContentHashFilename (logical ++ '.' :: token) =
      logical ++ '.' :: token := by
  have hhex := hex_of_token ht
  have htail : '/' ∉ '.' :: token := by
    rw [List.mem_cons, not_or]
    exact ⟨by decide, not_mem_of_hex hhex (by decide)⟩
  obtain ⟨dir, base, hsplit, -, hstrip⟩ :=
    stripContentHashFilename_append (head?_append_dot hhead _) htail
  have hends : EndsInHex (base ++ '.' :: token) := by
    have hrest : EndsInHex ('.' :: token) :=
      endsInHex_append ['.'] (endsInHex_of_hex hhex (ne_nil_of_token ht))
    exact endsInHex_append base hrest
  rw [hstrip, unhashedFile_bare hends, ← List.append_assoc, ← hsplit]

theorem contentHashedFilename_of_find? {stem token : Text}
    (ht : isContentHashToken token = true) {ext : String}
    (hhead : (stem ++ ext.toList).head? ≠ some '/')
    (hfind : insertedExtensions.find? (endsWith (stem ++ ext.toList)) = some ext) :
    contentHashedFilename (stem ++ ext.toList) token =
      insertHash (stem ++ ext.toList) token stem ext := by
  unfold contentHashedFilename
  dsimp only
  rw [trimStartMatches_eq_self hhead, trim_of_hex (hex_of_token ht),
    if_neg (ne_nil_of_token ht), findSome?_stripSuffix
      (fun e s => insertHash (stem ++ ext.toList) token s e) hfind]
  rfl

theorem contentHashedFilename_of_none {logical token : Text}
    (ht : isContentHashToken token = true) (hhead : logical.head? ≠ some '/')
    (hfind : insertedExtensions.find? (endsWith logical) = none) :
    contentHashedFilename logical token = logical ++ '.' :: token := by
  unfold contentHashedFilename
  dsimp only
  rw [trimStartMatches_eq_self hhead, trim_of_hex (hex_of_token ht),
    if_neg (ne_nil_of_token ht), findSome?_stripSuffix_eq_none
      (fun ext stem => insertHash logical token stem ext) hfind]
  rfl

theorem strip_contentHashed_iff {logical token : Text}
    (ht : isContentHashToken token = true)
    (hlabel : lastLabelIsHash logical = false) :
    stripContentHashFilename (contentHashedFilename logical token) = logical ↔
      logical.head? ≠ some '/' ∧
        ∃ ext ∈ hashedExtensions, endsWith logical ext = true := by
  constructor
  · intro hback
    have hhead : logical.head? ≠ some '/' := by
      rw [← hback]
      exact head?_stripContentHashFilename _
    refine ⟨hhead, ?_⟩
    by_contra hnone
    have hfind : insertedExtensions.find? (endsWith logical) = none := by
      rw [List.find?_eq_none]
      intro ext hext hends
      exact hnone ⟨ext, (insertedExtensions_mem ext).mp hext, hends⟩
    rw [contentHashedFilename_of_none ht hhead hfind,
      strip_appendedHash ht hhead] at hback
    have hlength := congrArg List.length hback
    simp at hlength
  · rintro ⟨hhead, shipped, hshipped, hends⟩
    have hsome : (insertedExtensions.find? (endsWith logical)).isSome = true := by
      rw [List.find?_isSome]
      exact ⟨shipped, (insertedExtensions_mem shipped).mpr hshipped, hends⟩
    obtain ⟨ext, hfind⟩ := Option.isSome_iff_exists.mp hsome
    have hext : ext ∈ hashedExtensions :=
      (insertedExtensions_mem ext).mp (List.mem_of_find?_eq_some hfind)
    obtain ⟨stem, hlogical⟩ := endsWith_iff.mp (List.find?_some hfind)
    rw [← hlogical] at hfind hhead hlabel ⊢
    have hstem : endsInHash stem = false := by
      unfold lastLabelIsHash at hlabel
      have hsearch := findSome?_stripSuffix (fun _ stem => stem) hfind
      simp only [Option.map_id'] at hsearch
      rw [hsearch] at hlabel
      exact hlabel
    have hhead' : stem.head? ≠ some '/' := by
      cases stem with
      | nil => simp
      | cons c cs => exact hhead
    rw [contentHashedFilename_of_find? ht hhead hfind]
    unfold insertHash
    rw [if_neg (by simp [hstem])]
    exact strip_insertedHash ht hext hhead'

end StaticFiles

end GrServer
