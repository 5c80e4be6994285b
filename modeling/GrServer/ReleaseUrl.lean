import GrServer.WebUrl

/-!
# The allowlist of release URLs

The base URL of releases is checked against a list of URLs by a parser that
splits on raw characters and drops the port.  The client that fetches a file
below the base reads the joined text as web clients do.
-/

namespace GrServer

open Text

namespace ReleaseUrl

/-! ## The check -/

structure HttpParts where
  scheme : Text
  host : Text
  path : Text
  deriving DecidableEq

def splitSchemeMark : Text → Option (Text × Text)
  | ':' :: '/' :: '/' :: rest => some ([], rest)
  | c :: cs => (splitSchemeMark cs).map fun parts => (c :: parts.1, parts.2)
  | [] => none

def trimEndMatches (c : Char) (s : Text) : Text := s.rdropWhile fun d => d == c

/-- The authority and the path with its slash. -/
def splitPath (rest : Text) : Text × Text :=
  match splitOnce '/' rest with
  | some (h, p) => (h, '/' :: p)
  | none => (rest, [])

/-- The host of an authority, without a port. -/
def hostOf (hostport : Text) : Text :=
  toAsciiLowercase (trimEndMatches '.' (trim (((splitOnce ':' hostport).map Prod.fst).getD
    hostport)))

def parseHttpUrl (url : Text) : Option HttpParts :=
  let u := trim url
  if '@' ∈ u then none
  else
    match splitSchemeMark u with
    | none => none
    | some (scheme, rest) =>
        let scheme := toAsciiLowercase scheme
        if scheme ≠ "https".toList ∧ scheme ≠ "http".toList then none
        else
          let host := hostOf (splitPath rest).1
          if host = [] ∨ '/' ∈ host then none
          else some ⟨scheme, host, (splitPath rest).2⟩

section Source

variable (env : String → Option String)

def production : Bool := envIsLowered env "DEPLOY_ENV" ["prod", "production", "live"]

def defaultAllowlist : String :=
  "https://github.com/greenpng/gr-server/,https://github.com/greenpng/install/"

/-- The list in force: the configured one, or the default of production. -/
def allowlist : Option (List String) :=
  let raw := (envGet env "RELEASE_URL_ALLOWLIST").getD ""
  if trimmed raw = "" then
    if production env then some ((splitChar ',' defaultAllowlist).map trimmed) else none
  else some ((splitChar ',' raw).map trimmed)

/-- An entry lets a URL through: same scheme and host, and a path below its own. -/
def admits (got : HttpParts) (entry : String) : Bool :=
  match parseHttpUrl entry.toList with
  | none => false
  | some allow =>
      let front := trimEndMatches '/' allow.path
      decide (got.scheme = allow.scheme ∧ got.host = allow.host) &&
        (front == [] || got.path == front || (front ++ ['/']).isPrefixOf got.path)

def releaseUrlAllowed (url : String) : Except String Unit :=
  match allowlist env with
  | none => .ok ()
  | some entries =>
      if "*" ∈ entries then
        if production env then .error "production refuses wildcard release allowlist" else .ok ()
      else
        match parseHttpUrl url.toList with
        | none => .error "release_base_url is not a valid http(s) URL"
        | some got =>
            if got.scheme = "http".toList ∧ production env = true then
              .error "production refuses http:// release URL"
            else if (entries.filter fun e => e ≠ "").any (admits got) then .ok ()
            else .error ("release_base_url host/path not allowlisted (GR_RELEASE_URL_ALLOWLIST " ++
              "/ legacy GR_RELEASE_URL_ALLOWLIST)")

end Source

/-- The text that is fetched for an asset: the base without slashes at its end, a
slash and the name. -/
def assetUrl (base asset : Text) : Text := trimEndMatches '/' base ++ '/' :: asset

open WebUrl

/-- What is fetched lies under an entry. -/
def UnderEntry (entries : List String) (f : Url) : Prop :=
  ∃ e ∈ entries, ∃ g, WebUrl.read e.toList = some g ∧ Within f g

def FileName (asset : Text) : Prop := '/' ∉ asset ∧ ¬ ['.', '.'] <:+: asset

/-- Whatever asset is fetched below a base URL that is allowed lies under an
entry. -/
def StaysInside (env : String → Option String) (entries : List String) (url : String) : Prop :=
  releaseUrlAllowed env url = .ok () → ∀ asset, FileName asset → ∀ f,
    WebUrl.read (assetUrl url.toList asset) = some f → UnderEntry entries f

def OriginListed (entries : List String) (f : Url) : Prop :=
  ∃ e ∈ entries, ∃ g, WebUrl.read e.toList = some g ∧ SameOrigin f g ∧ stem g.path = []

/-- The base names a host, if any; it has a query or fragment and lies under an
entry, or the whole of its origin is listed. -/
structure OriginCovered (entries : List String) (base : Text) : Prop where
  host : ∀ scheme, readBase (trimEndMatches '/' base) ≠ some (scheme, [])
  covered : ∀ f, WebUrl.read (assetUrl base []) = some f →
    if (trimEndMatches '/' base).any isMark then UnderEntry entries f else OriginListed entries f

section Marks

variable {scheme t r : Text}

theorem any_isMark_dropWhile {q : Char → Bool} (hq : ∀ c, q c = true → isMark c = false) (t : Text) :
    (t.dropWhile q).any isMark = t.any isMark := by
  induction t with
  | nil => rfl
  | cons c cs ih =>
      by_cases hc : q c = true
      · rw [List.dropWhile_cons_of_pos hc, ih, List.any_cons, hq c hc, Bool.false_or]
      · rw [List.dropWhile_cons_of_neg hc]

theorem any_isMark_filter {q : Char → Bool} (hq : ∀ c, q c = false → isMark c = false) (t : Text) :
    (t.filter q).any isMark = t.any isMark := by
  induction t with
  | nil => rfl
  | cons c cs ih =>
      by_cases hc : q c = true
      · rw [List.filter_cons_of_pos hc, List.any_cons, List.any_cons, ih]
      · rw [List.filter_cons_of_neg hc, ih, List.any_cons, hq c (Bool.eq_false_iff.mpr hc),
          Bool.false_or]

theorem any_isMark_scheme (h : isWeb (toAsciiLowercase t) = true) : t.any isMark = false := by
  by_contra hany
  rcases List.any_eq_true.mp (Bool.not_eq_false _ ▸ hany) with ⟨c, hc, hmark⟩
  have hsame : asciiLower c = c := by
    unfold isMark at hmark
    rcases Bool.or_eq_true_iff.mp hmark with h | h
    · rw [beq_iff_eq.mp h]
      decide
    · rw [beq_iff_eq.mp h]
      decide
  have hmem : c ∈ toAsciiLowercase t := List.mem_map.mpr ⟨c, hc, hsame⟩
  have hnone : ∀ s ∈ ["http".toList, "https".toList], ∀ d ∈ s, isMark d = false := by
    intro s hs d hd
    simp only [List.mem_cons, List.not_mem_nil, or_false] at hs
    rcases hs with rfl | rfl
    · have hd' : d ∈ ['h', 't', 't', 'p'] := hd
      revert d
      simp [isMark]
    · have hd' : d ∈ ['h', 't', 't', 'p', 's'] := hd
      revert d
      simp [isMark]
  have hfalse := hnone _ (of_decide_eq_true h) c hmem
  rw [hmark] at hfalse
  cases hfalse

theorem isMark_of_blank (c : Char) (hc : isBlank c = true) : isMark c = false := by
  have hle : c.toNat ≤ 32 := of_decide_eq_true hc
  have hne : c ≠ '?' ∧ c ≠ '#' := by
    constructor
    · rintro rfl
      exact absurd hle (by decide)
    · rintro rfl
      exact absurd hle (by decide)
  simp [isMark, hne.1, hne.2]

theorem any_isMark_base (h : readBase t = some (scheme, r)) :
    t.any isMark = (pathAfter r).any isMark := by
  have hclean : (cleanStart t).any isMark = t.any isMark := by
    unfold cleanStart
    rw [any_isMark_filter, any_isMark_dropWhile isMark_of_blank]
    intro c hc
    rw [Bool.not_eq_false'] at hc
    unfold isTabOrNewline at hc
    simp only [Bool.or_eq_true, beq_iff_eq] at hc
    rcases hc with (rfl | rfl) | rfl
    · decide
    · decide
    · decide
  rcases Option.map_eq_some_iff.mp h with ⟨parts, hparts, hpair⟩
  rcases Option.bind_eq_some_iff.mp hparts with ⟨⟨s, rest⟩, hsplit, hweb⟩
  dsimp only at hweb
  split_ifs at hweb with hscheme
  cases Option.some.inj hweb
  have hr : rest.dropWhile isSlash = r := (Prod.mk.inj hpair).2
  rw [← hclean, (splitOnce_eq_some hsplit).1, List.any_append, List.any_cons,
    any_isMark_scheme hscheme, Bool.false_or]
  have hcolon : isMark ':' = false := by decide
  rw [hcolon, Bool.false_or]
  unfold pathAfter
  rw [any_isMark_dropWhile, ← hr, any_isMark_dropWhile]
  · intro c hc
    unfold isSlash at hc
    simp only [Bool.or_eq_true, beq_iff_eq] at hc
    rcases hc with rfl | rfl
    · decide
    · decide
  · intro c hc
    unfold endsAuthority at hc
    simp only [Bool.not_eq_true', Bool.or_eq_false_iff] at hc
    exact hc.2

end Marks

/-! ## Names that climb -/

section Climbs

variable {entries : List String} {base : Text} {f : Url}

def wordsOf (entries : List String) : List Text :=
  entries.flatMap fun e =>
    match WebUrl.read e.toList with
    | some g => g.host :: g.path
    | none => []

theorem exists_fresh (entries : List String) :
    ∃ m, 0 < m ∧ ∀ e ∈ entries, ∀ g, WebUrl.read e.toList = some g →
      g.host ≠ List.replicate m 'x' ∧ List.replicate m 'x' ∉ g.path := by
  refine ⟨((wordsOf entries).map List.length).sum + 1, Nat.succ_pos _, ?_⟩
  have hshort : ∀ w ∈ wordsOf entries,
      w ≠ List.replicate (((wordsOf entries).map List.length).sum + 1) 'x' := by
    intro w hw heq
    have hle : w.length ≤ ((wordsOf entries).map List.length).sum :=
      List.le_sum_of_mem (List.mem_map.mpr ⟨w, hw, rfl⟩)
    have hlen := congrArg List.length heq
    rw [List.length_replicate] at hlen
    omega
  intro e he g hg
  have hmem : ∀ w ∈ g.host :: g.path, w ∈ wordsOf entries := by
    intro w hw
    refine List.mem_flatMap.mpr ⟨e, he, ?_⟩
    rw [hg]
    exact hw
  refine ⟨hshort _ (hmem _ List.mem_cons_self), ?_⟩
  intro hpath
  exact hshort _ (hmem _ (List.mem_cons_of_mem _ hpath)) rfl

theorem fileName_climb (k m : ℕ) : FileName (climb k m) := by
  constructor
  · intro hmem
    exact absurd (mem_climb hmem) (by decide)
  · intro hinfix
    have hmem : '.' ∈ climb k m := hinfix.subset (by simp)
    exact absurd (mem_climb hmem) (by decide)

theorem fileName_nil : FileName [] := ⟨List.not_mem_nil, by decide⟩

theorem originListed_of_fresh {m : ℕ} (hunder : UnderEntry entries f)
    (hpath : f.path = [List.replicate m 'x'])
    (hfresh : ∀ e ∈ entries, ∀ g, WebUrl.read e.toList = some g →
      g.host ≠ List.replicate m 'x' ∧ List.replicate m 'x' ∉ g.path) : OriginListed entries f := by
  rcases hunder with ⟨e, he, g, hg, horigin, hbelow⟩
  refine ⟨e, he, g, hg, horigin, ?_⟩
  rw [hpath] at hbelow
  cases hstem : stem g.path with
  | nil => rfl
  | cons s rest =>
      rw [hstem, List.cons_prefix_cons] at hbelow
      have hin : s ∈ g.path := by
        apply (List.rdropWhile_prefix (fun s => s == []) (l := g.path)).subset
        show s ∈ stem g.path
        rw [hstem]
        exact List.mem_cons_self
      rw [hbelow.1] at hin
      exact absurd hin (hfresh e he g hg).2

theorem OriginListed.of_origin {f' : Url} (h : OriginListed entries f) (hsame : SameOrigin f' f) :
    OriginListed entries f' := by
  rcases h with ⟨e, he, g, hg, horigin, hstem⟩
  exact ⟨e, he, g, hg, ⟨hsame.1.trans horigin.1, hsame.2.1.trans horigin.2.1,
    hsame.2.2.trans horigin.2.2⟩, hstem⟩

theorem OriginListed.under (h : OriginListed entries f) : UnderEntry entries f := by
  rcases h with ⟨e, he, g, hg, horigin, hstem⟩
  refine ⟨e, he, g, hg, horigin, ?_⟩
  rw [hstem]
  exact List.nil_prefix

theorem read_assetUrl {scheme r : Text} (hbase : readBase (trimEndMatches '/' base) =
    some (scheme, r)) (hr : r ≠ []) (asset : Text) :
    WebUrl.read (assetUrl base asset) =
      (readAuthority scheme (r.takeWhile fun c => !endsAuthority c)).map fun hp =>
        ⟨scheme, hp.1, hp.2, readPath (if (trimEndMatches '/' base).any isMark then
          (pathAfter r).takeWhile fun c => !isMark c
          else pathAfter r ++ '/' :: (cleanEnd asset).takeWhile fun c => !isMark c)⟩ := by
  unfold assetUrl
  rw [read_join, hbase, Option.bind_some, if_neg hr, readAfterSlashes_join,
    any_isMark_base hbase]

theorem isSlash_head_pathAfter {r : Text} (hmark : (pathAfter r).any isMark = false) :
    ∀ c ∈ (pathAfter r).head?, isSlash c = true := by
  intro c hc
  cases hpath : pathAfter r with
  | nil =>
      rw [hpath] at hc
      cases hc
  | cons d ds =>
      rw [hpath] at hc
      have hdc : d = c := Option.some.inj hc
      rw [← hdc]
      have hpos : 0 < (r.dropWhile fun c => !endsAuthority c).length := by
        show 0 < (pathAfter r).length
        rw [hpath]
        exact Nat.succ_pos _
      have hends := List.dropWhile_get_zero_not (fun c => !endsAuthority c) r hpos
      have hfirst : (r.dropWhile fun c => !endsAuthority c).get ⟨0, hpos⟩ = d := by
        have hget : (pathAfter r)[0]? = some d := by
          rw [hpath]
          rfl
        exact (List.getElem?_eq_some_iff.mp hget).2
      rw [hpath, List.any_cons, Bool.or_eq_false_iff] at hmark
      have hend : endsAuthority d = true := by
        rw [← hfirst]
        simpa using hends
      unfold endsAuthority at hend
      rw [hmark.1, Bool.or_false] at hend
      exact hend

theorem inside_iff (entries : List String) (base : Text) :
    (∀ asset, FileName asset → ∀ f, WebUrl.read (assetUrl base asset) = some f →
      UnderEntry entries f) ↔ OriginCovered entries base := by
  rcases exists_fresh entries with ⟨m, hm, hfresh⟩
  cases hbase : readBase (trimEndMatches '/' base) with
  | none =>
      have hnone : ∀ asset, WebUrl.read (assetUrl base asset) = none := by
        intro asset
        unfold assetUrl
        rw [read_join, hbase, Option.bind_none]
      refine iff_of_true ?_ ⟨?_, ?_⟩
      · intro asset _ f hf
        rw [hnone] at hf
        cases hf
      · intro scheme h
        rw [hbase] at h
        cases h
      · intro f hf
        rw [hnone] at hf
        cases hf
  | some parts =>
      rcases parts with ⟨scheme, r⟩
      by_cases hr : r = []
      · -- the name of the asset is read as the host
        refine iff_of_false ?_ fun h => h.host scheme (by rw [hbase, hr])
        intro hall
        have hword : WebUrl.read (assetUrl base (climb 0 m)) =
            some ⟨scheme, List.replicate m 'x', defaultPort scheme, [[]]⟩ := by
          have hclimb : climb 0 m = List.replicate m 'x' := rfl
          have hslash : (List.replicate m 'x').dropWhile isSlash = List.replicate m 'x' := by
            apply List.dropWhile_eq_self_iff.mpr
            intro hpos
            rw [List.getElem_replicate]
            decide
          unfold assetUrl
          rw [read_join, hbase, Option.bind_some, if_pos hr, cleanEnd_climb, hclimb, hslash]
          exact readAfterSlashes_word hm
        rcases hall _ (fileName_climb 0 m) _ hword with ⟨e, he, g, hg, horigin, -⟩
        exact (hfresh e he g hg).1 horigin.2.1.symm
      · have hread := read_assetUrl hbase hr
        have hhost : ∀ scheme, readBase (trimEndMatches '/' base) ≠ some (scheme, []) := by
          intro scheme' h
          rw [hbase] at h
          exact hr (Prod.mk.inj (Option.some.inj h)).2
        cases hauthority : readAuthority scheme (r.takeWhile fun c => !endsAuthority c) with
        | none =>
            have hnone : ∀ asset, WebUrl.read (assetUrl base asset) = none := by
              intro asset
              rw [hread, hauthority, Option.map_none]
            refine iff_of_true ?_ ⟨hhost, ?_⟩
            · intro asset _ f hf
              rw [hnone] at hf
              cases hf
            · intro f hf
              rw [hnone] at hf
              cases hf
        | some hp =>
            by_cases hmark : (trimEndMatches '/' base).any isMark = true
            · -- the name stands behind the mark
              have hsame : ∀ asset, WebUrl.read (assetUrl base asset) =
                  WebUrl.read (assetUrl base []) := by
                intro asset
                rw [hread, hread, if_pos hmark, if_pos hmark]
              constructor
              · intro hall
                refine ⟨hhost, ?_⟩
                intro f hf
                rw [if_pos hmark]
                exact hall [] fileName_nil f hf
              · intro h asset _ f hf
                rw [hsame] at hf
                have hunder := h.covered f hf
                rwa [if_pos hmark] at hunder
            · have hsome : ∀ asset, WebUrl.read (assetUrl base asset) =
                  some ⟨scheme, hp.1, hp.2, readPath (pathAfter r ++ '/' ::
                    (cleanEnd asset).takeWhile fun c => !isMark c)⟩ := by
                intro asset
                rw [hread, hauthority, Option.map_some, if_neg hmark]
              have hslash := isSlash_head_pathAfter
                (any_isMark_base hbase ▸ Bool.eq_false_iff.mpr hmark)
              constructor
              · intro hall
                refine ⟨hhost, ?_⟩
                intro f hf
                rw [if_neg hmark]
                rcases readPath_join hslash with ⟨stack, hstack⟩
                have hclimb := hsome (climb stack.length m)
                rw [cleanEnd_climb, takeWhile_climb, hstack, walkPath_climb le_rfl hm] at hclimb
                have hlisted := originListed_of_fresh
                  (hall _ (fileName_climb stack.length m) _ hclimb) rfl hfresh
                rw [hsome] at hf
                rw [← Option.some.inj hf]
                exact hlisted.of_origin ⟨rfl, rfl, rfl⟩
              · intro h asset _ f hf
                have hlisted := h.covered _ (hsome [])
                rw [if_neg hmark] at hlisted
                rw [hsome] at hf
                rw [← Option.some.inj hf]
                exact (hlisted.of_origin (by exact ⟨rfl, rfl, rfl⟩)).under

end Climbs

/-! ## Texts that both read alike -/

section Alike

variable {u rest asset : Text} {got p : HttpParts}

/-- The client reads what the parser reads: no port, and no segment that moves. -/
def ReadsAlike (t : Text) : Prop :=
  ∃ p, parseHttpUrl t = some p ∧
    WebUrl.read t = some ⟨p.scheme, p.host, defaultPort p.scheme, (p.path.drop 1).splitOn '/'⟩

/-- As `set_release_base_url` stores it. -/
def Stored (u : Text) : Prop := trim u = u ∧ trimEndMatches '/' u = u

theorem splitSchemeMark_append {parts : Text × Text} (h : splitSchemeMark u = some parts)
    (t : Text) : splitSchemeMark (u ++ t) = some (parts.1, parts.2 ++ t) := by
  induction u using splitSchemeMark.induct generalizing parts with
  | case1 rest =>
      cases Option.some.inj h
      rfl
  | case2 c cs hnot ih =>
      rw [splitSchemeMark.eq_2 c cs hnot] at h
      rcases Option.map_eq_some_iff.mp h with ⟨parts', hparts', hparts⟩
      have hrest := ih hparts'
      have hmark : ∀ rest, c = ':' → cs ++ t = '/' :: '/' :: rest → False := by
        intro rest hc hcs
        cases cs with
        | nil => cases hparts'
        | cons d ds =>
            cases ds with
            | nil =>
                rw [List.cons_append, List.cons.injEq] at hcs
                rw [hcs.1] at hparts'
                cases hparts'
            | cons d' ds =>
                rw [List.cons_append, List.cons_append, List.cons.injEq, List.cons.injEq] at hcs
                exact hnot ds hc (by rw [hcs.1, hcs.2.1])
      rw [List.cons_append, splitSchemeMark.eq_2 c (cs ++ t) hmark, hrest]
      rw [← hparts]
      rfl
  | case3 => cases h

theorem splitPath_join : splitPath (rest ++ '/' :: asset) =
    ((splitPath rest).1, (splitPath rest).2 ++ '/' :: asset) := by
  unfold splitPath
  cases hsplit : splitOnce '/' rest with
  | none =>
      rw [splitOnce_of_not_mem (splitOnce_eq_none hsplit)]
      rfl
  | some parts =>
      rcases splitOnce_eq_some hsplit with ⟨hrest, hbefore⟩
      have hjoin : splitOnce '/' (rest ++ '/' :: asset) =
          some (parts.1, parts.2 ++ '/' :: asset) := by
        rw [hrest, List.append_assoc, List.cons_append]
        exact splitOnce_of_not_mem hbefore _
      rw [hjoin]
      rfl

theorem trim_join (hu : trim u = u) (hne : u ≠ []) :
    trim (u ++ '/' :: asset) = u ++ '/' :: trimEnd asset := by
  have hstart : trimStart u = u := by
    have hkept := trimStart_trim u
    rwa [hu] at hkept
  have hjoin : trimStart (u ++ '/' :: asset) = u ++ '/' :: asset := by
    unfold trimStart at hstart ⊢
    rw [List.dropWhile_append, hstart, if_neg (by simpa using hne)]
  have hlast : u ++ '/' :: asset = (u ++ ['/']) ++ asset := by simp
  have hslash : isWhitespace ((u ++ ['/']).getLast (by simp)) = false := by
    rw [List.getLast_append_singleton]
    decide
  unfold trim
  rw [hjoin, hlast, trimEnd_append (by simp) hslash]
  simp

theorem parseHttpUrl_join (hstored : Stored u) (hgot : parseHttpUrl u = some got)
    (hp : parseHttpUrl (assetUrl u asset) = some p) :
    p.scheme = got.scheme ∧ p.host = got.host ∧ ∃ name, p.path = got.path ++ '/' :: name := by
  have hne : u ≠ [] := by
    rintro rfl
    cases hgot
  unfold assetUrl at hp
  rw [hstored.2] at hp
  unfold parseHttpUrl at hgot hp
  rw [hstored.1] at hgot
  rw [trim_join hstored.1 hne] at hp
  dsimp only at hgot hp
  split_ifs at hgot with hat
  split_ifs at hp with hat'
  cases hmark : splitSchemeMark u with
  | none =>
      rw [hmark] at hgot
      cases hgot
  | some parts =>
      rw [hmark] at hgot
      rw [splitSchemeMark_append hmark] at hp
      dsimp only at hgot hp
      rw [splitPath_join] at hp
      split_ifs at hgot with hscheme hhost
      split_ifs at hp
      cases Option.some.inj hgot
      cases Option.some.inj hp
      exact ⟨rfl, rfl, trimEnd asset, rfl⟩

theorem exists_trimEndMatches (c : Char) (s : Text) :
    ∃ k, s = trimEndMatches c s ++ List.replicate k c := by
  induction s using List.reverseRecOn with
  | nil => exact ⟨0, rfl⟩
  | append_singleton s d ih =>
      unfold trimEndMatches at ih ⊢
      rw [List.rdropWhile_concat]
      split_ifs with hd
      · rcases ih with ⟨k, hk⟩
        refine ⟨k + 1, ?_⟩
        rw [List.replicate_succ', ← List.append_assoc, ← hk, beq_iff_eq.mp hd]
      · exact ⟨0, by simp⟩

theorem splitOn_slashes (q : Text) (k : ℕ) :
    (q ++ List.replicate k '/').splitOn '/' = q.splitOn '/' ++ List.replicate k [] := by
  induction k with
  | zero => simp
  | succ k ih =>
      have hlast : q ++ List.replicate (k + 1) '/' =
          (q ++ List.replicate k '/') ++ '/' :: ([] : Text) := by
        rw [List.replicate_succ', List.append_assoc]
      rw [hlast, List.splitOn_append_cons_self, ih, List.replicate_succ', List.append_assoc]
      rfl

theorem stem_append_nil (path : List Text) (k : ℕ) :
    stem (path ++ List.replicate k []) = stem path := by
  induction k with
  | zero => simp
  | succ k ih =>
      rw [List.replicate_succ', ← List.append_assoc]
      unfold stem at ih ⊢
      rw [List.rdropWhile_concat_pos _ _ _ (by simp), ih]

theorem path_eq_cons (hp : parseHttpUrl u = some p) (hne : p.path ≠ []) :
    ∃ q, p.path = '/' :: q := by
  unfold parseHttpUrl at hp
  dsimp only at hp
  split_ifs at hp with hat
  cases hmark : splitSchemeMark (trim u) with
  | none =>
      rw [hmark] at hp
      cases hp
  | some parts =>
      rw [hmark] at hp
      dsimp only at hp
      split_ifs at hp with hscheme hhost
      cases Option.some.inj hp
      dsimp only at hne ⊢
      unfold splitPath at hne ⊢
      cases hsplit : splitOnce '/' parts.2 with
      | none =>
          rw [hsplit] at hne
          exact absurd rfl hne
      | some hp => exact ⟨hp.2, rfl⟩

theorem stem_prefix_of_admitted {allow : HttpParts} {name : Text}
    (hallow : parseHttpUrl u = some allow)
    (hunder : trimEndMatches '/' allow.path = [] ∨ got.path = trimEndMatches '/' allow.path ∨
      trimEndMatches '/' allow.path ++ ['/'] <+: got.path) :
    stem ((allow.path.drop 1).splitOn '/') <+:
      ((got.path ++ '/' :: name).drop 1).splitOn '/' := by
  rcases exists_trimEndMatches '/' allow.path with ⟨k, hk⟩
  by_cases hnone : trimEndMatches '/' allow.path = []
  · have hslashes : allow.path.drop 1 = List.replicate (k - 1) '/' := by
      rw [hk, hnone, List.nil_append, List.drop_replicate]
    have hsplit := splitOn_slashes [] (k - 1)
    rw [List.nil_append] at hsplit
    rw [hslashes, hsplit, stem_append_nil]
    exact List.nil_prefix
  · have hlonger : trimEndMatches '/' allow.path ++ ['/'] <+: got.path ++ '/' :: name := by
      rcases hunder with h | h | h
      · exact absurd h hnone
      · rw [h]
        exact ⟨name, by simp⟩
      · exact h.trans (List.prefix_append _ _)
    have hne : allow.path ≠ [] := by
      intro h
      rw [h] at hnone
      exact hnone rfl
    rcases path_eq_cons hallow hne with ⟨q, hq⟩
    have hcons : ∃ q', trimEndMatches '/' allow.path = '/' :: q' := by
      cases htrim : trimEndMatches '/' allow.path with
      | nil => exact absurd htrim hnone
      | cons c q' =>
          rw [htrim, hq, List.cons_append, List.cons.injEq] at hk
          exact ⟨q', by rw [← hk.1]⟩
    rcases hcons with ⟨q', hq'⟩
    rw [hq'] at hk hlonger
    rcases hlonger with ⟨more, hmore⟩
    have hpath : (got.path ++ '/' :: name).drop 1 = q' ++ '/' :: more := by
      rw [← hmore]
      simp
    have hentry : allow.path.drop 1 = q' ++ List.replicate k '/' := by
      rw [hk]
      rfl
    rw [hpath, hentry, splitOn_slashes, stem_append_nil, List.splitOn_append_cons_self]
    exact (List.rdropWhile_prefix _ _).trans (List.prefix_append _ _)

theorem under_of_alike {env : String → Option String} {entries : List String} {url : String}
    (hlist : allowlist env = some entries) (hstar : "*" ∉ entries)
    (hallowed : releaseUrlAllowed env url = .ok ()) (hstored : Stored url.toList)
    (hentries : ∀ e ∈ entries, (parseHttpUrl e.toList).isSome = true → ReadsAlike e.toList)
    (hasset : ReadsAlike (assetUrl url.toList asset)) :
    ∃ f, WebUrl.read (assetUrl url.toList asset) = some f ∧ UnderEntry entries f := by
  rcases hasset with ⟨p, hp, hread⟩
  refine ⟨_, hread, ?_⟩
  unfold releaseUrlAllowed at hallowed
  rw [hlist] at hallowed
  dsimp only at hallowed
  rw [if_neg hstar] at hallowed
  cases hgot : parseHttpUrl url.toList with
  | none =>
      rw [hgot] at hallowed
      cases hallowed
  | some got =>
      rw [hgot] at hallowed
      dsimp only at hallowed
      split_ifs at hallowed with hplain hany
      rcases List.any_eq_true.mp hany with ⟨e, he, hadmits⟩
      rcases parseHttpUrl_join hstored hgot hp with ⟨hscheme, hhost, name, hpath⟩
      unfold admits at hadmits
      cases hallow : parseHttpUrl e.toList with
      | none =>
          rw [hallow] at hadmits
          cases hadmits
      | some allow =>
          rw [hallow] at hadmits
          simp only [Bool.and_eq_true, decide_eq_true_eq, Bool.or_eq_true, beq_iff_eq,
            List.isPrefixOf_iff_prefix] at hadmits
          rcases hadmits with ⟨⟨hscheme', hhost'⟩, hunder⟩
          have hin : e ∈ entries := List.mem_of_mem_filter he
          rcases hentries e hin (by rw [hallow]; rfl) with ⟨allow', hallow', hentry⟩
          rw [hallow] at hallow'
          cases Option.some.inj hallow'
          refine ⟨e, hin, _, hentry, ⟨?_, ?_, ?_⟩, ?_⟩
          · exact hscheme.trans hscheme'
          · exact hhost.trans hhost'
          · show defaultPort p.scheme = defaultPort allow.scheme
            rw [hscheme, hscheme']
          · show stem ((allow.path.drop 1).splitOn '/') <+: (p.path.drop 1).splitOn '/'
            rw [hpath]
            exact stem_prefix_of_admitted hallow (or_assoc.mp hunder)

end Alike

/-- Whatever is fetched below an allowed base URL stays under the list exactly if
the base covers its origin; and a fetch that parser and client read alike is
under an entry that they read alike. -/
theorem release_url_inside_iff (env : String → Option String) (entries : List String)
    (hlist : allowlist env = some entries) (hstar : "*" ∉ entries) (url : String) :
    (StaysInside env entries url ↔
      (releaseUrlAllowed env url = .ok () → OriginCovered entries url.toList)) ∧
    (releaseUrlAllowed env url = .ok () → Stored url.toList →
      (∀ e ∈ entries, (parseHttpUrl e.toList).isSome = true → ReadsAlike e.toList) →
        ∀ asset, ReadsAlike (assetUrl url.toList asset) →
          ∃ f, WebUrl.read (assetUrl url.toList asset) = some f ∧ UnderEntry entries f) := by
  constructor
  · exact imp_congr_right fun _ => inside_iff entries url.toList
  · intro hallowed hstored hentries asset hasset
    exact under_of_alike hlist hstar hallowed hstored hentries hasset

section Sample

def mirrorEnv : String → Option String := fun name =>
  if name = "GR_DEPLOY_ENV" then some "production"
  else if name = "GR_RELEASE_URL_ALLOWLIST" then
    some "https://github.com/greenpng/install/, https://dl.example.org/"
  else none

def mirrorEntries : List String :=
  ["https://github.com/greenpng/install/", "https://dl.example.org/"]

theorem mirror_covered :
    OriginCovered mirrorEntries "https://dl.example.org/gr/v1".toList where
  host := by
    intro scheme hbase
    have hread : readBase (trimEndMatches '/' "https://dl.example.org/gr/v1".toList) =
        some ("https".toList, "dl.example.org/gr/v1".toList) := by decide
    rw [hread] at hbase
    cases hbase
  covered := by
    intro f hf
    have hread : WebUrl.read (assetUrl "https://dl.example.org/gr/v1".toList []) =
        some ⟨"https".toList, "dl.example.org".toList, 443,
          ["gr".toList, "v1".toList, []]⟩ := by decide
    rw [hread] at hf
    cases hf
    rw [if_neg (by decide)]
    refine ⟨"https://dl.example.org/", by simp [mirrorEntries],
      ⟨"https".toList, "dl.example.org".toList, 443, [[]]⟩, ?_, ?_⟩
    · decide
    · unfold SameOrigin
      decide

theorem mirror_readsAlike : ∀ e ∈ mirrorEntries, ReadsAlike e.toList := by
  intro e he
  rcases List.mem_pair.mp he with rfl | rfl
  · exact ⟨⟨"https".toList, "github.com".toList, "/greenpng/install/".toList⟩, by decide,
      by decide⟩
  · exact ⟨⟨"https".toList, "dl.example.org".toList, "/".toList⟩, by decide,
      by decide⟩

/-- Whatever is fetched from the mirror stays on it; and an asset of the repository that
is listed is fetched from there. -/
theorem release_url_inside_mirror :
    StaysInside mirrorEnv mirrorEntries "https://dl.example.org/gr/v1" ∧
      ∃ f, WebUrl.read (assetUrl "https://github.com/greenpng/install/v1".toList
        "fe.tgz".toList) = some f ∧ UnderEntry mirrorEntries f := by
  have hlist : allowlist mirrorEnv = some mirrorEntries := by decide
  have hstar : "*" ∉ mirrorEntries := by decide
  constructor
  · exact (release_url_inside_iff mirrorEnv mirrorEntries hlist hstar
      "https://dl.example.org/gr/v1").1.mpr fun _ => mirror_covered
  · have hstored : Stored "https://github.com/greenpng/install/v1".toList := by
      unfold Stored
      decide
    have hasset : ReadsAlike (assetUrl "https://github.com/greenpng/install/v1".toList
        "fe.tgz".toList) :=
      ⟨⟨"https".toList, "github.com".toList, "/greenpng/install/v1/fe.tgz".toList⟩,
        by decide, by decide⟩
    exact (release_url_inside_iff mirrorEnv mirrorEntries hlist hstar
      "https://github.com/greenpng/install/v1").2 (by decide) hstored
        (fun e he _ => mirror_readsAlike e he) "fe.tgz".toList hasset

def productionEnv : String → Option String := fun name =>
  if name = "GR_DEPLOY_ENV" then some "production" else none

def defaultEntries : List String :=
  ["https://github.com/greenpng/gr-server/", "https://github.com/greenpng/install/"]

/-- Dot segments in the base lead to another repository. -/
theorem dot_segments_counterexample : allowlist productionEnv = some defaultEntries ∧
    ¬StaysInside productionEnv defaultEntries
      "https://github.com/greenpng/install/../../other/repo" := by
  refine ⟨by decide, ?_⟩
  intro h
  have hallowed : releaseUrlAllowed productionEnv
      "https://github.com/greenpng/install/../../other/repo" = .ok () := by decide
  have hread : WebUrl.read (assetUrl
      "https://github.com/greenpng/install/../../other/repo".toList "fe.tgz".toList) =
      some ⟨"https".toList, "github.com".toList, 443,
        ["other".toList, "repo".toList, "fe.tgz".toList]⟩ := by decide
  have hname : FileName "fe.tgz".toList := by
    unfold FileName
    decide
  rcases h hallowed _ hname _ hread with ⟨e, he, g, hg, hwithin⟩
  have hnone : ∀ e ∈ defaultEntries, ∀ g, WebUrl.read e.toList = some g →
      ¬Within ⟨"https".toList, "github.com".toList, 443,
        ["other".toList, "repo".toList, "fe.tgz".toList]⟩ g := by
    intro e he g hg
    rcases List.mem_cons.mp he with rfl | he
    · have hentry : WebUrl.read "https://github.com/greenpng/gr-server/".toList =
          some ⟨"https".toList, "github.com".toList, 443,
            ["greenpng".toList, "gr-server".toList, []]⟩ := by decide
      rw [hentry] at hg
      rw [← Option.some.inj hg]
      decide
    · rw [List.mem_singleton.mp he] at hg
      have hentry : WebUrl.read "https://github.com/greenpng/install/".toList =
          some ⟨"https".toList, "github.com".toList, 443,
            ["greenpng".toList, "install".toList, []]⟩ := by decide
      rw [hentry] at hg
      rw [← Option.some.inj hg]
      decide
  exact hnone e he g hg hwithin

end Sample

end ReleaseUrl

end GrServer
