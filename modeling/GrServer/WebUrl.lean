import GrServer.Text

/-!
# How a web client reads a URL

The reading of `http` and `https` URLs that clients agree on: blanks around the
text and line breaks in it go, a back-slash is a slash, user information, query
and fragment are split off, the port has a default, and dot segments, also
percent-encoded ones, are removed.  Other percent-encoding is left as it is, and
a host is its text in lower case.
-/

namespace GrServer

namespace WebUrl

open Text

structure Url where
  scheme : Text
  host : Text
  port : ℕ
  path : List Text
  deriving DecidableEq

/-! ## Reading -/

def isSlash (c : Char) : Bool := c == '/' || c == '\\'

def isMark (c : Char) : Bool := c == '?' || c == '#'

def endsAuthority (c : Char) : Bool := isSlash c || isMark c

def isBlank (c : Char) : Bool := decide (c.toNat ≤ 32)

def isTabOrNewline (c : Char) : Bool := c == '\t' || c == '\n' || c == '\r'

def cleanStart (t : Text) : Text := (t.dropWhile isBlank).filter fun c => !isTabOrNewline c

def cleanEnd (t : Text) : Text := (t.rdropWhile isBlank).filter fun c => !isTabOrNewline c

def clean (t : Text) : Text := cleanEnd (t.dropWhile isBlank)

def isSingleDot (s : Text) : Bool :=
  decide (toAsciiLowercase s ∈ [".".toList, "%2e".toList])

def isDoubleDot (s : Text) : Bool :=
  decide (toAsciiLowercase s ∈ ["..".toList, ".%2e".toList, "%2e.".toList, "%2e%2e".toList])

def enterSegment (stack : List Text) (s : Text) : List Text :=
  if isDoubleDot s then stack.tail else if isSingleDot s then stack else s :: stack

def lastSegment (stack : List Text) (s : Text) : List Text :=
  if isDoubleDot s then [] :: stack.tail else if isSingleDot s then [] :: stack else s :: stack

def walkPath (stack : List Text) : List Text → List Text
  | [] => stack.reverse
  | [s] => (lastSegment stack s).reverse
  | s :: t :: rest => walkPath (enterSegment stack s) (t :: rest)

/-- `p` is empty or begins with a slash. -/
def readPath (p : Text) : List Text := walkPath [] ((p.drop 1).splitOnP isSlash)

def defaultPort (scheme : Text) : ℕ := if scheme = "https".toList then 443 else 80

def readPort (scheme p : Text) : Option ℕ :=
  if p = [] then some (defaultPort scheme)
  else if p.all Char.isDigit then
    (some (p.foldl (fun n c => n * 10 + (c.toNat - '0'.toNat)) 0)).filter fun n => decide (n ≤ 65535)
  else none

def splitHost (hp : Text) : Option (Text × Text) :=
  match hp with
  | '[' :: _ =>
      match splitOnce ']' hp with
      | some (inner, []) => some (inner ++ [']'], [])
      | some (inner, ':' :: p) => some (inner ++ [']'], p)
      | _ => none
  | _ => some ((splitOnce ':' hp).getD (hp, []))

def readAuthority (scheme a : Text) : Option (Text × ℕ) :=
  match splitHost (((rsplitOnce '@' a).map Prod.snd).getD a) with
  | none => none
  | some (host, p) =>
      if host = [] then none
      else (readPort scheme p).map fun port => (toAsciiLowercase host, port)

def readAfterSlashes (scheme rest : Text) : Option Url :=
  (readAuthority scheme (rest.takeWhile fun c => !endsAuthority c)).map fun hp =>
    ⟨scheme, hp.1, hp.2,
      readPath ((rest.dropWhile fun c => !endsAuthority c).takeWhile fun c => !isMark c)⟩

def isWeb (scheme : Text) : Bool := decide (scheme ∈ ["http".toList, "https".toList])

def splitScheme (t : Text) : Option (Text × Text) :=
  (splitOnce ':' t).bind fun parts =>
    if isWeb (toAsciiLowercase parts.1) then some (toAsciiLowercase parts.1, parts.2) else none

def read (t : Text) : Option Url :=
  (splitScheme (clean t)).bind fun parts =>
    readAfterSlashes parts.1 (parts.2.dropWhile isSlash)

def stem (path : List Text) : List Text := path.rdropWhile fun s => s == []

def SameOrigin (f g : Url) : Prop := f.scheme = g.scheme ∧ f.host = g.host ∧ f.port = g.port

/-- `f` lies under `g`: at the same origin, and below its path at the end of a
segment. -/
def Within (f g : Url) : Prop := SameOrigin f g ∧ stem g.path <+: f.path

instance (f g : Url) : Decidable (SameOrigin f g) := inferInstanceAs (Decidable (_ ∧ _))

instance (f g : Url) : Decidable (Within f g) := inferInstanceAs (Decidable (_ ∧ _))

section Joined

variable {scheme t a : Text}

theorem isBlank_slash : isBlank '/' = false := by decide

theorem clean_join : clean (t ++ '/' :: a) = cleanStart t ++ '/' :: cleanEnd a := by
  have hstart : (t ++ '/' :: a).dropWhile isBlank = t.dropWhile isBlank ++ '/' :: a := by
    rw [List.dropWhile_append]
    split_ifs with hempty
    · rw [List.isEmpty_iff.mp hempty, List.nil_append,
        List.dropWhile_cons_of_neg (by simp [isBlank_slash])]
    · rfl
  have hend : ∀ s : Text, (s ++ '/' :: a).rdropWhile isBlank = s ++ '/' :: a.rdropWhile isBlank := by
    intro s
    unfold List.rdropWhile
    rw [List.reverse_append, List.reverse_cons, List.append_assoc, List.dropWhile_append]
    split_ifs with hempty
    · rw [List.isEmpty_iff.mp hempty, List.singleton_append,
        List.dropWhile_cons_of_neg (by simp [isBlank_slash])]
      simp
    · simp
  unfold clean cleanStart cleanEnd
  rw [hstart, hend, List.filter_append, List.filter_cons_of_pos (by decide)]

theorem splitScheme_join :
    splitScheme (t ++ '/' :: a) = (splitScheme t).map fun parts =>
      (parts.1, parts.2 ++ '/' :: a) := by
  have hnotWeb : ∀ s : Text, '/' ∈ s → isWeb (toAsciiLowercase s) = false := by
    intro s hs
    have hmem : '/' ∈ toAsciiLowercase s := List.mem_map.mpr ⟨'/', hs, by decide⟩
    by_contra hweb
    have hscheme := of_decide_eq_true (Bool.not_eq_false _ ▸ hweb)
    rcases List.mem_cons.mp hscheme with heq | hscheme
    · rw [heq] at hmem
      exact absurd hmem (by decide)
    · rw [List.mem_singleton.mp hscheme] at hmem
      exact absurd hmem (by decide)
  unfold splitScheme
  cases hsplit : splitOnce ':' t with
  | some parts =>
      rcases splitOnce_eq_some hsplit with ⟨ht, hbefore⟩
      have hjoin : splitOnce ':' (t ++ '/' :: a) = some (parts.1, parts.2 ++ '/' :: a) := by
        rw [ht, List.append_assoc, List.cons_append]
        exact splitOnce_of_not_mem hbefore _
      rw [hjoin, Option.bind_some, Option.bind_some]
      dsimp only
      split_ifs <;> rfl
  | none =>
      rw [Option.bind_none, Option.map_none]
      cases hjoin : splitOnce ':' (t ++ '/' :: a) with
      | none => rfl
      | some parts =>
          rcases splitOnce_eq_some hjoin with ⟨heq, -⟩
          have hslash : '/' ∈ parts.1 := by
            rcases List.append_eq_append_iff.mp heq with ⟨w, hfirst, hrest⟩ | ⟨w, hfirst, hrest⟩
            · cases w with
              | nil => simp at hrest
              | cons c w =>
                  rw [List.cons_append, List.cons.injEq] at hrest
                  rw [hfirst, ← hrest.1]
                  simp
            · cases w with
              | nil => simp at hrest
              | cons c w =>
                  rw [List.cons_append, List.cons.injEq] at hrest
                  have hcolon : ':' ∈ t := by
                    rw [hfirst, ← hrest.1]
                    simp
                  exact absurd hcolon (splitOnce_eq_none hsplit)
          rw [Option.bind_some, if_neg (by rw [hnotWeb _ hslash]; decide)]

def readBase (t : Text) : Option (Text × Text) :=
  (splitScheme (cleanStart t)).map fun parts => (parts.1, parts.2.dropWhile isSlash)

theorem read_join : read (t ++ '/' :: a) = (readBase t).bind fun parts =>
    if parts.2 = [] then readAfterSlashes parts.1 ((cleanEnd a).dropWhile isSlash)
    else readAfterSlashes parts.1 (parts.2 ++ '/' :: cleanEnd a) := by
  unfold read readBase
  rw [clean_join, splitScheme_join]
  cases splitScheme (cleanStart t) with
  | none => rfl
  | some parts =>
      simp only [Option.map_some, Option.bind_some]
      rw [List.dropWhile_append]
      by_cases hnone : parts.2.dropWhile isSlash = []
      · rw [hnone, List.isEmpty_nil, if_pos rfl, if_pos rfl,
          List.dropWhile_cons_of_pos (by decide)]
      · rw [if_neg hnone, if_neg (by simpa using hnone)]

def pathAfter (r : Text) : Text := r.dropWhile fun c => !endsAuthority c

theorem readAfterSlashes_join {r y : Text} :
    readAfterSlashes scheme (r ++ '/' :: y) =
      (readAuthority scheme (r.takeWhile fun c => !endsAuthority c)).map fun hp =>
        ⟨scheme, hp.1, hp.2, readPath (if (pathAfter r).any isMark then
          (pathAfter r).takeWhile fun c => !isMark c
          else pathAfter r ++ '/' :: y.takeWhile fun c => !isMark c)⟩ := by
  have hauthority : (r ++ '/' :: y).takeWhile (fun c => !endsAuthority c) =
      r.takeWhile fun c => !endsAuthority c := by
    rw [List.takeWhile_append]
    split_ifs with hall
    · rw [List.takeWhile_cons_of_neg (by decide), List.append_nil]
      exact ((List.takeWhile_prefix _).eq_of_length hall).symm
    · rfl
  have hpath : (r ++ '/' :: y).dropWhile (fun c => !endsAuthority c) =
      pathAfter r ++ '/' :: y := by
    unfold pathAfter
    rw [List.dropWhile_append]
    split_ifs with hempty
    · rw [List.isEmpty_iff.mp hempty, List.dropWhile_cons_of_neg (by decide), List.nil_append]
    · rfl
  have hmark : (pathAfter r ++ '/' :: y).takeWhile (fun c => !isMark c) =
      if (pathAfter r).any isMark then (pathAfter r).takeWhile fun c => !isMark c
      else pathAfter r ++ '/' :: y.takeWhile fun c => !isMark c := by
    by_cases hany : (pathAfter r).any isMark = true
    · rw [if_pos hany, List.takeWhile_append, if_neg]
      intro hlen
      have hall := List.takeWhile_eq_self_iff.mp ((List.takeWhile_prefix _).eq_of_length hlen)
      rcases List.any_eq_true.mp hany with ⟨c, hc, hcmark⟩
      have hnot := hall c hc
      rw [hcmark] at hnot
      cases hnot
    · rw [if_neg hany, List.takeWhile_append_of_pos, List.takeWhile_cons_of_pos (by decide)]
      intro c hc
      by_contra hcmark
      exact hany (List.any_eq_true.mpr ⟨c, hc, by simpa using hcmark⟩)
  unfold readAfterSlashes
  rw [hauthority, hpath, hmark]

end Joined

/-! ## Climbing -/

section Climbing

variable {stack : List Text} {p : Text}

theorem walkPath_append {as bs : List Text} (hbs : bs ≠ []) :
    walkPath stack (as ++ bs) = walkPath (as.foldl enterSegment stack) bs := by
  induction as generalizing stack with
  | nil => rfl
  | cons a as ih =>
      cases hrest : as ++ bs with
      | nil => exact absurd (List.append_eq_nil_iff.mp hrest).2 hbs
      | cons s rest =>
          rw [List.cons_append, hrest, List.foldl_cons, ← ih, hrest]
          rfl

theorem splitOnP_ne_nil (q : Text) : q.splitOnP isSlash ≠ [] := List.splitOnP_ne_nil _ _

theorem readPath_join (hp : ∀ c ∈ p.head?, isSlash c = true) :
    ∃ stack, ∀ y : Text, readPath (p ++ '/' :: y) = walkPath stack (y.splitOnP isSlash) := by
  cases p with
  | nil => exact ⟨[], fun _ => rfl⟩
  | cons c cs =>
      refine ⟨(cs.splitOnP isSlash).foldl enterSegment [], ?_⟩
      intro y
      unfold readPath
      rw [List.cons_append, List.drop_one, List.tail_cons,
        List.splitOnP_append_cons _ _ (by decide), walkPath_append (splitOnP_ne_nil y)]

def climb (k m : ℕ) : Text :=
  (List.replicate k "%2e%2e\\".toList).flatten ++ List.replicate m 'x'

theorem splitOnP_climb (k m : ℕ) : (climb k m).splitOnP isSlash =
    List.replicate k "%2e%2e".toList ++ [List.replicate m 'x'] := by
  induction k with
  | zero =>
      show (List.replicate m 'x').splitOnP isSlash = [List.replicate m 'x']
      apply List.splitOnP_eq_singleton
      intro c hc
      rw [List.eq_of_mem_replicate hc]
      decide
  | succ k ih =>
      have hcons : climb (k + 1) m = "%2e%2e".toList ++ '\\' :: climb k m := by
        unfold climb
        rw [List.replicate_succ, List.flatten_cons]
        rfl
      have hup : ∀ c ∈ "%2e%2e".toList, isSlash c = false := by
        show ∀ c ∈ ['%', '2', 'e', '%', '2', 'e'], isSlash c = false
        simp [isSlash]
      have hslash : isSlash '\\' = true := by decide
      have hsplit : ("%2e%2e".toList ++ '\\' :: climb k m).splitOnP isSlash =
          "%2e%2e".toList :: (climb k m).splitOnP isSlash :=
        List.splitOnP_append_cons_of_forall_mem hup _ hslash _
      rw [hcons, hsplit, ih, List.replicate_succ, List.cons_append]

theorem foldl_enterSegment_up (k : ℕ) :
    (List.replicate k "%2e%2e".toList).foldl enterSegment stack = stack.drop k := by
  induction k generalizing stack with
  | zero => rfl
  | succ k ih =>
      have hup : enterSegment stack "%2e%2e".toList = stack.tail := by
        unfold enterSegment
        rw [if_pos (by decide)]
      rw [List.replicate_succ, List.foldl_cons, hup, ih, List.drop_tail]

theorem walkPath_climb {k m : ℕ} (hk : stack.length ≤ k) (hm : 0 < m) :
    walkPath stack ((climb k m).splitOnP isSlash) = [List.replicate m 'x'] := by
  have hword : ∀ s ∈ [".".toList, "%2e".toList, "..".toList, ".%2e".toList, "%2e.".toList,
      "%2e%2e".toList], toAsciiLowercase (List.replicate m 'x') ≠ s := by
    intro s hs heq
    have hx : 'x' ∈ s := by
      rw [← heq]
      exact List.mem_map.mpr ⟨'x', List.mem_replicate.mpr ⟨hm.ne', rfl⟩, by decide⟩
    have hnone : ∀ s ∈ [".".toList, "%2e".toList, "..".toList, ".%2e".toList, "%2e.".toList,
        "%2e%2e".toList], 'x' ∉ s := by decide
    exact hnone s hs hx
  have hsingle : isSingleDot (List.replicate m 'x') = false := by
    apply decide_eq_false
    intro hmem
    simp only [List.mem_cons, List.not_mem_nil, or_false] at hmem
    rcases hmem with h | h
    · exact hword _ (by simp) h
    · exact hword _ (by simp) h
  have hdouble : isDoubleDot (List.replicate m 'x') = false := by
    apply decide_eq_false
    intro hmem
    simp only [List.mem_cons, List.not_mem_nil, or_false] at hmem
    rcases hmem with h | h | h | h
    · exact hword _ (by simp) h
    · exact hword _ (by simp) h
    · exact hword _ (by simp) h
    · exact hword _ (by simp) h
  rw [splitOnP_climb, walkPath_append (List.cons_ne_nil _ _), foldl_enterSegment_up,
    List.drop_eq_nil_of_le hk]
  simp [walkPath, lastSegment, hsingle, hdouble]

theorem mem_climb {c : Char} {k m : ℕ} (hc : c ∈ climb k m) :
    c ∈ ['%', '2', 'e', '\\', 'x'] := by
  rcases List.mem_append.mp hc with hc | hc
  · rcases List.mem_flatten.mp hc with ⟨s, hs, hc⟩
    rw [List.eq_of_mem_replicate hs] at hc
    have hall : ∀ d ∈ "%2e%2e\\".toList, d ∈ ['%', '2', 'e', '\\', 'x'] := by
      show ∀ d ∈ ['%', '2', 'e', '%', '2', 'e', '\\'], d ∈ ['%', '2', 'e', '\\', 'x']
      simp
    exact hall c hc
  · rw [List.eq_of_mem_replicate hc]
    simp

theorem cleanEnd_climb {k m : ℕ} : cleanEnd (climb k m) = climb k m := by
  have hplain : ∀ c ∈ climb k m, isBlank c = false ∧ isTabOrNewline c = false := by
    intro c hc
    have hall : ∀ c ∈ ['%', '2', 'e', '\\', 'x'],
        isBlank c = false ∧ isTabOrNewline c = false := by
      simp [isBlank, isTabOrNewline]
    exact hall c (mem_climb hc)
  have hend : (climb k m).rdropWhile isBlank = climb k m := by
    unfold List.rdropWhile
    rw [List.dropWhile_eq_self_iff.mpr, List.reverse_reverse]
    intro hpos
    have hmem := List.mem_reverse.mp (List.getElem_mem hpos)
    rw [(hplain _ hmem).1]
    decide
  unfold cleanEnd
  rw [hend, List.filter_eq_self]
  intro c hc
  rw [(hplain c hc).2]
  rfl

theorem takeWhile_climb {k m : ℕ} :
    (climb k m).takeWhile (fun c => !isMark c) = climb k m := by
  apply List.takeWhile_eq_self_iff.mpr
  intro c hc
  have hall : ∀ c ∈ ['%', '2', 'e', '\\', 'x'], (!isMark c) = true := by simp [isMark]
  exact hall c (mem_climb hc)

theorem readAfterSlashes_word {scheme : Text} {m : ℕ} (hm : 0 < m) :
    readAfterSlashes scheme (List.replicate m 'x') =
      some ⟨scheme, List.replicate m 'x', defaultPort scheme, [[]]⟩ := by
  have hnot : ∀ c, c ≠ 'x' → c ∉ List.replicate m 'x' := by
    intro c hc hmem
    exact hc (List.eq_of_mem_replicate hmem)
  have hsplit : ∀ c, c ≠ 'x' → splitOnce c (List.replicate m 'x') = none := by
    intro c hc
    cases hparts : splitOnce c (List.replicate m 'x') with
    | none => rfl
    | some parts =>
        have hmem : c ∈ List.replicate m 'x' := by
          rw [(splitOnce_eq_some hparts).1]
          simp
        exact absurd hmem (hnot c hc)
  have htake : (List.replicate m 'x').takeWhile (fun c => !endsAuthority c) =
      List.replicate m 'x' := by
    apply List.takeWhile_eq_self_iff.mpr
    intro c hc
    rw [List.eq_of_mem_replicate hc]
    decide
  have hdrop : (List.replicate m 'x').dropWhile (fun c => !endsAuthority c) = [] := by
    apply List.dropWhile_eq_nil_iff.mpr
    intro c hc
    rw [List.eq_of_mem_replicate hc]
    decide
  have hlower : toAsciiLowercase (List.replicate m 'x') = List.replicate m 'x' := by
    unfold toAsciiLowercase
    rw [List.map_replicate]
    rfl
  have huser : rsplitOnce '@' (List.replicate m 'x') = none := by
    unfold rsplitOnce
    rw [List.reverse_replicate, hsplit '@' (by decide)]
    rfl
  have hhost : splitHost (List.replicate m 'x') = some (List.replicate m 'x', []) := by
    obtain ⟨m, rfl⟩ := Nat.exists_eq_succ_of_ne_zero hm.ne'
    have hcolon := hsplit ':' (by decide)
    rw [List.replicate_succ] at hcolon ⊢
    unfold splitHost
    rw [hcolon]
    rfl
  have hne : List.replicate m 'x' ≠ [] := by
    rw [ne_eq, List.replicate_eq_nil_iff]
    exact hm.ne'
  unfold readAfterSlashes readAuthority
  rw [htake, hdrop, huser, Option.map_none, Option.getD_none, hhost]
  have hroot : readPath [] = [[]] := by decide
  simp [hne, hlower, hroot, readPort]

end Climbing

end WebUrl

end GrServer
