import Mathlib

/-!
# Strings as character lists

The `str` operations of Rust's standard library on lists of characters.  The
splitting and deleting operations do not depend on the character type and are
stated over any list.
-/

namespace GrServer

abbrev Text := List Char

namespace Text

/-- The Unicode `White_Space` property, `char::is_whitespace`. -/
def isWhitespace (c : Char) : Bool :=
  let n := c.toNat
  (9 ≤ n && n ≤ 13) || n == 0x20 || n == 0x85 || n == 0xa0 || n == 0x1680 ||
    (0x2000 ≤ n && n ≤ 0x200a) || n == 0x2028 || n == 0x2029 ||
    n == 0x202f || n == 0x205f || n == 0x3000

def asciiLower (c : Char) : Char :=
  if 'A' ≤ c ∧ c ≤ 'Z' then Char.ofNat (c.toNat + 32) else c

def isAsciiHexdigit (c : Char) : Bool :=
  c.isDigit || ('a' ≤ c && c ≤ 'f') || ('A' ≤ c && c ≤ 'F')

/-! ## Trimming and case -/

def trimStart (s : Text) : Text := s.dropWhile isWhitespace

def trimEnd (s : Text) : Text := (s.reverse.dropWhile isWhitespace).reverse

def trim (s : Text) : Text := trimEnd (trimStart s)

def trimStartMatches (c : Char) (s : Text) : Text := s.dropWhile (· = c)

def toAsciiLowercase (s : Text) : Text := s.map asciiLower

def trimmed (s : String) : String := String.ofList (trim s.toList)

theorem trimStart_trim (s : Text) : trimStart (trim s) = trim s := by
  refine List.dropWhile_eq_self_iff.mpr fun hpos => ?_
  have hprefix : trim s <+: trimStart s := List.rdropWhile_prefix isWhitespace _
  have hlength : 0 < (trimStart s).length := hpos.trans_le hprefix.length_le
  have hhead : (trim s)[0] = (trimStart s)[0] := hprefix.getElem hpos
  rw [hhead]
  exact List.dropWhile_get_zero_not isWhitespace s hlength

theorem trim_trim (s : Text) : trim (trim s) = trim s := by
  calc
    trim (trim s) = trimEnd (trim s) := by rw [trim, trimStart_trim]
    _ = trim s := List.rdropWhile_idempotent isWhitespace (trimStart s)

theorem trim_concat_newline (p : Text) : trim (p ++ ['\n']) = trim p := by
  have hend : ∀ q : Text, trimEnd (q ++ ['\n']) = trimEnd q := by
    intro q
    unfold trimEnd
    rw [List.reverse_append, List.reverse_singleton, List.singleton_append,
      List.dropWhile_cons_of_pos (by decide)]
  by_cases hblank : trimStart p = []
  · have hstart : trimStart (p ++ ['\n']) = [] := by
      unfold trimStart at hblank ⊢
      rw [List.dropWhile_append, hblank]
      rfl
    unfold trim
    rw [hblank, hstart]
  · have hstart : trimStart (p ++ ['\n']) = trimStart p ++ ['\n'] := by
      unfold trimStart at hblank ⊢
      rw [List.dropWhile_append, if_neg (by simpa using hblank)]
    unfold trim
    rw [hstart, hend]

theorem trimEnd_append {p : Text} (hne : p ≠ []) (hlast : isWhitespace (p.getLast hne) = false)
    (s : Text) : trimEnd (p ++ s) = p ++ trimEnd s := by
  have hp : p.reverse.dropWhile isWhitespace = p.reverse := by
    refine List.dropWhile_eq_self_iff.mpr fun hpos => ?_
    rw [List.getElem_reverse]
    simpa [List.getLast_eq_getElem] using hlast
  unfold trimEnd
  rw [List.reverse_append, List.dropWhile_append, hp]
  split_ifs with hempty
  · rw [List.isEmpty_iff.mp hempty]
    simp
  · simp

theorem trimStart_append {p : Text} (hne : p ≠ []) (hhead : isWhitespace (p.head hne) = false)
    (s : Text) : trimStart (p ++ s) = p ++ s := by
  cases p with
  | nil => exact absurd rfl hne
  | cons c cs =>
      unfold trimStart
      rw [List.cons_append, List.dropWhile_cons, if_neg]
      simpa using hhead

theorem trim_eq_nil_iff {s : Text} : trim s = [] ↔ ∀ c ∈ s, isWhitespace c = true := by
  have hend : trim s = [] ↔ ∀ c ∈ trimStart s, isWhitespace c = true :=
    List.rdropWhile_eq_nil_iff
  rw [hend]
  constructor
  · intro hall
    have hstart : trimStart s = [] := by
      cases hs : trimStart s with
      | nil => rfl
      | cons c rest =>
          have hpos : 0 < (trimStart s).length := by
            rw [hs]
            exact Nat.succ_pos _
          have hhead := List.dropWhile_get_zero_not isWhitespace s hpos
          exact absurd (hall _ (List.getElem_mem hpos)) hhead
    exact List.dropWhile_eq_nil_iff.mp hstart
  · intro hall c hc
    exact hall c (List.dropWhile_subset _ hc)

@[simp] theorem trimmed_trimmed (s : String) : trimmed (trimmed s) = trimmed s := by
  simp [trimmed, trim_trim]

@[simp] theorem trimmed_empty : trimmed "" = "" := by decide

def lowered (s : String) : String := String.ofList (toAsciiLowercase s.toList)

def startsWith (s p : String) : Bool := p.toList.isPrefixOf s.toList

def stripPrefix? (s p : String) : Option String :=
  if startsWith s p then some (String.ofList (s.toList.drop p.length)) else none

def containsStr (s p : String) : Bool := decide (p.toList <:+: s.toList)

def splitChar (c : Char) (s : String) : List String :=
  (s.toList.splitOn c).map String.ofList

def eqIgnoreAsciiCase (s t : String) : Bool := lowered s = lowered t

/-- `gr_abi::env::get`: a prefixed variable of the process environment. -/
def envGet (env : String → Option String) (name : String) : Option String :=
  env ("GR_" ++ name)

/-- A variable whose trimmed value is one of `values`. -/
def envIs (env : String → Option String) (name : String) (values : List String) : Bool :=
  ((envGet env name).map fun v => decide (trimmed v ∈ values)).getD false

def envIsLowered (env : String → Option String) (name : String) (values : List String) : Bool :=
  ((envGet env name).map fun v => decide (lowered (trimmed v) ∈ values)).getD false

def envFlag (env : String → Option String) (name : String) : Bool :=
  envIsLowered env name ["1", "true", "yes", "on"]

/-- The UTF-8 bytes, `str::as_bytes`. -/
def asBytes (s : String) : List UInt8 := s.toByteArray.data.toList

theorem stripPrefix?_eq_some {s p rest : String} :
    stripPrefix? s p = some rest ↔ s = p ++ rest := by
  unfold stripPrefix? startsWith
  constructor
  · intro h
    split_ifs at h with hprefix
    obtain ⟨tail, htail⟩ := List.isPrefixOf_iff_prefix.mp hprefix
    have hrest : tail = rest.toList := by
      rw [← Option.some.inj h, String.toList_ofList, ← htail, ← String.length_toList,
        List.drop_left]
    apply String.toList_injective
    rw [String.toList_append, ← hrest, htail]
  · rintro rfl
    have hprefix : p.toList.isPrefixOf (p ++ rest).toList = true := by
      rw [String.toList_append]
      exact List.isPrefixOf_iff_prefix.mpr (List.prefix_append _ _)
    rw [if_pos hprefix, String.toList_append, ← String.length_toList, List.drop_left,
      String.ofList_toList]

theorem asBytes_inj {s t : String} : asBytes s = asBytes t ↔ s = t := by
  constructor
  · intro h
    have hdata : s.toByteArray.data = t.toByteArray.data := Array.toList_inj.mp h
    exact String.toByteArray_inj.mp (ByteArray.ext hdata)
  · rintro rfl
    rfl

theorem fromUTF8?_asBytes (s : String) : String.fromUTF8? ⟨(asBytes s).toArray⟩ = some s := by
  have hbytes : (⟨(asBytes s).toArray⟩ : ByteArray) = s.toByteArray := by
    simp [asBytes]
  unfold String.fromUTF8?
  rw [hbytes, dif_pos s.isValidUTF8]
  rfl

theorem fromUTF8?_eq_some {bytes : List UInt8} {s : String} :
    String.fromUTF8? ⟨bytes.toArray⟩ = some s ↔ asBytes s = bytes := by
  constructor
  · intro h
    unfold String.fromUTF8? at h
    split_ifs at h with hvalid
    rw [← Option.some.inj h]
    simp [asBytes, String.fromUTF8]
  · rintro rfl
    exact fromUTF8?_asBytes s

theorem asBytes_append (s t : String) : asBytes (s ++ t) = asBytes s ++ asBytes t := by
  simp [asBytes]

theorem asBytes_eq_flatMap (s : String) :
    asBytes s = s.toList.flatMap String.utf8EncodeChar := by
  unfold asBytes
  rw [← String.utf8Encode_toList]
  simp [List.utf8Encode]

theorem utf8EncodeChar_ascii {c : Char} (h : c.toNat < 128) :
    String.utf8EncodeChar c = [UInt8.ofNat c.toNat] := by
  have hle : c.val.toNat ≤ 0x7f := Nat.le_of_lt_succ h
  unfold String.utf8EncodeChar
  dsimp only
  rw [if_pos hle]
  rfl

theorem utf8EncodeChar_high {c : Char} (h : 128 ≤ c.toNat) :
    ∀ b ∈ String.utf8EncodeChar c, 128 ≤ b.toNat := by
  have hle : ¬ c.val.toNat ≤ 0x7f := by
    have hval : c.val.toNat = c.toNat := rfl
    omega
  unfold String.utf8EncodeChar
  dsimp only
  rw [if_neg hle]
  split_ifs <;> simp only [List.mem_cons, List.not_mem_nil, or_false, forall_eq_or_imp,
    forall_eq, UInt8.toNat_ofNat'] <;> omega

theorem utf8_boundary {t : Text} {l r : List UInt8} {b : UInt8} (hb : b.toNat < 128)
    (h : t.flatMap String.utf8EncodeChar = l ++ b :: r) :
    ∃ p q, t = p ++ Char.ofNat b.toNat :: q ∧ p.flatMap String.utf8EncodeChar = l ∧
      q.flatMap String.utf8EncodeChar = r := by
  induction t generalizing l with
  | nil => simp at h
  | cons c t ih =>
      rw [List.flatMap_cons] at h
      rcases List.append_eq_append_iff.mp h with ⟨rest, hl, hrest⟩ | ⟨rest, hc, hrest⟩
      · rcases ih hrest with ⟨p, q, rfl, hp, hq⟩
        refine ⟨c :: p, q, rfl, ?_, hq⟩
        rw [List.flatMap_cons, hp, hl]
      · cases rest with
        | nil =>
            have hrest' : t.flatMap String.utf8EncodeChar = [] ++ b :: r := hrest.symm
            rcases ih hrest' with ⟨p, q, rfl, hp, hq⟩
            refine ⟨c :: p, q, rfl, ?_, hq⟩
            rw [List.flatMap_cons, hp, hc, List.append_nil, List.append_nil]
        | cons d rest =>
            rcases List.cons.inj hrest with ⟨rfl, hr⟩
            by_cases hascii : c.toNat < 128
            · rw [utf8EncodeChar_ascii hascii] at hc
              rcases List.append_eq_singleton_iff.mp hc.symm with ⟨hl, hd⟩ | ⟨-, hd⟩
              · rcases List.cons.inj hd with ⟨rfl, rfl⟩
                refine ⟨[], t, ?_, hl.symm, hr.symm⟩
                rw [UInt8.toNat_ofNat', Nat.mod_eq_of_lt (by omega), Char.ofNat_toNat]
                rfl
              · cases hd
            · have hmem : b ∈ String.utf8EncodeChar c := by
                rw [hc]
                exact List.mem_append_right _ List.mem_cons_self
              have hhigh := utf8EncodeChar_high (Nat.le_of_not_lt hascii) b hmem
              omega

theorem asBytes_boundary {s : String} {l r : List UInt8} {b : UInt8} (hb : b.toNat < 128)
    (h : asBytes s = l ++ b :: r) :
    ∃ p q : String, s.toList = p.toList ++ Char.ofNat b.toNat :: q.toList ∧ asBytes p = l ∧
      asBytes q = r := by
  rw [asBytes_eq_flatMap] at h
  rcases utf8_boundary hb h with ⟨p, q, hs, hp, hq⟩
  refine ⟨String.ofList p, String.ofList q, ?_, ?_, ?_⟩
  · rw [String.toList_ofList, String.toList_ofList, hs]
  · rw [asBytes_eq_flatMap, String.toList_ofList, hp]
  · rw [asBytes_eq_flatMap, String.toList_ofList, hq]

theorem mem_of_mem_asBytes {s : String} {b : UInt8} (hb : b.toNat < 128) (h : b ∈ asBytes s) :
    Char.ofNat b.toNat ∈ s.toList := by
  rcases List.mem_iff_append.mp h with ⟨l, r, hlr⟩
  rcases asBytes_boundary hb hlr with ⟨p, q, hs, -, -⟩
  rw [hs]
  exact List.mem_append_right _ List.mem_cons_self

theorem length_le_asBytes (s : String) : s.toList.length ≤ (asBytes s).length := by
  rw [asBytes_eq_flatMap]
  induction s.toList with
  | nil => simp
  | cons c cs ih =>
      have hc : 0 < c.utf8Size := c.utf8Size_pos
      rw [List.flatMap_cons, List.length_append, String.length_utf8EncodeChar, List.length_cons]
      omega

theorem isDigit_of_mem_repr_nat {c : Char} {n : ℕ} (h : c ∈ n.repr.toList) :
    c.isDigit = true := by
  rw [Nat.toList_repr] at h
  exact Nat.isDigit_of_mem_toDigits (by omega) (by omega) h

theorem isDigit_or_sign_of_mem_repr {c : Char} {n : ℤ} (h : c ∈ n.repr.toList) :
    c.isDigit = true ∨ c = '-' := by
  cases n with
  | ofNat n => exact Or.inl (isDigit_of_mem_repr_nat h)
  | negSucc n =>
      have hcons : (Int.negSucc n).repr.toList = '-' :: (n + 1).repr.toList := by
        simp [Int.repr, String.toList_append]
      rw [hcons] at h
      rcases List.mem_cons.mp h with rfl | h
      · exact Or.inr rfl
      · exact Or.inl (isDigit_of_mem_repr_nat h)

theorem bar_not_mem_repr (n : ℤ) : '|' ∉ n.repr.toList := by
  intro hmem
  rcases isDigit_or_sign_of_mem_repr hmem with hdigit | hsign
  · simp [Char.isDigit] at hdigit
  · simp at hsign

theorem hexDigit_not_mem {c : Char} (hc : ∀ d < 16, Nat.digitChar d ≠ c) (n : ℕ) :
    c ∉ Nat.toDigits 16 n := by
  induction n using Nat.strong_induction_on with
  | _ n ih =>
      rw [Nat.toDigits_eq_if (by decide)]
      split_ifs with hlt
      · intro hmem
        exact hc n hlt (List.mem_singleton.mp hmem).symm
      · intro hmem
        rcases List.mem_append.mp hmem with hmem | hmem
        · exact ih (n / 16) (by omega) hmem
        · exact hc (n % 16) (by omega) (List.mem_singleton.mp hmem).symm

theorem digitChar_inj {a b : ℕ} (ha : a < 16) (hb : b < 16)
    (h : Nat.digitChar a = Nat.digitChar b) : a = b := by
  have hall : ∀ a < 16, ∀ b < 16, Nat.digitChar a = Nat.digitChar b → a = b := by decide
  exact hall a ha b hb h

theorem toDigits_inj {a b : ℕ} (h : Nat.toDigits 16 a = Nat.toDigits 16 b) : a = b := by
  induction a using Nat.strong_induction_on generalizing b with
  | _ a ih =>
      have hne : ∀ n, Nat.toDigits 16 n ≠ [] := fun n => Nat.toDigits_ne_nil
      rw [Nat.toDigits_eq_if (by decide), @Nat.toDigits_eq_if 16 b (by decide)] at h
      split_ifs at h with ha hb hb
      · exact digitChar_inj ha hb (List.cons.inj h).1
      · have hlength := congrArg List.length h
        have hpos := List.length_pos_iff_ne_nil.mpr (hne (b / 16))
        simp only [List.length_append, List.length_singleton] at hlength
        omega
      · have hlength := congrArg List.length h
        have hpos := List.length_pos_iff_ne_nil.mpr (hne (a / 16))
        simp only [List.length_append, List.length_singleton] at hlength
        omega
      · obtain ⟨hfront, hlast⟩ := List.append_inj' h rfl
        have hhigh := ih (a / 16) (by omega) hfront
        have hlow := digitChar_inj (by omega) (by omega) (List.cons.inj hlast).1
        omega

/-- The characters that make up exactly the first `n` UTF-8 bytes: the slice
`&s[..n]`, with `none` where `n` is past the end or inside a character. -/
def sliceTo : ℕ → Text → Option Text
  | 0, _ => some []
  | _ + 1, [] => none
  | n + 1, c :: cs =>
      if c.utf8Size ≤ n + 1 then
        (sliceTo (n + 1 - c.utf8Size) cs).map (c :: ·)
      else none

/-! ## Splitting at one separator -/

section Splitting

variable {α : Type*} [DecidableEq α]

def splitOnce (sep : α) : List α → Option (List α × List α)
  | [] => none
  | c :: cs =>
      if c = sep then some ([], cs)
      else (splitOnce sep cs).map fun parts => (c :: parts.1, parts.2)

def rsplitOnce (sep : α) (s : List α) : Option (List α × List α) :=
  (splitOnce sep s.reverse).map fun parts => (parts.2.reverse, parts.1.reverse)

theorem splitOnce_eq_some {sep : α} {s before after : List α}
    (h : splitOnce sep s = some (before, after)) :
    s = before ++ sep :: after ∧ sep ∉ before := by
  induction s generalizing before with
  | nil => simp [splitOnce] at h
  | cons c cs ih =>
      unfold splitOnce at h
      split_ifs at h with hc
      · simp only [Option.some.injEq, Prod.mk.injEq] at h
        obtain ⟨rfl, rfl⟩ := h
        simp [hc]
      · obtain ⟨⟨b, a⟩, hrec, hparts⟩ := Option.map_eq_some_iff.mp h
        simp only [Prod.mk.injEq] at hparts
        obtain ⟨rfl, rfl⟩ := hparts
        obtain ⟨hcs, hnot⟩ := ih hrec
        refine ⟨by simp [hcs], ?_⟩
        simp [hnot, Ne.symm hc]

theorem splitOnce_eq_none {sep : α} {s : List α}
    (h : splitOnce sep s = none) : sep ∉ s := by
  induction s with
  | nil => simp
  | cons c cs ih =>
      unfold splitOnce at h
      split_ifs at h with hc
      have hrec := ih (Option.map_eq_none_iff.mp h)
      simp [hrec, Ne.symm hc]

theorem rsplitOnce_eq_some {sep : α} {s before after : List α}
    (h : rsplitOnce sep s = some (before, after)) :
    s = before ++ sep :: after ∧ sep ∉ after := by
  unfold rsplitOnce at h
  obtain ⟨⟨b, a⟩, hsplit, hparts⟩ := Option.map_eq_some_iff.mp h
  simp only [Prod.mk.injEq] at hparts
  obtain ⟨rfl, rfl⟩ := hparts
  obtain ⟨hs, hnot⟩ := splitOnce_eq_some hsplit
  refine ⟨?_, by simpa using hnot⟩
  have := congrArg List.reverse hs
  simpa using this

theorem splitOnce_of_not_mem {sep : α} {before : List α} (h : sep ∉ before)
    (after : List α) : splitOnce sep (before ++ sep :: after) = some (before, after) := by
  induction before with
  | nil => simp [splitOnce]
  | cons c cs ih =>
      rw [List.mem_cons, not_or] at h
      rw [List.cons_append]
      unfold splitOnce
      rw [if_neg (Ne.symm h.1), ih h.2]
      rfl

theorem rsplitOnce_of_not_mem {sep : α} {after : List α} (h : sep ∉ after)
    (before : List α) : rsplitOnce sep (before ++ sep :: after) = some (before, after) := by
  have hreverse : (before ++ sep :: after).reverse = after.reverse ++ sep :: before.reverse := by
    simp
  unfold rsplitOnce
  rw [hreverse, splitOnce_of_not_mem (by simpa using h)]
  simp

theorem rsplitOnce_eq_none {sep : α} {s : List α}
    (h : rsplitOnce sep s = none) : sep ∉ s := by
  unfold rsplitOnce at h
  have := splitOnce_eq_none (Option.map_eq_none_iff.mp h)
  simpa using this

omit [DecidableEq α] in
theorem append_cons_last_inj {sep : α} {a b a' b' : List α}
    (h : a ++ sep :: b = a' ++ sep :: b') (hb : sep ∉ b) (hb' : sep ∉ b') :
    a = a' ∧ b = b' := by
  rcases List.append_eq_append_iff.mp h with ⟨w, ha', hrest⟩ | ⟨w, ha, hrest⟩
  · cases w with
    | nil => simp_all
    | cons x xs =>
        simp only [List.cons_append, List.cons.injEq] at hrest
        exact absurd (by simp [hrest.2]) hb
  · cases w with
    | nil => simp_all
    | cons x xs =>
        simp only [List.cons_append, List.cons.injEq] at hrest
        exact absurd (by simp [hrest.2]) hb'

omit [DecidableEq α] in
theorem append_cons_first_inj {sep : α} {a b a' b' : List α}
    (h : a ++ sep :: b = a' ++ sep :: b') (ha : sep ∉ a) (ha' : sep ∉ a') :
    a = a' ∧ b = b' := by
  have hrev := congrArg List.reverse h
  simp only [List.reverse_append, List.reverse_cons, List.append_assoc,
    List.singleton_append] at hrev
  obtain ⟨hb, ha⟩ := append_cons_last_inj hrev (by simpa using ha) (by simpa using ha')
  exact ⟨List.reverse_injective ha, List.reverse_injective hb⟩

end Splitting

end Text

end GrServer
