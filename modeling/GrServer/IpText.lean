import GrServer.IpAddress

/-!
# The text of an address

What the address parser takes off the front of a text is made of hexadecimal
digits, dots and colons, and a colon behind an IPv4 address is left over.
-/

namespace GrServer

open Text

namespace IpAddr

/-! ## The characters of an address -/

def addressChar (c : Char) : Bool :=
  isAsciiHexdigit c || c = '.' || c = ':'

def Took (s rest : Text) : Prop :=
  ∃ taken, s = taken ++ rest ∧ ∀ c ∈ taken, addressChar c = true

theorem Took.refl (s : Text) : Took s s :=
  ⟨[], rfl, by simp⟩

theorem Took.trans {s rest rest' : Text} (h : Took s rest) (h' : Took rest rest') :
    Took s rest' := by
  obtain ⟨taken, rfl, htaken⟩ := h
  obtain ⟨taken', rfl, htaken'⟩ := h'
  refine ⟨taken ++ taken', (List.append_assoc _ _ _).symm, ?_⟩
  intro c hc
  rcases List.mem_append.mp hc with hc | hc
  · exact htaken c hc
  · exact htaken' c hc

theorem addressChar_of_digit {radix : ℕ} (hradix : radix ≤ 16) {c : Char} {d : ℕ}
    (h : digitOf radix c = some d) : addressChar c = true := by
  have hle (a b : Char) : a ≤ b ↔ a.toNat ≤ b.toNat := by
    rw [Char.le_def, UInt32.le_iff_toNat_le]
    rfl
  unfold digitOf at h
  dsimp only at h
  unfold addressChar isAsciiHexdigit Char.isDigit
  simp only [hle, ge_iff_le, Bool.or_eq_true, Bool.and_eq_true, decide_eq_true_eq] at h ⊢
  split_ifs at h with hsmall hdecimal hlower hupper
  · have hzero : '0' ≤ c := (hle '0' c).mpr hsmall.1
    have hnine : c ≤ '9' := (hle c '9').mpr hsmall.2
    exact Or.inl (Or.inl (Or.inl (Or.inl ⟨Char.le_def.mp hzero, Char.le_def.mp hnine⟩)))
  · have hf : 'f'.toNat = 'a'.toNat + 5 := rfl
    exact Or.inl (Or.inl (Or.inl (Or.inr ⟨hlower.1, by omega⟩)))
  · have hf : 'F'.toNat = 'A'.toNat + 5 := rfl
    rename_i hrange hbound
    exact Or.inl (Or.inl (Or.inr ⟨hrange.1, by omega⟩))
  · rename_i hself
    exact absurd hself (lt_irrefl radix)

theorem took_readDigits {radix : ℕ} (hradix : radix ≤ 16) (s : Text) :
    Took s (readDigits radix s).2 := by
  induction s with
  | nil => exact Took.refl []
  | cons c cs ih =>
      unfold readDigits
      cases hdigit : digitOf radix c with
      | none => exact Took.refl _
      | some d =>
          obtain ⟨taken, hcs, htaken⟩ := ih
          refine ⟨c :: taken, congrArg (c :: ·) hcs, ?_⟩
          intro x hx
          rcases List.mem_cons.mp hx with rfl | hx
          · exact addressChar_of_digit hradix hdigit
          · exact htaken x hx

theorem took_readNumber {radix maxDigits bound : ℕ} {zeroPrefix : Bool} {s rest : Text}
    {n : ℕ} (hradix : radix ≤ 16)
    (h : readNumber radix maxDigits bound zeroPrefix s = some (n, rest)) : Took s rest := by
  unfold readNumber at h
  have htook := took_readDigits hradix s
  revert h htook
  generalize readDigits radix s = read
  obtain ⟨ds, left⟩ := read
  dsimp only
  split_ifs <;> simp
  rintro _ rfl htook
  exact htook

theorem took_readChar {c : Char} (hc : addressChar c = true) {s rest : Text}
    (h : readChar c s = some rest) : Took s rest := by
  cases s with
  | nil => cases h
  | cons d ds =>
      unfold readChar at h
      dsimp only at h
      split_ifs at h with hd
      obtain rfl := Option.some.inj h
      refine ⟨[d], rfl, ?_⟩
      simpa [hd] using hc

theorem took_readSeparator {c : Char} (hc : addressChar c = true) {index : ℕ} {s rest : Text}
    (h : readSeparator c index s = some rest) : Took s rest := by
  unfold readSeparator at h
  split_ifs at h
  · obtain rfl := Option.some.inj h
    exact Took.refl s
  · exact took_readChar hc h

theorem took_readOctets {count index : ℕ} {s rest : Text} {octets : List ℕ}
    (h : readOctets count index s = some (octets, rest)) : Took s rest := by
  induction count generalizing index s octets with
  | zero =>
      unfold readOctets at h
      cases h
      exact Took.refl _
  | succ count ih =>
      unfold readOctets at h
      simp only [bind, Option.bind_eq_some_iff] at h
      obtain ⟨afterDot, hdot, ⟨octet, afterOctet⟩, hnumber, ⟨others, left⟩, hrest, hpair⟩ := h
      cases hpair
      exact (took_readSeparator (by decide) hdot).trans
        ((took_readNumber (by decide) hnumber).trans (ih hrest))

theorem took_readGroups (limit index : ℕ) (s : Text) :
    Took s (readGroups limit index s).2.2 := by
  induction limit generalizing index s with
  | zero => exact Took.refl s
  | succ limit ih =>
      unfold readGroups
      extract_lets embedded
      have hembedded : ∀ octets rest, embedded = some (octets, rest) → Took s rest := by
        intro octets rest h
        unfold embedded at h
        split_ifs at h
        obtain ⟨afterColon, hcolon, hoctets⟩ := Option.bind_eq_some_iff.mp h
        exact (took_readSeparator (by decide) hcolon).trans (took_readOctets hoctets)
      clear_value embedded
      split
      · exact hembedded _ _ rfl
      · split
        · exact Took.refl s
        · rename_i group rest hread
          obtain ⟨afterColon, hcolon, hnumber⟩ := Option.bind_eq_some_iff.mp hread
          exact (took_readSeparator (by decide) hcolon).trans
            ((took_readNumber (by decide) hnumber).trans (ih (index + 1) rest))

theorem took_readIpv6 {s rest : Text} {groups : List ℕ}
    (h : readIpv6 s = some (groups, rest)) : Took s rest := by
  unfold readIpv6 at h
  have hhead := took_readGroups 8 0 s
  generalize readGroups 8 0 s = read at h hhead
  obtain ⟨head, headIpv4, left⟩ := read
  dsimp only at h hhead
  split_ifs at h with hfull hipv4
  · cases h
    exact hhead
  · cases h
  · simp only [bind, Option.bind_eq_some_iff] at h
    obtain ⟨afterFirst, hfirst, afterSecond, hsecond, hpair⟩ := h
    have htail := took_readGroups (8 - (head.length + 1)) 0 afterSecond
    cases hpair
    exact hhead.trans ((took_readChar (by decide) hfirst).trans
      ((took_readChar (by decide) hsecond).trans htail))

theorem parse_chars {s : Text} {a : IpAddr} (h : parse s = some a) :
    ∀ c ∈ s, addressChar c = true := by
  have hread : ∃ rest, Took s rest ∧ rest = [] := by
    unfold parse at h
    cases hipv4 : readIpv4 s with
    | some found =>
        obtain ⟨octets, rest⟩ := found
        rw [hipv4] at h
        dsimp only at h
        split_ifs at h with hrest
        exact ⟨rest, took_readOctets hipv4, hrest⟩
    | none =>
        rw [hipv4] at h
        cases hipv6 : readIpv6 s with
        | some found =>
            obtain ⟨groups, rest⟩ := found
            rw [hipv6] at h
            dsimp only at h
            split_ifs at h with hrest
            exact ⟨rest, took_readIpv6 hipv6, hrest⟩
        | none =>
            rw [hipv6] at h
            dsimp only at h
            split_ifs at h
  obtain ⟨rest, ⟨taken, hs, htaken⟩, hrest⟩ := hread
  rw [hs, hrest, List.append_nil]
  exact htaken

theorem addressChar_not_special {c : Char} (h : addressChar c = true) :
    isWhitespace c = false ∧ c ≠ '/' ∧ c ≠ '[' := by
  have hn : c.toNat = 46 ∨ 48 ≤ c.toNat ∧ c.toNat ≤ 102 ∧ c.toNat ≠ 91 := by
    unfold addressChar isAsciiHexdigit Char.isDigit at h
    simp only [Char.le_def, UInt32.le_iff_toNat_le, Bool.or_eq_true, Bool.and_eq_true,
      decide_eq_true_eq, ge_iff_le] at h
    have hval : c.val.toNat = c.toNat := rfl
    have h0 : '0'.val.toNat = 48 := rfl
    have h9 : '9'.val.toNat = 57 := rfl
    have ha : 'a'.val.toNat = 97 := rfl
    have hf : 'f'.val.toNat = 102 := rfl
    have hA : 'A'.val.toNat = 65 := rfl
    have hF : 'F'.val.toNat = 70 := rfl
    rcases h with ((h | h) | rfl) | rfl
    · omega
    · omega
    · exact Or.inl rfl
    · exact Or.inr (by decide)
  refine ⟨?_, ?_, ?_⟩
  · unfold isWhitespace
    simp only [Bool.or_eq_false_iff, Bool.and_eq_false_iff, decide_eq_false_iff_not,
      beq_eq_false_iff_ne]
    omega
  · rintro rfl
    revert hn
    decide
  · rintro rfl
    revert hn
    decide

theorem digit_not_space {c : Char} (h : c.isDigit = true) : isWhitespace c = false := by
  have haddress : addressChar c = true := by
    unfold addressChar isAsciiHexdigit
    rw [h]
    rfl
  exact (addressChar_not_special haddress).1

theorem readDigits_append {radix : ℕ} {c : Char} (hc : digitOf radix c = none) (s more : Text) :
    readDigits radix (s ++ c :: more) =
      ((readDigits radix s).1, (readDigits radix s).2 ++ c :: more) := by
  induction s with
  | nil =>
      rw [List.nil_append]
      unfold readDigits
      rw [hc]
      rfl
  | cons d ds ih =>
      rw [List.cons_append]
      unfold readDigits
      cases hd : digitOf radix d with
      | none => rfl
      | some n =>
          dsimp only
          rw [ih]

theorem readNumber_append {radix maxDigits bound : ℕ} {zeroPrefix : Bool} {c : Char}
    (hc : digitOf radix c = none) {s rest : Text} {n : ℕ}
    (h : readNumber radix maxDigits bound zeroPrefix s = some (n, rest)) (more : Text) :
    readNumber radix maxDigits bound zeroPrefix (s ++ c :: more) =
      some (n, rest ++ c :: more) := by
  unfold readNumber at h ⊢
  rw [readDigits_append hc]
  generalize readDigits radix s = read at h
  obtain ⟨ds, left⟩ := read
  dsimp only at h ⊢
  split_ifs at h ⊢
  cases h
  rfl

theorem readSeparator_append {sep c : Char} {index : ℕ} {s rest : Text}
    (h : readSeparator sep index s = some rest) (more : Text) :
    readSeparator sep index (s ++ c :: more) = some (rest ++ c :: more) := by
  unfold readSeparator at h ⊢
  split_ifs at h ⊢ with hindex
  · cases h
    rfl
  · cases s with
    | nil => cases h
    | cons d ds =>
        unfold readChar at h ⊢
        dsimp only [List.cons_append] at h ⊢
        split_ifs at h ⊢
        cases h
        rfl

theorem readOctets_append {c : Char} (hc : digitOf 10 c = none) {count index : ℕ}
    {s rest : Text} {octets : List ℕ} (h : readOctets count index s = some (octets, rest))
    (more : Text) :
    readOctets count index (s ++ c :: more) = some (octets, rest ++ c :: more) := by
  induction count generalizing index s octets with
  | zero =>
      unfold readOctets at h ⊢
      cases h
      rfl
  | succ count ih =>
      unfold readOctets at h ⊢
      simp only [bind, Option.bind_eq_some_iff] at h
      obtain ⟨afterDot, hdot, ⟨octet, afterOctet⟩, hnumber, ⟨others, left⟩, hrest, hpair⟩ := h
      cases hpair
      simp only [bind, readSeparator_append hdot, Option.bind_some,
        readNumber_append hc hnumber, ih hrest]
      rfl

theorem readIpv4_of_parse {s : Text} {value : BitVec 32} (h : parse s = some (.v4 value)) :
    ∃ octets, readIpv4 s = some (octets, []) := by
  unfold parse at h
  cases hipv4 : readIpv4 s with
  | some found =>
      obtain ⟨octets, rest⟩ := found
      rw [hipv4] at h
      dsimp only at h
      split_ifs at h with hrest
      rw [hrest]
      exact ⟨octets, rfl⟩
  | none =>
      rw [hipv4] at h
      cases hipv6 : readIpv6 s with
      | some found =>
          rw [hipv6] at h
          dsimp only at h
          split_ifs at h
          cases h
      | none =>
          rw [hipv6] at h
          dsimp only at h
          split_ifs at h

theorem parse_v4_port {s : Text} {value : BitVec 32} (h : parse s = some (.v4 value))
    (port : Text) : parse (s ++ ':' :: port) = none := by
  obtain ⟨octets, hread⟩ := readIpv4_of_parse h
  have hcolon : digitOf 10 ':' = none := by decide
  have happend : readIpv4 (s ++ ':' :: port) = some (octets, ':' :: port) :=
    readOctets_append hcolon hread port
  unfold parse
  rw [happend]
  rfl

theorem parse_bracket (rest : Text) : parse ('[' :: rest) = none := by
  rfl

end IpAddr

end GrServer
