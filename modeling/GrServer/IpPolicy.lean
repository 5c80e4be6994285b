import GrServer.ClientIp
import GrServer.IpText
import GrServer.SideStore

/-!
# The address policy and the networks it keeps

By default a client address is cut to its network, and a data subject's request
by address looks for the raw value and for the cut one.  The cut knows bare
addresses and values that have a slash; an address with a port passes whole, and
so does one with a prefix length.  An IPv4 address in IPv6 form is cut as the
IPv6 address it is written as.
-/

namespace GrServer

open Text

namespace SideStore

/-! ## Networks -/

/-- A `/24` of IPv4 or a `/48` of IPv6. -/
inductive Network where
  | v4 (high : BitVec 24)
  | v6 (high : BitVec 48)
  deriving DecidableEq

def unmapped : IpAddr → IpAddr
  | .v4 value => .v4 value
  | .v6 value =>
      if value.toNat / 2 ^ 32 = 0xffff then .v4 (BitVec.ofNat 32 value.toNat)
      else .v6 value

def networkOf (a : IpAddr) : Network :=
  match unmapped a with
  | .v4 value => .v4 (BitVec.ofNat 24 (value.toNat / 2 ^ 8))
  | .v6 value => .v6 (BitVec.ofNat 48 (value.toNat / 2 ^ 80))

def octetText (n : ℕ) : Text := (n % 256).repr.toList

def groupText (n : ℕ) : Text := Nat.toDigits 16 (n % 65536)

def Network.text : Network → Text
  | .v4 high =>
      octetText (high.toNat / 2 ^ 16) ++ '.' :: (octetText (high.toNat / 2 ^ 8) ++
        '.' :: (octetText high.toNat ++ ".0/24".toList))
  | .v6 high =>
      groupText (high.toNat / 2 ^ 32) ++ ':' :: (groupText (high.toNat / 2 ^ 16) ++
        ':' :: (groupText high.toNat ++ "::/48".toList))

theorem Network.text_v4 (high : BitVec 24) :
    Network.text (.v4 high) =
      octetText (high.toNat / 2 ^ 16) ++ '.' :: (octetText (high.toNat / 2 ^ 8) ++
        '.' :: (octetText high.toNat ++ ".0/24".toList)) := rfl

theorem Network.text_v6 (high : BitVec 48) :
    Network.text (.v6 high) =
      groupText (high.toNat / 2 ^ 32) ++ ':' :: (groupText (high.toNat / 2 ^ 16) ++
        ':' :: (groupText high.toNat ++ "::/48".toList)) := rfl

def IsPort (port : Text) : Prop :=
  ∃ ds, IpAddr.readDigits 10 port = (ds, []) ∧ ds ≠ [] ∧
    ds.foldl (fun n d => n * 10 + d) 0 < 65536

def addressBits : IpAddr → ℕ
  | .v4 _ => 32
  | .v6 _ => 128

/-- The text is an address, bare, with a port or with a prefix length. -/
inductive Denotes : Text → IpAddr → Prop
  | bare {t : Text} {a : IpAddr} : IpAddr.parse t = some a → Denotes t a
  | v4Port {t port : Text} {value : BitVec 32} :
      IpAddr.parse t = some (.v4 value) → IsPort port →
        Denotes (t ++ ':' :: port) (.v4 value)
  | v6Port {t port : Text} {value : BitVec 128} :
      IpAddr.parse t = some (.v6 value) → IsPort port →
        Denotes ('[' :: (t ++ ']' :: ':' :: port)) (.v6 value)
  | withPrefix {t bits : Text} {a : IpAddr} {n : ℕ} :
      IpAddr.parse t = some a → IpAddr.parseU8 bits = some n → n ≤ addressBits a →
        Denotes (t ++ '/' :: bits) a

def dsarMaskIp (ip : String) : String :=
  let t := trimmed ip
  if t = "" ∨ '/' ∈ t.toList then t
  else
    match IpAddr.parse t.toList with
    | some (.v4 value) =>
        let octet := fun i => (value.toNat / 2 ^ (8 * i) % 256).repr
        octet 3 ++ "." ++ octet 2 ++ "." ++ octet 1 ++ ".0/24"
    | some (.v6 value) =>
        let group := fun i => String.ofList (Nat.toDigits 16 (value.toNat / 2 ^ (16 * i) % 65536))
        group 7 ++ ":" ++ group 6 ++ ":" ++ group 5 ++ "::/48"
    | none => t

def dsarMatches (value stored : String) : Bool :=
  stored = value || stored = dsarMaskIp value

theorem dsarMaskIp_eq (ip : String) : dsarMaskIp ip = maskIpSubnet ip := by
  unfold dsarMaskIp maskIpSubnet
  dsimp only
  generalize trimmed ip = t
  by_cases hempty : t = ""
  · rw [if_pos (Or.inl hempty), if_pos hempty]
    exact hempty
  by_cases hslash : '/' ∈ t.toList
  · rw [if_pos (Or.inr hslash), if_neg hempty, if_pos hslash]
  · have hneither : ¬ (t = "" ∨ '/' ∈ t.toList) := not_or.mpr ⟨hempty, hslash⟩
    exact (if_neg hneither).trans ((if_neg hempty).trans (if_neg hslash)).symm

/-! ## What the cut gives -/

theorem trim_of_chars {t : Text} (h : ∀ c ∈ t, isWhitespace c = false) : trim t = t := by
  have hstart : trimStart t = t := by
    apply List.dropWhile_eq_self_iff.mpr
    intro hpos
    rw [h _ (List.getElem_mem hpos)]
    exact Bool.false_ne_true
  unfold trim
  rw [hstart]
  apply List.rdropWhile_eq_self_iff.mpr
  intro hne
  rw [h _ (List.getLast_mem hne)]
  exact Bool.false_ne_true

theorem parse_trim {t : Text} {a : IpAddr} (h : IpAddr.parse t = some a) :
    trim t = t ∧ '/' ∉ t := by
  have hchars := IpAddr.parse_chars h
  constructor
  · apply trim_of_chars
    intro c hc
    exact (IpAddr.addressChar_not_special (hchars c hc)).1
  · intro hslash
    exact (IpAddr.addressChar_not_special (hchars _ hslash)).2.1 rfl

theorem maskIpSubnet_of_slash {s : String} (h : '/' ∈ (trimmed s).toList) :
    maskIpSubnet s = trimmed s := by
  have hne : trimmed s ≠ "" := by
    intro hempty
    rw [hempty] at h
    cases h
  exact (if_neg hne).trans (if_pos h)

theorem maskIpSubnet_of_no_parse {s : String}
    (h : IpAddr.parse (trimmed s).toList = none) : maskIpSubnet s = trimmed s := by
  by_cases hempty : trimmed s = ""
  · exact (if_pos hempty).trans hempty.symm
  by_cases hslash : '/' ∈ (trimmed s).toList
  · exact maskIpSubnet_of_slash hslash
  · unfold maskIpSubnet
    dsimp only
    rw [if_neg hempty, if_neg hslash, h]

def writtenNetwork : IpAddr → Network
  | .v4 value => .v4 (BitVec.ofNat 24 (value.toNat / 2 ^ 8))
  | .v6 value => .v6 (BitVec.ofNat 48 (value.toNat / 2 ^ 80))

@[simp] theorem writtenNetwork_v4 (value : BitVec 32) :
    writtenNetwork (.v4 value) = .v4 (BitVec.ofNat 24 (value.toNat / 2 ^ 8)) := rfl

@[simp] theorem writtenNetwork_v6 (value : BitVec 128) :
    writtenNetwork (.v6 value) = .v6 (BitVec.ofNat 48 (value.toNat / 2 ^ 80)) := rfl

theorem writtenNetwork_of_unmapped {a : IpAddr} (h : unmapped a = a) :
    networkOf a = writtenNetwork a := by
  unfold networkOf
  rw [h]
  rfl

theorem maskIpSubnet_of_parse {s : String} {a : IpAddr}
    (h : IpAddr.parse (trimmed s).toList = some a) :
    (maskIpSubnet s).toList = (writtenNetwork a).text := by
  have hslash : '/' ∉ (trimmed s).toList := (parse_trim h).2
  have hempty : trimmed s ≠ "" := by
    intro hempty
    have hnone : IpAddr.parse "".toList = none := by decide
    rw [hempty, hnone] at h
    cases h
  unfold maskIpSubnet
  dsimp only
  rw [if_neg hempty, if_neg hslash, h]
  cases a with
  | v4 value =>
      have hlt : value.toNat / 2 ^ 8 < 2 ^ 24 := by
        have := value.isLt
        omega
      dsimp only
      rw [writtenNetwork_v4, Network.text_v4, BitVec.toNat_ofNat, Nat.mod_eq_of_lt hlt, Nat.div_div_eq_div_mul,
        Nat.div_div_eq_div_mul]
      simp [String.toList_append, octetText]
  | v6 value =>
      have hlt : value.toNat / 2 ^ 80 < 2 ^ 48 := by
        have := value.isLt
        omega
      dsimp only
      rw [writtenNetwork_v6, Network.text_v6, BitVec.toNat_ofNat, Nat.mod_eq_of_lt hlt, Nat.div_div_eq_div_mul,
        Nat.div_div_eq_div_mul]
      simp [String.toList_append, groupText]

/-! ## Networks and their texts -/

theorem octetText_chars {n : ℕ} {c : Char} (h : c ∈ octetText n) : c.isDigit = true :=
  isDigit_of_mem_repr_nat h

theorem octetText_inj {m n : ℕ} (h : octetText m = octetText n) : m % 256 = n % 256 :=
  Nat.repr_inj.mp (String.toList_injective h)

theorem groupText_inj {m n : ℕ} (h : groupText m = groupText n) : m % 65536 = n % 65536 :=
  toDigits_inj h

theorem dot_not_mem_octetText (n : ℕ) : '.' ∉ octetText n := by
  intro h
  exact absurd (octetText_chars h) (by decide)

theorem colon_not_mem_groupText (n : ℕ) : ':' ∉ groupText n :=
  hexDigit_not_mem (by decide) _

theorem colon_not_mem_text_v4 (high : BitVec 24) : ':' ∉ (Network.v4 high).text := by
  have hoctet (n : ℕ) : ':' ∉ octetText n := by
    intro h
    exact absurd (octetText_chars h) (by decide)
  rw [Network.text_v4]
  simp [hoctet]

theorem bracket_not_mem_text_v6 (high : BitVec 48) : '[' ∉ (Network.v6 high).text := by
  have hgroup (n : ℕ) : '[' ∉ groupText n := hexDigit_not_mem (by decide) _
  rw [Network.text_v6]
  simp [hgroup]

theorem slash_mem_text (n : Network) : '/' ∈ n.text := by
  cases n with
  | v4 high =>
      rw [Network.text_v4]
      simp
  | v6 high =>
      rw [Network.text_v6]
      simp

theorem Network.text_inj {m n : Network} (h : m.text = n.text) : m = n := by
  cases m with
  | v4 high =>
      cases n with
      | v4 high' =>
          rw [Network.text_v4, Network.text_v4] at h
          obtain ⟨h₁, h⟩ := append_cons_first_inj h (dot_not_mem_octetText _)
            (dot_not_mem_octetText _)
          obtain ⟨h₂, h⟩ := append_cons_first_inj h (dot_not_mem_octetText _)
            (dot_not_mem_octetText _)
          have h₃ := List.append_cancel_right h
          have hhigh := octetText_inj h₁
          have hmiddle := octetText_inj h₂
          have hlow := octetText_inj h₃
          have hlt := high.isLt
          have hlt' := high'.isLt
          have heq : high.toNat = high'.toNat := by omega
          rw [BitVec.eq_of_toNat_eq heq]
      | v6 high' =>
          have hmem : ':' ∈ (Network.v6 high').text := by
            rw [Network.text_v6]
            simp
          rw [← h] at hmem
          exact absurd hmem (colon_not_mem_text_v4 high)
  | v6 high =>
      cases n with
      | v4 high' =>
          have hmem : ':' ∈ (Network.v6 high).text := by
            rw [Network.text_v6]
            simp
          rw [h] at hmem
          exact absurd hmem (colon_not_mem_text_v4 high')
      | v6 high' =>
          rw [Network.text_v6, Network.text_v6] at h
          obtain ⟨h₁, h⟩ := append_cons_first_inj h (colon_not_mem_groupText _)
            (colon_not_mem_groupText _)
          obtain ⟨h₂, h⟩ := append_cons_first_inj h (colon_not_mem_groupText _)
            (colon_not_mem_groupText _)
          have h₃ := List.append_cancel_right h
          have hhigh := groupText_inj h₁
          have hmiddle := groupText_inj h₂
          have hlow := groupText_inj h₃
          have hlt := high.isLt
          have hlt' := high'.isLt
          have heq : high.toNat = high'.toNat := by omega
          rw [BitVec.eq_of_toNat_eq heq]

theorem hexDigit_not_space {c : Char} {n : ℕ} (h : c ∈ Nat.toDigits 16 n) :
    isWhitespace c = false := by
  have hall : ∀ d < 16, isWhitespace (Nat.digitChar d) = false := by decide
  by_contra hspace
  refine hexDigit_not_mem ?_ n h
  rintro d hd rfl
  exact hspace (hall d hd)

theorem trim_text (n : Network) : trim n.text = n.text := by
  apply trim_of_chars
  have hoctet (n : ℕ) : ∀ c ∈ octetText n, isWhitespace c = false :=
    fun c hc => IpAddr.digit_not_space (octetText_chars hc)
  have hgroup (n : ℕ) : ∀ c ∈ groupText n, isWhitespace c = false :=
    fun c hc => hexDigit_not_space hc
  intro c hc
  cases n with
  | v4 high =>
      have htail : ∀ c ∈ ['.', '0', '/', '2', '4'], isWhitespace c = false := by
        simp only [List.forall_mem_cons]
        exact ⟨by decide, by decide, by decide, by decide, by decide, by simp⟩
      rw [Network.text_v4] at hc
      simp only [List.mem_append, List.mem_cons] at hc
      rcases hc with hc | rfl | hc | rfl | hc | hc
      · exact hoctet _ c hc
      · exact htail _ List.mem_cons_self
      · exact hoctet _ c hc
      · exact htail _ List.mem_cons_self
      · exact hoctet _ c hc
      · exact htail c hc
  | v6 high =>
      have htail : ∀ c ∈ [':', ':', '/', '4', '8'], isWhitespace c = false := by
        simp only [List.forall_mem_cons]
        exact ⟨by decide, by decide, by decide, by decide, by decide, by simp⟩
      rw [Network.text_v6] at hc
      simp only [List.mem_append, List.mem_cons] at hc
      rcases hc with hc | rfl | hc | rfl | hc | hc
      · exact hgroup _ c hc
      · exact htail _ List.mem_cons_self
      · exact hgroup _ c hc
      · exact htail _ List.mem_cons_self
      · exact hgroup _ c hc
      · exact htail c hc

/-- A bare address, or a network's own text; and no IPv4 address in IPv6 form. -/
structure Hidden (s : String) (a : IpAddr) : Prop where
  unmapped : unmapped a = a
  form : IpAddr.parse (trimmed s).toList = some a ∨ (trimmed s).toList = (networkOf a).text

/-- What the policy owes to the address a value denotes. -/
structure HidesHost (env : String → Option String) (s : String) (a : IpAddr) : Prop where
  network : ∀ t b, Hidden t b →
    (applyIpPolicy env s = applyIpPolicy env t ↔ networkOf a = networkOf b)
  idempotent : applyIpPolicy env (applyIpPolicy env s) = applyIpPolicy env s
  store : applyIpPolicy env s = dsarMaskIp s
  found : ∀ t, IpAddr.parse t.toList = some a →
    dsarMatches t (applyIpPolicy env s) = true

theorem applyIpPolicy_default {env : String → Option String}
    (henv : ipForensicMode env = false) (s : String) :
    applyIpPolicy env s = maskIpSubnet s := by
  unfold applyIpPolicy
  rw [henv]
  rfl

theorem Hidden.mask {s : String} {a : IpAddr} (h : Hidden s a) :
    (maskIpSubnet s).toList = (networkOf a).text := by
  rcases h.form with hparse | htext
  · rw [maskIpSubnet_of_parse hparse, writtenNetwork_of_unmapped h.unmapped]
  · have hslash : '/' ∈ (trimmed s).toList := by
      rw [htext]
      exact slash_mem_text _
    rw [maskIpSubnet_of_slash hslash, htext]

theorem maskIpSubnet_idem (s : String) : maskIpSubnet (maskIpSubnet s) = maskIpSubnet s := by
  cases hparse : IpAddr.parse (trimmed s).toList with
  | none =>
      have htrim : maskIpSubnet s = trimmed s := maskIpSubnet_of_no_parse hparse
      rw [htrim]
      apply (maskIpSubnet_of_no_parse _).trans (trimmed_trimmed s)
      rw [trimmed_trimmed]
      exact hparse
  | some a =>
      have htext := maskIpSubnet_of_parse hparse
      have htrim : trimmed (maskIpSubnet s) = maskIpSubnet s := by
        apply String.toList_injective
        unfold trimmed
        rw [String.toList_ofList, htext]
        exact trim_text _
      have hslash : '/' ∈ (trimmed (maskIpSubnet s)).toList := by
        rw [htrim, htext]
        exact slash_mem_text _
      rw [maskIpSubnet_of_slash hslash, htrim]

theorem parse_trimmed {t : Text} {a : IpAddr} (h : IpAddr.parse t = some a) :
    IpAddr.parse (trimmed (String.ofList t)).toList = some a := by
  unfold trimmed
  rw [String.toList_ofList, String.toList_ofList, (parse_trim h).1]
  exact h

theorem Hidden.of_plain {t : Text} {a : IpAddr} (h : IpAddr.parse t = some a)
    (hplain : SideStore.unmapped a = a) : Hidden (String.ofList t) a where
  unmapped := hplain
  form := Or.inl (parse_trimmed h)

theorem Hidden.hides {env : String → Option String} (henv : ipForensicMode env = false)
    {s : String} {a : IpAddr} (h : Hidden s a) : HidesHost env s a := by
  have hpolicy (s : String) : applyIpPolicy env s = maskIpSubnet s :=
    applyIpPolicy_default henv s
  constructor
  · intro t b ht
    rw [hpolicy, hpolicy]
    constructor
    · intro heq
      apply Network.text_inj
      rw [← h.mask, ← ht.mask, heq]
    · intro hnetwork
      apply String.toList_injective
      rw [h.mask, ht.mask, hnetwork]
  · rw [hpolicy, hpolicy]
    exact maskIpSubnet_idem s
  · rw [hpolicy]
    exact (dsarMaskIp_eq s).symm
  · intro t ht
    have hself : Hidden t a := by
      have hplain := Hidden.of_plain ht h.unmapped
      rw [String.ofList_toList] at hplain
      exact hplain
    have heq : maskIpSubnet s = dsarMaskIp t := by
      apply String.toList_injective
      rw [dsarMaskIp_eq, h.mask, hself.mask]
    unfold dsarMatches
    rw [hpolicy, heq, decide_eq_true rfl, Bool.or_true]

/-! ## The other direction -/

section Converse

variable {env : String → Option String} (henv : ipForensicMode env = false) {s : String}
  {a : IpAddr}

include henv

theorem HidesHost.mask_eq_text (h : HidesHost env s a) {t : Text}
    (ht : IpAddr.parse t = some a) (hplain : unmapped a = a) :
    (maskIpSubnet s).toList = (networkOf a).text := by
  have hhidden : Hidden (String.ofList t) a := Hidden.of_plain ht hplain
  have heq := (h.network (String.ofList t) a hhidden).mpr rfl
  rw [applyIpPolicy_default henv, applyIpPolicy_default henv] at heq
  rw [heq, hhidden.mask]

theorem HidesHost.found_text (h : HidesHost env s a) {t : Text}
    (ht : IpAddr.parse t = some a) (hne : (maskIpSubnet s).toList ≠ t) :
    (maskIpSubnet s).toList = (writtenNetwork a).text := by
  have hfound := h.found (String.ofList t) (by rw [String.toList_ofList]; exact ht)
  unfold dsarMatches at hfound
  rw [applyIpPolicy_default henv, Bool.or_eq_true, decide_eq_true_eq,
    decide_eq_true_eq, dsarMaskIp_eq] at hfound
  rcases hfound with hself | hcut
  · exact absurd (by rw [hself, String.toList_ofList]) hne
  · rw [hcut, maskIpSubnet_of_parse (parse_trimmed ht)]

end Converse

theorem writtenNetwork_of_mapped {a : IpAddr} (h : unmapped a ≠ a) :
    writtenNetwork a = .v6 0 ∧ ∃ high, networkOf a = .v4 high := by
  cases a with
  | v4 value => exact absurd rfl h
  | v6 value =>
      unfold unmapped at h
      dsimp only at h
      split_ifs at h with hmapped
      · constructor
        · rw [writtenNetwork_v6]
          have hzero : value.toNat / 2 ^ 80 = 0 := by omega
          rw [hzero]
          rfl
        · unfold networkOf unmapped
          dsimp only
          rw [if_pos hmapped]
          exact ⟨_, rfl⟩
      · exact absurd rfl h

def anyAddress : String := "::"

theorem anyAddress_hidden : Hidden anyAddress (.v6 0) :=
  ⟨by decide, Or.inl (by decide)⟩

theorem HidesHost.unmapped {env : String → Option String} (henv : ipForensicMode env = false)
    {s : String} {a : IpAddr} (hdenotes : Denotes (trimmed s).toList a)
    (h : HidesHost env s a) : SideStore.unmapped a = a := by
  by_contra hmapped
  obtain ⟨hwritten, high, hnetwork⟩ := writtenNetwork_of_mapped hmapped
  generalize hs : (trimmed s).toList = text at hdenotes
  cases hdenotes with
  | bare hparse =>
      -- the text is cut to the network of `::`
      have heq : applyIpPolicy env s = applyIpPolicy env anyAddress := by
        rw [applyIpPolicy_default henv, applyIpPolicy_default henv]
        apply String.toList_injective
        rw [maskIpSubnet_of_parse (hs ▸ hparse), hwritten, anyAddress_hidden.mask]
        rfl
      have hsame := (h.network anyAddress (.v6 0) anyAddress_hidden).mp heq
      rw [hnetwork] at hsame
      cases hsame
  | v4Port hparse hport => exact hmapped rfl
  | @v6Port t port value hparse hport =>
      have hmask : (maskIpSubnet s).toList = '[' :: (t ++ ']' :: ':' :: port) := by
        rw [maskIpSubnet_of_no_parse (by rw [hs]; exact IpAddr.parse_bracket _), hs]
      have hne : (maskIpSubnet s).toList ≠ t := by
        rw [hmask]
        intro heq
        have hlength := congrArg List.length heq
        simp at hlength
        omega
      have htext := h.found_text henv hparse hne
      rw [hwritten, hmask] at htext
      have hmem : '[' ∈ (Network.v6 0).text := by
        rw [← htext]
        exact List.mem_cons_self
      exact bracket_not_mem_text_v6 0 hmem
  | @withPrefix t bits _ n hparse hbits hle =>
      have hslash : '/' ∈ (trimmed s).toList := by
        rw [hs]
        simp
      have hmask : (maskIpSubnet s).toList = t ++ '/' :: bits := by
        rw [maskIpSubnet_of_slash hslash, hs]
      have hne : (maskIpSubnet s).toList ≠ t := by
        rw [hmask]
        intro heq
        have hlength := congrArg List.length heq
        simp at hlength
      have htext := h.found_text henv hparse hne
      rw [hwritten, hmask] at htext
      have hzero : (Network.v6 0).text = "0:0:0::".toList ++ '/' :: "48".toList := by decide
      rw [hzero] at htext
      obtain ⟨ht, _⟩ := append_cons_first_inj htext (parse_trim hparse).2 (by decide)
      have hany : IpAddr.parse "0:0:0::".toList = some (.v6 0) := by decide
      rw [ht, hany] at hparse
      cases hparse
      exact hmapped (by decide)

/-- In default mode a value's address is hidden exactly where the value is a bare
address or a network's own text, and no IPv4 address in IPv6 form. -/
theorem policy_hides_host_iff {env : String → Option String}
    (henv : ipForensicMode env = false) {s : String} {a : IpAddr}
    (hdenotes : Denotes (trimmed s).toList a) : HidesHost env s a ↔ Hidden s a := by
  constructor
  · intro h
    have hplain := h.unmapped henv hdenotes
    refine ⟨hplain, ?_⟩
    generalize hs : (trimmed s).toList = text at hdenotes
    cases hdenotes with
    | bare hparse => exact Or.inl hparse
    | @v4Port t port value hparse hport =>
        have htext := h.mask_eq_text henv hparse hplain
        rw [maskIpSubnet_of_no_parse (by rw [hs]; exact IpAddr.parse_v4_port hparse port), hs]
          at htext
        exact Or.inr htext
    | @v6Port t port value hparse hport =>
        have htext := h.mask_eq_text henv hparse hplain
        rw [maskIpSubnet_of_no_parse (by rw [hs]; exact IpAddr.parse_bracket _), hs] at htext
        exact Or.inr htext
    | @withPrefix t bits _ n hparse hbits hle =>
        have hslash : '/' ∈ (trimmed s).toList := by
          rw [hs]
          simp
        have htext := h.mask_eq_text henv hparse hplain
        rw [maskIpSubnet_of_slash hslash, hs] at htext
        exact Or.inr htext
  · intro h
    exact h.hides henv

def exampleAddr : IpAddr := .v4 (BitVec.ofNat 32 (203 * 2 ^ 24 + 113 * 2 ^ 8 + 77))

theorem exampleAddr_parse : IpAddr.parse "203.0.113.77".toList = some exampleAddr := by
  decide

theorem bare_address_is_hidden : HidesHost (fun _ => none) " 203.0.113.77 " exampleAddr := by
  have hhidden : Hidden " 203.0.113.77 " exampleAddr := ⟨by decide, Or.inl (by decide)⟩
  exact (policy_hides_host_iff (by decide) (Denotes.bare (by decide))).mpr hhidden

theorem address_with_port_passes_whole :
    ClientIp.clientIpFrom ⟨[], none⟩ [("cf-connecting-ip", "203.0.113.77:8080")] none =
        some "203.0.113.77:8080" ∧
      Denotes (trimmed "203.0.113.77:8080").toList exampleAddr ∧
      applyIpPolicy (fun _ => none) "203.0.113.77:8080" = "203.0.113.77:8080" ∧
      ¬ HidesHost (fun _ => none) "203.0.113.77:8080" exampleAddr := by
  have hport : IsPort "8080".toList := ⟨[8, 0, 8, 0], by decide, by decide, by decide⟩
  have hpolicy : applyIpPolicy (fun _ => none) "203.0.113.77:8080" = "203.0.113.77:8080" := by
    decide
  refine ⟨by decide, Denotes.v4Port exampleAddr_parse hport, hpolicy, ?_⟩
  intro h
  have hfound := h.found "203.0.113.77" exampleAddr_parse
  rw [hpolicy] at hfound
  revert hfound
  decide

end SideStore

end GrServer
