import GrServer.TlsHello

/-!
# What JA3 and JA4 depend on

A JA4 does not depend on the order of the ciphers and of the extensions, and
neither fingerprint depends on the GREASE values of a hello.  Its shape is fixed
but for the two characters of the application protocol: a first and a last byte
that are not both alphanumeric are written in hex without a leading zero.
-/

namespace GrServer

namespace TlsHello

open Text

/-! ## Hellos that differ in GREASE or in order -/

/-- A GREASE value more, less or another one, anywhere in a list. -/
inductive GreaseStep : List UInt16 → List UInt16 → Prop
  | insert (before after : List UInt16) (g : UInt16) :
      isGreaseU16 g = true → GreaseStep (before ++ after) (before ++ g :: after)
  | remove (before after : List UInt16) (g : UInt16) :
      isGreaseU16 g = true → GreaseStep (before ++ g :: after) (before ++ after)
  | replace (before after : List UInt16) (g g' : UInt16) :
      isGreaseU16 g = true → isGreaseU16 g' = true →
      GreaseStep (before ++ g :: after) (before ++ g' :: after)

def Greased (vs ws : List UInt16) : Prop := Relation.ReflTransGen GreaseStep vs ws

/-- The hellos differ in their GREASE values only. -/
structure Regreased (p q : ClientHelloParts) : Prop where
  legacyVersion : p.legacyVersion = q.legacyVersion
  ciphers : Greased p.ciphers q.ciphers
  extensions : Greased p.extensions q.extensions
  supportedGroups : Greased p.supportedGroups q.supportedGroups
  ecPointFormats : p.ecPointFormats = q.ecPointFormats
  supportedVersions : Greased p.supportedVersions q.supportedVersions
  signatureAlgorithms : Greased p.signatureAlgorithms q.signatureAlgorithms
  alpn : p.alpn = q.alpn
  sni : p.sni = q.sni

/-- The hellos differ in the order of their ciphers and of their extensions only. -/
structure Reordered (p q : ClientHelloParts) : Prop where
  ciphers : p.ciphers.Perm q.ciphers
  extensions : p.extensions.Perm q.extensions
  rest : q = { p with ciphers := q.ciphers, extensions := q.extensions }

/-- The second value of `build_ja4`: the lists themselves for their digests. -/
def ja4Raw (codes : List (UInt16 × String)) (p : ClientHelloParts) : String :=
  let sniC := if p.sni.isSome || p.extensions.contains 0 then "d" else "i"
  let ciphers := nonGrease p.ciphers
  let exts := nonGrease p.extensions
  let extHex := sortedHex (exts.filter fun e => e != 0x0000 && e != 0x0010)
  let sigHex := (nonGrease p.signatureAlgorithms).map fun v => digits 16 4 v.toNat
  "t" ++ ja4VersionCode codes p ++ sniC ++ formatCount ciphers.length ++
    formatCount exts.length ++ ja4AlpnChars p.alpn.head? ++ "_" ++
    ",".intercalate (sortedHex ciphers) ++ "_" ++ ",".intercalate extHex ++
    (if sigHex = [] then "" else "_" ++ ",".intercalate sigHex)

section Grease

variable {vs ws : List UInt16} {p q : ClientHelloParts}

theorem nonGrease_append (vs ws : List UInt16) :
    nonGrease (vs ++ ws) = nonGrease vs ++ nonGrease ws := List.filter_append _ _

theorem nonGrease_cons_of_grease {g : UInt16} (hg : isGreaseU16 g = true) (vs : List UInt16) :
    nonGrease (g :: vs) = nonGrease vs := by
  unfold nonGrease
  rw [List.filter_cons_of_neg]
  simp [hg]

theorem nonGrease_of_step (h : GreaseStep vs ws) : nonGrease vs = nonGrease ws := by
  cases h with
  | insert before after g hg =>
      rw [nonGrease_append, nonGrease_append, nonGrease_cons_of_grease hg]
  | remove before after g hg =>
      rw [nonGrease_append, nonGrease_append, nonGrease_cons_of_grease hg]
  | replace before after g g' hg hg' =>
      rw [nonGrease_append, nonGrease_append, nonGrease_cons_of_grease hg,
        nonGrease_cons_of_grease hg']

theorem nonGrease_of_greased (h : Greased vs ws) : nonGrease vs = nonGrease ws := by
  induction h with
  | refl => rfl
  | tail _ hstep ih => exact ih.trans (nonGrease_of_step hstep)

theorem contains_zero_eq (vs : List UInt16) : vs.contains 0 = (nonGrease vs).contains 0 := by
  have hzero : isGreaseU16 0 = false := by decide
  rw [Bool.eq_iff_iff, List.contains_iff_mem, List.contains_iff_mem, nonGrease, List.mem_filter,
    hzero]
  simp

theorem buildJa3String_regreased (h : Regreased p q) : buildJa3String p = buildJa3String q := by
  unfold buildJa3String
  rw [h.legacyVersion, nonGrease_of_greased h.ciphers, nonGrease_of_greased h.extensions,
    nonGrease_of_greased h.supportedGroups, h.ecPointFormats]

theorem bestVersion_regreased (h : Regreased p q) : bestVersion p = bestVersion q := by
  unfold bestVersion
  rw [nonGrease_of_greased h.supportedVersions, h.legacyVersion]

theorem ja4_regreased (codes : List (UInt16 × String)) (D : Digests) (h : Regreased p q) :
    buildJa4 codes D p = buildJa4 codes D q ∧ ja4Raw codes p = ja4Raw codes q := by
  unfold buildJa4 ja4Raw ja4Tail ja4VersionCode
  rw [bestVersion_regreased h, h.sni, h.alpn, contains_zero_eq p.extensions,
    contains_zero_eq q.extensions, nonGrease_of_greased h.ciphers,
    nonGrease_of_greased h.extensions, nonGrease_of_greased h.signatureAlgorithms]
  exact ⟨rfl, rfl⟩

end Grease

section Order

variable {vs ws : List UInt16} {p q : ClientHelloParts}

theorem sortedHex_perm (h : vs.Perm ws) : sortedHex vs = sortedHex ws := by
  have hsorted : ∀ vs, (sortedHex vs).Pairwise fun a b => a ≤ b := by
    intro vs
    have hpairs : (sortedHex vs).Pairwise fun a b => decide (a ≤ b) = true :=
      List.pairwise_mergeSort (by simpa using fun a b c : String => @le_trans _ _ a b c)
        (by simpa using le_total) _
    exact hpairs.imp of_decide_eq_true
  have hperm : (sortedHex vs).Perm (sortedHex ws) :=
    (List.mergeSort_perm _ _).trans ((h.map _).trans (List.mergeSort_perm _ _).symm)
  exact hperm.eq_of_pairwise (fun a b _ _ hab hba => le_antisymm hab hba) (hsorted vs) (hsorted ws)

theorem ja4_reordered (codes : List (UInt16 × String)) (D : Digests) (h : Reordered p q) :
    buildJa4 codes D p = buildJa4 codes D q ∧ ja4Raw codes p = ja4Raw codes q := by
  have hciphers : (nonGrease p.ciphers).Perm (nonGrease q.ciphers) := h.ciphers.filter _
  have hexts : (nonGrease p.extensions).Perm (nonGrease q.extensions) := h.extensions.filter _
  have hzero : p.extensions.contains 0 = q.extensions.contains 0 := by
    rw [Bool.eq_iff_iff, List.contains_iff_mem, List.contains_iff_mem, h.extensions.mem_iff]
  unfold buildJa4 ja4Raw ja4Tail
  dsimp only
  rw [sortedHex_perm hciphers, sortedHex_perm (hexts.filter _), hciphers.length_eq,
    hexts.length_eq, hzero]
  have hrest := h.rest
  generalize q.ciphers = ciphers at hrest ⊢
  generalize q.extensions = extensions at hrest ⊢
  subst hrest
  exact ⟨rfl, rfl⟩

end Order

/-! ## Shape -/

def TwoDigits (n : ℕ) (s : String) : Prop :=
  s.toList = [Nat.digitChar (n / 10), Nat.digitChar (n % 10)]

def LowerHex (n : ℕ) (s : String) : Prop :=
  s.length = n ∧ ∀ c ∈ s.toList, c ∈ "0123456789abcdef".toList

/-- `a_b_c`, with ten characters in `a`: transport, version, SNI flag, the two counts
and the application protocol. -/
def Ja4Shape (p : ClientHelloParts) (s : String) : Prop :=
  ∃ version flag ciphers exts alpn b c : String,
    s = "t" ++ version ++ flag ++ ciphers ++ exts ++ alpn ++ "_" ++ b ++ "_" ++ c ∧
      version.length = 2 ∧ (flag = "d" ∨ flag = "i") ∧
      TwoDigits (min (nonGrease p.ciphers).length 99) ciphers ∧
      TwoDigits (min (nonGrease p.extensions).length 99) exts ∧
      alpn.length = 2 ∧ LowerHex 12 b ∧ LowerHex 12 c

/-- A protocol whose first and last byte are both alphanumeric, or both below 16. -/
def AlpnFits (first : Option String) : Prop :=
  match first.map asBytes with
  | some (b :: rest) =>
      let last := (b :: rest).getLast (List.cons_ne_nil b rest)
      (isAsciiAlphanumeric b = true ∧ isAsciiAlphanumeric last = true) ∨ (b < 16 ∧ last < 16)
  | _ => True

section Shape

variable {p : ClientHelloParts}

theorem twoDigits_formatCount (n : ℕ) : TwoDigits (min n 99) (formatCount n) := by
  have hsmall : ∀ k < 100,
      (digits 10 2 k).toList = [Nat.digitChar (k / 10), Nat.digitChar (k % 10)] := by
    decide
  unfold TwoDigits formatCount
  split_ifs with hmany
  · rw [min_eq_right hmany.le]
    rfl
  · rw [min_eq_left (not_lt.mp hmany)]
    exact hsmall n (by omega)

theorem length_twoDigits {n : ℕ} {s : String} (h : TwoDigits n s) : s.length = 2 := by
  rw [← String.length_toList, h]
  rfl

theorem length_hexByte (b : UInt8) : (digits 16 1 b.toNat).length = if b < 16 then 1 else 2 := by
  have hall : ∀ k < 256, (digits 16 1 k).length = if k < 16 then 1 else 2 := by decide +kernel
  rw [hall b.toNat b.toNat_lt]
  rfl

theorem length_ja4AlpnChars_iff (first : Option String) :
    (ja4AlpnChars first).length = 2 ↔ AlpnFits first := by
  unfold ja4AlpnChars AlpnFits
  rcases first.map asBytes with _ | _ | ⟨b, rest⟩
  · exact iff_of_true rfl trivial
  · exact iff_of_true rfl trivial
  · dsimp only
    generalize (b :: rest).getLast (List.cons_ne_nil b rest) = last
    rw [← Bool.and_eq_true]
    split_ifs with halnum
    · refine iff_of_true ?_ (Or.inl halnum)
      rw [← String.length_toList, String.toList_ofList]
      rfl
    · rw [String.length_append, length_hexByte, length_hexByte, or_iff_right halnum]
      split_ifs with hb hlast
      · exact iff_of_true rfl ⟨hb, hlast⟩
      · exact iff_of_false (by omega) fun h => hlast h.2
      · exact iff_of_false (by omega) fun h => hb h.1
      · exact iff_of_false (by omega) fun h => hb h.1

theorem hexEncode_toList (bytes : List UInt8) :
    (hexEncode bytes).toList =
      bytes.flatMap fun b => [Nat.digitChar (b.toNat / 16), Nat.digitChar (b.toNat % 16)] := by
  have hall : ∀ k < 256,
      (digits 16 2 k).toList = [Nat.digitChar (k / 16), Nat.digitChar (k % 16)] := by
    decide +kernel
  unfold hexEncode
  induction bytes with
  | nil => rfl
  | cons b bytes ih =>
      rw [List.map_cons, String.join_cons, String.toList_append, ih, hall b.toNat b.toNat_lt]
      rfl

theorem digitChar_lower {n : ℕ} (h : n < 16) : Nat.digitChar n ∈ "0123456789abcdef".toList := by
  have hall : ∀ k < 16, Nat.digitChar k ∈ "0123456789abcdef".toList := by decide
  exact hall n h

theorem lowerHex_sha25612 {D : Digests} (hsha : ∀ bytes, (D.sha256 bytes).length = 32)
    (s : String) : LowerHex 12 (sha25612 D s) := by
  have hbytes := hsha (asBytes s)
  unfold sha25612 LowerHex
  rw [← String.length_toList, String.toList_ofList, List.length_take, hexEncode_toList]
  generalize D.sha256 (asBytes s) = bytes at hbytes
  constructor
  · rw [List.length_flatMap]
    simp [hbytes]
  · intro c hc
    rcases List.mem_flatMap.mp (List.mem_of_mem_take hc) with ⟨b, -, hb⟩
    have hlt := b.toNat_lt
    rcases List.mem_cons.mp hb with rfl | hb
    · exact digitChar_lower (by omega)
    · rw [List.mem_singleton.mp hb]
      exact digitChar_lower (by omega)

theorem lowerHex_zeros : LowerHex 12 "000000000000" := by
  constructor
  · rfl
  · intro c hc
    have hzero : c = '0' := by simpa using hc
    rw [hzero]
    decide

theorem length_versionCode (p : ClientHelloParts) :
    (ja4VersionCode captureVersions p).length = 2 := by
  have htable : ∀ e ∈ captureVersions, e.2.length = 2 := by decide
  unfold ja4VersionCode
  cases hfound : captureVersions.lookup (bestVersion p) with
  | none => rfl
  | some code =>
      rcases List.lookup_eq_some_iff.mp hfound with ⟨before, after, hsplit, -⟩
      apply htable (bestVersion p, code)
      rw [hsplit]
      exact List.mem_append_right before List.mem_cons_self

theorem buildJa4_parts {D : Digests} (hsha : ∀ bytes, (D.sha256 bytes).length = 32)
    (p : ClientHelloParts) :
    ∃ version flag b c : String,
      buildJa4 captureVersions D p = "t" ++ version ++ flag ++
          formatCount (nonGrease p.ciphers).length ++ formatCount (nonGrease p.extensions).length ++
          ja4AlpnChars p.alpn.head? ++ "_" ++ b ++ "_" ++ c ∧
        version.length = 2 ∧ (flag = "d" ∨ flag = "i") ∧ LowerHex 12 b ∧ LowerHex 12 c := by
  have hdigest : ∀ (hexes : List String) (s : String),
      LowerHex 12 (if hexes = [] then "000000000000" else sha25612 D s) := by
    intro hexes s
    split_ifs
    · exact lowerHex_zeros
    · exact lowerHex_sha25612 hsha s
  have hflag : ∀ sni : Bool, (if sni then "d" else "i") = "d" ∨ (if sni then "d" else "i") = "i" := by
    intro sni
    cases sni with
    | true => exact Or.inl rfl
    | false => exact Or.inr rfl
  unfold buildJa4 ja4Tail
  simp only [String.append_assoc]
  exact ⟨_, _, _, _, rfl, length_versionCode p, hflag _, hdigest _ _, hdigest _ _⟩

theorem shape_iff {D : Digests} (hsha : ∀ bytes, (D.sha256 bytes).length = 32)
    (p : ClientHelloParts) :
    Ja4Shape p (buildJa4 captureVersions D p) ↔ AlpnFits p.alpn.head? := by
  rcases buildJa4_parts hsha p with ⟨version, flag, b, c, heq, hversion, hflag, hb, hc⟩
  have hciphers := twoDigits_formatCount (nonGrease p.ciphers).length
  have hexts := twoDigits_formatCount (nonGrease p.extensions).length
  have hflagLength : ∀ f : String, f = "d" ∨ f = "i" → f.length = 1 := by
    rintro f (rfl | rfl)
    · rfl
    · rfl
  rw [← length_ja4AlpnChars_iff]
  constructor
  · rintro ⟨version', flag', ciphers', exts', alpn', b', c', heq', hversion', hflag', hciphers',
      hexts', halpn', hb', hc'⟩
    have hlength := congrArg String.length (heq.symm.trans heq')
    simp only [String.length_append, hversion, hflagLength _ hflag, length_twoDigits hciphers,
      length_twoDigits hexts, hb.1, hc.1, hversion', hflagLength _ hflag',
      length_twoDigits hciphers', length_twoDigits hexts', halpn', hb'.1, hc'.1] at hlength
    omega
  · intro halpn
    exact ⟨version, flag, _, _, _, b, c, heq, hversion, hflag, hciphers, hexts, halpn, hb, hc⟩

end Shape

/-- The laws of both fingerprints: GREASE never counts, nor does the order in a JA4,
and a JA4 has its shape for protocols that fit. -/
theorem fingerprint_laws (D : Digests) (hsha : ∀ bytes, (D.sha256 bytes).length = 32) :
    (∀ p q, Regreased p q → buildJa3String p = buildJa3String q ∧
        buildJa4 captureVersions D p = buildJa4 captureVersions D q ∧
        ja4Raw captureVersions p = ja4Raw captureVersions q) ∧
      (∀ p q, Reordered p q →
        buildJa4 captureVersions D p = buildJa4 captureVersions D q ∧
        ja4Raw captureVersions p = ja4Raw captureVersions q) ∧
      ∀ p, Ja4Shape p (buildJa4 captureVersions D p) ↔ AlpnFits p.alpn.head? := by
  refine ⟨?_, ?_, ?_⟩
  · intro p q h
    exact ⟨buildJa3String_regreased h, ja4_regreased captureVersions D h⟩
  · intro p q h
    exact ja4_reordered captureVersions D h
  · exact shape_iff hsha

def browserDigests : Digests where
  sha256 := fun bytes =>
    if bytes = asBytes "1301,1302,1303" then
      [0x55, 0xb3, 0x75, 0xc5, 0xd2, 0x2e, 0xfd, 0x2d, 0x8f, 0xc1, 0x30, 0x77, 0x42, 0xec, 0xf9,
        0x02, 0x3e, 0xa0, 0x32, 0x20, 0x43, 0xbe, 0xf9, 0x23, 0x8b, 0xb4, 0x84, 0x0a, 0xf9, 0x09,
        0x77, 0xb5]
    else if bytes = asBytes "000a,000d,0017,002b_0403,0804" then
      [0x2b, 0x39, 0xfa, 0xa7, 0xb4, 0xef, 0xfb, 0x65, 0x57, 0x56, 0x15, 0x1c, 0xa3, 0x19, 0x4b,
        0x4b, 0x23, 0x72, 0xdc, 0xc0, 0x03, 0xa2, 0x56, 0x50, 0x8e, 0xf2, 0xe5, 0x3d, 0xd0, 0x19,
        0x21, 0x05]
    else List.replicate 32 0
  md5 := fun _ => List.replicate 16 0

theorem length_browserDigests (bytes : List UInt8) : (browserDigests.sha256 bytes).length = 32 := by
  unfold browserDigests
  dsimp only
  split_ifs <;> rfl

def browserHello : ClientHelloParts where
  legacyVersion := 0x0303
  ciphers := [0x1a1a, 0x1301, 0x1302, 0x1303]
  extensions := [0x2a2a, 0x0000, 0x0017, 0x002b, 0x000d, 0x0010, 0x000a]
  supportedGroups := [0x3a3a, 0x001d, 0x0017]
  supportedVersions := [0x4a4a, 0x0304, 0x0303]
  signatureAlgorithms := [0x0403, 0x0804]
  alpn := ["h2", "http/1.1"]
  sni := some "example.com"

def regreasedHello : ClientHelloParts :=
  { browserHello with
    ciphers := [0x1301, 0x1302, 0x1303]
    extensions := [0x5a5a, 0x0000, 0x0017, 0x002b, 0x000d, 0x0010, 0x000a]
    supportedGroups := [0x3a3a, 0x001d, 0x0017, 0xdada] }

def shuffledHello : ClientHelloParts :=
  { browserHello with
    ciphers := [0x1303, 0x1302, 0x1a1a, 0x1301]
    extensions := [0x000a, 0x0010, 0x2a2a, 0x000d, 0x002b, 0x0000, 0x0017] }

theorem browserHello_regreased : Regreased browserHello regreasedHello where
  legacyVersion := rfl
  ciphers := .single (.remove [] [0x1301, 0x1302, 0x1303] 0x1a1a (by decide))
  extensions := .single (.replace [] [0x0000, 0x0017, 0x002b, 0x000d, 0x0010, 0x000a] 0x2a2a 0x5a5a
    (by decide) (by decide))
  supportedGroups := .single (.insert [0x3a3a, 0x001d, 0x0017] [] 0xdada (by decide))
  ecPointFormats := rfl
  supportedVersions := .refl
  signatureAlgorithms := .refl
  alpn := rfl
  sni := rfl

theorem browserHello_reordered : Reordered browserHello shuffledHello where
  ciphers := by decide
  extensions := by decide
  rest := rfl

theorem sortedHex_of_sorted {vs : List UInt16} {hex : List String}
    (hhex : (vs.map fun v => digits 16 4 v.toNat) = hex)
    (hsorted : hex.Pairwise fun a b => decide (a ≤ b) = true) : sortedHex vs = hex := by
  unfold sortedHex
  rw [hhex]
  exact List.mergeSort_of_pairwise hsorted

theorem buildJa4_browserHello : buildJa4 captureVersions browserDigests browserHello =
    "t13d0306h2_55b375c5d22e_2b39faa7b4ef" := by
  have hciphers : sortedHex (nonGrease browserHello.ciphers) = ["1301", "1302", "1303"] :=
    sortedHex_of_sorted (by decide) (by decide)
  have hextensions : sortedHex ((nonGrease browserHello.extensions).filter
      fun e => e != 0x0000 && e != 0x0010) = ["000a", "000d", "0017", "002b"] := by
    have hperm : ((nonGrease browserHello.extensions).filter
        fun e => e != 0x0000 && e != 0x0010).Perm [0x000a, 0x000d, 0x0017, 0x002b] := by decide
    rw [sortedHex_perm hperm]
    exact sortedHex_of_sorted (by decide) (by decide)
  unfold buildJa4 ja4Tail
  dsimp only
  rw [hciphers, hextensions]
  decide

theorem fingerprint_laws_browser :
    (buildJa3String browserHello = buildJa3String regreasedHello ∧
      buildJa4 captureVersions browserDigests browserHello =
        buildJa4 captureVersions browserDigests regreasedHello ∧
      ja4Raw captureVersions browserHello = ja4Raw captureVersions regreasedHello) ∧
    (buildJa4 captureVersions browserDigests browserHello =
        buildJa4 captureVersions browserDigests shuffledHello ∧
      ja4Raw captureVersions browserHello = ja4Raw captureVersions shuffledHello) ∧
    Ja4Shape browserHello (buildJa4 captureVersions browserDigests browserHello) ∧
    buildJa4 captureVersions browserDigests browserHello =
      "t13d0306h2_55b375c5d22e_2b39faa7b4ef" := by
  obtain ⟨hgrease, horder, hshape⟩ := fingerprint_laws browserDigests length_browserDigests
  refine ⟨hgrease _ _ browserHello_regreased, horder _ _ browserHello_reordered,
    (hshape browserHello).mpr (Or.inl ⟨?_, ?_⟩), buildJa4_browserHello⟩
  · decide
  · decide

def accentedHello : ClientHelloParts :=
  { legacyVersion := 0x0303, ciphers := [0x1301], extensions := [16], alpn := ["é"] }

/-- Its JA4 has two characters too many. -/
theorem accented_shape_counterexample :
    ¬∃ D : Digests, (∀ bytes, (D.sha256 bytes).length = 32) ∧
      Ja4Shape accentedHello (buildJa4 captureVersions D accentedHello) := by
  rintro ⟨D, hsha, hshape⟩
  have hfits := (length_ja4AlpnChars_iff _).mpr ((shape_iff hsha accentedHello).mp hshape)
  revert hfits
  decide

end TlsHello

end GrServer
