import GrServer.JsonText
import GrServer.QuotedRecords
import GrServer.SessionTicket

/-!
# What the silicon fingerprint pins

The preimage is the device id and a record for each material.  A material is its
compact JSON text, or the first 256 bytes of a text over 512 bytes with the length.
-/

namespace GrServer

open Json Text QuotedRecords

namespace SessionTicket

section Bytes

def textBytes (t : Text) : List UInt8 := t.flatMap String.utf8EncodeChar

theorem textBytes_cons (c : Char) (t : Text) :
    textBytes (c :: t) = String.utf8EncodeChar c ++ textBytes t :=
  List.flatMap_cons

theorem textBytes_append (s t : Text) : textBytes (s ++ t) = textBytes s ++ textBytes t :=
  List.flatMap_append

theorem asBytes_ofList (t : Text) : asBytes (String.ofList t) = textBytes t := by
  rw [asBytes_eq_flatMap, String.toList_ofList]
  rfl

end Bytes

/-! ## Scanning a text -/

section Scanning

variable {F : FloatText} {t : Text} {rest : List UInt8}

theorem scan_plain (ht : ∀ c ∈ t, c.toNat < 128 ∧ isPlainByte (UInt8.ofNat c.toNat) = true) :
    scan .out (textBytes t ++ rest) = scan .out rest := by
  induction t with
  | nil => rfl
  | cons c t ih =>
      rcases ht c List.mem_cons_self with ⟨hascii, hplain⟩
      have hquote : UInt8.ofNat c.toNat ≠ 34 := by
        intro heq
        rw [heq] at hplain
        exact absurd hplain (by decide)
      have hstep : quoteStep .out (UInt8.ofNat c.toNat) = some .out := by
        rw [quoteStep, if_neg hquote, if_pos hplain]
      rw [textBytes_cons, utf8EncodeChar_ascii hascii, List.append_assoc, List.singleton_append,
        scan, hstep, Option.bind_some]
      exact ih fun d hd => ht d (List.mem_cons_of_mem _ hd)

theorem scan_separators {s : List UInt8} (hs : ∀ b ∈ s, IsSeparator b) :
    scan .str (s ++ rest) = scan .str rest := by
  induction s with
  | nil => rfl
  | cons b s ih =>
      have hb := hs b List.mem_cons_self
      have hstep : quoteStep .str b = some .str := by
        rw [quoteStep, if_neg hb.1, if_neg hb.2]
      rw [List.cons_append, scan, hstep, Option.bind_some]
      exact ih fun x hx => hs x (List.mem_cons_of_mem _ hx)

theorem isSeparator_encoded {c : Char} (hquote : c ≠ '"') (hslash : c ≠ '\\') :
    ∀ b ∈ String.utf8EncodeChar c, IsSeparator b := by
  by_cases hascii : c.toNat < 128
  · have hother : ∀ d : Char, d.toNat < 128 → c ≠ d →
        UInt8.ofNat c.toNat ≠ UInt8.ofNat d.toNat := by
      intro d hd hne heq
      have hnat := congrArg UInt8.toNat heq
      rw [UInt8.toNat_ofNat', UInt8.toNat_ofNat'] at hnat
      apply hne
      apply Char.toNat_inj.mp
      omega
    rw [utf8EncodeChar_ascii hascii]
    intro b hb
    rw [List.mem_singleton.mp hb]
    exact ⟨hother '"' (by decide) hquote, hother '\\' (by decide) hslash⟩
  · intro b hb
    have hhigh := utf8EncodeChar_high (Nat.le_of_not_lt hascii) b hb
    constructor
    · rintro rfl
      exact absurd hhigh (by decide)
    · rintro rfl
      exact absurd hhigh (by decide)

theorem scan_inner (ht : ∀ c ∈ t, c ≠ '"' ∧ c ≠ '\\') :
    scan .str (textBytes t ++ rest) = scan .str rest := by
  apply scan_separators
  intro b hb
  rcases List.mem_flatMap.mp hb with ⟨c, hc, hbc⟩
  exact isSeparator_encoded (ht c hc).1 (ht c hc).2 b hbc

theorem scan_slash {c : Char} (hc : c.toNat < 128) :
    scan .str (textBytes ('\\' :: c :: t) ++ rest) = scan .str (textBytes t ++ rest) := by
  rw [textBytes_cons, textBytes_cons, utf8EncodeChar_ascii hc]
  rfl

theorem scan_escaped (c : Char) :
    scan .str (textBytes (escaped c) ++ rest) = scan .str rest := by
  rcases escaped_cases c with ⟨e, hshort, -, hc⟩ | ⟨hcontrol, hc⟩ | ⟨hquote, hslash, hc⟩
  · have hall : ∀ p ∈ shortEscapes, p.2.toNat < 128 := by decide
    rw [hc, scan_slash (hall _ (mem_of_shortEscape hshort))]
    rfl
  · have hdigit : ∀ d < 16, Nat.digitChar d ≠ '"' ∧ Nat.digitChar d ≠ '\\' := by decide
    rw [hc, scan_slash (by decide)]
    apply scan_inner
    intro d hd
    simp only [List.mem_cons, List.not_mem_nil, or_false] at hd
    rcases hd with rfl | rfl | rfl | rfl
    · decide
    · decide
    · exact hdigit _ (by omega)
    · exact hdigit _ (by omega)
  · rw [hc]
    apply scan_inner
    intro d hd
    rw [List.mem_singleton.mp hd]
    exact ⟨hquote, hslash⟩

theorem scan_stringBody (s : Text) :
    scan .str (textBytes (stringBody s) ++ rest) = scan .out rest := by
  induction s with
  | nil => rfl
  | cons c s ih => rw [stringBody, textBytes_append, List.append_assoc, scan_escaped, ih]

theorem plain_of_number {c : Char} (h : isNumberChar c = true) :
    c.toNat < 128 ∧ isPlainByte (UInt8.ofNat c.toNat) = true := by
  by_cases hdigit : c.isDigit = true
  · have hrange : 48 ≤ c.toNat ∧ c.toNat ≤ 57 := by
      simpa [Char.isDigit, UInt32.le_iff_toNat_le] using hdigit
    have hall : ∀ n ≤ 57, 48 ≤ n → isPlainByte (UInt8.ofNat n) = true := by decide
    exact ⟨by omega, hall _ hrange.2 hrange.1⟩
  · simp only [isNumberChar, hdigit, Bool.false_or, Bool.or_eq_true, decide_eq_true_eq] at h
    rcases h with (((rfl | rfl) | rfl) | rfl) | rfl <;> decide

theorem scan_quote (s : Text) :
    scan .out (textBytes ('"' :: stringBody s) ++ rest) = scan .out rest := by
  have hopen : scan .out (textBytes ('"' :: stringBody s) ++ rest) =
      scan .str (textBytes (stringBody s) ++ rest) := by
    rw [textBytes_cons]
    rfl
  rw [hopen, scan_stringBody]

theorem scan_mark {c : Char} (hascii : c.toNat < 128)
    (hplain : isPlainByte (UInt8.ofNat c.toNat) = true) :
    scan .out (textBytes (c :: t) ++ rest) = scan .out (textBytes t ++ rest) := by
  have hone : ∀ d ∈ [c], d.toNat < 128 ∧ isPlainByte (UInt8.ofNat d.toNat) = true := by
    intro d hd
    rw [List.mem_singleton.mp hd]
    exact ⟨hascii, hplain⟩
  rw [← List.singleton_append, textBytes_append, List.append_assoc, scan_plain hone]

def wordChars : Text := ['n', 'u', 'l', 't', 'r', 'e', 'f', 'a', 's']

theorem scan_word (ht : ∀ c ∈ t, c ∈ wordChars) :
    scan .out (textBytes t ++ rest) = scan .out rest := by
  apply scan_plain
  intro c hc
  have hword := ht c hc
  simp only [wordChars, List.mem_cons, List.not_mem_nil, or_false] at hword
  rcases hword with rfl | rfl | rfl | rfl | rfl | rfl | rfl | rfl | rfl <;> decide

def Scans (F : FloatText) (v : Json) : Prop :=
  ∀ rest, scan .out (textBytes (compact F v) ++ rest) = scan .out rest

theorem scan_restItems {items : List Json} (hitems : ∀ v ∈ items, Scans F v) :
    scan .out (textBytes (compactRestItems F items) ++ rest) = scan .out rest := by
  induction items with
  | nil =>
      rw [compactRestItems]
      exact scan_mark (by decide) (by decide)
  | cons v items ih =>
      rw [compactRestItems, scan_mark (by decide) (by decide), textBytes_append,
        List.append_assoc, hitems v List.mem_cons_self]
      exact ih fun u hu => hitems u (List.mem_cons_of_mem _ hu)

theorem scan_member {k : String} {v : Json} (hv : Scans F v) :
    scan .out (textBytes ('"' :: (stringBody k.toList ++ ':' :: (compact F v ++ t))) ++ rest) =
      scan .out (textBytes t ++ rest) := by
  rw [← List.cons_append, textBytes_append, List.append_assoc, scan_quote,
    scan_mark (by decide) (by decide), textBytes_append, List.append_assoc, hv]

theorem scan_restMembers {members : List (String × Json)}
    (hmembers : ∀ m ∈ members, Scans F m.2) :
    scan .out (textBytes (compactRestMembers F members) ++ rest) = scan .out rest := by
  induction members with
  | nil =>
      rw [compactRestMembers]
      exact scan_mark (by decide) (by decide)
  | cons m members ih =>
      rcases m with ⟨k, v⟩
      rw [compactRestMembers, scan_mark (by decide) (by decide),
        scan_member (hmembers (k, v) List.mem_cons_self)]
      exact ih fun u hu => hmembers u (List.mem_cons_of_mem _ hu)

theorem scans (v : Json) : Scans F v := by
  induction v using Json.induct with
  | null =>
      intro rest
      rw [compact]
      exact scan_word (by simp [wordChars])
  | bool b =>
      intro rest
      cases b <;> rw [compact] <;> exact scan_word (by simp [wordChars])
  | num n =>
      intro rest
      rw [compact]
      exact scan_plain fun c hc => plain_of_number (numeric_numText F n c hc)
  | str s =>
      intro rest
      rw [compact, scan_quote]
  | arr items ih =>
      intro rest
      rw [compact, scan_mark (by decide) (by decide)]
      cases items with
      | nil => exact scan_mark (by decide) (by decide)
      | cons v items =>
          rw [compactItems, textBytes_append, List.append_assoc, ih v List.mem_cons_self]
          exact scan_restItems fun u hu => ih u (List.mem_cons_of_mem _ hu)
  | obj members ih =>
      intro rest
      rw [compact, scan_mark (by decide) (by decide)]
      cases members with
      | nil => exact scan_mark (by decide) (by decide)
      | cons m members =>
          rcases m with ⟨k, v⟩
          rw [compactMembers, scan_member (ih (k, v) List.mem_cons_self)]
          exact scan_restMembers fun u hu => ih u (List.mem_cons_of_mem _ hu)

end Scanning

/-! ## Materials -/

/-- Two long texts of one length and with one start. -/
structure CutAlike (C : TicketCrypto) (v v' : Json) : Prop where
  long : 512 < (asBytes (C.jsonText v)).length
  sameLength : (asBytes (C.jsonText v)).length = (asBytes (C.jsonText v')).length
  sameStart : (asBytes (C.jsonText v)).take 256 = (asBytes (C.jsonText v')).take 256

def SameMaterial (C : TicketCrypto) (v v' : Option Json) : Prop :=
  v = v' ∨ ∃ w w', v = some w ∧ v' = some w' ∧ CutAlike C w w'

section Materials

variable {C : TicketCrypto} {F : FloatText}

theorem ellipsis_bytes (n : ℕ) :
    asBytes ("…" ++ n.repr) = ellipsisByte :: 0x80 :: 0xA6 :: asBytes n.repr := by
  have hmark : asBytes "…" = [ellipsisByte, 0x80, 0xA6] := rfl
  rw [asBytes_append, hmark]
  rfl

theorem digits_bytes (n : ℕ) : ∀ b ∈ asBytes n.repr, 48 ≤ b ∧ b ≤ 57 := by
  intro b hb
  rw [asBytes_eq_flatMap] at hb
  rcases List.mem_flatMap.mp hb with ⟨c, hc, hbc⟩
  have hdigit := isDigit_of_mem_repr_nat hc
  have hrange : 48 ≤ c.toNat ∧ c.toNat ≤ 57 := by
    simpa [Char.isDigit, UInt32.le_iff_toNat_le] using hdigit
  rw [utf8EncodeChar_ascii (by omega), List.mem_singleton] at hbc
  rw [hbc, UInt8.le_iff_toNat_le, UInt8.le_iff_toNat_le, UInt8.toNat_ofNat']
  have hmod : c.toNat % 2 ^ 8 = c.toNat := Nat.mod_eq_of_lt (by omega)
  rw [hmod]
  exact hrange

theorem scan_jsonText (hjson : ∀ v, C.jsonText v = String.ofList (compact F v)) (v : Json) :
    scan .out (asBytes (C.jsonText v)) = some .out := by
  have hscan := @scans F v []
  rw [List.append_nil] at hscan
  rw [hjson, asBytes_ofList, hscan]
  rfl

theorem length_cut {t : List UInt8} (h : 512 < t.length) : (t.take 256).length = 256 := by
  rw [List.length_take]
  omega

theorem scan_take {t : List UInt8} (h : scan .out t = some .out) (n : ℕ) :
    ∃ q, scan .out (t.take n) = some q := by
  rw [← List.take_append_drop n t, scan_append, Option.bind_eq_some_iff] at h
  rcases h with ⟨q, hq, -⟩
  exact ⟨q, hq⟩

theorem material_materialBytes (hjson : ∀ v, C.jsonText v = String.ofList (compact F v))
    (v : Json) : Material 256 (materialBytes C v) := by
  have hscan := scan_jsonText hjson v
  unfold materialBytes
  dsimp only
  split_ifs with hlong
  · rcases scan_take hscan 256 with ⟨q, hq⟩
    rw [ellipsis_bytes]
    exact .cut (length_cut hlong) hq (digits_bytes _)
  · exact .text hscan

theorem reading_bar : Reading 256 .top [bar] :=
  Reading.afterBar .done nofun

theorem materialBytes_ne_nil (hjson : ∀ v, C.jsonText v = String.ofList (compact F v))
    (v : Json) : materialBytes C v ≠ [] := by
  rcases compact_cons F v with ⟨c, t, htext, -⟩
  have hne : asBytes (C.jsonText v) ≠ [] := by
    rw [hjson, asBytes_ofList, htext, textBytes_cons]
    intro hnil
    exact String.utf8EncodeChar_ne_nil (List.append_eq_nil_iff.mp hnil).1
  unfold materialBytes
  dsimp only
  split_ifs
  · rw [ellipsis_bytes]
    exact List.append_ne_nil_of_right_ne_nil _ (List.cons_ne_nil _ _)
  · exact hne

theorem short_ne_long (hjson : ∀ v, C.jsonText v = String.ofList (compact F v)) {v v' : Json}
    (hlong : 512 < (asBytes (C.jsonText v')).length) :
    asBytes (C.jsonText v) ≠ (asBytes (C.jsonText v')).take 256 ++
      asBytes ("…" ++ (asBytes (C.jsonText v')).length.repr) := by
  intro heq
  rcases scan_take (scan_jsonText hjson v') 256 with ⟨q, hq⟩
  rw [ellipsis_bytes] at heq
  apply text_ne_cut (scan_jsonText hjson v) (length_cut hlong) hq (digits_bytes _) reading_bar
    reading_bar
  rw [heq]

theorem materialBytes_eq_iff (hjson : ∀ v, C.jsonText v = String.ofList (compact F v))
    (v v' : Json) :
    materialBytes C v = materialBytes C v' ↔ v = v' ∨ CutAlike C v v' := by
  constructor
  · intro h
    unfold materialBytes at h
    dsimp only at h
    split_ifs at h with hlong hlong' hlong'
    · right
      rw [ellipsis_bytes, ellipsis_bytes] at h
      have hbar := congrArg (· ++ bar :: []) h
      rcases cut_append_inj (length_cut hlong) (length_cut hlong') (digits_bytes _)
        (digits_bytes _) hbar with ⟨hstart, hdigits⟩
      exact ⟨hlong, Nat.repr_inj.mp (asBytes_inj.mp hdigits), hstart⟩
    · exact absurd h.symm (short_ne_long hjson hlong)
    · exact absurd h (short_ne_long hjson hlong')
    · left
      have htext := asBytes_inj.mp h
      rw [hjson, hjson] at htext
      exact compact_inj F (String.ofList_injective htext)
  · intro h
    rcases h with rfl | hcut
    · rfl
    · have hlong' : 512 < (asBytes (C.jsonText v')).length := by
        rw [← hcut.sameLength]
        exact hcut.long
      unfold materialBytes
      dsimp only
      rw [if_pos hcut.long, if_pos hlong', hcut.sameStart, hcut.sameLength]

def recordValue (C : TicketCrypto) (v : Option Json) : List UInt8 :=
  (v.map (materialBytes C)).getD []

theorem material_recordValue (hjson : ∀ v, C.jsonText v = String.ofList (compact F v))
    (v : Option Json) : Material 256 (recordValue C v) := by
  cases v with
  | none => exact .text rfl
  | some v => exact material_materialBytes hjson v

theorem recordValue_eq_iff (hjson : ∀ v, C.jsonText v = String.ofList (compact F v))
    (v v' : Option Json) : recordValue C v = recordValue C v' ↔ SameMaterial C v v' := by
  unfold SameMaterial
  cases v with
  | none =>
      cases v' with
      | none => simp
      | some v' =>
          have hne := materialBytes_ne_nil hjson v'
          simpa [recordValue] using hne.symm
  | some v =>
      cases v' with
      | none =>
          have hne := materialBytes_ne_nil hjson v
          simpa [recordValue] using hne
      | some v' =>
          have hiff := materialBytes_eq_iff hjson v v'
          simpa [recordValue] using hiff

def preimageHeader : List UInt8 :=
  asBytes "gr_silicon_fp_v4|" ++ asBytes commercialSegAlgo ++ asBytes "|"

theorem siliconMaterialsPreimage_eq (fields : Fields) (deviceId : Option String) :
    siliconMaterialsPreimage C (ofFields fields) deviceId =
      preimageHeader ++ (asBytes (deviceId.getD "") ++
        records asBytes siliconMaterialKeys fun k => recordValue C (fields.get? k)) := by
  have hget : ∀ k, (SortedMap.ofEntries fields.entries).get? k = fields.get? k := by
    intro k
    rw [← get?_of_asObject (asObject_ofFields_get? fields) k, get?_ofFields]
  have hdevice : (deviceId.map asBytes).getD [] = asBytes (deviceId.getD "") := by
    cases deviceId <;> rfl
  have hmarks : asBytes "=" = [equals] ∧ asBytes "|" = [bar] := ⟨rfl, rfl⟩
  unfold siliconMaterialsPreimage preimageHeader records recordValue
  rw [asObject_ofFields_get?, hdevice]
  simp only [hget, hmarks.1, hmarks.2, List.append_assoc, List.cons_append, List.nil_append]

theorem isKey_materialKeys : ∀ k ∈ siliconMaterialKeys, IsKey (asBytes k) := by
  have hchars : ∀ k ∈ siliconMaterialKeys,
      (k.toList.all fun c => decide (c.toNat < 128 ∧ c.toNat ∉ [34, 92, 61])) = true := by
    simp only [siliconMaterialKeys, List.forall_mem_cons]
    repeat' apply And.intro
    all_goals decide
  have hall : ∀ k ∈ siliconMaterialKeys,
      ∀ b ∈ asBytes k, (b ≠ 34 ∧ b ≠ 92) ∧ b ≠ ellipsisByte ∧ b ≠ equals := by
    intro k hk b hb
    rw [asBytes_eq_flatMap] at hb
    obtain ⟨c, hc, hbyte⟩ := List.mem_flatMap.mp hb
    have hplain := of_decide_eq_true (List.all_eq_true.mp (hchars k hk) c hc)
    rw [utf8EncodeChar_ascii hplain.1, List.mem_singleton] at hbyte
    have hnat : b.toNat = c.toNat := by
      rw [hbyte, UInt8.toNat_ofNat', Nat.mod_eq_of_lt (by omega)]
    have hmarks := hplain.2
    simp only [List.mem_cons, List.not_mem_nil, or_false, ← hnat] at hmarks
    refine ⟨⟨?_, ?_⟩, ?_, ?_⟩ <;> rintro rfl
    · exact hmarks (Or.inl rfl)
    · exact hmarks (Or.inr (Or.inl rfl))
    · exact absurd hplain.1 (by rw [← hnat]; decide)
    · exact hmarks (Or.inr (Or.inr rfl))
  intro k hk
  constructor
  · intro b hb
    exact (hall k hk b hb).1
  · intro hmem
    exact (hall k hk _ hmem).2.1 rfl
  · intro hmem
    exact (hall k hk _ hmem).2.2 rfl

theorem telling_formClass : Telling (asBytes "form_class") where
  key := isKey_materialKeys "form_class" (by decide)
  starts := by
    have hbytes : asBytes "form_class" =
        102 :: 111 :: [114, 109, 95, 99, 108, 97, 115, 115] := rfl
    refine ⟨102, 111, _, hbytes, ?_⟩
    decide

theorem sameMaterials_of_records (hjson : ∀ v, C.jsonText v = String.ofList (compact F v))
    {fields fields' : Fields}
    (heq : records asBytes siliconMaterialKeys (fun k => recordValue C (fields.get? k)) =
      records asBytes siliconMaterialKeys (fun k => recordValue C (fields'.get? k))) :
    ∀ k ∈ siliconMaterialKeys, SameMaterial C (fields.get? k) (fields'.get? k) := by
  have hsame := records_inj (by decide) isKey_materialKeys
    (fun k _ => material_recordValue hjson (fields.get? k))
    (fun k _ => material_recordValue hjson (fields'.get? k)) heq
  intro k hk
  exact (recordValue_eq_iff hjson _ _).mp (hsame k hk)

/-- Equal preimages are those of one device whose materials are equal, or cut alike. -/
theorem siliconMaterialsPreimage_eq_iff (C : TicketCrypto) (F : FloatText)
    (hjson : ∀ v, C.jsonText v = String.ofList (compact F v)) (fields fields' : Fields)
    (deviceId deviceId' : Option String) :
    siliconMaterialsPreimage C (ofFields fields) deviceId =
        siliconMaterialsPreimage C (ofFields fields') deviceId' ↔
      deviceId.getD "" = deviceId'.getD "" ∧
        ∀ k ∈ siliconMaterialKeys, SameMaterial C (fields.get? k) (fields'.get? k) := by
  rw [siliconMaterialsPreimage_eq, siliconMaterialsPreimage_eq, List.append_cancel_left_eq]
  constructor
  · intro h
    have hfresh : ∀ k ∈ siliconMaterialKeys.tail, ¬ asBytes "form_class" <:+ asBytes k := by
      decide
    have hdevice := before_records_inj (by decide) telling_formClass
      (fun k hk => isKey_materialKeys k (List.mem_of_mem_tail hk)) hfresh
      (fun k _ => material_recordValue hjson (fields.get? k))
      (fun k _ => material_recordValue hjson (fields'.get? k)) h
    rw [hdevice] at h
    exact ⟨asBytes_inj.mp hdevice, sameMaterials_of_records hjson (List.append_cancel_left h)⟩
  · intro h
    rcases h with ⟨hdevice, hsame⟩
    rw [hdevice, List.append_cancel_left_eq]
    unfold records
    apply List.flatMap_congr
    intro k hk
    dsimp only
    rw [(recordValue_eq_iff hjson _ _).mpr (hsame k hk)]

end Materials

def fractionText : FloatText where
  text q := q.num.repr.toList ++ '.' :: q.den.repr.toList
  numeric := by
    intro q c hc
    have hdigit : ∀ d : Char, d.isDigit = true → isNumberChar d = true := by
      intro d hd
      unfold isNumberChar
      rw [hd]
      rfl
    rcases List.mem_append.mp hc with hnum | hden
    · rcases isDigit_or_sign_of_mem_repr hnum with hd | rfl
      · exact hdigit c hd
      · rfl
    · rcases List.mem_cons.mp hden with rfl | hd
      · rfl
      · exact hdigit c (isDigit_of_mem_repr_nat hd)
  notInteger := by
    intro q
    exact .inl (List.mem_append_right _ List.mem_cons_self)
  inj := by
    intro q q' h
    have hpoint : ∀ n : ℤ, '.' ∉ n.repr.toList := by
      intro n hmem
      rcases isDigit_or_sign_of_mem_repr hmem with hd | hsign
      · exact absurd hd (by decide)
      · exact absurd hsign (by decide)
    rcases append_cons_first_inj h (hpoint _) (hpoint _) with ⟨hnum, hden⟩
    exact Rat.ext (Int.repr_inj.mp (String.toList_injective hnum))
      (Nat.repr_inj.mp (String.toList_injective hden))

def printedCrypto : TicketCrypto where
  hmacSha256Hex := fun _ raw => raw
  sha256Hex := fun _ => ""
  jsonText v := String.ofList (compact fractionText v)

def platformFields (platform : String) : Fields :=
  SortedMap.ofEntries [("platform", .str platform)]

theorem platforms_told_apart :
    siliconMaterialsPreimage printedCrypto (ofFields (platformFields "MacIntel")) none ≠
      siliconMaterialsPreimage printedCrypto (ofFields (platformFields "Win32")) none := by
  intro heq
  have hiff := siliconMaterialsPreimage_eq_iff printedCrypto fractionText (fun _ => rfl)
    (platformFields "MacIntel") (platformFields "Win32") none none
  have hsame := (hiff.mp heq).2 "platform" (by decide)
  rcases hsame with hvalue | ⟨w, w', hw, -, hcut⟩
  · exact absurd hvalue (by decide)
  · have hplatform : w = .str "MacIntel" := by
      have hget : (platformFields "MacIntel").get? "platform" = some (.str "MacIntel") := by
        decide
      exact Option.some.inj (hw.symm.trans hget)
    have hlong := hcut.long
    rw [hplatform] at hlong
    exact absurd hlong (by decide)

def curveFields (last : ℤ) : Fields :=
  SortedMap.ofEntries [("hw_curve_webgl",
    .arr (List.replicate 300 (Json.ofInt 0) ++ [Json.ofInt last]))]

/-- The curves of two machines, one preimage. -/
theorem long_curves_share_preimage :
    siliconMaterialsPreimage printedCrypto (ofFields (curveFields 1)) none =
        siliconMaterialsPreimage printedCrypto (ofFields (curveFields 2)) none ∧
      "hw_curve_webgl" ∈ siliconMaterialKeys ∧
      (curveFields 1).get? "hw_curve_webgl" ≠ (curveFields 2).get? "hw_curve_webgl" := by
  refine ⟨?_, ?_, ?_⟩ <;> decide +kernel

end SessionTicket

end GrServer
