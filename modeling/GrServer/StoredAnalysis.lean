import GrServer.SiliconFingerprint
import GrServer.SlimmedResult

/-!
# Analysis results through storage

A slimmed result is read back from its text column in each of the modes.  The
reader of an encrypted text tries to inflate it first, and nothing above 2 MiB
inflates.
-/

namespace GrServer

open Json Text

namespace WriteAmp

def ReadsBack (C : Codec) (v : Json) : Prop :=
  C.fromSlice (asBytes (C.toText v)) = some v

/-- The text of `v` is short, or deflates to no less. -/
def StoredPlain (C : Codec) (v : Json) : Prop :=
  (asBytes (C.toText v)).length < 2048 ∨
    (asBytes (C.toText v)).length ≤ (compressJsonPayload C v).length + 32

def Recoverable (C : Codec) (key : Option C.Key) (v : Json) : Prop :=
  let plain := asBytes (C.toText v)
  match key with
  | none => ReadsBack C v ∧ (StoredPlain C v ∨ plain.length ≤ maxInflated)
  | some _ =>
      if plain.length < 256 then
        decompressJsonPayload C plain = some v ∨
          decompressJsonPayload C plain = none ∧ ReadsBack C v
      else
        plain.length ≤ maxInflated ∧ ReadsBack C v ∨
          (maxInflated < plain.length ∨ C.fromSlice plain = none) ∧
            C.fromSlice (compressJsonPayload C v) = some v

/-- What the code relies on of the libraries: each reader inverts its writer, a
sealed text has its tag, and a JSON text does not start with a mode. -/
structure Codec.Lawful (C : Codec) : Prop where
  base64 : ∀ bytes, C.fromBase64 (C.toBase64 bytes) = some bytes
  cipher : ∀ key nonce plain, C.decrypt key nonce (C.encrypt key nonce plain) = some plain
  tag : ∀ key nonce plain, 1 ≤ (C.encrypt key nonce plain).length
  inflate : ∀ plain, C.inflate (C.deflate plain) = some plain
  start : ∀ v, startsWith (C.toText v) "e1:" = false ∧ startsWith (C.toText v) "z1:" = false

variable {C : Codec}

theorem stripPrefix?_eq_none {s p : String} (h : startsWith s p = false) :
    stripPrefix? s p = none := by
  unfold stripPrefix?
  rw [h, if_neg Bool.false_ne_true]

theorem decode_text (hC : C.Lawful) (key : Option C.Key) (v : Json) :
    decodeAnalysisResultJson C key (C.toText v) = C.fromSlice (asBytes (C.toText v)) := by
  unfold decodeAnalysisResultJson
  rw [stripPrefix?_eq_none (hC.start v).1, stripPrefix?_eq_none (hC.start v).2]

theorem decode_z1 (hC : C.Lawful) (key : Option C.Key) (z : List UInt8) :
    decodeAnalysisResultJson C key ("z1:" ++ C.toBase64 z) = decompressJsonPayload C z := by
  have hmode : startsWith ("z1:" ++ C.toBase64 z) "e1:" = false := by
    unfold startsWith
    rw [String.toList_append]
    rfl
  have hstrip : stripPrefix? ("z1:" ++ C.toBase64 z) "z1:" = some (C.toBase64 z) :=
    stripPrefix?_eq_some.mpr rfl
  unfold decodeAnalysisResultJson
  rw [stripPrefix?_eq_none hmode, hstrip]
  dsimp only
  rw [hC.base64, Option.bind_some]

theorem decryptPayload_encryptPayload (hC : C.Lawful) (key : C.Key) {nonce : List UInt8}
    (hnonce : nonce.length = 12) (plain : List UInt8) :
    decryptPayload C (encryptPayload C plain key nonce) key = some plain := by
  have htag := hC.tag key nonce plain
  unfold decryptPayload encryptPayload
  rw [List.length_append, if_neg (by omega), ← hnonce, List.take_left, List.drop_left]
  exact hC.cipher key nonce plain

theorem decode_e1 (hC : C.Lawful) (key : C.Key) {nonce : List UInt8} (hnonce : nonce.length = 12)
    (z : List UInt8) :
    decodeAnalysisResultJson C (some key) ("e1:" ++ C.toBase64 (encryptPayload C z key nonce)) =
      (decompressJsonPayload C z).or (C.fromSlice z) := by
  have hstrip : stripPrefix? ("e1:" ++ C.toBase64 (encryptPayload C z key nonce)) "e1:" =
      some (C.toBase64 (encryptPayload C z key nonce)) :=
    stripPrefix?_eq_some.mpr rfl
  unfold decodeAnalysisResultJson
  rw [hstrip]
  dsimp only
  rw [Option.bind_some, hC.base64, Option.bind_some, decryptPayload_encryptPayload hC key hnonce,
    Option.bind_some]
  cases decompressJsonPayload C z with
  | none => rfl
  | some v => rfl

theorem decompress_compress (hC : C.Lawful) (v : Json) :
    decompressJsonPayload C (compressJsonPayload C v) =
      if maxInflated < (asBytes (C.toText v)).length then none
      else C.fromSlice (asBytes (C.toText v)) := by
  unfold decompressJsonPayload compressJsonPayload
  rw [hC.inflate, Option.bind_some]

theorem decode_encode_iff (hC : C.Lawful) (key : Option C.Key) {nonce : List UInt8}
    (hnonce : nonce.length = 12) (v : Json) :
    decodeAnalysisResultJson C key (encodeAnalysisResultJson C key nonce v) = some v ↔
      Recoverable C key v := by
  unfold encodeAnalysisResultJson Recoverable ReadsBack
  cases key with
  | none =>
      unfold StoredPlain
      dsimp only
      split_ifs with hshort hsmall
      · rw [decode_text hC]
        simp [hshort]
      · rw [decode_text hC]
        simp [hsmall]
      · rw [decode_z1 hC, decompress_compress hC]
        split_ifs with hlarge
        · simp [hshort, hsmall, hlarge]
        · simp [not_lt.mp hlarge]
  | some key =>
      dsimp only
      rw [decode_e1 hC key hnonce]
      split_ifs with hshort
      · cases decompressJsonPayload C (asBytes (C.toText v)) with
        | none => simp
        | some w => simp
      · rw [decompress_compress hC]
        split_ifs with hlarge
        · simp [hlarge, not_le.mpr hlarge]
        · have hsmall := not_lt.mp hlarge
          cases C.fromSlice (asBytes (C.toText v)) with
          | none => simp [hlarge]
          | some w => simp [hlarge, hsmall]

/-- A result survives slimming and a value survives storage exactly when no string
is cut inside a character and the value is recoverable. -/
theorem stored_analysis_survives_iff (hC : C.Lawful) (result v : Json) (key : Option C.Key)
    {nonce : List UInt8} (hnonce : nonce.length = 12) :
    (∃ slim, SlimSound result slim) ∧
        decodeAnalysisResultJson C key (encodeAnalysisResultJson C key nonce v) = some v ↔
      (∀ s, Visits 0 none (trimmedDown result) s → Cuttable s) ∧ Recoverable C key v := by
  rw [slimSound_iff, decode_encode_iff hC key hnonce]

/-! ## Base64 and stored blocks -/

def base64Digits : List Char :=
  "ABCDEFGHIJKLMNOPQRSTUVWXYZabcdefghijklmnopqrstuvwxyz0123456789+/".toList

def base64Digit (n : ℕ) : Char := base64Digits.getD n '='

def sextetOf (c : Char) : ℕ := base64Digits.idxOf c

theorem sextetOf_digit {n : ℕ} (hn : n < 64) : sextetOf (base64Digit n) = n := by
  have hall : ∀ n < 64, sextetOf (base64Digit n) = n := by decide +kernel
  exact hall n hn

theorem digit_ne_pad {n : ℕ} (hn : n < 64) : base64Digit n ≠ '=' := by
  have hall : ∀ n < 64, base64Digit n ≠ '=' := by decide +kernel
  exact hall n hn

def encode64 : List UInt8 → Text
  | a :: b :: c :: rest =>
      base64Digit (a.toNat / 4) :: base64Digit (a.toNat % 4 * 16 + b.toNat / 16) ::
        base64Digit (b.toNat % 16 * 4 + c.toNat / 64) :: base64Digit (c.toNat % 64) ::
          encode64 rest
  | [a, b] =>
      [base64Digit (a.toNat / 4), base64Digit (a.toNat % 4 * 16 + b.toNat / 16),
        base64Digit (b.toNat % 16 * 4), '=']
  | [a] => [base64Digit (a.toNat / 4), base64Digit (a.toNat % 4 * 16), '=', '=']
  | [] => []

def decode64 : Text → Option (List UInt8)
  | w :: x :: y :: z :: rest =>
      let a := UInt8.ofNat (sextetOf w * 4 + sextetOf x / 16)
      let b := UInt8.ofNat (sextetOf x % 16 * 16 + sextetOf y / 4)
      let c := UInt8.ofNat (sextetOf y % 4 * 64 + sextetOf z)
      if y = '=' then some [a]
      else if z = '=' then some [a, b]
      else (decode64 rest).map fun tail => a :: b :: c :: tail
  | [] => some []
  | _ => none

theorem ofNat_of_eq {b : UInt8} {n : ℕ} (h : n = b.toNat) : UInt8.ofNat n = b := by
  rw [h, UInt8.ofNat_toNat]

theorem decode64_encode64 (bytes : List UInt8) : decode64 (encode64 bytes) = some bytes := by
  induction bytes using encode64.induct with
  | case1 a b c rest ih =>
      have ha := a.toNat_lt
      have hb := b.toNat_lt
      have hc := c.toNat_lt
      unfold encode64 decode64
      dsimp only
      rw [if_neg (digit_ne_pad (by omega)), if_neg (digit_ne_pad (by omega)),
        sextetOf_digit (by omega), sextetOf_digit (by omega), sextetOf_digit (by omega),
        sextetOf_digit (by omega), ih, Option.map_some, ofNat_of_eq (b := a) (by omega),
        ofNat_of_eq (b := b) (by omega), ofNat_of_eq (b := c) (by omega)]
  | case2 a b =>
      have ha := a.toNat_lt
      have hb := b.toNat_lt
      unfold encode64 decode64
      dsimp only
      rw [if_neg (digit_ne_pad (by omega)), if_pos rfl, sextetOf_digit (by omega),
        sextetOf_digit (by omega), sextetOf_digit (by omega), ofNat_of_eq (b := a) (by omega),
        ofNat_of_eq (b := b) (by omega)]
  | case3 a =>
      have ha := a.toNat_lt
      unfold encode64 decode64
      dsimp only
      rw [if_pos rfl, sextetOf_digit (by omega), sextetOf_digit (by omega),
        ofNat_of_eq (b := a) (by omega)]
  | case4 => rfl

def storedBlock (plain : List UInt8) : List UInt8 :=
  if plain.length < 65536 then
    let lo := UInt8.ofNat plain.length
    let hi := UInt8.ofNat (plain.length / 256)
    1 :: lo :: hi :: ~~~lo :: ~~~hi :: plain
  else 7 :: plain

def readBlock : List UInt8 → Option (List UInt8)
  | 1 :: lo :: hi :: lo' :: hi' :: plain =>
      if lo' = ~~~lo ∧ hi' = ~~~hi ∧ plain.length = hi.toNat * 256 + lo.toNat then some plain
      else none
  | 7 :: plain => some plain
  | _ => none

theorem readBlock_storedBlock (plain : List UInt8) : readBlock (storedBlock plain) = some plain := by
  unfold storedBlock
  split_ifs with hshort
  · have hlength : plain.length = (UInt8.ofNat (plain.length / 256)).toNat * 256 +
        (UInt8.ofNat plain.length).toNat := by
      rw [UInt8.toNat_ofNat', UInt8.toNat_ofNat']
      omega
    exact if_pos ⟨rfl, rfl, hlength⟩
  · rfl

/-! ## A long note -/

def battleLog (n : ℕ) : Json := .arr ((List.range n).map fun i => ofInt i)

def analysisOf (n : ℕ) (note : String) : Members :=
  [("battle_log", battleLog n), ("note", .str note)]

def longNote : String := String.ofList (List.replicate 5000 'a')

def shortNote : String := String.ofList (List.replicate 512 'a' ++ "…[trunc:5000]".toList)

def slimmedNote : Json := .obj (("_storage", .str "slim_v1") :: analysisOf 16 shortNote)

/-- The cipher keeps the bytes up to one of the key and adds a tag of 16; one
text is read. -/
def sampleCodec : Codec where
  Key := List UInt8
  toText v := String.ofList (compact SessionTicket.fractionText v)
  fromSlice bytes :=
    if bytes = asBytes (String.ofList (compact SessionTicket.fractionText slimmedNote)) then
      some slimmedNote
    else none
  deflate := storedBlock
  inflate := readBlock
  toBase64 bytes := String.ofList (encode64 bytes)
  fromBase64 s := decode64 s.toList
  encrypt key _ plain := (plain.map fun b => b ^^^ key.headD 0) ++ List.replicate 16 0
  decrypt key _ sealed := some ((sealed.take (sealed.length - 16)).map fun b => b ^^^ key.headD 0)

theorem sampleCodec_lawful : sampleCodec.Lawful where
  base64 bytes := by
    unfold sampleCodec
    dsimp only
    rw [String.toList_ofList, decode64_encode64]
  cipher key nonce plain := by
    have hxor : ∀ b x : UInt8, b ^^^ x ^^^ x = b := by
      intro b x
      rw [UInt8.xor_assoc, UInt8.xor_self, UInt8.xor_zero]
    unfold sampleCodec
    dsimp only
    rw [List.length_append, List.length_replicate, Nat.add_sub_cancel, List.take_left,
      List.map_map]
    simp [Function.comp_def, hxor]
  tag key nonce plain := by
    unfold sampleCodec
    simp
  inflate := readBlock_storedBlock
  start v := by
    obtain ⟨c, t, htext, hkind⟩ := compact_cons SessionTicket.fractionText v
    have hend : (String.ofList (compact SessionTicket.fractionText v)).toList = c :: t :=
      String.toList_ofList.trans htext
    have hz : c ≠ 'z' := by
      rintro rfl
      cases hkind
    have he : ∀ u, c :: t ≠ 'e' :: '1' :: ':' :: u := by
      intro u hu
      cases v with
      | num n =>
          have hmem : ':' ∈ numText SessionTicket.fractionText n := by
            have hsame : numText SessionTicket.fractionText n = 'e' :: '1' :: ':' :: u :=
              htext.symm.symm.trans hu
            rw [hsame]
            simp
          exact absurd (numeric_numText _ n ':' hmem) (by decide)
      | bool b => cases b <;> cases htext <;> cases hu
      | null => cases htext; cases hu
      | str s => cases htext; cases hu
      | arr items => cases htext; cases hu
      | obj members => cases htext; cases hu
    unfold startsWith sampleCodec
    dsimp only
    rw [hend]
    constructor
    · rw [Bool.eq_false_iff]
      intro hprefix
      obtain ⟨u, hu⟩ := List.isPrefixOf_iff_prefix.mp hprefix
      exact he u hu.symm
    · rw [Bool.eq_false_iff]
      intro hprefix
      obtain ⟨u, hu⟩ := List.isPrefixOf_iff_prefix.mp hprefix
      exact hz (List.cons.inj hu).1.symm

theorem sliceTo_replicate {m n : ℕ} (hle : m ≤ n) :
    sliceTo m (List.replicate n 'a') = some (List.replicate m 'a') := by
  have hsize : 'a'.utf8Size = 1 := by decide
  induction m generalizing n with
  | zero =>
      unfold sliceTo
      rfl
  | succ m ih =>
      obtain ⟨n, rfl⟩ : ∃ k, n = k + 1 := ⟨n - 1, by omega⟩
      rw [List.replicate_succ]
      unfold sliceTo
      rw [hsize, if_pos (by omega), Nat.add_sub_cancel, ih (by omega)]
      rfl

theorem length_longNote : (asBytes longNote).length = 5000 := by
  have hsize : 'a'.utf8Size = 1 := by decide
  unfold longNote
  rw [length_asBytes_ofList, List.map_replicate, List.sum_replicate, hsize, smul_eq_mul]

theorem cutString_longNote : cutString longNote = some shortNote := by
  have htext : longNote.toList = List.replicate 5000 'a' := String.toList_ofList
  have hsize : (5000 % 2 ^ 64).repr.toList = "5000".toList := by decide
  have htail : "…[trunc:".toList ++ ("5000".toList ++ "]".toList) = "…[trunc:5000]".toList := by
    decide
  unfold cutString shortNote
  dsimp only
  rw [length_longNote, if_pos (by decide), htext, sliceTo_replicate (by decide), Option.map_some,
    hsize, List.append_assoc, List.append_assoc, htail]

theorem slim_longNote :
    slimAnalysisResultForStorage (.obj (analysisOf 20 longNote)) = some slimmedNote := by
  have htrimmed : trimmedDown (.obj (analysisOf 20 longNote)) =
      .obj (analysisOf 20 longNote) := rfl
  have hlog : slimWalk 1 (some "battle_log") (battleLog 20) = some (battleLog 16) := by rfl
  have hnote : slimWalk 1 (some "note") (.str longNote) = some (.str shortNote) := by
    change (cutString longNote).map Json.str = _
    rw [cutString_longNote, Option.map_some]
  have hmembers : slimMembers 1 (analysisOf 20 longNote) = some (analysisOf 16 shortNote) := by
    unfold analysisOf
    rw [slimMembers_cons, if_neg (by decide), hlog, Option.bind_some, slimMembers_cons,
      if_neg (by decide), hnote, Option.bind_some]
    rfl
  rw [slim_eq, htrimmed]
  change ((slimMembers 1 (analysisOf 20 longNote)).map Json.obj).map _ = _
  rw [hmembers]
  rfl

theorem compact_analysis (s : String) :
    compact SessionTicket.fractionText
        (.obj (("_storage", .str "slim_v1") :: analysisOf 16 s)) =
      ("\x7b\"_storage\":\"slim_v1\",\"battle_log\":[0,1,2,3,4,5,6,7,8,9,10,11,12,13,14,15]," ++
          "\"note\":\"").toList ++ (stringBody s.toList ++ ['}']) := by
  rfl

theorem length_slimmedNote : (asBytes (sampleCodec.toText slimmedNote)).length = 612 := by
  have hshort : shortNote.toList = List.replicate 512 'a' ++ "…[trunc:5000]".toList :=
    String.toList_ofList
  have htext := compact_analysis shortNote
  rw [hshort] at htext
  unfold sampleCodec
  dsimp only
  rw [length_asBytes_ofList]
  unfold slimmedNote
  rw [htext]
  decide +kernel

def sampleKey : sampleCodec.Key := List.replicate 32 (0x5a : UInt8)

def sampleNonce : List UInt8 := List.replicate 12 7

/-- The note is cut, the log capped, and the result read back with the key it was
stored with. -/
theorem long_note_survives :
    ((∃ slim, SlimSound (.obj (analysisOf 20 longNote)) slim) ∧
      decodeAnalysisResultJson sampleCodec (some sampleKey)
        (encodeAnalysisResultJson sampleCodec (some sampleKey) sampleNonce slimmedNote) =
          some slimmedNote) ∧
    slimAnalysisResultForStorage (.obj (analysisOf 20 longNote)) = some slimmedNote := by
  have hcut : ∀ s, Visits 0 none (trimmedDown (.obj (analysisOf 20 longNote))) s → Cuttable s := by
    apply slimWalk_isSome.mp
    have hreturned := slim_longNote
    rw [slim_eq] at hreturned
    obtain ⟨w, hw, -⟩ := Option.map_eq_some_iff.mp hreturned
    rw [hw]
    rfl
  have hread : ReadsBack sampleCodec slimmedNote := by
    unfold ReadsBack sampleCodec
    dsimp only
    rw [if_pos rfl]
  refine ⟨?_, slim_longNote⟩
  apply (stored_analysis_survives_iff sampleCodec_lawful _ _ _ rfl).mpr
  constructor
  · exact hcut
  · unfold Recoverable
    dsimp only
    rw [length_slimmedNote, if_neg (by decide)]
    exact Or.inl ⟨by decide, hread⟩

theorem sliceTo_odd (m n : ℕ) : sliceTo (2 * m + 1) (List.replicate n 'é') = none := by
  have hsize : 'é'.utf8Size = 2 := by decide
  induction n generalizing m with
  | zero => rfl
  | succ n ih =>
      rw [List.replicate_succ]
      unfold sliceTo
      rw [hsize]
      cases m with
      | zero => rfl
      | succ m =>
          have hrest : 2 * (m + 1) + 1 - 2 = 2 * m + 1 := by omega
          rw [if_pos (by omega), hrest, ih]
          rfl

def accents : String := String.ofList ('a' :: List.replicate 2048 'é')

/-- A long string whose byte 512 is inside a character has the slimming panic. -/
theorem long_string_panics : ¬ ∃ slim, SlimSound (.obj [("note", .str accents)]) slim := by
  rw [slimSound_iff]
  intro hall
  have hvisit : Visits 0 none (trimmedDown (.obj [("note", .str accents)])) accents :=
    Visits.member (m := ("note", .str accents)) (by omega) List.mem_cons_self (by decide) Visits.str
  have hlong : (asBytes accents).length = 4097 := by
    have ha : 'a'.utf8Size = 1 := by decide
    have he : 'é'.utf8Size = 2 := by decide
    unfold accents
    rw [length_asBytes_ofList, List.map_cons, List.map_replicate, List.sum_cons,
      List.sum_replicate, ha, he, smul_eq_mul]
  have hinside : sliceTo 512 accents.toList = none := by
    have hfirst (cs : Text) : sliceTo 512 ('a' :: cs) = (sliceTo 511 cs).map ('a' :: ·) := rfl
    have hodd : sliceTo 511 (List.replicate 2048 'é') = none := sliceTo_odd 255 2048
    unfold accents
    rw [String.toList_ofList, hfirst, hodd]
    rfl
  rcases hall accents hvisit with hshort | hboundary
  · omega
  · rw [hinside] at hboundary
    cases hboundary

end WriteAmp

end GrServer
