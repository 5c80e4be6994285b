import GrServer.Faults
import GrServer.QuicCapture

/-!
# The walk over QUIC frames, index by index

The varints and the frames of a decrypted packet as the code reads them, by
positions in one buffer.  Every length is a varint of the sender's, up to
`2^62 - 1`, and every position the sum of some.  The walk faults nowhere, goes
forward with every frame, and gives the pieces that the capture takes.
-/

namespace GrServer

namespace QuicFrames

open Faults PieceAssembly

/-! ## Varints -/

/-- `read_varint`, with the position behind it. -/
def readVarint (data : List UInt8) (offset : ℕ) : Run (Option (ℕ × ℕ)) := do
  if data.length ≤ offset then return none
  let b ← index data offset
  let len ← shl 1 (b >>> 6).toNat
  if data.length < (← add offset len) then return none
  let v ← forRange
    (fun j v => do return (← shl v 8) ||| (← index data (← add offset j)).toNat)
    (len - 1) 1 (b &&& 0x3f).toNat
  return some (v, ← add offset len)

structure VarintAt (data : List UInt8) (i v n : ℕ) : Prop where
  small : v < 2 ^ 62
  advances : i < n
  inside : n ≤ data.length
  reads : QuicCapture.readVarint (data.drop i) = some (v, data.drop n)

section Varints

variable {data : List UInt8} {i : ℕ}

theorem toNat_highBits (b : UInt8) : (b >>> 6).toNat = b.toNat / 64 := by
  rw [UInt8.toNat_shiftRight, Nat.shiftRight_eq_div_pow]
  rfl

theorem toNat_low (b : UInt8) : (b &&& 0x3f).toNat = b.toNat % 64 := by
  rw [UInt8.toNat_and]
  exact Nat.and_two_pow_sub_one_eq_mod b.toNat 6

theorem highBits_lt (b : UInt8) : b.toNat / 64 < 4 := by
  have hb := b.toNat_lt
  omega

def valueTo (bs : List UInt8) (b : UInt8) (k : ℕ) : ℕ :=
  ((bs.take k).drop 1).foldl (fun v x => v * 256 + x.toNat) (b.toNat % 64)

theorem valueTo_succ {bs : List UInt8} {b x : UInt8} {k : ℕ} (hk : 1 ≤ k)
    (hx : bs[k]? = some x) : valueTo bs b (k + 1) = valueTo bs b k * 256 + x.toNat := by
  have hlt : k < bs.length := (List.getElem?_eq_some_iff.mp hx).1
  have htake : (bs.take (k + 1)).drop 1 = (bs.take k).drop 1 ++ [x] := by
    rw [List.take_add_one, hx, List.drop_append_of_le_length]
    · rfl
    · rw [List.length_take]
      omega
  unfold valueTo
  rw [htake, List.foldl_append]
  rfl

theorem shl_or_byte {v : ℕ} (x : UInt8) (hv : v < 2 ^ 56) :
    v <<< 8 % 2 ^ 64 ||| x.toNat = v * 256 + x.toNat := by
  have hx : x.toNat < 2 ^ 8 := x.toNat_lt
  have hshift : v <<< 8 % 2 ^ 64 = v <<< 8 := by
    rw [Nat.shiftLeft_eq]
    exact Nat.mod_eq_of_lt (by omega)
  rw [hshift, ← Nat.shiftLeft_add_eq_or_of_lt hx, Nat.shiftLeft_eq]

theorem returns_value {b : UInt8} {len : ℕ} (hfits : data.length < 2 ^ 63) (hlen : len ≤ 8)
    (hin : i + len ≤ data.length) (hpos : 1 ≤ len) :
    Returns (forRange
      (fun j v => do return (← shl v 8) ||| (← index data (← add i j)).toNat)
      (len - 1) 1 (b &&& 0x3f).toNat)
      fun v => v = valueTo (data.drop i) b len ∧ v < 64 * 256 ^ (len - 1) := by
  have hend : 1 + (len - 1) = len := by omega
  refine Returns.mono (returns_forRange (I := fun k v =>
    v = valueTo (data.drop i) b k ∧ v < 64 * 256 ^ (k - 1)) ?_ ?_) (by rw [hend]; simp)
  · intro k v hlo hhi hv
    have hpow : 256 ^ (k - 1) ≤ 256 ^ 6 := Nat.pow_le_pow_right (by norm_num) (by omega)
    have hsmall : v < 2 ^ 56 := by omega
    refine (returns_shl (by norm_num)).bind ?_
    intro w hw
    refine (returns_add (by omega)).bind ?_
    intro j hj
    subst hj
    refine (returns_index (by omega)).bind ?_
    intro x hx
    have hat : (data.drop i)[k]? = some x := by
      rw [List.getElem?_drop, hx]
    have hnext : w ||| x.toNat = v * 256 + x.toNat := by
      rw [hw, shl_or_byte x hsmall]
    have hx := x.toNat_lt
    have hsucc : 256 ^ (k + 1 - 1) = 256 ^ (k - 1) * 256 := by
      rw [← pow_succ]
      congr 1
      omega
    refine Returns.pure ⟨?_, ?_⟩
    · rw [hnext, valueTo_succ hlo hat, ← hv.1]
    · rw [hnext, hsucc]
      have hlt := hv.2
      omega
  · rw [toNat_low]
    refine ⟨?_, by omega⟩
    unfold valueTo
    cases data.drop i with
    | nil => rfl
    | cons c cs => rfl

theorem returns_readVarint (hfits : data.length < 2 ^ 63) :
    Returns (readVarint data i) fun r =>
      (r = none ∧ QuicCapture.readVarint (data.drop i) = none) ∨
        ∃ v n, r = some (v, n) ∧ VarintAt data i v n := by
  unfold readVarint
  refine Returns.ite ?_ ?_
  · intro hend
    refine Returns.pure (Or.inl ⟨rfl, ?_⟩)
    rw [List.drop_eq_nil_of_le hend]
    rfl
  · intro hin
    refine (returns_index (by omega)).bind ?_
    intro b hb
    have hdrop : data.drop i = b :: data.drop (i + 1) := by
      rw [List.drop_eq_getElem_cons (by omega)]
      rw [List.getElem?_eq_getElem (by omega)] at hb
      rw [Option.some.inj hb]
    have hhigh := highBits_lt b
    refine (returns_shl (by rw [toNat_highBits]; omega)).bind ?_
    intro len hlen
    rw [toNat_highBits, Nat.shiftLeft_eq, one_mul] at hlen
    have hpow : 2 ^ (b.toNat / 64) ≤ 2 ^ 3 := Nat.pow_le_pow_right (by norm_num) (by omega)
    have hpos : 0 < 2 ^ (b.toNat / 64) := by positivity
    rw [Nat.mod_eq_of_lt (by omega)] at hlen
    refine (returns_add (by omega)).bind ?_
    intro stop hstop
    subst hstop
    have hread : QuicCapture.readVarint (data.drop i) =
        if (data.drop i).length < len then none
        else some (valueTo (data.drop i) b len, (data.drop i).drop len) := by
      rw [hlen, hdrop]
      rfl
    rw [List.length_drop] at hread
    refine Returns.ite ?_ ?_
    · intro hshort
      refine Returns.pure (Or.inl ⟨rfl, ?_⟩)
      rw [hread, if_pos (by omega)]
    · intro hwhole
      refine (returns_value hfits (by omega) (by omega) (by omega)).bind ?_
      intro v hv
      refine (returns_add (by omega)).bind ?_
      intro n hn
      refine Returns.pure (Or.inr ⟨v, n, rfl, ?_, by omega, by omega, ?_⟩)
      · have hbound : 256 ^ (len - 1) ≤ 256 ^ 7 := Nat.pow_le_pow_right (by norm_num) (by omega)
        have hlt := hv.2
        omega
      · rw [hread, if_neg (by omega), ← hv.1, List.drop_drop, ← hn]

-- the largest value there is
example : readVarint [0xff, 0xff, 0xff, 0xff, 0xff, 0xff, 0xff, 0xff] 0 =
    .ok (some (2 ^ 62 - 1, 8)) := by decide

theorem bind_readVarint {β : Type} {k : Option (ℕ × ℕ) → Run β} {R : β → Prop}
    (hfits : data.length < 2 ^ 63)
    (hnone : QuicCapture.readVarint (data.drop i) = none → Returns (k none) R)
    (hsome : ∀ v n, VarintAt data i v n → Returns (k (some (v, n))) R) :
    Returns (readVarint data i >>= k) R := by
  refine (returns_readVarint hfits).bind ?_
  intro r hr
  rcases hr with ⟨rfl, hr⟩ | ⟨v, n, rfl, hr⟩
  · exact hnone hr
  · exact hsome v n hr

end Varints

/-! ## Frames -/

abbrev Walk := ℕ × List (Piece UInt8)

def skipAll (frames : List UInt8) : ℕ → ℕ → Run (Option ℕ)
  | 0, i => return some i
  | n + 1, i => do
      let some (_, i) ← readVarint frames i | return none
      skipAll frames n i

def skipSome (frames : List UInt8) : ℕ → ℕ → Run ℕ
  | 0, i => return i
  | n + 1, i => do
      let some (_, i) ← readVarint frames i | return i
      skipSome frames n i

def skipPadding (frames : List UInt8) (i : ℕ) : Run ℕ :=
  loop (fun i => do
    if frames.length ≤ i then return .done i
    if (← index frames i) ≠ 0x00 then return .done i
    return .yield (← add i 1)) (frames.length + 1) i

/-- The ranges of an ACK: the count is the sender's, and the rounds have to be
no more than there are bytes. -/
def skipRanges (frames : List UInt8) (rangeCount i : ℕ) : Run ℕ := do
  let s ← loop (fun (k, i) => do
    if rangeCount ≤ k then return .done (k, i)
    let some (_, i) ← readVarint frames i | return .done (k, i)
    let some (_, i) ← readVarint frames i | return .done (k, i)
    return .yield (k + 1, i)) (frames.length + 1) (0, i)
  return s.2

def readAck (frames : List UInt8) (ftype i : ℕ) : Run (Option ℕ) := do
  let some i ← skipAll frames 2 i | return none
  let some (rangeCount, i) ← readVarint frames i | return none
  let some i ← skipAll frames 1 i | return none
  let i ← skipRanges frames rangeCount i
  if ftype = 0x03 then return some (← skipSome frames 3 i)
  return some i

def readNewToken (frames : List UInt8) (i : ℕ) : Run (Option ℕ) := do
  let some (len, n) ← readVarint frames i | return none
  return some (← add n len)

def readStream (frames : List UInt8) (ftype i : ℕ) : Run (Option ℕ) := do
  let some i ← skipAll frames 1 i | return none
  let some i ← skipAll frames (if ftype.testBit 2 then 1 else 0) i | return none
  if ftype.testBit 1 then readNewToken frames i
  else return none

/-- The piece of a CRYPTO frame, and the position behind it; a frame cut short
ends the walk. -/
def readCrypto (frames : List UInt8) (i : ℕ) : Run (List (Piece UInt8) × Option ℕ) := do
  let some (offset, i) ← readVarint frames i | return ([], none)
  let some (len, i) ← readVarint frames i | return ([], none)
  if frames.length < (← add i len) then
    return ([(offset, ← slice frames i frames.length)], none)
  let data ← slice frames i (← add i len)
  return ([(offset, data)], some (← add i len))

/-- The pieces of the frame of a type, and the position behind it unless the
walk ends here. -/
def readFrame (frames : List UInt8) (ftype i : ℕ) : Run (List (Piece UInt8) × Option ℕ) := do
  if ftype = 0x00 ∨ ftype = 0x01 then return ([], some i)
  else if ftype = 0x02 ∨ ftype = 0x03 then return ([], ← readAck frames ftype i)
  else if ftype = 0x04 then return ([], ← skipAll frames 3 i)
  else if ftype = 0x05 then return ([], ← skipAll frames 2 i)
  else if ftype = 0x06 then readCrypto frames i
  else if ftype = 0x07 then return ([], ← readNewToken frames i)
  else if 0x08 ≤ ftype ∧ ftype ≤ 0x0f then return ([], ← readStream frames ftype i)
  else if ftype = 0x1c ∨ ftype = 0x1d then return ([], none)
  -- The rest is looked at for padding, and the walk ends either way.
  else if (← slice frames i frames.length).all (· == 0) then return ([], none)
  else return ([], none)

def walkFrame (frames : List UInt8) (s : Walk) : Run (ForInStep Walk) := do
  if frames.length ≤ s.1 then return .done s
  if (← index frames s.1) = 0x00 then return .yield (← skipPadding frames s.1, s.2)
  let some (ftype, i) ← readVarint frames s.1 | return .done s
  match ← readFrame frames ftype i with
  | (pieces, some next) => return .yield (next, s.2 ++ pieces)
  | (pieces, none) => return .done (i, s.2 ++ pieces)

def extractCryptoPieces (frames : List UInt8) : Run (List (Piece UInt8)) := do
  let s ← loop (walkFrame frames) (frames.length + 1) (0, [])
  return s.2

/-! ### The frames by their bytes -/

section Bytes

variable {bs rest : List UInt8} {v n ftype : ℕ} {pieces : List (Piece UInt8)}

theorem length_readVarint (h : QuicCapture.readVarint bs = some (v, rest)) :
    rest.length < bs.length := by
  cases bs with
  | nil => simp [QuicCapture.readVarint] at h
  | cons b bs =>
      have hpos : 0 < 2 ^ (b.toNat / 64) := by positivity
      rw [QuicCapture.readVarint] at h
      split_ifs at h with hlen
      rw [Option.some.injEq, Prod.mk.injEq] at h
      rw [← h.2, List.length_drop, List.length_cons]
      omega

theorem length_passVarints (h : QuicCapture.passVarints n bs = some rest) :
    rest.length ≤ bs.length := by
  induction n generalizing bs with
  | zero =>
      cases h
      exact le_rfl
  | succ n ih =>
      rcases Option.bind_eq_some_iff.mp h with ⟨⟨v, next⟩, hread, hpass⟩
      exact (ih hpass).trans (length_readVarint hread).le

theorem length_skipVarints (n : ℕ) (bs : List UInt8) :
    (QuicCapture.skipVarints n bs).length ≤ bs.length := by
  induction n generalizing bs with
  | zero => exact le_rfl
  | succ n ih =>
      rw [QuicCapture.skipVarints]
      cases hread : QuicCapture.readVarint bs with
      | none => exact le_rfl
      | some v => exact (ih v.2).trans (length_readVarint hread).le

theorem length_readAck (h : QuicCapture.readAck ftype bs = some rest) :
    rest.length ≤ bs.length := by
  rcases Option.bind_eq_some_iff.mp h with ⟨bs₁, h₁, h⟩
  rcases Option.bind_eq_some_iff.mp h with ⟨⟨ranges, bs₂⟩, h₂, h⟩
  rcases Option.map_eq_some_iff.mp h with ⟨bs₃, h₃, h⟩
  have hpass := length_passVarints h₁
  have hranges := length_readVarint h₂
  have hfirst := length_passVarints h₃
  have hskip := length_skipVarints (2 * ranges) bs₃
  dsimp only at h hfirst
  split_ifs at h
  · have hlast := length_skipVarints 3 (QuicCapture.skipVarints (2 * ranges) bs₃)
    rw [← h]
    omega
  · rw [← h]
    omega

theorem length_skipped (h : (QuicCapture.readVarint bs).map (fun len => len.2.drop len.1) =
    some rest) : rest.length ≤ bs.length := by
  rcases Option.map_eq_some_iff.mp h with ⟨⟨len, next⟩, hread, rfl⟩
  have hnext := length_readVarint hread
  have hdrop := (List.drop_sublist len next).length_le
  exact hdrop.trans hnext.le

theorem length_readStream (h : QuicCapture.readStream ftype bs = some rest) :
    rest.length ≤ bs.length := by
  rcases Option.bind_eq_some_iff.mp h with ⟨bs₁, h₁, h⟩
  rcases Option.bind_eq_some_iff.mp h with ⟨bs₂, h₂, h⟩
  have hid := length_passVarints h₁
  have hoff := length_passVarints h₂
  split_ifs at h
  have hlen := length_skipped h
  omega

theorem length_readFrame (h : QuicCapture.readFrame ftype bs = (pieces, some rest)) :
    rest.length ≤ bs.length := by
  unfold QuicCapture.readFrame at h
  split_ifs at h
  · cases h
    exact le_rfl
  · exact length_readAck (Prod.mk.inj h).2
  · exact length_passVarints (Prod.mk.inj h).2
  · exact length_passVarints (Prod.mk.inj h).2
  · cases hread : (QuicCapture.readVarint bs).bind fun off =>
        (QuicCapture.readVarint off.2).map fun len => (off.1, len) with
    | none =>
        rw [hread] at h
        cases h
    | some c =>
        rcases Option.bind_eq_some_iff.mp hread with ⟨off, hoff, hlen⟩
        rcases Option.map_eq_some_iff.mp hlen with ⟨len, hdata, rfl⟩
        have h₁ := length_readVarint hoff
        have h₂ := length_readVarint hdata
        rw [hread] at h
        dsimp only at h
        split_ifs at h
        · cases h
        · rw [← Option.some.inj (Prod.mk.inj h).2, List.length_drop]
          omega
  · exact length_skipped (Prod.mk.inj h).2
  · exact length_readStream (Prod.mk.inj h).2
  · cases h

theorem walkFrames_eq (h : bs.length ≤ n) :
    QuicCapture.walkFrames n bs = QuicCapture.extractCryptoPieces bs := by
  induction n using Nat.strong_induction_on generalizing bs with
  | _ n ih =>
      unfold QuicCapture.extractCryptoPieces
      cases n with
      | zero => rw [Nat.le_zero.mp h]
      | succ n =>
          cases hbs : bs with
          | nil => rfl
          | cons b tail =>
              rw [List.length_cons, QuicCapture.walkFrames, QuicCapture.walkFrames, ← hbs]
              cases hread : QuicCapture.readVarint bs with
              | none => rfl
              | some v =>
                  have hlen := length_readVarint hread
                  rw [hbs, List.length_cons] at h hlen
                  cases hframe : QuicCapture.readFrame v.1 v.2 with
                  | mk pieces next =>
                      cases next with
                      | none => simp only [hframe]
                      | some rest =>
                          have hrest := length_readFrame hframe
                          simp only [hframe]
                          rw [ih n (by omega) (by omega), ih tail.length (by omega) (by omega)]

theorem extractCryptoPieces_eq (h : QuicCapture.readVarint bs = some (ftype, rest)) :
    QuicCapture.extractCryptoPieces bs = (QuicCapture.readFrame ftype rest).1 ++
      ((QuicCapture.readFrame ftype rest).2.map QuicCapture.extractCryptoPieces).getD [] := by
  have hlen := length_readVarint h
  rw [← walkFrames_eq (Nat.le_succ bs.length), QuicCapture.walkFrames, h]
  cases hframe : QuicCapture.readFrame ftype rest with
  | mk pieces next =>
      cases next with
      | none => simp [hframe]
      | some behind =>
          have hbehind := length_readFrame hframe
          simp only [hframe, Option.map_some, Option.getD_some]
          rw [walkFrames_eq (by omega)]

theorem extractCryptoPieces_none (h : QuicCapture.readVarint bs = none) :
    QuicCapture.extractCryptoPieces bs = [] := by
  rw [← walkFrames_eq (Nat.le_succ bs.length), QuicCapture.walkFrames, h]

theorem extractCryptoPieces_padding (bs : List UInt8) :
    QuicCapture.extractCryptoPieces (0x00 :: bs) = QuicCapture.extractCryptoPieces bs := by
  have hread : QuicCapture.readVarint (0x00 :: bs) = some (0, bs) := by
    simp [QuicCapture.readVarint]
  rw [extractCryptoPieces_eq hread]
  simp [QuicCapture.readFrame]

end Bytes

/-! ### The frames by position -/

structure Onward (frames : List UInt8) (i : ℕ) (next : Option ℕ) (bs : Option (List UInt8)) :
    Prop where
  bytes : next.map frames.drop = bs
  forward : ∀ n, next = some n → i ≤ n

section Positions

variable {frames : List UInt8} {i : ℕ}

theorem Onward.stop {i : ℕ} : Onward frames i none none := ⟨rfl, fun _ h => nomatch h⟩

theorem Onward.at {n : ℕ} (h : i ≤ n) : Onward frames i (some n) (some (frames.drop n)) := by
  refine ⟨rfl, ?_⟩
  intro m hm
  cases hm
  exact h

theorem Onward.earlier {j : ℕ} {next : Option ℕ} {bs : Option (List UInt8)}
    (h : Onward frames j next bs) (hij : i ≤ j) : Onward frames i next bs :=
  ⟨h.bytes, fun n hn => hij.trans (h.forward n hn)⟩

theorem bind_onward {β : Type} {m : Run (Option ℕ)} {k : Option ℕ → Run β} {R : β → Prop}
    {bs : Option (List UInt8)} (hm : Returns m fun next => Onward frames i next bs)
    (hnone : bs = none → Returns (k none) R)
    (hsome : ∀ n, i ≤ n → bs = some (frames.drop n) → Returns (k (some n)) R) :
    Returns (m >>= k) R := by
  refine hm.bind ?_
  intro next hnext
  cases next with
  | none => exact hnone hnext.bytes.symm
  | some n => exact hsome n (hnext.forward n rfl) hnext.bytes.symm

theorem returns_skipAll (hfits : frames.length < 2 ^ 63) (n : ℕ) :
    Returns (skipAll frames n i) fun next =>
      Onward frames i next (QuicCapture.passVarints n (frames.drop i)) := by
  induction n generalizing i with
  | zero => exact Returns.pure (Onward.at le_rfl)
  | succ n ih =>
      rw [QuicCapture.passVarints]
      refine bind_readVarint hfits ?_ ?_
      · intro hnone
        rw [hnone]
        exact Returns.pure Onward.stop
      · intro v j hv
        rw [hv.reads]
        exact Returns.mono ih fun next h => h.earlier hv.advances.le

theorem returns_skipSome (hfits : frames.length < 2 ^ 63) (n : ℕ) :
    Returns (skipSome frames n i) fun j =>
      i ≤ j ∧ QuicCapture.skipVarints n (frames.drop i) = frames.drop j := by
  induction n generalizing i with
  | zero => exact Returns.pure ⟨le_rfl, rfl⟩
  | succ n ih =>
      rw [QuicCapture.skipVarints]
      refine bind_readVarint hfits ?_ ?_
      · intro hnone
        rw [hnone]
        exact Returns.pure ⟨le_rfl, rfl⟩
      · intro v j hv
        rw [hv.reads]
        exact Returns.mono ih fun k h => ⟨hv.advances.le.trans h.1, h.2⟩

theorem returns_skipPadding (hfits : frames.length < 2 ^ 63) (hzero : frames[i]? = some 0x00) :
    Returns (skipPadding frames i) fun j =>
      i < j ∧ QuicCapture.extractCryptoPieces (frames.drop i) =
        QuicCapture.extractCryptoPieces (frames.drop j) := by
  refine returns_loop (I := fun j => i ≤ j ∧ j ≤ frames.length ∧
    QuicCapture.extractCryptoPieces (frames.drop i) =
      QuicCapture.extractCryptoPieces (frames.drop j))
    (m := fun j => frames.length - j) ?_ ?_ ?_
  · rintro j ⟨hij, hj, hsame⟩
    have hstrict : ¬frames[j]? = some 0x00 → i < j := by
      intro hne
      by_contra hle
      have hji : j = i := by omega
      rw [hji] at hne
      exact hne hzero
    refine Returns.ite ?_ ?_
    · intro hend
      refine Returns.pure ⟨hstrict ?_, hsame⟩
      rw [List.getElem?_eq_none hend]
      exact fun h => nomatch h
    · intro hin
      refine (returns_index (by omega)).bind ?_
      intro b hb
      refine Returns.ite ?_ ?_
      · intro hne
        refine Returns.pure ⟨hstrict ?_, hsame⟩
        rw [hb]
        exact fun h => hne (Option.some.inj h)
      · intro hb0
        rw [not_not.mp hb0] at hb
        refine (returns_add (by omega)).bind ?_
        intro n hn
        subst hn
        have hdrop : frames.drop j = 0x00 :: frames.drop (j + 1) := by
          rw [List.drop_eq_getElem_cons (by omega)]
          rw [List.getElem?_eq_getElem (by omega)] at hb
          rw [Option.some.inj hb]
        refine Returns.pure ⟨⟨by omega, by omega, ?_⟩, by omega⟩
        rw [hsame, hdrop, extractCryptoPieces_padding]
  · have hin := (List.getElem?_eq_some_iff.mp hzero).1
    exact ⟨le_rfl, hin.le, rfl⟩
  · omega

theorem returns_skipRanges (hfits : frames.length < 2 ^ 63) (rangeCount : ℕ) :
    Returns (skipRanges frames rangeCount i) fun j =>
      i ≤ j ∧ QuicCapture.skipVarints (2 * rangeCount) (frames.drop i) = frames.drop j := by
  have hloop := returns_loop (Q := fun s : ℕ × ℕ => i ≤ s.2 ∧
      QuicCapture.skipVarints (2 * rangeCount) (frames.drop i) = frames.drop s.2)
    (I := fun s : ℕ × ℕ => i ≤ s.2 ∧ QuicCapture.skipVarints (2 * rangeCount) (frames.drop i) =
      QuicCapture.skipVarints (2 * (rangeCount - s.1)) (frames.drop s.2))
    (m := fun s => frames.length - s.2)
    (f := fun (k, i) => do
      if rangeCount ≤ k then return .done (k, i)
      let some (_, i) ← readVarint frames i | return .done (k, i)
      let some (_, i) ← readVarint frames i | return .done (k, i)
      return .yield (k + 1, i)) (n := frames.length + 1) (s := (0, i)) ?_ ⟨le_rfl, rfl⟩ ?_
  · refine hloop.bind ?_
    intro s hs
    exact Returns.pure hs
  · rintro ⟨k, j⟩ ⟨hij, hsame⟩
    dsimp only at hij hsame
    refine Returns.ite ?_ ?_
    · intro hall
      refine Returns.pure ⟨hij, ?_⟩
      rw [hsame, Nat.sub_eq_zero_of_le hall]
      rfl
    · intro hmore
      have hleft : 2 * (rangeCount - k) = 2 * (rangeCount - (k + 1)) + 1 + 1 := by omega
      rw [hleft, QuicCapture.skipVarints] at hsame
      refine bind_readVarint hfits ?_ ?_
      · intro hnone
        rw [hnone] at hsame
        exact Returns.pure ⟨hij, hsame⟩
      · intro v n hv
        have hn := hv.advances
        rw [hv.reads] at hsame
        dsimp only at hsame
        rw [QuicCapture.skipVarints] at hsame
        refine bind_readVarint hfits ?_ ?_
        · intro hnone
          rw [hnone] at hsame
          exact Returns.pure ⟨by dsimp only; omega, hsame⟩
        · intro w m hw
          have hm := hw.advances
          have hin := hw.inside
          rw [hw.reads] at hsame
          exact Returns.pure ⟨⟨by dsimp only; omega, hsame⟩, by dsimp only; omega⟩
  · dsimp only
    omega

theorem returns_readAck (hfits : frames.length < 2 ^ 63) (ftype : ℕ) :
    Returns (readAck frames ftype i) fun next =>
      Onward frames i next (QuicCapture.readAck ftype (frames.drop i)) := by
  unfold readAck QuicCapture.readAck
  refine bind_onward (returns_skipAll hfits 2) ?_ ?_
  · intro hnone
    rw [hnone]
    exact Returns.pure Onward.stop
  · intro n hn hsome
    rw [hsome, Option.bind_some]
    refine bind_readVarint hfits ?_ ?_
    · intro hnone
      rw [hnone]
      exact Returns.pure Onward.stop
    · intro rangeCount j hj
      have hnj := hj.advances
      rw [hj.reads, Option.bind_some]
      refine bind_onward (returns_skipAll hfits 1) ?_ ?_
      · intro hnone
        rw [hnone]
        exact Returns.pure Onward.stop
      · intro k hk hsome
        rw [hsome, Option.map_some]
        refine (returns_skipRanges hfits rangeCount).bind ?_
        rintro m ⟨hm, hranges⟩
        dsimp only
        rw [hranges]
        refine Returns.ite ?_ ?_
        · intro hecn
          rw [if_pos hecn]
          refine (returns_skipSome hfits 3).bind ?_
          rintro last ⟨hlast, hecn⟩
          rw [hecn]
          exact Returns.pure (Onward.at (by omega))
        · intro hplain
          rw [if_neg hplain]
          exact Returns.pure (Onward.at (by omega))

theorem returns_readNewToken (hfits : frames.length < 2 ^ 63) :
    Returns (readNewToken frames i) fun next => Onward frames i next
      ((QuicCapture.readVarint (frames.drop i)).map fun len => len.2.drop len.1) := by
  refine bind_readVarint hfits ?_ ?_
  · intro hnone
    rw [hnone]
    exact Returns.pure Onward.stop
  · intro len n hlen
    have hsmall := hlen.small
    have hn := hlen.advances
    have hin := hlen.inside
    rw [hlen.reads, Option.map_some, List.drop_drop]
    -- A length near `2^62` still fits behind a position in the buffer.
    refine (returns_add (by omega)).bind ?_
    intro m hm
    subst hm
    exact Returns.pure (Onward.at (by omega))

theorem returns_readStream (hfits : frames.length < 2 ^ 63) (ftype : ℕ) :
    Returns (readStream frames ftype i) fun next =>
      Onward frames i next (QuicCapture.readStream ftype (frames.drop i)) := by
  unfold readStream QuicCapture.readStream
  refine bind_onward (returns_skipAll hfits 1) ?_ ?_
  · intro hnone
    rw [hnone]
    exact Returns.pure Onward.stop
  · intro n hn hsome
    rw [hsome, Option.bind_some]
    refine bind_onward (returns_skipAll hfits _) ?_ ?_
    · intro hnone
      rw [hnone]
      exact Returns.pure Onward.stop
    · intro m hm hsome
      rw [hsome, Option.bind_some]
      refine Returns.ite ?_ ?_
      · intro hlen
        rw [if_pos hlen]
        exact Returns.mono (returns_readNewToken hfits) fun next h => h.earlier (by omega)
      · intro hrest
        rw [if_neg hrest]
        exact Returns.pure Onward.stop

def FrameAt (frames : List UInt8) (i : ℕ) (f : List (Piece UInt8) × Option (List UInt8))
    (r : List (Piece UInt8) × Option ℕ) : Prop :=
  r.1 = f.1 ∧ Onward frames i r.2 f.2

theorem returns_readCrypto (hfits : frames.length < 2 ^ 63) :
    Returns (readCrypto frames i)
      (FrameAt frames i (QuicCapture.readFrame 0x06 (frames.drop i))) := by
  unfold readCrypto QuicCapture.readFrame
  simp only [OfNat.ofNat_ne_zero, OfNat.ofNat_ne_one, or_self, if_false, Nat.reduceEqDiff, if_true]
  refine bind_readVarint hfits ?_ ?_
  · intro hnone
    rw [hnone]
    exact Returns.pure ⟨rfl, Onward.stop⟩
  · intro offset n hoff
    have hn := hoff.advances
    rw [hoff.reads, Option.bind_some]
    refine bind_readVarint hfits ?_ ?_
    · intro hnone
      rw [hnone]
      exact Returns.pure ⟨rfl, Onward.stop⟩
    · intro len j hlen
      have hsmall := hlen.small
      have hj := hlen.advances
      have hin := hlen.inside
      rw [hlen.reads, Option.map_some]
      dsimp only
      rw [List.length_drop]
      refine (returns_add (by omega)).bind ?_
      intro stop hstop
      subst hstop
      refine Returns.ite ?_ ?_
      · intro hshort
        rw [if_pos (by omega)]
        refine (returns_sliceFrom hin).bind ?_
        rintro data rfl
        exact Returns.pure ⟨rfl, Onward.stop⟩
      · intro hwhole
        rw [if_neg (by omega)]
        refine (returns_add (by omega)).bind ?_
        intro stop hstop
        subst hstop
        refine (returns_slice (by omega) (by omega)).bind ?_
        rintro data ⟨hdata, -⟩
        refine (returns_add (by omega)).bind ?_
        intro stop hstop
        subst hstop
        rw [hdata, List.drop_drop, Nat.add_sub_cancel_left]
        exact Returns.pure ⟨rfl, Onward.at (by omega)⟩

theorem returns_without {m : Run (Option ℕ)} {bs : Option (List UInt8)}
    (hm : Returns m fun next => Onward frames i next bs) :
    Returns (do return (([] : List (Piece UInt8)), ← m)) (FrameAt frames i ([], bs)) := by
  refine hm.bind ?_
  intro next hnext
  exact Returns.pure ⟨rfl, hnext⟩

theorem returns_readFrame (hfits : frames.length < 2 ^ 63) (hin : i ≤ frames.length)
    (ftype : ℕ) : Returns (readFrame frames ftype i)
      (FrameAt frames i (QuicCapture.readFrame ftype (frames.drop i))) := by
  by_cases hcrypto : ftype = 0x06
  · subst hcrypto
    exact returns_readCrypto hfits
  unfold readFrame QuicCapture.readFrame
  refine Returns.ite (fun h => ?_) fun h => ?_
  · rw [if_pos h]
    exact Returns.pure ⟨rfl, Onward.at le_rfl⟩
  rw [if_neg h]
  refine Returns.ite (fun h => ?_) fun h => ?_
  · rw [if_pos h]
    exact returns_without (returns_readAck hfits ftype)
  rw [if_neg h]
  refine Returns.ite (fun h => ?_) fun h => ?_
  · rw [if_pos h]
    exact returns_without (returns_skipAll hfits 3)
  rw [if_neg h]
  refine Returns.ite (fun h => ?_) fun h => ?_
  · rw [if_pos h]
    exact returns_without (returns_skipAll hfits 2)
  rw [if_neg h]
  refine Returns.ite (fun h => absurd h hcrypto) fun _ => ?_
  rw [if_neg hcrypto]
  refine Returns.ite (fun h => ?_) fun h => ?_
  · rw [if_pos h]
    exact returns_without (returns_readNewToken hfits)
  rw [if_neg h]
  refine Returns.ite (fun h => ?_) fun h => ?_
  · rw [if_pos h]
    exact returns_without (returns_readStream hfits ftype)
  rw [if_neg h]
  have hstop : FrameAt frames i ([], none) ([], none) := ⟨rfl, Onward.stop⟩
  refine Returns.ite (fun _ => Returns.pure hstop) fun _ => ?_
  refine (returns_slice hin le_rfl).bind ?_
  intro rest hrest
  exact Returns.ite (fun _ => Returns.pure hstop) fun _ => Returns.pure hstop

theorem returns_walkFrame (hfits : frames.length < 2 ^ 63) (s : Walk) :
    Returns (walkFrame frames s) fun
      | .yield s' => s.1 < frames.length ∧ s.1 < s'.1 ∧
          s.2 ++ QuicCapture.extractCryptoPieces (frames.drop s.1) =
            s'.2 ++ QuicCapture.extractCryptoPieces (frames.drop s'.1)
      | .done s' => s.2 ++ QuicCapture.extractCryptoPieces (frames.drop s.1) = s'.2 := by
  unfold walkFrame
  refine Returns.ite ?_ ?_
  · intro hend
    refine Returns.pure ?_
    rw [List.drop_eq_nil_of_le hend]
    exact List.append_nil s.2
  · intro hin
    refine (returns_index (by omega)).bind ?_
    intro b hb
    refine Returns.ite ?_ ?_
    · intro hzero
      rw [hzero] at hb
      refine (returns_skipPadding hfits hb).bind ?_
      rintro j ⟨hj, hsame⟩
      exact Returns.pure ⟨by omega, hj, by rw [hsame]⟩
    · intro hframe
      refine bind_readVarint hfits ?_ ?_
      · intro hnone
        refine Returns.pure ?_
        dsimp only
        rw [extractCryptoPieces_none hnone, List.append_nil]
      · intro ftype i htype
        have hi := htype.advances
        have hpieces := extractCryptoPieces_eq htype.reads
        refine (returns_readFrame hfits htype.inside ftype).bind ?_
        rintro ⟨pieces, next⟩ ⟨hfirst, hnext⟩
        have hbytes := hnext.bytes
        dsimp only at hfirst hbytes
        rw [← hfirst, ← hbytes, Option.map_map] at hpieces
        cases next with
        | none =>
            refine Returns.pure ?_
            dsimp only
            rw [hpieces]
            simp
        | some n =>
            have hn := hnext.forward n rfl
            refine Returns.pure ⟨by omega, by dsimp only; omega, ?_⟩
            rw [hpieces]
            simp

theorem returns_extractCryptoPieces (hfits : frames.length < 2 ^ 63) :
    Returns (extractCryptoPieces frames) (· = QuicCapture.extractCryptoPieces frames) := by
  have hloop := returns_loop (f := walkFrame frames)
    (I := fun s : Walk => QuicCapture.extractCryptoPieces frames =
      s.2 ++ QuicCapture.extractCryptoPieces (frames.drop s.1))
    (Q := fun s => QuicCapture.extractCryptoPieces frames = s.2)
    (m := fun s => frames.length - s.1) (n := frames.length + 1) (s := (0, [])) ?_ rfl ?_
  · refine hloop.bind ?_
    intro s hs
    exact Returns.pure hs.symm
  · intro s hs
    refine Returns.mono (returns_walkFrame hfits s) ?_
    intro r hr
    cases r with
    | yield s' => exact ⟨hs.trans hr.2.2, by omega⟩
    | done s' => exact hs.trans hr
  · dsimp only
    omega

-- a piece, and a token that is said to end far behind the buffer
example : extractCryptoPieces
    [0x06, 0x00, 0x01, 0x2a, 0x07, 0xff, 0xff, 0xff, 0xff, 0xff, 0xff, 0xff, 0xff] =
      .ok [(0, [0x2a])] := by decide

end Positions

end QuicFrames

end GrServer
