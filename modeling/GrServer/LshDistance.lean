import GrServer.Text

/-!
# The distance of two curve digests

Hexadecimal digests are compared nibble by nibble; what one digest has more
than the other counts four bits a character.  The sum is kept in 32 bits.
-/

namespace GrServer

open Text

namespace CurveLsh

section Padded

variable {α : Type*}

/-- The distances of the items in common, and `gap` for every item of one list only. -/
def paddedDistance (d : α → α → ℕ) (gap : ℕ) : List α → List α → ℕ
  | [], bs => gap * bs.length
  | as, [] => gap * as.length
  | a :: as, b :: bs => d a b + paddedDistance d gap as bs

variable {d : α → α → ℕ} {gap : ℕ}

@[simp] theorem paddedDistance_nil_right (as : List α) :
    paddedDistance d gap as [] = gap * as.length := by
  cases as <;> rfl

theorem paddedDistance_eq (as bs : List α) :
    paddedDistance d gap as bs =
      ((as.zip bs).map fun p => d p.1 p.2).sum +
        gap * (as.length - bs.length + (bs.length - as.length)) := by
  induction as, bs using paddedDistance.induct with
  | case1 bs => simp [paddedDistance]
  | case2 as _ => simp
  | case3 a as b bs ih =>
      rw [paddedDistance, ih, List.zip_cons_cons, List.map_cons, List.sum_cons,
        List.length_cons, List.length_cons, Nat.add_sub_add_right, Nat.add_sub_add_right,
        Nat.add_assoc]

theorem paddedDistance_comm (hcomm : ∀ a b, d a b = d b a) (as bs : List α) :
    paddedDistance d gap as bs = paddedDistance d gap bs as := by
  induction as, bs using paddedDistance.induct with
  | case1 bs => simp [paddedDistance]
  | case2 as _ => simp [paddedDistance]
  | case3 a as b bs ih => rw [paddedDistance, paddedDistance, ih, hcomm]

theorem paddedDistance_le (hle : ∀ a b, d a b ≤ gap) (as bs : List α) :
    paddedDistance d gap as bs ≤ gap * max as.length bs.length := by
  induction as, bs using paddedDistance.induct with
  | case1 bs => simp [paddedDistance]
  | case2 as _ => simp
  | case3 a as b bs ih =>
      have hmax : max (a :: as).length (b :: bs).length = max as.length bs.length + 1 := by
        rw [List.length_cons, List.length_cons, Nat.add_max_add_right]
      have hhead := hle a b
      rw [paddedDistance, hmax, Nat.mul_succ]
      omega

theorem eq_of_paddedDistance_eq_zero (hgap : 0 < gap) {as bs : List α}
    (heq : ∀ a ∈ as, ∀ b ∈ bs, d a b = 0 → a = b) (h : paddedDistance d gap as bs = 0) :
    as = bs := by
  induction as, bs using paddedDistance.induct with
  | case1 bs =>
      rw [paddedDistance] at h
      have hlength : bs.length = 0 := (Nat.mul_eq_zero.mp h).resolve_left hgap.ne'
      exact (List.length_eq_zero_iff.mp hlength).symm
  | case2 as _ =>
      rw [paddedDistance_nil_right] at h
      have hlength : as.length = 0 := (Nat.mul_eq_zero.mp h).resolve_left hgap.ne'
      exact List.length_eq_zero_iff.mp hlength
  | case3 a as b bs ih =>
      rw [paddedDistance] at h
      have hhead : a = b := heq a List.mem_cons_self b List.mem_cons_self (by omega)
      have htail : as = bs :=
        ih (fun x hx y hy => heq x (List.mem_cons_of_mem a hx) y (List.mem_cons_of_mem b hy))
          (by omega)
      rw [hhead, htail]

theorem paddedDistance_triangle (hle : ∀ a b, d a b ≤ gap)
    (htri : ∀ a b c, d a c ≤ d a b + d b c) (as bs cs : List α) :
    paddedDistance d gap as cs ≤ paddedDistance d gap as bs + paddedDistance d gap bs cs := by
  induction bs generalizing as cs with
  | nil =>
      have hmax := paddedDistance_le hle as cs
      have hsum : gap * max as.length cs.length ≤ gap * as.length + gap * cs.length := by
        rw [← Nat.mul_add]
        exact Nat.mul_le_mul_left gap (by omega)
      rw [paddedDistance_nil_right, paddedDistance]
      exact hmax.trans hsum
  | cons b bs ih =>
      cases as with
      | nil =>
          cases cs with
          | nil => simp [paddedDistance]
          | cons c cs =>
              have hrest := ih [] cs
              simp only [paddedDistance, List.length_cons, Nat.mul_succ] at hrest ⊢
              omega
      | cons a as =>
          cases cs with
          | nil =>
              have hrest := ih as []
              simp only [paddedDistance, paddedDistance_nil_right, List.length_cons,
                Nat.mul_succ] at hrest ⊢
              omega
          | cons c cs =>
              have hrest := ih as cs
              have hhead := htri a b c
              simp only [paddedDistance]
              omega

end Padded

def hexNibble (c : UInt8) : UInt8 :=
  if 48 ≤ c ∧ c ≤ 57 then c - 48
  else if 97 ≤ c ∧ c ≤ 102 then c - 97 + 10
  else if 65 ≤ c ∧ c ≤ 70 then c - 65 + 10
  else 0

def countOnes (x : UInt8) : ℕ :=
  (Finset.univ.filter fun i : Fin 8 => x.toNat.testBit i = true).card

/-- Sums and products of `u32` wrap. -/
def hexDigestDistance (a b : String) : UInt32 :=
  let a := asBytes a
  let b := asBytes b
  let d := (a.zip b).foldl
    (fun d p => d + UInt32.ofNat (countOnes (hexNibble p.1 ^^^ hexNibble p.2))) 0
  d + UInt32.ofNat (a.length - b.length + (b.length - a.length)) * 4

def nibbleDistance (x y : UInt8) : ℕ := countOnes (hexNibble x ^^^ hexNibble y)

/-- The sum as it is before it is kept in 32 bits. -/
def digestDistance (a b : String) : ℕ := paddedDistance nibbleDistance 4 (asBytes a) (asBytes b)

theorem foldl_ofNat_add {α : Type} (f : α → ℕ) (l : List α) (s : UInt32) :
    l.foldl (fun d p => d + UInt32.ofNat (f p)) s = s + UInt32.ofNat (l.map f).sum := by
  induction l generalizing s with
  | nil => simp
  | cons p l ih =>
      rw [List.foldl_cons, ih, List.map_cons, List.sum_cons, UInt32.ofNat_add, UInt32.add_assoc]

theorem hexDigestDistance_eq (a b : String) :
    hexDigestDistance a b = UInt32.ofNat (digestDistance a b) := by
  unfold hexDigestDistance digestDistance
  rw [paddedDistance_eq]
  dsimp only
  generalize (asBytes a).length - (asBytes b).length +
    ((asBytes b).length - (asBytes a).length) = n
  have hgap : UInt32.ofNat (4 * n) = UInt32.ofNat n * 4 := by
    rw [UInt32.ofNat_mul, UInt32.mul_comm]
    rfl
  rw [foldl_ofNat_add, UInt32.zero_add, UInt32.ofNat_add, hgap]
  rfl

/-! ## Nibbles -/

section Nibbles

def bits (x : UInt8) (i : Fin 8) : Bool := x.toNat.testBit i

theorem countOnes_xor (x y : UInt8) : countOnes (x ^^^ y) = hammingDist (bits x) (bits y) := by
  unfold countOnes hammingDist bits
  congr 1
  apply Finset.filter_congr
  intro i _
  rw [UInt8.toNat_xor, Nat.testBit_xor]
  simp

theorem bits_injective : Function.Injective bits := by
  intro x y h
  apply UInt8.toNat_inj.mp
  apply Nat.eq_of_testBit_eq
  intro i
  by_cases hi : i < 8
  · exact congrFun h ⟨i, hi⟩
  · have hlarge : 2 ^ 8 ≤ 2 ^ i := Nat.pow_le_pow_right (by norm_num) (by omega)
    have hx := x.toNat_lt
    have hy := y.toNat_lt
    rw [Nat.testBit_lt_two_pow (by omega), Nat.testBit_lt_two_pow (by omega)]

theorem toNat_hexNibble (c : UInt8) :
    (hexNibble c).toNat =
      if 48 ≤ c.toNat ∧ c.toNat ≤ 57 then c.toNat - 48
      else if 97 ≤ c.toNat ∧ c.toNat ≤ 102 then c.toNat - 87
      else if 65 ≤ c.toNat ∧ c.toNat ≤ 70 then c.toNat - 55
      else 0 := by
  have hc := c.toNat_lt
  unfold hexNibble
  simp only [apply_ite UInt8.toNat, UInt8.le_iff_toNat_le, UInt8.toNat_sub, UInt8.toNat_add,
    UInt8.toNat_ofNat]
  split_ifs <;> omega

theorem hexNibble_lt (c : UInt8) : (hexNibble c).toNat < 16 := by
  rw [toNat_hexNibble]
  split_ifs <;> omega

def IsLowerHex (c : UInt8) : Prop :=
  48 ≤ c.toNat ∧ c.toNat ≤ 57 ∨ 97 ≤ c.toNat ∧ c.toNat ≤ 102

theorem hexNibble_injOn {c c' : UInt8} (hc : IsLowerHex c) (hc' : IsLowerHex c')
    (h : hexNibble c = hexNibble c') : c = c' := by
  have hnat := congrArg UInt8.toNat h
  rw [toNat_hexNibble, toNat_hexNibble] at hnat
  apply UInt8.toNat_inj.mp
  unfold IsLowerHex at hc hc'
  split_ifs at hnat <;> omega

theorem countOnes_le {x : UInt8} (hx : x.toNat < 16) : countOnes x ≤ 4 := by
  have hall : ∀ n : Fin 16, countOnes (UInt8.ofNat n) ≤ 4 := by decide
  have hx' := hall ⟨x.toNat, hx⟩
  rwa [UInt8.ofNat_toNat] at hx'

theorem nibbleDistance_le (x y : UInt8) : nibbleDistance x y ≤ 4 := by
  apply countOnes_le
  rw [UInt8.toNat_xor]
  exact @Nat.xor_lt_two_pow _ _ 4 (hexNibble_lt x) (hexNibble_lt y)

theorem nibbleDistance_comm (x y : UInt8) : nibbleDistance x y = nibbleDistance y x := by
  unfold nibbleDistance
  rw [UInt8.xor_comm]

theorem nibbleDistance_triangle (x y z : UInt8) :
    nibbleDistance x z ≤ nibbleDistance x y + nibbleDistance y z := by
  unfold nibbleDistance
  rw [countOnes_xor, countOnes_xor, countOnes_xor]
  exact hammingDist_triangle ..

theorem eq_of_nibbleDistance_eq_zero {x y : UInt8} (hx : IsLowerHex x) (hy : IsLowerHex y)
    (h : nibbleDistance x y = 0) : x = y := by
  unfold nibbleDistance at h
  rw [countOnes_xor] at h
  exact hexNibble_injOn hx hy (bits_injective (hammingDist_eq_zero.mp h))

end Nibbles

/-! ## A metric -/

section Metric

variable {L : ℕ} {a b c : String}

structure LowerHex (L : ℕ) (s : String) : Prop where
  hex : ∀ c ∈ asBytes s, IsLowerHex c
  length : (asBytes s).length ≤ L

/-- `hex_digest_distance` is a metric on the digests of at most `L` characters. -/
structure DigestMetric (L : ℕ) : Prop where
  symm : ∀ a b, LowerHex L a → LowerHex L b → hexDigestDistance a b = hexDigestDistance b a
  zero : ∀ a b, LowerHex L a → LowerHex L b → (hexDigestDistance a b = 0 ↔ a = b)
  triangle : ∀ a b c, LowerHex L a → LowerHex L b → LowerHex L c →
    (hexDigestDistance a c).toNat ≤ (hexDigestDistance a b).toNat + (hexDigestDistance b c).toNat

theorem hexDigestDistance_comm (a b : String) :
    hexDigestDistance a b = hexDigestDistance b a := by
  rw [hexDigestDistance_eq, hexDigestDistance_eq]
  unfold digestDistance
  rw [paddedDistance_comm nibbleDistance_comm]

theorem digestDistance_self (a : String) : digestDistance a a = 0 := by
  unfold digestDistance
  generalize asBytes a = bytes
  induction bytes with
  | nil => rfl
  | cons x rest ih =>
      have hx : nibbleDistance x x = 0 := by
        unfold nibbleDistance
        rw [countOnes_xor]
        exact hammingDist_self _
      rw [paddedDistance, ih, hx]

theorem toNat_hexDigestDistance (hL : L < 2 ^ 30) (ha : LowerHex L a) (hb : LowerHex L b) :
    (hexDigestDistance a b).toNat = digestDistance a b := by
  have hle : digestDistance a b ≤ 4 * max (asBytes a).length (asBytes b).length :=
    paddedDistance_le nibbleDistance_le _ _
  have hla := ha.length
  have hlb := hb.length
  rw [hexDigestDistance_eq, UInt32.toNat_ofNat']
  apply Nat.mod_eq_of_lt
  omega

theorem digestMetric_of_lt (hL : L < 2 ^ 30) : DigestMetric L where
  symm a b _ _ := hexDigestDistance_comm a b
  zero a b ha hb := by
    constructor
    · intro h
      have hzero : digestDistance a b = 0 := by
        rw [← toNat_hexDigestDistance hL ha hb, h]
        rfl
      apply asBytes_inj.mp
      exact eq_of_paddedDistance_eq_zero (by norm_num)
        (fun x hx y hy => eq_of_nibbleDistance_eq_zero (ha.hex x hx) (hb.hex y hy)) hzero
    · rintro rfl
      rw [hexDigestDistance_eq, digestDistance_self]
      rfl
  triangle a b c ha hb hc := by
    rw [toNat_hexDigestDistance hL ha hc, toNat_hexDigestDistance hL ha hb,
      toNat_hexDigestDistance hL hb hc]
    exact paddedDistance_triangle nibbleDistance_le nibbleDistance_triangle _ _ _

def zeros (n : ℕ) : String := String.ofList (List.replicate n '0')

theorem asBytes_zeros (n : ℕ) : asBytes (zeros n) = List.replicate n 48 := by
  unfold zeros
  rw [asBytes_eq_flatMap, String.toList_ofList]
  induction n with
  | zero => rfl
  | succ n ih =>
      rw [List.replicate_succ, List.flatMap_cons, ih, utf8EncodeChar_ascii (by decide),
        List.replicate_succ]
      rfl

theorem lowerHex_zeros {n : ℕ} (h : n ≤ L) : LowerHex L (zeros n) := by
  constructor
  · intro c hc
    rw [asBytes_zeros] at hc
    rw [List.eq_of_mem_replicate hc]
    exact .inl ⟨by decide, by decide⟩
  · rwa [asBytes_zeros, List.length_replicate]

theorem hexDigestDistance_zeros (n : ℕ) :
    hexDigestDistance (zeros n) (zeros 0) = UInt32.ofNat (4 * n) := by
  rw [hexDigestDistance_eq]
  unfold digestDistance
  rw [asBytes_zeros, asBytes_zeros, List.replicate_zero, paddedDistance_nil_right,
    List.length_replicate]

theorem hexDigestDistance_wraps : hexDigestDistance (zeros (2 ^ 30)) (zeros 0) = 0 := by
  rw [hexDigestDistance_zeros]
  decide

theorem zeros_injective : Function.Injective zeros := by
  intro n m h
  have hlength := congrArg (fun s => (asBytes s).length) h
  simpa only [asBytes_zeros, List.length_replicate] using hlength

theorem digestMetric_iff : DigestMetric L ↔ L < 2 ^ 30 := by
  constructor
  · intro h
    by_contra hL
    have hlong := lowerHex_zeros (Nat.le_of_not_lt hL)
    have hempty := lowerHex_zeros (Nat.zero_le L)
    have heq := (h.zero _ _ hlong hempty).mp hexDigestDistance_wraps
    exact absurd (zeros_injective heq) (by norm_num)
  · exact digestMetric_of_lt

end Metric

end CurveLsh

end GrServer
