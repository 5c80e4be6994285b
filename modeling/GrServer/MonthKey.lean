import GrServer.CivilCalendar

/-!
# The billing month

The monthly session counter is kept under the UTC month of the clock, found
from the seconds since the epoch by division over eras of 400 years.
-/

namespace GrServer

namespace Billing

open Calendar

/-- `secs as i64`. -/
def asI64 (n : ℕ) : ℤ := (n : ℤ).bmod (2 ^ 64)

structure MonthValues where
  z : ℤ
  era : ℤ
  doe : ℤ
  yoe : ℤ
  doy : ℤ
  mp : ℤ
  m : ℤ
  y : ℤ

def monthValues (secs : ℤ) : MonthValues :=
  let z := secs / 86400 + 719468
  let era := z / 146097
  let doe := z % 146097
  let yoe := (doe - doe.tdiv 1460 + doe.tdiv 36524 - doe.tdiv 146096).tdiv 365
  let doy := doe - (365 * yoe + yoe.tdiv 4 - yoe.tdiv 100)
  let mp := (5 * doy + 2).tdiv 153
  let m := if mp < 10 then mp + 3 else mp - 9
  let y := if m ≤ 2 then yoe + era * 400 + 1 else yoe + era * 400
  ⟨z, era, doe, yoe, doy, mp, m, y⟩

def zeroPadded (width : ℕ) (v : ℤ) : List Char :=
  if v < 0 then '-' :: (Nat.toDigits 10 v.natAbs).leftpad (width - 1) '0'
  else (Nat.toDigits 10 v.toNat).leftpad width '0'

/-- A clock before the epoch counts as the epoch. -/
def monthKeyUtc (sinceEpoch : Option ℕ) : String :=
  let v := monthValues ((sinceEpoch.map asI64).getD 0)
  String.ofList (zeroPadded 4 v.y ++ '-' :: zeroPadded 2 v.m)

/-- What is computed on the way, also within one line of the source. -/
def intermediates (secs : ℤ) : List ℤ :=
  let v := monthValues secs
  [secs, secs / 86400, v.z, v.era, v.doe, v.doe.tdiv 1460, v.doe - v.doe.tdiv 1460,
    v.doe.tdiv 36524, v.doe - v.doe.tdiv 1460 + v.doe.tdiv 36524, v.doe.tdiv 146096,
    v.doe - v.doe.tdiv 1460 + v.doe.tdiv 36524 - v.doe.tdiv 146096, v.yoe, 365 * v.yoe,
    v.yoe.tdiv 4, 365 * v.yoe + v.yoe.tdiv 4, v.yoe.tdiv 100,
    365 * v.yoe + v.yoe.tdiv 4 - v.yoe.tdiv 100, v.doy, 5 * v.doy, 5 * v.doy + 2, v.mp, v.m,
    v.era * 400, v.yoe + v.era * 400, v.y]

theorem asI64_of_lt {n : ℕ} (h : n < 2 ^ 63) : asI64 n = n := by
  unfold asI64
  refine Int.bmod_eq_of_le ?_ ?_
  all_goals omega

theorem tdiv_natCast (a b : ℕ) : (a : ℤ).tdiv b = (a / b : ℕ) := (Int.ofNat_tdiv a b).symm

theorem yearOfEra_cast {doe : ℕ} (h : doe < 146097) :
    ((doe : ℤ) - (doe : ℤ).tdiv 1460 + (doe : ℤ).tdiv 36524 - (doe : ℤ).tdiv 146096).tdiv 365 =
      yearOfEra doe := by
  have hsum : (doe : ℤ) - (doe : ℤ).tdiv 1460 + (doe : ℤ).tdiv 36524 - (doe : ℤ).tdiv 146096 =
      (doe - doe / 1460 + doe / 36524 - doe / 146096 : ℕ) := by
    have h1460 := tdiv_natCast doe 1460
    have h36524 := tdiv_natCast doe 36524
    have h146096 := tdiv_natCast doe 146096
    push_cast at h1460 h36524 h146096
    omega
  rw [hsum]
  exact tdiv_natCast _ 365

theorem yearStart_cast (yoe : ℕ) :
    365 * (yoe : ℤ) + (yoe : ℤ).tdiv 4 - (yoe : ℤ).tdiv 100 = yearStart yoe := by
  have hfour := tdiv_natCast yoe 4
  have hhundred := tdiv_natCast yoe 100
  push_cast at hfour hhundred
  unfold yearStart
  omega

theorem monthValues_eq {secs era yoe doy : ℕ}
    (h : Counts (secs / 86400 + 719468) era yoe doy) :
    monthValues secs =
      { z := (secs / 86400 + 719468 : ℕ)
        era := era
        doe := (yearStart yoe + doy : ℕ)
        yoe := yoe
        doy := doy
        mp := monthFromMarch doy
        m := (marchDate (yoe + era * 400) doy).month
        y := (marchDate (yoe + era * 400) doy).year } := by
  rcases h with ⟨hcount, hyoe, hdoy⟩
  rcases yearOfEra_bounds yoe hyoe with ⟨-, -, hlt⟩
  have hz : (secs : ℤ) / 86400 + 719468 = (146097 * era + (yearStart yoe + doy) : ℕ) := by
    rw [← hcount]
    push_cast
    rfl
  have hera : ((146097 * era + (yearStart yoe + doy) : ℕ) : ℤ) / 146097 = era := by omega
  have hdoe : ((146097 * era + (yearStart yoe + doy) : ℕ) : ℤ) % 146097 =
      (yearStart yoe + doy : ℕ) := by omega
  have hyear := @yearOfEra_cast (yearStart yoe + doy) (by omega)
  rw [yearOfEra_eq hyoe hdoy] at hyear
  have hday : ((yearStart yoe + doy : ℕ) : ℤ) - yearStart yoe = doy := by omega
  have hmonth : (5 * (doy : ℤ) + 2).tdiv 153 = monthFromMarch doy := by
    have hcast := tdiv_natCast (5 * doy + 2) 153
    push_cast at hcast
    exact hcast
  have hm : (if (monthFromMarch doy : ℤ) < 10 then (monthFromMarch doy : ℤ) + 3
      else (monthFromMarch doy : ℤ) - 9) = monthOf doy := by
    unfold monthOf
    split_ifs
    all_goals omega
  have hy : (if (monthOf doy : ℤ) ≤ 2 then (yoe : ℤ) + era * 400 + 1 else yoe + era * 400) =
      (marchDate (yoe + era * 400) doy).year := by
    unfold marchDate
    dsimp only
    split_ifs
    all_goals omega
  unfold monthValues
  dsimp only
  rw [hz, hera, hdoe, hyear, yearStart_cast, hday, hmonth, hm, hy, hcount]
  rfl

theorem month_and_year (secs : ℕ) :
    (monthValues secs).y = (dateAfter (secs / 86400)).year ∧
      (monthValues secs).m = (dateAfter (secs / 86400)).month := by
  rcases counts_dateAfter (secs / 86400) with ⟨era, yoe, doy, hcounts, hdate⟩
  rw [monthValues_eq hcounts, hdate]
  exact ⟨rfl, rfl⟩

theorem nonneg_intermediates (secs : ℕ) : ∀ v ∈ intermediates secs, 0 ≤ v := by
  rcases counts_dateAfter (secs / 86400) with ⟨era, yoe, doy, hcounts, -⟩
  rcases yearOfEra_bounds yoe hcounts.yoe_lt with ⟨-, -, hlt⟩
  have hday := hcounts.doy_lt
  have hdoe : yearStart yoe + doy < 146097 := by omega
  unfold intermediates
  dsimp only
  rw [monthValues_eq hcounts]
  dsimp only
  generalize yearStart yoe + doy = doe at hdoe
  have h1460 := tdiv_natCast doe 1460
  have h36524 := tdiv_natCast doe 36524
  have h146096 := tdiv_natCast doe 146096
  have hfour := tdiv_natCast yoe 4
  have hhundred := tdiv_natCast yoe 100
  push_cast at h1460 h36524 h146096 hfour hhundred
  simp only [List.forall_mem_cons]
  and_intros
  all_goals first | omega | nofun

section Padded

theorem lt_append_of_lt {a b : List Char} (h : a < b) (hlength : a.length = b.length)
    (c d : List Char) : a ++ c < b ++ d := by
  induction h with
  | nil => cases hlength
  | rel hlt => exact List.Lex.rel hlt
  | cons _ ih => exact List.Lex.cons (ih (Nat.succ.inj hlength))

theorem digitChar_lt : ∀ b < 10, ∀ a < b, Nat.digitChar a < Nat.digitChar b := by
  decide

def digits (width n : ℕ) : List Char := (Nat.toDigits 10 n).leftpad width '0'

theorem length_digits {width n : ℕ} (hpos : 0 < width) (h : n < 10 ^ width) :
    (digits width n).length = width := by
  have hle := (Nat.length_toDigits_le_iff (b := 10) (by decide) hpos).mpr h
  unfold digits
  rw [List.length_leftpad]
  exact max_eq_left hle

theorem digits_succ {width : ℕ} (hpos : 0 < width) (n : ℕ) :
    digits (width + 1) n = digits width (n / 10) ++ [Nat.digitChar (n % 10)] := by
  unfold digits List.leftpad
  by_cases hn : n < 10
  · have hzero : Nat.toDigits 10 0 = ['0'] := rfl
    have hwidth : width = width - 1 + 1 := by omega
    rw [Nat.toDigits_of_lt_base hn, Nat.div_eq_of_lt hn, Nat.mod_eq_of_lt hn, hzero]
    dsimp only [List.length_singleton]
    rw [Nat.add_sub_cancel, ← List.replicate_succ', ← hwidth]
  · rw [Nat.toDigits_of_base_le (by decide) (not_lt.mp hn), List.length_append,
      ← List.append_assoc]
    dsimp only [List.length_singleton]
    rw [Nat.add_sub_add_right]

theorem digits_lt {width a b : ℕ} (hpos : 0 < width) (hab : a < b) (hb : b < 10 ^ width) :
    digits width a < digits width b := by
  induction width, hpos using Nat.le_induction generalizing a b with
  | base =>
      have hsingle : ∀ n < 10, digits 1 n = [Nat.digitChar n] := by
        intro n hn
        unfold digits
        rw [Nat.toDigits_of_lt_base hn]
        rfl
      rw [hsingle a (hab.trans hb), hsingle b hb]
      exact List.Lex.rel (digitChar_lt b hb a hab)
  | succ width hpos ih =>
      have hbTen : b / 10 < 10 ^ width := by
        rw [pow_succ] at hb
        exact Nat.div_lt_of_lt_mul (by omega)
      rw [digits_succ hpos, digits_succ hpos]
      rcases (Nat.div_le_div_right hab.le : a / 10 ≤ b / 10).lt_or_eq with hlt | heq
      · refine lt_append_of_lt (ih hlt hbTen) ?_ _ _
        rw [length_digits hpos (hlt.trans hbTen), length_digits hpos hbTen]
      · rw [heq]
        refine List.append_left_lt (List.Lex.rel ?_)
        exact digitChar_lt _ (Nat.mod_lt b (by decide)) _ (by omega)

end Padded

/-! ## The key of a month -/

section Keys

def keyOf (d : Date) : List Char := digits 4 d.year ++ '-' :: digits 2 d.month

theorem zeroPadded_natCast (width n : ℕ) : zeroPadded width n = digits width n := by
  unfold zeroPadded
  rw [if_neg (by omega)]
  rfl

def endOfKeys : ℕ := 253402300800

theorem dateAfter_last : dateAfter (endOfKeys / 86400 - 1) = ⟨9999, 12, 31⟩ := by
  rw [← civilDate_dateAfter]
  decide

variable {s t : ℕ}

theorem year_lt (h : s < endOfKeys) : (dateAfter (s / 86400)).year < 10000 := by
  have hdays : s / 86400 ≤ endOfKeys / 86400 - 1 := by
    unfold endOfKeys at h ⊢
    omega
  have hle := monthIndex_mono hdays
  dsimp only at hle
  have hmonth := (proper_dateAfter (s / 86400)).month_pos
  rw [dateAfter_last] at hle
  unfold Date.monthIndex at hle
  dsimp only at hle
  omega

theorem monthKeyUtc_eq (h : s < endOfKeys) :
    monthKeyUtc (some s) = String.ofList (keyOf (dateAfter (s / 86400))) := by
  have hsecs : asI64 s = s := by
    refine asI64_of_lt ?_
    unfold endOfKeys at h
    omega
  rcases month_and_year s with ⟨hy, hm⟩
  unfold monthKeyUtc keyOf
  rw [Option.map_some, Option.getD_some, hsecs]
  dsimp only
  rw [hy, hm, zeroPadded_natCast, zeroPadded_natCast]

theorem keyOf_lt {a b : Date} (ha : a.Proper) (hb : b.Proper) (hyear : b.year < 10000)
    (h : a.monthIndex < b.monthIndex) : keyOf a < keyOf b := by
  have haMonth := ha.month_le
  have hbMonth := hb.month_le
  unfold Date.monthIndex at h
  unfold keyOf
  rcases lt_trichotomy a.year b.year with hlt | heq | hgt
  · refine lt_append_of_lt (digits_lt (by decide) hlt hyear) ?_ _ _
    rw [length_digits (by decide) (hlt.trans hyear), length_digits (by decide) hyear]
  · rw [heq]
    refine List.append_left_lt (List.Lex.cons ?_)
    exact digits_lt (by decide) (by omega) (by omega)
  · have hpos := hb.month_pos
    omega

theorem keyOf_eq {a b : Date} (ha : a.Proper) (hb : b.Proper)
    (h : a.monthIndex = b.monthIndex) : keyOf a = keyOf b := by
  rcases ha with ⟨haPos, haLe, -⟩
  rcases hb with ⟨hbPos, hbLe, -⟩
  unfold Date.monthIndex at h
  have hyear : a.year = b.year := by omega
  have hmonth : a.month = b.month := by omega
  unfold keyOf
  rw [hyear, hmonth]

theorem monthKeyUtc_le (hst : s ≤ t) (ht : t < endOfKeys) :
    monthKeyUtc (some s) ≤ monthKeyUtc (some t) := by
  have hdays : s / 86400 ≤ t / 86400 := Nat.div_le_div_right hst
  rw [monthKeyUtc_eq (hst.trans_lt ht), monthKeyUtc_eq ht, String.le_iff_toList_le,
    String.toList_ofList, String.toList_ofList]
  rcases (monthIndex_mono hdays).lt_or_eq with hlt | heq
  · exact (keyOf_lt (proper_dateAfter _) (proper_dateAfter _) (year_lt ht) hlt).le
  · exact (keyOf_eq (proper_dateAfter _) (proper_dateAfter _) heq).le

theorem monthKeyUtc_eq_iff (hst : s ≤ t) (ht : t < endOfKeys) :
    monthKeyUtc (some t) = monthKeyUtc (some s) ↔
      (dateAfter (t / 86400)).monthIndex = (dateAfter (s / 86400)).monthIndex := by
  have hdays : s / 86400 ≤ t / 86400 := Nat.div_le_div_right hst
  rw [monthKeyUtc_eq (hst.trans_lt ht), monthKeyUtc_eq ht, String.ofList_inj]
  constructor
  · intro hkeys
    by_contra hne
    have hlt := lt_of_le_of_ne (monthIndex_mono hdays) (Ne.symm hne)
    have hkeysLt := keyOf_lt (proper_dateAfter _) (proper_dateAfter _) (year_lt ht) hlt
    rw [hkeys] at hkeysLt
    exact lt_irrefl _ hkeysLt
  · exact keyOf_eq (proper_dateAfter _) (proper_dateAfter _)

theorem monthKeyUtc_changes_iff (h : s + 1 < endOfKeys) :
    monthKeyUtc (some (s + 1)) ≠ monthKeyUtc (some s) ↔
      (s + 1) % 86400 = 0 ∧ (dateAfter ((s + 1) / 86400)).day = 1 := by
  rw [Ne, monthKeyUtc_eq_iff (Nat.le_add_right s 1) h]
  by_cases hmidnight : (s + 1) % 86400 = 0
  · have hday : (s + 1) / 86400 = s / 86400 + 1 := by omega
    rw [hday, monthIndex_succ_eq_iff, not_not]
    exact (and_iff_right hmidnight).symm
  · have hday : (s + 1) / 86400 = s / 86400 := by omega
    rw [hday]
    exact iff_of_false (not_not.mpr rfl) fun hboth => hmidnight hboth.1

theorem month_key_law (h : s < endOfKeys) :
    ((monthValues (asI64 s)).y = (dateAfter (s / 86400)).year ∧
      (monthValues (asI64 s)).m = (dateAfter (s / 86400)).month) ∧
    (∀ r, r + 1 = s → (monthKeyUtc (some s) ≠ monthKeyUtc (some r) ↔
      s % 86400 = 0 ∧ (dateAfter (s / 86400)).day = 1)) ∧
    (∀ r ≤ s, monthKeyUtc (some r) ≤ monthKeyUtc (some s)) ∧
    ∀ v ∈ intermediates (asI64 s), 0 ≤ v := by
  have hsecs : asI64 s = s := by
    refine asI64_of_lt ?_
    unfold endOfKeys at h
    omega
  rw [hsecs]
  refine ⟨month_and_year s, ?_, fun r hr => monthKeyUtc_le hr h, nonneg_intermediates s⟩
  intro r hr
  subst hr
  exact monthKeyUtc_changes_iff h

/-- The last second of a February with a leap day, and the one after it. -/
theorem leap_february_billed :
    ((monthValues (asI64 951868799)).y = (dateAfter (951868799 / 86400)).year ∧
      (monthValues (asI64 951868799)).m = (dateAfter (951868799 / 86400)).month) ∧
    (∀ r, r + 1 = 951868799 → (monthKeyUtc (some 951868799) ≠ monthKeyUtc (some r) ↔
      951868799 % 86400 = 0 ∧ (dateAfter (951868799 / 86400)).day = 1)) ∧
    (∀ r ≤ 951868799, monthKeyUtc (some r) ≤ monthKeyUtc (some 951868799)) ∧
    ∀ v ∈ intermediates (asI64 951868799), 0 ≤ v :=
  month_key_law (by decide)

example : monthKeyUtc (some 951868799) = "2000-02" ∧ monthKeyUtc (some 951868800) = "2000-03" := by
  decide

end Keys

end Billing

end GrServer
