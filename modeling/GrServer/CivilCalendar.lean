import Mathlib

/-!
# The proleptic Gregorian calendar

Dates with the rule for the day after, and the day count from a year that
begins in March: a leap day is the last day of such a year, so that months and
years are found by division.
-/

namespace GrServer

namespace Calendar

structure Date where
  year : ℕ
  month : ℕ
  day : ℕ
  deriving DecidableEq

def isLeap (year : ℕ) : Bool := year % 4 = 0 ∧ (year % 100 ≠ 0 ∨ year % 400 = 0)

def daysInMonth (year month : ℕ) : ℕ :=
  match month with
  | 2 => if isLeap year then 29 else 28
  | 4 | 6 | 9 | 11 => 30
  | _ => 31

def Date.next (d : Date) : Date :=
  if d.day < daysInMonth d.year d.month then { d with day := d.day + 1 }
  else if d.month < 12 then ⟨d.year, d.month + 1, 1⟩
  else ⟨d.year + 1, 1, 1⟩

def epoch : Date := ⟨1970, 1, 1⟩

/-- The date that is `n` days after 1970-01-01. -/
def dateAfter (n : ℕ) : Date := Date.next^[n] epoch

theorem dateAfter_succ (n : ℕ) : dateAfter (n + 1) = (dateAfter n).next :=
  Function.iterate_succ_apply' Date.next n epoch

structure Date.Proper (d : Date) : Prop where
  month_pos : 1 ≤ d.month
  month_le : d.month ≤ 12
  day_pos : 1 ≤ d.day

theorem Date.Proper.next {d : Date} (h : d.Proper) : d.next.Proper := by
  unfold Date.next
  split_ifs with hday hmonth
  · exact ⟨h.month_pos, h.month_le, Nat.le_add_left 1 d.day⟩
  · exact ⟨Nat.le_add_left 1 d.month, hmonth, le_rfl⟩
  · exact ⟨le_rfl, Nat.le_of_ble_eq_true rfl, le_rfl⟩

theorem proper_dateAfter (n : ℕ) : (dateAfter n).Proper := by
  induction n with
  | zero => exact ⟨by decide, by decide, by decide⟩
  | succ n ih =>
      rw [dateAfter_succ]
      exact ih.next

def Date.monthIndex (d : Date) : ℕ := 12 * d.year + d.month

theorem monthIndex_next {d : Date} (h : d.Proper) :
    (d.next.day ≠ 1 ∧ d.next.monthIndex = d.monthIndex) ∨
      (d.next.day = 1 ∧ d.next.monthIndex = d.monthIndex + 1) := by
  rcases h with ⟨-, hmonthLe, hday⟩
  unfold Date.next Date.monthIndex
  split_ifs with hlt hmonth
  · exact Or.inl ⟨by dsimp only; omega, rfl⟩
  · exact Or.inr ⟨rfl, rfl⟩
  · exact Or.inr ⟨rfl, by dsimp only; omega⟩

theorem monthIndex_mono : Monotone fun n => (dateAfter n).monthIndex := by
  refine monotone_nat_of_le_succ ?_
  intro n
  rw [dateAfter_succ]
  rcases monthIndex_next (proper_dateAfter n) with ⟨-, hsame⟩ | ⟨-, hnext⟩
  · exact hsame.ge
  · omega

theorem monthIndex_succ_eq_iff (n : ℕ) :
    (dateAfter (n + 1)).monthIndex = (dateAfter n).monthIndex ↔ (dateAfter (n + 1)).day ≠ 1 := by
  rw [dateAfter_succ]
  rcases monthIndex_next (proper_dateAfter n) with ⟨hday, hsame⟩ | ⟨hday, hnext⟩
  · exact iff_of_true hsame hday
  · refine iff_of_false ?_ (not_not.mpr hday)
    omega

/-! ## Years that begin in March -/

def leapDay (yoe : ℕ) : ℕ := if isLeap (yoe + 1) then 1 else 0

def yearStart (yoe : ℕ) : ℕ := 365 * yoe + yoe / 4 - yoe / 100

def yearOfEra (doe : ℕ) : ℕ := (doe - doe / 1460 + doe / 36524 - doe / 146096) / 365

theorem yearOfEra_le_succ {doe : ℕ} (h : doe < 146097) : yearOfEra doe ≤ yearOfEra (doe + 1) := by
  unfold yearOfEra
  refine Nat.div_le_div_right ?_
  omega

theorem yearOfEra_le {a b : ℕ} (hab : a ≤ b) (hb : b < 146097) : yearOfEra a ≤ yearOfEra b := by
  induction b, hab using Nat.le_induction with
  | base => exact le_rfl
  | succ b hab ih => exact (ih (by omega)).trans (yearOfEra_le_succ (by omega))

theorem yearOfEra_bounds : ∀ yoe < 400,
    yearOfEra (yearStart yoe) = yoe ∧ yearOfEra (yearStart yoe + 364 + leapDay yoe) = yoe ∧
      yearStart yoe + 364 + leapDay yoe < 146097 := by
  decide +kernel

theorem yearOfEra_eq {yoe doy : ℕ} (hyoe : yoe < 400) (hdoy : doy < 365 + leapDay yoe) :
    yearOfEra (yearStart yoe + doy) = yoe := by
  rcases yearOfEra_bounds yoe hyoe with ⟨hfirst, hlast, hlt⟩
  refine le_antisymm ?_ ?_
  · exact (yearOfEra_le (by omega) hlt).trans hlast.le
  · exact hfirst.ge.trans (yearOfEra_le (by omega) (by omega))

theorem yearStart_succ (yoe : ℕ) (h : yoe < 399) :
    yearStart (yoe + 1) = yearStart yoe + 365 + leapDay yoe := by
  unfold yearStart leapDay isLeap
  split_ifs with hleap
  all_goals
    rw [decide_eq_true_eq] at hleap
    omega

theorem isLeap_add_era (era year : ℕ) : isLeap (year + era * 400) = isLeap year := by
  unfold isLeap
  rw [decide_eq_decide]
  omega

/-! ## Days of a year that begins in March -/

def monthFromMarch (doy : ℕ) : ℕ := (5 * doy + 2) / 153

def monthOf (doy : ℕ) : ℕ :=
  if monthFromMarch doy < 10 then monthFromMarch doy + 3 else monthFromMarch doy - 9

def dayOf (doy : ℕ) : ℕ := doy - (153 * monthFromMarch doy + 2) / 5 + 1

def marchDate (year doy : ℕ) : Date :=
  ⟨if monthOf doy ≤ 2 then year + 1 else year, monthOf doy, dayOf doy⟩

theorem next_within : ∀ doy < 365,
    (monthOf (doy + 1) = monthOf doy ∧ dayOf (doy + 1) = dayOf doy + 1 ∧
      (monthOf doy = 2 → dayOf doy < 28 ∨ doy = 364) ∧
      dayOf doy < daysInMonth 2000 (monthOf doy)) ∨
    (monthOf doy ≠ 2 ∧ dayOf doy = daysInMonth 2000 (monthOf doy) ∧ dayOf (doy + 1) = 1 ∧
      monthOf (doy + 1) = if monthOf doy < 12 then monthOf doy + 1 else 1) := by
  decide +kernel

theorem daysInMonth_of_ne {month : ℕ} (h : month ≠ 2) (year year' : ℕ) :
    daysInMonth year month = daysInMonth year' month := by
  unfold daysInMonth
  split
  · exact absurd rfl h
  all_goals rfl

theorem daysInMonth_february (year : ℕ) : daysInMonth (year + 1) 2 = 28 + leapDay year := by
  unfold daysInMonth leapDay
  split_ifs
  all_goals rfl

theorem leapDay_le (yoe : ℕ) : leapDay yoe ≤ 1 := by
  unfold leapDay
  split_ifs
  all_goals decide

theorem next_marchDate {year doy : ℕ} (h : doy < 364 + leapDay year) :
    (marchDate year doy).next = marchDate year (doy + 1) := by
  have hleap := leapDay_le year
  unfold marchDate Date.next
  dsimp only
  rcases next_within doy (by omega) with
    ⟨hmonth, hday, hfebruary, hlt⟩ | ⟨hne, hlast, hfirst, hmonth⟩
  · rw [hmonth, hday]
    refine if_pos ?_
    by_cases htwo : monthOf doy = 2
    · rw [htwo, if_pos le_rfl, daysInMonth_february]
      rcases hfebruary htwo with hearly | heq
      · omega
      · have hdate : dayOf doy = 28 := by
          rw [heq]
          rfl
        omega
    · rw [daysInMonth_of_ne htwo _ 2000]
      exact hlt
  · rw [hmonth, hfirst, daysInMonth_of_ne hne _ 2000, if_neg hlast.ge.not_gt]
    split_ifs with htwelve hold hnew hnew hold
    all_goals first | rfl | omega

theorem next_marchDate_last (year : ℕ) :
    (marchDate year (364 + leapDay year)).next = marchDate (year + 1) 0 := by
  have hfebruary := daysInMonth_february year
  have hvalues : ∀ leap ≤ 1, monthOf (364 + leap) = 2 ∧ dayOf (364 + leap) = 28 + leap := by
    decide
  rcases hvalues _ (leapDay_le year) with ⟨hmonth, hday⟩
  unfold marchDate Date.next
  dsimp only
  rw [hmonth, if_pos le_rfl, hfebruary, hday, if_neg (lt_irrefl _), if_pos (by decide)]
  rfl

def civilDate (z : ℕ) : Date :=
  let doe := z % 146097
  let yoe := yearOfEra doe
  marchDate (yoe + z / 146097 * 400) (doe - yearStart yoe)

theorem civilDate_eq {era yoe doy : ℕ} (hyoe : yoe < 400) (hdoy : doy < 365 + leapDay yoe) :
    civilDate (146097 * era + (yearStart yoe + doy)) = marchDate (yoe + era * 400) doy := by
  rcases yearOfEra_bounds yoe hyoe with ⟨-, -, hlt⟩
  have hdoe : yearStart yoe + doy < 146097 := by omega
  unfold civilDate
  dsimp only
  rw [Nat.mul_add_mod, Nat.mod_eq_of_lt hdoe, yearOfEra_eq hyoe hdoy,
    Nat.mul_add_div (by decide), Nat.div_eq_of_lt hdoe, Nat.add_zero, Nat.add_sub_cancel_left]

structure Counts (z era yoe doy : ℕ) : Prop where
  count : z = 146097 * era + (yearStart yoe + doy)
  yoe_lt : yoe < 400
  doy_lt : doy < 365 + leapDay yoe

theorem leapDay_add_era (era yoe : ℕ) : leapDay (yoe + era * 400) = leapDay yoe := by
  unfold leapDay
  rw [Nat.add_right_comm, isLeap_add_era]

theorem Counts.next {z era yoe doy : ℕ} (h : Counts z era yoe doy) :
    ∃ era' yoe' doy', Counts (z + 1) era' yoe' doy' ∧
      (marchDate (yoe + era * 400) doy).next = marchDate (yoe' + era' * 400) doy' := by
  rcases h with ⟨hcount, hyoe, hdoy⟩
  have hleap := leapDay_add_era era yoe
  by_cases hlast : doy < 364 + leapDay yoe
  · refine ⟨era, yoe, doy + 1, ⟨by omega, hyoe, by omega⟩, next_marchDate ?_⟩
    rw [hleap]
    exact hlast
  · have hdoyEq : doy = 364 + leapDay yoe := by omega
    have hnext : (marchDate (yoe + era * 400) doy).next = marchDate (yoe + era * 400 + 1) 0 := by
      rw [hdoyEq, ← hleap]
      exact next_marchDate_last _
    rw [hnext]
    by_cases hend : yoe < 399
    · have hstart := yearStart_succ yoe hend
      refine ⟨era, yoe + 1, 0, ⟨by omega, by omega, by omega⟩, ?_⟩
      rw [Nat.add_right_comm]
    · have hyoeEq : yoe = 399 := by omega
      subst hyoeEq
      have hstart : yearStart 399 + 364 + leapDay 399 = 146096 := rfl
      have hzero : yearStart 0 = 0 := rfl
      refine ⟨era + 1, 0, 0, ⟨by omega, by omega, by omega⟩, ?_⟩
      congr 1
      omega

theorem counts_dateAfter (n : ℕ) :
    ∃ era yoe doy, Counts (n + 719468) era yoe doy ∧
      dateAfter n = marchDate (yoe + era * 400) doy := by
  induction n with
  | zero => exact ⟨4, 369, 306, ⟨rfl, by decide, by decide⟩, rfl⟩
  | succ n ih =>
      rcases ih with ⟨era, yoe, doy, hcounts, hdate⟩
      rcases hcounts.next with ⟨era', yoe', doy', hcounts', hnext⟩
      refine ⟨era', yoe', doy', ?_, ?_⟩
      · rw [Nat.add_right_comm]
        exact hcounts'
      · rw [dateAfter_succ, hdate, hnext]

theorem civilDate_dateAfter (n : ℕ) : civilDate (n + 719468) = dateAfter n := by
  rcases counts_dateAfter n with ⟨era, yoe, doy, ⟨hcount, hyoe, hdoy⟩, hdate⟩
  rw [hcount, civilDate_eq hyoe hdoy, hdate]

end Calendar

end GrServer
