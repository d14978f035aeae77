import Mathlib.Algebra.BigOperators.Intervals
import Mathlib.Algebra.Order.BigOperators.Group.Finset
import Mathlib.Tactic.IntervalCases

/-!
# The Gregorian calendar

The dates of the proleptic calendar from year one on, and the number of each:
the next date has the next number, and no two dates share one.
-/

namespace Saml.Library.Gregorian

open Finset

/-- The years that have a 29th of February. -/
def IsLeap (y : Nat) : Prop := y % 4 = 0 ∧ (y % 100 = 0 → y % 400 = 0)

instance (y : Nat) : Decidable (IsLeap y) := inferInstanceAs (Decidable (_ ∧ _))

/-- The days of a month. -/
def monthLength (y : Nat) : Nat → Nat
  | 2 => if IsLeap y then 29 else 28
  | 4 | 6 | 9 | 11 => 30
  | _ => 31

/-- The days of a year. -/
def yearLength (y : Nat) : Nat := ∑ m ∈ Ico 1 13, monthLength y m

theorem monthLength_pos (y m : Nat) : 0 < monthLength y m := by
  unfold monthLength
  split
  · split <;> omega
  all_goals omega

theorem monthLength_le (y m : Nat) : monthLength y m ≤ 31 := by
  unfold monthLength
  split
  · split <;> omega
  all_goals omega

theorem yearLength_eq (y : Nat) : yearLength y = if IsLeap y then 366 else 365 := by
  simp only [yearLength, sum_Ico_succ_top, Nat.reduceLeDiff, le_refl, Ico_self, sum_empty,
    monthLength]
  split <;> rfl

/-- A date that exists. -/
@[ext]
structure Date where
  year : Nat
  month : Nat
  day : Nat
  year_pos : 1 ≤ year
  month_mem : 1 ≤ month ∧ month ≤ 12
  day_mem : 1 ≤ day ∧ day ≤ monthLength year month
deriving DecidableEq

/-- The days before a year, from the first year on. -/
def daysBeforeYear (y : Nat) : Nat := ∑ k ∈ Ico 1 y, yearLength k

/-- The days of a year before one of its months. -/
def daysBeforeMonth (y m : Nat) : Nat := ∑ k ∈ Ico 1 m, monthLength y k

theorem daysBeforeYear_succ {y : Nat} (h : 1 ≤ y) :
    daysBeforeYear (y + 1) = daysBeforeYear y + yearLength y :=
  sum_Ico_succ_top h _

theorem daysBeforeMonth_succ {m : Nat} (y : Nat) (h : 1 ≤ m) :
    daysBeforeMonth y (m + 1) = daysBeforeMonth y m + monthLength y m :=
  sum_Ico_succ_top h _

/-- The days before a year without a loop over the years. -/
theorem daysBeforeYear_eq {y : Nat} (h : 1 ≤ y) :
    daysBeforeYear y + (y - 1) / 100 = 365 * (y - 1) + (y - 1) / 4 + (y - 1) / 400 := by
  induction y, h using Nat.le_induction with
  | base => rfl
  | succ y h ih =>
      rw [daysBeforeYear_succ h, yearLength_eq]
      split
      next hleap =>
        obtain ⟨h4, h100⟩ := hleap
        omega
      next hleap =>
        have hcommon : y % 4 ≠ 0 ∨ (y % 100 = 0 ∧ y % 400 ≠ 0) := by
          unfold IsLeap at hleap
          omega
        omega

/-- The days before a month, counted from the end of February on. -/
theorem daysBeforeMonth_eq (y : Nat) {m : Nat} (hmarch : 3 ≤ m) (h : m ≤ 12) :
    daysBeforeMonth y m = (if IsLeap y then 60 else 59) + (153 * (m - 3) + 2) / 5 := by
  have hstart : daysBeforeMonth y 3 = if IsLeap y then 60 else 59 := by
    simp only [daysBeforeMonth, sum_Ico_succ_top, Nat.reduceLeDiff, le_refl, Ico_self, sum_empty,
      monthLength]
    split <;> rfl
  induction m, hmarch using Nat.le_induction with
  | base => rw [hstart]; rfl
  | succ m hmarch ih =>
      have hnovember : m ≤ 11 := by omega
      rw [daysBeforeMonth_succ y (by omega), ih (by omega)]
      interval_cases m <;> simp only [monthLength]

theorem daysBeforeYear_mono {y z : Nat} (h : y ≤ z) : daysBeforeYear y ≤ daysBeforeYear z :=
  sum_le_sum_of_subset (Ico_subset_Ico_right h)

theorem daysBeforeMonth_mono (y : Nat) {m n : Nat} (h : m ≤ n) :
    daysBeforeMonth y m ≤ daysBeforeMonth y n :=
  sum_le_sum_of_subset (Ico_subset_Ico_right h)

namespace Date

/-- The number of a date: the first day of the first year has number one. -/
def number (d : Date) : Nat := daysBeforeYear d.year + daysBeforeMonth d.year d.month + d.day

theorem january_mem : 1 ≤ 1 ∧ 1 ≤ 12 := by decide

/-- The date after a date. -/
def tomorrow (d : Date) : Date :=
  if h : d.day < monthLength d.year d.month then
    { d with day := d.day + 1, day_mem := ⟨by omega, h⟩ }
  else if h : d.month < 12 then
    { d with
      month := d.month + 1
      day := 1
      month_mem := ⟨by omega, h⟩
      day_mem := ⟨le_rfl, monthLength_pos _ _⟩ }
  else
    { year := d.year + 1
      month := 1
      day := 1
      year_pos := by omega
      month_mem := january_mem
      day_mem := ⟨le_rfl, monthLength_pos _ _⟩ }

/-- The next date has the next number. -/
theorem number_tomorrow (d : Date) : d.tomorrow.number = d.number + 1 := by
  obtain ⟨hday, hlast⟩ := d.day_mem
  obtain ⟨hmonth, hdecember⟩ := d.month_mem
  unfold tomorrow
  split
  · simp only [number]
    omega
  · split
    · simp only [number, daysBeforeMonth_succ d.year hmonth]
      omega
    · have hm : d.month = 12 := by omega
      have hyear : yearLength d.year = daysBeforeMonth d.year 12 + monthLength d.year 12 :=
        daysBeforeMonth_succ d.year (by decide)
      have hstart : daysBeforeMonth (d.year + 1) 1 = 0 := rfl
      rw [hm] at hlast
      simp only [number, daysBeforeYear_succ d.year_pos, hyear, hstart, hm] at *
      omega

/-- The year of a date, when years begin in March. -/
def marchYear (d : Date) : Nat := if d.month ≤ 2 then d.year - 1 else d.year

/-- The months of that year before the month of a date. -/
def marchMonth (d : Date) : Nat := if d.month ≤ 2 then d.month + 9 else d.month - 3

/-- The number of a date without a loop over years or months. -/
theorem number_march (d : Date) :
    d.number + d.marchYear / 100 + 306 = 365 * d.marchYear + d.marchYear / 4 +
      d.marchYear / 400 + (153 * d.marchMonth + 2) / 5 + d.day := by
  have hyear := d.year_pos
  obtain ⟨hmonth, hdecember⟩ := d.month_mem
  have hstart := daysBeforeYear_eq hyear
  unfold number marchYear marchMonth
  by_cases hm : d.month ≤ 2
  · rw [if_pos hm, if_pos hm]
    have hbefore : daysBeforeMonth d.year d.month + 31 = 31 * d.month := by
      have hcases : d.month = 1 ∨ d.month = 2 := by omega
      rcases hcases with h | h <;> rw [h] <;> rfl
    omega
  · rw [if_neg hm, if_neg hm, daysBeforeMonth_eq d.year (by omega) hdecember]
    have hend := daysBeforeYear_eq (Nat.le_add_left 1 d.year)
    rw [daysBeforeYear_succ hyear, yearLength_eq] at hend
    split <;> simp_all <;> omega

theorem lt_number (d : Date) :
    daysBeforeYear d.year + daysBeforeMonth d.year d.month < d.number := by
  have hday := d.day_mem.1
  unfold number
  omega

/-- A date lies inside its month. -/
theorem number_le_month (d : Date) :
    d.number ≤ daysBeforeYear d.year + daysBeforeMonth d.year (d.month + 1) := by
  have hday := d.day_mem.2
  rw [daysBeforeMonth_succ d.year d.month_mem.1]
  unfold number
  omega

/-- A date lies inside its year. -/
theorem number_le_year (d : Date) : d.number ≤ daysBeforeYear (d.year + 1) := by
  calc
    d.number ≤ daysBeforeYear d.year + daysBeforeMonth d.year (d.month + 1) := d.number_le_month
    _ ≤ daysBeforeYear d.year + daysBeforeMonth d.year 13 :=
      Nat.add_le_add_left (daysBeforeMonth_mono d.year (by have := d.month_mem.2; omega)) _
    _ = daysBeforeYear (d.year + 1) := (daysBeforeYear_succ d.year_pos).symm

theorem year_le_of_number_le {d e : Date} (h : d.number ≤ e.number) : d.year ≤ e.year := by
  by_contra hlt
  have hyears := daysBeforeYear_mono (by omega : e.year + 1 ≤ d.year)
  have hd := d.lt_number
  have he := e.number_le_year
  omega

theorem month_le_of_number_le {d e : Date} (hyear : d.year = e.year) (h : d.number ≤ e.number) :
    d.month ≤ e.month := by
  by_contra hlt
  have hmonths := daysBeforeMonth_mono d.year (by omega : e.month + 1 ≤ d.month)
  have hd := d.lt_number
  have he := e.number_le_month
  rw [← hyear] at he
  omega

/-- No two dates have one number. -/
theorem number_injective : Function.Injective number := by
  intro d e h
  have hyear : d.year = e.year :=
    Nat.le_antisymm (year_le_of_number_le h.le) (year_le_of_number_le h.ge)
  have hmonth : d.month = e.month :=
    Nat.le_antisymm (month_le_of_number_le hyear h.le) (month_le_of_number_le hyear.symm h.ge)
  have hday : d.day = e.day := by
    unfold number at h
    rw [hyear, hmonth] at h
    omega
  cases d
  cases e
  simp_all

end Date

end Saml.Library.Gregorian
