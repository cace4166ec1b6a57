import Mathlib.Algebra.BigOperators.Intervals
import Mathlib.Algebra.Order.BigOperators.Group.Finset
import Mathlib.Algebra.Ring.Nat
import Mathlib.Tactic.IntervalCases

/-! The Gregorian calendar. The length of a year follows from the lengths of its months, and the days
between two dates are counted year by year and month by month. Years that begin in March end with
their leap day, which is why the days before them have a closed form. -/
namespace RndRust.Lib.Calendar

variable {epoch year month day : ℕ}

def Leap (year : ℕ) : Prop := 4 ∣ year ∧ ¬100 ∣ year ∨ 400 ∣ year

instance (year : ℕ) : Decidable (Leap year) := inferInstanceAs (Decidable (_ ∧ _ ∨ _))

def monthLength (year : ℕ) : ℕ → ℕ
  | 2 => if Leap year then 29 else 28
  | 4 | 6 | 9 | 11 => 30
  | _ => 31

def yearLength (year : ℕ) : ℕ := ∑ month ∈ Finset.Ico 1 13, monthLength year month

/-- The three numbers name a day. -/
structure Valid (year month day : ℕ) : Prop where
  month_pos : 1 ≤ month
  month_le : month ≤ 12
  day_pos : 1 ≤ day
  day_le : day ≤ monthLength year month

theorem day_le_31 (valid : Valid year month day) : day ≤ 31 := by
  refine valid.day_le.trans ?_
  unfold monthLength
  split
  · split <;> decide
  all_goals decide

/-- The days from the first of January of the epoch to a date after it. -/
def daysSince (epoch year month day : ℕ) : ℕ :=
  ∑ past ∈ Finset.Ico epoch year, yearLength past + ∑ past ∈ Finset.Ico 1 month, monthLength year past
    + (day - 1)

theorem yearLength_eq : yearLength year = if Leap year then 366 else 365 := by
  by_cases leap : Leap year <;> simp [yearLength, Finset.sum_Ico_succ_top, monthLength, leap]

/-- The days before the first of March of a year, from the first of March of the year zero. -/
def marchDays (year : ℕ) : ℕ := 365 * year + year / 4 - year / 100 + year / 400

/-- The days before the `n`th month from March on. -/
def monthDays (n : ℕ) : ℕ := (n * 306 + 5) / 10

theorem marchDays_succ : marchDays (year + 1) = marchDays year + yearLength (year + 1) := by
  have fewer : year / 100 ≤ year / 4 := Nat.div_le_div_left (by decide) (by decide)
  have century : 100 ∣ year + 1 → 4 ∣ year + 1 := Nat.dvd_trans (by decide)
  have cycle : 400 ∣ year + 1 → 100 ∣ year + 1 := Nat.dvd_trans (by decide)
  simp only [marchDays, yearLength_eq, Leap, Nat.succ_div]
  generalize year / 4 = quarters at *
  generalize year / 100 = centuries at *
  by_cases fourth : 4 ∣ year + 1 <;> by_cases hundredth : 100 ∣ year + 1 <;>
    by_cases last : 400 ∣ year + 1 <;> simp_all <;> lia

theorem marchDays_mono {later : ℕ} (le : year ≤ later) : marchDays year ≤ marchDays later :=
  monotone_nat_of_le_succ (fun n => by rw [marchDays_succ]; exact Nat.le_add_right _ _) le

/-- The years between two dates are those between the two Marches. -/
theorem sum_yearLength (le : epoch ≤ year) : marchDays epoch
    + ∑ past ∈ Finset.Ico (epoch + 1) (year + 1), yearLength past = marchDays year := by
  induction year, le using Nat.le_induction with
  | base => simp
  | succ year le ih =>
    rw [Finset.sum_Ico_succ_top (Nat.succ_le_succ le), ← Nat.add_assoc, ih, marchDays_succ]

/-- From March on the lengths of the months follow one rule, whether the year leaps or not. -/
theorem monthDays_succ (first : 3 ≤ month) (last : month ≤ 12) :
    monthDays (month - 3 + 1) = monthDays (month - 3) + monthLength year month := by
  interval_cases month <;> rfl

/-- January and February still belong to the year that began last March. -/
theorem sum_monthLength_winter (year : ℕ) (first : 1 ≤ month) (last : month ≤ 2) :
    306 + ∑ past ∈ Finset.Ico 1 month, monthLength year past = monthDays (month + 9) := by
  interval_cases month
  · rfl
  · rw [Finset.sum_Ico_succ_top le_rfl]
    rfl

theorem sum_monthLength (year : ℕ) (first : 3 ≤ month) (last : month ≤ 12) :
    306 + ∑ past ∈ Finset.Ico 1 month, monthLength year past = yearLength year + monthDays (month - 3) := by
  induction month, first using Nat.le_induction with
  | base =>
    rw [yearLength_eq, Finset.sum_Ico_succ_top (by decide), Finset.sum_Ico_succ_top le_rfl]
    by_cases leap : Leap year <;> simp [monthLength, monthDays, leap]
  | succ month first ih =>
    rw [Finset.sum_Ico_succ_top (by omega), ← Nat.add_assoc, ih (by omega),
      show month + 1 - 3 = month - 3 + 1 by omega, monthDays_succ first (by omega), Nat.add_assoc]

theorem daysSince_winter (le : epoch ≤ year) (first : 1 ≤ month) (last : month ≤ 2) :
    marchDays epoch + 306 + daysSince (epoch + 1) (year + 1) month day
      = marchDays year + monthDays (month + 9) + (day - 1) := by
  have years := sum_yearLength le
  have months := sum_monthLength_winter (year + 1) first last
  rw [daysSince]
  omega

theorem daysSince_summer (le : epoch ≤ year) (first : 3 ≤ month) (last : month ≤ 12) :
    marchDays epoch + 306 + daysSince (epoch + 1) (year + 1) month day
      = marchDays (year + 1) + monthDays (month - 3) + (day - 1) := by
  have years := sum_yearLength le
  have months := sum_monthLength (year + 1) first last
  rw [daysSince, marchDays_succ]
  omega

/-- A date lies within its year. -/
theorem daysSince_lt (valid : Valid year month day) : daysSince year year month day < yearLength year := by
  have within : ∑ past ∈ Finset.Ico 1 (month + 1), monthLength year past ≤ yearLength year :=
    Finset.sum_le_sum_of_subset (Finset.Ico_subset_Ico_right (by have := valid.month_le; omega))
  rw [Finset.sum_Ico_succ_top valid.month_pos] at within
  have := valid.day_le
  have := valid.day_pos
  rw [daysSince, Finset.Ico_self, Finset.sum_empty]
  omega

theorem le_daysSince (le : epoch ≤ year) : year ≤ epoch + daysSince epoch year month day := by
  have years : year ≤ epoch + ∑ past ∈ Finset.Ico epoch year, yearLength past := by
    induction year, le using Nat.le_induction with
    | base => exact Nat.le_add_right _ _
    | succ year le ih =>
      have some : 1 ≤ yearLength year := by rw [yearLength_eq]; split <;> decide
      rw [Finset.sum_Ico_succ_top le]
      omega
  rw [daysSince]
  omega

/-- Four hundred years are whole weeks of leap cycles. -/
theorem marchDays_cycle (year era : ℕ) : marchDays (year + 400 * era) = marchDays year + 146097 * era := by
  simp only [marchDays]
  omega

/-- A day within four hundred years, by centuries, leap cycles, years and days. The fourth day too
many of a leap cycle is missing from the centuries but the last. -/
theorem exists_cycles {days : ℕ} (within : days < 146097) :
    ∃ centuries fours years rest, days = 36524 * centuries + 1461 * fours + 365 * years + rest ∧
      centuries ≤ 3 ∧ fours ≤ 24 ∧ years ≤ 3 ∧ (rest ≤ 364 ∨ rest = 365 ∧ years = 3 ∧ (fours = 24 → centuries = 3)) := by
  refine ⟨min (days / 36524) 3, (days - 36524 * min (days / 36524) 3) / 1461,
    min ((days - 36524 * min (days / 36524) 3) % 1461 / 365) 3,
    (days - 36524 * min (days / 36524) 3) % 1461 - 365 * min ((days - 36524 * min (days / 36524) 3) % 1461 / 365) 3, ?_⟩
  omega

theorem marchDays_cycles {centuries fours years rest : ℕ} (shortCentury : centuries ≤ 3) (shortCycle : fours ≤ 24)
    (short : years ≤ 3) (days : rest ≤ 364 ∨ rest = 365 ∧ years = 3 ∧ (fours = 24 → centuries = 3)) :
    marchDays (100 * centuries + 4 * fours + years) = 36524 * centuries + 1461 * fours + 365 * years ∧
      36524 * centuries + 1461 * fours + 365 * years + rest < marchDays (100 * centuries + 4 * fours + years + 1) := by
  rw [marchDays, marchDays]
  omega

/-- Later dates have more days before them. -/
theorem daysSince_strict {year' month' day' : ℕ} (valid : Valid year month day) (valid' : Valid year' month' day')
    (from' : epoch ≤ year) (later : year < year' ∨ year = year' ∧ (month < month' ∨ month = month' ∧ day < day')) :
    daysSince epoch year month day < daysSince epoch year' month' day' := by
  rcases later with year_lt | ⟨rfl, month_lt | ⟨rfl, day_lt⟩⟩
  · have within := daysSince_lt valid
    have years : ∑ past ∈ Finset.Ico epoch (year + 1), yearLength past ≤ ∑ past ∈ Finset.Ico epoch year', yearLength past :=
      Finset.sum_le_sum_of_subset (Finset.Ico_subset_Ico_right year_lt)
    rw [Finset.sum_Ico_succ_top from'] at years
    rw [daysSince, Finset.Ico_self, Finset.sum_empty] at within
    rw [daysSince, daysSince]
    omega
  · have months : ∑ past ∈ Finset.Ico 1 (month + 1), monthLength year past ≤ ∑ past ∈ Finset.Ico 1 month', monthLength year past :=
      Finset.sum_le_sum_of_subset (Finset.Ico_subset_Ico_right month_lt)
    rw [Finset.sum_Ico_succ_top valid.month_pos] at months
    have := valid.day_le
    have := valid.day_pos
    rw [daysSince, daysSince]
    omega
  · have := valid.day_pos
    rw [daysSince, daysSince]
    omega

theorem le_marchDays (year : ℕ) : 365 * year ≤ marchDays year := by
  have fewer : year / 100 ≤ year / 4 := Nat.div_le_div_left (by decide) (by decide)
  rw [marchDays]
  omega

end RndRust.Lib.Calendar
