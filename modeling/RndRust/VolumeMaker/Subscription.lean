import RndRust.Lib.Calendar
import RndRust.Lib.Outcome

/-! The dates that the subscription routes read from a request: `parse_date` of
`routes/subscription.rs`. -/
namespace RndRust.VolumeMaker
open Lib Lib.Calendar

/-- What ends the handler instead of an answer. -/
inductive Fault where
  /-- An `i64` or `u64` does not hold the result: a panic, or a wrong number without the checks. -/
  | overflow
  /-- `overflow when adding duration to instant`. -/
  | instant
  deriving DecidableEq

/-- The result of an operation on `i64`. -/
def checkedI64 (n : ℤ) : Except Fault ℤ := if -2 ^ 63 ≤ n ∧ n < 2 ^ 63 then .ok n else .error .overflow

/-- `to_digit(10)` of every character, the highest first. -/
def decimal (digits : List Char) : ℕ := digits.foldl (fun n c => 10 * n + (c.toNat - 48)) 0

def parseDigits (digits : List Char) : Option ℕ :=
  if digits = [] ∨ digits.any (!·.isDigit) then none else some (decimal digits)

/-- `parse::<i64>`. -/
def parseI64 : List Char → Option ℤ
  | '+' :: digits => do
    let n ← parseDigits digits
    if n < 2 ^ 63 then some n else none
  | '-' :: digits => do
    let n ← parseDigits digits
    if n ≤ 2 ^ 63 then some (-n) else none
  | digits => do
    let n ← parseDigits digits
    if n < 2 ^ 63 then some n else none

def isLeap (year : ℤ) : Bool := year.tmod 4 = 0 && year.tmod 100 ≠ 0 || year.tmod 400 = 0

def daysInMonth (isLeap : Bool) : List ℤ := [0, 31, if isLeap then 29 else 28, 31, 30, 31, 30, 31, 31, 30, 31, 30, 31]

/-- The days from the year zero on, without the epoch, for a year that begins in March. Of the month
and the day nothing can overflow by itself. -/
def civilDays (y m day : ℤ) : Except Fault ℤ := do
  let days ← checkedI64 (365 * y)
  let days ← checkedI64 (days + y.tdiv 4)
  let days ← checkedI64 (days - y.tdiv 100)
  let days ← checkedI64 (days + y.tdiv 400)
  let days ← checkedI64 (days + (m * 306 + 5).tdiv 10)
  let days ← checkedI64 (days + (day - 1))
  checkedI64 (days - 719468)

/-- `SystemTime::UNIX_EPOCH + Duration::from_secs(days as u64 * 86400)`, in seconds. -/
def afterEpoch (days : ℕ) : Except Fault ℕ :=
  if 2 ^ 64 ≤ days * 86400 then .error .overflow
  else if 2 ^ 63 ≤ days * 86400 then .error .instant
  else .ok (days * 86400)

def timeOf (y m day : ℤ) : Except Fault (Option ℕ) := do
  let days ← civilDays y m day
  if days < 0 then .ok none
  else do
    let seconds ← afterEpoch days.toNat
    .ok (some seconds)

/-- `y`: the year that began last March. -/
def marchYear (year month : ℤ) : Except Fault ℤ := if month ≤ 2 then checkedI64 (year - 1) else .ok year

def dateOf (year month day : ℤ) : Except Fault (Option ℕ) :=
  if ¬(1 ≤ month ∧ month ≤ 12) ∨ ¬(1 ≤ day ∧ day ≤ 31) then .ok none
  else if (daysInMonth (isLeap year)).getD month.toNat 0 < day then .ok none
  else do
    let y ← marchYear year month
    let m := if month ≤ 2 then month + 9 else month - 3
    timeOf y m day

/-- `parse_date`. -/
def parseDate (s : List Char) : Except Fault (Option ℕ) :=
  match s.splitOn '-' with
  | [first, second, third] =>
    ((do
      let year ← parseI64 first
      let month ← parseI64 second
      let day ← parseI64 third
      some (dateOf year month day) : Option (Except Fault (Option ℕ)))).getD (.ok none)
  | _ => .ok none

section Dates

variable {year month day : ℕ}

theorem isLeap_eq : isLeap year = decide (Leap year) := by
  have fourth : (year : ℤ).tmod 4 = 0 ↔ 4 ∣ year := by
    rw [Int.tmod_eq_emod_of_nonneg (Int.natCast_nonneg year)]
    omega
  have hundredth : (year : ℤ).tmod 100 = 0 ↔ 100 ∣ year := by
    rw [Int.tmod_eq_emod_of_nonneg (Int.natCast_nonneg year)]
    omega
  have last : (year : ℤ).tmod 400 = 0 ↔ 400 ∣ year := by
    rw [Int.tmod_eq_emod_of_nonneg (Int.natCast_nonneg year)]
    omega
  rw [Bool.eq_iff_iff, decide_eq_true_iff]
  simp [isLeap, Leap, fourth, hundredth, last]

theorem daysInMonth_eq (first : 1 ≤ month) (last : month ≤ 12) :
    (daysInMonth (isLeap year)).getD month 0 = monthLength year month := by
  rw [isLeap_eq]
  by_cases leap : Leap year <;> interval_cases month <;> simp [daysInMonth, monthLength, leap]

theorem monthLength_le : monthLength year month ≤ 31 := by
  unfold monthLength
  repeat' split
  all_goals decide

theorem checkedI64_cases (n : ℤ) : checkedI64 n = .ok n ∨ checkedI64 n = .error .overflow := by
  unfold checkedI64
  split
  case isTrue => exact .inl rfl
  case isFalse => exact .inr rfl

theorem checkedI64_of_fits {n : ℤ} (low : -2 ^ 63 ≤ n) (high : n < 2 ^ 63) : checkedI64 n = .ok n :=
  if_pos ⟨low, high⟩

theorem checked_bind {n r : ℤ} {f : ℤ → Except Fault ℤ} (next : f n = .ok r ∨ f n = .error .overflow) :
    (checkedI64 n >>= f) = .ok r ∨ (checkedI64 n >>= f) = .error .overflow := by
  obtain fits | exceeds := checkedI64_cases n
  · rwa [fits, ok_bind]
  · exact .inr (by rw [exceeds, error_bind])

/-- Nothing is wrong with the sum but that it may not fit. -/
theorem civilDays_cases (y m day : ℤ) : civilDays y m day = .ok (365 * y + y.tdiv 4 - y.tdiv 100 + y.tdiv 400
    + (m * 306 + 5).tdiv 10 + (day - 1) - 719468) ∨ civilDays y m day = .error .overflow := by
  unfold civilDays
  iterate 6 refine checked_bind ?_
  exact checkedI64_cases _

theorem tdiv_bounds {y k : ℤ} (low : -1 ≤ y) (high : y < 2 ^ 54) (divisor : 2 ≤ k) :
    0 ≤ y.tdiv k ∧ y.tdiv k ≤ 2 ^ 54 := by
  obtain rfl | positive := eq_or_lt_of_le low
  · rw [Int.neg_tdiv, Int.tdiv_eq_zero_of_lt (by decide) (by omega)]
    decide
  · have := Int.tdiv_le_self k (show 0 ≤ y by omega)
    exact ⟨Int.tdiv_nonneg (by omega) (by omega), by omega⟩

theorem civilDays_of_small {y m day : ℤ} (low : -1 ≤ y) (high : y < 2 ^ 54) (months : 0 ≤ m ∧ m ≤ 11)
    (days : 1 ≤ day ∧ day ≤ 31) : civilDays y m day = .ok (365 * y + y.tdiv 4 - y.tdiv 100 + y.tdiv 400
      + (m * 306 + 5).tdiv 10 + (day - 1) - 719468) := by
  have fourth := tdiv_bounds low high (show 2 ≤ 4 by decide)
  have hundredth := tdiv_bounds low high (show 2 ≤ 100 by decide)
  have last := tdiv_bounds low high (show 2 ≤ 400 by decide)
  rw [civilDays, Int.tdiv_eq_ediv_of_nonneg (a := m * 306 + 5) (by omega)]
  generalize y.tdiv 4 = quarters at *
  generalize y.tdiv 100 = centuries at *
  generalize y.tdiv 400 = cycles at *
  iterate 6 rw [checkedI64_of_fits (by omega) (by omega), ok_bind]
  exact checkedI64_of_fits (by omega) (by omega)

/-- For a year that begins in March, the sum is that of the calendar. -/
theorem civilSum_eq {y m : ℕ} {day : ℤ} : 365 * (y : ℤ) + (y : ℤ).tdiv 4 - (y : ℤ).tdiv 100 + (y : ℤ).tdiv 400
    + ((m : ℤ) * 306 + 5).tdiv 10 + (day - 1) - 719468 = marchDays y + monthDays m + (day - 1) - 719468 := by
  have fewer : y / 100 ≤ y / 4 := Nat.div_le_div_left (by decide) (by decide)
  have divided (k : ℕ) : (y : ℤ).tdiv k = ((y / k : ℕ) : ℤ) := rfl
  have four := divided 4
  have hundred := divided 100
  have cycle := divided 400
  have months : ((m : ℤ) * 306 + 5).tdiv 10 = (((m * 306 + 5) / 10 : ℕ) : ℤ) := rfl
  simp only [Nat.cast_ofNat] at four hundred cycle
  rw [four, hundred, cycle, months, marchDays, monthDays]
  omega

theorem dateOf_invalid (invalid : ¬Valid year month day) : dateOf year month day = .ok none := by
  unfold dateOf
  split
  case isTrue => rfl
  case isFalse inside =>
    rw [not_or, not_not, not_not] at inside
    obtain ⟨months, days⟩ := inside
    refine if_pos ?_
    rw [Int.toNat_natCast, daysInMonth_eq (by omega) (by omega)]
    by_contra within
    exact invalid ⟨by omega, by omega, by omega, by omega⟩

theorem dateOf_valid (valid : Valid year month day) : dateOf year month day =
    marchYear year month >>= fun y => timeOf y (if (month : ℤ) ≤ 2 then month + 9 else month - 3) day := by
  obtain ⟨first, last, positive, within⟩ := valid
  have most := within.trans monthLength_le
  have bounds : ¬(¬(1 ≤ (month : ℤ) ∧ (month : ℤ) ≤ 12) ∨ ¬(1 ≤ (day : ℤ) ∧ (day : ℤ) ≤ 31)) := by omega
  have inside : ¬(daysInMonth (isLeap year)).getD (month : ℤ).toNat 0 < day := by
    rw [Int.toNat_natCast, daysInMonth_eq first last]
    omega
  rw [dateOf, if_neg bounds, if_neg inside]

/-- A date is the day of a month of a year that begins in March: of the same year, or of the one
before. -/
theorem exists_civil (valid : Valid year month day) (after : 1 ≤ year) (fits : year < 2 ^ 63) :
    ∃ y m : ℕ, m ≤ 11 ∧ dateOf year month day = timeOf y m day ∧ y ≤ year ∧
      ∀ epoch, epoch + 1 ≤ year → marchDays epoch + 306 + daysSince (epoch + 1) year month day
        = marchDays y + monthDays m + (day - 1) := by
  rw [dateOf_valid valid, marchYear]
  obtain ⟨first, last, -, -⟩ := valid
  obtain ⟨before, rfl⟩ : ∃ before, year = before + 1 := ⟨year - 1, by omega⟩
  by_cases winter : month ≤ 2
  · refine ⟨before, month + 9, by omega, ?_, by omega, fun epoch le =>
      daysSince_winter (by omega) first winter⟩
    rw [if_pos (by omega), if_pos (by omega), checkedI64_of_fits (by omega) (by omega), ok_bind]
    congr
    omega
  · refine ⟨before + 1, month - 3, by omega, ?_, le_rfl, fun epoch le =>
      daysSince_summer (by omega) (by omega) last⟩
    rw [if_neg (by omega), if_neg (by omega), ok_bind]
    congr
    omega

theorem timeOf_civil {y m : ℕ} (months : m ≤ 11) (days : 1 ≤ day ∧ day ≤ 31) (small : y < 2 ^ 54)
    {n : ℤ} (sum : (marchDays y : ℤ) + monthDays m + (day - 1) = 719468 + n) : timeOf y m day
      = if n < 0 then .ok none else afterEpoch n.toNat >>= fun seconds => .ok (some seconds) := by
  have is : (marchDays y : ℤ) + monthDays m + (day - 1) - 719468 = n := by omega
  rw [timeOf, civilDays_of_small (by omega) (by omega) (by omega) (by omega), civilSum_eq, is]
  rfl

theorem timeOf_early {y m : ℤ} (low : -1 ≤ y) (high : y ≤ 0) (months : 0 ≤ m ∧ m ≤ 11)
    (days : 1 ≤ (day : ℤ) ∧ (day : ℤ) ≤ 31) : timeOf y m day = .ok none := by
  rw [timeOf, civilDays_of_small low (by omega) months days, ok_bind,
    Int.tdiv_eq_ediv_of_nonneg (a := m * 306 + 5) (by omega)]
  refine if_pos ?_
  obtain rfl | rfl : y = -1 ∨ y = 0 := by omega
  · simp only [show (-1 : ℤ).tdiv 4 = 0 by decide, show (-1 : ℤ).tdiv 100 = 0 by decide,
      show (-1 : ℤ).tdiv 400 = 0 by decide]
    omega
  · simp only [Int.zero_tdiv]
    omega

theorem dateOf_before (valid : Valid year month day) (early : year < 1970) : dateOf year month day = .ok none := by
  have most := valid.day_le.trans monthLength_le
  have least := valid.day_pos
  obtain rfl | after := Nat.eq_zero_or_pos year
  · have first := valid.month_pos
    have last := valid.month_le
    rw [dateOf_valid valid, marchYear]
    split
    case isTrue winter =>
      rw [checkedI64_of_fits (by decide) (by decide), ok_bind]
      exact timeOf_early (by decide) (by decide) (by omega) (by omega)
    case isFalse summer =>
      rw [ok_bind]
      exact timeOf_early (by decide) (by decide) (by omega) (by omega)
  · obtain ⟨before, rfl⟩ : ∃ before, year = before + 1 := ⟨year - 1, by omega⟩
    obtain ⟨y, m, months, is, le, sums⟩ := exists_civil valid after (by omega)
    have sum := sums before le_rfl
    have within := daysSince_lt valid
    have year_end : marchDays before + yearLength (before + 1) ≤ marchDays 1969 := by
      rw [← marchDays_succ]
      exact marchDays_mono (by omega)
    have epoch : marchDays 1969 = 719162 := rfl
    rw [is, timeOf_civil (n := (marchDays y : ℤ) + monthDays m + (day - 1) - 719468) months ⟨least, most⟩
      (by omega) (by omega), if_pos (by omega)]

/-- From the epoch on, the time is that of the calendar as long as the clock holds it. -/
theorem dateOf_after (valid : Valid year month day) (fits : year < 2 ^ 63) (late : 1970 ≤ year) :
    (86400 * daysSince 1970 year month day < 2 ^ 63 →
      dateOf year month day = .ok (some (86400 * daysSince 1970 year month day))) ∧
    (2 ^ 63 ≤ 86400 * daysSince 1970 year month day → ∃ fault, dateOf year month day = .error fault) := by
  have most := valid.day_le.trans monthLength_le
  have least := valid.day_pos
  obtain ⟨y, m, months, is, le, sums⟩ := exists_civil valid (by omega) fits
  have sum := sums 1969 late
  rw [show marchDays 1969 = 719162 from rfl] at sum
  generalize daysSince (1969 + 1) year month day = days at *
  have room := le_marchDays y
  rw [is]
  refine ⟨fun held => ?_, fun exceeds => ?_⟩
  · have short : ¬2 ^ 64 ≤ days * 86400 := by omega
    have near : ¬2 ^ 63 ≤ days * 86400 := by omega
    rw [timeOf_civil (n := days) months ⟨least, most⟩ (by omega) (by omega), if_neg (by omega),
      Int.toNat_natCast, afterEpoch, if_neg short, if_neg near, ok_bind, Nat.mul_comm]
  · rw [timeOf]
    obtain sound | overflows := civilDays_cases y m day
    · rw [sound, civilSum_eq, ok_bind,
        show (marchDays y : ℤ) + monthDays m + (day - 1) - 719468 = days by omega, if_neg (by omega),
        Int.toNat_natCast, afterEpoch]
      split
      case isTrue => exact ⟨_, rfl⟩
      case isFalse =>
        rw [if_pos (by omega)]
        exact ⟨_, rfl⟩
    · rw [overflows]
      exact ⟨_, rfl⟩

end Dates

section Texts

variable {s text : List Char} {n year month day : ℕ}

/-- The text is an integer: digits, perhaps after a sign. -/
def Writes (text : List Char) (n : ℕ) : Prop :=
  ∃ digits, (text = digits ∨ text = '+' :: digits) ∧ digits ≠ [] ∧ (∀ c ∈ digits, c.isDigit) ∧ decimal digits = n

/-- The text is three integers with `-` between them. -/
def Names (s : List Char) (year month day : ℕ) : Prop :=
  ∃ first second third, s = first ++ '-' :: (second ++ '-' :: third) ∧ Writes first year ∧ Writes second month ∧
    Writes third day

theorem parseDigits_eq_some {digits : List Char} :
    parseDigits digits = some n ↔ digits ≠ [] ∧ (∀ c ∈ digits, c.isDigit) ∧ decimal digits = n := by
  rw [parseDigits]
  split
  case isTrue wrong =>
    simp only [reduceCtorEq, false_iff, not_and]
    rintro some all
    obtain empty | other := wrong
    · exact absurd empty some
    · obtain ⟨c, member, no⟩ := List.any_eq_true.mp other
      rw [all c member] at no
      cases no
  case isFalse right =>
    simp only [not_or, List.any_eq_true, not_exists, not_and, Bool.not_eq_true', Bool.not_eq_false] at right
    rw [Option.some.injEq]
    exact ⟨fun is => ⟨right.1, right.2, is⟩, fun is => is.2.2⟩

theorem dash_notMem (writes : Writes text n) : '-' ∉ text := by
  obtain ⟨digits, shape, -, all, -⟩ := writes
  have none : '-' ∉ digits := fun member => absurd (all _ member) (by decide)
  obtain rfl | rfl := shape
  · exact none
  · rw [List.mem_cons, not_or]
    exact ⟨by decide, none⟩

theorem parseI64_eq_some (plain : '-' ∉ text) {k : ℤ} :
    parseI64 text = some k ↔ ∃ n : ℕ, Writes text n ∧ n < 2 ^ 63 ∧ k = n := by
  have read (digits : List Char) : (do
      let n ← parseDigits digits
      if n < 2 ^ 63 then some (n : ℤ) else none) = some k ↔
      ∃ n : ℕ, (digits ≠ [] ∧ (∀ c ∈ digits, c.isDigit) ∧ decimal digits = n) ∧ n < 2 ^ 63 ∧ k = n := by
    simp only [Option.bind_eq_bind, Option.bind_eq_some_iff, parseDigits_eq_some, Option.ite_none_right_eq_some,
      Option.some.injEq, eq_comm (a := k)]
  unfold parseI64
  split
  case h_1 digits =>
    rw [read]
    refine exists_congr fun n => and_congr_left fun _ => ⟨fun is => ⟨digits, .inr rfl, is⟩, ?_⟩
    rintro ⟨others, same | same, some, all, is⟩
    · exact absurd (all '+' (same ▸ List.mem_cons_self)) (by decide)
    · obtain rfl := (List.cons.inj same).2
      exact ⟨some, all, is⟩
  case h_2 => exact absurd List.mem_cons_self plain
  case h_3 no_plus _ =>
    rw [read]
    refine exists_congr fun n => and_congr_left fun _ => ⟨fun is => ⟨text, .inl rfl, is⟩, ?_⟩
    rintro ⟨others, rfl | same, is⟩
    · exact is
    · exact absurd same (no_plus others)

theorem notMem_of_mem_splitOn {α : Type} [DecidableEq α] {x : α} {xs piece : List α}
    (member : piece ∈ xs.splitOn x) : x ∉ piece := by
  induction xs generalizing piece with
  | nil =>
    rw [List.splitOn_nil, List.mem_singleton] at member
    subst member
    exact List.not_mem_nil
  | cons head tail ih =>
    rw [List.splitOn_cons_eq_if_modifyHead] at member
    split at member
    case isTrue =>
      obtain rfl | later := List.mem_cons.mp member
      · exact List.not_mem_nil
      · exact ih later
    case isFalse other =>
      cases pieces : tail.splitOn x with
      | nil => exact absurd pieces (List.splitOn_ne_nil x tail)
      | cons first rest =>
        rw [pieces, List.modifyHead_cons] at member
        obtain rfl | later := List.mem_cons.mp member
        · rw [List.mem_cons, not_or]
          exact ⟨fun same => other (beq_iff_eq.mpr same.symm), ih (pieces ▸ List.mem_cons_self)⟩
        · exact ih (pieces ▸ List.mem_cons_of_mem _ later)

theorem splitOn_eq_three {first second third : List Char} : s.splitOn '-' = [first, second, third] ↔
    s = first ++ '-' :: (second ++ '-' :: third) ∧ '-' ∉ first ∧ '-' ∉ second ∧ '-' ∉ third := by
  constructor
  · intro split
    have whole : ['-'].intercalate (s.splitOn '-') = s := List.intercalate_splitOn '-'
    have plain (piece) (member : piece ∈ [first, second, third]) : '-' ∉ piece :=
      notMem_of_mem_splitOn (split ▸ member)
    rw [split] at whole
    exact ⟨by simp [← whole], plain _ (by simp), plain _ (by simp), plain _ (by simp)⟩
  · rintro ⟨rfl, none₁, none₂, none₃⟩
    rw [List.splitOn_append_cons_self_of_not_mem none₁, List.splitOn_append_cons_self_of_not_mem none₂,
      List.splitOn_eq_singleton none₃]

theorem parseDate_of_names (names : Names s year month day) (years : year < 2 ^ 63) (months : month < 2 ^ 63)
    (days : day < 2 ^ 63) : parseDate s = dateOf year month day := by
  obtain ⟨first, second, third, shape, writes₁, writes₂, writes₃⟩ := names
  have pieces : s.splitOn '-' = [first, second, third] :=
    splitOn_eq_three.mpr ⟨shape, dash_notMem writes₁, dash_notMem writes₂, dash_notMem writes₃⟩
  have parsed₁ := (parseI64_eq_some (dash_notMem writes₁)).mpr ⟨year, writes₁, years, rfl⟩
  have parsed₂ := (parseI64_eq_some (dash_notMem writes₂)).mpr ⟨month, writes₂, months, rfl⟩
  have parsed₃ := (parseI64_eq_some (dash_notMem writes₃)).mpr ⟨day, writes₃, days, rfl⟩
  rw [parseDate, pieces]
  simp only [parsed₁, parsed₂, parsed₃, Option.bind_eq_bind, Option.bind_some, Option.getD_some]

/-- Either the text names three numbers that `i64` holds, or there is no date. -/
theorem parseDate_cases (s : List Char) :
    (∃ year month day, Names s year month day ∧ year < 2 ^ 63 ∧ parseDate s = dateOf year month day) ∨
    parseDate s = .ok none := by
  unfold parseDate
  split
  case h_2 => exact .inr rfl
  case h_1 first second third pieces =>
    obtain ⟨shape, plain₁, plain₂, plain₃⟩ := splitOn_eq_three.mp pieces
    cases parsed₁ : parseI64 first with
    | none => exact .inr rfl
    | some year =>
      cases parsed₂ : parseI64 second with
      | none => exact .inr rfl
      | some month =>
        cases parsed₃ : parseI64 third with
        | none => exact .inr rfl
        | some day =>
          obtain ⟨year, writes₁, fits, rfl⟩ := (parseI64_eq_some plain₁).mp parsed₁
          obtain ⟨month, writes₂, -, rfl⟩ := (parseI64_eq_some plain₂).mp parsed₂
          obtain ⟨day, writes₃, -, rfl⟩ := (parseI64_eq_some plain₃).mp parsed₃
          exact .inl ⟨year, month, day, ⟨first, second, third, shape, writes₁, writes₂, writes₃⟩, fits, rfl⟩

/-- The text is read without a fault, and a time is returned exactly for a date that the clock can
hold. -/
def ReadExactly (s : List Char) : Prop :=
  (∃ result, parseDate s = .ok result) ∧ ∀ t, parseDate s = .ok (some t) ↔
    ∃ year month day, Names s year month day ∧ Valid year month day ∧ 1970 ≤ year ∧
      t = 86400 * daysSince 1970 year month day ∧ t < 2 ^ 63

/-- The text names a date whose year `i64` holds and whose instant the clock does not. -/
def Beyond (s : List Char) : Prop :=
  ∃ year month day, Names s year month day ∧ Valid year month day ∧ 1970 ≤ year ∧ year < 2 ^ 63 ∧
    2 ^ 63 ≤ 86400 * daysSince 1970 year month day

/-- A date is read exactly unless its instant lies beyond the clock: then the handler panics, or wraps
around. -/
theorem parseDate_exact_iff (s : List Char) : ReadExactly s ↔ ¬Beyond s := by
  constructor
  · rintro ⟨⟨result, read⟩, -⟩ ⟨year, month, day, names, valid, late, fits, exceeds⟩
    have := valid.month_le
    have := valid.day_le.trans monthLength_le
    obtain ⟨fault, faulty⟩ := (dateOf_after valid fits late).2 exceeds
    rw [parseDate_of_names names fits (by omega) (by omega), faulty] at read
    cases read
  · intro within
    have readable (t) : (∃ year month day, Names s year month day ∧ Valid year month day ∧ 1970 ≤ year ∧
        t = 86400 * daysSince 1970 year month day ∧ t < 2 ^ 63) → parseDate s = .ok (some t) := by
      rintro ⟨year, month, day, names, valid, late, rfl, held⟩
      have := valid.month_le
      have := valid.day_le.trans monthLength_le
      have : year ≤ 1970 + daysSince 1970 year month day := le_daysSince late
      rw [parseDate_of_names names (by omega) (by omega) (by omega)]
      exact (dateOf_after valid (by omega) late).1 held
    have refused (none : parseDate s = .ok none) : ReadExactly s :=
      ⟨⟨_, none⟩, fun t => ⟨fun found => absurd (none.symm.trans found) (by simp), readable t⟩⟩
    obtain ⟨year, month, day, names, fits, is⟩ | nothing := parseDate_cases s
    · by_cases valid : Valid year month day
      · by_cases late : 1970 ≤ year
        · have held : 86400 * daysSince 1970 year month day < 2 ^ 63 :=
            Nat.lt_of_not_le fun exceeds => within ⟨year, month, day, names, valid, late, fits, exceeds⟩
          have returned := (dateOf_after valid fits late).1 held
          refine ⟨⟨_, is.trans returned⟩, fun t => ⟨fun found => ?_, readable t⟩⟩
          rw [is, returned, Except.ok.injEq, Option.some.injEq] at found
          exact ⟨year, month, day, names, valid, late, found.symm, found ▸ held⟩
        · exact refused (is.trans (dateOf_before valid (by omega)))
      · exact refused (is.trans (dateOf_invalid valid))
    · exact refused nothing

/-- The first of January of the year 300000000000. -/
theorem parseDate_exact_fails : parseDate "300000000000-01-01".toList = .error .instant ∧
    ¬ReadExactly "300000000000-01-01".toList := by
  have panics : parseDate "300000000000-01-01".toList = .error .instant := by decide
  refine ⟨panics, ?_⟩
  rintro ⟨⟨result, read⟩, -⟩
  rw [panics] at read
  cases read

end Texts

end RndRust.VolumeMaker
