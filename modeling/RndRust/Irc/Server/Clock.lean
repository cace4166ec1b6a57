import Mathlib.Data.Prod.Lex
import RndRust.Irc.Server.Messaging
import RndRust.Lib.Calendar
import RndRust.Lib.Words

/-! The date and the time of an instant, as the server writes them. Its closed form is that of a
calendar whose years begin in March, and no step of it leaves the machine's integers. -/
namespace RndRust.Irc.Server
open Lib Calendar

/-- A sum or a product of `u64`, if it is one. -/
def fits (n : ℕ) : Option ℕ := if n < 2 ^ 64 then some n else none

/-- A difference of `u64`, if it is not below zero. -/
def less (a b : ℕ) : Option ℕ := if b ≤ a then some (a - b) else none

/-- `epoch_to_utc` on `u64`, where an operation that overflows fails. -/
def epochToUtcChecked (epoch : ℕ) : Option (ℕ × ℕ × ℕ × ℕ × ℕ × ℕ) := do
  let days := epoch / 86400
  let daySecs := epoch % 86400
  let z ← fits (days + 719468)
  let era := z / 146097
  let doe ← less z (← fits (era * 146097))
  let yoe := (← less (← fits ((← less doe (doe / 1460)) + doe / 36524)) (doe / 146096)) / 365
  let y ← fits (yoe + (← fits (era * 400)))
  let doy ← less doe (← less (← fits ((← fits (365 * yoe)) + yoe / 4)) (yoe / 100))
  let mp := (← fits ((← fits (5 * doy)) + 2)) / 153
  let d ← fits ((← less doy ((← fits ((← fits (153 * mp)) + 2)) / 5)) + 1)
  let m ← if mp < 10 then fits (mp + 3) else less mp 9
  let y ← if m ≤ 2 then fits (y + 1) else some y
  some (y, m, d, daySecs / 3600, daySecs % 3600 / 60, daySecs % 60)

theorem fits_eq {n : ℕ} (small : n < 2 ^ 64) : fits n = some n := if_pos small

theorem less_eq {a b : ℕ} (le : b ≤ a) : less a b = some (a - b) := if_pos le

theorem bind_of_eq {α β : Type} {x : Option α} {a : α} {f : α → Option β} (found : x = some a) : (x >>= f) = f a := by
  rw [found]
  rfl

section Dates

variable {epoch days doe doy mp year : ℕ}

/-- `yoe` and `doy`: the year of its era that a day is in, and what is left of the day. -/
theorem yearOfEra (within : doe < 146097) :
    let yoe := (doe - doe / 1460 + doe / 36524 - doe / 146096) / 365
    yoe < 400 ∧ 365 * yoe + yoe / 4 - yoe / 100 = marchDays yoe ∧ marchDays yoe ≤ doe ∧ doe < marchDays (yoe + 1) := by
  intro yoe
  obtain ⟨centuries, fours, years, rest, cut, shortCentury, shortCycle, short, left⟩ := exists_cycles within
  have century : doe / 36524 = centuries + doe / 146096 := by
    by_cases final : doe = 146096
    · omega
    · have early : 1461 * fours + 365 * years + rest < 36524 := by omega
      omega
  -- Of the leap days the four-year cycles count one too many from the day on that `rest` makes up for.
  have cycle : doe / 1460 = 25 * centuries + fours ∧ rest ≤ 364 ∨ doe / 1460 = 25 * centuries + fours + 1 ∧ 1 ≤ rest := by
    rcases left with plain | ⟨leap, third, -⟩
    · by_cases late : 24 * centuries + fours + 365 * years + rest < 1460
      · exact .inl ⟨by omega, plain⟩
      · exact .inr ⟨by omega, by omega⟩
    · exact .inr ⟨by omega, by omega⟩
  have named : yoe = 100 * centuries + 4 * fours + years := by omega
  obtain ⟨first, last⟩ := marchDays_cycles shortCentury shortCycle short left
  rw [← named] at first last
  have below : yoe < 400 := by omega
  refine ⟨below, ?_, by omega, by omega⟩
  rw [marchDays, Nat.div_eq_of_lt below, Nat.add_zero]

/-- `mp`: the month of its year that a day is in. -/
theorem monthOfYear (within : doy < yearLength (year + 1)) (named : (5 * doy + 2) / 153 = mp) :
    (153 * mp + 2) / 5 = monthDays mp ∧ monthDays mp ≤ doy ∧ doy < monthDays (mp + 1) ∧ mp ≤ 11 := by
  have leap : yearLength (year + 1) ≤ 366 := by rw [yearLength_eq]; split <;> decide
  simp only [monthDays]
  omega

/-- A day from March to December. -/
theorem civil_summer (after : 1969 < year) (le : monthDays mp ≤ doy) (lt : doy < monthDays (mp + 1)) (summer : mp < 10) :
    Valid year (mp + 3) (doy - monthDays mp + 1) ∧
      marchDays 1969 + 306 + daysSince 1970 year (mp + 3) (doy - monthDays mp + 1) = marchDays year + doy := by
  have length := @monthDays_succ year (mp + 3) (by omega) (by omega)
  rw [Nat.add_sub_cancel] at length
  refine ⟨⟨by omega, by omega, by omega, by omega⟩, ?_⟩
  obtain ⟨before, rfl⟩ := Nat.exists_eq_add_of_lt after
  have counted := @daysSince_summer 1969 (1969 + before) (mp + 3) (doy - monthDays mp + 1) (by omega) (by omega) (by omega)
  rw [Nat.add_sub_cancel] at counted
  rw [counted]
  omega

/-- A day of January or February, which end the year. -/
theorem civil_winter (after : 1969 ≤ year) (within : doy < yearLength (year + 1)) (le : monthDays mp ≤ doy)
    (lt : doy < monthDays (mp + 1)) (winter : 10 ≤ mp) (last : mp ≤ 11) :
    Valid (year + 1) (mp - 9) (doy - monthDays mp + 1) ∧
      marchDays 1969 + 306 + daysSince 1970 (year + 1) (mp - 9) (doy - monthDays mp + 1) = marchDays year + doy := by
  have counted := @daysSince_winter 1969 year (mp - 9) (doy - monthDays mp + 1) after (by omega) (by omega)
  rw [show mp - 9 + 9 = mp by omega] at counted
  refine ⟨⟨by omega, by omega, by omega, ?_⟩, by rw [counted]; omega⟩
  have length : yearLength (year + 1) = 337 + monthLength (year + 1) 2 := by
    rw [yearLength_eq, monthLength]
    split <;> rfl
  obtain rfl | rfl : mp = 10 ∨ mp = 11 := by omega
  · have january : monthDays (10 + 1) = monthDays 10 + 31 := rfl
    show doy - monthDays 10 + 1 ≤ 31
    omega
  · have february : monthDays 11 = 337 := rfl
    show doy - monthDays 11 + 1 ≤ monthLength (year + 1) 2
    omega

/-- The values that `epoch_to_utc` goes through. -/
structure Steps (epoch era doe yoe doy mp : ℕ) : Prop where
  era_eq : (epoch / 86400 + 719468) / 146097 = era
  doe_eq : epoch / 86400 + 719468 - era * 146097 = doe
  yoe_eq : (doe - doe / 1460 + doe / 36524 - doe / 146096) / 365 = yoe
  doy_eq : doe - (365 * yoe + yoe / 4 - yoe / 100) = doy
  mp_eq : (5 * doy + 2) / 153 = mp
  doe_lt : doe < 146097
  yoe_lt : yoe < 400
  year_days : 365 * yoe + yoe / 4 - yoe / 100 = marchDays yoe
  year_le : marchDays yoe ≤ doe
  within : doy < yearLength (yoe + era * 400 + 1)
  counted : marchDays (yoe + era * 400) + doy = epoch / 86400 + 719468

theorem exists_steps (epoch : ℕ) : ∃ era doe yoe doy mp, Steps epoch era doe yoe doy mp := by
  obtain ⟨doe, doe_eq⟩ : ∃ doe, epoch / 86400 + 719468 - (epoch / 86400 + 719468) / 146097 * 146097 = doe := ⟨_, rfl⟩
  have doe_lt : doe < 146097 := by omega
  obtain ⟨yoe_lt, year_days, year_le, year_lt⟩ := yearOfEra doe_lt
  obtain ⟨yoe, yoe_eq⟩ : ∃ yoe, (doe - doe / 1460 + doe / 36524 - doe / 146096) / 365 = yoe := ⟨_, rfl⟩
  rw [yoe_eq] at yoe_lt year_days year_le year_lt
  have eras := marchDays_cycle yoe ((epoch / 86400 + 719468) / 146097)
  have next := marchDays_cycle (yoe + 1) ((epoch / 86400 + 719468) / 146097)
  rw [Nat.add_right_comm, marchDays_succ] at next
  rw [Nat.mul_comm 400] at eras next
  refine ⟨_, doe, yoe, _, _, rfl, doe_eq, yoe_eq, rfl, rfl, doe_lt, yoe_lt, year_days, year_le, ?_, ?_⟩ <;>
    rw [year_days] <;> omega

variable {era yoe : ℕ}

theorem Steps.year_after (steps : Steps epoch era doe yoe doy mp) :
    1969 ≤ yoe + era * 400 ∧ (mp < 10 → 1969 < yoe + era * 400) := by
  have start : marchDays 1969 = 719162 := rfl
  have counted := steps.counted
  obtain ⟨-, le, lt, -⟩ := monthOfYear steps.within steps.mp_eq
  have reached : 1969 ≤ yoe + era * 400 := by
    by_contra early
    have before := marchDays_mono (show yoe + era * 400 + 1 ≤ 1969 by omega)
    have within := steps.within
    rw [marchDays_succ] at before
    omega
  refine ⟨reached, fun summer => lt_of_le_of_ne reached fun same => ?_⟩
  rw [← same] at counted
  have winter : 306 ≤ doy := by omega
  have month := steps.mp_eq
  omega

/-- **The date and the time of an instant**: the date is one of the calendar, and converts back. -/
theorem epochToUtc_civil (epoch : ℕ) : let (year, month, day, hour, min, sec) := epochToUtc epoch
    Valid year month day ∧ 1970 ≤ year ∧ hour < 24 ∧ min < 60 ∧ sec < 60 ∧
      daysSince 1970 year month day * 86400 + hour * 3600 + min * 60 + sec = epoch := by
  obtain ⟨era, doe, yoe, doy, mp, steps⟩ := exists_steps epoch
  obtain ⟨after, summery⟩ := steps.year_after
  obtain ⟨monthed, le, lt, short⟩ := monthOfYear steps.within steps.mp_eq
  have start : marchDays 1969 = 719162 := rfl
  have counted := steps.counted
  simp only [epochToUtc, steps.era_eq, steps.doe_eq, steps.yoe_eq, steps.doy_eq, steps.mp_eq, monthed]
  by_cases summer : mp < 10
  · obtain ⟨valid, days⟩ := civil_summer (summery summer) le lt summer
    rw [if_pos summer, if_neg (by omega)]
    refine ⟨valid, summery summer, ?_⟩
    omega
  · obtain ⟨valid, days⟩ := civil_winter after steps.within le lt (by omega) short
    rw [if_neg summer, if_pos (by omega)]
    refine ⟨valid, by omega, ?_⟩
    omega

/-- No operation overflows. -/
theorem epochToUtcChecked_eq (u64 : epoch < 2 ^ 64) : epochToUtcChecked epoch = some (epochToUtc epoch) := by
  obtain ⟨era, doe, yoe, doy, mp, steps⟩ := exists_steps epoch
  obtain ⟨monthed, month_le, -, short⟩ := monthOfYear steps.within steps.mp_eq
  obtain ⟨era_eq, doe_eq, yoe_eq, doy_eq, mp_eq, doe_lt, yoe_lt, year_days, year_le, -, -⟩ := steps
  have era_lt : era < 2 ^ 48 := by omega
  have doy_lt : doy < 2 ^ 18 := by omega
  have elapsed : fits (epoch / 86400 + 719468) = some (epoch / 86400 + 719468) := fits_eq (by omega)
  have eras : fits (era * 146097) = some (era * 146097) := fits_eq (by omega)
  have ofEra : less (epoch / 86400 + 719468) (era * 146097) = some doe := doe_eq ▸ less_eq (by omega)
  have fours : less doe (doe / 1460) = some (doe - doe / 1460) := less_eq (Nat.div_le_self _ _)
  have centuries : fits (doe - doe / 1460 + doe / 36524) = some (doe - doe / 1460 + doe / 36524) := fits_eq (by omega)
  have last : less (doe - doe / 1460 + doe / 36524) (doe / 146096) =
      some (doe - doe / 1460 + doe / 36524 - doe / 146096) := less_eq (by omega)
  have whole : fits (era * 400) = some (era * 400) := fits_eq (by omega)
  have year : fits (yoe + era * 400) = some (yoe + era * 400) := fits_eq (by omega)
  have plain : fits (365 * yoe) = some (365 * yoe) := fits_eq (by omega)
  have leap : fits (365 * yoe + yoe / 4) = some (365 * yoe + yoe / 4) := fits_eq (by omega)
  have century : less (365 * yoe + yoe / 4) (yoe / 100) = some (365 * yoe + yoe / 4 - yoe / 100) := less_eq (by omega)
  have ofYear : less doe (365 * yoe + yoe / 4 - yoe / 100) = some doy := doy_eq ▸ less_eq (year_days ▸ year_le)
  have fives : fits (5 * doy) = some (5 * doy) := fits_eq (by omega)
  have rounded : fits (5 * doy + 2) = some (5 * doy + 2) := fits_eq (by omega)
  have months : fits (153 * mp) = some (153 * mp) := fits_eq (by omega)
  have before : fits (153 * mp + 2) = some (153 * mp + 2) := fits_eq (by omega)
  have ofMonth : less doy (monthDays mp) = some (doy - monthDays mp) := less_eq month_le
  have day : fits (doy - monthDays mp + 1) = some (doy - monthDays mp + 1) := fits_eq (by omega)
  have next : fits (yoe + era * 400 + 1) = some (yoe + era * 400 + 1) := fits_eq (by omega)
  unfold epochToUtcChecked epochToUtc
  dsimp only
  rw [bind_of_eq elapsed, era_eq, bind_of_eq eras, bind_of_eq ofEra, doe_eq, bind_of_eq fours, bind_of_eq centuries,
    bind_of_eq last, yoe_eq, bind_of_eq whole, bind_of_eq year, bind_of_eq plain, bind_of_eq leap, bind_of_eq century,
    bind_of_eq ofYear, doy_eq, bind_of_eq fives, bind_of_eq rounded, mp_eq, bind_of_eq months, bind_of_eq before, monthed,
    bind_of_eq ofMonth, bind_of_eq day]
  by_cases summer : mp < 10
  · have month : fits (mp + 3) = some (mp + 3) := fits_eq (by omega)
    simp only [if_pos summer]
    rw [bind_of_eq month]
    simp only [if_neg (show ¬mp + 3 ≤ 2 by omega)]
    rfl
  · have month : less mp 9 = some (mp - 9) := less_eq (by omega)
    simp only [if_neg summer]
    rw [bind_of_eq month]
    simp only [if_pos (show mp - 9 ≤ 2 by omega)]
    rw [bind_of_eq next]

/-- The date first, then the time. -/
def inOrder : ℕ × ℕ × ℕ × ℕ × ℕ × ℕ → ℕ ×ₗ ℕ ×ₗ ℕ ×ₗ ℕ ×ₗ ℕ ×ₗ ℕ
  | (year, month, day, hour, min, sec) => toLex (year, toLex (month, toLex (day, toLex (hour, toLex (min, sec)))))

theorem epochToUtc_strict {earlier later : ℕ} (before : earlier < later) :
    inOrder (epochToUtc earlier) < inOrder (epochToUtc later) := by
  have former := epochToUtc_civil earlier
  have latter := epochToUtc_civil later
  generalize epochToUtc earlier = was at former ⊢
  generalize epochToUtc later = is at latter ⊢
  obtain ⟨year, month, day, hour, min, sec⟩ := was
  obtain ⟨year', month', day', hour', min', sec'⟩ := is
  obtain ⟨valid, since, hour_lt, min_lt, sec_lt, back⟩ := former
  obtain ⟨valid', since', hour_lt', min_lt', sec_lt', back'⟩ := latter
  simp only [inOrder, Prod.Lex.toLex_lt_toLex]
  -- A date that is not before the other one is the same or comes after it.
  by_cases sameDay : year' = year ∧ month' = month ∧ day' = day
  · obtain ⟨rfl, rfl, rfl⟩ := sameDay
    omega
  · by_contra notBefore
    have reversed := daysSince_strict valid' valid since' (by omega)
    omega

/-- **Timestamps are civil dates**: of every instant the date is one of the calendar and the time
one of the day, both convert back to it, nothing overflows on the way, and later instants have
later ones. -/
theorem timestamps_civil : (∀ epoch : Word 64, epochToUtcChecked epoch.val = some (epochToUtc epoch.val) ∧
    let (year, month, day, hour, min, sec) := epochToUtc epoch.val
    Valid year month day ∧ hour < 24 ∧ min < 60 ∧ sec < 60 ∧
      daysSince 1970 year month day * 86400 + hour * 3600 + min * 60 + sec = epoch.val) ∧
    StrictMono fun epoch : Word 64 => inOrder (epochToUtc epoch.val) := by
  refine ⟨fun epoch => ⟨epochToUtcChecked_eq epoch.isLt, ?_⟩, fun earlier later before => epochToUtc_strict before⟩
  obtain ⟨valid, -, time⟩ := epochToUtc_civil epoch.val
  exact ⟨valid, time⟩

/-- The leap day at the end of a cycle of four hundred years. -/
example : epochToUtc 951782400 = (2000, 2, 29, 0, 0, 0) := by decide

end Dates

end RndRust.Irc.Server
