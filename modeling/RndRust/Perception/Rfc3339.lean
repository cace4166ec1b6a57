import Mathlib.Data.Char
import Mathlib.Data.Prod.Lex
import RndRust.Lib.Calendar
import RndRust.Lib.Numerals
import RndRust.Perception.Pipeline

/-! UTC times and the text that `to_rfc3339` writes for them. The text has no digits, three, six or
nine behind the point, and is ordered like the times all the same. -/
namespace RndRust.Perception
open Lib

/-- `DateTime<Utc>` in the years 0 to 9999. The second is 60 in a leap second. -/
structure Timestamp where
  year : ℕ
  month : ℕ
  day : ℕ
  hour : ℕ
  minute : ℕ
  second : ℕ
  nanosecond : ℕ
  year_lt : year < 10 ^ 4
  date : Calendar.Valid year month day
  hour_lt : hour < 24
  minute_lt : minute < 60
  second_le : second ≤ 60
  nanosecond_lt : nanosecond < 10 ^ 9
  deriving DecidableEq

namespace Timestamp

/-- The date first, then the time. -/
def key (t : Timestamp) : ℕ ×ₗ ℕ ×ₗ ℕ ×ₗ ℕ ×ₗ ℕ ×ₗ ℕ ×ₗ ℕ :=
  toLex (t.year, toLex (t.month, toLex (t.day, toLex (t.hour, toLex (t.minute, toLex (t.second, t.nanosecond))))))

theorem key_injective : Function.Injective key := by
  intro t u same
  cases t
  cases u
  simpa [key] using same

instance : LinearOrder Timestamp := LinearOrder.lift' key key_injective

theorem lt_iff {t u : Timestamp} : t < u ↔
    t.year < u.year ∨ t.year = u.year ∧ (t.month < u.month ∨ t.month = u.month ∧ (t.day < u.day ∨ t.day = u.day ∧
      (t.hour < u.hour ∨ t.hour = u.hour ∧ (t.minute < u.minute ∨ t.minute = u.minute ∧
        (t.second < u.second ∨ t.second = u.second ∧ t.nanosecond < u.nanosecond))))) := by
  change t.key < u.key ↔ _
  simp only [key, Prod.Lex.toLex_lt_toLex]

end Timestamp

/-- The digits `0` to `9`. -/
def decimal : Numerals Char 10 where
  digit := Nat.digitChar
  digit_lt m n less short := by
    interval_cases n <;> interval_cases m <;> decide
  base_pos := by decide

/-- The digits behind the point, in groups of three. -/
def significant (n : ℕ) : Text :=
  if n % 10 ^ 6 = 0 then decimal.padded 3 (n / 10 ^ 6)
  else if n % 10 ^ 3 = 0 then decimal.padded 6 (n / 10 ^ 3)
  else decimal.padded 9 n

def fraction (n : ℕ) : Text := if n = 0 then [] else '.' :: significant n

/-- The offset of UTC. -/
def zone : Text := "+00:00".toList

/-- `to_rfc3339`. -/
def Timestamp.toRfc3339 (t : Timestamp) : Text :=
  decimal.padded 4 t.year ++ '-' :: (decimal.padded 2 t.month ++ '-' :: (decimal.padded 2 t.day ++ 'T' ::
    (decimal.padded 2 t.hour ++ ':' :: (decimal.padded 2 t.minute ++ ':' :: (decimal.padded 2 t.second ++
      (fraction t.nanosecond ++ zone))))))

section Order

variable {m n : ℕ} {t u : Timestamp}

theorem significant_padded (short : n < 10 ^ 9) : ∃ k, significant n ++ List.replicate k '0' = decimal.padded 9 n := by
  have thousands : ∀ k w, 10 ^ k ∣ n → n / 10 ^ k < 10 ^ w →
      decimal.padded (w + k) n = decimal.padded w (n / 10 ^ k) ++ List.replicate k '0' := by
    intro k w divides few
    have whole := decimal.padded_mul (k := k) few
    rwa [Nat.div_mul_cancel divides] at whole
  unfold significant
  split
  · rename_i six
    exact ⟨6, (thousands 6 3 (Nat.dvd_of_mod_eq_zero six) (by omega)).symm⟩
  · split
    · rename_i three
      exact ⟨3, (thousands 3 6 (Nat.dvd_of_mod_eq_zero three) (by omega)).symm⟩
    · exact ⟨0, List.append_nil _⟩

theorem zero_le_significant (short : n < 10 ^ 9) : ∀ c ∈ significant n, '0' ≤ c := by
  intro c listed
  obtain ⟨k, whole⟩ := significant_padded short
  exact decimal.le_of_mem_padded short (whole ▸ List.mem_append_left _ listed)

/-- The offset ends the digits, and it is less than the point and than any digit. -/
theorem fraction_lt (less : m < n) (short : n < 10 ^ 9) : fraction m ++ zone < fraction n ++ zone := by
  have later : fraction n = '.' :: significant n := if_neg (by omega)
  by_cases none : m = 0
  · rw [fraction, if_pos none, later, List.nil_append, List.cons_append]
    exact List.cons_lt_cons_iff.mpr (.inl (by decide))
  · have earlier : fraction m = '.' :: significant m := if_neg none
    rw [earlier, later, List.cons_append, List.cons_append, List.cons_lt_cons_iff]
    obtain ⟨i, first⟩ := significant_padded (less.trans short)
    obtain ⟨j, second⟩ := significant_padded short
    have ordered := decimal.padded_lt less short
    rw [← first, ← second] at ordered
    refine .inr ⟨rfl, ended_lt (by decide) (zero_le_significant (less.trans short)) (zero_le_significant short) ?_ ordered⟩
    rw [first, second, Numerals.length_padded, Numerals.length_padded]

/-- The earlier time has the lesser text. -/
theorem toRfc3339_strictMono : StrictMono Timestamp.toRfc3339 := by
  intro t u less
  have month := u.date.month_le
  have day := Calendar.day_le_31 u.date
  have hour := u.hour_lt
  have minute := u.minute_lt
  have second := u.second_le
  refine decimal.marked_lt u.year_lt ((Timestamp.lt_iff.mp less).imp_right (And.imp_right fun less => ?_))
  refine decimal.marked_lt (by omega) (less.imp_right (And.imp_right fun less => ?_))
  refine decimal.marked_lt (by omega) (less.imp_right (And.imp_right fun less => ?_))
  refine decimal.marked_lt (by omega) (less.imp_right (And.imp_right fun less => ?_))
  refine decimal.marked_lt (by omega) (less.imp_right (And.imp_right fun less => ?_))
  exact decimal.field_lt (by omega) (less.imp_right (And.imp_right fun less => fraction_lt less u.nanosecond_lt))

end Order

section Reading

variable {n w : ℕ} {mark : Char} {rest : Text}

/-- A field and the mark behind it. -/
def readMarked (w : ℕ) (mark : Char) (text : Text) : Option (ℕ × Text) :=
  (decimal.read w text).bind fun (n, rest) => if rest.head? = some mark then some (n, rest.tail) else none

/-- The nanoseconds in front of the offset. -/
def readFraction : Text → Option ℕ
  | '.' :: text =>
    let digits := text.takeWhile (· ≠ '+')
    (decimal.read 9 (digits ++ List.replicate (9 - digits.length) '0')).map Prod.fst
  | _ => some 0

/-- A time from its text, when the numbers in it name one. -/
def readRfc3339 (text : Text) : Option Timestamp := do
  let (year, text) ← readMarked 4 '-' text
  let (month, text) ← readMarked 2 '-' text
  let (day, text) ← readMarked 2 'T' text
  let (hour, text) ← readMarked 2 ':' text
  let (minute, text) ← readMarked 2 ':' text
  let (second, text) ← decimal.read 2 text
  let nanosecond ← readFraction text
  if named : (year < 10 ^ 4 ∧ 1 ≤ month ∧ month ≤ 12 ∧ 1 ≤ day ∧ day ≤ Calendar.monthLength year month) ∧
      hour < 24 ∧ minute < 60 ∧ second ≤ 60 ∧ nanosecond < 10 ^ 9 then
    some ⟨year, month, day, hour, minute, second, nanosecond, named.1.1,
      ⟨named.1.2.1, named.1.2.2.1, named.1.2.2.2.1, named.1.2.2.2.2⟩, named.2.1, named.2.2.1, named.2.2.2.1, named.2.2.2.2⟩
  else none

theorem readMarked_padded (short : n < 10 ^ w) : readMarked w mark (decimal.padded w n ++ mark :: rest) = some (n, rest) := by
  rw [readMarked, decimal.read_padded short]
  simp

theorem readFraction_fraction (short : n < 10 ^ 9) : readFraction (fraction n ++ zone) = some n := by
  by_cases none : n = 0
  · subst none
    rfl
  · obtain ⟨k, whole⟩ := significant_padded short
    have digits : (significant n ++ zone).takeWhile (· ≠ '+') = significant n := by
      rw [List.takeWhile_append_of_pos]
      · exact List.append_nil _
      · intro c listed
        exact decide_eq_true (lt_of_lt_of_le (by decide) (zero_le_significant short c listed)).ne'
    have length : 9 - (significant n).length = k := by
      have size := congrArg List.length whole
      rw [List.length_append, List.length_replicate, Numerals.length_padded] at size
      omega
    have read : decimal.read 9 (decimal.padded 9 n ++ []) = some (n, []) := decimal.read_padded short
    rw [List.append_nil, ← whole] at read
    rw [fraction, if_neg none, List.cons_append, readFraction, digits, length, read]
    rfl

/-- What is written is read back. -/
theorem readRfc3339_toRfc3339 (t : Timestamp) : readRfc3339 t.toRfc3339 = some t := by
  have month := t.date.month_le
  have day := Calendar.day_le_31 t.date
  have hour := t.hour_lt
  have minute := t.minute_lt
  have second := t.second_le
  simp only [readRfc3339, Timestamp.toRfc3339, Option.bind_eq_bind, readMarked_padded t.year_lt,
    readMarked_padded (by omega : t.month < 10 ^ 2), readMarked_padded (by omega : t.day < 10 ^ 2),
    readMarked_padded (by omega : t.hour < 10 ^ 2), readMarked_padded (by omega : t.minute < 10 ^ 2),
    decimal.read_padded (by omega : t.second < 10 ^ 2), readFraction_fraction t.nanosecond_lt, Option.bind_some]
  exact dif_pos ⟨⟨t.year_lt, t.date.month_pos, month, t.date.day_pos, t.date.day_le⟩, hour, minute, second, t.nanosecond_lt⟩

end Reading

end RndRust.Perception
