import Mathlib.Algebra.Order.Floor.Div
import Mathlib.Algebra.Order.Floor.Semifield
import Mathlib.Data.Rat.Floor
import Mathlib.Tactic.FieldSimp

/-! Quotients of natural numbers, rounded up or down. Rounding twice in one direction is rounding
once, and that is what the order of the divisions rests on. -/
namespace RndRust.Lib

variable {n d e m : ℕ} {up : Bool}

/-- The quotient of the numbers, rounded in the direction asked for. -/
def roundDiv (up : Bool) (n d : ℕ) : ℕ := if up then n ⌈/⌉ d else n / d

/-- The natural number next to a rational one in the direction asked for. -/
def rounded (up : Bool) (x : ℚ) : ℕ := if up then ⌈x⌉₊ else ⌊x⌋₊

@[simp] theorem roundDiv_true : roundDiv true n d = n ⌈/⌉ d := rfl

@[simp] theorem roundDiv_false : roundDiv false n d = n / d := rfl

/-- A division with rest rounds up by one more unless nothing is left. -/
theorem ceilDiv_eq_div_add (positive : 0 < d) : n ⌈/⌉ d = n / d + if n % d = 0 then 0 else 1 := by
  refine eq_of_forall_ge_iff fun m => ?_
  rw [ceilDiv_le_iff_le_mul positive]
  split
  case isTrue nothing =>
    obtain ⟨q, rfl⟩ := Nat.dvd_of_mod_eq_zero nothing
    rw [Nat.add_zero, Nat.mul_div_cancel_left _ positive, Nat.mul_le_mul_left_iff positive]
  case isFalse rest =>
    have apart : n ≠ d * m := by
      rintro rfl
      exact rest (Nat.mul_mod_right d m)
    rw [Nat.add_one_le_iff, Nat.div_lt_iff_lt_mul positive, Nat.mul_comm m]
    omega

theorem ceilDiv_ceilDiv (first : 0 < d) (second : 0 < e) : (n ⌈/⌉ d) ⌈/⌉ e = n ⌈/⌉ (d * e) := by
  refine eq_of_forall_ge_iff fun m => ?_
  rw [ceilDiv_le_iff_le_mul second, ceilDiv_le_iff_le_mul first,
    ceilDiv_le_iff_le_mul (Nat.mul_pos first second), Nat.mul_assoc]

theorem roundDiv_roundDiv (first : 0 < d) (second : 0 < e) :
    roundDiv up (roundDiv up n d) e = roundDiv up n (d * e) := by
  cases up with
  | false => exact Nat.div_div_eq_div_mul n d e
  | true => exact ceilDiv_ceilDiv first second

theorem roundDiv_eq_rounded (positive : 0 < d) : roundDiv up n d = rounded up (n / d : ℚ) := by
  cases up with
  | false => exact (Nat.floor_div_eq_div n d).symm
  | true =>
    refine eq_of_forall_ge_iff fun m => ?_
    change n ⌈/⌉ d ≤ m ↔ ⌈(n / d : ℚ)⌉₊ ≤ m
    have denominator : (0 : ℚ) < d := Nat.cast_pos.mpr positive
    rw [ceilDiv_le_iff_le_mul positive, Nat.ceil_le, div_le_iff₀ denominator, mul_comm (m : ℚ)]
    exact_mod_cast Iff.rfl

section Shares

variable {share fee : ℕ}

/-- What is left after a share that is rounded up is the other share, rounded down. -/
theorem sub_ceilDiv (positive : 0 < d) (whole : share + fee = d) : n - (n * fee) ⌈/⌉ d = n * share / d := by
  have within : (n * fee) ⌈/⌉ d ≤ n := by
    rw [ceilDiv_le_iff_le_mul positive, Nat.mul_comm d]
    exact Nat.mul_le_mul_left n (by omega)
  refine eq_of_forall_le_iff fun m => ?_
  rw [Nat.le_div_iff_mul_le positive, Nat.le_sub_iff_add_le within]
  have parts : n * share + n * fee = d * n := by rw [← Nat.mul_add, whole, Nat.mul_comm]
  constructor
  · intro fits
    have rest := (ceilDiv_le_iff_le_mul positive).mp (Nat.le_sub_of_add_le' fits)
    rw [Nat.mul_sub, Nat.mul_comm d m] at rest
    have below : m * d ≤ d * n := by
      rw [Nat.mul_comm m]
      exact Nat.mul_le_mul_left d (by omega)
    omega
  · intro fits
    have below : m ≤ n := Nat.le_of_mul_le_mul_left (show d * m ≤ d * n by rw [Nat.mul_comm d m]; omega) positive
    have rest : (n * fee) ⌈/⌉ d ≤ n - m := by
      rw [ceilDiv_le_iff_le_mul positive, Nat.mul_sub, Nat.mul_comm d m]
      omega
    omega

/-- The share of `n` covers an amount just when `n` covers it together with its own fee. -/
theorem add_ceilDiv_le_iff (positive : 0 < share) (whole : share + fee = d) :
    m + (m * fee) ⌈/⌉ share ≤ n ↔ m ≤ n * share / d := by
  subst whole
  rw [Nat.le_div_iff_mul_le (by omega)]
  constructor
  · intro fits
    have rest := (ceilDiv_le_iff_le_mul positive).mp (Nat.le_sub_of_add_le' fits)
    obtain ⟨left, rfl⟩ := Nat.exists_eq_add_of_le ((Nat.le_add_right m _).trans fits)
    rw [Nat.add_sub_cancel_left] at rest
    lia
  · intro below
    obtain ⟨left, rfl⟩ : ∃ left, n = m + left := by
      refine Nat.exists_eq_add_of_le (Nat.le_of_mul_le_mul_right ?_ positive)
      exact (Nat.mul_le_mul_left m (Nat.le_add_right _ _)).trans below
    rw [Nat.add_le_add_iff_left, ceilDiv_le_iff_le_mul positive]
    lia

end Shares

end RndRust.Lib
