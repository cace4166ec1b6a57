import Mathlib.Algebra.Order.Group.Unbundled.Int
import Mathlib.Algebra.Order.Ring.Int
import RndRust.Thunder.Market

/-! The square root of the price at a tick. It is a product of constants, one for every bit of the
tick, each step rounded down, and still it never falls as the tick rises. -/
namespace RndRust.Thunder.Clmm
open Lib

def minTick : ℤ := -443636

def maxTick : ℤ := 443636

def minSqrtPriceX64 : ℕ := 4295048016

def maxSqrtPriceX64 : ℕ := 79226673521066979257578248091

/-- `MULTIPLIERS`: a bit of the tick and the constant for it. -/
def multipliers : List (ℕ × ℕ) := [
  (0x2, 0xfff97272373d4000),
  (0x4, 0xfff2e50f5f657000),
  (0x8, 0xffe5caca7e10f000),
  (0x10, 0xffcb9843d60f7000),
  (0x20, 0xff973b41fa98e800),
  (0x40, 0xff2ea16466c9b000),
  (0x80, 0xfe5dee046a9a3800),
  (0x100, 0xfcbe86c7900bb000),
  (0x200, 0xf987a7253ac65800),
  (0x400, 0xf3392b0822bb6000),
  (0x800, 0xe7159475a2caf000),
  (0x1000, 0xd097f3bdfd2f2000),
  (0x2000, 0xa9f746462d9f8000),
  (0x4000, 0x70d869a156f31c00),
  (0x8000, 0x31be135f97ed3200),
  (0x10000, 0x9aa508b5b85a500),
  (0x20000, 0x5d6af8dedc582c),
  (0x40000, 0x2216e584f5fa)]

/-- The ratio for a tick below zero. No product here needs more than 128 bits. -/
def ratioAt (absTick : ℕ) : ℕ :=
  multipliers.foldl (fun ratio (mask, mult) => if absTick &&& mask ≠ 0 then (ratio * mult) >>> 64 else ratio)
    (if absTick &&& 0x1 ≠ 0 then 0xfffcb933bd6fb800 else 1 <<< 64)

/-- The number that `get_sqrt_price_at_tick` computes for a tick in range. -/
def sqrtPrice (tick : ℤ) : ℕ :=
  if 0 < tick then (2 ^ 128 - 1) / ratioAt tick.natAbs else ratioAt tick.natAbs

def InRange (tick : ℤ) : Prop := minTick ≤ tick ∧ tick ≤ maxTick

instance (tick : ℤ) : Decidable (InRange tick) := inferInstanceAs (Decidable (_ ∧ _))

/-- `get_sqrt_price_at_tick`. -/
def getSqrtPriceAtTick (tick : ℤ) : Option U128 :=
  if InRange tick then some (Word.wrap (sqrtPrice tick)) else none

section Ratios

/-- The product of the constants for the bits of `n` below the `j`th. -/
def scaled (mult : ℕ → ℕ) : ℕ → ℕ → ℕ
  | 0, _ => 2 ^ 64
  | j + 1, n => if n.testBit j then (scaled mult j n * mult j) / 2 ^ 64 else scaled mult j n

/-- Each constant is at most the product of all the constants below it. -/
def Steep (mult : ℕ → ℕ) (count : ℕ) : Prop := ∀ j < count, mult j ≤ scaled mult j (2 ^ j - 1)

variable {mult : ℕ → ℕ} {j n m : ℕ}

theorem Steep.lower (steep : Steep mult (j + 1)) : Steep mult j :=
  fun i less => steep i (Nat.lt_succ_of_lt less)

theorem scaled_le (steep : Steep mult j) : scaled mult j n ≤ 2 ^ 64 := by
  induction j generalizing n with
  | zero => exact le_rfl
  | succ j ih =>
    have constant := (steep j (Nat.lt_succ_self j)).trans (ih steep.lower)
    rw [scaled]
    split
    · exact Nat.div_le_of_le_mul (Nat.mul_le_mul (ih steep.lower) constant)
    · exact ih steep.lower

theorem scaled_mod {k : ℕ} (le : j ≤ k) : scaled mult j (n % 2 ^ k) = scaled mult j n := by
  induction j with
  | zero => rfl
  | succ j ih =>
    rw [scaled, scaled, ih (Nat.le_of_succ_le le), Nat.testBit_mod_two_pow]
    simp [Nat.lt_of_succ_le le]

theorem testBit_top (small : n < 2 ^ (j + 1)) : n.testBit j = decide (2 ^ j ≤ n) := by
  by_cases high : 2 ^ j ≤ n
  · have one : n / 2 ^ j = 1 := Nat.div_eq_of_lt_le (by omega) (by rw [pow_succ] at small; omega)
    rw [Nat.testBit_eq_decide_div_mod_eq, one]
    simp [high]
  · rw [Nat.testBit_lt_two_pow (Nat.lt_of_not_le high)]
    simp [high]

/-- The product falls as the tick moves away from zero: where the first differing bit from the top is
on, its constant outweighs whatever the lower bits can do. -/
theorem scaled_antitone (steep : Steep mult j) (le : n ≤ m) (small : m < 2 ^ j) :
    scaled mult j m ≤ scaled mult j n := by
  induction j generalizing n m with
  | zero => exact le_rfl
  | succ j ih =>
    rw [scaled, scaled, testBit_top small, testBit_top (le.trans_lt small)]
    rw [pow_succ] at small
    by_cases highN : 2 ^ j ≤ n
    · -- Both have the bit, and the rest of them is in the same order.
      have highM := highN.trans le
      have rest := ih steep.lower (Nat.sub_le_sub_right le (2 ^ j)) (by omega)
      rw [← Nat.mod_eq_of_lt (show n - 2 ^ j < 2 ^ j by omega), ← Nat.mod_eq_sub_mod highN,
        ← Nat.mod_eq_of_lt (show m - 2 ^ j < 2 ^ j by omega), ← Nat.mod_eq_sub_mod highM,
        scaled_mod le_rfl, scaled_mod le_rfl] at rest
      simp only [highN, highM, decide_true, if_true]
      exact Nat.div_le_div_right (Nat.mul_le_mul_right _ rest)
    · simp only [highN, decide_false, Bool.false_eq_true, if_false]
      split
      · calc scaled mult j m * mult j / 2 ^ 64 ≤ mult j :=
              Nat.div_le_of_le_mul (Nat.mul_le_mul_right _ (scaled_le steep.lower))
          _ ≤ scaled mult j (2 ^ j - 1) := steep j (Nat.lt_succ_self j)
          _ ≤ scaled mult j n := ih steep.lower (by omega) (by have := Nat.two_pow_pos j; omega)
      case isFalse lowM => exact ih steep.lower le (by simpa using lowM)

/-- The constant for the `j`th bit. -/
def multAt (j : ℕ) : ℕ := (0xfffcb933bd6fb800 :: multipliers.map Prod.snd).getD j 0

theorem steep_multAt : Steep multAt 19 := by
  unfold Steep
  decide

theorem and_two_pow_ne_zero : n &&& 2 ^ j ≠ 0 ↔ n.testBit j := by
  constructor
  · refine fun some => by_contra fun off => some (Nat.eq_of_testBit_eq fun i => ?_)
    rw [Nat.testBit_and, Nat.testBit_two_pow, Nat.zero_testBit]
    by_cases here : j = i
    · subst here
      simp [off]
    · simp [here]
  · intro on none
    have bit := congrArg (Nat.testBit · j) none
    simp [on] at bit

/-- The loop over the constants is the product over the bits. -/
theorem foldl_scaled (ms : List (ℕ × ℕ)) (k : ℕ)
    (listed : ∀ i < ms.length, ms[i]? = some (2 ^ (k + i), mult (k + i))) :
    ms.foldl (fun ratio (mask, mult) => if n &&& mask ≠ 0 then (ratio * mult) >>> 64 else ratio)
      (scaled mult k n) = scaled mult (k + ms.length) n := by
  induction ms generalizing k with
  | nil => rfl
  | cons entry ms ih =>
    obtain ⟨mask, constant⟩ := entry
    have first : (mask, constant) = (2 ^ k, mult k) := by simpa using listed 0 (Nat.succ_pos _)
    obtain ⟨rfl, rfl⟩ := Prod.mk.inj first
    have rest (i : ℕ) (inside : i < ms.length) : ms[i]? = some (2 ^ (k + 1 + i), mult (k + 1 + i)) := by
      have later := listed (i + 1) (Nat.succ_lt_succ inside)
      rwa [List.getElem?_cons_succ, Nat.add_comm i 1, ← Nat.add_assoc] at later
    have step : (if n &&& 2 ^ k ≠ 0 then (scaled mult k n * mult k) >>> 64 else scaled mult k n)
        = scaled mult (k + 1) n := by
      rw [scaled, Nat.shiftRight_eq_div_pow]
      simp only [and_two_pow_ne_zero]
    rw [List.foldl_cons]
    simp only [step]
    rw [ ih (k + 1) rest, List.length_cons, Nat.add_assoc, Nat.add_comm 1]

theorem ratioAt_eq_scaled : ratioAt n = scaled multAt 19 n := by
  have first : (if n &&& 0x1 ≠ 0 then 0xfffcb933bd6fb800 else 1 <<< 64) = scaled multAt 1 n := by
    have bit := and_two_pow_ne_zero (n := n) (j := 0)
    rw [pow_zero] at bit
    simp only [bit, scaled]
    rfl
  rw [ratioAt, first, foldl_scaled multipliers 1 (by decide)]
  rfl

theorem ratioAt_antitone (le : n ≤ m) (small : m < 2 ^ 19) : ratioAt m ≤ ratioAt n := by
  rw [ratioAt_eq_scaled, ratioAt_eq_scaled]
  exact scaled_antitone steep_multAt le small

theorem ratioAt_le : ratioAt n ≤ 2 ^ 64 := by
  rw [ratioAt_eq_scaled]
  exact scaled_le steep_multAt

end Ratios

section Monotone

variable {t s : ℤ}

theorem natAbs_small (inside : InRange t) : t.natAbs < 2 ^ 19 := by
  obtain ⟨low, high⟩ := inside
  unfold minTick at low
  unfold maxTick at high
  omega

theorem ratioAt_pos (inside : InRange t) : 0 < ratioAt t.natAbs := by
  have far : ratioAt (2 ^ 19 - 1) ≤ ratioAt t.natAbs :=
    ratioAt_antitone (Nat.le_sub_one_of_lt (natAbs_small inside)) (by decide)
  exact Nat.lt_of_lt_of_le (by decide) far

/-- The price never falls as the tick rises. -/
theorem sqrtPrice_mono (le : s ≤ t) (first : InRange s) (second : InRange t) : sqrtPrice s ≤ sqrtPrice t := by
  unfold sqrtPrice
  split
  case isTrue positive =>
    rw [if_pos (positive.trans_le le)]
    exact Nat.div_le_div_left (ratioAt_antitone (by omega) (natAbs_small second)) (ratioAt_pos second)
  case isFalse low =>
    split
    case isTrue positive =>
      calc ratioAt s.natAbs ≤ 2 ^ 64 := ratioAt_le
        _ ≤ (2 ^ 128 - 1) / ratioAt 1 := by decide
        _ ≤ (2 ^ 128 - 1) / ratioAt t.natAbs :=
          Nat.div_le_div_left (ratioAt_antitone (by omega) (natAbs_small second)) (ratioAt_pos second)
    case isFalse => exact ratioAt_antitone (by omega) (natAbs_small first)

theorem sqrtPrice_minTick : sqrtPrice minTick = minSqrtPriceX64 := by decide

theorem sqrtPrice_maxTick : sqrtPrice maxTick = maxSqrtPriceX64 := by decide

theorem sqrtPrice_bounds (inside : InRange t) :
    minSqrtPriceX64 ≤ sqrtPrice t ∧ sqrtPrice t ≤ maxSqrtPriceX64 := by
  rw [← sqrtPrice_minTick, ← sqrtPrice_maxTick]
  exact ⟨sqrtPrice_mono inside.1 (by decide) inside, sqrtPrice_mono inside.2 inside (by decide)⟩

theorem getSqrtPriceAtTick_eq_some {p : U128} :
    getSqrtPriceAtTick t = some p ↔ InRange t ∧ p.val = sqrtPrice t := by
  unfold getSqrtPriceAtTick
  split
  case isTrue inside =>
    have small : sqrtPrice t < 2 ^ 128 := (sqrtPrice_bounds inside).2.trans_lt (by decide)
    rw [Option.some.injEq, Fin.ext_iff, Word.val_wrap, Nat.mod_eq_of_lt small]
    exact ⟨fun same => ⟨inside, same.symm⟩, fun same => same.2.symm⟩
  case isFalse outside => simp [outside]

end Monotone

end RndRust.Thunder.Clmm
