import RndRust.Thunder.Clmm.TickMath

/-! Prices at different ticks are different. What rounding takes from a product of constants is
less than what two ticks are apart at the bit where they part, and the distance that is left is
followed from bit to bit. -/
namespace RndRust.Thunder.Clmm
open Lib

/-- The loop of `get_sqrt_price_at_tick` on `u128`, where a product that overflows fails. -/
def ratioAtChecked (absTick : ℕ) : Option ℕ :=
  multipliers.foldlM
    (fun ratio (mask, mult) =>
      if absTick &&& mask ≠ 0 then if ratio * mult < 2 ^ 128 then some ((ratio * mult) >>> 64) else none
      else some ratio)
    (if absTick &&& 0x1 ≠ 0 then 0xfffcb933bd6fb800 else 1 <<< 64)

section Overflow

variable {absTick ratio : ℕ}

theorem foldlM_checked {ms : List (ℕ × ℕ)} (constants : ∀ entry ∈ ms, entry.2 < 2 ^ 64) (small : ratio ≤ 2 ^ 64) :
    ms.foldlM (m := Option) (fun ratio (mask, mult) =>
        if absTick &&& mask ≠ 0 then if ratio * mult < 2 ^ 128 then some ((ratio * mult) >>> 64) else none
        else some ratio) ratio =
      some (ms.foldl (fun ratio (mask, mult) => if absTick &&& mask ≠ 0 then (ratio * mult) >>> 64 else ratio) ratio) := by
  induction ms generalizing ratio with
  | nil => rfl
  | cons entry ms ih =>
    obtain ⟨mask, mult⟩ := entry
    obtain ⟨constant, constants⟩ := List.forall_mem_cons.mp constants
    have product : ratio * mult < 2 ^ 64 * 2 ^ 64 := Nat.mul_lt_mul_of_le_of_lt small constant (by decide)
    rw [List.foldlM_cons, List.foldl_cons]
    by_cases on : absTick &&& mask ≠ 0
    · have next : (ratio * mult) >>> 64 ≤ 2 ^ 64 := by
        rw [Nat.shiftRight_eq_div_pow]
        omega
      simp only [if_pos on, if_pos (show ratio * mult < 2 ^ 128 by omega)]
      exact ih constants next
    · simp only [if_neg on]
      exact ih constants small

/-- No product needs more than 128 bits. -/
theorem ratioAtChecked_eq (absTick : ℕ) : ratioAtChecked absTick = some (ratioAt absTick) := by
  refine foldlM_checked (by decide) ?_
  split <;> decide

end Overflow

section Gaps

variable {mult : ℕ → ℕ} {j n m gap : ℕ}

/-- How far the products for two numbers below `2 ^ j` are apart at least. Either the `j`th bit
parts them, or they are parted below it and what parts them is scaled down. -/
def gapBelow (mult : ℕ → ℕ) : ℕ → ℕ
  | 0 => 2 ^ 64
  | j + 1 => min (gapBelow mult j * mult j / 2 ^ 64) (scaled mult j (2 ^ j - 1) - mult j)

/-- Rounding keeps a distance that is scaled down. -/
theorem scaled_gap {a b factor : ℕ} (apart : b + gap ≤ a) :
    b * factor / 2 ^ 64 + gap * factor / 2 ^ 64 ≤ a * factor / 2 ^ 64 :=
  calc b * factor / 2 ^ 64 + gap * factor / 2 ^ 64 ≤ (b * factor + gap * factor) / 2 ^ 64 := Nat.div_add_div_le_add_div
    _ = (b + gap) * factor / 2 ^ 64 := by rw [Nat.add_mul]
    _ ≤ a * factor / 2 ^ 64 := Nat.div_le_div_right (Nat.mul_le_mul_right factor apart)

/-- The products for two numbers are as far apart as the gap says. -/
theorem scaled_apart (steep : Steep mult j) (less : n < m) (small : m < 2 ^ j) :
    scaled mult j m + gapBelow mult j ≤ scaled mult j n := by
  induction j generalizing n m with
  | zero => omega
  | succ j ih =>
    have constant : mult j ≤ 2 ^ 64 := (steep j (Nat.lt_succ_self j)).trans (scaled_le steep.lower)
    rw [scaled, scaled, testBit_top small, testBit_top (less.trans small), gapBelow]
    rw [pow_succ] at small
    by_cases highN : 2 ^ j ≤ n
    · -- Both have the bit, and the rest of them is as far apart as below it.
      have highM := highN.trans less.le
      have rest := ih steep.lower (show n - 2 ^ j < m - 2 ^ j by omega) (by omega)
      rw [← Nat.mod_eq_of_lt (show n - 2 ^ j < 2 ^ j by omega), ← Nat.mod_eq_sub_mod highN,
        ← Nat.mod_eq_of_lt (show m - 2 ^ j < 2 ^ j by omega), ← Nat.mod_eq_sub_mod highM,
        scaled_mod le_rfl, scaled_mod le_rfl] at rest
      simp only [highN, highM, decide_true, if_true]
      exact (Nat.add_le_add_left (min_le_left _ _) _).trans (scaled_gap rest)
    · simp only [highN, decide_false, Bool.false_eq_true, if_false]
      by_cases highM : 2 ^ j ≤ m
      · -- The bit parts them: its constant is below all that the lower bits can come to.
        simp only [highM, decide_true, if_true]
        have below : scaled mult j m * mult j / 2 ^ 64 ≤ mult j :=
          Nat.div_le_of_le_mul (Nat.mul_le_mul_right _ (scaled_le steep.lower))
        have above : scaled mult j (2 ^ j - 1) ≤ scaled mult j n :=
          scaled_antitone steep.lower (by omega) (by have := Nat.two_pow_pos j; omega)
        have steepest := steep j (Nat.lt_succ_self j)
        have right : min (gapBelow mult j * mult j / 2 ^ 64) (scaled mult j (2 ^ j - 1) - mult j) ≤
          scaled mult j (2 ^ j - 1) - mult j := min_le_right _ _
        omega
      · simp only [highM, decide_false, Bool.false_eq_true, if_false]
        have rest := ih steep.lower less (by omega)
        have down : gapBelow mult j * mult j / 2 ^ 64 ≤ gapBelow mult j :=
          Nat.div_le_of_le_mul (by rw [Nat.mul_comm]; exact Nat.mul_le_mul_right _ constant)
        exact (Nat.add_le_add_left ((min_le_left _ _).trans down) _).trans rest

theorem gapBelow_multAt : 0 < gapBelow multAt 19 := by decide

theorem ratioAt_strict (less : n < m) (small : m < 2 ^ 19) : ratioAt m < ratioAt n := by
  rw [ratioAt_eq_scaled, ratioAt_eq_scaled]
  exact Nat.lt_of_lt_of_le (Nat.lt_add_of_pos_right gapBelow_multAt) (scaled_apart steep_multAt less small)

/-- Quotients of a number by two small ones are different. -/
theorem div_strict {a b top : ℕ} (less : b < a) (small : a * b ≤ top) (pos : 0 < b) : top / a < top / b := by
  have fits : b ≤ top / a := (Nat.le_div_iff_mul_le (pos.trans less)).mpr (by rwa [Nat.mul_comm])
  have back : top / a * a ≤ top := Nat.div_mul_le_self _ _
  have next : (top / a + 1) * b ≤ top :=
    calc (top / a + 1) * b = top / a * b + b := Nat.succ_mul _ _
      _ ≤ top / a * b + top / a := Nat.add_le_add_left fits _
      _ = top / a * (b + 1) := rfl
      _ ≤ top / a * a := Nat.mul_le_mul_left _ less
      _ ≤ top := back
  exact Nat.lt_of_lt_of_le (Nat.lt_succ_self _) ((Nat.le_div_iff_mul_le pos).mpr next)

end Gaps

section Prices

variable {s t : ℤ}

/-- The price rises with the tick. -/
theorem sqrtPrice_strict (less : s < t) (first : InRange s) (second : InRange t) : sqrtPrice s < sqrtPrice t := by
  unfold sqrtPrice
  by_cases positive : 0 < s
  · rw [if_pos positive, if_pos (positive.trans less)]
    have apart := ratioAt_strict (show s.natAbs < t.natAbs by omega) (natAbs_small second)
    have product : ratioAt s.natAbs * ratioAt t.natAbs ≤ 2 ^ 128 - 1 :=
      calc ratioAt s.natAbs * ratioAt t.natAbs ≤ 2 ^ 64 * (2 ^ 64 - 1) :=
            Nat.mul_le_mul ratioAt_le (Nat.le_sub_one_of_lt (apart.trans_le ratioAt_le))
        _ ≤ 2 ^ 128 - 1 := by decide
    exact div_strict apart product (ratioAt_pos second)
  · rw [if_neg positive]
    split
    case isTrue above =>
      calc ratioAt s.natAbs ≤ 2 ^ 64 := ratioAt_le
        _ < (2 ^ 128 - 1) / ratioAt 1 := by decide
        _ ≤ (2 ^ 128 - 1) / ratioAt t.natAbs :=
          Nat.div_le_div_left (ratioAt_antitone (by omega) (natAbs_small second)) (ratioAt_pos second)
    case isFalse => exact ratioAt_strict (by omega) (natAbs_small first)

theorem sqrtPrice_pos (inside : InRange t) : 0 < sqrtPrice t :=
  Nat.lt_of_lt_of_le (by decide) (sqrtPrice_bounds inside).1

/-- **Tick to price is strictly monotone**: every tick in range has a positive price, no product
on the way to it overflows, and of two ticks the higher one has the higher price. -/
theorem getSqrtPriceAtTick_strict : (∀ tick, InRange tick → ratioAtChecked tick.natAbs = some (ratioAt tick.natAbs) ∧
      ∃ p, getSqrtPriceAtTick tick = some p ∧ 0 < p.val ∧ p.val = sqrtPrice tick) ∧
    ∀ s t p q, getSqrtPriceAtTick s = some p → getSqrtPriceAtTick t = some q → s < t → p < q := by
  refine ⟨fun tick inside => ⟨ratioAtChecked_eq _, ?_⟩, fun s t p q first second less => ?_⟩
  · have small : sqrtPrice tick < 2 ^ 128 := (sqrtPrice_bounds inside).2.trans_lt (by decide)
    exact ⟨⟨sqrtPrice tick, small⟩, getSqrtPriceAtTick_eq_some.mpr ⟨inside, rfl⟩, sqrtPrice_pos inside, rfl⟩
  · obtain ⟨insideS, priceS⟩ := getSqrtPriceAtTick_eq_some.mp first
    obtain ⟨insideT, priceT⟩ := getSqrtPriceAtTick_eq_some.mp second
    rw [Fin.lt_def, priceS, priceT]
    exact sqrtPrice_strict less insideS insideT

end Prices

end RndRust.Thunder.Clmm
