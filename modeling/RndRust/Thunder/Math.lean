import RndRust.Lib.Rounding
import RndRust.Thunder.U512

/-! The fixed-point arithmetic of the pools with concentrated liquidity. A square root of a price is
kept as a number of 64 binary places. -/
namespace RndRust.Thunder
open Lib

variable {a b d denom q sqrtPrice liquidity amount sqrtA sqrtB : U128} {roundUp : Bool}

def Q64 : U128 := ⟨2 ^ 64, by decide⟩

/-- `mul_div_floor`. -/
def mulDivFloor (a b denom : U128) : Option U128 := do
  let prod ← (U512.fromU128 a).checkedMulU128 b
  let (q, _) ← prod.divRem (U512.fromU128 denom)
  q.toU128

/-- `mul_div_ceil`. -/
def mulDivCeil (a b denom : U128) : Option U128 := do
  let prod ← (U512.fromU128 a).checkedMulU128 b
  let (q, r) ← prod.divRem (U512.fromU128 denom)
  let q ← q.toU128
  if r.isZero then some q else q.checkedAdd 1

/-- `get_amount_0_delta`. -/
def getAmount0Delta (sqrtA sqrtB liquidity : U128) (roundUp : Bool) : Option U128 :=
  let (lo, hi) := if sqrtA ≤ sqrtB then (sqrtA, sqrtB) else (sqrtB, sqrtA)
  if lo = 0 then none
  else do
    let num1 ← (U512.fromU128 liquidity).checkedShl64
    let num2 := hi - lo
    let prod ← num1.checkedMulU128 num2
    let (q1, r1) ← prod.divRem (U512.fromU128 hi)
    if roundUp then do
      let raised := if r1.isZero then some q1 else q1.checkedAdd (U512.fromU128 1)
      let q1 ← raised
      let (q2, r2) ← q1.divRem (U512.fromU128 lo)
      let q2 ← q2.toU128
      if r2.isZero then some q2 else q2.checkedAdd 1
    else do
      let (q2, _) ← q1.divRem (U512.fromU128 lo)
      q2.toU128

/-- `get_amount_1_delta`. -/
def getAmount1Delta (sqrtA sqrtB liquidity : U128) (roundUp : Bool) : Option U128 :=
  let (lo, hi) := if sqrtA ≤ sqrtB then (sqrtA, sqrtB) else (sqrtB, sqrtA)
  if roundUp then mulDivCeil liquidity (hi - lo) Q64 else mulDivFloor liquidity (hi - lo) Q64

/-- `next_sqrt_price_from_amount_0_in`. -/
def nextSqrtPriceFromAmount0In (sqrtPrice liquidity amount : U128) : Option U128 :=
  if amount = 0 then some sqrtPrice
  else do
    let numerator ← (U512.fromU128 liquidity).checkedShl64
    let product ← (U512.fromU128 amount).checkedMulU128 sqrtPrice
    let denominator ← numerator.checkedAdd product
    let n ← numerator.checkedMulU128 sqrtPrice
    let (q, r) ← n.divRem denominator
    let q ← q.toU128
    if r.isZero then some q else q.checkedAdd 1

/-- `next_sqrt_price_from_amount_1_in`. -/
def nextSqrtPriceFromAmount1In (sqrtPrice liquidity amount : U128) : Option U128 :=
  if amount = 0 then some sqrtPrice
  else if liquidity = 0 then none
  else do
    let quotient ← mulDivFloor amount Q64 liquidity
    sqrtPrice.checkedAdd quotient

@[simp] theorem val_one : (1 : U128).val = 1 := rfl

@[simp] theorem val_Q64 : Q64.val = 2 ^ 64 := rfl

/-- The last lines of every division that rounds up. -/
theorem ceil_of_parts {q r : U512} {n m : ℕ} (positive : 0 < m) (quotient : q.toNat = n / m)
    (rem : r.toNat = n % m) :
    (q.toU128.bind fun q => if r.isZero then some q else q.checkedAdd 1) = Word.tryFrom (n ⌈/⌉ m) := by
  rw [U512.toU128_eq, quotient, ceilDiv_eq_div_add positive]
  simp only [U512.isZero_iff, rem]
  split
  case isTrue => simp
  case isFalse =>
    refine Option.ext fun d => ?_
    simp only [Option.bind_eq_some_iff, Word.tryFrom_eq_some, Word.checkedAdd_eq_some, val_one]
    constructor
    · rintro ⟨floor, is, above⟩
      rw [is, above]
    · intro above
      exact ⟨⟨n / m, by omega⟩, rfl, above⟩

theorem add_lt_two_pow_succ {n m k : ℕ} (first : n < 2 ^ k) (second : m < 2 ^ k) : n + m < 2 ^ (k + 1) :=
  (Nat.add_lt_add first second).trans_eq (Nat.two_pow_succ k).symm

theorem exists_raised {q r : U512} {n m : ℕ} (positive : 0 < m) (quotient : q.toNat = n / m)
    (rem : r.toNat = n % m) (room : n < 2 ^ 320) :
    ∃ c, (if r.isZero then some q else q.checkedAdd (U512.fromU128 1)) = some c ∧ c.toNat = n ⌈/⌉ m := by
  rw [ceilDiv_eq_div_add positive]
  simp only [U512.isZero_iff, rem]
  split
  case isTrue => exact ⟨q, rfl, quotient⟩
  case isFalse =>
    have small := Nat.div_le_self n m
    have fits : q.toNat + (U512.fromU128 1).toNat < U512.capacity := by
      rw [U512.toNat_fromU128, val_one, quotient]
      have bound : n / m + 1 < 2 ^ 321 := by omega
      exact U512.lt_capacity bound (by decide)
    obtain ⟨c, made, is⟩ := U512.exists_checkedAdd fits
    rw [U512.toNat_fromU128, val_one, quotient] at is
    exact ⟨c, made, is⟩

theorem exists_product (a b : U128) :
    ∃ c, (U512.fromU128 a).checkedMulU128 b = some c ∧ c.toNat = a.val * b.val := by
  have fits : (U512.fromU128 a).toNat * b.val < U512.capacity := by
    rw [U512.toNat_fromU128]
    have bound : a.val * b.val < 2 ^ 256 :=
      (Nat.mul_lt_mul'' a.isLt b.isLt).trans_eq (by rw [← pow_add])
    exact U512.lt_capacity bound (by decide)
  obtain ⟨c, made, is⟩ := U512.exists_checkedMulU128 fits
  exact ⟨c, made, by rw [is, U512.toNat_fromU128]⟩

theorem exists_shifted (a : U128) :
    ∃ c, (U512.fromU128 a).checkedShl64 = some c ∧ c.toNat = a.val * 2 ^ 64 := by
  have fits : (U512.fromU128 a).toNat * 2 ^ 64 < U512.capacity := by
    rw [U512.toNat_fromU128]
    have bound : a.val * 2 ^ 64 < 2 ^ 192 := by have := a.isLt; omega
    exact U512.lt_capacity bound (by decide)
  obtain ⟨c, made, is⟩ := U512.exists_checkedShl64 fits
  exact ⟨c, made, by rw [is, U512.toNat_fromU128]⟩

/-- What is shifted up can still be multiplied. -/
theorem exists_shifted_product {num : U512} (shifted : num.toNat = a.val * 2 ^ 64) (b : U128) :
    ∃ c, num.checkedMulU128 b = some c ∧ c.toNat = a.val * 2 ^ 64 * b.val ∧ c.toNat < 2 ^ 320 := by
  have bound : a.val * 2 ^ 64 * b.val < 2 ^ 320 := by
    calc a.val * 2 ^ 64 * b.val < 2 ^ 192 * 2 ^ 128 :=
          Nat.mul_lt_mul'' (by have := a.isLt; omega) b.isLt
      _ = 2 ^ 320 := by rw [← pow_add]
  obtain ⟨c, made, is⟩ := U512.exists_checkedMulU128 (a := num) (v := b)
    (by rw [shifted]; exact U512.lt_capacity bound (by decide))
  rw [shifted] at is
  exact ⟨c, made, is, is ▸ bound⟩

theorem mulDivFloor_eq : mulDivFloor a b denom
    = if denom.val = 0 then none else Word.tryFrom (a.val * b.val / denom.val) := by
  obtain ⟨prod, made, product⟩ := exists_product a b
  unfold mulDivFloor
  rw [made]
  split
  case isTrue nothing => simp [U512.divRem_eq_none (b := U512.fromU128 denom) (by simpa using nothing)]
  case isFalse positive =>
    obtain ⟨q, r, divided, quotient, -⟩ := U512.exists_divRem (a := prod) (b := U512.fromU128 denom)
      (by simpa using Nat.pos_of_ne_zero positive)
    rw [product, U512.toNat_fromU128] at quotient
    simp [divided, quotient]

theorem mulDivCeil_eq : mulDivCeil a b denom
    = if denom.val = 0 then none else Word.tryFrom ((a.val * b.val) ⌈/⌉ denom.val) := by
  obtain ⟨prod, made, product⟩ := exists_product a b
  unfold mulDivCeil
  rw [made]
  split
  case isTrue nothing => simp [U512.divRem_eq_none (b := U512.fromU128 denom) (by simpa using nothing)]
  case isFalse positive =>
    have positive := Nat.pos_of_ne_zero positive
    obtain ⟨q, r, divided, quotient, rem⟩ := U512.exists_divRem (a := prod) (b := U512.fromU128 denom)
      (by simpa using positive)
    rw [product, U512.toNat_fromU128] at quotient rem
    simp only [Option.bind_eq_bind, Option.bind_some, divided]
    exact ceil_of_parts positive quotient rem

theorem capacity_eq : U512.capacity = 2 ^ 512 := congrArg (2 ^ ·) (show 64 * 8 = 512 from rfl)

/-- Wide arithmetic is the arithmetic of the natural numbers, and refuses exactly what does not
fit. -/
theorem wide_arithmetic_exact :
    (∀ n d : U512, 0 < d.toNat → ∃ q r, n.divRem d = some (q, r) ∧ q.toNat = n.toNat / d.toNat ∧
      r.toNat = n.toNat % d.toNat) ∧
    (∀ (n : U512) (v : U128), (n.checkedMulU128 v = none ↔ 2 ^ 512 ≤ n.toNat * v.val) ∧
      ∀ c, n.checkedMulU128 v = some c → c.toNat = n.toNat * v.val) ∧
    ∀ a b denom : U128,
      (mulDivFloor a b denom = none ↔ denom = 0 ∨ 2 ^ 128 ≤ a.val * b.val / denom.val) ∧
      (∀ q, mulDivFloor a b denom = some q → q.val = a.val * b.val / denom.val) ∧
      (mulDivCeil a b denom = none ↔ denom = 0 ∨ 2 ^ 128 ≤ (a.val * b.val) ⌈/⌉ denom.val) ∧
      ∀ q, mulDivCeil a b denom = some q → q.val = (a.val * b.val) ⌈/⌉ denom.val := by
  refine ⟨fun n d positive => U512.exists_divRem positive, fun n v => ⟨?_, fun c multiplied => ?_⟩,
    fun a b denom => ?_⟩
  · rw [← capacity_eq, U512.checkedMulU128_eq_none]
  · exact (U512.checkedMulU128_eq_some.mp multiplied).symm
  · rw [mulDivFloor_eq, mulDivCeil_eq, ← Fin.val_eq_zero_iff]
    by_cases nothing : denom.val = 0
    · simp [nothing]
    · simp only [nothing, if_false, false_or, Word.tryFrom_eq_none, Word.tryFrom_eq_some, true_and]
      exact ⟨fun q is => is.symm, fun q is => is.symm⟩

theorem val_sub_of_le (le : a ≤ b) : (b - a).val = b.val - a.val := Fin.sub_val_of_le le

theorem getAmount0Delta_comm :
    getAmount0Delta sqrtA sqrtB liquidity roundUp = getAmount0Delta sqrtB sqrtA liquidity roundUp := by
  obtain below | rfl | above := lt_trichotomy sqrtA sqrtB
  · simp only [getAmount0Delta, below.le, below.not_ge, if_true, if_false]
  · rfl
  · simp only [getAmount0Delta, above.le, above.not_ge, if_true, if_false]

theorem getAmount1Delta_comm :
    getAmount1Delta sqrtA sqrtB liquidity roundUp = getAmount1Delta sqrtB sqrtA liquidity roundUp := by
  obtain below | rfl | above := lt_trichotomy sqrtA sqrtB
  · simp only [getAmount1Delta, below.le, below.not_ge, if_true, if_false]
  · rfl
  · simp only [getAmount1Delta, above.le, above.not_ge, if_true, if_false]

theorem getAmount0Delta_of_le (le : sqrtA ≤ sqrtB) : getAmount0Delta sqrtA sqrtB liquidity roundUp
    = if sqrtA.val = 0 then none else Word.tryFrom (roundDiv roundUp
        (liquidity.val * 2 ^ 64 * (sqrtB.val - sqrtA.val)) (sqrtB.val * sqrtA.val)) := by
  simp only [getAmount0Delta, le, if_true]
  split
  case isTrue nothing => simp [nothing]
  case isFalse positive =>
    have low : 0 < sqrtA.val := Nat.pos_of_ne_zero fun zero => positive (Fin.ext zero)
    have high : 0 < sqrtB.val := low.trans_le le
    obtain ⟨num, shifted, num_is⟩ := exists_shifted liquidity
    obtain ⟨prod, made, product, bound⟩ := exists_shifted_product num_is (sqrtB - sqrtA)
    obtain ⟨q1, r1, divided, quotient, rem⟩ := U512.exists_divRem (a := prod) (b := U512.fromU128 sqrtB)
      (by rwa [U512.toNat_fromU128])
    rw [val_sub_of_le le] at product
    rw [U512.toNat_fromU128, product] at quotient rem
    rw [if_neg low.ne', ← roundDiv_roundDiv high low]
    simp only [shifted, made, divided, Option.bind_eq_bind, Option.bind_some]
    cases roundUp with
    | false =>
      obtain ⟨q2, r2, again, second, -⟩ := U512.exists_divRem (a := q1) (b := U512.fromU128 sqrtA)
        (by rwa [U512.toNat_fromU128])
      rw [U512.toNat_fromU128, quotient] at second
      simp [again, second, roundDiv]
    | true =>
      obtain ⟨q1', raised, rounded⟩ := exists_raised high quotient rem (product ▸ bound)
      obtain ⟨q2, r2, again, second, left⟩ := U512.exists_divRem (a := q1') (b := U512.fromU128 sqrtA)
        (by rwa [U512.toNat_fromU128])
      rw [U512.toNat_fromU128, rounded] at second left
      simp only [raised, again, Option.bind_some, if_true]
      exact ceil_of_parts low second left

theorem getAmount1Delta_of_le (le : sqrtA ≤ sqrtB) : getAmount1Delta sqrtA sqrtB liquidity roundUp
    = Word.tryFrom (roundDiv roundUp (liquidity.val * (sqrtB.val - sqrtA.val)) (2 ^ 64)) := by
  cases roundUp with
  | false => simp [getAmount1Delta, le, mulDivFloor_eq, val_sub_of_le le, roundDiv]
  | true => simp [getAmount1Delta, le, mulDivCeil_eq, val_sub_of_le le, roundDiv]

theorem nextSqrtPriceFromAmount0In_eq (positive : 0 < liquidity.val) :
    nextSqrtPriceFromAmount0In sqrtPrice liquidity amount = Word.tryFrom
      ((liquidity.val * 2 ^ 64 * sqrtPrice.val) ⌈/⌉ (liquidity.val * 2 ^ 64 + amount.val * sqrtPrice.val)) := by
  unfold nextSqrtPriceFromAmount0In
  have scaled : 0 < liquidity.val * 2 ^ 64 := Nat.mul_pos positive (Nat.two_pow_pos 64)
  split
  case isTrue nothing =>
    rw [nothing, Fin.val_zero, Nat.zero_mul, Nat.add_zero, ← smul_eq_mul _ sqrtPrice.val,
      smul_ceilDiv scaled, Word.tryFrom_val]
  case isFalse some =>
    obtain ⟨num, shifted, num_is⟩ := exists_shifted liquidity
    obtain ⟨product, multiplied, product_is⟩ := exists_product amount sqrtPrice
    have first : num.toNat < 2 ^ 256 := by have := liquidity.isLt; omega
    have second : product.toNat < 2 ^ 256 :=
      product_is ▸ (Nat.mul_lt_mul'' amount.isLt sqrtPrice.isLt).trans_eq (by rw [← pow_add])
    have narrow := add_lt_two_pow_succ first second
    obtain ⟨denominator, sum, denominator_is⟩ := U512.exists_checkedAdd
      (U512.lt_capacity narrow (by decide))
    obtain ⟨n, numerator, n_is, -⟩ := exists_shifted_product num_is sqrtPrice
    rw [num_is, product_is] at denominator_is
    obtain ⟨q, r, divided, quotient, rem⟩ := U512.exists_divRem (a := n) (b := denominator)
      (by rw [denominator_is]; exact Nat.add_pos_left scaled _)
    rw [n_is, denominator_is] at quotient rem
    simp only [shifted, multiplied, sum, numerator, divided, Option.bind_eq_bind, Option.bind_some]
    exact ceil_of_parts (Nat.add_pos_left scaled _) quotient rem

theorem nextSqrtPriceFromAmount1In_eq (positive : 0 < liquidity.val) :
    nextSqrtPriceFromAmount1In sqrtPrice liquidity amount
      = Word.tryFrom (sqrtPrice.val + amount.val * 2 ^ 64 / liquidity.val) := by
  unfold nextSqrtPriceFromAmount1In
  split
  case isTrue nothing => simp [nothing]
  case isFalse some =>
    rw [if_neg fun zero => positive.ne' (congrArg Fin.val zero), mulDivFloor_eq, if_neg positive.ne']
    refine Option.ext fun d => ?_
    simp only [Option.bind_eq_bind, Option.bind_eq_some_iff, Word.tryFrom_eq_some,
      Word.checkedAdd_eq_some, val_Q64]
    constructor
    · rintro ⟨quotient, is, sum⟩
      rw [is, sum]
    · intro sum
      exact ⟨⟨_, (Nat.le_add_left _ _).trans_lt (sum.trans_lt d.isLt)⟩, rfl, sum⟩

end RndRust.Thunder
