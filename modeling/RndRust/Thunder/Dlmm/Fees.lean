import RndRust.Thunder.Dlmm.BinMath

/-! The fee arithmetic of the bin pools with every overflow noticed: a result of `none` is a panic, or a
wrong number in a build without the checks. -/
namespace RndRust.Thunder.Dlmm
open Lib Clmm

/-- The result of an operation on `i64`. -/
def checkedI64 (n : ℤ) : Option ℤ := if -2 ^ 63 ≤ n ∧ n < 2 ^ 63 then some n else none

theorem sixteen_le : 16 ≤ 128 := by decide

theorem thirtyTwo_le : 32 ≤ 128 := by decide

namespace DlmmPairState

variable (pair : DlmmPairState)

/-- `base_fee_rate`. -/
def checkedBaseFeeRate : Option U128 := do
  let factor : U128 := pair.baseFactor.widen sixteen_le
  let binStep : U128 := pair.binStep.widen sixteen_le
  let power ← Word.tryFrom (10 ^ pair.baseFeePowerFactor.val)
  some (((factor.saturatingMul binStep).saturatingMul 10).saturatingMul power)

/-- `variable_fee_rate` under a control that is not zero. -/
def checkedControlledFeeRate (volatilityAccumulator : Word 32) : Option U128 := do
  let accumulator : U128 := volatilityAccumulator.widen thirtyTwo_le
  let binStep : U128 := pair.binStep.widen sixteen_le
  let control : U128 := pair.variableFeeControl.widen thirtyTwo_le
  let vfaBin := accumulator.saturatingMul binStep
  let square := vfaBin.saturatingMul vfaBin
  let sum : U128 ← Word.tryFrom ((control.saturatingMul square).val + 99999999999)
  some (Word.wrap (sum.val / 100000000000))

/-- `variable_fee_rate`. -/
def checkedVariableFeeRate (volatilityAccumulator : Word 32) : Option U128 :=
  if pair.variableFeeControl = 0 then some 0 else pair.checkedControlledFeeRate volatilityAccumulator

/-- `total_fee_rate`. -/
def checkedTotalFeeRate (volatilityAccumulator : Word 32) : Option U128 := do
  let base ← pair.checkedBaseFeeRate
  let variableRate ← pair.checkedVariableFeeRate volatilityAccumulator
  let total ← base.checkedAdd variableRate
  some (min total (Word.wrap maxFeeRate))

/-- What `update_references` leaves of the volatility before the decay period is over. -/
def checkedDecay : Option (Word 32) := do
  let product : U64 ← Word.tryFrom (pair.volatilityAccumulator.val * pair.reductionFactor.val)
  some (Word.wrap (product.val / basisPointMax))

/-- `update_references`. -/
def checkedUpdateReferences (currentTimestamp : ℤ) : Option DlmmPairState :=
  let elapsed := max (-2 ^ 63) (min (currentTimestamp - pair.lastUpdateTimestamp) (2 ^ 63 - 1))
  if pair.filterPeriod.val ≤ elapsed then
    (if elapsed < pair.decayPeriod.val then pair.checkedDecay else some 0).map fun volatilityReference =>
      { pair with indexReference := pair.activeId, volatilityReference }
  else some pair

/-- `volatility_accumulator_for`. -/
def checkedVolatilityAccumulatorFor (binId : ℤ) : Option (Word 32) := do
  let difference ← checkedI64 (pair.indexReference - binId)
  let delta : U64 ← Word.tryFrom difference.natAbs
  let away : U64 ← Word.tryFrom (delta.val * basisPointMax)
  let va : U64 ← Word.tryFrom (pair.volatilityReference.val + away.val)
  some (Word.wrap (min va.val pair.maxVolatilityAccumulator.val))

section Evaluation

variable {pair : DlmmPairState} {va : Word 32} {now binId : ℤ}

theorem tryFrom_eq_wrap {w n : ℕ} (fits : n < 2 ^ w) : (Word.tryFrom n : Option (Word w)) = some (Word.wrap n) :=
  Word.tryFrom_eq_some.mpr (Nat.mod_eq_of_lt fits).symm

/-- A product that saturates on the way is the saturated product. -/
theorem min_mul_min {a b m : ℕ} : min (min a m * b) m = min (a * b) m := by
  obtain rfl | positive := Nat.eq_zero_or_pos b
  · simp only [Nat.mul_zero]
  · obtain within | beyond := Nat.le_total a m
    · rw [Nat.min_eq_left within]
    · have more := Nat.le_mul_of_pos_right m positive
      have most := Nat.mul_le_mul_right b beyond
      rw [Nat.min_eq_right beyond, Nat.min_eq_right more, Nat.min_eq_right (more.trans most)]

/-- The powers of ten that 128 bits hold. -/
theorem power_fits : 10 ^ pair.baseFeePowerFactor.val < 2 ^ 128 ↔ pair.baseFeePowerFactor.val ≤ 38 := by
  constructor
  · intro fits
    by_contra more
    have least : 10 ^ 39 ≤ 10 ^ pair.baseFeePowerFactor.val := Nat.pow_le_pow_right (by decide) (by omega)
    omega
  · intro small
    exact (Nat.pow_le_pow_right (by decide) small).trans_lt (by decide)

theorem checkedBaseFeeRate_eq : pair.checkedBaseFeeRate =
    if pair.baseFeePowerFactor.val ≤ 38 then some pair.baseFeeRate else none := by
  rw [checkedBaseFeeRate]
  split
  case isTrue small =>
    rw [tryFrom_eq_wrap (power_fits.mpr small)]
    rfl
  case isFalse large =>
    rw [Word.tryFrom_eq_none.mpr (Nat.le_of_not_lt (power_fits.not.mpr large))]
    rfl

/-- The rate is the product of its four factors, or the largest number. -/
theorem val_baseFeeRate (small : pair.baseFeePowerFactor.val ≤ 38) : pair.baseFeeRate.val =
    min (pair.baseFactor.val * pair.binStep.val * 10 * 10 ^ pair.baseFeePowerFactor.val) (2 ^ 128 - 1) := by
  have power : 10 ^ pair.baseFeePowerFactor.val % 2 ^ 128 = 10 ^ pair.baseFeePowerFactor.val :=
    Nat.mod_eq_of_lt (power_fits.mpr small)
  simp only [baseFeeRate, Word.val_saturatingMul, Word.val_widen, Word.val_wrap, power]
  rw [min_mul_min, Nat.mul_assoc, min_mul_min, ← Nat.mul_assoc]
  rfl

/-- The square of 48 bits and 32 more fit 128 bits, with room for the rounding. -/
theorem product_lt {control accumulator binStep : ℕ} (low : control < 2 ^ 32) (accumulated : accumulator < 2 ^ 32)
    (stepped : binStep < 2 ^ 16) : accumulator * binStep < 2 ^ 48 ∧
      accumulator * binStep * (accumulator * binStep) < 2 ^ 96 ∧
      control * (accumulator * binStep * (accumulator * binStep)) + 99999999999 < 2 ^ 128 := by
  have bins : accumulator * binStep < 2 ^ 32 * 2 ^ 16 := Nat.mul_lt_mul'' accumulated stepped
  have square : accumulator * binStep * (accumulator * binStep) < 2 ^ 48 * 2 ^ 48 := Nat.mul_lt_mul'' bins bins
  have all := Nat.mul_le_mul (Nat.le_sub_one_of_lt low) square.le
  exact ⟨bins, square, by omega⟩

/-- Nothing saturates on the way to the variable fee. -/
theorem val_vFee {control accumulator binStep : U128} (low : control.val < 2 ^ 32)
    (accumulated : accumulator.val < 2 ^ 32) (stepped : binStep.val < 2 ^ 16) :
    (control.saturatingMul ((accumulator.saturatingMul binStep).saturatingMul (accumulator.saturatingMul binStep))).val
      = control.val * (accumulator.val * binStep.val * (accumulator.val * binStep.val)) := by
  obtain ⟨bins, square, all⟩ := product_lt low accumulated stepped
  rw [Word.val_saturatingMul, Word.val_saturatingMul, Word.val_saturatingMul,
    Nat.min_eq_left (a := accumulator.val * binStep.val) (by omega),
    Nat.min_eq_left (a := _ * (accumulator.val * binStep.val)) (by omega), Nat.min_eq_left (by omega)]

theorem checkedVariableFeeRate_eq : pair.checkedVariableFeeRate va = some (pair.variableFeeRate va) := by
  rw [checkedVariableFeeRate, variableFeeRate]
  split
  case isTrue => rfl
  case isFalse =>
    rw [checkedControlledFeeRate]
    dsimp only
    rw [tryFrom_eq_wrap]
    · rfl
    · rw [val_vFee pair.variableFeeControl.isLt va.isLt pair.binStep.isLt]
      exact (product_lt pair.variableFeeControl.isLt va.isLt pair.binStep.isLt).2.2

theorem val_variableFeeRate : (pair.variableFeeRate va).val =
    (pair.variableFeeControl.val * (va.val * pair.binStep.val) ^ 2 + 99999999999) / 100000000000 := by
  rw [variableFeeRate, Nat.pow_two]
  split
  case isTrue off =>
    rw [off]
    simp
  case isFalse =>
    have all := (product_lt pair.variableFeeControl.isLt va.isLt pair.binStep.isLt).2.2
    rw [Word.val_wrap, Word.val_wrap, val_vFee pair.variableFeeControl.isLt va.isLt pair.binStep.isLt,
      Word.val_widen, Word.val_widen, Word.val_widen, Nat.mod_eq_of_lt all]
    exact Nat.mod_eq_of_lt ((Nat.div_le_self _ _).trans_lt all)

theorem checkedTotalFeeRate_eq_some : pair.checkedTotalFeeRate va = some (pair.totalFeeRate va) ↔
    pair.baseFeePowerFactor.val ≤ 38 ∧ pair.baseFeeRate.val + (pair.variableFeeRate va).val < 2 ^ 128 := by
  rw [checkedTotalFeeRate, checkedBaseFeeRate_eq, checkedVariableFeeRate_eq]
  split
  case isFalse large => simp [large]
  case isTrue small =>
    rw [and_iff_right small]
    change ((pair.baseFeeRate.checkedAdd (pair.variableFeeRate va)).bind fun total => _) = _ ↔ _
    obtain fits | exceeds := Nat.lt_or_ge (pair.baseFeeRate.val + (pair.variableFeeRate va).val) (2 ^ 128)
    · rw [Word.checkedAdd, tryFrom_eq_wrap fits]
      exact iff_of_true rfl fits
    · rw [Word.checkedAdd, Word.tryFrom_eq_none.mpr exceeds]
      exact iff_of_false (by simp) exceeds.not_gt

/-- The volatility update holds every value on the way, whatever the fields are. -/
theorem checkedUpdateReferences_eq : pair.checkedUpdateReferences now = some (pair.updateReferences now) := by
  rw [checkedUpdateReferences, updateReferences]
  split
  case isFalse => rfl
  case isTrue =>
    split
    case isFalse => rfl
    case isTrue =>
      have fits : pair.volatilityAccumulator.val * pair.reductionFactor.val < 2 ^ 64 :=
        (Nat.mul_lt_mul'' pair.volatilityAccumulator.isLt pair.reductionFactor.isLt).trans (by decide)
      rw [checkedDecay, tryFrom_eq_wrap fits]
      change some _ = some _
      rw [Word.val_wrap, Nat.mod_eq_of_lt fits]

theorem checkedVolatilityAccumulatorFor_eq (lowest : -2 ^ 31 ≤ pair.indexReference) (highest : pair.indexReference < 2 ^ 31)
    (above : -2 ^ 31 ≤ binId) (below : binId < 2 ^ 31) :
    pair.checkedVolatilityAccumulatorFor binId = some (pair.volatilityAccumulatorFor binId) := by
  have reference := pair.volatilityReference.isLt
  have apart : (pair.indexReference - binId).natAbs < 2 ^ 32 := by omega
  have away : (pair.indexReference - binId).natAbs * basisPointMax < 2 ^ 46 := by
    rw [basisPointMax]
    omega
  rw [checkedVolatilityAccumulatorFor, checkedI64, if_pos (by omega)]
  change ((Word.tryFrom (pair.indexReference - binId).natAbs : Option U64).bind fun delta => _) = _
  rw [tryFrom_eq_wrap (by omega)]
  change ((Word.tryFrom ((pair.indexReference - binId).natAbs % 2 ^ 64 * basisPointMax) : Option U64).bind
    fun away => _) = _
  rw [Nat.mod_eq_of_lt (by omega), tryFrom_eq_wrap (by omega)]
  change ((Word.tryFrom (pair.volatilityReference.val +
    (pair.indexReference - binId).natAbs * basisPointMax % 2 ^ 64) : Option U64).bind fun va => _) = _
  rw [Nat.mod_eq_of_lt (by omega), tryFrom_eq_wrap (by omega)]
  change some _ = some _
  rw [Word.val_wrap, Nat.mod_eq_of_lt (by omega)]
  rfl

/-- The sum of the rates fits 128 bits: the variable rate fits beside the base rate. -/
theorem rates_fit (small : pair.baseFeePowerFactor.val ≤ 38) :
    pair.baseFeeRate.val + (pair.variableFeeRate va).val < 2 ^ 128 ↔
      pair.variableFeeControl.val * (va.val * pair.binStep.val) ^ 2 ≤ 100000000000 *
        (2 ^ 128 - 1 - pair.baseFactor.val * pair.binStep.val * 10 * 10 ^ pair.baseFeePowerFactor.val) := by
  rw [val_baseFeeRate small, val_variableFeeRate]
  generalize pair.variableFeeControl.val * (va.val * pair.binStep.val) ^ 2 = product
  generalize pair.baseFactor.val * pair.binStep.val * 10 * 10 ^ pair.baseFeePowerFactor.val = base
  omega

theorem signed_range (n : ℤ) : -2 ^ 31 ≤ signed 32 n ∧ signed 32 n < 2 ^ 31 := by
  rw [Quoting.signed_eq]
  split <;> omega

theorem parse_ranges {data : Bytes} (read : parse data = .ok pair) :
    (-2 ^ 31 ≤ pair.indexReference ∧ pair.indexReference < 2 ^ 31) ∧
      -2 ^ 31 ≤ pair.activeId ∧ pair.activeId < 2 ^ 31 := by
  rw [parse] at read
  split at read
  · cases read
  · rw [← Except.ok.inj read]
    dsimp only
    exact ⟨signed_range _, signed_range _⟩

/-- After the update the reference is the active bin or what it was. -/
theorem updateReferences_range (now : ℤ) (index : -2 ^ 31 ≤ pair.indexReference ∧ pair.indexReference < 2 ^ 31)
    (active : -2 ^ 31 ≤ pair.activeId ∧ pair.activeId < 2 ^ 31) :
    -2 ^ 31 ≤ (pair.updateReferences now).indexReference ∧ (pair.updateReferences now).indexReference < 2 ^ 31 := by
  rw [updateReferences]
  split
  · exact active
  · exact index

end Evaluation

/-- For every pool account, time, bin and volatility, the fees and the volatility update evaluate without
an overflow, to what the quote takes them to be and with a total of at most the cap, if and only if the
power of ten fits and the two rates fit 128 bits together. -/
theorem fees_evaluate_iff {data : Bytes} {pair : DlmmPairState} (read : parse data = .ok pair) (now : ℤ) {binId : ℤ}
    (above : -2 ^ 31 ≤ binId) (below : binId < 2 ^ 31) (va : Word 32) :
    (pair.checkedBaseFeeRate = some pair.baseFeeRate ∧
      pair.checkedVariableFeeRate va = some (pair.variableFeeRate va) ∧
      pair.checkedTotalFeeRate va = some (pair.totalFeeRate va) ∧ (pair.totalFeeRate va).val ≤ maxFeeRate ∧
      pair.checkedUpdateReferences now = some (pair.updateReferences now) ∧
      (pair.updateReferences now).checkedVolatilityAccumulatorFor binId
        = some ((pair.updateReferences now).volatilityAccumulatorFor binId)) ↔
    pair.baseFeePowerFactor.val ≤ 38 ∧
      pair.variableFeeControl.val * (va.val * pair.binStep.val) ^ 2 ≤ 100000000000 *
        (2 ^ 128 - 1 - pair.baseFactor.val * pair.binStep.val * 10 * 10 ^ pair.baseFeePowerFactor.val) := by
  obtain ⟨index, active⟩ := parse_ranges read
  obtain ⟨lowest, highest⟩ := updateReferences_range now index active
  rw [checkedTotalFeeRate_eq_some]
  constructor
  · rintro ⟨-, -, ⟨small, fits⟩, -⟩
    exact ⟨small, (rates_fit small).mp fits⟩
  · rintro ⟨small, fits⟩
    exact ⟨checkedBaseFeeRate_eq.trans (if_pos small), checkedVariableFeeRate_eq, ⟨small, (rates_fit small).mpr fits⟩,
      totalFeeRate_le, checkedUpdateReferences_eq, checkedVolatilityAccumulatorFor_eq lowest highest above below⟩

/-- A pool account with nothing in it but the exponent of its base fee. -/
def powerAccount (power : UInt8) : Bytes := List.replicate 34 0 ++ power :: List.replicate 677 0

theorem parse_powerAccount (power : UInt8) :
    ∃ pair, parse (powerAccount power) = .ok pair ∧ pair.baseFeePowerFactor.val = power.toNat := by
  have long : (powerAccount power).length = 712 := by
    rw [powerAccount, List.length_append, List.length_cons, List.length_replicate, List.length_replicate]
  have here : (powerAccount power).drop 34 = power :: List.replicate 677 0 := List.drop_left' List.length_replicate
  refine ⟨_, (if_neg long.ge.not_gt : parse (powerAccount power) = _), ?_⟩
  change field (powerAccount power) 34 1 % 2 ^ 8 = _
  rw [field, here, List.take_succ_cons, List.take_zero, fromLeBytes, fromLeBytes]
  have byte := power.toNat_lt
  omega

theorem fees_evaluate_zero : ∃ pair, parse (powerAccount 0) = .ok pair ∧
    pair.checkedTotalFeeRate 0 = some (pair.totalFeeRate 0) := by
  obtain ⟨pair, read, power⟩ := parse_powerAccount 0
  have small : pair.baseFeePowerFactor.val ≤ 38 := by
    rw [power]
    decide
  exact ⟨pair, read, ((fees_evaluate_iff read 0 (show -2 ^ 31 ≤ (0 : ℤ) by decide) (by decide) 0).mpr
    ⟨small, by simp⟩).2.2.1⟩

/-- The smallest exponent for which the power does not fit. -/
theorem fees_evaluate_fails : ∃ pair, parse (powerAccount 39) = .ok pair ∧ pair.checkedBaseFeeRate = none ∧
    pair.checkedTotalFeeRate 0 = none := by
  obtain ⟨pair, read, power⟩ := parse_powerAccount 39
  have large : ¬pair.baseFeePowerFactor.val ≤ 38 := by
    rw [power]
    decide
  have overflows : pair.checkedBaseFeeRate = none := checkedBaseFeeRate_eq.trans (if_neg large)
  refine ⟨pair, read, overflows, ?_⟩
  rw [checkedTotalFeeRate, overflows]
  rfl

end DlmmPairState

end RndRust.Thunder.Dlmm
