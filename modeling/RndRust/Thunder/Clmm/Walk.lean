import RndRust.Lib.Outcome
import RndRust.Thunder.Clmm.SwapMath
import RndRust.Thunder.PriceMoves

/-! What the walk over the ticks promises for an exact input. Two walks from one pool with different
inputs go the same way until the smaller one ends, so the larger one never gets less; and every step
consumes no more than is left, so that the whole input is accounted for. -/
namespace RndRust.Thunder.Clmm
open Lib

/-- The price lies between those of the current tick and the next, where these are in range. -/
structure Consistent (pool : ClmmPoolState) : Prop where
  inRange : InRange pool.tickCurrent
  lower : ∀ p, getSqrtPriceAtTick pool.tickCurrent = some p → p ≤ pool.sqrtPriceX64
  upper : ∀ p, getSqrtPriceAtTick (pool.tickCurrent + 1) = some p → pool.sqrtPriceX64 ≤ p

namespace Quoting

variable {q : Quoting} {w w' next : Walk} {gross need net target price out : U128} {remaining more : U64}
  {tick t : ℤ} {found : TickInfo} {cache : ArrayCache}

section Fees

theorem feeRate_pos_lt : 0 < q.feeRate ∧ q.feeRate < 500000 := by
  unfold feeRate
  cases read : (q.provider.poolAccountData q.pool.ammConfig).bind parseAmmConfigTradeFeeRate with
  | none => exact ⟨by decide, by decide⟩
  | some rate =>
    obtain ⟨data, -, parsed⟩ := Option.bind_eq_some_iff.mp read
    simp only [parseAmmConfigTradeFeeRate] at parsed
    split at parsed
    · cases parsed
    · split at parsed
      · cases parsed
      · obtain rfl := Option.some.inj parsed
        simp only [Option.getD_some]
        omega

/-- The share of an input that is left to trade. -/
def share (q : Quoting) : ℕ := feeRateDenominator - q.feeRate

theorem share_pos : 0 < q.share := by
  have := q.feeRate_pos_lt
  unfold share feeRateDenominator
  omega

theorem share_add : q.share + q.feeRate = feeRateDenominator := by
  have := q.feeRate_pos_lt
  unfold share feeRateDenominator
  omega

theorem val_share : (Word.wrap q.share : U128).val = q.share := by
  have := q.share_add
  unfold feeRateDenominator at this
  rw [Word.val_wrap, Nat.mod_eq_of_lt (by omega)]

theorem val_feeRate : (Word.wrap q.feeRate : U128).val = q.feeRate := by
  have := q.feeRate_pos_lt
  rw [Word.val_wrap, Nat.mod_eq_of_lt (by omega)]

theorem val_denominator : (Word.wrap feeRateDenominator : U128).val = feeRateDenominator := rfl

theorem remainingNet_eq_ok :
    q.remainingNet remaining = .ok net ↔ remaining.val * q.share / feeRateDenominator = net.val := by
  rw [remainingNet, okOr_eq_ok, mulDivFloor_eq, val_denominator, if_neg (by decide),
    Word.tryFrom_eq_some, val_toU128]
  change remaining.val * (Word.wrap q.share : U128).val / feeRateDenominator = net.val ↔ _
  rw [val_share]

/-- A need that is covered after the fee is covered together with its fee before it. -/
theorem need_add_fee_le {n r : ℕ} (covered : n ≤ r * q.share / feeRateDenominator) :
    n + (n * q.feeRate) ⌈/⌉ q.share ≤ r := (add_ceilDiv_le_iff share_pos share_add).mpr covered

end Fees

section Steps

/-- What a step that reaches the boundary does. -/
structure Crossed (q : Quoting) (w : Walk) (found : TickInfo) (target need gross : U128) (next : Walk) : Prop where
  bought : w.liquidity ≠ 0 → ∃ out, q.stepOut w target = .ok out ∧ w.totalOut.val + out.val = next.totalOut.val
  idle : w.liquidity = 0 → next.totalOut = w.totalOut
  consumed : gross.val = min (need.val + (need.val * q.feeRate) ⌈/⌉ q.share) (2 ^ 128 - 1)
  remaining : next.remaining.val = w.remaining.val - min gross.val w.remaining.val
  sqrtP : next.sqrtP = target
  tick : next.tick = q.tickAcross found

theorem crossed (went : q.cross w found cache target need = .ok (gross, next)) :
    Crossed q w found target need gross next := by
  unfold cross at went
  obtain ⟨totalOut, total, went⟩ := bind_eq_ok.mp went
  obtain ⟨feeAmt, fee, went⟩ := bind_eq_ok.mp went
  obtain ⟨net, -, went⟩ := bind_eq_ok.mp went
  obtain ⟨liquidity, -, went⟩ := bind_eq_ok.mp went
  split at went
  case isFalse => cases went
  case isTrue =>
    obtain ⟨rfl, rfl⟩ := Prod.mk.inj (Except.ok.inj went)
    rw [okOr_eq_ok, mulDivCeil_eq] at fee
    change (if (Word.wrap q.share : U128).val = 0 then none else
      Word.tryFrom ((need.val * (Word.wrap q.feeRate : U128).val) ⌈/⌉ (Word.wrap q.share : U128).val))
        = some feeAmt at fee
    rw [val_share, val_feeRate, if_neg share_pos.ne', Word.tryFrom_eq_some] at fee
    refine ⟨fun some => ?_, fun none => ?_, ?_, ?_, rfl, rfl⟩
    · rw [totalAt, if_pos (Fin.pos_iff_ne_zero.mpr some)] at total
      obtain ⟨out, step, added⟩ := bind_eq_ok.mp total
      rw [okOr_eq_ok, Word.checkedAdd_eq_some] at added
      exact ⟨out, step, added⟩
    · rw [totalAt, if_neg (by simp [none])] at total
      exact (Except.ok.inj total).symm
    · rw [Word.val_saturatingAdd, fee]
    · rw [Word.val_saturatingSub, Word.val_wrap, Nat.mod_eq_of_lt]
      exact (Nat.min_le_right _ _).trans_lt w.remaining.isLt

/-- A crossing with another amount left differs in what is left afterwards, and in nothing else. -/
theorem cross_remaining (more : U64) : q.cross { w with remaining := more } found cache target need
    = (q.cross w found cache target need).map fun (g, n) =>
        (g, { n with remaining := more.saturatingSub (Word.wrap (min g.val more.val)) }) := by
  have total : q.totalAt { w with remaining := more } target = q.totalAt w target := rfl
  simp only [cross, total]
  cases q.totalAt w target with
  | error => rfl
  | ok totalOut =>
    cases okOr (mulDivCeil need (Word.wrap q.feeRate) (Word.wrap (feeRateDenominator - q.feeRate)))
      "fee math overflow" with
    | error => rfl
    | ok feeAmt =>
      cases q.netAcross found with
      | error => rfl
      | ok net =>
        simp only [ok_bind]
        cases applyLiquidityNet w.liquidity net with
        | error => rfl
        | ok liquidity =>
          simp only [ok_bind]
          split <;> rfl

/-- What a step that ends inside the liquidity does. -/
structure Finished (q : Quoting) (w : Walk) (net gross : U128) (next : Walk) : Prop where
  liquid : w.liquidity ≠ 0
  bought : ∃ price out, (if q.zeroForOne then nextSqrtPriceFromAmount0In w.sqrtP w.liquidity net
      else nextSqrtPriceFromAmount1In w.sqrtP w.liquidity net) = some price ∧
    q.stepOut w price = .ok out ∧ w.totalOut.val + out.val = next.totalOut.val
  consumed : gross.val = w.remaining.val
  remaining : next.remaining = 0

theorem finished (went : q.finish w cache net = .ok (gross, next)) : Finished q w net gross next := by
  unfold finish at went
  split at went
  case isTrue => cases went
  case isFalse liquid =>
    obtain ⟨price, moved, went⟩ := bind_eq_ok.mp went
    obtain ⟨out, step, went⟩ := bind_eq_ok.mp went
    obtain ⟨totalOut, added, went⟩ := bind_eq_ok.mp went
    obtain ⟨rfl, rfl⟩ := Prod.mk.inj (Except.ok.inj went)
    rw [okOr_eq_ok] at moved added
    exact ⟨liquid, ⟨price, out, moved, step, Word.checkedAdd_eq_some.mp added⟩, rfl, rfl⟩

/-- The parts of an iteration before it is decided how the step ends. They do not depend on what is left. -/
structure Ahead (q : Quoting) (w : Walk) (found : TickInfo) (cache : ArrayCache) (target need : U128) : Prop where
  located : q.locate w = .ok (found, cache)
  priced : q.targetAt found.tick = .ok target
  need : q.amountInToTarget w target = .ok need

theorem iterate_cases (went : q.iterate w = .ok (gross, next)) : ∃ found cache target need net,
    Ahead q w found cache target need ∧ w.remaining.val * q.share / feeRateDenominator = net.val ∧
    (need ≤ net ∧ q.cross w found cache target need = .ok (gross, next) ∨
      net < need ∧ Finished q w net gross next) := by
  unfold iterate at went
  obtain ⟨⟨found, cache⟩, located, went⟩ := bind_eq_ok.mp went
  obtain ⟨target, price, went⟩ := bind_eq_ok.mp went
  obtain ⟨net, share, went⟩ := bind_eq_ok.mp went
  obtain ⟨need, needed, went⟩ := bind_eq_ok.mp went
  refine ⟨found, cache, target, need, net, ⟨located, price, needed⟩, remainingNet_eq_ok.mp share, ?_⟩
  split at went
  case isTrue covered => exact .inl ⟨covered, went⟩
  case isFalse short => exact .inr ⟨lt_of_not_ge short, finished went⟩

theorem Ahead.unique {found' : TickInfo} {cache' : ArrayCache} {target' need' : U128}
    (first : Ahead q w found cache target need) (second : Ahead q w found' cache' target' need') :
    found' = found ∧ cache' = cache ∧ target' = target ∧ need' = need := by
  obtain ⟨rfl, rfl⟩ := Prod.mk.inj (Except.ok.inj (first.located.symm.trans second.located))
  obtain rfl := Except.ok.inj (first.priced.symm.trans second.priced)
  exact ⟨rfl, rfl, rfl, Except.ok.inj (second.need.symm.trans first.need)⟩

/-- What a step consumes is there to consume. -/
theorem iterate_consumes (went : q.iterate w = .ok (gross, next)) :
    gross.val ≤ w.remaining.val ∧ next.remaining.val + gross.val = w.remaining.val := by
  obtain ⟨found, cache, target, need, net, -, share, ⟨covered, went⟩ | ⟨-, ended⟩⟩ := iterate_cases went
  · have step := crossed went
    have fits := need_add_fee_le (q := q) (n := need.val) (r := w.remaining.val) (by rw [share]; exact covered)
    have consumed := step.consumed
    have left := step.remaining
    omega
  · rw [ended.consumed, ended.remaining]
    exact ⟨le_rfl, Nat.zero_add _⟩

theorem iterate_totalOut_le (went : q.iterate w = .ok (gross, next)) : w.totalOut ≤ next.totalOut := by
  obtain ⟨found, cache, target, need, net, -, -, ⟨-, went⟩ | ⟨-, ended⟩⟩ := iterate_cases went
  · have step := crossed went
    by_cases idle : w.liquidity = 0
    · exact (step.idle idle).ge
    · obtain ⟨out, -, sum⟩ := step.bought idle
      exact Fin.le_def.mpr (by omega)
  · obtain ⟨price, out, -, -, sum⟩ := ended.bought
    exact Fin.le_def.mpr (by omega)

end Steps

section Prices

/-- The ticks ahead lie on the side that the swap moves to. -/
def Facing (q : Quoting) (w : Walk) : Prop :=
  if q.zeroForOne then ∀ t, InRange t → t ≤ w.tick → sqrtPrice t ≤ w.sqrtP.val
  else ∀ t, InRange t → w.tick < t → w.sqrtP.val ≤ sqrtPrice t

theorem findInitializedTickInArray_side {data : Bytes} {zeroForOne : Bool}
    (here : findInitializedTickInArray data tick zeroForOne = some found) :
    if zeroForOne then found.tick ≤ tick else tick < found.tick := by
  cases zeroForOne with
  | true =>
    rw [findInitializedTickInArray, if_pos rfl] at here
    rw [if_pos rfl]
    obtain ⟨i, -, at_i⟩ := List.exists_of_findSome?_eq_some here
    simp only [Option.ite_none_right_eq_some, Option.some.injEq] at at_i
    simp only [← at_i.2]
    exact at_i.1.2
  | false =>
    rw [findInitializedTickInArray, if_neg Bool.false_ne_true] at here
    rw [if_neg Bool.false_ne_true]
    obtain ⟨i, -, at_i⟩ := List.exists_of_findSome?_eq_some here
    simp only [Option.ite_none_right_eq_some, Option.some.injEq] at at_i
    simp only [← at_i.2]
    exact at_i.1.2

theorem scan_side {count : ℕ} {arrayStart : ℤ} {before : ArrayCache}
    (scanned : q.scan tick count arrayStart before = .ok (some found, cache)) :
    if q.zeroForOne then found.tick ≤ tick else tick < found.tick := by
  induction count generalizing arrayStart before with
  | zero => cases scanned
  | succ count ih =>
    simp only [scan] at scanned
    split at scanned
    · cases scanned
    · split at scanned
      · obtain ⟨⟨data, later⟩, -, scanned⟩ := bind_eq_ok.mp scanned
        simp only at scanned
        split at scanned
        case h_1 here =>
          obtain rfl := Option.some.inj (Prod.mk.inj (Except.ok.inj scanned)).1
          exact findInitializedTickInArray_side here
        case h_2 => exact ih scanned
      · exact ih scanned

theorem Ahead.side (ahead : Ahead q w found cache target need) :
    if q.zeroForOne then found.tick ≤ w.tick else w.tick < found.tick := by
  have located := ahead.located
  unfold locate at located
  obtain ⟨⟨result, later⟩, scanned, located⟩ := bind_eq_ok.mp located
  cases result with
  | none => cases located
  | some next =>
    obtain ⟨rfl, -⟩ := Prod.mk.inj (Except.ok.inj located)
    exact scan_side scanned

theorem targetAt_eq_ok (priced : q.targetAt tick = .ok target) : InRange tick ∧
    target.val = if q.zeroForOne then max (sqrtPrice tick) (minSqrtPriceX64 + 1)
      else min (sqrtPrice tick) (maxSqrtPriceX64 - 1) := by
  unfold targetAt at priced
  obtain ⟨price, found, limited⟩ := bind_eq_ok.mp priced
  rw [okOr_eq_ok, getSqrtPriceAtTick_eq_some] at found
  obtain ⟨inside, is⟩ := found
  obtain rfl := Except.ok.inj limited
  refine ⟨inside, ?_⟩
  cases q.zeroForOne with
  | true => rw [if_pos rfl, if_pos rfl, Fin.coe_max, is]; rfl
  | false => rw [if_neg Bool.false_ne_true, if_neg Bool.false_ne_true, Fin.coe_min, is]; rfl

theorem Ahead.target_near (ahead : Ahead q w found cache target need) (facing : Facing q w) :
    if q.zeroForOne then 0 < target.val ∧ target.val ≤ w.sqrtP.val + 1 else w.sqrtP.val ≤ target.val + 1 := by
  obtain ⟨inside, is⟩ := targetAt_eq_ok ahead.priced
  have side := ahead.side
  have bounds := sqrtPrice_bounds inside
  unfold Facing at facing
  cases direction : q.zeroForOne with
  | true =>
    simp only [direction, if_true] at facing is side ⊢
    have lower := facing found.tick inside side
    omega
  | false =>
    simp only [direction, Bool.false_eq_true, if_false] at facing is side ⊢
    have upper := facing found.tick inside side
    omega

/-- After a crossing the price is the boundary's, and the ticks behind it are done. -/
theorem Crossed.facing (step : Crossed q w found target need gross next)
    (ahead : Ahead q w found cache target need) : Facing q next := by
  obtain ⟨inside, is⟩ := targetAt_eq_ok ahead.priced
  unfold Facing
  rw [step.sqrtP, step.tick, tickAcross]
  cases direction : q.zeroForOne with
  | true =>
    simp only [direction, if_true] at is ⊢
    intro t within below
    have lower := sqrtPrice_mono (show t ≤ found.tick by omega) within inside
    omega
  | false =>
    simp only [direction, Bool.false_eq_true, if_false] at is ⊢
    intro t within above
    have upper := sqrtPrice_mono above.le inside within
    omega

end Prices

section Amounts

variable {sqrtP liquidity amount amount' price price' bought whole : U128}

/-- Moving down: what does not reach the target buys no more than reaching it. -/
theorem bought_down_le (liquid : 0 < liquidity.val) (positive : 0 < target.val)
    (near : target.val ≤ sqrtP.val + 1) (needed : getAmount0Delta target sqrtP liquidity true = some need)
    (short : net < need) (moved : nextSqrtPriceFromAmount0In sqrtP liquidity net = some price)
    (part : getAmount1Delta price sqrtP liquidity false = some bought)
    (full : getAmount1Delta target sqrtP liquidity false = some whole) : bought ≤ whole := by
  have scaled : 0 < liquidity.val * 2 ^ 64 := Nat.mul_pos liquid (Nat.two_pow_pos 64)
  rcases le_or_gt target sqrtP with le | above
  · have priced : 0 < sqrtP.val := positive.trans_le le
    have down := nextSqrtPriceFromAmount0In_moved liquid priced moved
    rw [getAmount0Delta_of_le le, if_neg positive.ne', Word.tryFrom_eq_some, roundDiv_true] at needed
    have uncovered : sqrtP.val * target.val * net.val < liquidity.val * 2 ^ 64 * (sqrtP.val - target.val) := by
      rw [← Nat.not_le, ← ceilDiv_le_iff_le_mul (Nat.mul_pos priced positive), needed, Nat.not_le]
      exact short
    have higher := down.above scaled le uncovered.le
    rw [getAmount1Delta_of_le down.lower, Word.tryFrom_eq_some, roundDiv_false] at part
    rw [getAmount1Delta_of_le le, Word.tryFrom_eq_some, roundDiv_false] at full
    rw [Fin.le_def, ← part, ← full]
    exact Nat.div_le_div_right (Nat.mul_le_mul_left _ (Nat.sub_le_sub_left higher _))
  · -- The price lies just below the lowest target, and one unit costs more than there is.
    rw [getAmount0Delta_comm, getAmount0Delta_of_le above.le] at needed
    have one : target.val = sqrtP.val + 1 := by have := Fin.lt_def.mp above; omega
    split at needed
    case isTrue => cases needed
    case isFalse some =>
      have priced := Nat.pos_of_ne_zero some
      have down := nextSqrtPriceFromAmount0In_moved liquid priced moved
      rw [Word.tryFrom_eq_some, roundDiv_true, one, Nat.add_sub_cancel_left, Nat.mul_one] at needed
      have uncovered : (sqrtP.val + 1) * sqrtP.val * net.val < liquidity.val * 2 ^ 64 := by
        rw [← Nat.not_le, ← ceilDiv_le_iff_le_mul (Nat.mul_pos (Nat.succ_pos _) priced), needed, Nat.not_le]
        exact short
      have still := down.stays uncovered
      rw [getAmount1Delta_of_le down.lower, Word.tryFrom_eq_some, roundDiv_false, still, Nat.sub_self,
        Nat.mul_zero, Nat.zero_div] at part
      exact Fin.le_def.mpr (part ▸ Nat.zero_le _)

/-- Moving up: what does not reach the target buys no more than reaching it. -/
theorem bought_up_le (liquid : 0 < liquidity.val) (near : sqrtP.val ≤ target.val + 1)
    (needed : getAmount1Delta sqrtP target liquidity true = some need)
    (short : net < need) (moved : nextSqrtPriceFromAmount1In sqrtP liquidity net = some price)
    (part : getAmount0Delta sqrtP price liquidity false = some bought)
    (full : getAmount0Delta sqrtP target liquidity false = some whole) : bought ≤ whole := by
  have up := nextSqrtPriceFromAmount1In_moved liquid moved
  rw [getAmount0Delta_of_le up.higher] at part
  split at part
  case isTrue => cases part
  case isFalse some =>
    have priced := Nat.pos_of_ne_zero some
    rw [Word.tryFrom_eq_some, roundDiv_false] at part
    rcases le_or_gt sqrtP target with le | below
    · rw [getAmount1Delta_of_le le, Word.tryFrom_eq_some, roundDiv_true] at needed
      have uncovered : 2 ^ 64 * net.val < liquidity.val * (target.val - sqrtP.val) := by
        rw [← Nat.not_le, ← ceilDiv_le_iff_le_mul (Nat.two_pow_pos 64), needed, Nat.not_le]
        exact short
      have lower := up.below liquid uncovered.le le
      rw [getAmount0Delta_of_le le, if_neg some, Word.tryFrom_eq_some, roundDiv_false] at full
      rw [Fin.le_def, ← part, ← full]
      exact amount0_mono priced up.higher lower
    · rw [getAmount1Delta_comm, getAmount1Delta_of_le below.le, Word.tryFrom_eq_some, roundDiv_true] at needed
      have one : sqrtP.val = target.val + 1 := by have := Fin.lt_def.mp below; omega
      rw [one, Nat.add_sub_cancel_left, Nat.mul_one] at needed
      have uncovered : 2 ^ 64 * net.val < liquidity.val := by
        rw [← Nat.not_le, ← ceilDiv_le_iff_le_mul (Nat.two_pow_pos 64), needed, Nat.not_le]
        exact short
      have paid := up.paid
      have still : price.val - sqrtP.val = 0 := by
        by_contra moved
        have least := Nat.le_mul_of_pos_right liquidity.val (Nat.pos_of_ne_zero moved)
        omega
      rw [still, Nat.mul_zero, Nat.zero_div] at part
      exact Fin.le_def.mpr (part ▸ Nat.zero_le _)

/-- Moving down, more in buys more. -/
theorem bought_down_mono (liquid : 0 < liquidity.val) (priced : 0 < sqrtP.val) (less : amount ≤ amount')
    (moved : nextSqrtPriceFromAmount0In sqrtP liquidity amount = some price)
    (moved' : nextSqrtPriceFromAmount0In sqrtP liquidity amount' = some price')
    (part : getAmount1Delta price sqrtP liquidity false = some bought)
    (full : getAmount1Delta price' sqrtP liquidity false = some whole) : bought ≤ whole := by
  have down := nextSqrtPriceFromAmount0In_moved liquid priced moved
  have down' := nextSqrtPriceFromAmount0In_moved liquid priced moved'
  have scaled : 0 < liquidity.val * 2 ^ 64 := Nat.mul_pos liquid (Nat.two_pow_pos 64)
  have lower : price'.val ≤ price.val := by
    rw [nextSqrtPriceFromAmount0In_eq liquid, Word.tryFrom_eq_some] at moved'
    rw [← moved', ceilDiv_le_iff_le_mul (Nat.add_pos_left scaled _)]
    exact down.enough.trans (Nat.mul_le_mul_right _ (Nat.add_le_add_left (Nat.mul_le_mul_right _ less) _))
  rw [getAmount1Delta_of_le down.lower, Word.tryFrom_eq_some, roundDiv_false] at part
  rw [getAmount1Delta_of_le down'.lower, Word.tryFrom_eq_some, roundDiv_false] at full
  rw [Fin.le_def, ← part, ← full]
  exact Nat.div_le_div_right (Nat.mul_le_mul_left _ (Nat.sub_le_sub_left lower _))

/-- Moving up, more in buys more. -/
theorem bought_up_mono (liquid : 0 < liquidity.val) (less : amount ≤ amount')
    (moved : nextSqrtPriceFromAmount1In sqrtP liquidity amount = some price)
    (moved' : nextSqrtPriceFromAmount1In sqrtP liquidity amount' = some price')
    (part : getAmount0Delta sqrtP price liquidity false = some bought)
    (full : getAmount0Delta sqrtP price' liquidity false = some whole) : bought ≤ whole := by
  have up := nextSqrtPriceFromAmount1In_moved liquid moved
  have up' := nextSqrtPriceFromAmount1In_moved liquid moved'
  rw [nextSqrtPriceFromAmount1In_eq liquid, Word.tryFrom_eq_some] at moved moved'
  have higher : price.val ≤ price'.val := by
    rw [← moved, ← moved']
    exact Nat.add_le_add_left (Nat.div_le_div_right (Nat.mul_le_mul_right _ less)) _
  rw [getAmount0Delta_of_le up.higher] at part
  rw [getAmount0Delta_of_le up'.higher] at full
  split at part
  case isTrue => cases part
  case isFalse some =>
    rw [if_neg some, Word.tryFrom_eq_some, roundDiv_false] at full
    rw [Word.tryFrom_eq_some, roundDiv_false] at part
    rw [Fin.le_def, ← part, ← full]
    exact amount0_mono (Nat.pos_of_ne_zero some) up.higher higher

end Amounts

section Runs

variable {left : ℕ} {consumed consumed' : List U128} {last last' : Walk} {more : U64}

theorem loop_cases (went : q.loop left w = .ok (consumed, last)) :
    (w.remaining = 0 ∧ consumed = [] ∧ last = w) ∨
    ∃ fewer gross next rest, left = fewer + 1 ∧ w.remaining ≠ 0 ∧ q.iterate w = .ok (gross, next) ∧
      q.loop fewer next = .ok (rest, last) ∧ consumed = gross :: rest := by
  by_cases nothing : w.remaining = 0
  · rw [loop.eq_def, if_pos nothing] at went
    obtain ⟨rfl, rfl⟩ := Prod.mk.inj (Except.ok.inj went)
    exact .inl ⟨nothing, rfl, rfl⟩
  · rw [loop.eq_def, if_neg nothing] at went
    cases left with
    | zero => cases went
    | succ fewer =>
      obtain ⟨⟨gross, next⟩, step, went⟩ := bind_eq_ok.mp went
      obtain ⟨⟨rest, final⟩, later, went⟩ := bind_eq_ok.mp went
      obtain ⟨rfl, rfl⟩ := Prod.mk.inj (Except.ok.inj went)
      exact .inr ⟨fewer, gross, next, rest, rfl, nothing, step, later, rfl⟩

theorem loop_totalOut_le (went : q.loop left w = .ok (consumed, last)) : w.totalOut ≤ last.totalOut := by
  induction left generalizing w consumed with
  | zero =>
    obtain ⟨-, -, rfl⟩ | ⟨fewer, _, _, _, more, _⟩ := loop_cases went
    · exact le_rfl
    · omega
  | succ left ih =>
    obtain ⟨-, -, rfl⟩ | ⟨fewer, gross, next, rest, same, -, step, later, -⟩ := loop_cases went
    · exact le_rfl
    · obtain rfl := Nat.succ.inj same
      exact (iterate_totalOut_le step).trans (ih later)

/-- All that was put in has been consumed at the end. -/
theorem loop_consumes (went : q.loop left w = .ok (consumed, last)) :
    (consumed.map Fin.val).sum = w.remaining.val := by
  induction left generalizing w consumed with
  | zero =>
    obtain ⟨nothing, rfl, -⟩ | ⟨fewer, _, _, _, more, _⟩ := loop_cases went
    · rw [nothing]
      rfl
    · omega
  | succ left ih =>
    obtain ⟨nothing, rfl, -⟩ | ⟨fewer, gross, next, rest, same, -, step, later, rfl⟩ := loop_cases went
    · rw [nothing]
      rfl
    · obtain rfl := Nat.succ.inj same
      have conserved := (iterate_consumes step).2
      rw [List.map_cons, List.sum_cons, ih later]
      omega

theorem Ahead.of_remaining (ahead : Ahead q { w with remaining := more } found cache target need) :
    Ahead q w found cache target need := ⟨ahead.located, ahead.priced, ahead.need⟩

/-- One walk that ends inside the liquidity, and one with more that goes on to the boundary. -/
theorem Finished.le_crossed {gross' : U128} {next' : Walk} (ahead : Ahead q w found cache target need)
    (facing : Facing q w) (short : net < need) (ended : Finished q w net gross next)
    (step : Crossed q { w with remaining := more } found target need gross' next') :
    next.totalOut ≤ next'.totalOut := by
  obtain ⟨price, bought, moved, part, sum⟩ := ended.bought
  obtain ⟨whole, full, sum'⟩ := step.bought ended.liquid
  have full : q.stepOut w target = .ok whole := full
  have liquid : 0 < w.liquidity.val := Nat.pos_of_ne_zero fun zero => ended.liquid (Fin.ext zero)
  have near := ahead.target_near facing
  have needed := ahead.need
  have less : bought ≤ whole := by
    unfold amountInToTarget at needed
    rw [if_neg ended.liquid] at needed
    unfold stepOut at part full
    cases direction : q.zeroForOne with
    | true =>
      simp only [direction, if_true, okOr_eq_ok] at near moved needed part full
      exact bought_down_le liquid near.1 near.2 needed short moved part full
    | false =>
      simp only [direction, Bool.false_eq_true, if_false, okOr_eq_ok] at near moved needed part full
      exact bought_up_le liquid near needed short moved part full
  rw [Fin.le_def, ← sum, ← sum']
  exact Nat.add_le_add_left less _

/-- Two walks that both end inside the liquidity. -/
theorem Finished.le_finished {net' gross' : U128} {next' : Walk} (ahead : Ahead q w found cache target need)
    (less : net ≤ net') (ended : Finished q w net gross next)
    (ended' : Finished q { w with remaining := more } net' gross' next') : next.totalOut ≤ next'.totalOut := by
  obtain ⟨price, bought, moved, part, sum⟩ := ended.bought
  obtain ⟨price', whole, moved', full, sum'⟩ := ended'.bought
  have full : q.stepOut w price' = .ok whole := full
  have liquid : 0 < w.liquidity.val := Nat.pos_of_ne_zero fun zero => ended.liquid (Fin.ext zero)
  have needed := ahead.need
  have less : bought ≤ whole := by
    unfold amountInToTarget at needed
    rw [if_neg ended.liquid] at needed
    unfold stepOut at part full
    cases direction : q.zeroForOne with
    | true =>
      simp only [direction, if_true, okOr_eq_ok] at moved moved' needed part full
      refine bought_down_mono liquid (Nat.pos_of_ne_zero fun zero => ?_) less moved moved' part full
      rw [getAmount0Delta_comm, getAmount0Delta_of_le (Fin.le_def.mpr (zero ▸ Nat.zero_le _)),
        if_pos zero] at needed
      cases needed
    | false =>
      simp only [direction, Bool.false_eq_true, if_false, okOr_eq_ok] at moved moved' part full
      exact bought_up_mono liquid less moved moved' part full
  rw [Fin.le_def, ← sum, ← sum']
  exact Nat.add_le_add_left less _

/-- Two walks from one place go the same way while both go on, and the one with more gets no less. -/
theorem loop_mono (facing : Facing q w) (le : w.remaining ≤ more) (went : q.loop left w = .ok (consumed, last))
    (went' : q.loop left { w with remaining := more } = .ok (consumed', last')) :
    last.totalOut ≤ last'.totalOut := by
  induction left generalizing w more consumed consumed' with
  | zero =>
    obtain ⟨-, -, rfl⟩ | ⟨fewer, _, _, _, more, _⟩ := loop_cases went
    · exact (loop_totalOut_le went' : _)
    · omega
  | succ left ih =>
    obtain ⟨-, -, rfl⟩ | ⟨fewer, gross, next, rest, same, some, step, later, -⟩ := loop_cases went
    · exact (loop_totalOut_le went' : _)
    obtain rfl := Nat.succ.inj same
    obtain ⟨nothing, -⟩ | ⟨fewer', gross', next', rest', same', -, step', later', -⟩ := loop_cases went'
    · exact absurd (Fin.le_zero_iff.mp (nothing ▸ le)) some
    obtain rfl := Nat.succ.inj same'
    obtain ⟨found, cache, target, need, net, ahead, share, ends⟩ := iterate_cases step
    obtain ⟨_, _, _, _, net', ahead', share', ends'⟩ := iterate_cases step'
    obtain ⟨rfl, rfl, rfl, rfl⟩ := ahead.unique ahead'.of_remaining
    have less : net ≤ net' := by
      rw [Fin.le_def, ← share, ← share']
      exact Nat.div_le_div_right (Nat.mul_le_mul_right _ le)
    obtain ⟨covered, crossing⟩ | ⟨short, ended⟩ := ends
    · obtain ⟨-, crossing'⟩ | ⟨short', -⟩ := ends'
      · have one := crossed crossing
        rw [cross_remaining, crossing] at crossing'
        obtain ⟨rfl, rfl⟩ := Prod.mk.inj (Except.ok.inj crossing')
        refine ih (one.facing ahead) (Fin.le_def.mpr ?_) later later'
        have left := one.remaining
        have small : min gross.val more.val < 2 ^ 64 := (Nat.min_le_right _ _).trans_lt more.isLt
        have less := Fin.le_def.mp le
        rw [Word.val_saturatingSub, Word.val_wrap, Nat.mod_eq_of_lt small]
        omega
      · exact absurd (covered.trans less) (not_le_of_gt short')
    · have above : next.totalOut ≤ next'.totalOut := by
        obtain ⟨-, crossing'⟩ | ⟨-, ended'⟩ := ends'
        · exact ended.le_crossed ahead facing short (crossed crossing')
        · exact ended.le_finished ahead less ended'
      obtain ⟨-, -, rfl⟩ | ⟨_, _, _, _, _, more, _⟩ := loop_cases later
      · exact above.trans (loop_totalOut_le later')
      · exact absurd ended.remaining more

end Runs

theorem getSqrtPriceAtTick_of_inRange (inside : InRange t) :
    getSqrtPriceAtTick t = some (Word.wrap (sqrtPrice t)) ∧ (Word.wrap (sqrtPrice t) : U128).val = sqrtPrice t := by
  have found : getSqrtPriceAtTick t = some (Word.wrap (sqrtPrice t)) := if_pos inside
  exact ⟨found, (getSqrtPriceAtTick_eq_some.mp found).2⟩

theorem facing_start {amountIn : U64} (consistent : Consistent q.pool) : Facing q (q.start amountIn) := by
  unfold Facing start
  cases q.zeroForOne with
  | true =>
    simp only [if_true]
    intro t within below
    obtain ⟨found, is⟩ := getSqrtPriceAtTick_of_inRange consistent.inRange
    have lower := Fin.le_def.mp (consistent.lower _ found)
    rw [is] at lower
    exact (sqrtPrice_mono below within consistent.inRange).trans lower
  | false =>
    simp only [Bool.false_eq_true, if_false]
    intro t within above
    have next : InRange (q.pool.tickCurrent + 1) := ⟨by have := consistent.inRange.1; omega, by
      have := within.2; omega⟩
    obtain ⟨found, is⟩ := getSqrtPriceAtTick_of_inRange next
    have upper := Fin.le_def.mp (consistent.upper _ found)
    rw [is] at upper
    exact upper.trans (sqrtPrice_mono (by omega) next within)

theorem computeSwapOutput_eq_ok {amountIn out : U64} (quoted : q.computeSwapOutput amountIn = .ok out)
    (some : amountIn ≠ 0) : ∃ consumed last, q.loop maxTickCrossings (q.start amountIn) = .ok (consumed, last) ∧
      last.totalOut.val = out.val := by
  rw [computeSwapOutput, if_neg some] at quoted
  split at quoted
  case isTrue => cases quoted
  case isFalse =>
    obtain ⟨⟨consumed, last⟩, went, fits⟩ := bind_eq_ok.mp quoted
    rw [okOr_eq_ok, Word.tryFrom_eq_some] at fits
    exact ⟨consumed, last, went, fits⟩

/-- More in never gets less out. Every iteration of every walk consumes what is there and leaves the
rest, and over a whole walk the input is what has been consumed. -/
theorem clmm_walk (q : Quoting) (consistent : Consistent q.pool) :
    (∀ a b outA outB, a ≤ b → q.computeSwapOutput a = .ok outA → q.computeSwapOutput b = .ok outB → outA ≤ outB) ∧
    (∀ w gross next, q.iterate w = .ok (gross, next) →
      gross.val ≤ w.remaining.val ∧ next.remaining.val + gross.val = w.remaining.val) ∧
    ∀ amountIn consumed last, q.loop maxTickCrossings (q.start amountIn) = .ok (consumed, last) →
      (consumed.map Fin.val).sum = amountIn.val := by
  refine ⟨fun a b outA outB le first second => ?_, fun w gross next => iterate_consumes,
    fun amountIn consumed last => loop_consumes⟩
  by_cases nothing : a = 0
  · rw [computeSwapOutput, if_pos nothing] at first
    rw [← Except.ok.inj first]
    exact Fin.zero_le _
  · have some : b ≠ 0 := fun zero => nothing (Fin.le_zero_iff.mp (zero ▸ le))
    obtain ⟨consumedA, lastA, wentA, outA_is⟩ := computeSwapOutput_eq_ok first nothing
    obtain ⟨consumedB, lastB, wentB, outB_is⟩ := computeSwapOutput_eq_ok second some
    have mono := Fin.le_def.mp (loop_mono (facing_start consistent) le wentA wentB)
    rw [outA_is, outB_is] at mono
    exact Fin.le_def.mpr mono

/-- An array whose last tick, and no other, is initialized. -/
def lastTickOnly : Bytes :=
  List.replicate (tickArrayHeader + 59 * tickStateSize) 0 ++ (toLeBytes 4 (2 ^ 32 - 100) ++
    List.replicate 16 0 ++ toLeBytes 16 1 ++ List.replicate 132 0)

/-- A pool at the price one. -/
def atOne : Quoting where
  find := fun seeds _ => seeds.getLastD []
  pool := ⟨[1], 1, ⟨10 ^ 9, by decide⟩, Q64, 0, fun _ => ⟨2 ^ 64 - 1, U64.max_lt⟩⟩
  poolId := [2]
  zeroForOne := true
  provider := ⟨fun key => if key = [0, 0, 0, 0] then some lastTickOnly else none, fun _ => 0⟩

theorem consistent_atOne : Consistent atOne.pool where
  inRange := by decide
  lower p found := by
    have is := (getSqrtPriceAtTick_eq_some.mp found).2
    rw [Fin.le_def, is]
    decide
  upper p found := by
    have is := (getSqrtPriceAtTick_eq_some.mp found).2
    rw [Fin.le_def, is]
    decide

theorem find_lastTickOnly : findInitializedTickInArray lastTickOnly 0 true = some ⟨-100, 0⟩ := by
  have last : lastTickOnly.drop (tickArrayHeader + 59 * tickStateSize) = toLeBytes 4 (2 ^ 32 - 100) ++
      List.replicate 16 0 ++ toLeBytes 16 1 ++ List.replicate 132 0 :=
    List.drop_left' List.length_replicate
  have read : readTick lastTickOnly 59 = ⟨-100, 0, 1⟩ := by
    simp only [readTick, last, TickState.mk.injEq]
    decide
  have order : (List.range 60).reverse = 59 :: (List.range 59).reverse := by
    rw [List.range_succ, List.reverse_append]
    rfl
  rw [findInitializedTickInArray, if_pos rfl, order, List.findSome?_cons, read]
  rfl

theorem locate_atOne (amountIn : U64) :
    ∃ cache, atOne.locate (atOne.start amountIn) = .ok (⟨-100, 0⟩, cache) := by
  have long : ¬lastTickOnly.length < tickArrayDataLen := by
    simp only [lastTickOnly, List.length_append, List.length_replicate]
    decide
  have fetched : atOne.fetch 0 ∅ = .ok (lastTickOnly, AList.insert 0 lastTickOnly ∅) := by
    rw [fetch]
    have provided : atOne.provider.poolAccountData (pdaTickArrayAddress atOne.find atOne.poolId 0)
        = some lastTickOnly := by rfl
    simp only [AList.lookup_empty]
    rw [if_neg (by decide), provided]
    exact if_neg long
  refine ⟨AList.insert 0 lastTickOnly ∅, ?_⟩
  have scanned : atOne.scan 0 maxArrayScan 0 ∅ = .ok (some ⟨-100, 0⟩, AList.insert 0 lastTickOnly ∅) := by
    rw [maxArrayScan, scan, if_neg (by decide), if_pos (by decide), fetched]
    simp only [ok_bind]
    rw [show atOne.zeroForOne = true from rfl, find_lastTickOnly]
  unfold locate
  have first : tickArrayStartIndex 0 1 = 0 := by decide
  rw [show tickArrayStartIndex (atOne.start amountIn).tick atOne.pool.tickSpacing = 0 from first]
  rw [show (atOne.start amountIn).tick = 0 from rfl, show (atOne.start amountIn).arrayCache = ∅ from rfl,
    scanned]
  rfl

theorem atOne_quotes {amountIn out : U64} (net price bought : U128) (positive : amountIn ≠ 0)
    (share : amountIn.val * 997500 / 1000000 = net.val) (short : net.val < 5012270)
    (moved : nextSqrtPriceFromAmount0In Q64 ⟨10 ^ 9, by decide⟩ net = some price)
    (sold : getAmount1Delta price Q64 ⟨10 ^ 9, by decide⟩ false = some bought) (fits : bought.val = out.val) :
    atOne.computeSwapOutput amountIn = .ok out := by
  obtain ⟨cache, located⟩ := locate_atOne amountIn
  have priced : atOne.targetAt (-100) = .ok ⟨18354745142194513203, by decide⟩ := by
    have found : getSqrtPriceAtTick (-100) = some ⟨18354745142194513203, by decide⟩ :=
      getSqrtPriceAtTick_eq_some.mpr ⟨by decide, by decide⟩
    rw [targetAt, found]
    decide
  have needed : atOne.amountInToTarget (atOne.start amountIn) ⟨18354745142194513203, by decide⟩
      = .ok ⟨5012270, by decide⟩ := by
    have delta : getAmount0Delta ⟨18354745142194513203, by decide⟩ Q64 ⟨10 ^ 9, by decide⟩ true
        = some ⟨5012270, by decide⟩ := by
      rw [getAmount0Delta_of_le (by decide), if_neg (by decide), Word.tryFrom_eq_some, roundDiv_true,
        Nat.ceilDiv_eq_add_pred_div]
      rfl
    exact okOr_eq_ok.mpr delta
  have shared : atOne.remainingNet amountIn = .ok net := remainingNet_eq_ok.mpr share
  have ended : atOne.iterate (atOne.start amountIn)
      = .ok (toU128 amountIn, { atOne.start amountIn with remaining := 0, totalOut := bought, arrayCache := cache }) := by
    have uncovered : ¬(⟨5012270, by decide⟩ : U128) ≤ net := not_le_of_gt (Fin.lt_def.mpr short)
    unfold iterate
    rw [located, ok_bind]
    simp only
    rw [priced, ok_bind, show (atOne.start amountIn).remaining = amountIn from rfl, shared, ok_bind, needed,
      ok_bind, if_neg uncovered]
    have liquid : (atOne.start amountIn).liquidity ≠ 0 := by
      change (⟨10 ^ 9, _⟩ : U128) ≠ 0
      decide
    have down : nextSqrtPriceFromAmount0In (atOne.start amountIn).sqrtP (atOne.start amountIn).liquidity net
        = some price := moved
    have step : atOne.stepOut (atOne.start amountIn) price = .ok bought := okOr_eq_ok.mpr sold
    have total : (atOne.start amountIn).totalOut.checkedAdd bought = some bought :=
      Word.checkedAdd_eq_some.mpr (Nat.zero_add _)
    unfold finish
    rw [if_neg liquid, show atOne.zeroForOne = true from rfl, if_pos rfl, okOr_eq_ok.mpr down, ok_bind, step,
      ok_bind, okOr_eq_ok.mpr total]
    rfl
  rw [computeSwapOutput, if_neg positive, if_neg (by decide), maxTickCrossings, loop.eq_def,
    if_neg (show (atOne.start amountIn).remaining ≠ 0 from positive)]
  simp only [ended, ok_bind]
  rw [loop.eq_def, if_pos rfl]
  exact okOr_eq_ok.mpr (Word.tryFrom_eq_some.mpr fits)

/-- A thousand of token 0 buy 996 of token 1, and twice as many buy 1994. -/
theorem clmm_walk_sells : atOne.computeSwapOutput 1000 = .ok 996 ∧ atOne.computeSwapOutput 2000 = .ok 1994 ∧
    (996 : U64) ≤ 1994 := by
  have first : atOne.computeSwapOutput 1000 = .ok 996 := by
    refine atOne_quotes 997 ⟨18446725682324046339, by decide⟩ 996
      (by decide) (by decide) (by decide) ?_ ?_ (by decide)
    · rw [nextSqrtPriceFromAmount0In_eq (by decide), Word.tryFrom_eq_some, Nat.ceilDiv_eq_add_pred_div]
      rfl
    · rw [getAmount1Delta_of_le (by decide), Word.tryFrom_eq_some]
      rfl
  have second : atOne.computeSwapOutput 2000 = .ok 1994 := by
    refine atOne_quotes 1995 ⟨18446707272528542922, by decide⟩ 1994
      (by decide) (by decide) (by decide) ?_ ?_ (by decide)
    · rw [nextSqrtPriceFromAmount0In_eq (by decide), Word.tryFrom_eq_some, Nat.ceilDiv_eq_add_pred_div]
      rfl
    · rw [getAmount1Delta_of_le (by decide), Word.tryFrom_eq_some]
      rfl
  exact ⟨first, second, (clmm_walk atOne consistent_atOne).1 1000 2000 996 1994 (by decide) first second⟩

end Quoting

end RndRust.Thunder.Clmm
