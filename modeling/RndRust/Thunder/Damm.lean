import RndRust.Lib.Outcome
import RndRust.Thunder.PriceMoves

/-! The exact-in quote of the DAMM v2 pools. Their liquidity carries 64 binary places more than that of
the pools with tick arrays, so the amounts are not shifted up or are shifted down twice as far. -/
namespace RndRust.Thunder.Damm
open Lib

/-- What the quote reads of `MeteoraDAMMV2Pool`. -/
structure MeteoraDammV2Pool where
  sqrtMinPrice : U128
  sqrtMaxPrice : U128
  collectFeeMode : Word 8

def feeDenom : U128 := Word.wrap 1000000000

/-- `v2_next_sqrt_price_from_a_in`. -/
def v2NextSqrtPriceFromAIn (sqrtPrice liquidity amount : U128) : Option U128 :=
  if amount = 0 then some sqrtPrice
  else do
    let product ← (U512.fromU128 amount).checkedMulU128 sqrtPrice
    let denominator ← (U512.fromU128 liquidity).checkedAdd product
    let n ← (U512.fromU128 liquidity).checkedMulU128 sqrtPrice
    let (q, r) ← n.divRem denominator
    let q ← q.toU128
    if r.isZero then some q else q.checkedAdd 1

/-- `v2_next_sqrt_price_from_b_in`. -/
def v2NextSqrtPriceFromBIn (sqrtPrice liquidity amount : U128) : Option U128 :=
  if amount = 0 then some sqrtPrice
  else if liquidity = 0 then none
  else do
    let shifted ← (U512.fromU128 amount).checkedShl64
    let shifted ← shifted.checkedShl64
    let (quotient, _) ← shifted.divRem (U512.fromU128 liquidity)
    let quotient ← quotient.toU128
    sqrtPrice.checkedAdd quotient

/-- `v2_delta_a`. -/
def v2DeltaA (lower upper liquidity : U128) : Option U128 :=
  if lower = 0 ∨ upper < lower then none
  else do
    let num ← (U512.fromU128 liquidity).checkedMulU128 (upper - lower)
    let denom ← (U512.fromU128 lower).checkedMulU128 upper
    let (q, _) ← num.divRem denom
    q.toU128

/-- `v2_delta_b`. -/
def v2DeltaB (lower upper liquidity : U128) : Option U128 :=
  if upper < lower then none
  else do
    let prod ← (U512.fromU128 liquidity).checkedMulU128 (upper - lower)
    let denom ← (U512.fromU128 1).checkedShl64
    let denom ← denom.checkedShl64
    let (q, _) ← prod.divRem denom
    q.toU128

/-- What a quote comes to on the way. -/
structure Trade where
  netIn : U128
  sqrtNew : U128
  grossOut : U128
  out : U64

namespace MeteoraDammV2Pool

variable (pool : MeteoraDammV2Pool)

def isCompounding : Bool := pool.collectFeeMode = 2

def feeOnInput (aToB : Bool) : Bool := !aToB && (pool.collectFeeMode = 1 || pool.collectFeeMode = 2)

def netIn (aToB : Bool) (feeNum amountIn : U64) : Except String U128 :=
  if pool.feeOnInput aToB then do
    let fee ← okOr (mulDivCeil (toU128 amountIn) (toU128 feeNum) feeDenom) "fee overflow"
    .ok ((toU128 amountIn).saturatingSub fee)
  else .ok (toU128 amountIn)

def sqrtNew (aToB : Bool) (liquidity sqrtPrice netIn : U128) : Except String U128 :=
  if aToB then do
    let sqrtNew ← okOr (v2NextSqrtPriceFromAIn sqrtPrice liquidity netIn) "sqrt price math overflow"
    if !pool.isCompounding ∧ 0 < pool.sqrtMinPrice ∧ sqrtNew < pool.sqrtMinPrice then
      .error "swap exceeds pool min price — insufficient range liquidity"
    else .ok sqrtNew
  else do
    let sqrtNew ← okOr (v2NextSqrtPriceFromBIn sqrtPrice liquidity netIn) "sqrt price math overflow"
    if !pool.isCompounding ∧ 0 < pool.sqrtMaxPrice ∧ pool.sqrtMaxPrice < sqrtNew then
      .error "swap exceeds pool max price — insufficient range liquidity"
    else .ok sqrtNew

def grossOut (aToB : Bool) (liquidity sqrtPrice sqrtNew : U128) : Except String U128 :=
  okOr (if aToB then v2DeltaB sqrtNew sqrtPrice liquidity else v2DeltaA sqrtPrice sqrtNew liquidity)
    "delta overflow"

/-- What is left of the output when the fee is charged on it. -/
def paidOut (aToB : Bool) (feeNum : U64) (grossOut : U128) : Except String U128 :=
  if pool.feeOnInput aToB then .ok grossOut
  else do
    let fee ← okOr (mulDivCeil grossOut (toU128 feeNum) feeDenom) "fee overflow"
    .ok (grossOut.saturatingSub fee)

/-- The quote, with the price that it moves to. The numerator of the fee depends on the clock, and for
some pools it is computed with floating point. -/
def trade (aToB : Bool) (liquidity sqrtPrice : U128) (feeNum amountIn : U64) : Except String Trade :=
  if liquidity = 0 then .error "Pool has zero liquidity"
  else if sqrtPrice = 0 then .error "Pool has zero price"
  else do
    let netIn ← pool.netIn aToB feeNum amountIn
    let sqrtNew ← pool.sqrtNew aToB liquidity sqrtPrice netIn
    let grossOut ← grossOut aToB liquidity sqrtPrice sqrtNew
    let paid ← pool.paidOut aToB feeNum grossOut
    let out ← okOr (Word.tryFrom paid.val) "output exceeds u64"
    .ok ⟨netIn, sqrtNew, grossOut, out⟩

/-- `v2_swap_exact_in`. -/
def v2SwapExactIn (aToB : Bool) (liquidity sqrtPrice : U128) (feeNum amountIn : U64) : Except String U64 :=
  (pool.trade aToB liquidity sqrtPrice feeNum amountIn).map Trade.out

end MeteoraDammV2Pool

section Prices

variable {sqrtPrice liquidity amount lower upper next : U128}

theorem v2NextSqrtPriceFromAIn_eq (positive : 0 < liquidity.val) :
    v2NextSqrtPriceFromAIn sqrtPrice liquidity amount = Word.tryFrom
      ((liquidity.val * sqrtPrice.val) ⌈/⌉ (liquidity.val + amount.val * sqrtPrice.val)) := by
  unfold v2NextSqrtPriceFromAIn
  split
  case isTrue nothing =>
    rw [nothing, Fin.val_zero, Nat.zero_mul, Nat.add_zero, ← smul_eq_mul _ sqrtPrice.val,
      smul_ceilDiv positive, Word.tryFrom_val]
  case isFalse some =>
    obtain ⟨product, multiplied, product_is⟩ := exists_product amount sqrtPrice
    have second : product.toNat < 2 ^ 256 :=
      product_is ▸ (Nat.mul_lt_mul'' amount.isLt sqrtPrice.isLt).trans_eq (by rw [← pow_add])
    have first : (U512.fromU128 liquidity).toNat < 2 ^ 256 := by
      rw [U512.toNat_fromU128]
      exact liquidity.isLt.trans (by decide)
    have narrow := add_lt_two_pow_succ first second
    obtain ⟨denominator, sum, denominator_is⟩ := U512.exists_checkedAdd
      (U512.lt_capacity narrow (by decide))
    obtain ⟨n, numerator, n_is⟩ := exists_product liquidity sqrtPrice
    rw [U512.toNat_fromU128, product_is] at denominator_is
    obtain ⟨q, r, divided, quotient, rem⟩ := U512.exists_divRem (a := n) (b := denominator)
      (by rw [denominator_is]; exact Nat.add_pos_left positive _)
    rw [n_is, denominator_is] at quotient rem
    simp only [multiplied, sum, numerator, divided, Option.bind_eq_bind, Option.bind_some]
    exact ceil_of_parts (Nat.add_pos_left positive _) quotient rem

/-- Twice 64 places up. -/
theorem exists_shifted_twice (a : U128) : ∃ b c, (U512.fromU128 a).checkedShl64 = some b ∧
    b.checkedShl64 = some c ∧ c.toNat = a.val * 2 ^ 128 := by
  obtain ⟨b, first, b_is⟩ := exists_shifted a
  have fits : b.toNat * 2 ^ 64 < U512.capacity := by
    have bound : b.toNat * 2 ^ 64 < 2 ^ 256 := by have := a.isLt; omega
    exact U512.lt_capacity bound (by decide)
  obtain ⟨c, second, c_is⟩ := U512.exists_checkedShl64 fits
  exact ⟨b, c, first, second, by rw [c_is, b_is, Nat.mul_assoc, ← pow_add]⟩

theorem v2NextSqrtPriceFromBIn_eq (positive : 0 < liquidity.val) :
    v2NextSqrtPriceFromBIn sqrtPrice liquidity amount
      = Word.tryFrom (sqrtPrice.val + amount.val * 2 ^ 128 / liquidity.val) := by
  unfold v2NextSqrtPriceFromBIn
  split
  case isTrue nothing => simp [nothing]
  case isFalse some =>
    obtain ⟨once, twice, first, second, shifted⟩ := exists_shifted_twice amount
    obtain ⟨q, r, divided, quotient, -⟩ := U512.exists_divRem (a := twice) (b := U512.fromU128 liquidity)
      (by rwa [U512.toNat_fromU128])
    rw [shifted, U512.toNat_fromU128] at quotient
    rw [if_neg fun zero => positive.ne' (congrArg Fin.val zero)]
    refine Option.ext fun d => ?_
    simp only [first, second, divided, Option.bind_eq_bind, Option.bind_some, U512.toU128_eq, quotient,
      Option.bind_eq_some_iff, Word.tryFrom_eq_some, Word.checkedAdd_eq_some]
    constructor
    · rintro ⟨quotient, is, sum⟩
      rw [is, sum]
    · intro sum
      exact ⟨⟨_, (Nat.le_add_left _ _).trans_lt (sum.trans_lt d.isLt)⟩, rfl, sum⟩

theorem v2DeltaA_eq (positive : 0 < lower.val) (le : lower ≤ upper) : v2DeltaA lower upper liquidity
    = Word.tryFrom (liquidity.val * (upper.val - lower.val) / (upper.val * lower.val)) := by
  have high : 0 < upper.val := positive.trans_le le
  obtain ⟨num, made, num_is⟩ := exists_product liquidity (upper - lower)
  obtain ⟨denom, multiplied, denom_is⟩ := exists_product lower upper
  obtain ⟨q, r, divided, quotient, -⟩ := U512.exists_divRem (a := num) (b := denom)
    (by rw [denom_is]; exact Nat.mul_pos positive high)
  rw [num_is, denom_is, val_sub_of_le le, Nat.mul_comm lower.val] at quotient
  have in_order : ¬(lower = 0 ∨ upper < lower) := by
    rintro (zero | below)
    · exact positive.ne' (congrArg Fin.val zero)
    · exact below.not_ge le
  rw [v2DeltaA, if_neg in_order]
  simp only [made, multiplied, divided, Option.bind_eq_bind, Option.bind_some, U512.toU128_eq, quotient]

theorem v2DeltaB_eq (le : lower ≤ upper) : v2DeltaB lower upper liquidity
    = Word.tryFrom (liquidity.val * (upper.val - lower.val) / 2 ^ 128) := by
  obtain ⟨prod, made, prod_is⟩ := exists_product liquidity (upper - lower)
  obtain ⟨once, denom, first, second, denom_is⟩ := exists_shifted_twice 1
  rw [val_one, Nat.one_mul] at denom_is
  obtain ⟨q, r, divided, quotient, -⟩ := U512.exists_divRem (a := prod) (b := denom)
    (by rw [denom_is]; exact Nat.two_pow_pos 128)
  rw [prod_is, denom_is, val_sub_of_le le] at quotient
  rw [v2DeltaB, if_neg le.not_gt]
  simp only [made, first, second, divided, Option.bind_eq_bind, Option.bind_some, U512.toU128_eq, quotient]

end Prices

section Trades

variable {pool : MeteoraDammV2Pool} {aToB : Bool} {liquidity sqrtPrice net next gross paid : U128}
  {feeNum amountIn : U64} {t : Trade}

open MeteoraDammV2Pool

theorem netIn_le (charged : pool.netIn aToB feeNum amountIn = .ok net) : net.val ≤ amountIn.val := by
  unfold netIn at charged
  split at charged
  · obtain ⟨fee, -, charged⟩ := bind_eq_ok.mp charged
    rw [← Except.ok.inj charged]
    exact Nat.sub_le _ _
  · rw [← Except.ok.inj charged]
    exact le_rfl

theorem paidOut_le (charged : pool.paidOut aToB feeNum gross = .ok paid) : paid.val ≤ gross.val := by
  unfold MeteoraDammV2Pool.paidOut at charged
  split at charged
  · exact (congrArg Fin.val (Except.ok.inj charged)).ge
  · obtain ⟨fee, -, charged⟩ := bind_eq_ok.mp charged
    rw [← Except.ok.inj charged]
    exact Nat.sub_le _ _

theorem sqrtNew_down (liquid : 0 < liquidity.val) (priced : 0 < sqrtPrice.val)
    (moved : pool.sqrtNew true liquidity sqrtPrice net = .ok next) :
    MovedDown liquidity.val sqrtPrice.val net.val next.val ∧
      (pool.collectFeeMode ≠ 2 → pool.sqrtMinPrice ≤ next) := by
  rw [sqrtNew, if_pos rfl] at moved
  obtain ⟨found, priced_at, moved⟩ := bind_eq_ok.mp moved
  rw [okOr_eq_ok, v2NextSqrtPriceFromAIn_eq liquid, Word.tryFrom_eq_some] at priced_at
  split at moved
  · cases moved
  case isFalse inside =>
    obtain rfl := Except.ok.inj moved
    refine ⟨movedDown_of_ceilDiv liquid priced priced_at, fun ranged => ?_⟩
    by_contra outside
    have below := not_le.mp outside
    exact inside ⟨by simp [isCompounding, ranged], (Fin.zero_le _).trans_lt below, below⟩

theorem sqrtNew_up (liquid : 0 < liquidity.val) (moved : pool.sqrtNew false liquidity sqrtPrice net = .ok next) :
    MovedUp liquidity.val sqrtPrice.val (2 ^ 64 * net.val) next.val ∧
      (pool.collectFeeMode ≠ 2 → 0 < pool.sqrtMaxPrice → next ≤ pool.sqrtMaxPrice) := by
  rw [sqrtNew, if_neg Bool.false_ne_true] at moved
  obtain ⟨found, priced_at, moved⟩ := bind_eq_ok.mp moved
  rw [okOr_eq_ok, v2NextSqrtPriceFromBIn_eq liquid, Word.tryFrom_eq_some] at priced_at
  split at moved
  · cases moved
  case isFalse inside =>
    obtain rfl := Except.ok.inj moved
    refine ⟨⟨priced_at ▸ Nat.le_add_right _ _, ?_⟩, fun ranged bounded => ?_⟩
    · rw [← priced_at, Nat.add_sub_cancel_left, ← Nat.mul_assoc, ← pow_add, Nat.mul_comm (2 ^ _) net.val]
      exact Nat.mul_div_le _ _
    · by_contra outside
      exact inside ⟨by simp [isCompounding, ranged], bounded, not_le.mp outside⟩

/-- The stages of a quote that succeeds. -/
theorem trade_cases (quoted : pool.trade aToB liquidity sqrtPrice feeNum amountIn = .ok t) :
    0 < liquidity.val ∧ 0 < sqrtPrice.val ∧ t.netIn.val ≤ amountIn.val ∧
      pool.sqrtNew aToB liquidity sqrtPrice t.netIn = .ok t.sqrtNew ∧
      grossOut aToB liquidity sqrtPrice t.sqrtNew = .ok t.grossOut ∧ t.out.val ≤ t.grossOut.val := by
  unfold trade at quoted
  split at quoted
  · cases quoted
  case isFalse liquid =>
    split at quoted
    · cases quoted
    case isFalse priced =>
      obtain ⟨net, charged, quoted⟩ := bind_eq_ok.mp quoted
      obtain ⟨next, moved, quoted⟩ := bind_eq_ok.mp quoted
      obtain ⟨gross, bought, quoted⟩ := bind_eq_ok.mp quoted
      obtain ⟨paid, left, quoted⟩ := bind_eq_ok.mp quoted
      obtain ⟨out, fits, quoted⟩ := bind_eq_ok.mp quoted
      obtain rfl := Except.ok.inj quoted
      rw [okOr_eq_ok, Word.tryFrom_eq_some] at fits
      exact ⟨Fin.pos_iff_ne_zero.mpr liquid, Fin.pos_iff_ne_zero.mpr priced, netIn_le charged, moved, bought,
        fits ▸ paidOut_le left⟩

/-- Token a comes in. -/
theorem trade_down (quoted : pool.trade true liquidity sqrtPrice feeNum amountIn = .ok t) :
    MovedDown liquidity.val sqrtPrice.val t.netIn.val t.sqrtNew.val ∧
      t.out.val ≤ liquidity.val * (sqrtPrice.val - t.sqrtNew.val) / 2 ^ 128 := by
  obtain ⟨liquid, priced, -, moved, bought, out⟩ := trade_cases quoted
  have down := (sqrtNew_down liquid priced moved).1
  rw [grossOut, if_pos rfl, okOr_eq_ok, v2DeltaB_eq down.lower, Word.tryFrom_eq_some] at bought
  exact ⟨down, bought ▸ out⟩

/-- Token b comes in. -/
theorem trade_up (quoted : pool.trade false liquidity sqrtPrice feeNum amountIn = .ok t) :
    MovedUp liquidity.val sqrtPrice.val (2 ^ 64 * t.netIn.val) t.sqrtNew.val ∧ t.out.val ≤
      liquidity.val * (t.sqrtNew.val - sqrtPrice.val) / (t.sqrtNew.val * sqrtPrice.val) := by
  obtain ⟨liquid, priced, -, moved, bought, out⟩ := trade_cases quoted
  have up := (sqrtNew_up liquid moved).1
  rw [grossOut, if_neg Bool.false_ne_true, okOr_eq_ok, v2DeltaA_eq priced up.higher, Word.tryFrom_eq_some] at bought
  exact ⟨up, bought ▸ out⟩

/-- The exact input for the way between two prices. -/
def exactInput (aToB : Bool) (sqrtPrice next liquidity : U128) : ℚ :=
  if aToB then liquidity.val * ((sqrtPrice.val : ℚ) - next.val) / (sqrtPrice.val * next.val)
  else liquidity.val * ((next.val : ℚ) - sqrtPrice.val) / 2 ^ 128

theorem exactInput_le (quoted : pool.trade aToB liquidity sqrtPrice feeNum amountIn = .ok t) :
    rounded true (exactInput aToB sqrtPrice t.sqrtNew liquidity) ≤ t.netIn.val := by
  obtain ⟨-, priced, -⟩ := trade_cases quoted
  cases aToB with
  | true =>
    have down := (trade_down quoted).1
    have paid := (ceilDiv_le_iff_le_mul (Nat.mul_pos priced down.positive)).mpr down.paid
    rw [← roundDiv_true, roundDiv_eq_rounded (Nat.mul_pos priced down.positive)] at paid
    push_cast [down.lower] at paid
    exact paid
  | false =>
    have up := (trade_up quoted).1
    have covered := up.paid
    rw [← Nat.mul_assoc, ← pow_add] at covered
    have paid := (ceilDiv_le_iff_le_mul (Nat.two_pow_pos 128)).mpr covered
    rw [← roundDiv_true, roundDiv_eq_rounded (Nat.two_pow_pos 128)] at paid
    push_cast [up.higher] at paid
    exact paid

/-- A trade that is turned back at once returns at most what was paid in. -/
theorem trade_back_le {back : Trade} {feeBack : U64}
    (quoted : pool.trade aToB liquidity sqrtPrice feeNum amountIn = .ok t)
    (turned : pool.trade (!aToB) liquidity t.sqrtNew feeBack t.out = .ok back) : back.out.val ≤ amountIn.val := by
  obtain ⟨liquid, priced, charged, -⟩ := trade_cases quoted
  obtain ⟨-, -, charged_back, -⟩ := trade_cases turned
  refine Nat.le_trans ?_ charged
  cases aToB with
  | true =>
    obtain ⟨down, sold⟩ := trade_down quoted
    obtain ⟨up, returned⟩ := trade_up turned
    have covered : 2 ^ 64 * (2 ^ 64 * back.netIn.val) ≤ liquidity.val * (sqrtPrice.val - t.sqrtNew.val) := by
      rw [← Nat.mul_assoc, ← pow_add]
      exact (Nat.mul_le_mul_left _ (charged_back.trans sold)).trans (Nat.mul_div_le _ _)
    exact returned.trans (down.back_le up.higher (up.below liquid covered down.lower))
  | false =>
    obtain ⟨up, sold⟩ := trade_up quoted
    obtain ⟨down, returned⟩ := trade_down turned
    have covered : t.sqrtNew.val * sqrtPrice.val * back.netIn.val ≤ liquidity.val * (t.sqrtNew.val - sqrtPrice.val) :=
      (Nat.mul_le_mul_left _ (charged_back.trans sold)).trans (Nat.mul_div_le _ _)
    have above := down.above liquid up.higher covered
    refine returned.trans (Nat.div_le_of_le_mul ?_)
    have paid := up.paid
    rw [← Nat.mul_assoc, ← pow_add] at paid
    exact (Nat.mul_le_mul_left _ (Nat.sub_le_sub_left above _)).trans paid

end Trades

/-- For every trade that is quoted: turned back from the price that it leads to it yields at most what
came in, the input that this price needs is at most the net input, and the price stays in the pool's
range, except that a pool that compounds its fees has no bound in the direction of the trade. -/
theorem round_trips_never_profit (pool : MeteoraDammV2Pool) (aToB : Bool) (liquidity sqrtPrice : U128)
    (feeNum amountIn : U64) {t : Trade} (above : pool.sqrtMinPrice ≤ sqrtPrice) (below : sqrtPrice ≤ pool.sqrtMaxPrice)
    (quoted : pool.trade aToB liquidity sqrtPrice feeNum amountIn = .ok t) :
    (∀ feeBack back, pool.v2SwapExactIn (!aToB) liquidity t.sqrtNew feeBack t.out = .ok back → back ≤ amountIn) ∧
    rounded true (exactInput aToB sqrtPrice t.sqrtNew liquidity) ≤ t.netIn.val ∧
    (pool.collectFeeMode ≠ 2 ∨ aToB = false → pool.sqrtMinPrice ≤ t.sqrtNew) ∧
    (pool.collectFeeMode ≠ 2 ∨ aToB = true → t.sqrtNew ≤ pool.sqrtMaxPrice) := by
  obtain ⟨liquid, priced, charged, moved, -⟩ := trade_cases quoted
  refine ⟨fun feeBack back returned => ?_, exactInput_le quoted, ?_⟩
  · rw [MeteoraDammV2Pool.v2SwapExactIn] at returned
    cases turned : pool.trade (!aToB) liquidity t.sqrtNew feeBack t.out with
    | error e =>
      rw [turned] at returned
      cases returned
    | ok trade =>
      rw [turned] at returned
      obtain rfl := Except.ok.inj returned
      exact trade_back_le quoted turned
  · cases aToB with
    | true =>
      obtain ⟨down, ranged⟩ := sqrtNew_down liquid priced moved
      refine ⟨fun normal => ranged (normal.resolve_right nofun), fun _ => ?_⟩
      exact le_trans down.lower below
    | false =>
      obtain ⟨up, ranged⟩ := sqrtNew_up liquid moved
      refine ⟨fun _ => le_trans above up.higher, fun normal => ?_⟩
      have bounded : 0 < pool.sqrtMaxPrice := lt_of_lt_of_le (show 0 < sqrtPrice from priced) below
      exact ranged (normal.resolve_right Bool.false_ne_true) bounded

section Halving

variable {pool : MeteoraDammV2Pool}

open MeteoraDammV2Pool

/-- A quote without a fee that halves the square root of the price, for two of token b. -/
theorem trade_halves (ranged : pool.collectFeeMode = 2 ∨ pool.sqrtMinPrice.val ≤ 2 ^ 63) :
    pool.trade true ⟨2 ^ 66, by decide⟩ Q64 0 4 = .ok ⟨4, ⟨2 ^ 63, by decide⟩, 2, 2⟩ := by
  have charged : pool.netIn true 0 4 = .ok 4 := rfl
  have moved : pool.sqrtNew true ⟨2 ^ 66, by decide⟩ Q64 4 = .ok ⟨2 ^ 63, by decide⟩ := by
    have priced : v2NextSqrtPriceFromAIn Q64 ⟨2 ^ 66, by decide⟩ 4 = some ⟨2 ^ 63, by decide⟩ := by
      rw [v2NextSqrtPriceFromAIn_eq (by decide), Word.tryFrom_eq_some, Nat.ceilDiv_eq_add_pred_div]
      rfl
    rw [sqrtNew, if_pos rfl, priced]
    refine if_neg ?_
    rintro ⟨normal, -, below⟩
    obtain compounding | low := ranged
    · simp [isCompounding, compounding] at normal
    · exact (Fin.lt_def.mp below).not_ge low
  have bought : grossOut true ⟨2 ^ 66, by decide⟩ Q64 ⟨2 ^ 63, by decide⟩ = .ok 2 := by
    rw [grossOut, if_pos rfl, v2DeltaB_eq (by decide), okOr_eq_ok, Word.tryFrom_eq_some]
    rfl
  have left : pool.paidOut true 0 2 = .ok 2 := by
    rw [MeteoraDammV2Pool.paidOut, if_neg (by simp [feeOnInput]), mulDivCeil_eq]
    rfl
  rw [trade, if_neg (by decide), if_neg (by decide), charged, ok_bind, moved, ok_bind, bought,
    ok_bind, left]
  rfl

theorem round_trips_never_profit_halved : rounded true
    (exactInput true Q64 ⟨2 ^ 63, by decide⟩ ⟨2 ^ 66, by decide⟩) ≤ 4 :=
  (round_trips_never_profit ⟨⟨2 ^ 62, by decide⟩, ⟨2 ^ 65, by decide⟩, 0⟩ true _ _ _ _ (by decide) (by decide)
    (trade_halves (.inr (by decide)))).2.1

/-- A pool that compounds its fees, at the lowest price of its range. -/
theorem round_trips_never_profit_fails : ∃ (pool : MeteoraDammV2Pool) (liquidity sqrtPrice : U128) (amountIn : U64)
    (t : Trade), pool.sqrtMinPrice ≤ sqrtPrice ∧ sqrtPrice ≤ pool.sqrtMaxPrice ∧
      pool.trade true liquidity sqrtPrice 0 amountIn = .ok t ∧ t.sqrtNew < pool.sqrtMinPrice :=
  ⟨⟨Q64, Q64, 2⟩, _, _, _, _, le_rfl, le_rfl, trade_halves (.inl rfl), by decide⟩

end Halving

end RndRust.Thunder.Damm
