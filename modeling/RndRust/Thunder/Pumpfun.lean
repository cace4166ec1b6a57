import RndRust.Lib.Rounding
import RndRust.Thunder.ConstantProduct

/-! The quotes of the `pumpfun-amm` crate: from the live balances of the two vaults, and from the
virtual reserves of the bonding curve while there are none. -/
namespace RndRust.Thunder.Pumpfun
open Lib

structure PumpfunBondingCurve where
  virtualTokenReserves : U64
  virtualSolReserves : U64
  deriving DecidableEq

structure PumpfunAmmMarket where
  bondingCurve : Option PumpfunBondingCurve

/-- `saturating_sub(..) as u64`, of the reserve that the quote pays out of and what is left there. -/
def outputOf (reserve left : U128) : U64 := Word.wrap (reserve.saturatingSub left).val

/-- `calculate_bonding_curve_output`. -/
def calculateBondingCurveOutput (market : PumpfunAmmMarket) (amountIn : U64) (direction : SwapDirection) :
    Except String U64 := do
  let bondingCurve ← okOr market.bondingCurve "Bonding curve data not available"
  let feeBps : U64 := 100
  let feeMultiplier := 10000 - feeBps
  let amountInWithFee := toU128 amountIn * toU128 feeMultiplier / 10000
  let virtualSol := toU128 bondingCurve.virtualSolReserves
  let virtualToken := toU128 bondingCurve.virtualTokenReserves
  if virtualSol = 0 ∨ virtualToken = 0 then .error "Bonding curve has zero virtual reserves"
  else
    let k := virtualSol * virtualToken
    match direction with
    | .buy =>
      let newSol := virtualSol + amountInWithFee
      let newToken := k / newSol
      .ok (outputOf virtualToken newToken)
    | .sell =>
      let newToken := virtualToken + amountInWithFee
      let newSol := k / newToken
      .ok (outputOf virtualSol newSol)

/-- `DEFAULT_LP_FEE_BPS`. -/
def defaultLpFeeBps : U64 := 20

/-- `DEFAULT_PROTOCOL_FEE_BPS`. -/
def defaultProtocolFeeBps : U64 := 5

/-- `DEFAULT_COIN_CREATOR_FEE_BPS`. -/
def defaultCoinCreatorFeeBps : U64 := 5

/-- `total_fee_bps`. The address of the global configuration is derived by a hash. -/
def totalFeeBps (globalConfig : Pubkey) (accounts : Option AccountDataProvider) : U64 :=
  let read := accounts.bind fun provider => (provider.poolAccountData globalConfig).bind fun data =>
    if 321 ≤ data.length then
      let lp : U64 := Word.wrap (field data 40 8)
      let protocol : U64 := Word.wrap (field data 48 8)
      let creator : U64 := Word.wrap (field data 313 8)
      let total := lp + protocol + creator
      if 0 < total ∧ total ≤ 1000 then some total else none
    else none
  read.getD (defaultLpFeeBps + defaultProtocolFeeBps + defaultCoinCreatorFeeBps)

/-- `calculate_live_cp_output`. -/
def calculateLiveCpOutput (amountIn : U64) (direction : SwapDirection)
    (quoteVaultBalance baseVaultBalance feeBps : U64) : Except String U64 :=
  if quoteVaultBalance = 0 ∨ baseVaultBalance = 0 then .error "Pumpfun pool has zero live reserves"
  else
    let q := toU128 quoteVaultBalance
    let b := toU128 baseVaultBalance
    match direction with
    | .buy =>
      let qCp := toU128 amountIn * 10000 / (10000 + toU128 feeBps)
      let out := b * qCp / (q + qCp)
      .ok (Word.wrap out.val)
    | .sell =>
      let outCp := q * toU128 amountIn / (b + toU128 amountIn)
      let fee : U128 := Word.wrap ((outCp * toU128 feeBps).val ⌈/⌉ 10000)
      .ok (outputOf outCp fee)

/-- `calculate_output_live_ex`. Without accounts it is `calculate_output_live`, and without balances
`calculate_output`. -/
def calculateOutputLiveEx (globalConfig : Pubkey) (market : PumpfunAmmMarket) (amountIn : U64)
    (direction : SwapDirection) (quoteVaultBalance baseVaultBalance : U64)
    (accounts : Option AccountDataProvider) : Except String U64 :=
  if quoteVaultBalance = 0 ∨ baseVaultBalance = 0 then calculateBondingCurveOutput market amountIn direction
  else calculateLiveCpOutput amountIn direction quoteVaultBalance baseVaultBalance
    (totalFeeBps globalConfig accounts)

/-- What a quote is made of: the two reserves, and the input without the fees on it. -/
structure Trade where
  reserveIn : ℕ
  reserveOut : ℕ
  net : ℕ

/-- The output is at most the exact one, rounded down, and the product of the reserves does not
fall. -/
def Trade.Fair (trade : Trade) (out : ℕ) : Prop :=
  out ≤ paidOut trade.reserveIn trade.reserveOut trade.net ∧
    trade.reserveIn * trade.reserveOut ≤ (trade.reserveIn + trade.net) * (trade.reserveOut - out)

def bondingTrade (curve : PumpfunBondingCurve) (amountIn : U64) : SwapDirection → Trade
  | .buy => ⟨curve.virtualSolReserves.val, curve.virtualTokenReserves.val, lessFee amountIn.val 100⟩
  | .sell => ⟨curve.virtualTokenReserves.val, curve.virtualSolReserves.val, lessFee amountIn.val 100⟩

/-- The fee of a sale is taken from what is paid out. -/
def liveTrade (quoteVaultBalance baseVaultBalance amountIn feeBps : U64) : SwapDirection → Trade
  | .buy => ⟨quoteVaultBalance.val, baseVaultBalance.val, amountIn.val * 10000 / (10000 + feeBps.val)⟩
  | .sell => ⟨baseVaultBalance.val, quoteVaultBalance.val, amountIn.val⟩

section Fairness

variable {market : PumpfunAmmMarket} {curve : PumpfunBondingCurve} {direction : SwapDirection}
  {amountIn quoteVaultBalance baseVaultBalance feeBps out reserveIn reserveOut : U64} {trade : Trade}

theorem fair_iff (some : 0 < trade.reserveIn) {n : ℕ} (within : n ≤ trade.reserveOut) :
    trade.Fair n ↔ n ≤ paidOut trade.reserveIn trade.reserveOut trade.net :=
  ⟨And.left, fun less => ⟨less, (product_le_iff some within).mpr less⟩⟩

theorem val_outputOf {left : U128} : (outputOf (toU128 reserveOut) left).val = reserveOut.val - left.val := by
  have := reserveOut.isLt
  rw [outputOf, Word.val_wrap, Word.val_saturatingSub, val_toU128]
  exact Nat.mod_eq_of_lt (by omega)

theorem net_eq : (toU128 amountIn * toU128 (10000 - 100) / 10000 : U128).val = lessFee amountIn.val 100 := by
  have product : amountIn.val * 9900 < 2 ^ 128 := by
    have := amountIn.isLt
    omega
  rw [Fin.div_val, Fin.val_mul, val_toU128, val_toU128]
  exact congrArg (· / 10000) (Nat.mod_eq_of_lt product)

/-- Both directions of the bonding curve, of the reserves that the direction pays into and out of. -/
theorem val_bondingOutput {k net : U128} (product : k = toU128 reserveIn * toU128 reserveOut)
    (fits : net.val < 2 ^ 64) : (outputOf (toU128 reserveOut) (k / (toU128 reserveIn + net))).val
      = reserveOut.val - reserveIn.val * reserveOut.val / (reserveIn.val + net.val) := by
  have room : reserveIn.val * reserveOut.val < 2 ^ 128 :=
    (Nat.mul_lt_mul'' reserveIn.isLt reserveOut.isLt).trans_eq (by rw [← pow_add])
  have sum : reserveIn.val + net.val < 2 ^ 128 := by
    have := reserveIn.isLt
    omega
  rw [val_outputOf, product, Fin.div_val, Fin.val_mul, Fin.val_add, val_toU128, val_toU128,
    Nat.mod_eq_of_lt room, Nat.mod_eq_of_lt sum]

theorem bondingTrade_product : (bondingTrade curve amountIn direction).reserveIn
    * (bondingTrade curve amountIn direction).reserveOut
    = curve.virtualSolReserves.val * curve.virtualTokenReserves.val := by
  cases direction with
  | buy => rfl
  | sell => exact Nat.mul_comm _ _

/-- The output of the bonding curve divides the product of the reserves first and subtracts
afterwards. -/
theorem calculateBondingCurveOutput_eq_ok (curves : market.bondingCurve = some curve) :
    calculateBondingCurveOutput market amountIn direction = .ok out ↔
      0 < curve.virtualSolReserves.val ∧ 0 < curve.virtualTokenReserves.val ∧
      out.val = (bondingTrade curve amountIn direction).reserveOut
        - (bondingTrade curve amountIn direction).reserveIn * (bondingTrade curve amountIn direction).reserveOut
          / ((bondingTrade curve amountIn direction).reserveIn + (bondingTrade curve amountIn direction).net) := by
  have fits : (toU128 amountIn * toU128 (10000 - 100) / 10000 : U128).val < 2 ^ 64 := by
    rw [net_eq]
    exact lessFee_le.trans_lt amountIn.isLt
  have positive : ¬(toU128 curve.virtualSolReserves = 0 ∨ toU128 curve.virtualTokenReserves = 0) ↔
      0 < curve.virtualSolReserves.val ∧ 0 < curve.virtualTokenReserves.val := by
    rw [← Fin.val_eq_zero_iff, ← Fin.val_eq_zero_iff, val_toU128, val_toU128]
    omega
  rw [calculateBondingCurveOutput, curves]
  change (if toU128 curve.virtualSolReserves = 0 ∨ toU128 curve.virtualTokenReserves = 0 then _ else _) = _ ↔ _
  rw [← and_assoc, ← positive]
  split
  case isTrue nothing => simp [nothing]
  case isFalse some =>
    simp only [some, not_false_eq_true, true_and]
    cases direction with
    | buy =>
      rw [Except.ok.injEq, ← Fin.val_inj, val_bondingOutput rfl fits, net_eq]
      exact eq_comm
    | sell =>
      rw [Except.ok.injEq, ← Fin.val_inj, val_bondingOutput (Fin.mul_comm _ _) fits, net_eq]
      exact eq_comm

/-- The product of the live reserves is divided only after the multiplication. -/
theorem val_paidOut {net : U128} (some : 0 < reserveIn.val) (fits : net.val < 2 ^ 64) :
    (toU128 reserveOut * net / (toU128 reserveIn + net)).val = paidOut reserveIn.val reserveOut.val net.val := by
  have product : reserveOut.val * net.val < 2 ^ 128 :=
    (Nat.mul_lt_mul'' reserveOut.isLt fits).trans_eq (by rw [← pow_add])
  have sum : reserveIn.val + net.val < 2 ^ 128 := by
    have := reserveIn.isLt
    omega
  rw [Fin.div_val, Fin.val_mul, Fin.val_add, val_toU128, val_toU128, Nat.mod_eq_of_lt product,
    Nat.mod_eq_of_lt sum, paidOut, Nat.mul_comm]

theorem liveNet_eq : (toU128 amountIn * 10000 / (10000 + toU128 feeBps) : U128).val
    = amountIn.val * 10000 / (10000 + feeBps.val) := by
  have product : amountIn.val * 10000 < 2 ^ 128 := by
    have := amountIn.isLt
    omega
  have sum : 10000 + feeBps.val < 2 ^ 128 := by
    have := feeBps.isLt
    omega
  rw [Fin.div_val, Fin.val_mul, Fin.val_add, val_toU128, val_toU128]
  exact congrArg₂ (· / ·) (Nat.mod_eq_of_lt product) (Nat.mod_eq_of_lt sum)

theorem calculateLiveCpOutput_fair
    (quoted : calculateLiveCpOutput amountIn direction quoteVaultBalance baseVaultBalance feeBps = .ok out) :
    (liveTrade quoteVaultBalance baseVaultBalance amountIn feeBps direction).Fair out.val := by
  unfold calculateLiveCpOutput at quoted
  split at quoted
  case isTrue => cases quoted
  case isFalse liquid =>
    rw [not_or, ← Fin.val_eq_zero_iff, ← Fin.val_eq_zero_iff] at liquid
    have quote := Nat.pos_of_ne_zero liquid.1
    have base := Nat.pos_of_ne_zero liquid.2
    cases direction with
    | buy =>
      have small : (toU128 amountIn * 10000 / (10000 + toU128 feeBps) : U128).val < 2 ^ 64 := by
        rw [liveNet_eq]
        refine (Nat.div_le_of_le_mul ?_).trans_lt amountIn.isLt
        rw [Nat.mul_comm]
        exact Nat.mul_le_mul_right _ (Nat.le_add_right _ _)
      obtain rfl := Except.ok.inj quoted
      have less := paidOut_lt (a := amountIn.val * 10000 / (10000 + feeBps.val)) quote base
      have exactly := @val_paidOut _ baseVaultBalance _ quote small
      rw [liveNet_eq] at exactly
      rw [Word.val_wrap, exactly, Nat.mod_eq_of_lt (less.trans baseVaultBalance.isLt)]
      exact (fair_iff quote less.le).mpr le_rfl
    | sell =>
      obtain rfl := Except.ok.inj quoted
      have less := paidOut_lt (a := amountIn.val) base quote
      have exactly := @val_paidOut _ quoteVaultBalance (toU128 amountIn) base amountIn.isLt
      have below : (outputOf (toU128 quoteVaultBalance * toU128 amountIn
          / (toU128 baseVaultBalance + toU128 amountIn))
          (Word.wrap ((toU128 quoteVaultBalance * toU128 amountIn
            / (toU128 baseVaultBalance + toU128 amountIn) * toU128 feeBps).val ⌈/⌉ 10000))).val
          ≤ paidOut baseVaultBalance.val quoteVaultBalance.val amountIn.val := by
        rw [outputOf, Word.val_wrap, Word.val_saturatingSub, exactly]
        exact (Nat.mod_le _ _).trans (Nat.sub_le _ _)
      exact (fair_iff base (below.trans less.le)).mpr below

theorem fair_divided_iff (some : 0 < trade.reserveIn) :
    trade.Fair (trade.reserveOut - trade.reserveIn * trade.reserveOut / (trade.reserveIn + trade.net)) ↔
      trade.reserveIn + trade.net ∣ trade.reserveIn * trade.reserveOut :=
  (fair_iff some (Nat.sub_le _ _)).trans (sub_div_le_paidOut_iff some)

theorem bondingTrade_bounds (amountIn : U64) (direction : SwapDirection) (sol : 0 < curve.virtualSolReserves.val)
    (token : 0 < curve.virtualTokenReserves.val) :
    0 < (bondingTrade curve amountIn direction).reserveIn ∧
      (bondingTrade curve amountIn direction).reserveOut < 2 ^ 64 := by
  cases direction with
  | buy => exact ⟨sol, Fin.isLt _⟩
  | sell => exact ⟨token, Fin.isLt _⟩

/-- The live quotes never favour the trader, whatever the fee. A quote of the bonding curve does so
unless the product of its reserves divides without a rest. -/
theorem quotes_fair_iff (market : PumpfunAmmMarket) (amountIn : U64) (direction : SwapDirection) :
    ((∀ quoteVaultBalance baseVaultBalance feeBps out : U64,
        calculateLiveCpOutput amountIn direction quoteVaultBalance baseVaultBalance feeBps = .ok out →
        (liveTrade quoteVaultBalance baseVaultBalance amountIn feeBps direction).Fair out.val) ∧
      ∀ (curve : PumpfunBondingCurve) (out : U64), market.bondingCurve = some curve →
        calculateBondingCurveOutput market amountIn direction = .ok out →
        (bondingTrade curve amountIn direction).Fair out.val) ↔
    ∀ curve, market.bondingCurve = some curve → curve.virtualSolReserves = 0 ∨ curve.virtualTokenReserves = 0 ∨
      (bondingTrade curve amountIn direction).reserveIn + (bondingTrade curve amountIn direction).net
        ∣ curve.virtualSolReserves.val * curve.virtualTokenReserves.val := by
  rw [and_iff_right fun _ _ _ _ => calculateLiveCpOutput_fair]
  refine forall_congr' fun curve => ⟨fun fair curves => ?_, fun exact_division out curves quoted => ?_⟩
  · obtain empty | sol := Nat.eq_zero_or_pos curve.virtualSolReserves.val
    · exact .inl (Fin.ext empty)
    obtain empty | token := Nat.eq_zero_or_pos curve.virtualTokenReserves.val
    · exact .inr (.inl (Fin.ext empty))
    obtain ⟨some, fits⟩ := bondingTrade_bounds amountIn direction sol token
    have fair := fair ⟨_, (Nat.sub_le _ _).trans_lt fits⟩ curves
      ((calculateBondingCurveOutput_eq_ok curves).mpr ⟨sol, token, rfl⟩)
    rw [fair_divided_iff some, bondingTrade_product] at fair
    exact .inr (.inr fair)
  · obtain ⟨sol, token, is⟩ := (calculateBondingCurveOutput_eq_ok curves).mp quoted
    obtain ⟨some, -⟩ := bondingTrade_bounds amountIn direction sol token
    rw [is, fair_divided_iff some, bondingTrade_product]
    obtain empty | empty | divides := exact_division curves
    · rw [empty] at sol
      exact absurd sol (Nat.lt_irrefl 0)
    · rw [empty] at token
      exact absurd token (Nat.lt_irrefl 0)
    · exact divides

end Fairness

/-- A curve of 1073 million tokens and 30 SOL, in their smallest units. -/
def freshCurve : PumpfunBondingCurve := ⟨1073000000000000, 30000000000⟩

/-- For one SOL the fresh curve pays a unit more than the exact output rounds down to, and the product
of its reserves falls. -/
theorem bonding_favours_trader : ∃ out : U64,
    calculateBondingCurveOutput ⟨some freshCurve⟩ 1000000000 .buy = .ok out ∧
      ¬(bondingTrade freshCurve 1000000000 .buy).Fair out.val := by
  refine ⟨34277831558568, by decide, ?_⟩
  rintro ⟨less, -⟩
  exact absurd less (by decide)

end RndRust.Thunder.Pumpfun
