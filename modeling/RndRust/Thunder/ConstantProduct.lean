import RndRust.Lib.ConstantProduct
import RndRust.Thunder.Market

/-! The formula that the constant-product exchanges share, and why a pool that quotes by it does not
lose. -/
namespace RndRust.Thunder
open Lib

variable {reserveIn reserveOut amountIn feeBps out : U64}

/-- `constant_product_swap`. -/
def constantProductSwap (reserveIn reserveOut amountIn feeBps : U64) : Except String U64 :=
  if reserveIn = 0 ∨ reserveOut = 0 then .error "Pool has zero liquidity"
  else
    let feeMultiplier := 10000 - feeBps
    let amountInWithFee := toU128 amountIn * toU128 feeMultiplier / 10000
    let numerator := amountInWithFee * toU128 reserveOut
    let denominator := toU128 reserveIn + amountInWithFee
    .ok (Word.wrap (numerator / denominator).val)

/-- What a fee in basis points leaves of an amount. -/
def lessFee (amount fee : ℕ) : ℕ := amount * (10000 - fee) / 10000

section Fees

variable {amount more fee : ℕ}

theorem lessFee_le : lessFee amount fee ≤ amount :=
  Nat.div_le_of_le_mul (by rw [Nat.mul_comm]; exact Nat.mul_le_mul_right amount (Nat.sub_le _ _))

theorem lessFee_mono (le : amount ≤ more) : lessFee amount fee ≤ lessFee more fee :=
  Nat.div_le_div_right (Nat.mul_le_mul_right _ le)

theorem lessFee_add_le : lessFee amount fee + lessFee more fee ≤ lessFee (amount + more) fee := by
  rw [lessFee, lessFee, lessFee, Nat.add_mul]
  exact Nat.div_add_div_le_add_div

end Fees

/-- None of the products exceeds 128 bits, and the output fits the integer it is cut to. -/
theorem constantProductSwap_eq (amountIn : U64) (some : 0 < reserveIn.val) (reserve : 0 < reserveOut.val)
    (fee : feeBps.val ≤ 10000) : ∃ out : U64, constantProductSwap reserveIn reserveOut amountIn feeBps = .ok out ∧
      out.val = paidOut reserveIn.val reserveOut.val (lessFee amountIn.val feeBps.val) := by
  have multiplier : (10000 - feeBps : U64).val = 10000 - feeBps.val := Fin.sub_val_of_le fee
  have net_le : lessFee amountIn.val feeBps.val ≤ amountIn.val := lessFee_le
  have fits := paidOut_lt (a := lessFee amountIn.val feeBps.val) some reserve
  have net : (toU128 amountIn * toU128 (10000 - feeBps) / 10000 : U128).val
      = lessFee amountIn.val feeBps.val := by
    have product : amountIn.val * (10000 - feeBps.val) < 2 ^ 128 := by
      have := Nat.mul_le_mul_left amountIn.val (Nat.sub_le 10000 feeBps.val)
      have := amountIn.isLt
      omega
    rw [Fin.div_val, Fin.val_mul, val_toU128, val_toU128, multiplier, Nat.mod_eq_of_lt product]
    rfl
  have narrow := net_le.trans_lt amountIn.isLt
  have numerator : lessFee amountIn.val feeBps.val * reserveOut.val < 2 ^ 128 :=
    (Nat.mul_lt_mul'' narrow reserveOut.isLt).trans_eq (by rw [← pow_add])
  have denominator : reserveIn.val + lessFee amountIn.val feeBps.val < 2 ^ 128 := by
    have := reserveIn.isLt
    omega
  have liquid : ¬(reserveIn = 0 ∨ reserveOut = 0) := by
    rw [← Fin.val_eq_zero_iff, ← Fin.val_eq_zero_iff]
    omega
  refine ⟨_, if_neg liquid, ?_⟩
  rw [Word.val_wrap, Fin.div_val, Fin.val_mul, Fin.val_add, net, val_toU128, val_toU128,
    Nat.mod_eq_of_lt numerator, Nat.mod_eq_of_lt denominator]
  exact Nat.mod_eq_of_lt (fits.trans reserveOut.isLt)

/-- A quote stays below the reserve, grows with the input and with the reserve, and the pool gains by
it: the product of the reserves does not fall, a trade back returns no more than was paid, and two
trades yield no more than one. -/
theorem constantProductSwap_safe (some : 0 < reserveIn.val) (reserve : 0 < reserveOut.val)
    (fee : feeBps.val ≤ 10000) : ∃ out : U64, constantProductSwap reserveIn reserveOut amountIn feeBps = .ok out ∧
      out.val < reserveOut.val ∧
      out.val = lessFee amountIn.val feeBps.val * reserveOut.val /
        (reserveIn.val + lessFee amountIn.val feeBps.val) ∧
      (∀ more, amountIn ≤ more →
        ∃ yielded, constantProductSwap reserveIn reserveOut more feeBps = .ok yielded ∧ out ≤ yielded) ∧
      (∀ deeper, reserveOut ≤ deeper →
        ∃ yielded, constantProductSwap reserveIn deeper amountIn feeBps = .ok yielded ∧ out ≤ yielded) ∧
      reserveIn.val * reserveOut.val ≤ (reserveIn.val + amountIn.val) * (reserveOut.val - out.val) ∧
      (∀ grown shrunk anyFee : U64, grown.val = reserveIn.val + amountIn.val →
        shrunk.val + out.val = reserveOut.val → anyFee.val ≤ 10000 →
        ∃ back, constantProductSwap shrunk grown out anyFee = .ok back ∧ back ≤ amountIn) ∧
      ∀ first second grown shrunk out₁ : U64, first.val + second.val = amountIn.val →
        constantProductSwap reserveIn reserveOut first feeBps = .ok out₁ →
        grown.val = reserveIn.val + first.val → shrunk.val + out₁.val = reserveOut.val →
        ∃ out₂, constantProductSwap grown shrunk second feeBps = .ok out₂ ∧
          out₁.val + out₂.val ≤ out.val := by
  obtain ⟨out, quoted, exactly⟩ := constantProductSwap_eq amountIn some reserve fee
  have below : out.val < reserveOut.val := by
    rw [exactly]
    exact paidOut_lt some reserve
  have less : lessFee amountIn.val feeBps.val ≤ amountIn.val := lessFee_le
  refine ⟨out, quoted, below, exactly, ?more, ?deeper, ?product, ?back, ?twice⟩
  case more =>
    intro more larger
    obtain ⟨yielded, again, is⟩ := constantProductSwap_eq more some reserve fee
    refine ⟨yielded, again, Fin.le_def.mpr ?_⟩
    rw [exactly, is]
    exact paidOut_mono_amount some (lessFee_mono larger)
  case deeper =>
    intro deeper larger
    obtain ⟨yielded, again, is⟩ := constantProductSwap_eq amountIn some
      (reserve.trans_le larger) fee
    refine ⟨yielded, again, Fin.le_def.mpr ?_⟩
    rw [exactly, is]
    exact paidOut_mono_reserve larger
  case product =>
    calc reserveIn.val * reserveOut.val
        ≤ (reserveIn.val + lessFee amountIn.val feeBps.val) * (reserveOut.val - out.val) :=
          (product_le_iff some below.le).mpr exactly.le
      _ ≤ (reserveIn.val + amountIn.val) * (reserveOut.val - out.val) :=
          Nat.mul_le_mul_right _ (Nat.add_le_add_left less _)
  case back =>
    intro grown shrunk anyFee sum rest within
    obtain ⟨back, again, is⟩ := constantProductSwap_eq out (show 0 < shrunk.val by omega)
      (show 0 < grown.val by omega) within
    refine ⟨back, again, Fin.le_def.mpr ?_⟩
    have left : shrunk.val = reserveOut.val - out.val := by omega
    rw [is, left, sum, exactly]
    exact paidOut_back_le some less reserve (exactly ▸ lessFee_le)
  case twice =>
    intro first second grown shrunk out₁ parts once sum rest
    obtain ⟨_, same, is₁⟩ := constantProductSwap_eq first some reserve fee
    obtain rfl := Except.ok.inj (once.symm.trans same)
    have below₁ : out₁.val < reserveOut.val := by
      rw [is₁]
      exact paidOut_lt some reserve
    obtain ⟨out₂, again, is₂⟩ := constantProductSwap_eq second (show 0 < grown.val by omega)
      (show 0 < shrunk.val by omega) fee
    refine ⟨out₂, again, ?_⟩
    have left : shrunk.val = reserveOut.val - out₁.val := by omega
    rw [is₂, left, sum, is₁, exactly]
    refine paidOut_add_paidOut_le some lessFee_le ?_
    rw [← parts]
    exact lessFee_add_le

theorem constantProductSwap_thousand :
    ∃ out : U64, constantProductSwap 1000 2000 100 25 = .ok out ∧ out.val < (2000 : U64).val := by
  obtain ⟨out, quoted, below, -⟩ := @constantProductSwap_safe 1000 2000 100 25
    (by decide) (by decide) (by decide)
  exact ⟨out, quoted, below⟩

end RndRust.Thunder
