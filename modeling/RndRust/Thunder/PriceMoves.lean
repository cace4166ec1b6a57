import RndRust.Thunder.Math

/-! What the price arithmetic promises a trader inside one range of constant liquidity. The amounts
are the exact rational ones rounded as asked for, a price never moves further than what was
supplied pays for, and a trade that is turned back at once gains nothing. -/
namespace RndRust.Thunder
open Lib

/-- The amount of token 0 between two square roots of prices. -/
def exactAmount0 (lo hi liquidity : U128) : ℚ :=
  liquidity.val * ((hi.val : ℚ) - lo.val) * 2 ^ 64 / (hi.val * lo.val)

/-- The amount of token 1 between two square roots of prices. -/
def exactAmount1 (lo hi liquidity : U128) : ℚ := liquidity.val * ((hi.val : ℚ) - lo.val) / 2 ^ 64

theorem roundDiv_amount0 {lo hi liquidity : U128} {up : Bool} (positive : 0 < lo.val) (le : lo ≤ hi) :
    roundDiv up (liquidity.val * 2 ^ 64 * (hi.val - lo.val)) (hi.val * lo.val)
      = rounded up (exactAmount0 lo hi liquidity) := by
  have below : lo.val ≤ hi.val := le
  rw [roundDiv_eq_rounded (Nat.mul_pos (positive.trans_le below) positive), exactAmount0]
  push_cast [below]
  congr 2
  ring

theorem roundDiv_amount1 {lo hi liquidity : U128} {up : Bool} (le : lo ≤ hi) :
    roundDiv up (liquidity.val * (hi.val - lo.val)) (2 ^ 64) = rounded up (exactAmount1 lo hi liquidity) := by
  have below : lo.val ≤ hi.val := le
  rw [roundDiv_eq_rounded (Nat.two_pow_pos 64), exactAmount1]
  push_cast [below]
  rfl

/-- A delta is the exact amount rounded as asked for. Nothing is returned where token 0 has no
price, or where a machine integer does not hold the amount. -/
theorem amount_deltas_exact (sqrtA sqrtB liquidity : U128) (roundUp : Bool) :
    let lo := min sqrtA sqrtB
    let hi := max sqrtA sqrtB
    ((∀ amount, getAmount0Delta sqrtA sqrtB liquidity roundUp = some amount ↔
        0 < lo ∧ rounded roundUp (exactAmount0 lo hi liquidity) = amount.val) ∧
      (getAmount0Delta sqrtA sqrtB liquidity roundUp = none ↔
        lo = 0 ∨ 2 ^ 128 ≤ rounded roundUp (exactAmount0 lo hi liquidity))) ∧
    (∀ amount, getAmount1Delta sqrtA sqrtB liquidity roundUp = some amount ↔
        rounded roundUp (exactAmount1 lo hi liquidity) = amount.val) ∧
      (getAmount1Delta sqrtA sqrtB liquidity roundUp = none ↔
        2 ^ 128 ≤ rounded roundUp (exactAmount1 lo hi liquidity)) := by
  intro lo hi
  have ordered : lo ≤ hi := min_le_max
  have first : getAmount0Delta sqrtA sqrtB liquidity roundUp = getAmount0Delta lo hi liquidity roundUp := by
    rcases le_total sqrtA sqrtB with below | above
    · rw [show lo = sqrtA from min_eq_left below, show hi = sqrtB from max_eq_right below]
    · rw [show lo = sqrtB from min_eq_right above, show hi = sqrtA from max_eq_left above,
        getAmount0Delta_comm]
  have second : getAmount1Delta sqrtA sqrtB liquidity roundUp = getAmount1Delta lo hi liquidity roundUp := by
    rcases le_total sqrtA sqrtB with below | above
    · rw [show lo = sqrtA from min_eq_left below, show hi = sqrtB from max_eq_right below]
    · rw [show lo = sqrtB from min_eq_right above, show hi = sqrtA from max_eq_left above,
        getAmount1Delta_comm]
  rw [first, second, getAmount0Delta_of_le ordered, getAmount1Delta_of_le ordered, roundDiv_amount1 ordered]
  refine ⟨?_, fun _ => Word.tryFrom_eq_some, Word.tryFrom_eq_none⟩
  split
  case isTrue zero =>
    have zero : lo = 0 := Fin.ext zero
    simp [zero]
  case isFalse some =>
    have positive : 0 < lo := Fin.pos_iff_ne_zero.mpr fun zero => some (congrArg Fin.val zero)
    rw [roundDiv_amount0 positive ordered]
    simp only [Word.tryFrom_eq_some, Word.tryFrom_eq_none, positive, positive.ne', true_and, false_or,
      implies_true]

section Moves

/-- The price `Q` after `a` of token 0 comes in at the price `P`, with `N` for the shifted liquidity. -/
structure MovedDown (N P a Q : ℕ) : Prop where
  lower : Q ≤ P
  positive : 0 < Q
  enough : N * P ≤ (N + a * P) * Q

/-- The price `Q` after `a` of token 1 comes in at the price `P`. -/
structure MovedUp (L P a Q : ℕ) : Prop where
  higher : P ≤ Q
  paid : L * (Q - P) ≤ 2 ^ 64 * a

variable {N L P Q R a out : ℕ} {sqrtPrice liquidity amount next : U128}

theorem MovedDown.paid (down : MovedDown N P a Q) : N * (P - Q) ≤ P * Q * a := by
  have enough := down.enough
  rw [Nat.mul_sub, Nat.sub_le_iff_le_add]
  lia

/-- Inside the move, the way back up buys at most what came in. -/
theorem MovedDown.back_le (down : MovedDown N P a Q) (lower : Q ≤ R) (upper : R ≤ P) :
    N * (R - Q) / (R * Q) ≤ a := by
  obtain ⟨x, rfl⟩ := Nat.exists_eq_add_of_le lower
  obtain ⟨y, rfl⟩ := Nat.exists_eq_add_of_le upper
  have paid := down.paid
  rw [Nat.add_assoc, Nat.add_sub_cancel_left] at paid
  rw [Nat.add_sub_cancel_left]
  refine Nat.div_le_of_le_mul ?_
  obtain rfl | moved := Nat.eq_zero_or_pos x
  · simp
  · -- The cost of `x` is compared over the common denominator with the cost of the whole way.
    have whole : 0 < x + y := by omega
    refine Nat.le_of_mul_le_mul_left ?_ whole
    calc (x + y) * (N * x) = x * (N * (x + y)) := by ring
      _ ≤ x * ((Q + (x + y)) * Q * a) := Nat.mul_le_mul_left x paid
      _ ≤ (x + y) * ((Q + x) * Q * a) := by nlinarith [Nat.zero_le (Q * Q * a * y)]

theorem MovedUp.below (up : MovedUp L Q out R) (liquid : 0 < L) (covered : 2 ^ 64 * out ≤ L * (P - Q))
    (lower : Q ≤ P) : R ≤ P := by
  have distance := Nat.le_of_mul_le_mul_left (up.paid.trans covered) liquid
  have higher := up.higher
  omega

theorem MovedDown.above (down : MovedDown N Q out R) (liquid : 0 < N) (lower : P ≤ Q)
    (covered : Q * P * out ≤ N * (Q - P)) : P ≤ R := by
  refine Nat.le_of_mul_le_mul_left ?_ (Nat.add_pos_left liquid (out * Q))
  calc (N + out * Q) * P = N * P + Q * P * out := by ring
    _ ≤ N * P + N * (Q - P) := Nat.add_le_add_left covered _
    _ = N * Q := by rw [← Nat.mul_add, Nat.add_sub_cancel' lower]
    _ ≤ (N + out * Q) * R := down.enough

/-- What does not pay for one unit up does not move the price down either. -/
theorem MovedDown.stays (down : MovedDown N P a Q) (short : (P + 1) * P * a < N) : Q = P := by
  refine Nat.le_antisymm down.lower (Nat.le_of_not_lt fun below => ?_)
  obtain ⟨gap, rfl⟩ := Nat.exists_eq_add_of_lt below
  have enough := down.enough
  nlinarith [Nat.zero_le (N * gap), Nat.zero_le (Q * a), Nat.zero_le (gap * a), Nat.zero_le (Q * gap * a)]

/-- More of token 0 is bought on the way to a higher price. -/
theorem amount0_mono (positive : 0 < P) (lower : P ≤ Q) (upper : Q ≤ R) :
    N * (Q - P) / (Q * P) ≤ N * (R - P) / (R * P) := by
  obtain ⟨x, rfl⟩ := Nat.exists_eq_add_of_le lower
  obtain ⟨y, rfl⟩ := Nat.exists_eq_add_of_le upper
  rw [Nat.add_sub_cancel_left, Nat.add_assoc, Nat.add_sub_cancel_left,
    Nat.le_div_iff_mul_le (Nat.mul_pos (by omega) positive)]
  have bought := Nat.div_mul_le_self (N * x) ((P + x) * P)
  refine Nat.le_of_mul_le_mul_left ?_ (show 0 < P + x by omega)
  calc (P + x) * (N * x / ((P + x) * P) * ((P + (x + y)) * P))
      = (P + (x + y)) * (N * x / ((P + x) * P) * ((P + x) * P)) := by ring
    _ ≤ (P + (x + y)) * (N * x) := Nat.mul_le_mul_left _ bought
    _ ≤ (P + x) * (N * (x + y)) := by nlinarith [Nat.zero_le (N * P * y)]

/-- The price is rounded up, so a move down ends where the price is still positive and paid for. -/
theorem movedDown_of_ceilDiv (liquid : 0 < N) (priced : 0 < P) (moved : (N * P) ⌈/⌉ (N + a * P) = Q) :
    MovedDown N P a Q := by
  have denominator : 0 < N + a * P := Nat.add_pos_left liquid _
  have enough := (ceilDiv_le_iff_le_mul denominator).mp moved.le
  refine ⟨?_, Nat.pos_of_ne_zero fun zero => ?_, enough⟩
  · rw [← moved, ceilDiv_le_iff_le_mul denominator]
    exact Nat.mul_le_mul_right _ (Nat.le_add_right _ _)
  · rw [zero, Nat.mul_zero] at enough
    exact (Nat.mul_pos liquid priced).ne' (Nat.le_zero.mp enough)

theorem nextSqrtPriceFromAmount0In_moved (liquid : 0 < liquidity.val) (priced : 0 < sqrtPrice.val)
    (moved : nextSqrtPriceFromAmount0In sqrtPrice liquidity amount = some next) :
    MovedDown (liquidity.val * 2 ^ 64) sqrtPrice.val amount.val next.val := by
  rw [nextSqrtPriceFromAmount0In_eq liquid, Word.tryFrom_eq_some] at moved
  exact movedDown_of_ceilDiv (Nat.mul_pos liquid (Nat.two_pow_pos 64)) priced moved

theorem nextSqrtPriceFromAmount1In_moved (liquid : 0 < liquidity.val)
    (moved : nextSqrtPriceFromAmount1In sqrtPrice liquidity amount = some next) :
    MovedUp liquidity.val sqrtPrice.val amount.val next.val := by
  rw [nextSqrtPriceFromAmount1In_eq liquid, Word.tryFrom_eq_some] at moved
  refine ⟨moved ▸ Nat.le_add_right _ _, ?_⟩
  rw [← moved, Nat.add_sub_cancel_left, Nat.mul_comm _ amount.val]
  exact Nat.mul_div_le _ _

end Moves

/-- The next price lies on the side that the token moves it to, and the move costs at most what was
supplied. -/
theorem price_move_never_overcharges (sqrtPrice liquidity amount : U128) (liquid : 0 < liquidity)
    (priced : 0 < sqrtPrice) :
    (∀ next, nextSqrtPriceFromAmount0In sqrtPrice liquidity amount = some next → next ≤ sqrtPrice ∧
      ∃ cost, getAmount0Delta next sqrtPrice liquidity true = some cost ∧ cost ≤ amount) ∧
    (∀ next, nextSqrtPriceFromAmount1In sqrtPrice liquidity amount = some next → sqrtPrice ≤ next ∧
      ∃ cost, getAmount1Delta sqrtPrice next liquidity true = some cost ∧ cost ≤ amount) := by
  rw [Fin.lt_def, Fin.val_zero] at liquid priced
  refine ⟨fun next moved => ?_, fun next moved => ?_⟩
  · have down := nextSqrtPriceFromAmount0In_moved liquid priced moved
    refine ⟨down.lower, ?_⟩
    rw [getAmount0Delta_of_le down.lower, if_neg down.positive.ne', roundDiv_true]
    exact Word.exists_tryFrom_le
      ((ceilDiv_le_iff_le_mul (Nat.mul_pos (down.positive.trans_le down.lower) down.positive)).mpr down.paid)
  · have up := nextSqrtPriceFromAmount1In_moved liquid moved
    refine ⟨up.higher, ?_⟩
    rw [getAmount1Delta_of_le up.higher, roundDiv_true]
    exact Word.exists_tryFrom_le ((ceilDiv_le_iff_le_mul (Nat.two_pow_pos 64)).mpr up.paid)

theorem ten_pay_for_the_move : ∃ cost,
    getAmount0Delta ⟨3 * 2 ^ 62, by decide⟩ Q64 30 true = some cost ∧ cost ≤ 10 := by
  have moved : nextSqrtPriceFromAmount0In Q64 30 10 = some ⟨3 * 2 ^ 62, by decide⟩ := by
    rw [nextSqrtPriceFromAmount0In_eq (by decide), Word.tryFrom_eq_some, Nat.ceilDiv_eq_add_pred_div]
    rfl
  exact ((price_move_never_overcharges Q64 30 10 (by decide) (by decide)).1 _ moved).2

/-- A trade inside one range that is turned back at once returns at most what was sold. -/
theorem no_profit_within_range (sqrtPrice liquidity amount : U128) (liquid : 0 < liquidity)
    (priced : 0 < sqrtPrice) :
    (∀ next output after back,
      nextSqrtPriceFromAmount0In sqrtPrice liquidity amount = some next →
      getAmount1Delta next sqrtPrice liquidity false = some output →
      nextSqrtPriceFromAmount1In next liquidity output = some after →
      getAmount0Delta next after liquidity false = some back → back ≤ amount) ∧
    (∀ next output after back,
      nextSqrtPriceFromAmount1In sqrtPrice liquidity amount = some next →
      getAmount0Delta sqrtPrice next liquidity false = some output →
      nextSqrtPriceFromAmount0In next liquidity output = some after →
      getAmount1Delta after next liquidity false = some back → back ≤ amount) := by
  rw [Fin.lt_def, Fin.val_zero] at liquid priced
  have scaled : 0 < liquidity.val * 2 ^ 64 := Nat.mul_pos liquid (Nat.two_pow_pos 64)
  refine ⟨fun next output after back moved sold turned returned => ?_,
    fun next output after back moved sold turned returned => ?_⟩
  · have down := nextSqrtPriceFromAmount0In_moved liquid priced moved
    have up := nextSqrtPriceFromAmount1In_moved liquid turned
    rw [getAmount1Delta_of_le down.lower, Word.tryFrom_eq_some, roundDiv_false] at sold
    rw [getAmount0Delta_of_le up.higher, if_neg down.positive.ne', Word.tryFrom_eq_some,
      roundDiv_false] at returned
    have below := up.below liquid (sold ▸ Nat.mul_div_le _ _) down.lower
    exact returned.ge.trans (down.back_le up.higher below)
  · have up := nextSqrtPriceFromAmount1In_moved liquid moved
    have down := nextSqrtPriceFromAmount0In_moved liquid (priced.trans_le up.higher) turned
    rw [getAmount0Delta_of_le up.higher, if_neg priced.ne', Word.tryFrom_eq_some, roundDiv_false] at sold
    rw [getAmount1Delta_of_le down.lower, Word.tryFrom_eq_some, roundDiv_false] at returned
    have above := down.above scaled up.higher (sold ▸ Nat.mul_div_le _ _)
    refine returned.ge.trans (Nat.div_le_of_le_mul ?_)
    exact (Nat.mul_le_mul_left _ (Nat.sub_le_sub_left above _)).trans up.paid

/-- Ten of token 0 at the price one, among a liquidity of thirty, buy seven of token 1, and these buy
nine back. -/
theorem ten_turned_back : getAmount0Delta ⟨3 * 2 ^ 62, by decide⟩
    ⟨3 * 2 ^ 62 + 7 * 2 ^ 64 / 30, by decide⟩ 30 false = some 9 ∧ (9 : U128) ≤ 10 := by
  have moved : nextSqrtPriceFromAmount0In Q64 30 10 = some ⟨3 * 2 ^ 62, by decide⟩ := by
    rw [nextSqrtPriceFromAmount0In_eq (by decide), Word.tryFrom_eq_some, Nat.ceilDiv_eq_add_pred_div]
    rfl
  have sold : getAmount1Delta ⟨3 * 2 ^ 62, by decide⟩ Q64 30 false = some 7 := by
    rw [getAmount1Delta_of_le (by decide), Word.tryFrom_eq_some]
    rfl
  have turned : nextSqrtPriceFromAmount1In ⟨3 * 2 ^ 62, by decide⟩ 30 7
      = some ⟨3 * 2 ^ 62 + 7 * 2 ^ 64 / 30, by decide⟩ := by
    rw [nextSqrtPriceFromAmount1In_eq (by decide), Word.tryFrom_eq_some]
    rfl
  have returned : getAmount0Delta ⟨3 * 2 ^ 62, by decide⟩ ⟨3 * 2 ^ 62 + 7 * 2 ^ 64 / 30, by decide⟩ 30 false
      = some 9 := by
    rw [getAmount0Delta_of_le (by decide), if_neg (by decide), Word.tryFrom_eq_some]
    rfl
  exact ⟨returned,
    (no_profit_within_range Q64 30 10 (by decide) (by decide)).1 _ _ _ _ moved sold turned returned⟩

end RndRust.Thunder
