import RndRust.Lib.Rounding
import RndRust.Thunder.Dlmm.BinMath

/-! What the walk over the bins promises for an exact input. Where it goes does not depend on the amount
as long as bins are emptied, so of two walks from one pool the one with more input gets no less. -/
namespace RndRust.Thunder.Dlmm
open Lib

theorem amountOutAtPrice_mono {net more price bought whole : U128} {swapForY : Bool} (le : net ≤ more)
    (part : amountOutAtPrice net price swapForY = some bought)
    (full : amountOutAtPrice more price swapForY = some whole) : bought ≤ whole := by
  unfold amountOutAtPrice at part full
  have le := Fin.le_def.mp le
  cases swapForY with
  | true =>
    rw [if_pos rfl, mulDivFloor_eq, if_neg (by decide), Word.tryFrom_eq_some] at part full
    rw [Fin.le_def, ← part, ← full]
    exact Nat.div_le_div_right (Nat.mul_le_mul_left _ le)
  | false =>
    rw [if_neg Bool.false_ne_true, mulDivFloor_eq] at part full
    split at part
    · cases part
    · rw [if_neg ‹_›, Word.tryFrom_eq_some] at full
      rw [Word.tryFrom_eq_some] at part
      rw [Fin.le_def, ← part, ← full]
      exact Nat.div_le_div_right (Nat.mul_le_mul_right _ le)

namespace Quoting

variable {q : Quoting} {w next : Walk} {binId : ℤ} {amountLeft available more : U64} {stored : U128}
  {filled filled' : Fill} {fill : Option Fill} {m n : ℕ}

section Fees

/-- The part of an amount that a fee in the bin leaves. -/
def share (q : Quoting) (binId : ℤ) : ℕ := feePrecision - (q.feeRate binId).val

/-- What of an input is there to trade. -/
def net (q : Quoting) (binId : ℤ) (n : ℕ) : ℕ :=
  if q.pairState.feeOnInput q.swapForY then n * q.share binId / feePrecision else n

/-- What an amount that is traded takes from the input. -/
def cost (q : Quoting) (binId : ℤ) (n : ℕ) : ℕ :=
  if q.pairState.feeOnInput q.swapForY then n + (n * (q.feeRate binId).val) ⌈/⌉ q.share binId else n

/-- What of an amount that the bin gives is paid. -/
def payout (q : Quoting) (binId : ℤ) (n : ℕ) : ℕ :=
  if q.pairState.feeOnInput q.swapForY then n else n * q.share binId / feePrecision

theorem share_pos : 0 < q.share binId := by
  have : (q.feeRate binId).val ≤ maxFeeRate := DlmmPairState.totalFeeRate_le
  unfold maxFeeRate at this
  unfold share feePrecision
  omega

theorem share_add : q.share binId + (q.feeRate binId).val = feePrecision := by
  have := @share_pos q binId
  unfold share at this ⊢
  omega

theorem val_share : (Word.wrap (feePrecision - (q.feeRate binId).val) : U128).val = q.share binId := by
  have := @share_add q binId
  unfold feePrecision at this
  rw [Word.val_wrap]
  exact Nat.mod_eq_of_lt (by unfold feePrecision; omega)

theorem val_precision : (Word.wrap feePrecision : U128).val = feePrecision := rfl

theorem feePrecision_pos : 0 < feePrecision := by decide

theorem share_div_mono (le : m ≤ n) : m * q.share binId / feePrecision ≤ n * q.share binId / feePrecision :=
  Nat.div_le_div_right (Nat.mul_le_mul_right _ le)

theorem net_mono (le : m ≤ n) : q.net binId m ≤ q.net binId n := by
  unfold net
  split
  · exact share_div_mono le
  · exact le

theorem payout_mono (le : m ≤ n) : q.payout binId m ≤ q.payout binId n := by
  unfold payout
  split
  · exact le
  · exact share_div_mono le

/-- What there is to trade covers an amount just when the input covers what it takes. -/
theorem cost_le_iff : q.cost binId m ≤ n ↔ m ≤ q.net binId n := by
  unfold net cost
  split
  · exact add_ceilDiv_le_iff share_pos share_add
  · rfl

/-- A fee on an amount is a part of it. -/
theorem fee_eq {amount fee : U128}
    (charged : mulDivCeil amount (q.feeRate binId) (Word.wrap feePrecision) = some fee) :
    fee ≤ amount ∧ (amount.saturatingSub fee).val = amount.val * q.share binId / feePrecision := by
  rw [mulDivCeil_eq, val_precision, if_neg feePrecision_pos.ne', Word.tryFrom_eq_some] at charged
  constructor
  · rw [Fin.le_def, ← charged, ceilDiv_le_iff_le_mul feePrecision_pos, Nat.mul_comm feePrecision]
    exact Nat.mul_le_mul_left _ (by have := @share_add q binId; omega)
  · rw [Word.val_saturatingSub, ← charged]
    exact sub_ceilDiv feePrecision_pos share_add

end Fees

section Bins

/-- What holds of every trade: nothing that is subtracted is more than what it is subtracted from. -/
structure Bounded (amountLeft available : U64) (fill : Fill) : Prop where
  offer : fill.available = available
  taken : fill.taken.val ≤ fill.available.val
  paid : fill.paid ≤ fill.taken
  fee : fill.fee ≤ fill.charged
  consumed : fill.left.val + fill.gross.val = amountLeft.val

/-- A bin that is emptied. -/
structure Emptied (q : Quoting) (binId : ℤ) (amountLeft available : U64) (maxIn : U128) (fill : Fill) : Prop where
  covered : maxIn.val ≤ q.net binId amountLeft.val
  paid : fill.paid.val = q.payout binId available.val
  left : fill.left.val = amountLeft.val - q.cost binId maxIn.val

/-- A bin that has more on offer than the rest of the input buys. -/
structure Ended (q : Quoting) (binId : ℤ) (amountLeft available : U64) (price maxIn : U128) (fill : Fill) : Prop where
  short : q.net binId amountLeft.val < maxIn.val
  paid : ∃ net bought : U128, net.val = q.net binId amountLeft.val ∧
    amountOutAtPrice net price q.swapForY = some bought ∧
    fill.paid.val = q.payout binId (min bought.val available.val)
  left : fill.left = 0

theorem fillFeeIn_cases {price maxIn : U128} (on : q.pairState.feeOnInput q.swapForY)
    (went : q.fillFeeIn binId amountLeft available price (q.feeRate binId) maxIn = .ok filled) :
    Bounded amountLeft available filled ∧ (Emptied q binId amountLeft available maxIn filled ∨
      Ended q binId amountLeft available price maxIn filled) := by
  unfold fillFeeIn at went
  obtain ⟨feeWhole, charged, went⟩ := bind_eq_ok.mp went
  obtain ⟨within, net_is⟩ := fee_eq (okOr_eq_ok.mp charged)
  have net_of : ((toU128 amountLeft).saturatingSub feeWhole).val = q.net binId amountLeft.val := by
    rw [net, if_pos on, net_is, val_toU128]
  simp only at went
  split at went
  case isTrue covered =>
    obtain ⟨feeAmt, fee, went⟩ := bind_eq_ok.mp went
    obtain rfl := Except.ok.inj went
    have covered : maxIn.val ≤ q.net binId amountLeft.val := net_of ▸ Fin.le_def.mp covered
    rw [okOr_eq_ok, mulDivCeil_eq, val_share, if_neg share_pos.ne', Word.tryFrom_eq_some] at fee
    have fits := cost_le_iff.mpr covered
    have costs : q.cost binId maxIn.val = maxIn.val + feeAmt.val := by rw [cost, if_pos on, fee]
    have small : amountLeft.val < 2 ^ 64 := amountLeft.isLt
    have gross : (maxIn.saturatingAdd feeAmt).val = q.cost binId maxIn.val := by
      rw [Word.val_saturatingAdd]
      omega
    have left : (amountLeft.saturatingSub
        (Word.wrap (min (maxIn.saturatingAdd feeAmt).val amountLeft.val))).val
          = amountLeft.val - q.cost binId maxIn.val := by
      rw [Word.val_saturatingSub, Word.val_wrap, gross]
      omega
    refine ⟨⟨rfl, le_rfl, le_rfl, within, ?_⟩, .inl ⟨covered, ?_, left⟩⟩
    · rw [left, gross]
      omega
    · rw [payout, if_pos on]
      rfl
  case isFalse short =>
    obtain ⟨bought, out, went⟩ := bind_eq_ok.mp went
    obtain rfl := Except.ok.inj went
    rw [okOr_eq_ok] at out
    have least : (min bought (toU128 available)).val = min bought.val available.val := Fin.coe_min _ _
    refine ⟨⟨rfl, ?_, le_rfl, within, Nat.zero_add _⟩, .inr ⟨?_, ⟨_, bought, net_of, out, ?_⟩, rfl⟩⟩
    · simp only [least]
      exact Nat.min_le_right _ _
    · exact net_of ▸ Fin.lt_def.mp (lt_of_not_ge short)
    · rw [payout, if_pos on]
      exact least

theorem fillFeeOut_cases {price maxIn : U128} (off : ¬q.pairState.feeOnInput q.swapForY)
    (went : q.fillFeeOut binId amountLeft available price (q.feeRate binId) maxIn = .ok filled) :
    Bounded amountLeft available filled ∧ (Emptied q binId amountLeft available maxIn filled ∨
      Ended q binId amountLeft available price maxIn filled) := by
  have net_of : q.net binId amountLeft.val = amountLeft.val := if_neg off
  unfold fillFeeOut at went
  split at went
  case isTrue covered =>
    obtain ⟨feeAmt, charged, went⟩ := bind_eq_ok.mp went
    obtain rfl := Except.ok.inj went
    obtain ⟨within, paid⟩ := fee_eq (okOr_eq_ok.mp charged)
    have covered : maxIn.val ≤ amountLeft.val := Fin.le_def.mp covered
    have small : amountLeft.val < 2 ^ 64 := amountLeft.isLt
    have left : (amountLeft.saturatingSub (Word.wrap (min maxIn.val amountLeft.val))).val
        = amountLeft.val - maxIn.val := by
      rw [Word.val_saturatingSub, Word.val_wrap]
      omega
    refine ⟨⟨rfl, le_rfl, ?_, within, ?_⟩, .inl ⟨net_of.ge.trans' covered, ?_, ?_⟩⟩
    · exact Fin.le_def.mpr (Nat.sub_le _ _)
    · rw [left]
      exact Nat.sub_add_cancel covered
    · rw [payout, if_neg off]
      exact paid
    · rw [cost, if_neg off]
      exact left
  case isFalse short =>
    obtain ⟨bought, out, went⟩ := bind_eq_ok.mp went
    obtain ⟨feeAmt, charged, went⟩ := bind_eq_ok.mp went
    obtain rfl := Except.ok.inj went
    obtain ⟨within, paid⟩ := fee_eq (okOr_eq_ok.mp charged)
    rw [okOr_eq_ok] at out
    have least : (min bought (toU128 available)).val = min bought.val available.val := Fin.coe_min _ _
    refine ⟨⟨rfl, ?_, ?_, within, Nat.zero_add _⟩, .inr ⟨?_, ⟨toU128 amountLeft, bought, ?_, out, ?_⟩, rfl⟩⟩
    · simp only [least]
      exact Nat.min_le_right _ _
    · exact Fin.le_def.mpr (Nat.sub_le _ _)
    · rw [net_of]
      exact Fin.lt_def.mp (lt_of_not_ge short)
    · rw [net_of, val_toU128]
    · rw [payout, if_neg off, ← least]
      exact paid

theorem fill_cases (went : q.fill binId amountLeft available stored = .ok filled) : ∃ price maxIn,
    q.price binId stored = .ok price ∧ amountInForOut (toU128 available) price q.swapForY = some maxIn ∧
    Bounded amountLeft available filled ∧ (Emptied q binId amountLeft available maxIn filled ∨
      Ended q binId amountLeft available price maxIn filled) := by
  unfold fill at went
  obtain ⟨price, priced, went⟩ := bind_eq_ok.mp went
  obtain ⟨maxIn, needed, went⟩ := bind_eq_ok.mp went
  refine ⟨price, maxIn, priced, okOr_eq_ok.mp needed, ?_⟩
  split at went
  case isTrue on => exact fillFeeIn_cases on went
  case isFalse off => exact fillFeeOut_cases off went

theorem fill_binId (went : q.fill binId amountLeft available stored = .ok filled) : filled.binId = binId := by
  unfold fill at went
  obtain ⟨price, -, went⟩ := bind_eq_ok.mp went
  obtain ⟨maxIn, -, went⟩ := bind_eq_ok.mp went
  split at went
  · unfold fillFeeIn at went
    obtain ⟨feeWhole, -, went⟩ := bind_eq_ok.mp went
    simp only at went
    split at went
    · obtain ⟨feeAmt, -, went⟩ := bind_eq_ok.mp went
      obtain rfl := Except.ok.inj went
      rfl
    · obtain ⟨bought, -, went⟩ := bind_eq_ok.mp went
      obtain rfl := Except.ok.inj went
      rfl
  · unfold fillFeeOut at went
    split at went
    · obtain ⟨feeAmt, -, went⟩ := bind_eq_ok.mp went
      obtain rfl := Except.ok.inj went
      rfl
    · obtain ⟨bought, -, went⟩ := bind_eq_ok.mp went
      obtain ⟨feeAmt, -, went⟩ := bind_eq_ok.mp went
      obtain rfl := Except.ok.inj went
      rfl

theorem Ended.paid_le {price maxIn : U128} (ended : Ended q binId amountLeft available price maxIn filled) :
    filled.paid.val ≤ q.payout binId available.val := by
  obtain ⟨net, bought, -, -, paid⟩ := ended.paid
  rw [paid]
  exact payout_mono (Nat.min_le_right _ _)

/-- More input gets no less from one bin, and when there is some left of the smaller input, then both
empty the bin. -/
theorem fill_mono (le : amountLeft ≤ more) (went : q.fill binId amountLeft available stored = .ok filled)
    (went' : q.fill binId more available stored = .ok filled') : filled.paid.val ≤ filled'.paid.val ∧
      (filled.left ≠ 0 → filled'.paid = filled.paid ∧ filled.left ≤ filled'.left) := by
  obtain ⟨price, maxIn, priced, needed, -, ends⟩ := fill_cases went
  obtain ⟨price', maxIn', priced', needed', -, ends'⟩ := fill_cases went'
  obtain rfl := Except.ok.inj (priced.symm.trans priced')
  obtain rfl := Option.some.inj (needed.symm.trans needed')
  have le := Fin.le_def.mp le
  have net_le := @net_mono q binId _ _ le
  obtain one | one := ends
  · obtain other | other := ends'
    · refine ⟨by rw [one.paid, other.paid], fun _ => ⟨Fin.ext (other.paid.trans one.paid.symm), ?_⟩⟩
      rw [Fin.le_def, one.left, other.left]
      omega
    · exact absurd (one.covered.trans net_le) (Nat.not_le_of_lt other.short)
  · refine ⟨?_, fun some => absurd one.left some⟩
    obtain other | other := ends'
    · exact other.paid ▸ one.paid_le
    · obtain ⟨net, bought, net_is, out, paid⟩ := one.paid
      obtain ⟨net', bought', net_is', out', paid'⟩ := other.paid
      have bought_le := Fin.le_def.mp (amountOutAtPrice_mono (Fin.le_def.mpr (by omega)) out out')
      rw [paid, paid']
      exact payout_mono (by omega)

end Bins

section Steps

theorem enter_totals (left : U64) (out : U128) (idx : ℤ) : q.enter { w with amountLeft := left, totalOut := out } idx
    = (q.enter w idx).map fun (data, here) => (data, { here with amountLeft := left, totalOut := out }) := by
  unfold enter
  split
  · simp only
    split
    · rfl
    · split
      · rfl
      · split <;> rfl
  · split <;> rfl

/-- Which array comes next does not depend on what is left, nor on what has been bought. -/
theorem load_totals (left : U64) (out : U128) : q.load { w with amountLeft := left, totalOut := out }
    = (q.load w).map fun (data, here) => (data, { here with amountLeft := left, totalOut := out }) := by
  unfold load
  simp only [enter_totals]
  split <;> rfl

@[simp] theorem advance_amountLeft : (q.advance w).amountLeft = w.amountLeft := by
  unfold advance
  split <;> rfl

@[simp] theorem advance_totalOut : (q.advance w).totalOut = w.totalOut := by
  unfold advance
  split <;> rfl

theorem advance_amount (some : w.amountLeft ≠ 0) (left : more ≠ 0) :
    q.advance { w with amountLeft := more } = { q.advance w with amountLeft := more } := by
  unfold advance
  rw [if_pos (Fin.pos_iff_ne_zero.mpr left), if_pos (Fin.pos_iff_ne_zero.mpr some)]

/-- The output of all the iterations that can come has room in the total. -/
def Room (q : Quoting) (w : Walk) : Prop := w.totalOut.val + 2 ^ 64 * q.ahead w < 2 ^ 128

theorem fill_paid_lt (went : q.fill binId amountLeft available stored = .ok filled) :
    filled.paid.val < 2 ^ 64 := by
  obtain ⟨-, -, -, -, bounded, -⟩ := fill_cases went
  have := bounded.taken
  have := Fin.le_def.mp bounded.paid
  have := filled.available.isLt
  omega

/-- Nothing is lost of what a step takes in, and nothing of what it gives. -/
theorem iterate_spec (room : Room q w) (going : w.amountLeft ≠ 0) (went : q.iterate w = .ok (fill, next)) :
    Room q next ∧ next.totalOut.val = w.totalOut.val + (fill.map (·.paid.val)).getD 0 ∧
    next.amountLeft.val + (fill.map (·.gross.val)).getD 0 = w.amountLeft.val ∧
    ∀ filled ∈ fill, Bounded w.amountLeft filled.available filled := by
  have fewer := iterate_ahead going went
  unfold Room at room ⊢
  obtain ⟨data, here, loaded, ⟨rfl, rfl, rfl⟩ | ⟨bytes, available, stored, rfl, -, ends⟩⟩ := iterate_cases went
  · obtain ⟨left, out, -⟩ := load_cases loaded
    rw [left, out]
    exact ⟨by omega, rfl, rfl, fun _ other => nomatch Option.mem_def.mp other⟩
  · obtain ⟨left, out, -⟩ := load_cases loaded
    obtain ⟨-, rfl, rfl⟩ | ⟨-, filled, traded, rfl, rfl⟩ := ends
    · rw [advance_amountLeft, advance_totalOut, left, out]
      exact ⟨by omega, rfl, rfl, fun _ other => nomatch Option.mem_def.mp other⟩
    · have paid := fill_paid_lt traded
      obtain ⟨-, -, -, -, bounded, -⟩ := fill_cases traded
      rw [left] at bounded
      have total : (Word.wrap (here.totalOut.val + filled.paid.val) : U128).val
          = w.totalOut.val + filled.paid.val := by
        rw [Word.val_wrap, out]
        exact Nat.mod_eq_of_lt (by omega)
      rw [advance_amountLeft, advance_totalOut, total]
      refine ⟨by omega, rfl, bounded.consumed, ?_⟩
      rintro _ ⟨⟩
      exact bounded.offer.symm ▸ bounded

end Steps

section Runs

variable {last last' : Walk} {fills fills' : List Fill}

theorem loop_cases (went : q.loop w = .ok (fills, last)) : (w.amountLeft = 0 ∧ fills = [] ∧ last = w) ∨
    ∃ fill next rest, w.amountLeft ≠ 0 ∧ q.iterate w = .ok (fill, next) ∧ q.loop next = .ok (rest, last) ∧
      fills = fill.toList ++ rest := by
  rw [loop] at went
  split at went
  case isTrue nothing =>
    obtain ⟨rfl, rfl⟩ := Prod.mk.inj (Except.ok.inj went)
    exact .inl ⟨nothing, rfl, rfl⟩
  case isFalse going =>
    split at went
    case h_1 => cases went
    case h_2 fill next step =>
      cases later : q.loop next with
      | error => rw [later] at went; cases went
      | ok rest =>
        rw [later] at went
        obtain ⟨rfl, rfl⟩ := Prod.mk.inj (Except.ok.inj went)
        exact .inr ⟨fill, next, rest.1, going, step, later, rfl⟩

theorem loop_done (nothing : w.amountLeft = 0) : q.loop w = .ok ([], w) := by rw [loop, if_pos nothing]

theorem loop_step (going : w.amountLeft ≠ 0) (step : q.iterate w = .ok (fill, next))
    (later : q.loop next = .ok (fills, last)) : q.loop w = .ok (fill.toList ++ fills, last) := by
  rw [loop, if_neg going]
  split
  case h_1 failed =>
    rw [step] at failed
    cases failed
  case h_2 same =>
    rw [step] at same
    obtain ⟨rfl, rfl⟩ := Prod.mk.inj (Except.ok.inj same)
    rw [later]
    rfl

/-- Over a whole walk the input is what the bins consume, and the output is what they pay. -/
theorem loop_spec (room : Room q w) (went : q.loop w = .ok (fills, last)) :
    last.totalOut.val = w.totalOut.val + (fills.map (·.paid.val)).sum ∧
    (fills.map (·.gross.val)).sum = w.amountLeft.val ∧
    ∀ filled ∈ fills, ∃ left, Bounded left filled.available filled := by
  induction measured : q.ahead w using Nat.strong_induction_on generalizing w fills with
  | _ measured ih =>
    obtain ⟨nothing, rfl, rfl⟩ | ⟨fill, next, rest, going, step, later, rfl⟩ := loop_cases went
    · rw [nothing]
      exact ⟨rfl, rfl, fun _ other => nomatch other⟩
    · have fewer := iterate_ahead going step
      obtain ⟨room', paid, consumed, bounded⟩ := iterate_spec room going step
      obtain ⟨total, input, others⟩ := ih _ (by omega) room' later rfl
      cases fill with
      | none =>
        simp only [Option.map_none, Option.getD_none, Option.toList_none, List.nil_append] at paid consumed ⊢
        exact ⟨by omega, by omega, others⟩
      | some filled =>
        simp only [Option.map_some, Option.getD_some, Option.toList_some, List.cons_append, List.nil_append,
          List.map_cons, List.sum_cons, List.forall_mem_cons] at paid consumed ⊢
        exact ⟨by omega, by omega, ⟨_, bounded filled rfl⟩, others⟩

theorem loop_totalOut_le (room : Room q w) (went : q.loop w = .ok (fills, last)) :
    w.totalOut ≤ last.totalOut := by
  have total := (loop_spec room went).1
  exact Fin.le_def.mpr (by omega)

/-- Two walks from one place go the same way while both empty their bins, and the one with more gets no
less. -/
theorem loop_mono (room : Room q w) (room' : Room q { w with amountLeft := more }) (le : w.amountLeft ≤ more)
    (went : q.loop w = .ok (fills, last)) (went' : q.loop { w with amountLeft := more } = .ok (fills', last')) :
    last.totalOut ≤ last'.totalOut := by
  induction measured : q.ahead w using Nat.strong_induction_on generalizing w more fills fills' with
  | _ measured ih =>
    obtain ⟨-, -, rfl⟩ | ⟨fill, next, rest, going, step, later, -⟩ := loop_cases went
    · exact (loop_totalOut_le room' went' : _)
    obtain ⟨nothing, -⟩ | ⟨fill', next', rest', going', step', later', -⟩ := loop_cases went'
    · exact absurd (Fin.le_zero_iff.mp (nothing ▸ le)) going
    have fewer := iterate_ahead going step
    obtain ⟨after, total, -⟩ := iterate_spec room going step
    obtain ⟨after', total', -⟩ := iterate_spec room' going' step'
    obtain ⟨data, here, loaded, ends⟩ := iterate_cases step
    obtain ⟨data', here', loaded', ends'⟩ := iterate_cases step'
    obtain ⟨left, out, -⟩ := load_cases loaded
    have moved : q.load { w with amountLeft := more } = .ok (data, { here with amountLeft := more }) := by
      refine (load_totals more w.totalOut).trans ?_
      rw [loaded, ← out]
      rfl
    rw [moved] at loaded'
    obtain ⟨rfl, rfl⟩ := Prod.mk.inj (Except.ok.inj loaded')
    obtain ⟨rfl, -, rfl⟩ | ⟨bytes, available, stored, rfl, read, ends⟩ := ends
    · obtain ⟨-, -, rfl⟩ | ⟨_, _, _, other, -⟩ := ends'
      · exact ih _ (by omega) after after' (left ▸ le) later later' rfl
      · cases other
    obtain ⟨other, -⟩ | ⟨_, _, _, same, read', ends'⟩ := ends'
    · cases other
    obtain rfl := Option.some.inj same
    obtain ⟨rfl, rfl⟩ := Prod.mk.inj (read.symm.trans read')
    obtain ⟨empty, -, rfl⟩ | ⟨some, filled, traded, rfl, rfl⟩ := ends
    · obtain ⟨-, -, rfl⟩ | ⟨some, -⟩ := ends'
      · rw [advance_amount (left ▸ going) going'] at after' later'
        exact ih _ (by omega) after after' (by rw [advance_amountLeft, left]; exact le) later later' rfl
      · exact absurd some empty
    · obtain ⟨empty, -⟩ | ⟨-, filled', traded', rfl, rfl⟩ := ends'
      · exact absurd some empty
      obtain ⟨less, further⟩ := fill_mono (left ▸ le) traded traded'
      by_cases done : filled.left = 0
      · obtain ⟨-, -, rfl⟩ | ⟨_, _, _, more, -⟩ := loop_cases later
        · refine le_trans (Fin.le_def.mpr ?_) (loop_totalOut_le after' later')
          rw [total, total']
          exact Nat.add_le_add_left less _
        · exact absurd (advance_amountLeft.trans done) more
      · obtain ⟨paid, left_le⟩ := further done
        have more : filled'.left ≠ 0 := fun zero => done (Fin.le_zero_iff.mp (zero ▸ left_le))
        rw [paid] at after' later'
        have same := advance_amount (q := q) (w := { here with
          amountLeft := filled.left, totalOut := Word.wrap (here.totalOut.val + filled.paid.val) }) done more
        rw [same] at after' later'
        exact ih _ (by omega) after after' (by rw [advance_amountLeft]; exact left_le) later later' rfl

end Runs

theorem ahead_start_le {amountIn : U64} : q.ahead (q.start amountIn) ≤ 569 := by
  have nothing : q.binsAhead (q.start amountIn) = 0 := if_neg fun both => both.1 rfl
  unfold ahead
  split
  · exact Nat.zero_le _
  · rw [nothing]
    exact le_rfl

theorem room_start {amountIn : U64} : Room q (q.start amountIn) := by
  have few := @ahead_start_le q amountIn
  have out : (q.start amountIn).totalOut.val = 0 := rfl
  unfold Room
  omega

theorem computeSwapOutput_eq_ok {amountIn out : U64} (quoted : q.computeSwapOutput amountIn = .ok out)
    (some : amountIn ≠ 0) : ∃ fills last, q.loop (q.start amountIn) = .ok (fills, last) ∧
      last.totalOut.val = out.val := by
  rw [computeSwapOutput, if_neg some] at quoted
  obtain ⟨⟨fills, last⟩, went, fits⟩ := bind_eq_ok.mp quoted
  rw [okOr_eq_ok, Word.tryFrom_eq_some] at fits
  exact ⟨fills, last, went, fits⟩

/-- More in never gets less out. Whatever amount comes to whatever bin, the bin gives no more than it has,
the fee is a part of what it is taken from, and what is consumed and what is left are the amount. So over a
whole walk the input is what the bins consume, and the output is what they pay. -/
theorem dlmm_walk (q : Quoting) :
    (∀ a b outA outB, a ≤ b → q.computeSwapOutput a = .ok outA → q.computeSwapOutput b = .ok outB → outA ≤ outB) ∧
    (∀ binId amountLeft available stored filled, q.fill binId amountLeft available stored = .ok filled →
      filled.taken.val ≤ available.val ∧ filled.paid.val ≤ filled.taken.val ∧ filled.fee ≤ filled.charged ∧
      filled.gross.val ≤ amountLeft.val ∧ filled.left.val + filled.gross.val = amountLeft.val) ∧
    ∀ amountIn fills last, q.loop (q.start amountIn) = .ok (fills, last) →
      (fills.map (·.gross.val)).sum = amountIn.val ∧ (fills.map (·.paid.val)).sum = last.totalOut.val ∧
      ∀ filled ∈ fills, filled.taken.val ≤ filled.available.val := by
  refine ⟨fun a b outA outB le first second => ?_, fun binId amountLeft available stored filled went => ?_,
    fun amountIn fills last went => ?_⟩
  · by_cases nothing : a = 0
    · rw [computeSwapOutput, if_pos nothing] at first
      rw [← Except.ok.inj first]
      exact Fin.zero_le _
    · have some : b ≠ 0 := fun zero => nothing (Fin.le_zero_iff.mp (zero ▸ le))
      obtain ⟨fillsA, lastA, wentA, outA_is⟩ := computeSwapOutput_eq_ok first nothing
      obtain ⟨fillsB, lastB, wentB, outB_is⟩ := computeSwapOutput_eq_ok second some
      have mono := Fin.le_def.mp (loop_mono (w := q.start a) room_start room_start le wentA wentB)
      rw [outA_is, outB_is] at mono
      exact Fin.le_def.mpr mono
  · obtain ⟨-, -, -, -, bounded, -⟩ := fill_cases went
    have consumed := bounded.consumed
    exact ⟨bounded.offer ▸ bounded.taken, Fin.le_def.mp bounded.paid, bounded.fee, by omega, consumed⟩
  · obtain ⟨total, input, bounded⟩ := loop_spec room_start went
    refine ⟨input, by rw [total]; exact (Nat.zero_add _).symm, fun filled at_bin => ?_⟩
    obtain ⟨left, bounded⟩ := bounded filled at_bin
    exact bounded.taken

/-- An array whose first bin offers 10^9 of token Y at the price one. -/
def firstBinOnly : Bytes :=
  List.replicate binArrayHeader 0 ++ (List.replicate 8 0 ++ toLeBytes 8 (10 ^ 9) ++ toLeBytes 16 (2 ^ 64) ++
    List.replicate (binSize - 32 + 69 * binSize) 0)

/-- A pool with that bin and a fee of a thousandth. -/
def atOne : Quoting where
  find := fun seeds _ => seeds.getLastD []
  pair := ⟨10000, 10, 120, 5000, 0, 100000, -100, 100, 0, 0, 0, 0, 0, 0, 0, 10, fun _ => ⟨2 ^ 64 - 1, U64.max_lt⟩⟩
  lbPair := [2]
  swapForY := true
  provider := ⟨fun key => if key = toLeBytes 8 0 then some firstBinOnly else none, fun _ => 0⟩
  currentTimestamp := 1000
  fallbackPrice := fun _ _ => none

theorem read_firstBinOnly : BinView.read ⟨firstBinOnly, 0⟩ 0 true = (⟨10 ^ 9, by decide⟩, Q64) := by
  have first : firstBinOnly.drop (binArrayHeader + 0 * binSize) = List.replicate 8 0 ++ toLeBytes 8 (10 ^ 9) ++
      toLeBytes 16 (2 ^ 64) ++ List.replicate (binSize - 32 + 69 * binSize) 0 :=
    List.drop_left' List.length_replicate
  simp only [BinView.read, Int.sub_self, Int.zero_mul, Int.toNat_zero, first]
  decide

theorem load_atOne (amountIn : U64) : ∃ here, atOne.load (atOne.start amountIn) = .ok (some firstBinOnly, here) ∧
    here.amountLeft = amountIn ∧ here.totalOut = 0 ∧ here.binId = 0 ∧ here.currentArrayIndex = 0 := by
  have long : ¬firstBinOnly.length < binArrayDataLen := by
    simp only [firstBinOnly, List.length_append, List.length_replicate]
    decide
  have provided : atOne.provider.poolAccountData (binArrayPda atOne.find atOne.lbPair 0) = some firstBinOnly := by
    rfl
  have liquid : atOne.hasLiquidity 0 = true := by decide
  have bin : atOne.pairState.activeId = 0 := by decide
  refine ⟨{ atOne.start amountIn with
    currentArrayIndex := 0, currentArrayData := some firstBinOnly, arraysVisited := 1 }, ?_, rfl, rfl, bin, rfl⟩
  have index : binArrayIndex (atOne.start amountIn).binId = 0 := by
    rw [show (atOne.start amountIn).binId = 0 from bin]
    rfl
  rw [load]
  simp only [index]
  rw [if_pos (.inr rfl), enter, if_pos liquid]
  simp only [provided]
  rw [if_neg long]
  exact if_neg (show ¬maxArraysVisited < 0 + 1 by decide)

/-- A bin with 10^9 on offer at the price one, a fee of a thousandth, and less input than it offers. -/
theorem fill_atPriceOne (binId : ℤ) (amountLeft : U64) (feeWhole netAvail : U128) (on : q.pairState.feeOnInput true = true)
    (down : q.swapForY = true) (rate : q.feeRate binId = 1000000) (small : amountLeft.val < 10 ^ 9)
    (fee : (amountLeft.val * 1000000) ⌈/⌉ 1000000000 = feeWhole.val)
    (net : (toU128 amountLeft).saturatingSub feeWhole = netAvail) :
    q.fill binId amountLeft ⟨10 ^ 9, by decide⟩ Q64 = .ok
      ⟨binId, ⟨10 ^ 9, by decide⟩, netAvail, netAvail, feeWhole, toU128 amountLeft, toU128 amountLeft, 0⟩ := by
  have priced : q.price binId Q64 = .ok Q64 := if_pos (by decide)
  have needed : amountInForOut (toU128 ⟨10 ^ 9, by decide⟩) Q64 true = some (toU128 ⟨10 ^ 9, by decide⟩) := by
    rw [amountInForOut, if_pos rfl, mulDivCeil_eq, if_neg (by decide), Word.tryFrom_eq_some,
      Nat.ceilDiv_eq_add_pred_div]
    rfl
  have bought : amountOutAtPrice netAvail Q64 true = some netAvail := by
    rw [amountOutAtPrice, if_pos rfl, mulDivFloor_eq, if_neg (by decide), Word.tryFrom_eq_some]
    exact Nat.mul_div_cancel_left _ (by decide)
  have charged : mulDivCeil (toU128 amountLeft) 1000000 (Word.wrap feePrecision) = some feeWhole := by
    rw [mulDivCeil_eq, if_neg (by decide), Word.tryFrom_eq_some]
    exact fee
  have short : ¬toU128 ⟨10 ^ 9, by decide⟩ ≤ netAvail := by
    rw [← net, Fin.le_def, Word.val_saturatingSub]
    exact Nat.not_le_of_lt ((Nat.sub_le _ _).trans_lt small)
  have least : min netAvail (toU128 ⟨10 ^ 9, by decide⟩) = netAvail := min_eq_left (le_of_not_ge short)
  rw [fill, priced, ok_bind, down, needed, okOr_eq_ok.mpr rfl, ok_bind, if_pos on, rate, fillFeeIn, charged,
    okOr_eq_ok.mpr rfl, ok_bind]
  simp only [net]
  rw [if_neg short, down, bought, okOr_eq_ok.mpr rfl, ok_bind]
  simp only [least]

/-- An iteration that trades the rest of the input, as the first trade of its walk. -/
theorem iterate_last {bytes : Bytes} {here : Walk}
    (inside : ¬(w.binId < q.pairState.minBinId ∨ q.pairState.maxBinId < w.binId))
    (loaded : q.load w = .ok (some bytes, here)) (none_yet : here.totalOut = 0)
    (read : BinView.read ⟨bytes, here.currentArrayIndex⟩ here.binId q.swapForY = (available, stored))
    (some : 0 < available) (traded : q.fill here.binId here.amountLeft available stored = .ok filled)
    (ends : filled.left = 0) :
    ∃ next, q.iterate w = .ok (.some filled, next) ∧ next.amountLeft = 0 ∧ next.totalOut = filled.paid := by
  rw [iterate, if_neg inside, loaded, ok_bind]
  simp only [read]
  rw [if_pos some, traded, ok_bind]
  refine ⟨_, rfl, advance_amountLeft.trans ends, advance_totalOut.trans ?_⟩
  refine Fin.ext (Word.val_wrap.trans ?_)
  rw [none_yet, Fin.val_zero, Nat.zero_add]
  exact Nat.mod_eq_of_lt filled.paid.isLt

theorem atOne_quotes {amountIn out : U64} (feeWhole netAvail : U128) (positive : amountIn ≠ 0)
    (small : amountIn.val < 10 ^ 9) (fee : (amountIn.val * 1000000) ⌈/⌉ 1000000000 = feeWhole.val)
    (net : (toU128 amountIn).saturatingSub feeWhole = netAvail) (fits : netAvail.val = out.val) :
    atOne.computeSwapOutput amountIn = .ok out := by
  obtain ⟨here, loaded, left, total, bin, index⟩ := load_atOne amountIn
  have inside : ¬((atOne.start amountIn).binId < atOne.pairState.minBinId ∨
      atOne.pairState.maxBinId < (atOne.start amountIn).binId) := by
    change ¬(atOne.pairState.activeId < atOne.pairState.minBinId ∨
      atOne.pairState.maxBinId < atOne.pairState.activeId)
    decide
  have traded := fill_atPriceOne (q := atOne) 0 amountIn feeWhole netAvail (by decide) rfl
    (show atOne.feeRate 0 = 1000000 by decide) small fee net
  have read : BinView.read ⟨firstBinOnly, here.currentArrayIndex⟩ here.binId true = (⟨10 ^ 9, by decide⟩, Q64) := by
    rw [bin, index, read_firstBinOnly]
  rw [← left, ← bin] at traded
  obtain ⟨next, step, done, sum⟩ := iterate_last inside loaded total read (by decide) traded rfl
  have went := loop_step (show (atOne.start amountIn).amountLeft ≠ 0 from positive) step (loop_done done)
  rw [computeSwapOutput, if_neg positive, went, ok_bind]
  exact okOr_eq_ok.mpr (Word.tryFrom_eq_some.mpr (by rw [sum, ← fits]))

/-- A thousand of token X buy 999 of token Y, and twice as many buy 1998. -/
theorem dlmm_walk_sells : atOne.computeSwapOutput 1000 = .ok 999 ∧ atOne.computeSwapOutput 2000 = .ok 1998 ∧
    (999 : U64) ≤ 1998 := by
  have first : atOne.computeSwapOutput 1000 = .ok 999 := by
    refine atOne_quotes 1 999 (by decide) (by decide) ?_ (by decide) (by decide)
    rw [Nat.ceilDiv_eq_add_pred_div]
    rfl
  have second : atOne.computeSwapOutput 2000 = .ok 1998 := by
    refine atOne_quotes 2 1998 (by decide) (by decide) ?_ (by decide) (by decide)
    rw [Nat.ceilDiv_eq_add_pred_div]
    rfl
  exact ⟨first, second, (dlmm_walk atOne).1 1000 2000 999 1998 (by decide) first second⟩

end Quoting

end RndRust.Thunder.Dlmm
