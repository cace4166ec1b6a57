import Mathlib.Order.Lattice.Nat
import Mathlib.Tactic.SplitIfs
import RndRust.Lib.Outcome
import RndRust.Thunder.Clmm.SwapMath

/-! The quote of a pool of price bins for an exact input: a walk from bin to bin, where each bin trades
at its own price until it is empty. -/
namespace RndRust.Thunder.Dlmm
open Lib Clmm

def feePrecision : ℕ := 1000000000

def maxFeeRate : ℕ := 100000000

def basisPointMax : ℕ := 10000

def maxBinPerArray : ℤ := 70

def binArrayHeader : ℕ := 56

def binSize : ℕ := 144

def binArrayDataLen : ℕ := binArrayHeader + 70 * binSize

def maxArraysVisited : ℕ := 8

def meteoraDynamicLmm : Pubkey := fromStrConst "LBUZKhRxPF3XUpBCjp4YzTKgLccjZhTSDM9YuVaPwxo"

/-- `DlmmPairState`. -/
structure DlmmPairState where
  baseFactor : Word 16
  filterPeriod : Word 16
  decayPeriod : Word 16
  reductionFactor : Word 16
  variableFeeControl : Word 32
  maxVolatilityAccumulator : Word 32
  minBinId : ℤ
  maxBinId : ℤ
  baseFeePowerFactor : Word 8
  collectFeeMode : Word 8
  volatilityAccumulator : Word 32
  volatilityReference : Word 32
  indexReference : ℤ
  lastUpdateTimestamp : ℤ
  activeId : ℤ
  binStep : Word 16
  binArrayBitmap : Fin 16 → U64

namespace DlmmPairState

/-- `DlmmPairState::parse`. -/
def parse (data : Bytes) : Except String DlmmPairState :=
  if data.length < 712 then .error "DLMM pool account too short"
  else .ok
    { baseFactor := Word.wrap (field data 8 2)
      filterPeriod := Word.wrap (field data 10 2)
      decayPeriod := Word.wrap (field data 12 2)
      reductionFactor := Word.wrap (field data 14 2)
      variableFeeControl := Word.wrap (field data 16 4)
      maxVolatilityAccumulator := Word.wrap (field data 20 4)
      minBinId := signed 32 (field data 24 4)
      maxBinId := signed 32 (field data 28 4)
      baseFeePowerFactor := Word.wrap (field data 34 1)
      collectFeeMode := Word.wrap (field data 36 1)
      volatilityAccumulator := Word.wrap (field data 40 4)
      volatilityReference := Word.wrap (field data 44 4)
      indexReference := signed 32 (field data 48 4)
      lastUpdateTimestamp := signed 64 (field data 56 8)
      activeId := signed 32 (field data 76 4)
      binStep := Word.wrap (field data 80 2)
      binArrayBitmap := bitmapAt data 584 }

variable (pair : DlmmPairState)

/-- `base_fee_rate`. The power wraps. -/
def baseFeeRate : U128 :=
  let factor : U128 := pair.baseFactor.widen (by decide)
  let binStep : U128 := pair.binStep.widen (by decide)
  ((factor.saturatingMul binStep).saturatingMul 10).saturatingMul (Word.wrap (10 ^ pair.baseFeePowerFactor.val))

/-- `variable_fee_rate`. The addition wraps. -/
def variableFeeRate (volatilityAccumulator : Word 32) : U128 :=
  if pair.variableFeeControl = 0 then 0
  else
    let accumulator : U128 := volatilityAccumulator.widen (by decide)
    let binStep : U128 := pair.binStep.widen (by decide)
    let control : U128 := pair.variableFeeControl.widen (by decide)
    let vfaBin := accumulator.saturatingMul binStep
    let vFee := control.saturatingMul (vfaBin.saturatingMul vfaBin)
    Word.wrap ((Word.wrap (vFee.val + 99999999999) : U128).val / 100000000000)

/-- `total_fee_rate`. -/
def totalFeeRate (volatilityAccumulator : Word 32) : U128 :=
  min (Word.wrap (pair.baseFeeRate.val + (pair.variableFeeRate volatilityAccumulator).val)) (Word.wrap maxFeeRate)

theorem totalFeeRate_le {pair : DlmmPairState} {va : Word 32} : (pair.totalFeeRate va).val ≤ maxFeeRate :=
  (Fin.le_def.mp (min_le_right _ _)).trans (Nat.mod_le _ _)

/-- `fee_on_input`. -/
def feeOnInput (swapForY : Bool) : Bool := if pair.collectFeeMode = 1 then !swapForY else true

/-- `update_references`. -/
def updateReferences (currentTimestamp : ℤ) : DlmmPairState :=
  let elapsed := max (-2 ^ 63) (min (currentTimestamp - pair.lastUpdateTimestamp) (2 ^ 63 - 1))
  if pair.filterPeriod.val ≤ elapsed then
    { pair with
      indexReference := pair.activeId
      volatilityReference :=
        if elapsed < pair.decayPeriod.val then
          Word.wrap (pair.volatilityAccumulator.val * pair.reductionFactor.val / basisPointMax)
        else 0 }
  else pair

/-- `volatility_accumulator_for`. -/
def volatilityAccumulatorFor (binId : ℤ) : Word 32 :=
  let va := pair.volatilityReference.val + (pair.indexReference - binId).natAbs * basisPointMax
  Word.wrap (min va pair.maxVolatilityAccumulator.val)

end DlmmPairState

/-- `bin_array_pda`. -/
def binArrayPda (find : FindProgramAddress) (lbPair : Pubkey) (index : ℤ) : Pubkey :=
  find [asciiBytes "bin_array", lbPair, toLeBytes 8 (index % 2 ^ 64).toNat] meteoraDynamicLmm

/-- `bitmap_extension_pda`. -/
def bitmapExtensionPda (find : FindProgramAddress) (lbPair : Pubkey) : Pubkey :=
  find [asciiBytes "bitmap", lbPair] meteoraDynamicLmm

/-- `bin_array_index`. -/
def binArrayIndex (binId : ℤ) : ℤ := binId / maxBinPerArray

/-- `in_pool_bitmap_bit`. -/
def inPoolBitmapBit (bitmap : Fin 16 → U64) (idx : ℤ) : Option Bool :=
  if inside : -512 ≤ idx ∧ idx ≤ 511 then
    let pos := (idx + 512).toNat
    some ((bitmap ⟨pos / 64, by omega⟩).val.testBit (pos % 64))
  else none

/-- `extension_bitmap_bit`. -/
def extensionBitmapBit (ext : Bytes) (idx : ℤ) : Option Bool :=
  if ext.length ≤ 40 ∨ -512 ≤ idx ∧ idx ≤ 511 then none
  else
    let half := (ext.length - 40) / 2
    let byteStart := if 511 < idx then 40 else 40 + half
    let offset := if 511 < idx then idx - 512 else -idx - 513
    if offset < 0 ∨ (half * 8 : ℕ) ≤ offset then none
    else
      let off := byteStart + offset.toNat / 64 * 8
      if ext.length < off + 8 then none
      else some ((fromLeBytes ((ext.drop off).take 8)).testBit (offset.toNat % 64))

/-- `BinView`. -/
structure BinView where
  data : Bytes
  arrayIndex : ℤ

/-- `BinView::read`: what the bin has on offer, and its price. -/
def BinView.read (view : BinView) (binId : ℤ) (swapForY : Bool) : U64 × U128 :=
  let slot := (binId - view.arrayIndex * maxBinPerArray).toNat
  let bin := view.data.drop (binArrayHeader + slot * binSize)
  let amountX : U64 := Word.wrap (fromLeBytes (bin.take 8))
  let amountY : U64 := Word.wrap (fromLeBytes ((bin.drop 8).take 8))
  let price : U128 := Word.wrap (fromLeBytes ((bin.drop 16).take 16))
  let openOrder : U64 := Word.wrap (fromLeBytes ((bin.drop 112).take 8))
  let processedRemaining : U64 := Word.wrap (fromLeBytes ((bin.drop 128).take 8))
  let isAskSide := bin.getD 140 0 != 0
  let mm := if swapForY then amountY else amountX
  let orders := if swapForY && !isAskSide || !swapForY && isAskSide then openOrder.saturatingAdd processedRemaining
    else 0
  (mm.saturatingAdd orders, price)

/-- `amount_out_at_price`. -/
def amountOutAtPrice (amountIn price : U128) (swapForY : Bool) : Option U128 :=
  if swapForY then mulDivFloor price amountIn Q64 else mulDivFloor amountIn Q64 price

/-- `amount_in_for_out`. -/
def amountInForOut (amountOut price : U128) (swapForY : Bool) : Option U128 :=
  if swapForY then mulDivCeil amountOut Q64 price else mulDivCeil price amountOut Q64

/-- The arguments of a quote other than the amount. The price of a bin that stores none is computed with
floating point from the step and the bin. -/
structure Quoting where
  find : FindProgramAddress
  pair : DlmmPairState
  lbPair : Pubkey
  swapForY : Bool
  provider : AccountDataProvider
  currentTimestamp : ℤ
  fallbackPrice : Word 16 → ℤ → Option U128

/-- The variables of the loop. -/
structure Walk where
  amountLeft : U64
  totalOut : U128
  binId : ℤ
  currentArrayIndex : ℤ
  currentArrayData : Option Bytes
  arraysVisited : ℕ

/-- What one bin trades. -/
structure Fill where
  binId : ℤ
  /-- What the bin has on offer. -/
  available : U64
  /-- What the bin gives of it. -/
  taken : U128
  /-- What is left of that when the fee is charged on the output. -/
  paid : U128
  /-- The fee, and the amount that it is subtracted from. -/
  fee : U128
  charged : U128
  /-- What is consumed of the input, with the fee. -/
  gross : U128
  /-- What is left of the input. -/
  left : U64

namespace Quoting

variable (q : Quoting)

def pairState : DlmmPairState := q.pair.updateReferences q.currentTimestamp

def extData : Option Bytes := q.provider.poolAccountData (bitmapExtensionPda q.find q.lbPair)

def feeRate (binId : ℤ) : U128 := q.pairState.totalFeeRate (q.pairState.volatilityAccumulatorFor binId)

/-- `has_liquidity`. An array that no bitmap tells of may have some. -/
def hasLiquidity (idx : ℤ) : Bool :=
  match inPoolBitmapBit q.pairState.binArrayBitmap idx with
  | some bit => bit
  | none => (q.extData.bind (extensionBitmapBit · idx)).getD true

/-- The walk comes to another array. One without liquidity is passed, and there are no data then. -/
def enter (w : Walk) (idx : ℤ) : Except String (Option Bytes × Walk) :=
  if q.hasLiquidity idx then
    let pda := binArrayPda q.find q.lbPair idx
    match q.provider.poolAccountData pda with
    | none => .error s!"DLMM bin array {display pda} (index {idx}) not in provider — pool skipped for this size"
    | some data =>
      if data.length < binArrayDataLen then .error "DLMM bin array account too short"
      else if maxArraysVisited < w.arraysVisited + 1 then .error "DLMM walk exceeded max bin arrays"
      else .ok (some data, { w with
        currentArrayIndex := idx, currentArrayData := some data, arraysVisited := w.arraysVisited + 1 })
  else if maxArraysVisited < w.arraysVisited + 1 then .error "DLMM walk exceeded max bin arrays"
  else .ok (none, { w with
    binId := signed 32 (if q.swapForY then idx * maxBinPerArray - 1 else (idx + 1) * maxBinPerArray)
    currentArrayIndex := idx, currentArrayData := none, arraysVisited := w.arraysVisited + 1 })

/-- The data of the array with the current bin. -/
def load (w : Walk) : Except String (Option Bytes × Walk) :=
  let idx := binArrayIndex w.binId
  if idx ≠ w.currentArrayIndex ∨ w.currentArrayData = none then q.enter w idx
  else .ok (w.currentArrayData, w)

def price (binId : ℤ) (stored : U128) : Except String U128 :=
  if 0 < stored then .ok stored
  else okOr (q.fallbackPrice q.pairState.binStep binId) "DLMM bin price out of range"

/-- A bin where the fee is charged on the input. -/
def fillFeeIn (binId : ℤ) (amountLeft available : U64) (price feeRate maxIn : U128) : Except String Fill := do
  let feeWhole ← okOr (mulDivCeil (toU128 amountLeft) feeRate (Word.wrap feePrecision)) "fee math overflow"
  let netAvail := (toU128 amountLeft).saturatingSub feeWhole
  if maxIn ≤ netAvail then
    let feeAmt ← okOr (mulDivCeil maxIn feeRate (Word.wrap (feePrecision - feeRate.val))) "fee math overflow"
    let gross := maxIn.saturatingAdd feeAmt
    .ok ⟨binId, available, toU128 available, toU128 available, feeWhole, toU128 amountLeft, gross,
      amountLeft.saturatingSub (Word.wrap (min gross.val amountLeft.val))⟩
  else
    let bought ← okOr (amountOutAtPrice netAvail price q.swapForY) "bin math overflow"
    let outBin := min bought (toU128 available)
    .ok ⟨binId, available, outBin, outBin, feeWhole, toU128 amountLeft, toU128 amountLeft, 0⟩

/-- A bin where the fee is charged on the output. -/
def fillFeeOut (binId : ℤ) (amountLeft available : U64) (price feeRate maxIn : U128) : Except String Fill :=
  if maxIn ≤ toU128 amountLeft then do
    let feeAmt ← okOr (mulDivCeil (toU128 available) feeRate (Word.wrap feePrecision)) "fee math overflow"
    .ok ⟨binId, available, toU128 available, (toU128 available).saturatingSub feeAmt, feeAmt, toU128 available, maxIn,
      amountLeft.saturatingSub (Word.wrap (min maxIn.val amountLeft.val))⟩
  else do
    let bought ← okOr (amountOutAtPrice (toU128 amountLeft) price q.swapForY) "bin math overflow"
    let grossOut := min bought (toU128 available)
    let feeAmt ← okOr (mulDivCeil grossOut feeRate (Word.wrap feePrecision)) "fee math overflow"
    .ok ⟨binId, available, grossOut, grossOut.saturatingSub feeAmt, feeAmt, grossOut, toU128 amountLeft, 0⟩

/-- The trade with a bin that has something on offer. -/
def fill (binId : ℤ) (amountLeft available : U64) (stored : U128) : Except String Fill := do
  let price ← q.price binId stored
  let maxIn ← okOr (amountInForOut (toU128 available) price q.swapForY) "fee math overflow"
  if q.pairState.feeOnInput q.swapForY then q.fillFeeIn binId amountLeft available price (q.feeRate binId) maxIn
  else q.fillFeeOut binId amountLeft available price (q.feeRate binId) maxIn

/-- The next bin, as long as there is input left. -/
def advance (w : Walk) : Walk :=
  if 0 < w.amountLeft then { w with binId := signed 32 (w.binId + if q.swapForY then -1 else 1) } else w

/-- The body of the loop, with what the bin trades if it does. -/
def iterate (w : Walk) : Except String (Option Fill × Walk) :=
  if w.binId < q.pairState.minBinId ∨ q.pairState.maxBinId < w.binId then
    .error "DLMM swap exhausts bin range — insufficient liquidity for size"
  else do
    let (data, w) ← q.load w
    match data with
    | none => .ok (none, w)
    | some data =>
      let (available, stored) := BinView.read ⟨data, w.currentArrayIndex⟩ w.binId q.swapForY
      if 0 < available then
        let fill ← q.fill w.binId w.amountLeft available stored
        .ok (some fill, q.advance
          { w with amountLeft := fill.left, totalOut := Word.wrap (w.totalOut.val + fill.paid.val) })
      else .ok (none, q.advance w)

section Termination

variable {q : Quoting} {w here next : Walk} {data : Option Bytes} {fill : Option Fill}

/-- How many bins of the array at hand lie ahead. -/
def binsAhead (q : Quoting) (w : Walk) : ℕ :=
  if w.currentArrayData ≠ none ∧ binArrayIndex w.binId = w.currentArrayIndex then
    if q.swapForY then (w.binId % 70).toNat + 1 else 70 - (w.binId % 70).toNat
  else 0

/-- How many iterations there can be from here. -/
def ahead (q : Quoting) (w : Walk) : ℕ :=
  if w.amountLeft = 0 then 0 else 1 + 71 * (maxArraysVisited - w.arraysVisited) + q.binsAhead w

theorem binsAhead_le : q.binsAhead w ≤ 70 := by
  unfold binsAhead
  have := Int.emod_lt_of_pos w.binId (show (0 : ℤ) < 70 by decide)
  split
  · split <;> omega
  · exact Nat.zero_le 70

theorem enter_cases {idx : ℤ} (entered : q.enter w idx = .ok (data, here)) :
    here.arraysVisited = w.arraysVisited + 1 ∧ here.arraysVisited ≤ maxArraysVisited ∧
    here.amountLeft = w.amountLeft ∧ here.totalOut = w.totalOut ∧ here.currentArrayData = data ∧
    here.currentArrayIndex = idx ∧ (data ≠ none → here.binId = w.binId) := by
  unfold enter at entered
  split at entered
  · simp only at entered
    split at entered
    · cases entered
    · split at entered
      · cases entered
      · split at entered
        · cases entered
        case isFalse fits =>
          obtain ⟨rfl, rfl⟩ := Prod.mk.inj (Except.ok.inj entered)
          exact ⟨rfl, Nat.le_of_not_lt fits, rfl, rfl, rfl, rfl, fun _ => rfl⟩
  · split at entered
    · cases entered
    case isFalse fits =>
      obtain ⟨rfl, rfl⟩ := Prod.mk.inj (Except.ok.inj entered)
      exact ⟨rfl, Nat.le_of_not_lt fits, rfl, rfl, rfl, rfl, fun some => absurd rfl some⟩

/-- Coming to an array takes one of the visits there can be. -/
theorem load_cases (loaded : q.load w = .ok (data, here)) :
    here.amountLeft = w.amountLeft ∧ here.totalOut = w.totalOut ∧ here.currentArrayData = data ∧
    (data ≠ none → here.binId = w.binId ∧ here.currentArrayIndex = binArrayIndex w.binId) ∧
    (here.arraysVisited = w.arraysVisited + 1 ∧ here.arraysVisited ≤ maxArraysVisited ∨ here = w ∧ data ≠ none) := by
  unfold load at loaded
  simp only at loaded
  split at loaded
  · obtain ⟨visits, fits, left, out, read, index, bin⟩ := enter_cases loaded
    exact ⟨left, out, read, fun some => ⟨bin some, index⟩, .inl ⟨visits, fits⟩⟩
  case isFalse same =>
    obtain ⟨rfl, rfl⟩ := Prod.mk.inj (Except.ok.inj loaded)
    simp only [not_or, not_not] at same
    exact ⟨rfl, rfl, rfl, fun _ => ⟨rfl, same.1.symm⟩, .inr ⟨rfl, same.2⟩⟩

theorem signed_eq (n : ℤ) : signed 32 n = if n % 4294967296 < 2147483648 then n % 4294967296
    else n % 4294967296 - 4294967296 := by
  rw [signed, Int.bmod_def]
  rfl

/-- One bin on, one less of the array lies ahead. -/
theorem binsAhead_advance (some : w.currentArrayData ≠ none) (index : w.currentArrayIndex = binArrayIndex w.binId)
    (left : 0 < w.amountLeft) : q.binsAhead (q.advance w) < q.binsAhead w := by
  have here : q.binsAhead w = if q.swapForY then (w.binId % 70).toNat + 1 else 70 - (w.binId % 70).toNat :=
    if_pos ⟨some, index.symm⟩
  rw [here]
  unfold binsAhead advance
  rw [if_pos left, index]
  unfold binArrayIndex maxBinPerArray
  simp only [signed_eq]
  cases q.swapForY <;> simp only [Bool.false_eq_true, if_true, if_false] <;> split_ifs <;> omega

theorem ahead_pos (left : w.amountLeft ≠ 0) :
    q.ahead w = 1 + 71 * (maxArraysVisited - w.arraysVisited) + q.binsAhead w := if_neg left

/-- What an iteration does: it passes an array, or it comes to a bin, which may trade. -/
theorem iterate_cases (went : q.iterate w = .ok (fill, next)) : ∃ data here, q.load w = .ok (data, here) ∧
    (data = none ∧ fill = none ∧ next = here ∨ ∃ bytes available stored, data = some bytes ∧
      BinView.read ⟨bytes, here.currentArrayIndex⟩ here.binId q.swapForY = (available, stored) ∧
      (¬0 < available ∧ fill = none ∧ next = q.advance here ∨ 0 < available ∧ ∃ filled,
        q.fill here.binId here.amountLeft available stored = .ok filled ∧ fill = some filled ∧
        next = q.advance { here with
          amountLeft := filled.left, totalOut := Word.wrap (here.totalOut.val + filled.paid.val) })) := by
  unfold iterate at went
  split at went
  · cases went
  · obtain ⟨⟨data, here⟩, loaded, went⟩ := bind_eq_ok.mp went
    refine ⟨data, here, loaded, ?_⟩
    cases data with
    | none =>
      obtain ⟨rfl, rfl⟩ := Prod.mk.inj (Except.ok.inj went)
      exact .inl ⟨rfl, rfl, rfl⟩
    | some bytes =>
      refine .inr ⟨bytes, _, _, rfl, rfl, ?_⟩
      simp only at went
      split at went
      case isTrue some =>
        obtain ⟨filled, traded, went⟩ := bind_eq_ok.mp went
        obtain ⟨rfl, rfl⟩ := Prod.mk.inj (Except.ok.inj went)
        exact .inr ⟨some, filled, traded, rfl, rfl⟩
      case isFalse empty =>
        obtain ⟨rfl, rfl⟩ := Prod.mk.inj (Except.ok.inj went)
        exact .inl ⟨empty, rfl, rfl⟩

/-- At a bin of the array at hand: after it there is one less of them, or nothing left to trade. -/
theorem ahead_advance (left : U64) (out : U128) (some : w.amountLeft ≠ 0) (loaded : q.load w = .ok (data, here))
    (read : data ≠ none) : q.ahead (q.advance { here with amountLeft := left, totalOut := out }) < q.ahead w := by
  obtain ⟨same, -, stored, at_bin, visits⟩ := load_cases loaded
  obtain ⟨bin, index⟩ := at_bin read
  rw [ahead_pos some]
  by_cases done : left = 0
  · have stays : q.advance { here with amountLeft := left, totalOut := out }
        = { here with amountLeft := left, totalOut := out } := if_neg (by simp [done])
    rw [stays, ahead, if_pos done]
    omega
  · have one := binsAhead_advance (q := q) (w := { here with amountLeft := left, totalOut := out })
      (stored ▸ read) (index.trans (congrArg binArrayIndex bin.symm)) (Fin.pos_iff_ne_zero.mpr done)
    have still : (q.advance { here with amountLeft := left, totalOut := out }).amountLeft ≠ 0 := by
      unfold advance
      split <;> exact done
    have visited : (q.advance { here with amountLeft := left, totalOut := out }).arraysVisited
        = here.arraysVisited := by
      unfold advance
      split <;> rfl
    rw [ahead_pos still, visited]
    obtain ⟨more, fits⟩ | ⟨rfl, -⟩ := visits
    · have most := binsAhead_le (q := q) (w := { here with amountLeft := left, totalOut := out })
      omega
    · change q.binsAhead (q.advance { here with amountLeft := left, totalOut := out }) < q.binsAhead here at one
      omega

theorem iterate_ahead (some : w.amountLeft ≠ 0) (went : q.iterate w = .ok (fill, next)) :
    q.ahead next < q.ahead w := by
  obtain ⟨data, here, loaded, ⟨rfl, -, rfl⟩ | ⟨bytes, available, stored, rfl, -, ends⟩⟩ := iterate_cases went
  · obtain ⟨same, -, nothing, -, visits⟩ := load_cases loaded
    obtain ⟨more, fits⟩ | ⟨-, read⟩ := visits
    · have none_ahead : q.binsAhead next = 0 := if_neg fun both => both.1 nothing
      rw [ahead_pos some, ahead_pos (same ▸ some), none_ahead]
      omega
    · exact absurd rfl read
  · obtain ⟨-, -, rfl⟩ | ⟨-, filled, -, -, rfl⟩ := ends
    · exact ahead_advance here.amountLeft here.totalOut some loaded (Option.some_ne_none _)
    · exact ahead_advance _ _ some loaded (Option.some_ne_none _)

end Termination

/-- The loop, with what the bins on the way trade. -/
def loop (w : Walk) : Except String (List Fill × Walk) :=
  if w.amountLeft = 0 then .ok ([], w)
  else
    match _went : q.iterate w with
    | .error e => .error e
    | .ok (fill, next) => (loop next).map fun (rest, last) => (fill.toList ++ rest, last)
termination_by q.ahead w
decreasing_by exact iterate_ahead ‹_› _went

/-- The variables before the loop. -/
def start (amountIn : U64) : Walk :=
  ⟨amountIn, 0, q.pairState.activeId, binArrayIndex q.pairState.activeId, none, 0⟩

/-- `compute_swap_output`. -/
def computeSwapOutput (amountIn : U64) : Except String U64 :=
  if amountIn = 0 then .ok 0
  else do
    let (_, last) ← q.loop (q.start amountIn)
    okOr (Word.tryFrom last.totalOut.val) "output exceeds u64"

end Quoting

end RndRust.Thunder.Dlmm
