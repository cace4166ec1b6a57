import Mathlib.Data.Nat.Digits.Defs
import RndRust.Lib.Table
import RndRust.Thunder.Clmm.TickArrays
import RndRust.Thunder.Math

/-! The quote of a pool of concentrated liquidity for an exact input: a walk from one initialized tick
to the next, with the arrays of ticks read from a provider. -/
namespace RndRust.Thunder.Clmm
open Lib

def feeRateDenominator : ℕ := 1000000

def fallbackTradeFeeRate : ℕ := 2500

def tickStateSize : ℕ := 168

def tickArrayHeader : ℕ := 44

def tickArrayDataLen : ℕ := tickArrayHeader + 60 * tickStateSize

def maxArraysVisited : ℕ := 10

def maxArrayScan : ℕ := 1024

def maxTickCrossings : ℕ := 400

/-- `ClmmPoolState`. -/
structure ClmmPoolState where
  ammConfig : Pubkey
  tickSpacing : Word 16
  liquidity : U128
  sqrtPriceX64 : U128
  tickCurrent : ℤ
  tickArrayBitmap : Fin 16 → U64

/-- `ClmmPoolState::parse`. -/
def ClmmPoolState.parse (data : Bytes) : Except String ClmmPoolState :=
  if data.length < 1032 then .error "CLMM pool account too short"
  else .ok ⟨(data.drop 9).take 32, Word.wrap (field data 235 2), Word.wrap (field data 237 16),
    Word.wrap (field data 253 16), signed 32 (field data 269 4), bitmapAt data 904⟩

/-- `parse_amm_config_trade_fee_rate`. -/
def parseAmmConfigTradeFeeRate (data : Bytes) : Option ℕ :=
  if data.length < 51 then none
  else
    let rate := fromLeBytes ((data.drop 47).take 4)
    if rate = 0 ∨ 500000 ≤ rate then none else some rate

structure TickInfo where
  tick : ℤ
  liquidityNet : ℤ

/-- What is stored of a tick. -/
structure TickState where
  tick : ℤ
  liquidityNet : ℤ
  liquidityGross : ℕ

/-- The `i`th tick of an array. -/
def readTick (data : Bytes) (i : ℕ) : TickState :=
  let state := data.drop (tickArrayHeader + i * tickStateSize)
  ⟨signed 32 (fromLeBytes (state.take 4)), signed 128 (fromLeBytes ((state.drop 4).take 16)),
    fromLeBytes ((state.drop 20).take 16)⟩

/-- `find_initialized_tick_in_array`. -/
def findInitializedTickInArray (data : Bytes) (fromTick : ℤ) (zeroForOne : Bool) : Option TickInfo :=
  if zeroForOne then
    (List.range 60).reverse.findSome? fun i =>
      let state := readTick data i
      if 0 < state.liquidityGross ∧ state.tick ≤ fromTick then some ⟨state.tick, state.liquidityNet⟩ else none
  else
    (List.range 60).findSome? fun i =>
      let state := readTick data i
      if 0 < state.liquidityGross ∧ fromTick < state.tick then some ⟨state.tick, state.liquidityNet⟩ else none

/-- `checked_neg` of a signed integer of 128 bits. -/
def checkedNeg (net : ℤ) : Option ℤ := if net = -2 ^ 127 then none else some (-net)

/-- `apply_liquidity_net`. -/
def applyLiquidityNet (liquidity : U128) (net : ℤ) : Except String U128 :=
  if 0 ≤ net then okOr (liquidity.checkedAdd (Word.wrap net.natAbs)) "liquidity overflow"
  else okOr (liquidity.checkedSub (Word.wrap net.natAbs)) "liquidity underflow"

/-- The arguments of a quote other than the amount. -/
structure Quoting where
  find : FindProgramAddress
  pool : ClmmPoolState
  poolId : Pubkey
  zeroForOne : Bool
  provider : AccountDataProvider

abbrev ArrayCache := Table ℤ Bytes

/-- A key in base 58. -/
def display (key : Pubkey) : String :=
  String.ofList (List.replicate (key.takeWhile (· == 0)).length '1'
    ++ (Nat.digits 58 (fromLeBytes key.reverse)).reverse.map fun d => base58Alphabet.getD d '1')

/-- The variables of the loop. -/
structure Walk where
  sqrtP : U128
  tick : ℤ
  liquidity : U128
  remaining : U64
  totalOut : U128
  arrayCache : ArrayCache

namespace Quoting

variable (q : Quoting)

def feeRate : ℕ :=
  ((q.provider.poolAccountData q.pool.ammConfig).bind parseAmmConfigTradeFeeRate).getD fallbackTradeFeeRate

def ticksPerArray : ℤ := q.pool.tickSpacing.val * tickArraySize

def extData : Option Bytes := q.provider.poolAccountData (pdaArrayBitmapAddress q.find q.poolId)

/-- The data of one array, from the cache or the provider. -/
def fetch (arrayStart : ℤ) (cache : ArrayCache) : Except String (Bytes × ArrayCache) :=
  match cache.lookup arrayStart with
  | some data => .ok (data, cache)
  | none =>
    if maxArraysVisited ≤ cache.keys.length then .error "CLMM walk exceeded max tick arrays"
    else
      let pda := pdaTickArrayAddress q.find q.poolId arrayStart
      match q.provider.poolAccountData pda with
      | none => .error s!"CLMM tick array {display pda} (start {arrayStart}) not in provider — pool skipped for this size"
      | some data =>
        if data.length < tickArrayDataLen then .error "CLMM tick array account too short"
        else .ok (data, cache.insert arrayStart data)

/-- The search for the next initialized tick, array by array in the direction of the swap. -/
def scan (tick : ℤ) : ℕ → ℤ → ArrayCache → Except String (Option TickInfo × ArrayCache)
  | 0, _, cache => .ok (none, cache)
  | count + 1, arrayStart, cache =>
    let idx := arrayStart / q.ticksPerArray
    let next := signed 32 (if q.zeroForOne then arrayStart - q.ticksPerArray else arrayStart + q.ticksPerArray)
    if (idx < -512 ∨ 511 < idx) ∧ (q.extData = none ∨ 7680 < idx.natAbs) then .ok (none, cache)
    else if isTickArrayInitialized q.pool.tickArrayBitmap q.extData idx then do
      let (data, cache) ← q.fetch arrayStart cache
      match findInitializedTickInArray data tick q.zeroForOne with
      | some found => .ok (some found, cache)
      | none => scan tick count next cache
    else scan tick count next cache

/-- The next initialized tick, and the arrays that have been read by then. -/
def locate (w : Walk) : Except String (TickInfo × ArrayCache) := do
  let (found, cache) ← q.scan w.tick maxArrayScan (tickArrayStartIndex w.tick q.pool.tickSpacing) w.arrayCache
  match found with
  | none => .error "CLMM swap exhausts initialized tick arrays — insufficient liquidity for size"
  | some next => .ok (next, cache)

/-- The price at the next tick, inside the limits. -/
def targetAt (tick : ℤ) : Except String U128 := do
  let target ← okOr (getSqrtPriceAtTick tick) s!"tick {tick} out of range"
  .ok (if q.zeroForOne then max target (Word.wrap (minSqrtPriceX64 + 1))
    else min target (Word.wrap (maxSqrtPriceX64 - 1)))

/-- `remaining_net`: what is left of an input after the fee. -/
def remainingNet (remaining : U64) : Except String U128 :=
  okOr (mulDivFloor (toU128 remaining) (Word.wrap (feeRateDenominator - q.feeRate)) (Word.wrap feeRateDenominator))
    "fee math overflow"

def amountInToTarget (w : Walk) (target : U128) : Except String U128 :=
  if w.liquidity = 0 then .ok 0
  else if q.zeroForOne then okOr (getAmount0Delta target w.sqrtP w.liquidity true) "delta overflow"
  else okOr (getAmount1Delta w.sqrtP target w.liquidity true) "delta overflow"

/-- `step_out`, for the way to a price. -/
def stepOut (w : Walk) (price : U128) : Except String U128 :=
  if q.zeroForOne then okOr (getAmount1Delta price w.sqrtP w.liquidity false) "delta overflow"
  else okOr (getAmount0Delta w.sqrtP price w.liquidity false) "delta overflow"

/-- `total_out` when the boundary is reached. -/
def totalAt (w : Walk) (target : U128) : Except String U128 :=
  if 0 < w.liquidity then do
    let out ← q.stepOut w target
    okOr (w.totalOut.checkedAdd out) "output overflow"
  else .ok w.totalOut

/-- What crossing a tick adds to the liquidity: moving down subtracts the net. -/
def netAcross (next : TickInfo) : Except String ℤ :=
  if q.zeroForOne then okOr (checkedNeg next.liquidityNet) "liq net overflow" else .ok next.liquidityNet

def tickAcross (next : TickInfo) : ℤ := if q.zeroForOne then next.tick - 1 else next.tick

/-- Reach the boundary and cross it. The gross amount that the step consumes is returned too. -/
def cross (w : Walk) (next : TickInfo) (cache : ArrayCache) (target need : U128) :
    Except String (U128 × Walk) := do
  let totalOut ← q.totalAt w target
  let feeAmt ← okOr (mulDivCeil need (Word.wrap q.feeRate) (Word.wrap (feeRateDenominator - q.feeRate)))
    "fee math overflow"
  let gross := need.saturatingAdd feeAmt
  let remaining := w.remaining.saturatingSub (Word.wrap (min gross.val w.remaining.val))
  let net ← q.netAcross next
  let liquidity ← applyLiquidityNet w.liquidity net
  if InRange (q.tickAcross next) then
    .ok (gross, ⟨target, q.tickAcross next, liquidity, remaining, totalOut, cache⟩)
  else .error "CLMM walk hit tick bounds"

/-- The last step, inside the current liquidity. It consumes all that is left. -/
def finish (w : Walk) (cache : ArrayCache) (net : U128) : Except String (U128 × Walk) :=
  if w.liquidity = 0 then .error "CLMM pool has zero active liquidity for remaining input"
  else do
    let sqrtNext ← okOr (if q.zeroForOne then nextSqrtPriceFromAmount0In w.sqrtP w.liquidity net
      else nextSqrtPriceFromAmount1In w.sqrtP w.liquidity net) "sqrt price math overflow"
    let out ← q.stepOut w sqrtNext
    let totalOut ← okOr (w.totalOut.checkedAdd out) "output overflow"
    .ok (toU128 w.remaining, { w with remaining := 0, totalOut, arrayCache := cache })

/-- The body of the loop, with the gross amount it consumes. -/
def iterate (w : Walk) : Except String (U128 × Walk) := do
  let (next, cache) ← q.locate w
  let target ← q.targetAt next.tick
  let net ← q.remainingNet w.remaining
  let need ← q.amountInToTarget w target
  if need ≤ net then q.cross w next cache target need else q.finish w cache net

/-- The loop, with the number of crossings that are left, and with the amounts consumed on the way. -/
def loop (left : ℕ) (w : Walk) : Except String (List U128 × Walk) :=
  if w.remaining = 0 then .ok ([], w)
  else
    match left with
    | 0 => .error "CLMM walk exceeded max tick crossings"
    | left + 1 => do
      let (gross, next) ← q.iterate w
      let (rest, last) ← loop left next
      .ok (gross :: rest, last)

/-- The variables before the loop. -/
def start (amountIn : U64) : Walk :=
  ⟨q.pool.sqrtPriceX64, q.pool.tickCurrent, q.pool.liquidity, amountIn, 0, ∅⟩

/-- `compute_swap_output`. -/
def computeSwapOutput (amountIn : U64) : Except String U64 :=
  if amountIn = 0 then .ok 0
  else if q.ticksPerArray = 0 then .error "invalid tick spacing"
  else do
    let (_, last) ← q.loop maxTickCrossings (q.start amountIn)
    okOr (Word.tryFrom last.totalOut.val) "output exceeds u64"

end Quoting

end RndRust.Thunder.Clmm
