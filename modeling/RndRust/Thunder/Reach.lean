import RndRust.Thunder.Clmm.Walk
import RndRust.Thunder.Dlmm.Walk
import RndRust.Thunder.Layout

/-! Which arrays a quote draws on, against those that the instruction for the swap lists. A quote stays
with a list of arrays just as long as the amount is no more than these can take. -/
namespace RndRust.Thunder
open Lib Clmm Dlmm

namespace Clmm.Quoting

variable {q : Quoting} {w next last : Walk} {listed : List Pubkey} {left : ℕ} {gross need target : U128}
  {found : TickInfo} {cache : ArrayCache} {grosses : List U128} {more : U64}

/-- The start of the array in which the search for the next tick ends. -/
def scanned (q : Quoting) (tick : ℤ) : ℕ → ℤ → ArrayCache → Option ℤ
  | 0, _, _ => none
  | count + 1, arrayStart, cache =>
    let idx := arrayStart / q.ticksPerArray
    let next := signed 32 (if q.zeroForOne then arrayStart - q.ticksPerArray else arrayStart + q.ticksPerArray)
    if (idx < -512 ∨ 511 < idx) ∧ (q.extData = none ∨ 7680 < idx.natAbs) then none
    else if isTickArrayInitialized q.pool.tickArrayBitmap q.extData idx then
      match q.fetch arrayStart cache with
      | .error _ => none
      | .ok (data, cache) =>
        if (findInitializedTickInArray data tick q.zeroForOne).isSome then some arrayStart
        else scanned q tick count next cache
    else scanned q tick count next cache

/-- The array whose tick bounds the liquidity that is traded next. -/
def drawn (q : Quoting) (w : Walk) : Option Pubkey :=
  (q.scanned w.tick maxArrayScan (tickArrayStartIndex w.tick q.pool.tickSpacing) w.arrayCache).map
    (pdaTickArrayAddress q.find q.poolId)

/-- The arrays that the iterations of the loop draw on. -/
def drawnFrom (q : Quoting) : ℕ → Walk → List Pubkey
  | 0, _ => []
  | left + 1, w =>
    if w.remaining = 0 then []
    else (q.iterate w).toOption.elim [] fun step => (q.drawn w).toList ++ drawnFrom q left step.2

/-- What of an input it takes to trade a net amount. -/
def cost (q : Quoting) (need : ℕ) : ℕ := need + (need * q.feeRate) ⌈/⌉ q.share

/-- What lies ahead of a walk: the next tick, its price, and the net amount that reaches it. -/
structure Boundary where
  found : TickInfo
  cache : ArrayCache
  target : U128
  need : U128

def boundary (q : Quoting) (w : Walk) : Except String Boundary := do
  let (found, cache) ← q.locate w
  let target ← q.targetAt found.tick
  let need ← q.amountInToTarget w target
  .ok ⟨found, cache, target, need⟩

/-- The walk behind a boundary, when it can be crossed. -/
def beyond (q : Quoting) (w : Walk) (b : Boundary) : Option Walk :=
  (q.cross w b.found b.cache b.target b.need).toOption.map Prod.snd

/-- How much of an input it takes to come to the end of the listed arrays, tick by tick. -/
def capacity (q : Quoting) (listed : List Pubkey) : ℕ → Walk → ℕ
  | 0, _ => 0
  | left + 1, w =>
    if ∀ array ∈ q.drawn w, array ∈ listed then
      (q.boundary w).toOption.elim 0 fun b => q.cost b.need.val + (q.beyond w b).elim 0 (capacity q listed left)
    else 0

theorem Ahead.boundary (ahead : Ahead q w found cache target need) :
    q.boundary w = .ok ⟨found, cache, target, need⟩ := by
  rw [Quoting.boundary, ahead.located, ok_bind]
  simp only [ahead.priced, ahead.need, ok_bind]

theorem cost_le_iff {n m : ℕ} : q.cost n ≤ m ↔ n ≤ m * q.share / feeRateDenominator :=
  add_ceilDiv_le_iff share_pos share_add

/-- The capacity of the arrays does not depend on the input. -/
theorem capacity_remaining : q.capacity listed left { w with remaining := more } = q.capacity listed left w := by
  induction left generalizing w more with
  | zero => rfl
  | succ left ih =>
    have same : q.boundary { w with remaining := more } = q.boundary w := rfl
    have drawn : q.drawn { w with remaining := more } = q.drawn w := rfl
    have behind : ∀ b, (q.beyond { w with remaining := more } b).elim 0 (q.capacity listed left)
        = (q.beyond w b).elim 0 (q.capacity listed left) := by
      intro b
      unfold beyond
      rw [cross_remaining]
      cases q.cross w b.found b.cache b.target b.need with
      | error => rfl
      | ok next => exact ih
    rw [capacity, capacity, same, drawn]
    simp only [behind]

/-- A walk draws on listed arrays only, if and only if these take what is left of the input. -/
theorem drawn_listed_iff (went : q.loop left w = .ok (grosses, last)) :
    (∀ array ∈ q.drawnFrom left w, array ∈ listed) ↔ w.remaining.val ≤ q.capacity listed left w := by
  induction left generalizing w grosses with
  | zero =>
    obtain ⟨nothing, -, -⟩ | ⟨fewer, _, _, _, more, _⟩ := loop_cases went
    · rw [nothing]
      exact ⟨fun _ => Nat.zero_le _, fun _ _ other => nomatch other⟩
    · omega
  | succ left ih =>
    obtain ⟨nothing, -, -⟩ | ⟨fewer, gross, next, rest, same, going, step, later, -⟩ := loop_cases went
    · rw [drawnFrom, if_pos nothing, nothing]
      exact ⟨fun _ => Nat.zero_le _, fun _ _ other => nomatch other⟩
    obtain rfl := Nat.succ.inj same
    obtain ⟨found, cache, target, need, net, ahead, share, ends⟩ := iterate_cases step
    have some : 0 < w.remaining.val := Nat.pos_of_ne_zero fun zero => going (Fin.ext zero)
    rw [drawnFrom, if_neg going, capacity, ahead.boundary]
    simp only [step, List.forall_mem_append, Option.mem_toList, Except.toOption, Option.elim_some]
    split
    case isFalse outside => exact iff_of_false (fun both => outside both.1) (by omega)
    case isTrue inside =>
      refine (and_iff_right inside).trans ((ih later).trans ?_)
      obtain ⟨covered, crossing⟩ | ⟨short, ended⟩ := ends
      · have fits : q.cost need.val ≤ w.remaining.val := cost_le_iff.mpr (by rw [share]; exact covered)
        have took := (crossed crossing).consumed
        have conserved := (iterate_consumes step).2
        have small := w.remaining.isLt
        have gross_is : gross.val = q.cost need.val := by
          unfold cost at fits ⊢
          omega
        have behind : q.beyond w ⟨found, cache, target, need⟩ = .some next := by
          rw [beyond, crossing]
          rfl
        rw [behind, Option.elim_some]
        omega
      · have more : w.remaining.val < q.cost need.val := by
          rw [← Nat.not_le, cost_le_iff, share]
          exact Nat.not_le_of_lt short
        rw [ended.remaining]
        exact iff_of_true (Nat.zero_le _) (by omega)

end Clmm.Quoting

namespace Dlmm.Quoting

variable {q : Quoting} {w next last : Walk} {listed : List Pubkey} {steps : ℕ} {fills : List Fill}
  {data : Option Bytes} {here : Walk}

/-- The array of a bin. -/
def arrayOf (q : Quoting) (binId : ℤ) : Pubkey := binArrayPda q.find q.lbPair (binArrayIndex binId)

/-- Where a walk is, whatever it has traded so far. -/
def track (w : Walk) : Walk := { w with amountLeft := 1, totalOut := 0 }

/-- The input that empties a bin. -/
def emptying (q : Quoting) (binId : ℤ) (available : U64) (stored : U128) : Option U128 :=
  (q.price binId stored).toOption.bind fun price => amountInForOut (toU128 available) price q.swapForY

/-- How much of an input it takes to empty the bins up to the first one with something on offer whose array
is not listed. -/
def capacity (q : Quoting) (listed : List Pubkey) : ℕ → Walk → ℕ
  | 0, _ => 0
  | steps + 1, w =>
    (q.load (track w)).toOption.elim 0 fun (data, here) =>
      data.elim (capacity q listed steps here) fun bytes =>
        let (available, stored) := BinView.read ⟨bytes, here.currentArrayIndex⟩ here.binId q.swapForY
        if available = 0 then capacity q listed steps (q.advance here)
        else if q.arrayOf here.binId ∈ listed then
          (q.emptying here.binId available stored).elim 0 fun maxIn =>
            q.cost here.binId maxIn.val + capacity q listed steps (q.advance here)
        else 0

theorem capacity_track : q.capacity listed steps (track w) = q.capacity listed steps w := by
  cases steps <;> rfl

theorem load_track : q.load (track w) = (q.load w).map fun (data, here) => (data, track here) :=
  load_totals 1 0

theorem track_going : 0 < (track w).amountLeft := Fin.pos_iff_ne_zero.mpr (by decide : (1 : U64) ≠ 0)

theorem advance_track (going : w.amountLeft ≠ 0) : q.advance (track w) = track (q.advance w) := by
  unfold advance
  rw [if_pos (Fin.pos_iff_ne_zero.mpr going), if_pos track_going]
  rfl

theorem capacity_advance (going : w.amountLeft ≠ 0) :
    q.capacity listed steps (q.advance (track w)) = q.capacity listed steps (q.advance w) := by
  rw [advance_track going, capacity_track]

/-- A walk draws on listed arrays only, if and only if these take what is left of the input. -/
theorem drawn_listed_iff (enough : q.ahead w ≤ steps) (went : q.loop w = .ok (fills, last)) :
    (∀ filled ∈ fills, q.arrayOf filled.binId ∈ listed) ↔ w.amountLeft.val ≤ q.capacity listed steps w := by
  induction steps generalizing w fills with
  | zero =>
    obtain ⟨nothing, rfl, -⟩ | ⟨_, _, _, going, -⟩ := loop_cases went
    · rw [nothing]
      exact ⟨fun _ => Nat.zero_le _, fun _ => List.forall_mem_nil _⟩
    · rw [ahead_pos going] at enough
      omega
  | succ steps ih =>
    obtain ⟨nothing, rfl, -⟩ | ⟨fill, next, rest, going, step, later, rfl⟩ := loop_cases went
    · rw [nothing]
      exact ⟨fun _ => Nat.zero_le _, fun _ => List.forall_mem_nil _⟩
    have fewer := iterate_ahead going step
    have further := ih (by omega) later
    obtain ⟨data, here, loaded, ends⟩ := iterate_cases step
    obtain ⟨left, -⟩ := load_cases loaded
    have at_here : here.amountLeft ≠ 0 := left ▸ going
    rw [capacity, load_track, loaded]
    simp only [Except.map, Except.toOption, Option.elim_some, List.forall_mem_append, Option.mem_toList]
    obtain ⟨rfl, rfl, rfl⟩ | ⟨bytes, available, stored, rfl, read, ends⟩ := ends
    · rw [Option.elim_none, capacity_track, ← left]
      exact (and_iff_right fun _ other => by cases other).trans further
    · have read : BinView.read ⟨bytes, (track here).currentArrayIndex⟩ (track here).binId q.swapForY
          = (available, stored) := read
      simp only [Option.elim_some, read]
      obtain ⟨empty, rfl, rfl⟩ | ⟨some, filled, traded, rfl, rfl⟩ := ends
      · rw [if_pos (Fin.le_zero_iff.mp (Fin.not_lt.mp empty)), capacity_advance at_here, ← left]
        refine (and_iff_right fun _ other => by cases other).trans (further.trans ?_)
        rw [advance_amountLeft]
      · obtain ⟨price, maxIn, priced, needed, bounded, ends⟩ := fill_cases traded
        have emptied : q.emptying here.binId available stored = .some maxIn := by
          rw [emptying, priced]
          exact needed
        have here_is : (track here).binId = here.binId := rfl
        rw [if_neg (Fin.pos_iff_ne_zero.mp some), here_is, emptied, Option.elim_some, ← left]
        have only : (∀ x, Option.some filled = .some x → q.arrayOf x.binId ∈ listed) ↔
            q.arrayOf here.binId ∈ listed := by simp [fill_binId traded]
        have going : 0 < here.amountLeft.val := Nat.pos_of_ne_zero fun zero => at_here (Fin.ext zero)
        split
        case isFalse outside => exact iff_of_false (fun both => outside (only.mp both.1)) (by omega)
        case isTrue inside =>
          refine (and_iff_right (only.mpr inside)).trans (further.trans ?_)
          rw [advance_amountLeft]
          change filled.left.val ≤ _ ↔ _
          obtain one | one := ends
          · have fits := cost_le_iff.mpr one.covered
            have rest := one.left
            by_cases done : filled.left = 0
            · have done := congrArg Fin.val done
              simp only [Fin.val_zero] at done
              exact iff_of_true (by omega) (by omega)
            · have same : q.capacity listed steps (q.advance (track here)) = q.capacity listed steps (q.advance
                  { here with amountLeft := filled.left, totalOut := Word.wrap (here.totalOut.val + filled.paid.val) }) :=
                capacity_advance (w := { here with
                  amountLeft := filled.left, totalOut := Word.wrap (here.totalOut.val + filled.paid.val) }) done
              rw [same]
              omega
          · have more : here.amountLeft.val < q.cost here.binId maxIn.val := by
              rw [← Nat.not_le, cost_le_iff]
              exact Nat.not_le_of_lt one.short
            rw [one.left]
            exact iff_of_true (Nat.zero_le _) (by omega)

/-- The arrays of the bins that a quote trades with. -/
def drawnFor (q : Quoting) (amountIn : U64) : List Pubkey :=
  match q.loop (q.start amountIn) with
  | .error _ => []
  | .ok (fills, _) => fills.map fun filled => q.arrayOf filled.binId

/-- How much the listed arrays can take, from the active bin on. A walk has fewer than 570 iterations. -/
def reach (q : Quoting) (listed : List Pubkey) : ℕ := q.capacity listed 569 (q.start 1)

theorem drawnFor_listed_iff {amountIn out : U64} (quoted : q.computeSwapOutput amountIn = .ok out) :
    (∀ array ∈ q.drawnFor amountIn, array ∈ listed) ↔ amountIn.val ≤ q.reach listed := by
  by_cases nothing : amountIn = 0
  · have done := loop_done (q := q) (w := q.start amountIn) nothing
    rw [drawnFor, done, nothing]
    exact ⟨fun _ => Nat.zero_le _, fun _ _ other => nomatch other⟩
  · obtain ⟨fills, last, went, -⟩ := computeSwapOutput_eq_ok quoted nothing
    have same : q.reach listed = q.capacity listed 569 (q.start amountIn) := by
      rw [reach, ← capacity_track, ← capacity_track (w := q.start amountIn)]
      rfl
    rw [drawnFor, went, same]
    exact List.forall_mem_map.trans (drawn_listed_iff ahead_start_le went)

end Dlmm.Quoting

namespace Clmm.Quoting

variable {q : Quoting} {listed : List Pubkey}

/-- The arrays of the ticks that bound what a quote trades. -/
def drawnFor (q : Quoting) (amountIn : U64) : List Pubkey := q.drawnFrom maxTickCrossings (q.start amountIn)

/-- How much the listed arrays can take, from the current price on. -/
def reach (q : Quoting) (listed : List Pubkey) : ℕ := q.capacity listed maxTickCrossings (q.start 0)

theorem drawnFor_listed_iff {amountIn out : U64} (quoted : q.computeSwapOutput amountIn = .ok out) :
    (∀ array ∈ q.drawnFor amountIn, array ∈ listed) ↔ amountIn.val ≤ q.reach listed := by
  have same : q.reach listed = q.capacity listed maxTickCrossings (q.start amountIn) :=
    capacity_remaining (w := q.start amountIn)
  by_cases nothing : amountIn = 0
  · have none : q.drawnFor amountIn = [] := if_pos nothing
    rw [none, nothing]
    exact ⟨fun _ => Nat.zero_le _, fun _ _ other => nomatch other⟩
  · obtain ⟨grosses, last, went, -⟩ := computeSwapOutput_eq_ok quoted nothing
    rw [same]
    exact drawn_listed_iff went

end Clmm.Quoting

namespace Engine

open Clmm Dlmm

variable (e : Engine) (balance : Pubkey → U64)

/-- The account store as the provider of a quote. -/
def provider : AccountDataProvider := ⟨e.getData, balance⟩

/-- The quote of a pool of concentrated liquidity. -/
def clmmQuoting (state : ClmmPoolState) (pool : Pubkey) (zeroForOne : Bool) : Clmm.Quoting :=
  ⟨e.find, state, pool, zeroForOne, e.provider balance⟩

/-- The quote of a pool of price bins. -/
def dlmmQuoting (state : DlmmPairState) (pool : Pubkey) (swapForY : Bool) (now : ℤ)
    (fallbackPrice : Word 16 → ℤ → Option U128) : Dlmm.Quoting :=
  ⟨e.find, state, pool, swapForY, e.provider balance, now, fallbackPrice⟩

end Engine

/-- The arrays at the end of an instruction's accounts. -/
def listedAfter (fixed : ℕ) (metas : List AccountMeta) : List Pubkey := (metas.drop fixed).map AccountMeta.pubkey

section Listed

variable {e : Engine} {poolData : Bytes} {pool user tokenIn tokenOut inputMint inProgram outProgram : Pubkey}
  {metas : List AccountMeta}

theorem listedAfter_append {fixed : ℕ} {front : List AccountMeta} {arrays : List Pubkey} (size : front.length = fixed) :
    listedAfter fixed (front ++ arrays.map (AccountMeta.new · false)) = arrays := by
  rw [listedAfter, List.drop_left' size, List.map_map]
  exact List.map_id arrays

/-- The instruction lists the arrays that the search of the bitmap has found. -/
theorem listedAfter_clmm {bitmapExtData : Option Bytes} {clmm : RaydiumClmmPool}
    (read : RaydiumClmmPool.deserialize poolData = .ok clmm)
    (built : e.collectClmmAccounts poolData pool user tokenIn tokenOut inputMint bitmapExtData = .ok metas) :
    computeClmmRemainingAccounts e.find clmm pool (inputMint == clmm.tokenMint0) bitmapExtData e.steps
      = .ok (listedAfter 15 metas) := by
  simp only [Engine.collectClmmAccounts, bind_eq_ok, mapError_eq_ok] at built
  obtain ⟨_, again, arrays, found, built⟩ := built
  obtain rfl := Except.ok.inj (read.symm.trans again)
  obtain rfl := Except.ok.inj built
  exact found.trans (congrArg Except.ok (listedAfter_append (by rfl)).symm)

theorem listedAfter_dlmm {bitmapExt : Option Pubkey} {dlmm : MeteoraDlmmPool}
    (read : MeteoraDlmmPool.deserialize poolData = .ok dlmm)
    (built : e.collectDlmmAccounts poolData pool user tokenIn tokenOut inputMint inProgram outProgram bitmapExt
      = .ok metas) :
    e.deriveDlmmSwapBinArrays dlmm.binArrayBitmap dlmm.activeId (inputMint == dlmm.tokenXMint) pool
      = listedAfter 16 metas := by
  simp only [Engine.collectDlmmAccounts, bind_eq_ok, mapError_eq_ok] at built
  obtain ⟨_, again, built⟩ := built
  obtain rfl := Except.ok.inj (read.symm.trans again)
  split at built
  · cases built
  · obtain rfl := Except.ok.inj built
    exact (listedAfter_append (by rfl)).symm

end Listed

/-- A quote draws on arrays that the instruction for the same pool and direction lists, and on no others, if
and only if the amount is no more than can be taken of the arrays that the engine finds in the bitmap: at most
three, and for price bins only those of the bitmap in the pool. -/
theorem quote_within_reach (e : Engine) (balance : Pubkey → U64) (poolData : Bytes)
    (pool user tokenIn tokenOut inputMint inProgram outProgram : Pubkey) (bitmapExt : Option Pubkey) (now : ℤ)
    (fallbackPrice : Word 16 → ℤ → Option U128) :
    (∀ state clmm metas amountIn out, ClmmPoolState.parse poolData = .ok state →
      RaydiumClmmPool.deserialize poolData = .ok clmm →
      e.collectClmmAccounts poolData pool user tokenIn tokenOut inputMint
        (e.getData (pdaArrayBitmapAddress e.find pool)) = .ok metas →
      let zeroForOne := inputMint == clmm.tokenMint0
      let q := e.clmmQuoting balance state pool zeroForOne
      q.computeSwapOutput amountIn = .ok out →
        ∃ arrays, computeClmmRemainingAccounts e.find clmm pool zeroForOne q.extData e.steps = .ok arrays ∧
          ((∀ array ∈ q.drawnFor amountIn, array ∈ listedAfter 15 metas) ↔ amountIn.val ≤ q.reach arrays)) ∧
    ∀ state dlmm metas amountIn out, DlmmPairState.parse poolData = .ok state →
      MeteoraDlmmPool.deserialize poolData = .ok dlmm →
      e.collectDlmmAccounts poolData pool user tokenIn tokenOut inputMint inProgram outProgram bitmapExt
        = .ok metas →
      let swapForY := inputMint == dlmm.tokenXMint
      let q := e.dlmmQuoting balance state pool swapForY now fallbackPrice
      q.computeSwapOutput amountIn = .ok out →
        ((∀ array ∈ q.drawnFor amountIn, array ∈ listedAfter 16 metas) ↔
          amountIn.val ≤ q.reach (e.deriveDlmmSwapBinArrays dlmm.binArrayBitmap dlmm.activeId swapForY pool)) := by
  refine ⟨fun state clmm metas amountIn out _ read built quoted => ?_,
    fun state dlmm metas amountIn out _ read built quoted => ?_⟩
  · exact ⟨_, listedAfter_clmm read built, Clmm.Quoting.drawnFor_listed_iff quoted⟩
  · rw [listedAfter_dlmm read built]
    exact Dlmm.Quoting.drawnFor_listed_iff quoted

/-- An array of bins with nothing in them. -/
def emptyArray : Bytes := List.replicate binArrayDataLen 0

/-- An array whose last bin offers 10^9 of token Y at the price one. -/
def lastBinOnly : Bytes :=
  List.replicate (binArrayHeader + 69 * binSize) 0 ++ (List.replicate 8 0 ++ toLeBytes 8 (10 ^ 9) ++
    toLeBytes 16 (2 ^ 64) ++ List.replicate 112 0)

/-- The first part of a pool account: fees of a thousandth, bins from -40000 to 40000, and the lowest bin of
array -512 the active one. -/
def farFields : Bytes :=
  List.replicate 8 0 ++ toLeBytes 2 10000 ++ List.replicate 14 0 ++ toLeBytes 4 (2 ^ 32 - 40000) ++
    toLeBytes 4 40000 ++ List.replicate 44 0 ++ toLeBytes 4 (2 ^ 32 - 35840) ++ toLeBytes 2 10 ++
    List.replicate 6 0 ++ List.replicate 32 1

def farPool : Bytes := farFields ++ List.replicate 464 0 ++ ([1] ++ List.replicate 319 0)

/-- An engine with that pool and the arrays around its active bin. -/
def farEngine : Engine where
  find := fun seeds _ => seeds.getLastD []
  ata := fun _ mint _ => mint
  parsePubkey := fun _ => .ok [2]
  store := fun key =>
    if key = toLeBytes 8 (2 ^ 64 - 512) then some ⟨[], emptyArray⟩
    else if key = toLeBytes 8 (2 ^ 64 - 513) then some ⟨[], lastBinOnly⟩
    else none
  bitmapExt := fun _ => none
  routerProgramId := none
  steps := 0

theorem read_zeros {n : ℕ} {arrayIndex binId : ℤ} {swapForY : Bool} :
    BinView.read ⟨List.replicate n 0, arrayIndex⟩ binId swapForY = (0, 0) := by
  have nothing : (Word.wrap 0 : U64) = 0 := rfl
  have sum : (0 : U64).saturatingAdd 0 = 0 := rfl
  simp only [BinView.read, List.drop_replicate, List.take_replicate, fromLeBytes_zeros, nothing, sum, ite_self]
  rfl

def farState : DlmmPairState where
  baseFactor := 10000
  filterPeriod := 0
  decayPeriod := 0
  reductionFactor := 0
  variableFeeControl := 0
  maxVolatilityAccumulator := 0
  minBinId := -40000
  maxBinId := 40000
  baseFeePowerFactor := 0
  collectFeeMode := 0
  volatilityAccumulator := 0
  volatilityReference := 0
  indexReference := 0
  lastUpdateTimestamp := 0
  activeId := -35840
  binStep := 10
  binArrayBitmap := bitmapAt farPool 584

theorem farPool_length : farPool.length = 904 := by
  simp only [farPool, farFields, List.length_append, List.length_replicate, length_toLeBytes]
  rfl

theorem parse_farPool : DlmmPairState.parse farPool = .ok farState := by
  rw [DlmmPairState.parse, if_neg (by rw [farPool_length]; decide)]
  simp only [farState, Except.ok.injEq, DlmmPairState.mk.injEq]
  decide

/-- Of the bitmap in the pool only the first bit is set. -/
theorem inPoolBitmapBit_farPool : inPoolBitmapBit (bitmapAt farPool 584) (-512) = some true := by
  have place : farPool.drop 584 = [1] ++ List.replicate 319 0 := List.drop_left' (by
    simp only [farFields, List.length_append, List.length_replicate, length_toLeBytes])
  have first : (bitmapAt farPool 584 0).val = 1 := by
    simp only [bitmapAt, field, Fin.val_zero, Nat.mul_zero, Nat.add_zero, place, Word.val_wrap]
    decide
  rw [inPoolBitmapBit, dif_pos (by decide)]
  change some ((bitmapAt farPool 584 0).val.testBit 0) = some true
  rw [first]
  rfl

/-- At the end of the bitmap the search is over. -/
theorem binArraysFrom_last {e : Engine} {bitmap : Fin 16 → U64} {pool : Pubkey} {steps wanted : ℕ} {idx : ℤ}
    (here : inPoolBitmapBit bitmap idx = some true) (below : inPoolBitmapBit bitmap (idx - 1) = none) :
    e.binArraysFrom bitmap true pool (steps + 2) idx (wanted + 2) = [binArrayPda e.find pool idx] := by
  simp only [Engine.binArraysFrom, here, if_true, below]

/-- Token X of the pool. -/
def farMint : Pubkey := List.replicate 32 1

theorem listed_farPool : ∃ dlmm metas, MeteoraDlmmPool.deserialize farPool = .ok dlmm ∧
    (farMint == dlmm.tokenXMint) = true ∧
    farEngine.collectDlmmAccounts farPool [2] [1] [] [] farMint [] [] none = .ok metas ∧
    listedAfter 16 metas = [toLeBytes 8 (2 ^ 64 - 512)] := by
  obtain ⟨dlmm, read, active, mint, bitmap⟩ : ∃ dlmm, MeteoraDlmmPool.deserialize farPool = .ok dlmm ∧
      dlmm.activeId = -35840 ∧ (farMint == dlmm.tokenXMint) = true ∧ dlmm.binArrayBitmap = bitmapAt farPool 584 := by
    rw [MeteoraDlmmPool.deserialize, deserAnchor, if_neg (by rw [farPool_length]; decide),
      if_neg (by rw [farPool_length]; decide)]
    exact ⟨_, rfl, by decide, by decide, rfl⟩
  have arrays : farEngine.deriveDlmmSwapBinArrays dlmm.binArrayBitmap dlmm.activeId (farMint == dlmm.tokenXMint) [2]
      = [toLeBytes 8 (2 ^ 64 - 512)] := by
    rw [active, mint, bitmap]
    exact binArraysFrom_last inPoolBitmapBit_farPool (dif_neg (by decide))
  have some : farEngine.deriveDlmmSwapBinArrays dlmm.binArrayBitmap dlmm.activeId
      (farMint == dlmm.tokenXMint) [2] ≠ [] := by
    rw [arrays]
    exact List.cons_ne_nil _ _
  obtain ⟨metas, built⟩ : ∃ metas,
      farEngine.collectDlmmAccounts farPool [2] [1] [] [] farMint [] [] none = .ok metas := by
    rw [Engine.collectDlmmAccounts, read]
    simp only [Except.mapError, ok_bind]
    rw [if_neg some]
    exact ⟨_, rfl⟩
  exact ⟨dlmm, metas, read, mint, built, by rw [← listedAfter_dlmm read built, arrays]⟩

/-- The quote of that pool for token X. -/
def farQuote : Dlmm.Quoting := farEngine.dlmmQuoting (fun _ => 0) farState [2] true 0 (fun _ _ => none)

theorem read_lastBinOnly : BinView.read ⟨lastBinOnly, -513⟩ (-35841) true = (⟨10 ^ 9, by decide⟩, Q64) := by
  have last : lastBinOnly.drop (binArrayHeader + 69 * binSize) = List.replicate 8 0 ++ toLeBytes 8 (10 ^ 9) ++
      toLeBytes 16 (2 ^ 64) ++ List.replicate 112 0 := List.drop_left' List.length_replicate
  simp only [BinView.read, show ((-35841) - (-513) * maxBinPerArray).toNat = 69 from rfl, last]
  decide

/-- Coming to an array whose data are at hand. -/
theorem load_fresh {q : Dlmm.Quoting} {w : Dlmm.Walk} (idx : ℤ) (data : Bytes) (at_idx : binArrayIndex w.binId = idx)
    (fresh : idx ≠ w.currentArrayIndex ∨ w.currentArrayData = none) (liquid : q.hasLiquidity idx = true)
    (provided : q.provider.poolAccountData (binArrayPda q.find q.lbPair idx) = some data)
    (long : ¬data.length < binArrayDataLen) (few : ¬Dlmm.maxArraysVisited < w.arraysVisited + 1) :
    q.load w = .ok (some data, { w with
      currentArrayIndex := idx, currentArrayData := some data, arraysVisited := w.arraysVisited + 1 }) := by
  rw [Dlmm.Quoting.load, at_idx, if_pos fresh, Dlmm.Quoting.enter, if_pos liquid]
  simp only [provided]
  rw [if_neg long, if_neg few]

/-- The active bin has nothing on offer. -/
theorem iterate_farQuote : ∃ next, farQuote.iterate (farQuote.start 1000) = .ok (none, next) ∧
    next.amountLeft = 1000 ∧ next.totalOut = 0 ∧ next.binId = -35841 ∧ next.currentArrayIndex = -512 ∧
    next.arraysVisited = 1 := by
  have active : (farQuote.start 1000).binId = -35840 := by decide
  have inside : ¬((farQuote.start 1000).binId < farQuote.pairState.minBinId ∨
      farQuote.pairState.maxBinId < (farQuote.start 1000).binId) := by
    rw [active]
    decide
  have liquid : farQuote.hasLiquidity (-512) = true := by
    have bit : inPoolBitmapBit farQuote.pairState.binArrayBitmap (-512) = some true := inPoolBitmapBit_farPool
    rw [Dlmm.Quoting.hasLiquidity, bit]
  have loaded := load_fresh (q := farQuote) (w := farQuote.start 1000) (-512) emptyArray
    (by rw [active]; rfl) (.inr rfl) liquid (by rfl)
    (by rw [emptyArray, List.length_replicate]; decide) (by decide)
  rw [Dlmm.Quoting.iterate, if_neg inside, loaded, ok_bind]
  simp only [emptyArray, read_zeros]
  rw [if_neg (by decide)]
  rw [Dlmm.Quoting.advance, if_pos (show 0 < (farQuote.start 1000).amountLeft by decide)]
  refine ⟨_, rfl, rfl, rfl, ?_, rfl, rfl⟩
  change signed 32 ((farQuote.start 1000).binId + if farQuote.swapForY then -1 else 1) = -35841
  rw [active]
  decide

/-- A quote that trades with the bin below, in an array that the instruction does not list. -/
theorem quote_within_reach_fails : ∃ dlmm metas, DlmmPairState.parse farPool = .ok farState ∧
    MeteoraDlmmPool.deserialize farPool = .ok dlmm ∧
    farEngine.collectDlmmAccounts farPool [2] [1] [] [] farMint [] [] none = .ok metas ∧
    (farMint == dlmm.tokenXMint) = farQuote.swapForY ∧ farQuote.computeSwapOutput 1000 = .ok 999 ∧
    ¬∀ array ∈ farQuote.drawnFor 1000, array ∈ listedAfter 16 metas := by
  obtain ⟨dlmm, metas, read, mint, built, listed⟩ := listed_farPool
  obtain ⟨second, first, left, none_yet, bin, index, visits⟩ := iterate_farQuote
  have inside : ¬(second.binId < farQuote.pairState.minBinId ∨ farQuote.pairState.maxBinId < second.binId) := by
    rw [bin]
    decide
  have liquid : farQuote.hasLiquidity (-513) = true := by
    have outside : inPoolBitmapBit farQuote.pairState.binArrayBitmap (-513) = none := dif_neg (by decide)
    rw [Dlmm.Quoting.hasLiquidity, outside]
    rfl
  have loaded := load_fresh (q := farQuote) (w := second) (-513) lastBinOnly
    (by rw [bin]; rfl) (.inl (by rw [index]; decide)) liquid (by rfl)
    (by simp only [lastBinOnly, List.length_append, List.length_replicate, length_toLeBytes]; decide)
    (by rw [visits]; decide)
  have traded := Dlmm.Quoting.fill_atPriceOne (q := farQuote) (-35841) 1000 1 999 (by decide) rfl (by decide)
    (by decide) (by rw [Nat.ceilDiv_eq_add_pred_div]; rfl) (by decide)
  have seen : BinView.read ⟨lastBinOnly, -513⟩ second.binId farQuote.swapForY = (⟨10 ^ 9, by decide⟩, Q64) := by
    rw [bin]
    exact read_lastBinOnly
  rw [← left, ← bin] at traded
  obtain ⟨last, step, done, sum⟩ := Dlmm.Quoting.iterate_last inside loaded none_yet seen (by decide) traded rfl
  have going : second.amountLeft ≠ 0 := by
    rw [left]
    decide
  have went := Dlmm.Quoting.loop_step (show (farQuote.start 1000).amountLeft ≠ 0 by decide) first
    (Dlmm.Quoting.loop_step going step (Dlmm.Quoting.loop_done done))
  refine ⟨dlmm, metas, parse_farPool, read, built, mint, ?_, ?_⟩
  · rw [Dlmm.Quoting.computeSwapOutput, if_neg (by decide), went, ok_bind]
    exact okOr_eq_ok.mpr (Word.tryFrom_eq_some.mpr (by rw [sum]; rfl))
  · have drawn : farQuote.drawnFor 1000 = [toLeBytes 8 (2 ^ 64 - 513)] := by
      rw [Dlmm.Quoting.drawnFor, went]
      simp only [Option.toList_none, Option.toList_some, List.nil_append, List.append_nil, List.map_singleton, bin]
      rfl
    rw [drawn, listed]
    decide

end RndRust.Thunder
