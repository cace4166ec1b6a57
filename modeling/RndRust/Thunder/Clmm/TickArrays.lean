import RndRust.Thunder.Clmm.TickMath

/-! Where a pool of concentrated liquidity keeps its ticks: arrays of sixty, at addresses derived from
the first tick, with one bit for each array that exists. -/
namespace RndRust.Thunder.Clmm
open Lib

/-- An integer of `width` bits that is negative from one half up. -/
def signed (width : ℕ) (n : ℤ) : ℤ := n.bmod (2 ^ width)

def tickArraySize : ℤ := 60

def asciiBytes (s : String) : Bytes := s.toList.map fun c => UInt8.ofNat c.toNat

/-- `Pubkey::find_program_address`, from seeds and a program. -/
abbrev FindProgramAddress := List Bytes → Pubkey → Pubkey

def raydiumClmm : Pubkey := fromStrConst "CAMMCzo5YL8w4VFF8KVHrK22GGUsp5VTaW7grrKgrWqK"

/-- `pda_array_bitmap_address`. -/
def pdaArrayBitmapAddress (find : FindProgramAddress) (poolId : Pubkey) : Pubkey :=
  find [asciiBytes "pool_tick_array_bitmap_extension", poolId] raydiumClmm

/-- `pda_tick_array_address`. -/
def pdaTickArrayAddress (find : FindProgramAddress) (poolId : Pubkey) (startIndex : ℤ) : Pubkey :=
  find [asciiBytes "tick_array", poolId, (toLeBytes 4 (startIndex % 2 ^ 32).toNat).reverse] raydiumClmm

/-- `tick_array_start_index`. -/
def tickArrayStartIndex (tick : ℤ) (tickSpacing : Word 16) : ℤ :=
  let ticksPerArray := tickSpacing.val * tickArraySize
  signed 32 (tick / ticksPerArray * ticksPerArray)

/-- `is_tick_array_initialized_in_bitmap`. -/
def isTickArrayInitializedInBitmap (bitmap : Fin 16 → U64) (tickArrayIndex : ℤ) : Bool :=
  let position := tickArrayIndex + 512
  if inside : 0 ≤ position ∧ position < 1024 then
    (bitmap ⟨position.toNat / 64, by omega⟩).val.testBit (position.toNat % 64)
  else false

def extensionBitmapOffset : ℕ := 8 + 32

def extensionGroupSize : ℕ := 512

def extensionNumGroups : ℕ := 14

/-- The bit at a place of one of the two halves of the extension. -/
def extensionBit (extensionData : Bytes) (byteStart : ℕ) (offsetIdx : ℤ) : Bool :=
  if offsetIdx < 0 ∨ (extensionGroupSize * extensionNumGroups : ℕ) ≤ offsetIdx then false
  else
    let dataOffset := byteStart + offsetIdx.toNat / 64 * 8
    if extensionData.length < dataOffset + 8 then false
    else (fromLeBytes ((extensionData.drop dataOffset).take 8)).testBit (offsetIdx.toNat % 64)

/-- `is_tick_array_initialized_in_extension`. -/
def isTickArrayInitializedInExtension (extensionData : Bytes) (tickArrayIndex : ℤ) : Bool :=
  if -512 ≤ tickArrayIndex ∧ tickArrayIndex ≤ 511 then false
  else if 0 < tickArrayIndex then extensionBit extensionData extensionBitmapOffset (tickArrayIndex - 512)
  else extensionBit extensionData (extensionBitmapOffset + extensionNumGroups * 8 * 8) (-tickArrayIndex - 513)

/-- `is_tick_array_initialized`. -/
def isTickArrayInitialized (bitmap : Fin 16 → U64) (extensionData : Option Bytes) (tickArrayIndex : ℤ) : Bool :=
  if -512 ≤ tickArrayIndex ∧ tickArrayIndex ≤ 511 then isTickArrayInitializedInBitmap bitmap tickArrayIndex
  else extensionData.any fun ext => isTickArrayInitializedInExtension ext tickArrayIndex

/-- What the instruction for a swap needs of `RaydiumCLMMPool`. -/
structure RaydiumClmmPool where
  ammConfig : Pubkey
  tokenMint0 : Pubkey
  tokenMint1 : Pubkey
  tokenVault0 : Pubkey
  tokenVault1 : Pubkey
  observationKey : Pubkey
  tickSpacing : Word 16
  tickCurrent : ℤ
  tickArrayBitmap : Fin 16 → U64

def numRemainingTickArrays : ℕ := 3

/-- How far from the middle the search goes. -/
def maxIndex (extensionData : Option Bytes) : ℕ := if extensionData.isSome then 7680 else 512

section Remaining

variable (find : FindProgramAddress) (pool : RaydiumClmmPool) (poolId : Pubkey) (isBuy : Bool)
  (extensionData : Option Bytes)

/-- The loop of `compute_clmm_remaining_accounts`, which collects up to `wanted` arrays. With a spacing for
which the positions wrap it may go on for ever, so it is watched for so many iterations only. -/
def remainingFrom : ℕ → ℤ → ℕ → Option (List Pubkey)
  | _, _, 0 => some []
  | 0, _, _ + 1 => none
  | steps + 1, searchPos, wanted + 1 =>
    let ticksPerArray := pool.tickSpacing.val * tickArraySize
    let tickArrayIndex := searchPos / ticksPerArray
    if maxIndex extensionData < tickArrayIndex.natAbs then some []
    else
      let next := signed 32 (if isBuy then searchPos - ticksPerArray else searchPos + ticksPerArray)
      if isTickArrayInitialized pool.tickArrayBitmap extensionData tickArrayIndex then
        (remainingFrom steps next wanted).map (pdaTickArrayAddress find poolId searchPos :: ·)
      else remainingFrom steps next (wanted + 1)

/-- `compute_clmm_remaining_accounts`. -/
def computeClmmRemainingAccounts (steps : ℕ) : Except String (List Pubkey) :=
  if pool.tickSpacing.val * tickArraySize = 0 then .error "Invalid tick spacing (zero)"
  else
    match remainingFrom find pool poolId isBuy extensionData steps
        (tickArrayStartIndex pool.tickCurrent pool.tickSpacing) numRemainingTickArrays with
    | none => .error "the search for tick arrays has not ended"
    | some [] => .error s!"No initialized tick arrays found in swap direction (tick={pool.tickCurrent}, spacing={pool.tickSpacing.val}, is_buy={isBuy}, has_extension={extensionData.isSome})"
    | some arrays => .ok arrays

end Remaining

end RndRust.Thunder.Clmm
