import RndRust.Lib.Abi

/-! What the trades on Uniswap are described by, `uniswap.rs`, and the bytes that are written by
hand for a swap of version 4. Sizes and offsets do not overflow before the bytes are too many for a
`Vec`. -/
namespace RndRust.VolumeMaker.Evm
open Lib Lib.Abi

/-- A `FixedBytes<20>`. -/
abbrev Address := {bytes : List UInt8 // bytes.length = 20}

structure PoolKey where
  currency0 : Address
  currency1 : Address
  fee : ℕ
  tickSpacing : ℤ
  hooks : Address
  deriving DecidableEq

structure PathKey where
  intermediateCurrency : Address
  fee : ℕ
  tickSpacing : ℤ
  hooks : Address
  hookData : List UInt8
  deriving DecidableEq

structure SwapExactIn where
  currencyIn : Address
  path : List PathKey
  amountIn : ℕ
  amountOutMinimum : ℕ
  deriving DecidableEq

/-- `encode_multihop_exact_in_path`: through each pool to its other currency. -/
def encodeMultihopExactInPath : List PoolKey → Address → List PathKey
  | [], _ => []
  | pool :: pools, currencyIn =>
    let currencyOut := if currencyIn = pool.currency0 then pool.currency1 else pool.currency0
    ⟨currencyOut, pool.fee, pool.tickSpacing, pool.hooks, []⟩ :: encodeMultihopExactInPath pools currencyOut

end RndRust.VolumeMaker.Evm
