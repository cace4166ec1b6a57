import RndRust.VolumeMaker.Evm.Uniswap

/-! The bytes written by hand are those of the ABI, and so the contract reads the swap that was
meant. -/
namespace RndRust.VolumeMaker.Evm
open Lib Lib.Abi

/-- `(address, uint24, int24, address, bytes)`. -/
def pathKeyCodec : Codec PathKey :=
  .tuple ((Fields.cons .address (.cons (.uint 24 (by decide)) (.cons (.int 24 (by decide))
    (.cons .address (.cons .bytes .nil))))).via
      (fun key => (key.intermediateCurrency, key.fee, key.tickSpacing, key.hooks, key.hookData, ()))
      (fun (currency, fee, tickSpacing, hooks, hookData, _) => ⟨currency, fee, tickSpacing, hooks, hookData⟩)
      fun _ => rfl)

/-- The fee is a `uint24` and the tick spacing an `int24`. -/
structure PathKey.InRange (key : PathKey) : Prop where
  fee : key.fee < 2 ^ 24
  tickSpacing : -2 ^ 23 ≤ key.tickSpacing ∧ key.tickSpacing < 2 ^ 23

theorem PathKey.InRange.valid {key : PathKey} (inRange : key.InRange) : pathKeyCodec.Valid key :=
  ⟨trivial, inRange.fee, inRange.tickSpacing, trivial, trivial, trivial⟩

end RndRust.VolumeMaker.Evm
