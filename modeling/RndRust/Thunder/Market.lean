import RndRust.Lib.Words
import RndRust.Thunder.Accounts

/-! What every exchange shows of a pool, and where the live accounts are read. -/
namespace RndRust.Thunder
open Lib

abbrev U64 := Word 64

abbrev U128 := Word 128

scoped instance neZero8 : NeZero (2 ^ 8) := ⟨(Nat.two_pow_pos 8).ne'⟩

scoped instance neZero16 : NeZero (2 ^ 16) := ⟨(Nat.two_pow_pos 16).ne'⟩

scoped instance neZero32 : NeZero (2 ^ 32) := ⟨(Nat.two_pow_pos 32).ne'⟩

scoped instance neZero64 : NeZero (2 ^ 64) := ⟨(Nat.two_pow_pos 64).ne'⟩

scoped instance neZero128 : NeZero (2 ^ 128) := ⟨(Nat.two_pow_pos 128).ne'⟩

theorem U64.max_lt : 2 ^ 64 - 1 < 2 ^ 64 := by decide

/-- `as u128`. -/
def toU128 (a : U64) : U128 := a.widen (by decide)

/-- The bytes of a field, as a number. -/
def field (data : Bytes) (offset width : ℕ) : ℕ := fromLeBytes ((data.drop offset).take width)

def bitmapAt (data : Bytes) (offset : ℕ) : Fin 16 → U64 := fun i => Word.wrap (field data (offset + 8 * i) 8)

/-- `ok_or`. -/
def okOr {α : Type} (result : Option α) (error : String) : Except String α :=
  match result with
  | some a => .ok a
  | none => .error error

theorem okOr_eq_ok {α : Type} {result : Option α} {error : String} {a : α} :
    okOr result error = .ok a ↔ result = some a := by
  cases result <;> simp [okOr]

@[simp] theorem val_toU128 {a : U64} : (toU128 a).val = a.val := rfl

inductive SwapDirection where
  /-- Quote in, base out. -/
  | buy
  /-- Base in, quote out. -/
  | sell
  deriving DecidableEq, Repr

structure PoolFinancials where
  quoteBalance : U64
  baseBalance : U64
  deriving DecidableEq

/-- `AccountDataProvider`. -/
structure AccountDataProvider where
  poolAccountData : Pubkey → Option Bytes
  tokenBalance : Pubkey → U64

/-- A pool that an exchange's crate has read. Nothing is assumed of its answers. -/
structure Market where
  isActive : Bool
  financials : Option PoolFinancials
  calculateOutput : U64 → SwapDirection → Option U64
  calculateOutputLiveEx :
    U64 → SwapDirection → Option Bytes → U64 → U64 → Option AccountDataProvider → Option U64

end RndRust.Thunder
