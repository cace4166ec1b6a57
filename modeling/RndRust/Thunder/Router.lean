import RndRust.Lib.Outcome
import RndRust.Thunder.Adapters

/-! The router program: the arguments in borsh, the checks around a hop, and
`process_instruction`. -/
namespace RndRust.Thunder
open Lib

def errSlippage : ℕ := 1
def errDexProgramMismatch : ℕ := 2
def errChainMismatch : ℕ := 3
def errBadAuthority : ℕ := 4
def errZeroOutput : ℕ := 5
def errInputOverdraw : ℕ := 6
def errSplitsUnsupported : ℕ := 7
def errAmountsMismatch : ℕ := 8

structure SwapLeg where
  dexType : DexType
  numAccounts : ℕ
  weight : ℕ
  deriving DecidableEq, Repr

structure HopArgs where
  legs : List SwapLeg
  deriving DecidableEq, Repr

structure PathArgs where
  hops : List HopArgs
  deriving DecidableEq, Repr

structure ExecuteRouteArgs where
  amountIn : ℕ
  minAmountOut : ℕ
  amounts : List ℕ
  paths : List PathArgs
  deriving DecidableEq, Repr

section Borsh

variable {α : Type}

/-- A reader takes a value off the front of the data. -/
abbrev Reader (α : Type) := Bytes → Option (α × Bytes)

/-- An unsigned integer of `width` bytes. -/
def readInt (width : ℕ) : Reader ℕ := fun data =>
  if width ≤ data.length then some (fromLeBytes (data.take width), data.drop width) else none

def readMany (read : Reader α) : ℕ → Reader (List α)
  | 0, data => some ([], data)
  | n + 1, data => do
    let (x, data) ← read data
    let (xs, data) ← readMany read n data
    some (x :: xs, data)

/-- A `Vec`: its length in four bytes, and its elements. -/
def readVec (read : Reader α) : Reader (List α) := fun data => do
  let (n, data) ← readInt 4 data
  readMany read n data

/-- The variants of `DexType` in the order of their tags. -/
def DexType.ofTag : ℕ → Option DexType
  | 0 => some .meteoraDammV1
  | 1 => some .meteoraDammV2
  | 2 => some .meteoraDlmm
  | 3 => some .raydiumClmm
  | 4 => some .raydiumAmmV4
  | 5 => some .pumpfunBuy
  | 6 => some .pumpfunSell
  | _ => none

def SwapLeg.read : Reader SwapLeg := fun data => do
  let (tag, data) ← readInt 1 data
  let dexType ← DexType.ofTag tag
  let (numAccounts, data) ← readInt 1 data
  let (weight, data) ← readInt 1 data
  some (⟨dexType, numAccounts, weight⟩, data)

def HopArgs.read : Reader HopArgs := fun data => do
  let (legs, data) ← readVec SwapLeg.read data
  some (⟨legs⟩, data)

def PathArgs.read : Reader PathArgs := fun data => do
  let (hops, data) ← readVec HopArgs.read data
  some (⟨hops⟩, data)

/-- `ExecuteRouteArgs::try_from_slice`: nothing may be left over. -/
def ExecuteRouteArgs.tryFromSlice (data : Bytes) : Option ExecuteRouteArgs := do
  let (amountIn, data) ← readInt 8 data
  let (minAmountOut, data) ← readInt 8 data
  let (amounts, data) ← readVec (readInt 8) data
  let (paths, data) ← readVec PathArgs.read data
  if data = [] then some ⟨amountIn, minAmountOut, amounts, paths⟩ else none

end Borsh

/-- `expected_dex_program`. -/
def expectedDexProgram : DexType → Pubkey
  | .meteoraDammV1 => fromStrConst "Eo7WjKq67rjJQSZxS6z3YkapzY3eMj6Xy8X5EQVn5UaB"
  | .meteoraDammV2 => fromStrConst "cpamdpZCGKUy5JxQXB4dcpGPiikHawvSWAd6mEn1sGG"
  | .meteoraDlmm => fromStrConst "LBUZKhRxPF3XUpBCjp4YzTKgLccjZhTSDM9YuVaPwxo"
  | .raydiumClmm => fromStrConst "CAMMCzo5YL8w4VFF8KVHrK22GGUsp5VTaW7grrKgrWqK"
  | .raydiumAmmV4 => fromStrConst "675kPX9MHTjS2zt1qfr1NYHuzeLXfQM9H24wFSUt1Mp8"
  | .pumpfunBuy | .pumpfunSell => fromStrConst "pAMMBay6oceH9fJKBRHGP5D4bD4sWpmSwMn52FMfXEA"

/-- Check (d) of `before_hop`: apart from the authority, the source and the destination,
a writable token account of the authority is in the slice. -/
def smuggles (ledger : Ledger) (hopAccounts : List AccountInfo) (authority : Pubkey) : Bool :=
  hopAccounts.zipIdx.any fun (account, i) =>
    !(i == 1 || i == 2 || i == 3 || !account.isWritable) && (ledger account.key).isToken &&
      (ledger account.key).tokenOwner == some authority

/-- What check (d) lets through stands at one of the three places it skips. -/
theorem not_smuggled {ledger : Ledger} {accounts : List AccountInfo} {a : AccountInfo} {A m : Pubkey}
    (alone : smuggles ledger accounts A = false) (member : a ∈ accounts) (writes : a.isWritable)
    (held : (ledger a.key).Holds A m) :
    a = accountAt accounts 1 ∨ a = accountAt accounts 2 ∨ a = accountAt accounts 3 := by
  obtain ⟨i, found⟩ := List.getElem?_of_mem member
  have place : a = accountAt accounts i := by simp [accountAt, found]
  have passed := List.any_eq_false.mp alone (a, i) (List.mk_mem_zipIdx_iff_getElem?.mpr found)
  simp only [writes, held.1, held.2.1, Bool.not_true, Bool.or_false, Bool.and_true, beq_self_eq_true,
    Bool.not_eq_true, Bool.not_eq_false', Bool.or_eq_true, beq_iff_eq] at passed
  rcases passed with (rfl | rfl) | rfl
  · exact .inl place
  · exact .inr (.inl place)
  · exact .inr (.inr place)

/-- `before_hop`: the mint of the destination, if all checks pass. -/
def beforeHop (ledger : Ledger) (hopAccounts : List AccountInfo) (dexType : DexType)
    (prevDestMint : Option Pubkey) : Except ProgramError Pubkey :=
  let dexProgram := accountAt hopAccounts 0
  let authority := accountAt hopAccounts 1
  let source := ledger (accountAt hopAccounts 2).key
  let dest := ledger (accountAt hopAccounts 3).key
  if hopAccounts.length < 4 then .error .notEnoughAccountKeys
  else if dexProgram.key ≠ expectedDexProgram dexType then .error (.custom errDexProgramMismatch)
  else if !authority.isSigner then .error (.custom errBadAuthority)
  else if source.tokenOwner ≠ some authority.key then .error (.custom errBadAuthority)
  else match source.tokenMint with
    | none => .error (.custom errBadAuthority)
    | some sourceMint =>
      if prevDestMint.any (sourceMint ≠ ·) then .error (.custom errChainMismatch)
      else if smuggles ledger hopAccounts authority.key then .error (.custom errBadAuthority)
      else match dest.tokenMint with
        | none => .error (.custom errChainMismatch)
        | some destMint => .ok destMint

/-- What the checks before a hop establish. -/
theorem beforeHop_spec {ledger : Ledger} {accounts : List AccountInfo} {dexType : DexType}
    {prev : Option Pubkey} {destMint : Pubkey}
    (passed : beforeHop ledger accounts dexType prev = .ok destMint) :
    4 ≤ accounts.length ∧ (accountAt accounts 0).key = expectedDexProgram dexType ∧
      (accountAt accounts 1).isSigner ∧
      (ledger (accountAt accounts 2).key).tokenOwner = some (accountAt accounts 1).key ∧
      (∃ m, (ledger (accountAt accounts 2).key).tokenMint = some m ∧ ∀ p ∈ prev, m = p) ∧
      smuggles ledger accounts (accountAt accounts 1).key = false ∧
      (ledger (accountAt accounts 3).key).tokenMint = some destMint := by
  simp only [beforeHop] at passed
  split at passed
  · cases passed
  rename_i size
  split at passed
  · cases passed
  rename_i program
  split at passed
  · cases passed
  rename_i signer
  split at passed
  · cases passed
  rename_i owner
  split at passed
  · cases passed
  rename_i sourceMint mint
  split at passed
  · cases passed
  rename_i chained
  split at passed
  · cases passed
  rename_i alone
  split at passed
  · cases passed
  rename_i destMint' minted
  cases passed
  refine ⟨Nat.not_lt.mp size, not_not.mp program, by simpa using signer, not_not.mp owner, ⟨sourceMint, mint, ?_⟩,
    by simpa using alone, minted⟩
  rintro p rfl
  simpa using chained

/-- The loop of `process_instruction` between two hops. -/
structure RouteState where
  offset : ℕ
  currentAmount : ℕ
  prevDestMint : Option Pubkey
  ledger : Ledger

/-- The accounts of a leg: the next `num_accounts` ones. -/
def hopAccounts (accounts : List AccountInfo) (offset n : ℕ) : List AccountInfo :=
  (accounts.drop offset).take n

/-- `X::swap` of an adapter: its instruction is built and invoked. -/
def swap (rt : Runtime) (dexType : DexType) (accounts : List AccountInfo) (amountIn : ℕ)
    (ledger : Ledger) : Except ProgramError Ledger := do
  let ix ← adapter dexType accounts amountIn
  invoke rt ix accounts ledger

/-- One pass of the loop on a leg, with its accounts. -/
def runLeg (rt : Runtime) (accounts : List AccountInfo) (leg : SwapLeg) (s : RouteState) :
    Except ProgramError RouteState := do
  let destMint ← beforeHop s.ledger accounts leg.dexType s.prevDestMint
  let source := (accountAt accounts 2).key
  let dest := (accountAt accounts 3).key
  let ledger ← swap rt leg.dexType accounts s.currentAmount s.ledger
  let actualIn := (s.ledger source).readTokenBalance - (ledger source).readTokenBalance
  let output := (ledger dest).readTokenBalance - (s.ledger dest).readTokenBalance
  if s.currentAmount < actualIn then .error (.custom errInputOverdraw)
  else if output = 0 then .error (.custom errZeroOutput)
  else .ok ⟨s.offset + leg.numAccounts, output, some destMint, ledger⟩

/-- The loop body: a hop has a single leg, and the list holds the leg's accounts. -/
def runHop (rt : Runtime) (accounts : List AccountInfo) (s : RouteState) (hop : HopArgs) :
    Except ProgramError RouteState :=
  match hop.legs with
  | [leg] =>
    if accounts.length < s.offset + leg.numAccounts then .error .notEnoughAccountKeys
    else runLeg rt (hopAccounts accounts s.offset leg.numAccounts) leg s
  | _ => .error (.custom errSplitsUnsupported)

/-- The loop over the hops. -/
def runHops (rt : Runtime) (accounts : List AccountInfo) :
    List HopArgs → RouteState → Except ProgramError RouteState
  | [], s => .ok s
  | hop :: hops, s => runHop rt accounts s hop >>= runHops rt accounts hops

/-- `u64::checked_add`. -/
def checkedAdd (a b : ℕ) : Option ℕ :=
  if a + b < 18446744073709551616 then some (a + b) else none

/-- The checks of `process_instruction` before the loop: the hops of the only path. -/
def ExecuteRouteArgs.hops (args : ExecuteRouteArgs) : Except ProgramError (List HopArgs) :=
  if args.paths = [] ∨ args.amounts.length ≠ args.paths.length then .error .invalidInstructionData
  else match args.amounts.foldlM checkedAdd 0 with
    | none => .error (.custom errAmountsMismatch)
    | some total =>
      if total ≠ args.amountIn then .error (.custom errAmountsMismatch)
      else match args.paths with
        | [path] => if path.hops = [] then .error .invalidInstructionData else .ok path.hops
        | _ => .error (.custom errSplitsUnsupported)

theorem hops_ne_nil {args : ExecuteRouteArgs} {hops : List HopArgs} (checked : args.hops = .ok hops) :
    hops ≠ [] := by
  unfold ExecuteRouteArgs.hops at checked
  split at checked
  · cases checked
  split at checked
  · cases checked
  split at checked
  · cases checked
  split at checked
  · split at checked
    · cases checked
    · rename_i present
      cases checked
      exact present
  · cases checked

/-- The state before the first hop. -/
def RouteState.start (args : ExecuteRouteArgs) (ledger : Ledger) : RouteState :=
  ⟨0, args.amountIn, none, ledger⟩

/-- `process_instruction`: the ledger it leaves. -/
def processInstruction (rt : Runtime) (accounts : Accounts) (data : Bytes) (ledger : Ledger) :
    Except ProgramError Ledger :=
  match ExecuteRouteArgs.tryFromSlice data with
  | none => .error .invalidInstructionData
  | some args => do
    let hops ← args.hops
    let s ← runHops rt accounts.infos hops (.start args ledger)
    if s.currentAmount < args.minAmountOut then .error (.custom errSlippage) else .ok s.ledger

end RndRust.Thunder
