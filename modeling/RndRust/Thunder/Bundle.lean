import RndRust.Thunder.Aggregator.Routing
import RndRust.Thunder.Swap

/-! The instructions around that for the router program: the compute budget, the token accounts that a route
needs, and the wrapping of SOL, `swap.rs`. -/
namespace RndRust.Thunder
open Lib

/-- What the builder reads of a hop of a route. -/
def Aggregator.RouteHop.built (hop : Aggregator.RouteHop) : Thunder.RouteHop :=
  ⟨hop.poolAddress, hop.dexName, hop.inputMint, hop.outputMint⟩

section Budget

def defaultComputeUnitPrice : U64 := 100000

def minComputeUnitLimit : Word 32 := 120000

def maxComputeUnitLimit : Word 32 := 1400000

/-- `hop_compute_units`. -/
def hopComputeUnits (dexName : String) : ℕ :=
  match dexName with
  | "Raydium AMM V4" => 21200
  | "Meteora DAMM V2" => 22500
  | "Meteora DLMM" => 45600
  | "Raydium CLMM" => 110000
  | "Meteora DAMM V1" => 115000
  | "Pumpfun AMM" => 130000
  | _ => 150000

/-- `clamp` between the two limits. -/
def clampComputeUnits (units : Word 32) : Word 32 := max minComputeUnitLimit (min units maxComputeUnitLimit)

/-- `route_compute_unit_limit`. -/
def routeComputeUnitLimit (hops : List RouteHop) : Word 32 :=
  clampComputeUnits (.wrap (30000 + (hops.map fun hop => hopComputeUnits hop.dexName).sum * 12 / 10))

def computeBudgetProgram : Pubkey := fromStrConst "ComputeBudget111111111111111111111111111111"

/-- `set_compute_unit_limit_ix`. -/
def setComputeUnitLimitIx (units : Word 32) : Instruction := ⟨computeBudgetProgram, [], 2 :: toLeBytes 4 units.val⟩

/-- `set_compute_unit_price_ix`. -/
def setComputeUnitPriceIx (microLamports : U64) : Instruction :=
  ⟨computeBudgetProgram, [], 3 :: toLeBytes 8 microLamports.val⟩

end Budget

section Programs

variable (e : Engine) (user : Pubkey)

/-- `create_associated_token_account_idempotent`, paid by the user. -/
def Engine.createAta (mint program : Pubkey) : Instruction :=
  ⟨ataProgram, [.new user true, .new (e.ata user mint program) false, .newReadonly user false, .newReadonly mint false,
    .newReadonly systemProgram false, .newReadonly program false], [1]⟩

/-- `transfer` of the system program. -/
def transferIx (source dest : Pubkey) (lamports : U64) : Instruction :=
  ⟨systemProgram, [.new source true, .new dest false], toLeBytes 4 2 ++ toLeBytes 8 lamports.val⟩

/-- `sync_native`. -/
def syncNative (program account : Pubkey) : Instruction := ⟨program, [.new account false], [17]⟩

/-- `close_account`, for an owner who signs alone. -/
def closeAccount (program account dest owner : Pubkey) : Instruction :=
  ⟨program, [.new account false, .new dest false, .newReadonly owner true], [9]⟩

def Engine.wsolAta : Pubkey := e.ata user Aggregator.wsol tokenProgram

/-- The cleanup that takes the rest of the wrapped SOL out again. -/
def Engine.closeWsol : Instruction := closeAccount tokenProgram (e.wsolAta user) user user

end Programs

structure SwapOptions where
  wrapAndUnwrapSol : Bool := true
  computeUnitPriceMicroLamports : U64 := defaultComputeUnitPrice
  computeUnitLimit : Option (Word 32) := none

structure SwapIxBundle where
  computeBudget : List Instruction
  setup : List Instruction
  swap : Instruction
  cleanup : List Instruction
  computeUnitLimit : Word 32
  computeUnitPriceMicroLamports : U64

namespace Engine

variable (e : Engine) (user : Pubkey)

/-- The loop that creates the accounts of the output mints, each once. -/
def createOutputs (mintPrograms : List (Pubkey × Pubkey)) : List Pubkey → List RouteHop → List Instruction
  | _, [] => []
  | created, hop :: hops =>
    if hop.outputMint ∈ created then createOutputs mintPrograms created hops
    else
      e.createAta user hop.outputMint (mintProgram mintPrograms hop.outputMint tokenProgram) ::
        createOutputs mintPrograms (created ++ [hop.outputMint]) hops

/-- Whether a route starts with SOL that has to be wrapped. -/
def wraps (hops : List RouteHop) (opts : SwapOptions) : Bool :=
  opts.wrapAndUnwrapSol && hops.head?.any (·.inputMint == Aggregator.wsol)

/-- Whether a route ends with SOL that has to be unwrapped. -/
def unwraps (hops : List RouteHop) (opts : SwapOptions) : Bool :=
  opts.wrapAndUnwrapSol && hops.getLast?.any (·.outputMint == Aggregator.wsol)

/-- The instructions before the swap. -/
def setup (hops : List RouteHop) (amountIn : U64) (opts : SwapOptions) : List Instruction :=
  let mintPrograms := e.detectMintPrograms (allMints hops)
  if wraps hops opts then
    [e.createAta user Aggregator.wsol tokenProgram, transferIx user (e.wsolAta user) amountIn,
      syncNative tokenProgram (e.wsolAta user)] ++ e.createOutputs user mintPrograms [Aggregator.wsol] hops
  else e.createOutputs user mintPrograms [] hops

/-- `build_swap_instructions`. -/
def buildSwapInstructions (hops : List RouteHop) (amountIn minAmountOut : U64) (opts : SwapOptions) :
    Except String SwapIxBundle := do
  let computeUnitLimit := opts.computeUnitLimit.getD (routeComputeUnitLimit hops)
  let swap ← e.buildSwapInstruction hops user amountIn minAmountOut
  .ok
    { computeBudget := [setComputeUnitLimitIx computeUnitLimit, setComputeUnitPriceIx opts.computeUnitPriceMicroLamports]
      setup := e.setup user hops amountIn opts
      swap
      cleanup := if wraps hops opts || unwraps hops opts then [e.closeWsol user] else []
      computeUnitLimit
      computeUnitPriceMicroLamports := opts.computeUnitPriceMicroLamports }

end Engine

/-- The instructions of the transaction, in order. -/
def SwapIxBundle.instructions (bundle : SwapIxBundle) : List Instruction :=
  bundle.computeBudget ++ bundle.setup ++ [bundle.swap] ++ bundle.cleanup

def maxTxSize : ℕ := 1232

/-- `compile_to_transaction`. Compiling a message, and the size of it when it is serialized, are a parameter. -/
def compileToTransaction (tryCompile : List Instruction → Except String ℕ) (bundle : SwapIxBundle) (alts : ℕ) :
    Except String (List Instruction) := do
  let size ← (tryCompile bundle.instructions).mapError ("compile message: " ++ ·)
  if maxTxSize < size then
    let accounts := bundle.swap.accounts.length
    let plural := if alts = 1 then "" else "s"
    .error s!"transaction too large: {size} bytes > {maxTxSize} ({accounts} swap accounts, {alts} lookup table{plural})"
  else .ok bundle.instructions

section Running

/-- The accounts of an instruction, as the transaction loads them. -/
def Instruction.load (ix : Instruction) (load : Pubkey → AccountInfo) (keyed : ∀ key, (load key).key = key) : Accounts where
  infos := ix.accounts.map (load ·.pubkey)
  shared := by
    simp only [List.forall_mem_map, keyed]
    rintro a - b - same
    rw [same]

/-- Instructions one after the other, of programs that the runtime knows. -/
def callAll (rt : Runtime) : List Instruction → Ledger → Option Ledger
  | [], ledger => some ledger
  | ix :: ixs, ledger => (rt.call ix ledger).bind (callAll rt ixs)

/-- A bundle as the chain executes it; the compute budget touches no account. -/
def SwapIxBundle.execute (rt : Runtime) (load : Pubkey → AccountInfo) (keyed : ∀ key, (load key).key = key)
    (bundle : SwapIxBundle) (ledger : Ledger) : Option (Ledger × Ledger × Ledger) := do
  let ready ← callAll rt bundle.setup ledger
  let swapped ← (processInstruction rt (bundle.swap.load load keyed) bundle.swap.data ready).toOption
  let done ← callAll rt bundle.cleanup swapped
  some (ready, swapped, done)

end Running

end RndRust.Thunder
