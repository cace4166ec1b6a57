import RndRust.Thunder.Aggregator.Splitter
import RndRust.Thunder.Bundle
import RndRust.Thunder.Keys

/-! The HTTP interface of the engine, `api.rs`: quotes, the plan of a route as text, and the swap that is prepared
from a quote or from the best routes. -/
namespace RndRust.Thunder.Api
open Lib Clmm Aggregator

inductive StatusCode where
  | badRequest
  | notFound
  | unprocessableEntity
  | serviceUnavailable
  deriving DecidableEq, Repr

/-- A status with its text. -/
abbrev ApiError := StatusCode × String

def badRequest {α : Type} (result : Except String α) : Except ApiError α := result.mapError (.badRequest, ·)

/-- `AppState`. The account store, the registry and the environment are the engine's. -/
structure AppState where
  engine : Engine
  index : PoolIndex
  settings : Settings
  swappable : Finset String
  recentBlockhash : Option (String × U64)
  alt : Option String

/-- The store as the source of live data. -/
def liveData (e : Engine) : AccountDataProvider where
  poolAccountData := e.getData
  tokenBalance vault :=
    match e.getData vault with
    | some data => if 72 ≤ data.length then Word.wrap (field data 64 8) else 0
    | none => 0

def AppState.router (s : AppState) (maxHops : ℕ) : Aggregator.Router :=
  ⟨s.index, maxHops, some s.swappable, some (liveData s.engine)⟩

/-- `calculate_min_amount_out`. -/
def calculateMinAmountOut (expectedOutput slippageBps : U64) : U64 :=
  Word.wrap (expectedOutput.val * (10000 - slippageBps).val / 10000)

/-- `parse_mint`. -/
def parseMint (parsePubkey : String → Except String Pubkey) (s : String) : Except String Pubkey :=
  if s.toList.map Char.toLower = "sol".toList then .ok wsol else (parsePubkey s).mapError ("invalid mint: " ++ ·)

section Plan

structure SwapInfo where
  ammKey : String
  label : String
  inputMint : String
  outputMint : String
  inAmount : String
  outAmount : String
  feeAmount : String
  feeMint : String
  deriving DecidableEq, Repr

structure RoutePlanStep where
  swapInfo : SwapInfo
  percent : ℕ
  deriving DecidableEq, Repr

/-- The step of a hop, for a share of the amount. -/
def planStep (percent : ℕ) (hop : Aggregator.RouteHop) : RoutePlanStep where
  swapInfo :=
    { ammKey := hop.poolAddress
      label := hop.dexName
      inputMint := display hop.inputMint
      outputMint := display hop.outputMint
      inAmount := hop.inputAmount.val.repr
      outAmount := hop.outputAmount.val.repr
      feeAmount := "0"
      feeMint := display hop.outputMint }
  percent := percent

/-- `route_to_route_plan`. -/
def routeToRoutePlan (route : Route) : List RoutePlanStep := route.hops.map (planStep 100)

/-- The loop body of `route_from_route_plan`. -/
def hopFromStep (parsePubkey : String → Except String Pubkey) (step : RoutePlanStep) :
    Except String Aggregator.RouteHop := do
  let info := step.swapInfo
  let inputMint ← parseMint parsePubkey info.inputMint
  let outputMint ← parseMint parsePubkey info.outputMint
  let inputAmount ← (parseU64 info.inAmount).mapError ("routePlan inAmount: " ++ ·)
  let outputAmount ← (parseU64 info.outAmount).mapError ("routePlan outAmount: " ++ ·)
  .ok
    { poolAddress := info.ammKey
      dexName := info.label
      inputMint, outputMint, inputAmount, outputAmount
      priceImpactBps := 0 }

/-- A route of these hops, with its ends and amounts. -/
def routeOfHops (hops : List Aggregator.RouteHop) : Option Route := do
  let first ← hops.head?
  let last ← hops.getLast?
  some ⟨hops, first.inputMint, last.outputMint, first.inputAmount, last.outputAmount, 0⟩

/-- `route_from_route_plan`. -/
def routeFromRoutePlan (parsePubkey : String → Except String Pubkey) (plan : List RoutePlanStep) :
    Except String Route := do
  let hops ← plan.mapM (hopFromStep parsePubkey)
  okOr (routeOfHops hops) "quoteResponse.routePlan is empty"

end Plan

section Quotes

structure QuoteParams where
  inputMint : String
  outputMint : String
  amount : U64
  slippageBps : Option U64
  maxHops : Option ℕ
  splits : Option String

structure HopJson where
  poolAddress : String
  dexName : String
  inputMint : String
  outputMint : String
  inputAmount : String
  outputAmount : String

structure RouteJson where
  hops : List HopJson
  outputAmount : String
  priceImpactBps : U64

/-- What is known of the best route, or of the split. -/
structure BestJson where
  inAmount : String
  outAmount : String
  otherAmountThreshold : String
  swapMode : String
  routePlan : List RoutePlanStep
  singlePathOutAmount : Option String

structure QuoteResponse where
  inputMint : String
  outputMint : String
  amount : String
  slippageBps : U64
  routes : List RouteJson
  best : Option BestJson

/-- `route_to_json`. -/
def routeToJson (route : Route) : RouteJson where
  hops := route.hops.map fun hop =>
    ⟨hop.poolAddress, hop.dexName, display hop.inputMint, display hop.outputMint, hop.inputAmount.val.repr,
      hop.outputAmount.val.repr⟩
  outputAmount := route.outputAmount.val.repr
  priceImpactBps := route.priceImpactBps

/-- The direct pool with the most of the input in its vault, by the balances that the markets remember. -/
def deepestDirect (index : PoolIndex) (inputMint outputMint : Pubkey) : Option (PoolEntry × U64) :=
  (index.directPools inputMint outputMint).foldl (fun best address =>
    match index.getPool address with
    | none => best
    | some entry =>
      match entry.market.financials with
      | none => best
      | some fin =>
        let cachedIn := if inputMint = entry.quoteMint then fin.quoteBalance else fin.baseBalance
        if best.all fun b => b.2 < cachedIn then some (entry, cachedIn) else best) none

/-- `split_mode`. -/
def splitMode (s : AppState) (params : QuoteParams) (inputMint outputMint : Pubkey) (maxHops : ℕ) : Option ℕ :=
  match params.splits with
  | none | some "" | some "0" | some "1" => none
  | some "auto" =>
    match deepestDirect s.index inputMint outputMint with
    | some (entry, cachedIn) =>
      let vault := if inputMint = entry.quoteMint then entry.quoteVault else entry.baseVault
      let live := (liveData s.engine).tokenBalance vault
      let vaultBalance := if 0 < live then live else cachedIn
      if vaultBalance.val < params.amount.val * 200 then some 3 else none
    | none => if 2 ≤ maxHops then some 3 else none
  | some n => ((parseU64 n).toOption.filter fun n => 2 ≤ n).map fun n => min n.val 4

/-- The step's `percent` for a share in basis points. -/
def percentOf (percentBps : Word 16) : ℕ := max 1 (min ((percentBps + 50).val / 100) 100)

/-- `split_quote_response`. -/
def splitQuoteResponse (params : QuoteParams) (inputMint outputMint : Pubkey) (slippageBps : U64) (sq : SplitQuote) :
    QuoteResponse where
  inputMint := display inputMint
  outputMint := display outputMint
  amount := params.amount.val.repr
  slippageBps := slippageBps
  routes := sq.paths.map fun path => routeToJson path.route
  best :=
    if sq.paths = [] then none
    else
      some
        { inAmount := sq.inputAmount.val.repr
          outAmount := sq.totalOutput.val.repr
          otherAmountThreshold := (calculateMinAmountOut sq.totalOutput slippageBps).val.repr
          swapMode := "ExactIn"
          routePlan := sq.paths.flatMap fun path => path.route.hops.map (planStep (percentOf path.percentBps))
          singlePathOutAmount := some sq.singlePathOutput.val.repr }

/-- What the best route of a quote is worth. -/
def bestOfRoute (slippageBps : U64) (route : Route) : BestJson where
  inAmount := route.inputAmount.val.repr
  outAmount := route.outputAmount.val.repr
  otherAmountThreshold := (calculateMinAmountOut route.outputAmount slippageBps).val.repr
  swapMode := "ExactIn"
  routePlan := routeToRoutePlan route
  singlePathOutAmount := none

/-- The routes for a quote without a split: a second search, three hops deep, where the first found none. -/
def AppState.quoteRoutes (s : AppState) (inputMint outputMint : Pubkey) (amount : U64) (maxHops : ℕ) : List Route :=
  let found := ((s.router maxHops).findRoutes s.settings inputMint outputMint amount 5).routes
  if found = [] ∧ maxHops < 3 then ((s.router 3).findRoutes s.settings inputMint outputMint amount 5).routes else found

/-- `handle_quote`. -/
def handleQuote (s : AppState) (params : QuoteParams) : Except ApiError QuoteResponse := do
  let inputMint ← badRequest (parseMint s.engine.parsePubkey params.inputMint)
  let outputMint ← badRequest (parseMint s.engine.parsePubkey params.outputMint)
  let slippageBps := params.slippageBps.getD 50
  let maxHops := min (params.maxHops.getD 2) 4
  match splitMode s params inputMint outputMint maxHops with
  | some maxPaths =>
    let splitQuote := (s.router maxHops).findSplitRoutes s.settings inputMint outputMint params.amount { maxPaths }
    .ok (splitQuoteResponse params inputMint outputMint slippageBps splitQuote)
  | none =>
    let routes := s.quoteRoutes inputMint outputMint params.amount maxHops
    .ok
      { inputMint := display inputMint
        outputMint := display outputMint
        amount := params.amount.val.repr
        slippageBps
        routes := routes.map routeToJson
        best := routes.head?.map (bestOfRoute slippageBps) }

end Quotes

section Requests

/-- What a request may give as its fee: a number, with its value where it is a `u64`, or anything else. -/
inductive FeeValue where
  | number (asU64 : Option U64)
  | other

/-- `QuoteResponseIn`. -/
structure QuoteResponseIn where
  otherAmountThreshold : String
  routePlan : List RoutePlanStep

structure SwapRequest where
  userPublicKey : String
  inputMint : Option String := none
  outputMint : Option String := none
  amount : Option U64 := none
  slippageBps : Option U64 := none
  maxHops : Option ℕ := none
  quoteResponse : Option QuoteResponseIn := none
  wrapAndUnwrapSol : Option Bool := none
  prioritizationFeeLamports : Option FeeValue := none
  computeUnitPriceMicroLamports : Option U64 := none
  dynamicComputeUnitLimit : Option Bool := none
  skipPreflightSimulation : Option Bool := none

inductive FeeSpec where
  | auto
  | totalLamports (total : U64)
  | priceMicroLamports (price : U64)

/-- `from_request`. -/
def FeeSpec.fromRequest (req : SwapRequest) : FeeSpec :=
  match req.computeUnitPriceMicroLamports, req.prioritizationFeeLamports with
  | some price, _ => .priceMicroLamports price
  | none, some (.number n) => .totalLamports (n.getD 0)
  | none, _ => .auto

/-- `price`: what a compute unit costs at a limit. -/
def FeeSpec.price (fee : FeeSpec) (cuLimit : Word 32) : U64 :=
  match fee with
  | .auto => defaultComputeUnitPrice
  | .priceMicroLamports price => price
  | .totalLamports total => if cuLimit = 0 then 0 else Word.wrap (total.val * 1000000 / cuLimit.val)

/-- The routes that a request may be served with, and the least that each has to bring. -/
def AppState.candidates (s : AppState) (req : SwapRequest) : Except ApiError (List (Route × U64)) :=
  match req.quoteResponse with
  | some quoteResponse => do
    let route ← badRequest (routeFromRoutePlan s.engine.parsePubkey quoteResponse.routePlan)
    let minOut ← badRequest ((parseU64 quoteResponse.otherAmountThreshold).mapError ("otherAmountThreshold: " ++ ·))
    .ok [(route, minOut)]
  | none =>
    match req.inputMint, req.outputMint, req.amount with
    | some input, some output, some amount => do
      let inputMint ← badRequest (parseMint s.engine.parsePubkey input)
      let outputMint ← badRequest (parseMint s.engine.parsePubkey output)
      let slippageBps := req.slippageBps.getD 50
      let maxHops := min (req.maxHops.getD 2) 4
      let routes := ((s.router maxHops).findRoutes s.settings inputMint outputMint amount 5).routes
      if routes = [] then .error (.notFound, "no route found")
      else .ok (routes.map fun route => (route, calculateMinAmountOut route.outputAmount slippageBps))
    | _, _, _ => .error (.badRequest, "provide either quoteResponse or inputMint+outputMint+amount")

end Requests

section Preparing

/-- What the chain says of a simulated transaction. -/
structure Simulation where
  err : Option String
  logs : List String
  slot : U64
  unitsConsumed : Option U64

/-- What happens around one candidate: the accounts that the chain has, how the store has moved on when the
transaction is built and when it is built again, and the simulation of a transaction. -/
structure Pass where
  getAccount : Pubkey → Option Account
  drift : Engine → Engine
  simulate : List Instruction → Except String Simulation
  driftAgain : Engine → Engine

/-- The libraries that a swap is prepared with: compiling a message, whose size it gives, and `x * 1.1` in floating
point, cut off to 32 bits. -/
structure Host where
  tryCompile : List Instruction → Except String ℕ
  tenthMore : U64 → Word 32

/-- The account of a key, from the chain when the store does not have it. -/
def fetch (getAccount : Pubkey → Option Account) (e : Engine) (key : Pubkey) : Engine :=
  if (e.store key).isSome then e
  else
    match getAccount key with
    | some account => { e with store := Function.update e.store key (some account) }
    | none => e

/-- `PreparedSwap`. -/
structure PreparedSwap where
  route : Route
  bundle : SwapIxBundle
  tx : List Instruction
  blockhash : String
  lastValidBlockHeight : U64
  altAddresses : List String
  simulationSlot : Option U64
  unitsConsumed : Option U64

/-- What `prepare_swap` has at hand before its loop. -/
structure Order where
  user : Pubkey
  skipSim : Bool
  dynamicCu : Bool
  fee : FeeSpec
  wrapAndUnwrapSol : Bool
  blockhash : String
  lastValidBlockHeight : U64
  altAddresses : List String

/-- The options at a limit. -/
def Order.options (o : Order) (limit : Word 32) : SwapOptions :=
  ⟨o.wrapAndUnwrapSol, o.fee.price limit, some limit⟩

/-- `build_swap_instructions` and `compile_to_transaction` at a limit, with what each says of an error. -/
def Order.build (o : Order) (h : Host) (e : Engine) (route : Route) (minOut : U64) (limit : Word 32) :
    Except String (SwapIxBundle × List Instruction) := do
  let bundle ← (e.buildSwapInstructions o.user (route.hops.map (·.built)) route.inputAmount minOut (o.options limit)).mapError
    ("tx build error: " ++ ·)
  let tx ← (compileToTransaction h.tryCompile bundle o.altAddresses.length).mapError ("tx compile error: " ++ ·)
  .ok (bundle, tx)

def Order.prepared (o : Order) (route : Route) (built : SwapIxBundle × List Instruction) (sim : Option Simulation) :
    PreparedSwap where
  route := route
  bundle := built.1
  tx := built.2
  blockhash := o.blockhash
  lastValidBlockHeight := o.lastValidBlockHeight
  altAddresses := o.altAddresses
  simulationSlot := sim.map Simulation.slot
  unitsConsumed := sim.bind Simulation.unitsConsumed

/-- The limit that the simulation suggests, if it is to be used. -/
def Order.tightLimit (o : Order) (h : Host) (sim : Simulation) : Option (Word 32) :=
  if o.dynamicCu then
    (sim.unitsConsumed.filter fun consumed => 0 < consumed).map fun consumed =>
      max 1000 (min (h.tenthMore consumed) maxComputeUnitLimit)
  else none

/-- The swap that is handed out after a simulation: built again at the tight limit, where that goes well. -/
def Order.finish (o : Order) (h : Host) (e : Engine) (route : Route) (minOut : U64)
    (built : SwapIxBundle × List Instruction) (sim : Simulation) : PreparedSwap :=
  match (o.tightLimit h sim).bind fun limit => (o.build h e route minOut limit).toOption with
  | some tight => o.prepared route tight (some sim)
  | none => o.prepared route built (some sim)

/-- A candidate that has been tried: the transaction that was simulated, if one was, and the error. -/
structure Attempt where
  route : Route
  minOut : U64
  simulated : Option (List Instruction)
  error : Option String

/-- The blockhash that the engine keeps. -/
def AppState.blockhash (s : AppState) : Except ApiError (String × U64) :=
  match s.recentBlockhash with
  | some recent => .ok recent
  | none => .error (.serviceUnavailable, "blockhash not yet available")

/-- What is read of a request before the candidates are. -/
def AppState.order (s : AppState) (req : SwapRequest) : Except ApiError Order := do
  let user ← badRequest ((s.engine.parsePubkey req.userPublicKey).mapError ("invalid userPublicKey: " ++ ·))
  let recent ← s.blockhash
  .ok
    { user
      skipSim := req.skipPreflightSimulation.getD false
      dynamicCu := req.dynamicComputeUnitLimit.getD false
      fee := .fromRequest req
      wrapAndUnwrapSol := req.wrapAndUnwrapSol.getD true
      blockhash := recent.1
      lastValidBlockHeight := recent.2
      altAddresses := s.alt.toList }

end Preparing

end RndRust.Thunder.Api
