import RndRust.Lib.Outcome
import RndRust.Thunder.Aggregator.Routes
import RndRust.Thunder.Api
import RndRust.Thunder.Layout

/-! What `prepare_swap` hands out, and what a quote is worth when it comes back: the route that was quoted, for the
amount that was quoted. -/
namespace RndRust.Thunder.Api
open Lib Clmm Aggregator

section Plan

variable {parsePubkey : String → Except String Pubkey} {hop : Aggregator.RouteHop} {route : Route} {mint : Pubkey}
  {percent : ℕ}

theorem parseMint_display (parses : parsePubkey = fromStr) (long : mint.length = 32) :
    parseMint parsePubkey (display mint) = .ok mint := by
  have other : (display mint).toList.map Char.toLower ≠ "sol".toList := by
    intro same
    have short := congrArg List.length same
    rw [List.length_map, String.length_toList] at short
    have long := (length_display long).1
    simp [short] at long
  rw [parseMint, if_neg other, parses, fromStr_display long]
  rfl

/-- A hop is read back from its step, but for the price impact. -/
theorem hopFromStep_planStep (parses : parsePubkey = fromStr) (input : hop.inputMint.length = 32)
    (output : hop.outputMint.length = 32) :
    hopFromStep parsePubkey (planStep percent hop) = .ok { hop with priceImpactBps := 0 } := by
  simp only [hopFromStep, planStep, parseMint_display parses input, parseMint_display parses output, parseU64_repr,
    ok_bind, Except.mapError]

/-- A route without its price impacts. -/
def unimpacted (route : Route) : Route :=
  { route with hops := route.hops.map fun hop => { hop with priceImpactBps := 0 }, priceImpactBps := 0 }

/-- The ends and amounts of a route are those of its first and last hops. -/
structure Framed (route : Route) : Prop where
  first : ∃ hop, route.hops.head? = some hop ∧ route.inputMint = hop.inputMint ∧ route.inputAmount = hop.inputAmount
  last : ∃ hop, route.hops.getLast? = some hop ∧ route.outputMint = hop.outputMint ∧ route.outputAmount = hop.outputAmount

theorem routeFromRoutePlan_steps (parses : parsePubkey = fromStr) (framed : Framed route)
    (keys : ∀ hop ∈ route.hops, hop.inputMint.length = 32 ∧ hop.outputMint.length = 32) :
    routeFromRoutePlan parsePubkey (route.hops.map (planStep percent)) = .ok (unimpacted route) := by
  have hops : (route.hops.map (planStep percent)).mapM (hopFromStep parsePubkey)
      = .ok (route.hops.map fun hop => { hop with priceImpactBps := 0 }) := by
    rw [List.mapM_map]
    exact mapM_eq_ok fun hop member => hopFromStep_planStep parses (keys hop member).1 (keys hop member).2
  obtain ⟨first, head, inputMint, inputAmount⟩ := framed.first
  obtain ⟨last, final, outputMint, outputAmount⟩ := framed.last
  rw [routeFromRoutePlan, hops, ok_bind, routeOfHops, List.head?_map, List.getLast?_map, head, final]
  simp [okOr, unimpacted, inputMint, inputAmount, outputMint, outputAmount]

end Plan

section Quoted

variable {s later : AppState} {params : QuoteParams} {response : QuoteResponse} {best : BestJson} {req : SwapRequest}
  {route : Route} {q : Settings} {r : Aggregator.Router} {input output : Pubkey} {amount expected slippage : U64}

/-- The keys of the pools of an index have 32 bytes each. -/
def Keyed (index : PoolIndex) : Prop :=
  ∀ address entry, index.getPool address = some entry → entry.quoteMint.length = 32 ∧ entry.baseMint.length = 32

theorem offered_framed (offered : Offered q r input output amount route) :
    Framed route ∧ route.inputAmount = amount ∧
      Chain RouteHop.inputAmount RouteHop.outputAmount amount route.outputAmount route.hops := by
  obtain ⟨plan, -, simulated⟩ := offered
  obtain ⟨nonempty, -, hops, paid, first, last⟩ := simulatePath_spec simulated
  obtain ⟨each, amounts⟩ := simulateHops_eq_some.mp hops
  have some_hop : route.hops ≠ [] := by
    rintro none
    rw [none] at first
    cases first
  obtain ⟨one, head, inputMint⟩ := Option.map_eq_some_iff.mp first
  obtain ⟨two, final, outputMint⟩ := Option.map_eq_some_iff.mp last
  have starts := amounts.head? some_hop
  have ends := amounts.getLast? some_hop
  rw [head, Option.map_some, Option.some.injEq] at starts
  rw [final, Option.map_some, Option.some.injEq] at ends
  exact ⟨⟨⟨one, head, inputMint.symm, paid.trans starts.symm⟩, two, final, outputMint.symm, ends.symm⟩, paid, amounts⟩

theorem offered_keys (keyed : Keyed r.index) (offered : Offered q r input output amount route) :
    ∀ hop ∈ route.hops, hop.inputMint.length = 32 ∧ hop.outputMint.length = 32 := by
  obtain ⟨plan, -, simulated⟩ := offered
  obtain ⟨-, -, hops, -⟩ := simulatePath_spec simulated
  intro hop member
  obtain ⟨p, -, found⟩ := exists_of_forall₂ (simulateHops_eq_some.mp hops).1 member
  obtain ⟨-, -, -, entry, way, known, -, leads, -⟩ := simulateHop_spec found
  obtain ⟨quote, base⟩ := keyed _ entry known
  rcases PoolEntry.joins_of_direction leads with ⟨pays, gives⟩ | ⟨pays, gives⟩
  · exact ⟨pays ▸ quote, gives ▸ base⟩
  · exact ⟨pays ▸ base, gives ▸ quote⟩

theorem quoteRoutes_offered {maxHops : ℕ} (member : route ∈ s.quoteRoutes input output amount maxHops) :
    ∃ depth, Offered s.settings (s.router depth) input output amount route := by
  unfold AppState.quoteRoutes at member
  dsimp only at member
  split at member
  all_goals
    obtain ⟨routes, taken, -, offered⟩ := findRoutes_eq s.settings (s.router _) input output amount
    rw [taken] at member
    exact ⟨_, offered route (List.mem_of_mem_take member)⟩

/-- The least output is the expected one less the slippage, rounded down, as long as the slippage is no more than
all of it. -/
theorem calculateMinAmountOut_val (part : slippage.val ≤ 10000) :
    (calculateMinAmountOut expected slippage).val = expected.val * (10000 - slippage.val) / 10000 := by
  have share : (10000 - slippage : U64).val = 10000 - slippage.val := Fin.sub_val_of_le (Fin.le_def.mpr part)
  have small : expected.val * (10000 - slippage.val) / 10000 ≤ expected.val :=
    Nat.div_le_of_le_mul ((Nat.mul_le_mul_left _ (Nat.sub_le _ _)).trans_eq (Nat.mul_comm _ _))
  rw [calculateMinAmountOut, Word.val_wrap, share, Nat.mod_eq_of_lt (small.trans_lt expected.isLt)]

/-- Where no split is asked for, the best route is that of the search. -/
theorem handleQuote_unsplit {inputMint outputMint : Pubkey}
    (parsedInput : parseMint s.engine.parsePubkey params.inputMint = .ok inputMint)
    (parsedOutput : parseMint s.engine.parsePubkey params.outputMint = .ok outputMint) (unsplit : params.splits = none) :
    ∃ response, handleQuote s params = .ok response ∧
      response.best = (s.quoteRoutes inputMint outputMint params.amount (min (params.maxHops.getD 2) 4)).head?.map
        (bestOfRoute (params.slippageBps.getD 50)) := by
  simp only [handleQuote, parsedInput, parsedOutput, badRequest, Except.mapError, ok_bind, splitMode, unsplit]
  exact ⟨_, rfl, rfl⟩

/-- A quote without a split comes back as it went out: the swap that is asked for with it has one candidate, which is
the route that was found, hop for hop and amount for amount, and must bring what the quote said at the least. -/
theorem quote_comes_back (parses : s.engine.parsePubkey = fromStr) (same : later.engine.parsePubkey = fromStr)
    (keyed : Keyed s.index) (answered : handleQuote s params = .ok response) (found : response.best = some best)
    (whole : best.singlePathOutAmount = none)
    (asked : req.quoteResponse = some ⟨best.otherAmountThreshold, best.routePlan⟩) :
    ∃ (route : Route) (minOut : U64), later.candidates req = .ok [(unimpacted route, minOut)] ∧
      (∃ inputMint outputMint depth, parseMint fromStr params.inputMint = .ok inputMint ∧
        parseMint fromStr params.outputMint = .ok outputMint ∧
        Offered s.settings (s.router depth) inputMint outputMint params.amount route) ∧
      route.inputAmount = params.amount ∧ best.outAmount = route.outputAmount.val.repr ∧
      Chain RouteHop.inputAmount RouteHop.outputAmount params.amount route.outputAmount (unimpacted route).hops ∧
      ((params.slippageBps.getD 50).val ≤ 10000 →
        minOut.val = route.outputAmount.val * (10000 - (params.slippageBps.getD 50).val) / 10000) := by
  obtain ⟨inputMint, parsedInput, answered⟩ := bind_eq_ok.mp answered
  obtain ⟨outputMint, parsedOutput, answered⟩ := bind_eq_ok.mp answered
  rw [badRequest, mapError_eq_ok, parses] at parsedInput parsedOutput
  dsimp only at answered
  split at answered
  case h_1 split =>
    obtain rfl := Except.ok.inj answered
    simp only [splitQuoteResponse, Option.ite_none_left_eq_some, Option.some.injEq] at found
    obtain ⟨-, rfl⟩ := found
    cases whole
  case h_2 =>
    obtain rfl := Except.ok.inj answered
    obtain ⟨route, first, rfl⟩ := Option.map_eq_some_iff.mp found
    obtain ⟨depth, offered⟩ := quoteRoutes_offered (List.mem_of_mem_head? first)
    obtain ⟨framed, paid, amounts⟩ := offered_framed offered
    have read := @routeFromRoutePlan_steps _ _ 100 rfl framed (offered_keys keyed offered)
    refine ⟨route, calculateMinAmountOut route.outputAmount (params.slippageBps.getD 50), ?_,
      ⟨inputMint, outputMint, depth, parsedInput, parsedOutput, offered⟩, paid, rfl, ?_, calculateMinAmountOut_val⟩
    · simp only [AppState.candidates, asked]
      rw [same]
      simp only [badRequest, bestOfRoute, routeToRoutePlan, read, parseU64_repr, Except.mapError, ok_bind]
    · rw [unimpacted]
      exact chain_map.mpr amounts

end Quoted

section Preparing

variable {o : Order} {h : Host} {pass : Pass} {e after : Engine} {route : Route} {minOut : U64} {limit : Word 32}
  {bundle : SwapIxBundle} {tx : List Instruction} {a : Attempt} {swap : PreparedSwap} {total : U64} {fee : FeeSpec}

/-- What is known of a swap that is handed out after an attempt. -/
structure HandedOut (o : Order) (h : Host) (pass : Pass) (a : Attempt) (swap : PreparedSwap) : Prop where
  route : swap.route = a.route
  built : ∃ (e : Engine) (limit : Word 32), e.buildSwapInstructions o.user (a.route.hops.map (·.built)) a.route.inputAmount a.minOut
    (o.options limit) = .ok swap.bundle
  tx : swap.tx = swap.bundle.instructions
  fits : ∃ size, h.tryCompile swap.tx = .ok size ∧ size ≤ maxTxSize
  skipped : o.skipSim = true → a.simulated = none
  /-- The transaction that was simulated is that of the same candidate, and the one that is handed out unless the
  limit was tightened. -/
  simulated : o.skipSim = false → ∃ e limit bundle tx sim, o.build h e a.route a.minOut limit = .ok (bundle, tx) ∧
    a.simulated = some tx ∧ pass.simulate tx = .ok sim ∧ sim.err = none ∧ (o.dynamicCu = false → swap.tx = tx)

/-- How many of the attempts cost a simulation. -/
def simulations (attempts : List Attempt) : ℕ := attempts.countP fun a => a.simulated.isSome

/-- The text of the last error among the attempts. -/
def lastErrorOf (attempts : List Attempt) (lastError : String) : String :=
  attempts.foldl (fun text a => a.error.getD text) lastError

/-- What the loop has done when it ends, with `left` simulations to begin with: candidates were tried in their order,
all but the last in vain. -/
structure Ended (o : Order) (h : Host) (passes : ℕ → Pass) (left : ℕ) (lastError : String)
    (candidates : List (Route × U64)) (attempts : List Attempt) (result : Except ApiError PreparedSwap) : Prop where
  inOrder : attempts.map (fun a => (a.route, a.minOut)) <+: candidates
  budget : simulations attempts ≤ left
  prepared : ∀ swap, result = .ok swap → ∃ failed last, ∃ i : ℕ, attempts = failed ++ [last] ∧
    (∀ a ∈ failed, a.error.isSome = true) ∧ last.error = none ∧ HandedOut o h (passes i) last swap
  exhausted : ∀ text, result = .error (.unprocessableEntity, text) → (∀ a ∈ attempts, a.error.isSome = true) ∧
    text = lastErrorOf attempts lastError ∧ (attempts.length = candidates.length ∨ simulations attempts = left)

variable {s : AppState} {req : SwapRequest} {candidates : List (Route × U64)}

end Preparing

section Examples

/-- One active pool between two mints. -/
def quotingState : AppState :=
  ⟨{ onePool with parsePubkey := fromStr }, .ofPools [("pool", constantPool (.replicate 32 1) (.replicate 32 2))],
    usualSettings, {"pool"}, none, none⟩

/-- What 1000 of the one mint give of the other. -/
def quotingParams : QuoteParams := ⟨display (.replicate 32 1), display (.replicate 32 2), 1000, none, none, none⟩

theorem quote_comes_back_once : ∃ response best route minOut,
    handleQuote quotingState quotingParams = .ok response ∧ response.best = some best ∧
      quotingState.candidates
        { userPublicKey := "user", quoteResponse := some ⟨best.otherAmountThreshold, best.routePlan⟩ }
        = .ok [(unimpacted route, minOut)] ∧ route.inputAmount = 1000 := by
  have input : parseMint fromStr (display (.replicate 32 1)) = .ok (.replicate 32 1) := parseMint_display rfl rfl
  have output : parseMint fromStr (display (.replicate 32 2)) = .ok (.replicate 32 2) := parseMint_display rfl rfl
  have some_route : (quotingState.quoteRoutes (.replicate 32 1) (.replicate 32 2) 1000 2).head?.isSome := by
    decide +kernel
  obtain ⟨route, first⟩ := Option.isSome_iff_exists.mp some_route
  obtain ⟨response, answered, found⟩ : ∃ response, handleQuote quotingState quotingParams = .ok response ∧
      response.best = some (bestOfRoute 50 route) := by
    obtain ⟨response, answered, best⟩ := @handleQuote_unsplit quotingState quotingParams _ _ input output rfl
    exact ⟨response, answered, best.trans (congrArg (Option.map (bestOfRoute 50)) first)⟩
  have keyed : Keyed quotingState.index := by
    intro address entry known
    obtain rfl : constantPool (.replicate 32 1) (.replicate 32 2) = entry := by
      have listed : quotingState.index.getPool address
          = Function.update (fun _ => none) "pool" (some (constantPool (.replicate 32 1) (.replicate 32 2))) address := rfl
      rw [listed] at known
      by_cases same : address = "pool"
      · simpa [same] using known
      · simp [same] at known
    exact ⟨rfl, rfl⟩
  obtain ⟨route, minOut, listed, -, paid, -⟩ := @quote_comes_back quotingState quotingState _ _ _
    { userPublicKey := "user"
      quoteResponse := some ⟨(bestOfRoute 50 route).otherAmountThreshold, (bestOfRoute 50 route).routePlan⟩ }
    rfl rfl keyed answered found rfl rfl
  exact ⟨response, _, route, minOut, answered, found, listed, paid⟩

end Examples

end RndRust.Thunder.Api
