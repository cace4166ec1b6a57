import Mathlib.Data.List.Sort
import Mathlib.Order.Fin.Basic
import RndRust.Lib.Chains
import RndRust.Thunder.PoolRegistry

/-! The aggregator's index of pools, and its search for routes between two mints: direct pools, two to
four hops through the hubs, and the mints next to either end. Every planned path is quoted with the
amount asked, pool after pool. -/
namespace RndRust.Thunder.Aggregator
open Lib
open PoolRegistry (push)

/-- `PoolEntry`, without the data for the disk cache. -/
structure PoolEntry where
  market : Market
  dexName : String
  quoteMint : Pubkey
  baseMint : Pubkey
  poolPubkey : Pubkey
  quoteVault : Pubkey
  baseVault : Pubkey

structure Edge where
  otherMint : Pubkey
  poolAddress : String
  deriving DecidableEq

structure PoolIndex where
  pools : String → Option PoolEntry
  edges : Pubkey → List Edge
  dexCounts : String → ℕ

namespace PoolIndex

/-- `PoolIndex::new`. -/
def new : PoolIndex := ⟨fun _ => none, fun _ => [], fun _ => 0⟩

/-- `add_pool`. -/
def addPool (i : PoolIndex) (address : String) (entry : PoolEntry) : PoolIndex where
  edges := push (push i.edges entry.quoteMint ⟨entry.baseMint, address⟩)
    entry.baseMint ⟨entry.quoteMint, address⟩
  dexCounts := Function.update i.dexCounts entry.dexName (i.dexCounts entry.dexName + 1)
  pools := Function.update i.pools address (some entry)

/-- The index after a sequence of calls of `add_pool`. -/
def ofPools (added : List (String × PoolEntry)) : PoolIndex :=
  added.foldl (fun i pool => i.addPool pool.1 pool.2) new

/-- `get_pool`. -/
def getPool (i : PoolIndex) (address : String) : Option PoolEntry := i.pools address

/-- `neighbor_count`. -/
def neighborCount (i : PoolIndex) (mint : Pubkey) : ℕ := (i.edges mint).length

/-- `neighbors_iter`. -/
def neighborsIter (i : PoolIndex) (mint : Pubkey) : List (Pubkey × String) :=
  (i.edges mint).map fun e => (e.otherMint, e.poolAddress)

/-- `direct_pools`. -/
def directPools (i : PoolIndex) (mintA mintB : Pubkey) : List String :=
  ((i.edges mintA).filter fun e => e.otherMint = mintB).map Edge.poolAddress

end PoolIndex

structure RouteHop where
  poolAddress : String
  dexName : String
  inputMint : Pubkey
  outputMint : Pubkey
  inputAmount : U64
  outputAmount : U64
  priceImpactBps : U64

structure Route where
  hops : List RouteHop
  inputMint : Pubkey
  outputMint : Pubkey
  inputAmount : U64
  outputAmount : U64
  priceImpactBps : U64

structure Quote where
  routes : List Route

/-- `sort_unstable`, by a key and the largest first: equal elements may change places. -/
structure UnstableSort where
  descending : {α : Type} → (α → U64) → List α → List α
  perm : ∀ {α : Type} (key : α → U64) (l : List α), (descending key l).Perm l
  sorted : ∀ {α : Type} (key : α → U64) (l : List α),
    (descending key l).Pairwise fun a b => key b ≤ key a

/-- `sort_by`, by a key and the largest first: equal elements keep their order. -/
def sortDescending {α : Type} (key : α → U64) (l : List α) : List α :=
  l.insertionSort fun a b => key b ≤ key a

theorem perm_sortDescending {α : Type} (key : α → U64) (l : List α) : (sortDescending key l).Perm l :=
  List.perm_insertionSort _ l

theorem pairwise_sortDescending {α : Type} (key : α → U64) (l : List α) :
    (sortDescending key l).Pairwise fun a b => key b ≤ key a := by
  have : Std.Total fun a b => key b ≤ key a := ⟨fun a b => le_total (key b) (key a)⟩
  have : IsTrans α fun a b => key b ≤ key a := ⟨fun _ _ _ first second => second.trans first⟩
  exact List.pairwise_insertionSort _ l

/-- The stable sort is one. -/
def UnstableSort.stable : UnstableSort := ⟨sortDescending, perm_sortDescending, pairwise_sortDescending⟩

/-- What the search takes from the process: the limits of the environment, the price impact of a quote
against a probe, which is computed with floating point, and the sort. -/
structure Settings where
  hubDegreeSkip : ℕ := 2000
  maxRouteImpactBps : U64 := 9000
  maxLegPools : ℕ := 24
  /-- Of the probe's output and input, and of the output and the input. -/
  priceImpactBps : U64 → U64 → U64 → U64 → U64
  sort : UnstableSort

structure Router where
  index : PoolIndex
  maxHops : ℕ
  swappableSet : Option (Finset String)
  liveData : Option AccountDataProvider

/-- A pool's address and the mints that go in and come out. -/
abbrev PathHop := String × Pubkey × Pubkey

def RouteHop.path (hop : RouteHop) : PathHop := (hop.poolAddress, hop.inputMint, hop.outputMint)

def wsol : Pubkey := fromStrConst "So11111111111111111111111111111111111111112"
def usdc : Pubkey := fromStrConst "EPjFWdd5AufqSSqeM2qN1xzybapC8G4wEGGkZwyTDt1v"
def usdt : Pubkey := fromStrConst "Es9vMFrzaCERmJfrF4H2FYD4KCoNkY11McCe8BenwNYB"
def jitosol : Pubkey := fromStrConst "J1toso1uCk3RLmjorhTtrVwY9HJ7X8V9yYac6Y7kGCPn"
def msol : Pubkey := fromStrConst "mSoLzYCxHdYgdzU16g5QSh3i5K3z3KZK7ytfqcJm7So"

def hubMints : List Pubkey := [wsol, usdc, usdt, jitosol, msol]

def hubMintsCore : List Pubkey := [wsol, usdc, usdt]

def maxNeighborCandidates : ℕ := 50

def minVaultBalance : U64 := 10000000

namespace PoolEntry

/-- The balances that the market remembers are not both below the minimum. -/
def funded (entry : PoolEntry) : Bool :=
  entry.market.financials.all fun f =>
    !(f.quoteBalance < minVaultBalance && f.baseBalance < minVaultBalance)

/-- Which way a swap of a mint goes, and what comes out. -/
def direction (entry : PoolEntry) (inputMint : Pubkey) : Option (SwapDirection × Pubkey) :=
  if inputMint = entry.quoteMint then some (.buy, entry.baseMint)
  else if inputMint = entry.baseMint then some (.sell, entry.quoteMint)
  else none

/-- The `quote` of `simulate_hop`, over live or cached data. -/
def quote (entry : PoolEntry) (live : Option AccountDataProvider) (direction : SwapDirection)
    (amount : U64) : Option U64 :=
  match live with
  | some provider =>
    entry.market.calculateOutputLiveEx amount direction (provider.poolAccountData entry.poolPubkey)
      (provider.tokenBalance entry.quoteVault) (provider.tokenBalance entry.baseVault) (some provider)
  | none => entry.market.calculateOutput amount direction

end PoolEntry

/-- `max_by_key`: the last one of the largest. -/
def maxByKey {α : Type} (key : α → U64) : List α → Option α
  | [] => none
  | a :: rest =>
    match maxByKey key rest with
    | some b => if key a ≤ key b then some b else some a
    | none => some a

namespace Router

variable (q : Settings) (r : Router)

/-- Whether a pool may be used: it is in the set, or where there is none it is active and funded. -/
def swappable (address : String) (entry : PoolEntry) : Bool :=
  match r.swappableSet with
  | some set => address ∈ set
  | none => entry.market.isActive && entry.funded

/-- The probe of a quote, and the price impact against it. -/
def impactOf (amountIn output : U64) (quote : U64 → Option U64) : U64 :=
  let probeIn := max (amountIn / 128) 1
  match quote probeIn with
  | some probeOut => if 0 < probeOut then q.priceImpactBps probeOut probeIn output amountIn else 0
  | none => 0

/-- `simulate_hop`. -/
def simulateHop (address : String) (inputMint : Pubkey) (amountIn : U64) (withImpact : Bool) :
    Option RouteHop := do
  let entry ← r.index.getPool address
  guard (r.swappable address entry)
  let (direction, outputMint) ← entry.direction inputMint
  let quote := entry.quote r.liveData direction
  let outputAmount ← quote amountIn
  guard (outputAmount ≠ 0 ∧ outputAmount ≤ amountIn.saturatingMul 1000000)
  some
    { poolAddress := address
      dexName := entry.dexName
      inputMint, outputMint
      inputAmount := amountIn
      outputAmount
      priceImpactBps :=
        if withImpact ∧ 1000 ≤ amountIn then impactOf q amountIn outputAmount quote else 0 }

/-- The loop that `simulate_path_output` and `simulate_path` share. -/
def simulateHops : List PathHop → U64 → Option (List RouteHop × U64)
  | [], amount => some ([], amount)
  | (address, inputMint, _) :: rest, amount => do
    let hop ← r.simulateHop q address inputMint amount false
    let (hops, output) ← simulateHops rest hop.outputAmount
    some (hop :: hops, output)

/-- `simulate_path_output`. -/
def simulatePathOutput (hops : List PathHop) (initialAmount : U64) : Option U64 :=
  (r.simulateHops q hops initialAmount).map Prod.snd

/-- The first hop's input mint, and the mints that a path plans to get. -/
def visited (hops : List PathHop) : List Pubkey :=
  (hops.head?.map fun hop => hop.2.1).toList ++ hops.map fun hop => hop.2.2

/-- `simulate_path`. -/
def simulatePath (hops : List PathHop) (initialAmount : U64) : Option Route := do
  guard (hops ≠ [] ∧ (visited hops).Nodup)
  let (resultHops, finalOutput) ← r.simulateHops q hops initialAmount
  let first ← resultHops.head?
  let last ← resultHops.getLast?
  some
    { inputMint := first.inputMint
      outputMint := last.outputMint
      inputAmount := initialAmount
      outputAmount := finalOutput
      priceImpactBps :=
        if 128 ≤ initialAmount then
          impactOf q initialAmount finalOutput (r.simulatePathOutput q hops)
        else 0
      hops := resultHops }

/-- `pool_liquidity`. -/
def poolLiquidity (address : String) : U64 :=
  match r.index.getPool address with
  | none => 0
  | some entry =>
    match r.liveData with
    | some live => min (live.tokenBalance entry.quoteVault) (live.tokenBalance entry.baseVault)
    | none =>
      match entry.market.financials with
      | some f => min f.quoteBalance f.baseBalance
      | none => 0

/-- `cap_by_liquidity`. -/
def capByLiquidity (addrs : List String) (limit : ℕ) : List String :=
  if addrs.length ≤ limit then addrs else (q.sort.descending r.poolLiquidity addrs).take limit

/-- The outputs of the pools that quote. -/
def outputs (addrs : List String) (inputMint : Pubkey) (amountIn : U64) : List (String × U64) :=
  addrs.filterMap fun address => do
    let hop ← r.simulateHop q address inputMint amountIn false
    some (address, hop.outputAmount)

/-- `best_pool`. -/
def bestPool (addrs : List String) (inputMint : Pubkey) (amountIn : U64) : Option (String × U64) :=
  maxByKey Prod.snd (r.outputs q addrs inputMint amountIn)

/-- `top_pools`. -/
def topPools (addrs : List String) (inputMint : Pubkey) (amountIn : U64) (n : ℕ) : List (String × U64) :=
  (q.sort.descending Prod.snd (r.outputs q addrs inputMint amountIn)).take n

/-- The pools of one leg, the deepest where there are too many. -/
def leg (mintA mintB : Pubkey) : List String :=
  r.capByLiquidity q (r.index.directPools mintA mintB) q.maxLegPools

/-- `find_direct`. -/
def findDirect (input output : Pubkey) (amountIn : U64) : List Route :=
  (r.leg q input output).filterMap fun address => r.simulatePath q [(address, input, output)] amountIn

/-- `try_2hop`. -/
def try2hop (input mid output : Pubkey) (amountIn : U64) : List Route :=
  let leg1 := r.leg q input mid
  let leg2 := r.leg q mid output
  if leg1 = [] ∨ leg2 = [] then []
  else
    (r.topPools q leg1 input amountIn 3).flatMap fun (a1, midAmount) =>
      (r.topPools q leg2 mid midAmount 3).filterMap fun (a2, _) =>
        r.simulatePath q [(a1, input, mid), (a2, mid, output)] amountIn

/-- The loops over the neighbours of a mint: those that are passed over are not counted, and the loop
ends when enough have been tried. -/
def explore (limit : ℕ) (skip : Pubkey → Bool) (visit : Pubkey → String → List Route) :
    ℕ → List (Pubkey × String) → List Route
  | _, [] => []
  | tried, (mid, address) :: rest =>
    if limit ≤ tried then []
    else if skip mid then explore limit skip visit tried rest
    else visit mid address ++ explore limit skip visit (tried + 1) rest

/-- The mints that the loops over neighbours pass over. -/
def passed (input output : Pubkey) (skip : List Pubkey) (mid : Pubkey) : Bool :=
  mid = input || mid = output || mid ∈ skip

/-- `neighbor_2hop_forward`. -/
def neighbor2hopForward (input output : Pubkey) (amountIn : U64) (skip : List Pubkey) : List Route :=
  if q.hubDegreeSkip < r.index.neighborCount input then []
  else
    explore maxNeighborCandidates (passed input output skip) (fun mid address =>
      Option.toList do
        let leg2 := r.index.directPools mid output
        guard (leg2 ≠ [])
        let hop1 ← r.simulateHop q address input amountIn false
        guard (hop1.outputAmount ≠ 0)
        let (a2, _) ← r.bestPool q leg2 mid hop1.outputAmount
        r.simulatePath q [(address, input, mid), (a2, mid, output)] amountIn)
      0 (r.index.neighborsIter input)

/-- `neighbor_2hop_reverse`. -/
def neighbor2hopReverse (input output : Pubkey) (amountIn : U64) (skip : List Pubkey) : List Route :=
  if q.hubDegreeSkip < r.index.neighborCount output then []
  else
    explore maxNeighborCandidates (passed input output skip) (fun mid _ =>
      Option.toList do
        let leg1 := r.index.directPools input mid
        guard (leg1 ≠ [])
        let (a1, midAmount) ← r.bestPool q leg1 input amountIn
        let (a2, _) ← r.bestPool q (r.index.directPools mid output) mid midAmount
        r.simulatePath q [(a1, input, mid), (a2, mid, output)] amountIn)
      0 (r.index.neighborsIter output)

/-- `try_3hop`. -/
def try3hop (input h1 h2 output : Pubkey) (amountIn : U64) : List Route :=
  Option.toList do
    let l1 := r.leg q input h1
    let l2 := r.leg q h1 h2
    let l3 := r.leg q h2 output
    guard (l1 ≠ [] ∧ l2 ≠ [] ∧ l3 ≠ [])
    let (a1, amt1) ← r.bestPool q l1 input amountIn
    let (a2, amt2) ← r.bestPool q l2 h1 amt1
    let (a3, _) ← r.bestPool q l3 h2 amt2
    r.simulatePath q [(a1, input, h1), (a2, h1, h2), (a3, h2, output)] amountIn

/-- `neighbor_3hop`. -/
def neighbor3hop (input output : Pubkey) (amountIn : U64) (hubs : List Pubkey) : List Route :=
  (if r.index.neighborCount input ≤ q.hubDegreeSkip then
    explore (maxNeighborCandidates / 2) (passed input output hubs) (fun mid _ =>
      hubs.flatMap fun hub => r.try3hop q input mid hub output amountIn)
      0 (r.index.neighborsIter input)
  else [])
  ++ if r.index.neighborCount output ≤ q.hubDegreeSkip then
    explore (maxNeighborCandidates / 2) (passed input output hubs) (fun mid _ =>
      hubs.flatMap fun hub => r.try3hop q input hub mid output amountIn)
      0 (r.index.neighborsIter output)
  else []

/-- The neighbours that `neighbor_4hop` collects. -/
def nearby (input output : Pubkey) (hubs : List Pubkey) (mint : Pubkey) : List (Pubkey × String) :=
  ((r.index.neighborsIter mint).filter fun neighbor => !passed input output hubs neighbor.1).take
    (maxNeighborCandidates / 4)

/-- The body of the loops of `neighbor_4hop`. -/
def try4hop (input nIn hub nOut output : Pubkey) (amountIn : U64) : Option Route := do
  guard (r.index.directPools nIn hub ≠ [] ∧ nIn ≠ nOut ∧ r.index.directPools hub nOut ≠ [])
  let l1 := r.leg q input nIn
  let l2 := r.leg q nIn hub
  let l3 := r.leg q hub nOut
  let l4 := r.leg q nOut output
  guard (l1 ≠ [] ∧ l2 ≠ [] ∧ l3 ≠ [] ∧ l4 ≠ [])
  let (a1, amt1) ← r.bestPool q l1 input amountIn
  let (a2, amt2) ← r.bestPool q l2 nIn amt1
  let (a3, amt3) ← r.bestPool q l3 hub amt2
  let (a4, _) ← r.bestPool q l4 nOut amt3
  r.simulatePath q [(a1, input, nIn), (a2, nIn, hub), (a3, hub, nOut), (a4, nOut, output)] amountIn

/-- `neighbor_4hop`. -/
def neighbor4hop (input output : Pubkey) (amountIn : U64) (hubs : List Pubkey) : List Route :=
  if q.hubDegreeSkip < r.index.neighborCount input ∨ q.hubDegreeSkip < r.index.neighborCount output then []
  else
    hubs.flatMap fun hub =>
      (r.nearby input output hubs input).flatMap fun (nIn, _) =>
        (r.nearby input output hubs output).filterMap fun (nOut, _) =>
          r.try4hop q input nIn hub nOut output amountIn

/-- The hub-hub routes of three hops, both ways for each two hubs. -/
def hubPairs (input output : Pubkey) (amountIn : U64) : List Pubkey → List Route
  | [] => []
  | h1 :: rest =>
    (rest.flatMap fun h2 =>
      r.try3hop q input h1 h2 output amountIn ++ r.try3hop q input h2 h1 output amountIn)
    ++ hubPairs input output amountIn rest

/-- What the strategies of `find_routes` find, one after the other. -/
def candidates (input output : Pubkey) (amountIn : U64) : List Route :=
  let hubs := hubMints.filter fun h => h ≠ input ∧ h ≠ output
  let coreHubs := hubMintsCore.filter fun h => h ≠ input ∧ h ≠ output
  (if 1 ≤ r.maxHops then r.findDirect q input output amountIn else [])
  ++ (if 2 ≤ r.maxHops then
      (hubs.flatMap fun hub => r.try2hop q input hub output amountIn)
      ++ r.neighbor2hopForward q input output amountIn hubs
      ++ r.neighbor2hopReverse q input output amountIn hubs
    else [])
  ++ (if 3 ≤ r.maxHops then
      r.hubPairs q input output amountIn coreHubs ++ r.neighbor3hop q input output amountIn coreHubs
    else [])
  ++ if 4 ≤ r.maxHops then r.neighbor4hop q input output amountIn coreHubs else []

/-- `find_routes`, which never fails. -/
def findRoutes (input output : Pubkey) (amountIn : U64) (maxRoutes : ℕ) : Quote :=
  if input = output ∨ amountIn = 0 then ⟨[]⟩
  else
    let kept := (r.candidates q input output amountIn).filter fun route =>
      route.priceImpactBps ≤ q.maxRouteImpactBps
    ⟨(q.sort.descending Route.outputAmount kept).take maxRoutes⟩

end Router

section Specs

variable {q : Settings} {r : Router} {i : PoolIndex} {addrs : List String} {address : String}
  {mint other input output : Pubkey} {amount : U64} {hop : RouteHop} {route : Route} {plan : List PathHop}

theorem mem_push {κ α : Type} [DecidableEq κ] {map : κ → List α} {k m : κ} {x y : α} :
    y ∈ push map k x m ↔ y ∈ map m ∨ m = k ∧ y = x := by
  by_cases here : m = k
  · subst here
    simp [push]
  · simp [push, here]

/-- A pool takes one of its mints and gives the other. -/
def PoolEntry.Joins (entry : PoolEntry) (mint other : Pubkey) : Prop :=
  mint = entry.quoteMint ∧ other = entry.baseMint ∨ mint = entry.baseMint ∧ other = entry.quoteMint

theorem PoolEntry.joins_of_direction {entry : PoolEntry} {way : SwapDirection}
    (leads : entry.direction mint = some (way, other)) : entry.Joins mint other := by
  unfold direction at leads
  split at leads
  case isTrue quote =>
    cases leads
    exact .inl ⟨quote, rfl⟩
  case isFalse =>
    obtain ⟨base, leads⟩ := Option.ite_none_right_eq_some.mp leads
    cases leads
    exact .inr ⟨base, rfl⟩

/-- A pool joins the same two mints whichever goes in. -/
theorem PoolEntry.Joins.ends {entry : PoolEntry} (joins : entry.Joins mint other) :
    s(mint, other) = s(entry.quoteMint, entry.baseMint) := by
  rcases joins with ⟨rfl, rfl⟩ | ⟨rfl, rfl⟩
  · rfl
  · exact Sym2.eq_swap

theorem mem_directPools : address ∈ i.directPools mint other ↔ ⟨other, address⟩ ∈ i.edges mint := by
  simp only [PoolIndex.directPools, List.mem_map, List.mem_filter, decide_eq_true_eq]
  constructor
  · rintro ⟨⟨_, _⟩, ⟨edge, rfl⟩, rfl⟩
    exact edge
  · exact fun edge => ⟨_, ⟨edge, rfl⟩, rfl⟩

theorem mem_neighborsIter : (other, address) ∈ i.neighborsIter mint ↔ ⟨other, address⟩ ∈ i.edges mint := by
  simp only [PoolIndex.neighborsIter, List.mem_map, Prod.mk.injEq]
  constructor
  · rintro ⟨⟨_, _⟩, edge, rfl, rfl⟩
    exact edge
  · exact fun edge => ⟨_, edge, rfl, rfl⟩

/-- What a hop that is quoted says: its pool may be used, leads from one mint to the other, and quotes
the output, which is positive. -/
def Quoted (r : Router) (hop : RouteHop) : Prop :=
  ∃ entry way, r.index.getPool hop.poolAddress = some entry ∧ r.swappable hop.poolAddress entry ∧
    entry.direction hop.inputMint = some (way, hop.outputMint) ∧
    entry.quote r.liveData way hop.inputAmount = some hop.outputAmount ∧
    0 < hop.outputAmount ∧ hop.outputAmount ≤ hop.inputAmount.saturatingMul 1000000

theorem simulateHop_spec {withImpact : Bool}
    (found : r.simulateHop q address mint amount withImpact = some hop) :
    hop.poolAddress = address ∧ hop.inputMint = mint ∧ hop.inputAmount = amount ∧ Quoted r hop := by
  simp only [Router.simulateHop, Option.bind_eq_bind, Option.bind_eq_some_iff, Option.guard_eq_some',
    exists_const, Prod.exists, Option.some.injEq] at found
  obtain ⟨entry, known, usable, way, other, leads, output, quoted, ⟨positive, credible⟩, rfl⟩ := found
  exact ⟨rfl, rfl, rfl, entry, way, known, usable, leads, quoted, Fin.pos_iff_ne_zero.mpr positive, credible⟩

theorem simulateHops_eq_some {hops : List RouteHop} {out : U64} :
    r.simulateHops q plan amount = some (hops, out) ↔
      List.Forall₂ (fun p hop => r.simulateHop q p.1 p.2.1 hop.inputAmount false = some hop) plan hops ∧
        Chain RouteHop.inputAmount RouteHop.outputAmount amount out hops := by
  induction plan generalizing amount hops out with
  | nil =>
    simp only [Router.simulateHops, Option.some.injEq, Prod.mk.injEq, List.forall₂_nil_left_iff]
    constructor
    · rintro ⟨rfl, rfl⟩
      exact ⟨rfl, rfl⟩
    · rintro ⟨rfl, same⟩
      exact ⟨rfl, same⟩
  | cons p plan ih =>
    obtain ⟨name, into, _⟩ := p
    simp only [Router.simulateHops, Option.bind_eq_bind, Option.bind_eq_some_iff, Prod.exists, ih,
      Option.some.injEq, Prod.mk.injEq]
    constructor
    · rintro ⟨hop, found, rest, last, ⟨each, chain⟩, rfl, rfl⟩
      obtain ⟨-, -, paid, -⟩ := simulateHop_spec found
      exact ⟨.cons (by rwa [paid]) each, paid, chain⟩
    · rintro ⟨each, chain⟩
      cases each with
      | cons found each =>
        obtain ⟨paid, chain⟩ := chain
        exact ⟨_, by rwa [← paid], _, _, ⟨each, chain⟩, rfl, rfl⟩

theorem quoted_of_simulateHops {hops : List RouteHop}
    (each : List.Forall₂ (fun p hop => r.simulateHop q p.1 p.2.1 hop.inputAmount false = some hop) plan hops) :
    ∀ hop ∈ hops, Quoted r hop := by
  induction each with
  | nil => exact List.forall_mem_nil _
  | cons found _ ih =>
    obtain ⟨-, -, -, quoted⟩ := simulateHop_spec found
    exact List.forall_mem_cons.mpr ⟨quoted, ih⟩

theorem addresses_of_simulateHops {hops : List RouteHop}
    (each : List.Forall₂ (fun p hop => r.simulateHop q p.1 p.2.1 hop.inputAmount false = some hop) plan hops) :
    hops.map RouteHop.poolAddress = plan.map Prod.fst := by
  induction each with
  | nil => rfl
  | cons found _ ih =>
    obtain ⟨address, -⟩ := simulateHop_spec found
    rw [List.map_cons, List.map_cons, address, ih]

/-- The hops of a route quote the same when they are the path. -/
theorem simulateHops_again {hops : List RouteHop} {out : U64}
    (found : r.simulateHops q plan amount = some (hops, out)) :
    r.simulateHops q (hops.map RouteHop.path) amount = some (hops, out) := by
  obtain ⟨each, chain⟩ := simulateHops_eq_some.mp found
  refine simulateHops_eq_some.mpr ⟨?_, chain⟩
  clear chain found
  induction each with
  | nil => exact .nil
  | cons found _ ih =>
    obtain ⟨address, mint, -⟩ := simulateHop_spec found
    refine .cons ?_ ih
    rw [RouteHop.path, address, mint]
    exact found

theorem simulatePath_spec (found : r.simulatePath q plan amount = some route) :
    plan ≠ [] ∧ (Router.visited plan).Nodup ∧
      r.simulateHops q plan amount = some (route.hops, route.outputAmount) ∧ route.inputAmount = amount ∧
      (route.hops.head?.map RouteHop.inputMint) = some route.inputMint ∧
      (route.hops.getLast?.map RouteHop.outputMint) = some route.outputMint := by
  simp only [Router.simulatePath, Option.bind_eq_bind, Option.bind_eq_some_iff, Option.guard_eq_some',
    exists_const, Prod.exists, Option.some.injEq] at found
  obtain ⟨⟨some_hop, apart⟩, hops, out, simulated, first, atFirst, last, atLast, rfl⟩ := found
  exact ⟨some_hop, apart, simulated, rfl, by rw [atFirst]; rfl, by rw [atLast]; rfl⟩

theorem mem_of_maxByKey {α : Type} {key : α → U64} {l : List α} {a : α} (best : maxByKey key l = some a) :
    a ∈ l := by
  induction l generalizing a with
  | nil => cases best
  | cons first rest ih =>
    rw [maxByKey] at best
    split at best
    case h_1 b found =>
      split at best <;> cases best
      · exact List.mem_cons_of_mem _ (ih found)
      · exact List.mem_cons_self
    case h_2 =>
      cases best
      exact List.mem_cons_self

theorem mem_of_outputs {pool : String × U64} (member : pool ∈ r.outputs q addrs mint amount) :
    pool.1 ∈ addrs := by
  simp only [Router.outputs, List.mem_filterMap, Option.bind_eq_bind, Option.bind_eq_some_iff,
    Option.some.injEq] at member
  obtain ⟨name, listed, _, -, rfl⟩ := member
  exact listed

theorem mem_of_bestPool {pool : String × U64} (best : r.bestPool q addrs mint amount = some pool) :
    pool.1 ∈ addrs := mem_of_outputs (mem_of_maxByKey best)

theorem mem_of_topPools {n : ℕ} {pool : String × U64} (top : pool ∈ r.topPools q addrs mint amount n) :
    pool.1 ∈ addrs := mem_of_outputs ((q.sort.perm _ _).mem_iff.mp (List.mem_of_mem_take top))

theorem mem_of_leg (member : address ∈ r.leg q mint other) : ⟨other, address⟩ ∈ r.index.edges mint := by
  rw [Router.leg, Router.capByLiquidity] at member
  split at member
  case isTrue => exact mem_directPools.mp member
  case isFalse => exact mem_directPools.mp ((q.sort.perm _ _).mem_iff.mp (List.mem_of_mem_take member))

/-- What the loops over neighbours find, they find at one neighbour that is not passed over. -/
theorem mem_explore {limit tried : ℕ} {skip : Pubkey → Bool} {visit : Pubkey → String → List Route}
    {neighbors : List (Pubkey × String)} (member : route ∈ Router.explore limit skip visit tried neighbors) :
    ∃ mid address, (mid, address) ∈ neighbors ∧ route ∈ visit mid address := by
  induction neighbors generalizing tried with
  | nil => cases member
  | cons first rest ih =>
    obtain ⟨mid, name⟩ := first
    rw [Router.explore] at member
    split at member
    case isTrue => cases member
    case isFalse =>
      split at member
      case isTrue =>
        obtain ⟨mid, name, later, found⟩ := ih member
        exact ⟨mid, name, List.mem_cons_of_mem _ later, found⟩
      case isFalse =>
        rcases List.mem_append.mp member with found | member
        · exact ⟨mid, name, List.mem_cons_self, found⟩
        · obtain ⟨mid, name, later, found⟩ := ih member
          exact ⟨mid, name, List.mem_cons_of_mem _ later, found⟩

end Specs

end RndRust.Thunder.Aggregator
