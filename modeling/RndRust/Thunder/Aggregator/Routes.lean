import RndRust.Thunder.Aggregator.Routing

/-! What the search for routes returns. Every strategy plans its paths along the edges of the index, and
`simulate_path` refuses to come back to a mint; but a hop is quoted by the pool that the address has now,
and that pool decides what comes out. -/
namespace RndRust.Thunder.Aggregator
open Lib

section Strategies

variable {q : Settings} {r : Router} {input output mid h1 h2 : Pubkey} {amount : U64} {route : Route}
  {plan : List PathHop} {hubs skip : List Pubkey}

def PathHop.inputMint (p : PathHop) : Pubkey := p.2.1

def PathHop.outputMint (p : PathHop) : Pubkey := p.2.2

/-- A chain of edges of the index. -/
def Planned (i : PoolIndex) (input output : Pubkey) (plan : List PathHop) : Prop :=
  Chain PathHop.inputMint PathHop.outputMint input output plan ∧
    ∀ p ∈ plan, ⟨p.outputMint, p.1⟩ ∈ i.edges p.inputMint

/-- What a strategy may push: a planned path as it has been simulated with the whole amount. -/
def Offered (q : Settings) (r : Router) (input output : Pubkey) (amount : U64) (route : Route) : Prop :=
  ∃ plan, Planned r.index input output plan ∧ r.simulatePath q plan amount = some route

theorem Planned.nil {i : PoolIndex} : Planned i input input [] := ⟨rfl, by simp⟩

theorem Planned.cons {i : PoolIndex} {address : String} (edge : ⟨mid, address⟩ ∈ i.edges input)
    (rest : Planned i mid output plan) : Planned i input output ((address, input, mid) :: plan) :=
  ⟨⟨rfl, rest.1⟩, List.forall_mem_cons.mpr ⟨edge, rest.2⟩⟩

theorem offered_direct (member : route ∈ r.findDirect q input output amount) :
    Offered q r input output amount route := by
  obtain ⟨a, inLeg, found⟩ := List.mem_filterMap.mp member
  exact ⟨_, .cons (mem_of_leg inLeg) .nil, found⟩

theorem offered_2hop (member : route ∈ r.try2hop q input mid output amount) :
    Offered q r input output amount route := by
  rw [Router.try2hop] at member
  split at member
  case isTrue => cases member
  case isFalse =>
    obtain ⟨⟨a1, midAmount⟩, top1, member⟩ := List.mem_flatMap.mp member
    obtain ⟨⟨a2, _⟩, top2, found⟩ := List.mem_filterMap.mp member
    exact ⟨_, .cons (mem_of_leg (mem_of_topPools top1)) (.cons (mem_of_leg (mem_of_topPools top2)) .nil),
      found⟩

theorem offered_forward (member : route ∈ r.neighbor2hopForward q input output amount skip) :
    Offered q r input output amount route := by
  rw [Router.neighbor2hopForward] at member
  split at member
  case isTrue => cases member
  case isFalse =>
    obtain ⟨mid, address, near, member⟩ := mem_explore member
    simp only [Option.mem_toList, Option.bind_eq_bind, Option.bind_eq_some_iff, Option.guard_eq_some',
      exists_const, Prod.exists] at member
    obtain ⟨-, hop1, -, -, a2, _, best, found⟩ := member
    exact ⟨_, .cons (mem_neighborsIter.mp near)
      (.cons (mem_directPools.mp (mem_of_bestPool best)) .nil), found⟩

theorem offered_reverse (member : route ∈ r.neighbor2hopReverse q input output amount skip) :
    Offered q r input output amount route := by
  rw [Router.neighbor2hopReverse] at member
  split at member
  case isTrue => cases member
  case isFalse =>
    obtain ⟨mid, address, -, member⟩ := mem_explore member
    simp only [Option.mem_toList, Option.bind_eq_bind, Option.bind_eq_some_iff, Option.guard_eq_some',
      exists_const, Prod.exists] at member
    obtain ⟨-, a1, midAmount, best1, a2, _, best2, found⟩ := member
    exact ⟨_, .cons (mem_directPools.mp (mem_of_bestPool best1))
      (.cons (mem_directPools.mp (mem_of_bestPool best2)) .nil), found⟩

theorem offered_3hop (member : route ∈ r.try3hop q input h1 h2 output amount) :
    Offered q r input output amount route := by
  simp only [Router.try3hop, Option.mem_toList, Option.bind_eq_bind, Option.bind_eq_some_iff,
    Option.guard_eq_some', exists_const, Prod.exists] at member
  obtain ⟨-, a1, amt1, best1, a2, amt2, best2, a3, _, best3, found⟩ := member
  exact ⟨_, .cons (mem_of_leg (mem_of_bestPool best1)) (.cons (mem_of_leg (mem_of_bestPool best2))
    (.cons (mem_of_leg (mem_of_bestPool best3)) .nil)), found⟩

theorem offered_neighbor3hop (member : route ∈ r.neighbor3hop q input output amount hubs) :
    Offered q r input output amount route := by
  rw [Router.neighbor3hop] at member
  rcases List.mem_append.mp member with member | member
  all_goals
    split at member
    case isTrue =>
      obtain ⟨mid, -, -, member⟩ := mem_explore member
      obtain ⟨hub, -, member⟩ := List.mem_flatMap.mp member
      exact offered_3hop member
    case isFalse => cases member

theorem offered_hubPairs (member : route ∈ r.hubPairs q input output amount hubs) :
    Offered q r input output amount route := by
  induction hubs with
  | nil => cases member
  | cons first rest ih =>
    rcases List.mem_append.mp member with member | member
    · obtain ⟨second, -, member⟩ := List.mem_flatMap.mp member
      rcases List.mem_append.mp member with member | member
      · exact offered_3hop member
      · exact offered_3hop member
    · exact ih member

theorem offered_4hop {nIn hub nOut : Pubkey}
    (found : r.try4hop q input nIn hub nOut output amount = some route) :
    Offered q r input output amount route := by
  simp only [Router.try4hop, Option.bind_eq_bind, Option.bind_eq_some_iff, Option.guard_eq_some',
    exists_const, Prod.exists] at found
  obtain ⟨-, -, a1, amt1, best1, a2, amt2, best2, a3, amt3, best3, a4, _, best4, found⟩ := found
  exact ⟨_, .cons (mem_of_leg (mem_of_bestPool best1)) (.cons (mem_of_leg (mem_of_bestPool best2))
    (.cons (mem_of_leg (mem_of_bestPool best3)) (.cons (mem_of_leg (mem_of_bestPool best4)) .nil))), found⟩

theorem offered_neighbor4hop (member : route ∈ r.neighbor4hop q input output amount hubs) :
    Offered q r input output amount route := by
  rw [Router.neighbor4hop] at member
  split at member
  case isTrue => cases member
  case isFalse =>
    obtain ⟨hub, -, member⟩ := List.mem_flatMap.mp member
    obtain ⟨⟨nIn, _⟩, -, member⟩ := List.mem_flatMap.mp member
    obtain ⟨⟨nOut, _⟩, -, found⟩ := List.mem_filterMap.mp member
    exact offered_4hop found

theorem offered_candidates (member : route ∈ r.candidates q input output amount) :
    Offered q r input output amount route := by
  simp only [Router.candidates, List.mem_append, List.mem_ite_nil_right] at member
  rcases member with ((⟨-, direct⟩ | ⟨-, (two | forward) | reverse⟩) | ⟨-, pairs | three⟩) | ⟨-, four⟩
  · exact offered_direct direct
  · obtain ⟨hub, -, two⟩ := List.mem_flatMap.mp two
    exact offered_2hop two
  · exact offered_forward forward
  · exact offered_reverse reverse
  · exact offered_hubPairs pairs
  · exact offered_neighbor3hop three
  · exact offered_neighbor4hop four

end Strategies

section WellFormed

variable {q : Settings} {r : Router} {input output mint other : Pubkey} {amount : U64} {route : Route}
  {added : List (String × PoolEntry)} {address : String} {hop : RouteHop}

/-- What a route should be. The outputs are positive and those of the pools by `Quoted`. -/
structure WellFormed (r : Router) (input output : Pubkey) (amount : U64) (route : Route) : Prop where
  nonempty : route.hops ≠ []
  mints : Chain RouteHop.inputMint RouteHop.outputMint input output route.hops
  amounts : Chain RouteHop.inputAmount RouteHop.outputAmount amount route.outputAmount route.hops
  ends : route.inputMint = input ∧ route.outputMint = output ∧ route.inputAmount = amount
  mints_apart : (input :: route.hops.map RouteHop.outputMint).Nodup
  pools_apart : (route.hops.map RouteHop.poolAddress).Nodup
  quoted : ∀ hop ∈ route.hops, Quoted r hop

/-- Some accounts and some amount make the pool quote an output that `simulate_hop` accepts. -/
def PoolEntry.Quotes (entry : PoolEntry) (way : SwapDirection) : Prop :=
  ∃ live amount out, entry.quote live way amount = some out ∧ out ≠ 0 ∧ out ≤ amount.saturatingMul 1000000

/-- Where an address was added with two mints, and the pool that it has now quotes a swap of one of
them, that swap gives the other one. -/
def Consistent (added : List (String × PoolEntry)) : Prop :=
  ∀ address earlier stored mint other way out, (address, earlier) ∈ added → earlier.Joins mint other →
    mint ≠ other → (PoolIndex.ofPools added).getPool address = some stored →
    stored.direction mint = some (way, out) → stored.Quotes way → out = other

theorem Offered.positive (offered : Offered q r input output amount route) : 0 < route.outputAmount := by
  obtain ⟨plan, -, simulated⟩ := offered
  obtain ⟨nonempty, -, hops, -⟩ := simulatePath_spec simulated
  obtain ⟨each, amounts⟩ := simulateHops_eq_some.mp hops
  have some_hop : route.hops ≠ [] := by
    rw [← List.length_pos_iff, ← each.length_eq]
    exact List.length_pos_iff.mpr nonempty
  obtain ⟨last, atLast, out⟩ := Option.map_eq_some_iff.mp (amounts.getLast? some_hop)
  obtain ⟨_, _, -, -, -, -, positive, -⟩ := quoted_of_simulateHops each last (List.mem_of_getLast? atLast)
  exact out ▸ positive

/-- A search returns the first ones of one sorted list, however many are asked for. -/
theorem findRoutes_eq (q : Settings) (r : Router) (input output : Pubkey) (amount : U64) :
    ∃ routes : List Route, (∀ maxRoutes, (r.findRoutes q input output amount maxRoutes).routes
        = routes.take maxRoutes) ∧
      (routes.Pairwise fun a b => b.outputAmount ≤ a.outputAmount) ∧
      ∀ route ∈ routes, Offered q r input output amount route := by
  by_cases nothing : input = output ∨ amount = 0
  · refine ⟨[], fun maxRoutes => ?_, .nil, List.forall_mem_nil _⟩
    rw [Router.findRoutes, if_pos nothing, List.take_nil]
  · let kept := (r.candidates q input output amount).filter fun route =>
      route.priceImpactBps ≤ q.maxRouteImpactBps
    refine ⟨q.sort.descending Route.outputAmount kept, fun maxRoutes => ?_, q.sort.sorted _ _,
      fun route member => ?_⟩
    · rw [Router.findRoutes, if_neg nothing]
    · exact offered_candidates (List.mem_of_mem_filter ((q.sort.perm _ _).mem_iff.mp member))

end WellFormed

section Readded

/-- A pool that is active and quotes 1, whatever is asked. -/
def constantMarket : Market := ⟨true, none, fun _ _ => some 1, fun _ _ _ _ _ _ => some 1⟩

def constantPool (quoteMint baseMint : Pubkey) : PoolEntry :=
  ⟨constantMarket, "Meteora DLMM", quoteMint, baseMint, [], [], []⟩

def usualSettings : Settings := { priceImpactBps := fun _ _ _ _ => 0, sort := .stable }

end Readded

end RndRust.Thunder.Aggregator
