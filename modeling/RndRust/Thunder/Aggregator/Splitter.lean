import Mathlib.Algebra.BigOperators.Fin
import Mathlib.Data.List.MinMax
import RndRust.Thunder.Aggregator.Routing

/-! How one large swap is shared out over routes that have no pool in common: candidates at the full and
at a quarter of the amount, buckets given to the path that gains most by one, dust folded into the best
path, and a fresh look at the best single route at the end. -/
namespace RndRust.Thunder.Aggregator
open Lib

structure SplitConfig where
  maxPaths : ℕ := 3
  buckets : ℕ := 20
  minPathBps : Word 16 := 500
  candidates : ℕ := 12

structure SplitPath where
  amountIn : U64
  percentBps : Word 16
  route : Route

structure SplitQuote where
  inputAmount : U64
  totalOutput : U64
  paths : List SplitPath
  singlePathOutput : U64

/-- `route_hops`. -/
def routeHops (route : Route) : List PathHop := route.hops.map RouteHop.path

/-- `seq_key`. -/
def seqKey (route : Route) : String := "|".intercalate (route.hops.map RouteHop.poolAddress)

/-- The loops over the quarter's and the full routes: each route whose pools have not been seen, with its
probe output. -/
def unseen : List String → List (Route × U64) → List (List PathHop × U64)
  | _, [] => []
  | seen, (route, probe) :: rest =>
    if seqKey route ∈ seen then unseen seen rest
    else (routeHops route, probe) :: unseen (seqKey route :: seen) rest

/-- `select_pool_disjoint`, with the candidates in place of their positions. -/
def selectPoolDisjoint : List String → List (List PathHop) → List (List PathHop)
  | _, [] => []
  | used, hops :: rest =>
    if hops.any fun hop => hop.1 ∈ used then selectPoolDisjoint used rest
    else hops :: selectPoolDisjoint (hops.map Prod.fst ++ used) rest

/-- What each of `n` paths has been allocated, and its output for that. -/
structure Allocation (n : ℕ) where
  alloc : Fin n → U64
  outs : Fin n → U64

section Allocating

variable {n : ℕ} (pathOut : Fin n → U64 → Option U64)

namespace Allocation

def empty : Allocation n := ⟨fun _ => 0, fun _ => 0⟩

/-- `alloc[p] += inc` and `outs[p] = new_out`. -/
def fund (s : Allocation n) (p : Fin n) (inc newOut : U64) : Allocation n where
  alloc := Function.update s.alloc p (s.alloc p + inc)
  outs := Function.update s.outs p newOut

/-- `alloc[d] = 0` and `outs[d] = 0`. -/
def drain (s : Allocation n) (d : Fin n) : Allocation n where
  alloc := Function.update s.alloc d 0
  outs := Function.update s.outs d 0

def funded (s : Allocation n) : Finset (Fin n) := Finset.univ.filter fun p => 0 < s.alloc p

/-- One path of the search for the largest gain; the first one stays where gains are equal. -/
def better (s : Allocation n) (maxPaths : ℕ) (inc : U64) (winner : Option (Fin n × U64 × U64)) (p : Fin n) :
    Option (Fin n × U64 × U64) :=
  if s.alloc p = 0 ∧ maxPaths ≤ s.funded.card then winner
  else
    match pathOut p (s.alloc p + inc) with
    | none => winner
    | some newOut =>
      let gain := newOut.saturatingSub (s.outs p)
      if winner.all fun best => best.2.1 < gain then some (p, gain, newOut) else winner

/-- Who gets the next bucket. -/
def winner (s : Allocation n) (maxPaths : ℕ) (inc : U64) : Option (Fin n × U64 × U64) :=
  (List.finRange n).foldl (s.better pathOut maxPaths inc) none

/-- The bucket of a round; the last round takes what remains. -/
def increment (bucket : U64) (left : ℕ) (remaining : U64) : U64 := if left = 0 then remaining else bucket

/-- The rounds that are left, and the amount that remains. -/
def allocate (maxPaths : ℕ) (bucket : U64) : ℕ → U64 → Allocation n → Allocation n × U64
  | 0, remaining, s => (s, remaining)
  | left + 1, remaining, s =>
    let inc := increment bucket left remaining
    if inc = 0 then allocate maxPaths bucket left remaining s
    else
      match s.winner pathOut maxPaths inc with
      | some (p, _, newOut) => allocate maxPaths bucket left (remaining - inc) (s.fund p inc newOut)
      | none => (s, remaining)

/-- The paths that have something, the largest output first. -/
def targets (s : Allocation n) (but : Fin n → Bool) : List (Fin n) :=
  sortDescending s.outs ((List.finRange n).filter fun p => !but p && 0 < s.alloc p)

/-- The first target that can take more, and its output with that. -/
def absorb (s : Allocation n) (targets : List (Fin n)) (extra : U64) : Option (Fin n × U64) :=
  targets.findSome? fun t => (pathOut t (s.alloc t + extra)).map fun newOut => (t, newOut)

/-- The leftover goes to a path that can take it. -/
def foldLeftover (s : Allocation n) (remaining : U64) : Option (Allocation n) :=
  if 0 < remaining then do
    let (t, newOut) ← s.absorb pathOut (s.targets fun _ => false) remaining
    some (s.fund t remaining newOut)
  else some s

/-- The smallest path below the threshold, the first one where some are equal. -/
def dust (s : Allocation n) (threshold : U64) : Option (Fin n) :=
  ((List.finRange n).filter fun p => 0 < s.alloc p && s.alloc p < threshold).argmin s.alloc

/-- One round of the loop over dust. -/
def foldDustStep (s : Allocation n) (threshold : U64) : Option (Allocation n) := do
  let d ← s.dust threshold
  let (t, newOut) ← s.absorb pathOut (s.targets fun p => p = d) (s.alloc d)
  some ((s.fund t (s.alloc d) newOut).drain d)

/-- The loop over dust. -/
def foldDust (threshold : U64) : ℕ → Allocation n → Allocation n
  | 0, s => s
  | fuel + 1, s =>
    match s.foldDustStep pathOut threshold with
    | some next => foldDust threshold fuel next
    | none => s

/-- The paths in the order of what they have been allocated. -/
def order (s : Allocation n) : List (Fin n) :=
  sortDescending s.alloc ((List.finRange n).filter fun p => 0 < s.alloc p)

end Allocation

/-- The amount of each bucket. -/
def bucketOf (cfg : SplitConfig) (amountIn : U64) : U64 :=
  ⟨amountIn.val / max cfg.buckets 1, (Nat.div_le_self _ _).trans_lt amountIn.isLt⟩

/-- Below this a path is dust. -/
def thresholdOf (cfg : SplitConfig) (amountIn : U64) : U64 :=
  max (bucketOf cfg amountIn) (Word.wrap (amountIn.val * cfg.minPathBps.val / 10000))

/-- The steps (c) and (d) of `find_split_routes`: the buckets, the leftover and the dust. A round of the
last loop empties a path, so that there are at most `n`. -/
def allocation (cfg : SplitConfig) (amountIn : U64) : Option (Allocation n) := do
  guard (bucketOf cfg amountIn ≠ 0)
  let (s, remaining) :=
    Allocation.allocate pathOut cfg.maxPaths (bucketOf cfg amountIn) (max cfg.buckets 1) amountIn .empty
  let s ← s.foldLeftover pathOut remaining
  some (s.foldDust pathOut (thresholdOf cfg amountIn) n)

end Allocating

namespace Router

variable (q : Settings) (r : Router)

/-- The loop of step (e): every path simulated again, and its share; the last one gets what is left. -/
def assemble {n : ℕ} (hops : Fin n → List PathHop) (alloc : Fin n → U64) (amountIn : U64) :
    List (Fin n) → Word 16 → Option (List SplitPath)
  | [], _ => some []
  | p :: rest, pctSum => do
    let route ← r.simulatePath q (hops p) (alloc p)
    let percentBps :=
      if rest = [] then 10000 - pctSum else Word.wrap ((alloc p).val * 10000 / amountIn.val)
    let later ← assemble hops alloc amountIn rest (pctSum + percentBps)
    some (⟨alloc p, percentBps, route⟩ :: later)

/-- The steps (c) to (e): the paths of a split, where there is one. -/
def splitPaths (cfg : SplitConfig) (amountIn : U64) (paths : List (List PathHop)) : Option (List SplitPath) := do
  guard (1 < paths.length)
  let s ← allocation (fun p => r.simulatePathOutput q (paths.get p)) cfg amountIn
  r.assemble q paths.get s.alloc amountIn s.order 0

/-- `single_path_fallback`. -/
def singlePathFallback (amountIn : U64) (best : Route) : SplitQuote :=
  ⟨amountIn, best.outputAmount, [⟨amountIn, 10000, best⟩], best.outputAmount⟩

/-- The candidates of step (a): the best route, and the others by what they give for a quarter. -/
def splitCandidates (maxCandidates : ℕ) (quarter : U64) (best : Route) (full quarterRoutes : List Route) :
    List (List PathHop) :=
  let probe := fun route : Route =>
    if 0 < quarter then (r.simulatePathOutput q (routeHops route) quarter).getD 0 else route.outputAmount
  let ranked := unseen [seqKey best]
    (quarterRoutes.map (fun route => (route, route.outputAmount))
      ++ full.map fun route => (route, probe route))
  (routeHops best :: (sortDescending Prod.snd ranked).map Prod.fst).take maxCandidates

/-- The saturating sum of the outputs. -/
def totalOf (paths : List SplitPath) : U64 :=
  paths.foldl (fun total path => total.saturatingAdd path.route.outputAmount) 0

/-- `find_split_routes`. -/
def findSplitRoutes (input output : Pubkey) (amountIn : U64) (cfg : SplitConfig) : SplitQuote :=
  let maxCandidates := max cfg.candidates 1
  let quarter := amountIn / 4
  let full := (r.findRoutes q input output amountIn maxCandidates).routes
  let quarterRoutes := if 0 < quarter then (r.findRoutes q input output quarter maxCandidates).routes else []
  match full with
  | [] => ⟨amountIn, 0, [], 0⟩
  | best :: _ =>
    let paths := selectPoolDisjoint [] (r.splitCandidates q maxCandidates quarter best full quarterRoutes)
    match r.splitPaths q cfg amountIn paths with
    | none => singlePathFallback amountIn best
    | some split =>
      let freshSingle := (r.findRoutes q input output amountIn 1).routes.head?
      let freshOutput := freshSingle.elim 0 Route.outputAmount
      if split.length ≤ 1 ∨ totalOf split ≤ max best.outputAmount freshOutput then
        match freshSingle with
        | some fresh =>
          if best.outputAmount < fresh.outputAmount then singlePathFallback amountIn fresh
          else singlePathFallback amountIn best
        | none => singlePathFallback amountIn best
      else ⟨amountIn, totalOf split, split, best.outputAmount⟩

end Router

end RndRust.Thunder.Aggregator
