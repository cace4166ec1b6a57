import Mathlib.Algebra.Order.BigOperators.Group.Finset
import RndRust.Thunder.Aggregator.Routes
import RndRust.Thunder.Aggregator.Splitter

/-! What a split returns, for any pools: the amounts that the rounds give out, move and take away always
come to the amount asked. -/
namespace RndRust.Thunder.Aggregator
open Lib

namespace Allocation

variable {n maxPaths : ℕ} {s next : Allocation n} {pathOut : Fin n → U64 → Option U64} {p t d : Fin n}
  {inc newOut extra bucket threshold remaining : U64}

/-- What all paths together have been allocated. -/
def total (s : Allocation n) : ℕ := ∑ p, (s.alloc p).val

theorem sum_update (f : Fin n → U64) (v : U64) :
    ∑ x, (Function.update f p v x).val + (f p).val = ∑ x, (f x).val + v.val := by
  rw [← Finset.add_sum_erase Finset.univ _ (Finset.mem_univ p),
    ← Finset.add_sum_erase Finset.univ (fun x => (f x).val) (Finset.mem_univ p), Function.update_self]
  have others : ∑ x ∈ Finset.univ.erase p, (Function.update f p v x).val
      = ∑ x ∈ Finset.univ.erase p, (f x).val :=
    Finset.sum_congr rfl fun x other => by rw [Function.update_of_ne (Finset.ne_of_mem_erase other)]
  rw [others]
  omega

theorem total_fund (newOut : U64) (fits : (s.alloc p).val + inc.val < 2 ^ 64) :
    (s.fund p inc newOut).total = s.total + inc.val := by
  have moved := sum_update (p := p) s.alloc (s.alloc p + inc)
  rw [Fin.val_add_eq_of_add_lt fits] at moved
  simp only [total, fund]
  omega

theorem total_drain : (s.drain d).total + (s.alloc d).val = s.total := sum_update s.alloc 0

theorem alloc_le_total : (s.alloc p).val ≤ s.total :=
  Finset.single_le_sum (f := fun p => (s.alloc p).val) (fun _ _ => Nat.zero_le _) (Finset.mem_univ p)

theorem pair_le_total (apart : t ≠ d) : (s.alloc t).val + (s.alloc d).val ≤ s.total := by
  rw [← Finset.sum_pair (f := fun p => (s.alloc p).val) apart]
  exact Finset.sum_le_sum_of_subset (Finset.subset_univ _)

theorem mem_funded : p ∈ s.funded ↔ 0 < s.alloc p := by simp [funded]

theorem funded_fund : (s.fund p inc newOut).funded ⊆ insert p s.funded := by
  intro x member
  by_cases here : x = p
  · exact Finset.mem_insert.mpr (.inl here)
  · have member : 0 < Function.update s.alloc p (s.alloc p + inc) x := mem_funded.mp member
    rw [Function.update_of_ne here] at member
    exact Finset.mem_insert.mpr (.inr (mem_funded.mpr member))

theorem funded_drain : (s.drain d).funded = s.funded.erase d := by
  ext x
  rw [Finset.mem_erase, mem_funded, mem_funded, drain]
  by_cases here : x = d
  · simp [here]
  · simp [here]

/-- What the winner of a bucket has: it may be funded, and quotes what it would have. -/
def Eligible (s : Allocation n) (pathOut : Fin n → U64 → Option U64) (maxPaths : ℕ) (inc : U64)
    (winner : Fin n × U64 × U64) : Prop :=
  (s.alloc winner.1 = 0 → s.funded.card < maxPaths) ∧
    pathOut winner.1 (s.alloc winner.1 + inc) = some winner.2.2

theorem better_eligible {before : Option (Fin n × U64 × U64)} {after : Fin n × U64 × U64}
    (eligible : ∀ w, before = some w → s.Eligible pathOut maxPaths inc w)
    (found : s.better pathOut maxPaths inc before p = some after) : s.Eligible pathOut maxPaths inc after := by
  unfold better at found
  split at found
  case isTrue => exact eligible _ found
  case isFalse free =>
    split at found
    case h_1 => exact eligible _ found
    case h_2 newOut quoted =>
      dsimp only at found
      split at found
      case isTrue =>
        cases found
        exact ⟨fun empty => by_contra fun many => free ⟨empty, Nat.le_of_not_lt many⟩, quoted⟩
      case isFalse => exact eligible _ found

theorem winner_eligible {winner : Fin n × U64 × U64} (found : s.winner pathOut maxPaths inc = some winner) :
    s.Eligible pathOut maxPaths inc winner := by
  have every : ∀ (l : List (Fin n)) (before : Option (Fin n × U64 × U64)),
      (∀ w, before = some w → s.Eligible pathOut maxPaths inc w) →
      ∀ w, l.foldl (s.better pathOut maxPaths inc) before = some w → s.Eligible pathOut maxPaths inc w := by
    intro l
    induction l with
    | nil => exact fun _ eligible => eligible
    | cons p rest ih => exact fun before eligible => ih _ fun w found => better_eligible eligible found
  exact every _ none (fun _ none => nomatch none) winner found

/-- What has been allocated and what remains come to the amount, over no more paths than may be funded. -/
structure Shared (maxPaths amount : ℕ) (remaining : U64) (s : Allocation n) : Prop where
  total : s.total + remaining.val = amount
  few : s.funded.card ≤ maxPaths

theorem Shared.empty (amount : U64) : Shared maxPaths amount.val amount (.empty : Allocation n) := by
  refine ⟨?_, ?_⟩
  · simp [Allocation.total, Allocation.empty]
  · simp [funded, Allocation.empty]

theorem Shared.fund {amount : U64} (shared : Shared maxPaths amount.val remaining s) (newOut : U64)
    (le : inc ≤ remaining) (room : s.alloc p = 0 → s.funded.card < maxPaths) :
    Shared maxPaths amount.val (remaining - inc) (s.fund p inc newOut) := by
  have sum := shared.total
  have le' := Fin.le_def.mp le
  have here : (s.alloc p).val ≤ s.total := alloc_le_total
  refine ⟨?_, ?_⟩
  · rw [total_fund _ (by omega), Fin.sub_val_of_le le]
    omega
  · refine (Finset.card_le_card funded_fund).trans ?_
    by_cases already : p ∈ s.funded
    · rw [Finset.insert_eq_of_mem already]
      exact shared.few
    · have empty : s.alloc p = 0 := by simpa [mem_funded] using already
      exact (Finset.card_insert_le _ _).trans (room empty)

/-- The buckets of the rounds that are left do not come to more than what remains. -/
theorem Shared.allocate {amount : U64} {left : ℕ} (shared : Shared maxPaths amount.val remaining s)
    (room : left * bucket.val ≤ remaining.val) :
    Shared maxPaths amount.val (Allocation.allocate pathOut maxPaths bucket left remaining s).2
      (Allocation.allocate pathOut maxPaths bucket left remaining s).1 := by
  induction left generalizing remaining s with
  | zero => exact shared
  | succ left ih =>
    rw [Nat.succ_mul] at room
    rw [Allocation.allocate]
    split
    case isTrue => exact ih shared (by omega)
    case isFalse =>
      split
      case h_1 p _ newOut found =>
        have le : increment bucket left remaining ≤ remaining := by
          unfold increment
          split
          · exact le_rfl
          · exact Fin.le_def.mpr (by omega)
        refine ih (shared.fund newOut le (winner_eligible found).1) ?_
        rw [Fin.sub_val_of_le le, increment]
        split
        case isTrue last =>
          rw [last]
          omega
        case isFalse => omega
      case h_2 => exact shared

theorem mem_targets {but : Fin n → Bool} : t ∈ s.targets but ↔ but t = false ∧ t ∈ s.funded := by
  rw [targets, (perm_sortDescending _ _).mem_iff, List.mem_filter, mem_funded]
  simp

theorem mem_of_absorb {targets : List (Fin n)} (found : s.absorb pathOut targets extra = some (t, newOut)) :
    t ∈ targets := by
  obtain ⟨_, member, quoted⟩ := List.exists_of_findSome?_eq_some found
  obtain ⟨_, -, same⟩ := Option.map_eq_some_iff.mp quoted
  cases same
  exact member

theorem Shared.foldLeftover {amount : U64} (shared : Shared maxPaths amount.val remaining s)
    (found : s.foldLeftover pathOut remaining = some next) :
    next.total = amount.val ∧ next.funded.card ≤ maxPaths := by
  unfold Allocation.foldLeftover at found
  split at found
  case isTrue =>
    simp only [Option.bind_eq_bind, Option.bind_eq_some_iff, Prod.exists, Option.some.injEq] at found
    obtain ⟨t, newOut, absorbed, rfl⟩ := found
    obtain ⟨-, member⟩ := mem_targets.mp (mem_of_absorb absorbed)
    have after := shared.fund newOut le_rfl fun empty : s.alloc t = 0 =>
      absurd (mem_funded.mp member) (by simp [empty])
    exact ⟨by simpa using after.total, after.few⟩
  case isFalse nothing =>
    cases found
    have none : remaining.val = 0 := by simpa using nothing
    exact ⟨by have := shared.total; omega, shared.few⟩

theorem mem_of_dust (found : s.dust threshold = some d) : d ∈ s.funded := by
  have member := List.argmin_mem (f := s.alloc) found
  rw [List.mem_filter, Bool.and_eq_true, decide_eq_true_eq] at member
  exact mem_funded.mpr member.2.1

/-- A round of the loop over dust empties one path and keeps what all of them have. -/
theorem foldDustStep_spec (fits : s.total < 2 ^ 64) (found : s.foldDustStep pathOut threshold = some next) :
    next.total = s.total ∧ next.funded.card < s.funded.card := by
  simp only [foldDustStep, Option.bind_eq_bind, Option.bind_eq_some_iff, Prod.exists, Option.some.injEq] at found
  obtain ⟨d, dust, t, newOut, absorbed, rfl⟩ := found
  obtain ⟨apart, member⟩ := mem_targets.mp (mem_of_absorb absorbed)
  have apart : t ≠ d := by simpa using apart
  have pair := pair_le_total (s := s) apart
  have here := mem_of_dust dust
  refine ⟨?_, ?_⟩
  · have funded := total_fund newOut (show (s.alloc t).val + (s.alloc d).val < 2 ^ 64 by omega)
    have drained := total_drain (s := s.fund t (s.alloc d) newOut) (d := d)
    have kept : (s.fund t (s.alloc d) newOut).alloc d = s.alloc d := Function.update_of_ne apart.symm _ _
    rw [kept] at drained
    omega
  · rw [funded_drain]
    have less : (s.fund t (s.alloc d) newOut).funded.erase d ⊆ s.funded.erase d :=
      Finset.erase_subset_erase d (funded_fund.trans (Finset.insert_eq_of_mem member).le)
    exact (Finset.card_le_card less).trans_lt (Finset.card_erase_lt_of_mem here)

theorem foldDust_spec {fuel : ℕ} (fits : s.total < 2 ^ 64) :
    (s.foldDust pathOut threshold fuel).total = s.total ∧
      (s.foldDust pathOut threshold fuel).funded.card ≤ s.funded.card := by
  induction fuel generalizing s with
  | zero => exact ⟨rfl, le_rfl⟩
  | succ fuel ih =>
    rw [foldDust]
    split
    case h_1 next step =>
      obtain ⟨total, fewer⟩ := foldDustStep_spec fits step
      obtain ⟨total', fewer'⟩ := ih (s := next) (by omega)
      exact ⟨by omega, by omega⟩
    case h_2 => exact ⟨rfl, le_rfl⟩

/-- The loop over dust has ended by itself when its rounds are used up. -/
theorem foldDust_ended {fuel : ℕ} (fits : s.total < 2 ^ 64) (enough : s.funded.card ≤ fuel) :
    (s.foldDust pathOut threshold fuel).foldDustStep pathOut threshold = none := by
  induction fuel generalizing s with
  | zero =>
    rw [foldDust]
    by_contra more
    obtain ⟨next, step⟩ := Option.ne_none_iff_exists'.mp more
    have := (foldDustStep_spec fits step).2
    omega
  | succ fuel ih =>
    rw [foldDust]
    split
    case h_1 next step =>
      obtain ⟨total, fewer⟩ := foldDustStep_spec fits step
      exact ih (by omega) (by omega)
    case h_2 ended => exact ended

theorem nodup_order : s.order.Nodup :=
  (perm_sortDescending _ _).nodup_iff.mpr ((List.nodup_finRange n).filter _)

theorem toFinset_order : s.order.toFinset = s.funded := by
  ext p
  rw [List.mem_toFinset, order, (perm_sortDescending _ _).mem_iff, mem_funded]
  simp

theorem sum_order : (s.order.map fun p => (s.alloc p).val).sum = s.total := by
  rw [← List.sum_toFinset _ nodup_order, toFinset_order]
  refine Finset.sum_subset (Finset.subset_univ _) fun p _ empty => ?_
  simpa [mem_funded] using empty

theorem length_order : s.order.length = s.funded.card := by
  rw [← List.toFinset_card_of_nodup nodup_order, toFinset_order]

end Allocation

section Steps

variable {n : ℕ} {q : Settings} {r : Router} {cfg : SplitConfig} {amountIn : U64} {s : Allocation n}
  {pathOut : Fin n → U64 → Option U64} {hops : Fin n → List PathHop} {alloc : Fin n → U64}
  {order : List (Fin n)} {pctSum : Word 16} {paths : List SplitPath} {route : Route} {amount : U64}
  {plan : List PathHop}

/-- An allocation gives out the whole amount, over no more paths than may be funded. -/
theorem allocation_spec (found : allocation pathOut cfg amountIn = some s) :
    s.total = amountIn.val ∧ s.funded.card ≤ cfg.maxPaths ∧ amountIn ≠ 0 := by
  simp only [allocation, Option.bind_eq_bind, Option.bind_eq_some_iff, Option.guard_eq_some', exists_const,
    Option.some.injEq] at found
  obtain ⟨bucket, before, folded, rfl⟩ := found
  have room : max cfg.buckets 1 * (bucketOf cfg amountIn).val ≤ amountIn.val := Nat.mul_div_le _ _
  obtain ⟨total, few⟩ := ((Allocation.Shared.empty amountIn).allocate room).foldLeftover folded
  obtain ⟨total', fewer⟩ : (before.foldDust pathOut (thresholdOf cfg amountIn) n).total = before.total ∧
      (before.foldDust pathOut (thresholdOf cfg amountIn) n).funded.card ≤ before.funded.card :=
    Allocation.foldDust_spec (total.trans_lt amountIn.isLt)
  refine ⟨total'.trans total, fewer.trans few, ?_⟩
  rintro rfl
  exact bucket (Fin.ext (Nat.zero_div _))

/-- The pools of a route are those of its path. -/
theorem pools_of_simulatePath (found : r.simulatePath q plan amount = some route) :
    route.hops.map RouteHop.poolAddress = plan.map Prod.fst := by
  obtain ⟨-, -, simulated, -⟩ := simulatePath_spec found
  exact addresses_of_simulateHops (simulateHops_eq_some.mp simulated).1

/-- The rounds of the loop over dust are enough: no path that is left below the threshold can be folded. -/
theorem allocation_ended (found : allocation pathOut cfg amountIn = some s) :
    s.foldDustStep pathOut (thresholdOf cfg amountIn) = none := by
  simp only [allocation, Option.bind_eq_bind, Option.bind_eq_some_iff, Option.guard_eq_some', exists_const,
    Option.some.injEq] at found
  obtain ⟨-, before, folded, rfl⟩ := found
  have room : max cfg.buckets 1 * (bucketOf cfg amountIn).val ≤ amountIn.val := Nat.mul_div_le _ _
  obtain ⟨total, -⟩ := ((Allocation.Shared.empty amountIn).allocate room).foldLeftover folded
  refine Allocation.foldDust_ended (total.trans_lt amountIn.isLt) ?_
  simpa using Finset.card_le_univ before.funded

/-- Each path is one that has been allocated something, as it has been simulated with that. -/
theorem assemble_spec (found : r.assemble q hops alloc amountIn order pctSum = some paths) :
    paths.map SplitPath.amountIn = order.map alloc ∧
      (paths.map fun path => path.route.hops.map RouteHop.poolAddress)
        = (order.map fun p => (hops p).map Prod.fst) ∧
      ∀ path ∈ paths, ∃ p, r.simulatePath q (hops p) path.amountIn = some path.route := by
  induction order generalizing pctSum paths with
  | nil =>
    cases found
    exact ⟨rfl, rfl, List.forall_mem_nil _⟩
  | cons p rest ih =>
    simp only [Router.assemble, Option.bind_eq_bind, Option.bind_eq_some_iff, Option.some.injEq] at found
    obtain ⟨route, simulated, later, assembled, rfl⟩ := found
    obtain ⟨amounts, pools, each⟩ := ih assembled
    refine ⟨by rw [List.map_cons, List.map_cons, amounts], ?_,
      List.forall_mem_cons.mpr ⟨⟨p, simulated⟩, each⟩⟩
    rw [List.map_cons, List.map_cons, pools, pools_of_simulatePath simulated]

/-- The shares come to the whole, as the last one is what the others leave, and they are rounded down. -/
theorem assemble_percents (found : r.assemble q hops alloc amountIn order pctSum = some paths)
    (nonempty : order ≠ []) (asked : amountIn ≠ 0)
    (below : pctSum.val * amountIn.val + (order.map fun p => (alloc p).val).sum * 10000 ≤ 10000 * amountIn.val) :
    pctSum.val + (paths.map fun path => path.percentBps.val).sum = 10000 := by
  induction order generalizing pctSum paths with
  | nil => exact absurd rfl nonempty
  | cons p rest ih =>
    have positive : 0 < amountIn.val := Nat.pos_of_ne_zero fun zero => asked (Fin.ext zero)
    rw [List.map_cons, List.sum_cons, Nat.add_mul] at below
    have within : pctSum.val ≤ 10000 := Nat.le_of_mul_le_mul_right (by omega) positive
    simp only [Router.assemble, Option.bind_eq_bind, Option.bind_eq_some_iff, Option.some.injEq] at found
    obtain ⟨route, simulated, later, assembled, rfl⟩ := found
    rw [List.map_cons, List.sum_cons]
    by_cases last : rest = []
    · subst last
      cases assembled
      have rounding : ((10000 : Word 16) - pctSum).val = 10000 - pctSum.val := Fin.sub_val_of_le within
      simp only [if_true, List.map_nil, List.sum_nil, rounding]
      omega
    · rw [if_neg last] at assembled ⊢
      have share := Nat.div_mul_le_self ((alloc p).val * 10000) amountIn.val
      set part := (alloc p).val * 10000 / amountIn.val
      have sum : (pctSum.val + part) * amountIn.val ≤ 10000 * amountIn.val := by
        rw [Nat.add_mul]
        omega
      have small : pctSum.val + part ≤ 10000 := Nat.le_of_mul_le_mul_right sum positive
      have kept : (Word.wrap part : Word 16).val = part := Nat.mod_eq_of_lt (by omega)
      have added : (pctSum + Word.wrap part).val = pctSum.val + part := by
        rw [Fin.val_add_eq_of_add_lt (by omega), kept]
      have rest := ih assembled last (by rw [added, Nat.add_mul]; omega)
      rw [kept]
      omega

/-- No two of the selected candidates share a pool, and none has a pool that is in use. -/
theorem selectPoolDisjoint_spec (used : List String) (candidates : List (List PathHop)) :
    (∀ hops ∈ selectPoolDisjoint used candidates, ∀ address ∈ hops.map Prod.fst, address ∉ used) ∧
      (selectPoolDisjoint used candidates).Pairwise fun a b => List.Disjoint (a.map Prod.fst) (b.map Prod.fst) := by
  induction candidates generalizing used with
  | nil => exact ⟨List.forall_mem_nil _, .nil⟩
  | cons hops rest ih =>
    rw [selectPoolDisjoint]
    split
    case isTrue => exact ih used
    case isFalse free =>
      obtain ⟨apart, pairwise⟩ := ih (hops.map Prod.fst ++ used)
      refine ⟨List.forall_mem_cons.mpr ⟨fun address member inUse => free ?_, fun later member address pool inUse =>
        apart later member address pool (List.mem_append_right _ inUse)⟩, List.pairwise_cons.mpr ⟨?_, pairwise⟩⟩
      · obtain ⟨hop, here, rfl⟩ := List.mem_map.mp member
        exact List.any_eq_true.mpr ⟨hop, here, by simpa using inUse⟩
      · exact fun later member address first second =>
          apart later member address second (List.mem_append_left _ first)

/-- A route of a path quotes, at the amount of the path, what it says. -/
theorem requoted (found : r.simulatePath q plan amount = some route) :
    r.simulatePathOutput q (routeHops route) amount = some route.outputAmount := by
  obtain ⟨-, -, simulated, -⟩ := simulatePath_spec found
  rw [Router.simulatePathOutput, routeHops, simulateHops_again simulated]
  rfl

theorem totalOf_spec (paths : List SplitPath) :
    (Router.totalOf paths).val = min (paths.map fun path => path.route.outputAmount.val).sum (2 ^ 64 - 1) := by
  have every : ∀ (paths : List SplitPath) (total : U64),
      (paths.foldl (fun total path => total.saturatingAdd path.route.outputAmount) total).val
        = min (total.val + (paths.map fun path => path.route.outputAmount.val).sum) (2 ^ 64 - 1) := by
    intro paths
    induction paths with
    | nil =>
      intro total
      have := total.isLt
      simp only [List.foldl_nil, List.map_nil, List.sum_nil]
      omega
    | cons path rest ih =>
      intro total
      rw [List.foldl_cons, ih, Word.val_saturatingAdd, List.map_cons, List.sum_cons]
      omega
  rw [Router.totalOf, every, Fin.val_zero, Nat.zero_add]

end Steps

section Split

variable {q : Settings} {r : Router} {input output : Pubkey} {amountIn : U64} {cfg : SplitConfig} {best : Route}

/-- What a split that has paths should be. -/
structure Shares (q : Settings) (r : Router) (input output : Pubkey) (amountIn : U64) (cfg : SplitConfig)
    (split : SplitQuote) : Prop where
  amounts : (split.paths.map fun path => path.amountIn.val).sum = amountIn.val
  percents : (split.paths.map fun path => path.percentBps.val).sum = 10000
  total : split.totalOutput.val
    = min (split.paths.map fun path => path.route.outputAmount.val).sum (2 ^ 64 - 1)
  single : split.singlePathOutput ≤ split.totalOutput
  best : ∀ maxRoutes, ∀ route ∈ (r.findRoutes q input output amountIn maxRoutes).routes,
    route.outputAmount ≤ split.singlePathOutput
  sorted : split.paths.Pairwise fun a b => b.amountIn ≤ a.amountIn
  disjoint : split.paths.Pairwise fun a b =>
    List.Disjoint (a.route.hops.map RouteHop.poolAddress) (b.route.hops.map RouteHop.poolAddress)
  quoted : ∀ path ∈ split.paths,
    r.simulatePathOutput q (routeHops path.route) path.amountIn = some path.route.outputAmount
  count : split.paths.length ≤ max 1 cfg.maxPaths

/-- A route for the whole amount, and none gives more. -/
structure Best (q : Settings) (r : Router) (input output : Pubkey) (amountIn : U64) (best : Route) : Prop where
  found : ∃ maxRoutes, best ∈ (r.findRoutes q input output amountIn maxRoutes).routes
  offered : Offered q r input output amountIn best
  most : ∀ maxRoutes, ∀ route ∈ (r.findRoutes q input output amountIn maxRoutes).routes,
    route.outputAmount ≤ best.outputAmount

theorem best_of_head {maxRoutes : ℕ} {rest : List Route}
    (head : (r.findRoutes q input output amountIn maxRoutes).routes = best :: rest) :
    Best q r input output amountIn best := by
  obtain ⟨routes, taken, sorted, offered⟩ := findRoutes_eq q r input output amountIn
  have here : best ∈ (r.findRoutes q input output amountIn maxRoutes).routes := head ▸ List.mem_cons_self
  rw [taken] at head
  cases routes with
  | nil => simp at head
  | cons first later =>
    cases maxRoutes with
    | zero => simp at head
    | succ maxRoutes =>
      obtain ⟨rfl, -⟩ := List.cons.inj head
      refine ⟨⟨_, here⟩, offered first List.mem_cons_self, fun many route member => ?_⟩
      rw [taken] at member
      rcases List.mem_cons.mp (List.mem_of_mem_take member) with rfl | member
      · exact le_rfl
      · exact (List.pairwise_cons.mp sorted).1 route member

/-- The best route, alone. -/
theorem Best.shares (best_route : Best q r input output amountIn best) :
    Shares q r input output amountIn cfg (Router.singlePathFallback amountIn best) := by
  obtain ⟨plan, -, simulated⟩ := best_route.offered
  have fits := best.outputAmount.isLt
  exact {
    amounts := Nat.add_zero _
    percents := rfl
    total := by
      simp only [Router.singlePathFallback, List.map_cons, List.map_nil, List.sum_cons, List.sum_nil]
      omega
    single := le_rfl
    best := best_route.most
    sorted := List.pairwise_singleton _ _
    disjoint := List.pairwise_singleton _ _
    quoted := List.forall_mem_singleton.mpr (requoted simulated)
    count := le_max_left _ _ }

/-- The paths of a split that is better than the best route. -/
theorem shares_split {paths : List (List PathHop)} {split : List SplitPath}
    (best_route : Best q r input output amountIn best)
    (disjoint : paths.Pairwise fun a b => List.Disjoint (a.map Prod.fst) (b.map Prod.fst))
    (found : r.splitPaths q cfg amountIn paths = some split)
    (better : best.outputAmount ≤ Router.totalOf split) :
    Shares q r input output amountIn cfg ⟨amountIn, Router.totalOf split, split, best.outputAmount⟩ := by
  simp only [Router.splitPaths, Option.bind_eq_bind, Option.bind_eq_some_iff, Option.guard_eq_some',
    exists_const] at found
  obtain ⟨-, s, allocated, assembled⟩ := found
  obtain ⟨total, few, asked⟩ := allocation_spec allocated
  obtain ⟨amounts, pools, each⟩ := assemble_spec assembled
  have sum : (split.map fun path => path.amountIn.val).sum = amountIn.val := by
    have values := congrArg (List.map Fin.val) amounts
    rw [List.map_map, List.map_map] at values
    exact (congrArg List.sum values).trans (Allocation.sum_order.trans total)
  have nonempty : s.order ≠ [] := by
    intro none
    rw [← Allocation.sum_order, none] at total
    exact asked (Fin.ext total.symm)
  exact {
    amounts := sum
    percents := by
      have shares := assemble_percents assembled nonempty asked
        (by rw [Fin.val_zero, Allocation.sum_order, total]; omega)
      rwa [Fin.val_zero, Nat.zero_add] at shares
    total := totalOf_spec split
    single := better
    best := best_route.most
    sorted := by
      have sorted : (split.map SplitPath.amountIn).Pairwise fun a b => b ≤ a := by
        rw [amounts]
        exact List.pairwise_map.mpr (pairwise_sortDescending _ _)
      exact List.pairwise_map.mp sorted
    disjoint := by
      have apart : (split.map fun path => path.route.hops.map RouteHop.poolAddress).Pairwise List.Disjoint := by
        rw [pools]
        refine List.pairwise_map.mpr (Allocation.nodup_order.imp fun {a b} different => ?_)
        rcases lt_or_gt_of_ne different with before | after
        · exact List.pairwise_iff_get.mp disjoint a b before
        · exact (List.pairwise_iff_get.mp disjoint b a after).symm
      exact List.pairwise_map.mp apart
    quoted := fun path member => by
      obtain ⟨p, simulated⟩ := each path member
      exact requoted simulated
    count := by
      have length := congrArg List.length amounts
      rw [List.length_map, List.length_map, Allocation.length_order] at length
      exact length.le.trans (few.trans (le_max_right _ _)) }

/-- No route and no split, or the best route alone, or a split that is better than it. -/
theorem findSplitRoutes_cases (q : Settings) (r : Router) (input output : Pubkey) (amountIn : U64)
    (cfg : SplitConfig) :
    ((r.findSplitRoutes q input output amountIn cfg).paths = [] ∧
      ∀ maxRoutes, (r.findRoutes q input output amountIn maxRoutes).routes = []) ∨
    ∃ best, Best q r input output amountIn best ∧
      (r.findSplitRoutes q input output amountIn cfg = Router.singlePathFallback amountIn best ∨
        ∃ paths split, (paths.Pairwise fun a b => List.Disjoint (a.map Prod.fst) (b.map Prod.fst)) ∧
          r.splitPaths q cfg amountIn paths = some split ∧ split ≠ [] ∧
          best.outputAmount ≤ Router.totalOf split ∧
          r.findSplitRoutes q input output amountIn cfg
            = ⟨amountIn, Router.totalOf split, split, best.outputAmount⟩) := by
  unfold Router.findSplitRoutes
  dsimp only
  split
  case h_1 none =>
    refine .inl ⟨rfl, fun maxRoutes => ?_⟩
    obtain ⟨routes, taken, -, -⟩ := findRoutes_eq q r input output amountIn
    rw [taken, List.take_eq_nil_iff] at none
    rw [taken, none.resolve_left (by omega), List.take_nil]
  case h_2 best rest head =>
    have best_route := best_of_head head
    refine .inr ?_
    split
    case h_1 => exact ⟨best, best_route, .inl rfl⟩
    case h_2 split found =>
      split
      case isTrue =>
        split
        case h_1 fresh first =>
          split
          · obtain ⟨later, head⟩ := List.head?_eq_some_iff.mp first
            exact ⟨fresh, best_of_head head, .inl rfl⟩
          · exact ⟨best, best_route, .inl rfl⟩
        case h_2 => exact ⟨best, best_route, .inl rfl⟩
      case isFalse better =>
        obtain ⟨several, more⟩ := not_or.mp better
        refine ⟨best, best_route, .inr ⟨_, split, (selectPoolDisjoint_spec _ _).2, found, ?_, ?_, rfl⟩⟩
        · rintro rfl
          exact several (Nat.zero_le _)
        · exact (le_max_left _ _).trans (le_of_not_ge more)

/-- A split shares out the whole amount, and is never worse than a single route. -/
theorem split_routes_sound (q : Settings) (r : Router) (input output : Pubkey) (amountIn : U64)
    (cfg : SplitConfig) :
    ((r.findSplitRoutes q input output amountIn cfg).paths = [] ↔
      ¬∃ maxRoutes, ∃ route ∈ (r.findRoutes q input output amountIn maxRoutes).routes, 0 < route.outputAmount) ∧
    ((r.findSplitRoutes q input output amountIn cfg).paths ≠ [] →
      Shares q r input output amountIn cfg (r.findSplitRoutes q input output amountIn cfg)) := by
  obtain ⟨empty, none⟩ | ⟨best, best_route, same | ⟨paths, split, disjoint, found, nonempty, better, same⟩⟩ :=
    findSplitRoutes_cases q r input output amountIn cfg
  · refine ⟨⟨fun _ => ?_, fun _ => empty⟩, fun some => absurd empty some⟩
    rintro ⟨maxRoutes, route, member, -⟩
    rw [none] at member
    cases member
  · rw [same]
    refine ⟨⟨fun empty => absurd empty (List.cons_ne_nil _ _), fun unroutable => ?_⟩, fun _ => best_route.shares⟩
    obtain ⟨maxRoutes, member⟩ := best_route.found
    exact absurd ⟨maxRoutes, best, member, best_route.offered.positive⟩ unroutable
  · rw [same]
    refine ⟨⟨fun empty => absurd empty nonempty, fun unroutable => ?_⟩,
      fun _ => shares_split best_route disjoint found better⟩
    obtain ⟨maxRoutes, member⟩ := best_route.found
    exact absurd ⟨maxRoutes, best, member, best_route.offered.positive⟩ unroutable

/-- A pool that quotes 2^63, whatever is asked. -/
def hugePool : PoolEntry :=
  ⟨⟨true, none, fun _ _ => some 9223372036854775808, fun _ _ _ _ _ _ => none⟩, "Meteora DLMM",
    .replicate 32 1, .replicate 32 2, [], [], []⟩

/-- The split of 40 * 10^12 over two such pools, in two buckets. -/
def hugeSplit : SplitQuote :=
  Router.findSplitRoutes usualSettings
    ⟨PoolIndex.ofPools [("one", hugePool), ("two", hugePool)], 1, none, none⟩
    (.replicate 32 1) (.replicate 32 2) 40000000000000 { buckets := 2 }

/-- The total saturates where the outputs come to more than 64 bits hold. -/
theorem split_routes_sound_fails : hugeSplit.paths ≠ [] ∧ hugeSplit.totalOutput.val
    ≠ (hugeSplit.paths.map fun path => path.route.outputAmount.val).sum := by
  have both : hugeSplit.paths.map (fun path => path.route.outputAmount)
      = [9223372036854775808, 9223372036854775808] := by decide
  refine ⟨fun none => ?_, by decide⟩
  rw [none] at both
  cases both

end Split

end RndRust.Thunder.Aggregator
