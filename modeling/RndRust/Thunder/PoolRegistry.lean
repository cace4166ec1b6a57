import Mathlib.Data.Finset.Dedup
import Mathlib.Data.Finset.Filter
import Mathlib.Data.List.Induction
import RndRust.Lib.Table
import RndRust.Thunder.Market

/-! The engine's registry of pools. It keeps three things twice: how many pools are swappable, which
ones are, and which mints a pool connects. -/
namespace RndRust.Thunder
open Lib

/-- `PoolInfo`, as far as the registry reads it. -/
structure PoolInfo where
  dexName : String
  market : Market
  swappable : Bool
  quoteMint : Pubkey
  baseMint : Pubkey
  quoteVault : Pubkey
  baseVault : Pubkey

/-- The data of the accounts that have been seen. -/
abbrev AccountStore := Pubkey → Option Bytes

/-- `read_token_balance`. -/
def AccountStore.readTokenBalance (store : AccountStore) (pubkey : Pubkey) : ℕ :=
  match store pubkey with
  | some data => if 72 ≤ data.length then fromLeBytes ((data.drop 64).take 8) else 0
  | none => 0

/-- `vaults_funded`. -/
def vaultsFunded (info : PoolInfo) (store : AccountStore) : Bool :=
  0 < store.readTokenBalance info.quoteVault && 0 < store.readTokenBalance info.baseVault

/-- `check_swappable`. -/
def checkSwappable (info : PoolInfo) (store : AccountStore) : Bool :=
  if info.dexName = "Pumpfun AMM" then true
  else if info.dexName = "Raydium AMM V4" then vaultsFunded info store
  else info.market.isActive && vaultsFunded info store

/-- Whether both balances that the market remembers are positive. -/
def cachedFunded (info : PoolInfo) : Bool :=
  info.market.financials.any fun f => 0 < f.quoteBalance && 0 < f.baseBalance

/-- `check_swappable_cached`. -/
def checkSwappableCached (info : PoolInfo) : Bool :=
  if info.dexName = "Pumpfun AMM" then true
  else if info.dexName = "Raydium AMM V4" then cachedFunded info
  else info.market.isActive && cachedFunded info

/-- The maps with vectors for values hold the empty vector where there is no entry. -/
structure PoolRegistry where
  pools : Table String PoolInfo
  edges : Pubkey → List (Pubkey × String)
  dexCounts : String → ℕ
  swappableCount : ℕ
  cachedSwappable : Finset String
  vaultToPool : Pubkey → List String

namespace PoolRegistry

/-- `PoolRegistry::new`. -/
def new : PoolRegistry := ⟨∅, fun _ => [], fun _ => 0, 0, ∅, fun _ => []⟩

/-- `entry(k).or_default().push(x)`. -/
def push {κ α : Type} [DecidableEq κ] (map : κ → List α) (k : κ) (x : α) : κ → List α :=
  Function.update map k (map k ++ [x])

/-- `fetch_sub(1)` on a counter of 64 bits. -/
def fetchSub (count : ℕ) : ℕ := if count = 0 then 2 ^ 64 - 1 else count - 1

/-- `add_pool`. -/
def addPool (r : PoolRegistry) (address : String) (info : PoolInfo) : PoolRegistry where
  edges := push (push r.edges info.quoteMint (info.baseMint, address)) info.baseMint (info.quoteMint, address)
  vaultToPool := push (push r.vaultToPool info.quoteVault address) info.baseVault address
  dexCounts := Function.update r.dexCounts info.dexName (r.dexCounts info.dexName + 1)
  swappableCount := if info.swappable then r.swappableCount + 1 else r.swappableCount
  cachedSwappable := r.cachedSwappable
  pools := r.pools.insert address info

/-- `rebuild_swappable_set`. -/
def rebuildSwappableSet (r : PoolRegistry) : PoolRegistry :=
  { r with cachedSwappable := r.pools.keys.toFinset.filter fun address =>
      (r.pools.lookup address).any PoolInfo.swappable }

/-- The lines that `validate_pool` and `on_vault_update` share: one pool's flag, and the counter when
the flag has changed. -/
def revalidate (r : PoolRegistry) (address : String) (store : AccountStore) : PoolRegistry × Bool :=
  match r.pools.lookup address with
  | none => (r, false)
  | some info =>
    let now := checkSwappable info store
    if info.swappable = now then (r, false)
    else
      ({ r with
          pools := r.pools.insert address { info with swappable := now }
          swappableCount := if now then r.swappableCount + 1 else fetchSub r.swappableCount }, true)

/-- `validate_pool`. -/
def validatePool (r : PoolRegistry) (address : String) (store : AccountStore) : PoolRegistry :=
  (r.revalidate address store).1

/-- The loop of `on_vault_update`. -/
def revalidateAll (store : AccountStore) : PoolRegistry → List String → PoolRegistry × Bool
  | r, [] => (r, false)
  | r, address :: rest =>
    let (next, changed) := r.revalidate address store
    let (last, more) := revalidateAll store next rest
    (last, changed || more)

/-- `on_vault_update`. -/
def onVaultUpdate (r : PoolRegistry) (vault : Pubkey) (store : AccountStore) : PoolRegistry :=
  let (next, changed) := revalidateAll store r (r.vaultToPool vault)
  if changed then next.rebuildSwappableSet else next

/-- Set every flag anew, and the counter and the set with them. -/
def recompute (r : PoolRegistry) (check : PoolInfo → Bool) : PoolRegistry :=
  let pools := r.pools.mapValues fun _ info => { info with swappable := check info }
  { r with
    pools
    swappableCount := pools.values.countP PoolInfo.swappable
    cachedSwappable := pools.keys.toFinset.filter fun address =>
      (pools.lookup address).any PoolInfo.swappable }

/-- `validate_all`. -/
def validateAll (r : PoolRegistry) (store : AccountStore) : PoolRegistry :=
  r.recompute fun info => checkSwappable info store

/-- `validate_from_cache`. -/
def validateFromCache (r : PoolRegistry) : PoolRegistry := r.recompute checkSwappableCached

inductive Call where
  | addPool (address : String) (info : PoolInfo)
  | validatePool (address : String) (store : AccountStore)
  | onVaultUpdate (vault : Pubkey) (store : AccountStore)
  | validateAll (store : AccountStore)
  | validateFromCache

def apply (r : PoolRegistry) : Call → PoolRegistry
  | .addPool address info => r.addPool address info
  | .validatePool address store => r.validatePool address store
  | .onVaultUpdate vault store => r.onVaultUpdate vault store
  | .validateAll store => r.validateAll store
  | .validateFromCache => r.validateFromCache

section Bookkeeping

variable {r : PoolRegistry} {address : String} {info : PoolInfo} {store : AccountStore} {mint other : Pubkey}

/-- How often one pool adds an edge between two mints: once there and once back. -/
def pairCount (info : PoolInfo) (mint other : Pubkey) : ℕ :=
  (if mint = info.quoteMint ∧ other = info.baseMint then 1 else 0)
    + if mint = info.baseMint ∧ other = info.quoteMint then 1 else 0

/-- The set is the set of the pools that are marked. -/
def Cached (r : PoolRegistry) : Prop :=
  ∀ address, address ∈ r.cachedSwappable ↔ ∃ info, r.pools.lookup address = some info ∧ info.swappable

/-- The counter and the edges agree with the pools. -/
structure Tallied (r : PoolRegistry) : Prop where
  count : r.swappableCount = r.pools.values.countP PoolInfo.swappable
  edges : ∀ address info, r.pools.lookup address = some info →
    ∀ mint other, (r.edges mint).count (other, address) = pairCount info mint other

structure Accurate (r : PoolRegistry) : Prop extends Tallied r where
  cached : Cached r

/-- No edge belongs to an address that is not registered. -/
def Owned (r : PoolRegistry) : Prop :=
  ∀ address, r.pools.lookup address = none → ∀ mint other, (other, address) ∉ r.edges mint

/-- What keeps the books right: a new address whose pool is not marked, and a validation by itself
only where it changes nothing. -/
def Quiet (r : PoolRegistry) : Call → Prop
  | .addPool address info => r.pools.lookup address = none ∧ info.swappable = false
  | .validatePool address store =>
    ∀ info, r.pools.lookup address = some info → info.swappable = checkSwappable info store
  | _ => True

theorem countP_values_insert (t : Table String PoolInfo) (info : PoolInfo) :
    (Table.values (t.insert address info)).countP PoolInfo.swappable
      = (if info.swappable then 1 else 0) + (Table.values (t.erase address)).countP PoolInfo.swappable := by
  rw [Table.values_insert, List.countP_cons, Nat.add_comm]

theorem countP_values_of_lookup {t : Table String PoolInfo} (found : t.lookup address = some info) :
    t.values.countP PoolInfo.swappable
      = (if info.swappable then 1 else 0) + (Table.values (t.erase address)).countP PoolInfo.swappable := by
  rw [(Table.values_erase found).countP_eq, List.countP_cons, Nat.add_comm]

theorem count_push {map : Pubkey → List (Pubkey × String)} {k m : Pubkey} {x y : Pubkey × String} :
    (push map k x m).count y = (map m).count y + if m = k ∧ x = y then 1 else 0 := by
  by_cases here : m = k
  · subst here
    simp [push, List.count_append, List.count_singleton]
  · simp [push, here]

theorem count_addPool {name : String} : ((r.addPool address info).edges mint).count (other, name)
    = (r.edges mint).count (other, name) + if name = address then pairCount info mint other else 0 := by
  simp only [addPool, count_push, Prod.mk.injEq, pairCount]
  by_cases own : name = address
  · simp [own, eq_comm, Nat.add_assoc]
  · simp [own, Ne.symm own]

theorem pairCount_pos (info : PoolInfo) : 0 < pairCount info info.quoteMint info.baseMint := by
  rw [pairCount, if_pos ⟨rfl, rfl⟩]
  exact Nat.add_pos_left Nat.one_pos _

/-- A pool added at a new address, and not marked, keeps the books right. -/
theorem Accurate.addPool (right : Accurate r) (owned : Owned r) (fresh : r.pools.lookup address = none)
    (off : info.swappable = false) : Accurate (r.addPool address info) where
  count := by
    rw [PoolRegistry.addPool, countP_values_insert, Table.values_erase_none fresh, off, right.count]
    simp
  edges name known found mint other := by
    rw [count_addPool]
    rw [PoolRegistry.addPool, Table.lookup_insert_eq] at found
    split at found
    case isTrue own =>
      obtain rfl := Option.some.inj found
      rw [if_pos own, own, List.count_eq_zero_of_not_mem (owned address fresh mint other), Nat.zero_add]
    case isFalse elsewhere => rw [if_neg elsewhere, right.edges name known found, Nat.add_zero]
  cached name := by
    rw [PoolRegistry.addPool, Table.lookup_insert_eq, right.cached]
    split
    case isTrue own =>
      subst own
      simp [fresh, off]
    case isFalse => rfl

theorem Owned.addPool (owned : Owned r) : Owned (r.addPool address info) := by
  intro name missing mint other
  rw [PoolRegistry.addPool, Table.lookup_insert_eq] at missing
  split at missing
  case isTrue => cases missing
  case isFalse elsewhere =>
    rw [← List.count_eq_zero, count_addPool, if_neg elsewhere, Nat.add_zero, List.count_eq_zero]
    exact owned name missing mint other

/-- A pool that is added again has its edges twice, and one that is added marked is not in the set. -/
theorem quiet_of_addPool (before : Accurate r) (after : Accurate (r.addPool address info)) :
    Quiet r (.addPool address info) := by
  have new : (r.addPool address info).pools.lookup address = some info := AList.lookup_insert _
  have fresh : r.pools.lookup address = none := by
    by_contra known
    obtain ⟨old, found⟩ := Option.ne_none_iff_exists'.mp known
    have once := before.edges address old found old.quoteMint old.baseMint
    have again := after.edges address info new old.quoteMint old.baseMint
    have positive := pairCount_pos old
    rw [count_addPool, if_pos rfl] at again
    omega
  refine ⟨fresh, Bool.eq_false_iff.mpr fun marked => ?_⟩
  obtain ⟨old, found, -⟩ := (before.cached address).mp ((after.cached address).mpr ⟨info, new, marked⟩)
  rw [fresh] at found
  cases found

/-- One pool's validation: nothing, or the flag the other way and the counter with it. -/
theorem revalidate_cases (r : PoolRegistry) (address : String) (store : AccountStore) :
    (r.revalidate address store = (r, false) ∧
      ∀ info, r.pools.lookup address = some info → info.swappable = checkSwappable info store) ∨
    ∃ info, r.pools.lookup address = some info ∧ info.swappable = !checkSwappable info store ∧
      r.revalidate address store = ({ r with
        pools := r.pools.insert address { info with swappable := checkSwappable info store }
        swappableCount := if checkSwappable info store then r.swappableCount + 1
          else fetchSub r.swappableCount }, true) := by
  unfold revalidate
  split
  case h_1 missing => exact .inl ⟨rfl, fun info found => by rw [missing] at found; cases found⟩
  case h_2 info found =>
    by_cases same : info.swappable = checkSwappable info store
    · refine .inl ⟨by simp [same], fun other again => ?_⟩
      obtain rfl := Option.some.inj (found.symm.trans again)
      exact same
    · exact .inr ⟨info, found, by simpa using Bool.eq_not_of_ne same, by simp [same]⟩

theorem Tallied.revalidate (right : Tallied r) : Tallied (r.revalidate address store).1 := by
  obtain ⟨same, -⟩ | ⟨info, found, flipped, eq⟩ := revalidate_cases r address store
  · rwa [same]
  · rw [eq]
    have count := right.count
    rw [countP_values_of_lookup found, flipped] at count
    refine ⟨?_, fun name known listed mint other => ?_⟩
    · rw [countP_values_insert, count]
      cases checkSwappable info store <;> simp [fetchSub, Nat.add_comm]
    · rw [Table.lookup_insert_eq] at listed
      split at listed
      case isTrue own =>
        obtain rfl := Option.some.inj listed
        rw [own]
        exact right.edges address info found mint other
      case isFalse => exact right.edges name known listed mint other

theorem Owned.revalidate (owned : Owned r) : Owned (r.revalidate address store).1 := by
  obtain ⟨same, -⟩ | ⟨info, found, -, eq⟩ := revalidate_cases r address store
  · rwa [same]
  · rw [eq]
    intro name missing mint other
    rw [Table.lookup_insert_eq] at missing
    split at missing
    case isTrue => cases missing
    case isFalse => exact owned name missing mint other

theorem Tallied.revalidateAll (right : Tallied r) (store : AccountStore) (addresses : List String) :
    Tallied (PoolRegistry.revalidateAll store r addresses).1 := by
  induction addresses generalizing r with
  | nil => exact right
  | cons address rest ih => exact ih right.revalidate

theorem Owned.revalidateAll (owned : Owned r) (store : AccountStore) (addresses : List String) :
    Owned (PoolRegistry.revalidateAll store r addresses).1 := by
  induction addresses generalizing r with
  | nil => exact owned
  | cons address rest ih => exact ih owned.revalidate

/-- A round that changes no flag changes nothing. -/
theorem revalidateAll_unchanged (store : AccountStore) (addresses : List String)
    (still : (revalidateAll store r addresses).2 = false) : (revalidateAll store r addresses).1 = r := by
  induction addresses generalizing r with
  | nil => rfl
  | cons address rest ih =>
    obtain ⟨same, -⟩ | ⟨info, -, -, eq⟩ := revalidate_cases r address store
    · simp only [revalidateAll, same, Bool.false_or] at still ⊢
      exact ih still
    · simp only [revalidateAll, eq, Bool.true_or] at still
      cases still

theorem cached_filter (t : Table String PoolInfo) (name : String) :
    (name ∈ t.keys.toFinset.filter fun address => (t.lookup address).any PoolInfo.swappable) ↔
      ∃ info, t.lookup name = some info ∧ info.swappable := by
  cases found : t.lookup name with
  | none => simp [found]
  | some info =>
    have listed : name ∈ t.keys := AList.lookup_isSome.mp (by rw [found]; rfl)
    simp [found, listed]

theorem Accurate.rebuild (right : Tallied r) : Accurate r.rebuildSwappableSet where
  count := right.count
  edges := right.edges
  cached := cached_filter r.pools

theorem Accurate.recompute (right : Tallied r) (check : PoolInfo → Bool) : Accurate (r.recompute check) where
  count := rfl
  edges name known found mint other := by
    rw [PoolRegistry.recompute, Table.lookup_mapValues, Option.map_eq_some_iff] at found
    obtain ⟨info, listed, rfl⟩ := found
    exact right.edges name info listed mint other
  cached := cached_filter _

theorem Owned.recompute (owned : Owned r) (check : PoolInfo → Bool) : Owned (r.recompute check) := by
  intro name missing mint other
  rw [PoolRegistry.recompute, Table.lookup_mapValues, Option.map_eq_none_iff] at missing
  exact owned name missing mint other

theorem Accurate.onVaultUpdate {vault : Pubkey} (right : Accurate r) : Accurate (r.onVaultUpdate vault store) := by
  have tallied := right.toTallied.revalidateAll store (r.vaultToPool vault)
  have still := revalidateAll_unchanged (r := r) store (r.vaultToPool vault)
  simp only [PoolRegistry.onVaultUpdate]
  split
  case isTrue => exact .rebuild tallied
  case isFalse unchanged => rwa [still (by simpa using unchanged)]

/-- A validation by itself that changes a flag leaves the set behind. -/
theorem quiet_of_validatePool (before : Accurate r) (after : Accurate (r.validatePool address store)) :
    Quiet r (.validatePool address store) := by
  obtain ⟨-, same⟩ | ⟨info, found, flipped, eq⟩ := revalidate_cases r address store
  · exact same
  · rw [validatePool, eq] at after
    have old := before.cached address
    have new := after.cached address
    simp only [found, AList.lookup_insert, Option.some.injEq, exists_eq_left', flipped] at old new
    rw [old] at new
    simp at new

theorem Accurate.apply {call : Call} (right : Accurate r) (owned : Owned r) (quiet : Quiet r call) :
    Accurate (r.apply call) ∧ Owned (r.apply call) := by
  cases call with
  | addPool address info => exact ⟨right.addPool owned quiet.1 quiet.2, owned.addPool⟩
  | validatePool address store =>
    obtain ⟨same, -⟩ | ⟨info, found, flipped, -⟩ := revalidate_cases r address store
    · rw [PoolRegistry.apply, validatePool, same]
      exact ⟨right, owned⟩
    · rw [quiet info found] at flipped
      simp at flipped
  | onVaultUpdate vault store =>
    refine ⟨right.onVaultUpdate, ?_⟩
    have later := owned.revalidateAll store (r.vaultToPool vault)
    simp only [PoolRegistry.apply, PoolRegistry.onVaultUpdate]
    split <;> exact later
  | validateAll store => exact ⟨.recompute right.toTallied _, owned.recompute _⟩
  | validateFromCache => exact ⟨.recompute right.toTallied _, owned.recompute _⟩

theorem quiet_of_apply {call : Call} (before : Accurate r) (after : Accurate (r.apply call)) : Quiet r call := by
  cases call with
  | addPool address info => exact quiet_of_addPool before after
  | validatePool address store => exact quiet_of_validatePool before after
  | onVaultUpdate vault store => trivial
  | validateAll store => trivial
  | validateFromCache => trivial

theorem accurate_new : Accurate new where
  count := rfl
  edges name known found := by cases found
  cached name := by simp [new]

/-- The books are right after every call of a run exactly when the run adds only new addresses, with
pools that are not marked, and validates a pool by itself only where its flag stays. -/
theorem books_right (calls : List Call) :
    (∀ earlier, earlier <+: calls → Accurate (earlier.foldl apply new)) ↔
      ∀ earlier call, earlier ++ [call] <+: calls → Quiet (earlier.foldl apply new) call := by
  constructor
  · intro right earlier call reached
    have before := right earlier ((List.prefix_append _ _).trans reached)
    have after := right (earlier ++ [call]) reached
    rw [List.foldl_append] at after
    exact quiet_of_apply before after
  · intro quiet earlier reached
    suffices kept : Accurate (earlier.foldl apply new) ∧ Owned (earlier.foldl apply new) from kept.1
    induction earlier using List.reverseRecOn with
    | nil => exact ⟨accurate_new, fun name _ mint other => List.not_mem_nil⟩
    | append_singleton earlier call ih =>
      obtain ⟨right, owned⟩ := ih ((List.prefix_append _ _).trans reached)
      rw [List.foldl_append]
      exact right.apply owned (quiet earlier call reached)

/-- A pool of an exchange that is always swappable. -/
def pumpPool : PoolInfo where
  dexName := "Pumpfun AMM"
  market := ⟨true, none, fun _ _ => none, fun _ _ _ _ _ _ => none⟩
  swappable := false
  quoteMint := [1]
  baseMint := [2]
  quoteVault := [3]
  baseVault := [4]

theorem books_right_fails :
    ¬Accurate ([.addPool "p" pumpPool, .addPool "p" pumpPool].foldl apply new) ∧
      ¬Accurate ([.addPool "p" pumpPool, .validatePool "p" fun _ => none].foldl apply new) ∧
        ¬Accurate ([.addPool "p" { pumpPool with swappable := true }].foldl apply new) := by
  refine ⟨fun right => ?_, fun right => ?_, fun right => ?_⟩
  · exact absurd (right.edges "p" pumpPool rfl [1] [2]) (by decide)
  · exact absurd ((right.cached "p").mpr ⟨_, rfl, rfl⟩) (Finset.notMem_empty "p")
  · exact absurd ((right.cached "p").mpr ⟨_, rfl, rfl⟩) (Finset.notMem_empty "p")

end Bookkeeping

end PoolRegistry

end RndRust.Thunder
