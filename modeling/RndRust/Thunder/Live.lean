import Mathlib.Data.Finset.Insert
import RndRust.Lib.Runs
import RndRust.Thunder.PoolRegistry

/-! The engine while it runs: `account_store.rs`, and the tasks of `engine.rs` that write to it. The stream writes
what the chain sends and has the pools of a vault checked again, the cold start fetches what the chain holds and then
checks every pool, and the handlers of requests fetch what they miss. The registry stands behind a lock and the
store does not, so that a call of `upsert` and the check of a pool come apart into what they access. -/
namespace RndRust.Thunder.Live
open Lib

/-- An `AccountData` in the store. -/
structure AccountData where
  data : Bytes
  owner : Pubkey
  lamports : ℕ
  slot : ℕ

/-- `AccountStore`. The counter of 64 bits does not overflow before the accounts are too many for the memory. -/
structure Store where
  accounts : Table Pubkey AccountData := ∅
  lastSlot : ℕ := 0
  accountCount : ℕ := 0

/-- What `read_token_balance` and `get_data` see. -/
def Store.view (store : Store) : AccountStore := fun pubkey => (store.accounts.lookup pubkey).map (·.data)

/-- A call of `upsert`. -/
structure Upsert where
  pubkey : Pubkey
  account : AccountData

/-- What a call of `upsert` has done last. -/
inductive Phase where
  | entered
  | looked (isNew : Bool)
  | inserted (isNew : Bool)
  | counted
  | loaded (prev : ℕ)
  deriving DecidableEq, Repr

/-- The next access of `upsert`, and where it leaves the call; `none` when it was the last. -/
def Store.access (store : Store) (call : Upsert) : Phase → Store × Option Phase
  | .entered => (store, some (.looked (store.accounts.lookup call.pubkey).isNone))
  | .looked isNew => ({ store with accounts := store.accounts.insert call.pubkey call.account }, some (.inserted isNew))
  | .inserted isNew => ({ store with accountCount := store.accountCount + if isNew then 1 else 0 }, some .counted)
  | .counted => (store, some (.loaded store.lastSlot))
  | .loaded prev =>
    (if prev < call.account.slot then { store with lastSlot := call.account.slot } else store, none)

/-- The tasks that call `upsert`. -/
inductive Task where
  | stream
  | coldStart
  | handler (n : ℕ)
  deriving DecidableEq, Repr

/-- A loop over pools: what `validate_all` has collected, or whether `on_vault_update` has changed a mark. -/
inductive Loop where
  | validating (count : ℕ) (set : Finset String)
  | updating (changed : Bool)

/-- Who holds the registry. -/
inductive Lock where
  | free
  /-- The first part of the cold start, which holds the lock for reading. -/
  | reading
  /-- The second part, before `validate_all`. -/
  | loading
  /-- A loop with the pools that are left. The check of the first has found its quote vault funded or not, or has
  not looked yet. -/
  | checking (rest : List String) (quote : Option Bool) (loop : Loop)

inductive ColdStart where
  | begun
  | fetched
  | over
  deriving DecidableEq, Repr

structure State where
  store : Store := {}
  /-- The calls of `upsert` in progress. -/
  calls : Table Task (Upsert × Phase) := ∅
  /-- The vault that the stream has written and is about to have checked. -/
  vault : Option Pubkey := none
  registry : PoolRegistry
  lock : Lock := .free
  coldStart : ColdStart := .begun
  /-- The accounts written since the last round of checks that they called for began. No pool has been checked
  against the store at first. -/
  unsettled : Pubkey → Bool := fun _ => true
  /-- The calls that are over. -/
  finished : List Upsert := []
  /-- How many calls took an account for new that another call had inserted meanwhile. -/
  raced : ℕ := 0

/-- `check_swappable`, by what it finds the vaults to hold. -/
def passes (info : PoolInfo) (quote base : Bool) : Bool :=
  if info.dexName = "Pumpfun AMM" then true
  else if info.dexName = "Raydium AMM V4" then quote && base
  else info.market.isActive && (quote && base)

def State.funded (s : State) (vault : Pubkey) : Bool := 0 < s.store.view.readTokenBalance vault

/-- `is_token_account`. -/
def isTokenAccount (owner : Pubkey) : Bool := owner == tokenProgram || owner == token2022Program

/-- Whether a task may fetch accounts now. -/
def State.mayFetch (s : State) : Task → Bool
  | .stream => false
  | .coldStart =>
    match s.lock with
    | .reading | .loading => true
    | _ => false
  | .handler _ => true

inductive Action where
  /-- A message of the stream with an account. -/
  | receive (pubkey : Bytes) (account : AccountData)
  /-- A task calls `upsert` with an account that it has fetched. -/
  | fetched (task : Task) (pubkey : Pubkey) (data : Bytes) (owner : Pubkey) (lamports : ℕ)
  /-- The next access of the call a task is in. -/
  | access (task : Task)
  /-- The stream gets the lock. -/
  | lockVault
  /-- The cold start gets or gives back the lock, or goes over to `validate_all`. -/
  | proceed
  /-- The loop that is under way reads the first balance, or goes past a pool that there is not. -/
  | look
  /-- The loop reads the second balance and marks the pool. -/
  | mark
  /-- The loop ends. -/
  | unlock

/-- What a loop does with the mark of a pool. -/
def Loop.mark (r : PoolRegistry) (address : String) (info : PoolInfo) (now : Bool) : Loop → PoolRegistry × Loop
  | .validating count set =>
    ({ r with pools := r.pools.insert address { info with swappable := now } },
      if now then .validating (count + 1) (insert address set) else .validating count set)
  | .updating changed =>
    if info.swappable = now then (r, .updating changed)
    else
      ({ r with
          pools := r.pools.insert address { info with swappable := now }
          swappableCount := if now then r.swappableCount + 1 else PoolRegistry.fetchSub r.swappableCount },
        .updating true)

/-- What a loop does at its end. -/
def Loop.close (r : PoolRegistry) : Loop → PoolRegistry
  | .validating count set => { r with swappableCount := count, cachedSwappable := set }
  | .updating changed => if changed then r.rebuildSwappableSet else r

/-- An access of `upsert`. The stream has the pools of a token account checked after it. -/
def State.access (s : State) (task : Task) (call : Upsert) (phase : Phase) : State :=
  let (store, next) := s.store.access call phase
  let s : State := match phase with
    | .looked isNew =>
      { s with
        unsettled := Function.update s.unsettled call.pubkey true
        raced := s.raced + if isNew && (s.store.accounts.lookup call.pubkey).isSome then 1 else 0 }
    | _ => s
  match next with
  | some phase => { s with store, calls := s.calls.insert task (call, phase) }
  | none =>
    { s with
      store
      calls := s.calls.erase task
      finished := s.finished ++ [call]
      vault := if task = .stream ∧ isTokenAccount call.account.owner then some call.pubkey else s.vault }

/-- Where the cold start goes next. -/
def State.proceed (s : State) : Option State :=
  if (s.calls.lookup .coldStart).isSome then none
  else
    match s.lock, s.coldStart with
    | .free, .begun => some { s with lock := .reading }
    | .reading, .begun => some { s with lock := .free, coldStart := .fetched }
    | .free, .fetched => some { s with lock := .loading }
    | .loading, .fetched =>
      some { s with
        lock := .checking s.registry.pools.keys none (.validating 0 ∅)
        coldStart := .over
        unsettled := fun _ => false }
    | _, _ => none

def State.look (s : State) : Option State :=
  match s.lock with
  | .checking (address :: rest) none loop =>
    match s.registry.pools.lookup address with
    | some info => some { s with lock := .checking (address :: rest) (some (s.funded info.quoteVault)) loop }
    | none => some { s with lock := .checking rest none loop }
  | _ => none

def State.mark (s : State) : Option State :=
  match s.lock with
  | .checking (address :: rest) (some quote) loop =>
    (s.registry.pools.lookup address).map fun info =>
      let (registry, loop) := loop.mark s.registry address info (passes info quote (s.funded info.baseVault))
      { s with registry, lock := .checking rest none loop }
  | _ => none

def State.unlock (s : State) : Option State :=
  match s.lock with
  | .checking [] _ loop => some { s with lock := .free, registry := loop.close s.registry }
  | _ => none

/-- Whether the stream is ready for its next message. -/
def State.listening (s : State) : Bool :=
  (s.calls.lookup .stream).isNone && s.vault.isNone && match s.lock with
    | .checking _ _ (.updating _) => false
    | _ => true

def State.step (s : State) : Action → Option State
  | .receive pubkey account =>
    if ¬ s.listening then none
    else if pubkey.length ≠ 32 ∨ account.owner.length ≠ 32 then some s
    else some { s with calls := s.calls.insert .stream (⟨pubkey, account⟩, .entered) }
  | .fetched task pubkey data owner lamports =>
    if s.mayFetch task ∧ (s.calls.lookup task).isNone then
      some { s with calls := s.calls.insert task (⟨pubkey, data, owner, lamports, 0⟩, .entered) }
    else none
  | .access task => (s.calls.lookup task).map fun (call, phase) => s.access task call phase
  | .lockVault =>
    match s.lock, s.vault with
    | .free, some vault =>
      some { s with
        lock := .checking (s.registry.vaultToPool vault) none (.updating false)
        vault := none
        unsettled := Function.update s.unsettled vault false }
    | _, _ => none
  | .proceed => s.proceed
  | .look => s.look
  | .mark => s.mark
  | .unlock => s.unlock

/-- `from_pool_index`, of the entries of the index that can be read, and the validation from their cached balances. -/
def fromPoolIndex (entries : List (String × PoolInfo)) : PoolRegistry :=
  let registry := entries.foldl (fun (r : PoolRegistry) (address, info) =>
    r.addPool address { info with swappable := false }) .new
  registry.validateFromCache

/-- The engine as it starts. -/
def live (entries : List (String × PoolInfo)) : Machine State Action where
  initial := { registry := fromPoolIndex entries }
  step := State.step

end RndRust.Thunder.Live
