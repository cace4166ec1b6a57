import Mathlib.Data.Finset.Card
import RndRust.Thunder.Live

/-! What the running engine shows of its pools. A mark is right but where an account has been written whose pools
nobody has checked since; the set of the marked pools and their number are exact whenever the lock is free; and the
store counts what it holds, and the slot it has come to. -/
namespace RndRust.Thunder.Live
open Lib

section Marks

variable {view : AccountStore} {unsettled later : Pubkey → Bool} {pools changed : Table String PoolInfo}
  {rest addresses : List String} {quote : Option Bool} {address : String} {info : PoolInfo} {key : Pubkey}

def funded (view : AccountStore) (vault : Pubkey) : Bool := 0 < view.readTokenBalance vault

/-- A check that has read both balances says what `check_swappable` says. -/
theorem passes_funded (info : PoolInfo) (view : AccountStore) :
    passes info (funded view info.quoteVault) (funded view info.baseVault) = checkSwappable info view := by
  simp only [passes, checkSwappable, vaultsFunded, funded]

/-- The mark is right, or a vault has been written since. -/
def Settled (view : AccountStore) (unsettled : Pubkey → Bool) (info : PoolInfo) : Prop :=
  info.swappable = checkSwappable info view ∨ unsettled info.quoteVault ∨ unsettled info.baseVault

/-- The pools that a loop has not left are settled, and so is what it has seen of the first that is left. -/
structure Marked (view : AccountStore) (unsettled : Pubkey → Bool) (pools : Table String PoolInfo) (rest : List String)
    (quote : Option Bool) : Prop where
  settled : ∀ address info, pools.lookup address = some info → address ∈ rest ∨ Settled view unsettled info
  seen : ∀ address ∈ rest.head?, ∀ info, pools.lookup address = some info → ∀ q ∈ quote,
    q = funded view info.quoteVault ∨ unsettled info.quoteVault

theorem funded_update {data : Option Bytes} {vault : Pubkey} (other : vault ≠ key) :
    funded (Function.update view key data) vault = funded view vault := by
  rw [funded, funded, AccountStore.readTokenBalance, AccountStore.readTokenBalance, Function.update_of_ne other]

/-- Whoever writes an account unsettles it, and no pool beside. -/
theorem Settled.write {data : Option Bytes} (settled : Settled view unsettled info) :
    Settled (Function.update view key data) (Function.update unsettled key true) info := by
  by_cases quote : info.quoteVault = key
  · exact .inr (.inl (by rw [quote, Function.update_self]))
  by_cases base : info.baseVault = key
  · exact .inr (.inr (by rw [base, Function.update_self]))
  rw [Settled, ← passes_funded, funded_update quote, funded_update base, passes_funded, Function.update_of_ne quote,
    Function.update_of_ne base]
  exact settled

theorem Marked.write {data : Option Bytes} (marked : Marked view unsettled pools rest quote) :
    Marked (Function.update view key data) (Function.update unsettled key true) pools rest quote where
  settled address info known := (marked.settled address info known).imp_right Settled.write
  seen address first info known q saw := by
    by_cases own : info.quoteVault = key
    · exact .inr (by rw [own, Function.update_self])
    · rw [funded_update own, Function.update_of_ne own]
      exact marked.seen address first info known q saw

/-- A loop begins that goes through the pools of everything it settles. -/
theorem Marked.start (marked : Marked view unsettled pools [] none)
    (covers : ∀ address info, pools.lookup address = some info → address ∈ addresses ∨
      later info.quoteVault = unsettled info.quoteVault ∧ later info.baseVault = unsettled info.baseVault) :
    Marked view later pools addresses none where
  settled address info known := by
    rcases covers address info known with listed | ⟨quote, base⟩
    · exact .inl listed
    · rcases marked.settled address info known with never | settled
      · cases never
      · rw [Settled, quote, base]
        exact .inr settled
  seen address first info known q saw := by cases saw

theorem Marked.skip (marked : Marked view unsettled pools (address :: rest) none)
    (missing : pools.lookup address = none) : Marked view unsettled pools rest none where
  settled name info known := by
    rcases marked.settled name info known with listed | settled
    · rcases List.mem_cons.mp listed with rfl | listed
      · rw [missing] at known
        cases known
      · exact .inl listed
    · exact .inr settled
  seen name first info known q saw := by cases saw

theorem Marked.look (marked : Marked view unsettled pools (address :: rest) none)
    (known : pools.lookup address = some info) :
    Marked view unsettled pools (address :: rest) (some (funded view info.quoteVault)) where
  settled := marked.settled
  seen name first other listed q saw := by
    obtain rfl := Option.some.inj first
    obtain rfl := Option.some.inj (known.symm.trans listed)
    exact .inl (Option.some.inj saw).symm

/-- The pool that is marked is settled: what has changed since its quote vault was read is a write. -/
theorem Marked.mark {q : Bool} (marked : Marked view unsettled pools (address :: rest) (some q))
    (known : pools.lookup address = some info)
    (marks : ∀ name, changed.lookup name = if name = address then
      some { info with swappable := passes info q (funded view info.baseVault) } else pools.lookup name) :
    Marked view unsettled changed rest none where
  settled name other listed := by
    rw [marks] at listed
    split at listed
    case isTrue own =>
      obtain rfl := Option.some.inj listed
      refine .inr ?_
      rcases marked.seen address rfl info known q rfl with read | written
      · refine .inl ?_
        rw [read]
        exact passes_funded info view
      · exact .inr (.inl written)
    case isFalse elsewhere =>
      rcases marked.settled name other listed with left | settled
      · exact .inl ((List.mem_cons.mp left).resolve_left elsewhere)
      · exact .inr settled
  seen name first other listed q saw := by cases saw

theorem Marked.done (marked : Marked view unsettled pools [] quote) : Marked view unsettled pools [] none where
  settled := marked.settled
  seen address first := by cases first

end Marks

section Books

variable {r : PoolRegistry} {pools : Table String PoolInfo} {address name : String} {info : PoolInfo}

/-- The pools that are marked. -/
def marks (pools : Table String PoolInfo) : Finset String :=
  pools.keys.toFinset.filter fun address => (pools.lookup address).any PoolInfo.swappable

theorem mem_marks : address ∈ marks pools ↔ ∃ info, pools.lookup address = some info ∧ info.swappable :=
  PoolRegistry.cached_filter pools address

theorem mem_marks_insert : name ∈ marks (pools.insert address info) ↔
    if name = address then info.swappable = true else name ∈ marks pools := by
  rw [mem_marks, mem_marks, Table.lookup_insert_eq]
  split <;> simp

theorem not_mem_marks (known : pools.lookup address = some info) (off : info.swappable = false) :
    address ∉ marks pools := by
  simp [mem_marks, known, off]

/-- The mark of a pool goes up. -/
theorem marks_raise (known : pools.lookup address = some info) (off : info.swappable = false) :
    (marks (pools.insert address { info with swappable := true })).card = (marks pools).card + 1 := by
  have raised : marks (pools.insert address { info with swappable := true }) = insert address (marks pools) := by
    ext name
    rw [mem_marks_insert, Finset.mem_insert]
    split <;> simp_all
  rw [raised, Finset.card_insert_of_notMem (not_mem_marks known off)]

/-- The mark of a pool goes down. -/
theorem marks_lower (known : pools.lookup address = some info) (on : info.swappable = true) :
    (marks (pools.insert address { info with swappable := false })).card + 1 = (marks pools).card := by
  have lowered : marks (pools.insert address { info with swappable := false }) = (marks pools).erase address := by
    ext name
    rw [mem_marks_insert, Finset.mem_erase]
    split <;> simp_all
  rw [lowered]
  exact Finset.card_erase_add_one (mem_marks.mpr ⟨info, known, on⟩)

/-- The values that are marked are as many as the keys. -/
theorem card_marks (pools : Table String PoolInfo) : (marks pools).card = pools.values.countP PoolInfo.swappable := by
  have listed := Table.filterMap_keys pools fun found => if found.any PoolInfo.swappable then some () else none
  have lengths := congrArg List.length listed
  rw [List.length_filterMap_eq_countP, List.length_filterMap_eq_countP] at lengths
  have unique : pools.keys.Nodup := pools.nodupKeys
  rw [marks, ← List.toFinset_filter, List.toFinset_card_of_nodup (unique.filter _), ← List.countP_eq_length_filter]
  convert lengths using 2 <;> · ext; split <;> simp_all

/-- The counter and the set are those of the marks. -/
structure Booked (r : PoolRegistry) : Prop where
  count : r.swappableCount = (marks r.pools).card
  cached : r.cachedSwappable = marks r.pools

/-- What the books are while a loop changes the marks. -/
def Booking (r : PoolRegistry) : Lock → Prop
  | .checking rest _ (.validating count set) =>
    rest.Nodup ∧ count = set.card ∧ ∀ name, name ∈ set ↔ name ∈ marks r.pools ∧ name ∉ rest
  | .checking _ _ (.updating changed) =>
    r.swappableCount = (marks r.pools).card ∧ (changed = false → r.cachedSwappable = marks r.pools)
  | _ => Booked r

/-- A mark changes nothing of the pools beside. -/
theorem Loop.lookup_mark (loop : Loop) {now : Bool} (known : r.pools.lookup address = some info) (name : String) :
    (loop.mark r address info now).1.pools.lookup name
      = if name = address then some { info with swappable := now } else r.pools.lookup name := by
  cases loop with
  | validating count set => exact Table.lookup_insert_eq _
  | updating changed =>
    rw [Loop.mark]
    split
    case isTrue same =>
      split
      case isTrue own => rw [own, known, ← same]
      case isFalse => rfl
    case isFalse => exact Table.lookup_insert_eq _

theorem Booking.mark {rest : List String} {q : Option Bool} {loop : Loop} {now : Bool}
    (booking : Booking r (.checking (address :: rest) q loop)) (known : r.pools.lookup address = some info) :
    Booking (loop.mark r address info now).1 (.checking rest none (loop.mark r address info now).2) := by
  cases loop with
  | validating count set =>
    obtain ⟨unique, counted, collected⟩ := booking
    obtain ⟨first, unique⟩ := List.nodup_cons.mp unique
    have fresh : address ∉ set := fun among => ((collected address).mp among).2 List.mem_cons_self
    cases now with
    | false =>
      refine ⟨unique, counted, fun name => ?_⟩
      rw [collected, Loop.mark, mem_marks_insert]
      by_cases own : name = address <;> simp [own]
    | true =>
      refine ⟨unique, ?_, fun name => ?_⟩
      · rw [Finset.card_insert_of_notMem fresh, counted]
      · rw [Finset.mem_insert, collected, Loop.mark, mem_marks_insert]
        by_cases own : name = address <;> simp [own, first]
  | updating changed =>
    obtain ⟨counted, cached⟩ := booking
    rw [Loop.mark]
    split
    case isTrue same => exact ⟨counted, cached⟩
    case isFalse flips =>
      refine ⟨?_, fun never => by cases never⟩
      cases now with
      | false =>
        have lowered := marks_lower known (by simpa using flips)
        rw [← counted] at lowered
        simp only [Bool.false_eq_true, if_false, PoolRegistry.fetchSub]
        rw [if_neg (by omega)]
        omega
      | true =>
        rw [marks_raise known (by simpa using flips), ← counted]
        rfl

theorem Booking.skip {rest : List String} {q : Option Bool} {loop : Loop}
    (booking : Booking r (.checking (address :: rest) q loop)) (missing : r.pools.lookup address = none) :
    Booking r (.checking rest none loop) := by
  cases loop with
  | validating count set =>
    obtain ⟨unique, counted, collected⟩ := booking
    refine ⟨(List.nodup_cons.mp unique).2, counted, fun name => ?_⟩
    rw [collected, List.mem_cons]
    have unmarked : address ∉ marks r.pools := by simp [mem_marks, missing]
    constructor
    · rintro ⟨on, out⟩
      exact ⟨on, fun left => out (.inr left)⟩
    · rintro ⟨on, out⟩
      refine ⟨on, fun left => left.elim (fun own => unmarked (own ▸ on)) out⟩
  | updating changed => exact booking

theorem Booking.close {q : Option Bool} {loop : Loop} (booking : Booking r (.checking [] q loop)) :
    Booked (loop.close r) := by
  cases loop with
  | validating count set =>
    obtain ⟨-, counted, collected⟩ := booking
    have exact : set = marks r.pools := by
      ext name
      simp [collected]
    exact ⟨counted.trans (by rw [exact]; rfl), exact⟩
  | updating changed =>
    obtain ⟨counted, cached⟩ := booking
    cases changed with
    | false => exact ⟨counted, cached rfl⟩
    | true => exact ⟨counted, rfl⟩

end Books

section Runs

variable {entries : List (String × PoolInfo)} {s t : State} {r : PoolRegistry} {address : String} {info : PoolInfo}

/-- The pools that a loop has still to check. -/
def Lock.rest : Lock → List String
  | .checking rest _ _ => rest
  | _ => []

/-- Whether the first of these has its quote vault funded, if the loop has looked. -/
def Lock.quote : Lock → Option Bool
  | .checking _ quote _ => quote
  | _ => none

/-- Whether no task writes to the registry. -/
def Lock.readable : Lock → Bool
  | .checking _ _ _ => false
  | _ => true

/-- Every pool is found by its vaults. -/
def Indexed (r : PoolRegistry) : Prop :=
  ∀ address info, r.pools.lookup address = some info →
    address ∈ r.vaultToPool info.quoteVault ∧ address ∈ r.vaultToPool info.baseVault

/-- What holds of the registry after every step. -/
structure Right (s : State) : Prop where
  marked : Marked s.store.view s.unsettled s.registry.pools s.lock.rest s.lock.quote
  booked : Booking s.registry s.lock
  indexed : Indexed s.registry

theorem mem_push {α : Type} {map : Pubkey → List α} {k m : Pubkey} {x y : α} :
    y ∈ PoolRegistry.push map k x m ↔ y ∈ map m ∨ m = k ∧ y = x := by
  by_cases here : m = k <;> simp [PoolRegistry.push, here]

theorem Indexed.addPool (indexed : Indexed r) : Indexed (r.addPool address info) := by
  intro name other known
  rw [PoolRegistry.addPool, Table.lookup_insert_eq] at known
  simp only [PoolRegistry.addPool, mem_push]
  split at known
  case isTrue own =>
    obtain rfl := Option.some.inj known
    exact ⟨.inl (.inr ⟨rfl, own⟩), .inr ⟨rfl, own⟩⟩
  case isFalse =>
    obtain ⟨quote, base⟩ := indexed name other known
    exact ⟨.inl (.inl quote), .inl (.inl base)⟩

/-- Marking pools moves no vault. -/
theorem Indexed.of_lookup {changed : PoolRegistry} (indexed : Indexed r) (same : changed.vaultToPool = r.vaultToPool)
    (marks : ∀ name other, changed.pools.lookup name = some other → ∃ info, r.pools.lookup name = some info ∧
      other.quoteVault = info.quoteVault ∧ other.baseVault = info.baseVault) : Indexed changed := by
  intro name other known
  obtain ⟨info, found, quote, base⟩ := marks name other known
  rw [same, quote, base]
  exact indexed name info found

theorem fromPoolIndex_indexed (entries : List (String × PoolInfo)) : Indexed (fromPoolIndex entries) := by
  suffices added : ∀ r, Indexed r → Indexed (entries.foldl (fun (r : PoolRegistry) entry =>
      r.addPool entry.1 { entry.2 with swappable := false }) r) by
    refine (added .new fun address info known => by cases known).of_lookup rfl fun name other known => ?_
    rw [fromPoolIndex, PoolRegistry.validateFromCache, PoolRegistry.recompute] at known
    rw [Table.lookup_mapValues, Option.map_eq_some_iff] at known
    obtain ⟨info, found, rfl⟩ := known
    exact ⟨info, found, rfl, rfl⟩
  induction entries with
  | nil => exact fun r indexed => indexed
  | cons entry entries ih => exact fun r indexed => ih _ indexed.addPool

theorem right_initial (entries : List (String × PoolInfo)) : Right (live entries).initial where
  marked :=
    { settled := fun address info known => .inr (.inr (.inl rfl))
      seen := fun address first => by cases first }
  booked := ⟨(card_marks _).symm, rfl⟩
  indexed := fromPoolIndex_indexed entries

theorem view_insert (store : Store) (key : Pubkey) (account : AccountData) :
    Store.view { store with accounts := store.accounts.insert key account }
      = Function.update store.view key (some account.data) := by
  funext other
  rw [Store.view, Table.lookup_insert_eq]
  by_cases own : other = key
  · subst own
    simp
  · simp [own, Store.view]

theorem Right.access (right : Right s) (task : Task) (call : Upsert) (phase : Phase) :
    Right (s.access task call phase) := by
  cases phase with
  | looked isNew =>
    refine ⟨?_, right.booked, right.indexed⟩
    simp only [State.access, Store.access, view_insert]
    exact right.marked.write
  | loaded prev =>
    refine ⟨?_, right.booked, right.indexed⟩
    simp only [State.access, Store.access]
    split <;> exact right.marked
  | _ => exact ⟨right.marked, right.booked, right.indexed⟩

theorem Right.proceed (right : Right s) (next : s.proceed = some t) : Right t := by
  unfold State.proceed at next
  split at next
  · cases next
  have booked := right.booked
  have marked := right.marked
  split at next
  · rename_i lock begun
    rw [lock] at booked marked
    cases next
    exact ⟨marked, booked, right.indexed⟩
  · rename_i lock begun
    rw [lock] at booked marked
    cases next
    exact ⟨marked, booked, right.indexed⟩
  · rename_i lock begun
    rw [lock] at booked marked
    cases next
    exact ⟨marked, booked, right.indexed⟩
  · rename_i lock begun
    rw [lock] at marked
    cases next
    have listed : ∀ address info, s.registry.pools.lookup address = some info → address ∈ s.registry.pools.keys :=
      fun address info known => AList.lookup_isSome.mp (by rw [known]; rfl)
    refine ⟨marked.start fun address info known => .inl (listed address info known),
      ⟨s.registry.pools.nodupKeys, rfl, fun name => ?_⟩, right.indexed⟩
    refine iff_of_false (Finset.notMem_empty _) fun ⟨on, out⟩ => ?_
    obtain ⟨info, known, -⟩ := mem_marks.mp on
    exact out (listed name info known)
  · cases next

theorem Right.look (right : Right s) (next : s.look = some t) : Right t := by
  have marked := right.marked
  have booked := right.booked
  unfold State.look at next
  split at next
  · rename_i address rest loop lock
    rw [lock] at marked booked
    split at next
    · rename_i info known
      cases next
      exact ⟨marked.look known, by cases loop <;> exact booked, right.indexed⟩
    · rename_i missing
      cases next
      exact ⟨marked.skip missing, booked.skip missing, right.indexed⟩
  · cases next

theorem Loop.vaultToPool_mark (loop : Loop) {now : Bool} :
    (loop.mark r address info now).1.vaultToPool = r.vaultToPool := by
  cases loop with
  | validating count set => rfl
  | updating changed =>
    rw [Loop.mark]
    split <;> rfl

theorem Right.mark (right : Right s) (next : s.mark = some t) : Right t := by
  have marked := right.marked
  have booked := right.booked
  unfold State.mark at next
  split at next
  · rename_i address rest quote loop lock
    rw [lock] at marked booked
    obtain ⟨info, known, rfl⟩ := Option.map_eq_some_iff.mp next
    refine ⟨marked.mark known (loop.lookup_mark known), booked.mark known,
      right.indexed.of_lookup loop.vaultToPool_mark fun name other listed => ?_⟩
    rw [loop.lookup_mark known] at listed
    split at listed
    · rename_i own
      obtain rfl := Option.some.inj listed
      exact ⟨info, own ▸ known, rfl, rfl⟩
    · exact ⟨other, listed, rfl, rfl⟩
  · cases next

theorem Loop.close_pools (loop : Loop) :
    (loop.close r).pools = r.pools ∧ (loop.close r).vaultToPool = r.vaultToPool := by
  cases loop with
  | validating count set => exact ⟨rfl, rfl⟩
  | updating changed => cases changed <;> exact ⟨rfl, rfl⟩

theorem Right.unlock (right : Right s) (next : s.unlock = some t) : Right t := by
  have marked := right.marked
  have booked := right.booked
  unfold State.unlock at next
  split at next
  · rename_i quote loop lock
    rw [lock] at marked booked
    cases next
    obtain ⟨pools, vaults⟩ := loop.close_pools (r := s.registry)
    refine ⟨?_, booked.close, right.indexed.of_lookup vaults ?_⟩
    · simp only [pools]
      exact marked.done
    · exact fun name other listed => ⟨other, pools ▸ listed, rfl, rfl⟩
  · cases next

theorem Right.lockVault (right : Right s) (next : s.step .lockVault = some t) : Right t := by
  have marked := right.marked
  have booked := right.booked
  simp only [State.step] at next
  split at next
  · rename_i vault lock waiting
    rw [lock] at marked booked
    cases next
    refine ⟨marked.start fun address info known => ?_, ⟨booked.count, fun _ => booked.cached⟩, right.indexed⟩
    obtain ⟨quote, base⟩ := right.indexed address info known
    by_cases quoted : info.quoteVault = vault
    · exact .inl (quoted ▸ quote)
    by_cases based : info.baseVault = vault
    · exact .inl (based ▸ base)
    exact .inr ⟨Function.update_of_ne quoted _ _, Function.update_of_ne based _ _⟩
  · cases next

theorem Right.step {a : Action} (right : Right s) (next : s.step a = some t) : Right t := by
  cases a with
  | receive pubkey account =>
    simp only [State.step] at next
    split at next
    · cases next
    · split at next <;> cases next
      · exact right
      · exact ⟨right.marked, right.booked, right.indexed⟩
  | fetched task pubkey data owner lamports =>
    simp only [State.step] at next
    split at next <;> cases next
    exact ⟨right.marked, right.booked, right.indexed⟩
  | access task =>
    obtain ⟨⟨call, phase⟩, -, rfl⟩ := Option.map_eq_some_iff.mp next
    exact right.access task call phase
  | lockVault => exact right.lockVault next
  | proceed => exact right.proceed next
  | look => exact right.look next
  | mark => exact right.mark next
  | unlock => exact right.unlock next

theorem right_of_reachable (reached : (live entries).Reachable s) : Right s :=
  reached.invariant Right (right_initial entries) fun _ _ _ right _ next => right.step next

/-- Whatever the order in which the stream, the cold start and the handlers write, and wherever a check stands between
its two reads: when no task holds the registry for writing, its counter is the size of its set, and a pool whose
vaults have not been written since their pools were last checked is in the set if and only if it passes the check. -/
theorem swappable_live (reached : (live entries).Reachable s) (readable : s.lock.readable) :
    s.registry.swappableCount = s.registry.cachedSwappable.card ∧
      ∀ address info, s.registry.pools.lookup address = some info →
        s.unsettled info.quoteVault = false → s.unsettled info.baseVault = false →
          (address ∈ s.registry.cachedSwappable ↔ checkSwappable info s.store.view) := by
  have right := right_of_reachable reached
  have marked := right.marked
  have booked := right.booked
  obtain ⟨unlocked, books⟩ : s.lock.rest = [] ∧ Booked s.registry := by
    cases lock : s.lock with
    | checking rest quote loop =>
      rw [lock] at readable
      cases readable
    | _ =>
      rw [lock] at booked
      exact ⟨rfl, booked⟩
  refine ⟨by rw [books.count, books.cached], fun address info known quote base => ?_⟩
  rw [books.cached, mem_marks, known]
  rcases marked.settled address info known with left | right | written | written
  · rw [unlocked] at left
    cases left
  · simp [← right]
  · rw [quote] at written
    cases written
  · rw [base] at written
    cases written

end Runs

section Rest

variable {entries : List (String × PoolInfo)} {s t : State} {task : Task} {call : Upsert} {phase : Phase}

/-- A call that has written its account. -/
def Phase.written : Phase → Bool
  | .inserted _ | .counted | .loaded _ => true
  | _ => false

/-- Once the cold start goes through the pools, the account of a vault is written by the stream, as a token account. -/
def keepsToTokens (s : State) : Action → Bool
  | .access task =>
    match s.calls.lookup task with
    | some (call, .looked _) =>
      s.coldStart != .over || (s.registry.vaultToPool call.pubkey).isEmpty ||
        (task == .stream && isTokenAccount call.account.owner)
    | _ => true
  | _ => true

/-- The stream is about to have the pools of the vault checked. -/
def Watching (s : State) (vault : Pubkey) : Prop :=
  s.vault = some vault ∨ ∃ call phase, s.calls.lookup .stream = some (call, phase) ∧ call.pubkey = vault ∧
    isTokenAccount call.account.owner ∧ phase.written

/-- After the cold start the stream watches every vault that is not settled. It does one thing after the other. -/
structure Watched (s : State) : Prop where
  watched : s.coldStart = .over → ∀ vault, s.registry.vaultToPool vault ≠ [] →
    s.unsettled vault → Watching s vault
  alone : (s.calls.lookup .stream).isSome → s.vault = none

theorem Watching.calls {vault : Pubkey} (watching : Watching s vault) (same : t.vault = s.vault)
    (stream : t.calls.lookup .stream = s.calls.lookup .stream) : Watching t vault := by
  rwa [Watching, same, stream]

/-- A call of another task leaves the stream where it is. -/
theorem Watched.access_other (watched : Watched s) (found : s.calls.lookup task = some (call, phase))
    (other : task ≠ .stream) (allowed : keepsToTokens s (.access task)) : Watched (s.access task call phase) := by
  have stream : (s.access task call phase).calls.lookup .stream = s.calls.lookup .stream := by
    cases phase <;>
      simp only [State.access, Store.access, Table.lookup_insert_eq, Table.lookup_erase_eq, if_neg (Ne.symm other)]
  have same : (s.access task call phase).vault = s.vault := by
    cases phase <;> simp [State.access, Store.access, other]
  refine ⟨fun ended vault used open_ => ?_, fun busy => same.trans (watched.alone (stream ▸ busy))⟩
  refine Watching.calls ?_ same stream
  cases phase with
  | looked isNew =>
    simp only [State.access, Store.access] at ended used open_
    by_cases own : vault = call.pubkey
    · subst own
      simp [keepsToTokens, found, ended, used, other] at allowed
    · rw [Function.update_of_ne own] at open_
      exact watched.watched ended vault used open_
  | _ => exact watched.watched ended vault used open_

theorem Watched.access_stream (watched : Watched s) (found : s.calls.lookup .stream = some (call, phase))
    (allowed : keepsToTokens s (.access .stream)) : Watched (s.access .stream call phase) := by
  have idle : s.vault = none := watched.alone (by rw [found]; rfl)
  -- What is not settled before the step, the call has written.
  have own : s.coldStart = .over → ∀ vault, s.registry.vaultToPool vault ≠ [] → s.unsettled vault →
      call.pubkey = vault ∧ isTokenAccount call.account.owner ∧ phase.written := by
    intro ended vault used open_
    obtain waiting | ⟨_, _, same, rest⟩ := watched.watched ended vault used open_
    · rw [idle] at waiting
      cases waiting
    · obtain ⟨rfl, rfl⟩ := Prod.mk.inj (Option.some.inj (found.symm.trans same))
      exact rest
  cases phase with
  | entered =>
    exact ⟨fun ended vault used open_ => absurd (own ended vault used open_).2.2 Bool.false_ne_true, fun _ => idle⟩
  | looked isNew =>
    refine ⟨fun ended vault used open_ => .inr ⟨call, .inserted isNew, AList.lookup_insert _, ?_⟩, fun _ => idle⟩
    simp only [State.access, Store.access] at ended used open_
    by_cases here : vault = call.pubkey
    · subst here
      have token : isTokenAccount call.account.owner := by
        simpa [keepsToTokens, found, ended, used] using allowed
      exact ⟨rfl, token, rfl⟩
    · rw [Function.update_of_ne here] at open_
      exact absurd (own ended vault used open_).2.2 Bool.false_ne_true
  | inserted isNew =>
    refine ⟨fun ended vault used open_ => .inr ⟨call, .counted, AList.lookup_insert _, ?_⟩, fun _ => idle⟩
    exact own ended vault used open_
  | counted =>
    refine ⟨fun ended vault used open_ => .inr ⟨call, .loaded _, AList.lookup_insert _, ?_⟩, fun _ => idle⟩
    exact own ended vault used open_
  | loaded prev =>
    refine ⟨fun ended vault used open_ => .inl ?_, fun busy => ?_⟩
    · obtain ⟨rfl, token, -⟩ := own ended vault used open_
      simp [State.access, Store.access, token]
    · simp [State.access, Store.access, AList.lookup_erase] at busy

theorem Watched.proceed (watched : Watched s) (next : s.proceed = some t) : Watched t := by
  unfold State.proceed at next
  split at next
  · cases next
  split at next <;> cases next
  · exact ⟨fun ended => watched.watched ended, watched.alone⟩
  · exact ⟨fun ended => (nomatch ended), watched.alone⟩
  · exact ⟨fun ended => watched.watched ended, watched.alone⟩
  · exact ⟨fun _ _ _ never => (by cases never), watched.alone⟩

theorem Watched.loop (watched : Watched s) {lock : Lock} {r : PoolRegistry}
    (same : r.vaultToPool = s.registry.vaultToPool) : Watched { s with registry := r, lock } where
  watched ended vault used open_ := watched.watched ended vault (same ▸ used) open_
  alone := watched.alone

theorem Watched.lockVault (watched : Watched s) (next : s.step .lockVault = some t) : Watched t := by
  simp only [State.step] at next
  split at next
  · rename_i vault lock waiting
    cases next
    refine ⟨fun ended other used open_ => ?_, fun _ => rfl⟩
    change Function.update s.unsettled vault false other = true at open_
    by_cases own : other = vault
    · rw [own, Function.update_self] at open_
      cases open_
    · rw [Function.update_of_ne own] at open_
      obtain here | there := watched.watched ended other used open_
      · exact absurd (Option.some.inj (here.symm.trans waiting)) own
      · exact .inr there
  · cases next

theorem idle_of_listening (listening : s.listening) : s.calls.lookup .stream = none ∧ s.vault = none := by
  simp only [State.listening, Bool.and_eq_true, Option.isNone_iff_eq_none] at listening
  exact listening.1

theorem Watched.step {a : Action} (watched : Watched s) (allowed : keepsToTokens s a) (next : s.step a = some t) :
    Watched t := by
  cases a with
  | receive pubkey account =>
    simp only [State.step] at next
    split at next
    · cases next
    · rename_i listens
      split at next <;> cases next
      · exact watched
      · obtain ⟨quiet, waits⟩ := idle_of_listening (not_not.mp listens)
        refine ⟨fun ended vault used open_ => ?_, fun _ => waits⟩
        obtain waiting | ⟨_, _, busy, -⟩ := watched.watched ended vault used open_
        · rw [waits] at waiting
          cases waiting
        · rw [quiet] at busy
          cases busy
  | fetched task pubkey data owner lamports =>
    simp only [State.step] at next
    split at next <;> cases next
    rename_i may
    have other : Task.stream ≠ task := fun same => by
      rw [← same] at may
      exact Bool.false_ne_true may.1
    refine ⟨fun ended vault used open_ => (watched.watched ended vault used open_).calls rfl ?_, ?_⟩ <;>
      rw [AList.lookup_insert_ne other]
    exact watched.alone
  | access task =>
    obtain ⟨⟨call, phase⟩, found, rfl⟩ := Option.map_eq_some_iff.mp next
    by_cases own : task = .stream
    · subst own
      exact watched.access_stream found allowed
    · exact watched.access_other found own allowed
  | lockVault => exact watched.lockVault next
  | proceed => exact watched.proceed next
  | look =>
    simp only [State.step, State.look] at next
    split at next
    · split at next <;> cases next <;> exact watched.loop rfl
    · cases next
  | mark =>
    simp only [State.step, State.mark] at next
    split at next
    · rename_i loop _
      obtain ⟨info, -, rfl⟩ := Option.map_eq_some_iff.mp next
      exact watched.loop loop.vaultToPool_mark
    · cases next
  | unlock =>
    simp only [State.step, State.unlock] at next
    split at next
    · rename_i loop _
      cases next
      exact watched.loop loop.close_pools.2
    · cases next

/-- Once the cold start is over, whenever nobody writes to the registry and the stream waits for its next message, the
set is exactly that of the pools that pass the check against the store as it is, provided that accounts of vaults
come from the stream as token accounts. -/
theorem swappable_exact (reached : (live entries).Reaches (fun s a => keepsToTokens s a) s)
    (ended : s.coldStart = .over) (readable : s.lock.readable) (listening : s.listening) (address : String) :
    address ∈ s.registry.cachedSwappable ↔
      ∃ info, s.registry.pools.lookup address = some info ∧ checkSwappable info s.store.view := by
  have right := right_of_reachable reached.reachable
  have initial : Watched (live entries).initial := ⟨fun never => (nomatch never), fun busy => (nomatch busy)⟩
  have watched := reached.invariant Watched initial fun _ _ _ watched allowed next => watched.step allowed next
  obtain ⟨quiet, waits⟩ := idle_of_listening listening
  have settled : ∀ vault, s.registry.vaultToPool vault ≠ [] → s.unsettled vault = false := by
    refine fun vault used => Bool.eq_false_iff.mpr fun open_ => ?_
    obtain waiting | ⟨_, _, busy, -⟩ := watched.watched ended vault used open_
    · rw [waits] at waiting
      cases waiting
    · rw [quiet] at busy
      cases busy
  have live := (swappable_live reached.reachable readable).2
  cases known : s.registry.pools.lookup address with
  | none =>
    have booked := right.booked
    have unmarked : address ∉ marks s.registry.pools := by simp [mem_marks, known]
    have cached : s.registry.cachedSwappable = marks s.registry.pools := by
      cases lock : s.lock with
      | checking rest quote loop =>
        rw [lock] at readable
        cases readable
      | _ =>
        rw [lock] at booked
        exact booked.cached
    simp [cached, unmarked]
  | some info =>
    obtain ⟨quote, base⟩ := right.indexed address info known
    rw [live address info known (settled _ (List.ne_nil_of_mem quote)) (settled _ (List.ne_nil_of_mem base))]
    simp

/-- A pool, and the token accounts of its vaults with one token each. -/
def exampleVault (n : UInt8) : Pubkey := List.replicate 32 n

def exampleEntries : List (String × PoolInfo) :=
  [("pool", ⟨"Raydium AMM V4", ⟨true, none, fun _ _ => none, fun _ _ _ _ _ _ => none⟩, false, exampleVault 1,
    exampleVault 2, exampleVault 3, exampleVault 4⟩)]

def exampleAccount : AccountData := ⟨List.replicate 64 0 ++ 1 :: List.replicate 7 0, tokenProgram, 1, 9⟩

/-- The accesses of one call. -/
def exampleCall (task : Task) : List Action := List.replicate 5 (.access task)

/-- The cold start finds one vault and checks the pool, and then the stream brings the other. -/
def exampleRun : List Action :=
  [.proceed, .fetched .coldStart (exampleVault 3) exampleAccount.data tokenProgram 1] ++ exampleCall .coldStart ++
    [.proceed, .proceed, .proceed, .look, .mark, .unlock, .receive (exampleVault 4) exampleAccount] ++
    exampleCall .stream ++ [.lockVault, .look, .mark, .unlock]

theorem swappable_live_found : ∃ s : State, s.lock.readable ∧ s.registry.cachedSwappable = {"pool"} ∧
    s.registry.swappableCount = s.registry.cachedSwappable.card := by
  obtain ⟨s, reached, readable, found⟩ := Machine.Reachable.of_trace (live exampleEntries) exampleRun
    (fun s => s.lock.readable ∧ s.registry.cachedSwappable = {"pool"}) (by decide +kernel)
  exact ⟨s, readable, found, (swappable_live reached readable).1⟩

theorem swappable_exact_found : ∃ s : State, "pool" ∈ s.registry.cachedSwappable ∧
    ∃ info, s.registry.pools.lookup "pool" = some info ∧ checkSwappable info s.store.view := by
  obtain ⟨s, reached, ⟨ended, readable, listening⟩, found⟩ := Machine.Reaches.of_trace (live exampleEntries)
    (fun s a => keepsToTokens s a) exampleRun (fun s => (s.coldStart = .over ∧ s.lock.readable ∧ s.listening) ∧
      "pool" ∈ s.registry.cachedSwappable) (by decide +kernel)
  exact ⟨s, found, (swappable_exact reached ended readable listening "pool").mp found⟩

end Rest

section Books

variable {entries : List (String × PoolInfo)} {s t : State} {task : Task} {call : Upsert} {phase : Phase}

/-- Whether a call has still to count an account that it took for new. -/
def counting (call : Upsert × Phase) : Bool := call.2 = .inserted true

/-- How many calls have. -/
def State.pending (s : State) : ℕ := s.calls.values.countP counting

/-- What the counters of the store come to. -/
structure Accounted (s : State) : Prop where
  counted : s.store.accounts.values.length + s.raced = s.store.accountCount + s.pending
  known : ∀ task call, s.calls.lookup task = some (call, .looked false) →
    (s.store.accounts.lookup call.pubkey).isSome
  fetched : ∀ task call phase, s.calls.lookup task = some (call, phase) → task ≠ .stream → call.account.slot = 0
  fresh : ∀ call prev, s.calls.lookup .stream = some (call, .loaded prev) → prev = s.store.lastSlot
  latest : s.store.lastSlot = (s.finished.map (·.account.slot)).foldl max 0

theorem length_values_insert {accounts : Table Pubkey AccountData} {key : Pubkey} {account : AccountData} :
    (Table.values (accounts.insert key account)).length
      = accounts.values.length + if (accounts.lookup key).isSome then 0 else 1 := by
  rw [Table.values_insert, List.length_cons]
  cases known : accounts.lookup key with
  | none => rw [Table.values_erase_none known, Option.isSome_none, if_neg Bool.false_ne_true]
  | some old => rw [(Table.values_erase known).length_eq, List.length_cons, Option.isSome_some, if_pos rfl]

/-- The calls that have still to count, after one of them has gone on. -/
theorem pending_insert {calls : Table Task (Upsert × Phase)} (next : Upsert × Phase)
    (found : calls.lookup task = some (call, phase)) :
    (Table.values (calls.insert task next)).countP counting + (if counting (call, phase) then 1 else 0)
      = calls.values.countP counting + if counting next then 1 else 0 := by
  rw [Table.values_insert, (Table.values_erase found).countP_eq, List.countP_cons, List.countP_cons]
  omega

theorem pending_erase {calls : Table Task (Upsert × Phase)} (found : calls.lookup task = some (call, phase)) :
    (Table.values (calls.erase task)).countP counting + (if counting (call, phase) then 1 else 0)
      = calls.values.countP counting := by
  rw [(Table.values_erase found).countP_eq, List.countP_cons]

theorem pending_new {calls : Table Task (Upsert × Phase)} (missing : calls.lookup task = none) :
    (Table.values (calls.insert task (call, .entered))).countP counting = calls.values.countP counting := by
  rw [Table.values_insert, List.countP_cons, Table.values_erase_none missing]
  simp [counting]

theorem foldl_max_append_one (slots : List ℕ) (slot : ℕ) :
    (slots ++ [slot]).foldl max 0 = max (slots.foldl max 0) slot := by
  rw [List.foldl_append]
  rfl

/-- The calls after one of them has gone on. -/
theorem lookup_gone_on {calls : Table Task (Upsert × Phase)} {other : Task} {next found : Upsert × Phase}
    (listed : (calls.insert task next).lookup other = some found) :
    other = task ∧ found = next ∨ other ≠ task ∧ calls.lookup other = some found := by
  rw [Table.lookup_insert_eq] at listed
  split at listed
  case isTrue own => exact .inl ⟨own, (Option.some.inj listed).symm⟩
  case isFalse elsewhere => exact .inr ⟨elsewhere, listed⟩

theorem Accounted.start (right : Accounted s) (idle : s.calls.lookup task = none)
    (fetched : task ≠ .stream → call.account.slot = 0) :
    Accounted { s with calls := s.calls.insert task (call, .entered) } where
  counted := by
    rw [State.pending, pending_new idle]
    exact right.counted
  known other called listed := by
    obtain ⟨-, same⟩ | ⟨-, listed⟩ := lookup_gone_on listed
    · cases same
    · exact right.known other called listed
  fetched other called phase listed elsewhere := by
    obtain ⟨rfl, same⟩ | ⟨-, listed⟩ := lookup_gone_on listed
    · obtain ⟨rfl, -⟩ := Prod.mk.inj same
      exact fetched elsewhere
    · exact right.fetched other called phase listed elsewhere
  fresh called prev listed := by
    obtain ⟨-, same⟩ | ⟨-, listed⟩ := lookup_gone_on listed
    · cases same
    · exact right.fresh called prev listed
  latest := right.latest

/-- A call that goes on, with whatever it does to the accounts and to their counter. -/
theorem Accounted.go_on {next : Phase} {accounts : Table Pubkey AccountData} {accountCount raced : ℕ}
    {unsettled : Pubkey → Bool} (right : Accounted s) (found : s.calls.lookup task = some (call, phase))
    (grows : ∀ key, (s.store.accounts.lookup key).isSome → (accounts.lookup key).isSome)
    (counts : accounts.values.length + raced + (s.store.accountCount + if counting (call, phase) then 1 else 0)
      = s.store.accounts.values.length + s.raced + (accountCount + if counting (call, next) then 1 else 0))
    (looks : next = .looked false → (accounts.lookup call.pubkey).isSome)
    (loads : ∀ prev, next = .loaded prev → prev = s.store.lastSlot) :
    Accounted { s with
      store := ⟨accounts, s.store.lastSlot, accountCount⟩
      calls := s.calls.insert task (call, next)
      unsettled
      raced } where
  counted := by
    have before := right.counted
    have moved := pending_insert (call, next) found
    rw [State.pending] at before ⊢
    dsimp only
    omega
  known other called listed := by
    obtain ⟨-, same⟩ | ⟨-, listed⟩ := lookup_gone_on listed
    · obtain ⟨rfl, looked⟩ := Prod.mk.inj same
      exact looks looked.symm
    · exact grows _ (right.known other called listed)
  fetched other called phase listed elsewhere := by
    obtain ⟨rfl, same⟩ | ⟨-, listed⟩ := lookup_gone_on listed
    · obtain ⟨rfl, -⟩ := Prod.mk.inj same
      exact right.fetched other called _ found elsewhere
    · exact right.fetched other called phase listed elsewhere
  fresh called prev listed := by
    obtain ⟨-, same⟩ | ⟨-, listed⟩ := lookup_gone_on listed
    · exact loads prev (Prod.mk.inj same).2.symm
    · exact right.fresh called prev listed
  latest := right.latest

/-- The last access of a call: only the stream brings a slot, and nobody has moved the last one since it looked. -/
theorem Accounted.finish {prev : ℕ} {vault : Option Pubkey} (right : Accounted s)
    (found : s.calls.lookup task = some (call, .loaded prev)) :
    Accounted { s with
      store := if prev < call.account.slot then { s.store with lastSlot := call.account.slot } else s.store
      calls := s.calls.erase task
      finished := s.finished ++ [call]
      vault } where
  counted := by
    have before := right.counted
    have moved := pending_erase found
    rw [State.pending] at before ⊢
    have past : counting (call, .loaded prev) = false := rfl
    rw [past, if_neg Bool.false_ne_true] at moved
    simp only [apply_ite Store.accounts, apply_ite Store.accountCount, ite_self]
    omega
  known other called listed := by
    have known : s.calls.lookup other = some (called, .looked false) := by
      rw [Table.lookup_erase_eq] at listed
      split at listed
      · cases listed
      · exact listed
    dsimp only
    split <;> exact right.known other called known
  fetched other called phase listed elsewhere := by
    rw [Table.lookup_erase_eq] at listed
    split at listed
    · cases listed
    · exact right.fetched other called phase listed elsewhere
  fresh called old listed := by
    rw [Table.lookup_erase_eq] at listed
    split at listed
    · cases listed
    · rename_i elsewhere
      have zero := right.fetched task call _ found (Ne.symm elsewhere)
      dsimp only
      rw [zero, if_neg (Nat.not_lt_zero _)]
      exact right.fresh called old listed
  latest := by
    rw [List.map_append, List.map_singleton, foldl_max_append_one, ← right.latest]
    by_cases own : task = .stream
    · subst own
      rw [right.fresh call prev found]
      split
      case isTrue later => exact (Nat.max_eq_right later.le).symm
      case isFalse earlier => exact (Nat.max_eq_left (Nat.not_lt.mp earlier)).symm
    · have zero := right.fetched task call _ found own
      rw [zero, if_neg (Nat.not_lt_zero _), Nat.max_zero]

theorem Accounted.access (right : Accounted s) (found : s.calls.lookup task = some (call, phase)) :
    Accounted (s.access task call phase) := by
  cases phase with
  | entered =>
    refine right.go_on found (fun _ known => known) rfl (fun looked => ?_) (fun _ never => nomatch never)
    simpa using looked
  | looked isNew =>
    refine right.go_on found (fun key known => ?_) ?_ (fun never => nomatch never) (fun _ never => nomatch never)
    · rw [Table.lookup_insert_eq]
      split
      · rfl
      · exact known
    · rw [length_values_insert]
      cases isNew with
      | false =>
        rw [right.known task call found]
        simp [counting]
      | true =>
        cases known : s.store.accounts.lookup call.pubkey <;> simp [counting] <;> omega
  | inserted isNew =>
    refine right.go_on found (fun _ known => known) ?_ (fun never => nomatch never) (fun _ never => nomatch never)
    cases isNew <;> rfl
  | counted =>
    refine right.go_on found (fun _ known => known) rfl (fun never => nomatch never) (fun prev loaded => ?_)
    exact (Phase.loaded.inj loaded).symm
  | loaded prev => exact right.finish found

/-- A step that calls nobody's `upsert` and leaves the store. -/
theorem Accounted.of_same (right : Accounted s) (store : t.store = s.store) (calls : t.calls = s.calls)
    (finished : t.finished = s.finished) (raced : t.raced = s.raced) : Accounted t where
  counted := by
    rw [State.pending, store, raced, calls]
    exact right.counted
  known := by
    rw [store, calls]
    exact right.known
  fetched := by
    rw [calls]
    exact right.fetched
  fresh := by
    rw [store, calls]
    exact right.fresh
  latest := by
    rw [store, finished]
    exact right.latest

theorem Accounted.step {a : Action} (right : Accounted s) (next : s.step a = some t) : Accounted t := by
  cases a with
  | receive pubkey account =>
    simp only [State.step] at next
    split at next
    · cases next
    · rename_i listens
      split at next <;> cases next
      · exact right
      · exact right.start (idle_of_listening (not_not.mp listens)).1 fun other => absurd rfl other
  | fetched task pubkey data owner lamports =>
    simp only [State.step] at next
    split at next <;> cases next
    rename_i may
    exact right.start (Option.isNone_iff_eq_none.mp may.2) fun _ => rfl
  | access task =>
    obtain ⟨⟨call, phase⟩, found, rfl⟩ := Option.map_eq_some_iff.mp next
    exact right.access found
  | lockVault =>
    simp only [State.step] at next
    split at next <;> cases next
    exact right.of_same rfl rfl rfl rfl
  | proceed =>
    simp only [State.step, State.proceed] at next
    split at next
    · cases next
    · split at next <;> cases next <;> exact right.of_same rfl rfl rfl rfl
  | look =>
    simp only [State.step, State.look] at next
    split at next
    · split at next <;> cases next <;> exact right.of_same rfl rfl rfl rfl
    · cases next
  | mark =>
    simp only [State.step, State.mark] at next
    split at next
    · obtain ⟨info, -, rfl⟩ := Option.map_eq_some_iff.mp next
      exact right.of_same rfl rfl rfl rfl
    · cases next
  | unlock =>
    simp only [State.step, State.unlock] at next
    split at next <;> cases next
    exact right.of_same rfl rfl rfl rfl

theorem accounted_initial : Accounted (live entries).initial where
  counted := rfl
  known _ _ listed := by cases listed
  fetched _ _ _ listed := by cases listed
  fresh _ _ listed := by cases listed
  latest := rfl

/-- Wherever the calls of `upsert` stand, the counter of accounts is ahead of what the store holds by the accounts that
two calls took for new at once, and behind by those still to count; and the last slot is the highest of the calls that
are over, which two tasks with slots of their own could not keep up. -/
theorem store_books (reached : (live entries).Reachable s) :
    s.store.accounts.values.length + s.raced = s.store.accountCount + s.pending ∧
      s.store.lastSlot = (s.finished.map (·.account.slot)).foldl max 0 := by
  have right : Accounted s := reached.invariant Accounted accounted_initial fun _ _ _ right _ next => right.step next
  exact ⟨right.counted, right.latest⟩

/-- Two handlers that fetch one account count it twice. -/
theorem store_books_raced : ∃ s : State, s.store.accountCount = 2 ∧
    s.store.accounts.values.length + s.raced = s.store.accountCount + s.pending := by
  obtain ⟨s, reached, twice⟩ := Machine.Reachable.of_trace (live [])
    ([.fetched (.handler 0) [] [] [] 0, .fetched (.handler 1) [] [] [] 0, .access (.handler 0), .access (.handler 1)] ++
      List.replicate 4 (.access (.handler 0)) ++ List.replicate 4 (.access (.handler 1)))
    (fun s => s.store.accountCount = 2) (by decide +kernel)
  exact ⟨s, twice, (store_books reached).1⟩

end Books

end RndRust.Thunder.Live
