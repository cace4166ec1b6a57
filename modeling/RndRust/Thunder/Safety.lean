import RndRust.Lib.Exchange
import RndRust.Thunder.Router

/-! What a route does to the balances of a wallet: an exchange of at most `amount_in` of
the input mint for at least `min_amount_out` of the output mint. -/
namespace RndRust.Thunder
open Lib

/-- What an account contributes to the balance of a wallet in a mint. -/
def Account.holding (account : Account) (A m : Pubkey) : ℕ :=
  if account.Holds A m then account.readTokenBalance else 0

/-- The balance sheet of a wallet over some accounts. -/
def total (K : Finset Pubkey) (A : Pubkey) (ledger : Ledger) (m : Pubkey) : ℕ :=
  ∑ k ∈ K, (ledger k).holding A m

/-- The token programs move what belongs to a wallet only with its signature. -/
def Runtime.RespectsOwner (rt : Runtime) (A : Pubkey) : Prop :=
  ∀ ix ledger after, rt.call ix ledger = some after → ix.signs A = false →
    ∀ k m, (ledger k).Holds A m →
      (after k).Holds A m ∧ (ledger k).readTokenBalance ≤ (after k).readTokenBalance

/-- A hop that was run: the accounts of its leg, and the loop before and after it. -/
structure HopRecord where
  accounts : List AccountInfo
  leg : SwapLeg
  before : RouteState
  after : RouteState

namespace HopRecord

variable (r : HopRecord)

def authority : Pubkey := (accountAt r.accounts 1).key

def source : Pubkey := (accountAt r.accounts 2).key

def dest : Pubkey := (accountAt r.accounts 3).key

def sourceMint : Option Pubkey := (r.before.ledger r.source).tokenMint

def destMint : Option Pubkey := (r.before.ledger r.dest).tokenMint

/-- What the hop took out of its source. -/
def pulled : ℕ :=
  (r.before.ledger r.source).readTokenBalance - (r.after.ledger r.source).readTokenBalance

/-- What the hop added to its destination. -/
def credited : ℕ :=
  (r.after.ledger r.dest).readTokenBalance - (r.before.ledger r.dest).readTokenBalance

/-- What has been checked when a hop is over. -/
structure Ran (rt : Runtime) : Prop where
  size : 4 ≤ r.accounts.length
  owned : (r.before.ledger r.source).tokenOwner = some r.authority
  chained : ∃ m, r.sourceMint = some m ∧ ∀ prev ∈ r.before.prevDestMint, m = prev
  alone : smuggles r.before.ledger r.accounts r.authority = false
  minted : ∃ m, r.destMint = some m ∧ r.after.prevDestMint = some m
  called : ∃ ix, adapter r.leg.dexType r.accounts r.before.currentAmount = .ok ix ∧
    invoke rt ix r.accounts r.before.ledger = .ok r.after.ledger
  drawn : r.pulled ≤ r.before.currentAmount
  output : r.after.currentAmount = r.credited ∧ 0 < r.credited

/-- An account of the wallet stays one, or is empty. -/
def Keeps (A key : Pubkey) : Prop :=
  ∀ m ∈ (r.before.ledger key).tokenMint, (r.before.ledger key).Holds A m →
    (r.after.ledger key).Holds A m ∨ (r.after.ledger key).readTokenBalance = 0

instance (A key : Pubkey) : Decidable (r.Keeps A key) := inferInstanceAs (Decidable (∀ m ∈ _, _))

/-- What the program leaves to the wallet `A`, and to the programs it signs for. -/
structure Careful (A : Pubkey) : Prop where
  /-- The destination is a token account of the wallet. -/
  dest : ∀ m ∈ r.destMint, (r.before.ledger r.dest).Holds A m
  /-- The wallet is not its own token account. -/
  wallet : r.authority = A → ∀ m ∈ (r.before.ledger A).tokenMint, ¬ (r.before.ledger A).Holds A m
  /-- The source and the destination are not given away. -/
  source : r.authority = A → r.Keeps A r.source
  credit : r.authority = A → r.Keeps A r.dest

instance (A : Pubkey) : Decidable (r.Careful A) :=
  decidable_of_iff
    ((∀ m ∈ r.destMint, (r.before.ledger r.dest).Holds A m) ∧
      (r.authority = A → ∀ m ∈ (r.before.ledger A).tokenMint, ¬ (r.before.ledger A).Holds A m) ∧
      (r.authority = A → r.Keeps A r.source) ∧ (r.authority = A → r.Keeps A r.dest))
    ⟨fun ⟨dest, wallet, source, credit⟩ => ⟨dest, wallet, source, credit⟩,
      fun ⟨dest, wallet, source, credit⟩ => ⟨dest, wallet, source, credit⟩⟩

end HopRecord

section Hop

variable {rt : Runtime} {accounts : List AccountInfo} {leg : SwapLeg} {s s' : RouteState}

/-- A pass of the loop that goes well has made all its checks. -/
theorem runLeg_ran (ok : runLeg rt accounts leg s = .ok s') : HopRecord.Ran ⟨accounts, leg, s, s'⟩ rt := by
  simp only [runLeg, swap, bind_eq_ok] at ok
  obtain ⟨destMint, passed, ledger, ⟨ix, built, called⟩, finished⟩ := ok
  obtain ⟨size, -, -, owned, chained, alone, minted⟩ := beforeHop_spec passed
  split at finished
  · cases finished
  split at finished
  · cases finished
  rename_i drawn positive
  cases finished
  exact ⟨size, owned, chained, alone, ⟨destMint, minted, rfl⟩, ⟨ix, built, called⟩, Nat.not_lt.mp drawn,
    rfl, Nat.pos_of_ne_zero positive⟩

theorem holding_le {before after : Account} {A m : Pubkey}
    (kept : before.Holds A m → after.Holds A m ∧ before.readTokenBalance ≤ after.readTokenBalance) :
    before.holding A m ≤ after.holding A m := by
  unfold Account.holding
  split
  · rename_i held
    rw [if_pos (kept held).1]
    exact (kept held).2
  · exact Nat.zero_le _

namespace HopRecord

variable {r : HopRecord} {A m : Pubkey}

/-- A token account of the authority that a hop changes is the hop's source or its
destination. -/
theorem Ran.changes {key : Pubkey} (ran : r.Ran rt) (careful : r.Careful r.authority)
    (held : (r.before.ledger key).Holds r.authority m)
    (changed : r.after.ledger key ≠ r.before.ledger key) : key = r.source ∨ key = r.dest := by
  obtain ⟨ix, -, called⟩ := ran.called
  obtain ⟨a, member, rfl, writes⟩ := invoke_changes called changed
  rcases not_smuggled ran.alone member writes held with wallet | source | dest
  · have self : a.key = r.authority := congrArg AccountInfo.key wallet
    rw [self] at held
    exact absurd held (careful.wallet rfl m held.2.2)
  · exact .inl (congrArg AccountInfo.key source)
  · exact .inr (congrArg AccountInfo.key dest)

/-- A wallet loses nothing in a call that it does not sign. -/
theorem Ran.unsigned {key : Pubkey} (ran : r.Ran rt) (signed : rt.RespectsOwner A)
    (other : r.authority ≠ A) (held : (r.before.ledger key).Holds A m) :
    (r.after.ledger key).Holds A m ∧
      (r.before.ledger key).readTokenBalance ≤ (r.after.ledger key).readTokenBalance := by
  obtain ⟨ix, built, called⟩ := ran.called
  refine signed ix _ _ (invoke_called called) ?_ key m held
  by_contra signs
  exact other (adapter_signs built (by simpa using signs)).symm

/-- The destination gains what the hop credits. -/
theorem Ran.dest_gains {dst : Pubkey} (ran : r.Ran rt) (signed : rt.RespectsOwner A)
    (careful : r.Careful A) (minted : r.destMint = some dst) :
    (r.before.ledger r.dest).holding A m + (if m = dst then r.after.currentAmount else 0) ≤
      (r.after.ledger r.dest).holding A m := by
  have held : (r.before.ledger r.dest).Holds A dst := careful.dest dst minted
  obtain ⟨output, positive⟩ := ran.output
  rw [credited] at output positive
  have kept : (r.after.ledger r.dest).Holds A dst := by
    by_cases own : r.authority = A
    · rcases careful.credit own dst held.2.2 held with kept | empty
      · exact kept
      · omega
    · exact (ran.unsigned signed own held).1
  by_cases same : m = dst
  · subst same
    rw [Account.holding, Account.holding, if_pos held, if_pos kept, if_pos rfl]
    omega
  · have none : ¬ (r.before.ledger r.dest).Holds A m := fun other => same (other.mint_unique held)
    rw [Account.holding, if_neg none, if_neg same]
    exact Nat.zero_le _

/-- The source of the authority loses no more than the chained amount. -/
theorem Ran.source_pays {src : Pubkey} (ran : r.Ran rt) (careful : r.Careful r.authority)
    (minted : r.sourceMint = some src) :
    (r.before.ledger r.source).holding r.authority m ≤
      (r.after.ledger r.source).holding r.authority m +
        if m = src then r.before.currentAmount else 0 := by
  have drawn := ran.drawn
  rw [pulled] at drawn
  by_cases held : (r.before.ledger r.source).Holds r.authority m
  · have same : m = src := Option.some.inj (held.2.2.symm.trans minted)
    rw [Account.holding, if_pos held, if_pos same, Account.holding]
    rcases careful.source rfl m held.2.2 held with kept | empty
    · rw [if_pos kept]
      omega
    · omega
  · rw [Account.holding, if_neg held]
    exact Nat.zero_le _

/-- One hop is an exchange of the amount it was given for the amount it passes on. -/
theorem Ran.exchange {K : Finset Pubkey} {src dst : Pubkey} (ran : r.Ran rt)
    (signed : rt.RespectsOwner A) (careful : r.Careful A) (covers : r.dest ∈ K)
    (source : r.sourceMint = some src) (dest : r.destMint = some dst) :
    Exchange (total K A r.before.ledger) (total K A r.after.ledger) r.before.currentAmount src
      r.after.currentAmount dst := by
  refine exchange_of_accounts r.source covers fun k m => ?_
  by_cases destination : k = r.dest
  · subst destination
    rw [if_pos rfl]
    exact Nat.le_trans (ran.dest_gains signed careful dest) (Nat.le_add_right _ _)
  rw [if_neg destination, Nat.add_zero]
  by_cases own : r.authority = A
  · subst own
    by_cases pays : k = r.source
    · subst pays
      rw [if_pos rfl]
      exact ran.source_pays careful source
    · refine Nat.le_trans (holding_le fun held => ?_) (Nat.le_add_right _ _)
      have same : r.after.ledger k = r.before.ledger k := by
        by_contra changed
        exact (ran.changes careful held changed).elim pays destination
      rw [same]
      exact ⟨held, Nat.le_refl _⟩
  · exact Nat.le_trans (holding_le (ran.unsigned signed own)) (Nat.le_add_right _ _)

end HopRecord

end Hop

/-- Runs of the loop, hop by hop. -/
inductive Runs (rt : Runtime) (accounts : List AccountInfo) :
    RouteState → List HopRecord → RouteState → Prop
  | done (s : RouteState) : Runs rt accounts s [] s
  | hop {r : HopRecord} {rs : List HopRecord} {s s' : RouteState} (starts : r.before = s)
      (ran : r.Ran rt) (slice : ∀ a ∈ r.accounts, a ∈ accounts) (rest : Runs rt accounts r.after rs s') :
      Runs rt accounts s (r :: rs) s'

/-- A hop starts where the one before it ended: with a source of the same mint that
belongs to its authority, and no more than what was credited. -/
structure HopRecord.Continues (r next : HopRecord) : Prop where
  mint : next.sourceMint = r.destMint
  owned : (next.before.ledger next.source).tokenOwner = some next.authority
  pulled : next.pulled ≤ r.credited

/-- The hops of a run of the loop, up to the first that fails. -/
def trace (rt : Runtime) (accounts : List AccountInfo) : List HopArgs → RouteState → List HopRecord
  | [], _ => []
  | hop :: hops, s =>
    match hop.legs, runHop rt accounts s hop with
    | [leg], .ok after =>
      ⟨hopAccounts accounts s.offset leg.numAccounts, leg, s, after⟩ :: trace rt accounts hops after
    | _, _ => []

/-- The hops of a call of `process_instruction`. -/
def routeTrace (rt : Runtime) (accounts : Accounts) (data : Bytes) (start : Ledger) : List HopRecord :=
  match ExecuteRouteArgs.tryFromSlice data with
  | none => []
  | some args =>
    match args.hops with
    | .error _ => []
    | .ok hops => trace rt accounts.infos hops (.start args start)

section Route

variable {rt : Runtime} {accounts : List AccountInfo} {s s' : RouteState} {rs : List HopRecord} {A : Pubkey}

theorem runs_of_runHops {hops : List HopArgs} (ok : runHops rt accounts hops s = .ok s') :
    Runs rt accounts s (trace rt accounts hops s) s' ∧ (trace rt accounts hops s).length = hops.length := by
  induction hops generalizing s with
  | nil =>
    cases ok
    exact ⟨.done s', rfl⟩
  | cons hop hops ih =>
    obtain ⟨after, first, rest⟩ := bind_eq_ok.mp ok
    obtain ⟨runs, count⟩ := ih rest
    obtain ⟨leg, single, ran⟩ : ∃ leg, hop.legs = [leg] ∧
        runLeg rt (hopAccounts accounts s.offset leg.numAccounts) leg s = .ok after := by
      simp only [runHop] at first
      split at first
      · rename_i leg single
        split at first
        · cases first
        · exact ⟨leg, single, first⟩
      · cases first
    simp only [trace, single, first, List.length_cons, count, and_true]
    refine .hop rfl (runLeg_ran ran) (fun a member => ?_) runs
    exact List.mem_of_mem_drop (List.mem_of_mem_take member)

theorem Runs.continues (runs : Runs rt accounts s rs s') :
    rs.IsChain HopRecord.Continues ∧ ∀ first ∈ rs.head?, first.before = s := by
  induction runs with
  | done s => simp
  | @hop r rs s s' starts ran slice rest ih =>
    refine ⟨?_, by simpa using starts⟩
    cases rest with
    | done => exact .singleton r
    | @hop next rs s s' starts' ran' slice' rest' =>
      obtain ⟨m, source, chained⟩ := ran'.chained
      obtain ⟨m', dest, passed⟩ := ran.minted
      rw [starts'] at chained
      refine .cons_cons ⟨?_, ran'.owned, ?_⟩ ih.1
      · rw [source, dest, chained m' passed]
      · exact Nat.le_trans ran'.drawn (by rw [starts', ran.output.1])

/-- A run of hops is an exchange of what it starts with for what it ends with. -/
theorem Runs.exchange (runs : Runs rt accounts s rs s') (signed : rt.RespectsOwner A)
    (careful : ∀ r ∈ rs, r.Careful A) (nonempty : rs ≠ []) :
    ∃ first last src dst, rs.head? = some first ∧ rs.getLast? = some last ∧
      first.sourceMint = some src ∧ last.destMint = some dst ∧ (∀ prev ∈ s.prevDestMint, src = prev) ∧
      ∀ K : Finset Pubkey, (∀ a ∈ accounts, a.key ∈ K) →
        Exchange (total K A s.ledger) (total K A s'.ledger) s.currentAmount src s'.currentAmount dst := by
  induction runs with
  | done s => exact absurd rfl nonempty
  | @hop r rs s s' starts ran slice rest ih =>
    subst starts
    obtain ⟨src, source, chained⟩ := ran.chained
    obtain ⟨dst, dest, passed⟩ := ran.minted
    have destKey : ∀ K : Finset Pubkey, (∀ a ∈ accounts, a.key ∈ K) → r.dest ∈ K := by
      intro K covers
      have inside : 3 < r.accounts.length := ran.size
      have place : accountAt r.accounts 3 = r.accounts[3] := by simp [accountAt, inside]
      rw [HopRecord.dest, place]
      exact covers _ (slice _ (List.getElem_mem inside))
    have here := fun K covers => ran.exchange signed (careful r (by simp)) (destKey K covers) source dest
    by_cases last : rs = []
    · subst last
      cases rest
      exact ⟨r, r, src, dst, rfl, rfl, source, dest, chained, here⟩
    · obtain ⟨first, final, src', dst', head, final_, source', dest', chained', later⟩ :=
        ih (fun r member => careful r (List.mem_cons_of_mem _ member)) last
      have same : src' = dst := chained' dst passed
      subst same
      refine ⟨r, final, src, dst', rfl, ?_, source, dest', chained, fun K covers =>
        (here K covers).trans (later K covers)⟩
      rw [List.getLast?_cons, final_]
      rfl

end Route

/-- The mint of the first source. -/
def inputMint (hops : List HopRecord) : Option Pubkey := hops.head?.bind HopRecord.sourceMint

/-- The mint of the last destination. -/
def outputMint (hops : List HopRecord) : Option Pubkey := hops.getLast?.bind HopRecord.destMint

/-- A route is an exchange of `amount_in` for `min_amount_out`, whose hops continue each
other. -/
def ExchangesSafely (rt : Runtime) (accounts : Accounts) (data : Bytes) (start done : Ledger)
    (A : Pubkey) : Prop :=
  ∃ args input output, ExecuteRouteArgs.tryFromSlice data = some args ∧
    inputMint (routeTrace rt accounts data start) = some input ∧
    outputMint (routeTrace rt accounts data start) = some output ∧
    (∀ K : Finset Pubkey, (∀ a ∈ accounts.infos, a.key ∈ K) →
      Exchange (total K A start) (total K A done) args.amountIn input args.minAmountOut output) ∧
    (routeTrace rt accounts data start).IsChain HopRecord.Continues

/-- A route whose destinations are token accounts of the wallet, and whose calls give
none of its accounts away, takes no more than it was told to and brings at least what it
was told to; what a hop brings is what the next one takes. -/
theorem route_safe {rt : Runtime} {accounts : Accounts} {data : Bytes} {start done : Ledger}
    {A : Pubkey} (ok : processInstruction rt accounts data start = .ok done)
    (signed : rt.RespectsOwner A) (careful : ∀ r ∈ routeTrace rt accounts data start, r.Careful A) :
    ExchangesSafely rt accounts data start done A := by
  unfold processInstruction at ok
  split at ok
  · cases ok
  rename_i args read
  obtain ⟨hops, checked, ok⟩ := bind_eq_ok.mp ok
  obtain ⟨s, ran, finished⟩ := bind_eq_ok.mp ok
  have same : routeTrace rt accounts data start = trace rt accounts.infos hops (.start args start) := by
    simp [routeTrace, read, checked]
  rw [same] at careful
  obtain ⟨runs, count⟩ := runs_of_runHops ran
  have nonempty : trace rt accounts.infos hops (.start args start) ≠ [] := by
    rw [← List.length_pos_iff_ne_nil, count, List.length_pos_iff_ne_nil]
    exact hops_ne_nil checked
  obtain ⟨first, last, input, output, head, final, source, dest, -, exchange⟩ :=
    runs.exchange signed careful nonempty
  split at finished
  · cases finished
  rename_i enough
  cases finished
  refine ⟨args, input, output, read, ?_, ?_, fun K covers => ?_, ?_⟩
  · rw [same, inputMint, head]
    exact source
  · rw [same, outputMint, final]
    exact dest
  · exact (exchange K covers).weaken (Nat.not_lt.mp enough)
  · rw [same]
    exact runs.continues.1

/-- What one would like to hold of every route of a wallet: each bound for itself, and
each hop on the account that the one before it credited. -/
def RouteSafe (rt : Runtime) (accounts : Accounts) (data : Bytes) (start done : Ledger)
    (A : Pubkey) : Prop :=
  ∀ args input output, ExecuteRouteArgs.tryFromSlice data = some args →
    inputMint (routeTrace rt accounts data start) = some input →
    outputMint (routeTrace rt accounts data start) = some output →
    ∀ K : Finset Pubkey, (∀ a ∈ accounts.infos, a.key ∈ K) →
      total K A start input ≤ total K A done input + args.amountIn ∧
      total K A start output + args.minAmountOut ≤ total K A done output ∧
      (∀ m, m ≠ input → m ≠ output → total K A start m ≤ total K A done m) ∧
      (routeTrace rt accounts data start).IsChain fun r next => next.source = r.dest

section Examples

/-- A key that repeats one byte. -/
def key (n : UInt8) : Pubkey := List.replicate 32 n

/-- The wallet of the examples. -/
def wallet : Pubkey := key 1

def tokenAccount (mint owner : Pubkey) (amount : ℕ) : Account :=
  ⟨tokenProgram, mint ++ owner ++ toLeBytes 8 amount ++ List.replicate 93 0⟩

/-- A call for a route, on a chain where each exchange program writes to its accounts as
it is told to. -/
structure Example where
  ledger : List (Pubkey × Account)
  infos : List AccountInfo
  data : Bytes
  writes : Instruction → List (Pubkey × Account)

/-- Write to an account, if the instruction lets it. -/
def writeAccount (ix : Instruction) (ledger : Ledger) (write : Pubkey × Account) : Ledger :=
  if ix.writes write.1 then Function.update ledger write.1 write.2 else ledger

theorem writeAccount_frame {ix : Instruction} {writes : List (Pubkey × Account)} {ledger : Ledger}
    {k : Pubkey} (unwritten : ix.writes k = false) : writes.foldl (writeAccount ix) ledger k = ledger k := by
  induction writes generalizing ledger with
  | nil => rfl
  | cons write writes ih =>
    rw [List.foldl_cons, ih, writeAccount]
    split
    · rename_i written
      refine Function.update_of_ne ?_ _ _
      rintro rfl
      simp [unwritten] at written
    · rfl

namespace Example

variable (e : Example)

/-- The programs do nothing without the signature of the wallet. -/
def runtime : Runtime where
  call ix ledger := if ix.signs wallet then some ((e.writes ix).foldl (writeAccount ix) ledger) else none
  frame called := by
    intro k unwritten
    split at called
    · cases called
      exact writeAccount_frame unwritten
    · cases called

theorem runtime_respects : e.runtime.RespectsOwner wallet := by
  intro ix ledger after called unsigned
  simp [runtime, unsigned] at called

def start : Ledger := fun k => (e.ledger.lookup k).getD ⟨[], []⟩

def accounts : Accounts :=
  if shared : ∀ a ∈ e.infos, ∀ b ∈ e.infos, a.key = b.key → a = b then ⟨e.infos, shared⟩
  else ⟨[], by simp⟩

def hops : List HopRecord := routeTrace e.runtime e.accounts e.data e.start

/-- The accounts of the call. -/
def keys : Finset Pubkey := (e.accounts.infos.map AccountInfo.key).toFinset

/-- What the call returns. -/
def result : Except ProgramError Ledger := processInstruction e.runtime e.accounts e.data e.start

/-- The ledger it leaves. -/
def done : Ledger :=
  match e.result with
  | .ok done => done
  | .error _ => e.start

theorem result_ok {e : Example} (succeeds : e.result.toBool) :
    processInstruction e.runtime e.accounts e.data e.start = .ok e.done := by
  unfold done
  cases returned : e.result with
  | ok done => exact returned
  | error _ => simp [returned, Except.toBool] at succeeds

/-- The call goes well, the wallet is the authority throughout, and one of the bounds or
the order of the accounts is broken. -/
def breaks : Bool :=
  e.result.toBool && e.hops.all (·.authority = wallet) &&
    match ExecuteRouteArgs.tryFromSlice e.data, inputMint e.hops, outputMint e.hops with
    | some args, some input, some output =>
      !(total e.keys wallet e.start input ≤ total e.keys wallet e.done input + args.amountIn &&
        total e.keys wallet e.start output + args.minAmountOut ≤ total e.keys wallet e.done output &&
        decide (e.hops.IsChain fun r next => next.source = r.dest))
    | _, _, _ => false

/-- A call that goes well with the wallet as the authority throughout, and is not safe. -/
def Fails : Prop :=
  e.runtime.RespectsOwner wallet ∧
    processInstruction e.runtime e.accounts e.data e.start = .ok e.done ∧
    (∀ r ∈ e.hops, r.authority = wallet) ∧
    ¬ RouteSafe e.runtime e.accounts e.data e.start e.done wallet

theorem fails_of_breaks {e : Example} (broken : e.breaks) : e.Fails := by
  simp only [breaks, Bool.and_eq_true, List.all_eq_true, decide_eq_true_eq] at broken
  obtain ⟨⟨succeeds, own⟩, broken⟩ := broken
  refine ⟨e.runtime_respects, result_ok succeeds, own, fun safe => ?_⟩
  split at broken
  · rename_i args input output read first last
    obtain ⟨paid, got, -, chain⟩ := safe args input output read first last e.keys fun a member => by
      simpa [keys] using ⟨a, member, rfl⟩
    simp [paid, got, show e.hops.IsChain _ from chain] at broken
  · cases broken

end Example

/-- The accounts of a hop on Raydium, from one token account to another. -/
def raydiumAccounts (source dest : Pubkey) : List AccountInfo :=
  [⟨expectedDexProgram .raydiumAmmV4, false, false⟩, ⟨wallet, true, false⟩, ⟨source, false, true⟩,
    ⟨dest, false, true⟩, ⟨tokenProgram, false, false⟩, ⟨key 20, false, true⟩, ⟨key 21, false, false⟩,
    ⟨key 22, false, true⟩, ⟨key 23, false, true⟩]

/-- The accounts of a hop on DAMM V2, where the authority is writable. -/
def dammAccounts (source dest : Pubkey) : List AccountInfo :=
  [⟨expectedDexProgram .meteoraDammV2, false, false⟩, ⟨wallet, true, true⟩, ⟨source, false, true⟩,
    ⟨dest, false, true⟩, ⟨key 20, false, false⟩, ⟨key 21, false, true⟩, ⟨key 22, false, true⟩,
    ⟨key 23, false, true⟩] ++ List.replicate 5 ⟨tokenProgram, false, false⟩

/-- The arguments of a route with one path, each leg by its tag and number of accounts. -/
def routeArgsBytes (amountIn minAmountOut : ℕ) (legs : List (UInt8 × UInt8)) : Bytes :=
  toLeBytes 8 amountIn ++ toLeBytes 8 minAmountOut ++ toLeBytes 4 1 ++ toLeBytes 8 amountIn ++
    toLeBytes 4 1 ++ toLeBytes 4 legs.length ++
    legs.flatMap fun (tag, n) => toLeBytes 4 1 ++ [tag, n, 100]

/-- The mints of the examples. -/
def mintX : Pubkey := key 10
def mintY : Pubkey := key 11
def mintZ : Pubkey := key 12

/-- What the wallet has before a route that takes 10. -/
def purse : Account := tokenAccount mintX wallet 100

/-- One hop from the purse into `dest`, 10 for at least 9. -/
def oneHop (dest : Account) (writes : List (Pubkey × Account)) : Example where
  ledger := [(key 2, purse), (key 3, dest)]
  infos := raydiumAccounts (key 2) (key 3)
  data := routeArgsBytes 10 9 [(4, 9)]
  writes _ := writes

/-- The destination belongs to somebody else. -/
def givenAway : Example :=
  oneHop (tokenAccount mintY (key 99) 0)
    [(key 2, tokenAccount mintX wallet 90), (key 3, tokenAccount mintY (key 99) 9)]

/-- The destination is no token account, and only looks like one. -/
def forged : Example :=
  oneHop { tokenAccount mintY wallet 0 with owner := key 99 }
    [(key 2, tokenAccount mintX wallet 90), (key 3, { tokenAccount mintY wallet 9 with owner := key 99 })]

/-- The exchange gives the source another owner, and takes nothing out of it. -/
def reassigned : Example :=
  oneHop (tokenAccount mintY wallet 0)
    [(key 2, tokenAccount mintX (key 99) 100), (key 3, tokenAccount mintY wallet 9)]

/-- The route ends in the mint it starts from. -/
def roundTrip : Example :=
  oneHop (tokenAccount mintX wallet 0)
    [(key 2, tokenAccount mintX wallet 90), (key 3, tokenAccount mintX wallet 9)]

/-- The wallet is a token account of its own, which is emptied. -/
def ownAccount : Example where
  ledger := [(wallet, tokenAccount mintX wallet 500), (key 2, purse), (key 3, tokenAccount mintY wallet 0)]
  infos := dammAccounts (key 2) (key 3)
  data := routeArgsBytes 10 9 [(1, 13)]
  writes _ := [(wallet, tokenAccount mintX wallet 0), (key 2, tokenAccount mintX wallet 90),
    (key 3, tokenAccount mintY wallet 9)]

/-- Two hops, 10 for at least 8: the first into the account 3, the second from `second`,
where it leaves `left`. -/
def twoHops (second : Pubkey) (left : ℕ) : Example where
  ledger := [(key 2, purse), (key 3, tokenAccount mintY wallet 50), (key 4, tokenAccount mintY wallet 50),
    (key 5, tokenAccount mintZ wallet 0)]
  infos := raydiumAccounts (key 2) (key 3) ++ raydiumAccounts second (key 5)
  data := routeArgsBytes 10 8 [(4, 9), (4, 9)]
  writes ix :=
    if ix.writes (key 2) then
      [(key 2, tokenAccount mintX wallet 90), (key 3, tokenAccount mintY wallet 59)]
    else [(second, tokenAccount mintY wallet left), (key 5, tokenAccount mintZ wallet 8)]

/-- The second hop takes what the first one brought. -/
theorem route_safe_twoHops :
    ExchangesSafely (twoHops (key 3) 50).runtime (twoHops (key 3) 50).accounts (twoHops (key 3) 50).data
      (twoHops (key 3) 50).start (twoHops (key 3) 50).done wallet :=
  route_safe (Example.result_ok (by decide +kernel)) (twoHops (key 3) 50).runtime_respects
    (by decide +kernel)

/-- Six routes that the program lets through. The last one takes its second hop from
another account of the wallet. -/
theorem route_safe_fails : givenAway.Fails ∧ forged.Fails ∧ reassigned.Fails ∧ roundTrip.Fails ∧
    ownAccount.Fails ∧ (twoHops (key 4) 41).Fails := by
  refine ⟨?_, ?_, ?_, ?_, ?_, ?_⟩
  all_goals exact Example.fails_of_breaks (by decide +kernel)

end Examples

end RndRust.Thunder
