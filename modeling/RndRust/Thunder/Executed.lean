import RndRust.Lib.Chains
import RndRust.Thunder.Bundle
import RndRust.Thunder.Layout
import RndRust.Thunder.Safety

/-! A transaction of the engine, executed: its accounts are those of the user, they are there before a hop needs
them, and every hop spends what the hop before it brought. -/
namespace RndRust.Thunder
open Lib

section Ends

variable {e : Engine} {user : Pubkey} {mintPrograms : List (Pubkey × Pubkey)} {hop : RouteHop} {dexType : DexType}
  {metas : List AccountMeta}

/-- The user's account for a mint, under the token program that was detected for it. -/
def Engine.userAccount (e : Engine) (user : Pubkey) (mintPrograms : List (Pubkey × Pubkey)) (mint : Pubkey) : Pubkey :=
  e.ata user mint (Engine.mintProgram mintPrograms mint tokenProgram)

/-- What an adapter finds at its first places: the exchange, the user, and the accounts that pay and are paid. -/
structure Fronts (user source dest : Pubkey) (metas : List AccountMeta) : Prop where
  authority : (metas[1]?).map AccountMeta.pubkey = some user
  source : (metas[2]?).map AccountMeta.pubkey = some source
  dest : (metas[3]?).map AccountMeta.pubkey = some dest

theorem fronts_of_collected
    (collected : e.hopAccounts user mintPrograms hop = .ok (dexType, metas)) :
    Fronts user (e.userAccount user mintPrograms hop.inputMint) (e.userAccount user mintPrograms hop.outputMint) metas := by
  simp only [Engine.hopAccounts, bind_eq_ok] at collected
  obtain ⟨key, -, data, -, collected⟩ := collected
  split at collected
  all_goals simp only [bind_eq_ok, Except.ok.injEq, Prod.mk.injEq, reduceCtorEq] at collected
  · obtain ⟨_, made, -, rfl⟩ := collected
    simp only [Engine.collectDammV2Accounts, bind_eq_ok] at made
    obtain ⟨_, -, _, -, _, -, _, -, _, -, _, -, made⟩ := made
    obtain rfl := Except.ok.inj made
    exact ⟨rfl, rfl, rfl⟩
  · obtain ⟨_, -, _, -, _, -, _, -, _, made, -, rfl⟩ := collected
    simp only [Engine.collectDammV1Accounts, bind_eq_ok] at made
    obtain ⟨_, -, _, -, _, -, made⟩ := made
    split at made
    · cases made
    · simp only [bind_eq_ok] at made
      obtain ⟨_, -, _, -, _, -, _, -, _, -, _, -, _, -, made⟩ := made
      obtain rfl := Except.ok.inj made
      exact ⟨rfl, rfl, rfl⟩
  · obtain ⟨_, made, -, rfl⟩ := collected
    simp only [Engine.collectDlmmAccounts, bind_eq_ok] at made
    obtain ⟨state, -, made⟩ := made
    split at made
    · cases made
    · obtain rfl := Except.ok.inj made
      exact ⟨rfl, rfl, rfl⟩
  · obtain ⟨_, made, -, rfl⟩ := collected
    simp only [Engine.collectClmmAccounts, bind_eq_ok, mapError_eq_ok] at made
    obtain ⟨state, -, arrays, -, made⟩ := made
    obtain rfl := Except.ok.inj made
    exact ⟨rfl, rfl, rfl⟩
  · obtain ⟨_, made, -, rfl⟩ := collected
    simp only [Engine.collectRayV4Accounts, bind_eq_ok] at made
    obtain ⟨_, -, _, -, made⟩ := made
    obtain rfl := Except.ok.inj made
    exact ⟨rfl, rfl, rfl⟩
  · obtain ⟨_, -, _, -, _, made, -, rfl⟩ := collected
    simp only [Engine.collectPumpfunAccounts, bind_eq_ok] at made
    obtain ⟨_, -, _, -, _, -, _, -, _, -, made⟩ := made
    split at made
    · cases made
    · simp only [bind_eq_ok] at made
      obtain ⟨_, -, _, -, made⟩ := made
      obtain rfl := Except.ok.inj made
      exact ⟨rfl, rfl, rfl⟩

end Ends

section Traces

variable {rt : Runtime} {infos : List AccountInfo}

/-- The hops that are run are the first ones of the instruction, each on the accounts that stand in its place. -/
theorem trace_accounts (legs : List (SwapLeg × List AccountInfo)) (front : List AccountInfo) (s : RouteState)
    (placed : s.offset = front.length) (whole : infos = front ++ (legs.map Prod.snd).flatten)
    (counted : ∀ leg ∈ legs, leg.1.numAccounts = leg.2.length) :
    (trace rt infos (legs.map fun leg => ⟨[leg.1]⟩) s).map HopRecord.accounts <+: legs.map Prod.snd := by
  induction legs generalizing front s with
  | nil => exact List.prefix_refl []
  | cons leg legs ih =>
    obtain ⟨count, others⟩ := List.forall_mem_cons.mp counted
    rw [List.map_cons, List.flatten_cons, ← List.append_assoc] at whole
    have cut : hopAccounts infos s.offset leg.1.numAccounts = leg.2 := by
      rw [hopAccounts, whole, placed, count, List.append_assoc, List.drop_left, List.take_left]
    rw [List.map_cons, List.map_cons, trace]
    cases ran : runHop rt infos s ⟨[leg.1]⟩ with
    | error => exact List.nil_prefix
    | ok after =>
      have moved : after.offset = (front ++ leg.2).length := by
        simp only [runHop] at ran
        split at ran
        · cases ran
        · rw [runLeg_offset ran, placed, count, List.length_append]
      refine List.cons_prefix_cons.mpr ⟨cut, ih (front ++ leg.2) after moved whole others⟩

end Traces

/-- What the programs leave to a user: nothing moves without the user's signature, a token account that was created
for the user stays the user's until the cleanup closes it, and the wallet is none itself. -/
structure Runtime.Leaves (rt : Runtime) (e : Engine) (user : Pubkey) : Prop where
  respects : rt.RespectsOwner user
  creates : ∀ {mint program ledger after}, rt.call (e.createAta user mint program) ledger = some after →
    (after (e.ata user mint program)).Holds user mint
  keeps : ∀ {ix ledger after}, ix ≠ e.closeWsol user → rt.call ix ledger = some after →
    ∀ {mint program}, (ledger (e.ata user mint program)).Holds user mint →
      (after (e.ata user mint program)).Holds user mint
  wallet : ∀ {ix ledger after}, rt.call ix ledger = some after →
    (ledger user).isToken = false → (after user).isToken = false

/-- The accounts of a user for these mints are there, and the wallet is no token account. -/
structure Engine.Ready (e : Engine) (user : Pubkey) (mintPrograms : List (Pubkey × Pubkey)) (mints : List Pubkey)
    (ledger : Ledger) : Prop where
  held : ∀ mint ∈ mints, (ledger (e.userAccount user mintPrograms mint)).Holds user mint
  wallet : (ledger user).isToken = false

/-- A record of a hop on the accounts that were collected for it. -/
structure HopRecord.Fits (r : HopRecord) (e : Engine) (user : Pubkey) (mintPrograms : List (Pubkey × Pubkey))
    (hop : RouteHop) : Prop where
  authority : r.authority = user
  source : r.source = e.userAccount user mintPrograms hop.inputMint
  dest : r.dest = e.userAccount user mintPrograms hop.outputMint

section Hops

variable {rt : Runtime} {e : Engine} {user : Pubkey} {mintPrograms : List (Pubkey × Pubkey)} {mints : List Pubkey}
  {r : HopRecord} {hop : RouteHop} {ix : Instruction} {ledger after : Ledger} {infos : List AccountInfo}
  {hops : List RouteHop} {rs : List HopRecord} {s s' : RouteState}

theorem Engine.Ready.call (ready : e.Ready user mintPrograms mints ledger) (leaves : rt.Leaves e user)
    (other : ix ≠ e.closeWsol user) (called : rt.call ix ledger = some after) :
    e.Ready user mintPrograms mints after :=
  ⟨fun mint member => leaves.keeps other called (ready.held mint member), leaves.wallet called ready.wallet⟩

/-- No adapter calls with as few accounts as it takes to close one. -/
theorem adapter_ne_close {dexType : DexType} {accounts : List AccountInfo} {amountIn : ℕ}
    (built : adapter dexType accounts amountIn = .ok ix) : ix ≠ e.closeWsol user := by
  have many : 8 ≤ ix.accounts.length := by
    cases dexType with
    | meteoraDlmm | raydiumClmm =>
      rw [callDex_accounts built]
      simp only [List.length_append, List.length_map, List.length_cons, List.length_nil]
      omega
    | _ =>
      rw [callDex_accounts built]
      simp [Pumpfun.metas]
  rintro rfl
  simp [Engine.closeWsol, closeAccount] at many

theorem HopRecord.Ran.ready (ran : r.Ran rt) (leaves : rt.Leaves e user)
    (ready : e.Ready user mintPrograms mints r.before.ledger) : e.Ready user mintPrograms mints r.after.ledger := by
  obtain ⟨ix, built, called⟩ := ran.called
  exact ready.call leaves (adapter_ne_close built) (invoke_called called)

/-- Once they are there, the accounts stay there through all hops. -/
theorem Runs.ready (runs : Runs rt infos s rs s') (leaves : rt.Leaves e user)
    (ready : e.Ready user mintPrograms mints s.ledger) :
    ∀ r ∈ rs, e.Ready user mintPrograms mints r.before.ledger ∧ e.Ready user mintPrograms mints r.after.ledger := by
  induction runs with
  | done => exact fun _ none => nomatch none
  | hop starts ran _ _ ih =>
    subst starts
    have after := ran.ready leaves ready
    exact List.forall_mem_cons.mpr ⟨⟨ready, after⟩, ih after⟩

/-- A hop on the user's own accounts is one that the router program does not have to watch. -/
theorem HopRecord.Fits.careful (fits : r.Fits e user mintPrograms hop) (pays : hop.inputMint ∈ mints)
    (paid : hop.outputMint ∈ mints) (before : e.Ready user mintPrograms mints r.before.ledger)
    (after : e.Ready user mintPrograms mints r.after.ledger) : r.Careful user := by
  have source := before.held _ pays
  have dest := before.held _ paid
  rw [← fits.source] at source
  rw [← fits.dest] at dest
  refine ⟨fun m minted => ?_, fun _ m _ held => ?_, fun _ m _ held => .inl ?_, fun _ m _ held => .inl ?_⟩
  · obtain rfl : hop.outputMint = m := Option.some.inj (dest.2.2.symm.trans minted)
    exact dest
  · exact absurd held.1 (by simp [before.wallet])
  · obtain rfl := held.mint_unique source
    rw [fits.source]
    exact after.held _ pays
  · obtain rfl := held.mint_unique dest
    rw [fits.dest]
    exact after.held _ paid

/-- The mints of the accounts that a hop takes from and brings to. -/
theorem HopRecord.Fits.minted (fits : r.Fits e user mintPrograms hop) (pays : hop.inputMint ∈ mints)
    (paid : hop.outputMint ∈ mints) (before : e.Ready user mintPrograms mints r.before.ledger) :
    r.sourceMint = some hop.inputMint ∧ r.destMint = some hop.outputMint := by
  rw [HopRecord.sourceMint, HopRecord.destMint, fits.source, fits.dest]
  exact ⟨(before.held _ pays).2.2, (before.held _ paid).2.2⟩

/-- A chained run takes from the mint that the route starts with, and brings the one that it ends with. -/
theorem ends_of_minted {input output : Pubkey}
    (chained : Chain RouteHop.inputMint RouteHop.outputMint input output hops)
    (minted : List.Forall₂ (fun hop r => r.sourceMint = some hop.inputMint ∧ r.destMint = some hop.outputMint) hops rs) :
    (∀ first ∈ rs.head?, first.sourceMint = some input) ∧ ∀ last ∈ rs.getLast?, last.destMint = some output := by
  induction minted generalizing input with
  | nil => exact ⟨by simp, by simp⟩
  | @cons hop r hops rs first rest ih =>
    obtain ⟨rfl, chained⟩ := chained
    refine ⟨by simpa using first.1, ?_⟩
    cases rest with
    | nil =>
      obtain rfl := chained
      simpa using first.2
    | cons second others => exact (ih chained).2

/-- What a hop brings to an account, the next one takes from it. -/
theorem continues_of_fits {input output : Pubkey}
    (chained : Chain RouteHop.inputMint RouteHop.outputMint input output hops)
    (fits : List.Forall₂ (fun hop r => r.Fits e user mintPrograms hop) hops rs) :
    rs.IsChain fun r next => next.source = r.dest := by
  induction fits generalizing input with
  | nil => exact .nil
  | cons first rest ih =>
    cases rest with
    | nil => exact .singleton _
    | cons second others =>
      refine .cons_cons ?_ (ih chained.2)
      rw [second.source, first.dest, chained.2.1]

end Hops

section Setup

variable {rt : Runtime} {e : Engine} {user : Pubkey} {mintPrograms : List (Pubkey × Pubkey)} {ledger after : Ledger}
  {created kept mints : List Pubkey} {hops : List RouteHop} {ixs more : List Instruction}

theorem callAll_append :
    callAll rt (ixs ++ more) ledger = (callAll rt ixs ledger).bind (callAll rt more) := by
  induction ixs generalizing ledger with
  | nil => rfl
  | cons ix ixs ih =>
    rw [List.cons_append, callAll, callAll, Option.bind_assoc]
    exact Option.bind_congr fun _ _ => ih

theorem Engine.createAta_ne_close {mint program : Pubkey} : e.createAta user mint program ≠ e.closeWsol user := by
  simp [Engine.createAta, Engine.closeWsol, closeAccount]

/-- The accounts of the output mints are there after the loop that creates them, and the others still are. -/
theorem Engine.createOutputs_ready (leaves : rt.Leaves e user) (known : created ⊆ kept)
    (ready : e.Ready user mintPrograms kept ledger)
    (called : callAll rt (e.createOutputs user mintPrograms created hops) ledger = some after) :
    e.Ready user mintPrograms (kept ++ hops.map RouteHop.outputMint) after := by
  induction hops generalizing created kept ledger with
  | nil =>
    obtain rfl := Option.some.inj called
    rwa [List.map_nil, List.append_nil]
  | cons hop hops ih =>
    rw [Engine.createOutputs] at called
    split at called
    case isTrue old =>
      have others := ih known ready called
      refine ⟨fun mint member => ?_, others.wallet⟩
      rw [List.map_cons] at member
      rcases List.mem_append.mp member with member | member
      · exact others.held mint (List.mem_append_left _ member)
      · rcases List.mem_cons.mp member with rfl | member
        · exact others.held _ (List.mem_append_left _ (known old))
        · exact others.held mint (List.mem_append_right _ member)
    case isFalse new =>
      obtain ⟨next, first, called⟩ := Option.bind_eq_some_iff.mp called
      have there := leaves.creates first
      have still := ready.call leaves Engine.createAta_ne_close first
      rw [List.map_cons, List.append_cons]
      refine ih (List.append_subset.mpr ⟨fun m member => List.mem_append_left _ (known member), ?_⟩) ⟨?_, still.wallet⟩ called
      · exact fun m member => List.mem_append_right _ member
      · intro mint member
        rcases List.mem_append.mp member with member | member
        · exact still.held mint member
        · obtain rfl := List.mem_singleton.mp member
          exact there

theorem Engine.mintProgram_detected {mint : Pubkey} (classic : ∀ account ∈ e.store mint, account.owner ≠ token2022Program) :
    Engine.mintProgram (e.detectMintPrograms mints) mint tokenProgram = tokenProgram := by
  unfold Engine.mintProgram
  split
  case h_1 key program found =>
    have listed := List.mem_of_find?_eq_some found
    have same := List.find?_some found
    obtain ⟨other, -, pair⟩ := List.mem_map.mp listed
    obtain ⟨rfl, rfl⟩ := Prod.mk.inj pair
    obtain rfl := eq_of_beq same
    split
    case h_1 account stored => rw [if_neg (classic account stored)]
    case h_2 => rfl
  case h_2 => rfl

/-- When the setup is over, the user has an account for every mint of the route. -/
theorem Engine.setup_ready {amountIn : U64} {opts : SwapOptions} {input output : Pubkey}
    (chained : Chain RouteHop.inputMint RouteHop.outputMint input output hops) (routed : hops ≠ [])
    (leaves : rt.Leaves e user) (classic : ∀ account ∈ e.store Aggregator.wsol, account.owner ≠ token2022Program)
    (wallet : (ledger user).isToken = false)
    (funded : Engine.wraps hops opts = false →
      (ledger (e.userAccount user (e.detectMintPrograms (Engine.allMints hops)) input)).Holds user input)
    (called : callAll rt (e.setup user hops amountIn opts) ledger = some after) :
    e.Ready user (e.detectMintPrograms (Engine.allMints hops)) (input :: hops.map RouteHop.outputMint) after := by
  have starts := chained.head? routed
  unfold Engine.setup at called
  split at called
  case isTrue wraps =>
    obtain rfl : input = Aggregator.wsol := by
      obtain ⟨hop, head, rfl⟩ := Option.map_eq_some_iff.mp starts
      simp only [Engine.wraps, head, Option.any_some, Bool.and_eq_true, beq_iff_eq] at wraps
      exact wraps.2
    rw [callAll_append] at called
    obtain ⟨wrapped, wrapping, called⟩ := Option.bind_eq_some_iff.mp called
    simp only [callAll, Option.bind_eq_some_iff, Option.some.injEq, exists_eq_right] at wrapping
    obtain ⟨made, first, paid, second, third⟩ := wrapping
    have there : e.Ready user (e.detectMintPrograms (Engine.allMints hops)) [Aggregator.wsol] made := by
      refine ⟨?_, leaves.wallet first wallet⟩
      rw [List.forall_mem_singleton, Engine.userAccount, Engine.mintProgram_detected classic]
      exact leaves.creates first
    have paying := there.call leaves (by simp [transferIx, Engine.closeWsol, closeAccount]) second
    have synced := paying.call leaves (by simp [syncNative, Engine.closeWsol, closeAccount]) third
    exact Engine.createOutputs_ready leaves (List.Subset.refl _) synced called
  case isFalse plain =>
    have there : e.Ready user (e.detectMintPrograms (Engine.allMints hops)) [input] ledger :=
      ⟨by simpa using funded (by simpa using plain), wallet⟩
    exact Engine.createOutputs_ready leaves (List.nil_subset _) there called

end Setup

section Executed

variable {rt : Runtime} {e : Engine} {user : Pubkey} {hops : List RouteHop} {amountIn minAmountOut : U64}
  {ix : Instruction} {start done : Ledger} {accounts : Accounts} {data : Bytes} {args : ExecuteRouteArgs}

/-- What `process_instruction` has done when it succeeds: a run of all hops, and enough at its end. -/
theorem runs_of_processed (ok : processInstruction rt accounts data start = .ok done)
    (read : ExecuteRouteArgs.tryFromSlice data = some args) :
    ∃ s, s.ledger = done ∧ args.minAmountOut ≤ s.currentAmount ∧
      Runs rt accounts.infos (.start args start) (routeTrace rt accounts data start) s ∧
      ∃ hops, args.hops = .ok hops ∧ (routeTrace rt accounts data start).length = hops.length ∧
        routeTrace rt accounts data start = trace rt accounts.infos hops (.start args start) := by
  rw [processInstruction, read] at ok
  obtain ⟨hops, checked, ok⟩ := bind_eq_ok.mp ok
  obtain ⟨s, ran, finished⟩ := bind_eq_ok.mp ok
  have same : routeTrace rt accounts data start = trace rt accounts.infos hops (.start args start) := by
    simp [routeTrace, read, checked]
  obtain ⟨runs, count⟩ := runs_of_runHops ran
  split at finished
  · cases finished
  case isFalse enough =>
    obtain rfl := Except.ok.inj finished
    exact ⟨s, rfl, Nat.not_lt.mp enough, same ▸ runs, hops, checked, same ▸ count, same⟩

/-- The slices of a route that has been built, and the arguments that are read from its instruction. -/
theorem Engine.buildSwapInstruction_eq_ok (built : e.buildSwapInstruction hops user amountIn minAmountOut = .ok ix) :
    hops ≠ [] ∧ ∃ slices : List Slice,
      hops.mapM (e.hopAccounts user (e.detectMintPrograms (Engine.allMints hops))) = .ok slices ∧
      ix.accounts = (slices.map Prod.snd).flatten ∧
      ExecuteRouteArgs.tryFromSlice ix.data = some ⟨amountIn.val, minAmountOut.val, [amountIn.val],
        [⟨slices.map fun slice => ⟨[slice.leg]⟩⟩]⟩ := by
  unfold Engine.buildSwapInstruction at built
  split at built
  · cases built
  case isFalse routed =>
    unfold Engine.buildRouterInstruction at built
    obtain ⟨⟨args, all⟩, collected, built⟩ := bind_eq_ok.mp built
    obtain ⟨data, written, built⟩ := bind_eq_ok.mp built
    obtain ⟨programId, -, built⟩ := bind_eq_ok.mp built
    obtain rfl := Except.ok.inj built
    obtain ⟨slices, each, rfl, rfl, small⟩ := buildRouterHops_eq_ok collected
    refine ⟨routed, slices, each, rfl, tryFromSlice_toVec amountIn.isLt minAmountOut.isLt ?_ ?_ (okOr_eq_ok.mp written)⟩
    · exact List.forall_mem_singleton.mpr amountIn.isLt
    · simp only [List.mem_singleton, forall_eq, List.forall_mem_map]
      exact fun slice member => ⟨small slice member, show 100 < 256 by decide⟩

variable {load : Pubkey → AccountInfo} {keyed : ∀ key, (load key).key = key} {metas : List AccountMeta} {r : HopRecord}
  {mintPrograms : List (Pubkey × Pubkey)} {hop : RouteHop}

theorem accountAt_loaded {i : ℕ} {key : Pubkey} (keyed : ∀ key, (load key).key = key)
    (placed : (metas[i]?).map AccountMeta.pubkey = some key) :
    (accountAt (metas.map (load ·.pubkey)) i).key = key := by
  obtain ⟨m, found, rfl⟩ := Option.map_eq_some_iff.mp placed
  simp [accountAt, found, keyed]

/-- The hops that the router program runs are those of the route, on the user's accounts. -/
theorem fits_of_built (built : e.buildSwapInstruction hops user amountIn minAmountOut = .ok ix)
    (ok : processInstruction rt (ix.load load keyed) ix.data start = .ok done) :
    List.Forall₂ (fun hop r => r.Fits e user (e.detectMintPrograms (Engine.allMints hops)) hop) hops
      (routeTrace rt (ix.load load keyed) ix.data start) := by
  obtain ⟨routed, slices, each, listed, read⟩ := Engine.buildSwapInstruction_eq_ok built
  obtain ⟨s, -, -, runs, args, checked, count, traced⟩ := runs_of_processed ok read
  have some_args : slices.map (fun slice => (⟨[slice.leg]⟩ : HopArgs)) ≠ [] := by
    simpa using slices_ne_nil routed each
  obtain rfl := Except.ok.inj ((hops_single amountIn.isLt some_args).symm.trans checked)
  let legs := slices.map fun slice => (slice.leg, slice.2.map (load ·.pubkey))
  have whole : (ix.load load keyed).infos = [] ++ (legs.map Prod.snd).flatten := by
    simp only [legs, Instruction.load, listed, List.map_flatten, List.map_map]
    rfl
  have counted : ∀ leg ∈ legs, leg.1.numAccounts = leg.2.length := by
    simp only [legs, List.forall_mem_map, List.length_map]
    exact fun _ _ => rfl
  have front := @trace_accounts rt _ legs [] (.start ⟨amountIn.val, minAmountOut.val, [amountIn.val],
    [⟨slices.map fun slice => ⟨[slice.leg]⟩⟩]⟩ start) rfl whole counted
  have same : legs.map (fun leg => (⟨[leg.1]⟩ : HopArgs)) = slices.map fun slice => ⟨[slice.leg]⟩ := by
    rw [List.map_map]
    rfl
  rw [same] at front
  have all := front.eq_of_length (by simp only [← traced, count, legs, List.length_map])
  have fronts : List.Forall₂ (fun hop accounts => (accountAt accounts 1).key = user ∧
      (accountAt accounts 2).key = e.userAccount user (e.detectMintPrograms (Engine.allMints hops)) hop.inputMint ∧
      (accountAt accounts 3).key = e.userAccount user (e.detectMintPrograms (Engine.allMints hops)) hop.outputMint)
      hops (legs.map Prod.snd) := by
    rw [List.map_map, List.forall₂_map_right_iff]
    refine (forall₂_of_mapM each).imp fun hop slice collected => ?_
    have fronts := fronts_of_collected collected
    exact ⟨accountAt_loaded keyed fronts.authority, accountAt_loaded keyed fronts.source,
      accountAt_loaded keyed fronts.dest⟩
  rw [← all, List.forall₂_map_right_iff] at fronts
  rw [traced]
  exact fronts.imp fun hop r front => ⟨front.1, front.2.1, front.2.2⟩

/-- A transaction that the engine builds for a chained route and that the chain executes exchanges at most the amount
for at least the minimum, whatever the exchanges do with the accounts they are given. It runs every hop of the route,
and each hop spends from the account that the hop before it paid into. -/
theorem executed_safe {input output : Pubkey} {opts : SwapOptions} {bundle : SwapIxBundle} {ledger ready swapped : Ledger}
    (built : e.buildSwapInstructions user hops amountIn minAmountOut opts = .ok bundle)
    (chained : Chain RouteHop.inputMint RouteHop.outputMint input output hops)
    (leaves : rt.Leaves e user) (classic : ∀ account ∈ e.store Aggregator.wsol, account.owner ≠ token2022Program)
    (wallet : (ledger user).isToken = false)
    (funded : Engine.wraps hops opts = false →
      (ledger (e.userAccount user (e.detectMintPrograms (Engine.allMints hops)) input)).Holds user input)
    (executed : bundle.execute rt load keyed ledger = some (ready, swapped, done)) :
    let hopsRun := routeTrace rt (bundle.swap.load load keyed) bundle.swap.data ready
    (∀ K : Finset Pubkey, (∀ m ∈ bundle.swap.accounts, m.pubkey ∈ K) →
      Exchange (total K user ready) (total K user swapped) amountIn.val input minAmountOut.val output) ∧
    hopsRun.length = hops.length ∧ hopsRun.IsChain fun r next => next.source = r.dest := by
  obtain ⟨swap, made, built⟩ := bind_eq_ok.mp built
  obtain rfl := Except.ok.inj built
  simp only [SwapIxBundle.execute, Option.bind_eq_bind, Option.bind_eq_some_iff, Option.some.injEq, Prod.mk.injEq] at executed
  obtain ⟨ready, called, swapped, ok, _, -, rfl, rfl, rfl⟩ := executed
  replace ok := toOption_eq_some.mp ok
  obtain ⟨routed, slices, -, -, read⟩ := Engine.buildSwapInstruction_eq_ok made
  have there := Engine.setup_ready chained routed leaves classic wallet funded called
  have fits := @fits_of_built _ _ _ _ _ _ _ _ _ load keyed made ok
  obtain ⟨s, rfl, enough, runs, -⟩ := runs_of_processed ok read
  refine ⟨fun K covers => ?_, fits.length_eq.symm, continues_of_fits chained fits⟩
  have pays : ∀ hop ∈ hops, hop.inputMint ∈ input :: hops.map RouteHop.outputMint := fun hop member =>
    chained.source_mem member
  have paid : ∀ hop ∈ hops, hop.outputMint ∈ input :: hops.map RouteHop.outputMint := fun hop member =>
    List.mem_cons_of_mem _ (List.mem_map_of_mem member)
  have stays := runs.ready leaves there
  have careful : ∀ r ∈ routeTrace rt (swap.load load keyed) swap.data ready, r.Careful user := by
    intro r member
    obtain ⟨hop, listed, fit⟩ := exists_of_forall₂ fits member
    exact fit.careful (pays hop listed) (paid hop listed) (stays r member).1 (stays r member).2
  have minted : List.Forall₂ (fun hop r => r.sourceMint = some hop.inputMint ∧ r.destMint = some hop.outputMint) hops
      (routeTrace rt (swap.load load keyed) swap.data ready) := by
    refine List.forall₂_iff_get.mpr ⟨fits.length_eq, fun i left right => ?_⟩
    have fit := (List.forall₂_iff_get.mp fits).2 i left right
    exact fit.minted (pays _ (List.get_mem _ _)) (paid _ (List.get_mem _ _)) (stays _ (List.get_mem _ _)).1
  obtain ⟨source, dest⟩ := ends_of_minted chained minted
  have nonempty : routeTrace rt (swap.load load keyed) swap.data ready ≠ [] := by
    rw [← List.length_pos_iff_ne_nil, ← fits.length_eq, List.length_pos_iff_ne_nil]
    exact routed
  obtain ⟨first, last, src, dst, head, final, pulled, brought, -, exchange⟩ :=
    runs.exchange leaves.respects careful nonempty
  obtain rfl : input = src := Option.some.inj ((source first head).symm.trans pulled)
  obtain rfl : output = dst := Option.some.inj ((dest last final).symm.trans brought)
  have covered : ∀ a ∈ (swap.load load keyed).infos, a.key ∈ K := by
    simp only [Instruction.load, List.forall_mem_map, keyed]
    exact covers
  exact (exchange K covered).weaken enough

end Executed

section Examples

/-- Set accounts of the wallet to these amounts, each at the address of its mint, if the wallet signs. -/
def pay (pays : List (Pubkey × ℕ)) (ix : Instruction) (ledger : Ledger) : Option Ledger :=
  if ix.signs wallet ∧ ∀ p ∈ pays, ix.writes p.1 = true ∧ p.1.length = 32 ∧ p.1 ≠ wallet then
    some fun key =>
      match pays.find? fun p => p.1 == key with
      | some p => tokenAccount key wallet p.2
      | none => ledger key
  else none

theorem pay_spec {pays : List (Pubkey × ℕ)} {ix : Instruction} {ledger after : Ledger}
    (paid : pay pays ix ledger = some after) :
    ix.signs wallet ∧ ∀ key, after key = ledger key ∨
      ix.writes key = true ∧ key.length = 32 ∧ key ≠ wallet ∧ ∃ amount, after key = tokenAccount key wallet amount := by
  unfold pay at paid
  split at paid
  case isFalse => cases paid
  case isTrue allowed =>
    obtain rfl := Option.some.inj paid
    refine ⟨allowed.1, fun key => ?_⟩
    dsimp only
    split
    case h_1 p found =>
      obtain rfl : p.1 = key := by simpa using List.find?_some found
      obtain ⟨writes, long, other⟩ := allowed.2 p (List.mem_of_find?_eq_some found)
      exact .inr ⟨writes, long, other, p.2, rfl⟩
    case h_2 => exact .inl rfl

def tellers (pays : Instruction → List (Pubkey × ℕ)) : Runtime where
  call ix ledger := pay (pays ix) ix ledger
  frame paid key unwritten := by
    rcases (pay_spec paid).2 key with same | ⟨writes, -⟩
    · exact same
    · simp [unwritten] at writes

theorem tokenAccount_holds {mint : Pubkey} {amount : ℕ} (long : mint.length = 32) :
    (tokenAccount mint wallet amount).Holds wallet mint := by
  have full : ¬(tokenAccount mint wallet amount).data.length < tokenAccountMinLen := by
    simp [tokenAccount, tokenAccountMinLen, long, wallet, key]
  refine ⟨by simp [Account.isToken, tokenAccount], ?_, ?_⟩
  · rw [Account.tokenOwner, if_neg full]
    simp [tokenAccount, long, wallet, key]
  · rw [Account.tokenMint, if_neg full]
    simp [tokenAccount, long]

/-- The programs create the accounts that they are told to, and the exchange takes 1000 for 950. -/
def oneTeller (ix : Instruction) : List (Pubkey × ℕ) :=
  if ix.data = [1] then ((ix.accounts[1]?).map fun m => (m.pubkey, 0)).toList
  else
    match ix.accounts with
    | [_, _, _, _, _, source, dest, _] => [(source.pubkey, 0), (dest.pubkey, 950)]
    | _ => []

theorem tellers_leaves : (tellers oneTeller).Leaves onePool wallet where
  respects ix ledger after paid unsigned := by
    have signs := (pay_spec paid).1
    simp [unsigned] at signs
  creates {mint program ledger after} paid := by
    have told : oneTeller (onePool.createAta wallet mint program) = [(mint, 0)] := rfl
    simp only [tellers, told, pay] at paid
    split at paid
    case isFalse => cases paid
    case isTrue allowed =>
      obtain rfl := Option.some.inj paid
      have found : ([(mint, 0)] : List (Pubkey × ℕ)).find? (fun p => p.1 == mint) = some (mint, 0) := by simp
      have long := (List.forall_mem_singleton.mp allowed.2).2.1
      show Account.Holds (match [(mint, 0)].find? fun p => p.1 == mint with
        | some p => tokenAccount mint wallet p.2
        | none => ledger mint) wallet mint
      rw [found]
      exact tokenAccount_holds long
  keeps {ix ledger after} _ paid {mint program} held := by
    rcases (pay_spec paid).2 mint with same | ⟨-, long, -, amount, set⟩
    · exact (congrArg (Account.Holds · wallet mint) same).mpr held
    · exact (congrArg (Account.Holds · wallet mint) set).mpr (tokenAccount_holds long)
  wallet {ix ledger after} paid plain := by
    rcases (pay_spec paid).2 wallet with same | ⟨-, -, other, -⟩
    · exact (congrArg Account.isToken same).trans plain
    · exact absurd rfl other

/-- A wallet with 1000 of one mint. -/
def oneMint (address : Pubkey) : Account :=
  if address = key 10 then tokenAccount (key 10) wallet 1000 else ⟨[], []⟩

def loaded (address : Pubkey) : AccountInfo := ⟨address, address == wallet, true⟩

theorem executed_safe_hop : ∃ bundle ready swapped done,
    onePool.buildSwapInstructions wallet [⟨"7", "Raydium AMM V4", key 10, key 11⟩] 1000 900 {} = .ok bundle ∧
    bundle.execute (tellers oneTeller) loaded (fun _ => rfl) oneMint = some (ready, swapped, done) ∧
    Exchange (total (bundle.swap.accounts.map AccountMeta.pubkey).toFinset wallet ready)
      (total (bundle.swap.accounts.map AccountMeta.pubkey).toFinset wallet swapped) 1000 (key 10) 900 (key 11) := by
  have runs : ((onePool.buildSwapInstructions wallet [⟨"7", "Raydium AMM V4", key 10, key 11⟩] 1000 900 {}).toOption.bind
      fun bundle => (bundle.execute (tellers oneTeller) loaded (fun _ => rfl) oneMint).map (bundle, ·)).isSome := by
    decide +kernel
  obtain ⟨⟨_, ready, swapped, done⟩, runs⟩ := Option.isSome_iff_exists.mp runs
  obtain ⟨bundle, built, executed⟩ := Option.bind_eq_some_iff.mp runs
  simp only [Option.map_eq_some_iff, Prod.mk.injEq] at executed
  obtain ⟨_, executed, -, rfl⟩ := executed
  replace built := toOption_eq_some.mp built
  refine ⟨bundle, ready, swapped, done, built, executed, ?_⟩
  refine (executed_safe built ⟨rfl, rfl⟩ tellers_leaves ?_ rfl (fun _ => ?_) executed).1 _ ?_
  · rintro _ ⟨⟩
    decide
  · exact tokenAccount_holds rfl
  · exact fun m member => List.mem_toFinset.mpr (List.mem_map_of_mem member)

end Examples

end RndRust.Thunder
