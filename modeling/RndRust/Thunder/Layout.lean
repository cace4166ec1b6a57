import RndRust.Thunder.Swap

/-! The engine lays out the accounts of a route, and the router program cuts them apart again: what is
read back is what was written, and every hop gets the accounts that were collected for it. -/
namespace RndRust.Thunder
open Lib Clmm Dlmm

section Borsh

variable {α : Type} {read : Reader α} {write : α → Option Bytes} {xs : List α} {elements : List Bytes} {rest : Bytes}

theorem readInt_toLeBytes {width n : ℕ} (fits : n < 256 ^ width) :
    readInt width (toLeBytes width n ++ rest) = some (n, rest) := by
  have long : width ≤ (toLeBytes width n ++ rest).length := by simp
  rw [readInt, if_pos long, List.take_left' length_toLeBytes, List.drop_left' length_toLeBytes,
    fromLeBytes_toLeBytes fits]

/-- What has been written is read back, whatever follows it. -/
def ReadsBack (read : Reader α) (write : α → Option Bytes) (x : α) : Prop :=
  ∀ {bytes}, write x = some bytes → ∀ rest, read (bytes ++ rest) = some (x, rest)

theorem readMany_written (each : ∀ x ∈ xs, ReadsBack read write x) (written : xs.mapM write = some elements) :
    readMany read xs.length (elements.flatten ++ rest) = some (xs, rest) := by
  induction xs generalizing elements with
  | nil =>
    obtain rfl : [] = elements := by simpa using written
    rfl
  | cons x xs ih =>
    obtain ⟨first, others⟩ := List.forall_mem_cons.mp each
    rw [List.mapM_cons] at written
    obtain ⟨bytes, one, written⟩ := Option.bind_eq_some_iff.mp written
    obtain ⟨more, several, written⟩ := Option.bind_eq_some_iff.mp written
    obtain rfl := Option.some.inj written
    rw [List.length_cons, readMany, List.flatten_cons, List.append_assoc, first one]
    simp only [Option.bind_eq_bind, Option.bind_some]
    rw [ih others several]
    rfl

theorem readVec_writeVec (each : ∀ x ∈ xs, ReadsBack read write x) : ReadsBack (readVec read) (writeVec write) xs := by
  intro bytes written rest
  unfold writeVec at written
  split at written
  · cases written
  case isFalse short =>
    obtain ⟨elements, several, written⟩ := Option.bind_eq_some_iff.mp written
    obtain rfl := Option.some.inj written
    have fits : xs.length < 256 ^ 4 := by
      have : xs.length < 2 ^ 32 := Nat.lt_of_not_le short
      omega
    rw [readVec, List.append_assoc, readInt_toLeBytes fits]
    simp only [Option.bind_eq_bind, Option.bind_some]
    exact readMany_written each several

theorem ofTag_toTag (dexType : DexType) : DexType.ofTag dexType.toTag = some dexType := by
  cases dexType <;> rfl

/-- The numbers of a leg are bytes. -/
def SwapLeg.Bytewise (leg : SwapLeg) : Prop := leg.numAccounts < 256 ∧ leg.weight < 256

theorem SwapLeg.reads_back {leg : SwapLeg} (bytewise : leg.Bytewise) : ReadsBack SwapLeg.read SwapLeg.write leg := by
  rintro _ ⟨⟩ rest
  have tag : leg.dexType.toTag < 256 ^ 1 := by cases leg.dexType <;> decide
  rw [SwapLeg.read, List.append_assoc, List.append_assoc, readInt_toLeBytes tag]
  simp only [Option.bind_eq_bind, Option.bind_some, ofTag_toTag]
  rw [readInt_toLeBytes (bytewise.1.trans_eq (Nat.pow_one 256).symm)]
  simp only [Option.bind_some]
  rw [readInt_toLeBytes (bytewise.2.trans_eq (Nat.pow_one 256).symm)]
  rfl

theorem HopArgs.reads_back {hop : HopArgs} (bytewise : ∀ leg ∈ hop.legs, leg.Bytewise) :
    ReadsBack HopArgs.read HopArgs.write hop := by
  intro bytes written rest
  have legs := readVec_writeVec (fun leg member => SwapLeg.reads_back (bytewise leg member)) written rest
  rw [HopArgs.read, legs]
  rfl

theorem PathArgs.reads_back {path : PathArgs} (bytewise : ∀ hop ∈ path.hops, ∀ leg ∈ hop.legs, leg.Bytewise) :
    ReadsBack PathArgs.read PathArgs.write path := by
  intro bytes written rest
  have hops := readVec_writeVec (fun hop member => HopArgs.reads_back (bytewise hop member)) written rest
  rw [PathArgs.read, hops]
  rfl

/-- The router program reads the arguments that the engine has written. -/
theorem tryFromSlice_toVec {args : ExecuteRouteArgs} {data : Bytes} (amountIn : args.amountIn < 2 ^ 64)
    (minAmountOut : args.minAmountOut < 2 ^ 64) (amounts : ∀ a ∈ args.amounts, a < 2 ^ 64)
    (bytewise : ∀ path ∈ args.paths, ∀ hop ∈ path.hops, ∀ leg ∈ hop.legs, leg.Bytewise)
    (written : args.toVec = some data) : ExecuteRouteArgs.tryFromSlice data = some args := by
  unfold ExecuteRouteArgs.toVec at written
  obtain ⟨first, shares, written⟩ := Option.bind_eq_some_iff.mp written
  obtain ⟨second, ways, written⟩ := Option.bind_eq_some_iff.mp written
  obtain rfl := Option.some.inj written
  have numbers : ∀ a ∈ args.amounts, ReadsBack (readInt 8) (fun a => some (toLeBytes 8 a)) a := by
    rintro a member _ ⟨⟩ rest
    exact readInt_toLeBytes (by have := amounts a member; omega)
  have paths := readVec_writeVec (fun path member => PathArgs.reads_back (bytewise path member)) ways []
  rw [List.append_nil] at paths
  rw [ExecuteRouteArgs.tryFromSlice, List.append_assoc, List.append_assoc, readInt_toLeBytes (by omega)]
  simp only [Option.bind_eq_bind, Option.bind_some]
  rw [readInt_toLeBytes (by omega)]
  simp only [Option.bind_some]
  rw [readVec_writeVec numbers shares]
  simp only [Option.bind_some]
  rw [paths]
  rfl

end Borsh

section Counts

variable {e : Engine} {metas : List AccountMeta} {poolData : Bytes}

theorem remainingFrom_length_le {find : FindProgramAddress} {pool : RaydiumClmmPool} {poolId : Pubkey} {isBuy : Bool}
    {extensionData : Option Bytes} {steps wanted : ℕ} {searchPos : ℤ} {arrays : List Pubkey}
    (found : remainingFrom find pool poolId isBuy extensionData steps searchPos wanted = some arrays) :
    arrays.length ≤ wanted := by
  induction steps generalizing searchPos wanted arrays with
  | zero =>
    cases wanted with
    | zero =>
      obtain rfl := Option.some.inj found
      exact le_rfl
    | succ wanted => cases found
  | succ steps ih =>
    cases wanted with
    | zero =>
      obtain rfl := Option.some.inj found
      exact le_rfl
    | succ wanted =>
      simp only [remainingFrom] at found
      split at found
      · obtain rfl := Option.some.inj found
        exact Nat.zero_le _
      · split at found
        · obtain ⟨others, further, rfl⟩ := Option.map_eq_some_iff.mp found
          exact Nat.succ_le_succ (ih further)
        · exact ih found

theorem computeClmmRemainingAccounts_length_le {find : FindProgramAddress} {pool : RaydiumClmmPool} {poolId : Pubkey}
    {isBuy : Bool} {extensionData : Option Bytes} {steps : ℕ} {arrays : List Pubkey}
    (found : computeClmmRemainingAccounts find pool poolId isBuy extensionData steps = .ok arrays) :
    arrays.length ≤ 3 := by
  unfold computeClmmRemainingAccounts at found
  split at found
  · cases found
  · split at found
    · cases found
    · cases found
    case h_3 searched =>
      obtain rfl := Except.ok.inj found
      exact remainingFrom_length_le searched

theorem binArraysFrom_length_le {bitmap : Fin 16 → U64} {swapForY : Bool} {pool : Pubkey} {steps wanted : ℕ} {idx : ℤ} :
    (e.binArraysFrom bitmap swapForY pool steps idx wanted).length ≤ wanted := by
  induction steps generalizing idx wanted with
  | zero => cases wanted <;> simp [Engine.binArraysFrom]
  | succ steps ih =>
    cases wanted with
    | zero => simp [Engine.binArraysFrom]
    | succ wanted =>
      simp only [Engine.binArraysFrom]
      split
      · exact Nat.zero_le _
      · exact Nat.succ_le_succ ih
      · exact ih

theorem mapError_eq_ok {ε δ α : Type} {f : ε → δ} {result : Except ε α} {a : α} :
    result.mapError f = .ok a ↔ result = .ok a := by
  cases result <;> simp [Except.mapError]

variable {pool user tokenIn tokenOut inputMint inProgram outProgram : Pubkey}

theorem collectDammV2Accounts_length
    (collected : e.collectDammV2Accounts poolData pool user tokenIn tokenOut = .ok metas) : metas.length = 13 := by
  simp only [Engine.collectDammV2Accounts, bind_eq_ok] at collected
  obtain ⟨_, -, _, -, _, -, _, -, _, -, _, -, collected⟩ := collected
  obtain rfl := Except.ok.inj collected
  rfl

theorem collectDammV1Accounts_length {aVaultData bVaultData : Bytes}
    (collected : Engine.collectDammV1Accounts poolData pool user tokenIn tokenOut inputMint aVaultData bVaultData
      = .ok metas) : metas.length = 16 := by
  simp only [Engine.collectDammV1Accounts, bind_eq_ok] at collected
  obtain ⟨_, -, _, -, _, -, collected⟩ := collected
  split at collected
  · cases collected
  · simp only [bind_eq_ok] at collected
    obtain ⟨_, -, _, -, _, -, _, -, _, -, _, -, _, -, collected⟩ := collected
    obtain rfl := Except.ok.inj collected
    rfl

theorem collectDlmmAccounts_length {bitmapExt : Option Pubkey}
    (collected : e.collectDlmmAccounts poolData pool user tokenIn tokenOut inputMint inProgram outProgram bitmapExt
      = .ok metas) : metas.length ≤ 19 := by
  simp only [Engine.collectDlmmAccounts, bind_eq_ok] at collected
  obtain ⟨state, -, collected⟩ := collected
  split at collected
  · cases collected
  · obtain rfl := Except.ok.inj collected
    rw [List.length_append, List.length_map]
    exact Nat.add_le_add_left binArraysFrom_length_le 16

theorem collectClmmAccounts_length {bitmapExtData : Option Bytes}
    (collected : e.collectClmmAccounts poolData pool user tokenIn tokenOut inputMint bitmapExtData = .ok metas) :
    metas.length ≤ 18 := by
  simp only [Engine.collectClmmAccounts, bind_eq_ok, mapError_eq_ok] at collected
  obtain ⟨state, -, arrays, found, collected⟩ := collected
  obtain rfl := Except.ok.inj collected
  rw [List.length_append, List.length_map]
  exact Nat.add_le_add_left (computeClmmRemainingAccounts_length_le found) 15

theorem collectRayV4Accounts_length
    (collected : Engine.collectRayV4Accounts poolData pool user tokenIn tokenOut = .ok metas) : metas.length = 9 := by
  simp only [Engine.collectRayV4Accounts, bind_eq_ok] at collected
  obtain ⟨_, -, _, -, collected⟩ := collected
  obtain rfl := Except.ok.inj collected
  rfl

theorem collectPumpfunAccounts_length {config : Bytes}
    (collected : e.collectPumpfunAccounts poolData pool user tokenIn tokenOut inputMint inProgram outProgram config
      = .ok metas) : metas.length ≤ 25 := by
  simp only [Engine.collectPumpfunAccounts, bind_eq_ok] at collected
  obtain ⟨_, -, _, -, _, -, _, -, _, -, collected⟩ := collected
  split at collected
  · cases collected
  · simp only [bind_eq_ok] at collected
    obtain ⟨_, -, _, -, collected⟩ := collected
    obtain rfl := Except.ok.inj collected
    simp only [List.length_append]
    split <;> simp

/-- No hop has more accounts than one byte counts. -/
theorem hopAccounts_length {mintPrograms : List (Pubkey × Pubkey)} {hop : RouteHop} {dexType : DexType}
    (collected : e.hopAccounts user mintPrograms hop = .ok (dexType, metas)) : metas.length ≤ 25 := by
  simp only [Engine.hopAccounts, bind_eq_ok] at collected
  obtain ⟨key, -, data, -, collected⟩ := collected
  split at collected
  all_goals simp only [bind_eq_ok, Except.ok.injEq, Prod.mk.injEq, reduceCtorEq] at collected
  · obtain ⟨_, made, -, rfl⟩ := collected
    exact (collectDammV2Accounts_length made).trans_le (by decide)
  · obtain ⟨_, -, _, -, _, -, _, -, _, made, -, rfl⟩ := collected
    exact (collectDammV1Accounts_length made).trans_le (by decide)
  · obtain ⟨_, made, -, rfl⟩ := collected
    exact (collectDlmmAccounts_length made).trans (by decide)
  · obtain ⟨_, made, -, rfl⟩ := collected
    exact (collectClmmAccounts_length made).trans (by decide)
  · obtain ⟨_, made, -, rfl⟩ := collected
    exact (collectRayV4Accounts_length made).trans_le (by decide)
  · obtain ⟨_, -, _, -, _, made, -, rfl⟩ := collected
    exact collectPumpfunAccounts_length made

end Counts

section Slices

variable {e : Engine} {user : Pubkey} {mintPrograms : List (Pubkey × Pubkey)} {hops : List RouteHop}
  {infos : List AccountInfo}

/-- What the engine collects for a hop. -/
abbrev Slice := DexType × List AccountMeta

/-- The leg that announces all accounts of a slice. -/
def Slice.leg (slice : Slice) : SwapLeg := ⟨slice.1, slice.2.length, 100⟩

theorem buildRouterHops_eq_ok {args : List HopArgs} {all : List AccountMeta}
    (built : e.buildRouterHops user mintPrograms hops = .ok (args, all)) :
    ∃ slices : List Slice, hops.mapM (e.hopAccounts user mintPrograms) = .ok slices ∧
      all = (slices.map Prod.snd).flatten ∧ args = slices.map (fun slice => ⟨[slice.leg]⟩) ∧
      ∀ slice ∈ slices, slice.2.length < 256 := by
  induction hops generalizing args all with
  | nil =>
    obtain ⟨rfl, rfl⟩ := Prod.mk.inj (Except.ok.inj built)
    exact ⟨[], rfl, rfl, rfl, fun _ other => nomatch other⟩
  | cons hop hops ih =>
    rw [Engine.buildRouterHops] at built
    obtain ⟨⟨dexType, metas⟩, collected, built⟩ := bind_eq_ok.mp built
    obtain ⟨⟨more, others⟩, further, built⟩ := bind_eq_ok.mp built
    obtain ⟨rfl, rfl⟩ := Prod.mk.inj (Except.ok.inj built)
    obtain ⟨slices, each, rfl, rfl, small⟩ := ih further
    have fits : metas.length < 256 := (hopAccounts_length collected).trans_lt (by decide)
    refine ⟨(dexType, metas) :: slices, ?_, rfl, ?_, List.forall_mem_cons.mpr ⟨fits, small⟩⟩
    · rw [List.mapM_cons, collected, ok_bind, each]
      rfl
    · rw [Nat.mod_eq_of_lt fits]
      rfl

/-- The hops one after the other, each with a list of accounts of its own. -/
def runSlices (rt : Runtime) : List (SwapLeg × List AccountInfo) → RouteState → Except ProgramError RouteState
  | [], s => .ok s
  | (leg, accounts) :: legs, s => runLeg rt accounts leg s >>= runSlices rt legs

theorem runLeg_offset {accounts : List AccountInfo} {leg : SwapLeg} {s after : RouteState}
    (ran : runLeg rt accounts leg s = .ok after) : after.offset = s.offset + leg.numAccounts := by
  unfold runLeg at ran
  obtain ⟨destMint, -, ran⟩ := bind_eq_ok.mp ran
  obtain ⟨ledger, -, ran⟩ := bind_eq_ok.mp ran
  simp only at ran
  split at ran
  · cases ran
  · split at ran
    · cases ran
    · obtain rfl := Except.ok.inj ran
      rfl

/-- The program cuts off for every leg the accounts that stand in its place. -/
theorem runHops_eq_runSlices (rt : Runtime) (legs : List (SwapLeg × List AccountInfo)) (front : List AccountInfo)
    (s : RouteState) (placed : s.offset = front.length)
    (whole : infos = front ++ (legs.map Prod.snd).flatten)
    (counted : ∀ leg ∈ legs, leg.1.numAccounts = leg.2.length) :
    runHops rt infos (legs.map fun leg => ⟨[leg.1]⟩) s = runSlices rt legs s ∧
      ∀ after, runSlices rt legs s = .ok after → after.offset = infos.length := by
  induction legs generalizing front s with
  | nil =>
    rw [List.map_nil, List.flatten_nil, List.append_nil] at whole
    refine ⟨rfl, ?_⟩
    rintro _ ⟨⟩
    rw [placed, whole]
  | cons leg legs ih =>
    obtain ⟨count, others⟩ := List.forall_mem_cons.mp counted
    rw [List.map_cons, List.flatten_cons, ← List.append_assoc] at whole
    have cut : hopAccounts infos s.offset leg.1.numAccounts = leg.2 := by
      rw [hopAccounts, whole, placed, count, List.append_assoc, List.drop_left, List.take_left]
    have enough : ¬infos.length < s.offset + leg.1.numAccounts := by
      rw [whole, placed, count]
      simp only [List.length_append]
      omega
    have first : runHop rt infos s ⟨[leg.1]⟩ = runLeg rt leg.2 leg.1 s := by
      simp only [runHop]
      rw [if_neg enough, cut]
    rw [List.map_cons, runHops, first, runSlices]
    cases ran : runLeg rt leg.2 leg.1 s with
    | error => exact ⟨rfl, fun _ other => nomatch other⟩
    | ok after =>
      refine ih (front ++ leg.2) after ?_ whole others
      rw [runLeg_offset ran, placed, count, List.length_append]

theorem slices_ne_nil {slices : List Slice} (routed : hops ≠ [])
    (each : hops.mapM (e.hopAccounts user mintPrograms) = .ok slices) : slices ≠ [] := by
  rintro rfl
  cases hops with
  | nil => exact routed rfl
  | cons hop hops =>
    rw [List.mapM_cons] at each
    obtain ⟨slice, -, each⟩ := bind_eq_ok.mp each
    obtain ⟨slices, -, each⟩ := bind_eq_ok.mp each
    cases each

/-- One path with the whole amount is accepted. -/
theorem hops_single {amountIn minAmountOut : ℕ} {args : List HopArgs} (small : amountIn < 2 ^ 64) (some : args ≠ []) :
    ExecuteRouteArgs.hops ⟨amountIn, minAmountOut, [amountIn], [⟨args⟩]⟩ = .ok args := by
  have total : [amountIn].foldlM checkedAdd 0 = .some amountIn := by
    rw [List.foldlM_cons, checkedAdd, if_pos (by omega), Nat.zero_add]
    rfl
  rw [ExecuteRouteArgs.hops, if_neg (by simp)]
  simp only [total]
  rw [if_neg (not_not.mpr rfl), if_neg some]

end Slices

/-- Of every instruction that the engine builds, the router program reads the arguments as they were
written, with all amounts accepted, and runs every hop on exactly the accounts that were collected for it,
in order and for the same exchange. No count is cut off, and in the end no account is left over. -/
theorem router_follows_engine (e : Engine) (hops : List RouteHop) (user : Pubkey) (amountIn minAmountOut : U64)
    (ix : Instruction) (built : e.buildSwapInstruction hops user amountIn minAmountOut = .ok ix) :
    ∃ slices : List Slice,
      hops.mapM (e.hopAccounts user (e.detectMintPrograms (Engine.allMints hops))) = .ok slices ∧
      ix.accounts = (slices.map Prod.snd).flatten ∧ (∀ slice ∈ slices, slice.2.length < 256) ∧
      ExecuteRouteArgs.tryFromSlice ix.data = some ⟨amountIn.val, minAmountOut.val, [amountIn.val],
        [⟨slices.map fun slice => ⟨[slice.leg]⟩⟩]⟩ ∧
      ∀ (rt : Runtime) (accounts : Accounts) (load : Pubkey → AccountInfo) (ledger : Ledger),
        accounts.infos = ix.accounts.map (load ·.pubkey) →
        let legs := slices.map fun slice => (slice.leg, slice.2.map (load ·.pubkey))
        let start : RouteState := ⟨0, amountIn.val, none, ledger⟩
        (processInstruction rt accounts ix.data ledger = do
          let s ← runSlices rt legs start
          if s.currentAmount < minAmountOut.val then .error (.custom errSlippage) else .ok s.ledger) ∧
        ∀ after, runSlices rt legs start = .ok after → after.offset = accounts.infos.length := by
  unfold Engine.buildSwapInstruction at built
  split at built
  · cases built
  case isFalse routed =>
    unfold Engine.buildRouterInstruction at built
    obtain ⟨⟨args, all⟩, collected, built⟩ := bind_eq_ok.mp built
    obtain ⟨data, written, built⟩ := bind_eq_ok.mp built
    obtain ⟨programId, -, built⟩ := bind_eq_ok.mp built
    obtain rfl := Except.ok.inj built
    obtain ⟨slices, each, rfl, rfl, small⟩ := buildRouterHops_eq_ok collected
    have decoded : ExecuteRouteArgs.tryFromSlice data = some ⟨amountIn.val, minAmountOut.val, [amountIn.val],
        [⟨slices.map fun slice => ⟨[slice.leg]⟩⟩]⟩ := by
      refine tryFromSlice_toVec amountIn.isLt minAmountOut.isLt ?_ ?_ (okOr_eq_ok.mp written)
      · simp only [List.mem_singleton, forall_eq]
        exact amountIn.isLt
      · simp only [List.mem_singleton, forall_eq, List.forall_mem_map]
        exact fun slice member => ⟨small slice member, show 100 < 256 by decide⟩
    refine ⟨slices, each, rfl, small, decoded, fun rt accounts load ledger listed => ?_⟩
    have whole : accounts.infos
        = [] ++ ((slices.map fun slice => (slice.leg, slice.2.map (load ·.pubkey))).map Prod.snd).flatten := by
      rw [listed, List.map_flatten, List.map_map, List.map_map]
      rfl
    have counted : ∀ leg ∈ slices.map fun slice => (slice.leg, slice.2.map (load ·.pubkey)),
        leg.1.numAccounts = leg.2.length := by
      simp only [List.forall_mem_map, List.length_map]
      exact fun _ _ => rfl
    obtain ⟨sliced, ended⟩ := runHops_eq_runSlices rt _ [] ⟨0, amountIn.val, none, ledger⟩ rfl whole counted
    have args : slices.map (fun slice => (⟨[slice.leg]⟩ : HopArgs)) ≠ [] := by
      simpa using slices_ne_nil routed each
    refine ⟨?_, ended⟩
    rw [List.map_map] at sliced
    rw [processInstruction, decoded]
    simp only [hops_single amountIn.isLt args]
    rw [ok_bind, ← sliced]
    rfl

/-- An engine that knows one pool, of Raydium AMM V4. -/
def onePool : Engine where
  find := fun seeds _ => seeds.getLastD []
  ata := fun _ mint _ => mint
  parsePubkey := fun _ => .ok [7]
  store := fun _ => some ⟨[], List.replicate 400 0⟩
  bitmapExt := fun _ => none
  routerProgramId := some [9]
  steps := 0

theorem router_follows_engine_hop : ∃ ix,
    onePool.buildSwapInstruction [⟨"7", "Raydium AMM V4", [2], [3]⟩] [1] 1000 900 = .ok ix ∧
    ix.accounts.length = 9 ∧ ExecuteRouteArgs.tryFromSlice ix.data
      = some ⟨1000, 900, [1000], [⟨[⟨[⟨.raydiumAmmV4, 9, 100⟩]⟩]⟩]⟩ := by
  have vault : ∀ offset, offset + 32 ≤ 400 →
      pubkeyAt (List.replicate 400 0) offset = .ok (List.replicate 32 0) := by
    intro offset inside
    rw [pubkeyAt, if_neg (by rw [List.length_replicate]; omega), List.drop_replicate, List.take_replicate,
      Nat.min_eq_left (by omega)]
  obtain ⟨metas, made⟩ : ∃ metas,
      Engine.collectRayV4Accounts (List.replicate 400 0) [7] [1] [2] [3] = .ok metas := by
    simp only [Engine.collectRayV4Accounts, vault 336 (by decide), vault 368 (by decide), ok_bind]
    exact ⟨_, rfl⟩
  have collected : ∀ mintPrograms,
      onePool.hopAccounts [1] mintPrograms ⟨"7", "Raydium AMM V4", [2], [3]⟩ = .ok (.raydiumAmmV4, metas) := by
    intro mintPrograms
    have parsed : onePool.parsePubkey "7" = .ok [7] := rfl
    have read : onePool.getData [7] = some (List.replicate 400 0) := rfl
    have own : ∀ mint program, onePool.ata [1] mint program = mint := fun _ _ => rfl
    simp only [Engine.hopAccounts, parsed, Except.mapError, ok_bind, read, okOr, own, made]
  have nine := collectRayV4Accounts_length made
  obtain ⟨ix, built⟩ : ∃ ix,
      onePool.buildSwapInstruction [⟨"7", "Raydium AMM V4", [2], [3]⟩] [1] 1000 900 = .ok ix := by
    rw [Engine.buildSwapInstruction, if_neg (List.cons_ne_nil _ _)]
    simp only [Engine.buildRouterInstruction, Engine.buildRouterHops, collected, ok_bind, nine]
    exact ⟨_, rfl⟩
  obtain ⟨slices, each, accounts, -, decoded, -⟩ := router_follows_engine onePool _ _ _ _ ix built
  obtain rfl : [(.raydiumAmmV4, metas)] = slices := by
    simp only [List.mapM_cons, collected, ok_bind] at each
    exact Except.ok.inj each
  refine ⟨ix, built, ?_, ?_⟩
  · rw [accounts, List.map_singleton, List.flatten_singleton, nine]
  · rw [decoded]
    simp only [List.map_singleton, Slice.leg, nine]
    rfl

end RndRust.Thunder
