import RndRust.Thunder.Dlmm.BinMath
import RndRust.Thunder.Router

/-! How the engine builds the instruction for the router program: the accounts of each hop in the order
that the adapter of its exchange expects, and the arguments in borsh. -/
namespace RndRust.Thunder
open Lib Clmm Dlmm

/-- A hop of a route that has been quoted. -/
structure RouteHop where
  poolAddress : String
  dexName : String
  inputMint : Pubkey
  outputMint : Pubkey
  deriving DecidableEq

def dammV1Program : Pubkey := fromStrConst "Eo7WjKq67rjJQSZxS6z3YkapzY3eMj6Xy8X5EQVn5UaB"
def dammV2Program : Pubkey := fromStrConst "cpamdpZCGKUy5JxQXB4dcpGPiikHawvSWAd6mEn1sGG"
def dammV2PoolAuthority : Pubkey := fromStrConst "HLnpSz9h2S4hiLQ43rnSD9XkcUThA7B8hQMKmDaiTLcC"
def dlmmProgram : Pubkey := fromStrConst "LBUZKhRxPF3XUpBCjp4YzTKgLccjZhTSDM9YuVaPwxo"
def dlmmEventAuthority : Pubkey := fromStrConst "D1ZN9Wj1fRSUQfCjhvnu1hqDMT7hzjzBBpi12nVniYD6"
def clmmProgram : Pubkey := fromStrConst "CAMMCzo5YL8w4VFF8KVHrK22GGUsp5VTaW7grrKgrWqK"
def rayV4Program : Pubkey := fromStrConst "675kPX9MHTjS2zt1qfr1NYHuzeLXfQM9H24wFSUt1Mp8"
def rayV4Authority : Pubkey := fromStrConst "5Q544fKrFoe6tsEbD7S8EmxGTJYAKtTVhAW5Q5pge4j1"
def pumpfunProgram : Pubkey := fromStrConst "pAMMBay6oceH9fJKBRHGP5D4bD4sWpmSwMn52FMfXEA"
def pumpfunFeeProgram : Pubkey := fromStrConst "pfeeUxB6jkeY1Hxd7CsFCAjcbHA9rWtchMGdZ6VojVZ"
def memoProgram : Pubkey := fromStrConst "MemoSq4gqABAXKb96qnH8TysNcWxMyWCqXgDLGmfcHr"
def vaultProgram : Pubkey := fromStrConst "24Uqj9JCLxUeoC3hGfh5W3s9FM9uCHDS2SG3LYwBpyTi"
def systemProgram : Pubkey := fromStrConst "11111111111111111111111111111111"
def ataProgram : Pubkey := fromStrConst "ATokenGPvbdGVxr1b2hvZbsiqW5xWH25efTNsLJA8knL"

/-- `pubkey_at`. The slice is out of range where the data are too short. -/
def pubkeyAt (data : Bytes) (offset : ℕ) : Except String Pubkey :=
  if data.length < offset + 32 then
    .error s!"range end index {offset + 32} out of range for slice of length {data.length}"
  else .ok ((data.drop offset).take 32)

/-- One byte of the data. -/
def byteAt (data : Bytes) (offset : ℕ) : Except String UInt8 :=
  match data[offset]? with
  | some b => .ok b
  | none => .error s!"index out of bounds: the len is {data.length} but the index is {offset}"

section Pools

/-- `deser_anchor` of a struct whose fields have fixed places, the discriminator in front. -/
def deserAnchor (size : ℕ) (data : Bytes) : Except String Bytes :=
  if data.length < 8 then .error "account data too short"
  else if data.length < size then .error "Unexpected length of input"
  else .ok data

/-- `RaydiumCLMMPool::deserialize`. -/
def RaydiumClmmPool.deserialize (data : Bytes) : Except String RaydiumClmmPool := do
  let data ← deserAnchor 1544 data
  let key := fun offset => (data.drop offset).take 32
  .ok ⟨key 9, key 73, key 105, key 137, key 169, key 201, Word.wrap (field data 235 2),
    signed 32 (field data 269 4), bitmapAt data 904⟩

/-- What the instruction for a swap needs of `MeteoraDLMMPool`. -/
structure MeteoraDlmmPool where
  activeId : ℤ
  tokenXMint : Pubkey
  tokenYMint : Pubkey
  reserveX : Pubkey
  reserveY : Pubkey
  binArrayBitmap : Fin 16 → U64

/-- `MeteoraDLMMPool::deserialize`. -/
def MeteoraDlmmPool.deserialize (data : Bytes) : Except String MeteoraDlmmPool := do
  let data ← deserAnchor 904 data
  let key := fun offset => (data.drop offset).take 32
  .ok ⟨signed 32 (field data 76 4), key 88, key 120, key 152, key 184, bitmapAt data 584⟩

end Pools

/-- What the engine has at hand: the derivation of addresses, the account store, the registry's bitmap
extensions, and the router program of its environment. A loop that may not end is watched for so many
steps. -/
structure Engine where
  find : FindProgramAddress
  /-- `get_associated_token_address_with_program_id`. -/
  ata : Pubkey → Pubkey → Pubkey → Pubkey
  parsePubkey : String → Except String Pubkey
  store : Pubkey → Option Account
  bitmapExt : String → Option Pubkey
  routerProgramId : Option Pubkey
  steps : ℕ

namespace Engine

variable (e : Engine)

def getData (key : Pubkey) : Option Bytes := (e.store key).map Account.data

/-- `detect_mint_programs`. -/
def detectMintPrograms (mints : List Pubkey) : List (Pubkey × Pubkey) :=
  mints.map fun mint => (mint,
    match e.store mint with
    | some acc => if acc.owner = token2022Program then token2022Program else tokenProgram
    | none => tokenProgram)

/-- `pumpfun_global_config_pda`. -/
def pumpfunGlobalConfigPda : Pubkey := e.find [asciiBytes "global_config"] pumpfunProgram

/-- `collect_damm_v2_accounts`. -/
def collectDammV2Accounts (poolData : Bytes) (poolPubkey user userTokenIn userTokenOut : Pubkey) :
    Except String (List AccountMeta) := do
  let eventAuth := e.find [asciiBytes "__event_authority"] dammV2Program
  let tokenAMint ← pubkeyAt poolData 168
  let tokenBMint ← pubkeyAt poolData 200
  let tokenAVault ← pubkeyAt poolData 232
  let tokenBVault ← pubkeyAt poolData 264
  let flagA ← byteAt poolData 482
  let flagB ← byteAt poolData 483
  .ok [.newReadonly dammV2Program false, .new user true, .new userTokenIn false, .new userTokenOut false,
    .newReadonly dammV2PoolAuthority false, .new poolPubkey false, .new tokenAVault false, .new tokenBVault false,
    .newReadonly tokenAMint false, .newReadonly tokenBMint false,
    .newReadonly (if flagA = 1 then token2022Program else tokenProgram) false,
    .newReadonly (if flagB = 1 then token2022Program else tokenProgram) false, .newReadonly eventAuth false]

/-- `collect_damm_v1_accounts`. -/
def collectDammV1Accounts (poolData : Bytes) (poolPubkey user userTokenIn userTokenOut inputMint : Pubkey)
    (aVaultData bVaultData : Bytes) : Except String (List AccountMeta) := do
  let tokenAMint ← pubkeyAt poolData 40
  let aVault ← pubkeyAt poolData 104
  let bVault ← pubkeyAt poolData 136
  if aVaultData.length < 147 ∨ bVaultData.length < 147 then
    .error s!"DAMM V1 pool {display poolPubkey}: vault account data too short"
  else
    let aTokenVault ← pubkeyAt aVaultData 19
    let aVaultLpMint ← pubkeyAt aVaultData 115
    let bTokenVault ← pubkeyAt bVaultData 19
    let bVaultLpMint ← pubkeyAt bVaultData 115
    let aVaultLp ← pubkeyAt poolData 168
    let bVaultLp ← pubkeyAt poolData 200
    let protocolTokenFee ← pubkeyAt poolData (if inputMint = tokenAMint then 234 else 266)
    .ok [.newReadonly dammV1Program false, .new user true, .new userTokenIn false, .new userTokenOut false,
      .new poolPubkey false, .new aVault false, .new bVault false, .new aTokenVault false, .new bTokenVault false,
      .new aVaultLpMint false, .new bVaultLpMint false, .new aVaultLp false, .new bVaultLp false,
      .new protocolTokenFee false, .newReadonly vaultProgram false, .newReadonly tokenProgram false]

/-- The loop of `derive_dlmm_swap_bin_arrays`, which collects up to `wanted` arrays. No more than 1024
positions are inside the bitmap. -/
def binArraysFrom (bitmap : Fin 16 → U64) (swapForY : Bool) (poolPubkey : Pubkey) : ℕ → ℤ → ℕ → List Pubkey
  | _, _, 0 => []
  | 0, _, _ + 1 => []
  | steps + 1, idx, wanted + 1 =>
    let next := if swapForY then idx - 1 else idx + 1
    match inPoolBitmapBit bitmap idx with
    | none => []
    | some true => binArrayPda e.find poolPubkey idx :: binArraysFrom bitmap swapForY poolPubkey steps next wanted
    | some false => binArraysFrom bitmap swapForY poolPubkey steps next (wanted + 1)

/-- `derive_dlmm_swap_bin_arrays`. -/
def deriveDlmmSwapBinArrays (bitmap : Fin 16 → U64) (activeId : ℤ) (swapForY : Bool) (poolPubkey : Pubkey) :
    List Pubkey :=
  e.binArraysFrom bitmap swapForY poolPubkey 1024 (binArrayIndex activeId) 3

/-- `collect_dlmm_accounts`. -/
def collectDlmmAccounts (poolData : Bytes)
    (poolPubkey user userTokenIn userTokenOut inputMint inProgram outProgram : Pubkey)
    (bitmapExt : Option Pubkey) : Except String (List AccountMeta) := do
  let pool ← (MeteoraDlmmPool.deserialize poolData).mapError (s!"DLMM pool {display poolPubkey}: " ++ ·)
  let bitmapMeta := match bitmapExt with
    | some ext => AccountMeta.new ext false
    | none => .newReadonly dlmmProgram false
  let swapForY := inputMint == pool.tokenXMint
  let (tokenXProgram, tokenYProgram) := if swapForY then (inProgram, outProgram) else (outProgram, inProgram)
  let oracle := e.find [asciiBytes "oracle", poolPubkey] dlmmProgram
  let binArrays := e.deriveDlmmSwapBinArrays pool.binArrayBitmap pool.activeId swapForY poolPubkey
  if binArrays = [] then .error s!"DLMM pool {display poolPubkey}: no initialized bin arrays"
  else
    .ok ([.newReadonly dlmmProgram false, .new user true, .new userTokenIn false, .new userTokenOut false,
      .new poolPubkey false, bitmapMeta, .new pool.reserveX false, .new pool.reserveY false,
      .newReadonly pool.tokenXMint false, .newReadonly pool.tokenYMint false, .new oracle false,
      .new dlmmProgram false, .newReadonly tokenXProgram false, .newReadonly tokenYProgram false,
      .newReadonly memoProgram false, .newReadonly dlmmEventAuthority false] ++ binArrays.map (.new · false))

/-- `collect_clmm_accounts`. -/
def collectClmmAccounts (poolData : Bytes) (poolPubkey user userTokenIn userTokenOut inputMint : Pubkey)
    (bitmapExtData : Option Bytes) : Except String (List AccountMeta) := do
  let pool ← (RaydiumClmmPool.deserialize poolData).mapError (s!"CLMM pool {display poolPubkey}: " ++ ·)
  let zeroForOne := inputMint == pool.tokenMint0
  let (inputVault, outputVault) := if zeroForOne then (pool.tokenVault0, pool.tokenVault1)
    else (pool.tokenVault1, pool.tokenVault0)
  let (inputMintKey, outputMintKey) := if zeroForOne then (pool.tokenMint0, pool.tokenMint1)
    else (pool.tokenMint1, pool.tokenMint0)
  let tickArrays ← (computeClmmRemainingAccounts e.find pool poolPubkey zeroForOne bitmapExtData e.steps).mapError
    (s!"CLMM pool {display poolPubkey}: " ++ ·)
  .ok ([.newReadonly clmmProgram false, .new user true, .new userTokenIn false, .new userTokenOut false,
    .newReadonly pool.ammConfig false, .new poolPubkey false, .new inputVault false, .new outputVault false,
    .new pool.observationKey false, .newReadonly tokenProgram false, .newReadonly token2022Program false,
    .newReadonly memoProgram false, .newReadonly inputMintKey false, .newReadonly outputMintKey false,
    .new (pdaArrayBitmapAddress e.find poolPubkey) false] ++ tickArrays.map (.new · false))

/-- `collect_ray_v4_accounts`. -/
def collectRayV4Accounts (poolData : Bytes) (poolPubkey user userTokenIn userTokenOut : Pubkey) :
    Except String (List AccountMeta) := do
  let coinVault ← pubkeyAt poolData 336
  let pcVault ← pubkeyAt poolData 368
  .ok [.newReadonly rayV4Program false, .new user true, .new userTokenIn false, .new userTokenOut false,
    .newReadonly tokenProgram false, .new poolPubkey false, .newReadonly rayV4Authority false,
    .new coinVault false, .new pcVault false]

/-- `collect_pumpfun_accounts`. -/
def collectPumpfunAccounts (poolData : Bytes)
    (poolPubkey user userTokenIn userTokenOut inputMint inProgram outProgram : Pubkey)
    (globalConfigData : Bytes) : Except String (List AccountMeta) := do
  let eventAuth := e.find [asciiBytes "__event_authority"] pumpfunProgram
  let baseMint ← pubkeyAt poolData 43
  let quoteMint ← pubkeyAt poolData 75
  let poolBaseVault ← pubkeyAt poolData 139
  let poolQuoteVault ← pubkeyAt poolData 171
  let coinCreator ← pubkeyAt poolData 211
  let isMayhemMode := poolData.getD 243 0 == 1
  if globalConfigData.length < 907 then
    .error s!"pumpfun global config: expected >= 907 bytes, got {globalConfigData.length}"
  else
    let protocolFeeRecipient ← pubkeyAt globalConfigData (if isMayhemMode then 385 else 57)
    let buybackFeeRecipient ← pubkeyAt globalConfigData 643
    let isBuy := inputMint == quoteMint
    let (baseTokenProgram, quoteTokenProgram) := if isBuy then (outProgram, inProgram) else (inProgram, outProgram)
    let creatorVaultAuthority := e.find [asciiBytes "creator_vault", coinCreator] pumpfunProgram
    let volume := if isBuy then
        [AccountMeta.newReadonly (e.find [asciiBytes "global_volume_accumulator"] pumpfunProgram) false,
          .new (e.find [asciiBytes "user_volume_accumulator", user] pumpfunProgram) false]
      else []
    .ok ([.newReadonly pumpfunProgram false, .new user true, .new userTokenIn false, .new userTokenOut false,
      .new poolPubkey false, .newReadonly e.pumpfunGlobalConfigPda false, .newReadonly baseMint false,
      .newReadonly quoteMint false, .new poolBaseVault false, .new poolQuoteVault false,
      .newReadonly protocolFeeRecipient false, .new (e.ata protocolFeeRecipient quoteMint quoteTokenProgram) false,
      .newReadonly baseTokenProgram false, .newReadonly quoteTokenProgram false, .newReadonly systemProgram false,
      .newReadonly ataProgram false, .newReadonly eventAuth false,
      .new (e.ata creatorVaultAuthority quoteMint quoteTokenProgram) false,
      .newReadonly creatorVaultAuthority false] ++ volume ++
      [.newReadonly (e.find [asciiBytes "fee_config", pumpfunProgram] pumpfunFeeProgram) false,
        .newReadonly pumpfunFeeProgram false, .newReadonly buybackFeeRecipient false,
        .new (e.ata buybackFeeRecipient quoteMint quoteTokenProgram) false])

/-- `mint_program`. -/
def mintProgram (programs : List (Pubkey × Pubkey)) (mint default : Pubkey) : Pubkey :=
  match programs.find? (·.1 == mint) with
  | some (_, program) => program
  | none => default

/-- The accounts of one hop, and the exchange they are for. -/
def hopAccounts (user : Pubkey) (mintPrograms : List (Pubkey × Pubkey)) (hop : RouteHop) :
    Except String (DexType × List AccountMeta) := do
  let poolPubkey ← (e.parsePubkey hop.poolAddress).mapError (s!"invalid pool address {hop.poolAddress}: " ++ ·)
  let poolData ← okOr (e.getData poolPubkey) s!"no pool data for {display poolPubkey}"
  let inProg := mintProgram mintPrograms hop.inputMint tokenProgram
  let outProg := mintProgram mintPrograms hop.outputMint tokenProgram
  let userIn := e.ata user hop.inputMint inProg
  let userOut := e.ata user hop.outputMint outProg
  match hop.dexName with
  | "Meteora DAMM V2" =>
    let metas ← e.collectDammV2Accounts poolData poolPubkey user userIn userOut
    .ok (.meteoraDammV2, metas)
  | "Meteora DAMM V1" =>
    let aVault ← pubkeyAt poolData 104
    let bVault ← pubkeyAt poolData 136
    let aVaultData ← okOr (e.getData aVault) s!"DAMM V1 a_vault {display aVault} not in account store"
    let bVaultData ← okOr (e.getData bVault) s!"DAMM V1 b_vault {display bVault} not in account store"
    let metas ← collectDammV1Accounts poolData poolPubkey user userIn userOut hop.inputMint aVaultData bVaultData
    .ok (.meteoraDammV1, metas)
  | "Meteora DLMM" =>
    let metas ← e.collectDlmmAccounts poolData poolPubkey user userIn userOut hop.inputMint inProg outProg
      (e.bitmapExt (display poolPubkey))
    .ok (.meteoraDlmm, metas)
  | "Raydium CLMM" =>
    let metas ← e.collectClmmAccounts poolData poolPubkey user userIn userOut hop.inputMint
      (e.getData (pdaArrayBitmapAddress e.find poolPubkey))
    .ok (.raydiumClmm, metas)
  | "Raydium AMM V4" =>
    let metas ← collectRayV4Accounts poolData poolPubkey user userIn userOut
    .ok (.raydiumAmmV4, metas)
  | "Pumpfun AMM" =>
    let quoteMint ← pubkeyAt poolData 75
    let dex := if hop.inputMint = quoteMint then DexType.pumpfunBuy else .pumpfunSell
    let configData ← okOr (e.getData e.pumpfunGlobalConfigPda) "pumpfun global config not in account store"
    let metas ← e.collectPumpfunAccounts poolData poolPubkey user userIn userOut hop.inputMint inProg outProg
      configData
    .ok (dex, metas)
  | other => .error s!"unsupported DEX: {other}"

/-- `build_router_hops`. The number of accounts is cast to one byte. -/
def buildRouterHops (user : Pubkey) (mintPrograms : List (Pubkey × Pubkey)) :
    List RouteHop → Except String (List HopArgs × List AccountMeta)
  | [] => .ok ([], [])
  | hop :: hops => do
    let (dexType, accounts) ← e.hopAccounts user mintPrograms hop
    let (args, all) ← buildRouterHops user mintPrograms hops
    .ok (⟨[⟨dexType, accounts.length % 256, 100⟩]⟩ :: args, accounts ++ all)

/-- The mints of a route, each once. -/
def allMints (hops : List RouteHop) : List Pubkey :=
  hops.foldl (fun mints hop =>
    let mints := if hop.inputMint ∈ mints then mints else mints ++ [hop.inputMint]
    if hop.outputMint ∈ mints then mints else mints ++ [hop.outputMint]) []

end Engine

section Borsh

/-- A `Vec`: its length in four bytes, and its elements. -/
def writeVec {α : Type} (write : α → Option Bytes) (xs : List α) : Option Bytes :=
  if 2 ^ 32 ≤ xs.length then none
  else do
    let elements ← xs.mapM write
    some (toLeBytes 4 xs.length ++ elements.flatten)

/-- The discriminants of the engine's `DexType`. -/
def DexType.toTag : DexType → ℕ
  | .meteoraDammV1 => 0
  | .meteoraDammV2 => 1
  | .meteoraDlmm => 2
  | .raydiumClmm => 3
  | .raydiumAmmV4 => 4
  | .pumpfunBuy => 5
  | .pumpfunSell => 6

def SwapLeg.write (leg : SwapLeg) : Option Bytes :=
  some (toLeBytes 1 leg.dexType.toTag ++ toLeBytes 1 leg.numAccounts ++ toLeBytes 1 leg.weight)

def HopArgs.write (hop : HopArgs) : Option Bytes := writeVec SwapLeg.write hop.legs

def PathArgs.write (path : PathArgs) : Option Bytes := writeVec HopArgs.write path.hops

/-- `borsh::to_vec` of the arguments. -/
def ExecuteRouteArgs.toVec (args : ExecuteRouteArgs) : Option Bytes := do
  let amounts ← writeVec (fun a => some (toLeBytes 8 a)) args.amounts
  let paths ← writeVec PathArgs.write args.paths
  some (toLeBytes 8 args.amountIn ++ toLeBytes 8 args.minAmountOut ++ amounts ++ paths)

end Borsh

/-- `build_router_instruction`. -/
def Engine.buildRouterInstruction (e : Engine) (hops : List RouteHop) (user : Pubkey) (amountIn minAmountOut : U64) :
    Except String Instruction := do
  let mintPrograms := e.detectMintPrograms (Engine.allMints hops)
  let (args, allAccounts) ← e.buildRouterHops user mintPrograms hops
  let data ← okOr (ExecuteRouteArgs.toVec ⟨amountIn.val, minAmountOut.val, [amountIn.val], [⟨args⟩]⟩)
    "borsh serialize: the length of a Vec does not fit in 32 bits"
  let programId ← okOr e.routerProgramId "ROUTER_PROGRAM_ID env var not set or invalid"
  .ok ⟨programId, allAccounts, data⟩

/-- The router instruction of `build_swap_instructions`, which takes no route without hops. -/
def Engine.buildSwapInstruction (e : Engine) (hops : List RouteHop) (user : Pubkey) (amountIn minAmountOut : U64) :
    Except String Instruction :=
  if hops = [] then .error "Route has no hops"
  else e.buildRouterInstruction hops user amountIn minAmountOut

end RndRust.Thunder
