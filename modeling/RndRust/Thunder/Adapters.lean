import RndRust.Thunder.Accounts

/-! The seven adapters of `adapters/`: each checks how many accounts its hop brings and
lays them out in the order the exchange program expects. -/
namespace RndRust.Thunder

inductive DexType where
  | meteoraDammV1
  | meteoraDammV2
  | meteoraDlmm
  | raydiumClmm
  | raydiumAmmV4
  | pumpfunBuy
  | pumpfunSell
  deriving DecidableEq, Repr

section Layout

variable (accounts : List AccountInfo)

/-- The account at a place, writable or read-only, not signing. -/
def writable (i : ℕ) : AccountMeta := .new (accountAt accounts i).key false

def readonly (i : ℕ) : AccountMeta := .newReadonly (accountAt accounts i).key false

/-- The authority, which is the account at 1 and signs. -/
def writableAuthority : AccountMeta := .new (accountAt accounts 1).key true

def readonlyAuthority : AccountMeta := .newReadonly (accountAt accounts 1).key true

/-- All accounts from `n` on, forwarded writable in order. -/
def trailing (n : ℕ) : List AccountMeta := (accounts.drop n).map fun a => .new a.key false

/-- What every adapter ends with: the call of the program at 0, given that there are
enough accounts. -/
def callDex (needed : ℕ) (metas : List AccountMeta) (data : Bytes) : Except ProgramError Instruction :=
  if accounts.length < needed then .error .notEnoughAccountKeys
  else .ok ⟨(accountAt accounts 0).key, metas, data⟩

/-- `amount_in` and a minimal output of 1. -/
def amounts (amountIn : ℕ) : Bytes := toLeBytes 8 amountIn ++ toLeBytes 8 1

/-- `SWAP_DISC`, which both DAMM versions use. -/
def swapDisc : Bytes := [248, 198, 158, 145, 225, 117, 135, 200]

/-- `meteora_damm_v1::swap`. -/
def MeteoraDammV1.swap (amountIn : ℕ) : Except ProgramError Instruction :=
  callDex accounts 16
    ([4, 2, 3, 5, 6, 7, 8, 9, 10, 11, 12, 13].map (writable accounts) ++
      [readonlyAuthority accounts] ++ [14, 15].map (readonly accounts))
    (swapDisc ++ amounts amountIn)

/-- `meteora_damm_v2::swap`. -/
def MeteoraDammV2.swap (amountIn : ℕ) : Except ProgramError Instruction :=
  callDex accounts 13
    ([readonly accounts 4] ++ [5, 2, 3, 6, 7].map (writable accounts) ++
      [8, 9].map (readonly accounts) ++ [writableAuthority accounts] ++
      [10, 11, 0, 12, 0].map (readonly accounts))
    (swapDisc ++ amounts amountIn)

/-- `SWAP2_DISC`. -/
def swap2Disc : Bytes := [65, 75, 63, 76, 235, 91, 91, 136]

/-- The bitmap extension: the program's own id stands for none. -/
def bitmapExt : AccountMeta :=
  if (accountAt accounts 5).key = (accountAt accounts 0).key then readonly accounts 5
  else writable accounts 5

/-- `meteora_dlmm::swap`. All accounts from 16 on are bin arrays. -/
def MeteoraDlmm.swap (amountIn : ℕ) : Except ProgramError Instruction :=
  callDex accounts 17
    ([writable accounts 4, bitmapExt accounts] ++ [6, 7, 2, 3].map (writable accounts) ++
      [8, 9].map (readonly accounts) ++ [10, 11].map (writable accounts) ++
      [readonlyAuthority accounts] ++ [12, 13, 14, 15, 0].map (readonly accounts) ++
      trailing accounts 16)
    (swap2Disc ++ amounts amountIn ++ toLeBytes 4 0)

/-- `SWAP_V2_DISC`. -/
def swapV2Disc : Bytes := [43, 4, 237, 11, 26, 201, 30, 98]

/-- `raydium_clmm::swap`. All accounts from 15 on are tick arrays. -/
def RaydiumClmm.swap (amountIn : ℕ) : Except ProgramError Instruction :=
  callDex accounts 16
    ([writableAuthority accounts, readonly accounts 4] ++
      [5, 2, 3, 6, 7, 8].map (writable accounts) ++ [9, 10, 11, 12, 13].map (readonly accounts) ++
      [writable accounts 14] ++ trailing accounts 15)
    (swapV2Disc ++ amounts amountIn ++ toLeBytes 16 0 ++ [1])

/-- `raydium_v4::swap`, with its one-byte `SWAP_BASE_IN_V2_DISC`. -/
def RaydiumV4.swap (amountIn : ℕ) : Except ProgramError Instruction :=
  callDex accounts 9
    ([readonly accounts 4, writable accounts 5, readonly accounts 6] ++
      [7, 8, 2, 3].map (writable accounts) ++ [readonlyAuthority accounts])
    ([16] ++ amounts amountIn)

/-- `PUMPFUN_BUY_EXACT_QUOTE_IN_DISC`. -/
def Pumpfun.buyDisc : Bytes := [198, 46, 21, 82, 180, 217, 232, 112]

/-- `PUMPFUN_SELL_DISC`. -/
def Pumpfun.sellDisc : Bytes := [51, 230, 133, 164, 1, 127, 131, 173]

/-- The accounts that `pumpfun::buy` and `pumpfun::sell` share: they differ in which of
the user's accounts comes first, and in what follows. -/
def Pumpfun.metas (base quote : ℕ) : List AccountMeta :=
  [writable accounts 4, writableAuthority accounts] ++ [5, 6, 7].map (readonly accounts) ++
    [base, quote, 8, 9].map (writable accounts) ++ [readonly accounts 10, writable accounts 11] ++
    [12, 13, 14, 15, 16, 0].map (readonly accounts) ++ [writable accounts 17, readonly accounts 18]

/-- `pumpfun::buy`. -/
def Pumpfun.buy (amountIn : ℕ) : Except ProgramError Instruction :=
  callDex accounts 25
    (Pumpfun.metas accounts 3 2 ++ [readonly accounts 19, writable accounts 20] ++
      [21, 22, 23].map (readonly accounts) ++ [writable accounts 24])
    (Pumpfun.buyDisc ++ amounts amountIn ++ [0])

/-- `pumpfun::sell`. -/
def Pumpfun.sell (amountIn : ℕ) : Except ProgramError Instruction :=
  callDex accounts 23
    (Pumpfun.metas accounts 2 3 ++ [19, 20, 21].map (readonly accounts) ++ [writable accounts 22])
    (Pumpfun.sellDisc ++ amounts amountIn)

end Layout

/-- The instruction that the adapter of a hop builds. -/
def adapter (dexType : DexType) (accounts : List AccountInfo) (amountIn : ℕ) :
    Except ProgramError Instruction :=
  match dexType with
  | .meteoraDammV1 => MeteoraDammV1.swap accounts amountIn
  | .meteoraDammV2 => MeteoraDammV2.swap accounts amountIn
  | .meteoraDlmm => MeteoraDlmm.swap accounts amountIn
  | .raydiumClmm => RaydiumClmm.swap accounts amountIn
  | .raydiumAmmV4 => RaydiumV4.swap accounts amountIn
  | .pumpfunBuy => Pumpfun.buy accounts amountIn
  | .pumpfunSell => Pumpfun.sell accounts amountIn

/-- Nobody but `key` signs through this entry. -/
def AccountMeta.SignedBy (m : AccountMeta) (key : Pubkey) : Prop := m.isSigner → m.pubkey = key

section Signers

variable {accounts : List AccountInfo} {amountIn needed i : ℕ} {metas : List AccountMeta}
  {data : Bytes} {ix : Instruction} {key : Pubkey}

@[simp] theorem writable_signedBy : (writable accounts i).SignedBy key := by
  simp [AccountMeta.SignedBy, writable, AccountMeta.new]

@[simp] theorem readonly_signedBy : (readonly accounts i).SignedBy key := by
  simp [AccountMeta.SignedBy, readonly, AccountMeta.newReadonly]

@[simp] theorem bitmapExt_signedBy : (bitmapExt accounts).SignedBy key := by
  unfold bitmapExt
  split
  · exact readonly_signedBy
  · exact writable_signedBy

@[simp] theorem writableAuthority_signedBy :
    (writableAuthority accounts).SignedBy (accountAt accounts 1).key := fun _ => rfl

@[simp] theorem readonlyAuthority_signedBy :
    (readonlyAuthority accounts).SignedBy (accountAt accounts 1).key := fun _ => rfl

theorem trailing_signedBy {m : AccountMeta} (member : m ∈ trailing accounts i) : m.SignedBy key := by
  obtain ⟨a, -, rfl⟩ := List.mem_map.mp member
  simp [AccountMeta.SignedBy, AccountMeta.new]

theorem callDex_accounts (built : callDex accounts needed metas data = .ok ix) : ix.accounts = metas := by
  unfold callDex at built
  split at built
  · cases built
  · cases built
    rfl

/-- Whoever signs an adapter's call is the authority of the hop. -/
theorem adapter_signs {dexType : DexType} (built : adapter dexType accounts amountIn = .ok ix)
    (signs : ix.signs key) : key = (accountAt accounts 1).key := by
  have signed : ∀ m ∈ ix.accounts, m.SignedBy (accountAt accounts 1).key := by
    cases dexType with
    | meteoraDlmm | raydiumClmm =>
      rw [callDex_accounts built]
      simp only [List.forall_mem_append]
      refine ⟨by simp, fun m => trailing_signedBy⟩
    | _ =>
      rw [callDex_accounts built]
      simp [Pumpfun.metas]
  obtain ⟨m, listed, rfl, signer⟩ : ∃ m ∈ ix.accounts, m.pubkey = key ∧ m.isSigner := by
    simpa [Instruction.signs] using signs
  exact signed m listed signer

end Signers

end RndRust.Thunder
