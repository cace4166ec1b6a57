import Mathlib.Algebra.Ring.Nat
import Mathlib.Data.List.Basic
import Mathlib.Data.Nat.Notation

/-! Accounts as the router program sees them, and the runtime it calls other programs
through. -/
namespace RndRust.Thunder

abbrev Bytes := List UInt8

/-- The bytes of a public key. -/
abbrev Pubkey := Bytes

scoped instance lawfulPubkey : LawfulBEq Pubkey := inferInstance

/-- `from_le_bytes`. -/
def fromLeBytes : Bytes → ℕ
  | [] => 0
  | b :: bytes => b.toNat + 256 * fromLeBytes bytes

/-- `to_le_bytes` of an integer of `width` bytes. -/
def toLeBytes : ℕ → ℕ → Bytes
  | 0, _ => []
  | width + 1, n => UInt8.ofNat (n % 256) :: toLeBytes width (n / 256)

@[simp] theorem length_toLeBytes {width n : ℕ} : (toLeBytes width n).length = width := by
  induction width generalizing n with
  | zero => rfl
  | succ width ih => rw [toLeBytes, List.length_cons, ih]

theorem fromLeBytes_toLeBytes {width n : ℕ} (fits : n < 256 ^ width) : fromLeBytes (toLeBytes width n) = n := by
  induction width generalizing n with
  | zero => rw [Nat.lt_one_iff.mp fits]; rfl
  | succ width ih =>
    have digit : (UInt8.ofNat (n % 256)).toNat = n % 256 := by
      rw [UInt8.toNat_ofNat', Nat.mod_mod]
    have higher : n / 256 < 256 ^ width := by
      rw [Nat.div_lt_iff_lt_mul (by decide), ← Nat.pow_succ]
      exact fits
    rw [toLeBytes, fromLeBytes, digit, ih higher]
    exact Nat.mod_add_div n 256

theorem fromLeBytes_zeros {n : ℕ} : fromLeBytes (List.replicate n 0) = 0 := by
  induction n with
  | zero => rfl
  | succ n ih => rw [List.replicate_succ, fromLeBytes, ih]; rfl

def base58Alphabet : List Char := "123456789ABCDEFGHJKLMNPQRSTUVWXYZabcdefghijkmnopqrstuvwxyz".toList

/-- `Pubkey::from_str_const`. -/
def fromStrConst (s : String) : Pubkey :=
  (toLeBytes 32 (s.toList.foldl (fun n c => 58 * n + base58Alphabet.idxOf c) 0)).reverse

def tokenProgram : Pubkey := fromStrConst "TokenkegQfeZyiNwAJbNbGKPFXCWuBvf9Ss623VQ5DA"

def token2022Program : Pubkey := fromStrConst "TokenzQdBNbLqP5VEhdkAS6EPFLC1PHnBqCXEpPxuEb"

/-- An account on the chain: the program that owns it, and its data. -/
structure Account where
  owner : Pubkey
  data : Bytes
  deriving DecidableEq, Repr

/-- `TOKEN_ACCOUNT_MIN_LEN`. -/
def tokenAccountMinLen : ℕ := 165

namespace Account

/-- `token_mint`. -/
def tokenMint (account : Account) : Option Pubkey :=
  if account.data.length < tokenAccountMinLen then none else some (account.data.take 32)

/-- `token_owner`. -/
def tokenOwner (account : Account) : Option Pubkey :=
  if account.data.length < tokenAccountMinLen then none else some ((account.data.drop 32).take 32)

/-- `read_token_balance`. -/
def readTokenBalance (account : Account) : ℕ :=
  if 72 ≤ account.data.length then fromLeBytes ((account.data.drop 64).take 8) else 0

/-- Whether one of the token programs owns the account. -/
def isToken (account : Account) : Bool :=
  account.owner == tokenProgram || account.owner == token2022Program

/-- A token account of the wallet `A` for the mint `m`. -/
def Holds (account : Account) (A m : Pubkey) : Prop :=
  account.isToken ∧ account.tokenOwner = some A ∧ account.tokenMint = some m

instance (account : Account) (A m : Pubkey) : Decidable (account.Holds A m) :=
  inferInstanceAs (Decidable (_ ∧ _))

/-- A token account has one mint. -/
theorem Holds.mint_unique {account : Account} {A B m n : Pubkey} (first : account.Holds A m)
    (second : account.Holds B n) : m = n :=
  Option.some.inj (first.2.2.symm.trans second.2.2)

end Account

/-- The accounts of the chain by their keys. -/
abbrev Ledger := Pubkey → Account

/-- `AccountInfo`. What it reads of the account is read from the ledger. -/
structure AccountInfo where
  key : Pubkey := []
  isSigner : Bool := false
  isWritable : Bool := false
  deriving DecidableEq, Repr

/-- The account list of an instruction. The entrypoint hands over the same flags at
every place where a key is repeated. -/
structure Accounts where
  infos : List AccountInfo
  shared : ∀ a ∈ infos, ∀ b ∈ infos, a.key = b.key → a = b

/-- The account at a place. The adapters check the number of accounts before. -/
def accountAt (accounts : List AccountInfo) (i : ℕ) : AccountInfo := accounts.getD i {}

structure AccountMeta where
  pubkey : Pubkey
  isSigner : Bool
  isWritable : Bool
  deriving DecidableEq, Repr

/-- `AccountMeta::new`. -/
def AccountMeta.new (pubkey : Pubkey) (isSigner : Bool) : AccountMeta := ⟨pubkey, isSigner, true⟩

/-- `AccountMeta::new_readonly`. -/
def AccountMeta.newReadonly (pubkey : Pubkey) (isSigner : Bool) : AccountMeta := ⟨pubkey, isSigner, false⟩

structure Instruction where
  programId : Pubkey
  accounts : List AccountMeta
  data : Bytes
  deriving DecidableEq, Repr

inductive ProgramError where
  | invalidInstructionData
  | notEnoughAccountKeys
  | custom (code : ℕ)
  /-- A call that the runtime refuses, or that fails, ends the transaction. -/
  | aborted
  deriving DecidableEq, Repr

/-- Whether an instruction lets its program write to an account. -/
def Instruction.writes (ix : Instruction) (key : Pubkey) : Bool :=
  ix.accounts.any fun m => m.pubkey == key && m.isWritable

/-- Whether an account signs an instruction. -/
def Instruction.signs (ix : Instruction) (key : Pubkey) : Bool :=
  ix.accounts.any fun m => m.pubkey == key && m.isSigner

/-- The programs that are called, each with whatever it calls in turn. The runtime
lets them change the accounts they are given as writable, and no others. -/
structure Runtime where
  call : Instruction → Ledger → Option Ledger
  frame : ∀ {ix ledger after}, call ix ledger = some after →
    ∀ {key}, ix.writes key = false → after key = ledger key

/-- The runtime refuses to widen what the caller was allowed to do with an account. -/
def privileged (accounts : List AccountInfo) (m : AccountMeta) : Bool :=
  accounts.any fun a =>
    a.key == m.pubkey && (!m.isWritable || a.isWritable) && (!m.isSigner || a.isSigner)

/-- `invoke`. -/
def invoke (rt : Runtime) (ix : Instruction) (accounts : List AccountInfo) (ledger : Ledger) :
    Except ProgramError Ledger :=
  if ix.accounts.all (privileged accounts) then
    match rt.call ix ledger with
    | some after => .ok after
    | none => .error .aborted
  else .error .aborted

section Invoke

variable {rt : Runtime} {ix : Instruction} {accounts : List AccountInfo} {ledger after : Ledger}

theorem invoke_called (ok : invoke rt ix accounts ledger = .ok after) : rt.call ix ledger = some after := by
  unfold invoke at ok
  split at ok
  · split at ok
    · rename_i called
      cases ok
      exact called
    · cases ok
  · cases ok

/-- What a call changes was handed over as writable. -/
theorem invoke_changes {key : Pubkey} (ok : invoke rt ix accounts ledger = .ok after)
    (changed : after key ≠ ledger key) : ∃ a ∈ accounts, a.key = key ∧ a.isWritable := by
  have written : ix.writes key = true := by
    by_contra unwritten
    exact changed (rt.frame (invoke_called ok) (by simpa using unwritten))
  obtain ⟨m, listed, rfl, writable⟩ : ∃ m ∈ ix.accounts, m.pubkey = key ∧ m.isWritable := by
    simpa [Instruction.writes] using written
  have allowed : ix.accounts.all (privileged accounts) := by
    by_contra refused
    simp [invoke, refused] at ok
  obtain ⟨a, given, same, writes⟩ : ∃ a ∈ accounts, a.key = m.pubkey ∧ a.isWritable := by
    have checked := List.all_eq_true.mp allowed m listed
    simp only [privileged, List.any_eq_true, Bool.and_eq_true, beq_iff_eq, writable, Bool.not_true,
      Bool.false_or] at checked
    obtain ⟨a, given, ⟨same, writes⟩, -⟩ := checked
    exact ⟨a, given, same, writes⟩
  exact ⟨a, given, same, writes⟩

end Invoke

end RndRust.Thunder
