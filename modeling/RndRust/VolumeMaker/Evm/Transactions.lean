import Mathlib.Data.Nat.Notation
import RndRust.Lib.Runs
import RndRust.Lib.Updates

/-! Transactions on EVM chains and their records: `exec_transaction` and the bundles send and watch
them, `process_event_db_write` stores what they report, and `resolve_pending_transactions` goes
through the records without a slot. An action is one statement of the database, one answer of a
chain, or one message. -/
namespace RndRust.VolumeMaker.Evm
open Lib

inductive Network where
  | ethereum
  | bsc
  | base
  | arbitrum
  | avalanche
  deriving DecidableEq, Repr

def Network.fromNetworkName : String → Option Network
  | "ethereum" => some .ethereum
  | "bsc" => some .bsc
  | "base" => some .base
  | "arbitrum" => some .arbitrum
  | "avalanche" => some .avalanche
  | _ => none

def evmNetworks : List String := ["ethereum", "base", "arbitrum", "bsc", "avalanche"]

inductive Leg where
  | buy
  | sell
  deriving DecidableEq, Repr

/-- `tx_hash` of a record: the hash of a transaction, which is known by its number, and for a
bundle the suffix `:buy` or `:sell`. -/
structure TxHash where
  tx : ℕ
  leg : Option Leg := none
  deriving DecidableEq, Repr

/-- Only the hash itself parses. -/
def TxHash.parse : TxHash → Option ℕ
  | ⟨tx, none⟩ => some tx
  | ⟨_, some _⟩ => none

structure NewTransaction where
  slot : ℕ
  network : String
  txHash : TxHash
  deriving DecidableEq, Repr

/-- A record, with the network of its project. -/
structure Transaction where
  id : ℕ
  slot : ℕ
  network : String
  txHash : TxHash
  deriving DecidableEq, Repr

structure TransactionReceipt where
  blockNumber : Option ℕ
  status : Bool
  deriving DecidableEq, Repr

def TransactionReceipt.slot (receipt : TransactionReceipt) : ℕ := receipt.blockNumber.getD 0

inductive StreamType where
  | newTransactionRequest (new : NewTransaction)
  | newTransactionsRequest (new : List NewTransaction)
  | updateTransactionSlot (txHash : TxHash) (slot : ℕ)
  deriving DecidableEq, Repr

/-- The task that was spawned for a transaction. -/
inductive Watcher where
  | sent
  /-- It has asked for the record and waits for the receipt. -/
  | watching
  | ended
  deriving DecidableEq, Repr

/-- A transaction that was sent, and what the chain says of it. -/
structure Submitted where
  network : String
  bundle : Bool
  receipt : Option TransactionReceipt := none
  watcher : Watcher := .sent
  deriving DecidableEq, Repr

/-- What `get_transaction_receipt` answers. -/
inductive Answer where
  | receipt (receipt : TransactionReceipt)
  | none
  | error
  deriving DecidableEq, Repr

/-- `ValidTx`. -/
structure ValidTx where
  tx : Transaction
  hash : ℕ
  deriving DecidableEq, Repr

def receiptChunkSize : ℕ := 50

/-- `resolve_pending_transactions`, by where it is. -/
inductive Recovery where
  | filtering (pending : List Transaction) (valid : List ValidTx)
  /-- A chunk is asked for at once. -/
  | asking (chunk : List (ValidTx × Option Answer)) (later : List ValidTx)
      (confirmed : List (ValidTx × TransactionReceipt))
  | handling (results : List (ValidTx × Option Answer)) (later : List ValidTx)
      (confirmed : List (ValidTx × TransactionReceipt))
  | updating (confirmed : List (ValidTx × TransactionReceipt))
  | finished
  deriving DecidableEq, Repr

structure Ledger where
  submitted : List Submitted := []
  events : List StreamType := []
  transactions : List Transaction := []
  nextId : ℕ := 0
  recoveries : List Recovery := []
  /-- What was ever stored with slot 0. -/
  stored : List TxHash := []
  /-- Whose receipt a recovery has asked for when there was none. -/
  asked : List ℕ := []
  deriving DecidableEq, Repr

namespace Ledger

/-- A record that is there already stays as it is. -/
def addTransaction (s : Ledger) (new : NewTransaction) : Ledger :=
  if s.transactions.any (·.txHash = new.txHash) then s
  else
    { s with
      transactions := s.transactions ++ [⟨s.nextId, new.slot, new.network, new.txHash⟩]
      nextId := s.nextId + 1
      stored := if new.slot = 0 then s.stored ++ [new.txHash] else s.stored }

def updateTransactionSlot (s : Ledger) (txHash : TxHash) (slot : ℕ) : Ledger :=
  { s with transactions := s.transactions.map fun tx => if tx.txHash = txHash then { tx with slot } else tx }

def deleteTransaction (s : Ledger) (id : ℕ) : Ledger :=
  { s with transactions := s.transactions.filter (·.id ≠ id) }

def getUnconfirmedEvmTransactions (s : Ledger) : List Transaction :=
  s.transactions.filter fun tx => tx.slot = 0 ∧ tx.network ∈ evmNetworks

def processEventDbWrite (s : Ledger) : StreamType → Ledger
  | .newTransactionRequest new =>
    -- A transaction of another chain may be confirmed before it is stored.
    if 0 < new.slot ∧ s.transactions.any (·.txHash = new.txHash) then s.updateTransactionSlot new.txHash new.slot
    else s.addTransaction new
  | .newTransactionsRequest new => new.foldl addTransaction s
  | .updateTransactionSlot txHash slot => s.updateTransactionSlot txHash slot

/-- What a watcher asks to store. -/
def announced (tx : ℕ) (sent : Submitted) : StreamType :=
  if sent.bundle then
    .newTransactionsRequest [⟨0, sent.network, ⟨tx, some .buy⟩⟩, ⟨0, sent.network, ⟨tx, some .sell⟩⟩]
  else .newTransactionRequest ⟨0, sent.network, ⟨tx, none⟩⟩

/-- What a watcher reports of a receipt. -/
def reported (tx : ℕ) (sent : Submitted) (receipt : TransactionReceipt) : List StreamType :=
  if sent.bundle then
    [.updateTransactionSlot ⟨tx, some .buy⟩ receipt.slot, .updateTransactionSlot ⟨tx, some .sell⟩ receipt.slot]
  else [.updateTransactionSlot ⟨tx, none⟩ receipt.slot]

def setWatcher (s : Ledger) (tx : ℕ) (sent : Submitted) (watcher : Watcher) : Ledger :=
  { s with submitted := s.submitted.set tx { sent with watcher } }

/-- A watcher goes on; it waits for a receipt no longer than 12 seconds. -/
def watch (s : Ledger) (tx : ℕ) (sent : Submitted) (inTime : Bool) : Option Ledger :=
  match sent.watcher with
  | .sent => some { s.setWatcher tx sent .watching with events := s.events ++ [announced tx sent] }
  | .watching =>
    match inTime, sent.receipt with
    | true, some receipt => some { s.setWatcher tx sent .ended with events := s.events ++ reported tx sent receipt }
    | true, none => none
    | false, _ => some (s.setWatcher tx sent .ended)
  | .ended => none

/-- The next chunk, or the receipts that were found. -/
def nextChunk (valid : List ValidTx) (confirmed : List (ValidTx × TransactionReceipt)) : Recovery :=
  if valid = [] then .updating confirmed
  else .asking ((valid.take receiptChunkSize).map (·, none)) (valid.drop receiptChunkSize) confirmed

def deleteIf (s : Ledger) (ok : Bool) (id : ℕ) : Ledger := if ok then s.deleteTransaction id else s

/-- The recovery goes on; its statements may fail. -/
def resolve (s : Ledger) (ok : Bool) : Recovery → Option (Ledger × Recovery)
  | .filtering [] valid => some (s, nextChunk valid [])
  | .filtering (tx :: pending) valid =>
    match Network.fromNetworkName tx.network, tx.txHash.parse with
    | none, _ => some (s.deleteIf ok tx.id, .filtering pending valid)
    | some _, none => some (s.deleteIf ok tx.id, .filtering pending valid)
    | some _, some hash => some (s, .filtering pending (valid ++ [⟨tx, hash⟩]))
  | .asking chunk later confirmed =>
    if chunk.all (·.2.isSome) then some (s, .handling chunk later confirmed) else none
  | .handling [] later confirmed => some (s, nextChunk later confirmed)
  | .handling ((entry, answer) :: results) later confirmed =>
    match answer with
    | some (.receipt receipt) => some (s, .handling results later (confirmed ++ [(entry, receipt)]))
    | some .none => some (s.deleteIf ok entry.tx.id, .handling results later confirmed)
    | some .error | none => some (s, .handling results later confirmed)
  | .updating [] => some (s, .finished)
  | .updating ((entry, receipt) :: confirmed) =>
    some (if ok then s.updateTransactionSlot entry.tx.txHash receipt.slot else s, .updating confirmed)
  | .finished => none

/-- What the chain answers for a hash now. -/
def getTransactionReceipt (s : Ledger) (hash : ℕ) (ok : Bool) : Answer :=
  if ok then
    match s.submitted[hash]?.bind Submitted.receipt with
    | some receipt => .receipt receipt
    | none => .none
  else .error

/-- The chain answers for one transaction of a chunk. -/
def answer (s : Ledger) (r k : ℕ) (ok : Bool) : Option Ledger :=
  match s.recoveries[r]? with
  | some (.asking chunk later confirmed) =>
    match chunk[k]? with
    | some (entry, none) =>
      let answer := s.getTransactionReceipt entry.hash ok
      some { s with
        recoveries := s.recoveries.set r (.asking (chunk.set k (entry, some answer)) later confirmed)
        asked := if answer = .none then s.asked ++ [entry.hash] else s.asked }
    | _ => none
  | _ => none

end Ledger

inductive LedgerAction where
  | submit (network : String) (bundle : Bool)
  | mine (tx : ℕ) (receipt : TransactionReceipt)
  | watch (tx : ℕ) (inTime : Bool)
  | deliver (event : ℕ)
  /-- A message does not come through, or cannot be written. -/
  | drop (event : ℕ)
  | recover
  | resolve (recovery : ℕ) (ok : Bool)
  | answer (recovery k : ℕ) (ok : Bool)
  deriving DecidableEq, Repr

def Ledger.step (s : Ledger) : LedgerAction → Option Ledger
  | .submit network bundle => some { s with submitted := s.submitted ++ [⟨network, bundle, none, .sent⟩] }
  | .mine tx receipt =>
    match s.submitted[tx]? with
    | some ⟨network, bundle, none, watcher⟩ =>
      some { s with submitted := s.submitted.set tx ⟨network, bundle, some receipt, watcher⟩ }
    | _ => none
  | .watch tx inTime =>
    match s.submitted[tx]? with
    | some sent => s.watch tx sent inTime
    | none => none
  | .deliver e =>
    match s.events[e]? with
    | some event => some ({ s with events := s.events.eraseIdx e }.processEventDbWrite event)
    | none => none
  | .drop e => some { s with events := s.events.eraseIdx e }
  | .recover => some { s with recoveries := s.recoveries ++ [.filtering s.getUnconfirmedEvmTransactions []] }
  | .resolve r ok =>
    match s.recoveries[r]? with
    | some recovery =>
      (s.resolve ok recovery).map fun (t, next) => { t with recoveries := s.recoveries.set r next }
    | none => none
  | .answer r k ok => s.answer r k ok

/-- The workers, the chains and the database. -/
def trading : Machine Ledger LedgerAction where
  initial := {}
  step := Ledger.step

end RndRust.VolumeMaker.Evm
