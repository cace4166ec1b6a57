import Mathlib.Algebra.Field.Rat
import Mathlib.Algebra.Order.Ring.Rat
import Mathlib.Tactic.FieldSimp
import Mathlib.Tactic.Linarith
import Mathlib.Tactic.NormNum
import RndRust.Lib.Latest
import RndRust.VolumeMaker.Evm.Trades

/-! What a transaction's receipt comes to: the task that `exec_transaction` spawns reads it while it runs, and
`resolve_pending_transactions` reads it again after a restart. Amounts are exact. -/
namespace RndRust.VolumeMaker.Evm
open Lib Lib.Abi

structure Log where
  address : Address
  topics : List (Word 256)
  data : List UInt8
  deriving DecidableEq

structure Receipt extends TransactionReceipt where
  logs : List Log

/-- How an address is written, and read again. -/
structure AddressText where
  toString : Address → String
  parse : String → Option Address
  parse_toString : ∀ address, parse (toString address) = some address

structure TxWatcherInfo where
  projectId : ℤ
  ethPrice : ℚ
  tradeVolumeUsdc : ℚ

/-- A record of a trade's transaction, as it is asked for and stored. -/
structure TradeRecord where
  slot : ℕ
  projectId : ℤ
  solPrice : ℚ
  value : ℚ
  tokens : ℚ
  address : String
  txHash : TxHash
  txType : String
  tokenIn : String
  tokenOut : String
  deriving DecidableEq

/-- What a watcher sends after the receipt. -/
inductive WatcherReport where
  | updateTransactionSlot (txHash : TxHash) (slot : ℕ) (value tokens : Option ℚ)
  | tradeConfirmed (projectId : ℤ) (volumeUsdc : ℚ)

def transferTopic : Word 256 := ⟨0xddf252ad1be2c89b69c2b068fc378daa952ba7f163c4a11628f55a4df523b3ef, by decide⟩

def withdrawalTopic : Word 256 := ⟨0x7fcf532c15f0a6db0bd6d0e038bea71d30d808c7d98cb3bf7268a95bf5081b65, by decide⟩

def swapTopic : Word 256 := ⟨0x40e9cecb9f5f1f1c5b9c97dec2917b7ee92e57ba5563708daca94dd84ad7112f, by decide⟩

/-- `Address::from_word`. -/
def Address.fromWord (topic : Word 256) : Address := .ofNat topic.val

/-- `U256::from_be_slice`, which panics on more than 32 bytes. -/
def fromBeSlice (data : List UInt8) : Option ℕ := if data.length ≤ 32 then some (beValue data) else none

namespace Log

variable (log : Log)

/-- The token is transferred to the address. -/
def transfers (token recipient : Address) : Bool :=
  log.address = token && 3 ≤ log.topics.length && log.topics[0]? = some transferTopic &&
    (log.topics[2]?.map Address.fromWord = some recipient)

/-- The wrapped currency is withdrawn. -/
def withdraws (token : Address) : Bool := log.address = token && log.topics[0]? = some withdrawalTopic

/-- `amount0` of a swap of version 4. -/
def amount0 : ℕ := beValue (log.data.take 32)

/-- A swap that pays the native currency out. -/
def swaps : Bool :=
  log.topics[0]? = some swapTopic && 32 ≤ log.data.length &&
    (log.data.head?.any fun byte => byte &&& 0x80 = 0) && 0 < log.amount0

end Log

/-- The tokens that a purchase brings; `none` where a log cannot be read. -/
def parseTokens (tokenOut sender : Address) (logs : List Log) : Option (Option ℕ) :=
  latest (·.transfers tokenOut sender) (fun log => fromBeSlice log.data) logs

/-- The currency that a sale brings. -/
def parseValue (tokenOut : Address) (logs : List Log) : Option (Option ℕ) :=
  (latest (·.withdraws tokenOut) (fun log => fromBeSlice log.data) logs).bind fun
    | some raw => some (some raw)
    | none => latest Log.swaps (fun log => some log.amount0) logs

namespace TradeRecord

variable (record : TradeRecord)

def isTrade : Bool := record.txType = "BUY" || record.txType = "SELL"

/-- `update_transaction_slot`. -/
def updateTransactionSlot (slot : ℕ) (value tokens : Option ℚ) : TradeRecord :=
  match value, tokens with
  | some value, some tokens => { record with slot, value, tokens }
  | _, _ => { record with slot }

end TradeRecord

/-- A record, and what has been added to its project's daily volume for it. -/
structure Accounted where
  record : TradeRecord
  volume : ℚ
  deriving DecidableEq

/-- What becomes of a report. -/
def Accounted.report (s : Accounted) : WatcherReport → Accounted
  | .updateTransactionSlot _ slot value tokens => { s with record := s.record.updateTransactionSlot slot value tokens }
  | .tradeConfirmed _ volumeUsdc => { s with volume := s.volume + volumeUsdc }

namespace Trade

variable (t : Trade) (text : AddressText) (info : TxWatcherInfo) (decimals : UInt8) (request : BuildRequest) (txHash : TxHash)
  (receipt : Receipt)

def tokenIn : Address := if t.buy then t.network.getBaseToken else t.token

def tokenOut : Address := if t.buy then t.token else t.network.getBaseToken

/-- Ten to the token's decimals, as a word. -/
def unit (decimals : UInt8) : ℚ := (10 ^ decimals.toNat % 2 ^ 256 : ℕ)

/-- The record that a watcher asks for. -/
def newTransaction : TradeRecord where
  slot := 0
  projectId := info.projectId
  solPrice := info.ethPrice
  value := if t.buy then (t.amountIn.val : ℚ) / 10 ^ 18 else (t.amountOutMinimum : ℚ) / 10 ^ 18
  tokens := if t.buy then (t.amountOutMinimum : ℚ) / unit decimals else (t.amountIn.val : ℚ) / unit decimals
  address := text.toString request.sender
  txHash
  txType := request.txType
  tokenIn := text.toString t.tokenIn
  tokenOut := text.toString t.tokenOut

/-- The actual value and tokens, as a watcher reads them; `none` where it panics. -/
def watchedAmounts : Option (Option ℚ × Option ℚ) :=
  if receipt.status && (t.newTransaction text info decimals request txHash).isTrade then
    if t.buy then
      (parseTokens t.tokenOut request.sender receipt.logs).map fun raw =>
        (some ((t.amountIn.val : ℚ) / 10 ^ 18), raw.map fun raw : ℕ => (raw : ℚ) / unit decimals)
    else
      (parseValue t.tokenOut receipt.logs).map fun raw =>
        (raw.map fun raw : ℕ => (raw : ℚ) / 10 ^ 18, some ((t.amountIn.val : ℚ) / unit decimals))
  else some (none, none)

/-- What a watcher sends once it has the receipt. -/
def watch : List WatcherReport :=
  let record := t.newTransaction text info decimals request txHash
  match t.watchedAmounts text info decimals request txHash receipt with
  | none => []
  | some (actualValue, actualTokens) =>
    .updateTransactionSlot record.txHash receipt.slot actualValue actualTokens ::
      if record.isTrade && 0 < info.tradeVolumeUsdc && receipt.status then
        [.tradeConfirmed info.projectId
          (if t.buy then actualValue.getD 0 * info.ethPrice
          else (actualValue.map (· * info.ethPrice)).getD info.tradeVolumeUsdc)]
      else []

/-- The record and the volume, where the watcher is there for the receipt. -/
def live : Accounted :=
  (t.watch text info decimals request txHash receipt).foldl Accounted.report
    ⟨t.newTransaction text info decimals request txHash, 0⟩

end Trade

/-- The actual value and tokens, as the recovery reads them, with the decimals that it has fetched. -/
def recoveredAmounts (text : AddressText) (decimalsMap : String → Option ℕ) (tx : TradeRecord) (receipt : Receipt) :
    Option (Option ℚ × Option ℚ) :=
  if receipt.status && tx.isTrade then
    let senderAddr := text.parse tx.address
    let tokenOutAddr := text.parse tx.tokenOut
    if tx.txType = "BUY" then
      match senderAddr, tokenOutAddr with
      | some sender, some tokenOut =>
        (parseTokens tokenOut sender receipt.logs).map fun raw =>
          (none, raw.map fun raw : ℕ => (raw : ℚ) / 10 ^ (decimalsMap tx.tokenOut).getD 18)
      | _, _ => some (none, none)
    else
      match tokenOutAddr with
      | some tokenOut => (parseValue tokenOut receipt.logs).map fun raw => (raw.map fun raw : ℕ => (raw : ℚ) / 10 ^ 18, none)
      | none => some (none, none)
  else some (none, none)

/-- `resolve_pending_transactions` for one record with its receipt. -/
def resolve (text : AddressText) (decimalsMap : String → Option ℕ) (tx : TradeRecord) (receipt : Receipt) : Accounted :=
  match recoveredAmounts text decimalsMap tx receipt with
  | none => ⟨tx, 0⟩
  | some (actualValue, actualTokens) =>
    let volume := actualValue.getD tx.value
    ⟨tx.updateTransactionSlot receipt.slot actualValue actualTokens, if 0 < volume then volume else 0⟩

/-- A log of the kind that is longer than a number. -/
def Overlong (p : Log → Bool) (logs : List Log) : Prop := ∃ log ∈ logs, p log ∧ 32 < log.data.length

/-- The amount of the last withdrawal, and without one of the last swap. -/
def paidOut (tokenOut : Address) (logs : List Log) : Option ℕ :=
  ((logs.filter (·.withdraws tokenOut)).getLast?.map fun log => beValue log.data).or
    ((logs.filter Log.swaps).getLast?.map Log.amount0)

/-- The condition. -/
def Trade.Agrees (t : Trade) (info : TxWatcherInfo) (request : BuildRequest) (receipt : Receipt) : Prop :=
  -- Nothing is read.
  if receipt.status = false ∨ request.txType = "APPROVE" then
    if t.buy then t.amountIn.val = 0 else t.amountOutMinimum = 0
  else if t.buy then
    Overlong (·.transfers t.tokenOut request.sender) receipt.logs ∨
      ((∀ log, (receipt.logs.filter (·.transfers t.tokenOut request.sender)).getLast? = some log →
          beValue log.data = t.amountOutMinimum) ∧
        (t.amountIn.val = 0 ∨ 0 < info.tradeVolumeUsdc ∧ info.ethPrice = 1))
  else
    Overlong (·.withdraws t.tokenOut) receipt.logs ∨
      match paidOut t.tokenOut receipt.logs with
      | some amount => amount = t.amountOutMinimum ∧ (amount = 0 ∨ 0 < info.tradeVolumeUsdc ∧ info.ethPrice = 1)
      | none =>
        if 0 < info.tradeVolumeUsdc then info.tradeVolumeUsdc = t.amountOutMinimum / 10 ^ 18 else t.amountOutMinimum = 0

section Logs

variable {p : Log → Bool} {logs : List Log} {tokenOut sender : Address}

theorem latest_of_overlong (long : Overlong p logs) : latest p (fun log => fromBeSlice log.data) logs = none := by
  obtain ⟨log, member, is, exceeds⟩ := long
  exact latest_of_unreadable member is (if_neg (Nat.not_le.mpr exceeds))

theorem latest_of_short (short : ¬Overlong p logs) : latest p (fun log => fromBeSlice log.data) logs =
    some ((logs.filter p).getLast?.map fun log => beValue log.data) := by
  have fits : ∀ log ∈ logs, p log → fromBeSlice log.data = some (beValue log.data) := by
    intro log member is
    exact if_pos (Nat.not_lt.mp fun exceeds => short ⟨log, member, is, exceeds⟩)
  rw [latest_of_readable fun log member is => by rw [fits log member is]; rfl]
  congr 1
  cases last : (logs.filter p).getLast? with
  | none => rfl
  | some log =>
    obtain ⟨member, is⟩ := List.mem_filter.mp (List.mem_of_getLast? last)
    exact fits log member is

theorem parseTokens_of_overlong (long : Overlong (·.transfers tokenOut sender) logs) :
    parseTokens tokenOut sender logs = none := latest_of_overlong long

theorem parseTokens_of_short (short : ¬Overlong (·.transfers tokenOut sender) logs) : parseTokens tokenOut sender logs =
    some ((logs.filter (·.transfers tokenOut sender)).getLast?.map fun log => beValue log.data) := latest_of_short short

theorem parseValue_of_overlong (long : Overlong (·.withdraws tokenOut) logs) : parseValue tokenOut logs = none := by
  rw [parseValue, latest_of_overlong long, Option.bind_none]

theorem parseValue_of_short (short : ¬Overlong (·.withdraws tokenOut) logs) :
    parseValue tokenOut logs = some (paidOut tokenOut logs) := by
  rw [parseValue, latest_of_short short, Option.bind_some, paidOut]
  cases (logs.filter (·.withdraws tokenOut)).getLast? with
  | some log => rfl
  | none =>
    refine (latest_of_readable fun _ _ _ => rfl).trans ?_
    cases (logs.filter Log.swaps).getLast? <;> rfl

end Logs

section Requests

variable {t : Trade} {chain : Chain} {requests : List BuildRequest} {request : BuildRequest} {allowance gasLimit nonce : ℕ}
  {target : Address} {input : Call}

theorem Trade.txType_buy (sent : request ∈ t.buyRequests) : request.txType = "BUY" := by
  unfold buyRequests at sent
  split at sent
  · rw [List.mem_singleton.mp sent]
  · split at sent
    · rw [List.mem_singleton.mp sent]
    · cases sent

theorem Trade.txType_approval (sent : request ∈ t.approval allowance target gasLimit nonce input) :
    request.txType = "APPROVE" := by
  unfold approval at sent
  split at sent
  · rw [List.mem_singleton.mp sent]
  · cases sent

theorem Trade.txType_sale : (t.sale nonce).txType = "SELL" := by
  unfold sale
  split <;> rfl

/-- What a request is for, by which way the trade goes. -/
theorem Trade.txType_of_sent (built : t.execTransaction chain = .ok requests) (sent : request ∈ requests) :
    t.buy = true ∧ request.txType = "BUY" ∨ t.buy = false ∧ (request.txType = "APPROVE" ∨ request.txType = "SELL") := by
  unfold execTransaction at built
  cases buys : t.buy with
  | true =>
    rw [if_pos buys] at built
    cases built
    exact .inl ⟨rfl, txType_buy sent⟩
  | false =>
    rw [if_neg (by simp [buys])] at built
    unfold sellRequests at built
    split at built
    · cases built
      refine .inr ⟨rfl, ?_⟩
      rcases List.mem_append.mp sent with approves | last
      · refine .inl ?_
        rcases List.mem_append.mp approves with first | second
        · unfold tokenApproval at first
          split at first
          · cases first
          · exact txType_approval first
        · exact txType_approval second
      · rw [List.mem_singleton.mp last]
        exact .inr txType_sale
    · cases built

end Requests

section Agreement

variable {t : Trade} {text : AddressText} {decimalsMap : String → Option ℕ} {info : TxWatcherInfo} {decimals : UInt8}
  {request : BuildRequest} {txHash : TxHash} {receipt : Receipt} {value tokens : Option ℚ}

theorem Trade.unit_ne_zero : Trade.unit decimals ≠ 0 := by
  have odd : ∀ d : Fin 256, 10 ^ d.val % 2 ^ 256 ≠ 0 := by decide +kernel
  exact Nat.cast_ne_zero.mpr (odd ⟨_, decimals.toNat_lt⟩)

theorem Trade.live_of_panic (panics : t.watchedAmounts text info decimals request txHash receipt = none) :
    t.live text info decimals request txHash receipt = ⟨t.newTransaction text info decimals request txHash, 0⟩ := by
  simp [live, watch, panics]

theorem Trade.live_of_amounts (amounts : t.watchedAmounts text info decimals request txHash receipt = some (value, tokens)) :
    t.live text info decimals request txHash receipt =
      ⟨(t.newTransaction text info decimals request txHash).updateTransactionSlot receipt.slot value tokens,
        if (t.newTransaction text info decimals request txHash).isTrade && 0 < info.tradeVolumeUsdc && receipt.status then
          if t.buy then value.getD 0 * info.ethPrice else (value.map (· * info.ethPrice)).getD info.tradeVolumeUsdc
        else 0⟩ := by
  simp only [live, watch, amounts, List.foldl_cons, Accounted.report]
  split
  · simp [Accounted.report]
  · rfl

theorem resolve_of_amounts {tx : TradeRecord} (amounts : recoveredAmounts text decimalsMap tx receipt = some (value, tokens))
    (nonneg : 0 ≤ value.getD tx.value) :
    resolve text decimalsMap tx receipt = ⟨tx.updateTransactionSlot receipt.slot value tokens, value.getD tx.value⟩ := by
  simp only [resolve, amounts]
  split
  · rfl
  · congr 1
    linarith

theorem Trade.value_nonneg : 0 ≤ (t.newTransaction text info decimals request txHash).value := by
  unfold newTransaction
  dsimp only
  split <;> exact div_nonneg (Nat.cast_nonneg _) (pow_nonneg (by norm_num) _)

/-- Where nothing is read, the recovery counts the value that the record began with. -/
theorem agree_unread (unread : (receipt.status && (t.newTransaction text info decimals request txHash).isTrade) = false) :
    resolve text decimalsMap (t.newTransaction text info decimals request txHash) receipt
        = t.live text info decimals request txHash receipt ↔
      (t.newTransaction text info decimals request txHash).value = 0 := by
  rw [@resolve_of_amounts text decimalsMap receipt none none _ (by rw [recoveredAmounts, if_neg (by simp [unread])])
      Trade.value_nonneg,
    @Trade.live_of_amounts t text info decimals request txHash receipt none none
      (by rw [Trade.watchedAmounts, if_neg (by simp [unread])]), if_neg ?_]
  · simp
  · intro all
    simp_all

theorem wei_eq_zero {amount : ℕ} : (amount : ℚ) / 10 ^ 18 = 0 ↔ amount = 0 := by
  rw [div_eq_zero_iff, or_iff_left (by norm_num), Nat.cast_eq_zero]

/-- The same amount is counted with the price and without. -/
theorem counted_iff {volume : ℚ} (amount : ℕ) :
    (amount : ℚ) / 10 ^ 18 = (if 0 < volume then (amount : ℚ) / 10 ^ 18 * info.ethPrice else 0) ↔
      amount = 0 ∨ 0 < volume ∧ info.ethPrice = 1 := by
  split
  case isTrue positive =>
    rw [eq_comm, mul_right_eq_self₀, wei_eq_zero, or_comm, and_iff_right positive]
  case isFalse not => simp [not]

theorem agree_buy (buys : t.buy = true) (type : request.txType = "BUY") (status : receipt.status = true) :
    resolve text decimalsMap (t.newTransaction text info decimals request txHash) receipt
        = t.live text info decimals request txHash receipt ↔
      Overlong (·.transfers t.tokenOut request.sender) receipt.logs ∨
        ((∀ log, (receipt.logs.filter (·.transfers t.tokenOut request.sender)).getLast? = some log →
            beValue log.data = t.amountOutMinimum) ∧
          (t.amountIn.val = 0 ∨ 0 < info.tradeVolumeUsdc ∧ info.ethPrice = 1)) := by
  have read : (receipt.status && (t.newTransaction text info decimals request txHash).isTrade) = true := by
    simp [status, TradeRecord.isTrade, Trade.newTransaction, type]
  have watched : t.watchedAmounts text info decimals request txHash receipt =
      (parseTokens t.tokenOut request.sender receipt.logs).map fun raw =>
        (some ((t.amountIn.val : ℚ) / 10 ^ 18), raw.map fun raw : ℕ => (raw : ℚ) / Trade.unit decimals) := by
    rw [Trade.watchedAmounts, if_pos read, if_pos buys]
  have recovered : recoveredAmounts text decimalsMap (t.newTransaction text info decimals request txHash) receipt =
      (parseTokens t.tokenOut request.sender receipt.logs).map fun raw =>
        (none, raw.map fun raw : ℕ => (raw : ℚ) / 10 ^ (decimalsMap (text.toString t.tokenOut)).getD 18) := by
    rw [recoveredAmounts, if_pos read]
    simp only [Trade.newTransaction, type, if_true, text.parse_toString]
  by_cases long : Overlong (·.transfers t.tokenOut request.sender) receipt.logs
  · refine iff_of_true ?_ (Or.inl long)
    rw [parseTokens_of_overlong long, Option.map_none] at watched recovered
    rw [Trade.live_of_panic watched, resolve, recovered]
  · rw [parseTokens_of_short long, Option.map_some] at watched recovered
    rw [resolve_of_amounts recovered Trade.value_nonneg, Trade.live_of_amounts watched, or_iff_right long, Accounted.mk.injEq]
    have trade : (t.newTransaction text info decimals request txHash).isTrade = true := by
      simp [TradeRecord.isTrade, Trade.newTransaction, type]
    refine and_congr ?_ ?_
    · cases last : (receipt.logs.filter (·.transfers t.tokenOut request.sender)).getLast? with
      | none => simp [TradeRecord.updateTransactionSlot]
      | some log =>
        simp only [Option.map_some, TradeRecord.updateTransactionSlot, TradeRecord.mk.injEq, Trade.newTransaction, buys, if_true,
          true_and, and_true, Option.some.injEq, forall_eq']
        rw [div_left_inj' Trade.unit_ne_zero, Nat.cast_inj, eq_comm]
    · rw [trade, status, buys, Bool.true_and, Bool.and_true]
      simp only [Option.getD_none, Option.getD_some, if_true, Trade.newTransaction, buys, decide_eq_true_eq]
      exact counted_iff _

theorem agree_sell (sells : t.buy = false) (type : request.txType = "SELL") (status : receipt.status = true) :
    resolve text decimalsMap (t.newTransaction text info decimals request txHash) receipt
        = t.live text info decimals request txHash receipt ↔
      Overlong (·.withdraws t.tokenOut) receipt.logs ∨
        match paidOut t.tokenOut receipt.logs with
        | some amount => amount = t.amountOutMinimum ∧ (amount = 0 ∨ 0 < info.tradeVolumeUsdc ∧ info.ethPrice = 1)
        | none =>
          if 0 < info.tradeVolumeUsdc then info.tradeVolumeUsdc = t.amountOutMinimum / 10 ^ 18 else t.amountOutMinimum = 0 := by
  have sells' : ¬t.buy = true := by simp [sells]
  have trade : (t.newTransaction text info decimals request txHash).isTrade = true := by
    simp [TradeRecord.isTrade, Trade.newTransaction, type]
  have read : (receipt.status && (t.newTransaction text info decimals request txHash).isTrade) = true := by
    rw [status, trade, Bool.and_self]
  have watched : t.watchedAmounts text info decimals request txHash receipt =
      (parseValue t.tokenOut receipt.logs).map fun raw =>
        (raw.map fun raw : ℕ => (raw : ℚ) / 10 ^ 18, some ((t.amountIn.val : ℚ) / Trade.unit decimals)) := by
    rw [Trade.watchedAmounts, if_pos read, if_neg sells']
  have recovered : recoveredAmounts text decimalsMap (t.newTransaction text info decimals request txHash) receipt =
      (parseValue t.tokenOut receipt.logs).map fun raw => (raw.map fun raw : ℕ => (raw : ℚ) / 10 ^ 18, none) := by
    rw [recoveredAmounts, if_pos read]
    simp [Trade.newTransaction, type, text.parse_toString]
  by_cases long : Overlong (·.withdraws t.tokenOut) receipt.logs
  · refine iff_of_true ?_ (Or.inl long)
    rw [parseValue_of_overlong long, Option.map_none] at watched recovered
    rw [Trade.live_of_panic watched, resolve, recovered]
  · rw [parseValue_of_short long, Option.map_some] at watched recovered
    cases paid : paidOut t.tokenOut receipt.logs with
    | some amount =>
      rw [paid, Option.map_some] at watched recovered
      rw [resolve_of_amounts recovered (div_nonneg (Nat.cast_nonneg _) (pow_nonneg (by norm_num) _)),
        Trade.live_of_amounts watched, or_iff_right long, Accounted.mk.injEq]
      refine and_congr ?_ ?_
      · simp only [TradeRecord.updateTransactionSlot, TradeRecord.mk.injEq, Trade.newTransaction, sells, Bool.false_eq_true,
          if_false, true_and, and_true]
        rw [div_left_inj' (by norm_num), Nat.cast_inj, eq_comm]
      · rw [trade, status, Bool.true_and, Bool.and_true, if_neg sells']
        simp only [Option.getD_some, Option.map_some, decide_eq_true_eq]
        exact counted_iff _
    | none =>
      rw [paid, Option.map_none] at watched recovered
      rw [resolve_of_amounts recovered Trade.value_nonneg, Trade.live_of_amounts watched, or_iff_right long, Accounted.mk.injEq]
      refine (and_iff_right ?_).trans ?_
      · simp [TradeRecord.updateTransactionSlot]
      · rw [trade, status, Bool.true_and, Bool.and_true, if_neg sells']
        simp only [Option.getD_none, Option.map_none, decide_eq_true_eq, Trade.newTransaction, sells, Bool.false_eq_true,
          if_false]
        split
        · rw [eq_comm]
        · exact wei_eq_zero

end Agreement

/-- **Recovery agrees with the live path exactly under the condition**: it stores no amount that it reads, and counts
the record's value in the currency of the chain, whatever the transaction was. -/
theorem recovery_agrees_iff {t : Trade} {chain : Chain} {requests : List BuildRequest} {request : BuildRequest}
    (built : t.execTransaction chain = .ok requests) (sent : request ∈ requests) (text : AddressText)
    (decimalsMap : String → Option ℕ) (info : TxWatcherInfo) (decimals : UInt8) (txHash : TxHash) (receipt : Receipt) :
    resolve text decimalsMap (t.newTransaction text info decimals request txHash) receipt
        = t.live text info decimals request txHash receipt ↔
      t.Agrees info request receipt := by
  unfold Trade.Agrees
  by_cases unread : receipt.status = false ∨ request.txType = "APPROVE"
  · have nothing : (receipt.status && (t.newTransaction text info decimals request txHash).isTrade) = false := by
      rcases unread with reverted | approval
      · rw [reverted, Bool.false_and]
      · simp [TradeRecord.isTrade, Trade.newTransaction, approval]
    rw [if_pos unread, agree_unread nothing]
    simp only [Trade.newTransaction]
    split <;> exact wei_eq_zero
  · rw [if_neg unread]
    obtain ⟨status, trade⟩ := not_or.mp unread
    have status : receipt.status = true := by simpa using status
    rcases Trade.txType_of_sent built sent with ⟨buys, type⟩ | ⟨sells, type⟩
    · rw [if_pos buys]
      exact agree_buy buys type status
    · rw [if_neg (by simp [sells])]
      exact agree_sell sells (type.resolve_left trade) status

section Examples

def hexValue (c : Char) : Option ℕ := (List.range 16).find? fun n => Nat.digitChar n = c

def readBytes : List Char → Option (List UInt8)
  | [] => some []
  | [_] => none
  | high :: low :: rest => do
    let high ← hexValue high
    let low ← hexValue low
    let bytes ← readBytes rest
    some (.ofNat (16 * high + low) :: bytes)

def writeBytes (bytes : List UInt8) : List Char :=
  bytes.flatMap fun byte => [Nat.digitChar (byte.toNat / 16), Nat.digitChar (byte.toNat % 16)]

theorem readBytes_writeBytes (bytes : List UInt8) : readBytes (writeBytes bytes) = some bytes := by
  have digit : ∀ n : Fin 16, hexValue (Nat.digitChar n.val) = some n.val := by decide +kernel
  induction bytes with
  | nil => rfl
  | cons byte bytes ih =>
    have high := digit ⟨byte.toNat / 16, by have := byte.toNat_lt; omega⟩
    have low := digit ⟨byte.toNat % 16, Nat.mod_lt _ (by decide)⟩
    have whole : UInt8.ofNat (16 * (byte.toNat / 16) + byte.toNat % 16) = byte := by
      rw [Nat.div_add_mod, UInt8.ofNat_toNat]
    show readBytes (_ :: _ :: writeBytes bytes) = _
    simp only [readBytes, high, low, ih, whole, Option.bind_eq_bind, Option.bind_some]

/-- Addresses in hexadecimal digits. -/
def hexText : AddressText where
  toString address := String.ofList ('0' :: 'x' :: writeBytes address.val)
  parse text :=
    match text.toList with
    | '0' :: 'x' :: digits =>
      (readBytes digits).bind fun bytes => if length : bytes.length = 20 then some ⟨bytes, length⟩ else none
    | _ => none
  parse_toString address := by simp [readBytes_writeBytes, address.property]

/-- A swap of version 4 that pays three units of the currency out. -/
def swapLog : Log where
  address := .ofNat 3
  topics := [swapTopic]
  data := word 3

def successful (logs : List Log) : Receipt where
  blockNumber := some 9
  status := true
  logs

/-- A sale that asks for nothing, and is paid nothing. -/
theorem recovery_agrees_sale :
    (exampleSale 4).execTransaction noAllowances = .ok ((exampleSale 4).tokenApproval noAllowances ++
      (exampleSale 4).spenderApproval noAllowances 8 ++ [(exampleSale 4).sale 9]) ∧
    resolve hexText (fun _ => some 18)
        ((exampleSale 4).newTransaction hexText ⟨1, 1, 0⟩ 18 ((exampleSale 4).sale 9) ⟨5, none⟩) (successful []) =
      (exampleSale 4).live hexText ⟨1, 1, 0⟩ 18 ((exampleSale 4).sale 9) ⟨5, none⟩ (successful []) := by
  refine ⟨rfl, (@recovery_agrees_iff (exampleSale 4) noAllowances _ _ rfl ?_ hexText _ _ _ _ _).mpr ?_⟩
  · exact List.mem_append_right _ (List.mem_singleton.mpr rfl)
  · simp [Trade.Agrees, successful, paidOut, exampleSale, Trade.sale, Overlong]

/-- At a price of 2, a sale that is paid three units: the recovery leaves the value as it was, and counts half. -/
theorem recovery_agrees_fails :
    let request := (exampleSale 4).sale 9
    (exampleSale 4).execTransaction noAllowances = .ok
      ((exampleSale 4).tokenApproval noAllowances ++ (exampleSale 4).spenderApproval noAllowances 8 ++ [request]) ∧
    let recovered := resolve hexText (fun _ => some 18)
      ((exampleSale 4).newTransaction hexText ⟨1, 2, 1⟩ 18 request ⟨5, none⟩) (successful [swapLog])
    let live := (exampleSale 4).live hexText ⟨1, 2, 1⟩ 18 request ⟨5, none⟩ (successful [swapLog])
    recovered.record.value = 0 ∧ live.record.value = 3 / 10 ^ 18 ∧
      recovered.volume = 3 / 10 ^ 18 ∧ live.volume = 6 / 10 ^ 18 ∧ recovered ≠ live :=
  ⟨rfl, by decide +kernel⟩

end Examples

end RndRust.VolumeMaker.Evm
