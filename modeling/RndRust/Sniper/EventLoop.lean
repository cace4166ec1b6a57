import RndRust.Lib.Runs
import RndRust.Lib.Updates
import RndRust.Sniper.State

/-! The event loop of `main.rs`: what it does with a transaction that was sent, with one that
was confirmed, and with a request that is to be tried again. Ids that the loop draws are given
with the event. -/
namespace RndRust.Sniper
open Lib

/-- A transaction that a block builder has taken. -/
structure MonitorTx where
  uuid : String
  signature : String
  confirmed : Bool
  success : Bool
  checked : Bool
  task : Option BuyRequest
  deriving DecidableEq

/-- What `sign_and_send` reports of the transaction of a request. -/
def MonitorTx.new (payload : BuyRequest) (signature : String) : MonitorTx where
  uuid := payload.uuid
  signature
  confirmed := false
  success := false
  checked := false
  task := some payload

structure GeyserProcessedTx where
  signature : String
  success : Bool
  deriving DecidableEq

inductive MpscTask where
  | txSent (tx : MonitorTx)
  | txConfirmation (tx : GeyserProcessedTx)
  | retry (request : BuyRequest)
  deriving DecidableEq

/-- The state the loop shares, and its own. -/
structure EventLoop where
  state : AppState
  watchedTxs : List MonitorTx := []
  processedTxs : String → Option GeyserProcessedTx := fun _ => none
  tasksCanRetry : String → Option Bool := fun _ => none

/-- What comes of an event: the loop goes on, sends an event to itself and buys. -/
structure Handled where
  loop : EventLoop
  sent : Option MpscTask := none
  fullBuy : Option BuyRequest := none

namespace EventLoop

/-- `TxSent`. -/
def txSent (s : EventLoop) (tx : MonitorTx) (retryUuid : String) : EventLoop :=
  let watched := { s with watchedTxs := s.watchedTxs ++ [tx] }
  if (s.state.spamTasksAvailable tx.uuid).isNone then
    let state := s.state.addSpamTasksAvailable tx.uuid
    match tx.task with
    | some task => { watched with state := state.addSpamTask { task with retryUuid } }
    | none => { watched with state }
  else watched

/-- The entry a confirmation is for. -/
def waiting (signature : String) (x : MonitorTx) : Bool :=
  x.signature = signature && !x.confirmed && !x.checked

/-- Ask for another try of a transaction that has failed, once for each try. -/
def retryFailed (s : EventLoop) (task : BuyRequest) (retryUuid : String) : Handled :=
  if (s.tasksCanRetry task.retryUuid).isNone then
    { loop := { s with tasksCanRetry := Function.update s.tasksCanRetry task.retryUuid (some true) }
      sent := some (.retry { task with retryUuid }) }
  else { loop := s }

/-- `TxConfirmation`. -/
def txConfirmation (s : EventLoop) (tx : GeyserProcessedTx) (retryUuid : String) : Handled :=
  let s := { s with processedTxs := Function.update s.processedTxs tx.signature (some tx) }
  match s.watchedTxs.findIdx? (waiting tx.signature) with
  | some idx =>
    match s.watchedTxs[idx]? with
    | some x =>
      let watchedTxs := s.watchedTxs.set idx { x with confirmed := true, checked := true, success := tx.success }
      match x.task with
      | some task =>
        let s := { s with watchedTxs, state := s.state.removeSpamTasksByUuid task.uuid }
        if tx.success then { loop := s } else s.retryFailed task retryUuid
      | none => { loop := { s with watchedTxs } }
    | none => { loop := s }
  | none => { loop := s }

/-- A transaction of the request that was confirmed. -/
def found (s : EventLoop) (uuid : String) : Option MonitorTx :=
  s.watchedTxs.find? fun x => x.uuid = uuid && x.confirmed && x.success

/-- `Retry`. -/
def retry (s : EventLoop) (request : BuyRequest) (retryUuid : String) : Handled :=
  match s.found request.uuid with
  | some _ => { loop := s }
  | none =>
    match s.state.retries request.uuid with
    | some retries =>
      if retries < request.tries then
        { loop := { s with state := s.state.addRetries request.uuid (retries + 1) }
          fullBuy := some { request with retryUuid } }
      else { loop := { s with state := s.state.removeSpamTasksByUuid request.uuid } }
    | none => { loop := s }

def handle (s : EventLoop) (event : MpscTask) (retryUuid : String) : Handled :=
  match event with
  | .txSent tx => { loop := s.txSent tx retryUuid }
  | .txConfirmation tx => s.txConfirmation tx retryUuid
  | .retry request => s.retry request retryUuid

end EventLoop

end RndRust.Sniper
