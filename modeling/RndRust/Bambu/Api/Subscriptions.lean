import Mathlib.Data.Finset.Basic
import RndRust.Lib.Runs

/-! One WebSocket of `ws.rs`, and what the requests of administrators in `printers.rs` do to the
tables and broadcast. An action is what one task does from one `await` to the next; a request
that changes a table broadcasts in a step of its own. -/
namespace RndRust.Bambu.Api
open Lib

structure WsSession where
  userId : String
  role : String
  deriving DecidableEq, Repr

/-- What is broadcast. -/
inductive WsServerMessage where
  | telemetry (printerId : String)
  | assignmentAdded (printerId targetUserId : String)
  | assignmentRemoved (printerId targetUserId : String)
  deriving DecidableEq, Repr

/-- How many messages a receiver may be behind. -/
def broadcastCapacity : ℕ := 256

/-- The loop that handles what the client sends. -/
inductive Reader where
  | unconnected
  | reading
  /-- The printers that the query has allowed, before they are inserted. -/
  | inserting (allowed : List String)
  | closed
  deriving DecidableEq, Repr

/-- `send_task`; broadcasts are known by their number. -/
inductive SendTask where
  | unconnected
  | receiving
  /-- It has received what is first in its queue. -/
  | deciding
  | sending (number : ℕ) (message : WsServerMessage)
  | ended
  deriving DecidableEq, Repr

/-- What was sent on the socket. -/
structure Sent where
  number : ℕ
  message : WsServerMessage
  /-- How many broadcasts there were when the access to the printer was lost, if the message is
  telemetry and the access had not come back. -/
  lostAt : Option ℕ
  deriving DecidableEq, Repr

structure Service where
  printers : String → Bool := fun _ => false
  /-- The rows of `printer_assignments`, by user and printer. -/
  assignments : String → String → Bool := fun _ _ => false
  /-- What requests that have changed the table will broadcast. -/
  requests : List WsServerMessage := []
  broadcasts : ℕ := 0
  /-- How many broadcasts there were when the user lost the access to a printer. -/
  lostAt : String → Option ℕ := fun _ => none
  reader : Reader := .unconnected
  sendTask : SendTask := .unconnected
  /-- What `send_task` has yet to handle. -/
  queue : List (ℕ × WsServerMessage) := []
  subSet : Finset String := ∅
  sent : List Sent := []

/-- The query of `filter_allowed_printers` may fail. -/
def filterAllowedPrinters (s : Service) (session : WsSession) (ok : Bool) (printerIds : List String) : List String :=
  if session.role = "admin" then printerIds
  else if ok then printerIds.filter (s.assignments session.userId) else []

namespace Service

def publish (s : Service) (message : WsServerMessage) : Service :=
  { s with broadcasts := s.broadcasts + 1, queue := s.queue ++ [(s.broadcasts, message)] }

def assignPrinter (s : Service) (session : WsSession) (id user : String) : Service :=
  if s.printers id ∧ ¬ s.assignments user id then
    { s with
      assignments := Function.update s.assignments user (Function.update (s.assignments user) id true)
      requests := s.requests ++ [.assignmentAdded id user]
      lostAt := if user = session.userId then Function.update s.lostAt id none else s.lostAt }
  else s

def unassignPrinter (s : Service) (session : WsSession) (id user : String) : Service :=
  if s.assignments user id then
    { s with
      assignments := Function.update s.assignments user (Function.update (s.assignments user) id false)
      requests := s.requests ++ [.assignmentRemoved id user]
      lostAt := if user = session.userId then Function.update s.lostAt id (some s.broadcasts) else s.lostAt }
  else s

/-- The assignments are deleted with the printer. -/
def removePrinter (s : Service) (session : WsSession) (id : String) : Service :=
  { s with
    printers := Function.update s.printers id false
    assignments := fun user => Function.update (s.assignments user) id false
    lostAt := if s.assignments session.userId id then Function.update s.lostAt id (some s.broadcasts) else s.lostAt }

def lost (s : Service) : WsServerMessage → Option ℕ
  | .telemetry id => s.lostAt id
  | _ => none

/-- Whether a message is for the socket, and what is left of the subscriptions. -/
def shouldSend (s : Service) (session : WsSession) : WsServerMessage → Bool × Finset String
  | .telemetry id => (id ∈ s.subSet, s.subSet)
  | .assignmentAdded _ user => (user = session.userId, s.subSet)
  | .assignmentRemoved id user =>
    if user = session.userId then (true, s.subSet.erase id) else (false, s.subSet)

def receive (s : Service) : Option Service :=
  if s.sendTask = .receiving ∧ s.queue ≠ [] then
    -- A receiver that lags behind gets an error.
    some { s with sendTask := if s.queue.length ≤ broadcastCapacity then .deciding else .ended }
  else none

def decide (s : Service) (session : WsSession) : Option Service :=
  match s.sendTask, s.queue with
  | .deciding, (number, message) :: queue =>
    let (send, subSet) := s.shouldSend session message
    some { s with queue, subSet, sendTask := if send then .sending number message else .receiving }
  | _, _ => none

def send (s : Service) (ok : Bool) : Option Service :=
  match s.sendTask with
  | .sending number message =>
    if ok then
      some { s with sendTask := .receiving, sent := s.sent ++ [⟨number, message, s.lost message⟩] }
    else some { s with sendTask := .ended }
  | _ => none

end Service

inductive AccessAction where
  | addPrinter (id : String)
  | removePrinter (id : String)
  | assignPrinter (id user : String)
  | unassignPrinter (id user : String)
  /-- A request broadcasts. -/
  | broadcast (request : ℕ)
  | telemetry (id : String)
  | connect
  | subscribe (printerIds : List String) (ok : Bool)
  | insert
  | unsubscribe (printerIds : List String)
  | close
  | abort
  | receive
  | decide
  | send (ok : Bool)
  deriving DecidableEq, Repr

def Service.step (session : WsSession) (s : Service) : AccessAction → Option Service
  | .addPrinter id => some { s with printers := Function.update s.printers id true }
  | .removePrinter id => some (s.removePrinter session id)
  | .assignPrinter id user => some (s.assignPrinter session id user)
  | .unassignPrinter id user => some (s.unassignPrinter session id user)
  | .broadcast r =>
    match s.requests[r]? with
    | some message => some { s.publish message with requests := s.requests.eraseIdx r }
    | none => none
  | .telemetry id => some (s.publish (.telemetry id))
  | .connect =>
    if s.reader = .unconnected then
      -- It subscribes now, so what was broadcast before is not for it.
      some { s with reader := .reading, sendTask := .receiving, queue := [], subSet := ∅ }
    else none
  | .subscribe printerIds ok =>
    if s.reader = .reading then
      some { s with reader := .inserting (filterAllowedPrinters s session ok printerIds) }
    else none
  | .insert =>
    match s.reader with
    | .inserting allowed => some { s with reader := .reading, subSet := s.subSet ∪ allowed.toFinset }
    | _ => none
  | .unsubscribe printerIds =>
    if s.reader = .reading then some { s with subSet := s.subSet \ printerIds.toFinset } else none
  | .close => if s.reader = .reading then some { s with reader := .closed } else none
  | .abort => if s.reader = .closed then some { s with sendTask := .ended } else none
  | .receive => s.receive
  | .decide => s.decide session
  | .send ok => s.send ok

/-- What happens to the socket of a session. -/
def watching (session : WsSession) : Machine Service AccessAction where
  initial := {}
  step := Service.step session

end RndRust.Bambu.Api
