import RndRust.Bambu.Commands
import RndRust.Lib.Runs
import RndRust.Lib.Table

/-! The bridge between the bus and the printers, `printer_manager.rs`, with the event loop
task of a connection from `bambu_mqtt.rs` and the handler task from `commands.rs`. Actions
are what a task does from one `await` to the next. -/
namespace RndRust.Bambu
open Lib

structure PrinterInfo where
  id : String
  name : String
  ip : String
  serial : String
  accessCode : String
  model : String
  deriving DecidableEq, Repr

structure PrintStatus where
  command : String
  deriving DecidableEq, Repr

/-- Where the event loop task of a connection is. -/
inductive Reader where
  | polling
  /-- It hands a print report to the bridge. -/
  | sending (report : PrintStatus)
  | stopped
  deriving DecidableEq, Repr

/-- A task that listens for commands. Nothing aborts it, and its subscription does not end. -/
structure Handler where
  mqttTopic : String
  seqId : ℕ
  /-- The commands that wait in the subscription, by their number. -/
  inbox : List ℕ
  deriving DecidableEq, Repr

/-- `spawn_command_handler`. -/
def Handler.new (printer : PrinterInfo) : Handler := ⟨"device/" ++ printer.serial ++ "/request", 1000, []⟩

/-- A connection to a printer, and the tasks it has. -/
structure Connection where
  /-- The task that opened it. -/
  task : ℕ
  printer : PrinterInfo
  reader : Reader := .polling
  /-- The reports that wait for the bridge; `none` once it has dropped the receiver. -/
  reports : Option (List PrintStatus) := some []
  handler : Option Handler := none
  deriving DecidableEq, Repr

/-- Where the task of a printer is. A bridge never ends cleanly, only by an error. -/
inductive Phase where
  | connecting
  | subscribing (connection : ℕ)
  | bridging (connection : ℕ)
  | sleeping
  | aborted
  deriving DecidableEq, Repr

/-- The connection whose reports the task receives. -/
def Phase.connection : Phase → Option ℕ
  | .subscribing c | .bridging c => some c
  | _ => none

structure PrinterTask where
  info : PrinterInfo
  phase : Phase
  deriving DecidableEq, Repr

/-- A message on `printers.<id>.cmd`. -/
structure Published where
  id : String
  /-- What the payload says, when it is valid. -/
  request : Option CommandRequest
  /-- The connection over which the printer was bridged at the time. -/
  bridged : Option ℕ

/-- A request that an event loop has taken for its printer. -/
structure Forward where
  command : ℕ
  connection : ℕ
  topic : String
  payload : Value

structure Bridge where
  tasks : List PrinterTask := []
  printers : Table String ℕ := ∅
  connections : List Connection := []
  published : List Published := []
  forwarded : List Forward := []

namespace Bridge

/-- Drop the receiver of a connection. -/
def hangUp (connections : List Connection) : Option ℕ → List Connection
  | none => connections
  | some c => connections.modify c fun conn => { conn with reports := none }

/-- A task leaves its bridge. -/
def leave (s : Bridge) (t : ℕ) (phase : Phase) : Bridge :=
  match s.tasks[t]? with
  | none => s
  | some task =>
    { s with
      tasks := s.tasks.set t { task with phase }
      connections := hangUp s.connections task.phase.connection }

def removePrinter (s : Bridge) (id : String) : Bridge :=
  match s.printers.lookup id with
  | none => s
  | some t => { s.leave t .aborted with printers := s.printers.erase id }

def addPrinter (s : Bridge) (printer : PrinterInfo) : Bridge :=
  let s := s.removePrinter printer.id
  { s with
    tasks := s.tasks ++ [⟨printer, .connecting⟩]
    printers := s.printers.insert printer.id s.tasks.length }

/-- The connection over which a printer is bridged now. -/
def bridgedOver (s : Bridge) (id : String) : Option ℕ :=
  match (s.printers.lookup id).bind fun t => s.tasks[t]? with
  | some ⟨_, .bridging c⟩ => some c
  | _ => none

end Bridge

/-- A message from `bridge.events`. -/
structure BridgeEvent where
  event : String
  printer : Option PrinterInfo := none
  id : Option String := none

def Bridge.handleEvent (s : Bridge) (e : BridgeEvent) : Bridge :=
  match e.event, e.printer, e.id with
  | "printer_added", some printer, _ => s.addPrinter printer
  | "printer_removed", _, some id => s.removePrinter id
  | _, _, _ => s

/-- The bus puts a message into a subscription. -/
def Connection.deliver (conn : Connection) (n : ℕ) : Connection :=
  { conn with handler := conn.handler.map fun handler => { handler with inbox := handler.inbox ++ [n] } }

namespace Bridge

/-- The branch of `select!` that receives a report. -/
def receive (s : Bridge) (t c : ℕ) (published : Bool) : Option Bridge :=
  match s.connections[c]? with
  | none => none
  | some conn =>
    match conn.reports, conn.reader with
    | some (report :: rest), _ =>
      if report.command = "push_status" ∧ published = false then some (s.leave t .sleeping)
      else some { s with connections := s.connections.set c { conn with reports := some rest } }
    | some [], .stopped => some (s.leave t .sleeping)
    | _, _ => none

/-- The event loop task hands its report over. -/
def send (s : Bridge) (c : ℕ) : Option Bridge :=
  match s.connections[c]? with
  | none => none
  | some conn =>
    match conn.reader, conn.reports with
    | .sending _, none => some { s with connections := s.connections.set c { conn with reader := .stopped } }
    | .sending report, some waiting =>
      if waiting.length < 64 then
        some { s with
          connections := s.connections.set c { conn with reader := .polling, reports := some (waiting ++ [report]) } }
      else none
    | _, _ => none

/-- The request a number stands for. -/
def request (s : Bridge) (n : ℕ) : Option CommandRequest := s.published[n]?.bind Published.request

/-- What the event loop takes of a command: nothing once it has stopped. -/
def forwards (conn : Connection) (handler : Handler) (c n : ℕ) (request : Option CommandRequest) : List Forward :=
  match request with
  | none => []
  | some cmd =>
    match mqttPayload cmd (toString (handler.seqId + 1)) with
    | none => []
    | some payload => if conn.reader = .stopped then [] else [⟨n, c, handler.mqttTopic, payload⟩]

/-- A handler takes the next command. -/
def handle (s : Bridge) (c : ℕ) : Option Bridge :=
  match s.connections[c]? with
  | none => none
  | some conn =>
    match conn.handler with
    | none => none
    | some handler =>
      match handler.inbox with
      | [] => none
      | n :: inbox =>
        let seqId := if (s.request n).isSome then handler.seqId + 1 else handler.seqId
        some { s with
          connections := s.connections.set c { conn with handler := some { handler with seqId, inbox } }
          forwarded := s.forwarded ++ forwards conn handler c n (s.request n) }

end Bridge

inductive Action where
  | event (e : BridgeEvent)
  | connect (task : ℕ) (ok : Bool)
  | subscribe (task : ℕ) (ok : Bool)
  | wake (task : ℕ)
  | receive (task : ℕ) (published : Bool)
  | report (connection : ℕ) (status : PrintStatus)
  | send (connection : ℕ)
  | publish (id : String) (request : Option CommandRequest)
  | handle (connection : ℕ)

section Machine

-- Whether a subscription to the commands of one id gets those of another.
variable (covers : String → String → Bool)

def Bridge.step (s : Bridge) : Action → Option Bridge
  | .event e => some (s.handleEvent e)
  | .connect t ok =>
    match s.tasks[t]? with
    | some ⟨info, .connecting⟩ =>
      if ok then
        some { s with
          tasks := s.tasks.set t ⟨info, .subscribing s.connections.length⟩
          connections := s.connections ++ [{ task := t, printer := info }] }
      else some (s.leave t .sleeping)
    | _ => none
  | .subscribe t ok =>
    match s.tasks[t]? with
    | some ⟨info, .subscribing c⟩ =>
      if ok then
        some { s with
          tasks := s.tasks.set t ⟨info, .bridging c⟩
          connections := s.connections.modify c fun conn => { conn with handler := some (Handler.new info) } }
      else some (s.leave t .sleeping)
    | _ => none
  | .wake t =>
    match s.tasks[t]? with
    | some ⟨info, .sleeping⟩ => some { s with tasks := s.tasks.set t ⟨info, .connecting⟩ }
    | _ => none
  | .receive t published =>
    match s.tasks[t]? with
    | some ⟨_, .bridging c⟩ => s.receive t c published
    | _ => none
  | .report c status =>
    match s.connections[c]? with
    | some conn =>
      if conn.reader = .polling then
        some { s with connections := s.connections.set c { conn with reader := .sending status } }
      else none
    | none => none
  | .send c => s.send c
  | .publish id request =>
    some { s with
      published := s.published ++ [⟨id, request, s.bridgedOver id⟩]
      connections := s.connections.map fun conn =>
        if covers conn.printer.id id then conn.deliver s.published.length else conn }
  | .handle c => s.handle c

/-- The bridge; the printers of the database are added first, like those of later events. -/
def bridge : Machine Bridge Action where
  initial := {}
  step := Bridge.step covers

end Machine

end RndRust.Bambu
