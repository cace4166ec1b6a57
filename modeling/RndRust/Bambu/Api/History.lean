import Mathlib.Data.Finset.Card
import Mathlib.Data.Finset.Range
import Mathlib.Data.Int.Notation
import RndRust.Lib.Backlog
import RndRust.Lib.Runs
import RndRust.Lib.Updates

/-! The print history of `main.rs`: the listener for telemetry spawns a task for each transition
of a printer, and the task keeps `print_jobs` up. The state is what concerns one printer; a task
runs from one statement of the database to the next. -/
namespace RndRust.Bambu.Api
open Lib

inductive JobStatus where
  | printing
  | completed
  | failed
  deriving DecidableEq, Repr

/-- A row of `print_jobs`; times are in nanoseconds. -/
structure PrintJob where
  fileName : String
  status : JobStatus := .printing
  totalLayers : ℤ
  startedAt : ℤ
  finishedAt : Option ℤ := none
  durationSeconds : Option ℤ := none
  deriving DecidableEq, Repr

structure TelemetrySnapshot where
  gcodeState : String
  subtaskName : String := ""
  totalLayerNum : ℕ := 0
  deriving DecidableEq, Repr

/-- A cast to 32 bits with a sign. -/
def asI32 (n : ℤ) : ℤ := n.bmod 4294967296

def isActive (gcodeState : String) : Bool := gcodeState = "RUNNING" || gcodeState = "PAUSE"

/-- What is logged for a transition. -/
inductive Logged where
  | started
  | ended (status : JobStatus)
  deriving DecidableEq, Repr

/-- The `match` of `log_state_transition`. -/
def transition (prevState newState : String) : Option Logged :=
  if newState = "RUNNING" ∧ ¬ isActive prevState then some .started
  else if isActive prevState ∧ newState = "FINISH" then some (.ended .completed)
  else if isActive prevState ∧ newState = "FAILED" then some (.ended .failed)
  else none

inductive LogPhase where
  | spawned
  /-- The row to update is selected. -/
  | found (job : ℕ) (status : JobStatus) (now : ℤ)
  | finished
  deriving DecidableEq, Repr

def LogPhase.job : LogPhase → Option ℕ
  | .found job _ _ => some job
  | _ => none

/-- A task that runs `log_state_transition`. -/
structure LogTask where
  prevState : String
  newState : String
  fileName : String
  totalLayers : ℤ
  phase : LogPhase := .spawned
  deriving DecidableEq, Repr

structure History where
  /-- The entry of `prev_states`. -/
  prevState : Option String := none
  /-- The last state received that is not empty. -/
  lastState : String := ""
  /-- The tasks in the order in which they were spawned. -/
  tasks : List LogTask := []
  jobs : List PrintJob := []
  deriving DecidableEq, Repr

namespace History

def setPhase (s : History) (t : ℕ) (task : LogTask) (phase : LogPhase) : History :=
  { s with tasks := s.tasks.set t { task with phase } }

def isPrinting (s : History) (j : ℕ) : Prop := ∃ job ∈ s.jobs[j]?, job.status = .printing

instance (s : History) (j : ℕ) : Decidable (s.isPrinting j) :=
  inferInstanceAs (Decidable (∃ job ∈ s.jobs[j]?, job.status = .printing))

/-- The rows with status `printing`. -/
def printing (s : History) : Finset ℕ := (Finset.range s.jobs.length).filter s.isPrinting

/-- The first of the rows that are printing, by the time they started, latest first. -/
def isFirst (s : History) (j : ℕ) : Prop :=
  ∃ job ∈ s.jobs[j]?, job.status = .printing ∧
    ∀ other ∈ s.jobs, other.status = .printing → other.startedAt ≤ job.startedAt

instance (s : History) (j : ℕ) : Decidable (s.isFirst j) :=
  inferInstanceAs (Decidable (∃ job ∈ s.jobs[j]?, job.status = .printing ∧
    ∀ other ∈ s.jobs, other.status = .printing → other.startedAt ≤ job.startedAt))

def telemetry (s : History) (snapshot : TelemetrySnapshot) : History :=
  let prev := s.prevState.getD ""
  let new := snapshot.gcodeState
  { s with
    prevState := some new
    lastState := if new = "" then s.lastState else new
    tasks :=
      if prev ≠ new ∧ prev ≠ "" then
        s.tasks ++ [⟨prev, new, snapshot.subtaskName, asI32 snapshot.totalLayerNum, .spawned⟩]
      else s.tasks }

def complete (job : PrintJob) (status : JobStatus) (now : ℤ) : PrintJob :=
  { job with
    status
    finishedAt := some now
    durationSeconds := some (asI32 ((now - job.startedAt).tdiv 1000000000)) }

def insertJob (s : History) (job : PrintJob) : History := { s with jobs := s.jobs ++ [job] }

def updateJob (s : History) (j : ℕ) (status : JobStatus) (now : ℤ) : History :=
  { s with jobs := s.jobs.modify j (complete · status now) }

/-- A task goes on; where it selects a row the database says which is first. -/
def logStateTransition (s : History) (t : ℕ) (task : LogTask) (now : ℤ) (first : ℕ) : Option History :=
  match task.phase with
  | .spawned =>
    match transition task.prevState task.newState with
    | some .started =>
      some ((s.setPhase t task .finished).insertJob ⟨task.fileName, .printing, task.totalLayers, now, none, none⟩)
    | some (.ended status) =>
      if s.printing = ∅ then some (s.setPhase t task .finished)
      else if s.isFirst first then some (s.setPhase t task (.found first status now))
      else none
    | none => some (s.setPhase t task .finished)
  | .found j status now => some ((s.setPhase t task .finished).updateJob j status now)
  | .finished => none

end History

inductive LogAction where
  | telemetry (snapshot : TelemetrySnapshot)
  | log (task : ℕ) (now : ℤ) (first : ℕ)
  deriving DecidableEq, Repr

def History.step (s : History) : LogAction → Option History
  | .telemetry snapshot => some (s.telemetry snapshot)
  | .log t now first =>
    match s.tasks[t]? with
    | some task => s.logStateTransition t task now first
    | none => none

/-- What happens to the history of one printer. -/
def logging : Machine History LogAction where
  initial := {}
  step := History.step

/-- All printers; no step concerns several of them. -/
def histories : Machine (String → History) ((String × LogAction) ⊕ Empty) := logging.family Empty.elim

end RndRust.Bambu.Api
