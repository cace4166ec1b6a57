import Mathlib.Data.Int.Notation
import Mathlib.Data.Nat.Notation
import RndRust.Lib.Runs

/-! Who owns a project, `task_ownership.rs`: the scripts that Redis runs on its record. -/
namespace RndRust.VolumeMaker

structure TaskOwnership where
  workerId : String
  generation : ℕ
  deriving DecidableEq, Repr

variable {record : Option TaskOwnership} {o : TaskOwnership} {w : String}

/-- The record after a claim, and what the worker is told. -/
def claimTask (record : Option TaskOwnership) (workerId : String) : Option TaskOwnership × Option TaskOwnership :=
  match record with
  | none => (some ⟨workerId, 1⟩, some ⟨workerId, 1⟩)
  | some o =>
    if o.workerId = workerId then
      (some { o with generation := o.generation + 1 }, some { o with generation := o.generation + 1 })
    else (some o, none)

/-- The record after a release, and whether there was something to release. -/
def releaseTask (record : Option TaskOwnership) (workerId : String) : Option TaskOwnership × Bool :=
  match record with
  | none => (none, false)
  | some o => if o.workerId = workerId then (none, true) else (some o, false)

/-- Whether a claim of this worker is granted. -/
def Claimable (record : Option TaskOwnership) (w : String) : Prop := ∀ o ∈ record, o.workerId = w

instance : Decidable (Claimable record w) :=
  inferInstanceAs (Decidable (∀ o ∈ record, o.workerId = w))

/-- The generation that a claim of the owner hands out; it starts over with a new record. -/
def nextGeneration (record : Option TaskOwnership) : ℕ := (record.map TaskOwnership.generation).getD 0 + 1

theorem claimTask_granted (claimable : Claimable record w) :
    claimTask record w = (some ⟨w, nextGeneration record⟩, some ⟨w, nextGeneration record⟩) := by
  cases record with
  | none => rfl
  | some o =>
    obtain rfl := claimable o rfl
    simp [claimTask, nextGeneration]

theorem claimTask_refused (other : ¬Claimable record w) : claimTask record w = (record, none) := by
  cases record with
  | none => exact absurd (by simp [Claimable]) other
  | some o =>
    have apart : o.workerId ≠ w := by simpa [Claimable] using other
    simp [claimTask, apart]

/-- A release leaves no record but that of another worker. -/
theorem releaseTask_record : (releaseTask record w).1 = if Claimable record w then none else record := by
  cases record with
  | none => simp [releaseTask]
  | some o =>
    by_cases own : o.workerId = w
    · simp [releaseTask, Claimable, own]
    · simp [releaseTask, Claimable, own]

theorem releaseTask_held (held : (releaseTask record w).1 = some o) : record = some o := by
  rw [releaseTask_record] at held
  split at held
  · cases held
  · exact held

end RndRust.VolumeMaker

/-! The workers that trade for a project: `start_task.rs` and `stop_task.rs` publish commands,
`commands.rs` handles them, and `volume_maker.rs` is the loop that trades. The state is what
concerns one project; an action is what some task does from one `await` to the next, or one
step of its own between those of other threads. -/
namespace RndRust.VolumeMaker
open Lib

inductive Command where
  | start
  | stop
  deriving DecidableEq, Repr

/-- A request for a command, by how far it has come. -/
inductive Request where
  /-- Whether the database says that the project runs. -/
  | start (marked : Bool)
  | stop (published : Bool)
  | finished
  deriving DecidableEq, Repr

/-- A handler of `TASK_START`, by what it has done. -/
inductive StartPhase where
  | received
  /-- The database said that the project runs. -/
  | checked
  | claimed (generation : ℕ)
  /-- The loop that was stored is aborted. -/
  | aborted (generation : ℕ)
  /-- The task is in the local cache. -/
  | cached (generation : ℕ)
  | spawned (loop : ℕ)
  deriving DecidableEq, Repr

/-- A handler of `TASK_STOP`, by what it has done. -/
inductive StopPhase where
  | received
  | released
  | removed
  deriving DecidableEq, Repr

inductive HandlerPhase where
  | start (phase : StartPhase)
  | stop (phase : StopPhase)
  | done
  deriving DecidableEq, Repr

structure Handler where
  worker : String
  phase : HandlerPhase
  deriving DecidableEq, Repr

/-- Where the loop of `start_volume_maker` is. -/
inductive LoopPhase where
  | entered
  /-- At the top, before it reads the record. -/
  | ownership
  /-- Before it reads the local cache. -/
  | cache
  | trading
  | sleeping
  /-- A tick of the sleep found the task in the local cache. -/
  | ticked
  /-- `auto_stop_task`, after too many failures. -/
  | stopping
  | removing
  | aborting
  /-- Before the database says that the project is stopped. -/
  | reporting
  /-- It has exited or was aborted. -/
  | ended
  deriving DecidableEq, Repr

structure Loop where
  worker : String
  generation : ℕ
  phase : LoopPhase
  deriving DecidableEq, Repr

/-- What a worker keeps for the project. -/
structure AppState where
  /-- Whether the task is in the local cache. -/
  task : Bool := false
  taskHandle : Option ℕ := none
  deriving DecidableEq, Repr

structure Project where
  record : Option TaskOwnership := none
  /-- Whether the status in the database is `running`. -/
  running : Bool := false
  /-- What was requested last. -/
  last : Option Command := none
  requests : List Request := []
  undelivered : List Command := []
  handlers : List Handler := []
  loops : List Loop := []
  workers : String → AppState := fun _ => {}

/-- What comes of a call to Redis or the database: it may fail, and it may be lost after it
was executed. -/
inductive Outcome where
  | completed
  | lost
  | failed
  deriving DecidableEq, Repr

/-- Which way a loop goes on where it has a choice. -/
inductive Way where
  | on
  /-- The sleep is over. -/
  | elapsed
  /-- The trade was one failure too many. -/
  | exhausted
  deriving DecidableEq, Repr

namespace Project

def setPhase (s : Project) (h : ℕ) (w : String) (phase : HandlerPhase) : Project :=
  { s with handlers := s.handlers.set h ⟨w, phase⟩ }

def setWorker (s : Project) (w : String) (state : AppState) : Project :=
  { s with workers := Function.update s.workers w state }

def setLoop (s : Project) (l : ℕ) (loop : Loop) (phase : LoopPhase) : Project :=
  { s with loops := s.loops.set l { loop with phase } }

def abortTaskLoop (s : Project) (w : String) : Project :=
  match (s.workers w).taskHandle with
  | none => s
  | some l =>
    { s with
      loops := s.loops.modify l fun loop => { loop with phase := .ended }
      workers := Function.update s.workers w { s.workers w with taskHandle := none } }

section Abort

variable {s : Project} {w : String}

@[simp] theorem abort_record : (s.abortTaskLoop w).record = s.record := by
  unfold abortTaskLoop
  split <;> rfl

@[simp] theorem abort_last : (s.abortTaskLoop w).last = s.last := by
  unfold abortTaskLoop
  split <;> rfl

@[simp] theorem abort_requests : (s.abortTaskLoop w).requests = s.requests := by
  unfold abortTaskLoop
  split <;> rfl

@[simp] theorem abort_undelivered : (s.abortTaskLoop w).undelivered = s.undelivered := by
  unfold abortTaskLoop
  split <;> rfl

@[simp] theorem abort_handlers : (s.abortTaskLoop w).handlers = s.handlers := by
  unfold abortTaskLoop
  split <;> rfl

end Abort

/-- `get_owner`, as the loop compares it. -/
def owns (s : Project) (loop : Loop) : Bool := s.record = some ⟨loop.worker, loop.generation⟩

/-- A handler of `TASK_START` goes on. -/
def handleStart (s : Project) (h : ℕ) (w : String) (out : Outcome) : StartPhase → Project
  | .received => s.setPhase h w (if s.running ∧ out = .completed then .start .checked else .done)
  | .checked =>
    match out, claimTask s.record w with
    | .failed, _ => s.setPhase h w .done
    | .lost, (record, _) => { s.setPhase h w .done with record }
    | .completed, (record, none) => { s.setPhase h w .done with record }
    | .completed, (record, some o) => { s.setPhase h w (.start (.claimed o.generation)) with record }
  | .claimed g => (s.abortTaskLoop w).setPhase h w (.start (.aborted g))
  | .aborted g => (s.setWorker w { s.workers w with task := true }).setPhase h w (.start (.cached g))
  | .cached g =>
    { s.setPhase h w (.start (.spawned s.loops.length)) with loops := s.loops ++ [⟨w, g, .entered⟩] }
  | .spawned l => (s.setWorker w { s.workers w with taskHandle := some l }).setPhase h w .done

/-- A handler of `TASK_STOP` goes on. -/
def handleStop (s : Project) (h : ℕ) (w : String) (out : Outcome) : StopPhase → Project
  | .received =>
    match out, releaseTask s.record w with
    | .failed, _ => s.setPhase h w (.stop .released)
    | .lost, (record, _) => { s.setPhase h w (.stop .released) with record }
    | .completed, (record, true) => { s.setPhase h w (.stop .released) with record }
    | .completed, (record, false) => { s.setPhase h w .done with record }
  | .released => (s.setWorker w { s.workers w with task := false }).setPhase h w (.stop .removed)
  | .removed => (s.abortTaskLoop w).setPhase h w .done

/-- The loop goes on; `none` once it is over. -/
def runLoop (s : Project) (l : ℕ) (loop : Loop) (out : Outcome) (way : Way) : Option Project :=
  let cached := (s.workers loop.worker).task
  match loop.phase with
  | .entered => some (s.setLoop l loop (if cached then .ownership else .ended))
  | .ownership => some (s.setLoop l loop (if out = .completed ∧ s.owns loop then .cache else .ended))
  | .cache => some (s.setLoop l loop (if cached then .trading else .ended))
  | .trading => some (s.setLoop l loop (if way = .exhausted then .stopping else .sleeping))
  | .sleeping =>
    some (s.setLoop l loop (if way = .elapsed then .ownership else if cached then .ticked else .ended))
  | .ticked => some (s.setLoop l loop (if out = .completed ∧ s.owns loop then .sleeping else .ended))
  | .stopping =>
    some { s.setLoop l loop .removing with
      record := if out = .failed then s.record else (releaseTask s.record loop.worker).1 }
  | .removing =>
    some ((s.setWorker loop.worker { s.workers loop.worker with task := false }).setLoop l loop .aborting)
  | .aborting =>
    -- The handle that is stored may be its own.
    if (s.workers loop.worker).taskHandle = some l then some (s.abortTaskLoop loop.worker)
    else some ((s.abortTaskLoop loop.worker).setLoop l loop .reporting)
  | .reporting => some { s.setLoop l loop .sleeping with running := s.running && out = .failed }
  | .ended => none

/-- A request goes on; what it publishes may not come through. -/
def proceed (s : Project) (r : ℕ) (ok : Bool) : Request → Option Project
  | .start false => some { s with requests := s.requests.set r (.start true), running := s.running || ok }
  | .start true =>
    some { s with
      requests := s.requests.set r .finished
      undelivered := if ok then s.undelivered ++ [.start] else s.undelivered }
  | .stop false =>
    some { s with
      requests := s.requests.set r (.stop true)
      undelivered := if ok then s.undelivered ++ [.stop] else s.undelivered }
  | .stop true => some { s with requests := s.requests.set r .finished, running := s.running && !ok }
  | .finished => none

/-- What a command is to the worker that gets it. -/
def received : Command → HandlerPhase
  | .start => .start .received
  | .stop => .stop .received

/-- A worker starts over: its tasks are gone, and what it kept. -/
def restart (s : Project) (w : String) : Project :=
  { s with
    handlers := s.handlers.map fun x => if x.worker = w then { x with phase := .done } else x
    loops := s.loops.map fun loop => if loop.worker = w then { loop with phase := .ended } else loop
    workers := Function.update s.workers w {} }

end Project

inductive Action where
  | request (command : Command)
  | proceed (request : ℕ) (ok : Bool)
  | deliver (command : ℕ) (worker : String)
  | handle (handler : ℕ) (out : Outcome)
  | loop (loop : ℕ) (out : Outcome) (way : Way)
  | forceRelease
  | restart (worker : String)
  deriving DecidableEq, Repr

namespace Project

def step (s : Project) : Action → Option Project
  | .request command =>
    let request : Request := match command with | .start => .start false | .stop => .stop false
    some { s with requests := s.requests ++ [request], last := some command }
  | .proceed r ok =>
    match s.requests[r]? with
    | some request => s.proceed r ok request
    | none => none
  | .deliver i w =>
    match s.undelivered[i]? with
    | some command =>
      some { s with undelivered := s.undelivered.eraseIdx i, handlers := s.handlers ++ [⟨w, received command⟩] }
    | none => none
  | .handle h out =>
    match s.handlers[h]? with
    | some ⟨w, .start phase⟩ => some (s.handleStart h w out phase)
    | some ⟨w, .stop phase⟩ => some (s.handleStop h w out phase)
    | _ => none
  | .loop l out way =>
    match s.loops[l]? with
    | some loop => s.runLoop l loop out way
    | none => none
  | .forceRelease => some { s with record := none }
  | .restart w => some (s.restart w)

end Project

/-- What happens to one project. -/
def tasking : Machine Project Action where
  initial := {}
  step := Project.step

/-- What a request and the delivery of its command take. -/
def requested (command : Command) (r : ℕ) (worker : String) : List Action :=
  [.request command, .proceed r true, .proceed r true, .deliver 0 worker]

/-- The steps of a handler without a failure. -/
def handled (h steps : ℕ) : List Action := List.replicate steps (.handle h .completed)

/-- All projects: a worker starts over for each of them. -/
def workers : Machine (ℤ → Project) ((ℤ × Action) ⊕ String) := tasking.family fun w s => s.restart w

/-- A condition on what happens to a project, for all projects. -/
def inEach (may : Project → Action → Bool) (s : ℤ → Project) : (ℤ × Action) ⊕ String → Prop
  | .inl (p, a) => may (s p) a
  | .inr w => ∀ p, may (s p) (.restart w)

section Projects

variable {may : Project → Action → Bool} {s : ℤ → Project} {t : Project}

theorem of_workers (reached : workers.Reaches (inEach may) s) (p : ℤ) :
    tasking.Reaches (fun s a => may s a) (s p) :=
  reached.component (fun _ _ _ => id) (fun _ w p allowed => ⟨.restart w, allowed p, rfl⟩) p

theorem to_workers (reached : tasking.Reaches (fun s a => may s a) t) (p : ℤ) :
    ∃ s, workers.Reaches (inEach may) s ∧ s p = t :=
  ⟨_, reached.instance_of p fun _ _ => id, by simp⟩

theorem reachable_workers (reached : tasking.Reachable t) (p : ℤ) : ∃ s, workers.Reachable s ∧ s p = t :=
  ⟨_, reached.instance_of p fun _ _ => id, by simp⟩

end Projects

end RndRust.VolumeMaker
