import Mathlib.Algebra.Ring.Nat
import RndRust.Lib.Runs
import RndRust.Lib.Subjects

/-! The task pipeline: a gateway, processors, enrichers and aggregators that exchange messages
over NATS. A message is in flight until it is delivered, then it goes once to every plain
subscription and to one member of the queue group whose pattern covers its subject, and it is
gone when there is none. Every delivery spawns a task of its own, so handlers stand beside each
other in any number and finish in any order. Times, positions and the trace headers are left
out. -/
namespace RndRust.Distributed
open Lib

structure TaskRequest (V : Type) where
  taskType : String
  data : V
  deriving DecidableEq, Repr

structure TaskMessage (V : Type) where
  requestId : ℕ
  taskType : String
  data : V
  deriving DecidableEq, Repr

structure EnrichmentRequest (V : Type) where
  requestId : ℕ
  taskType : String
  data : V
  deriving DecidableEq, Repr

structure EnrichmentResponse where
  requestId : ℕ
  tags : List String
  deriving DecidableEq, Repr

structure TaskResult (V : Type) where
  requestId : ℕ
  taskType : String
  payload : V
  enrichment : EnrichmentResponse
  processorId : ℕ
  deriving DecidableEq, Repr

/-- A row of the `results` table. -/
structure ResultRow (V : Type) where
  requestId : ℕ
  taskType : String
  payload : V
  enrichment : EnrichmentResponse
  processorId : ℕ
  deriving DecidableEq, Repr

def taskSubject (taskType : String) : String := "tasks." ++ taskType

def tasksAll : String := "tasks.*"

def enrichRequest : String := "enrich.request"

def resultSubject (taskType : String) : String := "results." ++ taskType

def resultsAll : String := "results.*"

/-- How many instances run, and what `serde_json` reads of a value that it has written. -/
structure Deployment (V : Type) where
  processors : ℕ
  enrichers : ℕ
  aggregators : ℕ
  reparse : V → Option V

variable {V : Type}

/-- A message in flight. A response is sent to the inbox that its request names. -/
inductive Message (V : Type) where
  | task (subject : String) (task : TaskMessage V)
  | request (inbox : ℕ) (request : EnrichmentRequest V)
  | response (inbox : ℕ) (response : EnrichmentResponse)
  | result (subject : String) (result : TaskResult V)
  deriving DecidableEq, Repr

namespace Message

/-- Whether subscriptions of the pattern get the message. -/
def covered (pattern : String) : Message V → Bool
  | .task subject _ | .result subject _ => covers pattern subject
  | .request .. => covers pattern enrichRequest
  | .response .. => false

/-- `serde_json::from_slice` in a processor. -/
def readTask (reparse : V → Option V) : Message V → Option (TaskMessage V)
  | .task _ t => (reparse t.data).map fun data => { t with data }
  | _ => none

/-- The same in an enricher, which skips what names no inbox. -/
def readRequest (reparse : V → Option V) : Message V → Option (ℕ × EnrichmentRequest V)
  | .request inbox r => (reparse r.data).map fun data => (inbox, { r with data })
  | _ => none

/-- The same in an aggregator. -/
def readResult (reparse : V → Option V) : Message V → Option (TaskResult V)
  | .result _ r => (reparse r.payload).map fun payload => { r with payload }
  | _ => none

end Message

/-- Where `process_message` stands. -/
inductive Stage where
  | working
  | waiting (inbox : ℕ)
  | enriched (enrichment : EnrichmentResponse)
  deriving DecidableEq, Repr

structure Processing (V : Type) where
  task : TaskMessage V
  processorId : ℕ
  stage : Stage
  deriving DecidableEq, Repr

/-- A response to the inbox that the handler waits on. Other responses find no one. -/
def Processing.receive (inbox : ℕ) (response : EnrichmentResponse) (p : Processing V) : Processing V :=
  if p.stage = .waiting inbox then { p with stage := .enriched response } else p

/-- The byte of an id, the first one foremost. -/
def idByte (id i : ℕ) : ℕ := id / 256 ^ (15 - i) % 256

/-- The response of `handle_enrich_request`. -/
def handleEnrichRequest (request : EnrichmentRequest V) : EnrichmentResponse where
  requestId := request.requestId
  tags := ["type:" ++ request.taskType, "source:enricher",
    "priority:" ++ if idByte request.requestId 2 > 128 then "high" else "low"]

/-- The row of `insert_result`. -/
def TaskResult.row (result : TaskResult V) : ResultRow V where
  requestId := result.requestId
  taskType := result.taskType
  payload := result.payload
  enrichment := result.enrichment
  processorId := result.processorId

/-- The services and what is in flight between them. -/
structure Pipeline (V : Type) where
  /-- The tasks answered with 202. -/
  accepted : List (TaskMessage V) := []
  bus : List (Message V) := []
  processing : List (Processing V) := []
  enriching : List (ℕ × EnrichmentRequest V) := []
  persisting : List (TaskResult V) := []
  results : List (ResultRow V) := []
  inboxes : ℕ := 0
  /-- What the handlers held that NATS gave an error, the time-out of a request included. -/
  failed : List (TaskMessage V) := []
  deriving DecidableEq, Repr

inductive PipelineAction (V : Type) where
  | submit (requestId : ℕ) (request : TaskRequest V) (published : Bool)
  | deliver (i : ℕ) (member : ℕ)
  | request (h : ℕ)
  | publish (h : ℕ)
  | fail (h : ℕ)
  | respond (h : ℕ)
  | skip (h : ℕ)
  | insert (h : ℕ)

namespace Pipeline

variable (d : Deployment V)

/-- `submit_task`, under an id that no task has. A client that does not take the message answers
500. -/
def submitTask (s : Pipeline V) (requestId : ℕ) (request : TaskRequest V) (published : Bool) :
    Option (Pipeline V) :=
  let message : TaskMessage V := { requestId, taskType := request.taskType, data := request.data }
  if requestId ∈ s.accepted.map (·.requestId) then none
  else if published then
    some { s with
      accepted := s.accepted ++ [message]
      bus := s.bus ++ [.task (taskSubject request.taskType) message] }
  else some s

/-- What one member of the queue group `processors` starts. -/
def startProcessing (member : ℕ) (m : Message V) : List (Processing V) :=
  if m.covered tasksAll && 0 < d.processors then
    (m.readTask d.reparse).toList.map fun task => { task, processorId := member, stage := .working }
  else []

/-- What every enricher starts. -/
def startEnriching (m : Message V) : List (ℕ × EnrichmentRequest V) :=
  if m.covered enrichRequest then (m.readRequest d.reparse).toList.flatMap (List.replicate d.enrichers) else []

/-- What every aggregator starts. -/
def startPersisting (m : Message V) : List (TaskResult V) :=
  if m.covered resultsAll then (m.readResult d.reparse).toList.flatMap (List.replicate d.aggregators) else []

/-- What the handlers make of a message to an inbox. -/
def answer (processing : List (Processing V)) : Message V → List (Processing V)
  | .response inbox response => processing.map (Processing.receive inbox response)
  | _ => processing

def deliver (s : Pipeline V) (i member : ℕ) : Option (Pipeline V) :=
  match s.bus[i]? with
  | some m =>
    if d.processors = 0 ∨ member < d.processors then
      some { s with
        bus := s.bus.eraseIdx i
        processing := answer s.processing m ++ startProcessing d member m
        enriching := s.enriching ++ startEnriching d m
        persisting := s.persisting ++ startPersisting d m }
    else none
  | none => none

/-- `process_message` up to its request to the enricher. -/
def request (s : Pipeline V) (h : ℕ) : Option (Pipeline V) :=
  match s.processing[h]? with
  | some { task, processorId, stage := .working } =>
    let request : EnrichmentRequest V := { requestId := task.requestId, taskType := task.taskType, data := task.data }
    some { s with
      processing := s.processing.set h { task, processorId, stage := .waiting s.inboxes }
      bus := s.bus ++ [.request s.inboxes request]
      inboxes := s.inboxes + 1 }
  | _ => none

/-- `process_message` from the response on. -/
def publish (s : Pipeline V) (h : ℕ) : Option (Pipeline V) :=
  match s.processing[h]? with
  | some { task, processorId, stage := .enriched enrichment } =>
    let result : TaskResult V :=
      { requestId := task.requestId, taskType := task.taskType, payload := task.data, enrichment, processorId }
    some { s with
      processing := s.processing.eraseIdx h
      bus := s.bus ++ [.result (resultSubject task.taskType) result] }
  | _ => none

/-- `process_message` returns the error, and the task ends. -/
def fail (s : Pipeline V) (h : ℕ) : Option (Pipeline V) :=
  match s.processing[h]? with
  | some p => some { s with processing := s.processing.eraseIdx h, failed := s.failed ++ [p.task] }
  | none => none

/-- An enricher publishes its response, or cannot. -/
def respond (s : Pipeline V) (h : ℕ) (published : Bool) : Option (Pipeline V) :=
  match s.enriching[h]? with
  | some (inbox, request) =>
    let sent := if published then [.response inbox (handleEnrichRequest request)] else []
    some { s with enriching := s.enriching.eraseIdx h, bus := s.bus ++ sent }
  | none => none

/-- `insert_result`. -/
def insertResult (s : Pipeline V) (h : ℕ) : Option (Pipeline V) :=
  match s.persisting[h]? with
  | some result => some { s with persisting := s.persisting.eraseIdx h, results := s.results ++ [result.row] }
  | none => none

def step (s : Pipeline V) : PipelineAction V → Option (Pipeline V)
  | .submit requestId request published => s.submitTask requestId request published
  | .deliver i member => s.deliver d i member
  | .request h => s.request h
  | .publish h => s.publish h
  | .fail h => s.fail h
  | .respond h => s.respond h true
  | .skip h => s.respond h false
  | .insert h => s.insertResult h

end Pipeline

/-- The deployment from its start. -/
def pipeline (d : Deployment V) : Machine (Pipeline V) (PipelineAction V) where
  initial := {}
  step := Pipeline.step d

end RndRust.Distributed
