import RndRust.Distributed.Pipeline
import RndRust.Lib.Updates
import Mathlib.Data.List.Nodup

/-! What becomes of an accepted task. Each stage owes a number of rows for what it holds, and a
step moves what is owed on to the next stage, to the table or to what failed, so the sum is
what the accepted tasks owed. One row is then left of a task when its subject is covered, one
aggregator listens, and no handler gave up on it. -/
namespace RndRust.Distributed
open Lib

variable {V : Type} {d : Deployment V} {s t : Pipeline V} {m task : TaskMessage V} {id i h member : ℕ}

/-- What is read of a value that is written and read so many times. -/
def Deployment.reads (d : Deployment V) (data : V) : ℕ → Option V
  | 0 => some data
  | n + 1 => (d.reads data n).bind d.reparse

/-- The rows that a result will be stored in. -/
def Deployment.owed (d : Deployment V) (subject : String) (data : V) : ℕ :=
  if covers resultsAll subject && (d.reparse data).isSome then d.aggregators else 0

/-- The rows that a handler's task will be stored in. -/
def Deployment.owedTask (d : Deployment V) (id : ℕ) (task : TaskMessage V) : ℕ :=
  if task.requestId = id then d.owed (resultSubject task.taskType) task.data else 0

/-- The rows that what a delivery starts will be stored in. -/
def Deployment.owedMessage (d : Deployment V) (id : ℕ) (m : Message V) : ℕ :=
  ((Pipeline.startProcessing d 0 m).map fun p => d.owedTask id p.task).sum +
    (Pipeline.startPersisting d m).countP (·.requestId = id)

/-- The message of an accepted task. -/
def TaskMessage.message (task : TaskMessage V) : Message V := .task (taskSubject task.taskType) task

namespace Pipeline

/-- The rows there are and those that are still to come. -/
def owed (d : Deployment V) (id : ℕ) (s : Pipeline V) : ℕ :=
  (s.bus.map (d.owedMessage id)).sum + (s.processing.map fun p => d.owedTask id p.task).sum +
    s.persisting.countP (·.requestId = id) + s.results.countP (·.requestId = id) +
    (s.failed.map (d.owedTask id)).sum

/-- A value that is told to belong to an accepted task is that task's, read so many times. -/
def Tells (d : Deployment V) (s : Pipeline V) (times id : ℕ) (taskType : String) (data : V) : Prop :=
  ∃ m ∈ s.accepted, m.requestId = id ∧ m.taskType = taskType ∧ d.reads m.data times = some data

/-- What a message carries. -/
def Carries (d : Deployment V) (s : Pipeline V) : Message V → Prop
  | .task subject t => subject = taskSubject t.taskType ∧ t ∈ s.accepted
  | .result _ r => s.Tells d 1 r.requestId r.taskType r.payload
  | _ => True

structure Sound (d : Deployment V) (s : Pipeline V) : Prop where
  distinct : (s.accepted.map (·.requestId)).Nodup
  bus : ∀ m ∈ s.bus, s.Carries d m
  processing : ∀ p ∈ s.processing, s.Tells d 1 p.task.requestId p.task.taskType p.task.data
  persisting : ∀ r ∈ s.persisting, s.Tells d 2 r.requestId r.taskType r.payload
  results : ∀ r ∈ s.results, s.Tells d 2 r.requestId r.taskType r.payload
  failed : ∀ task ∈ s.failed, s.Tells d 1 task.requestId task.taskType task.data
  conserved : ∀ id, s.owed d id = (s.accepted.map fun m => d.owedMessage id m.message).sum

/-- Nothing is in flight and no handler runs. -/
def Idle (s : Pipeline V) : Prop := s.bus = [] ∧ s.processing = [] ∧ s.enriching = [] ∧ s.persisting = []

/-- The table holds one row of the task, with its type and data. -/
def StoredOnce (s : Pipeline V) (m : TaskMessage V) : Prop :=
  ∃ row, s.results.filter (·.requestId = m.requestId) = [row] ∧ row.taskType = m.taskType ∧ row.payload = m.data

section Deliveries

/-- An enriched handler holds the task it held. -/
theorem answer_tasks (processing : List (Processing V)) (m : Message V) :
    (answer processing m).map (·.task) = processing.map (·.task) := by
  cases m with
  | response inbox response =>
    simp only [answer, List.map_map]
    refine List.map_congr_left fun p _ => ?_
    simp only [Function.comp_apply, Processing.receive]
    split <;> rfl
  | _ => rfl

theorem startProcessing_tasks (member other : ℕ) (m : Message V) :
    (startProcessing d member m).map (·.task) = (startProcessing d other m).map (·.task) := by
  unfold startProcessing
  split
  · rw [List.map_map, List.map_map]
    rfl
  · rfl

theorem startPersisting_result (subject : String) (r : TaskResult V) :
    (startPersisting d (.result subject r)).countP (·.requestId = id) =
      if r.requestId = id then d.owed subject r.payload else 0 := by
  unfold startPersisting Deployment.owed
  cases covered : covers resultsAll subject with
  | false => simp [Message.covered, covered]
  | true =>
    cases read : d.reparse r.payload with
    | none => simp [Message.covered, Message.readResult, covered, read]
    | some payload => simp [Message.covered, Message.readResult, covered, read, List.countP_replicate]

theorem covers_tasksAll (taskType : String) : covers tasksAll (taskSubject taskType) = oneToken taskType :=
  covers_star "tasks" _ (by decide) (by decide)

theorem covers_resultsAll (taskType : String) : covers resultsAll (resultSubject taskType) = oneToken taskType :=
  covers_star "results" _ (by decide) (by decide)

/-- What an accepted task owes, by its type and its data. -/
theorem owedMessage_task : d.owedMessage id m.message =
    if m.requestId = id ∧ oneToken m.taskType ∧ 0 < d.processors ∧ (d.reads m.data 2).isSome then d.aggregators else 0 := by
  have unstored : startPersisting d m.message = [] := by simp [startPersisting, TaskMessage.message, Message.readResult]
  rw [Deployment.owedMessage, unstored, List.countP_nil, Nat.add_zero]
  by_cases starts : oneToken m.taskType ∧ 0 < d.processors
  · have covered : m.message.covered tasksAll = true := (covers_tasksAll _).trans starts.1
    cases read : d.reparse m.data with
    | none => simp [startProcessing, TaskMessage.message, Message.readTask, Deployment.reads, read]
    | some data =>
      have received : m.message.readTask d.reparse = some { m with data } := by
        simp [TaskMessage.message, Message.readTask, read]
      have started : startProcessing d 0 m.message = [⟨{ m with data }, 0, .working⟩] := by
        simp [startProcessing, covered, starts.2, received]
      simp [started, Deployment.owedTask, Deployment.owed, covers_resultsAll, starts, Deployment.reads, read, ite_and]
  · have idle : startProcessing d 0 m.message = [] := by
      refine if_neg fun covered => starts ?_
      rw [Bool.and_eq_true, decide_eq_true_eq] at covered
      exact ⟨(covers_tasksAll _).symm.trans covered.1, covered.2⟩
    rw [idle, if_neg fun owes => starts ⟨owes.2.1, owes.2.2.1⟩]
    rfl

end Deliveries

section Steps

theorem Tells.mono {times : ℕ} {taskType : String} {data : V} (tells : s.Tells d times id taskType data)
    (kept : s.accepted ⊆ t.accepted) : t.Tells d times id taskType data := by
  obtain ⟨m, listed, same⟩ := tells
  exact ⟨m, kept listed, same⟩

theorem Tells.read {times : ℕ} {taskType : String} {data next : V} (tells : s.Tells d times id taskType data)
    (read : d.reparse data = some next) : s.Tells d (times + 1) id taskType next := by
  obtain ⟨m, listed, sameId, sameType, sameData⟩ := tells
  exact ⟨m, listed, sameId, sameType, by rw [Deployment.reads, sameData, Option.bind_some, read]⟩

theorem Carries.mono {m : Message V} (carries : s.Carries d m) (kept : s.accepted ⊆ t.accepted) : t.Carries d m := by
  cases m with
  | task subject m => exact ⟨carries.1, kept carries.2⟩
  | result subject r => exact Tells.mono carries kept
  | _ => trivial

theorem Sound.submit {requestId : ℕ} {request : TaskRequest V} {published : Bool} (sound : s.Sound d)
    (taken : s.submitTask requestId request published = some t) : t.Sound d := by
  unfold submitTask at taken
  split at taken
  · cases taken
  · rename_i fresh
    split at taken
    · cases taken
      have kept := List.subset_append_left s.accepted [⟨requestId, request.taskType, request.data⟩]
      refine ⟨?_, ?_, fun p listed => (sound.processing p listed).mono kept,
        fun r listed => (sound.persisting r listed).mono kept, fun r listed => (sound.results r listed).mono kept,
        fun task listed => (sound.failed task listed).mono kept, fun id => ?_⟩
      · rw [List.map_append]
        exact nodup_append_one fresh sound.distinct
      · intro m listed
        rcases List.mem_append.mp listed with old | new
        · exact (sound.bus m old).mono kept
        · cases List.mem_singleton.mp new
          exact ⟨rfl, List.mem_append_right _ List.mem_cons_self⟩
      · have conserved := sound.conserved id
        simp only [owed, List.map_append, List.sum_append, List.map_cons, List.map_nil, List.sum_cons, List.sum_nil,
          TaskMessage.message] at conserved ⊢
        omega
    · cases taken
      exact sound

/-- The handlers that a delivery starts hold what the message carries. -/
theorem Carries.starts {m : Message V} (carries : s.Carries d m) {p : Processing V}
    (started : p ∈ startProcessing d member m) : s.Tells d 1 p.task.requestId p.task.taskType p.task.data := by
  unfold startProcessing at started
  split at started
  · obtain ⟨task, received, rfl⟩ := List.mem_map.mp started
    cases m with
    | task subject m =>
      obtain ⟨data, read, rfl⟩ := Option.map_eq_some_iff.mp (Option.mem_toList.mp received)
      have told : s.Tells d 0 m.requestId m.taskType m.data := ⟨m, carries.2, rfl, rfl, rfl⟩
      exact told.read read
    | _ => cases Option.mem_toList.mp received
  · cases started

theorem Carries.persists {m : Message V} (carries : s.Carries d m) {r : TaskResult V}
    (started : r ∈ startPersisting d m) : s.Tells d 2 r.requestId r.taskType r.payload := by
  unfold startPersisting at started
  split at started
  · obtain ⟨result, received, copied⟩ := List.mem_flatMap.mp started
    obtain rfl := List.eq_of_mem_replicate copied
    cases m with
    | result subject result =>
      obtain ⟨payload, read, rfl⟩ := Option.map_eq_some_iff.mp (Option.mem_toList.mp received)
      exact Tells.read carries read
    | _ => cases Option.mem_toList.mp received
  · cases started

theorem Sound.deliver (sound : s.Sound d) (taken : s.deliver d i member = some t) : t.Sound d := by
  unfold Pipeline.deliver at taken
  split at taken
  · rename_i m sent
    split at taken
    · cases taken
      have carried := sound.bus m (List.mem_of_getElem? sent)
      refine ⟨sound.distinct, fun m listed => sound.bus m (List.mem_of_mem_eraseIdx listed), fun p listed => ?_,
        fun r listed => ?_, sound.results, sound.failed, fun id => ?_⟩
      · rcases List.mem_append.mp listed with old | new
        · have holds : p.task ∈ s.processing.map (·.task) := answer_tasks s.processing m ▸ List.mem_map_of_mem old
          obtain ⟨before, listed, same⟩ := List.mem_map.mp holds
          exact same ▸ sound.processing before listed
        · exact carried.starts new
      · rcases List.mem_append.mp listed with old | new
        · exact sound.persisting r old
        · exact carried.persists new
      · rw [← sound.conserved id]
        have moved := ((perm_eraseIdx_known sent).map (d.owedMessage id)).sum_nat
        have answered := congrArg (fun tasks => (tasks.map (d.owedTask id)).sum) (answer_tasks s.processing m)
        have started := congrArg (fun tasks => (tasks.map (d.owedTask id)).sum) (startProcessing_tasks (d := d) member 0 m)
        simp only [List.map_map, Function.comp_def] at answered started
        simp only [List.map_cons, List.sum_cons, Deployment.owedMessage] at moved
        simp only [owed, List.map_append, List.sum_append, List.countP_append, answered, started]
        unfold Deployment.owedMessage at *
        omega
    · cases taken
  · cases taken

/-- A handler that still runs holds the task that it held. -/
theorem Sound.set {p q : Processing V} (sound : s.Sound d) (known : s.processing[h]? = some p) (same : q.task = p.task) :
    ({ s with processing := s.processing.set h q } : Pipeline V).Sound d := by
  have held : (s.processing.set h q).map (fun p => p.task) = s.processing.map (fun p => p.task) :=
    map_set_known known same
  refine { sound with processing := fun r listed => ?_, conserved := fun id => ?_ }
  · have holds : r.task ∈ s.processing.map (fun p => p.task) := held ▸ List.mem_map_of_mem listed
    obtain ⟨before, listed, same⟩ := List.mem_map.mp holds
    exact same ▸ sound.processing before listed
  · have kept := congrArg (fun tasks => (tasks.map (d.owedTask id)).sum) held
    simp only [List.map_map, Function.comp_def] at kept
    rw [← sound.conserved id, owed, owed, kept]

/-- A message that owes nothing changes nothing. -/
theorem Sound.send {m : Message V} (sound : s.Sound d) (carries : s.Carries d m) (owes : ∀ id, d.owedMessage id m = 0) :
    ({ s with bus := s.bus ++ [m] } : Pipeline V).Sound d := by
  refine { sound with bus := fun n listed => ?_, conserved := fun id => ?_ }
  · rcases List.mem_append.mp listed with old | new
    · exact sound.bus n old
    · exact List.mem_singleton.mp new ▸ carries
  · rw [← sound.conserved id]
    simp [owed, owes]

theorem owedMessage_request {inbox : ℕ} {r : EnrichmentRequest V} : d.owedMessage id (.request inbox r) = 0 := by
  simp [Deployment.owedMessage, startProcessing, startPersisting, Message.readTask, Message.readResult]

theorem owedMessage_response {inbox : ℕ} {r : EnrichmentResponse} : d.owedMessage id (.response inbox r) = 0 := by
  simp [Deployment.owedMessage, startProcessing, startPersisting, Message.readTask, Message.readResult]

theorem owedMessage_result {subject : String} {r : TaskResult V} : d.owedMessage id (.result subject r) =
    if r.requestId = id then d.owed subject r.payload else 0 := by
  have idle : startProcessing d 0 (.result subject r) = [] := by simp [startProcessing, Message.readTask]
  rw [Deployment.owedMessage, idle, startPersisting_result]
  exact Nat.zero_add _

theorem Sound.request (sound : s.Sound d) (taken : s.request h = some t) : t.Sound d := by
  unfold Pipeline.request at taken
  split at taken
  · rename_i task processorId known
    cases taken
    have waiting := sound.set (q := ⟨task, processorId, .waiting s.inboxes⟩) known rfl
    have sent := waiting.send (m := .request s.inboxes ⟨task.requestId, task.taskType, task.data⟩) trivial
      fun id => owedMessage_request
    exact { sent with }
  · cases taken

theorem Sound.publish (sound : s.Sound d) (taken : s.publish h = some t) : t.Sound d := by
  unfold Pipeline.publish at taken
  split at taken
  · rename_i task processorId enrichment known
    cases taken
    refine { sound with bus := fun n listed => ?_, processing := fun p listed => ?_, conserved := fun id => ?_ }
    · rcases List.mem_append.mp listed with old | new
      · exact sound.bus n old
      · cases List.mem_singleton.mp new
        exact sound.processing _ (List.mem_of_getElem? known)
    · exact sound.processing p (List.mem_of_mem_eraseIdx listed)
    · rw [← sound.conserved id]
      have moved := ((perm_eraseIdx_known known).map fun p => d.owedTask id p.task).sum_nat
      simp only [List.map_cons, List.sum_cons, Deployment.owedTask] at moved
      simp only [owed, List.map_append, List.sum_append, List.map_cons, List.map_nil, List.sum_cons, List.sum_nil,
        owedMessage_result, Deployment.owedTask]
      omega
  · cases taken

theorem Sound.fail (sound : s.Sound d) (taken : s.fail h = some t) : t.Sound d := by
  unfold Pipeline.fail at taken
  split at taken
  · rename_i p known
    cases taken
    refine { sound with processing := fun p listed => ?_, failed := fun task listed => ?_, conserved := fun id => ?_ }
    · exact sound.processing p (List.mem_of_mem_eraseIdx listed)
    · rcases List.mem_append.mp listed with old | new
      · exact sound.failed task old
      · exact List.mem_singleton.mp new ▸ sound.processing p (List.mem_of_getElem? known)
    · rw [← sound.conserved id]
      have moved := ((perm_eraseIdx_known known).map fun p => d.owedTask id p.task).sum_nat
      simp only [List.map_cons, List.sum_cons] at moved
      simp only [owed, List.map_append, List.sum_append, List.map_cons, List.map_nil, List.sum_cons, List.sum_nil]
      omega
  · cases taken

theorem Sound.respond {published : Bool} (sound : s.Sound d) (taken : s.respond h published = some t) : t.Sound d := by
  unfold Pipeline.respond at taken
  split at taken
  · rename_i inbox r known
    cases taken
    cases published with
    | true => exact { sound.send (m := .response inbox (handleEnrichRequest r)) trivial fun id => owedMessage_response with }
    | false => simpa using { sound with }
  · cases taken

theorem Sound.insert (sound : s.Sound d) (taken : s.insertResult h = some t) : t.Sound d := by
  unfold insertResult at taken
  split at taken
  · rename_i r known
    cases taken
    refine { sound with persisting := fun r listed => ?_, results := fun row listed => ?_, conserved := fun id => ?_ }
    · exact sound.persisting r (List.mem_of_mem_eraseIdx listed)
    · rcases List.mem_append.mp listed with old | new
      · exact sound.results row old
      · cases List.mem_singleton.mp new
        exact sound.persisting r (List.mem_of_getElem? known)
    · rw [← sound.conserved id]
      have moved := (perm_eraseIdx_known known).countP_eq (·.requestId = id)
      simp only [List.countP_cons] at moved
      simp only [owed, List.countP_append, List.countP_singleton, TaskResult.row]
      omega
  · cases taken

theorem Sound.step {a : PipelineAction V} (sound : s.Sound d) (taken : s.step d a = some t) : t.Sound d := by
  cases a with
  | submit requestId request published => exact sound.submit taken
  | deliver i member => exact sound.deliver taken
  | request h => exact sound.request taken
  | publish h => exact sound.publish taken
  | fail h => exact sound.fail taken
  | respond h | skip h => exact sound.respond taken
  | insert h => exact sound.insert taken

theorem reachable_sound (reached : (pipeline d).Reachable s) : s.Sound d := by
  refine reached.invariant (Sound d) ?_ fun s a t sound _ taken => sound.step taken
  constructor <;> simp [pipeline, owed]

end Steps

section Stored

/-- A value that is told to belong to an accepted task is told of it. -/
theorem Sound.told {times : ℕ} {taskType : String} {data : V} (sound : s.Sound d) (listed : m ∈ s.accepted)
    (tells : s.Tells d times m.requestId taskType data) : m.taskType = taskType ∧ d.reads m.data times = some data := by
  obtain ⟨other, member, sameId, sameType, sameData⟩ := tells
  obtain rfl : other = m := List.inj_on_of_nodup_map sound.distinct member listed sameId
  exact ⟨sameType, sameData⟩

/-- In an idle state, what was owed for a task is stored or has failed. -/
theorem Sound.settled (sound : s.Sound d) (idle : s.Idle) (listed : m ∈ s.accepted) :
    s.results.countP (·.requestId = m.requestId) + (s.failed.map (d.owedTask m.requestId)).sum =
      d.owedMessage m.requestId m.message := by
  obtain ⟨bus, processing, -, persisting⟩ := idle
  have only : (s.accepted.map fun n => d.owedMessage m.requestId n.message).sum = d.owedMessage m.requestId m.message := by
    refine sum_of_key sound.distinct listed fun n member other => ?_
    rw [owedMessage_task, if_neg fun owes => other owes.1]
  rw [← only, ← sound.conserved, owed, bus, processing, persisting]
  simp

/-- Every task that failed still owed the rows that it was accepted for. -/
theorem Sound.failed_owes (sound : s.Sound d) (listed : m ∈ s.accepted) (failed : m.requestId ∈ s.failed.map (·.requestId))
    (starts : oneToken m.taskType) (reads : (d.reads m.data 2).isSome) :
    d.aggregators ≤ (s.failed.map (d.owedTask m.requestId)).sum := by
  obtain ⟨task, lost, same⟩ := List.mem_map.mp failed
  obtain ⟨sameType, sameData⟩ := sound.told listed (same ▸ sound.failed task lost)
  have again : (d.reparse task.data).isSome := by
    rwa [Deployment.reads, sameData, Option.bind_some] at reads
  have owes : d.owedTask m.requestId task = d.aggregators := by
    simp [Deployment.owedTask, Deployment.owed, same, ← sameType, covers_resultsAll, starts, again]
  obtain ⟨before, after, split⟩ := List.append_of_mem lost
  rw [split, List.map_append, List.map_cons, List.sum_append, List.sum_cons, owes]
  omega

theorem unfailed_owes (survived : id ∉ s.failed.map (·.requestId)) : (s.failed.map (d.owedTask id)).sum = 0 := by
  refine List.sum_eq_zero_iff_forall_eq_nat.mpr (List.forall_mem_map.mpr fun task lost => if_neg fun same => ?_)
  exact survived (List.mem_map.mpr ⟨task, lost, same⟩)

/-- **An accepted task is stored exactly once**, as it was sent, if and only if its type is one
token of a subject, a processor listens and one aggregator alone, no call of its handler to NATS
gave an error or timed out, and its data reads back as it was written. -/
theorem stored_once (reached : (pipeline d).Reachable s) (idle : s.Idle) (listed : m ∈ s.accepted) :
    s.StoredOnce m ↔ oneToken m.taskType ∧ 0 < d.processors ∧ d.aggregators = 1 ∧
      m.requestId ∉ s.failed.map (·.requestId) ∧ (d.reparse m.data).bind d.reparse = some m.data := by
  have sound := reachable_sound reached
  have settled := sound.settled idle listed
  rw [owedMessage_task] at settled
  have twice : d.reads m.data 2 = (d.reparse m.data).bind d.reparse := rfl
  constructor
  · rintro ⟨row, only, -, payload⟩
    have member : row ∈ s.results.filter (·.requestId = m.requestId) := only ▸ List.mem_cons_self
    obtain ⟨stored, same⟩ := List.mem_filter.mp member
    obtain ⟨-, read⟩ := sound.told listed (of_decide_eq_true same ▸ sound.results row stored)
    have one : s.results.countP (·.requestId = m.requestId) = 1 := by
      rw [List.countP_eq_length_filter, only, List.length_singleton]
    split at settled
    · rename_i owes
      obtain ⟨-, starts, listens, reads⟩ := owes
      have survived : m.requestId ∉ s.failed.map (·.requestId) := fun failed => by
        have lost := sound.failed_owes listed failed starts reads
        omega
      have none := unfailed_owes (d := d) survived
      exact ⟨starts, listens, by omega, survived, by rw [← twice, read, payload]⟩
    · omega
  · rintro ⟨starts, listens, alone, survived, reads⟩
    have none := unfailed_owes (d := d) survived
    have owes : m.requestId = m.requestId ∧ oneToken m.taskType ∧ 0 < d.processors ∧ (d.reads m.data 2).isSome :=
      ⟨rfl, starts, listens, by rw [twice, reads, Option.isSome_some]⟩
    rw [if_pos owes, none, alone, Nat.add_zero, List.countP_eq_length_filter] at settled
    obtain ⟨row, only⟩ := List.length_eq_one_iff.mp settled
    have member : row ∈ s.results.filter (·.requestId = m.requestId) := only ▸ List.mem_cons_self
    obtain ⟨stored, same⟩ := List.mem_filter.mp member
    obtain ⟨sameType, read⟩ := sound.told listed (of_decide_eq_true same ▸ sound.results row stored)
    refine ⟨row, only, sameType.symm, ?_⟩
    rw [twice, reads] at read
    exact (Option.some.inj read).symm

/-- One instance of each service. -/
def oneEach : Deployment ℕ := { processors := 1, enrichers := 1, aggregators := 1, reparse := some }

theorem stored_once_report : ∃ s : Pipeline ℕ, (pipeline oneEach).Reachable s ∧ s.StoredOnce ⟨0, "report", 7⟩ := by
  obtain ⟨s, reached, accepted, failed, idle⟩ := Machine.Reachable.of_trace (pipeline oneEach)
    [.submit 0 ⟨"report", 7⟩ true, .deliver 0 0, .request 0, .deliver 0 0, .respond 0, .deliver 0 0, .publish 0,
      .deliver 0 0, .insert 0]
    (fun s => s.accepted = [⟨0, "report", 7⟩] ∧ s.failed = [] ∧
      s.bus = [] ∧ s.processing = [] ∧ s.enriching = [] ∧ s.persisting = []) (by decide)
  have listed : (⟨0, "report", 7⟩ : TaskMessage ℕ) ∈ s.accepted := accepted ▸ List.mem_cons_self
  exact ⟨s, reached, (stored_once reached idle listed).mpr
    ⟨by decide, Nat.one_pos, rfl, failed ▸ List.not_mem_nil, rfl⟩⟩

/-- A type with a dot is accepted, and nobody gets its task. -/
theorem stored_once_fails : ∃ (s : Pipeline ℕ) (m : TaskMessage ℕ),
    (pipeline oneEach).Reachable s ∧ s.Idle ∧ m ∈ s.accepted ∧ ¬s.StoredOnce m := by
  obtain ⟨s, reached, accepted, results, idle⟩ := Machine.Reachable.of_trace (pipeline oneEach)
    [.submit 0 ⟨"report.daily", 7⟩ true, .deliver 0 0]
    (fun s => s.accepted = [⟨0, "report.daily", 7⟩] ∧ s.results = [] ∧
      s.bus = [] ∧ s.processing = [] ∧ s.enriching = [] ∧ s.persisting = []) (by decide)
  refine ⟨s, ⟨0, "report.daily", 7⟩, reached, idle, accepted ▸ List.mem_cons_self, ?_⟩
  rintro ⟨row, only, -⟩
  rw [results] at only
  cases only

end Stored

end Pipeline

end RndRust.Distributed
