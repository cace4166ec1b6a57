import RndRust.Bambu.Api.History

/-! Which print jobs are printing once every transition of the printer is logged. The tasks that
log are not ordered, so the count is of what they would leave if they went on in turn. -/
namespace RndRust.Bambu.Api
open Lib

def Logged.change : Logged → Change
  | .started => .rise
  | .ended _ => .fall

/-- What a task that has not begun will do to the rows that are printing. -/
def LogTask.due (task : LogTask) : Option Change :=
  if task.phase = .spawned then (transition task.prevState task.newState).map Logged.change else none

section Transition

variable {prevState newState : String} {status : JobStatus}

theorem transition_started (logs : transition prevState newState = some .started) :
    newState = "RUNNING" ∧ ¬ isActive prevState := by
  unfold transition at logs
  split at logs
  · assumption
  · split at logs
    · cases logs
    · split at logs <;> cases logs

theorem transition_ended (logs : transition prevState newState = some (.ended status)) :
    isActive prevState ∧ ¬ isActive newState ∧ newState ≠ "" ∧ status ≠ .printing := by
  unfold transition at logs
  split at logs
  · cases logs
  · split at logs
    · rename_i both
      cases logs
      rw [both.2]
      exact ⟨both.1, by decide⟩
    · split at logs
      · rename_i both
        cases logs
        rw [both.2]
        exact ⟨both.1, by decide⟩
      · cases logs

end Transition

namespace History

/-- The rows that tasks have selected, to update them. -/
def taken (s : History) : List ℕ := s.tasks.filterMap (·.phase.job)

/-- The rows that are printing and that no task is about to update. -/
def free (s : History) : Finset ℕ := s.printing.filter (· ∉ s.taken)

def due (s : History) : List Change := s.tasks.filterMap LogTask.due

/-- What the tasks spawned before one have yet to do. -/
def dueBefore (s : History) (t : ℕ) : List Change := (s.tasks.take t).filterMap LogTask.due

/-- A state that ends a print comes as a transition that is logged so, or when no row will be
printing; and a task that ends one finds its row: the tasks before it have inserted theirs, and
none is about to update the same. It may come at any time when it has no row to find. -/
def inOrder (s : History) : LogAction → Bool
  | .telemetry snapshot =>
    snapshot.gcodeState = "" || isActive snapshot.gcodeState || !isActive s.lastState ||
      (transition (s.prevState.getD "") snapshot.gcodeState).map Logged.change = some .fall ||
      settle s.free.card s.due = 0
  | .log t _ first =>
    match s.tasks[t]? with
    | some task =>
      task.due ≠ some .fall || settle s.free.card (s.dueBefore t) = 0 ||
        .rise ∉ s.dueBefore t && first ∉ s.taken
    | none => true

/-- No task is pending. -/
def Idle (s : History) : Prop := ∀ task ∈ s.tasks, task.phase = .finished

instance (s : History) : Decidable s.Idle :=
  inferInstanceAs (Decidable (∀ task ∈ s.tasks, task.phase = .finished))

/-- What the history says of the printer. -/
structure Follows (s : History) : Prop where
  single : s.printing.card ≤ 1
  ended : ¬ isActive s.lastState → s.printing = ∅

/-- No more rows than the printer is printing are left when the tasks have gone on in turn. -/
structure Ordered (s : History) : Prop where
  prev : ∀ state ∈ s.prevState, state ≠ "" → s.lastState = state
  selected : ∀ task ∈ s.tasks, ∀ j status now, task.phase = .found j status now →
    j < s.jobs.length ∧ status ≠ .printing
  settles : settle s.free.card s.due ≤ if isActive s.lastState then 1 else 0

section Steps

variable {s s' : History} {t j first : ℕ} {now : ℤ} {task : LogTask} {phase : LogPhase} {status : JobStatus}
  {snapshot : TelemetrySnapshot}

theorem mem_printing : j ∈ s.printing ↔ s.isPrinting j := by
  unfold printing
  rw [Finset.mem_filter, Finset.mem_range]
  constructor
  · exact And.right
  · rintro ⟨job, found, active⟩
    exact ⟨(List.getElem?_eq_some_iff.mp found).1, job, found, active⟩

theorem mem_free : j ∈ s.free ↔ s.isPrinting j ∧ j ∉ s.taken := by
  unfold free
  rw [Finset.mem_filter, mem_printing]

/-- A task that goes on leaves what is due from the others. -/
theorem due_setPhase (phase : LogPhase) (known : s.tasks[t]? = some task) (begun : phase ≠ .spawned) :
    ∃ after, s.due = s.dueBefore t ++ (task.due.toList ++ after) ∧
      (s.setPhase t task phase).due = s.dueBefore t ++ after := by
  refine ⟨(s.tasks.drop (t + 1)).filterMap LogTask.due, filterMap_known known, ?_⟩
  unfold due setPhase
  rw [filterMap_set_known known]
  simp [LogTask.due, begun, dueBefore]

theorem taken_setPhase (phase : LogPhase) (known : s.tasks[t]? = some task) :
    ∃ before after, s.taken = before ++ (task.phase.job.toList ++ after) ∧
      (s.setPhase t task phase).taken = before ++ (phase.job.toList ++ after) :=
  ⟨_, _, filterMap_known known, filterMap_set_known known⟩

/-- Tasks that have selected a row have selected one that exists, and that they will end. -/
theorem selected_setPhase (ordered : s.Ordered)
    (own : ∀ j status now, phase = .found j status now → j < s.jobs.length ∧ status ≠ .printing) :
    ∀ task' ∈ (s.setPhase t task phase).tasks, ∀ j status now, task'.phase = .found j status now →
      j < s.jobs.length ∧ status ≠ .printing := by
  intro task' member j status now found
  rcases List.mem_or_eq_of_mem_set member with old | rfl
  · exact ordered.selected task' old j status now found
  · exact own j status now found

theorem selected_finished (ordered : s.Ordered) :
    ∀ task' ∈ (s.setPhase t task .finished).tasks, ∀ j status now, task'.phase = .found j status now →
      j < s.jobs.length ∧ status ≠ .printing := by
  apply selected_setPhase ordered
  intro j status now found
  cases found

theorem taken_lt (ordered : s.Ordered) (member : j ∈ s.taken) : j < s.jobs.length := by
  obtain ⟨task, listed, own⟩ := List.mem_filterMap.mp member
  cases is : task.phase with
  | found j' status now =>
    rw [is] at own
    cases own
    exact (ordered.selected task listed _ _ _ is).1
  | spawned =>
    rw [is] at own
    cases own
  | finished =>
    rw [is] at own
    cases own

theorem free_congr (printing : ∀ j, s'.isPrinting j ↔ s.isPrinting j) (taken : s'.taken = s.taken) :
    s'.free = s.free := by
  ext j
  rw [mem_free, mem_free, printing, taken]

/-- The task that telemetry spawns is the last in turn. -/
theorem due_telemetry : (s.telemetry snapshot).due = s.due ++
    if s.prevState.getD "" ≠ snapshot.gcodeState ∧ s.prevState.getD "" ≠ "" then
      ((transition (s.prevState.getD "") snapshot.gcodeState).map Logged.change).toList
    else [] := by
  unfold due telemetry
  dsimp only
  split
  · rw [List.filterMap_append]
    cases is : (transition (s.prevState.getD "") snapshot.gcodeState).map Logged.change <;>
      simp [LogTask.due, is]
  · rw [List.append_nil]

theorem taken_telemetry : (s.telemetry snapshot).taken = s.taken := by
  unfold taken telemetry
  dsimp only
  split
  · rw [List.filterMap_append]
    exact List.append_nil _
  · rfl

theorem free_telemetry : (s.telemetry snapshot).free = s.free :=
  free_congr (fun _ => Iff.rfl) taken_telemetry

theorem lastState_telemetry : (s.telemetry snapshot).lastState =
    if snapshot.gcodeState = "" then s.lastState else snapshot.gcodeState := rfl

theorem settles_telemetry (ordered : s.Ordered) (may : s.inOrder (.telemetry snapshot)) :
    settle s.free.card (s.telemetry snapshot).due ≤ if isActive (s.telemetry snapshot).lastState then 1 else 0 := by
  have settles := ordered.settles
  have bound : settle s.free.card s.due ≤ 1 := by
    apply Nat.le_trans settles
    split <;> decide
  have last : s.prevState.getD "" ≠ "" → s.lastState = s.prevState.getD "" := by
    intro given
    cases is : s.prevState with
    | none =>
      rw [is] at given
      exact absurd rfl given
    | some state =>
      rw [is] at given
      exact ordered.prev state is given
  rw [due_telemetry, lastState_telemetry]
  cases logs : transition (s.prevState.getD "") snapshot.gcodeState with
  | none =>
    simp only [Option.map_none, Option.toList_none, ite_self, List.append_nil]
    split
    · exact settles
    · rename_i given
      by_cases active : isActive snapshot.gcodeState
      · rwa [if_pos active]
      · simp only [inOrder, logs, given, active, Option.map_none, Bool.or_eq_true, Bool.not_eq_true',
          decide_eq_true_eq, false_or, reduceCtorEq, Bool.false_eq_true, or_false] at may
        rw [if_neg active]
        rcases may with inactive | none
        · rwa [inactive] at settles
        · exact Nat.le_of_eq none
  | some logged =>
    cases logged with
    | started =>
      obtain ⟨running, inactive⟩ := transition_started logs
      rw [running, if_neg (show "RUNNING" ≠ "" by decide), if_pos (show isActive "RUNNING" by decide)]
      split
      · rename_i spawned
        rw [last spawned.2, if_neg inactive] at settles
        rw [settle_append]
        exact Nat.succ_le_succ settles
      · rwa [List.append_nil]
    | ended status =>
      obtain ⟨active, inactive, given, -⟩ := transition_ended logs
      rw [if_neg given, if_neg inactive, if_pos, settle_append]
      · exact Nat.sub_le_of_le_add bound
      · constructor
        · rintro same
          rw [same] at active
          exact inactive active
        · intro none
          rw [none] at active
          exact absurd active (by decide)

theorem Ordered.telemetry (ordered : s.Ordered) (may : s.inOrder (.telemetry snapshot)) :
    (s.telemetry snapshot).Ordered where
  prev state is given := by
    cases is
    exact if_neg given
  selected task member j status now found := by
    unfold History.telemetry at member
    dsimp only at member
    split at member
    · rcases List.mem_append.mp member with old | new
      · exact ordered.selected task old j status now found
      · obtain rfl := List.mem_singleton.mp new
        cases found
    · exact ordered.selected task member j status now found
  settles := by
    rw [free_telemetry]
    exact settles_telemetry ordered may

/-- A step of a task keeps what the printer said last. -/
theorem Ordered.proceed (ordered : s.Ordered) (prev : s'.prevState = s.prevState)
    (last : s'.lastState = s.lastState)
    (selected : ∀ task ∈ s'.tasks, ∀ j status now, task.phase = .found j status now →
      j < s'.jobs.length ∧ status ≠ .printing)
    (less : settle s'.free.card s'.due ≤ settle s.free.card s.due) : s'.Ordered where
  prev := by
    rw [prev, last]
    exact ordered.prev
  selected := selected
  settles := by
    rw [last]
    exact Nat.le_trans less ordered.settles

theorem isPrinting_append {job : PrintJob} (new : job.status = .printing) :
    (s.insertJob job).isPrinting j ↔ j = s.jobs.length ∨ s.isPrinting j := by
  unfold isPrinting insertJob
  dsimp only
  rw [getElem?_append_one]
  split
  · rename_i last
    exact ⟨fun _ => .inl last, fun _ => ⟨job, rfl, new⟩⟩
  · rename_i other
    exact ⟨.inr, fun either => either.resolve_left other⟩

theorem isPrinting_complete {i : ℕ} (ends : status ≠ .printing) :
    (s.updateJob j status now).isPrinting i ↔ s.isPrinting i ∧ i ≠ j := by
  unfold isPrinting updateJob
  dsimp only
  rw [List.getElem?_modify]
  cases found : s.jobs[i]? with
  | none => simp
  | some job =>
    by_cases same : j = i
    · simp [same, complete, ends]
    · simp [same, Ne.symm same]

/-- A task that has selected nothing is over, and the rows are as they were. -/
theorem free_finished (known : s.tasks[t]? = some task) (none : task.phase.job = none) :
    (s.setPhase t task .finished).free = s.free := by
  obtain ⟨before, after, taken, taken'⟩ := taken_setPhase .finished known
  refine free_congr (fun _ => Iff.rfl) ?_
  rw [taken, taken', none]
  rfl

theorem Ordered.skip (ordered : s.Ordered) (known : s.tasks[t]? = some task) (none : task.phase.job = none)
    (nothing : task.due = .none) : (s.setPhase t task .finished).Ordered := by
  obtain ⟨after, due, due'⟩ := due_setPhase .finished known (by decide)
  refine ordered.proceed rfl rfl ?_ ?_
  · exact selected_finished ordered
  · rw [free_finished known none, due', due, nothing]
    exact Nat.le_refl _

/-- The row of a print that starts is one more. -/
theorem Ordered.insert (ordered : s.Ordered) {job : PrintJob} (known : s.tasks[t]? = some task)
    (none : task.phase.job = none) (rises : task.due = some .rise) (new : job.status = .printing) :
    ((s.setPhase t task .finished).insertJob job).Ordered := by
  obtain ⟨after, due, due'⟩ := due_setPhase .finished known (by decide)
  obtain ⟨before, rest, taken, taken'⟩ := taken_setPhase .finished known
  have same : (s.setPhase t task .finished).taken = s.taken := by
    rw [taken, taken', none]
    rfl
  refine ordered.proceed rfl rfl ?_ ?_
  · intro task' member j status now found
    obtain ⟨inside, ends⟩ := selected_finished ordered task' member j status now found
    refine ⟨?_, ends⟩
    unfold insertJob
    rw [List.length_append]
    exact Nat.lt_add_right _ inside
  · have free : ((s.setPhase t task .finished).insertJob job).free =
        Insert.insert s.jobs.length s.free := by
      ext j
      rw [Finset.mem_insert, mem_free, mem_free, isPrinting_append new]
      show (j = s.jobs.length ∨ s.isPrinting j) ∧ j ∉ (s.setPhase t task .finished).taken ↔ _
      rw [same]
      constructor
      · rintro ⟨rfl | active, other⟩
        · exact .inl rfl
        · exact .inr ⟨active, other⟩
      · rintro (rfl | ⟨active, other⟩)
        · exact ⟨.inl rfl, fun member => Nat.lt_irrefl _ (taken_lt ordered member)⟩
        · exact ⟨.inr active, other⟩
    have fresh : s.jobs.length ∉ s.free := by
      intro member
      obtain ⟨job, found, -⟩ := (mem_free.mp member).1
      rw [List.getElem?_eq_none (Nat.le_refl _)] at found
      cases found
    rw [free, Finset.card_insert_of_notMem fresh, due, rises]
    exact due' ▸ settle_early_rise

/-- A task that ends a print and finds no row comes to nothing. -/
theorem Ordered.miss (ordered : s.Ordered) (known : s.tasks[t]? = some task) (none : task.phase.job = none)
    (falls : task.due = some .fall) (empty : s.printing = ∅)
    (may : settle s.free.card (s.dueBefore t) = 0 ∨ .rise ∉ s.dueBefore t) :
    (s.setPhase t task .finished).Ordered := by
  obtain ⟨after, due, due'⟩ := due_setPhase .finished known (by decide)
  have free : s.free.card = 0 := by
    unfold History.free
    rw [empty]
    rfl
  refine ordered.proceed rfl rfl ?_ ?_
  · exact selected_finished ordered
  · rw [free_finished known none, due, due', falls]
    rcases may with idle | ahead
    · exact settle_idle_fall (Nat.le_refl _) idle
    · have early := @settle_early_fall 0 (s.dueBefore t) after ahead
      rw [free]
      exact Nat.le_of_eq early

/-- A task that ends a print takes the row it finds. -/
theorem Ordered.select (ordered : s.Ordered) (known : s.tasks[t]? = some task) (none : task.phase.job = none)
    (falls : task.due = some .fall) (found : s.isPrinting j) (ends : status ≠ .printing)
    (may : settle s.free.card (s.dueBefore t) = 0 ∨ .rise ∉ s.dueBefore t ∧ j ∉ s.taken) :
    (s.setPhase t task (.found j status now)).Ordered := by
  obtain ⟨after, due, due'⟩ := due_setPhase (.found j status now) known (by intro begun; cases begun)
  obtain ⟨before, rest, taken, taken'⟩ := taken_setPhase (.found j status now) known
  have free : (s.setPhase t task (.found j status now)).free = s.free.erase j := by
    ext i
    rw [Finset.mem_erase, mem_free, mem_free, taken, taken', none]
    show s.isPrinting i ∧ i ∉ before ++ j :: rest ↔ i ≠ j ∧ s.isPrinting i ∧ i ∉ before ++ rest
    simp only [List.mem_append, List.mem_cons]
    tauto
  refine ordered.proceed rfl rfl ?_ ?_
  · apply selected_setPhase ordered
    rintro j' status' now' selected
    cases selected
    obtain ⟨job, listed, -⟩ := found
    exact ⟨(List.getElem?_eq_some_iff.mp listed).1, ends⟩
  · rw [free, due, due', falls]
    rcases may with idle | ⟨ahead, other⟩
    · exact settle_idle_fall (Finset.card_erase_le) idle
    · rw [Finset.card_erase_of_mem (mem_free.mpr ⟨found, other⟩)]
      exact Nat.le_of_eq (settle_early_fall ahead)

/-- The row it has taken is not printing afterwards. -/
theorem Ordered.update (ordered : s.Ordered) (known : s.tasks[t]? = some task)
    (phase : task.phase = .found j status now) :
    ((s.setPhase t task .finished).updateJob j status now).Ordered := by
  have ends := (ordered.selected task (List.mem_of_getElem? known) j status now phase).2
  obtain ⟨after, due, due'⟩ := due_setPhase .finished known (by decide)
  obtain ⟨before, rest, taken, taken'⟩ := taken_setPhase .finished known
  have free : ((s.setPhase t task .finished).updateJob j status now).free =
      s.free := by
    ext i
    rw [mem_free, mem_free, isPrinting_complete ends, taken, phase]
    show (s.isPrinting i ∧ i ≠ j) ∧ i ∉ (s.setPhase t task .finished).taken ↔
      s.isPrinting i ∧ i ∉ before ++ j :: rest
    rw [taken']
    show (s.isPrinting i ∧ i ≠ j) ∧ i ∉ before ++ rest ↔ s.isPrinting i ∧ i ∉ before ++ j :: rest
    simp only [List.mem_append, List.mem_cons]
    tauto
  have began : task.due = none := by
    unfold LogTask.due
    rw [phase]
    rfl
  refine ordered.proceed rfl rfl ?_ ?_
  · intro task' member j' status' now' found
    obtain ⟨inside, ends⟩ := selected_finished ordered task' member j' status' now' found
    refine ⟨?_, ends⟩
    unfold updateJob
    rwa [List.length_modify]
  · rw [free, due, began]
    exact Nat.le_of_eq (congrArg _ due')

theorem Ordered.log (ordered : s.Ordered) (known : s.tasks[t]? = some task)
    (may : s.inOrder (.log t now first)) (taken : s.logStateTransition t task now first = some s') :
    s'.Ordered := by
  simp only [inOrder, known, Bool.or_eq_true, Bool.and_eq_true, decide_eq_true_eq, or_assoc] at may
  unfold logStateTransition at taken
  split at taken
  · rename_i fresh
    have none : task.phase.job = .none := by rw [fresh]; rfl
    have due : task.due = (transition task.prevState task.newState).map Logged.change := if_pos fresh
    split at taken
    · rename_i logs
      rw [logs] at due
      cases taken
      exact ordered.insert known none due rfl
    · rename_i status logs
      rw [logs] at due
      replace may := may.resolve_left (not_not.mpr due)
      split at taken
      · rename_i empty
        cases taken
        exact ordered.miss known none due empty (may.imp_right And.left)
      · split at taken
        · rename_i isFirst
          obtain ⟨job, listed, active, -⟩ := isFirst
          cases taken
          exact ordered.select known none due ⟨job, listed, active⟩ (transition_ended logs).2.2.2 may
        · cases taken
    · rename_i logs
      rw [logs] at due
      cases taken
      exact ordered.skip known none due
  · rename_i phase
    cases taken
    exact ordered.update known phase
  · cases taken

theorem Ordered.step {a : LogAction} (ordered : s.Ordered) (may : s.inOrder a) (taken : s.step a = some s') :
    s'.Ordered := by
  unfold History.step at taken
  split at taken
  · cases taken
    exact ordered.telemetry may
  · split at taken
    · rename_i known
      exact ordered.log known may taken
    · cases taken

/-- Once no task is pending, what is left is what there is. -/
theorem Ordered.follows (ordered : s.Ordered) (idle : s.Idle) : s.Follows := by
  have due : s.due = [] := by
    refine List.filterMap_eq_nil_iff.mpr fun task member => ?_
    unfold LogTask.due
    rw [idle task member]
    rfl
  have taken : s.taken = [] := by
    refine List.filterMap_eq_nil_iff.mpr fun task member => ?_
    rw [idle task member]
    rfl
  have free : s.free = s.printing := by
    ext j
    rw [mem_free, mem_printing, taken]
    exact and_iff_left List.not_mem_nil
  have settles := ordered.settles
  rw [due, free, settle_nil] at settles
  constructor
  · apply Nat.le_trans settles
    split <;> decide
  · intro inactive
    rw [if_neg inactive] at settles
    exact Finset.card_eq_zero.mp (Nat.le_zero.mp settles)

end Steps
end History

/-- The condition for every printer. -/
def inOrder (s : String → History) : (String × LogAction) ⊕ Empty → Prop
  | .inl (id, a) => (s id).inOrder a
  | .inr c => c.elim

theorem ordered_of_histories {s : String → History} (reached : histories.Reaches inOrder s) (id : String) :
    (s id).Ordered := by
  have own : logging.Reaches (fun s a => s.inOrder a) (s id) :=
    reached.component (fun _ _ _ allowed => allowed) (fun _ c => c.elim) id
  refine own.invariant History.Ordered ?_ fun s a t ordered may taken => ordered.step may taken
  exact ⟨by simp [logging], by simp [logging], Nat.zero_le _⟩

/-- While every task finds the history as the tasks before it leave it, and the end of a print
comes from the state of a print, the history follows each printer. -/
theorem history_follows {s : String → History} (reached : histories.Reaches inOrder s) (id : String)
    (idle : (s id).Idle) : (s id).Follows :=
  (ordered_of_histories reached id).follows idle

def received (gcodeState : String) : LogAction := .telemetry { gcodeState }

/-- The steps of a task that find the row that is given. -/
def logged (task steps first : ℕ) : List LogAction := List.replicate steps (.log task 0 first)

/-- A print that is logged from its start to its end. -/
theorem history_follows_print : ∃ s : String → History, histories.Reaches inOrder s ∧
    (s "P1").lastState = "FINISH" ∧ (s "P1").jobs.map PrintJob.status = [.completed] ∧ (s "P1").Follows := by
  obtain ⟨t, own, last, jobs, idle⟩ := Machine.Reaches.of_trace logging (fun s a => s.inOrder a)
    ([received "IDLE", received "RUNNING"] ++ logged 0 1 0 ++
      [received "PAUSE", received "FINISH"] ++ logged 1 1 0 ++ logged 2 2 0)
    (fun s => s.lastState = "FINISH" ∧ s.jobs.map PrintJob.status = [.completed] ∧ s.Idle) (by decide)
  have reached : histories.Reaches inOrder (Function.update (fun _ => logging.initial) "P1" t) :=
    own.instance_of "P1" fun _ _ => id
  have follows := history_follows reached "P1"
  rw [Function.update_self] at follows
  refine ⟨_, reached, ?_, ?_, ?_⟩ <;> rw [Function.update_self]
  · exact last
  · exact jobs
  · exact follows idle

/-- A partial report has an empty state, so the end of the print is not logged. -/
theorem partial_report_leaves_printing : ¬ ∀ s : String → History, histories.Reachable s →
    (∀ id, (s id).Idle) → ∀ id, (s id).Follows := by
  intro follow
  obtain ⟨t, own, last, jobs, idle⟩ := Machine.Reachable.of_trace logging
    ([received "IDLE", received "RUNNING"] ++ logged 0 1 0 ++ [received ""] ++ logged 1 1 0 ++ [received "FINISH"])
    (fun s => s.lastState = "FINISH" ∧ s.printing ≠ ∅ ∧ s.Idle) (by decide)
  have reached : histories.Reachable (Function.update (fun _ => logging.initial) "P1" t) :=
    own.instance_of "P1" fun _ _ => id
  have follows := follow _ reached (fun id => ?_) "P1"
  · rw [Function.update_self] at follows
    apply jobs
    apply follows.ended
    rw [last]
    decide
  · by_cases same : id = "P1"
    · rwa [same, Function.update_self]
    · rw [Function.update_of_ne same]
      intro task member
      cases member

end RndRust.Bambu.Api
