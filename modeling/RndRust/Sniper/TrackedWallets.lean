import Mathlib.Data.Finset.Insert
import Mathlib.Data.Finset.Erase
import RndRust.Lib.Runs
import RndRust.Lib.Updates
import RndRust.Sniper.State

/-! The wallets that the tracker watches: `start_tasks` keeps the tasks and sends the tracker a command where a
message adds a wallet or takes one away, and the tracker keeps a handle for each address. -/
namespace RndRust.Sniper
open Lib

/-- A task as the server sends it, with its id and its wallet's address. -/
structure ServerTask extends TaskWallet where
  id : ℤ
  publicKey : Option String
  deriving DecidableEq

inductive GeyserTracker where
  | start (address : String)
  | stop (address : String)
  deriving DecidableEq

/-- The messages that change the tasks. -/
inductive ServerMessage where
  | setTasks (tasks : List ServerTask)
  | addTask (task : ServerTask)
  | updateTask (task : ServerTask)
  | deleteTask (taskId : ℤ)

/-- The tasks, the tracker's commands that it has not come to, and the addresses it has a handle for. -/
structure Tracking where
  tasks : List ServerTask := []
  commands : List GeyserTracker := []
  handles : Finset String := ∅
  deriving DecidableEq

/-- `get_task`. -/
def getTask (tasks : List ServerTask) (taskId : ℤ) : Option ServerTask := tasks.find? (·.id = taskId)

/-- `get_tasks_with_pub_key`. -/
def getTasksWithPubKey (tasks : List ServerTask) (pubKey : String) : List ServerTask :=
  tasks.filter (·.publicKey = some pubKey)

/-- `update_task`. -/
def updateTask (tasks : List ServerTask) (updatedTask : ServerTask) : List ServerTask :=
  match tasks.findIdx? (·.id = updatedTask.id) with
  | some i => tasks.set i updatedTask
  | none => tasks

/-- `remove_task`. -/
def removeTask (tasks : List ServerTask) (taskId : ℤ) : List ServerTask :=
  match tasks.findIdx? (·.id = taskId) with
  | some i => tasks.eraseIdx i
  | none => tasks

def starts (tasks : List ServerTask) : List GeyserTracker := tasks.filterMap fun task => task.publicKey.map .start

/-- The commands of `UPDATE_TASK`. -/
def updateCommands (tasks : List ServerTask) (task : ServerTask) : List GeyserTracker :=
  let oldPubKey := (getTask tasks task.id).bind ServerTask.publicKey
  let newPubKey := task.publicKey
  match oldPubKey, newPubKey with
  | none, some new => [.start new]
  | some old, some new =>
    if old = new then []
    else
      (if 1 < (getTasksWithPubKey tasks old).length then [] else [.stop old])
        ++ if (getTasksWithPubKey tasks new).length = 0 then [.start new] else []
  -- The arm that was to be for these asks once more for a wallet that is new.
  | some _, none | none, none => []

/-- The commands of `DELETE_TASK`. -/
def deleteCommands (tasks : List ServerTask) (taskId : ℤ) : List GeyserTracker :=
  match (getTask tasks taskId).bind ServerTask.publicKey with
  | some pubKey => if (getTasksWithPubKey tasks pubKey).length = 1 then [.stop pubKey] else []
  | none => []

/-- `start_tasks`: the tasks after a message, and the commands it sends. -/
def startTasks (tasks : List ServerTask) : ServerMessage → List ServerTask × List GeyserTracker
  | .setTasks tasks => (tasks, starts tasks)
  | .addTask task => (tasks ++ [task], starts [task])
  | .updateTask task => (updateTask tasks task, updateCommands tasks task)
  | .deleteTask taskId => (removeTask tasks taskId, deleteCommands tasks taskId)

/-- The tracker of `start_yellowstone_service`. -/
def track (handles : Finset String) : GeyserTracker → Finset String
  | .start address => insert address handles
  | .stop address => handles.erase address

inductive TrackingAction where
  | message (message : ServerMessage)
  /-- The tracker takes its next command. -/
  | track

namespace Tracking

def step (s : Tracking) : TrackingAction → Option Tracking
  | .message message =>
    let (tasks, commands) := startTasks s.tasks message
    some { s with tasks, commands := s.commands ++ commands }
  | .track =>
    match s.commands with
    | command :: commands => some { s with commands, handles := Sniper.track s.handles command }
    | [] => none

end Tracking

def tracking : Machine Tracking TrackingAction where
  initial := {}
  step := Tracking.step

namespace Tracking

/-- The handles once every command has been processed. -/
def settled (s : Tracking) : Finset String := s.commands.foldl Sniper.track s.handles

/-- The tracker will watch exactly the tasks' wallets. -/
def Follows (s : Tracking) : Prop := ∀ address, address ∈ s.settled ↔ ∃ task ∈ s.tasks, task.publicKey = some address

/-- The condition: a new list of tasks keeps every wallet, an update takes a wallet from a task only if another
one has it, and a wallet comes with an update only to a task that there is, or to one of them already. -/
def keeps (s : Tracking) : TrackingAction → Bool
  | .message (.setTasks tasks) => s.tasks.all fun old => old.publicKey.isNone || tasks.any (·.publicKey = old.publicKey)
  | .message (.updateTask task) =>
    match (getTask s.tasks task.id).bind ServerTask.publicKey, task.publicKey with
    | some old, none => 1 < (getTasksWithPubKey s.tasks old).length
    | none, some new => (getTask s.tasks task.id).isSome || 0 < (getTasksWithPubKey s.tasks new).length
    | _, _ => true
  | _ => true

end Tracking

section Wallets

variable {tasks : List ServerTask} {task old : ServerTask} {address pubKey : String} {taskId : ℤ} {i : ℕ}
  {handles : Finset String} {commands : List GeyserTracker}

/-- How many tasks have the wallet. -/
def sharing (tasks : List ServerTask) (address : String) : ℕ := uses ServerTask.publicKey tasks address

theorem sharing_pos : 0 < sharing tasks address ↔ ∃ task ∈ tasks, task.publicKey = some address := uses_pos

theorem sharing_of_getElem? (known : tasks[i]? = some old) (has : old.publicKey = some address) :
    0 < sharing tasks address := uses_of_mem (List.mem_of_getElem? known) has

theorem sharing_append_one :
    sharing (tasks ++ [task]) address = sharing tasks address + if task.publicKey = some address then 1 else 0 :=
  uses_append_one

theorem sharing_set (known : tasks[i]? = some old) :
    sharing (tasks.set i task) address + (if old.publicKey = some address then 1 else 0)
      = sharing tasks address + if task.publicKey = some address then 1 else 0 := uses_set known

theorem sharing_eraseIdx (known : tasks[i]? = some old) :
    sharing (tasks.eraseIdx i) address + (if old.publicKey = some address then 1 else 0) = sharing tasks address :=
  uses_eraseIdx known

theorem length_getTasksWithPubKey : (getTasksWithPubKey tasks pubKey).length = sharing tasks pubKey :=
  List.countP_eq_length_filter.symm

/-- The task of an id, and its position. -/
theorem getTask_cases (tasks : List ServerTask) (taskId : ℤ) :
    tasks.findIdx? (·.id = taskId) = none ∧ getTask tasks taskId = none ∨
      ∃ i old, tasks.findIdx? (·.id = taskId) = some i ∧ tasks[i]? = some old ∧ getTask tasks taskId = some old := by
  have same : getTask tasks taskId = (tasks.findIdx? (·.id = taskId)).bind fun i => tasks[i]? :=
    List.find?_eq_bind_findIdx?_getElem?
  rw [same]
  cases at_ : tasks.findIdx? (·.id = taskId) with
  | none => exact .inl ⟨rfl, rfl⟩
  | some i =>
    obtain ⟨inside, -, -⟩ := List.findIdx?_eq_some_iff_getElem.mp at_
    exact .inr ⟨i, tasks[i], rfl, List.getElem?_eq_getElem inside, List.getElem?_eq_getElem inside⟩

theorem mem_foldl_starts : address ∈ (starts tasks).foldl track handles ↔ address ∈ handles ∨ 0 < sharing tasks address := by
  induction tasks generalizing handles with
  | nil => exact (or_iff_left (Nat.lt_irrefl 0)).symm
  | cons task tasks ih =>
    have count : sharing (task :: tasks) address
        = sharing tasks address + if task.publicKey = some address then 1 else 0 := by
      simp [sharing, uses, List.countP_cons]
    cases wallet : task.publicKey with
    | none =>
      have same : starts (task :: tasks) = starts tasks := by simp [starts, wallet]
      rw [same, ih, count, if_neg (by simp [wallet]), Nat.add_zero]
    | some pubKey =>
      have first : starts (task :: tasks) = .start pubKey :: starts tasks := by simp [starts, wallet]
      rw [first, List.foldl_cons, ih, count, wallet, track, Finset.mem_insert]
      by_cases here : pubKey = address
      · simp [here]
      · simp [here, Ne.symm here]

/-- The commands where a wallet takes the place of another one. -/
theorem mem_switch {shared fresh : Prop} [Decidable shared] [Decidable fresh] {old new : String} :
    address ∈ ((if shared then [] else [GeyserTracker.stop old]) ++
        if fresh then [GeyserTracker.start new] else []).foldl track handles ↔
      fresh ∧ address = new ∨ address ∈ handles ∧ (address = old → shared) := by
  by_cases still : shared <;> by_cases first : fresh <;> simp [still, first, track, and_comm]

end Wallets

namespace Tracking

variable {s t : Tracking} {a : TrackingAction} {message : ServerMessage} {tasks : List ServerTask} {task old : ServerTask}
  {address : String} {taskId : ℤ} {i : ℕ}

theorem follows_iff : s.Follows ↔ ∀ address, address ∈ s.settled ↔ 0 < sharing s.tasks address :=
  forall_congr' fun address => by rw [sharing_pos]

/-- What a message leaves to be seen: the tasks, and the handles after its commands. -/
theorem settled_message : Tracking.settled { s with
    tasks := (startTasks s.tasks message).1, commands := s.commands ++ (startTasks s.tasks message).2 } =
      (startTasks s.tasks message).2.foldl Sniper.track s.settled := by
  rw [settled, List.foldl_append]
  rfl

/-- Each message's condition, over the handles and the wallets in use. -/
def Kept (s : Tracking) (message : ServerMessage) : Prop := ∀ address,
  address ∈ (startTasks s.tasks message).2.foldl Sniper.track s.settled ↔ 0 < sharing (startTasks s.tasks message).1 address

theorem kept_setTasks (follows : s.Follows) : s.Kept (.setTasks tasks) ↔ s.keeps (.message (.setTasks tasks)) := by
  have kept : s.Kept (.setTasks tasks) ↔ ∀ address, 0 < sharing s.tasks address → 0 < sharing tasks address := by
    refine forall_congr' fun address => ?_
    rw [startTasks, mem_foldl_starts, follows_iff.mp follows]
    exact or_iff_right_iff_imp
  rw [kept]
  simp only [keeps, List.all_eq_true, Bool.or_eq_true, List.any_eq_true, decide_eq_true_eq, Option.isNone_iff_eq_none,
    sharing_pos]
  constructor
  · intro covers old listed
    cases wallet : old.publicKey with
    | none => exact .inl rfl
    | some address => exact .inr (covers address ⟨old, listed, wallet⟩)
  · rintro covers address ⟨old, listed, wallet⟩
    rcases covers old listed with none | ⟨task, new, same⟩
    · rw [wallet] at none
      cases none
    · exact ⟨task, new, same.trans wallet⟩

theorem kept_addTask (follows : s.Follows) : s.Kept (.addTask task) := by
  intro address
  have one : sharing [task] address = if task.publicKey = some address then 1 else 0 := by
    simp [sharing, uses, List.countP_singleton]
  rw [startTasks, mem_foldl_starts, follows_iff.mp follows, one]
  dsimp only
  rw [sharing_append_one]
  omega

theorem kept_deleteTask (follows : s.Follows) : s.Kept (.deleteTask taskId) := by
  intro address
  have mem := follows_iff.mp follows address
  rcases getTask_cases s.tasks taskId with ⟨nowhere, none⟩ | ⟨i, old, at_, known, found⟩
  · simpa [startTasks, removeTask, deleteCommands, nowhere, none] using mem
  · have count := @sharing_eraseIdx _ _ address _ known
    simp only [startTasks, removeTask, deleteCommands, at_, found, Option.bind_some]
    cases wallet : old.publicKey with
    | none =>
      simp only [wallet, reduceCtorEq, if_false, Nat.add_zero] at count
      rw [List.foldl_nil, mem, count]
    | some pubKey =>
      have here := sharing_of_getElem? known wallet
      simp only [wallet, Option.some.injEq] at count
      simp only [length_getTasksWithPubKey]
      split
      case isTrue last =>
        rw [List.foldl_cons, List.foldl_nil, track, Finset.mem_erase, mem]
        split at count
        case isTrue same =>
          subst same
          simp only [ne_eq, not_true_eq_false, false_and, false_iff]
          omega
        case isFalse other =>
          rw [and_iff_right (Ne.symm other)]
          omega
      case isFalse more =>
        rw [List.foldl_nil, mem]
        split at count
        case isTrue same =>
          subst same
          omega
        case isFalse => omega

theorem kept_updateTask (follows : s.Follows) : s.Kept (.updateTask task) ↔ s.keeps (.message (.updateTask task)) := by
  have mem := follows_iff.mp follows
  rcases getTask_cases s.tasks task.id with ⟨nowhere, none⟩ | ⟨i, old, at_, known, found⟩
  · simp only [Kept, keeps, startTasks, updateTask, updateCommands, nowhere, none, Option.bind_none]
    cases wallet : task.publicKey with
    | none => simpa using mem
    | some new =>
      simp only [List.foldl_cons, List.foldl_nil, track, Finset.mem_insert, mem, length_getTasksWithPubKey,
        Option.isSome_none, Bool.false_or, decide_eq_true_eq]
      constructor
      · intro kept
        exact (kept new).mp (.inl rfl)
      · intro used address
        exact or_iff_right_of_imp fun same => same ▸ used
  · have count := fun address => @sharing_set _ task _ address _ known
    simp only [Kept, keeps, startTasks, updateTask, updateCommands, at_, found, Option.bind_some]
    cases before : old.publicKey with
    | none =>
      simp only [before, reduceCtorEq, if_false, Nat.add_zero] at count
      cases after : task.publicKey with
      | none =>
        simp only [after, reduceCtorEq, if_false, Nat.add_zero] at count
        simpa [count] using mem
      | some new =>
        simp only [after, Option.some.injEq] at count
        simp only [List.foldl_cons, List.foldl_nil, track, Finset.mem_insert, mem, Option.isSome_some, Bool.true_or, iff_true]
        intro address
        rw [count]
        by_cases same : new = address
        · simp [same]
        · simp [same, Ne.symm same]
    | some pubKey =>
      have here := sharing_of_getElem? known before
      simp only [before, Option.some.injEq] at count
      cases after : task.publicKey with
      | none =>
        simp only [after, reduceCtorEq, if_false, Nat.add_zero] at count
        simp only [List.foldl_nil, mem, length_getTasksWithPubKey, decide_eq_true_eq]
        constructor
        · intro kept
          have others := (kept pubKey).mp here
          have := count pubKey
          rw [if_pos rfl] at this
          omega
        · intro shared address
          have := count address
          split at this
          case isTrue same =>
            subst same
            omega
          case isFalse => omega
      | some new =>
        simp only [after, Option.some.injEq] at count
        simp only [length_getTasksWithPubKey, iff_true]
        intro address
        have := count address
        by_cases same : pubKey = new
        · subst same
          rw [if_pos rfl, List.foldl_nil, mem]
          omega
        · rw [if_neg same, mem_switch, mem]
          by_cases goes : pubKey = address
          · subst goes
            rw [if_pos rfl, if_neg (Ne.symm same)] at this
            simp only [same, and_false, false_or, forall_const]
            omega
          · rw [if_neg goes] at this
            by_cases comes : new = address
            · subst comes
              rw [if_pos rfl] at this
              simp only [Ne.symm same, false_implies, and_true]
              omega
            · rw [if_neg comes] at this
              simp only [Ne.symm comes, Ne.symm goes, and_false, false_or, false_implies, and_true]
              omega

/-- A step after which the tracker still follows the tasks is one that keeps them. -/
theorem Follows.step (follows : s.Follows) (taken : s.step a = some t) : t.Follows ↔ s.keeps a := by
  cases a with
  | message message =>
    cases taken
    have kept : Follows { s with
        tasks := (startTasks s.tasks message).1, commands := s.commands ++ (startTasks s.tasks message).2 } ↔
        s.Kept message := by
      rw [follows_iff, settled_message]
      rfl
    refine kept.trans ?_
    cases message with
    | setTasks tasks => exact kept_setTasks follows
    | addTask task => exact iff_of_true (kept_addTask follows) rfl
    | updateTask task => exact kept_updateTask follows
    | deleteTask taskId => exact iff_of_true (kept_deleteTask follows) rfl
  | track =>
    simp only [Tracking.step] at taken
    split at taken
    case h_1 command commands waiting =>
      cases taken
      refine iff_of_true ?_ rfl
      have same : Tracking.settled { s with commands, handles := Sniper.track s.handles command } = s.settled := by
        rw [settled, settled, waiting, List.foldl_cons]
      rw [Follows, same]
      exact follows
    case h_2 => cases taken

/-- **The tracker watches the tasks' wallets** once it has processed its commands, in every run whose messages
keep them; and from where it will watch them, a message keeps that exactly if it meets the condition. -/
theorem tracked_wallets (reached : tracking.Reaches (fun s a => s.keeps a) s) :
    (s.commands = [] → ∀ address, address ∈ s.handles ↔ ∃ task ∈ s.tasks, task.publicKey = some address) ∧
      ∀ a t, s.step a = some t → (t.Follows ↔ s.keeps a) := by
  have follows : s.Follows := by
    refine reached.invariant Follows ?_ fun _ _ _ follows allowed taken => (follows.step taken).mpr allowed
    exact fun address => by simp [tracking, settled]
  refine ⟨fun processed => ?_, fun a t taken => follows.step taken⟩
  have settled : s.settled = s.handles := by rw [Tracking.settled, processed, List.foldl_nil]
  rw [← settled]
  exact follows

end Tracking

section Examples

def walletTask (id : ℤ) (publicKey : Option String) : ServerTask where
  id
  publicKey
  privateKey := publicKey.map fun _ => "key"
  nonceAccountAddress := some "nonce"
  twitterHandle := some "elon"
  servers := none
  blockLeaders := some "JITO"
  value := some 1
  tip := some 1
  slippage := 10
  tries := 3
  frontrunningProtection := false
  enableAlerts := false
  selectedPool := "ALL"
  twitterStrategy := some "TWEET"
  twitterHandleChecker := none
  twitterTokenOverride := none
  words := none

/-- Two tasks share a wallet; one of them gets another, and is deleted. -/
theorem tracked_wallets_shared : ∃ s, tracking.Reaches (fun s a => s.keeps a) s ∧ s.handles = {"A"} ∧
    ((s.commands = [] → ∀ address, address ∈ s.handles ↔ ∃ task ∈ s.tasks, task.publicKey = some address) ∧
      ∀ a t, s.step a = some t → (t.Follows ↔ s.keeps a)) := by
  obtain ⟨s, reached, handles⟩ := Machine.Reaches.of_trace tracking (fun s a => s.keeps a)
    [.message (.setTasks [walletTask 1 (some "A"), walletTask 2 (some "A")]), .message (.updateTask (walletTask 2 (some "B"))),
      .message (.deleteTask 2), .track, .track, .track, .track] (·.handles = {"A"}) (by decide +kernel)
  exact ⟨s, reached, handles, Tracking.tracked_wallets reached⟩

/-- The only task's wallet is removed. -/
theorem tracked_wallets_fails : ∃ s, tracking.Reachable s ∧ s.commands = [] ∧
    ¬∀ address ∈ s.handles, ∃ task ∈ s.tasks, task.publicKey = some address := by
  obtain ⟨s, reached, processed, stays⟩ := Machine.Reachable.of_trace tracking
    [.message (.setTasks [walletTask 1 (some "A")]), .track, .message (.updateTask (walletTask 1 none))]
    (fun s => s.commands = [] ∧ ¬∀ address ∈ s.handles, ∃ task ∈ s.tasks, task.publicKey = some address) (by decide +kernel)
  exact ⟨s, reached, processed, stays⟩

end Examples

end RndRust.Sniper
