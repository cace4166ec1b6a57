import Mathlib.Algebra.Ring.Int.Defs
import Mathlib.Data.Rat.Init
import Mathlib.Logic.Function.Basic

/-! The task routes of the webapp, `http/tasks.rs`: `add_task_req`, `update_task_req` and `delete_task_req` over
the database and two accounts of the service that watches profiles. Calls to the service and messages to the bots
are listed in the order in which a request makes them. -/
namespace RndRust.Sniper.Webapp

/-- What an update of a task sets. -/
structure UpdateTask where
  walletId : Option ℤ
  twitterId : Option String
  twitterHandle : Option String
  servers : Option String
  blockLeaders : Option String
  value : Option ℚ
  tip : Option ℚ
  slippage : ℤ
  tries : ℤ
  frontrunningProtection : Bool
  enableAlerts : Bool
  selectedPool : String
  twitterApi : String
  twitterStrategy : Option String
  twitterHandleChecker : Option String
  twitterTokenOverride : Option String
  words : Option String
  deriving DecidableEq

structure NewTask extends UpdateTask where
  userId : ℤ
  deriving DecidableEq

structure Task extends NewTask where
  id : ℤ
  deriving DecidableEq

structure UpdateTaskPayload where
  walletId : Option ℤ
  twitterHandle : Option String
  servers : Option String
  blockLeaders : Option String
  value : Option ℚ
  tip : Option ℚ
  slippage : ℤ
  tries : ℤ
  frontrunningProtection : Bool
  enableAlerts : Bool
  selectedPool : String
  twitterApi : String
  twitterStrategy : Option String
  twitterHandleChecker : Option String
  twitterTokenOverride : Option String
  words : Option String
  deriving DecidableEq

structure User where
  id : ℤ
  groupId : ℤ
  deriving DecidableEq

structure Wallet where
  id : ℤ
  userId : ℤ
  pk : String
  nonceAccountAddress : Option String
  deriving DecidableEq

/-- The tables; ids are primary keys, and a task's is serial. -/
structure Db where
  users : List User
  wallets : List Wallet
  tasks : List Task
  nextTaskId : ℤ
  deriving DecidableEq

/-- What the handlers take from elsewhere: keys, addresses, and the decimal text of a number. -/
structure Env where
  decrypt : String → Option String
  decode : String → Option (List UInt8)
  /-- The address of a key pair. -/
  keypair : List UInt8 → Option String
  pubkey : String → Option String
  f64ToBigInt : ℚ → ℚ

/-- The two accounts of the service, by their keys. -/
inductive Account where
  | axsysApiKey
  | axsysApiKeyNormal
  deriving DecidableEq

/-- A call to the service. -/
inductive Call where
  | addWatchedProfile (account : Account) (handle : String)
  | deleteWatchedProfile (account : Account) (id : String)
  deriving DecidableEq

/-- What the service answers: to an addition with the id and the handle of the user, if there is one in the answer,
or with an error's text; to a deletion whether it was successful. -/
structure Answers where
  addWatchedProfile : Account → String → Except String (Option (String × String))
  deleteWatchedProfile : Account → String → Bool

/-- A task as the bots are told of it. -/
structure TaskWallet where
  task : Task
  privateKey : Option String
  publicKey : Option String
  nonceAccountAddress : Option String
  deriving DecidableEq

inductive Broadcast where
  | addTask (task : TaskWallet)
  | updateTask (task : TaskWallet)
  | deleteTask (id : ℤ)
  deriving DecidableEq

/-- Why a request is not accepted. -/
inductive Refusal where
  | badRequest (error : String)
  | notFound (error : String)
  /-- The handler panics, or computes with a wrong number where overflows are not checked. -/
  | panicked
  deriving DecidableEq

inductive Response where
  | ok (message : String)
  | refused (why : Refusal)
  deriving DecidableEq

def Response.accepted : Response → Bool
  | .ok _ => true
  | .refused _ => false

structure Outcome where
  db : Db
  calls : List Call := []
  broadcasts : List Broadcast := []
  response : Response
  deriving DecidableEq

/-- The Unicode property that `str::trim` goes by. -/
def isWhitespace (c : Char) : Bool :=
  9 ≤ c.toNat && c.toNat ≤ 13 || 8192 ≤ c.toNat && c.toNat ≤ 8202 ||
    c.toNat ∈ [32, 133, 160, 5760, 8232, 8233, 8239, 8287, 12288]

/-- `str::trim`. -/
def trim (s : String) : String :=
  String.ofList ((s.toList.dropWhile isWhitespace).reverse.dropWhile isWhitespace).reverse

namespace Db

variable (db : Db)

def getUserById (id : ℤ) : Option User := db.users.find? (·.id = id)

def getWallet (walletId : ℤ) : Option Wallet := db.wallets.find? (·.id = walletId)

def getTask (taskId : ℤ) : Option Task := db.tasks.find? (·.id = taskId)

def getTasksWithTweetHandle (twitterHandle : String) : List Task :=
  db.tasks.filter (·.twitterHandle = some twitterHandle)

def addTask (new : NewTask) : Db × Task :=
  let task : Task := { new with id := db.nextTaskId }
  ({ db with tasks := db.tasks ++ [task], nextTaskId := db.nextTaskId + 1 }, task)

def updateTask (taskId : ℤ) (update : UpdateTask) : Db :=
  match db.tasks.findIdx? (·.id = taskId) with
  | some i => { db with tasks := db.tasks.modify i fun task => { task with toUpdateTask := update } }
  | none => db

def deleteTask (taskId : ℤ) : Option Db :=
  (db.tasks.findIdx? (·.id = taskId)).map fun i => { db with tasks := db.tasks.eraseIdx i }

end Db

/-- The account that a task's tweets come from. -/
def accountOf (twitterApi : String) : Account := if twitterApi = "EXTREME" then .axsysApiKey else .axsysApiKeyNormal

/-- The tasks with the handle and this `twitter_api`. -/
def withApi (db : Db) (twitterHandle twitterApi : String) : List Task :=
  (db.getTasksWithTweetHandle twitterHandle).filter (·.twitterApi = twitterApi)

/-- `add_task_req`. -/
def addTaskReq (db : Db) (claimsId : ℤ) : Outcome :=
  let new : NewTask := {
    userId := claimsId
    walletId := none
    twitterId := none
    twitterHandle := none
    servers := none
    blockLeaders := none
    value := none
    tip := none
    slippage := 100
    tries := 1
    frontrunningProtection := false
    enableAlerts := true
    selectedPool := "EXCLUDE_PUMPFUN"
    twitterApi := "EXTREME"
    twitterStrategy := some "TWEET"
    twitterHandleChecker := none
    twitterTokenOverride := none
    words := none
  }
  let (db, task) := db.addTask new
  { db, broadcasts := [.addTask ⟨task, none, none, none⟩], response := .ok "Successfully added task" }

section Update

variable (env : Env) (answers : Answers) (db : Db) (user : User) (task : Task) (payload : UpdateTaskPayload)

/-- The private key, the public key and the nonce account of a wallet. -/
def openWallet (wallet : Wallet) : Except Refusal (String × String × Option String) :=
  match env.decrypt wallet.pk with
  | none => .error (.badRequest "Failed to decrypt wallet")
  | some pk =>
    match env.decode pk with
    | none => .error (.badRequest "Failed to decode private key")
    | some encoded =>
      match env.keypair encoded with
      | none => .error (.badRequest "Failed to initiate keypair")
      | some pubkey => .ok (pk, pubkey, wallet.nonceAccountAddress)

/-- The wallet that the payload assigns. -/
def assignWallet : Except Refusal (Option (String × String × Option String)) :=
  match payload.walletId with
  | none => .ok none
  | some walletId =>
    match db.getWallet walletId with
    | none => .error (.badRequest "Assigned wallet not found")
    | some wallet =>
      -- Whose wallet it is, is only asked where the task has one already.
      if task.walletId.any fun taskWalletId =>
          wallet.id ≠ taskWalletId && user.id ≠ wallet.userId && user.groupId = 3 then
        .error (.badRequest "Failed to assign wallet that doesn't belong to you")
      else (openWallet env wallet).map some

/-- The deletions where a task's API changes; `none` where a count falls below zero. -/
def deletions (twitterHandle : String) : Option (List Call) :=
  match task.twitterId with
  | none => some []
  | some twitterId =>
    let extreme := (withApi db twitterHandle "EXTREME").length
    let normal := (withApi db twitterHandle "NORMAL").length
    if payload.twitterApi = "EXTREME" then
      if normal = 0 then none
      else some (if normal - 1 = 0 then [.deleteWatchedProfile .axsysApiKeyNormal twitterId] else [])
    else
      if extreme = 0 then none
      else some (if extreme - 1 = 0 then [.deleteWatchedProfile .axsysApiKey twitterId] else [])

/-- The calls for a change of the handle or the API, and the id and the handle that the task gets. -/
def changeHandle : List Call × Except Refusal (Option String × Option String) :=
  match task.twitterHandle, payload.twitterHandle with
  | some old, some new =>
    let kept := if old = new then (task.twitterId, some old) else (none, none)
    if task.twitterApi = payload.twitterApi then ([], .ok kept)
    else
      match deletions db task payload old with
      | none => ([], .error .panicked)
      | some deletes =>
        if (withApi db old payload.twitterApi).length = 0 then
          let account := accountOf payload.twitterApi
          (deletes ++ [.addWatchedProfile account (trim new)],
            match answers.addWatchedProfile account (trim new) with
            | .ok (some (id, handle)) => .ok (some id, some handle)
            | .ok none => .ok kept
            | .error _ => .error (.badRequest "Failed to add twitter handle"))
        else (deletes, .ok kept)
  | some old, none =>
    if (withApi db old task.twitterApi).length = 1 then
      match task.twitterId with
      | none => ([], .error .panicked)
      | some twitterId =>
        let account := accountOf task.twitterApi
        ([.deleteWatchedProfile account twitterId],
          if answers.deleteWatchedProfile account twitterId then .ok (none, none)
          else .error (.badRequest "Failed to delete twitter handle"))
    else ([], .ok (none, none))
  | none, some new =>
    let account := accountOf payload.twitterApi
    ([.addWatchedProfile account (trim new)],
      match answers.addWatchedProfile account (trim new) with
      | .ok (some (id, handle)) => .ok (some id, some handle)
      | .ok none => .ok (none, none)
      | .error err => .error (.badRequest ("Failed to add twitter handle " ++ err)))
  | none, none => ([], .ok (none, none))

/-- What is written, but for the handle. -/
def updated (handle : Option String × Option String) : UpdateTask where
  walletId := payload.walletId
  twitterId := handle.1
  twitterHandle := handle.2
  servers := payload.servers
  blockLeaders := payload.blockLeaders
  value := payload.value.map env.f64ToBigInt
  tip := payload.tip.map env.f64ToBigInt
  slippage := payload.slippage
  tries := payload.tries
  frontrunningProtection := payload.frontrunningProtection
  enableAlerts := payload.enableAlerts
  selectedPool := payload.selectedPool
  twitterApi := payload.twitterApi
  twitterStrategy := payload.twitterStrategy
  twitterHandleChecker := payload.twitterHandleChecker
  twitterTokenOverride := payload.twitterTokenOverride.bind env.pubkey
  words := payload.words

/-- Both are there, and the new one is greater. -/
def raises (current new : Option ℚ) : Bool := current.any fun current => new.any fun new => current < new

/-- The first thing that a restricted user may not do to another user's task. -/
def restriction (updated : UpdateTask) : Option String :=
  if task.twitterHandle.isSome && updated.twitterHandle.isSome && updated.twitterHandle ≠ task.twitterHandle then
    some "Cannot change twitter handle"
  else if updated.tip = none then some "Cannot delete tip"
  else if updated.value = none then some "Cannot delete value"
  else if updated.tries = 0 then some "Cannot set tries to 0"
  else if updated.twitterHandle = none then some "Cannot change tweet handle"
  else if raises task.tip updated.tip then some "Cannot increase tip"
  else if raises task.value updated.value then some "Cannot increase value"
  else if task.slippage ≠ updated.slippage then some "Cannot change slippage"
  else if task.tries ≠ updated.tries then some "Cannot change tries"
  else if task.frontrunningProtection ≠ updated.frontrunningProtection then some "Cannot change frontrunning protection"
  else if task.enableAlerts ≠ updated.enableAlerts then some "Cannot change enable alerts"
  else if task.twitterApi ≠ updated.twitterApi then some "Cannot change twitter token override"
  else if task.twitterStrategy ≠ updated.twitterStrategy then some "Cannot change twitter token override"
  else if task.twitterTokenOverride ≠ updated.twitterTokenOverride then some "Cannot change twitter token override"
  else if task.selectedPool ≠ updated.selectedPool then some "Cannot change selected pool"
  else if task.words ≠ updated.words then some "Cannot change keywords"
  else none

/-- The user is of the restricted group, and the task is another user's. -/
def restricted : Bool := user.id ≠ task.userId && user.groupId = 3

/-- The update of a task that there is. -/
def updateTask : Outcome :=
  match assignWallet env db user task payload with
  | .error why => { db, response := .refused why }
  | .ok opened =>
    let (calls, handle) :=
      if restricted user task then ([], .ok (none, none)) else changeHandle answers db task payload
    match handle with
    | .error why => { db, calls, response := .refused why }
    | .ok handle =>
      let updated := updated env payload handle
      match if restricted user task then restriction task updated else none with
      | some error => { db, calls, response := .refused (.badRequest error) }
      | none =>
        let now : Task := { task with toUpdateTask := updated }
        { db := db.updateTask task.id updated
          calls
          broadcasts := [.updateTask ⟨now, opened.map (·.1), opened.map (·.2.1), opened.bind (·.2.2)⟩]
          response := .ok "Successfully updated task" }

end Update

/-- `update_task_req`. -/
def updateTaskReq (env : Env) (answers : Answers) (db : Db) (claimsId id : ℤ) (payload : UpdateTaskPayload) : Outcome :=
  match db.getUserById claimsId with
  | none => { db, response := .refused (.badRequest "User not logged in properly") }
  | some user =>
    match db.getTask id with
    | none => { db, response := .refused (.notFound "Error task not found") }
    | some task => updateTask env answers db user task payload

/-- The deletions of `delete_task_req`. -/
def lastWatches (db : Db) (task : Task) : List Call :=
  match task.twitterId, task.twitterHandle with
  | some twitterId, some twitterHandle =>
    (if (withApi db twitterHandle "EXTREME").length = 1 then [.deleteWatchedProfile .axsysApiKey twitterId] else [])
      ++ if (withApi db twitterHandle "NORMAL").length = 1 then [.deleteWatchedProfile .axsysApiKeyNormal twitterId] else []
  | _, _ => []

/-- `delete_task_req`. -/
def deleteTaskReq (db : Db) (id : ℤ) : Outcome :=
  match db.getTask id with
  | none => { db, response := .refused (.notFound "Task not found") }
  | some task =>
    let calls := lastWatches db task
    match db.deleteTask id with
    | some db => { db, calls, broadcasts := [.deleteTask id], response := .ok "Successfully deleted task" }
    | none => { db, calls, response := .refused (.badRequest "Error deleting task") }

end RndRust.Sniper.Webapp
