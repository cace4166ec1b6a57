import RndRust.Lib.Updates
import RndRust.Sniper.Webapp.Tasks

/-! What the users of group 3 may do: whose wallets they give to a task, and what they change of a task that is
another user's. -/
namespace RndRust.Sniper.Webapp
open Lib

variable {env : Env} {answers : Answers} {db : Db} {user : User} {task now : Task} {payload : UpdateTaskPayload}
  {wallet : Wallet} {claimsId id : ℤ} {update : UpdateTask}

/-- The wallet's key can be read. -/
def Opens (env : Env) (wallet : Wallet) : Prop :=
  ∃ pk encoded pubkey, env.decrypt wallet.pk = some pk ∧ env.decode pk = some encoded ∧ env.keypair encoded = some pubkey

theorem openWallet_ok : (∃ opened, openWallet env wallet = .ok opened) ↔ Opens env wallet := by
  constructor
  · rintro ⟨opened, ok⟩
    unfold openWallet at ok
    split at ok
    case h_1 => cases ok
    case h_2 pk decrypted =>
      split at ok
      case h_1 => cases ok
      case h_2 encoded decoded =>
        split at ok
        case h_1 => cases ok
        case h_2 pubkey pair => exact ⟨pk, encoded, pubkey, decrypted, decoded, pair⟩
  · rintro ⟨pk, encoded, pubkey, decrypted, decoded, pair⟩
    exact ⟨(pk, pubkey, wallet.nonceAccountAddress), by simp only [openWallet, decrypted, decoded, pair]⟩

/-- The service adds the profile. -/
def Adds (answers : Answers) (twitterApi handle : String) : Prop :=
  ∃ user, answers.addWatchedProfile (accountOf twitterApi) (trim handle) = .ok user

/-- The API that an update to this one counts a task less for. -/
def leftApi (twitterApi : String) : String := if twitterApi = "EXTREME" then "NORMAL" else "EXTREME"

/-- The handle and the API can be changed: the service does what it is needed for, and no count falls below zero. -/
def Changes (answers : Answers) (db : Db) (task : Task) (payload : UpdateTaskPayload) : Prop :=
  match task.twitterHandle, payload.twitterHandle with
  | some old, some new => task.twitterApi = payload.twitterApi ∨
      (task.twitterId = none ∨ (withApi db old (leftApi payload.twitterApi)).length ≠ 0) ∧
        ((withApi db old payload.twitterApi).length ≠ 0 ∨ Adds answers payload.twitterApi new)
  | some old, none => (withApi db old task.twitterApi).length ≠ 1 ∨
      ∃ twitterId, task.twitterId = some twitterId ∧ answers.deleteWatchedProfile (accountOf task.twitterApi) twitterId
  | none, some new => Adds answers payload.twitterApi new
  | none, none => True

theorem deletions_isSome {twitterHandle : String} : (deletions db task payload twitterHandle).isSome ↔
    task.twitterId = none ∨ (withApi db twitterHandle (leftApi payload.twitterApi)).length ≠ 0 := by
  unfold deletions leftApi
  cases task.twitterId with
  | none => simp
  | some twitterId =>
    dsimp only
    split
    case isTrue =>
      split
      case isTrue empty => simp [empty]
      case isFalse more => simp [more]
    case isFalse =>
      split
      case isTrue empty => simp [empty]
      case isFalse more => simp [more]

theorem changeHandle_ok : (∃ handle, (changeHandle answers db task payload).2 = .ok handle) ↔
    Changes answers db task payload := by
  unfold changeHandle Changes
  cases task.twitterHandle with
  | none =>
    cases payload.twitterHandle with
    | none => exact iff_of_true ⟨_, rfl⟩ trivial
    | some new =>
      dsimp only [Adds]
      cases answers.addWatchedProfile (accountOf payload.twitterApi) (trim new) with
      | error err => simp
      | ok user => cases user <;> simp
  | some old =>
    cases payload.twitterHandle with
    | none =>
      dsimp only
      split
      case isTrue one =>
        cases task.twitterId with
        | none => simp [one]
        | some twitterId =>
          dsimp only
          cases deleted : answers.deleteWatchedProfile (accountOf task.twitterApi) twitterId <;> simp [one, deleted]
      case isFalse other => simp [other]
    | some new =>
      dsimp only
      split
      case isTrue same => simp [same]
      case isFalse changes =>
        rw [or_iff_right changes, ← deletions_isSome]
        cases deletions db task payload old with
        | none => simp
        | some deletes =>
          dsimp only [Adds]
          split
          case isTrue first =>
            cases answers.addWatchedProfile (accountOf payload.twitterApi) (trim new) with
            | error err => simp [first]
            | ok user => cases user <;> simp
          case isFalse shared => simp [shared]

/-- Who has the wallets that a user of group 3 may give to a task that has one. -/
def Allowed (user : User) (task : Task) (wallet : Wallet) : Prop :=
  ∀ taskWalletId, task.walletId = some taskWalletId → wallet.id = taskWalletId ∨ wallet.userId = user.id

theorem assignWallet_ok (groupId : user.groupId = 3) : (∃ opened, assignWallet env db user task payload = .ok opened) ↔
    ∀ walletId, payload.walletId = some walletId →
      ∃ wallet, db.getWallet walletId = some wallet ∧ Allowed user task wallet ∧ Opens env wallet := by
  unfold assignWallet
  cases payload.walletId with
  | none => simp
  | some walletId =>
    simp only [Option.some.injEq, forall_eq']
    cases db.getWallet walletId with
    | none => simp
    | some wallet =>
      have asks : (task.walletId.any fun taskWalletId =>
          wallet.id ≠ taskWalletId && user.id ≠ wallet.userId && user.groupId = 3) ↔ ¬ Allowed user task wallet := by
        unfold Allowed
        cases task.walletId with
        | none => simp
        | some taskWalletId => simp [groupId, @eq_comm _ user.id]
      simp only [Option.some.injEq, exists_eq_left']
      split
      case isTrue refused => simp [asks.mp refused]
      case isFalse passes =>
        rw [and_iff_right (not_not.mp (asks.not.mp passes)), ← openWallet_ok]
        cases openWallet env wallet with
        | ok keys => simp [Except.map]
        | error why => simp [Except.map]

theorem getTask_updateTask : (db.updateTask id update).getTask id
    = (db.getTask id).map fun task => { task with toUpdateTask := update } := by
  unfold Db.updateTask Db.getTask
  cases at_ : db.tasks.findIdx? (·.id = id) with
  | none =>
    have none : db.tasks.find? (·.id = id) = none := by
      rw [List.find?_eq_bind_findIdx?_getElem?, at_]
      rfl
    simp [none]
  | some i =>
    dsimp only
    rw [find?_modify (f := fun task : Task => { task with toUpdateTask := update }) fun _ => rfl, at_, if_pos rfl]

/-- An update of another user's task: no more value and tip, and the rest as it was. -/
structure Within (task now : Task) : Prop where
  value : ∀ value, now.value = some value → ∃ current, task.value = some current ∧ value ≤ current
  tip : ∀ tip, now.tip = some tip → ∃ current, task.tip = some current ∧ tip ≤ current
  slippage : now.slippage = task.slippage
  tries : now.tries = task.tries
  frontrunningProtection : now.frontrunningProtection = task.frontrunningProtection
  enableAlerts : now.enableAlerts = task.enableAlerts
  twitterApi : now.twitterApi = task.twitterApi
  twitterStrategy : now.twitterStrategy = task.twitterStrategy
  twitterTokenOverride : now.twitterTokenOverride = task.twitterTokenOverride
  selectedPool : now.selectedPool = task.selectedPool
  words : now.words = task.words
  twitterHandle : now.twitterHandle = task.twitterHandle

/-- A task that buys: its wallet's key can be read, and nothing that it needs is missing. -/
structure Configured (env : Env) (db : Db) (task : Task) : Prop where
  wallet : ∃ walletId wallet, task.walletId = some walletId ∧ db.getWallet walletId = some wallet ∧ Opens env wallet
  twitterId : task.twitterId.isSome
  twitterHandle : task.twitterHandle.isSome
  value : task.value.isSome
  tip : task.tip.isSome
  tries : 0 < task.tries
  twitterStrategy : task.twitterStrategy.isSome
  twitterTokenOverride : ∀ mint, task.twitterTokenOverride = some mint → env.pubkey mint = some mint

/-- A payload that keeps all fields, except for a lower value or tip. -/
structure Lowers (env : Env) (task : Task) (payload : UpdateTaskPayload) : Prop where
  value : ∃ value current, payload.value = some value ∧ task.value = some current ∧ env.f64ToBigInt value ≤ current
  tip : ∃ tip current, payload.tip = some tip ∧ task.tip = some current ∧ env.f64ToBigInt tip ≤ current
  lower : payload.value.map env.f64ToBigInt ≠ task.value ∨ payload.tip.map env.f64ToBigInt ≠ task.tip
  kept : ({ payload with value := none, tip := none } : UpdateTaskPayload) = {
    walletId := task.walletId
    twitterHandle := task.twitterHandle
    servers := task.servers
    blockLeaders := task.blockLeaders
    value := none
    tip := none
    slippage := task.slippage
    tries := task.tries
    frontrunningProtection := task.frontrunningProtection
    enableAlerts := task.enableAlerts
    selectedPool := task.selectedPool
    twitterApi := task.twitterApi
    twitterStrategy := task.twitterStrategy
    twitterHandleChecker := task.twitterHandleChecker
    twitterTokenOverride := task.twitterTokenOverride
    words := task.words }

/-- What a request of a restricted user has to keep to, and what it has to be able to do. -/
structure Rights (env : Env) (db : Db) (user : User) (task : Task) (payload : UpdateTaskPayload) (outcome : Outcome) :
    Prop where
  wallet : outcome.response.accepted → ∀ now, outcome.db.getTask task.id = some now → ∀ walletId,
    now.walletId = some walletId → task.walletId ≠ some walletId →
      ∃ wallet, db.getWallet walletId = some wallet ∧ wallet.userId = user.id
  other : outcome.response.accepted → task.userId ≠ user.id → ∀ now, outcome.db.getTask task.id = some now → Within task now
  lowers : task.userId ≠ user.id → Configured env db task → Lowers env task payload → outcome.response.accepted ∧
    ∃ value tip, outcome.db = db.updateTask task.id { task.toUpdateTask with value, tip }

/-- The user's own task has no wallet, and is given one of somebody else's. -/
def TakesWallet (env : Env) (answers : Answers) (db : Db) (user : User) (task : Task) (payload : UpdateTaskPayload) :
    Prop :=
  task.userId = user.id ∧ task.walletId = none ∧ Changes answers db task payload ∧
    ∃ walletId wallet, payload.walletId = some walletId ∧ db.getWallet walletId = some wallet ∧
      wallet.userId ≠ user.id ∧ Opens env wallet

theorem restricted_iff (groupId : user.groupId = 3) : restricted user task ↔ task.userId ≠ user.id := by
  rw [restricted, Bool.and_eq_true, decide_eq_true_eq, decide_eq_true_eq, and_iff_left groupId, ne_comm]

/-- An update that gives no handle is refused. -/
theorem restriction_isSome (update : UpdateTask) (missing : update.twitterHandle = none) :
    (restriction task update).isSome := by
  unfold restriction
  simp only [missing, Option.isSome_none, Bool.and_false, Bool.false_and, Bool.false_eq_true, if_false, if_true]
  split
  · rfl
  · split
    · rfl
    · split
      · rfl
      · rfl

/-- Nobody of group 3 gets an update of another user's task through. -/
theorem other_refused (groupId : user.groupId = 3) (other : task.userId ≠ user.id) :
    (updateTask env answers db user task payload).response.accepted = false := by
  have other : restricted user task = true := (restricted_iff groupId).mpr other
  unfold updateTask
  split
  case h_1 => rfl
  case h_2 =>
    simp only [other, if_true]
    obtain ⟨error, found⟩ := Option.isSome_iff_exists.mp
      (@restriction_isSome task (updated env payload (none, none)) rfl)
    rw [found]
    rfl

/-- What becomes of an update of the user's own task. -/
theorem own_update (groupId : user.groupId = 3) (own : task.userId = user.id) :
    ((updateTask env answers db user task payload).response.accepted ↔
        (∃ opened, assignWallet env db user task payload = .ok opened) ∧ Changes answers db task payload) ∧
      ((updateTask env answers db user task payload).response.accepted → ∃ handle,
        (updateTask env answers db user task payload).db = db.updateTask task.id (updated env payload handle)) := by
  have own : restricted user task = false := by
    rw [Bool.eq_false_iff, ne_eq, restricted_iff groupId]
    exact not_not.mpr own
  unfold updateTask
  rw [← changeHandle_ok]
  cases assigned : assignWallet env db user task payload with
  | error why => simp [Response.accepted]
  | ok opened =>
    simp only [own, Bool.false_eq_true, if_false]
    cases changed : (changeHandle answers db task payload).2 with
    | error why => simp [Response.accepted]
    | ok handle =>
      dsimp only
      exact ⟨iff_of_true rfl ⟨⟨opened, rfl⟩, handle, rfl⟩, fun _ => ⟨handle, rfl⟩⟩

theorem getWallet_id {walletId : ℤ} (found : db.getWallet walletId = some wallet) : wallet.id = walletId := by
  simpa using List.find?_some found

theorem getTask_id (found : db.getTask id = some task) : task.id = id := by
  simpa using List.find?_some found

/-- The wallet's part of the rights, for the user's own task. -/
theorem own_wallet_iff (groupId : user.groupId = 3) (stored : db.getTask task.id = some task) (own : task.userId = user.id) :
    ((updateTask env answers db user task payload).response.accepted →
      ∀ now, (updateTask env answers db user task payload).db.getTask task.id = some now → ∀ walletId,
        now.walletId = some walletId → task.walletId ≠ some walletId →
          ∃ wallet, db.getWallet walletId = some wallet ∧ wallet.userId = user.id) ↔
      ¬ TakesWallet env answers db user task payload := by
  obtain ⟨accepts, writes⟩ := @own_update env answers db user task payload groupId own
  constructor
  · rintro belongs ⟨-, bare, changes, walletId, wallet, given, found, others, opens⟩
    have accepted : (updateTask env answers db user task payload).response.accepted := by
      refine accepts.mpr ⟨(assignWallet_ok groupId).mpr fun walletId' given' => ?_, changes⟩
      obtain rfl : walletId = walletId' := Option.some.inj (given.symm.trans given')
      exact ⟨wallet, found, fun _ has => absurd (bare.symm.trans has) (by simp), opens⟩
    obtain ⟨handle, written⟩ := writes accepted
    obtain ⟨wallet', found', mine⟩ := belongs accepted _
      (by rw [written, getTask_updateTask, stored]; rfl) walletId given (by simp [bare])
    cases found.symm.trans found'
    exact others mine
  · intro keeps accepted now after walletId has new
    obtain ⟨handle, written⟩ := writes accepted
    rw [written, getTask_updateTask, stored] at after
    cases after
    obtain ⟨assigned, changes⟩ := accepts.mp accepted
    obtain ⟨wallet, found, allowed, opens⟩ := (assignWallet_ok groupId).mp assigned walletId has
    refine ⟨wallet, found, by_contra fun others => ?_⟩
    cases had : task.walletId with
    | none => exact keeps ⟨own, had, changes, walletId, wallet, has, found, others, opens⟩
    | some taskWalletId =>
      rcases allowed taskWalletId had with same | mine
      · exact new (by rw [had, ← same, getWallet_id found])
      · exact others mine

/-- **Restricted users stay within their rights** exactly if they do not give a wallet of somebody else's to a
task of their own that has none, and do not ask for less of another user's task. -/
theorem restricted_rights_iff (known : db.getUserById claimsId = some user) (groupId : user.groupId = 3)
    (stored : db.getTask id = some task) :
    Rights env db user task payload (updateTaskReq env answers db claimsId id payload) ↔
      ¬ TakesWallet env answers db user task payload ∧
      ¬ (task.userId ≠ user.id ∧ Configured env db task ∧ Lowers env task payload) := by
  have handled : updateTaskReq env answers db claimsId id payload = updateTask env answers db user task payload := by
    simp only [updateTaskReq, known, stored]
  have stored : db.getTask task.id = some task := (getTask_id stored).symm ▸ stored
  rw [handled]
  by_cases own : task.userId = user.id
  · rw [and_iff_left (by simp [own]), ← own_wallet_iff groupId stored own]
    exact ⟨Rights.wallet, fun wallet => ⟨wallet, fun _ other => absurd own other, fun other => absurd own other⟩⟩
  · have refused := @other_refused env answers db user task payload groupId own
    rw [and_iff_right (by simp [TakesWallet, own])]
    constructor
    · rintro rights ⟨-, configured, lowers⟩
      have accepted := (rights.lowers own configured lowers).1
      rw [refused] at accepted
      cases accepted
    · intro asks
      refine ⟨fun accepted => ?_, fun accepted => ?_, fun _ configured lowers => absurd ⟨own, configured, lowers⟩ asks⟩
      · rw [refused] at accepted
        cases accepted
      · rw [refused] at accepted
        cases accepted

section Examples

/-- Every key can be read, and a number is its own text. -/
def plain : Env where
  decrypt := some
  decode _ := some []
  keypair _ := some "address"
  pubkey := some
  f64ToBigInt x := x

/-- The service knows every handle, and does what it is asked. -/
def willing : Answers where
  addWatchedProfile _ handle := .ok (some ("id of " ++ handle, handle))
  deleteWatchedProfile _ _ := true

def guest : User := ⟨7, 3⟩

def ordinary (walletId : Option ℤ) : UpdateTask where
  walletId
  twitterId := some "id of elon"
  twitterHandle := some "elon"
  servers := none
  blockLeaders := none
  value := some 2
  tip := some 1
  slippage := 10
  tries := 3
  frontrunningProtection := false
  enableAlerts := true
  selectedPool := "ALL"
  twitterApi := "EXTREME"
  twitterStrategy := some "TWEET"
  twitterHandleChecker := none
  twitterTokenOverride := none
  words := none

def bare : Task := { ordinary none with userId := 7, id := 1 }

def theirs : Task := { ordinary (some 9) with userId := 8, id := 2 }

/-- The guest has wallet 5, and another user has wallet 9. -/
def shop : Db := ⟨[guest, ⟨8, 1⟩], [⟨5, 7, "pk", none⟩, ⟨9, 8, "pk", none⟩], [bare, theirs], 3⟩

/-- The fields of a task, with another wallet and value. -/
def asking (update : UpdateTask) (walletId : Option ℤ) (value : ℚ) : UpdateTaskPayload where
  walletId
  twitterHandle := update.twitterHandle
  servers := update.servers
  blockLeaders := update.blockLeaders
  value := some value
  tip := update.tip
  slippage := update.slippage
  tries := update.tries
  frontrunningProtection := update.frontrunningProtection
  enableAlerts := update.enableAlerts
  selectedPool := update.selectedPool
  twitterApi := update.twitterApi
  twitterStrategy := update.twitterStrategy
  twitterHandleChecker := update.twitterHandleChecker
  twitterTokenOverride := update.twitterTokenOverride
  words := update.words

/-- The guest's task gets the guest's wallet. -/
theorem restricted_rights_own : Rights plain shop guest bare (asking bare.toUpdateTask (some 5) 2)
    (updateTaskReq plain willing shop 7 1 (asking bare.toUpdateTask (some 5) 2)) := by
  refine (restricted_rights_iff (by decide +kernel) rfl (by decide +kernel)).mpr ⟨?_, fun other => other.1 rfl⟩
  rintro ⟨-, -, -, walletId, wallet, given, found, others, -⟩
  cases given
  have guests : shop.getWallet 5 = some ⟨5, 7, "pk", none⟩ := by decide +kernel
  cases found.symm.trans guests
  exact others rfl

/-- The guest's task gets the other user's wallet, and a lower value for the other user's task is refused. -/
theorem restricted_rights_fails :
    (¬ Rights plain shop guest bare (asking bare.toUpdateTask (some 9) 2)
      (updateTaskReq plain willing shop 7 1 (asking bare.toUpdateTask (some 9) 2))) ∧
    ¬ Rights plain shop guest theirs (asking theirs.toUpdateTask (some 9) 1)
      (updateTaskReq plain willing shop 7 2 (asking theirs.toUpdateTask (some 9) 1)) := by
  have foreign : shop.getWallet 9 = some ⟨9, 8, "pk", none⟩ := by decide +kernel
  constructor
  · intro rights
    have accepted : (updateTaskReq plain willing shop 7 1 (asking bare.toUpdateTask (some 9) 2)).response.accepted := by
      decide +kernel
    have given : (updateTaskReq plain willing shop 7 1 (asking bare.toUpdateTask (some 9) 2)).db.getTask 1
        = some { bare with walletId := some 9 } := by decide +kernel
    obtain ⟨wallet, found, mine⟩ := rights.wallet accepted _ given 9 rfl (by decide)
    cases found.symm.trans foreign
    exact absurd mine (by decide)
  · intro rights
    have refused : (updateTaskReq plain willing shop 7 2 (asking theirs.toUpdateTask (some 9) 1)).response
        = .refused (.badRequest "Cannot change tweet handle") := by decide +kernel
    have accepted := (rights.lowers (by decide) ⟨⟨9, _, rfl, foreign, "pk", [], "address", rfl, rfl, rfl⟩, rfl, rfl, rfl,
      rfl, by decide, rfl, by simp [theirs, ordinary]⟩
      ⟨⟨1, 2, rfl, rfl, by decide +kernel⟩, ⟨1, 1, rfl, rfl, by decide +kernel⟩, .inl (by decide +kernel), rfl⟩).1
    rw [refused] at accepted
    cases accepted

end Examples

end RndRust.Sniper.Webapp
