import Mathlib.Data.Finset.Filter
import Mathlib.Data.Finset.Insert
import RndRust.Lib.Runs
import RndRust.Lib.Updates
import RndRust.Sniper.Webapp.Rights

/-! Which profiles the two accounts watch, and which handles the tasks have, over any requests of users who are
not restricted. -/
namespace RndRust.Sniper.Webapp
open Lib

/-- The service knows a profile by an id of its own. -/
structure Service where
  idOf : String → String
  injective : Function.Injective idOf

namespace Service

variable (service : Service)

/-- It does what it is asked. -/
def answers : Answers where
  addWatchedProfile _ handle := .ok (some (service.idOf handle, handle))
  deleteWatchedProfile _ _ := true

/-- What the accounts watch after a call. -/
def apply (watched : Account → Finset String) : Call → Account → Finset String
  | .addWatchedProfile account handle => Function.update watched account (insert handle (watched account))
  | .deleteWatchedProfile account id =>
    Function.update watched account ((watched account).filter fun handle => service.idOf handle ≠ id)

end Service

/-- The database and what the accounts watch. -/
structure Watching where
  db : Db
  watched : Account → Finset String

inductive Request where
  | addTask (claimsId : ℤ)
  | updateTask (claimsId id : ℤ) (payload : UpdateTaskPayload)
  | deleteTask (id : ℤ)

namespace Watching

variable (env : Env) (service : Service)

def handle (s : Watching) : Request → Outcome
  | .addTask claimsId => addTaskReq s.db claimsId
  | .updateTask claimsId id payload => updateTaskReq env service.answers s.db claimsId id payload
  | .deleteTask id => deleteTaskReq s.db id

/-- The user is not of group 3. -/
def unrestricted (s : Watching) : Request → Bool
  | .updateTask claimsId _ _ => (s.db.getUserById claimsId).all fun user => user.groupId ≠ 3
  | _ => true

def after (s : Watching) (request : Request) : Watching :=
  let outcome := s.handle env service request
  ⟨outcome.db, outcome.calls.foldl service.apply s.watched⟩

def step (s : Watching) (request : Request) : Option Watching :=
  if s.unrestricted request then some (s.after env service request) else none

end Watching

/-- The webapp without a task, for any users and wallets. -/
def watching (env : Env) (service : Service) (users : List User) (wallets : List Wallet) : Machine Watching Request where
  initial := ⟨⟨users, wallets, [], 1⟩, fun _ => ∅⟩
  step := Watching.step env service

/-- The account's `twitter_api`. -/
def apiOf : Account → String
  | .axsysApiKey => "EXTREME"
  | .axsysApiKeyNormal => "NORMAL"

/-- One of the two that there are. -/
def known (twitterApi : String) : Bool := twitterApi = "EXTREME" || twitterApi = "NORMAL"

/-- How many tasks have the handle and this `twitter_api`. -/
def sharing (db : Db) (twitterHandle twitterApi : String) : ℕ := (withApi db twitterHandle twitterApi).length

namespace Watching

/-- The accounts watch exactly the handles of their tasks. -/
def Follows (s : Watching) : Prop := ∀ account handle, handle ∈ s.watched account ↔
  ∃ task ∈ s.db.tasks, task.twitterHandle = some handle ∧ task.twitterApi = apiOf account

/-- The condition on an update of a task that is there, once its wallet is found. -/
def keepsUpdate (db : Db) (task : Task) (payload : UpdateTaskPayload) : Bool :=
  match task.twitterHandle, payload.twitterHandle with
  | none, none => true
  | none, some new => known payload.twitterApi || 0 < sharing db (trim new) "NORMAL"
  | some old, none => known task.twitterApi || sharing db old task.twitterApi ≠ 1 || sharing db old "NORMAL" = 0
  | some old, some new =>
    if task.twitterApi = payload.twitterApi then old = new || !known task.twitterApi || 1 < sharing db old task.twitterApi
    else
      let left := if payload.twitterApi = "EXTREME" then "NORMAL" else "EXTREME"
      (task.twitterApi = left || 1 < sharing db old left) &&
        (known payload.twitterApi ||
          (task.twitterApi ≠ "NORMAL" || 1 < sharing db old "NORMAL") &&
            (sharing db old payload.twitterApi ≠ 0 || 0 < sharing db (trim new) "NORMAL"))

/-- The condition on a deletion: the task's handle is not the last one of the other account. -/
def keepsDelete (db : Db) (task : Task) : Bool :=
  task.twitterHandle.all fun old =>
    (task.twitterApi = "EXTREME" || sharing db old "EXTREME" ≠ 1) && (task.twitterApi = "NORMAL" || sharing db old "NORMAL" ≠ 1)

/-- The condition on a request. -/
def keeps (env : Env) (s : Watching) : Request → Bool
  | .addTask _ => true
  | .updateTask claimsId id payload =>
    match s.db.getUserById claimsId, s.db.getTask id with
    | some user, some task =>
      match assignWallet env s.db user task payload with
      | .error _ => true
      | .ok _ => keepsUpdate s.db task payload
    | _, _ => true
  | .deleteTask id => (s.db.getTask id).all (keepsDelete s.db)

end Watching

section Sharing

variable {db : Db} {task : Task} {update : UpdateTask} {id : ℤ} {handle twitterApi : String}

/-- What a task asks the service to watch. -/
def Task.key (task : Task) : Option (String × String) := task.twitterHandle.map fun handle => (handle, task.twitterApi)

theorem Task.key_eq : task.key = some (handle, twitterApi) ↔ task.twitterHandle = some handle ∧ task.twitterApi = twitterApi := by
  cases has : task.twitterHandle with
  | none => simp [Task.key, has]
  | some own => simp [Task.key, has]

theorem sharing_eq : sharing db handle twitterApi = uses Task.key db.tasks (handle, twitterApi) := by
  unfold sharing withApi Db.getTasksWithTweetHandle uses
  rw [List.filter_filter, ← List.countP_eq_length_filter]
  refine List.countP_congr fun task _ => ?_
  simp [Task.key_eq, and_comm]

theorem sharing_pos : 0 < sharing db handle twitterApi ↔
    ∃ task ∈ db.tasks, task.twitterHandle = some handle ∧ task.twitterApi = twitterApi := by
  rw [sharing_eq, uses_pos]
  exact exists_congr fun task => and_congr_right fun _ => Task.key_eq

/-- The task of an id, and its position. -/
theorem Db.getTask_cases (found : db.getTask id = some task) :
    ∃ i, db.tasks.findIdx? (·.id = task.id) = some i ∧ db.tasks[i]? = some task ∧ task.id = id := by
  have same : task.id = id := by simpa using List.find?_some found
  rw [getTask, List.find?_eq_bind_findIdx?_getElem?, Option.bind_eq_some_iff] at found
  obtain ⟨i, at_, known⟩ := found
  exact ⟨i, same ▸ at_, known, same⟩

theorem Db.mem_of_getTask (found : db.getTask id = some task) : task ∈ db.tasks := List.mem_of_find?_eq_some found

theorem sharing_addTask {new : NewTask} (none : new.twitterHandle = none) :
    sharing (db.addTask new).1 handle twitterApi = sharing db handle twitterApi := by
  rw [sharing_eq, sharing_eq]
  simp [Db.addTask, uses_append_one, Task.key_eq, none]

theorem sharing_updateTask (found : db.getTask id = some task) :
    sharing (db.updateTask task.id update) handle twitterApi + (if task.key = some (handle, twitterApi) then 1 else 0)
      = sharing db handle twitterApi +
        if update.twitterHandle = some handle ∧ update.twitterApi = twitterApi then 1 else 0 := by
  obtain ⟨i, at_, known, -⟩ := Db.getTask_cases found
  have written : (db.updateTask task.id update).tasks = db.tasks.set i { task with toUpdateTask := update } := by
    simp only [Db.updateTask, at_]
    rw [List.modify_eq_set_getElem?, known]
    rfl
  rw [sharing_eq, sharing_eq, written, uses_set known]
  simp only [Task.key_eq]

theorem sharing_deleteTask (found : db.getTask id = some task) : ∃ after, db.deleteTask id = some after ∧
    ∀ handle twitterApi, sharing after handle twitterApi + (if task.key = some (handle, twitterApi) then 1 else 0)
      = sharing db handle twitterApi := by
  obtain ⟨i, at_, known, rfl⟩ := Db.getTask_cases found
  refine ⟨_, by rw [Db.deleteTask, at_]; rfl, fun handle twitterApi => ?_⟩
  rw [sharing_eq, sharing_eq]
  exact uses_eraseIdx known

end Sharing

section Calls

variable {service : Service} {watched : Account → Finset String} {account at_ : Account} {handle other : String} {db : Db}
  {twitterApi : String}

theorem mem_apply_addWatchedProfile : handle ∈ service.apply watched (.addWatchedProfile at_ other) account ↔
    account = at_ ∧ handle = other ∨ handle ∈ watched account := by
  by_cases same : account = at_
  · subst same
    simp [Service.apply]
  · simp [Service.apply, same]

theorem mem_apply_deleteWatchedProfile :
    handle ∈ service.apply watched (.deleteWatchedProfile at_ (service.idOf other)) account ↔
      handle ∈ watched account ∧ ¬(account = at_ ∧ handle = other) := by
  by_cases same : account = at_
  · subst same
    simp [Service.apply, service.injective.eq_iff]
  · simp [Service.apply, same]

theorem apiOf_accountOf (is : known twitterApi) : apiOf (accountOf twitterApi) = twitterApi := by
  rcases Bool.or_eq_true_iff.mp is with extreme | normal
  · rw [of_decide_eq_true extreme]
    rfl
  · rw [of_decide_eq_true normal]
    rfl

theorem known_apiOf : known (apiOf account) := by cases account <;> rfl

theorem accountOf_apiOf : accountOf (apiOf account) = account := by cases account <;> rfl

/-- A `twitter_api` that is not one of the two goes to the account of the second. -/
theorem accountOf_of_not_known (not : ¬known twitterApi) : accountOf twitterApi = .axsysApiKeyNormal :=
  if_neg fun extreme => not (by rw [extreme]; rfl)

end Calls

/-- The accounts watch exactly what is counted. -/
def Fits (watched : Account → Finset String) (count : String → String → ℕ) : Prop :=
  ∀ account handle, handle ∈ watched account ↔ 0 < count handle (apiOf account)

section Branches

variable {service : Service} {watched : Account → Finset String} {count after : String → String → ℕ} {old new a b : String}

/-- Where a task's handle goes, and nothing is called. -/
theorem fits_drop (fits : Fits watched count) (has : 0 < count old a)
    (moved : ∀ handle api, after handle api + (if old = handle ∧ a = api then 1 else 0) = count handle api) :
    Fits watched after ↔ ¬known a ∨ 1 < count old a := by
  have same := fun account handle => moved handle (apiOf account)
  constructor
  · refine fun kept => or_iff_not_imp_left.mpr fun is => ?_
    have is : known a := by simpa using is
    have := same (accountOf a) old
    rw [apiOf_accountOf is, if_pos ⟨rfl, rfl⟩] at this
    have still := (kept (accountOf a) old).mp ((fits _ _).mpr (by rwa [apiOf_accountOf is]))
    rw [apiOf_accountOf is] at still
    omega
  · intro shared account handle
    have := same account handle
    rw [fits]
    split at this
    case isTrue goes =>
      obtain ⟨rfl, api⟩ := goes
      have more : 1 < count old a := shared.resolve_left (not_not.mpr (api ▸ known_apiOf))
      rw [api] at more
      omega
    case isFalse => omega

/-- Where a task's handle goes, and the account is told to end it. -/
theorem fits_delete (fits : Fits watched count) (last : count old a = 1)
    (moved : ∀ handle api, after handle api + (if old = handle ∧ a = api then 1 else 0) = count handle api) :
    Fits (service.apply watched (.deleteWatchedProfile (accountOf a) (service.idOf old))) after ↔
      known a ∨ count old "NORMAL" = 0 := by
  have same := fun account handle => moved handle (apiOf account)
  unfold Fits
  simp only [mem_apply_deleteWatchedProfile, fits _ _]
  by_cases is : known a
  · refine iff_of_true (fun account handle => ?_) (.inl is)
    have := same account handle
    by_cases goes : account = accountOf a ∧ handle = old
    · obtain ⟨rfl, rfl⟩ := goes
      rw [apiOf_accountOf is, if_pos ⟨rfl, rfl⟩] at this
      rw [apiOf_accountOf is]
      refine iff_of_false (fun stays => stays.2 ⟨rfl, rfl⟩) ?_
      omega
    · rw [if_neg fun ⟨same, api⟩ => goes ⟨by rw [api, accountOf_apiOf], same.symm⟩] at this
      simp only [goes, not_false_eq_true, and_true]
      omega
  · have unchanged : ∀ account handle, after handle (apiOf account) = count handle (apiOf account) := by
      intro account handle
      have := same account handle
      rwa [if_neg fun ⟨_, api⟩ => is (api ▸ known_apiOf), Nat.add_zero] at this
    rw [or_iff_right is]
    simp only [unchanged, accountOf_of_not_known is]
    constructor
    · intro all
      by_contra used
      exact ((all .axsysApiKeyNormal old).mpr (Nat.pos_of_ne_zero used)).2 ⟨rfl, rfl⟩
    · intro unused account handle
      refine and_iff_left_of_imp fun used gone => ?_
      rw [gone.1, gone.2] at used
      exact used.ne' unused

/-- A handle more, and its account is told to watch it. -/
theorem fits_add (fits : Fits watched count)
    (moved : ∀ handle api, after handle api = count handle api + if new = handle ∧ b = api then 1 else 0) :
    Fits (service.apply watched (.addWatchedProfile (accountOf b) new)) after ↔ known b ∨ 0 < count new "NORMAL" := by
  unfold Fits
  simp only [mem_apply_addWatchedProfile, fits _ _, moved]
  by_cases is : known b
  · refine iff_of_true (fun account handle => ?_) (.inl is)
    by_cases comes : new = handle ∧ b = apiOf account
    · obtain ⟨rfl, rfl⟩ := comes
      simp [accountOf_apiOf]
    · rw [if_neg comes, Nat.add_zero]
      refine or_iff_right fun there => comes ⟨there.2.symm, ?_⟩
      rw [there.1, apiOf_accountOf is]
  · have foreign : ∀ account handle, ¬(new = handle ∧ b = apiOf account) := fun _ _ there => is (there.2 ▸ known_apiOf)
    rw [or_iff_right is]
    simp only [foreign, if_false, Nat.add_zero, accountOf_of_not_known is]
    constructor
    · exact fun all => (all .axsysApiKeyNormal new).mp (.inl ⟨rfl, rfl⟩)
    · intro used account handle
      refine or_iff_right_of_imp fun there => ?_
      rw [there.1, there.2]
      exact used

end Branches

/-- The account that is not the task's one. -/
def Account.other : Account → Account
  | .axsysApiKey => .axsysApiKeyNormal
  | .axsysApiKeyNormal => .axsysApiKey

theorem Account.forall_iff {p : Account → Prop} (account : Account) : (∀ account, p account) ↔ p account.other ∧ p account := by
  refine ⟨fun all => ⟨all _, all _⟩, fun ⟨there, here⟩ at_ => ?_⟩
  cases account <;> cases at_ <;> assumption

section Switch

variable {count after : String → ℕ} {old new : String} {leaves fresh kept : Prop} [Decidable leaves]

/-- The account that a task leaves. -/
theorem fits_left (moved : ∀ handle, after handle + (if old = handle ∧ leaves then 1 else 0) = count handle) :
    (∀ handle, 0 < count handle ∧ ¬(handle = old ∧ count old = 1) ↔ 0 < after handle) ↔ leaves ∨ count old ≠ 1 := by
  constructor
  · refine fun fits => or_iff_not_imp_left.mpr fun stays last => ?_
    have same := moved old
    rw [if_neg fun both => stays both.2] at same
    exact ((fits old).mpr (by omega)).2 ⟨rfl, last⟩
  · intro either handle
    have same := moved handle
    by_cases here : handle = old
    · subst here
      simp only [true_and] at same ⊢
      split at same
      case isTrue => omega
      case isFalse stays =>
        have := either.resolve_left stays
        omega
    · rw [if_neg fun both => here both.1.symm] at same
      simp only [here, false_and, not_false_eq_true, and_true]
      omega

/-- The second account, where the task comes to none of the two. -/
theorem fits_foreign (used : leaves → count old ≠ 0)
    (moved : ∀ handle, after handle + (if old = handle ∧ leaves then 1 else 0) = count handle) :
    (∀ handle, handle = new ∧ fresh ∨ 0 < count handle ↔ 0 < after handle) ↔
      (¬leaves ∨ 1 < count old) ∧ (¬fresh ∨ 0 < count new) := by
  constructor
  · intro fits
    constructor
    · refine or_iff_not_imp_left.mpr fun is => ?_
      have is := not_not.mp is
      have same := moved old
      have still := (fits old).mp (.inr (Nat.pos_of_ne_zero (used is)))
      rw [if_pos ⟨rfl, is⟩] at same
      omega
    · refine or_iff_not_imp_left.mpr fun first => ?_
      have same := moved new
      have there := (fits new).mp (.inl ⟨rfl, not_not.mp first⟩)
      omega
  · rintro ⟨shared, watched⟩ handle
    have same := moved handle
    have before : handle = new ∧ fresh → 0 < count handle := by
      rintro ⟨rfl, first⟩
      exact watched.resolve_left (not_not.mpr first)
    rw [or_iff_right_of_imp before]
    split at same
    case isTrue goes =>
      obtain ⟨rfl, is⟩ := goes
      have := shared.resolve_left (not_not.mpr is)
      omega
    case isFalse => omega

variable [Decidable fresh] [Decidable kept]

/-- The account that a task comes to, if it is one of the two. -/
theorem fits_joined (unused : fresh ↔ count old = 0)
    (moved : ∀ handle, after handle = count handle + if (if fresh then new = handle else kept ∧ old = handle) then 1 else 0) :
    ∀ handle, handle = new ∧ fresh ∨ 0 < count handle ↔ 0 < after handle := by
  intro handle
  rw [moved]
  by_cases first : fresh
  · simp only [first, if_true, and_true]
    by_cases here : new = handle
    · simp [here]
    · simp [here, Ne.symm here]
  · simp only [first, if_false, and_false, false_or]
    have : count old ≠ 0 := fun zero => first (unused.mpr zero)
    by_cases here : kept ∧ old = handle
    · obtain ⟨-, rfl⟩ := here
      omega
    · rw [if_neg here]
      rfl

end Switch

section Changes

variable {service : Service} {watched : Account → Finset String} {count after : String → String → ℕ} {old new a b : String}
  (kept : Prop) [Decidable kept]

theorem mem_foldl_switch {gone fresh : Prop} [Decidable gone] [Decidable fresh] {left joined account : Account}
    {handle : String} :
    handle ∈ ((if gone then [Call.deleteWatchedProfile left (service.idOf old)] else []) ++
        if fresh then [Call.addWatchedProfile joined new] else []).foldl service.apply watched account ↔
      account = joined ∧ handle = new ∧ fresh ∨ handle ∈ watched account ∧ ¬(account = left ∧ handle = old ∧ gone) := by
  by_cases goes : gone <;> by_cases comes : fresh <;>
    simp [goes, comes, mem_apply_addWatchedProfile, mem_apply_deleteWatchedProfile]

/-- A task's handle goes from one API to another. -/
theorem fits_switch (fits : Fits watched count) (differ : a ≠ b) (has : 0 < count old a)
    (used : count old (apiOf (accountOf b).other) ≠ 0)
    (moved : ∀ handle api, after handle api + (if old = handle ∧ a = api then 1 else 0) = count handle api +
      if (if count old b = 0 then new = handle else kept ∧ old = handle) ∧ b = api then 1 else 0) :
    Fits (((if count old (apiOf (accountOf b).other) = 1 then
        [Call.deleteWatchedProfile (accountOf b).other (service.idOf old)] else []) ++
        if count old b = 0 then [Call.addWatchedProfile (accountOf b) new] else []).foldl service.apply watched) after ↔
      (a = apiOf (accountOf b).other ∨ 1 < count old (apiOf (accountOf b).other)) ∧
        (known b ∨ (a ≠ "NORMAL" ∨ 1 < count old "NORMAL") ∧ (count old b ≠ 0 ∨ 0 < count new "NORMAL")) := by
  have apart : (accountOf b).other ≠ accountOf b := by cases accountOf b <;> decide
  unfold Fits
  simp only [mem_foldl_switch, fits _ _]
  rw [Account.forall_iff (accountOf b)]
  refine and_congr ?_ ?_
  · have elsewhere : b ≠ apiOf (accountOf b).other := fun same => apart (by conv_rhs => rw [same, accountOf_apiOf])
    have moved := fun handle => moved handle (apiOf (accountOf b).other)
    simp only [elsewhere, and_false, if_false, Nat.add_zero] at moved
    simp only [apart, false_and, false_or, true_and]
    refine (fits_left moved).trans (or_congr_right ?_)
    omega
  · have moved := fun handle => moved handle (apiOf (accountOf b))
    simp only [apart.symm, true_and, false_and, not_false_eq_true, and_true]
    by_cases is : known b
    · refine iff_of_true ?_ (.inl is)
      rw [apiOf_accountOf is] at moved ⊢
      simp only [differ, and_false, if_false, Nat.add_zero, and_true] at moved
      exact fits_joined Iff.rfl moved
    · have foreign : b ≠ apiOf .axsysApiKeyNormal := fun same => is (same ▸ known_apiOf)
      rw [or_iff_right is]
      rw [accountOf_of_not_known is] at moved ⊢
      simp only [foreign, and_false, if_false, Nat.add_zero] at moved
      exact fits_foreign (fun same => (same ▸ has).ne') moved

end Changes

section Update

variable {env : Env} {service : Service} {watched : Account → Finset String} {db : Db} {task : Task} {payload : UpdateTaskPayload}
  {id : ℤ} {handle twitterApi old new : String} {user : User}

/-- The task's id is the one that the service knows its handle by. -/
def Task.Named (service : Service) (task : Task) : Prop := task.twitterId = task.twitterHandle.map service.idOf

theorem Task.Named.twitterId_eq (named : task.Named service) (has : task.twitterHandle = some old) :
    task.twitterId = some (service.idOf old) := by
  rw [named, has]
  rfl

/-- What a task that is found counts for. -/
theorem sharing_of_getTask (found : db.getTask id = some task) (has : task.twitterHandle = some old) :
    0 < sharing db old task.twitterApi := sharing_pos.mpr ⟨task, Db.mem_of_getTask found, has, rfl⟩

/-- A change of the handle that goes through, and leaves the accounts with the tasks' handles. -/
def Changed (env : Env) (service : Service) (watched : Account → Finset String) (db : Db) (task : Task)
    (payload : UpdateTaskPayload) : Prop :=
  ∃ row, (changeHandle service.answers db task payload).2 = .ok row ∧
    Fits ((changeHandle service.answers db task payload).1.foldl service.apply watched)
      (sharing (db.updateTask task.id (updated env payload row)))

theorem changed_of_eq (calls : List Call) (row : Option String × Option String)
    (eq : changeHandle service.answers db task payload = (calls, .ok row)) :
    Changed env service watched db task payload ↔
      Fits (calls.foldl service.apply watched) (sharing (db.updateTask task.id (updated env payload row))) := by
  simp [Changed, eq]

/-- The counts after an update, for the handle that the task had and the one that it has. -/
theorem sharing_updated (found : db.getTask id = some task) (row : Option String × Option String) (handle twitterApi : String) :
    sharing (db.updateTask task.id (updated env payload row)) handle twitterApi
        + (if task.twitterHandle = some handle ∧ task.twitterApi = twitterApi then 1 else 0)
      = sharing db handle twitterApi + if row.2 = some handle ∧ payload.twitterApi = twitterApi then 1 else 0 := by
  have moved := @sharing_updateTask db task (updated env payload row) id handle twitterApi found
  simp only [Task.key_eq] at moved
  exact moved

theorem changed_none_none (fits : Fits watched (sharing db)) (found : db.getTask id = some task)
    (before : task.twitterHandle = none) (after : payload.twitterHandle = none) :
    Changed env service watched db task payload := by
  rw [changed_of_eq [] (none, none) (by simp [changeHandle, before, after])]
  intro account handle
  have moved := @sharing_updated env db task payload id found (none, none) handle (apiOf account)
  simp only [before, reduceCtorEq, false_and, if_false, Nat.add_zero] at moved
  rw [moved]
  exact fits account handle

theorem changed_none_some (fits : Fits watched (sharing db)) (found : db.getTask id = some task)
    (before : task.twitterHandle = none) (after : payload.twitterHandle = some new) :
    Changed env service watched db task payload ↔ known payload.twitterApi ∨ 0 < sharing db (trim new) "NORMAL" := by
  rw [changed_of_eq [.addWatchedProfile (accountOf payload.twitterApi) (trim new)]
    (some (service.idOf (trim new)), some (trim new)) (by simp [changeHandle, before, after, Service.answers])]
  rw [List.foldl_cons, List.foldl_nil]
  refine fits_add fits fun handle api => ?_
  have moved := @sharing_updated env db task payload id found (some (service.idOf (trim new)), some (trim new)) handle api
  simp only [before, reduceCtorEq, false_and, if_false, Nat.add_zero, Option.some.injEq] at moved
  exact moved

theorem changed_some_none (fits : Fits watched (sharing db)) (named : task.Named service) (found : db.getTask id = some task)
    (before : task.twitterHandle = some old) (after : payload.twitterHandle = none) :
    Changed env service watched db task payload ↔
      known task.twitterApi ∨ sharing db old task.twitterApi ≠ 1 ∨ sharing db old "NORMAL" = 0 := by
  have moved := fun handle api => @sharing_updated env db task payload id found (none, none) handle api
  simp only [before, Option.some.injEq, reduceCtorEq, false_and, if_false, Nat.add_zero] at moved
  have has := sharing_of_getTask found before
  have id_ := named.twitterId_eq before
  by_cases last : sharing db old task.twitterApi = 1
  · rw [changed_of_eq [.deleteWatchedProfile (accountOf task.twitterApi) (service.idOf old)] (none, none)
      (by simp only [changeHandle, before, after, id_]; exact if_pos last)]
    refine (fits_delete fits last moved).trans ?_
    simp [last]
  · rw [changed_of_eq [] (none, none) (by simp only [changeHandle, before, after]; exact if_neg last)]
    refine iff_of_true ((fits_drop fits has moved).mpr (.inr ?_)) (.inr (.inl last))
    omega

theorem changed_same (fits : Fits watched (sharing db)) (found : db.getTask id = some task)
    (before : task.twitterHandle = some old) (after : payload.twitterHandle = some new)
    (same : task.twitterApi = payload.twitterApi) : Changed env service watched db task payload ↔
      old = new ∨ ¬known task.twitterApi ∨ 1 < sharing db old task.twitterApi := by
  have has := sharing_of_getTask found before
  have moved := @sharing_updated env db task payload id found
  by_cases stays : old = new
  · rw [changed_of_eq [] (task.twitterId, some old) (by simp [changeHandle, before, after, same, stays])]
    refine iff_of_true (fun account handle => ?_) (.inl stays)
    have unchanged := moved (task.twitterId, some old) handle (apiOf account)
    rw [before, same, Nat.add_right_cancel_iff] at unchanged
    rw [unchanged]
    exact fits account handle
  · rw [changed_of_eq [] (none, none) (by simp [changeHandle, before, after, same, stays]), or_iff_right stays]
    refine fits_drop fits has fun handle api => ?_
    have unchanged := moved (none, none) handle api
    simpa only [before, Option.some.injEq, reduceCtorEq, false_and, if_false, Nat.add_zero] using unchanged

/-- The account that an API's other one goes by, as the condition has it. -/
theorem apiOf_other_accountOf : apiOf (accountOf twitterApi).other = if twitterApi = "EXTREME" then "NORMAL" else "EXTREME" := by
  unfold accountOf
  split <;> rfl

theorem length_withApi : (withApi db handle twitterApi).length = sharing db handle twitterApi := rfl

theorem deletions_eq (has : task.twitterId = some (service.idOf old)) : deletions db task payload old =
    if sharing db old (apiOf (accountOf payload.twitterApi).other) = 0 then none
    else some (if sharing db old (apiOf (accountOf payload.twitterApi).other) = 1 then
      [.deleteWatchedProfile (accountOf payload.twitterApi).other (service.idOf old)] else []) := by
  have last : ∀ count : ℕ, (if count = 0 then none else some (if count - 1 = 0 then
      [Call.deleteWatchedProfile (accountOf payload.twitterApi).other (service.idOf old)] else [])) =
      if count = 0 then none else some (if count = 1 then
        [Call.deleteWatchedProfile (accountOf payload.twitterApi).other (service.idOf old)] else [])
    | 0 => rfl
    | 1 => rfl
    | _ + 2 => rfl
  rw [← last]
  by_cases extreme : payload.twitterApi = "EXTREME"
  · simp only [deletions, has, extreme, if_true, length_withApi, accountOf, Account.other, apiOf]
    rfl
  · simp only [deletions, has, extreme, if_false, length_withApi, accountOf, Account.other, apiOf]
    rfl

theorem changed_switch (fits : Fits watched (sharing db)) (named : task.Named service) (found : db.getTask id = some task)
    (before : task.twitterHandle = some old) (after : payload.twitterHandle = some new)
    (differ : task.twitterApi ≠ payload.twitterApi) : Changed env service watched db task payload ↔
      (task.twitterApi = apiOf (accountOf payload.twitterApi).other ∨
          1 < sharing db old (apiOf (accountOf payload.twitterApi).other)) ∧
        (known payload.twitterApi ∨ (task.twitterApi ≠ "NORMAL" ∨ 1 < sharing db old "NORMAL") ∧
          (sharing db old payload.twitterApi ≠ 0 ∨ 0 < sharing db (trim new) "NORMAL")) := by
  have has := sharing_of_getTask found before
  have id_ := named.twitterId_eq before
  have deletes := @deletions_eq service db task payload old id_
  by_cases unused : sharing db old (apiOf (accountOf payload.twitterApi).other) = 0
  · rw [if_pos unused] at deletes
    refine iff_of_false ?_ ?_
    · simp [Changed, changeHandle, before, after, differ, deletes]
    · rintro ⟨is | more, -⟩
      · rw [is] at has
        omega
      · omega
  · rw [if_neg unused] at deletes
    let row : Option String × Option String :=
      if sharing db old payload.twitterApi = 0 then (some (service.idOf (trim new)), some (trim new))
      else if old = new then (task.twitterId, some old) else (none, none)
    have changes : changeHandle service.answers db task payload =
        ((if sharing db old (apiOf (accountOf payload.twitterApi).other) = 1 then
            [.deleteWatchedProfile (accountOf payload.twitterApi).other (service.idOf old)] else []) ++
          if sharing db old payload.twitterApi = 0 then [.addWatchedProfile (accountOf payload.twitterApi) (trim new)] else [],
          .ok row) := by
      by_cases first : sharing db old payload.twitterApi = 0
      · simp only [changeHandle, before, after, differ, if_false, deletes, length_withApi, row, Service.answers, first, if_true]
      · simp only [changeHandle, before, after, differ, if_false, deletes, length_withApi, row, first, List.append_nil]
    rw [changed_of_eq _ _ changes]
    refine fits_switch (old = new) fits differ has unused fun handle api => ?_
    have moved := @sharing_updated env db task payload id found row handle api
    simp only [before, Option.some.injEq] at moved
    rw [moved]
    congr 2
    simp only [row]
    split
    · simp
    · split
      · simp [*]
      · simp [*]

theorem changed_iff (fits : Fits watched (sharing db)) (named : task.Named service) (found : db.getTask id = some task) :
    Changed env service watched db task payload ↔ Watching.keepsUpdate db task payload := by
  unfold Watching.keepsUpdate
  cases before : task.twitterHandle with
  | none =>
    cases after : payload.twitterHandle with
    | none => exact iff_of_true (changed_none_none fits found before after) rfl
    | some new => simpa using changed_none_some fits found before after
  | some old =>
    cases after : payload.twitterHandle with
    | none => simpa [or_assoc] using changed_some_none fits named found before after
    | some new =>
      dsimp only
      split
      case isTrue same => simpa [or_assoc] using changed_same fits found before after same
      case isFalse differ =>
        rw [← apiOf_other_accountOf]
        simpa using changed_switch fits named found before after differ

/-- With a service that does what it is asked, a change of the handle fails where a count falls below zero. -/
theorem changeHandle_error {why : Refusal} (named : task.Named service)
    (error : (changeHandle service.answers db task payload).2 = .error why) : why = .panicked := by
  unfold changeHandle at error
  cases before : task.twitterHandle with
  | none => cases after : payload.twitterHandle <;> simp [before, after, Service.answers] at error
  | some old =>
    have id_ := named.twitterId_eq before
    cases after : payload.twitterHandle with
    | none =>
      simp only [before, after, id_, Service.answers] at error
      split at error <;> simp at error
    | some new =>
      simp only [before, after, Service.answers] at error
      split at error
      · simp at error
      · split at error
        · exact (Except.error.inj error).symm
        · split at error <;> simp at error

theorem changeHandle_named {row : Option String × Option String} (named : task.Named service)
    (ok : (changeHandle service.answers db task payload).2 = .ok row) : row.1 = row.2.map service.idOf := by
  unfold changeHandle at ok
  cases before : task.twitterHandle with
  | none =>
    cases after : payload.twitterHandle with
    | none =>
      simp only [before, after, Except.ok.injEq] at ok
      rw [← ok]
      rfl
    | some new =>
      simp only [before, after, Service.answers, Except.ok.injEq] at ok
      rw [← ok]
      rfl
  | some old =>
    have id_ := named.twitterId_eq before
    cases after : payload.twitterHandle with
    | none =>
      simp only [before, after, id_, Service.answers] at ok
      split at ok <;> simp at ok <;> simp [← ok]
    | some new =>
      have kept : (if old = new then (task.twitterId, some old) else (none, none)).1
          = (if old = new then (task.twitterId, some old) else (none, none)).2.map service.idOf := by
        split
        · exact id_
        · rfl
      simp only [before, after, Service.answers] at ok
      split at ok
      · rw [← Except.ok.inj ok]
        exact kept
      · split at ok
        · cases ok
        · split at ok
          · rw [← Except.ok.inj ok]
            rfl
          · rw [← Except.ok.inj ok]
            exact kept

end Update

namespace Watching

variable {env : Env} {service : Service} {users : List User} {wallets : List Wallet} {s t : Watching} {request : Request}
  {id claimsId : ℤ} {payload : UpdateTaskPayload} {task : Task}

theorem follows_iff : s.Follows ↔ Fits s.watched (sharing s.db) :=
  forall_congr' fun account => forall_congr' fun handle => by rw [sharing_pos]

/-- What holds between two requests. -/
structure Valid (service : Service) (s : Watching) : Prop where
  follows : Fits s.watched (sharing s.db)
  named : ∀ task ∈ s.db.tasks, task.Named service

/-- A request that does not panic, and leaves the accounts with the tasks' handles. -/
def Served (env : Env) (service : Service) (s : Watching) (request : Request) : Prop :=
  (s.handle env service request).response ≠ .refused .panicked ∧ (s.after env service request).Follows

theorem mem_foldl_lastWatches {watched : Account → Finset String} {db : Db} {old handle : String} {account : Account}
    (known : task.twitterId = some (service.idOf old)) (has : task.twitterHandle = some old) :
    handle ∈ (lastWatches db task).foldl service.apply watched account ↔
      handle ∈ watched account ∧ ¬(handle = old ∧ sharing db old (apiOf account) = 1) := by
  simp only [lastWatches, known, has, length_withApi]
  by_cases extreme : sharing db old "EXTREME" = 1 <;> by_cases normal : sharing db old "NORMAL" = 1 <;> cases account <;>
    simp [extreme, normal, apiOf, mem_apply_deleteWatchedProfile]

theorem Valid.served_addTask (valid : s.Valid service) : s.Served env service (.addTask claimsId) := by
  refine ⟨by simp [handle, addTaskReq], follows_iff.mpr fun account handle => ?_⟩
  simp only [after, Watching.handle, addTaskReq, List.foldl_nil]
  rw [valid.follows, sharing_addTask rfl]

theorem Valid.served_deleteTask (valid : s.Valid service) :
    s.Served env service (.deleteTask id) ↔ s.keeps env (.deleteTask id) := by
  cases found : s.db.getTask id with
  | none =>
    refine iff_of_true ⟨by simp [handle, deleteTaskReq, found], follows_iff.mpr ?_⟩ (by simp [keeps, found])
    simpa [after, handle, deleteTaskReq, found] using valid.follows
  | some task =>
    obtain ⟨db, deleted, moved⟩ := sharing_deleteTask found
    have named := valid.named task (Db.mem_of_getTask found)
    have mem := valid.follows
    simp only [Served, handle, after, deleteTaskReq, found, deleted, keeps, Option.all_some, keepsDelete, follows_iff]
    refine (and_iff_right (by simp)).trans ?_
    cases before : task.twitterHandle with
    | none =>
      refine iff_of_true (fun account handle => ?_) rfl
      have same := moved handle (apiOf account)
      simp only [Task.key_eq, before, reduceCtorEq, false_and, if_false, Nat.add_zero] at same
      simpa [lastWatches, before, same] using valid.follows account handle
    | some old =>
      have id_ := named.twitterId_eq before
      simp only [Task.key_eq, before, Option.some.injEq] at moved
      unfold Fits
      simp only [mem_foldl_lastWatches id_ before, valid.follows _ _]
      rw [Account.forall_iff .axsysApiKeyNormal]
      simp only [Option.all_some, Bool.and_eq_true, Bool.or_eq_true, decide_eq_true_eq]
      exact and_congr (fits_left fun handle => moved handle _) (fits_left fun handle => moved handle _)

theorem openWallet_error {wallet : Wallet} {why : Refusal} (error : openWallet env wallet = .error why) : why ≠ .panicked := by
  unfold openWallet at error
  split at error
  · cases error
    nofun
  · split at error
    · cases error
      nofun
    · split at error
      · cases error
        nofun
      · cases error

theorem assignWallet_error {db : Db} {user : User} {why : Refusal} (error : assignWallet env db user task payload = .error why) :
    why ≠ .panicked := by
  unfold assignWallet at error
  split at error
  · cases error
  · split at error
    · cases error
      nofun
    · split at error
      · cases error
        nofun
      · rename_i wallet _ _
        cases opened : openWallet env wallet with
        | error other =>
          rw [opened] at error
          cases error
          exact openWallet_error opened
        | ok _ =>
          rw [opened] at error
          cases error

theorem Valid.served_updateTask (valid : s.Valid service) (unrestricted : s.unrestricted (.updateTask claimsId id payload)) :
    s.Served env service (.updateTask claimsId id payload) ↔ s.keeps env (.updateTask claimsId id payload) := by
  have nothing : ∀ why, why ≠ .panicked → s.handle env service (.updateTask claimsId id payload) =
      { db := s.db, response := .refused why } → s.Served env service (.updateTask claimsId id payload) := by
    intro why other same
    simp only [Served, after, same, follows_iff, List.foldl_nil]
    exact ⟨by simpa using other, valid.follows⟩
  cases user_ : s.db.getUserById claimsId with
  | none =>
    exact iff_of_true (nothing (.badRequest "User not logged in properly") (by simp)
      (by simp only [handle, updateTaskReq, user_])) (by simp [keeps, user_])
  | some user =>
    cases found : s.db.getTask id with
    | none =>
      exact iff_of_true (nothing (.notFound "Error task not found") (by simp)
        (by simp only [handle, updateTaskReq, user_, found])) (by simp [keeps, user_, found])
    | some task =>
      cases opened : assignWallet env s.db user task payload with
      | error why =>
        exact iff_of_true (nothing why (assignWallet_error opened)
          (by simp only [handle, updateTaskReq, user_, found, updateTask, opened])) (by simp [keeps, user_, found, opened])
      | ok opened_ =>
        have named := valid.named task (Db.mem_of_getTask found)
        have free : restricted user task = false := by
          have group : user.groupId ≠ 3 := by simpa [Watching.unrestricted, user_] using unrestricted
          simp [restricted, group]
        have kept := @changed_iff env service s.watched s.db task payload id valid.follows named found
        simp only [keeps, user_, found, opened, ← kept]
        simp only [Served, after, handle, updateTaskReq, user_, found, updateTask, opened, free, Bool.false_eq_true, if_false,
          follows_iff]
        cases changes : changeHandle service.answers s.db task payload with | mk calls row
        cases row with
        | error why =>
          have panicked := changeHandle_error named (congrArg Prod.snd changes)
          exact iff_of_false (fun served => served.1 (by rw [panicked])) (by simp [Changed, changes])
        | ok row =>
          rw [changed_of_eq calls row changes]
          exact and_iff_right (by simp)

theorem named_updateTask {db : Db} {row : Option String × Option String} (named : ∀ task ∈ db.tasks, task.Named service)
    (same : row.1 = row.2.map service.idOf) :
    ∀ task ∈ (db.updateTask id (updated env payload row)).tasks, task.Named service := by
  intro other member
  unfold Db.updateTask at member
  split at member
  case h_1 i at_ =>
    simp only [List.modify_eq_set_getElem?] at member
    cases known : db.tasks[i]? with
    | none =>
      simp only [known] at member
      exact named other member
    | some old =>
      simp only [known] at member
      rcases List.mem_or_eq_of_mem_set member with before | rfl
      · exact named other before
      · exact same
  case h_2 => exact named other member

theorem Valid.named_after (valid : s.Valid service) (unrestricted : s.unrestricted request) :
    ∀ task ∈ (s.after env service request).db.tasks, task.Named service := by
  cases request with
  | addTask claimsId =>
    intro task member
    rcases List.mem_append.mp member with before | new
    · exact valid.named task before
    · rw [List.mem_singleton.mp new]
      rfl
  | deleteTask id =>
    cases found : s.db.getTask id with
    | none => simpa [after, handle, deleteTaskReq, found] using valid.named
    | some task =>
      cases deleted : s.db.deleteTask id with
      | none => simpa [after, handle, deleteTaskReq, found, deleted] using valid.named
      | some db =>
        simp only [after, handle, deleteTaskReq, found, deleted]
        obtain ⟨i, -, rfl⟩ := Option.map_eq_some_iff.mp deleted
        exact fun other member => valid.named other (List.mem_of_mem_eraseIdx member)
  | updateTask claimsId id payload =>
    simp only [after, handle, updateTaskReq]
    cases user_ : s.db.getUserById claimsId with
    | none => exact valid.named
    | some user =>
      cases found : s.db.getTask id with
      | none => exact valid.named
      | some task =>
        have free : restricted user task = false := by
          have group : user.groupId ≠ 3 := by simpa [Watching.unrestricted, user_] using unrestricted
          simp [restricted, group]
        simp only [updateTask, free, Bool.false_eq_true, if_false]
        cases assignWallet env s.db user task payload with
        | error why => exact valid.named
        | ok opened =>
          cases changes : (changeHandle service.answers s.db task payload).2 with
          | error why => exact valid.named
          | ok row =>
            dsimp only
            exact named_updateTask valid.named (changeHandle_named (valid.named task (Db.mem_of_getTask found)) changes)

/-- The condition is exactly what a request has to meet. -/
theorem Valid.served (valid : s.Valid service) (unrestricted : s.unrestricted request) :
    s.Served env service request ↔ s.keeps env request := by
  cases request with
  | addTask claimsId => exact iff_of_true valid.served_addTask rfl
  | updateTask claimsId id payload => exact valid.served_updateTask unrestricted
  | deleteTask id => exact valid.served_deleteTask

theorem Valid.step (valid : s.Valid service) (kept : s.keeps env request) (taken : s.step env service request = some t) :
    t.Valid service := by
  obtain ⟨unrestricted, rfl⟩ : s.unrestricted request ∧ s.after env service request = t := by
    simpa [Watching.step] using taken
  exact ⟨follows_iff.mp ((valid.served unrestricted).mpr kept).2, valid.named_after unrestricted⟩

/-- **Watched profiles follow the tasks** in every run of requests that meet the condition; and wherever such a run
has come to, a request does not panic, and leaves the accounts with the tasks' handles, exactly if it meets it. -/
theorem watched_profiles (reached : (watching env service users wallets).Reaches (fun s request => s.keeps env request) s) :
    s.Follows ∧ ∀ request, s.unrestricted request →
      ((s.handle env service request).response ≠ .refused .panicked ∧ (s.after env service request).Follows ↔
        s.keeps env request) := by
  have valid : s.Valid service := by
    refine reached.invariant (Valid service) ⟨?_, by simp [watching]⟩ fun _ _ _ valid kept taken => valid.step kept taken
    exact fun account handle => by simp [watching, sharing_eq]
  exact ⟨follows_iff.mpr valid.follows, fun request unrestricted => valid.served unrestricted⟩

end Watching

section Examples

/-- A service that knows every profile by its handle. -/
def byHandle : Service := ⟨id, Function.injective_id⟩

/-- The task's handle and its API, with the rest of the fields. -/
def watchingTask (twitterHandle : Option String) (twitterApi : String) : UpdateTaskPayload :=
  asking { ordinary none with twitterHandle, twitterApi } none 2

/-- Two tasks share a handle; one of them goes to the other account, loses it, and is deleted. -/
theorem watched_profiles_shared : ∃ s,
    (watching plain byHandle [⟨8, 1⟩] []).Reaches (fun s request => s.keeps plain request) s ∧
    s.watched .axsysApiKey = {"elon"} ∧ (s.Follows ∧ ∀ request, s.unrestricted request →
      ((s.handle plain byHandle request).response ≠ .refused .panicked ∧ (s.after plain byHandle request).Follows ↔
        s.keeps plain request)) := by
  obtain ⟨s, reached, watches⟩ := Machine.Reaches.of_trace (watching plain byHandle [⟨8, 1⟩] [])
    (fun s request => s.keeps plain request)
    [.addTask 8, .addTask 8, .updateTask 8 1 (watchingTask (some " elon") "EXTREME"),
      .updateTask 8 2 (watchingTask (some "elon") "EXTREME"), .updateTask 8 2 (watchingTask (some "elon") "NORMAL"),
      .updateTask 8 2 (watchingTask none "NORMAL"), .deleteTask 2]
    (fun s => s.watched .axsysApiKey = {"elon"}) (by decide +kernel)
  exact ⟨s, reached, watches, Watching.watched_profiles reached⟩

/-- Another handle for the only task that watches one, and an API that is none of the two. -/
theorem watched_profiles_fails :
    (∃ s, (watching plain byHandle [⟨8, 1⟩] []).Reachable s ∧ ∃ request, s.unrestricted request ∧
      (s.handle plain byHandle request).response.accepted ∧ ¬(s.after plain byHandle request).Follows) ∧
    ∃ s, (watching plain byHandle [⟨8, 1⟩] []).Reachable s ∧ ∃ request, s.unrestricted request ∧
      (s.handle plain byHandle request).response = .refused .panicked := by
  constructor
  · obtain ⟨s, reached, accepted, still, none⟩ := Machine.Reachable.of_trace (watching plain byHandle [⟨8, 1⟩] [])
      [.addTask 8, .updateTask 8 1 (watchingTask (some "elon") "EXTREME")]
      (fun s => let request := Request.updateTask 8 1 (watchingTask (some "doge") "EXTREME")
        (s.unrestricted request ∧ (s.handle plain byHandle request).response.accepted) ∧
          "elon" ∈ (s.after plain byHandle request).watched .axsysApiKey ∧
          ∀ task ∈ (s.after plain byHandle request).db.tasks, task.twitterHandle = none) (by decide +kernel)
    refine ⟨s, reached, _, accepted.1, accepted.2, fun follows => ?_⟩
    obtain ⟨task, listed, has, -⟩ := (follows .axsysApiKey "elon").mp still
    rw [none task listed] at has
    cases has
  · obtain ⟨s, reached, unrestricted, panics⟩ := Machine.Reachable.of_trace (watching plain byHandle [⟨8, 1⟩] [])
      [.addTask 8, .updateTask 8 1 (watchingTask (some "elon") "FREE")]
      (fun s => let request := Request.updateTask 8 1 (watchingTask (some "elon") "NORMAL")
        s.unrestricted request ∧ (s.handle plain byHandle request).response = .refused .panicked) (by decide +kernel)
    exact ⟨s, reached, _, unrestricted, panics⟩

end Examples

end RndRust.Sniper.Webapp
