import RndRust.Irc.Server.Sound

/-! What a command can do to the users themselves. It changes the user it comes from
and no other, and of what others know that user by only NICK, USER and the end of a
capability negotiation change anything. -/
namespace RndRust.Irc.Server
open Lib Proto

/-- What others know a user by. -/
def UserInner.identity (user : UserInner) :
    Option Bytes × Option UserRegInfo × Bool × Bytes × Option Bytes :=
  (user.nick, user.reg, user.registered, user.host, user.cloakedHost)

/-- The users but `uid` are what they were, and `uid` is known by the same. -/
structure Kept (s : ServerState) (uid : UserId) (t : ServerState) : Prop where
  others : ∀ v, v ≠ uid → t.objects v = s.objects v
  own : (t.objects uid).identity = (s.objects uid).identity

namespace Kept

variable {s t r : ServerState} {uid : UserId}

theorem of_objects (same : t.objects = s.objects) : Kept s uid t :=
  ⟨fun v _ => congrFun same v, by rw [same]⟩

theorem refl (s : ServerState) (uid : UserId) : Kept s uid s := .of_objects rfl

theorem trans (first : Kept s uid t) (second : Kept t uid r) : Kept s uid r where
  others v other := (second.others v other).trans (first.others v other)
  own := second.own.trans first.own

theorem registered (kept : Kept s uid t) : (t.objects uid).registered = (s.objects uid).registered :=
  congrArg (fun known => known.2.2.1) kept.own

theorem modifyUser {f : UserInner → UserInner} (kept : ∀ user, (f user).identity = user.identity) :
    Kept s uid (s.modifyUser uid f) where
  others v other := by simp [ServerState.modifyUser, other]
  own := by simpa [ServerState.modifyUser] using kept _

theorem ensureRegistered {handler : Effect} (kept : Kept s uid handler.state) :
    Kept s uid (ensureRegistered s uid handler).state := by
  unfold Server.ensureRegistered
  split
  · exact kept
  · exact refl s uid

theorem operCommand {priv : Privilege} {name : Bytes} {arity : ℕ} {params : Params}
    {handler : Effect} (kept : Kept s uid handler.state) :
    Kept s uid (operCommand s uid priv name arity params handler).state := by
  refine ensureRegistered ?_
  dsimp only
  split
  · exact refl s uid
  · split
    · exact refl s uid
    · exact kept

theorem forEach {α : Type} {body : ServerState → α → Effect} {xs : List α}
    (each : ∀ s x, Kept s uid (body s x).state) : Kept s uid (Effect.forEach body s xs).state := by
  refine Effect.forEach_preserves (Kept s uid) (fun t x _ kept => ?_) (refl s uid)
  exact kept.trans (each t x)

end Kept

section KeepingHandlers

variable (s : ServerState) (uid : UserId) (out : Outside)

theorem handleCapReq_kept (args : List Bytes) : Kept s uid (handleCapReq s uid args).state := by
  unfold handleCapReq
  dsimp only
  split
  · exact .refl s uid
  · rw [Effect.reply_state]
    apply Kept.modifyUser
    intro user
    rfl

theorem capNegotiating_kept (v : Bool) :
    Kept s uid (s.modifyUser uid fun user => { user with capNegotiating := v }) := by
  apply Kept.modifyUser
  intro user
  rfl

theorem handlePass_kept (password : Bytes) : Kept s uid (handlePass s uid password).state := by
  unfold handlePass
  dsimp only
  split
  · exact .refl s uid
  · apply Kept.modifyUser
    intro user
    rfl

theorem joinBody_kept (raw : Bytes) : Kept s uid (joinBody uid s raw).state := by
  apply Kept.of_objects
  rcases joinBody_state s uid raw with ⟨-, same⟩ | ⟨-, mode, same⟩ <;> rw [same]
  rfl

theorem partBody_kept (origin : Bytes) (reason : Option Bytes) (raw : Bytes) :
    Kept s uid (partBody uid origin reason s raw).state := by
  apply Kept.of_objects
  rcases partBody_state s uid origin reason raw with same | ⟨c, -, same⟩ <;> rw [same]
  rw [removeEmptyChannel_objects]
  rfl

theorem handleTopic_kept (channel : Bytes) (newTopic : Option Bytes) :
    Kept s uid (handleTopic s uid out channel newTopic).state := by
  refine .ensureRegistered (.of_objects ?_)
  repeat' split
  all_goals rfl

theorem deliver_kept (targets : List Bytes) (text verb : Bytes) (emitErrors : Bool) :
    Kept s uid (deliver s uid out targets text verb emitErrors).state := by
  unfold deliver
  dsimp only
  split <;> exact .refl s uid

theorem applyUserModes_identity (changes : List ModeChange) (user : UserInner) :
    (changes.foldl applyUserMode user).identity = user.identity := by
  induction changes generalizing user with
  | nil => rfl
  | cons ch rest ih =>
    rw [List.foldl_cons, ih]
    unfold applyUserMode
    repeat' split
    all_goals rfl

theorem applyChannelModes_objects (target : Bytes) (c : Channel) (changes : Bytes) (args : List Bytes) :
    (applyChannelModes s uid target c changes args).state.objects = s.objects := by
  unfold applyChannelModes
  dsimp only
  repeat' split
  all_goals rfl

theorem handleMode_kept (target : Bytes) (changes : Option Bytes) (args : List Bytes) :
    Kept s uid (handleMode s uid target changes args).state := by
  refine .ensureRegistered ?_
  split
  · unfold handleChannelMode
    dsimp only
    repeat' split
    · exact .refl s uid
    · exact .refl s uid
    · exact .of_objects (applyChannelModes_objects s uid _ _ _ _)
  · unfold handleUserMode
    dsimp only
    split
    · cases changes with
      | none => exact .refl s uid
      | some changes => exact .modifyUser (applyUserModes_identity _)
    · exact .refl s uid

theorem handleRegister_kept (accountName email password : Bytes) :
    Kept s uid (handleRegister s uid out accountName email password).state := by
  unfold handleRegister
  repeat' split
  all_goals exact .refl s uid

theorem setAccount_kept (account : Bytes) : Kept s uid (setAccount s uid account) := .modifyUser fun _ => rfl

theorem handleVerify_kept (accountName token : Bytes) :
    Kept s uid (handleVerify s uid out accountName token).state := by
  unfold handleVerify
  repeat' split
  all_goals first | exact .refl s uid | apply setAccount_kept

theorem clearMechanism_kept : Kept s uid (clearMechanism s uid) := .modifyUser fun _ => rfl

theorem saslFail_kept (text : Bytes) : Kept s uid (saslFail s uid text).state :=
  clearMechanism_kept s uid

theorem saslLogin_kept (account : Bytes) : Kept s uid (saslLogin s uid account).state :=
  (setAccount_kept s uid account).trans (clearMechanism_kept _ uid)

theorem handleAuthenticate_kept (payload : Bytes) :
    Kept s uid (handleAuthenticate s uid out payload).state := by
  unfold handleAuthenticate
  repeat' split
  · dsimp only
    rw [Effect.reply_state]
    apply Kept.modifyUser
    intro user
    rfl
  · unfold handlePlain
    repeat' split
    all_goals first | apply saslFail_kept | apply saslLogin_kept
  · unfold handleExternal
    repeat' split
    all_goals first | apply saslFail_kept | apply saslLogin_kept
  · exact saslFail_kept s uid _

theorem handleOper_kept (params : Params) : Kept s uid (handleOper s uid params).state := by
  refine .ensureRegistered ?_
  dsimp only
  repeat' split
  all_goals first | exact .refl s uid | (dsimp only; apply Kept.modifyUser; intro; rfl)

theorem handleKill_kept (params : Params) : Kept s uid (handleKill s uid params).state := by
  refine .operCommand ?_
  dsimp only
  split
  · exact .refl s uid
  · rename_i target found
    unfold killUser
    exact .of_objects ((removeUser_rest _ target).1.trans (purge_rest s target).2.2.1)

theorem handleShowhost_kept (params : Params) : Kept s uid (handleShowhost s uid params).state := by
  refine .operCommand ?_
  dsimp only
  split <;> exact .refl s uid

theorem monitorAdd_kept (targets : Bytes) : Kept s uid (monitorAdd s uid targets).state := by
  unfold monitorAdd
  dsimp only
  split
  · exact .refl s uid
  · dsimp only
    apply Kept.modifyUser
    intro user
    rfl

theorem monitorRemove_kept (targets : Bytes) : Kept s uid (monitorRemove s uid targets).state := by
  simp only [monitorRemove]
  apply Kept.modifyUser
  intro user
  rfl

theorem handleMonitor_kept (params : Params) : Kept s uid (handleMonitor s uid params).state := by
  refine .ensureRegistered ?_
  split
  · exact .refl s uid
  · dsimp only
    repeat' split
    all_goals
      first
        | exact .refl s uid
        | exact monitorAdd_kept s uid _
        | exact monitorRemove_kept s uid _
        | (dsimp only; apply Kept.modifyUser; intro; rfl)

theorem dispatchUnknown_kept (verb : Bytes) (params : Params) :
    Kept s uid (dispatchUnknown s uid out verb params).state := by
  unfold dispatchUnknown
  split
  · split
    · exact handleRegister_kept s uid out _ _ _
    · exact .refl s uid
  split
  · split
    · exact handleVerify_kept s uid out _ _
    · exact .refl s uid
  split
  · exact handleOper_kept s uid params
  split
  · exact handleKill_kept s uid params
  split
  · exact .operCommand (.of_objects rfl)
  split
  · exact .operCommand (.of_objects rfl)
  split
  · exact handleShowhost_kept s uid params
  split
  · exact handleMonitor_kept s uid params
  · exact .refl s uid

end KeepingHandlers

/-- `maybe_finalize`, on the user. -/
def UserInner.finalized (crates : Crates) (user : UserInner) : UserInner :=
  if user.ready then { user with cloakedHost := some (cloakIp crates user.host), registered := true } else user

theorem maybeFinalize_objects (s : ServerState) (uid : UserId) :
    (maybeFinalize s uid).state.objects = Function.update s.objects uid ((s.objects uid).finalized s.crates) := by
  unfold maybeFinalize UserInner.finalized
  dsimp only
  split
  · rfl
  · simp

/-- What a command of `uid` makes of the user as others know it. -/
inductive Renames (crates : Crates) (user : UserInner) : Command → UserInner → Prop
  | keeps {cmd : Command} {next : UserInner} (same : next.identity = user.identity) :
      Renames crates user cmd next
  | renamed {nick : Bytes} (valid : isValidNick nick) (registered : user.registered) :
      Renames crates user (.nick nick) { user with nick := some nick }
  | named {nick : Bytes} (valid : isValidNick nick) (registered : ¬ user.registered) :
      Renames crates user (.nick nick) (UserInner.finalized crates { user with nick := some nick })
  | described {userName mode realname : Bytes} (registered : ¬ user.registered) :
      Renames crates user (.user userName mode realname)
        (UserInner.finalized crates { user with reg := some ⟨userName, realname⟩ })
  | negotiated {args : List Bytes} :
      Renames crates user (.cap .done args) (UserInner.finalized crates { user with capNegotiating := false })

/-- The change a command of `uid` makes to the users. -/
def Revises (s : ServerState) (uid : UserId) (cmd : Command) (t : ServerState) : Prop :=
  (∀ v, v ≠ uid → t.objects v = s.objects v) ∧ Renames s.crates (s.objects uid) cmd (t.objects uid)

section Dispatch

variable (s : ServerState) (uid : UserId) (out : Outside)

variable {s uid} in
theorem Kept.revises {t : ServerState} {cmd : Command} (kept : Kept s uid t) : Revises s uid cmd t :=
  ⟨kept.others, .keeps kept.own⟩

/-- A claim keeps the users as they are. -/
theorem claimNick_users {nick : Bytes} {claimed : ServerState} (ok : s.claimNick uid nick = .ok claimed) :
    claimed.objects = s.objects ∧ claimed.crates = s.crates := by
  unfold ServerState.claimNick at ok
  repeat' split at ok
  all_goals cases ok
  · exact ⟨rfl, rfl⟩
  · unfold ServerState.releaseNick
    split <;> exact ⟨rfl, rfl⟩
  · exact ⟨rfl, rfl⟩

theorem handleNick_revises (nick : Bytes) : Revises s uid (.nick nick) (handleNick s uid nick).state := by
  unfold handleNick
  split
  · exact (Kept.refl s uid).revises
  split
  · exact (Kept.refl s uid).revises
  rename_i valid
  replace valid : isValidNick nick := by simpa using valid
  cases claim : s.claimNick uid nick with
  | error _ => exact (Kept.refl s uid).revises
  | ok claimed =>
    obtain ⟨objects, crates⟩ := claimNick_users s uid claim
    dsimp only
    split
    · rename_i registered
      have known : (s.objects uid).registered := by simpa [ServerState.modifyUser, objects] using registered
      split
      all_goals
        refine ⟨fun v other => by simp [ServerState.modifyUser, other, objects], ?_⟩
        simpa [ServerState.modifyUser, objects] using Renames.renamed valid known
    · rename_i registered
      have unknown : ¬ (s.objects uid).registered := by simpa [ServerState.modifyUser, objects] using registered
      rw [Revises, maybeFinalize_objects]
      refine ⟨fun v other => by simp [ServerState.modifyUser, other, objects], ?_⟩
      simpa [ServerState.modifyUser, objects, crates] using Renames.named valid unknown

theorem handleUser_revises (userName mode realname : Bytes) :
    Revises s uid (.user userName mode realname) (handleUser s uid userName realname).state := by
  unfold handleUser
  split
  · exact (Kept.refl s uid).revises
  · rename_i registered
    rw [Revises, maybeFinalize_objects]
    refine ⟨fun v other => by simp [ServerState.modifyUser, other], ?_⟩
    simpa [ServerState.modifyUser] using Renames.described registered

theorem handleCap_revises (subcommand : CapSub) (args : List Bytes) :
    Revises s uid (.cap subcommand args) (handleCap s uid subcommand args).state := by
  cases subcommand with
  | ls => exact (capNegotiating_kept s uid true).revises
  | req => exact ((capNegotiating_kept s uid true).trans (handleCapReq_kept _ uid args)).revises
  | done =>
    rw [Revises, handleCap, maybeFinalize_objects]
    refine ⟨fun v other => by simp [ServerState.modifyUser, other], ?_⟩
    simpa [ServerState.modifyUser] using Renames.negotiated
  | list | ack | nak | new | del | other _ => exact (Kept.refl s uid).revises

/-- Every command, case by case. -/
theorem dispatchTyped_revises (cmd : Command) : Revises s uid cmd (dispatchTyped s uid out cmd).state := by
  cases cmd with
  | nick nick => exact handleNick_revises s uid nick
  | user user mode realname => exact handleUser_revises s uid user mode realname
  | cap subcommand args => exact handleCap_revises s uid subcommand args
  | join channels keys =>
    exact (Kept.ensureRegistered (.forEach fun s raw => joinBody_kept s uid raw)).revises
  | part channels reason =>
    exact (Kept.ensureRegistered (.forEach fun s raw => partBody_kept s uid _ reason raw)).revises
  | unknown verb params => exact (dispatchUnknown_kept s uid out verb params).revises
  | pass password => exact (handlePass_kept s uid password).revises
  | topic channel topic => exact (handleTopic_kept s uid out channel topic).revises
  | privmsg targets text => exact (deliver_kept s uid out targets text _ _).revises
  | notice targets text => exact (deliver_kept s uid out targets text _ _).revises
  | authenticate payload => exact (handleAuthenticate_kept s uid out payload).revises
  | mode target changes args => exact (handleMode_kept s uid target changes args).revises
  | ping _ _ | pong _ _ | quit _ | list _ _ | numeric _ _ => exact (Kept.refl s uid).revises

end Dispatch

end RndRust.Irc.Server
