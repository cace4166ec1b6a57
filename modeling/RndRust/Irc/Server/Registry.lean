import RndRust.Irc.Server.Dispatch

/-! What a command can do to the registries: users, nicknames, channel names and
channel members. Only NICK, JOIN, PART and KILL touch them; every other command is
`Quiet`. `Sound` is what the registries satisfy in every state between commands. -/
namespace RndRust.Irc.Server
open Lib Proto

namespace Channel

variable {c : Channel} {uid v : UserId}

theorem hasMember_iff : c.hasMember uid ↔ uid ∈ c.memberIds := AList.lookup_isSome

theorem memberIds_addMember {mode : MemberMode} :
    v ∈ (c.addMember uid mode).memberIds ↔ v = uid ∨ v ∈ c.memberIds := by
  unfold addMember
  split
  · rename_i present
    rw [hasMember_iff] at present
    constructor
    · exact .inr
    · rintro (rfl | member)
      · exact present
      · exact member
  · exact AList.mem_insert _

theorem memberIds_removeMember :
    v ∈ (c.removeMember uid).memberIds ↔ v ≠ uid ∧ v ∈ c.memberIds := AList.mem_erase

theorem entries_eq_nil_iff : c.members.entries = [] ↔ c.memberIds = [] := by
  simp [memberIds, AList.keys, List.keys]

/-- The name of a channel and who is in it. -/
def roster (c : Channel) : Bytes × List UserId := (c.name, c.memberIds)

end Channel

/-- The registries are the same in both states. -/
structure Quiet (s t : ServerState) : Prop where
  users : t.users = s.users
  nicks : t.nicks = s.nicks
  nextUserId : t.nextUserId = s.nextUserId
  nick : ∀ uid, (t.objects uid).nick = (s.objects uid).nick
  channels : ∀ k, (t.channels.lookup k).map Channel.roster = (s.channels.lookup k).map Channel.roster

namespace Quiet

variable {s t r : ServerState} {uid : UserId}

theorem refl (s : ServerState) : Quiet s s := ⟨rfl, rfl, rfl, fun _ => rfl, fun _ => rfl⟩

theorem trans (first : Quiet s t) (second : Quiet t r) : Quiet s r where
  users := second.users.trans first.users
  nicks := second.nicks.trans first.nicks
  nextUserId := second.nextUserId.trans first.nextUserId
  nick uid := (second.nick uid).trans (first.nick uid)
  channels k := (second.channels k).trans (first.channels k)

/-- Changes to a user that keep its nickname are not seen by the registries. -/
theorem modifyUser {f : UserInner → UserInner} (kept : ∀ user, (f user).nick = user.nick) :
    Quiet s (s.modifyUser uid f) where
  users := rfl
  nicks := rfl
  nextUserId := rfl
  nick v := by
    by_cases same : v = uid
    · subst same
      simpa [ServerState.modifyUser] using kept _
    · simp [ServerState.modifyUser, same]
  channels _ := rfl

/-- Nor are changes to a channel that keep its roster. -/
theorem setChannel {name : Bytes} {c c' : Channel} (found : s.channel name = some c)
    (kept : c'.roster = c.roster) : Quiet s (s.setChannel name c') where
  users := rfl
  nicks := rfl
  nextUserId := rfl
  nick _ := rfl
  channels k := by
    by_cases same : k = fold name
    · subst same
      rw [ServerState.channel] at found
      simp [ServerState.setChannel, found, kept]
    · simp [ServerState.setChannel, AList.lookup_insert_ne same]

theorem ensureRegistered {handler : Effect} (quiet : Quiet s handler.state) :
    Quiet s (ensureRegistered s uid handler).state := by
  unfold Server.ensureRegistered
  split
  · exact quiet
  · exact refl s

theorem operCommand {priv : Privilege} {name : Bytes} {arity : ℕ} {params : Params}
    {handler : Effect} (quiet : Quiet s handler.state) :
    Quiet s (operCommand s uid priv name arity params handler).state := by
  refine ensureRegistered ?_
  dsimp only
  split
  · exact refl s
  · split
    · exact refl s
    · exact quiet

end Quiet

section QuietHandlers

variable (s : ServerState) (uid : UserId) (out : Outside)

theorem maybeFinalize_quiet : Quiet s (maybeFinalize s uid).state := by
  unfold maybeFinalize
  dsimp only
  split
  · dsimp only
    apply Quiet.modifyUser
    intro user
    rfl
  · exact .refl s

theorem handleCapReq_quiet (args : List Bytes) : Quiet s (handleCapReq s uid args).state := by
  unfold handleCapReq
  dsimp only
  split
  · exact .refl s
  · rw [Effect.reply_state]
    apply Quiet.modifyUser
    intro user
    rfl

theorem capNegotiating_quiet (v : Bool) :
    Quiet s (s.modifyUser uid fun user => { user with capNegotiating := v }) := by
  apply Quiet.modifyUser
  intro user
  rfl

theorem handleCap_quiet (subcommand : CapSub) (args : List Bytes) :
    Quiet s (handleCap s uid subcommand args).state := by
  cases subcommand with
  | ls => exact capNegotiating_quiet s uid true
  | req => exact (capNegotiating_quiet s uid true).trans (handleCapReq_quiet _ uid args)
  | done => exact (capNegotiating_quiet s uid false).trans (maybeFinalize_quiet _ uid)
  | list | ack | nak | new | del | other _ => exact .refl s

theorem handleUser_quiet (userName realname : Bytes) :
    Quiet s (handleUser s uid userName realname).state := by
  unfold handleUser
  split
  · exact .refl s
  · refine .trans ?_ (maybeFinalize_quiet _ uid)
    apply Quiet.modifyUser
    intro user
    rfl

theorem handlePass_quiet (password : Bytes) : Quiet s (handlePass s uid password).state := by
  unfold handlePass
  dsimp only
  split
  · exact .refl s
  · apply Quiet.modifyUser
    intro user
    rfl

theorem handleTopic_quiet (channel : Bytes) (newTopic : Option Bytes) :
    Quiet s (handleTopic s uid out channel newTopic).state := by
  refine .ensureRegistered ?_
  cases found : s.channel channel with
  | none => exact .refl s
  | some c =>
    cases newTopic with
    | none =>
      cases topic : c.topic with
      | none => simpa [topic] using Quiet.refl s
      | some t => simpa [topic] using Quiet.refl s
    | some text =>
      dsimp only
      split
      · exact .setChannel found rfl
      · exact .refl s

theorem deliver_quiet (targets : List Bytes) (text verb : Bytes) (emitErrors : Bool) :
    Quiet s (deliver s uid out targets text verb emitErrors).state := by
  unfold deliver
  dsimp only
  split <;> exact .refl s

theorem setMemberMode_roster (c : Channel) (target : UserId) (letter : UInt8) (adding : Bool) :
    (setMemberMode c target letter adding).roster = c.roster := by
  simp [Channel.roster, Channel.memberIds, setMemberMode]

theorem applyFlagMode_roster (c : Channel) (letter : UInt8) (adding : Bool) :
    (applyFlagMode c letter adding).roster = c.roster := by
  unfold applyFlagMode
  repeat' split
  all_goals rfl

theorem applyChannelMode_roster (state : Channel × Applied) (ch : ModeChange) :
    (applyChannelMode s state ch).1.roster = state.1.roster := by
  obtain ⟨c, applied⟩ := state
  simp only [applyChannelMode]
  repeat' split
  all_goals first | rfl | apply applyFlagMode_roster | apply setMemberMode_roster

theorem applyChannelModes_quiet {target : Bytes} {c : Channel} (found : s.channel target = some c)
    (changes : Bytes) (args : List Bytes) :
    Quiet s (applyChannelModes s uid target c changes args).state := by
  have kept : ∀ (parsed : List ModeChange) (state : Channel × Applied),
      (parsed.foldl (applyChannelMode s) state).1.roster = state.1.roster := by
    intro parsed
    induction parsed with
    | nil => exact fun _ => rfl
    | cons ch rest ih => exact fun state => (ih _).trans (applyChannelMode_roster s state ch)
  unfold applyChannelModes
  dsimp only
  split
  · split <;> exact .setChannel found (kept _ _)
  · exact .refl s

theorem applyUserModes_nick (changes : List ModeChange) (user : UserInner) :
    (changes.foldl applyUserMode user).nick = user.nick := by
  induction changes generalizing user with
  | nil => rfl
  | cons ch rest ih =>
    rw [List.foldl_cons, ih]
    unfold applyUserMode
    repeat' split
    all_goals rfl

theorem handleMode_quiet (target : Bytes) (changes : Option Bytes) (args : List Bytes) :
    Quiet s (handleMode s uid target changes args).state := by
  refine .ensureRegistered ?_
  split
  · unfold handleChannelMode
    cases found : s.channel target with
    | none => exact .refl s
    | some c =>
      cases changes with
      | none => exact .refl s
      | some changes => exact applyChannelModes_quiet s uid found changes args
  · unfold handleUserMode
    dsimp only
    split
    · cases changes with
      | none => exact .refl s
      | some changes =>
        exact .modifyUser (applyUserModes_nick _)
    · exact .refl s

theorem handleRegister_quiet (accountName email password : Bytes) :
    Quiet s (handleRegister s uid out accountName email password).state := by
  unfold handleRegister
  repeat' split
  all_goals exact .refl s

theorem setAccount_quiet (account : Bytes) : Quiet s (setAccount s uid account) :=
  .modifyUser fun _ => rfl

theorem handleVerify_quiet (accountName token : Bytes) :
    Quiet s (handleVerify s uid out accountName token).state := by
  unfold handleVerify
  repeat' split
  all_goals first | exact .refl s | apply setAccount_quiet

theorem clearMechanism_quiet : Quiet s (clearMechanism s uid) := .modifyUser fun _ => rfl

theorem saslFail_quiet (text : Bytes) : Quiet s (saslFail s uid text).state :=
  clearMechanism_quiet s uid

theorem saslLogin_quiet (account : Bytes) : Quiet s (saslLogin s uid account).state :=
  (setAccount_quiet s uid account).trans (clearMechanism_quiet _ uid)

theorem handlePlain_quiet (payload : Bytes) : Quiet s (handlePlain s uid out payload).state := by
  unfold handlePlain
  repeat' split
  all_goals first | apply saslFail_quiet | apply saslLogin_quiet

theorem handleExternal_quiet : Quiet s (handleExternal s uid out).state := by
  unfold handleExternal
  repeat' split
  all_goals first | apply saslFail_quiet | apply saslLogin_quiet

theorem handleAuthenticate_quiet (payload : Bytes) :
    Quiet s (handleAuthenticate s uid out payload).state := by
  unfold handleAuthenticate
  repeat' split
  · dsimp only
    rw [Effect.reply_state]
    apply Quiet.modifyUser
    intro user
    rfl
  · exact handlePlain_quiet s uid out payload
  · exact handleExternal_quiet s uid out
  · exact saslFail_quiet s uid _

theorem handleOper_quiet (params : Params) : Quiet s (handleOper s uid params).state := by
  refine .ensureRegistered ?_
  dsimp only
  repeat' split
  all_goals first | exact .refl s | (dsimp only; apply Quiet.modifyUser; intro; rfl)

theorem handleKline_quiet (params : Params) : Quiet s (handleKline s uid out params).state :=
  .operCommand ⟨rfl, rfl, rfl, fun _ => rfl, fun _ => rfl⟩

theorem handleUnkline_quiet (params : Params) : Quiet s (handleUnkline s uid params).state :=
  .operCommand ⟨rfl, rfl, rfl, fun _ => rfl, fun _ => rfl⟩

theorem handleShowhost_quiet (params : Params) : Quiet s (handleShowhost s uid params).state := by
  refine .operCommand ?_
  dsimp only
  split <;> exact .refl s

theorem monitorAdd_quiet (targets : Bytes) : Quiet s (monitorAdd s uid targets).state := by
  unfold monitorAdd
  dsimp only
  split
  · exact .refl s
  · dsimp only
    apply Quiet.modifyUser
    intro user
    rfl

theorem monitorRemove_quiet (targets : Bytes) : Quiet s (monitorRemove s uid targets).state := by
  simp only [monitorRemove]
  apply Quiet.modifyUser
  intro user
  rfl

theorem handleMonitor_quiet (params : Params) : Quiet s (handleMonitor s uid params).state := by
  refine .ensureRegistered ?_
  split
  · exact .refl s
  · dsimp only
    repeat' split
    all_goals
      first
        | exact .refl s
        | exact monitorAdd_quiet s uid _
        | exact monitorRemove_quiet s uid _
        | (dsimp only; apply Quiet.modifyUser; intro; rfl)

end QuietHandlers

/-- What a command of `uid` can do to the registries. -/
inductive Change (s : ServerState) (uid : UserId) : Command → ServerState → Prop
  | quiet {cmd : Command} {t : ServerState} (same : Quiet s t) : Change s uid cmd t
  | claims {nick : Bytes} {claimed t : ServerState} (ok : s.claimNick uid nick = .ok claimed)
      (same : Quiet (claimed.modifyUser uid fun user => { user with nick := some nick }) t) :
      Change s uid (.nick nick) t
  | joins {channels keys : List Bytes} (registered : (s.objects uid).registered) :
      Change s uid (.join channels keys) (Effect.forEach (joinBody uid) s channels).state
  | parts {channels : List Bytes} {reason : Option Bytes} :
      Change s uid (.part channels reason)
        (Effect.forEach (partBody uid (s.objects uid).originPrefix reason) s channels).state
  | kills {cmd : Command} {nick : Bytes} {target : UserId} (found : s.userByNick nick = some target) :
      Change s uid cmd ((s.purgeUserFromChannels target).removeUser target)

section Dispatch

variable (s : ServerState) (uid : UserId) (out : Outside)

theorem handleNick_change (nick : Bytes) : Change s uid (.nick nick) (handleNick s uid nick).state := by
  unfold handleNick
  split
  · exact .quiet (.refl s)
  split
  · exact .quiet (.refl s)
  cases claim : s.claimNick uid nick with
  | error _ => exact .quiet (.refl s)
  | ok claimed =>
    refine .claims claim ?_
    dsimp only
    split
    · split <;> exact .refl _
    · exact maybeFinalize_quiet _ uid

theorem handleJoin_change (channels keys : List Bytes) :
    Change s uid (.join channels keys) (handleJoin s uid channels).state := by
  unfold handleJoin ensureRegistered
  split
  · rename_i registered
    exact .joins registered
  · exact .quiet (.refl s)

theorem handlePart_change (channels : List Bytes) (reason : Option Bytes) :
    Change s uid (.part channels reason) (handlePart s uid channels reason).state := by
  unfold handlePart ensureRegistered
  split
  · exact .parts
  · exact .quiet (.refl s)

theorem handleKill_change (cmd : Command) (params : Params) :
    Change s uid cmd (handleKill s uid params).state := by
  unfold handleKill operCommand ensureRegistered
  dsimp only
  split
  · split
    · exact .quiet (.refl s)
    split
    · exact .quiet (.refl s)
    cases found : s.userByNick (params.values.headD []) with
    | none => exact .quiet (.refl s)
    | some target => exact .kills found
  · exact .quiet (.refl s)

theorem dispatchUnknown_change (verb : Bytes) (params : Params) :
    Change s uid (.unknown verb params) (dispatchUnknown s uid out verb params).state := by
  unfold dispatchUnknown
  split
  · split
    · exact .quiet (handleRegister_quiet s uid out _ _ _)
    · exact .quiet (.refl s)
  split
  · split
    · exact .quiet (handleVerify_quiet s uid out _ _)
    · exact .quiet (.refl s)
  split
  · exact .quiet (handleOper_quiet s uid params)
  split
  · exact handleKill_change s uid _ params
  split
  · exact .quiet (handleKline_quiet s uid out params)
  split
  · exact .quiet (handleUnkline_quiet s uid params)
  split
  · exact .quiet (handleShowhost_quiet s uid params)
  split
  · exact .quiet (handleMonitor_quiet s uid params)
  · exact .quiet (.refl s)

/-- Every command, case by case. -/
theorem dispatchTyped_change (cmd : Command) :
    Change s uid cmd (dispatchTyped s uid out cmd).state := by
  cases cmd with
  | nick nick => exact handleNick_change s uid nick
  | join channels keys => exact handleJoin_change s uid channels keys
  | part channels reason => exact handlePart_change s uid channels reason
  | unknown verb params => exact dispatchUnknown_change s uid out verb params
  | cap subcommand args => exact .quiet (handleCap_quiet s uid subcommand args)
  | user user mode realname => exact .quiet (handleUser_quiet s uid user realname)
  | pass password => exact .quiet (handlePass_quiet s uid password)
  | topic channel topic => exact .quiet (handleTopic_quiet s uid out channel topic)
  | privmsg targets text => exact .quiet (deliver_quiet s uid out targets text _ _)
  | notice targets text => exact .quiet (deliver_quiet s uid out targets text _ _)
  | authenticate payload => exact .quiet (handleAuthenticate_quiet s uid out payload)
  | mode target changes args => exact .quiet (handleMode_quiet s uid target changes args)
  | ping _ _ | pong _ _ | quit _ | list _ _ | numeric _ _ => exact .quiet (.refl s)

end Dispatch

end RndRust.Irc.Server
