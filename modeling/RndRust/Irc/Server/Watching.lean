import RndRust.Irc.Server.Identity

/-! What users are told about the nicks they watch. `RPL_MONONLINE` and `RPL_MONOFFLINE` come
from MONITOR, from the rename of a registered user and from the end of a connection; every
other command is `Reticent`: it sends neither and leaves the watch lists alone. All but those of
the registration are `Discreet` too: they welcome nobody and leave the negotiation as it is. -/
namespace RndRust.Irc.Server
open Lib Proto

/-- Whether a text of nicks names `nick`, up to the casemapping. Nicks are sent as text. -/
def namesNick (text nick : Bytes) : Bool := (text.splitOn comma).any fun item => fold item == fold (fromUtf8Lossy nick)

/-- What a message says about a nick. -/
def statusOf (m : Message) (nick : Bytes) : Option Bool :=
  match m.verb, m.params.values with
  | .numeric code, [_, text] =>
    if code = 730 then if namesNick text nick then some true else none
    else if code = 731 then if namesNick text nick then some false else none
    else none
  | _, _ => none

/-- The message is no status. -/
def Silent (m : Message) : Prop := ∀ nick, statusOf m nick = none

section Messages

variable {s : ServerState} {target origin verb text : Bytes} {params : Params} {m : Message}

@[simp] theorem silent_numeric {code : ReplyCode} {middles : List Bytes} {trailing : Option Bytes}
    (other : code ≠ .rplMononline ∧ code ≠ .rplMonoffline) : Silent (numeric s target code middles trailing) := by
  have online : code.code ≠ 730 := by cases code <;> first | exact (other.1 rfl).elim | decide
  have offline : code.code ≠ 731 := by cases code <;> first | exact (other.2 rfl).elim | decide
  intro nick
  unfold statusOf
  split
  · rename_i same _
    cases same
    rw [if_neg online, if_neg offline]
  · rfl

@[simp] theorem silent_userLine : Silent (userLine origin verb params) := fun _ => rfl

@[simp] theorem silent_errorLine : Silent (errorLine text) := fun _ => rfl

@[simp] theorem silent_numericText {code : ReplyCode} (other : code ≠ .rplMononline ∧ code ≠ .rplMonoffline) :
    Silent (numericText s target code text) := silent_numeric other

@[simp] theorem silent_numericOne {code : ReplyCode} {middle : Bytes} (other : code ≠ .rplMononline ∧ code ≠ .rplMonoffline) :
    Silent (numericOne s target code middle text) := silent_numeric other

end Messages

/-- Nothing is said about a nick. -/
def Quieted (out : Outbox) : Prop := ∀ sent ∈ out, Silent sent.2

section Outboxes

variable {s : ServerState} {uid : UserId} {m : Message} {first later : Outbox}

@[simp] theorem quieted_nil : Quieted [] := by simp [Quieted]

@[simp] theorem quieted_cons : Quieted ((uid, m) :: later) ↔ Silent m ∧ Quieted later := by
  simp [Quieted]

@[simp] theorem quieted_append : Quieted (first ++ later) ↔ Quieted first ∧ Quieted later := by
  simp [Quieted, or_imp, forall_and]

theorem quieted_broadcast {recipients : List UserId} (silent : Silent m) : Quieted (broadcast s recipients m) := by
  intro sent listed
  obtain ⟨v, -, rfl⟩ := List.mem_map.mp listed
  exact silent

theorem quieted_map {ms : List Message} : Quieted (ms.map fun m => (uid, m)) ↔ ∀ m ∈ ms, Silent m := by
  simp [Quieted]

end Outboxes

/-- The message is neither a status nor the first line of a welcome. -/
def Plain (m : Message) : Prop :=
  m.verb ≠ .numeric 1 ∧ m.verb ≠ .numeric 730 ∧ m.verb ≠ .numeric 731

section PlainMessages

variable {s : ServerState} {uid : UserId} {target origin verb text : Bytes} {params : Params} {m : Message}

theorem Plain.silent (plain : Plain m) : Silent m := by
  intro nick
  unfold statusOf
  split
  · rename_i code _ _ same _
    have online : code ≠ 730 := fun is => plain.2.1 (same.trans (congrArg _ is))
    have offline : code ≠ 731 := fun is => plain.2.2 (same.trans (congrArg _ is))
    rw [if_neg online, if_neg offline]
  · rfl

@[simp] theorem plain_numeric {code : ReplyCode} {middles : List Bytes} {trailing : Option Bytes}
    (other : code ≠ .rplWelcome ∧ code ≠ .rplMononline ∧ code ≠ .rplMonoffline) :
    Plain (numeric s target code middles trailing) := by
  have codes : code.code ≠ 1 ∧ code.code ≠ 730 ∧ code.code ≠ 731 := by
    cases code <;> first | exact absurd other (by decide) | decide
  simpa [Plain, numeric] using codes

@[simp] theorem plain_numericText {code : ReplyCode}
    (other : code ≠ .rplWelcome ∧ code ≠ .rplMononline ∧ code ≠ .rplMonoffline) :
    Plain (numericText s target code text) := plain_numeric other

@[simp] theorem plain_numericOne {code : ReplyCode} {middle : Bytes}
    (other : code ≠ .rplWelcome ∧ code ≠ .rplMononline ∧ code ≠ .rplMonoffline) :
    Plain (numericOne s target code middle text) := plain_numeric other

@[simp] theorem plain_userLine : Plain (userLine origin verb params) := by simp [Plain, userLine]

@[simp] theorem plain_serverLine : Plain (serverLine s verb params) := by simp [Plain, serverLine]

@[simp] theorem plain_errorLine : Plain (errorLine text) := by simp [Plain, errorLine]

@[simp] theorem plain_maybeAddTime {out : Outside} {user : UserInner} :
    Plain (maybeAddTime out user m) ↔ Plain m := by
  unfold maybeAddTime
  split <;> rfl

theorem plain_broadcast {recipients : List UserId} (plain : Plain m) :
    ∀ sent ∈ broadcast s recipients m, Plain sent.2 := List.forall_mem_map.mpr fun _ _ => plain

theorem plain_emitError {emit : Bool} (plain : Plain m) : ∀ sent ∈ emitError emit uid m, Plain sent.2 := by
  unfold emitError
  split <;> simp [plain]

end PlainMessages

/-- A handler of `uid` that says nothing about a nick and keeps the watch list of `uid`. -/
structure Reticent (s : ServerState) (uid : UserId) (e : Effect) : Prop where
  quieted : Quieted e.out
  list : (e.state.objects uid).monitorList = (s.objects uid).monitorList

/-- A handler of `uid` that says nothing about a nick, welcomes nobody and keeps the watch list of
`uid` and its negotiation. -/
structure Discreet (s : ServerState) (uid : UserId) (e : Effect) : Prop where
  plain : ∀ sent ∈ e.out, Plain sent.2
  list : (e.state.objects uid).monitorList = (s.objects uid).monitorList
  negotiation : (e.state.objects uid).capNegotiating = (s.objects uid).capNegotiating

theorem Discreet.reticent {s : ServerState} {uid : UserId} {e : Effect} (discreet : Discreet s uid e) :
    Reticent s uid e := ⟨fun sent told => (discreet.plain sent told).silent, discreet.list⟩

namespace Discreet

variable {s : ServerState} {uid : UserId} {m : Message} {e : Effect}

theorem reply (plain : Plain m) : Discreet s uid (.reply s uid m) := ⟨by simpa using plain, rfl, rfl⟩

theorem rest (s : ServerState) (uid : UserId) : Discreet s uid { state := s } := ⟨by simp, rfl, rfl⟩

theorem ensureRegistered {handler : Effect} (discreet : Discreet s uid handler) :
    Discreet s uid (ensureRegistered s uid handler) := by
  unfold Server.ensureRegistered
  split
  · exact discreet
  · exact reply (plain_numeric (by decide))

theorem operCommand {priv : Privilege} {name : Bytes} {arity : ℕ} {params : Params} {handler : Effect}
    (discreet : Discreet s uid handler) : Discreet s uid (operCommand s uid priv name arity params handler) := by
  refine ensureRegistered ?_
  dsimp only
  split
  · exact reply (plain_numeric (by decide))
  · split
    · exact reply (plain_numeric (by decide))
    · exact discreet

theorem forEach {α : Type} {body : ServerState → α → Effect} {xs : List α} (each : ∀ s x, Discreet s uid (body s x)) :
    Discreet s uid (Effect.forEach body s xs) := by
  induction xs generalizing s with
  | nil => exact rest s uid
  | cons x xs ih =>
    have first := each s x
    have later := ih (s := (body s x).state)
    refine ⟨List.forall_mem_append.mpr ⟨first.plain, later.plain⟩, later.list.trans first.list, ?_⟩
    exact later.negotiation.trans first.negotiation

/-- A change of the user that keeps its watch list and its negotiation, in front. -/
theorem modifyUser {f : UserInner → UserInner}
    (kept : ∀ user, (f user).monitorList = user.monitorList ∧ (f user).capNegotiating = user.capNegotiating)
    (discreet : Discreet (s.modifyUser uid f) uid e) : Discreet s uid e where
  plain := discreet.plain
  list := discreet.list.trans (by simpa [ServerState.modifyUser] using (kept _).1)
  negotiation := discreet.negotiation.trans (by simpa [ServerState.modifyUser] using (kept _).2)

theorem of_objects (plain : ∀ sent ∈ e.out, Plain sent.2) (same : e.state.objects = s.objects) : Discreet s uid e :=
  ⟨plain, by rw [same], by rw [same]⟩

end Discreet

section Handlers

variable (s : ServerState) (uid : UserId) (out : Outside)

theorem handleCapReq_discreet (args : List Bytes) : Discreet s uid (handleCapReq s uid args) := by
  unfold handleCapReq
  dsimp only
  split
  · exact .reply plain_serverLine
  · refine .modifyUser ?_ (.reply plain_serverLine)
    intro user
    exact ⟨rfl, rfl⟩

theorem handlePass_discreet (password : Bytes) : Discreet s uid (handlePass s uid password) := by
  unfold handlePass
  split
  · exact .rest s uid
  · refine .modifyUser ?_ (.rest _ uid)
    intro user
    exact ⟨rfl, rfl⟩

theorem topicReplies_plain (nick chan : Bytes) (topic : Topic) : ∀ m ∈ topicReplies s nick chan topic, Plain m := by
  intro m listed
  simp only [topicReplies, List.mem_cons, List.not_mem_nil, or_false] at listed
  rcases listed with rfl | rfl <;> exact plain_numeric (by decide)

theorem namesReplies_plain (nick channel : Bytes) : ∀ m ∈ namesReplies s nick channel, Plain m := by
  intro m listed
  unfold namesReplies at listed
  split at listed
  · rw [List.mem_singleton.mp listed]
    exact plain_numeric (by decide)
  · simp only [List.mem_cons, List.not_mem_nil, or_false] at listed
    rcases listed with rfl | rfl <;> exact plain_numeric (by decide)

theorem joinBody_discreet (raw : Bytes) : Discreet s uid (joinBody uid s raw) := by
  have objects : (joinBody uid s raw).state.objects = s.objects := by
    rcases joinBody_state s uid raw with ⟨-, same⟩ | ⟨-, mode, same⟩ <;> rw [same]
    rfl
  refine .of_objects ?_ objects
  unfold joinBody
  split
  · unfold joinOne
    dsimp only
    split
    · simp
    · refine List.forall_mem_append.mpr ⟨plain_broadcast plain_userLine, List.forall_mem_map.mpr fun m listed => ?_⟩
      rcases List.mem_append.mp listed with topic | names
      · split at topic
        · exact topicReplies_plain _ _ _ _ m topic
        · cases topic
      · exact namesReplies_plain _ _ _ m names
  · simp

theorem partBody_discreet (origin : Bytes) (reason : Option Bytes) (raw : Bytes) :
    Discreet s uid (partBody uid origin reason s raw) := by
  unfold partBody
  split
  · exact .reply (plain_numeric (by decide))
  · split
    · exact .of_objects (plain_broadcast plain_userLine) (by simp [ServerState.setChannel])
    · exact .reply (plain_numeric (by decide))

theorem handleTopic_discreet (channel : Bytes) (newTopic : Option Bytes) :
    Discreet s uid (handleTopic s uid out channel newTopic) := by
  refine .ensureRegistered ?_
  split
  · exact .reply (plain_numeric (by decide))
  · dsimp only
    split
    · split
      · exact ⟨List.forall_mem_map.mpr (topicReplies_plain _ _ _ _), rfl, rfl⟩
      · exact .reply (plain_numeric (by decide))
    · split
      · exact ⟨plain_broadcast plain_userLine, rfl, rfl⟩
      · exact .reply (plain_numeric (by decide))

theorem deliverTo_plain (origin text verb : Bytes) (emitErrors : Bool) (target : Bytes) :
    ∀ sent ∈ deliverTo s uid out origin text verb emitErrors target, Plain sent.2 := by
  unfold deliverTo
  split
  · unfold deliverToChannel
    split
    · exact plain_emitError (plain_numeric (by decide))
    · split
      · refine List.forall_mem_append.mpr ⟨plain_broadcast plain_userLine, ?_⟩
        split <;> simp [messageLine]
      · exact plain_emitError (plain_numeric (by decide))
  · unfold deliverToUser
    split
    · exact plain_emitError (plain_numeric (by decide))
    · simp [messageLine]

theorem deliver_discreet (targets : List Bytes) (text verb : Bytes) (emitErrors : Bool) :
    Discreet s uid (deliver s uid out targets text verb emitErrors) := by
  unfold deliver
  dsimp only
  split
  · refine ⟨fun sent listed => ?_, rfl, rfl⟩
    obtain ⟨target, -, told⟩ := List.mem_flatMap.mp listed
    exact deliverTo_plain s uid out _ text verb emitErrors target sent told
  · exact ⟨plain_emitError (plain_numeric (by decide)), rfl, rfl⟩

theorem applyUserModes_own (changes : List ModeChange) (user : UserInner) :
    (changes.foldl applyUserMode user).monitorList = user.monitorList ∧
      (changes.foldl applyUserMode user).capNegotiating = user.capNegotiating := by
  induction changes generalizing user with
  | nil => exact ⟨rfl, rfl⟩
  | cons ch rest ih =>
    rw [List.foldl_cons, (ih _).1, (ih _).2]
    unfold applyUserMode
    repeat' split
    all_goals exact ⟨rfl, rfl⟩

theorem handleMode_discreet (target : Bytes) (changes : Option Bytes) (args : List Bytes) :
    Discreet s uid (handleMode s uid target changes args) := by
  refine .ensureRegistered ?_
  split
  · unfold handleChannelMode
    dsimp only
    split
    · exact .reply (plain_numeric (by decide))
    · split
      · exact .reply (plain_numeric (by decide))
      · refine .of_objects ?_ (applyChannelModes_objects s uid _ _ _ _)
        unfold applyChannelModes
        dsimp only
        split
        · split
          · simp
          · exact plain_broadcast plain_userLine
        · simp
  · unfold handleUserMode
    dsimp only
    split
    · cases changes with
      | none => exact .reply plain_serverLine
      | some changes =>
        exact .modifyUser (f := fun user => (parseUserModes changes).foldl applyUserMode user) (applyUserModes_own _)
          (.reply plain_serverLine)
    · exact .reply (plain_numeric (by decide))

theorem accountReply_discreet {code : ReplyCode} (text : Bytes)
    (other : code ≠ .rplWelcome ∧ code ≠ .rplMononline ∧ code ≠ .rplMonoffline) :
    Discreet s uid (accountReply s uid code text) := .reply (plain_numeric other)

theorem handleRegister_discreet (accountName email password : Bytes) :
    Discreet s uid (handleRegister s uid out accountName email password) := by
  unfold handleRegister
  repeat' split
  all_goals exact accountReply_discreet s uid _ (by decide)

theorem accountNotify_plain (account : Bytes) : ∀ sent ∈ accountNotify s uid account, Plain sent.2 :=
  plain_broadcast plain_userLine

theorem handleVerify_discreet (accountName token : Bytes) : Discreet s uid (handleVerify s uid out accountName token) := by
  unfold handleVerify
  repeat' split
  · exact accountReply_discreet s uid _ (by decide)
  · exact accountReply_discreet s uid _ (by decide)
  · refine .modifyUser (f := fun user => { user with account := some _ }) (fun _ => ⟨rfl, rfl⟩) ⟨?_, rfl, rfl⟩
    exact List.forall_mem_append.mpr ⟨accountNotify_plain _ uid _, by simp [accountReply, setAccount]⟩
  · exact accountReply_discreet s uid _ (by decide)
  · exact accountReply_discreet s uid _ (by decide)

theorem saslFail_discreet (text : Bytes) : Discreet s uid (saslFail s uid text) :=
  .modifyUser (f := fun user => { user with saslMechanism := none }) (fun _ => ⟨rfl, rfl⟩)
    ⟨by simp [saslFail, accountReply], rfl, rfl⟩

theorem saslLogin_discreet (account : Bytes) : Discreet s uid (saslLogin s uid account) := by
  refine .modifyUser (f := fun user => { user with account := some account }) (fun _ => ⟨rfl, rfl⟩) ?_
  refine .modifyUser (f := fun user => { user with saslMechanism := none }) (fun _ => ⟨rfl, rfl⟩) ⟨?_, rfl, rfl⟩
  exact List.forall_mem_append.mpr ⟨accountNotify_plain _ uid _, by simp⟩

theorem handleAuthenticate_discreet (payload : Bytes) : Discreet s uid (handleAuthenticate s uid out payload) := by
  unfold handleAuthenticate
  split
  · dsimp only
    refine .modifyUser ?_ (.reply plain_serverLine)
    intro user
    exact ⟨rfl, rfl⟩
  split
  · unfold handlePlain
    repeat' split
    all_goals first | apply saslFail_discreet | apply saslLogin_discreet
  split
  · unfold handleExternal
    repeat' split
    all_goals first | apply saslFail_discreet | apply saslLogin_discreet
  · exact saslFail_discreet s uid _

theorem operRefusal_code {user : UserInner} {block : OperBlock} {password text : Bytes} {code : ReplyCode}
    (refused : operRefusal s user block password = some (code, text)) : code = .errPasswdmismatch ∨ code = .errNooperhost := by
  unfold operRefusal at refused
  repeat' split at refused
  all_goals cases refused
  · exact .inl rfl
  · exact .inr rfl
  · exact .inr rfl

theorem handleOper_discreet (params : Params) : Discreet s uid (handleOper s uid params) := by
  refine .ensureRegistered ?_
  dsimp only
  split
  · split
    · exact .reply (plain_numeric (by decide))
    · split
      · rename_i refused
        rcases operRefusal_code s refused with rfl | rfl <;> exact .reply (plain_numeric (by decide))
      · exact ⟨by simp, by simp [ServerState.modifyUser], by simp [ServerState.modifyUser]⟩
  · exact .reply (plain_numeric (by decide))

theorem handleKill_discreet (params : Params) : Discreet s uid (handleKill s uid params) := by
  refine .operCommand ?_
  dsimp only
  split
  · exact .reply (plain_numeric (by decide))
  · rename_i target found
    have objects :
        (killUser s target (killReason (s.objects uid).nickOrStar (params.values.getD 1 []))).state.objects = s.objects :=
      (removeUser_rest _ target).1.trans (purge_rest s target).2.2.1
    exact .of_objects (List.forall_mem_cons.mpr ⟨plain_errorLine, plain_broadcast plain_userLine⟩) objects

theorem handleKline_discreet (params : Params) : Discreet s uid (handleKline s uid out params) :=
  .operCommand ⟨by simp [noticeLine], rfl, rfl⟩

theorem handleUnkline_discreet (params : Params) : Discreet s uid (handleUnkline s uid params) :=
  .operCommand ⟨by simp [noticeLine], rfl, rfl⟩

theorem handleShowhost_discreet (params : Params) : Discreet s uid (handleShowhost s uid params) := by
  refine .operCommand ?_
  dsimp only
  split
  · exact .reply (plain_numeric (by decide))
  · exact .reply plain_serverLine

theorem needMoreParams_discreet (command : Bytes) : Discreet s uid (needMoreParams s uid command) :=
  .reply (plain_numeric (by decide))

/-- Commands without a typed form, MONITOR apart. -/
theorem dispatchUnknown_discreet (verb : Bytes) (params : Params) (other : verb ≠ ascii "MONITOR") :
    Discreet s uid (dispatchUnknown s uid out verb params) := by
  unfold dispatchUnknown
  split
  · split
    · exact handleRegister_discreet s uid out _ _ _
    · exact needMoreParams_discreet s uid _
  split
  · split
    · exact handleVerify_discreet s uid out _ _
    · exact needMoreParams_discreet s uid _
  split
  · exact handleOper_discreet s uid params
  split
  · exact handleKill_discreet s uid params
  split
  · exact handleKline_discreet s uid out params
  split
  · exact handleUnkline_discreet s uid params
  split
  · exact handleShowhost_discreet s uid params
  · exact .reply (plain_numeric (by decide))

/-- Every command but those of the registration and MONITOR. -/
theorem dispatchTyped_discreet (cmd : Command) (noNick : ∀ nick, cmd ≠ .nick nick)
    (noUser : ∀ user mode realname, cmd ≠ .user user mode realname)
    (noCap : ∀ subcommand args, cmd ≠ .cap subcommand args)
    (noMonitor : ∀ params, cmd ≠ .unknown (ascii "MONITOR") params) : Discreet s uid (dispatchTyped s uid out cmd) := by
  cases cmd with
  | nick nick => exact (noNick nick rfl).elim
  | user user mode realname => exact (noUser user mode realname rfl).elim
  | cap subcommand args => exact (noCap subcommand args rfl).elim
  | unknown verb params =>
    refine dispatchUnknown_discreet s uid out verb params ?_
    rintro rfl
    exact noMonitor params rfl
  | join channels keys => exact .ensureRegistered (.forEach fun s raw => joinBody_discreet s uid raw)
  | part channels reason => exact .ensureRegistered (.forEach fun s raw => partBody_discreet s uid _ reason raw)
  | pass password => exact handlePass_discreet s uid password
  | ping token _ => exact .reply plain_serverLine
  | topic channel topic => exact handleTopic_discreet s uid out channel topic
  | privmsg targets text => exact deliver_discreet s uid out targets text _ _
  | notice targets text => exact deliver_discreet s uid out targets text _ _
  | authenticate payload => exact handleAuthenticate_discreet s uid out payload
  | mode target changes args => exact handleMode_discreet s uid target changes args
  | quit _ => exact ⟨by simp [dispatchTyped, handleQuit], rfl, rfl⟩
  | pong _ _ | list _ _ | numeric _ _ => exact .rest s uid

theorem welcomeBurst_silent (nick : Bytes) : ∀ m ∈ welcomeBurst s nick, Silent m := by
  intro m listed
  simp only [welcomeBurst, motdReplies] at listed
  rcases List.mem_append.mp listed with numerics | motd
  · simp only [List.mem_cons, List.not_mem_nil, or_false] at numerics
    rcases numerics with rfl | rfl | rfl | rfl | rfl | rfl <;> exact silent_numeric (by decide)
  · split at motd
    · rw [List.mem_singleton.mp motd]
      exact silent_numeric (by decide)
    · simp only [List.mem_append, List.mem_cons, List.mem_map, List.not_mem_nil, or_false] at motd
      rcases motd with (rfl | ⟨line, -, rfl⟩) | rfl <;> exact silent_numeric (by decide)

theorem maybeFinalize_reticent : Reticent s uid (maybeFinalize s uid) := by
  unfold maybeFinalize
  dsimp only
  split
  · refine ⟨quieted_map.mpr (welcomeBurst_silent _ _), ?_⟩
    simp [ServerState.modifyUser]
  · exact (Discreet.rest s uid).reticent

variable {s uid} in
/-- A change of the user that keeps its watch list, in front. -/
theorem Reticent.modifyUser {f : UserInner → UserInner} {e : Effect} (kept : ∀ user, (f user).monitorList = user.monitorList)
    (reticent : Reticent (s.modifyUser uid f) uid e) : Reticent s uid e where
  quieted := reticent.quieted
  list := reticent.list.trans (by simpa [ServerState.modifyUser] using kept _)

theorem handleCap_reticent (subcommand : CapSub) (args : List Bytes) : Reticent s uid (handleCap s uid subcommand args) := by
  cases subcommand with
  | ls =>
    exact .modifyUser (f := fun user => { user with capNegotiating := true }) (fun _ => rfl)
      (Discreet.reply plain_serverLine).reticent
  | req =>
    exact .modifyUser (f := fun user => { user with capNegotiating := true }) (fun _ => rfl)
      (handleCapReq_discreet _ uid args).reticent
  | done =>
    exact .modifyUser (f := fun user => { user with capNegotiating := false }) (fun _ => rfl) (maybeFinalize_reticent _ uid)
  | list => exact (Discreet.reply plain_serverLine).reticent
  | ack | nak | new | del | other _ => exact (Discreet.rest s uid).reticent

theorem handleUser_reticent (userName realname : Bytes) : Reticent s uid (handleUser s uid userName realname) := by
  unfold handleUser
  split
  · exact (Discreet.reply (plain_numeric (by decide))).reticent
  · refine .modifyUser ?_ (maybeFinalize_reticent _ uid)
    intro user
    rfl

/-- Every command but NICK and MONITOR. -/
theorem dispatchTyped_reticent (cmd : Command) (noNick : ∀ nick, cmd ≠ .nick nick)
    (noMonitor : ∀ params, cmd ≠ .unknown (ascii "MONITOR") params) : Reticent s uid (dispatchTyped s uid out cmd) := by
  by_cases user : ∃ userName mode realname, cmd = .user userName mode realname
  · obtain ⟨userName, mode, realname, rfl⟩ := user
    exact handleUser_reticent s uid userName realname
  by_cases cap : ∃ subcommand args, cmd = .cap subcommand args
  · obtain ⟨subcommand, args, rfl⟩ := cap
    exact handleCap_reticent s uid subcommand args
  · exact (dispatchTyped_discreet s uid out cmd noNick (by simpa using user) (by simpa using cap) noMonitor).reticent

end Handlers

end RndRust.Irc.Server
