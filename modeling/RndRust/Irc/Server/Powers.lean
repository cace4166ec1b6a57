import RndRust.Irc.Server.Statuses
import RndRust.Lib.Runs

/-! Who may do what, and since when. A command confers a standing on the user that sent it, sets or lifts a
ban, or does none of it; every power a user has at the end of a run goes back to the command that gave it. -/
namespace RndRust.Irc.Server
open Lib Proto

/-- What a user is known to be: an operator of a class, and the owner of an account. -/
def UserInner.standing (user : UserInner) : Bool × Option Bytes × Option Bytes :=
  (user.isOper, user.operClass, user.account)

/-- No standing, no ban and no setting changes, and nobody comes or goes. -/
structure Bland (s t : ServerState) : Prop where
  standing : ∀ v, (t.objects v).standing = (s.objects v).standing
  users : t.users = s.users
  klines : t.klines = s.klines
  config : t.config = s.config
  crates : t.crates = s.crates

namespace Bland

variable {s t r : ServerState} {uid : UserId} {name nick : Bytes}

theorem refl (s : ServerState) : Bland s s := ⟨fun _ => rfl, rfl, rfl, rfl, rfl⟩

theorem trans (first : Bland s t) (second : Bland t r) : Bland s r where
  standing v := (second.standing v).trans (first.standing v)
  users := second.users.trans first.users
  klines := second.klines.trans first.klines
  config := second.config.trans first.config
  crates := second.crates.trans first.crates

theorem modifyUser {f : UserInner → UserInner} (kept : ∀ user, (f user).standing = user.standing) :
    Bland s (s.modifyUser uid f) where
  standing v := by
    by_cases same : v = uid
    · subst same
      simpa [ServerState.modifyUser] using kept _
    · simp [ServerState.modifyUser, same]
  users := rfl
  klines := rfl
  config := rfl
  crates := rfl

theorem setChannel {c : Channel} : Bland s (s.setChannel name c) := ⟨fun _ => rfl, rfl, rfl, rfl, rfl⟩

theorem removeEmptyChannel : Bland s (s.removeEmptyChannel name) := by
  unfold ServerState.removeEmptyChannel
  repeat' split
  all_goals exact ⟨fun _ => rfl, rfl, rfl, rfl, rfl⟩

theorem purge : Bland s (s.purgeUserFromChannels uid) := by
  have emptied : ∀ (names : List Bytes) (t : ServerState), Bland t (names.foldl ServerState.removeEmptyChannel t) := by
    intro names
    induction names with
    | nil => exact refl
    | cons name rest ih => exact fun t => (removeEmptyChannel (s := t)).trans (ih _)
  unfold ServerState.purgeUserFromChannels
  dsimp only
  refine trans ?_ (emptied _ _)
  exact ⟨fun _ => rfl, rfl, rfl, rfl, rfl⟩

theorem releaseNick : Bland s (s.releaseNick uid nick) := by
  unfold ServerState.releaseNick
  split
  · exact ⟨fun _ => rfl, rfl, rfl, rfl, rfl⟩
  · exact refl s

theorem claimNick {claimed : ServerState} (ok : s.claimNick uid nick = .ok claimed) : Bland s claimed := by
  unfold ServerState.claimNick at ok
  repeat' split at ok
  all_goals cases ok
  · exact refl s
  · exact (releaseNick (s := s)).trans ⟨fun _ => rfl, rfl, rfl, rfl, rfl⟩
  · exact ⟨fun _ => rfl, rfl, rfl, rfl, rfl⟩

theorem removeUser : Bland { s with users := s.users.filter (· ≠ uid) } (s.removeUser uid) := by
  unfold ServerState.removeUser
  split
  · dsimp only
    split
    · exact .releaseNick
    · exact refl _
  · rename_i absent
    refine ⟨fun _ => rfl, ?_, rfl, rfl, rfl⟩
    exact (List.filter_eq_self.mpr fun v live => by simpa using ne_of_mem_of_not_mem live absent).symm

theorem ensureRegistered {handler : Effect} (bland : Bland s handler.state) :
    Bland s (ensureRegistered s uid handler).state := by
  unfold Server.ensureRegistered
  split
  · exact bland
  · exact refl s

theorem forEach {α : Type} {body : ServerState → α → Effect} {xs : List α}
    (each : ∀ s x, Bland s (body s x).state) : Bland s (Effect.forEach body s xs).state :=
  Effect.forEach_preserves (Bland s) (fun t x _ bland => bland.trans (each t x)) (refl s)

end Bland

section Handlers

variable (s : ServerState) (uid : UserId) (out : Outside)

theorem maybeFinalize_bland : Bland s (maybeFinalize s uid).state := by
  unfold maybeFinalize
  dsimp only
  split
  · dsimp only
    apply Bland.modifyUser
    intro user
    rfl
  · exact .refl s

theorem handleCap_bland (subcommand : CapSub) (args : List Bytes) : Bland s (handleCap s uid subcommand args).state := by
  have negotiating : ∀ v, Bland s (s.modifyUser uid fun user => { user with capNegotiating := v }) :=
    fun _ => .modifyUser fun _ => rfl
  cases subcommand with
  | ls => exact negotiating true
  | done => exact (negotiating false).trans (maybeFinalize_bland _ uid)
  | req =>
    refine (negotiating true).trans ?_
    rw [handleCap, handleCapReq]
    dsimp only
    split
    · exact .refl _
    · rw [Effect.reply_state]
      apply Bland.modifyUser
      intro user
      rfl
  | list | ack | nak | new | del | other _ => exact .refl s

theorem handleNick_bland (nick : Bytes) : Bland s (handleNick s uid nick).state := by
  unfold handleNick
  split
  · exact .refl s
  split
  · exact .refl s
  cases claim : s.claimNick uid nick with
  | error _ => exact .refl s
  | ok claimed =>
    have named : Bland s (claimed.modifyUser uid fun user => { user with nick := some nick }) :=
      (Bland.claimNick claim).trans (.modifyUser fun _ => rfl)
    dsimp only
    split
    · split <;> exact named
    · exact named.trans (maybeFinalize_bland _ uid)

theorem handleUser_bland (userName realname : Bytes) : Bland s (handleUser s uid userName realname).state := by
  unfold handleUser
  split
  · exact .refl s
  · refine Bland.trans ?_ (maybeFinalize_bland _ uid)
    apply Bland.modifyUser
    intro user
    rfl

theorem handlePass_bland (password : Bytes) : Bland s (handlePass s uid password).state := by
  unfold handlePass
  dsimp only
  split
  · exact .refl s
  · exact .modifyUser fun _ => rfl

theorem joinBody_bland (raw : Bytes) : Bland s (joinBody uid s raw).state := by
  rcases joinBody_state s uid raw with ⟨-, same⟩ | ⟨-, mode, same⟩ <;> rw [same]
  · exact .refl s
  · exact .setChannel

theorem partBody_bland (origin : Bytes) (reason : Option Bytes) (raw : Bytes) :
    Bland s (partBody uid origin reason s raw).state := by
  rcases partBody_state s uid origin reason raw with same | ⟨c, -, same⟩ <;> rw [same]
  · exact .refl s
  · exact Bland.setChannel.trans .removeEmptyChannel

theorem handleTopic_bland (channel : Bytes) (newTopic : Option Bytes) :
    Bland s (handleTopic s uid out channel newTopic).state := by
  refine .ensureRegistered ?_
  repeat' split
  all_goals first | exact .refl s | exact .setChannel

theorem deliver_bland (targets : List Bytes) (text verb : Bytes) (emitErrors : Bool) :
    Bland s (deliver s uid out targets text verb emitErrors).state := by
  unfold deliver
  dsimp only
  split <;> exact .refl s

theorem applyUserModes_standing (changes : List ModeChange) (user : UserInner) :
    (changes.foldl applyUserMode user).standing = user.standing := by
  induction changes generalizing user with
  | nil => rfl
  | cons ch rest ih =>
    rw [List.foldl_cons, ih]
    unfold applyUserMode
    repeat' split
    all_goals rfl

theorem handleMode_bland (target : Bytes) (changes : Option Bytes) (args : List Bytes) :
    Bland s (handleMode s uid target changes args).state := by
  refine .ensureRegistered ?_
  split
  · unfold handleChannelMode
    dsimp only
    split
    · exact .refl s
    split
    · exact .refl s
    · unfold applyChannelModes
      dsimp only
      split
      · split <;> exact .setChannel
      · exact .refl s
  · unfold handleUserMode
    dsimp only
    split
    · cases changes with
      | none => exact .refl s
      | some changes => exact .modifyUser fun user => applyUserModes_standing _ user
    · exact .refl s

theorem handleMonitor_bland (params : Params) : Bland s (handleMonitor s uid params).state := by
  refine .ensureRegistered ?_
  have add : ∀ targets, Bland s (monitorAdd s uid targets).state := by
    intro targets
    unfold monitorAdd
    dsimp only
    split
    · exact .refl s
    · dsimp only
      apply Bland.modifyUser
      intro user
      rfl
  have remove : ∀ targets, Bland s (monitorRemove s uid targets).state := by
    intro targets
    unfold monitorRemove
    dsimp only
    apply Bland.modifyUser
    intro user
    rfl
  have clear : Bland s (s.modifyUser uid fun user => { user with monitorList := [] }) := by
    apply Bland.modifyUser
    intro user
    rfl
  repeat' split
  all_goals first | exact add _ | exact remove _ | exact .refl s | exact clear

theorem handleRegister_bland (account email password : Bytes) :
    Bland s (handleRegister s uid out account email password).state := by
  unfold handleRegister
  repeat' split
  all_goals exact .refl s

end Handlers

/-- What an operator block asks for is shown: the password, a host, an account. -/
theorem operRefusal_eq_none {s : ServerState} {user : UserInner} {block : OperBlock} {password : Bytes} :
    operRefusal s user block password = none ↔ s.crates.verifyPassword block.passwordHash password ∧
      (block.allowedHosts ≠ [] → ∃ mask ∈ block.allowedHosts, globMatch mask (fromUtf8Lossy user.host)) ∧
      ∀ account ∈ block.requireAccount, user.account = some account := by
  unfold operRefusal
  split
  · simp_all
  split
  · simp_all
  · cases account : block.requireAccount <;> simp_all

/-- How a command of `uid` shows that it owns an account: with the token of its registration, with its
password, or with its certificate. -/
inductive Proves (s : ServerState) (uid : UserId) (out : Outside) : Command → Bytes → Prop
  | token {name token : Bytes} {rest : List Bytes} {trailing : Bool} (valid : out.verified = .ok true) :
      Proves s uid out (.unknown (ascii "VERIFY") ⟨name :: token :: rest, trailing⟩) name
  | password {payload decoded authzid authcid passwd : Bytes} {account : AccountRow}
      (credential : ¬(eqIgnoreAsciiCase payload (ascii "PLAIN") ∨ eqIgnoreAsciiCase payload (ascii "EXTERNAL")))
      (opened : (s.objects uid).saslMechanism = some (ascii "PLAIN")) (encoded : s.crates.decodeBase64 payload = some decoded)
      (parts : plainParts decoded = some (authzid, authcid, passwd)) (user : fromUtf8 authcid ≠ none)
      (text : fromUtf8 passwd ≠ none) (found : out.account = .ok (some account)) (verified : account.verified)
      (valid : s.crates.verifyPassword account.passwordHash passwd) :
      Proves s uid out (.authenticate payload) account.name
  | certificate {payload fp : Bytes} {account : AccountRow}
      (credential : ¬(eqIgnoreAsciiCase payload (ascii "PLAIN") ∨ eqIgnoreAsciiCase payload (ascii "EXTERNAL")))
      (opened : (s.objects uid).saslMechanism = some (ascii "EXTERNAL")) (shown : (s.objects uid).certFingerprint = some fp)
      (found : out.account = .ok (some account)) (verified : account.verified) :
      Proves s uid out (.authenticate payload) account.name

/-- What a command of `uid` leaves: the powers it confers, or none. -/
inductive Confers (s : ServerState) (uid : UserId) (out : Outside) : Command → ServerState → Prop
  | bland {cmd : Command} {t : ServerState} (same : Bland s t) : Confers s uid out cmd t
  | opers {name password : Bytes} {rest : List Bytes} {trailing : Bool} {block : OperBlock}
      (registered : (s.objects uid).registered)
      (found : s.config.opers.find? (·.name = fromUtf8Lossy name) = some block)
      (passed : operRefusal s (s.objects uid) block (fromUtf8Lossy password) = none) :
      Confers s uid out (.unknown (ascii "OPER") ⟨name :: password :: rest, trailing⟩)
        (s.modifyUser uid fun user => { user with isOper := true, operClass := some block.operClass })
  | logsIn {cmd : Command} {account : Bytes} {t : ServerState} (proved : Proves s uid out cmd account)
      (same : Bland (setAccount s uid account) t) : Confers s uid out cmd t
  | bans {params : Params} {kline : Kline} (may : hasPrivilege s uid .kline) :
      Confers s uid out (.unknown (ascii "KLINE") params) (s.addKline kline)
  | unbans {params : Params} {mask : Bytes} (may : hasPrivilege s uid .kline) :
      Confers s uid out (.unknown (ascii "UNKLINE") params) (s.removeKline mask).1
  | kills {params : Params} {target : UserId} (may : hasPrivilege s uid .kill) :
      Confers s uid out (.unknown (ascii "KILL") params) ((s.purgeUserFromChannels target).removeUser target)

section Conferring

variable (s : ServerState) (uid : UserId) (out : Outside)

theorem fromUtf8_eq {bytes text : Bytes} (valid : fromUtf8 bytes = some text) : text = bytes := by
  unfold fromUtf8 at valid
  split at valid
  · exact (Option.some.inj valid).symm
  · cases valid

theorem handleVerify_confers (name token : Bytes) (rest : List Bytes) (trailing : Bool) :
    Confers s uid out (.unknown (ascii "VERIFY") ⟨name :: token :: rest, trailing⟩)
      (handleVerify s uid out name token).state := by
  unfold handleVerify
  cases text : fromUtf8 name with
  | none => exact .bland (.refl s)
  | some text' =>
    obtain rfl := fromUtf8_eq text
    dsimp only
    split
    · exact .bland (.refl s)
    · cases valid : out.verified with
      | error _ => exact .bland (.refl s)
      | ok accepted =>
        cases accepted with
        | false => exact .bland (.refl s)
        | true => exact .logsIn (.token valid) (.refl _)

theorem clearMechanism_bland : Bland s (clearMechanism s uid) := by
  apply Bland.modifyUser
  intro user
  rfl

theorem handlePlain_confers {payload : Bytes}
    (credential : ¬(eqIgnoreAsciiCase payload (ascii "PLAIN") ∨ eqIgnoreAsciiCase payload (ascii "EXTERNAL")))
    (opened : (s.objects uid).saslMechanism = some (ascii "PLAIN")) :
    Confers s uid out (.authenticate payload) (handlePlain s uid out payload).state := by
  have fails : Confers s uid out (.authenticate payload) (clearMechanism s uid) := .bland (clearMechanism_bland s uid)
  unfold handlePlain
  split
  · exact fails
  rename_i decoded encoded
  split
  · exact fails
  rename_i authzid authcid passwd parts
  split
  · exact fails
  rename_i user
  split
  · exact fails
  rename_i text
  split
  · rename_i account found
    split
    · exact fails
    rename_i verified
    split
    · rename_i valid
      refine .logsIn (.password credential opened encoded parts ?_ ?_ found ?_ valid) (clearMechanism_bland _ uid)
      · simpa using user
      · simpa using text
      · simpa using verified
    · exact fails
  · exact fails

theorem handleExternal_confers {payload : Bytes}
    (credential : ¬(eqIgnoreAsciiCase payload (ascii "PLAIN") ∨ eqIgnoreAsciiCase payload (ascii "EXTERNAL")))
    (opened : (s.objects uid).saslMechanism = some (ascii "EXTERNAL")) :
    Confers s uid out (.authenticate payload) (handleExternal s uid out).state := by
  have fails : Confers s uid out (.authenticate payload) (clearMechanism s uid) := .bland (clearMechanism_bland s uid)
  unfold handleExternal
  split
  · exact fails
  rename_i shown
  obtain ⟨fp, shown⟩ := Option.ne_none_iff_exists'.mp (by simpa using shown)
  split
  · rename_i account found
    split
    · rename_i verified
      exact .logsIn (.certificate credential opened shown found verified) (clearMechanism_bland _ uid)
    · exact fails
  · exact fails

theorem handleAuthenticate_confers (payload : Bytes) :
    Confers s uid out (.authenticate payload) (handleAuthenticate s uid out payload).state := by
  unfold handleAuthenticate
  split
  · refine .bland ?_
    rw [Effect.reply_state]
    apply Bland.modifyUser
    intro user
    rfl
  rename_i credential
  split
  · rename_i opened
    exact handlePlain_confers s uid out credential opened
  split
  · rename_i opened
    exact handleExternal_confers s uid out credential opened
  · exact .bland (clearMechanism_bland s uid)

/-- An operator command does something only for a user that holds its privilege. -/
theorem operCommand_confers {priv : Privilege} {cmd : Command} {name : Bytes} {arity : ℕ} {params : Params}
    {handler : Effect} (confers : hasPrivilege s uid priv → Confers s uid out cmd handler.state) :
    Confers s uid out cmd (operCommand s uid priv name arity params handler).state := by
  unfold operCommand ensureRegistered
  split
  · dsimp only
    split
    · exact .bland (.refl s)
    split
    · exact .bland (.refl s)
    · rename_i may _
      exact confers (by simpa using may)
  · exact .bland (.refl s)

theorem handleOper_confers (params : Params) :
    Confers s uid out (.unknown (ascii "OPER") params) (handleOper s uid params).state := by
  obtain ⟨values, trailing⟩ := params
  unfold handleOper ensureRegistered
  split
  · rename_i registered
    dsimp only
    split
    · rename_i name password rest
      split
      · exact .bland (.refl s)
      rename_i block found
      split
      · exact .bland (.refl s)
      · rename_i passed
        exact .opers registered found passed
    · exact .bland (.refl s)
  · exact .bland (.refl s)

theorem handleKill_confers (params : Params) :
    Confers s uid out (.unknown (ascii "KILL") params) (handleKill s uid params).state := by
  refine operCommand_confers s uid out fun may => ?_
  dsimp only
  split
  · exact .bland (.refl s)
  · exact .kills may

theorem dispatchUnknown_confers (verb : Bytes) (params : Params) :
    Confers s uid out (.unknown verb params) (dispatchUnknown s uid out verb params).state := by
  unfold dispatchUnknown
  split
  · refine .bland ?_
    split
    · exact handleRegister_bland s uid out _ _ _
    · exact .refl s
  split
  · rename_i verify
    subst verify
    obtain ⟨values, trailing⟩ := params
    dsimp only
    split
    · exact handleVerify_confers s uid out _ _ _ _
    · exact .bland (.refl s)
  split
  · rename_i oper
    exact oper ▸ handleOper_confers s uid out params
  split
  · rename_i kill
    exact kill ▸ handleKill_confers s uid out params
  split
  · rename_i kline
    exact kline ▸ operCommand_confers s uid out fun may => .bans may
  split
  · rename_i unkline
    exact unkline ▸ operCommand_confers s uid out fun may => .unbans may
  split
  · refine operCommand_confers s uid out fun _ => .bland ?_
    dsimp only
    split <;> exact .refl s
  split
  · exact .bland (handleMonitor_bland s uid params)
  · exact .bland (.refl s)

/-- Every command, case by case. -/
theorem dispatchTyped_confers (cmd : Command) : Confers s uid out cmd (dispatchTyped s uid out cmd).state := by
  cases cmd with
  | nick nick => exact .bland (handleNick_bland s uid nick)
  | user user mode realname => exact .bland (handleUser_bland s uid user realname)
  | cap subcommand args => exact .bland (handleCap_bland s uid subcommand args)
  | join channels keys => exact .bland (.ensureRegistered (.forEach fun s raw => joinBody_bland s uid raw))
  | part channels reason => exact .bland (.ensureRegistered (.forEach fun s raw => partBody_bland s uid _ reason raw))
  | unknown verb params => exact dispatchUnknown_confers s uid out verb params
  | pass password => exact .bland (handlePass_bland s uid password)
  | topic channel topic => exact .bland (handleTopic_bland s uid out channel topic)
  | privmsg targets text | notice targets text => exact .bland (deliver_bland s uid out targets text _ _)
  | authenticate payload => exact handleAuthenticate_confers s uid out payload
  | mode target changes args => exact .bland (handleMode_bland s uid target changes args)
  | ping _ _ | pong _ _ | quit _ | list _ _ | numeric _ _ => exact .bland (.refl s)

end Conferring

/-- The action is an OPER of `uid` that names `block` and shows what the block asks for. -/
inductive Opers (s : ServerState) (uid : UserId) (block : OperBlock) : Action → Prop
  | oper {line name password : Bytes} {rest : List Bytes} {trailing flooded : Bool} {out : Outside}
      (read : lineCommand line = some (.unknown (ascii "OPER") ⟨name :: password :: rest, trailing⟩))
      (handled : handles s uid flooded) (registered : (s.objects uid).registered)
      (found : s.config.opers.find? (·.name = fromUtf8Lossy name) = some block)
      (password : s.crates.verifyPassword block.passwordHash (fromUtf8Lossy password))
      (host : block.allowedHosts ≠ [] →
        ∃ mask ∈ block.allowedHosts, globMatch mask (fromUtf8Lossy (s.objects uid).host))
      (account : ∀ account ∈ block.requireAccount, (s.objects uid).account = some account) :
      Opers s uid block (.receive uid line flooded out)

/-- The user is an operator of a class. -/
def IsOper (s : ServerState) (uid : UserId) (operClass : Bytes) : Prop :=
  (s.objects uid).isOper ∧ (s.objects uid).operClass = some operClass

/-- The operators of a class may do a thing. -/
def Config.grants (config : Config) (operClass : Bytes) (priv : Privilege) : Prop :=
  ∃ privileges, config.operClasses.lookup operClass = some privileges ∧ priv ∈ privileges

theorem hasPrivilege_iff {s : ServerState} {uid : UserId} {priv : Privilege} :
    hasPrivilege s uid priv ↔ ∃ operClass, IsOper s uid operClass ∧ s.config.grants operClass priv := by
  simp only [hasPrivilege, Bool.and_eq_true, Option.any_eq_true, decide_eq_true_eq, IsOper, Config.grants]
  grind

section Steps

variable {s t : ServerState} {uid v : UserId} {out : Outside} {cmd : Command} {operClass : Bytes} {a : Action}

theorem IsOper.of_standing (same : (t.objects v).standing = (s.objects v).standing) (oper : IsOper t v operClass) :
    IsOper s v operClass := by
  simp only [UserInner.standing, Prod.mk.injEq] at same
  rwa [IsOper, ← same.1, ← same.2.1]

theorem setAccount_standing (account : Bytes) : ((setAccount s uid account).objects v).standing =
    if v = uid then ((s.objects uid).isOper, (s.objects uid).operClass, some account) else (s.objects v).standing := by
  by_cases same : v = uid
  · subst same
    simp [setAccount, ServerState.modifyUser, UserInner.standing]
  · simp [setAccount, ServerState.modifyUser, same]

/-- The settings of the server are the same in both states. -/
structure SameSettings (s t : ServerState) : Prop where
  config : t.config = s.config
  crates : t.crates = s.crates

theorem removed_settings : SameSettings s ((s.purgeUserFromChannels uid).removeUser uid) where
  config := Bland.removeUser.config.trans Bland.purge.config
  crates := Bland.removeUser.crates.trans Bland.purge.crates

theorem Confers.settings (confers : Confers s uid out cmd t) : SameSettings s t := by
  cases confers with
  | bland same => exact ⟨same.config, same.crates⟩
  | opers | bans | unbans => exact ⟨rfl, rfl⟩
  | logsIn _ same => exact ⟨same.config, same.crates⟩
  | kills _ => exact removed_settings

/-- No step changes the settings. -/
theorem Moves.settings (moved : Moves s a t) : SameSettings s t := by
  cases moved with
  | accepts host out =>
    rw [acceptUser_state]
    exact ⟨rfl, rfl⟩
  | obeys read handled => exact (dispatchTyped_confers s _ _ _).settings
  | cleans uid =>
    unfold cleanup
    split
    · exact ⟨rfl, rfl⟩
    · exact removed_settings
  | rests => exact ⟨rfl, rfl⟩

/-- A user that a step makes an operator of a class sent the OPER for a block of that class. -/
theorem Moves.opers (moved : Moves s a t) (before : ¬IsOper s v operClass) (after : IsOper t v operClass) :
    ∃ block, Opers s v block a ∧ block.operClass = operClass := by
  have new : (t.objects v).standing ≠ (s.objects v).standing := fun same => before (after.of_standing same)
  cases moved with
  | accepts host out =>
    rw [acceptUser_state] at after
    by_cases same : v = s.nextUserId
    · simp [IsOper, ServerState.insertUser, same] at after
    · exact absurd (by simpa [IsOper, ServerState.insertUser, same] using after) before
  | obeys read handled =>
    rename_i uid line flooded out cmd
    generalize held : (dispatchTyped s uid out cmd).state = t at after new
    have confers := dispatchTyped_confers s uid out cmd
    rw [held] at confers
    cases confers with
    | bland same => exact absurd (same.standing v) new
    | opers registered found passed =>
      obtain ⟨password, host, account⟩ := operRefusal_eq_none.mp passed
      by_cases same : v = uid
      · subst same
        refine ⟨_, .oper read handled registered found password host account, ?_⟩
        simpa [IsOper, ServerState.modifyUser] using after
      · exact absurd (by simp [ServerState.modifyUser, same]) new
    | logsIn proved same =>
      refine absurd ?_ before
      have kept := after.of_standing (same.standing v)
      simp only [IsOper, setAccount, ServerState.modifyUser] at kept
      by_cases same : v = uid
      · subst same
        simpa [IsOper] using kept
      · simpa [IsOper, same] using kept
    | bans | unbans => exact absurd rfl new
    | kills may => exact absurd (by rw [(removeUser_rest _ _).1, (purge_rest s _).2.2.1]) new
  | cleans uid => exact absurd (by rw [cleanup_objects]) new
  | rests => exact absurd rfl new

/-- A step changes the bans only for an operator that may. -/
theorem Moves.bans (moved : Moves s a t) (changed : t.klines ≠ s.klines) :
    ∃ uid line flooded out, a = .receive uid line flooded out ∧ hasPrivilege s uid .kline := by
  cases moved with
  | accepts host out =>
    rw [acceptUser_state] at changed
    exact absurd rfl changed
  | obeys read handled =>
    refine ⟨_, _, _, _, rfl, ?_⟩
    rename_i uid line flooded out cmd
    generalize held : (dispatchTyped s uid out cmd).state = t at changed
    have confers := dispatchTyped_confers s uid out cmd
    rw [held] at confers
    cases confers with
    | bland same => exact absurd same.klines changed
    | opers => exact absurd rfl changed
    | logsIn _ same => exact absurd same.klines changed
    | bans may | unbans may => exact may
    | kills may => exact absurd (Bland.removeUser.klines.trans Bland.purge.klines) changed
  | cleans uid =>
    unfold cleanup at changed
    split at changed
    · exact absurd rfl changed
    · exact absurd (Bland.removeUser.klines.trans Bland.purge.klines) changed
  | rests => exact absurd rfl changed

/-- A step removes a user when its connection is cleaned up, or for an operator that may. -/
theorem Moves.removes (moved : Moves s a t) (live : v ∈ s.users) (gone : v ∉ t.users) :
    a = .cleanup v ∨ ∃ uid line flooded out, a = .receive uid line flooded out ∧ hasPrivilege s uid .kill := by
  cases moved with
  | accepts host out =>
    rw [acceptUser_state] at gone
    exact absurd (List.mem_cons_of_mem _ live) gone
  | obeys read handled =>
    refine .inr ⟨_, _, _, _, rfl, ?_⟩
    rename_i uid line flooded out cmd
    generalize held : (dispatchTyped s uid out cmd).state = t at gone
    have confers := dispatchTyped_confers s uid out cmd
    rw [held] at confers
    cases confers with
    | bland same => exact absurd (same.users ▸ live) gone
    | opers | bans | unbans => exact absurd live gone
    | logsIn _ same => exact absurd (same.users ▸ live) gone
    | kills may => exact may
  | cleans uid =>
    unfold cleanup at gone
    split at gone
    · exact absurd live gone
    · rw [mem_removeUser, (purge_rest s uid).1] at gone
      simp only [live, true_and, not_not] at gone
      exact .inl (gone ▸ rfl)
  | rests => exact absurd live gone

end Steps

section Runs

variable {config : Config} {crates : Crates} {srv : Daemon} {uid : UserId} {trace : List Action} {operClass : Bytes}

theorem reachable_settings (reached : (server config crates).Reachable srv) :
    srv.state.config = config ∧ srv.state.crates = crates := by
  refine Machine.Reaches.invariant (fun srv => srv.state.config = config ∧ srv.state.crates = crates) ⟨rfl, rfl⟩ ?_
    reached
  intro srv a srv' same _ taken
  have kept := (Daemon.step_moves taken).settings
  exact ⟨kept.config.trans same.1, kept.crates.trans same.2⟩

/-- Some time in a run from the start, `uid` became an operator of `block`. -/
def OperedAs (config : Config) (crates : Crates) (trace : List Action) (uid : UserId) (block : OperBlock) : Prop :=
  ∃ m : Machine.Moment (server config crates) (server config crates).initial trace, Opers m.before.state uid block m.action

/-- Who is an operator became one. -/
theorem operedAs_of_isOper (ran : (server config crates).run (server config crates).initial trace = some srv)
    (oper : IsOper srv.state uid operClass) :
    ∃ block, OperedAs config crates trace uid block ∧ block.operClass = operClass := by
  obtain ⟨m, before, after, -⟩ := Machine.exists_cause_of_start (fun srv => IsOper srv.state uid operClass) ran oper
    (by simp [IsOper, server])
  obtain ⟨block, opers, same⟩ := (Daemon.step_moves m.taken).opers before after
  exact ⟨block, ⟨m, opers⟩, same⟩

/-- Who has a privilege became an operator of a block that grants it. -/
theorem earned {priv : Privilege} (ran : (server config crates).run (server config crates).initial trace = some srv)
    (may : hasPrivilege srv.state uid priv) :
    ∃ block, OperedAs config crates trace uid block ∧ config.grants block.operClass priv := by
  obtain ⟨operClass, oper, grants⟩ := hasPrivilege_iff.mp may
  obtain ⟨block, opered, rfl⟩ := operedAs_of_isOper ran oper
  rw [(reachable_settings (Machine.Reachable.run .initial ran)).1] at grants
  exact ⟨block, opered, grants⟩

/-- Bans are set and lifted, and users are removed by others, only by who has earned the power to do so: at an
earlier step of the same run it sent the OPER of a block that grants it, and met what the block asks for. -/
theorem powers_earned (m : Machine.Moment (server config crates) (server config crates).initial trace) :
    (m.after.state.klines ≠ m.before.state.klines → ∃ uid line flooded out, m.action = .receive uid line flooded out ∧
      ∃ block, OperedAs config crates m.earlier uid block ∧ config.grants block.operClass .kline) ∧
    ∀ v ∈ m.before.state.users, v ∉ m.after.state.users → m.action = .cleanup v ∨
      ∃ uid line flooded out, m.action = .receive uid line flooded out ∧
        ∃ block, OperedAs config crates m.earlier uid block ∧ config.grants block.operClass .kill := by
  have moved := Daemon.step_moves m.taken
  constructor
  · intro changed
    obtain ⟨uid, line, flooded, out, sent, may⟩ := moved.bans changed
    exact ⟨uid, line, flooded, out, sent, earned m.ran may⟩
  · intro v live gone
    rcases moved.removes live gone with left | ⟨uid, line, flooded, out, sent, may⟩
    · exact .inl left
    · exact .inr ⟨uid, line, flooded, out, sent, earned m.ran may⟩

/-- An operator kills a user. -/
theorem powers_earned_kill : ∃ m : Machine.Moment exampleServer exampleServer.initial
    (registers 1 "alice" ++ registers 2 "bob" ++ [sends 1 "OPER root pw"] ++ [sends 1 "KILL bob :bye"]),
    m.action = sends 1 "KILL bob :bye" ∧ 2 ∈ m.before.state.users ∧ 2 ∉ m.after.state.users ∧
      ∃ block, OperedAs exampleConfig exampleCrates m.earlier 1 block ∧ exampleConfig.grants block.operClass .kill := by
  obtain ⟨m, action, live, gone⟩ := Machine.Moment.of_trace exampleServer exampleServer.initial
    (registers 1 "alice" ++ registers 2 "bob" ++ [sends 1 "OPER root pw"]) (sends 1 "KILL bob :bye")
    (fun before after => 2 ∈ before.state.users ∧ 2 ∉ after.state.users) (by decide +kernel)
  refine ⟨m, action, live, gone, ?_⟩
  rcases (powers_earned m).2 2 live gone with left | ⟨uid, line, flooded, out, sent, earned⟩
  · rw [action] at left
    cases left
  · rw [action] at sent
    cases sent
    exact earned

end Runs

end RndRust.Irc.Server
