import RndRust.Irc.Server.ModeEcho
import RndRust.Irc.Server.Powers

/-! Where a channel's operators come from. The first to join an empty channel is one, and an operator can make
others so; nothing else does. Every operator of a channel goes back, operator by operator, to somebody who found
the channel empty. -/
namespace RndRust.Irc.Server
open Lib Proto

/-- An operator of the channel under `key`. -/
def OpOf (s : ServerState) (key : Bytes) (uid : UserId) : Prop :=
  ∃ c, s.channels.lookup key = some c ∧ c.isOp uid

/-- Nobody is on the channel under `key`. -/
def Vacant (s : ServerState) (key : Bytes) : Prop := ∀ c, s.channels.lookup key = some c → c.members.entries = []

/-- No user becomes an operator. -/
def NoNewOps (s t : ServerState) : Prop := ∀ key v, OpOf t key v → OpOf s key v

section Channels

variable {s t : ServerState} {uid v : UserId} {key raw : Bytes} {c d : Channel} {ch : ModeChange} {changes : List ModeChange}
  {applied : Applied}

theorem NoNewOps.of_members
    (same : ∀ key, (t.channels.lookup key).map Channel.members = (s.channels.lookup key).map Channel.members) :
    NoNewOps s t := by
  rintro key v ⟨c, stored, op⟩
  have kept := same key
  rw [stored, Option.map_some] at kept
  obtain ⟨before, found, members⟩ := Option.map_eq_some_iff.mp kept.symm
  exact ⟨before, found, by rwa [Channel.isOp, members]⟩

theorem NoNewOps.of_channels (same : t.channels = s.channels) : NoNewOps s t :=
  .of_members fun _ => by rw [same]

theorem NoNewOps.trans {r : ServerState} (first : NoNewOps s t) (second : NoNewOps t r) : NoNewOps s r :=
  fun key v op => first key v (second key v op)

theorem isOp_removeMember (op : (c.removeMember uid).isOp v) : c.isOp v := by
  unfold Channel.isOp Channel.removeMember at op
  rw [Table.lookup_erase_eq] at op
  split at op
  · cases op
  · exact op

theorem isOp_addMember {mode : MemberMode} (op : (c.addMember uid mode).isOp v) : c.isOp v ∨ v = uid ∧ mode.op := by
  unfold Channel.addMember at op
  split at op
  · exact .inl op
  · unfold Channel.isOp at op
    rw [Table.lookup_insert_eq] at op
    split at op
    · rename_i same
      exact .inr ⟨same, op⟩
    · exact .inl op

theorem isOp_setMemberMode {adding : Bool} {letter : UInt8} (op : (setMemberMode c uid letter adding).isOp v) :
    c.isOp v ∨ v = uid ∧ letter = 111 ∧ adding := by
  unfold Channel.isOp setMemberMode at op
  rw [Table.lookup_mapValues] at op
  unfold Channel.isOp
  cases held : c.members.lookup v with
  | none => simp [held] at op
  | some mode =>
    simp only [held, Option.map_some, Option.any_some] at op
    split at op
    · exact .inl op
    · rename_i same
      split at op
      · rename_i letter
        exact .inr ⟨by simpa using same, letter, op⟩
      · exact .inl op

/-- One change of the modes makes an operator only of the user it names after `+o`. -/
theorem Made.isOp {o : Option ModeChange} (made : Made s c ch o d) (op : d.isOp v) :
    c.isOp v ∨ ch.letter = 111 ∧ ch.adding ∧ ∃ nick, ch.arg = some nick ∧ s.userByNick nick = some v := by
  cases made with
  | ignored | key | keyless | limit | limitless => exact .inl op
  | flag =>
    unfold applyFlagMode at op
    repeat' split at op
    all_goals exact .inl op
  | member _ found _ =>
    rcases isOp_setMemberMode op with before | ⟨rfl, letter, adding⟩
    · exact .inl before
    · exact .inr ⟨letter, adding, _, rfl, found⟩

theorem foldl_isOp (op : (changes.foldl (applyChannelMode s) (c, applied)).1.isOp v) :
    c.isOp v ∨
      ∃ ch ∈ changes, ch.letter = 111 ∧ ch.adding ∧ ∃ nick, ch.arg = some nick ∧ s.userByNick nick = some v := by
  induction changes generalizing c applied with
  | nil => exact .inl op
  | cons ch rest ih =>
    obtain ⟨o, d, made, applies⟩ := applyChannelMode_made s c ch
    rw [List.foldl_cons, applies] at op
    rcases ih op with here | ⟨ch', listed, given⟩
    · rcases made.isOp here with before | given
      · exact .inl before
      · exact .inr ⟨ch, List.mem_cons_self, given⟩
    · exact .inr ⟨ch', List.mem_cons_of_mem _ listed, given⟩

theorem opOf_setChannel (op : OpOf (s.setChannel raw c) key v) : fold raw = key ∧ c.isOp v ∨ OpOf s key v := by
  obtain ⟨d, stored, op⟩ := op
  rw [ServerState.setChannel, Table.lookup_insert_eq] at stored
  split at stored
  · rename_i same
    cases stored
    exact .inl ⟨same.symm, op⟩
  · exact .inr ⟨d, stored, op⟩

theorem removeEmpty_noNewOps : NoNewOps s (s.removeEmptyChannel raw) := by
  rintro key v ⟨c, stored, op⟩
  exact ⟨c, (removeEmptyChannel_lookup.mp stored).1, op⟩

theorem gone_noNewOps : NoNewOps s ((s.purgeUserFromChannels uid).removeUser uid) := by
  rintro key v ⟨c, stored, op⟩
  rw [(removeUser_rest _ uid).2.1] at stored
  obtain ⟨before, found, rfl, -⟩ := purge_lookup stored
  exact ⟨before, found, isOp_removeMember op⟩

theorem parts_noNewOps (origin : Bytes) (reason : Option Bytes) (channels : List Bytes) :
    NoNewOps s (Effect.forEach (partBody uid origin reason) s channels).state := by
  refine Effect.forEach_preserves (NoNewOps s) (fun t raw _ fewer => ?_) fun key v op => op
  rcases partBody_state t uid origin reason raw with same | ⟨c, found, parted⟩
  · rwa [same]
  · rw [parted]
    refine fewer.trans (NoNewOps.trans ?_ removeEmpty_noNewOps)
    intro key v op
    rcases opOf_setChannel op with ⟨rfl, held⟩ | before
    · exact ⟨c, found, isOp_removeMember held⟩
    · exact before

/-- A channel that is made for a join has nobody on it. -/
theorem channelOrCreate_isOp (op : (s.channelOrCreate raw).isOp v) : OpOf s (fold raw) v := by
  unfold ServerState.channelOrCreate at op
  cases found : s.channel raw with
  | none =>
    rw [found] at op
    simp [Channel.isOp] at op
  | some c =>
    rw [found] at op
    exact ⟨c, found, op⟩

theorem joinMode_vacant (op : (s.channelOrCreate raw).joinMode.op) : Vacant s (fold raw) := by
  intro c found
  have existing : s.channelOrCreate raw = c := by
    rw [ServerState.channelOrCreate, ServerState.channel, found]
    rfl
  rw [existing] at op
  unfold Channel.joinMode at op
  split at op
  · cases op
  · rename_i empty
    simp only [not_or, not_not] at empty
    exact empty.2

theorem join_vacant {mode : MemberMode}
    (vacant : Vacant (s.setChannel raw ((s.channelOrCreate raw).addMember uid mode)) key) : Vacant s key := by
  intro c stored
  by_cases same : key = fold raw
  · subst same
    have empty := vacant _ (by rw [ServerState.setChannel, Table.lookup_insert_eq, if_pos rfl])
    have joined : uid ∈ ((s.channelOrCreate raw).addMember uid mode).memberIds := Channel.memberIds_addMember.mpr (.inl rfl)
    rw [Channel.entries_eq_nil_iff.mp empty] at joined
    cases joined
  · exact vacant c (by rwa [ServerState.setChannel, Table.lookup_insert_eq, if_neg same])

/-- Who joins becomes an operator where nobody was. -/
theorem joins_opOf (channels : List Bytes) (op : OpOf (Effect.forEach (joinBody uid) s channels).state key v) :
    OpOf s key v ∨ v = uid ∧ Vacant s key ∧ ∃ raw ∈ channels, isValidChannel raw ∧ fold raw = key := by
  suffices both : ∀ key, (Vacant (Effect.forEach (joinBody uid) s channels).state key → Vacant s key) ∧
      ∀ v, OpOf (Effect.forEach (joinBody uid) s channels).state key v →
        OpOf s key v ∨ v = uid ∧ Vacant s key ∧ ∃ raw ∈ channels, isValidChannel raw ∧ fold raw = key from
    (both key).2 v op
  refine Effect.forEach_preserves (fun t => ∀ key, (Vacant t key → Vacant s key) ∧ ∀ v, OpOf t key v →
    OpOf s key v ∨ v = uid ∧ Vacant s key ∧ ∃ raw ∈ channels, isValidChannel raw ∧ fold raw = key) ?_
    fun key => ⟨fun vacant => vacant, fun v op => .inl op⟩
  intro t raw listed sofar key
  unfold joinBody
  split
  · rename_i valid
    rw [joinOne_state]
    refine ⟨fun vacant => (sofar key).1 (join_vacant vacant), fun v op => ?_⟩
    rcases opOf_setChannel op with ⟨rfl, held⟩ | before
    · rcases isOp_addMember held with already | ⟨rfl, first⟩
      · exact (sofar _).2 v (channelOrCreate_isOp already)
      · exact .inr ⟨rfl, (sofar _).1 (joinMode_vacant first), raw, listed, valid, rfl⟩
    · exact (sofar key).2 v before
  · exact sofar key

end Channels

/-- The command makes `v` an operator: it joins an empty channel, or it is an operator's `+o` for `v`. -/
inductive Ordains (s : ServerState) (uid : UserId) (key : Bytes) (v : UserId) : Command → Prop
  | founds {channels keys : List Bytes} {raw : Bytes} (listed : raw ∈ channels) (valid : isValidChannel raw)
      (named : fold raw = key) (vacant : Vacant s key) (self : v = uid) : Ordains s uid key v (.join channels keys)
  | appoints {target changes nick : Bytes} {args : List Bytes} {ch : ModeChange} (named : fold target = key)
      (op : OpOf s key uid) (listed : ch ∈ parseChannelModes changes args ModeSpec.rfc2812) (letter : ch.letter = 111)
      (adding : ch.adding) (given : ch.arg = some nick) (found : s.userByNick nick = some v) :
      Ordains s uid key v (.mode target (some changes) args)

section Handlers

variable (s : ServerState) (uid : UserId) (out : Outside)

theorem maybeFinalize_channels : (maybeFinalize s uid).state.channels = s.channels := by
  unfold maybeFinalize
  dsimp only
  split <;> rfl

theorem handleCap_channels (subcommand : CapSub) (args : List Bytes) :
    (handleCap s uid subcommand args).state.channels = s.channels := by
  cases subcommand with
  | done => exact maybeFinalize_channels _ uid
  | req =>
    rw [handleCap, handleCapReq]
    dsimp only
    split <;> rfl
  | ls | list | ack | nak | new | del | other _ => rfl

theorem handleNick_channels (nick : Bytes) : (handleNick s uid nick).state.channels = s.channels := by
  unfold handleNick
  split
  · rfl
  split
  · rfl
  cases claim : s.claimNick uid nick with
  | error _ => rfl
  | ok claimed =>
    have kept : claimed.channels = s.channels := by
      rcases claimNick_ok claim with ⟨-, rfl⟩ | ⟨-, -, -, -, same, -⟩
      · rfl
      · exact same
    dsimp only
    split
    · split <;> exact kept
    · exact (maybeFinalize_channels _ uid).trans kept

theorem ensureRegistered_channels {handler : Effect} (kept : handler.state.channels = s.channels) :
    (ensureRegistered s uid handler).state.channels = s.channels := by
  unfold ensureRegistered
  split
  · exact kept
  · rfl

theorem handleTopic_noNewOps (channel : Bytes) (newTopic : Option Bytes) :
    NoNewOps s (handleTopic s uid out channel newTopic).state := by
  have same : NoNewOps s s := fun key v op => op
  unfold handleTopic ensureRegistered
  split
  · split
    · exact same
    rename_i c found
    dsimp only
    split
    · split <;> exact same
    split
    · intro key v op
      rcases opOf_setChannel op with ⟨rfl, held⟩ | before
      · exact ⟨c, found, held⟩
      · exact before
    · exact same
  · exact same

theorem handleAuthenticate_channels (payload : Bytes) :
    (handleAuthenticate s uid out payload).state.channels = s.channels := by
  unfold handleAuthenticate handlePlain handleExternal
  repeat' split
  all_goals rfl

theorem handleMonitor_channels (params : Params) : (handleMonitor s uid params).state.channels = s.channels := by
  refine ensureRegistered_channels s uid ?_
  have add : ∀ targets, (monitorAdd s uid targets).state.channels = s.channels := by
    intro targets
    unfold monitorAdd
    dsimp only
    split <;> rfl
  repeat' split
  all_goals first | exact add _ | rfl

theorem dispatchUnknown_noNewOps (verb : Bytes) (params : Params) :
    NoNewOps s (dispatchUnknown s uid out verb params).state := by
  have same : NoNewOps s s := fun key v op => op
  have oper : ∀ priv name arity handler, NoNewOps s handler.state →
      NoNewOps s (operCommand s uid priv name arity params handler).state := by
    intro priv name arity handler fewer
    unfold operCommand ensureRegistered
    repeat' split
    all_goals first | exact fewer | exact same
  unfold dispatchUnknown
  split
  · split
    · refine .of_channels ?_
      unfold handleRegister
      repeat' split
      all_goals rfl
    · exact same
  split
  · split
    · refine .of_channels ?_
      unfold handleVerify
      repeat' split
      all_goals rfl
    · exact same
  split
  · refine .of_channels (ensureRegistered_channels s uid ?_)
    dsimp only
    split
    · split
      · rfl
      · split <;> rfl
    · rfl
  split
  · refine oper _ _ _ _ ?_
    dsimp only
    split
    · exact same
    · exact gone_noNewOps
  split
  · exact oper _ _ _ _ (.of_channels rfl)
  split
  · exact oper _ _ _ _ (.of_channels rfl)
  split
  · refine oper _ _ _ _ ?_
    dsimp only
    split <;> exact same
  split
  · exact .of_channels (handleMonitor_channels s uid params)
  · exact same

/-- A command makes no operators but those it ordains. -/
theorem dispatchTyped_opOf (cmd : Command) {key : Bytes} {v : UserId}
    (op : OpOf (dispatchTyped s uid out cmd).state key v) : OpOf s key v ∨ Ordains s uid key v cmd := by
  have of_none : ∀ {t}, NoNewOps s t → OpOf t key v → OpOf s key v ∨ Ordains s uid key v cmd :=
    fun fewer op => .inl (fewer key v op)
  cases cmd with
  | nick nick => exact of_none (.of_channels (handleNick_channels s uid nick)) op
  | user userName mode realname =>
    refine of_none (.of_channels ?_) op
    rw [dispatchTyped]
    unfold handleUser
    split
    · rfl
    · exact maybeFinalize_channels _ uid
  | cap subcommand args => exact of_none (.of_channels (handleCap_channels s uid subcommand args)) op
  | join channels keys =>
    rw [dispatchTyped] at op
    unfold handleJoin ensureRegistered at op
    split at op
    · rcases joins_opOf channels op with before | ⟨rfl, vacant, raw, listed, valid, named⟩
      · exact .inl before
      · exact .inr (.founds listed valid named vacant rfl)
    · exact .inl op
  | part channels reason =>
    rw [dispatchTyped] at op
    unfold handlePart ensureRegistered at op
    split at op
    · exact of_none (parts_noNewOps _ reason channels) op
    · exact .inl op
  | unknown verb params => exact of_none (dispatchUnknown_noNewOps s uid out verb params) op
  | pass password =>
    refine of_none (.of_channels ?_) op
    rw [dispatchTyped]
    unfold handlePass
    dsimp only
    split <;> rfl
  | topic channel topic => exact of_none (handleTopic_noNewOps s uid out channel topic) op
  | privmsg targets text | notice targets text =>
    refine of_none (.of_channels ?_) op
    rw [dispatchTyped]
    first | unfold handlePrivmsg | unfold handleNotice
    unfold deliver
    dsimp only
    split <;> rfl
  | authenticate payload => exact of_none (.of_channels (handleAuthenticate_channels s uid out payload)) op
  | mode target changes args =>
    rw [dispatchTyped] at op
    unfold handleMode ensureRegistered at op
    split at op
    · split at op
      · unfold handleChannelMode at op
        dsimp only at op
        split at op
        · exact .inl op
        rename_i c found
        split at op
        · exact .inl op
        rename_i changes
        unfold applyChannelModes at op
        dsimp only at op
        split at op
        · rename_i mine
          have stored : OpOf (s.setChannel target
              ((parseChannelModes changes args ModeSpec.rfc2812).foldl (applyChannelMode s) (c, {})).1) key v := by
            split at op <;> exact op
          rcases opOf_setChannel stored with ⟨named, held⟩ | before
          · rcases foldl_isOp held with before | ⟨ch, listed, letter, adding, nick, given, found'⟩
            · exact .inl ⟨c, named ▸ found, before⟩
            · exact .inr (.appoints named ⟨c, named ▸ found, mine⟩ listed letter adding given found')
          · exact .inl before
        · exact .inl op
      · unfold handleUserMode at op
        dsimp only at op
        split at op
        · split at op <;> exact .inl op
        · exact .inl op
    · exact .inl op
  | ping _ _ | pong _ _ | quit _ | list _ _ | numeric _ _ => exact .inl op

end Handlers

section Runs

variable {config : Config} {crates : Crates} {trace : List Action} {srv : Daemon} {key : Bytes} {uid v : UserId}

/-- A step makes an operator only by a command that ordains it. -/
theorem Moves.ordains {s t : ServerState} {a : Action} (moved : Moves s a t) (before : ¬OpOf s key v)
    (after : OpOf t key v) : ∃ uid line flooded out cmd, a = .receive uid line flooded out ∧ lineCommand line = some cmd ∧
      handles s uid flooded ∧ Ordains s uid key v cmd := by
  cases moved with
  | accepts host out =>
    rw [acceptUser_state] at after
    exact absurd after before
  | obeys read handled =>
    rcases dispatchTyped_opOf s _ _ _ after with already | ordains
    · exact absurd already before
    · exact ⟨_, _, _, _, _, rfl, read, handled, ordains⟩
  | cleans uid =>
    refine absurd ?_ before
    unfold cleanup at after
    split at after
    · exact after
    · exact gone_noNewOps key v after
  | rests => exact absurd after before

/-- In a run from the start, `v` was made an operator of the channel by somebody who was one, made so in the same
way, and so on back to a user that joined while nobody was on the channel. -/
inductive Chain (config : Config) (crates : Crates) (key : Bytes) : List Action → UserId → Prop
  | founder {trace : List Action} {v : UserId} {line : Bytes} {flooded : Bool} {out : Outside} {channels keys : List Bytes}
      {raw : Bytes} (m : Machine.Moment (server config crates) (server config crates).initial trace)
      (sent : m.action = .receive v line flooded out) (read : lineCommand line = some (.join channels keys))
      (listed : raw ∈ channels) (named : fold raw = key) (vacant : Vacant m.before.state key) :
      Chain config crates key trace v
  | appointed {trace : List Action} {v by' : UserId} {line target changes nick : Bytes} {flooded : Bool} {out : Outside}
      {args : List Bytes} {ch : ModeChange}
      (m : Machine.Moment (server config crates) (server config crates).initial trace)
      (sent : m.action = .receive by' line flooded out)
      (read : lineCommand line = some (.mode target (some changes) args)) (named : fold target = key)
      (listed : ch ∈ parseChannelModes changes args ModeSpec.rfc2812) (letter : ch.letter = 111) (adding : ch.adding)
      (given : ch.arg = some nick) (found : m.before.state.userByNick nick = some v)
      (op : OpOf m.before.state key by') (earlier : Chain config crates key m.earlier by') :
      Chain config crates key trace v

/-- Every operator of a channel, in every state of every run, goes back to a founder. -/
theorem ops_earned (ran : (server config crates).run (server config crates).initial trace = some srv)
    (op : OpOf srv.state key v) : Chain config crates key trace v := by
  induction size : trace.length using Nat.strong_induction_on generalizing trace srv v with
  | _ n ih =>
    obtain ⟨m, before, after, -⟩ := Machine.exists_cause_of_start (fun srv => OpOf srv.state key v) ran op
      (by simp [OpOf, server])
    obtain ⟨uid, line, flooded, out, cmd, sent, read, handled, ordains⟩ := (Daemon.step_moves m.taken).ordains before after
    cases ordains with
    | founds listed valid named vacant self => exact .founder m (self ▸ sent) read listed named vacant
    | appoints named held listed letter adding given found =>
      exact .appointed m sent read named listed letter adding given found held
        (ih _ (size ▸ m.earlier_length) m.ran held rfl)

/-- Alice founds a channel and makes Bob an operator of it. -/
def appointing : List Action :=
  registers 1 "alice" ++ registers 2 "bob" ++ [sends 1 "JOIN #c", sends 2 "JOIN #c", sends 1 "MODE #c +o bob"]

theorem ops_earned_appointed : ∃ srv, exampleServer.run exampleServer.initial appointing = some srv ∧
    OpOf srv.state (ascii "#c") 2 ∧ Chain exampleConfig exampleCrates (ascii "#c") appointing 2 := by
  have ends : (exampleServer.run exampleServer.initial appointing).any
      fun srv => (srv.state.channels.lookup (ascii "#c")).any (·.isOp 2) := by decide +kernel
  obtain ⟨srv, ran, held⟩ := (Option.any_eq_true _ _).mp ends
  obtain ⟨c, stored, op⟩ := (Option.any_eq_true _ _).mp held
  exact ⟨srv, ran, ⟨c, stored, op⟩, ops_earned ran ⟨c, stored, op⟩⟩

end Runs

end RndRust.Irc.Server
