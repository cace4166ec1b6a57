import RndRust.Irc.Server.Steps

/-! Channel membership over whole runs: who is in a channel is connected, and no
channel is left empty. -/
namespace RndRust.Irc.Server
open Lib Proto

/-- Every member of a channel is a live user, and every channel has a member. -/
structure NoGhosts (s : ServerState) : Prop where
  live : ∀ k c, s.channels.lookup k = some c → ∀ uid ∈ c.memberIds, uid ∈ s.users
  occupied : ∀ k c, s.channels.lookup k = some c → c.memberIds ≠ []

/-- The channels a line asks to join. -/
def requestedJoins (line : Bytes) : List Bytes :=
  match lineCommand line with
  | some (.join channels _) => channels
  | _ => []

/-- A registered user that joins a channel is still in the users map. A user whose
read loop outlives its removal, after a KILL, is not. -/
def joinsLive (srv : Daemon) : Action → Bool
  | .receive uid line flooded _ =>
    !(handles srv.state uid flooded && (srv.state.objects uid).registered &&
      (requestedJoins line).any isValidChannel) || uid ∈ srv.state.users
  | _ => true

/-- `uid` is in some channel. -/
def Joined (s : ServerState) (uid : UserId) : Prop :=
  ∃ k c, s.channels.lookup k = some c ∧ uid ∈ c.memberIds

section Joining

variable {s t : ServerState} {uid v : UserId} {name raw : Bytes}

theorem join_lookup {mode : MemberMode} {k : Bytes} {c : Channel} :
    (s.setChannel name ((s.channelOrCreate name).addMember uid mode)).channels.lookup k = some c →
      s.channels.lookup k = some c ∨
        (k = fold name ∧ uid ∈ c.memberIds ∧
          ∀ v ∈ c.memberIds, v = uid ∨ ∃ before, s.channels.lookup k = some before ∧
            v ∈ before.memberIds) := by
  intro stored
  simp only [ServerState.setChannel, Table.lookup_insert_eq] at stored
  split at stored
  · rename_i same
    subst same
    cases stored
    refine .inr ⟨rfl, Channel.memberIds_addMember.mpr (.inl rfl), fun v member => ?_⟩
    rcases Channel.memberIds_addMember.mp member with joiner | before
    · exact .inl joiner
    · right
      unfold ServerState.channelOrCreate ServerState.channel at before
      cases found : s.channels.lookup (fold name) with
      | none => simp [found, Channel.memberIds, AList.keys] at before
      | some c => exact ⟨c, rfl, by simpa [found] using before⟩
  · exact .inl stored

theorem NoGhosts.join (clean : NoGhosts s) (live : uid ∈ s.users) (mode : MemberMode) :
    NoGhosts (s.setChannel name ((s.channelOrCreate name).addMember uid mode)) := by
  refine ⟨fun k c stored v member => ?_, fun k c stored => ?_⟩
  · rcases join_lookup stored with before | ⟨-, -, members⟩
    · exact clean.live k c before v member
    · rcases members v member with rfl | ⟨c', found, present⟩
      · exact live
      · exact clean.live k c' found v present
  · rcases join_lookup stored with before | ⟨-, present, -⟩
    · exact clean.occupied k c before
    · exact List.ne_nil_of_mem present

theorem join_joined (mode : MemberMode) :
    Joined (s.setChannel name ((s.channelOrCreate name).addMember uid mode)) uid := by
  refine ⟨fold name, (s.channelOrCreate name).addMember uid mode, ?_, ?_⟩
  · simp [ServerState.setChannel]
  · exact Channel.memberIds_addMember.mpr (.inl rfl)

/-- Nobody loses its place when somebody joins. -/
theorem Joined.join (joined : Joined s v) (mode : MemberMode) :
    Joined (s.setChannel name ((s.channelOrCreate name).addMember uid mode)) v := by
  obtain ⟨k, c, found, member⟩ := joined
  by_cases same : k = fold name
  · subst same
    refine ⟨_, _, AList.lookup_insert _, Channel.memberIds_addMember.mpr (.inr ?_)⟩
    simpa [ServerState.channelOrCreate, ServerState.channel, found] using member
  · exact ⟨k, c, by simpa [ServerState.setChannel, AList.lookup_insert_ne same] using found, member⟩

theorem joins_users (channels : List Bytes) :
    (Effect.forEach (joinBody uid) s channels).state.users = s.users := by
  refine Effect.forEach_preserves (fun t => t.users = s.users) (fun t raw _ same => ?_) rfl
  rcases joinBody_state t uid raw with ⟨-, kept⟩ | ⟨-, mode, joined⟩
  · rw [kept]
    exact same
  · rw [joined]
    exact same

/-- A loop of joins with a valid channel in it makes its user a member. -/
theorem joins_joined {channels : List Bytes} (valid : channels.any isValidChannel) :
    Joined (Effect.forEach (joinBody uid) s channels).state uid := by
  induction channels generalizing s with
  | nil => simp at valid
  | cons raw channels ih =>
    rw [Effect.forEach_cons, Effect.andThen_state]
    by_cases later : channels.any isValidChannel
    · exact ih later
    · have first : isValidChannel raw := by simpa [later] using valid
      rcases joinBody_state s uid raw with ⟨invalid, -⟩ | ⟨-, mode, joined⟩
      · exact absurd first invalid
      · refine Effect.forEach_preserves (fun t => Joined t uid) (fun t raw _ kept => ?_) ?_
        · rcases joinBody_state t uid raw with ⟨-, same⟩ | ⟨-, mode, joined⟩
          · rw [same]
            exact kept
          · rw [joined]
            exact kept.join mode
        · rw [joined]
          exact join_joined mode

end Joining

namespace NoGhosts

variable {s t : ServerState} {uid : UserId}

theorem quiet (clean : NoGhosts s) (same : Quiet s t) : NoGhosts t := by
  have before : ∀ k c, t.channels.lookup k = some c →
      ∃ c', s.channels.lookup k = some c' ∧ c'.memberIds = c.memberIds := by
    intro k c stored
    have rosters := same.channels k
    rw [stored, Option.map_some] at rosters
    obtain ⟨c', found, roster⟩ := Option.map_eq_some_iff.mp rosters.symm
    exact ⟨c', found, congrArg Prod.snd roster⟩
  refine ⟨fun k c stored v member => ?_, fun k c stored => ?_⟩
  · obtain ⟨c', found, members⟩ := before k c stored
    rw [same.users]
    exact clean.live k c' found v (members ▸ member)
  · obtain ⟨c', found, members⟩ := before k c stored
    exact members ▸ clean.occupied k c' found

theorem part {raw : Bytes} {c : Channel} (clean : NoGhosts s) (sound : Sound s)
    (found : s.channel raw = some c) :
    NoGhosts ((s.setChannel raw (c.removeMember uid)).removeEmptyChannel c.name) := by
  have key : fold c.name = fold raw := sound.channelKey _ c found
  refine ⟨fun k c' stored v member => ?_, fun k c' stored => ?_⟩
  · obtain ⟨stored, -⟩ := removeEmptyChannel_lookup.mp stored
    simp only [ServerState.setChannel, Table.lookup_insert_eq] at stored
    rw [removeEmptyChannel_users]
    split at stored
    · cases stored
      exact clean.live _ c found v (Channel.memberIds_removeMember.mp member).2
    · exact clean.live k c' stored v member
  · obtain ⟨stored, occupied⟩ := removeEmptyChannel_lookup.mp stored
    simp only [ServerState.setChannel, Table.lookup_insert_eq] at stored
    split at stored
    · rename_i same
      exact occupied (key.trans same.symm)
    · exact clean.occupied k c' stored

/-- Leaving every channel and the users map together. -/
theorem purged (clean : NoGhosts s) (sound : Sound s) (uid : UserId) :
    NoGhosts ((s.purgeUserFromChannels uid).removeUser uid) := by
  have channels := (removeUser_rest (s.purgeUserFromChannels uid) uid).2.1
  refine ⟨fun k c stored v member => ?_, fun k c stored => ?_⟩
  · rw [channels] at stored
    obtain ⟨before, found, rfl, -⟩ := purge_lookup stored
    obtain ⟨other, member⟩ := Channel.memberIds_removeMember.mp member
    rw [mem_removeUser, (purge_rest s uid).1]
    exact ⟨clean.live k before found v member, other⟩
  · rw [channels] at stored
    obtain ⟨before, found, -, occupied⟩ := purge_lookup stored
    exact occupied sound (clean.occupied k before found)

theorem joins {channels : List Bytes} (clean : NoGhosts s)
    (live : channels.any isValidChannel → uid ∈ s.users) :
    NoGhosts (Effect.forEach (joinBody uid) s channels).state := by
  suffices both : NoGhosts (Effect.forEach (joinBody uid) s channels).state ∧
      (Effect.forEach (joinBody uid) s channels).state.users = s.users from both.1
  refine Effect.forEach_preserves (fun t => NoGhosts t ∧ t.users = s.users) ?_ ⟨clean, rfl⟩
  rintro t raw member ⟨clean, same⟩
  rcases joinBody_state t uid raw with ⟨-, kept⟩ | ⟨valid, mode, joined⟩
  · rw [kept]
    exact ⟨clean, same⟩
  · rw [joined]
    refine ⟨clean.join ?_ mode, same⟩
    rw [same]
    exact live (List.any_eq_true.mpr ⟨raw, member, valid⟩)

theorem parts {origin : Bytes} {reason : Option Bytes} {channels : List Bytes} (clean : NoGhosts s)
    (sound : Sound s) : NoGhosts (Effect.forEach (partBody uid origin reason) s channels).state := by
  suffices both : NoGhosts (Effect.forEach (partBody uid origin reason) s channels).state ∧
      Sound (Effect.forEach (partBody uid origin reason) s channels).state from both.1
  refine Effect.forEach_preserves (fun t => NoGhosts t ∧ Sound t) ?_ ⟨clean, sound⟩
  rintro t raw - ⟨clean, sound⟩
  rcases partBody_state t uid origin reason raw with kept | ⟨c, found, parted⟩
  · rw [kept]
    exact ⟨clean, sound⟩
  · rw [parted]
    exact ⟨clean.part sound found, sound.part found⟩

theorem accept (clean : NoGhosts s) (host : Bytes) (out : Outside) :
    NoGhosts (acceptUser s host out).state := by
  rw [acceptUser_state]
  exact ⟨fun k c stored v member => List.mem_cons_of_mem _ (clean.live k c stored v member),
    clean.occupied⟩

theorem cleanup (clean : NoGhosts s) (sound : Sound s) (uid : UserId) :
    NoGhosts (cleanup s uid).state := by
  unfold Server.cleanup
  split
  · exact clean
  · exact clean.purged sound uid

end NoGhosts

/-- A command keeps the invariant, a join when its user is live. -/
theorem NoGhosts.change {s t : ServerState} {uid : UserId} {cmd : Command} (clean : NoGhosts s)
    (sound : Sound s) (changed : Change s uid cmd t)
    (live : ∀ channels keys, cmd = .join channels keys → (s.objects uid).registered →
      channels.any isValidChannel → uid ∈ s.users) : NoGhosts t := by
  cases changed with
  | quiet same => exact clean.quiet same
  | claims ok same =>
    refine NoGhosts.quiet ?_ same
    rcases claimNick_ok ok with ⟨-, rfl⟩ | ⟨-, -, users, -, channels, -⟩
    · exact ⟨clean.live, clean.occupied⟩
    · refine ⟨?_, ?_⟩
      · simpa only [ServerState.modifyUser, users, channels] using clean.live
      · simpa only [ServerState.modifyUser, channels] using clean.occupied
  | joins registered => exact clean.joins (live _ _ rfl registered)
  | parts => exact clean.parts sound
  | kills found => exact clean.purged sound _

/-- A join of a user that is not live leaves a ghost. -/
theorem handleJoin_ghost {s : ServerState} {uid : UserId} {channels : List Bytes}
    (registered : (s.objects uid).registered) (valid : channels.any isValidChannel)
    (removed : uid ∉ s.users) : ¬ NoGhosts (handleJoin s uid channels).state := by
  intro clean
  have state : (handleJoin s uid channels).state =
      (Effect.forEach (joinBody uid) s channels).state := by
    simp [handleJoin, ensureRegistered, registered]
  have joined : Joined (Effect.forEach (joinBody uid) s channels).state uid := joins_joined valid
  obtain ⟨k, c, stored, member⟩ := joined
  have live := clean.live k c (state ▸ stored) uid member
  rw [state, joins_users] at live
  exact removed live

/-- One step: the invariant is kept exactly by the joins of live users. -/
theorem step_noGhosts {srv srv' : Daemon} {a : Action} (sound : Sound srv.state)
    (clean : NoGhosts srv.state) (taken : srv.step a = some srv') :
    NoGhosts srv'.state ↔ joinsLive srv a := by
  constructor
  · intro kept
    cases a with
    | receive uid line flooded out =>
      by_contra dead
      simp only [joinsLive, Bool.or_eq_true, Bool.not_eq_true', not_or, Bool.not_eq_false,
        Bool.and_eq_true, decide_eq_true_eq] at dead
      obtain ⟨⟨⟨handled, registered⟩, valid⟩, removed⟩ := dead
      unfold requestedJoins at valid
      split at valid
      · rename_i channels keys read
        rw [(Daemon.step_spec taken).1, Daemon.effect_obeys read handled] at kept
        exact handleJoin_ghost registered valid removed kept
      · simp at valid
    | accept | readEnds | write | writeFails | writerStops | cleanup => rfl
  · intro live
    have moved := Daemon.step_moves taken
    generalize srv'.state = t at moved
    cases moved with
    | rests => exact clean
    | accepts host out => exact clean.accept host out
    | cleans uid => exact clean.cleanup sound uid
    | obeys read handled =>
      refine clean.change sound (dispatchTyped_change _ _ _ _) ?_
      rintro channels keys rfl registered valid
      simpa [joinsLive, requestedJoins, read, handled, registered, valid] using live

/-- In every run whose joins are all by live users, between any two steps every
member of a channel is a live user and no channel is empty; and the first join by a
user that is not live breaks this. -/
theorem no_ghosts (config : Config) (crates : Crates) :
    (∀ srv, (server config crates).Reaches (fun srv a => joinsLive srv a) srv → NoGhosts srv.state) ∧
    ∀ srv a srv', (server config crates).Reaches (fun srv a => joinsLive srv a) srv →
      srv.step a = some srv' → (NoGhosts srv'.state ↔ joinsLive srv a) := by
  have clean : ∀ srv, (server config crates).Reaches (fun srv a => joinsLive srv a) srv →
      NoGhosts srv.state := by
    intro srv reached
    refine Machine.Reaches.invariant_with (fun srv => Sound srv.state) (fun srv => NoGhosts srv.state)
      (fun srv reached => reachable_sound reached.reachable) ?_ ?_ reached
    · exact ⟨by simp [server], by simp [server]⟩
    · intro srv a srv' sound clean live taken
      exact (step_noGhosts sound clean taken).mpr live
  refine ⟨clean, fun srv a srv' reached taken => ?_⟩
  exact step_noGhosts (reachable_sound reached.reachable) (clean srv reached) taken

/-- Two users in one channel, one of whom leaves. -/
theorem no_ghosts_part : ∃ srv,
    (exampleServer.guard fun srv a => joinsLive srv a).run exampleServer.initial
      (registers 1 "alice" ++ registers 2 "bob" ++
        [sends 1 "JOIN #c", sends 2 "JOIN #c", sends 1 "PART #c"]) = some srv ∧
    (srv.state.channel (ascii "#c")).map Channel.memberIds = some [2] ∧ NoGhosts srv.state := by
  have ran : ((exampleServer.guard fun srv a => joinsLive srv a).run exampleServer.initial
      (registers 1 "alice" ++ registers 2 "bob" ++
        [sends 1 "JOIN #c", sends 2 "JOIN #c", sends 1 "PART #c"])).any fun srv =>
      (srv.state.channel (ascii "#c")).map Channel.memberIds = some [2] := by decide +kernel
  obtain ⟨srv, ran, members⟩ := (Option.any_eq_true _ _).mp ran
  refine ⟨srv, ran, of_decide_eq_true members, ?_⟩
  exact (no_ghosts exampleConfig exampleCrates).1 srv (Machine.Reaches.run .initial ran)

/-- A user joins after a KILL removed it: its read loop still runs. -/
def killedJoins : List Action :=
  registers 1 "alice" ++ registers 2 "bob" ++
    [sends 1 "OPER root pw", sends 1 "KILL bob :bye", sends 2 "JOIN #c"]

theorem no_ghosts_fails : ∃ srv, exampleServer.run exampleServer.initial killedJoins = some srv ∧
    exampleServer.Reachable srv ∧ ¬ NoGhosts srv.state := by
  have ran : (exampleServer.run exampleServer.initial killedJoins).any fun srv =>
      (srv.state.channels.lookup (ascii "#c")).map Channel.memberIds = some [2] ∧
        2 ∉ srv.state.users := by decide +kernel
  obtain ⟨srv, ran, ghost⟩ := (Option.any_eq_true _ _).mp ran
  obtain ⟨members, removed⟩ := of_decide_eq_true ghost
  obtain ⟨c, stored, ids⟩ := Option.map_eq_some_iff.mp members
  refine ⟨srv, ran, Machine.Reachable.run .initial ran, fun clean => removed ?_⟩
  exact clean.live _ c stored 2 (by simp [ids])

end RndRust.Irc.Server
