import RndRust.Irc.Server.Registry

/-! What the registries satisfy between commands, whatever the commands were: a
nickname's entry names a live user with that nickname, a channel is stored under the
fold of its name, and identifiers are fresh. -/
namespace RndRust.Irc.Server
open Lib Proto

structure Sound (s : ServerState) : Prop where
  owner : ∀ k uid, s.nicks k = some uid →
    uid ∈ s.users ∧ (s.objects uid).nick.map fold = some k
  minted : ∀ uid ∈ s.users, uid < s.nextUserId
  channelKey : ∀ k c, s.channels.lookup k = some c → fold c.name = k

/-- `uid` is in no registry. -/
structure Gone (s : ServerState) (uid : UserId) : Prop where
  user : uid ∉ s.users
  nick : ∀ k, s.nicks k ≠ some uid
  member : ∀ k c, s.channels.lookup k = some c → uid ∉ c.memberIds

section Operations

variable {s t : ServerState} {uid v : UserId} {k name nick : Bytes} {c : Channel}

@[simp] theorem removeEmptyChannel_users : (s.removeEmptyChannel name).users = s.users := by
  unfold ServerState.removeEmptyChannel
  repeat' split
  all_goals rfl

@[simp] theorem removeEmptyChannel_nicks : (s.removeEmptyChannel name).nicks = s.nicks := by
  unfold ServerState.removeEmptyChannel
  repeat' split
  all_goals rfl

@[simp] theorem removeEmptyChannel_objects : (s.removeEmptyChannel name).objects = s.objects := by
  unfold ServerState.removeEmptyChannel
  repeat' split
  all_goals rfl

@[simp] theorem removeEmptyChannel_nextUserId :
    (s.removeEmptyChannel name).nextUserId = s.nextUserId := by
  unfold ServerState.removeEmptyChannel
  repeat' split
  all_goals rfl

/-- Only an empty channel goes. -/
theorem removeEmptyChannel_lookup : (s.removeEmptyChannel name).channels.lookup k = some c ↔
    s.channels.lookup k = some c ∧ (fold name = k → c.memberIds ≠ []) := by
  unfold ServerState.removeEmptyChannel
  cases found : s.channel name with
  | none =>
    constructor
    · intro stored
      refine ⟨stored, ?_⟩
      rintro rfl
      rw [ServerState.channel, stored] at found
      cases found
    · exact And.left
  | some c' =>
    rw [ServerState.channel] at found
    dsimp only
    split
    · rename_i empty
      rw [Channel.entries_eq_nil_iff] at empty
      rw [Table.lookup_erase_eq]
      by_cases same : k = fold name
      · subst same
        simp only [found, if_true, Option.some.injEq, reduceCtorEq, forall_const, false_iff, not_and,
          not_not]
        rintro rfl
        exact empty
      · simp [same, Ne.symm same]
    · rename_i occupied
      rw [Channel.entries_eq_nil_iff] at occupied
      refine ⟨fun stored => ⟨stored, ?_⟩, And.left⟩
      rintro rfl
      rw [found] at stored
      cases stored
      exact occupied

theorem removeEmptyChannels (names : List Bytes) (s : ServerState) :
    let t := names.foldl ServerState.removeEmptyChannel s
    t.users = s.users ∧ t.nicks = s.nicks ∧ t.objects = s.objects ∧ t.nextUserId = s.nextUserId ∧
      ∀ k c, t.channels.lookup k = some c ↔
        s.channels.lookup k = some c ∧ ∀ name ∈ names, fold name = k → c.memberIds ≠ [] := by
  induction names generalizing s with
  | nil => simp
  | cons name names ih =>
    obtain ⟨users, nicks, objects, next, channels⟩ := ih (s.removeEmptyChannel name)
    refine ⟨by simp [users], by simp [nicks], by simp [objects], by simp [next], ?_⟩
    intro k c
    rw [List.foldl_cons, channels, removeEmptyChannel_lookup]
    simp only [List.mem_cons, forall_eq_or_imp, and_assoc]

/-- A purge takes the user out of every channel and leaves no channel it emptied. -/
theorem purge_lookup : (s.purgeUserFromChannels uid).channels.lookup k = some c →
    ∃ before, s.channels.lookup k = some before ∧ c = before.removeMember uid ∧
      (Sound s → before.memberIds ≠ [] → c.memberIds ≠ []) := by
  intro stored
  unfold ServerState.purgeUserFromChannels at stored
  obtain ⟨-, -, -, -, channels⟩ := removeEmptyChannels
    (((s.channels.values.filter (·.hasMember uid)).filter
      fun c => (c.removeMember uid).members.entries = []).map Channel.name)
    { s with channels := s.channels.mapValues fun _ c => c.removeMember uid }
  obtain ⟨kept, survives⟩ := (channels k c).mp stored
  rw [Table.lookup_mapValues] at kept
  obtain ⟨before, found, rfl⟩ := Option.map_eq_some_iff.mp kept
  refine ⟨before, found, rfl, ?_⟩
  intro sound occupied empty
  by_cases left : before.hasMember uid
  · refine survives before.name ?_ (sound.channelKey k before found) empty
    simp only [List.mem_map, List.mem_filter, decide_eq_true_eq, Channel.entries_eq_nil_iff]
    exact ⟨before, ⟨⟨Table.mem_values.mpr ⟨k, found⟩, left⟩, empty⟩, rfl⟩
  · obtain ⟨v, member⟩ := List.exists_mem_of_ne_nil _ occupied
    have stays : v ∈ (before.removeMember uid).memberIds := by
      rw [Channel.memberIds_removeMember]
      refine ⟨?_, member⟩
      rintro rfl
      exact left (Channel.hasMember_iff.mpr member)
    simp [empty] at stays

theorem purge_rest (s : ServerState) (uid : UserId) :
    (s.purgeUserFromChannels uid).users = s.users ∧
      (s.purgeUserFromChannels uid).nicks = s.nicks ∧
      (s.purgeUserFromChannels uid).objects = s.objects ∧
      (s.purgeUserFromChannels uid).nextUserId = s.nextUserId := by
  obtain ⟨users, nicks, objects, next, -⟩ := removeEmptyChannels
    (((s.channels.values.filter (·.hasMember uid)).filter
      fun c => (c.removeMember uid).members.entries = []).map Channel.name)
    { s with channels := s.channels.mapValues fun _ c => c.removeMember uid }
  exact ⟨users, nicks, objects, next⟩

/-- A release drops one entry at most. -/
theorem releaseNick_nicks : (s.releaseNick uid nick).nicks k = some v ↔
    s.nicks k = some v ∧ ¬ (k = fold nick ∧ v = uid) := by
  unfold ServerState.releaseNick
  split
  · rename_i held
    by_cases same : k = fold nick
    · subst same
      simp [held, eq_comm]
    · simp [same]
  · rename_i other
    refine ⟨fun held => ⟨held, ?_⟩, And.left⟩
    rintro ⟨rfl, rfl⟩
    exact other held

theorem releaseNick_rest (s : ServerState) (uid : UserId) (nick : Bytes) :
    (s.releaseNick uid nick).users = s.users ∧ (s.releaseNick uid nick).objects = s.objects ∧
      (s.releaseNick uid nick).channels = s.channels ∧
      (s.releaseNick uid nick).nextUserId = s.nextUserId := by
  unfold ServerState.releaseNick
  split <;> exact ⟨rfl, rfl, rfl, rfl⟩

theorem removeUser_absent (absent : uid ∉ s.users) : s.removeUser uid = s := by
  simp [ServerState.removeUser, absent]

theorem removeUser_unnamed (live : uid ∈ s.users) (unnamed : (s.objects uid).nick = none) :
    s.removeUser uid = { s with users := s.users.filter (· ≠ uid) } := by
  simp [ServerState.removeUser, live, unnamed]

theorem removeUser_named (live : uid ∈ s.users) (named : (s.objects uid).nick = some nick) :
    s.removeUser uid =
      ServerState.releaseNick { s with users := s.users.filter (· ≠ uid) } uid nick := by
  simp [ServerState.removeUser, live, named]

theorem mem_removeUser : v ∈ (s.removeUser uid).users ↔ v ∈ s.users ∧ v ≠ uid := by
  by_cases live : uid ∈ s.users
  · cases named : (s.objects uid).nick with
    | none => simp [removeUser_unnamed live named]
    | some nick =>
      rw [removeUser_named live named, (releaseNick_rest _ uid nick).1]
      simp
  · rw [removeUser_absent live]
    refine ⟨fun member => ⟨member, ?_⟩, And.left⟩
    rintro rfl
    exact live member

theorem removeUser_rest (s : ServerState) (uid : UserId) :
    (s.removeUser uid).objects = s.objects ∧ (s.removeUser uid).channels = s.channels ∧
      (s.removeUser uid).nextUserId = s.nextUserId := by
  by_cases live : uid ∈ s.users
  · cases named : (s.objects uid).nick with
    | none => simp [removeUser_unnamed live named]
    | some nick =>
      rw [removeUser_named live named]
      exact (releaseNick_rest _ uid nick).2
  · rw [removeUser_absent live]
    exact ⟨rfl, rfl, rfl⟩

/-- The entries that stay are those of other users. -/
theorem removeUser_nicks (sound : Sound s) :
    (s.removeUser uid).nicks k = some v ↔ s.nicks k = some v ∧ v ≠ uid := by
  have owned : s.nicks k = some uid → uid ∈ s.users ∧ (s.objects uid).nick.map fold = some k :=
    sound.owner k uid
  by_cases live : uid ∈ s.users
  · cases named : (s.objects uid).nick with
    | none =>
      rw [removeUser_unnamed live named]
      refine ⟨fun held => ⟨held, ?_⟩, And.left⟩
      rintro rfl
      simpa [named] using (owned held).2
    | some nick =>
      rw [removeUser_named live named, releaseNick_nicks]
      refine and_congr_right fun held => not_congr ⟨And.right, ?_⟩
      rintro rfl
      have key := (owned held).2
      simp only [named, Option.map_some, Option.some.injEq] at key
      exact ⟨key.symm, rfl⟩
  · rw [removeUser_absent live]
    refine ⟨fun held => ⟨held, ?_⟩, And.left⟩
    rintro rfl
    exact live (owned held).1

/-- A claim succeeds on the user's own slot, or on a vacant one, and then the prior
slot is given up. -/
theorem claimNick_ok (ok : s.claimNick uid nick = .ok t) :
    (s.nicks (fold nick) = some uid ∧ t = s) ∨
    (s.nicks (fold nick) = none ∧ uid ∈ s.users ∧ t.users = s.users ∧ t.objects = s.objects ∧
      t.channels = s.channels ∧ t.nextUserId = s.nextUserId ∧
      ∀ k v, t.nicks k = some v ↔ (k = fold nick ∧ v = uid) ∨
        (k ≠ fold nick ∧ s.nicks k = some v ∧
          ¬ (v = uid ∧ (s.objects uid).nick.map fold = some k))) := by
  unfold ServerState.claimNick at ok
  cases slot : s.nicks (fold nick) with
  | some owner =>
    simp only [slot] at ok
    split at ok
    · cases ok
    · rename_i mine
      cases ok
      exact .inl ⟨congrArg some (not_not.mp mine), rfl⟩
  | none =>
    simp only [slot, ServerState.user] at ok
    by_cases live : uid ∈ s.users
    · simp only [live, if_true] at ok
      cases ok
      cases named : (s.objects uid).nick with
      | none =>
        refine .inr ⟨rfl, live, rfl, rfl, rfl, rfl, fun k v => ?_⟩
        by_cases same : k = fold nick
        · simp [same, eq_comm]
        · simp [same]
      | some old =>
        obtain ⟨users, objects, channels, next⟩ := releaseNick_rest s uid old
        refine .inr ⟨rfl, live, users, objects, channels, next, fun k v => ?_⟩
        by_cases same : k = fold nick
        · simp [same, eq_comm]
        · simp only [Function.update_of_ne same, releaseNick_nicks, same, false_and, false_or,
            not_false_eq_true, true_and, Option.map_some, Option.some.injEq, ne_eq]
          rw [eq_comm (a := k), and_comm (a := fold old = k)]
    · simp [live] at ok

/-- A join stores the channel with the user in it. -/
theorem joinOne_state (s : ServerState) (uid : UserId) (name : Bytes) :
    (joinOne s uid name).state = s.setChannel name
      ((s.channelOrCreate name).addMember uid (s.channelOrCreate name).joinMode) := by
  unfold joinOne
  dsimp only
  split
  · rename_i present
    simp [Channel.addMember, present]
  · rfl

theorem joinBody_state (s : ServerState) (uid : UserId) (raw : Bytes) :
    (¬ isValidChannel raw ∧ (joinBody uid s raw).state = s) ∨
    (isValidChannel raw ∧ ∃ mode, (joinBody uid s raw).state =
      s.setChannel raw ((s.channelOrCreate raw).addMember uid mode)) := by
  unfold joinBody
  split
  · rename_i valid
    exact .inr ⟨valid, _, joinOne_state s uid raw⟩
  · rename_i invalid
    exact .inl ⟨invalid, rfl⟩

/-- A part stores the channel without the user, and drops it when nobody is left. -/
theorem partBody_state (s : ServerState) (uid : UserId) (origin : Bytes) (reason : Option Bytes)
    (raw : Bytes) :
    (partBody uid origin reason s raw).state = s ∨
    ∃ c, s.channel raw = some c ∧ (partBody uid origin reason s raw).state =
      (s.setChannel raw (c.removeMember uid)).removeEmptyChannel c.name := by
  unfold partBody
  cases found : s.channel raw with
  | none => exact .inl rfl
  | some c =>
    dsimp only
    split
    · exact .inr ⟨c, rfl, rfl⟩
    · exact .inl rfl

end Operations

namespace Sound

variable {s t : ServerState} {uid : UserId}

theorem quiet (sound : Sound s) (same : Quiet s t) : Sound t where
  owner k v held := by
    rw [same.nicks] at held
    rw [same.users, same.nick]
    exact sound.owner k v held
  minted v live := by
    rw [same.users] at live
    rw [same.nextUserId]
    exact sound.minted v live
  channelKey k c stored := by
    have rosters := same.channels k
    rw [stored, Option.map_some] at rosters
    obtain ⟨before, found, roster⟩ := Option.map_eq_some_iff.mp rosters.symm
    have name : before.name = c.name := congrArg Prod.fst roster
    rw [← name]
    exact sound.channelKey k before found

/-- A claim and the change of nickname that follows it. -/
theorem claims {nick : Bytes} {claimed : ServerState} (sound : Sound s)
    (ok : s.claimNick uid nick = .ok claimed) :
    Sound (claimed.modifyUser uid fun user => { user with nick := some nick }) := by
  rcases claimNick_ok ok with ⟨mine, rfl⟩ | ⟨-, live, users, objects, channels, next, nicks⟩
  · refine ⟨fun k v held => ?_, sound.minted, sound.channelKey⟩
    obtain ⟨alive, key⟩ := sound.owner k v held
    refine ⟨alive, ?_⟩
    by_cases same : v = uid
    · subst same
      have own := (sound.owner _ v mine).2
      rw [key] at own
      simpa [ServerState.modifyUser] using own.symm
    · simpa [ServerState.modifyUser, same] using key
  · refine ⟨fun k v held => ?_, ?_, ?_⟩
    · rcases (nicks k v).mp held with ⟨rfl, rfl⟩ | ⟨-, before, kept⟩
      · exact ⟨users ▸ live, by simp [ServerState.modifyUser]⟩
      · obtain ⟨alive, key⟩ := sound.owner k v before
        have other : v ≠ uid := by
          rintro rfl
          exact kept ⟨rfl, key⟩
        exact ⟨users ▸ alive, by simpa [ServerState.modifyUser, other, objects] using key⟩
    · intro v alive
      exact next ▸ sound.minted v (users ▸ alive)
    · intro k c stored
      exact sound.channelKey k c (channels ▸ stored)

/-- A channel stored under the fold of its name. -/
theorem setChannel {name : Bytes} {c : Channel} (sound : Sound s) (key : fold c.name = fold name) :
    Sound (s.setChannel name c) := by
  refine ⟨sound.owner, sound.minted, fun k c' stored => ?_⟩
  simp only [ServerState.setChannel, Table.lookup_insert_eq] at stored
  split at stored
  · rename_i same
    cases stored
    exact key.trans same.symm
  · exact sound.channelKey k c' stored

theorem removeEmptyChannel (sound : Sound s) (name : Bytes) : Sound (s.removeEmptyChannel name) := by
  refine ⟨?_, ?_, fun k c stored => ?_⟩
  · simpa using sound.owner
  · simpa using sound.minted
  · exact sound.channelKey k c (removeEmptyChannel_lookup.mp stored).1

theorem purge (sound : Sound s) (uid : UserId) : Sound (s.purgeUserFromChannels uid) := by
  obtain ⟨users, nicks, objects, next⟩ := purge_rest s uid
  refine ⟨?_, ?_, fun k c stored => ?_⟩
  · rw [users, nicks, objects]
    exact sound.owner
  · rw [users, next]
    exact sound.minted
  · obtain ⟨before, found, rfl, -⟩ := purge_lookup stored
    exact sound.channelKey k before found

theorem removeUser (sound : Sound s) (uid : UserId) : Sound (s.removeUser uid) := by
  obtain ⟨objects, channels, next⟩ := removeUser_rest s uid
  refine ⟨fun k v held => ?_, fun v live => ?_, ?_⟩
  · obtain ⟨before, other⟩ := (removeUser_nicks sound).mp held
    obtain ⟨live, key⟩ := sound.owner k v before
    exact ⟨mem_removeUser.mpr ⟨live, other⟩, objects ▸ key⟩
  · exact next ▸ sound.minted v (mem_removeUser.mp live).1
  · rw [channels]
    exact sound.channelKey

/-- After a purge and a removal nothing names the user. -/
theorem purged_gone (sound : Sound s) (uid : UserId) :
    Gone ((s.purgeUserFromChannels uid).removeUser uid) uid := by
  refine ⟨fun live => (mem_removeUser.mp live).2 rfl, fun k held => ?_, fun k c stored => ?_⟩
  · exact ((removeUser_nicks (sound.purge uid)).mp held).2 rfl
  · rw [(removeUser_rest _ uid).2.1] at stored
    obtain ⟨before, -, rfl, -⟩ := purge_lookup stored
    exact fun member => (Channel.memberIds_removeMember.mp member).1 rfl

theorem join (sound : Sound s) (name : Bytes) (mode : MemberMode) :
    Sound (s.setChannel name ((s.channelOrCreate name).addMember uid mode)) := by
  refine sound.setChannel ?_
  have key : fold (s.channelOrCreate name).name = fold name := by
    unfold ServerState.channelOrCreate
    cases found : s.channel name with
    | none => rfl
    | some c => exact sound.channelKey _ c found
  unfold Channel.addMember
  split <;> exact key

theorem part {raw : Bytes} {c : Channel} (sound : Sound s) (found : s.channel raw = some c) :
    Sound ((s.setChannel raw (c.removeMember uid)).removeEmptyChannel c.name) := by
  refine Sound.removeEmptyChannel ?_ c.name
  exact sound.setChannel (sound.channelKey _ c found)

theorem change {cmd : Command} (sound : Sound s) (changed : Change s uid cmd t) : Sound t := by
  cases changed with
  | quiet same => exact sound.quiet same
  | claims ok same => exact (sound.claims ok).quiet same
  | joins registered =>
    refine Effect.forEach_preserves Sound (fun s raw _ sound => ?_) sound
    rcases joinBody_state s uid raw with ⟨-, same⟩ | ⟨-, mode, joined⟩
    · rw [same]
      exact sound
    · rw [joined]
      exact sound.join raw mode
  | parts =>
    refine Effect.forEach_preserves Sound (fun s raw _ sound => ?_) sound
    rcases partBody_state s uid _ _ raw with same | ⟨c, found, parted⟩
    · rw [same]
      exact sound
    · rw [parted]
      exact sound.part found
  | kills found => exact (sound.purge _).removeUser _

end Sound

end RndRust.Irc.Server
