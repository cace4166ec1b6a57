import Mathlib.Logic.Relation
import RndRust.Irc.Server.Sound
import RndRust.Lib.Runs

/-! Joining and leaving a channel step by step. `join_one`, `handle_part`,
`purge_user_from_channels` and `remove_empty_channel` each take several steps on the
channels map and on the channels' locks, and other connections run in between. -/
namespace RndRust.Irc.Server
open Lib Proto

/-- An `Arc<RwLock<Channel>>`. It outlives its entry in the map. -/
abbrev Handle := ℕ

/-- Where a connection stands inside an operation on channels. -/
inductive Task where
  | idle
  /-- `join_one`, with the handle `channel_or_create` returned, before it is locked. -/
  | joining (key : Bytes) (handle : Handle)
  /-- `handle_part`, with the handle it looked up, before it is locked. -/
  | parting (handle : Handle)
  /-- `purge_user_from_channels`, in its loop over the entries. -/
  | purging (target : UserId) (emptied : List Bytes)
  /-- The calls of `remove_empty_channel` still to be made. -/
  | sweeping (names : List Bytes)
  /-- `remove_empty_channel` found no members and has released the entry. -/
  | removing (key : Bytes) (names : List Bytes)
  deriving DecidableEq, Repr

structure Channels where
  /-- The channels map. -/
  entries : Bytes → Option Handle := fun _ => none
  /-- What is behind each handle. -/
  channel : Handle → Channel := fun _ => { name := [] }
  nextHandle : Handle := 0
  tasks : UserId → Task := fun _ => .idle
  /-- The joins that completed and were not followed by the user's removal. -/
  joined : List (UserId × Bytes) := []

namespace Channels

/-- `ServerState::channel`: the handle found under a name. -/
def lookup (st : Channels) (name : Bytes) : Option Handle := st.entries (fold name)

/-- Go on with another task. -/
def goto (st : Channels) (uid : UserId) (task : Task) : Channels :=
  { st with tasks := Function.update st.tasks uid task }

/-- Change a channel under its lock. -/
def modify (st : Channels) (handle : Handle) (f : Channel → Channel) : Channels :=
  { st with channel := Function.update st.channel handle (f (st.channel handle)) }

/-- A user's removal from a channel undoes its join. -/
def forget (st : Channels) (uid : UserId) (key : Bytes) : Channels :=
  { st with joined := st.joined.filter (· ≠ (uid, key)) }

/-- `channel_or_create`, under the lock of the map's entry. -/
def create (st : Channels) (name : Bytes) : Channels × Handle :=
  match st.lookup name with
  | some handle => (st, handle)
  | none =>
    ({ st with
        entries := Function.update st.entries (fold name) (some st.nextHandle)
        channel := Function.update st.channel st.nextHandle { name }
        nextHandle := st.nextHandle + 1 },
      st.nextHandle)

end Channels

/-- One step of the connection of `uid`. -/
inductive ChannelStep where
  /-- `join_one` calls `channel_or_create`. -/
  | create (uid : UserId) (name : Bytes)
  /-- `join_one` locks the channel and adds the user. -/
  | add (uid : UserId)
  /-- `handle_part` looks the channel up. -/
  | find (uid : UserId) (name : Bytes)
  /-- `handle_part` locks the channel and removes the user. -/
  | leave (uid : UserId)
  /-- A KILL of `target`, or the cleanup of a connection, starts to purge. -/
  | purge (uid target : UserId)
  /-- The loop of the purge comes to an entry and locks its channel. Which entries it
  comes to, and in which order, is up to the map. -/
  | visit (uid : UserId) (key : Bytes)
  /-- The loop is over. -/
  | visited (uid : UserId)
  /-- `remove_empty_channel` looks its channel up and reads it. It holds the entry
  meanwhile, so that nothing can come between the two. -/
  | check (uid : UserId)
  /-- `remove_empty_channel` removes what is in the map under its key. -/
  | remove (uid : UserId)
  deriving DecidableEq, Repr

namespace Channels

def step (st : Channels) : ChannelStep → Option Channels
  | .create uid name =>
    match st.tasks uid with
    | .idle =>
      let (st, handle) := st.create name
      some (st.goto uid (.joining (fold name) handle))
    | _ => none
  | .add uid =>
    match st.tasks uid with
    | .joining key handle =>
      let st := st.modify handle fun c => c.addMember uid c.joinMode
      some ({ st with joined := (uid, key) :: st.joined }.goto uid .idle)
    | _ => none
  | .find uid name =>
    match st.tasks uid with
    | .idle =>
      match st.lookup name with
      | some handle => some (st.goto uid (.parting handle))
      | none => some st
    | _ => none
  | .leave uid =>
    match st.tasks uid with
    | .parting handle =>
      let c := st.channel handle
      if c.hasMember uid then
        some (((st.modify handle (·.removeMember uid)).forget uid (fold c.name)).goto uid
          (.sweeping [c.name]))
      else some (st.goto uid .idle)
    | _ => none
  | .purge uid target =>
    match st.tasks uid with
    | .idle => some (st.goto uid (.purging target []))
    | _ => none
  | .visit uid key =>
    match st.tasks uid, st.entries key with
    | .purging target emptied, some handle =>
      let c := st.channel handle
      if c.hasMember target then
        let emptied :=
          if (c.removeMember target).members.entries = [] then emptied ++ [c.name] else emptied
        some (((st.modify handle (·.removeMember target)).forget target (fold c.name)).goto uid
          (.purging target emptied))
      else some st
    | _, _ => none
  | .visited uid =>
    match st.tasks uid with
    | .purging _ emptied => some (st.goto uid (.sweeping emptied))
    | _ => none
  | .check uid =>
    match st.tasks uid with
    | .sweeping [] => some (st.goto uid .idle)
    | .sweeping (name :: names) =>
      match st.lookup name with
      | some handle =>
        if (st.channel handle).members.entries = [] then
          some (st.goto uid (.removing (fold name) names))
        else some (st.goto uid (.sweeping names))
      | none => some (st.goto uid (.sweeping names))
    | _ => none
  | .remove uid =>
    match st.tasks uid with
    | .removing key names =>
      some ({ st with entries := Function.update st.entries key none }.goto uid (.sweeping names))
    | _ => none

end Channels

/-- The registry of channels, empty at first. -/
def channelRegistry : Machine Channels ChannelStep where
  initial := {}
  step := Channels.step

/-- A user is added only to the channel that is in the map under the key it joins,
and what is removed from the map has no members at that moment. -/
def undisturbed (st : Channels) : ChannelStep → Bool
  | .add uid =>
    match st.tasks uid with
    | .joining key handle => st.entries key = some handle
    | _ => true
  | .remove uid =>
    match st.tasks uid with
    | .removing key _ => (st.entries key).all fun handle => (st.channel handle).memberIds = []
    | _ => true
  | _ => true

/-- Each entry leads to a channel of that name, made before. -/
structure Tracked (st : Channels) : Prop where
  name : ∀ key handle, st.entries key = some handle → fold (st.channel handle).name = key
  made : ∀ key handle, st.entries key = some handle → handle < st.nextHandle

/-- Whoever joined a channel is a member of the channel found under its name. -/
def KeepsJoins (st : Channels) : Prop :=
  ∀ uid key, (uid, key) ∈ st.joined →
    ∃ handle, st.entries key = some handle ∧ uid ∈ (st.channel handle).memberIds

section Updates

variable {st : Channels} {uid target : UserId} {key : Bytes} {handle : Handle}

theorem modify_channel {f : Channel → Channel} {other : Handle} :
    (st.modify handle f).channel other =
      if other = handle then f (st.channel handle) else st.channel other := by
  simp [Channels.modify, Function.update_apply]

@[simp] theorem addMember_name {c : Channel} {mode : MemberMode} :
    (c.addMember uid mode).name = c.name := by
  unfold Channel.addMember
  split <;> rfl

@[simp] theorem removeMember_name {c : Channel} : (c.removeMember uid).name = c.name := rfl

theorem Tracked.modify (tracked : Tracked st) (handle : Handle) {f : Channel → Channel}
    (kept : ∀ c, (f c).name = c.name) : Tracked (st.modify handle f) := by
  refine ⟨fun key other stored => ?_, tracked.made⟩
  rw [modify_channel]
  split
  · rename_i same
    subst same
    rw [kept]
    exact tracked.name key other stored
  · exact tracked.name key other stored

theorem Tracked.create (tracked : Tracked st) (name : Bytes) : Tracked (st.create name).1 := by
  unfold Channels.create
  split
  · exact tracked
  · refine ⟨fun key handle stored => ?_, fun key handle stored => ?_⟩
    · simp only [Function.update_apply] at stored ⊢
      split at stored
      · rename_i same
        cases stored
        simp [same]
      · have older := (tracked.made key handle stored).ne
        simpa [older] using tracked.name key handle stored
    · simp only [Function.update_apply] at stored
      split at stored
      · cases stored
        exact Nat.lt_succ_self _
      · exact (tracked.made key handle stored).trans (Nat.lt_succ_self _)

theorem Tracked.remove (tracked : Tracked st) (key : Bytes) :
    Tracked { st with entries := Function.update st.entries key none } := by
  refine ⟨fun k handle stored => ?_, fun k handle stored => ?_⟩
  · simp only [Function.update_apply] at stored
    split at stored
    · cases stored
    · exact tracked.name k handle stored
  · simp only [Function.update_apply] at stored
    split at stored
    · cases stored
    · exact tracked.made k handle stored

/-- A join makes its user a member, when its handle is still the one in the map. -/
theorem KeepsJoins.add (keeps : KeepsJoins st) (mapped : st.entries key = some handle)
    (mode : MemberMode) : KeepsJoins { st.modify handle fun c => c.addMember uid mode with
      joined := (uid, key) :: st.joined } := by
  intro v k member
  simp only [List.mem_cons, Prod.mk.injEq] at member
  rcases member with ⟨rfl, rfl⟩ | before
  · refine ⟨handle, mapped, ?_⟩
    rw [modify_channel, if_pos rfl]
    exact Channel.memberIds_addMember.mpr (.inl rfl)
  · obtain ⟨other, stored, present⟩ := keeps v k before
    refine ⟨other, stored, ?_⟩
    rw [modify_channel]
    split
    · rename_i same
      exact Channel.memberIds_addMember.mpr (.inr (same ▸ present))
    · exact present

/-- A removal from a channel leaves every other user where it is. -/
theorem KeepsJoins.removeMember (keeps : KeepsJoins st) (tracked : Tracked st) :
    KeepsJoins ((st.modify handle (·.removeMember target)).forget target
      (fold (st.channel handle).name)) := by
  intro v k member
  obtain ⟨before, other⟩ := List.mem_filter.mp member
  obtain ⟨stored, found, present⟩ := keeps v k before
  refine ⟨stored, found, ?_⟩
  rw [Channels.forget, modify_channel]
  split
  · rename_i same
    subst same
    refine Channel.memberIds_removeMember.mpr ⟨?_, present⟩
    rintro rfl
    simp [tracked.name k stored found] at other
  · exact present

/-- An entry whose channel is empty can go. -/
theorem KeepsJoins.remove (keeps : KeepsJoins st)
    (empty : ∀ handle, st.entries key = some handle → (st.channel handle).memberIds = []) :
    KeepsJoins { st with entries := Function.update st.entries key none } := by
  intro v k member
  obtain ⟨handle, found, present⟩ := keeps v k member
  refine ⟨handle, ?_, present⟩
  have other : k ≠ key := by
    rintro rfl
    simp [empty handle found] at present
  simpa [other] using found

theorem KeepsJoins.create (keeps : KeepsJoins st) (tracked : Tracked st) (name : Bytes) :
    KeepsJoins (st.create name).1 := by
  unfold Channels.create
  cases vacant : st.lookup name with
  | some handle => exact keeps
  | none =>
    intro v k member
    obtain ⟨handle, found, present⟩ := keeps v k member
    have other : k ≠ fold name := by
      rintro rfl
      simp [Channels.lookup, found] at vacant
    have older := (tracked.made k handle found).ne
    exact ⟨handle, by simpa [other] using found, by simpa [older] using present⟩

end Updates

/-- What a step changes, apart from where its connection stands. -/
inductive Touches (st : Channels) : ChannelStep → Channels → Prop
  | nothing (a : ChannelStep) : Touches st a st
  | creates (uid : UserId) (name : Bytes) : Touches st (.create uid name) (st.create name).1
  | adds {uid : UserId} {key : Bytes} {handle : Handle}
      (joining : st.tasks uid = .joining key handle) :
      Touches st (.add uid) { st.modify handle fun c => c.addMember uid c.joinMode with
        joined := (uid, key) :: st.joined }
  | takesOut (a : ChannelStep) (handle : Handle) (target : UserId) :
      Touches st a ((st.modify handle (·.removeMember target)).forget target
        (fold (st.channel handle).name))
  | removes {uid : UserId} {key : Bytes} {names : List Bytes}
      (removing : st.tasks uid = .removing key names) :
      Touches st (.remove uid) { st with entries := Function.update st.entries key none }

/-- Every step, case by case. -/
theorem step_touches {st st' : Channels} {a : ChannelStep} (taken : st.step a = some st') :
    ∃ core tasks, Touches st a core ∧ st' = { core with tasks := tasks } := by
  cases a with
  | create uid name =>
    simp only [Channels.step] at taken
    split at taken
    · cases taken
      exact ⟨_, _, .creates uid name, rfl⟩
    · cases taken
  | add uid =>
    simp only [Channels.step] at taken
    split at taken
    · rename_i key handle joining
      cases taken
      exact ⟨_, _, .adds joining, rfl⟩
    · cases taken
  | find uid name =>
    simp only [Channels.step] at taken
    split at taken
    · split at taken
      · cases taken
        exact ⟨_, _, .nothing _, rfl⟩
      · cases taken
        exact ⟨_, _, .nothing _, rfl⟩
    · cases taken
  | leave uid =>
    simp only [Channels.step] at taken
    split at taken
    · split at taken
      · cases taken
        exact ⟨_, _, .takesOut _ _ uid, rfl⟩
      · cases taken
        exact ⟨_, _, .nothing _, rfl⟩
    · cases taken
  | purge uid target =>
    simp only [Channels.step] at taken
    split at taken
    · cases taken
      exact ⟨_, _, .nothing _, rfl⟩
    · cases taken
  | visit uid key =>
    simp only [Channels.step] at taken
    split at taken
    · split at taken
      · cases taken
        exact ⟨_, _, .takesOut _ _ _, rfl⟩
      · cases taken
        exact ⟨_, _, .nothing _, rfl⟩
    · cases taken
  | visited uid =>
    simp only [Channels.step] at taken
    split at taken
    · cases taken
      exact ⟨_, _, .nothing _, rfl⟩
    · cases taken
  | check uid =>
    simp only [Channels.step] at taken
    split at taken
    · cases taken
      exact ⟨_, _, .nothing _, rfl⟩
    · split at taken
      · split at taken
        · cases taken
          exact ⟨_, _, .nothing _, rfl⟩
        · cases taken
          exact ⟨_, _, .nothing _, rfl⟩
      · cases taken
        exact ⟨_, _, .nothing _, rfl⟩
    · cases taken
  | remove uid =>
    simp only [Channels.step] at taken
    split at taken
    · rename_i key names removing
      cases taken
      exact ⟨_, _, .removes removing, rfl⟩
    · cases taken

section Invariants

variable {st st' : Channels} {a : ChannelStep}

/-- Whatever the interleaving, entries lead to channels of their name. -/
theorem step_tracked (tracked : Tracked st) (taken : st.step a = some st') : Tracked st' := by
  obtain ⟨core, tasks, touched, rfl⟩ := step_touches taken
  suffices after : Tracked core from ⟨after.name, after.made⟩
  cases touched with
  | nothing => exact tracked
  | creates uid name => exact tracked.create name
  | @adds uid key handle joining =>
    have after : Tracked (st.modify handle fun c => c.addMember uid c.joinMode) :=
      tracked.modify handle fun _ => addMember_name
    exact ⟨after.name, after.made⟩
  | takesOut _ handle target =>
    have after : Tracked (st.modify handle (·.removeMember target)) :=
      tracked.modify handle fun _ => rfl
    exact ⟨after.name, after.made⟩
  | removes removing =>
    exact tracked.remove _

theorem step_keepsJoins (tracked : Tracked st) (keeps : KeepsJoins st) (alone : undisturbed st a)
    (taken : st.step a = some st') : KeepsJoins st' := by
  obtain ⟨core, tasks, touched, rfl⟩ := step_touches taken
  suffices after : KeepsJoins core from after
  cases touched with
  | nothing => exact keeps
  | creates uid name => exact keeps.create tracked name
  | adds joining =>
    refine keeps.add ?_ _
    simpa [undisturbed, joining] using alone
  | takesOut _ handle target => exact keeps.removeMember tracked
  | removes removing =>
    refine keeps.remove fun handle stored => ?_
    simpa [undisturbed, removing, stored] using alone

end Invariants

theorem channels_tracked {st : Channels} (reached : channelRegistry.Reachable st) : Tracked st := by
  refine Machine.Reaches.invariant Tracked ?_ (fun _ _ _ tracked _ => step_tracked tracked) reached
  exact ⟨by simp [channelRegistry], by simp [channelRegistry]⟩

/-- No join is lost in a run in which every handle that is locked by a join is still
in the map, and every entry that is removed is still empty. -/
theorem no_lost_join {st : Channels} {uid : UserId} {name : Bytes}
    (reached : channelRegistry.Reaches (fun st a => undisturbed st a) st)
    (completed : (uid, fold name) ∈ st.joined) :
    ∃ handle, st.lookup name = some handle ∧ uid ∈ (st.channel handle).memberIds := by
  have keeps : KeepsJoins st := by
    refine Machine.Reaches.invariant_with Tracked KeepsJoins
      (fun st reached => channels_tracked reached.reachable) ?_
      (fun _ _ _ tracked keeps alone => step_keepsJoins tracked keeps alone) reached
    intro uid key member
    simp [channelRegistry] at member
  exact keeps uid (fold name) completed

/-- The last member leaves while somebody joins, and the channel stays. -/
theorem no_lost_join_part : ∃ st,
    (channelRegistry.guard fun st a => undisturbed st a).run channelRegistry.initial
      [.create 1 (ascii "#c"), .add 1, .create 2 (ascii "#C"), .find 1 (ascii "#c"), .leave 1, .add 2,
        .check 1] = some st ∧
    ∃ handle, st.lookup (ascii "#c") = some handle ∧ 2 ∈ (st.channel handle).memberIds := by
  have ran : ((channelRegistry.guard fun st a => undisturbed st a).run channelRegistry.initial
      [.create 1 (ascii "#c"), .add 1, .create 2 (ascii "#C"), .find 1 (ascii "#c"), .leave 1, .add 2,
        .check 1]).any fun st => (2, fold (ascii "#c")) ∈ st.joined := by decide
  obtain ⟨st, ran, completed⟩ := (Option.any_eq_true _ _).mp ran
  refine ⟨st, ran, no_lost_join (Machine.Reaches.run .initial ran) ?_⟩
  exact of_decide_eq_true completed

/-- The join of user 2 completes, and its channel is not found. -/
def losesJoin (trace : List ChannelStep) : Bool :=
  (channelRegistry.run channelRegistry.initial trace).any fun st =>
    (2, fold (ascii "#c")) ∈ st.joined ∧ st.lookup (ascii "#c") = none

/-- User 1, the last member, leaves after user 2 has fetched the channel: the entry
goes before user 2 locks the channel, or after, when it is no longer empty. -/
theorem no_lost_join_fails :
    losesJoin [.create 1 (ascii "#c"), .add 1, .create 2 (ascii "#c"), .find 1 (ascii "#c"), .leave 1,
      .check 1, .remove 1, .add 2] ∧
    losesJoin [.create 1 (ascii "#c"), .add 1, .create 2 (ascii "#c"), .find 1 (ascii "#c"), .leave 1,
      .check 1, .add 2, .remove 1] := by
  decide

/-! Without interference the steps compute what the handlers compute. -/

/-- The connection that takes a step. -/
def ChannelStep.actor : ChannelStep → UserId
  | .create uid _ | .add uid | .find uid _ | .leave uid | .purge uid _ | .visit uid _ | .visited uid
  | .check uid | .remove uid => uid

/-- `uid` takes some steps while nobody else does. -/
def Alone (uid : UserId) : Channels → Channels → Prop :=
  Relation.ReflTransGen fun st st' => ∃ a : ChannelStep, a.actor = uid ∧ st.step a = some st'

/-- The map and the locks hold the channels of a server state. -/
def Represents (st : Channels) (s : ServerState) : Prop :=
  ∀ key, (st.entries key).map st.channel = s.channels.lookup key

section Alone

variable {st : Channels} {s : ServerState} {uid target : UserId} {name : Bytes} {handle : Handle}

theorem Represents.lookup (represents : Represents st s) (name : Bytes) :
    (st.lookup name).map st.channel = s.channel name := represents (fold name)

/-- A change under the lock is a change of that channel alone. -/
theorem Represents.modify (represents : Represents st s) (tracked : Tracked st)
    (found : st.lookup name = some handle) (f : Channel → Channel) :
    Represents (st.modify handle f) (s.setChannel name (f (st.channel handle))) := by
  intro key
  simp only [ServerState.setChannel, Table.lookup_insert_eq]
  by_cases same : key = fold name
  · subst same
    have stored : st.entries (fold name) = some handle := found
    simp [Channels.modify, stored]
  · rw [if_neg same, ← represents key]
    cases stored : st.entries key with
    | none => simp [Channels.modify, stored]
    | some other =>
      have distinct : other ≠ handle := by
        rintro rfl
        have here := tracked.name _ _ stored
        have there := tracked.name _ _ (show st.entries (fold name) = some other from found)
        exact same (here.symm.trans there)
      simp [Channels.modify, stored, distinct]

theorem Represents.create (represents : Represents st s) (tracked : Tracked st) (name : Bytes) :
    (st.create name).1.lookup name = some (st.create name).2 ∧
      (st.create name).1.channel (st.create name).2 = s.channelOrCreate name ∧
      Represents (st.create name).1 (s.setChannel name (s.channelOrCreate name)) := by
  have known := represents.lookup name
  unfold Channels.create
  cases found : st.lookup name with
  | some handle =>
    rw [found, Option.map_some] at known
    have same : st.channel handle = s.channelOrCreate name := by
      simp [ServerState.channelOrCreate, ← known]
    refine ⟨found, same, fun key => ?_⟩
    simp only [ServerState.setChannel, Table.lookup_insert_eq]
    split
    · rename_i here
      subst here
      have stored : st.entries (fold name) = some handle := found
      simp [stored, same]
    · exact represents key
  | none =>
    rw [found, Option.map_none] at known
    have fresh : s.channelOrCreate name = { name } := by
      simp [ServerState.channelOrCreate, ← known]
    refine ⟨by simp [Channels.lookup], by simp [fresh], fun key => ?_⟩
    simp only [ServerState.setChannel, Table.lookup_insert_eq]
    by_cases here : key = fold name
    · simp [here, fresh]
    · simp only [Function.update_of_ne here, if_neg here, ← represents key]
      cases stored : st.entries key with
      | none => rfl
      | some other => simp [(tracked.made key other stored).ne]

theorem setChannel_twice {c c' : Channel} {key : Bytes} :
    ((s.setChannel name c).setChannel name c').channels.lookup key =
      (s.setChannel name c').channels.lookup key := by
  simp only [ServerState.setChannel, Table.lookup_insert_eq]
  split <;> rfl

theorem Alone.step {st st' : Channels} {a : ChannelStep} (taken : st.step a = some st')
    (own : a.actor = uid) : Alone uid st st' := .single ⟨a, own, taken⟩

theorem Alone.trans {st st' st'' : Channels} (first : Alone uid st st') (later : Alone uid st' st'') :
    Alone uid st st'' := Relation.ReflTransGen.trans first later

theorem Represents.goto (represents : Represents st s) (uid : UserId) (task : Task) :
    Represents (st.goto uid task) s := represents

theorem Tracked.goto (tracked : Tracked st) (uid : UserId) (task : Task) :
    Tracked (st.goto uid task) := ⟨tracked.name, tracked.made⟩

@[simp] theorem goto_tasks {task : Task} : (st.goto uid task).tasks uid = task := by
  simp [Channels.goto]

theorem add_step {key : Bytes} (joining : st.tasks uid = .joining key handle) :
    st.step (.add uid) = some (Channels.goto { st.modify handle fun c => c.addMember uid c.joinMode with
      joined := (uid, key) :: st.joined } uid .idle) := by
  simp only [Channels.step, joining]
  rfl

/-- `join_one` run alone. -/
theorem join_alone (represents : Represents st s) (tracked : Tracked st)
    (idle : st.tasks uid = .idle) (name : Bytes) :
    ∃ st', Alone uid st st' ∧ st'.tasks uid = .idle ∧ Represents st' (joinOne s uid name).state := by
  obtain ⟨found, same, created⟩ := represents.create tracked name
  have joined := created.modify (tracked.create name) found fun c => c.addMember uid c.joinMode
  rw [same] at joined
  have fetch : st.step (.create uid name) =
      some ((st.create name).1.goto uid (.joining (fold name) (st.create name).2)) := by
    simp [Channels.step, idle]
  refine ⟨_, (Alone.step fetch rfl).trans (Alone.step (add_step goto_tasks) rfl), goto_tasks, ?_⟩
  intro key
  rw [joinOne_state, ← setChannel_twice]
  exact joined key

/-- `remove_empty_channel` run alone, for some names in order. -/
theorem sweep_alone {names : List Bytes} (represents : Represents st s) (tracked : Tracked st)
    (sweeping : st.tasks uid = .sweeping names) : ∃ st', Alone uid st st' ∧
      st'.tasks uid = .idle ∧ Represents st' (names.foldl ServerState.removeEmptyChannel s) := by
  induction names generalizing st s with
  | nil =>
    have done : st.step (.check uid) = some (st.goto uid .idle) := by
      simp [Channels.step, sweeping]
    exact ⟨_, Alone.step done rfl, goto_tasks, represents⟩
  | cons name names ih =>
    have known := represents.lookup name
    by_cases empty : ∃ handle, st.lookup name = some handle ∧ (st.channel handle).members.entries = []
    · obtain ⟨handle, found, empty⟩ := empty
      have check : st.step (.check uid) = some (st.goto uid (.removing (fold name) names)) := by
        simp [Channels.step, sweeping, found, empty]
      have remove : (st.goto uid (.removing (fold name) names)).step (.remove uid) =
          some (Channels.goto { st with entries := Function.update st.entries (fold name) none }
            uid (.sweeping names)) := by
        simp [Channels.step, Channels.goto]
      have removed : s.removeEmptyChannel name = { s with channels := s.channels.erase (fold name) } := by
        rw [found, Option.map_some] at known
        simp [ServerState.removeEmptyChannel, ← known, empty]
      have represents' : Represents
          { st with entries := Function.update st.entries (fold name) none }
          (s.removeEmptyChannel name) := by
        intro key
        rw [removed, Table.lookup_erase_eq, ← represents key]
        by_cases same : key = fold name <;> simp [same]
      have tracked' : Tracked { st with entries := Function.update st.entries (fold name) none } :=
        tracked.remove (fold name)
      obtain ⟨st', alone, idle, after⟩ := ih (represents'.goto uid _) (tracked'.goto uid _) goto_tasks
      exact ⟨st', (Alone.step check rfl).trans ((Alone.step remove rfl).trans alone), idle, after⟩
    · have check : st.step (.check uid) = some (st.goto uid (.sweeping names)) := by
        cases found : st.lookup name with
        | none => simp [Channels.step, sweeping, found]
        | some handle =>
          have occupied : (st.channel handle).members.entries ≠ [] := fun none => empty ⟨handle, found, none⟩
          simp [Channels.step, sweeping, found, occupied]
      have kept : s.removeEmptyChannel name = s := by
        unfold ServerState.removeEmptyChannel
        cases found : st.lookup name with
        | none =>
          rw [found, Option.map_none] at known
          simp [← known]
        | some handle =>
          have occupied : (st.channel handle).members.entries ≠ [] := fun none => empty ⟨handle, found, none⟩
          rw [found, Option.map_some] at known
          simp [← known, occupied]
      obtain ⟨st', alone, idle, after⟩ := ih (represents.goto uid _) (tracked.goto uid _) goto_tasks
      refine ⟨st', (Alone.step check rfl).trans alone, idle, ?_⟩
      rw [List.foldl_cons, kept]
      exact after

/-- One channel of `handle_part` run alone. -/
theorem part_alone (represents : Represents st s) (tracked : Tracked st)
    (idle : st.tasks uid = .idle) (origin : Bytes) (reason : Option Bytes) (name : Bytes) :
    ∃ st', Alone uid st st' ∧ st'.tasks uid = .idle ∧
      Represents st' (partBody uid origin reason s name).state := by
  have known := represents.lookup name
  cases found : st.lookup name with
  | none =>
    rw [found, Option.map_none] at known
    have miss : st.step (.find uid name) = some st := by simp [Channels.step, idle, found]
    exact ⟨st, Alone.step miss rfl, idle, by simpa [partBody, ← known] using represents⟩
  | some handle =>
    rw [found, Option.map_some] at known
    have find : st.step (.find uid name) = some (st.goto uid (.parting handle)) := by
      simp [Channels.step, idle, found]
    by_cases member : (st.channel handle).hasMember uid
    · set c := st.channel handle with channel
      have leave : (st.goto uid (.parting handle)).step (.leave uid) =
          some (((st.modify handle (·.removeMember uid)).forget uid (fold c.name)).goto uid
            (.sweeping [c.name])) := by
        simp [Channels.step, Channels.goto, Channels.modify, Channels.forget, member, ← channel]
      have left : Represents ((st.modify handle (·.removeMember uid)).forget uid (fold c.name))
          (s.setChannel name (c.removeMember uid)) :=
        represents.modify tracked found (·.removeMember uid)
      have tracked' : Tracked ((st.modify handle (·.removeMember uid)).forget uid (fold c.name)) := by
        have after := tracked.modify handle (f := (·.removeMember uid)) fun _ => rfl
        exact ⟨after.name, after.made⟩
      obtain ⟨st', alone, idle, after⟩ := sweep_alone (left.goto uid _) (tracked'.goto uid _) goto_tasks
      refine ⟨st', (Alone.step find rfl).trans ((Alone.step leave rfl).trans alone), idle, ?_⟩
      simpa [partBody, ← known, member] using after
    · have leave : (st.goto uid (.parting handle)).step (.leave uid) = some (st.goto uid .idle) := by
        simp [Channels.step, Channels.goto, member]
      refine ⟨_, (Alone.step find rfl).trans (Alone.step leave rfl), goto_tasks, ?_⟩
      simpa [partBody, ← known, member] using represents.goto uid .idle

theorem removeMember_absent {c : Channel} (absent : ¬ c.hasMember target) :
    c.removeMember target = c := by
  have missing : target ∉ c.members.entries.keys := by
    simpa [Channel.hasMember_iff, Channel.memberIds, AList.keys] using absent
  have same : c.members.erase target = c.members :=
    AList.ext (List.kerase_of_notMem_keys missing)
  rw [Channel.removeMember, same]

/-- Whether a purge of `target` leaves a channel empty. -/
def emptiedBy (target : UserId) (c : Channel) : Bool :=
  c.hasMember target && (c.removeMember target).members.entries = []

/-- The names a purge of `target` empties, among the entries with some keys. -/
def emptiedAmong (st : Channels) (target : UserId) (keys : List Bytes) : List Bytes :=
  keys.filterMap fun key =>
    (((st.entries key).map st.channel).filter (emptiedBy target)).map Channel.name

/-- One round of the loop of a purge. -/
theorem visit_alone {key : Bytes} {emptied : List Bytes} (tracked : Tracked st)
    (purging : st.tasks uid = .purging target emptied) (found : st.entries key = some handle) :
    ∃ st', Alone uid st st' ∧ Tracked st' ∧ st'.entries = st.entries ∧
      st'.tasks uid = .purging target (emptied ++ emptiedAmong st target [key]) ∧
      st'.channel = Function.update st.channel handle ((st.channel handle).removeMember target) := by
  by_cases member : (st.channel handle).hasMember target
  · refine ⟨((st.modify handle (·.removeMember target)).forget target
      (fold (st.channel handle).name)).goto uid
        (.purging target (emptied ++ emptiedAmong st target [key])),
      Alone.step (a := .visit uid key) ?_ rfl, ?_, rfl, goto_tasks, rfl⟩
    · by_cases empty : ((st.channel handle).removeMember target).members.entries = [] <;>
        simp [Channels.step, purging, found, member, empty, emptiedAmong, emptiedBy]
    · have after := tracked.modify handle (f := (·.removeMember target)) fun _ => rfl
      exact ⟨after.name, after.made⟩
  · refine ⟨st, Alone.step (a := .visit uid key) ?_ rfl, tracked, rfl, ?_, ?_⟩
    · simp [Channels.step, purging, found, member]
    · simpa [emptiedAmong, emptiedBy, found, member] using purging
    · rw [removeMember_absent member, Function.update_eq_self]

/-- The loop of a purge, over some entries. -/
theorem visits_alone {keys emptied : List Bytes} (tracked : Tracked st)
    (purging : st.tasks uid = .purging target emptied) (distinct : keys.Nodup)
    (mapped : ∀ key ∈ keys, (st.entries key).isSome) : ∃ st', Alone uid st st' ∧ Tracked st' ∧
      st'.entries = st.entries ∧
      st'.tasks uid = .purging target (emptied ++ emptiedAmong st target keys) ∧
      ∀ key handle, st.entries key = some handle → st'.channel handle =
        if key ∈ keys then (st.channel handle).removeMember target else st.channel handle := by
  induction keys generalizing st emptied with
  | nil => exact ⟨st, .refl, tracked, rfl, by simpa [emptiedAmong] using purging, by simp⟩
  | cons key keys ih =>
    obtain ⟨fresh, distinct⟩ := List.nodup_cons.mp distinct
    obtain ⟨handle, found⟩ := Option.isSome_iff_exists.mp (mapped key (by simp))
    obtain ⟨st₁, first, tracked₁, entries₁, tasks₁, channel₁⟩ := visit_alone tracked purging found
    -- Another key leads to another handle, whose channel this round leaves alone.
    have apart : ∀ other h, st.entries other = some h → other ≠ key → st₁.channel h = st.channel h := by
      intro other h stored distinct
      have different : h ≠ handle := by
        rintro rfl
        exact distinct ((tracked.name other _ stored).symm.trans (tracked.name key _ found))
      rw [channel₁, Function.update_of_ne different]
    have same : emptiedAmong st₁ target keys = emptiedAmong st target keys := by
      refine List.filterMap_congr fun other member => ?_
      rw [entries₁]
      cases stored : st.entries other with
      | none => rfl
      | some h =>
        have distinct : other ≠ key := by
          rintro rfl
          exact fresh member
        simp [apart other h stored distinct]
    obtain ⟨st₂, more, tracked₂, entries₂, tasks₂, channel₂⟩ := ih tracked₁ tasks₁ distinct
      fun other member => entries₁ ▸ mapped other (List.mem_cons_of_mem _ member)
    refine ⟨st₂, first.trans more, tracked₂, entries₂.trans entries₁, ?_, ?_⟩
    · rw [tasks₂, same, List.append_assoc]
      simp only [emptiedAmong, ← List.filterMap_append, List.singleton_append]
    · intro other h stored
      rw [channel₂ other h (entries₁ ▸ stored)]
      by_cases here : other = key
      · subst here
        rw [found, Option.some.injEq] at stored
        subst stored
        simp [fresh, channel₁]
      · simp [here, apart other h stored here]

/-- `purge_user_from_channels` run alone, when its loop meets the entries in the
order in which the map is kept. -/
theorem purge_alone (represents : Represents st s) (tracked : Tracked st)
    (idle : st.tasks uid = .idle) (target : UserId) :
    ∃ st', Alone uid st st' ∧ st'.tasks uid = .idle ∧
      Represents st' (s.purgeUserFromChannels target) := by
  have begin : st.step (.purge uid target) = some (st.goto uid (.purging target [])) := by
    simp [Channels.step, idle]
  obtain ⟨st₁, visits, tracked₁, entries₁, tasks₁, channel₁⟩ :=
    visits_alone (tracked.goto uid (.purging target [])) goto_tasks s.channels.keys_nodup
      (fun key member => by
        have stored : (s.channels.lookup key).isSome := AList.lookup_isSome.mpr member
        rw [← represents key, Option.isSome_map] at stored
        exact stored)
  have close : st₁.step (.visited uid) =
      some (st₁.goto uid (.sweeping (emptiedAmong st target s.channels.keys))) := by
    simp [Channels.step, tasks₁, Channels.goto, emptiedAmong]
  have visited : Represents st₁
      { s with channels := s.channels.mapValues fun _ c => c.removeMember target } := by
    intro key
    rw [Table.lookup_mapValues, ← represents key, entries₁]
    cases stored : st.entries key with
    | none => simp [Channels.goto, stored]
    | some handle =>
      have listed : key ∈ s.channels.keys := by
        rw [← AList.mem_keys, ← AList.lookup_isSome, ← represents key, stored]
        rfl
      simp [Channels.goto, stored, channel₁ key handle stored, listed]
  obtain ⟨st₂, sweep, done, after⟩ := sweep_alone (visited.goto uid _) (tracked₁.goto uid _) goto_tasks
  refine ⟨st₂, (Alone.step begin rfl).trans (visits.trans ((Alone.step close rfl).trans sweep)), done, ?_⟩
  have names : emptiedAmong st target s.channels.keys =
      ((s.channels.values.filter (·.hasMember target)).filter
        fun c => (c.removeMember target).members.entries = []).map Channel.name := by
    simp only [emptiedAmong, represents _]
    rw [Table.filterMap_keys s.channels fun c => (c.filter (emptiedBy target)).map Channel.name,
      List.filter_filter]
    induction s.channels.values with
    | nil => rfl
    | cons c cs ih =>
      by_cases emptied : emptiedBy target c <;>
        simp_all [Option.filter, emptiedBy, Bool.and_comm]
  rw [names] at after
  exact after

end Alone

end RndRust.Irc.Server
