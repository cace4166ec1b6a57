import RndRust.Irc.Server.Sound
import RndRust.Lib.Runs

/-! The nickname registry step by step. `claim_nick` and `remove_user` each take
several steps on the users map, the nicknames map and a user's lock, and other
connections run in between. -/
namespace RndRust.Irc.Server
open Lib Proto

/-- Where the handler of a connection stands: each constructor is named after the
access that comes next. -/
inductive NickTask where
  /-- The connection is over, or not accepted yet. -/
  | closed
  | idle
  /-- `claim_nick` found the slot vacant and looks the user up. -/
  | finding (nick : Bytes)
  /-- It reads the prior nickname under the user's lock. -/
  | reading (nick : Bytes)
  /-- It looks at the slot of the prior nickname. -/
  | comparing (nick old : Bytes)
  /-- It removes that slot. -/
  | releasing (nick old : Bytes)
  /-- It inserts the slot it claims. -/
  | inserting (nick : Bytes)
  /-- `handle_nick` sets the nickname, of a fresh slot or of the user's own. -/
  | setting (nick : Bytes) (fresh : Bool)
  /-- `claim_nick` returned an error, which is reported. -/
  | refused
  /-- `handle_kill` looks up the owner of the nickname it was given. -/
  | resolving (target : UserId)
  /-- `remove_user` removes the key of the user; the connection closes afterwards when
  it is its own cleanup. -/
  | removing (target : UserId) (closing : Bool)
  /-- It reads the nickname under the user's lock. -/
  | dropped (target : UserId) (closing : Bool)
  /-- It looks at the slot of the nickname. -/
  | matching (target : UserId) (nick : Bytes) (closing : Bool)
  /-- It removes that slot. -/
  | evicting (target : UserId) (nick : Bytes) (closing : Bool)
  deriving DecidableEq, Repr

/-- Where a connection goes after a removal. -/
def NickTask.after (closing : Bool) : NickTask := if closing then .closed else .idle

structure NickState where
  /-- The keys of the users map. -/
  users : List UserId := []
  /-- The nickname behind each user's lock. -/
  nick : UserId → Option Bytes := fun _ => none
  /-- The nicknames map. -/
  nicks : Bytes → Option UserId := fun _ => none
  nextUserId : UserId := 1
  tasks : UserId → NickTask := fun _ => .closed
  /-- Whether the handler of a connection has written to a map since it began. -/
  wrote : UserId → Bool := fun _ => false

/-- One step of the connection of `uid`; `advance` is the next step of the operation
it is in. -/
inductive NickStep where
  | accept
  /-- `handle_nick` calls `claim_nick`, which looks at the slot. -/
  | claim (uid : UserId) (nick : Bytes)
  /-- `handle_kill` looks at the slot of its target. -/
  | kill (uid : UserId) (nick : Bytes)
  /-- `cleanup` looks the user up. -/
  | close (uid : UserId)
  | advance (uid : UserId)
  deriving DecidableEq, Repr

namespace NickState

/-- Go on with another task. -/
def goto (s : NickState) (uid : UserId) (task : NickTask) : NickState :=
  { s with tasks := Function.update s.tasks uid task }

@[simp] theorem goto_task {s : NickState} {uid : UserId} {task : NickTask} :
    (s.goto uid task).tasks uid = task := by
  simp [goto]

/-- Write to the nicknames map. -/
def write (s : NickState) (uid : UserId) (key : Bytes) (owner : Option UserId) : NickState :=
  { s with
    nicks := Function.update s.nicks key owner
    wrote := Function.update s.wrote uid true }

/-- Begin an operation. -/
def begin (s : NickState) (uid : UserId) (task : NickTask) : NickState :=
  { s.goto uid task with wrote := Function.update s.wrote uid false }

/-- The next step of the operation that the handler of `uid` is in. -/
def advance (s : NickState) (uid : UserId) : Option NickState :=
  match s.tasks uid with
  | .closed | .idle => none
  | .finding nick => some (s.goto uid (if uid ∈ s.users then .reading nick else .refused))
  | .reading nick =>
    match s.nick uid with
    | none => some (s.goto uid (.inserting nick))
    | some old => some (s.goto uid (.comparing nick old))
  | .comparing nick old =>
    some (s.goto uid (if s.nicks (fold old) = some uid then .releasing nick old else .inserting nick))
  | .releasing nick old => some ((s.write uid (fold old) none).goto uid (.inserting nick))
  | .inserting nick => some ((s.write uid (fold nick) (some uid)).goto uid (.setting nick true))
  | .setting nick _ => some ({ s with nick := Function.update s.nick uid (some nick) }.goto uid .idle)
  | .refused => some (s.goto uid .idle)
  | .resolving target =>
    some (s.goto uid (if target ∈ s.users then .removing target false else .idle))
  | .removing target closing =>
    if target ∈ s.users then
      some ({ s with
        users := s.users.filter (· ≠ target)
        wrote := Function.update s.wrote uid true }.goto uid (.dropped target closing))
    else some (s.goto uid (.after closing))
  | .dropped target closing =>
    match s.nick target with
    | none => some (s.goto uid (.after closing))
    | some nick => some (s.goto uid (.matching target nick closing))
  | .matching target nick closing =>
    some (s.goto uid
      (if s.nicks (fold nick) = some target then .evicting target nick closing else .after closing))
  | .evicting _ nick closing => some ((s.write uid (fold nick) none).goto uid (.after closing))

def step (s : NickState) : NickStep → Option NickState
  | .accept =>
    some { s.goto s.nextUserId .idle with
      users := s.nextUserId :: s.users
      nextUserId := s.nextUserId + 1 }
  | .claim uid nick =>
    if s.tasks uid = .idle then
      some (s.begin uid (match s.nicks (fold nick) with
        | none => .finding nick
        | some owner => if owner = uid then .setting nick false else .refused))
    else none
  | .kill uid nick =>
    if s.tasks uid = .idle then
      some (s.begin uid (match s.nicks (fold nick) with
        | none => .idle
        | some target => .resolving target))
    else none
  | .close uid =>
    if s.tasks uid = .idle then
      some (s.begin uid (if uid ∈ s.users then .removing uid true else .closed))
    else none
  | .advance uid => s.advance uid

end NickState

/-- The nickname registry, before the first connection. -/
def nickRegistry : Machine NickState NickStep where
  initial := {}
  step := NickState.step

/-- A handler is between the lookup of its user and the setting of its nickname. -/
def NickTask.claims : NickTask → Bool
  | .reading _ | .comparing _ _ | .releasing _ _ | .inserting _ | .setting _ true => true
  | _ => false

/-- A slot is inserted only while it is vacant, and a removed user's nickname is read
only while its own handler is not in the middle of a claim. -/
def orderly (s : NickState) : NickStep → Bool
  | .advance uid =>
    match s.tasks uid with
    | .inserting nick => s.nicks (fold nick) = none
    | .dropped target _ => !(s.tasks target).claims
    | _ => true
  | _ => true

/-- The connection that takes a step. -/
def NickStep.actor : NickStep → Option UserId
  | .accept => none
  | .claim uid _ | .kill uid _ | .close uid | .advance uid => some uid

/-- A claim has written nothing as long as it can be refused. -/
def RefusalsClean (s : NickState) : Prop :=
  ∀ uid, (s.tasks uid = .refused ∨ ∃ nick, s.tasks uid = .finding nick) → s.wrote uid = false

/-- What the next step of a handler can do. -/
inductive Advances (s : NickState) (uid : UserId) : NickState → Prop
  | moves {task : NickTask} (refused : task = .refused → ∃ nick, s.tasks uid = .finding nick)
      (begun : ∀ nick, task ≠ .finding nick) : Advances s uid (s.goto uid task)
  | writes (key : Bytes) (owner : Option UserId) {task : NickTask} (accepted : task ≠ .refused)
      (begun : ∀ nick, task ≠ .finding nick) : Advances s uid ((s.write uid key owner).goto uid task)
  | names (nick : Option Bytes) :
      Advances s uid ({ s with nick := Function.update s.nick uid nick }.goto uid .idle)
  | drops (target : UserId) (closing : Bool) : Advances s uid
      ({ s with
        users := s.users.filter (· ≠ target)
        wrote := Function.update s.wrote uid true }.goto uid (.dropped target closing))

theorem after_ne {closing : Bool} : NickTask.after closing ≠ .refused ∧
    ∀ nick, NickTask.after closing ≠ .finding nick := by
  cases closing <;> exact ⟨nofun, nofun⟩

theorem advance_cases {s s' : NickState} {uid : UserId} (taken : s.advance uid = some s') :
    Advances s uid s' := by
  unfold NickState.advance at taken
  cases here : s.tasks uid with
  | closed | idle => simp [here] at taken
  | finding nick =>
    simp only [here, Option.some.injEq] at taken
    subst taken
    refine .moves (fun _ => ⟨nick, here⟩) fun nick' => ?_
    split <;> nofun
  | reading nick =>
    cases named : s.nick uid with
    | none =>
      simp only [here, named, Option.some.injEq] at taken
      exact taken ▸ .moves nofun nofun
    | some old =>
      simp only [here, named, Option.some.injEq] at taken
      exact taken ▸ .moves nofun nofun
  | comparing nick old =>
    simp only [here, Option.some.injEq] at taken
    subst taken
    split <;> exact .moves nofun nofun
  | releasing nick old =>
    simp only [here, Option.some.injEq] at taken
    exact taken ▸ .writes _ _ nofun nofun
  | inserting nick =>
    simp only [here, Option.some.injEq] at taken
    exact taken ▸ .writes _ _ nofun nofun
  | setting nick fresh =>
    simp only [here, Option.some.injEq] at taken
    exact taken ▸ .names _
  | refused =>
    simp only [here, Option.some.injEq] at taken
    exact taken ▸ .moves nofun nofun
  | resolving target =>
    simp only [here, Option.some.injEq] at taken
    subst taken
    split <;> exact .moves nofun nofun
  | removing target closing =>
    simp only [here] at taken
    split at taken
    · cases taken
      exact .drops target closing
    · cases taken
      exact .moves (fun refused => absurd refused after_ne.1) after_ne.2
  | dropped target closing =>
    cases named : s.nick target with
    | none =>
      simp only [here, named, Option.some.injEq] at taken
      exact taken ▸ .moves (fun refused => absurd refused after_ne.1) after_ne.2
    | some nick =>
      simp only [here, named, Option.some.injEq] at taken
      exact taken ▸ .moves nofun nofun
  | matching target nick closing =>
    simp only [here, Option.some.injEq] at taken
    subst taken
    split
    · exact .moves nofun nofun
    · exact .moves (fun refused => absurd refused after_ne.1) after_ne.2
  | evicting target nick closing =>
    simp only [here, Option.some.injEq] at taken
    exact taken ▸ .writes _ _ after_ne.1 after_ne.2

/-- What the first step of an operation does: it finds out where to go on. -/
theorem begin_cases {s s' : NickState} {a : NickStep} {uid : UserId} (own : a.actor = some uid)
    (taken : s.step a = some s') : Advances s uid s' ∨ ∃ task, s' = s.begin uid task := by
  cases a with
  | accept => cases own
  | advance v =>
    cases own
    exact .inl (advance_cases taken)
  | claim v nick | kill v nick | close v =>
    cases own
    simp only [NickState.step] at taken
    split at taken
    · cases taken
      exact .inr ⟨_, rfl⟩
    · cases taken

section Refusals

variable {s s' : NickState} {uid v : UserId} {a : NickStep}

/-- What a handler has not written, it has not changed. -/
theorem unwritten (own : a.actor = some uid) (taken : s.step a = some s')
    (clean : s'.wrote uid = false) : s'.users = s.users ∧ s'.nicks = s.nicks := by
  rcases begin_cases own taken with advanced | ⟨task, rfl⟩
  · cases advanced with
    | moves => exact ⟨rfl, rfl⟩
    | names => exact ⟨rfl, rfl⟩
    | writes => simp [NickState.goto, NickState.write] at clean
    | drops => simp [NickState.goto] at clean
  · exact ⟨rfl, rfl⟩

/-- A step leaves alone where the others stand and what they wrote. -/
theorem step_others (taken : s.step a = some s') (other : a.actor ≠ some v) :
    (s'.tasks v = s.tasks v ∨ s'.tasks v = .idle) ∧ s'.wrote v = s.wrote v := by
  cases actor : a.actor with
  | none =>
    cases a <;> cases actor
    cases taken
    by_cases same : v = s.nextUserId
    · exact ⟨.inr (by simp [NickState.goto, same]), rfl⟩
    · exact ⟨.inl (by simp [NickState.goto, same]), rfl⟩
  | some uid =>
    have elsewhere : v ≠ uid := by
      rintro rfl
      exact other actor
    rcases begin_cases actor taken with advanced | ⟨task, rfl⟩
    · cases advanced <;> simp [NickState.goto, NickState.write, elsewhere]
    · simp [NickState.begin, NickState.goto, elsewhere]

theorem step_refusals (before : RefusalsClean s) (taken : s.step a = some s') : RefusalsClean s' := by
  intro v place
  by_cases own : a.actor = some v
  · rcases begin_cases own taken with advanced | ⟨task, rfl⟩
    · cases advanced with
      | moves refused begun =>
        rw [NickState.goto_task] at place
        rcases place with here | ⟨nick, here⟩
        · exact before v (.inr (refused here))
        · exact absurd here (begun nick)
      | names nick =>
        rw [NickState.goto_task] at place
        simp at place
      | writes key owner accepted begun =>
        rw [NickState.goto_task] at place
        rcases place with here | ⟨nick, here⟩
        · exact absurd here accepted
        · exact absurd here (begun nick)
      | drops target closing =>
        rw [NickState.goto_task] at place
        simp at place
    · simp [NickState.begin]
  · obtain ⟨same | idle, wrote⟩ := step_others taken own
    · rw [same] at place
      rw [wrote]
      exact before v place
    · simp [idle] at place

end Refusals

/-! Without interference the steps compute what `claim_nick` and `remove_user`
compute on a server state. -/

/-- The maps and the locks hold the users and nicknames of a server state. -/
structure NickState.Represents (st : NickState) (s : ServerState) : Prop where
  users : st.users = s.users
  nick : ∀ uid, st.nick uid = (s.objects uid).nick
  nicks : st.nicks = s.nicks

/-- `uid` takes some steps while nobody else does. -/
def NickState.Alone (uid : UserId) : NickState → NickState → Prop :=
  Relation.ReflTransGen fun st st' => st.advance uid = some st'

section Alone

variable {st : NickState} {s : ServerState} {uid target : UserId} {nick old : Bytes} {closing : Bool}

theorem NickState.Alone.step {st' : NickState} (taken : st.advance uid = some st') : st.Alone uid st' :=
  .single taken

theorem NickState.Alone.trans {st' st'' : NickState} (first : st.Alone uid st')
    (later : st'.Alone uid st'') : st.Alone uid st'' := Relation.ReflTransGen.trans first later

theorem NickState.Represents.release (represents : st.Represents s)
    (own : s.nicks (fold old) = some target) :
    (st.write uid (fold old) none).Represents (s.releaseNick target old) := by
  refine ⟨?_, fun v => ?_, ?_⟩ <;> simp only [ServerState.releaseNick, own, if_true]
  · exact represents.users
  · exact represents.nick v
  · rw [← represents.nicks]
    rfl

theorem NickState.Represents.insert (represents : st.Represents s) :
    (st.write uid (fold nick) (some uid)).Represents
      { s with nicks := Function.update s.nicks (fold nick) (some uid) } where
  users := represents.users
  nick := represents.nick
  nicks := by rw [← represents.nicks]; rfl

theorem NickState.Represents.set (represents : st.Represents s) :
    { st with nick := Function.update st.nick uid (some nick) }.Represents
      (s.modifyUser uid fun user => { user with nick := some nick }) where
  users := represents.users
  nick v := by
    by_cases same : v = uid
    · subst same
      simp [ServerState.modifyUser]
    · simp [ServerState.modifyUser, same, represents.nick v]
  nicks := represents.nicks

theorem NickState.Represents.goto (represents : st.Represents s) (task : NickTask) :
    (st.goto uid task).Represents s := ⟨represents.users, represents.nick, represents.nicks⟩

/-- The end of a claim: the slot is inserted and the nickname set. -/
theorem inserting_alone (represents : st.Represents s) (here : st.tasks uid = .inserting nick) :
    ∃ st', st.Alone uid st' ∧ st'.tasks uid = .idle ∧
      st'.Represents (ServerState.modifyUser
        { s with nicks := Function.update s.nicks (fold nick) (some uid) } uid
        fun user => { user with nick := some nick }) := by
  set st₁ := (st.write uid (fold nick) (some uid)).goto uid (.setting nick true) with inserted
  have insert : st.advance uid = some st₁ := by simp [NickState.advance, here, inserted]
  have place : st₁.tasks uid = .setting nick true := NickState.goto_task
  have set : st₁.advance uid =
      some ({ st₁ with nick := Function.update st₁.nick uid (some nick) }.goto uid .idle) := by
    simp [NickState.advance, place]
  exact ⟨_, (NickState.Alone.step insert).trans (.step set), NickState.goto_task,
    ((represents.insert.goto _).set).goto _⟩

/-- The middle of a claim: the prior nickname is released first, if it is the user's. -/
theorem reading_alone (represents : st.Represents s) (here : st.tasks uid = .reading nick)
    (vacant : s.nicks (fold nick) = none) (live : uid ∈ s.users) :
    ∃ st' released, st.Alone uid st' ∧ st'.tasks uid = .inserting nick ∧ st'.Represents released ∧
      s.claimNick uid nick = .ok { released with
        nicks := Function.update released.nicks (fold nick) (some uid) } := by
  cases named : (s.objects uid).nick with
  | none =>
    have claimed : s.claimNick uid nick =
        .ok { s with nicks := Function.update s.nicks (fold nick) (some uid) } := by
      simp [ServerState.claimNick, ServerState.user, vacant, live, named]
    have read : st.advance uid = some (st.goto uid (.inserting nick)) := by
      simp [NickState.advance, here, represents.nick, named]
    exact ⟨_, s, .step read, NickState.goto_task, represents.goto _, claimed⟩
  | some old =>
    have claimed : s.claimNick uid nick = .ok { s.releaseNick uid old with
        nicks := Function.update (s.releaseNick uid old).nicks (fold nick) (some uid) } := by
      simp [ServerState.claimNick, ServerState.user, vacant, live, named]
    set st₁ := st.goto uid (.comparing nick old) with compares
    have read : st.advance uid = some st₁ := by
      simp [NickState.advance, here, represents.nick, named, compares]
    have place : st₁.tasks uid = .comparing nick old := NickState.goto_task
    have nicks : st₁.nicks = s.nicks := represents.nicks
    by_cases own : s.nicks (fold old) = some uid
    · set st₂ := st₁.goto uid (.releasing nick old) with releases
      have compare : st₁.advance uid = some st₂ := by
        simp [NickState.advance, place, nicks, own, releases]
      have release : st₂.advance uid =
          some ((st₂.write uid (fold old) none).goto uid (.inserting nick)) := by
        simp [NickState.advance, releases]
      exact ⟨_, _, (NickState.Alone.step read).trans ((NickState.Alone.step compare).trans
        (.step release)), NickState.goto_task, (((represents.goto _).goto _).release own).goto _, claimed⟩
    · have compare : st₁.advance uid = some (st₁.goto uid (.inserting nick)) := by
        simp [NickState.advance, place, nicks, own]
      have kept : s.releaseNick uid old = s := if_neg own
      rw [kept] at claimed
      exact ⟨_, s, (NickState.Alone.step read).trans (.step compare), NickState.goto_task,
        (represents.goto _).goto _, claimed⟩

/-- `claim_nick` run alone, with the nickname set when it succeeds. -/
theorem claim_alone (represents : st.Represents s) (idle : st.tasks uid = .idle) :
    ∃ st₁ st', st.step (.claim uid nick) = some st₁ ∧ st₁.Alone uid st' ∧ st'.tasks uid = .idle ∧
      st'.Represents (match s.claimNick uid nick with
        | .ok claimed => claimed.modifyUser uid fun user => { user with nick := some nick }
        | .error _ => s) := by
  have begun : ∀ task, (st.begin uid task).Represents s := fun task =>
    ⟨represents.users, represents.nick, represents.nicks⟩
  have refuse : ∀ {st : NickState}, st.tasks uid = .refused → st.Represents s →
      ∃ st', st.Alone uid st' ∧ st'.tasks uid = .idle ∧ st'.Represents s := by
    intro st here represents
    have refused : st.advance uid = some (st.goto uid .idle) := by simp [NickState.advance, here]
    exact ⟨_, .step refused, NickState.goto_task, represents.goto _⟩
  have nicks : st.nicks (fold nick) = s.nicks (fold nick) := by rw [represents.nicks]
  cases slot : s.nicks (fold nick) with
  | some owner =>
    by_cases own : owner = uid
    · have start : st.step (.claim uid nick) = some (st.begin uid (.setting nick false)) := by
        simp [NickState.step, idle, nicks, slot, own]
      have set : (st.begin uid (.setting nick false)).advance uid = some
          ({ st.begin uid (.setting nick false) with
            nick := Function.update (st.begin uid (.setting nick false)).nick uid (some nick) }.goto
              uid .idle) := by
        simp [NickState.advance, NickState.begin, NickState.goto]
      refine ⟨_, _, start, .step set, NickState.goto_task, ?_⟩
      simpa [ServerState.claimNick, slot, own] using (begun _).set.goto _
    · have start : st.step (.claim uid nick) = some (st.begin uid .refused) := by
        simp [NickState.step, idle, nicks, slot, own]
      have place : (st.begin uid .refused).tasks uid = .refused := NickState.goto_task
      obtain ⟨st', alone, done, after⟩ := refuse place (begun .refused)
      refine ⟨_, st', start, alone, done, ?_⟩
      simpa [ServerState.claimNick, slot, own] using after
  | none =>
    have start : st.step (.claim uid nick) = some (st.begin uid (.finding nick)) := by
      simp [NickState.step, idle, nicks, slot]
    by_cases live : uid ∈ s.users
    · have find : (st.begin uid (.finding nick)).advance uid =
          some ((st.begin uid (.finding nick)).goto uid (.reading nick)) := by
        simp [NickState.advance, NickState.begin, NickState.goto, represents.users, live]
      obtain ⟨st₁, released, reads, inserting, prior, claimed⟩ :=
        reading_alone ((begun (.finding nick)).goto _) NickState.goto_task slot live
      obtain ⟨st₂, inserts, done, after⟩ := inserting_alone prior inserting
      refine ⟨_, st₂, start, (NickState.Alone.step find).trans (reads.trans inserts), done, ?_⟩
      rw [claimed]
      exact after
    · have find : (st.begin uid (.finding nick)).advance uid =
          some ((st.begin uid (.finding nick)).goto uid .refused) := by
        simp [NickState.advance, NickState.begin, NickState.goto, represents.users, live]
      obtain ⟨st', alone, done, after⟩ := refuse NickState.goto_task ((begun (.finding nick)).goto _)
      refine ⟨_, st', start, (NickState.Alone.step find).trans alone, done, ?_⟩
      simpa [ServerState.claimNick, ServerState.user, slot, live] using after

/-- `remove_user` run alone. -/
theorem removing_alone (represents : st.Represents s) (here : st.tasks uid = .removing target closing) :
    ∃ st', st.Alone uid st' ∧ st'.tasks uid = .after closing ∧ st'.Represents (s.removeUser target) := by
  have users := represents.users
  by_cases live : target ∈ s.users
  · set st₁ := NickState.goto { st with
        users := st.users.filter (· ≠ target)
        wrote := Function.update st.wrote uid true } uid (.dropped target closing) with dropped
    set s₁ := { s with users := s.users.filter (· ≠ target) } with removed
    have drop : st.advance uid = some st₁ := by
      simp [NickState.advance, here, users, live, dropped]
    have place : st₁.tasks uid = .dropped target closing := NickState.goto_task
    have represents' : st₁.Represents s₁ := ⟨by simp [dropped, removed, users, NickState.goto],
      represents.nick, represents.nicks⟩
    cases named : (s.objects target).nick with
    | none =>
      have read : st₁.advance uid = some (st₁.goto uid (.after closing)) := by
        simp [NickState.advance, place, represents'.nick, removed, named]
      refine ⟨_, (NickState.Alone.step drop).trans (.step read), NickState.goto_task, ?_⟩
      have left : s.removeUser target = s₁ := by simp [ServerState.removeUser, live, named, removed]
      exact left ▸ represents'.goto _
    | some nick =>
      set st₂ := st₁.goto uid (.matching target nick closing) with matches'
      have read : st₁.advance uid = some st₂ := by
        simp [NickState.advance, place, represents'.nick, removed, named, matches']
      have here : st₂.tasks uid = .matching target nick closing := NickState.goto_task
      have nicks : st₂.nicks = s.nicks := represents.nicks
      have left : s.removeUser target = s₁.releaseNick target nick := by
        simp [ServerState.removeUser, live, named, removed]
      by_cases own : s.nicks (fold nick) = some target
      · set st₃ := st₂.goto uid (.evicting target nick closing) with evicts
        have compare : st₂.advance uid = some st₃ := by
          simp [NickState.advance, here, nicks, own, evicts]
        have evict : st₃.advance uid =
            some ((st₃.write uid (fold nick) none).goto uid (.after closing)) := by
          simp [NickState.advance, evicts]
        have released : (st₃.write uid (fold nick) none).Represents (s₁.releaseNick target nick) :=
          NickState.Represents.release ((represents'.goto _).goto _) own
        refine ⟨_, (NickState.Alone.step drop).trans ((NickState.Alone.step read).trans
          ((NickState.Alone.step compare).trans (.step evict))), NickState.goto_task, ?_⟩
        exact left ▸ released.goto _
      · have compare : st₂.advance uid = some (st₂.goto uid (.after closing)) := by
          simp [NickState.advance, here, nicks, own]
        refine ⟨_, (NickState.Alone.step drop).trans ((NickState.Alone.step read).trans
          (.step compare)), NickState.goto_task, ?_⟩
        have kept : s₁.releaseNick target nick = s₁ := if_neg own
        exact (left.trans kept) ▸ (represents'.goto _).goto _
  · have skip : st.advance uid = some (st.goto uid (.after closing)) := by
      simp [NickState.advance, here, users, live]
    refine ⟨_, .step skip, NickState.goto_task, ?_⟩
    simpa [ServerState.removeUser, live] using represents.goto _

end Alone

end RndRust.Irc.Server
