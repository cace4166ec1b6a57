import RndRust.Irc.Server.NickRace

/-! What every place of a handler can rely on, and why each step keeps it. -/
namespace RndRust.Irc.Server
open Lib Proto

namespace NickTask

/-- The user a removal is about, from the moment its key is gone. -/
def removes : NickTask → Option UserId
  | .dropped target _ | .matching target _ _ | .evicting target _ _ => some target
  | _ => none

/-- The slot of a user in the middle of a claim, while its nickname does not say it. -/
def slot : NickTask → Option (Option Bytes)
  | .inserting _ => some none
  | .setting nick true => some (some (fold nick))
  | _ => none

end NickTask

section Invariant

variable (s : NickState) (uid : UserId)

/-- The key of a user's nickname. -/
def NickState.key : Option Bytes := (s.nick uid).map fold

/-- No removal has read the nickname of `uid` yet. -/
def Unread : Prop := uid ∈ s.users ∨ ∃ w closing, s.tasks w = .dropped uid closing

/-- The slot of `uid` is to stay, or is still to be removed. -/
def Held : Prop := uid ∈ s.users ∨ ∃ w, (s.tasks w).removes = some uid

/-- The slots that belong to `uid`. -/
def Owns (key : Bytes) : Prop :=
  match (s.tasks uid).slot with
  | some slot => slot = some key
  | none => Held s uid ∧ s.key uid = some key

/-- The key of `uid` was in the users map, and is gone. -/
def Removed : Prop := uid ∉ s.users ∧ uid < s.nextUserId

/-- What a handler can rely on, at each place. -/
def Stands : NickTask → Prop
  | .reading _ | .inserting _ | .setting _ true => Unread s uid
  | .comparing _ old | .releasing _ old => Unread s uid ∧ s.nick uid = some old
  | .setting nick false => s.key uid = some (fold nick)
  | .dropped target _ => Removed s target
  | .matching target nick _ | .evicting target nick _ =>
    Removed s target ∧ s.key target = some (fold nick) ∧ ¬ (s.tasks target).claims
  | _ => True

/-- The nicknames map is exactly what the users, their nicknames and the places of
their handlers say. -/
structure Consistent : Prop where
  stands : ∀ uid, Stands s uid (s.tasks uid)
  ledger : ∀ key uid, s.nicks key = some uid ↔ Owns s uid key
  single : ∀ w w' target, (s.tasks w).removes = some target → (s.tasks w').removes = some target →
    w = w'
  fresh : ∀ uid, s.nextUserId ≤ uid → uid ∉ s.users ∧ s.tasks uid = .closed ∧ s.nick uid = none

end Invariant

/-- What a step of `uid` leaves to the handlers of the others. -/
structure Leaves (s s' : NickState) (uid : UserId) : Prop where
  tasks : ∀ v, v ≠ uid → s'.tasks v = s.tasks v
  nick : ∀ v, v ≠ uid → s'.nick v = s.nick v
  key : ¬ (s.tasks uid).claims → s'.key uid = s.key uid
  users : ∀ v ∈ s'.users, v ∈ s.users
  nextUserId : s'.nextUserId = s.nextUserId
  unread : ∀ v, v ≠ uid → (s.tasks v).claims → Unread s v → Unread s' v
  claims : (s'.tasks uid).claims → (s.tasks uid).claims ∨ uid ∈ s.users

section Steps

variable {s s' : NickState} {uid v w : UserId} {task : NickTask} {key nick : Bytes}

theorem Unread.held (unread : Unread s uid) : Held s uid := by
  rcases unread with live | ⟨w, closing, dropped⟩
  · exact .inl live
  · exact .inr ⟨w, by simp [dropped, NickTask.removes]⟩

/-- What stands at the place of one handler survives a step of another. -/
theorem Stands.leaves (stands : Stands s w task) (here : s.tasks w = task) (other : w ≠ uid)
    (leaves : Leaves s s' uid) : Stands s' w task := by
  have unread : task.claims → Unread s w → Unread s' w := here ▸ leaves.unread w other
  have removed : ∀ {target}, Removed s target → Removed s' target := fun gone =>
    ⟨fun live => gone.1 (leaves.users _ live), leaves.nextUserId ▸ gone.2⟩
  have target : ∀ {target nick}, Removed s target ∧ s.key target = some (fold nick) ∧
      ¬ (s.tasks target).claims → Removed s' target ∧ s'.key target = some (fold nick) ∧
      ¬ (s'.tasks target).claims := by
    rintro target nick ⟨gone, key, settled⟩
    refine ⟨removed gone, ?_, ?_⟩
    · by_cases same : target = uid
      · subst same
        rw [leaves.key settled]
        exact key
      · rw [NickState.key, leaves.nick target same]
        exact key
    · by_cases same : target = uid
      · subst same
        intro claims
        rcases leaves.claims claims with before | live
        · exact settled before
        · exact gone.1 live
      · rw [leaves.tasks target same]
        exact settled
  cases task with
  | reading | inserting => exact unread rfl stands
  | comparing | releasing => exact ⟨unread rfl stands.1, leaves.nick w other ▸ stands.2⟩
  | setting nick fresh =>
    cases fresh with
    | true => exact unread rfl stands
    | false =>
      rw [Stands, NickState.key, leaves.nick w other]
      exact stands
  | dropped => exact removed stands
  | matching | evicting => exact target stands
  | closed | idle | finding | refused | resolving | removing => trivial

/-- A step of `uid` keeps the invariant when it leaves the others alone, knows what
it relies on next, and accounts for the slots. -/
theorem Consistent.step (consistent : Consistent s) (leaves : Leaves s s' uid)
    (opened : s.tasks uid ≠ .closed) (stands : Stands s' uid (s'.tasks uid))
    (ledger : ∀ key v, s'.nicks key = some v ↔ Owns s' v key)
    (removes : ∀ target, (s'.tasks uid).removes = some target →
      (s.tasks uid).removes = some target ∨ target ∈ s.users) : Consistent s' := by
  have absent : ∀ w target, (s.tasks w).removes = some target → target ∉ s.users := by
    intro w target removing
    have stands := consistent.stands w
    cases task : s.tasks w <;> simp_all [NickTask.removes, Stands, Removed]
  refine ⟨fun w => ?_, ledger, fun w w' target first second => ?_, fun v unminted => ?_⟩
  · by_cases same : w = uid
    · exact same ▸ stands
    · rw [leaves.tasks w same]
      exact (consistent.stands w).leaves rfl same leaves
  · have before : ∀ w, (s'.tasks w).removes = some target →
        (s.tasks w).removes = some target ∨ (w = uid ∧ target ∈ s.users) := by
      intro w removing
      by_cases same : w = uid
      · subst same
        exact (removes target removing).imp id fun live => ⟨rfl, live⟩
      · exact .inl (leaves.tasks w same ▸ removing)
    rcases before w first with old | ⟨rfl, live⟩
    · rcases before w' second with old' | ⟨-, live⟩
      · exact consistent.single w w' target old old'
      · exact absurd live (absent w target old)
    · rcases before w' second with old' | ⟨rfl, -⟩
      · exact absurd live (absent w' target old')
      · rfl
  · rw [leaves.nextUserId] at unminted
    obtain ⟨absent, closed, unnamed⟩ := consistent.fresh v unminted
    have other : v ≠ uid := by
      rintro rfl
      exact opened closed
    refine ⟨fun live => absent (leaves.users v live), ?_, ?_⟩
    · rw [leaves.tasks v other]
      exact closed
    · rw [leaves.nick v other]
      exact unnamed

/-! The slots of the other users are not touched by a step of `uid`, as long as none
of them stops being held. -/

theorem Leaves.owns (leaves : Leaves s s' uid) (other : v ≠ uid) (held : Held s' v ↔ Held s v) :
    Owns s' v key ↔ Owns s v key := by
  unfold Owns
  rw [leaves.tasks v other, held, NickState.key, NickState.key, leaves.nick v other]

theorem Leaves.held (leaves : Leaves s s' uid) (users : s'.users = s.users)
    (removes : (s'.tasks uid).removes = (s.tasks uid).removes) : Held s' v ↔ Held s v := by
  unfold Held
  rw [users]
  refine or_congr_right (exists_congr fun w => ?_)
  by_cases same : w = uid
  · rw [same, removes]
  · rw [leaves.tasks w same]

theorem goto_unread (undropped : ∀ closing, s.tasks uid ≠ .dropped v closing) (unread : Unread s v) :
    Unread (s.goto uid task) v := by
  refine unread.imp id ?_
  rintro ⟨w, closing, dropped⟩
  have other : w ≠ uid := by
    rintro rfl
    exact undropped closing dropped
  exact ⟨w, closing, by simpa [NickState.goto, other] using dropped⟩

/-- The handler of `uid` moves on without writing. -/
theorem goto_leaves (unread : ∀ v, (s.tasks v).claims → ∀ closing, s.tasks uid ≠ .dropped v closing)
    (claims : task.claims → (s.tasks uid).claims ∨ uid ∈ s.users) : Leaves s (s.goto uid task) uid where
  tasks v other := by simp [NickState.goto, other]
  nick _ _ := rfl
  key _ := rfl
  users _ := id
  nextUserId := rfl
  unread v _ claiming := goto_unread (unread v claiming)
  claims := by simpa using claims

/-- It does, and its user's slot stays what it was. -/
theorem Consistent.goto (consistent : Consistent s) (leaves : Leaves s (s.goto uid task) uid)
    (opened : s.tasks uid ≠ .closed) (removes : task.removes = (s.tasks uid).removes)
    (owns : ∀ key, Owns s uid key ↔ Owns (s.goto uid task) uid key)
    (stands : Stands (s.goto uid task) uid task) : Consistent (s.goto uid task) := by
  have held : ∀ v, Held (s.goto uid task) v ↔ Held s v := fun v =>
    leaves.held rfl (by rw [NickState.goto_task, removes])
  refine consistent.step leaves opened (by rwa [NickState.goto_task]) (fun key v => ?_) fun target removing => ?_
  · rw [show (s.goto uid task).nicks key = s.nicks key from rfl, consistent.ledger]
    by_cases same : v = uid
    · subst same
      exact owns key
    · exact (leaves.owns same (held v)).symm
  · rw [NickState.goto_task, removes] at removing
    exact .inl removing

/-- Between two places where the nickname says what the slot is, nothing is owed. -/
theorem goto_owns (leaves : Leaves s (s.goto uid task) uid) (slot : task.slot = (s.tasks uid).slot)
    (removes : task.removes = (s.tasks uid).removes) :
    Owns s uid key ↔ Owns (s.goto uid task) uid key := by
  have held : Held (s.goto uid task) uid ↔ Held s uid :=
    leaves.held rfl (by rw [NickState.goto_task, removes])
  unfold Owns
  rw [NickState.goto_task, slot, held]
  rfl

/-- The handler writes one slot. -/
theorem write_leaves {owner : Option UserId} (undropped : ∀ v closing, s.tasks uid ≠ .dropped v closing)
    (settled : task.claims → (s.tasks uid).claims) :
    Leaves s ((s.write uid key owner).goto uid task) uid where
  tasks v other := by simp [NickState.goto, NickState.write, other]
  nick _ _ := rfl
  key _ := rfl
  users _ := id
  nextUserId := rfl
  unread v _ _ := goto_unread (s := s.write uid key owner) (undropped v)
  claims claims := .inl (settled (by simpa using claims))

/-- The slot `key` of `v`, its only one, is removed. -/
theorem ledger_erase (consistent : Consistent s) (own : Owns s v key)
    (only : ∀ other, Owns s v other → other = key) (nicks : s'.nicks = Function.update s.nicks key none)
    (rest : ∀ w, w ≠ v → ∀ other, Owns s' w other ↔ Owns s w other)
    (given : ∀ other, ¬ Owns s' v other) (other : Bytes) (w : UserId) :
    s'.nicks other = some w ↔ Owns s' w other := by
  have held : s.nicks key = some v := (consistent.ledger key v).mpr own
  rw [nicks]
  by_cases same : w = v
  · subst same
    refine ⟨fun stored => ?_, fun owned => absurd owned (given other)⟩
    by_cases here : other = key
    · simp [here] at stored
    · rw [Function.update_of_ne here, consistent.ledger] at stored
      exact absurd (only other stored) here
  · rw [rest w same, ← consistent.ledger]
    by_cases here : other = key
    · subst here
      simp [held, Ne.symm same]
    · rw [Function.update_of_ne here]

/-- The vacant slot `key` becomes the only one of `v`. -/
theorem ledger_insert (consistent : Consistent s) (vacant : s.nicks key = none)
    (none : ∀ other, ¬ Owns s v other) (nicks : s'.nicks = Function.update s.nicks key (some v))
    (rest : ∀ w, w ≠ v → ∀ other, Owns s' w other ↔ Owns s w other)
    (own : ∀ other, Owns s' v other ↔ key = other) (other : Bytes) (w : UserId) :
    s'.nicks other = some w ↔ Owns s' w other := by
  rw [nicks]
  by_cases here : other = key
  · subst here
    by_cases same : w = v
    · subst same
      simp [own]
    · rw [rest w same, ← consistent.ledger, vacant]
      simp [Ne.symm same]
  · rw [Function.update_of_ne here, consistent.ledger]
    by_cases same : w = v
    · subst same
      simp [none, own, Ne.symm here]
    · rw [rest w same]

end Steps

/-! One lemma for each place a handler can be at. -/

section Places

variable {s : NickState} {uid target : UserId} {nick old : Bytes} {closing : Bool}

/-- A handler that is not removing anybody, and whose user's nickname says what its
slot is, moves to a place where this is so as well. -/
theorem Consistent.passes (consistent : Consistent s) {now task : NickTask} (here : s.tasks uid = now)
    (opened : now ≠ .closed) (removes : now.removes = none) (removes' : task.removes = none)
    (slot : now.slot = none) (slot' : task.slot = none)
    (claims : task.claims → now.claims ∨ uid ∈ s.users)
    (stands : Stands (s.goto uid task) uid task) : Consistent (s.goto uid task) := by
  have leaves : Leaves s (s.goto uid task) uid := by
    refine goto_leaves (fun v _ closing dropped => ?_) (here ▸ claims)
    rw [← here, dropped] at removes
    cases removes
  refine consistent.goto leaves (here ▸ opened) (by rw [here, removes, removes']) (fun key => ?_) stands
  exact goto_owns leaves (by rw [here, slot, slot']) (by rw [here, removes, removes'])

theorem goto_unread_of {now task : NickTask} (here : s.tasks uid = now) (removes : now.removes = none)
    (unread : Unread s uid) : Unread (s.goto uid task) uid := by
  refine goto_unread (fun closing dropped => ?_) unread
  rw [← here, dropped] at removes
  cases removes

theorem finding_step (consistent : Consistent s) (here : s.tasks uid = .finding nick) :
    Consistent (s.goto uid (if uid ∈ s.users then .reading nick else .refused)) := by
  split
  · rename_i live
    exact consistent.passes here nofun rfl rfl rfl rfl (fun _ => .inr live) (.inl live)
  · exact consistent.passes here nofun rfl rfl rfl rfl nofun trivial

/-- The user of a claim that has given up no slot yet has the one its nickname says. -/
theorem unread_owns (slot : (s.tasks uid).slot = none) (unread : Unread s uid) {key : Bytes} :
    Owns s uid key ↔ s.key uid = some key := by
  unfold Owns
  rw [slot]
  simp [unread.held]

theorem inserting_owns (here : s.tasks uid = .inserting nick) {key : Bytes} : ¬ Owns s uid key := by
  simp [Owns, here, NickTask.slot]

/-- With no slot to give up, the handler goes on to insert its own. -/
theorem reading_unnamed (consistent : Consistent s) (here : s.tasks uid = .reading nick)
    (unnamed : s.nick uid = none) : Consistent (s.goto uid (.inserting nick)) := by
  have unread : Unread s uid := by simpa [Stands, here] using consistent.stands uid
  have leaves : Leaves s (s.goto uid (.inserting nick)) uid :=
    goto_leaves (fun v _ closing => by simp [here]) (fun _ => .inl (by rw [here]; rfl))
  refine consistent.goto leaves (by simp [here]) (by rw [here]; rfl) (fun key => ?_)
    (goto_unread_of here rfl unread)
  rw [unread_owns (by rw [here]; rfl) unread]
  simp [inserting_owns NickState.goto_task, NickState.key, unnamed]

theorem reading_named (consistent : Consistent s) (here : s.tasks uid = .reading nick)
    (named : s.nick uid = some old) : Consistent (s.goto uid (.comparing nick old)) := by
  have unread : Unread s uid := by simpa [Stands, here] using consistent.stands uid
  exact consistent.passes here nofun rfl rfl rfl rfl (fun _ => .inl rfl)
    ⟨goto_unread_of here rfl unread, named⟩

/-- The slot of the prior nickname is the user's own. -/
theorem comparing_step (consistent : Consistent s) (here : s.tasks uid = .comparing nick old) :
    s.nicks (fold old) = some uid ∧ Consistent (s.goto uid (.releasing nick old)) := by
  have stands : Unread s uid ∧ s.nick uid = some old := by
    simpa [Stands, here] using consistent.stands uid
  obtain ⟨unread, named⟩ := stands
  constructor
  · rw [consistent.ledger, unread_owns (by rw [here]; rfl) unread, NickState.key, named]
    rfl
  · exact consistent.passes here nofun rfl rfl rfl rfl (fun _ => .inl rfl)
      ⟨goto_unread_of here rfl unread, named⟩

theorem releasing_step (consistent : Consistent s) (here : s.tasks uid = .releasing nick old) :
    Consistent ((s.write uid (fold old) none).goto uid (.inserting nick)) := by
  have stands : Unread s uid ∧ s.nick uid = some old := by
    simpa [Stands, here] using consistent.stands uid
  obtain ⟨unread, named⟩ := stands
  have owns : ∀ key, Owns s uid key ↔ fold old = key := by
    intro key
    rw [unread_owns (by rw [here]; rfl) unread, NickState.key, named]
    simp
  have leaves : Leaves s ((s.write uid (fold old) none).goto uid (.inserting nick)) uid :=
    write_leaves (by simp [here]) (fun _ => by rw [here]; rfl)
  have removes : (((s.write uid (fold old) none).goto uid (.inserting nick)).tasks uid).removes =
      (s.tasks uid).removes := by
    rw [NickState.goto_task, here]
    rfl
  refine consistent.step leaves (by simp [here]) ?_ ?_ (fun target removing => .inl (removes ▸ removing))
  · rw [NickState.goto_task]
    exact goto_unread_of (s := s.write uid (fold old) none) here rfl unread
  · refine ledger_erase consistent ((owns _).mpr rfl) (fun other own => ((owns other).mp own).symm) rfl
      (fun w other key => leaves.owns other (leaves.held rfl removes)) fun other => ?_
    exact inserting_owns NickState.goto_task

theorem inserting_step (consistent : Consistent s) (here : s.tasks uid = .inserting nick)
    (vacant : s.nicks (fold nick) = none) :
    Consistent ((s.write uid (fold nick) (some uid)).goto uid (.setting nick true)) := by
  have unread : Unread s uid := by simpa [Stands, here] using consistent.stands uid
  have leaves : Leaves s ((s.write uid (fold nick) (some uid)).goto uid (.setting nick true)) uid :=
    write_leaves (by simp [here]) (fun _ => by rw [here]; rfl)
  have removes : (((s.write uid (fold nick) (some uid)).goto uid (.setting nick true)).tasks uid).removes =
      (s.tasks uid).removes := by
    rw [NickState.goto_task, here]
    rfl
  refine consistent.step leaves (by simp [here]) ?_ ?_ (fun target removing => .inl (removes ▸ removing))
  · rw [NickState.goto_task]
    exact goto_unread_of (s := s.write uid (fold nick) (some uid)) here rfl unread
  · refine ledger_insert consistent vacant (fun other => inserting_owns here) rfl
      (fun w other key => leaves.owns other (leaves.held rfl removes)) fun other => ?_
    simp [Owns, NickTask.slot]

/-- Setting a nickname keeps the slots, when it says what they are already. -/
theorem Consistent.sets (consistent : Consistent s) {fresh : Bool}
    (here : s.tasks uid = .setting nick fresh)
    (key : ¬ (s.tasks uid).claims → s.key uid = some (fold nick))
    (owns : ∀ key, Owns s uid key ↔ Held s uid ∧ fold nick = key) :
    Consistent ({ s with nick := Function.update s.nick uid (some nick) }.goto uid .idle) := by
  set s' := { s with nick := Function.update s.nick uid (some nick) }.goto uid .idle with after
  have named : s'.key uid = some (fold nick) := by simp [after, NickState.key, NickState.goto]
  have leaves : Leaves s s' uid := {
    tasks v other := by simp [after, NickState.goto, other]
    nick v other := by simp [after, NickState.goto, other]
    key settled := named.trans (key settled).symm
    users _ := id
    nextUserId := rfl
    unread v _ _ := goto_unread (s := { s with nick := Function.update s.nick uid (some nick) })
      (by simp [here])
    claims claims := by
      rw [after, NickState.goto_task] at claims
      cases claims }
  have removes : (s'.tasks uid).removes = (s.tasks uid).removes := by
    rw [after, NickState.goto_task, here]
    cases fresh <;> rfl
  have held : ∀ v, Held s' v ↔ Held s v := fun v => leaves.held rfl removes
  refine consistent.step leaves (by simp [here]) ?_ (fun other v => ?_)
    (fun target removing => .inl (removes ▸ removing))
  · rw [after, NickState.goto_task]
    trivial
  · rw [show s'.nicks = s.nicks from rfl, consistent.ledger]
    by_cases same : v = uid
    · subst same
      rw [owns]
      unfold Owns
      rw [held, named, after, NickState.goto_task]
      simp [NickTask.slot]
    · exact (leaves.owns same (held v)).symm

theorem setting_step (consistent : Consistent s) {fresh : Bool} (here : s.tasks uid = .setting nick fresh) :
    Consistent ({ s with nick := Function.update s.nick uid (some nick) }.goto uid .idle) := by
  cases fresh with
  | true =>
    have unread : Unread s uid := by simpa [Stands, here] using consistent.stands uid
    refine consistent.sets here (fun settled => absurd (by rw [here]; rfl) settled) fun key => ?_
    simp [Owns, here, NickTask.slot, unread.held]
  | false =>
    have key : s.key uid = some (fold nick) := by simpa [Stands, here] using consistent.stands uid
    refine consistent.sets here (fun _ => key) fun other => ?_
    simp [Owns, here, NickTask.slot, key]

/-- A removal takes the user's key away and then owes the removal of its slot. -/
theorem removing_step (consistent : Consistent s) (here : s.tasks uid = .removing target closing)
    (live : target ∈ s.users) (wrote : UserId → Bool) : Consistent
    ({ s with users := s.users.filter (· ≠ target), wrote := wrote }.goto uid (.dropped target closing)) := by
  set s' := { s with users := s.users.filter (· ≠ target), wrote := wrote }.goto uid
    (.dropped target closing) with after
  have users : ∀ v, v ∈ s'.users ↔ v ∈ s.users ∧ v ≠ target := by simp [after, NickState.goto]
  have task : s'.tasks uid = .dropped target closing := by rw [after, NickState.goto_task]
  have others : ∀ v, v ≠ uid → s'.tasks v = s.tasks v := by
    intro v other
    simp [after, NickState.goto, other]
  have leaves : Leaves s s' uid := {
    tasks := others
    nick _ _ := rfl
    key _ := rfl
    users v alive := ((users v).mp alive).1
    nextUserId := rfl
    unread v other _ unread := by
      rcases unread with alive | ⟨w, closing', dropped⟩
      · by_cases same : v = target
        · exact .inr ⟨uid, closing, same ▸ task⟩
        · exact .inl ((users v).mpr ⟨alive, same⟩)
      · have elsewhere : w ≠ uid := by
          rintro rfl
          simp [here] at dropped
        exact .inr ⟨w, closing', others w elsewhere ▸ dropped⟩
    claims claims := by
      rw [task] at claims
      cases claims }
  have held : ∀ v, Held s' v ↔ Held s v := by
    intro v
    constructor
    · rintro (alive | ⟨w, removes⟩)
      · exact .inl ((users v).mp alive).1
      · by_cases same : w = uid
        · simp only [same, task, NickTask.removes, Option.some.injEq] at removes
          exact .inl (removes ▸ live)
        · exact .inr ⟨w, others w same ▸ removes⟩
    · rintro (alive | ⟨w, removes⟩)
      · by_cases same : v = target
        · exact .inr ⟨uid, by rw [task, same]; rfl⟩
        · exact .inl ((users v).mpr ⟨alive, same⟩)
      · have elsewhere : w ≠ uid := by
          rintro rfl
          simp [here, NickTask.removes] at removes
        exact .inr ⟨w, others w elsewhere ▸ removes⟩
  refine consistent.step leaves (by simp [here]) ?_ (fun key v => ?_) fun other removes => ?_
  · rw [task]
    refine ⟨fun alive => ((users target).mp alive).2 rfl, ?_⟩
    by_contra unminted
    exact (consistent.fresh target (not_lt.mp unminted)).1 live
  · rw [show s'.nicks = s.nicks from rfl, consistent.ledger]
    by_cases same : v = uid
    · subst same
      unfold Owns
      rw [held, task, here]
      rfl
    · exact (leaves.owns same (held v)).symm
  · simp only [task, NickTask.removes, Option.some.injEq] at removes
    exact .inr (removes ▸ live)

theorem dropped_named (consistent : Consistent s) (here : s.tasks uid = .dropped target closing)
    (settled : ¬ (s.tasks target).claims) (named : s.nick target = some nick) :
    Consistent (s.goto uid (.matching target nick closing)) := by
  have removed : Removed s target := by simpa [Stands, here] using consistent.stands uid
  have leaves : Leaves s (s.goto uid (.matching target nick closing)) uid := by
    refine goto_leaves (fun v claims closing' dropped => ?_) nofun
    rw [here] at dropped
    cases dropped
    exact settled claims
  have removes : NickTask.removes (.matching target nick closing) = (s.tasks uid).removes := by
    rw [here]
    rfl
  refine consistent.goto leaves (by simp [here]) removes
    (fun key => goto_owns leaves (by rw [here]; rfl) removes)
    ⟨removed, by simp [NickState.key, NickState.goto, named], ?_⟩
  by_cases same : target = uid
  · subst same
    rw [NickState.goto_task]
    nofun
  · rw [leaves.tasks target same]
    exact settled

/-- Outside of a claim the nickname says what the slot is. -/
theorem unclaimed_slot {task : NickTask} (settled : ¬ task.claims) : task.slot = none := by
  cases task with
  | setting nick fresh => cases fresh <;> first | rfl | exact absurd rfl settled
  | inserting nick => exact absurd rfl settled
  | _ => rfl

/-- A removal has its user's slot before it, at both of its last places. -/
theorem matching_owns (stands : Removed s target ∧ s.key target = some (fold nick) ∧
    ¬ (s.tasks target).claims) (removes : (s.tasks uid).removes = some target) {key : Bytes} :
    Owns s target key ↔ fold nick = key := by
  have slot : (s.tasks target).slot = none := unclaimed_slot stands.2.2
  have held : Held s target := .inr ⟨uid, removes⟩
  unfold Owns
  rw [slot]
  simp [held, stands.2.1]

theorem matching_step (consistent : Consistent s) (here : s.tasks uid = .matching target nick closing) :
    s.nicks (fold nick) = some target ∧ Consistent (s.goto uid (.evicting target nick closing)) := by
  have stands : Removed s target ∧ s.key target = some (fold nick) ∧ ¬ (s.tasks target).claims := by
    simpa [Stands, here] using consistent.stands uid
  have removes : NickTask.removes (.evicting target nick closing) = (s.tasks uid).removes := by
    rw [here]
    rfl
  constructor
  · have removes : (s.tasks uid).removes = some target := by rw [here]; rfl
    rw [consistent.ledger, matching_owns stands removes]
  · have leaves : Leaves s (s.goto uid (.evicting target nick closing)) uid :=
      goto_leaves (by simp [here]) nofun
    refine consistent.goto leaves (by simp [here]) removes
      (fun key => goto_owns leaves (by rw [here]; rfl) removes) ⟨stands.1, stands.2.1, ?_⟩
    by_cases same : target = uid
    · subst same
      rw [NickState.goto_task]
      nofun
    · rw [leaves.tasks target same]
      exact stands.2.2

/-- After a removal nobody holds the slot of its user, and everybody else holds what
they did. -/
theorem finish_held {s' : NickState} (consistent : Consistent s) (leaves : Leaves s s' uid)
    (removes : (s.tasks uid).removes = some target) (absent : target ∉ s.users)
    (users : s'.users = s.users) (done : (s'.tasks uid).removes = none) :
    ¬ Held s' target ∧ ∀ v, v ≠ target → (Held s' v ↔ Held s v) := by
  constructor
  · rintro (alive | ⟨w, again⟩)
    · exact absent (users ▸ alive)
    · by_cases same : w = uid
      · rw [same, done] at again
        cases again
      · rw [leaves.tasks w same] at again
        exact same (consistent.single w uid target again removes)
  · intro v other
    unfold Held
    rw [users]
    refine or_congr_right ⟨?_, ?_⟩
    · rintro ⟨w, removing⟩
      by_cases same : w = uid
      · rw [same, done] at removing
        cases removing
      · exact ⟨w, leaves.tasks w same ▸ removing⟩
    · rintro ⟨w, removing⟩
      by_cases same : w = uid
      · rw [same, removes] at removing
        cases removing
        exact absurd rfl other
      · exact ⟨w, (leaves.tasks w same).symm ▸ removing⟩

/-- What the last step of a removal has to account for: its user owns no slot after
it, and the others own what they did. -/
theorem finish_owns {s' : NickState} (consistent : Consistent s) (leaves : Leaves s s' uid)
    (removes : (s.tasks uid).removes = some target) (absent : target ∉ s.users)
    (settled : ¬ (s.tasks target).claims) (users : s'.users = s.users)
    (task : s'.tasks uid = .after closing) (key : s'.key uid = s.key uid) (other : Bytes) :
    ¬ Owns s' target other ∧ ∀ v, v ≠ target → (Owns s' v other ↔ Owns s v other) := by
  have done : (s'.tasks uid).removes = none ∧ (s'.tasks uid).slot = none := by
    rw [task]
    cases closing <;> exact ⟨rfl, rfl⟩
  obtain ⟨released, held⟩ := finish_held consistent leaves removes absent users done.1
  constructor
  · have slot : (s'.tasks target).slot = none := by
      by_cases same : target = uid
      · rw [same]
        exact done.2
      · rw [leaves.tasks target same]
        exact unclaimed_slot settled
    unfold Owns
    rw [slot]
    exact fun owned => released owned.1
  · intro v elsewhere
    by_cases same : v = uid
    · subst same
      have slot : (s.tasks v).slot = none := by
        cases task : s.tasks v <;> simp_all [NickTask.removes, NickTask.slot]
      unfold Owns
      rw [done.2, slot, held v elsewhere, key]
    · exact leaves.owns same (held v elsewhere)

theorem after_stands : Stands s uid (.after closing) := by
  cases closing <;> trivial

theorem after_removes : (NickTask.after closing).removes = none := by
  cases closing <;> rfl

theorem after_claims : ¬ (NickTask.after closing).claims := by
  cases closing <;> nofun

theorem dropped_unnamed (consistent : Consistent s) (here : s.tasks uid = .dropped target closing)
    (settled : ¬ (s.tasks target).claims) (unnamed : s.nick target = none) :
    Consistent (s.goto uid (.after closing)) := by
  have removed : Removed s target := by simpa [Stands, here] using consistent.stands uid
  have leaves : Leaves s (s.goto uid (.after closing)) uid := by
    refine goto_leaves (fun v claims closing' dropped => ?_) fun claims => absurd claims after_claims
    rw [here] at dropped
    cases dropped
    exact settled claims
  refine consistent.step leaves (by simp [here]) (by simpa using after_stands) (fun key v => ?_)
    fun other removes => ?_
  · obtain ⟨none, rest⟩ := finish_owns consistent leaves (by rw [here]; rfl) removed.1 settled rfl NickState.goto_task
      rfl key
    rw [show (s.goto uid (.after closing)).nicks = s.nicks from rfl, consistent.ledger]
    by_cases same : v = target
    · subst same
      have nothing : ¬ Owns s v key := by
        unfold Owns
        rw [unclaimed_slot settled]
        simp [NickState.key, unnamed]
      simp [none, nothing]
    · exact (rest v same).symm
  · simp [after_removes] at removes

theorem evicting_step (consistent : Consistent s) (here : s.tasks uid = .evicting target nick closing) :
    Consistent ((s.write uid (fold nick) none).goto uid (.after closing)) := by
  have stands : Removed s target ∧ s.key target = some (fold nick) ∧ ¬ (s.tasks target).claims := by
    simpa [Stands, here] using consistent.stands uid
  have removes : (s.tasks uid).removes = some target := by
    rw [here]
    rfl
  have leaves : Leaves s ((s.write uid (fold nick) none).goto uid (.after closing)) uid :=
    write_leaves (by simp [here]) fun claims => absurd claims after_claims
  have finish := finish_owns consistent leaves removes stands.1.1 stands.2.2 rfl NickState.goto_task rfl
  refine consistent.step leaves (by simp [here]) (by simpa using after_stands) ?_ fun other removing => ?_
  · refine ledger_erase consistent ((matching_owns stands removes).mpr rfl)
      (fun other own => ((matching_owns stands removes).mp own).symm) rfl
      (fun w elsewhere key => (finish key).2 w elsewhere) fun key => (finish key).1
  · simp [after_removes] at removing

theorem Consistent.wrote (consistent : Consistent s) (wrote : UserId → Bool) :
    Consistent { s with wrote := wrote } :=
  ⟨consistent.stands, consistent.ledger, consistent.single, consistent.fresh⟩

theorem begin_step (consistent : Consistent s) (here : s.tasks uid = .idle) {task : NickTask}
    (removes : task.removes = none) (slot : task.slot = none) (claims : ¬ task.claims)
    (stands : Stands (s.goto uid task) uid task) : Consistent (s.begin uid task) :=
  Consistent.wrote
    (consistent.passes here nofun rfl removes rfl slot (fun claiming => absurd claiming claims) stands) _

/-- A slot of the user's own says the nickname it has. -/
theorem own_key (consistent : Consistent s) (here : s.tasks uid = .idle)
    (own : s.nicks (fold nick) = some uid) : s.key uid = some (fold nick) := by
  have owns : Owns s uid (fold nick) := (consistent.ledger _ _).mp own
  unfold Owns at owns
  rw [here] at owns
  exact owns.2

/-- A newcomer disturbs nobody. -/
theorem Stands.accept {s' : NickState} {w : UserId} {task : NickTask} (stands : Stands s w task)
    (users : ∀ v, v ∈ s'.users ↔ v = s.nextUserId ∨ v ∈ s.users)
    (tasks : ∀ v, v ≠ s.nextUserId → s'.tasks v = s.tasks v) (nick : s'.nick = s.nick)
    (closed : s.tasks s.nextUserId = .closed) (next : s'.nextUserId = s.nextUserId + 1) :
    Stands s' w task := by
  have unread : Unread s w → Unread s' w := by
    rintro (live | ⟨v, closing, dropped⟩)
    · exact .inl ((users w).mpr (.inr live))
    · have other : v ≠ s.nextUserId := by
        rintro rfl
        rw [closed] at dropped
        cases dropped
      exact .inr ⟨v, closing, (tasks v other).trans dropped⟩
  have removed : ∀ {target}, Removed s target → Removed s' target := by
    rintro target ⟨absent, minted⟩
    refine ⟨fun live => ?_, next ▸ minted.trans (Nat.lt_succ_self _)⟩
    rcases (users target).mp live with rfl | before
    · exact lt_irrefl _ minted
    · exact absent before
  have key : ∀ v, s'.key v = s.key v := by
    intro v
    rw [NickState.key, NickState.key, nick]
  have target : ∀ {target nick}, Removed s target ∧ s.key target = some (fold nick) ∧
      ¬ (s.tasks target).claims → Removed s' target ∧ s'.key target = some (fold nick) ∧
      ¬ (s'.tasks target).claims := by
    rintro target nick ⟨gone, named, settled⟩
    exact ⟨removed gone, (key target).trans named, tasks target gone.2.ne ▸ settled⟩
  cases task with
  | reading | inserting => exact unread stands
  | comparing | releasing => exact ⟨unread stands.1, nick ▸ stands.2⟩
  | setting nick fresh =>
    cases fresh with
    | true => exact unread stands
    | false => exact (key w).trans stands
  | dropped => exact removed stands
  | matching | evicting => exact target stands
  | closed | idle | finding | refused | resolving | removing => trivial

theorem accept_step (consistent : Consistent s) {s' : NickState} (taken : s.step .accept = some s') :
    Consistent s' := by
  obtain ⟨-, closed, unnamed⟩ := consistent.fresh s.nextUserId le_rfl
  have users : ∀ v, v ∈ s'.users ↔ v = s.nextUserId ∨ v ∈ s.users := by
    cases taken
    simp
  have newcomer : s'.tasks s.nextUserId = .idle := by
    cases taken
    simp [NickState.goto]
  have tasks : ∀ v, v ≠ s.nextUserId → s'.tasks v = s.tasks v := by
    intro v other
    cases taken
    simp [NickState.goto, other]
  have rest : s'.nick = s.nick ∧ s'.nicks = s.nicks ∧ s'.nextUserId = s.nextUserId + 1 := by
    cases taken
    exact ⟨rfl, rfl, rfl⟩
  obtain ⟨nick, nicks, next⟩ := rest
  have key : s'.key = s.key := by
    funext v
    rw [NickState.key, NickState.key, nick]
  have removes : ∀ w target, (s'.tasks w).removes = some target ↔ (s.tasks w).removes = some target := by
    intro w target
    by_cases same : w = s.nextUserId
    · rw [same, newcomer, closed]
      exact Iff.rfl
    · rw [tasks w same]
  refine ⟨fun w => ?_, fun k v => ?_, fun w w' target first second => ?_, fun v unminted => ?_⟩
  · by_cases same : w = s.nextUserId
    · rw [same, newcomer]
      trivial
    · rw [tasks w same]
      exact (consistent.stands w).accept users tasks nick closed next
  · rw [nicks, consistent.ledger]
    unfold Owns
    by_cases same : v = s.nextUserId
    · rw [same, newcomer, closed, key]
      simp [NickTask.slot, NickState.key, unnamed]
    · have held : Held s' v ↔ Held s v := by
        unfold Held
        rw [users]
        simp [same, removes]
      rw [tasks v same, held, key]
  · exact consistent.single w w' target ((removes w target).mp first) ((removes w' target).mp second)
  · rw [next] at unminted
    have later : s.nextUserId < v := Nat.lt_of_succ_le unminted
    have other : v ≠ s.nextUserId := later.ne'
    obtain ⟨absent, closed, unnamed⟩ := consistent.fresh v later.le
    refine ⟨fun live => ?_, (tasks v other).trans closed, nick ▸ unnamed⟩
    rcases (users v).mp live with rfl | before
    · exact other rfl
    · exact absent before

end Places

/-- The next step of a handler, in order, keeps the invariant. -/
theorem advance_consistent {s s' : NickState} {uid : UserId} (consistent : Consistent s)
    (orderly : orderly s (.advance uid)) (taken : s.advance uid = some s') : Consistent s' := by
  unfold NickState.advance at taken
  cases here : s.tasks uid with
  | closed | idle => simp [here] at taken
  | finding nick =>
    simp only [here, Option.some.injEq] at taken
    exact taken ▸ finding_step consistent here
  | reading nick =>
    cases named : s.nick uid with
    | none =>
      simp only [here, named, Option.some.injEq] at taken
      exact taken ▸ reading_unnamed consistent here named
    | some old =>
      simp only [here, named, Option.some.injEq] at taken
      exact taken ▸ reading_named consistent here named
  | comparing nick old =>
    obtain ⟨own, next⟩ := comparing_step consistent here
    simp only [here, own, if_true, Option.some.injEq] at taken
    exact taken ▸ next
  | releasing nick old =>
    simp only [here, Option.some.injEq] at taken
    exact taken ▸ releasing_step consistent here
  | inserting nick =>
    simp only [here, Option.some.injEq] at taken
    exact taken ▸ inserting_step consistent here (by simpa [Server.orderly, here] using orderly)
  | setting nick fresh =>
    simp only [here, Option.some.injEq] at taken
    exact taken ▸ setting_step consistent here
  | refused =>
    simp only [here, Option.some.injEq] at taken
    exact taken ▸ consistent.passes here nofun rfl rfl rfl rfl nofun trivial
  | resolving target =>
    simp only [here, Option.some.injEq] at taken
    subst taken
    split
    · exact consistent.passes here nofun rfl rfl rfl rfl nofun trivial
    · exact consistent.passes here nofun rfl rfl rfl rfl nofun trivial
  | removing target closing =>
    simp only [here] at taken
    split at taken
    · rename_i live
      cases taken
      exact removing_step consistent here live _
    · cases taken
      exact consistent.passes here nofun rfl after_removes rfl (unclaimed_slot after_claims)
        (fun claims => absurd claims after_claims) after_stands
  | dropped target closing =>
    have settled : ¬ (s.tasks target).claims := by simpa [Server.orderly, here] using orderly
    cases named : s.nick target with
    | none =>
      simp only [here, named, Option.some.injEq] at taken
      exact taken ▸ dropped_unnamed consistent here settled named
    | some nick =>
      simp only [here, named, Option.some.injEq] at taken
      exact taken ▸ dropped_named consistent here settled named
  | matching target nick closing =>
    obtain ⟨own, next⟩ := matching_step consistent here
    simp only [here, own, if_true, Option.some.injEq] at taken
    exact taken ▸ next
  | evicting target nick closing =>
    simp only [here, Option.some.injEq] at taken
    exact taken ▸ evicting_step consistent here

theorem step_consistent {s s' : NickState} {a : NickStep} (consistent : Consistent s)
    (orderly : orderly s a) (taken : s.step a = some s') : Consistent s' := by
  cases a with
  | accept => exact accept_step consistent taken
  | advance uid => exact advance_consistent consistent orderly taken
  | claim uid nick =>
    simp only [NickState.step] at taken
    split at taken
    · rename_i idle
      cases taken
      cases slot : s.nicks (fold nick) with
      | none => exact begin_step consistent idle rfl rfl Bool.false_ne_true trivial
      | some owner =>
        dsimp only
        split
        · rename_i own
          have key : s.key uid = some (fold nick) := own_key consistent idle (own ▸ slot)
          exact begin_step consistent idle rfl rfl Bool.false_ne_true key
        · exact begin_step consistent idle rfl rfl Bool.false_ne_true trivial
    · cases taken
  | kill uid nick =>
    simp only [NickState.step] at taken
    split at taken
    · rename_i idle
      cases taken
      split <;> exact begin_step consistent idle rfl rfl Bool.false_ne_true trivial
    · cases taken
  | close uid =>
    simp only [NickState.step] at taken
    split at taken
    · rename_i idle
      cases taken
      split <;> exact begin_step consistent idle rfl rfl Bool.false_ne_true trivial
    · cases taken

end RndRust.Irc.Server
