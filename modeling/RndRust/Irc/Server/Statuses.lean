import RndRust.Irc.Server.Origin
import RndRust.Irc.Server.Membership
import RndRust.Irc.Server.Watching

/-! What messages last said of a nick, and what MONITOR says: the nicks of a list are one nick each, and the
nicks of live users lead to them. -/
namespace RndRust.Irc.Server
open Lib Proto

/-- The last that messages say about a nick. -/
def lastStatus (sent : List Message) (nick : Bytes) : Option Bool := (sent.filterMap (statusOf · nick)).getLast?

/-- The nicks are the same as texts, up to the casemapping. -/
def alike (nick other : Bytes) : Bool := fold (fromUtf8Lossy nick) == fold (fromUtf8Lossy other)

section Texts

variable {s : ServerState} {w uid : UserId} {nick n target : Bytes} {nicks : List Bytes} {b : Bool} {code : ReplyCode}
  {first later sent : List Message} {out out' : Outbox} {m : Message}

/-- Text in place of what is no UTF-8 is no valid nick. -/
theorem fold_text (valid : isValidNick nick) : fold (fromUtf8Lossy n) = fold nick ↔ fold n = fold nick := by
  have small : ∀ b ∈ fold nick, b < 128 := Casemap.fold_lt.mpr (isValidNick_ascii valid).1
  constructor
  · intro same
    rw [← same] at small
    rwa [fromUtf8Lossy_of_ascii (Casemap.fold_lt.mp small)] at same
  · intro same
    rw [← same] at small
    rw [fromUtf8Lossy_ascii (Casemap.fold_lt.mp small), same]

theorem alike_valid (valid : isValidNick nick) : alike nick n ↔ fold n = fold nick := by
  rw [alike, fromUtf8Lossy_ascii (isValidNick_ascii valid).1, beq_iff_eq, eq_comm, fold_text valid]

/-- The nicks of a list are named by its text, and no others. -/
theorem namesNick_nickList (told : nicks ≠ []) (single : ∀ n ∈ nicks, comma ∉ n) :
    namesNick (nickList nicks) n = nicks.any (alike · n) := by
  have apart : (nickList nicks).splitOn comma = nicks.map fromUtf8Lossy := by
    refine List.splitOn_intercalate _ (fun item listed => ?_) (by simpa using told)
    obtain ⟨n, among, rfl⟩ := List.mem_map.mp listed
    exact fun member => single n among (mem_of_mem_fromUtf8Lossy (by decide) member)
  rw [namesNick, apart, List.any_map]
  rfl

theorem namesNick_valid (valid : isValidNick nick) : namesNick (fromUtf8Lossy nick) n ↔ fold n = fold nick := by
  have one : fromUtf8Lossy nick = nickList [nick] := by simp [nickList, join]
  rw [one, namesNick_nickList (by simp) (by simpa using (isValidNick_ascii valid).2), List.any_cons, List.any_nil,
    Bool.or_false, alike_valid valid]

theorem lastStatus_append : lastStatus (first ++ later) nick = (lastStatus later nick).or (lastStatus first nick) := by
  simp [lastStatus, List.getLast?_append]

theorem lastStatus_silent (silent : ∀ m ∈ sent, Silent m) : lastStatus sent nick = none := by
  have nothing : sent.filterMap (statusOf · nick) = [] :=
    List.filterMap_eq_nil_iff.mpr fun m listed => silent m listed nick
  rw [lastStatus, nothing]
  rfl

theorem lastStatus_singleton : lastStatus [m] nick = statusOf m nick := by
  cases told : statusOf m nick <;> simp [lastStatus, told]

theorem lastStatus_same {o : Option Bool} (told : sent ≠ []) (same : ∀ m ∈ sent, statusOf m nick = o) :
    lastStatus sent nick = o := by
  induction sent with
  | nil => exact (told rfl).elim
  | cons m more ih =>
    have here : lastStatus [m] nick = o := lastStatus_singleton.trans (same m List.mem_cons_self)
    have split : lastStatus ([m] ++ more) nick = (lastStatus more nick).or (lastStatus [m] nick) := lastStatus_append
    rw [List.singleton_append, here] at split
    cases more with
    | nil => simpa [lastStatus] using split
    | cons m' more =>
      rw [split, ih (by simp) fun m listed => same m (List.mem_cons_of_mem _ listed)]
      cases o <;> rfl

theorem mem_mailFor : m ∈ mailFor w out ↔ (w, m) ∈ out := by
  simp [mailFor]

theorem mailFor_append : mailFor w (out ++ out') = mailFor w out ++ mailFor w out' := by
  simp [mailFor]

theorem Quieted.lastStatus (quieted : Quieted out) : lastStatus (mailFor w out) nick = none :=
  lastStatus_silent fun m listed => quieted (w, m) (mem_mailFor.mp listed)

/-- A numeric that reports `b` of the nicks in its text. -/
def Reports (s : ServerState) (code : ReplyCode) (b : Bool) : Prop :=
  ∀ target text n, statusOf (numericText s target code text) n = if namesNick text n then some b else none

theorem reports_online : Reports s .rplMononline true := fun _ _ _ => rfl

theorem reports_offline : Reports s .rplMonoffline false := fun _ _ _ => rfl

/-- Who watches a nick by name is told. -/
theorem told_notify (reports : Reports s code b) (valid : isValidNick nick) (live : w ∈ s.users) :
    lastStatus (mailFor w (notifyWatchers s code nick)) n =
      if watches (s.objects w).monitorList nick ∧ fold n = fold nick then some b else none := by
  have mail : ∀ m ∈ mailFor w (notifyWatchers s code nick), watches (s.objects w).monitorList nick ∧
      statusOf m n = if fold n = fold nick then some b else none := by
    intro m listed
    obtain ⟨v, watching, same⟩ := List.mem_map.mp (mem_mailFor.mp listed)
    obtain ⟨rfl, rfl⟩ := Prod.mk.inj same
    refine ⟨(List.mem_filter.mp watching).2, ?_⟩
    simp only [reports _ _ _, namesNick_valid valid]
  by_cases watching : watches (s.objects w).monitorList nick
  · refine (lastStatus_same ?_ fun m listed => (mail m listed).2).trans (by simp [watching])
    refine List.ne_nil_of_mem (mem_mailFor.mpr (List.mem_map.mpr ⟨w, ?_, rfl⟩))
    exact List.mem_filter.mpr ⟨live, watching⟩
  · have nothing : mailFor w (notifyWatchers s code nick) = [] :=
      List.eq_nil_iff_forall_not_mem.mpr fun m listed => watching (mail m listed).1
    simp [nothing, watching, lastStatus]

theorem told_list (reports : Reports s code b) (single : ∀ n ∈ nicks, comma ∉ n) :
    lastStatus (mailFor uid (if nicks = [] then [] else [(uid, numericText s target code (nickList nicks))])) n =
      if nicks.any (alike · n) then some b else none := by
  split
  · rename_i empty
    simp [empty, lastStatus]
  · rename_i told
    refine lastStatus_same (by simp [mailFor]) fun m listed => ?_
    have this : m = numericText s target code (nickList nicks) := by simpa [mailFor] using listed
    rw [this, reports, namesNick_nickList told single]

/-- What a user is told of the nicks it asks for. -/
theorem told_status (single : ∀ n ∈ nicks, comma ∉ n) : lastStatus (mailFor uid (statusReplies s uid nicks)) n =
    if nicks.any fun other => alike other n && (s.userByNick other).isNone then some false
    else if nicks.any fun other => alike other n && (s.userByNick other).isSome then some true else none := by
  have among : ∀ p : Bytes → Bool, ∀ n ∈ nicks.filter p, comma ∉ n := fun p n listed =>
    single n (List.mem_filter.mp listed).1
  rw [statusReplies, mailFor_append, lastStatus_append, told_list reports_online (among _),
    told_list reports_offline (among _)]
  simp only [List.any_filter, Bool.and_comm]
  split <;> simp

end Texts

/-- A registered user has the nick, up to the casemapping. -/
def Online (s : ServerState) (nick : Bytes) : Prop :=
  ∃ uid ∈ s.users, (s.objects uid).registered ∧ (s.objects uid).nick.map fold = some (fold nick)

/-- The nick of every live user leads to it, and what is watched is one nick each. -/
structure Accounted (s : ServerState) : Prop where
  sound : Sound s
  named : ∀ uid, Named (s.objects uid)
  listed : ∀ uid ∈ s.users, ∀ key, (s.objects uid).nick.map fold = some key → s.nicks key = some uid
  single : ∀ uid, ∀ n ∈ (s.objects uid).monitorList, comma ∉ n

/-- The users and the nick registry are the same in both states. -/
structure SameUsers (s t : ServerState) : Prop where
  users : t.users = s.users
  nicks : t.nicks = s.nicks
  objects : t.objects = s.objects

/-- The nicks that `MONITOR` tells the status of. -/
def toldNicks (s : ServerState) (uid : UserId) (params : Params) : List Bytes :=
  let list := (s.objects uid).monitorList
  let added (targets : Bytes) :=
    if list.length + (monitorTargets targets).length > monitorLimit then [] else monitorTargets targets
  if (s.objects uid).registered then
    match params.values with
    | [] => []
    | sub :: more =>
      if sub = ascii "+" then added (more.headD [])
      else if sub = ascii "S" ∨ sub = ascii "s" then list
      else if sub.head? = some plus then added sub.tail
      else []
  else []

section States

variable {s t : ServerState} {uid v : UserId} {cmd : Command} {nick n : Bytes} {a : Action}

/-- One nick, one live user. -/
theorem Accounted.unique (accounted : Accounted s) (live : uid ∈ s.users) (alive : v ∈ s.users) {key : Bytes}
    (held : (s.objects uid).nick.map fold = some key) (also : (s.objects v).nick.map fold = some key) : v = uid := by
  have first := accounted.listed uid live key held
  rw [accounted.listed v alive key also, Option.some.injEq] at first
  exact first

theorem joins_same (channels : List Bytes) : SameUsers s (Effect.forEach (joinBody uid) s channels).state := by
  refine Effect.forEach_preserves (SameUsers s) (fun t raw _ same => ?_) ⟨rfl, rfl, rfl⟩
  rcases joinBody_state t uid raw with ⟨-, kept⟩ | ⟨-, mode, joined⟩
  · rwa [kept]
  · rw [joined]
    exact ⟨same.users, same.nicks, same.objects⟩

theorem parts_same (origin : Bytes) (reason : Option Bytes) (channels : List Bytes) :
    SameUsers s (Effect.forEach (partBody uid origin reason) s channels).state := by
  refine Effect.forEach_preserves (SameUsers s) (fun t raw _ same => ?_) ⟨rfl, rfl, rfl⟩
  rcases partBody_state t uid origin reason raw with kept | ⟨c, -, parted⟩
  · rwa [kept]
  · rw [parted]
    exact ⟨removeEmptyChannel_users.trans same.users, removeEmptyChannel_nicks.trans same.nicks,
      removeEmptyChannel_objects.trans same.objects⟩

/-- The nicks of live users lead to them. -/
def Listed (s : ServerState) : Prop :=
  ∀ uid ∈ s.users, ∀ key, (s.objects uid).nick.map fold = some key → s.nicks key = some uid

namespace Listed

theorem of_same (listed : Listed s) (users : t.users = s.users) (nicks : t.nicks = s.nicks)
    (nick : ∀ uid, (t.objects uid).nick = (s.objects uid).nick) : Listed t := by
  intro uid live key named
  rw [users] at live
  rw [nick] at named
  rw [nicks]
  exact listed uid live key named

theorem claims {claimed : ServerState} (listed : Listed s) (ok : s.claimNick uid nick = .ok claimed) :
    Listed (claimed.modifyUser uid fun user => { user with nick := some nick }) := by
  intro v live key named
  rcases claimNick_ok ok with ⟨mine, rfl⟩ | ⟨vacant, -, users, objects, -, -, nicks⟩
  · by_cases same : v = uid
    · subst same
      simp only [ServerState.modifyUser, Function.update_self, Option.map_some, Option.some.injEq] at named
      exact named ▸ mine
    · exact listed v live key (by simpa [ServerState.modifyUser, same] using named)
  · refine (nicks key v).mpr ?_
    by_cases same : v = uid
    · subst same
      simp only [ServerState.modifyUser, Function.update_self, Option.map_some, Option.some.injEq] at named
      exact .inl ⟨named.symm, rfl⟩
    · have held := listed v (users ▸ live) key (by simpa [ServerState.modifyUser, same, objects] using named)
      refine .inr ⟨?_, held, fun ends => same ends.1⟩
      rintro rfl
      rw [vacant] at held
      cases held

theorem removed (listed : Listed s) (sound : Sound s) (uid : UserId) :
    Listed ((s.purgeUserFromChannels uid).removeUser uid) := by
  intro v live key named
  obtain ⟨users, nicks, objects, -⟩ := purge_rest s uid
  obtain ⟨alive, other⟩ := mem_removeUser.mp live
  rw [(removeUser_rest _ uid).1, objects] at named
  exact (removeUser_nicks (sound.purge uid)).mpr ⟨nicks ▸ listed v (users ▸ alive) key named, other⟩

theorem change (listed : Listed s) (sound : Sound s) (changed : Change s uid cmd t) : Listed t := by
  cases changed with
  | quiet same => exact listed.of_same same.users same.nicks same.nick
  | claims ok same => exact (listed.claims ok).of_same same.users same.nicks same.nick
  | @joins channels keys registered =>
    have same : SameUsers s (Effect.forEach (joinBody uid) s channels).state := joins_same channels
    exact listed.of_same same.users same.nicks fun v => by rw [same.objects]
  | @parts channels reason =>
    have same : SameUsers s (Effect.forEach (partBody uid (s.objects uid).originPrefix reason) s channels).state :=
      parts_same _ reason channels
    exact listed.of_same same.users same.nicks fun v => by rw [same.objects]
  | kills found => exact listed.removed sound _

theorem moves (listed : Listed s) (sound : Sound s) (moved : Moves s a t) : Listed t := by
  cases moved with
  | accepts host out =>
    rw [acceptUser_state]
    intro v live key named
    rcases List.mem_cons.mp live with rfl | before
    · simp [ServerState.insertUser] at named
    · have other : v ≠ s.nextUserId := (sound.minted v before).ne
      exact listed v before key (by simpa [ServerState.insertUser, other] using named)
  | obeys read handled => exact listed.change sound (dispatchTyped_change _ _ _ _)
  | cleans uid =>
    unfold cleanup
    split
    · exact listed
    · exact listed.removed sound uid
  | rests => exact listed

end Listed

theorem monitorTargets_single (targets : Bytes) : ∀ n ∈ monitorTargets targets, comma ∉ n :=
  fun _ listed inside => (mem_of_mem_splitOn (List.mem_filter.mp listed).1 inside).2 rfl

/-- What is watched after more nicks were added. -/
theorem mem_watch (nicks list : List Bytes)
    (watched : n ∈ nicks.foldl (fun list n => if watches list n then list else list ++ [n]) list) :
    n ∈ list ∨ n ∈ nicks := by
  induction nicks generalizing list with
  | nil => exact .inl watched
  | cons next more ih =>
    rcases ih _ watched with before | later
    · dsimp only at before
      split at before
      · exact .inl before
      · rcases List.mem_append.mp before with old | new
        · exact .inl old
        · exact .inr (List.mem_cons.mpr (.inl (List.mem_singleton.mp new)))
    · exact .inr (List.mem_cons_of_mem _ later)

/-- What MONITOR leaves in the watch list, and what it says. -/
structure Monitored (s : ServerState) (uid : UserId) (told : List Bytes) (e : Effect) : Prop where
  list : ∀ n ∈ (e.state.objects uid).monitorList, n ∈ (s.objects uid).monitorList ∨ n ∈ told
  single : ∀ n ∈ told, n ∈ (s.objects uid).monitorList ∨ comma ∉ n
  out : e.out = statusReplies s uid told ∨ told = [] ∧ Quieted e.out

namespace Monitored

/-- Nothing is added, and nothing said of a nick. -/
theorem of_quieted {e : Effect} (list : ∀ n ∈ (e.state.objects uid).monitorList, n ∈ (s.objects uid).monitorList)
    (quieted : Quieted e.out) : Monitored s uid [] e :=
  ⟨fun n watched => .inl (list n watched), by simp, .inr ⟨rfl, quieted⟩⟩

theorem add (targets : Bytes) : Monitored s uid
    (if (s.objects uid).monitorList.length + (monitorTargets targets).length > monitorLimit then []
      else monitorTargets targets) (monitorAdd s uid targets) := by
  unfold monitorAdd
  dsimp only
  split
  · exact .of_quieted (fun n watched => watched) (by simp)
  · refine ⟨fun n watched => ?_, fun n listed => .inr (monitorTargets_single targets n listed), .inl rfl⟩
    exact mem_watch _ _ (by simpa [ServerState.modifyUser] using watched)

theorem remove (targets : Bytes) : Monitored s uid [] (monitorRemove s uid targets) := by
  refine .of_quieted (fun n watched => ?_) quieted_nil
  simp only [monitorRemove, ServerState.modifyUser, Function.update_self] at watched
  exact (List.mem_filter.mp watched).1

end Monitored

theorem handleMonitor_told (s : ServerState) (uid : UserId) (params : Params) :
    Monitored s uid (toldNicks s uid params) (handleMonitor s uid params) := by
  unfold handleMonitor toldNicks ensureRegistered
  split
  · cases params.values with
    | nil => exact .of_quieted (fun n watched => watched) quieted_nil
    | cons sub more =>
      dsimp only
      by_cases plus : sub = ascii "+"
      · rw [if_pos plus, if_pos plus]
        exact .add _
      rw [if_neg plus, if_neg plus]
      by_cases status : sub = ascii "S" ∨ sub = ascii "s"
      · have others : sub ≠ ascii "-" ∧ ¬(sub = ascii "C" ∨ sub = ascii "c") ∧
            ¬(sub = ascii "L" ∨ sub = ascii "l") := by
          rcases status with rfl | rfl <;> decide
        rw [if_pos status, if_neg others.1, if_neg others.2.1, if_neg others.2.2, if_pos status]
        exact ⟨fun n watched => .inl watched, fun n listed => .inl listed, .inl rfl⟩
      rw [if_neg status, if_neg status]
      by_cases added : sub.head? = some Proto.plus
      · have others : sub ≠ ascii "-" ∧ ¬(sub = ascii "C" ∨ sub = ascii "c") ∧
            ¬(sub = ascii "L" ∨ sub = ascii "l") := by
          refine ⟨?_, ?_, ?_⟩ <;> (intro is; revert added; rcases is with rfl | rfl <;> decide)
        rw [if_pos added, if_neg others.1, if_neg others.2.1, if_neg others.2.2, if_pos added]
        exact .add _
      rw [if_neg added, if_neg added]
      split
      · exact .remove _
      split
      · exact .of_quieted (fun n watched => by simp [ServerState.modifyUser] at watched) quieted_nil
      split
      · refine .of_quieted (fun n watched => watched) ?_
        unfold monitorListReplies
        dsimp only
        split <;> simp
      split
      · exact .remove _
      · exact .of_quieted (fun n watched => watched) quieted_nil
  · exact .of_quieted (fun n watched => watched) (by simp)

/-- A nick that is claimed and taken. -/
theorem handleNick_list (s : ServerState) (uid : UserId) (requested : Bytes) :
    ((handleNick s uid requested).state.objects uid).monitorList = (s.objects uid).monitorList := by
  unfold handleNick
  split
  · rfl
  split
  · rfl
  cases claim : s.claimNick uid requested with
  | error _ => rfl
  | ok claimed =>
    obtain ⟨objects, -⟩ := claimNick_users s uid claim
    have kept : ((claimed.modifyUser uid fun user => { user with nick := some requested }).objects uid).monitorList =
        (s.objects uid).monitorList := by simp [ServerState.modifyUser, objects]
    dsimp only
    split
    · split <;> exact kept
    · exact (maybeFinalize_reticent _ uid).list.trans kept

/-- What is watched in the next state is one nick each. -/
theorem single_dispatch (single : ∀ v, ∀ n ∈ (s.objects v).monitorList, comma ∉ n) (uid : UserId) (out : Outside)
    (cmd : Command) :
    ∀ v, ∀ n ∈ ((dispatchTyped s uid out cmd).state.objects v).monitorList, comma ∉ n := by
  intro v
  by_cases same : v = uid
  · subst same
    by_cases monitor : ∃ params, cmd = .unknown (ascii "MONITOR") params
    · obtain ⟨params, rfl⟩ := monitor
      have told := handleMonitor_told s v params
      intro n watched
      rcases told.list n watched with before | added
      · exact single v n before
      · exact (told.single n added).elim (single v n) id
    · by_cases nick : ∃ nick, cmd = .nick nick
      · obtain ⟨nick, rfl⟩ := nick
        rw [show dispatchTyped s v out (.nick nick) = handleNick s v nick from rfl, handleNick_list]
        exact single v
      · rw [(dispatchTyped_reticent s v out cmd (by simpa using nick) (by simpa using monitor)).list]
        exact single v
  · rw [(dispatchTyped_revises s uid out cmd).1 v same]
    exact single v

theorem Accounted.moves (accounted : Accounted s) (named : ∀ uid, Named (t.objects uid)) (moved : Moves s a t) :
    Accounted t := by
  refine ⟨accounted.sound.moves moved, named, Listed.moves accounted.listed accounted.sound moved, ?_⟩
  cases moved with
  | accepts host out =>
    intro v
    rw [acceptUser_objects, Function.update_apply]
    split
    · simp
    · exact accounted.single v
  | @obeys uid line flooded out cmd read handled => exact single_dispatch accounted.single uid out cmd
  | cleans uid =>
    rw [cleanup_objects]
    exact accounted.single
  | rests => exact accounted.single

end States

/-- In every reachable state the nicks of live users lead to them, and what is watched is one nick each. -/
theorem reachable_accounted {config : Config} {crates : Crates} {srv : Daemon}
    (reached : (server config crates).Reachable srv) : Accounted srv.state := by
  refine Machine.Reaches.invariant (fun srv => Accounted srv.state) ?_ ?_ reached
  · exact ⟨reachable_sound .initial, reachable_named .initial, by simp [server], by simp [server]⟩
  · intro srv a srv' accounted _ taken
    exact accounted.moves (step_named accounted.named taken) (Daemon.step_moves taken)

end RndRust.Irc.Server
