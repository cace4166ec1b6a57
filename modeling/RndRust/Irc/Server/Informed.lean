import RndRust.Irc.Server.Statuses

/-! Which steps leave everybody informed of the nicks they watch. A status is sent by MONITOR itself, by the
rename of a registered user and by the end of a connection; the first registration of a user and KILL send
none. Watch lists are compared up to ASCII case, the nick registry by the casemapping, and MONITOR counts
holders that have yet to register. -/
namespace RndRust.Irc.Server
open Lib Proto

/-- Every nick that a live user watches satisfies `ok`. -/
def everyWatch (s : ServerState) (ok : UserId → Bytes → Bool) : Bool :=
  s.users.all fun w => (s.objects w).monitorList.all (ok w)

/-- Nobody watches a nick. -/
def unwatched (s : ServerState) (nick : Bytes) : Bool := everyWatch s fun _ n => fold n != fold nick

/-- The nick with which a command completes the registration of its user. -/
def completes (s : ServerState) (uid : UserId) (cmd : Command) : Option Bytes :=
  let user := s.objects uid
  let next : Option UserInner := match cmd with
    | .nick nick =>
      if isValidNick nick && (s.claimNick uid nick).toBool then some { user with nick := some nick } else none
    | .user userName _ realname => some { user with reg := some ⟨userName, realname⟩ }
    | .cap .done _ => some { user with capNegotiating := false }
    | _ => none
  (next.filter UserInner.ready).bind UserInner.nick

/-- The old and the new nick of a registered user that renames itself. -/
def renames (s : ServerState) (uid : UserId) : Command → Option (Bytes × Bytes)
  | .nick nick =>
    if (s.objects uid).registered && isValidNick nick && (s.claimNick uid nick).toBool then
      (s.objects uid).nick.map fun old => (old, nick)
    else none
  | _ => none

/-- The user a command removes. -/
def kills (s : ServerState) (uid : UserId) : Command → Option UserId
  | .unknown verb params =>
    if verb = ascii "KILL" ∧ (s.objects uid).registered ∧ hasPrivilege s uid .kill ∧
        2 ≤ params.values.length then
      s.userByNick (params.values.headD [])
    else none
  | _ => none

/-- The nicks a command tells the status of. -/
def asks (s : ServerState) (uid : UserId) : Command → List Bytes
  | .unknown verb params => if verb = ascii "MONITOR" then toldNicks s uid params else []
  | _ => []

/-- Who watches the new nick is told of it under that name, or keeps what it knows of the old
one; who watches the old nick alone is told of that one. -/
def renameHeard (s : ServerState) (old new : Bytes) : Bool :=
  everyWatch s fun w n =>
    let list := (s.objects w).monitorList
    if fold n = fold new then watches list new || (fold n == fold old && !watches list old)
    else fold n != fold old || watches list old

/-- The command of a user leaves no stale status. -/
def heard (s : ServerState) (uid : UserId) (cmd : Command) : Bool :=
  (!(s.users.contains uid) || (completes s uid cmd).all (unwatched s)) &&
    ((renames s uid cmd).all fun (old, new) => renameHeard s old new) &&
    ((kills s uid cmd).all fun target => !(s.objects target).registered || (s.objects target).nick.all fun nick =>
      everyWatch s fun w n => w == target || fold n != fold nick) &&
    (!(s.users.contains uid) || (asks s uid cmd).all fun n =>
      (s.userByNick n).all fun holder => (s.objects holder).registered)

/-- The end of a connection leaves no stale status. -/
def goodbyeHeard (s : ServerState) (uid : UserId) : Bool :=
  !(s.users.contains uid) || !(s.objects uid).registered || (s.objects uid).nick.all fun nick =>
    everyWatch s fun w n => w == uid || fold n != fold nick || watches (s.objects w).monitorList nick

/-- The step leaves no stale status. -/
def informs (s : ServerState) : Action → Bool
  | .receive uid line flooded _ => !handles s uid flooded || (lineCommand line).all (heard s uid)
  | .cleanup uid => goodbyeHeard s uid
  | _ => true

/-- After the effect, what a user was last told of a nick it watches is right if it was before:
either it is told now, or nothing changes. -/
def Informed (s : ServerState) (e : Effect) : Prop :=
  ∀ w ∈ e.state.users, ∀ n ∈ (e.state.objects w).monitorList,
    (∃ b, lastStatus (mailFor w e.out) n = some b ∧ (b = true ↔ Online e.state n)) ∨
      (lastStatus (mailFor w e.out) n = none ∧ w ∈ s.users ∧ n ∈ (s.objects w).monitorList ∧
        (Online e.state n ↔ Online s n))

section Steps

variable {s t : ServerState} {uid v w : UserId} {cmd : Command} {nick n : Bytes} {e : Effect}
  {ok : UserId → Bytes → Bool}

theorem everyWatch_spec (every : everyWatch s ok) (live : w ∈ s.users) (watched : n ∈ (s.objects w).monitorList) :
    ok w n :=
  List.all_eq_true.mp (List.all_eq_true.mp every w live) n watched

theorem unwatched_spec (none : unwatched s nick) (live : w ∈ s.users) (watched : n ∈ (s.objects w).monitorList) :
    fold n ≠ fold nick := by
  simpa using everyWatch_spec none live watched

/-- Nobody else has the nick of a live user. -/
theorem Accounted.online_iff (accounted : Accounted s) (live : uid ∈ s.users)
    (named : (s.objects uid).nick = some nick) (same : fold n = fold nick) : Online s n ↔ (s.objects uid).registered := by
  have held : (s.objects uid).nick.map fold = some (fold n) := by rw [named, same, Option.map_some]
  constructor
  · rintro ⟨v, alive, registered, also⟩
    rwa [accounted.unique live alive held also] at registered
  · exact fun registered => ⟨uid, live, registered, held⟩

/-- A nick that only other users may have. -/
theorem online_others (others : ∀ v ≠ uid, (v ∈ t.users ↔ v ∈ s.users) ∧ t.objects v = s.objects v)
    (before : uid ∈ s.users → (s.objects uid).registered → (s.objects uid).nick.map fold ≠ some (fold n))
    (after : uid ∈ t.users → (t.objects uid).registered → (t.objects uid).nick.map fold ≠ some (fold n)) :
    Online t n ↔ Online s n := by
  constructor
  · rintro ⟨v, live, registered, held⟩
    have other : v ≠ uid := by
      rintro rfl
      exact after live registered held
    obtain ⟨users, objects⟩ := others v other
    rw [objects] at registered held
    exact ⟨v, users.mp live, registered, held⟩
  · rintro ⟨v, live, registered, held⟩
    have other : v ≠ uid := by
      rintro rfl
      exact before live registered held
    obtain ⟨users, objects⟩ := others v other
    rw [← objects] at registered held
    exact ⟨v, users.mpr live, registered, held⟩

theorem online_same (users : t.users = s.users)
    (registered : ∀ v, (t.objects v).registered = (s.objects v).registered)
    (nick : ∀ v, (t.objects v).nick = (s.objects v).nick) : Online t n ↔ Online s n := by
  simp only [Online, users, registered, nick]

/-- Nothing is told, and nothing changes that anybody watches. -/
theorem Informed.of_silent (quieted : Quieted e.out) (users : ∀ v ∈ e.state.users, v ∈ s.users)
    (list : ∀ v ∈ e.state.users, (e.state.objects v).monitorList = (s.objects v).monitorList)
    (online : ∀ w ∈ e.state.users, ∀ n ∈ (s.objects w).monitorList, (Online e.state n ↔ Online s n)) :
    Informed s e := by
  intro w live n watched
  rw [list w live] at watched
  exact .inr ⟨quieted.lastStatus, users w live, watched, online w live n watched⟩

/-- A registration that is completed, or not. -/
theorem online_finalized {user : UserInner} (users : t.users = s.users)
    (others : ∀ v ≠ uid, t.objects v = s.objects v) (own : t.objects uid = user.finalized s.crates)
    (same : user.nick = (s.objects uid).nick ∨ ¬(s.objects uid).registered)
    (registered : user.registered = (s.objects uid).registered)
    (spared : uid ∈ s.users → user.ready → user.nick.map fold ≠ some (fold n)) : Online t n ↔ Online s n := by
  by_cases ready : user.ready
  · have unregistered : (s.objects uid).registered = false := by
      rw [← registered]
      simp only [UserInner.ready, Bool.and_eq_true, Bool.not_eq_true'] at ready
      exact ready.1.1.1
    refine online_others (fun v other => ⟨by rw [users], others v other⟩) (fun _ known => ?_) fun live _ => ?_
    · rw [unregistered] at known
      cases known
    · rw [own, UserInner.finalized, if_pos ready]
      exact spared (users ▸ live) ready
  · have kept : t.objects uid = user := by rw [own, UserInner.finalized, if_neg ready]
    rcases same with same | unregistered
    · refine online_same users (fun v => ?_) fun v => ?_
      all_goals
        by_cases is : v = uid
        · rw [is, kept]
          assumption
        · rw [others v is]
    · refine online_others (fun v other => ⟨by rw [users], others v other⟩) (fun _ known => ?_) fun _ known => ?_
      · exact (unregistered known).elim
      · rw [kept, registered] at known
        exact (unregistered known).elim

theorem joins_users_same (channels : List Bytes) : (handleJoin s uid channels).state.users = s.users := by
  unfold handleJoin ensureRegistered
  split
  · exact (joins_same channels).users
  · rfl

theorem parts_users_same (channels : List Bytes) (reason : Option Bytes) :
    (handlePart s uid channels reason).state.users = s.users := by
  unfold handlePart ensureRegistered
  split
  · exact (parts_same _ reason channels).users
  · rfl

/-- Commands without a typed form, KILL apart. -/
theorem dispatchUnknown_quiet (out : Outside) (verb : Bytes) (params : Params) (other : verb ≠ ascii "KILL") :
    Quiet s (dispatchUnknown s uid out verb params).state := by
  unfold dispatchUnknown
  split
  · split
    · exact handleRegister_quiet s uid out _ _ _
    · exact .refl s
  split
  · split
    · exact handleVerify_quiet s uid out _ _
    · exact .refl s
  split
  · exact handleOper_quiet s uid params
  split
  · exact handleKline_quiet s uid out params
  split
  · exact handleUnkline_quiet s uid params
  split
  · exact handleShowhost_quiet s uid params
  split
  · exact handleMonitor_quiet s uid params
  · exact .refl s

/-- Only KILL removes users. -/
theorem dispatchTyped_users (out : Outside) (cmd : Command) (noNick : ∀ nick, cmd ≠ .nick nick)
    (noKill : ∀ params, cmd ≠ .unknown (ascii "KILL") params) :
    (dispatchTyped s uid out cmd).state.users = s.users := by
  cases cmd with
  | nick nick => exact (noNick nick rfl).elim
  | unknown verb params =>
    refine (dispatchUnknown_quiet out verb params ?_).users
    rintro rfl
    exact noKill params rfl
  | join channels keys => exact joins_users_same channels
  | part channels reason => exact parts_users_same channels reason
  | cap subcommand args => exact (handleCap_quiet s uid subcommand args).users
  | user user mode realname => exact (handleUser_quiet s uid user realname).users
  | pass password => exact (handlePass_quiet s uid password).users
  | topic channel topic => exact (handleTopic_quiet s uid out channel topic).users
  | privmsg targets text => exact (deliver_quiet s uid out targets text _ _).users
  | notice targets text => exact (deliver_quiet s uid out targets text _ _).users
  | authenticate payload => exact (handleAuthenticate_quiet s uid out payload).users
  | mode target changes args => exact (handleMode_quiet s uid target changes args).users
  | ping _ _ | pong _ _ | quit _ | list _ _ | numeric _ _ => rfl

/-- Every command but NICK, MONITOR and KILL: a registration may be completed. -/
theorem informed_other (out : Outside) (cmd : Command) (noNick : ∀ nick, cmd ≠ .nick nick)
    (noMonitor : ∀ params, cmd ≠ .unknown (ascii "MONITOR") params)
    (noKill : ∀ params, cmd ≠ .unknown (ascii "KILL") params)
    (spared : uid ∈ s.users → (completes s uid cmd).all (unwatched s)) :
    Informed s (dispatchTyped s uid out cmd) := by
  have reticent := dispatchTyped_reticent s uid out cmd noNick noMonitor
  obtain ⟨others, own⟩ := dispatchTyped_revises s uid out cmd
  have users : (dispatchTyped s uid out cmd).state.users = s.users := dispatchTyped_users out cmd noNick noKill
  refine .of_silent reticent.quieted (fun v live => users ▸ live) (fun v _ => ?_) fun w live n watched => ?_
  · by_cases same : v = uid
    · rw [same, reticent.list]
    · rw [others v same]
  · have keep : ∀ nick, (completes s uid cmd) = some nick → uid ∈ s.users → fold nick ≠ fold n := by
      intro nick completed alive same
      have none := spared alive
      rw [completed] at none
      exact unwatched_spec none (users ▸ live) watched same.symm
    generalize objects : (dispatchTyped s uid out cmd).state.objects uid = next at own
    cases own with
    | keeps same =>
      simp only [UserInner.identity, Prod.mk.injEq] at same
      have kept : ∀ v, ((dispatchTyped s uid out cmd).state.objects v).nick = (s.objects v).nick ∧
          ((dispatchTyped s uid out cmd).state.objects v).registered = (s.objects v).registered := by
        intro v
        by_cases is : v = uid
        · rw [is, objects]
          exact ⟨same.1, same.2.2.1⟩
        · rw [others v is]
          exact ⟨rfl, rfl⟩
      exact online_same users (fun v => (kept v).2) fun v => (kept v).1
    | renamed valid registered => exact (noNick _ rfl).elim
    | named valid registered => exact (noNick _ rfl).elim
    | described registered =>
      refine online_finalized users others objects (.inl rfl) rfl fun alive ready held => ?_
      obtain ⟨nick, named, same⟩ := Option.map_eq_some_iff.mp held
      exact keep nick (Option.bind_eq_some_iff.mpr ⟨_, Option.filter_eq_some_iff.mpr ⟨rfl, ready⟩, named⟩) alive same
    | negotiated =>
      refine online_finalized users others objects (.inl rfl) rfl fun alive ready held => ?_
      obtain ⟨nick, named, same⟩ := Option.map_eq_some_iff.mp held
      exact keep nick (Option.bind_eq_some_iff.mpr ⟨_, Option.filter_eq_some_iff.mpr ⟨rfl, ready⟩, named⟩) alive same

/-- MONITOR tells of holders that are registered. -/
theorem informed_monitor (accounted : Accounted s) (params : Params)
    (known : uid ∈ s.users → ∀ n ∈ toldNicks s uid params, ∀ holder, s.userByNick n = some holder →
      (s.objects holder).registered) :
    Informed s (handleMonitor s uid params) := by
  have monitored := handleMonitor_told s uid params
  have quiet := handleMonitor_quiet s uid params
  have kept := handleMonitor_kept s uid params
  generalize handleMonitor s uid params = e at monitored quiet kept
  have registered : ∀ v, (e.state.objects v).registered = (s.objects v).registered := by
    intro v
    by_cases same : v = uid
    · rw [same]
      exact congrArg (fun identity => identity.2.2.1) kept.own
    · rw [kept.others v same]
  have online : ∀ n, Online e.state n ↔ Online s n := fun n => online_same quiet.users registered quiet.nick
  intro w live n watched
  rw [quiet.users] at live
  have told : ∀ other ∈ toldNicks s uid params, comma ∉ other := fun other listed =>
    (monitored.single other listed).elim (accounted.single uid other) id
  by_cases same : w = uid
  · subst same
    rcases monitored.out with said | ⟨nothing, quieted⟩
    · rw [said, told_status told, online]
      split
      · -- Somebody watched under that text is not there.
        rename_i offline
        obtain ⟨other, listed, absent⟩ := List.any_eq_true.mp offline
        obtain ⟨text, absent⟩ := (Bool.and_eq_true _ _).mp absent
        refine .inl ⟨false, rfl, iff_of_false (by simp) ?_⟩
        rintro ⟨v, alive, -, held⟩
        obtain ⟨nick, named, same⟩ := Option.map_eq_some_iff.mp held
        have valid := (accounted.named v).nick nick named
        have text : fold (fromUtf8Lossy other) = fold nick := by
          rw [beq_iff_eq.mp text, fold_text valid, same]
        have stored := accounted.listed v alive (fold nick) (by rw [named, Option.map_some])
        simp [ServerState.userByNick, (fold_text valid).mp text, stored, alive] at absent
      · split
        · rename_i onlines
          obtain ⟨other, listed, there⟩ := List.any_eq_true.mp onlines
          obtain ⟨text, there⟩ := (Bool.and_eq_true _ _).mp there
          obtain ⟨holder, found⟩ := Option.isSome_iff_exists.mp there
          obtain ⟨v, stored, alive⟩ := Option.bind_eq_some_iff.mp found
          obtain ⟨living, is⟩ := Option.ite_none_right_eq_some.mp alive
          obtain rfl := Option.some.inj is
          obtain ⟨nick, named, same⟩ := Option.map_eq_some_iff.mp (accounted.sound.owner _ v stored).2
          have valid := (accounted.named v).nick nick named
          have text : fold (fromUtf8Lossy n) = fold nick := by
            rw [← beq_iff_eq.mp text, fold_text valid, same]
          refine .inl ⟨true, rfl, iff_of_true rfl ⟨v, living, known live other listed v found, ?_⟩⟩
          rw [named, Option.map_some, (fold_text valid).mp text]
        · rename_i nobody somebody
          refine .inr ⟨rfl, live, (monitored.list n watched).resolve_right fun listed => ?_, Iff.rfl⟩
          have here : alike n n = true := beq_self_eq_true _
          cases found : s.userByNick n with
          | none => exact nobody (List.any_eq_true.mpr ⟨n, listed, by simp [here, found]⟩)
          | some holder => exact somebody (List.any_eq_true.mpr ⟨n, listed, by simp [here, found]⟩)
    · refine .inr ⟨quieted.lastStatus, live, (monitored.list n watched).resolve_right (by simp [nothing]), online n⟩
  · have silent : lastStatus (mailFor w e.out) n = none := by
      rcases monitored.out with said | ⟨-, quieted⟩
      · have nothing : mailFor w e.out = [] := by
          rw [said, statusReplies, mailFor_append]
          have apart : ∀ m : Message, mailFor w [(uid, m)] = [] := fun m => by simp [mailFor, Ne.symm same]
          split <;> split <;> simp [apart]
        rw [nothing]
        rfl
      · exact quieted.lastStatus
    rw [kept.others w same] at watched
    exact .inr ⟨silent, live, watched, online n⟩

/-- The end of a user that only others watch. -/
theorem online_removed (accounted : Accounted s) (live : uid ∈ s.users)
    (users : ∀ v, v ∈ t.users ↔ v ∈ s.users ∧ v ≠ uid) (objects : t.objects = s.objects) : Online t n ↔ Online s n ∧
      ¬((s.objects uid).nick.map fold = some (fold n)) := by
  constructor
  · rintro ⟨v, alive, registered, held⟩
    rw [objects] at registered held
    obtain ⟨alive, other⟩ := (users v).mp alive
    exact ⟨⟨v, alive, registered, held⟩, fun also => other (accounted.unique live alive also held)⟩
  · rintro ⟨⟨v, alive, registered, held⟩, apart⟩
    rw [← objects] at registered held
    refine ⟨v, (users v).mpr ⟨alive, ?_⟩, registered, held⟩
    rintro rfl
    exact apart (objects ▸ held)

theorem removed_users (s : ServerState) (uid v : UserId) :
    v ∈ ((s.purgeUserFromChannels uid).removeUser uid).users ↔ v ∈ s.users ∧ v ≠ uid := by
  rw [mem_removeUser, (purge_rest s uid).1]

theorem removed_objects (s : ServerState) (uid : UserId) :
    ((s.purgeUserFromChannels uid).removeUser uid).objects = s.objects :=
  (removeUser_rest _ uid).1.trans (purge_rest s uid).2.2.1

/-- KILL tells nobody. -/
theorem informed_kill (accounted : Accounted s) (params : Params)
    (spared : ∀ target, kills s uid (.unknown (ascii "KILL") params) = some target → (s.objects target).registered →
      ∀ nick, (s.objects target).nick = some nick →
      ∀ w ∈ s.users, ∀ n ∈ (s.objects w).monitorList, w ≠ target → fold n ≠ fold nick) :
    Informed s (handleKill s uid params) := by
  have refused : ∀ m, Silent m → Informed s (.reply s uid m) := fun m silent =>
    .of_silent (by simpa using silent) (fun v live => live) (fun v _ => rfl) fun w _ n _ => Iff.rfl
  unfold handleKill operCommand ensureRegistered
  split
  · rename_i registered
    dsimp only
    split
    · exact refused _ (silent_numeric (by decide))
    rename_i privileged
    split
    · exact refused _ (silent_numeric (by decide))
    rename_i arity
    cases found : s.userByNick (params.values.headD []) with
    | none => exact refused _ (silent_numeric (by decide))
    | some target =>
      have killed : kills s uid (.unknown (ascii "KILL") params) = some target := by
        rw [kills, if_pos ⟨rfl, registered, by simpa using privileged, Nat.le_of_not_lt arity⟩, found]
      obtain ⟨v, stored, alive⟩ := Option.bind_eq_some_iff.mp found
      obtain ⟨live, same⟩ := Option.ite_none_right_eq_some.mp alive
      obtain rfl := Option.some.inj same
      obtain ⟨nick, named, -⟩ := Option.map_eq_some_iff.mp (accounted.sound.owner _ v stored).2
      have objects := removed_objects s v
      refine .of_silent ?_ (fun w alive => ((removed_users s v w).mp alive).1) (fun w _ => ?_) fun w alive n watched => ?_
      · exact quieted_cons.mpr ⟨silent_errorLine, quieted_broadcast silent_userLine⟩
      · exact congrArg (fun objects => (objects w).monitorList) objects
      · obtain ⟨alive, other⟩ := (removed_users s v w).mp alive
        refine (online_removed accounted live (removed_users s v) objects).trans (and_iff_left_of_imp fun there held => ?_)
        have same : fold n = fold nick := by
          rw [named, Option.map_some, Option.some.injEq] at held
          exact held.symm
        exact spared v killed ((accounted.online_iff live named same).mp there) nick named w alive n watched other same
  · exact refused _ (silent_numeric (by decide))

/-- A nick that is claimed belongs to a live user. -/
theorem Accounted.claims_live {claimed : ServerState} (accounted : Accounted s)
    (ok : s.claimNick uid nick = .ok claimed) :
    uid ∈ s.users ∧ claimed.users = s.users := by
  rcases claimNick_ok ok with ⟨mine, rfl⟩ | ⟨-, live, users, -⟩
  · exact ⟨(accounted.sound.owner _ uid mine).1, rfl⟩
  · exact ⟨live, users⟩

/-- The rename of a registered user. -/
theorem online_renamed {old new : Bytes} (accounted : Accounted s) (live : uid ∈ s.users)
    (registered : (s.objects uid).registered) (before : (s.objects uid).nick = some old)
    (users : t.users = s.users) (others : ∀ v ≠ uid, t.objects v = s.objects v)
    (own : t.objects uid = { s.objects uid with nick := some new }) :
    Online t n ↔ fold n = fold new ∨ Online s n ∧ fold n ≠ fold old := by
  constructor
  · rintro ⟨v, alive, known, held⟩
    by_cases same : v = uid
    · rw [same, own] at held
      exact .inl (Option.some.inj held).symm
    · rw [others v same] at known held
      refine .inr ⟨⟨v, users ▸ alive, known, held⟩, fun also => same ?_⟩
      exact accounted.unique live (users ▸ alive) (by rw [before, Option.map_some, also]) held
  · rintro (new | ⟨⟨v, alive, known, held⟩, apart⟩)
    · exact ⟨uid, users ▸ live, by rw [own]; exact registered, by rw [own, Option.map_some, new]⟩
    · have other : v ≠ uid := by
        rintro rfl
        rw [before, Option.map_some, Option.some.injEq] at held
        exact apart held.symm
      exact ⟨v, users ▸ alive, by rwa [others v other], by rwa [others v other]⟩

theorem nickChangeLine_silent (old new : Bytes) : Silent (nickChangeLine s uid old new) := silent_userLine

/-- A rename tells the watchers of the old nick, and then those of the new one. -/
theorem informed_nick (accounted : Accounted s) (requested : Bytes)
    (spared : uid ∈ s.users → (completes s uid (.nick requested)).all (unwatched s))
    (renamed : (renames s uid (.nick requested)).all fun (old, new) => renameHeard s old new) :
    Informed s (handleNick s uid requested) := by
  have refused : ∀ m, Silent m → Informed s (.reply s uid m) := fun m silent =>
    .of_silent (by simpa using silent) (fun v live => live) (fun v _ => rfl) fun w _ n _ => Iff.rfl
  unfold handleNick
  split
  · exact refused _ (silent_numeric (by decide))
  split
  · exact refused _ (silent_numeric (by decide))
  rename_i invalid
  have valid : isValidNick requested := by simpa using invalid
  cases claim : s.claimNick uid requested with
  | error _ => exact refused _ (silent_numeric (by decide))
  | ok claimed =>
    obtain ⟨objects, crates⟩ := claimNick_users s uid claim
    obtain ⟨live, users⟩ := accounted.claims_live claim
    have claimable : (s.claimNick uid requested).toBool = true := by rw [claim]; rfl
    dsimp only
    generalize named : claimed.modifyUser uid (fun user => { user with nick := some requested }) = t
    have tUsers : t.users = s.users := by
      rw [← named]
      exact users
    have tCrates : t.crates = s.crates := by
      rw [← named]
      exact crates
    have others : ∀ v ≠ uid, t.objects v = s.objects v := fun v other => by
      rw [← named]
      simp [ServerState.modifyUser, other, objects]
    have own : t.objects uid = { s.objects uid with nick := some requested } := by
      rw [← named]
      simp [ServerState.modifyUser, objects]
    have list : ∀ v, (t.objects v).monitorList = (s.objects v).monitorList := fun v => by
      by_cases same : v = uid
      · rw [same, own]
      · rw [others v same]
    rw [objects, own]
    split
    · rename_i known
      have registered : (s.objects uid).registered := known
      obtain ⟨old, before⟩ := Option.isSome_iff_exists.mp ((accounted.named uid).complete registered).1
      have validOld := (accounted.named uid).nick old before
      rw [renames, if_pos (by simp [registered, valid, claimable]), before] at renamed
      rw [before]
      intro w alive n watched
      rw [tUsers] at alive
      rw [list] at watched
      have heard := everyWatch_spec renamed alive watched
      have online := online_renamed (n := n) accounted live registered before tUsers others own
      have said : lastStatus (mailFor w (notifyOffline t old ++ notifyOnline t requested
            ++ [(uid, nickChangeLine t uid old requested)])) n
          = (if watches (s.objects w).monitorList requested ∧ fold n = fold requested then some true else none).or
              (if watches (s.objects w).monitorList old ∧ fold n = fold old then some false else none) := by
        rw [mailFor_append, lastStatus_append, mailFor_append, lastStatus_append, notifyOffline, notifyOnline,
          told_notify reports_offline validOld (tUsers ▸ alive), told_notify reports_online valid (tUsers ▸ alive),
          list]
        have line : Quieted [(uid, nickChangeLine t uid old requested)] := by
          simpa using nickChangeLine_silent old requested
        rw [line.lastStatus, Option.none_or]
      rw [said]
      by_cases new : fold n = fold requested
      · have there : Online t n := online.mpr (.inl new)
        rw [if_pos new] at heard
        rcases (Bool.or_eq_true _ _).mp heard with told | kept
        · exact .inl ⟨true, by simp [told, new], iff_of_true rfl there⟩
        · obtain ⟨same, unheard⟩ := (Bool.and_eq_true _ _).mp kept
          have same : fold n = fold old := beq_iff_eq.mp same
          have unheard : ¬watches (s.objects w).monitorList old := by simpa using unheard
          by_cases told : watches (s.objects w).monitorList requested
          · exact .inl ⟨true, by simp [told, new], iff_of_true rfl there⟩
          · have held : Online s n := (accounted.online_iff live before same).mpr registered
            exact .inr ⟨by simp [told, unheard], alive, watched, iff_of_true there held⟩
      · rw [if_neg new] at heard
        by_cases same : fold n = fold old
        · have told : watches (s.objects w).monitorList old := by simpa [same] using heard
          refine .inl ⟨false, by rw [if_neg fun both => new both.2, if_pos ⟨told, same⟩]; rfl,
            iff_of_false (by simp) fun there => ?_⟩
          exact (online.mp there).elim new fun held => held.2 same
        · refine .inr ⟨by simp [new, same], alive, watched, online.trans ?_⟩
          simp [new, same]
    · rename_i known
      have unregistered : ¬(s.objects uid).registered := known
      have final := maybeFinalize_objects t uid
      have finalUsers : (maybeFinalize t uid).state.users = s.users := (maybeFinalize_quiet t uid).users.trans tUsers
      have finalOthers : ∀ v ≠ uid, (maybeFinalize t uid).state.objects v = s.objects v := fun v other => by
        rw [final, Function.update_of_ne other, others v other]
      have finalOwn : (maybeFinalize t uid).state.objects uid
          = { s.objects uid with nick := some requested }.finalized t.crates := by
        rw [final, Function.update_self, own]
      refine .of_silent (maybeFinalize_reticent t uid).quieted (fun v alive => finalUsers ▸ alive) (fun v _ => ?_)
        fun w living n watched => ?_
      · by_cases same : v = uid
        · rw [same, (maybeFinalize_reticent t uid).list, list]
        · rw [finalOthers v same]
      · have own : (maybeFinalize t uid).state.objects uid
            = { s.objects uid with nick := some requested }.finalized s.crates := by
          rw [finalOwn, tCrates]
        refine online_finalized finalUsers finalOthers own (.inr unregistered) rfl fun alive ready held => ?_
        have completed : completes s uid (.nick requested) = some requested := by
          rw [completes, if_pos (by simp [valid, claimable])]
          exact Option.bind_eq_some_iff.mpr ⟨_, Option.filter_eq_some_iff.mpr ⟨rfl, ready⟩, rfl⟩
        have none := spared alive
        rw [completed] at none
        exact unwatched_spec none (finalUsers ▸ living) watched (Option.some.inj held).symm

/-- The end of a connection tells the watchers of its nick. -/
theorem informed_cleanup (accounted : Accounted s) (heard : goodbyeHeard s uid) : Informed s (cleanup s uid) := by
  unfold cleanup ServerState.user
  by_cases live : uid ∈ s.users
  · rw [if_pos live]
    dsimp only
    have objects := removed_objects s uid
    have purged := purge_rest s uid
    have gone : ∀ n, Online ((s.purgeUserFromChannels uid).removeUser uid) n ↔ Online s n ∧
        ¬((s.objects uid).nick.map fold = some (fold n)) := fun n =>
      online_removed accounted live (removed_users s uid) objects
    have quit : ∀ recipients, Quieted (broadcast (s.purgeUserFromChannels uid) recipients
        (quitLine (s.objects uid).originPrefix (ascii "Connection closed"))) := fun _ =>
      quieted_broadcast silent_userLine
    cases named : (s.objects uid).nick with
    | none =>
      refine .of_silent (quieted_append.mpr ⟨quit _, quieted_nil⟩)
        (fun w alive => ((removed_users s uid w).mp alive).1) (fun w _ => ?_) fun w _ n _ => (gone n).trans ?_
      · exact congrArg (fun objects => (objects w).monitorList) objects
      · simp [named]
    | some nick =>
      have valid := (accounted.named uid).nick nick named
      intro w living n watched
      obtain ⟨alive, other⟩ := (removed_users s uid w).mp living
      dsimp only at watched
      rw [objects] at watched
      have said : lastStatus (mailFor w (broadcast (s.purgeUserFromChannels uid) (s.channelPeers uid)
            (quitLine (s.objects uid).originPrefix (ascii "Connection closed"))
            ++ notifyOffline (s.purgeUserFromChannels uid) nick)) n
          = if watches (s.objects w).monitorList nick ∧ fold n = fold nick then some false else none := by
        rw [mailFor_append, lastStatus_append, (quit _).lastStatus, Option.or_none, notifyOffline,
          told_notify reports_offline valid (purged.1 ▸ alive), purged.2.2.1]
      dsimp only
      rw [said, gone, named, Option.map_some, Option.some.injEq]
      by_cases same : fold n = fold nick
      · by_cases told : watches (s.objects w).monitorList nick
        · exact .inl ⟨false, if_pos ⟨told, same⟩, iff_of_false (by simp) fun there => there.2 same.symm⟩
        · refine .inr ⟨if_neg fun both => told both.1, alive, watched, iff_of_false (fun there => there.2 same.symm) ?_⟩
          rw [accounted.online_iff live named same]
          intro registered
          simp only [goodbyeHeard, List.contains_iff_mem.mpr live, registered, named, Bool.not_true, Bool.false_or,
            Option.all_some] at heard
          simpa [other, same, told] using everyWatch_spec heard alive watched
      · exact .inr ⟨if_neg fun both => same both.2, alive, watched, and_iff_left fun held => same held.symm⟩
  · rw [if_neg live]
    exact .of_silent quieted_nil (fun v alive => alive) (fun v _ => rfl) fun w _ n _ => Iff.rfl

/-- A new connection has no nick and watches nothing. -/
theorem informed_accept (accounted : Accounted s) (host : Bytes) (out : Outside) :
    Informed s (acceptUser s host out) := by
  have fresh : s.nextUserId ∉ s.users := fun live => lt_irrefl _ (accounted.sound.minted _ live)
  have users : (acceptUser s host out).state.users = s.nextUserId :: s.users := by
    rw [acceptUser_state]
    rfl
  have objects := acceptUser_objects s host out
  have quieted : Quieted (acceptUser s host out).out := by
    unfold acceptUser
    dsimp only
    split <;> simp
  intro w living n watched
  rw [users] at living
  rw [objects] at watched
  have other : w ≠ s.nextUserId := by
    rintro rfl
    simp at watched
  have alive : w ∈ s.users := (List.mem_cons.mp living).resolve_left other
  rw [Function.update_of_ne other] at watched
  refine .inr ⟨quieted.lastStatus, alive, watched, online_others (fun v apart => ?_)
    (fun live => (fresh live).elim) fun _ registered => ?_⟩
  · rw [users, objects, Function.update_of_ne apart, List.mem_cons, or_iff_right apart]
    exact ⟨Iff.rfl, rfl⟩
  · rw [objects, Function.update_self] at registered
    cases registered

/-- Every command that `heard` allows. -/
theorem informed_dispatch (accounted : Accounted s) (out : Outside) (cmd : Command) (allowed : heard s uid cmd) :
    Informed s (dispatchTyped s uid out cmd) := by
  obtain ⟨⟨⟨finalizes, renamed⟩, killed⟩, asked⟩ : ((((uid ∈ s.users → (completes s uid cmd).all (unwatched s)) ∧
      (renames s uid cmd).all fun (old, new) => renameHeard s old new) ∧
      (kills s uid cmd).all fun target => !(s.objects target).registered || (s.objects target).nick.all fun nick =>
        everyWatch s fun w n => w == target || fold n != fold nick) ∧
      (uid ∈ s.users → (asks s uid cmd).all fun n =>
        (s.userByNick n).all fun holder => (s.objects holder).registered)) := by
    simpa [heard, imp_iff_not_or] using allowed
  by_cases nick : ∃ nick, cmd = .nick nick
  · obtain ⟨nick, rfl⟩ := nick
    exact informed_nick accounted nick finalizes renamed
  by_cases monitor : ∃ params, cmd = .unknown (ascii "MONITOR") params
  · obtain ⟨params, rfl⟩ := monitor
    refine informed_monitor accounted params fun live n listed holder found => ?_
    have each := List.all_eq_true.mp (asked live) n (by rwa [asks, if_pos rfl])
    rwa [found] at each
  by_cases kill : ∃ params, cmd = .unknown (ascii "KILL") params
  · obtain ⟨params, rfl⟩ := kill
    refine informed_kill accounted params fun target found registered nick named w alive n watched other => ?_
    rw [found, Option.all_some, registered, named] at killed
    have every : everyWatch s fun w n => w == target || fold n != fold nick := by simpa using killed
    have told : (w == target || fold n != fold nick) = true := everyWatch_spec every alive watched
    simpa [other] using told
  exact informed_other out cmd (by simpa using nick) (by simpa using monitor) (by simpa using kill) finalizes

/-- What a step says is no status unless a command is obeyed or a connection ends. -/
theorem informed_effect {srv : Daemon} (accounted : Accounted srv.state) (a : Action) (allowed : informs srv.state a) :
    Informed srv.state (srv.effect a) := by
  have still : ∀ e : Effect, e.state = srv.state → Quieted e.out → Informed srv.state e := fun e state quieted =>
    .of_silent quieted (fun v alive => state ▸ alive) (fun v _ => by rw [state]) fun w _ n _ => by rw [state]
  cases a with
  | accept host out => exact informed_accept accounted host out
  | cleanup uid => exact informed_cleanup accounted allowed
  | receive uid line flooded out =>
    cases read : lineCommand line with
    | some cmd =>
      by_cases obeyed : handles srv.state uid flooded
      · rw [Daemon.effect_obeys read obeyed]
        refine informed_dispatch accounted out cmd ?_
        simpa [informs, obeyed, read] using allowed
      · have flooding : (srv.state.objects uid).registered ∧ flooded := by simpa [handles] using obeyed
        unfold Daemon.effect
        dsimp only
        split
        · rw [processMessage, if_pos flooding]
          exact still _ rfl (by simp)
        · exact still _ rfl quieted_nil
    | none =>
      unfold lineCommand at read
      unfold Daemon.effect
      dsimp only
      split
      · rename_i msg rest result
        rw [result] at read
        unfold processMessage
        split
        · exact still _ rfl (by simp)
        · unfold dispatch
          cases parsed : Command.parse msg with
          | ok cmd => simp [parsed, Except.toOption] at read
          | error e =>
            cases e with
            | missingParam command _ _ => exact still _ rfl (by simp [needMoreParams])
      · exact still _ rfl quieted_nil
  | readEnds | write | writeFails | writerStops => exact still _ rfl quieted_nil

end Steps

end RndRust.Irc.Server
