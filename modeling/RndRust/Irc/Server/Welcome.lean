import RndRust.Irc.Server.MonitorAccuracy
import RndRust.Irc.Server.Teardown

/-! The end of registration. Three handlers try to complete it, each after it has changed one of the things
registration waits for, and nothing else changes them. So a user is registered as soon as it has all of them
and ever after, and it is welcomed in the step that completes them and in no other. -/
namespace RndRust.Irc.Server
open Lib Proto

/-- A nick and the data of USER, outside a negotiation. -/
def UserInner.complete (user : UserInner) : Bool := user.nick.isSome && user.reg.isSome && !user.capNegotiating

/-- The message is the first line of a welcome. -/
def isWelcome (m : Message) : Bool := m.verb = .numeric ReplyCode.rplWelcome.code

/-- What a step that sends `mail` to a user does to its registration. -/
inductive Admission (s t : ServerState) (uid : UserId) (mail : List Message) : Prop
  | granted (before : ¬ (s.objects uid).registered) (after : (t.objects uid).registered)
      (complete : (t.objects uid).complete) (burst : mail = welcomeBurst t (t.objects uid).nickOrStar)
  | unchanged (same : (t.objects uid).registered = (s.objects uid).registered)
      (kept : (t.objects uid).complete → (t.objects uid).registered ∨ (s.objects uid).complete)
      (unwelcomed : ∀ m ∈ mail, ¬ isWelcome m)

/-- A user that a step leaves as it is. -/
theorem Admission.of_same {s t : ServerState} {uid : UserId} {mail : List Message} (same : t.objects uid = s.objects uid)
    (unwelcomed : ∀ m ∈ mail, ¬ isWelcome m) : Admission s t uid mail :=
  .unchanged (by rw [same]) (fun complete => .inr (same ▸ complete)) unwelcomed

/-- A handler of `uid` welcomes nobody else. -/
structure Admits (s : ServerState) (uid : UserId) (e : Effect) : Prop where
  own : Admission s e.state uid (mailFor uid e.out)
  foreign : ∀ v, v ≠ uid → ∀ m ∈ mailFor v e.out, ¬ isWelcome m

section Welcomes

variable {s : ServerState} {uid v : UserId} {target text nick : Bytes} {m : Message} {code : ReplyCode}

theorem Plain.unwelcome (plain : Plain m) : ¬ isWelcome m := fun welcome => plain.1 (of_decide_eq_true welcome)

theorem numeric_unwelcome {middles : List Bytes} {trailing : Option Bytes} (other : code ≠ .rplWelcome) :
    ¬ isWelcome (numeric s target code middles trailing) := by
  have differs : code.code ≠ ReplyCode.rplWelcome.code := by
    cases code <;> first | exact (other rfl).elim | decide
  simpa [isWelcome, numeric] using differs

/-- A numeric as the only message. -/
theorem reply_unwelcome {middles : List Bytes} {trailing : Option Bytes} (other : code ≠ .rplWelcome) :
    ∀ sent ∈ [(uid, numeric s target code middles trailing)], ¬ isWelcome sent.2 :=
  List.forall_mem_singleton.mpr (numeric_unwelcome other)

theorem notifyWatchers_unwelcome (other : code ≠ .rplWelcome) :
    ∀ sent ∈ notifyWatchers s code nick, ¬ isWelcome sent.2 :=
  List.forall_mem_map.mpr fun _ _ => numeric_unwelcome other

theorem motdReplies_unwelcome : ∀ m ∈ motdReplies s nick, ¬ isWelcome m := by
  intro m listed
  unfold motdReplies at listed
  split at listed
  · rw [List.mem_singleton.mp listed]
    exact numeric_unwelcome (by decide)
  · simp only [List.mem_append, List.mem_cons, List.mem_map, List.not_mem_nil, or_false] at listed
    rcases listed with (rfl | ⟨line, -, rfl⟩) | rfl <;> exact numeric_unwelcome (by decide)

/-- One welcome in a burst. -/
theorem welcomeBurst_welcomes : (welcomeBurst s nick).countP isWelcome = 1 := by
  rw [welcomeBurst, List.countP_append, List.countP_eq_zero.mpr motdReplies_unwelcome]
  rfl

theorem mailFor_unwelcome {out : Outbox} (unwelcome : ∀ sent ∈ out, ¬ isWelcome sent.2) :
    ∀ m ∈ mailFor v out, ¬ isWelcome m := fun m told => unwelcome (v, m) (mem_mailFor.mp told)

/-- All that is sent to one user. -/
theorem mailFor_own (ms : List Message) : mailFor uid (ms.map fun m => (uid, m)) = ms := by
  rw [mailFor, List.filter_eq_self.mpr (List.forall_mem_map.mpr fun m _ => by simp), List.map_map]
  exact List.map_id ms

theorem mailFor_other (other : v ≠ uid) (ms : List Message) : mailFor v (ms.map fun m => (uid, m)) = [] := by
  simp [mailFor, other.symm]

end Welcomes

namespace Admits

variable {s t : ServerState} {uid : UserId} {e : Effect}

theorem of_unwelcome (unwelcome : ∀ sent ∈ e.out, ¬ isWelcome sent.2)
    (same : (e.state.objects uid).registered = (s.objects uid).registered)
    (kept : (e.state.objects uid).complete → (e.state.objects uid).registered ∨ (s.objects uid).complete) :
    Admits s uid e := ⟨.unchanged same kept (mailFor_unwelcome unwelcome), fun _ _ => mailFor_unwelcome unwelcome⟩

/-- A handler that only says something. -/
theorem of_state (unwelcome : ∀ sent ∈ e.out, ¬ isWelcome sent.2) (same : e.state = s) : Admits s uid e :=
  of_unwelcome unwelcome (by rw [same]) fun complete => .inr (same ▸ complete)

/-- What registration waits for is kept. -/
theorem of_discreet (discreet : Discreet s uid e) (kept : Kept s uid e.state) : Admits s uid e := by
  have own := kept.own
  simp only [UserInner.identity, Prod.mk.injEq] at own
  obtain ⟨nick, reg, registered, -⟩ := own
  refine of_unwelcome (fun sent told => (discreet.plain sent told).unwelcome) registered fun complete => .inr ?_
  simpa only [UserInner.complete, nick, reg, discreet.negotiation] using complete

/-- A registration that is completed, or not yet. -/
theorem finalize (same : (t.objects uid).registered = (s.objects uid).registered) :
    Admits s uid (maybeFinalize t uid) := by
  unfold maybeFinalize
  dsimp only
  split
  · rename_i ready
    simp only [UserInner.ready, Bool.and_eq_true, Bool.not_eq_true'] at ready
    obtain ⟨⟨⟨unregistered, settled⟩, nick⟩, reg⟩ := ready
    refine ⟨.granted ?_ ?_ ?_ ?_, fun v other m told => ?_⟩
    · simp [← same, unregistered]
    · simp [ServerState.modifyUser]
    · simp [ServerState.modifyUser, UserInner.complete, nick, reg, settled]
    · rw [mailFor_own]
      simp [ServerState.modifyUser, UserInner.nickOrStar]
    · rw [mailFor_other other] at told
      cases told
  · rename_i waiting
    refine of_unwelcome (by simp) same fun complete => .inl ?_
    simp only [UserInner.complete, Bool.and_eq_true, Bool.not_eq_true'] at complete
    simpa [UserInner.ready, complete] using waiting

end Admits

section Handlers

variable (s : ServerState) (uid : UserId) (out : Outside)

theorem handleNick_admits (requested : Bytes) : Admits s uid (handleNick s uid requested) := by
  have refused : ∀ {code : ReplyCode} {middles : List Bytes} {trailing : Option Bytes}, code ≠ .rplWelcome →
      Admits s uid (.reply s uid (numeric s unregistered code middles trailing)) := fun other =>
    .of_state (reply_unwelcome other) rfl
  unfold handleNick
  split
  · exact refused (by decide)
  split
  · exact refused (by decide)
  cases claim : s.claimNick uid requested with
  | error _ => exact refused (by decide)
  | ok claimed =>
    obtain ⟨objects, -⟩ := claimNick_users s uid claim
    dsimp only
    split
    · rename_i registered
      split
      · refine .of_unwelcome ?_ (by simp [ServerState.modifyUser, objects]) fun _ => .inl (by simpa using registered)
        refine List.forall_mem_append.mpr ⟨List.forall_mem_append.mpr ⟨?_, ?_⟩, ?_⟩
        · exact notifyWatchers_unwelcome (by decide)
        · exact notifyWatchers_unwelcome (by decide)
        · exact List.forall_mem_singleton.mpr plain_userLine.unwelcome
      · exact .of_unwelcome (by simp) (by simp [ServerState.modifyUser, objects]) fun _ => .inl (by simpa using registered)
    · exact .finalize (by simp [ServerState.modifyUser, objects])

theorem handleUser_admits (userName realname : Bytes) : Admits s uid (handleUser s uid userName realname) := by
  unfold handleUser
  split
  · exact .of_state (reply_unwelcome (by decide)) rfl
  · exact .finalize (by simp [ServerState.modifyUser])

/-- While a negotiation is open nothing is complete. -/
theorem negotiating_admits {e : Effect}
    (discreet : Discreet (s.modifyUser uid fun user => { user with capNegotiating := true }) uid e)
    (kept : Kept s uid e.state) : Admits s uid e := by
  have negotiating : (e.state.objects uid).capNegotiating = true :=
    discreet.negotiation.trans (by simp [ServerState.modifyUser])
  refine .of_unwelcome (fun sent told => (discreet.plain sent told).unwelcome) kept.registered fun complete => ?_
  simp [UserInner.complete, negotiating] at complete

theorem handleCap_admits (subcommand : CapSub) (args : List Bytes) : Admits s uid (handleCap s uid subcommand args) := by
  cases subcommand with
  | ls => exact negotiating_admits s uid (.reply plain_serverLine) (capNegotiating_kept s uid true)
  | req =>
    exact negotiating_admits s uid (handleCapReq_discreet _ uid args)
      ((capNegotiating_kept s uid true).trans (handleCapReq_kept _ uid args))
  | done => exact .finalize (by simp [ServerState.modifyUser])
  | list => exact .of_discreet (.reply plain_serverLine) (.refl s uid)
  | ack | nak | new | del | other _ => exact .of_discreet (.rest s uid) (.refl s uid)

theorem statusReplies_unwelcome (nicks : List Bytes) : ∀ sent ∈ statusReplies s uid nicks, ¬ isWelcome sent.2 := by
  unfold statusReplies
  refine List.forall_mem_append.mpr ⟨?_, ?_⟩
  all_goals
    split
    · simp
    · exact reply_unwelcome (by decide)

theorem handleMonitor_unwelcome (params : Params) : ∀ sent ∈ (handleMonitor s uid params).out, ¬ isWelcome sent.2 := by
  have added : ∀ targets, ∀ sent ∈ (monitorAdd s uid targets).out, ¬ isWelcome sent.2 := by
    intro targets
    unfold monitorAdd
    dsimp only
    split
    · exact reply_unwelcome (by decide)
    · exact statusReplies_unwelcome s uid _
  have listed : ∀ sent ∈ (monitorListReplies s uid).out, ¬ isWelcome sent.2 := by
    refine List.forall_mem_append.mpr ⟨?_, reply_unwelcome (by decide)⟩
    split
    · exact List.forall_mem_nil _
    · exact reply_unwelcome (by decide)
  unfold handleMonitor ensureRegistered
  split
  · split
    · exact List.forall_mem_nil _
    · dsimp only
      split
      · exact added _
      split
      · exact List.forall_mem_nil _
      split
      · exact List.forall_mem_nil _
      split
      · exact listed
      split
      · exact statusReplies_unwelcome s uid _
      split
      · exact added _
      split
      · exact List.forall_mem_nil _
      · exact List.forall_mem_nil _
  · exact reply_unwelcome (by decide)

/-- MONITOR is for users that are registered already. -/
theorem handleMonitor_admits (params : Params) : Admits s uid (handleMonitor s uid params) := by
  by_cases registered : (s.objects uid).registered
  · have same := (handleMonitor_kept s uid params).registered
    exact .of_unwelcome (handleMonitor_unwelcome s uid params) same fun _ => .inl (same.trans registered)
  · refine .of_state (handleMonitor_unwelcome s uid params) ?_
    simp [handleMonitor, ensureRegistered, registered]

/-- Every command, case by case. -/
theorem dispatchTyped_admits (cmd : Command) : Admits s uid (dispatchTyped s uid out cmd) := by
  by_cases nick : ∃ nick, cmd = .nick nick
  · obtain ⟨nick, rfl⟩ := nick
    exact handleNick_admits s uid nick
  by_cases user : ∃ userName mode realname, cmd = .user userName mode realname
  · obtain ⟨userName, mode, realname, rfl⟩ := user
    exact handleUser_admits s uid userName realname
  by_cases cap : ∃ subcommand args, cmd = .cap subcommand args
  · obtain ⟨subcommand, args, rfl⟩ := cap
    exact handleCap_admits s uid subcommand args
  by_cases monitor : ∃ params, cmd = .unknown (ascii "MONITOR") params
  · obtain ⟨params, rfl⟩ := monitor
    exact handleMonitor_admits s uid params
  have kept : Kept s uid (dispatchTyped s uid out cmd).state := by
    obtain ⟨others, own⟩ := dispatchTyped_revises s uid out cmd
    refine ⟨others, ?_⟩
    generalize (dispatchTyped s uid out cmd).state.objects uid = next at own
    cases own with
    | keeps same => exact same
    | renamed | named => exact (nick ⟨_, rfl⟩).elim
    | described => exact (user ⟨_, _, _, rfl⟩).elim
    | negotiated => exact (cap ⟨_, _, rfl⟩).elim
  exact .of_discreet (dispatchTyped_discreet s uid out cmd (by simpa using nick) (by simpa using user)
    (by simpa using cap) (by simpa using monitor)) kept

end Handlers

/-- In every state between two handlers, who has all that registration waits for is registered, and who
is yet to connect is not. -/
structure Settled (srv : Daemon) : Prop where
  complete : ∀ uid, (srv.state.objects uid).complete → (srv.state.objects uid).registered
  fresh : ∀ uid, srv.state.nextUserId ≤ uid → ¬ (srv.state.objects uid).registered

section Steps

variable {srv srv' : Daemon} {a : Action}

theorem acceptUser_unwelcome (s : ServerState) (host : Bytes) (out : Outside) :
    ∀ sent ∈ (acceptUser s host out).out, ¬ isWelcome sent.2 := by
  unfold acceptUser
  dsimp only
  split
  · exact List.forall_mem_singleton.mpr plain_errorLine.unwelcome
  · exact List.forall_mem_nil _

theorem cleanup_unwelcome (s : ServerState) (uid : UserId) : ∀ sent ∈ (cleanup s uid).out, ¬ isWelcome sent.2 := by
  unfold cleanup
  split
  · exact List.forall_mem_nil _
  · refine List.forall_mem_append.mpr ⟨fun sent told => (plain_broadcast plain_userLine sent told).unwelcome, ?_⟩
    split
    · exact notifyWatchers_unwelcome (by decide)
    · exact List.forall_mem_nil _

/-- A message of `uid`, whether it is handled or not, changes no other user. -/
theorem processMessage_admission (s : ServerState) (uid : UserId) (flooded : Bool) (out : Outside) (msg : Message)
    (v : UserId) : Admission s (processMessage s uid flooded out msg).state v
      (mailFor v (processMessage s uid flooded out msg).out) := by
  unfold processMessage
  split
  · exact .of_same rfl (mailFor_unwelcome (List.forall_mem_singleton.mpr plain_errorLine.unwelcome))
  · unfold dispatch
    split
    · rename_i cmd _
      have admits := dispatchTyped_admits s uid out cmd
      by_cases same : v = uid
      · subst same
        exact admits.own
      · exact .of_same ((dispatchTyped_revises s uid out cmd).1 v same) (admits.foreign v same)
    · exact .of_same rfl (mailFor_unwelcome (reply_unwelcome (by decide)))

/-- What any step does to the registration of any user. -/
theorem effect_admission (settled : Settled srv) (a : Action) (uid : UserId) :
    Admission srv.state (srv.effect a).state uid (mailFor uid (srv.effect a).out) := by
  have rests : Admission srv.state srv.state uid (mailFor uid []) := .of_same rfl (List.forall_mem_nil _)
  cases a with
  | accept host out =>
    have unwelcomed := mailFor_unwelcome (v := uid) (acceptUser_unwelcome srv.state host out)
    by_cases new : uid = srv.state.nextUserId
    · subst new
      have unregistered := settled.fresh _ le_rfl
      refine .unchanged ?_ (fun complete => ?_) unwelcomed
      · simpa [Daemon.effect, acceptUser_objects] using unregistered
      · simp [Daemon.effect, acceptUser_objects, UserInner.complete] at complete
    · exact .of_same (by simp [Daemon.effect, acceptUser_objects, new]) unwelcomed
  | receive sender line flooded out =>
    simp only [Daemon.effect]
    split
    · exact processMessage_admission srv.state sender flooded out _ uid
    · exact rests
  | cleanup leaver =>
    exact .of_same (by rw [Daemon.effect, cleanup_objects]) (mailFor_unwelcome (cleanup_unwelcome srv.state leaver))
  | readEnds | write | writeFails | writerStops => exact rests

/-- Only a connection that was accepted sends lines. -/
theorem receive_minted {uid : UserId} {line : Bytes} {flooded : Bool} {out : Outside} (tidy : Tidy srv)
    (taken : srv.step (.receive uid line flooded out) = some srv') : uid < srv.state.nextUserId := by
  simp only [Daemon.step] at taken
  split at taken
  · rename_i reading
    obtain ⟨conn, found, -⟩ := (Option.any_eq_true _ _).mp reading
    exact (tidy uid conn found).1
  · cases taken

theorem step_settled (tidy : Tidy srv) (settled : Settled srv) (taken : srv.step a = some srv') : Settled srv' := by
  constructor
  · intro uid complete
    have admission := effect_admission settled a uid
    rw [← (Daemon.step_spec taken).1] at admission
    cases admission with
    | granted _ after => exact after
    | unchanged same kept =>
      rcases kept complete with registered | before
      · exact registered
      · exact same.trans (settled.complete uid before)
  · intro uid unminted
    have moved := Daemon.step_moves taken
    have later := settled.fresh uid ((moved.users.1).trans unminted)
    generalize srv'.state = t at moved unminted
    cases moved with
    | accepts host out =>
      rw [acceptUser_state] at unminted
      have other : uid ≠ srv.state.nextUserId := (Nat.lt_of_succ_le unminted).ne'
      rwa [acceptUser_objects, Function.update_of_ne other]
    | @obeys sender line flooded out cmd read handled =>
      have minted := receive_minted tidy taken
      have next : (dispatchTyped srv.state sender out cmd).state.nextUserId = srv.state.nextUserId :=
        (dispatchTyped_change srv.state sender out cmd).users.1
      have other : uid ≠ sender := (minted.trans_le (next ▸ unminted)).ne'
      rwa [(dispatchTyped_revises srv.state sender out cmd).1 uid other]
    | cleans => rwa [cleanup_objects]
    | rests => exact later

end Steps

section Runs

variable {config : Config} {crates : Crates} {r r' : Recorded} {a : Action}

/-- What one step records of the registration of a user. -/
theorem recorded_admission (uid : UserId) (settled : Settled r.srv)
    (taken : (recorded config crates).step r a = some r') :
    ∃ mail, r'.sent uid = r.sent uid ++ mail ∧ Admission r.srv.state r'.srv.state uid mail := by
  obtain ⟨-, state, sent⟩ := recorded_step taken
  exact ⟨_, sent uid, state ▸ effect_admission settled a uid⟩

/-- Every user is welcomed as often as it is registered, and no more than once. -/
structure Welcomed (r : Recorded) : Prop where
  tidy : Tidy r.srv
  settled : Settled r.srv
  once : ∀ uid, (r.sent uid).countP isWelcome = if (r.srv.state.objects uid).registered then 1 else 0

theorem initial_welcomed : Welcomed (recorded config crates).initial := by
  refine ⟨reachable_tidy .initial, ⟨fun uid complete => ?_, fun uid _ => ?_⟩, fun uid => rfl⟩
  · cases complete
  · simp [recorded, server]

theorem Welcomed.step (welcomed : Welcomed r) (taken : (recorded config crates).step r a = some r') : Welcomed r' := by
  obtain ⟨moved, -, -⟩ := recorded_step taken
  refine ⟨step_tidy welcomed.tidy moved, step_settled welcomed.tidy welcomed.settled moved, fun uid => ?_⟩
  obtain ⟨mail, sent, admission⟩ := recorded_admission uid welcomed.settled taken
  rw [sent, List.countP_append, welcomed.once uid]
  cases admission with
  | granted before after complete burst => rw [burst, welcomeBurst_welcomes, if_neg before, if_pos after]
  | unchanged same kept unwelcomed => rw [List.countP_eq_zero.mpr unwelcomed, same, Nat.add_zero]

/-- A step registers whoever it completes, and nobody else. -/
theorem registered_step (uid : UserId) (welcomed : Welcomed r) (taken : (recorded config crates).step r a = some r') :
    (r'.srv.state.objects uid).registered ↔
      (r.srv.state.objects uid).registered ∨ (r'.srv.state.objects uid).complete := by
  obtain ⟨mail, -, admission⟩ := recorded_admission uid welcomed.settled taken
  have settled := (welcomed.step taken).settled.complete uid
  cases admission with
  | granted before after complete => exact iff_of_true after (.inr complete)
  | unchanged same =>
    rw [← same]
    exact ⟨.inl, fun either => either.elim id settled⟩

/-- **Registration happens once**, in any run of any connections: a user is registered exactly if at the
end of some handler so far it had a nick and the data of USER and was not negotiating. Its registration
is for good, and the step that completes it is the one that welcomes the user. -/
theorem registered_once {trace : List Action} (uid : UserId)
    (ran : (recorded config crates).run (recorded config crates).initial trace = some r) :
    ((r.srv.state.objects uid).registered ↔ ∃ past ∈ (recorded config crates).trail (recorded config crates).initial trace,
      (past.srv.state.objects uid).complete) ∧
    (r.sent uid).countP isWelcome = (if (r.srv.state.objects uid).registered then 1 else 0) ∧
    ∀ a r', (recorded config crates).step r a = some r' →
      ((r.srv.state.objects uid).registered → (r'.srv.state.objects uid).registered) ∧
      (¬ (r.srv.state.objects uid).registered → (r'.srv.state.objects uid).registered →
        r'.sent uid = r.sent uid ++ welcomeBurst r'.srv.state (r'.srv.state.objects uid).nickOrStar) := by
  have welcomed : Welcomed r := by
    refine Machine.Reaches.invariant Welcomed initial_welcomed ?_ (Machine.Reachable.run .initial ran)
    exact fun r a r' welcomed _ taken => welcomed.step taken
  refine ⟨?_, welcomed.once uid, fun a r' taken => ⟨fun before => ?_, fun before after => ?_⟩⟩
  · have latched := Machine.latched_iff Welcomed (fun r => (r.srv.state.objects uid).registered)
      (fun r => (r.srv.state.objects uid).complete) (fun _ _ _ welcomed taken => welcomed.step taken)
      (fun _ _ _ welcomed taken => registered_step uid welcomed taken) initial_welcomed
      (initial_welcomed.settled.complete uid) ran
    rw [latched]
    exact or_iff_right (by simp [recorded, server])
  · exact (registered_step uid welcomed taken).mpr (.inl before)
  · obtain ⟨mail, sent, admission⟩ := recorded_admission uid welcomed.settled taken
    cases admission with
    | granted _ _ _ burst => rw [sent, burst]
    | unchanged same => exact (before (same ▸ after)).elim

/-- A negotiation holds the registration up, and is opened again when that is over. -/
def reopens : List Action :=
  [.accept (ascii "127.0.0.1") {}, sends 1 "CAP LS 302", sends 1 "NICK alice", sends 1 "USER u 0 * :r",
    sends 1 "CAP REQ :sasl", sends 1 "CAP END", sends 1 "CAP LS", sends 1 "USER v 0 * :r", sends 1 "CAP END"]

theorem registered_once_reopened : ∃ r, (recorded exampleConfig exampleCrates).run
      (recorded exampleConfig exampleCrates).initial reopens = some r ∧
    (∃ past ∈ (recorded exampleConfig exampleCrates).trail (recorded exampleConfig exampleCrates).initial reopens,
      (past.srv.state.objects 1).complete) ∧
    (r.sent 1).countP isWelcome = 1 := by
  obtain ⟨r, ran, registered⟩ := (Option.any_eq_true _ _).mp (show ((recorded exampleConfig exampleCrates).run
    (recorded exampleConfig exampleCrates).initial reopens).any (fun r => (r.srv.state.objects 1).registered) from
      by decide +kernel)
  obtain ⟨latched, once, -⟩ := registered_once 1 ran
  exact ⟨r, ran, latched.mp registered, once.trans (if_pos registered)⟩

end Runs

end RndRust.Irc.Server
