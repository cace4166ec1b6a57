import RndRust.Irc.Server.Steps

/-! The end of a connection: its read task waits for the write task, and the write
task for the last sender of its queue, one of which the users map holds. -/
namespace RndRust.Irc.Server
open Lib Proto

section Users

variable {s t : ServerState} {uid v : UserId} {cmd : Command} {a : Action}

/-- A command inserts no user and mints no identifier. -/
theorem Change.users (changed : Change s uid cmd t) :
    t.nextUserId = s.nextUserId ∧ ∀ v ∈ t.users, v ∈ s.users := by
  cases changed with
  | quiet same => exact ⟨same.nextUserId, fun v live => same.users ▸ live⟩
  | claims ok same =>
    rcases claimNick_ok ok with ⟨-, rfl⟩ | ⟨-, -, users, -, -, next, -⟩
    · exact ⟨same.nextUserId, fun v live => same.users ▸ live⟩
    · refine ⟨same.nextUserId.trans next, fun v live => ?_⟩
      rw [same.users] at live
      exact users ▸ live
  | joins registered =>
    refine Effect.forEach_preserves
      (fun t => t.nextUserId = s.nextUserId ∧ ∀ v ∈ t.users, v ∈ s.users) ?_ ⟨rfl, fun _ => id⟩
    rintro t raw - kept
    rcases joinBody_state t uid raw with ⟨-, same⟩ | ⟨-, mode, joined⟩
    · rw [same]
      exact kept
    · rw [joined]
      exact kept
  | parts =>
    refine Effect.forEach_preserves
      (fun t => t.nextUserId = s.nextUserId ∧ ∀ v ∈ t.users, v ∈ s.users) ?_ ⟨rfl, fun _ => id⟩
    rintro t raw - kept
    rcases partBody_state t uid _ _ raw with same | ⟨c, -, parted⟩
    · rw [same]
      exact kept
    · rw [parted, removeEmptyChannel_users, removeEmptyChannel_nextUserId]
      exact kept
  | kills found =>
    refine ⟨(removeUser_rest _ _).2.2.trans (purge_rest s _).2.2.2, fun v live => ?_⟩
    exact (purge_rest s _).1 ▸ (mem_removeUser.mp live).1

theorem Moves.users (moved : Moves s a t) :
    s.nextUserId ≤ t.nextUserId ∧ ∀ v ∈ t.users, v ∈ s.users ∨ v = s.nextUserId := by
  cases moved with
  | rests => exact ⟨le_rfl, fun v => .inl⟩
  | obeys read handled =>
    obtain ⟨next, users⟩ := (dispatchTyped_change s _ _ _).users
    exact ⟨next.ge, fun v live => .inl (users v live)⟩
  | accepts host out =>
    rw [acceptUser_state]
    exact ⟨Nat.le_succ _, fun v live => (List.mem_cons.mp live).symm⟩
  | cleans uid =>
    unfold cleanup
    split
    · exact ⟨le_rfl, fun v => .inl⟩
    · refine ⟨((removeUser_rest _ uid).2.2.trans (purge_rest s uid).2.2.2).ge, fun v live => .inl ?_⟩
      exact (purge_rest s uid).1 ▸ (mem_removeUser.mp live).1

theorem cleanup_removed : uid ∉ (cleanup s uid).state.users := by
  unfold cleanup ServerState.user
  by_cases live : uid ∈ s.users
  · simp [live, mem_removeUser]
  · simp [live]

end Users

/-- A connection has an identifier that was minted, and its cleanup removes the user. -/
def Tidy (srv : Daemon) : Prop :=
  ∀ uid conn, srv.conns uid = some conn →
    uid < srv.state.nextUserId ∧ (conn.phase = .closed → uid ∉ srv.state.users)

/-- Only a cleanup closes a connection. -/
theorem Daemon.Evolves.closed {srv : Daemon} {uid : UserId} {conn conn' : Conn} {mail : List Message}
    {a : Action} (evolved : srv.Evolves uid conn mail a conn') (closed : conn'.phase = .closed) :
    conn.phase = .closed ∨ a = .cleanup uid := by
  cases evolved with
  | receives => exact .inl (by simpa using closed)
  | stops => cases closed
  | writes | refuses | breaks | drains => exact .inl closed
  | closes => exact .inr rfl

theorem step_tidy {srv srv' : Daemon} {a : Action} (tidy : Tidy srv)
    (taken : srv.step a = some srv') : Tidy srv' := by
  obtain ⟨state, conns⟩ := Daemon.step_spec taken
  obtain ⟨next, users⟩ := (Daemon.step_moves taken).users
  intro uid conn' found
  obtain ⟨conn, start, evolved⟩ := conns uid conn' found
  have origin : srv.conns uid = some conn ∨ (uid = srv.state.nextUserId ∧ conn.phase = .reading ∧
      srv.state.nextUserId < srv'.state.nextUserId) := by
    cases a with
    | accept host out =>
      simp only [Daemon.opened, Function.update_apply] at start
      split at start
      · rename_i fresh
        cases start
        refine .inr ⟨fresh, rfl, ?_⟩
        rw [state]
        rw [Daemon.effect, acceptUser_state]
        exact Nat.lt_succ_self _
      · exact .inl start
    | receive | readEnds | write | writeFails | writerStops | cleanup => exact .inl start
  constructor
  · rcases origin with before | ⟨rfl, -, minted⟩
    · exact (tidy uid conn before).1.trans_le next
    · exact minted
  · intro closed live
    rcases evolved.closed closed with already | rfl
    · rcases origin with before | ⟨-, reading, -⟩
      · obtain ⟨known, removed⟩ := tidy uid conn before
        rcases users uid live with earlier | rfl
        · exact removed already earlier
        · exact lt_irrefl _ known
      · rw [already] at reading
        cases reading
    · rw [state] at live
      exact cleanup_removed live

theorem reachable_tidy {config : Config} {crates : Crates} {srv : Daemon}
    (reached : (server config crates).Reachable srv) : Tidy srv := by
  refine Machine.Reaches.invariant Tidy ?_ (fun _ _ _ tidy _ taken => step_tidy tidy taken) reached
  intro uid conn found
  cases found

/-- The steps of the read task and the write task of `uid` once its read loop is over. -/
def ownStep (uid : UserId) : Action → Bool
  | .write v | .writerStops v | .cleanup v => v = uid
  | _ => false

/-- The two tasks of `uid` can by themselves come to a state where no registry names
it. -/
def Removable (M : Machine Daemon Action) (srv : Daemon) (uid : UserId) : Prop :=
  ∃ trace srv', (∀ a ∈ trace, ownStep uid a) ∧ M.run srv trace = some srv' ∧ Gone srv'.state uid

/-- The queue of a live user stays open, and what waits in it can be written: the
write task has no reason to end. -/
def Blocked (srv : Daemon) (uid : UserId) : Prop :=
  uid ∈ srv.state.users ∧ ∃ conn, srv.conns uid = some conn ∧ conn.writing ∧
    ∀ m ∈ conn.queue, encodes m

section Steps

variable {srv srv' : Daemon} {uid : UserId} {conn : Conn} {a : Action}

theorem blocked_step (blocked : Blocked srv uid) (own : ownStep uid a)
    (taken : srv.step a = some srv') : Blocked srv' uid := by
  obtain ⟨live, conn, found, writing, fits⟩ := blocked
  cases a with
  | write v =>
    obtain rfl : v = uid := by simpa [ownStep] using own
    simp only [Daemon.step, found] at taken
    split at taken
    · rename_i phase msg rest same
      cases same
      rw [if_pos (fits msg (by simp))] at taken
      cases taken
      refine ⟨live, _, by rw [Daemon.modifyConn_conns, if_pos rfl, found]; rfl, rfl, ?_⟩
      exact fun m member => fits m (List.mem_cons_of_mem _ member)
    · cases taken
  | writerStops v =>
    obtain rfl : v = uid := by simpa [ownStep] using own
    simp [Daemon.step, Daemon.senderAlive, live] at taken
  | cleanup v =>
    obtain rfl : v = uid := by simpa [ownStep] using own
    simp [Daemon.step, found, writing] at taken
  | accept | receive | readEnds | writeFails => cases own

/-- Without its user in the map a connection's tasks change no registry. -/
theorem absent_step (absent : uid ∉ srv.state.users) (own : ownStep uid a)
    (taken : srv.step a = some srv') : srv'.state = srv.state := by
  rw [(Daemon.step_spec taken).1]
  cases a with
  | write | writerStops => rfl
  | cleanup v =>
    obtain rfl : v = uid := by simpa [ownStep] using own
    simp [Daemon.effect, cleanup, ServerState.user, absent]
  | accept | receive | readEnds | writeFails => cases own

end Steps

section Runs

variable {M : Machine Daemon Action} {srv srv' : Daemon} {uid : UserId} {conn : Conn}
variable {trace : List Action}

/-- What each step of the connection's own tasks preserves their runs preserve. -/
theorem own_run (Inv : Daemon → Prop) (machine : M.step = Daemon.step)
    (step : ∀ srv a srv', Inv srv → ownStep uid a → srv.step a = some srv' → Inv srv')
    (own : ∀ a ∈ trace, ownStep uid a) (ran : M.run srv trace = some srv') (start : Inv srv) :
    Inv srv' := by
  induction trace generalizing srv with
  | nil =>
    cases ran
    exact start
  | cons a rest ih =>
    rw [Machine.run_cons, machine] at ran
    obtain ⟨next, taken, ran⟩ := Option.bind_eq_some_iff.mp ran
    exact ih (fun b member => own b (List.mem_cons_of_mem _ member)) ran
      (step srv a next start (own a (by simp)) taken)

theorem blocked_stays (machine : M.step = Daemon.step) (blocked : Blocked srv uid) :
    ¬ Removable M srv uid := by
  rintro ⟨trace, srv', own, ran, gone⟩
  have still : Blocked srv' uid :=
    own_run (fun srv => Blocked srv uid) machine (fun _ _ _ => blocked_step) own ran blocked
  exact gone.user still.1

/-- A write task with a message it cannot encode ends before the queue is empty. -/
theorem drain (machine : M.step = Daemon.step) {queue : List Message}
    (found : srv.conns uid = some ⟨.awaitingWriter, true, queue⟩)
    (unfit : ∃ m ∈ queue, ¬ encodes m) : ∃ trace srv', (∀ a ∈ trace, ownStep uid a) ∧
      M.run srv trace = some srv' ∧ srv'.state = srv.state ∧
      srv'.conns uid = some ⟨.awaitingWriter, false, []⟩ := by
  induction queue generalizing srv with
  | nil => simp at unfit
  | cons msg rest ih =>
    by_cases fits : encodes msg
    · have taken : srv.step (.write uid) =
          some (srv.modifyConn uid fun conn => { conn with queue := rest }) := by
        simp [Daemon.step, found, fits]
      have left : (srv.modifyConn uid fun conn => { conn with queue := rest }).conns uid =
          some ⟨.awaitingWriter, true, rest⟩ := by
        rw [Daemon.modifyConn_conns, if_pos rfl, found]
        rfl
      obtain ⟨trace, srv', own, ran, state, ended⟩ := ih left (by simpa [fits] using unfit)
      refine ⟨.write uid :: trace, srv', ?_, ?_, state, ended⟩
      · simpa [ownStep] using own
      · simp [machine, taken, ran]
    · refine ⟨[.write uid], srv.stopWriting uid, by simp [ownStep], ?_, rfl, ?_⟩
      · simp [machine, Daemon.step, found, fits]
      · rw [Daemon.stopWriting, Daemon.modifyConn_conns, if_pos rfl, found]
        rfl

/-- Once the write task has ended the cleanup runs, and nothing names the user. -/
theorem ended_removable (machine : M.step = Daemon.step) (sound : Sound srv.state)
    (live : uid ∈ srv.state.users) (found : srv.conns uid = some conn)
    (awaiting : conn.phase = .awaitingWriter) (ended : ¬ conn.writing) : Removable M srv uid := by
  have taken : M.run srv [.cleanup uid] =
      some ((srv.apply (cleanup srv.state uid)).modifyConn uid fun conn =>
        { conn with phase := .closed }) := by
    simp [machine, Daemon.step, found, awaiting, ended]
  refine ⟨_, _, ?_, taken, ?_⟩
  · simp [ownStep]
  · rw [Daemon.modifyConn_state, Daemon.apply_state]
    simpa [cleanup, ServerState.user, live] using sound.purged_gone uid

end Runs

/-- Past its read loop, a connection's own tasks can remove its user if and only if
it is removed already, or the write task has ended or is going to at a message it
cannot encode. Otherwise the read task waits for the write task, which waits for a
sender that only the cleanup drops. -/
theorem teardown_iff {config : Config} {crates : Crates} {srv : Daemon} {uid : UserId} {conn : Conn}
    (reached : (server config crates).Reachable srv) (found : srv.conns uid = some conn)
    (returned : conn.phase ≠ .reading) :
    Removable (server config crates) srv uid ↔ Gone srv.state uid ∨
      (uid ∈ srv.state.users ∧ (¬ conn.writing ∨ ∃ m ∈ conn.queue, ¬ encodes m)) := by
  have sound := reachable_sound reached
  constructor
  · rintro ⟨trace, srv', own, ran, gone⟩
    by_cases live : uid ∈ srv.state.users
    · right
      refine ⟨live, ?_⟩
      by_contra blocked
      simp only [not_or, not_not, not_exists, not_and] at blocked
      exact blocked_stays (M := server config crates) rfl ⟨live, conn, found, blocked⟩
        ⟨trace, srv', own, ran, gone⟩
    · left
      have same := own_run (M := server config crates)
        (fun srv' => srv'.state = srv.state) rfl
        (fun _ _ _ before own taken => (absent_step (before ▸ live) own taken).trans before)
        own ran rfl
      exact same ▸ gone
  · rintro (gone | ⟨live, ends⟩)
    · exact ⟨[], srv, by simp, rfl, gone⟩
    · have awaiting : conn.phase = .awaitingWriter := by
        cases phase : conn.phase with
        | reading => exact absurd phase returned
        | awaitingWriter => rfl
        | closed => exact absurd live ((reachable_tidy reached uid conn found).2 phase)
      by_cases writing : conn.writing
      · obtain ⟨phase, writes, queue⟩ := conn
        obtain rfl := awaiting
        obtain rfl : writes = true := writing
        obtain ⟨trace, srv', own, ran, state, ended⟩ :=
          drain (M := server config crates) rfl found (by simpa using ends)
        obtain ⟨more, last, own', ran', gone⟩ := ended_removable (M := server config crates) rfl
          (state ▸ sound) (state ▸ live) ended rfl (by simp)
        refine ⟨trace ++ more, last, ?_, ?_, gone⟩
        · simpa [or_imp, forall_and] using ⟨own, own'⟩
        · rw [Machine.run_append, ran]
          exact ran'
      · exact ended_removable rfl sound live found awaiting writing

/-- The write task fails after the end of the stream: the user can be removed. -/
theorem teardown_writeFails : ∃ srv,
    exampleServer.run exampleServer.initial (registers 1 "alice" ++ [.readEnds 1, .writeFails 1]) =
      some srv ∧ Removable exampleServer srv 1 := by
  have ran : (exampleServer.run exampleServer.initial
      (registers 1 "alice" ++ [.readEnds 1, .writeFails 1])).any fun srv =>
      srv.state.users = [1] ∧ srv.conns 1 = some ⟨.awaitingWriter, false, []⟩ := by decide +kernel
  obtain ⟨srv, ran, holds⟩ := (Option.any_eq_true _ _).mp ran
  obtain ⟨users, found⟩ := of_decide_eq_true holds
  refine ⟨srv, ran, (teardown_iff (Machine.Reachable.run .initial ran) found ?_).mpr (.inr ?_)⟩
  · decide
  · exact ⟨by simp [users], .inl (by decide)⟩

/-- A user that is alone on the server registers and quits. -/
def quits : List Action := registers 1 "alice" ++ [sends 1 "QUIT"]

theorem teardown_fails : ∃ srv, exampleServer.run exampleServer.initial quits = some srv ∧
    exampleServer.Reachable srv ∧ (srv.state.objects 1).registered ∧
    (srv.conns 1).map Conn.phase = some .awaitingWriter ∧ ¬ Removable exampleServer srv 1 := by
  have ran : (exampleServer.run exampleServer.initial quits).any fun srv =>
      (srv.state.objects 1).registered ∧ (srv.conns 1).map Conn.phase = some .awaitingWriter ∧
        1 ∈ srv.state.users ∧ (srv.conns 1).any fun conn => conn.writing && conn.queue.all encodes := by
    decide +kernel
  obtain ⟨srv, ran, holds⟩ := (Option.any_eq_true _ _).mp ran
  obtain ⟨registered, awaiting, live, waits⟩ := of_decide_eq_true holds
  obtain ⟨conn, found, waits⟩ := (Option.any_eq_true _ _).mp waits
  obtain ⟨writing, fits⟩ := Bool.and_eq_true_iff.mp waits
  refine ⟨srv, ran, Machine.Reachable.run .initial ran, registered, awaiting, ?_⟩
  exact blocked_stays rfl ⟨live, conn, found, writing, List.all_eq_true.mp fits⟩

end RndRust.Irc.Server
