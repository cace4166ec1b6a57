import RndRust.Irc.Server.Connection
import RndRust.Irc.Server.Sound

/-! What a step of the server does to its registries and to each connection, and
what holds in every reachable state because of it. -/
namespace RndRust.Irc.Server
open Lib Proto

/-- The messages of an outbox for one user. -/
def mailFor (uid : UserId) (out : Outbox) : List Message :=
  (out.filter fun m => m.1 = uid).map Prod.snd

/-- Push messages in order. -/
def Conn.pushAll (conn : Conn) (msgs : List Message) : Conn := msgs.foldl Conn.push conn

namespace Conn

variable {conn : Conn} {msgs : List Message} {m msg : Message}

@[simp] theorem push_phase : (conn.push msg).phase = conn.phase := by
  unfold push
  split <;> rfl

@[simp] theorem push_writing : (conn.push msg).writing = conn.writing := by
  unfold push
  split <;> rfl

@[simp] theorem pushAll_phase : (conn.pushAll msgs).phase = conn.phase := by
  induction msgs generalizing conn with
  | nil => rfl
  | cons msg msgs ih => exact ih.trans push_phase

@[simp] theorem pushAll_writing : (conn.pushAll msgs).writing = conn.writing := by
  induction msgs generalizing conn with
  | nil => rfl
  | cons msg msgs ih => exact ih.trans push_writing

end Conn

namespace Daemon

variable {srv srv' : Daemon} {uid v : UserId} {out : Outbox} {e : Effect} {a : Action}

@[simp] theorem modifyConn_state {f : Conn → Conn} : (srv.modifyConn uid f).state = srv.state := rfl

theorem modifyConn_conns {f : Conn → Conn} :
    (srv.modifyConn uid f).conns v = if v = uid then (srv.conns uid).map f else srv.conns v := by
  simp [modifyConn, Function.update_apply]

@[simp] theorem sendAll_state : (srv.sendAll out).state = srv.state := by
  induction out generalizing srv with
  | nil => rfl
  | cons m out ih => exact ih

theorem sendAll_conns :
    (srv.sendAll out).conns uid = (srv.conns uid).map (·.pushAll (mailFor uid out)) := by
  induction out generalizing srv with
  | nil => simp [sendAll, mailFor, Conn.pushAll]
  | cons m out ih =>
    obtain ⟨v, msg⟩ := m
    have first : (srv.sendAll ((v, msg) :: out)) = (srv.modifyConn v (·.push msg)).sendAll out := rfl
    rw [first, ih, modifyConn_conns]
    by_cases same : uid = v
    · subst same
      simp [mailFor, Conn.pushAll, Function.comp_def]
    · simp [mailFor, same, Ne.symm same]

@[simp] theorem apply_state : (srv.apply e).state = e.state := sendAll_state

theorem apply_conns : (srv.apply e).conns uid = (srv.conns uid).map (·.pushAll (mailFor uid e.out)) :=
  sendAll_conns

@[simp] theorem handled_state : (srv.handled uid e).state = e.state := by
  unfold handled
  split
  · exact apply_state
  · exact apply_state

theorem handled_conns : (srv.handled uid e).conns v = (srv.conns v).map fun conn =>
    let conn := conn.pushAll (mailFor v e.out)
    if v = uid ∧ e.outcome = .disconnect then { conn with phase := .awaitingWriter } else conn := by
  unfold handled
  split
  · rename_i cont
    simp [cont, apply_conns]
  · rename_i disconnect
    simp only [stopReading, modifyConn_conns, apply_conns, disconnect, and_true]
    by_cases same : v = uid
    · subst same
      simp [Function.comp_def]
    · simp [same]

end Daemon

namespace Daemon

/-- What a step computes on the registries and sends, if anything. -/
def effect (srv : Daemon) : Action → Effect
  | .accept host out => acceptUser srv.state host out
  | .receive uid line flooded out =>
    match IrcCodec.new.readLine line with
    | .ok msg :: _ => processMessage srv.state uid flooded out msg
    | _ => { state := srv.state }
  | .cleanup uid => Server.cleanup srv.state uid
  | _ => { state := srv.state }

/-- The connections a step starts from, the accepted one among them. -/
def opened (srv : Daemon) : Action → UserId → Option Conn
  | .accept _ _ => Function.update srv.conns srv.state.nextUserId (some {})
  | _ => srv.conns

/-- How the connection of `uid` can change in a step that sends it `mail`. -/
inductive Evolves (srv : Daemon) (uid : UserId) (conn : Conn) (mail : List Message) :
    Action → Conn → Prop
  | receives (a : Action) : Evolves srv uid conn mail a (conn.pushAll mail)
  | stops (a : Action) (reading : conn.phase = .reading) :
      Evolves srv uid conn mail a { conn.pushAll mail with phase := .awaitingWriter }
  | writes {msg : Message} {rest : List Message} (queued : conn.queue = msg :: rest)
      (fits : encodes msg) : Evolves srv uid conn mail (.write uid) { conn with queue := rest }
  | refuses {msg : Message} {rest : List Message} (queued : conn.queue = msg :: rest)
      (unfit : ¬ encodes msg) :
      Evolves srv uid conn mail (.write uid) { conn with writing := false, queue := [] }
  | breaks : Evolves srv uid conn mail (.writeFails uid) { conn with writing := false, queue := [] }
  | drains (empty : conn.queue = []) (closed : ¬ srv.senderAlive uid) :
      Evolves srv uid conn mail (.writerStops uid) { conn with writing := false, queue := [] }
  | closes (awaiting : conn.phase = .awaitingWriter) (ended : ¬ conn.writing) :
      Evolves srv uid conn mail (.cleanup uid) { conn.pushAll mail with phase := .closed }

variable {srv srv' : Daemon} {a : Action} {uid v : UserId} {conn conn' : Conn}

@[simp] theorem mailFor_nil : mailFor uid [] = [] := rfl

section Evolves

variable {base : Daemon}

theorem handled_evolves {e : Effect} (found : (base.handled uid e).conns v = some conn')
    (reading : ∀ conn, base.conns uid = some conn → conn.phase = .reading) :
    ∃ conn, base.conns v = some conn ∧ Evolves srv v conn (mailFor v e.out) a conn' := by
  rw [handled_conns] at found
  obtain ⟨conn, start, rfl⟩ := Option.map_eq_some_iff.mp found
  refine ⟨conn, start, ?_⟩
  dsimp only
  split
  · rename_i ends
    obtain ⟨rfl, -⟩ := ends
    exact .stops a (reading conn start)
  · exact .receives a

theorem modifyConn_evolves {f : Conn → Conn} (found : (base.modifyConn uid f).conns v = some conn')
    (evolves : ∀ conn, base.conns uid = some conn → Evolves srv uid conn [] a (f conn)) :
    ∃ conn, base.conns v = some conn ∧ Evolves srv v conn [] a conn' := by
  rw [modifyConn_conns] at found
  split at found
  · rename_i same
    subst same
    obtain ⟨conn, start, rfl⟩ := Option.map_eq_some_iff.mp found
    exact ⟨conn, start, evolves conn start⟩
  · exact ⟨conn', found, .receives a⟩

end Evolves

/-- Every step, case by case: the registries become those of its effect, and each
connection evolves from what it was, with the mail of that effect. -/
theorem step_spec (taken : srv.step a = some srv') : srv'.state = (srv.effect a).state ∧
    ∀ v conn', srv'.conns v = some conn' → ∃ conn, srv.opened a v = some conn ∧
      Evolves srv v conn (mailFor v (srv.effect a).out) a conn' := by
  cases a with
  | accept host out =>
    cases taken
    refine ⟨handled_state, fun v conn' found => handled_evolves found fun conn start => ?_⟩
    simp only [Function.update_self, Option.some.injEq] at start
    subst start
    rfl
  | receive uid line flooded out =>
    simp only [step] at taken
    split at taken
    · rename_i reads
      have reading : ∀ conn, srv.conns uid = some conn → conn.phase = .reading := by
        intro conn start
        simpa [start] using reads
      cases read : IrcCodec.new.readLine line with
      | nil =>
        simp only [read, Option.some.injEq] at taken
        subst taken
        simp only [effect, read, true_and]
        exact fun v conn found => ⟨conn, found, .receives _⟩
      | cons result rest =>
        cases result with
        | error _ =>
          simp only [read, Option.some.injEq] at taken
          subst taken
          simp only [effect, read]
          refine ⟨rfl, fun v conn' found => modifyConn_evolves found fun conn start => ?_⟩
          exact .stops _ (reading conn start)
        | ok msg =>
          simp only [read, Option.some.injEq] at taken
          subst taken
          simp only [effect, read]
          exact ⟨handled_state, fun v conn' found => handled_evolves found reading⟩
    · cases taken
  | readEnds uid =>
    simp only [step] at taken
    split at taken
    · rename_i reads
      cases taken
      refine ⟨rfl, fun v conn' found => modifyConn_evolves found fun conn start => ?_⟩
      exact .stops _ (by simpa [start] using reads)
    · cases taken
  | write uid =>
    simp only [step] at taken
    split at taken
    · rename_i phase msg rest found
      split at taken
      · rename_i fits
        cases taken
        refine ⟨rfl, fun v conn' found' => modifyConn_evolves found' fun conn start => ?_⟩
        rw [found, Option.some.injEq] at start
        subst start
        exact .writes rfl fits
      · rename_i unfit
        cases taken
        refine ⟨rfl, fun v conn' found' => modifyConn_evolves found' fun conn start => ?_⟩
        rw [found, Option.some.injEq] at start
        subst start
        exact .refuses rfl unfit
    · cases taken
  | writeFails uid =>
    simp only [step] at taken
    split at taken
    · cases taken
      exact ⟨rfl, fun v conn' found => modifyConn_evolves found fun conn start => .breaks⟩
    · cases taken
  | writerStops uid =>
    simp only [step] at taken
    split at taken
    · rename_i stops
      cases taken
      refine ⟨rfl, fun v conn' found => modifyConn_evolves found fun conn start => ?_⟩
      obtain ⟨waiting, closed⟩ := stops
      simp only [start, Option.any_some, decide_eq_true_eq] at waiting
      exact .drains waiting.2 (by simpa using closed)
    · cases taken
  | cleanup uid =>
    simp only [step] at taken
    split at taken
    · rename_i stops
      cases taken
      refine ⟨apply_state, fun v conn' found => ?_⟩
      rw [modifyConn_conns, apply_conns, apply_conns] at found
      split at found
      · rename_i same
        subst same
        obtain ⟨sent, pushed, rfl⟩ := Option.map_eq_some_iff.mp found
        obtain ⟨conn, start, rfl⟩ := Option.map_eq_some_iff.mp pushed
        simp only [start, Option.any_some, decide_eq_true_eq] at stops
        exact ⟨conn, start, .closes stops.1 (by simpa using stops.2)⟩
      · obtain ⟨conn, start, rfl⟩ := Option.map_eq_some_iff.mp found
        exact ⟨conn, start, .receives _⟩
    · cases taken

end Daemon

/-- The command a line is read as. -/
def lineCommand (line : Bytes) : Option Command :=
  match IrcCodec.new.readLine line with
  | .ok msg :: _ => (Command.parse msg).toOption
  | _ => none

/-- Whether a command of `uid` is handled rather than cut off as flooding. -/
def handles (s : ServerState) (uid : UserId) (flooded : Bool) : Bool :=
  !((s.objects uid).registered && flooded)

/-- What a step does to the registries: an accepted connection, a handled command
and a cleanup change them, and nothing else does. -/
inductive Moves (s : ServerState) : Action → ServerState → Prop
  | accepts (host : Bytes) (out : Outside) :
      Moves s (.accept host out) (acceptUser s host out).state
  | obeys {uid : UserId} {line : Bytes} {flooded : Bool} {out : Outside} {cmd : Command}
      (read : lineCommand line = some cmd) (handled : handles s uid flooded) :
      Moves s (.receive uid line flooded out) (dispatchTyped s uid out cmd).state
  | cleans (uid : UserId) : Moves s (.cleanup uid) (cleanup s uid).state
  | rests (a : Action) : Moves s a s

namespace Daemon

variable {srv srv' : Daemon} {a : Action}

theorem effect_moves (srv : Daemon) (a : Action) : Moves srv.state a (srv.effect a).state := by
  cases a with
  | accept host out => exact .accepts host out
  | cleanup uid => exact .cleans uid
  | readEnds | write | writeFails | writerStops => exact .rests _
  | receive uid line flooded out =>
    simp only [effect]
    split
    · rename_i msg rest read
      unfold processMessage
      split
      · exact .rests _
      · rename_i unflooded
        unfold dispatch
        cases parsed : Command.parse msg with
        | error _ => exact .rests _
        | ok cmd =>
          refine .obeys ?_ ?_
          · simp [lineCommand, read, parsed, Except.toOption]
          · simpa [handles, imp_iff_not_or] using unflooded
    · exact .rests _

theorem step_moves (taken : srv.step a = some srv') : Moves srv.state a srv'.state := by
  rw [(step_spec taken).1]
  exact effect_moves srv a

/-- A line that reads as a command is obeyed, unless it is cut off. -/
theorem effect_obeys {uid : UserId} {line : Bytes} {flooded : Bool} {out : Outside} {cmd : Command}
    (read : lineCommand line = some cmd) (handled : handles srv.state uid flooded) :
    srv.effect (.receive uid line flooded out) = dispatchTyped srv.state uid out cmd := by
  unfold lineCommand at read
  split at read
  · rename_i msg rest result
    have parsed : Command.parse msg = .ok cmd := by
      cases parsed : Command.parse msg with
      | error _ => simp [parsed, Except.toOption] at read
      | ok cmd' => simpa [parsed, Except.toOption] using read
    have unflooded : ¬ ((srv.state.objects uid).registered ∧ flooded) := by
      simpa [handles, imp_iff_not_or] using handled
    simp [effect, result, processMessage, unflooded, dispatch, parsed]
  · cases read

end Daemon

/-- A new connection is a new user, whether it stays or not. -/
theorem acceptUser_state (s : ServerState) (host : Bytes) (out : Outside) : (acceptUser s host out).state =
    { s.insertUser s.nextUserId { host } with nextUserId := s.nextUserId + 1 } := by
  unfold acceptUser
  dsimp only
  split <;> rfl

theorem acceptUser_objects (s : ServerState) (host : Bytes) (out : Outside) :
    (acceptUser s host out).state.objects = Function.update s.objects s.nextUserId { host } := by
  rw [acceptUser_state]
  rfl

namespace Sound

variable {s t : ServerState}

theorem accept (sound : Sound s) (host : Bytes) (out : Outside) :
    Sound (acceptUser s host out).state := by
  rw [acceptUser_state]
  refine ⟨fun k v held => ?_, fun v live => ?_, sound.channelKey⟩
  · obtain ⟨live, key⟩ := sound.owner k v held
    have other : v ≠ s.nextUserId := (sound.minted v live).ne
    exact ⟨List.mem_cons_of_mem _ live, by simpa [ServerState.insertUser, other] using key⟩
  · rcases List.mem_cons.mp live with rfl | before
    · exact Nat.lt_succ_self _
    · exact (sound.minted v before).trans (Nat.lt_succ_self _)

theorem cleanup (sound : Sound s) (uid : UserId) : Sound (cleanup s uid).state := by
  unfold Server.cleanup
  split
  · exact sound
  · exact (sound.purge uid).removeUser uid

theorem moves {a : Action} (sound : Sound s) (moved : Moves s a t) : Sound t := by
  cases moved with
  | accepts host out => exact sound.accept host out
  | obeys read handled => exact sound.change (dispatchTyped_change _ _ _ _)
  | cleans uid => exact sound.cleanup uid
  | rests => exact sound

end Sound

/-- In every reachable state the registries are sound. -/
theorem reachable_sound {config : Config} {crates : Crates} {srv : Daemon}
    (reached : (server config crates).Reachable srv) : Sound srv.state := by
  refine Machine.Reaches.invariant (fun srv => Sound srv.state) ?_ ?_ reached
  · exact ⟨by simp [server], by simp [server], by simp [server]⟩
  · intro srv a srv' sound _ taken
    exact sound.moves (Daemon.step_moves taken)

end RndRust.Irc.Server
