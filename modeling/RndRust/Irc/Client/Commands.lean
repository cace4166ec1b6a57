import Mathlib.Data.List.Infix
import RndRust.Irc.Client.Events
import RndRust.Irc.Client.Frontend

/-! The way of a command to the wire: `send_cmd` spawns a task that sends it into the channel of `Client::new`,
`Client::run` takes it from there and sends it into the channel of its network, and `run_session` writes its
translation. -/
namespace RndRust.Irc.Client
open Lib Proto

/-- What a session writes. -/
inductive Wire where
  | registration (message : Message)
  | pong (message : Message)
  | command (message : Message)

def Wire.command? : Wire → Option Message
  | command message => some message
  | _ => none

/-- Where `run_network` is. -/
inductive Stage where
  /-- It connects, and registers. -/
  | connecting
  | running
  /-- It has returned, and its receiver is dropped. -/
  | ended
  deriving DecidableEq

structure NetworkSession where
  network : ℕ
  nick : Bytes
  user : Bytes
  realname : Bytes
  stage : Stage := .connecting
  commands : Bounded ClientCommand channelBuf := .empty
  wire : List Wire := []

namespace NetworkSession

/-- `NICK` and `USER`. -/
def registration (session : NetworkSession) : List Wire :=
  [.registration (Command.nick session.nick).toMessage,
    .registration (Command.user session.user (ascii "0") session.realname).toMessage]

/-- The commands that are written. -/
def written (session : NetworkSession) : List Message := session.wire.filterMap Wire.command?

/-- One command of the channel; `sent` says whether the message can be written. -/
def serve (session : NetworkSession) (command : ClientCommand) (commands : Bounded ClientCommand channelBuf) (sent : Bool) :
    NetworkSession :=
  let last := match command with
    | .disconnect _ | .quit .. => true
    | _ => false
  match command.translateCommand with
  | some message =>
    if sent then
      { session with commands, wire := session.wire ++ [.command message], stage := if last then .ended else session.stage }
    else { session with commands, stage := .ended }
  | none => { session with commands, stage := if last then .ended else session.stage }

end NetworkSession

structure Commanding where
  frontend : Frontend := {}
  /-- The tasks of `send_cmd` that have not sent, the oldest first. -/
  sending : List ClientCommand := []
  channel : Bounded ClientCommand channelBuf := .empty
  /-- What `Client::run` has taken and not handled. -/
  hand : Option ClientCommand := none
  /-- The handles, with their sessions. -/
  networks : ℕ → Option ℕ := fun _ => none
  sessions : List NetworkSession := []
  /-- What `send_cmd` was called with. -/
  submitted : List ClientCommand := []

inductive CommandAction where
  /-- The application updates; an event is one of a session that there is. -/
  | update (msg : Msg)
  /-- A task sends. -/
  | send (task : ℕ)
  | recv
  | handle
  /-- A session has connected, and written the first messages of its registration. -/
  | register (session written : ℕ)
  /-- A session answers a `PING`. -/
  | pong (session : ℕ) (token : Bytes) (sent : Bool)
  | serve (session : ℕ) (sent : Bool)
  /-- The connection ends, or the command channel is closed. -/
  | finish (session : ℕ)

namespace Commanding

/-- `handle_command`; it waits while the channel of the network is full. -/
def handleCommand (s : Commanding) (command : ClientCommand) : Option Commanding :=
  match command with
  | .connect network _ _ _ nick user realname =>
    some { s with
      hand := none
      networks := Function.update s.networks network (some s.sessions.length)
      sessions := s.sessions ++ [{ network, nick, user, realname }] }
  | .disconnect network => some { s with hand := none, networks := Function.update s.networks network none }
  | other =>
    match s.networks other.network with
    | none => some { s with hand := none }
    | some id =>
      match s.sessions[id]? with
      | none => none
      | some session =>
        if session.stage = .ended then
          some { s with hand := none, networks := Function.update s.networks other.network none }
        else
          (session.commands.push [other]).map fun commands =>
            { s with hand := none, sessions := s.sessions.set id { session with commands } }

def step (s : Commanding) : CommandAction → Option Commanding
  | .update msg =>
    let (frontend, sent) := s.frontend.update msg
    match msg with
    | .ircEvent event => if s.sessions.any (·.network = event.network) then some { s with frontend } else none
    | _ => some { s with frontend, sending := s.sending ++ sent.toList, submitted := s.submitted ++ sent.toList }
  | .send task =>
    s.sending[task]?.bind fun command =>
      (s.channel.push [command]).map fun channel => { s with sending := s.sending.eraseIdx task, channel }
  | .recv =>
    match s.hand with
    | some _ => none
    | none => s.channel.pop.map fun (command, channel) => { s with hand := some command, channel }
  | .handle => s.hand.bind s.handleCommand
  | .register id written =>
    s.sessions[id]?.bind fun session =>
      if session.stage = .connecting then
        some { s with sessions := s.sessions.set id { session with
          wire := session.wire ++ session.registration.take written
          stage := if written < 2 then .ended else .running } }
      else none
  | .pong id token sent =>
    s.sessions[id]?.bind fun session =>
      if session.stage = .running then
        some { s with sessions := s.sessions.set id (
          if sent then { session with wire := session.wire ++ [.pong (Command.pong token none).toMessage] }
          else { session with stage := .ended }) }
      else none
  | .serve id sent =>
    s.sessions[id]?.bind fun session =>
      if session.stage = .running then
        session.commands.pop.map fun (command, commands) =>
          { s with sessions := s.sessions.set id (session.serve command commands sent) }
      else none
  | .finish id =>
    s.sessions[id]?.bind fun session =>
      if session.stage = .running then some { s with sessions := s.sessions.set id { session with stage := .ended } } else none

end Commanding

/-- The frontend from its start. -/
def commanding : Machine Commanding CommandAction where
  initial := {}
  step := Commanding.step

def onNetwork (network : ℕ) (commands : List ClientCommand) : List ClientCommand :=
  commands.filter (·.network = network)

/-- The messages of commands. -/
def translated (commands : List ClientCommand) : List Message := commands.filterMap ClientCommand.translateCommand

namespace Commanding

/-- The condition: a task sends when no older one has a command for the same network. -/
def inTurn (s : Commanding) : CommandAction → Bool
  | .send task => s.sending[task]?.all fun command => (s.sending.take task).all (·.network ≠ command.network)
  | _ => true

/-- What is on its way to the sessions, the oldest first. -/
def underway (s : Commanding) : List ClientCommand := s.hand.toList ++ s.channel.items ++ s.sending

/-- What a session has written is the beginning of what was submitted for its network, and all but what is on its way
while it runs. -/
def InOrder (s : Commanding) : Prop := ∀ session ∈ s.sessions,
  session.written <+: translated (onNetwork session.network s.submitted) ∧
    (session.stage ≠ .ended → translated (onNetwork session.network s.submitted) =
      session.written ++ translated (session.commands.items ++ onNetwork session.network s.underway))

end Commanding

/-- A connection is asked for. -/
def ClientCommand.connects : ClientCommand → Bool
  | connect .. => true
  | _ => false

theorem ClientCommand.connects_of_plain {command : ClientCommand} (plain : command.plain) : command.connects = false := by
  cases command <;> first | rfl | cases plain

theorem ClientCommand.translateCommand_of_connects {command : ClientCommand} (connects : command.connects) :
    command.translateCommand = none := by
  cases command <;> first | rfl | cases connects

/-- The first command connects, and no other connects or disconnects. -/
def Opened (commands : List ClientCommand) : Prop :=
  ∀ command rest, commands = command :: rest → command.connects ∧ ∀ later ∈ rest, later.plain

section Networks

variable {network n : ℕ} {commands : List ClientCommand} {command : ClientCommand} {i : ℕ}

theorem onNetwork_append {first later : List ClientCommand} :
    onNetwork n (first ++ later) = onNetwork n first ++ onNetwork n later := List.filter_append ..

theorem onNetwork_own : onNetwork command.network [command] = [command] := by simp [onNetwork]

theorem onNetwork_other (other : command.network ≠ n) : onNetwork n [command] = [] := by simp [onNetwork, other]

/-- A command that is the first of its network can be taken out at once. -/
theorem onNetwork_eraseIdx (known : commands[i]? = some command)
    (first : ∀ earlier ∈ commands.take i, earlier.network ≠ command.network) :
    onNetwork n [command] ++ onNetwork n (commands.eraseIdx i) = onNetwork n commands := by
  obtain ⟨inside, is⟩ := List.getElem?_eq_some_iff.mp known
  have split : commands = commands.take i ++ command :: commands.drop (i + 1) := by
    rw [← is, ← List.drop_eq_getElem_cons inside, List.take_append_drop]
  have before : onNetwork n [command] ++ onNetwork n (commands.take i)
      = onNetwork n (commands.take i) ++ onNetwork n [command] := by
    by_cases same : command.network = n
    · have none : onNetwork n (commands.take i) = [] :=
        List.filter_eq_nil_iff.mpr fun earlier member => by simpa [same] using first earlier member
      rw [none, List.append_nil, List.nil_append]
    · rw [onNetwork_other same, List.append_nil, List.nil_append]
  calc onNetwork n [command] ++ onNetwork n (commands.eraseIdx i)
      = onNetwork n [command] ++ onNetwork n (commands.take i) ++ onNetwork n (commands.drop (i + 1)) := by
        rw [List.eraseIdx_eq_take_drop_succ, onNetwork_append, List.append_assoc]
    _ = onNetwork n (commands.take i) ++ onNetwork n ([command] ++ commands.drop (i + 1)) := by
        rw [before, onNetwork_append, List.append_assoc]
    _ = onNetwork n commands := by rw [← onNetwork_append, List.singleton_append, ← split]

theorem Opened.append_plain (opened : Opened commands) (some : commands ≠ []) (plain : command.plain) :
    Opened (commands ++ [command]) := by
  intro first rest is
  obtain ⟨head, tail, rfl⟩ := List.exists_cons_of_ne_nil some
  obtain ⟨rfl, rfl⟩ := List.cons.inj is
  obtain ⟨connects, later⟩ := opened head tail rfl
  refine ⟨connects, fun other member => ?_⟩
  rcases List.mem_append.mp member with old | new
  · exact later other old
  · rwa [List.mem_singleton.mp new]

theorem opened_singleton (connects : command.connects) : Opened [command] := by
  intro first rest is
  cases is
  exact ⟨connects, by simp⟩

end Networks

namespace Commanding

/-- One session, with what is on its way to it. -/
structure Flow (s : Commanding) (id : ℕ) (session : NetworkSession) : Prop where
  begun : onNetwork session.network s.submitted ≠ []
  plain : ∀ command ∈ onNetwork session.network s.underway, command.plain
  written : session.written <+: translated (onNetwork session.network s.submitted)
  linked : session.stage ≠ .ended → s.networks session.network = some id
  order : session.stage ≠ .ended → translated (onNetwork session.network s.submitted) =
    session.written ++ translated (session.commands.items ++ onNetwork session.network s.underway)

/-- What holds between two steps. -/
structure Kept (s : Commanding) : Prop where
  fresh : ∀ command ∈ s.submitted, command.network < s.frontend.nextNetwork
  windows : ∀ network, s.frontend.Knows network → onNetwork network s.submitted ≠ []
  opened : ∀ network, Opened (onNetwork network s.submitted)
  idle : ∀ network, (∀ session ∈ s.sessions, session.network ≠ network) →
    s.networks network = none ∧ onNetwork network s.underway = onNetwork network s.submitted
  handles : ∀ network id, s.networks network = some id →
    ∃ session, s.sessions[id]? = some session ∧ session.network = network
  flow : ∀ id session, s.sessions[id]? = some session → s.Flow id session

section Steps

variable {s t : Commanding} {id task : ℕ} {session session' : NetworkSession} {command : ClientCommand}

theorem Kept.inOrder (kept : s.Kept) : s.InOrder := by
  intro session member
  obtain ⟨id, known⟩ := List.mem_iff_getElem?.mp member
  have flow := kept.flow id session known
  exact ⟨flow.written, flow.order⟩

/-- Commands that move on the way to the sessions, and windows of networks that there are. -/
theorem Kept.move (kept : s.Kept) (next : t.frontend.nextNetwork = s.frontend.nextNetwork)
    (windows : ∀ network, t.frontend.Knows network → onNetwork network s.submitted ≠ [])
    (submitted : t.submitted = s.submitted) (networks : t.networks = s.networks) (sessions : t.sessions = s.sessions)
    (underway : ∀ network, onNetwork network t.underway = onNetwork network s.underway) : t.Kept := by
  refine ⟨?_, ?_, ?_, ?_, ?_, ?_⟩
  · rw [submitted, next]
    exact kept.fresh
  · rw [submitted]
    exact windows
  · rw [submitted]
    exact kept.opened
  · intro network
    rw [sessions, networks, submitted, underway]
    exact kept.idle network
  · rw [networks, sessions]
    exact kept.handles
  · intro id session known
    rw [sessions] at known
    obtain ⟨begun, plain, written, linked, order⟩ := kept.flow id session known
    exact ⟨submitted ▸ begun, underway _ ▸ plain, submitted ▸ written, networks ▸ linked, by
      rw [submitted, underway]
      exact order⟩

theorem Kept.send (kept : s.Kept) (known : s.sending[task]? = some command)
    (first : ∀ earlier ∈ s.sending.take task, earlier.network ≠ command.network)
    {channel : Bounded ClientCommand channelBuf} (pushed : s.channel.push [command] = some channel) :
    Kept { s with sending := s.sending.eraseIdx task, channel } := by
  obtain ⟨-, items⟩ := Bounded.push_eq_some.mp pushed
  refine kept.move rfl kept.windows rfl rfl rfl fun network => ?_
  simp only [underway, items, onNetwork_append, List.append_assoc]
  rw [onNetwork_eraseIdx known first]

theorem Kept.recv (kept : s.Kept) (free : s.hand = none) {channel : Bounded ClientCommand channelBuf}
    (popped : s.channel.pop = some (command, channel)) : Kept { s with hand := some command, channel } := by
  have items := Bounded.pop_eq_some.mp popped
  refine kept.move rfl kept.windows rfl rfl rfl fun network => ?_
  simp [underway, items, free]

theorem translated_append {first later : List ClientCommand} :
    translated (first ++ later) = translated first ++ translated later := List.filterMap_append ..

/-- A session that goes on. -/
theorem Kept.set (kept : s.Kept) (known : s.sessions[id]? = some session) (alive : session.stage ≠ .ended)
    (same : session'.network = session.network) (frontend : t.frontend = s.frontend) (submitted : t.submitted = s.submitted)
    (networks : t.networks = s.networks) (sessions : t.sessions = s.sessions.set id session')
    (others : ∀ n, n ≠ session.network → onNetwork n t.underway = onNetwork n s.underway)
    (fewer : ∀ command ∈ onNetwork session.network t.underway, command ∈ onNetwork session.network s.underway)
    (written : session'.written <+: translated (onNetwork session.network s.submitted))
    (order : session'.stage ≠ .ended → translated (onNetwork session.network s.submitted) =
      session'.written ++ translated (session'.commands.items ++ onNetwork session.network t.underway)) : t.Kept := by
  have flow := kept.flow id session known
  refine ⟨?_, ?_, ?_, ?_, ?_, ?_⟩
  · rw [submitted, frontend]
    exact kept.fresh
  · rw [submitted, frontend]
    exact kept.windows
  · rw [submitted]
    exact kept.opened
  · rw [sessions, networks, submitted]
    intro network none
    have other : network ≠ session.network := by
      rw [← same]
      exact (none session' (List.mem_of_getElem? ((getElem?_set_known known).trans (if_pos rfl)))).symm
    rw [others network other]
    refine kept.idle network fun before member => ?_
    by_cases is : before = session
    · rw [is]
      exact other.symm
    · exact none before (mem_set_known known is member)
  · rw [sessions, networks]
    intro network other linked
    obtain ⟨before, here, is⟩ := kept.handles network other linked
    rw [getElem?_set_known known]
    split
    · rename_i at_
      cases at_
      cases known.symm.trans here
      exact ⟨session', rfl, same.trans is⟩
    · exact ⟨before, here, is⟩
  · intro other now here
    rw [sessions, getElem?_set_known known] at here
    split at here
    · rename_i at_
      cases at_
      cases here
      refine ⟨?_, ?_, ?_, fun _ => ?_, ?_⟩
      · rw [submitted, same]
        exact flow.begun
      · rw [same]
        exact fun command member => flow.plain command (fewer command member)
      · rwa [submitted, same]
      · rw [networks, same]
        exact flow.linked alive
      · rwa [submitted, same]
    · rename_i apart
      obtain ⟨begun, plain, before, linked, after⟩ := kept.flow other now here
      -- One session of a network has a handle.
      have elsewhere (goes : now.stage ≠ .ended) : now.network ≠ session.network := by
        intro both
        have handle := linked goes
        rw [both, flow.linked alive] at handle
        exact apart (Option.some.inj handle)
      refine ⟨submitted ▸ begun, ?_, submitted ▸ before, networks ▸ linked, fun goes => ?_⟩
      · by_cases both : now.network = session.network
        · rw [both] at plain ⊢
          exact fun command member => plain command (fewer command member)
        · rwa [others _ both]
      · rw [submitted, others _ (elsewhere goes)]
        exact after goes

/-- A session that goes on with what it has. -/
theorem Kept.proceed (kept : s.Kept) (known : s.sessions[id]? = some session) (same : session'.network = session.network)
    (alive : session.stage ≠ .ended)
    (written : session'.written <+: session.written ++ translated session.commands.items)
    (order : session'.stage ≠ .ended →
      session'.written ++ translated session'.commands.items = session.written ++ translated session.commands.items) :
    Kept { s with sessions := s.sessions.set id session' } := by
  have whole := (kept.flow id session known).order alive
  rw [translated_append, ← List.append_assoc] at whole
  refine kept.set known alive same rfl rfl rfl rfl (fun _ _ => rfl) (fun _ member => member) ?_ fun goes => ?_
  · exact written.trans (whole ▸ List.prefix_append _ _)
  · rw [translated_append, ← List.append_assoc, order goes]
    exact whole

theorem written_of_wire {more : List Wire} (wire : session'.wire = session.wire ++ more) :
    session'.written = session.written ++ more.filterMap Wire.command? := by
  unfold NetworkSession.written
  rw [wire, List.filterMap_append]

theorem registration_commands {count : ℕ} : (session.registration.take count).filterMap Wire.command? = [] := by
  refine List.filterMap_eq_nil_iff.mpr fun wire member => ?_
  rcases List.mem_pair.mp (List.mem_of_mem_take member) with rfl | rfl <;> rfl

/-- A session that writes what is no command. -/
theorem Kept.write (kept : s.Kept) (known : s.sessions[id]? = some session) (alive : session.stage ≠ .ended)
    {more : List Wire} (none : more.filterMap Wire.command? = []) (stage : Stage) :
    Kept { s with sessions := s.sessions.set id { session with wire := session.wire ++ more, stage } } := by
  have same : NetworkSession.written { session with wire := session.wire ++ more, stage } = session.written := by
    rw [written_of_wire rfl, none, List.append_nil]
  refine kept.proceed known rfl alive ?_ fun _ => ?_
  · rw [same]
    exact List.prefix_append _ _
  · rw [same]

theorem Kept.finish (kept : s.Kept) (known : s.sessions[id]? = some session) (runs : session.stage = .running) :
    Kept { s with sessions := s.sessions.set id { session with stage := .ended } } :=
  kept.proceed known rfl (by simp [runs]) (List.prefix_append _ _) fun goes => absurd rfl goes

theorem Kept.serve (kept : s.Kept) (known : s.sessions[id]? = some session) (runs : session.stage = .running)
    {commands : Bounded ClientCommand channelBuf} (popped : session.commands.pop = some (command, commands)) (sent : Bool) :
    Kept { s with sessions := s.sessions.set id (session.serve command commands sent) } := by
  have first : translated session.commands.items = command.translateCommand.toList ++ translated commands.items := by
    rw [Bounded.pop_eq_some.mp popped, translated, List.filterMap_cons]
    cases command.translateCommand <;> rfl
  have alive : session.stage ≠ .ended := by simp [runs]
  unfold NetworkSession.serve
  dsimp only
  cases is : command.translateCommand with
  | none =>
    rw [is] at first
    refine kept.proceed known rfl alive (List.prefix_append _ _) fun _ => ?_
    rw [first]
    rfl
  | some message =>
    rw [is] at first
    cases sent with
    | false => exact kept.proceed known rfl alive (List.prefix_append _ _) fun goes => absurd rfl goes
    | true =>
      -- What is taken from the channel is what is written.
      have whole : session.written ++ [message] ++ translated commands.items
          = session.written ++ translated session.commands.items := by
        rw [first, List.append_assoc]
        rfl
      simp only [if_true]
      refine kept.proceed known rfl alive ?_ fun _ => ?_
      · rw [written_of_wire rfl, ← whole]
        exact List.prefix_append _ _
      · rw [written_of_wire rfl, ← whole]
        rfl

/-- A command that is submitted. -/
theorem Kept.submit (kept : s.Kept) {frontend : Frontend} (more : s.frontend.nextNetwork ≤ frontend.nextNetwork)
    (fresh : command.network < frontend.nextNetwork)
    (windows : ∀ network, frontend.Knows network → s.frontend.Knows network ∨ network = command.network)
    (opened : Opened (onNetwork command.network s.submitted ++ [command]))
    (plain : onNetwork command.network s.submitted ≠ [] → command.plain) :
    Kept { s with frontend, sending := s.sending ++ [command], submitted := s.submitted ++ [command] } := by
  have way : underway { s with frontend, sending := s.sending ++ [command], submitted := s.submitted ++ [command] }
      = s.underway ++ [command] := by
    simp [underway]
  refine ⟨?_, ?_, ?_, ?_, kept.handles, ?_⟩
  · intro other member
    rcases List.mem_append.mp member with old | new
    · exact Nat.lt_of_lt_of_le (kept.fresh other old) more
    · rwa [List.mem_singleton.mp new]
  · intro network knows
    dsimp only
    rw [onNetwork_append]
    rcases windows network knows with old | rfl
    · exact List.append_ne_nil_of_left_ne_nil (kept.windows network old) _
    · rw [onNetwork_own]
      exact List.append_ne_nil_of_right_ne_nil _ (List.cons_ne_nil _ _)
  · intro network
    dsimp only
    rw [onNetwork_append]
    by_cases own : command.network = network
    · subst own
      rwa [onNetwork_own]
    · rw [onNetwork_other own, List.append_nil]
      exact kept.opened network
  · intro network none
    obtain ⟨unlinked, same⟩ := kept.idle network none
    refine ⟨unlinked, ?_⟩
    rw [way, onNetwork_append, onNetwork_append, same]
  · intro id session known
    obtain ⟨begun, before, written, linked, order⟩ := kept.flow id session known
    refine ⟨?_, ?_, ?_, linked, ?_⟩
    · dsimp only
      rw [onNetwork_append]
      exact List.append_ne_nil_of_left_ne_nil begun _
    · rw [way, onNetwork_append]
      intro other member
      rcases List.mem_append.mp member with old | new
      · exact before other old
      · obtain ⟨listed, own⟩ := List.mem_filter.mp new
        cases List.mem_singleton.mp listed
        exact plain ((of_decide_eq_true own : command.network = session.network) ▸ begun)
    · dsimp only
      rw [onNetwork_append, translated_append]
      exact written.trans (List.prefix_append _ _)
    · intro alive
      rw [way]
      dsimp only
      rw [onNetwork_append, onNetwork_append, translated_append, order alive]
      simp only [translated_append, List.append_assoc]

theorem Kept.submits (kept : s.Kept) {frontend : Frontend} {sent : Option ClientCommand}
    (submits : s.frontend.Submits frontend sent) :
    Kept { s with frontend, sending := s.sending ++ sent.toList, submitted := s.submitted ++ sent.toList } := by
  cases submits with
  | nothing next windows =>
    simp only [Option.toList_none, List.append_nil]
    exact kept.move next (fun network knows => kept.windows network (windows network knows)) rfl rfl rfl fun _ => rfl
  | @command command next windows plain known =>
    have begun := kept.windows _ known
    obtain ⟨earlier, member⟩ := List.exists_mem_of_ne_nil _ begun
    obtain ⟨listed, own⟩ := List.mem_filter.mp member
    refine kept.submit next.ge ?_ (fun network knows => .inl (windows network knows))
      ((kept.opened _).append_plain begun plain) fun _ => plain
    rw [next, ← (of_decide_eq_true own : earlier.network = command.network)]
    exact kept.fresh earlier listed
  | connect next windows =>
    -- The number is a new one.
    have unused : onNetwork s.frontend.nextNetwork s.submitted = [] := by
      refine List.filter_eq_nil_iff.mpr fun other member => ?_
      have := kept.fresh other member
      simp only [decide_eq_true_eq]
      omega
    refine kept.submit (by omega) ?_ windows ?_ fun begun => absurd unused begun
    · rw [next]
      exact Nat.lt_succ_self _
    · show Opened (onNetwork s.frontend.nextNetwork s.submitted ++ _)
      rw [unused]
      exact opened_singleton rfl

/-- A frontend that opens windows for an event. -/
theorem Kept.event (kept : s.Kept) {event : ClientEvent} (emitted : ∃ session ∈ s.sessions, session.network = event.network) :
    Kept { s with frontend := (s.frontend.update (.ircEvent event)).1 } := by
  refine kept.move rfl (fun network knows => ?_) rfl rfl rfl fun _ => rfl
  rcases Frontend.knows_of_event knows with old | rfl
  · exact kept.windows network old
  · obtain ⟨session, member, same⟩ := emitted
    obtain ⟨id, known⟩ := List.mem_iff_getElem?.mp member
    rw [← same]
    exact (kept.flow id session known).begun

/-- What waits once the command is handled. -/
theorem underway_handed (hand : s.hand = some command) (free : t.hand = none) (channel : t.channel = s.channel)
    (sending : t.sending = s.sending) (n : ℕ) :
    onNetwork n s.underway = onNetwork n [command] ++ onNetwork n t.underway := by
  rw [← onNetwork_append]
  simp [underway, hand, free, channel, sending]

/-- The first command of a network is the first that was submitted for it. -/
theorem Kept.first (kept : s.Kept) (hand : s.hand = some command)
    (none : ∀ session ∈ s.sessions, session.network ≠ command.network) (free : t.hand = Option.none)
    (channel : t.channel = s.channel) (sending : t.sending = s.sending) :
    onNetwork command.network s.submitted = command :: onNetwork command.network t.underway := by
  rw [← (kept.idle _ none).2, underway_handed hand free channel sending, onNetwork_own]
  rfl

/-- A network whose first command is handled has had none: it connects. -/
theorem Kept.connects_of_hand (kept : s.Kept) (hand : s.hand = some command)
    (none : ∀ session ∈ s.sessions, session.network ≠ command.network) : command.connects :=
  (kept.opened _ _ _ (kept.first (t := { s with hand := .none }) hand none rfl rfl rfl)).1

/-- Later commands neither connect nor disconnect. -/
theorem Kept.plain_of_hand (kept : s.Kept) (hand : s.hand = some command) (known : s.sessions[id]? = some session)
    (own : session.network = command.network) : command.plain := by
  refine (kept.flow id session known).plain command (List.mem_filter.mpr ⟨?_, decide_eq_true own.symm⟩)
  simp [underway, hand]

/-- A command for sessions that have all ended. -/
theorem Kept.drop (kept : s.Kept) (hand : s.hand = some command) {networks : ℕ → Option ℕ}
    (others : ∀ n, n ≠ command.network → networks n = s.networks n) (gone : networks command.network = none)
    (there : ∃ session ∈ s.sessions, session.network = command.network)
    (ended : ∀ session ∈ s.sessions, session.network = command.network → session.stage = .ended) :
    Kept { s with hand := none, networks } := by
  have handed := underway_handed (t := { s with hand := none, networks }) hand rfl rfl rfl
  refine ⟨kept.fresh, kept.windows, kept.opened, ?_, ?_, ?_⟩
  · intro network absent
    have other : network ≠ command.network := by
      rintro rfl
      obtain ⟨session, member, own⟩ := there
      exact absent session member own
    obtain ⟨unlinked, same⟩ := kept.idle network absent
    rw [handed, onNetwork_other other.symm, List.nil_append] at same
    exact ⟨(others network other).trans unlinked, same⟩
  · intro network id linked
    by_cases other : network = command.network
    · exact nomatch (other ▸ gone).symm.trans linked
    · exact kept.handles network id ((others network other).symm.trans linked)
  · intro id session known
    obtain ⟨begun, plain, written, linked, order⟩ := kept.flow id session known
    rw [handed] at plain order
    refine ⟨begun, fun later member => plain later (List.mem_append_right _ member), written, fun alive => ?_,
      fun alive => ?_⟩
    · have other : session.network ≠ command.network := fun own => alive (ended session (List.mem_of_getElem? known) own)
      exact (others _ other).trans (linked alive)
    · have other : session.network ≠ command.network := fun own => alive (ended session (List.mem_of_getElem? known) own)
      rw [onNetwork_other other.symm, List.nil_append] at order
      exact order alive

/-- A command that is sent into the channel of its network. -/
theorem Kept.pass (kept : s.Kept) (hand : s.hand = some command) (known : s.sessions[id]? = some session)
    (alive : session.stage ≠ .ended) (own : session.network = command.network) {commands : Bounded ClientCommand channelBuf}
    (pushed : session.commands.push [command] = some commands) :
    Kept { s with hand := none, sessions := s.sessions.set id { session with commands } } := by
  obtain ⟨-, items⟩ := Bounded.push_eq_some.mp pushed
  have flow := kept.flow id session known
  have handed := underway_handed (t := { s with
    hand := none, sessions := s.sessions.set id { session with commands } }) hand rfl rfl rfl
  have same : NetworkSession.network { session with commands } = session.network := rfl
  refine kept.set known alive same rfl rfl rfl rfl ?_ ?_ flow.written fun _ => ?_
  · intro network other
    rw [handed, onNetwork_other fun same => other (same.symm.trans own.symm), List.nil_append]
  · intro later member
    rw [handed]
    exact List.mem_append_right _ member
  · have whole := flow.order alive
    rw [handed] at whole
    rw [whole, items, own, onNetwork_own, List.append_assoc]
    rfl

/-- A session that has its `Connect` behind it. -/
theorem Kept.begin (kept : s.Kept) (connects : command.connects) (submitted : t.submitted = s.submitted)
    (whole : onNetwork session.network s.submitted = command :: onNetwork session.network t.underway)
    (linked : t.networks session.network = some id) (wire : session.wire = []) (commands : session.commands.items = []) :
    t.Flow id session := by
  have nothing : session.written = [] := by
    unfold NetworkSession.written
    rw [wire]
    rfl
  refine ⟨?_, (kept.opened _ _ _ whole).2, ?_, fun _ => linked, fun _ => ?_⟩
  · rw [submitted, whole]
    exact List.cons_ne_nil _ _
  · rw [nothing]
    exact List.nil_prefix
  · rw [nothing, commands, submitted, whole, translated, List.filterMap_cons,
      ClientCommand.translateCommand_of_connects connects]
    rfl

/-- A network that is begun. -/
theorem Kept.connect (kept : s.Kept) (hand : s.hand = some command) (connects : command.connects) {begins : NetworkSession}
    (own : begins.network = command.network) (wire : begins.wire = []) (commands : begins.commands.items = []) :
    Kept { s with
      hand := none
      networks := Function.update s.networks command.network (some s.sessions.length)
      sessions := s.sessions ++ [begins] } := by
  have none : ∀ session ∈ s.sessions, session.network ≠ command.network := by
    intro session member same
    obtain ⟨id, known⟩ := List.mem_iff_getElem?.mp member
    have plain := kept.plain_of_hand hand known same
    rw [ClientCommand.connects_of_plain plain] at connects
    cases connects
  have handed := underway_handed (t := { s with
    hand := .none
    networks := Function.update s.networks command.network (some s.sessions.length)
    sessions := s.sessions ++ [begins] }) hand rfl rfl rfl
  have whole := kept.first (t := { s with
    hand := .none
    networks := Function.update s.networks command.network (some s.sessions.length)
    sessions := s.sessions ++ [begins] }) hand none rfl rfl rfl
  refine ⟨kept.fresh, kept.windows, kept.opened, ?_, ?_, ?_⟩
  · intro network absent
    have other : network ≠ command.network := by
      rw [← own]
      exact (absent begins (List.mem_append_right _ (List.mem_singleton_self _))).symm
    obtain ⟨unlinked, same⟩ := kept.idle network fun session member => absent session (List.mem_append_left _ member)
    rw [handed, onNetwork_other other.symm, List.nil_append] at same
    exact ⟨(Function.update_of_ne other ..).trans unlinked, same⟩
  · intro network id linked
    by_cases here : network = command.network
    · subst here
      cases (Function.update_self ..).symm.trans linked
      exact ⟨begins, List.getElem?_concat_length, own⟩
    · obtain ⟨session, known, is⟩ := kept.handles network id ((Function.update_of_ne here ..).symm.trans linked)
      exact ⟨session, List.getElem?_append_left (List.getElem?_eq_some_iff.mp known).1 ▸ known, is⟩
  · intro id session known
    dsimp only at known
    rw [List.getElem?_append] at known
    split at known
    · obtain ⟨begun, plain, written, linked, order⟩ := kept.flow id session known
      have other : session.network ≠ command.network := none session (List.mem_of_getElem? known)
      rw [handed, onNetwork_other other.symm, List.nil_append] at plain order
      exact ⟨begun, plain, written, fun alive => (Function.update_of_ne other ..).trans (linked alive), order⟩
    · rename_i outside
      obtain ⟨inside, is⟩ := List.getElem?_eq_some_iff.mp known
      obtain rfl : id = s.sessions.length := by
        rw [List.length_singleton] at inside
        omega
      rw [List.getElem_singleton] at is
      subst is
      exact kept.begin connects rfl (own ▸ whole) (own ▸ Function.update_self ..) wire commands

theorem handleCommand_plain (plain : command.plain) : s.handleCommand command =
    match s.networks command.network with
    | none => some { s with hand := none }
    | some id =>
      match s.sessions[id]? with
      | none => none
      | some session =>
        if session.stage = .ended then
          some { s with hand := none, networks := Function.update s.networks command.network none }
        else
          (session.commands.push [command]).map fun commands =>
            { s with hand := none, sessions := s.sessions.set id { session with commands } } := by
  cases command <;> first | rfl | cases plain

theorem Kept.handle_plain (kept : s.Kept) (hand : s.hand = some command) (plain : command.plain)
    (taken : s.handleCommand command = some t) : t.Kept := by
  have there : ∃ session ∈ s.sessions, session.network = command.network := by
    by_contra absent
    push Not at absent
    have connects := kept.connects_of_hand hand absent
    rw [ClientCommand.connects_of_plain plain] at connects
    cases connects
  rw [handleCommand_plain plain] at taken
  split at taken
  · rename_i gone
    cases taken
    refine kept.drop hand (fun _ _ => rfl) gone there fun session member own => ?_
    by_contra alive
    obtain ⟨id, known⟩ := List.mem_iff_getElem?.mp member
    have linked := (kept.flow id session known).linked alive
    rw [own, gone] at linked
    cases linked
  · rename_i id linked
    obtain ⟨session, known, own⟩ := kept.handles _ id linked
    rw [known] at taken
    dsimp only at taken
    split at taken
    · rename_i closed
      cases taken
      refine kept.drop hand (fun n other => Function.update_of_ne other ..) (Function.update_self ..) there
        fun other member same => ?_
      by_contra alive
      obtain ⟨id', known'⟩ := List.mem_iff_getElem?.mp member
      have linked' := (kept.flow id' other known').linked alive
      rw [same, linked] at linked'
      cases linked'
      cases known.symm.trans known'
      exact alive closed
    · rename_i alive
      obtain ⟨commands, pushed, rfl⟩ := Option.map_eq_some_iff.mp taken
      exact kept.pass hand known alive own pushed

theorem Kept.handle (kept : s.Kept) (hand : s.hand = some command) (taken : s.handleCommand command = some t) :
    t.Kept := by
  cases command with
  | connect network host port tls nick user realname =>
    cases taken
    exact kept.connect hand rfl rfl rfl rfl
  | disconnect network =>
    -- It is no first command, and no later one.
    by_cases absent : ∀ session ∈ s.sessions, session.network ≠ network
    · cases kept.connects_of_hand hand absent
    · push Not at absent
      obtain ⟨session, member, own⟩ := absent
      obtain ⟨id, known⟩ := List.mem_iff_getElem?.mp member
      cases kept.plain_of_hand hand known own
  | sendRaw | sendPrivmsg | sendNotice | join | part | changeNick | setTopic | quit | list | dccAcceptChat | dccAcceptSend =>
    exact kept.handle_plain hand rfl taken

theorem step_update {msg : Msg} (own : ∀ event, msg ≠ .ircEvent event) : s.step (.update msg) = some { s with
    frontend := (s.frontend.update msg).1
    sending := s.sending ++ (s.frontend.update msg).2.toList
    submitted := s.submitted ++ (s.frontend.update msg).2.toList } := by
  cases msg <;> first | rfl | exact absurd rfl (own _)

/-- A step. -/
theorem Kept.step {a : CommandAction} (kept : s.Kept) (allowed : s.inTurn a) (taken : s.step a = some t) : t.Kept := by
  cases a with
  | update msg =>
    by_cases own : ∀ event, msg ≠ .ircEvent event
    · cases (step_update own).symm.trans taken
      exact kept.submits (Frontend.submits_update own)
    · push Not at own
      obtain ⟨event, rfl⟩ := own
      obtain ⟨emitted, is⟩ := Option.ite_none_right_eq_some.mp taken
      cases is
      obtain ⟨session, member, same⟩ := List.any_eq_true.mp emitted
      exact kept.event ⟨session, member, of_decide_eq_true same⟩
  | send task =>
    obtain ⟨command, known, pushed⟩ := Option.bind_eq_some_iff.mp taken
    obtain ⟨channel, room, rfl⟩ := Option.map_eq_some_iff.mp pushed
    simp only [inTurn, known, Option.all_some, List.all_eq_true, decide_eq_true_eq] at allowed
    exact kept.send known allowed room
  | recv =>
    change (match s.hand with
      | some _ => none
      | none => s.channel.pop.map fun (command, channel) => { s with hand := some command, channel }) = some t at taken
    cases free : s.hand with
    | some command =>
      rw [free] at taken
      cases taken
    | none =>
      rw [free] at taken
      obtain ⟨⟨command, channel⟩, popped, rfl⟩ := Option.map_eq_some_iff.mp taken
      exact kept.recv free popped
  | handle =>
    obtain ⟨command, hand, taken⟩ := Option.bind_eq_some_iff.mp taken
    exact kept.handle hand taken
  | register id count =>
    obtain ⟨session, known, taken⟩ := Option.bind_eq_some_iff.mp taken
    obtain ⟨connecting, is⟩ := Option.ite_none_right_eq_some.mp taken
    cases is
    exact kept.write known (by simp [connecting]) registration_commands _
  | pong id token sent =>
    obtain ⟨session, known, taken⟩ := Option.bind_eq_some_iff.mp taken
    obtain ⟨runs, is⟩ := Option.ite_none_right_eq_some.mp taken
    cases is
    cases sent with
    | false => exact kept.finish known runs
    | true => exact kept.write known (by simp [runs]) rfl session.stage
  | serve id sent =>
    obtain ⟨session, known, taken⟩ := Option.bind_eq_some_iff.mp taken
    obtain ⟨runs, is⟩ := Option.ite_none_right_eq_some.mp taken
    obtain ⟨⟨command, commands⟩, popped, rfl⟩ := Option.map_eq_some_iff.mp is
    exact kept.serve known runs popped sent
  | finish id =>
    obtain ⟨session, known, taken⟩ := Option.bind_eq_some_iff.mp taken
    obtain ⟨runs, is⟩ := Option.ite_none_right_eq_some.mp taken
    cases is
    exact kept.finish known runs

end Steps

end Commanding

section Runs

variable {s : Commanding}

/-- **Commands keep their order** in every run whose send tasks send in turn: a session writes the translations of
what was submitted for its network, and while it runs the rest is on its way to it. -/
theorem commands_in_order (reached : commanding.Reaches (fun s a => s.inTurn a) s) : s.InOrder := by
  have kept : s.Kept := by
    refine reached.invariant Commanding.Kept ?_ fun _ _ _ kept allowed taken => kept.step allowed taken
    exact {
      fresh := by simp [commanding]
      windows := by simp [commanding, Frontend.Knows, IrcApp.places]
      opened := by simp [commanding, Opened, onNetwork]
      idle := fun _ _ => ⟨rfl, rfl⟩
      handles := by simp [commanding]
      flow := by simp [commanding] }
  exact kept.inOrder

end Runs

section Examples

def listLine : Utf8 := ⟨ascii "/list", by decide +kernel⟩

def joinLine : Utf8 := ⟨ascii "/join #a", by decide +kernel⟩

/-- A user connects, and then submits two commands in the status window. -/
def twoCommands : List CommandAction :=
  [.update .connectSubmit, .send 0, .recv, .handle, .register 0 2, .update (.inputChanged listLine), .update .inputSubmit,
    .update (.inputChanged joinLine), .update .inputSubmit]

/-- A command that a task sends, on to the wire. -/
def delivered (task : ℕ) : List CommandAction := [.send task, .recv, .handle, .serve 0 true]

def listThenJoin : List Message := translated [.list 1, .join 1 (ascii "#a")]

def joinThenList : List Message := translated [.join 1 (ascii "#a"), .list 1]

theorem commands_in_order_both : ∃ s, commanding.Reaches (fun s a => s.inTurn a) s ∧
    s.sessions.map NetworkSession.written = [listThenJoin] ∧ s.InOrder := by
  obtain ⟨s, reached, written⟩ := Machine.Reaches.of_trace commanding (fun s a => s.inTurn a)
    (twoCommands ++ delivered 0 ++ delivered 0) (fun s => s.sessions.map NetworkSession.written = [listThenJoin])
    (by decide +kernel)
  exact ⟨s, reached, written, commands_in_order reached⟩

/-- The task of the second command sends first. -/
theorem commands_in_order_fails : ∃ s, commanding.Reachable s ∧ translated (onNetwork 1 s.submitted) = listThenJoin ∧
    (∃ session ∈ s.sessions, session.network = 1 ∧ session.stage = .running ∧ session.written = joinThenList) ∧
    ¬s.InOrder := by
  obtain ⟨s, reached, submitted, session, member, network, runs, written⟩ := Machine.Reachable.of_trace commanding
    (twoCommands ++ delivered 1 ++ delivered 0) (fun s => translated (onNetwork 1 s.submitted) = listThenJoin ∧
      ∃ session ∈ s.sessions, session.network = 1 ∧ session.stage = .running ∧ session.written = joinThenList)
    (by decide +kernel)
  refine ⟨s, reached, submitted, ⟨session, member, network, runs, written⟩, fun inOrder => ?_⟩
  have first := (inOrder session member).1
  rw [network, submitted, written] at first
  exact absurd first (by decide +kernel)

end Examples

end RndRust.Irc.Client
