import RndRust.Sniper.Client
import RndRust.Sniper.Confirmations

/-! The bounded channels of `main.rs`. The event loop takes events from the task channel and
puts log entries into the log channel, the log forwarder puts those into the client channel,
and the tasks of the client take them from there. When a transaction has failed, the event
loop also puts an event into the channel it reads itself. -/
namespace RndRust.Sniper
open Lib

/-- What comes through the task channel. -/
inductive Incoming where
  | slot (slot : ℕ)
  | task (task : MpscTask)
  /-- A tweet is handled by a task of its own, and other events by none. -/
  | other
  deriving DecidableEq

/-- What comes through the log channel. -/
inductive MpscLogs where
  | ping
  | pong
  | tx (signature : String) (confirmed : Bool)
  | tweet (id : String)
  | slot (slot : ℕ)
  deriving DecidableEq

def MpscLogs.forwarded : MpscLogs → Bool
  | ping | pong => false
  | tx _ _ | tweet _ | slot _ => true

/-- Where the event loop stands. -/
inductive LoopPhase where
  | receiving
  /-- It puts an entry into the log channel, and goes on to send `next`. -/
  | logging (entry : MpscLogs) (next : Option MpscTask)
  /-- It puts an event into the task channel. -/
  | retrying (task : MpscTask)
  deriving DecidableEq

structure Trading where
  loop : EventLoop
  phase : LoopPhase := .receiving
  tasks : List Incoming := []
  logs : List MpscLogs := []
  /-- What the log forwarder has yet to put into the client channel. -/
  forwarding : Option String := none
  client : WsClient := {}

inductive TradingAction where
  /-- A task other than the event loop puts an event into the task channel. -/
  | produce (event : Incoming)
  /-- A task other than the event loop puts an entry into the log channel. -/
  | log (entry : MpscLogs)
  /-- Other tasks change the shared state. -/
  | share (state : AppState)
  /-- The event loop takes the next event. -/
  | event (retryUuid : String)
  | logged
  | retried
  /-- The log forwarder takes the next entry. -/
  | forward
  | forwarded
  | client (action : ClientAction)

namespace Trading

variable (toJson : MpscLogs → String) (s : Trading)

/-- What the event loop does with an event up to its first wait. -/
def handle (event : Incoming) (retryUuid : String) : Trading :=
  match event with
  | .slot slot => { s with phase := .logging (.slot slot) none }
  | .task task =>
    let h := s.loop.handle task retryUuid
    let after := { s with loop := h.loop }
    match task with
    | .txSent tx => { after with phase := .logging (.tx tx.signature false) none }
    | .txConfirmation tx =>
      if (s.loop.watchedTxs.findIdx? (EventLoop.waiting tx.signature)).isSome then
        { after with phase := .logging (.tx tx.signature true) h.sent }
      else after
    | .retry _ => after
  | .other => s

def step : TradingAction → Option Trading
  | .produce event => if s.tasks.length < capacity then some { s with tasks := s.tasks ++ [event] } else none
  | .log entry => if s.logs.length < capacity then some { s with logs := s.logs ++ [entry] } else none
  | .share state => some { s with loop := { s.loop with state } }
  | .event retryUuid =>
    match s.phase, s.tasks with
    | .receiving, event :: rest => some ({ s with tasks := rest }.handle event retryUuid)
    | _, _ => none
  | .logged =>
    match s.phase with
    | .logging entry next =>
      if s.logs.length < capacity then
        some { s with
          logs := s.logs ++ [entry]
          phase := match next with
            | some task => .retrying task
            | none => .receiving }
      else none
    | _ => none
  | .retried =>
    match s.phase with
    | .retrying task =>
      if s.tasks.length < capacity then
        some { s with tasks := s.tasks ++ [.task task], phase := .receiving }
      else none
    | _ => none
  | .forward =>
    match s.forwarding, s.logs with
    | none, entry :: rest =>
      some { s with logs := rest, forwarding := if entry.forwarded then some (toJson entry) else none }
    | _, _ => none
  | .forwarded =>
    match s.forwarding with
    | some msg => (s.client.step (.put msg)).map fun client => { s with client, forwarding := none }
    | none => none
  | .client (.put _) | .client .close => none
  | .client action => (s.client.step action).map fun client => { s with client }

end Trading

def trading (serverName : String) (toJson : MpscLogs → String) : Machine Trading TradingAction where
  initial := { loop := { state := { serverName } } }
  step := Trading.step toJson

/-! How the client channel gets emptier. -/

/-- A step of the tasks of the client themselves. -/
def ClientAction.own : ClientAction → Bool
  | put _ | close => false
  | _ => true

namespace WsClient

/-- While the client channel has a sender no forwarder ends, and a connection that is read has
one. -/
structure Open (s : WsClient) : Prop where
  sender : s.closed = false
  forwards : ∀ conn ∈ s.conns, conn.forwarder ≠ .ended
  reading : s.live.isSome → s.conns ≠ []

/-- The tasks of the client take a message. -/
def Drains (s : WsClient) : Prop :=
  ∃ trace t, (∀ a ∈ trace, a.own) ∧ wsClient.run s trace = some t ∧ t.client = s.client.tail

variable {s t : WsClient} {a : ClientAction} {i : ℕ} {conn : Connection} {msg : String} {rest : List String}

theorem Drains.before (later : t.Drains) (own : a.own) (taken : s.step a = some t) (same : t.client = s.client) :
    s.Drains := by
  obtain ⟨trace, u, others, ran, takes⟩ := later
  refine ⟨a :: trace, u, ?_, ?_, same ▸ takes⟩
  · simpa [own] using others
  · simpa [wsClient, taken] using ran

theorem Drains.run {trace : List ClientAction} (later : t.Drains) (own : ∀ a ∈ trace, a.own)
    (ran : wsClient.run s trace = some t) (same : t.client = s.client) : s.Drains := by
  obtain ⟨more, u, others, ranMore, takes⟩ := later
  refine ⟨trace ++ more, u, ?_, ?_, same ▸ takes⟩
  · intro a member
    rcases List.mem_append.mp member with first | second
    · exact own a first
    · exact others a second
  · rw [Machine.run_append, ran]
    exact ranMore

theorem drains_receiving (waits : s.client = msg :: rest) (known : s.conns[i]? = some conn)
    (receiving : conn.forwarder = .receiving) : s.Drains := by
  obtain ⟨t, taken, takes⟩ : ∃ t, s.recv i conn = some t ∧ t.client = rest := by simp [recv, waits]
  refine ⟨[.recv i], t, by simp [ClientAction.own], ?_, by rw [waits, takes, List.tail_cons]⟩
  simpa [wsClient, step, known, receiving] using taken

/-- A forwarder that holds the lock comes back to the channel. -/
theorem drains_sending {text : String} {live : Option ℕ} (waits : s.client = msg :: rest)
    (known : s.conns[i]? = some conn) (sending : conn.forwarder = .sending text live) : s.Drains := by
  by_cases writing : conn.writing
  · obtain ⟨n, queue, room, ran⟩ := makes_room known writing
    have after := setConn_same { conn with queue } known
    have received := drains_receiving (s := (s.setConn i { conn with queue }).setConn i { conn with
      queue := queue ++ [text], passed := conn.passed ++ [(text, live)], forwarder := .receiving }) waits
      (setConn_same _ after) rfl
    refine (received.before rfl (send_step after sending writing room) rfl).run ?_ ran rfl
    intro a member
    rw [List.eq_of_mem_replicate member]
    rfl
  · have lost : s.step (.send i) = some (s.setConn i { conn with forwarder := .receiving }) := by
      simp [step, known, sending, send, writing]
    have received := drains_receiving (s := s.setConn i { conn with forwarder := .receiving }) waits
      (setConn_same _ known) rfl
    exact received.before rfl lost rfl

theorem drains_locking (waits : s.client = msg :: rest) (known : s.conns[i]? = some conn)
    (locking : conn.forwarder = .locking) (free : s.locked = false) : s.Drains := by
  have locked : s.step (.lock i) = some (s.setConn i { conn with forwarder := .receiving }) := by
    simp [step, known, locking, free]
  have received := drains_receiving (s := s.setConn i { conn with forwarder := .receiving }) waits
    (setConn_same _ known) rfl
  exact received.before rfl locked rfl

/-- However the client stands, its tasks take the next message. -/
theorem Open.drains (isOpen : s.Open) (waits : s.client = msg :: rest) : s.Drains := by
  have connecting : ∀ {s : WsClient}, s.client = msg :: rest → s.conns = [] → s.phase = .connecting → s.Drains := by
    intro s waits none connecting
    have connected : s.step .connect = some { s with phase := .reading 0, conns := [{}] } := by
      simp [step, connecting, none]
    have locking := drains_locking (s := { s with phase := .reading 0, conns := [{}] }) (i := 0) waits rfl rfl rfl
    exact locking.before rfl connected rfl
  cases conns : s.conns with
  | nil =>
    cases phase : s.phase with
    | connecting => exact connecting waits conns phase
    | reading k => exact (isOpen.reading (by simp [live, phase]) conns).elim
    | sleeping =>
      have woke : s.step .wake = some { s with phase := .connecting } := by simp [step, phase]
      exact (connecting (s := { s with phase := .connecting }) waits conns rfl).before rfl woke rfl
  | cons first more =>
    by_cases locked : s.locked
    · obtain ⟨conn, member, holds⟩ := List.any_eq_true.mp locked
      obtain ⟨i, known⟩ := List.getElem?_of_mem member
      cases forwarder : conn.forwarder with
      | receiving => exact drains_receiving waits known forwarder
      | sending text live => exact drains_sending waits known forwarder
      | locking => simp [forwarder, Forwarder.holdsLock] at holds
      | ended => simp [forwarder, Forwarder.holdsLock] at holds
    · have known : s.conns[0]? = some first := by simp [conns]
      have free : s.locked = false := by simpa using locked
      have idle : first.forwarder.holdsLock = false := by
        have := List.any_eq_false.mp free first (by simp [conns])
        simpa using this
      cases forwarder : first.forwarder with
      | locking => exact drains_locking waits known forwarder free
      | ended => exact (isOpen.forwards first (by simp [conns]) forwarder).elim
      | receiving => simp [forwarder, Forwarder.holdsLock] at idle
      | sending text live => simp [forwarder, Forwarder.holdsLock] at idle

/-- The client channel keeps a sender, and its bound. -/
structure Fits (s : WsClient) : Prop where
  isOpen : s.Open
  bound : s.client.length ≤ capacity

theorem Fits.set (new : Connection) (fits : s.Fits) (goes : new.forwarder ≠ .ended) : (s.setConn i new).Fits where
  isOpen := by
    obtain ⟨sender, forwards, reading⟩ := fits.isOpen
    refine ⟨sender, fun c member => ?_, fun up => ?_⟩
    · rcases List.mem_or_eq_of_mem_set member with old | rfl
      · exact forwards c old
      · exact goes
    · simpa [setConn] using reading up
  bound := fits.bound

theorem Fits.enqueue {text : String} (fits : s.Fits) (taken : s.enqueue i text = some t) : t.Fits := by
  unfold WsClient.enqueue at taken
  split at taken
  · rename_i conn known
    split at taken
    · cases taken
      exact fits.set _ (fits.isOpen.forwards conn (List.mem_of_getElem? known))
    · cases taken
  · cases taken

theorem Fits.recv (fits : s.Fits) (taken : s.recv i conn = some t) : t.Fits := by
  have bound := fits.bound
  unfold WsClient.recv at taken
  split at taken
  · rename_i msg rest client
    cases taken
    obtain ⟨sender, forwards, reading⟩ :=
      (fits.set (i := i) { conn with forwarder := .sending msg s.live } (by simp)).isOpen
    rw [client, List.length_cons] at bound
    exact ⟨⟨sender, forwards, reading⟩, Nat.le_of_succ_le bound⟩
  · split at taken
    · rename_i closed
      exact absurd (fits.isOpen.sender.symm.trans closed) (by simp)
    · cases taken

theorem Fits.send {live : Option ℕ} (fits : s.Fits) (taken : s.send i conn msg live = some t) : t.Fits := by
  unfold WsClient.send at taken
  repeat' split at taken
  all_goals cases taken
  all_goals exact fits.set _ (by simp)

theorem Fits.step (fits : s.Fits) (own : a ≠ .close) (taken : s.step a = some t) : t.Fits := by
  obtain ⟨sender, forwards, reading⟩ := fits.isOpen
  cases step_takes taken with
  | closes => exact (own rfl).elim
  | puts msg room => exact ⟨⟨sender, forwards, reading⟩, by simpa using Nat.succ_le_of_lt room⟩
  | connects =>
    refine ⟨⟨sender, fun c member => ?_, fun _ => by simp⟩, fits.bound⟩
    rcases List.mem_append.mp member with old | new
    · exact forwards c old
    · cases List.mem_singleton.mp new
      simp
  | fails | ends | wakes => exact ⟨⟨sender, forwards, by simp [live]⟩, fits.bound⟩
  | pings queued => exact fits.enqueue queued
  | pongs queued => exact fits.enqueue queued
  | locks known locking => exact fits.set _ (by simp)
  | receives known receiving took => exact fits.recv took
  | sends known sending sent => exact fits.send sent
  | writes known queued =>
    have goes := forwards _ (List.mem_of_getElem? known)
    exact fits.set _ goes
  | breaks known =>
    have goes := forwards _ (List.mem_of_getElem? known)
    exact fits.set _ goes

theorem Fits.run {trace : List ClientAction} (fits : s.Fits) (own : ∀ a ∈ trace, a.own)
    (ran : wsClient.run s trace = some t) : t.Fits := by
  induction trace generalizing s with
  | nil =>
    cases ran
    exact fits
  | cons a trace ih =>
    obtain ⟨mid, stepped, ran⟩ := Option.bind_eq_some_iff.mp ran
    refine ih (fits.step ?_ stepped) (fun b member => own b (List.mem_cons_of_mem a member)) ran
    rintro rfl
    cases own .close List.mem_cons_self

end WsClient

namespace Trading

/-- The bounds of the channels. -/
structure Sound (s : Trading) : Prop where
  client : s.client.Fits
  logs : s.logs.length ≤ capacity

section Runs

variable {toJson : MpscLogs → String} {serverName : String} {s t : Trading} {a : TradingAction}

theorem handle_frame (event : Incoming) (retryUuid : String) :
    (s.handle event retryUuid).client = s.client ∧ (s.handle event retryUuid).logs = s.logs ∧
      (s.handle event retryUuid).tasks = s.tasks ∧
      ((∃ task, (s.handle event retryUuid).phase = .retrying task) → ∃ task, s.phase = .retrying task) := by
  unfold handle
  repeat' split
  all_goals exact ⟨rfl, rfl, rfl, by simp⟩

/-- Every step, with what it needs and where it leads. -/
inductive Takes (toJson : MpscLogs → String) (s : Trading) : TradingAction → Trading → Prop
  | shares (state : AppState) : Takes toJson s (.share state) { s with loop := { s.loop with state } }
  | logs (entry : MpscLogs) (room : s.logs.length < capacity) :
      Takes toJson s (.log entry) { s with logs := s.logs ++ [entry] }
  | produces (event : Incoming) (room : s.tasks.length < capacity) :
      Takes toJson s (.produce event) { s with tasks := s.tasks ++ [event] }
  | handles {event : Incoming} {rest : List Incoming} (retryUuid : String) (receiving : s.phase = .receiving)
      (queued : s.tasks = event :: rest) :
      Takes toJson s (.event retryUuid) ({ s with tasks := rest }.handle event retryUuid)
  | logged {entry : MpscLogs} {next : Option MpscTask} (logging : s.phase = .logging entry next)
      (room : s.logs.length < capacity) :
      Takes toJson s .logged { s with logs := s.logs ++ [entry], phase := next.elim .receiving .retrying }
  | retried {task : MpscTask} (retrying : s.phase = .retrying task) (room : s.tasks.length < capacity) :
      Takes toJson s .retried { s with tasks := s.tasks ++ [.task task], phase := .receiving }
  | forwards {entry : MpscLogs} {rest : List MpscLogs} (idle : s.forwarding = none) (queued : s.logs = entry :: rest) :
      Takes toJson s .forward
        { s with logs := rest, forwarding := if entry.forwarded then some (toJson entry) else none }
  | forwarded {msg : String} {next : WsClient} (holds : s.forwarding = some msg)
      (put : s.client.step (.put msg) = some next) :
      Takes toJson s .forwarded { s with client := next, forwarding := none }
  | client {action : ClientAction} {next : WsClient} (own : action ≠ .close)
      (stepped : s.client.step action = some next) : Takes toJson s (.client action) { s with client := next }

theorem step_takes (taken : s.step toJson a = some t) : Takes toJson s a t := by
  cases a with
  | share state =>
    cases taken
    exact .shares state
  | log entry =>
    simp only [Trading.step] at taken
    split at taken
    · cases taken
      exact .logs entry ‹_›
    · cases taken
  | produce event =>
    simp only [Trading.step] at taken
    split at taken
    · cases taken
      exact .produces event ‹_›
    · cases taken
  | event retryUuid =>
    simp only [Trading.step] at taken
    split at taken
    · rename_i receiving queued
      cases taken
      exact .handles retryUuid receiving queued
    · cases taken
  | logged =>
    simp only [Trading.step] at taken
    split at taken
    · rename_i entry next logging
      split at taken
      · rename_i room
        cases taken
        cases next <;> exact .logged logging room
      · cases taken
    · cases taken
  | retried =>
    simp only [Trading.step] at taken
    split at taken
    · rename_i retrying
      split at taken
      · cases taken
        exact .retried retrying ‹_›
      · cases taken
    · cases taken
  | forward =>
    simp only [Trading.step] at taken
    split at taken
    · rename_i idle queued
      cases taken
      exact .forwards idle queued
    · cases taken
  | forwarded =>
    simp only [Trading.step] at taken
    split at taken
    · rename_i holds
      obtain ⟨next, put, rfl⟩ := Option.map_eq_some_iff.mp taken
      exact .forwarded holds put
    · cases taken
  | client action =>
    cases action with
    | put _ | close => cases taken
    | _ =>
      obtain ⟨next, stepped, rfl⟩ := Option.map_eq_some_iff.mp taken
      exact .client (by simp) stepped

theorem Sound.step (sound : Sound s) (taken : s.step toJson a = some t) : Sound t := by
  obtain ⟨client, logs⟩ := sound
  cases step_takes taken with
  | shares | produces | retried => exact ⟨client, logs⟩
  | logs entry room => exact ⟨client, by simpa using Nat.succ_le_of_lt room⟩
  | logged logging room => exact ⟨client, by simpa using Nat.succ_le_of_lt room⟩
  | @handles event rest retryUuid receiving queued =>
    obtain ⟨sameClient, sameLogs, -⟩ := handle_frame (s := { s with tasks := rest }) event retryUuid
    constructor
    · rw [sameClient]
      exact client
    · rw [sameLogs]
      exact logs
  | forwards idle queued =>
    rw [queued, List.length_cons] at logs
    exact ⟨client, Nat.le_of_succ_le logs⟩
  | forwarded holds put => exact ⟨client.step (by simp) put, logs⟩
  | client own stepped => exact ⟨client.step own stepped, logs⟩

end Runs

end Trading

section Deadlock

variable {toJson : MpscLogs → String} {serverName : String} {s t : Trading}

/-- The producers fill the task channel. -/
theorem fill (n : ℕ) (reached : (trading serverName toJson).Reachable s) (room : n + s.tasks.length ≤ capacity) :
    ∃ t, (trading serverName toJson).Reachable t ∧ t.tasks.length = n + s.tasks.length ∧ t.phase = s.phase ∧
      t.logs = s.logs := by
  induction n generalizing s with
  | zero => exact ⟨s, reached, (Nat.zero_add _).symm, rfl, rfl⟩
  | succ n ih =>
    have produced : (trading serverName toJson).step s (.produce .other) = some { s with tasks := s.tasks ++ [.other] } := by
      simp [trading, Trading.step, show s.tasks.length < capacity by omega]
    obtain ⟨t, reached, length, phase, logs⟩ := ih (.step reached trivial produced) (by simp; omega)
    refine ⟨t, reached, ?_, phase, logs⟩
    rw [length]
    simp
    omega

end Deadlock

/-- A transaction that is sent, and one of the chain's reports on it. -/
def reports (success : Bool) : List TradingAction :=
  [.produce (.task sent), .event "2", .logged, .produce (.task (.txConfirmation ⟨"signature", success⟩)), .event "3"]

end RndRust.Sniper
