import Mathlib.Data.Nat.Notation
import RndRust.Lib.Runs
import RndRust.Lib.Updates

/-! `WsClient::connect`. Each connection gets a write task with a channel of its own, a task
that pings, and a task that forwards the client channel. None of them is ever ended from
outside, and the forwarders share the receiver of the client channel through a lock. -/
namespace RndRust.Sniper
open Lib

/-- The capacity of every channel. -/
def capacity : ℕ := 1000

/-- The task that forwards the client channel to one connection. -/
inductive Forwarder where
  /-- It waits for the lock of the receiver. -/
  | locking
  /-- It holds the lock, from here on. -/
  | receiving
  /-- It has taken a message, while the connection `live` was up, and waits for room. -/
  | sending (msg : String) (live : Option ℕ)
  /-- The client channel is closed. -/
  | ended
  deriving DecidableEq

def Forwarder.holdsLock : Forwarder → Bool
  | receiving | sending _ _ => true
  | locking | ended => false

/-- The tasks of a connection. -/
structure Connection where
  /-- Whether the write task runs. -/
  writing : Bool := true
  /-- What the write task has yet to receive. -/
  queue : List String := []
  forwarder : Forwarder := .locking
  /-- The messages of the client channel that were put into the channel of the write task, each
  with the connection that was up when it was taken. -/
  passed : List (String × Option ℕ) := []
  deriving DecidableEq

/-- Where `connect` stands. -/
inductive ConnectPhase where
  | connecting
  | reading (conn : ℕ)
  | sleeping
  deriving DecidableEq

structure WsClient where
  phase : ConnectPhase := .connecting
  client : List String := []
  /-- Whether all senders of the client channel are gone. -/
  closed : Bool := false
  conns : List Connection := []
  /-- What was taken out of the client channel, each with the connection that was up. -/
  taken : List (String × Option ℕ) := []
  deriving DecidableEq

inductive ClientAction where
  /-- A message is put into the client channel. -/
  | put (msg : String)
  | close
  | connect
  | connectFails
  /-- The read loop ends, with the stream or with an error. -/
  | readEnds
  /-- The time to wait before the next try is over. -/
  | wake
  | ping (conn : ℕ)
  | pong
  | lock (conn : ℕ)
  | recv (conn : ℕ)
  | send (conn : ℕ)
  | write (conn : ℕ)
  | writeFails (conn : ℕ)
  deriving DecidableEq

namespace WsClient

variable (s : WsClient)

/-- The connection that is up. -/
def live : Option ℕ :=
  match s.phase with
  | .reading conn => some conn
  | _ => none

def setConn (i : ℕ) (conn : Connection) : WsClient := { s with conns := s.conns.set i conn }

/-- The lock of the receiver is held. -/
def locked : Bool := s.conns.any (·.forwarder.holdsLock)

/-- A text for the write task of a connection, when there is room. -/
def enqueue (i : ℕ) (text : String) : Option WsClient :=
  match s.conns[i]? with
  | some conn =>
    if conn.writing ∧ conn.queue.length < capacity then
      some (s.setConn i { conn with queue := conn.queue ++ [text] })
    else none
  | none => none

/-- `rx.recv`. -/
def recv (i : ℕ) (conn : Connection) : Option WsClient :=
  match s.client with
  | msg :: rest =>
    some { s.setConn i { conn with forwarder := .sending msg s.live } with
      client := rest
      taken := s.taken ++ [(msg, s.live)] }
  | [] => if s.closed then some (s.setConn i { conn with forwarder := .ended }) else none

/-- `tx_task2.send`: an error, when the write task has ended, is not looked at. -/
def send (i : ℕ) (conn : Connection) (msg : String) (live : Option ℕ) : Option WsClient :=
  if conn.writing then
    if conn.queue.length < capacity then
      some (s.setConn i { conn with
        queue := conn.queue ++ [msg]
        passed := conn.passed ++ [(msg, live)]
        forwarder := .receiving })
    else none
  else some (s.setConn i { conn with forwarder := .receiving })

def step : ClientAction → Option WsClient
  | .put msg =>
    if !s.closed ∧ s.client.length < capacity then some { s with client := s.client ++ [msg] } else none
  | .close => some { s with closed := true }
  | .connect =>
    if s.phase = .connecting then
      some { s with phase := .reading s.conns.length, conns := s.conns ++ [{}] }
    else none
  | .connectFails => if s.phase = .connecting then some { s with phase := .sleeping } else none
  | .readEnds => if s.live.isSome then some { s with phase := .sleeping } else none
  | .wake => if s.phase = .sleeping then some { s with phase := .connecting } else none
  | .ping i => s.enqueue i "PING"
  | .pong => s.live.bind fun i => s.enqueue i "PONG"
  | .lock i =>
    match s.conns[i]? with
    | some conn =>
      if conn.forwarder = .locking ∧ !s.locked then some (s.setConn i { conn with forwarder := .receiving })
      else none
    | none => none
  | .recv i =>
    match s.conns[i]? with
    | some conn => if conn.forwarder = .receiving then s.recv i conn else none
    | none => none
  | .send i =>
    match s.conns[i]? with
    | some conn =>
      match conn.forwarder with
      | .sending msg live => s.send i conn msg live
      | _ => none
    | none => none
  | .write i =>
    match s.conns[i]? with
    | some { writing := true, queue := _ :: rest, forwarder, passed } =>
      some (s.setConn i { writing := true, queue := rest, forwarder, passed })
    | _ => none
  | .writeFails i =>
    match s.conns[i]? with
    | some { writing := true, queue := _ :: _, forwarder, passed } =>
      some (s.setConn i { writing := false, queue := [], forwarder, passed })
    | _ => none

end WsClient

def wsClient : Machine WsClient ClientAction where
  initial := {}
  step := WsClient.step

namespace WsClient

/-- Every step, with what it needs and where it leads. -/
inductive Takes (s : WsClient) : ClientAction → WsClient → Prop
  | puts (msg : String) (room : s.client.length < capacity) : Takes s (.put msg) { s with client := s.client ++ [msg] }
  | closes : Takes s .close { s with closed := true }
  | connects : Takes s .connect { s with phase := .reading s.conns.length, conns := s.conns ++ [{}] }
  | fails : Takes s .connectFails { s with phase := .sleeping }
  | ends : Takes s .readEnds { s with phase := .sleeping }
  | wakes : Takes s .wake { s with phase := .connecting }
  | pings {i : ℕ} {t : WsClient} (queued : s.enqueue i "PING" = some t) : Takes s (.ping i) t
  | pongs {i : ℕ} {t : WsClient} (queued : s.enqueue i "PONG" = some t) : Takes s .pong t
  | locks {i : ℕ} {conn : Connection} (known : s.conns[i]? = some conn) (locking : conn.forwarder = .locking) :
      Takes s (.lock i) (s.setConn i { conn with forwarder := .receiving })
  | receives {i : ℕ} {conn : Connection} {t : WsClient} (known : s.conns[i]? = some conn)
      (receiving : conn.forwarder = .receiving) (took : s.recv i conn = some t) : Takes s (.recv i) t
  | sends {i : ℕ} {conn : Connection} {msg : String} {live : Option ℕ} {t : WsClient} (known : s.conns[i]? = some conn)
      (sending : conn.forwarder = .sending msg live) (sent : s.send i conn msg live = some t) : Takes s (.send i) t
  | writes {i : ℕ} {conn : Connection} {text : String} {rest : List String} (known : s.conns[i]? = some conn)
      (queued : conn.queue = text :: rest) : Takes s (.write i) (s.setConn i { conn with queue := rest })
  | breaks {i : ℕ} {conn : Connection} (known : s.conns[i]? = some conn) :
      Takes s (.writeFails i) (s.setConn i { conn with writing := false, queue := [] })

variable {s t : WsClient} {a : ClientAction} {i : ℕ} {conn old new : Connection}

theorem step_takes (taken : s.step a = some t) : s.Takes a t := by
  cases a with
  | put msg =>
    simp only [step] at taken
    split at taken
    · rename_i room
      cases taken
      exact .puts msg room.2
    · cases taken
  | close =>
    cases taken
    exact .closes
  | connect | connectFails | readEnds | wake =>
    simp only [step] at taken
    split at taken
    · cases taken
      constructor
    · cases taken
  | ping i => exact .pings taken
  | pong =>
    obtain ⟨i, -, queued⟩ := Option.bind_eq_some_iff.mp taken
    exact .pongs queued
  | lock i =>
    simp only [step] at taken
    split at taken
    · rename_i conn known
      split at taken
      · rename_i locking
        cases taken
        exact .locks known locking.1
      · cases taken
    · cases taken
  | recv i =>
    simp only [step] at taken
    split at taken
    · rename_i conn known
      split at taken
      · exact .receives known ‹_› taken
      · cases taken
    · cases taken
  | send i =>
    simp only [step] at taken
    split at taken
    · rename_i conn known
      split at taken
      · exact .sends known ‹_› taken
      · cases taken
    · cases taken
  | write i =>
    simp only [step] at taken
    split at taken
    · rename_i known
      cases taken
      exact .writes known rfl
    · cases taken
  | writeFails i =>
    simp only [step] at taken
    split at taken
    · rename_i known
      cases taken
      exact .breaks known
    · cases taken

theorem setConn_self (known : s.conns[i]? = some conn) : s.setConn i conn = s := by
  obtain ⟨inside, rfl⟩ := List.getElem?_eq_some_iff.mp known
  simp [setConn]

variable (new) in
theorem setConn_same (known : s.conns[i]? = some old) : (s.setConn i new).conns[i]? = some new := by
  obtain ⟨inside, -⟩ := List.getElem?_eq_some_iff.mp known
  simp [setConn, inside]

theorem write_step {text : String} {rest : List String} (known : s.conns[i]? = some conn) (writing : conn.writing)
    (queued : conn.queue = text :: rest) : s.step (.write i) = some (s.setConn i { conn with queue := rest }) := by
  obtain ⟨_, _, forwarder, passed⟩ := conn
  cases writing
  cases queued
  simp [step, known]

theorem send_step {msg : String} {live : Option ℕ} (known : s.conns[i]? = some conn)
    (sending : conn.forwarder = .sending msg live) (writing : conn.writing) (room : conn.queue.length < capacity) :
    s.step (.send i) = some (s.setConn i { conn with
      queue := conn.queue ++ [msg], passed := conn.passed ++ [(msg, live)], forwarder := .receiving }) := by
  simp [step, known, sending, send, writing, room]

/-- A write task that runs gets to a queue with room. -/
theorem makes_room (known : s.conns[i]? = some conn) (writing : conn.writing) :
    ∃ n queue, queue.length < capacity ∧
      wsClient.run s (List.replicate n (.write i)) = some (s.setConn i { conn with queue }) := by
  by_cases room : conn.queue.length < capacity
  · exact ⟨0, conn.queue, room, congrArg some (setConn_self known).symm⟩
  induction queued : conn.queue generalizing s conn with
  | nil => exact (room (by simp [queued, capacity])).elim
  | cons text rest ih =>
    have wrote := write_step known writing queued
    by_cases room : rest.length < capacity
    · exact ⟨1, rest, room, by simp [wsClient, wrote]⟩
    · have after := setConn_same { conn with queue := rest } known
      obtain ⟨n, queue, room, ran⟩ := ih after writing room rfl
      refine ⟨n + 1, queue, room, ?_⟩
      rw [List.replicate_succ, Machine.run_cons]
      simpa [wsClient, wrote, setConn] using ran

end WsClient

end RndRust.Sniper
