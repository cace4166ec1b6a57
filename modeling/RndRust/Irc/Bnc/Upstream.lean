import RndRust.Irc.Bnc.Downstream
import RndRust.Lib.Runs
import RndRust.Lib.Table

/-! An upstream of the bouncer and a client of it: `upstream.rs`, `buffer.rs`, and the
replay and the relay of `downstream.rs`. The reader of the upstream and the task of the
client share the state under its lock and the broadcast channel. -/
namespace RndRust.Irc.Bnc
open Lib Proto

/-- `DEFAULT_MAX`. -/
def defaultMax : ℕ := 5000

/-- A message of the upstream, told apart by its place in the stream. -/
structure Incoming where
  id : ℕ
  msg : Message
  deriving DecidableEq, Repr

structure MessageBuffer (cap : ℕ) where
  entries : List (Bytes × Incoming) := []
  bounded : entries.length ≤ max cap 1 := by simp

namespace MessageBuffer

variable {cap : ℕ}

/-- `MessageBuffer::push`: the oldest entry goes when there is no room. -/
def push (buf : MessageBuffer cap) (timestamp : Bytes) (message : Incoming) : MessageBuffer cap where
  entries := (if buf.entries.length ≥ cap then buf.entries.tail else buf.entries) ++ [(timestamp, message)]
  bounded := by
    have bounded := buf.bounded
    split
    · simp only [List.length_append, List.length_tail, List.length_singleton]
      omega
    · simp only [List.length_append, List.length_singleton]
      omega

/-- `MessageBuffer::last_n`. -/
def lastN (buf : MessageBuffer cap) (n : ℕ) : List (Bytes × Incoming) :=
  buf.entries.drop (buf.entries.length - n)

end MessageBuffer

/-- The buffers by target. -/
abbrev Buffers := Table Bytes (MessageBuffer defaultMax)

structure UpstreamState where
  joinedChannels : List Bytes := []
  buffers : Buffers := ∅
  registered : Bool := false
  nick : Bytes

/-- `entry(target).or_default()`. -/
def Buffers.at (buffers : Buffers) (target : Bytes) : MessageBuffer defaultMax :=
  (buffers.lookup target).getD {}

/-- `buffer_message`. -/
def bufferMessage (now : Bytes) (m : Incoming) : Buffers → List Bytes → Buffers
  | buffers, [] => buffers
  | buffers, target :: targets =>
    bufferMessage now m (AList.insert target ((Buffers.at buffers target).push now m) buffers) targets

/-- What `process_incoming` does before it sends the message to the broadcast channel,
and whether it does. -/
def processIncoming (state : UpstreamState) (now : Bytes) (m : Incoming) : UpstreamState × Bool :=
  match Command.parse m.msg with
  | .error _ => (state, true)
  | .ok (.ping _ _) => (state, false)
  | .ok (.numeric code _) => (if code = 1 then { state with registered := true } else state, true)
  | .ok (.privmsg targets _) | .ok (.notice targets _) =>
    ({ state with buffers := bufferMessage now m state.buffers targets }, true)
  | .ok (.join channels _) =>
    ({ state with joinedChannels := state.joinedChannels ∪ channels }, true)
  | .ok (.part channels _) =>
    ({ state with joinedChannels := state.joinedChannels.filter (· ∉ channels) }, true)
  | .ok _ => (state, true)

/-- A message on its way to the client, with the upstream message it stems from. -/
structure Outgoing where
  source : Option ℕ := none
  msg : Message
  deriving DecidableEq, Repr

/-- A buffered message with its `time` tag. -/
def replayOf (timestamp : Bytes) (msg : Message) : Message :=
  { msg with tags := msg.tags ++ [⟨⟨false, ascii "time"⟩, some timestamp⟩] }

/-- `join_msgs` of `send_join_and_replay`. -/
def joinMessages (state : UpstreamState) : List Outgoing :=
  state.joinedChannels.map fun ch =>
    { msg := { pfx := some (.user state.nick none none), verb := .word (ascii "JOIN"), params := { values := [ch] } } }

/-- `replay_msgs` of `send_join_and_replay`. -/
def replayMessages (state : UpstreamState) : List Outgoing :=
  state.buffers.values.flatMap fun buf =>
    (buf.lastN 500).map fun (timestamp, m) => { source := some m.id, msg := replayOf timestamp m.msg }

/-- Whether the encoder of the connection takes a message. -/
def encodable (msg : Message) : Bool := (IrcCodec.new.encode msg []).1 = .ok ()

/-- The task of a client. -/
inductive Client where
  | away
  /-- Authenticated and welcomed. -/
  | welcomed
  /-- Past the lock, with the messages still to send. -/
  | replaying (rest : List Outgoing)
  /-- In the relay loop, with what its receiver holds. -/
  | relaying (queue : List Incoming)
  | gone
  deriving DecidableEq, Repr

/-- How far a client has come with reading the state and the channel. -/
inductive Stage where
  | early
  | snapshotted
  | subscribed
  deriving DecidableEq, Repr

def Client.stage : Client → Stage
  | .away | .welcomed => .early
  | .replaying _ => .snapshotted
  | .relaying _ | .gone => .subscribed

/-- A message that was processed: when it was, and how far the client had come then. -/
structure Traffic where
  msg : Message
  timestamp : Bytes
  stage : Stage
  deriving DecidableEq, Repr

structure Bouncer where
  state : UpstreamState
  /-- The reader is about to send this to the channel. -/
  pending : Option Incoming := none
  client : Client := .away
  /-- What the client has been sent. -/
  sent : List Outgoing := []
  processed : List Traffic := []
  /-- Which messages went to the channel, and how far the client had come then. -/
  broadcasts : List (ℕ × Stage) := []

inductive Action where
  /-- `process_incoming` up to the channel. -/
  | receive (msg : Message) (now : Bytes)
  /-- `tx.send`. -/
  | broadcast
  | authenticate
  /-- The locked part of `send_join_and_replay`. -/
  | snapshot
  /-- One `framed.send` after it, whose result is ignored. -/
  | replay
  | subscribe
  /-- One message of the channel; the loop ends when it cannot be sent. -/
  | relay
  deriving DecidableEq, Repr

def Bouncer.step (s : Bouncer) : Action → Option Bouncer
  | .receive msg now =>
    match s.pending with
    | some _ => none
    | none =>
      let m : Incoming := ⟨s.processed.length, msg⟩
      let (state, forwards) := processIncoming s.state now m
      some { s with
        state
        pending := if forwards then some m else none
        processed := s.processed ++ [⟨msg, now, s.client.stage⟩] }
  | .broadcast =>
    match s.pending with
    | none => none
    | some m =>
      some { s with
        pending := none
        client := match s.client with
          | .relaying queue => .relaying (queue ++ [m])
          | client => client
        broadcasts := s.broadcasts ++ [(m.id, s.client.stage)] }
  | .authenticate =>
    match s.client with
    | .away => some { s with client := .welcomed }
    | _ => none
  | .snapshot =>
    match s.client with
    | .welcomed => some { s with client := .replaying (joinMessages s.state ++ replayMessages s.state) }
    | _ => none
  | .replay =>
    match s.client with
    | .replaying (out :: rest) =>
      some { s with
        client := .replaying rest
        sent := if encodable out.msg then s.sent ++ [out] else s.sent }
    | _ => none
  | .subscribe =>
    match s.client with
    | .replaying [] => some { s with client := .relaying [] }
    | _ => none
  | .relay =>
    match s.client with
    | .relaying (m :: queue) =>
      if encodable m.msg then
        some { s with client := .relaying queue, sent := s.sent ++ [{ source := some m.id, msg := m.msg }] }
      else some { s with client := .gone }
    | _ => none

/-- An upstream that has not received anything, and its client before it logs in. -/
def bouncer (nick : Bytes) : Machine Bouncer Action where
  initial := { state := { nick } }
  step := Bouncer.step

end RndRust.Irc.Bnc
