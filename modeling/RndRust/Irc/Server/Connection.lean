import RndRust.Irc.Proto.Framing
import RndRust.Irc.Server.Dispatch
import RndRust.Lib.Runs

/-! The per-connection driver, `connection.rs`. Each connection has a read task and
a write task; the handlers run whole, one at a time, and the queues, the write
tasks and the end of a connection move in between. -/
namespace RndRust.Irc.Server
open Lib Proto

/-- `OUTBOUND_QUEUE`. -/
def outboundQueue : ℕ := 256

/-- Where the read task of a connection stands. -/
inductive Phase where
  /-- In its read loop, holding a reference to the user. -/
  | reading
  /-- Past the read loop: the reference is dropped, the write task is awaited. -/
  | awaitingWriter
  | closed
  deriving DecidableEq, Repr

structure Conn where
  phase : Phase := .reading
  /-- Whether `write_loop` still runs. -/
  writing : Bool := true
  /-- What `write_loop` has yet to receive. -/
  queue : List Message := []
  deriving DecidableEq, Repr

/-- `User::send`: a full or closed queue drops the message. -/
def Conn.push (conn : Conn) (msg : Message) : Conn :=
  if conn.writing ∧ conn.queue.length < outboundQueue then
    { conn with queue := conn.queue ++ [msg] }
  else conn

/-- The server with its connections. -/
structure Daemon where
  state : ServerState
  conns : UserId → Option Conn := fun _ => none

namespace Daemon

/-- Change one connection. -/
def modifyConn (srv : Daemon) (uid : UserId) (f : Conn → Conn) : Daemon :=
  { srv with conns := Function.update srv.conns uid ((srv.conns uid).map f) }

/-- Send the messages of an outbox in order. -/
def sendAll (srv : Daemon) (out : Outbox) : Daemon :=
  out.foldl (fun srv (uid, msg) => srv.modifyConn uid (·.push msg)) srv

/-- Take over the state an effect leaves and send its messages. -/
def apply (srv : Daemon) (e : Effect) : Daemon := { srv with state := e.state }.sendAll e.out

/-- A queue is open while somebody holds its sender: the read task, or the users
map. -/
def senderAlive (srv : Daemon) (uid : UserId) : Bool :=
  (srv.conns uid).any (·.phase = .reading) || uid ∈ srv.state.users

/-- The read loop of `uid` returns. -/
def stopReading (srv : Daemon) (uid : UserId) : Daemon :=
  srv.modifyConn uid fun conn => { conn with phase := .awaitingWriter }

/-- The write task of `uid` returns, and its queue is gone. -/
def stopWriting (srv : Daemon) (uid : UserId) : Daemon :=
  srv.modifyConn uid fun conn => { conn with writing := false, queue := [] }

end Daemon

/-- Whether `IrcCodec::encode` takes a message. -/
def encodes (msg : Message) : Bool := (IrcCodec.new.encode msg []).1.toBool

/-- `cleanup`. -/
def cleanup (s : ServerState) (uid : UserId) : Effect :=
  match s.user uid with
  | none => { state := s }
  | some user =>
    let purged := s.purgeUserFromChannels uid
    let quit := quitLine user.originPrefix (ascii "Connection closed")
    let offline := match user.nick with
      | some nick => notifyOffline purged nick
      | none => []
    { state := purged.removeUser uid
      out := broadcast purged (s.channelPeers uid) quit ++ offline }

/-- `run` up to the read loop: the user is inserted, and a banned host is told so
and goes no further. -/
def acceptUser (s : ServerState) (host : Bytes) (out : Outside) : Effect :=
  let uid := s.nextUserId
  let s := { s.insertUser uid { host } with nextUserId := uid + 1 }
  match s.isKlined out.secs host with
  | some kline =>
    { state := s
      out := [(uid, errorLine (ascii "Closing Link: You are banned (" ++ kline.reason ++ ascii ")"))]
      outcome := .disconnect }
  | none => { state := s }

/-- `process_message`. Whether the token bucket of a registered connection is empty
is up to the clock. -/
def processMessage (s : ServerState) (uid : UserId) (flooded : Bool) (out : Outside)
    (msg : Message) : Effect :=
  if (s.objects uid).registered ∧ flooded then
    { state := s, out := [(uid, errorLine (ascii "Flooding"))], outcome := .disconnect }
  else dispatch s uid out msg

inductive Action where
  | accept (host : Bytes) (out : Outside)
  /-- A line, without its `\n`, reaches the read task of `uid`. -/
  | receive (uid : UserId) (line : Bytes) (flooded : Bool) (out : Outside)
  /-- End of stream, a read error, an overlong line, or the registration deadline. -/
  | readEnds (uid : UserId)
  /-- The write task takes the next message, encodes it and writes it. -/
  | write (uid : UserId)
  /-- Writing to the socket fails. -/
  | writeFails (uid : UserId)
  /-- The write task finds its queue empty and closed. -/
  | writerStops (uid : UserId)
  /-- The read task sees the write task end and cleans up. -/
  | cleanup (uid : UserId)
  deriving DecidableEq, Repr

namespace Daemon

/-- The effect of a handler of `uid` on the server, its outcome included. -/
def handled (srv : Daemon) (uid : UserId) (e : Effect) : Daemon :=
  match e.outcome with
  | .cont => srv.apply e
  | .disconnect => (srv.apply e).stopReading uid

def step (srv : Daemon) : Action → Option Daemon
  | .accept host out =>
    let uid := srv.state.nextUserId
    some ({ srv with conns := Function.update srv.conns uid (some {}) }.handled uid
      (acceptUser srv.state host out))
  | .receive uid line flooded out =>
    if (srv.conns uid).any (·.phase = .reading) then
      match IrcCodec.new.readLine line with
      | [] => some srv
      | .ok msg :: _ => some (srv.handled uid (processMessage srv.state uid flooded out msg))
      | .error _ :: _ => some (srv.stopReading uid)
    else none
  | .readEnds uid =>
    if (srv.conns uid).any (·.phase = .reading) then some (srv.stopReading uid) else none
  | .write uid =>
    match srv.conns uid with
    | some { writing := true, queue := msg :: rest, .. } =>
      if encodes msg then some (srv.modifyConn uid fun conn => { conn with queue := rest })
      else some (srv.stopWriting uid)
    | _ => none
  | .writeFails uid =>
    if (srv.conns uid).any (·.writing) then some (srv.stopWriting uid) else none
  | .writerStops uid =>
    if (srv.conns uid).any (fun conn => conn.writing ∧ conn.queue = []) ∧ !srv.senderAlive uid then
      some (srv.stopWriting uid)
    else none
  | .cleanup uid =>
    if (srv.conns uid).any fun conn => conn.phase = .awaitingWriter ∧ !conn.writing then
      some ((srv.apply (Server.cleanup srv.state uid)).modifyConn uid fun conn =>
        { conn with phase := .closed })
    else none

end Daemon

/-- A server that has just started. -/
def server (config : Config) (crates : Crates) : Machine Daemon Action where
  initial := { state := { config, crates, objects := fun _ => { host := [] } } }
  step := Daemon.step

/-! A small server, for runs on fixed inputs. -/

def exampleConfig : Config where
  serverName := ascii "irc.example.org"
  networkName := ascii "ExampleNet"
  opers := [⟨ascii "root", [], none, [], ascii "netadmin"⟩]
  operClasses := [(ascii "netadmin", [.kill])]

def exampleCrates : Crates where
  hmac _ := []
  verifyPassword _ _ := true
  decodeBase64 _ := none

def exampleServer : Machine Daemon Action := server exampleConfig exampleCrates

/-- `uid` sends a line. -/
def sends (uid : UserId) (line : String) : Action := .receive uid (ascii line) false {}

/-- The next connection registers under a nickname, as the user `uid`. -/
def registers (uid : UserId) (nick : String) : List Action :=
  [.accept (ascii "127.0.0.1") {}, sends uid ("NICK " ++ nick), sends uid "USER u 0 * :r"]

end RndRust.Irc.Server
