import RndRust.Irc.Proto.Codec
import RndRust.Irc.Proto.Command

/-! The bouncer's side of a client connection up to the relay, `lib.rs` and
`downstream.rs`. The connection is read through `Framed` twice: once to find out which
upstream the client wants, and once more by `handle_downstream`. -/
namespace RndRust.Irc.Bnc
open Lib Proto

structure BncNetwork where
  name : Bytes
  nick : Bytes
  deriving DecidableEq, Repr

structure BncUser where
  name : Bytes
  password : Bytes
  networks : List BncNetwork
  deriving DecidableEq, Repr

structure AuthInfo where
  userName : Bytes
  networkName : Bytes
  deriving DecidableEq, Repr

/-- `str::split_once`. -/
def splitOnce (sep : UInt8) (s : Bytes) : Option (Bytes × Bytes) :=
  (s.findIdx? (· == sep)).map fun i => (s.take i, s.drop (i + 1))

/-- `parse_pass`: credentials in the form `user/network:password`. -/
def parsePass (pass : Bytes) (users : List BncUser) : Option (AuthInfo × ℕ) := do
  let s ← fromUtf8 pass
  let (userNetwork, password) ← splitOnce 58 s
  let (userName, networkName) ← splitOnce 47 userNetwork
  let userIdx ← users.findIdx? fun u =>
    u.name == userName && u.password == password && u.networks.any (·.name == networkName)
  some (⟨userName, networkName⟩, userIdx)

/-- The keys of `Bouncer::new`'s upstreams, and of the senders that `run` makes. -/
def upstreams (users : List BncUser) : List (Bytes × Bytes) :=
  users.flatMap fun user => user.networks.map fun network => (user.name, network.name)

/-- `Framed<TcpStream, IrcCodec>` on the receiving side: what it has read and not yet
decoded, and the reads the socket has still to give. -/
structure Framed where
  buffer : Bytes := []
  reads : List Bytes
  deriving DecidableEq, Repr

namespace Framed

/-- All bytes still to be decoded. -/
def stream (framed : Framed) : Bytes := framed.buffer ++ framed.reads.flatten

/-- Decode what is there, and read while that gives nothing. -/
def nextFrom (buffer : Bytes) : List Bytes → Option (Except CodecError Message × Framed)
  | [] =>
    match IrcCodec.new.decode buffer with
    | (.ok (some msg), buffer) => some (.ok msg, ⟨buffer, []⟩)
    | (.ok none, _) => none
    | (.error e, buffer) => some (.error e, ⟨buffer, []⟩)
  | chunk :: reads =>
    match IrcCodec.new.decode buffer with
    | (.ok (some msg), buffer) => some (.ok msg, ⟨buffer, chunk :: reads⟩)
    | (.ok none, buffer) => nextFrom (buffer ++ chunk) reads
    | (.error e, buffer) => some (.error e, ⟨buffer, chunk :: reads⟩)

/-- `framed.next()`; `none` when no further line comes. -/
def next (framed : Framed) : Option (Except CodecError Message × Framed) :=
  nextFrom framed.buffer framed.reads

theorem nextFrom_shrinks {buffer : Bytes} {reads : List Bytes} {result : Except CodecError Message}
    {framed : Framed} (taken : nextFrom buffer reads = some (result, framed)) :
    framed.stream.length < (buffer ++ reads.flatten).length := by
  induction reads generalizing buffer with
  | nil =>
    simp only [nextFrom] at taken
    have shrinks := @IrcCodec.decode_shrinks .new buffer
    split at taken
    · rename_i decoded
      cases taken
      simpa [stream, decoded] using shrinks
    · cases taken
    · rename_i decoded
      cases taken
      simpa [stream, decoded] using shrinks
  | cons chunk reads ih =>
    simp only [nextFrom] at taken
    have shrinks := @IrcCodec.decode_shrinks .new buffer
    split at taken
    · rename_i decoded
      cases taken
      simpa [stream, decoded] using shrinks
    · rename_i left decoded
      have kept := (IrcCodec.decode_none decoded).1
      have shorter := ih taken
      simp only [List.flatten_cons, List.length_append] at shorter ⊢
      omega
    · rename_i decoded
      cases taken
      simpa [stream, decoded] using shrinks

theorem next_shrinks {framed framed' : Framed} {result : Except CodecError Message}
    (taken : framed.next = some (result, framed')) : framed'.stream.length < framed.stream.length :=
  nextFrom_shrinks taken

/-- What `framed.next()` hands to `relay_loop`, which ends at the first error. -/
def handed (framed : Framed) : List (Except CodecError Message) :=
  match taken : framed.next with
  | some (.ok msg, framed') =>
    have : framed'.stream.length < framed.stream.length := next_shrinks taken
    .ok msg :: handed framed'
  | some (.error e, _) => [.error e]
  | none => []
termination_by framed.stream.length

/-- `Framed::into_inner` and `Framed::new` on the socket: the buffer is dropped. -/
def reframe (framed : Framed) : Framed := { reads := framed.reads }

end Framed

/-- What an authentication loop has collected. -/
structure Gathered where
  pass : Option Bytes := none
  gotNick : Bool := false
  gotUser : Bool := false
  deriving DecidableEq, Repr

namespace Gathered

def take (g : Gathered) (msg : Message) : Gathered :=
  match Command.parse msg with
  | .ok (.pass password) => { g with pass := some password }
  | .ok (.nick _) => { g with gotNick := true }
  | .ok (.user _ _ _) => { g with gotUser := true }
  | _ => g

def complete (g : Gathered) : Bool := g.pass.isSome && g.gotNick && g.gotUser

end Gathered

/-- The loop of `handle_new_downstream` and of `authenticate`, with `n` rounds left. -/
def gather : ℕ → Gathered → Framed → Option (Gathered × Framed)
  | 0, g, framed => some (g, framed)
  | n + 1, g, framed =>
    match framed.next with
    | some (.ok msg, framed) =>
      if (g.take msg).complete then some (g.take msg, framed) else gather n (g.take msg) framed
    | _ => none

/-- Where a connection ends up. -/
inductive Outcome where
  /-- Closed, after an `ERROR` with a reason or without one. -/
  | closed (reason : Option Bytes)
  /-- In `relay_loop`. -/
  | relaying (auth : AuthInfo) (framed : Framed)
  deriving DecidableEq, Repr

/-- `authenticate`. -/
def authenticate (framed : Framed) (users : List BncUser) : Option (AuthInfo × Framed) := do
  let (g, framed) ← gather 10 {} framed
  let pass ← g.pass
  let (info, _) ← parsePass pass users
  some (info, framed)

/-- `handle_downstream`, which only writes between the login and the relay. -/
def handleDownstream (framed : Framed) (users : List BncUser) : Outcome :=
  match authenticate framed users with
  | none => .closed (some (ascii "Authentication failed"))
  | some (auth, framed) => .relaying auth framed

/-- `handle_new_downstream`. -/
def handleNewDownstream (users : List BncUser) (reads : List Bytes) : Outcome :=
  match gather 10 {} { reads } with
  | none => .closed none
  | some (g, framed) =>
    match g.pass with
    | none => .closed (some (ascii "No PASS provided"))
    | some pass =>
      match parsePass pass users with
      | none => .closed (some (ascii "Authentication failed"))
      | some (info, _) =>
        if (info.userName, info.networkName) ∈ upstreams users then
          handleDownstream framed.reframe users
        else .closed (some (ascii "Unknown network"))

end RndRust.Irc.Bnc
