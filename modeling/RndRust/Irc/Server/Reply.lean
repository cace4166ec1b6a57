import RndRust.Irc.Proto.Message
import RndRust.Irc.Proto.Numeric
import RndRust.Irc.Server.State

/-! What a handler does: the state it leaves and the messages it sends, in order.
The messages are built by the helpers of `numeric.rs` and by the `*_line` functions
next to each handler. -/
namespace RndRust.Irc.Server
open Lib Proto

/-- Messages in the order they are sent, each with its recipient. What happens to a
message on its way to a queue has no effect on the handler. -/
abbrev Outbox := List (UserId × Message)

/-- Whether to keep reading from the connection. -/
inductive Outcome where
  | cont
  | disconnect
  deriving DecidableEq, Repr

structure Effect where
  state : ServerState
  out : Outbox := []
  outcome : Outcome := .cont

namespace Effect

/-- Send one message and do nothing else. -/
def reply (s : ServerState) (uid : UserId) (msg : Message) : Effect := { state := s, out := [(uid, msg)] }

/-- Continue in the state an effect leaves, after what it sent. -/
def andThen (e : Effect) (next : ServerState → Effect) : Effect :=
  let later := next e.state
  { later with out := e.out ++ later.out }

/-- A loop over `xs`, each iteration in the state the one before it leaves. -/
def forEach {α : Type} (body : ServerState → α → Effect) : ServerState → List α → Effect
  | s, [] => { state := s }
  | s, x :: xs => (body s x).andThen fun s => forEach body s xs

section Rules

variable {α : Type} {body : ServerState → α → Effect} {s : ServerState} {xs : List α}

@[simp] theorem reply_state (uid : UserId) (msg : Message) : (reply s uid msg).state = s := rfl

@[simp] theorem reply_out (uid : UserId) (msg : Message) :
    (reply s uid msg).out = [(uid, msg)] := rfl

@[simp] theorem andThen_state (e : Effect) (next : ServerState → Effect) :
    (e.andThen next).state = (next e.state).state := rfl

@[simp] theorem andThen_out (e : Effect) (next : ServerState → Effect) :
    (e.andThen next).out = e.out ++ (next e.state).out := rfl

@[simp] theorem forEach_nil : forEach body s [] = { state := s } := rfl

@[simp] theorem forEach_cons {x : α} :
    forEach body s (x :: xs) = (body s x).andThen fun s => forEach body s xs := rfl

/-- What every iteration preserves the loop preserves. -/
theorem forEach_preserves (Inv : ServerState → Prop)
    (each : ∀ s, ∀ x ∈ xs, Inv s → Inv (body s x).state) (start : Inv s) :
    Inv (forEach body s xs).state := by
  induction xs generalizing s with
  | nil => exact start
  | cons x xs ih =>
    exact ih (fun s y member => each s y (List.mem_cons_of_mem _ member))
      (each s x (by simp) start)

end Rules

end Effect

/-- A row of the accounts table. -/
structure AccountRow where
  name : Bytes
  passwordHash : Bytes
  verified : Bool
  deriving DecidableEq, Repr

inductive StoreError where
  | sqlx
  | alreadyExists
  deriving DecidableEq, Repr

/-- What the system clock, the password hasher and the account store answer while
one command is handled. A command asks the store at most one question. -/
structure Outside where
  secs : ℕ := 0
  millis : ℕ := 0
  hashed : Bool := true
  created : Except StoreError Unit := .ok ()
  verified : Except StoreError Bool := .ok false
  account : Except StoreError (Option AccountRow) := .ok none
  deriving DecidableEq, Repr

/-- `Target::UNREGISTERED`. -/
def unregistered : Bytes := ascii "*"

/-- `numeric`. -/
def numeric (s : ServerState) (target : Bytes) (code : ReplyCode) (middles : List Bytes)
    (trailing : Option Bytes) : Message where
  pfx := some (.server s.config.serverName)
  verb := .numeric code.code
  params := match trailing with
    | some text => ⟨target :: middles ++ [text], true⟩
    | none => ⟨target :: middles, false⟩

/-- `numeric_text`. -/
def numericText (s : ServerState) (target : Bytes) (code : ReplyCode) (text : Bytes) : Message :=
  numeric s target code [] (some text)

/-- `numeric_one`. -/
def numericOne (s : ServerState) (target : Bytes) (code : ReplyCode) (middle text : Bytes) :
    Message :=
  numeric s target code [middle] (some text)

/-- The shape of every line a user originates: `join_line`, `part_line`,
`topic_change_line`, `message_line`, `mode_change_line`, `quit_line`. The origin is
put into the prefix as one token. -/
def userLine (origin : Bytes) (verb : Bytes) (params : Params) : Message where
  pfx := some (.user origin none none)
  verb := .word verb
  params := params

/-- A line in the server's own name. -/
def serverLine (s : ServerState) (verb : Bytes) (params : Params) : Message where
  pfx := some (.server s.config.serverName)
  verb := .word verb
  params := params

/-- An `ERROR` line. -/
def errorLine (text : Bytes) : Message where
  verb := .word (ascii "ERROR")
  params := ⟨[text], true⟩

/-- `broadcast`: to every recipient that is still live. -/
def broadcast (s : ServerState) (recipients : List UserId) (msg : Message) : Outbox :=
  (recipients.filter (· ∈ s.users)).map fun uid => (uid, msg)

/-- `ensure_registered` and `require_registered`: run the handler for a registered
user, and refuse it for any other. -/
def ensureRegistered (s : ServerState) (uid : UserId) (handler : Effect) : Effect :=
  if (s.objects uid).registered then handler
  else .reply s uid (numericText s unregistered .errNotregistered (ascii "You have not registered"))

end RndRust.Irc.Server
