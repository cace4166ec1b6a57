import RndRust.Irc.Proto.Message
import RndRust.Irc.Proto.Text

/-! The typed command surface over wire messages, `command.rs`. -/
namespace RndRust.Irc.Proto

/-- Subcommands of `CAP`. -/
inductive CapSub where
  | ls | list | req | ack | nak | new | del | done
  | other (bytes : Bytes)
  deriving DecidableEq, Repr

inductive Command where
  | cap (subcommand : CapSub) (args : List Bytes)
  | nick (nick : Bytes)
  | user (user mode realname : Bytes)
  | pass (password : Bytes)
  | authenticate (payload : Bytes)
  | quit (reason : Option Bytes)
  | ping (token : Bytes) (server : Option Bytes)
  | pong (token : Bytes) (server : Option Bytes)
  | join (channels keys : List Bytes)
  | part (channels : List Bytes) (reason : Option Bytes)
  | privmsg (targets : List Bytes) (text : Bytes)
  | notice (targets : List Bytes) (text : Bytes)
  | topic (channel : Bytes) (topic : Option Bytes)
  | mode (target : Bytes) (changes : Option Bytes) (args : List Bytes)
  | list (channels : List Bytes) (server : Option Bytes)
  | numeric (code : UInt16) (params : Params)
  | unknown (verb : Bytes) (params : Params)
  deriving DecidableEq, Repr

inductive CommandError where
  | missingParam (command : Bytes) (required got : ℕ)
  deriving DecidableEq, Repr

/-- `CapSub::parse`. Subcommands are case-insensitive; `END` is `done` here. -/
def CapSub.parse (bytes : Bytes) : CapSub :=
  let upper := toAsciiUppercase bytes
  if upper = ascii "LS" then .ls
  else if upper = ascii "LIST" then .list
  else if upper = ascii "REQ" then .req
  else if upper = ascii "ACK" then .ack
  else if upper = ascii "NAK" then .nak
  else if upper = ascii "NEW" then .new
  else if upper = ascii "DEL" then .del
  else if upper = ascii "END" then .done
  else .other bytes

/-- `split_commas`: the pieces between commas, empty ones included. -/
def splitCommas (src : Bytes) : List Bytes := src.splitOn comma

/-- `parse_one`, and the first parameter of every command that needs one. -/
def parseOne (params : Params) (name : Bytes) : Except CommandError Bytes :=
  match params.values[0]? with
  | some value => .ok value
  | none => .error (.missingParam name 1 0)

def parseCap (params : Params) : Except CommandError Command :=
  match params.values with
  | [] => .error (.missingParam (ascii "CAP") 1 0)
  | sub :: args => .ok (.cap (CapSub.parse sub) args)

def parseUser (params : Params) : Except CommandError Command :=
  match params.values with
  | user :: mode :: _ :: realname :: _ => .ok (.user user mode realname)
  | short => .error (.missingParam (ascii "USER") 4 short.length)

def parsePing (params : Params) : Except CommandError Command := do
  let token ← parseOne params (ascii "PING")
  .ok (.ping token params.values[1]?)

def parsePong (params : Params) : Except CommandError Command := do
  let token ← parseOne params (ascii "PONG")
  .ok (.pong token params.values[1]?)

def parseJoin (params : Params) : Except CommandError Command := do
  let channels ← parseOne params (ascii "JOIN")
  .ok (.join (splitCommas channels) ((params.values[1]?.map splitCommas).getD []))

def parsePart (params : Params) : Except CommandError Command := do
  let channels ← parseOne params (ascii "PART")
  .ok (.part (splitCommas channels) params.values[1]?)

def parsePrivmsg (params : Params) (notice : Bool) : Except CommandError Command :=
  match params.values with
  | targets :: text :: _ =>
    .ok (if notice then .notice (splitCommas targets) text else .privmsg (splitCommas targets) text)
  | short =>
    .error (.missingParam (if notice then ascii "NOTICE" else ascii "PRIVMSG") 2 short.length)

def parseTopic (params : Params) : Except CommandError Command := do
  let channel ← parseOne params (ascii "TOPIC")
  .ok (.topic channel params.values[1]?)

def parseMode (params : Params) : Except CommandError Command := do
  let target ← parseOne params (ascii "MODE")
  .ok (.mode target params.values[1]? (params.values.drop 2))

/-- `parse_word`. The verb is matched without regard to ASCII case and kept as it
was sent when it is unknown. -/
def parseWord (word : Bytes) (params : Params) : Except CommandError Command :=
  let upper := toAsciiUppercase word
  if upper = ascii "CAP" then parseCap params
  else if upper = ascii "NICK" then do .ok (.nick (← parseOne params (ascii "NICK")))
  else if upper = ascii "USER" then parseUser params
  else if upper = ascii "PASS" then do .ok (.pass (← parseOne params (ascii "PASS")))
  else if upper = ascii "AUTHENTICATE" then do
    .ok (.authenticate (← parseOne params (ascii "AUTHENTICATE")))
  else if upper = ascii "QUIT" then .ok (.quit params.values[0]?)
  else if upper = ascii "PING" then parsePing params
  else if upper = ascii "PONG" then parsePong params
  else if upper = ascii "JOIN" then parseJoin params
  else if upper = ascii "PART" then parsePart params
  else if upper = ascii "PRIVMSG" then parsePrivmsg params false
  else if upper = ascii "NOTICE" then parsePrivmsg params true
  else if upper = ascii "TOPIC" then parseTopic params
  else if upper = ascii "MODE" then parseMode params
  else if upper = ascii "LIST" then
    .ok (.list ((params.values[0]?.map splitCommas).getD []) params.values[1]?)
  else .ok (.unknown word params)

/-- `Command::parse`. -/
def Command.parse (msg : Message) : Except CommandError Command :=
  match msg.verb with
  | .numeric code => .ok (.numeric code msg.params)
  | .word word => parseWord word msg.params

/-- Which parameters a command holds. Further ones are ignored. -/
def Command.Takes (values : List Bytes) : Command → Prop
  | .cap subcommand args => ∃ sub, subcommand = CapSub.parse sub ∧ values = sub :: args
  | .nick value | .pass value | .authenticate value => ∃ more, values = value :: more
  | .user userName modes realname => ∃ third more, values = userName :: modes :: third :: realname :: more
  | .quit reason => reason = values[0]?
  | .ping token server | .pong token server => ∃ more, values = token :: more ∧ server = values[1]?
  | .join channels keys =>
    ∃ value more, values = value :: more ∧ channels = splitCommas value ∧
      keys = (values[1]?.map splitCommas).getD []
  | .part channels reason => ∃ value more, values = value :: more ∧ channels = splitCommas value ∧ reason = values[1]?
  | .privmsg targets text | .notice targets text =>
    ∃ value more, values = value :: text :: more ∧ targets = splitCommas value
  | .topic channel text => ∃ more, values = channel :: more ∧ text = values[1]?
  | .mode target changes args => ∃ more, values = target :: more ∧ changes = values[1]? ∧ args = values.drop 2
  | .list channels server => channels = (values[0]?.map splitCommas).getD [] ∧ server = values[1]?
  | .numeric _ params | .unknown _ params => params.values = values

section Takes

variable {word value name : Bytes} {params : Params} {command : Command}

theorem either_of_ite {α : Type} {p : Prop} [Decidable p] {a b c : α} (same : (if p then a else b) = c) :
    a = c ∨ b = c := by
  split at same
  · exact .inl same
  · exact .inr same

theorem parseOne_ok (read : parseOne params name = .ok value) : ∃ more, params.values = value :: more := by
  unfold parseOne at read
  cases values : params.values with
  | nil =>
    rw [values] at read
    cases read
  | cons first more =>
    rw [values] at read
    cases read
    exact ⟨more, rfl⟩

theorem parsed_one {make : Bytes → Command} (parsed : (do .ok (make (← parseOne params name))) = Except.ok command) :
    ∃ value more, params.values = value :: more ∧ command = make value := by
  obtain ⟨value, one, made⟩ := Lib.bind_eq_ok.mp parsed
  obtain ⟨more, values⟩ := parseOne_ok one
  exact ⟨value, more, values, (Except.ok.inj made).symm⟩

theorem parsePrivmsg_takes {notice : Bool} (parsed : parsePrivmsg params notice = .ok command) :
    command.Takes params.values := by
  unfold parsePrivmsg at parsed
  split at parsed
  · rename_i values
    cases parsed
    cases notice <;> exact ⟨_, _, values, rfl⟩
  · cases parsed

/-- The words, one after the other. -/
theorem parseWord_takes (parsed : parseWord word params = .ok command) : command.Takes params.values := by
  rcases either_of_ite parsed with cap | parsed
  · unfold parseCap at cap
    split at cap
    · cases cap
    · rename_i sub args values
      cases cap
      exact ⟨sub, rfl, values⟩
  rcases either_of_ite parsed with nick | parsed
  · obtain ⟨value, more, values, rfl⟩ := parsed_one nick
    exact ⟨more, values⟩
  rcases either_of_ite parsed with user | parsed
  · unfold parseUser at user
    split at user
    · rename_i values
      cases user
      exact ⟨_, _, values⟩
    · cases user
  rcases either_of_ite parsed with pass | parsed
  · obtain ⟨value, more, values, rfl⟩ := parsed_one pass
    exact ⟨more, values⟩
  rcases either_of_ite parsed with authenticate | parsed
  · obtain ⟨value, more, values, rfl⟩ := parsed_one authenticate
    exact ⟨more, values⟩
  rcases either_of_ite parsed with quit | parsed
  · cases quit
    rfl
  rcases either_of_ite parsed with ping | parsed
  · obtain ⟨value, more, values, rfl⟩ := parsed_one ping
    exact ⟨more, values, rfl⟩
  rcases either_of_ite parsed with pong | parsed
  · obtain ⟨value, more, values, rfl⟩ := parsed_one pong
    exact ⟨more, values, rfl⟩
  rcases either_of_ite parsed with join | parsed
  · obtain ⟨value, more, values, rfl⟩ := parsed_one join
    exact ⟨value, more, values, rfl, rfl⟩
  rcases either_of_ite parsed with part | parsed
  · obtain ⟨value, more, values, rfl⟩ := parsed_one part
    exact ⟨value, more, values, rfl, rfl⟩
  rcases either_of_ite parsed with privmsg | parsed
  · exact parsePrivmsg_takes privmsg
  rcases either_of_ite parsed with notice | parsed
  · exact parsePrivmsg_takes notice
  rcases either_of_ite parsed with topic | parsed
  · obtain ⟨value, more, values, rfl⟩ := parsed_one topic
    exact ⟨more, values, rfl⟩
  rcases either_of_ite parsed with mode | parsed
  · obtain ⟨value, more, values, rfl⟩ := parsed_one mode
    exact ⟨more, values, rfl, rfl⟩
  rcases either_of_ite parsed with list | unknown
  · cases list
    exact ⟨rfl, rfl⟩
  · cases unknown
    rfl

/-- **What a command holds it takes from the parameters.** -/
theorem parse_takes {msg : Message} (parsed : Command.parse msg = .ok command) :
    command.Takes msg.params.values := by
  unfold Command.parse at parsed
  split at parsed
  · cases parsed
    rfl
  · exact parseWord_takes parsed

def Command.isChat : Command → Bool
  | .privmsg _ _ | .notice _ _ => true
  | _ => false

/-- **A chat message that is parsed has a target.** -/
theorem parse_targets {msg : Message} (chat : command.isChat) (parsed : Command.parse msg = .ok command) :
    ∃ targets text, targets ≠ [] ∧ (command = .privmsg targets text ∨ command = .notice targets text) := by
  have takes := parse_takes parsed
  cases command with
  | privmsg targets text =>
    obtain ⟨value, more, -, rfl⟩ := takes
    exact ⟨_, text, List.splitOn_ne_nil _ _, .inl rfl⟩
  | notice targets text =>
    obtain ⟨value, more, -, rfl⟩ := takes
    exact ⟨_, text, List.splitOn_ne_nil _ _, .inr rfl⟩
  | _ => cases chat

end Takes

end RndRust.Irc.Proto
