import RndRust.Irc.Proto.Command
import RndRust.Irc.Proto.Message
import RndRust.Lib.Table

/-! `event.rs`: what a session tells the frontend. -/
namespace RndRust.Irc.Client
open Lib Proto

/-- An event, with the number of the network it is from. -/
inductive ClientEvent where
  | connected (network : ℕ)
  | disconnected (network : ℕ) (reason : Bytes)
  | registered (network : ℕ) (nick : Bytes)
  | message (network : ℕ) (target : Bytes) (from_ : Bytes) (text : Bytes)
  | notice (network : ℕ) (target : Bytes) (from_ : Bytes) (text : Bytes)
  | join (network : ℕ) (channel : Bytes) (nick : Bytes)
  | part (network : ℕ) (channel : Bytes) (nick : Bytes) (reason : Option Bytes)
  | nickChange (network : ℕ) (old : Bytes) (newNick : Bytes)
  | topicChange (network : ℕ) (channel : Bytes) (topic : Bytes)
  | quit (network : ℕ) (nick : Bytes) (reason : Option Bytes)
  | numeric (network : ℕ) (code : ℕ) (params : List Bytes)
  | error (network : ℕ) (message : Bytes)
  | listEntry (network : ℕ) (channel : Bytes) (userCount : ℕ) (topic : Bytes)
  | listEnd (network : ℕ)
  deriving DecidableEq

def ClientEvent.network : ClientEvent → ℕ
  | .connected network | .disconnected network _ | .registered network _ | .message network _ _ _
  | .notice network _ _ _ | .join network _ _ | .part network _ _ _ | .nickChange network _ _
  | .topicChange network _ _ | .quit network _ _ | .numeric network _ _ | .error network _
  | .listEntry network _ _ _ | .listEnd network => network

end RndRust.Irc.Client

/-! What a session knows of its network, `state.rs`, and how it tells the frontend of a message,
`translate_message` of `network.rs`. -/
namespace RndRust.Irc.Client
open Lib Proto

structure ChannelState where
  name : Bytes
  topic : Option Bytes := none
  nicks : List Bytes := []

structure NetworkState where
  nick : Option Bytes := none
  /-- Keyed by name, to the byte. -/
  channels : Table Bytes ChannelState := ∅
  serverName : Option Bytes := none

def extractNick : Option Prefix → Bytes
  | some (.user nick _ _) => nick
  | some (.server name) => name
  | none => []

/-- The bytes a nick may start with in a reply to `NAMES`, after its mode prefixes. -/
def startsNick (b : UInt8) : Bool := isAsciiAlphabetic b || isAsciiDigit b || (ascii "[]\\^{}|_-`").contains b

def stripNickPrefix (nick : Bytes) : Bytes := nick.drop ((nick.findIdx? startsNick).getD 0)

/-- The nicks of a reply to `NAMES`. -/
def namreplyNicks (raw : Bytes) : List Bytes := ((raw.splitOn sp).filter (· ≠ [])).map stripNickPrefix

namespace ChannelState

def addNick (state : ChannelState) (nick : Bytes) : ChannelState :=
  if state.nicks.contains nick then state else { state with nicks := state.nicks ++ [nick] }

def removeNick (state : ChannelState) (nick : Bytes) : ChannelState :=
  { state with nicks := state.nicks.filter (· ≠ nick) }

def renameNick (state : ChannelState) (old new : Bytes) : ChannelState :=
  { state with nicks := state.nicks.map fun n => if n = old then new else n }

end ChannelState

namespace NetworkState

def isMe (s : NetworkState) (nick : Bytes) : Bool := s.nick = some nick

/-- Change a channel that is there. -/
def updateChannel (s : NetworkState) (channel : Bytes) (f : ChannelState → ChannelState) : NetworkState :=
  match s.channels.lookup channel with
  | some state => { s with channels := s.channels.insert channel (f state) }
  | none => s

def joinChannel (nick : Bytes) (isSelf : Bool) (s : NetworkState) (channel : Bytes) : NetworkState :=
  let s :=
    if isSelf ∧ s.channels.lookup channel = none then
      { s with channels := s.channels.insert channel { name := channel } }
    else s
  s.updateChannel channel (·.addNick nick)

def applyJoin (s : NetworkState) (nick : Bytes) (channels : List Bytes) : NetworkState :=
  channels.foldl (joinChannel nick (s.isMe nick)) s

def partChannel (nick : Bytes) (isSelf : Bool) (s : NetworkState) (channel : Bytes) : NetworkState :=
  if isSelf then { s with channels := s.channels.erase channel }
  else s.updateChannel channel (·.removeNick nick)

def applyPart (s : NetworkState) (nick : Bytes) (channels : List Bytes) : NetworkState :=
  channels.foldl (partChannel nick (s.isMe nick)) s

def applyNick (s : NetworkState) (old new : Bytes) : NetworkState :=
  { s with
    nick := if s.isMe old then some new else s.nick
    channels := s.channels.mapValues fun _ state => state.renameNick old new }

def applyTopic (s : NetworkState) (channel : Bytes) (topic : Option Bytes) : NetworkState :=
  s.updateChannel channel fun state => { state with topic }

def applyQuit (s : NetworkState) (nick : Bytes) : NetworkState :=
  if s.isMe nick then { s with channels := ∅ }
  else { s with channels := s.channels.mapValues fun _ state => state.removeNick nick }

def applyWelcome (s : NetworkState) (pfx : Option Prefix) (params : List Bytes) : NetworkState :=
  { s with
    nick := match params[0]? with
      | some nick => some nick
      | none => s.nick
    serverName := match pfx with
      | some (.server name) => some name
      | _ => s.serverName }

def applyRplTopic (s : NetworkState) (params : List Bytes) : NetworkState :=
  match params[1]?, params[2]? with
  | some channel, some topic => s.updateChannel channel fun state => { state with topic := some topic }
  | _, _ => s

def applyRplNamreply (s : NetworkState) (params : List Bytes) : NetworkState :=
  match params[2]?, params[3]? with
  | some channel, some raw => s.updateChannel channel fun state => (namreplyNicks raw).foldl ChannelState.addNick state
  | _, _ => s

/-- `apply` of a command, and whether it concerns the state. -/
def applyCommand (s : NetworkState) (pfx : Option Prefix) : Command → NetworkState × Bool
  | .join channels _ => (s.applyJoin (extractNick pfx) channels, true)
  | .part channels _ => (s.applyPart (extractNick pfx) channels, true)
  | .nick new => (s.applyNick (extractNick pfx) new, true)
  | .topic channel topic => (s.applyTopic channel topic, true)
  | .quit _ => (s.applyQuit (extractNick pfx), true)
  | .numeric code params =>
    if code = 1 then (s.applyWelcome pfx params.values, true)
    else if code = 332 then (s.applyRplTopic params.values, true)
    else if code = 353 then (s.applyRplNamreply params.values, true)
    else (s, false)
  | _ => (s, false)

def apply (s : NetworkState) (msg : Message) : NetworkState × Bool :=
  match Command.parse msg with
  | .ok cmd => s.applyCommand msg.pfx cmd
  | .error _ => (s, false)

end NetworkState

/-- The event of a reply with a number. -/
def translateNumeric (id : ℕ) (code : UInt16) (params : List Bytes) : ClientEvent :=
  if code = 1 then .registered id (params[0]?.getD [])
  else if code = 322 then
    .listEntry id (params[1]?.getD []) (((params[2]?.bind fromUtf8).bind (parseUnsigned 4294967296)).getD 0)
      (params[3]?.getD [])
  else if code = 323 then .listEnd id
  else .numeric id code.toNat params

/-- `translate_message` of a command. -/
def translateCommand (id : ℕ) (pfx : Option Prefix) : Command → Option ClientEvent
  | .privmsg targets text => targets.head?.map fun target => .message id target (extractNick pfx) text
  | .notice targets text => targets.head?.map fun target => .notice id target (extractNick pfx) text
  | .join channels _ => channels.head?.map fun channel => .join id channel (extractNick pfx)
  | .part channels reason => channels.head?.map fun channel => .part id channel (extractNick pfx) reason
  | .nick new => some (.nickChange id (extractNick pfx) new)
  | .topic channel (some topic) => some (.topicChange id channel topic)
  | .quit reason => some (.quit id (extractNick pfx) reason)
  | .numeric code params => some (translateNumeric id code params.values)
  | _ => none

def translateMessage (id : ℕ) (msg : Message) : Option ClientEvent :=
  match Command.parse msg with
  | .ok cmd => translateCommand id msg.pfx cmd
  | .error _ => none

end RndRust.Irc.Client
