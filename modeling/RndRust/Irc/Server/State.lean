import RndRust.Irc.Proto.Casemap
import RndRust.Irc.Server.User
import RndRust.Lib.Table

/-! Shared server state, `state/mod.rs` and `state/channel.rs`: the registries of
users, nicknames and channels, and the operations on them run without
interference. -/
namespace RndRust.Irc.Server
open Lib Proto

/-- Per-member metadata within a channel. -/
structure MemberMode where
  op : Bool := false
  voice : Bool := false
  deriving DecidableEq, Repr

/-- `MemberMode::prefix_byte`: op wins over voice. -/
def MemberMode.prefixByte (mode : MemberMode) : Option UInt8 :=
  if mode.op then some atSign else if mode.voice then some plus else none

structure Topic where
  text : Bytes
  setter : Bytes
  setAt : ℕ
  deriving DecidableEq, Repr

structure Channel where
  name : Bytes
  topic : Option Topic := none
  members : Table UserId MemberMode := ∅
  modeN : Bool := true
  modeT : Bool := true
  modeM : Bool := false
  modeI : Bool := false
  modeK : Option Bytes := none
  modeL : Option ℕ := none

namespace Channel

/-- `Channel::has_member`. -/
def hasMember (c : Channel) (uid : UserId) : Bool := (c.members.lookup uid).isSome

/-- `Channel::add_member`: nothing changes for a member. -/
def addMember (c : Channel) (uid : UserId) (mode : MemberMode) : Channel :=
  if c.hasMember uid then c else { c with members := c.members.insert uid mode }

/-- `Channel::remove_member`. -/
def removeMember (c : Channel) (uid : UserId) : Channel :=
  { c with members := c.members.erase uid }

/-- `Channel::member_ids`. -/
def memberIds (c : Channel) : List UserId := c.members.keys

/-- `Channel::has_op`. -/
def hasOp (c : Channel) : Bool := c.members.values.any MemberMode.op

end Channel

/-- A server-wide ban entry. -/
structure Kline where
  mask : Bytes
  reason : Bytes
  setBy : Bytes
  expires : Option ℕ
  deriving DecidableEq, Repr

inductive Privilege where
  | kline | kill | samode | rehash | die | seeRealhost | lockdown | setcloak | registerBypass
  deriving DecidableEq, Repr

structure OperBlock where
  name : Bytes
  passwordHash : Bytes
  requireAccount : Option Bytes := none
  allowedHosts : List Bytes := []
  operClass : Bytes
  deriving DecidableEq, Repr

/-- The configuration the handlers read. -/
structure Config where
  serverName : Bytes
  networkName : Bytes
  motd : Option Bytes := none
  opers : List OperBlock := []
  operClasses : List (Bytes × List Privilege) := []
  deriving DecidableEq, Repr

/-- What the cryptographic and encoding crates compute: the keyed hash behind the
cloak, argon2 verification of a password against a hash, base64 decoding. -/
structure Crates where
  hmac : Bytes → Bytes
  verifyPassword : Bytes → Bytes → Bool
  decodeBase64 : Bytes → Option Bytes

structure ServerState where
  config : Config
  crates : Crates
  /-- The keys of the users map. -/
  users : List UserId := []
  /-- The user behind every `Arc<User>` handed out so far. It outlives its key: a
  connection keeps its own reference after a removal. -/
  objects : UserId → UserInner
  /-- Casemap-folded nickname to its owner. -/
  nicks : Bytes → Option UserId := fun _ => none
  /-- Casemap-folded channel name to the channel. -/
  channels : Table Bytes Channel := ∅
  nextUserId : UserId := 1
  klines : List Kline := []

/-- The server's casemap. -/
def fold (name : Bytes) : Bytes := Casemap.rfc1459.fold name

namespace ServerState

/-- Change the fields of one user. -/
def modifyUser (s : ServerState) (uid : UserId) (f : UserInner → UserInner) : ServerState :=
  { s with objects := Function.update s.objects uid (f (s.objects uid)) }

/-- `insert_user`, with the object it stores. -/
def insertUser (s : ServerState) (uid : UserId) (user : UserInner) : ServerState :=
  { s with users := uid :: s.users, objects := Function.update s.objects uid user }

/-- `user`: look a live user up by id. -/
def user (s : ServerState) (uid : UserId) : Option UserInner :=
  if uid ∈ s.users then some (s.objects uid) else none

/-- `user_by_nick`. -/
def userByNick (s : ServerState) (nick : Bytes) : Option UserId := do
  let uid ← s.nicks (fold nick)
  if uid ∈ s.users then some uid else none

/-- Drop a nickname's entry if it still points at `uid`. -/
def releaseNick (s : ServerState) (uid : UserId) (nick : Bytes) : ServerState :=
  if s.nicks (fold nick) = some uid then
    { s with nicks := Function.update s.nicks (fold nick) none }
  else s

/-- `remove_user`. -/
def removeUser (s : ServerState) (uid : UserId) : ServerState :=
  if uid ∈ s.users then
    let s := { s with users := s.users.filter (· ≠ uid) }
    match (s.objects uid).nick with
    | some nick => s.releaseNick uid nick
    | none => s
  else s

inductive StateError where
  | nickInUse
  | unknownUser
  deriving DecidableEq, Repr

/-- `claim_nick`. -/
def claimNick (s : ServerState) (uid : UserId) (nick : Bytes) : Except StateError ServerState :=
  match s.nicks (fold nick) with
  | some owner => if owner ≠ uid then .error .nickInUse else .ok s
  | none =>
    match s.user uid with
    | none => .error .unknownUser
    | some user =>
      let s := match user.nick with
        | some old => s.releaseNick uid old
        | none => s
      .ok { s with nicks := Function.update s.nicks (fold nick) (some uid) }

/-- `registered_count`. -/
def registeredCount (s : ServerState) : ℕ :=
  (s.users.filter fun uid => (s.objects uid).registered).length

/-- `channel`. -/
def channel (s : ServerState) (name : Bytes) : Option Channel := s.channels.lookup (fold name)

/-- Store a channel under a name. -/
def setChannel (s : ServerState) (name : Bytes) (c : Channel) : ServerState :=
  { s with channels := s.channels.insert (fold name) c }

/-- `channel_or_create`: the channel, made with `name` as its canonical name when it
is not there. -/
def channelOrCreate (s : ServerState) (name : Bytes) : Channel :=
  (s.channel name).getD { name }

/-- `remove_empty_channel`. -/
def removeEmptyChannel (s : ServerState) (name : Bytes) : ServerState :=
  match s.channel name with
  | some c =>
    if c.members.entries = [] then { s with channels := s.channels.erase (fold name) } else s
  | none => s

/-- `channel_peers`: everyone who shares a channel with `uid`, once each. -/
def channelPeers (s : ServerState) (uid : UserId) : List UserId :=
  (((s.channels.values.filter (·.hasMember uid)).flatMap Channel.memberIds).filter (· ≠ uid)).dedup

/-- `purge_user_from_channels`: leave every channel, then remove those left empty. -/
def purgeUserFromChannels (s : ServerState) (uid : UserId) : ServerState :=
  let left := s.channels.values.filter (·.hasMember uid)
  let emptied := (left.filter fun c => (c.removeMember uid).members.entries = []).map Channel.name
  let s := { s with channels := s.channels.mapValues fun _ c => c.removeMember uid }
  emptied.foldl removeEmptyChannel s

/-- `add_kline`. -/
def addKline (s : ServerState) (kline : Kline) : ServerState :=
  { s with klines := s.klines ++ [kline] }

/-- `remove_kline`. -/
def removeKline (s : ServerState) (mask : Bytes) : ServerState × Bool :=
  let kept := s.klines.filter (·.mask ≠ mask)
  ({ s with klines := kept }, kept.length < s.klines.length)

end ServerState

/-- `glob_match`: a `*` at the end or at the start of the pattern. -/
def globMatch (pattern text : Bytes) : Bool :=
  let pat := toAsciiLowercase pattern
  let val := toAsciiLowercase text
  if pat = val then true
  else if pat = ascii "*" then true
  else if pat.getLast? = some 42 then pat.dropLast.isPrefixOf val
  else if pat.head? = some 42 then pat.tail.isSuffixOf val
  else false

/-- The part of a mask after its last `@`, or all of it. -/
def maskHost (mask : Bytes) : Bytes := (mask.splitOn atSign).getLastD mask

/-- `is_klined` at time `now`. -/
def ServerState.isKlined (s : ServerState) (now : ℕ) (host : Bytes) : Option Kline :=
  s.klines.find? fun kline =>
    !(kline.expires.any (· ≤ now)) &&
      (globMatch (maskHost kline.mask) host || globMatch kline.mask (ascii "*!*@" ++ host))

end RndRust.Irc.Server
