import RndRust.Irc.Proto.Text

/-! Per-connection user state, `state/user.rs`, with the capability set of
`caps.rs`. -/
namespace RndRust.Irc.Server
open Proto

/-- Unique per connection, minted in order and never reused. -/
abbrev UserId := ℕ

/-- Registration info from `USER`. -/
structure UserRegInfo where
  userName : Bytes
  realname : Bytes
  deriving DecidableEq, Repr

/-- `ADVERTISED_CAPS`. -/
inductive Cap where
  | serverTime | echoMessage | accountNotify | awayNotify | extendedJoin | messageTags
  | multiPrefix | sasl | capNotify
  deriving DecidableEq, Repr

namespace Cap

def all : List Cap :=
  [serverTime, echoMessage, accountNotify, awayNotify, extendedJoin, messageTags, multiPrefix,
    sasl, capNotify]

def name : Cap → Bytes
  | serverTime => ascii "server-time"
  | echoMessage => ascii "echo-message"
  | accountNotify => ascii "account-notify"
  | awayNotify => ascii "away-notify"
  | extendedJoin => ascii "extended-join"
  | messageTags => ascii "message-tags"
  | multiPrefix => ascii "multi-prefix"
  | sasl => ascii "sasl"
  | capNotify => ascii "cap-notify"

/-- The capability of a name, if it is advertised. -/
def ofName (name : Bytes) : Option Cap := all.find? fun cap => cap.name = name

end Cap

/-- `EnabledCaps`, one flag for each advertised capability. -/
abbrev EnabledCaps := List Cap

/-- `EnabledCaps::enable`. -/
def EnabledCaps.enable (caps : EnabledCaps) (name : Bytes) : EnabledCaps :=
  match Cap.ofName name with
  | some cap => if cap ∈ caps then caps else cap :: caps
  | none => caps

/-- `EnabledCaps::disable`. -/
def EnabledCaps.disable (caps : EnabledCaps) (name : Bytes) : EnabledCaps :=
  match Cap.ofName name with
  | some cap => caps.filter (· ≠ cap)
  | none => caps

/-- `EnabledCaps::enabled_names`, in the order of the fields. -/
def EnabledCaps.enabledNames (caps : EnabledCaps) : List Bytes :=
  (Cap.all.filter (· ∈ caps)).map Cap.name

/-- The mutable fields of a user, `UserInner`. -/
structure UserInner where
  nick : Option Bytes := none
  reg : Option UserRegInfo := none
  pass : Option Bytes := none
  capNegotiating : Bool := false
  registered : Bool := false
  /-- The peer's address, as text. -/
  host : Bytes
  modeI : Bool := false
  modeW : Bool := false
  cloakedHost : Option Bytes := none
  account : Option Bytes := none
  certFingerprint : Option Bytes := none
  saslMechanism : Option Bytes := none
  isOper : Bool := false
  operClass : Option Bytes := none
  caps : EnabledCaps := []
  monitorList : List Bytes := []
  deriving DecidableEq, Repr

namespace UserInner

/-- `*` stands for a nick, or a user name, that is not there yet. -/
def star : Bytes := ascii "*"

def nickOrStar (user : UserInner) : Bytes := user.nick.getD star

/-- The host shown to others: the cloak once it is set. -/
def shownHost (user : UserInner) : Bytes := user.cloakedHost.getD user.host

def shownUserName (user : UserInner) : Bytes := (user.reg.map UserRegInfo.userName).getD star

/-- `compose_prefix`. -/
def composePrefix (nick user host : Bytes) : Bytes := nick ++ bang :: user ++ atSign :: host

/-- `User::origin_prefix_with_nick`. -/
def originPrefixWithNick (user : UserInner) (nick : Bytes) : Bytes :=
  composePrefix nick user.shownUserName user.shownHost

/-- `User::origin_prefix`. -/
def originPrefix (user : UserInner) : Bytes := user.originPrefixWithNick user.nickOrStar

end UserInner

end RndRust.Irc.Server
