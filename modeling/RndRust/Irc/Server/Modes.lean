import RndRust.Irc.Proto.Mode
import RndRust.Irc.Server.Messaging

/-! The `MODE` command, `handler/mode.rs`: channel and user modes. -/
namespace RndRust.Irc.Server
open Lib Proto

/-- `channel_mode_string`. -/
def channelModeString (c : Channel) : Bytes :=
  plus :: ((if c.modeN then ascii "n" else []) ++ (if c.modeT then ascii "t" else []) ++
    (if c.modeM then ascii "m" else []) ++ (if c.modeI then ascii "i" else []) ++
    (if c.modeK.isSome then ascii "k" else []) ++ if c.modeL.isSome then ascii "l" else [])

/-- `user_mode_string`. -/
def userModeString (user : UserInner) : Bytes :=
  plus :: ((if user.modeI then ascii "i" else []) ++ if user.modeW then ascii "w" else [])

/-- The mode changes applied so far: the echo string with its last direction, and
the arguments it shows. -/
structure Applied where
  letters : Bytes := []
  lastDir : Option Bool := none
  args : List Bytes := []
  deriving DecidableEq, Repr

/-- `push_letter`, and the argument the change is echoed with. -/
def Applied.push (applied : Applied) (adding : Bool) (letter : UInt8) (arg : Option Bytes) :
    Applied where
  letters := applied.letters ++
    (if applied.lastDir ≠ some adding then [if adding then plus else 45] else []) ++ [letter]
  lastDir := some adding
  args := applied.args ++ arg.toList

/-- `apply_flag_mode`. -/
def applyFlagMode (c : Channel) (letter : UInt8) (adding : Bool) : Channel :=
  if letter = 110 then { c with modeN := adding }
  else if letter = 116 then { c with modeT := adding }
  else if letter = 109 then { c with modeM := adding }
  else if letter = 105 then { c with modeI := adding }
  else c

/-- Give or take a member's operator or voice flag. -/
def setMemberMode (c : Channel) (uid : UserId) (letter : UInt8) (adding : Bool) : Channel :=
  { c with members := c.members.mapValues fun member mode =>
      if member ≠ uid then mode
      else if letter = 111 then { mode with op := adding } else { mode with voice := adding } }

/-- One change in the loop of `apply_channel_modes`. -/
def applyChannelMode (s : ServerState) (state : Channel × Applied) (ch : ModeChange) :
    Channel × Applied :=
  let (c, applied) := state
  if ch.letter ∈ ascii "ntmi" then
    (applyFlagMode c ch.letter ch.adding, applied.push ch.adding ch.letter none)
  else if ch.letter = 107 then
    if ch.adding then
      match ch.arg with
      | some key => ({ c with modeK := some key }, applied.push true 107 (some key))
      | none => (c, applied)
    else ({ c with modeK := none }, applied.push false 107 none)
  else if ch.letter = 108 then
    if ch.adding then
      match ch.arg.bind fun arg => (fromUtf8 arg).bind (parseUnsigned (2 ^ 32)) with
      | some n => ({ c with modeL := some n }, applied.push true 108 ch.arg)
      | none => (c, applied)
    else ({ c with modeL := none }, applied.push false 108 none)
  else if ch.letter ∈ ascii "ov" then
    match ch.arg.bind fun nick => (s.userByNick nick).map fun target => (nick, target) with
    | some (nick, target) =>
      if c.hasMember target then
        (setMemberMode c target ch.letter ch.adding, applied.push ch.adding ch.letter (some nick))
      else (c, applied)
    | none => (c, applied)
  else (c, applied)

def modeChangeLine (origin chan changes : Bytes) (args : List Bytes) : Message :=
  userLine origin (ascii "MODE") ⟨chan :: changes :: args, false⟩

/-- Whether a member holds `+o`. -/
def Channel.isOp (c : Channel) (uid : UserId) : Bool := (c.members.lookup uid).any MemberMode.op

/-- `apply_channel_modes`, on the channel found under `target`. -/
def applyChannelModes (s : ServerState) (uid : UserId) (target : Bytes) (c : Channel)
    (changes : Bytes) (args : List Bytes) : Effect :=
  let user := s.objects uid
  if c.isOp uid then
    let parsed := parseChannelModes changes args ModeSpec.rfc2812
    let (c, applied) := parsed.foldl (applyChannelMode s) (c, {})
    let s := s.setChannel target c
    if applied.letters = [] then { state := s }
    else
      { state := s
        out := broadcast s c.memberIds
          (modeChangeLine user.originPrefix c.name applied.letters applied.args) }
  else
    .reply s uid (numericOne s user.nickOrStar .errChanoprivsneeded c.name
      (ascii "You're not channel operator"))

/-- `handle_channel_mode`. -/
def handleChannelMode (s : ServerState) (uid : UserId) (target : Bytes) (changes : Option Bytes)
    (args : List Bytes) : Effect :=
  let nick := (s.objects uid).nickOrStar
  match s.channel target with
  | none => .reply s uid (numericOne s nick .errNosuchchannel target (ascii "No such channel"))
  | some c =>
    match changes with
    | none => .reply s uid (numeric s nick .rplChannelmodeis [c.name, channelModeString c] none)
    | some changes => applyChannelModes s uid target c changes args

/-- The change a user mode letter makes. -/
def applyUserMode (user : UserInner) (ch : ModeChange) : UserInner :=
  if ch.letter = 105 then { user with modeI := ch.adding }
  else if ch.letter = 119 then { user with modeW := ch.adding }
  else user

/-- `handle_user_mode`. -/
def handleUserMode (s : ServerState) (uid : UserId) (target : Bytes) (changes : Option Bytes) :
    Effect :=
  let nick := (s.objects uid).nickOrStar
  if Casemap.rfc1459.eqBytes target nick then
    let s := match changes with
      | none => s
      | some changes =>
        s.modifyUser uid fun user => (parseUserModes changes).foldl applyUserMode user
    .reply s uid (serverLine s (ascii "MODE") ⟨[nick, userModeString (s.objects uid)], true⟩)
  else
    .reply s uid (numericOne s nick .errUsersdontmatch target
      (ascii "Can't change mode for other users"))

/-- `handle_mode`. -/
def handleMode (s : ServerState) (uid : UserId) (target : Bytes) (changes : Option Bytes)
    (args : List Bytes) : Effect :=
  ensureRegistered s uid <|
    if isChannelTarget target then handleChannelMode s uid target changes args
    else handleUserMode s uid target changes

end RndRust.Irc.Server
