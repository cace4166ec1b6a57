import RndRust.Irc.Proto.Command
import RndRust.Irc.Server.Monitor

/-! The registration state machine, `handler/registration.rs`, and the keep-alive
handlers of `handler/keepalive.rs`. -/
namespace RndRust.Irc.Server
open Lib Proto

/-- `env!("CARGO_PKG_VERSION")`. -/
def pkgVersion : Bytes := ascii "0.1.0"

/-- `is_valid_nick`: at most 32 bytes, the first no digit and no `-`. -/
def isValidNick (bytes : Bytes) : Bool :=
  let special (b : UInt8) : Bool :=
    isAsciiAlphabetic b || (91 ≤ b && b ≤ 96) || (123 ≤ b && b ≤ 125)
  bytes.length ≤ 32 &&
    match bytes with
    | [] => false
    | first :: more =>
      special first && more.all fun b => special b || isAsciiDigit b || b == 45

/-- `build_cap_msg`. -/
def buildCapMsg (s : ServerState) (uid : UserId) (sub value : Bytes) : Message :=
  serverLine s (ascii "CAP") ⟨[(s.objects uid).nickOrStar, sub, value], true⟩

/-- `build_cap_ls`. The 302 form gives `sasl` its value. -/
def buildCapLs (s : ServerState) (uid : UserId) (is302 : Bool) : Message :=
  let tokens := Cap.all.map fun cap =>
    if is302 ∧ cap = .sasl then ascii "sasl=PLAIN,EXTERNAL" else cap.name
  buildCapMsg s uid (ascii "LS") (join [sp] tokens)

/-- A requested name without the `-` that asks to disable it. -/
def bareCapName (name : Bytes) : Bytes := if name.head? = some 45 then name.tail else name

/-- `all_known`. -/
def allKnown (names : List Bytes) : Bool := names.all fun n => (Cap.ofName (bareCapName n)).isSome

/-- The names of a `CAP REQ`, from its arguments with a space after each. -/
def capReqNames (args : List Bytes) : List Bytes :=
  splitWhitespace ((lossyChars (args.flatMap (· ++ [sp]))).map Prod.fst)

/-- Enable a capability, or disable it when it is asked for with a `-`. -/
def toggleCap (caps : EnabledCaps) (name : Bytes) : EnabledCaps :=
  if name.head? = some 45 then caps.disable name.tail else caps.enable name

/-- `handle_cap_req`: all of the names or none. -/
def handleCapReq (s : ServerState) (uid : UserId) (args : List Bytes) : Effect :=
  let names := capReqNames args
  if names = [] ∨ !allKnown names then
    .reply s uid (buildCapMsg s uid (ascii "NAK") (join [sp] names))
  else
    let s := s.modifyUser uid fun user => { user with caps := names.foldl toggleCap user.caps }
    .reply s uid (buildCapMsg s uid (ascii "ACK") (join [sp] names))

/-- `build_myinfo`. -/
def buildMyinfo (s : ServerState) (nick : Bytes) : Message :=
  numeric s nick .rplMyinfo
    [s.config.serverName, ascii "irc-server-" ++ pkgVersion, ascii "iw", ascii "ntmikl"] none

/-- `build_isupport`. -/
def buildIsupport (s : ServerState) (nick : Bytes) : Message :=
  numeric s nick .rplIsupport
    [ascii "NETWORK=" ++ s.config.networkName, ascii "CASEMAPPING=" ++ Casemap.rfc1459.token,
      ascii "CHANTYPES=#", ascii "PREFIX=(ov)@+", ascii "CHANMODES=b,k,l,imnpst",
      ascii "NICKLEN=32", ascii "CHANNELLEN=50"]
    (some (ascii "are supported by this server"))

/-- `send_motd`. -/
def motdReplies (s : ServerState) (nick : Bytes) : List Message :=
  match s.config.motd with
  | none => [numericText s nick .errNomotd (ascii "MOTD file is missing")]
  | some text =>
    numericText s nick .rplMotdstart
        (ascii "- " ++ s.config.serverName ++ ascii " Message of the day -") ::
      (textLines text).map (fun line => numericText s nick .rplMotd (ascii "- " ++ line)) ++
      [numericText s nick .rplEndofmotd (ascii "End of /MOTD command")]

/-- `send_welcome_burst`. -/
def welcomeBurst (s : ServerState) (nick : Bytes) : List Message :=
  let nickStr := (fromUtf8 nick).getD UserInner.star
  [numericText s nick .rplWelcome
      (ascii "Welcome to the " ++ s.config.networkName ++ ascii " Network, " ++ nickStr),
    numericText s nick .rplYourhost
      (ascii "Your host is " ++ s.config.serverName ++ ascii ", running version " ++ pkgVersion),
    numericText s nick .rplCreated (ascii "This server was compiled at " ++ pkgVersion),
    buildMyinfo s nick,
    buildIsupport s nick,
    numericText s nick .rplLuserclient
      (ascii "There are " ++ decimal (max s.registeredCount 1) ++
        ascii " users and 0 invisible on 1 servers")] ++
    motdReplies s nick

/-- The lower-case hexadecimal form of some bytes. -/
def hexEncode (bytes : Bytes) : Bytes :=
  let digit (d : UInt8) : UInt8 := if d < 10 then 48 + d else 87 + d
  bytes.flatMap fun b => [digit (b / 16), digit (b % 16)]

/-- `CloakEngine::cloak_ip`: three segments of the keyed hash of the address. -/
def cloakIp (crates : Crates) (ip : Bytes) : Bytes :=
  let hex := hexEncode (crates.hmac ip)
  hex.take 8 ++ dot :: (hex.drop 8).take 8 ++ dot :: (hex.drop 16).take 8 ++ ascii ".IP"

/-- What registration waits for. -/
def UserInner.ready (user : UserInner) : Bool :=
  !user.registered && !user.capNegotiating && user.nick.isSome && user.reg.isSome

/-- `maybe_finalize`. -/
def maybeFinalize (s : ServerState) (uid : UserId) : Effect :=
  let user := s.objects uid
  if user.ready then
    let s := s.modifyUser uid fun user =>
      { user with cloakedHost := some (cloakIp s.crates user.host), registered := true }
    { state := s, out := (welcomeBurst s user.nickOrStar).map fun m => (uid, m) }
  else { state := s }

/-- `handle_cap`. -/
def handleCap (s : ServerState) (uid : UserId) (subcommand : CapSub) (args : List Bytes) : Effect :=
  let negotiating (v : Bool) := s.modifyUser uid fun user => { user with capNegotiating := v }
  match subcommand with
  | .ls =>
    let s := negotiating true
    .reply s uid (buildCapLs s uid (args.head? = some (ascii "302")))
  | .list =>
    .reply s uid
      (buildCapMsg s uid (ascii "LIST") (join [sp] (s.objects uid).caps.enabledNames))
  | .req => handleCapReq (negotiating true) uid args
  | .done => maybeFinalize (negotiating false) uid
  | .ack | .nak | .new | .del | .other _ => { state := s }

/-- `send_nick_change`: told to the user alone, with the old nick as the origin. -/
def nickChangeLine (s : ServerState) (uid : UserId) (oldNick newNick : Bytes) : Message :=
  userLine ((s.objects uid).originPrefixWithNick oldNick) (ascii "NICK") ⟨[newNick], false⟩

/-- `handle_nick`. -/
def handleNick (s : ServerState) (uid : UserId) (requested : Bytes) : Effect :=
  if requested = [] then
    .reply s uid (numericText s unregistered .errNonicknamegiven (ascii "No nickname given"))
  else if !isValidNick requested then
    .reply s uid (numericOne s unregistered .errErroneusnickname requested
      (ascii "Erroneous nickname"))
  else match s.claimNick uid requested with
    | .error _ =>
      .reply s uid (numericOne s unregistered .errNicknameinuse requested
        (ascii "Nickname is already in use"))
    | .ok claimed =>
      let prior := (claimed.objects uid).nick
      let s := claimed.modifyUser uid fun user => { user with nick := some requested }
      if (s.objects uid).registered then
        match prior with
        | some old =>
          { state := s
            out := notifyOffline s old ++ notifyOnline s requested ++
              [(uid, nickChangeLine s uid old requested)] }
        | none => { state := s }
      else maybeFinalize s uid

/-- `handle_user`. -/
def handleUser (s : ServerState) (uid : UserId) (userName realname : Bytes) : Effect :=
  if (s.objects uid).registered then
    .reply s uid (numericText s unregistered .errAlreadyregistered (ascii "You may not reregister"))
  else maybeFinalize (s.modifyUser uid fun user => { user with reg := some ⟨userName, realname⟩ }) uid

/-- `handle_pass`. -/
def handlePass (s : ServerState) (uid : UserId) (password : Bytes) : Effect where
  state := if (s.objects uid).registered then s
    else s.modifyUser uid fun user => { user with pass := some password }

/-- `handle_ping`. -/
def handlePing (s : ServerState) (uid : UserId) (token : Bytes) : Effect :=
  .reply s uid (serverLine s (ascii "PONG") ⟨[s.config.serverName, token], true⟩)

/-- `handle_quit`: the connection driver tells the peers. -/
def handleQuit (s : ServerState) : Effect := { state := s, outcome := .disconnect }

end RndRust.Irc.Server
