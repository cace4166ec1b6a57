import RndRust.Irc.Server.Account
import RndRust.Irc.Server.Channel
import RndRust.Irc.Server.Modes
import RndRust.Irc.Server.Oper
import RndRust.Irc.Server.Registration

/-! Command dispatch, `handler/mod.rs`. -/
namespace RndRust.Irc.Server
open Lib Proto

/-- `send_need_more_params`. -/
def needMoreParams (s : ServerState) (uid : UserId) (command : Bytes) : Effect :=
  .reply s uid (numericOne s unregistered .errNeedmoreparams command (ascii "Not enough parameters"))

/-- `send_unknown_command`. -/
def unknownCommand (s : ServerState) (uid : UserId) (verb : Bytes) : Effect :=
  .reply s uid (numericOne s unregistered .errUnknowncommand verb (ascii "Unknown command"))

/-- The arms of `dispatch_typed` on commands without a typed form. The verb is
matched as it was sent. -/
def dispatchUnknown (s : ServerState) (uid : UserId) (out : Outside) (verb : Bytes)
    (params : Params) : Effect :=
  if verb = ascii "REGISTER" then
    match params.values with
    | account :: email :: password :: _ => handleRegister s uid out account email password
    | _ => needMoreParams s uid (ascii "REGISTER")
  else if verb = ascii "VERIFY" then
    match params.values with
    | account :: token :: _ => handleVerify s uid out account token
    | _ => needMoreParams s uid (ascii "VERIFY")
  else if verb = ascii "OPER" then handleOper s uid params
  else if verb = ascii "KILL" then handleKill s uid params
  else if verb = ascii "KLINE" then handleKline s uid out params
  else if verb = ascii "UNKLINE" then handleUnkline s uid params
  else if verb = ascii "SHOWHOST" then handleShowhost s uid params
  else if verb = ascii "MONITOR" then handleMonitor s uid params
  else unknownCommand s uid verb

/-- `dispatch_typed`. -/
def dispatchTyped (s : ServerState) (uid : UserId) (out : Outside) : Command → Effect
  | .cap subcommand args => handleCap s uid subcommand args
  | .nick nick => handleNick s uid nick
  | .user user _ realname => handleUser s uid user realname
  | .pass password => handlePass s uid password
  | .ping token _ => handlePing s uid token
  | .pong _ _ => { state := s }
  | .quit _ => handleQuit s
  | .join channels _ => handleJoin s uid channels
  | .part channels reason => handlePart s uid channels reason
  | .topic channel topic => handleTopic s uid out channel topic
  | .privmsg targets text => handlePrivmsg s uid out targets text
  | .notice targets text => handleNotice s uid out targets text
  | .authenticate payload => handleAuthenticate s uid out payload
  | .mode target changes args => handleMode s uid target changes args
  | .unknown verb params => dispatchUnknown s uid out verb params
  | .list _ _ | .numeric _ _ => { state := s }

/-- `dispatch`. -/
def dispatch (s : ServerState) (uid : UserId) (out : Outside) (msg : Message) : Effect :=
  match Command.parse msg with
  | .ok cmd => dispatchTyped s uid out cmd
  | .error (.missingParam command _ _) => needMoreParams s uid command

end RndRust.Irc.Server
