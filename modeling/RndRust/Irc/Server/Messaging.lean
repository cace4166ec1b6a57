import RndRust.Irc.Server.Reply

/-! Text messaging, `handler/messaging.rs`: PRIVMSG and NOTICE. -/
namespace RndRust.Irc.Server
open Lib Proto

/-- `epoch_to_utc`: year, month, day, hour, minute and second of an instant. -/
def epochToUtc (epoch : ℕ) : ℕ × ℕ × ℕ × ℕ × ℕ × ℕ :=
  let days := epoch / 86400
  let daySecs := epoch % 86400
  let z := days + 719468
  let era := z / 146097
  let doe := z - era * 146097
  let yoe := (doe - doe / 1460 + doe / 36524 - doe / 146096) / 365
  let y := yoe + era * 400
  let doy := doe - (365 * yoe + yoe / 4 - yoe / 100)
  let mp := (5 * doy + 2) / 153
  let d := doy - (153 * mp + 2) / 5 + 1
  let m := if mp < 10 then mp + 3 else mp - 9
  let y := if m ≤ 2 then y + 1 else y
  (y, m, d, daySecs / 3600, daySecs % 3600 / 60, daySecs % 60)

/-- `now_iso8601`. -/
def nowIso8601 (out : Outside) : Bytes :=
  let (year, month, day, hour, min, sec) := epochToUtc out.secs
  padded 4 year ++ 45 :: padded 2 month ++ 45 :: padded 2 day ++ 84 :: padded 2 hour ++
    colon :: padded 2 min ++ colon :: padded 2 sec ++ dot :: padded 3 out.millis ++ [90]

/-- `server_time_tags`. -/
def serverTimeTags (out : Outside) : Tags := [⟨⟨false, ascii "time"⟩, some (nowIso8601 out)⟩]

/-- Tag a message with the time for a user that has `server-time` enabled. -/
def maybeAddTime (out : Outside) (user : UserInner) (msg : Message) : Message :=
  if .serverTime ∈ user.caps then { msg with tags := serverTimeTags out } else msg

def messageLine (origin verb target text : Bytes) : Message :=
  userLine origin verb ⟨[target, text], true⟩

/-- The error replies of PRIVMSG; NOTICE sends none. -/
def emitError (emitErrors : Bool) (uid : UserId) (msg : Message) : Outbox :=
  if emitErrors then [(uid, msg)] else []

/-- `deliver_to_channel`. The time tag goes to the sender's echo only. -/
def deliverToChannel (s : ServerState) (uid : UserId) (out : Outside)
    (origin channel text verb : Bytes) (emitErrors : Bool) : Outbox :=
  match s.channel channel with
  | none => emitError emitErrors uid
      (numericOne s unregistered .errNosuchchannel channel (ascii "No such channel"))
  | some c =>
    if c.hasMember uid then
      let user := s.objects uid
      let msg := messageLine origin verb c.name text
      broadcast s (c.memberIds.filter (· ≠ uid)) msg ++
        if .echoMessage ∈ user.caps then [(uid, maybeAddTime out user msg)] else []
    else emitError emitErrors uid
      (numericOne s unregistered .errCannotsendtochan c.name (ascii "Cannot send to channel"))

/-- `deliver_to_user`. -/
def deliverToUser (s : ServerState) (uid : UserId) (out : Outside)
    (origin targetNick text verb : Bytes) (emitErrors : Bool) : Outbox :=
  match s.userByNick targetNick with
  | none => emitError emitErrors uid
      (numericOne s unregistered .errNosuchnick targetNick (ascii "No such nick/channel"))
  | some recipient =>
    let user := s.objects recipient
    [(recipient, maybeAddTime out user (messageLine origin verb (user.nick.getD targetNick) text))]

/-- A target that opens with a channel sigil. -/
def isChannelTarget (target : Bytes) : Bool :=
  target.head?.any fun b => b == 35 || b == 38 || b == plus || b == bang

/-- What one target of `deliver` is sent. -/
def deliverTo (s : ServerState) (uid : UserId) (out : Outside) (origin text verb : Bytes)
    (emitErrors : Bool) (target : Bytes) : Outbox :=
  if isChannelTarget target then deliverToChannel s uid out origin target text verb emitErrors
  else deliverToUser s uid out origin target text verb emitErrors

/-- `deliver`. Nothing but queues changes. -/
def deliver (s : ServerState) (uid : UserId) (out : Outside) (targets : List Bytes)
    (text verb : Bytes) (emitErrors : Bool) : Effect :=
  let user := s.objects uid
  if user.registered then
    { state := s
      out := targets.flatMap (deliverTo s uid out user.originPrefix text verb emitErrors) }
  else
    { state := s
      out := emitError emitErrors uid
        (numericText s unregistered .errNotregistered (ascii "You have not registered")) }

/-- `handle_privmsg`. -/
def handlePrivmsg (s : ServerState) (uid : UserId) (out : Outside) (targets : List Bytes)
    (text : Bytes) : Effect :=
  deliver s uid out targets text (ascii "PRIVMSG") true

/-- `handle_notice`. -/
def handleNotice (s : ServerState) (uid : UserId) (out : Outside) (targets : List Bytes)
    (text : Bytes) : Effect :=
  deliver s uid out targets text (ascii "NOTICE") false

end RndRust.Irc.Server
