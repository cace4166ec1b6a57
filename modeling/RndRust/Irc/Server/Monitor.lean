import RndRust.Irc.Server.Reply

/-! The `MONITOR` command, `handler/monitor.rs`. -/
namespace RndRust.Irc.Server
open Lib Proto

/-- `MONITOR_LIMIT`. -/
def monitorLimit : ℕ := 100

/-- The watched nicks of a comma-separated list. -/
def monitorTargets (targets : Bytes) : List Bytes := (targets.splitOn comma).filter (· ≠ [])

/-- A watch list holds a nick up to ASCII case. -/
def watches (list : List Bytes) (nick : Bytes) : Bool := list.any (eqIgnoreAsciiCase · nick)

/-- A list of nicks as text. -/
def nickList (nicks : List Bytes) : Bytes := join [comma] (nicks.map fromUtf8Lossy)

/-- The replies that report which of `nicks` are online. -/
def statusReplies (s : ServerState) (uid : UserId) (nicks : List Bytes) : Outbox :=
  let nick := (s.objects uid).nickOrStar
  let online := nicks.filter fun n => (s.userByNick n).isSome
  let offline := nicks.filter fun n => (s.userByNick n).isNone
  (if online = [] then [] else [(uid, numericText s nick .rplMononline (nickList online))]) ++
    if offline = [] then [] else [(uid, numericText s nick .rplMonoffline (nickList offline))]

/-- `monitor_add`. The limit is checked against the whole request. -/
def monitorAdd (s : ServerState) (uid : UserId) (targets : Bytes) : Effect :=
  let user := s.objects uid
  let nicks := monitorTargets targets
  if user.monitorList.length + nicks.length > monitorLimit then
    .reply s uid (numericText s user.nickOrStar .errMonlistfull
      (decimal monitorLimit ++ ascii " Monitor list is full"))
  else
    let list := nicks.foldl (fun list n => if watches list n then list else list ++ [n])
      user.monitorList
    { state := s.modifyUser uid fun user => { user with monitorList := list }
      out := statusReplies s uid nicks }

/-- `monitor_remove`. -/
def monitorRemove (s : ServerState) (uid : UserId) (targets : Bytes) : Effect where
  state := s.modifyUser uid fun user =>
    { user with monitorList := user.monitorList.filter fun n =>
        !watches (monitorTargets targets) n }

/-- `monitor_list`. -/
def monitorListReplies (s : ServerState) (uid : UserId) : Effect :=
  let user := s.objects uid
  let list := nickList user.monitorList
  { state := s
    out := (if list = [] then [] else [(uid, numericText s user.nickOrStar .rplMonlist list)]) ++
      [(uid, numericText s user.nickOrStar .rplEndofmonlist (ascii "End of MONITOR list"))] }

/-- `handle_monitor`. The targets may follow the sign in the same parameter. -/
def handleMonitor (s : ServerState) (uid : UserId) (params : Params) : Effect :=
  ensureRegistered s uid <|
    match params.values with
    | [] => { state := s }
    | sub :: more =>
      let targets := more.headD []
      if sub = ascii "+" then monitorAdd s uid targets
      else if sub = ascii "-" then monitorRemove s uid targets
      else if sub = ascii "C" ∨ sub = ascii "c" then
        { state := s.modifyUser uid fun user => { user with monitorList := [] } }
      else if sub = ascii "L" ∨ sub = ascii "l" then monitorListReplies s uid
      else if sub = ascii "S" ∨ sub = ascii "s" then
        { state := s, out := statusReplies s uid (s.objects uid).monitorList }
      else if sub.head? = some plus then monitorAdd s uid sub.tail
      else if sub.head? = some 45 then monitorRemove s uid sub.tail
      else { state := s }

/-- `notify_online` and `notify_offline`, which differ in the reply code: tell every
live user that watches `nick`. -/
def notifyWatchers (s : ServerState) (code : ReplyCode) (nick : Bytes) : Outbox :=
  (s.users.filter fun uid => watches (s.objects uid).monitorList nick).map fun uid =>
    (uid, numericText s (s.objects uid).nickOrStar code (fromUtf8Lossy nick))

/-- `notify_online`. -/
def notifyOnline (s : ServerState) (nick : Bytes) : Outbox := notifyWatchers s .rplMononline nick

/-- `notify_offline`. -/
def notifyOffline (s : ServerState) (nick : Bytes) : Outbox := notifyWatchers s .rplMonoffline nick

end RndRust.Irc.Server
