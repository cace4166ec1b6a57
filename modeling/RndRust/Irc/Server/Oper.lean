import RndRust.Irc.Server.Reply

/-! Operator commands, `handler/oper.rs`: OPER, KILL, KLINE, UNKLINE, SHOWHOST. -/
namespace RndRust.Irc.Server
open Lib Proto

/-- `send_notice`. -/
def noticeLine (s : ServerState) (uid : UserId) (text : Bytes) : Message :=
  serverLine s (ascii "NOTICE") ⟨[(s.objects uid).nickOrStar, text], true⟩

/-- `User::has_privilege`. -/
def hasPrivilege (s : ServerState) (uid : UserId) (priv : Privilege) : Bool :=
  let user := s.objects uid
  user.isOper && user.operClass.any fun name =>
    (s.config.operClasses.lookup name).any (priv ∈ ·)

/-- The checks every operator command but OPER starts with: registration, the
privilege, and the number of parameters. -/
def operCommand (s : ServerState) (uid : UserId) (priv : Privilege) (name : Bytes) (arity : ℕ)
    (params : Params) (handler : Effect) : Effect :=
  ensureRegistered s uid <|
    let nick := (s.objects uid).nickOrStar
    if !hasPrivilege s uid priv then
      .reply s uid (numericText s nick .errNoprivileges
        (ascii "Permission Denied- You're not an IRC operator"))
    else if params.values.length < arity then
      .reply s uid (numericOne s nick .errNeedmoreparams name (ascii "Not enough parameters"))
    else handler

/-- The checks of `handle_oper` on a block found by name, in order. -/
def operRefusal (s : ServerState) (user : UserInner) (block : OperBlock) (password : Bytes) :
    Option (ReplyCode × Bytes) :=
  if !s.crates.verifyPassword block.passwordHash password then
    some (.errPasswdmismatch, ascii "Password incorrect")
  else if block.allowedHosts ≠ [] ∧
      !block.allowedHosts.any (globMatch · (fromUtf8Lossy user.host)) then
    some (.errNooperhost, ascii "No O-lines for your host")
  else if block.requireAccount.any fun account => user.account ≠ some account then
    some (.errNooperhost, ascii "No O-lines for your host")
  else none

/-- `handle_oper`. -/
def handleOper (s : ServerState) (uid : UserId) (params : Params) : Effect :=
  ensureRegistered s uid <|
    let user := s.objects uid
    let nick := user.nickOrStar
    match params.values with
    | name :: password :: _ =>
      match s.config.opers.find? (·.name = fromUtf8Lossy name) with
      | none =>
        .reply s uid (numericText s nick .errNooperhost (ascii "No O-lines for your host"))
      | some block =>
        match operRefusal s user block (fromUtf8Lossy password) with
        | some (code, text) => .reply s uid (numericText s nick code text)
        | none =>
          { state := s.modifyUser uid fun user =>
              { user with isOper := true, operClass := some block.operClass }
            out :=
              [(uid, numericText s nick .rplYoureoper (ascii "You are now an IRC operator")),
                (uid, serverLine s (ascii "MODE") ⟨[nick, ascii "+o"], false⟩)] }
    | _ =>
      .reply s uid (numericOne s nick .errNeedmoreparams (ascii "OPER")
        (ascii "Not enough parameters"))

/-- The reason a killed user's peers see. -/
def killReason (operNick reason : Bytes) : Bytes :=
  ascii "Killed (" ++ fromUtf8Lossy operNick ++ ascii ": " ++ fromUtf8Lossy reason ++ ascii ")"

/-- `quit_line`, and the QUIT of a killed user. -/
def quitLine (origin reason : Bytes) : Message := userLine origin (ascii "QUIT") ⟨[reason], true⟩

/-- `handle_kill` from the target on: the target is told, its peers are told, and it
leaves every channel and the registries. Its connection is not closed. -/
def killUser (s : ServerState) (target : UserId) (reason : Bytes) : Effect where
  state := (s.purgeUserFromChannels target).removeUser target
  out := (target, errorLine (ascii "Closing Link: " ++ reason)) ::
    broadcast s (s.channelPeers target) (quitLine (s.objects target).originPrefix reason)

/-- `handle_kill`. -/
def handleKill (s : ServerState) (uid : UserId) (params : Params) : Effect :=
  operCommand s uid .kill (ascii "KILL") 2 params <|
    let nick := (s.objects uid).nickOrStar
    let targetNick := params.values.headD []
    match s.userByNick targetNick with
    | none =>
      .reply s uid (numericOne s nick .errNosuchnick targetNick (ascii "No such nick/channel"))
    | some target => killUser s target (killReason nick (params.values.getD 1 []))

/-- `handle_kline`. A duration that is no number is permanent, as `0` is. -/
def handleKline (s : ServerState) (uid : UserId) (out : Outside) (params : Params) : Effect :=
  operCommand s uid .kline (ascii "KLINE") 3 params <|
    let mask := fromUtf8Lossy (params.values.headD [])
    let duration := (parseUnsigned (2 ^ 64) (fromUtf8Lossy (params.values.getD 1 []))).getD 0
    let reason := fromUtf8Lossy (params.values.getD 2 [])
    let setBy := fromUtf8Lossy (s.objects uid).nickOrStar
    let expires := if duration = 0 then none else some (out.secs + duration)
    let s := s.addKline ⟨mask, reason, setBy, expires⟩
    .reply s uid (noticeLine s uid (ascii "K-Line added for " ++ mask))

/-- `handle_unkline`. -/
def handleUnkline (s : ServerState) (uid : UserId) (params : Params) : Effect :=
  operCommand s uid .kline (ascii "UNKLINE") 1 params <|
    let mask := fromUtf8Lossy (params.values.headD [])
    let (s, removed) := s.removeKline mask
    let text := if removed then ascii "K-Line removed for " else ascii "No K-Line found for "
    .reply s uid (noticeLine s uid (text ++ mask))

/-- `handle_showhost`. -/
def handleShowhost (s : ServerState) (uid : UserId) (params : Params) : Effect :=
  operCommand s uid .seeRealhost (ascii "SHOWHOST") 1 params <|
    let nick := (s.objects uid).nickOrStar
    let targetNick := params.values.headD []
    match s.userByNick targetNick with
    | none =>
      .reply s uid (numericOne s nick .errNosuchnick targetNick (ascii "No such nick/channel"))
    | some target =>
      .reply s uid (noticeLine s uid (ascii "Real host of " ++ fromUtf8Lossy targetNick ++
        ascii " is " ++ fromUtf8Lossy (s.objects target).host))

end RndRust.Irc.Server
