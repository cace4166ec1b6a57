import RndRust.Irc.Server.Reply

/-! Accounts, `handler/account.rs` and `handler/sasl.rs`: REGISTER, VERIFY and the
SASL exchange. -/
namespace RndRust.Irc.Server
open Lib Proto

/-- `send_err`, and the replies of both modules with only a text. -/
def accountReply (s : ServerState) (uid : UserId) (code : ReplyCode) (text : Bytes) : Effect :=
  .reply s uid (numericText s (s.objects uid).nickOrStar code text)

/-- `validate_register_params`. -/
def validateRegisterParams (accountName email password : Bytes) :
    Except Bytes (Bytes × Bytes × Bytes) :=
  match fromUtf8 accountName with
  | none => .error (ascii "Invalid account name encoding")
  | some name =>
    match fromUtf8 email with
    | none => .error (ascii "Invalid email encoding")
    | some email =>
      match fromUtf8 password with
      | none => .error (ascii "Invalid password encoding")
      | some password =>
        if name = [] ∨ name.length > 32 then .error (ascii "Account name must be 1-32 characters")
        else if email = [] ∨ email.length > 320 then .error (ascii "Invalid email address")
        else if password.length < 5 ∨ password.length > 512 then
          .error (ascii "Password must be 5-512 characters")
        else .ok (name, email, password)

/-- `handle_register`. -/
def handleRegister (s : ServerState) (uid : UserId) (out : Outside)
    (accountName email password : Bytes) : Effect :=
  match validateRegisterParams accountName email password with
  | .error text => accountReply s uid .errRegInvalid text
  | .ok (name, _, _) =>
    if !out.hashed then accountReply s uid .errRegInvalid (ascii "Internal hashing error")
    else match out.created with
      | .ok () =>
        accountReply s uid .rplRegVerificationRequired
          (name ++ ascii " :Verification required. Check your email.")
      | .error .alreadyExists =>
        accountReply s uid .errRegAlreadyExists (ascii "Account already exists")
      | .error .sqlx => accountReply s uid .errRegInvalid (ascii "Registration failed")

/-- `broadcast_account_notify`: to the channel peers that asked for it. -/
def accountNotify (s : ServerState) (uid : UserId) (account : Bytes) : Outbox :=
  let peers := (s.channelPeers uid).filter fun peer => .accountNotify ∈ (s.objects peer).caps
  broadcast s peers (userLine (s.objects uid).originPrefix (ascii "ACCOUNT") ⟨[account], false⟩)

/-- `User::set_account`. -/
def setAccount (s : ServerState) (uid : UserId) (account : Bytes) : ServerState :=
  s.modifyUser uid fun user => { user with account := some account }

/-- `handle_verify`. -/
def handleVerify (s : ServerState) (uid : UserId) (out : Outside) (accountName token : Bytes) :
    Effect :=
  match fromUtf8 accountName with
  | none => accountReply s uid .errRegInvalid (ascii "Invalid account name encoding")
  | some name =>
    if (fromUtf8 token).isNone then
      accountReply s uid .errRegInvalid (ascii "Invalid token encoding")
    else match out.verified with
      | .ok true =>
        let s := setAccount s uid name
        { state := s
          out := accountNotify s uid name ++
            (accountReply s uid .rplRegSuccess
              (name ++ ascii " :Account verified successfully")).out }
      | .ok false => accountReply s uid .errRegInvalid (ascii "Invalid verify token")
      | .error _ => accountReply s uid .errRegInvalid (ascii "Verification failed")

/-- Forget the mechanism of an exchange that is over. -/
def clearMechanism (s : ServerState) (uid : UserId) : ServerState :=
  s.modifyUser uid fun user => { user with saslMechanism := none }

/-- `send_sasl_fail`. -/
def saslFail (s : ServerState) (uid : UserId) (text : Bytes) : Effect :=
  { accountReply s uid .errSaslfail text with state := clearMechanism s uid }

/-- A login: the account is set, the peers are told, and `send_logged_in` answers. -/
def saslLogin (s : ServerState) (uid : UserId) (account : Bytes) : Effect :=
  let s := setAccount s uid account
  let nick := (s.objects uid).nickOrStar
  { state := clearMechanism s uid
    out := accountNotify s uid account ++
      [(uid, numeric s nick .rplLoggedin [(s.objects uid).originPrefix, account]
          (some (ascii "You are now logged in as " ++ account))),
        (uid, numericText s nick .rplSaslsuccess (ascii "SASL authentication successful"))] }

/-- `splitn(3, 0)`: the third part keeps the separators in it. -/
def plainParts (decoded : Bytes) : Option (Bytes × Bytes × Bytes) :=
  match decoded.splitOn nul with
  | authzid :: authcid :: first :: more => some (authzid, authcid, join [nul] (first :: more))
  | _ => none

/-- `handle_plain`. -/
def handlePlain (s : ServerState) (uid : UserId) (out : Outside) (payload : Bytes) : Effect :=
  match s.crates.decodeBase64 payload with
  | none => saslFail s uid (ascii "Invalid base64")
  | some decoded =>
    match plainParts decoded with
    | none => saslFail s uid (ascii "Malformed PLAIN payload")
    | some (_, authcid, passwd) =>
      if (fromUtf8 authcid).isNone then saslFail s uid (ascii "Invalid UTF-8 in authcid")
      else if (fromUtf8 passwd).isNone then saslFail s uid (ascii "Invalid UTF-8 in password")
      else match out.account with
        | .ok (some account) =>
          if !account.verified then saslFail s uid (ascii "Account not verified")
          else if s.crates.verifyPassword account.passwordHash passwd then
            saslLogin s uid account.name
          else saslFail s uid (ascii "Authentication failed")
        | _ => saslFail s uid (ascii "Authentication failed")

/-- `handle_external`. -/
def handleExternal (s : ServerState) (uid : UserId) (out : Outside) : Effect :=
  if (s.objects uid).certFingerprint.isNone then saslFail s uid (ascii "No client certificate")
  else match out.account with
    | .ok (some account) =>
      if account.verified then saslLogin s uid account.name
      else saslFail s uid (ascii "Account not verified")
    | _ => saslFail s uid (ascii "No account for certificate")

/-- `handle_authenticate`: a mechanism name opens the exchange, anything else is a
credential for the mechanism it was opened with. -/
def handleAuthenticate (s : ServerState) (uid : UserId) (out : Outside) (payload : Bytes) : Effect :=
  if eqIgnoreAsciiCase payload (ascii "PLAIN") ∨ eqIgnoreAsciiCase payload (ascii "EXTERNAL") then
    let s := s.modifyUser uid fun user =>
      { user with saslMechanism := some (toAsciiUppercase (fromUtf8Lossy payload)) }
    .reply s uid (serverLine s (ascii "AUTHENTICATE") ⟨[ascii "+"], false⟩)
  else if (s.objects uid).saslMechanism = some (ascii "PLAIN") then handlePlain s uid out payload
  else if (s.objects uid).saslMechanism = some (ascii "EXTERNAL") then handleExternal s uid out
  else saslFail s uid (ascii "No SASL mechanism negotiated")

end RndRust.Irc.Server
