import RndRust.Irc.Proto.Util

/-! The reply codes the server sends, `numeric.rs`. -/
namespace RndRust.Irc.Proto

inductive ReplyCode where
  | rplWelcome | rplYourhost | rplCreated | rplMyinfo | rplIsupport | rplLuserclient
  | rplChannelmodeis | rplNotopic | rplTopic | rplTopicwhotime | rplNamreply | rplEndofnames
  | rplMotd | rplMotdstart | rplEndofmotd | rplYoureoper
  | errNosuchnick | errNosuchchannel | errCannotsendtochan | errUnknowncommand | errNomotd
  | errNonicknamegiven | errErroneusnickname | errNicknameinuse | errNotonchannel
  | errNotregistered | errNeedmoreparams | errAlreadyregistered | errPasswdmismatch
  | errNoprivileges | errChanoprivsneeded | errNooperhost | errUsersdontmatch
  | rplLoggedin | rplSaslsuccess | errSaslfail
  | rplRegVerificationRequired | rplRegSuccess | errRegInvalid | errRegAlreadyExists
  | rplMononline | rplMonoffline | rplMonlist | rplEndofmonlist | errMonlistfull
  deriving DecidableEq, Repr

/-- `ReplyCode::code`. -/
def ReplyCode.code : ReplyCode → UInt16
  | .rplWelcome => 1 | .rplYourhost => 2 | .rplCreated => 3 | .rplMyinfo => 4 | .rplIsupport => 5
  | .rplLuserclient => 251
  | .rplChannelmodeis => 324 | .rplNotopic => 331 | .rplTopic => 332 | .rplTopicwhotime => 333
  | .rplNamreply => 353 | .rplEndofnames => 366
  | .rplMotd => 372 | .rplMotdstart => 375 | .rplEndofmotd => 376 | .rplYoureoper => 381
  | .errNosuchnick => 401 | .errNosuchchannel => 403 | .errCannotsendtochan => 404
  | .errUnknowncommand => 421 | .errNomotd => 422 | .errNonicknamegiven => 431
  | .errErroneusnickname => 432 | .errNicknameinuse => 433 | .errNotonchannel => 442
  | .errNotregistered => 451 | .errNeedmoreparams => 461 | .errAlreadyregistered => 462
  | .errPasswdmismatch => 464 | .errNoprivileges => 481 | .errChanoprivsneeded => 482
  | .errNooperhost => 491 | .errUsersdontmatch => 502
  | .rplLoggedin => 900 | .rplSaslsuccess => 903 | .errSaslfail => 904
  | .rplRegVerificationRequired => 920 | .rplRegSuccess => 921 | .errRegInvalid => 922
  | .errRegAlreadyExists => 923
  | .rplMononline => 730 | .rplMonoffline => 731 | .rplMonlist => 732 | .rplEndofmonlist => 733
  | .errMonlistfull => 734

/-- Every code is written with its three digits. -/
theorem ReplyCode.code_lt (code : ReplyCode) : code.code < 1000 := by
  cases code <;> decide

end RndRust.Irc.Proto
