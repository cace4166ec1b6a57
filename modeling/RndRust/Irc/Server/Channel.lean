import RndRust.Irc.Server.Reply

/-! Channel operations, `handler/channel.rs`: JOIN, PART, TOPIC and the NAMES
replies a join is answered with. -/
namespace RndRust.Irc.Server
open Lib Proto

/-- `is_valid_channel`: a channel sigil and at most 49 more bytes. -/
def isValidChannel (bytes : Bytes) : Bool :=
  bytes.length ≤ 50 &&
    match bytes with
    | [] => false
    | first :: more =>
      (first == 35 || first == 38 || first == plus || first == bang) &&
        more.all fun b =>
          !(b == nul || b == 7 || b == cr || b == lf || b == sp || b == comma || b == colon)

def joinLine (origin chan : Bytes) : Message := userLine origin (ascii "JOIN") ⟨[chan], false⟩

def partLine (origin chan : Bytes) (reason : Option Bytes) : Message :=
  userLine origin (ascii "PART") (match reason with
    | some r => ⟨[chan, r], true⟩
    | none => ⟨[chan], false⟩)

def topicChangeLine (origin chan text : Bytes) : Message :=
  userLine origin (ascii "TOPIC") ⟨[chan, text], true⟩

/-- `send_topic`. -/
def topicReplies (s : ServerState) (nick chan : Bytes) (topic : Topic) : List Message :=
  [numeric s nick .rplTopic [chan] (some topic.text),
    numeric s nick .rplTopicwhotime [chan, topic.setter, decimal topic.setAt] none]

/-- The members shown by NAMES, each with its prefix: those that are live, sorted by
nick. -/
def namesEntries (s : ServerState) (c : Channel) : List Bytes :=
  let entries := c.members.entries.filterMap fun ⟨uid, mode⟩ =>
    (s.user uid).map fun user => (user.nickOrStar, mode)
  (entries.mergeSort fun a b => a.1 ≤ b.1).map fun (nick, mode) => mode.prefixByte.toList ++ nick

/-- `send_names`: one `RPL_NAMREPLY` for the whole channel. -/
def namesReplies (s : ServerState) (nick channel : Bytes) : List Message :=
  match s.channel channel with
  | none => [numericOne s nick .rplEndofnames channel (ascii "End of /NAMES list")]
  | some c =>
    [numeric s nick .rplNamreply [ascii "=", c.name] (some (join [sp] (namesEntries s c))),
      numericOne s nick .rplEndofnames c.name (ascii "End of /NAMES list")]

/-- The mode `join_one` gives a new member: the first one becomes an operator. -/
def Channel.joinMode (c : Channel) : MemberMode :=
  if c.hasOp ∨ c.members.entries ≠ [] then {} else { op := true }

/-- `join_one`. -/
def joinOne (s : ServerState) (uid : UserId) (name : Bytes) : Effect :=
  let c := s.channelOrCreate name
  if c.hasMember uid then { state := s.setChannel name c }
  else
    let c := c.addMember uid c.joinMode
    let s := s.setChannel name c
    let user := s.objects uid
    let topic := match c.topic with
      | some t => topicReplies s user.nickOrStar c.name t
      | none => []
    { state := s
      out := broadcast s c.memberIds (joinLine user.originPrefix c.name) ++
        (topic ++ namesReplies s user.nickOrStar c.name).map fun m => (uid, m) }

/-- One channel of `handle_join`. -/
def joinBody (uid : UserId) (s : ServerState) (raw : Bytes) : Effect :=
  if isValidChannel raw then joinOne s uid raw
  else .reply s uid (numericOne s unregistered .errNosuchchannel raw (ascii "No such channel"))

/-- `handle_join`. The keys are not looked at. -/
def handleJoin (s : ServerState) (uid : UserId) (channels : List Bytes) : Effect :=
  ensureRegistered s uid (.forEach (joinBody uid) s channels)

/-- One channel of `handle_part`. -/
def partBody (uid : UserId) (origin : Bytes) (reason : Option Bytes) (s : ServerState)
    (raw : Bytes) : Effect :=
  match s.channel raw with
  | none => .reply s uid (numericOne s unregistered .errNosuchchannel raw (ascii "No such channel"))
  | some c =>
    if c.hasMember uid then
      let c := c.removeMember uid
      let s := s.setChannel raw c
      { state := s.removeEmptyChannel c.name
        out := broadcast s (c.memberIds ++ [uid]) (partLine origin c.name reason) }
    else
      .reply s uid (numericOne s unregistered .errNotonchannel c.name
        (ascii "You're not on that channel"))

/-- `handle_part`. -/
def handlePart (s : ServerState) (uid : UserId) (channels : List Bytes) (reason : Option Bytes) :
    Effect :=
  ensureRegistered s uid
    (.forEach (partBody uid (s.objects uid).originPrefix reason) s channels)

/-- `handle_topic`: read without a text, write with one. -/
def handleTopic (s : ServerState) (uid : UserId) (out : Outside) (channel : Bytes)
    (newTopic : Option Bytes) : Effect :=
  ensureRegistered s uid <|
    match s.channel channel with
    | none =>
      .reply s uid (numericOne s unregistered .errNosuchchannel channel (ascii "No such channel"))
    | some c =>
      let user := s.objects uid
      match newTopic with
      | none =>
        match c.topic with
        | some t =>
          { state := s, out := (topicReplies s user.nickOrStar c.name t).map fun m => (uid, m) }
        | none =>
          .reply s uid (numericOne s user.nickOrStar .rplNotopic c.name (ascii "No topic is set"))
      | some text =>
        if c.hasMember uid then
          let c := { c with topic := some ⟨text, user.nickOrStar, out.secs⟩ }
          let s := s.setChannel channel c
          { state := s
            out := broadcast s c.memberIds (topicChangeLine user.originPrefix c.name text) }
        else
          .reply s uid (numericOne s unregistered .errNotonchannel c.name
            (ascii "You're not on that channel"))

end RndRust.Irc.Server
