import RndRust.Irc.Server.Steps

/-! What `server-time` and `echo-message` do to PRIVMSG and NOTICE. A channel message goes out as one
line for all; the copy for the sender, and a message for one user, are made for their recipient. -/
namespace RndRust.Irc.Server
open Lib Proto

/-- The message has a `time` tag. -/
def stamped (m : Message) : Bool := m.tags.any fun tag => tag.key = ⟨false, ascii "time"⟩

/-- The copies of a message for one user; error replies are none. -/
def copiesTo (v : UserId) (verb : Bytes) (out : Outbox) : List Message :=
  (mailFor v out).filter fun m => m.verb = .word verb

/-- Whom a target that is no channel reaches. -/
def addressee (s : ServerState) (target : Bytes) : Option UserId :=
  if isChannelTarget target then none else s.userByNick target

/-- The target is a channel that the sender is on. -/
def onTarget (s : ServerState) (uid : UserId) (target : Bytes) : Bool :=
  isChannelTarget target && (s.channel target).any (·.hasMember uid)

/-- Every copy is stamped as its recipient asked, and the sender gets what it asked for. -/
structure TakesEffect (s : ServerState) (uid : UserId) (verb target : Bytes) (part : Outbox) : Prop where
  time : ∀ v, ∀ m ∈ copiesTo v verb part, stamped m ↔ .serverTime ∈ (s.objects v).caps
  back : (copiesTo uid verb part).length =
    if addressee s target = some uid ∨ (onTarget s uid target ∨ (addressee s target).isSome) ∧
      .echoMessage ∈ (s.objects uid).caps then 1 else 0

/-- The same, where a copy is made for its recipient, and the sender gets its channel messages. -/
structure TakesEffectAlone (s : ServerState) (uid : UserId) (verb target : Bytes) (part : Outbox) : Prop where
  time : ∀ v, v = uid ∨ ¬ isChannelTarget target → ∀ m ∈ copiesTo v verb part,
    stamped m ↔ .serverTime ∈ (s.objects v).caps
  back : (copiesTo uid verb part).length =
    if addressee s target = some uid ∨ onTarget s uid target ∧ .echoMessage ∈ (s.objects uid).caps then 1 else 0

/-- The verb of the lines that a command is relayed as. -/
def chatVerb : Command → Bytes
  | .privmsg _ _ => ascii "PRIVMSG"
  | .notice _ _ => ascii "NOTICE"
  | _ => []

/-- What PRIVMSG or NOTICE sends for one of its targets. -/
def relayed (s : ServerState) (uid : UserId) (out : Outside) : Command → Bytes → Outbox
  | .privmsg _ text => deliverTo s uid out (s.objects uid).originPrefix text (ascii "PRIVMSG") true
  | .notice _ text => deliverTo s uid out (s.objects uid).originPrefix text (ascii "NOTICE") false
  | _ => fun _ => []

section Copies

variable {s : ServerState} {uid v : UserId} {verb target origin text : Bytes} {m : Message} {out : Outside}
  {first later : Outbox} {user : UserInner}

@[simp] theorem copiesTo_nil : copiesTo v verb [] = [] := rfl

@[simp] theorem copiesTo_append : copiesTo v verb (first ++ later) = copiesTo v verb first ++ copiesTo v verb later := by
  simp [copiesTo, mailFor]

theorem copiesTo_single : copiesTo v verb [(uid, m)] = if uid = v ∧ m.verb = .word verb then [m] else [] := by
  by_cases here : uid = v <;> by_cases chat : m.verb = .word verb <;> simp [copiesTo, mailFor, here, chat]

@[simp] theorem copiesTo_emitError {code : ReplyCode} {middles : List Bytes} {trailing : Option Bytes} (emit : Bool)
    (nick : Bytes) : copiesTo v verb (emitError emit uid (numeric s nick code middles trailing)) = [] := by
  unfold emitError
  split
  · simp [copiesTo_single, numeric]
  · rfl

/-- Nobody gets a copy but whom it is for. -/
theorem copiesTo_broadcast_other {recipients : List UserId} (other : v ∉ recipients) :
    copiesTo v verb (broadcast s recipients m) = [] := by
  have none : mailFor v (broadcast s recipients m) = [] := by
    simp only [mailFor, broadcast, List.map_eq_nil_iff, List.filter_eq_nil_iff, List.forall_mem_map, decide_eq_true_eq]
    rintro w listed rfl
    exact other (List.mem_filter.mp listed).1
  rw [copiesTo, none]
  rfl

@[simp] theorem maybeAddTime_verb : (maybeAddTime out user m).verb = m.verb := by
  unfold maybeAddTime
  split <;> rfl

theorem stamped_maybeAddTime (plain : m.tags = []) : stamped (maybeAddTime out user m) ↔ .serverTime ∈ user.caps := by
  unfold maybeAddTime
  split
  · rename_i enabled
    simpa [stamped, serverTimeTags] using enabled
  · rename_i disabled
    simpa [stamped, plain] using disabled

end Copies

section Targets

variable (s : ServerState) (uid : UserId) (out : Outside) (origin text verb target : Bytes) (emit : Bool)

theorem deliverToChannel_takesEffect (isChannel : isChannelTarget target) :
    TakesEffectAlone s uid verb target (deliverToChannel s uid out origin target text verb emit) := by
  have nobody : addressee s target ≠ some uid := by simp [addressee, isChannel]
  have refused : ¬ onTarget s uid target → TakesEffectAlone s uid verb target [] := by
    intro absent
    exact ⟨by simp, by simp [nobody, absent]⟩
  unfold deliverToChannel
  split
  · rename_i missing
    have none := refused (by simp [onTarget, missing])
    exact ⟨by simp [numericOne], by simpa [numericOne] using none.back⟩
  · rename_i c found
    dsimp only
    split
    · rename_i member
      have on : onTarget s uid target := by simp [onTarget, isChannel, found, member]
      have apart : copiesTo uid verb (broadcast s (c.memberIds.filter (· ≠ uid)) (messageLine origin verb c.name text)) = [] :=
        copiesTo_broadcast_other (by simp)
      by_cases echo : Cap.echoMessage ∈ (s.objects uid).caps
      · refine ⟨?_, ?_⟩
        · rintro v (rfl | noChannel) m copy
          · rw [if_pos echo, copiesTo_append, apart, copiesTo_single] at copy
            simp only [maybeAddTime_verb, messageLine, userLine, and_self, if_true, List.nil_append,
              List.mem_singleton] at copy
            rw [copy]
            exact stamped_maybeAddTime rfl
          · exact absurd isChannel noChannel
        · rw [if_pos echo, copiesTo_append, apart, copiesTo_single]
          simp [echo, on, messageLine, userLine]
      · refine ⟨?_, ?_⟩
        · rintro v (rfl | noChannel) m copy
          · rw [if_neg echo, List.append_nil, apart] at copy
            cases copy
          · exact absurd isChannel noChannel
        · rw [if_neg echo, List.append_nil, apart]
          simp [echo, nobody]
    · rename_i outside
      have none := refused (by simp [onTarget, found, outside])
      exact ⟨by simp [numericOne], by simpa [numericOne] using none.back⟩

theorem deliverToUser_takesEffect (noChannel : ¬ isChannelTarget target) :
    TakesEffectAlone s uid verb target (deliverToUser s uid out origin target text verb emit) := by
  have off : ¬ onTarget s uid target := by simp [onTarget, noChannel]
  unfold deliverToUser
  split
  · rename_i unknown
    exact ⟨by simp [numericOne], by simp [numericOne, off, addressee, noChannel, unknown]⟩
  · rename_i recipient known
    dsimp only
    refine ⟨fun v _ m copy => ?_, ?_⟩
    · rw [copiesTo_single] at copy
      split at copy
      · rename_i here
        rw [List.mem_singleton.mp copy, ← here.1]
        exact stamped_maybeAddTime rfl
      · cases copy
    · by_cases self : recipient = uid
      · simp [copiesTo_single, addressee, noChannel, known, self, messageLine, userLine]
      · simp [copiesTo_single, addressee, noChannel, known, self, off]

theorem deliverTo_takesEffect : TakesEffectAlone s uid verb target (deliverTo s uid out origin text verb emit target) := by
  unfold deliverTo
  split
  · exact deliverToChannel_takesEffect s uid out origin text verb target emit ‹_›
  · exact deliverToUser_takesEffect s uid out origin text verb target emit ‹_›

end Targets

/-- **Capabilities take effect on the copies that are made for one recipient**, target by target:
on a message for a user and on what comes back to its sender from a channel. -/
theorem caps_take_effect {srv : Daemon} {uid : UserId} {line : Bytes} {flooded : Bool} {out : Outside} {cmd : Command}
    {targets : List Bytes} {text : Bytes} (read : lineCommand line = some cmd)
    (chat : cmd = .privmsg targets text ∨ cmd = .notice targets text) (handled : handles srv.state uid flooded)
    (registered : (srv.state.objects uid).registered) :
    (srv.effect (.receive uid line flooded out)).out = targets.flatMap (relayed srv.state uid out cmd) ∧
      ∀ target ∈ targets,
        TakesEffectAlone srv.state uid (chatVerb cmd) target (relayed srv.state uid out cmd target) := by
  rw [Daemon.effect_obeys read handled]
  rcases chat with rfl | rfl
  · refine ⟨?_, fun target _ => deliverTo_takesEffect srv.state uid out _ text _ target true⟩
    simp [dispatchTyped, handlePrivmsg, deliver, registered, relayed]
  · refine ⟨?_, fun target _ => deliverTo_takesEffect srv.state uid out _ text _ target false⟩
    simp [dispatchTyped, handleNotice, deliver, registered, relayed]

/-- Two users, the first of which has asked for echoes and the second for times. -/
def negotiated : List Action :=
  registers 1 "alice" ++ registers 2 "bob" ++ [sends 1 "CAP REQ :echo-message", sends 2 "CAP REQ :server-time"]

/-- A message for one user, which has asked for times. -/
theorem caps_take_effect_negotiated : ∃ srv, exampleServer.Reachable srv ∧ (srv.state.objects 1).registered ∧
    (srv.effect (sends 1 "PRIVMSG bob :hi")).out =
      [ascii "bob"].flatMap (relayed srv.state 1 {} (.privmsg [ascii "bob"] (ascii "hi"))) ∧
    ∀ target ∈ [ascii "bob"], TakesEffectAlone srv.state 1 (ascii "PRIVMSG") target
      (relayed srv.state 1 {} (.privmsg [ascii "bob"] (ascii "hi")) target) := by
  obtain ⟨srv, reached, registered, handled⟩ := Machine.Reachable.of_trace exampleServer negotiated
    (fun srv => (srv.state.objects 1).registered ∧ handles srv.state 1 false) (by decide +kernel)
  have read : lineCommand (ascii "PRIVMSG bob :hi") = some (.privmsg [ascii "bob"] (ascii "hi")) := by decide +kernel
  exact ⟨srv, reached, registered, caps_take_effect read (.inl rfl) handled registered⟩

/-- A message for one user is not echoed. -/
theorem caps_take_effect_fails : ∃ srv, exampleServer.Reachable srv ∧ (srv.state.objects 1).registered ∧
    handles srv.state 1 false ∧
    lineCommand (ascii "PRIVMSG bob :hi") = some (.privmsg [ascii "bob"] (ascii "hi")) ∧
    ¬ TakesEffect srv.state 1 (ascii "PRIVMSG") (ascii "bob")
      (relayed srv.state 1 {} (.privmsg [ascii "bob"] (ascii "hi")) (ascii "bob")) := by
  obtain ⟨srv, reached, ⟨registered, handled⟩, silent⟩ := Machine.Reachable.of_trace exampleServer negotiated
    (fun srv => ((srv.state.objects 1).registered ∧ handles srv.state 1 false) ∧
      (copiesTo 1 (ascii "PRIVMSG") (relayed srv.state 1 {} (.privmsg [ascii "bob"] (ascii "hi")) (ascii "bob"))).length ≠
        if addressee srv.state (ascii "bob") = some 1 ∨
          (onTarget srv.state 1 (ascii "bob") ∨ (addressee srv.state (ascii "bob")).isSome) ∧
            .echoMessage ∈ (srv.state.objects 1).caps then 1 else 0) (by decide +kernel)
  exact ⟨srv, reached, registered, handled, by decide +kernel, fun effect => silent effect.back⟩

end RndRust.Irc.Server
