import RndRust.Irc.Server.Capabilities
import RndRust.Irc.Server.Origin

/-! What the channel modes forbid, and when JOIN, TOPIC, PRIVMSG and NOTICE do it nevertheless.
MODE stores every flag; none of the four handlers looks at one. -/
namespace RndRust.Irc.Server
open Lib Proto

namespace Channel

/-- Who brings `keys` may join: the channel is not invite-only, has no other key and is not full. -/
structure Admits (c : Channel) (keys : List Bytes) : Prop where
  anyone : c.modeI = false
  key : ∀ key ∈ c.modeK, key ∈ keys
  room : ∀ limit ∈ c.modeL, c.memberIds.length < limit

instance (c : Channel) (keys : List Bytes) : Decidable (c.Admits keys) :=
  decidable_of_iff (c.modeI = false ∧ c.modeK.all keys.contains ∧ ∀ limit ∈ c.modeL, c.memberIds.length < limit) (by
    rw [Option.all_eq_true]
    simp only [List.contains_iff_mem]
    exact ⟨fun ⟨anyone, key, room⟩ => ⟨anyone, key, room⟩, fun ⟨anyone, key, room⟩ => ⟨anyone, key, room⟩⟩)

def mayTopic (c : Channel) (uid : UserId) : Bool := !c.modeT || c.isOp uid

def isVoiced (c : Channel) (uid : UserId) : Bool := (c.members.lookup uid).any MemberMode.voice

def maySpeak (c : Channel) (uid : UserId) : Bool := !c.modeM || c.isOp uid || c.isVoiced uid

end Channel

/-- The keys that a JOIN brings for the channel under `k`. -/
def keysFor (k : Bytes) : Command → List Bytes
  | .join channels keys => ((channels.zip keys).filter fun pair => fold pair.1 = k).map Prod.snd
  | _ => []

/-- A line that says something. -/
def Spoken (m : Message) : Prop := m.verb = .word (ascii "PRIVMSG") ∨ m.verb = .word (ascii "NOTICE")

/-- What is said on a channel goes to somebody else. -/
def relays (uid : UserId) (c : Channel) (out : Outbox) : Prop :=
  ∃ v m, (v, m) ∈ out ∧ v ≠ uid ∧ Spoken m ∧ m.params.values.head? = some c.name

/-- What a user's command does to a channel is what the channel's modes let it. -/
structure Enforced (s : ServerState) (uid : UserId) (cmd : Command) (e : Effect) : Prop where
  join : ∀ k c d, s.channels.lookup k = some c → e.state.channels.lookup k = some d → ¬ c.hasMember uid →
    d.hasMember uid → c.Admits (keysFor k cmd)
  topic : ∀ k c d, s.channels.lookup k = some c → e.state.channels.lookup k = some d → d.topic ≠ c.topic →
    c.mayTopic uid
  speech : ∀ k c, s.channels.lookup k = some c → relays uid c e.out → c.maySpeak uid

/-- The user does not ask for what a mode forbids. -/
def heeds (s : ServerState) (uid : UserId) (out : Outside) : Command → Prop
  | .join channels keys => ∀ raw ∈ channels, isValidChannel raw → ∀ c ∈ s.channel raw, ¬ c.hasMember uid →
      c.Admits (keysFor (fold raw) (.join channels keys))
  | .topic channel (some text) => ∀ c ∈ s.channel channel, c.hasMember uid →
      c.topic = some ⟨text, (s.objects uid).nickOrStar, out.secs⟩ ∨ c.mayTopic uid
  | .privmsg targets _ | .notice targets _ => ∀ target ∈ targets, isChannelTarget target → ∀ c ∈ s.channel target,
      c.hasMember uid → (∃ v ∈ c.memberIds, v ≠ uid ∧ v ∈ s.users) → c.maySpeak uid
  | _ => True

/-- The channels are named as channels are. -/
def Titled (s : ServerState) : Prop := ∀ k c, s.channels.lookup k = some c → isValidChannel c.name

namespace Titled

variable {s t : ServerState} {uid : UserId} {raw : Bytes} {c : Channel}

theorem setChannel (titled : Titled s) (valid : isValidChannel c.name) : Titled (s.setChannel raw c) := by
  intro k d stored
  simp only [ServerState.setChannel, Table.lookup_insert_eq] at stored
  split at stored
  · cases stored
    exact valid
  · exact titled k d stored

theorem quiet (titled : Titled s) (same : Quiet s t) : Titled t := by
  intro k c stored
  have rosters := same.channels k
  rw [stored, Option.map_some] at rosters
  obtain ⟨before, found, roster⟩ := Option.map_eq_some_iff.mp rosters.symm
  have name : before.name = c.name := congrArg Prod.fst roster
  exact name ▸ titled k before found

theorem join (titled : Titled s) : Titled (joinBody uid s raw).state := by
  rcases joinBody_state s uid raw with ⟨-, same⟩ | ⟨valid, mode, joined⟩
  · rw [same]
    exact titled
  · rw [joined]
    refine titled.setChannel ?_
    have named : isValidChannel (s.channelOrCreate raw).name := by
      unfold ServerState.channelOrCreate
      cases found : s.channel raw with
      | none => exact valid
      | some c => exact titled _ c found
    unfold Channel.addMember
    split <;> exact named

theorem part {origin : Bytes} {reason : Option Bytes} (titled : Titled s) :
    Titled (partBody uid origin reason s raw).state := by
  rcases partBody_state s uid origin reason raw with same | ⟨c, found, parted⟩
  · rw [same]
    exact titled
  · rw [parted]
    have left : Titled (s.setChannel raw (c.removeMember uid)) := titled.setChannel (titled _ c found)
    intro k d stored
    exact left k d (removeEmptyChannel_lookup.mp stored).1

theorem gone (titled : Titled s) (uid : UserId) : Titled ((s.purgeUserFromChannels uid).removeUser uid) := by
  intro k c stored
  rw [(removeUser_rest _ uid).2.1] at stored
  obtain ⟨before, found, rfl, -⟩ := purge_lookup stored
  exact titled k before found

theorem change {cmd : Command} (titled : Titled s) (changed : Change s uid cmd t) : Titled t := by
  cases changed with
  | quiet same => exact titled.quiet same
  | claims ok same =>
    refine Titled.quiet ?_ same
    rcases claimNick_ok ok with ⟨-, rfl⟩ | ⟨-, -, -, -, channels, -⟩
    · exact titled
    · intro k c stored
      exact titled k c (channels ▸ stored)
  | joins => exact Effect.forEach_preserves Titled (fun s raw _ titled => titled.join) titled
  | parts => exact Effect.forEach_preserves Titled (fun s raw _ titled => titled.part) titled
  | kills => exact titled.gone _

theorem moves {a : Action} (titled : Titled s) (moved : Moves s a t) : Titled t := by
  cases moved with
  | accepts host out =>
    rw [acceptUser_state]
    exact titled
  | obeys read handled => exact titled.change (dispatchTyped_change _ _ _ _)
  | cleans uid =>
    unfold Server.cleanup
    split
    · exact titled
    · exact titled.gone uid
  | rests => exact titled

end Titled

theorem reachable_titled {config : Config} {crates : Crates} {srv : Daemon}
    (reached : (server config crates).Reachable srv) : Titled srv.state := by
  refine Machine.Reaches.invariant (fun srv => Titled srv.state) ?_ ?_ reached
  · intro k c stored
    simp [server] at stored
  · intro srv a srv' titled _ taken
    exact titled.moves (Daemon.step_moves taken)

section Silence

variable {s : ServerState} {uid : UserId}

theorem unspoken_numeric {target : Bytes} {code : ReplyCode} {middles : List Bytes} {trailing : Option Bytes} :
    ¬ Spoken (numeric s target code middles trailing) := by
  rintro (said | said) <;> cases said

theorem joinBody_unspoken {raw : Bytes} : ∀ p ∈ (joinBody uid s raw).out, ¬ Spoken p.2 := by
  intro p listed
  unfold joinBody at listed
  split at listed
  · unfold joinOne at listed
    dsimp only at listed
    split at listed
    · cases listed
    · rcases List.mem_append.mp listed with joined | told
      · obtain ⟨v, -, rfl⟩ := List.mem_map.mp joined
        unfold Spoken
        simp only [joinLine, userLine]
        decide
      · obtain ⟨m, reply, rfl⟩ := List.mem_map.mp told
        rcases List.mem_append.mp reply with topic | names
        · split at topic
          · simp only [topicReplies, List.mem_cons, List.not_mem_nil, or_false] at topic
            rcases topic with rfl | rfl <;> exact unspoken_numeric
          · cases topic
        · unfold namesReplies at names
          split at names
          · rw [List.mem_singleton.mp names]
            exact unspoken_numeric
          · simp only [List.mem_cons, List.not_mem_nil, or_false] at names
            rcases names with rfl | rfl <;> exact unspoken_numeric
  · rw [List.mem_singleton.mp listed]
    exact unspoken_numeric

theorem joins_unspoken {channels : List Bytes} :
    ∀ p ∈ (Effect.forEach (joinBody uid) s channels).out, ¬ Spoken p.2 := by
  induction channels generalizing s with
  | nil => simp
  | cons raw channels ih =>
    intro p listed
    rw [Effect.forEach_cons, Effect.andThen_out] at listed
    rcases List.mem_append.mp listed with first | later
    · exact joinBody_unspoken p first
    · exact ih p later

theorem topic_unspoken {out : Outside} {channel : Bytes} {newTopic : Option Bytes} :
    ∀ p ∈ (handleTopic s uid out channel newTopic).out, ¬ Spoken p.2 := by
  intro p listed
  unfold handleTopic ensureRegistered at listed
  split at listed
  · split at listed
    · rw [List.mem_singleton.mp listed]
      exact unspoken_numeric
    · dsimp only at listed
      split at listed
      · split at listed
        · simp only [topicReplies, List.map_cons, List.map_nil, List.mem_cons, List.not_mem_nil, or_false] at listed
          rcases listed with rfl | rfl <;> exact unspoken_numeric
        · rw [List.mem_singleton.mp listed]
          exact unspoken_numeric
      · split at listed
        · obtain ⟨v, -, rfl⟩ := List.mem_map.mp listed
          unfold Spoken
          simp only [topicChangeLine, userLine]
          decide
        · rw [List.mem_singleton.mp listed]
          exact unspoken_numeric
  · rw [List.mem_singleton.mp listed]
    exact unspoken_numeric

end Silence

section Joins

variable {s : ServerState} {uid : UserId} {k : Bytes} {c : Channel}

/-- JOIN puts its user on every channel it names, whatever the modes, and changes nothing else of a channel. -/
theorem joins_lookup (uid : UserId) (channels : List Bytes) (stored : s.channels.lookup k = some c) :
    ∃ d, (Effect.forEach (joinBody uid) s channels).state.channels.lookup k = some d ∧ d.topic = c.topic ∧
      (d.hasMember uid ↔ c.hasMember uid ∨ ∃ raw ∈ channels, isValidChannel raw ∧ fold raw = k) := by
  induction channels generalizing s c with
  | nil => exact ⟨c, stored, rfl, by simp⟩
  | cons raw channels ih =>
    rw [Effect.forEach_cons, Effect.andThen_state]
    rcases joinBody_state s uid raw with ⟨invalid, same⟩ | ⟨valid, mode, joined⟩
    · rw [same]
      obtain ⟨d, after, topic, member⟩ := ih stored
      refine ⟨d, after, topic, member.trans ?_⟩
      simp [invalid]
    · rw [joined]
      by_cases here : fold raw = k
      · subst here
        have existing : s.channelOrCreate raw = c := by simp [ServerState.channelOrCreate, ServerState.channel, stored]
        obtain ⟨d, after, topic, member⟩ := ih (s := s.setChannel raw ((s.channelOrCreate raw).addMember uid mode))
          (c := c.addMember uid mode) (by simp [ServerState.setChannel, existing])
        refine ⟨d, after, topic.trans ?_, member.trans ?_⟩
        · unfold Channel.addMember
          split <;> rfl
        · simp [Channel.hasMember_iff, Channel.memberIds_addMember, valid]
      · obtain ⟨d, after, topic, member⟩ := ih (s := s.setChannel raw ((s.channelOrCreate raw).addMember uid mode))
          (c := c) (by rwa [ServerState.setChannel, Table.lookup_insert_eq, if_neg (Ne.symm here)])
        refine ⟨d, after, topic, member.trans ?_⟩
        simp [here]

theorem join_enforced {out : Outside} {channels keys : List Bytes} (registered : (s.objects uid).registered) :
    Enforced s uid (.join channels keys) (handleJoin s uid channels) ↔ heeds s uid out (.join channels keys) := by
  have run : handleJoin s uid channels = Effect.forEach (joinBody uid) s channels := by
    simp [handleJoin, ensureRegistered, registered]
  rw [run]
  constructor
  · intro enforced raw listed valid c found outside
    obtain ⟨d, after, -, member⟩ := joins_lookup uid channels found
    exact enforced.join (fold raw) c d found after outside (member.mpr (.inr ⟨raw, listed, valid, rfl⟩))
  · intro heeded
    refine ⟨fun k c d stored after outside joined => ?_, fun k c d stored after changed => ?_, fun k c stored relayed => ?_⟩
    · obtain ⟨d', after', -, member⟩ := joins_lookup uid channels stored
      obtain rfl : d = d' := Option.some.inj (after.symm.trans after')
      rcases member.mp joined with before | ⟨raw, listed, valid, rfl⟩
      · exact absurd before outside
      · exact heeded raw listed valid c stored outside
    · obtain ⟨d', after', topic, -⟩ := joins_lookup uid channels stored
      obtain rfl : d = d' := Option.some.inj (after.symm.trans after')
      exact absurd topic changed
    · obtain ⟨v, m, listed, -, spoken, -⟩ := relayed
      exact absurd spoken (joins_unspoken _ listed)

end Joins

section Topics

variable {s : ServerState} {uid : UserId} {out : Outside} {k : Bytes} {c d : Channel}

/-- TOPIC sets the topic of the channel it names for whoever is on it. -/
theorem topic_state (out : Outside) (registered : (s.objects uid).registered) (channel : Bytes) (newTopic : Option Bytes) :
    (∃ text c, newTopic = some text ∧ s.channel channel = some c ∧ c.hasMember uid ∧
      (handleTopic s uid out channel newTopic).state =
        s.setChannel channel { c with topic := some ⟨text, (s.objects uid).nickOrStar, out.secs⟩ }) ∨
    ((∀ text c, newTopic = some text → s.channel channel = some c → ¬ c.hasMember uid) ∧
      (handleTopic s uid out channel newTopic).state = s) := by
  unfold handleTopic ensureRegistered
  rw [if_pos registered]
  cases found : s.channel channel with
  | none => exact .inr ⟨by simp, rfl⟩
  | some c =>
    cases newTopic with
    | none => cases topic : c.topic <;> exact .inr ⟨by simp, by simp [topic]⟩
    | some text =>
      by_cases member : c.hasMember uid
      · exact .inl ⟨text, c, rfl, rfl, member, by simp [member]⟩
      · exact .inr ⟨by simp [member], by simp [member]⟩

theorem topic_enforced {channel : Bytes} {newTopic : Option Bytes} (registered : (s.objects uid).registered) :
    Enforced s uid (.topic channel newTopic) (handleTopic s uid out channel newTopic) ↔
      heeds s uid out (.topic channel newTopic) := by
  have sameMembers : ∀ k c d, s.channels.lookup k = some c →
      (handleTopic s uid out channel newTopic).state.channels.lookup k = some d → d.memberIds = c.memberIds := by
    intro k c d stored after
    have rosters := (handleTopic_quiet s uid out channel newTopic).channels k
    rw [stored, after, Option.map_some, Option.map_some, Option.some.injEq] at rosters
    exact congrArg Prod.snd rosters
  have others : Enforced s uid (.topic channel newTopic) (handleTopic s uid out channel newTopic) ↔
      ∀ k c d, s.channels.lookup k = some c →
        (handleTopic s uid out channel newTopic).state.channels.lookup k = some d → d.topic ≠ c.topic →
        c.mayTopic uid := by
    refine ⟨Enforced.topic, fun topic => ⟨fun k c d stored after outside joined => ?_, topic, fun k c _ relayed => ?_⟩⟩
    · rw [Channel.hasMember_iff] at joined outside
      exact absurd (sameMembers k c d stored after ▸ joined) outside
    · obtain ⟨v, m, listed, -, spoken, -⟩ := relayed
      exact absurd spoken (topic_unspoken _ listed)
  rw [others]
  rcases topic_state out registered channel newTopic with ⟨text, c, rfl, found, member, state⟩ | ⟨kept, state⟩
  · rw [state]
    constructor
    · intro allowed c' found' _
      obtain rfl : c = c' := Option.some.inj (found.symm.trans found')
      by_cases same : c.topic = some ⟨text, (s.objects uid).nickOrStar, out.secs⟩
      · exact .inl same
      · exact .inr (allowed (fold channel) c _ found (by simp [ServerState.setChannel]; rfl) (Ne.symm same))
    · intro heeded k c' d stored after changed
      rw [ServerState.setChannel, Table.lookup_insert_eq] at after
      split at after
      · rename_i here
        subst here
        obtain rfl : c = c' := Option.some.inj (found.symm.trans stored)
        cases after
        exact (heeded c found member).resolve_left (Ne.symm changed)
      · exact absurd (congrArg Channel.topic (Option.some.inj (after.symm.trans stored))) changed
  · rw [state]
    refine ⟨fun _ => ?_, fun _ k c d stored after changed => ?_⟩
    · cases newTopic with
      | none => trivial
      | some text => exact fun c found member => absurd member (kept text c rfl found)
    · exact absurd (congrArg Channel.topic (Option.some.inj (after.symm.trans stored))) changed

end Topics

section Chats

variable {s : ServerState} {uid : UserId} {out : Outside} {k origin text verb target : Bytes} {c : Channel} {emit : Bool}

theorem isValidNick_noChannel {nick : Bytes} (valid : isValidNick nick) : ¬ isChannelTarget nick := by
  cases nick with
  | nil => exact Bool.false_ne_true
  | cons first more =>
    intro sigil
    simp only [isChannelTarget, List.head?_cons, Option.any_some, Bool.or_eq_true, beq_iff_eq, or_assoc] at sigil
    simp only [isValidNick, Bool.and_eq_true] at valid
    obtain ⟨-, special, -⟩ := valid
    rcases sigil with rfl | rfl | rfl | rfl <;> cases special

theorem isValidChannel_sigil {name : Bytes} (valid : isValidChannel name) : isChannelTarget name := by
  unfold isValidChannel at valid
  cases name with
  | nil => simp at valid
  | cons first more =>
    simp only [Bool.and_eq_true] at valid
    simpa [isChannelTarget] using valid.2.1

@[simp] theorem maybeAddTime_params {user : UserInner} {m : Message} : (maybeAddTime out user m).params = m.params := by
  unfold maybeAddTime
  split <;> rfl

theorem emitError_self {m : Message} {p : UserId × Message} (listed : p ∈ emitError emit uid m) : p.1 = uid := by
  unfold emitError at listed
  split at listed
  · rw [List.mem_singleton.mp listed]
  · cases listed

/-- What is said on a channel is relayed to whoever else is there, for every user that is on it. -/
theorem deliverTo_relays (spoken : verb = ascii "PRIVMSG" ∨ verb = ascii "NOTICE") (sound : Sound s) (titled : Titled s)
    (named : ∀ uid, Named (s.objects uid)) (stored : s.channels.lookup k = some c) :
    relays uid c (deliverTo s uid out origin text verb emit target) ↔
      isChannelTarget target ∧ fold target = k ∧ c.hasMember uid ∧ ∃ v ∈ c.memberIds, v ≠ uid ∧ v ∈ s.users := by
  constructor
  · rintro ⟨v, m, listed, other, -, head⟩
    unfold deliverTo at listed
    split at listed
    · rename_i isChannel
      unfold deliverToChannel at listed
      split at listed
      · exact absurd (emitError_self listed) other
      · rename_i c' found
        dsimp only at listed
        split at listed
        · rename_i member
          rcases List.mem_append.mp listed with others | echo
          · obtain ⟨w, heard, same⟩ := List.mem_map.mp others
            obtain ⟨rfl, rfl⟩ := Prod.mk.inj same
            simp only [List.mem_filter, decide_eq_true_eq] at heard
            have name : c'.name = c.name := Option.some.inj head
            have here : fold target = k := by
              rw [← sound.channelKey _ c' found, name, sound.channelKey k c stored]
            subst here
            obtain rfl : c' = c := Option.some.inj (found.symm.trans stored)
            exact ⟨isChannel, rfl, member, w, heard.1.1, heard.1.2, heard.2⟩
          · split at echo
            · exact absurd (congrArg Prod.fst (List.mem_singleton.mp echo)) other
            · cases echo
        · exact absurd (emitError_self listed) other
    · rename_i noChannel
      unfold deliverToUser at listed
      split at listed
      · exact absurd (emitError_self listed) other
      · rename_i recipient known
        obtain ⟨rfl, rfl⟩ := Prod.mk.inj (List.mem_singleton.mp listed)
        simp only [maybeAddTime_params, messageLine, userLine, List.head?_cons, Option.some.injEq] at head
        have sigil : isChannelTarget c.name := isValidChannel_sigil (titled k c stored)
        cases isNick : (s.objects v).nick with
        | none =>
          rw [isNick, Option.getD_none] at head
          exact absurd (head ▸ sigil) noChannel
        | some nick =>
          rw [isNick, Option.getD_some] at head
          exact absurd (head ▸ sigil) (isValidNick_noChannel ((named v).nick nick isNick))
  · rintro ⟨isChannel, rfl, member, v, listed, other, live⟩
    refine ⟨v, messageLine origin verb c.name text, ?_, other, ?_, rfl⟩
    · have found : s.channel target = some c := stored
      have heard : (v, messageLine origin verb c.name text) ∈
          broadcast s (c.memberIds.filter (· ≠ uid)) (messageLine origin verb c.name text) :=
        List.mem_map.mpr ⟨v, by simp [listed, other, live], rfl⟩
      simp only [deliverTo, isChannel, if_true, deliverToChannel, found, member]
      exact List.mem_append_left _ heard
    · rcases spoken with rfl | rfl
      · exact .inl rfl
      · exact .inr rfl

theorem relays_flatMap {targets : List Bytes} {part : Bytes → Outbox} :
    relays uid c (targets.flatMap part) ↔ ∃ target ∈ targets, relays uid c (part target) := by
  simp only [relays, List.mem_flatMap]
  constructor
  · rintro ⟨v, m, ⟨target, named, listed⟩, rest⟩
    exact ⟨target, named, v, m, listed, rest⟩
  · rintro ⟨target, named, v, m, listed, rest⟩
    exact ⟨v, m, ⟨target, named, listed⟩, rest⟩

theorem chat_enforced {cmd : Command} {targets : List Bytes} (out : Outside) (sound : Sound s) (titled : Titled s)
    (named : ∀ uid, Named (s.objects uid)) (spoken : verb = ascii "PRIVMSG" ∨ verb = ascii "NOTICE") :
    Enforced s uid cmd { state := s, out := targets.flatMap (deliverTo s uid out origin text verb emit) } ↔
      ∀ target ∈ targets, isChannelTarget target → ∀ c ∈ s.channel target, c.hasMember uid →
        (∃ v ∈ c.memberIds, v ≠ uid ∧ v ∈ s.users) → c.maySpeak uid := by
  constructor
  · intro enforced target listed isChannel c found member heard
    refine enforced.speech (fold target) c found (relays_flatMap.mpr ⟨target, listed, ?_⟩)
    exact (deliverTo_relays spoken sound titled named found).mpr ⟨isChannel, rfl, member, heard⟩
  · intro heeded
    refine ⟨fun k c d stored after outside joined => ?_, fun k c d stored after changed => ?_, fun k c stored relayed => ?_⟩
    · obtain rfl : c = d := Option.some.inj (stored.symm.trans after)
      exact absurd joined outside
    · obtain rfl : c = d := Option.some.inj (stored.symm.trans after)
      exact absurd rfl changed
    · obtain ⟨target, listed, relayed⟩ := relays_flatMap.mp relayed
      obtain ⟨isChannel, rfl, member, heard⟩ := (deliverTo_relays spoken sound titled named stored).mp relayed
      exact heeded target listed isChannel c stored member heard

end Chats

/-- **The channel modes are enforced exactly where nobody asks for what they forbid**: a user who joins
past one, writes a topic or speaks against one succeeds. -/
theorem modes_enforced_iff {config : Config} {crates : Crates} {srv : Daemon} {uid : UserId} {line : Bytes}
    {flooded : Bool} {out : Outside} {cmd : Command} (reached : (server config crates).Reachable srv)
    (read : lineCommand line = some cmd) (handled : handles srv.state uid flooded)
    (registered : (srv.state.objects uid).registered)
    (kind : (∃ channels keys, cmd = .join channels keys) ∨ (∃ channel text, cmd = .topic channel text) ∨
      ∃ targets text, cmd = .privmsg targets text ∨ cmd = .notice targets text) :
    Enforced srv.state uid cmd (srv.effect (.receive uid line flooded out)) ↔ heeds srv.state uid out cmd := by
  rw [Daemon.effect_obeys read handled]
  have sound := reachable_sound reached
  have titled := reachable_titled reached
  have named := reachable_named reached
  rcases kind with ⟨channels, keys, rfl⟩ | ⟨channel, text, rfl⟩ | ⟨targets, text, rfl | rfl⟩
  · exact join_enforced registered
  · exact topic_enforced registered
  · simpa [dispatchTyped, handlePrivmsg, deliver, registered, heeds] using
      chat_enforced out sound titled named (.inl rfl)
  · simpa [dispatchTyped, handleNotice, deliver, registered, heeds] using
      chat_enforced out sound titled named (.inr rfl)

/-- An operator sets the topic. -/
theorem modes_enforced_topic : ∃ srv, exampleServer.Reachable srv ∧
    (Enforced srv.state 1 (.topic (ascii "#c") (some (ascii "hi"))) (srv.effect (sends 1 "TOPIC #c hi")) ↔
      heeds srv.state 1 {} (.topic (ascii "#c") (some (ascii "hi")))) ∧
    heeds srv.state 1 {} (.topic (ascii "#c") (some (ascii "hi"))) := by
  obtain ⟨srv, reached, ⟨registered, handled⟩, op⟩ := Machine.Reachable.of_trace exampleServer
    (registers 1 "alice" ++ [sends 1 "JOIN #c"])
    (fun srv => ((srv.state.objects 1).registered ∧ handles srv.state 1 false) ∧
      ∀ c ∈ srv.state.channel (ascii "#c"), c.mayTopic 1) (by decide +kernel)
  have read : lineCommand (ascii "TOPIC #c hi") = some (.topic (ascii "#c") (some (ascii "hi"))) := by decide +kernel
  refine ⟨srv, reached, ?_, fun c found _ => .inr (op c found)⟩
  exact modes_enforced_iff reached read handled registered (.inr (.inl ⟨_, _, rfl⟩))

/-- A user joins a channel that is invite-only. -/
theorem modes_enforced_fails : ∃ srv, exampleServer.Reachable srv ∧ (srv.state.objects 2).registered ∧
    handles srv.state 2 false ∧ lineCommand (ascii "JOIN #c") = some (.join [ascii "#c"] []) ∧
    ¬ Enforced srv.state 2 (.join [ascii "#c"] []) (srv.effect (sends 2 "JOIN #c")) := by
  obtain ⟨srv, reached, ⟨registered, handled⟩, closed, entered⟩ := Machine.Reachable.of_trace exampleServer
    (registers 1 "alice" ++ registers 2 "bob" ++ [sends 1 "JOIN #c", sends 1 "MODE #c +i"])
    (fun srv => ((srv.state.objects 2).registered ∧ handles srv.state 2 false) ∧
      (srv.state.channels.lookup (ascii "#c")).any (fun c => c.modeI ∧ ¬ c.hasMember 2) ∧
      ((srv.effect (sends 2 "JOIN #c")).state.channels.lookup (ascii "#c")).any (·.hasMember 2)) (by decide +kernel)
  refine ⟨srv, reached, registered, handled, by decide +kernel, fun enforced => ?_⟩
  obtain ⟨c, stored, invited⟩ := (Option.any_eq_true _ _).mp closed
  obtain ⟨d, after, member⟩ := (Option.any_eq_true _ _).mp entered
  obtain ⟨modeI, outside⟩ := of_decide_eq_true invited
  have admitted := enforced.join (ascii "#c") c d stored after outside member
  rw [admitted.anyone] at modeI
  cases modeI

end RndRust.Irc.Server
