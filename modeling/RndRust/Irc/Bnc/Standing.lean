import RndRust.Irc.Bnc.Upstream
import RndRust.Irc.Proto.Casemap

/-! Which channels our nick is on, and which nick that is: what an upstream's messages say about it,
beside what `process_incoming` makes of them. -/
namespace RndRust.Irc.Bnc
open Lib Proto

/-- Our nick, and the folded names of the channels it is on. -/
structure Standing where
  nick : Bytes
  channels : List Bytes := []
  deriving DecidableEq, Repr

/-- The message comes from whoever has this nick. -/
def isFrom (cm : Casemap) (nick : Bytes) (msg : Message) : Bool :=
  match msg.pfx with
  | some (.user origin _ _) => cm.eqBytes origin nick
  | _ => false

def isKick (word : Bytes) : Bool := toAsciiUppercase word = ascii "KICK"

/-- Who is kicked from where: all from one channel, or each from their own. -/
def kicks (params : Params) : List (Bytes × Bytes) :=
  match params.values with
  | channels :: users :: _ =>
    match splitCommas channels with
    | [ch] => (splitCommas users).map fun user => (ch, user)
    | channels => channels.zip (splitCommas users)
  | _ => []

/-- The folded names of the channels that a nick is kicked from. -/
def kickedFrom (cm : Casemap) (nick : Bytes) (params : Params) : List Bytes :=
  ((kicks params).filter fun kick => cm.eqBytes kick.2 nick).map fun kick => cm.fold kick.1

/-- The names besides those that are gone. -/
def without (names gone : List Bytes) : List Bytes := names.filter fun ch => !gone.contains ch

/-- A new connection is on no channel. -/
def Standing.reconnect (st : Standing) : Standing := { st with channels := [] }

/-- What a message of the server says about us. -/
def Standing.hear (cm : Casemap) (st : Standing) (msg : Message) : Standing :=
  match Command.parse msg with
  | .ok (.numeric code params) => if code = 1 then { st with nick := params.values[0]?.getD st.nick } else st
  | .ok (.nick new) => if isFrom cm st.nick msg then { st with nick := new } else st
  | .ok (.join channels _) =>
    if isFrom cm st.nick msg then { st with channels := st.channels ++ channels.map cm.fold } else st
  | .ok (.part channels _) =>
    if isFrom cm st.nick msg then { st with channels := without st.channels (channels.map cm.fold) } else st
  | .ok (.quit _) => if isFrom cm st.nick msg then st.reconnect else st
  | .ok (.unknown word params) =>
    if isKick word then { st with channels := without st.channels (kickedFrom cm st.nick params) } else st
  | _ => st

/-- The state of an upstream, beside what its messages say. -/
structure Followed where
  state : UpstreamState
  standing : Standing

inductive UpstreamAction where
  /-- `run` connects. -/
  | connect
  /-- `process_incoming`. -/
  | receive (m : Incoming) (now : Bytes)
  deriving DecidableEq, Repr

def Followed.step (cm : Casemap) (s : Followed) : UpstreamAction → Option Followed
  | .connect => some { s with standing := s.standing.reconnect }
  | .receive m now => some ⟨(processIncoming s.state now m).1, s.standing.hear cm m.msg⟩

/-- An upstream over any number of connections. -/
def upstream (cm : Casemap) (nick : Bytes) : Machine Followed UpstreamAction where
  initial := ⟨{ nick }, { nick }⟩
  step := Followed.step cm

/-- The folded names are those of the joined channels. -/
def Spells (cm : Casemap) (joined names : List Bytes) : Prop := ∀ k, k ∈ names ↔ ∃ ch ∈ joined, cm.fold ch = k

/-- The state says what the messages do, up to the case of a channel's name. -/
structure Followed.Agrees (cm : Casemap) (s : Followed) : Prop where
  nick : s.state.nick = s.standing.nick
  channels : Spells cm s.state.joinedChannels s.standing.channels

namespace UpstreamState

/-- Some spelling of the channel is joined. -/
def hasJoined (cm : Casemap) (state : UpstreamState) (channel : Bytes) : Bool :=
  state.joinedChannels.any fun ch => cm.fold ch = cm.fold channel

/-- What a message may say without `process_incoming` going wrong over it. -/
def heeds (cm : Casemap) (state : UpstreamState) (msg : Message) : Bool :=
  match Command.parse msg with
  | .ok (.numeric code params) => code ≠ 1 || params.values[0]?.getD state.nick = state.nick
  | .ok (.nick new) => !isFrom cm state.nick msg || new = state.nick
  | .ok (.join channels _) => isFrom cm state.nick msg || channels.all (state.hasJoined cm)
  | .ok (.part channels _) =>
    -- Of our own, every spelling of the channel; of another, none that has no other beside it.
    state.joinedChannels.all fun ch =>
      if isFrom cm state.nick msg then !(channels.map cm.fold).contains (cm.fold ch) || channels.contains ch
      else !channels.contains ch ||
        state.joinedChannels.any fun other => !channels.contains other && cm.fold other = cm.fold ch
  | .ok (.quit _) => !isFrom cm state.nick msg || state.joinedChannels = []
  | .ok (.unknown word params) =>
    !isKick word || state.joinedChannels.all fun ch => !(kickedFrom cm state.nick params).contains (cm.fold ch)
  | _ => true

end UpstreamState

/-- A connection is made while no channel is held to be joined, and messages are heeded. -/
def Followed.Undisturbed (cm : Casemap) (s : Followed) : UpstreamAction → Prop
  | .connect => s.state.joinedChannels = []
  | .receive m _ => s.state.heeds cm m.msg

instance (cm : Casemap) (s : Followed) : ∀ a, Decidable (s.Undisturbed cm a)
  | .connect => inferInstanceAs (Decidable (s.state.joinedChannels = []))
  | .receive m _ => inferInstanceAs (Decidable (s.state.heeds cm m.msg = true))

section Spelling

variable {cm : Casemap} {joined names channels gone : List Bytes}

theorem mem_without {ch : Bytes} : ch ∈ without names gone ↔ ch ∈ names ∧ ch ∉ gone := by
  simp [without]

theorem spells_nil : Spells cm joined [] ↔ joined = [] := by
  constructor
  · intro spells
    refine List.eq_nil_iff_forall_not_mem.mpr fun ch listed => ?_
    exact absurd ((spells (cm.fold ch)).mpr ⟨ch, listed, rfl⟩) List.not_mem_nil
  · rintro rfl k
    simp

theorem Spells.join (spells : Spells cm joined names) :
    Spells cm (joined ∪ channels) (names ++ channels.map cm.fold) := by
  intro k
  rw [List.mem_append, spells k, List.mem_map]
  simp only [List.mem_union_iff, or_and_right, exists_or]

/-- Channels that another joins have to be joined already. -/
theorem Spells.join_other (spells : Spells cm joined names) :
    Spells cm (joined ∪ channels) names ↔ ∀ ch ∈ channels, ∃ c ∈ joined, cm.fold c = cm.fold ch := by
  constructor
  · intro after ch listed
    exact (spells _).mp ((after _).mpr ⟨ch, List.mem_union_iff.mpr (.inr listed), rfl⟩)
  · intro known k
    rw [spells k]
    constructor
    · rintro ⟨ch, listed, rfl⟩
      exact ⟨ch, List.mem_union_iff.mpr (.inl listed), rfl⟩
    · rintro ⟨ch, listed, rfl⟩
      rcases List.mem_union_iff.mp listed with before | new
      · exact ⟨ch, before, rfl⟩
      · exact known ch new

/-- What is left has to be left in every spelling. -/
theorem Spells.part (spells : Spells cm joined names) :
    Spells cm (joined.filter (· ∉ channels)) (without names (channels.map cm.fold)) ↔
      ∀ ch ∈ joined, cm.fold ch ∈ channels.map cm.fold → ch ∈ channels := by
  constructor
  · intro after ch listed left
    by_contra stays
    have still := (after (cm.fold ch)).mpr ⟨ch, by simp [listed, stays], rfl⟩
    exact (mem_without.mp still).2 left
  · intro exact k
    simp only [List.mem_filter, decide_eq_true_eq]
    rw [mem_without, spells k]
    constructor
    · rintro ⟨⟨ch, listed, rfl⟩, stays⟩
      exact ⟨ch, ⟨listed, fun left => stays (List.mem_map_of_mem left)⟩, rfl⟩
    · rintro ⟨ch, ⟨listed, stays⟩, rfl⟩
      exact ⟨⟨ch, listed, rfl⟩, fun left => stays (exact ch listed left)⟩

/-- What another leaves has to be joined in a spelling besides. -/
theorem Spells.part_other (spells : Spells cm joined names) :
    Spells cm (joined.filter (· ∉ channels)) names ↔
      ∀ ch ∈ joined, ch ∈ channels → ∃ other ∈ joined, other ∉ channels ∧ cm.fold other = cm.fold ch := by
  constructor
  · intro after ch listed left
    obtain ⟨other, stays, same⟩ := (after (cm.fold ch)).mp ((spells _).mpr ⟨ch, listed, rfl⟩)
    simp only [List.mem_filter, decide_eq_true_eq] at stays
    exact ⟨other, stays.1, stays.2, same⟩
  · intro beside k
    rw [spells k]
    simp only [List.mem_filter, decide_eq_true_eq]
    constructor
    · rintro ⟨ch, listed, rfl⟩
      by_cases left : ch ∈ channels
      · obtain ⟨other, stays, unnamed, same⟩ := beside ch listed left
        exact ⟨other, ⟨stays, unnamed⟩, same⟩
      · exact ⟨ch, ⟨listed, left⟩, rfl⟩
    · rintro ⟨ch, ⟨listed, -⟩, rfl⟩
      exact ⟨ch, listed, rfl⟩

/-- Names can go unnoticed when nothing is joined under them. -/
theorem Spells.kick (spells : Spells cm joined names) :
    Spells cm joined (without names gone) ↔ ∀ ch ∈ joined, cm.fold ch ∉ gone := by
  constructor
  · intro after ch listed
    have still := (after (cm.fold ch)).mpr ⟨ch, listed, rfl⟩
    exact (mem_without.mp still).2
  · intro untouched k
    rw [mem_without, spells k]
    constructor
    · exact And.left
    · rintro ⟨ch, listed, rfl⟩
      exact ⟨⟨ch, listed, rfl⟩, untouched ch listed⟩

end Spelling

section Steps

variable {cm : Casemap} {s t : Followed} {m : Incoming} {now nick : Bytes}

theorem Followed.agrees_iff :
    s.Agrees cm ↔ s.state.nick = s.standing.nick ∧ Spells cm s.state.joinedChannels s.standing.channels :=
  ⟨fun agrees => ⟨agrees.nick, agrees.channels⟩, fun both => ⟨both.1, both.2⟩⟩

/-- `process_incoming` never changes the nick. -/
theorem nick_processIncoming {state : UpstreamState} : (processIncoming state now m).1.nick = state.nick := by
  unfold processIncoming
  split
  any_goals rfl
  split <;> rfl

theorem UpstreamState.hasJoined_iff {state : UpstreamState} {channel : Bytes} :
    state.hasJoined cm channel ↔ ∃ ch ∈ state.joinedChannels, cm.fold ch = cm.fold channel := by
  simp [UpstreamState.hasJoined]

/-- After a message the state agrees exactly when the message was one that it heeds. -/
theorem Followed.Agrees.receive (agrees : s.Agrees cm) :
    Followed.Agrees cm ⟨(processIncoming s.state now m).1, s.standing.hear cm m.msg⟩ ↔ s.state.heeds cm m.msg := by
  obtain ⟨state, nick, names⟩ := s
  obtain ⟨rfl, spells⟩ : state.nick = nick ∧ Spells cm state.joinedChannels names := ⟨agrees.nick, agrees.channels⟩
  rw [Followed.agrees_iff, nick_processIncoming]
  unfold processIncoming Standing.hear UpstreamState.heeds
  cases read : Command.parse m.msg with
  | error e => simp [spells]
  | ok command =>
    cases command with
    | numeric code params =>
      by_cases welcome : code = 1
      · simp [welcome, spells, eq_comm]
      · simp [welcome, spells]
    | nick new =>
      by_cases ours : isFrom cm state.nick m.msg
      · simp [ours, spells, eq_comm]
      · simp [ours, spells]
    | join channels keys =>
      by_cases ours : isFrom cm state.nick m.msg
      · simp [ours, spells.join]
      · simp [ours, spells.join_other, UpstreamState.hasJoined_iff]
    | part channels reason =>
      simp only [List.all_eq_true]
      by_cases ours : isFrom cm state.nick m.msg
      · simp only [ours, if_true, true_and, spells.part, Bool.or_eq_true, Bool.not_eq_true', List.contains_iff_mem,
          ← Bool.not_eq_true, imp_iff_not_or]
      · simp only [ours, if_false, true_and, spells.part_other, Bool.or_eq_true, Bool.and_eq_true, List.any_eq_true,
          Bool.not_eq_true', ← Bool.not_eq_true, List.contains_iff_mem, decide_eq_true_eq, imp_iff_not_or,
          Bool.false_eq_true]
    | quit reason =>
      by_cases ours : isFrom cm state.nick m.msg
      · simp [ours, Standing.reconnect, spells_nil]
      · simp [ours, spells]
    | unknown word params =>
      by_cases kick : isKick word
      · simp only [kick, if_true, true_and, spells.kick, Bool.not_true, Bool.false_or, List.all_eq_true,
          Bool.not_eq_true', ← Bool.not_eq_true, List.contains_iff_mem]
      · simp [kick, spells]
    | _ => simp [spells]

theorem Followed.Agrees.step {a : UpstreamAction} (agrees : s.Agrees cm) (taken : s.step cm a = some t) :
    t.Agrees cm ↔ s.Undisturbed cm a := by
  cases a with
  | connect =>
    obtain rfl := Option.some.inj taken
    rw [Followed.agrees_iff]
    exact (and_iff_right agrees.nick).trans spells_nil
  | receive m now =>
    obtain rfl := Option.some.inj taken
    exact agrees.receive

/-- **The bouncer tracks its own channels** as long as nothing disturbs it, and no longer: over any
connections, each message that is heeded leaves the nick that was confirmed and the channels that it
is on, and the first that is not leaves something else. -/
theorem own_channels_tracked (reached : (upstream cm nick).Reaches (Followed.Undisturbed cm) s) :
    s.Agrees cm ∧ ∀ a t, (upstream cm nick).step s a = some t → (t.Agrees cm ↔ s.Undisturbed cm a) := by
  have agrees : s.Agrees cm := by
    refine reached.invariant (Followed.Agrees cm) ⟨rfl, spells_nil.mpr rfl⟩ ?_
    intro s a t agrees undisturbed taken
    exact (agrees.step taken).mpr undisturbed
  exact ⟨agrees, fun a t taken => agrees.step taken⟩

/-- What a user does, as the server tells it. -/
def userMessage (nick verb : String) (params : List String) : Incoming where
  id := 0
  msg := { pfx := some (.user (ascii nick) none none), verb := .word (ascii verb), params := { values := params.map ascii } }

/-- We join a channel, and another user joins it under another spelling. -/
theorem own_channels_tracked_joined : ∃ s, (upstream .rfc1459 (ascii "me")).Reaches (Followed.Undisturbed .rfc1459) s ∧
    s.state.joinedChannels = [ascii "#A", ascii "#a"] ∧ s.standing = ⟨ascii "me", [ascii "#a"]⟩ ∧ s.Agrees .rfc1459 := by
  obtain ⟨s, reached, joined, heard⟩ := Machine.Reaches.of_trace (upstream .rfc1459 (ascii "me"))
    (Followed.Undisturbed .rfc1459)
    [.connect, .receive (userMessage "me" "JOIN" ["#A"]) [], .receive (userMessage "bob" "JOIN" ["#a"]) []]
    (fun s => s.state.joinedChannels = [ascii "#A", ascii "#a"] ∧ s.standing = ⟨ascii "me", [ascii "#a"]⟩)
    (by decide +kernel)
  exact ⟨s, reached, joined, heard, (own_channels_tracked reached).1⟩

/-- Another user joins a channel that we are not on. -/
theorem own_channels_tracked_fails :
    ¬ ∀ s, (upstream .rfc1459 (ascii "me")).Reachable s → s.Agrees .rfc1459 := by
  intro tracked
  obtain ⟨s, reached, joined, heard⟩ := Machine.Reachable.of_trace (upstream .rfc1459 (ascii "me"))
    [.connect, .receive (userMessage "bob" "JOIN" ["#a"]) []]
    (fun s => s.state.joinedChannels = [ascii "#a"] ∧ s.standing.channels = []) (by decide +kernel)
  have spells := (tracked s reached).channels
  rw [joined, heard, spells_nil] at spells
  cases spells

end Steps

end RndRust.Irc.Bnc
