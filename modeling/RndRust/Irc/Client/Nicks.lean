import RndRust.Irc.Client.State
import RndRust.Irc.Client.Windows
import RndRust.Lib.Runs

/-! Whether the frontend shows who is in a channel: the session keeps its own lists and tells the
frontend of each message by an event. A nick is shown as a string, so bytes that are no UTF-8
are replaced. -/
namespace RndRust.Irc.Client
open Lib Proto

/-- Some nick of the list reads like this one. -/
def reads (listed : List Bytes) (nick : Bytes) : Bool := (listed.map fromUtf8Lossy).contains (fromUtf8Lossy nick)

/-- Another nick of the list reads like this one. -/
def clashes (listed : List Bytes) (nick : Bytes) : Bool := reads (listed.filter (· ≠ nick)) nick

/-- The strings shown are those of the nicks. -/
def Shows (nicks listed : List Bytes) : Prop := ∀ x, x ∈ nicks ↔ ∃ n ∈ listed, fromUtf8Lossy n = x

section Lists

variable {nicks listed : List Bytes} {nick old new x : Bytes} {state : ChannelState}

theorem mem_addNick : x ∈ addNick nicks nick ↔ x = nick ∨ x ∈ nicks := by
  unfold addNick sorted
  split
  · rename_i member
    constructor
    · exact .inr
    · rintro (rfl | before)
      · exact List.contains_iff_mem.mp member
      · exact before
  · rw [List.mem_insertionSort, List.mem_append, List.mem_singleton]
    exact or_comm

theorem mem_removeNick : x ∈ removeNick nicks nick ↔ x ∈ nicks ∧ x ≠ nick := by
  unfold removeNick
  rw [List.mem_filter, decide_eq_true_eq]

/-- The old nick is still there if it was there twice. -/
theorem mem_renameNick (member : old ∈ nicks) :
    x ∈ renameNick nicks old new ↔ x = new ∨ x ∈ nicks ∧ (x ≠ old ∨ 2 ≤ nicks.count old) := by
  obtain ⟨front, back, rfl, first⟩ := List.eq_append_cons_of_mem member
  have found : (front ++ old :: back).findIdx? (· = old) = some front.length := by
    have none : front.findIdx? (· = old) = none :=
      List.findIdx?_eq_none_iff.mpr fun n listed => decide_eq_false fun same => first (same ▸ listed)
    rw [List.findIdx?_append, none, List.findIdx?_cons]
    simp
  have count : (front ++ old :: back).count old = back.count old + 1 := by
    rw [List.count_append, List.count_eq_zero.mpr first, List.count_cons_self, Nat.zero_add]
  unfold renameNick sorted
  rw [found, count]
  dsimp only
  rw [List.mem_insertionSort, List.set_append_right _ _ (Nat.le_refl _), Nat.sub_self, List.set_cons_zero]
  simp only [List.mem_append, List.mem_cons]
  have twice : 2 ≤ back.count old + 1 ↔ old ∈ back := by
    rw [← List.count_pos_iff]
    omega
  rw [twice]
  constructor
  · rintro (before | rfl | after)
    · exact .inr ⟨.inl before, .inl fun same => first (same ▸ before)⟩
    · exact .inl rfl
    · by_cases same : x = old
      · exact .inr ⟨.inr (.inr after), .inr (same ▸ after)⟩
      · exact .inr ⟨.inr (.inr after), .inl same⟩
  · rintro (rfl | ⟨before | rfl | after, other | again⟩)
    · exact .inr (.inl rfl)
    · exact .inl before
    · exact .inl before
    · exact absurd rfl other
    · exact .inr (.inr again)
    · exact .inr (.inr after)
    · exact .inr (.inr after)

theorem renameNick_absent (absent : old ∉ nicks) : renameNick nicks old new = nicks := by
  unfold renameNick
  split
  · rename_i pos found
    obtain ⟨inside, is, -⟩ := List.findIdx?_eq_some_iff_getElem.mp found
    exact absurd (of_decide_eq_true is ▸ List.getElem_mem inside) absent
  · rfl

theorem mem_nicks_addNick : x ∈ (state.addNick nick).nicks ↔ x = nick ∨ x ∈ state.nicks := by
  unfold ChannelState.addNick
  split
  · rename_i member
    constructor
    · exact .inr
    · rintro (rfl | before)
      · exact List.contains_iff_mem.mp member
      · exact before
  · rw [List.mem_append, List.mem_singleton]
    exact or_comm

theorem mem_nicks_removeNick : x ∈ (state.removeNick nick).nicks ↔ x ∈ state.nicks ∧ x ≠ nick := by
  unfold ChannelState.removeNick
  rw [List.mem_filter, decide_eq_true_eq]

theorem reads_iff : reads listed nick ↔ ∃ n ∈ listed, fromUtf8Lossy n = fromUtf8Lossy nick := by
  unfold reads
  rw [List.contains_iff_mem, List.mem_map]

theorem clashes_iff : clashes listed nick ↔ ∃ n ∈ listed, n ≠ nick ∧ fromUtf8Lossy n = fromUtf8Lossy nick := by
  unfold clashes
  rw [reads_iff]
  simp only [List.mem_filter, decide_eq_true_eq, and_assoc]

end Lists

namespace NetworkState

section Channels

variable {s : NetworkState} {channel ch nick : Bytes} {channels : List Bytes} {f : ChannelState → ChannelState}
  {isSelf : Bool}

theorem lookup_updateChannel : (s.updateChannel channel f).channels.lookup ch =
    if ch = channel then (s.channels.lookup channel).map f else s.channels.lookup ch := by
  unfold updateChannel
  split
  · rename_i state found
    rw [Table.lookup_insert_eq, found]
    rfl
  · rename_i missing
    split
    · rename_i same
      rw [same, missing]
      rfl
    · rfl

@[simp] theorem nick_updateChannel : (s.updateChannel channel f).nick = s.nick := by
  unfold updateChannel
  split <;> rfl

/-- Going through channels changes each of them once, when the change can be repeated. -/
theorem lookup_foldl {step : NetworkState → Bytes → NetworkState}
    (change : Bytes → Option ChannelState → Option ChannelState)
    (one : ∀ s channel ch, (step s channel).channels.lookup ch =
      if ch = channel then change channel (s.channels.lookup channel) else s.channels.lookup ch)
    (again : ∀ channel x, change channel (change channel x) = change channel x) :
    (channels.foldl step s).channels.lookup ch =
      if ch ∈ channels then change ch (s.channels.lookup ch) else s.channels.lookup ch := by
  induction channels generalizing s with
  | nil => rfl
  | cons channel channels ih =>
    rw [List.foldl_cons, ih, one]
    by_cases same : ch = channel
    · subst same
      rw [if_pos rfl, if_pos List.mem_cons_self, again, ite_self]
    · rw [if_neg same]
      simp only [List.mem_cons, same, false_or]

theorem nick_foldl {step : NetworkState → Bytes → NetworkState} (one : ∀ s channel, (step s channel).nick = s.nick) :
    (channels.foldl step s).nick = s.nick := by
  induction channels generalizing s with
  | nil => rfl
  | cons channel channels ih => rw [List.foldl_cons, ih, one]

/-- What a `JOIN` makes of a channel. -/
def joined (nick : Bytes) (isSelf : Bool) (channel : Bytes) (before : Option ChannelState) : Option ChannelState :=
  (before.or (if isSelf then some { name := channel } else none)).map (·.addNick nick)

/-- What a `PART` makes of a channel. -/
def parted (nick : Bytes) (isSelf : Bool) (before : Option ChannelState) : Option ChannelState :=
  if isSelf then none else before.map (·.removeNick nick)

theorem lookup_joinChannel : (joinChannel nick isSelf s channel).channels.lookup ch =
    if ch = channel then joined nick isSelf channel (s.channels.lookup channel) else s.channels.lookup ch := by
  unfold joinChannel joined
  dsimp only
  rw [lookup_updateChannel]
  split
  · congr 1
    split
    · rename_i opens
      rw [opens.2, if_pos opens.1, AList.lookup_insert]
      rfl
    · rename_i stays
      cases found : s.channels.lookup channel with
      | some state => rfl
      | none =>
        rw [if_neg fun self => stays ⟨self, found⟩]
        rfl
  · rename_i other
    split
    · exact AList.lookup_insert_ne other
    · rfl

theorem lookup_partChannel : (partChannel nick isSelf s channel).channels.lookup ch =
    if ch = channel then parted nick isSelf (s.channels.lookup channel) else s.channels.lookup ch := by
  unfold partChannel parted
  split
  · exact Table.lookup_erase_eq _
  · exact lookup_updateChannel

theorem addNick_again (state : ChannelState) : (state.addNick nick).addNick nick = state.addNick nick := by
  have member : nick ∈ (state.addNick nick).nicks := mem_nicks_addNick.mpr (.inl rfl)
  rw [ChannelState.addNick, if_pos (List.contains_iff_mem.mpr member)]

theorem lookup_applyJoin : (s.applyJoin nick channels).channels.lookup ch =
    if ch ∈ channels then joined nick (s.isMe nick) ch (s.channels.lookup ch) else s.channels.lookup ch := by
  unfold applyJoin
  apply lookup_foldl (joined nick (s.isMe nick))
  · intro s channel ch
    exact lookup_joinChannel
  · intro channel x
    unfold joined
    cases x with
    | some state => simp [addNick_again]
    | none => cases s.isMe nick <;> simp [addNick_again]

theorem lookup_applyPart : (s.applyPart nick channels).channels.lookup ch =
    if ch ∈ channels then parted nick (s.isMe nick) (s.channels.lookup ch) else s.channels.lookup ch := by
  unfold applyPart
  apply lookup_foldl fun _ => parted nick (s.isMe nick)
  · intro s channel ch
    exact lookup_partChannel
  · intro _ x
    unfold parted
    cases x with
    | some state => cases s.isMe nick <;> simp [ChannelState.removeNick]
    | none => cases s.isMe nick <;> rfl

end Channels
end NetworkState

/-- What a session and the windows of its network agree on. -/
structure Agrees (id : ℕ) (core : NetworkState) (app : IrcApp) : Prop where
  own : ∃ nick, core.nick = some nick ∧ app.ownNick.lookup id = some (fromUtf8Lossy nick)
  nicks : ∀ channel state, core.channels.lookup channel = some state →
    ∃ nicks, app.nicksOf id channel = some nicks ∧ Shows nicks state.nicks

/-- The window of the channel a `JOIN` names first shows everybody the session lists then: it does
when the channel is known, and else only who joins may be shown in a window that is there. -/
def joinsFirst (id : ℕ) (core : NetworkState) (app : IrcApp) (nick channel : Bytes) : Bool :=
  !core.isMe nick || (core.channels.lookup channel).isSome ||
    ((app.nicksOf id channel).getD []).all (· = fromUtf8Lossy nick)

/-- The frontend is not told of the other channels. -/
def joinsOther (id : ℕ) (core : NetworkState) (app : IrcApp) (nick channel : Bytes) : Bool :=
  match core.channels.lookup channel with
  | some state => reads state.nicks nick
  | none =>
    !core.isMe nick ||
      (app.nicksOf id channel).any fun nicks =>
        nicks.contains (fromUtf8Lossy nick) && nicks.all (· = fromUtf8Lossy nick)

/-- Nobody else in the channel reads like who leaves. -/
def partsFirst (core : NetworkState) (nick channel : Bytes) : Bool :=
  core.isMe nick || (core.channels.lookup channel).all fun state => !clashes state.nicks nick

def partsOther (core : NetworkState) (nick channel : Bytes) : Bool :=
  core.isMe nick || (core.channels.lookup channel).all fun state => !state.nicks.contains nick || clashes state.nicks nick

/-- The one place the frontend renames is all the places there are. -/
def renames (listed nicks : List Bytes) (old new : Bytes) : Bool :=
  fromUtf8Lossy old = fromUtf8Lossy new ||
    match nicks.count (fromUtf8Lossy old) with
    | 0 => true
    | 1 => !clashes listed old
    | _ => clashes listed old && (listed.contains old || nicks.contains (fromUtf8Lossy new))

/-- A command after which the frontend shows what the session knows. -/
def inStepCommand (id : ℕ) (core : NetworkState) (app : IrcApp) (pfx : Option Prefix) : Command → Bool
  | .join (first :: others) _ =>
    joinsFirst id core app (extractNick pfx) first &&
      others.all fun channel => channel = first || joinsOther id core app (extractNick pfx) channel
  | .part (first :: others) _ =>
    partsFirst core (extractNick pfx) first &&
      others.all fun channel => channel = first || partsOther core (extractNick pfx) channel
  | .nick new =>
    let old := extractNick pfx
    (core.isMe old || app.own id ≠ fromUtf8Lossy old || fromUtf8Lossy new = fromUtf8Lossy old) &&
      core.channels.entries.all fun entry => renames entry.2.nicks ((app.nicksOf id entry.1).getD []) old new
  | .quit _ =>
    core.isMe (extractNick pfx) || core.channels.values.all fun state => !clashes state.nicks (extractNick pfx)
  | .numeric code params =>
    if code = 1 then params.values[0]?.isSome || app.own id = fromUtf8Lossy []
    else if code = 353 then
      match params.values[2]?, params.values[3]? with
      | some channel, some raw =>
        (core.channels.lookup channel).all fun state => (namreplyNicks raw).all (reads state.nicks ·)
      | _, _ => true
    else true
  | _ => true

def inStep (id : ℕ) (core : NetworkState) (app : IrcApp) (msg : Message) : Bool :=
  match Command.parse msg with
  | .ok cmd => inStepCommand id core app msg.pfx cmd
  | .error _ => true

section Shows

variable {nicks : List Bytes} {nick old new : Bytes} {state : ChannelState}

theorem Shows.add (shows : Shows nicks state.nicks) :
    Shows (addNick nicks (fromUtf8Lossy nick)) (state.addNick nick).nicks := by
  intro x
  rw [mem_addNick, shows x]
  constructor
  · rintro (rfl | ⟨n, listed, rfl⟩)
    · exact ⟨nick, mem_nicks_addNick.mpr (.inl rfl), rfl⟩
    · exact ⟨n, mem_nicks_addNick.mpr (.inr listed), rfl⟩
  · rintro ⟨n, listed, rfl⟩
    rcases mem_nicks_addNick.mp listed with rfl | before
    · exact .inl rfl
    · exact .inr ⟨n, before, rfl⟩

/-- Who reads like somebody that is shown does not need to be shown again. -/
theorem Shows.add_read (shows : Shows nicks state.nicks) (read : reads state.nicks nick) :
    Shows nicks (state.addNick nick).nicks := by
  intro x
  rw [shows x]
  constructor
  · rintro ⟨n, listed, rfl⟩
    exact ⟨n, mem_nicks_addNick.mpr (.inr listed), rfl⟩
  · rintro ⟨n, listed, rfl⟩
    rcases mem_nicks_addNick.mp listed with rfl | before
    · exact reads_iff.mp read
    · exact ⟨n, before, rfl⟩

theorem Shows.remove (shows : Shows nicks state.nicks) (alone : ¬ clashes state.nicks nick) :
    Shows (removeNick nicks (fromUtf8Lossy nick)) (state.removeNick nick).nicks := by
  intro x
  rw [mem_removeNick, shows x]
  constructor
  · rintro ⟨⟨n, listed, rfl⟩, other⟩
    exact ⟨n, mem_nicks_removeNick.mpr ⟨listed, fun same => other (congrArg fromUtf8Lossy same)⟩, rfl⟩
  · rintro ⟨n, listed, rfl⟩
    obtain ⟨before, other⟩ := mem_nicks_removeNick.mp listed
    exact ⟨⟨n, before, rfl⟩, fun same => alone (clashes_iff.mpr ⟨n, before, other, same⟩)⟩

theorem Shows.remove_unseen (shows : Shows nicks state.nicks) (unseen : nick ∉ state.nicks ∨ clashes state.nicks nick) :
    Shows nicks (state.removeNick nick).nicks := by
  intro x
  rw [shows x]
  constructor
  · rintro ⟨n, listed, rfl⟩
    by_cases same : n = nick
    · subst same
      obtain ⟨m, also, other, reads⟩ := clashes_iff.mp (unseen.resolve_left (not_not.mpr listed))
      exact ⟨m, mem_nicks_removeNick.mpr ⟨also, other⟩, reads⟩
    · exact ⟨n, mem_nicks_removeNick.mpr ⟨listed, same⟩, rfl⟩
  · rintro ⟨n, listed, rfl⟩
    exact ⟨n, (mem_nicks_removeNick.mp listed).1, rfl⟩

theorem mem_nicks_renameNick {x : Bytes} : x ∈ (state.renameNick old new).nicks ↔
    x = new ∧ old ∈ state.nicks ∨ x ∈ state.nicks ∧ x ≠ old := by
  unfold ChannelState.renameNick
  rw [List.mem_map]
  constructor
  · rintro ⟨n, listed, rfl⟩
    split
    · rename_i same
      exact .inl ⟨rfl, same ▸ listed⟩
    · rename_i other
      exact .inr ⟨listed, other⟩
  · rintro (⟨rfl, listed⟩ | ⟨listed, other⟩)
    · exact ⟨old, listed, if_pos rfl⟩
    · exact ⟨x, listed, if_neg other⟩

/-- Renaming is one place on both sides. -/
theorem Shows.rename_once (shows : Shows nicks state.nicks) (once : nicks.count (fromUtf8Lossy old) = 1)
    (alone : ¬ clashes state.nicks old) :
    Shows (renameNick nicks (fromUtf8Lossy old) (fromUtf8Lossy new)) (state.renameNick old new).nicks := by
  have shown : fromUtf8Lossy old ∈ nicks := by
    apply List.count_pos_iff.mp
    omega
  have own : ∀ n ∈ state.nicks, fromUtf8Lossy n = fromUtf8Lossy old → n = old := fun n listed same =>
    Decidable.by_contra fun other => alone (clashes_iff.mpr ⟨n, listed, other, same⟩)
  have listed : old ∈ state.nicks := by
    obtain ⟨n, listed, same⟩ := (shows _).mp shown
    exact own n listed same ▸ listed
  intro x
  rw [mem_renameNick shown, once, shows x]
  constructor
  · rintro (rfl | ⟨⟨n, before, rfl⟩, other | twice⟩)
    · exact ⟨new, mem_nicks_renameNick.mpr (.inl ⟨rfl, listed⟩), rfl⟩
    · exact ⟨n, mem_nicks_renameNick.mpr (.inr ⟨before, fun same => other (congrArg fromUtf8Lossy same)⟩), rfl⟩
    · exact absurd twice (by decide)
  · rintro ⟨n, after, rfl⟩
    rcases mem_nicks_renameNick.mp after with ⟨rfl, -⟩ | ⟨before, other⟩
    · exact .inl rfl
    · exact .inr ⟨⟨n, before, rfl⟩, .inl fun same => other (own n before same)⟩

/-- Renaming leaves a place with the old string on both sides. -/
theorem Shows.rename_again (shows : Shows nicks state.nicks) (again : 2 ≤ nicks.count (fromUtf8Lossy old))
    (clash : clashes state.nicks old) (known : old ∈ state.nicks ∨ fromUtf8Lossy new ∈ nicks) :
    Shows (renameNick nicks (fromUtf8Lossy old) (fromUtf8Lossy new)) (state.renameNick old new).nicks := by
  have shown : fromUtf8Lossy old ∈ nicks := by
    apply List.count_pos_iff.mp
    omega
  obtain ⟨m, also, different, same⟩ := clashes_iff.mp clash
  have kept : ∀ n ∈ state.nicks, ∃ n' ∈ (state.renameNick old new).nicks, fromUtf8Lossy n' = fromUtf8Lossy n := by
    intro n listed
    by_cases is : n = old
    · exact ⟨m, mem_nicks_renameNick.mpr (.inr ⟨also, different⟩), is ▸ same⟩
    · exact ⟨n, mem_nicks_renameNick.mpr (.inr ⟨listed, is⟩), rfl⟩
  intro x
  rw [mem_renameNick shown]
  constructor
  · rintro (rfl | ⟨before, -⟩)
    · rcases known with listed | shown
      · exact ⟨new, mem_nicks_renameNick.mpr (.inl ⟨rfl, listed⟩), rfl⟩
      · obtain ⟨n, listed, is⟩ := (shows _).mp shown
        exact is ▸ kept n listed
    · obtain ⟨n, listed, rfl⟩ := (shows x).mp before
      exact kept n listed
  · rintro ⟨n, after, rfl⟩
    rcases mem_nicks_renameNick.mp after with ⟨rfl, -⟩ | ⟨before, -⟩
    · exact .inl rfl
    · exact .inr ⟨(shows _).mpr ⟨n, before, rfl⟩, .inr again⟩

/-- The new nick reads like the old one. -/
theorem Shows.rename_alike (shows : Shows nicks state.nicks) (alike : fromUtf8Lossy old = fromUtf8Lossy new) :
    Shows (renameNick nicks (fromUtf8Lossy old) (fromUtf8Lossy new)) (state.renameNick old new).nicks := by
  have stays : ∀ x, x ∈ renameNick nicks (fromUtf8Lossy old) (fromUtf8Lossy new) ↔ x ∈ nicks := by
    intro x
    by_cases shown : fromUtf8Lossy old ∈ nicks
    · rw [mem_renameNick shown, ← alike]
      constructor
      · rintro (rfl | ⟨before, -⟩)
        · exact shown
        · exact before
      · intro before
        by_cases same : x = fromUtf8Lossy old
        · exact .inl same
        · exact .inr ⟨before, .inl same⟩
    · rw [renameNick_absent shown]
  intro x
  rw [stays, shows x]
  constructor
  · rintro ⟨n, listed, rfl⟩
    by_cases is : n = old
    · exact ⟨new, mem_nicks_renameNick.mpr (.inl ⟨rfl, is ▸ listed⟩), is ▸ alike.symm⟩
    · exact ⟨n, mem_nicks_renameNick.mpr (.inr ⟨listed, is⟩), rfl⟩
  · rintro ⟨n, after, rfl⟩
    rcases mem_nicks_renameNick.mp after with ⟨rfl, listed⟩ | ⟨before, -⟩
    · exact ⟨old, listed, alike⟩
    · exact ⟨n, before, rfl⟩

theorem Shows.rename (shows : Shows nicks state.nicks) (may : renames state.nicks nicks old new) :
    Shows (renameNick nicks (fromUtf8Lossy old) (fromUtf8Lossy new)) (state.renameNick old new).nicks := by
  unfold renames at may
  rcases Bool.or_eq_true_iff.mp may with alike | may
  · exact shows.rename_alike (of_decide_eq_true alike)
  split at may
  · rename_i none
    have absent : fromUtf8Lossy old ∉ nicks := List.count_eq_zero.mp none
    have unknown : ∀ n ∈ state.nicks, n ≠ old := fun n listed same => absent ((shows _).mpr ⟨n, listed, same ▸ rfl⟩)
    intro x
    rw [renameNick_absent absent, shows x]
    constructor
    · rintro ⟨n, listed, rfl⟩
      exact ⟨n, mem_nicks_renameNick.mpr (.inr ⟨listed, unknown n listed⟩), rfl⟩
    · rintro ⟨n, after, rfl⟩
      rcases mem_nicks_renameNick.mp after with ⟨-, listed⟩ | ⟨before, -⟩
      · exact absurd rfl (unknown old listed)
      · exact ⟨n, before, rfl⟩
  · rename_i once
    exact shows.rename_once once (by simpa using may)
  · rename_i none once
    simp only [Bool.and_eq_true, Bool.or_eq_true, List.contains_iff_mem] at may
    refine shows.rename_again ?_ may.1 may.2
    have some := Nat.pos_of_ne_zero none
    have more := Ne.lt_of_le' once some
    exact more

theorem Shows.names (shows : Shows nicks state.nicks) {names : List Bytes} (read : ∀ n ∈ names, reads state.nicks n) :
    Shows nicks (names.foldl ChannelState.addNick state).nicks := by
  induction names generalizing state with
  | nil => exact shows
  | cons nick names ih =>
    refine ih (shows.add_read (read nick List.mem_cons_self)) fun n member => ?_
    obtain ⟨m, listed, same⟩ := reads_iff.mp (read n (List.mem_cons_of_mem _ member))
    exact reads_iff.mpr ⟨m, mem_nicks_addNick.mpr (.inr listed), same⟩

end Shows

namespace Agrees

variable {id : ℕ} {core core' : NetworkState} {app app' : IrcApp} {nick old new : Bytes}

/-- Windows may be opened, and what else is known of a channel does not matter. -/
theorem extend (agrees : Agrees id core app) (nick : core'.nick = core.nick) (own : app'.ownNick = app.ownNick)
    (channels : ∀ channel state, core'.channels.lookup channel = some state →
      ∃ before, core.channels.lookup channel = some before ∧ state.nicks = before.nicks)
    (windows : ∀ channel nicks, app.nicksOf id channel = some nicks → app'.nicksOf id channel = some nicks) :
    Agrees id core' app' where
  own := by
    rw [nick, own]
    exact agrees.own
  nicks channel state found := by
    obtain ⟨before, known, same⟩ := channels channel state found
    obtain ⟨nicks, shown, shows⟩ := agrees.nicks channel before known
    exact ⟨nicks, windows channel nicks shown, same ▸ shows⟩

/-- Only what is shown changes, and not the nicks. -/
theorem display (agrees : Agrees id core app) (own : app'.ownNick = app.ownNick)
    (windows : ∀ channel nicks, app.nicksOf id channel = some nicks → app'.nicksOf id channel = some nicks) :
    Agrees id core app' :=
  agrees.extend rfl own (fun _ state found => ⟨state, found, rfl⟩) windows

theorem withWindow (agrees : Agrees id core app) {target : Bytes} {f : Window → Window}
    (keeps : Window.Keeps f fun nicks => nicks) : Agrees id core (app.withWindow id target f) := by
  refine agrees.display IrcApp.ownNick_withWindow fun channel nicks shown => ?_
  rw [IrcApp.nicksOf_withWindow keeps]
  split
  · rename_i same
    subst same
    rw [shown]
    rfl
  · exact shown

theorem pushStatus (agrees : Agrees id core app) {text : Bytes} : Agrees id core (app.pushStatus id text) := by
  refine agrees.display IrcApp.ownNick_pushStatus fun channel nicks shown => ?_
  rwa [IrcApp.nicksOf_pushStatus]

/-- The session learns of something other than nicks. -/
theorem updateChannel (agrees : Agrees id core app) {channel : Bytes} {f : ChannelState → ChannelState}
    (same : ∀ state, (f state).nicks = state.nicks) : Agrees id (core.updateChannel channel f) app := by
  refine agrees.extend NetworkState.nick_updateChannel rfl (fun ch state found => ?_) fun _ _ shown => shown
  rw [NetworkState.lookup_updateChannel] at found
  split at found
  · rename_i is
    obtain ⟨before, known, rfl⟩ := Option.map_eq_some_iff.mp found
    exact ⟨before, is ▸ known, same before⟩
  · exact ⟨state, found, rfl⟩

/-- A channel that is new to the session. -/
theorem joined_new {channel : Bytes} {before : ChannelState}
    (known : Option.or none (if core.isMe nick then some { name := channel } else none) = some before) :
    core.isMe nick = true ∧ before = { name := channel } := by
  cases isSelf : core.isMe nick with
  | true =>
    rw [isSelf] at known
    cases known
    exact ⟨rfl, rfl⟩
  | false =>
    rw [isSelf] at known
    cases known

theorem mem_joined_new {channel x : Bytes} : x ∈ (ChannelState.addNick { name := channel } nick).nicks ↔ x = nick := by
  rw [mem_nicks_addNick]
  simp

/-- The channel the window of which is told of a `JOIN`. -/
theorem joined_first (agrees : Agrees id core app) {channel : Bytes} {before : ChannelState}
    (may : joinsFirst id core app nick channel)
    (known : ((core.channels.lookup channel).or (if core.isMe nick then some { name := channel } else none)) = some before) :
    Shows (addNick ((app.nicksOf id channel).getD []) (fromUtf8Lossy nick)) (before.addNick nick).nicks := by
  cases there : core.channels.lookup channel with
  | some state =>
    obtain ⟨nicks, shown, shows⟩ := agrees.nicks channel state there
    rw [there] at known
    cases known
    rw [shown]
    exact shows.add
  | none =>
    rw [there] at known
    obtain ⟨isSelf, rfl⟩ := joined_new known
    have only : ∀ x ∈ (app.nicksOf id channel).getD [], x = fromUtf8Lossy nick := by
      simpa [joinsFirst, there, isSelf] using may
    intro x
    rw [mem_addNick]
    constructor
    · intro shown
      exact ⟨nick, mem_joined_new.mpr rfl, (shown.elim (fun same => same) (only x)).symm⟩
    · rintro ⟨n, listed, rfl⟩
      exact .inl (congrArg fromUtf8Lossy (mem_joined_new.mp listed))

/-- A channel the window of which is not told of a `JOIN`. -/
theorem joined_other (agrees : Agrees id core app) {channel : Bytes} {before : ChannelState}
    (may : joinsOther id core app nick channel)
    (known : ((core.channels.lookup channel).or (if core.isMe nick then some { name := channel } else none)) = some before) :
    ∃ nicks, app.nicksOf id channel = some nicks ∧ Shows nicks (before.addNick nick).nicks := by
  unfold joinsOther at may
  cases there : core.channels.lookup channel with
  | some state =>
    obtain ⟨nicks, shown, shows⟩ := agrees.nicks channel state there
    rw [there] at known may
    cases known
    exact ⟨nicks, shown, shows.add_read may⟩
  | none =>
    rw [there] at known may
    obtain ⟨isSelf, rfl⟩ := joined_new known
    rw [isSelf] at may
    obtain ⟨nicks, shown, only⟩ := (Option.any_eq_true _ _).mp may
    obtain ⟨member, all⟩ := Bool.and_eq_true_iff.mp only
    refine ⟨nicks, shown, fun x => ?_⟩
    constructor
    · intro listed
      exact ⟨nick, mem_joined_new.mpr rfl, (of_decide_eq_true (List.all_eq_true.mp all x listed)).symm⟩
    · rintro ⟨n, listed, rfl⟩
      rw [mem_joined_new.mp listed]
      exact List.contains_iff_mem.mp member

theorem join (agrees : Agrees id core app) {first : Bytes} {others : List Bytes}
    (mayFirst : joinsFirst id core app nick first)
    (mayOther : ∀ channel ∈ others, channel = first ∨ joinsOther id core app nick channel) :
    Agrees id (core.applyJoin nick (first :: others)) (app.handleJoin id first (fromUtf8Lossy nick)) where
  own := by
    have same : (core.applyJoin nick (first :: others)).nick = core.nick := by
      apply NetworkState.nick_foldl
      intro s channel
      unfold NetworkState.joinChannel
      dsimp only
      rw [NetworkState.nick_updateChannel]
      split <;> rfl
    rw [same, IrcApp.ownNick_handleJoin]
    exact agrees.own
  nicks channel state found := by
    rw [NetworkState.lookup_applyJoin] at found
    rw [IrcApp.nicksOf_handleJoin]
    split at found
    · rename_i member
      obtain ⟨before, known, rfl⟩ := Option.map_eq_some_iff.mp found
      split
      · rename_i is
        subst is
        exact ⟨_, rfl, agrees.joined_first mayFirst known⟩
      · rename_i other
        have named := (List.mem_cons.mp member).resolve_left other
        exact agrees.joined_other ((mayOther channel named).resolve_left other) known
    · rename_i absent
      have other : channel ≠ first := by
        rintro rfl
        exact absent List.mem_cons_self
      rw [if_neg other]
      exact agrees.nicks channel state found

theorem part (agrees : Agrees id core app) {first : Bytes} {others : List Bytes} {reason : Option Bytes}
    (mayFirst : partsFirst core nick first)
    (mayOther : ∀ channel ∈ others, channel = first ∨ partsOther core nick channel) :
    Agrees id (core.applyPart nick (first :: others)) (app.handlePart id first (fromUtf8Lossy nick) reason) where
  own := by
    have same : (core.applyPart nick (first :: others)).nick = core.nick := by
      apply NetworkState.nick_foldl
      intro s channel
      unfold NetworkState.partChannel
      split
      · rfl
      · exact NetworkState.nick_updateChannel
    rw [same]
    unfold IrcApp.handlePart
    rw [IrcApp.ownNick_withWindow]
    exact agrees.own
  nicks channel state found := by
    rw [NetworkState.lookup_applyPart] at found
    rw [IrcApp.nicksOf_handlePart]
    split at found
    · rename_i member
      unfold NetworkState.parted at found
      split at found
      · cases found
      · rename_i notSelf
        obtain ⟨before, known, rfl⟩ := Option.map_eq_some_iff.mp found
        obtain ⟨nicks, shown, shows⟩ := agrees.nicks channel before known
        split
        · rename_i is
          subst is
          refine ⟨_, rfl, ?_⟩
          rw [shown]
          exact shows.remove (by simpa [partsFirst, notSelf, known] using mayFirst)
        · rename_i other
          have may := (mayOther channel ((List.mem_cons.mp member).resolve_left other)).resolve_left other
          refine ⟨nicks, shown, shows.remove_unseen ?_⟩
          simpa [partsOther, notSelf, known] using may
    · rename_i absent
      have other : channel ≠ first := by
        rintro rfl
        exact absent List.mem_cons_self
      rw [if_neg other]
      exact agrees.nicks channel state found

theorem nickChange (agrees : Agrees id core app)
    (mayOwn : core.isMe old ∨ app.own id ≠ fromUtf8Lossy old ∨ fromUtf8Lossy new = fromUtf8Lossy old)
    (mayRename : ∀ channel state, core.channels.lookup channel = some state →
      renames state.nicks ((app.nicksOf id channel).getD []) old new) :
    Agrees id (core.applyNick old new) (app.handleNickChange id (fromUtf8Lossy old) (fromUtf8Lossy new)) where
  own := by
    obtain ⟨nick, known, shown⟩ := agrees.own
    have own : app.own id = fromUtf8Lossy nick := by
      unfold IrcApp.own
      rw [shown]
      rfl
    rw [IrcApp.ownNick_handleNickChange]
    unfold NetworkState.applyNick
    dsimp only
    split
    · rename_i isMe
      have same : nick = old := Option.some.inj (known.symm.trans (of_decide_eq_true isMe))
      rw [if_pos (by rw [own, same]), AList.lookup_insert]
      exact ⟨new, rfl, rfl⟩
    · rename_i other
      refine ⟨nick, known, ?_⟩
      split
      · rename_i reads
        rw [AList.lookup_insert, (mayOwn.resolve_left other).resolve_left (not_not.mpr reads.symm), reads, own]
      · exact shown
  nicks channel state found := by
    unfold NetworkState.applyNick at found
    dsimp only at found
    rw [Table.lookup_mapValues] at found
    obtain ⟨before, known, rfl⟩ := Option.map_eq_some_iff.mp found
    obtain ⟨nicks, shown, shows⟩ := agrees.nicks channel before known
    have may := mayRename channel before known
    rw [shown] at may
    rw [IrcApp.nicksOf_handleNickChange, shown]
    exact ⟨_, rfl, shows.rename may⟩

theorem quit (agrees : Agrees id core app) {reason : Option Bytes}
    (may : core.isMe nick ∨ ∀ channel state, core.channels.lookup channel = some state → ¬ clashes state.nicks nick) :
    Agrees id (core.applyQuit nick) (app.handleQuit id (fromUtf8Lossy nick) reason) where
  own := by
    have same : (core.applyQuit nick).nick = core.nick := by
      unfold NetworkState.applyQuit
      split <;> rfl
    rw [same, IrcApp.ownNick_handleQuit]
    exact agrees.own
  nicks channel state found := by
    unfold NetworkState.applyQuit at found
    split at found
    · cases found
    · rename_i notSelf
      dsimp only at found
      rw [Table.lookup_mapValues] at found
      obtain ⟨before, known, rfl⟩ := Option.map_eq_some_iff.mp found
      obtain ⟨nicks, shown, shows⟩ := agrees.nicks channel before known
      rw [IrcApp.nicksOf_handleQuit, shown]
      exact ⟨_, rfl, shows.remove (may.resolve_left notSelf channel before known)⟩

theorem welcome (agrees : Agrees id core app) {pfx : Option Prefix} {params : List Bytes}
    (may : params[0]?.isSome ∨ app.own id = fromUtf8Lossy []) :
    Agrees id (core.applyWelcome pfx params) (app.handleRegistered id (fromUtf8Lossy (params[0]?.getD []))) where
  own := by
    rw [IrcApp.ownNick_handleRegistered, AList.lookup_insert]
    unfold NetworkState.applyWelcome
    dsimp only
    cases first : params[0]? with
    | some nick => exact ⟨nick, rfl, rfl⟩
    | none =>
      obtain ⟨nick, known, shown⟩ := agrees.own
      rw [first] at may
      have empty := may.resolve_left (by decide)
      unfold IrcApp.own at empty
      rw [shown] at empty
      exact ⟨nick, known, congrArg some empty.symm⟩
  nicks channel state found := by
    rw [IrcApp.nicksOf_handleRegistered]
    exact agrees.nicks channel state found

/-- The frontend takes no nicks from a reply to `NAMES`. -/
theorem namreply (agrees : Agrees id core app) {params : List Bytes}
    (may : ∀ channel raw state, params[2]? = some channel → params[3]? = some raw →
      core.channels.lookup channel = some state → ∀ n ∈ namreplyNicks raw, reads state.nicks n) :
    Agrees id (core.applyRplNamreply params) app := by
  unfold NetworkState.applyRplNamreply
  split
  · rename_i channel raw isChannel isRaw
    refine ⟨by rw [NetworkState.nick_updateChannel]; exact agrees.own, fun ch state found => ?_⟩
    rw [NetworkState.lookup_updateChannel] at found
    split at found
    · rename_i is
      subst is
      obtain ⟨before, known, rfl⟩ := Option.map_eq_some_iff.mp found
      obtain ⟨nicks, shown, shows⟩ := agrees.nicks ch before known
      exact ⟨nicks, shown, shows.names (may ch raw before isChannel isRaw known)⟩
    · exact agrees.nicks ch state found
  · exact agrees

end Agrees

/-- A session and the application it tells. -/
structure Session where
  core : NetworkState
  app : IrcApp

namespace Session

/-- The session applies a message, and the application handles the event it is translated to. -/
def receive (id : ℕ) (s : Session) (msg : Message) : Session where
  core := (s.core.apply msg).1
  app := match translateMessage id msg with
    | some event => s.app.handleEvent event
    | none => s.app

end Session

/-- What a server may send on a network the user has connected to. -/
def following (app : IrcApp) (id : ℕ) (form : ConnectForm) : Machine Session Message where
  initial := ⟨{ nick := some form.nick.bytes }, app.doConnect id form⟩
  step s msg := some (s.receive id msg)

section Step

variable {id : ℕ} {core : NetworkState} {app : IrcApp} {pfx : Option Prefix} {cmd : Command}

/-- A reply other than the welcome is shown in the status window, or as an entry of the list. -/
theorem Agrees.reply (agrees : Agrees id core app) {code : UInt16} {params : List Bytes} (other : code ≠ 1) :
    Agrees id core (app.handleEvent (translateNumeric id code params)) := by
  unfold translateNumeric
  rw [if_neg other]
  split
  · exact agrees.display rfl fun _ _ shown => shown
  · split
    · exact agrees.display rfl fun _ _ shown => shown
    · exact agrees.pushStatus

theorem Agrees.numeric (agrees : Agrees id core app) {code : UInt16} {params : Params}
    (may : inStepCommand id core app pfx (.numeric code params)) :
    Agrees id (core.applyCommand pfx (.numeric code params)).1
      (app.handleEvent (translateNumeric id code params.values)) := by
  unfold inStepCommand at may
  unfold NetworkState.applyCommand
  by_cases first : code = 1
  · subst first
    exact agrees.welcome (by simpa using may)
  · dsimp only at may ⊢
    rw [if_neg first] at may ⊢
    refine Agrees.reply ?_ first
    split
    · unfold NetworkState.applyRplTopic
      split
      · exact agrees.updateChannel fun _ => rfl
      · exact agrees
    · split
      · rename_i names
        rw [if_pos names] at may
        refine agrees.namreply fun channel raw state isChannel isRaw found => ?_
        rw [isChannel, isRaw] at may
        dsimp only at may
        rw [found] at may
        exact List.all_eq_true.mp may
      · exact agrees

theorem Agrees.command (agrees : Agrees id core app) (may : inStepCommand id core app pfx cmd) :
    Agrees id (core.applyCommand pfx cmd).1
      (match translateCommand id pfx cmd with
        | some event => app.handleEvent event
        | none => app) := by
  cases cmd with
  | join channels keys =>
    cases channels with
    | nil => exact agrees
    | cons first others =>
      obtain ⟨mayFirst, mayOther⟩ := Bool.and_eq_true_iff.mp may
      refine agrees.join mayFirst fun channel member => ?_
      simpa using List.all_eq_true.mp mayOther channel member
  | part channels reason =>
    cases channels with
    | nil => exact agrees
    | cons first others =>
      obtain ⟨mayFirst, mayOther⟩ := Bool.and_eq_true_iff.mp may
      refine agrees.part mayFirst fun channel member => ?_
      simpa using List.all_eq_true.mp mayOther channel member
  | nick new =>
    obtain ⟨mayOwn, mayRename⟩ := Bool.and_eq_true_iff.mp may
    refine agrees.nickChange (by simpa [or_assoc] using mayOwn) fun channel state found => ?_
    exact List.all_eq_true.mp mayRename ⟨channel, state⟩ (AList.mem_lookup_iff.mp found)
  | quit reason =>
    refine agrees.quit ((Bool.or_eq_true_iff.mp may).imp_right fun all channel state found => ?_)
    simpa using List.all_eq_true.mp all state (Table.mem_values.mpr ⟨channel, found⟩)
  | topic channel topic =>
    cases topic with
    | some topic =>
      have told : Agrees id (core.applyTopic channel (some topic)) app := agrees.updateChannel fun _ => rfl
      exact told.withWindow Window.keeps_topic
    | none =>
      show Agrees id (core.applyTopic channel none) app
      exact agrees.updateChannel fun _ => rfl
  | privmsg targets text =>
    cases targets with
    | nil => exact agrees
    | cons target targets => exact agrees.withWindow (Window.keeps_rfl.push _)
  | notice targets text =>
    cases targets with
    | nil => exact agrees
    | cons target targets =>
      show Agrees id core (app.handleNotice id target (extractNick pfx) text)
      unfold IrcApp.handleNotice
      split
      · exact agrees.pushStatus
      · exact agrees.withWindow (Window.keeps_rfl.push _)
  | numeric code params => exact agrees.numeric may
  | _ => exact agrees

theorem Agrees.receive {s : Session} {msg : Message} (agrees : Agrees id s.core s.app)
    (may : inStep id s.core s.app msg) : Agrees id (s.receive id msg).core (s.receive id msg).app := by
  unfold inStep at may
  unfold Session.receive NetworkState.apply translateMessage
  cases parsed : Command.parse msg with
  | ok cmd =>
    rw [parsed] at may
    exact agrees.command may
  | error e => exact agrees

theorem agrees_connected {form : ConnectForm} :
    Agrees id { nick := some form.nick.bytes } (app.doConnect id form) where
  own := ⟨_, rfl, by rw [fromUtf8Lossy_valid form.nick.valid]; exact AList.lookup_insert _⟩
  nicks channel state found := by cases found

end Step

/-- While every message changes for the windows what it changes for the session, both know the
same nicks. -/
theorem nicks_agree (app : IrcApp) (id : ℕ) (form : ConnectForm) {s : Session}
    (reached : (following app id form).Reaches (fun s msg => inStep id s.core s.app msg) s) : Agrees id s.core s.app := by
  refine reached.invariant (fun s => Agrees id s.core s.app) agrees_connected fun s msg t agrees may taken => ?_
  cases taken
  exact agrees.receive may

section Examples

/-- A message of a user. -/
def tells (nick verb : String) (params : List String) : Message where
  pfx := some (.user (ascii nick) (some (ascii "u")) (some (ascii "h")))
  verb := .word (ascii verb)
  params := ⟨params.map ascii, false⟩

def rustForm : ConnectForm := ⟨ascii "irc.example", ascii "6667", ⟨ascii "alice", by decide +kernel⟩⟩

/-- The user joins a channel, another user joins it, takes another nick and leaves again. -/
theorem nicks_agree_joins : ∃ s, (following {} 1 rustForm).Reaches (fun s msg => inStep 1 s.core s.app msg) s ∧
    s.app.nicksOf 1 (ascii "#rust") = some [ascii "alice", ascii "carol"] ∧ Agrees 1 s.core s.app := by
  obtain ⟨s, reached, shown⟩ := Machine.Reaches.of_trace (following {} 1 rustForm)
    (fun s msg => inStep 1 s.core s.app msg)
    [tells "alice" "JOIN" ["#rust"], tells "dave" "JOIN" ["#rust"], tells "bob" "JOIN" ["#rust"],
      tells "bob" "NICK" ["carol"], tells "dave" "PART" ["#rust"]]
    (fun s => s.app.nicksOf 1 (ascii "#rust") = some [ascii "alice", ascii "carol"]) (by decide +kernel)
  exact ⟨s, reached, shown, nicks_agree {} 1 rustForm reached⟩

/-- The reply to `NAMES` after a `JOIN`, which says who is there. -/
def namesOfRust : Message where
  pfx := some (.server (ascii "irc.example"))
  verb := .numeric 353
  params := ⟨[ascii "alice", ascii "=", ascii "#rust", ascii "@bob alice"], true⟩

/-- The session lists who is in a channel that it joins, and the window does not. -/
theorem nicks_agree_fails : ¬ ∀ app id form s, (following app id form).Reachable s → Agrees id s.core s.app := by
  intro agree
  obtain ⟨s, reached, listed, shown⟩ := Machine.Reachable.of_trace (following {} 1 rustForm)
    [tells "alice" "JOIN" ["#rust"], namesOfRust]
    (fun s => (s.core.channels.lookup (ascii "#rust")).map (·.nicks) = some [ascii "alice", ascii "bob"] ∧
      s.app.nicksOf 1 (ascii "#rust") = some [ascii "alice"]) (by decide +kernel)
  obtain ⟨state, known, nicks⟩ := Option.map_eq_some_iff.mp listed
  obtain ⟨window, is, shows⟩ := (agree {} 1 rustForm s reached).nicks _ state known
  cases shown.symm.trans is
  have bob : fromUtf8Lossy (ascii "bob") ∈ [ascii "alice"] := by
    apply (shows _).mpr
    exact ⟨ascii "bob", by simp [nicks], rfl⟩
  revert bob
  decide +kernel

end Examples

end RndRust.Irc.Client
