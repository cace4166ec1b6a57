import RndRust.Irc.Proto.Mode
import RndRust.Irc.Server.Modes

/-! What a receiver makes of a `MODE` line. The changes that `apply_channel_modes` makes are
spelled letter by letter, and the receiver hands the arguments out to the letters that take
one. The removal of a key takes one and is echoed without, so what follows it has to come
without arguments too. -/
namespace RndRust.Irc.Server
open Lib Proto

section Changes

variable {s : ServerState} {c d : Channel} {ch e : ModeChange} {applied : Applied} {changes : List ModeChange}

/-- The channel after one change of its modes, nicks resolved as the server does. -/
def replayChange (s : ServerState) (c : Channel) (ch : ModeChange) : Channel := (applyChannelMode s (c, {}) ch).1

/-- The change as it is echoed, if it is. -/
def echoed (s : ServerState) (c : Channel) (ch : ModeChange) : Option ModeChange :=
  (applyChannelMode s (c, {}) ch).2.lastDir.map fun adding =>
    ⟨adding, ch.letter, (applyChannelMode s (c, {}) ch).2.args.head?⟩

/-- The change takes effect with its argument: a key, a limit that is a number, the nick of
a member. -/
def Carries (s : ServerState) (c : Channel) (ch : ModeChange) : Prop :=
  ∃ arg, ch.arg = some arg ∧
    (ch.letter = 107 ∧ ch.adding ∨
      ch.letter = 108 ∧ ch.adding ∧ ((fromUtf8 arg).bind (parseUnsigned (2 ^ 32))).isSome ∨
      ch.letter ∈ ascii "ov" ∧ ∃ target, s.userByNick arg = some target ∧ c.hasMember target)

/-- What a change does, and how it is echoed. -/
inductive Made (s : ServerState) (c : Channel) : ModeChange → Option ModeChange → Channel → Prop
  | ignored {ch : ModeChange} : ¬Carries s c ch → Made s c ch none c
  | flag {adding : Bool} {letter : UInt8} {arg : Option Bytes} : letter ∈ ascii "ntmi" →
      Made s c ⟨adding, letter, arg⟩ (some ⟨adding, letter, none⟩) (applyFlagMode c letter adding)
  | key {key : Bytes} : Made s c ⟨true, 107, some key⟩ (some ⟨true, 107, some key⟩) { c with modeK := some key }
  | keyless {arg : Option Bytes} : Made s c ⟨false, 107, arg⟩ (some ⟨false, 107, none⟩) { c with modeK := none }
  | limit {arg : Bytes} {n : ℕ} : (fromUtf8 arg).bind (parseUnsigned (2 ^ 32)) = some n →
      Made s c ⟨true, 108, some arg⟩ (some ⟨true, 108, some arg⟩) { c with modeL := some n }
  | limitless {arg : Option Bytes} : Made s c ⟨false, 108, arg⟩ (some ⟨false, 108, none⟩) { c with modeL := none }
  | member {adding : Bool} {letter : UInt8} {nick : Bytes} {target : UserId} : letter ∈ ascii "ov" →
      s.userByNick nick = some target → c.hasMember target →
      Made s c ⟨adding, letter, some nick⟩ (some ⟨adding, letter, some nick⟩) (setMemberMode c target letter adding)

/-- The changes applied so far, with one more that was echoed. -/
def Applied.add (applied : Applied) : Option ModeChange → Applied
  | some ch => applied.push ch.adding ch.letter ch.arg
  | none => applied

theorem applyChannelMode_made (s : ServerState) (c : Channel) (ch : ModeChange) :
    ∃ e d, Made s c ch e d ∧ ∀ applied, applyChannelMode s (c, applied) ch = (d, applied.add e) := by
  obtain ⟨adding, letter, arg⟩ := ch
  by_cases flag : letter ∈ ascii "ntmi"
  · exact ⟨_, _, .flag flag, fun applied => by simp [applyChannelMode, flag, Applied.add]⟩
  by_cases key : letter = 107
  · subst key
    cases adding with
    | false => exact ⟨_, _, .keyless, fun applied => by simp [applyChannelMode, flag, Applied.add]⟩
    | true =>
      cases arg with
      | none => exact ⟨none, c, .ignored (by simp [Carries]), fun applied => by simp [applyChannelMode, flag, Applied.add]⟩
      | some key => exact ⟨_, _, .key, fun applied => by simp [applyChannelMode, flag, Applied.add]⟩
  by_cases limit : letter = 108
  · subst limit
    cases adding with
    | false => exact ⟨_, _, .limitless, fun applied => by simp [applyChannelMode, flag, Applied.add]⟩
    | true =>
      cases read : arg.bind fun arg => (fromUtf8 arg).bind (parseUnsigned (2 ^ 32)) with
      | none =>
        refine ⟨none, c, .ignored ?_, fun applied => by simp [-Nat.reducePow, applyChannelMode, flag, read, Applied.add]⟩
        rintro ⟨text, rfl, carried⟩
        rw [Option.bind_some] at read
        simp [-Nat.reducePow, read, show (108 : UInt8) ∉ ascii "ov" by decide] at carried
      | some n =>
        obtain ⟨text, rfl, number⟩ := Option.bind_eq_some_iff.mp read
        exact ⟨_, _, .limit number, fun applied => by simp [-Nat.reducePow, applyChannelMode, flag, number, Applied.add]⟩
  by_cases member : letter ∈ ascii "ov"
  · cases resolved : arg.bind s.userByNick with
    | none =>
      refine ⟨none, c, .ignored ?_, fun applied => ?_⟩
      · rintro ⟨nick, rfl, carried⟩
        rw [Option.bind_some] at resolved
        simp [resolved, key, limit] at carried
      · cases arg with
        | none => simp [applyChannelMode, flag, key, limit, member, Applied.add]
        | some nick =>
          rw [Option.bind_some] at resolved
          simp [applyChannelMode, flag, key, limit, member, resolved, Applied.add]
    | some target =>
      obtain ⟨nick, rfl, known⟩ := Option.bind_eq_some_iff.mp resolved
      by_cases inside : c.hasMember target
      · refine ⟨_, _, .member member known inside, fun applied => ?_⟩
        simp [applyChannelMode, flag, key, limit, member, known, inside, Applied.add]
      · refine ⟨none, c, .ignored ?_, fun applied => ?_⟩
        · rintro ⟨text, same, carried⟩
          cases same
          simp [known, key, limit, inside] at carried
        · simp [applyChannelMode, flag, key, limit, member, known, inside, Applied.add]
  · refine ⟨none, c, .ignored ?_, fun applied => by simp [applyChannelMode, flag, key, limit, member, Applied.add]⟩
    rintro ⟨text, -, carried⟩
    simp [key, limit, member] at carried

theorem flag_letters : ascii "ntmi" = [110, 116, 109, 105] := rfl

theorem prefix_letters : ascii "ov" = [111, 118] := rfl

/-- No letter is of two kinds. -/
theorem flag_letter {letter : UInt8} (flag : letter ∈ ascii "ntmi") : (letter ≠ 107 ∧ letter ≠ 108 ∧ letter ∉ ascii "ov") ∧
    (letter ≠ plus ∧ letter ≠ 45) ∧ ∀ adding, ModeSpec.rfc2812.argCount letter adding = 0 := by
  simp only [flag_letters, List.mem_cons, List.not_mem_nil, or_false] at flag
  rcases flag with rfl | rfl | rfl | rfl <;> decide

theorem prefix_letter {letter : UInt8} (member : letter ∈ ascii "ov") : (letter ∉ ascii "ntmi" ∧ letter ≠ 107 ∧ letter ≠ 108) ∧
    (letter ≠ plus ∧ letter ≠ 45) ∧ ∀ adding, ModeSpec.rfc2812.argCount letter adding = 1 := by
  simp only [prefix_letters, List.mem_cons, List.not_mem_nil, or_false] at member
  rcases member with rfl | rfl <;> decide

namespace Made

variable {o : Option ModeChange}

theorem echoed_eq (made : Made s c ch o d) (applies : ∀ applied, applyChannelMode s (c, applied) ch = (d, applied.add o)) :
    echoed s c ch = o := by
  rw [echoed, applies {}]
  cases made <;> simp_all [Applied.add, Applied.push]

/-- A change that is not echoed is none. -/
theorem unchanged (made : Made s c ch none d) : d = c := by
  cases made
  rfl

/-- What is echoed is a change of the same letter, with the argument that it takes effect with. -/
theorem same (made : Made s c ch (some e) d) :
    e.letter = ch.letter ∧ e.adding = ch.adding ∧ (e.arg.isSome ↔ Carries s c ch) := by
  cases made with
  | flag known =>
    obtain ⟨⟨noKey, noLimit, noMember⟩, -⟩ := flag_letter known
    exact ⟨rfl, rfl, iff_of_false (by simp) (by simp [Carries, noKey, noLimit, noMember])⟩
  | key => exact ⟨rfl, rfl, iff_of_true rfl ⟨_, rfl, .inl ⟨rfl, rfl⟩⟩⟩
  | keyless | limitless => exact ⟨rfl, rfl, iff_of_false (by simp) (by simp [Carries, prefix_letters])⟩
  | limit number => exact ⟨rfl, rfl, iff_of_true rfl ⟨_, rfl, .inr (.inl ⟨rfl, rfl, by rw [number]; rfl⟩)⟩⟩
  | member letter known inside => exact ⟨rfl, rfl, iff_of_true rfl ⟨_, rfl, .inr (.inr ⟨letter, _, known, inside⟩)⟩⟩

/-- The letters that are echoed are no directions. -/
theorem letter (made : Made s c ch (some e) d) : e.letter ≠ plus ∧ e.letter ≠ 45 := by
  cases made with
  | flag known => exact (flag_letter known).2.1
  | member known => exact (prefix_letter known).2.1
  | _ => exact ⟨of_decide_eq_true rfl, of_decide_eq_true rfl⟩

/-- What is echoed with an argument takes one, and of the rest only the removal of a key does. -/
theorem takes (made : Made s c ch (some e) d) :
    ModeSpec.rfc2812.argCount e.letter e.adding = 1 ↔ e.arg.isSome ∨ e.letter = 107 ∧ e.adding = false := by
  cases made with
  | flag known =>
    obtain ⟨⟨noKey, -⟩, -, none⟩ := flag_letter known
    simp [none, noKey]
  | member known => exact iff_of_true ((prefix_letter known).2.2 _) (.inl rfl)
  | key | limit => exact iff_of_true rfl (.inl rfl)
  | keyless => exact iff_of_true rfl (.inr ⟨rfl, rfl⟩)
  | limitless => exact iff_of_false (by decide) (by simp)

/-- The echo of a change does what the change did. -/
theorem replayed (made : Made s c ch (some e) d) : replayChange s c e = d := by
  cases made with
  | flag known => simp [replayChange, applyChannelMode, known]
  | key | keyless | limitless => simp [replayChange, applyChannelMode, flag_letters]
  | limit number => simp [-Nat.reducePow, replayChange, applyChannelMode, flag_letters, number]
  | member letter known inside =>
    obtain ⟨⟨noFlag, noKey, noLimit⟩, -⟩ := prefix_letter letter
    simp [replayChange, applyChannelMode, letter, noFlag, noKey, noLimit, known, inside]

/-- Nobody joins or leaves by a change of modes. -/
theorem members {o : Option ModeChange} (made : Made s c ch o d) (uid : UserId) : d.hasMember uid = c.hasMember uid := by
  cases made with
  | flag =>
    unfold applyFlagMode
    repeat' split
    all_goals rfl
  | member => simp [setMemberMode, Channel.hasMember, Table.lookup_mapValues]
  | _ => rfl

end Made

theorem echoed_made (s : ServerState) (c : Channel) (ch : ModeChange) : ∃ d, Made s c ch (echoed s c ch) d ∧
    ∀ applied, applyChannelMode s (c, applied) ch = (d, applied.add (echoed s c ch)) := by
  obtain ⟨o, d, made, applies⟩ := applyChannelMode_made s c ch
  rw [made.echoed_eq applies]
  exact ⟨d, made, applies⟩

theorem made_of_echoed (echo : echoed s c ch = some e) : ∃ d, Made s c ch (some e) d := by
  obtain ⟨d, made, -⟩ := echoed_made s c ch
  exact ⟨d, echo ▸ made⟩

theorem Carries.echoed (carries : Carries s c ch) : ∃ e, echoed s c ch = some e ∧ e.arg.isSome := by
  obtain ⟨d, made, -⟩ := echoed_made s c ch
  cases echo : Server.echoed s c ch with
  | none =>
    rw [echo] at made
    cases made with
    | ignored idle => exact (idle carries).elim
  | some e =>
    rw [echo] at made
    exact ⟨e, rfl, made.same.2.2.mpr carries⟩

theorem echoed_keyless (key : ch.letter = 107) (removing : ch.adding = false) :
    echoed s c ch = some ⟨false, 107, none⟩ := by
  simp [echoed, applyChannelMode, flag_letters, key, removing, Applied.push]

/-- Members as they were, the same changes are echoed. -/
theorem echoed_congr (members : ∀ uid, d.hasMember uid = c.hasMember uid) : echoed s d ch = echoed s c ch := by
  have same : (applyChannelMode s (d, {}) ch).2 = (applyChannelMode s (c, {}) ch).2 := by
    simp only [applyChannelMode, members]
    repeat' split
    all_goals rfl
  rw [echoed, echoed, same]

variable (changes applied) in
/-- The changes a request makes, one after the other, are those that are echoed. -/
theorem foldl_applied (members : ∀ uid, d.hasMember uid = c.hasMember uid) :
    changes.foldl (applyChannelMode s) (d, applied) =
      ((changes.filterMap (echoed s c)).foldl (replayChange s) d,
        (changes.filterMap (echoed s c)).foldl (fun applied e => applied.add (some e)) applied) := by
  induction changes generalizing d applied with
  | nil => rfl
  | cons ch more ih =>
    obtain ⟨next, made, applies⟩ := echoed_made s d ch
    have kept : ∀ uid, next.hasMember uid = c.hasMember uid := fun uid => (made.members uid).trans (members uid)
    have alike : echoed s c ch = echoed s d ch := (echoed_congr members).symm
    rw [List.foldl_cons, applies, ih _ kept]
    cases echo : echoed s d ch with
    | none =>
      rw [echo] at made
      rw [List.filterMap_cons_none (alike.trans echo), made.unchanged]
      rfl
    | some e =>
      rw [echo] at made
      simp only [List.filterMap_cons_some (alike.trans echo), List.foldl_cons, made.replayed]

variable (changes applied) in
/-- What is written of the changes that were applied. -/
theorem foldl_add : (changes.foldl (fun applied e => applied.add (some e)) applied).letters =
      applied.letters ++ spelledAfter applied.lastDir changes ∧
    (changes.foldl (fun applied e => applied.add (some e)) applied).args = applied.args ++ changes.filterMap (·.arg) := by
  induction changes generalizing applied with
  | nil => simp [spelledAfter]
  | cons e more ih =>
    obtain ⟨letters, args⟩ := ih (applied.add (some e))
    rw [List.foldl_cons, letters, args]
    constructor
    · simp [Applied.add, Applied.push, spelledAfter]
    · cases arg : e.arg <;> simp [Applied.add, Applied.push, arg]

/-- No change of the list that takes effect with an argument comes after a removal of the key. -/
def KeyRemovedLast (s : ServerState) (c : Channel) (changes : List ModeChange) : Prop :=
  changes.Pairwise fun a b => a.letter = 107 → a.adding = false → ¬Carries s c b

/-- The changes that a receiver reads in a line. -/
def readLine (line : Message) : List ModeChange :=
  match line.params.values with
  | _ :: letters :: args => parseChannelModes letters args .rfc2812
  | _ => []

/-- The line of a list of changes. -/
def echoLine (origin chan : Bytes) (changes : List ModeChange) : Message :=
  modeChangeLine origin chan (spelledAfter none changes) (changes.filterMap (·.arg))

theorem readLine_iff {origin chan : Bytes} :
    readLine (echoLine origin chan (changes.filterMap (echoed s c))) = changes.filterMap (echoed s c) ↔
      KeyRemovedLast s c changes := by
  have letters : ∀ e ∈ changes.filterMap (echoed s c), e.letter ≠ plus ∧ e.letter ≠ 45 := fun e listed => by
    obtain ⟨ch, -, echo⟩ := List.mem_filterMap.mp listed
    obtain ⟨_, made⟩ := made_of_echoed echo
    exact made.letter
  have takes : ∀ e ∈ changes.filterMap (echoed s c), e.arg.isSome → ModeSpec.rfc2812.argCount e.letter e.adding = 1 :=
    fun e listed carried => by
      obtain ⟨ch, -, echo⟩ := List.mem_filterMap.mp listed
      obtain ⟨_, made⟩ := made_of_echoed echo
      exact made.takes.mpr (.inl carried)
  have read : readLine (echoLine origin chan (changes.filterMap (echoed s c))) =
      handOut .rfc2812 ((changes.filterMap (echoed s c)).filterMap (·.arg)) (changes.filterMap (echoed s c)) :=
    parse_spelled letters (.inl rfl)
  rw [read, handOut_iff takes, List.pairwise_filterMap, KeyRemovedLast]
  refine List.Pairwise.iff fun a b => ⟨fun bare key removing carries => ?_, fun bare e echo e' echo' none steals => ?_⟩
  · obtain ⟨e, echo, carried⟩ := carries.echoed
    rw [bare _ (echoed_keyless key removing) e echo rfl rfl] at carried
    cases carried
  · obtain ⟨_, made⟩ := made_of_echoed echo
    obtain ⟨_, made'⟩ := made_of_echoed echo'
    obtain ⟨letter, adding, -⟩ := made.same
    rcases made.takes.mp steals with carried | ⟨key, removing⟩
    · rw [none] at carried
      cases carried
    · have idle := bare (letter ▸ key) (adding ▸ removing)
      simpa using fun carried => idle (made'.same.2.2.mp carried)

/-- The channel of a receiver that makes the changes of a line. -/
def replayLine (s : ServerState) (c : Channel) (line : Message) : Channel := (readLine line).foldl (replayChange s) c

/-- What an operator's request does: the changes that are echoed, in one line. -/
theorem applyChannelModes_made {uid : UserId} (s : ServerState) (target letters : Bytes) (args : List Bytes) (op : c.isOp uid) :
    let made := (parseChannelModes letters args .rfc2812).filterMap (echoed s c)
    (applyChannelModes s uid target c letters args).state = s.setChannel target (made.foldl (replayChange s) c) ∧
      ∀ sent ∈ (applyChannelModes s uid target c letters args).out,
        ∃ origin chan, sent.2 = echoLine origin chan made := by
  intro made
  have applied := foldl_applied (s := s) (c := c) (d := c) {} (parseChannelModes letters args .rfc2812) fun _ => rfl
  obtain ⟨written, carried⟩ := foldl_add {} made
  unfold applyChannelModes
  rw [if_pos op]
  dsimp only
  rw [applied]
  split
  · exact ⟨rfl, fun sent listed => by cases listed⟩
  · refine ⟨rfl, fun sent listed => ?_⟩
    obtain ⟨r, -, rfl⟩ := List.mem_map.mp listed
    rw [written, carried]
    exact ⟨_, _, rfl⟩

/-- **A `MODE` line is read as the changes that were made** if and only if no change with an
argument comes after a removal of the key, and then a receiver that had the old modes comes to
the new ones. -/
theorem mode_replays {uid r : UserId} {target letters : Bytes} {args : List Bytes} {line : Message}
    (found : s.channel target = some c) (op : c.isOp uid)
    (sent : (r, line) ∈ (handleChannelMode s uid target (some letters) args).out) :
    let asked := parseChannelModes letters args .rfc2812
    (readLine line = asked.filterMap (echoed s c) ↔ KeyRemovedLast s c asked) ∧
      (KeyRemovedLast s c asked →
        (handleChannelMode s uid target (some letters) args).state.channel target = some (replayLine s c line)) := by
  intro asked
  have handled : handleChannelMode s uid target (some letters) args = applyChannelModes s uid target c letters args := by
    simp only [handleChannelMode, found]
  rw [handled] at sent ⊢
  obtain ⟨state, lines⟩ := applyChannelModes_made s target letters args op
  obtain ⟨origin, chan, written⟩ := lines _ sent
  obtain rfl : line = _ := written
  refine ⟨readLine_iff, fun aligned => ?_⟩
  rw [state, replayLine, readLine_iff.mpr aligned]
  exact AList.lookup_insert _

end Changes

/-- A channel with its operator and one more member. -/
def exampleChannel : Channel where
  name := ascii "#c"
  members := AList.insert 2 {} (AList.insert 1 { op := true } ∅)

/-- A server where alice is the operator of the channel and bob is on it. -/
def exampleState : ServerState where
  config := { serverName := ascii "irc.example.org", networkName := ascii "Example" }
  crates := { hmac := fun _ => [], verifyPassword := fun _ _ => false, decodeBase64 := some }
  users := [2, 1]
  objects uid := { nick := some (if uid = 1 then ascii "alice" else ascii "bob"), host := ascii "127.0.0.1", registered := true }
  nicks nick := if nick = ascii "alice" then some 1 else if nick = ascii "bob" then some 2 else none
  channels := AList.insert (ascii "#c") exampleChannel ∅

theorem mode_replays_operator : ∃ line,
    (2, line) ∈ (handleChannelMode exampleState 1 (ascii "#c") (some (ascii "+o-k")) [ascii "bob"]).out ∧
      (handleChannelMode exampleState 1 (ascii "#c") (some (ascii "+o-k")) [ascii "bob"]).state.channel (ascii "#c") =
        some (replayLine exampleState exampleChannel line) := by
  have sent : (2, echoLine (exampleState.objects 1).originPrefix (ascii "#c")
        [⟨true, 111, some (ascii "bob")⟩, ⟨false, 107, none⟩]) ∈
      (handleChannelMode exampleState 1 (ascii "#c") (some (ascii "+o-k")) [ascii "bob"]).out := by decide
  refine ⟨_, sent, (mode_replays rfl (by decide) sent).2 ?_⟩
  have asked : parseChannelModes (ascii "+o-k") [ascii "bob"] .rfc2812 =
      [⟨true, 111, some (ascii "bob")⟩, ⟨false, 107, none⟩] := by decide
  rw [asked]
  simp [KeyRemovedLast]

/-- The receiver takes the nick for the argument of `-k`. -/
theorem mode_replays_fails : ∃ (s : ServerState) (c : Channel) (uid r : UserId) (target letters : Bytes) (args : List Bytes)
    (line : Message), s.channel target = some c ∧ c.isOp uid ∧
      (r, line) ∈ (handleChannelMode s uid target (some letters) args).out ∧
      (handleChannelMode s uid target (some letters) args).state.channel target ≠ some (replayLine s c line) := by
  refine ⟨exampleState, exampleChannel, 1, 2, ascii "#c", ascii "-k+o", [ascii "key", ascii "bob"],
    echoLine (exampleState.objects 1).originPrefix (ascii "#c") [⟨false, 107, none⟩, ⟨true, 111, some (ascii "bob")⟩],
    rfl, by decide, by decide, fun same => ?_⟩
  have modes := congrArg (fun c => c.bind fun c => c.members.lookup 2) same
  revert modes
  decide

end RndRust.Irc.Server
