import RndRust.Irc.Proto.Params
import RndRust.Irc.Proto.Prefix
import RndRust.Irc.Proto.Tags
import RndRust.Irc.Proto.Verb

/-! The wire message, `message.rs`: four regions, each written by its own writer
and split off again by its own parser. The round trip of a whole message is put
together from the round trips of the regions. -/
namespace RndRust.Irc.Proto
open Lib

/-- A single message in its wire-level form. -/
structure Message where
  tags : Tags := []
  /-- Optional origin. -/
  pfx : Option Prefix := none
  verb : Verb
  params : Params := {}
  deriving DecidableEq, Repr

/-- The single space that must end the tags and the prefix. -/
def expectSpace (c : Cursor) : Except ParseError Cursor :=
  if c.peek = some sp then .ok (c.advance 1) else .error (.missingSpace c.pos)

/-- The tags region, opened by `@`. -/
def parseTagsRegion (c : Cursor) : Except ParseError (Tags × Cursor) :=
  if c.peek = some atSign then do
    let (tags, after) ← parseTags (c.advance 1)
    let next ← expectSpace after
    .ok (tags, next)
  else .ok ([], c)

/-- The prefix region, opened by `:`. -/
def parsePrefixRegion (c : Cursor) : Except ParseError (Option Prefix × Cursor) :=
  if c.peek = some colon then do
    let (p, after) ← parsePrefix (c.advance 1)
    let next ← expectSpace after
    .ok (some p, next)
  else .ok (none, c)

/-- `Message::parse`. The caller has stripped any trailing CRLF. -/
def Message.parse (buf : Bytes) : Except ParseError Message :=
  if buf = [] then .error .empty
  else do
    let (tags, c) ← parseTagsRegion ⟨0, buf⟩
    let (pfx, c) ← parsePrefixRegion c
    let (verb, c) ← parseVerb c
    let (params, c) ← parseParams c
    if c.rest ≠ [] then .error (.missingSpace c.pos)
    else .ok ⟨tags, pfx, verb, params⟩

/-- The optional prefix, as `Message::write_to` writes it. -/
def writePrefixRegion : Option Prefix → Bytes
  | some p => writePrefix p
  | none => []

/-- `Message::write_to`, which appends no CRLF. -/
def Message.toBytes (m : Message) : Bytes :=
  writeTags m.tags ++ writePrefixRegion m.pfx ++ writeVerb m.verb ++ writeParams m.params

/-- The message grammar, region by region. -/
structure Message.Shaped (m : Message) : Prop where
  tags : ∀ tag ∈ m.tags, tag.WellFormed
  pfx : ∀ p ∈ m.pfx, p.Shaped
  verb : m.verb.WellFormed
  params : m.params.Shaped

/-- What the wire form of a message can tell apart: a prefix that is one token
split where it was put together, and a trailing flag with a value to carry. -/
structure Message.Separable (m : Message) : Prop where
  pfx : ∀ p ∈ m.pfx, p.Separable
  params : m.params.Flagged

/-- A message of the grammar whose wire form can be told apart. -/
structure Message.WellFormed (m : Message) : Prop where
  shaped : m.Shaped
  separable : m.Separable

instance Message.decidableShaped (m : Message) : Decidable m.Shaped :=
  decidable_of_iff ((∀ tag ∈ m.tags, tag.WellFormed) ∧ (∀ p ∈ m.pfx, p.Shaped) ∧
      m.verb.WellFormed ∧ m.params.Shaped)
    ⟨fun ⟨tags, pfx, verb, params⟩ => ⟨tags, pfx, verb, params⟩,
      fun ⟨tags, pfx, verb, params⟩ => ⟨tags, pfx, verb, params⟩⟩

instance Message.decidableSeparable (m : Message) : Decidable m.Separable :=
  decidable_of_iff ((∀ p ∈ m.pfx, p.Separable) ∧ m.params.Flagged)
    ⟨fun ⟨pfx, params⟩ => ⟨pfx, params⟩, fun ⟨pfx, params⟩ => ⟨pfx, params⟩⟩

instance Message.decidableWellFormed (m : Message) : Decidable m.WellFormed :=
  decidable_of_iff (m.Shaped ∧ m.Separable)
    ⟨fun ⟨shaped, separable⟩ => ⟨shaped, separable⟩,
      fun ⟨shaped, separable⟩ => ⟨shaped, separable⟩⟩

@[simp] theorem expectSpace_sp (pos : ℕ) (left : Bytes) :
    expectSpace ⟨pos, sp :: left⟩ = .ok ⟨pos + 1, left⟩ := by
  simp [expectSpace]

theorem parseTagsRegion_write {tags : Tags} {left : Bytes} (pos : ℕ)
    (wf : ∀ tag ∈ tags, tag.WellFormed) (closed : left.head? ≠ some atSign) :
    parseTagsRegion ⟨pos, writeTags tags ++ left⟩ =
      .ok (tags, ⟨pos + (writeTags tags).length, left⟩) := by
  by_cases empty : tags = []
  · subst empty
    simp [writeTags, parseTagsRegion, Cursor.peek, closed]
  · have read := parseTags_write (pos + 1) left empty wf
    have split : writeTags tags ++ left = atSign :: (writeTagList tags ++ sp :: left) := by
      simp [writeTags, empty]
    have length : (writeTags tags).length = (writeTagList tags).length + 2 := by
      simp [writeTags, empty]
    rw [split, parseTagsRegion]
    simp [read, length]
    omega

/-- A prefix that is read back is read back behind its colon. -/
theorem parsePrefixRegion_write {pfx : Option Prefix} {left : Bytes} (pos : ℕ)
    (read : ∀ p ∈ pfx, ∀ pos left, parsePrefix ⟨pos, writeOrigin p ++ sp :: left⟩ =
      .ok (p, ⟨pos + (writeOrigin p).length, sp :: left⟩))
    (closed : left.head? ≠ some colon) :
    parsePrefixRegion ⟨pos, writePrefixRegion pfx ++ left⟩ =
      .ok (pfx, ⟨pos + (writePrefixRegion pfx).length, left⟩) := by
  cases pfx with
  | none => simp [writePrefixRegion, parsePrefixRegion, Cursor.peek, closed]
  | some p =>
    have read := read p rfl (pos + 1) left
    simp [writePrefixRegion, parsePrefixRegion, writePrefix, read]
    omega

theorem head_append_of_ne_nil {first rest : Bytes} (nonempty : first ≠ []) :
    (first ++ rest).head? = first.head? := by
  obtain ⟨b, more, rfl⟩ := List.exists_cons_of_ne_nil nonempty
  rfl

/-- The bytes after the tags never look like another tags region. -/
theorem toBytes_after_tags {m : Message} (verb : m.verb.WellFormed) :
    (writePrefixRegion m.pfx ++ (writeVerb m.verb ++ writeParams m.params)).head? ≠
      some atSign := by
  cases m.pfx with
  | some p => simp [writePrefixRegion, writePrefix, colon, atSign]
  | none =>
    simp only [writePrefixRegion, List.nil_append]
    rw [head_append_of_ne_nil (writeVerb_ne_nil verb)]
    exact fun opens => (writeVerb_head verb atSign opens).1 rfl

theorem toBytes_ne_nil {m : Message} (wf : m.WellFormed) : m.toBytes ≠ [] := by
  simp [Message.toBytes, writeVerb_ne_nil wf.shaped.verb]

/-- A message whose regions are read back is read back. -/
theorem parse_of_regions {m : Message} {params : Params} (tags : ∀ tag ∈ m.tags, tag.WellFormed)
    (pfx : ∀ p ∈ m.pfx, ∀ pos left, parsePrefix ⟨pos, writeOrigin p ++ sp :: left⟩ =
      .ok (p, ⟨pos + (writeOrigin p).length, sp :: left⟩))
    (verb : m.verb.WellFormed) (read : ∀ pos, parseParams ⟨pos, writeParams m.params⟩ =
      .ok (params, ⟨pos + (writeParams m.params).length, []⟩)) :
    Message.parse m.toBytes = .ok { m with params } := by
  have nonempty : m.toBytes ≠ [] := by simp [Message.toBytes, writeVerb_ne_nil verb]
  have verbCloses : (writeVerb m.verb ++ writeParams m.params).head? ≠ some colon := by
    rw [head_append_of_ne_nil (writeVerb_ne_nil verb)]
    exact fun opens => (writeVerb_head verb colon opens).2 rfl
  have tagsRead := parseTagsRegion_write 0 tags (toBytes_after_tags verb)
  have pfxRead := fun pos => parsePrefixRegion_write pos pfx verbCloses
  have verbRead := fun pos => parseVerb_write pos verb (writeValues_stops m.params.trailing m.params.values)
  rw [Message.parse, if_neg nonempty]
  simp only [writeParams] at tagsRead pfxRead verbRead read
  simp only [Message.toBytes, writeParams, List.append_assoc]
  simp [tagsRead, pfxRead, verbRead, read]

/-- Reading what was written gives the message back. -/
theorem parse_toBytes {m : Message} (wf : m.WellFormed) : Message.parse m.toBytes = .ok m := by
  obtain ⟨shaped, separable⟩ := wf
  exact parse_of_regions shaped.tags
    (fun p chosen pos left => parsePrefix_write pos left (shaped.pfx p chosen) (separable.pfx p chosen)) shaped.verb
    fun pos => parseParams_write pos shaped.params separable.params

/-- Only the terminator of a line is a line feed. -/
theorem toBytes_no_lf {m : Message} (wf : m.WellFormed) : lf ∉ m.toBytes := by
  obtain ⟨shaped, separable⟩ := wf
  have pfx : lf ∉ writePrefixRegion m.pfx := by
    cases chosen : m.pfx with
    | none => simp [writePrefixRegion]
    | some p => exact writePrefix_no_lf (shaped.pfx p chosen) (separable.pfx p chosen)
  simp [Message.toBytes, writeParams, writeTags_no_lf shaped.tags, pfx,
    writeVerb_no_lf shaped.verb, writeValues_no_lf shaped.params.2.2]

/-- Every message the parser returns can be told apart on the wire. -/
theorem parse_separable {buf : Bytes} {m : Message} (read : Message.parse buf = .ok m) :
    m.Separable := by
  unfold Message.parse at read
  split at read
  · simp at read
  · obtain ⟨⟨tags, afterTags⟩, -, read⟩ := bind_eq_ok.mp read
    obtain ⟨⟨pfx, afterPfx⟩, pfxRead, read⟩ := bind_eq_ok.mp read
    obtain ⟨⟨verb, afterVerb⟩, -, read⟩ := bind_eq_ok.mp read
    obtain ⟨⟨params, afterParams⟩, paramsRead, read⟩ := bind_eq_ok.mp read
    dsimp only at read pfxRead paramsRead
    split at read
    · simp at read
    · cases read
      refine ⟨fun p chosen => ?_, parseParams_flagged paramsRead⟩
      cases Option.mem_def.mp chosen
      unfold parsePrefixRegion at pfxRead
      split at pfxRead
      · obtain ⟨⟨q, afterPrefix⟩, prefixRead, rest⟩ := bind_eq_ok.mp pfxRead
        obtain ⟨next, -, last⟩ := bind_eq_ok.mp rest
        cases last
        exact parsePrefix_separable prefixRead
      · simp at pfxRead

/-- A message of the grammar survives the wire exactly when its wire form can be
told apart: a user prefix is a single token, its host has no `!` unless a user
part precedes it, and the trailing flag comes with a value. -/
theorem wire_round_trip {m : Message} (shaped : m.Shaped) :
    Message.parse m.toBytes = .ok m ↔ m.Separable :=
  ⟨parse_separable, fun separable => parse_toBytes ⟨shaped, separable⟩⟩

/-- `@k=a;+v :nick!u@h PRIVMSG #c :hi` in every region at once. -/
theorem wire_round_trip_full :
    let m : Message := {
      tags := [⟨⟨false, ascii "k"⟩, some (ascii "a;b")⟩, ⟨⟨true, ascii "v"⟩, none⟩]
      pfx := some (.user (ascii "nick") (some (ascii "u")) (some (ascii "h")))
      verb := .word (ascii "PRIVMSG")
      params := ⟨[ascii "#c", ascii "hi there"], true⟩ }
    Message.parse m.toBytes = .ok m := by
  exact (wire_round_trip (by decide +kernel)).mpr (by decide +kernel)

/-- Nothing but an `@` in front of it tells a host from a user part. -/
def hostWithBang : Message :=
  ⟨[], some (.user (ascii "nick") none (some (ascii "a!b"))), .word (ascii "PING"), {}⟩

/-- The space in the nick ends the prefix. -/
def nickWithSpace : Message :=
  ⟨[], some (.user (ascii "a b") none (some (ascii "host"))), .word (ascii "PING"), {}⟩

/-- The flag is written in front of a last value, and there is none. -/
def flagWithoutParams : Message := ⟨[], none, .word (ascii "PING"), ⟨[], true⟩⟩

/-- The grammar alone is not enough: these messages have its shape and are lost. -/
theorem wire_round_trip_fails :
    (hostWithBang.Shaped ∧ Message.parse hostWithBang.toBytes ≠ .ok hostWithBang) ∧
    (nickWithSpace.Shaped ∧ Message.parse nickWithSpace.toBytes ≠ .ok nickWithSpace) ∧
    (flagWithoutParams.Shaped ∧
      Message.parse flagWithoutParams.toBytes ≠ .ok flagWithoutParams) := by
  decide +kernel

end RndRust.Irc.Proto
