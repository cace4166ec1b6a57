import RndRust.Irc.Proto.Util

/-! IRCv3 message tags, `tags.rs`: the parser, the writer with its escape table,
and that the parser reads back what the writer wrote. -/
namespace RndRust.Irc.Proto
open Lib

/-- Optional client-only `+` flag plus a name, which may hold a `vendor/` part. -/
structure TagKey where
  clientOnly : Bool
  name : Bytes
  deriving DecidableEq, Repr

/-- `value` is un-escaped. `none` is a key without `=`, `some []` a key with `=`
and nothing after it. -/
structure Tag where
  key : TagKey
  value : Option Bytes
  deriving DecidableEq, Repr

abbrev Tags := List Tag

/-- `parse_key`: an optional `+`, then the longest run of key bytes. -/
def parseKey (c : Cursor) : Except ParseError (TagKey × Cursor) :=
  let clientOnly := c.peek == some plus
  let start := if clientOnly then c.advance 1 else c
  let name := start.rest.takeWhile isTagKeyByte
  if name = [] then .error (.invalidTagKey c.pos)
  else .ok (⟨clientOnly, name⟩, start.advance name.length)

/-- The byte an escape `\c` stands for; an unknown escape is its second byte. -/
def unescape (c : UInt8) : UInt8 :=
  if c = colon then semi
  else if c = 115 then sp
  else if c = backslash then backslash
  else if c = 114 then cr
  else if c = 110 then lf
  else c

/-- `parse_value` from offset `i`: up to `;` or a space, undoing escapes. A
backslash with nothing after it is dropped. -/
def parseValue : ℕ → Bytes → Except ParseError (Bytes × Cursor)
  | i, [] => .ok ([], ⟨i, []⟩)
  | i, b :: rest =>
    if b = semi ∨ b = sp then .ok ([], ⟨i, b :: rest⟩)
    else if b = backslash then
      match rest with
      | [] => .ok ([], ⟨i + 1, []⟩)
      | c :: rest => do
        let (out, after) ← parseValue (i + 2) rest
        .ok (unescape c :: out, after)
    else if isForbidden b || !isTagValueByte b then .error (.invalidTagEscape i)
    else do
      let (out, after) ← parseValue (i + 1) rest
      .ok (b :: out, after)

theorem parseKey_shrinks {c after : Cursor} {key : TagKey} (read : parseKey c = .ok (key, after)) :
    after.rest.length < c.rest.length := by
  simp only [parseKey] at read
  generalize startDef : (if (c.peek == some plus) = true then c.advance 1 else c) = start at read
  have notLonger : start.rest.length ≤ c.rest.length := by
    rw [← startDef]
    split <;> simp [Cursor.advance]
  split at read
  · simp at read
  · rename_i found
    simp only [Except.ok.injEq, Prod.mk.injEq] at read
    obtain ⟨-, rfl⟩ := read
    have positive := List.length_pos_of_ne_nil found
    have bound := (List.takeWhile_prefix isTagKeyByte (l := start.rest)).length_le
    simp only [Cursor.advance, List.length_drop]
    omega

theorem parseValue_shrinks {i : ℕ} {rest out : Bytes} {after : Cursor}
    (read : parseValue i rest = .ok (out, after)) : after.rest.length ≤ rest.length := by
  fun_induction parseValue i rest generalizing out after with
  | case1 i =>
    cases read
    exact Nat.le_refl _
  | case2 i b rest stops =>
    cases read
    exact Nat.le_refl _
  | case3 i stops =>
    cases read
    simp
  | case4 i c rest stops ih =>
    obtain ⟨⟨out', after'⟩, deeper, last⟩ := bind_eq_ok.mp read
    cases last
    have := ih deeper
    simp only [List.length_cons]
    omega
  | case5 i b rest stops plain refused => simp at read
  | case6 i b rest stops plain admitted ih =>
    obtain ⟨⟨out', after'⟩, deeper, last⟩ := bind_eq_ok.mp read
    cases last
    have := ih deeper
    simp only [List.length_cons]
    omega

/-- The part of one loop iteration that follows the key: `=` and a value, or none. -/
def parseOptionalValue (c : Cursor) : Except ParseError (Option Bytes × Cursor) :=
  if c.peek = some equals then do
    let (v, after) ← parseValue (c.advance 1).pos (c.advance 1).rest
    .ok (some v, after)
  else .ok (none, c)

theorem parseOptionalValue_shrinks {c after : Cursor} {value : Option Bytes}
    (read : parseOptionalValue c = .ok (value, after)) :
    after.rest.length ≤ c.rest.length := by
  simp only [parseOptionalValue] at read
  split at read
  · obtain ⟨⟨v, after'⟩, parsed, last⟩ := bind_eq_ok.mp read
    cases last
    have shorter := parseValue_shrinks parsed
    simp only [Cursor.advance, List.length_drop] at shorter ⊢
    omega
  · cases read
    exact Nat.le_refl _

/-- `parse_tags` from the byte after the leading `@`. It stops on the space that
must separate the tags from the rest of the message. -/
def parseTags (c : Cursor) : Except ParseError (Tags × Cursor) :=
  match keyRead : parseKey c with
  | .error e => .error e
  | .ok (key, afterKey) =>
    match valueRead : parseOptionalValue afterKey with
    | .error e => .error e
    | .ok (value, after) =>
      if after.peek = some semi then
        have : (after.advance 1).rest.length < c.rest.length := by
          have := parseKey_shrinks keyRead
          have := parseOptionalValue_shrinks valueRead
          simp only [Cursor.advance, List.length_drop]
          omega
        match parseTags (after.advance 1) with
        | .error e => .error e
        | .ok (more, last) => .ok (⟨key, value⟩ :: more, last)
      else if after.peek = some sp then .ok ([⟨key, value⟩], after)
      else .error (.invalidTagKey after.pos)
termination_by c.rest.length

/-- One iteration of the loop, without the bookkeeping of its termination. -/
theorem parseTags_eq (c : Cursor) : parseTags c = (do
    let (key, afterKey) ← parseKey c
    let (value, after) ← parseOptionalValue afterKey
    if after.peek = some semi then do
      let (more, last) ← parseTags (after.advance 1)
      .ok (⟨key, value⟩ :: more, last)
    else if after.peek = some sp then .ok ([⟨key, value⟩], after)
    else .error (.invalidTagKey after.pos)) := by
  rw [parseTags]
  split
  · rename_i e keyRead
    simp [keyRead]
  · rename_i key afterKey keyRead
    simp only [keyRead, ok_bind]
    split
    · rename_i e valueRead
      simp [valueRead]
    · rename_i value after valueRead
      simp only [valueRead, ok_bind]
      split
      · cases parseTags (after.advance 1) <;> rfl
      · rfl

/-- `write_escaped_value` on one byte. -/
def escapeByte (b : UInt8) : Bytes :=
  if b = semi then [backslash, colon]
  else if b = sp then [backslash, 115]
  else if b = backslash then [backslash, backslash]
  else if b = cr then [backslash, 114]
  else if b = lf then [backslash, 110]
  else [b]

def writeEscapedValue (v : Bytes) : Bytes := v.flatMap escapeByte

def writeTag (tag : Tag) : Bytes :=
  (if tag.key.clientOnly then [plus] else []) ++ tag.key.name ++
    match tag.value with
    | some v => equals :: writeEscapedValue v
    | none => []

/-- The tags with `;` between them. -/
def writeTagList : Tags → Bytes
  | [] => []
  | [tag] => writeTag tag
  | tag :: more => writeTag tag ++ semi :: writeTagList more

/-- `write_tags`: `@`, the tags and one space, or nothing for an empty set. -/
def writeTags (tags : Tags) : Bytes :=
  if tags = [] then [] else atSign :: writeTagList tags ++ [sp]

/-- A key the parser can produce: a nonempty run of key bytes. -/
def TagKey.WellFormed (key : TagKey) : Prop :=
  key.name ≠ [] ∧ ∀ b ∈ key.name, isTagKeyByte b = true

/-- Every byte of a value but NUL has a written form. -/
def Tag.WellFormed (tag : Tag) : Prop :=
  tag.key.WellFormed ∧ ∀ v ∈ tag.value, nul ∉ v

instance TagKey.decidableWellFormed (key : TagKey) : Decidable key.WellFormed := inferInstanceAs (Decidable (_ ∧ _))

instance Tag.decidableWellFormed (tag : Tag) : Decidable tag.WellFormed := inferInstanceAs (Decidable (_ ∧ _))

theorem parseKey_write {key : TagKey} {left : Bytes} (pos : ℕ) (wf : key.WellFormed)
    (ends : StopsAt (fun b => !isTagKeyByte b) left) :
    parseKey ⟨pos, (if key.clientOnly then [plus] else []) ++ key.name ++ left⟩ =
      .ok (key, ⟨pos + ((if key.clientOnly then [plus] else []) ++ key.name).length, left⟩) := by
  obtain ⟨clientOnly, name⟩ := key
  obtain ⟨nonempty, admitted⟩ := wf
  have run := takeWhile_append_stop admitted ends
  cases clientOnly with
  | true =>
    simp only [parseKey, ↓reduceIte, List.cons_append, List.nil_append, Cursor.peek_cons,
      beq_self_eq_true, Cursor.advance_one, run, nonempty, Cursor.advance_append,
      List.length_cons]
    simp [Nat.add_comm, Nat.add_left_comm]
  | false =>
    obtain ⟨first, more, rfl⟩ := List.exists_cons_of_ne_nil nonempty
    have notPlus : first ≠ plus := by
      rintro rfl
      exact absurd (admitted plus (by simp)) (by decide)
    have peeked : (some first == some plus) = false := by simpa using notPlus
    simp only [parseKey, Bool.false_eq_true, ↓reduceIte, List.nil_append, List.cons_append,
      Cursor.peek_cons, peeked]
    simp only [List.cons_append] at run
    rw [run, if_neg nonempty]
    have := Cursor.advance_append pos (first :: more) left
    simp only [List.cons_append] at this
    rw [this]

theorem parseValue_plain {b : UInt8} (i : ℕ) (rest : Bytes) (plain : isTagValueByte b = true) :
    parseValue i (b :: rest) = (do
      let (out, after) ← parseValue (i + 1) rest
      .ok (b :: out, after)) := by
  obtain ⟨isNul, isCr, isLf, isSp, isSemi, isBackslash⟩ :
      b ≠ nul ∧ b ≠ cr ∧ b ≠ lf ∧ b ≠ sp ∧ b ≠ semi ∧ b ≠ backslash := by
    simpa [isTagValueByte, and_assoc] using plain
  rw [parseValue.eq_def]
  simp [isSemi, isSp, isBackslash, isNul, isCr, isLf, isForbidden, plain]

theorem parseValue_stop {b : UInt8} (i : ℕ) (rest : Bytes) (stops : b = semi ∨ b = sp) :
    parseValue i (b :: rest) = .ok ([], ⟨i, b :: rest⟩) := by
  rw [parseValue.eq_def]
  simp only [stops, ↓reduceIte]

/-- An escaped byte is read back as itself, whatever follows it. -/
theorem parseValue_escapeByte {b : UInt8} (i : ℕ) (rest : Bytes) (notNul : b ≠ nul) :
    parseValue i (escapeByte b ++ rest) = (do
      let (out, after) ← parseValue (i + (escapeByte b).length) rest
      .ok (b :: out, after)) := by
  unfold escapeByte
  split_ifs with isSemi isSp isBackslash isCr isLf
  · subst isSemi
    simp [parseValue, unescape, semi, sp, backslash, colon]
  · subst isSp
    simp [parseValue, unescape, semi, sp, backslash, colon]
  · subst isBackslash
    simp [parseValue, unescape, semi, sp, backslash, colon]
  · subst isCr
    simp [parseValue, unescape, semi, sp, backslash, colon]
  · subst isLf
    simp [parseValue, unescape, semi, sp, backslash, colon]
  · exact parseValue_plain i rest
      (by simp [isTagValueByte, notNul, isCr, isLf, isSp, isSemi, isBackslash])

theorem parseValue_write {v left : Bytes} (i : ℕ) (noNul : nul ∉ v)
    (ends : StopsAt (fun b => b == semi || b == sp) left) :
    parseValue i (writeEscapedValue v ++ left) =
      .ok (v, ⟨i + (writeEscapedValue v).length, left⟩) := by
  induction v generalizing i with
  | nil =>
    cases left with
    | nil => rfl
    | cons b left =>
      have stops : b = semi ∨ b = sp := by simpa using ends
      exact parseValue_stop i left stops
  | cons b v ih =>
    have head : b ≠ nul := fun same => noNul (by simp [same])
    have tail : nul ∉ v := fun member => noNul (List.mem_cons_of_mem _ member)
    have split : writeEscapedValue (b :: v) = escapeByte b ++ writeEscapedValue v := rfl
    rw [split, List.append_assoc, parseValue_escapeByte i _ head, ih _ tail]
    simp [Nat.add_assoc]

/-- A byte that ends a tag: the separator of the next one, or of the region. -/
theorem stopsAt_tag_end {left : Bytes} (ends : StopsAt (fun b => b == semi || b == sp) left) :
    StopsAt (fun b => !isTagKeyByte b) left := by
  intro b head
  have either : b = semi ∨ b = sp := by simpa using ends b head
  rcases either with rfl | rfl <;> decide

theorem peek_tag_end {left : Bytes} (pos : ℕ)
    (ends : StopsAt (fun b => b == semi || b == sp) left) :
    Cursor.peek ⟨pos, left⟩ ≠ some equals := by
  cases left with
  | nil => simp
  | cons b left =>
    have either : b = semi ∨ b = sp := by simpa using ends
    rcases either with rfl | rfl <;> simp [equals, semi, sp]

/-- One iteration of the tag loop reads one written tag. -/
theorem parseTag_write {tag : Tag} (pos : ℕ) (left : Bytes) (wf : tag.WellFormed)
    (ends : StopsAt (fun b => b == semi || b == sp) left) :
    ∃ afterKey, parseKey ⟨pos, writeTag tag ++ left⟩ = .ok (tag.key, afterKey) ∧
      parseOptionalValue afterKey = .ok (tag.value, ⟨pos + (writeTag tag).length, left⟩) := by
  obtain ⟨key, value⟩ := tag
  obtain ⟨keyWf, valueWf⟩ := wf
  cases value with
  | none =>
    refine ⟨⟨pos + (writeTag ⟨key, none⟩).length, left⟩, ?_, ?_⟩
    · have read := parseKey_write pos keyWf (stopsAt_tag_end ends)
      simpa [writeTag] using read
    · simp [parseOptionalValue, peek_tag_end _ ends]
  | some v =>
    have noNul : nul ∉ v := valueWf v rfl
    have stops : StopsAt (fun b => !isTagKeyByte b)
        (equals :: writeEscapedValue v ++ left) := by
      simp only [List.cons_append, stopsAt_cons]
      decide
    have read := parseKey_write pos keyWf stops
    refine ⟨_, by simpa only [writeTag, List.append_assoc] using read, ?_⟩
    simp [parseOptionalValue, parseValue_write _ noNul ends, writeTag]
    omega

/-- The tag loop reads back a written tag list, up to the space after it. -/
theorem parseTags_write {tags : Tags} (pos : ℕ) (left : Bytes) (nonempty : tags ≠ [])
    (wf : ∀ tag ∈ tags, tag.WellFormed) :
    parseTags ⟨pos, writeTagList tags ++ sp :: left⟩ =
      .ok (tags, ⟨pos + (writeTagList tags).length, sp :: left⟩) := by
  induction tags generalizing pos with
  | nil => contradiction
  | cons tag more ih =>
    have tagWf := wf tag (by simp)
    have moreWf : ∀ t ∈ more, t.WellFormed := fun t member => wf t (List.mem_cons_of_mem _ member)
    cases more with
    | nil =>
      obtain ⟨afterKey, keyRead, valueRead⟩ :=
        parseTag_write pos (sp :: left) tagWf (by simp)
      rw [parseTags_eq]
      simp [writeTagList, keyRead, valueRead, sp, semi]
    | cons next more =>
      obtain ⟨afterKey, keyRead, valueRead⟩ :=
        parseTag_write pos (semi :: writeTagList (next :: more) ++ sp :: left) tagWf (by simp)
      have rest := ih (pos + (writeTag tag).length + 1) (by simp) moreWf
      have split : writeTagList (tag :: next :: more) ++ sp :: left =
          writeTag tag ++ (semi :: writeTagList (next :: more) ++ sp :: left) := by
        simp [writeTagList]
      rw [split, parseTags_eq]
      simp only [keyRead, valueRead, ok_bind]
      simp [rest, writeTagList]
      omega

theorem escapeByte_no_lf (b : UInt8) : lf ∉ escapeByte b := by
  unfold escapeByte
  split_ifs with isSemi isSp isBackslash isCr isLf
  all_goals simp [backslash, colon, lf]
  exact Ne.symm isLf

theorem writeTag_no_lf {tag : Tag} (wf : tag.WellFormed) : lf ∉ writeTag tag := by
  have name : lf ∉ tag.key.name := fun member =>
    absurd (wf.1.2 lf member) (by decide)
  have value : ∀ v, lf ∉ writeEscapedValue v := fun v member => by
    obtain ⟨b, -, written⟩ := List.mem_flatMap.mp member
    exact escapeByte_no_lf b written
  have flag : lf ∉ if tag.key.clientOnly then [plus] else [] := by
    split <;> simp [plus, lf]
  cases shape : tag.value with
  | none => simp [writeTag, shape, name, flag]
  | some v => simp [writeTag, shape, name, flag, value v, equals, lf]

/-- Written tags hold no line feed: a value that does has it escaped. -/
theorem writeTags_no_lf {tags : Tags} (wf : ∀ tag ∈ tags, tag.WellFormed) :
    lf ∉ writeTags tags := by
  have list : ∀ tags : Tags, (∀ tag ∈ tags, tag.WellFormed) → lf ∉ writeTagList tags := by
    intro tags wf
    induction tags with
    | nil => simp [writeTagList]
    | cons tag more ih =>
      have first := writeTag_no_lf (wf tag (by simp))
      have rest := ih fun other member => wf other (List.mem_cons_of_mem _ member)
      cases more with
      | nil => simpa [writeTagList] using first
      | cons next more => simpa [writeTagList, semi, lf] using ⟨first, rest⟩
  unfold writeTags
  split
  · simp
  · simpa [atSign, sp, lf] using list tags wf

end RndRust.Irc.Proto
