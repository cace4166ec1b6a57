import RndRust.Lib.Outcome
import RndRust.Lib.Scan

/-! Byte strings and the byte predicates of `util.rs`, the limits of `limits.rs`
and the wire errors of `error.rs`. -/
namespace RndRust.Irc.Proto

/-- `bytes::Bytes`, and every `&[u8]` of the source. -/
abbrev Bytes := List UInt8

/-- The bytes of an ASCII literal `b"..."`. -/
def ascii (text : String) : Bytes := text.toList.map Char.toUInt8

abbrev nul : UInt8 := 0
abbrev lf : UInt8 := 10
abbrev cr : UInt8 := 13
abbrev sp : UInt8 := 32
abbrev bang : UInt8 := 33
abbrev plus : UInt8 := 43
abbrev comma : UInt8 := 44
abbrev dot : UInt8 := 46
abbrev zero : UInt8 := 48
abbrev colon : UInt8 := 58
abbrev semi : UInt8 := 59
abbrev equals : UInt8 := 61
abbrev atSign : UInt8 := 64
abbrev backslash : UInt8 := 92

/-- Bytes forbidden anywhere in a wire message: NUL, CR, LF. -/
def isForbidden (b : UInt8) : Bool := b == nul || b == cr || b == lf

def isAsciiAlphabetic (b : UInt8) : Bool := (97 ≤ b && b ≤ 122) || (65 ≤ b && b ≤ 90)

def isAsciiDigit (b : UInt8) : Bool := 48 ≤ b && b ≤ 57

/-- Letters, digits, `-`, `_`, and the vendor separators `.` and `/`. -/
def isTagKeyByte (b : UInt8) : Bool :=
  isAsciiAlphabetic b || isAsciiDigit b || b == 45 || b == 95 || b == dot || b == 47

/-- Valid bytes inside a tag value before escape decoding. -/
def isTagValueByte (b : UInt8) : Bool :=
  !(b == nul || b == cr || b == lf || b == sp || b == semi || b == backslash)

def isMiddleFirst (b : UInt8) : Bool := !(b == nul || b == cr || b == lf || b == sp || b == colon)

def isMiddleRest (b : UInt8) : Bool := !(b == nul || b == cr || b == lf || b == sp)

/-- The one-pass parsers keep an index into the buffer; every byte stays below it
or is still to be read. `pos` is that index and `rest` the bytes from it on. -/
structure Cursor where
  pos : ℕ
  rest : Bytes
  deriving DecidableEq, Repr

def Cursor.advance (c : Cursor) (n : ℕ) : Cursor := ⟨c.pos + n, c.rest.drop n⟩

/-- `data.get(*pos)`. -/
def Cursor.peek (c : Cursor) : Option UInt8 := c.rest.head?

@[simp] theorem Cursor.advance_append (pos : ℕ) (read left : Bytes) :
    Cursor.advance ⟨pos, read ++ left⟩ read.length = ⟨pos + read.length, left⟩ := by
  simp [Cursor.advance]

@[simp] theorem Cursor.advance_one (pos : ℕ) (b : UInt8) (left : Bytes) :
    Cursor.advance ⟨pos, b :: left⟩ 1 = ⟨pos + 1, left⟩ := by
  simp [Cursor.advance]

@[simp] theorem Cursor.peek_cons (pos : ℕ) (b : UInt8) (left : Bytes) :
    Cursor.peek ⟨pos, b :: left⟩ = some b := rfl

@[simp] theorem Cursor.peek_nil (pos : ℕ) : Cursor.peek ⟨pos, []⟩ = none := rfl

/-- `MAX_TAG_BYTES + MAX_REST_BYTES`: the total a line may take on the wire. -/
def maxLineBytes : ℕ := 8191 + 512

/-- 14 `middle` params plus one `trailing`. -/
def maxParams : ℕ := 15

/-- Wire parse failures, each with the offset it was detected at. -/
inductive ParseError where
  | empty
  | lineTooLong (bytes : ℕ)
  | forbidden (at_ : ℕ)
  | missingSpace (at_ : ℕ)
  | unexpectedEnd
  | invalidTagKey (at_ : ℕ)
  | invalidTagEscape (at_ : ℕ)
  | invalidCommand (at_ : ℕ)
  | invalidPrefix (at_ : ℕ)
  | tooManyParams (at_ : ℕ)
  deriving DecidableEq, Repr

theorem isMiddleRest_iff {b : UInt8} :
    isMiddleRest b = true ↔ b ≠ nul ∧ b ≠ cr ∧ b ≠ lf ∧ b ≠ sp := by
  simp [isMiddleRest]
  tauto

theorem isForbidden_eq_false {b : UInt8} :
    isForbidden b = false ↔ b ≠ nul ∧ b ≠ cr ∧ b ≠ lf := by
  simp [isForbidden, and_assoc]

theorem isMiddleFirst_iff {b : UInt8} :
    isMiddleFirst b = true ↔ isMiddleRest b = true ∧ b ≠ colon := by
  simp [isMiddleFirst, isMiddleRest]

end RndRust.Irc.Proto
