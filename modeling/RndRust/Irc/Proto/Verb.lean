import RndRust.Irc.Proto.Util
import Mathlib.Tactic.IntervalCases

/-! The command verb, `verb.rs`: an alphabetic word or a three-digit numeric. -/
namespace RndRust.Irc.Proto
open Lib

/-- `numeric` carries the reply code, `word` the bytes as they came. -/
inductive Verb where
  | numeric (code : UInt16)
  | word (bytes : Bytes)
  deriving DecidableEq, Repr

/-- What must follow a verb: the end of the message or a space. -/
def verbEnds (left : Bytes) : Bool := left.head? == none || left.head? == some sp

/-- The three-digit path of `parse_verb`. -/
def parseNumeric (c : Cursor) : Except ParseError (Verb × Cursor) :=
  match c.rest with
  | h :: t :: u :: left =>
    if !isAsciiDigit t || !isAsciiDigit u || !verbEnds left then .error (.invalidCommand c.pos)
    else .ok (.numeric ((h - zero).toUInt16 * 100 + (t - zero).toUInt16 * 10 + (u - zero).toUInt16),
      ⟨c.pos + 3, left⟩)
  | _ => .error (.invalidCommand c.pos)

/-- `parse_verb`. It stops on the space before the params or at the end of input. -/
def parseVerb (c : Cursor) : Except ParseError (Verb × Cursor) :=
  match c.peek with
  | none => .error .unexpectedEnd
  | some first =>
    if isAsciiDigit first then parseNumeric c
    else if !isAsciiAlphabetic first then .error (.invalidCommand c.pos)
    else
      let word := c.rest.takeWhile isAsciiAlphabetic
      let after := c.advance word.length
      if !verbEnds after.rest then .error (.invalidCommand c.pos)
      else .ok (.word word, after)

/-- `b'0' + d as u8`. -/
def digitByte (d : UInt16) : UInt8 := zero + d.toUInt8

/-- `write_verb`. A code above 999 loses its high digits. -/
def writeVerb : Verb → Bytes
  | .word w => w
  | .numeric code =>
    [digitByte (code % 1000 / 100), digitByte (code % 1000 / 10 % 10), digitByte (code % 1000 % 10)]

/-- A nonempty alphabetic word, or a code of at most three digits. -/
def Verb.WellFormed : Verb → Prop
  | .word w => w ≠ [] ∧ ∀ b ∈ w, isAsciiAlphabetic b = true
  | .numeric code => code < 1000

instance Verb.decidableWellFormed : (verb : Verb) → Decidable verb.WellFormed
  | .word _ => inferInstanceAs (Decidable (_ ∧ _))
  | .numeric _ => inferInstanceAs (Decidable (_ < _))

theorem digitByte_spec {d : UInt16} (small : d < 10) :
    isAsciiDigit (digitByte d) = true ∧ (digitByte d - zero).toUInt16 = d := by
  have bound : d.toNat < 10 := by simpa [UInt16.lt_iff_toNat_lt] using small
  rw [show d = UInt16.ofNat d.toNat by simp]
  generalize d.toNat = r at bound
  interval_cases r <;> decide

/-- A code below 1000 is the number its three digits spell. -/
theorem digits_spell {code : UInt16} (small : code < 1000) :
    code % 1000 / 100 < 10 ∧ code % 1000 / 10 % 10 < 10 ∧ code % 1000 % 10 < 10 ∧
      code % 1000 / 100 * 100 + code % 1000 / 10 % 10 * 10 + code % 1000 % 10 = code := by
  simp only [UInt16.lt_iff_toNat_lt, ← UInt16.toNat_inj, UInt16.toNat_add, UInt16.toNat_mul,
    UInt16.toNat_div, UInt16.toNat_mod] at small ⊢
  simp only [show (1000 : UInt16).toNat = 1000 from rfl, show (100 : UInt16).toNat = 100 from rfl,
    show (10 : UInt16).toNat = 10 from rfl] at small ⊢
  generalize code.toNat = n at small
  rw [Nat.mod_eq_of_lt small]
  refine ⟨by omega, by omega, by omega, ?_⟩
  rw [Nat.mod_eq_of_lt (a := n / 100 * 100) (by omega),
    Nat.mod_eq_of_lt (a := n / 10 % 10 * 10) (by omega),
    Nat.mod_eq_of_lt (a := n / 100 * 100 + n / 10 % 10 * 10) (by omega),
    Nat.mod_eq_of_lt (by omega)]
  omega

theorem verbEnds_iff {left : Bytes} : verbEnds left = true ↔ StopsAt (· == sp) left := by
  cases left <;> simp [verbEnds]

theorem alphabetic_not_digit {b : UInt8} (alphabetic : isAsciiAlphabetic b = true) :
    isAsciiDigit b = false := by
  simp only [isAsciiAlphabetic, isAsciiDigit, Bool.or_eq_true, Bool.and_eq_true,
    decide_eq_true_eq, Bool.and_eq_false_iff, decide_eq_false_iff_not, UInt8.le_iff_toNat_le,
    show (97 : UInt8).toNat = 97 from rfl, show (122 : UInt8).toNat = 122 from rfl,
    show (65 : UInt8).toNat = 65 from rfl, show (90 : UInt8).toNat = 90 from rfl,
    show (48 : UInt8).toNat = 48 from rfl, show (57 : UInt8).toNat = 57 from rfl] at *
  omega

/-- A written verb is read back, before a space or the end of the message. -/
theorem parseVerb_write {verb : Verb} {left : Bytes} (pos : ℕ) (wf : verb.WellFormed)
    (ends : StopsAt (· == sp) left) :
    parseVerb ⟨pos, writeVerb verb ++ left⟩ = .ok (verb, ⟨pos + (writeVerb verb).length, left⟩) := by
  cases verb with
  | numeric code =>
    obtain ⟨hundreds, tens, units, spells⟩ := digits_spell wf
    obtain ⟨hDigit, hValue⟩ := digitByte_spec hundreds
    obtain ⟨tDigit, tValue⟩ := digitByte_spec tens
    obtain ⟨uDigit, uValue⟩ := digitByte_spec units
    simp only [writeVerb, List.cons_append, List.nil_append, parseVerb, Cursor.peek_cons, hDigit,
      ↓reduceIte, parseNumeric, tDigit, uDigit, verbEnds_iff.mpr ends, Bool.not_true, Bool.or_self,
      Bool.false_eq_true, hValue, tValue, uValue, spells, List.length_cons, List.length_nil,
      Nat.zero_add, Nat.reduceAdd]
  | word w =>
    obtain ⟨nonempty, alphabetic⟩ := wf
    obtain ⟨first, more, rfl⟩ := List.exists_cons_of_ne_nil nonempty
    have head := alphabetic first (by simp)
    have stops : StopsAt (fun b => !isAsciiAlphabetic b) left := by
      intro b next
      have : b = sp := by simpa using ends b next
      subst this
      decide
    have run := takeWhile_append_stop alphabetic stops
    have after := Cursor.advance_append pos (first :: more) left
    simp only [List.cons_append] at run after
    simp only [writeVerb, List.cons_append, parseVerb, Cursor.peek_cons, alphabetic_not_digit head,
      Bool.false_eq_true, ↓reduceIte, head, Bool.not_true, run, after, verbEnds_iff.mpr ends]

theorem writeVerb_ne_nil {verb : Verb} (wf : verb.WellFormed) : writeVerb verb ≠ [] := by
  cases verb with
  | numeric code => simp [writeVerb]
  | word w => exact wf.1

/-- The first byte of a verb opens neither a tags region nor a prefix. -/
theorem writeVerb_head {verb : Verb} (wf : verb.WellFormed) :
    ∀ b ∈ (writeVerb verb).head?, b ≠ atSign ∧ b ≠ colon := by
  cases verb with
  | numeric code =>
    intro b head
    have : digitByte (code % 1000 / 100) = b := by simpa [writeVerb] using head
    have digit := (digitByte_spec (digits_spell wf).1).1
    rw [this] at digit
    constructor <;> rintro rfl <;> exact absurd digit (by decide)
  | word w =>
    intro b head
    have alphabetic := wf.2 b (List.mem_of_mem_head? head)
    constructor <;> rintro rfl <;> exact absurd alphabetic (by decide)

theorem digitByte_ne_lf {d : UInt16} (small : d < 10) : digitByte d ≠ lf := by
  intro same
  have digit := (digitByte_spec small).1
  rw [same] at digit
  exact absurd digit (by decide)

theorem writeVerb_no_lf {verb : Verb} (wf : verb.WellFormed) : lf ∉ writeVerb verb := by
  cases verb with
  | numeric code =>
    obtain ⟨hundreds, tens, units, -⟩ := digits_spell wf
    simp [writeVerb, (digitByte_ne_lf hundreds).symm, (digitByte_ne_lf tens).symm,
      (digitByte_ne_lf units).symm]
  | word w => exact fun member => absurd (wf.2 lf member) (by decide)

end RndRust.Irc.Proto
