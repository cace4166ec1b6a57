import RndRust.Irc.Proto.Util

/-! Text formatting, `format.rs`. The bytes that format a text are described apart from the
parser: a control byte, and behind one for a colour as many digits as belong to it. What the
parser leaves out is that and nothing else. -/
namespace RndRust.Irc.Proto

namespace Control

abbrev bold : UInt8 := 0x02
abbrev color : UInt8 := 0x03
abbrev hexColor : UInt8 := 0x04
abbrev reset : UInt8 := 0x0F
abbrev monospace : UInt8 := 0x11
abbrev reverse : UInt8 := 0x16
abbrev italic : UInt8 := 0x1D
abbrev strikethrough : UInt8 := 0x1E
abbrev underline : UInt8 := 0x1F

def all : Bytes := [bold, color, hexColor, reset, monospace, reverse, italic, strikethrough, underline]

end Control

inductive Color where
  | palette (index : UInt8)
  | rgb (r g b : UInt8)
  deriving DecidableEq, Repr

structure Style where
  fg : Option Color := none
  bg : Option Color := none
  bold : Bool := false
  italic : Bool := false
  underline : Bool := false
  strikethrough : Bool := false
  monospace : Bool := false
  reverse : Bool := false
  deriving DecidableEq, Repr

structure StyledSpan where
  text : Bytes
  style : Style
  deriving DecidableEq, Repr

/-- The loop of `read_palette_color`: the value of the digits and how many there are. -/
def readPaletteLoop (bytes : Bytes) (value consumed : ℕ) : ℕ × ℕ :=
  if consumed < 2 then
    match bytes[consumed]? with
    | some b =>
      if isAsciiDigit b then readPaletteLoop bytes (value * 10 + (b - 48).toNat) (consumed + 1) else (value, consumed)
    | none => (value, consumed)
  else (value, consumed)
termination_by 2 - consumed

/-- `read_palette_color`: up to two decimal digits. -/
def readPaletteColor (bytes : Bytes) : Option Color × ℕ :=
  let (value, consumed) := readPaletteLoop bytes 0 0
  if consumed = 0 then (none, 0) else (some (.palette (min value 98).toUInt8), consumed)

def isAsciiHexdigit (b : UInt8) : Bool := isAsciiDigit b || (97 ≤ b && b ≤ 102) || (65 ≤ b && b ≤ 70)

def hexDigit (b : UInt8) : UInt8 :=
  if 48 ≤ b && b ≤ 57 then b - 48
  else if 97 ≤ b && b ≤ 102 then b - 97 + 10
  else if 65 ≤ b && b ≤ 70 then b - 65 + 10
  else 0

def hexPair (hi lo : UInt8) : UInt8 := hexDigit hi * 16 + hexDigit lo

/-- `read_hex_color`: exactly six hex digits. -/
def readHexColor (bytes : Bytes) : Option Color × ℕ :=
  match bytes with
  | r :: r' :: g :: g' :: b :: b' :: _ =>
    if [r, r', g, g', b, b'].all isAsciiHexdigit then (some (.rgb (hexPair r r') (hexPair g g') (hexPair b b')), 6)
    else (none, 0)
  | _ => (none, 0)

/-- `flush_run`: the bytes since the run started, if it has started. -/
def flushRun (run : Option Bytes) (style : Style) : List StyledSpan :=
  match run with
  | some text => if text ≠ [] then [⟨text, style⟩] else []
  | none => []

/-- The branch of a colour's control byte, with the bytes behind it: the new style, and the bytes
behind the digits. -/
def readColors (read : Bytes → Option Color × ℕ) (current : Style) (bytes : Bytes) : Style × Bytes :=
  let (fg, consumed) := read bytes
  let left := bytes.drop consumed
  if consumed = 0 then ({ current with fg := none, bg := none }, left)
  else
    let current := { current with fg }
    if left.head? = some comma then
      let (bg, bgConsumed) := read left.tail
      if bgConsumed > 0 then ({ current with bg }, left.drop (1 + bgConsumed)) else (current, left)
    else (current, left)

/-- The branches of the control bytes that stand alone. -/
def toggled (current : Style) (b : UInt8) : Option Style :=
  if b = Control.bold then some { current with bold := !current.bold }
  else if b = Control.italic then some { current with italic := !current.italic }
  else if b = Control.underline then some { current with underline := !current.underline }
  else if b = Control.strikethrough then some { current with strikethrough := !current.strikethrough }
  else if b = Control.monospace then some { current with monospace := !current.monospace }
  else if b = Control.reverse then some { current with reverse := !current.reverse }
  else if b = Control.reset then some {}
  else none

variable {read : Bytes → Option Color × ℕ} {current style : Style} {bytes left : Bytes}

theorem readColors_length (read : Bytes → Option Color × ℕ) (current : Style) (bytes : Bytes) :
    (readColors read current bytes).2.length ≤ bytes.length := by
  unfold readColors
  dsimp only
  split_ifs <;> simp only [List.length_drop] <;> omega

/-- The loop of `parse_styled` over the bytes from `i` on; `run` holds those from `run_start` to `i`. -/
def parseStyledLoop (current : Style) (run : Option Bytes) (bytes : Bytes) : List StyledSpan :=
  match bytes with
  | [] => flushRun run current
  | b :: rest =>
    match toggled current b with
    | some next => flushRun run current ++ parseStyledLoop next none rest
    | none =>
      if b = Control.color then
        flushRun run current ++
          parseStyledLoop (readColors readPaletteColor current rest).1 none (readColors readPaletteColor current rest).2
      else if b = Control.hexColor then
        flushRun run current ++
          parseStyledLoop (readColors readHexColor current rest).1 none (readColors readHexColor current rest).2
      else parseStyledLoop current (some (run.getD [] ++ [b])) rest
termination_by bytes.length
decreasing_by
  · simp
  · exact Nat.lt_succ_of_le (readColors_length readPaletteColor current rest)
  · exact Nat.lt_succ_of_le (readColors_length readHexColor current rest)
  · simp

/-- `parse_styled`. -/
def parseStyled (input : Bytes) : List StyledSpan := parseStyledLoop {} none input

/-- `strip_formatting`. -/
def stripFormatting (input : Bytes) : Bytes := (parseStyled input).flatMap StyledSpan.text

/-- The digits of a palette colour, up to two of those in front of the rest. -/
def PaletteDigits (digits rest : Bytes) : Prop :=
  (∀ b ∈ digits, isAsciiDigit b = true) ∧
    (digits.length = 2 ∨ digits.length = 1 ∧ ∀ b ∈ rest.head?, isAsciiDigit b = false)

/-- The digits of a hex colour. -/
def HexDigits (digits _rest : Bytes) : Prop := (∀ b ∈ digits, isAsciiHexdigit b = true) ∧ digits.length = 6

instance (digits rest : Bytes) : Decidable (HexDigits digits rest) := inferInstanceAs (Decidable (_ ∧ _))

/-- What belongs to a colour's control byte of the bytes behind it: the digits of one colour, or of
two with a comma between them, as far as they are there. -/
inductive Colors (Digits : Bytes → Bytes → Prop) : Bytes → Bytes → Prop
  | none {rest : Bytes} (missing : ∀ digits more, rest = digits ++ more → ¬Digits digits more) : Colors Digits [] rest
  | foreground {digits rest : Bytes} (fg : Digits digits rest)
      (missing : ∀ digits more, rest = comma :: (digits ++ more) → ¬Digits digits more) : Colors Digits digits rest
  | both {digits digits' rest : Bytes} (fg : Digits digits (comma :: (digits' ++ rest))) (bg : Digits digits' rest) :
      Colors Digits (digits ++ comma :: digits') rest

/-- A formatting sequence in front of the rest of a text. -/
inductive FormatCode : Bytes → Bytes → Prop
  | alone {b : UInt8} {rest : Bytes} (control : b ∈ Control.all) (plain : b ≠ Control.color ∧ b ≠ Control.hexColor) :
      FormatCode [b] rest
  | color {colors rest : Bytes} : Colors PaletteDigits colors rest → FormatCode (Control.color :: colors) rest
  | hexColor {colors rest : Bytes} : Colors HexDigits colors rest → FormatCode (Control.hexColor :: colors) rest

/-- A formatted text and what is left of it without its formatting sequences. -/
inductive Formatted : Bytes → Bytes → Prop
  | nil : Formatted [] []
  | plain {b : UInt8} {text kept : Bytes} (plain : b ∉ Control.all) (rest : Formatted text kept) :
      Formatted (b :: text) (b :: kept)
  | code {sequence text kept : Bytes} (code : FormatCode sequence text) (rest : Formatted text kept) :
      Formatted (sequence ++ text) kept

section Reading

variable {Digits : Bytes → Bytes → Prop} {rest digits more : Bytes}

/-- The reader finds the digits that are there, and there is no choice of them. -/
structure Finds (read : Bytes → Option Color × ℕ) (Digits : Bytes → Bytes → Prop) : Prop where
  found {bytes : Bytes} : 0 < (read bytes).2 → Digits (bytes.take (read bytes).2) (bytes.drop (read bytes).2)
  unique {digits more : Bytes} : Digits digits more → (read (digits ++ more)).2 = digits.length
  nonempty {digits more : Bytes} : Digits digits more → digits ≠ []

theorem Finds.missing (finds : Finds read Digits) (none : (read bytes).2 = 0) (digits more : Bytes)
    (split : bytes = digits ++ more) : ¬Digits digits more := fun there => by
  rw [split, finds.unique there] at none
  exact finds.nonempty there (List.length_eq_zero_iff.mp none)

theorem Finds.same (finds : Finds read Digits) {digits' more' : Bytes} (one : Digits digits more)
    (other : Digits digits' more') (same : digits ++ more = digits' ++ more') : digits = digits' ∧ more = more' := by
  have first := finds.unique one
  rw [same, finds.unique other] at first
  exact List.append_inj same first.symm

/-- The branch of a colour takes what belongs to its control byte. -/
theorem readColors_colors (finds : Finds read Digits) :
    ∃ colors, bytes = colors ++ (readColors read current bytes).2 ∧ Colors Digits colors (readColors read current bytes).2 := by
  unfold readColors
  dsimp only
  split_ifs with none separated background
  · exact ⟨[], by simp [none], .none (by simpa [none] using finds.missing none)⟩
  · have fg := finds.found (Nat.pos_of_ne_zero none)
    obtain ⟨after, split⟩ := List.head?_eq_some_iff.mp separated
    have whole := List.take_append_drop (read bytes).2 bytes
    rw [split] at fg whole background ⊢
    rw [List.tail_cons] at background ⊢
    have bg := finds.found background
    have behind := List.take_append_drop (read after).2 after
    have left : (comma :: after).drop (1 + (read after).2) = after.drop (read after).2 := by
      rw [Nat.add_comm, List.drop_succ_cons]
    rw [left]
    refine ⟨bytes.take (read bytes).2 ++ comma :: after.take (read after).2, ?_, .both (by rwa [behind]) bg⟩
    rw [List.append_assoc, List.cons_append, behind, whole]
  · refine ⟨_, (List.take_append_drop _ _).symm, .foreground (finds.found (Nat.pos_of_ne_zero none)) fun digits more split => ?_⟩
    dsimp only at split
    rw [split, List.tail_cons] at background
    exact finds.missing (Nat.eq_zero_of_not_pos background) digits more rfl
  · refine ⟨_, (List.take_append_drop _ _).symm, .foreground (finds.found (Nat.pos_of_ne_zero none)) fun digits more split => ?_⟩
    dsimp only at split
    exact (separated (by rw [split, List.head?_cons])).elim

/-- Only one part of a text can belong to a colour's control byte. -/
theorem Colors.unique {colors colors' rest' : Bytes} (finds : Finds read Digits) (one : Colors Digits colors rest)
    (other : Colors Digits colors' rest') (same : colors ++ rest = colors' ++ rest') : colors = colors' := by
  cases one with
  | none missing =>
    cases other with
    | none => rfl
    | foreground fg => exact (missing _ _ same fg).elim
    | both fg bg => exact (missing _ _ (by simpa using same) fg).elim
  | foreground fg missing =>
    cases other with
    | none missing' => exact (missing' _ _ same.symm fg).elim
    | foreground fg' => exact (finds.same fg fg' same).1
    | both fg' bg' =>
      obtain ⟨-, next⟩ := finds.same fg fg' (by simpa using same)
      exact (missing _ _ next bg').elim
  | both fg bg =>
    cases other with
    | none missing' => exact (missing' _ _ (by simpa using same.symm) fg).elim
    | foreground fg' missing' =>
      obtain ⟨-, next⟩ := finds.same fg fg' (by simpa using same)
      exact (missing' _ _ next.symm bg).elim
    | both fg' bg' =>
      obtain ⟨rfl, next⟩ := finds.same fg fg' (by simpa using same)
      rw [(finds.same bg bg' (List.cons_eq_cons.mp next).2).1]

/-- How many digits `read_palette_color` takes. -/
theorem readPaletteColor_consumed (bytes : Bytes) :
    (readPaletteColor bytes).2 = ((bytes.take 2).takeWhile isAsciiDigit).length := by
  have counted : (readPaletteColor bytes).2 = (readPaletteLoop bytes 0 0).2 := by
    unfold readPaletteColor
    dsimp only
    split
    · symm; assumption
    · rfl
  rw [counted]
  match bytes with
  | [] => simp [readPaletteLoop]
  | [a] => cases digit : isAsciiDigit a <;> simp [readPaletteLoop, digit]
  | a :: b :: rest =>
    cases digit : isAsciiDigit a with
    | false => simp [readPaletteLoop, digit]
    | true => cases digit' : isAsciiDigit b <;> simp [readPaletteLoop, digit, digit']

theorem finds_palette : Finds readPaletteColor PaletteDigits where
  found {bytes} some := by
    rw [readPaletteColor_consumed] at some ⊢
    match bytes with
    | [] => simp at some
    | [a] =>
      cases digit : isAsciiDigit a with
      | false => simp [digit] at some
      | true => simp [PaletteDigits, digit]
    | a :: b :: rest =>
      cases digit : isAsciiDigit a with
      | false => simp [digit] at some
      | true => cases digit' : isAsciiDigit b <;> simp [PaletteDigits, digit, digit']
  unique {digits more} there := by
    rw [readPaletteColor_consumed]
    obtain ⟨every, two | ⟨one, ends⟩⟩ := there
    · obtain ⟨a, b, rfl⟩ := List.length_eq_two.mp two
      simp_all
    · obtain ⟨a, rfl⟩ := List.length_eq_one_iff.mp one
      cases more <;> simp_all
  nonempty there none := by
    subst none
    simp [PaletteDigits] at there

theorem readHexColor_consumed (bytes : Bytes) :
    (readHexColor bytes).2 = if HexDigits (bytes.take 6) (bytes.drop 6) then 6 else 0 := by
  unfold readHexColor
  split
  case h_1 r r' g g' b b' rest =>
    by_cases digits : [r, r', g, g', b, b'].all isAsciiHexdigit = true
    · rw [if_pos digits, if_pos ⟨List.all_eq_true.mp digits, rfl⟩]
    · rw [if_neg digits, if_neg fun there => digits (List.all_eq_true.mpr there.1)]
  case h_2 short =>
    refine (if_neg fun there => ?_).symm
    obtain ⟨-, six⟩ := there
    match bytes with
    | [] | [_] | [_, _] | [_, _, _] | [_, _, _, _] | [_, _, _, _, _] => simp at six
    | r :: r' :: g :: g' :: b :: b' :: rest => exact short r r' g g' b b' rest rfl

theorem finds_hex : Finds readHexColor HexDigits where
  found {bytes} some := by
    rw [readHexColor_consumed] at some ⊢
    split_ifs at some ⊢ with there
    · exact there
    · exact absurd some (Nat.lt_irrefl 0)
  unique {digits more} there := by
    have front : (digits ++ more).take 6 = digits := there.2 ▸ List.take_left
    have behind : (digits ++ more).drop 6 = more := there.2 ▸ List.drop_left
    rw [readHexColor_consumed, front, behind, if_pos there, there.2]
  nonempty there none := by
    subst none
    cases there.2

theorem FormatCode.control {sequence text : Bytes} (code : FormatCode sequence text) :
    ∃ b rest, sequence = b :: rest ∧ b ∈ Control.all := by
  cases code with
  | alone control => exact ⟨_, _, rfl, control⟩
  | color | hexColor => exact ⟨_, _, rfl, by decide⟩

/-- Only one formatting sequence stands in front of a text. -/
theorem FormatCode.unique {sequence sequence' text text' : Bytes} (one : FormatCode sequence text)
    (other : FormatCode sequence' text') (same : sequence ++ text = sequence' ++ text') : sequence = sequence' := by
  cases one with
  | alone _ plain =>
    cases other with
    | alone => rw [(List.cons_eq_cons.mp same).1]
    | color => exact (plain.1 (List.cons_eq_cons.mp same).1).elim
    | hexColor => exact (plain.2 (List.cons_eq_cons.mp same).1).elim
  | color colors =>
    cases other with
    | alone _ plain => exact (plain.1 (List.cons_eq_cons.mp same).1.symm).elim
    | color colors' => rw [colors.unique finds_palette colors' (List.cons_eq_cons.mp same).2]
    | hexColor => cases (List.cons_eq_cons.mp same).1
  | hexColor colors =>
    cases other with
    | alone _ plain => exact (plain.2 (List.cons_eq_cons.mp same).1.symm).elim
    | color => cases (List.cons_eq_cons.mp same).1
    | hexColor colors' => rw [colors.unique finds_hex colors' (List.cons_eq_cons.mp same).2]

/-- A text has one reading. -/
theorem Formatted.unique {text kept kept' : Bytes} (one : Formatted text kept) (other : Formatted text kept') : kept = kept' := by
  induction one generalizing kept' with
  | nil =>
    generalize whole : ([] : Bytes) = text at other
    cases other with
    | nil => rfl
    | plain => cases whole
    | code code =>
      obtain ⟨b, rest, rfl, -⟩ := code.control
      cases whole
  | @plain b text kept plain _ ih =>
    generalize whole : b :: text = text' at other
    cases other with
    | nil => cases whole
    | plain _ rest =>
      obtain ⟨rfl, rfl⟩ := List.cons_eq_cons.mp whole
      rw [ih rest]
    | code code =>
      obtain ⟨c, rest, rfl, control⟩ := code.control
      exact (plain ((List.cons_eq_cons.mp whole).1 ▸ control)).elim
  | @code sequence text kept code _ ih =>
    generalize whole : sequence ++ text = text' at other
    cases other with
    | nil =>
      obtain ⟨c, rest, rfl, -⟩ := code.control
      cases whole
    | plain plain =>
      obtain ⟨c, rest, rfl, control⟩ := code.control
      exact (plain ((List.cons_eq_cons.mp whole).1 ▸ control)).elim
    | code code' rest =>
      obtain rfl := code.unique code' whole
      rw [List.append_cancel_left whole] at ih
      exact ih rest

end Reading

section Stripping

variable {text kept : Bytes}

theorem toggled_control {b : UInt8} {next : Style} (toggles : toggled current b = some next) :
    b ∈ Control.all ∧ b ≠ Control.color ∧ b ≠ Control.hexColor := by
  unfold toggled at toggles
  split_ifs at toggles <;> subst b <;> decide

theorem not_mem_control {b : UInt8} (none : toggled current b = none) (color : b ≠ Control.color)
    (hexColor : b ≠ Control.hexColor) : b ∉ Control.all := by
  intro control
  simp only [Control.all, List.mem_cons, List.not_mem_nil, or_false] at control
  rcases control with rfl | rfl | rfl | rfl | rfl | rfl | rfl | rfl | rfl
  · cases none
  · exact color rfl
  · exact hexColor rfl
  all_goals cases none

/-- The run that is open, and what the loop keeps of the rest of the text. -/
theorem parseStyledLoop_formatted (current : Style) (run : Option Bytes) (text : Bytes) :
    ∃ kept, Formatted text kept ∧ (parseStyledLoop current run text).flatMap StyledSpan.text = run.getD [] ++ kept := by
  have flushed (run : Option Bytes) (style : Style) : (flushRun run style).flatMap StyledSpan.text = run.getD [] := by
    cases run with
    | none => rfl
    | some text => by_cases empty : text = [] <;> simp [flushRun, empty]
  fun_induction parseStyledLoop current run text with
  | case1 current run => exact ⟨[], .nil, by rw [flushed, List.append_nil]⟩
  | case2 current run b rest next toggles ih =>
    obtain ⟨kept, formatted, read⟩ := ih
    obtain ⟨control, plain⟩ := toggled_control toggles
    refine ⟨kept, @Formatted.code [b] rest kept (.alone control plain) formatted, ?_⟩
    rw [List.flatMap_append, flushed, read]
    rfl
  | case3 current run rest none ih =>
    obtain ⟨kept, formatted, read⟩ := ih
    obtain ⟨colors, split, code⟩ := @readColors_colors _ current rest _ finds_palette
    refine ⟨kept, ?_, by rw [List.flatMap_append, flushed, read]; rfl⟩
    have whole := Formatted.code (.color code) formatted
    rwa [List.cons_append, ← split] at whole
  | case4 current run rest none _ ih =>
    obtain ⟨kept, formatted, read⟩ := ih
    obtain ⟨colors, split, code⟩ := @readColors_colors _ current rest _ finds_hex
    refine ⟨kept, ?_, by rw [List.flatMap_append, flushed, read]; rfl⟩
    have whole := Formatted.code (.hexColor code) formatted
    rwa [List.cons_append, ← split] at whole
  | case5 current run b rest none color hexColor ih =>
    obtain ⟨kept, formatted, read⟩ := ih
    exact ⟨b :: kept, .plain (not_mem_control none color hexColor) formatted, by rw [read]; simp⟩

theorem formatted_iff : Formatted text kept ↔ kept = stripFormatting text := by
  obtain ⟨left, formatted, read⟩ := parseStyledLoop_formatted {} none text
  have stripped : stripFormatting text = left := read
  rw [stripped]
  exact ⟨fun other => other.unique formatted, fun same => same ▸ formatted⟩

theorem Formatted.clean (formatted : Formatted text kept) : ∀ b ∈ kept, b ∉ Control.all := by
  induction formatted with
  | nil => simp
  | plain plain _ ih => exact List.forall_mem_cons.mpr ⟨plain, ih⟩
  | code _ _ ih => exact ih

/-- Text without control bytes has nothing to strip. -/
theorem Formatted.self (clean : ∀ b ∈ text, b ∉ Control.all) : Formatted text text := by
  induction text with
  | nil => exact .nil
  | cons b text ih =>
    obtain ⟨plain, clean⟩ := List.forall_mem_cons.mp clean
    exact .plain plain (ih clean)

/-- **Formatting codes are stripped completely**: no control byte is left, the spans are what is
left, a second time nothing more is stripped, and what was left out are the formatting sequences. -/
theorem stripFormatting_complete (text : Bytes) : (∀ b ∈ stripFormatting text, b ∉ Control.all) ∧
    stripFormatting text = ((parseStyled text).map StyledSpan.text).flatten ∧
    stripFormatting (stripFormatting text) = stripFormatting text ∧
    ∀ kept, Formatted text kept ↔ kept = stripFormatting text := by
  have clean := (formatted_iff.mpr rfl : Formatted text (stripFormatting text)).clean
  exact ⟨clean, List.flatMap_def, (formatted_iff.mp (Formatted.self clean)).symm, fun kept => formatted_iff⟩

/-- A third digit is text, and so is a comma without a second colour. -/
example : stripFormatting (ascii "a\x03123,b") = ascii "a3,b" := by
  decide +kernel

end Stripping

end RndRust.Irc.Proto
