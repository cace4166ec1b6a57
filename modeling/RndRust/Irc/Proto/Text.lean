import RndRust.Irc.Proto.Util
import RndRust.Lib.Lines

/-! Rust strings as the bytes of their UTF-8 form, and the operations on them that
the IRC crates use: lossy decoding, ASCII case, whitespace, decimal numbers. -/
namespace RndRust.Irc.Proto
open Lib

/-- U+FFFD, what lossy decoding puts in place of an ill-formed part. -/
def replacementChar : Bytes := [239, 191, 189]

def isContinuation (b : UInt8) : Bool := 128 ≤ b && b ≤ 191

/-- Which second byte may follow a three-byte lead. -/
def secondOfThree (lead b : UInt8) : Bool :=
  if lead = 224 then 160 ≤ b && b ≤ 191
  else if lead = 237 then 128 ≤ b && b ≤ 159
  else isContinuation b

/-- Which second byte may follow a four-byte lead. -/
def secondOfFour (lead b : UInt8) : Bool :=
  if lead = 240 then 144 ≤ b && b ≤ 191
  else if lead = 244 then 128 ≤ b && b ≤ 143
  else isContinuation b

/-- How many continuation bytes a lead asks for, and which the first may be. A
byte that is no lead asks for none and is ill-formed. -/
def utf8Lead (lead : UInt8) : Option (ℕ × (UInt8 → Bool)) :=
  if lead < 128 then some (0, fun _ => true)
  else if 194 ≤ lead && lead ≤ 223 then some (1, isContinuation)
  else if 224 ≤ lead && lead ≤ 239 then some (2, secondOfThree lead)
  else if 240 ≤ lead && lead ≤ 244 then some (3, secondOfFour lead)
  else none

/-- The continuation bytes that are there, at most `want`, the first of them under
`first`. -/
def continuations (want : ℕ) (first : UInt8 → Bool) (rest : Bytes) : ℕ :=
  match want, rest with
  | 0, _ => 0
  | _, [] => 0
  | want + 1, b :: rest => if first b then continuations want isContinuation rest + 1 else 0

/-- The characters of `String::from_utf8_lossy`, each in UTF-8: a well-formed
sequence as it is, a maximal ill-formed part as U+FFFD. -/
def lossyChars : Bytes → List (Bytes × Bool)
  | [] => []
  | lead :: rest =>
    match utf8Lead lead with
    | none => (replacementChar, false) :: lossyChars rest
    | some (want, first) =>
      let found := continuations want first rest
      let char := if found = want then (lead :: rest.take found, true) else (replacementChar, false)
      char :: lossyChars (rest.drop found)
termination_by bytes => bytes.length

/-- `String::from_utf8_lossy`. -/
def fromUtf8Lossy (bytes : Bytes) : Bytes := (lossyChars bytes).flatMap Prod.fst

/-- `str::from_utf8`. -/
def fromUtf8 (bytes : Bytes) : Option Bytes :=
  if (lossyChars bytes).all Prod.snd then some bytes else none

/-- What is well-formed is kept as it is. -/
theorem fromUtf8Lossy_valid {bytes : Bytes} (valid : fromUtf8 bytes = some bytes) : fromUtf8Lossy bytes = bytes := by
  have all : (lossyChars bytes).all Prod.snd := by
    unfold fromUtf8 at valid
    split at valid
    · assumption
    · cases valid
  clear valid
  unfold fromUtf8Lossy
  induction bytes using lossyChars.induct with
  | case1 =>
    rw [lossyChars]
    rfl
  | case2 lead rest bad ih =>
    rw [lossyChars, bad] at all
    cases all
  | case3 lead rest want first known found ih =>
    rw [lossyChars, known] at all ⊢
    dsimp only at all ⊢
    obtain ⟨whole, others⟩ := Bool.and_eq_true_iff.mp (List.all_cons.symm.trans all)
    split at whole
    · rename_i same
      rw [List.flatMap_cons, if_pos same, ih others]
      exact congrArg (lead :: ·) (List.take_append_drop _ _)
    · cases whole

section Lossy

variable {bytes char : Bytes} {b : UInt8} {ok : Bool}

/-- A character is made of the bytes there are, or it stands for an ill-formed part. -/
theorem mem_lossyChars (member : (char, ok) ∈ lossyChars bytes) :
    (ok = true ∧ ∀ b ∈ char, b ∈ bytes) ∨ (ok = false ∧ char = replacementChar) := by
  induction bytes using lossyChars.induct with
  | case1 => simp [lossyChars] at member
  | case2 lead rest bad ih =>
    rw [lossyChars, bad] at member
    rcases List.mem_cons.mp member with here | later
    · exact .inr ⟨congrArg Prod.snd here, congrArg Prod.fst here⟩
    · exact (ih later).imp_left fun whole => ⟨whole.1, fun b among => List.mem_cons_of_mem _ (whole.2 b among)⟩
  | case3 lead rest want first known found ih =>
    rw [lossyChars, known] at member
    dsimp only at member
    rcases List.mem_cons.mp member with here | later
    · split at here
      · cases here
        exact .inl ⟨rfl, fun b among => List.cons_subset_cons _ (List.take_subset _ _) among⟩
      · exact .inr ⟨congrArg Prod.snd here, congrArg Prod.fst here⟩
    · refine (ih later).imp_left fun whole => ⟨whole.1, fun b among => ?_⟩
      exact List.mem_cons_of_mem _ (List.drop_subset _ _ (whole.2 b among))

/-- An ASCII character of the text is a byte of what it is read from. -/
theorem mem_of_mem_fromUtf8Lossy (small : b < 128) (member : b ∈ fromUtf8Lossy bytes) : b ∈ bytes := by
  obtain ⟨⟨char, ok⟩, listed, among⟩ := List.mem_flatMap.mp member
  rcases mem_lossyChars listed with ⟨-, whole⟩ | ⟨-, replaced⟩
  · exact whole b among
  · simp only [replaced, replacementChar, List.mem_cons, List.not_mem_nil, or_false] at among
    rcases among with rfl | rfl | rfl <;> exact absurd small (by decide)

/-- Text that is ASCII was read as it is. -/
theorem fromUtf8Lossy_of_ascii (small : ∀ b ∈ fromUtf8Lossy bytes, b < 128) : fromUtf8Lossy bytes = bytes := by
  refine fromUtf8Lossy_valid (if_pos (List.all_eq_true.mpr fun ⟨char, ok⟩ listed => ?_))
  rcases mem_lossyChars listed with ⟨whole, -⟩ | ⟨-, replaced⟩
  · exact whole
  · have marked := small 239 (List.mem_flatMap.mpr ⟨_, listed, by simp [replaced, replacementChar]⟩)
    exact absurd marked (by decide)

theorem fromUtf8Lossy_ascii (small : ∀ b ∈ bytes, b < 128) : fromUtf8Lossy bytes = bytes := by
  induction bytes with
  | nil =>
    rw [fromUtf8Lossy, lossyChars]
    rfl
  | cons lead rest ih =>
    have single : utf8Lead lead = some (0, fun _ => true) := if_pos (small lead List.mem_cons_self)
    rw [fromUtf8Lossy, lossyChars, single]
    exact congrArg (lead :: ·) (ih fun b listed => small b (List.mem_cons_of_mem _ listed))

end Lossy

def toAsciiUppercase (bytes : Bytes) : Bytes :=
  bytes.map fun b => if 97 ≤ b && b ≤ 122 then b - 32 else b

def asciiLowercaseByte (b : UInt8) : UInt8 := if 65 ≤ b && b ≤ 90 then b + 32 else b

def toAsciiLowercase (bytes : Bytes) : Bytes := bytes.map asciiLowercaseByte

def eqIgnoreAsciiCase (a b : Bytes) : Bool := toAsciiLowercase a == toAsciiLowercase b

/-- The characters with the Unicode `White_Space` property. -/
def isWhitespaceChar (char : Bytes) : Bool :=
  match char with
  | [b] => (9 ≤ b && b ≤ 13) || b == 32
  | [194, b] => b == 133 || b == 160
  | [225, 154, 128] => true
  | [226, 128, b] => (128 ≤ b && b ≤ 138) || b == 168 || b == 169 || b == 175
  | [226, 129, 159] => true
  | [227, 128, 128] => true
  | _ => false

/-- `str::split_whitespace`, on the characters of the string. -/
def splitWhitespace (chars : List Bytes) : List Bytes :=
  ((chars.splitOnP isWhitespaceChar).filter (· ≠ [])).map List.flatten

section Words

variable {bytes char rest : Bytes} {want : ℕ} {first : UInt8 → Bool} {chars : List Bytes}

/-- One well-formed sequence. -/
def IsChar (char : Bytes) : Prop := ∃ lead body want first, char = lead :: body ∧ utf8Lead lead = some (want, first) ∧
  body.length = want ∧ continuations want first body = want

theorem continuations_take (found : continuations want first bytes = want) : (bytes.take want).length = want ∧
    ∀ rest, continuations want first (bytes.take want ++ rest) = want := by
  induction want generalizing first bytes with
  | zero => simp [continuations]
  | succ want ih =>
    cases bytes with
    | nil => simp [continuations] at found
    | cons b bytes =>
      simp only [continuations] at found
      split at found
      case isTrue starts =>
        obtain ⟨length, whole⟩ := ih (Nat.succ.inj found)
        refine ⟨by simpa using length, fun rest => ?_⟩
        simp [continuations, starts, whole]
      case isFalse => cases found

theorem IsChar.lossyChars_append (is : IsChar char) : lossyChars (char ++ rest) = (char, true) :: lossyChars rest := by
  obtain ⟨lead, body, want, first, rfl, known, length, found⟩ := is
  have whole : continuations want first (body ++ rest) = want := by
    have := (continuations_take found).2 rest
    rwa [List.take_of_length_le (Nat.le_of_eq length)] at this
  rw [List.cons_append, lossyChars, known]
  simp only [whole, if_true]
  rw [List.take_left' length, List.drop_left' length]

theorem isChar_of_mem (member : (char, true) ∈ lossyChars bytes) : IsChar char := by
  induction bytes using lossyChars.induct with
  | case1 => simp [lossyChars] at member
  | case2 lead rest bad ih =>
    rw [lossyChars, bad] at member
    rcases List.mem_cons.mp member with here | later
    · cases here
    · exact ih later
  | case3 lead rest want first known found ih =>
    rw [lossyChars, known] at member
    dsimp only at member
    rcases List.mem_cons.mp member with here | later
    · split at here
      · rename_i same
        cases here
        obtain ⟨length, whole⟩ := continuations_take same
        refine ⟨lead, rest.take want, want, first, by rw [same], known, length, ?_⟩
        simpa using whole []
      · cases here
    · exact ih later

theorem fromUtf8_flatten (all : ∀ char ∈ chars, IsChar char) : fromUtf8 chars.flatten = some chars.flatten := by
  have decoded : lossyChars chars.flatten = chars.map (·, true) := by
    induction chars with
    | nil => rw [List.flatten_nil, lossyChars]; rfl
    | cons char chars ih =>
      rw [List.flatten_cons, (all char List.mem_cons_self).lossyChars_append,
        ih fun other listed => all other (List.mem_cons_of_mem _ listed)]
      rfl
  refine if_pos (List.all_eq_true.mpr fun pair listed => ?_)
  rw [decoded] at listed
  obtain ⟨char, -, rfl⟩ := List.mem_map.mp listed
  rfl

theorem isChar_of_fromUtf8 (valid : fromUtf8 bytes = some bytes) (member : char ∈ (lossyChars bytes).map Prod.fst) :
    IsChar char := by
  have all : (lossyChars bytes).all Prod.snd := by
    unfold fromUtf8 at valid
    split at valid
    · assumption
    · cases valid
  obtain ⟨⟨_, ok⟩, here, rfl⟩ := List.mem_map.mp member
  cases (List.all_eq_true.mp all _ here : ok = true)
  exact isChar_of_mem here

theorem fromUtf8_append {more : Bytes} (valid : fromUtf8 bytes = some bytes) (valid' : fromUtf8 more = some more) :
    fromUtf8 (bytes ++ more) = some (bytes ++ more) := by
  have whole {bytes : Bytes} (valid : fromUtf8 bytes = some bytes) : ((lossyChars bytes).map Prod.fst).flatten = bytes := by
    rw [← List.flatMap_def]
    exact fromUtf8Lossy_valid valid
  have joined := @fromUtf8_flatten ((lossyChars bytes).map Prod.fst ++ (lossyChars more).map Prod.fst) fun char listed =>
    (List.mem_append.mp listed).elim (isChar_of_fromUtf8 valid) (isChar_of_fromUtf8 valid')
  rwa [List.flatten_append, whole valid, whole valid'] at joined

theorem fromUtf8_ascii (small : ∀ b ∈ bytes, b < 128) : fromUtf8 bytes = some bytes := by
  have single (b : UInt8) (below : b < 128) : IsChar [b] := ⟨b, [], 0, fun _ => true, rfl, if_pos below, rfl, rfl⟩
  have joined := @fromUtf8_flatten (bytes.map fun b => [b]) fun char listed => by
    obtain ⟨b, inside, rfl⟩ := List.mem_map.mp listed
    exact single b (small b inside)
  rwa [← List.flatMap_def, List.flatMap_singleton'] at joined

/-- A word of a text is a text. -/
theorem fromUtf8_of_mem_splitWhitespace {word : Bytes} (all : ∀ char ∈ chars, IsChar char)
    (member : word ∈ splitWhitespace chars) : fromUtf8 word = some word := by
  obtain ⟨chunk, listed, rfl⟩ := List.mem_map.mp member
  exact fromUtf8_flatten fun char inside => all char (mem_of_mem_splitOnP (List.mem_filter.mp listed).1 inside).1

end Words
/-- `items.join(sep)`. -/
def join (sep : Bytes) (items : List Bytes) : Bytes := (items.intersperse sep).flatten

/-- The decimal form of a number. -/
def decimal (n : ℕ) : Bytes := (toString n).toList.map Char.toUInt8

/-- A decimal form with at least `width` digits. -/
def padded (width n : ℕ) : Bytes := List.replicate (width - (decimal n).length) zero ++ decimal n

/-- `str::parse` into an unsigned type whose values stay below `bound`: one optional
`+`, then digits. -/
def parseUnsigned (bound : ℕ) (text : Bytes) : Option ℕ :=
  let digits := if text.head? = some plus then text.tail else text
  if digits = [] || !digits.all isAsciiDigit then none
  else
    let value := digits.foldl (fun n b => n * 10 + (b - zero).toNat) 0
    if value < bound then some value else none

section Decimals
variable {b : UInt8} {n bound : ℕ}

theorem decimal_eq (n : ℕ) : decimal n = (Nat.toDigits 10 n).map Char.toUInt8 := by
  rw [decimal, Nat.toString_eq_ofList_toDigits, String.toList_ofList]

/-- The value of a digit is that of its byte. -/
theorem digit_byte {c : Char} (digit : c.isDigit) :
    isAsciiDigit c.toUInt8 = true ∧ (c.toUInt8 - zero).toNat = c.toNat - 48 := by
  obtain ⟨low, high⟩ : 48 ≤ c.toNat ∧ c.toNat ≤ 57 := by
    rw [Char.isDigit, Bool.and_eq_true, decide_eq_true_iff, decide_eq_true_iff] at digit
    exact ⟨UInt32.le_iff_toNat_le.mp digit.1, UInt32.le_iff_toNat_le.mp digit.2⟩
  have byte : c.toUInt8.toNat = c.toNat := by
    rw [show c.toUInt8.toNat = c.toNat % 256 from UInt8.toNat_ofNat' ..]
    omega
  constructor
  · simp only [isAsciiDigit, Bool.and_eq_true, decide_eq_true_eq, UInt8.le_iff_toNat_le, byte]
    exact ⟨low, high⟩
  · rw [UInt8.toNat_sub_of_le _ _ (UInt8.le_iff_toNat_le.mpr (by rw [byte]; exact low)), byte]
    rfl

theorem decimal_digits (n : ℕ) : ∀ b ∈ decimal n, isAsciiDigit b = true := by
  intro b listed
  rw [decimal_eq] at listed
  obtain ⟨c, inside, rfl⟩ := List.mem_map.mp listed
  exact (digit_byte (Nat.isDigit_of_mem_toDigits (by decide) (Nat.le_refl 10) inside)).1

theorem decimal_ne_nil (n : ℕ) : decimal n ≠ [] := by
  rw [decimal_eq]
  exact mt List.map_eq_nil_iff.mp Nat.toDigits_ne_nil

/-- A number is read as it was written. -/
theorem parseUnsigned_decimal (small : n < bound) : parseUnsigned bound (decimal n) = some n := by
  have unsigned : (decimal n).head? ≠ some plus := fun first => by
    cases decimal_digits n plus (List.mem_of_head? first)
  have values (cs : List Char) (digits : ∀ c ∈ cs, c.isDigit) (init : ℕ) :
      (cs.map Char.toUInt8).foldl (fun n b => n * 10 + (b - zero).toNat) init = Nat.ofDigitChars 10 cs init := by
    induction cs generalizing init with
    | nil => rfl
    | cons c cs ih =>
      obtain ⟨digit, digits⟩ := List.forall_mem_cons.mp digits
      rw [List.map_cons, List.foldl_cons, ih digits, Nat.ofDigitChars_cons, (digit_byte digit).2, Nat.mul_comm]
      rfl
  have value : (decimal n).foldl (fun n b => n * 10 + (b - zero).toNat) 0 = n := by
    rw [decimal_eq, values _ fun c inside => Nat.isDigit_of_mem_toDigits (by decide) (Nat.le_refl 10) inside]
    exact Nat.ofDigitChars_ten_toDigits
  rw [parseUnsigned]
  dsimp only
  rw [if_neg unsigned, if_neg (by simpa [decimal_ne_nil] using decimal_digits n), value, if_pos small]

end Decimals
/-- `str::lines`: a `\r` before the `\n` is dropped, and so is an empty last line. -/
def textLines (text : Bytes) : List Bytes :=
  ((lines lf text).map fun line => if line.getLast? = some cr then line.dropLast else line) ++
    if tail lf text = [] then [] else [tail lf text]

end RndRust.Irc.Proto
