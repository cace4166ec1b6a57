import RndRust.Irc.Proto.Util

/-! The arguments after the verb, `params.rs`: values kept flat, with a flag that
the last of them was carried as `trailing`. -/
namespace RndRust.Irc.Proto
open Lib

structure Params where
  values : List Bytes := []
  trailing : Bool := false
  deriving DecidableEq, Repr

namespace Params

/-- `Params::push`. -/
def push (p : Params) (value : Bytes) : Params := { p with values := p.values ++ [value] }

/-- `Params::push_trailing`. -/
def pushTrailing (p : Params) (value : Bytes) : Params := ⟨p.values ++ [value], true⟩

end Params

/-- The two places of `parse_params` that take the rest of the input as the last
value, refusing forbidden bytes. -/
def parseTrailing (out : List Bytes) (pos : ℕ) (rest : Bytes) :
    Except ParseError (Params × Cursor) :=
  match scan (fun _ => false) isForbidden pos rest with
  | .error i => .error (.forbidden i)
  | .ok (value, left) => .ok (⟨out ++ [value], true⟩, ⟨pos + value.length, left⟩)

/-- The loop of `parse_params`, with the values read so far. -/
def parseParamsLoop (out : List Bytes) (pos : ℕ) : Bytes → Except ParseError (Params × Cursor)
  | [] => .ok (⟨out, false⟩, ⟨pos, []⟩)
  | [b] => if b ≠ sp then .error (.missingSpace pos) else .error .unexpectedEnd
  | b :: first :: more =>
    if b ≠ sp then .error (.missingSpace pos)
    else if out.length > maxParams then .error (.tooManyParams (pos + 1))
    else if first = colon then parseTrailing out (pos + 2) more
    else if out.length = 14 then parseTrailing out (pos + 1) (first :: more)
    else if !isMiddleFirst first then .error (.forbidden (pos + 1))
    else
      let value := (first :: more).takeWhile isMiddleRest
      let after := pos + 1 + value.length
      let left := (first :: more).dropWhile isMiddleRest
      if left.head?.any isForbidden then .error (.forbidden after)
      else parseParamsLoop (out ++ [value]) after left
termination_by rest => rest.length
decreasing_by
  have := (List.dropWhile_suffix isMiddleRest (l := first :: more)).length_le
  simp only [List.length_cons] at this ⊢
  omega

def parseParams (c : Cursor) : Except ParseError (Params × Cursor) :=
  parseParamsLoop [] c.pos c.rest

/-- When the last value is written in trailing form. -/
def needsTrailing (trailing : Bool) (value : Bytes) : Bool :=
  trailing || value.isEmpty || value.head? == some colon || value.contains sp

def writeValues (trailing : Bool) : List Bytes → Bytes
  | [] => []
  | [last] => sp :: (if needsTrailing trailing last then [colon] else []) ++ last
  | value :: more => sp :: value ++ writeValues trailing more

/-- `write_params`. -/
def writeParams (p : Params) : Bytes := writeValues p.trailing p.values

/-- A nonempty value without space, NUL, CR or LF that does not start with `:`. -/
def MiddleForm (value : Bytes) : Prop :=
  value ≠ [] ∧ value.head? ≠ some colon ∧ ∀ b ∈ value, isMiddleRest b = true

/-- The last value is free of NUL, CR and LF when flagged trailing, and of middle
form otherwise. -/
def LastForm (trailing : Bool) (value : Bytes) : Prop :=
  if trailing then ∀ b ∈ value, isForbidden b = false else MiddleForm value

/-- Every value but the last is of middle form. -/
def ValuesForm (trailing : Bool) : List Bytes → Prop
  | [] => True
  | [last] => LastForm trailing last
  | value :: more => MiddleForm value ∧ ValuesForm trailing more

/-- At most 15 values, the fifteenth of them trailing. -/
def Params.Shaped (p : Params) : Prop :=
  p.values.length ≤ 15 ∧ (p.values.length = 15 → p.trailing = true) ∧
    ValuesForm p.trailing p.values

/-- A flag that a last value is trailing says that there is a last value. -/
def Params.Flagged (p : Params) : Prop := p.trailing = true → p.values ≠ []

instance (value : Bytes) : Decidable (MiddleForm value) := inferInstanceAs (Decidable (_ ∧ _))

instance : (trailing : Bool) → (value : Bytes) → Decidable (LastForm trailing value)
  | true, value => inferInstanceAs (Decidable (∀ b ∈ value, isForbidden b = false))
  | false, value => inferInstanceAs (Decidable (MiddleForm value))

instance decidableValuesForm (trailing : Bool) :
    (values : List Bytes) → Decidable (ValuesForm trailing values)
  | [] => inferInstanceAs (Decidable True)
  | [last] => inferInstanceAs (Decidable (LastForm trailing last))
  | value :: next :: more =>
    have := decidableValuesForm trailing (next :: more)
    inferInstanceAs (Decidable (MiddleForm value ∧ ValuesForm trailing (next :: more)))

instance Params.decidableShaped (p : Params) : Decidable p.Shaped := inferInstanceAs (Decidable (_ ∧ _))

instance Params.decidableFlagged (p : Params) : Decidable p.Flagged := inferInstanceAs (Decidable (_ → _))

theorem middleForm_first {value : Bytes} (form : MiddleForm value) :
    ∃ first more, value = first :: more ∧ first ≠ colon ∧ isMiddleFirst first = true := by
  obtain ⟨nonempty, noColon, middle⟩ := form
  obtain ⟨first, more, rfl⟩ := List.exists_cons_of_ne_nil nonempty
  have notColon : first ≠ colon := by simpa using noColon
  exact ⟨first, more, rfl, notColon, isMiddleFirst_iff.mpr ⟨middle first (by simp), notColon⟩⟩

theorem parseTrailing_clean {out : List Bytes} {value : Bytes} (pos : ℕ)
    (clean : ∀ b ∈ value, isForbidden b = false) :
    parseTrailing out pos value = .ok (⟨out ++ [value], true⟩, ⟨pos + value.length, []⟩) := by
  have run : scan (fun _ => false) isForbidden pos (value ++ []) = .ok (value, []) :=
    scan_append (fun b member => ⟨rfl, clean b member⟩) (by simp)
  rw [List.append_nil] at run
  simp [parseTrailing, run]

/-- One iteration reads a value of middle form, up to a space or the end. -/
theorem parseParamsLoop_middle {value : Bytes} (out : List Bytes) (pos : ℕ) (left : Bytes)
    (form : MiddleForm value) (room : out.length < 14) (ends : StopsAt (· == sp) left) :
    parseParamsLoop out pos (sp :: value ++ left) =
      parseParamsLoop (out ++ [value]) (pos + (sp :: value).length) left := by
  obtain ⟨first, more, rfl, notColon, isFirst⟩ := middleForm_first form
  have stops : StopsAt (fun b => !isMiddleRest b) left := by
    intro b next
    have : b = sp := by simpa using ends b next
    subst this
    decide
  have taken := takeWhile_append_stop form.2.2 stops
  have dropped := dropWhile_append_stop form.2.2 stops
  have notTooMany : ¬ out.length > maxParams := by simp only [maxParams]; omega
  have notLast : out.length ≠ 14 := by omega
  simp only [List.cons_append] at taken dropped ⊢
  rw [parseParamsLoop]
  simp only [ne_eq, not_true_eq_false, ↓reduceIte, notTooMany, notColon, notLast, isFirst,
    Bool.not_true, Bool.false_eq_true, taken, dropped]
  have offset : pos + 1 + (first :: more).length = pos + (sp :: first :: more).length := by
    simp only [List.length_cons]
    omega
  have clean : left.head?.any isForbidden = false := by
    cases left with
    | nil => rfl
    | cons next left =>
      have : next = sp := by simpa using ends
      subst this
      rfl
  rw [clean, offset]
  rfl

theorem writeValues_stops (trailing : Bool) (values : List Bytes) :
    StopsAt (· == sp) (writeValues trailing values) := by
  match values with
  | [] => simp [writeValues]
  | [last] => simp [writeValues]
  | value :: next :: more => simp [writeValues]

/-- A last value of middle form is written without a colon. -/
theorem needsTrailing_middle {value : Bytes} (form : MiddleForm value) :
    needsTrailing false value = false := by
  obtain ⟨first, more, rfl, notColon, -⟩ := middleForm_first form
  have noSpace : sp ∉ first :: more := fun member =>
    absurd (form.2.2 sp member) (by decide)
  simp [needsTrailing, notColon] at noSpace ⊢
  exact noSpace

/-- The loop reads back written values after those it has. -/
theorem parseParamsLoop_write {trailing : Bool} {values : List Bytes} (out : List Bytes) (pos : ℕ)
    (form : ValuesForm trailing values) (room : out.length + values.length ≤ 15)
    (full : out.length + values.length = 15 → trailing = true) :
    parseParamsLoop out pos (writeValues trailing values) =
      .ok (⟨out ++ values, trailing && !values.isEmpty⟩,
        ⟨pos + (writeValues trailing values).length, []⟩) := by
  induction values generalizing out pos with
  | nil => simp [writeValues, parseParamsLoop]
  | cons value more ih =>
    cases more with
    | nil =>
      simp only [List.length_cons, List.length_nil] at room full
      cases trailing with
      | true =>
        have clean : ∀ b ∈ value, isForbidden b = false := by
          simpa [ValuesForm, LastForm] using form
        have notTooMany : ¬ out.length > maxParams := by simp only [maxParams]; omega
        simp only [writeValues, needsTrailing, Bool.true_or, ↓reduceIte, List.cons_append,
          List.nil_append]
        rw [parseParamsLoop]
        simp only [ne_eq, not_true_eq_false, ↓reduceIte, notTooMany,
          parseTrailing_clean _ clean, List.length_cons, List.isEmpty_cons, Bool.not_false,
          Bool.and_self]
        congr 3
        omega
      | false =>
        have middle : MiddleForm value := by simpa [ValuesForm, LastForm] using form
        have short : out.length < 14 := by
          rcases Nat.lt_or_ge out.length 14 with short | long
          · exact short
          · exact absurd (full (by omega)) (by simp)
        have step := parseParamsLoop_middle out pos [] middle short (by simp)
        simp only [List.append_nil] at step
        simp [writeValues, needsTrailing_middle middle, step, parseParamsLoop]
    | cons next more =>
      obtain ⟨middle, rest⟩ := form
      simp only [List.length_cons] at room full
      have step := parseParamsLoop_middle out pos _ middle (by omega)
        (writeValues_stops trailing (next :: more))
      have tail := ih (out ++ [value]) (pos + (sp :: value).length) rest
        (by simp only [List.length_append, List.length_cons, List.length_nil]; omega)
        (by
          simp only [List.length_append, List.length_cons, List.length_nil]
          exact fun sum => full (by omega))
      simp only [writeValues]
      rw [step, tail]
      simp [Nat.add_assoc, Nat.add_comm 1]

/-- Written params are read back to the end of the input. -/
theorem parseParams_write {p : Params} (pos : ℕ) (shaped : p.Shaped) (flagged : p.Flagged) :
    parseParams ⟨pos, writeParams p⟩ = .ok (p, ⟨pos + (writeParams p).length, []⟩) := by
  obtain ⟨atMost, full, form⟩ := shaped
  have read := parseParamsLoop_write [] pos form (by simpa using atMost)
    (by simpa using full)
  have flag : (p.trailing && !p.values.isEmpty) = p.trailing := by
    cases hTrailing : p.trailing with
    | false => rfl
    | true => simpa using flagged hTrailing
  simpa [parseParams, writeParams, flag] using read

/-- The parser sets the flag only together with a value. -/
theorem parseParamsLoop_flagged {out : List Bytes} {pos : ℕ} {rest : Bytes} {p : Params}
    {after : Cursor} (read : parseParamsLoop out pos rest = .ok (p, after)) : p.Flagged := by
  have trailing : ∀ {out pos rest}, parseTrailing out pos rest = .ok (p, after) → p.Flagged := by
    intro out pos rest read
    unfold parseTrailing at read
    split at read
    · simp at read
    · cases read
      simp [Params.Flagged]
  fun_induction parseParamsLoop out pos rest with
  | case1 out pos =>
    cases read
    simp [Params.Flagged]
  | case6 out pos first more => exact trailing read
  | case7 out pos first more => exact trailing read
  | case10 =>
    rename_i ih
    exact ih read
  | _ => simp_all

theorem parseParams_flagged {c after : Cursor} {p : Params}
    (read : parseParams c = .ok (p, after)) : p.Flagged := parseParamsLoop_flagged read

theorem middleForm_no_lf {value : Bytes} (form : MiddleForm value) : lf ∉ value :=
  fun member => absurd (form.2.2 lf member) (by decide)

theorem writeValues_no_lf {trailing : Bool} {values : List Bytes}
    (form : ValuesForm trailing values) : lf ∉ writeValues trailing values := by
  induction values with
  | nil => simp [writeValues]
  | cons value more ih =>
    cases more with
    | nil =>
      have last : lf ∉ value := by
        have shape : LastForm trailing value := form
        unfold LastForm at shape
        split at shape
        · exact fun member => absurd (shape lf member) (by decide)
        · exact middleForm_no_lf shape
      have mark : lf ∉ if needsTrailing trailing value then [colon] else [] := by
        split <;> simp [colon, lf]
      simp [writeValues, last, mark, sp, lf]
    | cons next more =>
      obtain ⟨first, rest⟩ := form
      simp [writeValues, middleForm_no_lf first, ih rest, sp, lf]

end RndRust.Irc.Proto
