import RndRust.Irc.Proto.Accepted

/-! The lines that `Message::parse` accepts, described without the parsers, and what is written for
them. -/
namespace RndRust.Irc.Proto
open Lib

/-- Letters, or three digits. -/
def VerbForm (raw : Bytes) : Prop :=
  (raw ≠ [] ∧ ∀ b ∈ raw, isAsciiAlphabetic b = true) ∨ raw.length = 3 ∧ ∀ b ∈ raw, isAsciiDigit b = true

/-- A prefix with its separators, or none. -/
def OriginForm (raw : Bytes) : Prop :=
  raw = [] ∨ ∃ token, token ≠ [] ∧ CleanToken token ∧ raw = colon :: token ++ [sp]

/-- What stands before the parameters. -/
def HeadForm (raw : Bytes) : Prop := ∃ origin verb, OriginForm origin ∧ VerbForm verb ∧ raw = origin ++ verb

/-- What follows `count` middle parameters, and what is written for it: nothing, a last parameter
behind a colon, or a fifteenth without one. -/
inductive Ending (count : ℕ) : Bytes → Bytes → Prop
  | none : Ending count [] []
  | marked {last : Bytes} (clean : ∀ b ∈ last, isForbidden b = false) :
    Ending count (sp :: colon :: last) (sp :: colon :: last)
  | fifteenth {last : Bytes} (full : count = 14) (nonempty : last ≠ []) (unmarked : last.head? ≠ some colon)
      (clean : ∀ b ∈ last, isForbidden b = false) : Ending count (sp :: last) (sp :: colon :: last)

/-- The parameters of a line after the first ones, and what is written for them. -/
def ParamsForm (before : ℕ) (raw written : Bytes) : Prop := ∃ (middles : List Bytes) (ending marked : Bytes),
  (∀ value ∈ middles, MiddleForm value) ∧ before + middles.length ≤ 14 ∧ Ending (before + middles.length) ending marked ∧
    raw = middles.flatMap (sp :: ·) ++ ending ∧ written = middles.flatMap (sp :: ·) ++ marked

/-- A line without a tags region, and what is written for it. -/
def LineForm (raw written : Bytes) : Prop := ∃ head params marked, HeadForm head ∧ ParamsForm 0 params marked ∧
  raw = head ++ params ∧ written = head ++ marked

/-- The written value of a tag: a backslash escapes whatever byte is behind it. -/
inductive RawValue : Bytes → Prop
  | nil : RawValue []
  | plain {b : UInt8} {raw : Bytes} (plain : isTagValueByte b = true) (rest : RawValue raw) : RawValue (b :: raw)
  | escape (c : UInt8) {raw : Bytes} (rest : RawValue raw) : RawValue (backslash :: c :: raw)

def RawKey (raw : Bytes) : Prop :=
  ∃ name, name ≠ [] ∧ (∀ b ∈ name, isTagKeyByte b = true) ∧ (raw = name ∨ raw = plus :: name)

def RawTag (raw : Bytes) : Prop := ∃ key, RawKey key ∧ (raw = key ∨ ∃ value, RawValue value ∧ raw = key ++ equals :: value)

/-- The tags of a line, with `;` between them. -/
inductive TagsForm : Bytes → Prop
  | last {raw : Bytes} (tag : RawTag raw) : TagsForm raw
  | more {raw rest : Bytes} (tag : RawTag raw) (more : TagsForm rest) : TagsForm (raw ++ semi :: rest)

/-- A line with a tags region. -/
def TaggedForm (raw : Bytes) : Prop :=
  ∃ tags rest written, TagsForm tags ∧ LineForm rest written ∧ raw = atSign :: (tags ++ sp :: rest)

section Verb

variable {c after : Cursor} {verb : Verb} {b h t u : UInt8} {raw : Bytes}

theorem digitByte_of_toNat {d : UInt16} (digit : isAsciiDigit b = true) (same : d.toNat = (b - zero).toNat) :
    digitByte d = b := by
  have small := (digit_value digit).1
  have value : d.toUInt8 = b - zero := by
    apply UInt8.toNat_inj.mp
    rw [UInt16.toNat_toUInt8, same]
    omega
  rw [digitByte, value, UInt8.add_comm, UInt8.sub_add_cancel]

/-- Three digits are written back as they were. -/
theorem writeVerb_digits (hundreds : isAsciiDigit h = true) (tens : isAsciiDigit t = true)
    (units : isAsciiDigit u = true) : writeVerb (.numeric ((h - zero).toUInt16 * 100 + (t - zero).toUInt16 * 10 +
      (u - zero).toUInt16)) = [h, t, u] := by
  have first := (digit_value hundreds).1
  have second := (digit_value tens).1
  have third := (digit_value units).1
  have value : ∀ {b : UInt8}, (b - zero).toUInt16.toNat = (b - zero).toNat := UInt8.toNat_toUInt16 _
  have code : ((h - zero).toUInt16 * 100 + (t - zero).toUInt16 * 10 + (u - zero).toUInt16).toNat =
      (h - zero).toNat * 100 + (t - zero).toNat * 10 + (u - zero).toNat := by
    simp only [UInt16.toNat_add, UInt16.toNat_mul, value, show (100 : UInt16).toNat = 100 from rfl,
      show (10 : UInt16).toNat = 10 from rfl]
    simp (disch := omega) only [Nat.mod_eq_of_lt]
  have thousand : (1000 : UInt16).toNat = 1000 := rfl
  have hundred : (100 : UInt16).toNat = 100 := rfl
  have ten : (10 : UInt16).toNat = 10 := rfl
  rw [writeVerb, digitByte_of_toNat hundreds, digitByte_of_toNat tens, digitByte_of_toNat units]
  all_goals simp only [UInt16.toNat_mod, UInt16.toNat_div, code, thousand, hundred, ten]
  all_goals omega

/-- A verb is written as it was read. -/
theorem parseVerb_sound (read : parseVerb c = .ok (verb, after)) :
    VerbForm (writeVerb verb) ∧ c.rest = writeVerb verb ++ after.rest := by
  unfold parseVerb at read
  split at read
  · cases read
  · rename_i first head
    obtain ⟨more, whole⟩ := List.head?_eq_some_iff.mp head
    split at read
    · rename_i digit
      unfold parseNumeric at read
      split at read
      · rename_i h t u left same
        split at read
        · cases read
        · rename_i digits
          cases read
          simp only [Bool.or_eq_true, Bool.not_eq_true', not_or, Bool.not_eq_false] at digits
          have first : isAsciiDigit h = true := by
            rw [same] at whole
            rwa [(List.cons.inj whole).1]
          rw [writeVerb_digits first digits.1.1 digits.1.2]
          refine ⟨.inr ⟨rfl, ?_⟩, same⟩
          simpa using ⟨first, digits.1.1, digits.1.2⟩
      · cases read
    · split at read
      · cases read
      · rename_i letter
        dsimp only at read
        split at read
        · cases read
        · cases read
          have alphabetic : isAsciiAlphabetic first = true := by simpa using letter
          refine ⟨.inl ⟨?_, List.all_eq_true.mp List.all_takeWhile⟩, ?_⟩
          · rw [writeVerb, whole, List.takeWhile_cons, if_pos alphabetic]
            exact List.cons_ne_nil _ _
          · have parts := List.takeWhile_append_dropWhile (p := isAsciiAlphabetic) (l := c.rest)
            rw [writeVerb, Cursor.advance]
            dsimp only
            nth_rewrite 4 [← parts]
            rw [List.drop_left, parts]

/-- What has the form of a verb is the written form of one. -/
theorem VerbForm.written (form : VerbForm raw) : ∃ verb : Verb, verb.WellFormed ∧ writeVerb verb = raw := by
  rcases form with ⟨nonempty, letters⟩ | ⟨three, digits⟩
  · exact ⟨.word raw, ⟨nonempty, letters⟩, rfl⟩
  · obtain ⟨h, t, u, rfl⟩ := List.length_eq_three.mp three
    have hundreds := digits h (by simp)
    have tens := digits t (by simp)
    have units := digits u (by simp)
    have written := writeVerb_digits hundreds tens units
    refine ⟨_, ?_, written⟩
    have done : parseNumeric ⟨0, [h, t, u]⟩ = .ok (.numeric ((h - zero).toUInt16 * 100 + (t - zero).toUInt16 * 10 +
        (u - zero).toUInt16), ⟨3, []⟩) := by
      simp [parseNumeric, tens, units, verbEnds]
    exact (parseNumeric_ok rfl hundreds done).1

end Verb

section Prefix

variable {c after : Cursor} {pfx : Option Prefix} {raw : Bytes}

/-- A prefix is written as it was read. -/
theorem parsePrefixRegion_sound (read : parsePrefixRegion c = .ok (pfx, after)) :
    OriginForm (writePrefixRegion pfx) ∧ c.rest = writePrefixRegion pfx ++ after.rest := by
  unfold parsePrefixRegion at read
  split at read
  · rename_i isColon
    obtain ⟨⟨p, afterPrefix⟩, prefixRead, read⟩ := bind_eq_ok.mp read
    obtain ⟨next, spaceRead, read⟩ := bind_eq_ok.mp read
    cases read
    obtain ⟨more, whole⟩ := List.head?_eq_some_iff.mp isColon
    unfold parsePrefix at prefixRead
    split at prefixRead
    · cases prefixRead
    · rename_i token left run
      split at prefixRead
      · cases prefixRead
      · rename_i nonempty
        cases prefixRead
        obtain ⟨parts, admitted, -⟩ := scan_ok run
        have clean : CleanToken token := fun b member => by simpa using admitted b member
        unfold expectSpace at spaceRead
        split at spaceRead
        · rename_i isSpace
          cases spaceRead
          obtain ⟨later, rest⟩ := List.head?_eq_some_iff.mp isSpace
          rw [writePrefixRegion, writePrefix, writeOrigin_classify]
          refine ⟨.inr ⟨token, nonempty, clean, rfl⟩, ?_⟩
          have parts : more = token ++ left := by
            rw [Cursor.advance, whole] at parts
            exact parts
          have rest : left = sp :: later := rest
          rw [whole, parts, rest]
          simp [Cursor.advance]
        · cases spaceRead
  · cases read
    exact ⟨.inl rfl, rfl⟩

/-- What has the form of a prefix is the written form of one. -/
theorem OriginForm.written (form : OriginForm raw) :
    ∃ pfx : Option Prefix, (∀ p ∈ pfx, p.Stable) ∧ writePrefixRegion pfx = raw := by
  rcases form with rfl | ⟨token, nonempty, clean, rfl⟩
  · exact ⟨none, by simp, rfl⟩
  · refine ⟨some (classify token), ?_, ?_⟩
    · intro p same
      cases same
      constructor <;> rw [writeOrigin_classify]
      · exact nonempty
      · exact clean
    · rw [writePrefixRegion, writePrefix, writeOrigin_classify]

end Prefix

section Params

variable {out middles : List Bytes} {pos before : ℕ} {rest raw written : Bytes} {p : Params} {c after : Cursor}

theorem writeValues_middles (form : ∀ value ∈ middles, MiddleForm value) :
    writeValues false middles = middles.flatMap (sp :: ·) := by
  rcases List.eq_nil_or_concat middles with rfl | ⟨front, last, rfl⟩
  · rfl
  · rw [List.concat_eq_append] at form ⊢
    have middle := form last (List.mem_append_right _ List.mem_cons_self)
    rw [writeValues_append, List.flatMap_append]
    simp [writeValues, needsTrailing_middle middle]

theorem writeValues_marked (front : List Bytes) (last : Bytes) :
    writeValues true (front ++ [last]) = front.flatMap (sp :: ·) ++ sp :: colon :: last := by
  rw [writeValues_append]
  simp [writeValues, needsTrailing]

/-- The parameters are read to the end, and written in the form of those that there were and those that
are read. -/
theorem parseParamsLoop_sound (read : parseParamsLoop out pos rest = .ok (p, after))
    (middle : ∀ value ∈ out, MiddleForm value) (room : out.length ≤ 14) :
    ∃ written, ParamsForm out.length rest written ∧ writeParams p = out.flatMap (sp :: ·) ++ written := by
  fun_induction parseParamsLoop out pos rest with
  | case1 out pos =>
    cases read
    refine ⟨[], ⟨[], [], [], by simp, room, .none, rfl, rfl⟩, ?_⟩
    rw [List.append_nil]
    exact writeValues_middles middle
  | case6 out pos b more isSpace =>
    obtain ⟨rfl, -, clean⟩ := parseTrailing_ok read
    rw [not_not.mp isSpace]
    exact ⟨_, ⟨[], _, _, by simp, room, .marked clean, rfl, rfl⟩, writeValues_marked out more⟩
  | case7 out pos b first more isSpace _ unmarked full =>
    obtain ⟨rfl, -, clean⟩ := parseTrailing_ok read
    rw [not_not.mp isSpace]
    refine ⟨_, ⟨[], _, _, by simp, room, .fifteenth full (List.cons_ne_nil _ _) ?_ clean, rfl, rfl⟩,
      writeValues_marked out (first :: more)⟩
    exact fun same => unmarked (Option.some.inj same)
  | case10 out pos b first more isSpace _ notColon notLast isFirst value after' left _ ih =>
    have form : MiddleForm value := takeWhile_middle notColon (by simpa using isFirst)
    obtain ⟨written, ⟨middles, ending, marked, forms, fits, ends, rfl', rfl⟩, writes⟩ := ih read
      (fun v member => (List.mem_append.mp member).elim (middle v) fun last => List.mem_singleton.mp last ▸ form)
      (by rw [List.length_append, List.length_singleton]; omega)
    rw [List.length_append, List.length_singleton, Nat.add_right_comm, Nat.add_assoc] at fits ends
    refine ⟨_, ⟨value :: middles, ending, marked, List.forall_mem_cons.mpr ⟨form, forms⟩, fits, ends, ?_, rfl⟩, ?_⟩
    · have parts := List.takeWhile_append_dropWhile (p := isMiddleRest) (l := first :: more)
      rw [not_not.mp isSpace, List.flatMap_cons, List.cons_append, List.cons_append, List.append_assoc, ← rfl', parts]
    · rw [writes, List.flatMap_append, List.flatMap_cons]
      simp
  | _ => cases read

/-- What has the form of parameters is read. -/
theorem ParamsForm.read (form : ParamsForm 0 raw written) : ∃ p : Params, writeParams p = written ∧
    ∀ pos, ∃ after, parseParams ⟨pos, raw⟩ = .ok (p, after) ∧ after.rest = [] := by
  obtain ⟨middles, ending, marked, forms, fits, ends, rfl, rfl⟩ := form
  rw [Nat.zero_add] at fits ends
  have stops : StopsAt (· == sp) ending := by cases ends <;> simp
  have front := fun pos => @parseParamsLoop_front [] middles pos ending forms (by simpa using fits) stops
  have notTooMany : ¬ middles.length > maxParams := by simp only [maxParams]; omega
  unfold parseParams
  cases ends with
  | none =>
    refine ⟨⟨middles, false⟩, ?_, fun pos => ?_⟩
    · rw [List.append_nil]
      exact writeValues_middles forms
    · have read := front pos
      rw [List.nil_append, parseParamsLoop] at read
      exact ⟨_, read, rfl⟩
  | @marked last clean =>
    refine ⟨⟨middles ++ [last], true⟩, writeValues_marked middles last, fun pos => ?_⟩
    have read := front pos
    rw [List.nil_append, parseParamsLoop, if_neg (by simp), if_neg notTooMany, if_pos rfl,
      parseTrailing_clean _ clean] at read
    exact ⟨_, read, rfl⟩
  | @fifteenth last full nonempty unmarked clean =>
    obtain ⟨first, more, rfl⟩ := List.exists_cons_of_ne_nil nonempty
    have notColon : first ≠ colon := fun same => unmarked (same ▸ rfl)
    refine ⟨⟨middles ++ [first :: more], true⟩, writeValues_marked middles _, fun pos => ?_⟩
    have read := front pos
    rw [List.nil_append, parseParamsLoop, if_neg (by simp), if_neg notTooMany, if_neg notColon, if_pos full,
      parseTrailing_clean _ clean] at read
    exact ⟨_, read, rfl⟩

theorem ParamsForm.stops (form : ParamsForm before raw written) : StopsAt (· == sp) raw := by
  obtain ⟨middles, ending, marked, -, -, ends, rfl, -⟩ := form
  cases middles with
  | nil => cases ends <;> simp
  | cons value middles => simp

end Params

section Lines

variable {buf raw written front last : Bytes} {m : Message} {c afterPfx afterVerb afterParams : Cursor}
  {pfx : Option Prefix} {verb : Verb} {params : Params}

/-- What follows the tags is of the form of a line and is written as that form says. -/
theorem line_sound (pfxRead : parsePrefixRegion c = .ok (pfx, afterPfx)) (verbRead : parseVerb afterPfx = .ok (verb, afterVerb))
    (paramsRead : parseParams afterVerb = .ok (params, afterParams)) :
    LineForm c.rest (writePrefixRegion pfx ++ writeVerb verb ++ writeParams params) := by
  obtain ⟨origin, whole⟩ := parsePrefixRegion_sound pfxRead
  obtain ⟨form, rest⟩ := parseVerb_sound verbRead
  obtain ⟨written, paramsForm, writes⟩ := parseParamsLoop_sound paramsRead (by simp) (Nat.zero_le _)
  refine ⟨_, _, written, ⟨_, _, origin, form, rfl⟩, paramsForm, ?_, ?_⟩
  · rw [whole, rest, List.append_assoc]
  · rw [writes, List.flatMap_nil, List.nil_append]

/-- What is of the form of a line is read. -/
theorem LineForm.read (form : LineForm raw written) : ∃ pfx verb params,
    writePrefixRegion pfx ++ writeVerb verb ++ writeParams params = written ∧
    ∀ pos, ∃ afterPfx afterVerb afterParams, parsePrefixRegion ⟨pos, raw⟩ = .ok (pfx, afterPfx) ∧
      parseVerb afterPfx = .ok (verb, afterVerb) ∧ parseParams afterVerb = .ok (params, afterParams) ∧
        afterParams.rest = [] := by
  obtain ⟨head, paramsRaw, marked, ⟨origin, verbRaw, originForm, verbForm, rfl⟩, paramsForm, rfl, rfl⟩ := form
  obtain ⟨pfx, stable, rfl⟩ := originForm.written
  obtain ⟨verb, wf, rfl⟩ := verbForm.written
  obtain ⟨params, rfl, paramsRead⟩ := paramsForm.read
  have closes : (writeVerb verb ++ paramsRaw).head? ≠ some colon := by
    rw [head_append_of_ne_nil (writeVerb_ne_nil wf)]
    exact fun opens => (writeVerb_head wf colon opens).2 rfl
  refine ⟨pfx, verb, params, rfl, fun pos => ?_⟩
  have pfxRead := parsePrefixRegion_write pos (fun p chosen pos left => parsePrefix_stable pos left (stable p chosen)) closes
  have verbRead := parseVerb_write (pos + (writePrefixRegion pfx).length) wf paramsForm.stops
  obtain ⟨after, read, ends⟩ := paramsRead (pos + (writePrefixRegion pfx).length + (writeVerb verb).length)
  rw [List.append_assoc]
  exact ⟨_, _, after, pfxRead, verbRead, read, ends⟩

theorem VerbForm.head (form : VerbForm raw) : ∃ first more, raw = first :: more ∧ first ≠ atSign := by
  obtain ⟨verb, wf, rfl⟩ := form.written
  obtain ⟨first, more, whole⟩ := List.exists_cons_of_ne_nil (writeVerb_ne_nil wf)
  exact ⟨first, more, whole, (writeVerb_head wf first (by rw [whole]; rfl)).1⟩

/-- A line opens no tags region. -/
theorem LineForm.head (form : LineForm raw written) : raw ≠ [] ∧ raw.head? ≠ some atSign := by
  obtain ⟨_, _, _, ⟨origin, verb, originForm, verbForm, rfl⟩, -, rfl, -⟩ := form
  rcases originForm with rfl | ⟨token, -, -, rfl⟩
  · obtain ⟨first, more, rfl, notAt⟩ := verbForm.head
    simpa using notAt
  · simp [colon, atSign]

/-- A class of bytes without NUL, CR and LF. -/
theorem clean_of_class {admits : UInt8 → Bool} (refuses : admits nul = false ∧ admits cr = false ∧ admits lf = false)
    {b : UInt8} (admitted : admits b = true) : isForbidden b = false := by
  have apart {other : UInt8} (refused : admits other = false) : b ≠ other := by
    rintro rfl
    rw [refused] at admitted
    cases admitted
  exact isForbidden_eq_false.mpr ⟨apart refuses.1, apart refuses.2.1, apart refuses.2.2⟩

theorem VerbForm.clean (form : VerbForm raw) : ∀ b ∈ raw, isForbidden b = false := by
  rcases form with ⟨-, letters⟩ | ⟨-, digits⟩
  · exact fun b member => clean_of_class (by decide) (letters b member)
  · exact fun b member => clean_of_class (by decide) (digits b member)

theorem OriginForm.clean (form : OriginForm raw) : ∀ b ∈ raw, isForbidden b = false := by
  rcases form with rfl | ⟨token, -, clean, rfl⟩
  · simp
  · intro b member
    rw [List.mem_append, List.mem_cons, List.mem_singleton] at member
    rcases member with (rfl | inside) | rfl
    · decide
    · exact (clean b inside).2
    · decide

theorem ParamsForm.clean {before : ℕ} (form : ParamsForm before raw written) : ∀ b ∈ raw, isForbidden b = false := by
  obtain ⟨middles, ending, marked, forms, -, ends, rfl, -⟩ := form
  intro b member
  rcases List.mem_append.mp member with front | last
  · obtain ⟨value, listed, inside⟩ := List.mem_flatMap.mp front
    rcases List.mem_cons.mp inside with rfl | inside
    · decide
    · exact (forms value listed).clean b inside
  · cases ends with
    | none => cases last
    | marked clean =>
      rcases List.mem_cons.mp last with rfl | last
      · decide
      · rcases List.mem_cons.mp last with rfl | last
        · decide
        · exact clean b last
    | fifteenth _ _ _ clean =>
      rcases List.mem_cons.mp last with rfl | last
      · decide
      · exact clean b last

/-- A line without a tags region holds no NUL, CR or LF. -/
theorem LineForm.clean (form : LineForm raw written) : ∀ b ∈ raw, isForbidden b = false := by
  obtain ⟨_, params, _, ⟨origin, verb, originForm, verbForm, rfl⟩, paramsForm, rfl, -⟩ := form
  intro b member
  rcases List.mem_append.mp member with head | inParams
  · rcases List.mem_append.mp head with inOrigin | inVerb
    · exact originForm.clean b inOrigin
    · exact verbForm.clean b inVerb
  · exact paramsForm.clean b inParams

/-- The lines without a tags region that are accepted, and what is written for them. -/
theorem parse_untagged (untagged : buf.head? ≠ some atSign) :
    (∃ m, Message.parse buf = .ok m ∧ m.toBytes = written) ↔ LineForm buf written := by
  have noTags : parseTagsRegion ⟨0, buf⟩ = .ok ([], ⟨0, buf⟩) := by
    rw [parseTagsRegion, if_neg]
    exact untagged
  constructor
  · rintro ⟨m, read, rfl⟩
    unfold Message.parse at read
    split at read
    · cases read
    · rw [noTags, ok_bind] at read
      obtain ⟨⟨pfx, afterPfx⟩, pfxRead, read⟩ := bind_eq_ok.mp read
      obtain ⟨⟨verb, afterVerb⟩, verbRead, read⟩ := bind_eq_ok.mp read
      obtain ⟨⟨params, afterParams⟩, paramsRead, read⟩ := bind_eq_ok.mp read
      dsimp only at read
      split at read
      · cases read
      · cases read
        exact line_sound pfxRead verbRead paramsRead
  · intro form
    obtain ⟨nonempty, -⟩ := form.head
    obtain ⟨pfx, verb, params, writes, read⟩ := form.read
    obtain ⟨afterPfx, afterVerb, afterParams, pfxRead, verbRead, paramsRead, ends⟩ := read 0
    refine ⟨⟨[], pfx, verb, params⟩, ?_, ?_⟩
    · rw [Message.parse, if_neg nonempty, noTags, ok_bind]
      dsimp only
      rw [pfxRead, ok_bind]
      dsimp only
      rw [verbRead, ok_bind]
      dsimp only
      rw [paramsRead, ok_bind]
      dsimp only
      rw [if_neg (not_not.mpr ends)]
    · rw [← writes]
      rfl

end Lines

section Tags

variable {c after : Cursor} {key : TagKey} {value : Option Bytes} {tags : Tags} {i : ℕ} {rest out raw left buf : Bytes}

/-- A value is read up to where it ends, unless a backslash ends the line. -/
theorem parseValue_sound (read : parseValue i rest = .ok (out, after)) (inside : after.rest ≠ []) :
    ∃ raw, RawValue raw ∧ rest = raw ++ after.rest := by
  fun_induction parseValue i rest generalizing out after with
  | case1 i =>
    cases read
    exact absurd rfl inside
  | case2 i b rest stops =>
    cases read
    exact ⟨[], .nil, rfl⟩
  | case3 i stops =>
    cases read
    exact absurd rfl inside
  | case4 i c rest stops ih =>
    obtain ⟨⟨out', after'⟩, deeper, last⟩ := bind_eq_ok.mp read
    cases last
    obtain ⟨raw, value, whole⟩ := ih deeper inside
    exact ⟨backslash :: c :: raw, .escape c value, by rw [whole]; rfl⟩
  | case5 i b rest stops plain refused => cases read
  | case6 i b rest stops plain admitted ih =>
    obtain ⟨⟨out', after'⟩, deeper, last⟩ := bind_eq_ok.mp read
    cases last
    obtain ⟨raw, value, whole⟩ := ih deeper inside
    simp only [Bool.or_eq_true, Bool.not_eq_true', not_or, Bool.not_eq_false] at admitted
    exact ⟨b :: raw, .plain admitted.2 value, by rw [whole]; rfl⟩

/-- A written value is read up to where a tag ends. -/
theorem RawValue.read (value : RawValue raw) (ends : StopsAt (fun b => b == semi || b == sp) left) (inside : left ≠ []) :
    ∃ out after, parseValue i (raw ++ left) = .ok (out, after) ∧ after.rest = left := by
  induction value generalizing i with
  | nil =>
    obtain ⟨b, left, rfl⟩ := List.exists_cons_of_ne_nil inside
    exact ⟨_, _, parseValue_stop i left (by simpa using ends), rfl⟩
  | plain plain _ ih =>
    obtain ⟨out, after, read, whole⟩ := ih (i := i + 1)
    exact ⟨_, after, by rw [List.cons_append, parseValue_plain i _ plain, read]; rfl, whole⟩
  | escape c _ ih =>
    obtain ⟨out, after, read, whole⟩ := ih (i := i + 2)
    refine ⟨unescape c :: out, after, ?_, whole⟩
    rw [List.cons_append, List.cons_append, parseValue, if_neg (by decide), if_pos rfl, read]
    rfl

theorem parseKey_sound (read : parseKey c = .ok (key, after)) : ∃ raw, RawKey raw ∧ c.rest = raw ++ after.rest := by
  obtain ⟨⟨nonempty, admitted⟩, whole⟩ := parseKey_whole read
  refine ⟨_, ⟨key.name, nonempty, admitted, ?_⟩, whole⟩
  cases key.clientOnly with
  | true => exact .inr rfl
  | false => exact .inl rfl

theorem RawKey.read (form : RawKey raw) (ends : StopsAt (fun b => !isTagKeyByte b) left) (pos : ℕ) :
    ∃ key after, parseKey ⟨pos, raw ++ left⟩ = .ok (key, after) ∧ after.rest = left := by
  obtain ⟨name, nonempty, admitted, rfl | rfl⟩ := form
  · have read := @parseKey_write ⟨false, raw⟩ left pos ⟨nonempty, admitted⟩ ends
    exact ⟨_, _, read, rfl⟩
  · have read := @parseKey_write ⟨true, name⟩ left pos ⟨nonempty, admitted⟩ ends
    exact ⟨_, _, read, rfl⟩

theorem parseOptionalValue_sound (read : parseOptionalValue c = .ok (value, after)) (inside : after.rest ≠ []) :
    c.rest = after.rest ∨ ∃ raw, RawValue raw ∧ c.rest = equals :: raw ++ after.rest := by
  unfold parseOptionalValue at read
  split at read
  · rename_i isEquals
    obtain ⟨⟨v, after'⟩, parsed, last⟩ := bind_eq_ok.mp read
    cases last
    obtain ⟨more, rest⟩ := List.head?_eq_some_iff.mp isEquals
    obtain ⟨raw, value, whole⟩ := parseValue_sound parsed inside
    refine .inr ⟨raw, value, ?_⟩
    rw [Cursor.advance, rest] at whole
    have whole : more = raw ++ after.rest := whole
    rw [rest, whole]
    rfl
  · cases read
    exact .inl rfl

/-- One tag, up to where it ends. -/
theorem RawTag.read (tag : RawTag raw) (left : Bytes) (ends : StopsAt (fun b => b == semi || b == sp) left) (inside : left ≠ [])
    (pos : ℕ) : ∃ key afterKey value after, parseKey ⟨pos, raw ++ left⟩ = .ok (key, afterKey) ∧
      parseOptionalValue afterKey = .ok (value, after) ∧ after.rest = left := by
  obtain ⟨key, form, rfl | ⟨value, rawValue, rfl⟩⟩ := tag
  · obtain ⟨key, ⟨at_, rest⟩, read, rfl⟩ := form.read (stopsAt_tag_end ends) pos
    refine ⟨key, _, none, ⟨at_, rest⟩, read, ?_, rfl⟩
    rw [parseOptionalValue, if_neg (peek_tag_end at_ ends)]
  · have stops : StopsAt (fun b => !isTagKeyByte b) (equals :: value ++ left) := by
      rw [List.cons_append, stopsAt_cons]
      decide
    obtain ⟨key, ⟨at_, rest⟩, read, same⟩ := form.read stops pos
    have same : rest = equals :: value ++ left := same
    subst same
    obtain ⟨out, after, parsed, whole⟩ := rawValue.read (i := at_ + 1) ends inside
    refine ⟨key, _, some out, after, by rw [List.append_assoc]; exact read, ?_, whole⟩
    rw [parseOptionalValue, List.cons_append, Cursor.peek_cons, if_pos rfl, Cursor.advance_one]
    dsimp only
    rw [parsed]
    rfl

theorem parseTags_sound (read : parseTags c = .ok (tags, after)) :
    ∃ raw, TagsForm raw ∧ c.rest = raw ++ after.rest ∧ after.peek = some sp := by
  have one : ∀ {c afterKey after : Cursor} {key : TagKey} {value : Option Bytes}, parseKey c = .ok (key, afterKey) →
      parseOptionalValue afterKey = .ok (value, after) → after.rest ≠ [] → ∃ raw, RawTag raw ∧ c.rest = raw ++ after.rest := by
    intro c afterKey after key value keyRead valueRead inside
    obtain ⟨rawKey, keyForm, keyWhole⟩ := parseKey_sound keyRead
    rcases parseOptionalValue_sound valueRead inside with same | ⟨rawValue, valueForm, whole⟩
    · exact ⟨rawKey, ⟨rawKey, keyForm, .inl rfl⟩, by rw [keyWhole, same]⟩
    · exact ⟨_, ⟨rawKey, keyForm, .inr ⟨rawValue, valueForm, rfl⟩⟩, by rw [keyWhole, whole, List.append_assoc]⟩
  have nonempty : ∀ {c : Cursor} {b : UInt8}, c.peek = some b → c.rest ≠ [] := by
    intro c b head none
    rw [Cursor.peek, none] at head
    cases head
  induction tags generalizing c with
  | nil =>
    obtain ⟨_, _, _, _, _, none, -⟩ := parseTags_cases read
    cases none
  | cons tag tags ih =>
    obtain ⟨key, value, afterKey, afterTag, others, is, keyRead, valueRead, next⟩ := parseTags_cases read
    cases is
    rcases next with ⟨isSemi, deeper⟩ | ⟨isSpace, rfl, rfl⟩
    · obtain ⟨raw, tagForm, whole⟩ := one keyRead valueRead (nonempty isSemi)
      obtain ⟨others, form, rest, ends⟩ := ih deeper
      obtain ⟨next, following⟩ := List.head?_eq_some_iff.mp isSemi
      refine ⟨raw ++ semi :: others, .more tagForm form, ?_, ends⟩
      have rest : next = others ++ after.rest := by
        rw [Cursor.advance, following] at rest
        exact rest
      rw [whole, following, rest]
      simp
    · obtain ⟨raw, tagForm, whole⟩ := one keyRead valueRead (nonempty isSpace)
      exact ⟨raw, .last tagForm, whole, isSpace⟩

theorem TagsForm.read (form : TagsForm raw) (left : Bytes) (pos : ℕ) :
    ∃ tags after, parseTags ⟨pos, raw ++ sp :: left⟩ = .ok (tags, after) ∧ after.rest = sp :: left := by
  induction form generalizing pos with
  | last tag =>
    obtain ⟨key, afterKey, value, after, keyRead, valueRead, rest⟩ :=
      tag.read (sp :: left) (by simp) (List.cons_ne_nil _ _) pos
    refine ⟨[⟨key, value⟩], after, ?_, rest⟩
    have head : after.peek = some sp := by rw [Cursor.peek, rest]; rfl
    rw [parseTags_eq, keyRead, ok_bind]
    dsimp only
    rw [valueRead, ok_bind]
    dsimp only
    rw [head, if_neg (by decide), if_pos rfl]
  | @more raw others tag _ ih =>
    obtain ⟨key, afterKey, value, ⟨at_, rest⟩, keyRead, valueRead, same⟩ :=
      tag.read (semi :: (others ++ sp :: left)) (by simp) (List.cons_ne_nil _ _) pos
    have same : rest = semi :: (others ++ sp :: left) := same
    subst same
    obtain ⟨tags, after, read, whole⟩ := ih (at_ + 1)
    refine ⟨⟨key, value⟩ :: tags, after, ?_, whole⟩
    rw [List.append_assoc, List.cons_append, parseTags_eq, keyRead, ok_bind]
    dsimp only
    rw [valueRead, ok_bind]
    dsimp only
    rw [Cursor.peek_cons, if_pos rfl, Cursor.advance_one, read]
    rfl

/-- The lines with a tags region that are accepted. -/
theorem parse_tagged (tagged : buf.head? = some atSign) : (∃ m, Message.parse buf = .ok m) ↔ TaggedForm buf := by
  obtain ⟨more, rfl⟩ := List.head?_eq_some_iff.mp tagged
  constructor
  · rintro ⟨m, read⟩
    unfold Message.parse at read
    rw [if_neg (List.cons_ne_nil _ _)] at read
    obtain ⟨⟨tags, afterTags⟩, tagsRead, read⟩ := bind_eq_ok.mp read
    obtain ⟨⟨pfx, afterPfx⟩, pfxRead, read⟩ := bind_eq_ok.mp read
    obtain ⟨⟨verb, afterVerb⟩, verbRead, read⟩ := bind_eq_ok.mp read
    obtain ⟨⟨params, afterParams⟩, paramsRead, -⟩ := bind_eq_ok.mp read
    rw [parseTagsRegion, Cursor.peek_cons, if_pos rfl, Cursor.advance_one] at tagsRead
    obtain ⟨⟨tags', afterTags'⟩, tagsRead, regionRead⟩ := bind_eq_ok.mp tagsRead
    obtain ⟨next, spaceRead, regionRead⟩ := bind_eq_ok.mp regionRead
    cases regionRead
    obtain ⟨raw, form, whole, isSpace⟩ := parseTags_sound tagsRead
    rw [expectSpace, if_pos isSpace] at spaceRead
    cases spaceRead
    obtain ⟨rest, same⟩ := List.head?_eq_some_iff.mp isSpace
    have line := line_sound pfxRead verbRead paramsRead
    rw [Cursor.advance, same] at line
    have whole : more = raw ++ sp :: rest := by rw [← same]; exact whole
    exact ⟨raw, rest, _, form, line, by rw [whole]⟩
  · rintro ⟨raw, rest, written, form, line, same⟩
    cases same
    obtain ⟨tags, ⟨at_, following⟩, tagsRead, same⟩ := form.read rest 1
    have same : following = sp :: rest := same
    subst same
    obtain ⟨pfx, verb, params, -, read⟩ := line.read
    obtain ⟨afterPfx, afterVerb, afterParams, pfxRead, verbRead, paramsRead, ends⟩ := read (at_ + 1)
    refine ⟨⟨tags, pfx, verb, params⟩, ?_⟩
    rw [Message.parse, if_neg (List.cons_ne_nil _ _), parseTagsRegion, Cursor.peek_cons, if_pos rfl, Cursor.advance_one,
      Nat.zero_add, tagsRead, ok_bind]
    dsimp only
    rw [expectSpace_sp, ok_bind, ok_bind]
    dsimp only
    rw [pfxRead, ok_bind]
    dsimp only
    rw [verbRead, ok_bind]
    dsimp only
    rw [paramsRead, ok_bind]
    dsimp only
    rw [if_neg (not_not.mpr ends)]

end Tags

end RndRust.Irc.Proto
