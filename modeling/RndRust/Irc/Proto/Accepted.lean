import RndRust.Irc.Proto.Message

/-! What the parsers return. They are more lenient than the writers, so a line may be accepted
that nobody would write; what matters is whether its message is written in a form that is read
back. -/
namespace RndRust.Irc.Proto
open Lib

section Params

variable {out values : List Bytes} {last : Bytes} {trailing : Bool} {pos : ℕ} {rest : Bytes} {p : Params} {c after : Cursor}

theorem valuesForm_append (middle : ∀ value ∈ out, MiddleForm value) (form : LastForm trailing last) :
    ValuesForm trailing (out ++ [last]) := by
  induction out with
  | nil => exact form
  | cons value more ih =>
    have rest := ih fun v member => middle v (List.mem_cons_of_mem _ member)
    cases more with
    | nil => exact ⟨middle value List.mem_cons_self, rest⟩
    | cons next more => exact ⟨middle value List.mem_cons_self, rest⟩

theorem valuesForm_concat (form : ValuesForm trailing (out ++ [last])) :
    (∀ value ∈ out, MiddleForm value) ∧ LastForm trailing last := by
  induction out with
  | nil => exact ⟨by simp, form⟩
  | cons value more ih =>
    have parts : MiddleForm value ∧ ValuesForm trailing (more ++ [last]) := by
      cases more with
      | nil => exact form
      | cons next more => exact form
    obtain ⟨rest, ends⟩ := ih parts.2
    exact ⟨List.forall_mem_cons.mpr ⟨parts.1, rest⟩, ends⟩

theorem valuesForm_middle (middle : ∀ value ∈ values, MiddleForm value) : ValuesForm false values := by
  rcases List.eq_nil_or_concat values with rfl | ⟨front, last, rfl⟩
  · trivial
  · rw [List.concat_eq_append] at middle ⊢
    apply valuesForm_append
    · exact fun value member => middle value (List.mem_append_left _ member)
    · exact middle last (List.mem_append_right _ List.mem_cons_self)

theorem nul_free (clean : ∀ b ∈ rest, isForbidden b = false) : nul ∉ rest :=
  fun member => absurd (clean nul member) (by decide)

theorem parseTrailing_ok (read : parseTrailing out pos rest = .ok (p, after)) :
    p = ⟨out ++ [rest], true⟩ ∧ after.rest = [] ∧ ∀ b ∈ rest, isForbidden b = false := by
  unfold parseTrailing at read
  split at read
  · cases read
  · rename_i value left run
    cases read
    obtain ⟨whole, admitted, ends⟩ := scan_ok run
    have none : left = [] := by
      cases left with
      | nil => rfl
      | cons b left => cases stopsAt_cons.mp ends
    subst none
    rw [List.append_nil] at whole
    subst whole
    exact ⟨rfl, rfl, fun b member => (admitted b member).2⟩

theorem shaped_trailing (middle : ∀ value ∈ out, MiddleForm value) (room : out.length ≤ 14)
    (clean : ∀ b ∈ last, isForbidden b = false) : Params.Shaped ⟨out ++ [last], true⟩ := by
  refine ⟨?_, fun _ => rfl, valuesForm_append middle clean⟩
  rw [List.length_append, List.length_singleton]
  omega

theorem not_mem_nul_cons {b : UInt8} : nul ∉ b :: rest ↔ b ≠ nul ∧ nul ∉ rest := by
  rw [List.mem_cons, not_or, ne_comm]

/-- The run of a value that may start where it does. -/
theorem takeWhile_middle {first : UInt8} {more : Bytes} (notColon : first ≠ colon) (isFirst : isMiddleFirst first) :
    MiddleForm ((first :: more).takeWhile isMiddleRest) := by
  have isRest := (isMiddleFirst_iff.mp isFirst).1
  refine ⟨?_, ?_, List.all_eq_true.mp List.all_takeWhile⟩
  · rw [List.takeWhile_cons, if_pos isRest]
    exact List.cons_ne_nil _ _
  · rw [List.takeWhile_cons, if_pos isRest]
    exact fun same => notColon (Option.some.inj same)

/-- The loop returns the values it has and those it reads, all in the form in which they are
written. -/
theorem parseParamsLoop_ok (read : parseParamsLoop out pos rest = .ok (p, after))
    (middle : ∀ value ∈ out, MiddleForm value) (room : out.length ≤ 14) : p.Shaped ∧ nul ∉ rest := by
  fun_induction parseParamsLoop out pos rest with
  | case1 out pos =>
    cases read
    refine ⟨⟨Nat.le_succ_of_le room, ?_, valuesForm_middle middle⟩, List.not_mem_nil⟩
    intro full
    have length : out.length = 15 := full
    omega
  | case6 out pos b more isSpace =>
    obtain ⟨rfl, -, clean⟩ := parseTrailing_ok read
    refine ⟨shaped_trailing middle room clean, ?_⟩
    rw [not_mem_nul_cons, not_not.mp isSpace, not_mem_nul_cons]
    exact ⟨by decide, by decide, nul_free clean⟩
  | case7 out pos b first more isSpace =>
    obtain ⟨rfl, -, clean⟩ := parseTrailing_ok read
    refine ⟨shaped_trailing middle room clean, ?_⟩
    rw [not_mem_nul_cons, not_not.mp isSpace]
    exact ⟨by decide, nul_free clean⟩
  | case10 out pos b first more isSpace _ notColon notLast isFirst value after' left _ ih =>
    have form : MiddleForm value := takeWhile_middle notColon (by simpa using isFirst)
    obtain ⟨shaped, rest⟩ := ih read
      (fun v member => (List.mem_append.mp member).elim (middle v) fun last => List.mem_singleton.mp last ▸ form)
      (by rw [List.length_append, List.length_singleton]; omega)
    refine ⟨shaped, ?_⟩
    rw [not_mem_nul_cons, not_not.mp isSpace]
    refine ⟨by decide, fun member => ?_⟩
    rw [← List.takeWhile_append_dropWhile (p := isMiddleRest) (l := first :: more)] at member
    rcases List.mem_append.mp member with taken | dropped
    · exact absurd (form.2.2 nul taken) (by decide)
    · exact rest dropped
  | _ => cases read

theorem parseParams_ok (read : parseParams c = .ok (p, after)) : p.Shaped ∧ nul ∉ c.rest :=
  parseParamsLoop_ok read (by simp) (Nat.zero_le _)

/-- Values that can be sent: all but the last as middle parameters, the last in trailing form. -/
def Params.Sendable (p : Params) : Prop := p.values.length ≤ 15 ∧ ValuesForm true p.values

theorem MiddleForm.clean (form : MiddleForm value) : ∀ b ∈ value, isForbidden b = false := by
  intro b member
  obtain ⟨isNul, isCr, isLf, -⟩ := isMiddleRest_iff.mp (form.2.2 b member)
  exact isForbidden_eq_false.mpr ⟨isNul, isCr, isLf⟩

/-- The first values can be sent as all of them can. -/
theorem ValuesForm.left (form : ValuesForm true (values ++ args)) : ValuesForm true values := by
  induction values with
  | nil => trivial
  | cons value more ih =>
    cases more with
    | nil =>
      cases args with
      | nil => exact form
      | cons next args => exact form.1.clean
    | cons next more => exact ⟨form.1, ih form.2⟩

theorem ValuesForm.take (form : ValuesForm true values) (n : ℕ) : ValuesForm true (values.take n) := by
  rw [← List.take_append_drop n values] at form
  exact form.left

theorem Params.Shaped.sendable (shaped : p.Shaped) : p.Sendable := by
  refine ⟨shaped.1, ?_⟩
  obtain ⟨-, -, form⟩ := shaped
  rcases List.eq_nil_or_concat p.values with none | ⟨front, last, whole⟩
  · rw [none]
    trivial
  · rw [List.concat_eq_append] at whole
    rw [whole] at form ⊢
    obtain ⟨middle, ends⟩ := valuesForm_concat form
    apply valuesForm_append middle
    unfold LastForm at ends
    split at ends
    · exact ends
    · exact ends.clean

theorem writeValues_append (trailing : Bool) (front : List Bytes) (last : Bytes) :
    writeValues trailing (front ++ [last]) = front.flatMap (sp :: ·) ++ writeValues trailing [last] := by
  induction front with
  | nil => rfl
  | cons value more ih =>
    cases more with
    | nil => simp [writeValues]
    | cons next more =>
      rw [List.flatMap_cons, List.append_assoc, ← ih]
      simp [writeValues]

/-- The loop reads values of middle form one after the other. -/
theorem parseParamsLoop_front (form : ∀ value ∈ values, MiddleForm value) (room : out.length + values.length ≤ 14)
    (ends : StopsAt (· == sp) rest) : parseParamsLoop out pos (values.flatMap (sp :: ·) ++ rest) =
      parseParamsLoop (out ++ values) (pos + (values.flatMap (sp :: ·)).length) rest := by
  induction values generalizing out pos with
  | nil => simp
  | cons value more ih =>
    rw [List.length_cons] at room
    have stops : StopsAt (· == sp) (more.flatMap (sp :: ·) ++ rest) := by
      cases more with
      | nil => simpa using ends
      | cons next more => simp
    have first := parseParamsLoop_middle out pos _ (form value List.mem_cons_self) (by omega) stops
    rw [List.flatMap_cons, List.append_assoc, first, ih fun v member => form v (List.mem_cons_of_mem _ member)]
    · simp [Nat.add_assoc, Nat.add_comm 1]
    · rw [List.length_append, List.length_singleton]
      omega

/-- A value that is not written in trailing form could stand in the middle. -/
theorem middleForm_of_plain (clean : ∀ b ∈ last, isForbidden b = false) (plain : needsTrailing trailing last = false) :
    MiddleForm last := by
  simp only [needsTrailing, Bool.or_eq_false_iff] at plain
  obtain ⟨⟨⟨-, nonempty⟩, notColon⟩, noSpace⟩ := plain
  refine ⟨by simpa using nonempty, by simpa using notColon, fun b member => ?_⟩
  obtain ⟨isNul, isCr, isLf⟩ := isForbidden_eq_false.mp (clean b member)
  refine isMiddleRest_iff.mpr ⟨isNul, isCr, isLf, ?_⟩
  rintro rfl
  rw [List.contains_iff_mem.mpr member] at noSpace
  cases noSpace

/-- The last value is read in trailing form where it is written so, or is the fifteenth. -/
theorem parseParamsLoop_last (room : out.length ≤ 14) (clean : ∀ b ∈ last, isForbidden b = false) :
    parseParamsLoop out pos (writeValues trailing [last]) =
      .ok (⟨out ++ [last], needsTrailing trailing last || decide (out.length = 14)⟩,
        ⟨pos + (writeValues trailing [last]).length, []⟩) := by
  have notTooMany : ¬ out.length > maxParams := by simp only [maxParams]; omega
  cases marked : needsTrailing trailing last with
  | true =>
    simp only [writeValues, marked, ↓reduceIte, List.cons_append, List.nil_append]
    rw [parseParamsLoop]
    simp only [ne_eq, not_true_eq_false, ↓reduceIte, notTooMany, parseTrailing_clean _ clean, List.length_cons,
      Bool.true_or]
    congr 3
    omega
  | false =>
    have form := middleForm_of_plain clean marked
    simp only [writeValues, marked, Bool.false_eq_true, ↓reduceIte, Bool.false_or]
    by_cases full : out.length = 14
    · obtain ⟨first, more, rfl, notColon, -⟩ := middleForm_first form
      rw [List.singleton_append, parseParamsLoop, if_neg (by simp), if_neg notTooMany, if_neg notColon, if_pos full,
        parseTrailing_clean _ clean, List.length_cons (a := sp), decide_eq_true full]
      congr 3
      omega
    · have read := parseParamsLoop_middle out pos [] form (by omega) (by simp)
      rw [List.append_nil] at read
      rw [List.singleton_append, read, parseParamsLoop, decide_eq_false full]

/-- What is sent arrives, except that a value may come in trailing form that was not sent so. -/
theorem parseParams_sent (sendable : p.Sendable) : ∃ flag, ∀ pos, parseParams ⟨pos, writeParams p⟩ =
    .ok (⟨p.values, flag⟩, ⟨pos + (writeParams p).length, []⟩) := by
  obtain ⟨values, trailing⟩ := p
  obtain ⟨room, form⟩ := sendable
  unfold parseParams writeParams
  dsimp only at room form ⊢
  rcases List.eq_nil_or_concat values with rfl | ⟨front, last, rfl⟩
  · refine ⟨false, fun pos => ?_⟩
    rw [writeValues, parseParamsLoop]
    rfl
  · rw [List.concat_eq_append] at room form ⊢
    rw [List.length_append, List.length_singleton] at room
    obtain ⟨middle, clean⟩ := valuesForm_concat form
    refine ⟨needsTrailing trailing last || decide (front.length = 14), fun pos => ?_⟩
    have reads := @parseParamsLoop_front [] front pos (writeValues trailing [last]) middle (by simpa using by omega)
      (writeValues_stops trailing [last])
    rw [writeValues_append, reads, List.nil_append, parseParamsLoop_last (by omega) clean, List.length_append,
      Nat.add_assoc]

end Params

section Verb

variable {c after : Cursor} {verb : Verb}

theorem digit_value {b : UInt8} (digit : isAsciiDigit b) : (b - zero).toNat ≤ 9 ∧ b ≠ nul := by
  have bounds : 48 ≤ b.toNat ∧ b.toNat ≤ 57 := by
    simpa [isAsciiDigit, UInt8.le_iff_toNat_le] using digit
  have least : zero ≤ b := UInt8.le_iff_toNat_le.mpr bounds.1
  refine ⟨?_, ?_⟩
  · rw [UInt8.toNat_sub_of_le _ _ least]
    have : zero.toNat = 48 := rfl
    omega
  · rintro rfl
    exact absurd bounds.1 (by decide)

theorem parseNumeric_ok {first : UInt8} (head : c.peek = some first) (digit : isAsciiDigit first)
    (read : parseNumeric c = .ok (verb, after)) : verb.WellFormed ∧ (nul ∈ c.rest ↔ nul ∈ after.rest) := by
  obtain ⟨pos, rest⟩ := c
  unfold parseNumeric at read
  split at read
  · rename_i h t u left same
    dsimp only at same
    subst same
    split at read
    · cases read
    · rename_i digits
      cases read
      simp only [Bool.or_eq_true, Bool.not_eq_true', not_or, Bool.not_eq_false] at digits
      have hundreds := digit_value (Option.some.inj head ▸ digit)
      have tens := digit_value digits.1.1
      have units := digit_value digits.1.2
      constructor
      · have value : ∀ {b : UInt8}, (b - zero).toUInt16.toNat = (b - zero).toNat := UInt8.toNat_toUInt16 _
        simp only [Verb.WellFormed, UInt16.lt_iff_toNat_lt, UInt16.toNat_add, UInt16.toNat_mul, value,
          show (1000 : UInt16).toNat = 1000 from rfl, show (100 : UInt16).toNat = 100 from rfl,
          show (10 : UInt16).toNat = 10 from rfl]
        simp (disch := omega) only [Nat.mod_eq_of_lt]
        omega
      · simp [hundreds.2.symm, tens.2.symm, units.2.symm]
  · cases read

theorem parseVerb_ok (read : parseVerb c = .ok (verb, after)) :
    verb.WellFormed ∧ (nul ∈ c.rest ↔ nul ∈ after.rest) := by
  unfold parseVerb at read
  split at read
  · cases read
  · rename_i first head
    split at read
    · rename_i digit
      exact parseNumeric_ok head digit read
    · split at read
      · cases read
      · rename_i letter
        have alphabetic : isAsciiAlphabetic first := by simpa using letter
        dsimp only at read
        split at read
        · cases read
        · cases read
          have all : ∀ b ∈ c.rest.takeWhile isAsciiAlphabetic, isAsciiAlphabetic b = true :=
            List.all_eq_true.mp List.all_takeWhile
          refine ⟨⟨?_, all⟩, ?_⟩
          · obtain ⟨more, rest⟩ := List.head?_eq_some_iff.mp head
            rw [rest, List.takeWhile_cons, if_pos alphabetic]
            exact List.cons_ne_nil _ _
          · have whole := List.takeWhile_append_dropWhile (p := isAsciiAlphabetic) (l := c.rest)
            have left : (c.advance (c.rest.takeWhile isAsciiAlphabetic).length).rest =
                c.rest.dropWhile isAsciiAlphabetic := by
              unfold Cursor.advance
              dsimp only
              nth_rewrite 2 [← whole]
              exact List.drop_left
            rw [left]
            nth_rewrite 1 [← whole]
            rw [List.mem_append, or_iff_right]
            exact fun member => absurd (all nul member) (by decide)

end Verb

section Prefixes

variable {c after : Cursor} {p : Prefix} {raw : Bytes}

/-- A prefix in one token that is split where it was put together. -/
structure Prefix.Stable (p : Prefix) : Prop where
  nonempty : writeOrigin p ≠ []
  clean : CleanToken (writeOrigin p)
  split : classify (writeOrigin p) = p

theorem Prefix.Shaped.stable (shaped : p.Shaped) (separable : p.Separable) : p.Stable where
  nonempty := writeOrigin_ne_nil shaped
  clean := writeOrigin_clean shaped separable
  split := classify_writeOrigin shaped separable

theorem findIdx?_byte {b : UInt8} {n : ℕ} (found : raw.findIdx? (· == b) = some n) :
    raw = raw.take n ++ b :: raw.drop (n + 1) := by
  obtain ⟨inside, is, -⟩ := List.findIdx?_eq_some_iff_getElem.mp found
  have here : raw[n] = b := by simpa using is
  rw [← here, List.getElem_cons_drop, List.take_append_drop]

theorem writeOrigin_classifyBare : writeOrigin (classifyBare raw) = raw := by
  unfold classifyBare
  split
  · rfl
  · simp [writeOrigin]

/-- However a token is split, it is put together again. -/
theorem writeOrigin_classify : writeOrigin (classify raw) = raw := by
  unfold classify
  split
  · rename_i bi ai bangAt atAt
    split
    · rename_i before
      have bangs := findIdx?_byte bangAt
      have ats := findIdx?_byte atAt
      have middle : raw.take bi ++ bang :: (raw.take ai).drop (bi + 1) = raw.take ai := by
        obtain ⟨inside, is, -⟩ := List.findIdx?_eq_some_iff_getElem.mp bangAt
        have here : raw[bi] = bang := by simpa using is
        have stays : bi < (raw.take ai).length := by
          rw [List.length_take]
          omega
        have last := List.drop_eq_getElem_cons stays
        rw [List.getElem_take, here] at last
        rw [← last, show raw.take bi = (raw.take ai).take bi by rw [List.take_take, Nat.min_eq_left (Nat.le_of_lt before)]]
        exact List.take_append_drop bi _
      simp only [writeOrigin]
      rw [middle]
      exact ats.symm
    · exact writeOrigin_classifyBare
  · rename_i bi bangAt _
    simp only [writeOrigin, List.append_nil]
    exact (findIdx?_byte bangAt).symm
  · rename_i ai _ atAt
    simp only [writeOrigin, List.append_nil]
    exact (findIdx?_byte atAt).symm
  · exact writeOrigin_classifyBare

/-- A token that is read is written as it was. -/
theorem parsePrefix_ok (read : parsePrefix c = .ok (p, after)) :
    p.Stable ∧ (nul ∈ c.rest ↔ nul ∈ after.rest) := by
  unfold parsePrefix at read
  split at read
  · cases read
  · rename_i raw left run
    split at read
    · cases read
    · rename_i nonempty
      cases read
      obtain ⟨whole, admitted, -⟩ := scan_ok run
      have clean : CleanToken raw := fun b member => by simpa using admitted b member
      constructor
      · constructor <;> rw [writeOrigin_classify]
        · exact nonempty
        · exact clean
      · rw [whole, List.mem_append, or_iff_right]
        exact fun member => absurd (clean nul member).2 (by decide)

theorem parsePrefix_stable (pos : ℕ) (left : Bytes) (stable : p.Stable) :
    parsePrefix ⟨pos, writeOrigin p ++ sp :: left⟩ =
      .ok (p, ⟨pos + (writeOrigin p).length, sp :: left⟩) := by
  have run : scan (· == sp) isForbidden pos (writeOrigin p ++ sp :: left) = .ok (writeOrigin p, sp :: left) :=
    scan_append (fun b member => ⟨by simpa using (stable.clean b member).1, (stable.clean b member).2⟩) (by simp)
  unfold parsePrefix
  dsimp only
  rw [run]
  dsimp only
  rw [if_neg stable.nonempty, stable.split]

end Prefixes

section Tags

variable {c after : Cursor} {key : TagKey} {value : Option Bytes} {tag : Tag} {tags : Tags} {i : ℕ} {rest out v : Bytes}

/-- A NUL in the value of some tag, which has no written form. -/
def HoldsNul (tags : Tags) : Prop := ∃ tag ∈ tags, ∃ v ∈ tag.value, nul ∈ v

theorem holdsNul_cons : HoldsNul (tag :: tags) ↔ (∃ v ∈ tag.value, nul ∈ v) ∨ HoldsNul tags := by
  unfold HoldsNul
  exact List.exists_mem_cons_iff _ _ _

/-- A key that is read is what there was before the rest. -/
theorem parseKey_whole (read : parseKey c = .ok (key, after)) :
    key.WellFormed ∧ c.rest = (if key.clientOnly then [plus] else []) ++ key.name ++ after.rest := by
  simp only [parseKey] at read
  generalize signed : (c.peek == some plus) = clientOnly at read
  generalize startDef : (if clientOnly = true then c.advance 1 else c) = start at read
  split at read
  · cases read
  · rename_i nonempty
    cases read
    refine ⟨⟨nonempty, List.all_eq_true.mp List.all_takeWhile⟩, ?_⟩
    have whole := List.takeWhile_append_dropWhile (p := isTagKeyByte) (l := start.rest)
    have left : (start.advance (start.rest.takeWhile isTagKeyByte).length).rest = start.rest.dropWhile isTagKeyByte := by
      unfold Cursor.advance
      dsimp only
      nth_rewrite 2 [← whole]
      exact List.drop_left
    dsimp only
    rw [left, List.append_assoc, whole]
    cases clientOnly with
    | true =>
      obtain ⟨more, rest⟩ := List.head?_eq_some_iff.mp (beq_iff_eq.mp signed)
      rw [← startDef, if_pos rfl, if_pos rfl, Cursor.advance, rest]
      rfl
    | false =>
      rw [← startDef]
      rfl

theorem parseKey_ok (read : parseKey c = .ok (key, after)) :
    key.WellFormed ∧ (nul ∈ c.rest ↔ nul ∈ after.rest) := by
  obtain ⟨wf, whole⟩ := parseKey_whole read
  refine ⟨wf, ?_⟩
  have named : nul ∉ key.name := fun member => absurd (wf.2 nul member) (by decide)
  have flag : nul ∉ if key.clientOnly then [plus] else [] := by
    split <;> simp [plus, nul]
  rw [whole, List.mem_append, List.mem_append, or_iff_right (not_or.mpr ⟨flag, named⟩)]

theorem unescape_nul {b : UInt8} : unescape b = nul ↔ b = nul := by
  unfold unescape
  split_ifs with isColon isSpace isBackslash isR isN
  · subst isColon
    decide
  · subst isSpace
    decide
  · subst isBackslash
    decide
  · subst isR
    decide
  · subst isN
    decide
  · rfl

/-- A NUL is read into a value as it is, behind a backslash. -/
theorem parseValue_ok (read : parseValue i rest = .ok (out, after)) :
    nul ∈ rest ↔ nul ∈ out ∨ nul ∈ after.rest := by
  fun_induction parseValue i rest generalizing out after with
  | case1 i =>
    cases read
    simp
  | case2 i b rest stops =>
    cases read
    simp
  | case3 i stops =>
    cases read
    simp [nul, backslash]
  | case4 i c rest stops ih =>
    obtain ⟨⟨out', after'⟩, deeper, last⟩ := bind_eq_ok.mp read
    cases last
    have escaped := @unescape_nul c
    simp only [List.mem_cons, ih deeper]
    rw [@eq_comm _ nul (unescape c), escaped, @eq_comm _ nul c]
    simp [nul, backslash, or_assoc]
  | case5 i b rest stops plain refused => cases read
  | case6 i b rest stops plain admitted ih =>
    obtain ⟨⟨out', after'⟩, deeper, last⟩ := bind_eq_ok.mp read
    cases last
    simp only [List.mem_cons, ih deeper, or_assoc]

theorem parseOptionalValue_ok (read : parseOptionalValue c = .ok (value, after)) :
    nul ∈ c.rest ↔ (∃ v ∈ value, nul ∈ v) ∨ nul ∈ after.rest := by
  unfold parseOptionalValue at read
  split at read
  · rename_i isEquals
    obtain ⟨⟨v, after'⟩, parsed, last⟩ := bind_eq_ok.mp read
    cases last
    obtain ⟨more, rest⟩ := List.head?_eq_some_iff.mp isEquals
    have reads := parseValue_ok parsed
    unfold Cursor.advance at reads
    rw [rest] at reads ⊢
    simpa [nul, equals] using reads
  · cases read
    simp

/-- A region that is read: its first tag, and the others behind a semicolon, or the space at its end. -/
theorem parseTags_cases (read : parseTags c = .ok (tags, after)) : ∃ key value afterKey afterTag others,
    tags = ⟨key, value⟩ :: others ∧ parseKey c = .ok (key, afterKey) ∧
      parseOptionalValue afterKey = .ok (value, afterTag) ∧
      (afterTag.peek = some semi ∧ parseTags (afterTag.advance 1) = .ok (others, after) ∨
        afterTag.peek = some sp ∧ others = [] ∧ afterTag = after) := by
  rw [parseTags_eq] at read
  obtain ⟨⟨key, afterKey⟩, keyRead, read⟩ := bind_eq_ok.mp read
  obtain ⟨⟨value, afterTag⟩, valueRead, read⟩ := bind_eq_ok.mp read
  dsimp only at read
  split at read
  · rename_i isSemi
    obtain ⟨⟨more, last⟩, deeper, read⟩ := bind_eq_ok.mp read
    cases read
    exact ⟨key, value, afterKey, afterTag, more, rfl, keyRead, valueRead, .inl ⟨isSemi, deeper⟩⟩
  · split at read
    · rename_i isSpace
      cases read
      exact ⟨key, value, afterKey, after, [], rfl, keyRead, valueRead, .inr ⟨isSpace, rfl, rfl⟩⟩
    · cases read

theorem parseTags_ok (read : parseTags c = .ok (tags, after)) :
    (∀ tag ∈ tags, tag.key.WellFormed) ∧ (nul ∈ c.rest ↔ HoldsNul tags ∨ nul ∈ after.rest) := by
  induction tags generalizing c with
  | nil =>
    obtain ⟨_, _, _, _, _, none, -⟩ := parseTags_cases read
    cases none
  | cons tag tags ih =>
    obtain ⟨key, value, afterKey, afterTag, others, is, keyRead, valueRead, next⟩ := parseTags_cases read
    cases is
    obtain ⟨wf, keeps⟩ := parseKey_ok keyRead
    rw [holdsNul_cons, keeps, parseOptionalValue_ok valueRead]
    rcases next with ⟨isSemi, deeper⟩ | ⟨-, rfl, rfl⟩
    · obtain ⟨keys, others⟩ := ih deeper
      obtain ⟨next, rest⟩ := List.head?_eq_some_iff.mp isSemi
      unfold Cursor.advance at others
      rw [rest] at others ⊢
      refine ⟨List.forall_mem_cons.mpr ⟨wf, keys⟩, ?_⟩
      simpa [nul, semi, or_assoc] using or_congr_right others
    · refine ⟨List.forall_mem_cons.mpr ⟨wf, by simp⟩, ?_⟩
      simp [HoldsNul]

theorem parseValue_nul (i : ℕ) (left : Bytes) (holds : nul ∈ v) :
    ∃ e, parseValue i (writeEscapedValue v ++ left) = .error e := by
  induction v generalizing i with
  | nil => cases holds
  | cons b v ih =>
    have split : writeEscapedValue (b :: v) = escapeByte b ++ writeEscapedValue v := rfl
    rw [split, List.append_assoc]
    by_cases isNul : b = nul
    · subst isNul
      refine ⟨.invalidTagEscape i, ?_⟩
      rw [show escapeByte nul = [nul] by decide, List.singleton_append, parseValue.eq_def]
      simp [nul, semi, sp, backslash, isForbidden]
    · obtain ⟨e, fails⟩ := ih (i + (escapeByte b).length) ((List.mem_cons.mp holds).resolve_left (Ne.symm isNul))
      rw [parseValue_escapeByte i _ isNul, fails]
      exact ⟨e, rfl⟩

theorem parseTag_nul (pos : ℕ) (left : Bytes) (wf : tag.key.WellFormed) (holds : ∃ v ∈ tag.value, nul ∈ v) :
    ∃ afterKey e, parseKey ⟨pos, writeTag tag ++ left⟩ = .ok (tag.key, afterKey) ∧
      parseOptionalValue afterKey = .error e := by
  obtain ⟨key, value⟩ := tag
  obtain ⟨v, isValue, inside⟩ := holds
  cases isValue
  have stops : StopsAt (fun b => !isTagKeyByte b) (equals :: writeEscapedValue v ++ left) := by
    rw [List.cons_append, stopsAt_cons]
    decide
  have read := parseKey_write pos wf stops
  obtain ⟨e, fails⟩ := parseValue_nul (pos + ((if key.clientOnly then [plus] else []) ++ key.name).length + 1) left inside
  refine ⟨_, e, by simpa only [writeTag, List.append_assoc] using read, ?_⟩
  unfold parseOptionalValue
  rw [List.cons_append, Cursor.peek_cons, if_pos rfl, Cursor.advance_one]
  dsimp only
  rw [fails]
  rfl

/-- Tags that hold a NUL are written in a form that is refused. -/
theorem parseTags_nul (pos : ℕ) (left : Bytes) (keys : ∀ tag ∈ tags, tag.key.WellFormed) (holds : HoldsNul tags) :
    ∃ e, parseTags ⟨pos, writeTagList tags ++ sp :: left⟩ = .error e := by
  induction tags generalizing pos with
  | nil =>
    obtain ⟨tag, member, -⟩ := holds
    cases member
  | cons tag tags ih =>
    by_cases own : ∃ v ∈ tag.value, nul ∈ v
    · obtain ⟨next, whole⟩ : ∃ next, writeTagList (tag :: tags) ++ sp :: left = writeTag tag ++ next := by
        cases tags with
        | nil => exact ⟨_, rfl⟩
        | cons other tags => exact ⟨semi :: (writeTagList (other :: tags) ++ sp :: left), by simp [writeTagList]⟩
      obtain ⟨afterKey, e, keyRead, fails⟩ := parseTag_nul pos next (keys tag List.mem_cons_self) own
      rw [whole, parseTags_eq, keyRead, ok_bind]
      dsimp only
      rw [fails]
      exact ⟨e, rfl⟩
    · have later := (holdsNul_cons.mp holds).resolve_left own
      have wf : tag.WellFormed := ⟨keys tag List.mem_cons_self, fun v is inside => own ⟨v, is, inside⟩⟩
      cases tags with
      | nil =>
        obtain ⟨tag, member, -⟩ := later
        cases member
      | cons other tags =>
        obtain ⟨afterKey, keyRead, valueRead⟩ :=
          parseTag_write pos (semi :: (writeTagList (other :: tags) ++ sp :: left)) wf (by simp)
        obtain ⟨e, fails⟩ := ih (pos + (writeTag tag).length + 1)
          (fun tag member => keys tag (List.mem_cons_of_mem _ member)) later
        have whole : writeTagList (tag :: other :: tags) ++ sp :: left =
            writeTag tag ++ semi :: (writeTagList (other :: tags) ++ sp :: left) := by
          simp [writeTagList]
        rw [whole, parseTags_eq, keyRead, ok_bind]
        dsimp only
        rw [valueRead, ok_bind]
        dsimp only
        rw [Cursor.peek_cons, if_pos rfl, Cursor.advance_one, fails]
        exact ⟨e, rfl⟩

end Tags

section Messages

variable {m : Message} {buf left : Bytes} {pfx : Option Prefix} {params : Params} {c after : Cursor} {tags : Tags}

/-- A message that a line was read as. -/
structure Message.Accepted (m : Message) : Prop where
  keys : ∀ tag ∈ m.tags, tag.key.WellFormed
  pfx : ∀ p ∈ m.pfx, p.Stable
  verb : m.verb.WellFormed
  params : m.params.Shaped
  flagged : m.params.Flagged

theorem expectSpace_ok (read : expectSpace c = .ok after) : nul ∈ c.rest ↔ nul ∈ after.rest := by
  unfold expectSpace at read
  split at read
  · rename_i isSpace
    cases read
    obtain ⟨more, rest⟩ := List.head?_eq_some_iff.mp isSpace
    unfold Cursor.advance
    rw [rest]
    simp [nul, sp]
  · cases read

theorem parseTagsRegion_ok (read : parseTagsRegion c = .ok (tags, after)) :
    (∀ tag ∈ tags, tag.key.WellFormed) ∧ (nul ∈ c.rest ↔ HoldsNul tags ∨ nul ∈ after.rest) := by
  unfold parseTagsRegion at read
  split at read
  · rename_i isAt
    obtain ⟨⟨tags', afterTags⟩, tagsRead, read⟩ := bind_eq_ok.mp read
    obtain ⟨next, spaceRead, read⟩ := bind_eq_ok.mp read
    cases read
    obtain ⟨keys, holds⟩ := parseTags_ok tagsRead
    obtain ⟨more, rest⟩ := List.head?_eq_some_iff.mp isAt
    refine ⟨keys, ?_⟩
    rw [← expectSpace_ok spaceRead, ← holds]
    unfold Cursor.advance
    rw [rest]
    simp [nul, atSign]
  · cases read
    exact ⟨by simp, by simp [HoldsNul]⟩

theorem parsePrefixRegion_ok (read : parsePrefixRegion c = .ok (pfx, after)) :
    (∀ p ∈ pfx, p.Stable) ∧ (nul ∈ c.rest ↔ nul ∈ after.rest) := by
  unfold parsePrefixRegion at read
  split at read
  · rename_i isColon
    obtain ⟨⟨p, afterPrefix⟩, prefixRead, read⟩ := bind_eq_ok.mp read
    obtain ⟨next, spaceRead, read⟩ := bind_eq_ok.mp read
    cases read
    obtain ⟨stable, keeps⟩ := parsePrefix_ok prefixRead
    obtain ⟨more, rest⟩ := List.head?_eq_some_iff.mp isColon
    refine ⟨by simpa using stable, ?_⟩
    rw [← expectSpace_ok spaceRead, ← keeps]
    unfold Cursor.advance
    rw [rest]
    simp [nul, colon]
  · cases read
    exact ⟨by simp, Iff.rfl⟩

/-- A line that is accepted holds a NUL only where a value of a tag has one. -/
theorem parse_accepted (read : Message.parse buf = .ok m) : m.Accepted ∧ (nul ∈ buf ↔ HoldsNul m.tags) := by
  unfold Message.parse at read
  split at read
  · cases read
  · obtain ⟨⟨tags, afterTags⟩, tagsRead, read⟩ := bind_eq_ok.mp read
    obtain ⟨⟨pfx, afterPfx⟩, pfxRead, read⟩ := bind_eq_ok.mp read
    obtain ⟨⟨verb, afterVerb⟩, verbRead, read⟩ := bind_eq_ok.mp read
    obtain ⟨⟨params, afterParams⟩, paramsRead, read⟩ := bind_eq_ok.mp read
    dsimp only at read pfxRead verbRead paramsRead
    split at read
    · cases read
    · cases read
      obtain ⟨keys, holds⟩ := parseTagsRegion_ok tagsRead
      obtain ⟨stable, pfxKeeps⟩ := parsePrefixRegion_ok pfxRead
      obtain ⟨wf, verbKeeps⟩ := parseVerb_ok verbRead
      obtain ⟨shaped, clean⟩ := parseParams_ok paramsRead
      refine ⟨⟨keys, stable, wf, shaped, parseParams_flagged paramsRead⟩, ?_⟩
      rw [holds, pfxKeeps, verbKeeps, or_iff_left clean]

/-- A message of stable regions is read back. -/
theorem parse_written (tags : ∀ tag ∈ m.tags, tag.WellFormed) (stable : ∀ p ∈ m.pfx, p.Stable)
    (verb : m.verb.WellFormed) (read : ∀ pos, parseParams ⟨pos, writeParams m.params⟩ =
      .ok (params, ⟨pos + (writeParams m.params).length, []⟩)) :
    Message.parse m.toBytes = .ok { m with params } :=
  parse_of_regions tags (fun p chosen pos left => parsePrefix_stable pos left (stable p chosen)) verb read

/-- **What is accepted is stable** when the line holds no NUL: one is accepted behind a backslash
in the value of a tag, and it is written without. -/
theorem accepted_stable (read : Message.parse buf = .ok m) : Message.parse m.toBytes = .ok m ↔ nul ∉ buf := by
  obtain ⟨accepted, holds⟩ := parse_accepted read
  rw [holds]
  constructor
  · intro again holds
    obtain ⟨⟨tags, afterTags⟩, tagsRead, -⟩ : ∃ r, parseTagsRegion ⟨0, m.toBytes⟩ = .ok r ∧ True := by
      unfold Message.parse at again
      split at again
      · cases again
      · obtain ⟨r, tagsRead, -⟩ := bind_eq_ok.mp again
        exact ⟨r, tagsRead, trivial⟩
    have nonempty : m.tags ≠ [] := by
      rintro none
      rw [none] at holds
      obtain ⟨tag, member, -⟩ := holds
      cases member
    obtain ⟨e, fails⟩ := parseTags_nul 1 (writePrefixRegion m.pfx ++ (writeVerb m.verb ++ writeParams m.params))
      accepted.keys holds
    have split : m.toBytes = atSign ::
        (writeTagList m.tags ++ sp :: (writePrefixRegion m.pfx ++ (writeVerb m.verb ++ writeParams m.params))) := by
      simp [Message.toBytes, writeTags, nonempty]
    unfold parseTagsRegion at tagsRead
    rw [split, Cursor.peek_cons, if_pos rfl, Cursor.advance_one, fails] at tagsRead
    cases tagsRead
  · intro free
    exact parse_written (fun tag member => ⟨accepted.keys tag member, fun v is inside => free ⟨tag, member, v, is, inside⟩⟩)
      accepted.pfx accepted.verb fun pos => parseParams_write pos accepted.params accepted.flagged

/-- An unknown escape, an empty value, an `@` in front of the `!`, and a last value with a colon. -/
def oddLine : Bytes := ascii "@a=x\\y;+b= :al@ice!x 001 p ::q"

def oddMessage : Message where
  tags := [⟨⟨false, ascii "a"⟩, some (ascii "xy")⟩, ⟨⟨true, ascii "b"⟩, some []⟩]
  pfx := some (.user (ascii "al@ice!x") none none)
  verb := .numeric 1
  params := ⟨[ascii "p", ascii ":q"], true⟩

theorem accepted_stable_odd : Message.parse oddLine = .ok oddMessage ∧ oddMessage.toBytes ≠ oddLine ∧
    Message.parse oddMessage.toBytes = .ok oddMessage := by
  have read : Message.parse oddLine = .ok oddMessage := by decide +kernel
  exact ⟨read, by decide, (accepted_stable read).mpr (by decide)⟩

/-- `@a=`, a backslash and a NUL. -/
def nulLine : Bytes := ascii "@a=\\" ++ nul :: ascii " PING"

theorem accepted_stable_fails : ¬ ∀ buf m, Message.parse buf = .ok m → Message.parse m.toBytes = .ok m := by
  intro stable
  have read : Message.parse nulLine = .ok ⟨[⟨⟨false, ascii "a"⟩, some [nul]⟩], none, .word (ascii "PING"), {}⟩ := by
    decide +kernel
  exact absurd (stable _ _ read) (by decide +kernel)

end Messages

end RndRust.Irc.Proto
