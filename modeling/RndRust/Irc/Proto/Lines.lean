import RndRust.Irc.Proto.Grammar

/-! What is written for a line that is accepted, and which lines with a NUL, CR or LF are. -/
namespace RndRust.Irc.Proto
open Lib

section Written

variable {buf front last : Bytes} {m : Message}

/-- A line with fourteen middle parameters, and a fifteenth that has no colon. -/
def Fifteenth (buf front last : Bytes) : Prop := ∃ (head : Bytes) (middles : List Bytes), HeadForm head ∧
  middles.length = 14 ∧ (∀ value ∈ middles, MiddleForm value) ∧ last ≠ [] ∧ last.head? ≠ some colon ∧
    front = head ++ middles.flatMap (sp :: ·) ∧ buf = front ++ sp :: last

theorem Fifteenth.form (fifteenth : Fifteenth buf front last) (clean : ∀ b ∈ buf, isForbidden b = false) :
    LineForm buf (front ++ sp :: colon :: last) := by
  obtain ⟨head, middles, headForm, full, forms, nonempty, unmarked, rfl, rfl⟩ := fifteenth
  have own : ∀ b ∈ last, isForbidden b = false := fun b member =>
    clean b (List.mem_append_right _ (List.mem_cons_of_mem _ member))
  refine ⟨head, _, _, headForm, ⟨middles, _, _, forms, by omega, .fifteenth (by omega) nonempty unmarked own, rfl, rfl⟩,
    ?_, ?_⟩
  · rw [List.append_assoc]
  · rw [List.append_assoc]

/-- **Writing inverts reading**, byte for byte, but for the colon in front of a fifteenth parameter. -/
theorem written_as_read (read : Message.parse buf = .ok m) (untagged : buf.head? ≠ some atSign) :
    (m.toBytes = buf ↔ ¬∃ front last, Fifteenth buf front last) ∧
    ∀ front last, Fifteenth buf front last → m.toBytes = front ++ sp :: colon :: last := by
  have form := (parse_untagged untagged).mp ⟨m, read, rfl⟩
  have inserts : ∀ front last, Fifteenth buf front last → m.toBytes = front ++ sp :: colon :: last := by
    intro front last fifteenth
    obtain ⟨other, again, writes⟩ := (parse_untagged untagged).mpr (fifteenth.form form.clean)
    obtain rfl : m = other := Except.ok.inj (read.symm.trans again)
    exact writes
  refine ⟨⟨?_, ?_⟩, inserts⟩
  · rintro same ⟨front, last, fifteenth⟩
    have longer := inserts front last fifteenth
    obtain ⟨_, _, _, _, _, _, _, _, whole⟩ := fifteenth
    rw [same, whole] at longer
    have lengths := congrArg List.length longer
    simp at lengths
  · intro none
    obtain ⟨head, params, marked, headForm, ⟨middles, ending, _, forms, -, ends, rfl, rfl⟩, whole, writes⟩ := form
    rw [writes, whole]
    cases ends with
    | none => rfl
    | marked => rfl
    | @fifteenth last full nonempty unmarked _ =>
      refine absurd ⟨head ++ middles.flatMap (sp :: ·), last, head, middles, headForm, by omega, forms, nonempty, unmarked,
        rfl, ?_⟩ none
      rw [whole, List.append_assoc]

/-- `:a!b@c 005 p p p p p p p p p p p p p p x`. -/
def fifteenLine : Bytes := ascii ":a!b@c 005" ++ (List.replicate 14 (ascii "p")).flatMap (sp :: ·) ++ sp :: ascii "x"

theorem written_as_read_fifteen : ∃ m, Message.parse fifteenLine = .ok m ∧ m.toBytes =
    ascii ":a!b@c 005" ++ (List.replicate 14 (ascii "p")).flatMap (sp :: ·) ++ sp :: colon :: ascii "x" := by
  let m : Message :=
    ⟨[], some (.user (ascii "a") (some (ascii "b")) (some (ascii "c"))), .numeric 5,
      ⟨List.replicate 14 (ascii "p") ++ [ascii "x"], true⟩⟩
  have read : Message.parse fifteenLine = .ok m := by decide +kernel
  refine ⟨m, read, (written_as_read read (by decide)).2 _ _ ⟨ascii ":a!b@c 005", List.replicate 14 (ascii "p"), ?_, rfl,
    by decide +kernel, by decide +kernel, by decide +kernel, rfl, rfl⟩⟩
  exact ⟨ascii ":a!b@c ", ascii "005", .inr ⟨ascii "a!b@c", by decide, by decide +kernel, rfl⟩, .inr (by decide +kernel),
    rfl⟩

end Written

section Forbidden

variable {raw first later buf : Bytes}

/-- NUL, CR and LF stand only behind a backslash. -/
def Behind (raw : Bytes) : Prop :=
  ∀ before b after, raw = before ++ b :: after → isForbidden b = true → before.getLast? = some backslash

theorem behind_of_clean (clean : ∀ b ∈ raw, isForbidden b = false) : Behind raw := by
  rintro before b after rfl forbidden
  rw [clean b (List.mem_append_right _ List.mem_cons_self)] at forbidden
  cases forbidden

theorem behind_singleton {b : UInt8} (clean : isForbidden b = false) : Behind [b] :=
  behind_of_clean (by simpa using clean)

theorem Behind.append (left : Behind first) (right : Behind later) : Behind (first ++ later) := by
  intro before b after whole forbidden
  rcases List.append_eq_append_iff.mp whole with ⟨more, rfl, inside⟩ | ⟨more, rfl, inside⟩
  · rw [List.getLast?_append, right more b after inside forbidden]
    rfl
  · cases more with
    | nil => exact absurd (right [] b after (by simpa using inside.symm) forbidden) (by simp)
    | cons head more =>
      obtain ⟨rfl, -⟩ := List.cons.inj inside
      exact left before b more rfl forbidden

theorem RawValue.behind (value : RawValue raw) : Behind raw := by
  induction value with
  | nil => exact behind_of_clean (by simp)
  | plain plain _ ih => exact (behind_singleton (clean_of_class (by decide) plain)).append ih
  | escape c _ ih =>
    intro before b after whole forbidden
    match before with
    | [] =>
      obtain ⟨rfl, -⟩ := List.cons.inj whole
      cases forbidden
    | [head] =>
      obtain ⟨rfl, -⟩ := List.cons.inj whole
      rfl
    | head :: next :: before =>
      obtain ⟨-, whole⟩ := List.cons.inj whole
      obtain ⟨-, whole⟩ := List.cons.inj whole
      simp [List.getLast?_cons, ih before b after whole forbidden]

theorem RawTag.behind (tag : RawTag raw) : Behind raw := by
  obtain ⟨key, ⟨name, -, admitted, isKey⟩, isTag⟩ := tag
  have named : ∀ b ∈ name, isForbidden b = false := fun b member => clean_of_class (by decide) (admitted b member)
  have keyed : Behind key := by
    apply behind_of_clean
    rcases isKey with rfl | rfl
    · exact named
    · exact List.forall_mem_cons.mpr ⟨by decide, named⟩
  rcases isTag with rfl | ⟨value, form, rfl⟩
  · exact keyed
  · exact keyed.append ((@behind_singleton equals (by decide)).append form.behind)

theorem TagsForm.behind (form : TagsForm raw) : Behind raw := by
  induction form with
  | last tag => exact tag.behind
  | more tag _ ih => exact tag.behind.append ((@behind_singleton semi (by decide)).append ih)

/-- A line with tags holds NUL, CR and LF only where an escape has them. -/
theorem TaggedForm.behind (form : TaggedForm buf) : Behind buf := by
  obtain ⟨tags, rest, written, tagsForm, line, rfl⟩ := form
  refine (@behind_singleton atSign (by decide)).append (tagsForm.behind.append ?_)
  exact (@behind_singleton sp (by decide)).append (behind_of_clean line.clean)

/-- A line with a NUL, CR or LF is refused unless it is a line with tags whose escapes hold them. -/
theorem forbidden_refused_iff (holds : ∃ b ∈ buf, isForbidden b = true) :
    (∃ e, Message.parse buf = .error e) ↔ ¬TaggedForm buf := by
  have refused : (∃ e, Message.parse buf = .error e) ↔ ¬∃ m, Message.parse buf = .ok m := by
    cases Message.parse buf <;> simp
  rw [refused, not_iff_not]
  by_cases tagged : buf.head? = some atSign
  · exact parse_tagged tagged
  · constructor
    · rintro ⟨m, read⟩
      obtain ⟨b, member, forbidden⟩ := holds
      have form := (parse_untagged tagged).mp ⟨m, read, rfl⟩
      rw [form.clean b member] at forbidden
      cases forbidden
    · rintro ⟨tags, rest, written, -, -, rfl⟩
      exact absurd rfl tagged

/-- A carriage return in the prefix. -/
theorem forbidden_refused_prefix : ∃ e, Message.parse (ascii ":a" ++ cr :: ascii " PING") = .error e := by
  refine (forbidden_refused_iff ⟨cr, by decide, by decide⟩).mpr ?_
  rintro ⟨tags, rest, written, -, -, same⟩
  exact absurd (List.cons.inj same).1 (by decide)

/-- `@a=`, a backslash and a line feed. -/
def lfLine : Bytes := ascii "@a=\\" ++ lf :: ascii " PING"

theorem forbidden_refused_fails : ¬∀ buf, (∃ b ∈ buf, isForbidden b = true) → ∃ e, Message.parse buf = .error e := by
  intro refuses
  obtain ⟨e, refused⟩ := refuses lfLine ⟨lf, by decide, by decide⟩
  have read : Message.parse lfLine = .ok ⟨[⟨⟨false, ascii "a"⟩, some [lf]⟩], none, .word (ascii "PING"), {}⟩ := by
    decide +kernel
  rw [read] at refused
  cases refused

end Forbidden

end RndRust.Irc.Proto
