import Mathlib.Data.List.Basic

/-! A stream cut into lines at a delimiter, and readers that see the stream in
chunks. The lines of a stream do not depend on how it arrived; a reader whose drain
takes the complete lines of its buffer and keeps the rest inherits that, as long as
the rest stays within what the reader tolerates. -/
namespace RndRust.Lib

variable {α β : Type*} [DecidableEq α] {d : α}

/-- The complete lines of a stream, without their delimiters, and its tail. -/
def splitLines (d : α) : List α → List (List α) × List α
  | [] => ([], [])
  | x :: xs =>
    if x = d then ([] :: (splitLines d xs).1, (splitLines d xs).2)
    else match splitLines d xs with
      | ([], tail) => ([], x :: tail)
      | (line :: lines, tail) => ((x :: line) :: lines, tail)

/-- The lines that a delimiter has closed. -/
def lines (d : α) (xs : List α) : List (List α) := (splitLines d xs).1

/-- What follows the last delimiter. -/
def tail (d : α) (xs : List α) : List α := (splitLines d xs).2

theorem splitLines_open {xs : List α} (unbroken : d ∉ xs) : splitLines d xs = ([], xs) := by
  induction xs with
  | nil => rfl
  | cons x xs ih =>
    simp only [List.mem_cons, not_or] at unbroken
    simp [splitLines, Ne.symm unbroken.1, ih unbroken.2]

theorem splitLines_line {line xs : List α} (unbroken : d ∉ line) :
    splitLines d (line ++ d :: xs) = (line :: lines d xs, tail d xs) := by
  induction line with
  | nil => simp [splitLines, lines, tail]
  | cons x line ih =>
    simp only [List.mem_cons, not_or] at unbroken
    simp [splitLines, Ne.symm unbroken.1, ih unbroken.2]

@[simp] theorem lines_nil : lines d [] = [] := rfl

@[simp] theorem tail_nil : tail d [] = [] := rfl

@[simp] theorem lines_open {xs : List α} (unbroken : d ∉ xs) : lines d xs = [] := by
  simp [lines, splitLines_open unbroken]

@[simp] theorem tail_open {xs : List α} (unbroken : d ∉ xs) : tail d xs = xs := by
  simp [tail, splitLines_open unbroken]

@[simp] theorem lines_line {line xs : List α} (unbroken : d ∉ line) :
    lines d (line ++ d :: xs) = line :: lines d xs := by
  simp [lines, splitLines_line unbroken]

@[simp] theorem tail_line {line xs : List α} (unbroken : d ∉ line) :
    tail d (line ++ d :: xs) = tail d xs := by
  simp [tail, splitLines_line unbroken]

/-- Every stream is unbroken, or a first line followed by the rest. -/
theorem first_line (d : α) (xs : List α) :
    d ∉ xs ∨ ∃ line rest, d ∉ line ∧ xs = line ++ d :: rest := by
  by_cases broken : d ∈ xs
  · obtain ⟨line, rest, rfl, unbroken⟩ := List.eq_append_cons_of_mem broken
    exact .inr ⟨line, rest, unbroken, rfl⟩
  · exact .inl broken

omit [DecidableEq α] in
/-- The first line of a stream and what follows it are determined by the stream. -/
theorem first_line_unique {line line' rest rest' : List α} (unbroken : d ∉ line)
    (unbroken' : d ∉ line') (same : line ++ d :: rest = line' ++ d :: rest') :
    line = line' ∧ rest = rest' := by
  induction line generalizing line' with
  | nil =>
    cases line' with
    | nil => exact ⟨rfl, by simpa using same⟩
    | cons x line' =>
      simp only [List.nil_append, List.cons_append, List.cons.injEq] at same
      exact absurd (by simp [same.1]) unbroken'
  | cons x line ih =>
    cases line' with
    | nil =>
      simp only [List.nil_append, List.cons_append, List.cons.injEq] at same
      exact absurd (by simp [same.1]) unbroken
    | cons y line' =>
      simp only [List.cons_append, List.cons.injEq] at same
      simp only [List.mem_cons, not_or] at unbroken unbroken'
      obtain ⟨rfl, rest⟩ := ih unbroken.2 unbroken'.2 same.2
      exact ⟨by rw [same.1], rest⟩

/-- Reasoning on a stream line by line. -/
theorem lines_induction {motive : List α → Prop} (opened : ∀ xs, d ∉ xs → motive xs)
    (line : ∀ line rest, d ∉ line → motive rest → motive (line ++ d :: rest)) (xs : List α) :
    motive xs := by
  rcases first_line d xs with unbroken | ⟨first, rest, unbroken, rfl⟩
  · exact opened xs unbroken
  · exact line first rest unbroken (lines_induction opened line rest)
termination_by xs.length

theorem tail_unbroken (d : α) (xs : List α) : d ∉ tail d xs := by
  induction xs using lines_induction (d := d) with
  | opened xs unbroken => simp [unbroken]
  | line line rest unbroken ih => simpa [unbroken] using ih

/-- A stream continued: its tail is the start of what comes next. -/
theorem lines_append (xs ys : List α) :
    lines d (xs ++ ys) = lines d xs ++ lines d (tail d xs ++ ys) := by
  induction xs using lines_induction (d := d) with
  | opened xs unbroken => simp [unbroken]
  | line line rest unbroken ih => simp [unbroken, ih]

theorem tail_append (xs ys : List α) : tail d (xs ++ ys) = tail d (tail d xs ++ ys) := by
  induction xs using lines_induction (d := d) with
  | opened xs unbroken => simp [unbroken]
  | line line rest unbroken ih => simp [unbroken, ih]

/-- Lines written one after the other are the lines of the stream. -/
theorem lines_flatMap {written : List (List α)} (unbroken : ∀ line ∈ written, d ∉ line) :
    lines d (written.flatMap (· ++ [d])) = written ∧ tail d (written.flatMap (· ++ [d])) = [] := by
  induction written with
  | nil => simp
  | cons line written ih =>
    have rest := ih fun other member => unbroken other (List.mem_cons_of_mem _ member)
    have head := unbroken line (by simp)
    simp [head, rest]

section Readers

/-- Feed a reader chunk by chunk, draining its buffer after each. -/
def feed (drain : List α → List β × List α) : List α → List (List α) → List β × List α
  | buf, [] => ([], buf)
  | buf, chunk :: chunks =>
    let (results, left) := drain (buf ++ chunk)
    let (more, last) := feed drain left chunks
    (results ++ more, last)

variable {drain : List α → List β × List α} {read : List α → List β} 

/-- A reader that drains complete lines and keeps its tail whenever the tail fits
gives the lines of the stream, however it is cut, as long as the tail fits at every
cut. -/
theorem feed_lines (fits : List α → Prop) (drains : ∀ buf, fits (tail d buf) →
      drain buf = ((lines d buf).flatMap read, tail d buf))
    {buf : List α} {chunks : List (List α)} (unbroken : d ∉ buf)
    (fit : ∀ seen, seen ≠ [] → seen <+: chunks → fits (tail d (buf ++ seen.flatten))) :
    feed drain buf chunks =
      ((lines d (buf ++ chunks.flatten)).flatMap read, tail d (buf ++ chunks.flatten)) := by
  induction chunks generalizing buf with
  | nil => simp [feed, unbroken]
  | cons chunk chunks ih =>
    have now : fits (tail d (buf ++ chunk)) := by
      simpa using fit [chunk] (by simp) (by simp)
    have later := ih (tail_unbroken d (buf ++ chunk)) fun seen some before => by
      have := fit (chunk :: seen) (by simp) (by simpa using before)
      rwa [List.flatten_cons, ← List.append_assoc, tail_append] at this
    simp only [feed, drains _ now, later, List.flatten_cons]
    rw [← List.append_assoc, lines_append (buf ++ chunk), tail_append (buf ++ chunk),
      List.flatMap_append]

/-- What the reader holds back at a cut is the start of a later line or of the tail. -/
theorem tail_prefix (seen rest : List α) :
    tail d seen <+: tail d (seen ++ rest) ∨ ∃ line ∈ lines d (seen ++ rest), tail d seen <+: line := by
  rw [tail_append, lines_append]
  have held := tail_unbroken d seen
  rcases first_line d rest with unbroken | ⟨line, more, unbroken, rfl⟩
  · left
    have : d ∉ tail d seen ++ rest := by simp [held, unbroken]
    simp [this]
  · right
    refine ⟨tail d seen ++ line, List.mem_append_right _ ?_, by simp⟩
    have : d ∉ tail d seen ++ line := by simp [held, unbroken]
    rw [← List.append_assoc, lines_line this]
    simp

end Readers

omit [DecidableEq α] in
/-- What stands between separators are the other elements. -/
theorem mem_of_mem_splitOnP {p : α → Bool} {x : α} {part xs : List α} (member : part ∈ xs.splitOnP p)
    (inside : x ∈ part) : x ∈ xs ∧ ¬p x := by
  induction xs generalizing part with
  | nil =>
    obtain rfl : part = [] := by simpa using member
    cases inside
  | cons y xs ih =>
    rw [List.splitOnP_cons_eq_if_modifyHead] at member
    split at member
    · rcases List.mem_cons.mp member with rfl | later
      · cases inside
      · exact (ih later inside).imp_left (List.mem_cons_of_mem y)
    · rename_i other
      cases split : xs.splitOnP p with
      | nil => exact absurd split (List.splitOnP_ne_nil _ _)
      | cons first more =>
        rw [split] at ih
        rw [split, List.modifyHead_cons, List.mem_cons] at member
        rcases member with rfl | later
        · rcases List.mem_cons.mp inside with rfl | within
          · exact ⟨List.mem_cons_self, other⟩
          · exact (ih List.mem_cons_self within).imp_left (List.mem_cons_of_mem y)
        · exact (ih (List.mem_cons_of_mem _ later) inside).imp_left (List.mem_cons_of_mem y)

theorem mem_of_mem_splitOn {sep x : α} {part xs : List α} (member : part ∈ xs.splitOn sep)
    (inside : x ∈ part) : x ∈ xs ∧ x ≠ sep := by
  simpa using mem_of_mem_splitOnP (p := (· == sep)) member inside

end RndRust.Lib
