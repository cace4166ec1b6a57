import Mathlib.Data.List.Infix

/-! Unix paths as texts: joining two of them as `std::path::Path::join` does, the
directory a path names once `.` and `..` are resolved, and which relative paths stay
below the directory they are resolved in. -/
namespace RndRust.Lib

abbrev Text := List Char

namespace Path

variable {path name base : Text} {cwd acc below : List Text} {parts : List Text} {part : Text} {n : ℕ}

def isAbsolute (path : Text) : Bool := path.head? = some '/'

/-- `Path::join`: an absolute `name` replaces the base. -/
def join (base name : Text) : Text :=
  if isAbsolute name then name
  else if base = [] ∨ base.getLast? = some '/' then base ++ name
  else base ++ '/' :: name

/-- What stands between the separators, without empty parts and `.`. -/
def components (path : Text) : List Text :=
  (path.splitOn '/').filter fun part => part ≠ [] ∧ part ≠ ['.']

/-- Go down to a name, or up at `..`; the root is its own parent. -/
def enter (acc : List Text) (part : Text) : List Text :=
  if part = ['.', '.'] then acc.dropLast else acc ++ [part]

/-- The place a path names, from the root down, for a process that works in `cwd`. -/
def resolve (cwd : List Text) (path : Text) : List Text :=
  (components path).foldl enter (if isAbsolute path then [] else cwd)

/-- A path that lies below a directory, and is not that directory. -/
def Inside (cwd : List Text) (dir path : Text) : Prop :=
  resolve cwd dir <+: resolve cwd path ∧ resolve cwd dir ≠ resolve cwd path

/-- How far below the start some parts lead, when no `..` leads above it. -/
def depth : ℕ → List Text → Option ℕ
  | n, [] => some n
  | n, part :: parts =>
    if part = ['.', '.'] then
      match n with
      | 0 => none
      | n + 1 => depth n parts
    else depth (n + 1) parts

/-- A relative path that never leaves the directory it is resolved in, and names
something below it. -/
def descends (name : Text) : Bool :=
  !isAbsolute name && (depth 0 (components name)).any (0 < ·)

theorem components_append_sep : components (base ++ '/' :: name) = components base ++ components name := by
  simp [components, List.splitOn_append_cons_self]

/-- Joining a relative name appends its components. -/
theorem components_join (relative : ¬ isAbsolute name) :
    components (join base name) = components base ++ components name := by
  unfold join
  rw [if_neg relative]
  split
  · rename_i ended
    rcases ended with rfl | ended
    · simp [components]
    · obtain ⟨front, rfl⟩ : ∃ front, base = front ++ ['/'] := by
        rw [List.getLast?_eq_some_iff] at ended
        exact ended
      have split : front ++ ['/'] ++ name = front ++ '/' :: name := by simp
      have emptied : components (front ++ ['/']) = components front := by
        rw [components_append_sep]
        simp [components]
      rw [split, components_append_sep, emptied]
  · exact components_append_sep

theorem isAbsolute_join (relative : ¬ isAbsolute name) (nonempty : base ≠ []) :
    isAbsolute (join base name) = isAbsolute base := by
  obtain ⟨c, base, rfl⟩ := List.exists_cons_of_ne_nil nonempty
  unfold join
  rw [if_neg relative]
  split <;> simp [isAbsolute]

/-- A relative name is resolved in the directory it is joined to. -/
theorem resolve_join (relative : ¬ isAbsolute name) (nonempty : base ≠ []) :
    resolve cwd (join base name) = (components name).foldl enter (resolve cwd base) := by
  unfold resolve
  rw [components_join relative, isAbsolute_join relative nonempty, List.foldl_append]

theorem resolve_absolute (absolute : isAbsolute name) :
    resolve cwd (join base name) = (components name).foldl enter [] := by
  simp [resolve, join, absolute]

/-- Parts that stay below the start leave the start as it is. -/
theorem foldl_enter_of_depth {d : ℕ} (start : List Text) (below : List Text)
    (stays : depth below.length parts = some d) :
    ∃ rest, parts.foldl enter (start ++ below) = start ++ rest ∧ rest.length = d := by
  induction parts generalizing below with
  | nil =>
    simp only [depth, Option.some.injEq] at stays
    exact ⟨below, rfl, stays⟩
  | cons part parts ih =>
    rw [List.foldl_cons]
    by_cases up : part = ['.', '.']
    · cases shape : below with
      | nil => simp [depth, up, shape] at stays
      | cons first more =>
        rw [shape] at stays
        simp only [depth, up, if_true, List.length_cons] at stays
        have shorter : (first :: more).dropLast.length = more.length := by simp
        have entered : enter (start ++ first :: more) part = start ++ (first :: more).dropLast := by
          rw [enter, if_pos up, List.dropLast_append_of_ne_nil (by simp)]
        rw [entered]
        exact ih _ (shorter ▸ stays)
    · simp only [depth, up, if_false] at stays
      have entered : enter (start ++ below) part = start ++ (below ++ [part]) := by
        rw [enter, if_neg up, List.append_assoc]
      rw [entered]
      exact ih _ (by simpa using stays)

/-- Once a foreign directory has been left, names that are not its own do not lead
back into it. -/
theorem foldl_enter_left {c : Text} (foreign : c ∉ parts) (left : ¬ [c] <+: acc) :
    ¬ [c] <+: parts.foldl enter acc := by
  induction parts generalizing acc with
  | nil => exact left
  | cons part parts ih =>
    have other : c ≠ part := fun same => foreign (by simp [same])
    refine ih (fun member => foreign (List.mem_cons_of_mem _ member)) ?_
    unfold enter
    split
    · intro back
      exact left (back.trans (List.dropLast_prefix acc))
    · intro back
      cases acc with
      | nil => simp [other] at back
      | cons first more =>
        rw [List.cons_append, List.cons_prefix_cons] at back
        exact left (by simp [back.1])

/-- Parts that climb above the start leave it. -/
theorem foldl_enter_of_climb {c : Text} (foreign : c ∉ parts) (climbs : depth below.length parts = none) :
    ¬ [c] <+: parts.foldl enter (c :: below) := by
  induction parts generalizing below with
  | nil => simp [depth] at climbs
  | cons part parts ih =>
    have rest : c ∉ parts := fun member => foreign (List.mem_cons_of_mem _ member)
    rw [List.foldl_cons]
    by_cases up : part = ['.', '.']
    · cases shape : below with
      | nil =>
        rw [enter, if_pos up]
        exact foldl_enter_left rest (by simp)
      | cons first more =>
        rw [shape] at climbs
        simp only [depth, up, if_true, List.length_cons] at climbs
        have shorter : (first :: more).dropLast.length = more.length := by simp
        have entered : enter (c :: first :: more) part = c :: (first :: more).dropLast := by
          rw [enter, if_pos up, List.dropLast_cons_of_ne_nil (by simp)]
        rw [entered]
        exact ih rest (shorter ▸ climbs)
    · simp only [depth, up, if_false] at climbs
      have entered : enter (c :: below) part = c :: (below ++ [part]) := by
        rw [enter, if_neg up, List.cons_append]
      rw [entered]
      exact ih rest (by simpa using climbs)

theorem length_le_of_mem_splitOn {sep : Char} (member : part ∈ path.splitOn sep) :
    part.length ≤ path.length := by
  induction path generalizing part with
  | nil => simp_all
  | cons c path ih =>
    rw [List.splitOn_cons_eq_if_modifyHead] at member
    split at member
    · rcases List.mem_cons.mp member with rfl | member
      · simp
      · exact (ih member).trans (Nat.le_succ _)
    · cases split : path.splitOn sep with
      | nil => exact absurd split (List.splitOn_ne_nil _ _)
      | cons first more =>
        rw [split] at ih
        simp only [split, List.modifyHead_cons, List.mem_cons] at member
        rcases member with rfl | member
        · simpa using @ih first (by simp)
        · exact (ih (List.mem_cons_of_mem _ member)).trans (Nat.le_succ _)

/-- There is a name that is no component of a path. -/
theorem exists_foreign (path : Text) : ∃ c, c ∉ components path := by
  refine ⟨'x' :: path, fun member => ?_⟩
  have short := length_le_of_mem_splitOn (List.mem_filter.mp member).1
  rw [List.length_cons] at short
  omega

/-- A name joined to a relative directory lies below it, wherever the process works, if
and only if it is relative, never leads above the directory, and ends below it. -/
theorem inside_join_iff (here : ∀ cwd, resolve cwd base = cwd) (nonempty : base ≠ []) :
    (∀ cwd, Inside cwd base (join base name)) ↔ descends name := by
  by_cases absolute : isAbsolute name
  · simp only [descends, absolute, Bool.not_true, Bool.false_and, Bool.false_eq_true, iff_false]
    -- An absolute path cannot lie below every directory, one below it among them.
    intro inside
    obtain ⟨front, -⟩ := inside ((components name).foldl enter [] ++ [['x']])
    rw [here, resolve_absolute absolute] at front
    have short := front.length_le
    rw [List.length_append, List.length_singleton] at short
    omega
  · have resolved : ∀ cwd, resolve cwd (join base name) = (components name).foldl enter cwd := by
      intro cwd
      rw [resolve_join absolute nonempty, here]
    cases stays : depth 0 (components name) with
    | none =>
      simp only [descends, stays, Option.any_none, Bool.and_false, Bool.false_eq_true, iff_false]
      intro inside
      obtain ⟨c, foreign⟩ := exists_foreign name
      have front := (inside [c]).1
      rw [here, resolved] at front
      exact foldl_enter_of_climb foreign (show depth (List.length []) _ = none from stays) front
    | some d =>
      have below : ∀ cwd, ∃ rest, resolve cwd (join base name) = cwd ++ rest ∧ rest.length = d := by
        intro cwd
        rw [resolved]
        simpa using foldl_enter_of_depth cwd [] stays
      have deep : descends name ↔ 0 < d := by simp [descends, absolute, stays]
      rw [deep]
      constructor
      · intro inside
        obtain ⟨rest, ends, length⟩ := below []
        have distinct := (inside []).2
        rw [here, ends, List.nil_append] at distinct
        rw [← length]
        exact List.length_pos_iff.mpr distinct.symm
      · intro positive cwd
        obtain ⟨rest, ends, length⟩ := below cwd
        refine ⟨?_, fun same => ?_⟩
        · rw [here, ends]
          exact List.prefix_append cwd rest
        · rw [here, ends] at same
          have none : rest = [] := List.self_eq_append_right.mp same
          rw [← length, none] at positive
          exact absurd positive (lt_irrefl 0)

end Path

end RndRust.Lib
