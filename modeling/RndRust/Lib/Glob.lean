import Mathlib.Data.List.Infix
import Mathlib.Data.List.Count

/-! Patterns with stars. A text matches when it is had from the pattern by writing any string
for each star; where a star stands at one end only, that is a comparison of prefixes or of
suffixes. -/
namespace RndRust.Lib

variable {α β : Type*} {star : α} {p q t u : List α}

/-- The text is the pattern with a string for each star. -/
inductive Globs (star : α) : List α → List α → Prop
  | nil : Globs star [] []
  | char {a : α} {p t : List α} : a ≠ star → Globs star p t → Globs star (a :: p) (a :: t)
  | any {p t : List α} (written : List α) : Globs star p t → Globs star (star :: p) (written ++ t)

theorem Globs.append (left : Globs star p t) (right : Globs star q u) : Globs star (p ++ q) (t ++ u) := by
  induction left with
  | nil => exact right
  | char plain _ ih => exact .char plain ih
  | any written _ ih =>
    rw [List.cons_append, List.append_assoc]
    exact .any written ih

variable (p) in
theorem Globs.refl : Globs star p p := by
  induction p with
  | nil => exact .nil
  | cons a p ih =>
    by_cases plain : a = star
    · subst plain
      exact .any [a] ih
    · exact .char plain ih

/-- What is no star has to be in the text. -/
theorem Globs.mem {a : α} (globs : Globs star p t) (listed : a ∈ p) (plain : a ≠ star) : a ∈ t := by
  induction globs with
  | nil => exact listed
  | char _ _ ih => exact (List.mem_cons.mp listed).elim (fun same => same ▸ List.mem_cons_self) fun later => .tail _ (ih later)
  | any written _ ih => exact List.mem_append_right written (ih ((List.mem_cons.mp listed).resolve_left plain))

/-- Where the pattern is cut, the text can be cut too. -/
theorem globs_append_iff : Globs star (p ++ q) t ↔ ∃ a b, a ++ b = t ∧ Globs star p a ∧ Globs star q b := by
  refine ⟨fun globs => ?_, ?_⟩
  · induction p generalizing t with
    | nil => exact ⟨[], t, rfl, .nil, globs⟩
    | cons c p ih =>
      cases globs with
      | char plain rest =>
        obtain ⟨a, b, rfl, left, right⟩ := ih rest
        exact ⟨c :: a, b, rfl, .char plain left, right⟩
      | any written rest =>
        obtain ⟨a, b, rfl, left, right⟩ := ih rest
        exact ⟨written ++ a, b, List.append_assoc written a b, .any written left, right⟩
  · rintro ⟨a, b, rfl, left, right⟩
    exact left.append right

theorem globs_star_iff : Globs star [star] t := by
  simpa using Globs.any t Globs.nil

/-- Without a star only the text itself matches. -/
theorem globs_plain_iff (plain : star ∉ p) : Globs star p t ↔ p = t := by
  refine ⟨fun globs => ?_, fun same => same ▸ .refl p⟩
  induction globs with
  | nil => rfl
  | char _ _ ih => rw [ih fun inside => plain (List.mem_cons_of_mem _ inside)]
  | any => exact (plain List.mem_cons_self).elim

theorem globs_prefix_iff (plain : star ∉ p) : Globs star (p ++ [star]) t ↔ p <+: t := by
  rw [globs_append_iff]
  constructor
  · rintro ⟨a, b, rfl, left, -⟩
    exact (globs_plain_iff plain).mp left ▸ List.prefix_append a b
  · rintro ⟨b, rfl⟩
    exact ⟨p, b, rfl, .refl p, globs_star_iff⟩

theorem globs_suffix_iff (plain : star ∉ p) : Globs star (star :: p) t ↔ p <:+ t := by
  rw [← List.singleton_append, globs_append_iff]
  constructor
  · rintro ⟨a, b, rfl, -, right⟩
    exact (globs_plain_iff plain).mp right ▸ List.suffix_append a b
  · rintro ⟨a, rfl⟩
    exact ⟨a, p, rfl, globs_star_iff, .refl p⟩

/-- The pattern without its stars matches it. -/
theorem Globs.bare [DecidableEq α] (p : List α) : Globs star p (p.filter (· ≠ star)) := by
  induction p with
  | nil => exact .nil
  | cons a p ih =>
    by_cases plain : a = star
    · subst plain
      simpa using Globs.any [] ih
    · simpa [plain] using Globs.char plain ih

/-- A pattern with no star, or with one, at its start or at its end. -/
def StarAtOneEnd (star : α) (p : List α) : Prop := star ∉ p ∨ ∃ q, star ∉ q ∧ (p = star :: q ∨ p = q ++ [star])

theorem StarAtOneEnd.count_le [BEq α] [LawfulBEq α] (one : StarAtOneEnd star p) : p.count star ≤ 1 := by
  rcases one with plain | ⟨q, plain, rfl | rfl⟩
  · simp [List.count_eq_zero_of_not_mem plain]
  all_goals simp [List.count_eq_zero_of_not_mem plain]

theorem starAtOneEnd_map {f : α → β} {mark : β} (marks : ∀ a, f a = mark ↔ a = star) :
    StarAtOneEnd mark (p.map f) ↔ StarAtOneEnd star p := by
  have inside (q : List α) : mark ∈ q.map f ↔ star ∈ q := by simp [marks]
  have marked : f star = mark := (marks star).mpr rfl
  refine or_congr (not_congr (inside p)) ⟨?_, ?_⟩
  · rintro ⟨q, plain, first | last⟩
    · obtain ⟨a, rest, rfl, mark, rfl⟩ := List.map_eq_cons_iff.mp first
      exact ⟨rest, fun star => plain ((inside rest).mpr star), .inl (by rw [(marks a).mp mark])⟩
    · obtain ⟨rest, ending, rfl, rfl, single⟩ := List.map_eq_append_iff.mp last
      obtain ⟨a, rfl, mark⟩ := List.map_eq_singleton_iff.mp single
      exact ⟨rest, fun star => plain ((inside rest).mpr star), .inr (by rw [(marks a).mp mark])⟩
  · rintro ⟨q, plain, rfl | rfl⟩
    · exact ⟨q.map f, fun star => plain ((inside q).mp star), .inl (by simp [marked])⟩
    · exact ⟨q.map f, fun star => plain ((inside q).mp star), .inr (by simp [marked])⟩

end RndRust.Lib
