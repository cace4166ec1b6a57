import Mathlib.Algebra.Ring.Nat
import Mathlib.Data.List.Lex
import Mathlib.Data.Nat.Find
import Mathlib.Order.Basic
import Mathlib.Order.Lattice

/-! Numbers written with a fixed number of digits over an ordered alphabet. Texts of one width are
ordered like the numbers, also within a longer text; and digits that end with a lesser letter are
ordered as if the zeros behind them had been written. -/
namespace RndRust.Lib

section Texts

variable {α : Type*} [LinearOrder α] {s t rest rest' : List α} {zero stop : α} {i j : ℕ}

/-- Texts of one length decide before anything behind them. -/
theorem append_lt_append (same : s.length = t.length) (less : s < t) : s ++ rest < t ++ rest' := by
  induction s generalizing t with
  | nil =>
    obtain rfl := List.eq_nil_of_length_eq_zero same.symm
    exact absurd less (lt_irrefl _)
  | cons a s ih =>
    obtain ⟨b, t, rfl⟩ := List.exists_cons_of_length_eq_add_one same.symm
    rw [List.cons_append, List.cons_append, List.cons_lt_cons_iff]
    rcases List.cons_lt_cons_iff.mp less with first | ⟨rfl, later⟩
    · exact .inl first
    · exact .inr ⟨rfl, ih (by simpa using same) later⟩

/-- Nothing of one length is less than zeros. -/
theorem not_lt_zeros (digits : ∀ c ∈ s, zero ≤ c) (same : s.length = j) : ¬ s < List.replicate j zero := by
  induction s generalizing j with
  | nil =>
    subst same
    exact lt_irrefl _
  | cons c s ih =>
    subst same
    obtain ⟨least, digits⟩ := List.forall_mem_cons.mp digits
    rw [List.length_cons, List.replicate_succ, List.cons_lt_cons_iff]
    rintro (less | ⟨-, less⟩)
    · exact absurd less least.not_gt
    · exact ih digits rfl less

/-- Digits that a lesser letter ends are ordered as they are with the zeros that make them equally long. -/
theorem ended_lt (ends : stop < zero) (digits : ∀ c ∈ s, zero ≤ c) (digits' : ∀ c ∈ t, zero ≤ c)
    (same : (s ++ List.replicate i zero).length = (t ++ List.replicate j zero).length)
    (less : s ++ List.replicate i zero < t ++ List.replicate j zero) : s ++ stop :: rest < t ++ stop :: rest' := by
  induction s generalizing t with
  | nil =>
    cases t with
    | nil =>
      obtain rfl : i = j := by simpa using same
      exact absurd less (lt_irrefl _)
    | cons c t =>
      exact List.cons_lt_cons_iff.mpr (.inl (lt_of_lt_of_le ends (digits' c List.mem_cons_self)))
  | cons b s ih =>
    cases t with
    | nil =>
      refine absurd less (not_lt_zeros ?_ (by simpa using same))
      intro c listed
      rcases List.mem_append.mp listed with digit | zeros
      · exact digits c digit
      · exact (List.eq_of_mem_replicate zeros).ge
    | cons c t =>
      have left := (List.forall_mem_cons.mp digits).2
      have left' := (List.forall_mem_cons.mp digits').2
      rw [List.cons_append, List.cons_append, List.cons_lt_cons_iff] at less ⊢
      rcases less with first | ⟨rfl, later⟩
      · exact .inl first
      · exact .inr ⟨rfl, ih left left' (by simpa using same) later⟩

end Texts

/-- Digits, in their order. -/
structure Numerals (α : Type*) [LT α] (base : ℕ) where
  digit : ℕ → α
  digit_lt : ∀ m n, m < n → n < base → digit m < digit n
  base_pos : 0 < base

namespace Numerals

variable {α : Type*} [LinearOrder α] {base w m n : ℕ} (N : Numerals α base)

/-- The last `w` digits of `n`, the highest first. -/
def padded : ℕ → ℕ → List α
  | 0, _ => []
  | w + 1, n => N.digit (n / base ^ w) :: padded w (n % base ^ w)

@[simp] theorem length_padded : (N.padded w n).length = w := by
  induction w generalizing n with
  | zero => rfl
  | succ w ih => rw [padded, List.length_cons, ih]

theorem digit_le (le : m ≤ n) (short : n < base) : N.digit m ≤ N.digit n := by
  rcases le.lt_or_eq with less | rfl
  · exact (N.digit_lt m n less short).le
  · exact le_rfl

include N in
theorem pow_pos : 0 < base ^ w := Nat.pow_pos N.base_pos

omit [LinearOrder α] N in
theorem high_lt (short : n < base ^ (w + 1)) : n / base ^ w < base :=
  Nat.div_lt_of_lt_mul (by rwa [Nat.pow_succ] at short)

/-- The lesser number has the lesser text. -/
theorem padded_lt (less : m < n) (short : n < base ^ w) : N.padded w m < N.padded w n := by
  induction w generalizing m n with
  | zero => exact absurd short (by simpa using Nat.ne_zero_of_lt less)
  | succ w ih =>
    rw [padded, padded, List.cons_lt_cons_iff]
    rcases (Nat.div_le_div_right less.le).lt_or_eq with higher | same
    · exact .inl (N.digit_lt _ _ higher (high_lt short))
    · have parts := Nat.div_add_mod m (base ^ w)
      have parts' := Nat.div_add_mod n (base ^ w)
      rw [same] at parts ⊢
      exact .inr ⟨rfl, ih (by omega) (Nat.mod_lt n N.pow_pos)⟩

theorem le_of_mem_padded {c : α} (short : n < base ^ w) (listed : c ∈ N.padded w n) : N.digit 0 ≤ c := by
  induction w generalizing n with
  | zero => cases listed
  | succ w ih =>
    rcases List.mem_cons.mp listed with rfl | rest
    · exact N.digit_le (Nat.zero_le _) (high_lt short)
    · exact ih (Nat.mod_lt n N.pow_pos) rest

theorem padded_zero : N.padded w 0 = List.replicate w (N.digit 0) := by
  induction w with
  | zero => rfl
  | succ w ih => rw [padded, Nat.zero_div, Nat.zero_mod, ih, List.replicate_succ]

/-- A multiple of a power ends with zeros. -/
theorem padded_mul {k : ℕ} (short : n < base ^ w) :
    N.padded (w + k) (n * base ^ k) = N.padded w n ++ List.replicate k (N.digit 0) := by
  induction w generalizing n with
  | zero =>
    obtain rfl : n = 0 := by simpa using short
    rw [Nat.zero_mul, Nat.zero_add, padded_zero, padded, List.nil_append]
  | succ w ih =>
    rw [Nat.add_right_comm, padded, padded, List.cons_append, ← ih (Nat.mod_lt n N.pow_pos), Nat.pow_add,
      Nat.mul_mod_mul_right, Nat.mul_div_mul_right _ _ N.pow_pos]

/-- The last digit is what is left behind the others. -/
theorem padded_concat (short : n < base ^ (w + 1)) :
    N.padded (w + 1) n = N.padded w (n / base) ++ [N.digit (n % base)] := by
  induction w generalizing n with
  | zero =>
    have one : n < base := by simpa using short
    simp [padded, Nat.mod_eq_of_lt one]
  | succ w ih =>
    rw [padded, ih (Nat.mod_lt n N.pow_pos), padded, List.cons_append, Nat.pow_succ, Nat.mod_mul_left_mod,
      Nat.mul_comm, Nat.mod_mul_right_div_self, ← Nat.div_div_eq_div_mul]

/-- A field of fixed width decides first, and what comes behind it next. -/
theorem field_lt {rest rest' : List α} (short : n < base ^ w) (less : m < n ∨ m = n ∧ rest < rest') :
    N.padded w m ++ rest < N.padded w n ++ rest' := by
  rcases less with less | ⟨rfl, less⟩
  · exact append_lt_append (by simp) (N.padded_lt less short)
  · exact List.append_left_lt less

/-- A field with a mark that ends it. -/
theorem marked_lt {rest rest' : List α} {mark : α} (short : n < base ^ w) (less : m < n ∨ m = n ∧ rest < rest') :
    N.padded w m ++ mark :: rest < N.padded w n ++ mark :: rest' :=
  N.field_lt short (less.imp_right (And.imp_right fun less => List.cons_lt_cons_iff.mpr (.inr ⟨rfl, less⟩)))

section Reading

variable [DecidableEq α]

/-- The number of a digit. -/
def valueOf (c : α) : Option ℕ := (List.range base).find? fun n => N.digit n = c

/-- The number that the first `w` letters are the digits of, and what comes behind them. -/
def read : ℕ → List α → Option (ℕ × List α)
  | 0, text => some (0, text)
  | w + 1, c :: text =>
    (N.valueOf c).bind fun high => (read w text).map fun (low, rest) => (high * base ^ w + low, rest)
  | _ + 1, [] => none

theorem valueOf_digit (short : n < base) : N.valueOf (N.digit n) = some n := by
  unfold valueOf
  rw [List.find?_range_eq_some]
  refine ⟨by simp, List.mem_range.mpr short, fun m less => ?_⟩
  simpa using (N.digit_lt m n less short).ne

/-- **What is written is read back**, whatever follows. -/
theorem read_padded {rest : List α} (short : n < base ^ w) : N.read w (N.padded w n ++ rest) = some (n, rest) := by
  induction w generalizing n with
  | zero =>
    obtain rfl : n = 0 := by simpa using short
    rfl
  | succ w ih =>
    rw [padded, List.cons_append, read, N.valueOf_digit (high_lt short), Option.bind_some, ih (Nat.mod_lt n N.pow_pos),
      Option.map_some]
    dsimp only
    rw [Nat.mul_comm, Nat.div_add_mod]

end Reading

end Numerals

end RndRust.Lib
