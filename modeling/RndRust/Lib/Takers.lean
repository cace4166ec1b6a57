import Mathlib.Data.List.Basic
import Mathlib.Data.Nat.Notation

/-! Reading a stream from its front. What a reader returns depends on what it has taken and on nothing that
follows, so it never takes the beginning of a stream for the whole of it. -/
namespace RndRust.Lib

/-- Takes a value off the front of a stream, or fails; it does not see what follows what it takes. -/
structure Taker (β ε α : Type*) where
  take : List β → Except ε (α × List β)
  blind : ∀ input a rest, take input = .ok (a, rest) →
    ∃ taken, input = taken ++ rest ∧ ∀ more, take (taken ++ more) = .ok (a, more)

namespace Taker

variable {β ε α γ : Type*} {r : Taker β ε α} {input rest : List β} {a : α} {e : ε}

/-- Take nothing. -/
def pure (a : α) : Taker β ε α where
  take input := .ok (a, input)
  blind := by
    rintro input _ rest ⟨⟩
    exact ⟨[], rfl, fun _ => rfl⟩

def fail (e : ε) : Taker β ε α where
  take _ := .error e
  blind := by
    rintro input a rest ⟨⟩

/-- Take a value, and then what it says. -/
def bind (r : Taker β ε α) (next : α → Taker β ε γ) : Taker β ε γ where
  take input := match r.take input with
    | .error e => .error e
    | .ok (a, rest) => (next a).take rest
  blind := by
    intro input c rest took
    split at took
    · cases took
    · rename_i a between first
      obtain ⟨taken, rfl, same⟩ := r.blind _ _ _ first
      obtain ⟨more, rfl, again⟩ := (next a).blind _ _ _ took
      refine ⟨taken ++ more, (List.append_assoc ..).symm, fun after => ?_⟩
      rw [List.append_assoc, same]
      exact again after

/-- `read_exact`: take so many elements. -/
def exactly (n : ℕ) (e : ε) : Taker β ε (List β) where
  take input := if n ≤ input.length then .ok (input.take n, input.drop n) else .error e
  blind := by
    intro input a rest took
    split at took
    · rename_i enough
      cases took
      refine ⟨input.take n, (List.take_append_drop n input).symm, fun more => ?_⟩
      have length : (input.take n).length = n := List.length_take_of_le enough
      rw [if_pos (by rw [List.length_append]; omega), List.take_left' length, List.drop_left' length]
    · cases took

@[simp] theorem take_pure : (pure a : Taker β ε α).take input = .ok (a, input) := rfl

theorem take_bind {next : α → Taker β ε γ} (took : r.take input = .ok (a, rest)) :
    (r.bind next).take input = (next a).take rest := by
  simp only [bind, took]

theorem take_exactly {taken : List β} {n : ℕ} (length : taken.length = n) :
    (exactly n e : Taker β ε (List β)).take (taken ++ rest) = .ok (taken, rest) := by
  subst length
  simp [exactly]

theorem bind_ok {next : α → Taker β ε γ} {c : γ} (took : (r.bind next).take input = .ok (c, rest)) :
    ∃ a between, r.take input = .ok (a, between) ∧ (next a).take between = .ok (c, rest) := by
  simp only [bind] at took
  split at took
  · cases took
  · rename_i a between first
    exact ⟨a, between, first, took⟩

theorem exactly_ok {taken : List β} {n : ℕ} (took : (exactly n e : Taker β ε (List β)).take input = .ok (taken, rest)) :
    taken.length = n ∧ input = taken ++ rest := by
  simp only [exactly] at took
  split at took
  · rename_i enough
    cases took
    exact ⟨List.length_take_of_le enough, (List.take_append_drop n input).symm⟩
  · cases took

/-- What is left is no longer. -/
theorem rest_le (took : r.take input = .ok (a, rest)) : rest.length ≤ input.length := by
  obtain ⟨taken, rfl, -⟩ := r.blind _ _ _ took
  simp

/-- A stream that is read to its end cannot be read when it is cut off. -/
theorem take_torn {whole start : List β} (took : r.take whole = .ok (a, [])) (cut : start <+: whole)
    (short : start ≠ whole) : ∃ e, r.take start = .error e := by
  obtain ⟨lost, rfl⟩ := cut
  match read : r.take start with
  | .error e => exact ⟨e, rfl⟩
  | .ok (b, rest) =>
    obtain ⟨taken, rfl, same⟩ := r.blind _ _ _ read
    rw [List.append_assoc, same] at took
    simp only [Except.ok.injEq, Prod.mk.injEq, List.append_eq_nil_iff] at took
    exact absurd (by simp [took.2.2]) short

/-- Whether the reader takes something off whenever it says that there is more. -/
def Takes (item : Taker β ε (Option α)) : Prop :=
  ∀ input a rest, item.take input = .ok (some a, rest) → rest.length < input.length

/-- Take items until there are no more. -/
def takeAll (item : Taker β ε (Option α)) (takes : item.Takes) (input : List β) : Except ε (List α × List β) :=
  match _took : item.take input with
  | .error e => .error e
  | .ok (none, rest) => .ok ([], rest)
  | .ok (some a, rest) =>
    match item.takeAll takes rest with
    | .error e => .error e
    | .ok (items, rest) => .ok (a :: items, rest)
termination_by input.length
decreasing_by exact takes _ _ _ ‹_›

section All

variable {item : Taker β ε (Option α)} {takes : item.Takes} {items : List α}

theorem takeAll_nil (took : item.take input = .ok (none, rest)) : item.takeAll takes input = .ok ([], rest) := by
  rw [takeAll]
  split <;> simp_all

theorem takeAll_cons {between : List β} (took : item.take input = .ok (some a, between))
    (more : item.takeAll takes between = .ok (items, rest)) : item.takeAll takes input = .ok (a :: items, rest) := by
  rw [takeAll]
  split <;> simp_all

theorem takeAll_blind (took : item.takeAll takes input = .ok (items, rest)) :
    ∃ taken, input = taken ++ rest ∧ ∀ more, item.takeAll takes (taken ++ more) = .ok (items, more) := by
  fun_induction takeAll item takes input generalizing items rest with
  | case1 input e took' => cases took
  | case2 input between first =>
    cases took
    obtain ⟨taken, rfl, same⟩ := item.blind _ _ _ first
    exact ⟨taken, rfl, fun more => takeAll_nil (same more)⟩
  | case3 input a between first e failed ih => cases took
  | case4 input a between first others after later ih =>
    cases took
    obtain ⟨taken, rfl, same⟩ := item.blind _ _ _ first
    obtain ⟨more, rfl, again⟩ := ih later
    refine ⟨taken ++ more, (List.append_assoc ..).symm, fun after => ?_⟩
    rw [List.append_assoc]
    exact takeAll_cons (same _) (again after)

end All

/-- Read items until there are no more. -/
def all (item : Taker β ε (Option α)) (takes : item.Takes) : Taker β ε (List α) where
  take := item.takeAll takes
  blind _ _ _ := takeAll_blind

end Taker

end RndRust.Lib
