import Mathlib.Data.Nat.Notation

/-! A counter that does not fall below zero, and what is left of it when the changes that are
due to it are made in another order. -/
namespace RndRust.Lib

inductive Change where
  | rise
  | fall
  deriving DecidableEq, Repr

def Change.apply (n : ℕ) : Change → ℕ
  | .rise => n + 1
  | .fall => n - 1

/-- Where the counter ends when the changes are made one after the other. -/
def settle (n : ℕ) (due : List Change) : ℕ := due.foldl Change.apply n

variable {m n : ℕ} {due before after : List Change}

@[simp] theorem settle_nil : settle n [] = n := rfl

@[simp] theorem settle_rise : settle n (.rise :: due) = settle (n + 1) due := rfl

@[simp] theorem settle_fall : settle n (.fall :: due) = settle (n - 1) due := rfl

@[simp] theorem settle_append : settle n (before ++ after) = settle (settle n before) after :=
  List.foldl_append

theorem settle_mono (le : m ≤ n) : settle m due ≤ settle n due := by
  induction due generalizing m n with
  | nil => exact le
  | cons change due ih =>
    cases change with
    | rise =>
      rw [settle_rise, settle_rise]
      apply ih
      omega
    | fall =>
      rw [settle_fall, settle_fall]
      apply ih
      omega

theorem settle_succ_le : settle (n + 1) due ≤ settle n due + 1 := by
  induction due generalizing n with
  | nil => exact Nat.le_refl _
  | cons change due ih =>
    cases change with
    | rise => exact ih
    | fall =>
      rw [settle_fall, settle_fall]
      cases n with
      | zero => exact Nat.le_succ _
      | succ n => exact ih

/-- Falls alone take away what there is of them. -/
theorem settle_falls (falls : .rise ∉ due) : settle n due = n - due.length := by
  induction due generalizing n with
  | nil => rfl
  | cons change due ih =>
    obtain ⟨this, rest⟩ := List.ne_and_not_mem_of_not_mem_cons falls
    cases change with
    | rise => exact absurd rfl this
    | fall =>
      rw [settle_fall, ih rest, List.length_cons]
      omega

/-- A rise ahead of its turn leaves no more. -/
theorem settle_early_rise : settle (n + 1) (before ++ after) ≤ settle n (before ++ .rise :: after) := by
  rw [settle_append, settle_append, settle_rise]
  apply settle_mono
  apply settle_succ_le

/-- So does a fall that is ahead of falls only. -/
theorem settle_early_fall (falls : .rise ∉ before) :
    settle (n - 1) (before ++ after) = settle n (before ++ .fall :: after) := by
  rw [settle_append, settle_append, settle_fall, settle_falls falls, settle_falls falls]
  congr 1
  omega

/-- A fall that would have found nothing may be made at any time, also without an effect. -/
theorem settle_idle_fall (le : m ≤ n) (idle : settle n before = 0) :
    settle m (before ++ after) ≤ settle n (before ++ .fall :: after) := by
  rw [settle_append, settle_append, settle_fall, idle]
  apply settle_mono
  have before_le : settle m before ≤ settle n before := settle_mono le
  omega

end RndRust.Lib
