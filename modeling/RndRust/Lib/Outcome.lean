import Mathlib.Tactic.Common
import Mathlib.Order.Basic

/-! Sequencing of fallible computations. A parser written with early returns is a
chain of binds in `Except`; these rules take such a chain apart one step at a
time, so that no proof unfolds the monad. -/
namespace RndRust.Lib

variable {ε α β : Type} {x : Except ε α} {f : α → Except ε β} {a : α} {b : β} {e : ε}

@[simp] theorem ok_bind : ((Except.ok a : Except ε α) >>= f) = f a := rfl

@[simp] theorem error_bind : ((Except.error e : Except ε α) >>= f) = .error e := rfl

/-- A sequence succeeds exactly when both of its parts do. -/
theorem bind_eq_ok : (x >>= f) = .ok b ↔ ∃ a, x = .ok a ∧ f a = .ok b := by
  cases x with
  | error e => simp
  | ok a => simp

theorem toOption_eq_some : x.toOption = some a ↔ x = .ok a := by
  cases x <;> simp [Except.toOption]

/-- A loop that succeeds has succeeded at every element. -/
theorem forall₂_of_mapM {as : List α} {bs : List β} (mapped : as.mapM f = .ok bs) :
    List.Forall₂ (fun a b => f a = .ok b) as bs := by
  induction as generalizing bs with
  | nil =>
    obtain rfl := Except.ok.inj mapped
    exact .nil
  | cons a as ih =>
    rw [List.mapM_cons] at mapped
    obtain ⟨b, first, mapped⟩ := bind_eq_ok.mp mapped
    obtain ⟨rest, others, mapped⟩ := bind_eq_ok.mp mapped
    obtain rfl := Except.ok.inj mapped
    exact .cons first (ih others)

theorem mapM_eq_ok {as : List α} {g : α → β} (each : ∀ a ∈ as, f a = .ok (g a)) : as.mapM f = .ok (as.map g) := by
  induction as with
  | nil => rfl
  | cons a as ih =>
    obtain ⟨first, rest⟩ := List.forall_mem_cons.mp each
    rw [List.mapM_cons, first, ok_bind, ih rest]
    rfl

/-- What stands on the right comes from somewhere on the left. -/
theorem exists_of_forall₂ {R : α → β → Prop} {as : List α} {bs : List β} (related : List.Forall₂ R as bs)
    (member : b ∈ bs) : ∃ a ∈ as, R a b := by
  induction related with
  | nil => cases member
  | cons first _ ih =>
    rcases List.mem_cons.mp member with rfl | member
    · exact ⟨_, List.mem_cons_self, first⟩
    · obtain ⟨a, listed, other⟩ := ih member
      exact ⟨a, List.mem_cons_of_mem _ listed, other⟩

end RndRust.Lib
