import Mathlib.Algebra.Order.BigOperators.Group.Finset
import Mathlib.Algebra.Order.Group.Defs
import Mathlib.Data.Finset.Max

/-! Units shared out over concave returns: where each next unit goes to whoever gains most by it, no other
way to share them out returns more. -/
namespace RndRust.Lib

/-- What a number of units returns, as far as there is room for them: never less for one unit more, and
each unit adds at most what the one before it did. -/
structure Returns (ι M : Type*) [AddCommGroup M] [LinearOrder M] where
  value : ι → ℕ → M
  room : ι → ℕ → Prop
  room_zero : ∀ i, room i 0
  room_of_succ : ∀ {i k}, room i (k + 1) → room i k
  rising : ∀ {i k}, room i (k + 1) → value i k ≤ value i (k + 1)
  concave : ∀ {i k}, room i (k + 2) → value i (k + 2) - value i (k + 1) ≤ value i (k + 1) - value i k

namespace Returns

variable {ι M : Type*} [AddCommGroup M] [LinearOrder M] {r : Returns ι M} {a b : ι → ℕ} {i w : ι}
  {j k n : ℕ} {price : M}

/-- What one unit more adds. -/
def gain (r : Returns ι M) (i : ι) (k : ℕ) : M := r.value i (k + 1) - r.value i k

theorem room_of_le (le : j ≤ k) (room : r.room i k) : r.room i j := by
  induction le with
  | refl => exact room
  | step _ ih => exact ih (r.room_of_succ room)

theorem value_le (le : j ≤ k) (room : r.room i k) : r.value i j ≤ r.value i k := by
  induction le with
  | refl => exact le_rfl
  | step _ ih => exact (ih (r.room_of_succ room)).trans (r.rising room)

theorem gain_le (le : j ≤ k) (room : r.room i (k + 1)) : r.gain i k ≤ r.gain i j := by
  induction le with
  | refl => exact le_rfl
  | step _ ih => exact (r.concave room).trans (ih (r.room_of_succ room))

/-- Every unit that has been given out gains at least what any next one would. -/
structure Balanced (r : Returns ι M) (a : ι → ℕ) : Prop where
  within : ∀ i, r.room i (a i)
  ordered : ∀ {i j k}, a i = k + 1 → r.room j (a j + 1) → r.gain j (a j) ≤ r.gain i k

theorem Balanced.zero : r.Balanced fun _ => 0 := ⟨r.room_zero, fun given => by cases given⟩

/-- A unit goes to whoever gains most by it. -/
theorem Balanced.give [DecidableEq ι] (balanced : r.Balanced a) (room : r.room w (a w + 1))
    (most : ∀ j, r.room j (a j + 1) → r.gain j (a j) ≤ r.gain w (a w)) :
    r.Balanced (Function.update a w (a w + 1)) := by
  refine ⟨fun i => ?_, ?_⟩
  · by_cases here : i = w
    · subst here
      simpa using room
    · rw [Function.update_of_ne here]
      exact balanced.within i
  · intro i j k given next
    -- The next unit of the one who got this is worth no more than this one.
    have offered : r.gain j (Function.update a w (a w + 1) j) ≤ r.gain w (a w) := by
      by_cases there : j = w
      · subst there
        rw [Function.update_self] at next ⊢
        exact r.concave next
      · rw [Function.update_of_ne there] at next ⊢
        exact most j next
    by_cases here : i = w
    · subst here
      rw [Function.update_self] at given
      cases given
      exact offered
    · rw [Function.update_of_ne here] at given
      exact offered.trans (balanced.ordered given room)

variable [IsOrderedAddMonoid M]

theorem value_le_add (room : r.room i (k + n)) (dear : r.room i (k + 1) → r.gain i k ≤ price) :
    r.value i (k + n) ≤ r.value i k + n • price := by
  induction n with
  | zero => simp
  | succ n ih =>
    have before := ih (r.room_of_succ room)
    have last : r.gain i (k + n) ≤ price :=
      (r.gain_le (Nat.le_add_right k n) room).trans (dear (r.room_of_le (by omega) room))
    have sum : r.value i (k + (n + 1)) = r.value i (k + n) + r.gain i (k + n) := (add_sub_cancel _ _).symm
    rw [sum, succ_nsmul, ← add_assoc]
    exact add_le_add before last

theorem add_le_value (room : r.room i (k + n)) (cheap : ∀ m, k + n = m + 1 → price ≤ r.gain i m) :
    r.value i k + n • price ≤ r.value i (k + n) := by
  induction n with
  | zero => simp
  | succ n ih =>
    have last : price ≤ r.gain i (k + n) := cheap _ rfl
    have before := ih (r.room_of_succ room) fun m same =>
      last.trans (r.gain_le (by omega) room)
    have sum : r.value i (k + (n + 1)) = r.value i (k + n) + r.gain i (k + n) := (add_sub_cancel _ _).symm
    rw [sum, succ_nsmul, ← add_assoc]
    exact add_le_add before last

/-- At a price between the units given out and the next ones, nobody does better with another number. -/
theorem value_at_price (roomA : r.room i (a i)) (roomB : r.room i (b i))
    (cheap : ∀ m, a i = m + 1 → price ≤ r.gain i m) (dear : r.room i (a i + 1) → r.gain i (a i) ≤ price) :
    r.value i (b i) + a i • price ≤ r.value i (a i) + b i • price := by
  rcases le_total (a i) (b i) with more | fewer
  · obtain ⟨n, same⟩ := Nat.exists_eq_add_of_le more
    rw [same] at roomB ⊢
    rw [add_nsmul, add_comm (a i • price), ← add_assoc]
    exact add_le_add_left (r.value_le_add roomB dear) _
  · obtain ⟨n, same⟩ := Nat.exists_eq_add_of_le fewer
    rw [same] at roomA cheap ⊢
    rw [add_nsmul, add_comm (b i • price), ← add_assoc]
    exact add_le_add_left (r.add_le_value roomA cheap) _

variable [Fintype ι]

/-- **Greedy sharing is optimal** on concave returns. -/
theorem Balanced.optimal (balanced : r.Balanced a) (within : ∀ i, r.room i (b i)) (few : ∑ i, b i ≤ ∑ i, a i) :
    ∑ i, r.value i (b i) ≤ ∑ i, r.value i (a i) := by
  rcases (Finset.univ.filter fun i => 0 < a i).eq_empty_or_nonempty with nobody | somebody
  · have none : ∀ i, a i = 0 := by simpa [Finset.filter_eq_empty_iff] using nobody
    have none' : ∀ i, b i = 0 := by simpa [none] using few
    simp [none, none']
  · obtain ⟨w, member, least⟩ := Finset.exists_min_image _ (fun i => r.gain i (a i - 1)) somebody
    have given : 0 < a w := by simpa using member
    -- The price is what the least of the units that were given out gained.
    let price := r.gain w (a w - 1)
    have cheap : ∀ i m, a i = m + 1 → price ≤ r.gain i m := fun i m same => by
      simpa [same] using least i (by simp [same])
    have dear : ∀ i, r.room i (a i + 1) → r.gain i (a i) ≤ price := fun i room =>
      balanced.ordered (Nat.sub_add_cancel given).symm room
    have free : 0 ≤ price := by
      refine sub_nonneg.mpr (r.rising ?_)
      rw [Nat.sub_add_cancel given]
      exact balanced.within w
    have each : ∑ i, (r.value i (b i) + a i • price) ≤ ∑ i, (r.value i (a i) + b i • price) :=
      Finset.sum_le_sum fun i _ => r.value_at_price (balanced.within i) (within i) (cheap i) (dear i)
    rw [Finset.sum_add_distrib, Finset.sum_add_distrib, Finset.sum_nsmul_assoc, Finset.sum_nsmul_assoc] at each
    have paid := nsmul_le_nsmul_left free few
    exact le_of_add_le_add_right (each.trans (add_le_add_right paid _))

/-- Where nobody has room for more, nobody has more in another way. -/
theorem optimal_of_full (within : ∀ i, r.room i (a i)) (full : ∀ i, ¬ r.room i (a i + 1))
    (within' : ∀ i, r.room i (b i)) :
    ∑ i, b i ≤ ∑ i, a i ∧ ∑ i, r.value i (b i) ≤ ∑ i, r.value i (a i) := by
  have le : ∀ i, b i ≤ a i := fun i =>
    Nat.le_of_not_lt fun more => full i (r.room_of_le more (within' i))
  exact ⟨Finset.sum_le_sum fun i _ => le i, Finset.sum_le_sum fun i _ => r.value_le (le i) (within i)⟩

end Returns

end RndRust.Lib
