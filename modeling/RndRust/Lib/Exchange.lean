import Mathlib.Algebra.BigOperators.Group.Finset.Piecewise
import Mathlib.Algebra.Order.BigOperators.Group.Finset
import Mathlib.Data.Nat.Notation

/-! Exchanges: a holder gives up some of one currency for some of another. -/
namespace RndRust.Lib

variable {ι μ : Type*} [DecidableEq μ]

/-- Between two balance sheets at most `paid` of `src` was given up and at least `got`
of `dst` came in, and nothing else was lost. Where both are one currency this bounds
the difference. -/
def Exchange (before after : μ → ℕ) (paid : ℕ) (src : μ) (got : ℕ) (dst : μ) : Prop :=
  ∀ m, before m + (if m = dst then got else 0) ≤ after m + if m = src then paid else 0

namespace Exchange

variable {a b c : μ → ℕ} {x y z : μ} {p q r : ℕ}

/-- What came in first is given up next. -/
theorem trans (first : Exchange a b p x q y) (second : Exchange b c q y r z) :
    Exchange a c p x r z := by
  intro m
  have one := first m
  have two := second m
  omega

theorem weaken (exchange : Exchange a b p x q y) (less : r ≤ q) : Exchange a b p x r y := by
  intro m
  have bound := exchange m
  by_cases same : m = y
  · rw [if_pos same] at bound ⊢
    omega
  · rw [if_neg same] at bound ⊢
    exact bound

end Exchange

/-- Balances summed over the accounts `K` of a holder: one account pays, one receives,
and no other loses anything. -/
theorem exchange_of_accounts [DecidableEq ι] {K : Finset ι} {before after : ι → μ → ℕ} {p q : ℕ}
    {x y : μ} (source : ι) {dest : ι} (member : dest ∈ K)
    (each : ∀ k m, before k m + (if k = dest then if m = y then q else 0 else 0) ≤
      after k m + if k = source then if m = x then p else 0 else 0) :
    Exchange (fun m => ∑ k ∈ K, before k m) (fun m => ∑ k ∈ K, after k m) p x q y := by
  intro m
  have summed := Finset.sum_le_sum fun k (_ : k ∈ K) => each k m
  rw [Finset.sum_add_distrib, Finset.sum_add_distrib, Finset.sum_ite_eq', Finset.sum_ite_eq',
    if_pos member] at summed
  refine Nat.le_trans summed (Nat.add_le_add_left ?_ _)
  split
  · exact Nat.le_refl _
  · exact Nat.zero_le _

end RndRust.Lib
