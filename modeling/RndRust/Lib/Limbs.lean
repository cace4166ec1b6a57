import Mathlib.Algebra.Order.Ring.Int
import Mathlib.Data.Nat.Digits.Defs
import Mathlib.Tactic.LinearCombination
import RndRust.Lib.Words

/-! Numbers that one machine integer does not hold, as a row of limbs with the lowest first. The
school rules for sums, differences, products and shifts all walk the limbs upwards and hand a
carry on, so one conservation law speaks for them. -/
namespace RndRust.Lib.Limbs

variable {w : ℕ}

/-- The number that the limbs stand for. -/
def value (limbs : List (Word w)) : ℕ := Nat.ofDigits (2 ^ w) (limbs.map Fin.val)

@[simp] theorem value_nil : value ([] : List (Word w)) = 0 := rfl

@[simp] theorem value_cons {limb : Word w} {limbs : List (Word w)} :
    value (limb :: limbs) = limb.val + 2 ^ w * value limbs := by
  simp [value, Nat.ofDigits_cons]

theorem value_append (low high : List (Word w)) :
    value (low ++ high) = value low + 2 ^ (w * low.length) * value high := by
  simp [value, Nat.ofDigits_append, pow_mul]

@[simp] theorem value_replicate_zero {count : ℕ} : value (List.replicate count (0 : Word w)) = 0 := by
  simp [value]

theorem value_eq_zero {limbs : List (Word w)} : value limbs = 0 ↔ ∀ limb ∈ limbs, limb = 0 := by
  induction limbs with
  | nil => simp
  | cons limb limbs ih =>
    have base := Nat.two_pow_pos w
    rw [value_cons, Nat.add_eq_zero_iff, Nat.mul_eq_zero, ih, List.forall_mem_cons, Fin.ext_iff,
      Fin.val_zero]
    simp only [base.ne', false_or]

theorem value_lt (limbs : List (Word w)) : value limbs < 2 ^ (w * limbs.length) := by
  induction limbs with
  | nil => simp
  | cons limb limbs ih =>
    rw [value_cons, List.length_cons, Nat.mul_add, Nat.mul_one, Nat.add_comm, pow_add]
    calc 2 ^ w * value limbs + limb.val < 2 ^ w * value limbs + 2 ^ w := by omega
      _ = 2 ^ w * (value limbs + 1) := by ring
      _ ≤ 2 ^ w * 2 ^ (w * limbs.length) := Nat.mul_le_mul_left _ ih
      _ = 2 ^ (w * limbs.length) * 2 ^ w := Nat.mul_comm _ _

theorem value_injective {xs ys : List (Word w)} (aligned : xs.length = ys.length)
    (same : value xs = value ys) : xs = ys := by
  induction xs generalizing ys with
  | nil => exact (List.length_eq_zero_iff.mp aligned.symm).symm
  | cons x xs ih =>
    cases ys with
    | nil => simp at aligned
    | cons y ys =>
      simp only [List.length_cons, Nat.add_right_cancel_iff] at aligned
      simp only [value_cons] at same
      have low := congrArg (· % 2 ^ w) same
      have high := congrArg (· / 2 ^ w) same
      simp only [Nat.add_mul_mod_self_left, Nat.mod_eq_of_lt (Fin.isLt _)] at low
      simp only [Nat.add_mul_div_left _ _ (Nat.two_pow_pos w), Nat.div_eq_of_lt (Fin.isLt _),
        Nat.zero_add] at high
      rw [Fin.ext low, ih aligned high]

theorem exists_value {n count : ℕ} (fits : n < 2 ^ (w * count)) :
    ∃ limbs : List (Word w), limbs.length = count ∧ value limbs = n := by
  induction count generalizing n with
  | zero =>
    rw [Nat.mul_zero, pow_zero, Nat.lt_one_iff] at fits
    exact ⟨[], rfl, fits.symm⟩
  | succ count ih =>
    have high : n / 2 ^ w < 2 ^ (w * count) := by
      rw [Nat.div_lt_iff_lt_mul (Nat.two_pow_pos w), ← pow_add]
      exact fits
    obtain ⟨limbs, rfl, same⟩ := ih high
    exact ⟨Word.wrap n :: limbs, rfl, by rw [value_cons, same, Word.val_wrap, Nat.mod_add_div]⟩

section Carries

/-- Walk two rows from the lowest limbs, one limb of each at a time, and hand a carry on. -/
def ripple (step : Word w → Word w → ℕ → Word w × ℕ) :
    List (Word w) → List (Word w) → ℕ → List (Word w) × ℕ
  | a :: as, b :: bs, carry =>
    let (digit, next) := step a b carry
    let (digits, last) := ripple step as bs next
    (digit :: digits, last)
  | _, _, carry => ([], carry)

variable {step : Word w → Word w → ℕ → Word w × ℕ}

@[simp] theorem length_ripple (as bs : List (Word w)) (carry : ℕ) :
    (ripple step as bs carry).1.length = min as.length bs.length := by
  induction as generalizing bs carry with
  | nil => simp [ripple]
  | cons a as ih =>
    cases bs with
    | nil => simp [ripple]
    | cons b bs => simp [ripple, ih]

/-- When a carry of `c` weighs `γ * c`, and every step keeps `α` times its first limb and `β` times its
second, the whole walk keeps these multiples of the two numbers. -/
theorem ripple_value {α β γ : ℤ} {Small : ℕ → Prop}
    (balances : ∀ a b carry, Small carry → Small (step a b carry).2 ∧
      ((step a b carry).1.val : ℤ) + 2 ^ w * (γ * (step a b carry).2) = α * a.val + β * b.val + γ * carry)
    (as bs : List (Word w)) (carry : ℕ) (aligned : as.length = bs.length) (small : Small carry) :
    Small (ripple step as bs carry).2 ∧
      (value (ripple step as bs carry).1 : ℤ) + 2 ^ (w * as.length) * (γ * (ripple step as bs carry).2)
        = α * value as + β * value bs + γ * carry := by
  induction as generalizing bs carry with
  | nil =>
    cases bs with
    | nil => simpa [ripple] using small
    | cons b bs => simp at aligned
  | cons a as ih =>
    cases bs with
    | nil => simp at aligned
    | cons b bs =>
      obtain ⟨lower, kept⟩ := balances a b carry small
      obtain ⟨last, rest⟩ := ih bs (step a b carry).2 (by simpa using aligned) lower
      refine ⟨last, ?_⟩
      simp only [ripple, value_cons, List.length_cons, Nat.mul_add, Nat.mul_one, pow_add]
      push_cast
      linear_combination kept + 2 ^ w * rest

end Carries

section Order

/-- The highest limbs that differ decide. -/
def compareLimbs : List (Word w) → List (Word w) → Ordering
  | a :: as, b :: bs => (compareLimbs as bs).then (compare a b)
  | _, _ => .eq

theorem compareLimbs_eq {as bs : List (Word w)} (aligned : as.length = bs.length) :
    compareLimbs as bs = compare (value as) (value bs) := by
  induction as generalizing bs with
  | nil =>
    cases bs with
    | nil => simp [compareLimbs]
    | cons b bs => simp at aligned
  | cons a as ih =>
    cases bs with
    | nil => simp at aligned
    | cons b bs =>
      have low := a.isLt
      have high := b.isLt
      rw [compareLimbs, ih (by simpa using aligned)]
      simp only [value_cons]
      rcases Nat.lt_trichotomy (value as) (value bs) with below | same | above
      · have := Nat.mul_le_mul_left (2 ^ w) (Nat.succ_le_of_lt below)
        rw [Nat.compare_eq_lt.mpr below, Nat.compare_eq_lt.mpr (by rw [Nat.succ_eq_add_one] at this; lia)]
        rfl
      · rw [same, Nat.compare_eq_eq.mpr rfl, Ordering.eq_then]
        change compare a.val b.val = _
        simp only [Nat.compare_eq_ite_lt, Nat.add_lt_add_iff_right]
      · have := Nat.mul_le_mul_left (2 ^ w) (Nat.succ_le_of_lt above)
        rw [Nat.compare_eq_gt.mpr above, Nat.compare_eq_gt.mpr (by rw [Nat.succ_eq_add_one] at this; lia)]
        rfl

end Order

section Bits

/-- The bit of the number at a place. -/
def bitAt (limbs : List (Word w)) (i : ℕ) : ℕ := ((limbs.getD (i / w) 0).val >>> (i % w)) &&& 1

/-- Switch the bit at a place on. -/
def setBit (limbs : List (Word w)) (i : ℕ) : List (Word w) :=
  limbs.modify (i / w) fun limb => Word.wrap (limb.val ||| 1 <<< (i % w))

/-- The place of the highest bit that is on, zero when none is. -/
def topBit : List (Word w) → ℕ
  | [] => 0
  | limb :: limbs => if limbs.all (· = 0) then Nat.log2 limb else w + topBit limbs

@[simp] theorem length_setBit {limbs : List (Word w)} {i : ℕ} : (setBit limbs i).length = limbs.length := by
  simp [setBit]

theorem lt_topBit {limbs : List (Word w)} : value limbs < 2 ^ (topBit limbs + 1) := by
  induction limbs with
  | nil => simp [topBit]
  | cons limb limbs ih =>
    rw [topBit, value_cons]
    split
    case isTrue nothing =>
      rw [value_eq_zero.mpr (by simpa using nothing)]
      exact Nat.lt_log2_self
    case isFalse =>
      calc limb.val + 2 ^ w * value limbs < 2 ^ w * (value limbs + 1) := by
            rw [Nat.mul_add, Nat.mul_one, Nat.add_comm]
            exact Nat.add_lt_add_left limb.isLt _
        _ ≤ 2 ^ w * 2 ^ (topBit limbs + 1) := Nat.mul_le_mul_left _ ih
        _ = 2 ^ (w + topBit limbs + 1) := by rw [← pow_add, Nat.add_assoc]

theorem topBit_lt {limbs : List (Word w)} (wide : 0 < w) (some : limbs ≠ []) :
    topBit limbs < w * limbs.length := by
  induction limbs with
  | nil => exact absurd rfl some
  | cons limb limbs ih =>
    rw [topBit, List.length_cons, Nat.mul_add, Nat.mul_one]
    split
    case isTrue =>
      have inside : Nat.log2 limb.val < w := by
        obtain zero | positive := Nat.eq_zero_or_pos limb.val
        · rw [zero]
          exact wide
        · exact (Nat.log2_lt positive.ne').mpr limb.isLt
      exact Nat.lt_add_left _ inside
    case isFalse more =>
      have rest := ih fun nothing => more (by simp [nothing])
      omega

theorem bitAt_cons {limb : Word w} {limbs : List (Word w)} {i : ℕ} (upper : w ≤ i) (wide : 0 < w) :
    bitAt (limb :: limbs) i = bitAt limbs (i - w) := by
  rw [bitAt, bitAt, Nat.div_eq_sub_div wide upper, Nat.mod_eq_sub_mod upper, List.getD_cons_succ]

theorem bitAt_eq {limbs : List (Word w)} {i : ℕ} (inside : i < w * limbs.length) :
    bitAt limbs i = value limbs / 2 ^ i % 2 := by
  induction limbs generalizing i with
  | nil => simp at inside
  | cons limb limbs ih =>
    have wide : 0 < w := Nat.pos_of_ne_zero fun none => by simp [none] at inside
    rw [value_cons]
    obtain lower | upper := Nat.lt_or_ge i w
    · rw [bitAt, Nat.div_eq_of_lt lower, Nat.mod_eq_of_lt lower, List.getD_cons_zero,
        Nat.and_one_is_mod, Nat.shiftRight_eq_div_pow]
      obtain ⟨rest, rfl⟩ := Nat.exists_eq_add_of_lt lower
      rw [show 2 ^ (i + rest + 1) * value limbs = 2 ^ i * (2 * (2 ^ rest * value limbs)) by ring,
        Nat.add_mul_div_left _ _ (Nat.two_pow_pos i), Nat.add_mul_mod_self_left]
    · rw [bitAt_cons upper wide, ih (by rw [List.length_cons] at inside; lia)]
      obtain ⟨rest, rfl⟩ := Nat.exists_eq_add_of_le upper
      rw [Nat.add_sub_cancel_left, pow_add, ← Nat.div_div_eq_div_mul,
        Nat.add_mul_div_left _ _ (Nat.two_pow_pos w), Nat.div_eq_of_lt limb.isLt, Nat.zero_add]

/-- A bit that is off is switched on by adding its worth. -/
theorem or_two_pow {n i : ℕ} (off : n / 2 ^ i % 2 = 0) : n ||| 2 ^ i = n + 2 ^ i := by
  have low := Nat.mod_lt n (Nat.two_pow_pos i)
  have parts : n = 2 ^ (i + 1) * (n / 2 ^ i / 2) + n % 2 ^ i := by
    have halves := Nat.div_add_mod (n / 2 ^ i) 2
    rw [off, Nat.add_zero] at halves
    rw [pow_succ, Nat.mul_assoc, halves, Nat.div_add_mod]
  have apart := Nat.two_pow_add_eq_or_of_lt (Nat.pow_lt_pow_right Nat.one_lt_two (Nat.lt_succ_self i))
    (n / 2 ^ i / 2)
  have joined := Nat.two_pow_add_eq_or_of_lt low (2 * (n / 2 ^ i / 2) + 1)
  have before := Nat.two_pow_add_eq_or_of_lt (low.trans (Nat.pow_lt_pow_right Nat.one_lt_two
    (Nat.lt_succ_self i))) (n / 2 ^ i / 2)
  have worth : 2 ^ i * (2 * (n / 2 ^ i / 2) + 1) = 2 ^ (i + 1) * (n / 2 ^ i / 2) + 2 ^ i := by ring
  calc n ||| 2 ^ i = (2 ^ (i + 1) * (n / 2 ^ i / 2) ||| n % 2 ^ i) ||| 2 ^ i := by rw [← before, ← parts]
    _ = (2 ^ (i + 1) * (n / 2 ^ i / 2) ||| 2 ^ i) ||| n % 2 ^ i := by
      rw [Nat.or_assoc, Nat.or_comm (n % 2 ^ i), ← Nat.or_assoc]
    _ = 2 ^ i * (2 * (n / 2 ^ i / 2) + 1) ||| n % 2 ^ i := by rw [← apart, worth]
    _ = 2 ^ i * (2 * (n / 2 ^ i / 2) + 1) + n % 2 ^ i := joined.symm
    _ = 2 ^ (i + 1) * (n / 2 ^ i / 2) + n % 2 ^ i + 2 ^ i := by rw [worth]; ring
    _ = n + 2 ^ i := by rw [← parts]

theorem value_setBit {limbs : List (Word w)} {i : ℕ} (inside : i < w * limbs.length)
    (off : bitAt limbs i = 0) : value (setBit limbs i) = value limbs + 2 ^ i := by
  induction limbs generalizing i with
  | nil => simp at inside
  | cons limb limbs ih =>
    have wide : 0 < w := Nat.pos_of_ne_zero fun none => by simp [none] at inside
    obtain lower | upper := Nat.lt_or_ge i w
    · rw [bitAt, Nat.div_eq_of_lt lower, Nat.mod_eq_of_lt lower, List.getD_cons_zero,
        Nat.and_one_is_mod, Nat.shiftRight_eq_div_pow] at off
      have joined := or_two_pow off
      have fits := Nat.or_lt_two_pow limb.isLt (Nat.pow_lt_pow_right Nat.one_lt_two lower)
      rw [setBit, Nat.div_eq_of_lt lower, Nat.mod_eq_of_lt lower, List.modify_zero_cons, value_cons,
        value_cons, Word.val_wrap, Nat.one_shiftLeft, Nat.mod_eq_of_lt fits, joined]
      ring
    · rw [bitAt_cons upper wide] at off
      have rest := ih (by rw [List.length_cons] at inside; lia) off
      rw [setBit] at rest
      rw [setBit, Nat.div_eq_sub_div wide upper, Nat.mod_eq_sub_mod upper, List.modify_succ_cons,
        value_cons, value_cons, rest]
      obtain ⟨more, rfl⟩ := Nat.exists_eq_add_of_le upper
      rw [Nat.add_sub_cancel_left, pow_add]
      ring

end Bits

end RndRust.Lib.Limbs
