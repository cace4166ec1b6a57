import Mathlib.Algebra.Ring.Nat
import Mathlib.Data.Nat.Notation
import Mathlib.Tactic.Ring

/-! A pool of two reserves that keeps their product. It gains by every rounding, and what it pays out
is a concave function of what is put in. -/
namespace RndRust.Lib

variable {x y a b net gross out : ℕ}

/-- What the pool pays out of the reserve `y` for `a` more in the reserve `x`, rounded down. -/
def paidOut (x y a : ℕ) : ℕ := a * y / (x + a)

theorem paidOut_mul_le : paidOut x y a * (x + a) ≤ a * y := Nat.div_mul_le_self _ _

theorem le_paidOut_iff (some : 0 < x) : out ≤ paidOut x y a ↔ out * (x + a) ≤ a * y :=
  Nat.le_div_iff_mul_le (Nat.add_pos_left some a)

theorem paidOut_lt_iff (some : 0 < x) : paidOut x y a < out ↔ a * y < out * (x + a) := by
  rw [← Nat.not_le, le_paidOut_iff some, Nat.not_le]

theorem paidOut_lt (some : 0 < x) (reserve : 0 < y) : paidOut x y a < y := by
  rw [paidOut_lt_iff some, Nat.mul_add, Nat.mul_comm a]
  exact Nat.lt_add_of_pos_left (Nat.mul_pos reserve some)

theorem paidOut_le (some : 0 < x) : paidOut x y a ≤ y := by
  obtain rfl | reserve := Nat.eq_zero_or_pos y
  · simp [paidOut]
  · exact (paidOut_lt some reserve).le

theorem paidOut_mono_amount (some : 0 < x) (more : a ≤ b) : paidOut x y a ≤ paidOut x y b := by
  rw [le_paidOut_iff some]
  have within := Nat.mul_le_mul_left (b - a) (paidOut_le (a := a) (y := y) some)
  calc paidOut x y a * (x + b) = paidOut x y a * (x + a) + (b - a) * paidOut x y a := by
        obtain ⟨rest, rfl⟩ := Nat.exists_eq_add_of_le more
        rw [Nat.add_sub_cancel_left]
        ring
    _ ≤ a * y + (b - a) * y := Nat.add_le_add paidOut_mul_le within
    _ = b * y := by rw [← Nat.add_mul, Nat.add_sub_cancel' more]

theorem paidOut_mono_reserve {deeper : ℕ} (more : y ≤ deeper) : paidOut x y a ≤ paidOut x deeper a :=
  Nat.div_le_div_right (Nat.mul_le_mul_left a more)

/-- An output keeps the product just when it is at most what the pool pays out. -/
theorem product_le_iff (some : 0 < x) (within : out ≤ y) :
    x * y ≤ (x + a) * (y - out) ↔ out ≤ paidOut x y a := by
  obtain ⟨left, rfl⟩ := Nat.exists_eq_add_of_le within
  rw [le_paidOut_iff some, Nat.add_sub_cancel_left]
  constructor <;>
  · intro le
    lia

/-- Where the product is divided first, what is left in the reserve is rounded down instead: the pool
keeps its product only if nothing remains. -/
theorem sub_div_le_paidOut_iff (some : 0 < x) : y - x * y / (x + a) ≤ paidOut x y a ↔ x + a ∣ x * y := by
  have positive : 0 < x + a := Nat.add_pos_left some a
  have whole := Nat.div_add_mod (x * y) (x + a)
  have within : x * y / (x + a) ≤ y :=
    Nat.div_le_of_le_mul (Nat.mul_le_mul_right y (Nat.le_add_right x a))
  rw [le_paidOut_iff some, Nat.dvd_iff_mod_eq_zero]
  generalize x * y / (x + a) = left at *
  generalize remains : x * y % (x + a) = rest at *
  obtain ⟨out, rfl⟩ := Nat.exists_eq_add_of_le within
  rw [Nat.add_sub_cancel_left]
  have parts : out * (x + a) = a * (left + out) + rest := by lia
  rw [parts]
  omega

/-- A trade back into the reserves that the first trade left returns no more than was put in. -/
theorem paidOut_back_le (some : 0 < x) (fee : net ≤ gross) (reserve : 0 < y) (less : a ≤ paidOut x y net) :
    paidOut (y - paidOut x y net) (x + gross) a ≤ gross := by
  have left : 0 < y - paidOut x y net := Nat.sub_pos_of_lt (paidOut_lt some reserve)
  have kept := (product_le_iff some (paidOut_le some)).mpr (le_refl (paidOut x y net))
  have conserved := Nat.sub_add_cancel (paidOut_le (x := x) (y := y) (a := net) some)
  generalize paidOut x y net = out at *
  generalize y - out = rest at *
  subst conserved
  refine Nat.le_of_lt_succ ((paidOut_lt_iff left).mpr ?_)
  have cross : out * x ≤ net * rest := by lia
  calc a * (x + gross) ≤ out * x + a * gross := by
        rw [Nat.mul_add]
        exact Nat.add_le_add_right (Nat.mul_le_mul_right x less) _
    _ ≤ gross * rest + a * gross :=
        Nat.add_le_add_right (cross.trans (Nat.mul_le_mul_right rest fee)) _
    _ < (gross + 1) * (rest + a) := by lia

/-- Two trades in a row, of which the reserve may keep a fee, never yield more than one. -/
theorem paidOut_add_paidOut_le (some : 0 < x) (fee : net ≤ gross) (together : net + b ≤ a) :
    paidOut x y net + paidOut (x + gross) (y - paidOut x y net) b ≤ paidOut x y a := by
  refine le_trans ?_ (paidOut_mono_amount some together)
  rw [le_paidOut_iff some]
  have first := paidOut_mul_le (x := x) (y := y) (a := net)
  have second := paidOut_mul_le (x := x + gross) (y := y - paidOut x y net) (a := b)
  have conserved := Nat.sub_add_cancel (paidOut_le (x := x) (y := y) (a := net) some)
  generalize paidOut (x + gross) (y - paidOut x y net) b = again at *
  generalize paidOut x y net = out at *
  generalize y - out = rest at *
  subst conserved
  have narrower : again * (x + (net + b)) ≤ again * (x + gross + b) :=
    Nat.mul_le_mul_left again (by omega)
  calc (out + again) * (x + (net + b)) = out * (x + net) + out * b + again * (x + (net + b)) := by ring
    _ ≤ net * (rest + out) + out * b + b * rest :=
        Nat.add_le_add (Nat.add_le_add_right first _) (narrower.trans second)
    _ = (net + b) * (rest + out) := by ring

end RndRust.Lib
