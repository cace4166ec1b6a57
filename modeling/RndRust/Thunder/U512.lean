import Mathlib.Tactic.Ring
import RndRust.Lib.Limbs
import RndRust.Thunder.Market

/-! The unsigned integer of 512 bits that the intermediate products of the price arithmetic are
kept in. -/
namespace RndRust.Thunder
open Lib Lib.Limbs

structure U512 where
  limbs : List U64
  eight : limbs.length = 8

namespace U512

variable {a b c d : U512} {n m r : ℕ} {v : U128}

/-- The first number that is too large. -/
def capacity : ℕ := 2 ^ (64 * 8)

def toNat (a : U512) : ℕ := value a.limbs

theorem toNat_lt (a : U512) : a.toNat < capacity := by
  have below := value_lt a.limbs
  rwa [a.eight] at below

theorem toNat_injective (same : a.toNat = b.toNat) : a = b := by
  obtain ⟨x, long⟩ := a
  obtain ⟨y, wide⟩ := b
  congr
  exact value_injective (long.trans wide.symm) same

theorem exists_toNat (fits : n < capacity) : ∃ a : U512, a.toNat = n := by
  obtain ⟨limbs, eight, same⟩ := exists_value fits
  exact ⟨⟨limbs, eight⟩, same⟩

theorem aligned (a b : U512) : a.limbs.length = b.limbs.length := a.eight.trans b.eight.symm

def zero : U512 := ⟨List.replicate 8 0, by simp⟩

/-- `from_u128`. -/
def fromU128 (v : U128) : U512 :=
  ⟨Word.wrap v.val :: Word.wrap (v.val >>> 64) :: List.replicate 6 0, by simp⟩

def isZero (a : U512) : Bool := a.limbs.all (· = 0)

/-- `to_u128`. -/
def toU128 (a : U512) : Option U128 :=
  if (a.limbs.drop 2).any (· ≠ 0) then none
  else some (Word.wrap ((a.limbs.getD 1 0).val <<< 64 ||| (a.limbs.getD 0 0).val))

def cmpU512 (a b : U512) : Ordering := compareLimbs a.limbs b.limbs

/-- `overflowing_add`. -/
def overflowingAdd (a b : U64) : U64 × Bool := (Word.wrap (a.val + b.val), 2 ^ 64 ≤ a.val + b.val)

/-- `overflowing_sub`. -/
def overflowingSub (a b : U64) : U64 × Bool := (Word.wrap (a.val + 2 ^ 64 - b.val), a.val < b.val)

def addStep (a b : U64) (carry : ℕ) : U64 × ℕ :=
  let (s1, c1) := overflowingAdd a b
  let (s2, c2) := overflowingAdd s1 (Word.wrap carry)
  (s2, c1.toNat + c2.toNat)

/-- `checked_add`. -/
def checkedAdd (a b : U512) : Option U512 :=
  let out := ripple addStep a.limbs b.limbs 0
  if out.2 ≠ 0 then none else some ⟨out.1, by simp [out, a.eight, b.eight]⟩

def subStep (a b : U64) (borrow : ℕ) : U64 × ℕ :=
  let (d1, b1) := overflowingSub a b
  let (d2, b2) := overflowingSub d1 (Word.wrap borrow)
  (d2, b1.toNat + b2.toNat)

/-- `checked_sub`. -/
def checkedSub (a b : U512) : Option U512 :=
  if cmpU512 a b = .lt then none
  else some ⟨(ripple subStep a.limbs b.limbs 0).1, by simp [a.eight, b.eight]⟩

/-- One limb of `self`, the limb of `out` that it lands on, and the carry. -/
def mulStep (rj a out : U64) (carry : ℕ) : U64 × ℕ :=
  let prod := a.val * rj.val + out.val + carry
  (Word.wrap prod, prod >>> 64)

/-- One limb of the factor, `j` places up. What would land above the limbs of `out` is lost unless it
is zero. -/
def mulRow (self : U512) (j : ℕ) (rj : U64) (out : U512) : Option U512 :=
  if rj = 0 then some out
  else if (self.limbs.drop (8 - j)).any (· ≠ 0) then none
  else
    let row := ripple (mulStep rj) (self.limbs.take (8 - j)) (out.limbs.drop j) 0
    if row.2 ≠ 0 then none
    else some ⟨out.limbs.take j ++ row.1, by simp [row, self.eight, out.eight]; omega⟩

/-- `checked_mul_u128`. -/
def checkedMulU128 (self : U512) (rhs : U128) : Option U512 :=
  (mulRow self 0 (Word.wrap rhs.val) zero).bind (mulRow self 1 (Word.wrap (rhs.val >>> 64)))

/-- `checked_shl64`. -/
def checkedShl64 (self : U512) : Option U512 :=
  if self.limbs.getD 7 0 ≠ 0 then none else some ⟨0 :: self.limbs.take 7, by simp [self.eight]⟩

def shlStep (limb _ : U64) (carry : ℕ) : U64 × ℕ :=
  (Word.wrap (limb.val <<< 1 ||| carry), limb.val >>> 63)

/-- `rem << 1 | bit`, without what is carried out of the top. -/
def shlBit (rem : U512) (bit : ℕ) : U512 :=
  ⟨(ripple shlStep rem.limbs rem.limbs bit).1, by simp [rem.eight]⟩

/-- The bits of `self` below the `n`th, from the highest down. -/
def divBits (self divisor : U512) : ℕ → U512 × U512 → Option (U512 × U512)
  | 0, state => some state
  | bit + 1, (quotient, rem) =>
    let rem := rem.shlBit (bitAt self.limbs bit)
    if cmpU512 rem divisor ≠ .lt then
      match rem.checkedSub divisor with
      | none => none
      | some rem =>
        divBits self divisor bit (⟨setBit quotient.limbs bit, by simp [quotient.eight]⟩, rem)
    else divBits self divisor bit (quotient, rem)

/-- `div_rem`. -/
def divRem (self divisor : U512) : Option (U512 × U512) :=
  if divisor.isZero then none
  else if self.isZero then some (zero, zero)
  else divBits self divisor (topBit self.limbs + 1) (zero, zero)

section Specs

@[simp] theorem toNat_zero : zero.toNat = 0 := value_replicate_zero

@[simp] theorem toNat_fromU128 : (fromU128 v).toNat = v.val := by
  have := v.isLt
  simp only [toNat, fromU128, value_cons, value_replicate_zero, Word.val_wrap,
    Nat.shiftRight_eq_div_pow]
  omega

@[simp] theorem isZero_iff : a.isZero ↔ a.toNat = 0 := by
  simp [isZero, toNat, value_eq_zero]

theorem toNat_eq_low (a : U512) : a.toNat
    = (a.limbs.getD 0 0).val + 2 ^ 64 * (a.limbs.getD 1 0).val + 2 ^ 128 * value (a.limbs.drop 2) := by
  obtain ⟨limbs, eight⟩ := a
  match limbs, eight with
  | low :: high :: rest, _ =>
    simp only [toNat, value_cons, List.getD_cons_zero, List.getD_cons_succ, List.drop_succ_cons,
      List.drop_zero]
    ring

@[simp] theorem toU128_eq (a : U512) : a.toU128 = Word.tryFrom a.toNat := by
  have parts := toNat_eq_low a
  have low := (a.limbs.getD 0 0).isLt
  have high := (a.limbs.getD 1 0).isLt
  unfold toU128
  split
  case isTrue more =>
    have some_on : value (a.limbs.drop 2) ≠ 0 := by
      rw [Ne, value_eq_zero]
      simpa using more
    symm
    rw [Word.tryFrom_eq_none]
    omega
  case isFalse none_on =>
    have all_off : value (a.limbs.drop 2) = 0 := by
      rw [value_eq_zero]
      simpa using none_on
    symm
    rw [Word.tryFrom_eq_some, Word.val_wrap, Nat.shiftLeft_eq, Nat.mul_comm,
      ← Nat.two_pow_add_eq_or_of_lt low]
    omega

@[simp] theorem cmpU512_eq : cmpU512 a b = compare a.toNat b.toNat := compareLimbs_eq (aligned a b)

theorem addStep_balances (a b : U64) (carry : ℕ) (small : carry ≤ 1) : (addStep a b carry).2 ≤ 1 ∧
    ((addStep a b carry).1.val : ℤ) + 2 ^ 64 * (1 * (addStep a b carry).2)
      = 1 * a.val + 1 * b.val + 1 * carry := by
  have := a.isLt
  have := b.isLt
  by_cases first : 2 ^ 64 ≤ a.val + b.val <;>
    by_cases second : 2 ^ 64 ≤ (a.val + b.val) % 2 ^ 64 + carry % 2 ^ 64 <;>
    simp only [addStep, overflowingAdd, Word.val_wrap, first, second, decide_true, decide_false,
      Bool.toNat_true, Bool.toNat_false] <;>
    omega

theorem subStep_balances (a b : U64) (borrow : ℕ) (small : borrow ≤ 1) : (subStep a b borrow).2 ≤ 1 ∧
    ((subStep a b borrow).1.val : ℤ) + 2 ^ 64 * (-1 * (subStep a b borrow).2)
      = 1 * a.val + -1 * b.val + -1 * borrow := by
  have := a.isLt
  have := b.isLt
  by_cases first : a.val < b.val <;>
    by_cases second : (a.val + 2 ^ 64 - b.val) % 2 ^ 64 < borrow % 2 ^ 64 <;>
    simp only [subStep, overflowingSub, Word.val_wrap, first, second, decide_true, decide_false,
      Bool.toNat_true, Bool.toNat_false] <;>
    omega

theorem mulStep_balances (r a out : U64) (carry : ℕ) (small : carry < 2 ^ 64) :
    (mulStep r a out carry).2 < 2 ^ 64 ∧
    ((mulStep r a out carry).1.val : ℤ) + 2 ^ 64 * (1 * (mulStep r a out carry).2)
      = r.val * a.val + 1 * out.val + 1 * carry := by
  have product : a.val * r.val ≤ (2 ^ 64 - 1) * (2 ^ 64 - 1) :=
    Nat.mul_le_mul (by have := a.isLt; omega) (by have := r.isLt; omega)
  have := out.isLt
  have whole := Nat.mod_add_div (a.val * r.val + out.val + carry) (2 ^ 64)
  simp only [mulStep, Word.val_wrap, Nat.shiftRight_eq_div_pow]
  refine ⟨by omega, ?_⟩
  rw [Int.one_mul, Int.one_mul, Int.one_mul, Int.mul_comm r.val]
  exact_mod_cast whole

theorem shlStep_balances (limb other : U64) (carry : ℕ) (small : carry ≤ 1) :
    (shlStep limb other carry).2 ≤ 1 ∧
    ((shlStep limb other carry).1.val : ℤ) + 2 ^ 64 * (1 * (shlStep limb other carry).2)
      = 2 * limb.val + 0 * other.val + 1 * carry := by
  have := limb.isLt
  have joined : limb.val <<< 1 ||| carry = 2 * limb.val + carry := by
    rw [Nat.shiftLeft_eq, Nat.mul_comm, pow_one]
    exact (Nat.two_pow_add_eq_or_of_lt (i := 1) (by omega) limb.val).symm
  simp only [shlStep, Word.val_wrap, joined, Nat.shiftRight_eq_div_pow]
  omega

theorem add_conserves (a b : U512) : value (ripple addStep a.limbs b.limbs 0).1
    + capacity * (ripple addStep a.limbs b.limbs 0).2 = a.toNat + b.toNat := by
  obtain ⟨-, sum⟩ := ripple_value addStep_balances a.limbs b.limbs 0 (aligned a b) (Nat.zero_le 1)
  simp only [one_mul, Nat.cast_zero, add_zero] at sum
  rw [toNat, toNat, capacity, ← a.eight]
  exact_mod_cast sum

theorem sub_conserves (a b : U512) : value (ripple subStep a.limbs b.limbs 0).1 + b.toNat
    = a.toNat + capacity * (ripple subStep a.limbs b.limbs 0).2 := by
  obtain ⟨-, difference⟩ := ripple_value subStep_balances a.limbs b.limbs 0 (aligned a b) (Nat.zero_le 1)
  rw [toNat, toNat, capacity, ← a.eight]
  zify
  generalize (2 : ℤ) ^ (64 * a.limbs.length) = top at difference ⊢
  linear_combination difference

theorem checkedAdd_eq_some : a.checkedAdd b = some c ↔ a.toNat + b.toNat = c.toNat := by
  have sum := add_conserves a b
  have room := c.toNat_lt
  simp only [checkedAdd]
  split
  case isTrue carried =>
    have exceeds := Nat.le_mul_of_pos_right (capacity) (Nat.pos_of_ne_zero carried)
    simp only [reduceCtorEq, false_iff]
    omega
  case isFalse kept =>
    rw [not_not.mp kept, Nat.mul_zero, Nat.add_zero] at sum
    rw [Option.some.injEq, ← sum]
    constructor
    · rintro rfl
      rfl
    · exact fun same => toNat_injective same

theorem checkedSub_eq_some : a.checkedSub b = some c ↔ a.toNat = c.toNat + b.toNat := by
  have difference := sub_conserves a b
  have low := value_lt (ripple subStep a.limbs b.limbs 0).1
  have high := a.toNat_lt
  rw [length_ripple, ← aligned a b, Nat.min_self, a.eight, ← capacity] at low
  rw [checkedSub, cmpU512_eq]
  split
  case isTrue below =>
    have := Nat.compare_eq_lt.mp below
    simp only [reduceCtorEq, false_iff]
    omega
  case isFalse above =>
    have least := Nat.compare_eq_lt.not.mp above
    have kept : (ripple subStep a.limbs b.limbs 0).2 = 0 := by
      by_contra borrowed
      have exceeds := Nat.le_mul_of_pos_right (capacity) (Nat.pos_of_ne_zero borrowed)
      omega
    rw [kept, Nat.mul_zero, Nat.add_zero] at difference
    rw [Option.some.injEq, ← difference, Nat.add_right_cancel_iff]
    constructor
    · rintro rfl
      rfl
    · exact fun same => toNat_injective same

theorem toNat_split (a : U512) {j : ℕ} (inside : j ≤ 8) :
    a.toNat = value (a.limbs.take j) + 2 ^ (64 * j) * value (a.limbs.drop j) := by
  have parts := value_append (a.limbs.take j) (a.limbs.drop j)
  rwa [List.take_append_drop, List.length_take_of_le (by rw [a.eight]; exact inside)] at parts

theorem mul_conserves (self out : U512) (rj : U64) (j : ℕ) :
    value (ripple (mulStep rj) (self.limbs.take (8 - j)) (out.limbs.drop j) 0).1 + 2 ^ (64 * (8 - j))
      * (ripple (mulStep rj) (self.limbs.take (8 - j)) (out.limbs.drop j) 0).2
    = rj.val * value (self.limbs.take (8 - j)) + value (out.limbs.drop j) := by
  have long : (self.limbs.take (8 - j)).length = 8 - j := by simp [self.eight]
  obtain ⟨-, product⟩ := ripple_value (mulStep_balances rj) (self.limbs.take (8 - j)) (out.limbs.drop j) 0
    (by rw [long, List.length_drop, out.eight]) (Nat.two_pow_pos 64)
  simp only [long, one_mul, Nat.cast_zero, mul_zero, add_zero] at product
  exact_mod_cast product

/-- A row adds the limb's product at its place, unless 512 bits do not hold the sum. -/
theorem mulRow_eq_some {self out : U512} {j : ℕ} {rj : U64} (inside : j ≤ 8) :
    mulRow self j rj out = some c ↔ out.toNat + 2 ^ (64 * j) * (rj.val * self.toNat) = c.toNat := by
  have room := c.toNat_lt
  have product := mul_conserves self out rj j
  have whole : 2 ^ (64 * j) * 2 ^ (64 * (8 - j)) = capacity := by
    rw [← pow_add, ← Nat.mul_add, Nat.add_sub_cancel' inside, capacity]
  have parts := self.toNat_split (Nat.sub_le 8 j)
  have places := out.toNat_split inside
  unfold mulRow
  split
  case isTrue nothing =>
    rw [Option.some.injEq, nothing, Fin.val_zero, Nat.zero_mul, Nat.mul_zero, Nat.add_zero]
    exact ⟨congrArg toNat, toNat_injective⟩
  case isFalse factor =>
    have positive : 0 < rj.val := Nat.pos_of_ne_zero fun zero => factor (Fin.ext zero)
    split
    case isTrue high =>
      have above : 0 < value (self.limbs.drop (8 - j)) := by
        rw [Nat.pos_iff_ne_zero, Ne, value_eq_zero]
        simpa using high
      have least : 2 ^ (64 * (8 - j)) ≤ rj.val * self.toNat := by
        calc 2 ^ (64 * (8 - j)) ≤ 2 ^ (64 * (8 - j)) * value (self.limbs.drop (8 - j)) :=
              Nat.le_mul_of_pos_right _ above
          _ ≤ self.toNat := by rw [parts]; exact Nat.le_add_left _ _
          _ ≤ rj.val * self.toNat := Nat.le_mul_of_pos_left _ positive
      have exceeds := Nat.mul_le_mul_left (2 ^ (64 * j)) least
      rw [whole] at exceeds
      simp only [reduceCtorEq, false_iff]
      omega
    case isFalse low =>
      have nothing : value (self.limbs.drop (8 - j)) = 0 := by
        rw [value_eq_zero]
        simpa using low
      rw [nothing, Nat.mul_zero, Nat.add_zero] at parts
      have total : out.toNat + 2 ^ (64 * j) * (rj.val * self.toNat) = value (out.limbs.take j)
          + 2 ^ (64 * j) * value (ripple (mulStep rj) (self.limbs.take (8 - j)) (out.limbs.drop j) 0).1
          + capacity * (ripple (mulStep rj) (self.limbs.take (8 - j)) (out.limbs.drop j) 0).2 := by
        rw [places, parts, ← whole, Nat.mul_assoc, Nat.add_assoc, Nat.add_assoc, ← Nat.mul_add,
          ← Nat.mul_add, product, Nat.add_comm (rj.val * _)]
      rw [total]
      simp only
      split
      case isTrue carried =>
        have exceeds := Nat.le_mul_of_pos_right (capacity) (Nat.pos_of_ne_zero carried)
        simp only [reduceCtorEq, false_iff]
        omega
      case isFalse kept =>
        have short : (out.limbs.take j).length = j := by simp [out.eight, inside]
        have joined := value_append (out.limbs.take j)
          (ripple (mulStep rj) (self.limbs.take (8 - j)) (out.limbs.drop j) 0).1
        rw [short] at joined
        rw [not_not.mp kept, Nat.mul_zero, Nat.add_zero, Option.some.injEq, ← joined]
        constructor
        · rintro rfl
          rfl
        · exact fun same => toNat_injective same

theorem checkedMulU128_eq_some : a.checkedMulU128 v = some c ↔ a.toNat * v.val = c.toNat := by
  have room := c.toNat_lt
  have digits : v.val = v.val % 2 ^ 64 + 2 ^ 64 * (v.val >>> 64 % 2 ^ 64) := by
    have := v.isLt
    rw [Nat.shiftRight_eq_div_pow]
    omega
  have low (out : U512) : mulRow a 0 (Word.wrap v.val) zero = some out ↔
      v.val % 2 ^ 64 * a.toNat = out.toNat := by simp [mulRow_eq_some]
  have high (out : U512) : mulRow a 1 (Word.wrap (v.val >>> 64)) out = some c ↔
      out.toNat + 2 ^ 64 * (v.val >>> 64 % 2 ^ 64 * a.toNat) = c.toNat := by
    rw [mulRow_eq_some (by decide)]
    rfl
  have product : a.toNat * v.val
      = v.val % 2 ^ 64 * a.toNat + 2 ^ 64 * (v.val >>> 64 % 2 ^ 64 * a.toNat) := by
    conv_lhs => rw [digits]
    ring
  rw [checkedMulU128, Option.bind_eq_some_iff, product]
  simp only [low, high]
  constructor
  · rintro ⟨out, first, second⟩
    rw [first, second]
  · intro both
    obtain ⟨out, first⟩ := exists_toNat (n := v.val % 2 ^ 64 * a.toNat) (by
      rw [both.symm] at room
      exact Nat.lt_of_le_of_lt (Nat.le_add_right _ _) room)
    exact ⟨out, first.symm, by rw [first, both]⟩

theorem checkedShl64_eq_some : a.checkedShl64 = some c ↔ a.toNat * 2 ^ 64 = c.toNat := by
  have parts := a.toNat_split (show 7 ≤ 8 by decide)
  have room := c.toNat_lt
  have top : value (a.limbs.drop 7) = (a.limbs.getD 7 0).val := by
    obtain ⟨limbs, eight⟩ := a
    match limbs, eight with
    | [_, _, _, _, _, _, _, _], _ => simp
  rw [top] at parts
  unfold checkedShl64
  split
  case isTrue lost =>
    have positive : 0 < (a.limbs.getD 7 0).val := Nat.pos_of_ne_zero fun zero => lost (Fin.ext zero)
    have exceeds : capacity ≤ a.toNat * 2 ^ 64 := by
      rw [parts, capacity, show 64 * 8 = 64 * 7 + 64 by rfl, pow_add]
      exact Nat.mul_le_mul_right _ ((Nat.le_mul_of_pos_right _ positive).trans (Nat.le_add_left _ _))
    simp only [reduceCtorEq, false_iff]
    omega
  case isFalse kept =>
    simp only [not_not.mp kept, Fin.val_zero, mul_zero, add_zero] at parts
    have shifted : value (0 :: a.limbs.take 7) = a.toNat * 2 ^ 64 := by
      rw [value_cons, Fin.val_zero, Nat.zero_add, parts, Nat.mul_comm]
    rw [Option.some.injEq, ← shifted]
    constructor
    · rintro rfl
      rfl
    · exact fun same => toNat_injective same

theorem toNat_shlBit {bit : ℕ} (small : bit ≤ 1) (room : 2 * a.toNat + bit < capacity) :
    (a.shlBit bit).toNat = 2 * a.toNat + bit := by
  obtain ⟨-, doubled⟩ := ripple_value shlStep_balances a.limbs a.limbs bit rfl small
  simp only [one_mul, zero_mul, add_zero] at doubled
  have whole : value (ripple shlStep a.limbs a.limbs bit).1 + capacity * (ripple shlStep a.limbs a.limbs bit).2
      = 2 * a.toNat + bit := by
    rw [toNat, capacity, ← a.eight]
    exact_mod_cast doubled
  have kept : (ripple shlStep a.limbs a.limbs bit).2 = 0 := by
    by_contra carried
    have exceeds := Nat.le_mul_of_pos_right capacity (Nat.pos_of_ne_zero carried)
    omega
  rwa [kept, Nat.mul_zero, Nat.add_zero] at whole

/-- Before the `n`th bit is reached, the bits above have been divided, and the bits of the quotient
from there down are off. -/
structure Divided (dividend divisor : U512) (n : ℕ) (quotient rem : U512) : Prop where
  above : dividend.toNat / 2 ^ n = quotient.toNat / 2 ^ n * divisor.toNat + rem.toNat
  off : quotient.toNat % 2 ^ n = 0
  less : rem.toNat < divisor.toNat

/-- What is left stays below the bits of the dividend that were read, so nothing is carried out of the
top, however large the divisor is. -/
theorem divBits_divided {self divisor quotient rem : U512} (inside : n ≤ 64 * 8)
    (start : Divided self divisor n quotient rem) :
    ∃ q r, divBits self divisor n (quotient, rem) = some (q, r) ∧ Divided self divisor 0 q r := by
  induction n generalizing quotient rem with
  | zero => exact ⟨quotient, rem, rfl, start⟩
  | succ n ih =>
    obtain ⟨above, off, less⟩ := start
    have bit : bitAt self.limbs n = self.toNat / 2 ^ n % 2 := bitAt_eq (by rw [self.eight]; omega)
    have small : bitAt self.limbs n ≤ 1 := by omega
    obtain ⟨Q, multiple⟩ := Nat.dvd_of_mod_eq_zero off
    have wider : 2 ^ (n + 1) * Q = 2 ^ n * (2 * Q) := by ring
    have high : quotient.toNat / 2 ^ (n + 1) = Q := by
      rw [multiple, Nat.mul_div_cancel_left _ (Nat.two_pow_pos _)]
    have low : quotient.toNat / 2 ^ n = 2 * Q := by
      rw [multiple, wider, Nat.mul_div_cancel_left _ (Nat.two_pow_pos _)]
    have halves : self.toNat / 2 ^ (n + 1) = self.toNat / 2 ^ n / 2 := by
      rw [Nat.div_div_eq_div_mul, pow_succ]
    rw [high, halves] at above
    have next : self.toNat / 2 ^ n = 2 * Q * divisor.toNat + (2 * rem.toNat + bitAt self.limbs n) := by
      rw [bit, Nat.mul_assoc]
      omega
    have read : 2 * rem.toNat + bitAt self.limbs n ≤ self.toNat :=
      (Nat.le_add_left _ _).trans (next.symm.le.trans (Nat.div_le_self _ _))
    have room := read.trans_lt self.toNat_lt
    have shifted := toNat_shlBit small room
    simp only [divBits, cmpU512_eq]
    split
    case isTrue enough =>
      have enough : divisor.toNat ≤ 2 * rem.toNat + bitAt self.limbs n := by
        rw [shifted] at enough
        exact Nat.le_of_not_lt (Nat.compare_eq_lt.not.mp enough)
      have free : bitAt quotient.limbs n = 0 := by
        rw [bitAt_eq (by rw [quotient.eight]; omega)]
        change quotient.toNat / 2 ^ n % 2 = 0
        rw [low, Nat.mul_mod_right]
      have marked : toNat ⟨setBit quotient.limbs n, by simp [quotient.eight]⟩ = 2 ^ n * (2 * Q + 1) := by
        rw [toNat, value_setBit (by rw [quotient.eight]; omega) free]
        change quotient.toNat + 2 ^ n = _
        rw [multiple, wider, Nat.mul_add, Nat.mul_one]
      obtain ⟨difference, less_by⟩ := exists_toNat
        (n := 2 * rem.toNat + bitAt self.limbs n - divisor.toNat) (by omega)
      have subtracted : (rem.shlBit (bitAt self.limbs n)).checkedSub divisor = some difference := by
        rw [checkedSub_eq_some]
        omega
      rw [subtracted]
      refine ih (by omega) ⟨?_, ?_, by omega⟩
      · rw [marked, Nat.mul_div_cancel_left _ (Nat.two_pow_pos _), next, less_by, Nat.add_mul,
          Nat.one_mul]
        omega
      · rw [marked, Nat.mul_mod_right]
    case isFalse short =>
      have short : 2 * rem.toNat + bitAt self.limbs n < divisor.toNat := by
        rw [shifted] at short
        exact Nat.compare_eq_lt.mp (not_not.mp short)
      refine ih (by omega) ⟨?_, ?_, by rwa [shifted]⟩
      · rw [shifted, low, next]
      · rw [multiple, wider, Nat.mul_mod_right]

theorem divRem_eq_some {self divisor q r : U512} :
    divRem self divisor = some (q, r) ↔ 0 < divisor.toNat ∧ q.toNat = self.toNat / divisor.toNat ∧
      r.toNat = self.toNat % divisor.toNat := by
  unfold divRem
  split
  case isTrue nothing =>
    rw [isZero_iff] at nothing
    simp [nothing]
  case isFalse something =>
    have positive : 0 < divisor.toNat := Nat.pos_of_ne_zero (isZero_iff.not.mp something)
    suffices found : ∃ q r : U512, (if self.isZero then some (zero, zero)
        else divBits self divisor (topBit self.limbs + 1) (zero, zero)) = some (q, r) ∧
        q.toNat = self.toNat / divisor.toNat ∧ r.toNat = self.toNat % divisor.toNat by
      obtain ⟨quotient, rem, eq, first, second⟩ := found
      rw [eq, Option.some.injEq, Prod.mk.injEq, ← first, ← second]
      constructor
      · rintro ⟨rfl, rfl⟩
        exact ⟨positive, rfl, rfl⟩
      · rintro ⟨-, quotients, rems⟩
        exact ⟨toNat_injective quotients.symm, toNat_injective rems.symm⟩
    split
    case isTrue none =>
      rw [isZero_iff] at none
      exact ⟨zero, zero, rfl, by simp [none], by simp [none]⟩
    case isFalse some =>
      have below : self.toNat < 2 ^ (topBit self.limbs + 1) := lt_topBit
      have inside : topBit self.limbs < 64 * 8 := by
        rw [← self.eight]
        exact topBit_lt (by decide) (List.ne_nil_of_length_pos (by rw [self.eight]; decide))
      have start : Divided self divisor (topBit self.limbs + 1) zero zero :=
        ⟨by simp [Nat.div_eq_of_lt below], by simp, by simpa using positive⟩
      obtain ⟨q, r, eq, above, -, less⟩ := divBits_divided inside start
      simp only [pow_zero, Nat.div_one] at above
      refine ⟨q, r, eq, ?_, ?_⟩
      · rw [above, Nat.add_comm, Nat.add_mul_div_right _ _ positive, Nat.div_eq_of_lt less, Nat.zero_add]
      · rw [above, Nat.add_comm, Nat.add_mul_mod_self_right, Nat.mod_eq_of_lt less]

theorem lt_capacity {k : ℕ} (fits : n < 2 ^ k) (inside : k ≤ 64 * 8) : n < capacity := by
  have wider (m : ℕ) (le : k ≤ m) : n < 2 ^ m := fits.trans_le (Nat.pow_le_pow_right Nat.two_pos le)
  exact wider (64 * 8) inside

theorem exists_checkedMulU128 (fits : a.toNat * v.val < capacity) :
    ∃ c, a.checkedMulU128 v = some c ∧ c.toNat = a.toNat * v.val := by
  obtain ⟨c, same⟩ := exists_toNat fits
  exact ⟨c, checkedMulU128_eq_some.mpr same.symm, same⟩

theorem checkedMulU128_eq_none : a.checkedMulU128 v = none ↔ capacity ≤ a.toNat * v.val := by
  rw [Option.eq_none_iff_forall_ne_some]
  constructor
  · intro refused
    by_contra fits
    obtain ⟨c, made, -⟩ := exists_checkedMulU128 (Nat.lt_of_not_le fits)
    exact refused c made
  · intro exceeds c made
    have room := c.toNat_lt
    rw [← checkedMulU128_eq_some.mp made] at room
    omega

theorem exists_checkedAdd (fits : a.toNat + b.toNat < capacity) :
    ∃ c, a.checkedAdd b = some c ∧ c.toNat = a.toNat + b.toNat := by
  obtain ⟨c, same⟩ := exists_toNat fits
  exact ⟨c, checkedAdd_eq_some.mpr same.symm, same⟩

theorem exists_checkedShl64 (fits : a.toNat * 2 ^ 64 < capacity) :
    ∃ c, a.checkedShl64 = some c ∧ c.toNat = a.toNat * 2 ^ 64 := by
  obtain ⟨c, same⟩ := exists_toNat fits
  exact ⟨c, checkedShl64_eq_some.mpr same.symm, same⟩

theorem exists_divRem (positive : 0 < b.toNat) :
    ∃ q r, a.divRem b = some (q, r) ∧ q.toNat = a.toNat / b.toNat ∧ r.toNat = a.toNat % b.toNat := by
  obtain ⟨q, quotient⟩ := exists_toNat ((Nat.div_le_self a.toNat b.toNat).trans_lt a.toNat_lt)
  obtain ⟨r, rem⟩ := exists_toNat ((Nat.mod_le a.toNat b.toNat).trans_lt a.toNat_lt)
  exact ⟨q, r, divRem_eq_some.mpr ⟨positive, quotient, rem⟩, quotient, rem⟩

theorem divRem_eq_none (nothing : b.toNat = 0) : a.divRem b = none := by
  rw [divRem, if_pos (isZero_iff.mpr nothing)]

end Specs

end U512

end RndRust.Thunder
