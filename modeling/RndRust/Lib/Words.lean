import Mathlib.Algebra.Ring.Nat
import Mathlib.Data.Fin.Basic
import Mathlib.Data.Nat.Notation

/-! Unsigned machine integers, and the arithmetic on them that notices an overflow. -/
namespace RndRust.Lib

/-- The integers of `w` bits. -/
abbrev Word (w : ℕ) := Fin (2 ^ w)

namespace Word

variable {v w n : ℕ} {a b c : Word w}

/-- The low `w` bits, as a cast keeps them. -/
def wrap (n : ℕ) : Word w := ⟨n % 2 ^ w, Nat.mod_lt _ (Nat.two_pow_pos w)⟩

/-- The number itself, when `w` bits hold it. -/
def tryFrom (n : ℕ) : Option (Word w) := if fits : n < 2 ^ w then some ⟨n, fits⟩ else none

def checkedAdd (a b : Word w) : Option (Word w) := tryFrom (a.val + b.val)

def checkedMul (a b : Word w) : Option (Word w) := tryFrom (a.val * b.val)

def checkedSub (a b : Word w) : Option (Word w) := if b ≤ a then tryFrom (a.val - b.val) else none

def saturatingAdd (a b : Word w) : Word w :=
  ⟨min (a.val + b.val) (2 ^ w - 1), by have := Nat.two_pow_pos w; omega⟩

def saturatingMul (a b : Word w) : Word w :=
  ⟨min (a.val * b.val) (2 ^ w - 1), by have := Nat.two_pow_pos w; omega⟩

def saturatingSub (a b : Word w) : Word w := ⟨a.val - b.val, by omega⟩

/-- A wider integer holds every narrower one. -/
def widen (wider : v ≤ w) (a : Word v) : Word w :=
  ⟨a.val, a.isLt.trans_le (Nat.pow_le_pow_right Nat.two_pos wider)⟩

@[simp] theorem val_wrap : (wrap n : Word w).val = n % 2 ^ w := rfl

@[simp] theorem val_saturatingAdd : (a.saturatingAdd b).val = min (a.val + b.val) (2 ^ w - 1) := rfl

@[simp] theorem val_saturatingMul : (a.saturatingMul b).val = min (a.val * b.val) (2 ^ w - 1) := rfl

@[simp] theorem val_saturatingSub : (a.saturatingSub b).val = a.val - b.val := rfl

@[simp] theorem val_widen {wider : v ≤ w} {a : Word v} : (a.widen wider).val = a.val := rfl

@[simp] theorem tryFrom_eq_some : tryFrom n = some a ↔ n = a.val := by
  unfold tryFrom
  split
  case isTrue fits => simp only [Option.some.injEq, Fin.ext_iff]
  case isFalse outside =>
    simp only [reduceCtorEq, false_iff]
    rintro rfl
    exact outside a.isLt

@[simp] theorem tryFrom_eq_none : (tryFrom n : Option (Word w)) = none ↔ 2 ^ w ≤ n := by
  simp [tryFrom]

@[simp] theorem tryFrom_val : tryFrom a.val = some a := tryFrom_eq_some.mpr rfl

theorem exists_tryFrom_le (le : n ≤ a.val) : ∃ b, tryFrom n = some b ∧ b ≤ a :=
  ⟨⟨n, le.trans_lt a.isLt⟩, tryFrom_eq_some.mpr rfl, le⟩

@[simp] theorem checkedAdd_eq_some : a.checkedAdd b = some c ↔ a.val + b.val = c.val := tryFrom_eq_some

@[simp] theorem checkedMul_eq_some : a.checkedMul b = some c ↔ a.val * b.val = c.val := tryFrom_eq_some

@[simp] theorem checkedSub_eq_some : a.checkedSub b = some c ↔ a.val = c.val + b.val := by
  unfold checkedSub
  split
  case isTrue below =>
    rw [tryFrom_eq_some]
    have := Fin.le_def.mp below
    omega
  case isFalse above =>
    have := Fin.le_def.not.mp above
    simp only [reduceCtorEq, false_iff]
    omega

end Word

end RndRust.Lib
