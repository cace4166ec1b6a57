import Mathlib.Data.List.Pairwise
import Mathlib.Order.Basic
import Mathlib.Order.Lattice

/-! Selections with numbered parameters: conditions that compare a column with a parameter, an order
and a limit. Each condition is added together with the value bound to it, so the values that were
bound before keep their numbers, and the selection means what the conditions say one by one. -/
namespace RndRust.Lib

/-- A value in a cell or bound to a parameter. -/
inductive SqlValue (τ : Type*) where
  | null
  | integer (n : Int64)
  | text (t : τ)
  deriving DecidableEq, Repr

inductive Comparison where
  | eq
  | gt
  | lt
  deriving DecidableEq, Repr

section Values

variable {τ : Type*} [LinearOrder τ]

/-- Integers come before texts, and nothing is less than a null or greater. -/
def SqlValue.less : SqlValue τ → SqlValue τ → Bool
  | .integer m, .integer n => m < n
  | .integer _, .text _ => true
  | .text s, .text t => s < t
  | _, _ => false

/-- A comparison with a null is not true. -/
def Comparison.holds : Comparison → SqlValue τ → SqlValue τ → Bool
  | .eq, a, b => a ≠ .null && a = b
  | .gt, a, b => b.less a
  | .lt, a, b => a.less b

end Values

/-- A comparison of a column with a parameter, counted from 1. -/
structure Condition (κ : Type*) where
  column : κ
  comparison : Comparison
  parameter : ℕ
  deriving DecidableEq, Repr

structure Select (κ τ : Type*) where
  conditions : List (Condition κ) := []
  /-- The parameter that limits the number of rows. -/
  limit : Option ℕ := none
  binds : List (SqlValue τ) := []
  bound : ∀ c ∈ conditions, 1 ≤ c.parameter ∧ c.parameter ≤ binds.length := by simp

/-- Some way to sort rows by a key, the greatest first. Rows with one key come in any order. -/
structure Descending {ρ τ : Type*} [LE τ] (key : ρ → τ) where
  sort : List ρ → List ρ
  perm : ∀ rows, (sort rows).Perm rows
  sorted : ∀ rows, (sort rows).Pairwise fun r s => key s ≤ key r

/-- Sorting that keeps the order of rows with one key. -/
def Descending.stable {ρ τ : Type*} [LinearOrder τ] (key : ρ → τ) : Descending key where
  sort rows := rows.mergeSort fun r s => key s ≤ key r
  perm rows := rows.mergeSort_perm _
  sorted rows := by
    have sorted : (rows.mergeSort fun r s => key s ≤ key r).Pairwise fun r s => decide (key s ≤ key r) :=
      rows.pairwise_mergeSort (fun r s t => by simpa using fun first second => le_trans second first)
        (fun r s => by simpa using le_total (key s) (key r))
    simpa using sorted

namespace Select

variable {κ τ ρ : Type*} (q : Select κ τ)

/-- The value of a parameter. -/
def parameter (number : ℕ) : Option (SqlValue τ) := q.binds[number - 1]?

/-- One more condition, when there is a value for it. -/
def filterBy (column : κ) (comparison : Comparison) : Option (SqlValue τ) → Select κ τ
  | none => q
  | some v =>
    { q with
      conditions := q.conditions ++ [⟨column, comparison, q.binds.length + 1⟩]
      binds := q.binds ++ [v]
      bound := fun c listed => by
        rw [List.length_append, List.length_singleton]
        rcases List.mem_append.mp listed with before | new
        · have bound := q.bound c before
          omega
        · obtain rfl := List.mem_singleton.mp new
          exact ⟨Nat.le_add_left 1 _, Nat.le_refl _⟩ }

/-- The limit, when there is a value for it. -/
def limitTo : Option (SqlValue τ) → Select κ τ
  | none => q
  | some v =>
    { q with
      limit := some (q.binds.length + 1)
      binds := q.binds ++ [v]
      bound := fun c listed => by
        rw [List.length_append, List.length_singleton]
        have bound := q.bound c listed
        omega }

section Rows

variable [LinearOrder τ] (cell : ρ → κ → SqlValue τ) (r : ρ)

def selects : Bool :=
  q.conditions.all fun c => (q.parameter c.parameter).any fun v => c.comparison.holds (cell r c.column) v

/-- The rows in front of the limit; a negative limit is none, and one that is no integer an error. -/
def cut (rows : List ρ) : Option (List ρ) :=
  match q.limit with
  | none => some rows
  | some number =>
    match q.parameter number with
    | some (.integer n) => some (if n < 0 then rows else rows.take n.toNatClampNeg)
    | _ => none

/-- The selection, in the order of a key. -/
def fetchAll {key : ρ → τ} (order : Descending key) (rows : List ρ) : Option (List ρ) :=
  q.cut (order.sort (rows.filter (q.selects cell)))

end Rows

section Meaning

variable [LinearOrder τ] {q} {cell : ρ → κ → SqlValue τ} {r : ρ} {c : Condition κ} {column : κ}
  {comparison : Comparison} {v : SqlValue τ} {value : Option (SqlValue τ)}

theorem selects_iff : q.selects cell r ↔
    ∀ c ∈ q.conditions, ∃ v, q.parameter c.parameter = some v ∧ c.comparison.holds (cell r c.column) v := by
  simp [selects, Option.any_eq_true]

omit [LinearOrder τ] in
/-- What is bound behind the parameters of the conditions does not change their meaning. -/
theorem parameter_append (listed : c ∈ q.conditions) :
    (q.binds ++ [v])[c.parameter - 1]? = q.parameter c.parameter := by
  have bound := q.bound c listed
  exact List.getElem?_append_left (by omega)

/-- A condition is read with the value that was bound with it. -/
theorem selects_filterBy : (q.filterBy column comparison value).selects cell r ↔
    q.selects cell r ∧ ∀ v ∈ value, comparison.holds (cell r column) v := by
  cases value with
  | none => simp [filterBy]
  | some v =>
    have own : (q.filterBy column comparison (some v)).parameter (q.binds.length + 1) = some v := by
      simp [filterBy, parameter]
    have old : ∀ c ∈ q.conditions,
        (q.filterBy column comparison (some v)).parameter c.parameter = q.parameter c.parameter :=
      fun c listed => parameter_append listed
    rw [selects_iff, selects_iff]
    constructor
    · intro all
      constructor
      · intro c listed
        obtain ⟨w, read, holds⟩ := all c (List.mem_append_left _ listed)
        exact ⟨w, old c listed ▸ read, holds⟩
      · rintro _ ⟨⟩
        obtain ⟨w, read, holds⟩ := all _ (List.mem_append_right _ List.mem_cons_self)
        obtain rfl : v = w := Option.some.inj (own.symm.trans read)
        exact holds
    · rintro ⟨all, last⟩ c listed
      rcases List.mem_append.mp listed with before | new
      · rw [old c before]
        exact all c before
      · obtain rfl := List.mem_singleton.mp new
        exact ⟨v, own, last v rfl⟩

theorem selects_limitTo : (q.limitTo value).selects cell r ↔ q.selects cell r := by
  cases value with
  | none => rfl
  | some v =>
    rw [selects_iff, selects_iff]
    refine forall₂_congr fun c listed => ?_
    rw [show (q.limitTo (some v)).parameter c.parameter = q.parameter c.parameter from parameter_append listed]

omit [LinearOrder τ] in
theorem limit_filterBy : (q.filterBy column comparison value).limit = q.limit := by cases value <;> rfl

omit [LinearOrder τ] in
theorem cut_limitTo_none {rows : List ρ} (unlimited : q.limit = none) : (q.limitTo none).cut rows = some rows := by
  simp [cut, limitTo, unlimited]

omit [LinearOrder τ] in
theorem cut_limitTo {n : Int64} {rows : List ρ} :
    (q.limitTo (some (.integer n))).cut rows = some (if n < 0 then rows else rows.take n.toNatClampNeg) := by
  simp [cut, limitTo, parameter]

end Meaning

end Select

end RndRust.Lib
