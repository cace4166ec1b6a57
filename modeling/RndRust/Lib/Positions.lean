import Mathlib.Data.List.Nodup

/-! Results matched to items by position. Dropping results moves those behind them, so a
filtered list stands in line with the list it comes from only when nothing is dropped
before something that is kept. -/
namespace RndRust.Lib

variable {α β : Type*} {keep : α → Bool} {xs : List α}

/-- At every position the filtered list holds the item of that position, or nothing and
the item was dropped. -/
def InLine (keep : α → Bool) (xs : List α) : Prop :=
  ∀ (i : ℕ) (x : α), xs[i]? = some x → (xs.filter keep)[i]? = if keep x then some x else none

/-- **Filtering keeps positions** if and only if what is dropped comes last. -/
theorem inLine_iff : InLine keep xs ↔ xs.Pairwise fun a b => keep a = false → keep b = false := by
  induction xs with
  | nil => simp [InLine]
  | cons x xs ih =>
    rw [List.pairwise_cons, ← ih]
    by_cases kept : keep x
    · have shift : ∀ i y, (x :: xs)[i + 1]? = some y ↔ xs[i]? = some y := by simp
      simp only [InLine, List.filter_cons_of_pos kept, kept, Bool.true_eq_false, false_implies, implies_true,
        true_and]
      constructor
      · intro line i y found
        simpa using line (i + 1) y (by simpa using found)
      · intro line i y found
        cases i with
        | zero =>
          obtain rfl : x = y := by simpa using found
          simp [kept]
        | succ i => simpa using line i y (by simpa using found)
    · have dropped : keep x = false := by simpa using kept
      simp only [InLine, List.filter_cons_of_neg kept, dropped, true_implies]
      constructor
      · intro line
        have first : (xs.filter keep)[0]? = none := by simpa [dropped] using line 0 x rfl
        have none : xs.filter keep = [] := List.eq_nil_of_length_eq_zero (by simpa using first)
        have all : ∀ y ∈ xs, keep y = false := by simpa using List.filter_eq_nil_iff.mp none
        refine ⟨all, fun i y found => ?_⟩
        rw [none, all y (List.mem_of_getElem? found)]
        rfl
      · rintro ⟨all, -⟩ i y found
        have none : xs.filter keep = [] := List.filter_eq_nil_iff.mpr fun y member => by simp [all y member]
        rw [none]
        cases i with
        | zero =>
          obtain rfl : x = y := by simpa using found
          simp [dropped]
        | succ i =>
          have member : y ∈ xs := List.mem_of_getElem? (show xs[i]? = some y by simpa using found)
          simp [all y member]

/-- In a list of pairs whose keys are distinct, a key leads to the value beside it. -/
theorem find?_zip {key : α → ℕ} (ys : List β) {i : ℕ} {x : α} (distinct : (xs.map key).Nodup)
    (found : xs[i]? = some x) :
    ((xs.zip ys).find? fun pair => key pair.1 == key x) = ys[i]?.map (x, ·) := by
  induction xs generalizing ys i with
  | nil => simp at found
  | cons first xs ih =>
    rw [List.map_cons, List.nodup_cons] at distinct
    cases ys with
    | nil => simp
    | cons y ys =>
      rw [List.zip_cons_cons, List.find?_cons]
      cases i with
      | zero =>
        obtain rfl : first = x := by simpa using found
        simp
      | succ i =>
        have later : xs[i]? = some x := by simpa using found
        have other : key first ≠ key x := fun same =>
          distinct.1 (same ▸ List.mem_map_of_mem (List.mem_of_getElem? later))
        have missed : (key first == key x) = false := by simpa using other
        simp only [missed, List.getElem?_cons_succ]
        exact ih ys distinct.2 later

theorem find?_zip_none {key : α → ℕ} (ys : List β) {k : ℕ} (missing : k ∉ xs.map key) :
    ((xs.zip ys).find? fun pair => key pair.1 == k) = none := by
  rw [List.find?_eq_none]
  rintro ⟨x, y⟩ member same
  have listed := List.mem_map_of_mem (f := key) (List.of_mem_zip member).1
  rw [beq_iff_eq.mp same] at listed
  exact missing listed

end RndRust.Lib
