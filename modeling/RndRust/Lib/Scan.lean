import Mathlib.Data.List.Basic

/-! Reading a list up to a delimiter. Hand-written parsers walk an index forward
while the element under it is admitted; what such a walk consumes, and that it
consumes exactly what a writer put before the delimiter, is stated here once for
every element type. -/
namespace RndRust.Lib

variable {α : Type*} {stop bad : α → Bool} {i j : ℕ} {taken left xs : List α}

/-- Walk from offset `i` until `stop` holds or the input ends. An element that is
`bad` before that ends the walk with its offset. -/
def scan (stop bad : α → Bool) : ℕ → List α → Except ℕ (List α × List α)
  | _, [] => .ok ([], [])
  | i, x :: xs =>
    if stop x then .ok ([], x :: xs)
    else if bad x then .error i
    else match scan stop bad (i + 1) xs with
      | .ok (taken, left) => .ok (x :: taken, left)
      | .error j => .error j

/-- What follows a completed walk: nothing, or an element that stops it. -/
def StopsAt (stop : α → Bool) (left : List α) : Prop := ∀ x ∈ left.head?, stop x = true

@[simp] theorem stopsAt_nil : StopsAt stop [] := by simp [StopsAt]

@[simp] theorem stopsAt_cons {x : α} : StopsAt stop (x :: xs) ↔ stop x = true := by
  simp [StopsAt]

/-- A walk over admitted elements followed by a stop returns exactly them. -/
theorem scan_append (admitted : ∀ x ∈ taken, stop x = false ∧ bad x = false)
    (ends : StopsAt stop left) : scan stop bad i (taken ++ left) = .ok (taken, left) := by
  induction taken generalizing i with
  | nil =>
    cases left with
    | nil => rfl
    | cons x xs => simp [scan, stopsAt_cons.mp ends]
  | cons x taken ih =>
    have head := admitted x (by simp)
    have tail := ih (i := i + 1) (fun y member => admitted y (List.mem_cons_of_mem _ member))
    simp [scan, head, tail]

/-- A completed walk splits its input into admitted elements and a stop. -/
theorem scan_ok (done : scan stop bad i xs = .ok (taken, left)) :
    xs = taken ++ left ∧ (∀ x ∈ taken, stop x = false ∧ bad x = false) ∧ StopsAt stop left := by
  induction xs generalizing i taken with
  | nil =>
    simp only [scan, Except.ok.injEq, Prod.mk.injEq] at done
    obtain ⟨rfl, rfl⟩ := done
    simp
  | cons x xs ih =>
    by_cases stops : stop x = true
    · simp only [scan, stops, ↓reduceIte, Except.ok.injEq, Prod.mk.injEq] at done
      obtain ⟨rfl, rfl⟩ := done
      simp [stops]
    · by_cases refused : bad x = true
      · simp [scan, stops, refused] at done
      · simp only [scan, stops, refused] at done
        cases rest : scan stop bad (i + 1) xs with
        | error j => simp [rest] at done
        | ok pair =>
          obtain ⟨taken', left'⟩ := pair
          simp only [rest, Except.ok.injEq, Prod.mk.injEq, Bool.false_eq_true, ↓reduceIte] at done
          obtain ⟨rfl, rfl⟩ := done
          obtain ⟨rfl, admitted, ends⟩ := ih rest
          refine ⟨rfl, fun y member => ?_, ends⟩
          rcases List.mem_cons.mp member with rfl | member
          · exact ⟨by simpa using stops, by simpa using refused⟩
          · exact admitted y member

section TakeWhile

variable {p : α → Bool}

/-- `takeWhile` over admitted elements followed by a refused one. -/
theorem takeWhile_append_stop (admitted : ∀ x ∈ taken, p x = true)
    (ends : StopsAt (fun x => !p x) left) : (taken ++ left).takeWhile p = taken := by
  induction taken with
  | nil =>
    cases left with
    | nil => rfl
    | cons x xs =>
      have stops : p x = false := by simpa using ends
      simp [stops]
  | cons x taken ih =>
    have tail := ih fun y member => admitted y (List.mem_cons_of_mem _ member)
    simp [admitted x (by simp), tail]

/-- `dropWhile` leaves what follows the admitted elements. -/
theorem dropWhile_append_stop (admitted : ∀ x ∈ taken, p x = true)
    (ends : StopsAt (fun x => !p x) left) : (taken ++ left).dropWhile p = left := by
  have whole := List.takeWhile_append_dropWhile (p := p) (l := taken ++ left)
  rw [takeWhile_append_stop admitted ends] at whole
  exact List.append_cancel_left whole

/-- The first hit of a search stands where the elements before it end. -/
theorem findIdx?_append_hit {x : α} (missed : ∀ y ∈ taken, p y = false) (hit : p x = true) :
    (taken ++ x :: left).findIdx? p = some taken.length := by
  induction taken with
  | nil => simp [List.findIdx?_cons, hit]
  | cons y taken ih =>
    have tail := ih fun z member => missed z (List.mem_cons_of_mem _ member)
    simp [List.findIdx?_cons, missed y (by simp), tail]

end TakeWhile

end RndRust.Lib
