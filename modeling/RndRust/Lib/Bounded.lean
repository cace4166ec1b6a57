import Mathlib.Data.List.Basic
import Mathlib.Data.Nat.Notation

/-! First-in first-out buffers that hold a limited number of items. -/
namespace RndRust.Lib

/-- A buffer for at most `capacity` items, the oldest first. -/
structure Bounded (α : Type*) (capacity : ℕ) where
  items : List α
  fits : items.length ≤ capacity

namespace Bounded

variable {α : Type*} {capacity : ℕ} {xs : List α} {x : α}

def empty : Bounded α capacity := ⟨[], Nat.zero_le _⟩

instance : Inhabited (Bounded α capacity) := ⟨empty⟩

/-- Put items at the end, when there is room for all of them. -/
def push (b : Bounded α capacity) (xs : List α) : Option (Bounded α capacity) :=
  if room : b.items.length + xs.length ≤ capacity then
    some ⟨b.items ++ xs, by rwa [List.length_append]⟩
  else none

/-- Take the oldest items away. -/
def drop (b : Bounded α capacity) (count : ℕ) : Bounded α capacity :=
  ⟨b.items.drop count, Nat.le_trans (by simp) b.fits⟩

/-- Take the oldest item. -/
def pop (b : Bounded α capacity) : Option (α × Bounded α capacity) :=
  b.items.head?.map fun x => (x, b.drop 1)

@[simp] theorem items_empty : (empty : Bounded α capacity).items = [] := rfl

@[simp] theorem items_drop {b : Bounded α capacity} {count : ℕ} : (b.drop count).items = b.items.drop count := rfl

theorem push_eq_some {b c : Bounded α capacity} :
    b.push xs = some c ↔ b.items.length + xs.length ≤ capacity ∧ c.items = b.items ++ xs := by
  obtain ⟨items, fits⟩ := c
  simp only [push, Option.dite_none_right_eq_some, Option.some.injEq, mk.injEq]
  constructor
  · rintro ⟨room, rfl⟩
    exact ⟨room, rfl⟩
  · rintro ⟨room, rfl⟩
    exact ⟨room, rfl⟩

theorem push_eq_none {b : Bounded α capacity} :
    b.push xs = none ↔ capacity < b.items.length + xs.length := by
  simp [push]

theorem pop_eq_some {b c : Bounded α capacity} : b.pop = some (x, c) ↔ b.items = x :: c.items := by
  obtain ⟨items, fits⟩ := b
  obtain ⟨rest, less⟩ := c
  cases items with
  | nil => simp [pop]
  | cons y items => simp [pop, drop]

theorem pop_eq_none {b : Bounded α capacity} : b.pop = none ↔ b.items = [] := by
  simp [pop]

theorem exists_pop {b : Bounded α capacity} (holds : b.items ≠ []) :
    ∃ x c, b.pop = some (x, c) ∧ b.items = x :: c.items := by
  cases popped : b.pop with
  | none => exact absurd (pop_eq_none.mp popped) holds
  | some pair => exact ⟨pair.1, pair.2, rfl, pop_eq_some.mp popped⟩

end Bounded

end RndRust.Lib
