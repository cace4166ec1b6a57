import Mathlib.Algebra.Order.Group.Defs

/-! A register that clients raise in two steps: they read it, and later write what they have read and one
raise more. A write over a register that has moved since then loses a raise for good. -/
namespace RndRust.Lib

variable {M : Type*} [AddCommGroup M] [LinearOrder M] {start raise value v : M} {writes : ℕ} {seen later : M → Prop}

/-- The register is no higher than as many raises as there were writes. Whoever has read it holds its value,
or less than these raises come to. -/
structure Raised (start raise value : M) (writes : ℕ) (seen : M → Prop) : Prop where
  le : value ≤ start + writes • raise
  stale : ∀ v, seen v → v = value ∨ v < start + writes • raise

namespace Raised

theorem initial (nobody : ∀ v, ¬ seen v) : Raised start raise start 0 seen :=
  ⟨by simp, fun v read => absurd read (nobody v)⟩

theorem weaken (raised : Raised start raise value writes seen) (fewer : ∀ v, later v → seen v) :
    Raised start raise value writes later :=
  ⟨raised.le, fun v read => raised.stale v (fewer v read)⟩

theorem read (raised : Raised start raise value writes seen) (more : ∀ v, later v → seen v ∨ v = value) :
    Raised start raise value writes later := by
  refine ⟨raised.le, fun v read => ?_⟩
  rcases more v read with before | now
  · exact raised.stale v before
  · exact .inl now

theorem seen_le (raised : Raised start raise value writes seen) (read : seen v) : v ≤ start + writes • raise := by
  rcases raised.stale v read with rfl | less
  · exact raised.le
  · exact less.le

variable [IsOrderedAddMonoid M]

theorem write (raised : Raised start raise value writes seen) (rises : 0 < raise) (read : seen v) :
    Raised start raise (v + raise) (writes + 1) seen := by
  have more : start + (writes + 1) • raise = start + writes • raise + raise := by rw [succ_nsmul, add_assoc]
  refine ⟨?_, fun u other => .inr ?_⟩
  · rw [more]
    exact add_le_add_left (raised.seen_le read) raise
  · rw [more]
    exact (raised.seen_le other).trans_lt (lt_add_of_pos_right _ rises)

/-- No raise is lost exactly if none was lost before, and what was read is still there. -/
theorem write_full_iff (raised : Raised start raise value writes seen) (read : seen v) :
    v + raise = start + (writes + 1) • raise ↔ value = start + writes • raise ∧ value = v := by
  rw [succ_nsmul, ← add_assoc, add_left_inj]
  constructor
  · intro full
    rcases raised.stale v read with rfl | less
    · exact ⟨full, rfl⟩
    · exact absurd full less.ne
  · rintro ⟨full, rfl⟩
    exact full

end Raised

end RndRust.Lib
