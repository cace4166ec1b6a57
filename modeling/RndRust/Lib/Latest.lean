import Mathlib.Data.List.Induction

/-! The last entry of a kind, as a loop finds it that reads each one it comes to. -/
namespace RndRust.Lib

variable {α β : Type*} {p : α → Bool} {read : α → Option β} {xs : List α}

/-- What the last entry of the kind reads as, if there is one; `none` where the loop comes to one that it cannot
read. -/
def latest (p : α → Bool) (read : α → Option β) (xs : List α) : Option (Option β) :=
  xs.foldlM (fun found x => if p x then (read x).map some else some found) none

theorem latest_append_one (x : α) :
    latest p read (xs ++ [x]) = (latest p read xs).bind fun found => if p x then (read x).map some else some found := by
  unfold latest
  rw [List.foldlM_append]
  cases xs.foldlM (fun found x => if p x then (read x).map some else some found) none <;> simp

theorem latest_of_unreadable {x : α} (member : x ∈ xs) (is : p x) (not : read x = none) : latest p read xs = none := by
  induction xs using List.reverseRecOn with
  | nil => cases member
  | append_singleton xs last ih =>
    rw [latest_append_one]
    rcases List.mem_append.mp member with before | here
    · rw [ih before, Option.bind_none]
    · cases List.mem_singleton.mp here
      simp [is, not]

theorem latest_of_readable (readable : ∀ x ∈ xs, p x → (read x).isSome) :
    latest p read xs = some ((xs.filter p).getLast?.bind read) := by
  induction xs using List.reverseRecOn with
  | nil => rfl
  | append_singleton xs last ih =>
    rw [latest_append_one, ih fun x member => readable x (List.mem_append_left _ member), Option.bind_some, List.filter_append]
    by_cases is : p last
    · obtain ⟨b, reads⟩ := Option.isSome_iff_exists.mp (readable last (by simp) is)
      simp [is, reads]
    · simp [is]

end RndRust.Lib
