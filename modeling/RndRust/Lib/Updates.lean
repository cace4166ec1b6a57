import Mathlib.Algebra.Ring.Nat
import Mathlib.Data.List.Perm.Basic

/-! Lists as tables of entries: what is at a position after an update. -/
namespace RndRust.Lib

variable {α : Type*} {xs : List α} {i j : ℕ} {x y old : α}

theorem getElem?_set_known (known : xs[i]? = some old) :
    (xs.set i y)[j]? = if i = j then some y else xs[j]? := by
  obtain ⟨inside, -⟩ := List.getElem?_eq_some_iff.mp known
  rw [List.getElem?_set, if_pos inside]

theorem getElem?_append_one : (xs ++ [y])[j]? = if j = xs.length then some y else xs[j]? := by
  rcases Nat.lt_trichotomy j xs.length with inside | rfl | outside
  · rw [List.getElem?_append_left inside, if_neg (Nat.ne_of_lt inside)]
  · simp
  · rw [if_neg (Nat.ne_of_gt outside), List.getElem?_eq_none (by simp; omega),
      List.getElem?_eq_none (Nat.le_of_lt outside)]

/-- An entry that is not the one replaced stays. -/
theorem mem_set_known (known : xs[i]? = some old) (other : x ≠ old) (member : x ∈ xs) : x ∈ xs.set i y := by
  obtain ⟨k, found⟩ := List.getElem?_of_mem member
  refine List.mem_of_getElem? (i := k) ?_
  rw [getElem?_set_known known, if_neg]
  · exact found
  · rintro rfl
    rw [known] at found
    exact other (Option.some.inj found).symm

theorem nodup_append_one (fresh : x ∉ xs) (distinct : xs.Nodup) : (xs ++ [x]).Nodup := by
  refine List.nodup_append.mpr ⟨distinct, by simp, fun a member b last => ?_⟩
  rintro rfl
  exact fresh (List.mem_singleton.mp last ▸ member)

/-- Replacing an entry counts it out and the new one in. -/
theorem countP_set_known {p : α → Bool} (known : xs[i]? = some old) :
    (xs.set i y).countP p + (if p old then 1 else 0) = xs.countP p + if p y then 1 else 0 := by
  obtain ⟨inside, here⟩ := List.getElem?_eq_some_iff.mp known
  have there : old ∈ xs := here ▸ List.getElem_mem inside
  rw [List.countP_set inside, here]
  by_cases counts : p old
  · have counted : 0 < xs.countP p := List.countP_pos_iff.mpr ⟨old, there, counts⟩
    rw [if_pos counts]
    omega
  · rw [if_neg counts]
    omega

/-- The entries an update leaves, and the one that it replaces. -/
theorem filterMap_known {β : Type*} {f : α → Option β} (known : xs[i]? = some old) :
    xs.filterMap f = (xs.take i).filterMap f ++ ((f old).toList ++ (xs.drop (i + 1)).filterMap f) := by
  obtain ⟨inside, here⟩ := List.getElem?_eq_some_iff.mp known
  conv_lhs => rw [← List.take_append_drop i xs, List.drop_eq_getElem_cons inside, here]
  rw [List.filterMap_append, List.filterMap_cons]
  cases f old <;> rfl

theorem filterMap_set_known {β : Type*} {f : α → Option β} (known : xs[i]? = some old) :
    (xs.set i y).filterMap f = (xs.take i).filterMap f ++ ((f y).toList ++ (xs.drop (i + 1)).filterMap f) := by
  obtain ⟨inside, -⟩ := List.getElem?_eq_some_iff.mp known
  rw [List.set_eq_take_append_cons_drop, if_pos inside, List.filterMap_append, List.filterMap_cons]
  cases f y <;> rfl

/-- The first entry with a property, when one is changed that keeps it. -/
theorem find?_modify {p : α → Bool} {f : α → α} (keeps : ∀ x, p (f x) = p x) :
    (xs.modify i f).find? p = if xs.findIdx? p = some i then (xs.find? p).map f else xs.find? p := by
  induction xs generalizing i with
  | nil => cases i <;> rfl
  | cons x xs ih =>
    rw [List.findIdx?_cons]
    cases i with
    | zero =>
      rw [List.modify_zero_cons, List.find?_cons, List.find?_cons, keeps]
      cases p x with
      | true => rfl
      | false => simp
    | succ i =>
      rw [List.modify_succ_cons, List.find?_cons, List.find?_cons, ih]
      cases p x with
      | true => simp
      | false => simp

/-- An entry that is not the one taken out stays. -/
theorem mem_eraseIdx_known (known : xs[i]? = some old) (other : x ≠ old) (member : x ∈ xs) : x ∈ xs.eraseIdx i := by
  obtain ⟨k, found⟩ := List.getElem?_of_mem member
  refine List.mem_eraseIdx_iff_getElem?.mpr ⟨k, ?_, found⟩
  rintro rfl
  rw [known] at found
  exact other (Option.some.inj found).symm

/-- What all entries have, a replaced one included that has the same. -/
theorem map_set_known {β : Type*} {f : α → β} (known : xs[i]? = some old) (same : f y = f old) :
    (xs.set i y).map f = xs.map f := by
  obtain ⟨inside, rfl⟩ := List.getElem?_eq_some_iff.mp known
  have still : i < (xs.map f).length := by rwa [List.length_map]
  rw [List.map_set, same, ← List.getElem_map f (h := still), List.set_getElem_self]

/-- The entry taken out and those left are the entries there were. -/
theorem perm_eraseIdx_known (known : xs[i]? = some old) : (old :: xs.eraseIdx i).Perm xs := by
  obtain ⟨inside, rfl⟩ := List.getElem?_eq_some_iff.mp known
  exact List.getElem_cons_eraseIdx_perm inside

/-- Only the entry of a key counts, when there is one for it. -/
theorem sum_of_key {β : Type*} {key : α → β} {weight : α → ℕ} (distinct : (xs.map key).Nodup) (member : x ∈ xs)
    (others : ∀ y ∈ xs, key y ≠ key x → weight y = 0) : (xs.map weight).sum = weight x := by
  obtain ⟨before, after, rfl⟩ := List.append_of_mem member
  rw [List.map_append, List.map_cons] at distinct
  obtain ⟨-, tail, apart⟩ := List.nodup_append.mp distinct
  have none : ∀ y ∈ before ++ after, weight y = 0 := by
    intro y listed
    rcases List.mem_append.mp listed with left | right
    · exact others y (List.mem_append_left _ left) (apart _ (List.mem_map_of_mem left) _ List.mem_cons_self)
    · refine others y (List.mem_append_right _ (List.mem_cons_of_mem _ right)) fun same => ?_
      exact (List.nodup_cons.mp tail).1 (same ▸ List.mem_map_of_mem right)
  have nothing : ∀ ys ⊆ before ++ after, (ys.map weight).sum = 0 := fun ys within =>
    List.sum_eq_zero_iff_forall_eq_nat.mpr <| List.forall_mem_map.mpr fun y listed => none y (within listed)
  have left := nothing before (List.subset_append_left _ _)
  have right := nothing after (List.subset_append_right _ _)
  rw [List.map_append, List.map_cons, List.sum_append, List.sum_cons, left, right]
  omega

end RndRust.Lib

/-! Entries that share keys: how many have a key, and what an entry that comes, changes or goes does to
that number. -/
namespace RndRust.Lib

variable {α κ : Type*} [DecidableEq κ] {key : α → Option κ} {xs : List α} {x y old : α} {k : κ} {i : ℕ}

/-- How many entries have the key. -/
def uses (key : α → Option κ) (xs : List α) (k : κ) : ℕ := xs.countP fun x => key x = some k

@[simp] theorem uses_nil : uses key [] k = 0 := rfl

theorem uses_pos : 0 < uses key xs k ↔ ∃ x ∈ xs, key x = some k := by
  simp [uses, List.countP_pos_iff]

theorem uses_append_one : uses key (xs ++ [y]) k = uses key xs k + if key y = some k then 1 else 0 := by
  simp [uses, List.countP_append, List.countP_singleton]

theorem uses_set (known : xs[i]? = some old) :
    uses key (xs.set i y) k + (if key old = some k then 1 else 0) = uses key xs k + if key y = some k then 1 else 0 := by
  simpa [uses] using countP_set_known (y := y) (p := fun x => decide (key x = some k)) known

theorem uses_eraseIdx (known : xs[i]? = some old) :
    uses key (xs.eraseIdx i) k + (if key old = some k then 1 else 0) = uses key xs k := by
  have counted := (perm_eraseIdx_known known).countP_eq fun x => decide (key x = some k)
  rw [List.countP_cons] at counted
  simpa [uses] using counted

theorem uses_of_mem (member : x ∈ xs) (has : key x = some k) : 0 < uses key xs k := uses_pos.mpr ⟨x, member, has⟩

end RndRust.Lib
