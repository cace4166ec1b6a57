import Mathlib.Data.Finset.Basic
import RndRust.Lib.Table

/-! Indexes from a key to the set of elements filed under it. An index inverts a relation when it
files exactly the related elements and keeps no key whose set has run empty. -/
namespace RndRust.Lib

abbrev Index (κ α : Type*) := Table κ (Finset α)

namespace Index

variable {κ α : Type*} [DecidableEq κ] [DecidableEq α] {t : Index κ α} {k j : κ} {c d : α}
  {holds holds' : α → κ → Prop}

/-- The elements filed under a key. -/
def filed (t : Index κ α) (k : κ) : Finset α := (AList.lookup k t).getD ∅

/-- `entry(k).or_default().insert(c)`. -/
def add (t : Index κ α) (k : κ) (c : α) : Index κ α := AList.insert k (insert c (t.filed k)) t

/-- Take an element off a key, and the key off the index with its last element. -/
def discard (t : Index κ α) (k : κ) (c : α) : Index κ α :=
  match AList.lookup k t with
  | none => t
  | some set => if set.erase c = ∅ then AList.erase k t else AList.insert k (set.erase c) t

theorem filed_add : (t.add k c).filed j = if j = k then insert c (t.filed k) else t.filed j := by
  rw [filed, add, Table.lookup_insert_eq]
  split <;> rfl

theorem filed_discard : (t.discard k c).filed j = if j = k then (t.filed k).erase c else t.filed j := by
  unfold discard
  split
  case h_1 missing =>
    split
    case isTrue same =>
      subst same
      simp [filed, missing]
    case isFalse => rfl
  case h_2 set found =>
    have here : t.filed k = set := by rw [filed, found]; rfl
    split
    case isTrue last =>
      rw [filed, Table.lookup_erase_eq, here, last]
      split <;> rfl
    case isFalse more =>
      rw [filed, Table.lookup_insert_eq, here]
      split <;> rfl

/-- The index files exactly the related elements, and no set of it is empty. -/
structure Inverts (t : Index κ α) (holds : α → κ → Prop) : Prop where
  mem : ∀ k c, c ∈ t.filed k ↔ holds c k
  nonempty : ∀ k set, AList.lookup k t = some set → set.Nonempty

omit [DecidableEq α] in
theorem Inverts.empty : Inverts (∅ : Index κ α) fun _ _ => False where
  mem k c := by simp [filed]
  nonempty k set found := by simp at found

omit [DecidableEq α] in
theorem Inverts.congr (inverts : Inverts t holds) (same : ∀ d j, holds' d j ↔ holds d j) :
    Inverts t holds' where
  mem k c := (inverts.mem k c).trans (same c k).symm
  nonempty := inverts.nonempty

theorem Inverts.add (inverts : Inverts t holds) :
    Inverts (t.add k c) fun d j => holds d j ∨ j = k ∧ d = c where
  mem j d := by
    rw [filed_add, ← inverts.mem]
    split
    case isTrue same => simp [same, or_comm]
    case isFalse other => simp [other]
  nonempty j set found := by
    rw [Index.add, Table.lookup_insert_eq] at found
    split at found
    case isTrue =>
      obtain rfl := Option.some.inj found
      exact Finset.insert_nonempty _ _
    case isFalse => exact inverts.nonempty j set found

theorem Inverts.discard (inverts : Inverts t holds) :
    Inverts (t.discard k c) fun d j => holds d j ∧ ¬(j = k ∧ d = c) where
  mem j d := by
    rw [filed_discard, ← inverts.mem]
    split
    case isTrue same => simp [same, and_comm]
    case isFalse other => simp [other]
  nonempty j set found := by
    unfold Index.discard at found
    split at found
    case h_1 => exact inverts.nonempty j set found
    case h_2 =>
      split at found
      case isTrue =>
        rw [Table.lookup_erase_eq] at found
        split at found
        case isTrue => cases found
        case isFalse => exact inverts.nonempty j set found
      case isFalse more =>
        rw [Table.lookup_insert_eq] at found
        split at found
        case isTrue =>
          obtain rfl := Option.some.inj found
          exact Finset.nonempty_iff_ne_empty.mpr more
        case isFalse => exact inverts.nonempty j set found

omit [DecidableEq α] in
/-- Taking the whole key off takes every element off it. -/
theorem Inverts.erase (inverts : Inverts t holds) :
    Inverts (AList.erase k t) fun d j => holds d j ∧ j ≠ k where
  mem j d := by
    rw [← inverts.mem, filed, Table.lookup_erase_eq]
    split
    case isTrue same => simp [same]
    case isFalse other => simp [other, filed]
  nonempty j set found := by
    rw [Table.lookup_erase_eq] at found
    split at found
    case isTrue => cases found
    case isFalse => exact inverts.nonempty j set found

theorem Inverts.addAll (inverts : Inverts t holds) (keys : List κ) :
    Inverts (keys.foldl (fun t k => t.add k c) t) fun d j => holds d j ∨ j ∈ keys ∧ d = c := by
  induction keys generalizing t holds with
  | nil => exact inverts.congr (by simp)
  | cons k keys ih => exact (ih inverts.add).congr (by simp [or_and_right, or_assoc])

theorem Inverts.discardAll (inverts : Inverts t holds) (keys : List κ) :
    Inverts (keys.foldl (fun t k => t.discard k c) t) fun d j => holds d j ∧ ¬(j ∈ keys ∧ d = c) := by
  induction keys generalizing t holds with
  | nil => exact inverts.congr (by simp)
  | cons k keys ih =>
    refine (ih inverts.discard).congr fun d j => ?_
    rw [List.mem_cons]
    tauto

end Index

end RndRust.Lib
