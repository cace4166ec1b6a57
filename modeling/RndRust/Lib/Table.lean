import Mathlib.Data.List.AList

/-! Finite maps whose entries can be visited one by one: association lists with
distinct keys, and what a change of every value does to a lookup. -/
namespace RndRust.Lib

/-- A finite map from `κ` to `α`. -/
abbrev Table (κ α : Type*) := AList fun _ : κ => α

namespace Table

variable {κ α β : Type*} [DecidableEq κ] {k j : κ} {a : α}

/-- Change every value. -/
def mapValues (f : κ → α → β) (t : Table κ α) : Table κ β :=
  ⟨t.entries.map fun e => ⟨e.1, f e.1 e.2⟩, by
    have keys := t.nodupKeys
    simpa [List.NodupKeys, List.keys, Function.comp_def] using keys⟩

/-- The values, in the order they are visited. -/
def values (t : Table κ α) : List α := t.entries.map Sigma.snd

theorem lookup_mapValues (f : κ → α → β) (t : Table κ α) :
    (t.mapValues f).lookup k = (t.lookup k).map (f k) := by
  obtain ⟨entries, keys⟩ := t
  induction entries with
  | nil => rfl
  | cons e entries ih =>
    obtain ⟨j, a⟩ := e
    have rest := ih (List.nodupKeys_cons.mp keys).2
    by_cases same : j = k
    · subst same
      simp [mapValues, AList.lookup, List.dlookup_cons_eq]
    · simpa [mapValues, AList.lookup, List.dlookup_cons_ne, Ne.symm same] using rest

omit [DecidableEq κ] in
@[simp] theorem keys_mapValues (f : κ → α → β) (t : Table κ α) :
    AList.keys (t.mapValues f) = AList.keys t := by
  simp [AList.keys, List.keys, mapValues, Function.comp_def]

theorem mem_values {t : Table κ α} : a ∈ t.values ↔ ∃ k, t.lookup k = some a := by
  constructor
  · intro member
    obtain ⟨⟨k, a⟩, entry, rfl⟩ := List.mem_map.mp member
    exact ⟨k, AList.mem_lookup_iff.mpr entry⟩
  · rintro ⟨k, found⟩
    exact List.mem_map.mpr ⟨⟨k, a⟩, AList.mem_lookup_iff.mp found, rfl⟩

/-- Looking every key up is going through the values. -/
theorem filterMap_keys (t : Table κ α) (f : Option α → Option β) :
    (AList.keys t).filterMap (fun k => f (AList.lookup k t)) = t.values.filterMap (fun a => f (some a)) := by
  simp only [AList.keys, List.keys, values, List.filterMap_map]
  refine List.filterMap_congr fun e entry => ?_
  have found : AList.lookup e.1 t = some e.2 := AList.mem_lookup_iff.mpr entry
  simp [found]

theorem lookup_insert_eq (t : Table κ α) :
    AList.lookup j (AList.insert k a t) = if j = k then some a else AList.lookup j t := by
  split
  · rename_i same
    subst same
    exact AList.lookup_insert t
  · rename_i other
    exact AList.lookup_insert_ne other

theorem lookup_erase_eq (t : Table κ α) :
    AList.lookup j (AList.erase k t) = if j = k then none else AList.lookup j t := by
  split
  · rename_i same
    subst same
    exact AList.lookup_erase j t
  · rename_i other
    exact AList.lookup_erase_ne other

/-- The values after an insertion are the new one and those under other keys. -/
theorem values_insert (t : Table κ α) :
    values (AList.insert k a t) = a :: values (AList.erase k t) := by
  rw [values, values, AList.entries_insert]
  rfl

/-- What a key holds stands among the values, next to those under other keys. -/
theorem values_erase {t : Table κ α} (found : t.lookup k = some a) :
    t.values.Perm (a :: values (AList.erase k t)) := by
  have known : k ∈ t := AList.lookup_isSome.mp (by rw [found]; rfl)
  obtain ⟨b, front, back, -, whole, rest⟩ := List.exists_of_kerase (AList.mem_keys.mp known)
  have own : b = a := by
    have listed : (⟨k, b⟩ : Sigma fun _ : κ => α) ∈ t.entries := by simp [whole]
    rw [AList.mem_lookup_iff.mpr listed] at found
    exact Option.some.inj found
  subst own
  have left : (AList.erase k t).entries = front ++ back := rest
  rw [values, values, left, whole, List.map_append, List.map_cons, List.map_append]
  exact List.perm_middle

theorem values_erase_none {t : Table κ α} (missing : t.lookup k = none) :
    values (AList.erase k t) = t.values := by
  have unknown : k ∉ t.entries.keys := AList.lookup_eq_none.mp missing
  have left : (AList.erase k t).entries = t.entries := List.kerase_of_notMem_keys unknown
  rw [values, values, left]

end Table

end RndRust.Lib
