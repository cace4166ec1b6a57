import Mathlib.Data.List.Basic
import Mathlib.Order.Basic

/-! Greedy thinning: go through a list and keep what nothing kept before rules out. What is left
out is ruled out by something kept in front of it. -/
namespace RndRust.Lib

variable {α : Type*} {R S : α → α → Prop} [DecidableRel R] {kept l : List α} {a : α}

/-- Keep an element unless one that is kept rules it out. -/
def keepFree (R : α → α → Prop) [DecidableRel R] (kept : List α) (a : α) : List α :=
  if ∃ k ∈ kept, R k a then kept else kept ++ [a]

omit [DecidableRel R] in
theorem exists_rules_concat {b : α} : (∃ k ∈ kept ++ [a], R k b) ↔ (∃ k ∈ kept, R k b) ∨ R a b := by
  simp [or_and_right, exists_or]

theorem keepFree_pairwise (apart : kept.Pairwise fun a b => ¬R a b) : (keepFree R kept a).Pairwise fun a b => ¬R a b := by
  unfold keepFree
  split
  case isTrue => exact apart
  case isFalse free =>
    refine List.pairwise_append.mpr ⟨apart, List.pairwise_singleton _ _, fun k listed b last => ?_⟩
    rw [List.mem_singleton.mp last]
    exact fun ruled => free ⟨k, listed, ruled⟩

theorem foldl_keepFree_pairwise (apart : kept.Pairwise fun a b => ¬R a b) :
    (l.foldl (keepFree R) kept).Pairwise fun a b => ¬R a b := by
  induction l generalizing kept with
  | nil => exact apart
  | cons a l ih => exact ih (keepFree_pairwise apart)

/-- **What thinning keeps and what it leaves out**: the kept elements stand as they stood in the
list, and each other one is ruled out by a kept one in front of it. -/
theorem foldl_keepFree (sorted : l.Pairwise S) (before : ∀ k ∈ kept, ∀ a ∈ l, S k a) :
    ∃ taken dropped, l.foldl (keepFree R) kept = kept ++ taken ∧ List.Sublist taken l ∧ (taken ++ dropped).Perm l ∧
      ∀ a ∈ dropped, ∃ k ∈ kept ++ taken, R k a ∧ S k a := by
  induction l generalizing kept with
  | nil => exact ⟨[], [], (List.append_nil kept).symm, .slnil, .refl _, by simp⟩
  | cons a l ih =>
    obtain ⟨first, sorted⟩ := List.pairwise_cons.mp sorted
    rw [List.foldl_cons, keepFree]
    split
    case isTrue ruled =>
      obtain ⟨taken, dropped, folded, sublist, perm, dominated⟩ :=
        ih sorted fun k listed b later => before k listed b (List.mem_cons_of_mem a later)
      refine ⟨taken, a :: dropped, folded, sublist.cons a, (List.perm_middle).trans (perm.cons a), ?_⟩
      obtain ⟨k, listed, rules⟩ := ruled
      exact List.forall_mem_cons.mpr
        ⟨⟨k, List.mem_append_left taken listed, rules, before k listed a List.mem_cons_self⟩, dominated⟩
    case isFalse =>
      obtain ⟨taken, dropped, folded, sublist, perm, dominated⟩ := @ih (kept ++ [a]) sorted fun k listed b later => by
        rcases List.mem_append.mp listed with old | new
        · exact before k old b (List.mem_cons_of_mem a later)
        · exact List.mem_singleton.mp new ▸ first b later
      rw [List.append_assoc, List.singleton_append] at folded dominated
      exact ⟨a :: taken, dropped, folded, sublist.cons_cons a, perm.cons a, dominated⟩

end RndRust.Lib

/-! Greedy matching: go through weighted pairs and take each that has no end in common with one
taken before. From the heaviest pair to the lightest this is stable: a pair that is left out meets
one at least as heavy. -/
namespace RndRust.Lib

variable {α β ω : Type*} {p q : α × β × ω} {pairs taken : List (α × β × ω)}

/-- The pairs have an end in common. -/
def Meet (p q : α × β × ω) : Prop := p.1 = q.1 ∨ p.2.1 = q.2.1

theorem Meet.refl (p : α × β × ω) : Meet p p := .inl rfl

instance [DecidableEq α] [DecidableEq β] (p q : α × β × ω) : Decidable (Meet p q) :=
  inferInstanceAs (Decidable (_ ∨ _))

variable [DecidableEq α] [DecidableEq β]

/-- Take a pair unless it meets one that is taken. -/
def choose (taken : List (α × β × ω)) (p : α × β × ω) : List (α × β × ω) :=
  if ∃ q ∈ taken, Meet p q then taken else p :: taken

theorem mem_choose : q ∈ choose taken p ↔ q ∈ taken ∨ q = p ∧ ∀ r ∈ taken, ¬ Meet p r := by
  unfold choose
  split
  · rename_i met
    refine ⟨.inl, ?_⟩
    rintro (before | ⟨-, free⟩)
    · exact before
    · obtain ⟨r, listed, meet⟩ := met
      exact absurd meet (free r listed)
  · rename_i free
    rw [List.mem_cons, or_comm]
    refine or_congr_right (iff_self_and.mpr fun _ r listed meet => free ⟨r, listed, meet⟩)

theorem foldl_choose_kept (before : q ∈ taken) : q ∈ pairs.foldl choose taken := by
  induction pairs generalizing taken with
  | nil => exact before
  | cons p pairs ih => exact ih (mem_choose.mpr (.inl before))

/-- What is taken was offered. -/
theorem foldl_choose_subset (listed : q ∈ pairs.foldl choose taken) : q ∈ taken ∨ q ∈ pairs := by
  induction pairs generalizing taken with
  | nil => exact .inl listed
  | cons p pairs ih =>
    rcases ih listed with before | later
    · rcases mem_choose.mp before with before | ⟨rfl, -⟩
      · exact .inl before
      · exact .inr List.mem_cons_self
    · exact .inr (List.mem_cons_of_mem _ later)

/-- **Greedy matching is stable**: every pair offered meets one that is taken and at least as heavy. -/
theorem foldl_choose_stable [Preorder ω] (taken : List (α × β × ω)) (sorted : pairs.Pairwise fun p q => q.2.2 ≤ p.2.2)
    (heavier : ∀ q ∈ taken, ∀ p ∈ pairs, p.2.2 ≤ q.2.2) (listed : p ∈ pairs) :
    ∃ q ∈ pairs.foldl choose taken, Meet p q ∧ p.2.2 ≤ q.2.2 := by
  induction pairs generalizing taken with
  | nil => cases listed
  | cons head pairs ih =>
    obtain ⟨lightest, rest⟩ := List.pairwise_cons.mp sorted
    rw [List.foldl_cons]
    rcases List.mem_cons.mp listed with rfl | later
    · by_cases met : ∃ q ∈ taken, Meet p q
      · obtain ⟨q, before, meet⟩ := met
        exact ⟨q, foldl_choose_kept (mem_choose.mpr (.inl before)), meet, heavier q before p List.mem_cons_self⟩
      · have free : ∀ r ∈ taken, ¬ Meet p r := fun r before meet => met ⟨r, before, meet⟩
        exact ⟨p, foldl_choose_kept (mem_choose.mpr (.inr ⟨rfl, free⟩)), .refl p, le_refl _⟩
    · refine ih _ rest (fun q before r after => ?_) later
      rcases mem_choose.mp before with before | ⟨rfl, -⟩
      · exact heavier q before r (List.mem_cons_of_mem _ after)
      · exact lightest r after

end RndRust.Lib
