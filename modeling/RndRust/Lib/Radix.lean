import Mathlib.Data.Nat.Digits.Lemmas

/-! Words of digits, the most significant first, written again in another base. Zeros in front are kept, so that
words of different lengths stay apart. -/
namespace RndRust.Lib

variable {b c n k : ℕ} {ds : List ℕ}

/-- The digits of a number without zeros in front. -/
def wordOf (b n : ℕ) : List ℕ := (Nat.digits b n).reverse

/-- The number that a word writes. -/
def valueOf (b : ℕ) (ds : List ℕ) : ℕ := Nat.ofDigits b ds.reverse

/-- A word of base `b` in base `c`. -/
def rebase (b c : ℕ) (ds : List ℕ) : List ℕ :=
  ds.takeWhile (· == 0) ++ wordOf c (valueOf b (ds.dropWhile (· == 0)))

theorem valueOf_wordOf : valueOf b (wordOf b n) = n := by
  rw [valueOf, wordOf, List.reverse_reverse, Nat.ofDigits_digits]

theorem wordOf_head (first : (wordOf b n).head? = some k) : k ≠ 0 := by
  have nonzero : n ≠ 0 := by
    rintro rfl
    simp [wordOf] at first
  rw [wordOf, List.head?_reverse, List.getLast?_eq_some_getLast (Nat.digits_ne_nil_iff_ne_zero.mpr nonzero)] at first
  obtain rfl := Option.some.inj first
  exact Nat.getLast_digit_ne_zero b nonzero

theorem wordOf_valueOf (base : 1 < b) (digits : ∀ d ∈ ds, d < b) (front : ∀ d ∈ ds.head?, d ≠ 0) :
    wordOf b (valueOf b ds) = ds := by
  rw [wordOf, valueOf, Nat.digits_ofDigits b base]
  · exact List.reverse_reverse ds
  · simpa using digits
  · intro some_digit
    rw [List.getLast_reverse]
    exact front _ (List.head?_eq_some_head _)

theorem length_wordOf_le (base : 1 < b) : (wordOf b n).length ≤ k ↔ n < b ^ k := by
  rw [wordOf, List.length_reverse, Nat.digits_length_le_iff base]

theorem wordOf_lt (base : 1 < b) : ∀ d ∈ wordOf b n, d < b := fun _ member =>
  Nat.digits_lt_base base (List.mem_reverse.mp member)

/-- Zeros in front of a word that starts with none. -/
theorem zeros_append (zeros : ∀ d ∈ ds, d = 0) (front : ∀ d ∈ (wordOf b n).head?, d ≠ 0) :
    (ds ++ wordOf b n).takeWhile (· == 0) = ds ∧ (ds ++ wordOf b n).dropWhile (· == 0) = wordOf b n := by
  have all : ∀ d ∈ ds, (d == 0) = true := by simpa using zeros
  rw [List.takeWhile_append_of_pos all, List.dropWhile_append_of_pos all]
  cases word : wordOf b n with
  | nil => simp
  | cons d rest =>
    have : (d == 0) = false := by simpa using front d (by rw [word]; rfl)
    simp [this]

variable (ds) in
theorem zeros_takeWhile : ∀ d ∈ ds.takeWhile (· == 0), d = 0 := fun _ member => by
  simpa using List.all_eq_true.mp List.all_takeWhile _ member

theorem head_dropWhile : ∀ d ∈ (ds.dropWhile (· == 0)).head?, d ≠ 0 := by
  intro d first
  have stops := List.head?_dropWhile_not (· == 0) ds
  rw [Option.mem_def.mp first] at stops
  simpa using stops

/-- Zeros in front add nothing to the number. -/
theorem valueOf_dropWhile : valueOf b (ds.dropWhile (· == 0)) = valueOf b ds := by
  have zeros : (ds.takeWhile (· == 0)).reverse = List.replicate (ds.takeWhile (· == 0)).length 0 :=
    List.eq_replicate_iff.mpr ⟨List.length_reverse, fun d member => zeros_takeWhile ds d (List.mem_reverse.mp member)⟩
  conv_rhs => rw [← @List.takeWhile_append_dropWhile _ (· == 0) ds]
  rw [valueOf, valueOf, List.reverse_append, Nat.ofDigits_append, zeros, Nat.ofDigits_replicate_zero, Nat.mul_zero,
    Nat.add_zero]

/-- Back in its own base a word is what it was. -/
theorem rebase_rebase (base : 1 < b) (digits : ∀ d ∈ ds, d < b) : rebase c b (rebase b c ds) = ds := by
  obtain ⟨zeros, word⟩ := zeros_append (zeros_takeWhile ds) fun d first =>
    wordOf_head (b := c) (n := valueOf b (ds.dropWhile (· == 0))) first
  have rest : ∀ d ∈ ds.dropWhile (· == 0), d < b := fun d member => digits d (List.dropWhile_subset _ member)
  rw [rebase, rebase, zeros, word, valueOf_wordOf, wordOf_valueOf base rest head_dropWhile, List.takeWhile_append_dropWhile]

theorem lengths_add : (ds.takeWhile (· == 0)).length + (ds.dropWhile (· == 0)).length = ds.length := by
  rw [← List.length_append, List.takeWhile_append_dropWhile]

theorem rebase_lt (base : 1 < c) : ∀ d ∈ rebase b c ds, d < c := by
  refine List.forall_mem_append.mpr ⟨fun d member => ?_, wordOf_lt base⟩
  rw [zeros_takeWhile ds d member]
  omega

/-- A smaller base needs no fewer digits. -/
theorem length_le_rebase (base : 1 < c) (smaller : c ≤ b) (digits : ∀ d ∈ ds, d < b) :
    ds.length ≤ (rebase b c ds).length := by
  have rest : ∀ d ∈ ds.dropWhile (· == 0), d < b := fun d member => digits d (List.dropWhile_subset _ member)
  have word := wordOf_valueOf (base.trans_le smaller) rest head_dropWhile
  have written : valueOf b (ds.dropWhile (· == 0)) < c ^ (wordOf c (valueOf b (ds.dropWhile (· == 0)))).length :=
    (length_wordOf_le base).mp le_rfl
  rw [rebase, List.length_append, ← lengths_add]
  refine Nat.add_le_add_left ?_ _
  nth_rewrite 1 [← word]
  exact (length_wordOf_le (base.trans_le smaller)).mpr (written.trans_le (Nat.pow_le_pow_left smaller _))

/-- No more digits are needed than for the largest word of the length. -/
theorem length_rebase_le (base : 1 < c) (smaller : c ≤ b) (digits : ∀ d ∈ ds, d < b) (room : b ^ ds.length ≤ c ^ k) :
    (rebase b c ds).length ≤ k := by
  have rest : ∀ d ∈ ds.dropWhile (· == 0), d < b := fun d member => digits d (List.dropWhile_subset _ member)
  have word := wordOf_valueOf (base.trans_le smaller) rest head_dropWhile
  have below : valueOf b (ds.dropWhile (· == 0)) < b ^ (ds.dropWhile (· == 0)).length :=
    (length_wordOf_le (base.trans_le smaller)).mp (by rw [word])
  rw [← lengths_add, Nat.pow_add] at room
  have front : c ^ (ds.takeWhile (· == 0)).length ≤ b ^ (ds.takeWhile (· == 0)).length := Nat.pow_le_pow_left smaller _
  have fits : (ds.takeWhile (· == 0)).length ≤ k := by
    refine (Nat.pow_le_pow_iff_right base).mp (front.trans (le_trans ?_ room))
    exact Nat.le_mul_of_pos_right _ (Nat.pow_pos (by omega))
  have behind : b ^ (ds.dropWhile (· == 0)).length ≤ c ^ (k - (ds.takeWhile (· == 0)).length) := by
    refine Nat.le_of_mul_le_mul_left ?_ (Nat.pow_pos (n := (ds.takeWhile (· == 0)).length) (by omega : 0 < c))
    rw [← Nat.pow_add, Nat.add_sub_cancel' fits]
    exact (Nat.mul_le_mul_right _ front).trans room
  have short := (length_wordOf_le base).mpr (below.trans_le behind)
  rw [rebase, List.length_append]
  omega

end RndRust.Lib
