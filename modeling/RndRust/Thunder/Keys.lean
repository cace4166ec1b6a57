import RndRust.Lib.Radix
import RndRust.Thunder.Clmm.SwapMath

/-! Keys and amounts as text: `Pubkey::from_str` in base 58, and `str::parse` of an amount. What is displayed is read
back. -/
namespace RndRust.Thunder
open Lib Clmm

section Keys

/-- `Pubkey::from_str`. -/
def fromStr (s : String) : Except String Pubkey :=
  if 44 < s.length then .error "String is the wrong size"
  else if s.toList.all (· ∈ base58Alphabet) then
    let bytes := rebase 58 256 (s.toList.map base58Alphabet.idxOf)
    if bytes.length = 32 then .ok (bytes.map UInt8.ofNat) else .error "String is the wrong size"
  else .error "Invalid Base58 string"

variable {key : Pubkey} {n : ℕ}

theorem fromLeBytes_eq_ofDigits (bytes : Bytes) : fromLeBytes bytes = Nat.ofDigits 256 (bytes.map UInt8.toNat) := by
  induction bytes with
  | nil => rfl
  | cons b bytes ih => rw [fromLeBytes, List.map_cons, Nat.ofDigits_cons, ih]

/-- The digit of a place in the alphabet. -/
def base58Digit (d : ℕ) : Char := base58Alphabet.getD d '1'

theorem base58Digit_listed (digit : n < 58) :
    base58Digit n ∈ base58Alphabet ∧ base58Alphabet.idxOf (base58Digit n) = n := by
  revert n
  decide +kernel

theorem takeWhile_toNat : (key.map UInt8.toNat).takeWhile (· == 0) = (key.takeWhile (· == 0)).map UInt8.toNat := by
  rw [List.takeWhile_map]
  congr 2
  funext b
  exact Bool.eq_iff_iff.mpr (by simp [← UInt8.toNat_inj])

/-- A key is displayed as its bytes are written in base 58. -/
theorem display_eq : display key = String.ofList ((rebase 256 58 (key.map UInt8.toNat)).map base58Digit) := by
  have value : fromLeBytes key.reverse = valueOf 256 (key.map UInt8.toNat) := by
    rw [fromLeBytes_eq_ofDigits, List.map_reverse, valueOf]
  have ones : ((key.takeWhile (· == 0)).map UInt8.toNat).map base58Digit
      = List.replicate (key.takeWhile (· == 0)).length '1' := by
    refine List.eq_replicate_iff.mpr ⟨by simp, ?_⟩
    simp only [List.forall_mem_map]
    intro b member
    obtain rfl : b = 0 := by simpa using List.all_eq_true.mp List.all_takeWhile _ member
    decide
  rw [rebase, valueOf_dropWhile, takeWhile_toNat, List.map_append, ones, ← value]
  rfl

theorem length_display (long : key.length = 32) : 32 ≤ (display key).length ∧ (display key).length ≤ 44 := by
  have bytes : ∀ d ∈ key.map UInt8.toNat, d < 256 := by
    simp only [List.forall_mem_map]
    exact fun b _ => b.toNat_lt
  rw [display_eq, String.length_ofList, List.length_map]
  constructor
  · have := length_le_rebase (c := 58) (b := 256) (by decide) (by decide) bytes
    rwa [List.length_map, long] at this
  · refine length_rebase_le (by decide) (by decide) bytes ?_
    rw [List.length_map, long]
    decide +kernel

/-- A key is read back from its text. -/
theorem fromStr_display (long : key.length = 32) : fromStr (display key) = .ok key := by
  have bytes : ∀ d ∈ key.map UInt8.toNat, d < 256 := by
    simp only [List.forall_mem_map]
    exact fun b _ => b.toNat_lt
  have digits : ∀ d ∈ rebase 256 58 (key.map UInt8.toNat), d < 58 := rebase_lt (by decide)
  have listed : (display key).toList.all (· ∈ base58Alphabet) := by
    rw [display_eq, String.toList_ofList]
    simp only [List.all_map, List.all_eq_true, Function.comp_apply, decide_eq_true_eq]
    exact fun d member => (base58Digit_listed (digits d member)).1
  have places : (display key).toList.map base58Alphabet.idxOf = rebase 256 58 (key.map UInt8.toNat) := by
    rw [display_eq, String.toList_ofList, List.map_map]
    exact List.map_congr_left (fun d member => (base58Digit_listed (digits d member)).2) |>.trans (List.map_id _)
  rw [fromStr, if_neg (Nat.not_lt.mpr (length_display long).2), if_pos listed, places,
    rebase_rebase (by decide) bytes]
  have back : UInt8.ofNat ∘ UInt8.toNat = id := funext fun _ => UInt8.ofNat_toNat
  simp [long, back]

end Keys

section Amounts

/-- `str::parse::<u64>`. -/
def parseU64 (s : String) : Except String U64 :=
  let digits := if s.toList.head? = some '+' then s.toList.tail else s.toList
  if s = "" then .error "cannot parse integer from empty string"
  else if digits = [] ∨ ¬digits.all Char.isDigit then .error "invalid digit found in string"
  else okOr (Word.tryFrom (Nat.ofDigitChars 10 digits 0)) "number too large to fit in target type"

/-- An amount is read back from its text. -/
theorem parseU64_repr (n : U64) : parseU64 n.val.repr = .ok n := by
  have digits : ∀ c ∈ n.val.repr.toList, c.isDigit := by
    rw [Nat.toList_repr]
    exact fun c member => Nat.isDigit_of_mem_toDigits (by decide) (by decide) member
  have some_digit : n.val.repr.toList ≠ [] := by
    rw [Nat.toList_repr]
    exact Nat.toDigits_ne_nil
  have unsigned : n.val.repr.toList.head? ≠ some '+' := by
    intro plus
    exact absurd (digits '+' (List.mem_of_mem_head? plus)) (by decide)
  have all : n.val.repr.toList.all Char.isDigit := List.all_eq_true.mpr digits
  rw [parseU64, if_neg unsigned, if_neg Nat.repr_ne_empty,
    if_neg fun wrong => wrong.elim some_digit fun other => other all, Nat.toList_repr,
    Nat.ofDigitChars_ten_toDigits, Word.tryFrom_val, okOr]

end Amounts

end RndRust.Thunder
