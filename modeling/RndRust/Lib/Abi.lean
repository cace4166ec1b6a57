import Mathlib.Algebra.Order.Ring.Int
import Mathlib.Data.Vector.Defs
import Mathlib.Tactic.Ring

/-! The contract ABI of Solidity, as far as integers, addresses, byte strings, arrays and tuples go.
A codec carries the proof that it reads back what it writes; a tuple or an array is laid out as a
head of fixed width, where a value of varying width is replaced by its offset, and a tail. -/
namespace RndRust.Lib.Abi

/-- Big-endian bytes. -/
def beBytes : ℕ → ℕ → List UInt8
  | 0, _ => []
  | count + 1, n => UInt8.ofNat (n / 256 ^ count) :: beBytes count n

/-- A word: 32 bytes. -/
def word (n : ℕ) : List UInt8 := beBytes 32 n

def beValue (bytes : List UInt8) : ℕ := bytes.foldl (fun n b => n * 256 + b.toNat) 0

def readWord (data : List UInt8) : Option ℕ := if 32 ≤ data.length then some (beValue (data.take 32)) else none

section Words

variable {count n : ℕ} {rest : List UInt8}

@[simp] theorem length_beBytes : (beBytes count n).length = count := by
  induction count with
  | zero => rfl
  | succ count ih => simp [beBytes, ih]

@[simp] theorem length_word : (word n).length = 32 := length_beBytes

theorem foldl_beBytes (high : ℕ) :
    (beBytes count n).foldl (fun n b => n * 256 + b.toNat) high = high * 256 ^ count + n % 256 ^ count := by
  induction count generalizing high with
  | zero => simp [beBytes, Nat.mod_one]
  | succ count ih =>
    rw [beBytes, List.foldl_cons, ih, Nat.mod_pow_succ, UInt8.toNat_ofNat']
    have digit : n / 256 ^ count % 2 ^ 8 = n / 256 ^ count % 256 := rfl
    rw [digit]
    ring

/-- A word is read back, whatever follows it. -/
theorem readWord_word (fits : n < 2 ^ 256) : readWord (word n ++ rest) = some n := by
  have front : (word n ++ rest).take 32 = word n := List.take_left' length_word
  rw [readWord, front, if_pos (by simp), word, beValue, foldl_beBytes]
  have width : (256 : ℕ) ^ 32 = 2 ^ 256 := by norm_num
  rw [width, Nat.mod_eq_of_lt fits, Nat.zero_mul, Nat.zero_add]

end Words

/-- How the values of one type are written and read. -/
structure Codec (α : Type*) where
  /-- The width varies. -/
  dynamic : Bool
  /-- The width, where it does not. -/
  size : ℕ
  Valid : α → Prop
  encode : α → List UInt8
  decode : List UInt8 → Option α
  length_encode : dynamic = false → ∀ a, Valid a → (encode a).length = size
  aligned : ∀ a, Valid a → 32 ∣ (encode a).length
  decode_encode : ∀ a rest, Valid a → (encode a).length < 2 ^ 256 → decode (encode a ++ rest) = some a

namespace Codec

/-- `uint<bits>`. -/
def uint (bits : ℕ) (small : bits ≤ 256) : Codec ℕ where
  dynamic := false
  size := 32
  Valid n := n < 2 ^ bits
  encode := word
  decode data := (readWord data).filter (· < 2 ^ bits)
  length_encode _ _ _ := length_word
  aligned _ _ := by simp
  decode_encode n rest valid _ := by
    have fits : n < 2 ^ 256 := valid.trans_le (Nat.pow_le_pow_right Nat.two_pos small)
    simp [readWord_word fits, valid]

/-- A number of 256 bits as a signed one. -/
def toSigned (n : ℕ) : ℤ := if n < 2 ^ 255 then n else (n : ℤ) - 2 ^ 256

/-- `int<bits>`, in two's complement. -/
def int (bits : ℕ) (small : bits ≤ 256) : Codec ℤ where
  dynamic := false
  size := 32
  Valid z := -2 ^ (bits - 1) ≤ z ∧ z < 2 ^ (bits - 1)
  encode z := word (z % 2 ^ 256).toNat
  decode data := ((readWord data).map toSigned).filter fun z => -2 ^ (bits - 1) ≤ z ∧ z < 2 ^ (bits - 1)
  length_encode _ _ _ := length_word
  aligned _ _ := by simp
  decode_encode z rest valid _ := by
    have bound : (2 : ℤ) ^ (bits - 1) ≤ 2 ^ 255 := pow_le_pow_right₀ (by norm_num) (by omega)
    have fits : (z % 2 ^ 256).toNat < 2 ^ 256 := by omega
    have back : toSigned (z % 2 ^ 256).toNat = z := by
      unfold toSigned
      split <;> omega
    rw [readWord_word fits, Option.map_some, back]
    simp [valid]

/-- 20 bytes, on the right of a word. -/
def address : Codec {bytes : List UInt8 // bytes.length = 20} where
  dynamic := false
  size := 32
  Valid _ := True
  encode a := List.replicate 12 0 ++ a.val
  decode data :=
    if enough : 32 ≤ data.length ∧ data.take 12 = List.replicate 12 0 then
      some ⟨(data.drop 12).take 20, by rw [List.length_take, List.length_drop]; omega⟩
    else none
  length_encode _ a _ := by simp [a.property]
  aligned a _ := by simp [a.property]
  decode_encode a rest _ _ := by
    have width := a.property
    have enough : 32 ≤ (List.replicate 12 0 ++ a.val ++ rest).length ∧
        (List.replicate 12 0 ++ a.val ++ rest).take 12 = List.replicate 12 0 := by
      refine ⟨by simp only [List.length_append, List.length_replicate]; omega, ?_⟩
      rw [List.append_assoc, List.take_left' (by simp)]
    have value : ((List.replicate 12 0 ++ a.val ++ rest).drop 12).take 20 = a.val := by
      rw [List.append_assoc, List.drop_left' (by simp), List.take_left' width]
    rw [dif_pos enough, Option.some.injEq, Subtype.ext_iff]
    exact value

/-- What fills up the last word. -/
def padding (length : ℕ) : List UInt8 := List.replicate ((32 - length % 32) % 32) 0

theorem dvd_padding (length : ℕ) : 32 ∣ length + (padding length).length := by
  rw [padding, List.length_replicate]
  omega

/-- `bytes`: the length, and the bytes filled up to whole words. -/
def bytes : Codec (List UInt8) where
  dynamic := true
  size := 32
  Valid _ := True
  encode b := word b.length ++ (b ++ padding b.length)
  decode data := do
    let length ← readWord data
    if 32 + length ≤ data.length then some ((data.drop 32).take length) else none
  length_encode static := by cases static
  aligned b _ := by
    rw [List.length_append, List.length_append, length_word]
    exact (Nat.dvd_add_right (Nat.dvd_refl 32)).mpr (dvd_padding _)
  decode_encode b rest _ fits := by
    rw [List.length_append, List.length_append, length_word] at fits
    rw [List.append_assoc, readWord_word (by omega)]
    simp only [Option.bind_eq_bind, Option.bind_some]
    rw [if_pos (by simp only [List.length_append, length_word]; omega), List.drop_left' length_word,
      List.append_assoc, List.take_left' rfl]

section Layout

variable {α : Type*} (c : Codec α) (a : α)

/-- The width of a value in a head. -/
def headSize : ℕ := if c.dynamic then 32 else c.size

/-- What stands in the head: the value, or where the tail has it. -/
def head (offset : ℕ) : List UInt8 := if c.dynamic then word offset else c.encode a

/-- What stands in the tail. -/
def tail : List UInt8 := if c.dynamic then c.encode a else []

/-- Read the value that `position` in a head is about. -/
def readAt (data : List UInt8) (position : ℕ) : Option α :=
  if c.dynamic then (readWord (data.drop position)).bind fun offset => c.decode (data.drop offset)
  else c.decode (data.drop position)

variable {c a}

theorem length_head {offset : ℕ} (valid : c.Valid a) : (c.head a offset).length = c.headSize := by
  unfold head headSize
  split
  · exact length_word
  · rename_i static
    exact c.length_encode (by simpa using static) a valid

theorem aligned_tail (valid : c.Valid a) : 32 ∣ (c.tail a).length := by
  unfold tail
  split
  · exact c.aligned a valid
  · exact Nat.dvd_zero 32

theorem aligned_head {offset : ℕ} (valid : c.Valid a) : 32 ∣ (c.head a offset).length := by
  unfold head
  split
  · exact Dvd.intro 1 length_word.symm
  · exact c.aligned a valid

/-- A value is read where it was laid out. -/
theorem readAt_layout {front middle rest : List UInt8} {offset : ℕ} (valid : c.Valid a)
    (here : offset = front.length + c.headSize + middle.length) (fits : offset + (c.tail a).length < 2 ^ 256) :
    c.readAt (front ++ c.head a offset ++ middle ++ (c.tail a ++ rest)) front.length = some a := by
  have before : (front ++ c.head a offset ++ middle).length = offset := by
    rw [List.length_append, List.length_append, length_head valid, here]
  cases kind : c.dynamic with
  | true =>
    have tail : c.tail a = c.encode a := by simp [Codec.tail, kind]
    have head : c.head a offset = word offset := by simp [Codec.head, kind]
    rw [tail] at fits ⊢
    have found : (front ++ c.head a offset ++ middle ++ (c.encode a ++ rest)).drop front.length =
        word offset ++ (middle ++ (c.encode a ++ rest)) := by
      rw [head, List.append_assoc, List.append_assoc, List.drop_left' rfl]
    have target : (front ++ c.head a offset ++ middle ++ (c.encode a ++ rest)).drop offset = c.encode a ++ rest :=
      List.drop_left' before
    rw [readAt, if_pos kind, found, readWord_word (by omega), Option.bind_some, target]
    exact c.decode_encode a rest valid (by omega)
  | false =>
    have head : c.head a offset = c.encode a := by simp [Codec.head, kind]
    have width : (c.encode a).length = c.headSize := by rw [← head, length_head valid]
    have found : (front ++ c.head a offset ++ middle ++ (c.tail a ++ rest)).drop front.length =
        c.encode a ++ (middle ++ (c.tail a ++ rest)) := by
      rw [head, List.append_assoc, List.append_assoc, List.drop_left' rfl]
    rw [readAt, if_neg (by simp [kind]), found]
    exact c.decode_encode a _ valid (by omega)

end Layout

end Codec

/-- How the components of a tuple are laid out. -/
structure Fields (α : Type*) where
  dynamic : Bool
  headSize : ℕ
  Valid : α → Prop
  /-- The heads, where the first tail starts at the offset given. -/
  heads : ℕ → α → List UInt8
  tails : α → List UInt8
  read : List UInt8 → ℕ → Option α
  length_heads : ∀ offset a, Valid a → (heads offset a).length = headSize
  length_tails : dynamic = false → ∀ a, (tails a).length = 0
  aligned : ∀ offset a, Valid a → 32 ∣ (heads offset a).length ∧ 32 ∣ (tails a).length
  read_layout : ∀ a front middle rest offset, Valid a → offset = front.length + headSize + middle.length →
    offset + (tails a).length < 2 ^ 256 →
    read (front ++ heads offset a ++ middle ++ (tails a ++ rest)) front.length = some a

namespace Fields

variable {α β : Type*}

/-- No components. -/
def nil : Fields Unit where
  dynamic := false
  headSize := 0
  Valid _ := True
  heads _ _ := []
  tails _ := []
  read _ _ := some ()
  length_heads _ _ _ := rfl
  length_tails _ _ := rfl
  aligned _ _ _ := ⟨Nat.dvd_zero 32, Nat.dvd_zero 32⟩
  read_layout _ _ _ _ _ _ _ _ := rfl

/-- One component more, in front. -/
def cons (c : Codec α) (f : Fields β) : Fields (α × β) where
  dynamic := c.dynamic || f.dynamic
  headSize := c.headSize + f.headSize
  Valid p := c.Valid p.1 ∧ f.Valid p.2
  heads offset p := c.head p.1 offset ++ f.heads (offset + (c.tail p.1).length) p.2
  tails p := c.tail p.1 ++ f.tails p.2
  read data position :=
    (c.readAt data position).bind fun a => (f.read data (position + c.headSize)).map fun b => (a, b)
  length_heads offset p valid := by
    rw [List.length_append, Codec.length_head valid.1, f.length_heads _ _ valid.2]
  length_tails static p := by
    simp only [Bool.or_eq_false_iff] at static
    rw [List.length_append, f.length_tails static.2, Codec.tail, if_neg (by simp [static.1])]
    rfl
  aligned offset p valid := by
    have rest := f.aligned (offset + (c.tail p.1).length) p.2 valid.2
    rw [List.length_append, List.length_append]
    exact ⟨Nat.dvd_add (Codec.aligned_head valid.1) rest.1, Nat.dvd_add (Codec.aligned_tail valid.1) rest.2⟩
  read_layout p front middle rest offset valid here fits := by
    obtain ⟨a, b⟩ := p
    dsimp only at valid fits ⊢
    rw [List.length_append] at fits
    have headLength : (c.head a offset).length = c.headSize := Codec.length_head valid.1
    have headsLength := f.length_heads (offset + (c.tail a).length) b valid.2
    -- The component's own head and tail, then the others with these before and between.
    have first : front ++ (c.head a offset ++ f.heads (offset + (c.tail a).length) b) ++ middle ++
        (c.tail a ++ f.tails b ++ rest) =
        front ++ c.head a offset ++ (f.heads (offset + (c.tail a).length) b ++ middle) ++
          (c.tail a ++ (f.tails b ++ rest)) := by simp only [List.append_assoc]
    have others : front ++ (c.head a offset ++ f.heads (offset + (c.tail a).length) b) ++ middle ++
        (c.tail a ++ f.tails b ++ rest) =
        (front ++ c.head a offset) ++ f.heads (offset + (c.tail a).length) b ++ (middle ++ c.tail a) ++
          (f.tails b ++ rest) := by simp only [List.append_assoc]
    have here₁ : offset = front.length + c.headSize + (f.heads (offset + (c.tail a).length) b ++ middle).length := by
      rw [List.length_append, headsLength]
      omega
    have here₂ : offset + (c.tail a).length =
        (front ++ c.head a offset).length + f.headSize + (middle ++ c.tail a).length := by
      rw [List.length_append, List.length_append, headLength]
      omega
    have one : c.readAt (front ++ c.head a offset ++ (f.heads (offset + (c.tail a).length) b ++ middle) ++
        (c.tail a ++ (f.tails b ++ rest))) front.length = some a := Codec.readAt_layout valid.1 here₁ (by omega)
    have more := f.read_layout b _ _ rest _ valid.2 here₂ (by omega)
    rw [List.length_append, headLength, ← others] at more
    rw [← first] at one
    rw [one, Option.bind_some, more, Option.map_some]

/-- The same layout for values that stand for others. -/
def via (f : Fields β) (into : α → β) (back : β → α) (same : ∀ a, back (into a) = a) : Fields α where
  dynamic := f.dynamic
  headSize := f.headSize
  Valid a := f.Valid (into a)
  heads offset a := f.heads offset (into a)
  tails a := f.tails (into a)
  read data position := (f.read data position).map back
  length_heads offset a := f.length_heads offset (into a)
  length_tails static a := f.length_tails static (into a)
  aligned offset a := f.aligned offset (into a)
  read_layout a front middle rest offset valid here fits := by
    rw [f.read_layout (into a) front middle rest offset valid here fits, Option.map_some, same]

/-- A number of components of one type. -/
def repeated (c : Codec α) : (count : ℕ) → Fields (List.Vector α count)
  | 0 => nil.via (fun _ => ()) (fun _ => .nil) fun ⟨_, empty⟩ => Subtype.ext (List.eq_nil_of_length_eq_zero empty).symm
  | count + 1 => (cons c (repeated c count)).via (fun as => (as.head, as.tail)) (fun p => .cons p.1 p.2)
      List.Vector.cons_head_tail

theorem repeated_valid {c : Codec α} {count : ℕ} {as : List.Vector α count} (valid : ∀ a ∈ as.toList, c.Valid a) :
    (repeated c count).Valid as := by
  induction count with
  | zero => trivial
  | succ count ih =>
    obtain ⟨_ | ⟨a, as⟩, size⟩ := as
    · cases size
    · exact ⟨valid a List.mem_cons_self, ih fun b listed => valid b (List.mem_cons_of_mem _ listed)⟩

end Fields

namespace Codec

variable {α : Type*}

/-- A tuple. -/
def tuple (f : Fields α) : Codec α where
  dynamic := f.dynamic
  size := f.headSize
  Valid := f.Valid
  encode a := f.heads f.headSize a ++ f.tails a
  decode data := f.read data 0
  length_encode static a valid := by
    rw [List.length_append, f.length_heads _ a valid, f.length_tails static]
    rfl
  aligned a valid := by
    rw [List.length_append]
    exact Nat.dvd_add (f.aligned _ a valid).1 (f.aligned f.headSize a valid).2
  decode_encode a rest valid fits := by
    rw [List.length_append, f.length_heads _ a valid] at fits
    simpa using f.read_layout a [] [] rest f.headSize valid (by simp) fits

/-- `T[]`: the number of elements, and then these as a tuple. -/
def array (c : Codec α) : Codec (List α) where
  dynamic := true
  size := 32
  Valid as := as.length < 2 ^ 256 ∧ ∀ a ∈ as, c.Valid a
  encode as := word as.length ++ (tuple (.repeated c as.length)).encode ⟨as, rfl⟩
  decode data := (readWord data).bind fun count =>
    ((tuple (.repeated c count)).decode (data.drop 32)).map List.Vector.toList
  length_encode static := by cases static
  aligned as valid := by
    rw [List.length_append, length_word]
    exact (Nat.dvd_add_right (Nat.dvd_refl 32)).mpr
      ((tuple (.repeated c as.length)).aligned ⟨as, rfl⟩ (Fields.repeated_valid valid.2))
  decode_encode as rest valid fits := by
    rw [List.length_append, length_word] at fits
    rw [List.append_assoc, readWord_word valid.1, Option.bind_some, List.drop_left' length_word,
      (tuple (.repeated c as.length)).decode_encode ⟨as, rfl⟩ rest (Fields.repeated_valid valid.2) (by omega)]
    rfl

end Codec

end RndRust.Lib.Abi
