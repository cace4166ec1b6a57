import RndRust.Irc.Proto.Text

/-! Case folding of nicknames and channel names, `casemap.rs`. -/
namespace RndRust.Irc.Proto

inductive Casemap where
  | ascii
  | rfc1459
  | rfc1459Strict
  deriving DecidableEq, Repr

namespace Casemap

/-- `Casemap::fold_byte`. -/
def foldByte (cm : Casemap) (b : UInt8) : UInt8 :=
  let lowered := asciiLowercaseByte b
  match cm with
  | .ascii => lowered
  | .rfc1459 =>
    if lowered = 91 then 123 else if lowered = 93 then 125 else if lowered = 92 then 124 else lowered
  | .rfc1459Strict =>
    if lowered = 91 then 123 else if lowered = 93 then 125 else if lowered = 92 then 124
    else if lowered = 126 then 94 else lowered

/-- `Casemap::fold`. -/
def fold (cm : Casemap) (src : Bytes) : Bytes := src.map cm.foldByte

/-- `Casemap::eq_bytes`. -/
def eqBytes (cm : Casemap) (a b : Bytes) : Bool :=
  a.length == b.length && (a.zip b).all fun (x, y) => cm.foldByte x == cm.foldByte y

/-- `Casemap::token`. -/
def token : Casemap → Bytes
  | .ascii => Proto.ascii "ascii"
  | .rfc1459 => Proto.ascii "rfc1459"
  | .rfc1459Strict => Proto.ascii "rfc1459-strict"

/-- Comparing byte by byte is comparing the folded forms. -/
theorem eqBytes_iff {cm : Casemap} {a b : Bytes} : cm.eqBytes a b = true ↔ cm.fold a = cm.fold b := by
  induction a generalizing b with
  | nil => cases b <;> simp [eqBytes, fold]
  | cons x a ih =>
    cases b with
    | nil => simp [eqBytes, fold]
    | cons y b =>
      have rest := ih (b := b)
      simp only [eqBytes, fold, Bool.and_eq_true, beq_iff_eq] at rest ⊢
      simp only [List.length_cons, Nat.add_right_cancel_iff, List.zip_cons_cons, List.all_cons,
        Bool.and_eq_true, beq_iff_eq, List.map_cons, List.cons.injEq]
      tauto

/-- Folding stays in ASCII and outside it. -/
theorem foldByte_lt {cm : Casemap} {b : UInt8} : cm.foldByte b < 128 ↔ b < 128 := by
  have lowered : asciiLowercaseByte b < 128 ↔ b < 128 := by
    unfold asciiLowercaseByte
    split
    · rename_i upper
      simp only [Bool.and_eq_true, decide_eq_true_eq, UInt8.le_iff_toNat_le] at upper
      rw [UInt8.lt_iff_toNat_lt, UInt8.lt_iff_toNat_lt, UInt8.toNat_add]
      have := upper.2
      simp at upper ⊢
      omega
    · rfl
  rw [← lowered]
  unfold foldByte
  generalize asciiLowercaseByte b = c
  cases cm with
  | ascii => rfl
  | rfc1459 =>
    dsimp only
    split_ifs with l r m
    · simp [l]
    · simp [r]
    · simp [m]
    · rfl
  | rfc1459Strict =>
    dsimp only
    split_ifs with l r m t
    · simp [l]
    · simp [r]
    · simp [m]
    · simp [t]
    · rfl

theorem fold_lt {cm : Casemap} {bytes : Bytes} : (∀ b ∈ cm.fold bytes, b < 128) ↔ ∀ b ∈ bytes, b < 128 := by
  simp [fold, foldByte_lt]

end Casemap

end RndRust.Irc.Proto
