import Mathlib.Data.List.Induction
import RndRust.Makana.Elm327

/-! The trouble codes of a mode-03 reply, `decode_dtcs` of `elm327.rs` and `Dtc` of `common`. A reply
holds groups, one for each ECU, that open with the byte 0x43. -/
namespace RndRust.Makana

inductive DtcSystem where
  | powertrain
  | chassis
  | body
  | network
  deriving DecidableEq, Repr

structure Dtc where
  system : DtcSystem
  code : UInt16
  deriving DecidableEq, Repr

/-- `Dtc::from_bytes`: two bits of system and four digits. -/
def Dtc.fromBytes (a b : UInt8) : Dtc :=
  let digit1 := ((a >>> 4) &&& 3).toUInt16
  let digit2 := (a &&& 0x0F).toUInt16
  let digit3 := ((b >>> 4) &&& 0x0F).toUInt16
  let digit4 := (b &&& 0x0F).toUInt16
  { system := match (a >>> 6) &&& 3 with
      | 0 => .powertrain
      | 1 => .chassis
      | 2 => .body
      | _ => .network
    code := (digit1 <<< 12) ||| (digit2 <<< 8) ||| (digit3 <<< 4) ||| digit4 }

/-- The byte that a group opens with. -/
abbrev groupMark : UInt8 := 0x43

/-- The codes found so far with one more, unless it has been `seen`. -/
def record (out : List Dtc) (dtc : Dtc) : List Dtc := if dtc ∈ out then out else out ++ [dtc]

/-- The inner loop of `decode_dtcs`, from behind the mark of a group: the codes and what is left. -/
def readGroup : List Dtc → List UInt8 → List Dtc × List UInt8
  | out, a :: b :: rest =>
    if a = groupMark then (out, a :: b :: rest)
    else if a = 0 ∧ b = 0 then (out, rest.dropWhile (· ≠ groupMark))
    else readGroup (record out (.fromBytes a b)) rest
  | out, bytes => (out, bytes)

theorem readGroup_length (out : List Dtc) (bytes : List UInt8) : (readGroup out bytes).2.length ≤ bytes.length := by
  fun_induction readGroup out bytes with
  | case1 => exact Nat.le_refl _
  | case2 _ _ _ rest =>
    have dropped := (List.dropWhile_sublist (l := rest) (· ≠ groupMark)).length_le
    simp only [List.length_cons]
    omega
  | case3 _ _ _ _ _ _ ih =>
    simp only [List.length_cons]
    omega
  | case4 => exact Nat.le_refl _

/-- The outer loop on the bytes of a line. -/
def readLine (out : List Dtc) : List UInt8 → List Dtc
  | [] => out
  | b :: rest =>
    if b = groupMark then
      let group := readGroup out rest
      readLine group.1 group.2
    else readLine out rest
  termination_by bytes => bytes.length
  decreasing_by
    · exact Nat.lt_succ_of_le (readGroup_length out rest)
    · exact Nat.lt_succ_self _

/-- `decode_dtcs`. -/
def decodeDtcs (reply : Bytes) : List Dtc := (lines reply).foldl (fun out line => readLine out (hexBytes line)) []

/-- A group as an ECU sends it: its codes, and pairs of zeros to fill up. -/
structure EcuGroup where
  codes : List (UInt8 × UInt8)
  padding : ℕ := 0
  nonzero : ∀ code ∈ codes, code ≠ (0, 0)

def EcuGroup.bytes (g : EcuGroup) : List UInt8 :=
  groupMark :: (g.codes.flatMap (fun code => [code.1, code.2]) ++ List.replicate (2 * g.padding) 0)

/-- Two hexadecimal digits a byte, with spaces anywhere. -/
def Spells (text : Bytes) (bytes : List UInt8) : Prop :=
  (text.filter (· ≠ 32)).map hexDigit = bytes.flatMap fun b => [some (b / 16), some (b % 16)]

/-- The lines of a reply spell the groups, any number of them on a line. -/
def LaysOut (reply : Bytes) (groups : List EcuGroup) : Prop :=
  ∃ rows : List (List EcuGroup),
    List.Forall₂ (fun line row => Spells line (row.flatMap EcuGroup.bytes)) (lines reply) rows ∧ groups = rows.flatten

/-- The codes of some groups, each where it appears first. -/
def distinctDtcs (groups : List EcuGroup) : List Dtc :=
  ((groups.flatMap EcuGroup.codes).map fun code => Dtc.fromBytes code.1 code.2).eraseDups

section Codes

variable {a b c d : UInt8}

theorem byte_cases (p : UInt8 → Prop) (each : ∀ n < 256, p (UInt8.ofNat n)) (b : UInt8) : p b := by
  have small := each b.toNat b.toNat_lt
  rwa [UInt8.ofNat_toNat] at small

/-- The bits of both bytes that go into the code. -/
theorem fromBytes_code (a b : UInt8) : (Dtc.fromBytes a b).code.toNat = a.toNat % 64 * 256 + b.toNat := by
  have high : ∀ a : UInt8, ((((a >>> 4) &&& 3).toUInt16 <<< 12) ||| ((a &&& 0x0F).toUInt16 <<< 8)).toNat =
      (a.toNat % 64) <<< 8 := byte_cases _ (by decide +kernel)
  have low : ∀ b : UInt8, ((((b >>> 4) &&& 0x0F).toUInt16 <<< 4) ||| (b &&& 0x0F).toUInt16).toNat = b.toNat :=
    byte_cases _ (by decide +kernel)
  rw [show (Dtc.fromBytes a b).code = ((((a >>> 4) &&& 3).toUInt16 <<< 12) ||| ((a &&& 0x0F).toUInt16 <<< 8)) |||
      ((((b >>> 4) &&& 0x0F).toUInt16 <<< 4) ||| (b &&& 0x0F).toUInt16) by
    simp only [Dtc.fromBytes, UInt16.or_assoc]]
  rw [UInt16.toNat_or, high, low, ← Nat.shiftLeft_add_eq_or_of_lt b.toNat_lt, Nat.shiftLeft_eq]

/-- **Different bytes are different codes.** -/
theorem fromBytes_inj : Dtc.fromBytes a b = Dtc.fromBytes c d ↔ a = c ∧ b = d := by
  constructor
  · intro same
    have codes := congrArg (fun dtc => dtc.code.toNat) same
    simp only [fromBytes_code] at codes
    have top : a >>> 6 &&& (3 : UInt8) = c >>> 6 &&& 3 := by
      have systems := congrArg Dtc.system same
      revert systems
      have few : ∀ b : UInt8, b >>> 6 &&& (3 : UInt8) = 0 ∨ b >>> 6 &&& (3 : UInt8) = 1 ∨
          b >>> 6 &&& (3 : UInt8) = 2 ∨ b >>> 6 &&& (3 : UInt8) = 3 :=
        byte_cases _ (by decide +kernel)
      rcases few a with at_a | at_a | at_a | at_a <;> rcases few c with at_c | at_c | at_c | at_c <;>
        simp [Dtc.fromBytes, at_a, at_c]
    have split : ∀ b : UInt8, b.toNat = (b >>> 6 &&& (3 : UInt8)).toNat * 64 + b.toNat % 64 := byte_cases _ (by decide +kernel)
    have ha := split a
    have hc := split c
    rw [top] at ha
    have hb := b.toNat_lt
    have hd := d.toNat_lt
    exact ⟨UInt8.toNat_inj.mp (by omega), UInt8.toNat_inj.mp (by omega)⟩
  · rintro ⟨rfl, rfl⟩
    rfl

end Codes

section Text

variable {text : Bytes} {bytes : List UInt8}

theorem pairUp_digits (bytes : List UInt8) : pairUp (bytes.flatMap fun b => [b / 16, b % 16]) = bytes := by
  have halves : ∀ b : UInt8, b / 16 * 16 + b % 16 = b := byte_cases _ (by decide +kernel)
  induction bytes with
  | nil => rfl
  | cons b bytes ih => simpa [pairUp, halves] using ih

theorem hexBytes_spelled (spells : Spells text bytes) : hexBytes text = bytes := by
  have visible : text.filterMap hexDigit = (text.filter (· ≠ 32)).filterMap hexDigit := by
    rw [List.filterMap_filter]
    congr 1
    funext b
    by_cases space : b = 32
    · subst space
      rfl
    · simp [space]
  have digits := congrArg (List.filterMap fun d => d) spells
  rw [List.filterMap_map, show (fun d => d) ∘ hexDigit = hexDigit from rfl, ← visible, List.filterMap_flatMap] at digits
  rw [hexBytes, digits]
  exact pairUp_digits bytes

end Text

section Groups

variable {out : List Dtc} {codes : List (UInt8 × UInt8)} {rest : List UInt8} {g : EcuGroup} {groups : List EcuGroup}

/-- What is recorded of some codes. -/
def recordAll (out : List Dtc) (codes : List (UInt8 × UInt8)) : List Dtc :=
  codes.foldl (fun out code => record out (.fromBytes code.1 code.2)) out

theorem recordAll_append (more : List (UInt8 × UInt8)) :
    recordAll out (codes ++ more) = recordAll (recordAll out codes) more := List.foldl_append

/-- A code is recorded where it appears first. -/
theorem recordAll_distinct (codes : List (UInt8 × UInt8)) :
    recordAll [] codes = (codes.map fun code => Dtc.fromBytes code.1 code.2).eraseDups := by
  induction codes using List.reverseRecOn with
  | nil => rfl
  | append_singleton codes code ih =>
    rw [recordAll_append, ih, List.map_append, List.eraseDups_append]
    simp only [recordAll, List.foldl_cons, List.foldl_nil, record, List.mem_eraseDups, List.map_cons, List.map_nil]
    generalize codes.map (fun code => Dtc.fromBytes code.1 code.2) = known
    split
    · rename_i seen
      simp [List.removeAll, seen]
    · rename_i unseen
      simp [List.removeAll, unseen, List.eraseDups_cons]

/-- A group ends where the next one starts. -/
theorem readGroup_ends (ends : rest = [] ∨ rest.head? = some groupMark) : readGroup out rest = (out, rest) := by
  match rest, ends with
  | [], _ => rfl
  | [b], _ => rfl
  | a :: b :: rest, ends =>
    obtain rfl : a = groupMark := by simpa using ends
    simp [readGroup]

/-- A group is read to its end when no code in it looks like the start of another. -/
theorem readGroup_bytes (out : List Dtc) (plain : ∀ code ∈ codes, code.1 ≠ groupMark)
    (nonzero : ∀ code ∈ codes, code ≠ (0, 0)) (padding : ℕ) (ends : rest = [] ∨ rest.head? = some groupMark) :
    readGroup out (codes.flatMap (fun code => [code.1, code.2]) ++ List.replicate (2 * padding) 0 ++ rest) =
      (recordAll out codes, rest) := by
  induction codes generalizing out with
  | nil =>
    cases padding with
    | zero => exact readGroup_ends ends
    | succ n =>
      have zeroFirst : (0 : UInt8) ≠ groupMark := by decide
      have skipped : (List.replicate (2 * n) 0 ++ rest).dropWhile (· ≠ groupMark) = rest := by
        rw [List.dropWhile_append_of_pos (by simp [zeroFirst])]
        cases rest with
        | nil => rfl
        | cons b rest =>
          obtain rfl : b = groupMark := by simpa using ends
          simp
      rw [show 2 * (n + 1) = 2 * n + 1 + 1 by omega]
      simpa [readGroup, List.replicate_succ, recordAll, zeroFirst] using skipped
  | cons code codes ih =>
    obtain ⟨unmarked, plain⟩ := List.forall_mem_cons.mp plain
    obtain ⟨full, nonzero⟩ := List.forall_mem_cons.mp nonzero
    have notEnd : ¬ (code.1 = 0 ∧ code.2 = 0) := fun zeros => full (Prod.ext zeros.1 zeros.2)
    simp only [List.flatMap_cons, List.cons_append, List.nil_append, readGroup, unmarked, notEnd, if_false]
    exact ih _ plain nonzero

theorem readLine_groups (plain : ∀ g ∈ groups, ∀ code ∈ g.codes, code.1 ≠ groupMark) :
    readLine out (groups.flatMap EcuGroup.bytes) = recordAll out (groups.flatMap EcuGroup.codes) := by
  induction groups generalizing out with
  | nil => simp [readLine, recordAll]
  | cons g groups ih =>
    obtain ⟨own, plain⟩ := List.forall_mem_cons.mp plain
    have ends : groups.flatMap EcuGroup.bytes = [] ∨ (groups.flatMap EcuGroup.bytes).head? = some groupMark := by
      cases groups with
      | nil => exact .inl rfl
      | cons next groups => exact .inr rfl
    have read := readGroup_bytes out own g.nonzero g.padding ends
    rw [List.flatMap_cons, EcuGroup.bytes, List.cons_append, readLine, if_pos rfl]
    dsimp only
    rw [read, ih plain, List.flatMap_cons, recordAll_append]

/-- No code whose first byte looks like the start of a group is ever read. -/
theorem readGroup_unmarked (seen : ∀ dtc ∈ out, ∃ a b, a ≠ groupMark ∧ dtc = Dtc.fromBytes a b) (bytes : List UInt8) :
    ∀ dtc ∈ (readGroup out bytes).1, ∃ a b, a ≠ groupMark ∧ dtc = Dtc.fromBytes a b := by
  fun_induction readGroup out bytes with
  | case1 => exact seen
  | case2 => exact seen
  | case3 out a b rest unmarked _ ih =>
    refine ih fun dtc listed => ?_
    unfold record at listed
    split at listed
    · exact seen dtc listed
    · rcases List.mem_append.mp listed with before | new
      · exact seen dtc before
      · exact ⟨a, b, unmarked, List.mem_singleton.mp new⟩
  | case4 => exact seen

theorem readLine_unmarked (seen : ∀ dtc ∈ out, ∃ a b, a ≠ groupMark ∧ dtc = Dtc.fromBytes a b) (bytes : List UInt8) :
    ∀ dtc ∈ readLine out bytes, ∃ a b, a ≠ groupMark ∧ dtc = Dtc.fromBytes a b := by
  fun_induction readLine out bytes with
  | case1 => exact seen
  | case2 out rest group ih => exact ih (readGroup_unmarked seen rest)
  | case3 out b rest _ ih => exact ih seen

end Groups

/-- **Trouble codes are decoded completely** if and only if none starts with the byte that a group
opens with: `C0300` to `C03FF` are taken for another group. -/
theorem decodeDtcs_complete {reply : Bytes} {groups : List EcuGroup} (laidOut : LaysOut reply groups) :
    decodeDtcs reply = distinctDtcs groups ↔ ∀ g ∈ groups, ∀ code ∈ g.codes, code.1 ≠ groupMark := by
  obtain ⟨rows, spelled, rfl⟩ := laidOut
  constructor
  · intro complete g listed code inside marked
    have found : Dtc.fromBytes code.1 code.2 ∈ decodeDtcs reply := by
      rw [complete, distinctDtcs, List.mem_eraseDups]
      exact List.mem_map.mpr ⟨code, List.mem_flatMap.mpr ⟨g, listed, inside⟩, rfl⟩
    have unmarked : ∀ (lines : List Bytes) (out : List Dtc), (∀ dtc ∈ out, ∃ a b, a ≠ groupMark ∧ dtc = Dtc.fromBytes a b) →
        ∀ dtc ∈ lines.foldl (fun out line => readLine out (hexBytes line)) out,
          ∃ a b, a ≠ groupMark ∧ dtc = Dtc.fromBytes a b := by
      intro lines
      induction lines with
      | nil => exact fun out seen => seen
      | cons line lines ih => exact fun out seen => ih _ (readLine_unmarked seen _)
    obtain ⟨a, b, other, same⟩ := unmarked (lines reply) [] (by simp) _ found
    exact other ((fromBytes_inj.mp same).1 ▸ marked)
  · intro plain
    have read : ∀ (lines : List Bytes) (rows : List (List EcuGroup)) (out : List Dtc),
        List.Forall₂ (fun line row => Spells line (row.flatMap EcuGroup.bytes)) lines rows →
        (∀ g ∈ rows.flatten, ∀ code ∈ g.codes, code.1 ≠ groupMark) →
        lines.foldl (fun out line => readLine out (hexBytes line)) out =
          recordAll out (rows.flatten.flatMap EcuGroup.codes) := by
      intro lines rows out spelled
      induction spelled generalizing out with
      | nil => exact fun _ => rfl
      | cons spells _ ih =>
        intro plain
        rw [List.flatten_cons, List.forall_mem_append] at plain
        rw [List.foldl_cons, hexBytes_spelled spells, readLine_groups plain.1, ih _ plain.2, List.flatten_cons,
          List.flatMap_append, recordAll_append]
    rw [decodeDtcs, read _ _ _ spelled plain, recordAll_distinct, distinctDtcs]

/-- A group with one code. -/
def oneCode (a b : UInt8) (nonzero : (a, b) ≠ (0, 0)) : EcuGroup where
  codes := [(a, b)]
  nonzero _ listed := List.mem_singleton.mp listed ▸ nonzero

/-- `43 03 01 43 02 01`, from two ECUs on one line, and an empty line. -/
def twoEcus : Bytes := [52, 51, 32, 48, 51, 32, 48, 49, 32, 52, 51, 32, 48, 50, 32, 48, 49, 13]

theorem decodeDtcs_complete_twoEcus : decodeDtcs twoEcus = [⟨.powertrain, 0x0301⟩, ⟨.powertrain, 0x0201⟩] := by
  have laidOut : LaysOut twoEcus [oneCode 3 1 (by decide), oneCode 2 1 (by decide)] := by
    refine ⟨[[oneCode 3 1 (by decide), oneCode 2 1 (by decide)], []], ?_, rfl⟩
    refine .cons (show Spells _ _ by unfold Spells; decide) (.cons (show Spells _ _ by unfold Spells; decide) .nil)
  refine (decodeDtcs_complete laidOut).mpr ?_
  simp [oneCode]
  decide

/-- `43 43 01`: one group with the code `C0301`. -/
theorem decodeDtcs_complete_fails : ¬ ∀ reply groups, LaysOut reply groups → decodeDtcs reply = distinctDtcs groups := by
  intro complete
  have laidOut : LaysOut [52, 51, 32, 52, 51, 32, 48, 49] [oneCode 0x43 1 (by decide)] :=
    ⟨[[oneCode 0x43 1 (by decide)]], .cons (by unfold Spells; decide) .nil, rfl⟩
  have decoded : decodeDtcs [52, 51, 32, 52, 51, 32, 48, 49] = [] := by
    have read : hexBytes [52, 51, 32, 52, 51, 32, 48, 49] = [0x43, 0x43, 1] := by decide
    have line : lines [52, 51, 32, 52, 51, 32, 48, 49] = [[52, 51, 32, 52, 51, 32, 48, 49]] := by decide
    simp [decodeDtcs, line, read, readLine, readGroup]
  have found := complete _ _ laidOut
  rw [decoded] at found
  exact absurd found (by decide)

end RndRust.Makana
