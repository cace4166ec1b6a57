import RndRust.Thunder.Clmm.Selection
import RndRust.Thunder.Clmm.Walk

/-! The search for the next tick. Among the arrays that the bitmaps mark and the provider holds, it stops
at the nearest tick with liquidity on the side that the swap goes to. -/
namespace RndRust.Thunder.Clmm
open Lib

/-- What an ordered list is searched for comes before all the rest of its kind. -/
theorem findSome?_first {α β : Type} {R : α → α → Prop} {f : α → Option β} {b : β} {l : List α}
    (ordered : l.Pairwise R) (found : l.findSome? f = some b) :
    ∃ a ∈ l, f a = some b ∧ ∀ x ∈ l, f x ≠ none → x = a ∨ R a x := by
  obtain ⟨before, a, after, rfl, here, nothing⟩ := List.findSome?_eq_some_iff.mp found
  refine ⟨a, List.mem_append_right _ List.mem_cons_self, here, fun x member some_x => ?_⟩
  obtain earlier | later := List.mem_append.mp member
  · exact absurd (nothing x earlier) some_x
  · obtain rfl | later := List.mem_cons.mp later
    · exact .inl rfl
    · exact .inr ((List.pairwise_cons.mp (List.pairwise_append.mp ordered).2.1).1 x later)

/-- A tick of the array has liquidity. -/
def HasTick (data : Bytes) (state : TickState) : Prop :=
  ∃ i < 60, readTick data i = state ∧ 0 < state.liquidityGross

/-- An array of a pool: it starts at a multiple of its width, and what has liquidity has its place. -/
structure WellFormed (tickSpacing : Word 16) (start : ℤ) (data : Bytes) : Prop where
  aligned : (tickSpacing.val * tickArraySize) ∣ start
  placed : ∀ i < 60, 0 < (readTick data i).liquidityGross →
    (readTick data i).tick = start + i * tickSpacing.val

/-- The side that a swap goes to. -/
def Side (zeroForOne : Bool) (tick t : ℤ) : Prop := if zeroForOne then t ≤ tick else tick < t

/-- A tick no nearer than another on that side. -/
def NoNearer (zeroForOne : Bool) (t u : ℤ) : Prop := if zeroForOne then u ≤ t else t ≤ u

section Arrays

variable {data : Bytes} {tick start : ℤ} {zeroForOne : Bool} {tickSpacing : Word 16} {found : TickInfo}

/-- Within a well-formed array the nearest tick is found. -/
theorem findInitializedTickInArray_nearest (formed : WellFormed tickSpacing start data)
    (here : findInitializedTickInArray data tick zeroForOne = some found) :
    (∃ state, HasTick data state ∧ found = ⟨state.tick, state.liquidityNet⟩ ∧ Side zeroForOne tick state.tick) ∧
      ∀ state, HasTick data state → Side zeroForOne tick state.tick → NoNearer zeroForOne found.tick state.tick := by
  unfold Side NoNearer
  cases zeroForOne with
  | true =>
    rw [findInitializedTickInArray, if_pos rfl] at here
    simp only [if_true]
    obtain ⟨i, member, at_i, first⟩ := findSome?_first (List.pairwise_reverse.mpr List.pairwise_lt_range) here
    rw [List.mem_reverse, List.mem_range] at member
    simp only [Option.ite_none_right_eq_some, Option.some.injEq] at at_i
    obtain ⟨⟨liquid, below⟩, rfl⟩ := at_i
    refine ⟨⟨_, ⟨i, member, rfl, liquid⟩, rfl, below⟩, ?_⟩
    rintro state ⟨j, inside, rfl, other_liquid⟩ side
    obtain rfl | before := first j (List.mem_reverse.mpr (List.mem_range.mpr inside)) (by simp [other_liquid, side])
    · dsimp only
      exact le_rfl
    · rw [formed.placed i member liquid, formed.placed j inside other_liquid]
      dsimp only
      have less : (j : ℤ) * tickSpacing.val ≤ i * tickSpacing.val :=
        Int.mul_le_mul_of_nonneg_right (by omega) (Int.natCast_nonneg _)
      omega
  | false =>
    rw [findInitializedTickInArray, if_neg Bool.false_ne_true] at here
    simp only [Bool.false_eq_true, if_false]
    obtain ⟨i, member, at_i, first⟩ := findSome?_first List.pairwise_lt_range here
    rw [List.mem_range] at member
    simp only [Option.ite_none_right_eq_some, Option.some.injEq] at at_i
    obtain ⟨⟨liquid, above⟩, rfl⟩ := at_i
    refine ⟨⟨_, ⟨i, member, rfl, liquid⟩, rfl, above⟩, ?_⟩
    rintro state ⟨j, inside, rfl, other_liquid⟩ side
    obtain rfl | after := first j (List.mem_range.mpr inside) (by simp [other_liquid, side])
    · dsimp only
      exact le_rfl
    · rw [formed.placed i member liquid, formed.placed j inside other_liquid]
      dsimp only
      have less : (i : ℤ) * tickSpacing.val ≤ j * tickSpacing.val :=
        Int.mul_le_mul_of_nonneg_right (by omega) (Int.natCast_nonneg _)
      omega

theorem findInitializedTickInArray_eq_none : findInitializedTickInArray data tick zeroForOne = none ↔
    ∀ state, HasTick data state → ¬Side zeroForOne tick state.tick := by
  unfold findInitializedTickInArray Side HasTick
  cases zeroForOne <;>
    simp only [if_true, Bool.false_eq_true, if_false, List.findSome?_eq_none_iff, List.mem_reverse, List.mem_range,
      ite_eq_right_iff, reduceCtorEq, imp_false, not_and] <;>
    exact ⟨fun none state ⟨i, inside, read, liquid⟩ => read ▸ none i inside (read ▸ liquid),
      fun none i inside liquid => none _ ⟨i, inside, rfl, liquid⟩⟩

end Arrays

namespace Quoting

section Scan

variable (q : Quoting)

/-- The provider holds the array. -/
def Provided (start : ℤ) (data : Bytes) : Prop :=
  q.provider.poolAccountData (pdaTickArrayAddress q.find q.poolId start) = some data

/-- The bitmaps mark the array. -/
def Marked (start : ℤ) : Prop := isTickArrayInitialized q.pool.tickArrayBitmap q.extData (start / q.ticksPerArray)

/-- The search does not go on from here. -/
def Outside (start : ℤ) : Prop :=
  (start / q.ticksPerArray < -512 ∨ 511 < start / q.ticksPerArray) ∧
    (q.extData = none ∨ 7680 < (start / q.ticksPerArray).natAbs)

def nextStart (arrayStart : ℤ) : ℤ :=
  signed 32 (if q.zeroForOne then arrayStart - q.ticksPerArray else arrayStart + q.ticksPerArray)

/-- The cache holds what the provider does. -/
def Sound (cache : ArrayCache) : Prop := ∀ start data, cache.lookup start = some data → q.Provided start data

/-- The array has been looked at, and it is not marked or has no tick on that side. -/
def Passed (tick start : ℤ) : Prop :=
  q.Marked start → ∃ data, q.Provided start data ∧ findInitializedTickInArray data tick q.zeroForOne = none

variable {q : Quoting} {tick start : ℤ} {cache later : ArrayCache} {data : Bytes} {count : ℕ} {found : TickInfo}
  {result : Option TickInfo}

theorem fetch_sound (sound : q.Sound cache) (fetched : q.fetch start cache = .ok (data, later)) :
    q.Provided start data ∧ q.Sound later := by
  unfold fetch at fetched
  split at fetched
  case h_1 kept cached =>
    obtain ⟨rfl, rfl⟩ := Prod.mk.inj (Except.ok.inj fetched)
    exact ⟨sound start kept cached, sound⟩
  case h_2 =>
    split at fetched
    · cases fetched
    · simp only at fetched
      split at fetched
      · cases fetched
      case h_2 new provided =>
        split at fetched
        · cases fetched
        · obtain ⟨rfl, rfl⟩ := Prod.mk.inj (Except.ok.inj fetched)
          refine ⟨provided, fun other kept cached => ?_⟩
          rw [Table.lookup_insert_eq] at cached
          split at cached
          case isTrue same =>
            obtain rfl := Option.some.inj cached
            exact same ▸ provided
          case isFalse => exact sound other kept cached

/-- What the search does with one array. -/
theorem scan_succ {r : Except String (Option TickInfo × ArrayCache)} (scanned : q.scan tick (count + 1) start cache = r) :
    q.Outside start ∧ r = .ok (none, cache) ∨ ¬q.Outside start ∧
      (¬q.Marked start ∧ q.scan tick count (q.nextStart start) cache = r ∨ q.Marked start ∧
        ((∃ e, q.fetch start cache = .error e ∧ r = .error e) ∨ ∃ data later, q.fetch start cache = .ok (data, later) ∧
          ((∃ found, findInitializedTickInArray data tick q.zeroForOne = some found ∧ r = .ok (some found, later)) ∨
            findInitializedTickInArray data tick q.zeroForOne = none ∧
              q.scan tick count (q.nextStart start) later = r))) := by
  rw [scan] at scanned
  dsimp only at scanned
  split at scanned
  case isTrue outside => exact .inl ⟨outside, scanned.symm⟩
  case isFalse inside =>
    refine .inr ⟨inside, ?_⟩
    split at scanned
    case isFalse unmarked => exact .inl ⟨unmarked, scanned⟩
    case isTrue marked =>
      refine .inr ⟨marked, ?_⟩
      cases fetched : q.fetch start cache with
      | error e =>
        rw [fetched] at scanned
        exact .inl ⟨e, rfl, scanned.symm⟩
      | ok read =>
        obtain ⟨data, later⟩ := read
        rw [fetched, ok_bind] at scanned
        refine .inr ⟨data, later, rfl, ?_⟩
        dsimp only at scanned
        split at scanned
        case h_1 found here => exact .inl ⟨found, here, scanned.symm⟩
        case h_2 nothing => exact .inr ⟨nothing, scanned⟩

theorem scan_sound (sound : q.Sound cache) (scanned : q.scan tick count start cache = .ok (result, later)) :
    q.Sound later := by
  induction count generalizing start cache with
  | zero =>
    obtain ⟨-, rfl⟩ := Prod.mk.inj (Except.ok.inj scanned)
    exact sound
  | succ count ih =>
    obtain ⟨-, ends⟩ | ⟨-, ⟨-, on⟩ | ⟨-, ⟨e, -, fails⟩ | ⟨data, read, fetched, ⟨found, -, ends⟩ | ⟨-, on⟩⟩⟩⟩ :=
      scan_succ scanned
    · obtain ⟨-, rfl⟩ := Prod.mk.inj (Except.ok.inj ends)
      exact sound
    · exact ih sound on
    · cases fails
    · obtain ⟨-, rfl⟩ := Prod.mk.inj (Except.ok.inj ends)
      exact (fetch_sound sound fetched).2
    · exact ih (fetch_sound sound fetched).2 on

/-- The search comes to the array so many steps on. -/
def Comes (q : Quoting) (start : ℤ) (n : ℕ) : Prop := ∀ j ≤ n, ¬q.Outside (q.nextStart^[j] start)

theorem comes_succ {n : ℕ} (inside : ¬q.Outside start) (comes : q.Comes (q.nextStart start) n) : q.Comes start (n + 1) := by
  intro j before
  cases j with
  | zero => exact inside
  | succ j => exact comes j (by omega)

/-- The search stops at a tick of the array so many steps on. -/
structure Stops (q : Quoting) (tick start : ℤ) (found : TickInfo) (n : ℕ) : Prop where
  comes : q.Comes start n
  marked : q.Marked (q.nextStart^[n] start)
  here : ∃ data, q.Provided (q.nextStart^[n] start) data ∧
    findInitializedTickInArray data tick q.zeroForOne = some found
  before : ∀ j < n, q.Passed tick (q.nextStart^[j] start)

theorem Stops.succ {n : ℕ} (stops : q.Stops tick (q.nextStart start) found n) (inside : ¬q.Outside start)
    (passed : q.Passed tick start) : q.Stops tick start found (n + 1) where
  comes := comes_succ inside stops.comes
  marked := stops.marked
  here := stops.here
  before j less := by
    cases j with
    | zero => exact passed
    | succ j => exact stops.before j (by omega)

theorem scan_found (sound : q.Sound cache) (scanned : q.scan tick count start cache = .ok (some found, later)) :
    ∃ n < count, q.Stops tick start found n := by
  induction count generalizing start cache with
  | zero => cases scanned
  | succ count ih =>
    obtain ⟨-, ends⟩ | ⟨inside, ⟨unmarked, on⟩ | ⟨marked, ⟨e, -, fails⟩ | ⟨data, read, fetched, ⟨there, here, ends⟩ |
      ⟨nothing, on⟩⟩⟩⟩ := scan_succ scanned
    · cases ends
    · obtain ⟨n, within, stops⟩ := ih sound on
      exact ⟨n + 1, by omega, stops.succ inside fun marked => absurd marked unmarked⟩
    · cases fails
    · obtain ⟨same, -⟩ := Prod.mk.inj (Except.ok.inj ends)
      obtain rfl := Option.some.inj same
      refine ⟨0, count.succ_pos, fun j at_start => ?_, marked, ⟨data, (fetch_sound sound fetched).1, here⟩, nofun⟩
      rw [Nat.le_zero.mp at_start]
      exact inside
    · obtain ⟨provided, sound⟩ := fetch_sound sound fetched
      obtain ⟨n, within, stops⟩ := ih sound on
      exact ⟨n + 1, by omega, stops.succ inside fun _ => ⟨data, provided, nothing⟩⟩

theorem scan_nothing (sound : q.Sound cache) (scanned : q.scan tick count start cache = .ok (none, later)) {n : ℕ}
    (within : n < count) (comes : q.Comes start n) : q.Passed tick (q.nextStart^[n] start) := by
  induction count generalizing start cache n with
  | zero => exact absurd within (Nat.not_lt_zero n)
  | succ count ih =>
    have further {read : ArrayCache} (sound : q.Sound read) (passed : q.Passed tick start)
        (on : q.scan tick count (q.nextStart start) read = .ok (none, later)) : q.Passed tick (q.nextStart^[n] start) := by
      cases n with
      | zero => exact passed
      | succ n => exact ih sound on (by omega) fun j before => comes (j + 1) (by omega)
    obtain ⟨outside, -⟩ | ⟨-, ⟨unmarked, on⟩ | ⟨-, ⟨e, -, fails⟩ | ⟨data, read, fetched, ⟨there, -, ends⟩ |
      ⟨nothing, on⟩⟩⟩⟩ := scan_succ scanned
    · exact absurd outside (comes 0 (Nat.zero_le n))
    · exact further sound (fun marked => absurd marked unmarked) on
    · cases fails
    · cases ends
    · obtain ⟨provided, sound⟩ := fetch_sound sound fetched
      exact further sound (fun _ => ⟨data, provided, nothing⟩) on

theorem scan_fails {e : String} (scanned : q.scan tick count start cache = .error e) : ∃ n < count, q.Comes start n ∧
    q.Marked (q.nextStart^[n] start) ∧ ∃ read, q.fetch (q.nextStart^[n] start) read = .error e := by
  induction count generalizing start cache with
  | zero => cases scanned
  | succ count ih =>
    obtain ⟨-, ends⟩ | ⟨inside, ⟨-, on⟩ | ⟨marked, ⟨e, fetched, fails⟩ | ⟨data, read, -, ⟨found, -, ends⟩ | ⟨-, on⟩⟩⟩⟩ :=
      scan_succ scanned
    · cases ends
    · obtain ⟨n, within, comes, there⟩ := ih on
      exact ⟨n + 1, by omega, comes_succ inside comes, there⟩
    · obtain rfl := Except.error.inj fails
      refine ⟨0, count.succ_pos, fun j at_start => ?_, marked, cache, fetched⟩
      rw [Nat.le_zero.mp at_start]
      exact inside
    · cases ends
    · obtain ⟨n, within, comes, there⟩ := ih on
      exact ⟨n + 1, by omega, comes_succ inside comes, there⟩

end Scan

section Nearest

variable {q : Quoting} {tick k start : ℤ} {data : Bytes} {state : TickState} {found : TickInfo} {n : ℕ}

theorem width_positive (spaced : q.pool.tickSpacing ≠ 0) : 0 < q.ticksPerArray := by
  have bounds : 60 ≤ q.ticksPerArray ∧ q.ticksPerArray ≤ 3932100 := width_bounds spaced
  omega

/-- Where the search is after so many steps, when a position wraps as an `i32` does. -/
theorem iterate_nextStart : q.nextStart^[n] (signed 32 (k * q.ticksPerArray))
    = signed 32 ((k + direction q.zeroForOne * n) * q.ticksPerArray) := by
  induction n with
  | zero => simp
  | succ n ih =>
    rw [Function.iterate_succ_apply', ih, nextStart]
    unfold signed
    obtain ⟨way, down⟩ | ⟨way, up⟩ := direction_cases q.zeroForOne
    · rw [if_pos down, Int.bmod_sub_bmod, way]
      push_cast
      congr 1
      ring
    · rw [if_neg (by simp [up]), Int.bmod_add_bmod, way]
      push_cast
      congr 1
      ring

/-- What a wrap adds, 2^32 up or down, is no multiple of three. -/
theorem signed_of_three {m : ℤ} (low : -2 ^ 31 - 2 ^ 32 < m) (high : m < 2 ^ 31 + 2 ^ 32) (three : 3 ∣ m)
    (divides : 3 ∣ signed 32 m) : signed 32 m = m := by
  have wrapped : signed 32 m = m ∨ signed 32 m = m + 2 ^ 32 ∨ signed 32 m = m - 2 ^ 32 := by
    rw [signed, Int.bmod_def]
    omega
  omega

/-- A position that wrapped is no multiple of the width, so that no array is there. -/
theorem position_aligned (spaced : q.pool.tickSpacing ≠ 0) (current : fitsI32 tick) (within : n < maxArrayScan)
    (aligned : q.ticksPerArray ∣ signed 32 ((tick / q.ticksPerArray + direction q.zeroForOne * n) * q.ticksPerArray)) :
    signed 32 ((tick / q.ticksPerArray + direction q.zeroForOne * n) * q.ticksPerArray)
      = (tick / q.ticksPerArray + direction q.zeroForOne * n) * q.ticksPerArray := by
  obtain ⟨least, most⟩ : 60 ≤ q.ticksPerArray ∧ q.ticksPerArray ≤ 3932100 := width_bounds spaced
  have below := Int.ediv_mul_le tick (show q.ticksPerArray ≠ 0 by omega)
  have above := Int.lt_ediv_add_one_mul_self tick (show 0 < q.ticksPerArray by omega)
  have nonneg : 0 ≤ (n : ℤ) * q.ticksPerArray := Int.mul_nonneg (by omega) (by omega)
  have far : (n : ℤ) * q.ticksPerArray ≤ 1023 * 3932100 :=
    Int.mul_le_mul (by unfold maxArrayScan at within; omega) most (by omega) (by omega)
  have sum : (tick / q.ticksPerArray + direction q.zeroForOne * n) * q.ticksPerArray
      = tick / q.ticksPerArray * q.ticksPerArray + direction q.zeroForOne * (n * q.ticksPerArray) := by ring
  have three : (3 : ℤ) ∣ q.ticksPerArray := ⟨q.pool.tickSpacing.val * 20, by
    unfold ticksPerArray tickArraySize
    ring⟩
  rw [Int.add_mul, Int.one_mul] at above
  rw [fitsI32_iff] at current
  refine signed_of_three ?_ ?_ (three.mul_left _) (three.trans aligned) <;> rw [sum] <;>
    generalize tick / q.ticksPerArray * q.ticksPerArray = first at below above ⊢ <;>
    generalize (n : ℤ) * q.ticksPerArray = way at nonneg far ⊢ <;>
    obtain ⟨is, -⟩ | ⟨is, -⟩ := direction_cases q.zeroForOne <;> rw [is] <;> omega

theorem fits_signed (m : ℤ) : fitsI32 (signed 32 m) := by
  rw [fitsI32_iff, signed, Int.bmod_def]
  omega

/-- The ticks of an array lie in its width. -/
theorem tick_within (spaced : q.pool.tickSpacing ≠ 0) (formed : WellFormed q.pool.tickSpacing start data)
    (has : HasTick data state) : start ≤ state.tick ∧ state.tick < start + q.ticksPerArray := by
  obtain ⟨i, inside, rfl, liquid⟩ := has
  have positive : 0 < q.pool.tickSpacing.val := Nat.pos_of_ne_zero fun zero => spaced (Fin.ext zero)
  have nonneg : 0 ≤ (i : ℤ) * q.pool.tickSpacing.val := Int.mul_nonneg (by omega) (by omega)
  have most : (i : ℤ) * q.pool.tickSpacing.val ≤ 59 * q.pool.tickSpacing.val :=
    Int.mul_le_mul_of_nonneg_right (by omega) (by omega)
  rw [formed.placed i inside liquid]
  unfold ticksPerArray tickArraySize
  omega

/-- An array of the pool: marked in the bitmaps and held by the provider. -/
structure Holds (q : Quoting) (k : ℤ) (data : Bytes) : Prop where
  fits : fitsI32 (k * q.ticksPerArray)
  marked : q.Marked (k * q.ticksPerArray)
  provided : q.Provided (k * q.ticksPerArray) data

/-- What lies on the side that the swap goes to is in the current array or onward. -/
theorem index_onward (spaced : q.pool.tickSpacing ≠ 0) (formed : WellFormed q.pool.tickSpacing (k * q.ticksPerArray) data)
    (has : HasTick data state) (side : Side q.zeroForOne tick state.tick) :
    0 ≤ direction q.zeroForOne * (k - tick / q.ticksPerArray) := by
  obtain ⟨low, high⟩ := tick_within spaced formed has
  have positive := width_positive spaced
  unfold Side at side
  obtain ⟨way, down⟩ | ⟨way, up⟩ := direction_cases q.zeroForOne
  · rw [down, if_pos rfl] at side
    have before := (Int.le_ediv_iff_mul_le positive).mpr (low.trans side)
    rw [way]
    omega
  · rw [up, if_neg Bool.false_ne_true] at side
    have after : tick / q.ticksPerArray < k + 1 := by
      rw [Int.ediv_lt_iff_lt_mul positive, Int.add_mul, Int.one_mul]
      omega
    rw [way]
    omega

/-- Two arrays apart, so are their ticks. -/
theorem noNearer_of_beyond (spaced : q.pool.tickSpacing ≠ 0) {m : ℤ} {t u : ℤ}
    (within : k * q.ticksPerArray ≤ t ∧ t < k * q.ticksPerArray + q.ticksPerArray)
    (beyond : m * q.ticksPerArray ≤ u ∧ u < m * q.ticksPerArray + q.ticksPerArray)
    (apart : 0 < direction q.zeroForOne * (m - k)) : NoNearer q.zeroForOne t u := by
  have positive := width_positive spaced
  unfold NoNearer
  obtain ⟨way, down⟩ | ⟨way, up⟩ := direction_cases q.zeroForOne
  · rw [way] at apart
    have less : (m + 1) * q.ticksPerArray ≤ k * q.ticksPerArray := Int.mul_le_mul_of_nonneg_right (by omega) positive.le
    rw [Int.add_mul, Int.one_mul] at less
    rw [down, if_pos rfl]
    omega
  · rw [way] at apart
    have less : (k + 1) * q.ticksPerArray ≤ m * q.ticksPerArray := Int.mul_le_mul_of_nonneg_right (by omega) positive.le
    rw [Int.add_mul, Int.one_mul] at less
    rw [up, if_neg Bool.false_ne_true]
    omega

/-- A tick of a pool's array on that side, with what is stored of it. -/
def Candidate (q : Quoting) (tick : ℤ) (state : TickState) : Prop :=
  ∃ k data, q.Holds k data ∧ HasTick data state ∧ Side q.zeroForOne tick state.tick

/-- Where the search stops is a tick of the pool on that side, and none is nearer. -/
theorem stops_nearest (spaced : q.pool.tickSpacing ≠ 0) (current : fitsI32 tick)
    (formed : ∀ start data, fitsI32 start → q.Provided start data → WellFormed q.pool.tickSpacing start data)
    (within : n < maxArrayScan) (stops : q.Stops tick (tickArrayStartIndex tick q.pool.tickSpacing) found n) :
    (∃ state, q.Candidate tick state ∧ found = ⟨state.tick, state.liquidityNet⟩) ∧
      ∀ state, q.Candidate tick state → NoNearer q.zeroForOne found.tick state.tick := by
  have position (j : ℕ) : q.nextStart^[j] (tickArrayStartIndex tick q.pool.tickSpacing)
      = signed 32 ((tick / q.ticksPerArray + direction q.zeroForOne * j) * q.ticksPerArray) := iterate_nextStart
  obtain ⟨data, provided, here⟩ := stops.here
  have marked := stops.marked
  have before := stops.before
  have formed_here := formed _ _ (position n ▸ fits_signed _) provided
  have place := position_aligned spaced current within (position n ▸ formed_here.aligned)
  have fits := fits_signed ((tick / q.ticksPerArray + direction q.zeroForOne * n) * q.ticksPerArray)
  rw [position, place] at provided marked formed_here
  rw [place] at fits
  obtain ⟨⟨state, has, rfl, side⟩, nearest⟩ := findInitializedTickInArray_nearest formed_here here
  refine ⟨⟨state, ⟨_, data, ⟨fits, marked, provided⟩, has, side⟩, rfl⟩, ?_⟩
  rintro other ⟨k, bytes, holds, other_has, other_side⟩
  have other_formed := formed _ _ holds.fits holds.provided
  have onward := index_onward spaced other_formed other_has other_side
  have index : tick / q.ticksPerArray + direction q.zeroForOne
      * (direction q.zeroForOne * (k - tick / q.ticksPerArray)).toNat = k := by
    obtain ⟨way, -⟩ | ⟨way, -⟩ := direction_cases q.zeroForOne <;> rw [way] at onward ⊢ <;> omega
  obtain near | same | far := Nat.lt_trichotomy (direction q.zeroForOne * (k - tick / q.ticksPerArray)).toNat n
  · -- The array was passed, so it has no such tick.
    have passed := before _ near
    rw [position, index, signed_of_fits holds.fits] at passed
    obtain ⟨read, held, nothing⟩ := passed holds.marked
    obtain rfl := Option.some.inj (holds.provided.symm.trans held)
    exact absurd other_side (findInitializedTickInArray_eq_none.mp nothing other other_has)
  · rw [← same, index] at provided
    obtain rfl := Option.some.inj (holds.provided.symm.trans provided)
    exact nearest other other_has other_side
  · refine noNearer_of_beyond spaced (tick_within spaced formed_here has) (tick_within spaced other_formed other_has) ?_
    obtain ⟨way, -⟩ | ⟨way, -⟩ := direction_cases q.zeroForOne <;> rw [way] at onward far ⊢ <;> omega

end Nearest

section Runs

variable {q : Quoting} {amountIn : U64} {w next : Walk} {gross need net target : U128} {found : TickInfo}
  {cache : ArrayCache}

/-- The states that the quote of an amount comes to. -/
inductive Reached (q : Quoting) (amountIn : U64) : Walk → Prop where
  | start : Reached q amountIn (q.start amountIn)
  | iterate {w next : Walk} {gross : U128} : Reached q amountIn w → w.remaining ≠ 0 →
      q.iterate w = .ok (gross, next) → Reached q amountIn next

/-- The search from a state of the walk. -/
def search (q : Quoting) (w : Walk) : Except String (Option TickInfo × ArrayCache) :=
  q.scan w.tick maxArrayScan (tickArrayStartIndex w.tick q.pool.tickSpacing) w.arrayCache

theorem locate_eq_ok : q.locate w = .ok (found, cache) ↔ q.search w = .ok (some found, cache) := by
  unfold locate
  rw [← search]
  rcases q.search w with e | ⟨_ | there, later⟩ <;> simp [ok_bind, error_bind]

theorem cross_keeps (went : q.cross w found cache target need = .ok (gross, next)) :
    next.arrayCache = cache ∧ InRange next.tick := by
  unfold cross at went
  obtain ⟨totalOut, -, went⟩ := bind_eq_ok.mp went
  obtain ⟨feeAmt, -, went⟩ := bind_eq_ok.mp went
  obtain ⟨across, -, went⟩ := bind_eq_ok.mp went
  obtain ⟨liquidity, -, went⟩ := bind_eq_ok.mp went
  split at went
  case isFalse => cases went
  case isTrue within =>
    obtain ⟨-, rfl⟩ := Prod.mk.inj (Except.ok.inj went)
    exact ⟨rfl, within⟩

theorem finish_keeps (went : q.finish w cache net = .ok (gross, next)) :
    next.arrayCache = cache ∧ next.tick = w.tick := by
  unfold finish at went
  split at went
  case isTrue => cases went
  case isFalse =>
    obtain ⟨price, -, went⟩ := bind_eq_ok.mp went
    obtain ⟨out, -, went⟩ := bind_eq_ok.mp went
    obtain ⟨totalOut, -, went⟩ := bind_eq_ok.mp went
    obtain ⟨-, rfl⟩ := Prod.mk.inj (Except.ok.inj went)
    exact ⟨rfl, rfl⟩

theorem iterate_keeps (went : q.iterate w = .ok (gross, next)) :
    (∃ found, q.search w = .ok (some found, next.arrayCache)) ∧ (next.tick = w.tick ∨ InRange next.tick) := by
  unfold iterate at went
  obtain ⟨⟨found, cache⟩, located, went⟩ := bind_eq_ok.mp went
  obtain ⟨target, -, went⟩ := bind_eq_ok.mp went
  obtain ⟨net, -, went⟩ := bind_eq_ok.mp went
  obtain ⟨need, -, went⟩ := bind_eq_ok.mp went
  rw [locate_eq_ok] at located
  split at went
  case isTrue =>
    obtain ⟨rfl, within⟩ := cross_keeps went
    exact ⟨⟨found, located⟩, .inr within⟩
  case isFalse =>
    obtain ⟨rfl, same⟩ := finish_keeps went
    exact ⟨⟨found, located⟩, .inl same⟩

/-- In every state the cache holds what the provider does. -/
theorem reached_sound (reached : q.Reached amountIn w) : q.Sound w.arrayCache := by
  induction reached with
  | start =>
    intro start data cached
    rw [Quoting.start, AList.lookup_empty] at cached
    cases cached
  | iterate _ _ went sound =>
    obtain ⟨⟨found, searched⟩, -⟩ := iterate_keeps went
    exact scan_sound sound searched

theorem reached_fits (current : fitsI32 q.pool.tickCurrent) (reached : q.Reached amountIn w) : fitsI32 w.tick := by
  induction reached with
  | start => exact current
  | iterate _ _ went fits =>
    obtain ⟨-, same | within⟩ := iterate_keeps went
    · rw [same]
      exact fits
    · obtain ⟨low, high⟩ := within
      unfold minTick at low
      unfold maxTick at high
      rw [fitsI32_iff]
      omega

end Runs

/-- A tick on that side in an array that the search from a state comes to. -/
def Walked (q : Quoting) (w : Walk) (state : TickState) : Prop :=
  ∃ n < maxArrayScan, ∃ start, start = q.nextStart^[n] (tickArrayStartIndex w.tick q.pool.tickSpacing) ∧
    q.Comes (tickArrayStartIndex w.tick q.pool.tickSpacing) n ∧ q.Marked start ∧
    ∃ data, q.Provided start data ∧ HasTick data state ∧ Side q.zeroForOne w.tick state.tick

/-- In every state of a quote the search stops at the nearest tick of the pool on the side that the swap goes
to. It reports none just if there is none in the arrays that it comes to, and fails only if one of those
cannot be read. -/
theorem walk_skips_no_tick (q : Quoting) (spaced : q.ticksPerArray ≠ 0) (current : fitsI32 q.pool.tickCurrent)
    (formed : ∀ start data, fitsI32 start → q.Provided start data → WellFormed q.pool.tickSpacing start data)
    {amountIn : U64} {w : Walk} (reached : q.Reached amountIn w) :
    (∀ found cache, q.search w = .ok (some found, cache) →
      (∃ state, q.Candidate w.tick state ∧ found = ⟨state.tick, state.liquidityNet⟩) ∧
        ∀ state, q.Candidate w.tick state → NoNearer q.zeroForOne found.tick state.tick) ∧
    (∀ result cache, q.search w = .ok (result, cache) → (result = none ↔ ∀ state, ¬q.Walked w state)) ∧
    ∀ e, q.search w = .error e → ∃ n < maxArrayScan, ∃ start,
      start = q.nextStart^[n] (tickArrayStartIndex w.tick q.pool.tickSpacing) ∧
      q.Comes (tickArrayStartIndex w.tick q.pool.tickSpacing) n ∧ q.Marked start ∧
      ∃ read, q.fetch start read = .error e := by
  have sound := reached_sound reached
  refine ⟨fun found cache searched => ?_, fun result cache searched => ⟨?_, fun nothing => ?_⟩, fun e searched => ?_⟩
  · obtain ⟨n, within, stops⟩ := scan_found sound searched
    have spacing : q.pool.tickSpacing ≠ 0 := fun zero => spaced (by rw [ticksPerArray, zero]; rfl)
    exact stops_nearest spacing (reached_fits current reached) formed within stops
  · rintro rfl state ⟨n, within, start, rfl, comes, marked, data, provided, has, side⟩
    obtain ⟨held, same, missed⟩ := scan_nothing sound searched within comes marked
    obtain rfl := Option.some.inj (provided.symm.trans same)
    exact findInitializedTickInArray_eq_none.mp missed state has side
  · cases result with
    | none => rfl
    | some found =>
      obtain ⟨n, within, stops⟩ := scan_found sound searched
      obtain ⟨data, provided, here⟩ := stops.here
      have missed : findInitializedTickInArray data w.tick q.zeroForOne = none :=
        findInitializedTickInArray_eq_none.mpr fun state has side =>
          nothing state ⟨n, within, _, rfl, stops.comes, stops.marked, data, provided, has, side⟩
      rw [missed] at here
      cases here
  · obtain ⟨n, within, comes, marked, failed⟩ := scan_fails searched
    exact ⟨n, within, _, rfl, comes, marked, failed⟩

/-- An array whose first tick, and no other, has liquidity. -/
def firstTickOnly : Bytes :=
  List.replicate tickArrayHeader 0 ++ (toLeBytes 4 0 ++ List.replicate 16 0 ++ toLeBytes 16 1) ++
    List.replicate (132 + 59 * tickStateSize) 0

/-- A pool just below its only tick, in the array before the tick's. -/
def belowZero : Quoting where
  find := fun seeds _ => seeds.getLastD []
  pool := ⟨[1], 1, 0, Q64, -1, (centralPool (-1)).tickArrayBitmap⟩
  poolId := [2]
  zeroForOne := false
  provider := ⟨fun key => if key = toLeBytes 4 0 then some firstTickOnly else none, fun _ => 0⟩

theorem readTick_firstTickOnly : readTick firstTickOnly 0 = ⟨0, 0, 1⟩ := by
  have first : firstTickOnly.drop (tickArrayHeader + 0 * tickStateSize)
      = toLeBytes 4 0 ++ List.replicate 16 0 ++ toLeBytes 16 1 ++ List.replicate (132 + 59 * tickStateSize) 0 := by
    rw [firstTickOnly, List.append_assoc]
    exact List.drop_left' List.length_replicate
  simp only [readTick, first, TickState.mk.injEq]
  decide

theorem liquidity_firstTickOnly {i : ℕ} (later : i ≠ 0) : (readTick firstTickOnly i).liquidityGross = 0 := by
  have past : tickArrayHeader + i * tickStateSize + 20 = tickArrayHeader + 36 + (i * tickStateSize - 16) := by
    unfold tickStateSize
    omega
  have front : (List.replicate tickArrayHeader (0 : UInt8) ++
      (toLeBytes 4 0 ++ List.replicate 16 0 ++ toLeBytes 16 1)).length = tickArrayHeader + 36 := by
    simp only [List.length_append, List.length_replicate, length_toLeBytes]
  simp only [readTick, List.drop_drop, past]
  rw [← List.drop_drop, firstTickOnly, List.drop_left' front, List.drop_replicate, List.take_replicate,
    fromLeBytes_zeros]

theorem wellFormed_belowZero (start : ℤ) (data : Bytes) (fits : fitsI32 start) (provided : belowZero.Provided start data) :
    WellFormed belowZero.pool.tickSpacing start data := by
  unfold Provided at provided
  change (if (toLeBytes 4 (start % 2 ^ 32).toNat).reverse = toLeBytes 4 0 then some firstTickOnly else none)
    = some data at provided
  rw [Option.ite_none_right_eq_some] at provided
  obtain ⟨address, same⟩ := provided
  obtain rfl := Option.some.inj same
  have bytes : toLeBytes 4 (start % 2 ^ 32).toNat = toLeBytes 4 0 := List.reverse_eq_iff.mp address
  have number : (start % 2 ^ 32).toNat = 0 := by
    have read := congrArg fromLeBytes bytes
    rwa [fromLeBytes_toLeBytes (by omega), fromLeBytes_toLeBytes (by decide)] at read
  rw [fitsI32_iff] at fits
  obtain rfl : start = 0 := by omega
  refine ⟨Int.dvd_zero _, fun i _ liquid => ?_⟩
  cases i with
  | zero => rw [readTick_firstTickOnly]; rfl
  | succ i =>
    rw [liquidity_firstTickOnly i.succ_ne_zero] at liquid
    exact absurd liquid (Nat.lt_irrefl 0)

/-- The search leaves the array it starts in and finds the tick in the next. -/
theorem walk_skips_no_tick_belowZero :
    (∃ cache, belowZero.search (belowZero.start 1) = .ok (some ⟨0, 0⟩, cache)) ∧
      ∀ state, belowZero.Candidate (-1) state → NoNearer false 0 state.tick := by
  have long : ¬firstTickOnly.length < tickArrayDataLen := by
    simp only [firstTickOnly, List.length_append, List.length_replicate, length_toLeBytes]
    decide
  have fetched : belowZero.fetch 0 ∅ = .ok (firstTickOnly, AList.insert 0 firstTickOnly ∅) := by
    have provided : belowZero.provider.poolAccountData (pdaTickArrayAddress belowZero.find belowZero.poolId 0)
        = some firstTickOnly := by rfl
    rw [fetch]
    simp only [AList.lookup_empty]
    rw [if_neg (by decide), provided]
    exact if_neg long
  have here : findInitializedTickInArray firstTickOnly (-1) false = some ⟨0, 0⟩ := by
    rw [findInitializedTickInArray, if_neg Bool.false_ne_true, List.range_succ_eq_map, List.findSome?_cons,
      readTick_firstTickOnly]
    rfl
  have searched : belowZero.search (belowZero.start 1) = .ok (some ⟨0, 0⟩, AList.insert 0 firstTickOnly ∅) := by
    change belowZero.scan (-1) 1024 (tickArrayStartIndex (-1) 1) ∅ = _
    have start : tickArrayStartIndex (-1) 1 = -60 := by decide
    have next : (signed 32 (if belowZero.zeroForOne then -60 - belowZero.ticksPerArray
        else -60 + belowZero.ticksPerArray)) = 0 := by decide
    rw [start, scan, if_neg (by decide), if_neg (by decide), next, scan, if_neg (by decide), if_pos (by decide),
      fetched, ok_bind]
    dsimp only
    rw [show belowZero.zeroForOne = false from rfl, here]
  exact ⟨⟨_, searched⟩, ((walk_skips_no_tick belowZero (by decide) (by decide) wellFormed_belowZero
    (Reached.start : belowZero.Reached 1 (belowZero.start 1))).1 _ _ searched).2⟩

end Quoting

end RndRust.Thunder.Clmm
