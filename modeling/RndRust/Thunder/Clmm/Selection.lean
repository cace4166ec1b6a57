import Mathlib.Tactic.Ring
import Mathlib.Tactic.SplitIfs
import RndRust.Lib.Nearest
import RndRust.Thunder.Clmm.TickArrays

/-! The selection of the tick arrays that a swap brings along, and the prefetch of the cold start, with
every overflow of an `i32` noticed. Both walk the bitmap outward from the current array. -/
namespace RndRust.Thunder.Clmm
open Lib

def fitsI32 (n : ℤ) : Bool := -2 ^ 31 ≤ n ∧ n < 2 ^ 31

/-- The result of an operation on `i32`. -/
def checkedI32 (n : ℤ) : Option ℤ := if fitsI32 n then some n else none

def keyLe : Pubkey → Pubkey → Bool
  | [], _ => true
  | _ :: _, [] => false
  | a :: as, b :: bs => a < b || a == b && keyLe as bs

/-- `dedup`. -/
def dedup : List Pubkey → List Pubkey
  | [] => []
  | [a] => [a]
  | a :: b :: rest => if a == b then dedup (b :: rest) else a :: dedup (b :: rest)

section Walks

variable (find : FindProgramAddress) (pool : RaydiumClmmPool) (poolId : Pubkey)

def RaydiumClmmPool.ticksPerArray : ℤ := pool.tickSpacing.val * tickArraySize

def checkedTickArrayStartIndex : Option ℤ :=
  checkedI32 (pool.tickCurrent / pool.ticksPerArray * pool.ticksPerArray)

/-- The loop of both walks, for the indices that end it and those that it collects. The position moves on
also after the last array that is wanted. -/
def arraysFrom (beyond initialized : ℤ → Bool) (step : ℤ) : ℕ → ℤ → ℕ → Option (List Pubkey)
  | _, _, 0 => some []
  | 0, _, _ + 1 => none
  | steps + 1, searchPos, wanted + 1 =>
    let tickArrayIndex := searchPos / pool.ticksPerArray
    if beyond tickArrayIndex then some []
    else do
      let next ← checkedI32 (searchPos + step)
      if initialized tickArrayIndex then
        (arraysFrom beyond initialized step steps next wanted).map (pdaTickArrayAddress find poolId searchPos :: ·)
      else arraysFrom beyond initialized step steps next (wanted + 1)

/-- The loop of `compute_clmm_remaining_accounts`. -/
def checkedRemainingFrom (isBuy : Bool) (extensionData : Option Bytes) : ℕ → ℤ → ℕ → Option (List Pubkey) :=
  arraysFrom find pool poolId (fun idx => maxIndex extensionData < idx.natAbs)
    (isTickArrayInitialized pool.tickArrayBitmap extensionData)
    (if isBuy then -pool.ticksPerArray else pool.ticksPerArray)

/-- The loop of `derive_pool_tick_array_pdas` in one direction. -/
def checkedSearchDirection (direction : ℤ) : ℕ → ℤ → ℕ → Option (List Pubkey) :=
  arraysFrom find pool poolId (fun idx => idx < -512 ∨ 511 < idx)
    (isTickArrayInitializedInBitmap pool.tickArrayBitmap) (direction * pool.ticksPerArray)

def notFound (isBuy : Bool) (extensionData : Option Bytes) : String :=
  s!"No initialized tick arrays found in swap direction (tick={pool.tickCurrent}, spacing={pool.tickSpacing.val}, is_buy={isBuy}, has_extension={extensionData.isSome})"

/-- `compute_clmm_remaining_accounts`. -/
def checkedComputeClmmRemainingAccounts (isBuy : Bool) (extensionData : Option Bytes) (steps : ℕ) :
    Option (Except String (List Pubkey)) :=
  if pool.ticksPerArray = 0 then some (.error "Invalid tick spacing (zero)")
  else do
    let currentStart ← checkedTickArrayStartIndex pool
    let arrays ← checkedRemainingFrom find pool poolId isBuy extensionData steps currentStart numRemainingTickArrays
    some (if arrays.isEmpty then .error (notFound pool isBuy extensionData) else .ok arrays)

/-- `derive_pool_tick_array_pdas`. -/
def checkedDerivePoolTickArrayPdas (steps : ℕ) : Option (List Pubkey) :=
  if pool.ticksPerArray = 0 then some []
  else do
    let currentStart ← checkedTickArrayStartIndex pool
    let below ← checkedSearchDirection find pool poolId (-1) steps currentStart numRemainingTickArrays
    let above ← checkedSearchDirection find pool poolId 1 steps currentStart numRemainingTickArrays
    some (dedup ((below ++ above).mergeSort keyLe))

end Walks

section Wrapping

variable {find : FindProgramAddress} {pool : RaydiumClmmPool} {poolId : Pubkey} {isBuy : Bool}
  {extensionData : Option Bytes} {n : ℤ} {steps wanted : ℕ} {arrays : List Pubkey}

@[simp] theorem fitsI32_iff : fitsI32 n ↔ -2 ^ 31 ≤ n ∧ n < 2 ^ 31 := decide_eq_true_iff

theorem checkedI32_eq_some {m : ℤ} : checkedI32 n = some m ↔ fitsI32 n ∧ n = m := by
  rw [checkedI32]
  split <;> simp_all

theorem signed_of_fits (fits : fitsI32 n) : signed 32 n = n := by
  rw [fitsI32_iff] at fits
  rw [signed, Int.bmod_def]
  omega

/-- Where nothing overflows, the loop that wraps does the same. -/
theorem remainingFrom_of_checked
    (checked : checkedRemainingFrom find pool poolId isBuy extensionData steps n wanted = some arrays) :
    remainingFrom find pool poolId isBuy extensionData steps n wanted = some arrays := by
  induction steps generalizing n wanted arrays with
  | zero => cases wanted <;> exact checked
  | succ steps ih =>
    cases wanted with
    | zero => exact checked
    | succ wanted =>
      rw [checkedRemainingFrom, arraysFrom] at checked
      rw [remainingFrom]
      change (if maxIndex extensionData < (n / pool.ticksPerArray).natAbs then some [] else _) = _
      simp only [decide_eq_true_eq] at checked
      split at checked
      case isTrue beyond => rwa [if_pos beyond]
      case isFalse inside =>
        rw [if_neg inside]
        obtain ⟨next, moved, checked⟩ := Option.bind_eq_some_iff.mp checked
        obtain ⟨fits, rfl⟩ := checkedI32_eq_some.mp moved
        have step : signed 32 (if isBuy then n - pool.ticksPerArray else n + pool.ticksPerArray)
            = n + if isBuy then -pool.ticksPerArray else pool.ticksPerArray := by
          rw [← signed_of_fits fits]
          cases isBuy <;> rfl
        change (if isTickArrayInitialized pool.tickArrayBitmap extensionData (n / pool.ticksPerArray) then
          (remainingFrom find pool poolId isBuy extensionData steps
            (signed 32 (if isBuy then n - pool.ticksPerArray else n + pool.ticksPerArray)) wanted).map _ else
          remainingFrom find pool poolId isBuy extensionData steps
            (signed 32 (if isBuy then n - pool.ticksPerArray else n + pool.ticksPerArray)) (wanted + 1)) = _
        rw [step]
        split at checked
        case isTrue here =>
          obtain ⟨rest, found, rfl⟩ := Option.map_eq_some_iff.mp checked
          rw [if_pos here, ih found]
          rfl
        case isFalse none => rw [if_neg none, ih checked]

/-- The answers are those of the function that wraps. -/
theorem computeClmmRemainingAccounts_of_checked {answer : Except String (List Pubkey)}
    (checked : checkedComputeClmmRemainingAccounts find pool poolId isBuy extensionData steps = some answer) :
    computeClmmRemainingAccounts find pool poolId isBuy extensionData steps = answer := by
  rw [checkedComputeClmmRemainingAccounts] at checked
  rw [computeClmmRemainingAccounts]
  change (if pool.ticksPerArray = 0 then _ else _) = _
  split at checked
  case isTrue zero =>
    rw [if_pos zero]
    exact Option.some.inj checked
  case isFalse positive =>
    obtain ⟨start, moved, checked⟩ := Option.bind_eq_some_iff.mp checked
    obtain ⟨fits, rfl⟩ := checkedI32_eq_some.mp moved
    obtain ⟨arrays, walked, checked⟩ := Option.bind_eq_some_iff.mp checked
    have start : tickArrayStartIndex pool.tickCurrent pool.tickSpacing
        = pool.tickCurrent / pool.ticksPerArray * pool.ticksPerArray := signed_of_fits fits
    rw [if_neg positive, start, remainingFrom_of_checked walked, ← Option.some.inj checked]
    cases arrays <;> rfl

end Wrapping

/-- Which way the walk goes. -/
def direction (isBuy : Bool) : ℤ := if isBuy then -1 else 1

section Places

variable (pool : RaydiumClmmPool) (isBuy : Bool)

/-- The index of the current array. -/
def RaydiumClmmPool.current : ℤ := pool.tickCurrent / pool.ticksPerArray

/-- The index of the array so many places onward. -/
def RaydiumClmmPool.onward (j : ℕ) : ℤ := pool.current + direction isBuy * j

/-- Its first tick. -/
def RaydiumClmmPool.startOnward (j : ℕ) : ℤ := pool.onward isBuy j * pool.ticksPerArray

end Places

section Arithmetic

variable {find : FindProgramAddress} {pool : RaydiumClmmPool} {poolId : Pubkey} {isBuy : Bool}
  {extensionData : Option Bytes} {n : ℤ} {steps wanted j : ℕ} {beyond initialized : ℤ → Bool} {a : Pubkey}
  {keys : List Pubkey}

theorem mem_dedup : a ∈ dedup keys ↔ a ∈ keys := by
  fun_induction dedup keys with
  | case1 => rfl
  | case2 => rfl
  | case3 b c rest same ih =>
    obtain rfl := eq_of_beq same
    simp only [ih, List.mem_cons]
    tauto
  | case4 b c rest other ih => rw [List.mem_cons, ih, List.mem_cons (l := c :: rest)]

theorem direction_cases (isBuy : Bool) : direction isBuy = -1 ∧ isBuy = true ∨ direction isBuy = 1 ∧ isBuy = false := by
  cases isBuy
  · exact .inr ⟨rfl, rfl⟩
  · exact .inl ⟨rfl, rfl⟩

/-- A step of the walk, in indices. -/
theorem startOnward_succ : pool.startOnward isBuy j + direction isBuy * pool.ticksPerArray
    = pool.startOnward isBuy (j + 1) := by
  simp only [RaydiumClmmPool.startOnward, RaydiumClmmPool.onward]
  push_cast
  ring

/-- The walk over positions is the search over places. -/
theorem arraysFrom_eq (spaced : pool.ticksPerArray ≠ 0) :
    arraysFrom find pool poolId beyond initialized (direction isBuy * pool.ticksPerArray) steps
        (pool.startOnward isBuy j) wanted
      = (search (fun j => initialized (pool.onward isBuy j)) (fun j => beyond (pool.onward isBuy j))
          (fun j => fitsI32 (pool.startOnward isBuy j)) steps j wanted).map
        (List.map fun j => pdaTickArrayAddress find poolId (pool.startOnward isBuy j)) := by
  have index (j : ℕ) : pool.startOnward isBuy j / pool.ticksPerArray = pool.onward isBuy j :=
    Int.mul_ediv_cancel _ spaced
  induction steps generalizing j wanted with
  | zero => cases wanted <;> rfl
  | succ steps ih =>
    cases wanted with
    | zero => rfl
    | succ wanted =>
      simp only [arraysFrom, search, index, startOnward_succ, checkedI32]
      split
      case isTrue => rfl
      case isFalse =>
        split
        case isFalse => rfl
        case isTrue =>
          simp only [Option.bind_eq_bind, Option.bind_some, ih]
          split
          case isTrue =>
            simp only [Option.map_map]
            rfl
          case isFalse => rfl

section Bounds

variable {most k i : ℕ} {found : List ℕ}

theorem width_bounds {tickSpacing : Word 16} (spaced : tickSpacing ≠ 0) :
    60 ≤ tickSpacing.val * tickArraySize ∧ tickSpacing.val * tickArraySize ≤ 3932100 := by
  have positive : 0 < tickSpacing.val := Nat.pos_of_ne_zero fun zero => spaced (Fin.ext zero)
  have below : tickSpacing.val < 65536 := tickSpacing.isLt
  unfold tickArraySize
  omega

theorem ticksPerArray_bounds (spaced : pool.tickSpacing ≠ 0) :
    60 ≤ pool.ticksPerArray ∧ pool.ticksPerArray ≤ 3932100 := width_bounds spaced

theorem current_bounds (spaced : pool.tickSpacing ≠ 0) (ranged : InRange pool.tickCurrent) :
    -7394 ≤ pool.current ∧ pool.current ≤ 7393 := by
  obtain ⟨least, -⟩ := ticksPerArray_bounds spaced
  unfold InRange minTick maxTick at ranged
  have positive : 0 < pool.ticksPerArray := by omega
  constructor
  · refine (Int.le_ediv_iff_mul_le positive).mpr ?_
    have low : -7394 * pool.ticksPerArray ≤ -7394 * 60 := Int.mul_le_mul_of_nonpos_left (by decide) least
    omega
  · refine Int.lt_add_one_iff.mp ((Int.ediv_lt_iff_lt_mul positive).mpr ?_)
    have high : (7393 + 1) * 60 ≤ (7393 + 1) * pool.ticksPerArray := Int.mul_le_mul_of_nonneg_left least (by decide)
    omega

theorem fits_of_natAbs (spaced : pool.tickSpacing ≠ 0) (near : n.natAbs ≤ most)
    (room : most * pool.ticksPerArray < 2 ^ 31) : fitsI32 (n * pool.ticksPerArray) := by
  obtain ⟨least, -⟩ := ticksPerArray_bounds spaced
  have low : -(most : ℤ) * pool.ticksPerArray ≤ n * pool.ticksPerArray :=
    Int.mul_le_mul_of_nonneg_right (by omega) (by omega)
  have high : n * pool.ticksPerArray ≤ most * pool.ticksPerArray :=
    Int.mul_le_mul_of_nonneg_right (by omega) (by omega)
  rw [Int.neg_mul] at low
  rw [fitsI32_iff]
  omega

theorem start_fits (isBuy : Bool) (spaced : pool.tickSpacing ≠ 0) (ranged : InRange pool.tickCurrent) :
    checkedTickArrayStartIndex pool = some (pool.startOnward isBuy 0) := by
  obtain ⟨least, most⟩ := ticksPerArray_bounds spaced
  have below := Int.ediv_mul_le pool.tickCurrent (show pool.ticksPerArray ≠ 0 by omega)
  have above := Int.lt_ediv_add_one_mul_self pool.tickCurrent (show 0 < pool.ticksPerArray by omega)
  rw [Int.add_mul, Int.one_mul] at above
  unfold InRange minTick maxTick at ranged
  have fits : fitsI32 (pool.tickCurrent / pool.ticksPerArray * pool.ticksPerArray) := by
    rw [fitsI32_iff]
    omega
  rw [checkedTickArrayStartIndex, checkedI32, if_pos fits]
  simp [RaydiumClmmPool.startOnward, RaydiumClmmPool.onward, RaydiumClmmPool.current]

theorem extensionBit_within {data : Bytes} {byteStart : ℕ} (here : extensionBit data byteStart n) :
    0 ≤ n ∧ n < 7168 := by
  have groups : ((extensionGroupSize * extensionNumGroups : ℕ) : ℤ) = 7168 := rfl
  rw [extensionBit, groups] at here
  split at here
  · cases here
  case isFalse inside => omega

theorem initialized_within (here : isTickArrayInitialized pool.tickArrayBitmap extensionData n) :
    n.natAbs ≤ maxIndex extensionData ∧ (extensionData = none → -512 ≤ n ∧ n ≤ 511) := by
  unfold isTickArrayInitialized at here
  split at here
  case isTrue inside =>
    refine ⟨?_, fun _ => inside⟩
    unfold maxIndex
    split <;> omega
  case isFalse =>
    cases extensionData with
    | none => cases here
    | some ext =>
      refine ⟨?_, nofun⟩
      change n.natAbs ≤ 7680
      rw [Option.any_some, isTickArrayInitializedInExtension] at here
      split at here
      · cases here
      · split at here
        · have inside := extensionBit_within here
          omega
        · have inside := extensionBit_within here
          omega

theorem natAbs_onward_le (near : pool.current.natAbs ≤ most) (before : (i : ℤ) ≤ most - direction isBuy * pool.current) :
    (pool.onward isBuy i).natAbs ≤ most := by
  unfold RaydiumClmmPool.onward
  obtain ⟨way, -⟩ | ⟨way, -⟩ := direction_cases isBuy <;> rw [way] at before ⊢ <;> omega

/-- A walk that has left the reach goes on outside it. -/
theorem natAbs_onward_gt (near : pool.current.natAbs ≤ most) (beyond : most < (pool.onward isBuy k).natAbs)
    (after : k ≤ i) : most < (pool.onward isBuy i).natAbs := by
  unfold RaydiumClmmPool.onward at *
  obtain ⟨way, -⟩ | ⟨way, -⟩ := direction_cases isBuy <;> rw [way] at beyond ⊢ <;> omega

/-- A walk ends at the first array outside of its reach when that one has a place. -/
theorem exists_walk (beyond : ℤ → Bool) (marked : ℕ → Bool) (spaced : pool.tickSpacing ≠ 0) (near : pool.current.natAbs ≤ most)
    (room : most * pool.ticksPerArray < 2 ^ 31) (stops : beyond (direction isBuy * most)) (enough : 2 * most < steps) :
    ∃ found, search marked (fun j => beyond (pool.onward isBuy j)) (fun j => fitsI32 (pool.startOnward isBuy j)) steps 0
      wanted = some found := by
  have far : (most - direction isBuy * pool.current).toNat ≤ 2 * most := by
    obtain ⟨way, -⟩ | ⟨way, -⟩ := direction_cases isBuy <;> rw [way] <;> omega
  refine exists_search (d := (most - direction isBuy * pool.current).toNat) (by omega) (fun i _ before => ?_) (.inl ?_)
  · refine fits_of_natAbs spaced (natAbs_onward_le near ?_) room
    obtain ⟨way, -⟩ | ⟨way, -⟩ := direction_cases isBuy <;> rw [way] at before ⊢ <;> omega
  · have there : pool.onward isBuy (0 + (most - direction isBuy * pool.current).toNat) = direction isBuy * most := by
      unfold RaydiumClmmPool.onward
      obtain ⟨way, -⟩ | ⟨way, -⟩ := direction_cases isBuy <;> rw [way] <;> omega
    simp only [there, stops]

end Bounds

end Arithmetic

section Answers

variable (find : FindProgramAddress) (pool : RaydiumClmmPool) (poolId : Pubkey) (isBuy : Bool)
  (extensionData : Option Bytes)

/-- The array so many places onward has its bit set. -/
def RaydiumClmmPool.marked (j : ℕ) : Bool :=
  isTickArrayInitialized pool.tickArrayBitmap extensionData (pool.onward isBuy j)

def RaydiumClmmPool.addresses (found : List ℕ) : List Pubkey :=
  found.map fun j => pdaTickArrayAddress find poolId (pool.startOnward isBuy j)

/-- The answer for the places that are found. -/
def RaydiumClmmPool.answer (found : List ℕ) : Except String (List Pubkey) :=
  if found = [] then .error (notFound pool isBuy extensionData) else .ok (pool.addresses find poolId isBuy found)

/-- The walk of the selection, over places. -/
def RaydiumClmmPool.walk (steps : ℕ) : Option (List ℕ) :=
  search (pool.marked isBuy extensionData) (fun j => maxIndex extensionData < (pool.onward isBuy j).natAbs)
    (fun j => fitsI32 (pool.startOnward isBuy j)) steps 0 numRemainingTickArrays

/-- The walk of the prefetch, over places. -/
def RaydiumClmmPool.prefetch (steps : ℕ) : Option (List ℕ) :=
  search (pool.marked isBuy none) (fun j => pool.onward isBuy j < -512 ∨ 511 < pool.onward isBuy j)
    (fun j => fitsI32 (pool.startOnward isBuy j)) steps 0 numRemainingTickArrays

end Answers

section Selected

variable {find : FindProgramAddress} {pool : RaydiumClmmPool} {poolId : Pubkey} {isBuy : Bool}
  {extensionData : Option Bytes} {ext : Bytes} {steps later i j : ℕ} {found fetched : List ℕ} {pdas : List Pubkey}

theorem checkedComputeClmmRemainingAccounts_eq (spaced : pool.tickSpacing ≠ 0) (ranged : InRange pool.tickCurrent) :
    checkedComputeClmmRemainingAccounts find pool poolId isBuy extensionData steps
      = (pool.walk isBuy extensionData steps).map (pool.answer find poolId isBuy extensionData) := by
  obtain ⟨least, -⟩ := ticksPerArray_bounds spaced
  have positive : pool.ticksPerArray ≠ 0 := by omega
  have step : (if isBuy then -pool.ticksPerArray else pool.ticksPerArray) = direction isBuy * pool.ticksPerArray := by
    cases isBuy <;> simp [direction]
  rw [checkedComputeClmmRemainingAccounts, if_neg positive, start_fits isBuy spaced ranged]
  change (checkedRemainingFrom find pool poolId isBuy extensionData steps (pool.startOnward isBuy 0) _).bind _ = _
  rw [checkedRemainingFrom, step, arraysFrom_eq positive, Option.bind_map, Option.map_eq_bind]
  refine congrArg (Option.bind _) (funext fun found => ?_)
  cases found <;> rfl

theorem isTickArrayInitialized_none {bitmap : Fin 16 → U64} {idx : ℤ} :
    isTickArrayInitialized bitmap none idx = isTickArrayInitializedInBitmap bitmap idx := by
  rw [isTickArrayInitialized]
  split
  case isTrue => rfl
  case isFalse outside =>
    rw [isTickArrayInitializedInBitmap, dif_neg (by omega)]
    rfl

theorem checkedSearchDirection_eq (spaced : pool.tickSpacing ≠ 0) :
    checkedSearchDirection find pool poolId (direction isBuy) steps (pool.startOnward isBuy 0) numRemainingTickArrays
      = (pool.prefetch isBuy steps).map (pool.addresses find poolId isBuy) := by
  obtain ⟨least, -⟩ := ticksPerArray_bounds spaced
  have same : pool.marked isBuy none = fun j => isTickArrayInitializedInBitmap pool.tickArrayBitmap (pool.onward isBuy j) :=
    funext fun j => isTickArrayInitialized_none
  rw [checkedSearchDirection, arraysFrom_eq (by omega), RaydiumClmmPool.prefetch, same]
  rfl

/-- The prefetch gives the addresses of both directions. -/
theorem checkedDerivePoolTickArrayPdas_eq (spaced : pool.tickSpacing ≠ 0) (ranged : InRange pool.tickCurrent) :
    checkedDerivePoolTickArrayPdas find pool poolId steps = (pool.prefetch true steps).bind fun below =>
      (pool.prefetch false steps).map fun above => dedup ((pool.addresses find poolId true below
        ++ pool.addresses find poolId false above).mergeSort keyLe) := by
  obtain ⟨least, -⟩ := ticksPerArray_bounds spaced
  rw [checkedDerivePoolTickArrayPdas, if_neg (by omega), start_fits true spaced ranged]
  change (checkedSearchDirection find pool poolId (direction true) steps (pool.startOnward true 0) _).bind (fun below =>
    (checkedSearchDirection find pool poolId (direction false) steps (pool.startOnward false 0) _).bind _) = _
  rw [checkedSearchDirection_eq spaced, checkedSearchDirection_eq spaced, Option.bind_map]
  refine congrArg _ (funext fun below => ?_)
  change ((pool.prefetch false steps).map _).bind _ = _
  rw [Option.bind_map, Option.map_eq_bind]
  rfl

theorem mem_derived (spaced : pool.tickSpacing ≠ 0) (ranged : InRange pool.tickCurrent)
    (derived : checkedDerivePoolTickArrayPdas find pool poolId steps = some pdas) : ∃ below above,
      pool.prefetch true steps = some below ∧ pool.prefetch false steps = some above ∧ ∀ a, a ∈ pdas ↔
        a ∈ pool.addresses find poolId true below ∨ a ∈ pool.addresses find poolId false above := by
  rw [checkedDerivePoolTickArrayPdas_eq spaced ranged] at derived
  obtain ⟨below, lower, derived⟩ := Option.bind_eq_some_iff.mp derived
  obtain ⟨above, upper, rfl⟩ := Option.map_eq_some_iff.mp derived
  exact ⟨below, above, lower, upper, fun a => by rw [mem_dedup, List.mem_mergeSort, List.mem_append]⟩

theorem walk_nearest (near : pool.current.natAbs ≤ maxIndex extensionData)
    (walked : pool.walk isBuy extensionData steps = some found) :
    Nearest (pool.marked isBuy extensionData) numRemainingTickArrays found := by
  refine (search_searched walked).isNearest fun k i stops after marked => ?_
  have beyond := natAbs_onward_gt near (of_decide_eq_true stops) after
  exact beyond.not_ge (initialized_within marked).1

theorem nearest_nil : Nearest (pool.marked isBuy extensionData) numRemainingTickArrays [] ↔
    ∀ j, ¬pool.marked isBuy extensionData j := by
  constructor
  · intro nearest j marked
    cases (nearest.nearest j marked List.not_mem_nil).1
  · intro none
    exact ⟨.nil, nofun, Nat.zero_le _, fun j marked => absurd marked (none j)⟩

section Extended

variable {a b c : ℕ}

theorem fits_between (spaced : pool.tickSpacing ≠ 0) (first : fitsI32 (pool.startOnward isBuy 0))
    (last : fitsI32 (pool.startOnward isBuy j)) (before : i ≤ j) : fitsI32 (pool.startOnward isBuy i) := by
  obtain ⟨least, -⟩ := ticksPerArray_bounds spaced
  have start (i : ℕ) : pool.startOnward isBuy i = pool.startOnward isBuy 0 + direction isBuy * (i * pool.ticksPerArray) := by
    simp only [RaydiumClmmPool.startOnward, RaydiumClmmPool.onward]
    push_cast
    ring
  have nonneg : 0 ≤ (i : ℤ) * pool.ticksPerArray := Int.mul_nonneg (by omega) (by omega)
  have less : (i : ℤ) * pool.ticksPerArray ≤ j * pool.ticksPerArray :=
    Int.mul_le_mul_of_nonneg_right (by omega) (by omega)
  rw [fitsI32_iff] at first last ⊢
  rw [start] at last ⊢
  obtain ⟨way, -⟩ | ⟨way, -⟩ := direction_cases isBuy <;> rw [way] at last ⊢ <;> omega

theorem spacing_of_fits (far : 7680 < (pool.onward isBuy j).natAbs) (fits : fitsI32 (pool.startOnward isBuy j)) :
    pool.tickSpacing.val ≤ 4659 := by
  have positive : 0 ≤ pool.ticksPerArray := Int.mul_nonneg (Int.natCast_nonneg _) (by decide)
  rw [fitsI32_iff, RaydiumClmmPool.startOnward] at fits
  have reach : 7681 * pool.ticksPerArray ≤ 2 ^ 31 := by
    obtain above | below : 7681 ≤ pool.onward isBuy j ∨ pool.onward isBuy j ≤ -7681 := by omega
    · have more := Int.mul_le_mul_of_nonneg_right above positive
      omega
    · have more := Int.mul_le_mul_of_nonneg_right below positive
      omega
  unfold RaydiumClmmPool.ticksPerArray tickArraySize at reach
  omega

/-- With the extension the walk ends exactly when it meets no position that does not fit. -/
theorem walk_extended_iff (spaced : pool.tickSpacing ≠ 0) (ranged : InRange pool.tickCurrent) :
    (∃ steps found, pool.walk isBuy (some ext) steps = some found) ↔ pool.tickSpacing.val ≤ 4659 ∨
      ∃ a b c, a < b ∧ b < c ∧ pool.marked isBuy (some ext) a ∧ pool.marked isBuy (some ext) b ∧
        pool.marked isBuy (some ext) c ∧ fitsI32 (pool.startOnward isBuy (c + 1)) := by
  have current := current_bounds spaced ranged
  constructor
  · rintro ⟨steps, found, walked⟩
    have searched := search_searched walked
    obtain three | ⟨n, -, stops, zero | fits⟩ := searched.ended
    · obtain ⟨a, b, c, rfl⟩ := List.length_eq_three.mp three
      have ordered := searched.ordered
      have marked := searched.ahead
      have fitting := searched.fitting
      simp only [List.pairwise_cons, List.forall_mem_cons] at ordered marked fitting
      exact .inr ⟨a, b, c, ordered.1.1, ordered.2.1.1, marked.1.2, marked.2.1.2, marked.2.2.1.2, fitting.2.2.1⟩
    · have far : 7680 < (pool.onward isBuy n).natAbs := of_decide_eq_true stops
      rw [zero] at far
      simp only [RaydiumClmmPool.onward, Nat.cast_zero, Int.mul_zero, Int.add_zero] at far
      omega
    · exact .inl (spacing_of_fits (of_decide_eq_true stops) fits)
  · rintro (small | ⟨a, b, c, first, second, marked_a, marked_b, marked_c, fits⟩)
    · have room : (7681 : ℕ) * pool.ticksPerArray < 2 ^ 31 := by
        unfold RaydiumClmmPool.ticksPerArray tickArraySize
        omega
      exact ⟨_, exists_walk (fun idx => maxIndex (some ext) < idx.natAbs) _ spaced (by omega) room
        (by cases isBuy <;> rfl) (Nat.lt_succ_self _)⟩
    · have start : fitsI32 (pool.startOnward isBuy 0) := by
        have fits := start_fits isBuy spaced ranged
        rw [checkedTickArrayStartIndex, checkedI32] at fits
        split at fits
        case isTrue inside => exact Option.some.inj fits ▸ inside
        case isFalse => cases fits
      refine ⟨c + 2, exists_search (d := c + 1) (Nat.lt_succ_self _) (fun i _ before => ?_)
        (.inr ⟨{a, b, c}, fun i member => ?_, ?_⟩)⟩
      · exact fits_between spaced start fits (by omega)
      · simp only [Finset.mem_insert, Finset.mem_singleton] at member
        obtain rfl | rfl | rfl := member
        · exact ⟨Nat.zero_le _, by omega, marked_a⟩
        · exact ⟨Nat.zero_le _, by omega, marked_b⟩
        · exact ⟨Nat.zero_le _, by omega, marked_c⟩
      · exact (Finset.card_eq_three.mpr ⟨a, b, c, by omega, by omega, by omega, rfl⟩).ge

end Extended

section InPool

/-- Some bit of the bitmap in the pool is set. -/
def RaydiumClmmPool.HasArrays (pool : RaydiumClmmPool) : Prop :=
  ∃ idx, isTickArrayInitializedInBitmap pool.tickArrayBitmap idx

theorem inBitmap_within {idx : ℤ} (here : isTickArrayInitializedInBitmap pool.tickArrayBitmap idx) :
    -512 ≤ idx ∧ idx ≤ 511 := by
  rw [← isTickArrayInitialized_none] at here
  exact (initialized_within here).2 rfl

/-- An array of the bitmap lies onward unless the walk has gone past it. -/
theorem exists_marked {idx : ℤ} (here : isTickArrayInitializedInBitmap pool.tickArrayBitmap idx)
    (ahead : 0 ≤ direction isBuy * (idx - pool.current)) : ∃ j, pool.marked isBuy none j := by
  refine ⟨(direction isBuy * (idx - pool.current)).toNat, ?_⟩
  have there : pool.onward isBuy (direction isBuy * (idx - pool.current)).toNat = idx := by
    unfold RaydiumClmmPool.onward
    obtain ⟨way, -⟩ | ⟨way, -⟩ := direction_cases isBuy <;> rw [way] at ahead ⊢ <;> omega
  rw [RaydiumClmmPool.marked, there, isTickArrayInitialized_none]
  exact here

theorem search_stopped {marked stop fits : ℕ → Bool} {wanted : ℕ} (stops : stop 0)
    (searched : search marked stop fits steps 0 (wanted + 1) = some found) : found = [] := by
  cases steps with
  | zero => cases searched
  | succ steps =>
    rw [search, if_pos stops] at searched
    exact (Option.some.inj searched).symm

theorem onward_zero : pool.onward isBuy 0 = pool.current := by
  simp [RaydiumClmmPool.onward]

theorem exists_walk_none (spaced : pool.tickSpacing ≠ 0) (near : pool.current.natAbs ≤ 512) :
    ∃ found, pool.walk isBuy none 1027 = some found := by
  obtain ⟨-, most⟩ := ticksPerArray_bounds spaced
  have room : (513 : ℕ) * pool.ticksPerArray < 2 ^ 31 := by omega
  exact exists_walk (fun idx => maxIndex none < idx.natAbs) _ spaced (by omega) room (by cases isBuy <;> rfl)
    (Nat.lt_succ_self _)

theorem exists_prefetch (spaced : pool.tickSpacing ≠ 0) : ∃ found, pool.prefetch isBuy 1027 = some found := by
  obtain ⟨-, most⟩ := ticksPerArray_bounds spaced
  by_cases near : pool.current.natAbs ≤ 513
  · have room : (513 : ℕ) * pool.ticksPerArray < 2 ^ 31 := by omega
    exact exists_walk (fun idx => idx < -512 ∨ 511 < idx) _ spaced near room (by cases isBuy <;> rfl)
      (Nat.lt_succ_self _)
  · refine ⟨[], if_pos (decide_eq_true ?_)⟩
    rw [onward_zero]
    omega

/-- From inside the window of the bitmap both walks find the same places. -/
theorem prefetch_nearest (inside : -512 ≤ pool.current ∧ pool.current ≤ 511)
    (fetched_by : pool.prefetch isBuy steps = some fetched) :
    Nearest (pool.marked isBuy none) numRemainingTickArrays fetched := by
  refine (search_searched fetched_by).isNearest fun k i stops after marked => ?_
  have out := of_decide_eq_true stops
  have within := (initialized_within marked).2 rfl
  unfold RaydiumClmmPool.onward at out within
  obtain ⟨way, -⟩ | ⟨way, -⟩ := direction_cases isBuy <;> rw [way] at out within <;> omega

theorem prefetch_outside (outside : ¬(-512 ≤ pool.current ∧ pool.current ≤ 511))
    (fetched_by : pool.prefetch isBuy steps = some fetched) : fetched = [] := by
  refine search_stopped (decide_eq_true ?_) fetched_by
  rw [onward_zero]
  omega

theorem walk_outside (outside : 512 < pool.current.natAbs) (walked : pool.walk isBuy none steps = some found) :
    found = [] := by
  refine search_stopped (decide_eq_true ?_) walked
  rw [onward_zero]
  exact outside

theorem same_places (apart : pool.current = 512 → ¬pool.HasArrays) (walked : pool.walk isBuy none steps = some found)
    (fetched_by : pool.prefetch isBuy later = some fetched) (j : ℕ) : j ∈ found ↔ j ∈ fetched := by
  by_cases inside : -512 ≤ pool.current ∧ pool.current ≤ 511
  · have near : pool.current.natAbs ≤ maxIndex none := by
      change _ ≤ 512
      omega
    have first := walk_nearest near walked
    have second := prefetch_nearest inside fetched_by
    exact ⟨fun member => first.subset second member, fun member => second.subset first member⟩
  · rw [prefetch_outside inside fetched_by]
    refine iff_of_false (fun member => ?_) List.not_mem_nil
    by_cases edge : pool.current = 512
    · have marked := (search_searched walked).ahead j member
      rw [RaydiumClmmPool.marked, isTickArrayInitialized_none] at marked
      exact apart edge ⟨_, marked.2⟩
    · rw [walk_outside (by omega) walked] at member
      cases member

theorem answer_eq_ok {arrays : List Pubkey} (answered : pool.answer find poolId isBuy extensionData found = .ok arrays) :
    arrays = pool.addresses find poolId isBuy found := by
  rw [RaydiumClmmPool.answer] at answered
  split at answered
  · cases answered
  · exact (Except.ok.inj answered).symm

theorem mem_addresses_congr {a : Pubkey} (same : ∀ j, j ∈ found ↔ j ∈ fetched) :
    a ∈ pool.addresses find poolId isBuy found ↔ a ∈ pool.addresses find poolId isBuy fetched := by
  simp only [RaydiumClmmPool.addresses, List.mem_map, same]

theorem walk_ne_nil {idx : ℤ} (near : pool.current.natAbs ≤ 512)
    (here : isTickArrayInitializedInBitmap pool.tickArrayBitmap idx)
    (ahead : 0 ≤ direction isBuy * (idx - pool.current)) (walked : pool.walk isBuy none steps = some found) :
    found ≠ [] := by
  rintro rfl
  obtain ⟨j, marked⟩ := exists_marked here ahead
  exact nearest_nil.mp (walk_nearest near walked) j marked

theorem exists_walk_any (isBuy : Bool) (spaced : pool.tickSpacing ≠ 0) :
    ∃ steps found, pool.walk isBuy none steps = some found := by
  by_cases near : pool.current.natAbs ≤ 512
  · exact ⟨1027, exists_walk_none spaced near⟩
  · refine ⟨1, [], if_pos (decide_eq_true ?_)⟩
    rw [onward_zero]
    exact not_le.mp near

/-- What the selection of one direction chooses is what the prefetch finds there. -/
theorem chosen_iff {a : Pubkey} (spaced : pool.tickSpacing ≠ 0) (ranged : InRange pool.tickCurrent)
    (apart : pool.current = 512 → ¬pool.HasArrays) (fetched_by : pool.prefetch isBuy later = some fetched) :
    a ∈ pool.addresses find poolId isBuy fetched ↔ ∃ steps arrays,
      checkedComputeClmmRemainingAccounts find pool poolId isBuy none steps = some (.ok arrays) ∧ a ∈ arrays := by
  simp only [checkedComputeClmmRemainingAccounts_eq spaced ranged, Option.map_eq_some_iff]
  constructor
  · intro member
    obtain ⟨steps, found, walked⟩ := exists_walk_any isBuy spaced
    rw [← mem_addresses_congr (same_places apart walked fetched_by)] at member
    refine ⟨steps, pool.addresses find poolId isBuy found, ⟨found, walked, if_neg ?_⟩, member⟩
    rintro rfl
    cases member
  · rintro ⟨steps, arrays, ⟨found, walked, answered⟩, member⟩
    rw [answer_eq_ok answered] at member
    exact (mem_addresses_congr (same_places apart walked fetched_by)).mp member

/-- The prefetch brings what the selections of both directions choose, unless the current array is the
first one above the bitmap and there is something in the bitmap. -/
theorem derived_iff (find : FindProgramAddress) (poolId : Pubkey) (spaced : pool.tickSpacing ≠ 0)
    (ranged : InRange pool.tickCurrent) :
    (∃ steps pdas, checkedDerivePoolTickArrayPdas find pool poolId steps = some pdas ∧ ∀ a, a ∈ pdas ↔
      ∃ isBuy steps arrays, checkedComputeClmmRemainingAccounts find pool poolId isBuy none steps
        = some (.ok arrays) ∧ a ∈ arrays) ↔ (pool.current = 512 → ¬pool.HasArrays) := by
  constructor
  · rintro ⟨steps, pdas, derived, same⟩ edge ⟨idx, here⟩
    have inside := inBitmap_within here
    obtain ⟨found, walked⟩ : ∃ found, pool.walk true none 1027 = some found := exists_walk_none spaced (by omega)
    have some_found := walk_ne_nil (by omega) here (by simp only [direction, if_true]; omega) walked
    obtain ⟨j, member⟩ := List.exists_mem_of_ne_nil found some_found
    have chosen : pdaTickArrayAddress find poolId (pool.startOnward true j) ∈ pdas := by
      refine (same _).mpr ⟨true, 1027, pool.addresses find poolId true found, ?_, List.mem_map_of_mem member⟩
      rw [checkedComputeClmmRemainingAccounts_eq spaced ranged, walked, Option.map_some, RaydiumClmmPool.answer,
        if_neg some_found]
    obtain ⟨below, above, lower, upper, of_both⟩ := mem_derived spaced ranged derived
    rw [of_both, prefetch_outside (by omega) lower, prefetch_outside (by omega) upper] at chosen
    obtain none | none := chosen <;> cases none
  · intro apart
    obtain ⟨below, lower⟩ : ∃ below, pool.prefetch true 1027 = some below := exists_prefetch spaced
    obtain ⟨above, upper⟩ : ∃ above, pool.prefetch false 1027 = some above := exists_prefetch spaced
    have derived : checkedDerivePoolTickArrayPdas find pool poolId 1027 = _ :=
      checkedDerivePoolTickArrayPdas_eq spaced ranged
    rw [lower, upper] at derived
    refine ⟨1027, _, derived, fun a => ?_⟩
    rw [mem_dedup, List.mem_mergeSort, List.mem_append, chosen_iff spaced ranged apart lower,
      chosen_iff spaced ranged apart upper, Bool.exists_bool, or_comm]

/-- Without the extension the answer is right unless the current array is outside of the bitmap and the
walk would come to something in it. -/
theorem answered_iff (spaced : pool.tickSpacing ≠ 0) :
    (∃ steps found, pool.walk isBuy none steps = some found ∧
      Nearest (pool.marked isBuy none) numRemainingTickArrays found) ↔
    (pool.HasArrays → pool.current.natAbs ≤ 512 ∨ if isBuy then pool.current < -512 else 512 < pool.current) := by
  by_cases near : pool.current.natAbs ≤ 512
  · obtain ⟨found, walked⟩ : ∃ found, pool.walk isBuy none 1027 = some found := exists_walk_none spaced near
    exact iff_of_true ⟨1027, found, walked, walk_nearest near walked⟩ fun _ => .inl near
  · have unmarked_iff : (∀ j, ¬pool.marked isBuy none j) ↔
        (pool.HasArrays → if isBuy then pool.current < -512 else 512 < pool.current) := by
      constructor
      · rintro nothing ⟨idx, here⟩
        by_contra toward
        have inside := inBitmap_within here
        have ahead : 0 ≤ direction isBuy * (idx - pool.current) := by
          cases isBuy
          · simp only [Bool.false_eq_true, if_false] at toward
            simp only [direction, Bool.false_eq_true, if_false]
            omega
          · simp only [if_true] at toward
            simp only [direction, if_true]
            omega
        obtain ⟨j, marked⟩ := exists_marked here ahead
        exact nothing j marked
      · intro away j marked
        rw [RaydiumClmmPool.marked, isTickArrayInitialized_none] at marked
        have inside := inBitmap_within marked
        have away := away ⟨_, marked⟩
        unfold RaydiumClmmPool.onward at inside
        cases isBuy
        · simp only [Bool.false_eq_true, if_false] at away
          simp only [direction, Bool.false_eq_true, if_false] at inside
          omega
        · simp only [if_true] at away
          simp only [direction, if_true] at inside
          omega
    rw [or_iff_right near, ← unmarked_iff, ← nearest_nil]
    constructor
    · rintro ⟨steps, found, walked, nearest⟩
      rwa [walk_outside (not_le.mp near) walked] at nearest
    · intro nearest
      obtain ⟨steps, found, walked⟩ := exists_walk_any isBuy spaced
      rw [walk_outside (not_le.mp near) walked] at walked
      exact ⟨steps, [], walked, nearest⟩

end InPool

end Selected

/-- With the extension: the spacing is small enough for every index of the bitmaps, or three arrays are
near enough. Without it: when there is something in the bitmap, the current array belongs to it, or the
walk goes away from it. -/
def RaydiumClmmPool.Selects (pool : RaydiumClmmPool) (isBuy : Bool) : Option Bytes → Prop
  | some ext => pool.tickSpacing.val ≤ 4659 ∨ ∃ a b c, a < b ∧ b < c ∧ pool.marked isBuy (some ext) a ∧
      pool.marked isBuy (some ext) b ∧ pool.marked isBuy (some ext) c ∧ fitsI32 (pool.startOnward isBuy (c + 1))
  | none => pool.HasArrays → -512 ≤ pool.current ∧ pool.current ≤ 511 ∨
      if isBuy then pool.current < -512 else 512 < pool.current

theorem selects_none {pool : RaydiumClmmPool} {isBuy : Bool} : pool.Selects isBuy none ↔
    (pool.HasArrays → pool.current.natAbs ≤ 512 ∨ if isBuy then pool.current < -512 else 512 < pool.current) ∧
      (pool.current = 512 → ¬pool.HasArrays) := by
  have window : (-512 ≤ pool.current ∧ pool.current ≤ 511 ∨ if isBuy then pool.current < -512 else 512 < pool.current) ↔
      (pool.current.natAbs ≤ 512 ∨ if isBuy then pool.current < -512 else 512 < pool.current) ∧ pool.current ≠ 512 := by
    cases isBuy
    · simp only [Bool.false_eq_true, if_false]
      omega
    · simp only [if_true]
      omega
  rw [RaydiumClmmPool.Selects, window]
  tauto

/-- For every pool, direction and extension, the selection ends without an overflow, with the addresses of
the nearest three marked arrays onward or with an error when there is none, and without the extension the
prefetch brings the same arrays, if and only if the condition holds. -/
theorem selection_exact_iff (find : FindProgramAddress) (pool : RaydiumClmmPool) (poolId : Pubkey) (isBuy : Bool)
    (extensionData : Option Bytes) (spaced : pool.tickSpacing ≠ 0) (ranged : InRange pool.tickCurrent) :
    ((∃ steps found, checkedComputeClmmRemainingAccounts find pool poolId isBuy extensionData steps
          = some (pool.answer find poolId isBuy extensionData found) ∧
        Nearest (pool.marked isBuy extensionData) numRemainingTickArrays found) ∧
      (extensionData = none → ∃ steps pdas, checkedDerivePoolTickArrayPdas find pool poolId steps = some pdas ∧
        ∀ a, a ∈ pdas ↔ ∃ isBuy steps arrays,
          checkedComputeClmmRemainingAccounts find pool poolId isBuy none steps = some (.ok arrays) ∧ a ∈ arrays)) ↔
    pool.Selects isBuy extensionData := by
  simp only [checkedComputeClmmRemainingAccounts_eq spaced ranged, Option.map_eq_some_iff]
  have current := current_bounds spaced ranged
  cases extensionData with
  | some ext =>
    rw [RaydiumClmmPool.Selects, ← walk_extended_iff spaced ranged]
    constructor
    · rintro ⟨⟨steps, -, ⟨found, walked, -⟩, -⟩, -⟩
      exact ⟨steps, found, walked⟩
    · rintro ⟨steps, found, walked⟩
      have near : pool.current.natAbs ≤ maxIndex (some ext) := by
        change _ ≤ 7680
        omega
      exact ⟨⟨steps, found, ⟨found, walked, rfl⟩, walk_nearest near walked⟩, nofun⟩
  | none =>
    have derived := derived_iff find poolId spaced ranged
    simp only [checkedComputeClmmRemainingAccounts_eq spaced ranged, Option.map_eq_some_iff] at derived
    rw [selects_none, ← derived, ← answered_iff spaced, imp_iff_right rfl]
    refine and_congr_left fun _ => ⟨?_, ?_⟩
    · rintro ⟨steps, found, ⟨walked_to, walked, answered⟩, nearest⟩
      by_cases near : pool.current.natAbs ≤ 512
      · exact ⟨steps, walked_to, walked, walk_nearest near walked⟩
      · -- Nothing is found at once, so the answer is the error, and that is right only if there is nothing.
        obtain rfl := walk_outside (not_le.mp near) walked
        have nothing : found = [] := by
          by_contra some_found
          rw [RaydiumClmmPool.answer, RaydiumClmmPool.answer, if_pos rfl, if_neg some_found] at answered
          cases answered
        exact ⟨steps, [], walked, nothing ▸ nearest⟩
    · rintro ⟨steps, found, walked, nearest⟩
      exact ⟨steps, found, ⟨found, walked, rfl⟩, nearest⟩

/-- A pool with an array around tick 0, and the current tick elsewhere. -/
def centralPool (tickCurrent : ℤ) : RaydiumClmmPool where
  ammConfig := []
  tokenMint0 := []
  tokenMint1 := []
  tokenVault0 := []
  tokenVault1 := []
  observationKey := []
  tickSpacing := 1
  tickCurrent
  tickArrayBitmap i := if i = 8 then 1 else 0

theorem selection_exact_central : ∃ steps found, checkedComputeClmmRemainingAccounts (fun seeds _ => seeds.flatten)
      (centralPool 0) [] true none steps
        = some ((centralPool 0).answer (fun seeds _ => seeds.flatten) [] true none found) ∧
    Nearest ((centralPool 0).marked true none) numRemainingTickArrays found :=
  ((selection_exact_iff _ (centralPool 0) [] true none (by decide) (by decide)).mpr
    fun _ => .inl (by decide)).1

/-- Far above the bitmap a swap down is told that there is no array. -/
theorem selection_exact_fails : InRange (centralPool 36000).tickCurrent ∧
    (∀ find poolId steps arrays,
      checkedComputeClmmRemainingAccounts find (centralPool 36000) poolId true none steps ≠ some (.ok arrays)) ∧
    ∃ j, (centralPool 36000).marked true none j := by
  have central : isTickArrayInitializedInBitmap (centralPool 36000).tickArrayBitmap 0 := by decide
  refine ⟨by decide, fun find poolId steps arrays answered => ?_, exists_marked central (by decide)⟩
  rw [checkedComputeClmmRemainingAccounts_eq (by decide) (by decide), Option.map_eq_some_iff] at answered
  obtain ⟨found, walked, answered⟩ := answered
  rw [walk_outside (by decide) walked] at answered
  cases answered

end RndRust.Thunder.Clmm
