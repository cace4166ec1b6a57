import Mathlib.Data.List.Infix
import Mathlib.Logic.Function.Basic
import Mathlib.Tactic.SplitIfs

/-! The connections of each address, counted, `limiter.rs`. An entry is made before the limit
is asked for, and one that was made for nothing stays behind: the next release takes it below
zero. -/
namespace RndRust.Irc.Server

/-- `ConnectionLimiter`: the count of each address that has an entry, an `AtomicU32`. -/
structure ConnectionLimiter (Ip : Type*) where
  counts : Ip → Option UInt32 := fun _ => none

namespace ConnectionLimiter

variable {Ip : Type*} [DecidableEq Ip]

def store (limiter : ConnectionLimiter Ip) (ip : Ip) (count : Option UInt32) : ConnectionLimiter Ip :=
  { counts := Function.update limiter.counts ip count }

@[simp] theorem store_counts (limiter : ConnectionLimiter Ip) (ip : Ip) (count : Option UInt32) :
    (limiter.store ip count).counts = Function.update limiter.counts ip count := rfl

/-- `try_acquire`. -/
def tryAcquire (limiter : ConnectionLimiter Ip) (ip : Ip) (max : UInt32) : ConnectionLimiter Ip × Bool :=
  let current := (limiter.counts ip).getD 0
  let limiter := limiter.store ip (some current)
  if current ≥ max then (limiter, false)
  else (limiter.store ip (some (current + 1)), true)

/-- `release`: `fetch_sub` wraps around, and the entry is removed if it is at zero now. -/
def release (limiter : ConnectionLimiter Ip) (ip : Ip) : ConnectionLimiter Ip :=
  match limiter.counts ip with
  | none => limiter
  | some prev =>
    let limiter := limiter.store ip (some (prev - 1))
    if prev ≤ 1 then
      if limiter.counts ip = some 0 then limiter.store ip none else limiter
    else limiter

end ConnectionLimiter

inductive Call (Ip : Type*) where
  | tryAcquire (ip : Ip) (max : UInt32)
  | release (ip : Ip)
  deriving DecidableEq

/-- The address that a call is about. -/
def Call.ip {Ip : Type*} : Call Ip → Ip
  | .tryAcquire ip _ | .release ip => ip

/-- The limiter, and how many successful acquires of each address are not released. -/
structure Counted (Ip : Type*) where
  limiter : ConnectionLimiter Ip := {}
  held : Ip → ℕ := fun _ => 0

section Counting

variable {Ip : Type*} [DecidableEq Ip] {s : Counted Ip} {ip other : Ip} {max prev : UInt32} {calls : List (Call Ip)}

/-- A call, and the count of it: an acquire counts if it succeeds, a release never takes the
count below zero. -/
def Counted.call (s : Counted Ip) : Call Ip → Counted Ip
  | .tryAcquire ip max =>
    let (limiter, acquired) := s.limiter.tryAcquire ip max
    { limiter, held := if acquired then Function.update s.held ip (s.held ip + 1) else s.held }
  | .release ip => { limiter := s.limiter.release ip, held := Function.update s.held ip (s.held ip - 1) }

def afterCalls (calls : List (Call Ip)) : Counted Ip := calls.foldl Counted.call {}

/-- The entry of an address is its count, absent at zero. -/
def Counted.Stores (s : Counted Ip) (ip : Ip) : Prop :=
  (s.limiter.counts ip).map UInt32.toNat = if s.held ip = 0 then none else some (s.held ip)

/-- The limiter has every count, and refuses where it has reached the limit. -/
structure Counted.Exact (s : Counted Ip) : Prop where
  stores : ∀ ip, s.Stores ip
  refuses : ∀ ip max, (s.limiter.tryAcquire ip max).2 = false ↔ max.toNat ≤ s.held ip

omit [DecidableEq Ip] in
theorem Counted.Stores.current (stores : s.Stores ip) : ((s.limiter.counts ip).getD 0).toNat = s.held ip := by
  unfold Stores at stores
  cases found : s.limiter.counts ip with
  | none =>
    rw [found] at stores
    split_ifs at stores with zero
    · exact zero.symm
    · cases stores
  | some count =>
    rw [found] at stores
    split_ifs at stores
    · cases stores
    · exact Option.some.inj stores

theorem tryAcquire_refuses_iff (stores : s.Stores ip) :
    (s.limiter.tryAcquire ip max).2 = false ↔ max.toNat ≤ s.held ip := by
  rw [← stores.current, ← UInt32.le_iff_toNat_le, ConnectionLimiter.tryAcquire]
  split_ifs with reached <;> simpa using reached

theorem Counted.exact_of_stores (stores : ∀ ip, s.Stores ip) : s.Exact :=
  ⟨stores, fun ip _ => tryAcquire_refuses_iff (stores ip)⟩

theorem counts_tryAcquire : (s.limiter.tryAcquire ip max).1.counts =
    Function.update s.limiter.counts ip (some (if max ≤ (s.limiter.counts ip).getD 0 then (s.limiter.counts ip).getD 0
      else (s.limiter.counts ip).getD 0 + 1)) := by
  rw [ConnectionLimiter.tryAcquire]
  split_ifs <;> simp [ConnectionLimiter.store]

theorem counts_release : (s.limiter.release ip).counts = Function.update s.limiter.counts ip
    ((s.limiter.counts ip).bind fun prev => if prev = 1 then none else some (prev - 1)) := by
  rw [ConnectionLimiter.release]
  cases found : s.limiter.counts ip with
  | none => exact (Function.update_eq_self_iff.mpr found.symm).symm
  | some prev =>
    have last : prev ≤ 1 ∧ prev - 1 = 0 ↔ prev = 1 := by
      simp only [UInt32.le_iff_toNat_le, ← UInt32.toNat_inj, UInt32.toNat_sub, UInt32.toNat_ofNat, Nat.reducePow, Nat.reduceMod]
      omega
    rw [Option.bind_some]
    by_cases single : prev = 1
    · subst single
      simp
    · simp only [ConnectionLimiter.store_counts, Function.update_self, Option.some.injEq, if_neg single]
      split_ifs with small gone
      · exact (single (last.mp ⟨small, gone⟩)).elim
      · rfl
      · rfl

theorem held_tryAcquire : (s.call (.tryAcquire ip max)).held =
    if (s.limiter.tryAcquire ip max).2 then Function.update s.held ip (s.held ip + 1) else s.held := rfl

/-- Other addresses are left alone. -/
theorem call_other {call : Call Ip} (apart : other ≠ call.ip) :
    (s.call call).limiter.counts other = s.limiter.counts other ∧ (s.call call).held other = s.held other := by
  cases call with
  | tryAcquire ip max =>
    have apart : other ≠ ip := apart
    refine ⟨(congrFun counts_tryAcquire other).trans (Function.update_of_ne apart _ _), ?_⟩
    rw [held_tryAcquire]
    split_ifs
    · exact Function.update_of_ne apart _ _
    · rfl
  | release ip =>
    have apart : other ≠ ip := apart
    exact ⟨(congrFun counts_release other).trans (Function.update_of_ne apart _ _), Function.update_of_ne apart _ _⟩

/-- A successful acquire makes the count one more. An entry that was made is only left without a
count when the limit is zero. -/
theorem stores_tryAcquire_iff (stores : s.Stores ip) :
    (s.call (.tryAcquire ip max)).Stores ip ↔ (max = 0 → 0 < s.held ip) := by
  have current := stores.current
  have counts := (congrFun (@counts_tryAcquire _ _ s ip max) ip).trans (Function.update_self ..)
  have limited : max ≤ (s.limiter.counts ip).getD 0 ↔ max.toNat ≤ s.held ip := by rw [← current, UInt32.le_iff_toNat_le]
  have refuses := @tryAcquire_refuses_iff _ _ _ _ max stores
  have zero : max = 0 ↔ max.toNat = 0 := UInt32.toNat_inj.symm
  rw [Counted.Stores, held_tryAcquire, show (s.call (.tryAcquire ip max)).limiter.counts ip = _ from counts, zero]
  by_cases reached : max.toNat ≤ s.held ip
  · rw [if_pos (limited.mpr reached), refuses.mpr reached, Option.map_some, current]
    by_cases none : s.held ip = 0
    · have zero : max.toNat = 0 := by omega
      simp [none, zero]
    · simpa [none] using fun _ => Nat.pos_of_ne_zero none
  · have acquired : (s.limiter.tryAcquire ip max).2 = true := by simpa using mt refuses.mp reached
    have fits : s.held ip + 1 < 2 ^ 32 := by
      have bound := max.toNat_lt
      omega
    have more : ((s.limiter.counts ip).getD 0 + 1).toNat = s.held ip + 1 := by
      rw [UInt32.toNat_add, current]
      exact Nat.mod_eq_of_lt fits
    rw [if_neg (limited.not.mpr reached), if_pos acquired, Function.update_self, Option.map_some, more]
    exact iff_of_true (if_neg (Nat.succ_ne_zero _)).symm fun none => (reached (none ▸ Nat.zero_le _)).elim

theorem stores_release (stores : s.Stores ip) : (s.call (.release ip)).Stores ip := by
  have counts := (congrFun (@counts_release _ _ s ip) ip).trans (Function.update_self ..)
  have held : (s.call (.release ip)).held ip = s.held ip - 1 := Function.update_self ..
  rw [Counted.Stores, held, show (s.call (.release ip)).limiter.counts ip = _ from counts]
  unfold Counted.Stores at stores
  cases found : s.limiter.counts ip with
  | none =>
    rw [found] at stores
    split_ifs at stores with none
    · rw [Option.bind_none, none]
      rfl
    · cases stores
  | some prev =>
    rw [found] at stores
    split_ifs at stores with none
    · cases stores
    have prior : prev.toNat = s.held ip := Option.some.inj stores
    rw [Option.bind_some, ← prior]
    by_cases single : prev = 1
    · subst single
      rfl
    · have rest : (prev - 1).toNat = prev.toNat - 1 := UInt32.toNat_sub_of_le _ _ (by
        rw [UInt32.le_iff_toNat_le]
        simp only [UInt32.toNat_ofNat, Nat.reducePow, Nat.reduceMod]
        omega)
      have left : prev.toNat - 1 ≠ 0 := fun zero => single (UInt32.toNat_inj.mp (by
        simp only [UInt32.toNat_ofNat, Nat.reducePow, Nat.reduceMod]
        omega))
      rw [if_neg single, Option.map_some, rest, if_neg left]

/-- The call does not ask for one of no connections at all, for an address that has none. -/
def Counted.Asks (s : Counted Ip) (call : Call Ip) : Prop := ∀ ip, call = .tryAcquire ip 0 → 0 < s.held ip

theorem exact_call_iff {call : Call Ip} (exact : s.Exact) : (s.call call).Exact ↔ s.Asks call := by
  have others (stores : (s.call call).Stores call.ip) : (s.call call).Exact := by
    refine Counted.exact_of_stores fun other => ?_
    by_cases same : other = call.ip
    · exact same ▸ stores
    · obtain ⟨counts, held⟩ := @call_other _ _ s _ call same
      rw [Counted.Stores, counts, held]
      exact exact.stores other
  cases call with
  | tryAcquire ip max =>
    have own := @stores_tryAcquire_iff _ _ s ip max (exact.stores ip)
    refine ⟨fun exact ip same => ?_, fun asks => others (own.mpr fun none => asks ip (by rw [none]))⟩
    cases same
    exact own.mp (exact.stores _) rfl
  | release ip => exact iff_of_true (others (stores_release (exact.stores ip))) fun _ same => by cases same

/-- **The counts are exact after every call** of a sequence if and only if no address without
connections is tried with a limit of zero. -/
theorem counts_exact_iff (calls : List (Call Ip)) :
    (∀ before, before <+: calls → (afterCalls before).Exact) ↔
      ∀ before call, before ++ [call] <+: calls → (afterCalls before).Asks call := by
  have next (before : List (Call Ip)) (call : Call Ip) : afterCalls (before ++ [call]) = (afterCalls before).call call := by
    rw [afterCalls, List.foldl_concat]
    rfl
  constructor
  · intro exact before call first
    have reached := exact _ first
    rw [next] at reached
    exact (exact_call_iff (exact before ((List.prefix_append before [call]).trans first))).mp reached
  · intro asks before first
    induction before using List.reverseRecOn with
    | nil => exact Counted.exact_of_stores fun _ => rfl
    | append_singleton before call ih =>
      rw [next]
      exact (exact_call_iff (ih ((List.prefix_append before [call]).trans first))).mpr (asks before call first)

/-- The release of an address that was refused at a limit of zero: its count is the highest there
is, and no acquire succeeds any more. -/
theorem release_after_refusal :
    let s := afterCalls [.tryAcquire () 0, .release ()]
    s.limiter.counts () = some 4294967295 ∧ s.held () = 0 ∧ (s.limiter.tryAcquire () 5).2 = false := by decide

end Counting

end RndRust.Irc.Server
