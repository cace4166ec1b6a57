import Mathlib.Algebra.Order.Group.Int
import RndRust.Lib.Marginal
import RndRust.Thunder.Aggregator.Splits

/-! The rounds that give the buckets out share them optimally where the paths' outputs are concave. -/
namespace RndRust.Thunder.Aggregator
open Lib

section Winner

namespace Allocation

variable {n maxPaths : ℕ} {s : Allocation n} {pathOut : Fin n → U64 → Option U64} {p : Fin n} {inc newOut : U64}
  {before after : Option (Fin n × U64 × U64)}

/-- What a path gains by the bucket. -/
def gainOf (s : Allocation n) (p : Fin n) (newOut : U64) : U64 := newOut.saturatingSub (s.outs p)

/-- The best path so far gains at least this. -/
def Attains (best : Option (Fin n × U64 × U64)) (gain : U64) : Prop := ∃ w, best = some w ∧ gain ≤ w.2.1

/-- No path counts as unfunded while all may be funded. -/
theorem may_fund (few : n ≤ maxPaths) : ¬ (s.alloc p = 0 ∧ maxPaths ≤ s.funded.card) := by
  rintro ⟨empty, many⟩
  have outside : p ∉ s.funded := by simp [mem_funded, empty]
  have fewer : s.funded.card < Fintype.card (Fin n) :=
    Finset.card_lt_univ_of_notMem outside
  rw [Fintype.card_fin] at fewer
  omega

theorem better_of_quoted (few : n ≤ maxPaths) (quoted : pathOut p (s.alloc p + inc) = some newOut) :
    s.better pathOut maxPaths inc before p =
      if before.all fun best => best.2.1 < s.gainOf p newOut then some (p, s.gainOf p newOut, newOut) else before := by
  rw [better, if_neg (may_fund few), quoted]
  rfl

theorem better_of_refused (few : n ≤ maxPaths) (refused : pathOut p (s.alloc p + inc) = none) :
    s.better pathOut maxPaths inc before p = before := by
  rw [better, if_neg (may_fund few), refused]

theorem better_attains {gain : U64} (few : n ≤ maxPaths) (attains : Attains before gain) :
    Attains (s.better pathOut maxPaths inc before p) gain := by
  obtain ⟨w, rfl, le⟩ := attains
  cases quoted : pathOut p (s.alloc p + inc) with
  | none =>
    rw [better_of_refused few quoted]
    exact ⟨w, rfl, le⟩
  | some newOut =>
    rw [better_of_quoted few quoted]
    split
    case isTrue more =>
      have more : w.2.1 < s.gainOf p newOut := by simpa using more
      exact ⟨_, rfl, le.trans more.le⟩
    case isFalse => exact ⟨w, rfl, le⟩

theorem better_attains_own (few : n ≤ maxPaths) (quoted : pathOut p (s.alloc p + inc) = some newOut) :
    Attains (s.better pathOut maxPaths inc before p) (s.gainOf p newOut) := by
  rw [better_of_quoted few quoted]
  split
  case isTrue => exact ⟨_, rfl, le_rfl⟩
  case isFalse less =>
    cases before with
    | none => exact absurd rfl less
    | some w => exact ⟨w, rfl, by simpa using less⟩

theorem foldl_attains {gain : U64} {l : List (Fin n)} (few : n ≤ maxPaths) (attains : Attains before gain) :
    Attains (l.foldl (s.better pathOut maxPaths inc) before) gain := by
  induction l generalizing before with
  | nil => exact attains
  | cons p l ih => exact ih (better_attains few attains)

/-- No path gains more by the bucket than its winner. -/
theorem winner_attains (few : n ≤ maxPaths) (quoted : pathOut p (s.alloc p + inc) = some newOut) :
    Attains (s.winner pathOut maxPaths inc) (s.gainOf p newOut) := by
  obtain ⟨front, rest, whole⟩ := List.append_of_mem (List.mem_finRange p)
  rw [winner, whole, List.foldl_append, List.foldl_cons]
  exact foldl_attains few (better_attains_own few quoted)

/-- The winner's gain is that of its own quote. -/
theorem winner_gain {w : Fin n × U64 × U64} (few : n ≤ maxPaths)
    (found : s.winner pathOut maxPaths inc = some w) : w.2.1 = s.gainOf w.1 w.2.2 := by
  have every : ∀ (l : List (Fin n)) (before : Option (Fin n × U64 × U64)),
      (∀ w, before = some w → w.2.1 = s.gainOf w.1 w.2.2) →
      ∀ w, l.foldl (s.better pathOut maxPaths inc) before = some w → w.2.1 = s.gainOf w.1 w.2.2 := by
    intro l
    induction l with
    | nil => exact fun _ own => own
    | cons p l ih =>
      refine fun before own => ih _ fun w found => ?_
      cases quoted : pathOut p (s.alloc p + inc) with
      | none =>
        rw [better_of_refused few quoted] at found
        exact own w found
      | some newOut =>
        rw [better_of_quoted few quoted] at found
        split at found
        · cases found
          rfl
        · exact own w found
  exact every _ none (fun _ none => nomatch none) w found

end Allocation

end Winner

section Optimal

variable {n rounds : ℕ} {pathOut : Fin n → U64 → Option U64} {bucket remaining : U64} {p : Fin n} {k left : ℕ}
  {x : U64} {s : Allocation n} {a b : Fin n → ℕ}

/-- A path's output for a number of buckets; none of them give nothing. -/
def quote (pathOut : Fin n → U64 → Option U64) (bucket : U64) (p : Fin n) (k : ℕ) : Option U64 :=
  if k = 0 then some 0 else pathOut p (Word.wrap (k * bucket.val))

/-- The output, as a number. -/
def outputOf (pathOut : Fin n → U64 → Option U64) (bucket : U64) (p : Fin n) (k : ℕ) : ℕ :=
  ((quote pathOut bucket p k).getD 0).val

theorem outputOf_eq (quoted : quote pathOut bucket p k = some x) : outputOf pathOut bucket p k = x.val := by
  rw [outputOf, quoted, Option.getD_some]

/-- The outputs for up to so many buckets are nondecreasing and concave. A path that refuses a number of buckets
also refuses more. -/
structure ConcaveCurves (pathOut : Fin n → U64 → Option U64) (bucket : U64) (rounds : ℕ) : Prop where
  initial : ∀ p, ∀ k < rounds, (quote pathOut bucket p (k + 1)).isSome → (quote pathOut bucket p k).isSome
  rising : ∀ p, ∀ k < rounds, (quote pathOut bucket p (k + 1)).isSome →
    outputOf pathOut bucket p k ≤ outputOf pathOut bucket p (k + 1)
  concave : ∀ p, ∀ k < rounds - 1, (quote pathOut bucket p (k + 2)).isSome →
    outputOf pathOut bucket p (k + 2) + outputOf pathOut bucket p k ≤ 2 * outputOf pathOut bucket p (k + 1)

/-- The curves as returns, with room for as many buckets as are given out and quoted. -/
def ConcaveCurves.returns (curves : ConcaveCurves pathOut bucket rounds) : Returns (Fin n) ℤ where
  value p k := outputOf pathOut bucket p k
  room p k := k ≤ rounds ∧ (quote pathOut bucket p k).isSome
  room_zero _ := ⟨Nat.zero_le _, rfl⟩
  room_of_succ room := ⟨by omega, curves.initial _ _ (by omega) room.2⟩
  rising room := by exact_mod_cast curves.rising _ _ room.1 room.2
  concave room := by
    have bent := curves.concave _ _ (by omega) room.2
    omega

/-- The paths hold these numbers of buckets, and their outputs are the quotes for them. -/
structure Holds (pathOut : Fin n → U64 → Option U64) (bucket : U64) (s : Allocation n) (a : Fin n → ℕ) : Prop where
  alloc : ∀ p, (s.alloc p).val = a p * bucket.val
  outs : ∀ p, quote pathOut bucket p (a p) = some (s.outs p)

theorem Holds.empty : Holds pathOut bucket .empty fun _ => 0 :=
  ⟨fun _ => (Nat.zero_mul _).symm, fun _ => rfl⟩

/-- What a path is asked for is the quote for one bucket more. -/
theorem Holds.asked (holds : Holds pathOut bucket s a) (p : Fin n) :
    quote pathOut bucket p (a p + 1) = pathOut p (s.alloc p + bucket) := by
  rw [quote, if_neg (Nat.succ_ne_zero _)]
  congr 1
  apply Fin.ext
  rw [Word.val_wrap, Fin.val_add, holds.alloc, Nat.succ_mul]

theorem Holds.fund (holds : Holds pathOut bucket s a) (fits : (s.alloc p).val + bucket.val < 2 ^ 64)
    (quoted : pathOut p (s.alloc p + bucket) = some x) :
    Holds pathOut bucket (s.fund p bucket x) (Function.update a p (a p + 1)) := by
  refine ⟨fun q => ?_, fun q => ?_⟩
  · by_cases here : q = p
    · subst here
      simp only [Allocation.fund, Function.update_self]
      rw [Fin.val_add_eq_of_add_lt fits, holds.alloc, Nat.succ_mul]
    · simp only [Allocation.fund, Function.update_of_ne here]
      exact holds.alloc q
  · by_cases here : q = p
    · subst here
      simp only [Allocation.fund, Function.update_self]
      rw [holds.asked]
      exact quoted
    · simp only [Allocation.fund, Function.update_of_ne here]
      exact holds.outs q

theorem Holds.outputOf (holds : Holds pathOut bucket s a) : outputOf pathOut bucket p (a p) = (s.outs p).val :=
  outputOf_eq (holds.outs p)

/-- What a path would gain by a bucket, as the returns have it. -/
theorem Holds.gain (curves : ConcaveCurves pathOut bucket rounds) (holds : Holds pathOut bucket s a)
    (room : a p < rounds) (quoted : pathOut p (s.alloc p + bucket) = some x) :
    curves.returns.gain p (a p) = ((s.gainOf p x).val : ℤ) := by
  have next : quote pathOut bucket p (a p + 1) = some x := (holds.asked p).trans quoted
  have le := curves.rising p (a p) room (Option.isSome_of_eq_some next)
  have gain : curves.returns.gain p (a p) = (Aggregator.outputOf pathOut bucket p (a p + 1) : ℤ)
      - Aggregator.outputOf pathOut bucket p (a p) := rfl
  rw [outputOf_eq next, holds.outputOf] at le
  rw [gain, outputOf_eq next, holds.outputOf, Allocation.gainOf, Word.val_saturatingSub]
  omega

/-- One round: the bucket goes to whoever gains most by it. -/
theorem Holds.balanced_fund {maxPaths : ℕ} {w : Fin n × U64 × U64} (curves : ConcaveCurves pathOut bucket rounds)
    (few : n ≤ maxPaths) (holds : Holds pathOut bucket s a) (balanced : curves.returns.Balanced a)
    (room : ∀ p, a p < rounds) (found : s.winner pathOut maxPaths bucket = some w) :
    curves.returns.Balanced (Function.update a w.1 (a w.1 + 1)) := by
  have quoted := (Allocation.winner_eligible found).2
  refine balanced.give ⟨room w.1, ?_⟩ fun j next => ?_
  · rw [holds.asked, quoted]
    rfl
  · obtain ⟨x, offered⟩ := Option.isSome_iff_exists.mp next.2
    rw [holds.asked] at offered
    obtain ⟨w', found', le⟩ := Allocation.winner_attains few offered
    cases found.symm.trans found'
    rw [Allocation.winner_gain few found] at le
    rw [holds.gain curves (room j) offered, holds.gain curves (room w.1) quoted]
    exact_mod_cast le

/-- The rounds: they end with every bucket given out, or where no path takes another one. -/
theorem Holds.allocate {maxPaths : ℕ} (curves : ConcaveCurves pathOut bucket rounds) (few : n ≤ maxPaths)
    (positive : bucket ≠ 0) (holds : Holds pathOut bucket s a) (balanced : curves.returns.Balanced a)
    (count : ∑ p, a p + left = rounds) (remains : remaining.val = left * bucket.val)
    (fits : rounds * bucket.val < 2 ^ 64) :
    let after := Allocation.allocate pathOut maxPaths bucket left remaining s
    ∃ a', Holds pathOut bucket after.1 a' ∧ curves.returns.Balanced a' ∧
      (∑ p, a' p = rounds ∧ after.2 = 0 ∨
        ∑ p, a' p < rounds ∧ ∀ p, ¬ curves.returns.room p (a' p + 1)) := by
  induction left generalizing remaining s a with
  | zero =>
    have none : remaining = 0 := Fin.ext (by rw [remains, Nat.zero_mul]; rfl)
    exact ⟨a, holds, balanced, .inl ⟨count, none⟩⟩
  | succ left ih =>
    have inc : Allocation.increment bucket left remaining = bucket := by
      unfold Allocation.increment
      split
      case isTrue last =>
        subst last
        exact Fin.ext (by simpa using remains)
      case isFalse => rfl
    have room : ∀ p, a p < rounds := fun p => by
      have : a p ≤ ∑ q, a q := Finset.single_le_sum (fun _ _ => Nat.zero_le _) (Finset.mem_univ p)
      omega
    rw [Allocation.allocate, inc, if_neg positive]
    cases found : s.winner pathOut maxPaths bucket with
    | none =>
      refine ⟨a, holds, balanced, .inr ⟨by omega, fun p next => ?_⟩⟩
      obtain ⟨x, offered⟩ := Option.isSome_iff_exists.mp next.2
      rw [holds.asked] at offered
      obtain ⟨w, found', -⟩ := Allocation.winner_attains few offered
      cases found.symm.trans found'
    | some w =>
      obtain ⟨p, gain, newOut⟩ := w
      have roomP : (a p + 1) * bucket.val ≤ rounds * bucket.val := Nat.mul_le_mul_right _ (room p)
      have fitsP : (s.alloc p).val + bucket.val < 2 ^ 64 := by
        rw [holds.alloc p, ← Nat.succ_mul]
        exact roomP.trans_lt fits
      have given : ∑ q, Function.update a p (a p + 1) q = ∑ q, a q + 1 := by
        rw [Finset.sum_update_of_mem (Finset.mem_univ p), ← Finset.add_sum_erase Finset.univ a (Finset.mem_univ p),
          Finset.sdiff_singleton_eq_erase]
        omega
      rw [Nat.succ_mul] at remains
      refine ih (holds.fund fitsP (Allocation.winner_eligible found).2)
        (holds.balanced_fund curves few balanced room found) (by omega) ?_
      rw [Fin.sub_val_of_le (Fin.le_def.mpr (by omega))]
      omega

/-- **The buckets are shared out optimally** where the paths' outputs are concave: no other way to share them
out over these paths gives more. -/
theorem buckets_optimal {cfg : SplitConfig} {amountIn : U64}
    (curves : ConcaveCurves pathOut (bucketOf cfg amountIn) (max cfg.buckets 1)) (few : n ≤ cfg.maxPaths)
    (divisible : max cfg.buckets 1 ∣ amountIn.val) (positive : bucketOf cfg amountIn ≠ 0)
    (within : ∀ p, (quote pathOut (bucketOf cfg amountIn) p (b p)).isSome) (shared : ∑ p, b p = max cfg.buckets 1) :
    let chosen := Allocation.allocate pathOut cfg.maxPaths (bucketOf cfg amountIn) (max cfg.buckets 1) amountIn .empty
    chosen.2 = 0 ∧
    (∃ a : Fin n → ℕ, ∑ p, a p = max cfg.buckets 1 ∧ ∀ p, (chosen.1.alloc p).val = a p * (bucketOf cfg amountIn).val ∧
      quote pathOut (bucketOf cfg amountIn) p (a p) = some (chosen.1.outs p)) ∧
    ∑ p, outputOf pathOut (bucketOf cfg amountIn) p (b p) ≤ ∑ p, (chosen.1.outs p).val := by
  intro chosen
  have whole : amountIn.val = max cfg.buckets 1 * (bucketOf cfg amountIn).val := (Nat.mul_div_cancel' divisible).symm
  obtain ⟨a, holds, balanced, ended⟩ := Holds.empty.allocate curves few positive .zero
    (by rw [Finset.sum_const_zero, Nat.zero_add]) whole (whole ▸ amountIn.isLt)
  have room : ∀ p, curves.returns.room p (b p) := fun p => ⟨shared ▸
    Finset.single_le_sum (fun _ _ => Nat.zero_le _) (Finset.mem_univ p), within p⟩
  rcases ended with ⟨all, nothing⟩ | ⟨short, full⟩
  · have best : ∑ p, (outputOf pathOut (bucketOf cfg amountIn) p (b p) : ℤ)
        ≤ ∑ p, (outputOf pathOut (bucketOf cfg amountIn) p (a p) : ℤ) :=
      balanced.optimal room (shared.trans all.symm).le
    have outs : ∀ p, (chosen.1.outs p).val = outputOf pathOut (bucketOf cfg amountIn) p (a p) := fun p => holds.outputOf.symm
    refine ⟨nothing, ⟨a, all, fun p => ⟨holds.alloc p, holds.outs p⟩⟩, ?_⟩
    rw [Finset.sum_congr rfl fun p _ => outs p]
    exact_mod_cast best
  · have more := (Returns.optimal_of_full balanced.within full room).1
    omega

/-- Two pools at a constant product; the second one refuses more than `250`. -/
def twoPools : Fin 2 → U64 → Option U64
  | 0, x => some (Word.wrap (x.val * 1000 / (500 + x.val)))
  | 1, x => if x.val ≤ 250 then some (Word.wrap (x.val * 1000 / (400 + x.val))) else none

theorem buckets_optimal_twoPools :
    let chosen := Allocation.allocate twoPools 3 100 4 400 .empty
    chosen.2 = 0 ∧
    (∃ a : Fin 2 → ℕ, ∑ p, a p = 4 ∧ ∀ p, (chosen.1.alloc p).val = a p * 100 ∧
      quote twoPools 100 p (a p) = some (chosen.1.outs p)) ∧
    outputOf twoPools 100 0 3 + outputOf twoPools 100 1 1 ≤ ∑ p, (chosen.1.outs p).val := by
  have best := @buckets_optimal 2 twoPools ![3, 1] { buckets := 4 } 400
    ⟨by decide, by decide, by decide⟩ (by decide) (by decide) (by decide) (by decide) (by decide)
  rw [Fin.sum_univ_two (f := fun p => outputOf twoPools _ p _)] at best
  exact best

end Optimal

end RndRust.Thunder.Aggregator
