import Mathlib.Order.Nat
import RndRust.Lib.Greedy

/-! Non-maximum suppression of face detections. The array of suppressed detections says which of
those to come a kept one overlaps. -/
namespace RndRust.Perception
open Lib

/-- A box, its confidence and its landmarks. -/
abbrev FaceDetection (Box Confidence Landmarks : Type) := Box × Confidence × Landmarks

section Model

variable {Box Confidence Landmarks Overlap : Type} [LE Confidence] [DecidableLE Confidence] [LT Overlap] [DecidableLT Overlap]

/-- The body of the inner loop: the kept box suppresses detection `j`. -/
def suppress (iou : Box → Box → Overlap) (iouThreshold : Overlap) (detections : List (FaceDetection Box Confidence Landmarks))
    (bbox : Box) (suppressed : List Bool) (j : ℕ) : List Bool :=
  match detections[j]?, suppressed[j]? with
  | some e, some false => if iouThreshold < iou bbox e.1 then suppressed.set j true else suppressed
  | _, _ => suppressed

/-- The body of the outer loop, with what is kept and what is suppressed. -/
def nmsStep (iou : Box → Box → Overlap) (iouThreshold : Overlap) (detections : List (FaceDetection Box Confidence Landmarks))
    (state : List (FaceDetection Box Confidence Landmarks) × List Bool) (i : ℕ) :
    List (FaceDetection Box Confidence Landmarks) × List Bool :=
  let (keep, suppressed) := state
  match detections[i]?, suppressed[i]? with
  | some d, some false =>
    (keep ++ [d],
      (List.range' (i + 1) (detections.length - (i + 1))).foldl (suppress iou iouThreshold detections d.1) suppressed)
  | _, _ => state

/-- `sort_by` with the highest confidence first, equal ones as they were. -/
def descending (detections : List (FaceDetection Box Confidence Landmarks)) : List (FaceDetection Box Confidence Landmarks) :=
  detections.mergeSort fun a b => b.2.1 ≤ a.2.1

/-- `nms`. -/
def nms (iou : Box → Box → Overlap) (iouThreshold : Overlap) (detections : List (FaceDetection Box Confidence Landmarks)) :
    List (FaceDetection Box Confidence Landmarks) :=
  let detections := descending detections
  ((List.range detections.length).foldl (nmsStep iou iouThreshold detections)
    ([], List.replicate detections.length false)).1

end Model

section Suppression

variable {Box Confidence Landmarks Overlap : Type} [LT Overlap] [DecidableLT Overlap] {iou : Box → Box → Overlap}
  {iouThreshold : Overlap} {detections keep : List (FaceDetection Box Confidence Landmarks)} {suppressed : List Bool} {bbox : Box}
  {i j : ℕ}

/-- The first detection's box overlaps the second's above the threshold. -/
def Overlaps (iou : Box → Box → Overlap) (iouThreshold : Overlap) (d e : FaceDetection Box Confidence Landmarks) : Prop :=
  iouThreshold < iou d.1 e.1

instance (d e : FaceDetection Box Confidence Landmarks) : Decidable (Overlaps iou iouThreshold d e) :=
  inferInstanceAs (Decidable (_ < _))

theorem getElem?_suppress {e : FaceDetection Box Confidence Landmarks} {was : Bool} (i : ℕ) (there : detections[j]? = some e)
    (before : suppressed[j]? = some was) : (suppress iou iouThreshold detections bbox suppressed i)[j]? =
      some (was || decide (j = i ∧ iouThreshold < iou bbox e.1)) := by
  by_cases here : j = i
  · subst here
    rw [suppress, there, before]
    cases was with
    | true => simpa using before
    | false =>
      have inside : j < suppressed.length := (List.getElem?_eq_some_iff.mp before).1
      by_cases overlaps : iouThreshold < iou bbox e.1
      · simp [overlaps, inside]
      · simpa [overlaps] using before
  · have kept : (suppress iou iouThreshold detections bbox suppressed i)[j]? = suppressed[j]? := by
      unfold suppress
      split
      · split
        · exact List.getElem?_set_ne (Ne.symm here)
        · rfl
      · rfl
    simp [kept, before, here]

/-- The inner loop suppresses what the box overlaps, and leaves alone what it does not come to. -/
theorem getElem?_foldl_suppress {e : FaceDetection Box Confidence Landmarks} {was : Bool} (js : List ℕ)
    (there : detections[j]? = some e) (before : suppressed[j]? = some was) :
    (js.foldl (suppress iou iouThreshold detections bbox) suppressed)[j]? =
      some (was || decide (j ∈ js ∧ iouThreshold < iou bbox e.1)) := by
  induction js generalizing suppressed was with
  | nil => simpa using before
  | cons i js ih =>
    rw [List.foldl_cons, ih (getElem?_suppress i there before), Bool.or_assoc]
    by_cases overlaps : iouThreshold < iou bbox e.1 <;> simp [overlaps]

/-- After `i` rounds: what is kept of the first `i` detections, and which of the others it overlaps. -/
structure Rounds (iou : Box → Box → Overlap) (iouThreshold : Overlap) (detections : List (FaceDetection Box Confidence Landmarks))
    (i : ℕ) (state : List (FaceDetection Box Confidence Landmarks) × List Bool) : Prop where
  kept : state.1 = (detections.take i).foldl (keepFree (Overlaps iou iouThreshold)) []
  marked : ∀ j, i ≤ j → ∀ e, detections[j]? = some e →
    state.2[j]? = some (decide (∃ k ∈ state.1, Overlaps iou iouThreshold k e))

theorem Rounds.next {state : List (FaceDetection Box Confidence Landmarks) × List Bool}
    (rounds : Rounds iou iouThreshold detections i state) (inside : i < detections.length) :
    Rounds iou iouThreshold detections (i + 1) (nmsStep iou iouThreshold detections state i) := by
  obtain ⟨keep, suppressed⟩ := state
  obtain ⟨d, there⟩ : ∃ d, detections[i]? = some d := ⟨_, List.getElem?_eq_getElem inside⟩
  have mark := rounds.marked i (Nat.le_refl i) d there
  have kept : (detections.take (i + 1)).foldl (keepFree (Overlaps iou iouThreshold)) [] =
      keepFree (Overlaps iou iouThreshold) keep d := by
    rw [List.take_add_one, there, List.foldl_append, ← rounds.kept]
    rfl
  unfold nmsStep
  dsimp only at mark ⊢
  rw [there, mark]
  by_cases ruled : ∃ k ∈ keep, Overlaps iou iouThreshold k d
  · simp only [ruled, decide_true]
    exact ⟨by rw [kept, keepFree, if_pos ruled], fun j later e => rounds.marked j (Nat.le_of_succ_le later) e⟩
  · simp only [ruled, decide_false]
    refine ⟨by rw [kept, keepFree, if_neg ruled], fun j later e found => ?_⟩
    have short : j < detections.length := (List.getElem?_eq_some_iff.mp found).1
    have reached : j ∈ List.range' (i + 1) (detections.length - (i + 1)) := List.mem_range'_1.mpr (by omega)
    rw [getElem?_foldl_suppress _ found (rounds.marked j (Nat.le_of_succ_le later) e found)]
    rw [Option.some.injEq, Bool.eq_iff_iff, Bool.or_eq_true, decide_eq_true_iff, decide_eq_true_iff, decide_eq_true_iff,
      exists_rules_concat, and_iff_right reached]
    rfl

/-- What the loops keep is the list thinned by overlap. -/
theorem rounds_foldl (detections : List (FaceDetection Box Confidence Landmarks)) (reached : i ≤ detections.length) :
    Rounds iou iouThreshold detections i
      ((List.range i).foldl (nmsStep iou iouThreshold detections) ([], List.replicate detections.length false)) := by
  induction i with
  | zero =>
    refine ⟨rfl, fun j _ e found => ?_⟩
    have short : j < detections.length := (List.getElem?_eq_some_iff.mp found).1
    simp [short]
  | succ i ih =>
    rw [List.range_succ, List.foldl_concat]
    exact (ih (Nat.le_of_succ_le reached)).next reached

theorem nms_eq [LE Confidence] [DecidableLE Confidence] : nms iou iouThreshold detections =
    (descending detections).foldl (keepFree (Overlaps iou iouThreshold)) [] := by
  have rounds := @rounds_foldl _ _ _ _ _ _ iou iouThreshold _ (descending detections) (Nat.le_refl _)
  rw [nms, rounds.kept, List.take_length]

end Suppression

section Exactness

variable {Box Confidence Landmarks Overlap : Type} [Preorder Confidence] [DecidableLE Confidence]
  [Std.Total fun a b : Confidence => a ≤ b]

theorem descending_sorted (detections : List (FaceDetection Box Confidence Landmarks)) :
    (descending detections).Pairwise fun a b => b.2.1 ≤ a.2.1 := by
  have sorted : (descending detections).Pairwise fun a b => decide (b.2.1 ≤ a.2.1) :=
    detections.pairwise_mergeSort (fun a b c => by simpa using fun first second => le_trans second first)
      (fun a b => by simpa using total_of (fun a b : Confidence => a ≤ b) b.2.1 a.2.1)
  simpa using sorted

/-- **Non-maximum suppression is exact**: what is kept and what is dropped make up the input, the
kept ones come in descending confidence and none of them overlaps another one above the threshold,
and every dropped one overlaps above it a kept one of no less confidence. -/
theorem nms_exact [LT Overlap] [DecidableLT Overlap] (iou : Box → Box → Overlap) (symmetric : ∀ a b, iou a b = iou b a)
    (iouThreshold : Overlap) (detections : List (FaceDetection Box Confidence Landmarks)) :
    ∃ dropped, (nms iou iouThreshold detections ++ dropped).Perm detections ∧
      ((nms iou iouThreshold detections).Pairwise fun a b => b.2.1 ≤ a.2.1) ∧
      ((nms iou iouThreshold detections).Pairwise fun a b =>
        ¬iouThreshold < iou a.1 b.1 ∧ ¬iouThreshold < iou b.1 a.1) ∧
      ∀ d ∈ dropped, ∃ k ∈ nms iou iouThreshold detections, iouThreshold < iou k.1 d.1 ∧ d.2.1 ≤ k.2.1 := by
  have sorted := descending_sorted detections
  obtain ⟨taken, dropped, folded, sublist, perm, dominated⟩ :=
    @foldl_keepFree _ (Overlaps iou iouThreshold) _ _ [] _ sorted (by simp)
  have apart : (([] ++ taken).Pairwise fun a b => ¬Overlaps iou iouThreshold a b) := folded ▸ foldl_keepFree_pairwise .nil
  rw [nms_eq, folded]
  refine ⟨dropped, perm.trans (detections.mergeSort_perm _), sorted.sublist sublist, apart.imp fun free => ⟨free, ?_⟩, dominated⟩
  rw [symmetric]
  exact free

/-- How much two boxes of length four have in common, by where they begin. -/
def lineOverlap (a b : ℕ) : ℕ := 4 - (max a b - min a b)

/-- Three boxes on a line, of which the first overlaps the second, that has more confidence. -/
def lineFaces : List (FaceDetection ℕ ℕ Unit) := [(2, 80, ()), (0, 90, ()), (9, 70, ())]

theorem nms_exact_line : nms lineOverlap 1 lineFaces = [(0, 90, ()), (9, 70, ())] ∧
    ∃ dropped, (nms lineOverlap 1 lineFaces ++ dropped).Perm lineFaces ∧
      ((nms lineOverlap 1 lineFaces).Pairwise fun a b => b.2.1 ≤ a.2.1) ∧
      ((nms lineOverlap 1 lineFaces).Pairwise fun a b => ¬1 < lineOverlap a.1 b.1 ∧ ¬1 < lineOverlap b.1 a.1) ∧
      ∀ d ∈ dropped, ∃ k ∈ nms lineOverlap 1 lineFaces, 1 < lineOverlap k.1 d.1 ∧ d.2.1 ≤ k.2.1 := by
  have sorted : descending lineFaces = [(0, 90, ()), (2, 80, ()), (9, 70, ())] := by
    simp [descending, lineFaces, List.mergeSort, List.MergeSort.Internal.splitInTwo]
  refine ⟨?_, nms_exact lineOverlap (fun a b => by rw [lineOverlap, lineOverlap, max_comm, min_comm]) 1 lineFaces⟩
  rw [nms_eq, sorted]
  decide

end Exactness

end RndRust.Perception
