import Mathlib.Data.Nat.Basic
import Mathlib.Order.Lattice
import RndRust.Lib.Greedy
import RndRust.Lib.Runs
import RndRust.Perception.Tracker

/-! The object tracker over whole runs: who is matched with whom, which ids are given out, and how
long a track lives. -/
namespace RndRust.Perception
open Lib

/-- `sort_unstable_by` with the most overlap first: equal candidates come in any order. -/
structure DescendingSort (Score : Type) [LE Score] where
  sort : List (Candidate Score) → List (Candidate Score)
  perm : ∀ candidates, (sort candidates).Perm candidates
  sorted : ∀ candidates, (sort candidates).Pairwise fun p q => q.2.2 ≤ p.2.2

variable {Box Score : Type}

/-- The ids that a frame's detections are given. -/
def ids (out : List (TrackedDetection Box Score)) : List ℕ := out.map TrackedDetection.trackId

def ObjectTracker.live (tracker : ObjectTracker Box Score) : List ℕ := tracker.tracks.map Track.id

/-- Sorting that keeps the order of equal candidates. -/
def DescendingSort.stable [LinearOrder Score] : DescendingSort Score where
  sort candidates := candidates.mergeSort fun p q => q.2.2 ≤ p.2.2
  perm candidates := candidates.mergeSort_perm _
  sorted candidates := by
    have sorted : (candidates.mergeSort fun p q => q.2.2 ≤ p.2.2).Pairwise fun p q => decide (q.2.2 ≤ p.2.2) :=
      candidates.pairwise_mergeSort (fun p q r => by simpa using fun first second => le_trans second first)
      (fun p q => by simpa using le_total q.2.2 p.2.2)
    simpa using sorted

section Assignment

variable {tracks : List (Track Box)} {detections : List (Detection Box Score)} {chosen : List (Candidate Score)}
  {m : Matching Box} {c : Candidate Score} {ti di id : ℕ} {t : Track Box}

/-- The loop has made the pairs in `chosen`. -/
structure Follows (tracks : List (Track Box)) (detections : List (Detection Box Score))
    (chosen : List (Candidate Score)) (m : Matching Box) : Prop where
  valid : ∀ c ∈ chosen, c.1 < tracks.length ∧ c.2.1 < detections.length
  matched : ∀ ti, ti ∈ m.matchedTracks ↔ ∃ c ∈ chosen, c.1 = ti
  size : m.detTrackId.length = detections.length
  assigned : ∀ di id, m.detTrackId[di]? = some (some id) ↔
    ∃ c ∈ chosen, c.2.1 = di ∧ (tracks.map Track.id)[c.1]? = some id
  width : m.tracks.length = tracks.length
  track : ∀ ti t, m.tracks[ti]? = some t → ∃ before, tracks[ti]? = some before ∧ t.id = before.id ∧
    (ti ∈ m.matchedTracks → t.age = 0 ∧ t.visible = before.visible + 1) ∧ (ti ∉ m.matchedTracks → t = before)

namespace Follows

theorem start : Follows tracks detections [] { tracks, detTrackId := detections.map fun _ => none } where
  valid := by simp
  matched := by simp
  size := by simp
  assigned di id := by
    rw [List.getElem?_map]
    cases detections[di]? <;> simp
  width := rfl
  track ti t found := ⟨t, found, rfl, by simp, fun _ => rfl⟩

/-- A detection has no track yet exactly when no pair has it. -/
theorem unmatched (follows : Follows tracks detections chosen m) (inside : di < detections.length) :
    m.detTrackId[di]? = some none ↔ ∀ c ∈ chosen, c.2.1 ≠ di := by
  obtain ⟨entry, found⟩ : ∃ entry, m.detTrackId[di]? = some entry :=
    ⟨_, List.getElem?_eq_getElem (follows.size.symm ▸ inside)⟩
  cases entry with
  | none =>
    refine iff_of_true found fun c listed here => ?_
    have valid := (follows.valid c listed).1
    have known : (tracks.map Track.id)[c.1]? = some (tracks[c.1].id) := by simp [valid]
    have taken := (follows.assigned di _).mpr ⟨c, listed, here, known⟩
    rw [found] at taken
    cases taken
  | some id =>
    refine iff_of_false (by simp [found]) fun free => ?_
    obtain ⟨c, listed, here, -⟩ := (follows.assigned di id).mp found
    exact free c listed here

/-- A track or a detection is taken when the candidate meets a pair. -/
theorem busy_iff (follows : Follows tracks detections chosen m) (isDetection : c.2.1 < detections.length) :
    (c.1 ∈ m.matchedTracks ∨ m.detTrackId[c.2.1]? ≠ some none) ↔ ∃ q ∈ chosen, Meet c q := by
  rw [follows.matched, ne_eq, follows.unmatched isDetection]
  constructor
  · rintro (⟨q, listed, same⟩ | taken)
    · exact ⟨q, listed, .inl same.symm⟩
    · simp only [not_forall, not_not] at taken
      obtain ⟨q, listed, same⟩ := taken
      exact ⟨q, listed, .inr same.symm⟩
  · rintro ⟨q, listed, same | same⟩
    · exact .inl ⟨q, listed, same.symm⟩
    · exact .inr fun free => free q listed same.symm

/-- The loop takes a candidate when the greedy matching does. -/
theorem assign (follows : Follows tracks detections chosen m) (isTrack : c.1 < tracks.length)
    (isDetection : c.2.1 < detections.length) : Follows tracks detections (choose chosen c) (m.assign detections c) := by
  obtain ⟨track, known⟩ : ∃ track, m.tracks[c.1]? = some track :=
    ⟨_, List.getElem?_eq_getElem (follows.width.symm ▸ isTrack)⟩
  have seen : detections[c.2.1]? = some detections[c.2.1] := List.getElem?_eq_getElem isDetection
  unfold Matching.assign choose
  simp only [known, seen, follows.busy_iff isDetection]
  split
  · exact follows
  · rename_i free
    obtain ⟨before, original, sameId, -, untouched⟩ := follows.track c.1 track known
    have own : (tracks.map Track.id)[c.1]? = some track.id := by rw [List.getElem?_map, original, sameId]; rfl
    have unused : c.1 ∉ m.matchedTracks := by
      rw [follows.matched]
      rintro ⟨q, listed, same⟩
      exact free ⟨q, listed, .inl same.symm⟩
    refine ⟨?_, ?_, by simp [follows.size], ?_, by simp [follows.width], ?_⟩
    · exact List.forall_mem_cons.mpr ⟨⟨isTrack, isDetection⟩, follows.valid⟩
    · intro ti
      simp [follows.matched, eq_comm]
    · intro di id
      by_cases here : c.2.1 = di
      · subst here
        rw [List.getElem?_set_self (follows.size.symm ▸ isDetection), Option.some.injEq, Option.some.injEq]
        constructor
        · rintro rfl
          exact ⟨c, List.mem_cons_self, rfl, own⟩
        · rintro ⟨q, listed, same, named⟩
          rcases List.mem_cons.mp listed with rfl | listed
          · exact Option.some.inj (own.symm.trans named)
          · exact absurd ⟨q, listed, .inr same.symm⟩ free
      · rw [List.getElem?_set_ne here, follows.assigned]
        constructor
        · rintro ⟨q, listed, rest⟩
          exact ⟨q, List.mem_cons_of_mem _ listed, rest⟩
        · rintro ⟨q, listed, same, named⟩
          rcases List.mem_cons.mp listed with rfl | listed
          · exact absurd same here
          · exact ⟨q, listed, same, named⟩
    · intro ti t found
      by_cases here : c.1 = ti
      · subst here
        rw [List.getElem?_set_self (follows.width.symm ▸ isTrack), Option.some.injEq] at found
        subst found
        refine ⟨before, original, sameId, fun _ => ⟨rfl, ?_⟩, fun unmatched => absurd List.mem_cons_self unmatched⟩
        rw [untouched unused]
      · rw [List.getElem?_set_ne here] at found
        obtain ⟨before, original, sameId, touched, untouched⟩ := follows.track ti t found
        refine ⟨before, original, sameId, fun matched => touched ?_, fun unmatched => untouched fun matched => ?_⟩
        · exact (List.mem_cons.mp matched).resolve_left (Ne.symm here)
        · exact unmatched (List.mem_cons_of_mem _ matched)

theorem foldl {candidates : List (Candidate Score)} (follows : Follows tracks detections chosen m)
    (valid : ∀ c ∈ candidates, c.1 < tracks.length ∧ c.2.1 < detections.length) :
    Follows tracks detections (candidates.foldl choose chosen) (candidates.foldl (Matching.assign detections) m) := by
  induction candidates generalizing chosen m with
  | nil => exact follows
  | cons c candidates ih =>
    obtain ⟨first, rest⟩ := List.forall_mem_cons.mp valid
    exact ih (follows.assign first.1 first.2) rest

end Follows

end Assignment

section Spawning

variable {next i : ℕ} {detections : List (Detection Box Score)} {assigned : List (Option ℕ)}

theorem spawn_detections (size : assigned.length = detections.length) :
    (spawn next detections assigned).2.map TrackedDetection.detection = detections := by
  fun_induction spawn next detections assigned with
  | case1 next det detections rest tracks tracked found ih =>
    have more := ih (Nat.succ.inj size)
    rw [found] at more
    exact congrArg (det :: ·) more
  | case2 next det detections id rest tracks tracked found ih =>
    have more := ih (Nat.succ.inj size)
    rw [found] at more
    exact congrArg (det :: ·) more
  | case3 detections next assigned new old =>
    cases detections with
    | nil => rfl
    | cons det detections =>
      cases assigned with
      | nil => cases size
      | cons entry rest =>
        cases entry with
        | none => exact (new det detections rest rfl rfl).elim
        | some id => exact (old det detections id rest rfl rfl).elim

/-- A detection keeps the id it was assigned; the others have the ids of the new tracks. -/
theorem spawn_entry {td : TrackedDetection Box Score} (found : (spawn next detections assigned).2[i]? = some td) :
    (td.isNew = false ∧ assigned[i]? = some (some td.trackId)) ∨
    (td.isNew = true ∧ assigned[i]? = some none ∧ td.trackId ∈ (spawn next detections assigned).1.map Track.id) := by
  fun_induction spawn next detections assigned generalizing i with
  | case1 next det detections rest tracks tracked spawned ih =>
    cases i with
    | zero =>
      cases found
      exact .inr ⟨rfl, rfl, List.mem_cons_self⟩
    | succ i =>
      rw [spawned] at ih
      exact (ih found).imp_right (And.imp_right (And.imp_right (List.mem_cons_of_mem _)))
  | case2 next det detections id rest tracks tracked spawned ih =>
    cases i with
    | zero =>
      cases found
      exact .inl ⟨rfl, rfl⟩
    | succ i =>
      rw [spawned] at ih
      exact ih found
  | case3 => simp at found

/-- A new track is for a new detection, and has just been seen. -/
theorem spawn_track {t : Track Box} (listed : t ∈ (spawn next detections assigned).1) :
    t.age = 0 ∧ t.visible = 1 ∧ t.id ∈ ids (spawn next detections assigned).2 := by
  fun_induction spawn next detections assigned with
  | case1 next det detections rest tracks tracked spawned ih =>
    rcases List.mem_cons.mp listed with rfl | later
    · exact ⟨rfl, rfl, List.mem_cons_self⟩
    · rw [spawned] at ih
      obtain ⟨age, visible, named⟩ := ih later
      exact ⟨age, visible, List.mem_cons_of_mem _ named⟩
  | case2 next det detections id rest tracks tracked spawned ih =>
    rw [spawned] at ih
    obtain ⟨age, visible, named⟩ := ih listed
    exact ⟨age, visible, List.mem_cons_of_mem _ named⟩
  | case3 => cases listed

end Spawning

theorem Matching.mem_aged {m : Matching Box} {maxAge : ℕ} {t : Track Box} :
    t ∈ m.aged maxAge ↔ t.age ≤ maxAge ∧ ∃ ti before, m.tracks[ti]? = some before ∧
      t = if ti ∈ m.matchedTracks then before else { before with age := before.age + 1 } := by
  simp only [Matching.aged, List.mem_filter, List.mem_map, Prod.exists, List.mem_zipIdx_iff_getElem?, decide_eq_true_eq]
  constructor
  · rintro ⟨⟨before, ti, found, rfl⟩, young⟩
    exact ⟨young, ti, before, found, rfl⟩
  · rintro ⟨young, ti, before, found, rfl⟩
    exact ⟨⟨before, ti, found, rfl⟩, young⟩

section Frames

variable [LinearOrder Score] {tracker : ObjectTracker Box Score} {iou : Box → Box → Score} {s : DescendingSort Score}
  {detections : List (Detection Box Score)} {c : Candidate Score} {t : Track Box} {ti i id : ℕ}

theorem mem_candidates : c ∈ tracker.candidates iou detections ↔ ∃ t d, tracker.tracks[c.1]? = some t ∧
    detections[c.2.1]? = some d ∧ tracker.iouThreshold ≤ iou t.bbox d.bbox ∧ c.2.2 = iou t.bbox d.bbox := by
  obtain ⟨ti, di, score⟩ := c
  simp only [ObjectTracker.candidates, List.mem_flatMap, List.mem_filterMap, Prod.exists, List.mem_zipIdx_iff_getElem?]
  constructor
  · rintro ⟨t, ti', found, d, di', seen, made⟩
    split at made
    · rename_i enough
      cases made
      exact ⟨t, d, found, seen, enough, rfl⟩
    · cases made
  · rintro ⟨t, d, found, seen, enough, rfl⟩
    exact ⟨t, ti, found, d, di, seen, by rw [if_pos enough]⟩

/-- The pairs of a frame: of candidates in descending order, those that meet none before them. -/
def ObjectTracker.pairs (tracker : ObjectTracker Box Score) (iou : Box → Box → Score) (s : DescendingSort Score)
    (detections : List (Detection Box Score)) : List (Candidate Score) :=
  (s.sort (tracker.candidates iou detections)).foldl choose []

theorem mem_pairs (listed : c ∈ tracker.pairs iou s detections) : c ∈ tracker.candidates iou detections := by
  have offered := (foldl_choose_subset listed).resolve_left List.not_mem_nil
  exact (s.perm _).mem_iff.mp offered

variable (tracker iou s detections) in
/-- The loop makes the pairs of the greedy matching. -/
theorem ObjectTracker.matching_follows : Follows tracker.tracks detections (tracker.pairs iou s detections)
    (tracker.matching detections (s.sort (tracker.candidates iou detections))) := by
  refine Follows.foldl .start fun c listed => ?_
  obtain ⟨t, d, found, seen, -⟩ := mem_candidates.mp ((s.perm _).mem_iff.mp listed)
  exact ⟨(List.getElem?_eq_some_iff.mp found).1, (List.getElem?_eq_some_iff.mp seen).1⟩

variable (tracker iou s detections) in
theorem update_detections :
    (tracker.update iou s.sort detections).2.map TrackedDetection.detection = detections :=
  spawn_detections (tracker.matching_follows iou s detections).size

/-- A detection that is in a pair has the id of its track, and any other gets an id from the next one on. -/
theorem update_entry {td : TrackedDetection Box Score} (found : (tracker.update iou s.sort detections).2[i]? = some td) :
    (td.isNew = false ∧ ∃ c ∈ tracker.pairs iou s detections, c.2.1 = i ∧ tracker.live[c.1]? = some td.trackId) ∨
    (td.isNew = true ∧ (∀ c ∈ tracker.pairs iou s detections, c.2.1 ≠ i) ∧ tracker.nextId ≤ td.trackId ∧
      td.trackId ∈ (tracker.update iou s.sort detections).1.live) := by
  have follows := tracker.matching_follows iou s detections
  rcases spawn_entry found with ⟨old, assigned⟩ | ⟨new, free, named⟩
  · exact .inl ⟨old, (follows.assigned i td.trackId).mp assigned⟩
  · have inside : i < detections.length := follows.size ▸ (List.getElem?_eq_some_iff.mp free).1
    refine .inr ⟨new, (follows.unmatched inside).mp free, ?_, ?_⟩
    · rw [spawn_ids, List.mem_range'_1] at named
      exact named.1
    · rw [ObjectTracker.live, ObjectTracker.update, List.map_append]
      exact List.mem_append_right _ named

/-- The detection of a pair has the id of its track. -/
theorem entry_of_pair (listed : c ∈ tracker.pairs iou s detections) (named : tracker.live[c.1]? = some id) :
    ∃ td, (tracker.update iou s.sort detections).2[c.2.1]? = some td ∧ td.trackId = id := by
  have follows := tracker.matching_follows iou s detections
  have assigned := (follows.assigned c.2.1 id).mpr ⟨c, listed, rfl, named⟩
  have inside : c.2.1 < (tracker.update iou s.sort detections).2.length := by
    have size := congrArg List.length (update_detections tracker iou s detections)
    rw [List.length_map] at size
    exact size ▸ (follows.valid c listed).2
  have found := List.getElem?_eq_getElem inside
  refine ⟨_, found, ?_⟩
  rcases spawn_entry found with ⟨-, same⟩ | ⟨-, free, -⟩
  · exact (Option.some.inj (Option.some.inj (assigned.symm.trans same))).symm
  · rw [assigned] at free
    cases free

theorem seen_of_pair (listed : c ∈ tracker.pairs iou s detections) (named : tracker.live[c.1]? = some id) :
    id ∈ ids (tracker.update iou s.sort detections).2 := by
  obtain ⟨td, found, rfl⟩ := entry_of_pair listed named
  exact List.mem_map_of_mem (List.mem_of_getElem? found)

theorem pair_of_seen (found : tracker.tracks[ti]? = some t) (seen : t.id ∈ ids (tracker.update iou s.sort detections).2) :
    ∃ c ∈ tracker.pairs iou s detections, c.1 = ti := by
  obtain ⟨td, listed, named⟩ := List.mem_map.mp seen
  obtain ⟨i, entry⟩ := List.mem_iff_getElem?.mp listed
  have own : tracker.live[ti]? = some t.id := by rw [ObjectTracker.live, List.getElem?_map, found]; rfl
  rcases update_entry entry with ⟨-, c, listed, -, same⟩ | ⟨-, -, late, -⟩
  · rw [named] at same
    have inside := (List.getElem?_eq_some_iff.mp same).1
    exact ⟨c, listed, (List.getElem?_inj inside tracker.distinct).mp (same.trans own.symm)⟩
  · have early := tracker.fresh t.id (List.mem_of_getElem? own)
    omega

/-- The tracks after a frame: those before it, as old as their last detection, and the new ones. -/
theorem update_tracks (listed : t ∈ (tracker.update iou s.sort detections).1.tracks) :
    (∃ before ∈ tracker.tracks, t.id = before.id ∧ t.age ≤ tracker.maxAge ∧
      (t.id ∈ ids (tracker.update iou s.sort detections).2 ∧ t.age = 0 ∧ t.visible = before.visible + 1 ∨
        t.id ∉ ids (tracker.update iou s.sort detections).2 ∧ t.age = before.age + 1 ∧ t.visible = before.visible)) ∨
    (tracker.nextId ≤ t.id ∧ t.id ∈ ids (tracker.update iou s.sort detections).2 ∧ t.age = 0 ∧ t.visible = 1) := by
  have follows := tracker.matching_follows iou s detections
  rcases List.mem_append.mp listed with aged | spawned
  · obtain ⟨young, ti, now, found, rfl⟩ := Matching.mem_aged.mp aged
    obtain ⟨before, original, sameId, touched, untouched⟩ := follows.track ti now found
    refine .inl ⟨before, List.mem_of_getElem? original, ?_⟩
    have own : tracker.live[ti]? = some before.id := by rw [ObjectTracker.live, List.getElem?_map, original]; rfl
    split at young
    · rename_i matched
      obtain ⟨c, paired, rfl⟩ := (follows.matched ti).mp matched
      obtain ⟨age, visible⟩ := touched matched
      rw [if_pos matched]
      exact ⟨sameId, young, .inl ⟨sameId ▸ seen_of_pair paired own, age, visible⟩⟩
    · rename_i unmatched
      obtain rfl := untouched unmatched
      rw [if_neg unmatched]
      refine ⟨rfl, young, .inr ⟨fun seen => unmatched ?_, rfl, rfl⟩⟩
      exact (follows.matched ti).mpr (pair_of_seen original seen)
  · obtain ⟨age, visible, seen⟩ := spawn_track spawned
    have named := List.mem_map_of_mem (f := Track.id) spawned
    rw [spawn_ids, List.mem_range'_1] at named
    exact .inr ⟨named.1, seen, age, visible⟩

/-- A track stays when the frame has a detection for it, or when it is young enough to do without. -/
theorem update_keeps (listed : t ∈ tracker.tracks)
    (young : t.id ∈ ids (tracker.update iou s.sort detections).2 ∨ t.age < tracker.maxAge) :
    t.id ∈ (tracker.update iou s.sort detections).1.live := by
  have follows := tracker.matching_follows iou s detections
  obtain ⟨ti, original⟩ := List.mem_iff_getElem?.mp listed
  obtain ⟨now, found⟩ : ∃ now, (tracker.matching detections (s.sort (tracker.candidates iou detections))).tracks[ti]? =
      some now := by
    refine ⟨_, List.getElem?_eq_getElem ?_⟩
    rw [follows.width]
    exact (List.getElem?_eq_some_iff.mp original).1
  obtain ⟨before, original', sameId, touched, untouched⟩ := follows.track ti now found
  obtain rfl : t = before := Option.some.inj (original.symm.trans original')
  rw [ObjectTracker.live, ObjectTracker.update, List.map_append]
  refine List.mem_append_left _ (List.mem_map.mpr ?_)
  refine ⟨_, Matching.mem_aged.mpr ⟨?_, ti, now, found, rfl⟩, ?_⟩
  · split
    · rename_i matched
      rw [(touched matched).1]
      exact Nat.zero_le _
    · rename_i unmatched
      obtain rfl := untouched unmatched
      rcases young with seen | young
      · exact absurd ((follows.matched ti).mpr (pair_of_seen original seen)) unmatched
      · exact young
  · split <;> exact sameId

theorem live_of_seen (seen : id ∈ ids (tracker.update iou s.sort detections).2) :
    id ∈ (tracker.update iou s.sort detections).1.live := by
  obtain ⟨td, listed, rfl⟩ := List.mem_map.mp seen
  obtain ⟨i, entry⟩ := List.mem_iff_getElem?.mp listed
  rcases update_entry entry with ⟨-, c, -, -, named⟩ | ⟨-, -, -, live⟩
  · obtain ⟨t, kept, same⟩ := List.mem_map.mp (List.mem_of_getElem? named)
    rw [← same] at seen ⊢
    exact update_keeps kept (.inl seen)
  · exact live

end Frames

/-- A tracker and what it has returned, the last frame first. -/
structure Tracking (Box Score : Type) where
  tracker : ObjectTracker Box Score
  frames : List (List (TrackedDetection Box Score)) := []

/-- Runs of `update` from a new tracker. -/
def tracking [LinearOrder Score] (iou : Box → Box → Score) (maxAge : ℕ) (iouThreshold : Score) :
    Machine (Tracking Box Score) (DescendingSort Score × List (Detection Box Score)) where
  initial := { tracker := .new maxAge iouThreshold }
  step now frame :=
    let updated := now.tracker.update iou frame.1.sort frame.2
    some ⟨updated.1, updated.2 :: now.frames⟩

/-- An id was given in one of the frames. -/
def Seen (frames : List (List (TrackedDetection Box Score))) (id : ℕ) : Prop := ∃ out ∈ frames, id ∈ ids out

/-- How many frames ago an id was last given. -/
def lastSeen (frames : List (List (TrackedDetection Box Score))) (id : ℕ) : Option ℕ :=
  frames.findIdx? fun out => id ∈ ids out

theorem lastSeen_cons {out : List (TrackedDetection Box Score)} {frames : List (List (TrackedDetection Box Score))}
    {id : ℕ} : lastSeen (out :: frames) id = if id ∈ ids out then some 0 else (lastSeen frames id).map (· + 1) := by
  rw [lastSeen, List.findIdx?_cons]
  by_cases here : id ∈ ids out <;> simp [here, lastSeen]

theorem seen_take {frames : List (List (TrackedDetection Box Score))} {id n : ℕ} :
    Seen (frames.take n) id ↔ ∃ i < n, lastSeen frames id = some i := by
  induction frames generalizing n with
  | nil => simp [Seen, lastSeen]
  | cons out frames ih =>
    cases n with
    | zero => simp [Seen]
    | succ n =>
      rw [List.take_succ_cons, lastSeen_cons]
      have split : Seen (out :: frames.take n) id ↔ id ∈ ids out ∨ Seen (frames.take n) id := by simp [Seen]
      rw [split, ih]
      by_cases here : id ∈ ids out
      · simp [here]
      · simp only [here, false_or, if_false, Option.map_eq_some_iff]
        constructor
        · rintro ⟨i, less, last⟩
          exact ⟨i + 1, by omega, i, last, rfl⟩
        · rintro ⟨_, less, i, last, rfl⟩
          exact ⟨i, by omega, last⟩

/-- What holds of a tracker between frames: each track knows when it was last seen, and who was seen
recently has a track. -/
structure Kept (maxAge : ℕ) (now : Tracking Box Score) : Prop where
  config : now.tracker.maxAge = maxAge
  early : ∀ id, Seen now.frames id → id < now.tracker.nextId
  age : ∀ t ∈ now.tracker.tracks, lastSeen now.frames t.id = some t.age ∧ t.age ≤ maxAge
  visible : ∀ t ∈ now.tracker.tracks, t.visible ≤ now.frames.length
  live : ∀ id i, lastSeen now.frames id = some i → i ≤ maxAge → id ∈ now.tracker.live

/-- A live track is one that was seen in one of the last `maxAge + 1` frames. -/
theorem Kept.live_iff {maxAge id : ℕ} {now : Tracking Box Score} (kept : Kept maxAge now) :
    id ∈ now.tracker.live ↔ Seen (now.frames.take (maxAge + 1)) id := by
  rw [seen_take]
  constructor
  · intro live
    obtain ⟨t, listed, rfl⟩ := List.mem_map.mp live
    obtain ⟨last, young⟩ := kept.age t listed
    exact ⟨t.age, Nat.lt_succ_of_le young, last⟩
  · rintro ⟨i, less, last⟩
    exact kept.live id i last (Nat.le_of_lt_succ less)

/-- The counters of a track stay below the number of frames. -/
theorem Kept.counters {maxAge : ℕ} {now : Tracking Box Score} {t : Track Box} (kept : Kept maxAge now)
    (listed : t ∈ now.tracker.tracks) : t.age < now.frames.length ∧ t.visible ≤ now.frames.length := by
  have last := (kept.age t listed).1
  rw [lastSeen, List.findIdx?_eq_some_iff_getElem] at last
  exact ⟨last.1, kept.visible t listed⟩

section Runs

variable [LinearOrder Score] {iou : Box → Box → Score} {maxAge : ℕ} {iouThreshold : Score} {now after : Tracking Box Score}
  {frame : DescendingSort Score × List (Detection Box Score)} {id : ℕ}

@[simp] theorem tracking_step {s : DescendingSort Score} {detections : List (Detection Box Score)} :
    (tracking iou maxAge iouThreshold).step now (s, detections) =
      some ⟨(now.tracker.update iou s.sort detections).1,
        (now.tracker.update iou s.sort detections).2 :: now.frames⟩ := rfl

theorem Kept.step (kept : Kept maxAge now) (taken : (tracking iou maxAge iouThreshold).step now frame = some after) :
    Kept maxAge after := by
  obtain ⟨s, detections⟩ := frame
  rw [tracking_step, Option.some.injEq] at taken
  subst taken
  have seenCons : ∀ {out : List (TrackedDetection Box Score)} {id}, Seen (out :: now.frames) id ↔
      id ∈ ids out ∨ Seen now.frames id := by simp [Seen]
  refine ⟨kept.config, fun id seen => ?_, fun t listed => ?_, fun t listed => ?_, fun id i last young => ?_⟩
  · rcases seenCons.mp seen with here | before
    · obtain ⟨t, listed, rfl⟩ := List.mem_map.mp (live_of_seen here)
      exact ObjectTracker.fresh _ t.id (List.mem_map_of_mem listed)
    · exact Nat.lt_of_lt_of_le (kept.early id before) (Nat.le_add_right _ _)
  · rcases update_tracks listed with ⟨before, old, sameId, young, touched⟩ | ⟨-, seen, age, -⟩
    · rw [kept.config] at young
      refine ⟨?_, young⟩
      rw [lastSeen_cons]
      rcases touched with ⟨seen, age, -⟩ | ⟨unseen, age, -⟩
      · rw [if_pos seen, age]
      · rw [if_neg unseen, sameId, (kept.age before old).1, age]
        rfl
    · rw [lastSeen_cons, if_pos seen, age]
      exact ⟨rfl, Nat.zero_le _⟩
  · rcases update_tracks listed with ⟨before, old, -, -, touched⟩ | ⟨-, -, -, visible⟩
    · have bound := kept.visible before old
      rw [List.length_cons]
      rcases touched with ⟨-, -, visible⟩ | ⟨-, -, visible⟩ <;> omega
    · rw [visible, List.length_cons]
      exact Nat.le_add_left _ _
  · rw [lastSeen_cons] at last
    split at last
    · rename_i here
      exact live_of_seen here
    · obtain ⟨j, before, rfl⟩ := Option.map_eq_some_iff.mp last
      obtain ⟨t, listed, rfl⟩ := List.mem_map.mp (kept.live id j before (by omega))
      have age : t.age = j := Option.some.inj ((kept.age t listed).1.symm.trans before)
      refine update_keeps listed (.inr ?_)
      rw [kept.config]
      omega

theorem reachable_kept (reached : (tracking iou maxAge iouThreshold).Reachable now) : Kept maxAge now := by
  refine Machine.Reaches.invariant (Kept maxAge) ?_ (fun _ _ _ kept _ taken => kept.step taken) reached
  refine ⟨rfl, ?_, ?_, ?_, ?_⟩ <;> simp [tracking, ObjectTracker.new, Seen, lastSeen]

/-- An id whose track is gone does not come back. -/
theorem Kept.gone (kept : Kept maxAge now) (seen : Seen now.frames id) (gone : id ∉ now.tracker.live)
    {frames : List (DescendingSort Score × List (Detection Box Score))}
    (ran : (tracking iou maxAge iouThreshold).run now frames = some after) :
    id ∉ after.tracker.live ∧ ∃ later, after.frames = later ++ now.frames ∧ ¬ Seen later id := by
  induction frames generalizing now with
  | nil =>
    cases ran
    exact ⟨gone, [], rfl, by simp [Seen]⟩
  | cons frame frames ih =>
    rw [Machine.run_cons] at ran
    obtain ⟨next, taken, ran⟩ := Option.bind_eq_some_iff.mp ran
    have kept' := kept.step taken
    obtain ⟨s, detections⟩ := frame
    rw [tracking_step, Option.some.injEq] at taken
    subst taken
    have unseen : id ∉ ids (now.tracker.update iou s.sort detections).2 := by
      intro here
      obtain ⟨td, listed, rfl⟩ := List.mem_map.mp here
      obtain ⟨i, entry⟩ := List.mem_iff_getElem?.mp listed
      rcases update_entry entry with ⟨-, c, -, -, named⟩ | ⟨-, -, late, -⟩
      · exact gone (List.mem_of_getElem? named)
      · exact absurd (kept.early td.trackId seen) (Nat.not_lt.mpr late)
    have gone' : id ∉ (now.tracker.update iou s.sort detections).1.live := by
      intro live
      obtain ⟨t, listed, rfl⟩ := List.mem_map.mp live
      rcases update_tracks listed with ⟨before, old, sameId, -⟩ | ⟨-, here, -⟩
      · exact gone (sameId ▸ List.mem_map_of_mem old)
      · exact unseen here
    obtain ⟨dead, later, frames', apart⟩ := ih kept' (by simp [Seen] at seen ⊢; exact .inr seen) gone' ran
    refine ⟨dead, later ++ [(now.tracker.update iou s.sort detections).2], by simp [frames'], ?_⟩
    rintro ⟨out, listed, here⟩
    rcases List.mem_append.mp listed with recent | first
    · exact apart ⟨out, recent, here⟩
    · rw [List.mem_singleton.mp first] at here
      exact unseen here

theorem Kept.new_iff (kept : Kept maxAge now) {s : DescendingSort Score} {detections : List (Detection Box Score)}
    {td : TrackedDetection Box Score} (listed : td ∈ (now.tracker.update iou s.sort detections).2) :
    td.isNew ↔ ¬ Seen now.frames td.trackId := by
  obtain ⟨i, entry⟩ := List.mem_iff_getElem?.mp listed
  rcases update_entry entry with ⟨old, c, -, -, named⟩ | ⟨new, -, late, -⟩
  · refine iff_of_false (by simp [old]) (not_not_intro ?_)
    obtain ⟨out, recent, here⟩ := kept.live_iff.mp (List.mem_of_getElem? named)
    exact ⟨out, List.mem_of_mem_take recent, here⟩
  · exact iff_of_true new fun seen => absurd (kept.early td.trackId seen) (Nat.not_lt.mpr late)

/-- In every frame so far the ids differ, and new ones are those that no frame before it has. -/
def Fresh (frames : List (List (TrackedDetection Box Score))) : Prop :=
  ∀ out old, out :: old <:+ frames → (ids out).Nodup ∧ ∀ td ∈ out, td.isNew ↔ ¬ Seen old td.trackId

theorem reachable_fresh (reached : (tracking iou maxAge iouThreshold).Reachable now) : Fresh now.frames := by
  refine Machine.Reaches.invariant_with (Kept maxAge) (fun now => Fresh now.frames)
    (fun now reached => reachable_kept reached) ?_ ?_ reached
  · intro out old suffix
    simp [tracking] at suffix
  · rintro now ⟨s, detections⟩ after kept fresh - taken out old suffix
    rw [tracking_step, Option.some.injEq] at taken
    subst taken
    rcases List.suffix_cons_iff.mp suffix with same | before
    · obtain ⟨rfl, rfl⟩ := List.cons.inj same
      exact ⟨ObjectTracker.update_distinct, fun td listed => kept.new_iff listed⟩
    · exact fresh out old before

theorem reachable_threshold (reached : (tracking iou maxAge iouThreshold).Reachable now) :
    now.tracker.iouThreshold = iouThreshold := by
  refine Machine.Reaches.invariant (fun now => now.tracker.iouThreshold = iouThreshold) rfl ?_ reached
  rintro now ⟨s, detections⟩ after same - taken
  rw [tracking_step, Option.some.injEq] at taken
  subst taken
  exact same

/-- No track and detection with enough overlap would both rather have each other. -/
def Stable (tracks : List (Track Box)) (iou : Box → Box → Score) (iouThreshold : Score)
    (out : List (TrackedDetection Box Score)) : Prop :=
  ∀ t ∈ tracks, ∀ td ∈ out, iouThreshold ≤ iou t.bbox td.detection.bbox → td.trackId ≠ t.id →
    (∃ other ∈ out, other.trackId = t.id ∧ iou t.bbox td.detection.bbox ≤ iou t.bbox other.detection.bbox) ∨
    ∃ other ∈ tracks, td.trackId = other.id ∧ iou t.bbox td.detection.bbox ≤ iou other.bbox td.detection.bbox

theorem update_stable {tracker : ObjectTracker Box Score} {s : DescendingSort Score}
    {detections : List (Detection Box Score)} :
    Stable tracker.tracks iou tracker.iouThreshold (tracker.update iou s.sort detections).2 := by
  intro t isTrack td listed enough _
  have detectionOf : ∀ {i : ℕ} {td : TrackedDetection Box Score},
      (tracker.update iou s.sort detections).2[i]? = some td → detections[i]? = some td.detection := by
    intro i td found
    have whole := congrArg (·[i]?) (update_detections tracker iou s detections)
    simpa [found] using whole.symm
  obtain ⟨ti, original⟩ := List.mem_iff_getElem?.mp isTrack
  obtain ⟨di, found⟩ := List.mem_iff_getElem?.mp listed
  have offered : (ti, di, iou t.bbox td.detection.bbox) ∈ s.sort (tracker.candidates iou detections) :=
    (s.perm _).mem_iff.mpr (mem_candidates.mpr ⟨t, td.detection, original, detectionOf found, enough, rfl⟩)
  obtain ⟨⟨ti', di', score⟩, paired, meet, heavier⟩ := foldl_choose_stable [] (s.sorted _) (by simp) offered
  obtain ⟨t', d', original', seen, -, rfl⟩ := mem_candidates.mp (mem_pairs paired)
  have living : tracker.live[ti']? = some t'.id := by simp [ObjectTracker.live, original']
  obtain ⟨td', found', named⟩ := entry_of_pair paired living
  rcases meet with sameTrack | sameDetection
  · obtain rfl : ti = ti' := sameTrack
    obtain rfl : t = t' := Option.some.inj (original.symm.trans original')
    obtain rfl : d' = td'.detection := Option.some.inj (seen.symm.trans (detectionOf found'))
    exact .inl ⟨td', List.mem_of_getElem? found', named, heavier⟩
  · obtain rfl : di = di' := sameDetection
    obtain rfl : td = td' := Option.some.inj (found.symm.trans found')
    obtain rfl : d' = td.detection := Option.some.inj (seen.symm.trans (detectionOf found))
    exact .inr ⟨t', List.mem_of_getElem? original', named, heavier⟩

/-- **The tracker is right over whole runs**: the ids of a frame differ and are new when they are said to
be, a track lives as long as it was seen in the last `maxAge + 1` frames and its id is not given again, the
next frame is matched stably, and no counter exceeds the number of frames. -/
theorem tracks_correct (reached : (tracking iou maxAge iouThreshold).Reachable now) :
    Fresh now.frames ∧
    (∀ id, id ∈ now.tracker.live ↔ Seen (now.frames.take (maxAge + 1)) id) ∧
    (∀ id, Seen now.frames id → id ∉ now.tracker.live →
      ∀ frames after, (tracking iou maxAge iouThreshold).run now frames = some after →
        id ∉ after.tracker.live ∧ ∃ later, after.frames = later ++ now.frames ∧ ¬ Seen later id) ∧
    (∀ (s : DescendingSort Score) (detections : List (Detection Box Score)),
      (now.tracker.update iou s.sort detections).2.map TrackedDetection.detection = detections ∧
      Stable now.tracker.tracks iou iouThreshold (now.tracker.update iou s.sort detections).2) ∧
    ∀ t ∈ now.tracker.tracks, t.age < now.frames.length ∧ t.visible ≤ now.frames.length := by
  have kept := reachable_kept reached
  refine ⟨reachable_fresh reached, fun id => kept.live_iff, fun id seen gone frames after ran => kept.gone seen gone ran,
    fun s detections => ⟨update_detections _ _ _ _, ?_⟩, fun t listed => kept.counters listed⟩
  rw [← reachable_threshold reached]
  exact update_stable

/-- An object that is seen, missed and seen again. -/
theorem tracks_correct_missed :
    let seen : List (Detection ℕ ℕ) := [⟨7, 1, 0, "person", .object⟩]
    let M : Machine (Tracking ℕ ℕ) (DescendingSort ℕ × List (Detection ℕ ℕ)) :=
      tracking (fun p q => if p = q then 1 else 0) 1 1
    ∃ now, M.run M.initial [(.stable, seen), (.stable, []), (.stable, seen)] = some now ∧
      now.frames.map ids = [[1], [], [1]] ∧ Fresh now.frames ∧
      (1 ∈ now.tracker.live ↔ Seen (now.frames.take 2) 1) := by
  intro seen M
  have ran : (M.run M.initial [(.stable, seen), (.stable, []), (.stable, seen)]).any fun now =>
      now.frames.map ids = [[1], [], [1]] := by decide +kernel
  obtain ⟨now, ran, given⟩ := (Option.any_eq_true _ _).mp ran
  have right := tracks_correct (Machine.Reachable.run .initial ran)
  exact ⟨now, ran, of_decide_eq_true given, right.1, right.2.1 1⟩

end Runs

end RndRust.Perception
