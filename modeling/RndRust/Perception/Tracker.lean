import Mathlib.Data.List.Nodup
import Mathlib.Data.List.Perm.Basic

/-! The object tracker, `tracker.rs`: detections of a frame are assigned to the tracks of
the frames before it, greedily by overlap, and the rest open tracks of their own. -/
namespace RndRust.Perception

inductive DetectionKind where
  | object
  | face
  | text
  deriving DecidableEq, Repr

structure Detection (Box Score : Type) where
  bbox : Box
  confidence : Score
  classId : ℕ
  label : String
  kind : DetectionKind
  deriving DecidableEq, Repr

structure TrackedDetection (Box Score : Type) where
  detection : Detection Box Score
  trackId : ℕ
  /-- The object has not been there in an earlier frame. -/
  isNew : Bool
  deriving DecidableEq, Repr

/-- `wrap_as_tracked`: without a tracker every detection is new. -/
def wrapAsTracked {Box Score : Type} (detections : List (Detection Box Score)) :
    List (TrackedDetection Box Score) :=
  detections.zipIdx.map fun (detection, i) => ⟨detection, i + 1, true⟩

structure Track (Box : Type) where
  id : ℕ
  bbox : Box
  age : ℕ
  visible : ℕ
  deriving DecidableEq, Repr

structure ObjectTracker (Box Score : Type) where
  tracks : List (Track Box)
  nextId : ℕ
  maxAge : ℕ
  iouThreshold : Score
  distinct : (tracks.map Track.id).Nodup
  fresh : ∀ id ∈ tracks.map Track.id, id < nextId

/-- `ObjectTracker::new`. -/
def ObjectTracker.new {Box Score : Type} (maxAge : ℕ) (iouThreshold : Score) : ObjectTracker Box Score where
  tracks := []
  nextId := 1
  maxAge
  iouThreshold
  distinct := List.nodup_nil
  fresh := by simp

section Update

variable {Box Score : Type}

/-- A track, a detection, and how much they overlap. -/
abbrev Candidate (Score : Type) := ℕ × ℕ × Score

/-- The pairs that overlap enough. -/
def ObjectTracker.candidates [LE Score] [DecidableLE Score] (tracker : ObjectTracker Box Score)
    (iou : Box → Box → Score) (detections : List (Detection Box Score)) : List (Candidate Score) :=
  tracker.tracks.zipIdx.flatMap fun (track, ti) =>
    detections.zipIdx.filterMap fun (det, di) =>
      if tracker.iouThreshold ≤ iou track.bbox det.bbox then some (ti, di, iou track.bbox det.bbox) else none

/-- The state of the greedy assignment; a detection without a track id is unmatched. -/
structure Matching (Box : Type) where
  tracks : List (Track Box)
  matchedTracks : List ℕ := []
  detTrackId : List (Option ℕ)

/-- One candidate of the greedy assignment. -/
def Matching.assign (detections : List (Detection Box Score)) (m : Matching Box) (c : Candidate Score) :
    Matching Box :=
  match m.tracks[c.1]?, detections[c.2.1]? with
  | some track, some det =>
    if c.1 ∈ m.matchedTracks ∨ m.detTrackId[c.2.1]? ≠ some none then m
    else
      { tracks := m.tracks.set c.1 { track with bbox := det.bbox, age := 0, visible := track.visible + 1 }
        matchedTracks := c.1 :: m.matchedTracks
        detTrackId := m.detTrackId.set c.2.1 (some track.id) }
  | _, _ => m

/-- Unmatched tracks grow older, and go when they are too old. -/
def Matching.aged (m : Matching Box) (maxAge : ℕ) : List (Track Box) :=
  (m.tracks.zipIdx.map fun (t, ti) => if ti ∈ m.matchedTracks then t else { t with age := t.age + 1 }).filter
    fun t => t.age ≤ maxAge

/-- The new tracks, from the next id on, and the detections with their ids. -/
def spawn : ℕ → List (Detection Box Score) → List (Option ℕ) →
    List (Track Box) × List (TrackedDetection Box Score)
  | next, det :: detections, none :: rest =>
    let (tracks, tracked) := spawn (next + 1) detections rest
    (⟨next, det.bbox, 0, 1⟩ :: tracks, ⟨det, next, true⟩ :: tracked)
  | next, det :: detections, some id :: rest =>
    let (tracks, tracked) := spawn next detections rest
    (tracks, ⟨det, id, false⟩ :: tracked)
  | _, _, _ => ([], [])

/-- The greedy assignment for a frame. -/
def ObjectTracker.matching (tracker : ObjectTracker Box Score) (detections : List (Detection Box Score))
    (candidates : List (Candidate Score)) : Matching Box :=
  candidates.foldl (Matching.assign detections)
    { tracks := tracker.tracks, detTrackId := detections.map fun _ => none }

/-- What the greedy assignment keeps: the ids of the tracks, and that no two detections
have the same. -/
structure Matching.Sound (ids : List ℕ) (m : Matching Box) : Prop where
  kept : m.tracks.map Track.id = ids
  source : ∀ id ∈ m.detTrackId.filterMap (fun assigned => assigned), ∃ ti ∈ m.matchedTracks, ids[ti]? = some id
  distinct : (m.detTrackId.filterMap fun assigned => assigned).Nodup

theorem filterMap_set_none {assigned : List (Option ℕ)} {di : ℕ} (id : ℕ) (unmatched : assigned[di]? = some none) :
    ((assigned.set di (some id)).filterMap fun assigned => assigned).Perm
      (id :: assigned.filterMap fun assigned => assigned) := by
  obtain ⟨inside, value⟩ := List.getElem?_eq_some_iff.mp unmatched
  have whole : assigned = assigned.take di ++ none :: assigned.drop (di + 1) := by
    rw [← value, List.getElem_cons_drop, List.take_append_drop]
  rw [List.set_eq_take_append_cons_drop, if_pos inside]
  nth_rewrite 3 [whole]
  simp only [List.filterMap_append, List.filterMap_cons]
  exact List.perm_middle

theorem Matching.Sound.assign {ids : List ℕ} {m : Matching Box} (sound : m.Sound ids) (nodup : ids.Nodup)
    (detections : List (Detection Box Score)) (c : Candidate Score) : (m.assign detections c).Sound ids := by
  unfold Matching.assign
  split
  · rename_i track det known _
    split
    · exact sound
    · rename_i free
      simp only [not_or, ne_eq, Decidable.not_not] at free
      obtain ⟨unused, unmatched⟩ := free
      have own : ids[c.1]? = some track.id := by
        rw [← sound.kept, List.getElem?_map, known]
        rfl
      have perm := filterMap_set_none track.id unmatched
      refine ⟨?_, ?_, ?_⟩
      · obtain ⟨inside, value⟩ := List.getElem?_eq_some_iff.mp own
        rw [List.map_set, sound.kept]
        dsimp only
        rw [← value, List.set_getElem_self]
      · intro id member
        rcases List.mem_cons.mp (perm.mem_iff.mp member) with rfl | before
        · exact ⟨c.1, List.mem_cons_self, own⟩
        · obtain ⟨ti, matched, found⟩ := sound.source id before
          exact ⟨ti, List.mem_cons_of_mem _ matched, found⟩
      · rw [perm.nodup_iff, List.nodup_cons]
        refine ⟨fun member => ?_, sound.distinct⟩
        -- The id would stand in two places of the track list.
        obtain ⟨ti, matched, found⟩ := sound.source track.id member
        obtain ⟨inside, _⟩ := List.getElem?_eq_some_iff.mp own
        have same := (List.getElem?_inj inside nodup).mp (own.trans found.symm)
        exact unused (same ▸ matched)
  · exact sound

theorem Matching.Sound.foldl {ids : List ℕ} {m : Matching Box} (sound : m.Sound ids) (nodup : ids.Nodup)
    (detections : List (Detection Box Score)) (candidates : List (Candidate Score)) :
    (candidates.foldl (Matching.assign detections) m).Sound ids := by
  induction candidates generalizing m with
  | nil => exact sound
  | cons c candidates ih => exact ih (sound.assign nodup detections c)

theorem ObjectTracker.matching_sound (tracker : ObjectTracker Box Score) (detections : List (Detection Box Score))
    (candidates : List (Candidate Score)) :
    (tracker.matching detections candidates).Sound (tracker.tracks.map Track.id) := by
  have start : Matching.Sound (tracker.tracks.map Track.id)
      { tracks := tracker.tracks, detTrackId := detections.map fun _ => none } :=
    ⟨rfl, by simp, by simp⟩
  exact start.foldl tracker.distinct detections candidates

theorem Matching.aged_ids (m : Matching Box) (maxAge : ℕ) :
    ((m.aged maxAge).map Track.id).Sublist (m.tracks.map Track.id) := by
  have same : (m.tracks.zipIdx.map fun (t, ti) => if ti ∈ m.matchedTracks then t else { t with age := t.age + 1 }).map
      Track.id = m.tracks.map Track.id := by
    rw [List.map_map]
    have ids : (Track.id ∘ fun (t, ti) => if ti ∈ m.matchedTracks then t else { t with age := t.age + 1 }) =
        (Track.id ∘ Prod.fst : Track Box × ℕ → ℕ) := by
      funext ⟨t, ti⟩
      simp only [Function.comp_apply]
      split <;> rfl
    rw [ids, ← List.map_map, List.zipIdx_map_fst]
  rw [← same]
  exact List.Sublist.map _ List.filter_sublist

/-- New tracks are numbered from the next id on. -/
theorem spawn_ids {next : ℕ} {detections : List (Detection Box Score)} {assigned : List (Option ℕ)} :
    (spawn next detections assigned).1.map Track.id =
      List.range' next (spawn next detections assigned).1.length := by
  fun_induction spawn next detections assigned with
  | case1 next det detections rest tracks tracked _ ih => simp_all [List.range'_succ]
  | case2 => simp_all
  | case3 => rfl

/-- Detections get the ids of their tracks or new ones, each its own. -/
theorem spawn_distinct {next : ℕ} {detections : List (Detection Box Score)} {assigned : List (Option ℕ)}
    (distinct : (assigned.filterMap fun assigned => assigned).Nodup)
    (old : ∀ id ∈ assigned.filterMap (fun assigned => assigned), id < next) :
    ((spawn next detections assigned).2.map TrackedDetection.trackId).Nodup ∧
      ∀ id ∈ (spawn next detections assigned).2.map TrackedDetection.trackId,
        id ∈ assigned.filterMap (fun assigned => assigned) ∨ next ≤ id := by
  fun_induction spawn next detections assigned with
  | case1 next det detections rest tracks tracked found ih =>
    simp only [List.filterMap_cons] at distinct old ⊢
    obtain ⟨apart, origin⟩ := ih distinct fun id member => Nat.lt_succ_of_lt (old id member)
    simp only [found] at apart origin
    have fresh : ∀ id ∈ tracked.map TrackedDetection.trackId,
        id ∈ rest.filterMap (fun assigned => assigned) ∨ next < id := origin
    refine ⟨?_, ?_⟩
    · rw [List.map_cons, List.nodup_cons]
      refine ⟨fun member => ?_, apart⟩
      rcases fresh next member with before | later
      · exact absurd (old next before) (Nat.lt_irrefl _)
      · exact absurd later (Nat.lt_irrefl _)
    · intro id member
      rcases List.mem_cons.mp member with rfl | member
      · exact .inr (Nat.le_refl _)
      · exact (fresh id member).imp_right Nat.le_of_lt
  | case2 next det detections id rest tracks tracked found ih =>
    simp only [List.filterMap_cons, List.nodup_cons, List.mem_cons, forall_eq_or_imp] at distinct old ⊢
    obtain ⟨apart, origin⟩ := ih distinct.2 old.2
    simp only [found] at apart origin
    refine ⟨?_, ?_⟩
    · rw [List.map_cons, List.nodup_cons]
      refine ⟨fun member => ?_, apart⟩
      rcases origin id member with before | later
      · exact distinct.1 before
      · exact absurd old.1 (Nat.not_lt.mpr later)
    · intro other member
      rcases List.mem_cons.mp member with rfl | member
      · exact .inl (.inl rfl)
      · exact (origin other member).imp_left .inr
  | case3 => simp

/-- `ObjectTracker::update`; `sort` puts the candidates with the most overlap first, and
equal ones in any order. -/
def ObjectTracker.update [LE Score] [DecidableLE Score] (tracker : ObjectTracker Box Score)
    (iou : Box → Box → Score) (sort : List (Candidate Score) → List (Candidate Score))
    (detections : List (Detection Box Score)) : ObjectTracker Box Score × List (TrackedDetection Box Score) :=
  let m := tracker.matching detections (sort (tracker.candidates iou detections))
  have sound : m.Sound (tracker.tracks.map Track.id) := tracker.matching_sound _ _
  have aged : ((m.aged tracker.maxAge).map Track.id).Sublist (tracker.tracks.map Track.id) :=
    sound.kept ▸ m.aged_ids tracker.maxAge
  let spawned := spawn tracker.nextId detections m.detTrackId
  ({ tracker with
      tracks := m.aged tracker.maxAge ++ spawned.1
      nextId := tracker.nextId + spawned.1.length
      distinct := by
        rw [List.map_append, List.nodup_append]
        refine ⟨aged.nodup tracker.distinct, ?_, ?_⟩
        · rw [spawn_ids]
          exact List.nodup_range'
        · intro old before new after
          rw [spawn_ids, List.mem_range'_1] at after
          have early := tracker.fresh old (aged.subset before)
          omega
      fresh := by
        intro id member
        rw [List.map_append] at member
        rcases List.mem_append.mp member with before | after
        · have early := tracker.fresh id (aged.subset before)
          omega
        · rw [spawn_ids, List.mem_range'_1] at after
          exact after.2 },
    spawned.2)

variable {tracker : ObjectTracker Box Score} {iou : Box → Box → Score}
  {sort : List (Candidate Score) → List (Candidate Score)} {detections : List (Detection Box Score)}

/-- **The detections of a frame have distinct track ids.** -/
theorem ObjectTracker.update_distinct [LE Score] [DecidableLE Score] :
    ((tracker.update iou sort detections).2.map TrackedDetection.trackId).Nodup := by
  have sound := tracker.matching_sound detections (sort (tracker.candidates iou detections))
  refine (spawn_distinct sound.distinct fun id member => ?_).1
  obtain ⟨ti, -, found⟩ := sound.source id member
  exact tracker.fresh id (List.mem_of_getElem? found)

theorem wrapAsTracked_distinct : ((wrapAsTracked detections).map TrackedDetection.trackId).Nodup := by
  have ids : (wrapAsTracked detections).map TrackedDetection.trackId =
      (detections.zipIdx.map Prod.snd).map (· + 1) := by
    simp only [wrapAsTracked, List.map_map]
    rfl
  rw [ids, List.zipIdx_map_snd]
  exact List.Nodup.map (fun _ _ same => Nat.succ.inj same) List.nodup_range'

end Update

end RndRust.Perception
