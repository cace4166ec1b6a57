import RndRust.Lib.Positions
import RndRust.Perception.Pipeline

/-! Whose text and whose face an event carries. Texts are matched to vehicles by their
position among the texts that are not empty, and a face to every new person of the
frame. -/
namespace RndRust.Perception
open Lib

variable {Image Box Score Face Embedding : Type}
  {p : Pipeline Image Box Score Face Embedding} {frame : Frame Image}
  {tracked : List (TrackedDetection Box Score)} {events : List (Event Box Score)}

/-- The first face of the frame that matches a known one, and whom it matches. -/
def Pipeline.knownFace (p : Pipeline Image Box Score Face Embedding) (frame : Frame Image) :
    Option (Face × MatchResult Score) := do
  let pipe ← p.facePipeline
  let db ← p.faceDb
  let faces ← (pipe.detectFaces frame).toOption
  faces.findSome? fun face => (db.findMatch (pipe.embedding frame face)).map (face, ·)

/-- A detection and the event at its position. -/
def Shows (tracked : List (TrackedDetection Box Score)) (events : List (Event Box Score)) (i : ℕ)
    (td : TrackedDetection Box Score) (e : Event Box Score) : Prop :=
  tracked[i]? = some td ∧ events[i]? = some e

/-- The text of an event is that in the box of its vehicle, and no text of a new vehicle
is left out. -/
structure TextsAttributed (p : Pipeline Image Box Score Face Embedding) (frame : Frame Image)
    (tracked : List (TrackedDetection Box Score)) (events : List (Event Box Score)) : Prop where
  own : ∀ {i td e text}, Shows tracked events i td e → e.ocrText = some text →
    isVehicle td.detection.label ∧ ∃ ocr, p.ocrPipeline = some ocr ∧ text = ocr.textOf frame e.bbox
  complete : ∀ {i td e ocr}, Shows tracked events i td e → p.ocrPipeline = some ocr → td.isNew →
    isVehicle td.detection.label → ocr.textOf frame e.bbox ≠ [] → e.ocrText = some (ocr.textOf frame e.bbox)

/-- The identity of an event comes from a face in the box of its person, and the face
gives it to no other event. -/
structure FacesAttributed (p : Pipeline Image Box Score Face Embedding) (frame : Frame Image)
    (within : Face → Box → Prop) (tracked : List (TrackedDetection Box Score))
    (events : List (Event Box Score)) : Prop where
  face : ∀ {i td e name}, Shows tracked events i td e → e.faceIdentity = some name →
    td.detection.label = "person" ∧
      ∃ face m, p.knownFace frame = some (face, m) ∧ m.name = name ∧ within face e.bbox
  single : ∀ {i j td td' e e'}, Shows tracked events i td e → Shows tracked events j td' e' →
    e.faceIdentity.isSome → e'.faceIdentity.isSome → i = j

/-- No new vehicle without text comes before one with text. -/
def TextsFirst (p : Pipeline Image Box Score Face Embedding) (frame : Frame Image)
    (tracked : List (TrackedDetection Box Score)) : Prop :=
  ∀ ocr ∈ p.ocrPipeline, ((newVehicles tracked).map fun v => ocr.textOf frame v.detection.bbox).Pairwise
    fun a b => a = [] → b = []

instance : Decidable (TextsFirst p frame tracked) :=
  inferInstanceAs (Decidable (∀ ocr ∈ p.ocrPipeline, ((newVehicles tracked).map fun v =>
    ocr.textOf frame v.detection.bbox).Pairwise fun a b => a = [] → b = []))

/-- When a known face is in the frame, there is one new person at most, and the face is
in its box. -/
def FaceAlone (p : Pipeline Image Box Score Face Embedding) (frame : Frame Image)
    (within : Face → Box → Prop) (tracked : List (TrackedDetection Box Score)) : Prop :=
  ∀ found ∈ p.knownFace frame, (newPersons tracked).length ≤ 1 ∧
    ∀ person ∈ newPersons tracked, within found.1 person.detection.bbox

instance {within : Face → Box → Prop} [DecidableRel within] : Decidable (FaceAlone p frame within tracked) :=
  inferInstanceAs (Decidable (∀ found ∈ p.knownFace frame, (newPersons tracked).length ≤ 1 ∧
    ∀ person ∈ newPersons tracked, within found.1 person.detection.bbox))

section Texts

variable {ocr : OcrPipeline Image Box Score} {regions : List Box}

theorem recognizeChunk_append {first later : List Box} :
    ocr.recognizeChunk frame (first ++ later) =
      ocr.recognizeChunk frame first ++ ocr.recognizeChunk frame later :=
  List.filterMap_append

theorem recognizeChunks_ok {results : List (OcrResult Box Score)}
    (done : ocr.recognizeChunks frame regions = .ok results) : results = ocr.recognizeChunk frame regions := by
  fun_induction OcrPipeline.recognizeChunks ocr frame regions generalizing results with
  | case1 =>
    cases done
    rfl
  | case2 => cases done
  | case3 regions some' positive ih =>
    obtain ⟨-, -, done⟩ := bind_eq_ok.mp done
    obtain ⟨rest, later, done⟩ := bind_eq_ok.mp done
    cases done
    rw [ih later, ← recognizeChunk_append, List.take_append_drop]

/-- The batches together give the texts of all boxes that have one, in order. -/
theorem recognizeText_ok {results : List (OcrResult Box Score)}
    (done : ocr.recognizeText frame regions = .ok results) : results = ocr.recognizeChunk frame regions := by
  unfold OcrPipeline.recognizeText at done
  split at done
  · rename_i none
    cases done
    rw [none]
    rfl
  · exact recognizeChunks_ok done

theorem recognizeChunk_texts (ocr : OcrPipeline Image Box Score) (frame : Frame Image) (regions : List Box) :
    (ocr.recognizeChunk frame regions).map OcrResult.text =
    (regions.map (ocr.textOf frame)).filter (· ≠ []) := by
  induction regions with
  | nil => rfl
  | cons bbox regions ih =>
    simp only [OcrPipeline.recognizeChunk, List.filterMap_cons, List.map_cons] at ih ⊢
    by_cases empty : ocr.textOf frame bbox = []
    · simpa [empty] using ih
    · simpa [empty] using ih

theorem mem_filter_of_id {f : TrackedDetection Box Score → Bool} {td : TrackedDetection Box Score}
    (distinct : (tracked.map TrackedDetection.trackId).Nodup) (member : td ∈ tracked)
    (listed : td.trackId ∈ (tracked.filter f).map TrackedDetection.trackId) : td ∈ tracked.filter f := by
  obtain ⟨other, found, same⟩ := List.mem_map.mp listed
  have own := List.inj_on_of_nodup_map distinct (List.mem_of_mem_filter found) member same
  exact own ▸ found

/-- The texts of the vehicles that have one are handed out from the first vehicle on. -/
theorem ocrResults_ok {vehicles : List (TrackedDetection Box Score)} {texts : List (ℕ × Text)}
    (enabled : p.ocrPipeline = some ocr) (done : p.ocrResults frame vehicles = .ok texts) :
    texts = (vehicles.zip ((vehicles.map fun v => ocr.textOf frame v.detection.bbox).filter (· ≠ []))).map
      fun pair => (pair.1.trackId, pair.2) := by
  unfold Pipeline.ocrResults at done
  rw [enabled] at done
  obtain ⟨results, recognized, done⟩ := bind_eq_ok.mp done
  cases done
  have chunk := recognizeText_ok recognized
  have names := recognizeChunk_texts ocr frame (vehicles.map (·.detection.bbox))
  rw [← chunk, List.map_map] at names
  have some' : ∀ pair ∈ vehicles.zip results, pair.2.text ≠ [] := by
    intro pair member
    have listed := List.mem_map_of_mem (f := OcrResult.text) (List.of_mem_zip member).2
    rw [names] at listed
    simpa using (List.mem_filter.mp listed).2
  rw [show ((vehicles.map fun v => ocr.textOf frame v.detection.bbox).filter (· ≠ [])) = results.map OcrResult.text
    from names.symm, List.zip_map_right, List.map_map, ← List.filterMap_eq_map]
  refine List.filterMap_congr fun pair member => ?_
  simp [some' pair member]

variable {texts : List (ℕ × Text)} {td : TrackedDetection Box Score} {j : ℕ}

/-- The text an event gets: that at the position of its vehicle. -/
theorem textAt (enabled : p.ocrPipeline = some ocr) (distinct : (tracked.map TrackedDetection.trackId).Nodup)
    (done : p.ocrResults frame (newVehicles tracked) = .ok texts) (found : (newVehicles tracked)[j]? = some td) :
    (texts.find? fun r => r.1 == td.trackId).map (·.2) =
      (((newVehicles tracked).map fun v => ocr.textOf frame v.detection.bbox).filter (· ≠ []))[j]? := by
  have own : ((newVehicles tracked).map TrackedDetection.trackId).Nodup :=
    (List.Sublist.map _ List.filter_sublist).nodup distinct
  rw [ocrResults_ok enabled done, List.find?_map]
  have zip := find?_zip (((newVehicles tracked).map fun v => ocr.textOf frame v.detection.bbox).filter (· ≠ [])) own found
  simp only [Function.comp_def, zip, Option.map_map]
  exact Option.map_id'

theorem textAt_none (distinct : (tracked.map TrackedDetection.trackId).Nodup) (member : td ∈ tracked)
    (done : p.ocrResults frame (newVehicles tracked) = .ok texts) (other : td ∉ newVehicles tracked) :
    (texts.find? fun r => r.1 == td.trackId) = none := by
  cases enabled : p.ocrPipeline with
  | none =>
    simp only [Pipeline.ocrResults, enabled, Except.ok.injEq] at done
    rw [← done]
    rfl
  | some ocr =>
    rw [ocrResults_ok enabled done, List.find?_map]
    have missing : td.trackId ∉ (newVehicles tracked).map TrackedDetection.trackId :=
      fun listed => other (mem_filter_of_id distinct member listed)
    have none := find?_zip_none (((newVehicles tracked).map fun v => ocr.textOf frame v.detection.bbox).filter (· ≠ [])) missing
    simp only [Function.comp_def, none, Option.map_none]

end Texts

section Faces

variable {pipe : FacePipeline Image Face Embedding} {db : FaceDb Embedding Score}
  {persons : List (TrackedDetection Box Score)} {td : TrackedDetection Box Score}

/-- The search of a person finds the known face of the frame. -/
theorem searchFace_ok {found : Option (MatchResult Score)} (pipes : p.facePipeline = some pipe)
    (base : p.faceDb = some db) (done : searchFace pipe db frame = .ok found) :
    found = (p.knownFace frame).map (·.2) := by
  obtain ⟨faces, detected, done⟩ := bind_eq_ok.mp done
  have known : p.knownFace frame =
      faces.findSome? fun face => (db.findMatch (pipe.embedding frame face)).map (face, ·) := by
    simp [Pipeline.knownFace, pipes, base, detected, Except.toOption]
  rw [known]
  split at done
  · rename_i none
    cases done
    simp [List.isEmpty_iff.mp none]
  · obtain ⟨embeddings, extracted, done⟩ := bind_eq_ok.mp done
    obtain ⟨-, -, extracted⟩ := bind_eq_ok.mp extracted
    cases extracted
    cases done
    rw [List.findSome?_map, List.map_findSome?]
    congr 1
    funext face
    simp [Function.comp_def]

theorem recognizeFaces_ok {results : List (ℕ × MatchResult Score)} (pipes : p.facePipeline = some pipe)
    (base : p.faceDb = some db) (done : recognizeFaces pipe db frame persons = .ok results) :
    results = persons.flatMap fun person => ((p.knownFace frame).map (·.2)).toList.map (person.trackId, ·) := by
  induction persons generalizing results with
  | nil =>
    cases done
    rfl
  | cons person persons ih =>
    obtain ⟨found, searched, done⟩ := bind_eq_ok.mp done
    obtain ⟨rest, later, done⟩ := bind_eq_ok.mp done
    cases done
    rw [searchFace_ok pipes base searched, ih later, List.flatMap_cons]

/-- **Every new person gets the first known face of the frame**, and no one else does. -/
theorem faceIdentity_iff {faces : List (ℕ × MatchResult Score)} {name : Text}
    (distinct : (tracked.map TrackedDetection.trackId).Nodup) (member : td ∈ tracked)
    (done : p.faceResults frame (newPersons tracked) = .ok faces) :
    (faces.find? fun r => r.1 == td.trackId).map (·.2.name) = some name ↔
      td ∈ newPersons tracked ∧ ∃ face m, p.knownFace frame = some (face, m) ∧ m.name = name := by
  unfold Pipeline.faceResults at done
  split at done
  · rename_i pipe db pipes base
    have results := recognizeFaces_ok pipes base done
    cases known : p.knownFace frame with
    | none =>
      have empty : faces = [] := by
        rw [results, known]
        simp
      simp [empty]
    | some pair =>
      obtain ⟨face, m⟩ := pair
      have same : faces = (newPersons tracked).map fun person => (person.trackId, m) := by
        rw [results, known, List.map_eq_flatMap]
        rfl
      rw [same, List.find?_map]
      cases search : (newPersons tracked).find? ((fun r => r.1 == td.trackId) ∘ fun person => (person.trackId, m)) with
      | none =>
        have missing : td ∉ newPersons tracked := fun listed => by
          simpa using List.find?_eq_none.mp search td listed
        simp [missing]
      | some person =>
        have own : person.trackId = td.trackId := by simpa using List.find?_some search
        have listed : td ∈ newPersons tracked :=
          mem_filter_of_id distinct member (own ▸ List.mem_map_of_mem (List.mem_of_find?_eq_some search))
        simp [listed]
  · rename_i missing
    cases done
    have none : p.knownFace frame = none := by
      unfold Pipeline.knownFace
      cases pipes : p.facePipeline with
      | none => rfl
      | some pipe =>
        cases base : p.faceDb with
        | none => rfl
        | some db => exact absurd base (by simpa using missing pipe db pipes)
    simp [none]

end Faces

section Events

variable {within : Face → Box → Prop}

theorem buildEvents_ok (built : p.buildEvents frame tracked = .ok events) : ∃ faces texts,
    p.faceResults frame (newPersons tracked) = .ok faces ∧ p.ocrResults frame (newVehicles tracked) = .ok texts ∧
      events = tracked.map (Pipeline.event frame faces texts) := by
  obtain ⟨faces, recognized, built⟩ := bind_eq_ok.mp built
  obtain ⟨texts, read, built⟩ := bind_eq_ok.mp built
  cases built
  exact ⟨faces, texts, recognized, read, rfl⟩

theorem shows_map {f : TrackedDetection Box Score → Event Box Score} {i : ℕ} {td : TrackedDetection Box Score}
    {e : Event Box Score} : Shows tracked (tracked.map f) i td e ↔ tracked[i]? = some td ∧ e = f td := by
  unfold Shows
  rw [List.getElem?_map]
  constructor
  · rintro ⟨found, shown⟩
    rw [found] at shown
    exact ⟨found, (Option.some.inj shown).symm⟩
  · rintro ⟨found, rfl⟩
    rw [found]
    exact ⟨rfl, rfl⟩

/-- Being in line, for texts. -/
theorem textsFirst_iff : TextsFirst p frame tracked ↔ ∀ ocr ∈ p.ocrPipeline,
    InLine (· ≠ []) ((newVehicles tracked).map fun v => ocr.textOf frame v.detection.bbox) := by
  unfold TextsFirst
  refine forall_congr' fun ocr => imp_congr_right fun _ => ?_
  rw [inLine_iff]
  refine List.Pairwise.iff fun a b => ?_
  simp

variable {faces : List (ℕ × MatchResult Score)} {texts : List (ℕ × Text)}

theorem mem_newVehicles {td : TrackedDetection Box Score} :
    td ∈ newVehicles tracked ↔ td ∈ tracked ∧ td.isNew ∧ isVehicle td.detection.label := by
  unfold newVehicles
  rw [List.mem_filter, Bool.and_eq_true]

/-- Where every vehicle has its own text, it is in line. -/
theorem TextsAttributed.first (distinct : (tracked.map TrackedDetection.trackId).Nodup)
    (read : p.ocrResults frame (newVehicles tracked) = .ok texts)
    (right : TextsAttributed p frame tracked (tracked.map (Pipeline.event frame faces texts))) :
    TextsFirst p frame tracked := by
  rw [textsFirst_iff]
  intro ocr enabled j t found
  rw [List.getElem?_map] at found
  obtain ⟨v, listed, rfl⟩ := Option.map_eq_some_iff.mp found
  obtain ⟨member, new, kind⟩ := mem_newVehicles.mp (List.mem_of_getElem? listed)
  obtain ⟨i, stands⟩ := List.getElem?_of_mem member
  have shown : Shows tracked (tracked.map (Pipeline.event frame faces texts)) i v
      (Pipeline.event frame faces texts v) := shows_map.mpr ⟨stands, rfl⟩
  have text := textAt enabled distinct read listed
  cases given : (((newVehicles tracked).map fun v => ocr.textOf frame v.detection.bbox).filter (· ≠ []))[j]? with
  | none =>
    rw [given] at text
    by_cases empty : ocr.textOf frame v.detection.bbox = []
    · simp [empty]
    · have carried := right.complete shown enabled new kind empty
      simp only [Pipeline.event] at carried
      rw [text] at carried
      cases carried
  | some r =>
    rw [given] at text
    obtain ⟨-, ocr', enabled', own⟩ := right.own shown text
    obtain rfl : ocr = ocr' := Option.some.inj (enabled.symm.trans enabled')
    have kept : r ≠ [] := by simpa using (List.mem_filter.mp (List.mem_of_getElem? given)).2
    simp only [Pipeline.event] at own
    rw [← own]
    simp [kept]

/-- In line, the text that is handed to a new vehicle is its own. -/
theorem TextsFirst.carried (line : TextsFirst p frame tracked) (distinct : (tracked.map TrackedDetection.trackId).Nodup)
    (read : p.ocrResults frame (newVehicles tracked) = .ok texts) {td : TrackedDetection Box Score}
    {ocr : OcrPipeline Image Box Score} (enabled : p.ocrPipeline = some ocr) (vehicle : td ∈ newVehicles tracked) :
    (texts.find? fun r => r.1 == td.trackId).map (·.2) =
      if ocr.textOf frame td.detection.bbox ≠ [] then some (ocr.textOf frame td.detection.bbox) else none := by
  obtain ⟨j, listed⟩ := List.getElem?_of_mem vehicle
  rw [textAt enabled distinct read listed, textsFirst_iff.mp line ocr enabled j (ocr.textOf frame td.detection.bbox)
    (by rw [List.getElem?_map, listed]; rfl)]
  simp

theorem TextsFirst.attributed (line : TextsFirst p frame tracked)
    (distinct : (tracked.map TrackedDetection.trackId).Nodup)
    (read : p.ocrResults frame (newVehicles tracked) = .ok texts) :
    TextsAttributed p frame tracked (tracked.map (Pipeline.event frame faces texts)) where
  own := by
    intro i td e text shown some'
    obtain ⟨stands, rfl⟩ := shows_map.mp shown
    by_cases vehicle : td ∈ newVehicles tracked
    · refine ⟨(mem_newVehicles.mp vehicle).2.2, ?_⟩
      cases enabled : p.ocrPipeline with
      | none =>
        simp only [Pipeline.ocrResults, enabled, Except.ok.injEq] at read
        simp [Pipeline.event, ← read] at some'
      | some ocr =>
        refine ⟨ocr, rfl, ?_⟩
        simp only [Pipeline.event, line.carried distinct read enabled vehicle] at some' ⊢
        split at some'
        · exact (Option.some.inj some').symm
        · cases some'
    · simp [Pipeline.event, textAt_none distinct (List.mem_of_getElem? stands) read vehicle] at some'
  complete := by
    intro i td e ocr shown enabled new kind some'
    obtain ⟨stands, rfl⟩ := shows_map.mp shown
    have vehicle := mem_newVehicles.mpr ⟨List.mem_of_getElem? stands, new, kind⟩
    simp only [Pipeline.event, line.carried distinct read enabled vehicle] at some' ⊢
    rw [if_pos some']

/-- **Texts are attributed rightly** if and only if none is skipped before another. -/
theorem texts_iff (distinct : (tracked.map TrackedDetection.trackId).Nodup)
    (built : p.buildEvents frame tracked = .ok events) :
    TextsAttributed p frame tracked events ↔ TextsFirst p frame tracked := by
  obtain ⟨faces, texts, -, read, rfl⟩ := buildEvents_ok built
  exact ⟨fun right => right.first distinct read, fun line => line.attributed distinct read⟩

theorem mem_newPersons {td : TrackedDetection Box Score} :
    td ∈ newPersons tracked ↔ td ∈ tracked ∧ td.isNew ∧ td.detection.label = "person" := by
  unfold newPersons
  rw [List.mem_filter]
  simp

theorem faceIdentity_event (distinct : (tracked.map TrackedDetection.trackId).Nodup)
    (recognized : p.faceResults frame (newPersons tracked) = .ok faces) {td : TrackedDetection Box Score} {name : Text}
    (member : td ∈ tracked) : (Pipeline.event frame faces texts td).faceIdentity = some name ↔
      td ∈ newPersons tracked ∧ ∃ face m, p.knownFace frame = some (face, m) ∧ m.name = name :=
  faceIdentity_iff distinct member recognized

theorem FacesAttributed.alone (distinct : (tracked.map TrackedDetection.trackId).Nodup)
    (recognized : p.faceResults frame (newPersons tracked) = .ok faces)
    (right : FacesAttributed p frame within tracked (tracked.map (Pipeline.event frame faces texts))) :
    FaceAlone p frame within tracked := by
  rintro ⟨face, m⟩ known
  have identified : ∀ td ∈ newPersons tracked, (Pipeline.event frame faces texts td).faceIdentity = some m.name :=
    fun td member =>
      (faceIdentity_event distinct recognized (mem_newPersons.mp member).1).mpr ⟨member, face, m, known, rfl⟩
  have shown : ∀ td ∈ newPersons tracked, ∃ i, Shows tracked (tracked.map (Pipeline.event frame faces texts)) i td
      (Pipeline.event frame faces texts td) := by
    intro td member
    obtain ⟨i, stands⟩ := List.getElem?_of_mem (mem_newPersons.mp member).1
    exact ⟨i, shows_map.mpr ⟨stands, rfl⟩⟩
  refine ⟨?_, ?_⟩
  · -- Two persons would stand at one position.
    by_contra more
    have apart : (newPersons tracked).Nodup := List.filter_sublist.nodup (List.Nodup.of_map _ distinct)
    obtain ⟨first, second, rest, persons⟩ : ∃ first second rest, newPersons tracked = first :: second :: rest := by
      match newPersons tracked, more with
      | first :: second :: rest, _ => exact ⟨first, second, rest, rfl⟩
      | [_], more => exact absurd (Nat.le_refl 1) more
      | [], more => exact absurd (Nat.zero_le 1) more
    have one : first ∈ newPersons tracked := by simp [persons]
    have two : second ∈ newPersons tracked := by simp [persons]
    obtain ⟨i, shown₁⟩ := shown first one
    obtain ⟨j, shown₂⟩ := shown second two
    have same := right.single shown₁ shown₂ (by rw [identified first one]; rfl) (by rw [identified second two]; rfl)
    have equal : first = second := Option.some.inj (shown₁.1.symm.trans (same ▸ shown₂.1))
    rw [persons, equal] at apart
    simp at apart
  · intro td member
    obtain ⟨i, shown⟩ := shown td member
    obtain ⟨-, face', m', known', -, lies⟩ := right.face shown (identified td member)
    obtain ⟨rfl, -⟩ := Prod.mk.inj (Option.some.inj (known.symm.trans known'))
    exact lies

theorem FaceAlone.attributed (alone : FaceAlone p frame within tracked)
    (distinct : (tracked.map TrackedDetection.trackId).Nodup)
    (recognized : p.faceResults frame (newPersons tracked) = .ok faces) :
    FacesAttributed p frame within tracked (tracked.map (Pipeline.event frame faces texts)) where
  face := by
    intro i td e name shown some'
    obtain ⟨stands, rfl⟩ := shows_map.mp shown
    obtain ⟨member, face, m, known, named⟩ :=
      (faceIdentity_event distinct recognized (List.mem_of_getElem? stands)).mp some'
    exact ⟨(mem_newPersons.mp member).2.2, face, m, known, named, (alone (face, m) known).2 td member⟩
  single := by
    intro i j td td' e e' shown shown' some' some''
    obtain ⟨stands, rfl⟩ := shows_map.mp shown
    obtain ⟨stands', rfl⟩ := shows_map.mp shown'
    obtain ⟨name, named⟩ := Option.isSome_iff_exists.mp some'
    obtain ⟨name', named'⟩ := Option.isSome_iff_exists.mp some''
    obtain ⟨member, face, m, known, -⟩ :=
      (faceIdentity_event distinct recognized (List.mem_of_getElem? stands)).mp named
    obtain ⟨member', -⟩ := (faceIdentity_event distinct recognized (List.mem_of_getElem? stands')).mp named'
    obtain ⟨only, single⟩ : ∃ only, newPersons tracked ⊆ [only] := by
      have short := (alone (face, m) known).1
      match newPersons tracked, short with
      | [], _ => exact ⟨td, by simp⟩
      | [only], _ => exact ⟨only, by simp⟩
    obtain ⟨inside, -⟩ := List.getElem?_eq_some_iff.mp stands
    apply (List.getElem?_inj inside (List.Nodup.of_map _ distinct)).mp
    rw [stands, stands', List.mem_singleton.mp (single member), List.mem_singleton.mp (single member')]

/-- **The known face is attributed rightly** if and only if it meets no new person, or
one, in whose box it lies. -/
theorem faces_iff (distinct : (tracked.map TrackedDetection.trackId).Nodup)
    (built : p.buildEvents frame tracked = .ok events) :
    FacesAttributed p frame within tracked events ↔ FaceAlone p frame within tracked := by
  obtain ⟨faces, texts, recognized, -, rfl⟩ := buildEvents_ok built
  exact ⟨fun right => right.alone distinct recognized, fun alone => alone.attributed distinct recognized⟩

theorem analyze_ok [LE Score] [DecidableLE Score] (analyzed : (p.analyze frame).2 = .ok (tracked, events)) :
    (tracked.map TrackedDetection.trackId).Nodup ∧ p.buildEvents frame tracked = .ok events := by
  unfold Pipeline.analyze at analyzed
  split at analyzed
  · cases analyzed
  · rename_i detections _
    obtain ⟨built, done, analyzed⟩ := bind_eq_ok.mp analyzed
    cases analyzed
    refine ⟨?_, done⟩
    unfold Pipeline.track
    split
    · exact ObjectTracker.update_distinct
    · exact wrapAsTracked_distinct

/-- **Attribution.** The events of a frame carry what was recognised in their own boxes
if and only if no new vehicle without text precedes one with text, and a known face in
the frame meets no new person or one, in whose box it lies. -/
theorem frame_attributed [LE Score] [DecidableLE Score]
    (analyzed : (p.analyze frame).2 = .ok (tracked, events)) :
    TextsAttributed p frame tracked events ∧ FacesAttributed p frame within tracked events ↔
      TextsFirst p frame tracked ∧ FaceAlone p frame within tracked := by
  obtain ⟨distinct, built⟩ := analyze_ok analyzed
  exact and_congr (texts_iff distinct built) (faces_iff distinct built)

end Events

section Examples

/-- Boxes are numbers, the faces are the given ones, each known under its letter, and the
text in a box is its number in letters. -/
def camera (labels : List (ℕ × String)) (faces : List ℕ) : Pipeline Unit ℕ ℕ ℕ ℕ where
  detector := some ⟨fun _ => .ok (labels.map fun (box, label) => ⟨box, 1, 0, label, .object⟩)⟩
  facePipeline := some ⟨fun _ => .ok faces, fun _ _ => .ok (), fun _ face => face⟩
  faceDb := some ⟨fun face => some ⟨[Char.ofNat (97 + face)], 1⟩⟩
  ocrPipeline := some ⟨fun _ _ => .ok (), fun _ box => [box], fun _ _ => 1, [[], ['A'], ['B']], 2⟩
  tracker := none
  iou := fun _ _ => 0
  sort := id
  deliver := fun _ _ _ => .ok ()

def still : Frame Unit := ⟨(), 0, 0⟩

/-- A car with text, one without, and a person whose face is known. -/
theorem frame_attributed_street : ∃ tracked events,
    ((camera [(1, "car"), (0, "car"), (2, "person")] [2]).analyze still).2 = .ok (tracked, events) ∧
      events.map (fun e => (e.ocrText, e.faceIdentity)) = [(some ['A'], none), (none, none), (none, some ['c'])] ∧
      TextsAttributed (camera [(1, "car"), (0, "car"), (2, "person")] [2]) still tracked events ∧
      FacesAttributed (camera [(1, "car"), (0, "car"), (2, "person")] [2]) still (· = ·) tracked events := by
  have ran : ((camera [(1, "car"), (0, "car"), (2, "person")] [2]).analyze still).2.toOption.any fun r =>
      r.2.map (fun e => (e.ocrText, e.faceIdentity)) = [(some ['A'], none), (none, none), (none, some ['c'])] ∧
      TextsFirst (camera [(1, "car"), (0, "car"), (2, "person")] [2]) still r.1 ∧
      FaceAlone (camera [(1, "car"), (0, "car"), (2, "person")] [2]) still (· = ·) r.1 := by decide +kernel
  cases analyzed : ((camera [(1, "car"), (0, "car"), (2, "person")] [2]).analyze still).2 with
  | error => simp [analyzed, Except.toOption] at ran
  | ok r =>
    obtain ⟨tracked, events⟩ := r
    rw [analyzed] at ran
    obtain ⟨carried, conditions⟩ := of_decide_eq_true ran
    exact ⟨tracked, events, rfl, carried, (frame_attributed analyzed).mpr conditions⟩

/-- The text of the second car goes to the first, which has none; and two persons get
the identity of one face. -/
theorem frame_attributed_fails :
    (∃ tracked events, ((camera [(0, "car"), (1, "car")] []).analyze still).2 = .ok (tracked, events) ∧
      events.map (fun e => (e.bbox, e.ocrText)) = [(0, some ['A']), (1, none)] ∧
      ¬ TextsAttributed (camera [(0, "car"), (1, "car")] []) still tracked events) ∧
    ∃ tracked events, ((camera [(2, "person"), (3, "person")] [2]).analyze still).2 = .ok (tracked, events) ∧
      events.map (fun e => (e.bbox, e.faceIdentity)) = [(2, some ['c']), (3, some ['c'])] ∧
      ¬ FacesAttributed (camera [(2, "person"), (3, "person")] [2]) still (· = ·) tracked events := by
  have cars : ((camera [(0, "car"), (1, "car")] []).analyze still).2.toOption.any fun r =>
      r.2.map (fun e => (e.bbox, e.ocrText)) = [(0, some ['A']), (1, none)] ∧
      ¬ TextsFirst (camera [(0, "car"), (1, "car")] []) still r.1 := by decide +kernel
  have persons : ((camera [(2, "person"), (3, "person")] [2]).analyze still).2.toOption.any fun r =>
      r.2.map (fun e => (e.bbox, e.faceIdentity)) = [(2, some ['c']), (3, some ['c'])] ∧
      ¬ FaceAlone (camera [(2, "person"), (3, "person")] [2]) still (· = ·) r.1 := by decide
  refine ⟨?_, ?_⟩
  · cases analyzed : ((camera [(0, "car"), (1, "car")] []).analyze still).2 with
    | error => simp [analyzed, Except.toOption] at cars
    | ok r =>
      obtain ⟨tracked, events⟩ := r
      rw [analyzed] at cars
      obtain ⟨carried, skipped⟩ := of_decide_eq_true cars
      obtain ⟨distinct, built⟩ := analyze_ok analyzed
      exact ⟨tracked, events, rfl, carried, fun right => skipped ((texts_iff distinct built).mp right)⟩
  · cases analyzed : ((camera [(2, "person"), (3, "person")] [2]).analyze still).2 with
    | error => simp [analyzed, Except.toOption] at persons
    | ok r =>
      obtain ⟨tracked, events⟩ := r
      rw [analyzed] at persons
      obtain ⟨carried, shared⟩ := of_decide_eq_true persons
      obtain ⟨distinct, built⟩ := analyze_ok analyzed
      exact ⟨tracked, events, rfl, carried, fun right => shared ((faces_iff distinct built).mp right)⟩

end Examples

end RndRust.Perception
