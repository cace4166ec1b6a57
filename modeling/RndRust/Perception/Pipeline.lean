import RndRust.Lib.Outcome
import RndRust.Perception.Tracker

/-! One frame through the pipeline, `pipeline/mod.rs` and `pipeline/ocr.rs`. The models
are functions of the frame and of boxes in it; what the pipeline does with their outputs
is modelled as it stands. -/
namespace RndRust.Perception

abbrev Text := List Char

structure Frame (Image : Type) where
  image : Image
  frameNumber : ℕ
  timestamp : ℕ
  deriving DecidableEq, Repr

inductive Fault where
  | error (reason : Text)
  | panic
  deriving DecidableEq, Repr

structure MatchResult (Score : Type) where
  name : Text
  similarity : Score
  deriving DecidableEq, Repr

structure YoloDetector (Image Box Score : Type) where
  detect : Frame Image → Except Fault (List (Detection Box Score))

structure FacePipeline (Image Face Embedding : Type) where
  detectFaces : Frame Image → Except Fault (List Face)
  /-- Whether the recognizer can be run on a batch of faces. -/
  infer : Frame Image → List Face → Except Fault Unit
  embedding : Frame Image → Face → Embedding

/-- `extract_embeddings_batch`. -/
def FacePipeline.extractEmbeddingsBatch {Image Face Embedding : Type}
    (pipe : FacePipeline Image Face Embedding) (frame : Frame Image) (faces : List Face) :
    Except Fault (List Embedding) := do
  pipe.infer frame faces
  .ok (faces.map (pipe.embedding frame))

structure FaceDb (Embedding Score : Type) where
  findMatch : Embedding → Option (MatchResult Score)

structure OcrResult (Box Score : Type) where
  text : Text
  bbox : Box
  confidence : Score
  deriving DecidableEq, Repr

structure OcrPipeline (Image Box Score : Type) where
  /-- Whether the recognizer can be run on a batch of boxes. -/
  infer : Frame Image → List Box → Except Fault Unit
  /-- The class with the highest logit at each time step. -/
  indices : Frame Image → Box → List ℕ
  confidence : Frame Image → Box → Score
  characterDict : List Text
  maxBatchSize : ℕ

/-- `ctc_decode`: equal neighbours are one, the blank `0` is none. -/
def ctcDecode (dict : List Text) : Option ℕ → List ℕ → Text
  | _, [] => []
  | prev, idx :: indices =>
    if prev = some idx then ctcDecode dict prev indices
    else if idx = 0 then ctcDecode dict (some idx) indices
    else (dict[idx]?).getD [] ++ ctcDecode dict (some idx) indices

namespace OcrPipeline

variable {Image Box Score : Type} (ocr : OcrPipeline Image Box Score) (frame : Frame Image)

/-- The text in a box. -/
def textOf (bbox : Box) : Text := ctcDecode ocr.characterDict none (ocr.indices frame bbox)

/-- The loop over one batch; a box without text gives no result. -/
def recognizeChunk (chunk : List Box) : List (OcrResult Box Score) :=
  chunk.filterMap fun bbox =>
    if ocr.textOf frame bbox ≠ [] then some ⟨ocr.textOf frame bbox, bbox, ocr.confidence frame bbox⟩ else none

/-- The loop over the batches. -/
def recognizeChunks (regions : List Box) : Except Fault (List (OcrResult Box Score)) :=
  if regions = [] then .ok []
  -- `chunks` panics on a size of zero.
  else if ocr.maxBatchSize = 0 then .error .panic
  else do
    ocr.infer frame (regions.take ocr.maxBatchSize)
    let rest ← recognizeChunks (regions.drop ocr.maxBatchSize)
    .ok (ocr.recognizeChunk frame (regions.take ocr.maxBatchSize) ++ rest)
termination_by regions.length
decreasing_by
  rename_i some' positive
  have longer := List.length_pos_iff.mpr some'
  rw [List.length_drop]
  omega

/-- `recognize_text`. -/
def recognizeText (regions : List Box) : Except Fault (List (OcrResult Box Score)) :=
  if regions = [] then .ok [] else ocr.recognizeChunks frame regions

end OcrPipeline

/-- `VEHICLE_LABELS`. -/
def vehicleLabels : List String := ["car", "truck", "bus", "motorcycle"]

def isVehicle (label : String) : Bool := vehicleLabels.contains label

structure Event (Box Score : Type) where
  timestamp : ℕ
  frameNumber : ℕ
  trackId : Option ℕ
  detectionKind : DetectionKind
  label : Option String
  confidence : Score
  bbox : Box
  ocrText : Option Text
  faceIdentity : Option Text
  faceSimilarity : Option Score
  deriving DecidableEq, Repr

structure Pipeline (Image Box Score Face Embedding : Type) where
  detector : Option (YoloDetector Image Box Score)
  facePipeline : Option (FacePipeline Image Face Embedding)
  faceDb : Option (FaceDb Embedding Score)
  ocrPipeline : Option (OcrPipeline Image Box Score)
  tracker : Option (ObjectTracker Box Score)
  /-- The overlap of two boxes, and how the tracker sorts its candidates by it. -/
  iou : Box → Box → Score
  sort : List (Candidate Score) → List (Candidate Score)
  /-- Storage, preview and recorder. -/
  deliver : Frame Image → List (TrackedDetection Box Score) → List (Event Box Score) → Except Fault Unit

section ProcessFrame

variable {Image Box Score Face Embedding : Type}

def newPersons (tracked : List (TrackedDetection Box Score)) : List (TrackedDetection Box Score) :=
  tracked.filter fun t => t.isNew && t.detection.label == "person"

def newVehicles (tracked : List (TrackedDetection Box Score)) : List (TrackedDetection Box Score) :=
  tracked.filter fun t => t.isNew && isVehicle t.detection.label

/-- The search for a known face, which goes over the whole frame. -/
def searchFace (pipe : FacePipeline Image Face Embedding) (db : FaceDb Embedding Score) (frame : Frame Image) :
    Except Fault (Option (MatchResult Score)) := do
  let faces ← pipe.detectFaces frame
  if faces.isEmpty then .ok none
  else do
    let embeddings ← pipe.extractEmbeddingsBatch frame faces
    .ok (embeddings.findSome? db.findMatch)

/-- The loop over the new persons. -/
def recognizeFaces (pipe : FacePipeline Image Face Embedding) (db : FaceDb Embedding Score) (frame : Frame Image) :
    List (TrackedDetection Box Score) → Except Fault (List (ℕ × MatchResult Score))
  | [] => .ok []
  | person :: persons => do
    let found ← searchFace pipe db frame
    let rest ← recognizeFaces pipe db frame persons
    .ok (found.toList.map (person.trackId, ·) ++ rest)

namespace Pipeline

variable (p : Pipeline Image Box Score Face Embedding) (frame : Frame Image)

/-- Step 4 of `process_frame`. -/
def faceResults (persons : List (TrackedDetection Box Score)) : Except Fault (List (ℕ × MatchResult Score)) :=
  match p.facePipeline, p.faceDb with
  | some pipe, some db => recognizeFaces pipe db frame persons
  | _, _ => .ok []

/-- Step 5: the results are matched to the vehicles by position. -/
def ocrResults (vehicles : List (TrackedDetection Box Score)) : Except Fault (List (ℕ × Text)) :=
  match p.ocrPipeline with
  | none => .ok []
  | some ocr => do
    let results ← ocr.recognizeText frame (vehicles.map (·.detection.bbox))
    .ok ((vehicles.zip results).filterMap fun (vehicle, result) =>
      if result.text ≠ [] then some (vehicle.trackId, result.text) else none)

/-- Step 6 for one detection. -/
def event (faceResults : List (ℕ × MatchResult Score)) (ocrResults : List (ℕ × Text))
    (td : TrackedDetection Box Score) : Event Box Score where
  timestamp := frame.timestamp
  frameNumber := frame.frameNumber
  trackId := some td.trackId
  detectionKind := td.detection.kind
  label := some td.detection.label
  confidence := td.detection.confidence
  bbox := td.detection.bbox
  ocrText := (ocrResults.find? fun r => r.1 == td.trackId).map (·.2)
  faceIdentity := (faceResults.find? fun r => r.1 == td.trackId).map (·.2.name)
  faceSimilarity := (faceResults.find? fun r => r.1 == td.trackId).map (·.2.similarity)

/-- Steps 3 to 6 of `process_frame`. -/
def buildEvents (tracked : List (TrackedDetection Box Score)) : Except Fault (List (Event Box Score)) := do
  let faceResults ← p.faceResults frame (newPersons tracked)
  let ocrResults ← p.ocrResults frame (newVehicles tracked)
  .ok (tracked.map (event frame faceResults ocrResults))

/-- Step 2: the tracker keeps its state from frame to frame. -/
def track [LE Score] [DecidableLE Score] (detections : List (Detection Box Score)) :
    Pipeline Image Box Score Face Embedding × List (TrackedDetection Box Score) :=
  match p.tracker with
  | some tracker =>
    let (tracker, tracked) := tracker.update p.iou p.sort detections
    ({ p with tracker := some tracker }, tracked)
  | none => (p, wrapAsTracked detections)

/-- Step 1. -/
def detections : Except Fault (List (Detection Box Score)) :=
  match p.detector with
  | some detector => detector.detect frame
  | none => .ok []

/-- Steps 1 to 6, with the detections that the events are built from. -/
def analyze [LE Score] [DecidableLE Score] : Pipeline Image Box Score Face Embedding ×
    Except Fault (List (TrackedDetection Box Score) × List (Event Box Score)) :=
  match p.detections frame with
  | .error e => (p, .error e)
  | .ok detections =>
    let (after, tracked) := p.track detections
    (after, do
      let events ← p.buildEvents frame tracked
      .ok (tracked, events))

/-- `process_frame`. -/
def processFrame [LE Score] [DecidableLE Score] :
    Pipeline Image Box Score Face Embedding × Except Fault (List (Event Box Score)) :=
  let (after, result) := p.analyze frame
  (after, do
    let (tracked, events) ← result
    p.deliver frame tracked events
    .ok events)

end Pipeline

end ProcessFrame

end RndRust.Perception
