import RndRust.Lib.Select
import RndRust.Perception.Rfc3339

/-! The event store, `storage/sqlite.rs`: events as rows with times and ids as texts and numbers in
signed columns, and the statement that `query_events` builds beside its list of bound values. -/
namespace RndRust.Perception.Storage
open Lib

structure BBox (Real : Type) where
  x1 : Real
  y1 : Real
  x2 : Real
  y2 : Real
  deriving DecidableEq, Repr

/-- An event with its id and the path of its crop. A `f32` is a value of any kind. -/
structure Event (Uuid Real : Type) where
  id : Uuid
  timestamp : Timestamp
  frameNumber : UInt64
  trackId : Option UInt64
  detectionKind : DetectionKind
  label : Option Text
  confidence : Real
  bbox : BBox Real
  ocrText : Option Text
  faceIdentity : Option Text
  faceSimilarity : Option Real
  cropPath : Option Text
  deriving DecidableEq

structure EventFilter where
  kind : Option DetectionKind := none
  label : Option Text := none
  trackId : Option UInt64 := none
  after : Option Timestamp := none
  before : Option Timestamp := none
  limit : Option UInt32 := none

inductive StorageError where
  /-- The `INSERT` of an id that is there, or another error of the database. -/
  | database
  | invalidUuid
  | invalidTimestamp
  | unknownKind (other : Text)
  deriving DecidableEq, Repr

/-- How `uuid` writes and reads ids, and how `chrono` reads times. -/
structure TextCodecs (Uuid : Type) where
  uuidText : Uuid → Text
  parseUuid : Text → Option Uuid
  parseRfc3339 : Text → Option Timestamp
  parseUuid_uuidText : ∀ id, parseUuid (uuidText id) = some id
  parseRfc3339_toRfc3339 : ∀ t, parseRfc3339 t.toRfc3339 = some t

/-- `Display` of a kind. -/
def kindText : DetectionKind → Text
  | .object => "object".toList
  | .face => "face".toList
  | .text => "text".toList

/-- `parse_detection_kind`. -/
def parseDetectionKind (s : Text) : Except StorageError DetectionKind :=
  if s = "object".toList then .ok .object
  else if s = "face".toList then .ok .face
  else if s = "text".toList then .ok .text
  else .error (.unknownKind s)

/-- A row of the table `events`. -/
structure Row (Real : Type) where
  id : Text
  timestamp : Text
  frameNumber : Int64
  trackId : Option Int64
  detectionKind : Text
  label : Option Text
  confidence : Real
  bbox : BBox Real
  ocrText : Option Text
  faceIdentity : Option Text
  faceSimilarity : Option Real
  cropPath : Option Text
  deriving DecidableEq

/-- The table, whose primary key is the id. -/
structure EventTable (Real : Type) where
  rows : List (Row Real) := []
  distinct : (rows.map Row.id).Nodup := by simp

section Store

variable {Uuid Real : Type} (codecs : TextCodecs Uuid)

/-- The values bound by an `INSERT`. -/
def rowOf (event : Event Uuid Real) : Row Real where
  id := codecs.uuidText event.id
  timestamp := event.timestamp.toRfc3339
  frameNumber := event.frameNumber.toInt64
  trackId := event.trackId.map UInt64.toInt64
  detectionKind := kindText event.detectionKind
  label := event.label
  confidence := event.confidence
  bbox := event.bbox
  ocrText := event.ocrText
  faceIdentity := event.faceIdentity
  faceSimilarity := event.faceSimilarity
  cropPath := event.cropPath

/-- The event that is read from a row. -/
def readRow (row : Row Real) : Except StorageError (Event Uuid Real) := do
  let id ← match codecs.parseUuid row.id with
    | some id => .ok id
    | none => .error .invalidUuid
  let timestamp ← match codecs.parseRfc3339 row.timestamp with
    | some timestamp => .ok timestamp
    | none => .error .invalidTimestamp
  let detectionKind ← parseDetectionKind row.detectionKind
  .ok {
    id
    timestamp
    frameNumber := row.frameNumber.toUInt64
    trackId := row.trackId.map Int64.toUInt64
    detectionKind
    label := row.label
    confidence := row.confidence
    bbox := row.bbox
    ocrText := row.ocrText
    faceIdentity := row.faceIdentity
    faceSimilarity := row.faceSimilarity
    cropPath := row.cropPath }

/-- `INSERT INTO events`. -/
def EventTable.insert (table : EventTable Real) (row : Row Real) : Except StorageError (EventTable Real) :=
  if fresh : row.id ∉ table.rows.map Row.id then
    .ok ⟨table.rows ++ [row], by
      rw [List.map_append, List.map_singleton]
      exact List.nodup_append.mpr ⟨table.distinct, List.nodup_singleton _, by simpa [List.mem_map] using fresh⟩⟩
  else .error .database

/-- `store_events`: the table after the commit. A transaction that is dropped changes nothing. -/
def storeEvents (table : EventTable Real) (events : List (Event Uuid Real)) : Except StorageError (EventTable Real) :=
  if events.isEmpty then .ok table else events.foldlM (fun table event => table.insert (rowOf codecs event)) table

/-- The table after a history of batches. -/
def tableAfter (batches : List (List (Event Uuid Real))) : EventTable Real :=
  batches.foldl (fun table events => match storeEvents codecs table events with
    | .ok stored => stored
    | .error _ => table) {}

end Store

section Query

variable {Uuid Real : Type}

/-- The columns that are compared. -/
inductive Column where
  | detectionKind
  | label
  | trackId
  | timestamp
  deriving DecidableEq, Repr

def Column.name : Column → String
  | .detectionKind => "detection_kind"
  | .label => "label"
  | .trackId => "track_id"
  | .timestamp => "timestamp"

def Row.cell (row : Row Real) : Column → SqlValue Text
  | .detectionKind => .text row.detectionKind
  | .label => (row.label.map .text).getD .null
  | .trackId => (row.trackId.map .integer).getD .null
  | .timestamp => .text row.timestamp

/-- The statement of `query_events`, with the values bound to it. -/
def buildQuery (filter : EventFilter) : Select Column Text :=
  let q : Select Column Text := {}
  let q := q.filterBy .detectionKind .eq (filter.kind.map fun kind => .text (kindText kind))
  let q := q.filterBy .label .eq (filter.label.map .text)
  let q := q.filterBy .trackId .eq (filter.trackId.map fun trackId => .integer trackId.toInt64)
  let q := q.filterBy .timestamp .gt (filter.after.map fun after => .text after.toRfc3339)
  let q := q.filterBy .timestamp .lt (filter.before.map fun before => .text before.toRfc3339)
  q.limitTo (filter.limit.map fun limit => .integer limit.toUInt64.toInt64)

/-- The operator in the text of a statement. -/
def operator : Comparison → String
  | .eq => " = ?"
  | .gt => " > ?"
  | .lt => " < ?"

/-- The text of a statement. -/
def sql (q : Select Column Text) : String :=
  "SELECT * FROM events WHERE 1=1" ++
    String.join (q.conditions.map fun c => " AND " ++ c.column.name ++ operator c.comparison ++ toString c.parameter) ++
    " ORDER BY timestamp DESC" ++ (q.limit.map fun number => " LIMIT ?" ++ toString number).getD ""

example : sql (buildQuery { kind := some .face, trackId := some 7, limit := some 3 }) =
    "SELECT * FROM events WHERE 1=1 AND detection_kind = ?1 AND track_id = ?2 ORDER BY timestamp DESC LIMIT ?3" := by
  decide

/-- `ORDER BY timestamp DESC`. -/
abbrev NewestFirst (Real : Type) := Descending fun row : Row Real => row.timestamp

/-- `query_events`. -/
def queryEvents (codecs : TextCodecs Uuid) (order : NewestFirst Real) (table : EventTable Real) (filter : EventFilter) :
    Except StorageError (List (Event Uuid Real)) :=
  match (buildQuery filter).fetchAll Row.cell order table.rows with
  | none => .error .database
  | some rows => rows.mapM (readRow codecs)

end Query

end RndRust.Perception.Storage
