import RndRust.Lib.Paths
import RndRust.Lib.Runs
import RndRust.Lib.Table

/-! The file receiver of `core/server.rs`. Each handler is cut into the sections it
runs under the `AppState` lock; a body is streamed between two of them. -/
namespace RndRust.LocalSend
open Lib

abbrev FileId := Text
abbrev Token := Text

inductive StatusCode where
  | badRequest | forbidden | conflict | internalServerError
  deriving DecidableEq, Repr

/-- What a handler returns instead of its result. -/
structure HttpError where
  code : StatusCode
  body : Text
  deriving DecidableEq, Repr

structure FileInfo where
  id : FileId
  /-- In bytes. -/
  size : ℕ
  fileName : Text
  deriving DecidableEq, Repr

inductive ReceiveStatus where
  | waiting | receiving | finished | finishedWithErrors
  deriving DecidableEq, Repr

def ReceiveStatus.ended (status : ReceiveStatus) : Bool :=
  status = .finished || status = .finishedWithErrors

structure SendRequest where
  files : Table FileId FileInfo

structure SendInfo where
  fileId : FileId
  token : Token
  deriving DecidableEq, Repr

inductive ServerMessage where
  | sendRequest (request : SendRequest)
  | sendFileRequest (fileId : FileId) (size : ℕ)
  | cancelSession

/-- An accepted request. Each of its files has a status, and nothing else has. -/
structure ReceiveSession where
  files : Table FileId FileInfo
  fileStatus : Table FileId ReceiveStatus
  destinationDirectory : Text
  status : ReceiveStatus
  tracked : ∀ id, (fileStatus.lookup id).isSome = (files.lookup id).isSome

namespace ReceiveSession

/-- `ReceiveSession::new`. -/
def new (destinationDirectory : Text) : ReceiveSession where
  files := ∅
  fileStatus := ∅
  destinationDirectory := destinationDirectory
  status := .waiting
  tracked _ := rfl

/-- Accept one file. -/
def insertFile (session : ReceiveSession) (id : FileId) (info : FileInfo) : ReceiveSession :=
  { session with
    files := session.files.insert id info
    fileStatus := session.fileStatus.insert id .waiting
    tracked := fun other => by
      rw [Table.lookup_insert_eq, Table.lookup_insert_eq]
      split
      · rfl
      · exact session.tracked other }

/-- `file_status.entry(id).and_modify(..)`. -/
def setStatus (session : ReceiveSession) (id : FileId) (status : ReceiveStatus) : ReceiveSession :=
  { session with
    fileStatus := session.fileStatus.mapValues fun other old => if other = id then status else old
    tracked := fun other => by
      rw [Table.lookup_mapValues, Option.isSome_map]
      exact session.tracked other }

/-- `all_finished`. -/
def allFinished (session : ReceiveSession) : Bool :=
  session.files.keys.all fun id => (session.fileStatus.lookup id).any ReceiveStatus.ended

end ReceiveSession

structure AppState where
  /-- What was sent to the user interface. -/
  serverTx : List ServerMessage := []
  receiveSession : Option ReceiveSession := none

def AppState.tell (s : AppState) (message : ServerMessage) : AppState :=
  { s with serverTx := s.serverTx ++ [message] }

/-- `handle_cancel_request`. -/
def handleCancelRequest (s : AppState) : AppState × Except HttpError Unit :=
  match s.receiveSession with
  | none => (s, .error ⟨.badRequest, "Cannot cancel a non existant session".toList⟩)
  | some _ => ({ s.tell .cancelSession with receiveSession := none }, .ok ())

/-- What `handle_send_request` returns; it panics at an id that was not offered. -/
inductive SendResponse where
  | ok (wantedFiles : Table FileId Token)
  | error (e : HttpError)
  | panicked

/-- The loop over the accepted ids, each with the UUID drawn for it. -/
def acceptFiles (request : SendRequest) : List (FileId × Token) → ReceiveSession →
    Table FileId Token → ReceiveSession × SendResponse
  | [], session, wanted => (session, .ok wanted)
  | (id, token) :: rest, session, wanted =>
    match request.files.lookup id with
    | none => (session, .panicked)
    | some info => acceptFiles request rest (session.insertFile id info) (wanted.insert id token)

def blocked : HttpError := ⟨.conflict, "Blocked by another sesssion".toList⟩

/-- `handle_send_request`, with the user's answer: nothing when it is declined, else
the ids that are allowed. -/
def handleSendRequest (s : AppState) (request : SendRequest)
    (answer : Option (List (FileId × Token))) : AppState × SendResponse :=
  match s.receiveSession with
  | some _ => (s, .error blocked)
  | none =>
    let s := s.tell (.sendRequest request)
    match answer with
    | none => (s, .error ⟨.forbidden, "User declined the request".toList⟩)
    | some ids =>
      let (session, response) := acceptFiles request ids (.new "./".toList) ∅
      ({ s with receiveSession := some session }, response)

/-- `handle_send_file_request` up to `stream_to_file`: the path that is opened. -/
def beginSend (s : AppState) (params : SendInfo) : AppState × Except HttpError Text :=
  match s.receiveSession with
  | none => (s, .error ⟨.internalServerError, "Call to /send without requesting a send".toList⟩)
  | some session =>
    let s := s.tell (.sendFileRequest params.fileId 0)
    match session.files.lookup params.fileId with
    | none =>
      (s, .error ⟨.internalServerError,
        "Call to /send with unknown file id ".toList ++ params.fileId⟩)
    | some info =>
      ({ s with receiveSession := some { session with status := .receiving } },
        .ok (Path.join session.destinationDirectory info.fileName))

/-- `handle_send_file_request` after `stream_to_file`, which returned `Ok` or not. -/
def endSend (s : AppState) (fileId : FileId) (ok : Bool) : AppState × Except HttpError Unit :=
  match s.receiveSession with
  | none =>
    (s, .error ⟨.internalServerError,
      "Session might have been cancelled while receiving file".toList⟩)
  | some session =>
    let session := session.setStatus fileId (if ok then .finished else .finishedWithErrors)
    ({ s with receiveSession := if session.allFinished then none else some session }, .ok ())

/-- What the accepted sessions are for: which files the last one is to receive, which
tokens the sender got for them, and which uploads begun in it have ended. -/
structure Ledger where
  /-- How many sessions have been accepted. -/
  number : ℕ := 0
  accepted : List FileId := []
  issued : Table FileId Token := ∅
  ended : List FileId := []

/-- An upload whose body is being streamed. -/
structure Upload where
  /-- The number of the session it was begun in. -/
  session : ℕ
  fileId : FileId
  path : Text
  deriving DecidableEq, Repr

namespace Ledger

/-- Some file of a session that was accepted and not cancelled is still to come. -/
def Pending (ledger : Ledger) : Prop := ∃ id ∈ ledger.accepted, id ∉ ledger.ended

/-- A session is accepted. -/
def opened (ledger : Ledger) (ids : List FileId) (issued : Table FileId Token) : Ledger where
  number := ledger.number + 1
  accepted := ids
  issued := issued

/-- It is cancelled. -/
def cancelled (ledger : Ledger) : Ledger := { ledger with accepted := [], issued := ∅ }

/-- An upload ends, whatever became of it. -/
def uploaded (ledger : Ledger) (upload : Upload) : Ledger :=
  if upload.session = ledger.number then { ledger with ended := upload.fileId :: ledger.ended }
  else ledger

end Ledger

def SendResponse.issued : SendResponse → Table FileId Token
  | .ok wanted => wanted
  | .error _ | .panicked => ∅

/-- The receiver with the bodies in flight. -/
structure Receiver where
  app : AppState := {}
  uploads : Table ℕ Upload := ∅
  nextUpload : ℕ := 0
  ledger : Ledger := {}

inductive Action where
  | sendRequest (request : SendRequest) (answer : Option (List (FileId × Token)))
  | send (params : SendInfo)
  /-- The body of an upload has been streamed. -/
  | sent (upload : ℕ) (ok : Bool)
  | cancel

namespace Receiver

def step (r : Receiver) : Action → Option Receiver
  | .sendRequest request answer =>
    let (app, response) := handleSendRequest r.app request answer
    some { r with
      app := app
      ledger := match r.app.receiveSession, answer with
        | none, some ids => r.ledger.opened (ids.map Prod.fst) response.issued
        | _, _ => r.ledger }
  | .send params =>
    match beginSend r.app params with
    | (app, .error _) => some { r with app := app }
    | (app, .ok path) =>
      some { r with
        app := app
        uploads := r.uploads.insert r.nextUpload ⟨r.ledger.number, params.fileId, path⟩
        nextUpload := r.nextUpload + 1 }
  | .sent k ok =>
    match r.uploads.lookup k with
    | none => none
    | some upload =>
      some { r with
        app := (endSend r.app upload.fileId ok).1
        uploads := r.uploads.erase k
        ledger := r.ledger.uploaded upload }
  | .cancel =>
    match handleCancelRequest r.app with
    | (_, .error _) => some r
    | (app, .ok _) => some { r with app := app, ledger := r.ledger.cancelled }

end Receiver

/-- The receiver, before the first request. -/
def receiver : Machine Receiver Action where
  initial := {}
  step := Receiver.step

end RndRust.LocalSend
