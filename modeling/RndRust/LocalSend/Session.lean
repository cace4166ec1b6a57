import RndRust.LocalSend.Server

/-! When the receiver counts a session as open. The sections of an upload are apart,
so that a session can be cancelled and replaced while its bodies are in flight. -/
namespace RndRust.LocalSend
open Lib

section Sessions

variable {session : ReceiveSession} {request : SendRequest} {ids : List (FileId × Token)}
  {wanted : Table FileId Token} {id : FileId} {status : ReceiveStatus}

theorem setStatus_lookup : (session.setStatus id status).fileStatus.lookup other =
    (session.fileStatus.lookup other).map fun old => if other = id then status else old :=
  Table.lookup_mapValues _ _

/-- All files are finished when no status says otherwise. -/
theorem allFinished_iff : session.allFinished ↔
    ∀ id status, session.fileStatus.lookup id = some status → status.ended := by
  simp only [ReceiveSession.allFinished, List.all_eq_true]
  constructor
  · intro all id status found
    have listed : id ∈ session.files.keys := by
      rw [← AList.mem_keys, ← AList.lookup_isSome, ← session.tracked, found]
      rfl
    simpa [found] using all id listed
  · intro all id listed
    rw [← AList.mem_keys, ← AList.lookup_isSome, ← session.tracked] at listed
    obtain ⟨status, found⟩ := Option.isSome_iff_exists.mp listed
    simpa [found] using all id status found

/-- The files of a session after the loop are those it had and those of the ids. -/
theorem acceptFiles_files :
    ((acceptFiles request ids session wanted).1.files.lookup id).isSome →
      (session.files.lookup id).isSome ∨ id ∈ ids.map Prod.fst := by
  induction ids generalizing session wanted with
  | nil => exact .inl
  | cons entry ids ih =>
    obtain ⟨first, token⟩ := entry
    simp only [acceptFiles]
    cases offered : request.files.lookup first with
    | none => exact .inl
    | some info =>
      intro found
      rcases ih found with before | later
      · rw [ReceiveSession.insertFile, Table.lookup_insert_eq] at before
        split at before
        · rename_i same
          exact .inr (by simp [same])
        · exact .inl before
      · exact .inr (List.mem_cons_of_mem _ later)

@[simp] theorem acceptFiles_destination :
    (acceptFiles request ids session wanted).1.destinationDirectory = session.destinationDirectory := by
  induction ids generalizing session wanted with
  | nil => rfl
  | cons entry ids ih =>
    obtain ⟨first, token⟩ := entry
    simp only [acceptFiles]
    cases request.files.lookup first with
    | none => rfl
    | some info => exact ih

/-- The request offers all ids of the answer. -/
def Offers (request : SendRequest) (ids : List (FileId × Token)) : Prop :=
  ∀ entry ∈ ids, (request.files.lookup entry.1).isSome

instance : Decidable (Offers request ids) :=
  inferInstanceAs (Decidable (∀ entry ∈ ids, (request.files.lookup entry.1).isSome))

/-- When they are all offered, the loop accepts each of them and waits for it. -/
theorem acceptFiles_offered (session : ReceiveSession) (wanted : AList fun _ : FileId => Token)
    (id : FileId) (offers : Offers request ids) :
    (((acceptFiles request ids session wanted).1.files.lookup id).isSome ↔
      (session.files.lookup id).isSome ∨ id ∈ ids.map Prod.fst) ∧
    (acceptFiles request ids session wanted).1.fileStatus.lookup id =
      if id ∈ ids.map Prod.fst then some .waiting else session.fileStatus.lookup id := by
  induction ids generalizing session wanted with
  | nil => simp [acceptFiles]
  | cons entry ids ih =>
    obtain ⟨first, token⟩ := entry
    obtain ⟨info, offered⟩ := Option.isSome_iff_exists.mp (offers (first, token) (by simp))
    have rest : Offers request ids := fun entry member => offers entry (List.mem_cons_of_mem _ member)
    obtain ⟨files, statuses⟩ := @ih (session.insertFile first info) (wanted.insert first token) rest
    simp only [acceptFiles, offered]
    rw [files, statuses]
    simp only [ReceiveSession.insertFile, Table.lookup_insert_eq, List.map_cons, List.mem_cons]
    by_cases same : id = first
    · simp [same]
    · by_cases later : id ∈ ids.map Prod.fst
      · simp [later]
      · have neither : ¬ (id = first ∨ id ∈ ids.map Prod.fst) := not_or.mpr ⟨same, later⟩
        rw [if_neg same, if_neg same, if_neg later, if_neg neither]
        simp [same, later]

end Sessions

/-- Between handlers, the session is what the ledger says. -/
structure Agrees (r : Receiver) : Prop where
  closed : r.app.receiveSession = none → ¬ r.ledger.Pending
  files : ∀ session, r.app.receiveSession = some session → ∀ id,
    (session.files.lookup id).isSome ↔ id ∈ r.ledger.accepted
  statuses : ∀ session, r.app.receiveSession = some session → ∀ id status,
    session.fileStatus.lookup id = some status → (status.ended ↔ id ∈ r.ledger.ended)
  unfinished : ∀ session, r.app.receiveSession = some session → ¬ session.allFinished

/-- The user allows offered files only. -/
def Action.offered : Action → Bool
  | .sendRequest request (some ids) => Offers request ids
  | _ => true

/-- A request is not allowed for no file at all, and an upload does not end while a
session is open that accepted its file id and is not the one it was begun in. -/
def orderly (r : Receiver) : Action → Bool
  | .sendRequest _ (some ids) => r.app.receiveSession.isSome || !ids.isEmpty
  | .sent k _ =>
    match r.uploads.lookup k, r.app.receiveSession with
    | some upload, some session =>
      upload.session = r.ledger.number || !(session.files.lookup upload.fileId).isSome
    | _, _ => true
  | _ => true

/-- A session is open, and further requests are refused as blocked, exactly while an
accepted file of it is still to come. -/
structure Tracks (r : Receiver) : Prop where
  session : r.app.receiveSession.isSome ↔ r.ledger.Pending
  blocked : ∀ request answer,
    (handleSendRequest r.app request answer).2 = .error blocked ↔ r.ledger.Pending

/-- The step sets a file's status to finished only for an upload that was begun in the
session the file is accepted in. -/
def FinishesOwn (r : Receiver) (a : Action) : Prop :=
  ∀ k ok upload session, a = .sent k ok → r.uploads.lookup k = some upload →
    r.app.receiveSession = some session → (session.fileStatus.lookup upload.fileId).isSome →
    upload.session = r.ledger.number

section Invariant

variable {r r' : Receiver} {a : Action}

theorem Agrees.session_iff (agrees : Agrees r) : r.app.receiveSession.isSome ↔ r.ledger.Pending := by
  cases held : r.app.receiveSession with
  | none => simpa using agrees.closed held
  | some session =>
    simp only [Option.isSome_some, true_iff]
    have unfinished := agrees.unfinished session held
    rw [allFinished_iff] at unfinished
    push Not at unfinished
    obtain ⟨id, status, found, open'⟩ := unfinished
    refine ⟨id, ?_, fun ended => open' ((agrees.statuses session held id status found).mpr ended)⟩
    rw [← agrees.files session held, ← session.tracked, found]
    rfl

/-- The answer to a request says whether it is blocked. -/
theorem handleSendRequest_blocked {s : AppState} {request : SendRequest}
    {answer : Option (List (FileId × Token))} :
    (handleSendRequest s request answer).2 = .error blocked ↔ s.receiveSession.isSome := by
  cases held : s.receiveSession with
  | some session => simp [handleSendRequest, held]
  | none =>
    simp only [handleSendRequest, held, Option.isSome_none, Bool.false_eq_true, iff_false]
    cases answer with
    | none => simp [blocked]
    | some ids =>
      have accepted : ∀ ids session wanted,
          (acceptFiles request ids session wanted).2 ≠ .error blocked := by
        intro ids
        induction ids with
        | nil => intro _ _ same; cases same
        | cons entry ids ih =>
          obtain ⟨first, token⟩ := entry
          intro session wanted
          simp only [acceptFiles]
          split
          · nofun
          · exact ih _ _
      exact accepted ids _ _

theorem Agrees.tracks (agrees : Agrees r) : Tracks r where
  session := agrees.session_iff
  blocked _ _ := handleSendRequest_blocked.trans agrees.session_iff

theorem Agrees.request (agrees : Agrees r) {request : SendRequest}
    {answer : Option (List (FileId × Token))} (offered : (Action.sendRequest request answer).offered)
    (orderly : orderly r (.sendRequest request answer))
    (taken : r.step (.sendRequest request answer) = some r') : Agrees r' := by
  cases held : r.app.receiveSession with
  | some session =>
    have same : r' = r := by
      simp only [Receiver.step, handleSendRequest, held, Option.some.injEq] at taken
      exact taken.symm
    exact same ▸ agrees
  | none =>
    cases answer with
    | none =>
      simp only [Receiver.step, handleSendRequest, held, Option.some.injEq] at taken
      subst taken
      have closed := agrees.closed held
      exact ⟨fun _ => closed, by simp [AppState.tell, held], by simp [AppState.tell, held],
        by simp [AppState.tell, held]⟩
    | some ids =>
      have offers : Offers request ids := by simpa [Action.offered] using offered
      have nonempty : ids ≠ [] := by simpa [LocalSend.orderly, held] using orderly
      simp only [Receiver.step, handleSendRequest, held, Option.some.injEq] at taken
      subst taken
      have accepts := fun id => acceptFiles_offered (.new "./".toList) ∅ id offers
      obtain ⟨files, statuses⟩ := forall_and.mp accepts
      refine ⟨by simp, ?_, ?_, ?_⟩ <;> rintro session ⟨⟩
      · intro id
        rw [files]
        simp [ReceiveSession.new, Ledger.opened]
      · intro id status found
        rw [statuses] at found
        split at found
        · cases found
          simp [ReceiveStatus.ended, Ledger.opened]
        · simp [ReceiveSession.new] at found
      · rw [allFinished_iff]
        intro all
        obtain ⟨entry, rest, rfl⟩ := List.exists_cons_of_ne_nil nonempty
        have waiting := all entry.1 .waiting (by rw [statuses]; simp)
        simp [ReceiveStatus.ended] at waiting

theorem Ledger.uploaded_accepted {ledger : Ledger} {upload : Upload} :
    (ledger.uploaded upload).accepted = ledger.accepted := by
  unfold Ledger.uploaded
  split <;> rfl

/-- The end of an upload takes nothing back. -/
theorem Ledger.uploaded_pending {ledger : Ledger} {upload : Upload}
    (pending : (ledger.uploaded upload).Pending) : ledger.Pending := by
  obtain ⟨id, accepted, missing⟩ := pending
  rw [Ledger.uploaded_accepted] at accepted
  refine ⟨id, accepted, fun ended => missing ?_⟩
  unfold Ledger.uploaded
  split
  · exact List.mem_cons_of_mem _ ended
  · exact ended

theorem Agrees.sent (agrees : Agrees r) {k : ℕ} {ok : Bool} (orderly : orderly r (.sent k ok))
    (taken : r.step (.sent k ok) = some r') : Agrees r' := by
  simp only [Receiver.step] at taken
  cases running : r.uploads.lookup k with
  | none => simp [running] at taken
  | some upload =>
    simp only [running, Option.some.injEq] at taken
    subst taken
    cases held : r.app.receiveSession with
    | none =>
      have closed := agrees.closed held
      refine ⟨fun _ pending => closed (Ledger.uploaded_pending pending), ?_, ?_, ?_⟩ <;>
        simp [endSend, held]
    | some session =>
      have files := agrees.files session held
      set after := session.setStatus upload.fileId (if ok then .finished else .finishedWithErrors)
        with set'
      -- The status that is set is the one the ledger records.
      have statuses : ∀ id status, after.fileStatus.lookup id = some status →
          (status.ended ↔ id ∈ (r.ledger.uploaded upload).ended) := by
        intro id status found
        rw [set', setStatus_lookup] at found
        obtain ⟨old, before, rfl⟩ := Option.map_eq_some_iff.mp found
        have known := agrees.statuses session held id old before
        have accepted : (session.files.lookup id).isSome := by
          rw [← session.tracked, before]
          rfl
        by_cases same : id = upload.fileId
        · subst same
          have own : upload.session = r.ledger.number := by
            simpa [LocalSend.orderly, running, held, accepted] using orderly
          cases ok <;> simp [ReceiveStatus.ended, Ledger.uploaded, own]
        · rw [if_neg same, known]
          unfold Ledger.uploaded
          split
          · simp [same]
          · rfl
      have stays : ∀ id, (after.files.lookup id).isSome ↔ id ∈ (r.ledger.uploaded upload).accepted := by
        intro id
        rw [Ledger.uploaded_accepted]
        exact files id
      by_cases finished : after.allFinished
      · have closes : (endSend r.app upload.fileId ok).1.receiveSession = none := by
          simp [endSend, held, ← set', finished]
        refine ⟨fun _ pending => ?_, ?_, ?_, ?_⟩
        · obtain ⟨id, accepted, missing⟩ := pending
          have listed := (stays id).mpr accepted
          rw [← after.tracked] at listed
          obtain ⟨status, found⟩ := Option.isSome_iff_exists.mp listed
          exact missing ((statuses id status found).mp (allFinished_iff.mp finished id status found))
        · simp [closes]
        · simp [closes]
        · simp [closes]
      · have goes : (endSend r.app upload.fileId ok).1.receiveSession = some after := by
          simp [endSend, held, ← set', finished]
        refine ⟨fun none => ?_, ?_, ?_, ?_⟩
        · rw [goes] at none
          cases none
        all_goals
          intro session' held'
          rw [goes, Option.some.injEq] at held'
          subst held'
        · exact stays
        · exact statuses
        · exact finished

theorem Agrees.send (agrees : Agrees r) {params : SendInfo} (taken : r.step (.send params) = some r') :
    Agrees r' := by
  simp only [Receiver.step, beginSend] at taken
  cases held : r.app.receiveSession with
  | none =>
    simp only [held, Option.some.injEq] at taken
    exact taken ▸ agrees
  | some session =>
    have keeps : ∀ session' : ReceiveSession, session'.files = session.files →
        session'.fileStatus = session.fileStatus → ∀ tx uploads next,
        Agrees ⟨⟨tx, some session'⟩, uploads, next, r.ledger⟩ := by
      intro session' files statuses tx uploads next
      refine ⟨nofun, ?_, ?_, ?_⟩ <;> rintro _ ⟨⟩
      · rw [files]
        exact agrees.files session held
      · rw [statuses]
        exact agrees.statuses session held
      · have open' := agrees.unfinished session held
        rwa [ReceiveSession.allFinished, files, statuses]
    simp only [held, AppState.tell] at taken
    split at taken
    · rename_i app e shape
      split at shape <;> cases shape
      cases taken
      exact keeps session rfl rfl _ _ _
    · rename_i app path shape
      split at shape <;> cases shape
      cases taken
      exact keeps { session with status := .receiving } rfl rfl _ _ _

theorem Agrees.cancel (agrees : Agrees r) (taken : r.step .cancel = some r') : Agrees r' := by
  cases held : r.app.receiveSession with
  | none =>
    simp only [Receiver.step, handleCancelRequest, held, Option.some.injEq] at taken
    exact taken ▸ agrees
  | some session =>
    simp only [Receiver.step, handleCancelRequest, held, Option.some.injEq] at taken
    subst taken
    refine ⟨fun _ => ?_, by simp, by simp, by simp⟩
    simp [Ledger.Pending, Ledger.cancelled]

theorem Agrees.step (agrees : Agrees r) (offered : a.offered) (orderly : orderly r a)
    (taken : r.step a = some r') : Agrees r' := by
  cases a with
  | sendRequest request answer => exact agrees.request offered orderly taken
  | send params => exact agrees.send taken
  | sent k ok => exact agrees.sent orderly taken
  | cancel => exact agrees.cancel taken

/-- A request that is allowed for nothing opens a session that nothing ends. -/
theorem disorderly_request {request : SendRequest} {answer : Option (List (FileId × Token))}
    (disorderly : ¬ orderly r (.sendRequest request answer))
    (taken : r.step (.sendRequest request answer) = some r') : ¬ Tracks r' := by
  cases answer with
  | none => simp [orderly] at disorderly
  | some ids =>
    obtain ⟨held, rfl⟩ : r.app.receiveSession = none ∧ ids = [] := by simpa [orderly] using disorderly
    simp only [Receiver.step, handleSendRequest, held, Option.some.injEq] at taken
    subst taken
    intro tracks
    have pending := tracks.session.mp rfl
    simp [Ledger.Pending, Ledger.opened] at pending

theorem finishesOwn_iff {k : ℕ} {ok : Bool} (enabled : (r.uploads.lookup k).isSome) :
    FinishesOwn r (.sent k ok) ↔ orderly r (.sent k ok) := by
  obtain ⟨upload, running⟩ := Option.isSome_iff_exists.mp enabled
  cases held : r.app.receiveSession with
  | none => simp [FinishesOwn, orderly, running, held]
  | some session =>
    constructor
    · intro own
      by_cases accepted : (session.files.lookup upload.fileId).isSome
      · have same := own k ok upload session rfl running held (by rwa [session.tracked])
        simp [orderly, running, held, same]
      · simp [orderly, running, held, accepted]
    · rintro orderly _ _ upload' session' ⟨⟩ running' held' listed
      rw [running, Option.some.injEq] at running'
      rw [held, Option.some.injEq] at held'
      subst running' held'
      rw [session.tracked] at listed
      simpa [LocalSend.orderly, running, held, listed] using orderly

end Invariant

/-- The receiver's session is open exactly while a file is awaited, in every run in
which requests are allowed for some file and no upload ends in a session it was not
begun in; and from there on a step keeps this, and finishes only files of its own
session, if and only if it is such a step. -/
theorem session_tracks (r : Receiver)
    (reached : receiver.Reaches (fun r a => a.offered ∧ orderly r a) r) :
    Tracks r ∧ ∀ a r', a.offered → r.step a = some r' →
      (Tracks r' ∧ FinishesOwn r a ↔ orderly r a) := by
  have agrees : Agrees r := by
    refine Machine.Reaches.invariant Agrees ?_
      (fun _ _ _ agrees may taken => agrees.step may.1 may.2 taken) reached
    exact ⟨by simp [receiver, Ledger.Pending], by simp [receiver], by simp [receiver], by simp [receiver]⟩
  refine ⟨agrees.tracks, fun a r' offered taken => ⟨?_, fun orderly => ?_⟩⟩
  · rintro ⟨tracks, own⟩
    by_contra disorderly
    cases a with
    | sendRequest request answer => exact disorderly_request disorderly taken tracks
    | sent k ok =>
      have enabled : (r.uploads.lookup k).isSome := by
        cases running : r.uploads.lookup k with
        | none => simp [Receiver.step, running] at taken
        | some upload => rfl
      exact disorderly ((finishesOwn_iff enabled).mp own)
    | send | cancel => simp [orderly] at disorderly
  · refine ⟨(agrees.step offered orderly taken).tracks, ?_⟩
    cases a with
    | sent k ok =>
      rintro _ _ upload session ⟨⟩ running
      have enabled := Option.isSome_iff_exists.mpr ⟨upload, running⟩
      exact (finishesOwn_iff enabled).mpr orderly k ok upload session rfl running
    | _ => nofun

/-- A request that offers one file with each of the given ids. -/
def offer (ids : List FileId) : SendRequest :=
  ⟨(ids.map fun id => ⟨id, ⟨id, 1, id⟩⟩).toAList⟩

/-- It is allowed for all of them, with a token each. -/
def allows (ids : List FileId) : Action :=
  .sendRequest (offer ids) (some (ids.map fun id => (id, 't' :: id)))

instance (ledger : Ledger) : Decidable ledger.Pending :=
  inferInstanceAs (Decidable (∃ id ∈ ledger.accepted, id ∉ ledger.ended))

/-- A file arrives, the session is cancelled, and the next one receives all it awaits. -/
theorem session_tracks_two : ∃ r,
    (receiver.guard fun r a => a.offered ∧ orderly r a).run receiver.initial
      [allows [['a'], ['b']], .send ⟨['a'], []⟩, .sent 0 true, .cancel,
        allows [['b']], .send ⟨['b'], []⟩, .sent 1 false] = some r ∧ Tracks r := by
  have ran : ((receiver.guard fun r a => a.offered ∧ orderly r a).run receiver.initial
      [allows [['a'], ['b']], .send ⟨['a'], []⟩, .sent 0 true, .cancel,
        allows [['b']], .send ⟨['b'], []⟩, .sent 1 false]).isSome := by decide
  obtain ⟨r, ran⟩ := Option.isSome_iff_exists.mp ran
  exact ⟨r, ran, (session_tracks r (Machine.Reaches.run .initial ran)).1⟩

/-- A request allowed for no file blocks all later ones. A body that was begun before a
cancellation ends the next session, whose file of the same id never came. -/
theorem session_tracks_fails :
    (∃ r, receiver.Reaches (fun _ a => a.offered) r ∧ r.app.receiveSession.isSome ∧ ¬ r.ledger.Pending) ∧
    ∃ r, receiver.Reaches (fun _ a => a.offered) r ∧ ¬ FinishesOwn r (.sent 0 true) ∧
      ∃ r', r.step (.sent 0 true) = some r' ∧ r'.app.receiveSession.isNone ∧ r'.ledger.Pending := by
  have none : ((receiver.guard fun _ a => a.offered).run receiver.initial [allows []]).any
      fun r => r.app.receiveSession.isSome ∧ ¬ r.ledger.Pending := by decide
  have stale : ((receiver.guard fun _ a => a.offered).run receiver.initial
      [allows [['a']], .send ⟨['a'], []⟩, .cancel, allows [['a']]]).any fun r =>
        ¬ orderly r (.sent 0 true) ∧ (r.uploads.lookup 0).isSome ∧
        (r.step (.sent 0 true)).any fun r' => r'.app.receiveSession.isNone ∧ r'.ledger.Pending := by
    decide
  obtain ⟨r, ran, ends⟩ := (Option.any_eq_true _ _).mp none
  obtain ⟨s, ran', ends'⟩ := (Option.any_eq_true _ _).mp stale
  obtain ⟨disorderly, enabled, taken⟩ := of_decide_eq_true ends'
  obtain ⟨s', taken, after⟩ := (Option.any_eq_true _ _).mp taken
  exact ⟨⟨r, Machine.Reaches.run .initial ran, of_decide_eq_true ends⟩,
    ⟨s, Machine.Reaches.run .initial ran', fun own => disorderly ((finishesOwn_iff enabled).mp own),
      s', taken, of_decide_eq_true after⟩⟩

end RndRust.LocalSend
