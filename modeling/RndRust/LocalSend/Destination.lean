import RndRust.LocalSend.Session

/-! Which files the receiver writes, and where. -/
namespace RndRust.LocalSend
open Lib

/-- A call that opens a file carries the token that its sender was issued for a file
the current session accepted, and the path lies below the destination directory, in
whatever directory the receiver works. -/
def Authorised (r : Receiver) (params : SendInfo) : Prop :=
  ∀ session path, r.app.receiveSession = some session → (beginSend r.app params).2 = .ok path →
    params.fileId ∈ r.ledger.accepted ∧ r.ledger.issued.lookup params.fileId = some params.token ∧
      ∀ cwd, Path.Inside cwd session.destinationDirectory path

/-- The name and the token of a call for a file that is known. -/
def permitted (r : Receiver) (params : SendInfo) : Bool :=
  match r.app.receiveSession with
  | none => true
  | some session =>
    match session.files.lookup params.fileId with
    | none => true
    | some info =>
      r.ledger.issued.lookup params.fileId = some params.token && Path.descends info.fileName

/-- What holds of the session in every run at all. -/
structure Granted (r : Receiver) : Prop where
  accepted : ∀ session, r.app.receiveSession = some session → ∀ id,
    (session.files.lookup id).isSome → id ∈ r.ledger.accepted
  destination : ∀ session, r.app.receiveSession = some session →
    session.destinationDirectory = "./".toList

section Runs

variable {r r' : Receiver} {a : Action}

theorem Granted.keep (granted : Granted r) (ledger : r'.ledger.accepted = r.ledger.accepted)
    (session : ∀ session', r'.app.receiveSession = some session' → ∃ session,
      r.app.receiveSession = some session ∧ session'.files = session.files ∧
      session'.destinationDirectory = session.destinationDirectory) : Granted r' := by
  constructor
  · intro session' held id found
    obtain ⟨before, held, files, -⟩ := session session' held
    rw [ledger]
    exact granted.accepted before held id (files ▸ found)
  · intro session' held
    obtain ⟨before, held, -, directory⟩ := session session' held
    exact directory.trans (granted.destination before held)

theorem Granted.step (granted : Granted r) (taken : r.step a = some r') : Granted r' := by
  cases a with
  | sendRequest request answer =>
    cases held : r.app.receiveSession with
    | some session =>
      simp only [Receiver.step, handleSendRequest, held, Option.some.injEq] at taken
      exact taken ▸ granted.keep rfl fun session' held' => ⟨session', held', rfl, rfl⟩
    | none =>
      cases answer with
      | none =>
        simp only [Receiver.step, handleSendRequest, held, Option.some.injEq] at taken
        subst taken
        exact ⟨by simp [AppState.tell, held], by simp [AppState.tell, held]⟩
      | some ids =>
        simp only [Receiver.step, handleSendRequest, held, Option.some.injEq] at taken
        subst taken
        constructor <;> rintro session ⟨⟩
        · intro id found
          rcases acceptFiles_files found with before | listed
          · simp [ReceiveSession.new] at before
          · exact listed
        · rw [acceptFiles_destination]
          rfl
  | send params =>
    simp only [Receiver.step, beginSend] at taken
    cases held : r.app.receiveSession with
    | none =>
      simp only [held, Option.some.injEq] at taken
      exact taken ▸ granted
    | some session =>
      simp only [held] at taken
      cases known : session.files.lookup params.fileId with
      | none =>
        simp only [known, Option.some.injEq] at taken
        subst taken
        exact granted.keep rfl fun session' held' => ⟨session', held', rfl, rfl⟩
      | some info =>
        simp only [known, Option.some.injEq] at taken
        subst taken
        refine granted.keep rfl ?_
        rintro session' ⟨⟩
        exact ⟨session, held, rfl, rfl⟩
  | sent k ok =>
    simp only [Receiver.step] at taken
    cases running : r.uploads.lookup k with
    | none => simp [running] at taken
    | some upload =>
      simp only [running, Option.some.injEq] at taken
      subst taken
      refine granted.keep Ledger.uploaded_accepted fun session' held' => ?_
      cases held : r.app.receiveSession with
      | none => simp [endSend, held] at held'
      | some session =>
        simp only [endSend, held] at held'
        generalize (if ok then ReceiveStatus.finished else .finishedWithErrors) = status at held'
        by_cases finished : (session.setStatus upload.fileId status).allFinished
        · simp [finished] at held'
        · simp only [finished, Bool.false_eq_true, if_false, Option.some.injEq] at held'
          subst held'
          exact ⟨session, rfl, rfl, rfl⟩
  | cancel =>
    simp only [Receiver.step, handleCancelRequest] at taken
    cases held : r.app.receiveSession with
    | none =>
      simp only [held, Option.some.injEq] at taken
      exact taken ▸ granted
    | some session =>
      simp only [held, Option.some.injEq] at taken
      subst taken
      exact ⟨by simp, by simp⟩

theorem reachable_granted (reached : receiver.Reachable r) : Granted r := by
  refine Machine.Reaches.invariant Granted ?_ (fun _ _ _ granted _ => granted.step) reached
  exact ⟨by simp [receiver], by simp [receiver]⟩

/-- The directory `./` is the one the receiver works in. -/
theorem resolve_here (cwd : List Text) : Path.resolve cwd "./".toList = cwd := by
  have parts : Path.components "./".toList = [] := by decide
  have relative : Path.isAbsolute "./".toList = false := by decide
  rw [Path.resolve, parts, relative]
  rfl

end Runs

/-- In every reachable state a call opens a file as it should, or none, if and only if
it is for no known file, or carries the issued token and names a file by a relative
path that stays below the directory it is joined to. -/
theorem writes_authorised {r : Receiver} (reached : receiver.Reachable r) (params : SendInfo) :
    Authorised r params ↔ permitted r params := by
  have granted := reachable_granted reached
  cases held : r.app.receiveSession with
  | none => simp [Authorised, permitted, held]
  | some session =>
    cases known : session.files.lookup params.fileId with
    | none => simp [Authorised, permitted, held, beginSend, known]
    | some info =>
      have opened : (beginSend r.app params).2 =
          .ok (Path.join session.destinationDirectory info.fileName) := by
        simp [beginSend, held, known]
      have accepted : params.fileId ∈ r.ledger.accepted :=
        granted.accepted session held params.fileId (by simp [known])
      have inside : (∀ cwd, Path.Inside cwd session.destinationDirectory
          (Path.join session.destinationDirectory info.fileName)) ↔ Path.descends info.fileName := by
        rw [granted.destination session held]
        exact Path.inside_join_iff resolve_here (by decide)
      have shape : permitted r params ↔
          r.ledger.issued.lookup params.fileId = some params.token ∧ Path.descends info.fileName := by
        simp [permitted, held, known]
      rw [shape, ← inside]
      constructor
      · intro authorised
        exact (authorised session _ held opened).2
      · rintro ⟨token, below⟩ session' path held' opened'
        rw [held, Option.some.injEq] at held'
        rw [opened, Except.ok.injEq] at opened'
        subst held' opened'
        exact ⟨accepted, token, below⟩

/-- A request for one file of a given name, allowed with a token. -/
def allowsNamed (name : Text) : Action :=
  .sendRequest ⟨[⟨['a'], ⟨['a'], 1, name⟩⟩].toAList⟩ (some [(['a'], ['t'])])

/-- The right token, and a name in a subdirectory. -/
theorem writes_authorised_below : ∃ r, receiver.run receiver.initial
      [allowsNamed "x/../y/z".toList] = some r ∧ Authorised r ⟨['a'], ['t']⟩ := by
  have ran : (receiver.run receiver.initial [allowsNamed "x/../y/z".toList]).any fun r =>
      permitted r ⟨['a'], ['t']⟩ := by decide
  obtain ⟨r, ran, permitted⟩ := (Option.any_eq_true _ _).mp ran
  exact ⟨r, ran, (writes_authorised (Machine.Reachable.run .initial ran) _).mpr permitted⟩

instance (cwd : List Text) (dir path : Text) : Decidable (Path.Inside cwd dir path) :=
  inferInstanceAs (Decidable (Path.resolve cwd dir <+: Path.resolve cwd path ∧
    Path.resolve cwd dir ≠ Path.resolve cwd path))

/-- What a call with a token opens after a request for one file of a given name. -/
def opensPath (name : Text) (token : Token) : Option Text :=
  (receiver.run receiver.initial [allowsNamed name]).bind fun r =>
    (beginSend r.app ⟨['a'], token⟩).2.toOption

/-- A token that was never issued opens the file; an absolute name and one with `..`
open files elsewhere. -/
theorem writes_authorised_fails :
    opensPath ['x'] ['u'] = some "./x".toList ∧
    opensPath "/etc/x".toList ['t'] = some "/etc/x".toList ∧
    opensPath "../x".toList ['t'] = some "./../x".toList ∧
    ¬ Path.Inside ["home".toList] "./".toList "/etc/x".toList ∧
    ¬ Path.Inside ["home".toList] "./".toList "./../x".toList := by
  decide

end RndRust.LocalSend
