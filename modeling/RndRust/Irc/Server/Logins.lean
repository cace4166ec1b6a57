import RndRust.Irc.Server.Powers
import RndRust.Irc.Server.Store

/-! The server and its account store. The answers that the handlers get are the store's, and who is logged in
to an account at the end of a run has shown that it owns it: the account goes back to its registration, to the
token drawn then, and to the password hashed then. -/
namespace RndRust.Irc.Server
open Lib Proto

/-- What the clock, the password hasher, the token generator and the disk come up with during one step. -/
structure Draws where
  secs : ℕ := 0
  millis : ℕ := 0
  /-- The hash, or an error of the hasher. -/
  hash : Option Bytes := some []
  token : Bytes := []
  /-- SQLite fails. -/
  fails : Bool := false
  deriving DecidableEq, Repr

/-- The call of `handle_register`. -/
def registerQuestion (draws : Draws) (accountName email password : Bytes) : Option Question :=
  match validateRegisterParams accountName email password with
  | .ok (name, email, _) => draws.hash.map fun hash => .accountCreate name email hash draws.token
  | .error _ => none

/-- The call of `handle_verify`. -/
def verifyQuestion (accountName token : Bytes) : Option Question :=
  match fromUtf8 accountName, fromUtf8 token with
  | some name, some token => some (.accountVerify name token)
  | _, _ => none

/-- The call of `handle_plain`. -/
def plainQuestion (crates : Crates) (payload : Bytes) : Option Question :=
  match (crates.decodeBase64 payload).bind plainParts with
  | some (_, authcid, passwd) => if (fromUtf8 passwd).isSome then (fromUtf8 authcid).map .accountGet else none
  | none => none

/-- The call of `handle_authenticate`. -/
def authenticateQuestion (s : ServerState) (uid : UserId) (payload : Bytes) : Option Question :=
  if eqIgnoreAsciiCase payload (ascii "PLAIN") ∨ eqIgnoreAsciiCase payload (ascii "EXTERNAL") then none
  else if (s.objects uid).saslMechanism = some (ascii "PLAIN") then plainQuestion s.crates payload
  else if (s.objects uid).saslMechanism = some (ascii "EXTERNAL") then
    (s.objects uid).certFingerprint.map .accountByFingerprint
  else none

/-- What the handler of a command asks the store. -/
def question (s : ServerState) (uid : UserId) (draws : Draws) : Command → Option Question
  | .unknown verb ⟨values, _⟩ =>
    if verb = ascii "REGISTER" then
      match values with
      | account :: email :: password :: _ => registerQuestion draws account email password
      | _ => none
    else if verb = ascii "VERIFY" then
      match values with
      | account :: token :: _ => verifyQuestion account token
      | _ => none
    else none
  | .authenticate payload => authenticateQuestion s uid payload
  | _ => none

/-- The question of a step of the server, if it handles a command that asks one. -/
def asked (s : ServerState) (draws : Draws) : Action → Option Question
  | .receive uid line flooded _ =>
    if handles s uid flooded then (lineCommand line).bind (question s uid draws) else none
  | _ => none

/-- The answer, as the handler sees it. -/
def Draws.outside (draws : Draws) : Option Answer → Outside
  | none => { secs := draws.secs, millis := draws.millis, hashed := draws.hash.isSome }
  | some answer =>
    let out : Outside := { secs := draws.secs, millis := draws.millis, hashed := draws.hash.isSome }
    if draws.fails then { out with created := .error .sqlx, verified := .error .sqlx, account := .error .sqlx }
    else match answer with
      | .created result => { out with created := result }
      | .verified result => { out with verified := .ok result }
      | .account found => { out with account := .ok found }

/-- The answers a step is taken with. -/
def Action.outside : Action → Option Outside
  | .accept _ out | .receive _ _ _ out => some out
  | _ => none

/-- The server and the table `accounts`. -/
structure World where
  srv : Daemon
  rows : List StoredRow := []

/-- What the store answers in a step, and the table after it. -/
def World.consult (w : World) (a : Action) (draws : Draws) : List StoredRow × Outside :=
  match asked w.srv.state draws a with
  | none => (w.rows, draws.outside none)
  | some q =>
    let (rows, answer) := SqliteStore.answer w.rows q
    (if draws.fails then w.rows else rows, draws.outside (some answer))

/-- A step of the server that takes the answers of the store. -/
def World.step (w : World) : Action × Draws → Option World
  | (a, draws) =>
    let (rows, out) := w.consult a draws
    if a.outside.all (· = out) then (w.srv.step a).map fun srv => { srv, rows } else none

/-- A server with an empty table. -/
def world (config : Config) (crates : Crates) : Machine World (Action × Draws) where
  initial := { srv := (server config crates).initial }
  step := World.step

/-- The questions of the commands. -/
inductive Asks (s : ServerState) (uid : UserId) (draws : Draws) : Command → Question → Prop
  | register {account mail password name email text hash : Bytes} {rest : List Bytes} {trailing : Bool}
      (valid : validateRegisterParams account mail password = .ok (name, email, text))
      (hashed : draws.hash = some hash) : Asks s uid draws
        (.unknown (ascii "REGISTER") ⟨account :: mail :: password :: rest, trailing⟩)
        (.accountCreate name email hash draws.token)
  | verify {name token : Bytes} {rest : List Bytes} {trailing : Bool} :
      Asks s uid draws (.unknown (ascii "VERIFY") ⟨name :: token :: rest, trailing⟩) (.accountVerify name token)
  | plain {payload decoded authzid name passwd : Bytes}
      (opened : (s.objects uid).saslMechanism = some (ascii "PLAIN"))
      (encoded : s.crates.decodeBase64 payload = some decoded)
      (parts : plainParts decoded = some (authzid, name, passwd)) :
      Asks s uid draws (.authenticate payload) (.accountGet name)
  | external {payload fp : Bytes} (opened : (s.objects uid).saslMechanism = some (ascii "EXTERNAL")) :
      Asks s uid draws (.authenticate payload) (.accountByFingerprint fp)

/-- The step registers an account nobody has, with a hash of its password and the token for its verification. -/
def Registers (w : World) (step : Action × Draws) (name hash token : Bytes) : Prop :=
  (∀ row ∈ w.rows, row.name ≠ name) ∧ ∃ uid line flooded out cmd email,
    step.1 = .receive uid line flooded out ∧ lineCommand line = some cmd ∧
    handles w.srv.state uid flooded ∧ Asks w.srv.state uid step.2 cmd (.accountCreate name email hash token)

/-- The step is a VERIFY of `uid` that gives a token for an account. -/
def Verifies (w : World) (uid : UserId) (step : Action × Draws) (name token : Bytes) : Prop :=
  ∃ line flooded out cmd, step.1 = .receive uid line flooded out ∧ lineCommand line = some cmd ∧
    handles w.srv.state uid flooded ∧ Asks w.srv.state uid step.2 cmd (.accountVerify name token)

/-- The step is an AUTHENTICATE of `uid`, in a PLAIN exchange, that gives the password behind a hash. -/
def LogsIn (w : World) (uid : UserId) (step : Action × Draws) (name hash : Bytes) : Prop :=
  ∃ line flooded out payload decoded authzid passwd, step.1 = .receive uid line flooded out ∧
    lineCommand line = some (.authenticate payload) ∧ handles w.srv.state uid flooded ∧
    (w.srv.state.objects uid).saslMechanism = some (ascii "PLAIN") ∧
    w.srv.state.crates.decodeBase64 payload = some decoded ∧ plainParts decoded = some (authzid, name, passwd) ∧
    w.srv.state.crates.verifyPassword hash passwd

/-- An account that can be verified with a token. -/
def Waiting (rows : List StoredRow) (name hash token : Bytes) : Prop :=
  ∃ row ∈ rows, row.name = name ∧ row.passwordHash = hash ∧ row.verifyToken = some token

/-- An account that has been verified. -/
def Checked (rows : List StoredRow) (name hash : Bytes) : Prop :=
  ∃ row ∈ rows, row.name = name ∧ row.passwordHash = hash ∧ row.verified

section Steps

variable {w w' : World} {a : Action} {draws : Draws} {uid : UserId} {name token hash account : Bytes} {out : Outside}
  {q : Question}

theorem World.step_spec (taken : w.step (a, draws) = some w') : w.srv.step a = some w'.srv ∧
    w'.rows = (w.consult a draws).1 ∧ ∀ out ∈ a.outside, out = (w.consult a draws).2 := by
  simp only [World.step] at taken
  split at taken
  · rename_i truthful
    obtain ⟨srv, moved, rfl⟩ := Option.map_eq_some_iff.mp taken
    exact ⟨moved, rfl, fun out given => of_decide_eq_true ((Option.all_eq_true _ _).mp truthful out given)⟩
  · cases taken

theorem question_asks {s : ServerState} {cmd : Command} (asks : question s uid draws cmd = some q) :
    Asks s uid draws cmd q := by
  unfold question at asks
  split at asks
  · split at asks
    · rename_i verb
      subst verb
      split at asks
      · unfold registerQuestion at asks
        split at asks
        · rename_i valid
          obtain ⟨hash, hashed, rfl⟩ := Option.map_eq_some_iff.mp asks
          exact .register valid hashed
        · cases asks
      · cases asks
    split at asks
    · rename_i verb
      subst verb
      split at asks
      · unfold verifyQuestion at asks
        split at asks
        · rename_i name' token' named texted
          cases asks
          obtain rfl := fromUtf8_eq named
          obtain rfl := fromUtf8_eq texted
          exact .verify
        · cases asks
      · cases asks
    · cases asks
  · unfold authenticateQuestion at asks
    split at asks
    · cases asks
    split at asks
    · rename_i opened
      unfold plainQuestion at asks
      split at asks
      · rename_i found
        obtain ⟨decoded, encoded, parts⟩ := Option.bind_eq_some_iff.mp found
        split at asks
        · obtain ⟨name, named, rfl⟩ := Option.map_eq_some_iff.mp asks
          obtain rfl := fromUtf8_eq named
          exact .plain opened encoded parts
        · cases asks
      · cases asks
    split at asks
    · rename_i opened
      obtain ⟨fp, shown, rfl⟩ := Option.map_eq_some_iff.mp asks
      exact .external opened
    · cases asks
  · cases asks

theorem asked_asks {s : ServerState} (asks : asked s draws a = some q) : ∃ uid line flooded out cmd,
    a = .receive uid line flooded out ∧ lineCommand line = some cmd ∧ handles s uid flooded ∧ Asks s uid draws cmd q := by
  unfold asked at asks
  split at asks
  · rename_i uid line flooded out
    split at asks
    · rename_i handled
      obtain ⟨cmd, read, asks⟩ := Option.bind_eq_some_iff.mp asks
      exact ⟨uid, line, flooded, out, cmd, rfl, read, handled, question_asks asks⟩
    · cases asks
  · cases asks

theorem awaits_iff {row : StoredRow} :
    row.awaits name token ↔ row.name = name ∧ row.verified = false ∧ row.verifyToken = some token := by
  simp [StoredRow.awaits]

theorem waiting_answer {rows : List StoredRow} (waiting : Waiting (SqliteStore.answer rows q).1 name hash token) :
    Waiting rows name hash token ∨
      (∀ row ∈ rows, row.name ≠ name) ∧ ∃ email, q = .accountCreate name email hash token := by
  obtain ⟨row, stored, named, hashed, waits⟩ := waiting
  cases q with
  | accountCreate name' email hash' token' =>
    rw [SqliteStore.answer] at stored
    split at stored
    · exact .inl ⟨row, stored, named, hashed, waits⟩
    · rename_i vacant
      rcases List.mem_append.mp stored with old | new
      · exact .inl ⟨row, old, named, hashed, waits⟩
      · obtain rfl := List.mem_singleton.mp new
        simp only [StoredRow.new, Option.some.injEq] at named hashed waits
        subst named hashed waits
        exact .inr ⟨by simpa using vacant, email, rfl⟩
  | accountVerify name' token' =>
    obtain ⟨old, listed, rfl⟩ := List.mem_map.mp stored
    split at waits
    · cases waits
    · rename_i idle
      simp only [idle, Bool.false_eq_true, if_false] at named hashed
      exact .inl ⟨old, listed, named, hashed, waits⟩
  | accountGet | accountByFingerprint => exact .inl ⟨row, stored, named, hashed, waits⟩

theorem checked_answer {rows : List StoredRow} (checked : Checked (SqliteStore.answer rows q).1 name hash) :
    Checked rows name hash ∨ ∃ token, q = .accountVerify name token ∧ Waiting rows name hash token := by
  obtain ⟨row, stored, named, hashed, verified⟩ := checked
  cases q with
  | accountCreate name' email hash' token' =>
    rw [SqliteStore.answer] at stored
    split at stored
    · exact .inl ⟨row, stored, named, hashed, verified⟩
    · rcases List.mem_append.mp stored with old | new
      · exact .inl ⟨row, old, named, hashed, verified⟩
      · obtain rfl := List.mem_singleton.mp new
        cases verified
  | accountVerify name' token' =>
    obtain ⟨old, listed, rfl⟩ := List.mem_map.mp stored
    split at verified
    · rename_i waits
      simp only [waits, if_true, StoredRow.verify] at named hashed
      obtain ⟨named', -, waiting⟩ := awaits_iff.mp waits
      obtain rfl := named'.symm.trans named
      exact .inr ⟨token', rfl, old, listed, named', hashed, waiting⟩
    · rename_i idle
      simp only [idle, Bool.false_eq_true, if_false] at named hashed
      exact .inl ⟨old, listed, named, hashed, verified⟩
  | accountGet | accountByFingerprint => exact .inl ⟨row, stored, named, hashed, verified⟩

/-- The table changes only by the answer to a question. -/
theorem consult_rows : (w.consult a draws).1 = w.rows ∨
    ∃ q, asked w.srv.state draws a = some q ∧ (w.consult a draws).1 = (SqliteStore.answer w.rows q).1 := by
  unfold World.consult
  cases asks : asked w.srv.state draws a with
  | none => exact .inl rfl
  | some q =>
    dsimp only
    split
    · exact .inl rfl
    · exact .inr ⟨q, rfl, rfl⟩

theorem step_registers (taken : w.step (a, draws) = some w') (before : ¬Waiting w.rows name hash token)
    (after : Waiting w'.rows name hash token) : Registers w (a, draws) name hash token := by
  rw [(World.step_spec taken).2.1] at after
  rcases consult_rows with same | ⟨q, asks, answered⟩
  · exact absurd (same ▸ after) before
  · rcases waiting_answer (answered ▸ after) with earlier | ⟨vacant, email, rfl⟩
    · exact absurd earlier before
    · obtain ⟨uid, line, flooded, out, cmd, sent, read, handled, asks⟩ := asked_asks asks
      exact ⟨vacant, uid, line, flooded, out, cmd, email, sent, read, handled, asks⟩

theorem step_verifies (taken : w.step (a, draws) = some w') (before : ¬Checked w.rows name hash)
    (after : Checked w'.rows name hash) :
    ∃ uid token, Verifies w uid (a, draws) name token ∧ Waiting w.rows name hash token := by
  rw [(World.step_spec taken).2.1] at after
  rcases consult_rows with same | ⟨q, asks, answered⟩
  · exact absurd (same ▸ after) before
  · rcases checked_answer (answered ▸ after) with earlier | ⟨token, rfl, waiting⟩
    · exact absurd earlier before
    · obtain ⟨uid, line, flooded, out, cmd, sent, read, handled, asks⟩ := asked_asks asks
      exact ⟨uid, token, ⟨line, flooded, out, cmd, sent, read, handled, asks⟩, waiting⟩

theorem create_answer (rows : List StoredRow) (name email hash token : Bytes) :
    ∃ result, (SqliteStore.answer rows (.accountCreate name email hash token)).2 = .created result := by
  rw [SqliteStore.answer]
  split
  · exact ⟨_, rfl⟩
  · exact ⟨_, rfl⟩

theorem consult_verified (valid : (w.consult a draws).2.verified = .ok true) :
    ∃ name token hash, asked w.srv.state draws a = some (.accountVerify name token) ∧ Waiting w.rows name hash token := by
  unfold World.consult at valid
  cases asks : asked w.srv.state draws a with
  | none => simp [asks, Draws.outside] at valid
  | some q =>
    rw [asks] at valid
    dsimp only [Draws.outside] at valid
    split at valid
    · cases valid
    · cases q with
      | accountVerify name token =>
        simp only [SqliteStore.answer, Except.ok.injEq, decide_eq_true_eq] at valid
        obtain ⟨row, listed⟩ := List.exists_mem_of_length_pos valid
        obtain ⟨stored, waits⟩ := List.mem_filter.mp listed
        obtain ⟨named, -, waiting⟩ := awaits_iff.mp waits
        exact ⟨name, token, row.passwordHash, rfl, row, stored, named, rfl, waiting⟩
      | accountCreate name email hash token =>
        obtain ⟨result, created⟩ := create_answer w.rows name email hash token
        rw [created] at valid
        cases valid
      | accountGet | accountByFingerprint => cases valid

/-- An account that the store answers with is the one of the name that was asked for: no row has a certificate. -/
theorem consult_account {found : AccountRow} (filed : Filed w.rows)
    (valid : (w.consult a draws).2.account = .ok (some found)) :
    asked w.srv.state draws a = some (.accountGet found.name) ∧
      (found.verified → Checked w.rows found.name found.passwordHash) := by
  unfold World.consult at valid
  cases asks : asked w.srv.state draws a with
  | none => simp [asks, Draws.outside] at valid
  | some q =>
    rw [asks] at valid
    dsimp only [Draws.outside] at valid
    split at valid
    · cases valid
    · cases q with
      | accountGet name =>
        simp only [SqliteStore.answer, Except.ok.injEq] at valid
        obtain ⟨row, first, rfl⟩ := Option.map_eq_some_iff.mp valid
        obtain ⟨stored, named⟩ := List.mem_filter.mp (List.mem_of_head? first)
        obtain rfl := of_decide_eq_true named
        exact ⟨rfl, fun verified => ⟨row, stored, rfl, rfl, verified⟩⟩
      | accountByFingerprint fp =>
        simp only [SqliteStore.answer, Except.ok.injEq] at valid
        obtain ⟨row, first, -⟩ := Option.map_eq_some_iff.mp valid
        obtain ⟨stored, held⟩ := List.mem_filter.mp (List.mem_of_head? first)
        rw [filed.uncertified row stored] at held
        cases held
      | accountCreate name email hash token =>
        obtain ⟨result, created⟩ := create_answer w.rows name email hash token
        rw [created] at valid
        cases valid
      | accountVerify => cases valid

/-- What a question asks, when the command is known. -/
theorem asked_receive {line : Bytes} {flooded : Bool} {cmd : Command} (read : lineCommand line = some cmd)
    (asks : asked w.srv.state draws (.receive uid line flooded out) = some q) : Asks w.srv.state uid draws cmd q := by
  obtain ⟨uid', line', flooded', out', cmd', sent, read', -, asks⟩ := asked_asks asks
  cases sent
  rw [read, Option.some.injEq] at read'
  exact read' ▸ asks

/-- With the answers of the store, a proof of ownership is one by a token that waits or by a password. -/
theorem Proves.shown {line : Bytes} {flooded : Bool} {cmd : Command} (proved : Proves w.srv.state uid out cmd name)
    (filed : Filed w.rows) (read : lineCommand line = some cmd) (handled : handles w.srv.state uid flooded)
    (given : out = (w.consult (.receive uid line flooded out) draws).2) :
    (∃ token hash, Verifies w uid (.receive uid line flooded out, draws) name token ∧ Waiting w.rows name hash token) ∨
      ∃ hash, LogsIn w uid (.receive uid line flooded out, draws) name hash ∧ Checked w.rows name hash := by
  cases proved with
  | token valid =>
    obtain ⟨name, token, hash, asks, waiting⟩ := consult_verified (given ▸ valid)
    have asks := asked_receive read asks
    cases asks
    exact .inl ⟨_, hash, ⟨line, flooded, out, _, rfl, read, handled, .verify⟩, waiting⟩
  | @password payload decoded _ _ passwd _ credential opened encoded parts user text found verified valid =>
    obtain ⟨asks, checked⟩ := consult_account filed (given ▸ found)
    cases asked_receive read asks with
    | plain opened encoded' parts' =>
      obtain rfl := Option.some.inj (encoded.symm.trans encoded')
      obtain ⟨-, -, rfl⟩ : _ ∧ _ ∧ passwd = _ := by simpa using parts.symm.trans parts'
      refine .inr ⟨_, ?_, checked verified⟩
      exact ⟨line, flooded, out, payload, decoded, _, passwd, rfl, read, handled, opened, encoded, parts', valid⟩
  | certificate credential opened shown found verified =>
    obtain ⟨asks, checked⟩ := consult_account filed (given ▸ found)
    cases asked_receive read asks with
    | plain exchange => exact absurd (opened.symm.trans exchange) (by decide)

/-- A user that a step logs in to an account shows that it owns it, with a token or with a password. -/
theorem step_logs_in (filed : Filed w.rows) (taken : w.step (a, draws) = some w')
    (before : (w.srv.state.objects uid).account ≠ some name) (after : (w'.srv.state.objects uid).account = some name) :
    (∃ token hash, Verifies w uid (a, draws) name token ∧ Waiting w.rows name hash token) ∨
      ∃ hash, LogsIn w uid (a, draws) name hash ∧ Checked w.rows name hash := by
  obtain ⟨moved, -, truthful⟩ := World.step_spec taken
  have new : (w'.srv.state.objects uid).standing ≠ (w.srv.state.objects uid).standing := by
    intro same
    simp only [UserInner.standing, Prod.mk.injEq] at same
    exact before (same.2.2 ▸ after)
  have moves := Daemon.step_moves moved
  generalize w'.srv.state = t at moves after new
  cases moves with
  | accepts host out =>
    rw [acceptUser_state] at after
    by_cases same : uid = w.srv.state.nextUserId
    · simp [ServerState.insertUser, same] at after
    · exact absurd (by simpa [ServerState.insertUser, same] using after) before
  | obeys read handled =>
    rename_i sender line flooded out cmd
    have given := truthful out rfl
    generalize held : (dispatchTyped w.srv.state sender out cmd).state = t at after new
    have confers := dispatchTyped_confers w.srv.state sender out cmd
    rw [held] at confers
    cases confers with
    | bland same => exact absurd (same.standing uid) new
    | opers =>
      refine absurd ?_ before
      by_cases same : uid = sender
      · subst same
        simpa [ServerState.modifyUser] using after
      · simpa [ServerState.modifyUser, same] using after
    | @logsIn _ account _ proved same =>
      have standing := (same.standing uid).trans (setAccount_standing account)
      by_cases mine : uid = sender
      · subst mine
        rw [if_pos rfl] at standing
        simp only [UserInner.standing, Prod.mk.injEq] at standing
        obtain rfl : account = name := Option.some.inj (standing.2.2.symm.trans after)
        exact proved.shown filed read handled given
      · rw [if_neg mine] at standing
        exact absurd standing new
    | bans | unbans => exact absurd rfl new
    | kills may => exact absurd (by rw [(removeUser_rest _ _).1, (purge_rest _ _).2.2.1]) new
  | cleans leaver => exact absurd (by rw [cleanup_objects]) new
  | rests => exact absurd rfl new

theorem Filed.step (filed : Filed w.rows) (taken : w.step (a, draws) = some w') : Filed w'.rows := by
  rw [(World.step_spec taken).2.1]
  rcases consult_rows with same | ⟨q, -, answered⟩
  · exact same ▸ filed
  · exact answered ▸ filed.answer

end Steps

section Runs

variable {config : Config} {crates : Crates} {trace : List (Action × Draws)} {w : World} {uid : UserId}
  {name hash token : Bytes}

theorem reachable_filed (reached : (world config crates).Reachable w) : Filed w.rows := by
  refine Machine.Reaches.invariant (fun w => Filed w.rows) ⟨by simp [world], by simp [world]⟩ ?_ reached
  rintro w ⟨a, draws⟩ w' filed - taken
  exact filed.step taken

/-- In a run from the start, an account was registered with this hash and this token. -/
def Registered (config : Config) (crates : Crates) (trace : List (Action × Draws)) (name hash token : Bytes) : Prop :=
  ∃ m : Machine.Moment (world config crates) (world config crates).initial trace, Registers m.before m.action name hash token

/-- In a run from the start, an account was registered with this hash, and then verified with the token of its
registration. -/
def Verified (config : Config) (crates : Crates) (trace : List (Action × Draws)) (name hash : Bytes) : Prop :=
  ∃ (m : Machine.Moment (world config crates) (world config crates).initial trace) (uid : UserId) (token : Bytes),
    Verifies m.before uid m.action name token ∧ Registered config crates m.earlier name hash token

theorem registered_of_waiting (ran : (world config crates).run (world config crates).initial trace = some w)
    (waiting : Waiting w.rows name hash token) : Registered config crates trace name hash token := by
  obtain ⟨m, before, after, -⟩ := Machine.exists_cause_of_start (fun w => Waiting w.rows name hash token) ran waiting
    (by simp [Waiting, world])
  exact ⟨m, step_registers m.taken before after⟩

theorem verified_of_checked (ran : (world config crates).run (world config crates).initial trace = some w)
    (checked : Checked w.rows name hash) : Verified config crates trace name hash := by
  obtain ⟨m, before, after, -⟩ := Machine.exists_cause_of_start (fun w => Checked w.rows name hash) ran checked
    (by simp [Checked, world])
  obtain ⟨uid, token, verifies, waiting⟩ := step_verifies m.taken before after
  exact ⟨m, uid, token, verifies, registered_of_waiting m.ran waiting⟩

/-- Who is logged in to an account at the end of a run gave the token that was drawn when the account was
registered, or, once the account had been verified with that token, the password behind the hash stored when it
was registered. No certificate logs anybody in. -/
theorem logins_earned (ran : (world config crates).run (world config crates).initial trace = some w)
    (logged : (w.srv.state.objects uid).account = some name) :
    ∃ m : Machine.Moment (world config crates) (world config crates).initial trace,
      (∃ token hash, Verifies m.before uid m.action name token ∧ Registered config crates m.earlier name hash token) ∨
      ∃ hash, LogsIn m.before uid m.action name hash ∧ Verified config crates m.earlier name hash := by
  obtain ⟨m, before, after, -⟩ := Machine.exists_cause_of_start
    (fun w => (w.srv.state.objects uid).account = some name) ran logged (by simp [world, server])
  refine ⟨m, ?_⟩
  have filed := reachable_filed (Machine.Reachable.run .initial m.ran)
  rcases step_logs_in filed m.taken before after with ⟨token, hash, verifies, waiting⟩ | ⟨hash, logs, checked⟩
  · exact .inl ⟨token, hash, verifies, registered_of_waiting m.ran waiting⟩
  · exact .inr ⟨hash, logs, verified_of_checked m.ran checked⟩

/-- Nothing is drawn. -/
def Draws.idle : Draws := {}

/-- Crates that know one password and its encoding. -/
def loginCrates : Crates where
  hmac _ := []
  verifyPassword hash password := hash = ascii "$argon2id$" ++ password
  decodeBase64 payload :=
    if payload = ascii "AGFsaWNlAHNlY3JldA==" then some (nul :: ascii "alice" ++ nul :: ascii "secret") else none

/-- Alice registers an account and verifies it, and Bob logs in to it with its password. -/
def passwordLogin : List (Action × Draws) :=
  (registers 1 "alice" ++ registers 2 "bob").map (·, .idle) ++
    [(sends 1 "REGISTER alice a@b.c secret", { hash := some (ascii "$argon2id$secret"), token := ascii "f00d" }),
      (.receive 1 (ascii "VERIFY alice f00d") false { verified := .ok true }, .idle),
      (sends 2 "AUTHENTICATE PLAIN", .idle),
      (.receive 2 (ascii "AUTHENTICATE AGFsaWNlAHNlY3JldA==") false
        { account := .ok (some ⟨ascii "alice", ascii "$argon2id$secret", true⟩) }, .idle)]

theorem logins_earned_password : ∃ w,
    (world exampleConfig loginCrates).run (world exampleConfig loginCrates).initial passwordLogin = some w ∧
    (w.srv.state.objects 2).account = some (ascii "alice") ∧
    ∃ m : Machine.Moment (world exampleConfig loginCrates) (world exampleConfig loginCrates).initial passwordLogin,
      (∃ token hash, Verifies m.before 2 m.action (ascii "alice") token ∧
        Registered exampleConfig loginCrates m.earlier (ascii "alice") hash token) ∨
      ∃ hash, LogsIn m.before 2 m.action (ascii "alice") hash ∧
        Verified exampleConfig loginCrates m.earlier (ascii "alice") hash := by
  have ends : ((world exampleConfig loginCrates).run (world exampleConfig loginCrates).initial passwordLogin).any
      fun w => (w.srv.state.objects 2).account = some (ascii "alice") := by decide +kernel
  obtain ⟨w, ran, logged⟩ := (Option.any_eq_true _ _).mp ends
  exact ⟨w, ran, of_decide_eq_true logged, logins_earned ran (of_decide_eq_true logged)⟩

end Runs

end RndRust.Irc.Server
