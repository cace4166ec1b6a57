import RndRust.Irc.Proto.Accepted
import RndRust.Irc.Proto.Command

/-! `Command::to_message`, and that a typed command comes back from the wire. -/
namespace RndRust.Irc.Proto
open Lib

/-- `CapSub::as_bytes`. -/
def CapSub.asBytes : CapSub → Bytes
  | .ls => ascii "LS"
  | .list => ascii "LIST"
  | .req => ascii "REQ"
  | .ack => ascii "ACK"
  | .nak => ascii "NAK"
  | .new => ascii "NEW"
  | .del => ascii "DEL"
  | .done => ascii "END"
  | .other bytes => bytes

/-- `join_commas`. -/
def joinCommas (items : List Bytes) : Bytes := join [comma] items

/-- `promote_last_to_trailing_if_needed`. -/
def promoteLastToTrailingIfNeeded (params : Params) : Params :=
  match params.values.getLast? with
  | some last => if last.contains sp then Params.pushTrailing ⟨params.values.dropLast, false⟩ last else params
  | none => params

/-- A further parameter that may be left out. -/
def Params.pushOption (p : Params) : Option Bytes → Params
  | some value => p.push value
  | none => p

def Params.pushTrailingOption (p : Params) : Option Bytes → Params
  | some value => p.pushTrailing value
  | none => p

/-- `build_token_server`. -/
def buildTokenServer (verb token : Bytes) (server : Option Bytes) : Verb × Params :=
  (.word verb, (Params.push {} token).pushOption server)

/-- `to_verb_params`. -/
def Command.toVerbParams : Command → Verb × Params
  | .cap subcommand args =>
    (.word (ascii "CAP"), promoteLastToTrailingIfNeeded (args.foldl Params.push (Params.push {} subcommand.asBytes)))
  | .nick new => (.word (ascii "NICK"), Params.push {} new)
  | .user name flags realname =>
    (.word (ascii "USER"), (((Params.push {} name).push flags).push (ascii "*")).pushTrailing realname)
  | .pass password => (.word (ascii "PASS"), Params.push {} password)
  | .authenticate payload => (.word (ascii "AUTHENTICATE"), Params.push {} payload)
  | .quit reason => (.word (ascii "QUIT"), Params.pushTrailingOption {} reason)
  | .ping token server => buildTokenServer (ascii "PING") token server
  | .pong token server => buildTokenServer (ascii "PONG") token server
  | .join channels keys =>
    let p := Params.push {} (joinCommas channels)
    (.word (ascii "JOIN"), if keys = [] then p else p.push (joinCommas keys))
  | .part channels reason => (.word (ascii "PART"), (Params.push {} (joinCommas channels)).pushTrailingOption reason)
  | .privmsg targets text => (.word (ascii "PRIVMSG"), (Params.push {} (joinCommas targets)).pushTrailing text)
  | .notice targets text => (.word (ascii "NOTICE"), (Params.push {} (joinCommas targets)).pushTrailing text)
  | .topic channel text => (.word (ascii "TOPIC"), (Params.push {} channel).pushTrailingOption text)
  | .mode target changes args =>
    (.word (ascii "MODE"), args.foldl Params.push ((Params.push {} target).pushOption changes))
  | .list channels server =>
    let p : Params := if channels = [] then {} else Params.push {} (joinCommas channels)
    (.word (ascii "LIST"), p.pushOption server)
  | .numeric code params => (.numeric code, params)
  | .unknown verb params => (.word verb, params)

/-- `Command::to_message`. -/
def Command.toMessage (c : Command) : Message where
  verb := c.toVerbParams.1
  params := c.toVerbParams.2

section Values

variable {values args : List Bytes} {value : Bytes} {p : Params} {option : Option Bytes}

@[simp] theorem values_push : (p.push value).values = p.values ++ [value] := rfl

@[simp] theorem values_pushTrailing : (p.pushTrailing value).values = p.values ++ [value] := rfl

@[simp] theorem values_pushOption : (p.pushOption option).values = p.values ++ option.toList := by
  cases option with
  | none => exact (List.append_nil _).symm
  | some value => rfl

@[simp] theorem values_pushTrailingOption : (p.pushTrailingOption option).values = p.values ++ option.toList := by
  cases option with
  | none => exact (List.append_nil _).symm
  | some value => rfl

@[simp] theorem values_foldl_push : (args.foldl Params.push p).values = p.values ++ args := by
  induction args generalizing p with
  | nil => exact (List.append_nil _).symm
  | cons value args ih => rw [List.foldl_cons, ih, values_push, List.append_assoc, List.singleton_append]

@[simp] theorem values_promote : (promoteLastToTrailingIfNeeded p).values = p.values := by
  unfold promoteLastToTrailingIfNeeded
  split
  · rename_i last isLast
    split
    · obtain ⟨front, whole⟩ := List.getLast?_eq_some_iff.mp isLast
      rw [values_pushTrailing, whole]
      simp
    · rfl
  · rfl

theorem joinCommas_splitCommas : joinCommas (splitCommas value) = value := by
  unfold joinCommas join splitCommas
  exact List.intercalate_splitOn comma

theorem splitCommas_ne_nil : splitCommas value ≠ [] := List.splitOn_ne_nil _ _

end Values

section Stable

variable {c : Command} {word value name : Bytes} {params : Params} {m : Message} {buf : Bytes}

/-- The command comes back from the wire. -/
def Command.Stable (c : Command) : Prop :=
  ∃ m, Message.parse c.toMessage.toBytes = .ok m ∧ Command.parse m = .ok c

/-- A verb of letters. -/
def spelled (word : Bytes) : Bool := !word.isEmpty && word.all isAsciiAlphabetic

theorem wellFormed_of_spelled (wf : spelled word = true) : (Verb.word word).WellFormed := by
  simpa [spelled, Verb.WellFormed, List.all_eq_true] using wf

/-- A command is read from values that can be sent, and they are those it is written with. -/
theorem stable_word (values : List Bytes) (verb : c.toVerbParams.1 = .word word) (wf : spelled word = true)
    (sent : c.toVerbParams.2.values = values) (room : values.length ≤ 15) (form : ValuesForm true values)
    (again : ∀ params : Params, params.values = values → parseWord word params = .ok c) : c.Stable := by
  subst sent
  obtain ⟨flag, read⟩ := parseParams_sent ⟨room, form⟩
  have written : Message.parse c.toMessage.toBytes =
      .ok { c.toMessage with params := ⟨c.toVerbParams.2.values, flag⟩ } := by
    apply parse_written
    · simp [Command.toMessage]
    · simp [Command.toMessage]
    · rw [Command.toMessage, verb]
      exact wellFormed_of_spelled wf
    · exact read
  refine ⟨_, written, ?_⟩
  unfold Command.parse
  rw [Command.toMessage, verb]
  exact again _ rfl

/-- A command that keeps the verb and the parameters it was read from. -/
theorem stable_same (accepted : m.Accepted) (typed : Command.parse m = .ok c) (verb : c.toVerbParams.1 = m.verb)
    (same : c.toVerbParams.2 = m.params) : c.Stable := by
  have written : Message.parse c.toMessage.toBytes = .ok { c.toMessage with params := m.params } := by
    apply parse_written
    · simp [Command.toMessage]
    · simp [Command.toMessage]
    · rw [Command.toMessage, verb]
      exact accepted.verb
    · intro pos
      rw [Command.toMessage, same]
      exact parseParams_write pos accepted.params accepted.flagged
  refine ⟨_, written, ?_⟩
  unfold Command.parse at typed ⊢
  rw [Command.toMessage, verb]
  exact typed

theorem parseOne_of_values {more : List Bytes} (values : params.values = value :: more) :
    parseOne params name = .ok value := by
  unfold parseOne
  rw [values]
  rfl

/-- `NICK`, `PASS` and `AUTHENTICATE` take one value. -/
theorem stable_one {make : Bytes → Command} (wf : spelled word = true)
    (writes : ∀ v, (make v).toVerbParams = (.word word, Params.push {} v))
    (reads : ∀ params, parseWord word params = (do .ok (make (← parseOne params name))))
    (form : ValuesForm true params.values) (typed : (do .ok (make (← parseOne params name))) = Except.ok c) :
    c.Stable := by
  obtain ⟨value, one, made⟩ := bind_eq_ok.mp typed
  cases made
  obtain ⟨more, values⟩ := parseOne_ok one
  rw [values] at form
  refine stable_word [value] (by rw [writes]) wf (by rw [writes]; rfl) (by simp) (form.take 1) fun params same => ?_
  rw [reads, parseOne_of_values same]
  rfl

/-- The subcommands with a name. -/
def CapSub.named : List CapSub := [.ls, .list, .req, .ack, .nak, .new, .del, .done]

theorem capSub_cases (sub : Bytes) : CapSub.parse sub = .other sub ∨ CapSub.parse sub ∈ CapSub.named := by
  unfold CapSub.parse
  dsimp only
  split_ifs <;> simp [CapSub.named]

theorem capSub_named : ∀ sub ∈ CapSub.named, CapSub.parse sub.asBytes = sub ∧ MiddleForm sub.asBytes := by decide +kernel

theorem capSub_again (sub : Bytes) : CapSub.parse (CapSub.parse sub).asBytes = CapSub.parse sub := by
  rcases capSub_cases sub with other | named
  · rw [other]
    exact other
  · exact (capSub_named _ named).1

theorem asBytes_middle (sub : Bytes) : (CapSub.parse sub).asBytes = sub ∨ MiddleForm (CapSub.parse sub).asBytes := by
  rcases capSub_cases sub with other | named
  · rw [other]
    exact .inl rfl
  · exact .inr (capSub_named _ named).2

theorem stable_cap (room : params.values.length ≤ 15) (form : ValuesForm true params.values)
    (typed : parseCap params = .ok c) : c.Stable := by
  unfold parseCap at typed
  split at typed
  · cases typed
  · rename_i sub args values
    cases typed
    rw [values] at room form
    refine stable_word ((CapSub.parse sub).asBytes :: args) rfl rfl ?_ room ?_ fun params same => ?_
    · simp [Command.toVerbParams]
    · rcases asBytes_middle sub with same | middle
      · rwa [same]
      · cases args with
        | nil => exact middle.clean
        | cons next args => exact ⟨middle, form.2⟩
    · show parseCap params = _
      unfold parseCap
      rw [same]
      dsimp only
      rw [capSub_again]

theorem star_middle : MiddleForm (ascii "*") := by
  have plain : needsTrailing false (ascii "*") = false := rfl
  refine middleForm_of_plain (fun b member => ?_) plain
  rw [List.mem_singleton.mp member]
  rfl

theorem stable_user (form : ValuesForm true params.values) (typed : parseUser params = .ok c) : c.Stable := by
  unfold parseUser at typed
  split at typed
  · rename_i user mode third realname more values
    cases typed
    rw [values] at form
    refine stable_word [user, mode, ascii "*", realname] rfl rfl rfl (by simp) ?_ fun params same => ?_
    · exact ⟨form.1, form.2.1, star_middle, (form.take 4).2.2.2⟩
    · show parseUser params = _
      unfold parseUser
      rw [same]
  · cases typed

theorem stable_privmsg {notice : Bool} (form : ValuesForm true params.values)
    (typed : parsePrivmsg params notice = .ok c) : c.Stable := by
  unfold parsePrivmsg at typed
  split at typed
  · rename_i targets text more values
    cases typed
    rw [values] at form
    have sent : ValuesForm true [targets, text] := form.take 2
    cases notice with
    | true =>
      refine stable_word [targets, text] rfl rfl ?_ (by simp) sent fun params same => ?_
      · simp [Command.toVerbParams, joinCommas_splitCommas]
      · show parsePrivmsg params true = _
        unfold parsePrivmsg
        rw [same]
    | false =>
      refine stable_word [targets, text] rfl rfl ?_ (by simp) sent fun params same => ?_
      · simp [Command.toVerbParams, joinCommas_splitCommas]
      · show parsePrivmsg params false = _
        unfold parsePrivmsg
        rw [same]
  · cases typed

/-- A value, and perhaps one more. -/
theorem take_two {more : List Bytes} : (value :: more).take 2 = value :: more[0]?.toList := by
  cases more <;> rfl

theorem getElem?_toList (option : Option Bytes) : option.toList[0]? = option := by
  cases option <;> rfl

/-- `PING`, `PONG`, `PART` and `TOPIC` take a value, and perhaps one more. -/
theorem stable_two (make : Bytes → Option Bytes → Command)
    (wf : spelled word = true) (verb : ∀ v o, (make v o).toVerbParams.1 = .word word)
    (writes : ∀ v o, (make v o).toVerbParams.2.values = v :: o.toList)
    (reads : ∀ params, parseWord word params = do .ok (make (← parseOne params name) params.values[1]?))
    (form : ValuesForm true params.values)
    (typed : (do .ok (make (← parseOne params name) params.values[1]?)) = Except.ok c) : c.Stable := by
  obtain ⟨value, one, made⟩ := bind_eq_ok.mp typed
  cases made
  obtain ⟨more, values⟩ := parseOne_ok one
  rw [values] at form ⊢
  have sent := form.take 2
  rw [take_two] at sent
  refine stable_word _ (verb _ _) wf (writes _ _) ?_ sent fun params same => ?_
  · cases (value :: more)[1]? <;> simp
  · rw [reads, parseOne_of_values same, same, List.getElem?_cons_succ, getElem?_toList]
    rfl

theorem stable_join (form : ValuesForm true params.values) (typed : parseJoin params = .ok c) : c.Stable := by
  obtain ⟨value, one, made⟩ := bind_eq_ok.mp typed
  cases made
  obtain ⟨more, values⟩ := parseOne_ok one
  rw [values] at form ⊢
  cases more with
  | nil =>
    refine stable_word [value] rfl rfl ?_ (by simp) (form.take 1) fun params same => ?_
    · simp [Command.toVerbParams, joinCommas_splitCommas]
    · show parseJoin params = _
      unfold parseJoin
      rw [parseOne_of_values same, same]
      rfl
  | cons keys more =>
    refine stable_word [value, keys] rfl rfl ?_ (by simp) (form.take 2) fun params same => ?_
    · simp [Command.toVerbParams, joinCommas_splitCommas, splitCommas_ne_nil]
    · show parseJoin params = _
      unfold parseJoin
      rw [parseOne_of_values same, same]
      rfl

theorem stable_mode (room : params.values.length ≤ 15) (form : ValuesForm true params.values)
    (typed : parseMode params = .ok c) : c.Stable := by
  obtain ⟨value, one, made⟩ := bind_eq_ok.mp typed
  cases made
  obtain ⟨more, values⟩ := parseOne_ok one
  rw [values] at room form ⊢
  refine stable_word (value :: more) rfl rfl ?_ room form fun params same => ?_
  · cases more <;> simp [Command.toVerbParams]
  · show parseMode params = _
    unfold parseMode
    rw [parseOne_of_values same, same]
    rfl

theorem stable_list (form : ValuesForm true params.values) :
    (Command.list ((params.values[0]?.map splitCommas).getD []) params.values[1]?).Stable := by
  match values : params.values with
  | [] =>
    refine stable_word [] rfl rfl rfl (by simp) trivial fun params same => ?_
    show Except.ok (Command.list ((params.values[0]?.map splitCommas).getD []) params.values[1]?) = _
    rw [same]
  | [channels] =>
    rw [values] at form
    refine stable_word [channels] rfl rfl ?_ (by simp) form fun params same => ?_
    · simp [Command.toVerbParams, joinCommas_splitCommas, splitCommas_ne_nil]
    · show Except.ok (Command.list ((params.values[0]?.map splitCommas).getD []) params.values[1]?) = _
      rw [same]
  | channels :: server :: more =>
    rw [values] at form
    refine stable_word [channels, server] rfl rfl ?_ (by simp) (form.take 2) fun params same => ?_
    · simp [Command.toVerbParams, joinCommas_splitCommas, splitCommas_ne_nil]
    · show Except.ok (Command.list ((params.values[0]?.map splitCommas).getD []) params.values[1]?) = _
      rw [same]
      rfl

theorem stable_quit (form : ValuesForm true params.values) : (Command.quit params.values[0]?).Stable := by
  match values : params.values with
  | [] =>
    refine stable_word [] rfl rfl rfl (by simp) trivial fun params same => ?_
    show Except.ok (Command.quit params.values[0]?) = _
    rw [same]
  | reason :: more =>
    rw [values] at form
    refine stable_word [reason] rfl rfl rfl (by simp) (form.take 1) fun params same => ?_
    show Except.ok (Command.quit params.values[0]?) = _
    rw [same]
    rfl

/-- **Typed commands are stable on the wire.** The last case keeps a verb that is not known. -/
theorem command_stable (read : Message.parse buf = .ok m) (typed : Command.parse m = .ok c) :
    ∃ m', Message.parse c.toMessage.toBytes = .ok m' ∧ Command.parse m' = .ok c := by
  show c.Stable
  have accepted := (parse_accepted read).1
  obtain ⟨room, form⟩ := accepted.params.sendable
  cases verb : m.verb with
  | numeric code =>
    have made := typed
    unfold Command.parse at made
    rw [verb] at made
    cases made
    exact stable_same accepted typed verb.symm rfl
  | word word =>
    have made := typed
    unfold Command.parse at made
    rw [verb] at made
    rcases either_of_ite made with cap | made
    · exact stable_cap room form cap
    rcases either_of_ite made with nick | made
    · exact stable_one rfl (fun _ => rfl) (fun _ => rfl) form nick
    rcases either_of_ite made with user | made
    · exact stable_user form user
    rcases either_of_ite made with pass | made
    · exact stable_one rfl (fun _ => rfl) (fun _ => rfl) form pass
    rcases either_of_ite made with authenticate | made
    · exact stable_one rfl (fun _ => rfl) (fun _ => rfl) form authenticate
    rcases either_of_ite made with quit | made
    · cases quit
      exact stable_quit form
    rcases either_of_ite made with ping | made
    · exact stable_two Command.ping rfl (fun _ _ => rfl) (fun _ _ => by simp [Command.toVerbParams, buildTokenServer])
        (fun _ => rfl) form ping
    rcases either_of_ite made with pong | made
    · exact stable_two Command.pong rfl (fun _ _ => rfl) (fun _ _ => by simp [Command.toVerbParams, buildTokenServer])
        (fun _ => rfl) form pong
    rcases either_of_ite made with join | made
    · exact stable_join form join
    rcases either_of_ite made with part | made
    · exact stable_two (fun v o => .part (splitCommas v) o) rfl (fun _ _ => rfl)
        (fun _ _ => by simp [Command.toVerbParams, joinCommas_splitCommas]) (fun _ => rfl) form part
    rcases either_of_ite made with privmsg | made
    · exact stable_privmsg form privmsg
    rcases either_of_ite made with notice | made
    · exact stable_privmsg form notice
    rcases either_of_ite made with topic | made
    · exact stable_two Command.topic rfl (fun _ _ => rfl) (fun _ _ => by simp [Command.toVerbParams]) (fun _ => rfl) form topic
    rcases either_of_ite made with mode | made
    · exact stable_mode room form mode
    rcases either_of_ite made with list | unknown
    · cases list
      exact stable_list form
    · cases unknown
      exact stable_same accepted typed verb.symm rfl

/-- A subcommand in small letters, and a list that is sent in trailing form. -/
theorem command_stable_cap : ∃ m', Message.parse (Command.cap .req [ascii "a b"]).toMessage.toBytes = .ok m' ∧
    Command.parse m' = .ok (.cap .req [ascii "a b"]) := by
  have read : Message.parse (ascii "@x :y.z cap req :a b") =
      .ok ⟨[⟨⟨false, ascii "x"⟩, none⟩], some (.server (ascii "y.z")), .word (ascii "cap"),
        ⟨[ascii "req", ascii "a b"], true⟩⟩ := by decide +kernel
  exact command_stable read (by decide)

end Stable

end RndRust.Irc.Proto
