import RndRust.Bambu.Tasks

/-! How often a command is forwarded to its printer. The handler of a connection outlives the
bridge that started it, and forwards until the event loop of the connection stops. -/
namespace RndRust.Bambu
open Lib

/-- The commands that wait for the handler of a connection. -/
def Connection.inbox (conn : Connection) : List ℕ := (conn.handler.map Handler.inbox).getD []

def inboxAt (connections : List Connection) (c : ℕ) : List ℕ := (connections[c]?.map Connection.inbox).getD []

namespace Bridge

/-- How often a command was forwarded. -/
def times (s : Bridge) (n : ℕ) : ℕ := s.forwarded.countP (·.command = n)

/-- How often a command waits for the handler of a connection. -/
def waiting (s : Bridge) (c n : ℕ) : ℕ := (inboxAt s.connections c).count n

/-- The command a handler takes next. -/
def next (s : Bridge) (conn : Connection) : Option Published :=
  conn.inbox.head?.bind fun n => s.published[n]?

/-- A handler takes a command of its own printer while its bridge runs. Otherwise the bridge
had ended before the command was published, and a report has stopped the event loop since. -/
def inTime (s : Bridge) : Action → Bool
  | .handle c =>
    match s.connections[c]? with
    | none => true
    | some conn =>
      match s.next conn with
      | none => true
      | some command =>
        !CommandRequest.known command.request ||
          conn.reports.isSome && command.id = conn.printer.id ||
          conn.reader = .stopped && command.bridged ≠ some c
  | _ => true

/-- Over which connections commands are forwarded, and how often. -/
structure ForwardedOnce (s : Bridge) : Prop where
  atMost : ∀ n, s.times n ≤ 1
  /-- A command for a printer that is connected is forwarded, unless it still waits. -/
  exactly : ∀ (n : ℕ) (command : Published) (c : ℕ), s.published[n]? = some command →
    CommandRequest.known command.request → command.bridged = some c → s.waiting c n + s.times n = 1
  never : ∀ (n : ℕ) (command : Published), s.published[n]? = some command → command.bridged = none → s.times n = 0

/-- What a step forwards it forwards over the connection the printer is bridged over. -/
def Forwards (s s' : Bridge) : Prop :=
  ∃ fresh, s'.forwarded = s.forwarded ++ fresh ∧ fresh.length ≤ 1 ∧ ∀ f ∈ fresh, ∃ command,
    s.published[f.command]? = some command ∧ s.bridgedOver command.id = some f.connection

/-- The books of the bridge: who has which command. -/
structure Accounted (s : Bridge) : Prop where
  waits : ∀ c, ∀ n ∈ inboxAt s.connections c, n < s.published.length
  made : ∀ f ∈ s.forwarded, ∃ command, s.published[f.command]? = some command ∧ command.bridged = some f.connection
  /-- Only the connection of the time can still be received from. -/
  current : ∀ (c : ℕ) (conn : Connection) (n : ℕ) (command : Published), s.connections[c]? = some conn →
    n ∈ conn.inbox → s.published[n]? = some command → conn.printer.id = command.id → conn.reports.isSome →
    command.bridged = some c
  single : ∀ c n, s.waiting c n ≤ 1
  once : ∀ (n : ℕ) (command : Published) (c : ℕ), s.published[n]? = some command → command.bridged = some c →
    s.waiting c n + s.times n ≤ 1 ∧ (CommandRequest.known command.request → s.waiting c n + s.times n = 1)

section Steps

variable {s s' : Bridge} {c n t : ℕ} {conn conn' : Connection} {covers : String → String → Bool} {a : Action}

theorem forwards_length {handler : Handler} {request : Option CommandRequest} :
    (forwards conn handler c n request).length =
      if CommandRequest.known request ∧ conn.reader ≠ .stopped then 1 else 0 := by
  unfold forwards CommandRequest.known
  cases request with
  | none => simp
  | some cmd =>
    have same := @mqttPayload_isSome cmd (toString (handler.seqId + 1)) ""
    simp only [← same]
    cases mqttPayload cmd (toString (handler.seqId + 1)) with
    | none => simp
    | some payload => by_cases stopped : conn.reader = .stopped <;> simp [stopped]

theorem mem_forwards {handler : Handler} {request : Option CommandRequest} {f : Forward}
    (member : f ∈ forwards conn handler c n request) :
    f.command = n ∧ f.connection = c ∧ conn.reader ≠ .stopped ∧ CommandRequest.known request := by
  have length := List.length_pos_of_mem member
  rw [forwards_length] at length
  split at length
  · rename_i both
    refine ⟨?_, ?_, both.2, both.1⟩
    all_goals
      unfold forwards at member
      split at member
      · cases member
      · split at member
        · cases member
        · split at member
          · cases member
          · obtain rfl := List.mem_singleton.mp member
            rfl
  · omega

/-- What is forwarded is one command. -/
theorem countP_forwards {handler : Handler} {request : Option CommandRequest} {m : ℕ} :
    (forwards conn handler c n request).countP (·.command = m) =
      if m = n then (forwards conn handler c n request).length else 0 := by
  split
  · rename_i same
    exact List.countP_eq_length.mpr fun f made => decide_eq_true ((mem_forwards made).1.trans same.symm)
  · rename_i other
    refine List.countP_eq_zero.mpr fun f made => ?_
    rw [(mem_forwards made).1]
    simpa using Ne.symm other

theorem inboxAt_known {connections : List Connection} (known : connections[c]? = some conn) :
    inboxAt connections c = conn.inbox := by
  rw [inboxAt, known]
  rfl

/-- The subscriptions stay as they are, and nobody receives who has not before. -/
structure Quiet (before after : List Connection) : Prop where
  same : ∀ c, inboxAt after c = inboxAt before c
  receives : ∀ (c : ℕ) (conn' : Connection), after[c]? = some conn' → conn'.reports.isSome → conn'.inbox ≠ [] →
    ∃ conn, before[c]? = some conn ∧ conn.printer = conn'.printer ∧ conn.reports.isSome

theorem Quiet.set {connections : List Connection} (known : connections[c]? = some conn)
    (same : conn'.inbox = conn.inbox) (printer : conn.printer = conn'.printer)
    (receives : conn'.reports.isSome → conn.reports.isSome) : Quiet connections (connections.set c conn') := by
  constructor
  · intro c'
    unfold inboxAt
    rw [getElem?_set_known known]
    split
    · rename_i own
      rw [← own, known, Option.map_some, Option.map_some, same]
    · rfl
  · intro c' other found receiving _
    rw [getElem?_set_known known] at found
    split at found
    · rename_i own
      obtain rfl := Option.some.inj found
      exact ⟨conn, own ▸ known, printer, receives receiving⟩
    · exact ⟨other, found, rfl, receiving⟩

theorem Quiet.refl {connections : List Connection} : Quiet connections connections :=
  ⟨fun _ => rfl, fun _ conn found receiving _ => ⟨conn, found, rfl, receiving⟩⟩

theorem Quiet.hangUp {connections : List Connection} {which : Option ℕ} :
    Quiet connections (hangUp connections which) := by
  cases which with
  | none => exact Quiet.refl
  | some c =>
    constructor
    · intro c'
      simp only [inboxAt, Bridge.hangUp, List.getElem?_modify]
      cases connections[c']? with
      | none => rfl
      | some conn =>
        simp only [Option.map_eq_map, Option.map_some, Option.getD_some]
        split <;> rfl
    · intro c' conn' found receiving _
      simp only [Bridge.hangUp, List.getElem?_modify] at found
      obtain ⟨conn, old, rfl⟩ := Option.map_eq_some_iff.mp found
      split at receiving
      · cases receiving
      · rename_i other
        exact ⟨conn, old, by rw [if_neg other], receiving⟩

theorem Quiet.append {connections : List Connection} (silent : conn.handler = none) :
    Quiet connections (connections ++ [conn]) := by
  have empty : conn.inbox = [] := by simp [Connection.inbox, silent]
  constructor
  · intro c'
    unfold inboxAt
    rw [getElem?_append_one]
    split
    · rename_i last
      simp [last, empty]
    · rfl
  · intro c' conn' found receiving waits
    rw [getElem?_append_one] at found
    split at found
    · obtain rfl := Option.some.inj found
      exact absurd empty waits
    · exact ⟨conn', found, rfl, receiving⟩

/-- A step that neither publishes nor forwards. -/
structure Silent (s s' : Bridge) : Prop where
  published : s'.published = s.published
  forwarded : s'.forwarded = s.forwarded
  quiet : Quiet s.connections s'.connections

theorem Silent.leave {phase : Phase} : Silent s (s.leave t phase) := by
  unfold Bridge.leave
  split
  · exact ⟨rfl, rfl, Quiet.refl⟩
  · exact ⟨rfl, rfl, Quiet.hangUp⟩

theorem Silent.removePrinter {id : String} : Silent s (s.removePrinter id) := by
  unfold Bridge.removePrinter
  split
  · exact ⟨rfl, rfl, Quiet.refl⟩
  · exact ⟨Silent.leave.published, Silent.leave.forwarded, Silent.leave.quiet⟩

theorem Silent.handleEvent {e : BridgeEvent} : Silent s (s.handleEvent e) := by
  unfold Bridge.handleEvent
  split
  · exact ⟨Silent.removePrinter.published, Silent.removePrinter.forwarded, Silent.removePrinter.quiet⟩
  · exact Silent.removePrinter
  · exact ⟨rfl, rfl, Quiet.refl⟩

theorem Silent.receive {published : Bool} (taken : s.receive t c published = some s') : Silent s s' := by
  unfold Bridge.receive at taken
  split at taken
  · cases taken
  · rename_i conn found
    split at taken
    · rename_i report rest reader waiting
      split at taken
      · cases taken
        exact Silent.leave
      · cases taken
        exact ⟨rfl, rfl, Quiet.set found rfl rfl fun _ => by simp [waiting]⟩
    · cases taken
      exact Silent.leave
    · cases taken

theorem Silent.send (taken : s.send c = some s') : Silent s s' := by
  unfold Bridge.send at taken
  split at taken
  · cases taken
  · rename_i conn found
    split at taken
    · cases taken
      exact ⟨rfl, rfl, Quiet.set found rfl rfl id⟩
    · rename_i report waiting sending receiving
      split at taken
      · cases taken
        exact ⟨rfl, rfl, Quiet.set found rfl rfl fun _ => by simp [receiving]⟩
      · cases taken
    · cases taken

/-- A connection has no handler before its task subscribes. -/
theorem Silent.subscribe (linked : Linked s) {info : PrinterInfo} {tasks : List PrinterTask}
    (known : s.tasks[t]? = some ⟨info, .subscribing c⟩) :
    Silent s { s with
      tasks, connections := s.connections.modify c fun conn => { conn with handler := some (Handler.new info) } } := by
  have own := linked.attached.held t _ c known rfl
  obtain ⟨conn, found, link⟩ := by simpa [Bridge.links] using own
  have silent : conn.handler = none := by simpa [Connection.link] using congrArg Link.handled link
  have receiving : conn.reports.isSome := congrArg Link.receiving link
  have modified : (s.connections.modify c fun conn => { conn with handler := some (Handler.new info) }) =
      s.connections.set c { conn with handler := some (Handler.new info) } := by
    refine List.ext_getElem? fun i => ?_
    rw [List.getElem?_modify, getElem?_set_known found]
    split
    · rename_i same
      simp [← same, found]
    · simp
  refine ⟨rfl, rfl, ?_⟩
  rw [modified]
  exact Quiet.set found (by simp [Connection.inbox, silent, Handler.new]) rfl fun _ => receiving

theorem Accounted.silent (accounted : Accounted s) (silent : Silent s s') : Accounted s' := by
  obtain ⟨published, forwarded, quiet⟩ := silent
  have waiting : ∀ c n, s'.waiting c n = s.waiting c n := fun c n => by rw [Bridge.waiting, quiet.same]; rfl
  have times : ∀ n, s'.times n = s.times n := fun n => by rw [Bridge.times, forwarded]; rfl
  refine ⟨?_, ?_, ?_, ?_, ?_⟩
  · simpa only [quiet.same, published] using accounted.waits
  · simpa only [forwarded, published] using accounted.made
  · intro c conn' n command found waits listed own receiving
    obtain ⟨conn, old, printer, received⟩ := quiet.receives c conn' found receiving (List.ne_nil_of_mem waits)
    have same := quiet.same c
    rw [inboxAt_known found, inboxAt_known old] at same
    exact accounted.current c conn n command old (same ▸ waits) (published ▸ listed) (printer ▸ own) received
  · simpa only [waiting] using accounted.single
  · simpa only [waiting, times, published] using accounted.once

/-- All but two of the actions neither publish nor forward. -/
theorem Silent.step (linked : Linked s) (taken : s.step covers a = some s') :
    Silent s s' ∨ (∃ id request, a = .publish id request) ∨ ∃ c, a = .handle c := by
  cases a with
  | publish id request => exact .inr (.inl ⟨id, request, rfl⟩)
  | handle c => exact .inr (.inr ⟨c, rfl⟩)
  | event e =>
    cases taken
    exact .inl Silent.handleEvent
  | connect t ok =>
    simp only [Bridge.step] at taken
    split at taken
    · split at taken
      · cases taken
        exact .inl ⟨rfl, rfl, Quiet.append rfl⟩
      · cases taken
        exact .inl Silent.leave
    · cases taken
  | subscribe t ok =>
    simp only [Bridge.step] at taken
    split at taken
    · rename_i info c known
      split at taken
      · cases taken
        exact .inl (Silent.subscribe linked known)
      · cases taken
        exact .inl Silent.leave
    · cases taken
  | wake t =>
    simp only [Bridge.step] at taken
    split at taken
    · cases taken
      exact .inl ⟨rfl, rfl, Quiet.refl⟩
    · cases taken
  | receive t published =>
    simp only [Bridge.step] at taken
    split at taken
    · exact .inl (Silent.receive taken)
    · cases taken
  | report c status =>
    simp only [Bridge.step] at taken
    split at taken
    · rename_i conn found
      split at taken
      · cases taken
        exact .inl ⟨rfl, rfl, Quiet.set found rfl rfl id⟩
      · cases taken
    · cases taken
  | send c => exact .inl (Silent.send taken)

/-- A connection with a handler gets a command that its subscription covers. -/
theorem inbox_deliver {id : String} :
    (if covers conn.printer.id id then conn.deliver n else conn).inbox =
      conn.inbox ++ if conn.handler.isSome ∧ covers conn.printer.id id then [n] else [] := by
  cases spawned : conn.handler with
  | none => split <;> simp [Connection.inbox, Connection.deliver, spawned]
  | some handler => split <;> simp [Connection.inbox, Connection.deliver, *]

theorem inboxAt_deliver {connections : List Connection} {id : String} : ∃ extra,
    inboxAt (connections.map fun conn => if covers conn.printer.id id then conn.deliver n else conn) c =
      inboxAt connections c ++ extra ∧ (extra = [] ∨ extra = [n]) ∧ ∀ conn, connections[c]? = some conn →
        extra = if conn.handler.isSome ∧ covers conn.printer.id id then [n] else [] := by
  simp only [inboxAt, List.getElem?_map]
  cases connections[c]? with
  | none => exact ⟨[], rfl, .inl rfl, by simp⟩
  | some conn =>
    refine ⟨_, inbox_deliver, ?_, by simp⟩
    split
    · exact .inr rfl
    · exact .inl rfl

theorem Accounted.publish (accounted : Accounted s) (linked : Linked s) (own : ∀ id, covers id id) {id : String}
    {request : Option CommandRequest} (taken : s.step covers (.publish id request) = some s') : Accounted s' := by
  simp only [Bridge.step, Option.some.injEq] at taken
  subst taken
  have inbox := fun c => @inboxAt_deliver c s.published.length covers s.connections id
  have fresh : ∀ c, (inboxAt s.connections c).count s.published.length = 0 := fun c =>
    List.count_eq_zero.mpr fun member => absurd (accounted.waits c _ member) (Nat.lt_irrefl _)
  have unmade : s.times s.published.length = 0 := by
    refine List.countP_eq_zero.mpr fun f member => ?_
    obtain ⟨command, listed, -⟩ := accounted.made f member
    obtain ⟨inside, -⟩ := List.getElem?_eq_some_iff.mp listed
    simpa using Nat.ne_of_lt inside
  refine ⟨?_, ?_, ?_, ?_, ?_⟩
  · intro c n member
    obtain ⟨extra, grown, what, -⟩ := inbox c
    rw [List.length_append, List.length_singleton]
    rw [grown] at member
    rcases List.mem_append.mp member with old | new
    · exact Nat.lt_succ_of_lt (accounted.waits c n old)
    · rcases what with rfl | rfl
      · cases new
      · rw [List.mem_singleton.mp new]
        exact Nat.lt_succ_self _
  · intro f member
    obtain ⟨command, listed, bridged⟩ := accounted.made f member
    obtain ⟨inside, -⟩ := List.getElem?_eq_some_iff.mp listed
    exact ⟨command, by rwa [List.getElem?_append_left inside], bridged⟩
  · intro c conn' n command found waits listed name receiving
    obtain ⟨conn, old, rfl⟩ := by simpa [List.getElem?_map] using found
    have waits' := waits
    rw [inbox_deliver] at waits'
    rw [getElem?_append_one] at listed
    have keeps : (if covers conn.printer.id id then conn.deliver s.published.length else conn).reports = conn.reports ∧
        (if covers conn.printer.id id then conn.deliver s.published.length else conn).printer = conn.printer := by
      split <;> exact ⟨rfl, rfl⟩
    rw [keeps.1] at receiving
    rw [keeps.2] at name
    split at listed
    · rename_i last
      obtain rfl := Option.some.inj listed
      have subscribed : conn.handler.isSome := by
        by_contra silent
        rw [if_neg (by simp [silent]), List.append_nil, ← inboxAt_known old, last] at waits'
        exact absurd (accounted.waits c _ waits') (Nat.lt_irrefl _)
      dsimp only at name ⊢
      rw [← name]
      exact linked.bridged old receiving subscribed
    · rename_i before
      rcases List.mem_append.mp waits' with kept | new
      · exact accounted.current c conn n command old kept listed name receiving
      · split at new
        · exact absurd (List.mem_singleton.mp new) before
        · cases new
  · intro c n
    obtain ⟨extra, grown, what, -⟩ := inbox c
    have single := accounted.single c n
    unfold Bridge.waiting at single ⊢
    dsimp only
    rw [grown, List.count_append]
    rcases what with rfl | rfl
    · simpa using single
    · by_cases last : n = s.published.length
      · subst last
        simp [fresh c]
      · simpa [List.count_singleton, Ne.symm last] using single
  · intro n command c listed bridged
    obtain ⟨extra, grown, what, which⟩ := inbox c
    unfold Bridge.waiting
    dsimp only
    rw [getElem?_append_one] at listed
    rw [grown, List.count_append]
    split at listed
    · rename_i last
      subst last
      obtain rfl := Option.some.inj listed
      obtain ⟨conn, found, name, -, spawned⟩ := linked.current bridged
      have one : extra = [s.published.length] := by
        rw [which conn found, if_pos ⟨spawned, name ▸ own conn.printer.id⟩]
      have times : s.times s.published.length = 0 := unmade
      simp only [Bridge.times] at times ⊢
      simp [one, fresh c, times]
    · rename_i before
      have none : extra.count n = 0 := by
        rcases what with rfl | rfl
        · rfl
        · simpa [List.count_singleton] using Ne.symm before
      rw [none, Nat.add_zero]
      exact accounted.once n command c listed bridged

theorem inboxAt_handle {handler handler' : Handler} {inbox : List ℕ} {c' : ℕ}
    (found : s.connections[c]? = some conn) (spawned : conn.handler = some handler) (first : handler.inbox = n :: inbox)
    (rest : handler'.inbox = inbox) : inboxAt s.connections c' =
      (if c = c' then [n] else []) ++ inboxAt (s.connections.set c { conn with handler := some handler' }) c' := by
  unfold inboxAt
  rw [getElem?_set_known found]
  split
  · rename_i own
    simp [← own, found, Connection.inbox, spawned, first, rest]
  · rfl

/-- A handler that is in time forwards over the connection of the command. -/
theorem Accounted.forwards (accounted : Accounted s) (linked : Linked s) {handler : Handler}
    {inbox : List ℕ} {command : Published} (found : s.connections[c]? = some conn)
    (spawned : conn.handler = some handler) (first : handler.inbox = n :: inbox)
    (listed : s.published[n]? = some command) (known : CommandRequest.known command.request)
    (allowed : s.inTime (.handle c)) :
    (conn.reader ≠ .stopped → s.bridgedOver command.id = some c) ∧
      (conn.reader ≠ .stopped ↔ command.bridged = some c) := by
  have waits : conn.inbox = n :: inbox := by simp [Connection.inbox, spawned, first]
  have next : s.next conn = some command := by simp [Bridge.next, waits, listed]
  simp only [Bridge.inTime, found, next, known, Bool.not_true, Bool.false_or, Bool.or_eq_true, Bool.and_eq_true,
    decide_eq_true_eq] at allowed
  rcases allowed with ⟨receiving, name⟩ | ⟨stopped, other⟩
  · have running : conn.reader ≠ .stopped := by
      intro stopped
      rw [linked.stopped conn (List.mem_of_getElem? found) stopped] at receiving
      cases receiving
    have bridged := accounted.current c conn n command found (by simp [waits]) listed name.symm receiving
    refine ⟨fun _ => ?_, by simp [running, bridged]⟩
    rw [name]
    exact linked.bridged found receiving (by simp [spawned])
  · exact ⟨fun running => absurd stopped running, by simp [stopped, other]⟩

theorem Accounted.handle (accounted : Accounted s) (linked : Linked s) (allowed : s.inTime (.handle c))
    (taken : s.handle c = some s') : Accounted s' ∧ s.Forwards s' := by
  obtain ⟨conn, handler, n, inbox, seqId, found, spawned, first, rfl⟩ := Bridge.handle_cases taken
  have split := fun c' => @inboxAt_handle s c n conn handler { handler with seqId, inbox } inbox c' found spawned first rfl
  have member : n ∈ inboxAt s.connections c := by simp [split c]
  have inside := accounted.waits c n member
  obtain ⟨command, listed⟩ : ∃ command, s.published[n]? = some command := ⟨_, List.getElem?_eq_getElem inside⟩
  have request : s.request n = command.request := by simp [Bridge.request, listed]
  have live := fun known => accounted.forwards linked found spawned first listed known allowed
  have fresh : ∀ f ∈ Bridge.forwards conn handler c n (s.request n), f.command = n ∧ f.connection = c ∧
      s.bridgedOver command.id = some c ∧ command.bridged = some c := by
    intro f made
    obtain ⟨same, own, running, known⟩ := mem_forwards made
    obtain ⟨now, already⟩ := live (request ▸ known)
    exact ⟨same, own, now running, already.mp running⟩
  have length := @forwards_length c n conn handler (s.request n)
  -- The connection of its time forwards a command that is known, and no other one does.
  have settled : command.bridged = some c → CommandRequest.known command.request →
      (Bridge.forwards conn handler c n (s.request n)).length = 1 := by
    intro bridged known
    rw [length, request, if_pos ⟨known, (live known).2.mpr bridged⟩]
  have foreign : command.bridged ≠ some c → Bridge.forwards conn handler c n (s.request n) = [] := by
    intro other
    refine List.eq_nil_iff_forall_not_mem.mpr fun f made => ?_
    exact other (fresh f made).2.2.2
  refine ⟨⟨?_, ?_, ?_, ?_, ?_⟩, ?_⟩
  · intro c' m waits
    exact accounted.waits c' m (by rw [split c']; exact List.mem_append_right _ waits)
  · intro f made
    rcases List.mem_append.mp made with old | new
    · exact accounted.made f old
    · obtain ⟨same, own, -, bridged⟩ := fresh f new
      exact ⟨command, same ▸ listed, own ▸ bridged⟩
  · intro c' conn' m command' found' waits listed' name receiving
    rw [getElem?_set_known found] at found'
    split at found'
    · rename_i own
      obtain rfl := Option.some.inj found'
      refine accounted.current c' conn m command' (own ▸ found) ?_ listed' name receiving
      have tail : m ∈ inbox := waits
      simp [Connection.inbox, spawned, first, tail]
    · exact accounted.current c' conn' m command' found' waits listed' name receiving
  · intro c' m
    have single := accounted.single c' m
    rw [Bridge.waiting, split c', List.count_append] at single
    exact Nat.le_trans (Nat.le_add_left _ _) single
  · intro m command' c' listed' bridged
    have once := accounted.once m command' c' listed' bridged
    simp only [Bridge.waiting, Bridge.times] at once ⊢
    rw [split c', List.count_append] at once
    rw [List.countP_append, countP_forwards]
    by_cases same : m = n
    · subst same
      rw [listed] at listed'
      obtain rfl := Option.some.inj listed'
      rw [if_pos rfl]
      by_cases own : c = c'
      · subst own
        simp only [if_true, List.count_singleton_self] at once
        refine ⟨?_, fun known => ?_⟩
        · have atMost : (Bridge.forwards conn handler c m (s.request m)).length ≤ 1 := by
            rw [length]
            split <;> omega
          omega
        · have one := settled bridged known
          omega
      · have none := foreign (by rw [bridged]; simpa using Ne.symm own)
        simpa [none, own] using once
    · rw [if_neg same]
      by_cases own : c = c'
      · simpa [own, List.count_singleton, Ne.symm same] using once
      · simpa [own] using once
  · refine ⟨_, rfl, by rw [length]; split <;> omega, fun f made => ?_⟩
    obtain ⟨rfl, rfl, now, -⟩ := fresh f made
    exact ⟨command, listed, now⟩

theorem Accounted.step (accounted : Accounted s) (linked : Linked s) (own : ∀ id, covers id id)
    (allowed : s.inTime a) (taken : s.step covers a = some s') : Accounted s' ∧ s.Forwards s' := by
  have nothing : s'.forwarded = s.forwarded → s.Forwards s' :=
    fun same => ⟨[], by rw [same, List.append_nil], by simp, by simp⟩
  rcases Silent.step linked taken with silent | ⟨id, request, rfl⟩ | ⟨c, rfl⟩
  · exact ⟨accounted.silent silent, nothing silent.forwarded⟩
  · refine ⟨accounted.publish linked own taken, ?_⟩
    cases taken
    exact nothing rfl
  · exact accounted.handle linked allowed taken

theorem accounted (own : ∀ id, covers id id) (reached : (bridge covers).Reaches (fun s a => s.inTime a) s) :
    Accounted s := by
  refine reached.invariant_with Linked Accounted (fun _ before => linked before.reachable) ?_
    fun _ _ _ linked before allowed taken => (before.step linked own allowed taken).1
  exact ⟨by simp [bridge, inboxAt], by simp [bridge], by simp [bridge], by simp [bridge, Bridge.waiting, inboxAt],
    by simp [bridge]⟩

theorem Accounted.once_all (accounted : Accounted s) : ForwardedOnce s := by
  have made : ∀ n, s.times n ≠ 0 → ∃ command c, s.published[n]? = some command ∧ command.bridged = some c := by
    intro n some_
    obtain ⟨f, member, same⟩ := List.countP_pos_iff.mp (Nat.pos_of_ne_zero some_)
    obtain ⟨command, listed, bridged⟩ := accounted.made f member
    exact ⟨command, f.connection, by simpa [← of_decide_eq_true same] using listed, bridged⟩
  refine ⟨fun n => ?_, fun n command c listed known bridged => (accounted.once n command c listed bridged).2 known,
    fun n command listed nobody => ?_⟩
  · by_cases none : s.times n = 0
    · omega
    · obtain ⟨command, c, listed, bridged⟩ := made n none
      have once := (accounted.once n command c listed bridged).1
      omega
  · by_contra some_
    obtain ⟨command', c, listed', bridged⟩ := made n some_
    rw [listed] at listed'
    obtain rfl := Option.some.inj listed'
    rw [nobody] at bridged
    cases bridged

/-- What a handler forwards when it is not in time is forwarded wrongly, or lost. -/
theorem Accounted.late (accounted : Accounted s) (linked : Linked s) (late : ¬s.inTime a)
    (taken : s.step covers a = some s') : ¬(ForwardedOnce s' ∧ s.Forwards s') := by
  cases a with
  | handle c =>
    rintro ⟨once, forwards⟩
    obtain ⟨conn, handler, n, inbox, seqId, found, spawned, first, rfl⟩ := Bridge.handle_cases taken
    have split := @inboxAt_handle s c n conn handler { handler with seqId, inbox } inbox c found spawned first rfl
    have inside := accounted.waits c n (by simp [split])
    obtain ⟨command, listed⟩ : ∃ command, s.published[n]? = some command := ⟨_, List.getElem?_eq_getElem inside⟩
    have next : s.next conn = some command := by simp [Bridge.next, Connection.inbox, spawned, first, listed]
    have request : s.request n = command.request := by simp [Bridge.request, listed]
    simp only [Bridge.inTime, found, next, Bool.or_eq_true, Bool.and_eq_true, Bool.not_eq_true', decide_eq_true_eq,
      not_or, Bool.not_eq_false] at late
    obtain ⟨⟨known, foreign⟩, kept⟩ := late
    have length := @forwards_length c n conn handler (s.request n)
    by_cases stopped : conn.reader = .stopped
    · have bridged : command.bridged = some c := by
        by_contra other
        exact kept ⟨stopped, other⟩
      have before := (accounted.once n command c listed bridged).2 known
      have after := once.exactly n command c listed known bridged
      rw [if_neg (by simp [stopped]), List.length_eq_zero_iff] at length
      simp only [Bridge.waiting, Bridge.times, length, List.append_nil] at before after
      rw [split, List.count_append] at before
      simp at before
      omega
    · obtain ⟨fresh, grown, -, live⟩ := forwards
      rw [if_pos ⟨request ▸ known, stopped⟩] at length
      have same : Bridge.forwards conn handler c n (s.request n) = fresh := List.append_cancel_left grown
      obtain ⟨f, only⟩ := List.length_eq_one_iff.mp length
      have member : f ∈ Bridge.forwards conn handler c n (s.request n) := by simp [only]
      obtain ⟨rfl, rfl, -, -⟩ := mem_forwards member
      obtain ⟨command', listed', now⟩ := live f (same ▸ member)
      rw [listed] at listed'
      obtain rfl := Option.some.inj listed'
      obtain ⟨conn', found', name, receiving, -⟩ := linked.current now
      rw [found] at found'
      obtain rfl := Option.some.inj found'
      exact foreign ⟨receiving, name.symm⟩
  | _ => exact absurd rfl late

end Steps

end Bridge

section Runs

variable {covers : String → String → Bool} {s : Bridge}

/-- **Every command is forwarded once**: over the connection the printer was bridged over
when it was published, while the printer is bridged over it, and never otherwise; as long
as every handler is in time, and no longer. -/
theorem forwarded_once (own : ∀ id, covers id id) (reached : (bridge covers).Reaches (fun s a => s.inTime a) s) :
    s.ForwardedOnce ∧ ∀ a s', s.step covers a = some s' → (s.inTime a ↔ s'.ForwardedOnce ∧ s.Forwards s') := by
  have accounted := Bridge.accounted own reached
  have linked := linked reached.reachable
  refine ⟨accounted.once_all, fun a s' taken => ⟨fun allowed => ?_, fun right => ?_⟩⟩
  · obtain ⟨after, forwards⟩ := accounted.step linked own allowed taken
    exact ⟨after.once_all, forwards⟩
  · by_contra late
    exact accounted.late linked late taken right

end Runs

section Examples

/-- Ids without a wildcard. -/
def literal (subscribed id : String) : Bool := subscribed = id

def workshop : PrinterInfo := ⟨"01P00", "workshop", "10.0.0.7", "01P00", "12345678", "X1C"⟩

def added : Action := .event { event := "printer_added", printer := some workshop }

def removed : Action := .event { event := "printer_removed", id := some "01P00" }

def pause : Action := .publish "01P00" (some { command := "pause" })

theorem forwarded_once_pause : ∃ s, (bridge literal).Reaches (fun s a => s.inTime a) s ∧
    s.published.map (fun command => (command.id, command.bridged)) = [("01P00", some 0)] ∧ s.times 0 = 1 := by
  have ran : ((bridge literal).guard fun s a => s.inTime a).run (bridge literal).initial
      [added, .connect 0 true, .subscribe 0 true, pause, .handle 0] |>.any fun s =>
        s.published.map (fun command => (command.id, command.bridged)) = [("01P00", some 0)] ∧
          (∃ command ∈ s.published[0]?, command.bridged = some 0 ∧ CommandRequest.known command.request) ∧
          s.waiting 0 0 = 0 := by decide
  obtain ⟨s, ran, final⟩ := (Option.any_eq_true _ _).mp ran
  obtain ⟨published, ⟨command, listed, bridged, known⟩, handled⟩ := of_decide_eq_true final
  have reached := Machine.Reaches.run .initial ran
  have once := (forwarded_once (by simp [literal]) reached).1.exactly 0 command 0 listed known bridged
  exact ⟨s, reached, published, by omega⟩

/-- The printer is removed while it is offline, and its handler still forwards; when it is
added again, both handlers do. -/
theorem forwarded_once_fails : ∃ s, (bridge literal).Reachable s ∧
    s.published.map (fun command => (command.id, command.bridged)) = [("01P00", none), ("01P00", some 1)] ∧
    s.times 0 = 1 ∧ s.times 1 = 2 ∧ ¬s.ForwardedOnce := by
  have ran : ((bridge literal).run (bridge literal).initial
      [added, .connect 0 true, .subscribe 0 true, removed, pause, .handle 0,
        added, .connect 1 true, .subscribe 1 true, pause, .handle 0, .handle 1]).any fun s =>
        s.published.map (fun command => (command.id, command.bridged)) = [("01P00", none), ("01P00", some 1)] ∧
          s.times 0 = 1 ∧ s.times 1 = 2 := by decide
  obtain ⟨s, ran, final⟩ := (Option.any_eq_true _ _).mp ran
  obtain ⟨published, stray, twice⟩ := of_decide_eq_true final
  refine ⟨s, Machine.Reachable.run .initial ran, published, stray, twice, fun once => ?_⟩
  have atMost := once.atMost 1
  omega

end Examples

end RndRust.Bambu
