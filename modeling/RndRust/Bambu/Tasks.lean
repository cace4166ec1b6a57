import RndRust.Bambu.PrinterManager
import RndRust.Lib.Updates

/-! Which task receives the reports of which connection, over all runs of the bridge. -/
namespace RndRust.Bambu
open Lib

/-- What concerns the task of a connection. -/
structure Link where
  task : ℕ
  printer : PrinterInfo
  receiving : Bool
  handled : Bool
  deriving DecidableEq

def Connection.link (conn : Connection) : Link :=
  ⟨conn.task, conn.printer, conn.reports.isSome, conn.handler.isSome⟩

def Bridge.links (s : Bridge) : List Link := s.connections.map Connection.link

/-- The printers that are registered are those whose tasks were not aborted. -/
structure Registered (tasks : List PrinterTask) (printers : Table String ℕ) : Prop where
  running : ∀ id t, printers.lookup id = some t → ∃ task, tasks[t]? = some task ∧ task.info.id = id ∧ task.phase ≠ .aborted
  listed : ∀ (t : ℕ) (task : PrinterTask), tasks[t]? = some task → task.phase ≠ .aborted → printers.lookup task.info.id = some t

/-- The connections that are received from are those the tasks say they are at. -/
structure Attached (tasks : List PrinterTask) (links : List Link) : Prop where
  held : ∀ (t : ℕ) (task : PrinterTask) (c : ℕ), tasks[t]? = some task → task.phase.connection = some c →
    links[c]? = some ⟨t, task.info, true, task.phase = .bridging c⟩
  owned : ∀ (c : ℕ) (link : Link), links[c]? = some link → link.receiving → ∃ task, tasks[link.task]? = some task ∧
    task.phase.connection = some c

section Tasks

variable {tasks : List PrinterTask} {printers : Table String ℕ} {links : List Link} {t c : ℕ} {task : PrinterTask}
  {phase : Phase} {info : PrinterInfo}

theorem Registered.move (registered : Registered tasks printers) (known : tasks[t]? = some task)
    (before : task.phase ≠ .aborted) (after : phase ≠ .aborted) :
    Registered (tasks.set t { task with phase }) printers := by
  constructor
  · intro id t' found
    obtain ⟨task', listed, own, alive⟩ := registered.running id t' found
    rw [getElem?_set_known known]
    split
    · rename_i same
      subst same
      obtain rfl : task = task' := Option.some.inj (known.symm.trans listed)
      exact ⟨_, rfl, own, after⟩
    · exact ⟨task', listed, own, alive⟩
  · intro t' task' listed alive
    rw [getElem?_set_known known] at listed
    split at listed
    · rename_i same
      subst same
      obtain rfl := Option.some.inj listed
      exact registered.listed t task known before
    · exact registered.listed t' task' listed alive

theorem Registered.remove (registered : Registered tasks printers) {id : String} (found : printers.lookup id = some t)
    (known : tasks[t]? = some task) : Registered (tasks.set t { task with phase := .aborted }) (printers.erase id) := by
  constructor
  · intro id' t' found'
    rw [Table.lookup_erase_eq] at found'
    split at found'
    · cases found'
    · rename_i other
      obtain ⟨task', listed, own, alive⟩ := registered.running id' t' found'
      rw [getElem?_set_known known, if_neg]
      · exact ⟨task', listed, own, alive⟩
      · rintro rfl
        -- The task of another printer has another id.
        obtain ⟨task'', listed', own', -⟩ := registered.running id t found
        rw [listed] at listed'
        obtain rfl := Option.some.inj listed'
        exact other (own.symm.trans own')
  · intro t' task' listed alive
    rw [getElem?_set_known known] at listed
    split at listed
    · obtain rfl := Option.some.inj listed
      exact absurd rfl alive
    · rename_i other
      rw [Table.lookup_erase_eq, if_neg]
      · exact registered.listed t' task' listed alive
      · rintro same
        have again := registered.listed t' task' listed alive
        rw [same, found] at again
        exact other (Option.some.inj again)

theorem Registered.add (registered : Registered tasks printers) (free : printers.lookup info.id = none) :
    Registered (tasks ++ [⟨info, .connecting⟩]) (printers.insert info.id tasks.length) := by
  constructor
  · intro id t' found
    rw [Table.lookup_insert_eq] at found
    split at found
    · rename_i same
      obtain rfl := Option.some.inj found
      exact ⟨⟨info, .connecting⟩, by simp, same.symm, by simp⟩
    · obtain ⟨task', listed, rest⟩ := registered.running id t' found
      obtain ⟨inside, -⟩ := List.getElem?_eq_some_iff.mp listed
      exact ⟨task', by rwa [List.getElem?_append_left inside], rest⟩
  · intro t' task' listed alive
    rw [getElem?_append_one] at listed
    rw [Table.lookup_insert_eq]
    split at listed
    · rename_i last
      obtain rfl := Option.some.inj listed
      rw [if_pos rfl, last]
    · have own := registered.listed t' task' listed alive
      rw [if_neg, own]
      intro same
      rw [same, free] at own
      cases own

theorem Attached.idle (attached : Attached tasks links) (known : tasks[t]? = some task)
    (before : task.phase.connection = none) (after : phase.connection = none) :
    Attached (tasks.set t { task with phase }) links := by
  constructor
  · intro t' task' c listed at_
    rw [getElem?_set_known known] at listed
    split at listed
    · obtain rfl := Option.some.inj listed
      rw [after] at at_
      cases at_
    · exact attached.held t' task' c listed at_
  · intro c link found receiving
    obtain ⟨task', listed, at_⟩ := attached.owned c link found receiving
    refine ⟨task', ?_, at_⟩
    rw [getElem?_set_known known, if_neg]
    · exact listed
    · rintro rfl
      rw [known] at listed
      obtain rfl := Option.some.inj listed
      rw [before] at at_
      cases at_

theorem Attached.add (attached : Attached tasks links) : Attached (tasks ++ [⟨info, .connecting⟩]) links := by
  constructor
  · intro t' task' c listed at_
    rw [getElem?_append_one] at listed
    split at listed
    · obtain rfl := Option.some.inj listed
      cases at_
    · exact attached.held t' task' c listed at_
  · intro c link found receiving
    obtain ⟨task', listed, at_⟩ := attached.owned c link found receiving
    obtain ⟨inside, -⟩ := List.getElem?_eq_some_iff.mp listed
    exact ⟨task', by rwa [List.getElem?_append_left inside], at_⟩

/-- A task that is at no connection opens one. -/
theorem Attached.connect (attached : Attached tasks links) (known : tasks[t]? = some task)
    (before : task.phase.connection = none) :
    Attached (tasks.set t { task with phase := .subscribing links.length }) (links ++ [⟨t, task.info, true, false⟩]) := by
  constructor
  · intro t' task' c listed at_
    rw [getElem?_set_known known] at listed
    split at listed
    · rename_i same
      subst same
      obtain rfl := Option.some.inj listed
      obtain rfl : links.length = c := Option.some.inj at_
      simp
    · have own := attached.held t' task' c listed at_
      obtain ⟨inside, -⟩ := List.getElem?_eq_some_iff.mp own
      rwa [List.getElem?_append_left inside]
  · intro c link found receiving
    rw [getElem?_append_one] at found
    split at found
    · rename_i last
      obtain rfl := Option.some.inj found
      exact ⟨_, by rw [getElem?_set_known known, if_pos rfl], by rw [last]; rfl⟩
    · obtain ⟨task', listed, at_⟩ := attached.owned c link found receiving
      refine ⟨task', ?_, at_⟩
      rw [getElem?_set_known known, if_neg]
      · exact listed
      · rintro rfl
        rw [known] at listed
        obtain rfl := Option.some.inj listed
        rw [before] at at_
        cases at_

/-- The task's handler runs. -/
theorem Attached.subscribe (attached : Attached tasks links) (known : tasks[t]? = some ⟨info, .subscribing c⟩) :
    Attached (tasks.set t ⟨info, .bridging c⟩) (links.set c ⟨t, info, true, true⟩) := by
  have own := attached.held t _ c known rfl
  constructor
  · intro t' task' c' listed at_
    rw [getElem?_set_known known] at listed
    rw [getElem?_set_known own]
    split at listed
    · rename_i same
      subst same
      obtain rfl := Option.some.inj listed
      obtain rfl : c = c' := Option.some.inj at_
      simp
    · rename_i other
      have theirs := attached.held t' task' c' listed at_
      rw [if_neg]
      · exact theirs
      · rintro rfl
        rw [own] at theirs
        exact other (congrArg Link.task (Option.some.inj theirs))
  · intro c' link found receiving
    rw [getElem?_set_known own] at found
    rw [getElem?_set_known known]
    split at found
    · rename_i same
      subst same
      obtain rfl := Option.some.inj found
      exact ⟨_, if_pos rfl, rfl⟩
    · rename_i other
      obtain ⟨task', listed, at_⟩ := attached.owned c' link found receiving
      rw [if_neg]
      · exact ⟨task', listed, at_⟩
      · intro same
        rw [← same, known] at listed
        obtain rfl := Option.some.inj listed
        exact other (Option.some.inj at_)

/-- The task drops its receiver. -/
theorem Attached.leave (attached : Attached tasks links) (known : tasks[t]? = some task)
    (at_ : task.phase.connection = some c) (after : phase.connection = none) :
    Attached (tasks.set t { task with phase })
      (links.modify c fun link => { link with receiving := false }) := by
  have own := attached.held t task c known at_
  constructor
  · intro t' task' c' listed there
    rw [getElem?_set_known known] at listed
    split at listed
    · obtain rfl := Option.some.inj listed
      rw [after] at there
      cases there
    · rename_i other
      have theirs := attached.held t' task' c' listed there
      have apart : c ≠ c' := by
        rintro rfl
        rw [own] at theirs
        exact other (congrArg Link.task (Option.some.inj theirs))
      simp [theirs, apart]
  · intro c' link found receiving
    rw [List.getElem?_modify] at found
    obtain ⟨link', found', rfl⟩ := Option.map_eq_some_iff.mp found
    split at receiving
    · cases receiving
    · rename_i other
      simp only [if_neg other]
      obtain ⟨task', listed, there⟩ := attached.owned c' link' found' receiving
      refine ⟨task', ?_, there⟩
      rw [getElem?_set_known known, if_neg]
      · exact listed
      · intro same
        rw [← same, known] at listed
        obtain rfl := Option.some.inj listed
        exact other (Option.some.inj (at_.symm.trans there))

end Tasks

/-- What the tasks, the printers and the connections say of each other. -/
structure Linked (s : Bridge) : Prop where
  registered : Registered s.tasks s.printers
  attached : Attached s.tasks s.links
  /-- An event loop stops only because nobody receives. -/
  stopped : ∀ conn ∈ s.connections, conn.reader = .stopped → conn.reports = none

section Steps

variable {s s' : Bridge} {t c : ℕ} {task : PrinterTask} {phase : Phase} {conn conn' : Connection}

theorem Bridge.getElem?_links (known : s.connections[c]? = some conn) : s.links[c]? = some conn.link := by
  rw [links, List.getElem?_map, known]
  rfl

/-- Nothing changes for the tasks when a connection keeps its link. -/
theorem Bridge.links_set (known : s.connections[c]? = some conn) (same : conn'.link = conn.link) :
    (s.connections.set c conn').map Connection.link = s.links := by
  obtain ⟨inside, own⟩ := List.getElem?_eq_some_iff.mp (getElem?_links known)
  rw [List.map_set, same, ← own]
  exact List.set_getElem_self inside

theorem map_link_modify {connections : List Connection} {f : Connection → Connection} (g : Link → Link)
    (same : ∀ conn, (f conn).link = g conn.link) :
    (connections.modify c f).map Connection.link = (connections.map Connection.link).modify c g := by
  refine List.ext_getElem? fun i => ?_
  simp only [List.getElem?_map, List.getElem?_modify]
  cases connections[i]? with
  | none => rfl
  | some conn =>
    simp only [Option.map_eq_map, Option.map_some, Option.some.injEq]
    split
    · exact same conn
    · rfl

theorem mem_modify {connections : List Connection} {f : Connection → Connection}
    (member : conn ∈ connections.modify c f) : ∃ before ∈ connections, conn = before ∨ conn = f before := by
  obtain ⟨i, found⟩ := List.getElem?_of_mem member
  rw [List.getElem?_modify] at found
  obtain ⟨before, old, rfl⟩ := Option.map_eq_some_iff.mp found
  refine ⟨before, List.mem_of_getElem? old, ?_⟩
  split
  · exact .inr rfl
  · exact .inl rfl

theorem Linked.hangUp_stopped (linked : Linked s) (which : Option ℕ) :
    ∀ conn ∈ Bridge.hangUp s.connections which, conn.reader = .stopped → conn.reports = none := by
  intro conn member stopped
  cases which with
  | none => exact linked.stopped conn member stopped
  | some c =>
    obtain ⟨before, old, rfl | rfl⟩ := mem_modify member
    · exact linked.stopped conn old stopped
    · rfl

theorem Linked.hangUp (linked : Linked s) (known : s.tasks[t]? = some task) (after : phase.connection = none) :
    Attached (s.tasks.set t { task with phase })
      ((Bridge.hangUp s.connections task.phase.connection).map Connection.link) := by
  cases there : task.phase.connection with
  | none => exact linked.attached.idle known there after
  | some c =>
    rw [Bridge.hangUp, map_link_modify (fun link => { link with receiving := false }) fun conn => rfl]
    exact linked.attached.leave known there after

/-- A bridge that fails is tried again. -/
theorem Linked.fail (linked : Linked s) (known : s.tasks[t]? = some task) (alive : task.phase ≠ .aborted) :
    Linked (s.leave t .sleeping) := by
  simp only [Bridge.leave, known]
  exact ⟨linked.registered.move known alive (by simp), linked.hangUp known rfl,
    linked.hangUp_stopped task.phase.connection⟩

theorem Linked.removePrinter (linked : Linked s) (id : String) : Linked (s.removePrinter id) := by
  unfold Bridge.removePrinter
  split
  · exact linked
  · rename_i t found
    obtain ⟨task, known, -, -⟩ := linked.registered.running id t found
    simp only [Bridge.leave, known]
    exact ⟨linked.registered.remove found known, linked.hangUp known rfl,
      linked.hangUp_stopped task.phase.connection⟩

theorem Bridge.removePrinter_lookup (s : Bridge) (id : String) : (s.removePrinter id).printers.lookup id = none := by
  unfold removePrinter
  split
  · assumption
  · exact AList.lookup_erase id s.printers

theorem Linked.handleEvent (linked : Linked s) (e : BridgeEvent) : Linked (s.handleEvent e) := by
  unfold Bridge.handleEvent
  split
  · rename_i printer _ _
    have removed := linked.removePrinter printer.id
    exact ⟨removed.registered.add (s.removePrinter_lookup printer.id), removed.attached.add, removed.stopped⟩
  · exact linked.removePrinter _
  · exact linked

/-- A step that touches one connection, and not what concerns its task. -/
theorem Linked.touch (linked : Linked s) {published : List Published} {forwarded : List Forward}
    (known : s.connections[c]? = some conn) (same : conn'.link = conn.link)
    (stops : conn'.reader = .stopped → conn'.reports = none) :
    Linked { s with connections := s.connections.set c conn', published, forwarded } := by
  refine ⟨linked.registered, ?_, ?_⟩
  · have links := Bridge.links_set known same
    simpa only [Bridge.links, links] using linked.attached
  · intro other member stopped
    rcases List.mem_or_eq_of_mem_set member with old | rfl
    · exact linked.stopped other old stopped
    · exact stops stopped

theorem Linked.receive (linked : Linked s) (known : s.tasks[t]? = some task) (at_ : task.phase = .bridging c)
    {published : Bool} (taken : s.receive t c published = some s') : Linked s' := by
  have alive : task.phase ≠ .aborted := by simp [at_]
  unfold Bridge.receive at taken
  split at taken
  · cases taken
  · rename_i conn found
    split at taken
    · rename_i report rest reader waiting
      split at taken
      · cases taken
        exact linked.fail known alive
      · cases taken
        refine linked.touch found ?_ ?_
        · simp [Connection.link, waiting]
        · intro stopped
          have gone := linked.stopped conn (List.mem_of_getElem? found) stopped
          rw [waiting] at gone
          cases gone
    · cases taken
      exact linked.fail known alive
    · cases taken

theorem Linked.send (linked : Linked s) (taken : s.send c = some s') : Linked s' := by
  unfold Bridge.send at taken
  split at taken
  · cases taken
  · rename_i conn found
    split at taken
    · rename_i nobody
      cases taken
      exact linked.touch found (by simp [Connection.link]) fun _ => nobody
    · rename_i report waiting sending receiving
      split at taken
      · cases taken
        exact linked.touch found (by simp [Connection.link, receiving]) (by simp)
      · cases taken
    · cases taken

theorem Bridge.handle_cases (taken : s.handle c = some s') : ∃ conn handler n inbox seqId,
    s.connections[c]? = some conn ∧ conn.handler = some handler ∧ handler.inbox = n :: inbox ∧
    s' = { s with
      connections := s.connections.set c { conn with handler := some { handler with seqId, inbox } }
      forwarded := s.forwarded ++ forwards conn handler c n (s.request n) } := by
  unfold handle at taken
  split at taken
  · cases taken
  · rename_i conn found
    split at taken
    · cases taken
    · rename_i handler spawned
      split at taken
      · cases taken
      · rename_i n inbox waiting
        cases taken
        exact ⟨conn, handler, n, inbox, _, found, spawned, waiting, rfl⟩

variable {covers : String → String → Bool} {a : Action}

theorem Linked.step (linked : Linked s) (taken : s.step covers a = some s') : Linked s' := by
  cases a with
  | event e =>
    cases taken
    exact linked.handleEvent e
  | connect t ok =>
    simp only [Bridge.step] at taken
    split at taken
    · rename_i info known
      split at taken
      · cases taken
        refine ⟨linked.registered.move known (by simp) (by simp), ?_, ?_⟩
        · simpa [Bridge.links, Connection.link] using linked.attached.connect known rfl
        · simpa [or_imp, forall_and] using linked.stopped
      · cases taken
        exact linked.fail known (by simp)
    · cases taken
  | subscribe t ok =>
    simp only [Bridge.step] at taken
    split at taken
    · rename_i info c known
      split at taken
      · cases taken
        refine ⟨linked.registered.move known (by simp) (by simp), ?_, ?_⟩
        · have own := linked.attached.held t _ c known rfl
          have links : (s.connections.modify c fun conn => { conn with handler := some (Handler.new info) }).map
              Connection.link = s.links.set c ⟨t, info, true, true⟩ := by
            rw [map_link_modify (fun link => { link with handled := true }) fun conn => rfl]
            refine List.ext_getElem? fun i => ?_
            rw [List.getElem?_modify, getElem?_set_known own]
            split
            · rename_i same
              subst same
              rw [← Bridge.links, own]
              rfl
            · simp [Bridge.links]
          simpa only [Bridge.links, links] using linked.attached.subscribe known
        · intro conn member stopped
          obtain ⟨before, old, rfl | rfl⟩ := mem_modify member
          · exact linked.stopped conn old stopped
          · exact linked.stopped before old stopped
      · cases taken
        exact linked.fail known (by simp)
    · cases taken
  | wake t =>
    simp only [Bridge.step] at taken
    split at taken
    · rename_i info known
      cases taken
      exact ⟨linked.registered.move known (by simp) (by simp), linked.attached.idle known rfl rfl, linked.stopped⟩
    · cases taken
  | receive t published =>
    simp only [Bridge.step] at taken
    split at taken
    · rename_i info c known
      exact linked.receive known rfl taken
    · cases taken
  | report c status =>
    simp only [Bridge.step] at taken
    split at taken
    · rename_i conn found
      split at taken
      · cases taken
        exact linked.touch found (by simp [Connection.link]) (by simp)
      · cases taken
    · cases taken
  | send c => exact linked.send taken
  | publish id request =>
    cases taken
    refine ⟨linked.registered, ?_, ?_⟩
    · have links : (s.connections.map fun conn =>
          if covers conn.printer.id id then conn.deliver s.published.length else conn).map Connection.link = s.links := by
        rw [List.map_map]
        refine List.map_congr_left fun conn _ => ?_
        simp only [Function.comp_apply]
        split
        · simp [Connection.link, Connection.deliver]
        · rfl
      simpa only [Bridge.links, links] using linked.attached
    · intro conn member stopped
      obtain ⟨before, old, rfl⟩ := List.mem_map.mp member
      split at stopped
      · rw [if_pos ‹_›]
        exact linked.stopped before old stopped
      · rw [if_neg ‹_›]
        exact linked.stopped before old stopped
  | handle c =>
    obtain ⟨conn, handler, n, inbox, seqId, found, spawned, -, rfl⟩ := Bridge.handle_cases taken
    exact linked.touch found (by simp [Connection.link, spawned])
      (linked.stopped conn (List.mem_of_getElem? found))

/-- **Who receives what** is known in every state that is reached. -/
theorem linked (reached : (bridge covers).Reachable s) : Linked s := by
  refine reached.invariant Linked ?_ fun _ _ _ before _ taken => before.step taken
  exact ⟨⟨by simp [bridge], by simp [bridge]⟩, ⟨by simp [bridge], by simp [bridge, Bridge.links]⟩, by simp [bridge]⟩

/-- A handler whose connection is received from is the one of a printer that is bridged. -/
theorem Linked.bridged (linked : Linked s) (found : s.connections[c]? = some conn)
    (receiving : conn.reports.isSome) (spawned : conn.handler.isSome) : s.bridgedOver conn.printer.id = some c := by
  obtain ⟨task, known, at_⟩ := linked.attached.owned c conn.link (Bridge.getElem?_links found) receiving
  have own := linked.attached.held _ task c known at_
  rw [Bridge.getElem?_links found] at own
  have fields := Option.some.inj own
  have printer : conn.printer = task.info := congrArg Link.printer fields
  have bridging : task.phase = .bridging c := by
    have handled := congrArg Link.handled fields
    simpa [Connection.link, spawned] using handled
  have lookup := linked.registered.listed _ task known (by simp [bridging])
  obtain ⟨info, phase⟩ := task
  dsimp only at bridging lookup printer
  subst bridging
  rw [Bridge.bridgedOver, printer, lookup, Option.bind_some, known]

/-- The connection over which a printer is bridged is its own, and has a handler. -/
theorem Linked.current (linked : Linked s) {id : String} (bridged : s.bridgedOver id = some c) :
    ∃ conn, s.connections[c]? = some conn ∧ conn.printer.id = id ∧ conn.reports.isSome ∧ conn.handler.isSome := by
  unfold Bridge.bridgedOver at bridged
  split at bridged
  · rename_i info c' found
    cases bridged
    obtain ⟨t, lookup, known⟩ := Option.bind_eq_some_iff.mp found
    have own := linked.attached.held t _ c known rfl
    obtain ⟨conn, listed, link⟩ := by simpa [Bridge.links] using own
    obtain ⟨task', known', name, -⟩ := linked.registered.running id t lookup
    rw [known] at known'
    obtain rfl := Option.some.inj known'
    refine ⟨conn, listed, ?_, congrArg Link.receiving link, congrArg Link.handled link⟩
    rw [← name]
    exact congrArg (PrinterInfo.id ∘ Link.printer) link
  · cases bridged

end Steps

end RndRust.Bambu
