import RndRust.Bambu.Api.Access

/-! The feed of a socket: what its forwarding task has taken from the broadcast channel and what it
has made of it, for as long as the socket is open. -/
namespace RndRust.Bambu.Api
open Lib

/-- A broadcast that `send_task` has handled, and whether it was for the socket then. -/
structure Handled where
  number : ℕ
  message : WsServerMessage
  matched : Bool
  deriving DecidableEq, Repr

structure Feed where
  service : Service := {}
  /-- A send has failed. -/
  failed : Bool := false
  handled : List Handled := []
  /-- What was broadcast since the socket subscribed, in order. -/
  announced : List (ℕ × WsServerMessage) := []

namespace Service

/-- What an action broadcasts. -/
def announces (s : Service) : AccessAction → Option WsServerMessage
  | .telemetry id => some (.telemetry id)
  | .broadcast r => s.requests[r]?
  | _ => none

/-- The message `send_task` decides about. -/
def handles (session : WsSession) (s : Service) : AccessAction → Option Handled
  | .decide => s.queue.head?.map fun (number, message) => ⟨number, message, (s.shouldSend session message).1⟩
  | _ => none

/-- The message that is being sent. -/
def underWay (s : Service) : List (ℕ × WsServerMessage) :=
  match s.sendTask with
  | .sending number message => [(number, message)]
  | _ => []

/-- `send_task` takes a message while no older one was dropped. -/
def keepsUp (s : Service) (a : AccessAction) : Prop := a = .receive → s.queue.length ≤ broadcastCapacity

instance (s : Service) (a : AccessAction) : Decidable (s.keepsUp a) :=
  inferInstanceAs (Decidable (_ → _))

end Service

namespace Feed

def step (session : WsSession) (f : Feed) (a : AccessAction) : Option Feed :=
  (f.service.step session a).map fun service =>
    { service
      failed := f.failed || a = .send false
      handled := f.handled ++ (f.service.handles session a).toList
      announced :=
        if a = .connect then []
        else f.announced ++ (f.service.announces a).toList.map fun message => (f.service.broadcasts, message) }

/-- The socket is connected, neither side has closed it, and every send has succeeded. -/
def Open (f : Feed) : Prop := f.service.reader ≠ .unconnected ∧ f.service.reader ≠ .closed ∧ ¬ f.failed

instance (f : Feed) : Decidable f.Open := inferInstanceAs (Decidable (_ ∧ _))

/-- The task is there, and what was broadcast is handled in order: what was for the socket is sent,
what is left waits in the channel, and the task can go on with it. -/
structure Fed (session : WsSession) (f : Feed) : Prop where
  running : f.service.sendTask ≠ .ended
  whole : f.handled.map (fun h => (h.number, h.message)) ++ f.service.queue = f.announced
  sent : f.service.sent.map (fun x => (x.number, x.message)) ++ f.service.underWay =
    (f.handled.filter Handled.matched).map fun h => (h.number, h.message)
  awake : f.service.sendTask = .receiving ∧ f.service.queue = [] ∨
    ∃ a ∈ [AccessAction.receive, .decide, .send true], (f.step session a).isSome

end Feed

/-- A socket with its history. -/
def feed (session : WsSession) : Machine Feed AccessAction where
  initial := {}
  step := Feed.step session

/-- What an action is to the feed: the task takes a step, or the socket is opened or closed, or a
message joins the queue at most. -/
inductive Fares (session : WsSession) (s : Service) : AccessAction → Service → Prop
  | aside {a : AccessAction} {s' : Service} (handles : s.handles session a = none)
      (other : a ≠ .connect ∧ a ≠ .receive ∧ a ≠ .send false)
      (task : s'.sendTask = s.sendTask) (sent : s'.sent = s.sent)
      (queue : s'.queue = s.queue ++ (s.announces a).toList.map fun message => (s.broadcasts, message))
      (connected : s'.reader = .unconnected ↔ s.reader = .unconnected)
      (closed : s'.reader ≠ .closed → s.reader ≠ .closed) : Fares session s a s'
  | connects (unconnected : s.reader = .unconnected) :
      Fares session s .connect { s with reader := .reading, sendTask := .receiving, queue := [], subSet := ∅ }
  | aborts (closed : s.reader = .closed) : Fares session s .abort { s with sendTask := .ended }
  | receives (idle : s.sendTask = .receiving) (waits : s.queue ≠ []) :
      Fares session s .receive { s with sendTask := if s.queue.length ≤ broadcastCapacity then .deciding else .ended }
  | decides {number : ℕ} {message : WsServerMessage} {queue : List (ℕ × WsServerMessage)}
      (deciding : s.sendTask = .deciding) (first : s.queue = (number, message) :: queue) :
      Fares session s .decide { s with
        queue
        subSet := (s.shouldSend session message).2
        sendTask := if (s.shouldSend session message).1 then .sending number message else .receiving }
  | sends {number : ℕ} {message : WsServerMessage} (sending : s.sendTask = .sending number message) (ok : Bool) :
      Fares session s (.send ok) (if ok then
        { s with sendTask := .receiving, sent := s.sent ++ [⟨number, message, s.lost message⟩] }
        else { s with sendTask := .ended })

section Steps

variable {session : WsSession} {s s' : Service} {f f' : Feed} {a : AccessAction}

/-- An action that leaves the socket, its task and its queue alone. -/
theorem Fares.quiet (handles : s.handles session a = none) (other : a ≠ .connect ∧ a ≠ .receive ∧ a ≠ .send false)
    (silent : s.announces a = none) (task : s'.sendTask = s.sendTask) (sent : s'.sent = s.sent)
    (queue : s'.queue = s.queue) (reader : s'.reader = s.reader) : Fares session s a s' :=
  .aside handles other task sent (by simp [queue, silent]) (by rw [reader]) (by rw [reader]; exact id)

theorem Service.step_fares (taken : s.step session a = some s') : Fares session s a s' := by
  unfold Service.step at taken
  cases a with
  | addPrinter id | telemetry id =>
    cases taken
    exact .aside rfl (by simp) rfl rfl (by simp [publish, announces]) Iff.rfl fun opened => opened
  | removePrinter id =>
    cases taken
    exact .aside rfl (by simp) rfl rfl (by simp [removePrinter, announces]) Iff.rfl fun opened => opened
  | assignPrinter id user =>
    cases taken
    unfold assignPrinter
    split <;> exact .quiet rfl (by simp) rfl rfl rfl rfl rfl
  | unassignPrinter id user =>
    cases taken
    unfold unassignPrinter
    split <;> exact .quiet rfl (by simp) rfl rfl rfl rfl rfl
  | broadcast r =>
    dsimp only at taken
    split at taken
    · rename_i known
      cases taken
      exact .aside rfl (by simp) rfl rfl (by simp [publish, announces, known]) Iff.rfl fun opened => opened
    · cases taken
  | connect =>
    dsimp only at taken
    split at taken
    · cases taken
      exact .connects ‹_›
    · cases taken
  | subscribe printerIds ok =>
    dsimp only at taken
    split at taken
    · rename_i reading
      cases taken
      exact .aside rfl (by simp) rfl rfl (by simp [announces]) (by simp [reading]) (by simp [reading])
    · cases taken
  | insert =>
    dsimp only at taken
    split at taken
    · rename_i inserting
      cases taken
      exact .aside rfl (by simp) rfl rfl (by simp [announces]) (by simp [inserting]) (by simp [inserting])
    · cases taken
  | unsubscribe printerIds =>
    dsimp only at taken
    split at taken
    · cases taken
      exact .quiet rfl (by simp) rfl rfl rfl rfl rfl
    · cases taken
  | close =>
    dsimp only at taken
    split at taken
    · rename_i reading
      cases taken
      exact .aside rfl (by simp) rfl rfl (by simp [announces]) (by simp [reading]) (by simp)
    · cases taken
  | abort =>
    dsimp only at taken
    split at taken
    · cases taken
      exact .aborts ‹_›
    · cases taken
  | receive =>
    dsimp only at taken
    unfold Service.receive at taken
    split at taken
    · rename_i ready
      cases taken
      exact .receives ready.1 ready.2
    · cases taken
  | decide =>
    dsimp only at taken
    unfold Service.decide at taken
    split at taken
    · rename_i deciding first
      cases taken
      exact .decides deciding first
    · cases taken
  | send ok =>
    dsimp only at taken
    unfold Service.send at taken
    split at taken
    · rename_i sending
      cases ok <;> cases taken
      · exact .sends sending false
      · exact .sends sending true
    · cases taken

/-- What holds of an open socket. -/
structure Steady (f : Feed) : Prop where
  running : f.service.sendTask ≠ .ended
  connected : f.service.sendTask ≠ .unconnected
  held : f.service.sendTask = .deciding → f.service.queue ≠ []
  whole : f.handled.map (fun h => (h.number, h.message)) ++ f.service.queue = f.announced
  sent : f.service.sent.map (fun x => (x.number, x.message)) ++ f.service.underWay =
    (f.handled.filter Handled.matched).map fun h => (h.number, h.message)

structure Tracked (f : Feed) : Prop where
  early : f.service.reader = .unconnected → f.service.sendTask = .unconnected ∧ f.service.sent = [] ∧ f.handled = []
  steady : f.Open → Steady f

theorem Steady.fed (steady : Steady f) : f.Fed session := by
  refine ⟨steady.running, steady.whole, steady.sent, ?_⟩
  have enabled : ∀ a, (f.service.step session a).isSome → (f.step session a).isSome := by
    intro a
    simp [Feed.step]
  cases task : f.service.sendTask with
  | unconnected => exact absurd task steady.connected
  | ended => exact absurd task steady.running
  | receiving =>
    by_cases queue : f.service.queue = []
    · exact .inl ⟨rfl, queue⟩
    · exact .inr ⟨.receive, by simp, enabled _ (by simp [Service.step, Service.receive, task, queue])⟩
  | deciding =>
    obtain ⟨first, queue, waits⟩ := List.exists_cons_of_ne_nil (steady.held task)
    exact .inr ⟨.decide, by simp, enabled _ (by simp [Service.step, Service.decide, task, waits])⟩
  | sending number message =>
    exact .inr ⟨.send true, by simp, enabled _ (by simp [Service.step, Service.send, task])⟩

theorem Tracked.step (tracked : Tracked f) (keeps : f.service.keepsUp a) (taken : f.step session a = some f') :
    Tracked f' := by
  obtain ⟨s', moved, rfl⟩ := Option.map_eq_some_iff.mp taken
  have fares := Service.step_fares moved
  cases fares with
  | aside handles other task sent queue connected closed =>
    refine ⟨fun fresh => ?_, fun opened => ?_⟩
    · simpa [task, sent, handles] using tracked.early (connected.mp fresh)
    · obtain ⟨present, unclosed, succeeded⟩ := opened
      have steady := tracked.steady ⟨fun fresh => present (connected.mpr fresh), closed unclosed, by simp_all⟩
      refine ⟨task ▸ steady.running, task ▸ steady.connected, ?_, ?_, ?_⟩
      · intro deciding
        simp [queue, steady.held (task ▸ deciding)]
      · simp [queue, handles, other.1, ← steady.whole]
      · simpa [Service.underWay, task, sent, handles] using steady.sent
  | connects unconnected =>
    obtain ⟨-, sent, handled⟩ := tracked.early unconnected
    refine ⟨fun fresh => by simp at fresh, fun _ => ⟨by simp, by simp, by simp, ?_, ?_⟩⟩
    · simp [handled, Service.handles]
    · simp [handled, sent, Service.handles, Service.underWay]
  | aborts closed => exact ⟨fun fresh => by simp [closed] at fresh, fun opened => absurd closed opened.2.1⟩
  | receives idle waits =>
    refine ⟨fun fresh => by simp [(tracked.early fresh).1] at idle, fun opened => ?_⟩
    have steady := tracked.steady (by simpa [Feed.Open] using opened)
    refine ⟨by simp [keeps rfl], by simp [keeps rfl], fun _ => waits, ?_, ?_⟩
    · simpa [Service.handles, Service.announces] using steady.whole
    · simpa [Service.handles, Service.underWay, keeps rfl, idle] using steady.sent
  | @decides number message queue deciding first =>
    refine ⟨fun fresh => by simp [(tracked.early fresh).1] at deciding, fun opened => ?_⟩
    have steady := tracked.steady (by simpa [Feed.Open] using opened)
    have whole := steady.whole
    have sent := steady.sent
    simp only [first] at whole
    simp only [Service.underWay, deciding, List.append_nil] at sent
    refine ⟨?_, ?_, ?_, ?_, ?_⟩
    · dsimp only
      split <;> simp
    · dsimp only
      split <;> simp
    · dsimp only
      split <;> simp
    · simpa [Service.handles, Service.announces, first] using whole
    · by_cases matched : (f.service.shouldSend session message).1
      · simp [Service.handles, Service.underWay, first, matched, sent, List.filter_append]
      · simp [Service.handles, Service.underWay, first, matched, sent, List.filter_append]
  | @sends number message sending ok =>
    refine ⟨fun fresh => ?_, fun opened => ?_⟩
    · have unconnected : f.service.reader = .unconnected := by
        revert fresh
        cases ok <;> exact id
      simp [(tracked.early unconnected).1] at sending
    · cases ok with
      | false => simp [Feed.Open] at opened
      | true =>
        have steady := tracked.steady (by simpa [Feed.Open] using opened)
        have sent := steady.sent
        simp only [Service.underWay, sending] at sent
        refine ⟨by simp, by simp, by simp, ?_, ?_⟩
        · simpa [Service.handles, Service.announces] using steady.whole
        · simpa [Service.handles, Service.underWay] using sent

end Steps

/-- **An open socket keeps its feed** as long as the task never takes a message after an older one was
dropped; the first time it does, the task ends while the socket is open. -/
theorem open_socket_fed (session : WsSession) {f : Feed}
    (reached : (feed session).Reaches (fun f a => f.service.keepsUp a) f) (opened : f.Open) :
    f.Fed session ∧ ∀ a f', (feed session).step f a = some f' → ¬ f.service.keepsUp a → f'.Open ∧ ¬ f'.Fed session := by
  have tracked : Tracked f := by
    refine reached.invariant Tracked ⟨fun _ => by simp [feed], fun opened => absurd rfl opened.1⟩ ?_
    exact fun _ _ _ tracked keeps taken => tracked.step keeps taken
  refine ⟨(tracked.steady opened).fed, fun a f' taken lags => ?_⟩
  simp only [Service.keepsUp, Classical.not_imp] at lags
  obtain ⟨rfl, behind⟩ := lags
  obtain ⟨s', moved, rfl⟩ := Option.map_eq_some_iff.mp taken
  cases Service.step_fares moved with
  | aside _ other => exact absurd rfl other.2.1
  | receives =>
    refine ⟨by simpa [Feed.Open] using opened, fun fed => fed.running ?_⟩
    simp [behind]

/-- Telemetry is sent while the client keeps up. -/
theorem open_socket_fed_member : ∃ f, (feed member).Reaches (fun f a => f.service.keepsUp a) f ∧ f.Open ∧
    f.Fed member ∧ f.service.sent.map Sent.number = [1, 2] := by
  obtain ⟨f, reached, opened, sent⟩ := Machine.Reaches.of_trace (feed member) (fun f a => f.service.keepsUp a)
    (subscribed ++ [.telemetry "P1", .telemetry "P1"] ++ forwarded ++ forwarded)
    (fun f => f.Open ∧ f.service.sent.map Sent.number = [1, 2]) (by decide)
  exact ⟨f, reached, opened, (open_socket_fed member reached opened).1, sent⟩

/-- One message more than the channel holds, before the task comes to take the first. -/
theorem open_socket_fed_fails : ¬ ∀ session f, (feed session).Reachable f → f.Open → f.Fed session := by
  intro fed
  obtain ⟨f, reached, opened, ended⟩ := Machine.Reachable.of_trace (feed member)
    (subscribed ++ List.replicate 257 (.telemetry "P1") ++ [.receive])
    (fun f => f.Open ∧ f.service.sendTask = .ended) (by decide +kernel)
  exact (fed member f reached opened).running ended

end RndRust.Bambu.Api
