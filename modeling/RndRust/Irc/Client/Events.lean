import RndRust.Irc.Client.State
import RndRust.Lib.Bounded
import RndRust.Lib.Runs

/-! The way of an event to the window: a session sends it into the channel of `Client::new`,
`irc_event_worker` takes it from there and tries to send it to the application, and the
application updates. -/
namespace RndRust.Irc.Client
open Lib

/-- `CHANNEL_BUF`. -/
def channelBuf : ℕ := 256

/-- The size of the channel that the worker is given. -/
def outputBuf : ℕ := 64

/-- Where the worker is. -/
inductive EventWorker where
  /-- The subscription has not started it, and the receiver is parked. -/
  | parked
  | receiving
  | holding (event : ClientEvent)
  /-- The worker has returned, and the receiver is dropped. -/
  | ended
  deriving DecidableEq

structure Delivery where
  worker : EventWorker := .parked
  events : Bounded ClientEvent channelBuf := .empty
  output : Bounded ClientEvent outputBuf := .empty
  /-- What the sessions have sent. -/
  sent : List ClientEvent := []
  /-- What `handle_event` was called with. -/
  handled : List ClientEvent := []

inductive DeliveryAction where
  | send (event : ClientEvent)
  /-- The subscription runs the worker, which takes the receiver. -/
  | start
  | recv
  | trySend
  | update

/-- One step; a session waits while its channel is full, and does not look at an error. -/
def Delivery.step (s : Delivery) : DeliveryAction → Option Delivery
  | .send event =>
    if s.worker = .ended then some { s with sent := s.sent ++ [event] }
    else (s.events.push [event]).map fun events => { s with events, sent := s.sent ++ [event] }
  | .start => if s.worker = .parked then some { s with worker := .receiving } else none
  | .recv =>
    match s.worker with
    | .receiving => s.events.pop.map fun (event, events) => { s with worker := .holding event, events }
    | _ => none
  | .trySend =>
    match s.worker with
    | .holding event =>
      match s.output.push [event] with
      | some output => some { s with worker := .receiving, output }
      | none => some { s with worker := .ended, events := .empty }
    | _ => none
  | .update => s.output.pop.map fun (event, output) => { s with output, handled := s.handled ++ [event] }

/-- The application from its start. -/
def delivery : Machine Delivery DeliveryAction where
  initial := {}
  step := Delivery.step

namespace EventWorker

/-- What the worker has taken and not sent. -/
def held : EventWorker → List ClientEvent
  | .holding event => [event]
  | _ => []

end EventWorker

namespace Delivery

/-- The condition: the application has room for what the worker tries to send. -/
def hasRoom (s : Delivery) : DeliveryAction → Bool
  | .trySend => s.output.items.length < outputBuf
  | _ => true

/-- What is on its way, the oldest first. -/
def waiting (s : Delivery) : List ClientEvent := s.output.items ++ s.worker.held ++ s.events.items

/-- The events of one network. -/
def ofNetwork (network : ℕ) (events : List ClientEvent) : List ClientEvent :=
  events.filter (·.network = network)

/-- What a network has sent was handled once and in order, up to what is on its way. -/
def InOrder (s : Delivery) : Prop :=
  ∀ network, ofNetwork network s.sent = ofNetwork network s.handled ++ ofNetwork network s.waiting

/-- Without another event, a run hands over all there is. -/
def Drains (s : Delivery) : Prop :=
  ∃ (trace : List DeliveryAction) (t : Delivery), (∀ a ∈ trace, ∀ event, a ≠ .send event) ∧
    (delivery.guard fun s a => s.hasRoom a).run s trace = some t ∧ t.sent = s.sent ∧ t.handled = s.sent

/-- Nothing is lost or overtaken. -/
structure Kept (s : Delivery) : Prop where
  alive : s.worker ≠ .ended
  order : s.sent = s.handled ++ s.waiting

section Steps

variable {s t : Delivery} {a : DeliveryAction}

theorem Kept.step (kept : Kept s) (allowed : s.hasRoom a) (taken : s.step a = some t) : Kept t := by
  obtain ⟨alive, order⟩ := kept
  cases a with
  | send event =>
    simp only [Delivery.step, if_neg alive] at taken
    obtain ⟨events, pushed, rfl⟩ := Option.map_eq_some_iff.mp taken
    obtain ⟨-, items⟩ := Bounded.push_eq_some.mp pushed
    exact ⟨alive, by simp [waiting, items, order]⟩
  | start =>
    obtain ⟨parked, taken⟩ := Option.ite_none_right_eq_some.mp taken
    cases taken
    exact ⟨by simp, by simp [order, waiting, parked, EventWorker.held]⟩
  | recv =>
    simp only [Delivery.step] at taken
    split at taken
    · rename_i receiving
      obtain ⟨⟨event, events⟩, popped, rfl⟩ := Option.map_eq_some_iff.mp taken
      have items := Bounded.pop_eq_some.mp popped
      exact ⟨by simp, by simp [order, waiting, receiving, items, EventWorker.held]⟩
    · cases taken
  | trySend =>
    simp only [Delivery.step] at taken
    split at taken
    · rename_i event holding
      split at taken
      · rename_i output pushed
        cases taken
        obtain ⟨-, items⟩ := Bounded.push_eq_some.mp pushed
        exact ⟨by simp, by simp [order, waiting, holding, items, EventWorker.held]⟩
      · rename_i full
        have full := Bounded.push_eq_none.mp full
        have room : s.output.items.length < outputBuf := by simpa [hasRoom] using allowed
        simp only [List.length_singleton] at full
        omega
    · cases taken
  | update =>
    obtain ⟨⟨event, output⟩, popped, rfl⟩ := Option.map_eq_some_iff.mp taken
    have items := Bounded.pop_eq_some.mp popped
    exact ⟨alive, by simp [order, waiting, items]⟩

theorem Kept.inOrder (kept : Kept s) : s.InOrder := by
  intro network
  rw [kept.order, ofNetwork, List.filter_append]
  rfl

/-- How many steps are left until everything is handled. -/
def left (s : Delivery) : ℕ :=
  3 * s.events.items.length + 2 * s.worker.held.length + s.output.items.length +
    if s.worker = .parked then 1 else 0

/-- Whatever is on its way, somebody can move it. -/
theorem Kept.moves (kept : Kept s) (waits : s.waiting ≠ []) :
    ∃ a t, (∀ event, a ≠ .send event) ∧ s.hasRoom a ∧ s.step a = some t ∧ t.sent = s.sent ∧ t.left < s.left := by
  by_cases output : s.output.items = []
  · cases worker : s.worker with
    | parked =>
      refine ⟨.start, { s with worker := .receiving }, by simp, rfl, by simp only [Delivery.step, if_pos worker], rfl, ?_⟩
      simp [left, worker, EventWorker.held]
    | receiving =>
      have events : s.events.items ≠ [] := by simpa [waiting, output, worker, EventWorker.held] using waits
      obtain ⟨event, rest, popped, items⟩ := Bounded.exists_pop events
      refine ⟨.recv, { s with worker := .holding event, events := rest }, by simp, rfl,
        by simp only [Delivery.step, worker, popped, Option.map_some], rfl, ?_⟩
      simp [left, worker, items, EventWorker.held]
      omega
    | holding event =>
      have room : s.output.items.length < outputBuf := by simp [output, outputBuf]
      cases pushed : s.output.push [event] with
      | none =>
        have full := Bounded.push_eq_none.mp pushed
        simp only [List.length_singleton] at full
        omega
      | some rest =>
        obtain ⟨-, items⟩ := Bounded.push_eq_some.mp pushed
        refine ⟨.trySend, { s with worker := .receiving, output := rest }, by simp, by simpa [hasRoom] using room,
          by simp only [Delivery.step, worker, pushed], rfl, ?_⟩
        simp [left, worker, items, EventWorker.held]
        omega
    | ended => exact absurd worker kept.alive
  · obtain ⟨event, rest, popped, items⟩ := Bounded.exists_pop output
    refine ⟨.update, { s with output := rest, handled := s.handled ++ [event] }, by simp, rfl,
      by simp only [Delivery.step, popped, Option.map_some], rfl, ?_⟩
    simp [left, items]

theorem Kept.drains (kept : Kept s) : s.Drains := by
  generalize count : s.left = n
  induction n using Nat.strong_induction_on generalizing s with
  | _ n ih =>
    by_cases done : s.waiting = []
    · refine ⟨[], s, by simp, rfl, rfl, ?_⟩
      rw [kept.order, done, List.append_nil]
    · obtain ⟨a, t, own, room, taken, sent, less⟩ := kept.moves done
      obtain ⟨trace, u, others, ran, same, handled⟩ := ih t.left (count ▸ less) (kept.step room taken) rfl
      have first : (delivery.guard fun s a => s.hasRoom a).step s a = some t := by
        simp only [Machine.guard, if_pos room]
        exact taken
      refine ⟨a :: trace, u, ?_, ?_, same.trans sent, handled.trans sent⟩
      · intro b member
        rcases List.mem_cons.mp member with rfl | member
        · exact own
        · exact others b member
      · rw [Machine.run_cons, first]
        exact ran

end Steps

end Delivery

section Runs

variable {s : Delivery}

/-- **No event is lost on the way to the window**, when the worker never tries to send while
the application has as many to handle as its channel holds. -/
theorem events_delivered (reached : delivery.Reaches (fun s a => s.hasRoom a) s) : s.InOrder ∧ s.Drains := by
  have kept : s.Kept := by
    refine reached.invariant Delivery.Kept ?_ fun _ _ _ kept allowed taken => kept.step allowed taken
    exact ⟨by simp [delivery], by simp [delivery, Delivery.waiting, EventWorker.held]⟩
  exact ⟨kept.inOrder, kept.drains⟩

end Runs

section Examples

/-- A burst of events that reaches the worker. -/
def burst (count : ℕ) : List DeliveryAction :=
  .start :: List.replicate count (.send (.connected 1))

def forwarded (count : ℕ) : List DeliveryAction :=
  (List.replicate count [DeliveryAction.recv, .trySend]).flatten

theorem events_delivered_burst : ∃ s, delivery.Reaches (fun s a => s.hasRoom a) s ∧ s.sent.length = 64 ∧
    s.handled = [] ∧ s.InOrder ∧ s.Drains := by
  obtain ⟨s, reached, sent, handled⟩ := Machine.Reaches.of_trace delivery (fun s a => s.hasRoom a)
    (burst 64 ++ forwarded 64) (fun s => s.sent.length = 64 ∧ s.handled = []) (by decide)
  exact ⟨s, reached, sent, handled, events_delivered reached⟩

/-- One more event ends the worker, and what waits for it is lost with it. -/
theorem events_delivered_fails : ∃ s, delivery.Reachable s ∧ s.sent.length = 66 ∧ s.waiting.length = 64 ∧
    s.handled = [] ∧ ¬s.InOrder := by
  obtain ⟨s, reached, sent, waiting, handled, lost⟩ := Machine.Reachable.of_trace delivery
    (burst 66 ++ forwarded 65) (fun s => s.sent.length = 66 ∧ s.waiting.length = 64 ∧ s.handled = [] ∧
      Delivery.ofNetwork 1 s.sent ≠ Delivery.ofNetwork 1 s.handled ++ Delivery.ofNetwork 1 s.waiting)
    (by decide)
  exact ⟨s, reached, sent, waiting, handled, fun inOrder => lost (inOrder 1)⟩

end Examples

end RndRust.Irc.Client
