import RndRust.Bambu.Api.Subscriptions
import RndRust.Lib.Updates

/-! Which telemetry is sent on a socket once its user has lost the access to the printer. -/
namespace RndRust.Bambu.Api
open Lib

/-- What a message in the queue is to somebody who lost the access to a printer after a number
of broadcasts: the end of the subscription, or telemetry that is no longer for them. -/
def concern (session : WsSession) (id : String) (lostAt : ℕ) (x : ℕ × WsServerMessage) : Option Bool :=
  if x.2 = .assignmentRemoved id session.userId then some true
  else if x.2 = .telemetry id ∧ lostAt ≤ x.1 then some false
  else none

section Concern

variable {session : WsSession} {id : String} {n : ℕ} {x : ℕ × WsServerMessage}

theorem concern_true : concern session id n x = some true ↔ x.2 = .assignmentRemoved id session.userId := by
  unfold concern
  split
  · simp [*]
  · split <;> simp [*]

theorem concern_false : concern session id n x = some false ↔ x.2 = .telemetry id ∧ n ≤ x.1 := by
  unfold concern
  split
  · simp [*]
  · split <;> simp [*]

theorem concern_none : concern session id n x = none ↔
    x.2 ≠ .assignmentRemoved id session.userId ∧ ¬ (x.2 = .telemetry id ∧ n ≤ x.1) := by
  unfold concern
  split
  · simp [*]
  · split <;> simp [*]

end Concern

namespace Service

/-- The next of these that `send_task` handles ends the subscription. -/
def removedFirst (s : Service) (session : WsSession) (id : String) (lostAt : ℕ) : Bool :=
  (s.queue.findSome? (concern session id lostAt)).getD (s.requests.contains (.assignmentRemoved id session.userId))

/-- A subscription is inserted only while the user has the access or when what ends it comes
before any telemetry; so is a printer removed that the user has subscribed to; and no telemetry
of such a printer is broadcast between the deletion of an assignment and its broadcast. -/
def inform (session : WsSession) (s : Service) (a : AccessAction) : Bool :=
  s.sendTask = .ended ||
    match a with
    | .insert =>
      match s.reader with
      | .inserting allowed => allowed.all fun id => (s.lostAt id).all (s.removedFirst session id ·)
      | _ => true
    | .removePrinter id =>
      !s.assignments session.userId id || id ∉ s.subSet || s.removedFirst session id s.broadcasts
    | .telemetry id =>
      s.lostAt id = none || id ∉ s.subSet || !s.requests.contains (.assignmentRemoved id session.userId) ||
        s.queue.any (·.2 = .assignmentRemoved id session.userId)
    | _ => true

/-- Who has lost the access is sent no telemetry broadcast since. -/
def Respected (s : Service) : Prop := ∀ x ∈ s.sent, ∀ n ∈ x.lostAt, x.number < n

instance (s : Service) : Decidable s.Respected :=
  inferInstanceAs (Decidable (∀ x ∈ s.sent, ∀ n ∈ x.lostAt, x.number < n))

structure Watched (session : WsSession) (s : Service) : Prop where
  numbered : ∀ x ∈ s.queue, x.1 < s.broadcasts
  requested : ∀ message ∈ s.requests, ∀ id, message ≠ .telemetry id
  first : s.sendTask ≠ .ended → ∀ id n, s.lostAt id = some n → id ∈ s.subSet → s.removedFirst session id n
  sending : ∀ number message, s.sendTask = .sending number message → number < s.broadcasts ∧
    ∀ n, s.lost message = some n → number < n
  respected : s.Respected

section Steps

variable {session : WsSession} {s s' : Service} {id user : String} {n : ℕ} {a : AccessAction}

/-- Nothing in the queue was broadcast since. -/
theorem removedFirst_now (numbered : ∀ x ∈ s.queue, x.1 < n)
    (request : .assignmentRemoved id session.userId ∈ s.requests) : s.removedFirst session id n := by
  unfold removedFirst
  cases found : s.queue.findSome? (concern session id n) with
  | none => simpa using request
  | some removed =>
    obtain ⟨x, member, is⟩ := List.exists_of_findSome?_eq_some found
    cases removed with
    | true => rfl
    | false =>
      have later := (concern_false.mp is).2
      exact absurd (numbered x member) (Nat.not_lt.mpr later)

theorem removedFirst_mono (queue : s'.queue = s.queue) (requests : ∀ message ∈ s.requests, message ∈ s'.requests)
    (first : s.removedFirst session id n) : s'.removedFirst session id n := by
  unfold removedFirst at *
  rw [queue]
  cases found : s.queue.findSome? (concern session id n) with
  | none =>
    rw [found] at first
    simpa using requests _ (by simpa using first)
  | some removed =>
    rwa [found] at first

/-- What is broadcast comes after what is in the queue. -/
theorem removedFirst_append {x : ℕ × WsServerMessage} (queue : s'.queue = s.queue ++ [x])
    (next : .assignmentRemoved id session.userId ∈ s.requests →
      s.queue.findSome? (concern session id n) = none → concern session id n x = some true ∨
        concern session id n x = none ∧ .assignmentRemoved id session.userId ∈ s'.requests)
    (first : s.removedFirst session id n) : s'.removedFirst session id n := by
  unfold removedFirst at *
  rw [queue, List.findSome?_append]
  cases found : s.queue.findSome? (concern session id n) with
  | none =>
    rw [found] at first
    rcases next (by simpa using first) found with now | ⟨later, request⟩
    · simp [now]
    · simpa [later] using request
  | some removed => rwa [found] at first

theorem requested_append {requests : List WsServerMessage} {request : WsServerMessage}
    (requested : ∀ message ∈ requests, ∀ id, message ≠ .telemetry id) (other : ∀ id, request ≠ .telemetry id) :
    ∀ message ∈ requests ++ [request], ∀ id, message ≠ .telemetry id := by
  intro message member
  rcases List.mem_append.mp member with old | new
  · exact requested message old
  · obtain rfl := List.mem_singleton.mp new
    exact other

/-- Access that is lost now is lost after all that was broadcast. -/
theorem Watched.lose (watched : s.Watched session) (queue : s'.queue = s.queue)
    (broadcasts : s'.broadcasts = s.broadcasts) (sendTask : s'.sendTask = s.sendTask)
    (subSet : s'.subSet = s.subSet) (sent : s'.sent = s.sent)
    (kept : ∀ message ∈ s.requests, message ∈ s'.requests)
    (requested : ∀ message ∈ s'.requests, ∀ id, message ≠ .telemetry id)
    (lost : ∀ id n, s'.lostAt id = some n → s.lostAt id = some n ∨ n = s.broadcasts ∧
      (s.sendTask ≠ .ended → id ∈ s.subSet → s'.removedFirst session id n)) : s'.Watched session where
  numbered := by
    rw [queue, broadcasts]
    exact watched.numbered
  requested := requested
  first live id n gone subscribed := by
    rw [sendTask] at live
    rw [subSet] at subscribed
    rcases lost id n gone with before | ⟨-, now⟩
    · exact removedFirst_mono queue kept (watched.first live id n before subscribed)
    · exact now live subscribed
  sending number message sending := by
    rw [sendTask] at sending
    obtain ⟨earlier, current⟩ := watched.sending number message sending
    rw [broadcasts]
    refine ⟨earlier, fun n gone => ?_⟩
    cases message with
    | telemetry id =>
      rcases lost id n gone with before | ⟨rfl, -⟩
      · exact current n before
      · exact earlier
    | assignmentAdded id user => cases gone
    | assignmentRemoved id user => cases gone
  respected := by
    unfold Respected
    rw [sent]
    exact watched.respected

theorem Watched.assign (watched : s.Watched session) : (s.assignPrinter session id user).Watched session := by
  unfold assignPrinter
  split
  · refine watched.lose rfl rfl rfl rfl rfl (fun _ => List.mem_append_left _) ?_ ?_
    · apply requested_append watched.requested
      intro id' same
      cases same
    · intro id' n gone
      dsimp only at gone
      split at gone
      · rw [Function.update_apply] at gone
        split at gone
        · cases gone
        · exact .inl gone
      · exact .inl gone
  · exact watched

/-- The request that deletes an assignment is about to broadcast that it has. -/
theorem Watched.unassign (watched : s.Watched session) : (s.unassignPrinter session id user).Watched session := by
  unfold unassignPrinter
  split
  · refine watched.lose rfl rfl rfl rfl rfl (fun _ => List.mem_append_left _) ?_ ?_
    · apply requested_append watched.requested
      intro id' same
      cases same
    · intro id' n gone
      dsimp only at gone
      split at gone
      · rename_i own
        rw [Function.update_apply] at gone
        split at gone
        · rename_i same
          cases gone
          refine .inr ⟨rfl, fun _ _ => removedFirst_now watched.numbered ?_⟩
          rw [same, own]
          exact List.mem_append_right _ (List.mem_singleton_self _)
        · exact .inl gone
      · exact .inl gone
  · exact watched

theorem Watched.remove (watched : s.Watched session) (may : s.inform session (.removePrinter id)) :
    (s.removePrinter session id).Watched session := by
  refine watched.lose rfl rfl rfl rfl rfl (fun _ member => member) watched.requested ?_
  intro id' n gone
  unfold removePrinter at gone
  dsimp only at gone
  split at gone
  · rename_i assigned
    rw [Function.update_apply] at gone
    split at gone
    · rename_i same
      subst same
      cases gone
      refine .inr ⟨rfl, fun live subscribed => ?_⟩
      have first : s.removedFirst session id' s.broadcasts := by
        simpa [inform, live, assigned, subscribed] using may
      exact first
    · exact .inl gone
  · exact .inl gone

/-- What is broadcast is the latest. -/
theorem Watched.publish (watched : s.Watched session) {message : WsServerMessage}
    (queue : s'.queue = s.queue ++ [(s.broadcasts, message)]) (broadcasts : s'.broadcasts = s.broadcasts + 1)
    (sendTask : s'.sendTask = s.sendTask) (subSet : s'.subSet = s.subSet) (sent : s'.sent = s.sent)
    (lostAt : s'.lostAt = s.lostAt) (requested : ∀ message ∈ s'.requests, ∀ id, message ≠ .telemetry id)
    (next : s.sendTask ≠ .ended → ∀ id n, s.lostAt id = some n → id ∈ s.subSet →
      .assignmentRemoved id session.userId ∈ s.requests →
      s.queue.findSome? (concern session id n) = none → concern session id n (s.broadcasts, message) = some true ∨
        concern session id n (s.broadcasts, message) = none ∧
          .assignmentRemoved id session.userId ∈ s'.requests) : s'.Watched session where
  numbered := by
    intro x member
    rw [queue] at member
    rw [broadcasts]
    rcases List.mem_append.mp member with old | new
    · exact Nat.lt_succ_of_lt (watched.numbered x old)
    · obtain rfl := List.mem_singleton.mp new
      exact Nat.lt_succ_self _
  requested := requested
  first live id n gone subscribed := by
    rw [sendTask] at live
    rw [lostAt] at gone
    rw [subSet] at subscribed
    exact removedFirst_append queue (next live id n gone subscribed) (watched.first live id n gone subscribed)
  sending number message sending := by
    rw [sendTask] at sending
    obtain ⟨earlier, current⟩ := watched.sending number message sending
    refine ⟨?_, fun n gone => ?_⟩
    · rw [broadcasts]
      exact Nat.lt_succ_of_lt earlier
    · apply current
      cases message with
      | telemetry id =>
        unfold lost at gone
        rwa [lostAt] at gone
      | assignmentAdded id user => cases gone
      | assignmentRemoved id user => cases gone
  respected := by
    unfold Respected
    rw [sent]
    exact watched.respected

theorem Watched.broadcast (watched : s.Watched session) {r : ℕ} {message : WsServerMessage}
    (known : s.requests[r]? = some message) :
    Watched session { s.publish message with requests := s.requests.eraseIdx r } := by
  have assignment := watched.requested message (List.mem_of_getElem? known)
  refine watched.publish rfl rfl rfl rfl rfl rfl ?_ ?_
  · intro message member
    exact watched.requested message (List.mem_of_mem_eraseIdx member)
  · intro _ id n _ _ request _
    by_cases same : message = .assignmentRemoved id session.userId
    · exact .inl (concern_true.mpr same)
    · refine .inr ⟨concern_none.mpr ⟨same, fun telemetry => assignment id telemetry.1⟩, ?_⟩
      exact mem_eraseIdx_known known (Ne.symm same) request

theorem Watched.telemetry (watched : s.Watched session) (may : s.inform session (.telemetry id)) :
    (s.publish (.telemetry id)).Watched session := by
  refine watched.publish rfl rfl rfl rfl rfl rfl watched.requested ?_
  intro live id' n gone subscribed request none
  refine .inr ⟨concern_none.mpr ⟨by simp, ?_⟩, request⟩
  rintro ⟨same, -⟩
  cases same
  simp only [inform, live, gone, subscribed, decide_false, reduceCtorEq, Bool.false_or, not_true_eq_false,
    List.contains_iff_mem.mpr request, Bool.not_true, List.any_eq_true, decide_eq_true_eq] at may
  obtain ⟨x, member, removed⟩ := may
  have found := List.findSome?_eq_none_iff.mp none x member
  rw [concern_true.mpr removed] at found
  cases found

/-- The client changes what it has subscribed to. -/
theorem Watched.resubscribe (watched : s.Watched session) {reader : Reader} {subSet : Finset String}
    (first : s.sendTask ≠ .ended → ∀ id n, s.lostAt id = some n → id ∈ subSet → id ∉ s.subSet →
      s.removedFirst session id n) : Watched session { s with reader, subSet } where
  numbered := watched.numbered
  requested := watched.requested
  first live id n gone subscribed := by
    by_cases before : id ∈ s.subSet
    · exact watched.first live id n gone before
    · exact first live id n gone subscribed before
  sending := watched.sending
  respected := watched.respected

theorem Watched.insert (watched : s.Watched session) {allowed : List String} (reader : s.reader = .inserting allowed)
    (may : s.inform session .insert) :
    Watched session { s with reader := .reading, subSet := s.subSet ∪ allowed.toFinset } := by
  apply watched.resubscribe
  intro live id n gone subscribed other
  have inserted : id ∈ allowed := by
    rcases Finset.mem_union.mp subscribed with before | now
    · exact absurd before other
    · exact List.mem_toFinset.mp now
  simp only [inform, live, reader, decide_false, Bool.false_or, List.all_eq_true] at may
  have all := may id inserted
  rwa [gone] at all

section Decide

variable {message : WsServerMessage}

theorem shouldSend_subset : (s.shouldSend session message).2 ⊆ s.subSet := by
  unfold shouldSend
  split
  · exact Finset.Subset.refl _
  · exact Finset.Subset.refl _
  · split
    · exact Finset.erase_subset _ _
    · exact Finset.Subset.refl _

theorem shouldSend_removed (still : id ∈ (s.shouldSend session message).2) :
    message ≠ .assignmentRemoved id session.userId := by
  rintro rfl
  simp [shouldSend] at still

theorem shouldSend_telemetry (send : (s.shouldSend session (.telemetry id)).1) : id ∈ s.subSet :=
  of_decide_eq_true send

/-- What is first in the queue does not concern the subscription unless it ends it. -/
theorem removedFirst_tail {x : ℕ × WsServerMessage} {queue : List (ℕ × WsServerMessage)}
    (listed : s.queue = x :: queue) (other : x.2 ≠ .assignmentRemoved id session.userId) (first : s.removedFirst session id n) :
    ¬ (x.2 = .telemetry id ∧ n ≤ x.1) ∧ removedFirst { s with queue } session id n := by
  unfold removedFirst at *
  rw [listed, List.findSome?_cons] at first
  cases is : concern session id n x with
  | none =>
    rw [is] at first
    exact ⟨(concern_none.mp is).2, first⟩
  | some removed =>
    rw [is] at first
    cases removed with
    | true => exact absurd (concern_true.mp is) other
    | false => cases first

/-- `send_task` ends a subscription, or sends what is still for the user. -/
theorem Watched.decide (watched : s.Watched session) (taken : s.decide session = some s') : s'.Watched session := by
  unfold Service.decide at taken
  split at taken
  · rename_i number message queue deciding listed
    cases taken
    have live : s.sendTask ≠ .ended := by
      rw [deciding]
      intro ended
      cases ended
    refine ⟨?_, watched.requested, ?_, ?_, watched.respected⟩
    · intro x member
      apply watched.numbered
      rw [listed]
      exact List.mem_cons_of_mem _ member
    · intro _ id n gone still
      have first := watched.first live id n gone (shouldSend_subset still)
      exact (removedFirst_tail listed (shouldSend_removed still) first).2
    · intro number' message' sending
      replace sending : (if (s.shouldSend session message).1 then SendTask.sending number message
        else .receiving) = .sending number' message' := sending
      by_cases send : (s.shouldSend session message).1
      · rw [if_pos send] at sending
        cases sending
        refine ⟨watched.numbered (number, message) (listed ▸ List.mem_cons_self), fun n gone => ?_⟩
        cases message with
        | telemetry id =>
          have first := watched.first live id n gone (shouldSend_telemetry send)
          have late := (removedFirst_tail listed (by simp) first).1
          exact Nat.lt_of_not_le fun le => late ⟨rfl, le⟩
        | assignmentAdded id user => cases gone
        | assignmentRemoved id user => cases gone
      · rw [if_neg send] at sending
        cases sending
  · cases taken

end Decide

theorem Watched.send (watched : s.Watched session) {ok : Bool} (taken : s.send ok = some s') : s'.Watched session := by
  unfold Service.send at taken
  split at taken
  · rename_i number message sending
    have live : s.sendTask ≠ .ended := by
      rw [sending]
      intro ended
      cases ended
    split at taken
    · cases taken
      refine ⟨watched.numbered, watched.requested, fun _ => watched.first live, ?_, ?_⟩
      · intro number' message' sending'
        cases sending'
      · intro x member n gone
        rcases List.mem_append.mp member with old | new
        · exact watched.respected x old n gone
        · obtain rfl := List.mem_singleton.mp new
          exact (watched.sending number message sending).2 n gone
    · cases taken
      refine ⟨watched.numbered, watched.requested, fun ended => absurd rfl ended, ?_, watched.respected⟩
      intro number' message' sending'
      cases sending'
  · cases taken

/-- `send_task` neither has to send anything afterwards nor has sent more. -/
theorem Watched.await (watched : s.Watched session) {reader : Reader} {sendTask : SendTask}
    (first : sendTask ≠ .ended → s.sendTask ≠ .ended) (idle : ∀ number message, sendTask ≠ .sending number message) :
    Watched session { s with reader, sendTask } :=
  ⟨watched.numbered, watched.requested, fun live => watched.first (first live),
    fun number message sending => absurd sending (idle number message), watched.respected⟩

theorem Watched.step (watched : s.Watched session) (may : s.inform session a) (taken : s.step session a = some s') :
    s'.Watched session := by
  cases a with
  | addPrinter id =>
    cases taken
    exact ⟨watched.numbered, watched.requested, watched.first, watched.sending, watched.respected⟩
  | removePrinter id =>
    cases taken
    exact watched.remove may
  | assignPrinter id user =>
    cases taken
    exact watched.assign
  | unassignPrinter id user =>
    cases taken
    exact watched.unassign
  | broadcast r =>
    unfold Service.step at taken
    dsimp only at taken
    split at taken
    · rename_i known
      cases taken
      exact watched.broadcast known
    · cases taken
  | telemetry id =>
    cases taken
    exact watched.telemetry may
  | connect =>
    unfold Service.step at taken
    dsimp only at taken
    split at taken
    · cases taken
      refine ⟨?_, watched.requested, ?_, ?_, watched.respected⟩
      · intro x member
        cases member
      · intro _ id n _ subscribed
        exact absurd subscribed (Finset.notMem_empty id)
      · intro number message sending
        cases sending
    · cases taken
  | subscribe printerIds ok =>
    unfold Service.step at taken
    dsimp only at taken
    split at taken
    · cases taken
      exact ⟨watched.numbered, watched.requested, watched.first, watched.sending, watched.respected⟩
    · cases taken
  | insert =>
    unfold Service.step at taken
    dsimp only at taken
    split at taken
    · rename_i reader
      cases taken
      exact watched.insert reader may
    · cases taken
  | unsubscribe printerIds =>
    unfold Service.step at taken
    dsimp only at taken
    split at taken
    · rename_i reader
      cases taken
      refine watched.resubscribe fun _ id n _ still other => absurd ?_ other
      exact (Finset.mem_sdiff.mp still).1
    · cases taken
  | close =>
    unfold Service.step at taken
    dsimp only at taken
    split at taken
    · cases taken
      exact ⟨watched.numbered, watched.requested, watched.first, watched.sending, watched.respected⟩
    · cases taken
  | abort =>
    unfold Service.step at taken
    dsimp only at taken
    split at taken
    · cases taken
      exact watched.await (fun live => absurd rfl live) (by simp)
    · cases taken
  | receive =>
    unfold Service.step Service.receive at taken
    dsimp only at taken
    split at taken
    · rename_i ready
      cases taken
      refine watched.await (fun _ => by simp [ready.1]) ?_
      intro number message
      split <;> simp
    · cases taken
  | decide => exact watched.decide taken
  | send ok => exact watched.send taken

end Steps
end Service

/-- While subscriptions are inserted with the access they were queried with, and what ends one
comes before more telemetry, nothing is sent of a printer whose access was lost. -/
theorem access_respected (session : WsSession) {s : Service}
    (reached : (watching session).Reaches (fun s a => s.inform session a) s) : s.Respected := by
  have watched : s.Watched session := by
    apply reached.invariant (Service.Watched session)
    · constructor
      · intro x member
        cases member
      · intro message member
        cases member
      · intro _ id n gone
        cases gone
      · intro number message sending
        cases sending
      · intro x member
        cases member
    · intro s a t watched may taken
      exact watched.step may taken
  exact watched.respected

def member : WsSession := ⟨"U1", "member"⟩

/-- The user has a printer and subscribes to it. -/
def subscribed : List AccessAction :=
  [.addPrinter "P1", .assignPrinter "P1" "U1", .broadcast 0, .connect, .subscribe ["P1"] true, .insert]

/-- `send_task` handles a message that is for the socket. -/
def forwarded : List AccessAction := [.receive, .decide, .send true]

/-- Telemetry broadcast before the assignment is deleted is sent, and none after it. -/
theorem access_respected_unassigned : ∃ s, (watching member).Reaches (fun s a => s.inform member a) s ∧
    s.Respected ∧ s.lostAt "P1" = some 3 ∧ s.queue = [] ∧ s.sent.map Sent.number = [1, 2, 3] := by
  obtain ⟨s, reached, final⟩ := Machine.Reaches.of_trace (watching member) (fun s a => s.inform member a)
    (subscribed ++ [.telemetry "P1", .telemetry "P1"] ++ forwarded ++ [.unassignPrinter "P1" "U1"] ++ forwarded ++
      [.broadcast 0, .telemetry "P1"] ++ forwarded ++ [.receive, .decide])
    (fun s => s.lostAt "P1" = some 3 ∧ s.queue = [] ∧ s.sent.map Sent.number = [1, 2, 3]) (by decide)
  exact ⟨s, reached, access_respected member reached, final⟩

/-- Nobody is told that the assignments of a printer are deleted with it. -/
theorem removed_printer_is_sent : ¬ ∀ session : WsSession, session.role ≠ "admin" → ∀ s,
    (watching session).Reachable s → s.Respected := by
  intro respected
  obtain ⟨s, reached, fails⟩ := Machine.Reachable.of_trace (watching member)
    (subscribed ++ [.removePrinter "P1", .telemetry "P1"] ++ forwarded) (fun s => ¬ s.Respected) (by decide)
  exact fails (respected member (by decide) s reached)

end RndRust.Bambu.Api
