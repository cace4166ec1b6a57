import RndRust.Sniper.Client

/-! Which write task a message of the client channel is passed to. The forwarder that once got
the lock of the receiver keeps it over every reconnect, and forwards to its own connection. -/
namespace RndRust.Sniper
open Lib

/-- The messages among `log` that were taken while `conn` was up. -/
def during (conn : ℕ) (log : List (String × Option ℕ)) : List String :=
  (log.filter (·.2 = some conn)).map Prod.fst

/-- The message that the forwarder of connection `conn` still has, when it took it while that
connection was up. -/
def Connection.inHand (conn : ℕ) (c : Connection) : List String :=
  match c.forwarder with
  | .sending msg live => if live = some conn then [msg] else []
  | _ => []

namespace WsClient

/-- A message is taken while a connection is up only by the forwarder of that connection, and
while its write task runs; and a write task does not end while such a message waits for room. -/
def current (s : WsClient) : ClientAction → Bool
  | .recv i => s.live.all fun k => k = i ∧ (s.conns[i]?).any (·.writing)
  | .writeFails i => (s.conns[i]?).all (·.inHand i = [])
  | _ => true

/-- What was taken while a connection was up was passed to its write task, in order, but for
the message that waits for room there; no other write task was passed any of it. -/
structure Delivered (s : WsClient) : Prop where
  own : ∀ k (conn : Connection), s.conns[k]? = some conn → during k s.taken = during k conn.passed ++ conn.inHand k
  only : ∀ k (conn : Connection), s.conns[k]? = some conn → ∀ msg live, (msg, some live) ∈ conn.passed → live = k

/-- The tasks of connection `k` pass a message on, whatever the others do. -/
def Passes (s : WsClient) (k : ℕ) (msg : String) : Prop :=
  ∃ trace t conn, (∀ a ∈ trace, a = .write k ∨ a = .send k) ∧ wsClient.run s trace = some t ∧
    t.conns[k]? = some conn ∧ (msg, some k) ∈ conn.passed

end WsClient

/-- What holds of connection `k` when `taken` was taken. -/
structure Connection.Steady (taken : List (String × Option ℕ)) (k : ℕ) (conn : Connection) : Prop where
  own : during k taken = during k conn.passed ++ conn.inHand k
  only : ∀ msg live, (msg, some live) ∈ conn.passed → live = k
  hand : ∀ msg live, conn.forwarder = .sending msg (some live) → live = k ∧ conn.writing

structure WsClient.Steady (s : WsClient) : Prop where
  conns : ∀ k (conn : Connection), s.conns[k]? = some conn → conn.Steady s.taken k
  /-- Nothing was taken while a connection was up that is not there yet. -/
  known : ∀ entry ∈ s.taken, ∀ k, entry.2 = some k → k < s.conns.length
  live : ∀ k, s.live = some k → k < s.conns.length

section Steady

variable {s t : WsClient} {a : ClientAction} {i k : ℕ} {conn old new : Connection} {msg : String} {live : Option ℕ}

theorem during_append {log : List (String × Option ℕ)} :
    during k (log ++ [(msg, live)]) = during k log ++ if live = some k then [msg] else [] := by
  unfold during
  rw [List.filter_append, List.map_append]
  by_cases same : live = some k <;> simp [same]

theorem during_unknown {log : List (String × Option ℕ)} (unknown : ∀ entry ∈ log, entry.2 ≠ some k) :
    during k log = [] := by
  simpa [during] using unknown

theorem inHand_sending (sending : conn.forwarder = .sending msg live) :
    conn.inHand k = if live = some k then [msg] else [] := by
  simp [Connection.inHand, sending]

theorem inHand_idle (idle : ∀ msg live, conn.forwarder ≠ .sending msg live) : conn.inHand k = [] := by
  unfold Connection.inHand
  split
  · rename_i sending
    exact (idle _ _ sending).elim
  · rfl

theorem WsClient.setConn_cases (known : s.conns[i]? = some old) (found : (s.setConn i new).conns[k]? = some conn) :
    (k = i ∧ conn = new) ∨ (k ≠ i ∧ s.conns[k]? = some conn) := by
  simp only [setConn, getElem?_set_known known] at found
  split at found
  · rename_i same
    exact .inl ⟨same.symm, (Option.some.inj found).symm⟩
  · rename_i other
    exact .inr ⟨Ne.symm other, found⟩

namespace WsClient.Steady

theorem frame (steady : s.Steady) (conns : t.conns = s.conns) (taken : t.taken = s.taken)
    (live : ∀ k, t.live = some k → s.live = some k) : t.Steady where
  conns := by
    rw [conns, taken]
    exact steady.conns
  known := by
    rw [conns, taken]
    exact steady.known
  live k up := by
    rw [conns]
    exact steady.live k (live k up)

/-- A connection changes, and nothing is taken. -/
theorem set (steady : s.Steady) (known : s.conns[i]? = some old) (own : new.Steady s.taken i) :
    (s.setConn i new).Steady where
  conns k conn found := by
    obtain ⟨rfl, rfl⟩ | ⟨-, found⟩ := setConn_cases known found
    · exact own
    · exact steady.conns k conn found
  known := by simpa [setConn] using steady.known
  live k up := by simpa [setConn] using steady.live k up

theorem enqueue (steady : s.Steady) (taken : s.enqueue i msg = some t) : t.Steady := by
  unfold WsClient.enqueue at taken
  split at taken
  · rename_i conn known
    split at taken
    · cases taken
      obtain ⟨own, only, hand⟩ := steady.conns i conn known
      exact steady.set known ⟨own, only, hand⟩
    · cases taken
  · cases taken

theorem connect (steady : s.Steady) :
    Steady { s with phase := .reading s.conns.length, conns := s.conns ++ [{}] } where
  conns k conn found := by
    simp only [getElem?_append_one] at found
    split at found
    · rename_i same
      cases found
      refine ⟨?_, by simp, by simp⟩
      exact during_unknown fun entry member up => Nat.ne_of_lt (steady.known entry member k up) same
    · exact steady.conns k conn found
  known entry member k up := by
    rw [List.length_append]
    exact Nat.lt_add_right _ (steady.known entry member k up)
  live k up := by
    cases up
    simp

/-- A message is taken by the connection that is up, or while none is. -/
theorem recv (steady : s.Steady) (known : s.conns[i]? = some conn) (receiving : conn.forwarder = .receiving)
    (allowed : s.current (.recv i)) (taken : s.recv i conn = some t) : t.Steady := by
  obtain ⟨own, only, -⟩ := steady.conns i conn known
  rw [inHand_idle (by simp [receiving]), List.append_nil] at own
  unfold WsClient.recv at taken
  split at taken
  · rename_i msg rest client
    cases taken
    have mine : ∀ k, s.live = some k → k = i ∧ conn.writing := by
      intro k up
      simpa [current, up, known] using allowed
    refine ⟨fun k c found => ?_, ?_, ?_⟩
    · obtain ⟨rfl, rfl⟩ | ⟨other, found⟩ := setConn_cases known found
      · refine ⟨?_, only, fun msg live sending => ?_⟩
        · rw [during_append, inHand_sending rfl, own]
        · simp only [Forwarder.sending.injEq] at sending
          exact mine live sending.2
      · obtain ⟨own, only, hand⟩ := steady.conns k c found
        refine ⟨?_, only, hand⟩
        rw [during_append, if_neg fun up => other (mine k up).1, List.append_nil]
        exact own
    · intro entry member k up
      simp only [setConn, List.length_set]
      rcases List.mem_append.mp member with old | new
      · exact steady.known entry old k up
      · cases List.mem_singleton.mp new
        exact steady.live k up
    · intro k up
      simp only [setConn, List.length_set]
      exact steady.live k up
  · split at taken
    · cases taken
      refine steady.set known ⟨?_, only, by simp⟩
      rw [inHand_idle (by simp), List.append_nil]
      exact own
    · cases taken

theorem send (steady : s.Steady) (known : s.conns[i]? = some conn) (sending : conn.forwarder = .sending msg live)
    (taken : s.send i conn msg live = some t) : t.Steady := by
  obtain ⟨own, only, hand⟩ := steady.conns i conn known
  rw [inHand_sending sending] at own
  unfold WsClient.send at taken
  split at taken
  · split at taken
    · cases taken
      refine steady.set known ⟨?_, ?_, by simp⟩
      · rw [during_append, inHand_idle (by simp), List.append_nil]
        exact own
      · intro m l member
        rcases List.mem_append.mp member with old | new
        · exact only m l old
        · cases List.mem_singleton.mp new
          exact (hand msg l sending).1
    · cases taken
  · rename_i ended
    cases taken
    have nobody : live = none := by
      cases live with
      | none => rfl
      | some k => exact (ended (hand msg k sending).2).elim
    refine steady.set known ⟨?_, only, by simp⟩
    rw [inHand_idle (by simp), List.append_nil]
    simpa [nobody] using own

theorem step (steady : s.Steady) (allowed : s.current a) (taken : s.step a = some t) : t.Steady := by
  cases step_takes taken with
  | puts | closes => exact steady.frame rfl rfl fun k up => up
  | connects => exact steady.connect
  | fails | ends | wakes =>
    refine steady.frame rfl rfl fun k up => ?_
    cases up
  | pings queued => exact steady.enqueue queued
  | pongs queued => exact steady.enqueue queued
  | @locks i conn known locking =>
    obtain ⟨own, only, -⟩ := steady.conns i conn known
    rw [inHand_idle (by simp [locking])] at own
    refine steady.set known ⟨?_, only, by simp⟩
    rw [inHand_idle (by simp)]
    exact own
  | receives known receiving took => exact steady.recv known receiving allowed took
  | sends known sending sent => exact steady.send known sending sent
  | @writes i conn text rest known queued =>
    obtain ⟨own, only, hand⟩ := steady.conns i conn known
    exact steady.set known ⟨own, only, hand⟩
  | @breaks i conn known =>
    obtain ⟨own, only, hand⟩ := steady.conns i conn known
    refine steady.set known ⟨own, only, fun msg live sending => ?_⟩
    obtain ⟨rfl, -⟩ := hand msg live sending
    simp [current, known, Connection.inHand, show conn.forwarder = _ from sending] at allowed

end WsClient.Steady

/-- The message in hand goes to the write task as soon as that has made room. -/
theorem WsClient.passes (known : s.conns[k]? = some conn) (sending : conn.forwarder = .sending msg (some k))
    (writing : conn.writing) : s.Passes k msg := by
  obtain ⟨n, queue, room, ran⟩ := makes_room known writing
  have after := setConn_same { conn with queue } known
  have taken := send_step after sending writing room
  have known' := setConn_same { conn with
    queue := queue ++ [msg], passed := conn.passed ++ [(msg, some k)], forwarder := .receiving } after
  refine ⟨List.replicate n (.write k) ++ [.send k], _, _, ?_, ?_, known', by simp⟩
  · intro a member
    rcases List.mem_append.mp member with writes | sends
    · exact .inl (List.eq_of_mem_replicate writes)
    · exact .inr (List.mem_singleton.mp sends)
  · rw [Machine.run_append, ran]
    simp only [Option.bind_some, Machine.run_cons, wsClient, taken]
    rfl

/-- **Messages go to the live connection** in every run in which the forwarder of a connection
that is up is the one that holds the receiver, and its write task goes on. -/
theorem messages_to_live (reached : wsClient.Reaches (fun s a => s.current a) s) :
    s.Delivered ∧ ∀ k conn msg, s.conns[k]? = some conn → conn.forwarder = .sending msg (some k) → s.Passes k msg := by
  have steady : s.Steady := by
    refine reached.invariant WsClient.Steady ?_ fun _ _ _ steady allowed taken => steady.step allowed taken
    exact ⟨by simp [wsClient], by simp [wsClient], by simp [wsClient, WsClient.live]⟩
  refine ⟨⟨fun k conn found => (steady.conns k conn found).own, fun k conn found => (steady.conns k conn found).only⟩, ?_⟩
  intro k conn msg known sending
  exact WsClient.passes known sending ((steady.conns k conn known).hand msg k sending).2

end Steady

/-- A connection that is up before its forwarder gets the lock. -/
def firstConnect : List ClientAction := [.connect, .lock 0]

theorem messages_to_live_first : ∃ s, wsClient.Reaches (fun s a => s.current a) s ∧
    s.taken = [("a", some 0), ("b", some 0)] ∧ s.Delivered := by
  obtain ⟨s, reached, taken⟩ := Machine.Reaches.of_trace wsClient (fun s a => s.current a)
    (firstConnect ++ [.put "a", .put "b", .ping 0, .recv 0, .send 0, .write 0, .recv 0])
    (fun s => s.taken = [("a", some 0), ("b", some 0)]) (by decide)
  exact ⟨s, reached, taken, (messages_to_live reached).1⟩

/-- After a reconnect the old forwarder takes the message, and its write task is passed it. -/
theorem messages_to_live_fails : ∃ s, wsClient.Reachable s ∧ s.live = some 1 ∧ s.taken = [("a", some 1)] ∧
    (∃ old, s.conns[0]? = some old ∧ old.passed = [("a", some 1)]) ∧ ¬s.Delivered := by
  obtain ⟨s, reached, live, taken, passed⟩ := Machine.Reachable.of_trace wsClient
    (firstConnect ++ [.readEnds, .wake, .connect, .put "a", .recv 0, .send 0])
    (fun s => s.live = some 1 ∧ s.taken = [("a", some 1)] ∧ s.conns[0]?.map (·.passed) = some [("a", some 1)])
    (by decide)
  obtain ⟨old, found, same⟩ := Option.map_eq_some_iff.mp passed
  refine ⟨s, reached, live, taken, ⟨old, found, same⟩, fun delivered => ?_⟩
  exact absurd (delivered.only 0 old found "a" 1 (by simp [same])) (by decide)

end RndRust.Sniper
