import RndRust.Irc.Bnc.Upstream

/-! How often a message reaches a client. The snapshot holds a message once for every
buffer it is in, and the channel brings what is sent to it after the subscription; what
falls between the two, or into both, is counted here. -/
namespace RndRust.Irc.Bnc
open Lib Proto

section Buffering

variable {buffers : Buffers} {now target other : Bytes} {m : Incoming} {targets : List Bytes}

/-- Everything that is buffered. -/
def Buffers.kept (buffers : Buffers) : List (Bytes × Incoming) :=
  buffers.values.flatMap MessageBuffer.entries

/-- No more than what a replay shows is buffered for a target. -/
def Roomy (buffers : Buffers) : Prop := ∀ buf ∈ buffers.values, buf.entries.length ≤ 500

instance : Decidable (Roomy buffers) :=
  inferInstanceAs (Decidable (∀ buf ∈ buffers.values, buf.entries.length ≤ 500))

theorem Roomy.at (roomy : Roomy buffers) (target : Bytes) : (buffers.at target).entries.length ≤ 500 := by
  unfold Buffers.at
  cases found : buffers.lookup target with
  | none => exact Nat.zero_le _
  | some buf => exact roomy buf (Table.mem_values.mpr ⟨target, found⟩)

theorem MessageBuffer.le_push {cap : ℕ} (buf : MessageBuffer cap) (now : Bytes) (m : Incoming) :
    buf.entries.length ≤ (buf.push now m).entries.length := by
  simp only [push, List.length_append, List.length_singleton]
  split
  · rw [List.length_tail]
    omega
  · omega

theorem MessageBuffer.push_entries {cap : ℕ} {buf : MessageBuffer cap} (room : buf.entries.length < cap) :
    (buf.push now m).entries = buf.entries ++ [(now, m)] := by
  simp only [push]
  rw [if_neg (by omega)]

theorem Buffers.at_insert {buf : MessageBuffer defaultMax} :
    Buffers.at (AList.insert target buf buffers) other = if other = target then buf else buffers.at other := by
  unfold Buffers.at
  rw [Table.lookup_insert_eq]
  split <;> rfl

/-- Buffering takes nothing away from a buffer's length. -/
theorem le_bufferMessage : (buffers.at other).entries.length ≤
    (Buffers.at (bufferMessage now m buffers targets) other).entries.length := by
  induction targets generalizing buffers with
  | nil => exact Nat.le_refl _
  | cons target targets ih =>
    refine Nat.le_trans ?_ ih
    rw [Buffers.at_insert]
    split
    · rename_i same
      rw [same]
      exact MessageBuffer.le_push _ now m
    · exact Nat.le_refl _

theorem kept_insert (room : (buffers.at target).entries.length < defaultMax) :
    (Buffers.kept (AList.insert target ((buffers.at target).push now m) buffers)).Perm
      ((now, m) :: buffers.kept) := by
  unfold Buffers.kept
  rw [Table.values_insert, List.flatMap_cons, MessageBuffer.push_entries room]
  unfold Buffers.at
  cases found : buffers.lookup target with
  | none => rw [Table.values_erase_none found]; exact List.Perm.refl _
  | some buf =>
    have split := (Table.values_erase found).flatMap_right MessageBuffer.entries
    rw [List.flatMap_cons] at split
    rw [List.append_assoc]
    exact List.perm_middle.trans (List.Perm.cons _ split.symm)

/-- While nothing is evicted, a message is kept once for each of its targets. -/
theorem kept_bufferMessage (roomy : Roomy (bufferMessage now m buffers targets)) :
    (Buffers.kept (bufferMessage now m buffers targets)).Perm
      (List.replicate targets.length (now, m) ++ buffers.kept) := by
  induction targets generalizing buffers with
  | nil => exact List.Perm.refl _
  | cons target targets ih =>
    -- The buffers only grow, so there was room when this entry was added.
    have room : (buffers.at target).entries.length < defaultMax := by
      have final : (Buffers.at (bufferMessage now m buffers (target :: targets)) target).entries.length ≤ 500 :=
        roomy.at target
      rw [bufferMessage] at final
      have grown := Nat.le_trans le_bufferMessage final
      rw [Buffers.at_insert, if_pos rfl] at grown
      have before := MessageBuffer.le_push (buffers.at target) now m
      unfold defaultMax
      omega
    refine (ih roomy).trans ?_
    rw [List.length_cons, List.replicate_succ', List.append_assoc]
    exact List.Perm.append_left _ (kept_insert room)

/-- The targets under which a message is buffered. -/
def targetsOf (msg : Message) : List Bytes :=
  match Command.parse msg with
  | .ok (.privmsg targets _) | .ok (.notice targets _) => targets
  | _ => []

theorem processIncoming_buffers {state : UpstreamState} : (processIncoming state now m).1.buffers =
    bufferMessage now m state.buffers (targetsOf m.msg) := by
  unfold processIncoming targetsOf
  cases Command.parse m.msg with
  | error => rfl
  | ok command =>
    cases command with
    | numeric code =>
      simp only
      split <;> rfl
    | _ => rfl

end Buffering

section Counting

variable {s s' : Bouncer} {id : ℕ}

/-- Whether a message was there for the snapshot, and its replay, with the time tag, is
within the limit of the codec. -/
def Traffic.replayed (t : Traffic) : Bool := t.stage = .early && encodable (replayOf t.timestamp t.msg)

/-- How often a message is replayed: once for each target. -/
def replays (processed : List Traffic) (id : ℕ) : ℕ :=
  match processed[id]? with
  | none => 0
  | some t => if t.replayed then (targetsOf t.msg).length else 0

/-- How often a message comes over the channel. -/
def lives (broadcasts : List (ℕ × Stage)) (id : ℕ) : ℕ := broadcasts.count (id, .subscribed)

/-- How often the client was sent a message. -/
def Bouncer.delivered (s : Bouncer) (id : ℕ) : ℕ := s.sent.countP (·.source = some id)

/-- How often a message is among those still to replay. -/
def due (rest : List Outgoing) (id : ℕ) : ℕ :=
  rest.countP fun out => out.source = some id && encodable out.msg

/-- What the client was sent and is about to be sent, by how far it has come. -/
def Settles (s : Bouncer) : Prop :=
  match s.client with
  | .away | .welcomed => s.sent = [] ∧ (∀ t ∈ s.processed, t.stage = .early) ∧ ∀ id, lives s.broadcasts id = 0
  | .replaying rest => ∀ id, s.delivered id + due rest id = replays s.processed id ∧ lives s.broadcasts id = 0
  | .relaying queue => ∀ id, s.delivered id + queue.countP (·.id = id) =
      replays s.processed id + lives s.broadcasts id
  | .gone => True

/-- The books of the bouncer: what is kept, what went to the channel, what is sent. -/
structure Accounted (s : Bouncer) : Prop where
  roomy : Roomy s.state.buffers
  counts : ∀ id, s.state.buffers.kept.countP (·.2.id = id) =
    (s.processed[id]?.map fun t => (targetsOf t.msg).length).getD 0
  entries : ∀ e ∈ s.state.buffers.kept, ∃ t, s.processed[e.2.id]? = some t ∧ t.timestamp = e.1 ∧ t.msg = e.2.msg
  waiting : ∀ m, s.pending = some m → m.id + 1 = s.processed.length ∧ ∀ b ∈ s.broadcasts, b.1 ≠ m.id
  known : ∀ b ∈ s.broadcasts, b.1 < s.processed.length
  single : (s.broadcasts.map Prod.fst).Nodup
  settles : Settles s

/-- A message that is processed after the snapshot is not replayed. -/
theorem replays_late {processed : List Traffic} {t : Traffic} (late : t.stage ≠ .early) :
    replays (processed ++ [t]) id = replays processed id := by
  unfold replays
  rcases Nat.lt_trichotomy id processed.length with inside | rfl | outside
  · rw [List.getElem?_append_left inside]
  · simp [Traffic.replayed, late]
  · rw [List.getElem?_eq_none (by simp; omega), List.getElem?_eq_none (by omega)]

theorem due_append {first later : List Outgoing} : due (first ++ later) id = due first id + due later id := by
  simp [due, List.countP_append]

theorem due_joins {state : UpstreamState} : due (joinMessages state) id = 0 := by
  simp [due, joinMessages]

/-- While no more is buffered than a replay shows, the snapshot holds all of it. -/
theorem replayMessages_kept {state : UpstreamState} (roomy : Roomy state.buffers) : replayMessages state =
    state.buffers.kept.map fun e => { source := some e.2.id, msg := replayOf e.1 e.2.msg } := by
  unfold replayMessages Buffers.kept
  rw [List.map_flatMap]
  refine List.flatMap_congr fun buf member => ?_
  rw [MessageBuffer.lastN, Nat.sub_eq_zero_of_le (roomy buf member), List.drop_zero]

/-- **The snapshot holds what is replayed.** -/
theorem due_snapshot (accounted : Accounted s) (early : ∀ t ∈ s.processed, t.stage = .early) :
    due (joinMessages s.state ++ replayMessages s.state) id = replays s.processed id := by
  have counted := accounted.counts id
  rw [due_append, due_joins, Nat.zero_add, replayMessages_kept accounted.roomy, due, List.countP_map, replays]
  cases found : s.processed[id]? with
  | none =>
    rw [found] at counted
    refine List.countP_eq_zero.mpr fun e member => ?_
    have other := List.countP_eq_zero.mp counted e member
    simpa using fun own => absurd own (by simpa using other)
  | some t =>
    rw [found] at counted
    have own : ∀ e ∈ s.state.buffers.kept, e.2.id = id → replayOf e.1 e.2.msg = replayOf t.timestamp t.msg := by
      intro e member same
      obtain ⟨t', listed, stamp, msg⟩ := accounted.entries e member
      rw [same, found] at listed
      obtain rfl := Option.some.inj listed
      rw [stamp, msg]
    have first := early t (List.mem_of_getElem? found)
    by_cases fits : encodable (replayOf t.timestamp t.msg)
    · simp only [Traffic.replayed, first, fits, decide_true, Bool.and_self, if_true]
      rw [← show _ = (targetsOf t.msg).length from counted]
      refine List.countP_congr fun e member => ?_
      by_cases same : e.2.id = id
      · simp [same, own e member same, fits]
      · simp [same]
    · simp only [Traffic.replayed, fits, Bool.and_false, Bool.false_eq_true, if_false]
      refine List.countP_eq_zero.mpr fun e member => ?_
      by_cases same : e.2.id = id
      · simp [same, own e member same, fits]
      · simp [same]

theorem lives_append {broadcasts : List (ℕ × Stage)} {other : ℕ} {stage : Stage} :
    lives (broadcasts ++ [(other, stage)]) id =
      lives broadcasts id + if stage = .subscribed ∧ other = id then 1 else 0 := by
  simp only [lives, List.count_append, List.count_singleton, beq_iff_eq, Prod.mk.injEq]
  congr 1
  simp [and_comm]

/-- No step buffers more for a target than a replay shows. -/
def Bouncer.roomy (s : Bouncer) : Action → Bool
  | .receive msg now => Roomy (processIncoming s.state now ⟨s.processed.length, msg⟩).1.buffers
  | _ => true

theorem Accounted.receive (accounted : Accounted s) {msg : Message} {now : Bytes}
    (roomy : s.roomy (.receive msg now)) (taken : s.step (.receive msg now) = some s') : Accounted s' := by
  simp only [Bouncer.step] at taken
  split at taken
  · cases taken
  · rename_i idle
    simp only [Option.some.injEq] at taken
    subst taken
    have kept : (Buffers.kept (processIncoming s.state now ⟨s.processed.length, msg⟩).1.buffers).Perm
        (List.replicate (targetsOf msg).length (now, ⟨s.processed.length, msg⟩) ++ s.state.buffers.kept) := by
      have room : Roomy (processIncoming s.state now ⟨s.processed.length, msg⟩).1.buffers := by
        simpa [Bouncer.roomy] using roomy
      rw [processIncoming_buffers] at room ⊢
      exact kept_bufferMessage room
    refine ⟨by simpa [Bouncer.roomy] using roomy, fun id => ?_, ?_, ?_, ?_, accounted.single, ?_⟩
    · rw [kept.countP_eq, List.countP_append, accounted.counts id, List.countP_replicate]
      rcases Nat.lt_trichotomy id s.processed.length with inside | rfl | outside
      · rw [List.getElem?_append_left inside]
        simp [inside.ne']
      · simp
      · simp [outside.ne, List.getElem?_eq_none (show (s.processed ++ [_]).length ≤ id by simp; omega),
          List.getElem?_eq_none outside.le]
    · intro e member
      rcases List.mem_append.mp (kept.mem_iff.mp member) with new | old
      · obtain rfl := List.eq_of_mem_replicate new
        exact ⟨_, List.getElem?_concat_length, rfl, rfl⟩
      · obtain ⟨t, listed, own⟩ := accounted.entries e old
        refine ⟨t, ?_, own⟩
        obtain ⟨inside, -⟩ := List.getElem?_eq_some_iff.mp listed
        rw [List.getElem?_append_left inside, listed]
    · intro m waiting
      dsimp only at waiting
      split at waiting
      · cases waiting
        exact ⟨by simp, fun b member => (accounted.known b member).ne⟩
      · cases waiting
    · intro b member
      rw [List.length_append]
      exact Nat.lt_add_right _ (accounted.known b member)
    · have settles := accounted.settles
      unfold Settles at settles ⊢
      cases client : s.client with
      | away =>
        rw [client] at settles
        refine ⟨settles.1, ?_, settles.2.2⟩
        simpa [client, Client.stage, or_imp, forall_and] using settles.2.1
      | welcomed =>
        rw [client] at settles
        refine ⟨settles.1, ?_, settles.2.2⟩
        simpa [client, Client.stage, or_imp, forall_and] using settles.2.1
      | replaying rest =>
        rw [client] at settles
        intro id
        rw [replays_late (by simp [Client.stage])]
        exact settles id
      | relaying queue =>
        rw [client] at settles
        intro id
        rw [replays_late (by simp [Client.stage])]
        exact settles id
      | gone => trivial

theorem Accounted.broadcast (accounted : Accounted s) (taken : s.step .broadcast = some s') :
    Accounted s' := by
  simp only [Bouncer.step] at taken
  split at taken
  · cases taken
  · rename_i m waiting
    simp only [Option.some.injEq] at taken
    subst taken
    obtain ⟨last, fresh⟩ := accounted.waiting m waiting
    refine ⟨accounted.roomy, accounted.counts, accounted.entries, by simp, ?_, ?_, ?_⟩
    · intro b member
      rcases List.mem_append.mp member with old | new
      · exact accounted.known b old
      · rw [List.mem_singleton.mp new]
        dsimp only
        omega
    · rw [List.map_append, List.nodup_append]
      refine ⟨accounted.single, by simp, ?_⟩
      intro one member other new
      obtain ⟨b, old, rfl⟩ := List.mem_map.mp member
      obtain rfl : other = m.id := by simpa using new
      exact fresh b old
    · have settles := accounted.settles
      unfold Settles at settles ⊢
      cases client : s.client with
      | away =>
        rw [client] at settles
        refine ⟨settles.1, settles.2.1, fun id => ?_⟩
        simp [lives_append, Client.stage, settles.2.2]
      | welcomed =>
        rw [client] at settles
        refine ⟨settles.1, settles.2.1, fun id => ?_⟩
        simp [lives_append, Client.stage, settles.2.2]
      | replaying rest =>
        rw [client] at settles
        intro id
        refine ⟨(settles id).1, ?_⟩
        simp [lives_append, Client.stage, (settles id).2]
      | relaying queue =>
        rw [client] at settles
        intro id
        have before := settles id
        simp only [lives_append, Client.stage, List.countP_append, List.countP_singleton, decide_eq_true_eq,
          true_and]
        simp only [Bouncer.delivered] at before ⊢
        omega
      | gone => trivial

/-- The task of the client touches neither the buffers nor the channel. -/
theorem Accounted.move (accounted : Accounted s) {client : Client} {sent : List Outgoing}
    (settles : Settles { s with client, sent }) : Accounted { s with client, sent } :=
  ⟨accounted.roomy, accounted.counts, accounted.entries, accounted.waiting, accounted.known,
    accounted.single, settles⟩

theorem Accounted.authenticate (accounted : Accounted s) (taken : s.step .authenticate = some s') :
    Accounted s' := by
  simp only [Bouncer.step] at taken
  split at taken
  · rename_i client
    cases taken
    refine accounted.move ?_
    have settles := accounted.settles
    simpa only [Settles, client] using settles
  · cases taken

theorem Accounted.snapshot (accounted : Accounted s) (taken : s.step .snapshot = some s') :
    Accounted s' := by
  simp only [Bouncer.step] at taken
  split at taken
  · rename_i client
    cases taken
    refine accounted.move ?_
    have settles := accounted.settles
    simp only [Settles, client] at settles
    obtain ⟨unsent, early, silent⟩ := settles
    intro id
    refine ⟨?_, silent id⟩
    rw [due_snapshot accounted early]
    simp [Bouncer.delivered, unsent]
  · cases taken

theorem Accounted.replay (accounted : Accounted s) (taken : s.step .replay = some s') :
    Accounted s' := by
  simp only [Bouncer.step] at taken
  split at taken
  · rename_i out rest client
    cases taken
    refine accounted.move ?_
    have settles := accounted.settles
    simp only [Settles, client] at settles
    intro id
    obtain ⟨before, silent⟩ := settles id
    refine ⟨?_, silent⟩
    simp only [Bouncer.delivered, due, List.countP_cons] at before ⊢
    by_cases fits : encodable out.msg
    · simp only [fits, Bool.and_true, decide_eq_true_eq, if_true, List.countP_append,
        List.countP_singleton] at before ⊢
      omega
    · simpa [fits] using before
  · cases taken

theorem Accounted.subscribe (accounted : Accounted s) (taken : s.step .subscribe = some s') :
    Accounted s' := by
  simp only [Bouncer.step] at taken
  split at taken
  · rename_i client
    cases taken
    refine accounted.move ?_
    have settles := accounted.settles
    simp only [Settles, client] at settles
    intro id
    obtain ⟨before, silent⟩ := settles id
    simpa [Bouncer.delivered, due, silent] using before
  · cases taken

theorem Accounted.relay (accounted : Accounted s) (taken : s.step .relay = some s') :
    Accounted s' := by
  simp only [Bouncer.step] at taken
  split at taken
  · rename_i m queue client
    have settles := accounted.settles
    simp only [Settles, client] at settles
    split at taken
    · cases taken
      refine accounted.move ?_
      intro id
      have before := settles id
      simp only [Bouncer.delivered, List.countP_cons, List.countP_append, List.countP_nil, decide_eq_true_eq,
        Option.some.injEq] at before ⊢
      omega
    · cases taken
      exact accounted.move trivial
  · cases taken

theorem Accounted.step (accounted : Accounted s) {a : Action} (roomy : s.roomy a)
    (taken : s.step a = some s') : Accounted s' := by
  cases a with
  | receive => exact accounted.receive roomy taken
  | broadcast => exact accounted.broadcast taken
  | authenticate => exact accounted.authenticate taken
  | snapshot => exact accounted.snapshot taken
  | replay => exact accounted.replay taken
  | subscribe => exact accounted.subscribe taken
  | relay => exact accounted.relay taken

theorem accounted {nick : Bytes} (reached : (bouncer nick).Reaches (fun s a => s.roomy a) s) :
    Accounted s := by
  refine Machine.Reaches.invariant Accounted ?_ (fun _ _ _ accounted roomy => accounted.step roomy) reached
  have empty : Table.values (∅ : Buffers) = [] := rfl
  refine ⟨?_, fun id => ?_, ?_, by simp [bouncer], by simp [bouncer], by simp [bouncer], ?_⟩
  · simp [bouncer, Roomy, empty]
  · simp [bouncer, Buffers.kept, empty]
  · simp [bouncer, Buffers.kept, empty]
  · simp [bouncer, Settles, lives]

end Counting

section Once

variable {s : Bouncer} {id : ℕ} {t : Traffic}

/-- `PRIVMSG` and `NOTICE`. -/
def isChat (msg : Message) : Bool :=
  match Command.parse msg with
  | .ok command => command.isChat
  | .error _ => false

/-- The reader is between two messages, and the client has sent all it had. -/
def Bouncer.Settled (s : Bouncer) : Prop := s.pending = none ∧ s.client = .relaying []

instance : Decidable s.Settled := inferInstanceAs (Decidable (s.pending = none ∧ s.client = .relaying []))

/-- A replayed message with one target does not come over the channel as well, and a
message that was not replayed does. -/
def Bouncer.Once (s : Bouncer) (id : ℕ) (t : Traffic) : Prop :=
  (t.replayed ∧ (targetsOf t.msg).length = 1 ∧ (id, Stage.subscribed) ∉ s.broadcasts) ∨
    (¬ t.replayed ∧ (id, Stage.subscribed) ∈ s.broadcasts)

instance : Decidable (s.Once id t) :=
  inferInstanceAs (Decidable ((t.replayed ∧ (targetsOf t.msg).length = 1 ∧ (id, Stage.subscribed) ∉ s.broadcasts) ∨
    (¬ t.replayed ∧ (id, Stage.subscribed) ∈ s.broadcasts)))

theorem targetsOf_ne_nil {msg : Message} (chat : isChat msg) : targetsOf msg ≠ [] := by
  unfold isChat at chat
  cases parsed : Command.parse msg with
  | error e =>
    rw [parsed] at chat
    cases chat
  | ok command =>
    rw [parsed] at chat
    obtain ⟨targets, text, some', rfl | rfl⟩ := parse_targets chat parsed
    · rwa [targetsOf, parsed]
    · rwa [targetsOf, parsed]

/-- **A message reaches the client exactly once** if and only if it was replayed under
one target and did not come over the channel, or was not replayed and did. -/
theorem delivered_once {nick : Bytes} (reached : (bouncer nick).Reaches (fun s a => s.roomy a) s)
    (settled : s.Settled) (processed : s.processed[id]? = some t) (chat : isChat t.msg) :
    s.delivered id = 1 ↔ s.Once id t := by
  have books := accounted reached
  have balance := books.settles
  simp only [Settles, settled.2, List.countP_nil, Nat.add_zero] at balance
  have once := balance id
  have some' : 0 < (targetsOf t.msg).length := List.length_pos_iff.mpr (targetsOf_ne_nil chat)
  have atMost : lives s.broadcasts id ≤ 1 :=
    List.nodup_iff_count_le_one.mp (List.Nodup.of_map _ books.single) _
  have live : (id, Stage.subscribed) ∈ s.broadcasts ↔ 0 < lives s.broadcasts id :=
    List.count_pos_iff.symm
  rw [once, replays, processed, Bouncer.Once, live]
  by_cases replayed : t.replayed
  · simp only [replayed, if_true, true_and, not_true_eq_false, false_and, or_false]
    omega
  · simp only [replayed, Bool.false_eq_true, if_false, false_and, not_false_eq_true, true_and, false_or]
    omega

/-- One line of chat. -/
def chatLine (targets text : String) : Message :=
  { verb := .word (ascii "PRIVMSG"), params := ⟨[ascii targets, ascii text], true⟩ }

/-- A message that was buffered before the client came, and one it sees live. -/
def oneEach : List Action :=
  [.receive (chatLine "#a" "old") [], .broadcast, .authenticate, .snapshot, .replay, .subscribe,
    .receive (chatLine "#a" "new") [], .broadcast, .relay]

theorem delivered_once_each : ∃ s, (bouncer []).Reaches (fun s a => s.roomy a) s ∧ s.Settled ∧
    s.processed.map Traffic.msg = [chatLine "#a" "old", chatLine "#a" "new"] ∧
    s.delivered 0 = 1 ∧ s.delivered 1 = 1 := by
  have ran : (((bouncer []).guard fun s a => s.roomy a).run (bouncer []).initial oneEach).any fun s =>
      s.Settled ∧ s.processed.map Traffic.msg = [chatLine "#a" "old", chatLine "#a" "new"] ∧
        (∃ old ∈ s.processed[0]?, isChat old.msg ∧ s.Once 0 old) ∧
        ∃ new ∈ s.processed[1]?, isChat new.msg ∧ s.Once 1 new := by decide
  obtain ⟨s, ran, final⟩ := (Option.any_eq_true _ _).mp ran
  obtain ⟨settled, both, ⟨old, first, chat, once⟩, new, second, chat', once'⟩ := of_decide_eq_true final
  have reached := Machine.Reaches.run .initial ran
  exact ⟨s, reached, settled, both, (delivered_once reached settled first chat).mpr once,
    (delivered_once reached settled second chat').mpr once'⟩

/-- A message between the snapshot and the subscription is lost; one that was buffered
before the snapshot and comes over the channel as well is sent twice, and so is one
with two targets. -/
theorem delivered_once_fails :
    (∃ s, (bouncer []).Reaches (fun s a => s.roomy a) s ∧ s.Settled ∧
      s.processed.map Traffic.msg = [chatLine "#a" "lost"] ∧ s.delivered 0 = 0) ∧
    (∃ s, (bouncer []).Reaches (fun s a => s.roomy a) s ∧ s.Settled ∧
      s.processed.map Traffic.msg = [chatLine "#a" "twice"] ∧ s.delivered 0 = 2) ∧
    ∃ s, (bouncer []).Reaches (fun s a => s.roomy a) s ∧ s.Settled ∧
      s.processed.map Traffic.msg = [chatLine "#a,#b" "both"] ∧ s.delivered 0 = 2 := by
  have ends : ∀ (trace : List Action) (msg : Message) (n : ℕ),
      (((bouncer []).guard fun s a => s.roomy a).run (bouncer []).initial trace).any (fun s =>
        s.Settled ∧ s.processed.map Traffic.msg = [msg] ∧ s.delivered 0 = n) →
      ∃ s, (bouncer []).Reaches (fun s a => s.roomy a) s ∧ s.Settled ∧
        s.processed.map Traffic.msg = [msg] ∧ s.delivered 0 = n := by
    intro trace msg n ran
    obtain ⟨s, ran, final⟩ := (Option.any_eq_true _ _).mp ran
    exact ⟨s, Machine.Reaches.run .initial ran, of_decide_eq_true final⟩
  refine ⟨ends [.authenticate, .snapshot, .receive (chatLine "#a" "lost") [], .broadcast, .subscribe] _ _ ?_,
    ends [.authenticate, .receive (chatLine "#a" "twice") [], .snapshot, .replay, .subscribe, .broadcast, .relay]
      _ _ ?_,
    ends [.receive (chatLine "#a,#b" "both") [], .broadcast, .authenticate, .snapshot, .replay, .replay,
      .subscribe] _ _ ?_⟩
  · decide
  · decide
  · decide

end Once

section Progress

variable (nick : Bytes) {s : Bouncer}

/-- The relay loop works off what its receiver holds. -/
theorem relays {queue : List Incoming} (idle : s.pending = none) (client : s.client = .relaying queue) :
    ∃ trace t, (bouncer nick).run s trace = some t ∧ (t.Settled ∨ t.client = .gone) := by
  induction queue generalizing s with
  | nil => exact ⟨[], s, rfl, .inl ⟨idle, client⟩⟩
  | cons m queue ih =>
    by_cases fits : encodable m.msg
    · obtain ⟨trace, t, ran, done⟩ := @ih
        { s with client := .relaying queue, sent := s.sent ++ [{ source := some m.id, msg := m.msg }] } idle rfl
      refine ⟨.relay :: trace, t, ?_, done⟩
      simpa [bouncer, Bouncer.step, client, fits] using ran
    · exact ⟨[.relay], { s with client := .gone }, by simp [bouncer, Bouncer.step, client, fits], .inr rfl⟩

/-- The replay is sent to its end, whatever the encoder refuses. -/
theorem replays_all {rest : List Outgoing} (client : s.client = .replaying rest) : ∃ trace t,
    (bouncer nick).run s trace = some t ∧ t.pending = s.pending ∧ t.client = .relaying [] := by
  induction rest generalizing s with
  | nil => exact ⟨[.subscribe], { s with client := .relaying [] }, by simp [bouncer, Bouncer.step, client], rfl, rfl⟩
  | cons out rest ih =>
    obtain ⟨trace, t, ran, done⟩ := @ih
      { s with client := .replaying rest, sent := if encodable out.msg then s.sent ++ [out] else s.sent } rfl
    refine ⟨.replay :: trace, t, ?_, done⟩
    simpa [bouncer, Bouncer.step, client] using ran

/-- The reader sends what it is about to send. -/
theorem broadcasts_pending (here : s.client ≠ .away) (stays : s.client ≠ .gone) : ∃ trace t,
    (bouncer nick).run s trace = some t ∧ t.pending = none ∧ t.client ≠ .away ∧ t.client ≠ .gone := by
  cases waiting : s.pending with
  | none => exact ⟨[], s, rfl, waiting, here, stays⟩
  | some m =>
    refine ⟨[.broadcast], _, by simp [bouncer, Bouncer.step, waiting]; rfl, rfl, ?_, ?_⟩
    · cases client : s.client <;> simp_all
    · cases client : s.client <;> simp_all

/-- **A client that has logged in gets to a settled state** by steps of its own and of
the reader, unless its relay loop ends on a message the encoder refuses. -/
theorem settles (here : s.client ≠ .away) (stays : s.client ≠ .gone) : ∃ trace t,
    (bouncer nick).run s trace = some t ∧ (t.Settled ∨ t.client = .gone) := by
  obtain ⟨first, s₁, ran₁, idle, here, stays⟩ := broadcasts_pending nick here stays
  have finish : ∃ trace t, (bouncer nick).run s₁ trace = some t ∧ (t.Settled ∨ t.client = .gone) := by
    cases client : s₁.client with
    | away => exact absurd client here
    | gone => exact absurd client stays
    | relaying queue => exact relays nick idle client
    | replaying rest =>
      obtain ⟨trace, t, ran, waiting, done⟩ := replays_all nick client
      exact ⟨trace, t, ran, .inl ⟨waiting.trans idle, done⟩⟩
    | welcomed =>
      obtain ⟨trace, t, ran, waiting, done⟩ := @replays_all nick
        { s₁ with client := .replaying (joinMessages s₁.state ++ replayMessages s₁.state) } _ rfl
      refine ⟨.snapshot :: trace, t, ?_, .inl ⟨waiting.trans idle, done⟩⟩
      simpa [bouncer, Bouncer.step, client] using ran
  obtain ⟨last, t, ran₂, done⟩ := finish
  refine ⟨first ++ last, t, ?_, done⟩
  rw [Machine.run_append, ran₁]
  exact ran₂

end Progress

end RndRust.Irc.Bnc
