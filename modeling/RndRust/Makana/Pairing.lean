import RndRust.Lib.Lines
import RndRust.Makana.Elm327

/-! Which command a reply answers. A call that gave up leaves its answer on the line,
and the next call reads up to the first prompt it meets. -/
namespace RndRust.Makana
open Lib

/-- What is on the line for some answers. -/
def line (answers : List Bytes) : Bytes := answers.flatMap (· ++ [prompt])

/-- The bytes of the answer that is being read which the current call has read. -/
def Link.held (s : Link) : Bytes := (s.call.map Call.buf).getD []

/-- A reply is the answer to its own command. -/
def Reply.Paired (x : Reply) : Prop := x.answer = x.command

instance (x : Reply) : Decidable x.Paired := inferInstanceAs (Decidable (x.answer = x.command))

/-- Where the reader stands between the commands, the answers and the bytes. -/
structure Aligned (s : Link) : Prop where
  /-- Every command has been read to its prompt, was given up, or is waited for. -/
  count : s.phase ≠ .closed → s.sent.length = s.prompts + s.timeouts + (if s.call.isSome then 1 else 0)
  answered : s.answers.length ≤ s.sent.length
  quiet : ∀ reply ∈ s.answers, prompt ∉ reply
  /-- Bytes of the next answer were read by calls that gave up, then by this one. -/
  bytes : ∃ lost, lost ++ s.held ++ s.unread = line (s.answers.drop s.prompts) ∧
    prompt ∉ lost ++ s.held ∧ (s.timeouts = 0 → s.phase ≠ .closed → lost = [])
  read : s.prompts ≤ s.answers.length
  call : ∀ call, s.call = some call → call.command + 1 = s.sent.length ∧ call.timeouts = s.timeouts ∧
    s.phase ≠ .closed
  replies : ∀ x ∈ s.replies, (x.Paired ↔ x.timeouts = 0) ∧
    (x.timeouts = 0 → s.answers[x.command]? = some x.reply)

section Steps

variable {s s' : Link}

theorem line_append {answers : List Bytes} {reply : Bytes} :
    line (answers ++ [reply]) = line answers ++ reply ++ [prompt] := by
  simp [line]

theorem Aligned.send (aligned : Aligned s) {dtcDue : Bool}
    (taken : s.step (.send dtcDue) = some s') : Aligned s' := by
  simp only [Link.step] at taken
  split at taken
  · rename_i q idle next
    simp only [Option.some.injEq] at taken
    subst taken
    have opened : s.phase ≠ .closed := by
      intro closed
      simp [closed, Phase.query] at next
    obtain ⟨lost, bytes, clean, intact⟩ := aligned.bytes
    have count := aligned.count opened
    refine ⟨fun _ => ?_, ?_, aligned.quiet, ⟨lost, ?_, ?_, intact⟩, aligned.read, ?_, aligned.replies⟩
    · simpa [idle] using count
    · exact Nat.le_trans aligned.answered (by simp)
    · simpa [Link.held, idle] using bytes
    · simpa [Link.held, idle] using clean
    · rintro call ⟨⟩
      exact ⟨by simp, rfl, opened⟩
  · cases taken

theorem Aligned.answer (aligned : Aligned s) {reply : Bytes}
    (taken : s.step (.answer reply) = some s') : Aligned s' := by
  simp only [Link.step] at taken
  split at taken
  · rename_i ready
    simp only [Option.some.injEq] at taken
    subst taken
    obtain ⟨lost, bytes, clean, intact⟩ := aligned.bytes
    refine ⟨aligned.count, by simpa using Nat.succ_le_of_lt ready.1, ?_, ⟨lost, ?_, clean, intact⟩, ?_, aligned.call, ?_⟩
    · intro other member
      rcases List.mem_append.mp member with before | new
      · exact aligned.quiet other before
      · rw [List.mem_singleton.mp new]
        exact ready.2
    · rw [List.drop_append_of_le_length aligned.read, line_append, ← bytes]
      simp [Link.held]
    · exact Nat.le_trans aligned.read (by simp)
    · intro x member
      obtain ⟨paired, own⟩ := aligned.replies x member
      refine ⟨paired, fun clean => ?_⟩
      obtain ⟨bound, -⟩ := List.getElem?_eq_some_iff.mp (own clean)
      rw [List.getElem?_append_left bound]
      exact own clean
  · cases taken

/-- The next byte on the line belongs to the first answer whose prompt was not read. -/
theorem Aligned.next (aligned : Aligned s) {b : UInt8} {unread : Bytes} (head : s.unread = b :: unread) :
    ∃ reply, s.answers[s.prompts]? = some reply ∧ prompt ∉ reply ∧
      s.answers.drop s.prompts = reply :: s.answers.drop (s.prompts + 1) := by
  obtain ⟨lost, bytes, -, -⟩ := aligned.bytes
  have more : s.prompts < s.answers.length := by
    by_contra none
    rw [List.drop_of_length_le (Nat.le_of_not_lt none), head] at bytes
    simp [line] at bytes
  exact ⟨s.answers[s.prompts], List.getElem?_eq_getElem more, aligned.quiet _ (List.getElem_mem more),
    List.drop_eq_getElem_cons more⟩

theorem Aligned.readByte (aligned : Aligned s) (taken : s.step .read = some s') : Aligned s' := by
  simp only [Link.step] at taken
  cases waiting : s.call with
  | none => simp [waiting] at taken
  | some call =>
    cases head : s.unread with
    | nil => simp [waiting, head] at taken
    | cons b unread =>
      obtain ⟨own, timeouts, opened⟩ := aligned.call call waiting
      obtain ⟨lost, bytes, clean, intact⟩ := aligned.bytes
      have count := aligned.count opened
      have held : s.held = call.buf := by simp [Link.held, waiting]
      obtain ⟨reply, stands, quiet, rest⟩ := aligned.next head
      rw [rest, head, held, line, List.flatMap_cons, List.append_assoc] at bytes
      rw [held] at clean
      simp only [waiting, head] at taken
      by_cases ends : b = prompt
      · subst ends
        simp only [if_true, Option.some.injEq] at taken
        subst taken
        -- The bytes up to this prompt are what is left of the answer.
        obtain ⟨same, left⟩ := first_line_unique (d := prompt) clean quiet (by simpa using bytes)
        simp only [waiting, Option.isSome_some, if_true] at count
        have length : s.prompts < s.answers.length := (List.getElem?_eq_some_iff.mp stands).1
        refine ⟨fun _ => by simp [count]; omega, aligned.answered, aligned.quiet, ⟨[], ?_, by simp [Link.held],
          fun _ _ => rfl⟩, length, by simp, ?_⟩
        · simpa [Link.held, line] using left
        · intro x member
          rcases List.mem_cons.mp member with rfl | before
          · refine ⟨?_, fun none => ?_⟩
            · simp only [Reply.Paired]
              omega
            · have whole : lost = [] := intact (timeouts ▸ none) opened
              have command : call.command = s.prompts := by
                dsimp only at none
                omega
              dsimp only
              rw [command, stands, ← same, whole, List.nil_append]
          · exact aligned.replies x before
      · simp only [ends, if_false, Option.some.injEq] at taken
        subst taken
        refine ⟨?_, aligned.answered, aligned.quiet, ⟨lost, ?_, ?_, intact⟩, aligned.read, ?_, aligned.replies⟩
        · intro _
          simpa [waiting] using count
        · rw [rest, line, List.flatMap_cons]
          simpa [Link.held] using bytes
        · simpa [Link.held, Ne.symm ends] using clean
        · rintro _ ⟨⟩
          exact ⟨own, timeouts, opened⟩

theorem Aligned.giveUp (aligned : Aligned s) (taken : s.step .timeout = some s') : Aligned s' := by
  simp only [Link.step] at taken
  split at taken
  · rename_i call waiting
    split at taken
    · simp only [Option.some.injEq] at taken
      subst taken
      obtain ⟨own, timeouts, opened⟩ := aligned.call call waiting
      obtain ⟨lost, bytes, clean, -⟩ := aligned.bytes
      have count := aligned.count opened
      refine ⟨fun _ => ?_, aligned.answered, aligned.quiet, ⟨lost ++ s.held, ?_, ?_, nofun⟩, aligned.read,
        by simp, aligned.replies⟩
      · simp only [waiting, Option.isSome_some, if_true] at count
        simp only [count, Option.isSome_none, Bool.false_eq_true, if_false]
        omega
      · simpa [Link.held] using bytes
      · simpa [Link.held] using clean
    · cases taken
  · cases taken

theorem Aligned.close (aligned : Aligned s) (taken : s.step .fail = some s') : Aligned s' := by
  simp only [Link.step, Option.some.injEq] at taken
  subst taken
  obtain ⟨lost, bytes, clean, -⟩ := aligned.bytes
  refine ⟨fun opened => absurd rfl opened, aligned.answered, aligned.quiet, ⟨lost ++ s.held, ?_, ?_,
    fun _ opened => absurd rfl opened⟩, aligned.read, by simp, aligned.replies⟩
  · simpa [Link.held] using bytes
  · simpa [Link.held] using clean

theorem Aligned.step (aligned : Aligned s) {a : Action} (taken : s.step a = some s') : Aligned s' := by
  cases a with
  | send => exact aligned.send taken
  | answer => exact aligned.answer taken
  | read => exact aligned.readByte taken
  | timeout => exact aligned.giveUp taken
  | fail => exact aligned.close taken

end Steps

/-- A reply is the adapter's answer to the command its own call sent if and only if no
earlier call on the connection had timed out; then it is that answer byte for byte. -/
theorem replies_paired {config : Config} {s : Link} {x : Reply}
    (reached : (connection config).Reachable s) (returned : x ∈ s.replies) :
    (x.Paired ↔ x.timeouts = 0) ∧ (x.timeouts = 0 → s.answers[x.command]? = some x.reply) := by
  have aligned : Aligned s := by
    refine Machine.Reaches.invariant Aligned ?_ (fun _ _ _ aligned _ => aligned.step) reached
    refine ⟨fun _ => rfl, Nat.le_refl _, by simp [connection], ⟨[], rfl, by simp [connection, Link.held],
      fun _ _ => rfl⟩, Nat.le_refl _, by simp [connection], by simp [connection]⟩
  exact aligned.replies x returned

/-- The adapter answers a command with nothing but its prompt. -/
def acknowledged : List Action := [.send false, .answer [], .read]

/-- The init sequence, with every command acknowledged. -/
def initialized : List Action :=
  acknowledged ++ acknowledged ++ acknowledged ++ acknowledged ++ acknowledged

/-- Engine speed and vehicle speed, without a discovery. -/
def polling : Config := { pids := [⟨1, 0x0C⟩, ⟨1, 0x0D⟩], discover := false }

theorem replies_paired_init : ∃ s, (connection polling).run (connection polling).initial initialized = some s ∧
    s.replies.length = 5 ∧ ∀ x ∈ s.replies, x.Paired := by
  have ran : ((connection polling).run (connection polling).initial initialized).any fun s =>
      s.replies.length = 5 ∧ ∀ x ∈ s.replies, x.timeouts = 0 := by decide
  obtain ⟨s, ran, clean⟩ := (Option.any_eq_true _ _).mp ran
  obtain ⟨five, clean⟩ := of_decide_eq_true clean
  have reached : (connection polling).Reachable s := Machine.Reachable.run .initial ran
  exact ⟨s, ran, five, fun x returned => (replies_paired reached returned).1.mpr (clean x returned)⟩

/-- The query for the engine speed times out before the adapter answers it; the query
for the vehicle speed returns that answer. -/
theorem replies_paired_fails : ∃ s, (connection polling).Reachable s ∧
    ∃ x ∈ s.replies, x.query = .pid ⟨1, 0x0D⟩ ∧ s.sent[x.answer]? = some (.pid ⟨1, 0x0C⟩) ∧
      s.answers[x.answer]? = some x.reply ∧ ¬ x.Paired := by
  have ran : ((connection polling).run (connection polling).initial (initialized ++
      [.send false, .timeout, .send false, .answer [52, 49, 48, 67], .read, .read, .read, .read, .read])).any
      fun s => ∃ x ∈ s.replies, x.query = .pid ⟨1, 0x0D⟩ ∧ s.sent[x.answer]? = some (.pid ⟨1, 0x0C⟩) ∧
        s.answers[x.answer]? = some x.reply ∧ ¬ x.Paired := by decide
  obtain ⟨s, ran, stray⟩ := (Option.any_eq_true _ _).mp ran
  exact ⟨s, Machine.Reachable.run .initial ran, of_decide_eq_true stray⟩

end RndRust.Makana
