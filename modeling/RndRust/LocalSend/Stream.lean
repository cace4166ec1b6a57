import RndRust.LocalSend.Server

/-! `stream_to_file`: the reads of a body, and the buffered writer behind which the file
stands. -/
namespace RndRust.LocalSend
open Lib

abbrev Bytes := List UInt8

/-- `BufWriter::with_capacity(16384, ..)`, and the length of the read buffer. -/
def capacity : ℕ := 16384

structure BufWriter where
  file : Bytes := []
  buf : Bytes := []

/-- `flush_buf`: write until the buffer is empty. The results are those of
`File::write`: how many bytes it accepted at most, or that it failed. A write that
accepts nothing fails as well. -/
def flushBuf : Bytes → Bytes → List (Option ℕ) → Option Bytes
  | file, [], _ => some file
  | _, _ :: _, [] => none
  | _, _ :: _, none :: _ => none
  | _, _ :: _, some 0 :: _ => none
  | file, b :: buf, some n :: results => flushBuf (file ++ (b :: buf).take n) ((b :: buf).drop n) results

/-- One pass of the loop: what `read` returned, and what `File::write` does while the
buffer is flushed and when it is handed the bytes directly. -/
structure Round where
  read : Bytes
  flush : List (Option ℕ) := []
  direct : Option ℕ := some capacity
  /-- A read returns at least one byte, and no more than the buffer holds. -/
  bounds : 0 < read.length ∧ read.length ≤ capacity

/-- Before a write of `n` bytes the buffer is flushed if they do not fit. -/
def BufWriter.makeRoom (w : BufWriter) (n : ℕ) (results : List (Option ℕ)) : Option BufWriter :=
  if capacity < w.buf.length + n then (flushBuf w.file w.buf results).map fun file => { file }
  else some w

/-- `BufWriter::write` with the bytes of a round: they go past the buffer when they would
fill it. -/
def BufWriter.write (w : BufWriter) (round : Round) : Option BufWriter :=
  (w.makeRoom round.read.length round.flush).bind fun w =>
    if capacity ≤ round.read.length then
      round.direct.map fun n => { w with file := w.file ++ round.read.take n }
    else some { w with buf := w.buf ++ round.read }

inductive StreamResult where
  /-- `Ok(())`, with what the file holds when the writer is gone. -/
  | ok (file : Bytes)
  /-- The file cannot be created. -/
  | createFailed
  /-- "Failed to read from stream". -/
  | unexpectedEof
  /-- A failed write is unwrapped. -/
  | panicked
  deriving DecidableEq, Repr

/-- The loop. What the writer still buffers when it is dropped is discarded. -/
def streamLoop (fileId : FileId) (readFails : Bool) : BufWriter → List Round →
    StreamResult × List ServerMessage
  | w, [] => (if readFails then .unexpectedEof else .ok w.file, [])
  | w, round :: rounds =>
    match w.write round with
    | none => (.panicked, [])
    | some w =>
      let (result, sent) := streamLoop fileId readFails w rounds
      (result, .sendFileRequest fileId round.read.length :: sent)

/-- `stream_to_file`, with the rounds of its loop and whether the stream fails after
them or ends. -/
def streamToFile (fileId : FileId) (created : Bool) (rounds : List Round) (readFails : Bool) :
    StreamResult × List ServerMessage :=
  if created then streamLoop fileId readFails {} rounds
  else (.createFailed, [])

/-- The bytes a round hands to the writer and the writer accepts. -/
def Round.taken (round : Round) : Bytes :=
  if capacity ≤ round.read.length then round.read.take (round.direct.getD 0) else round.read

/-- No round loses bytes to a short write, and the last one bypasses the buffer. -/
def complete (rounds : List Round) : Bool :=
  rounds.all (fun round => round.read.length < capacity || round.direct.any (capacity ≤ ·)) &&
    rounds.getLast?.all fun round => round.read.length = capacity

/-- The reads cut the body into pieces, wherever its chunks end. -/
def Cuts (chunks : List Bytes) (rounds : List Round) : Prop :=
  (rounds.map Round.read).flatten = chunks.flatten

instance (chunks : List Bytes) (rounds : List Round) : Decidable (Cuts chunks rounds) :=
  inferInstanceAs (Decidable ((rounds.map Round.read).flatten = chunks.flatten))

section Rounds

variable {w w' : BufWriter} {round : Round} {rounds : List Round} {file buf : Bytes}
  {results : List (Option ℕ)}

theorem flushBuf_some (flushed : flushBuf file buf results = some out) : out = file ++ buf := by
  induction results generalizing file buf with
  | nil =>
    cases buf with
    | nil => simpa [flushBuf] using flushed.symm
    | cons => simp [flushBuf] at flushed
  | cons result results ih =>
    cases buf with
    | nil => simpa [flushBuf] using flushed.symm
    | cons b buf =>
      match result with
      | none => simp [flushBuf] at flushed
      | some 0 => simp [flushBuf] at flushed
      | some (n + 1) =>
        rw [flushBuf] at flushed
        · rw [ih flushed, List.append_assoc, List.take_append_drop]
        · nofun

theorem BufWriter.makeRoom_some {n : ℕ} (made : w.makeRoom n results = some w') :
    w'.file ++ w'.buf = w.file ++ w.buf ∧ (capacity ≤ n → w'.buf = []) := by
  unfold BufWriter.makeRoom at made
  split at made
  · obtain ⟨file, flushed, rfl⟩ := Option.map_eq_some_iff.mp made
    exact ⟨by simpa using flushBuf_some flushed, fun _ => rfl⟩
  · rename_i fits
    cases made
    exact ⟨rfl, fun full => List.eq_nil_of_length_eq_zero (by omega)⟩

/-- What a write leaves behind it: the bytes it took, after those it had. The buffer is
empty after a round that fills it, and only then. -/
theorem BufWriter.write_some (written : w.write round = some w') :
    w'.file ++ w'.buf = w.file ++ w.buf ++ round.taken ∧ (w'.buf = [] ↔ round.read.length = capacity) := by
  obtain ⟨positive, bounded⟩ := round.bounds
  obtain ⟨ready, made, written⟩ := Option.bind_eq_some_iff.mp written
  obtain ⟨same, emptied⟩ := BufWriter.makeRoom_some made
  by_cases full : capacity ≤ round.read.length
  · rw [if_pos full] at written
    obtain ⟨n, accepted, rfl⟩ := Option.map_eq_some_iff.mp written
    have none := emptied full
    rw [none, List.append_nil] at same
    simp [Round.taken, accepted, none, same, le_antisymm bounded full]
  · rw [if_neg full, Option.some.injEq] at written
    subst written
    have nonempty : round.read ≠ [] := List.ne_nil_of_length_pos positive
    have short : round.read.length ≠ capacity := fun whole => full whole.ge
    exact ⟨by simp [Round.taken, full, ← same], by simp [nonempty, short]⟩

/-- What a loop that ends well leaves in the file, up to what its writer still holds. -/
theorem streamLoop_ok {fileId : FileId} {readFails : Bool}
    (done : (streamLoop fileId readFails w rounds).1 = .ok file) :
    ∃ held, file ++ held = w.file ++ w.buf ++ (rounds.map Round.taken).flatten ∧
      (held = [] ↔ (rounds.getLast?.all fun round => round.read.length = capacity) ∧
        (rounds = [] → w.buf = [])) := by
  induction rounds generalizing w with
  | nil =>
    cases readFails with
    | true => simp [streamLoop] at done
    | false =>
      simp only [streamLoop, Bool.false_eq_true, if_false, StreamResult.ok.injEq] at done
      exact ⟨w.buf, by simp [← done], by simp⟩
  | cons round rounds ih =>
    simp only [streamLoop] at done
    cases written : w.write round with
    | none => simp [written] at done
    | some w' =>
      simp only [written] at done
      obtain ⟨bytes, emptied⟩ := BufWriter.write_some written
      obtain ⟨held, after, ends⟩ := ih done
      refine ⟨held, by simp [after, bytes], ?_⟩
      rw [ends, emptied]
      cases rounds with
      | nil => simp
      | cons next rounds => simp

/-- A round takes no more than it read, and all of it unless a write was short. -/
theorem Round.taken_length (round : Round) : round.taken.length ≤ round.read.length ∧
    (round.taken.length = round.read.length ↔
      round.read.length < capacity ∨ round.direct.any (capacity ≤ ·)) := by
  obtain ⟨-, bounded⟩ := round.bounds
  unfold Round.taken
  split
  · rename_i full
    have whole : round.read.length = capacity := le_antisymm bounded full
    rw [List.length_take, whole]
    cases round.direct with
    | none => simp [capacity]
    | some n =>
      simp only [Option.getD_some, Option.any_some, decide_eq_true_eq, lt_irrefl, false_or]
      omega
  · rename_i short
    simpa using Or.inl (Nat.lt_of_not_le short)

/-- The rounds together take all they read if and only if each of them does. -/
theorem taken_length (rounds : List Round) :
    (rounds.map Round.taken).flatten.length ≤ (rounds.map Round.read).flatten.length ∧
    ((rounds.map Round.taken).flatten.length = (rounds.map Round.read).flatten.length ↔
      ∀ round ∈ rounds, round.taken.length = round.read.length) := by
  induction rounds with
  | nil => simp
  | cons round rounds ih =>
    obtain ⟨less, same⟩ := ih
    have first := round.taken_length.1
    simp only [List.map_cons, List.flatten_cons, List.length_append, List.forall_mem_cons]
    rw [← same]
    omega

theorem taken_eq_read (all : ∀ round ∈ rounds, round.taken.length = round.read.length) :
    rounds.map Round.taken = rounds.map Round.read := by
  refine List.map_congr_left fun round member => ?_
  have length := all round member
  unfold Round.taken at length ⊢
  split
  · rename_i full
    rw [if_pos full] at length
    rw [List.length_take] at length
    exact List.take_of_length_le (by omega)
  · rfl

end Rounds

/-- When `stream_to_file` returns `Ok`, the file holds the whole body if and only if
every write that bypassed the buffer was accepted whole, and the body is empty or its
last read filled the buffer. -/
theorem received_complete {chunks : List Bytes} {rounds : List Round} {fileId : FileId}
    {created readFails : Bool} {file : Bytes} (cuts : Cuts chunks rounds)
    (done : (streamToFile fileId created rounds readFails).1 = .ok file) :
    file = chunks.flatten ↔ complete rounds := by
  cases created with
  | false => simp [streamToFile] at done
  | true =>
    obtain ⟨held, bytes, emptied⟩ := streamLoop_ok (by simpa [streamToFile] using done)
    simp only [List.append_nil, List.nil_append, implies_true, and_true] at bytes emptied
    obtain ⟨less, same⟩ := taken_length rounds
    have shape : complete rounds ↔
        (∀ round ∈ rounds, round.taken.length = round.read.length) ∧ held = [] := by
      rw [emptied]
      simp [complete, Round.taken_length]
    rw [shape, ← same]
    rw [Cuts] at cuts
    rw [← cuts]
    constructor
    · intro whole
      have length := congrArg List.length bytes
      rw [List.length_append, whole] at length
      have none : held.length = 0 := by omega
      exact ⟨by omega, List.eq_nil_of_length_eq_zero none⟩
    · rintro ⟨length, rfl⟩
      rw [List.append_nil] at bytes
      rw [bytes, taken_eq_read (same.mp length)]

/-- A round that fills the buffer with one byte repeated. -/
def fullRound (b : UInt8) : Round where
  read := List.replicate capacity b
  bounds := by
    rw [List.length_replicate]
    exact ⟨by unfold capacity; omega, le_rfl⟩

/-- A body of two full reads, in one chunk, arrives. -/
theorem received_complete_full : ∃ file,
    (streamToFile ['a'] true [fullRound 1, fullRound 2] false).1 = .ok file ∧
    file = [List.replicate capacity 1 ++ List.replicate capacity 2].flatten := by
  have cuts : Cuts [List.replicate capacity 1 ++ List.replicate capacity 2] [fullRound 1, fullRound 2] := by
    simp [Cuts, fullRound]
  have whole : complete [fullRound 1, fullRound 2] := by
    simp [complete, fullRound]
  have done : (streamToFile ['a'] true [fullRound 1, fullRound 2] false).1 =
      .ok (List.replicate capacity 1 ++ List.replicate capacity 2) := by
    simp [streamToFile, streamLoop, BufWriter.write, BufWriter.makeRoom, fullRound]
  exact ⟨_, done, (received_complete cuts done).mpr whole⟩

/-- A body of three bytes is received, and the file stays empty. -/
theorem received_complete_fails :
    Cuts [[1, 2], [3]] [{ read := [1, 2], bounds := by decide }, { read := [3], bounds := by decide }] ∧
    (streamToFile ['a'] true
      [{ read := [1, 2], bounds := by decide }, { read := [3], bounds := by decide }] false).1 = .ok [] := by
  decide

end RndRust.LocalSend
