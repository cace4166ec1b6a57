import RndRust.Irc.Proto.Util
import RndRust.Lib.Bounded
import RndRust.Lib.Runs

/-! `run_send_file` and `run_recv_file` of `dcc.rs`, joined by two streams that hold a limited
number of bytes. The sender writes the file and never reads; the receiver acknowledges each
read. -/
namespace RndRust.Irc.Client
open Lib Proto

/-- `BUF_SIZE`. -/
def bufSize : ℕ := 8192

/-- What a party reports of a transfer. -/
inductive DccProgress where
  | progress (bytesTransferred total : ℕ)
  | complete
  | error
  deriving DecidableEq

/-- Where `run_send_file` is. -/
inductive FileSender where
  | reading
  /-- In `write_all`, for so many bytes, with those that are left. -/
  | writing (count : ℕ) (rest : Bytes)
  | returned
  deriving DecidableEq

/-- Where `run_recv_file` is. -/
inductive FileReceiver where
  | reading
  /-- In `write_all` of an acknowledgement. -/
  | acking (rest : Bytes)
  | returned
  deriving DecidableEq

/-- The two parties, once they are connected. -/
structure Transfer (dataCapacity ackCapacity : ℕ) where
  /-- What the sender has not read of its file. -/
  unread : Bytes
  sender : FileSender := .reading
  sent : ℕ := 0
  senderReports : List DccProgress := []
  data : Bounded UInt8 dataCapacity := .empty
  acks : Bounded UInt8 ackCapacity := .empty
  receiver : FileReceiver := .reading
  /-- The file of the receiver, whose length it has received. -/
  written : Bytes := []
  receiverReports : List DccProgress := []

inductive TransferAction where
  /-- The sender reads so many bytes of its file. -/
  | readFile (count : ℕ)
  /-- So many bytes of its buffer go into the stream. -/
  | write (count : ℕ)
  /-- The receiver reads so many bytes from the stream. -/
  | read (count : ℕ)
  | ack (count : ℕ)
  /-- A write to a stream whose other end is gone fails. -/
  | writeFails
  | ackFails
  /-- A party goes away early. -/
  | closeSender
  | closeReceiver
  deriving DecidableEq

/-- Four bytes, the most significant first. -/
def toBeBytes (ack : ℕ) : Bytes :=
  [.ofNat (ack / 16777216), .ofNat (ack / 65536), .ofNat (ack / 256), .ofNat ack]

namespace Transfer

variable {dataCapacity ackCapacity : ℕ}

/-- The sender after a write, with what is left of its buffer. -/
def wrote (s : Transfer dataCapacity ackCapacity) (total count : ℕ) (rest : Bytes) :
    Transfer dataCapacity ackCapacity :=
  if rest = [] then
    { s with
      sender := .reading
      sent := s.sent + count
      senderReports := s.senderReports ++ [.progress (s.sent + count) total] }
  else { s with sender := .writing count rest }

/-- The receiver after a write, with what is left of the acknowledgement. -/
def acked (s : Transfer dataCapacity ackCapacity) (total : ℕ) (rest : Bytes) : Transfer dataCapacity ackCapacity :=
  if rest = [] then
    { s with receiver := .reading, receiverReports := s.receiverReports ++ [.progress s.written.length total] }
  else { s with receiver := .acking rest }

def sendReturns (s : Transfer dataCapacity ackCapacity) (report : DccProgress) : Transfer dataCapacity ackCapacity :=
  { s with sender := .returned, senderReports := s.senderReports ++ [report] }

def recvReturns (s : Transfer dataCapacity ackCapacity) (report : DccProgress) : Transfer dataCapacity ackCapacity :=
  { s with receiver := .returned, receiverReports := s.receiverReports ++ [report] }

section

variable {s : Transfer dataCapacity ackCapacity} {total count : ℕ} {rest : Bytes}

@[simp] theorem wrote_unread : (s.wrote total count rest).unread = s.unread := by unfold wrote; split <;> rfl

@[simp] theorem wrote_data : (s.wrote total count rest).data = s.data := by unfold wrote; split <;> rfl

@[simp] theorem wrote_acks : (s.wrote total count rest).acks = s.acks := by unfold wrote; split <;> rfl

@[simp] theorem wrote_receiver : (s.wrote total count rest).receiver = s.receiver := by unfold wrote; split <;> rfl

@[simp] theorem wrote_written : (s.wrote total count rest).written = s.written := by unfold wrote; split <;> rfl

@[simp] theorem wrote_receiverReports : (s.wrote total count rest).receiverReports = s.receiverReports := by
  unfold wrote; split <;> rfl

@[simp] theorem acked_unread : (s.acked total rest).unread = s.unread := by unfold acked; split <;> rfl

@[simp] theorem acked_sender : (s.acked total rest).sender = s.sender := by unfold acked; split <;> rfl

@[simp] theorem acked_data : (s.acked total rest).data = s.data := by unfold acked; split <;> rfl

@[simp] theorem acked_acks : (s.acked total rest).acks = s.acks := by unfold acked; split <;> rfl

@[simp] theorem acked_written : (s.acked total rest).written = s.written := by unfold acked; split <;> rfl

end

/-- One step; `total` is the size that was offered. A write that nobody can read any more is
lost or fails. -/
def step (total : ℕ) (s : Transfer dataCapacity ackCapacity) :
    TransferAction → Option (Transfer dataCapacity ackCapacity)
  | .readFile count =>
    match s.sender with
    | .reading =>
      if count = 0 ∧ s.unread = [] then some (s.sendReturns .complete)
      else if 0 < count ∧ count ≤ bufSize ∧ count ≤ s.unread.length then
        some { s with sender := .writing count (s.unread.take count), unread := s.unread.drop count }
      else none
    | _ => none
  | .write count =>
    match s.sender with
    | .writing all rest =>
      if 0 < count ∧ count ≤ rest.length then
        if s.receiver = .returned then some (s.wrote total all (rest.drop count))
        else (s.data.push (rest.take count)).map fun data => { s with data }.wrote total all (rest.drop count)
      else none
    | _ => none
  | .read count =>
    match s.receiver with
    | .reading =>
      if count = 0 ∧ s.data.items = [] ∧ s.sender = .returned then some (s.recvReturns .complete)
      else if 0 < count ∧ count ≤ bufSize ∧ count ≤ s.data.items.length then
        let written := s.written ++ s.data.items.take count
        some { s with
          written
          data := s.data.drop count
          receiver := .acking (toBeBytes (written.length % 4294967296)) }
      else none
    | _ => none
  | .ack count =>
    match s.receiver with
    | .acking rest =>
      if 0 < count ∧ count ≤ rest.length then
        if s.sender = .returned then some (s.acked total (rest.drop count))
        else (s.acks.push (rest.take count)).map fun acks => { s with acks }.acked total (rest.drop count)
      else none
    | _ => none
  | .writeFails =>
    match s.sender with
    | .writing _ _ => if s.receiver = .returned then some (s.sendReturns .error) else none
    | _ => none
  | .ackFails =>
    match s.receiver with
    | .acking _ => if s.sender = .returned then some (s.recvReturns .error) else none
    | _ => none
  | .closeSender => if s.sender = .returned then none else some (s.sendReturns .error)
  | .closeReceiver => if s.receiver = .returned then none else some (s.recvReturns .error)

end Transfer

/-- A transfer of a file that was offered with a size. -/
def transfer (dataCapacity ackCapacity : ℕ) (file : Bytes) (total : ℕ) :
    Machine (Transfer dataCapacity ackCapacity) TransferAction where
  initial := { unread := file }
  step := Transfer.step total

/-- Whether a step is one of `run_send_file` or `run_recv_file`. -/
def TransferAction.isOwn : TransferAction → Bool
  | .closeSender | .closeReceiver => false
  | _ => true

/-- What the sender has read of its file and not written. -/
def FileSender.rest : FileSender → Bytes
  | .writing _ rest => rest
  | _ => []

@[simp] theorem FileSender.rest_reading : rest .reading = [] := rfl

@[simp] theorem FileSender.rest_writing {count : ℕ} {left : Bytes} : rest (.writing count left) = left := rfl

@[simp] theorem FileSender.rest_returned : rest .returned = [] := rfl

namespace Transfer

variable {dataCapacity ackCapacity : ℕ}

/-- How much the sender has still to write. -/
def unsent (s : Transfer dataCapacity ackCapacity) : ℕ := s.sender.rest.length + s.unread.length

/-- The condition: an acknowledgement fits into its stream, or what the sender has still to write
fits into the other; and the sender does not go away before it has written its file. -/
def fits (s : Transfer dataCapacity ackCapacity) : TransferAction → Bool
  | .read count =>
    s.data.items = [] || s.sender = .returned || s.acks.items.length + 4 ≤ ackCapacity ||
      s.unsent + s.data.items.length ≤ dataCapacity + count
  | .closeSender => s.sender.rest = [] && s.unread = []
  | _ => true

/-- While one of the parties has not returned, one of them can go on. -/
def Live (s : Transfer dataCapacity ackCapacity) (total : ℕ) : Prop :=
  s.sender ≠ .returned ∨ s.receiver ≠ .returned → ∃ a : TransferAction, a.isOwn ∧ (s.step total a).isSome

/-- The receiver reports a complete file only if it is the sender's, of the size offered. -/
def Faithful (s : Transfer dataCapacity ackCapacity) (file : Bytes) (total : ℕ) : Prop :=
  .complete ∈ s.receiverReports → s.written = file ∧ s.written.length = total

/-- What holds of a transfer whose steps all fit. -/
structure Sound (s : Transfer dataCapacity ackCapacity) (file : Bytes) : Prop where
  /-- Nothing of the file is lost. -/
  whole : s.receiver ≠ .returned → s.written ++ s.data.items ++ s.sender.rest ++ s.unread = file
  ended : s.sender = .returned → s.receiver ≠ .returned → s.unread = []
  complete : .complete ∈ s.receiverReports → s.written = file
  /-- Who writes has something to write. -/
  writes : ∀ count rest, s.sender = .writing count rest → rest ≠ []
  acks : ∀ rest, s.receiver = .acking rest → rest ≠ [] ∧ (s.sender = .returned ∨
    s.acks.items.length + rest.length ≤ ackCapacity ∨ s.unsent + s.data.items.length ≤ dataCapacity)

section Steps

variable {s t : Transfer dataCapacity ackCapacity} {file : Bytes} {total count : ℕ} {rest : Bytes}

@[simp] theorem wrote_rest : (s.wrote total count rest).sender.rest = rest := by
  unfold wrote
  split
  · rename_i done
    exact done.symm
  · rfl

theorem wrote_not_returned : (s.wrote total count rest).sender ≠ .returned := by
  unfold wrote
  split <;> simp

theorem wrote_writes {all : ℕ} {left : Bytes} (writes : (s.wrote total count rest).sender = .writing all left) :
    left ≠ [] := by
  unfold wrote at writes
  split at writes
  · cases writes
  · cases writes
    exact ‹_›

theorem acked_acking {left : Bytes} (acks : (s.acked total rest).receiver = .acking left) : left = rest ∧ left ≠ [] := by
  unfold acked at acks
  split at acks
  · cases acks
  · cases acks
    exact ⟨rfl, ‹_›⟩

theorem complete_acked (reported : .complete ∈ (s.acked total rest).receiverReports) :
    .complete ∈ s.receiverReports := by
  unfold acked at reported
  split at reported
  · simpa using reported
  · exact reported

theorem Sound.readFile (sound : Sound s file) (taken : s.step total (.readFile count) = some t) : Sound t file := by
  simp only [step] at taken
  split at taken
  · rename_i reading
    split at taken
    · rename_i done
      cases taken
      refine ⟨?_, fun _ _ => done.2, sound.complete, by simp [sendReturns], fun rest acking => ?_⟩
      · simpa [sendReturns, reading] using sound.whole
      · exact ⟨(sound.acks rest acking).1, .inl rfl⟩
    · obtain ⟨⟨some_, -, inside⟩, taken⟩ := Option.ite_none_right_eq_some.mp taken
      cases taken
      refine ⟨?_, by simp, sound.complete, ?_, ?_⟩
      · simpa [reading] using sound.whole
      · rintro _ _ same
        cases same
        intro empty
        have length := congrArg List.length empty
        rw [List.length_take, List.length_nil] at length
        omega
      · intro left acking
        refine ⟨(sound.acks left acking).1, .inr ?_⟩
        rcases (sound.acks left acking).2 with returned | fits | fits
        · rw [reading] at returned
          cases returned
        · exact .inl fits
        · right
          simp only [unsent, reading, FileSender.rest_reading, FileSender.rest_writing, List.length_take,
            List.length_drop, List.length_nil] at fits ⊢
          omega
  · cases taken

theorem Sound.write (sound : Sound s file) (taken : s.step total (.write count) = some t) : Sound t file := by
  simp only [step] at taken
  split at taken
  · rename_i all left writing
    have rest : s.sender.rest = left := by rw [writing]; rfl
    obtain ⟨⟨some_, inside⟩, taken⟩ := Option.ite_none_right_eq_some.mp taken
    split at taken
    · rename_i gone
      cases taken
      refine ⟨by simp [gone], fun same => absurd same wrote_not_returned, by simpa using sound.complete,
        fun _ _ => wrote_writes, by simp [gone]⟩
    · obtain ⟨data, pushed, rfl⟩ := Option.map_eq_some_iff.mp taken
      obtain ⟨-, items⟩ := Bounded.push_eq_some.mp pushed
      refine ⟨fun active => ?_, fun same => absurd same wrote_not_returned, by simpa using sound.complete,
        fun _ _ => wrote_writes, fun acking at_ => ?_⟩
      · have whole := sound.whole (by simpa using active)
        rw [rest] at whole
        rw [← whole]
        simp [items]
      · obtain ⟨nonempty, room⟩ := sound.acks acking (by simpa using at_)
        refine ⟨nonempty, .inr ?_⟩
        rcases room with returned | fits | fits
        · rw [writing] at returned
          cases returned
        · left
          simpa using fits
        · right
          simp only [unsent, rest, wrote_rest, wrote_unread, wrote_data, items, List.length_append, List.length_take,
            List.length_drop] at fits ⊢
          omega
  · cases taken

theorem Sound.read (sound : Sound s file) (allowed : s.fits (.read count))
    (taken : s.step total (.read count) = some t) : Sound t file := by
  simp only [step] at taken
  split at taken
  · rename_i reading
    have active : s.receiver ≠ .returned := by simp [reading]
    have whole := sound.whole active
    split at taken
    · rename_i ended
      obtain ⟨-, empty, returned⟩ := ended
      cases taken
      refine ⟨by simp [recvReturns], fun _ gone => absurd rfl gone, fun _ => ?_, sound.writes, by simp [recvReturns]⟩
      have unread := sound.ended returned active
      simpa [empty, unread, returned, recvReturns] using whole
    · obtain ⟨⟨some_, -, inside⟩, taken⟩ := Option.ite_none_right_eq_some.mp taken
      cases taken
      refine ⟨fun _ => ?_, fun same _ => sound.ended same active, fun reported => ?_, sound.writes,
        fun acking at_ => ?_⟩
      · rw [← whole]
        simp
      · -- A receiver that reads has not reported that it is done.
        have before := sound.complete reported
        have none : s.data.items = [] := by
          have lengths := congrArg List.length whole
          rw [before] at lengths
          simp only [List.length_append] at lengths
          exact List.length_eq_zero_iff.mp (by omega)
        rw [none, List.length_nil] at inside
        omega
      · cases at_
        refine ⟨by simp [toBeBytes], ?_⟩
        simp only [fits, Bool.or_eq_true, decide_eq_true_eq] at allowed
        rcases allowed with ((empty | returned) | fits) | fits
        · rw [empty, List.length_nil] at inside
          omega
        · exact .inl returned
        · exact .inr (.inl fits)
        · refine .inr (.inr ?_)
          simp only [unsent, Bounded.items_drop, List.length_drop] at fits ⊢
          omega
  · cases taken

theorem Sound.ack (sound : Sound s file) (taken : s.step total (.ack count) = some t) : Sound t file := by
  simp only [step] at taken
  split at taken
  · rename_i left acking
    have active : s.receiver ≠ .returned := by simp [acking]
    obtain ⟨⟨some_, inside⟩, taken⟩ := Option.ite_none_right_eq_some.mp taken
    split at taken
    · rename_i gone
      cases taken
      refine ⟨fun _ => by simpa using sound.whole active, fun _ _ => by simpa using sound.ended gone active,
        fun reported => by simpa using sound.complete (complete_acked reported), by simpa using sound.writes,
        fun left' at_ => ⟨(acked_acking at_).2, .inl (by simpa using gone)⟩⟩
    · rename_i stays
      obtain ⟨acks, pushed, rfl⟩ := Option.map_eq_some_iff.mp taken
      obtain ⟨-, items⟩ := Bounded.push_eq_some.mp pushed
      refine ⟨fun _ => by simpa using sound.whole active, fun gone => absurd (by simpa using gone) stays,
        fun reported => ?_, by simpa using sound.writes, ?_⟩
      · rw [acked_written]
        exact sound.complete (complete_acked (s := { s with acks }) reported)
      · intro left' at_
        obtain ⟨rfl, nonempty⟩ := acked_acking at_
        refine ⟨nonempty, .inr ?_⟩
        rcases (sound.acks left acking).2 with returned | fits | fits
        · exact absurd returned stays
        · left
          simp only [acked_acks, items, List.length_append, List.length_take, List.length_drop]
          omega
        · right
          simpa [unsent] using fits
  · cases taken

theorem Sound.step {a : TransferAction} (sound : Sound s file) (allowed : s.fits a)
    (taken : s.step total a = some t) : Sound t file := by
  cases a with
  | readFile count => exact sound.readFile taken
  | write count => exact sound.write taken
  | read count => exact sound.read allowed taken
  | ack count => exact sound.ack taken
  | writeFails =>
    simp only [Transfer.step] at taken
    split at taken
    · obtain ⟨gone, taken⟩ := Option.ite_none_right_eq_some.mp taken
      cases taken
      exact ⟨fun active => absurd gone active, fun _ active => absurd gone active, sound.complete,
        by simp [sendReturns], by simp [sendReturns, gone]⟩
    · cases taken
  | ackFails =>
    simp only [Transfer.step] at taken
    split at taken
    · obtain ⟨gone, taken⟩ := Option.ite_none_right_eq_some.mp taken
      cases taken
      exact ⟨by simp [recvReturns], by simp [recvReturns], by simpa [recvReturns] using sound.complete, sound.writes,
        by simp [recvReturns]⟩
    · cases taken
  | closeSender =>
    obtain ⟨stays, taken⟩ := Option.ite_none_left_eq_some.mp taken
    cases taken
    simp only [fits, Bool.and_eq_true, decide_eq_true_eq] at allowed
    obtain ⟨rest, unread⟩ := allowed
    refine ⟨?_, fun _ _ => unread, sound.complete, by simp [sendReturns], fun left acking => ?_⟩
    · simpa [sendReturns, rest] using sound.whole
    · exact ⟨(sound.acks left acking).1, .inl rfl⟩
  | closeReceiver =>
    obtain ⟨stays, taken⟩ := Option.ite_none_left_eq_some.mp taken
    cases taken
    exact ⟨by simp [recvReturns], by simp [recvReturns], by simpa [recvReturns] using sound.complete, sound.writes,
      by simp [recvReturns]⟩

theorem isSome_write {all : ℕ} {left : Bytes} (writing : s.sender = .writing all left) (nonempty : left ≠ [])
    (room : s.receiver = .returned ∨ s.data.items.length < dataCapacity) : (s.step total (.write 1)).isSome := by
  have one : 0 < 1 ∧ 1 ≤ left.length := ⟨Nat.one_pos, List.length_pos_iff.mpr nonempty⟩
  simp only [Transfer.step, writing, if_pos one]
  split
  · rfl
  · rename_i stays
    have room := room.resolve_left stays
    cases pushed : s.data.push (left.take 1) with
    | some data => rfl
    | none =>
      have full := Bounded.push_eq_none.mp pushed
      rw [List.length_take] at full
      omega

theorem isSome_ack {left : Bytes} (acking : s.receiver = .acking left) (nonempty : left ≠ [])
    (room : s.sender = .returned ∨ s.acks.items.length < ackCapacity) : (s.step total (.ack 1)).isSome := by
  have one : 0 < 1 ∧ 1 ≤ left.length := ⟨Nat.one_pos, List.length_pos_iff.mpr nonempty⟩
  simp only [Transfer.step, acking, if_pos one]
  split
  · rfl
  · rename_i stays
    have room := room.resolve_left stays
    cases pushed : s.acks.push (left.take 1) with
    | some acks => rfl
    | none =>
      have full := Bounded.push_eq_none.mp pushed
      rw [List.length_take] at full
      omega

/-- The receiver is stuck only in an acknowledgement, and then the sender is not. -/
theorem Sound.live (sound : Sound s file) (positive : 0 < dataCapacity) : s.Live total := by
  intro active
  cases sends : s.sender with
  | reading =>
    by_cases done : s.unread = []
    · exact ⟨.readFile 0, rfl, by simp [Transfer.step, sends, done]⟩
    · have one : 1 ≤ s.unread.length := List.length_pos_iff.mpr done
      exact ⟨.readFile 1, rfl, by simp [Transfer.step, sends, one, bufSize]⟩
  | writing all left =>
    have nonempty := sound.writes all left sends
    by_cases room : s.receiver = .returned ∨ s.data.items.length < dataCapacity
    · exact ⟨.write 1, rfl, isSome_write sends nonempty room⟩
    · obtain ⟨stays, full⟩ := not_or.mp room
      cases receives : s.receiver with
      | returned => exact absurd receives stays
      | reading =>
        have one : 1 ≤ s.data.items.length := by omega
        exact ⟨.read 1, rfl, by simp [Transfer.step, receives, one, bufSize]⟩
      | acking rest =>
        obtain ⟨more, room⟩ := sound.acks rest receives
        have length : 0 < rest.length := List.length_pos_iff.mpr more
        refine ⟨.ack 1, rfl, isSome_ack receives more ?_⟩
        rcases room with returned | fits | fits
        · exact .inl returned
        · exact .inr (by omega)
        · -- The stream is full and the sender has more to write.
          have left_pos : 0 < left.length := List.length_pos_iff.mpr nonempty
          simp only [unsent, sends, FileSender.rest_writing] at fits
          omega
  | returned =>
    cases receives : s.receiver with
    | returned => exact absurd active (by simp [sends, receives])
    | reading =>
      by_cases empty : s.data.items = []
      · exact ⟨.read 0, rfl, by simp [Transfer.step, sends, receives, empty]⟩
      · have one : 1 ≤ s.data.items.length := List.length_pos_iff.mpr empty
        exact ⟨.read 1, rfl, by simp [Transfer.step, receives, one, bufSize]⟩
    | acking rest => exact ⟨.ack 1, rfl, isSome_ack receives (sound.acks rest receives).1 (.inl sends)⟩

end Steps

end Transfer

section Runs

variable {dataCapacity ackCapacity total : ℕ} {file : Bytes} {s : Transfer dataCapacity ackCapacity}

/-- **Transfers come to an end and are faithful**, when the acknowledgements or the rest of the
file fit into their streams, the sender stays to the end and the size offered is the file's. -/
theorem transfer_completes (positive : 0 < dataCapacity) (offered : file.length = total)
    (reached : (transfer dataCapacity ackCapacity file total).Reaches (fun s a => s.fits a) s) :
    s.Live total ∧ s.Faithful file total := by
  have sound : s.Sound file := by
    refine reached.invariant (·.Sound file) ?_ fun _ _ _ sound allowed taken => sound.step allowed taken
    exact ⟨fun _ => rfl, by simp [transfer], by simp [transfer], by simp [transfer], by simp [transfer]⟩
  refine ⟨sound.live positive, fun reported => ?_⟩
  have same := sound.complete reported
  exact ⟨same, by rw [same, offered]⟩

end Runs

section Examples

/-- One byte of the file goes to the receiver. -/
def passed : List TransferAction := [.readFile 1, .write 1, .read 1]

theorem transfer_completes_two : ∃ s, (transfer 1 8 [1, 2] 2).Reaches (fun s a => s.fits a) s ∧
    .complete ∈ s.receiverReports ∧ s.Live 2 ∧ s.Faithful [1, 2] 2 := by
  obtain ⟨s, reached, complete⟩ := Machine.Reaches.of_trace (transfer 1 8 [1, 2] 2) (fun s a => s.fits a)
    (passed ++ [.ack 4] ++ passed ++ [.ack 1, .ack 3, .readFile 0, .read 0]) (.complete ∈ ·.receiverReports)
    (by decide)
  exact ⟨s, reached, complete, transfer_completes (by decide) rfl reached⟩

end Examples

section Stuck

variable {dataCapacity ackCapacity total all : ℕ} {s : Transfer dataCapacity ackCapacity} {left rest : Bytes}

/-- Both parties write, and both streams are full. -/
theorem not_live (sends : s.sender = .writing all left) (receives : s.receiver = .acking rest)
    (full : s.data.items.length = dataCapacity) (acked : s.acks.items.length = ackCapacity) : ¬s.Live total := by
  intro live
  obtain ⟨a, own, enabled⟩ := live (.inl (by simp [sends]))
  obtain ⟨t, taken⟩ := Option.isSome_iff_exists.mp enabled
  cases a with
  | readFile count => simp [Transfer.step, sends] at taken
  | write count =>
    simp only [Transfer.step, sends, receives, reduceCtorEq, if_false] at taken
    obtain ⟨⟨some_, inside⟩, taken⟩ := Option.ite_none_right_eq_some.mp taken
    obtain ⟨data, pushed, -⟩ := Option.map_eq_some_iff.mp taken
    have room := (Bounded.push_eq_some.mp pushed).1
    rw [full, List.length_take] at room
    omega
  | read count => simp [Transfer.step, receives] at taken
  | ack count =>
    simp only [Transfer.step, sends, receives, reduceCtorEq, if_false] at taken
    obtain ⟨⟨some_, inside⟩, taken⟩ := Option.ite_none_right_eq_some.mp taken
    obtain ⟨acks, pushed, -⟩ := Option.map_eq_some_iff.mp taken
    have room := (Bounded.push_eq_some.mp pushed).1
    rw [acked, List.length_take] at room
    omega
  | writeFails => simp [Transfer.step, sends, receives] at taken
  | ackFails => simp [Transfer.step, sends, receives] at taken
  | closeSender => cases own
  | closeReceiver => cases own

end Stuck

section Examples

/-- A file of three bytes stops at the first acknowledgement, a file of two is reported as
complete after one, and so is one that is longer than was offered. -/
theorem transfer_completes_fails :
    (∃ s, (transfer 1 1 [1, 2, 3] 3).Reachable s ∧ ¬s.Live 3) ∧
    (∃ s, (transfer 1 8 [1, 2] 2).Reachable s ∧ .complete ∈ s.receiverReports ∧ s.written = [1] ∧
      ¬s.Faithful [1, 2] 2) ∧
    ∃ s, (transfer 1 8 [1] 0).Reachable s ∧ .complete ∈ s.receiverReports ∧ s.written = [1] ∧
      ¬s.Faithful [1] 0 := by
  refine ⟨?_, ?_, ?_⟩
  · obtain ⟨s, reached, sends, receives, full, acked⟩ := Machine.Reachable.of_trace (transfer 1 1 [1, 2, 3] 3)
      (passed ++ [.ack 1, .readFile 1, .write 1, .readFile 1])
      (fun s => s.sender = .writing 1 [3] ∧ s.receiver = .acking [0, 0, 1] ∧ s.data.items.length = 1 ∧
        s.acks.items.length = 1) (by decide)
    exact ⟨s, reached, not_live sends receives full acked⟩
  · obtain ⟨s, reached, complete, written⟩ := Machine.Reachable.of_trace (transfer 1 8 [1, 2] 2)
      (passed ++ [.closeSender, .ack 4, .read 0]) (fun s => .complete ∈ s.receiverReports ∧ s.written = [1])
      (by decide)
    refine ⟨s, reached, complete, written, fun faithful => ?_⟩
    have same := (faithful complete).1
    rw [written] at same
    cases same
  · obtain ⟨s, reached, complete, written⟩ := Machine.Reachable.of_trace (transfer 1 8 [1] 0)
      (passed ++ [.readFile 0, .ack 4, .read 0]) (fun s => .complete ∈ s.receiverReports ∧ s.written = [1])
      (by decide)
    refine ⟨s, reached, complete, written, fun faithful => ?_⟩
    have length := (faithful complete).2
    rw [written] at length
    cases length

end Examples

end RndRust.Irc.Client
