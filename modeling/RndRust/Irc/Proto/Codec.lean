import RndRust.Irc.Proto.Message
import RndRust.Lib.Lines

/-! The line codec, `codec.rs`. Draining the decoder treats each line on its own
as long as the unterminated part of the buffer stays within the limit; past it the
buffer is cleared in the middle of a line, and what the decoder returns depends on
how the stream was cut. -/
namespace RndRust.Irc.Proto
open Lib

inductive CodecError where
  | lineTooLong
  | parse (error : ParseError)
  deriving DecidableEq, Repr

structure IrcCodec where
  maxBytes : ℕ
  deriving DecidableEq, Repr

namespace IrcCodec

/-- `IrcCodec::new`. -/
def new : IrcCodec := ⟨maxLineBytes⟩

/-- Where the content of a line ends whose `\n` stands at `nl`: before a `\r`. -/
def contentEnd (buf : Bytes) (nl : ℕ) : ℕ :=
  if 0 < nl ∧ buf[nl - 1]? = some cr then nl - 1 else nl

/-- `IrcCodec::decode`: the result, and the buffer it leaves. Empty lines are
skipped without a result. -/
def decode (codec : IrcCodec) (buf : Bytes) :
    Except CodecError (Option Message) × Bytes :=
  match found : buf.findIdx? (· == lf) with
  | none => if buf.length > codec.maxBytes then (.error .lineTooLong, []) else (.ok none, buf)
  | some nl =>
    let stop := contentEnd buf nl
    if stop > codec.maxBytes then (.error .lineTooLong, buf.drop (nl + 1))
    else
      let content := (buf.take (nl + 1)).take stop
      if content = [] then
        have : (buf.drop (nl + 1)).length < buf.length := by
          obtain ⟨inside, -⟩ := List.findIdx?_eq_some_iff_getElem.mp found
          simp only [List.length_drop]
          omega
        decode codec (buf.drop (nl + 1))
      else match Message.parse content with
        | .ok m => (.ok (some m), buf.drop (nl + 1))
        | .error e => (.error (.parse e), buf.drop (nl + 1))
termination_by buf.length

/-- `IrcCodec::encode`: the result, and the output buffer it leaves. -/
def encode (codec : IrcCodec) (msg : Message) (out : Bytes) : Except CodecError Unit × Bytes :=
  let start := out.length
  let out := out ++ msg.toBytes
  let bodyLen := out.length - start
  if bodyLen + 2 > codec.maxBytes then (.error .lineTooLong, out.take start)
  else (.ok (), out ++ [cr, lf])

/-- The content of a line: the line without one trailing `\r`. -/
def content (line : Bytes) : Bytes :=
  if line.getLast? = some cr then line.dropLast else line

/-- What the decoder makes of one line, given as the bytes before its `\n`. -/
def readLine (codec : IrcCodec) (line : Bytes) : List (Except CodecError Message) :=
  if (content line).length > codec.maxBytes then [.error .lineTooLong]
  else if content line = [] then []
  else match Message.parse (content line) with
    | .ok m => [.ok m]
    | .error e => [.error (.parse e)]

theorem decode_open {codec : IrcCodec} {buf : Bytes} (unbroken : lf ∉ buf) :
    codec.decode buf =
      if buf.length > codec.maxBytes then (.error .lineTooLong, []) else (.ok none, buf) := by
  rw [decode]
  split
  · rfl
  · rename_i nl found
    rw [findIdx?_byte_none unbroken] at found
    simp at found

theorem contentEnd_line {line rest : Bytes} :
    contentEnd (line ++ lf :: rest) line.length = (content line).length := by
  rcases List.eq_nil_or_concat line with rfl | ⟨front, last, rfl⟩
  · simp [contentEnd, content]
  · by_cases ends : last = cr
    · simp [contentEnd, content, ends]
    · simp [contentEnd, content, ends]

theorem content_take (line rest : Bytes) :
    ((line ++ lf :: rest).take (line.length + 1)).take (content line).length = content line := by
  have whole : (line ++ lf :: rest).take (line.length + 1) = line ++ [lf] := by
    simp [List.take_append, List.take_of_length_le]
  rw [whole]
  unfold content
  split
  · rw [List.take_append_of_le_length (by simp), List.dropLast_eq_take, List.length_take]
    congr 1
    omega
  · simp

theorem decode_line {codec : IrcCodec} {line rest : Bytes} (unbroken : lf ∉ line) :
    codec.decode (line ++ lf :: rest) =
      if (content line).length > codec.maxBytes then (.error .lineTooLong, rest)
      else if content line = [] then codec.decode rest
      else match Message.parse (content line) with
        | .ok m => (.ok (some m), rest)
        | .error e => (.error (.parse e), rest) := by
  have at_line := findIdx?_byte_some rest unbroken
  have left : (line ++ lf :: rest).drop (line.length + 1) = rest := by simp
  rw [decode]
  split
  · rename_i missing
    rw [at_line] at missing
    simp at missing
  · rename_i nl found
    rw [at_line] at found
    obtain rfl := Option.some.inj found
    simp only [contentEnd_line, content_take, left]

theorem decode_shrinks {codec : IrcCodec} {buf : Bytes} (progress : (codec.decode buf).1 ≠ .ok none) :
    (codec.decode buf).2.length < buf.length := by
  induction buf using lines_induction (d := lf) with
  | opened buf unbroken =>
    rw [decode_open unbroken] at progress ⊢
    split at progress
    · rename_i long
      simp only [long, ↓reduceIte, List.length_nil]
      omega
    · simp at progress
  | line line rest unbroken ih =>
    rw [decode_line unbroken] at progress ⊢
    simp only [List.length_append, List.length_cons]
    split at progress
    · rename_i long
      simp only [long, ↓reduceIte]
      omega
    · rename_i short
      rw [if_neg short]
      split at progress
      · rename_i empty
        rw [if_pos empty]
        have := ih progress
        omega
      · rename_i nonempty
        rw [if_neg nonempty]
        split <;> simp only <;> omega

/-- The lines of a stream that are not empty, which are those `decode` returns
something for. -/
def spoken (stream : Bytes) : List Bytes := (lines lf stream).filter (content · ≠ [])

theorem spoken_line {line rest : Bytes} (unbroken : lf ∉ line) :
    spoken (line ++ lf :: rest) = if content line = [] then spoken rest else line :: spoken rest := by
  by_cases empty : content line = [] <;> simp [spoken, unbroken, empty]

/-- When `decode` returns nothing, it has skipped empty lines only. -/
theorem decode_none {codec : IrcCodec} {buf left : Bytes} (quiet : codec.decode buf = (.ok none, left)) :
    left.length ≤ buf.length ∧ ∀ more, spoken (left ++ more) = spoken (buf ++ more) := by
  induction buf using lines_induction (d := lf) with
  | opened buf unbroken =>
    rw [decode_open unbroken] at quiet
    split at quiet
    · cases quiet
    · cases quiet
      exact ⟨le_rfl, fun _ => rfl⟩
  | line line rest unbroken ih =>
    rw [decode_line unbroken] at quiet
    split at quiet
    · cases quiet
    · split at quiet
      · rename_i empty
        obtain ⟨short, same⟩ := ih quiet
        refine ⟨by simp; omega, fun more => ?_⟩
        rw [same, List.append_assoc, List.cons_append, spoken_line unbroken, if_pos empty]
      · split at quiet <;> cases quiet

/-- When `decode` returns a message, it has read the first line that is not empty. -/
theorem decode_some {codec : IrcCodec} {buf left : Bytes} {m : Message}
    (returned : codec.decode buf = (.ok (some m), left)) :
    ∃ line, codec.readLine line = [.ok m] ∧ ∀ more, spoken (buf ++ more) = line :: spoken (left ++ more) := by
  induction buf using lines_induction (d := lf) with
  | opened buf unbroken =>
    rw [decode_open unbroken] at returned
    split at returned <;> cases returned
  | line line rest unbroken ih =>
    rw [decode_line unbroken] at returned
    have front : ∀ more, line ++ lf :: rest ++ more = line ++ lf :: (rest ++ more) := by simp
    split at returned
    · cases returned
    · rename_i short
      split at returned
      · rename_i empty
        obtain ⟨read, parsed, same⟩ := ih returned
        refine ⟨read, parsed, fun more => ?_⟩
        rw [front, spoken_line unbroken, if_pos empty, same]
      · rename_i nonempty
        split at returned
        · rename_i m' parsed
          cases returned
          refine ⟨line, ?_, fun more => ?_⟩
          · rw [readLine, if_neg short, if_neg nonempty, parsed]
          · rw [front, spoken_line unbroken, if_neg nonempty]
        · cases returned

/-- Call `decode` until it returns `Ok(None)`, keeping every other result. -/
def drain (codec : IrcCodec) (buf : Bytes) : List (Except CodecError Message) × Bytes :=
  match step : codec.decode buf with
  | (.ok none, left) => ([], left)
  | (.ok (some m), left) =>
    have : left.length < buf.length := by
      have shrinks : (codec.decode buf).2.length < buf.length := decode_shrinks (by simp [step])
      simpa [step] using shrinks
    (.ok m :: (drain codec left).1, (drain codec left).2)
  | (.error e, left) =>
    have : left.length < buf.length := by
      have shrinks : (codec.decode buf).2.length < buf.length := decode_shrinks (by simp [step])
      simpa [step] using shrinks
    (.error e :: (drain codec left).1, (drain codec left).2)
termination_by buf.length

/-- One call of the loop, without the bookkeeping of its termination. -/
theorem drain_eq (codec : IrcCodec) (buf : Bytes) :
    codec.drain buf = match codec.decode buf with
      | (.ok none, left) => ([], left)
      | (.ok (some m), left) => (.ok m :: (codec.drain left).1, (codec.drain left).2)
      | (.error e, left) => (.error e :: (codec.drain left).1, (codec.drain left).2) := by
  rw [drain]
  split
  all_goals
    rename_i step
    simp [step]

theorem drain_open {codec : IrcCodec} {buf : Bytes} (unbroken : lf ∉ buf) :
    codec.drain buf =
      if buf.length > codec.maxBytes then ([.error .lineTooLong], []) else ([], buf) := by
  have cleared : codec.drain [] = ([], []) := by
    rw [drain_eq, decode_open (by simp)]
    simp
  rw [drain_eq, decode_open unbroken]
  by_cases long : buf.length > codec.maxBytes
  · simp [long, cleared]
  · simp [long]

/-- A closed line is read on its own, then the rest. -/
theorem drain_line {codec : IrcCodec} {line rest : Bytes} (unbroken : lf ∉ line) :
    codec.drain (line ++ lf :: rest) =
      (codec.readLine line ++ (codec.drain rest).1, (codec.drain rest).2) := by
  rw [drain_eq, decode_line unbroken, readLine]
  by_cases long : (content line).length > codec.maxBytes
  · simp [long]
  · by_cases empty : content line = []
    · simp only [↓reduceIte, empty]
      exact (drain_eq codec rest).symm
    · cases parsed : Message.parse (content line) <;> simp [long, empty]

/-- **Draining reads the lines of the buffer** and keeps what follows them, when
that is within the limit. -/
theorem drain_lines {codec : IrcCodec} {buf : Bytes}
    (fits : (tail lf buf).length ≤ codec.maxBytes) :
    codec.drain buf = ((lines lf buf).flatMap codec.readLine, tail lf buf) := by
  induction buf using lines_induction (d := lf) with
  | opened buf unbroken =>
    rw [tail_open unbroken] at fits
    simp [drain_open unbroken, unbroken, fits]
  | line line rest unbroken ih =>
    rw [tail_line unbroken] at fits
    simp [drain_line unbroken, unbroken, ih fits]

/-- Past the limit the unterminated part of the buffer is dropped. -/
theorem drain_overlong {codec : IrcCodec} {buf : Bytes}
    (overlong : (tail lf buf).length > codec.maxBytes) :
    codec.drain buf = ((lines lf buf).flatMap codec.readLine ++ [.error .lineTooLong], []) := by
  induction buf using lines_induction (d := lf) with
  | opened buf unbroken =>
    rw [tail_open unbroken] at overlong
    simp [drain_open unbroken, unbroken, overlong]
  | line line rest unbroken ih =>
    rw [tail_line unbroken] at overlong
    simp [drain_line unbroken, unbroken, ih overlong]

/-- The decoder on a stream that arrives in chunks, from an empty buffer. -/
def feed (codec : IrcCodec) (chunks : List Bytes) : List (Except CodecError Message) × Bytes :=
  Lib.feed codec.drain [] chunks

/-- At no cut has the stream left more than the limit without a `
`. -/
def Calm (codec : IrcCodec) (chunks : List Bytes) : Prop :=
  ∀ seen, seen <+: chunks → (tail lf seen.flatten).length ≤ codec.maxBytes

/-- **A calm stream is read line by line**, however it is cut. -/
theorem feed_lines {codec : IrcCodec} {chunks : List Bytes} (calm : codec.Calm chunks) :
    codec.feed chunks =
      ((lines lf chunks.flatten).flatMap codec.readLine, tail lf chunks.flatten) := by
  have drains : ∀ buf, (tail lf buf).length ≤ codec.maxBytes →
      codec.drain buf = ((lines lf buf).flatMap codec.readLine, tail lf buf) :=
    fun _ fits => drain_lines fits
  have fit : ∀ seen, seen ≠ [] → seen <+: chunks →
      (tail lf ([] ++ seen.flatten)).length ≤ codec.maxBytes := by
    intro seen _ before
    simpa using calm seen before
  exact Lib.feed_lines (fun left => left.length ≤ codec.maxBytes) drains (by simp) fit

theorem readLine_ok {codec : IrcCodec} {line : Bytes} {m : Message}
    (returned : .ok m ∈ codec.readLine line) :
    (content line).length ≤ codec.maxBytes ∧ Message.parse (content line) = .ok m := by
  unfold readLine at returned
  split at returned
  · simp at returned
  · rename_i short
    split at returned
    · simp at returned
    · cases parsed : Message.parse (content line) with
      | error e => simp [parsed] at returned
      | ok m' =>
        obtain rfl : m = m' := by simpa [parsed] using returned
        exact ⟨Nat.le_of_not_lt short, rfl⟩

theorem readLine_short {codec : IrcCodec} {line : Bytes}
    (short : (content line).length ≤ codec.maxBytes) :
    .error .lineTooLong ∉ codec.readLine line := by
  unfold readLine
  rw [if_neg (Nat.not_lt.mpr short)]
  split
  · simp
  · split <;> simp

section Encoding

theorem encode_spec (codec : IrcCodec) (m : Message) (out : Bytes) :
    codec.encode m out =
      if m.toBytes.length + 2 > codec.maxBytes then (.error .lineTooLong, out)
      else (.ok (), out ++ m.toBytes ++ [cr, lf]) := by
  simp [encode]

/-- Whether `encode` takes a message; what is already in the output buffer does not
matter. -/
def Accepts (codec : IrcCodec) (m : Message) : Prop := ∀ out, (codec.encode m out).1 = .ok ()

theorem accepts_iff {codec : IrcCodec} {m : Message} :
    codec.Accepts m ↔ m.toBytes.length + 2 ≤ codec.maxBytes := by
  simp only [Accepts, encode_spec]
  split
  · simp
    omega
  · simp
    omega

/-- The output buffer after encoding the messages one after the other. -/
def encodeAll (codec : IrcCodec) (ms : List Message) : Bytes :=
  ms.foldl (fun out m => (codec.encode m out).2) []

/-- Accepted messages are written as closed lines, each with its `\r`. -/
theorem encodeAll_lines {codec : IrcCodec} {ms : List Message}
    (accepted : ∀ m ∈ ms, codec.Accepts m) :
    codec.encodeAll ms = (ms.map fun m => m.toBytes ++ [cr]).flatMap (· ++ [lf]) := by
  have grows : ∀ out, ms.foldl (fun out m => (codec.encode m out).2) out =
      out ++ (ms.map fun m => m.toBytes ++ [cr]).flatMap (· ++ [lf]) := by
    induction ms with
    | nil => simp
    | cons m ms ih =>
      have fits := accepts_iff.mp (accepted m (by simp))
      have rest := ih fun other member => accepted other (List.mem_cons_of_mem _ member)
      intro out
      rw [List.foldl_cons, rest, encode_spec, if_neg (by omega)]
      simp
  simpa [encodeAll] using grows []

end Encoding

end IrcCodec

end RndRust.Irc.Proto
