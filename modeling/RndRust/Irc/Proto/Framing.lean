import RndRust.Irc.Proto.Codec

/-! Messages over a byte stream: what the codec writes it reads back, whatever the
cuts; where the cuts start to matter; and where the decoder loses the line it was
in. -/
namespace RndRust.Irc.Proto.IrcCodec
open Lib

variable {codec : IrcCodec}

theorem readLine_written {m : Message} (wf : m.WellFormed) (accepted : codec.Accepts m) :
    codec.readLine (m.toBytes ++ [cr]) = [.ok m] := by
  have fits := accepts_iff.mp accepted
  have stripped : content (m.toBytes ++ [cr]) = m.toBytes := by simp [content]
  rw [readLine, stripped, if_neg (by omega), if_neg (toBytes_ne_nil wf), parse_toBytes wf]

theorem readLine_written_all {ms : List Message}
    (each : ∀ m ∈ ms, m.WellFormed ∧ codec.Accepts m) :
    (ms.map fun m => m.toBytes ++ [cr]).flatMap codec.readLine = ms.map .ok := by
  induction ms with
  | nil => rfl
  | cons m ms ih =>
    have head := each m (by simp)
    have rest := ih fun other member => each other (List.mem_cons_of_mem _ member)
    simp [readLine_written head.1 head.2, rest]

/-- Written lines are the lines of what was written. -/
theorem lines_encodeAll {ms : List Message} (each : ∀ m ∈ ms, m.WellFormed ∧ codec.Accepts m) :
    lines lf (codec.encodeAll ms) = (ms.map fun m => m.toBytes ++ [cr]) ∧
      tail lf (codec.encodeAll ms) = [] := by
  rw [encodeAll_lines fun m member => (each m member).2]
  apply lines_flatMap
  simp only [List.mem_map]
  rintro line ⟨m, member, rfl⟩
  simpa [cr, lf] using toBytes_no_lf (each m member).1

/-- Every chunking of a stream whose lines and tail are all within the limit, the
`\r` counted, is calm. -/
theorem calm_of_short {chunks : List Bytes}
    (lines_short : ∀ line ∈ lines lf chunks.flatten, line.length ≤ codec.maxBytes)
    (tail_short : (tail lf chunks.flatten).length ≤ codec.maxBytes) : codec.Calm chunks := by
  rintro seen ⟨rest, rfl⟩
  rw [List.flatten_append] at lines_short tail_short
  rcases tail_prefix (d := lf) seen.flatten rest.flatten with ends | ⟨line, member, ends⟩
  · exact ends.length_le.trans tail_short
  · exact ends.length_le.trans (lines_short line member)

/-- **Framing round trip.** Accepted messages come back in order from any cut of
their encodings, with nothing left over; a refused one leaves no trace. -/
theorem framing_round_trip (codec : IrcCodec) :
    (∀ (ms : List Message) (chunks : List Bytes),
      (∀ m ∈ ms, m.WellFormed ∧ codec.Accepts m) → chunks.flatten = codec.encodeAll ms →
        codec.feed chunks = (ms.map .ok, [])) ∧
    ∀ (m : Message) (out : Bytes), (codec.encode m out).1 ≠ .ok () →
      (codec.encode m out).2 = out := by
  refine ⟨fun ms chunks each cut => ?_, fun m out refused => ?_⟩
  · obtain ⟨split, closed⟩ := lines_encodeAll each
    have calm : codec.Calm chunks := by
      refine calm_of_short ?_ (by simp [cut, closed])
      simp only [cut, split, List.mem_map]
      rintro line ⟨m, member, rfl⟩
      have := accepts_iff.mp (each m member).2
      simp
      omega
    rw [feed_lines calm, cut, split, closed, readLine_written_all each]
  · rw [encode_spec] at refused ⊢
    split
    · rfl
    · rename_i fits
      simp [fits] at refused

/-- `PING` and `PONG` cut inside the first and between `\r` and `\n` of the second. -/
theorem framing_round_trip_two :
    let ping : Message := { verb := .word (ascii "PING") }
    let pong : Message := { verb := .word (ascii "PONG") }
    (⟨6⟩ : IrcCodec).feed [ascii "PI", ascii "NG\r\nPONG\r", ascii "\n"] =
      ([.ok ping, .ok pong], []) := by
  refine (framing_round_trip ⟨6⟩).1 [_, _] _ ?_ (by decide)
  simp only [accepts_iff]
  decide +kernel

/-- The pieces of a stream that the limit is about: its lines and its tail. -/
def pieces (stream : Bytes) : List Bytes := lines lf stream ++ [tail lf stream]

/-- No line of the stream is too long, its terminator not counted. -/
def ContentFits (codec : IrcCodec) (stream : Bytes) : Prop :=
  ∀ piece ∈ pieces stream, (content piece).length ≤ codec.maxBytes

/-- Every cut of the stream gives the same results and buffer, and no refusal. -/
def ChunkIndependent (codec : IrcCodec) (stream : Bytes) : Prop :=
  ∀ one other : List Bytes, one.flatten = stream → other.flatten = stream →
    codec.feed one = codec.feed other ∧ .error .lineTooLong ∉ (codec.feed one).1

/-- A line of a stream can be reached by a cut just before its `\n`. -/
theorem cut_before_end {stream line : Bytes} (member : line ∈ lines lf stream) :
    ∃ before after, stream = before ++ after ∧ tail lf before = line := by
  induction stream using lines_induction (d := lf) with
  | opened stream unbroken => simp [unbroken] at member
  | line first rest unbroken ih =>
    rw [lines_line unbroken] at member
    rcases List.mem_cons.mp member with rfl | later
    · exact ⟨line, lf :: rest, rfl, by simp [unbroken]⟩
    · obtain ⟨before, after, rfl, held⟩ := ih later
      exact ⟨first ++ lf :: before, after, by simp, by simp [unbroken, held]⟩

/-- A cut that leaves more than the limit unterminated is answered by a refusal. -/
theorem overlong_cut {before after : Bytes}
    (overlong : (tail lf before).length > codec.maxBytes) :
    .error .lineTooLong ∈ (codec.feed [before, after]).1 := by
  simp [feed, Lib.feed, drain_overlong overlong]

/-- Every piece of the stream is within the limit, a `\r` at its end counted. -/
def RawFits (codec : IrcCodec) (stream : Bytes) : Prop :=
  ∀ piece ∈ pieces stream, piece.length ≤ codec.maxBytes

/-- **How a stream of lines that fit is cut matters exactly when a piece exceeds the
limit by its `\r`**: the unterminated buffer is measured with it, a line without. -/
theorem chunk_independence {stream : Bytes} (fits : codec.ContentFits stream) :
    codec.ChunkIndependent stream ↔ codec.RawFits stream := by
  constructor
  · intro independent piece member
    by_contra long
    obtain ⟨before, after, rfl, held⟩ :
        ∃ before after, stream = before ++ after ∧ tail lf before = piece := by
      rcases List.mem_append.mp member with line | last
      · exact cut_before_end line
      · exact ⟨stream, [], by simp, by simpa using (List.mem_singleton.mp last).symm⟩
    have refused : .error .lineTooLong ∈ (codec.feed [before, after]).1 :=
      overlong_cut (by rw [held]; omega)
    exact (independent [before, after] [before, after] (by simp) (by simp)).2 refused
  · intro roomy one other oneCut otherCut
    have calm : ∀ chunks : List Bytes, chunks.flatten = stream → codec.Calm chunks := by
      rintro chunks rfl
      exact calm_of_short (fun line member => roomy line (List.mem_append_left _ member))
        (roomy _ (List.mem_append_right _ (by simp)))
    rw [feed_lines (calm one oneCut), feed_lines (calm other otherCut), oneCut, otherCut]
    refine ⟨rfl, fun refused => ?_⟩
    obtain ⟨line, member, refused⟩ := List.mem_flatMap.mp refused
    exact readLine_short (fits line (List.mem_append_left _ member)) refused

/-- One byte above the content of `PING` is room for its `\r`. -/
theorem chunk_independence_ping :
    (⟨5⟩ : IrcCodec).ChunkIndependent (ascii "PING\r\n") :=
  (chunk_independence (by unfold ContentFits; decide)).mpr (by unfold RawFits; decide)

/-- With a limit equal to the content, a cut between `\r` and `\n` loses the line. -/
theorem chunk_independence_fails :
    (⟨4⟩ : IrcCodec).ContentFits (ascii "PING\r\n") ∧
      (⟨4⟩ : IrcCodec).feed [ascii "PING\r\n"] = ([.ok { verb := .word (ascii "PING") }], []) ∧
      (⟨4⟩ : IrcCodec).feed [ascii "PING\r", ascii "\n"] = ([.error .lineTooLong], []) := by
  refine ⟨?_, by decide +kernel, by decide +kernel⟩
  unfold ContentFits
  decide

/-- **Resynchronisation.** While no cut leaves more than the limit unterminated,
every message is the parse of one whole line of the stream, and of one that fits. -/
theorem resynchronises {chunks : List Bytes} (calm : codec.Calm chunks) {m : Message}
    (returned : .ok m ∈ (codec.feed chunks).1) :
    ∃ line ∈ lines lf chunks.flatten,
      (content line).length ≤ codec.maxBytes ∧ Message.parse (content line) = .ok m := by
  rw [feed_lines calm] at returned
  obtain ⟨line, member, returned⟩ := List.mem_flatMap.mp returned
  exact ⟨line, member, readLine_ok returned⟩

theorem resynchronises_ping :
    ∃ line ∈ lines lf [ascii "PI", ascii "NG\n"].flatten,
      (content line).length ≤ 6 ∧
        Message.parse (content line) = .ok { verb := .word (ascii "PING") } := by
  have calm : (⟨6⟩ : IrcCodec).Calm [ascii "PI", ascii "NG\n"] :=
    calm_of_short (by decide) (by decide)
  exact resynchronises calm (by decide +kernel)

/-- A cut inside an overlong line drops what was buffered of it; the rest of that
line is then returned as a message of its own. -/
theorem resynchronises_fails :
    .ok { verb := .word (ascii "QUIT") } ∈
      ((⟨6⟩ : IrcCodec).feed [ascii "PING aaaaa", ascii "QUIT\n"]).1 ∧
    ∀ line ∈ lines lf [ascii "PING aaaaa", ascii "QUIT\n"].flatten,
      Message.parse (content line) ≠ .ok { verb := .word (ascii "QUIT") } := by
  constructor <;> decide +kernel

end RndRust.Irc.Proto.IrcCodec
