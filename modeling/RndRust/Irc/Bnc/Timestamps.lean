import RndRust.Irc.Bnc.Replay
import RndRust.Irc.Server.Clock
import RndRust.Lib.Numerals

/-! The times of buffered messages: `format_timestamp` of `upstream.rs`, and the search of a buffer by time. The
texts are ordered like the times, byte by byte, so that the first entry that is not before a text begins what is
not before the time. -/
namespace RndRust.Irc.Bnc
open Lib Proto

/-- `days_to_date`. -/
def daysToDate (days : ℕ) : ℕ × ℕ × ℕ :=
  let z := days + 719468
  let era := z / 146097
  let doe := z - era * 146097
  let yoe := (doe - doe / 1460 + doe / 36524 - doe / 146096) / 365
  let y := yoe + era * 400
  let doy := doe - (365 * yoe + yoe / 4 - yoe / 100)
  let mp := (5 * doy + 2) / 153
  let d := doy - (153 * mp + 2) / 5 + 1
  let m := if mp < 10 then mp + 3 else mp - 9
  let y := if m ≤ 2 then y + 1 else y
  (y, m, d)

/-- `format_timestamp`. -/
def formatTimestamp (epochSecs : ℕ) : Bytes :=
  let daySecs := epochSecs % 86400
  let hours := daySecs / 3600
  let minutes := daySecs % 3600 / 60
  let seconds := daySecs % 60
  let (year, month, day) := daysToDate (epochSecs / 86400)
  padded 4 year ++ 45 :: padded 2 month ++ 45 :: padded 2 day ++ 84 :: padded 2 hours ++
    colon :: padded 2 minutes ++ colon :: padded 2 seconds ++ [90]

/-- `MessageBuffer::since`: the entries from the first on whose time is not less. -/
def MessageBuffer.since {cap : ℕ} (buf : MessageBuffer cap) (since : Bytes) : List (Bytes × Incoming) :=
  buf.entries.drop ((buf.entries.findIdx? fun (timestamp, _) => ¬ timestamp < since).getD buf.entries.length)

section Texts

variable {w n t u : ℕ}

/-- The bytes in their order. -/
scoped instance byteOrder : LinearOrder UInt8 where
  le_refl a := UInt8.le_refl a
  le_trans a b c := UInt8.le_trans
  le_antisymm a b := UInt8.le_antisymm
  le_total a b := UInt8.le_total a b
  lt_iff_le_not_ge a b := by
    rw [UInt8.lt_iff_toNat_lt, UInt8.le_iff_toNat_le, UInt8.le_iff_toNat_le]
    omega
  toDecidableLE := inferInstance
  toDecidableLT := inferInstance
  toDecidableEq := inferInstance

theorem ten_pos : 0 < 10 := by decide

/-- The bytes of the digits. -/
def digits : Numerals UInt8 10 where
  digit n := (Nat.digitChar n).toUInt8
  digit_lt m n less short := by
    interval_cases n <;> interval_cases m <;> decide
  base_pos := ten_pos

theorem decimal_short (short : n < 10) : decimal n = [digits.digit n] := by
  rw [decimal_eq, Nat.toDigits_of_lt_base short]
  rfl

theorem decimal_long (long : 10 ≤ n) : decimal n = decimal (n / 10) ++ [digits.digit (n % 10)] := by
  rw [decimal_eq, Nat.toDigits_of_base_le (by decide) long, List.map_append, ← decimal_eq]
  rfl

theorem length_decimal_le (positive : 0 < w) (short : n < 10 ^ w) : (decimal n).length ≤ w := by
  rw [decimal_eq, List.length_map, Nat.length_toDigits_le_iff (by decide) positive]
  exact short

/-- A number written with at least as many digits as it takes has exactly these. -/
theorem padded_eq (short : n < 10 ^ (w + 1)) : padded (w + 1) n = digits.padded (w + 1) n := by
  induction w generalizing n with
  | zero =>
    have one : n < 10 := by simpa using short
    rw [padded, decimal_short one]
    simp [Numerals.padded]
  | succ w ih =>
    have fewer : n / 10 < 10 ^ (w + 1) := Nat.div_lt_of_lt_mul (by rwa [Nat.pow_succ, Nat.mul_comm] at short)
    rw [digits.padded_concat short, ← ih fewer, padded, padded]
    by_cases one : n < 10
    · rw [decimal_short one, Nat.div_eq_of_lt one, Nat.mod_eq_of_lt one, decimal_short (by decide), List.length_singleton,
        List.length_singleton, Nat.add_sub_cancel, Nat.add_sub_cancel, List.replicate_succ']
      rfl
    · have inside := length_decimal_le (Nat.succ_pos w) fewer
      rw [decimal_long (Nat.not_lt.mp one), List.length_append, List.length_singleton, Nat.add_sub_add_right,
        List.append_assoc]

/-- The dates of the server and those of the bouncer are computed alike. -/
theorem epochToUtc_eq (epoch : ℕ) : Server.epochToUtc epoch =
    ((daysToDate (epoch / 86400)).1, (daysToDate (epoch / 86400)).2.1, (daysToDate (epoch / 86400)).2.2,
      epoch % 86400 / 3600, epoch % 86400 % 3600 / 60, epoch % 86400 % 60) := rfl

/-- Up to the end of the year 9999 a year has four digits. -/
theorem year_lt (early : t < 253402300800) : (Server.epochToUtc t).1 < 10 ^ 4 := by
  have civil := Server.epochToUtc_civil t
  generalize Server.epochToUtc t = date at civil ⊢
  obtain ⟨year, month, day, hour, min, sec⟩ := date
  obtain ⟨valid, from', -, -, -, back⟩ := civil
  -- The year is a variable: with a number in its place the days of all its years would be added up.
  obtain ⟨last, is⟩ : ∃ last, last = 9999 := ⟨_, rfl⟩
  have days : 2932897 ≤ Calendar.daysSince 1970 (last + 1) 1 1 := by
    have counted := @Calendar.daysSince_winter 1969 last 1 1 (by omega) (by decide) (by decide)
    have march : Calendar.marchDays last = 3652059 := by
      rw [is]
      decide
    have month : Calendar.monthDays (1 + 9) = 306 := by decide
    have start : Calendar.marchDays 1969 = 719162 := by decide
    rw [march, month, start] at counted
    simp only [Nat.reduceAdd] at counted
    omega
  by_contra late
  dsimp only at late
  have reached : Calendar.daysSince 1970 (last + 1) 1 1 ≤ Calendar.daysSince 1970 year month day := by
    by_cases same : year = last + 1 ∧ month = 1 ∧ day = 1
    · obtain ⟨rfl, rfl, rfl⟩ := same
      exact le_rfl
    · have first : Calendar.Valid (last + 1) 1 1 := ⟨by decide, by decide, by decide, by simp [Calendar.monthLength]⟩
      have := valid.month_pos
      have := valid.day_pos
      exact (Calendar.daysSince_strict first valid (by omega) (by omega)).le
  omega

/-- Later instants have greater texts. -/
theorem formatTimestamp_lt (before : t < u) (early : u < 253402300800) : formatTimestamp t < formatTimestamp u := by
  have former := Server.epochToUtc_civil t
  have latter := Server.epochToUtc_civil u
  have strict := Server.epochToUtc_strict before
  have short := year_lt early
  rw [epochToUtc_eq] at former latter strict short
  rw [epochToUtc_eq u] at strict
  unfold formatTimestamp
  generalize daysToDate (t / 86400) = date at *
  generalize daysToDate (u / 86400) = date' at *
  obtain ⟨year, month, day⟩ := date
  obtain ⟨year', month', day'⟩ := date'
  simp only [Server.inOrder, Prod.Lex.toLex_lt_toLex] at former latter strict short ⊢
  obtain ⟨valid, -, hour_lt, min_lt, sec_lt, -⟩ := former
  obtain ⟨valid', -, hour_lt', min_lt', sec_lt', -⟩ := latter
  have month_le := valid.month_le
  have month_le' := valid'.month_le
  have day_le := Calendar.day_le_31 valid
  have day_le' := Calendar.day_le_31 valid'
  have two : ∀ n, n < 60 → padded 2 n = digits.padded 2 n := fun n less => padded_eq (by omega)
  have four : ∀ n, n < 10 ^ 4 → padded 4 n = digits.padded 4 n := fun n less => padded_eq less
  rw [four year (by omega), four year' short, two month (by omega), two month' (by omega), two day (by omega),
    two day' (by omega), two _ (hour_lt.trans (by decide)), two _ (hour_lt'.trans (by decide)), two _ min_lt,
    two _ min_lt', two _ sec_lt, two _ sec_lt']
  simp only [List.append_assoc, List.cons_append]
  refine digits.marked_lt short (strict.imp_right (And.imp_right fun less => ?_))
  refine digits.marked_lt (by omega) (less.imp_right (And.imp_right fun less => ?_))
  refine digits.marked_lt (by omega) (less.imp_right (And.imp_right fun less => ?_))
  refine digits.marked_lt (by omega) (less.imp_right (And.imp_right fun less => ?_))
  refine digits.marked_lt (by omega) (less.imp_right (And.imp_right fun less => ?_))
  exact digits.field_lt (by omega) (.inl less)

/-- A text is not less than another exactly if the instant is not before the other. -/
theorem not_formatTimestamp_lt_iff (early : t < 253402300800) (early' : u < 253402300800) :
    ¬ formatTimestamp t < formatTimestamp u ↔ u ≤ t := by
  constructor
  · exact fun stays => Nat.not_lt.mp fun before => stays (formatTimestamp_lt before early')
  · intro after less
    rcases after.lt_or_eq with later | rfl
    · exact lt_asymm less (formatTimestamp_lt later early)
    · exact lt_irrefl _ less

end Texts

section Searching

variable {cap t : ℕ} {log earlier : List (ℕ × Incoming)} {entries : List (Bytes × Incoming)} {target now : Bytes}
  {m : Incoming} {buffers : Buffers} {state : UpstreamState}

/-- The last entries that a buffer has room for. One stays even where there is no room. -/
def keepLast {α : Type} (cap : ℕ) (xs : List α) : List α := xs.drop (xs.length - max cap 1)

/-- The entries of messages, each with the second it came in. -/
def stamped (log : List (ℕ × Incoming)) : List (Bytes × Incoming) := log.map fun (secs, m) => (formatTimestamp secs, m)

/-- What is said to a target: a message as often as it names it. -/
def saidTo (target : Bytes) (log : List (ℕ × Incoming)) : List (ℕ × Incoming) :=
  log.flatMap fun (secs, m) => List.replicate ((targetsOf m.msg).count target) (secs, m)

/-- The state after messages, each with the second it came in. -/
def receiveAll (state : UpstreamState) (log : List (ℕ × Incoming)) : UpstreamState :=
  log.foldl (fun state (secs, m) => (processIncoming state (formatTimestamp secs) m).1) state

theorem MessageBuffer.push_keepLast {buf : MessageBuffer cap} (keeps : buf.entries = keepLast cap entries) :
    (buf.push now m).entries = keepLast cap (entries ++ [(now, m)]) := by
  have length : buf.entries.length = min entries.length (max cap 1) := by
    rw [keeps, keepLast, List.length_drop]
    omega
  have room : 1 ≤ max cap 1 := le_max_right _ _
  rw [keepLast, List.length_append, List.length_singleton, List.drop_append_of_le_length (by omega)]
  refine congrArg (· ++ [(now, m)]) (?_ : (if cap ≤ buf.entries.length then buf.entries.tail else buf.entries) = _)
  split
  case isTrue full =>
    rw [keeps, keepLast, List.tail_drop]
    by_cases beyond : max cap 1 ≤ entries.length
    · rw [Nat.sub_add_comm beyond]
    · have none : entries = [] := List.length_eq_zero_iff.mp (by omega)
      rw [none, List.drop_nil, List.drop_nil]
  case isFalse open_ =>
    have fits : entries.length < max cap 1 := by omega
    rw [keeps, keepLast, Nat.sub_eq_zero_of_le fits.le, Nat.sub_eq_zero_of_le fits]

/-- A message goes to the buffer of a target as often as it names it. -/
theorem bufferMessage_keepLast {targets : List Bytes}
    (keeps : (buffers.at target).entries = keepLast defaultMax entries) :
    (Buffers.at (bufferMessage now m buffers targets) target).entries
      = keepLast defaultMax (entries ++ List.replicate (targets.count target) (now, m)) := by
  induction targets generalizing buffers entries with
  | nil =>
    rw [List.count_nil, List.replicate_zero, List.append_nil]
    exact keeps
  | cons other targets ih =>
    rw [bufferMessage]
    by_cases same : other = target
    · subst same
      have grown : (Buffers.at (AList.insert other ((Buffers.at buffers other).push now m) buffers) other).entries
          = keepLast defaultMax (entries ++ [(now, m)]) := by
        rw [Buffers.at_insert, if_pos rfl]
        exact MessageBuffer.push_keepLast keeps
      rw [ih grown, List.count_cons_self, List.append_assoc, List.replicate_succ]
      rfl
    · have still : (Buffers.at (AList.insert other ((Buffers.at buffers other).push now m) buffers) target).entries
          = keepLast defaultMax entries := by
        rw [Buffers.at_insert, if_neg (Ne.symm same)]
        exact keeps
      rw [ih still, List.count_cons_of_ne same]

theorem receiveAll_keepLast
    (keeps : (state.buffers.at target).entries = keepLast defaultMax (stamped (saidTo target earlier))) :
    ((receiveAll state log).buffers.at target).entries
      = keepLast defaultMax (stamped (saidTo target (earlier ++ log))) := by
  induction log generalizing state earlier with
  | nil =>
    rw [List.append_nil]
    exact keeps
  | cons received log ih =>
    obtain ⟨secs, m⟩ := received
    rw [List.append_cons]
    refine ih ?_
    rw [processIncoming_buffers, bufferMessage_keepLast keeps]
    simp [stamped, saidTo]

/-- In order of time, what comes from the first entry on that is not before a time is what is not before it. -/
theorem dropWhile_eq_filter {α : Type} {p : α → Bool} {xs : List α} (sorted : xs.Pairwise fun a b => p a → p b) :
    xs.dropWhile (fun a => !p a) = xs.filter p := by
  induction xs with
  | nil => rfl
  | cons a xs ih =>
    obtain ⟨first, sorted⟩ := List.pairwise_cons.mp sorted
    by_cases here : p a
    · rw [List.dropWhile_cons_of_neg (by simpa using here), List.filter_cons_of_pos here]
      exact congrArg _ (List.filter_eq_self.mpr fun b member => first b member here).symm
    · rw [List.dropWhile_cons_of_pos (by simpa using here), List.filter_cons_of_neg here, ih sorted]

/-- The first text that is not less is that of the first instant that is not before. -/
theorem stamped_from
    (times : ∀ entry ∈ log, (¬ formatTimestamp entry.1 < formatTimestamp t ↔ t ≤ entry.1)) :
    (stamped log).drop ((stamped log).findIdx fun entry => ¬ entry.1 < formatTimestamp t)
      = stamped (log.dropWhile fun entry => !decide (t ≤ entry.1)) := by
  induction log with
  | nil => rfl
  | cons entry log ih =>
    obtain ⟨first, times⟩ := List.forall_mem_cons.mp times
    have head : (decide ¬ formatTimestamp entry.1 < formatTimestamp t) = decide (t ≤ entry.1) :=
      decide_eq_decide.mpr first
    rw [stamped, List.map_cons, List.findIdx_cons, head]
    by_cases reached : t ≤ entry.1
    · rw [List.dropWhile_cons_of_neg (by simpa using reached)]
      simp [reached, stamped]
    · rw [List.dropWhile_cons_of_pos (by simpa using reached), ← ih times]
      simp [reached, stamped]

theorem saidTo_mem {entry : ℕ × Incoming} (member : entry ∈ saidTo target log) : entry ∈ log := by
  obtain ⟨received, listed, copies⟩ := List.mem_flatMap.mp member
  rwa [List.eq_of_mem_replicate copies]

theorem saidTo_sorted (sorted : log.Pairwise fun a b => a.1 ≤ b.1) :
    (saidTo target log).Pairwise fun a b => a.1 ≤ b.1 := by
  induction log with
  | nil => exact .nil
  | cons received log ih =>
    obtain ⟨first, sorted⟩ := List.pairwise_cons.mp sorted
    refine List.pairwise_append.mpr ⟨List.pairwise_replicate.mpr (.inr le_rfl), ih sorted, fun a copies b later => ?_⟩
    rw [List.eq_of_mem_replicate copies]
    exact first b (saidTo_mem later)

/-- Whatever the upstream sends, while the clock does not go back and up to the end of the year 9999: the search of a
buffer from a time on gives exactly what the buffer still has of what was said to its target at that time or later. The
buffer has the last of it, as much as there is room for. -/
theorem since_exact {nick : Bytes} (sorted : log.Pairwise fun a b => a.1 ≤ b.1)
    (early : ∀ entry ∈ log, entry.1 < 253402300800) (asked : t < 253402300800) :
    ((receiveAll { nick } log).buffers.at target).since (formatTimestamp t)
      = stamped ((keepLast defaultMax (saidTo target log)).filter (t ≤ ·.1)) := by
  have kept : ((receiveAll { nick } log).buffers.at target).entries
      = stamped (keepLast defaultMax (saidTo target log)) := by
    have empty : (Buffers.at ({ nick } : UpstreamState).buffers target).entries
        = keepLast defaultMax (stamped (saidTo target [])) := List.drop_nil.symm
    rw [receiveAll_keepLast empty, List.nil_append, keepLast, keepLast, stamped, stamped, List.length_map, List.map_drop]
  have part : (keepLast defaultMax (saidTo target log)).Sublist (saidTo target log) := List.drop_sublist _ _
  generalize keepLast defaultMax (saidTo target log) = entries at kept part ⊢
  have times : ∀ entry ∈ entries, (¬ formatTimestamp entry.1 < formatTimestamp t ↔ t ≤ entry.1) :=
    fun entry member => not_formatTimestamp_lt_iff (early entry (saidTo_mem (part.subset member))) asked
  have order : entries.Pairwise fun a b => decide (t ≤ a.1) → decide (t ≤ b.1) :=
    ((saidTo_sorted sorted).sublist part).imp fun le => by simpa using fun reached => reached.trans le
  rw [MessageBuffer.since, kept, ← List.findIdx_eq_getD_findIdx?, stamped_from times, dropWhile_eq_filter order]

/-- A message of the last second of the year 9999, said twice to a target, is found from that second on. -/
theorem since_exact_last : let log : List (ℕ × Incoming) :=
      [(0, ⟨0, ⟨[], none, .word (ascii "PRIVMSG"), ⟨[ascii "#a", ascii "x"], true⟩⟩⟩),
        (253402300799, ⟨1, ⟨[], none, .word (ascii "PRIVMSG"), ⟨[ascii "#a,#a", ascii "y"], true⟩⟩⟩)]
    (((receiveAll { nick := [] } log).buffers.at (ascii "#a")).since (formatTimestamp 253402300799)).length = 2 ∧
      ((receiveAll { nick := [] } log).buffers.at (ascii "#a")).since (formatTimestamp 253402300799)
        = stamped ((keepLast defaultMax (saidTo (ascii "#a") log)).filter (253402300799 ≤ ·.1)) := by
  refine ⟨by decide +kernel, since_exact ?_ ?_ (by decide)⟩
  · exact .cons (fun other listed => Nat.zero_le _) (.cons (fun other listed => by cases listed) .nil)
  · exact List.forall_mem_cons.mpr ⟨by decide, List.forall_mem_cons.mpr ⟨by decide, List.forall_mem_nil _⟩⟩

end Searching

end RndRust.Irc.Bnc
