import RndRust.Irc.Proto.Util

/-! Mode-change strings, `mode.rs`. -/
namespace RndRust.Irc.Proto

/-- Which mode letters take arguments. -/
structure ModeSpec where
  listModes : Bytes
  setunsetModes : Bytes
  setOnlyModes : Bytes
  flagModes : Bytes
  prefixModes : Bytes
  deriving DecidableEq, Repr

/-- `ModeSpec::rfc2812`. -/
def ModeSpec.rfc2812 : ModeSpec where
  listModes := ascii "beI"
  setunsetModes := ascii "k"
  setOnlyModes := ascii "l"
  flagModes := ascii "imnpstr"
  prefixModes := ascii "ov"

/-- `ModeSpec::arg_count`. -/
def ModeSpec.argCount (spec : ModeSpec) (letter : UInt8) (adding : Bool) : ℕ :=
  if spec.prefixModes.contains letter || spec.listModes.contains letter then 1
  else if spec.setunsetModes.contains letter then 1
  else if spec.setOnlyModes.contains letter then adding.toNat
  else 0

structure ModeChange where
  adding : Bool
  letter : UInt8
  arg : Option Bytes
  deriving DecidableEq, Repr

/-- The loop of `parse_channel_modes`, with the arguments not yet taken. -/
def parseChannelModesLoop (spec : ModeSpec) : Bool → List Bytes → Bytes → List ModeChange
  | _, _, [] => []
  | adding, args, b :: more =>
    if b = plus then parseChannelModesLoop spec true args more
    else if b = 45 then parseChannelModesLoop spec false args more
    else match args with
      | arg :: left =>
        if spec.argCount b adding = 1 then
          ⟨adding, b, some arg⟩ :: parseChannelModesLoop spec adding left more
        else ⟨adding, b, none⟩ :: parseChannelModesLoop spec adding args more
      | [] => ⟨adding, b, none⟩ :: parseChannelModesLoop spec adding [] more

/-- `parse_channel_modes`. -/
def parseChannelModes (changes : Bytes) (args : List Bytes) (spec : ModeSpec) : List ModeChange :=
  parseChannelModesLoop spec true args changes

def parseUserModesLoop : Bool → Bytes → List ModeChange
  | _, [] => []
  | adding, b :: more =>
    if b = plus then parseUserModesLoop true more
    else if b = 45 then parseUserModesLoop false more
    else ⟨adding, b, none⟩ :: parseUserModesLoop adding more

/-- `parse_user_modes`. -/
def parseUserModes (changes : Bytes) : List ModeChange := parseUserModesLoop true changes

/-- The loop of `write_modes`, with the direction written last. -/
def writeModesLoop : Option Bool → Bytes × List Bytes → List ModeChange → Bytes × List Bytes
  | _, out, [] => out
  | lastDir, (changesOut, args), ch :: more =>
    let changesOut := if lastDir ≠ some ch.adding then changesOut ++ [if ch.adding then plus else 45] else changesOut
    writeModesLoop (some ch.adding) (changesOut ++ [ch.letter], args ++ ch.arg.toList) more

/-- `write_modes`. -/
def writeModes (changes : List ModeChange) : Bytes × List Bytes := writeModesLoop none ([], []) changes

end RndRust.Irc.Proto

/-! Lists of mode changes, written and read. The letters carry the directions and the
arguments stand apart from them, so that a reader hands the arguments out to the letters that
take one. -/
namespace RndRust.Irc.Proto

variable {spec : ModeSpec} {changes : List ModeChange} {adding : Bool} {args : List Bytes} {last : Option Bool}

/-- The letters of the changes, after the last direction that was written. -/
def spelledAfter : Option Bool → List ModeChange → Bytes
  | _, [] => []
  | last, ch :: more =>
    (if last ≠ some ch.adding then [if ch.adding then plus else 45] else []) ++
      ch.letter :: spelledAfter (some ch.adding) more

/-- The changes as a reader understands them that is given these arguments. -/
def handOut (spec : ModeSpec) : List Bytes → List ModeChange → List ModeChange
  | _, [] => []
  | [], ch :: more => { ch with arg := none } :: handOut spec [] more
  | arg :: left, ch :: more =>
    if spec.argCount ch.letter ch.adding = 1 then { ch with arg := some arg } :: handOut spec left more
    else { ch with arg := none } :: handOut spec (arg :: left) more

/-- A letter is read with the direction it was written with. -/
theorem parse_spelled (letters : ∀ ch ∈ changes, ch.letter ≠ plus ∧ ch.letter ≠ 45)
    (known : last = none ∨ last = some adding) :
    parseChannelModesLoop spec adding args (spelledAfter last changes) = handOut spec args changes := by
  induction changes generalizing adding args last with
  | nil => cases args <;> rfl
  | cons ch more ih =>
    obtain ⟨⟨notPlus, notMinus⟩, letters⟩ := List.forall_mem_cons.mp letters
    have read : parseChannelModesLoop spec ch.adding args (ch.letter :: spelledAfter (some ch.adding) more) =
        handOut spec args (ch :: more) := by
      cases args with
      | nil => simp [parseChannelModesLoop, notPlus, notMinus, handOut, ih letters (.inr rfl)]
      | cons arg left => simp [parseChannelModesLoop, notPlus, notMinus, handOut, ih letters (.inr rfl)]
    rw [spelledAfter]
    split
    · cases direction : ch.adding with
      | true => simpa [parseChannelModesLoop, direction] using read
      | false =>
        rw [direction] at read
        simpa [parseChannelModesLoop, show (45 : UInt8) ≠ plus by decide] using read
    · rename_i same
      rcases known with rfl | rfl
      · exact (same (by simp)).elim
      · obtain rfl : adding = ch.adding := by simpa using same
        exact read

/-- **A reader finds each change with its argument** if and only if no change that lacks the
argument it could take has an argument behind it. -/
theorem handOut_iff (takes : ∀ ch ∈ changes, ch.arg.isSome → spec.argCount ch.letter ch.adding = 1) :
    handOut spec (changes.filterMap (·.arg)) changes = changes ↔
      changes.Pairwise fun a b => a.arg = none → spec.argCount a.letter a.adding = 1 → b.arg = none := by
  induction changes with
  | nil => simp [handOut]
  | cons ch more ih =>
    obtain ⟨own, takes⟩ := List.forall_mem_cons.mp takes
    rw [List.pairwise_cons, ← ih takes]
    obtain ⟨adding, letter, arg⟩ := ch
    cases arg with
    | some arg => simp [handOut, own rfl]
    | none =>
      rw [List.filterMap_cons_none rfl]
      cases left : more.filterMap (·.arg) with
      | nil =>
        have bare : ∀ b ∈ more, b.arg = none := List.filterMap_eq_nil_iff.mp left
        simpa [handOut] using fun _ b listed _ => bare b listed
      | cons arg rest =>
        rw [handOut]
        by_cases steals : spec.argCount letter adding = 1
        · obtain ⟨b, listed, carried⟩ := List.mem_filterMap.mp (left ▸ List.mem_cons_self : arg ∈ more.filterMap (·.arg))
          rw [if_pos steals]
          refine iff_of_false (by simp) fun both => ?_
          rw [both.1 b listed rfl steals] at carried
          cases carried
        · simp [steals]

variable (spec adding args) in
/-- A letter that is read is no direction. -/
theorem parsed_letter (text : Bytes) :
    ∀ ch ∈ parseChannelModesLoop spec adding args text, ch.letter ≠ plus ∧ ch.letter ≠ 45 := by
  fun_induction parseChannelModesLoop spec adding args text with
  | case1 => simp
  | case2 _ _ _ ih => exact ih
  | case3 _ _ _ _ ih => exact ih
  | case4 _ _ _ notPlus notMinus _ _ _ ih | case5 _ _ _ notPlus notMinus _ _ _ ih | case6 _ _ _ notPlus notMinus ih =>
    exact List.forall_mem_cons.mpr ⟨⟨notPlus, notMinus⟩, ih⟩

variable (spec adding args) in
/-- An argument is read only for a letter that takes one. -/
theorem parsed_takes (text : Bytes) : ∀ ch ∈ parseChannelModesLoop spec adding args text,
    ch.arg.isSome → spec.argCount ch.letter ch.adding = 1 := by
  fun_induction parseChannelModesLoop spec adding args text with
  | case1 => simp
  | case2 _ _ _ ih => exact ih
  | case3 _ _ _ _ ih => exact ih
  | case4 _ _ _ _ _ _ _ takes ih => exact List.forall_mem_cons.mpr ⟨fun _ => takes, ih⟩
  | case5 _ _ _ _ _ _ _ _ ih | case6 _ _ _ _ _ ih => exact List.forall_mem_cons.mpr ⟨by simp, ih⟩

variable (spec adding args) in
/-- The arguments are read from the front, none left out. -/
theorem parsed_args (text : Bytes) : (parseChannelModesLoop spec adding args text).filterMap (·.arg) <+: args := by
  fun_induction parseChannelModesLoop spec adding args text with
  | case1 => exact List.nil_prefix
  | case2 _ _ _ ih => exact ih
  | case3 _ _ _ _ ih => exact ih
  | case4 _ _ _ _ _ arg _ _ ih => exact (List.prefix_cons_inj arg).mpr ih
  | case5 _ _ _ _ _ _ _ _ ih | case6 _ _ _ _ _ ih => exact ih

variable (spec adding args) in
/-- A letter goes without the argument it takes only when they have run out. -/
theorem parsed_bare (text : Bytes) : (parseChannelModesLoop spec adding args text).Pairwise
    fun a b => a.arg = none → spec.argCount a.letter a.adding = 1 → b.arg = none := by
  fun_induction parseChannelModesLoop spec adding args text with
  | case1 => exact .nil
  | case2 _ _ _ ih => exact ih
  | case3 _ _ _ _ ih => exact ih
  | case4 _ _ _ _ _ _ _ _ ih => exact List.pairwise_cons.mpr ⟨by simp, ih⟩
  | case5 _ _ _ _ _ _ _ bare ih => exact List.pairwise_cons.mpr ⟨fun _ _ _ takes => (bare takes).elim, ih⟩
  | case6 adding b more _ _ ih =>
    have ranOut := List.prefix_nil.mp (parsed_args spec adding [] more)
    exact List.pairwise_cons.mpr ⟨fun later listed _ _ => List.filterMap_eq_nil_iff.mp ranOut later listed, ih⟩

theorem writeModesLoop_eq (out : Bytes × List Bytes) :
    writeModesLoop last out changes = (out.1 ++ spelledAfter last changes, out.2 ++ changes.filterMap (·.arg)) := by
  induction changes generalizing last out with
  | nil => simp [writeModesLoop, spelledAfter]
  | cons ch more ih =>
    obtain ⟨written, given⟩ := out
    rw [writeModesLoop, ih, spelledAfter]
    have handed : (ch :: more).filterMap (·.arg) = ch.arg.toList ++ more.filterMap (·.arg) := by
      cases carried : ch.arg <;> simp [carried]
    rw [handed]
    split <;> simp [*]

/-- **Mode lists round trip**: what was read of a mode string is written so that it is read
again, and its arguments are those that were given, from the first on. -/
theorem parseChannelModes_writeModes (text : Bytes) (args : List Bytes) (spec : ModeSpec) :
    let changes := parseChannelModes text args spec
    parseChannelModes (writeModes changes).1 (writeModes changes).2 spec = changes ∧ changes.filterMap (·.arg) <+: args := by
  intro changes
  have written : writeModes changes = (spelledAfter none changes, changes.filterMap (·.arg)) := by
    rw [writeModes, writeModesLoop_eq, List.nil_append, List.nil_append]
  refine ⟨?_, parsed_args spec true args text⟩
  rw [written]
  calc parseChannelModes (spelledAfter none changes) (changes.filterMap (·.arg)) spec
      = handOut spec (changes.filterMap (·.arg)) changes := parse_spelled (parsed_letter spec true args text) (.inl rfl)
    _ = changes := (handOut_iff (parsed_takes spec true args text)).mpr (parsed_bare spec true args text)

/-- The sign is written once, and the letters after the last argument go without. -/
example : writeModes (parseChannelModes (ascii "+o+v-l+kb") [ascii "ann", ascii "bob"] .rfc2812) =
    (ascii "+ov-l+kb", [ascii "ann", ascii "bob"]) := by decide

end RndRust.Irc.Proto
