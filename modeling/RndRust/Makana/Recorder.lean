import Mathlib.Algebra.Ring.Nat
import Mathlib.Data.List.Basic
import RndRust.Lib.Runs
import RndRust.Lib.Table

/-! The recorder of samples, `recorder.rs`: lines are appended to a file, which is moved out of the
way when a run has written its limit. -/
namespace RndRust.Makana
open Lib

/-- The JSON of a sample, to which a newline is added. -/
abbrev Line := List UInt8

/-- The bytes of a file. -/
def fileSize (lines : List Line) : ℕ := (lines.map fun line => line.length + 1).sum

/-- A file that was rotated, with the limit that it had reached. -/
structure Rotated where
  lines : List Line
  limit : ℕ
  deriving DecidableEq, Repr

structure Recorder where
  rotateBytes : Option ℕ
  keep : ℕ
  bytesWritten : ℕ := 0
  deriving DecidableEq, Repr

/-- The largest `u64` and the largest `usize`. -/
def uintMax : ℕ := 2 ^ 64 - 1

def saturatingAdd (m n : ℕ) : ℕ := min (m + n) uintMax

/-- `<base>.i`, for every `i` with such a file. -/
abbrev Rotations := Table ℕ Rotated

/-- The first loop of `rotate`: the files from `i` on are deleted, up to the first that is missing.
There are no more of them than files. -/
def removeStale : ℕ → ℕ → Rotations → Rotations
  | 0, _, dir => dir
  | fuel + 1, i, dir =>
    if (dir.lookup i).isSome then removeStale fuel (saturatingAdd i 1) (AList.erase i dir) else dir

/-- `<base>.i`, if it is there, gets the next number. -/
def moveUp (i : ℕ) (dir : Rotations) : Rotations :=
  match dir.lookup i with
  | some file => AList.insert (i + 1) file (AList.erase i dir)
  | none => dir

/-- The second loop: the files `k` to `1` are renamed, in this order. -/
def shift : ℕ → Rotations → Rotations
  | 0, dir => dir
  | k + 1, dir => shift k (moveUp (k + 1) dir)

/-- `rotate`, as far as the rotated files. -/
def rotate (keep : ℕ) (file : Rotated) (dir : Rotations) : Rotations :=
  AList.insert 1 file (shift (keep - 1) (removeStale dir.entries.length (saturatingAdd keep 1) dir))

/-- The directory, with the recorder of the present run, and every line that was written. A base
file that is not there counts as empty. -/
structure Recording where
  base : List Line := []
  rotated : Rotations := ∅
  recorder : Option Recorder := none
  written : List Line := []

/-- A run starts, or the present one records a sample. -/
inductive RecorderAction where
  | start (rotateMb : Option ℕ) (keep : ℕ)
  | write (json : Line)
  deriving DecidableEq, Repr

namespace Recorder

/-- `Recorder::new`. -/
def new (rotateMb : Option ℕ) (keep : ℕ) : Recorder where
  rotateBytes := rotateMb.map fun mb => min (mb * (1024 * 1024)) uintMax
  keep

/-- The recorder has counted a line. -/
def count (r : Recorder) (json : Line) : Recorder :=
  { r with bytesWritten := saturatingAdd r.bytesWritten (saturatingAdd json.length 1) }

/-- The limit, once it is reached. -/
def due (r : Recorder) : Option ℕ := r.rotateBytes.filter (· ≤ r.bytesWritten)

end Recorder

namespace Recording

/-- `write`, without errors. -/
def write (s : Recording) (r : Recorder) (json : Line) : Recording :=
  let lines := s.base ++ [json]
  let r := r.count json
  match r.due with
  | some limit =>
    { base := []
      rotated := rotate r.keep ⟨lines, limit⟩ s.rotated
      recorder := some { r with bytesWritten := 0 }
      written := s.written ++ [json] }
  | none =>
    { s with
      base := lines
      recorder := some r
      written := s.written ++ [json] }

def step (s : Recording) : RecorderAction → Option Recording
  | .start rotateMb keep => some { s with recorder := some (.new rotateMb keep) }
  | .write json => s.recorder.map fun r => s.write r json

/-- The number of rotated files. -/
def count (s : Recording) : ℕ := s.rotated.entries.length

/-- `<base>.n` to `<base>.1`, one after the other. -/
def older (dir : Rotations) : ℕ → List Line
  | 0 => []
  | n + 1 => ((dir.lookup (n + 1)).map Rotated.lines).getD [] ++ older dir n

/-- Every file, one after the other, the base file last. -/
def contents (s : Recording) : List Line := older s.rotated s.count ++ s.base

end Recording

/-- Runs of the recorder over one directory, which is empty at the start. -/
def recording : Machine Recording RecorderAction where
  initial := {}
  step := Recording.step

section Directory

variable {dir : Rotations} {files : List Rotated} {file : Rotated} {i j k fuel keep : ℕ}

/-- The directory has these files, the newest under `1`. -/
def Holds (dir : Rotations) (files : List Rotated) : Prop := ∀ i, dir.lookup i = if i = 0 then none else files[i - 1]?

theorem removeStale_missing (missing : dir.lookup i = none) : removeStale fuel i dir = dir := by
  cases fuel with
  | zero => rfl
  | succ fuel => rw [removeStale, if_neg (by rw [missing]; simp)]

/-- Where the files from `i` on end at `k`, none of them is left. -/
theorem removeStale_lookup (files : ∀ j, i ≤ j → ((dir.lookup j).isSome ↔ j ≤ k)) (short : k ≤ uintMax)
    (enough : k < i + fuel) : (removeStale fuel i dir).lookup j = if i ≤ j then none else dir.lookup j := by
  have missing : ∀ j, i ≤ j → k < j → dir.lookup j = none := fun j above behind =>
    Option.not_isSome_iff_eq_none.mp ((files j above).not.mpr (by omega))
  induction fuel generalizing i dir with
  | zero =>
    unfold removeStale
    split
    · rename_i above
      exact missing j above (by omega)
    · rfl
  | succ fuel ih =>
    by_cases present : (dir.lookup i).isSome
    · have inside := (files i le_rfl).mp present
      have left : ∀ j, i < j → (((AList.erase i dir).lookup j).isSome ↔ j ≤ k) := fun j above => by
        rw [Table.lookup_erase_eq, if_neg (by omega)]
        exact files j (by omega)
      have fewer : (removeStale fuel (saturatingAdd i 1) (AList.erase i dir)).lookup j =
          if i < j then none else (AList.erase i dir).lookup j := by
        rcases Nat.lt_or_ge i uintMax with below | last
        · have next : saturatingAdd i 1 = i + 1 := Nat.min_eq_left (by omega)
          rw [next]
          refine ih (fun j above => left j (by omega)) (by omega) fun j above behind => ?_
          exact Option.not_isSome_iff_eq_none.mp ((left j (by omega)).not.mpr (by omega))
        · have next : saturatingAdd i 1 = i := by unfold saturatingAdd; omega
          rw [next, removeStale_missing (AList.lookup_erase i dir)]
          split
          · rename_i above
            exact Option.not_isSome_iff_eq_none.mp ((left j above).not.mpr (by omega))
          · rfl
      rw [removeStale, if_pos present, fewer, Table.lookup_erase_eq]
      rcases Nat.lt_trichotomy i j with below | rfl | above
      · rw [if_pos below, if_pos (by omega)]
      · rw [if_neg (by omega), if_pos rfl, if_pos le_rfl]
      · rw [if_neg (by omega), if_neg (by omega), if_neg (by omega)]
    · rw [removeStale, if_neg present]
      split
      · rename_i above
        exact missing j above (by have := (files i le_rfl).not.mp present; omega)
      · rfl

theorem moveUp_lookup (gap : dir.lookup i = none → dir.lookup (i + 1) = none) :
    (moveUp i dir).lookup j = if j = i + 1 then dir.lookup i else if j = i then none else dir.lookup j := by
  unfold moveUp
  cases found : dir.lookup i with
  | some file => rw [Table.lookup_insert_eq, Table.lookup_erase_eq]
  | none =>
    dsimp only
    split
    · rename_i next
      rw [next, gap found]
    · split
      · rename_i here
        rw [here, found]
      · rfl

/-- Where no file stands behind a gap, each of the first `k` moves to the next number. -/
theorem shift_lookup (gap : ∀ i, 1 ≤ i → i ≤ k → dir.lookup i = none → dir.lookup (i + 1) = none) :
    (shift k dir).lookup j =
      if 2 ≤ j ∧ j ≤ k + 1 then dir.lookup (j - 1) else if j = 1 ∧ 1 ≤ k then none else dir.lookup j := by
  induction k generalizing dir with
  | zero => rw [shift, if_neg (by omega), if_neg (by omega)]
  | succ k ih =>
    have moved : ∀ j, (moveUp (k + 1) dir).lookup j =
        if j = k + 2 then dir.lookup (k + 1) else if j = k + 1 then none else dir.lookup j :=
      fun j => moveUp_lookup (gap (k + 1) (by omega) le_rfl)
    have gap' : ∀ i, 1 ≤ i → i ≤ k → (moveUp (k + 1) dir).lookup i = none →
        (moveUp (k + 1) dir).lookup (i + 1) = none := by
      intro i low high missing
      rw [moved, if_neg (by omega), if_neg (by omega)] at missing
      rw [moved, if_neg (by omega)]
      split
      · rfl
      · exact gap i low (by omega) missing
    rw [shift, ih gap', moved (j - 1), moved j]
    split_ifs <;> first | rfl | omega | (congr 1; omega)

theorem Holds.isSome (holds : Holds dir files) : (dir.lookup i).isSome ↔ 1 ≤ i ∧ i ≤ files.length := by
  rw [holds i]
  split
  · rename_i zero
    simp [zero]
  · rw [isSome_getElem?]
    omega

/-- There are as many entries as files. -/
theorem Holds.length (holds : Holds dir files) : dir.entries.length = files.length := by
  have keys : dir.entries.keys.Perm (List.range' 1 files.length) := by
    rw [List.perm_ext_iff_of_nodup dir.nodupKeys List.nodup_range']
    intro i
    change i ∈ dir ↔ _
    rw [List.mem_range'_1, ← AList.lookup_isSome, holds.isSome]
    omega
  simpa [List.keys] using keys.length_eq

/-- A rotation puts the file in front of the others, and keeps as many as it is to keep. -/
theorem Holds.rotate (holds : Holds dir files) (short : files.length ≤ uintMax) (kept : 1 ≤ keep)
    (small : keep ≤ uintMax) : Holds (rotate keep file dir) ((file :: files).take keep) := by
  have first : keep ≤ saturatingAdd keep 1 ∧ saturatingAdd keep 1 ≤ keep + 1 := by
    unfold saturatingAdd
    omega
  have left : ∀ j, (removeStale dir.entries.length (saturatingAdd keep 1) dir).lookup j =
      if saturatingAdd keep 1 ≤ j then none else dir.lookup j := by
    intro j
    refine removeStale_lookup (fun j above => ?_) short (by rw [holds.length]; omega)
    rw [holds.isSome]
    omega
  have gap : ∀ i, 1 ≤ i → i ≤ keep - 1 →
      (removeStale dir.entries.length (saturatingAdd keep 1) dir).lookup i = none →
      (removeStale dir.entries.length (saturatingAdd keep 1) dir).lookup (i + 1) = none := by
    intro i low high missing
    rw [left, if_neg (by omega)] at missing
    have absent := holds.isSome.not.mp (by rw [missing]; simp)
    rw [left]
    split
    · rfl
    · exact Option.not_isSome_iff_eq_none.mp (holds.isSome.not.mpr (by omega))
  intro j
  rw [Makana.rotate, Table.lookup_insert_eq, shift_lookup gap, left (j - 1), left j, holds (j - 1), holds j]
  rcases j with _ | _ | j
  · simp
  · simp [List.getElem?_take, Nat.pos_iff_ne_zero.mp kept]
  · simp only [List.getElem?_take, Nat.add_sub_cancel, List.getElem?_cons_succ]
    split_ifs <;> first | rfl | omega

/-- The files of a directory, read one after the other. -/
def linesOf (files : List Rotated) : List Line := files.reverse.flatMap Rotated.lines

theorem Holds.older (holds : Holds dir files) (present : k ≤ files.length) :
    Recording.older dir k = linesOf (files.take k) := by
  induction k with
  | zero => rfl
  | succ k ih =>
    have read : dir.lookup (k + 1) = some files[k] := by
      rw [holds, if_neg (by omega), Nat.add_sub_cancel, List.getElem?_eq_getElem]
    rw [Recording.older, ih (by omega), read, linesOf, linesOf, List.take_succ_eq_append_getElem present,
      List.reverse_append]
    rfl

/-- To drop the oldest files leaves a suffix of the lines. -/
theorem linesOf_take : linesOf (files.take keep) <:+ linesOf files := by
  refine ⟨linesOf (files.drop keep), ?_⟩
  rw [linesOf, linesOf, linesOf, ← List.flatMap_append, ← List.reverse_append, List.take_append_drop]

theorem linesOf_cons : linesOf (file :: files) = linesOf files ++ file.lines := by
  simp [linesOf]

end Directory

theorem fileSize_append (front back : List Line) : fileSize (front ++ back) = fileSize front + fileSize back := by
  simp [fileSize]

/-- What the runs keep true of the directory, whose rotated files are `files`. -/
structure Kept (s : Recording) (files : List Rotated) : Prop where
  holds : Holds s.rotated files
  short : files.length ≤ uintMax
  suffix : linesOf files ++ s.base <:+ s.written
  reached : ∀ file ∈ files, file.limit ≤ fileSize file.lines
  counted : ∀ r, s.recorder = some r → r.bytesWritten ≤ fileSize s.base
  keeps : ∀ r, s.recorder = some r → 1 ≤ r.keep ∧ r.keep ≤ uintMax

/-- `--record-keep` takes a number above 0, which a `usize` holds. -/
def KeepsOne : Recording → RecorderAction → Prop
  | _, .start _ keep => 1 ≤ keep ∧ keep ≤ uintMax
  | _, .write _ => True

instance : ∀ s a, Decidable (KeepsOne s a)
  | _, .start _ keep => inferInstanceAs (Decidable (1 ≤ keep ∧ keep ≤ uintMax))
  | _, .write _ => isTrue trivial

section Runs

variable {s t : Recording} {r : Recorder} {files : List Rotated} {json : Line} {limit : ℕ}

theorem Kept.contents (kept : Kept s files) : s.contents = linesOf files ++ s.base := by
  rw [Recording.contents, Recording.count, kept.holds.length, kept.holds.older le_rfl, List.take_length]

/-- A line counts for no more than its bytes. -/
theorem Recorder.count_le (counted : r.bytesWritten ≤ fileSize s.base) :
    (r.count json).bytesWritten ≤ fileSize (s.base ++ [json]) := by
  have line : fileSize [json] = json.length + 1 := by simp [fileSize]
  rw [fileSize_append, line]
  change saturatingAdd _ (saturatingAdd _ _) ≤ _
  unfold saturatingAdd
  omega

theorem Recorder.due_le (due : r.due = some limit) : limit ≤ r.bytesWritten := by
  obtain ⟨-, reached⟩ := Option.filter_eq_some_iff.mp due
  exact of_decide_eq_true reached

/-- A write that does not rotate lengthens the base file. -/
theorem Kept.append (kept : Kept s files) (running : s.recorder = some r) (due : (r.count json).due = none) :
    Kept (s.write r json) files := by
  have written : s.write r json =
      { s with base := s.base ++ [json], recorder := some (r.count json), written := s.written ++ [json] } := by
    simp only [Recording.write, due]
  rw [written]
  refine ⟨kept.holds, kept.short, ?_, kept.reached, ?_, ?_⟩
  · obtain ⟨before, whole⟩ := kept.suffix
    exact ⟨before, by rw [← whole]; simp⟩
  · rintro _ ⟨⟩
    exact Recorder.count_le (kept.counted r running)
  · rintro _ ⟨⟩
    exact kept.keeps r running

/-- A write that rotates makes the base file the newest of the rotated ones. -/
theorem Kept.rotate (kept : Kept s files) (running : s.recorder = some r) (due : (r.count json).due = some limit) :
    Kept (s.write r json) ((⟨s.base ++ [json], limit⟩ :: files).take r.keep) := by
  obtain ⟨positive, small⟩ := kept.keeps r running
  have written : s.write r json =
      { base := [], rotated := Makana.rotate r.keep ⟨s.base ++ [json], limit⟩ s.rotated,
        recorder := some { r.count json with bytesWritten := 0 }, written := s.written ++ [json] } := by
    simp only [Recording.write, due]
    rfl
  rw [written]
  refine ⟨kept.holds.rotate kept.short positive small, ?_, ?_, ?_, ?_, ?_⟩
  · rw [List.length_take]
    omega
  · rw [List.append_nil]
    refine linesOf_take.trans ?_
    rw [linesOf_cons, ← List.append_assoc]
    obtain ⟨before, whole⟩ := kept.suffix
    exact ⟨before, by rw [← whole]; simp⟩
  · intro file member
    rcases List.mem_cons.mp (List.mem_of_mem_take member) with rfl | old
    · exact le_trans (Recorder.due_le due) (Recorder.count_le (kept.counted r running))
    · exact kept.reached file old
  · rintro _ ⟨⟩
    exact Nat.zero_le _
  · rintro _ ⟨⟩
    exact ⟨positive, small⟩

theorem Kept.step {a : RecorderAction} (kept : Kept s files) (allowed : KeepsOne s a) (taken : recording.step s a = some t) :
    ∃ files, Kept t files := by
  cases a with
  | start rotateMb keep =>
    obtain rfl := Option.some.inj taken
    refine ⟨files, kept.holds, kept.short, kept.suffix, kept.reached, ?_, ?_⟩
    · rintro _ ⟨⟩
      exact Nat.zero_le _
    · rintro _ ⟨⟩
      exact allowed
  | write json =>
    obtain ⟨r, running, rfl⟩ := Option.map_eq_some_iff.mp taken
    cases due : (r.count json).due with
    | none => exact ⟨_, kept.append running due⟩
    | some limit => exact ⟨_, kept.rotate running due⟩

theorem kept_of_reaches (reached : recording.Reaches KeepsOne s) : ∃ files, Kept s files := by
  refine reached.invariant (fun s => ∃ files, Kept s files) ⟨[], ?_, ?_, ?_, ?_, ?_, ?_⟩ ?_
  · intro i
    simp [recording]
  · exact Nat.zero_le _
  · exact List.nil_suffix
  · rintro _ ⟨⟩
  · rintro _ ⟨⟩
  · rintro _ ⟨⟩
  · rintro s a t ⟨files, kept⟩ allowed taken
    exact kept.step allowed taken

/-- Over any runs that keep a file at least, the files are the last lines written, without a gap, each
rotated file had reached its limit, and a rotation leaves as many files as it may. -/
theorem rotation_keeps_suffix (reached : recording.Reaches KeepsOne s) :
    s.contents <:+ s.written ∧ (∀ i, (s.rotated.lookup i).isSome ↔ 1 ≤ i ∧ i ≤ s.count) ∧
      (∀ i file, s.rotated.lookup i = some file → file.limit ≤ fileSize file.lines) ∧
      ∀ r json limit, s.recorder = some r → (r.count json).due = some limit →
        (s.write r json).count = min r.keep (s.count + 1) := by
  obtain ⟨files, kept⟩ := kept_of_reaches reached
  refine ⟨?_, ?_, ?_, ?_⟩
  · rw [kept.contents]
    exact kept.suffix
  · intro i
    rw [kept.holds.isSome, Recording.count, kept.holds.length]
  · intro i file found
    rw [kept.holds i] at found
    split at found
    · cases found
    · exact kept.reached file (List.mem_of_getElem? found)
  · intro r json limit running due
    rw [Recording.count, Recording.count, (kept.rotate running due).holds.length, kept.holds.length, List.length_take,
      List.length_cons]

/-- After two files are rotated, a run that keeps one rotates a third. -/
theorem rotation_keeps_suffix_restarted :
    ∃ s, recording.Reaches KeepsOne s ∧ (s.count = 1 ∧ s.contents = [[3]] ∧ s.written = [[1], [2], [3]]) ∧
      s.contents <:+ s.written := by
  obtain ⟨s, reached, final⟩ := Machine.Reaches.of_trace recording KeepsOne
    [.start (some 0) 5, .write [1], .write [2], .start (some 0) 1, .write [3]]
    (fun s => s.count = 1 ∧ s.contents = [[3]] ∧ s.written = [[1], [2], [3]]) (by decide)
  exact ⟨s, reached, final, (rotation_keeps_suffix reached).1⟩

/-- A run that is to keep no file keeps one. -/
theorem rotation_keeps_suffix_fails :
    ¬ ∀ s, recording.Reachable s → ∀ r json limit, s.recorder = some r → (r.count json).due = some limit →
      (s.write r json).count = min r.keep (s.count + 1) := by
  intro exact
  obtain ⟨s, reached, running, one⟩ := Machine.Reachable.of_trace recording [.start (some 0) 0]
    (fun s => s.recorder = some (.new (some 0) 0) ∧ (s.write (.new (some 0) 0) [1]).count = 1) (by decide)
  have kept := exact s reached _ [1] 0 running rfl
  rw [one] at kept
  exact absurd kept (by simp [Recorder.new])

end Runs

end RndRust.Makana
