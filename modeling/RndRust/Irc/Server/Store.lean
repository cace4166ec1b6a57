import RndRust.Irc.Server.Account

/-! The account store, `store.rs`: the SQLite table, the vector that the tests use in its place, and what the
handlers ask of either. -/
namespace RndRust.Irc.Server
open Lib Proto

/-- A row of the table `accounts`, and `InMemoryRow` in the store of the tests. -/
structure StoredRow extends AccountRow where
  email : Bytes
  certFingerprint : Option Bytes := none
  verifyToken : Option Bytes
  deriving DecidableEq, Repr

/-- What an INSERT of `account_create` stores: the columns it leaves out take their defaults. -/
def StoredRow.new (name email passwordHash verifyToken : Bytes) : StoredRow :=
  { name, email, passwordHash, verified := false, verifyToken := some verifyToken }

/-- The row once its account is verified. -/
def StoredRow.verify (row : StoredRow) : StoredRow := { row with verified := true, verifyToken := none }

/-- An account waits to be verified with a token. -/
def StoredRow.awaits (row : StoredRow) (name token : Bytes) : Bool :=
  row.name = name ∧ ¬row.verified ∧ row.verifyToken = some token

/-- A call of the trait `Store`. -/
inductive Question where
  | accountCreate (name email passwordHash verifyToken : Bytes)
  | accountVerify (name token : Bytes)
  | accountGet (name : Bytes)
  | accountByFingerprint (fp : Bytes)
  deriving DecidableEq, Repr

/-- What a call returns. -/
inductive Answer where
  | created (result : Except StoreError Unit)
  | verified (result : Bool)
  | account (found : Option AccountRow)
  deriving DecidableEq, Repr

/-- `SqliteStore`: the statements it sends, each on the whole table. -/
def SqliteStore.answer (rows : List StoredRow) : Question → List StoredRow × Answer
  | .accountCreate name email passwordHash verifyToken =>
    -- `name` is the primary key.
    if rows.any (·.name = name) then (rows, .created (.error .alreadyExists))
    else (rows ++ [.new name email passwordHash verifyToken], .created (.ok ()))
  | .accountVerify name token =>
    (rows.map fun row => if row.awaits name token then row.verify else row,
      .verified (0 < (rows.filter (·.awaits name token)).length))
  | .accountGet name => (rows, .account ((rows.filter (·.name = name)).head?.map (·.toAccountRow)))
  | .accountByFingerprint fp =>
    (rows, .account ((rows.filter (·.certFingerprint = some fp)).head?.map (·.toAccountRow)))

namespace InMemoryStore

/-- The loop of `account_verify`, which stops at the first row that waits. -/
def verifyFirst (name token : Bytes) : List StoredRow → List StoredRow × Bool
  | [] => ([], false)
  | row :: rest =>
    if row.awaits name token then (row.verify :: rest, true)
    else
      let (rest, found) := verifyFirst name token rest
      (row :: rest, found)

/-- `InMemoryStore`. -/
def answer (rows : List StoredRow) : Question → List StoredRow × Answer
  | .accountCreate name email passwordHash verifyToken =>
    if rows.any (·.name = name) then (rows, .created (.error .alreadyExists))
    else (rows ++ [.new name email passwordHash verifyToken], .created (.ok ()))
  | .accountVerify name token =>
    let (rows, found) := verifyFirst name token rows
    (rows, .verified found)
  | .accountGet name => (rows, .account ((rows.find? (·.name = name)).map (·.toAccountRow)))
  | .accountByFingerprint fp => (rows, .account ((rows.find? (·.certFingerprint = some fp)).map (·.toAccountRow)))

end InMemoryStore

/-- The answers to one call after the other. -/
def answers (answer : List StoredRow → Question → List StoredRow × Answer) :
    List StoredRow → List Question → List Answer
  | _, [] => []
  | rows, q :: more => (answer rows q).2 :: answers answer (answer rows q).1 more

/-- What every store keeps: one row a name, and no certificates. -/
structure Filed (rows : List StoredRow) : Prop where
  names : (rows.map (·.name)).Nodup
  uncertified : ∀ row ∈ rows, row.certFingerprint = none

section Stores

variable {rows : List StoredRow} {name token : Bytes} {q : Question}

/-- Of the rows of a table, one at most waits for a token of a name. -/
theorem verifyFirst_eq (names : (rows.map (·.name)).Nodup) : InMemoryStore.verifyFirst name token rows =
    (rows.map fun row => if row.awaits name token then row.verify else row,
      decide (0 < (rows.filter (·.awaits name token)).length)) := by
  induction rows with
  | nil => rfl
  | cons row rest ih =>
    obtain ⟨other, names⟩ := List.nodup_cons.mp names
    rw [InMemoryStore.verifyFirst]
    by_cases waits : row.awaits name token
    · have named : row.name = name := by
        simp only [StoredRow.awaits, decide_eq_true_eq] at waits
        exact waits.1
      have rest_same : ∀ r ∈ rest, ¬r.awaits name token := by
        intro r listed also
        simp only [StoredRow.awaits, decide_eq_true_eq] at also
        exact other (List.mem_map.mpr ⟨r, listed, also.1.trans named.symm⟩)
      have unchanged : rest.map (fun row => if row.awaits name token then row.verify else row) = rest :=
        (List.map_congr_left fun r listed => if_neg (rest_same r listed)).trans (List.map_id rest)
      simp [waits, unchanged]
    · simp [waits, ih names]

/-- On the rows of a table both stores do the same. -/
theorem answer_eq (filed : Filed rows) : InMemoryStore.answer rows q = SqliteStore.answer rows q := by
  cases q with
  | accountCreate => rfl
  | accountVerify name token => rw [InMemoryStore.answer, verifyFirst_eq filed.names, SqliteStore.answer]
  | accountGet | accountByFingerprint => simp only [InMemoryStore.answer, SqliteStore.answer, List.head?_filter]

theorem map_verify_names : (rows.map fun row => if row.awaits name token then row.verify else row).map (·.name) =
    rows.map (·.name) := by
  rw [List.map_map]
  refine List.map_congr_left fun row _ => ?_
  simp only [Function.comp_apply]
  split <;> rfl

/-- Every call leaves a table. -/
theorem Filed.answer (filed : Filed rows) : Filed (SqliteStore.answer rows q).1 := by
  cases q with
  | accountCreate name email passwordHash verifyToken =>
    rw [SqliteStore.answer]
    split
    · exact filed
    · rename_i new
      simp only [List.any_eq_true, decide_eq_true_eq, not_exists, not_and] at new
      constructor
      · rw [List.map_append, List.map_singleton, List.nodup_append]
        refine ⟨filed.names, List.nodup_singleton _, fun other listed mine found same => ?_⟩
        obtain ⟨row, stored, rfl⟩ := List.mem_map.mp listed
        exact new row stored (same.trans (List.mem_singleton.mp found))
      · intro row listed
        rcases List.mem_append.mp listed with old | created
        · exact filed.uncertified row old
        · rw [List.mem_singleton.mp created]
          rfl
  | accountVerify name token =>
    constructor
    · rw [SqliteStore.answer, map_verify_names]
      exact filed.names
    · intro row listed
      obtain ⟨old, stored, rfl⟩ := List.mem_map.mp listed
      split <;> exact filed.uncertified old stored
  | accountGet | accountByFingerprint => exact filed

theorem answers_eq (filed : Filed rows) (questions : List Question) :
    answers InMemoryStore.answer rows questions = answers SqliteStore.answer rows questions := by
  induction questions generalizing rows with
  | nil => rfl
  | cons q more ih => rw [answers, answers, answer_eq filed, ih filed.answer]

/-- The store of the tests answers every sequence of calls as the SQLite store does. -/
theorem stores_agree (questions : List Question) :
    answers InMemoryStore.answer [] questions = answers SqliteStore.answer [] questions :=
  answers_eq ⟨by simp, by simp⟩ questions

end Stores

end RndRust.Irc.Server
