import RndRust.Irc.Proto.Util

/-! The optional origin token before the command, `prefix.rs`. A prefix is told
apart by the first `!`, the first `@` and the presence of a dot; which prefixes
survive being written and read again depends on where those bytes may stand. -/
namespace RndRust.Irc.Proto
open Lib

/-- `user` and `host` are present when the wire form had `!user` or `@host`. -/
inductive Prefix where
  | server (name : Bytes)
  | user (nick : Bytes) (user : Option Bytes) (host : Option Bytes)
  deriving DecidableEq, Repr

/-- The last arm of `classify`: neither split applies. -/
def classifyBare (raw : Bytes) : Prefix :=
  if raw.contains dot then .server raw else .user raw none none

/-- `classify`. An `@` before the first `!` falls to the last arm. -/
def classify (raw : Bytes) : Prefix :=
  match raw.findIdx? (· == bang), raw.findIdx? (· == atSign) with
  | some bi, some ai =>
    if bi < ai then
      .user (raw.take bi) (some ((raw.take ai).drop (bi + 1))) (some (raw.drop (ai + 1)))
    else classifyBare raw
  | some bi, none => .user (raw.take bi) (some (raw.drop (bi + 1))) none
  | none, some ai => .user (raw.take ai) none (some (raw.drop (ai + 1)))
  | none, none => classifyBare raw

/-- `parse_prefix` from the byte after the leading `:`. It stops on the space that
must separate the prefix from the command. -/
def parsePrefix (c : Cursor) : Except ParseError (Prefix × Cursor) :=
  match scan (· == sp) isForbidden c.pos c.rest with
  | .error i => .error (.forbidden i)
  | .ok (raw, left) =>
    if raw = [] then .error (.invalidPrefix c.pos)
    else .ok (classify raw, ⟨c.pos + raw.length, left⟩)

/-- The prefix without its leading `:` and trailing space. -/
def writeOrigin : Prefix → Bytes
  | .server name => name
  | .user nick user host =>
    nick ++ (match user with | some u => bang :: u | none => []) ++
      (match host with | some h => atSign :: h | none => [])

/-- `write_prefix`. -/
def writePrefix (p : Prefix) : Bytes := colon :: writeOrigin p ++ [sp]

/-- No byte of the token ends it early or is refused inside it. -/
def CleanToken (raw : Bytes) : Prop := ∀ b ∈ raw, b ≠ sp ∧ isForbidden b = false

/-- The separators a prefix is split on stand only where its form puts them. A
server name has a dot and no separator; a bare nick is told from a server name by
having no dot. -/
def Prefix.Shaped : Prefix → Prop
  | .server name => dot ∈ name ∧ bang ∉ name ∧ atSign ∉ name ∧ CleanToken name
  | .user nick ident host =>
    bang ∉ nick ∧ atSign ∉ nick ∧ (∀ u ∈ ident, atSign ∉ u) ∧
      (ident = none → host = none → nick ≠ [] ∧ dot ∉ nick)

/-- A user prefix in one token whose host, when it follows the nick directly,
brings no `!` in front of which the nick would be read to end. -/
def Prefix.Separable : Prefix → Prop
  | .server _ => True
  | .user nick ident host =>
    CleanToken nick ∧ (∀ u ∈ ident, CleanToken u) ∧ (∀ h ∈ host, CleanToken h) ∧
      (ident = none → ∀ h ∈ host, bang ∉ h)

instance (raw : Bytes) : Decidable (CleanToken raw) :=
  inferInstanceAs (Decidable (∀ b ∈ raw, b ≠ sp ∧ isForbidden b = false))

instance Prefix.decidableShaped : (p : Prefix) → Decidable p.Shaped
  | .server _ => inferInstanceAs (Decidable (_ ∧ _))
  | .user _ _ _ => inferInstanceAs (Decidable (_ ∧ _))

instance Prefix.decidableSeparable : (p : Prefix) → Decidable p.Separable
  | .server _ => inferInstanceAs (Decidable True)
  | .user _ _ _ => inferInstanceAs (Decidable (_ ∧ _))

theorem classifyBare_user {raw : Bytes} (noDot : dot ∉ raw) :
    classifyBare raw = .user raw none none := by
  simp [classifyBare, noDot]

theorem findIdx?_byte_none {raw : Bytes} {b : UInt8} (absent : b ∉ raw) :
    raw.findIdx? (· == b) = none := by
  rw [List.findIdx?_eq_none_iff]
  intro x member
  simpa using fun same : x = b => absent (same ▸ member)

theorem findIdx?_byte_some {before : Bytes} {b : UInt8} (after : Bytes) (absent : b ∉ before) :
    (before ++ b :: after).findIdx? (· == b) = some before.length :=
  findIdx?_append_hit (fun x member => by simpa using fun same : x = b => absent (same ▸ member))
    (by simp)

/-- Splitting a written origin finds the separators where the writer put them. -/
theorem classify_writeOrigin {p : Prefix} (shaped : p.Shaped) (separable : p.Separable) :
    classify (writeOrigin p) = p := by
  cases p with
  | server name =>
    obtain ⟨hasDot, noBang, noAt, -⟩ := shaped
    simp [classify, writeOrigin, findIdx?_byte_none noBang, findIdx?_byte_none noAt,
      classifyBare, hasDot]
  | user nick user host =>
    obtain ⟨nickNoBang, nickNoAt, userNoAt, bare⟩ := shaped
    obtain ⟨-, -, -, hostNoBang⟩ := separable
    cases user with
    | none =>
      cases host with
      | none =>
        simp [classify, writeOrigin, findIdx?_byte_none nickNoBang, findIdx?_byte_none nickNoAt,
          classifyBare_user (bare rfl rfl).2]
      | some h =>
        have noBang : bang ∉ nick ++ atSign :: h := by
          simp [nickNoBang, hostNoBang rfl h rfl, bang, atSign]
        simp [classify, writeOrigin, findIdx?_byte_none noBang, findIdx?_byte_some _ nickNoAt]
    | some u =>
      have noAt : atSign ∉ nick ++ bang :: u := by
        simp [nickNoAt, userNoAt u rfl, bang, atSign]
      cases host with
      | none =>
        simp [classify, writeOrigin, findIdx?_byte_none noAt, findIdx?_byte_some _ nickNoBang]
      | some h =>
        have atFound := findIdx?_byte_some h noAt
        have bangFound := findIdx?_byte_some (u ++ atSign :: h) nickNoBang
        simp only [List.append_assoc, List.cons_append] at atFound bangFound
        simp only [classify, writeOrigin, List.append_assoc, List.cons_append, atFound, bangFound]
        rw [if_pos (by simp)]
        congr 2
        · simp
        · have : nick ++ bang :: (u ++ atSign :: h) = (nick ++ bang :: u) ++ atSign :: h := by simp
          rw [this, List.take_left]
          simp
        · have : nick ++ bang :: (u ++ atSign :: h) = (nick ++ bang :: u ++ [atSign]) ++ h := by simp
          rw [this, List.drop_left' (by simp [Nat.add_assoc])]

theorem writeOrigin_ne_nil {p : Prefix} (shaped : p.Shaped) : writeOrigin p ≠ [] := by
  cases p with
  | server name =>
    rintro empty
    have hasDot := shaped.1
    simp only [writeOrigin] at empty
    simp [empty] at hasDot
  | user nick user host =>
    cases user with
    | some u => simp [writeOrigin]
    | none =>
      cases host with
      | some h => simp [writeOrigin]
      | none => simpa [writeOrigin] using (shaped.2.2.2 rfl rfl).1

theorem writeOrigin_clean {p : Prefix} (shaped : p.Shaped) (separable : p.Separable) :
    CleanToken (writeOrigin p) := by
  cases p with
  | server name => exact shaped.2.2.2
  | user nick user host =>
    obtain ⟨nickClean, userClean, hostClean, -⟩ := separable
    have bangClean : bang ≠ sp ∧ isForbidden bang = false := by decide
    have atClean : atSign ≠ sp ∧ isForbidden atSign = false := by decide
    intro b member
    simp only [writeOrigin, List.mem_append] at member
    rcases member with (inNick | inUser) | inHost
    · exact nickClean b inNick
    · cases user with
      | none => simp at inUser
      | some u =>
        rcases List.mem_cons.mp inUser with rfl | inUser
        · exact bangClean
        · exact userClean u rfl b inUser
    · cases host with
      | none => simp at inHost
      | some h =>
        rcases List.mem_cons.mp inHost with rfl | inHost
        · exact atClean
        · exact hostClean h rfl b inHost

/-- A written prefix is read back, up to the space after it. -/
theorem parsePrefix_write {p : Prefix} (pos : ℕ) (left : Bytes) (shaped : p.Shaped)
    (separable : p.Separable) :
    parsePrefix ⟨pos, writeOrigin p ++ sp :: left⟩ =
      .ok (p, ⟨pos + (writeOrigin p).length, sp :: left⟩) := by
  have clean := writeOrigin_clean shaped separable
  have run : scan (· == sp) isForbidden pos (writeOrigin p ++ sp :: left) =
      .ok (writeOrigin p, sp :: left) :=
    scan_append (fun b member => ⟨by simpa using (clean b member).1, (clean b member).2⟩) (by simp)
  simp [parsePrefix, run, writeOrigin_ne_nil shaped, classify_writeOrigin shaped separable]

theorem CleanToken.of_subset {raw part : Bytes} (clean : CleanToken raw) (sub : part ⊆ raw) :
    CleanToken part := fun b member => clean b (sub member)

/-- Whatever a clean token is split into can be told apart again. -/
theorem classify_separable {raw : Bytes} (clean : CleanToken raw) : (classify raw).Separable := by
  have taken := fun n => clean.of_subset (List.take_subset n raw)
  have dropped := fun n => clean.of_subset (List.drop_subset n raw)
  have bare : (classifyBare raw).Separable := by
    unfold classifyBare
    split
    · trivial
    · exact ⟨clean, by simp, by simp, by simp⟩
  unfold classify
  split
  · split
    · exact ⟨taken _, by simpa using (taken _).of_subset (List.drop_subset _ _),
        by simpa using dropped _, by simp⟩
    · exact bare
  · exact ⟨taken _, by simpa using dropped _, by simp, by simp⟩
  · rename_i noBang _
    refine ⟨taken _, by simp, by simpa using dropped _, fun _ h chosen member => ?_⟩
    cases Option.some.inj chosen
    have := List.findIdx?_eq_none_iff.mp noBang bang (List.drop_subset _ _ member)
    simp at this
  · exact bare

/-- Every prefix the parser returns is separable. -/
theorem parsePrefix_separable {c after : Cursor} {p : Prefix}
    (read : parsePrefix c = .ok (p, after)) : p.Separable := by
  unfold parsePrefix at read
  split at read
  · simp at read
  · rename_i raw left run
    split at read
    · simp at read
    · cases read
      obtain ⟨-, admitted, -⟩ := scan_ok run
      exact classify_separable fun b member => by simpa using admitted b member

theorem writePrefix_no_lf {p : Prefix} (shaped : p.Shaped) (separable : p.Separable) :
    lf ∉ writePrefix p := by
  have clean : lf ∉ writeOrigin p := fun member =>
    absurd (writeOrigin_clean shaped separable lf member).2 (by decide)
  simpa [writePrefix, colon, sp, lf] using clean

end RndRust.Irc.Proto
