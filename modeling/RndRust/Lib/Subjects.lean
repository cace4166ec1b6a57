import Mathlib.Data.List.Basic

/-! Subjects of a message broker: tokens with dots between them, none of them empty. A pattern
covers a subject token by token, and `*` stands for any one. -/
namespace RndRust.Lib

/-- The tokens of a subject or of a pattern. -/
def tokens (subject : String) : List (List Char) := subject.toList.splitOn '.'

/-- An empty token is no token: nothing covers it, the same text included. -/
def coversToken (pattern token : List Char) : Bool := !token.isEmpty && (pattern == ['*'] || pattern == token)

def coversTokens : List (List Char) → List (List Char) → Bool
  | [], [] => true
  | pattern :: patterns, token :: subject => coversToken pattern token && coversTokens patterns subject
  | _, _ => false

/-- A message on the subject goes to the subscriptions of the pattern. -/
def covers (pattern subject : String) : Bool := coversTokens (tokens pattern) (tokens subject)

/-- Text that stays one token of a subject it is put into. -/
def oneToken (text : String) : Bool := !text.toList.isEmpty && !text.toList.contains '.'

variable {head text : String}

/-- What follows a head and a dot are tokens of their own. -/
theorem tokens_append (single : '.' ∉ head.toList) :
    tokens (head ++ "." ++ text) = head.toList :: tokens text := by
  have dotted : (head ++ "." ++ text).toList = head.toList ++ '.' :: text.toList := by simp
  rw [tokens, tokens, dotted, List.splitOn_append_cons_self_of_not_mem single]

theorem tokens_single (single : '.' ∉ text.toList) : tokens text = [text.toList] :=
  List.splitOn_eq_singleton single

/-- One token is left of text without a dot, and of no other. -/
theorem coversTokens_star : coversTokens [['*']] (tokens text) = oneToken text := by
  by_cases single : '.' ∈ text.toList
  · obtain ⟨before, after, split⟩ := List.append_of_mem single
    have several : tokens text = before.splitOn '.' ++ after.splitOn '.' := by
      rw [tokens, split, List.splitOn_append_cons_self]
    obtain ⟨first, firsts, left⟩ := List.exists_cons_of_ne_nil (List.splitOn_ne_nil '.' before)
    obtain ⟨next, more, right⟩ := List.exists_cons_of_ne_nil (List.splitOn_ne_nil '.' after)
    rw [several, left, right, List.cons_append]
    cases firsts <;> simp [coversTokens, oneToken, single]
  · rw [tokens_single single]
    simp [coversTokens, coversToken, oneToken, single]

/-- **Text put behind a head** is covered by the head's `*` if and only if it is one token. -/
theorem covers_star (head text : String) (single : '.' ∉ head.toList) (named : head.toList ≠ []) :
    covers (head ++ "." ++ "*") (head ++ "." ++ text) = oneToken text := by
  have star : tokens "*" = [['*']] := rfl
  rw [covers, tokens_append single, tokens_append single, star, coversTokens, coversTokens_star]
  simp [coversToken, named]

end RndRust.Lib
