import Mathlib.Data.List.Infix
import RndRust.Lib.Runs
import RndRust.Lib.Updates

/-! Logging in: `login_user_nonce` and `login_user` of `auth.rs`. The server stores a challenge
for an address and takes the message it verifies a signature of from the client. An action is
one database statement or the answer of the verifying worker; generated ids are new. -/
namespace RndRust.VolumeMaker
open Lib

inductive Chain where
  | solana
  | evm
  deriving DecidableEq

def isHexDigit (c : Char) : Bool := c.isDigit || ('a' ≤ c && c ≤ 'f') || ('A' ≤ c && c ≤ 'F')

def validateEvmAddress (address : String) : Option String :=
  if "0x".toList <+: address.toList ∧ address.utf8ByteSize = 42 ∧ (address.toList.drop 2).all isHexDigit then
    some address
  else none

/-- The base-58 decoder says which addresses are those of Solana. -/
def validateAddress (isSolana : String → Bool) (address : String) : Option (String × Chain) :=
  if "0x".toList <+: address.toList then (validateEvmAddress address).map (·, .evm)
  else if isSolana address then some (address, .solana)
  else none

structure User where
  id : ℤ
  groupId : ℤ
  address : String
  nonce : String
  whitelisted : Bool
  deriving DecidableEq

structure LoginPayload where
  address : String
  nonce : String
  signedNonce : String
  deriving DecidableEq

/-- What a token says, and of which login it is: the message that was signed and the nonce that
its own update replaced. -/
structure Token where
  id : ℤ
  address : String
  whitelisted : Bool
  groupId : ℤ
  message : String
  stored : Option String
  deriving DecidableEq

/-- A request, by what it has done. -/
inductive AuthRequest where
  | nonce (address : String)
  /-- The user is there, and the challenge is not stored yet. -/
  | challenge (address : String)
  | login (payload : LoginPayload)
  /-- The user was read, and the worker has not answered. -/
  | verifying (payload : LoginPayload) (user : User) (chain : Chain)
  | verified (payload : LoginPayload) (user : User)
  | answered
  deriving DecidableEq

structure Auth where
  users : String → Option User := fun _ => none
  /-- What the holders of keys have signed: an address, a message and the signature. -/
  signed : List (String × String × String) := []
  requests : List AuthRequest := []
  tokens : List Token := []
  /-- The ids that were generated. -/
  generated : List String := []

inductive AuthAction where
  /-- An administrator adds a user. -/
  | addUser (id groupId : ℤ) (address : String) (whitelisted : Bool) (nonce : String)
  | sign (address message signature : String)
  | loginUserNonce (address : String)
  | loginUser (payload : LoginPayload)
  /-- A handler reads the user. -/
  | lookup (request : ℕ)
  | challenge (request : ℕ) (id : String)
  /-- The worker answers, or nobody does in time. -/
  | verify (request : ℕ) (answered : Bool)
  /-- The nonce is replaced, and the token encoded. -/
  | replace (request : ℕ) (id : String) (encoded : Bool)

namespace Auth

variable (s : Auth)

def answer (i : ℕ) (request : AuthRequest) : Auth := { s with requests := s.requests.set i request }

/-- `update_user_nonce`. -/
def updateUserNonce (address id : String) : Auth :=
  { s with
    users := Function.update s.users address ((s.users address).map fun user => { user with nonce := id })
    generated := s.generated ++ [id] }

/-- `spawn_verify_signature`; no worker listens for the other chain. -/
def verifySignature (payload : LoginPayload) : Chain → Bool
  | .solana => (payload.address, payload.nonce, payload.signedNonce) ∈ s.signed
  | .evm => false

def step (isSolana : String → Bool) (s : Auth) : AuthAction → Option Auth
  | .addUser id groupId address whitelisted nonce =>
    if s.users address = none ∧ nonce ∉ s.generated then
      some { s with
        users := Function.update s.users address (some { id, groupId, address, nonce, whitelisted })
        generated := s.generated ++ [nonce] }
    else none
  | .sign address message signature => some { s with signed := s.signed ++ [(address, message, signature)] }
  | .loginUserNonce address =>
    some { s with requests := s.requests ++
      [if (validateAddress isSolana address).isSome then .nonce address else .answered] }
  | .loginUser payload =>
    some { s with requests := s.requests ++
      [if (validateAddress isSolana payload.address).isSome then .login payload else .answered] }
  | .lookup i => do
    match ← s.requests[i]? with
    | .nonce address => some (s.answer i (if (s.users address).isSome then .challenge address else .answered))
    | .login payload =>
      match s.users payload.address, validateAddress isSolana payload.address with
      | some user, some (_, chain) =>
        some (s.answer i (if user.whitelisted then .verifying payload user chain else .answered))
      | _, _ => some (s.answer i .answered)
    | _ => none
  | .challenge i id => do
    match ← s.requests[i]? with
    | .challenge address =>
      if id ∉ s.generated then some ((s.updateUserNonce address id).answer i .answered) else none
    | _ => none
  | .verify i answered => do
    match ← s.requests[i]? with
    | .verifying payload user chain =>
      some (s.answer i (if answered && s.verifySignature payload chain then .verified payload user else .answered))
    | _ => none
  | .replace i id encoded => do
    match ← s.requests[i]? with
    | .verified payload user =>
      if id ∉ s.generated then
        let token : Token := {
          id := user.id
          address := user.address
          whitelisted := user.whitelisted
          groupId := user.groupId
          message := payload.nonce
          stored := (s.users payload.address).map (·.nonce)
        }
        let replaced := (s.updateUserNonce payload.address id).answer i .answered
        some { replaced with tokens := s.tokens ++ if encoded then [token] else [] }
      else none
    | _ => none

end Auth

/-- The server with an empty database. -/
def auth (isSolana : String → Bool) : Machine Auth AuthAction where
  initial := {}
  step := Auth.step isSolana

namespace Auth

/-- Every token is for the nonce that was stored, and no two are for one nonce. -/
structure Challenged (s : Auth) : Prop where
  bound : ∀ token ∈ s.tokens, token.stored = some token.message
  once : (s.tokens.map (·.message)).Nodup

/-- The condition: a message whose signature verifies is the nonce of the user that was read,
and that nonce is still stored when the login replaces it. -/
def compares (s : Auth) : AuthAction → Bool
  | .verify i answered =>
    match s.requests[i]? with
    | some (.verifying payload user chain) =>
      !(answered && s.verifySignature payload chain) || payload.nonce = user.nonce
    | _ => true
  | .replace i _ encoded =>
    match s.requests[i]? with
    | some (.verified payload user) => !encoded || (s.users payload.address).any (·.nonce = user.nonce)
    | _ => true
  | _ => true

/-- What a login has verified is the nonce it has read. -/
def Matching : AuthRequest → Prop
  | .verified payload user => payload.nonce = user.nonce
  | _ => True

/-- A nonce is stored for one user, until a login replaces it. -/
structure Fresh (s : Auth) : Prop where
  generated : ∀ address user, s.users address = some user → user.nonce ∈ s.generated
  distinct : ∀ address other user user', s.users address = some user → s.users other = some user' →
    user.nonce = user'.nonce → address = other
  spent : ∀ token ∈ s.tokens, token.message ∈ s.generated
  gone : ∀ token ∈ s.tokens, ∀ address user, s.users address = some user → user.nonce ≠ token.message
  matching : ∀ r ∈ s.requests, Matching r
  challenged : Challenged s

section Steps

variable {s t : Auth} {i : ℕ} {address id : String} {request : AuthRequest}

/-- The users, the tokens and the ids are as before. -/
theorem Fresh.answers {requests : List AuthRequest} (signed : List (String × String × String)) (fresh : Fresh s)
    (matching : ∀ r ∈ requests, r ∈ s.requests ∨ Matching r) :
    Fresh { s with requests, signed } := by
  refine { fresh with matching := fun r member => ?_, challenged := ⟨fresh.challenged.bound, fresh.challenged.once⟩ }
  exact (matching r member).elim (fresh.matching r) fun own => own

theorem Fresh.answer (fresh : Fresh s) (own : Matching request) : Fresh (s.answer i request) := by
  apply fresh.answers s.signed
  intro r member
  rcases List.mem_or_eq_of_mem_set member with before | rfl
  · exact .inl before
  · exact .inr own

theorem Fresh.receive (fresh : Fresh s) (own : Matching request) :
    Fresh { s with requests := s.requests ++ [request] } := by
  apply fresh.answers s.signed
  intro r member
  rcases List.mem_append.mp member with before | new
  · exact .inl before
  · rw [List.mem_singleton.mp new]
    exact .inr own

/-- A user gets a nonce that was never generated. -/
theorem Fresh.store {users : String → Option User} (fresh : Fresh s) (new : id ∉ s.generated)
    (others : ∀ other, other ≠ address → users other = s.users other)
    (own : ∀ user, users address = some user → user.nonce = id) :
    Fresh { s with users, generated := s.generated ++ [id] } := by
  have cases' : ∀ other user, users other = some user →
      (other ≠ address ∧ s.users other = some user) ∨ (other = address ∧ user.nonce = id) := by
    intro other user found
    by_cases same : other = address
    · subst same
      exact .inr ⟨rfl, own user found⟩
    · exact .inl ⟨same, others other same ▸ found⟩
  have old : ∀ other user, s.users other = some user → user.nonce ≠ id := by
    rintro other user found rfl
    exact new (fresh.generated other user found)
  constructor
  · intro other user found
    rcases cases' other user found with ⟨-, found⟩ | ⟨-, rfl⟩
    · exact List.mem_append_left _ (fresh.generated other user found)
    · exact List.mem_append_right _ (List.mem_singleton_self _)
  · intro one other user user' found found' same
    rcases cases' one user found with ⟨-, found⟩ | ⟨rfl, here⟩
    · rcases cases' other user' found' with ⟨-, found'⟩ | ⟨rfl, here⟩
      · exact fresh.distinct one other user user' found found' same
      · exact absurd (same.trans here) (old one user found)
    · rcases cases' other user' found' with ⟨-, found'⟩ | ⟨rfl, -⟩
      · exact absurd (same.symm.trans here) (old other user' found')
      · rfl
  · exact fun token member => List.mem_append_left _ (fresh.spent token member)
  · intro token member other user found
    rcases cases' other user found with ⟨-, found⟩ | ⟨-, rfl⟩
    · exact fresh.gone token member other user found
    · rintro same
      exact new (same ▸ fresh.spent token member)
  · exact fresh.matching
  · exact ⟨fresh.challenged.bound, fresh.challenged.once⟩

theorem Fresh.updateUserNonce (address : String) (fresh : Fresh s) (new : id ∉ s.generated) :
    Fresh (s.updateUserNonce address id) := by
  apply fresh.store new
  · exact fun other different => Function.update_of_ne different _ _
  · intro user found
    rw [Function.update_self] at found
    obtain ⟨before, -, rfl⟩ := Option.map_eq_some_iff.mp found
    rfl

/-- The token of a login whose nonce was stored, once the nonce is replaced. -/
theorem Fresh.issue {user : User} {token : Token} (fresh : Fresh s) (new : id ∉ s.generated)
    (found : s.users address = some user) (message : user.nonce = token.message)
    (stored : token.stored = some token.message) :
    Fresh { s.updateUserNonce address id with tokens := s.tokens ++ [token] } := by
  have updated := fresh.updateUserNonce address new
  have before : ∀ old ∈ s.tokens, old.message ≠ token.message := by
    intro old member same
    exact fresh.gone old member address user found (message.trans same.symm)
  refine { updated with spent := ?_, gone := ?_, challenged := ⟨?_, ?_⟩ }
  · intro old member
    rcases List.mem_append.mp member with member | same
    · exact updated.spent old member
    · rw [List.mem_singleton.mp same, ← message]
      exact List.mem_append_left _ (fresh.generated address user found)
  · intro old member other user' found'
    rcases List.mem_append.mp member with member | same
    · exact updated.gone old member other user' found'
    · rw [List.mem_singleton.mp same, ← message]
      -- What the address holds is new, and nobody else holds what it held.
      by_cases here : other = address
      · subst here
        simp only [Auth.updateUserNonce, Function.update_self] at found'
        obtain ⟨_, -, rfl⟩ := Option.map_eq_some_iff.mp found'
        rintro rfl
        exact new (fresh.generated other user found)
      · simp only [Auth.updateUserNonce, Function.update_of_ne here] at found'
        intro same
        exact here (fresh.distinct other address user' user found' found same)
  · intro old member
    rcases List.mem_append.mp member with member | same
    · exact fresh.challenged.bound old member
    · rw [List.mem_singleton.mp same]
      exact stored
  · rw [List.map_append, List.nodup_append]
    refine ⟨fresh.challenged.once, by simp, ?_⟩
    intro one listed other only
    obtain ⟨old, member, rfl⟩ := List.mem_map.mp listed
    rw [List.mem_singleton.mp only]
    exact before old member

theorem Fresh.replace {payload : LoginPayload} {user : User} {encoded : Bool} (fresh : Fresh s)
    (known : s.requests[i]? = some (.verified payload user)) (new : id ∉ s.generated) {token : Token}
    (message : token.message = payload.nonce) (stored : token.stored = (s.users payload.address).map (·.nonce))
    (allowed : s.compares (.replace i id encoded)) :
    Fresh { (s.updateUserNonce payload.address id).answer i .answered with
      tokens := s.tokens ++ if encoded then [token] else [] } := by
  have read : payload.nonce = user.nonce := fresh.matching _ (List.mem_of_getElem? known)
  cases encoded with
  | false =>
    simp only [Bool.false_eq_true, if_false, List.append_nil]
    exact (fresh.updateUserNonce _ new).answer trivial
  | true =>
    simp only [compares, known, Bool.not_true, Bool.false_or, Option.any_eq_true, decide_eq_true_eq] at allowed
    obtain ⟨now, found, same⟩ := allowed
    have own : now.nonce = token.message := by rw [same, message, read]
    have issued := fresh.issue new found own (by rw [stored, found, Option.map_some, own])
    simp only [if_true]
    exact issued.answer trivial

theorem Fresh.step {isSolana : String → Bool} {a : AuthAction} (fresh : Fresh s) (allowed : s.compares a)
    (taken : s.step isSolana a = some t) : Fresh t := by
  cases a with
  | addUser id groupId address whitelisted nonce =>
    obtain ⟨⟨missing, new⟩, taken⟩ := Option.ite_none_right_eq_some.mp taken
    cases taken
    apply fresh.store new
    · exact fun other different => Function.update_of_ne different _ _
    · intro user found
      rw [Function.update_self] at found
      cases found
      rfl
  | sign address message signature =>
    cases taken
    exact fresh.answers _ fun _ => .inl
  | loginUserNonce address =>
    cases taken
    apply fresh.receive
    split <;> trivial
  | loginUser payload =>
    cases taken
    apply fresh.receive
    split <;> trivial
  | lookup i =>
    obtain ⟨request, -, taken⟩ := Option.bind_eq_some_iff.mp taken
    split at taken
    · cases taken
      apply fresh.answer
      split <;> trivial
    · split at taken
      · cases taken
        apply fresh.answer
        split <;> trivial
      · cases taken
        exact fresh.answer trivial
    · cases taken
  | challenge i id =>
    obtain ⟨request, -, taken⟩ := Option.bind_eq_some_iff.mp taken
    split at taken
    · obtain ⟨new, taken⟩ := Option.ite_none_right_eq_some.mp taken
      cases taken
      exact (fresh.updateUserNonce _ new).answer trivial
    · cases taken
  | verify i answered =>
    obtain ⟨request, known, taken⟩ := Option.bind_eq_some_iff.mp taken
    split at taken
    · rename_i payload user chain
      cases taken
      apply fresh.answer
      split
      · rename_i passes
        have same : payload.nonce = user.nonce := by simpa [compares, known, passes] using allowed
        exact same
      · trivial
    · cases taken
  | replace i id encoded =>
    obtain ⟨request, known, taken⟩ := Option.bind_eq_some_iff.mp taken
    split at taken
    · obtain ⟨new, taken⟩ := Option.ite_none_right_eq_some.mp taken
      cases taken
      exact fresh.replace known new rfl rfl allowed
    · cases taken

end Steps

end Auth

section Runs

variable {isSolana : String → Bool} {s : Auth}

/-- **A login is for the challenge that is stored, and once**, when the message is compared
with it and it has not been replaced since. -/
theorem challenged (reached : (auth isSolana).Reaches (fun s a => s.compares a) s) : s.Challenged := by
  have fresh : s.Fresh := by
    refine reached.invariant Auth.Fresh ?_ fun _ _ _ fresh allowed taken => fresh.step allowed taken
    exact ⟨by simp [auth], by simp [auth], by simp [auth], by simp [auth], by simp [auth],
      ⟨by simp [auth], by simp [auth]⟩⟩
  exact fresh.challenged

end Runs

section Examples

/-- The only address of Solana that is used here. -/
def wallet : String := "So11111111111111111111111111111111111111112"

/-- The user is added with a nonce and asks for a challenge. -/
def asked : List AuthAction :=
  [.addUser 1 1 wallet true "initial", .loginUserNonce wallet, .lookup 0, .challenge 0 "first",
    .sign wallet "first" "signature"]

/-- A login with the signed challenge, up to the statement that replaces the nonce. -/
def logsIn (i : ℕ) : List AuthAction :=
  [.loginUser ⟨wallet, "first", "signature"⟩, .lookup i, .verify i true]

theorem challenged_wallet : ∃ s, (auth (· = wallet)).Reaches (fun s a => s.compares a) s ∧ s.tokens.length = 1 ∧
    s.Challenged := by
  obtain ⟨s, reached, one⟩ := Machine.Reaches.of_trace (auth (· = wallet)) (fun s a => s.compares a)
    (asked ++ logsIn 1 ++ [.replace 1 "second" true]) (·.tokens.length = 1) (by decide)
  exact ⟨s, reached, one, challenged reached⟩

/-- The signed challenge is sent again after the login has replaced it. -/
theorem challenged_fails : ∃ s, (auth (· = wallet)).Reachable s ∧
    s.tokens.map (·.message) = ["first", "first"] ∧ s.tokens.map (·.stored) = [some "first", some "second"] ∧
    ¬s.Challenged := by
  obtain ⟨s, reached, messages, stored⟩ := Machine.Reachable.of_trace (auth (· = wallet))
    (asked ++ logsIn 1 ++ [.replace 1 "second" true] ++ logsIn 2 ++ [.replace 2 "third" true])
    (fun s => s.tokens.map (·.message) = ["first", "first"] ∧
      s.tokens.map (·.stored) = [some "first", some "second"]) (by decide)
  refine ⟨s, reached, messages, stored, ?_⟩
  intro challenged
  have once := challenged.once
  rw [messages] at once
  simp at once

end Examples

end RndRust.VolumeMaker
