import Mathlib
import RndRust.Lib.Runs

/-! Sessions: the end of `login_user`, `refresh_token_handler` and `logout_handler` of `auth.rs`, and the `guard`
of `middleware.rs` with its cache. An action is one statement to the database or to Redis, or the step of a
handler up to its next one, so requests interleave between any two. -/
namespace RndRust.VolumeMaker.Sessions
open Lib

/-- What the handlers use of a row of `users`. -/
structure User where
  id : ℤ
  address : String
  groupId : ℤ
  whitelisted : Bool
  refreshToken : Option String := none
  refreshTokenExpiresAt : Option ℕ := none
  sessionId : Option String := none
  deriving DecidableEq

/-- `Claims`, the expiry in seconds. -/
structure Claims where
  exp : ℕ
  id : ℤ
  address : String
  groupId : ℤ
  whitelisted : Bool
  sessionId : Option String
  deriving DecidableEq

/-- A request, by what its handler does next. -/
inductive Request where
  /-- `login_user` has verified the signature and encoded the token. -/
  | setRefresh (claims : Claims) (session refresh : String)
  | setSession (claims : Claims) (session : String)
  /-- `refresh_token_handler` has read the user and checked it. -/
  | rotate (user : User)
  /-- It found the token expired. -/
  | expired (id : ℤ)
  | logout (id : ℤ)
  | cleared (id : ℤ)
  /-- `guard` has decoded a token with a session. -/
  | checking (claims : Claims) (session : String)
  | missed (claims : Claims) (session : String)
  | matched (claims : Claims) (session : String)
  | accepted (claims : Claims) (session : String)
  | answered
  deriving DecidableEq

structure State where
  /-- Milliseconds. -/
  now : ℕ := 0
  users : ℤ → Option User := fun _ => none
  /-- `session:{id}` in Redis, and when it expires. -/
  cache : ℤ → Option (String × ℕ) := fun _ => none
  requests : List Request := []
  /-- The claims whose tokens have been given out. -/
  issued : List Claims := []

/-- `SESSION_CACHE_TTL`. -/
def sessionCacheTtl : ℕ := 60 * 1000

/-- `jwt_expiry`. -/
def jwtExpiry (now : ℕ) : ℕ := now / 1000 + 24 * 60 * 60

/-- `refresh_token_expiry`. -/
def refreshTokenExpiry (now : ℕ) : ℕ := now + 30 * 24 * 60 * 60 * 1000

/-- `decode`: the token has been given out, and has not expired for longer than the leeway of the crate. -/
def decodes (s : State) (claims : Claims) : Bool := claims ∈ s.issued ∧ s.now / 1000 ≤ claims.exp + 60

/-- What the database and Redis do with a statement. -/
inductive Action where
  | tick (ms : ℕ)
  | addUser (id : ℤ) (address : String) (groupId : ℤ)
  /-- A login whose user was read as `user`, and whose signature is verified. -/
  | loginUser (user : User) (session refresh : String) (encoded : Bool)
  | setRefreshToken (request : ℕ) (done : Bool)
  | setSessionId (request : ℕ) (done : Bool)
  /-- A refresh token is sent, and the row of `id` holds it. -/
  | refreshToken (id : ℤ) (token : String)
  | rotate (request : ℕ) (refresh : String) (encoded done : Bool)
  | logout (claims : Claims)
  | clear (request : ℕ) (done : Bool)
  | del (request : ℕ) (done : Bool)
  | guard (claims : Claims) (admin : Bool)
  | readCache (request : ℕ) (done : Bool)
  | readSession (request : ℕ) (done : Bool)
  | store (request : ℕ) (done : Bool)

namespace State

variable (s : State)

def answer (i : ℕ) (request : Request) : State := { s with requests := s.requests.set i request }

def receive (request : Request) : State := { s with requests := s.requests ++ [request] }

/-- An UPDATE of the row of one user. -/
def update (id : ℤ) (f : User → User) : State :=
  { s with users := Function.update s.users id ((s.users id).map f) }

/-- `set_user_refresh_token`. -/
def setUserRefreshToken (id : ℤ) (token : String) : State :=
  s.update id fun user =>
    { user with refreshToken := some token, refreshTokenExpiresAt := some (refreshTokenExpiry s.now) }

/-- `clear_user_refresh_token`. -/
def clearUserRefreshToken (id : ℤ) : State :=
  s.update id fun user => { user with refreshToken := none, refreshTokenExpiresAt := none, sessionId := none }

/-- `set_user_session_id`. -/
def setUserSessionId (id : ℤ) (session : String) : State :=
  s.update id fun user => { user with sessionId := some session }

/-- The key `session:{id}` is set or deleted. -/
def setCache (id : ℤ) (entry : Option (String × ℕ)) : State := { s with cache := Function.update s.cache id entry }

/-- `get_user_session_id`. -/
def getUserSessionId (id : ℤ) : Option String := (s.users id).bind User.sessionId

/-- `get_redis_data` of a session: Redis forgets it when it expires. -/
def getCached (id : ℤ) : Option String := ((s.cache id).filter fun entry => s.now < entry.2).map Prod.fst

end State

/-- The claims of a new token. -/
def newClaims (s : State) (user : User) (session : Option String) : Claims where
  exp := jwtExpiry s.now
  id := user.id
  address := user.address
  groupId := user.groupId
  whitelisted := user.whitelisted
  sessionId := session

/-- What `guard` and `guard_admin` do before `validate_session` asks Redis. -/
def guardRequest (s : State) (claims : Claims) (admin : Bool) : Request :=
  if decodes s claims ∧ claims.whitelisted ∧ (admin → claims.groupId = 1) then
    match claims.sessionId with
    | some session => .checking claims session
    | none => .answered
  else .answered

def step (s : State) : Action → Option State
  | .tick ms => some { s with now := s.now + ms }
  | .addUser id address groupId =>
    if s.users id = none then
      some { s with users := Function.update s.users id (some { id, address, groupId, whitelisted := true }) }
    else none
  | .loginUser user session refresh encoded =>
    if user.whitelisted then
      some (s.receive (if encoded then .setRefresh (newClaims s user (some session)) session refresh else .answered))
    else some (s.receive .answered)
  | .setRefreshToken i done =>
    match s.requests[i]? with
    | some (.setRefresh claims session refresh) =>
      some ((if done then s.setUserRefreshToken claims.id refresh else s).answer i (.setSession claims session))
    | _ => none
  | .setSessionId i done =>
    match s.requests[i]? with
    | some (.setSession claims session) =>
      let s := (if done then s.setUserSessionId claims.id session else s).answer i .answered
      some { s with issued := s.issued ++ [claims] }
    | _ => none
  | .refreshToken id token =>
    match s.users id with
    | some user =>
      if user.refreshToken = some token then
        match user.refreshTokenExpiresAt with
        | some expires =>
          if expires < s.now then some (s.receive (.expired id))
          else some (s.receive (if user.whitelisted then .rotate user else .answered))
        | none => some (s.receive .answered)
      else none
    | none => none
  | .rotate i refresh encoded done =>
    match s.requests[i]? with
    | some (.rotate user) =>
      if encoded then
        let t := (if done then s.setUserRefreshToken user.id refresh else s).answer i .answered
        some { t with issued := s.issued ++ [newClaims s user user.sessionId] }
      else some (s.answer i .answered)
    | _ => none
  | .logout claims => some (s.receive (if decodes s claims then .logout claims.id else .answered))
  | .clear i done =>
    match s.requests[i]? with
    | some (.expired id) => some ((if done then s.clearUserRefreshToken id else s).answer i .answered)
    | some (.logout id) => some ((if done then s.clearUserRefreshToken id else s).answer i (.cleared id))
    | _ => none
  | .del i done =>
    match s.requests[i]? with
    | some (.cleared id) =>
      some ((if done then s.setCache id none else s).answer i .answered)
    | _ => none
  | .guard claims admin => some (s.receive (guardRequest s claims admin))
  | .readCache i done =>
    match s.requests[i]? with
    | some (.checking claims session) =>
      match if done then s.getCached claims.id else none with
      | some cached => some (s.answer i (if cached = session then .accepted claims session else .answered))
      | none => some (s.answer i (.missed claims session))
    | _ => none
  | .readSession i done =>
    match s.requests[i]? with
    | some (.missed claims session) =>
      some (s.answer i (if done ∧ s.getUserSessionId claims.id = some session then .matched claims session else .answered))
    | _ => none
  | .store i done =>
    match s.requests[i]? with
    | some (.matched claims session) =>
      let t := if done then s.setCache claims.id (some (session, s.now + sessionCacheTtl)) else s
      some (t.answer i (.accepted claims session))
    | _ => none

/-- The server with an empty database and an empty cache. -/
def sessions : Machine State Action where
  initial := {}
  step := step

section Operations

variable {s : State} {id v : ℤ} {i : ℕ} {request : Request} {entry : Option (String × ℕ)} {f : User → User}
  {token session : String}

@[grind =] theorem setCache_requests : (s.setCache id entry).requests = s.requests := rfl

@[grind =] theorem setCache_issued : (s.setCache id entry).issued = s.issued := rfl

@[grind =] theorem setCache_session : (s.setCache id entry).getUserSessionId v = s.getUserSessionId v := rfl

@[grind =] theorem answer_session : (s.answer i request).getUserSessionId v = s.getUserSessionId v := rfl

@[grind =] theorem receive_session : (s.receive request).getUserSessionId v = s.getUserSessionId v := rfl

@[grind =] theorem setUserRefreshToken_requests : (s.setUserRefreshToken id token).requests = s.requests := rfl

@[grind =] theorem setUserRefreshToken_issued : (s.setUserRefreshToken id token).issued = s.issued := rfl

@[grind =] theorem setUserRefreshToken_cache : (s.setUserRefreshToken id token).cache = s.cache := rfl

@[grind =] theorem setUserSessionId_requests : (s.setUserSessionId id session).requests = s.requests := rfl

@[grind =] theorem setUserSessionId_issued : (s.setUserSessionId id session).issued = s.issued := rfl

@[grind =] theorem setUserSessionId_cache : (s.setUserSessionId id session).cache = s.cache := rfl

@[grind =] theorem clearUserRefreshToken_requests : (s.clearUserRefreshToken id).requests = s.requests := rfl

@[grind =] theorem clearUserRefreshToken_issued : (s.clearUserRefreshToken id).issued = s.issued := rfl

@[grind =] theorem clearUserRefreshToken_cache : (s.clearUserRefreshToken id).cache = s.cache := rfl

theorem update_session : (s.update id f).getUserSessionId v =
    if v = id then (s.users id).bind fun user => (f user).sessionId else s.getUserSessionId v := by
  unfold State.getUserSessionId State.update
  by_cases same : v = id
  · subst same
    simp [Option.bind_map]
  · simp [same]

@[grind =] theorem clearUserRefreshToken_session :
    (s.clearUserRefreshToken id).getUserSessionId v = if v = id then none else s.getUserSessionId v := by
  rw [State.clearUserRefreshToken, update_session]
  cases s.users id <;> rfl

end Operations

section Steps

variable {s t : State} {a : Action} {i : ℕ} {claims : Claims} {session : String} {id : ℤ} {expires : ℕ}

attribute [local grind =] State.receive State.answer guardRequest

end Steps

/-- The claims and the session of a request that `guard` has let past its first checks. -/
def Request.admitted : Request → Option (Claims × String)
  | .checking claims session | .missed claims session | .matched claims session | .accepted claims session =>
    some (claims, session)
  | _ => none

/-- Requests past the first checks of `guard` carry a token that was given out, for a session. -/
def Vetted (s : State) : Prop :=
  ∀ (i : ℕ) (r : Request) claims session, s.requests[i]? = some r → r.admitted = some (claims, session) →
    claims ∈ s.issued ∧ claims.whitelisted ∧ claims.sessionId = some session

theorem Vetted.step {s t : State} {a : Action} (vetted : Vetted s) (taken : step s a = some t) : Vetted t := by
  intro i r claims session listed admitted
  have before := vetted i
  cases a <;> grind [Sessions.step, Request.admitted, State.receive, State.answer, guardRequest, decodes]

section Runs

variable {trace : List Action} {s : State} {i : ℕ} {claims : Claims} {session : String} {id : ℤ}

/-- In a run from the start, a login of the user stored the session. -/
def Entered (trace : List Action) (id : ℤ) (session : String) : Prop :=
  ∃ (m : Machine.Moment sessions {} trace) (i : ℕ) (claims : Claims), m.action = .setSessionId i true ∧
    m.before.requests[i]? = some (.setSession claims session) ∧ claims.id = id

/-- In a run from the start, a request found the session of a login in the database. -/
def Found (trace : List Action) (id : ℤ) (session : String) : Prop :=
  ∃ (m : Machine.Moment sessions {} trace) (i : ℕ), m.action = .readSession i true ∧
    m.before.getUserSessionId id = some session ∧ Entered m.earlier id session

/-- In a run from the start, a request that had found the session put it in Redis. -/
def Cached (trace : List Action) (id : ℤ) (session : String) (time : ℕ) : Prop :=
  ∃ (m : Machine.Moment sessions {} trace) (i : ℕ), m.action = .store i true ∧ m.before.now = time ∧
    Found m.earlier id session

end Runs

end RndRust.VolumeMaker.Sessions
