import Mathlib.Data.Finset.Sort
import RndRust.Lib.Index
import RndRust.Lib.Runs
import RndRust.Lib.Updates

/-! The registry of WebSocket clients: `ws_client_manager.rs`. Every section under the lock is one
step, and between the section of a send that reads and the one that removes what it found stale, any
other step may come. -/
namespace RndRust.VolumeMaker.Ws
open Lib

abbrev ClientId := ℕ

abbrev UserId := ℤ

abbrev ProjectId := ℤ

/-- A message that has been serialised. -/
abbrev Message := String

structure WsClient where
  userId : UserId
  projectIds : Finset ProjectId
  deriving DecidableEq

structure ClientStore where
  clients : Table ClientId WsClient := ∅
  projectIndex : Index ProjectId ClientId := ∅
  userIndex : Index UserId ClientId := ∅

namespace ClientStore

variable (s : ClientStore)

def remove (clientId : ClientId) : ClientStore :=
  match AList.lookup clientId s.clients with
  | none => s
  | some client =>
    { clients := AList.erase clientId s.clients
      projectIndex := client.projectIds.sort.foldl (fun index pid => index.discard pid clientId) s.projectIndex
      userIndex := s.userIndex.discard client.userId clientId }

/-- The section of `register`. -/
def register (clientId : ClientId) (userId : UserId) (projectSet : Finset ProjectId) : ClientStore :=
  { clients := AList.insert clientId ⟨userId, projectSet⟩ s.clients
    projectIndex := projectSet.sort.foldl (fun index pid => index.add pid clientId) s.projectIndex
    userIndex := s.userIndex.add userId clientId }

/-- What `add_project_for_user` does with one connection of the user. -/
def addProject (projectId : ProjectId) (cid : ClientId) : ClientStore :=
  match AList.lookup cid s.clients with
  | none => s
  | some client =>
    if projectId ∈ client.projectIds then s
    else
      { s with
        clients := AList.insert cid { client with projectIds := insert projectId client.projectIds } s.clients
        projectIndex := s.projectIndex.add projectId cid }

/-- What `remove_project_for_user` does with one connection of the user. -/
def removeProject (projectId : ProjectId) (cid : ClientId) : ClientStore :=
  match AList.lookup cid s.clients with
  | none => s
  | some client =>
    if projectId ∈ client.projectIds then
      { s with
        clients := AList.insert cid { client with projectIds := client.projectIds.erase projectId } s.clients
        projectIndex := s.projectIndex.discard projectId cid }
    else s

def addProjectForUser (userId : UserId) (projectId : ProjectId) : ClientStore :=
  (s.userIndex.filed userId).sort.foldl (fun s cid => s.addProject projectId cid) s

def removeProjectForUser (userId : UserId) (projectId : ProjectId) : ClientStore :=
  (s.userIndex.filed userId).sort.foldl (fun s cid => s.removeProject projectId cid) s

/-- What `remove_project_for_all` does with one client that the index had filed. -/
def forgetProject (projectId : ProjectId) (clients : Table ClientId WsClient) (cid : ClientId) :
    Table ClientId WsClient :=
  match AList.lookup cid clients with
  | none => clients
  | some client => AList.insert cid { client with projectIds := client.projectIds.erase projectId } clients

def removeProjectForAll (projectId : ProjectId) : ClientStore :=
  match AList.lookup projectId s.projectIndex with
  | none => s
  | some clientIds =>
    { s with
      clients := clientIds.sort.foldl (forgetProject projectId) s.clients
      projectIndex := AList.erase projectId s.projectIndex }

end ClientStore

/-- The channel of a client: what is queued, and whether the receiver is still there. -/
structure Channel where
  queued : List Message := []
  closed : Bool := false
  deriving DecidableEq

namespace Channel

def capacity : ℕ := 1000

def accepts (channel : Channel) : Bool := !channel.closed && channel.queued.length < capacity

/-- `try_send`. -/
def trySend (channel : Channel) (message : Message) : Channel :=
  if channel.accepts then { channel with queued := channel.queued ++ [message] } else channel

/-- The connection takes the first message. -/
def receive (channel : Channel) : Channel := { channel with queued := channel.queued.tail }

/-- The connection drops its receiver. -/
def close (channel : Channel) : Channel := { channel with closed := true }

end Channel

/-- Whom a send is for. -/
inductive Audience where
  | all
  | project (projectId : ProjectId)
  | user (userId : UserId)
  deriving DecidableEq

/-- The clients that a send tries. -/
def ClientStore.recipients (s : ClientStore) : Audience → Finset ClientId
  | .all => (AList.keys s.clients).toFinset
  | .project projectId => {cid ∈ s.projectIndex.filed projectId | cid ∈ s.clients}
  | .user userId => {cid ∈ s.userIndex.filed userId | cid ∈ s.clients}

/-- A call of `register` that has its id and waits for the lock. -/
structure Registration where
  clientId : ClientId
  userId : UserId
  projectSet : Finset ProjectId

/-- A send that has found clients stale and waits for the lock, with the time when it looked. -/
structure Eviction where
  collectedAt : ℕ
  stale : Finset ClientId

/-- The time is the number of steps so far. It and `registeredAt` are there for the record only. -/
structure WsClientManager where
  store : ClientStore := {}
  nextId : ClientId := 1
  channels : ClientId → Channel := fun _ => {}
  registering : List Registration := []
  evictions : List Eviction := []
  clock : ℕ := 0
  registeredAt : ClientId → ℕ := fun _ => 0

inductive Action where
  /-- `register` up to the lock. -/
  | allocate (userId : UserId) (projectIds : List ProjectId)
  /-- The rest of the `i`th call of `register` that is under way. -/
  | register (i : ℕ)
  | unregister (clientId : ClientId)
  /-- The section of a send that reads. -/
  | send (audience : Audience) (message : Message)
  /-- The section of the `i`th send under way that removes. -/
  | evict (i : ℕ)
  | addProjectForUser (userId : UserId) (projectId : ProjectId)
  | removeProjectForUser (userId : UserId) (projectId : ProjectId)
  | removeProjectForAll (projectId : ProjectId)
  | receive (clientId : ClientId)
  | close (clientId : ClientId)

namespace WsClientManager

variable (s : WsClientManager)

def allocate (userId : UserId) (projectIds : List ProjectId) : WsClientManager :=
  { s with
    nextId := s.nextId + 1
    channels := Function.update s.channels s.nextId {}
    registering := s.registering ++ [⟨s.nextId, userId, projectIds.toFinset⟩] }

def register (i : ℕ) : Option WsClientManager := do
  let call ← s.registering[i]?
  some { s with
    store := s.store.register call.clientId call.userId call.projectSet
    registering := s.registering.eraseIdx i
    registeredAt := Function.update s.registeredAt call.clientId s.clock }

/-- The channels are separate and the removals commute, so it does not matter in which order the maps
are walked. -/
def send (audience : Audience) (message : Message) : WsClientManager :=
  let recipients := s.store.recipients audience
  let stale := {cid ∈ recipients | !(s.channels cid).accepts}
  { s with
    channels := fun cid => if cid ∈ recipients then (s.channels cid).trySend message else s.channels cid
    evictions := if stale = ∅ then s.evictions else s.evictions ++ [⟨s.clock, stale⟩] }

def evict (i : ℕ) : Option WsClientManager := do
  let eviction ← s.evictions[i]?
  some { s with
    store := eviction.stale.sort.foldl ClientStore.remove s.store
    evictions := s.evictions.eraseIdx i }

def perform : Action → Option WsClientManager
  | .allocate userId projectIds => some (s.allocate userId projectIds)
  | .register i => s.register i
  | .unregister clientId => some { s with store := s.store.remove clientId }
  | .send audience message => some (s.send audience message)
  | .evict i => s.evict i
  | .addProjectForUser userId projectId => some { s with store := s.store.addProjectForUser userId projectId }
  | .removeProjectForUser userId projectId =>
    some { s with store := s.store.removeProjectForUser userId projectId }
  | .removeProjectForAll projectId => some { s with store := s.store.removeProjectForAll projectId }
  | .receive clientId =>
    some { s with channels := Function.update s.channels clientId (s.channels clientId).receive }
  | .close clientId =>
    some { s with channels := Function.update s.channels clientId (s.channels clientId).close }

end WsClientManager

def manager : Machine WsClientManager Action where
  initial := {}
  step s a := (s.perform a).map fun t => { t with clock := s.clock + 1 }

section Stores

variable {s t : ClientStore} {c d : ClientId} {p q : ProjectId} {u : UserId} {clients : Table ClientId WsClient}

/-- The client is registered and holds the project. -/
def Holds (clients : Table ClientId WsClient) (c : ClientId) (p : ProjectId) : Prop :=
  ∃ client, AList.lookup c clients = some client ∧ p ∈ client.projectIds

/-- The client is registered and is a connection of the user. -/
def Owned (clients : Table ClientId WsClient) (c : ClientId) (u : UserId) : Prop :=
  ∃ client, AList.lookup c clients = some client ∧ client.userId = u

/-- The two indexes are exactly the inverses of what the clients hold. -/
structure Exact (s : ClientStore) : Prop where
  projects : s.projectIndex.Inverts (Holds s.clients)
  users : s.userIndex.Inverts (Owned s.clients)

theorem exact_empty : Exact {} where
  projects := Index.Inverts.empty.congr fun _ _ => by simp [Holds]
  users := Index.Inverts.empty.congr fun _ _ => by simp [Owned]

theorem holds_insert {client : WsClient} :
    Holds (AList.insert c client clients) d p ↔ if d = c then p ∈ client.projectIds else Holds clients d p := by
  rw [Holds, Table.lookup_insert_eq]
  split
  case isTrue => simp
  case isFalse => rfl

theorem owned_insert {client : WsClient} :
    Owned (AList.insert c client clients) d u ↔ if d = c then client.userId = u else Owned clients d u := by
  rw [Owned, Table.lookup_insert_eq]
  split
  case isTrue => simp
  case isFalse => rfl

theorem holds_of_lookup {client : WsClient} (found : AList.lookup c clients = some client) :
    Holds clients c p ↔ p ∈ client.projectIds := by
  simp [Holds, found]

theorem owned_of_lookup {client : WsClient} (found : AList.lookup c clients = some client) :
    Owned clients c u ↔ client.userId = u := by
  simp [Owned, found]

theorem Exact.remove (exactly : Exact s) : Exact (s.remove c) := by
  unfold ClientStore.remove
  split
  case h_1 => exact exactly
  case h_2 client found =>
    refine ⟨(exactly.projects.discardAll _).congr fun d q => ?_, exactly.users.discard.congr fun d v => ?_⟩
    · obtain rfl | other := eq_or_ne d c
      · simp [Holds, found]
      · simp [Holds, other]
    · obtain rfl | other := eq_or_ne d c
      · simp [Owned, found, eq_comm]
      · simp [Owned, other]

theorem Exact.register {projectSet : Finset ProjectId} (exactly : Exact s)
    (fresh : AList.lookup c s.clients = none) : Exact (s.register c u projectSet) := by
  refine ⟨(exactly.projects.addAll _).congr fun d q => ?_, exactly.users.add.congr fun d v => ?_⟩
  · rw [ClientStore.register, holds_insert, Finset.mem_sort]
    obtain rfl | other := eq_or_ne d c
    · simp [Holds, fresh]
    · simp [other]
  · rw [ClientStore.register, owned_insert]
    obtain rfl | other := eq_or_ne d c
    · simp [Owned, fresh, eq_comm]
    · simp [other]

/-- A client whose project set alone changes stays its user's connection. -/
theorem owned_update {client : WsClient} {projectIds : Finset ProjectId}
    (found : AList.lookup c clients = some client) :
    Owned (AList.insert c { client with projectIds := projectIds } clients) d u ↔ Owned clients d u := by
  rw [owned_insert]
  split
  case isTrue same => rw [same, owned_of_lookup found]
  case isFalse => rfl

theorem Exact.addProject (exactly : Exact s) : Exact (s.addProject p c) := by
  unfold ClientStore.addProject
  split
  case h_1 => exact exactly
  case h_2 client found =>
    split
    case isTrue => exact exactly
    case isFalse new =>
      refine ⟨exactly.projects.add.congr fun d q => ?_, exactly.users.congr fun d v => owned_update found⟩
      rw [holds_insert]
      split
      case isTrue same => simp [same, holds_of_lookup found, or_comm]
      case isFalse other => simp [other]

theorem Exact.removeProject (exactly : Exact s) : Exact (s.removeProject p c) := by
  unfold ClientStore.removeProject
  split
  case h_1 => exact exactly
  case h_2 client found =>
    split
    case isFalse => exact exactly
    case isTrue =>
      refine ⟨exactly.projects.discard.congr fun d q => ?_, exactly.users.congr fun d v => owned_update found⟩
      rw [holds_insert]
      split
      case isTrue same => simp [same, holds_of_lookup found, and_comm]
      case isFalse other => simp [other]

theorem Exact.foldl {α : Type} {f : ClientStore → α → ClientStore} (keeps : ∀ s a, Exact s → Exact (f s a))
    (exactly : Exact s) (list : List α) : Exact (list.foldl f s) := by
  induction list generalizing s with
  | nil => exact exactly
  | cons a list ih => exact ih (keeps s a exactly)

theorem holds_forgetProject :
    Holds (ClientStore.forgetProject p clients c) d q ↔ Holds clients d q ∧ ¬(q = p ∧ d = c) := by
  unfold ClientStore.forgetProject
  split
  case h_1 missing =>
    refine (and_iff_left_of_imp ?_).symm
    rintro ⟨client, found, -⟩ ⟨-, rfl⟩
    rw [missing] at found
    cases found
  case h_2 client found =>
    rw [holds_insert]
    split
    case isTrue same => simp [same, holds_of_lookup found, and_comm]
    case isFalse other => simp [other]

theorem holds_foldl_forget {ids : List ClientId} : Holds (ids.foldl (ClientStore.forgetProject p) clients) d q ↔
    Holds clients d q ∧ ¬(q = p ∧ d ∈ ids) := by
  induction ids generalizing clients with
  | nil => simp
  | cons c ids ih =>
    rw [List.foldl_cons, ih, holds_forgetProject, List.mem_cons]
    tauto

theorem owned_foldl_forget {ids : List ClientId} :
    Owned (ids.foldl (ClientStore.forgetProject p) clients) d u ↔ Owned clients d u := by
  induction ids generalizing clients with
  | nil => rfl
  | cons c ids ih =>
    rw [List.foldl_cons, ih]
    unfold ClientStore.forgetProject
    split
    case h_1 => rfl
    case h_2 client found => exact owned_update found

theorem Exact.removeProjectForAll (exactly : Exact s) : Exact (s.removeProjectForAll p) := by
  unfold ClientStore.removeProjectForAll
  split
  case h_1 => exact exactly
  case h_2 ids found =>
    have filed : s.projectIndex.filed p = ids := by rw [Index.filed, found]; rfl
    refine ⟨exactly.projects.erase.congr fun d q => ?_, exactly.users.congr fun d v => owned_foldl_forget⟩
    rw [holds_foldl_forget, Finset.mem_sort, ← filed, exactly.projects.mem]
    constructor
    · rintro ⟨holds, kept⟩
      refine ⟨holds, ?_⟩
      rintro rfl
      exact kept ⟨rfl, holds⟩
    · rintro ⟨holds, other⟩
      exact ⟨holds, fun both => other both.1⟩

/-- Whom a send is for, by what the clients themselves say. -/
def Addressed (clients : Table ClientId WsClient) (c : ClientId) : Audience → Prop
  | .all => c ∈ clients
  | .project projectId => Holds clients c projectId
  | .user userId => Owned clients c userId

theorem mem_of_addressed {audience : Audience} (addressed : Addressed clients c audience) : c ∈ clients := by
  cases audience with
  | all => exact addressed
  | project | user =>
    obtain ⟨client, found, -⟩ := addressed
    exact AList.lookup_isSome.mp (by rw [found]; rfl)

theorem Exact.mem_recipients {audience : Audience} (exactly : Exact s) :
    c ∈ s.recipients audience ↔ Addressed s.clients c audience := by
  cases audience with
  | all => simp [ClientStore.recipients, Addressed, AList.mem_keys]
  | project projectId =>
    rw [ClientStore.recipients, Finset.mem_filter, exactly.projects.mem]
    exact and_iff_left_of_imp fun (held : Addressed s.clients c (.project projectId)) => mem_of_addressed held
  | user userId =>
    rw [ClientStore.recipients, Finset.mem_filter, exactly.users.mem]
    exact and_iff_left_of_imp fun (owned : Addressed s.clients c (.user userId)) => mem_of_addressed owned

theorem mem_remove : d ∈ (s.remove c).clients ↔ d ∈ s.clients ∧ d ≠ c := by
  unfold ClientStore.remove
  split
  case h_1 missing =>
    refine (and_iff_left_of_imp ?_).symm
    rintro member rfl
    exact AList.lookup_eq_none.mp missing member
  case h_2 => rw [AList.mem_erase, and_comm]

theorem mem_foldl_remove {ids : List ClientId} :
    d ∈ (ids.foldl ClientStore.remove s).clients ↔ d ∈ s.clients ∧ d ∉ ids := by
  induction ids generalizing s with
  | nil => simp
  | cons c ids ih => rw [List.foldl_cons, ih, mem_remove, List.mem_cons, not_or, and_assoc]

theorem mem_insert_known {client : WsClient} (found : ∃ old, AList.lookup c clients = some old) :
    d ∈ AList.insert c client clients ↔ d ∈ clients := by
  obtain ⟨old, found⟩ := found
  rw [AList.mem_insert]
  refine or_iff_right_of_imp ?_
  rintro rfl
  exact AList.lookup_isSome.mp (by rw [found]; rfl)

theorem mem_addProject : d ∈ (s.addProject p c).clients ↔ d ∈ s.clients := by
  unfold ClientStore.addProject
  split
  case h_1 => rfl
  case h_2 client found =>
    split
    case isTrue => rfl
    case isFalse => exact mem_insert_known ⟨client, found⟩

theorem mem_removeProject : d ∈ (s.removeProject p c).clients ↔ d ∈ s.clients := by
  unfold ClientStore.removeProject
  split
  case h_1 => rfl
  case h_2 client found =>
    split
    case isTrue => exact mem_insert_known ⟨client, found⟩
    case isFalse => rfl

theorem mem_foldl {α : Type} {f : ClientStore → α → ClientStore}
    (keeps : ∀ s a, d ∈ (f s a).clients ↔ d ∈ s.clients) (list : List α) :
    d ∈ (list.foldl f s).clients ↔ d ∈ s.clients := by
  induction list generalizing s with
  | nil => rfl
  | cons a list ih => exact ih.trans (keeps s a)

theorem mem_foldl_forget {ids : List ClientId} :
    d ∈ ids.foldl (ClientStore.forgetProject p) clients ↔ d ∈ clients := by
  induction ids generalizing clients with
  | nil => rfl
  | cons c ids ih =>
    rw [List.foldl_cons, ih]
    unfold ClientStore.forgetProject
    split
    case h_1 => rfl
    case h_2 client found => exact mem_insert_known ⟨client, found⟩

theorem mem_removeProjectForAll : d ∈ (s.removeProjectForAll p).clients ↔ d ∈ s.clients := by
  unfold ClientStore.removeProjectForAll
  split
  case h_1 => rfl
  case h_2 => exact mem_foldl_forget

end Stores

section Runs

variable {s t : WsClientManager} {c : ClientId}

/-- The id has been handed out, and no call of `register` still waits with it. -/
def Settled (s : WsClientManager) (c : ClientId) : Prop :=
  c < s.nextId ∧ ∀ call ∈ s.registering, call.clientId ≠ c

structure Sound (s : WsClientManager) : Prop where
  exactly : Exact s.store
  registered : ∀ c ∈ s.store.clients, Settled s c ∧ s.registeredAt c < s.clock
  waiting : ∀ call ∈ s.registering, call.clientId < s.nextId
  apart : (s.registering.map Registration.clientId).Nodup
  collected : ∀ eviction ∈ s.evictions, ∀ c ∈ eviction.stale, Settled s c ∧
    s.registeredAt c < eviction.collectedAt

/-- What changes the store under the lock without a new client keeps the manager sound. -/
theorem Sound.within (sound : Sound s) {store : ClientStore} {evictions : List Eviction}
    {channels : ClientId → Channel} (exactly : Exact store)
    (fewer : ∀ c ∈ store.clients, c ∈ s.store.clients)
    (collected : ∀ eviction ∈ evictions, eviction ∈ s.evictions ∨ eviction.collectedAt = s.clock ∧
      ∀ c ∈ eviction.stale, c ∈ s.store.clients) :
    Sound { s with store := store, evictions := evictions, channels := channels, clock := s.clock + 1 } where
  exactly := exactly
  registered c member := by
    obtain ⟨settled, before⟩ := sound.registered c (fewer c member)
    exact ⟨settled, before.trans (Nat.lt_succ_self _)⟩
  waiting := sound.waiting
  apart := sound.apart
  collected eviction member c stale := by
    obtain old | ⟨time, known⟩ := collected eviction member
    · exact sound.collected eviction old c stale
    · rw [time]
      exact sound.registered c (known c stale)

theorem Sound.allocate (sound : Sound s) {userId : UserId} {projectIds : List ProjectId} :
    Sound { s.allocate userId projectIds with clock := s.clock + 1 } := by
  have settled {c : ClientId} (before : Settled s c) :
      Settled { s.allocate userId projectIds with clock := s.clock + 1 } c := by
    obtain ⟨old, apart⟩ := before
    refine ⟨old.trans (Nat.lt_succ_self _), fun call member => ?_⟩
    obtain earlier | new := List.mem_append.mp member
    · exact apart call earlier
    · obtain rfl := List.mem_singleton.mp new
      exact old.ne'
  constructor
  case exactly => exact sound.exactly
  case registered =>
    intro c member
    obtain ⟨before, time⟩ := sound.registered c member
    exact ⟨settled before, time.trans (Nat.lt_succ_self _)⟩
  case waiting =>
    intro call member
    obtain earlier | new := List.mem_append.mp member
    · exact (sound.waiting call earlier).trans (Nat.lt_succ_self _)
    · obtain rfl := List.mem_singleton.mp new
      exact Nat.lt_succ_self _
  case apart =>
    rw [WsClientManager.allocate, List.map_append]
    refine nodup_append_one ?_ sound.apart
    rintro member
    obtain ⟨call, earlier, same⟩ := List.mem_map.mp member
    exact (sound.waiting call earlier).ne same
  case collected =>
    intro eviction member c stale
    obtain ⟨before, time⟩ := sound.collected eviction member c stale
    exact ⟨settled before, time⟩

/-- The id of a call that waits is nobody's, and no send has found it stale. -/
theorem Sound.register (sound : Sound s) {i : ℕ} (taken : s.register i = some t) :
    Sound { t with clock := s.clock + 1 } := by
  obtain ⟨call, waits, taken⟩ := Option.bind_eq_some_iff.mp taken
  obtain rfl := Option.some.inj taken
  have listed := List.mem_of_getElem? waits
  have later {c : ClientId} (before : Settled s c) : c ≠ call.clientId := (before.2 call listed).symm
  have alone : ∀ other ∈ s.registering.eraseIdx i, other.clientId ≠ call.clientId := by
    have distinct := (((perm_eraseIdx_known waits).map Registration.clientId).nodup_iff).mpr sound.apart
    intro other member same
    exact (List.nodup_cons.mp distinct).1 (same ▸ List.mem_map_of_mem member)
  have fresh : AList.lookup call.clientId s.store.clients = none :=
    AList.lookup_eq_none.mpr fun member => later (sound.registered _ member).1 rfl
  have unchanged {c : ClientId} (before : Settled s c) :
      Function.update s.registeredAt call.clientId s.clock c = s.registeredAt c :=
    Function.update_of_ne (later before) _ _
  constructor
  case exactly => exact sound.exactly.register fresh
  case registered =>
    intro c member
    obtain rfl | known := (AList.mem_insert _).mp member
    · exact ⟨⟨sound.waiting call listed, alone⟩, by simp⟩
    · obtain ⟨before, time⟩ := sound.registered c known
      exact ⟨⟨before.1, fun other member => before.2 other (List.mem_of_mem_eraseIdx member)⟩,
        (unchanged before).trans_lt (time.trans (Nat.lt_succ_self _))⟩
  case waiting => exact fun other member => sound.waiting other (List.mem_of_mem_eraseIdx member)
  case apart => exact sound.apart.sublist ((List.eraseIdx_sublist _ _).map _)
  case collected =>
    intro eviction member c stale
    obtain ⟨before, time⟩ := sound.collected eviction member c stale
    exact ⟨⟨before.1, fun other member => before.2 other (List.mem_of_mem_eraseIdx member)⟩,
      (unchanged before).trans_lt time⟩

theorem Sound.send (sound : Sound s) {audience : Audience} {message : Message} :
    Sound { s.send audience message with clock := s.clock + 1 } := by
  refine sound.within sound.exactly (fun _ member => member) fun eviction member => ?_
  dsimp only [WsClientManager.send] at member
  split at member
  case isTrue => exact .inl member
  case isFalse =>
    obtain earlier | new := List.mem_append.mp member
    · exact .inl earlier
    · obtain rfl := List.mem_singleton.mp new
      exact .inr ⟨rfl, fun c stale =>
        mem_of_addressed (sound.exactly.mem_recipients.mp (Finset.mem_of_mem_filter c stale))⟩

theorem Sound.evict (sound : Sound s) {i : ℕ} (taken : s.evict i = some t) :
    Sound { t with clock := s.clock + 1 } := by
  obtain ⟨eviction, -, taken⟩ := Option.bind_eq_some_iff.mp taken
  obtain rfl := Option.some.inj taken
  exact sound.within (sound.exactly.foldl (fun _ _ => Exact.remove) _)
    (fun c member => (mem_foldl_remove.mp member).1) fun _ member => .inl (List.mem_of_mem_eraseIdx member)

theorem Sound.perform (sound : Sound s) {a : Action} (taken : s.perform a = some t) :
    Sound { t with clock := s.clock + 1 } := by
  cases a with
  | allocate userId projectIds =>
    obtain rfl := Option.some.inj taken
    exact sound.allocate
  | register i => exact sound.register taken
  | send audience message =>
    obtain rfl := Option.some.inj taken
    exact sound.send
  | evict i => exact sound.evict taken
  | unregister c =>
    obtain rfl := Option.some.inj taken
    exact sound.within sound.exactly.remove (fun _ member => (mem_remove.mp member).1) fun _ => .inl
  | addProjectForUser u p =>
    obtain rfl := Option.some.inj taken
    exact sound.within (sound.exactly.foldl (fun _ _ => Exact.addProject) _)
      (fun _ => (mem_foldl (fun _ _ => mem_addProject) _).mp) fun _ => .inl
  | removeProjectForUser u p =>
    obtain rfl := Option.some.inj taken
    exact sound.within (sound.exactly.foldl (fun _ _ => Exact.removeProject) _)
      (fun _ => (mem_foldl (fun _ _ => mem_removeProject) _).mp) fun _ => .inl
  | removeProjectForAll p =>
    obtain rfl := Option.some.inj taken
    exact sound.within sound.exactly.removeProjectForAll (fun _ => mem_removeProjectForAll.mp) fun _ => .inl
  | receive c | close c =>
    obtain rfl := Option.some.inj taken
    exact sound.within sound.exactly (fun _ member => member) fun _ => .inl

theorem step_eq_some {a : Action} : manager.step s a = some t ↔
    ∃ after, s.perform a = some after ∧ { after with clock := s.clock + 1 } = t := Option.map_eq_some_iff

theorem sound_initial : Sound {} where
  exactly := exact_empty
  registered c member := by simp at member
  waiting call member := by cases member
  apart := List.nodup_nil
  collected eviction member := by cases member

theorem sound_reachable (reached : manager.Reachable s) : Sound s := by
  refine reached.invariant Sound sound_initial fun s a t sound _ taken => ?_
  obtain ⟨after, performed, rfl⟩ := step_eq_some.mp taken
  exact sound.perform performed

/-- After every interleaving the project index and the user index are the inverses of what the clients
hold, without empty sets. A send appends its message to the queues of exactly those clients that it is
for and whose queue accepts it, and no other queue changes. What a delayed removal takes off had been
registered before the send looked. -/
theorem clients_exact (reached : manager.Reachable s) :
    s.store.projectIndex.Inverts (Holds s.store.clients) ∧ s.store.userIndex.Inverts (Owned s.store.clients) ∧
    (∀ audience message t, manager.step s (.send audience message) = some t → ∀ c,
      (Addressed s.store.clients c audience ∧ (s.channels c).accepts →
        (t.channels c).queued = (s.channels c).queued ++ [message]) ∧
      (¬(Addressed s.store.clients c audience ∧ (s.channels c).accepts) → t.channels c = s.channels c)) ∧
    ∀ i eviction t, s.evictions[i]? = some eviction → manager.step s (.evict i) = some t → ∀ c,
      c ∈ s.store.clients → c ∉ t.store.clients →
        c ∈ eviction.stale ∧ s.registeredAt c < eviction.collectedAt := by
  have sound := sound_reachable reached
  refine ⟨sound.exactly.projects, sound.exactly.users, ?_, ?_⟩
  · intro audience message t taken c
    obtain ⟨_, performed, rfl⟩ := step_eq_some.mp taken
    obtain rfl := Option.some.inj performed
    rw [← sound.exactly.mem_recipients]
    simp only [WsClientManager.send, Channel.trySend]
    constructor
    · rintro ⟨addressed, accepting⟩
      rw [if_pos addressed, if_pos accepting]
    · intro unaddressed
      split
      case isTrue addressed => rw [if_neg fun accepting => unaddressed ⟨addressed, accepting⟩]
      case isFalse => rfl
  · intro i eviction t waits taken c before after
    obtain ⟨_, performed, rfl⟩ := step_eq_some.mp taken
    obtain ⟨found, same, performed⟩ := Option.bind_eq_some_iff.mp performed
    obtain rfl := Option.some.inj (waits.symm.trans same)
    obtain rfl := Option.some.inj performed
    have stale : c ∈ eviction.stale := by
      by_contra other
      exact after (mem_foldl_remove.mpr ⟨before, by rwa [Finset.mem_sort]⟩)
    exact ⟨stale, (sound.collected eviction (List.mem_of_getElem? waits) c stale).2⟩

theorem clients_exact_registered : ∃ s, manager.Reachable s ∧ 1 ∈ s.store.clients ∧
    s.store.projectIndex.Inverts (Holds s.store.clients) := by
  have reached : manager.Reachable _ := .step (a := .register 0)
    (.step (a := .allocate 7 [10, 20]) .initial trivial rfl) trivial rfl
  exact ⟨_, reached, (AList.mem_insert _).mpr (.inl rfl), (clients_exact reached).1⟩

end Runs

end RndRust.VolumeMaker.Ws
