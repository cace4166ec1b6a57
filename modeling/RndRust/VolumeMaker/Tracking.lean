import Mathlib.Data.Finset.Basic
import RndRust.Lib.Runs
import RndRust.Lib.Table

/-! The addresses that a worker watches, and the relations that say for whom: `track_address`,
`track_token`, `untrack_address` and `untrack_project` of `state.rs`. -/
namespace RndRust.VolumeMaker.Tracking
open Lib

inductive BalanceType where
  | wsol
  | tokens
  | base
  | quote
  | pool
  deriving DecidableEq

structure WalletRelation where
  userId : ℤ
  projectId : ℤ
  owner : String
  address : String
  balanceType : BalanceType
  mint : String
  deriving DecidableEq

structure AppState where
  trackedAddresses : Finset String := ∅
  trackedRelations : Table String (List WalletRelation) := ∅

/-- A call. The address of the token account is derived by a hash of the wallet, the mint and the
token program. -/
inductive Call where
  | trackAddress (userId projectId : ℤ) (address mint tokenProgram : String)
  | trackToken (userId projectId : ℤ) (mint pool baseVault quoteVault : String)
  | untrackAddress (userId projectId : ℤ) (address : String)
  | untrackProject (projectId : ℤ)

namespace AppState

variable (s : AppState)

def getRelations (owner : String) : List WalletRelation := (AList.lookup owner s.trackedRelations).getD []

def ofUser (userId projectId : ℤ) (address : String) (x : WalletRelation) : Bool :=
  x.userId = userId && x.projectId = projectId && x.owner = address

def getTrackedAddressRelations (userId projectId : ℤ) (address : String) : List WalletRelation :=
  (s.getRelations address).filter (ofUser userId projectId address)

def trackAddress (userId projectId : ℤ) (address mint tokenPair : String) : AppState :=
  let trackedAddresses := insert tokenPair (insert address s.trackedAddresses)
  if s.getTrackedAddressRelations userId projectId address = [] then
    { trackedAddresses
      trackedRelations := AList.insert address (s.getRelations address ++
        [⟨userId, projectId, address, address, .wsol, mint⟩, ⟨userId, projectId, address, tokenPair, .tokens, mint⟩])
        s.trackedRelations }
  else { s with trackedAddresses }

def trackToken (userId projectId : ℤ) (mint pool baseVault quoteVault : String) : AppState :=
  let trackedAddresses := insert pool (insert quoteVault (insert baseVault s.trackedAddresses))
  if s.getTrackedAddressRelations userId projectId mint = [] then
    { trackedAddresses
      trackedRelations := AList.insert mint (s.getRelations mint ++
        [⟨userId, projectId, mint, baseVault, .base, mint⟩, ⟨userId, projectId, mint, quoteVault, .quote, mint⟩,
          ⟨userId, projectId, mint, pool, .pool, mint⟩])
        s.trackedRelations }
  else { s with trackedAddresses }

/-- Put back what remains of an owner's relations, or take the owner off the map. -/
def putBack (owner : String) (remaining : List WalletRelation) : Table String (List WalletRelation) :=
  if remaining = [] then AList.erase owner s.trackedRelations
  else AList.insert owner remaining s.trackedRelations

def untrackAddress (userId projectId : ℤ) (address : String) : AppState :=
  let current := s.getTrackedAddressRelations userId projectId address
  let remaining := (s.getRelations address).filter fun x => !ofUser userId projectId address x
  let removed := (current.filter fun rel => rel.owner ≠ rel.address).map WalletRelation.address
  { trackedAddresses :=
      if remaining = [] then (s.trackedAddresses \ removed.toFinset).erase address
      else s.trackedAddresses \ removed.toFinset
    trackedRelations := s.putBack address remaining }

/-- What `untrack_project` does with one owner. -/
def untrackOwner (projectId : ℤ) (owner : String) : AppState :=
  let all := s.getRelations owner
  let remaining := all.filter fun r => r.projectId ≠ projectId
  if remaining = [] then
    { trackedAddresses := (s.trackedAddresses \ (all.map WalletRelation.address).toFinset).erase owner
      trackedRelations := s.putBack owner remaining }
  else
    let unused := all.filter fun rel => rel.projectId = projectId && !remaining.any (·.address = rel.address)
    { trackedAddresses := s.trackedAddresses \ (unused.map WalletRelation.address).toFinset
      trackedRelations := s.putBack owner remaining }

/-- Each owner is looked at by itself, so it does not matter in which order the map is walked. -/
def untrackProject (projectId : ℤ) : AppState :=
  let owners := (AList.keys s.trackedRelations).filter fun owner =>
    (s.getRelations owner).any (·.projectId = projectId)
  owners.foldl (fun s owner => s.untrackOwner projectId owner) s

def perform (tokenAccount : String → String → String → String) : Call → AppState
  | .trackAddress userId projectId address mint tokenProgram =>
    s.trackAddress userId projectId address mint (tokenAccount address mint tokenProgram)
  | .trackToken userId projectId mint pool baseVault quoteVault =>
    s.trackToken userId projectId mint pool baseVault quoteVault
  | .untrackAddress userId projectId address => s.untrackAddress userId projectId address
  | .untrackProject projectId => s.untrackProject projectId

end AppState

def worker (tokenAccount : String → String → String → String) : Machine AppState Call where
  initial := {}
  step s call := some (s.perform tokenAccount call)

/-- Some relation has the address, among those that `keep` says. -/
def UsedBy (s : AppState) (keep : WalletRelation → Prop) (a : String) : Prop :=
  ∃ owner, ∃ r ∈ s.getRelations owner, keep r ∧ r.address = a

abbrev Used (s : AppState) : String → Prop := UsedBy s fun _ => True

/-- An address is tracked just when a relation has it. -/
def Matched (s : AppState) : Prop := ∀ a, a ∈ s.trackedAddresses ↔ Used s a

/-- The relations are filed under their owners. -/
def Filed (s : AppState) : Prop := ∀ owner, ∀ r ∈ s.getRelations owner, r.owner = owner

/-- A call keeps the match. Who is tracked already brings no new address. What a relation that goes had
is used by none that stays, or, when a whole project goes, by one that stays with the same owner. An
owner is left by its last relation only with the last use of its address, and by its last use only
with its last relation. -/
def Keeps (tokenAccount : String → String → String → String) (s : AppState) : Call → Prop
  | .trackAddress userId projectId address mint tokenProgram =>
    s.getTrackedAddressRelations userId projectId address ≠ [] →
      Used s address ∧ Used s (tokenAccount address mint tokenProgram)
  | .trackToken userId projectId mint pool baseVault quoteVault =>
    s.getTrackedAddressRelations userId projectId mint ≠ [] →
      Used s baseVault ∧ Used s quoteVault ∧ Used s pool
  | .untrackAddress userId projectId address =>
    let others := UsedBy s fun r => ¬AppState.ofUser userId projectId address r
    (∀ r ∈ s.getTrackedAddressRelations userId projectId address, r.address ≠ address → ¬others r.address) ∧
      ((∀ r ∈ s.getRelations address, AppState.ofUser userId projectId address r) → ¬others address) ∧
      (¬(∀ r ∈ s.getRelations address, AppState.ofUser userId projectId address r) → Used s address →
        others address)
  | .untrackProject projectId =>
    let others := UsedBy s fun r => r.projectId ≠ projectId
    ∀ owner, ∀ r ∈ s.getRelations owner, r.projectId = projectId →
      (others r.address → ∃ kept ∈ s.getRelations owner, kept.projectId ≠ projectId ∧ kept.address = r.address) ∧
      ((∀ other ∈ s.getRelations owner, other.projectId = projectId) → ¬others owner)

section Effects

variable {s : AppState} {owner o a address : String} {userId projectId : ℤ} {rels remaining : List WalletRelation}
  {tracked : Finset String} {keep : WalletRelation → Prop}

theorem getRelations_insert : (AppState.mk tracked (AList.insert owner rels s.trackedRelations)).getRelations o
    = if o = owner then rels else s.getRelations o := by
  rw [AppState.getRelations, Table.lookup_insert_eq]
  split <;> rfl

theorem getRelations_putBack : (AppState.mk tracked (s.putBack owner remaining)).getRelations o
    = if o = owner then remaining else s.getRelations o := by
  rw [AppState.putBack]
  split
  case isTrue nothing =>
    rw [AppState.getRelations, Table.lookup_erase_eq, nothing]
    split <;> rfl
  case isFalse => exact getRelations_insert

theorem filter_eq_nil {p : WalletRelation → Bool} : (rels.filter fun x => !p x) = [] ↔ ∀ x ∈ rels, p x := by
  simp [List.filter_eq_nil_iff]

theorem mem_untrackAddress : a ∈ (s.untrackAddress userId projectId address).trackedAddresses ↔
    a ∈ s.trackedAddresses ∧
      (¬∃ r ∈ s.getTrackedAddressRelations userId projectId address, r.owner ≠ r.address ∧ r.address = a) ∧
      ((∀ r ∈ s.getRelations address, AppState.ofUser userId projectId address r) → a ≠ address) := by
  have removed : a ∈ (((s.getTrackedAddressRelations userId projectId address).filter
      fun rel => rel.owner ≠ rel.address).map WalletRelation.address).toFinset ↔
      ∃ r ∈ s.getTrackedAddressRelations userId projectId address, r.owner ≠ r.address ∧ r.address = a := by
    simp [and_assoc]
  rw [AppState.untrackAddress]
  dsimp only
  split
  case isTrue nothing =>
    rw [filter_eq_nil] at nothing
    rw [Finset.mem_erase, Finset.mem_sdiff, removed]
    tauto
  case isFalse more =>
    rw [filter_eq_nil] at more
    rw [Finset.mem_sdiff, removed]
    tauto

theorem getRelations_untrackAddress : (s.untrackAddress userId projectId address).getRelations o
    = if o = address then (s.getRelations address).filter fun x => !AppState.ofUser userId projectId address x
      else s.getRelations o := getRelations_putBack

/-- The addresses that go with one owner when a project goes. -/
def Dropped (projectId : ℤ) (owner : String) (rels : List WalletRelation) (a : String) : Prop :=
  if ∀ r ∈ rels, r.projectId = projectId then a = owner ∨ ∃ r ∈ rels, r.address = a
  else ∃ r ∈ rels, r.projectId = projectId ∧ r.address = a ∧
    ∀ kept ∈ rels, kept.projectId ≠ projectId → kept.address ≠ a

theorem mem_untrackOwner : a ∈ (s.untrackOwner projectId owner).trackedAddresses ↔
    a ∈ s.trackedAddresses ∧ ¬Dropped projectId owner (s.getRelations owner) a := by
  have nothing_left : ((s.getRelations owner).filter fun r => r.projectId ≠ projectId) = [] ↔
      ∀ r ∈ s.getRelations owner, r.projectId = projectId := by
    simp [List.filter_eq_nil_iff]
  rw [AppState.untrackOwner, Dropped]
  dsimp only
  by_cases all : ∀ r ∈ s.getRelations owner, r.projectId = projectId
  · rw [if_pos (nothing_left.mpr all), if_pos all, Finset.mem_erase, Finset.mem_sdiff, List.mem_toFinset,
      List.mem_map, not_or]
    exact and_left_comm
  · rw [if_neg (nothing_left.not.mpr all), if_neg all, Finset.mem_sdiff, List.mem_toFinset, List.mem_map]
    refine and_congr_right fun _ => not_congr (exists_congr fun r => ?_)
    simp only [List.mem_filter, Bool.and_eq_true, decide_eq_true_eq, Bool.not_eq_true', List.any_eq_false,
      ne_eq]
    constructor
    · rintro ⟨⟨member, ours, unused⟩, rfl⟩
      exact ⟨member, ours, rfl, fun kept there other => unused kept ⟨there, other⟩⟩
    · rintro ⟨member, ours, rfl, unused⟩
      exact ⟨⟨member, ours, fun kept both => unused kept both.1 both.2⟩, rfl⟩

theorem getRelations_untrackOwner : (s.untrackOwner projectId owner).getRelations o
    = if o = owner then (s.getRelations owner).filter fun r => r.projectId ≠ projectId else s.getRelations o := by
  rw [AppState.untrackOwner]
  dsimp only
  split <;> exact getRelations_putBack

section Projects

variable {owners : List String}

theorem getRelations_foldl_untrackOwner (distinct : owners.Nodup) :
    (owners.foldl (fun s owner => s.untrackOwner projectId owner) s).getRelations o
      = if o ∈ owners then (s.getRelations o).filter fun r => r.projectId ≠ projectId else s.getRelations o := by
  induction owners generalizing s with
  | nil => rfl
  | cons owner owners ih =>
    obtain ⟨new, distinct⟩ := List.nodup_cons.mp distinct
    rw [List.foldl_cons, ih distinct, getRelations_untrackOwner]
    obtain rfl | other := eq_or_ne o owner
    · simp [new]
    · simp [other]

theorem mem_foldl_untrackOwner (distinct : owners.Nodup) :
    a ∈ (owners.foldl (fun s owner => s.untrackOwner projectId owner) s).trackedAddresses ↔
      a ∈ s.trackedAddresses ∧ ∀ owner ∈ owners, ¬Dropped projectId owner (s.getRelations owner) a := by
  induction owners generalizing s with
  | nil => simp
  | cons owner owners ih =>
    obtain ⟨new, distinct⟩ := List.nodup_cons.mp distinct
    have others : ∀ o ∈ owners, (s.untrackOwner projectId owner).getRelations o = s.getRelations o := by
      intro o member
      rw [getRelations_untrackOwner, if_neg (ne_of_mem_of_not_mem member new)]
    rw [List.foldl_cons, ih distinct, mem_untrackOwner, List.forall_mem_cons, and_assoc]
    refine and_congr_right fun _ => and_congr_right fun _ => forall₂_congr fun o member => ?_
    rw [others o member]

theorem mem_owners : owner ∈ (AList.keys s.trackedRelations).filter (fun owner =>
    (s.getRelations owner).any (·.projectId = projectId)) ↔ ∃ r ∈ s.getRelations owner, r.projectId = projectId := by
  simp only [List.mem_filter, List.any_eq_true, decide_eq_true_eq]
  refine and_iff_right_of_imp ?_
  rintro ⟨r, member, -⟩
  by_contra missing
  rw [AppState.getRelations, AList.lookup_eq_none.mpr missing] at member
  cases member

theorem getRelations_untrackProject : (s.untrackProject projectId).getRelations o
    = (s.getRelations o).filter fun r => r.projectId ≠ projectId := by
  rw [AppState.untrackProject, getRelations_foldl_untrackOwner ((AList.keys_nodup _).filter _)]
  split
  case isTrue => rfl
  case isFalse none =>
    rw [mem_owners] at none
    refine (List.filter_eq_self.mpr fun r member => ?_).symm
    simp only [ne_eq, decide_not, Bool.not_eq_true', decide_eq_false_iff_not]
    exact fun ours => none ⟨r, member, ours⟩

theorem mem_untrackProject : a ∈ (s.untrackProject projectId).trackedAddresses ↔ a ∈ s.trackedAddresses ∧
    ∀ owner, (∃ r ∈ s.getRelations owner, r.projectId = projectId) →
      ¬Dropped projectId owner (s.getRelations owner) a := by
  rw [AppState.untrackProject, mem_foldl_untrackOwner ((AList.keys_nodup _).filter _)]
  simp only [mem_owners]

end Projects

end Effects

section Steps

variable {s : AppState} {a address mint tokenPair pool baseVault quoteVault : String} {userId projectId : ℤ}
  {tokenAccount : String → String → String → String} {call : Call} {rels : List WalletRelation}

/-- New relations under one owner, and their addresses tracked. -/
theorem usedBy_push {tracked : Finset String} {keep : WalletRelation → Prop} :
    UsedBy (AppState.mk tracked (AList.insert address (s.getRelations address ++ rels) s.trackedRelations)) keep a ↔
      UsedBy s keep a ∨ ∃ r ∈ rels, keep r ∧ r.address = a := by
  simp only [UsedBy, getRelations_insert]
  constructor
  · rintro ⟨owner, r, member, kept⟩
    split at member
    case isTrue same =>
      obtain old | new := List.mem_append.mp member
      · exact .inl ⟨address, r, old, kept⟩
      · exact .inr ⟨r, new, kept⟩
    case isFalse => exact .inl ⟨owner, r, member, kept⟩
  · rintro (⟨owner, r, member, kept⟩ | ⟨r, member, kept⟩)
    · refine ⟨owner, r, ?_, kept⟩
      split
      case isTrue same => exact List.mem_append_left _ (same ▸ member)
      case isFalse => exact member
    · exact ⟨address, r, by rw [if_pos rfl]; exact List.mem_append_right _ member, kept⟩

section Tracks

variable {tracked : Finset String} {added : List String}

theorem matched_push (matched : Matched s) (more : ∀ a, a ∈ tracked ↔ a ∈ added ∨ a ∈ s.trackedAddresses)
    (same : rels.map WalletRelation.address = added) :
    Matched ⟨tracked, AList.insert address (s.getRelations address ++ rels) s.trackedRelations⟩ := by
  intro a
  rw [Used, usedBy_push, more, ← same, List.mem_map, or_comm]
  exact or_congr (matched a) (by simp only [true_and])

theorem matched_more (matched : Matched s) (more : ∀ a, a ∈ tracked ↔ a ∈ added ∨ a ∈ s.trackedAddresses) :
    Matched { s with trackedAddresses := tracked } ↔ ∀ a ∈ added, Used s a := by
  constructor
  · intro after a new
    exact (after a).mp ((more a).mpr (.inl new))
  · intro used a
    refine (more a).trans ⟨?_, fun known => .inr ((matched a).mpr known)⟩
    rintro (new | old)
    · exact used a new
    · exact (matched a).mp old

end Tracks

theorem matched_trackAddress (matched : Matched s) :
    Matched (s.trackAddress userId projectId address mint tokenPair) ↔
      (s.getTrackedAddressRelations userId projectId address ≠ [] → Used s address ∧ Used s tokenPair) := by
  have more (a) : a ∈ insert tokenPair (insert address s.trackedAddresses) ↔
      a ∈ [address, tokenPair] ∨ a ∈ s.trackedAddresses := by
    simp [or_assoc, or_left_comm]
  rw [AppState.trackAddress]
  split
  case isTrue new => exact iff_of_true (matched_push matched more rfl) fun known => absurd new known
  case isFalse known =>
    rw [matched_more matched more, imp_iff_right known]
    simp

theorem matched_trackToken (matched : Matched s) :
    Matched (s.trackToken userId projectId mint pool baseVault quoteVault) ↔
      (s.getTrackedAddressRelations userId projectId mint ≠ [] →
        Used s baseVault ∧ Used s quoteVault ∧ Used s pool) := by
  have more (a) : a ∈ insert pool (insert quoteVault (insert baseVault s.trackedAddresses)) ↔
      a ∈ [baseVault, quoteVault, pool] ∨ a ∈ s.trackedAddresses := by
    simp only [Finset.mem_insert, List.mem_cons, List.not_mem_nil, or_false]
    tauto
  rw [AppState.trackToken]
  split
  case isTrue new => exact iff_of_true (matched_push matched more rfl) fun known => absurd new known
  case isFalse known =>
    rw [matched_more matched more, imp_iff_right known]
    simp

theorem used_untrackAddress (filed : Filed s) : Used (s.untrackAddress userId projectId address) a ↔
    UsedBy s (fun r => ¬AppState.ofUser userId projectId address r) a := by
  simp only [Used, UsedBy, getRelations_untrackAddress, true_and]
  refine exists_congr fun owner => exists_congr fun r => ?_
  split
  case isTrue same => rw [same, List.mem_filter, Bool.not_eq_true', ← Bool.not_eq_true, and_assoc]
  case isFalse other =>
    refine and_congr_right fun member => (and_iff_right ?_).symm
    have elsewhere : r.owner ≠ address := (filed owner r member).trans_ne other
    simp [AppState.ofUser, elsewhere]

theorem UsedBy.mono {keep : WalletRelation → Prop} (used : UsedBy s keep a) : Used s a := by
  obtain ⟨owner, r, member, -, is⟩ := used
  exact ⟨owner, r, member, trivial, is⟩

/-- The relations that a call takes away are the user's own, and the others stay. -/
theorem used_cases (filed : Filed s) (used : Used s a) :
    UsedBy s (fun r => ¬AppState.ofUser userId projectId address r) a ∨
      ∃ r ∈ s.getTrackedAddressRelations userId projectId address, r.address = a := by
  obtain ⟨owner, r, member, -, is⟩ := used
  by_cases ours : AppState.ofUser userId projectId address r
  · have here : r.owner = address := by
      simp only [AppState.ofUser, Bool.and_eq_true, decide_eq_true_eq] at ours
      exact ours.2
    obtain rfl : owner = address := (filed owner r member).symm.trans here
    exact .inr ⟨r, List.mem_filter.mpr ⟨member, ours⟩, is⟩
  · exact .inl ⟨owner, r, member, ours, is⟩

theorem matched_untrackAddress (filed : Filed s) (matched : Matched s) :
    Matched (s.untrackAddress userId projectId address) ↔
      Keeps tokenAccount s (.untrackAddress userId projectId address) := by
  have owner_is {r} (member : r ∈ s.getTrackedAddressRelations userId projectId address) : r.owner = address :=
    filed address r (List.mem_filter.mp member).1
  simp only [Matched, mem_untrackAddress, used_untrackAddress filed, matched _, Keeps]
  constructor
  · intro after
    refine ⟨fun r member other used => ?_, fun last used => ?_, fun more used => ?_⟩
    · refine ((after _).mpr used).2.1 ⟨r, member, ?_, rfl⟩
      rw [owner_is member]
      exact other.symm
    · exact ((after _).mpr used).2.2 last rfl
    · refine (after address).mp ⟨used, ?_, fun last => absurd last more⟩
      rintro ⟨r, member, other, is⟩
      exact other ((owner_is member).trans is.symm)
  · rintro ⟨alone, last, more⟩ a
    constructor
    · rintro ⟨used, kept, left⟩
      obtain other | ⟨r, member, rfl⟩ := used_cases filed used
      · exact other
      · have same : r.address = address := by
          by_contra other
          exact kept ⟨r, member, by rw [owner_is member]; exact Ne.symm other, rfl⟩
        rw [same] at used left ⊢
        exact more (fun last => left last rfl) used
    · intro used
      refine ⟨used.mono, ?_, ?_⟩
      · rintro ⟨r, member, other, rfl⟩
        rw [owner_is member] at other
        exact alone r member (Ne.symm other) used
      · rintro all rfl
        exact last all used

theorem used_untrackProject : Used (s.untrackProject projectId) a ↔ UsedBy s (fun r => r.projectId ≠ projectId) a := by
  simp only [Used, UsedBy, getRelations_untrackProject, List.mem_filter, decide_eq_true_eq, true_and, and_assoc]

theorem matched_untrackProject (matched : Matched s) :
    Matched (s.untrackProject projectId) ↔ Keeps tokenAccount s (.untrackProject projectId) := by
  simp only [Matched, mem_untrackProject, used_untrackProject, matched _, Keeps]
  constructor
  · intro after owner r member ours
    refine ⟨fun used => ?_, fun all used => ?_⟩
    · have kept := ((after _).mpr used).2 owner ⟨r, member, ours⟩
      rw [Dropped] at kept
      split at kept
      case isTrue => exact absurd (.inr ⟨r, member, rfl⟩) kept
      case isFalse =>
        by_contra none
        exact kept ⟨r, member, ours, rfl, fun other there theirs same => none ⟨other, there, theirs, same⟩⟩
    · have kept := ((after _).mpr used).2 owner ⟨r, member, ours⟩
      rw [Dropped, if_pos all] at kept
      exact kept (.inl rfl)
  · intro keeps a
    constructor
    · rintro ⟨⟨owner, r, member, -, rfl⟩, kept⟩
      by_cases ours : r.projectId = projectId
      · have kept := kept owner ⟨r, member, ours⟩
        rw [Dropped] at kept
        split at kept
        case isTrue => exact absurd (.inr ⟨r, member, rfl⟩) kept
        case isFalse =>
          by_contra none
          exact kept ⟨r, member, ours, rfl, fun other there theirs same =>
            none ⟨owner, other, there, theirs, same⟩⟩
      · exact ⟨owner, r, member, ours, rfl⟩
    · intro used
      refine ⟨used.mono, fun owner ⟨r, member, ours⟩ dropped => ?_⟩
      rw [Dropped] at dropped
      split at dropped
      case isTrue all =>
        obtain rfl | ⟨old, there, rfl⟩ := dropped
        · exact (keeps a r member ours).2 all used
        · obtain ⟨kept, stays, theirs, -⟩ := (keeps owner old there (all old there)).1 used
          exact theirs (all kept stays)
      case isFalse =>
        obtain ⟨old, there, mine, rfl, unused⟩ := dropped
        obtain ⟨kept, stays, theirs, same⟩ := (keeps owner old there mine).1 used
        exact unused kept stays theirs same

theorem matched_perform (filed : Filed s) (matched : Matched s) :
    Matched (s.perform tokenAccount call) ↔ Keeps tokenAccount s call := by
  cases call with
  | trackAddress => exact matched_trackAddress matched
  | trackToken => exact matched_trackToken matched
  | untrackAddress => exact matched_untrackAddress filed matched
  | untrackProject => exact matched_untrackProject matched

theorem filed_push {tracked : Finset String} (filed : Filed s) (own : ∀ r ∈ rels, r.owner = address) :
    Filed ⟨tracked, AList.insert address (s.getRelations address ++ rels) s.trackedRelations⟩ := by
  intro owner r member
  rw [getRelations_insert] at member
  split at member
  case isTrue same =>
    obtain old | new := List.mem_append.mp member
    · exact same ▸ filed address r old
    · exact same ▸ own r new
  case isFalse => exact filed owner r member

theorem Filed.perform (filed : Filed s) : Filed (s.perform tokenAccount call) := by
  cases call with
  | trackAddress userId projectId address mint tokenProgram =>
    rw [AppState.perform, AppState.trackAddress]
    split
    case isTrue => exact filed_push filed (by simp)
    case isFalse => exact filed
  | trackToken userId projectId mint pool baseVault quoteVault =>
    rw [AppState.perform, AppState.trackToken]
    split
    case isTrue => exact filed_push filed (by simp)
    case isFalse => exact filed
  | untrackAddress userId projectId address =>
    intro owner r member
    rw [AppState.perform, getRelations_untrackAddress] at member
    split at member
    case isTrue same => exact same ▸ filed address r (List.mem_filter.mp member).1
    case isFalse => exact filed owner r member
  | untrackProject projectId =>
    intro owner r member
    rw [AppState.perform, getRelations_untrackProject] at member
    exact filed owner r (List.mem_filter.mp member).1

end Steps

section Runs

variable {s : AppState}

theorem start_empty {owner : String} : ({} : AppState).getRelations owner = [] := by
  simp [AppState.getRelations]

theorem matched_iff : Matched s ↔
    ∀ a, a ∈ s.trackedAddresses ↔ ∃ owner, ∃ r ∈ s.getRelations owner, r.address = a := by
  simp only [Matched, Used, UsedBy, true_and]

/-- As long as every call keeps the match, an address is tracked exactly when some relation has it;
and a call from such a state keeps the match if and only if it meets the condition. -/
theorem tracked_matches (tokenAccount : String → String → String → String)
    (reached : (worker tokenAccount).Reaches (Keeps tokenAccount) s) :
    (∀ a, a ∈ s.trackedAddresses ↔ ∃ owner, ∃ r ∈ s.getRelations owner, r.address = a) ∧
      ∀ call t, (worker tokenAccount).step s call = some t →
        ((∀ a, a ∈ t.trackedAddresses ↔ ∃ owner, ∃ r ∈ t.getRelations owner, r.address = a) ↔
          Keeps tokenAccount s call) := by
  have invariant : Matched s ∧ Filed s := by
    refine reached.invariant (fun s => Matched s ∧ Filed s) ⟨fun a => ?_, fun owner r member => ?_⟩
      fun s call t ⟨matched, filed⟩ keeps taken => ?_
    · simp [Used, UsedBy, worker, start_empty]
    · rw [worker, start_empty] at member
      cases member
    · obtain rfl := Option.some.inj taken
      exact ⟨(matched_perform filed matched).mpr keeps, filed.perform⟩
  obtain ⟨matched, filed⟩ := invariant
  simp only [← matched_iff]
  refine ⟨matched, fun call t taken => ?_⟩
  obtain rfl := Option.some.inj taken
  exact matched_perform filed matched

/-- How the token account of a wallet is named in the examples of runs. -/
def plainAccount (address mint _ : String) : String := address ++ "/" ++ mint

theorem tracked_matches_wallet : ∃ s, (worker plainAccount).step (worker plainAccount).initial
      (.trackAddress 1 10 "w" "m" "p") = some s ∧ "w/m" ∈ s.trackedAddresses ∧
    ∀ a, a ∈ s.trackedAddresses ↔ ∃ owner, ∃ r ∈ s.getRelations owner, r.address = a :=
  ⟨_, rfl, by decide, (tracked_matches plainAccount
    (.step (a := .trackAddress 1 10 "w" "m" "p") .initial (fun known => absurd rfl known) rfl)).1⟩

/-- Two projects with one mint track a wallet, and one of them stops: the token account is no longer
tracked although the other project has a relation with it. -/
theorem tracked_matches_fails : ∃ s, (worker plainAccount).Reachable s ∧ "w/m" ∉ s.trackedAddresses ∧
    ∃ r ∈ s.getRelations "w", r.projectId = 20 ∧ r.address = "w/m" :=
  Machine.Reachable.of_trace (worker plainAccount)
    [.trackAddress 1 10 "w" "m" "p", .trackAddress 1 20 "w" "m" "p", .untrackAddress 1 10 "w"]
    (fun s => "w/m" ∉ s.trackedAddresses ∧ ∃ r ∈ s.getRelations "w", r.projectId = 20 ∧ r.address = "w/m")
    (by decide)

end Runs

end RndRust.VolumeMaker.Tracking
