import RndRust.VolumeMaker.Evm.Transactions

/-! Which records a recovery leaves of the transactions that are mined. -/
namespace RndRust.VolumeMaker.Evm
open Lib

/-- Every network that is asked for is known. -/
theorem fromNetworkName_isSome {name : String} (listed : name ∈ evmNetworks) : (Network.fromNetworkName name).isSome := by
  revert name
  decide

theorem parse_some {txHash : TxHash} {tx : ℕ} : txHash.parse = some tx ↔ txHash = ⟨tx, none⟩ := by
  obtain ⟨tx', leg⟩ := txHash
  cases leg with
  | none => simp [TxHash.parse]
  | some leg => simp [TxHash.parse]

namespace Ledger

/-- The transaction was mined and succeeded. -/
def isMined (s : Ledger) (tx : ℕ) : Prop := ∃ sent ∈ s.submitted[tx]?, ∃ receipt ∈ sent.receipt, receipt.status = true

instance (s : Ledger) (tx : ℕ) : Decidable (s.isMined tx) :=
  inferInstanceAs (Decidable (∃ sent ∈ s.submitted[tx]?, ∃ receipt ∈ sent.receipt, receipt.status = true))

def hasRecord (s : Ledger) (txHash : TxHash) : Prop := ∃ record ∈ s.transactions, record.txHash = txHash

instance (s : Ledger) (txHash : TxHash) : Decidable (s.hasRecord txHash) :=
  inferInstanceAs (Decidable (∃ record ∈ s.transactions, record.txHash = txHash))

/-- A transaction stored under its hash has its record once it is mined, unless a recovery asked
for its receipt before. -/
def KeepsMined (s : Ledger) : Prop :=
  ∀ tx, ⟨tx, none⟩ ∈ s.stored → s.isMined tx → tx ∉ s.asked → s.hasRecord ⟨tx, none⟩

/-- An id is given once, to one hash. -/
structure Holds (s : Ledger) (tx : Transaction) : Prop where
  given : tx.id < s.nextId
  same : ∀ record ∈ s.transactions, record.id = tx.id → record.txHash = tx.txHash

structure Holding (s : Ledger) (entry : ValidTx) : Prop where
  holds : s.Holds entry.tx
  hash : entry.tx.txHash = ⟨entry.hash, none⟩

/-- An entry that is answered with no receipt was asked for when there was none. -/
structure Answered (s : Ledger) (x : ValidTx × Option Answer) : Prop where
  entry : s.Holding x.1
  asked : x.2 = some .none → x.1.hash ∈ s.asked

/-- A recovery goes through records that were there and that may have been changed since. -/
def Sound (s : Ledger) : Recovery → Prop
  | .filtering pending valid =>
    (∀ tx ∈ pending, s.Holds tx ∧ tx.network ∈ evmNetworks) ∧ ∀ entry ∈ valid, s.Holding entry
  | .asking chunk later _ => (∀ x ∈ chunk, s.Answered x) ∧ ∀ entry ∈ later, s.Holding entry
  | .handling results later _ => (∀ x ∈ results, s.Answered x) ∧ ∀ entry ∈ later, s.Holding entry
  | .updating _ => True
  | .finished => True

structure Recorded (s : Ledger) : Prop where
  records : ∀ record ∈ s.transactions, s.Holds record
  recoveries : ∀ recovery ∈ s.recoveries, s.Sound recovery
  kept : ∀ tx, ⟨tx, none⟩ ∈ s.stored → tx ∉ s.asked → s.hasRecord ⟨tx, none⟩

/-- No id gets another hash, and nothing is unasked. -/
structure Extends (s s' : Ledger) : Prop where
  ids : s.nextId ≤ s'.nextId
  old : ∀ record ∈ s'.transactions, record.id < s.nextId →
    ∃ before ∈ s.transactions, before.id = record.id ∧ before.txHash = record.txHash
  asked : ∀ tx ∈ s.asked, tx ∈ s'.asked

section Steps

variable {s s' t : Ledger} {tx : Transaction} {entry : ValidTx} {x : ValidTx × Option Answer}
  {recovery : Recovery} {new : NewTransaction} {txHash : TxHash} {slot id : ℕ}

theorem Holds.extend (holds : s.Holds tx) (ext : Extends s s') : s'.Holds tx where
  given := Nat.lt_of_lt_of_le holds.given ext.ids
  same record member same := by
    obtain ⟨before, old, id, hash⟩ := ext.old record member (same ▸ holds.given)
    rw [← hash]
    exact holds.same before old (id.trans same)

theorem Holding.extend (holding : s.Holding entry) (ext : Extends s s') : s'.Holding entry :=
  ⟨holding.holds.extend ext, holding.hash⟩

theorem Answered.extend (answered : s.Answered x) (ext : Extends s s') : s'.Answered x :=
  ⟨answered.entry.extend ext, fun none => ext.asked _ (answered.asked none)⟩

theorem Sound.extend (sound : s.Sound recovery) (ext : Extends s s') : s'.Sound recovery := by
  cases recovery with
  | filtering pending valid =>
    obtain ⟨pending, valid⟩ := sound
    exact ⟨fun tx member => ⟨(pending tx member).1.extend ext, (pending tx member).2⟩,
      fun entry member => (valid entry member).extend ext⟩
  | asking chunk later confirmed =>
    obtain ⟨chunk, later⟩ := sound
    exact ⟨fun x member => (chunk x member).extend ext, fun entry member => (later entry member).extend ext⟩
  | handling results later confirmed =>
    obtain ⟨results, later⟩ := sound
    exact ⟨fun x member => (results x member).extend ext, fun entry member => (later entry member).extend ext⟩
  | updating confirmed => trivial
  | finished => trivial

/-- The records and what was asked are as they were. -/
theorem Extends.of_eq (ids : s'.nextId = s.nextId) (transactions : s'.transactions = s.transactions)
    (asked : s'.asked = s.asked) : Extends s s' where
  ids := Nat.le_of_eq ids.symm
  old record member _ := ⟨record, transactions ▸ member, rfl, rfl⟩
  asked _ member := asked ▸ member

theorem Recorded.extend (recorded : s.Recorded) (ext : Extends s s') (recoveries : s'.recoveries = s.recoveries)
    (records : ∀ record ∈ s'.transactions, s'.Holds record)
    (kept : ∀ tx, ⟨tx, none⟩ ∈ s'.stored → tx ∉ s'.asked → s'.hasRecord ⟨tx, none⟩) : s'.Recorded where
  records := records
  recoveries := by
    rw [recoveries]
    exact fun recovery member => (recorded.recoveries recovery member).extend ext
  kept := kept

/-- What neither touches the records nor the recoveries. -/
theorem Recorded.frame (recorded : s.Recorded) {submitted : List Submitted} {events : List StreamType} :
    Recorded { s with submitted, events } := by
  have ext : Extends s { s with submitted, events } := .of_eq rfl rfl rfl
  exact recorded.extend ext rfl (fun record member => (recorded.records record member).extend ext) recorded.kept

theorem Recorded.addTransaction (recorded : s.Recorded) : (s.addTransaction new).Recorded := by
  unfold Ledger.addTransaction
  split
  · exact recorded
  · have ext : Extends s { s with
        transactions := s.transactions ++ [⟨s.nextId, new.slot, new.network, new.txHash⟩]
        nextId := s.nextId + 1
        stored := if new.slot = 0 then s.stored ++ [new.txHash] else s.stored } := by
      refine ⟨Nat.le_succ _, ?_, fun _ => id⟩
      intro record member earlier
      rcases List.mem_append.mp member with old | fresh
      · exact ⟨record, old, rfl, rfl⟩
      · obtain rfl := List.mem_singleton.mp fresh
        exact absurd earlier (Nat.lt_irrefl _)
    refine recorded.extend ext rfl ?_ ?_
    · intro record member
      rcases List.mem_append.mp member with old | fresh
      · exact (recorded.records record old).extend ext
      · obtain rfl := List.mem_singleton.mp fresh
        refine ⟨Nat.lt_succ_self _, fun record' member' same => ?_⟩
        rcases List.mem_append.mp member' with old' | fresh'
        · have earlier := (recorded.records record' old').given
          rw [same] at earlier
          exact absurd earlier (Nat.lt_irrefl _)
        · obtain rfl := List.mem_singleton.mp fresh'
          rfl
    · intro tx stored asked
      by_cases before : ⟨tx, none⟩ ∈ s.stored
      · obtain ⟨record, member, hash⟩ := recorded.kept tx before asked
        exact ⟨record, List.mem_append_left _ member, hash⟩
      · refine ⟨_, List.mem_append_right _ (List.mem_singleton_self _), ?_⟩
        dsimp only at stored
        split at stored
        · exact (List.mem_singleton.mp ((List.mem_append.mp stored).resolve_left before)).symm
        · exact absurd stored before

theorem Recorded.addTransactions {all : List NewTransaction} (recorded : s.Recorded) :
    (all.foldl Ledger.addTransaction s).Recorded := by
  induction all generalizing s with
  | nil => exact recorded
  | cons new all ih => exact ih recorded.addTransaction

theorem mem_updateTransactionSlot {record : Transaction} (member : record ∈ (s.updateTransactionSlot txHash slot).transactions) :
    ∃ before ∈ s.transactions, before.id = record.id ∧ before.txHash = record.txHash := by
  obtain ⟨before, old, rfl⟩ := List.mem_map.mp member
  refine ⟨before, old, ?_⟩
  split <;> exact ⟨rfl, rfl⟩

theorem extends_updateTransactionSlot : Extends s (s.updateTransactionSlot txHash slot) :=
  ⟨Nat.le_refl _, fun _ member _ => mem_updateTransactionSlot member, fun _ => id⟩

theorem Recorded.updateTransactionSlot (recorded : s.Recorded) : (s.updateTransactionSlot txHash slot).Recorded := by
  refine recorded.extend extends_updateTransactionSlot rfl ?_ ?_
  · intro record member
    obtain ⟨before, old, id, hash⟩ := mem_updateTransactionSlot member
    have holds := (recorded.records before old).extend (@extends_updateTransactionSlot s txHash slot)
    refine ⟨id ▸ holds.given, fun record' member' same => ?_⟩
    rw [← hash]
    exact holds.same record' member' (same.trans id.symm)
  · intro tx stored asked
    obtain ⟨record, member, hash⟩ := recorded.kept tx stored asked
    refine ⟨_, List.mem_map_of_mem member, ?_⟩
    split <;> exact hash

theorem extends_deleteTransaction : Extends s (s.deleteTransaction id) :=
  ⟨Nat.le_refl _, fun record member _ => ⟨record, (List.mem_filter.mp member).1, rfl, rfl⟩, fun _ member => member⟩

/-- A record may be deleted that is not that of a transaction, or was asked for in time. -/
theorem Recorded.deleteTransaction (recorded : s.Recorded) (holds : s.Holds tx)
    (may : ∀ hash, tx.txHash = ⟨hash, none⟩ → hash ∈ s.asked) : (s.deleteTransaction tx.id).Recorded := by
  refine recorded.extend extends_deleteTransaction rfl ?_ ?_
  · intro record member
    exact (recorded.records record (List.mem_filter.mp member).1).extend extends_deleteTransaction
  · intro hash stored asked
    obtain ⟨record, member, is⟩ := recorded.kept hash stored asked
    refine ⟨record, List.mem_filter.mpr ⟨member, decide_eq_true ?_⟩, is⟩
    intro same
    rw [holds.same record member same] at is
    exact asked (may hash is)

theorem Recorded.deleteIf (recorded : s.Recorded) {ok : Bool} (holds : s.Holds tx)
    (may : ∀ hash, tx.txHash = ⟨hash, none⟩ → hash ∈ s.asked) : (s.deleteIf ok tx.id).Recorded := by
  unfold Ledger.deleteIf
  split
  · exact recorded.deleteTransaction holds may
  · exact recorded

theorem extends_deleteIf {ok : Bool} : Extends s (s.deleteIf ok id) := by
  unfold Ledger.deleteIf
  split
  · exact extends_deleteTransaction
  · exact .of_eq rfl rfl rfl

theorem recoveries_deleteIf {ok : Bool} : (s.deleteIf ok id).recoveries = s.recoveries := by
  unfold Ledger.deleteIf
  split <;> rfl

theorem Recorded.processEventDbWrite (recorded : s.Recorded) {event : StreamType} :
    (s.processEventDbWrite event).Recorded := by
  unfold Ledger.processEventDbWrite
  split
  · split
    · exact recorded.updateTransactionSlot
    · exact recorded.addTransaction
  · exact recorded.addTransactions
  · exact recorded.updateTransactionSlot

theorem Recorded.setRecovery (recorded : s.Recorded) {recoveries : List Recovery}
    (sound : ∀ recovery ∈ recoveries, s.Sound recovery) : Recorded { s with recoveries } := by
  have ext : Extends s { s with recoveries } := .of_eq rfl rfl rfl
  exact ⟨fun record member => (recorded.records record member).extend ext,
    fun recovery member => (sound recovery member).extend ext, recorded.kept⟩

theorem sound_nextChunk {valid : List ValidTx} {confirmed : List (ValidTx × TransactionReceipt)}
    (holding : ∀ entry ∈ valid, s.Holding entry) : s.Sound (nextChunk valid confirmed) := by
  unfold nextChunk
  split
  · trivial
  · refine ⟨?_, fun entry member => holding entry (List.mem_of_mem_drop member)⟩
    intro x member
    obtain ⟨entry, listed, rfl⟩ := List.mem_map.mp member
    exact ⟨holding entry (List.mem_of_mem_take listed), fun none => nomatch none⟩

/-- What a step of a recovery leaves. -/
structure Resolved (s t : Ledger) (next : Recovery) : Prop where
  recorded : t.Recorded
  recoveries : t.recoveries = s.recoveries
  sound : t.Sound next

theorem Recorded.stays (recorded : s.Recorded) {next : Recovery} (sound : s.Sound next) : Resolved s s next :=
  ⟨recorded, rfl, sound⟩

/-- A recovery deletes a record and goes on with the rest. -/
theorem Recorded.deletes (recorded : s.Recorded) {ok : Bool} {next : Recovery} (holds : s.Holds tx)
    (may : ∀ hash, tx.txHash = ⟨hash, none⟩ → hash ∈ s.asked) (sound : s.Sound next) :
    Resolved s (s.deleteIf ok tx.id) next :=
  ⟨recorded.deleteIf holds may, recoveries_deleteIf, sound.extend extends_deleteIf⟩

/-- A record may be deleted when its hash does not parse, and when it was answered that there is
no receipt; its network is known. -/
theorem Recorded.resolve (recorded : s.Recorded) {ok : Bool} {next : Recovery} (sound : s.Sound recovery)
    (taken : s.resolve ok recovery = some (t, next)) : Resolved s t next := by
  cases recovery with
  | filtering pending valid =>
    obtain ⟨listed, holding⟩ := sound
    cases pending with
    | nil =>
      cases taken
      exact recorded.stays (sound_nextChunk holding)
    | cons tx pending =>
      obtain ⟨holds, network⟩ := listed tx List.mem_cons_self
      have rest : ∀ tx ∈ pending, s.Holds tx ∧ tx.network ∈ evmNetworks :=
        fun tx member => listed tx (List.mem_cons_of_mem _ member)
      unfold Ledger.resolve at taken
      dsimp only at taken
      split at taken
      · rename_i unknown
        have known := fromNetworkName_isSome network
        rw [unknown] at known
        cases known
      · rename_i invalid
        cases taken
        refine recorded.deletes holds (fun hash is => ?_) ⟨rest, holding⟩
        rw [parse_some.mpr is] at invalid
        cases invalid
      · rename_i hash parsed
        cases taken
        refine recorded.stays ⟨rest, fun entry member => ?_⟩
        rcases List.mem_append.mp member with old | fresh
        · exact holding entry old
        · obtain rfl := List.mem_singleton.mp fresh
          exact ⟨holds, parse_some.mp parsed⟩
  | asking chunk later confirmed =>
    unfold Ledger.resolve at taken
    dsimp only at taken
    split at taken
    · cases taken
      exact recorded.stays sound
    · cases taken
  | handling results later confirmed =>
    obtain ⟨answered, holding⟩ := sound
    cases results with
    | nil =>
      cases taken
      exact recorded.stays (sound_nextChunk holding)
    | cons x results =>
      obtain ⟨entry, answer⟩ := x
      have this := answered (entry, answer) List.mem_cons_self
      have rest : ∀ x ∈ results, s.Answered x := fun x member => answered x (List.mem_cons_of_mem _ member)
      unfold Ledger.resolve at taken
      dsimp only at taken
      split at taken
      · cases taken
        exact recorded.stays ⟨rest, holding⟩
      · cases taken
        refine recorded.deletes this.entry.holds (fun hash is => ?_) ⟨rest, holding⟩
        have same : entry.hash = hash := by
          have both := this.entry.hash.symm.trans is
          cases both
          rfl
        exact same ▸ this.asked rfl
      · cases taken
        exact recorded.stays ⟨rest, holding⟩
      · cases taken
        exact recorded.stays ⟨rest, holding⟩
  | updating confirmed =>
    cases confirmed with
    | nil =>
      cases taken
      exact recorded.stays trivial
    | cons x confirmed =>
      unfold Ledger.resolve at taken
      dsimp only at taken
      split at taken
      · cases taken
        exact ⟨recorded.updateTransactionSlot, rfl, trivial⟩
      · cases taken
        exact recorded.stays trivial
  | finished => cases taken

/-- More is asked for. -/
theorem Recorded.ask (recorded : s.Recorded) {asked : List ℕ} (more : ∀ tx ∈ s.asked, tx ∈ asked) :
    Extends s { s with asked } ∧ Recorded { s with asked } := by
  have ext : Extends s { s with asked } := ⟨Nat.le_refl _, fun record member _ => ⟨record, member, rfl, rfl⟩, more⟩
  refine ⟨ext, recorded.extend ext rfl (fun record member => (recorded.records record member).extend ext) ?_⟩
  intro tx stored never
  exact recorded.kept tx stored fun before => never (more tx before)

/-- An answer without a receipt is one of a transaction that is now asked for. -/
theorem Recorded.answer (recorded : s.Recorded) {r k : ℕ} {ok : Bool} (taken : s.answer r k ok = some s') :
    s'.Recorded := by
  unfold Ledger.answer at taken
  split at taken
  · rename_i chunk later confirmed known
    split at taken
    · rename_i entry listed
      cases taken
      obtain ⟨answered, holding⟩ := recorded.recoveries _ (List.mem_of_getElem? known)
      have more : ∀ tx ∈ s.asked,
          tx ∈ if s.getTransactionReceipt entry.hash ok = .none then s.asked ++ [entry.hash] else s.asked := by
        intro tx member
        split
        · exact List.mem_append_left _ member
        · exact member
      obtain ⟨ext, asked⟩ := recorded.ask more
      refine asked.setRecovery fun recovery member => ?_
      rcases List.mem_or_eq_of_mem_set member with old | rfl
      · exact (recorded.recoveries recovery old).extend ext
      · refine ⟨fun x member => ?_, fun entry member => (holding entry member).extend ext⟩
        rcases List.mem_or_eq_of_mem_set member with old | rfl
        · exact (answered x old).extend ext
        · refine ⟨(answered _ (List.mem_of_getElem? listed)).entry.extend ext, fun none => ?_⟩
          dsimp only
          rw [if_pos (Option.some.inj none)]
          exact List.mem_append_right _ (List.mem_singleton_self _)
    · cases taken
  · cases taken

theorem Recorded.watch (recorded : s.Recorded) {n : ℕ} {sent : Submitted} {inTime : Bool}
    (taken : s.watch n sent inTime = some s') : s'.Recorded := by
  unfold Ledger.watch at taken
  split at taken
  · cases taken
    exact recorded.frame
  · split at taken
    · cases taken
      exact recorded.frame
    · cases taken
    · cases taken
      exact recorded.frame
  · cases taken

theorem Recorded.step (recorded : s.Recorded) {a : LedgerAction} (taken : s.step a = some s') : s'.Recorded := by
  cases a with
  | submit network bundle =>
    cases taken
    exact recorded.frame
  | mine tx receipt =>
    unfold Ledger.step at taken
    dsimp only at taken
    split at taken
    · cases taken
      exact recorded.frame
    · cases taken
  | watch tx inTime =>
    unfold Ledger.step at taken
    dsimp only at taken
    split at taken
    · exact recorded.watch taken
    · cases taken
  | deliver e =>
    unfold Ledger.step at taken
    dsimp only at taken
    split at taken
    · cases taken
      apply Recorded.processEventDbWrite
      exact recorded.frame
    · cases taken
  | drop e =>
    cases taken
    exact recorded.frame
  | recover =>
    cases taken
    refine recorded.setRecovery fun recovery member => ?_
    rcases List.mem_append.mp member with old | fresh
    · exact recorded.recoveries recovery old
    · obtain rfl := List.mem_singleton.mp fresh
      refine ⟨fun tx listed => ?_, fun entry listed => nomatch listed⟩
      obtain ⟨record, unconfirmed⟩ := List.mem_filter.mp listed
      exact ⟨recorded.records tx record, (of_decide_eq_true unconfirmed).2⟩
  | resolve r ok =>
    unfold Ledger.step at taken
    dsimp only at taken
    split at taken
    · rename_i recovery known
      obtain ⟨⟨t, next⟩, resolved, rfl⟩ := Option.map_eq_some_iff.mp taken
      have resolved := recorded.resolve (recorded.recoveries _ (List.mem_of_getElem? known)) resolved
      refine resolved.recorded.setRecovery fun recovery member => ?_
      rcases List.mem_or_eq_of_mem_set member with old | rfl
      · exact resolved.recorded.recoveries recovery (resolved.recoveries ▸ old)
      · exact resolved.sound
    · cases taken
  | answer r k ok => exact recorded.answer taken

end Steps
end Ledger

/-- No recovery loses the record of a transaction that is mined before any asks for its receipt. -/
theorem recovery_keeps_mined {s : Ledger} (reached : trading.Reachable s) : s.KeepsMined := by
  have recorded : s.Recorded := by
    apply reached.invariant Ledger.Recorded
    · constructor
      · intro record member
        cases member
      · intro recovery member
        cases member
      · intro tx stored
        cases stored
    · intro s a t recorded _ taken
      exact recorded.step taken
  intro tx stored _ asked
  exact recorded.kept tx stored asked

/-- A transaction that is sent, and whose record is stored. -/
def storing : List LedgerAction := [.submit "base" false, .watch 0 true, .deliver 0]

def success : TransactionReceipt := ⟨some 7, true⟩

/-- The worker that watches the transaction gives up, and a recovery finds the receipt. -/
theorem recovery_keeps_mined_block : ∃ s : Ledger, trading.Reachable s ∧ s.KeepsMined ∧ s.isMined 0 ∧
    s.transactions = [⟨0, 7, "base", ⟨0, none⟩⟩] ∧ s.recoveries = [.finished] := by
  obtain ⟨s, reached, final⟩ := Machine.Reachable.of_trace trading
    (storing ++ [.watch 0 false, .recover, .resolve 0 true, .resolve 0 true, .mine 0 success, .answer 0 0 true] ++
      List.replicate 5 (.resolve 0 true))
    (fun s => s.isMined 0 ∧ s.transactions = [⟨0, 7, "base", ⟨0, none⟩⟩] ∧ s.recoveries = [.finished]) (by decide)
  exact ⟨s, reached, recovery_keeps_mined reached, final⟩

/-- A recovery of one worker asks for the receipt while another still waits for it, and deletes
the record of a transaction that is mined afterwards. -/
theorem recovery_deletes_before_mined : ¬ ∀ s, trading.Reachable s → ∀ txHash ∈ s.stored,
    s.isMined txHash.tx → s.hasRecord txHash := by
  intro keeps
  obtain ⟨s, reached, stored, mined, lost⟩ := Machine.Reachable.of_trace trading
    (storing ++ [.recover, .resolve 0 true, .resolve 0 true, .answer 0 0 true, .resolve 0 true, .resolve 0 true,
      .mine 0 success])
    (fun s => ⟨0, none⟩ ∈ s.stored ∧ s.isMined 0 ∧ ¬ s.hasRecord ⟨0, none⟩) (by decide)
  exact lost (keeps s reached ⟨0, none⟩ stored mined)

end RndRust.VolumeMaker.Evm
