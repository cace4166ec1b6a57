import RndRust.Sniper.Solana

/-! How often a request is bought for on the chain. Transactions that were built with one
value of a nonce account exclude each other; every retry reads the value again. -/
namespace RndRust.Sniper
open Lib

namespace Runtime

/-- A task for the request has read the value of its nonce account. -/
def Read (s : Runtime) (request : BuyRequest) (value : ℕ) : Prop :=
  ∃ task ∈ s.tasks, task.request = request ∧ task.nonce = .fetched value

/-- Whether the transaction is a successful one of the request. -/
def lands (uuid : String) (tx : Transaction) : Bool := tx.request.uuid = uuid && tx.executed = some true

/-- How many transactions of a request were executed successfully. -/
def landed (s : Runtime) (uuid : String) : ℕ := s.txs.countP (lands uuid)

/-- The condition: a nonce is read for a request from the account it was read from before,
and its value is not from after a successful transaction of the request. -/
def fresh (s : Runtime) : RuntimeAction → Bool
  | .nonce i (some value) =>
    s.tasks[i]?.all fun task =>
      (s.tasks.all fun other =>
        !(other.request.uuid = task.request.uuid && other.nonce ≠ .waiting && other.nonce ≠ .failed) ||
          other.request.nonceAccountAddress = task.request.nonceAccountAddress) &&
      s.txs.all fun tx => !lands task.request.uuid tx || value ≤ tx.nonce
  | _ => true

/-- The values that were read, and what has come of them. -/
structure Fenced (s : Runtime) : Prop where
  built : ∀ tx ∈ s.txs, s.Read tx.request tx.nonce
  current : ∀ request value, s.Read request value → value ≤ s.nonces request.nonceAccountAddress
  account : ∀ request value other later, s.Read request value → s.Read other later → request.uuid = other.uuid →
    request.nonceAccountAddress = other.nonceAccountAddress
  spent : ∀ tx ∈ s.txs, tx.executed ≠ none → tx.nonce < s.nonces tx.request.nonceAccountAddress
  before : ∀ tx ∈ s.txs, tx.executed = some true → ∀ request value, s.Read request value →
    request.uuid = tx.request.uuid → value ≤ tx.nonce
  single : ∀ uuid, s.landed uuid ≤ 1

section Steps

variable {s t : Runtime} {i : ℕ} {request : BuyRequest} {value : ℕ} {task new : BuyTask} {tx : Transaction}

/-- What counts of a transaction. -/
def Same (old new : Transaction) : Prop :=
  old.request = new.request ∧ old.nonce = new.nonce ∧ old.executed = new.executed

/-- Nothing is read or executed. -/
theorem Fenced.frame (fenced : Fenced s) (reads : ∀ request value, t.Read request value ↔ s.Read request value)
    (txs : ∀ tx ∈ t.txs, tx.executed = none ∧ s.Read tx.request tx.nonce ∨ ∃ old ∈ s.txs, Same old tx)
    (landed : ∀ uuid, t.landed uuid ≤ s.landed uuid) (nonces : t.nonces = s.nonces) : Fenced t := by
  constructor
  · intro tx member
    rw [reads]
    rcases txs tx member with ⟨-, read⟩ | ⟨old, before, request, nonce, -⟩
    · exact read
    · rw [← request, ← nonce]
      exact fenced.built old before
  · intro request value read
    rw [nonces]
    exact fenced.current request value ((reads _ _).mp read)
  · intro request value other later read again
    exact fenced.account request value other later ((reads _ _).mp read) ((reads _ _).mp again)
  · intro tx member executed
    rw [nonces]
    rcases txs tx member with ⟨unexecuted, -⟩ | ⟨old, before, request, nonce, same⟩
    · exact absurd unexecuted executed
    · rw [← request, ← nonce]
      exact fenced.spent old before (same ▸ executed)
  · intro tx member success request' value read own
    rcases txs tx member with ⟨unexecuted, -⟩ | ⟨old, before, request, nonce, same⟩
    · rw [unexecuted] at success
      cases success
    · rw [← nonce]
      rw [← request] at own
      exact fenced.before old before (same ▸ success) request' value ((reads _ _).mp read) own
  · exact fun uuid => Nat.le_trans (landed uuid) (fenced.single uuid)

/-- The tasks, the transactions and the nonces are as before. -/
theorem Fenced.of_eq (fenced : Fenced s) (tasks : t.tasks = s.tasks) (txs : t.txs = s.txs)
    (nonces : t.nonces = s.nonces) : Fenced t := by
  refine fenced.frame ?_ ?_ ?_ nonces
  · intro request value
    rw [Read, tasks]
    rfl
  · intro tx member
    exact .inr ⟨tx, txs ▸ member, rfl, rfl, rfl⟩
  · intro uuid
    rw [landed, txs]
    rfl

theorem Fenced.buy (fenced : Fenced s) : Fenced (s.buy request) := by
  simp only [Runtime.buy]
  split
  · refine fenced.frame (fun other value => ?_) (fun tx member => ?_) (fun _ => Nat.le_refl _) rfl
    · simp [Read, or_and_right, exists_or]
    · exact .inr ⟨tx, member, rfl, rfl, rfl⟩
  · exact fenced

theorem Fenced.handled {h : Handled} (fenced : Fenced s) : Fenced (s.handled h) := by
  simp only [Runtime.handled]
  split
  · apply Fenced.buy
    exact fenced.of_eq rfl rfl rfl
  · exact fenced.of_eq rfl rfl rfl

theorem read_setTask (known : s.tasks[i]? = some task) (own : new.request = task.request)
    (unread : ∀ value, task.nonce ≠ .fetched value) :
    (s.setTask i new).Read request value ↔ s.Read request value ∨ new.request = request ∧ new.nonce = .fetched value := by
  constructor
  · rintro ⟨other, member, same, read⟩
    rcases List.mem_or_eq_of_mem_set member with member | rfl
    · exact .inl ⟨other, member, same, read⟩
    · exact .inr ⟨same, read⟩
  · rintro (⟨other, member, same, read⟩ | ⟨same, read⟩)
    · refine ⟨other, mem_set_known known ?_ member, same, read⟩
      rintro rfl
      exact unread value read
    · exact ⟨new, List.mem_of_getElem? (i := i) (by rw [setTask, getElem?_set_known known, if_pos rfl]), same, read⟩

/-- A change of a task that is not about its nonce. -/
theorem read_same (known : s.tasks[i]? = some task) (own : new.request = task.request)
    (same : new.nonce = task.nonce) : (s.setTask i new).Read request value ↔ s.Read request value := by
  constructor
  · rintro ⟨other, member, named, read⟩
    rcases List.mem_or_eq_of_mem_set member with member | rfl
    · exact ⟨other, member, named, read⟩
    · exact ⟨task, List.mem_of_getElem? known, own ▸ named, same ▸ read⟩
  · rintro ⟨other, member, named, read⟩
    by_cases this : other = task
    · subst this
      refine ⟨new, List.mem_of_getElem? (i := i) ?_, own ▸ named, same ▸ read⟩
      rw [setTask, getElem?_set_known known, if_pos rfl]
    · exact ⟨other, mem_set_known known this member, named, read⟩

theorem Fenced.setTask (fenced : Fenced s) (known : s.tasks[i]? = some task) (own : new.request = task.request)
    (same : new.nonce = task.nonce) : Fenced (s.setTask i new) := by
  refine fenced.frame (fun _ _ => read_same known own same) (fun tx member => ?_) (fun _ => Nat.le_refl _) rfl
  exact .inr ⟨tx, member, rfl, rfl, rfl⟩

theorem Fenced.nonce (fenced : Fenced s) {value : Option ℕ} (known : s.tasks[i]? = some task)
    (waits : task.nonce = .waiting) (old : ∀ v ∈ value, v ≤ s.nonces task.request.nonceAccountAddress)
    (allowed : s.fresh (.nonce i value)) : Fenced (s.setTask i { task with nonce := .ofOption value }) := by
  have both : ∀ request v, (s.setTask i { task with nonce := .ofOption value }).Read request v ↔
      s.Read request v ∨ task.request = request ∧ Fetch.ofOption value = .fetched v :=
    fun _ _ => read_setTask known rfl (by simp [waits])
  have kept : ∀ request v, s.Read request v →
      (s.setTask i { task with nonce := .ofOption value }).Read request v :=
    fun request v read => (both request v).mpr (.inl read)
  have reads : ∀ request v, (s.setTask i { task with nonce := .ofOption value }).Read request v →
      s.Read request v ∨ task.request = request ∧ value = some v := by
    intro request v read
    refine ((both request v).mp read).imp_right fun ⟨same, read⟩ => ⟨same, ?_⟩
    cases value with
    | none => cases read
    | some v' =>
      cases read
      rfl
  -- The condition, about what was read before and what has landed.
  have agrees : ∀ v, value = some v → (∀ request w, s.Read request w → request.uuid = task.request.uuid →
      request.nonceAccountAddress = task.request.nonceAccountAddress) ∧
      ∀ tx ∈ s.txs, tx.executed = some true → task.request.uuid = tx.request.uuid → v ≤ tx.nonce := by
    rintro v rfl
    simp only [fresh, known, Option.all_some, Bool.and_eq_true, List.all_eq_true] at allowed
    obtain ⟨accounts, landed⟩ := allowed
    constructor
    · rintro _ w ⟨other, member, rfl, read⟩ same
      have accounts := accounts other member
      simpa [same, read] using accounts
    · intro tx member success same
      have landed := landed tx member
      simpa [lands, success, same] using landed
  constructor
  · exact fun tx member => kept _ _ (fenced.built tx member)
  · intro request v read
    rcases reads request v read with read | ⟨rfl, rfl⟩
    · exact fenced.current request v read
    · exact old v rfl
  · intro request v other w read again same
    rcases reads request v read with read | ⟨rfl, here⟩
    · rcases reads other w again with again | ⟨rfl, here⟩
      · exact fenced.account request v other w read again same
      · exact (agrees w here).1 request v read same
    · rcases reads other w again with again | ⟨rfl, -⟩
      · exact ((agrees v here).1 other w again same.symm).symm
      · rfl
  · exact fenced.spent
  · intro tx member success request v read same
    rcases reads request v read with read | ⟨rfl, here⟩
    · exact fenced.before tx member success request v read same
    · exact (agrees v here).2 tx member success same
  · exact fenced.single

/-- A change of a transaction that is not about its execution. -/
theorem Fenced.setTx {new : Transaction} (fenced : Fenced s) (known : s.txs[i]? = some tx) (same : Same tx new) :
    Fenced (s.setTx i new) := by
  obtain ⟨request, nonce, executed⟩ := same
  refine fenced.frame (fun _ _ => Iff.rfl) (fun tx' member => .inr ?_) (fun uuid => ?_) rfl
  · rcases List.mem_or_eq_of_mem_set member with member | rfl
    · exact ⟨tx', member, rfl, rfl, rfl⟩
    · exact ⟨tx, List.mem_of_getElem? known, request, nonce, executed⟩
  · have counted := countP_set_known (y := new) (p := lands uuid) known
    have alike : lands uuid new = lands uuid tx := by rw [lands, lands, request, executed]
    rw [alike] at counted
    exact Nat.le_of_eq (Nat.add_right_cancel counted)

theorem Fenced.construct (fenced : Fenced s) (known : s.tasks[i]? = some task) :
    Fenced { s.setTask i { task with constructed := true } with txs := s.txs ++ compile task } := by
  have compiled : ∀ tx ∈ compile task, tx.executed = none ∧ s.Read tx.request tx.nonce := by
    intro tx member
    rw [compile] at member
    split at member
    · rename_i nonce _ read
      obtain ⟨bundleType, -, rfl⟩ := List.mem_map.mp member
      exact ⟨rfl, task, List.mem_of_getElem? known, rfl, read⟩
    · cases member
  have none : ∀ uuid, (compile task).countP (lands uuid) = 0 := by
    intro uuid
    refine List.countP_eq_zero.mpr fun tx member => ?_
    simp [lands, (compiled tx member).1]
  refine fenced.frame (fun request value => ?_) (fun tx member => ?_) (fun uuid => ?_) rfl
  · exact read_same known rfl rfl
  · rcases List.mem_append.mp member with before | new
    · exact .inr ⟨tx, before, rfl, rfl, rfl⟩
    · exact .inl (compiled tx new)
  · rw [landed, List.countP_append, none]
    exact Nat.le_refl _

/-- A transaction of a request that has landed is never the one that is current. -/
theorem Fenced.execute {success : Bool} (fenced : Fenced s) (known : s.txs[i]? = some tx)
    (unexecuted : tx.executed = none) (now : tx.nonce = s.nonces tx.request.nonceAccountAddress) :
    Fenced { s.setTx i { tx with executed := some success } with
      nonces := Function.update s.nonces tx.request.nonceAccountAddress
        (s.nonces tx.request.nonceAccountAddress + 1) } := by
  have here : tx ∈ s.txs := List.mem_of_getElem? known
  have grows : ∀ account, s.nonces account ≤ Function.update s.nonces tx.request.nonceAccountAddress
      (s.nonces tx.request.nonceAccountAddress + 1) account := by
    intro account
    rw [Function.update_apply]
    split
    · rename_i same
      subst same
      exact Nat.le_succ _
    · exact Nat.le_refl _
  have old : ∀ tx' ∈ s.txs.set i { tx with executed := some success }, tx' ∈ s.txs ∨
      tx' = { tx with executed := some success } := fun _ member => List.mem_or_eq_of_mem_set member
  constructor
  · intro tx' member
    rcases old tx' member with before | rfl
    · exact fenced.built tx' before
    · exact fenced.built tx here
  · exact fun request value read => Nat.le_trans (fenced.current request value read) (grows _)
  · exact fenced.account
  · intro tx' member executed
    rcases old tx' member with before | rfl
    · exact Nat.lt_of_lt_of_le (fenced.spent tx' before executed) (grows _)
    · simp [now]
  · intro tx' member landed request value read same
    rcases old tx' member with before | rfl
    · exact fenced.before tx' before landed request value read same
    · have account := fenced.account _ _ _ _ read (fenced.built tx here) same
      have reached := fenced.current request value read
      rw [account, ← now] at reached
      exact reached
  · intro uuid
    have counted := countP_set_known (y := { tx with executed := some success }) (p := lands uuid) known
    have before : lands uuid tx = false := by simp [lands, unexecuted]
    have single := fenced.single uuid
    simp only [before, Bool.false_eq_true, if_false, Nat.add_zero] at counted
    simp only [landed, Runtime.setTx, counted] at single ⊢
    split
    · -- Another success of the request would have been built with a later value.
      rename_i lands'
      have zero : s.txs.countP (lands uuid) = 0 := by
        refine List.countP_eq_zero.mpr fun other member landed => ?_
        simp only [lands, Bool.and_eq_true, decide_eq_true_eq] at landed lands'
        have own := landed.1.trans lands'.1.symm
        have read := fenced.built tx here
        have stale := fenced.before other member landed.2 tx.request tx.nonce read own.symm
        have spent := fenced.spent other member (by simp [landed.2])
        rw [fenced.account _ _ _ _ (fenced.built other member) read own, ← now] at spent
        omega
      omega
    · omega

theorem Fenced.step {a : RuntimeAction} (fenced : Fenced s) (allowed : s.fresh a) (taken : s.step a = some t) :
    Fenced t := by
  cases a with
  | counted uuid =>
    cases taken
    exact fenced.of_eq rfl rfl rfl
  | buy request =>
    cases taken
    exact fenced.buy
  | event retryUuid =>
    simp only [Runtime.step] at taken
    split at taken
    · cases taken
      apply Fenced.handled
      exact fenced.of_eq rfl rfl rfl
    · cases taken
  | spam =>
    simp only [Runtime.step, Option.ite_none_right_eq_some] at taken
    obtain ⟨-, taken⟩ := taken
    cases taken
    exact fenced.of_eq rfl rfl rfl
  | spamSend retryUuid =>
    simp only [Runtime.step] at taken
    split at taken
    · cases taken
      exact fenced.of_eq rfl rfl rfl
    · cases taken
  | instructions i some? =>
    obtain ⟨task, known, taken⟩ := Option.bind_eq_some_iff.mp taken
    obtain ⟨-, taken⟩ := Option.ite_none_right_eq_some.mp taken
    cases taken
    exact fenced.setTask known rfl rfl
  | nonce i value =>
    obtain ⟨task, known, taken⟩ := Option.bind_eq_some_iff.mp taken
    obtain ⟨⟨waits, old⟩, taken⟩ := Option.ite_none_right_eq_some.mp taken
    cases taken
    exact fenced.nonce known waits old allowed
  | construct i =>
    obtain ⟨task, known, taken⟩ := Option.bind_eq_some_iff.mp taken
    obtain ⟨-, taken⟩ := Option.ite_none_left_eq_some.mp taken
    cases taken
    exact fenced.construct known
  | submit i signature =>
    obtain ⟨tx, known, taken⟩ := Option.bind_eq_some_iff.mp taken
    obtain ⟨-, taken⟩ := Option.ite_none_right_eq_some.mp taken
    cases taken
    exact fenced.setTx known ⟨rfl, rfl, rfl⟩
  | answer i accepted =>
    obtain ⟨tx, known, taken⟩ := Option.bind_eq_some_iff.mp taken
    obtain ⟨signature, -, taken⟩ := Option.bind_eq_some_iff.mp taken
    obtain ⟨-, taken⟩ := Option.ite_none_left_eq_some.mp taken
    cases taken
    have answered : Fenced (s.setTx i { tx with answered := true }) := fenced.setTx known ⟨rfl, rfl, rfl⟩
    exact answered.of_eq rfl rfl rfl
  | execute i success =>
    obtain ⟨tx, known, taken⟩ := Option.bind_eq_some_iff.mp taken
    obtain ⟨⟨-, unexecuted, now⟩, taken⟩ := Option.ite_none_right_eq_some.mp taken
    cases taken
    exact fenced.execute known unexecuted now
  | confirm i =>
    obtain ⟨tx, -, taken⟩ := Option.bind_eq_some_iff.mp taken
    obtain ⟨signature, -, taken⟩ := Option.bind_eq_some_iff.mp taken
    obtain ⟨success, -, taken⟩ := Option.bind_eq_some_iff.mp taken
    cases taken
    exact fenced.of_eq rfl rfl rfl

end Steps

end Runtime

section Runs

variable {serverName : String} {s : Runtime}

/-- **One landed buy for a request**, when no nonce is read for it that is newer than a
landing. -/
theorem landed_at_most_once (reached : (runtime serverName).Reaches (fun s a => s.fresh a) s) (uuid : String) :
    s.landed uuid ≤ 1 := by
  have fenced : s.Fenced := by
    refine reached.invariant Runtime.Fenced ?_ fun _ _ _ fenced allowed taken => fenced.step allowed taken
    exact ⟨by simp [runtime], by simp [runtime, Runtime.Read], by simp [runtime, Runtime.Read], by simp [runtime],
      by simp [runtime], fun _ => Nat.zero_le _⟩
  exact fenced.single uuid

end Runs

section Examples

def request : BuyRequest where
  retryUuid := "first"
  uuid := "1"
  privateKey := "key"
  nonceAccountAddress := "nonce"
  mint := "mint"
  value := 1
  tip := 1
  slippage := 10
  tries := 3
  frontrunningProtection := false
  enableAlerts := false
  selectedPool := "ALL"
  servers := none
  blockLeaders := some "JITO"

/-- The task builds its transaction with the value and sends it. -/
def sends (i value : ℕ) (signature : String) : List RuntimeAction :=
  [.instructions i (some true), .nonce i (some value), .construct i, .submit i signature, .answer i true]

/-- The first transaction is sent and its report processed; the spam loop asks for another. -/
def again : List RuntimeAction :=
  [.counted "1", .buy request] ++ sends 0 0 "first" ++ [.event "a", .spam, .spamSend "b"]

theorem landed_at_most_once_retry : ∃ s, (runtime "eu").Reaches (fun s a => s.fresh a) s ∧ s.txs.length = 2 ∧
    s.landed "1" = 1 ∧ s.landed "1" ≤ 1 := by
  obtain ⟨s, reached, two, one⟩ := Machine.Reaches.of_trace (runtime "eu") (fun s a => s.fresh a)
    (again ++ [.event "c"] ++ sends 1 0 "second" ++ [.execute 0 true, .confirm 0])
    (fun s => s.txs.length = 2 ∧ s.landed "1" = 1) (by decide +kernel)
  exact ⟨s, reached, two, one, landed_at_most_once reached "1"⟩

/-- The transaction lands, and the retry is processed before its confirmation. -/
theorem landed_at_most_once_fails : ∃ s, (runtime "eu").Reachable s ∧ s.landed "1" = 2 ∧ ¬s.landed "1" ≤ 1 := by
  obtain ⟨s, reached, twice⟩ := Machine.Reachable.of_trace (runtime "eu")
    (again ++ [.execute 0 true, .event "c"] ++ sends 1 1 "second" ++ [.confirm 0, .execute 1 true])
    (·.landed "1" = 2) (by decide +kernel)
  exact ⟨s, reached, twice, by omega⟩

end Examples

end RndRust.Sniper
