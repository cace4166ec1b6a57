import RndRust.Sniper.EventLoop

/-! Whether a confirmation stops the tries of its request. It comes from the chain, the report
that the transaction was sent comes from the block builder, and the loop joins the two only
when it has processed the report first. -/
namespace RndRust.Sniper
open Lib

/-- The event loop, with the events it has processed. -/
structure Watch where
  loop : EventLoop
  processed : List MpscTask := []

inductive WatchAction where
  | event (event : MpscTask) (retryUuid : String)
  /-- `inner_buy` counts a first try. -/
  | retries (uuid : String) (retries : ℤ)

/-- What is reported as sent comes from `sign_and_send`. -/
def MpscTask.sound : MpscTask → Bool
  | .txSent tx => tx.task.any fun payload => tx = MonitorTx.new payload tx.signature
  | _ => true

def Watch.step (s : Watch) : WatchAction → Option Watch
  | .event event retryUuid =>
    if event.sound then some ⟨(s.loop.handle event retryUuid).loop, s.processed ++ [event]⟩ else none
  | .retries uuid retries =>
    some { s with loop := { s.loop with state := s.loop.state.addRetries uuid retries } }

/-- The event loop from its start. -/
def watch (serverName : String) : Machine Watch WatchAction where
  initial := { loop := { state := { serverName } } }
  step := Watch.step

namespace EventLoop

/-- Whether the loop knows that a transaction of the request was successful. -/
def Settled (s : EventLoop) (uuid : String) : Prop :=
  ∃ x ∈ s.watchedTxs, x.uuid = uuid ∧ x.confirmed ∧ x.success

instance (s : EventLoop) (uuid : String) : Decidable (s.Settled uuid) :=
  inferInstanceAs (Decidable (∃ x ∈ s.watchedTxs, _))

/-- The entry that a confirmation of the signature is taken for. -/
def awaited? (s : EventLoop) (signature : String) : Option MonitorTx :=
  (s.watchedTxs.findIdx? (waiting signature)).bind fun idx => s.watchedTxs[idx]?

end EventLoop

namespace Watch

/-- Both events of a successful transaction of the request have been processed. -/
def Landed (s : Watch) (uuid : String) : Prop :=
  ∃ sent confirmed, .txSent sent ∈ s.processed ∧ .txConfirmation confirmed ∈ s.processed ∧
    sent.uuid = uuid ∧ confirmed.signature = sent.signature ∧ confirmed.success

/-- The request is not in the spam list, and no retry of it buys. -/
def Stopped (s : Watch) (uuid : String) : Prop :=
  (∀ request ∈ s.loop.state.spamTasks, request.uuid ≠ uuid) ∧
  ∀ request retryUuid, request.uuid = uuid → (s.loop.retry request retryUuid).fullBuy = none

/-- The condition: a transaction is reported as sent before its success is confirmed, and the
confirmation is taken for it, unless its request is settled anyway. -/
def inTime (s : Watch) : WatchAction → Bool
  | .event (.txSent tx) _ =>
    s.loop.Settled tx.uuid || s.processed.all fun event =>
      match event with
      | .txConfirmation confirmed => !(confirmed.success && confirmed.signature = tx.signature)
      | _ => true
  | .event (.txConfirmation tx) _ =>
    !tx.success || s.loop.watchedTxs.all fun x =>
      x.signature ≠ tx.signature || s.loop.Settled x.uuid || (s.loop.awaited? tx.signature).any (·.uuid = x.uuid)
  | _ => true

end Watch

namespace EventLoop

variable {s : EventLoop} {uuid : String}

theorem found_isSome (settled : s.Settled uuid) : (s.found uuid).isSome := by
  obtain ⟨x, member, own, confirmed, success⟩ := settled
  exact List.find?_isSome.mpr ⟨x, member, by simp [own, confirmed, success]⟩

/-- A settled request is not bought for again. -/
theorem retry_settled {request : BuyRequest} {retryUuid : String} (settled : s.Settled request.uuid) :
    s.retry request retryUuid = { loop := s } := by
  obtain ⟨x, known⟩ := Option.isSome_iff_exists.mp (found_isSome settled)
  simp [retry, known]

/-- What a report that a transaction was sent changes. -/
theorem txSent_spam {tx : MonitorTx} {task request : BuyRequest} {retryUuid : String} (own : tx.task = some task)
    (listed : request ∈ (s.txSent tx retryUuid).state.spamTasks) :
    request ∈ s.state.spamTasks ∨ s.state.spamTasksAvailable tx.uuid = none ∧ request.uuid = task.uuid := by
  simp only [txSent, own] at listed
  split at listed
  · rename_i fresh
    rcases List.mem_append.mp listed with before | new
    · exact .inl before
    · obtain rfl := List.mem_singleton.mp new
      exact .inr ⟨Option.isNone_iff_eq_none.mp fresh, rfl⟩
  · exact .inl listed

theorem txSent_available {tx : MonitorTx} {retryUuid : String}
    (known : s.state.spamTasksAvailable uuid ≠ none ∨ uuid = tx.uuid) :
    (s.txSent tx retryUuid).state.spamTasksAvailable uuid ≠ none := by
  by_cases fresh : s.state.spamTasksAvailable tx.uuid = none
  · have set : (s.txSent tx retryUuid).state.spamTasksAvailable =
        Function.update s.state.spamTasksAvailable tx.uuid (some true) := by
      cases own : tx.task with
      | none => simp [txSent, fresh, own, AppState.addSpamTasksAvailable]
      | some task => simp [txSent, fresh, own, AppState.addSpamTasksAvailable, AppState.addSpamTask]
    rw [set]
    by_cases same : uuid = tx.uuid
    · subst same
      simp
    · rw [Function.update_of_ne same]
      exact known.resolve_right same
  · have kept : (s.txSent tx retryUuid).state = s.state := by
      simp [txSent, Option.isNone_iff_eq_none, fresh]
    rw [kept]
    rcases known with known | rfl
    · exact known
    · exact fresh

@[simp] theorem txSent_watchedTxs {tx : MonitorTx} {retryUuid : String} :
    (s.txSent tx retryUuid).watchedTxs = s.watchedTxs ++ [tx] := by
  simp only [txSent]
  split
  · split <;> rfl
  · rfl

/-- What a confirmation changes: it is taken for one entry, or for none. -/
theorem txConfirmation_cases (tx : GeyserProcessedTx) (retryUuid : String)
    (own : ∀ x ∈ s.watchedTxs, ∃ task, x.task = some task ∧ task.uuid = x.uuid) :
    (s.awaited? tx.signature = none ∧ (s.txConfirmation tx retryUuid).loop.watchedTxs = s.watchedTxs ∧
      (s.txConfirmation tx retryUuid).loop.state = s.state) ∨
    ∃ (idx : ℕ) (x : MonitorTx), s.awaited? tx.signature = some x ∧ s.watchedTxs[idx]? = some x ∧ x.confirmed = false ∧
      (s.txConfirmation tx retryUuid).loop.watchedTxs =
        s.watchedTxs.set idx { x with confirmed := true, checked := true, success := tx.success } ∧
      (s.txConfirmation tx retryUuid).loop.state = s.state.removeSpamTasksByUuid x.uuid := by
  cases at_ : s.watchedTxs.findIdx? (waiting tx.signature) with
  | none =>
    left
    simp [awaited?, txConfirmation, at_]
  | some idx =>
    right
    obtain ⟨inside, waits, -⟩ := List.findIdx?_eq_some_iff_getElem.mp at_
    have known : s.watchedTxs[idx]? = some s.watchedTxs[idx] := List.getElem?_eq_getElem inside
    obtain ⟨task, has, same⟩ := own _ (List.getElem_mem inside)
    refine ⟨idx, s.watchedTxs[idx], by simp [awaited?, at_, known], known, ?_, ?_⟩
    · simp only [waiting, Bool.and_eq_true, Bool.not_eq_true'] at waits
      exact waits.1.2
    · simp only [txConfirmation, at_, known, has, same]
      split
      · exact ⟨rfl, rfl⟩
      · simp only [retryFailed]
        split
        · exact ⟨rfl, rfl⟩
        · exact ⟨rfl, rfl⟩

theorem retry_frame (request : BuyRequest) (retryUuid : String) :
    (s.retry request retryUuid).loop.watchedTxs = s.watchedTxs ∧
    (s.retry request retryUuid).loop.state.spamTasksAvailable = s.state.spamTasksAvailable ∧
    ∀ r ∈ (s.retry request retryUuid).loop.state.spamTasks, r ∈ s.state.spamTasks := by
  simp only [retry]
  split
  · exact ⟨rfl, rfl, fun _ => id⟩
  · split
    · split
      · exact ⟨rfl, rfl, fun _ => id⟩
      · exact ⟨rfl, rfl, fun _ listed => (List.mem_filter.mp listed).1⟩
    · exact ⟨rfl, rfl, fun _ => id⟩

end EventLoop

namespace Watch

/-- What has been reported is watched, and every success that was confirmed is known. -/
structure Joins (s : Watch) : Prop where
  reported : ∀ tx, .txSent tx ∈ s.processed →
    ∃ x ∈ s.loop.watchedTxs, x.signature = tx.signature ∧ x.uuid = tx.uuid
  own : ∀ x ∈ s.loop.watchedTxs, ∃ task, x.task = some task ∧ task.uuid = x.uuid
  listed : ∀ x ∈ s.loop.watchedTxs, s.loop.state.spamTasksAvailable x.uuid ≠ none
  spared : ∀ uuid, s.loop.Settled uuid → ∀ request ∈ s.loop.state.spamTasks, request.uuid ≠ uuid
  joined : ∀ x ∈ s.loop.watchedTxs, ∀ tx, .txConfirmation tx ∈ s.processed → tx.success →
    tx.signature = x.signature → s.loop.Settled x.uuid

section Steps

variable {s : Watch} {loop : EventLoop} {retryUuid : String}

/-- An event that leaves the entries as they are. -/
theorem Joins.frame (joins : Joins s) {event : MpscTask} (sent : ∀ tx, event ≠ .txSent tx)
    (confirmed : ∀ tx, event = .txConfirmation tx → tx.success → ∀ x ∈ s.loop.watchedTxs,
      tx.signature = x.signature → s.loop.Settled x.uuid)
    (watched : loop.watchedTxs = s.loop.watchedTxs)
    (available : loop.state.spamTasksAvailable = s.loop.state.spamTasksAvailable)
    (spam : ∀ r ∈ loop.state.spamTasks, r ∈ s.loop.state.spamTasks) :
    Joins ⟨loop, s.processed ++ [event]⟩ := by
  have same : ∀ uuid, loop.Settled uuid ↔ s.loop.Settled uuid := by
    intro uuid
    rw [EventLoop.Settled, watched]
    rfl
  constructor
  · intro tx before
    rw [watched]
    rcases List.mem_append.mp before with before | new
    · exact joins.reported tx before
    · exact absurd (List.mem_singleton.mp new).symm (sent tx)
  · rw [watched]
    exact joins.own
  · rw [watched, available]
    exact joins.listed
  · intro uuid settled request member
    exact joins.spared uuid ((same uuid).mp settled) request (spam request member)
  · intro x member tx before success own
    rw [same]
    rw [watched] at member
    rcases List.mem_append.mp before with before | new
    · exact joins.joined x member tx before success own
    · exact confirmed tx (List.mem_singleton.mp new).symm success x member own

theorem Joins.txSent {payload : BuyRequest} {signature : String} (joins : Joins s)
    (allowed : s.inTime (.event (.txSent (.new payload signature)) retryUuid)) :
    Joins ⟨s.loop.txSent (.new payload signature) retryUuid,
      s.processed ++ [.txSent (.new payload signature)]⟩ := by
  have same : ∀ uuid, (s.loop.txSent (.new payload signature) retryUuid).Settled uuid ↔ s.loop.Settled uuid := by
    intro uuid
    simp [EventLoop.Settled, MonitorTx.new]
  constructor
  · intro tx before
    simp only [EventLoop.txSent_watchedTxs]
    rcases List.mem_append.mp before with before | new
    · obtain ⟨x, member, known⟩ := joins.reported tx before
      exact ⟨x, List.mem_append_left _ member, known⟩
    · cases List.mem_singleton.mp new
      exact ⟨_, List.mem_append_right _ (List.mem_singleton_self _), rfl, rfl⟩
  · intro x member
    rw [EventLoop.txSent_watchedTxs] at member
    rcases List.mem_append.mp member with before | new
    · exact joins.own x before
    · obtain rfl := List.mem_singleton.mp new
      exact ⟨payload, rfl, rfl⟩
  · intro x member
    rw [EventLoop.txSent_watchedTxs] at member
    apply EventLoop.txSent_available
    rcases List.mem_append.mp member with before | new
    · exact .inl (joins.listed x before)
    · exact .inr (by rw [List.mem_singleton.mp new])
  · intro uuid settled request member
    rw [same] at settled
    rcases EventLoop.txSent_spam rfl member with before | ⟨fresh, own⟩
    · exact joins.spared uuid settled request before
    · -- The first report of a request finds none of its transactions settled.
      rintro rfl
      obtain ⟨x, before, known, -⟩ := settled
      have available := joins.listed x before
      rw [known, own] at available
      exact available fresh
  · intro x member tx before success own
    rw [same]
    have before : .txConfirmation tx ∈ s.processed := by
      rcases List.mem_append.mp before with before | new
      · exact before
      · cases List.mem_singleton.mp new
    rw [EventLoop.txSent_watchedTxs] at member
    rcases List.mem_append.mp member with old | new
    · exact joins.joined x old tx before success own
    · obtain rfl := List.mem_singleton.mp new
      simp only [Watch.inTime, Bool.or_eq_true, decide_eq_true_eq, List.all_eq_true] at allowed
      rcases allowed with settled | unconfirmed
      · exact settled
      · have unconfirmed := unconfirmed _ before
        simp [success, own] at unconfirmed

theorem Joins.txConfirmation {tx : GeyserProcessedTx} (joins : Joins s)
    (allowed : s.inTime (.event (.txConfirmation tx) retryUuid)) :
    Joins ⟨(s.loop.txConfirmation tx retryUuid).loop, s.processed ++ [.txConfirmation tx]⟩ := by
  have taken : tx.success → ∀ x ∈ s.loop.watchedTxs, tx.signature = x.signature →
      s.loop.Settled x.uuid ∨ ∃ entry, s.loop.awaited? tx.signature = some entry ∧ entry.uuid = x.uuid := by
    intro success x member own
    simp only [Watch.inTime, success, Bool.not_true, Bool.false_or, List.all_eq_true] at allowed
    have allowed := allowed x member
    simpa [own.symm, Option.any_eq_true] using allowed
  rcases EventLoop.txConfirmation_cases tx retryUuid joins.own with
    ⟨missing, watched, state⟩ | ⟨idx, x, entry, known, waits, watched, state⟩
  · apply joins.frame
    · intro tx same
      cases same
    · intro tx same success x member own
      cases same
      rcases taken success x member own with settled | ⟨entry, known, -⟩
      · exact settled
      · rw [missing] at known
        cases known
    · exact watched
    · rw [state]
    · rw [state]
      exact fun _ => id
  · generalize (s.loop.txConfirmation tx retryUuid).loop = loop at watched state
    have old : ∀ y ∈ loop.watchedTxs, ∃ z ∈ s.loop.watchedTxs, z.uuid = y.uuid ∧ z.signature = y.signature ∧
        z.task = y.task := by
      intro y member
      rw [watched] at member
      rcases List.mem_or_eq_of_mem_set member with member | rfl
      · exact ⟨y, member, rfl, rfl, rfl⟩
      · exact ⟨x, List.mem_of_getElem? known, rfl, rfl, rfl⟩
    have kept : ∀ uuid, s.loop.Settled uuid → loop.Settled uuid := by
      rintro uuid ⟨y, member, own, confirmed, success⟩
      refine ⟨y, ?_, own, confirmed, success⟩
      rw [watched]
      apply mem_set_known known _ member
      rintro rfl
      rw [waits] at confirmed
      cases confirmed
    have here : { x with confirmed := true, checked := true, success := tx.success } ∈ loop.watchedTxs := by
      rw [watched]
      exact List.mem_of_getElem? (i := idx) (by rw [getElem?_set_known known, if_pos rfl])
    constructor
    · intro tx' before
      have before : .txSent tx' ∈ s.processed := by
        rcases List.mem_append.mp before with before | new
        · exact before
        · cases List.mem_singleton.mp new
      obtain ⟨y, member, own⟩ := joins.reported tx' before
      by_cases same : y = x
      · subst same
        exact ⟨_, here, own⟩
      · refine ⟨y, ?_, own⟩
        rw [watched]
        exact mem_set_known known same member
    · intro y member
      obtain ⟨z, before, uuid, -, task⟩ := old y member
      rw [← task, ← uuid]
      exact joins.own z before
    · intro y member
      obtain ⟨z, before, uuid, -⟩ := old y member
      rw [← uuid, state]
      exact joins.listed z before
    · rintro uuid ⟨y, member, own, confirmed, success⟩ request listed
      rw [state] at listed
      obtain ⟨listed, other⟩ := List.mem_filter.mp listed
      have other : request.uuid ≠ x.uuid := of_decide_eq_true other
      rw [watched] at member
      rcases List.mem_or_eq_of_mem_set member with member | rfl
      · exact joins.spared uuid ⟨y, member, own, confirmed, success⟩ request listed
      · rwa [← own]
    · intro y member tx' before success own
      obtain ⟨z, old, uuid, signature, -⟩ := old y member
      rw [← uuid]
      rw [← signature] at own
      rcases List.mem_append.mp before with before | new
      · exact kept _ (joins.joined z old tx' before success own)
      · cases List.mem_singleton.mp new
        rcases taken success z old own with settled | ⟨entry', known', same⟩
        · exact kept _ settled
        · rw [entry] at known'
          cases known'
          exact ⟨_, here, same, rfl, success⟩

theorem Joins.step {t : Watch} {a : WatchAction} (joins : Joins s) (allowed : s.inTime a) (taken : s.step a = some t) :
    Joins t := by
  cases a with
  | retries uuid retries =>
    cases taken
    exact ⟨joins.reported, joins.own, joins.listed, joins.spared, joins.joined⟩
  | event event retryUuid =>
    simp only [Watch.step] at taken
    split at taken
    · rename_i sound
      cases taken
      cases event with
      | txSent tx =>
        obtain ⟨payload, -, new⟩ := (Option.any_eq_true _ _).mp sound
        have new : tx = .new payload tx.signature := of_decide_eq_true new
        rw [new] at allowed ⊢
        exact joins.txSent allowed
      | txConfirmation tx => exact joins.txConfirmation allowed
      | retry request =>
        obtain ⟨watched, available, spam⟩ := EventLoop.retry_frame (s := s.loop) request retryUuid
        refine joins.frame (by simp) (by simp) watched available spam
    · cases taken

end Steps

end Watch

section Runs

variable {serverName : String} {s : Watch} {uuid : String}

/-- **No confirmation is overlooked**, when each comes after the report it belongs to. -/
theorem confirmation_stops (reached : (watch serverName).Reaches (fun s a => s.inTime a) s) (landed : s.Landed uuid) :
    s.Stopped uuid := by
  have joins : s.Joins := by
    refine reached.invariant Watch.Joins ?_ fun _ _ _ joins allowed taken => joins.step allowed taken
    exact ⟨by simp [watch], by simp [watch], by simp [watch], by simp [watch], by simp [watch]⟩
  obtain ⟨sent, confirmed, reported, processed, rfl, same, success⟩ := landed
  obtain ⟨x, member, signature, own⟩ := joins.reported sent reported
  have settled : s.loop.Settled sent.uuid := by
    rw [← own]
    exact joins.joined x member confirmed processed success (same.trans signature.symm)
  refine ⟨joins.spared _ settled, ?_⟩
  intro request retryUuid same
  rw [← same] at settled
  rw [EventLoop.retry_settled settled]

end Runs

section Examples

def purchase : BuyRequest where
  retryUuid := "first"
  uuid := "1"
  privateKey := "key"
  nonceAccountAddress := "nonce"
  mint := "mint"
  value := 1
  tip := 1
  slippage := 10
  tries := 3
  frontrunningProtection := false
  enableAlerts := false
  selectedPool := "ALL"
  servers := none
  blockLeaders := some "JITO"

def sent : MpscTask := .txSent (.new purchase "signature")

def confirmed : MpscTask := .txConfirmation ⟨"signature", true⟩

theorem landed_of_processed {s : Watch} (reported : sent ∈ s.processed) (processed : confirmed ∈ s.processed) :
    s.Landed "1" := ⟨_, _, reported, processed, rfl, rfl, rfl⟩

theorem confirmation_stops_one : ∃ s, (watch "eu").Reaches (fun s a => s.inTime a) s ∧ s.Landed "1" ∧
    s.Stopped "1" := by
  obtain ⟨s, reached, reported, processed⟩ := Machine.Reaches.of_trace (watch "eu") (fun s a => s.inTime a)
    [.retries "1" 1, .event sent "a", .event confirmed "b"] (fun s => sent ∈ s.processed ∧ confirmed ∈ s.processed)
    (by decide)
  have landed := landed_of_processed reported processed
  exact ⟨s, reached, landed, confirmation_stops reached landed⟩

/-- The confirmation comes before the block builder has answered. -/
theorem confirmation_stops_fails : ∃ s, (watch "eu").Reachable s ∧ s.Landed "1" ∧ ¬s.Stopped "1" ∧
    (∃ request ∈ s.loop.state.spamTasks, request.uuid = "1") ∧
    (s.loop.retry purchase "c").fullBuy = some { purchase with retryUuid := "c" } := by
  obtain ⟨s, reached, ⟨reported, processed⟩, spam, buys⟩ := Machine.Reachable.of_trace (watch "eu")
    [.retries "1" 1, .event confirmed "a", .event sent "b"]
    (fun s => (sent ∈ s.processed ∧ confirmed ∈ s.processed) ∧
      (∃ request ∈ s.loop.state.spamTasks, request.uuid = "1") ∧
      (s.loop.retry purchase "c").fullBuy = some { purchase with retryUuid := "c" })
    (by decide)
  refine ⟨s, reached, landed_of_processed reported processed, ?_, spam, buys⟩
  intro stopped
  obtain ⟨request, listed, own⟩ := spam
  exact stopped.1 request listed own

end Examples

end RndRust.Sniper
