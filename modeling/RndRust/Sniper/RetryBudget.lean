import RndRust.Sniper.Confirmations
import RndRust.Sniper.Purchases

/-! How often the event loop buys again. The counter of a tweet is begun by `inner_buy`, which looks for it first
and writes it later, and is raised by the loop, which reads it first and writes it later; the spam loop and the
confirmations that failed ask for retries side by side. -/
namespace RndRust.Sniper
open Lib

/-- Where the event loop is. -/
inductive LoopStage where
  | idle
  /-- The counter was read and is below the tries of the request; it has not been raised. -/
  | counting (request : BuyRequest) (retries : ℤ)
  deriving DecidableEq

/-- The event loop with its events, the spam loop with what is left of its round, and the calls of
`inner_buy`; beside them what has entered the spam list and what the `Retry` branch has bought. -/
structure Tries where
  loop : EventLoop
  stage : LoopStage := .idle
  events : List MpscTask := []
  spamming : List BuyRequest := []
  calls : List InnerBuy := []
  spammed : List BuyRequest := []
  retried : List BuyRequest := []

inductive TriesAction where
  /-- An event from elsewhere. -/
  | send (event : MpscTask)
  | loop (retryUuid : String)
  | spam (retryUuid : String)
  | call (tweet : TwitterMiniTweet) (tasks : List TaskWallet) (mintAddress : Option String)
  | innerBuy (i : ℕ) (retryUuid : String)

namespace EventLoop

/-- What `TxSent` adds to the spam list. -/
def entering (s : EventLoop) (tx : MonitorTx) (retryUuid : String) : List BuyRequest :=
  if (s.state.spamTasksAvailable tx.uuid).isNone then
    (tx.task.map fun task => { task with retryUuid }).toList
  else []

end EventLoop

namespace Tries

/-- `Retry` up to its reading of the counter. -/
def beginRetry (s : Tries) (request : BuyRequest) : Tries :=
  match s.loop.found request.uuid with
  | some _ => s
  | none =>
    match s.loop.state.retries request.uuid with
    | some retries =>
      if retries < request.tries then { s with stage := .counting request retries }
      else { s with loop := { s.loop with state := s.loop.state.removeSpamTasksByUuid request.uuid } }
    | none => s

/-- The rest of `Retry`. -/
def endRetry (s : Tries) (request : BuyRequest) (retries : ℤ) (retryUuid : String) : Tries :=
  { s with
    loop := { s.loop with state := s.loop.state.addRetries request.uuid (retries + 1) }
    stage := .idle
    retried := s.retried ++ [{ request with retryUuid }] }

/-- The event loop goes on. -/
def turn (s : Tries) (retryUuid : String) : Option Tries :=
  match s.stage, s.events with
  | .counting request retries, _ => some (s.endRetry request retries retryUuid)
  | .idle, .retry request :: events => some ({ s with events }.beginRetry request)
  | .idle, .txSent tx :: events =>
    some { s with events, loop := s.loop.txSent tx retryUuid, spammed := s.spammed ++ s.loop.entering tx retryUuid }
  | .idle, .txConfirmation tx :: events =>
    let handled := s.loop.txConfirmation tx retryUuid
    some { s with events := events ++ handled.sent.toList, loop := handled.loop }
  | .idle, [] => none

/-- The next operation of the spam loop: it copies the list, or asks for one retry. -/
def spam (s : Tries) (retryUuid : String) : Tries :=
  match s.spamming with
  | [] => { s with spamming := s.loop.state.spamTasks }
  | request :: spamming => { s with spamming, events := s.events ++ [.retry { request with retryUuid }] }

/-- The next operation of a call of `inner_buy`. -/
def innerBuy (s : Tries) (i : ℕ) (retryUuid : String) : Option Tries := do
  let call ← s.calls[i]?
  let (state, turn) := call.step s.loop.state retryUuid
  let s := { s with loop := { s.loop with state } }
  match turn with
  | .next stage | .fullBuy _ stage => some { s with calls := s.calls.set i { call with stage } }
  | .returned => some { s with calls := s.calls.eraseIdx i }

def step (s : Tries) : TriesAction → Option Tries
  | .send event => if event.sound then some { s with events := s.events ++ [event] } else none
  | .loop retryUuid => s.turn retryUuid
  | .spam retryUuid => some (s.spam retryUuid)
  | .call tweet tasks mintAddress => some { s with calls := s.calls ++ [⟨tweet, tasks, mintAddress, .entered⟩] }
  | .innerBuy i retryUuid => s.innerBuy i retryUuid

/-- How often the `Retry` branch has called `full_buy` for the id. -/
def bought (s : Tries) (uuid : String) : ℕ := s.retried.countP (·.uuid = uuid)

/-- How often the id has entered the spam list. -/
def entries (s : Tries) (uuid : String) : ℕ := s.spammed.countP (·.uuid = uuid)

/-- The condition: a call of `inner_buy` that has found no counter writes it while there is still none. -/
def begins (s : Tries) : TriesAction → Bool
  | .innerBuy i _ => s.calls[i]?.all fun call => call.stage ≠ .unretried || (s.loop.state.retries call.tweet.id).isNone
  | _ => true

end Tries

/-- The tasks from their start. -/
def tries (serverName : String) : Machine Tries TriesAction where
  initial := { loop := { state := { serverName } } }
  step := Tries.step

namespace EventLoop

variable {s : EventLoop} {tx : MonitorTx} {tx' : GeyserProcessedTx} {retryUuid uuid : String}

theorem txSent_spamTasks : (s.txSent tx retryUuid).state.spamTasks = s.state.spamTasks ++ s.entering tx retryUuid := by
  unfold txSent entering
  split
  · cases tx.task with
    | none => exact (List.append_nil _).symm
    | some task => rfl
  · exact (List.append_nil _).symm

@[simp] theorem txSent_retries : (s.txSent tx retryUuid).state.retries = s.state.retries := by
  unfold txSent
  split
  · cases tx.task with
    | none => rfl
    | some task => rfl
  · rfl

theorem txConfirmation_frame (tx : GeyserProcessedTx) (retryUuid : String) :
    (s.txConfirmation tx retryUuid).loop.state.retries = s.state.retries ∧
      (s.txConfirmation tx retryUuid).loop.state.spamTasksAvailable = s.state.spamTasksAvailable := by
  unfold txConfirmation
  dsimp only
  split
  · split
    · split
      · split
        · exact ⟨rfl, rfl⟩
        · unfold retryFailed
          split
          · exact ⟨rfl, rfl⟩
          · exact ⟨rfl, rfl⟩
      · exact ⟨rfl, rfl⟩
    · exact ⟨rfl, rfl⟩
  · exact ⟨rfl, rfl⟩

/-- What a confirmation sends is a retry. -/
theorem txConfirmation_sent {event : MpscTask} (sent : (s.txConfirmation tx' retryUuid).sent = some event) :
    event.sound := by
  unfold txConfirmation at sent
  dsimp only at sent
  split at sent
  · split at sent
    · split at sent
      · split at sent
        · cases sent
        · unfold retryFailed at sent
          split at sent
          · cases sent
            rfl
          · cases sent
      · cases sent
    · cases sent
  · cases sent

end EventLoop

namespace Tries

variable {s t : Tries} {request : BuyRequest} {retryUuid uuid : String} {retries T : ℤ} {i : ℕ} {serverName : String}
  {a : TriesAction}

/-- The two halves together are the loop's arm. -/
theorem retry_halves (idle : s.stage = .idle) :
    (s.beginRetry request).stage = .idle ∧ (s.beginRetry request).loop = (s.loop.retry request retryUuid).loop ∧
        (s.loop.retry request retryUuid).fullBuy = none ∨
      ∃ retries, (s.beginRetry request).stage = .counting request retries ∧
        ((s.beginRetry request).endRetry request retries retryUuid).loop = (s.loop.retry request retryUuid).loop ∧
        ((s.beginRetry request).endRetry request retries retryUuid).retried =
          s.retried ++ (s.loop.retry request retryUuid).fullBuy.toList := by
  unfold beginRetry EventLoop.retry
  cases found : s.loop.found request.uuid with
  | some tx => exact .inl ⟨idle, rfl, rfl⟩
  | none =>
    dsimp only
    cases counter : s.loop.state.retries request.uuid with
    | none => exact .inl ⟨idle, rfl, rfl⟩
    | some retries =>
      dsimp only
      by_cases below : retries < request.tries
      · rw [if_pos below, if_pos below]
        exact .inr ⟨retries, rfl, rfl, rfl⟩
      · rw [if_neg below, if_neg below]
        exact .inl ⟨idle, rfl, rfl⟩

/-- What every allowed run keeps: a counter is above the retries that were bought, and each of these had tries
enough for the number of them. -/
structure Budgeted (s : Tries) : Prop where
  uncounted : ∀ uuid, s.loop.state.retries uuid = none → s.bought uuid = 0
  counted : ∀ uuid retries, s.loop.state.retries uuid = some retries → (s.bought uuid : ℤ) < retries
  counting : ∀ request retries, s.stage = .counting request retries →
    s.loop.state.retries request.uuid = some retries ∧ retries < request.tries
  covered : ∀ uuid, 0 < s.bought uuid → ∃ request ∈ s.retried, request.uuid = uuid ∧ (s.bought uuid : ℤ) < request.tries

/-- An id that may enter the spam list has not entered it, and none enters it twice. -/
structure Spammed (s : Tries) : Prop where
  sound : ∀ event ∈ s.events, event.sound
  first : ∀ uuid, s.loop.state.spamTasksAvailable uuid = none → s.entries uuid = 0
  once : ∀ uuid, s.entries uuid ≤ 1

theorem Budgeted.initial : Budgeted (tries serverName).initial :=
  ⟨fun _ _ => rfl, fun _ _ found => (nomatch found), fun _ _ found => (nomatch found), fun _ more => absurd more (lt_irrefl 0)⟩

/-- Steps that neither count nor buy. -/
theorem Budgeted.frame (budgeted : s.Budgeted) (counters : t.loop.state.retries = s.loop.state.retries)
    (retried : t.retried = s.retried)
    (stage : t.stage = s.stage ∨ ∀ request retries, t.stage = .counting request retries →
      s.loop.state.retries request.uuid = some retries ∧ retries < request.tries) : t.Budgeted := by
  have bought : t.bought = s.bought := funext fun uuid => by rw [Tries.bought, Tries.bought, retried]
  refine ⟨?_, ?_, ?_, ?_⟩
  · rw [counters, bought]
    exact budgeted.uncounted
  · rw [counters, bought]
    exact budgeted.counted
  · rw [counters]
    intro request retries at_
    rcases stage with same | new
    · exact budgeted.counting request retries (same ▸ at_)
    · exact new request retries at_
  · rw [bought, retried]
    exact budgeted.covered

theorem beginRetry_frame : (s.beginRetry request).loop.state.retries = s.loop.state.retries ∧
    (s.beginRetry request).loop.state.spamTasksAvailable = s.loop.state.spamTasksAvailable ∧
    (s.beginRetry request).retried = s.retried ∧ (s.beginRetry request).spammed = s.spammed ∧
    (s.beginRetry request).events = s.events := by
  unfold beginRetry
  split
  · exact ⟨rfl, rfl, rfl, rfl, rfl⟩
  · split
    · split
      · exact ⟨rfl, rfl, rfl, rfl, rfl⟩
      · exact ⟨rfl, rfl, rfl, rfl, rfl⟩
    · exact ⟨rfl, rfl, rfl, rfl, rfl⟩

theorem beginRetry_stage : (s.beginRetry request).stage = s.stage ∨
    ∃ retries, (s.beginRetry request).stage = .counting request retries ∧
      s.loop.state.retries request.uuid = some retries ∧ retries < request.tries := by
  unfold beginRetry
  split
  · exact .inl rfl
  · split
    case h_1 retries known =>
      split
      case isTrue below => exact .inr ⟨retries, rfl, known, below⟩
      case isFalse => exact .inl rfl
    case h_2 => exact .inl rfl

theorem bought_endRetry : (s.endRetry request retries retryUuid).bought uuid
    = s.bought uuid + if request.uuid = uuid then 1 else 0 := by
  rw [bought, endRetry, List.countP_append, List.countP_singleton]
  simp [bought]

/-- The loop raises the counter and buys. -/
theorem Budgeted.endRetry (budgeted : s.Budgeted) (at_ : s.stage = .counting request retries) :
    (s.endRetry request retries retryUuid).Budgeted := by
  obtain ⟨known, below⟩ := budgeted.counting request retries at_
  have before := budgeted.counted request.uuid retries known
  refine ⟨?_, ?_, ?_, ?_⟩
  · intro uuid none
    by_cases own : uuid = request.uuid
    · subst own
      simp [Tries.endRetry, AppState.addRetries] at none
    · rw [bought_endRetry, if_neg (Ne.symm own)]
      refine budgeted.uncounted uuid ?_
      simpa [Tries.endRetry, AppState.addRetries, own] using none
  · intro uuid counter found
    by_cases own : uuid = request.uuid
    · subst own
      have found : retries + 1 = counter := by simpa [Tries.endRetry, AppState.addRetries] using found
      rw [bought_endRetry, if_pos rfl]
      omega
    · rw [bought_endRetry, if_neg (Ne.symm own)]
      refine budgeted.counted uuid counter ?_
      simpa [Tries.endRetry, AppState.addRetries, own] using found
  · intro _ _ found
    cases found
  · intro uuid more
    rw [bought_endRetry] at more ⊢
    by_cases own : request.uuid = uuid
    · subst own
      refine ⟨{ request with retryUuid }, List.mem_append_right _ (List.mem_singleton.mpr rfl), rfl, ?_⟩
      rw [if_pos rfl]
      change ((s.bought request.uuid + 1 : ℕ) : ℤ) < request.tries
      omega
    · rw [if_neg own] at more ⊢
      obtain ⟨other, member, same, enough⟩ := budgeted.covered uuid more
      exact ⟨other, List.mem_append_left _ member, same, enough⟩

theorem Budgeted.turn (budgeted : s.Budgeted) (taken : s.turn retryUuid = some t) : t.Budgeted := by
  unfold Tries.turn at taken
  split at taken
  case h_1 request retries at_ =>
    cases taken
    exact budgeted.endRetry at_
  case h_2 request events idle _ =>
    cases taken
    obtain ⟨counters, -, retried, -, -⟩ := @beginRetry_frame { s with events } request
    refine budgeted.frame counters retried ?_
    rcases @beginRetry_stage { s with events } request with same | ⟨retries, at_, known, below⟩
    · exact .inl same
    · refine .inr fun request' retries' at' => ?_
      rw [at_] at at'
      cases at'
      exact ⟨known, below⟩
  case h_3 =>
    cases taken
    exact budgeted.frame EventLoop.txSent_retries rfl (.inl rfl)
  case h_4 tx _ _ _ =>
    cases taken
    exact budgeted.frame (EventLoop.txConfirmation_frame tx retryUuid).1 rfl (.inl rfl)
  case h_5 => cases taken

/-- A step of `inner_buy` that does not begin a counter leaves them all. -/
theorem innerBuy_retries {call : InnerBuy} {state : AppState} (later : call.stage ≠ .unretried) :
    (call.step state retryUuid).1.retries = state.retries := by
  unfold InnerBuy.step
  dsimp only
  split
  case h_3 begins => exact absurd begins later
  case h_5 => split <;> rfl
  all_goals rfl

theorem innerBuy_available {call : InnerBuy} {state : AppState} :
    (call.step state retryUuid).1.spamTasksAvailable = state.spamTasksAvailable := by
  unfold InnerBuy.step
  dsimp only
  split
  case h_5 => split <;> rfl
  all_goals rfl

/-- What a step of `inner_buy` leaves to the event loop. -/
theorem innerBuy_frame (taken : s.innerBuy i retryUuid = some t) : ∃ call, s.calls[i]? = some call ∧
    t.loop.state = (call.step s.loop.state retryUuid).1 ∧ t.stage = s.stage ∧ t.events = s.events ∧
      t.retried = s.retried ∧ t.spammed = s.spammed := by
  simp only [Tries.innerBuy, Option.bind_eq_bind, Option.bind_eq_some_iff] at taken
  obtain ⟨call, known, taken⟩ := taken
  refine ⟨call, known, ?_⟩
  split at taken
  all_goals
    cases taken
    exact ⟨rfl, rfl, rfl, rfl, rfl⟩

theorem Budgeted.innerBuy (budgeted : s.Budgeted) (allowed : s.begins (.innerBuy i retryUuid))
    (taken : s.innerBuy i retryUuid = some t) : t.Budgeted := by
  obtain ⟨call, known, state, stage, -, retried, -⟩ := innerBuy_frame taken
  by_cases begins : call.stage = .unretried
  · have none : s.loop.state.retries call.tweet.id = none := by simpa [Tries.begins, known, begins] using allowed
    have counters : t.loop.state.retries = Function.update s.loop.state.retries call.tweet.id (some 1) := by
      simp [state, InnerBuy.step, begins, AppState.addRetries]
    have bought : t.bought = s.bought := funext fun uuid => by rw [Tries.bought, Tries.bought, retried]
    refine ⟨fun uuid missing => ?_, fun uuid retries found => ?_, fun request retries at_ => ?_, ?_⟩
    · rw [bought]
      by_cases own : uuid = call.tweet.id
      · subst own
        exact budgeted.uncounted _ none
      · rw [counters, Function.update_of_ne own] at missing
        exact budgeted.uncounted _ missing
    · rw [bought]
      by_cases own : uuid = call.tweet.id
      · subst own
        rw [counters, Function.update_self] at found
        cases found
        rw [budgeted.uncounted _ none]
        exact Int.one_pos
      · rw [counters, Function.update_of_ne own] at found
        exact budgeted.counted _ _ found
    · obtain ⟨counter, below⟩ := budgeted.counting request retries (stage ▸ at_)
      have other : request.uuid ≠ call.tweet.id := by
        intro own
        rw [own, none] at counter
        cases counter
      rw [counters, Function.update_of_ne other]
      exact ⟨counter, below⟩
    · rw [bought, retried]
      exact budgeted.covered
  · refine budgeted.frame ?_ retried (.inl stage)
    rw [state]
    exact innerBuy_retries begins

theorem Budgeted.step (budgeted : s.Budgeted) (allowed : s.begins a) (taken : s.step a = some t) : t.Budgeted := by
  cases a with
  | send event =>
    simp only [Tries.step] at taken
    split at taken
    · cases taken
      exact budgeted.frame rfl rfl (.inl rfl)
    · cases taken
  | loop retryUuid => exact budgeted.turn taken
  | spam retryUuid =>
    cases taken
    unfold spam
    split
    · exact budgeted.frame rfl rfl (.inl rfl)
    · exact budgeted.frame rfl rfl (.inl rfl)
  | call tweet tasks mintAddress =>
    cases taken
    exact budgeted.frame rfl rfl (.inl rfl)
  | innerBuy i retryUuid => exact budgeted.innerBuy allowed taken

/-- Steps that add nothing to the spam list. -/
theorem Spammed.frame (spammed : s.Spammed) (sound : ∀ event ∈ t.events, event ∈ s.events ∨ event.sound)
    (available : t.loop.state.spamTasksAvailable = s.loop.state.spamTasksAvailable) (same : t.spammed = s.spammed) :
    t.Spammed := by
  have entries : t.entries = s.entries := funext fun uuid => by rw [Tries.entries, Tries.entries, same]
  refine ⟨fun event member => (sound event member).elim (spammed.sound event) id, ?_, ?_⟩
  · rw [available, entries]
    exact spammed.first
  · rw [entries]
    exact spammed.once

theorem entries_txSent {tx : MonitorTx} {events : List MpscTask} (own : ∀ task, tx.task = some task → task.uuid = tx.uuid)
    (more : uuid ≠ tx.uuid ∨ s.loop.state.spamTasksAvailable tx.uuid ≠ none) :
    Tries.entries { s with
      events, loop := s.loop.txSent tx retryUuid, spammed := s.spammed ++ s.loop.entering tx retryUuid } uuid
      = s.entries uuid := by
  rw [entries, List.countP_append, entries, Nat.add_eq_left, List.countP_eq_zero]
  intro request member
  unfold EventLoop.entering at member
  split at member
  · rename_i fresh
    rcases more with other | known
    · obtain ⟨task, has, rfl⟩ := by simpa using member
      simpa [own task has] using Ne.symm other
    · exact absurd (Option.isNone_iff_eq_none.mp fresh) known
  · cases member

theorem Spammed.txSent {tx : MonitorTx} {events : List MpscTask} (spammed : s.Spammed)
    (sound : ∀ event ∈ events, event ∈ s.events) (own : ∀ task, tx.task = some task → task.uuid = tx.uuid) :
    Spammed { s with
      events, loop := s.loop.txSent tx retryUuid, spammed := s.spammed ++ s.loop.entering tx retryUuid } := by
  refine ⟨fun event member => spammed.sound event (sound event member), fun uuid missing => ?_, fun uuid => ?_⟩
  · have known : ¬(s.loop.state.spamTasksAvailable uuid ≠ none ∨ uuid = tx.uuid) := fun known =>
      EventLoop.txSent_available known missing
    rw [not_or, not_not] at known
    rw [entries_txSent own (.inl known.2)]
    exact spammed.first uuid known.1
  · by_cases fresh : uuid = tx.uuid ∧ s.loop.state.spamTasksAvailable tx.uuid = none
    · obtain ⟨rfl, none⟩ := fresh
      have before : s.spammed.countP (·.uuid = tx.uuid) = 0 := spammed.first tx.uuid none
      have one : (s.loop.entering tx retryUuid).length ≤ 1 := by
        rw [EventLoop.entering, if_pos (Option.isNone_iff_eq_none.mpr none)]
        cases tx.task <;> simp
      rw [entries, List.countP_append, before, Nat.zero_add]
      exact List.countP_le_length.trans one
    · rw [entries_txSent own]
      · exact spammed.once uuid
      · by_cases other : uuid = tx.uuid
        · exact .inr fun none => fresh ⟨other, none⟩
        · exact .inl other

theorem own_of_sound {tx : MonitorTx} (sound : (MpscTask.txSent tx).sound) :
    ∀ task, tx.task = some task → task.uuid = tx.uuid := by
  intro task has
  have made : tx = .new task tx.signature := by simpa [MpscTask.sound, has] using sound
  rw [made]
  rfl

theorem Spammed.turn (spammed : s.Spammed) (taken : s.turn retryUuid = some t) : t.Spammed := by
  unfold Tries.turn at taken
  split at taken
  case h_1 =>
    cases taken
    exact spammed.frame (fun _ => .inl) rfl rfl
  case h_2 request events _ waiting =>
    cases taken
    obtain ⟨-, available, -, same, kept⟩ := @beginRetry_frame { s with events } request
    refine spammed.frame (fun event member => .inl ?_) available same
    rw [kept] at member
    rw [waiting]
    exact List.mem_cons_of_mem _ member
  case h_3 tx events _ waiting =>
    cases taken
    refine spammed.txSent (fun event member => ?_) (own_of_sound (spammed.sound _ ?_))
    · rw [waiting]
      exact List.mem_cons_of_mem _ member
    · rw [waiting]
      exact List.mem_cons_self
  case h_4 tx events _ waiting =>
    cases taken
    refine spammed.frame (fun event member => ?_) (EventLoop.txConfirmation_frame tx retryUuid).2 rfl
    rcases List.mem_append.mp member with before | new
    · rw [waiting]
      exact .inl (List.mem_cons_of_mem _ before)
    · exact .inr (EventLoop.txConfirmation_sent (Option.mem_toList.mp new))
  case h_5 => cases taken

theorem Spammed.step (spammed : s.Spammed) (taken : s.step a = some t) : t.Spammed := by
  cases a with
  | send event =>
    simp only [Tries.step] at taken
    split at taken
    case isTrue sound =>
      cases taken
      refine spammed.frame (fun other member => ?_) rfl rfl
      rcases List.mem_append.mp member with before | new
      · exact .inl before
      · exact .inr (List.mem_singleton.mp new ▸ sound)
    case isFalse => cases taken
  | loop retryUuid => exact spammed.turn taken
  | spam retryUuid =>
    cases taken
    unfold spam
    split
    · exact spammed.frame (fun _ => .inl) rfl rfl
    · refine spammed.frame (fun other member => ?_) rfl rfl
      rcases List.mem_append.mp member with before | new
      · exact .inl before
      · exact .inr (List.mem_singleton.mp new ▸ rfl)
  | call tweet tasks mintAddress =>
    cases taken
    exact spammed.frame (fun _ => .inl) rfl rfl
  | innerBuy i retryUuid =>
    obtain ⟨call, -, state, -, events, -, same⟩ := innerBuy_frame taken
    refine spammed.frame (fun event member => .inl (events ▸ member)) ?_ same
    rw [state]
    exact innerBuy_available

end Tries

section Runs

variable {serverName : String} {s : Tries}

/-- Whatever the order of the steps, no id enters the spam list twice. -/
theorem spammed_once (reached : (tries serverName).Reachable s) (uuid : String) : s.entries uuid ≤ 1 := by
  refine Tries.Spammed.once ?_ uuid
  refine reached.invariant Tries.Spammed ?_ fun _ _ _ spammed _ taken => spammed.step taken
  exact ⟨fun _ none => (nomatch none), fun _ _ => rfl, fun _ => Nat.zero_le _⟩

/-- **The tries are a budget**, where no counter is begun that another call has begun meanwhile. -/
theorem retry_budget (reached : (tries serverName).Reaches (fun s a => s.begins a) s) (uuid : String) :
    (∀ T : ℤ, (∀ request ∈ s.retried, request.uuid = uuid → request.tries ≤ T) → s.bought uuid ≤ (T - 1).toNat) ∧
      s.entries uuid ≤ 1 := by
  have budgeted : s.Budgeted :=
    reached.invariant Tries.Budgeted .initial fun _ _ _ budgeted allowed taken => budgeted.step allowed taken
  refine ⟨fun T most => ?_, spammed_once reached.reachable uuid⟩
  by_cases some : 0 < s.bought uuid
  · obtain ⟨request, member, own, enough⟩ := budgeted.covered uuid some
    have := most request member own
    omega
  · omega

/-- A transaction of the purchase is reported, fails and is tried again. -/
def failing (signature : String) : List TriesAction :=
  [.send (.txSent (.new { purchase with retryUuid := signature } signature)), .send (.txConfirmation ⟨signature, false⟩),
    .loop "entered", .loop "again", .loop "begun", .loop "bought"]

def buying (call steps : ℕ) : List TriesAction := List.replicate steps (.innerBuy call "first")

/-- Two calls for a tweet, the first of which begins the counter and buys. -/
def twoCalls (before : ℕ) : List TriesAction :=
  [.call coin [order] (some "mint"), .call coin [order] (some "mint")] ++ buying 0 before ++ buying 1 2 ++ buying 0 (7 - before)

theorem retry_budget_spent : ∃ s, (tries "eu").Reaches (fun s a => s.begins a) s ∧ s.bought "1" = 2 ∧
    ((∀ T : ℤ, (∀ request ∈ s.retried, request.uuid = "1" → request.tries ≤ T) → s.bought "1" ≤ (T - 1).toNat) ∧
      s.entries "1" ≤ 1) := by
  obtain ⟨s, reached, spent⟩ := Machine.Reaches.of_trace (tries "eu") (fun s a => s.begins a)
    (twoCalls 3 ++ failing "a" ++ failing "b") (·.bought "1" = 2) (by decide +kernel)
  exact ⟨s, reached, spent, retry_budget reached "1"⟩

/-- The second call has found no counter either, and begins it anew after two retries. -/
theorem retry_budget_fails : ∃ s, (tries "eu").Reachable s ∧ (∀ request ∈ s.retried, request.tries = 3) ∧
    ¬ s.bought "1" ≤ 2 := by
  obtain ⟨s, reached, tries, more⟩ := Machine.Reachable.of_trace (tries "eu")
    (twoCalls 2 ++ failing "a" ++ failing "b" ++ buying 1 1 ++ failing "c")
    (fun s => (∀ request ∈ s.retried, request.tries = 3) ∧ ¬ s.bought "1" ≤ 2) (by decide +kernel)
  exact ⟨s, reached, tries, more⟩

end Runs

end RndRust.Sniper
