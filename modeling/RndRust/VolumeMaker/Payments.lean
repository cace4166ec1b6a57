import Mathlib.Algebra.Order.Group.Int
import Mathlib.Data.Rat.Defs
import RndRust.Lib.Register
import RndRust.Lib.Runs
import RndRust.Lib.Updates
import RndRust.VolumeMaker.Subscription

/-! `create_payment_req` of `routes/subscription.rs`, statement by statement: the payment is inserted, the
subscription is read, and its due date is written. Any number of requests for one subscription interleave. -/
namespace RndRust.VolumeMaker.Payments
open Lib

/-- What the database holds of a subscription; times are in microseconds. -/
structure Subscription where
  id : ℤ
  nextPaymentDue : ℤ
  status : String
  deriving DecidableEq

structure NewPayment where
  subscriptionId : ℤ
  amount : ℚ
  currency : String
  paidAt : ℤ
  recordedBy : ℤ
  notes : Option String
  deriving DecidableEq

structure CreatePaymentPayload where
  amount : ℚ
  currency : String := "USD"
  paidAt : Option (List Char) := none
  notes : Option String := none

/-- A request, with the user who makes it and the time that the clock shows. -/
structure Request where
  claimsId : ℤ
  payload : CreatePaymentPayload
  now : ℤ

inductive Response where
  | ok (data : NewPayment)
  | badRequest (error : String)
  | notFound (error : String)
  /-- The handler panics over the date. -/
  | panicked (fault : Fault)
  deriving DecidableEq

/-- What a request does next. -/
inductive Stage where
  | received
  | recorded (payment : NewPayment)
  | read (payment : NewPayment) (nextPaymentDue : ℤ)
  | updated (payment : NewPayment)
  | answered (response : Response)
  deriving DecidableEq

structure Db where
  subscription : Option Subscription
  payments : List NewPayment

def thirtyDays : ℤ := 30 * 86400 * 1000000

section Handler

variable (subscriptionId : ℤ) (f64ToBigInt : ℚ → ℚ)

/-- `paid_at`. -/
def paidAt (request : Request) : Except Fault (Option ℤ) :=
  match request.payload.paidAt with
  | some d => (parseDate d).map fun time => time.map fun seconds : ℕ => (seconds : ℤ) * 1000000
  | none => .ok (some request.now)

def newPayment (request : Request) (paidAt : ℤ) : NewPayment where
  subscriptionId := subscriptionId
  amount := f64ToBigInt request.payload.amount
  currency := request.payload.currency
  paidAt := paidAt
  recordedBy := request.claimsId
  notes := request.payload.notes

/-- `create_payment`, whose foreign key needs the subscription. -/
def createPayment (db : Db) (payment : NewPayment) : Option Db :=
  db.subscription.map fun _ => { db with payments := db.payments ++ [payment] }

/-- The update of `advance_subscription_due_date`. -/
def advance (db : Db) (nextPaymentDue : ℤ) : Db :=
  { db with subscription := db.subscription.map fun s => { s with nextPaymentDue := nextPaymentDue, status := "active" } }

/-- What comes before the first statement, and the statement. -/
def receive (db : Db) (request : Request) : Db × Stage :=
  if request.payload.amount ≤ 0 then (db, .answered (.badRequest "Amount must be positive"))
  else
    match paidAt request with
    | .error fault => (db, .answered (.panicked fault))
    | .ok none => (db, .answered (.badRequest "Invalid date format. Use YYYY-MM-DD"))
    | .ok (some paidAt) =>
      let payment := newPayment subscriptionId f64ToBigInt request paidAt
      match createPayment db payment with
      | some db => (db, .recorded payment)
      | none => (db, .answered (.notFound "Subscription not found"))

/-- `create_payment_req` up to and with its next statement. -/
def proceed (db : Db) (request : Request) : Stage → Option (Db × Stage)
  | .received => some (receive subscriptionId f64ToBigInt db request)
  | .recorded payment =>
    match db.subscription with
    | some s => some (db, .read payment s.nextPaymentDue)
    | none => some (db, .answered (.ok payment))
  | .read payment nextPaymentDue => some (advance db (nextPaymentDue + thirtyDays), .updated payment)
  -- The updated subscription is read once more, and dropped.
  | .updated payment => some (db, .answered (.ok payment))
  | .answered _ => none

end Handler

def Stage.done : Stage → Bool
  | .answered _ => true
  | _ => false

/-- The database and the requests that have come in. -/
structure System where
  db : Db
  requests : List (Request × Stage)

inductive Action where
  | submit (request : Request)
  | run (i : ℕ)

namespace System

variable (subscriptionId : ℤ) (f64ToBigInt : ℚ → ℚ)

def step (s : System) : Action → Option System
  | .submit request => some { s with requests := s.requests ++ [(request, .received)] }
  | .run i => do
    let (request, stage) ← s.requests[i]?
    let (db, stage) ← proceed subscriptionId f64ToBigInt s.db request stage
    some ⟨db, s.requests.set i (request, stage)⟩

/-- The subscription is there, and no request has come in yet. -/
def machine (subscription : Subscription) (earlier : List NewPayment) : Machine System Action where
  initial := ⟨⟨some subscription, earlier⟩, []⟩
  step := step subscription.id f64ToBigInt

/-- Every request has been answered. -/
def Completed (s : System) : Prop := ∀ x ∈ s.requests, x.2.done

instance (s : System) : Decidable s.Completed := inferInstanceAs (Decidable (∀ x ∈ s.requests, _))

/-- The condition: who writes the due date has read the one that is stored. -/
def fresh (s : System) : Action → Bool
  | .submit _ => true
  | .run i =>
    match s.requests[i]? with
    | some (_, .read _ nextPaymentDue) => s.db.subscription.all fun now => now.nextPaymentDue = nextPaymentDue
    | _ => true

end System

/-- A payment has been recorded for the request. -/
def Stage.paid : Stage → Bool
  | .recorded _ | .read _ _ | .updated _ | .answered (.ok _) => true
  | _ => false

/-- The request has written the due date. -/
def Stage.wrote : Stage → Bool
  | .updated _ | .answered (.ok _) => true
  | _ => false

namespace System

/-- A request is about to write on the strength of this due date. -/
def Read (s : System) (nextPaymentDue : ℤ) : Prop := ∃ request payment, (request, .read payment nextPaymentDue) ∈ s.requests

def writes (s : System) : ℕ := s.requests.countP fun x => x.2.wrote

def due (s : System) : ℤ := (s.db.subscription.map Subscription.nextPaymentDue).getD 0

/-- What every run keeps. -/
structure Sound (first : ℤ) (earlier : ℕ) (s : System) : Prop where
  present : s.db.subscription.isSome
  counted : s.db.payments.length = earlier + s.requests.countP fun x => x.2.paid
  raised : Raised first thirtyDays s.due s.writes s.Read

/-- No advance has been lost. -/
def Full (first : ℤ) (s : System) : Prop := s.due = first + s.writes • thirtyDays

section Steps

variable {subscriptionId first : ℤ} {f64ToBigInt : ℚ → ℚ} {db db' : Db} {request : Request} {stage stage' : Stage}
  {subscription : Subscription} {earlier i : ℕ} {s s' : System} {action : Action} {payment : NewPayment} {v : ℤ}

/-- A statement that leaves the due date alone; what is read is the one that is stored. -/
structure Quiet (subscription : Subscription) (db db' : Db) (stage stage' : Stage) : Prop where
  kept : db'.subscription = some subscription
  counted : db'.payments.length + stage.paid.toNat = db.payments.length + stage'.paid.toNat
  wrote : stage'.wrote = stage.wrote
  reads : ∀ payment v, stage' = .read payment v → v = subscription.nextPaymentDue
  writes : ∀ payment v, stage ≠ .read payment v

theorem receive_quiet (present : db.subscription = some subscription) :
    Quiet subscription db (receive subscriptionId f64ToBigInt db request).1 .received
      (receive subscriptionId f64ToBigInt db request).2 := by
  have refused : ∀ response, (∀ payment, response ≠ .ok payment) →
      Quiet subscription db db .received (.answered response) := by
    rintro response none
    cases response with
    | ok payment => exact absurd rfl (none payment)
    | badRequest | notFound | panicked => exact ⟨present, rfl, rfl, by simp, by simp⟩
  unfold receive
  split
  case isTrue => exact refused _ (by simp)
  case isFalse =>
    split
    case h_1 => exact refused _ (by simp)
    case h_2 => exact refused _ (by simp)
    case h_3 => exact ⟨by simp [createPayment, present], by simp [createPayment, present, Stage.paid],
        by simp [createPayment, present, Stage.wrote], by simp [createPayment, present], by simp⟩

/-- What a statement does: it is quiet, or it writes what has been read and thirty days more. -/
theorem proceed_cases (present : db.subscription = some subscription)
    (went : proceed subscriptionId f64ToBigInt db request stage = some (db', stage')) :
    Quiet subscription db db' stage stage' ∨
      ∃ payment v, stage = .read payment v ∧ stage' = .updated payment ∧ db' = advance db (v + thirtyDays) := by
  cases stage with
  | received =>
    obtain ⟨rfl, rfl⟩ := Prod.mk.inj (Option.some.inj went)
    exact .inl (receive_quiet present)
  | recorded payment =>
    simp only [proceed, present, Option.some.injEq, Prod.mk.injEq] at went
    obtain ⟨rfl, rfl⟩ := went
    exact .inl ⟨present, rfl, rfl, by simp, by simp⟩
  | read payment v =>
    cases went
    exact .inr ⟨payment, v, rfl, rfl, rfl⟩
  | updated payment =>
    cases went
    exact .inl ⟨present, rfl, rfl, by simp, by simp⟩
  | answered response => cases went

theorem Sound.submit (sound : s.Sound first earlier) :
    Sound first earlier { s with requests := s.requests ++ [(request, .received)] } := by
  have writes : (({ s with requests := s.requests ++ [(request, .received)] } : System)).writes = s.writes := by
    simp [System.writes, Stage.wrote]
  refine ⟨sound.present, ?_, ?_⟩
  · simpa [Stage.paid] using sound.counted
  · rw [writes]
    refine sound.raised.weaken ?_
    rintro v ⟨request, payment, member⟩
    exact ⟨request, payment, by simpa using member⟩

/-- How many requests are in a stage of some kind, when one goes on. -/
theorem countP_stage (stage' : Stage) (kind : Stage → Bool) (known : s.requests[i]? = some (request, stage)) :
    (s.requests.set i (request, stage')).countP (fun x => kind x.2) + (kind stage).toNat
      = s.requests.countP (fun x => kind x.2) + (kind stage').toNat := by
  have counted := countP_set_known (y := (request, stage')) (p := fun x => kind x.2) known
  simpa [Bool.toNat, Bool.cond_eq_ite] using counted

theorem Sound.quiet (sound : s.Sound first earlier) (present : s.db.subscription = some subscription)
    (known : s.requests[i]? = some (request, stage)) (quiet : Quiet subscription s.db db' stage stage') :
    Sound first earlier ⟨db', s.requests.set i (request, stage')⟩ ∧
      (Full first ⟨db', s.requests.set i (request, stage')⟩ ↔ s.Full first) := by
  have writes : System.writes ⟨db', s.requests.set i (request, stage')⟩ = s.writes := by
    have counted := countP_stage stage' Stage.wrote known
    rw [quiet.wrote] at counted
    exact Nat.add_right_cancel counted
  have due : System.due ⟨db', s.requests.set i (request, stage')⟩ = s.due := by
    simp [System.due, quiet.kept, present]
  refine ⟨⟨?_, ?_, ?_⟩, ?_⟩
  · rw [quiet.kept]
    rfl
  · have counted := countP_stage stage' Stage.paid known
    have before := sound.counted
    have paid := quiet.counted
    dsimp only
    omega
  · rw [due, writes]
    refine sound.raised.read ?_
    rintro v ⟨request', payment, member⟩
    rcases List.mem_or_eq_of_mem_set member with before | same
    · exact .inl ⟨request', payment, before⟩
    · have read := quiet.reads payment v (congrArg Prod.snd same).symm
      exact .inr (by simp [System.due, present, read])
  · rw [Full, Full, due, writes]

theorem Sound.write (sound : s.Sound first earlier) (present : s.db.subscription = some subscription)
    (known : s.requests[i]? = some (request, .read payment v)) :
    Sound first earlier ⟨advance s.db (v + thirtyDays), s.requests.set i (request, .updated payment)⟩ ∧
      (Full first ⟨advance s.db (v + thirtyDays), s.requests.set i (request, .updated payment)⟩ ↔
        s.Full first ∧ s.due = v) := by
  have read : s.Read v := ⟨request, payment, List.mem_of_getElem? known⟩
  have writes : System.writes ⟨advance s.db (v + thirtyDays), s.requests.set i (request, .updated payment)⟩
      = s.writes + 1 := countP_stage (.updated payment) Stage.wrote known
  have due : System.due ⟨advance s.db (v + thirtyDays), s.requests.set i (request, .updated payment)⟩
      = v + thirtyDays := by
    simp [System.due, advance, present]
  refine ⟨⟨?_, ?_, ?_⟩, ?_⟩
  · simp [advance, present]
  · have counted := countP_stage (.updated payment) Stage.paid known
    have before := sound.counted
    exact before.trans (congrArg (earlier + ·) (Nat.add_right_cancel counted).symm)
  · rw [due, writes]
    refine (sound.raised.write (by decide) read).weaken ?_
    rintro u ⟨request', payment', member⟩
    rcases List.mem_or_eq_of_mem_set member with before | same
    · exact ⟨request', payment', before⟩
    · cases congrArg Prod.snd same
  · rw [Full, due, writes]
    exact sound.raised.write_full_iff read

/-- A step keeps every run's invariant, and loses no advance exactly if it was allowed. -/
theorem Sound.step (sound : s.Sound first earlier)
    (taken : System.step subscriptionId f64ToBigInt s action = some s') :
    Sound first earlier s' ∧ (Full first s' ↔ s.Full first ∧ s.fresh action) := by
  cases action with
  | submit request =>
    cases taken
    refine ⟨sound.submit, ?_⟩
    simp [Full, System.due, System.writes, Stage.wrote, fresh]
  | run i =>
    simp only [System.step, Option.bind_eq_bind, Option.bind_eq_some_iff, Prod.exists, Option.some.injEq] at taken
    obtain ⟨request, stage, known, db', stage', went, rfl⟩ := taken
    obtain ⟨subscription, present⟩ := Option.isSome_iff_exists.mp sound.present
    rcases proceed_cases present went with quiet | ⟨payment, v, rfl, rfl, rfl⟩
    · have allowed : s.fresh (.run i) := by
        rw [fresh, known]
        cases stage with
        | read payment v => exact absurd rfl (quiet.writes payment v)
        | received | recorded | updated | answered => rfl
      obtain ⟨still, full⟩ := sound.quiet present known quiet
      exact ⟨still, full.trans (iff_self_and.mpr fun _ => allowed)⟩
    · obtain ⟨still, full⟩ := sound.write present known
      refine ⟨still, full.trans (and_congr_right fun _ => ?_)⟩
      simp [fresh, known, present, System.due]

end Steps

section Runs

variable {f64ToBigInt : ℚ → ℚ} {subscription : Subscription} {earlier : List NewPayment} {trace : List Action} {s : System}

theorem Sound.initial : Sound subscription.nextPaymentDue earlier.length (machine f64ToBigInt subscription earlier).initial := by
  refine ⟨rfl, rfl, .initial ?_⟩
  rintro v ⟨request, payment, member⟩
  cases member

/-- Who has been answered has written exactly if a payment was recorded. -/
theorem Completed.writes (done : s.Completed) : s.writes = s.requests.countP fun x => x.2.paid := by
  refine List.countP_congr fun x member => ?_
  obtain ⟨request, stage⟩ := x
  have answered := done _ member
  cases stage with
  | answered response => cases response <;> rfl
  | received | recorded | read | updated => cases answered

/-- **Every payment advances the due date once** in those completed runs in which whoever writes it has read the
one that is stored, and in no other. -/
theorem due_advances_iff (ran : (machine f64ToBigInt subscription earlier).run
      (machine f64ToBigInt subscription earlier).initial trace = some s) (done : s.Completed) :
    s.db.subscription.map Subscription.nextPaymentDue =
        some (subscription.nextPaymentDue + thirtyDays * ((s.db.payments.length : ℤ) - earlier.length)) ↔
      ((machine f64ToBigInt subscription earlier).guard fun s action => s.fresh action).run
        (machine f64ToBigInt subscription earlier).initial trace = some s := by
  have every := Machine.run_guard_iff (Sound subscription.nextPaymentDue earlier.length)
    (Full subscription.nextPaymentDue) (fun _ _ _ sound taken => (sound.step taken).1)
    (fun _ _ _ sound taken => (sound.step taken).2) Sound.initial ran
  have start : Full subscription.nextPaymentDue (machine f64ToBigInt subscription earlier).initial := by
    simp [Full, due, writes, machine]
  rw [and_iff_right start] at every
  refine Iff.trans ?_ every
  have sound : Sound subscription.nextPaymentDue earlier.length s :=
    (Machine.Reachable.run .initial ran).invariant _ Sound.initial fun _ _ _ sound _ taken => (sound.step taken).1
  obtain ⟨now, present⟩ := Option.isSome_iff_exists.mp sound.present
  have paid : (s.db.payments.length : ℤ) - earlier.length = s.writes := by
    rw [sound.counted, done.writes]
    omega
  rw [Full, due, present, paid, nsmul_eq_mul, mul_comm]
  simp

end Runs

/-- Two administrators record a payment at the same time. -/
def together : List Action :=
  let request : Request := ⟨1, { amount := 100 }, 0⟩
  [.submit request, .submit request, .run 0, .run 1, .run 0, .run 1, .run 0, .run 1, .run 0, .run 1]

def dueToday : Subscription := ⟨7, 0, "active"⟩

/-- A payment, and another one after it. -/
def inTurn : List Action :=
  let request : Request := ⟨1, { amount := 100 }, 0⟩
  [.submit request, .run 0, .run 0, .submit request, .run 1, .run 0, .run 0, .run 1, .run 1, .run 1]

theorem due_advances_inTurn : ∃ s, (machine id dueToday []).run (machine id dueToday []).initial inTurn = some s ∧
    s.Completed ∧ (s.db.subscription.map Subscription.nextPaymentDue =
        some (dueToday.nextPaymentDue + thirtyDays * ((s.db.payments.length : ℤ) - ([] : List NewPayment).length)) ↔
      ((machine id dueToday []).guard fun s action => s.fresh action).run
        (machine id dueToday []).initial inTurn = some s) := by
  have runs : ((machine id dueToday []).run (machine id dueToday []).initial inTurn).any fun s => decide s.Completed := by
    decide +kernel
  obtain ⟨s, ran, done⟩ := (Option.any_eq_true _ _).mp runs
  exact ⟨s, ran, of_decide_eq_true done, due_advances_iff ran (of_decide_eq_true done)⟩

theorem due_advances_fails : ∃ s, (machine id dueToday []).run (machine id dueToday []).initial together = some s ∧
    s.Completed ∧ s.db.payments.length = 2 ∧
      s.db.subscription.map Subscription.nextPaymentDue ≠ some (dueToday.nextPaymentDue + thirtyDays * 2) := by
  have runs : ((machine id dueToday []).run (machine id dueToday []).initial together).any fun s =>
      decide (s.Completed ∧ s.db.payments.length = 2 ∧
        s.db.subscription.map Subscription.nextPaymentDue ≠ some (dueToday.nextPaymentDue + thirtyDays * 2)) := by
    decide +kernel
  obtain ⟨s, ran, final⟩ := (Option.any_eq_true _ _).mp runs
  exact ⟨s, ran, of_decide_eq_true final⟩

end System

end RndRust.VolumeMaker.Payments
