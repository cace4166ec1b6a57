import RndRust.Sniper.EventLoop

/-! The sniper as a whole: `full_buy` of `solana.rs` and what it spawns, the event loop, the
spam loop and the chain. An action is what one of them does between two waits. -/
namespace RndRust.Sniper
open Lib

inductive BundleType where
  | nextblock
  | jito
  | bloxroute
  | zeroSlot
  deriving DecidableEq

/-- `str::ends_with`. -/
def endsWith (text part : String) : Bool := decide (part.toList <:+ text.toList)

/-- The builders a request names. -/
def bundleTypes (payload : BuyRequest) : List BundleType :=
  match payload.blockLeaders with
  | some builders =>
    let builders := split builders ','
    (if "NEXTBLOCK" ∈ builders then [.nextblock] else []) ++ (if "JITO" ∈ builders then [.jito] else []) ++
      (if "BLOXROUTE" ∈ builders then [.bloxroute] else []) ++ if "ZERO_SLOT" ∈ builders then [.zeroSlot] else []
  | none => []

/-- What `full_buy` goes on to spawn; `none` where it returns before. -/
def fullBuy (serverName : String) (payload : BuyRequest) : Option (List BundleType) :=
  if payload.selectedPool = "PUMPFUN_ONLY" ∧ ¬endsWith payload.mint "pump" then none
  else if payload.selectedPool = "EXCLUDE_PUMPFUN" ∧ endsWith payload.mint "pump" then none
  else if payload.servers.any fun servers => serverName ∉ split servers ',' then none
  else some (bundleTypes payload)

/-- One of the two tasks `full_buy` waits for. -/
inductive Fetch (α : Type) where
  | waiting
  | failed
  | fetched (value : α)
  deriving DecidableEq

def Fetch.ofOption {α : Type} : Option α → Fetch α
  | some value => .fetched value
  | none => .failed

/-- A task that `full_buy` has spawned. A value of a nonce account stands for how often the
account had been advanced. -/
structure BuyTask where
  request : BuyRequest
  bundleTypes : List BundleType
  /-- Whether Jupiter gave instructions. -/
  instructions : Fetch Bool := .waiting
  nonce : Fetch ℕ := .waiting
  constructed : Bool := false
  deriving DecidableEq

/-- The transaction of one `sign_and_send`. -/
structure Transaction where
  request : BuyRequest
  bundleType : BundleType
  nonce : ℕ
  /-- Once it is on its way to the builder. -/
  signature : Option String := none
  /-- Whether the builder has answered. -/
  answered : Bool := false
  /-- How the chain has executed it. -/
  executed : Option Bool := none
  deriving DecidableEq

/-- The sniper and the chain. -/
structure Runtime where
  loop : EventLoop
  queue : List MpscTask := []
  /-- What the spam loop has read and not sent. -/
  spamming : List BuyRequest := []
  tasks : List BuyTask := []
  txs : List Transaction := []
  nonces : String → ℕ := fun _ => 0

inductive RuntimeAction where
  /-- `inner_buy` counts a first try. -/
  | counted (uuid : String)
  /-- A request of `inner_buy` or of `start_tasks`. -/
  | buy (request : BuyRequest)
  /-- The event loop takes the next event. -/
  | event (retryUuid : String)
  /-- The spam loop reads its list. -/
  | spam
  | spamSend (retryUuid : String)
  | instructions (task : ℕ) (some? : Option Bool)
  /-- The account of the nonce is read; what is read may be old. -/
  | nonce (task : ℕ) (value : Option ℕ)
  | construct (task : ℕ)
  | submit (tx : ℕ) (signature : String)
  | answer (tx : ℕ) (accepted : Bool)
  | execute (tx : ℕ) (success : Bool)
  | confirm (tx : ℕ)

namespace Runtime

variable (s : Runtime)

/-- `full_buy`. -/
def buy (request : BuyRequest) : Runtime :=
  match fullBuy s.loop.state.serverName request with
  | some bundleTypes => { s with tasks := s.tasks ++ [{ request, bundleTypes }] }
  | none => s

/-- The event loop has processed an event. -/
def handled (h : Handled) : Runtime :=
  let s := { s with loop := h.loop, queue := s.queue ++ h.sent.toList }
  match h.fullBuy with
  | some request => s.buy request
  | none => s

/-- What a task signs once both of its fetches are done. -/
def compile (task : BuyTask) : List Transaction :=
  match task.instructions, task.nonce with
  | .fetched true, .fetched nonce =>
    task.bundleTypes.map fun bundleType => { request := task.request, bundleType, nonce }
  | _, _ => []

def setTask (i : ℕ) (task : BuyTask) : Runtime := { s with tasks := s.tasks.set i task }

def setTx (i : ℕ) (tx : Transaction) : Runtime := { s with txs := s.txs.set i tx }

def step (s : Runtime) : RuntimeAction → Option Runtime
  | .counted uuid =>
    some { s with loop := { s.loop with state :=
      if (s.loop.state.retries uuid).isNone then s.loop.state.addRetries uuid 1 else s.loop.state } }
  | .buy request => some (s.buy request)
  | .event retryUuid =>
    match s.queue with
    | event :: queue => some ({ s with queue }.handled (s.loop.handle event retryUuid))
    | [] => none
  | .spam => if s.spamming = [] then some { s with spamming := s.loop.state.spamTasks } else none
  | .spamSend retryUuid =>
    match s.spamming with
    | request :: spamming => some { s with spamming, queue := s.queue ++ [.retry { request with retryUuid }] }
    | [] => none
  | .instructions i some? => do
    let task ← s.tasks[i]?
    if task.instructions = .waiting then some (s.setTask i { task with instructions := .ofOption some? }) else none
  | .nonce i value => do
    let task ← s.tasks[i]?
    if task.nonce = .waiting ∧ ∀ v ∈ value, v ≤ s.nonces task.request.nonceAccountAddress then
      some (s.setTask i { task with nonce := .ofOption value })
    else none
  | .construct i => do
    let task ← s.tasks[i]?
    if task.constructed ∨ task.instructions = .waiting ∨ task.nonce = .waiting then none
    else some { s.setTask i { task with constructed := true } with txs := s.txs ++ compile task }
  | .submit i signature => do
    let tx ← s.txs[i]?
    if tx.signature = none then some (s.setTx i { tx with signature := some signature }) else none
  | .answer i accepted => do
    let tx ← s.txs[i]?
    let signature ← tx.signature
    if tx.answered then none
    else
      let sent := if accepted then [.txSent (.new tx.request signature)] else []
      some { s.setTx i { tx with answered := true } with queue := s.queue ++ sent }
  | .execute i success => do
    let tx ← s.txs[i]?
    let account := tx.request.nonceAccountAddress
    if tx.signature.isSome ∧ tx.executed = none ∧ tx.nonce = s.nonces account then
      some { s.setTx i { tx with executed := some success } with
        nonces := Function.update s.nonces account (s.nonces account + 1) }
    else none
  | .confirm i => do
    let tx ← s.txs[i]?
    let signature ← tx.signature
    let success ← tx.executed
    some { s with queue := s.queue ++ [.txConfirmation ⟨signature, success⟩] }

end Runtime

/-- A sniper that has just started. -/
def runtime (serverName : String) : Machine Runtime RuntimeAction where
  initial := { loop := { state := { serverName } } }
  step := Runtime.step

end RndRust.Sniper
