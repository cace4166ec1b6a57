import Mathlib.Data.Nat.Notation
import RndRust.Lib.Runs

/-! The ELM327 transport of `elm327.rs`: one connection, from the init sequence on. The
program sends a command, reads bytes up to the prompt, and gives up when a timeout
strikes; the adapter answers in its own time. -/
namespace RndRust.Makana
open Lib

abbrev Bytes := List UInt8

abbrev prompt : UInt8 := 62
abbrev cr : UInt8 := 13
abbrev lf : UInt8 := 10

structure ObdPid where
  mode : UInt8
  pid : UInt8
  deriving DecidableEq, Repr

/-- The value of an ASCII hexadecimal digit. -/
def hexDigit (b : UInt8) : Option UInt8 :=
  if 48 ≤ b ∧ b ≤ 57 then some (b - 48)
  else if 65 ≤ b ∧ b ≤ 70 then some (b - 55)
  else if 97 ≤ b ∧ b ≤ 102 then some (b - 87)
  else none

/-- The bytes that pairs of digits spell; an odd one at the end is left out. -/
def pairUp : List UInt8 → List UInt8
  | a :: b :: rest => (a * 16 + b) :: pairUp rest
  | _ => []

/-- `hex_bytes`. -/
def hexBytes (line : Bytes) : List UInt8 := pairUp (line.filterMap hexDigit)

/-- `reply.split(['\r', '\n'])`. -/
def lines (reply : Bytes) : List Bytes := reply.splitOnP fun b => b = cr || b = lf

/-- The four data bytes of a reply to a query for supported PIDs. -/
def bitmapBytes (base : UInt8) (reply : Bytes) : Option (List UInt8) := do
  let bytes ← ((lines reply).map hexBytes).find? fun bytes =>
    2 ≤ bytes.length && bytes.head? = some 0x41 && bytes.tail.head? = some base
  if bytes.length < 6 then none else some ((bytes.drop 2).take 4)

/-- `supported_pids_from_bitmap`: the PIDs of a range, and whether the next range can be
queried. The last bit is that flag alone. -/
def supportedPidsFromBitmap (base : UInt8) (bytes : List UInt8) : List ObdPid × Bool :=
  let bits := bytes.flatMap fun b =>
    (List.range 8).map fun i => decide ((b >>> (7 - i).toUInt8) &&& 1 = 1)
  ((List.range 31).filterMap fun i =>
      if bits.getD i false then some ⟨1, base + i.toUInt8 + 1⟩ else none,
    bits.getD 31 false)

/-- One call of `send_and_wait`. -/
inductive Query where
  /-- `ATZ`, under its own timeout. -/
  | reset
  /-- `ATE0`, `ATL0`, `ATH0`, `ATSP0`, which wait without one. -/
  | setup (command : String)
  /-- `query_supported_bitmap`. -/
  | bitmap (base : UInt8)
  /-- `03`, the trouble codes. -/
  | dtcs
  | pid (pid : ObdPid)
  deriving DecidableEq, Repr

/-- Whether a timeout can end the call. -/
def Query.timed : Query → Bool
  | .setup _ => false
  | _ => true

structure Config where
  pids : List ObdPid
  discover : Bool
  deriving DecidableEq, Repr

/-- Where the connection stands: which call comes next. -/
inductive Phase where
  /-- `init_adapter`, with the calls still to make. -/
  | init (first : Query) (rest : List Query)
  /-- `discover_supported_pids`, with the ranges still to query and the PIDs found. -/
  | discover (base : UInt8) (rest : List UInt8) (found : List ObdPid)
  /-- `poll_loop`; `asked` once the trouble codes of this tick are done. -/
  | poll (active : List ObdPid) (idx : ℕ) (asked : Bool)
  /-- The connection is dropped. -/
  | closed
  deriving DecidableEq, Repr

/-- `resolve_active_pids` after a discovery. -/
def Config.resolve (config : Config) (found : Option (List ObdPid)) : List ObdPid :=
  match found with
  | none => config.pids
  | some found =>
    let filtered := config.pids.filter (· ∈ found)
    if filtered = [] then config.pids else filtered

namespace Phase

/-- `init_adapter`. -/
def start : Phase :=
  .init .reset [.setup "ATE0", .setup "ATL0", .setup "ATH0", .setup "ATSP0"]

/-- After the init sequence. -/
def connected (config : Config) : Phase :=
  if config.discover && config.pids ≠ [] then .discover 0 [0x20, 0x40, 0x60] []
  else .poll config.pids 0 false

/-- The next call, with the trouble codes first when they are due. -/
def query (dtcDue : Bool) : Phase → Option Query
  | .init first _ => some first
  | .discover base _ _ => some (.bitmap base)
  | .poll active idx asked =>
    if dtcDue && !asked then some .dtcs
    else if active = [] then none
    else (active[idx % active.length]?).map .pid
  | .closed => none

/-- After a call in the poll loop. -/
def polled (active : List ObdPid) (idx : ℕ) : Query → Phase
  | .dtcs => .poll active idx (!active.isEmpty)
  | _ => .poll active ((idx + 1) % 18446744073709551616) false

/-- After a call that returned a reply. -/
def replied (config : Config) (q : Query) (reply : Bytes) : Phase → Phase
  | .init _ [] => connected config
  | .init _ (next :: rest) => .init next rest
  | .discover base rest found =>
    match bitmapBytes base reply with
    | none => .poll (config.resolve none) 0 false
    | some bytes =>
      let (pids, continues) := supportedPidsFromBitmap base bytes
      match rest, continues with
      | next :: rest, true => .discover next rest (found ++ pids)
      | _, _ => .poll (config.resolve (some (found ++ pids))) 0 false
  | .poll active idx _ => polled active idx q
  | .closed => .closed

/-- After a call that timed out. -/
def timedOut (config : Config) (q : Query) : Phase → Phase
  | .init _ _ => .closed
  | .discover _ _ _ => .poll (config.resolve none) 0 false
  | .poll active idx _ => polled active idx q
  | .closed => .closed

end Phase

/-- A call that waits for the prompt. -/
structure Call where
  query : Query
  /-- How many commands were sent on the connection before its own. -/
  command : ℕ
  /-- How many calls had timed out by then. -/
  timeouts : ℕ
  buf : Bytes := []
  deriving DecidableEq, Repr

/-- What a call returned as `Ok`. -/
structure Reply where
  query : Query
  command : ℕ
  timeouts : ℕ
  reply : Bytes
  /-- How many answers of the adapter were read to their prompt before the one that
  ended the call. -/
  answer : ℕ
  deriving DecidableEq, Repr

structure Link where
  config : Config
  phase : Phase := .start
  /-- The commands written so far. -/
  sent : List Query := []
  /-- What the adapter answered so far, in the order of the commands. -/
  answers : List Bytes := []
  /-- What the adapter has written and the program has not read. -/
  unread : Bytes := []
  call : Option Call := none
  /-- How many prompts have been read. -/
  prompts : ℕ := 0
  timeouts : ℕ := 0
  replies : List Reply := []

inductive Action where
  /-- The program makes its next call, and writes the command. -/
  | send (dtcDue : Bool)
  /-- The adapter answers the first command it has not answered. -/
  | answer (reply : Bytes)
  /-- The program reads one byte. -/
  | read
  | timeout
  /-- The port fails or is closed. -/
  | fail
  deriving DecidableEq, Repr

def Link.step (s : Link) : Action → Option Link
  | .send dtcDue =>
    match s.call, s.phase.query dtcDue with
    | none, some q =>
      some { s with
        sent := s.sent ++ [q]
        call := some { query := q, command := s.sent.length, timeouts := s.timeouts } }
    | _, _ => none
  | .answer reply =>
    if s.answers.length < s.sent.length ∧ prompt ∉ reply then
      some { s with answers := s.answers ++ [reply], unread := s.unread ++ reply ++ [prompt] }
    else none
  | .read =>
    match s.call, s.unread with
    | some call, b :: unread =>
      if b = prompt then
        some { s with
          phase := s.phase.replied s.config call.query call.buf
          unread := unread
          call := none
          prompts := s.prompts + 1
          replies := ⟨call.query, call.command, call.timeouts, call.buf, s.prompts⟩ :: s.replies }
      else some { s with unread := unread, call := some { call with buf := call.buf ++ [b] } }
    | _, _ => none
  | .timeout =>
    match s.call with
    | some call =>
      if call.query.timed then
        some { s with
          phase := s.phase.timedOut s.config call.query
          call := none
          timeouts := s.timeouts + 1 }
      else none
    | none => none
  | .fail => some { s with phase := .closed, call := none }

/-- A connection that has just been opened. -/
def connection (config : Config) : Machine Link Action where
  initial := { config }
  step := Link.step

end RndRust.Makana
