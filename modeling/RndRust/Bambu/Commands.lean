import Mathlib.Data.Int.Notation
import Mathlib.Data.Nat.Notation

/-! Platform commands in the format of the printer, `commands.rs`. -/
namespace RndRust.Bambu

/-- A JSON value. -/
inductive Value where
  | null
  | bool (b : Bool)
  | integer (n : ℤ)
  | float (text : String)
  | string (s : String)
  | array (items : List Value)
  | object (fields : List (String × Value))

namespace Value

def get : Value → String → Option Value
  | object fields, key => fields.lookup key
  | _, _ => none

def asU64 : Value → Option ℕ
  | integer n => if 0 ≤ n ∧ n < 18446744073709551616 then some n.toNat else none
  | _ => none

def asStr : Value → Option String
  | string s => some s
  | _ => none

end Value

/-- A command from the platform; without parameters they are `null`. -/
structure CommandRequest where
  command : String
  params : Value := .null

namespace CommandRequest

/-- A parameter that has to be a string. -/
def text (cmd : CommandRequest) (key fallback : String) : String :=
  ((cmd.params.get key).bind Value.asStr).getD fallback

/-- A parameter that has to be a number. -/
def number (cmd : CommandRequest) (key : String) (fallback : ℕ) : ℕ :=
  ((cmd.params.get key).bind Value.asU64).getD fallback

end CommandRequest

/-- A `print` command that has nothing but its parameter. -/
def printCommand (seq command param : String) : Value :=
  .object [("print", .object [("sequence_id", .string seq), ("command", .string command), ("param", .string param)])]

/-- The command for the printer; `none` when the platform's is unknown. -/
def mqttPayload (cmd : CommandRequest) (seq : String) : Option Value :=
  match cmd.command with
  | "pause" => some (printCommand seq "pause" "")
  | "resume" => some (printCommand seq "resume" "")
  | "stop" => some (printCommand seq "stop" "")
  | "set_speed" => some (printCommand seq "print_speed" (toString (cmd.number "level" 2)))
  | "set_light" =>
    some (.object [("system", .object [
      ("sequence_id", .string seq),
      ("command", .string "ledctrl"),
      ("led_node", .string (cmd.text "node" "chamber_light")),
      ("led_mode", .string (cmd.text "mode" "on")),
      ("led_on_time", .integer 500),
      ("led_off_time", .integer 500),
      ("loop_times", .integer 0),
      ("interval_time", .integer 0)])])
  | "home" => some (printCommand seq "gcode_line" "G28\n")
  | "upgrade" =>
    some (.object [("upgrade", .object [
      ("sequence_id", .string seq),
      ("command", .string "start"),
      ("src_id", .integer 1),
      ("url", .string (cmd.text "url" "")),
      ("module", .string (cmd.text "module" "ota")),
      ("version", .string (cmd.text "version" ""))])])
  | "gcode" => some (printCommand seq "gcode_line" (cmd.text "code" "" ++ "\n"))
  | "print_start" =>
    some (.object [("print", .object [
      ("sequence_id", .string seq),
      ("command", .string "project_file"),
      ("param", .string ("Metadata/plate_" ++ toString (cmd.number "plate" 1) ++ ".gcode")),
      ("subtask_name", .string (cmd.text "filename" "")),
      ("url", .string ("ftp://" ++ cmd.text "filename" "")),
      ("bed_type", .string "auto"),
      ("timelapse", .bool false),
      ("bed_leveling", .bool true),
      ("flow_cali", .bool true),
      ("vibration_cali", .bool true),
      ("layer_inspect", .bool false),
      ("use_ams", .bool true)])])
  | "print_stop" => some (printCommand seq "stop" "")
  | _ => none

/-- Every command for the printer has one part, which carries the sequence id. -/
theorem mqttPayload_sequence {cmd : CommandRequest} {seq : String} {payload : Value}
    (translated : mqttPayload cmd seq = some payload) :
    ∃ kind fields, payload = .object [(kind, .object (("sequence_id", .string seq) :: fields))] := by
  unfold mqttPayload at translated
  split at translated
  all_goals first
    | cases translated; exact ⟨_, _, rfl⟩
    | cases translated

/-- Whether a command is known does not depend on the sequence id. -/
theorem mqttPayload_isSome {cmd : CommandRequest} (seq other : String) :
    (mqttPayload cmd seq).isSome = (mqttPayload cmd other).isSome := by
  unfold mqttPayload
  split <;> rfl

/-- What a payload on the bus asks for, if it asks for something the printer can do. -/
def CommandRequest.known (request : Option CommandRequest) : Bool :=
  match request with
  | none => false
  | some cmd => (mqttPayload cmd "").isSome

end RndRust.Bambu
