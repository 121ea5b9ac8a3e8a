import AnboxReboxed.Lib.Scanf
import AnboxReboxed.Qemu.SensorsMessageProcessor

/-!
# `SensorsMessageProcessor::handle_command`

What a command of the guest does to the delay between two rounds and to the set of enabled sensors. The
delay is read with `sscanf`, whose result is used as a truth value: only a matching failure is false.
-/

namespace AnboxReboxed.Qemu

open AnboxReboxed.Lib

/-- The fields of `SensorsMessageProcessor` that `handle_command` uses. -/
structure SensorsCommands where
  delay_ : Int32 := 200
  enabledSensors_ : UInt32 := 0
  /-- What `send_message` was called with. -/
  replies : List Bytes := []
  deriving DecidableEq

/-- `c_str()`: the text ends at the first NUL. -/
def c_str (text : Bytes) : Bytes := text.takeWhile (· ≠ 0)

/-- The format of the delay without its `%d`. -/
def delayFormat : Bytes := ascii "set-delay:"

/-- `sscanf(text, "set-delay:%d", &value)`. -/
def scanDelay (text : Bytes) : Scanf.Scanned Int :=
  match Scanf.literal delayFormat text with
  | .eof => .eof
  | .mismatch => .mismatch
  | .ok _ rest => Scanf.decimal rest

/-- The integers that fit in an `int`. -/
def IsInt (n : Int) : Prop := -2 ^ 31 ≤ n ∧ n < 2 ^ 31

instance (n : Int) : Decidable (IsInt n) := inferInstanceAs (Decidable (_ ∧ _))

namespace SensorsCommands

/-- `value` is what the variable of this name holds where the language does not say: when nothing was stored in
it, and when the integer that was read does not fit. -/
def handle_command (s : SensorsCommands) (command : Bytes) (disabled_sensors : UInt32) (value : Int32) :
    SensorsCommands :=
  if command = ascii "list-sensors" then
    { s with replies := s.replies ++
        [to_string (SensorsMessageProcessor.allSensors &&& ~~~disabled_sensors).toNat] }
  else
    match scanDelay (c_str command) with
    -- `EOF` is -1, which is as true as 1
    | .eof => { s with delay_ := value }
    | .ok n _ => { s with delay_ := if IsInt n then Int32.ofInt n else value }
    | .mismatch =>
      match command.splitOn 58 with
      | [set, name, flag] =>
        if set = ascii "set" then
          if flag = ascii "1" then { s with enabledSensors_ := s.enabledSensors_ ||| Sensor.FromString name }
          else { s with enabledSensors_ := s.enabledSensors_ &&& ~~~Sensor.FromString name }
        else s
      | _ => s

end SensorsCommands

/-! ## Commands -/

/-- `set-delay:` and an integer. -/
def IsSetDelay (command : Bytes) (n : Int) : Prop :=
  ∃ text, Scanf.IsDecimal text n ∧ command = delayFormat ++ text

/-- `set:<name>:<v>`. -/
def IsSet (command name v : Bytes) : Prop :=
  58 ∉ name ∧ 58 ∉ v ∧ command = ascii "set" ++ 58 :: (name ++ 58 :: v)

/-- What a command may do: it leads from `s` to `s'`. -/
structure Effects (command : Bytes) (s s' : SensorsCommands) : Prop where
  delay : ∀ n, IsSetDelay command n → s'.delay_.toInt = n
  delay_only : (∀ n, ¬IsSetDelay command n) → s'.delay_ = s.delay_
  sensor : ∀ name v, IsSet command name v →
    s'.enabledSensors_ &&& ~~~Sensor.FromString name = s.enabledSensors_ &&& ~~~Sensor.FromString name
  sensor_only : (∀ name v, ¬IsSet command name v) → s'.enabledSensors_ = s.enabledSensors_
  reply_only : command ≠ ascii "list-sensors" → s'.replies = s.replies

/-- The text ends before `sscanf` comes to an integer. -/
def EndsEarly (text : Bytes) : Prop :=
  text <+: delayFormat ∨ ∃ ws, (∀ c ∈ ws, Scanf.isSpace c = true) ∧ text = delayFormat ++ ws

/-- The text has an integer where `sscanf` looks for one. -/
def HasInteger (text : Bytes) : Prop :=
  ∃ ws t n rest, (∀ c ∈ ws, Scanf.isSpace c = true) ∧ Scanf.IsDecimal t n ∧
    text = delayFormat ++ (ws ++ (t ++ rest))

/-- A command that does not end before the integer, and which is nothing more than `set-delay:` and an `int` if
there is an integer at that place. -/
structure WellPut (command : Bytes) : Prop where
  long_enough : ¬EndsEarly (c_str command)
  exact : HasInteger (c_str command) → ∃ n, IsSetDelay command n ∧ IsInt n

/-! ## The guest -/

/-- `sensor_device_set_delay`, with the delay in milliseconds. -/
def sensor_device_set_delay (ms : Int32) : Bytes := delayFormat ++ ascii (toString ms.toInt)

/-- `sensor_device_activate`, which is given the name of the sensor. -/
def sensor_device_activate (name : Bytes) (enabled : Bool) : Bytes :=
  ascii "set:" ++ name ++ (if enabled then ascii ":1" else ascii ":0")

end AnboxReboxed.Qemu
