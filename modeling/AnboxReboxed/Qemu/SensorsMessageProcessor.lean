import AnboxReboxed.Lib.Framing
import AnboxReboxed.Lib.Machine
import AnboxReboxed.Qemu.QemudMessageProcessor
import Mathlib.Data.Nat.Digits.Defs

/-!
# `SensorsMessageProcessor`

Two threads write to the guest: the one that reports the sensors again and again, and the one that answers
the commands of the guest. A message is sent in two parts, its header and its body; each `send` of the
messenger is one step. The delay between two rounds makes no difference here and is left out.
-/

namespace AnboxReboxed.Qemu

open AnboxReboxed.Lib

inductive Sensor where
  | acceleration
  | magnetic
  | orientation
  | temperature
  | proximity
  | light
  | pressure
  | humidity
  deriving DecidableEq

namespace Sensor

/-- In the order of the source. -/
def all : List Sensor := [acceleration, magnetic, orientation, temperature, proximity, light, pressure, humidity]

/-- `SensorType`. -/
def type : Sensor → UInt32
  | acceleration => 1
  | magnetic => 2
  | orientation => 4
  | temperature => 8
  | proximity => 16
  | light => 32
  | pressure => 64
  | humidity => 128

/-- The text before the value. -/
def label : Sensor → Bytes
  | acceleration => ascii "acceleration:"
  | magnetic => ascii "magnetic:"
  | orientation => ascii "orientation:"
  | temperature => ascii "temperature:"
  | proximity => ascii "proximity:"
  | light => ascii "light:"
  | pressure => ascii "pressure:"
  | humidity => ascii "humidity:"

/-- `SensorTypeHelper::FromString`; `UnknownSensor` is 0. -/
def FromString (name : Bytes) : UInt32 :=
  if name = ascii "acceleration" then acceleration.type
  else if name = ascii "magnetic-field" then magnetic.type
  else if name = ascii "orientation" then orientation.type
  else if name = ascii "temperature" then temperature.type
  else if name = ascii "proximity" then proximity.type
  else if name = ascii "light" then light.type
  else if name = ascii "pressure" then pressure.type
  else if name = ascii "humidity" then humidity.type
  else 0

end Sensor

/-- A value as text: up to three numbers of at most thirteen characters, with colons between them, which is
also more than the time takes. -/
abbrev Value := { text : Bytes // text.length ≤ 41 }

/-- What the sensor thread may send in a round. -/
inductive Report where
  | sensor (s : Sensor)
  | sync
  deriving DecidableEq

namespace Report

def round : List Report := Sensor.all.map sensor ++ [sync]

def due (enabledSensors : UInt32) : Report → Bool
  | sensor s => enabledSensors &&& s.type ≠ 0
  | sync => enabledSensors ≠ 0

def text (value : Value) : Report → Bytes
  | sensor s => s.label ++ value.val
  | sync => ascii "sync:" ++ value.val

end Report

def to_string (n : Nat) : Bytes := if n = 0 then [48] else (Nat.digits 10 n).reverse.map fun d => (48 + d).toUInt8

/-- Where the sensor thread is. -/
inductive SensorThread where
  | sleeping
  /-- Before the first of the reports that are left. -/
  | reporting (enabledSensors : UInt32) (left : List Report)
  /-- In `send_message`, between the header and the body. -/
  | sending (msg : Bytes) (enabledSensors : UInt32) (left : List Report)
  deriving DecidableEq

def SensorThread.inFlight : SensorThread → List Bytes
  | .sending msg _ _ => [msg]
  | _ => []

/-- Where the thread of the connection is. -/
inductive CommandThread where
  | idle
  /-- In `send_message`, before the header. -/
  | replying (msg : Bytes)
  | sending (msg : Bytes)
  deriving DecidableEq

def CommandThread.inFlight : CommandThread → List Bytes
  | .sending msg => [msg]
  | _ => []

structure SensorsMessageProcessor where
  enabledSensors_ : UInt32 := 0
  sensorThread : SensorThread := .sleeping
  commandThread : CommandThread := .idle
  /-- What the guest receives. -/
  output : Bytes := []
  /-- The messages whose `send_message` has returned. -/
  sent : List Bytes := []
  deriving DecidableEq

inductive SensorsOp where
  /-- The sensor thread begins a round. -/
  | round
  /-- The next report is not due, or there is none. -/
  | skip
  /-- `send_header` of the next report. -/
  | report (value : Value)
  | reported
  /-- `sensors_state_->disabled_sensors` is what other threads have made it. -/
  | handle_command (command : Bytes) (disabled_sensors : UInt32)
  | reply
  | replied

namespace SensorsMessageProcessor

def allSensors : UInt32 := Sensor.all.foldl (fun mask s => mask ||| s.type) 0

def send_header (s : SensorsMessageProcessor) (size : Nat) : SensorsMessageProcessor :=
  { s with output := s.output ++ header size }

/-- `messenger_->send(msg.c_str(), msg.length())`. -/
def send_body (s : SensorsMessageProcessor) (msg : Bytes) : SensorsMessageProcessor :=
  { s with output := s.output ++ msg, sent := s.sent ++ [msg] }

/-- Commands that only set the delay, and unknown ones, change nothing here. -/
def handle_command (s : SensorsMessageProcessor) (command : Bytes) (disabled_sensors : UInt32) :
    SensorsMessageProcessor :=
  if command = ascii "list-sensors" then
    { s with commandThread := .replying (to_string (allSensors &&& ~~~disabled_sensors).toNat) }
  else
    match command.splitOn 58 with
    | [set, name, flag] =>
      if set = ascii "set" then
        if flag = ascii "1" then { s with enabledSensors_ := s.enabledSensors_ ||| Sensor.FromString name }
        else { s with enabledSensors_ := s.enabledSensors_ &&& ~~~Sensor.FromString name }
      else s
    | _ => s

def step (s : SensorsMessageProcessor) : SensorsOp → Option SensorsMessageProcessor
  | .round =>
    match s.sensorThread with
    | .sleeping => some { s with sensorThread := .reporting s.enabledSensors_ Report.round }
    | _ => none
  | .skip =>
    match s.sensorThread with
    | .reporting _ [] => some { s with sensorThread := .sleeping }
    | .reporting enabledSensors (r :: left) =>
      if r.due enabledSensors then none else some { s with sensorThread := .reporting enabledSensors left }
    | _ => none
  | .report value =>
    match s.sensorThread with
    | .reporting enabledSensors (r :: left) =>
      if r.due enabledSensors then
        let msg := r.text value
        some { s.send_header msg.length with sensorThread := .sending msg enabledSensors left }
      else none
    | _ => none
  | .reported =>
    match s.sensorThread with
    | .sending msg enabledSensors left =>
      some { s.send_body msg with sensorThread := .reporting enabledSensors left }
    | _ => none
  | .handle_command command disabled_sensors =>
    if s.commandThread = .idle then some (s.handle_command command disabled_sensors) else none
  | .reply =>
    match s.commandThread with
    | .replying msg => some { s.send_header msg.length with commandThread := .sending msg }
    | _ => none
  | .replied =>
    match s.commandThread with
    | .sending msg => some { s.send_body msg with commandThread := .idle }
    | _ => none

/-- The messages between their header and their body. -/
def inFlight (s : SensorsMessageProcessor) : List Bytes := s.sensorThread.inFlight ++ s.commandThread.inFlight

/-- The condition on the steps: a header is not sent between the header and the body of another message. -/
def Undisturbed (s : SensorsMessageProcessor) : SensorsOp → Prop
  | .report _ | .reply => s.inFlight = []
  | _ => True

end SensorsMessageProcessor

/-- The guest's side: one message after the other, each of the length that its header says. -/
def guestNext (messages : List Bytes) (l : Bytes) : Verdict (List Bytes) :=
  let body_size := scanHeader (l.take header_size)
  if l.length < header_size ∨ l.length < header_size + body_size then .more
  else .consumed (header_size + body_size) (messages ++ [(l.drop header_size).take body_size])

theorem guestNext_stable (messages : List Bytes) (l m : Bytes) (h : guestNext messages l ≠ .more) :
    guestNext messages (l ++ m) = guestNext messages l := by
  simp only [guestNext] at h ⊢
  split_ifs at h with hlen
  · exact absurd rfl h
  · obtain ⟨hheader, hbody⟩ := not_or.mp hlen
    rw [Nat.not_lt] at hheader hbody
    have hlen' : ¬((l ++ m).length < header_size ∨
        (l ++ m).length < header_size + scanHeader (l.take header_size)) := by
      rw [List.length_append]
      omega
    have htake : ((l ++ m).drop header_size).take (scanHeader (l.take header_size)) =
        (l.drop header_size).take (scanHeader (l.take header_size)) := by
      rw [List.drop_append_of_le_length hheader, List.take_append_of_le_length]
      rw [List.length_drop]
      omega
    rw [List.take_append_of_le_length hheader, if_neg hlen, if_neg hlen', htake]

def guest : Framing (List Bytes) UInt8 where
  next := guestNext
  stable := guestNext_stable
  shrinks := by
    intro messages l n messages' h
    simp only [guestNext] at h
    split_ifs at h with hlen
    cases h
    obtain ⟨hheader, hbody⟩ := not_or.mp hlen
    unfold header_size at *
    omega

namespace SensorsMessageProcessor

/-- The headers that were sent without their bodies. -/
def begun (s : SensorsMessageProcessor) : Bytes := s.inFlight.flatMap fun msg => header msg.length

/-- The output is one frame after the other, each of one message, with at most one header of a message that is
being sent behind them; a guest that decodes it gets exactly the messages that were sent. -/
structure Framed (s : SensorsMessageProcessor) : Prop where
  single : s.inFlight.length ≤ 1
  output : s.output = stream s.sent ++ s.begun
  decoded : guest.drive [] s.output = .waiting s.sent s.begun

end SensorsMessageProcessor

def sensorsMachine : Machine SensorsMessageProcessor SensorsOp where
  init := {}
  step := SensorsMessageProcessor.step

end AnboxReboxed.Qemu
