import AnboxReboxed.Lib.Delimited
import AnboxReboxed.Lib.Machine
import AnboxReboxed.Qemu.QemudMessageProcessor

/-!
# `CameraMessageProcessor`

The commands of the camera service of the Android side, each with a NUL behind it. A `std::vector` gives no
meaning to an `erase` beyond its end; here there is no state after it.
-/

namespace AnboxReboxed.Qemu

open AnboxReboxed.Lib

structure CameraMessageProcessor where
  buffer_ : Bytes := []
  /-- What `handle_command` was called with. -/
  handled : List Bytes := []
  /-- What was given to the messenger. -/
  sent : List Bytes := []
  deriving DecidableEq

namespace CameraMessageProcessor

def list (s : CameraMessageProcessor) : CameraMessageProcessor := { s with sent := s.sent ++ [ascii "\n"] }

def handle_command (s : CameraMessageProcessor) (command : Bytes) : CameraMessageProcessor :=
  let s := { s with handled := s.handled ++ [command] }
  if command = ascii "list" then s.list else s

@[simp] theorem handle_command_buffer (s : CameraMessageProcessor) (command : Bytes) :
    (s.handle_command command).buffer_ = s.buffer_ := by
  unfold handle_command list
  dsimp only
  split_ifs <;> rfl

@[simp] theorem handle_command_handled (s : CameraMessageProcessor) (command : Bytes) :
    (s.handle_command command).handled = s.handled ++ [command] := by
  unfold handle_command list
  dsimp only
  split_ifs <;> rfl

/-- The inner loop of `process_commands`, which stops at a NUL and at the end of the buffer. -/
def commandSize : Bytes → Nat
  | [] => 0
  | byte :: rest => if byte = 0 then 0 else commandSize rest + 1

/-- `process_commands`; `none` after an `erase` of more bytes than there are. -/
def process_commands (s : CameraMessageProcessor) : Option CameraMessageProcessor :=
  if s.buffer_ = [] then some s
  else
    let size := commandSize s.buffer_
    let command := s.buffer_.take size
    if size + 1 ≤ s.buffer_.length then
      process_commands (handle_command { s with buffer_ := s.buffer_.drop (size + 1) } command)
    else none
termination_by s.buffer_.length
decreasing_by
  simp only [handle_command_buffer, List.length_drop]
  omega

def process_data (s : CameraMessageProcessor) (data : Bytes) : Option CameraMessageProcessor :=
  process_commands { s with buffer_ := s.buffer_ ++ data }

end CameraMessageProcessor

/-- A connection to the camera service: each call of `process_data` is a step. -/
def camera : Machine CameraMessageProcessor Bytes := ⟨{}, CameraMessageProcessor.process_data⟩

/-- The end of a command. -/
def isNul (byte : UInt8) : Bool := byte == 0

/-- After the calls with `chunks` the commands that have ended were handled, the other bytes are kept, and no
`erase` went beyond the end. -/
def SplitsCommands (chunks : List Bytes) : Prop :=
  ∃ s, camera.exec camera.init chunks = some s ∧
    s.handled = Delimited.complete isNul chunks.flatten ∧ s.buffer_ = Delimited.rest isNul chunks.flatten

end AnboxReboxed.Qemu
