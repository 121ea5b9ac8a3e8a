import AnboxReboxed.Lib.Machine
import AnboxReboxed.Qemu.QemudMessageProcessor

/-!
# `AdbMessageProcessor`

The pipe between `adbd` in the container and `adb` on the host. The guest sends `accept`, gets an `ok` when
the host has connected, sends `start`, and everything behind that goes to the host. Only the guest's side
is modelled: what the host sends, and the end of its connection, are left out.
-/

namespace AnboxReboxed.Qemu

open AnboxReboxed.Lib

def accept_command : Bytes := ascii "accept"
def ok_command : Bytes := ascii "ok"
def start_command : Bytes := ascii "start"

inductive AdbState where
  | waiting_for_guest_accept_command
  | waiting_for_host_connection
  | waiting_for_guest_start_command
  | proxying_data
  | closed_by_host
  | closed_by_container
  deriving DecidableEq

structure AdbMessageProcessor where
  state_ : AdbState := .waiting_for_guest_accept_command
  expected_command_ : Bytes := accept_command
  buffer_ : Bytes := []
  /-- `host_connector_` is set. -/
  listening : Bool := false
  /-- `host_messenger_` is set. -/
  connected : Bool := false
  /-- What the guest and the host were sent. -/
  replied : Bytes := []
  forwarded : Bytes := []
  deriving DecidableEq

namespace AdbMessageProcessor

/-- What is read at `expected_command_.data()`: the command, its terminator, and what stands behind it in
memory. -/
def memory (behind : Bytes → Nat → UInt8) (command : Bytes) (n : Nat) : Bytes :=
  (command ++ 0 :: (List.range n).map (behind command)).take n

def wait_for_host_connection (s : AdbMessageProcessor) : AdbMessageProcessor :=
  if s.state_ = .waiting_for_guest_accept_command then { s with listening := true } else s

/-- `lock_.lock()` is taken to return. -/
def advance_state (s : AdbMessageProcessor) : AdbMessageProcessor :=
  match s.state_ with
  | .waiting_for_guest_accept_command => s.wait_for_host_connection
  | .waiting_for_host_connection =>
    { s with
      replied := s.replied ++ ok_command
      state_ := .waiting_for_guest_start_command
      expected_command_ := start_command }
  | .waiting_for_guest_start_command => { s with state_ := .proxying_data }
  | _ => s

def on_host_connection (s : AdbMessageProcessor) : AdbMessageProcessor :=
  { s with
    connected := true
    replied := s.replied ++ ok_command
    state_ := .waiting_for_guest_start_command
    expected_command_ := start_command }

variable (behind : Bytes → Nat → UInt8)

/-- `memcmp` is given the length of `data`, which `buffer_` has at least. -/
def process_data (s : AdbMessageProcessor) (data : Bytes) : AdbMessageProcessor × Bool :=
  if s.state_ = .proxying_data then ({ s with forwarded := s.forwarded ++ data }, true)
  else
    let s := { s with buffer_ := s.buffer_ ++ data }
    if 0 < s.expected_command_.length ∧ s.expected_command_.length ≤ s.buffer_.length then
      if s.buffer_.take data.length ≠ memory behind s.expected_command_ data.length then (s, false)
      else
        let s := { s with buffer_ := s.buffer_.drop s.expected_command_.length, expected_command_ := [] }
        (s.advance_state, true)
    else (s, true)

end AdbMessageProcessor

/-- A processor, what `process_data` returned, and what the guest has sent before and after the host
connected. -/
structure AdbPipe where
  processor : AdbMessageProcessor := {}
  refused : Bool := false
  before : Bytes := []
  after : Bytes := []

inductive AdbOp where
  | process_data (data : Bytes)
  | on_host_connection
  deriving DecidableEq

namespace AdbPipe

variable (behind : Bytes → Nat → UInt8)

/-- A read gives at least one byte; the host connects once, after `accept` was consumed. A processor that has
refused is destroyed. -/
def step (s : AdbPipe) : AdbOp → Option AdbPipe
  | .process_data data =>
    if s.refused = false ∧ data ≠ [] then
      let (processor, accepted) := s.processor.process_data behind data
      some
        { processor
          refused := !accepted
          before := if s.processor.connected then s.before else s.before ++ data
          after := if s.processor.connected then s.after ++ data else s.after }
    else none
  | .on_host_connection =>
    if s.refused = false ∧ s.processor.listening = true ∧ s.processor.connected = false then
      some { s with processor := s.processor.on_host_connection }
    else none

/-- What the proxy is for, by the bytes alone: whether the guest is refused, and what the host gets. What the
guest sends before the `ok` is looked at with what it sends after it. -/
def outcome (before after : Bytes) : Bool × Bytes :=
  if before.length < accept_command.length then (false, [])
  else if before.take accept_command.length ≠ accept_command then (true, [])
  else if after = [] then (false, [])
  else
    let rest := before.drop accept_command.length ++ after
    if rest.length < start_command.length then (false, [])
    else if rest.take start_command.length ≠ start_command then (true, [])
    else (false, rest.drop start_command.length)

/-- The pipe has done what the bytes so far ask for. -/
def Transparent (s : AdbPipe) : Prop := (s.refused, s.processor.forwarded) = outcome s.before s.after

/-- The condition on the steps, for data that completes a command. When the command is the expected one, the
data has nothing behind `start`, and nothing behind `accept` that differs from the memory there. When it is
not, it differs within the length of the data. -/
def Clean (s : AdbPipe) : AdbOp → Prop
  | .on_host_connection => True
  | .process_data data =>
    let command := s.processor.expected_command_
    let received := s.processor.buffer_ ++ data
    s.processor.state_ ≠ .proxying_data → 0 < command.length → command.length ≤ received.length →
      if received.take command.length = command then
        if command = start_command then received = command
        else received.take data.length = AdbMessageProcessor.memory behind command data.length
      else received.take data.length ≠ AdbMessageProcessor.memory behind command data.length

end AdbPipe

def adbMachine (behind : Bytes → Nat → UInt8) : Machine AdbPipe AdbOp where
  init := {}
  step := AdbPipe.step behind

end AnboxReboxed.Qemu
