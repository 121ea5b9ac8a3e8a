import AnboxReboxed.Lib.Machine
import AnboxReboxed.Lib.OrdMap
import AnboxReboxed.Network.SocketConnection
import AnboxReboxed.Qemu.QemudMessageProcessor

/-!
# `RefCountMessageProcessor`

A refcount pipe is the guest's reference to a color buffer: the guest writes the handle, and the reference is
given back when the pipe is closed. In gfxstream mode the processor opens the color buffer when it has the
handle and closes it when it is destroyed. Here are all refcount pipes of `PipeConnectionCreator`, from which
connections are taken by `Connections::remove` and `Connections::clear`.
-/

namespace AnboxReboxed.Qemu

open AnboxReboxed.Lib AnboxReboxed.Network

/-- What `memcpy` makes of the bytes of a handle. -/
def little_endian (bytes : Bytes) : UInt32 := (bytes.foldr (fun (b : UInt8) (n : Nat) => b.toNat + 256 * n) 0).toUInt32

structure RefCountMessageProcessor where
  pending_ : Bytes := []
  color_buffer_ : UInt32 := 0
  /-- Which processor it is. -/
  serial : Nat
  /-- All that the guest has sent. -/
  received : Bytes := []
  deriving DecidableEq

/-- Calls of the backend, with the processor that made them and what the guest had sent to it. -/
inductive BackendCall where
  | open_color_buffer (serial : Nat) (received : Bytes) (handle : UInt32)
  | close_color_buffer (serial : Nat) (handle : UInt32)
  deriving DecidableEq

namespace RefCountMessageProcessor

/-- `sizeof(color_buffer_)`. -/
def handle_size : Nat := 4

/-- The processor with the calls made so far. An exception of the backend leaves `process_data`. -/
def process_data (throws : Bool) :
    RefCountMessageProcessor × List BackendCall → Bytes → (RefCountMessageProcessor × List BackendCall) × Processed
  | (p, calls), data =>
    let p := { p with received := p.received ++ data }
    if p.color_buffer_ ≠ 0 then ((p, calls), .refused)
    else
      let p := { p with pending_ := p.pending_ ++ data }
      if p.pending_.length < handle_size then ((p, calls), .accepted)
      else if p.pending_.length ≠ handle_size then ((p, calls), .refused)
      else
        let p := { p with color_buffer_ := little_endian p.pending_, pending_ := [] }
        if p.color_buffer_ = 0 then ((p, calls), .refused)
        else
          ((p, calls ++ [.open_color_buffer p.serial p.received p.color_buffer_]),
            if throws then .threw else .accepted)

/-- The destructor. -/
def destroy (p : RefCountMessageProcessor) : List BackendCall :=
  if p.color_buffer_ = 0 then [] else [.close_color_buffer p.serial p.color_buffer_]

end RefCountMessageProcessor

abbrev RefCountConnection := SocketConnection RefCountMessageProcessor

structure RefCountPipes where
  /-- `connections_`. -/
  connections : OrdMap Int RefCountConnection := ∅
  /-- The number of processors that were created. -/
  created : Nat := 0
  calls : List BackendCall := []

inductive RefCountOp where
  /-- `create_connection_for`, with what `next_id` returns. -/
  | create_connection_for (id : Int)
  /-- `throws` tells whether the backend throws when it is called. -/
  | on_read_size (id : Int) (read : Read) (throws : Bool)
  | clear
  deriving DecidableEq

namespace RefCountPipes

/-- `add` does not replace a connection with the same id; the new one is then destroyed. -/
def create_connection_for (s : RefCountPipes) (id : Int) : RefCountPipes :=
  let connection : RefCountConnection := { processor_ := { serial := s.created } }
  if id ∈ s.connections then
    { s with created := s.created + 1, calls := s.calls ++ connection.processor_.destroy }
  else { s with created := s.created + 1, connections := s.connections.insert id connection }

/-- A connection that was removed is destroyed with its processor. -/
def on_read_size (s : RefCountPipes) (id : Int) (c : RefCountConnection) (read : Read) (throws : Bool) :
    RefCountPipes :=
  let c' := SocketConnection.on_read_size (RefCountMessageProcessor.process_data throws)
    { processor_ := (c.processor_, s.calls), reading := c.reading, registered := c.registered } read
  let p := c'.processor_.1
  if c'.registered then
    { s with
      connections := s.connections.insert id { processor_ := p, reading := c'.reading, registered := true }
      calls := c'.processor_.2 }
  else { s with connections := s.connections.erase id, calls := c'.processor_.2 ++ p.destroy }

def clear (s : RefCountPipes) : RefCountPipes :=
  { s with
    connections := ∅
    calls := s.calls ++ s.connections.entries.flatMap fun e => e.2.processor_.destroy }

def step (s : RefCountPipes) : RefCountOp → Option RefCountPipes
  | .create_connection_for id => some (s.create_connection_for id)
  | .on_read_size id read throws =>
    (s.connections.find? id).bind fun c => if c.reading then some (s.on_read_size id c read throws) else none
  | .clear => some s.clear

end RefCountPipes

namespace BackendCall

def opens (h : UInt32) : BackendCall → Bool
  | .open_color_buffer _ _ handle => handle = h
  | .close_color_buffer _ _ => false

def closes (h : UInt32) : BackendCall → Bool
  | .open_color_buffer _ _ _ => false
  | .close_color_buffer _ handle => handle = h

/-- The processor has opened a color buffer. -/
def openedBy (serial : Nat) : BackendCall → Bool
  | .open_color_buffer owner _ _ => owner = serial
  | .close_color_buffer _ _ => false

end BackendCall

namespace RefCountPipes

/-- How many processors hold the handle. -/
def holders (s : RefCountPipes) (h : UInt32) : Nat :=
  s.connections.sumBy fun c => if c.processor_.color_buffer_ = h then 1 else 0

/-- Zero is no handle: a processor whose `color_buffer_` is zero holds nothing. -/
structure ExactOwners (s : RefCountPipes) : Prop where
  balance : ∀ h, h ≠ 0 → s.calls.countP (BackendCall.opens h) = s.calls.countP (BackendCall.closes h) + s.holders h
  never_negative : ∀ calls, calls <+: s.calls → ∀ h,
    calls.countP (BackendCall.closes h) ≤ calls.countP (BackendCall.opens h)
  once : ∀ serial, s.calls.countP (BackendCall.openedBy serial) ≤ 1
  handle : ∀ serial received h, .open_color_buffer serial received h ∈ s.calls →
    h ≠ 0 ∧ RefCountMessageProcessor.handle_size ≤ received.length ∧
      h = little_endian (received.take RefCountMessageProcessor.handle_size)
  closed : s.connections = ∅ → ∀ h,
    s.calls.countP (BackendCall.opens h) = s.calls.countP (BackendCall.closes h)

end RefCountPipes

def refCountMachine : Machine RefCountPipes RefCountOp where
  init := {}
  step := RefCountPipes.step

end AnboxReboxed.Qemu
