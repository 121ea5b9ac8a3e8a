import AnboxReboxed.Lib.Machine
import Mathlib.Logic.Basic
import Mathlib.Tactic.Linarith

/-!
# `SocketConnection`

What a connection does with the bytes it reads, for any processor. A handler of the runtime that throws
is left by its exception, which `exception_safe_run` logs and drops.
-/

namespace AnboxReboxed.Network

/-- How `process_data` ends: it returns `true`, it returns `false`, or it throws. -/
inductive Processed where
  | accepted
  | refused
  | threw
  deriving DecidableEq

/-- What a read ends with. -/
inductive Read where
  | error
  | data (bytes : List UInt8)
  deriving DecidableEq

structure SocketConnection (π : Type) where
  processor_ : π
  /-- A read is armed. -/
  reading : Bool := true
  /-- It is in `connections_`. -/
  registered : Bool := true

namespace SocketConnection

variable {π : Type} (process_data : π → List UInt8 → π × Processed)

def read_next_message (c : SocketConnection π) : SocketConnection π := { c with reading := true }

/-- `connections_->remove(id())`. -/
def remove (c : SocketConnection π) : SocketConnection π := { c with registered := false }

def on_read_size (c : SocketConnection π) (read : Read) : SocketConnection π :=
  let c := { c with reading := false }
  match read with
  | .error => c.remove
  | .data bytes =>
    match process_data c.processor_ bytes with
    | (p, .accepted) => { c with processor_ := p }.read_next_message
    | (p, .refused) => { c with processor_ := p }.remove
    | (p, .threw) => { c with processor_ := p }

/-- A new read is armed, or the connection was removed. -/
def Settled (c : SocketConnection π) : Prop := c.reading = true ∨ c.registered = false

instance (c : SocketConnection π) : Decidable c.Settled := inferInstanceAs (Decidable (_ ∨ _))

end SocketConnection

end AnboxReboxed.Network

/-!
## `BaseSocketMessenger::send`

Any number of calls of `send` on one messenger. An attempt takes `message_lock` and writes the buffer
piece by piece; when the socket reports `try_again` it leaves the lock and the next attempt starts with
the whole buffer again.
-/

namespace AnboxReboxed.Network

open AnboxReboxed.Lib

/-- Where a call of `send` is. -/
inductive SendPlace where
  /-- Not called yet. -/
  | absent
  /-- At `unique_lock lg(message_lock)`. -/
  | unlocked (data : List UInt8)
  /-- In `ba::write`, which has written the first `n` bytes in this attempt. -/
  | writing (data : List UInt8) (n : Nat)
  | returned (data : List UInt8)
  | threw (data : List UInt8)
  deriving DecidableEq

def SendPlace.data : SendPlace → List UInt8
  | .absent => []
  | .unlocked data => data
  | .writing data _ => data
  | .returned data => data
  | .threw data => data

/-- The messenger, with its calls of `send` numbered. -/
structure BaseSocketMessenger where
  /-- The bytes the socket has taken. -/
  wire : List UInt8 := []
  message_lock : Option Nat := none
  sends : Nat → SendPlace := fun _ => .absent
  /-- The calls that have returned, in this order. -/
  finished : List Nat := []
  /-- The number of bytes written by attempts that ended with `try_again`. -/
  abandoned : Nat := 0

inductive SendOp where
  | send (i : Nat) (data : List UInt8)
  | lock (i : Nat)
  /-- The socket takes `k` bytes. -/
  | write (i : Nat) (k : Nat)
  /-- `ba::write` has written everything. -/
  | done (i : Nat)
  | tryAgain (i : Nat)
  /-- Another error. -/
  | fail (i : Nat)
  deriving DecidableEq

namespace BaseSocketMessenger

def put (s : BaseSocketMessenger) (i : Nat) (p : SendPlace) : BaseSocketMessenger :=
  { s with sends := Function.update s.sends i p }

def step (s : BaseSocketMessenger) : SendOp → Option BaseSocketMessenger
  | .send i data => if s.sends i = .absent then some (s.put i (.unlocked data)) else none
  | .lock i =>
    match s.sends i with
    | .unlocked data =>
      if s.message_lock = none then some { s.put i (.writing data 0) with message_lock := some i } else none
    | _ => none
  | .write i k =>
    match s.sends i with
    | .writing data n =>
      if 0 < k ∧ n + k ≤ data.length then
        some { s.put i (.writing data (n + k)) with wire := s.wire ++ (data.drop n).take k }
      else none
    | _ => none
  | .done i =>
    match s.sends i with
    | .writing data n =>
      if n = data.length then
        some { s.put i (.returned data) with message_lock := none, finished := s.finished ++ [i] }
      else none
    | _ => none
  | .tryAgain i =>
    match s.sends i with
    | .writing data n =>
      if n < data.length then
        some { s.put i (.unlocked data) with message_lock := none, abandoned := s.abandoned + n }
      else none
    | _ => none
  | .fail i =>
    match s.sends i with
    | .writing data n =>
      if n < data.length then some { s.put i (.threw data) with message_lock := none } else none
    | _ => none

/-- All calls so far have returned normally. -/
def AllReturned (s : BaseSocketMessenger) : Prop :=
  ∀ i, s.sends i = .absent ∨ ∃ data, s.sends i = .returned data

/-- The wire holds the data of each call, once and in one piece, in some order. -/
def Contiguous (s : BaseSocketMessenger) : Prop :=
  ∃ order : List Nat, order.Nodup ∧ (∀ i, i ∈ order ↔ s.sends i ≠ .absent) ∧
    s.wire = order.flatMap fun i => (s.sends i).data

/-- The condition on the steps: the socket reports `try_again` only before it has taken a byte of the
attempt. -/
def NothingTaken (s : BaseSocketMessenger) (op : SendOp) : Prop :=
  ∀ i data n, op = .tryAgain i → s.sends i = .writing data n → n = 0

end BaseSocketMessenger

def sendMachine : Machine BaseSocketMessenger SendOp where
  init := {}
  step := BaseSocketMessenger.step

end AnboxReboxed.Network
