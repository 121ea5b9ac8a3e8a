import AnboxReboxed.Lib.OrdMap
import Mathlib.Algebra.Group.Nat.Defs
import Mathlib.Order.Fin.Basic

/-!
# Input events and batches

What the keyboard and the pointer hand to their `EventSink`: batches of Linux input events, with the stream they
belong to and the kind by which the queue treats them.
-/

namespace AnboxReboxed.Input

/-- `std::uint16_t`, with the order by which a `std::set` lists it. -/
abbrev Code := Fin (2 ^ 16)

structure Event where
  type : Code
  code : Code
  value : Int32
  deriving DecidableEq

def EV_SYN : Code := 0
def EV_KEY : Code := 1
def EV_REL : Code := 2
def EV_ABS : Code := 3
def SYN_REPORT : Code := 0
def KEY_RESERVED : Code := 0
def KEY_A : Code := 30
def KEY_B : Code := 48
def REL_X : Code := 0
def REL_Y : Code := 1
def REL_HWHEEL : Code := 6
def REL_WHEEL : Code := 8
def ABS_X : Code := 0
def ABS_Y : Code := 1
def ABS_MT_SLOT : Code := 0x2f
def ABS_MT_POSITION_X : Code := 0x35
def ABS_MT_POSITION_Y : Code := 0x36
def ABS_MT_TRACKING_ID : Code := 0x39

inductive Stream where
  | Keyboard
  | Pointer
  deriving DecidableEq

inductive BatchKind where
  | Key
  | Button
  | Motion
  | Wheel
  | Repeat
  | ForcedRelease
  deriving DecidableEq

structure EventBatch where
  stream : Stream := .Keyboard
  kind : BatchKind := .Key
  events : List Event := []
  source_sequence : UInt64 := 0
  transport_sequence : UInt64 := 0
  source_time_ns : UInt64 := 0
  enqueue_time_ns : UInt64 := 0
  deriving DecidableEq

/-- The event that ends every batch. -/
def syn_report : Event := ⟨EV_SYN, SYN_REPORT, 0⟩

/-- A change of the key or button `code`: 1 is down, 2 a repeat, 0 up. -/
def key_event (code : Code) (value : Int32) : Event := ⟨EV_KEY, code, value⟩

end AnboxReboxed.Input

/-!
## `Device`

A uinput device as the kernel has it: the set of keys and buttons that are down, which is the fold of the key events
that were written to it. `deliver_events` writes a batch with as many calls of `write` as it takes, and destroys the
device when it cannot go on. Here it is called without legacy connections, as `Dispatcher::run` does.
-/

namespace AnboxReboxed.Input

open AnboxReboxed.Lib

structure Device where
  /-- The keys that are down; none when there is no device (`uinput_fd_ < 0`). -/
  uinput : Option (OrdSet Code) := none
  deriving DecidableEq

/-- A call of `write`, with what `poll` says after `EAGAIN`. -/
inductive WriteResult where
  | written (bytes : Nat)
  | interrupted
  | again (ready : Bool)
  /-- Another error, or no progress. -/
  | failed
  deriving DecidableEq

/-- `sizeof(CompatEvent)`. -/
def record_size : Nat := 24

/-- The keys that are down after an event: a release lifts the key, a press or a repeat has it down. -/
def apply_event (down : OrdSet Code) (event : Event) : OrdSet Code :=
  if event.type = EV_KEY then
    if event.value = 0 then down.erase event.code else down.insert event.code ()
  else down

def apply_events (down : OrdSet Code) (events : List Event) : OrdSet Code := events.foldl apply_event down

namespace Device

/-- The loop of `deliver_events`, with the events that are still to be written. It has no result while a call of
`write` is outstanding, and `write` does not take more than it is given. -/
def write_loop : List WriteResult → OrdSet Code → List Event → Option (Device × Bool)
  | [], down, events => if events = [] then some (⟨some down⟩, true) else none
  | write :: writes, down, events =>
    if events = [] then some (⟨some down⟩, true)
    else
      match write with
      | .written bytes =>
        if bytes = 0 ∨ events.length * record_size < bytes then none
        else if bytes % record_size ≠ 0 then some (⟨none⟩, false)
        else
          let count := bytes / record_size
          write_loop writes (apply_events down (events.take count)) (events.drop count)
      | .interrupted => write_loop writes down events
      | .again true => write_loop writes down events
      | .again false => some (⟨none⟩, false)
      | .failed => some (⟨none⟩, false)

def deliver_events (d : Device) (events : List Event) (writes : List WriteResult) : Option (Device × Bool) :=
  if events = [] then some (d, true)
  else
    match d.uinput with
    | none => some (d, false)
    | some down => write_loop writes down events

def create_uinput_device (d : Device) : Device := ⟨some (d.uinput.getD ∅)⟩

/-- The keys that are down, none of a device that does not exist. -/
def down (d : Device) : OrdSet Code := d.uinput.getD ∅

end Device

end AnboxReboxed.Input
