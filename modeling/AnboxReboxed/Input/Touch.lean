import AnboxReboxed.Input.Device
import AnboxReboxed.Lib.Machine
import Mathlib.Data.List.FinRange
import Mathlib.Logic.Function.Basic

/-!
# Touch slots

The SDL platform hands the fingers on its windows to the touch device, one slot each, and a mouse button may stand
for a finger. Beside the platform stands what the kernel makes of the events, by its multi-touch protocol B, and
the fingers themselves: which of them are down in a slot, and where they were last.
-/

namespace AnboxReboxed.Input

open AnboxReboxed.Lib Function

def MAX_FINGERS : Nat := 10
def MAX_TRACKING_ID : Int32 := 10

/-- The part of `Platform` that has to do with fingers. -/
structure TouchSlots where
  touch_slots : Fin MAX_FINGERS → Int32 := fun _ => -1
  last_slot : Int32 := -1

/-- A slot as a value of the type `int`. -/
def slot_value (slot : Fin MAX_FINGERS) : Int32 := Int32.ofNat slot

/-- The tracking id of a finger. The remainder has the sign of the finger's id. -/
def tracking_id (finger_id : Int32) : Int32 := finger_id % MAX_TRACKING_ID + 1

namespace TouchSlots

/-- `none` stands for -1. -/
def find_touch_slot (s : TouchSlots) (id : Int32) : Option (Fin MAX_FINGERS) :=
  (List.finRange MAX_FINGERS).find? fun i => s.touch_slots i = id

def push_slot (s : TouchSlots) (touch_events : List Event) (slot : Fin MAX_FINGERS) : TouchSlots × List Event :=
  if s.last_slot ≠ slot_value slot then
    ({ s with last_slot := slot_value slot }, touch_events ++ [⟨EV_ABS, ABS_MT_SLOT, slot_value slot⟩])
  else (s, touch_events)

def push_finger_down (s : TouchSlots) (x y finger_id : Int32) (touch_events : List Event) :
    TouchSlots × List Event :=
  match s.find_touch_slot (-1) with
  | none => (s, touch_events)
  | some slot =>
    let (s, touch_events) :=
      { s with touch_slots := update s.touch_slots slot finger_id }.push_slot touch_events slot
    (s, touch_events ++ [⟨EV_ABS, ABS_MT_TRACKING_ID, tracking_id finger_id⟩, ⟨EV_ABS, ABS_MT_POSITION_X, x⟩,
      ⟨EV_ABS, ABS_MT_POSITION_Y, y⟩, syn_report])

def push_finger_up (s : TouchSlots) (finger_id : Int32) (touch_events : List Event) : TouchSlots × List Event :=
  match s.find_touch_slot finger_id with
  | none => (s, touch_events)
  | some slot =>
    let (s, touch_events) := s.push_slot touch_events slot
    ({ s with touch_slots := update s.touch_slots slot (-1) },
      touch_events ++ [⟨EV_ABS, ABS_MT_TRACKING_ID, -1⟩, syn_report])

def push_finger_motion (s : TouchSlots) (x y finger_id : Int32) (touch_events : List Event) :
    TouchSlots × List Event :=
  match s.find_touch_slot finger_id with
  | none => (s, touch_events)
  | some slot =>
    let (s, touch_events) := s.push_slot touch_events slot
    (s, touch_events ++ [⟨EV_ABS, ABS_MT_POSITION_X, x⟩, ⟨EV_ABS, ABS_MT_POSITION_Y, y⟩, syn_report])

end TouchSlots

/-! ## The kernel -/

/-- A slot of the kernel. It holds a contact unless its tracking id is -1. -/
structure Contact where
  tracking_id : Int32 := -1
  x : Int32 := 0
  y : Int32 := 0
  deriving DecidableEq

/-- The state of the device, and what was committed last. -/
structure SlotDecoder where
  slot : Int32 := 0
  contacts : Int32 → Contact := fun _ => {}
  committed : Int32 → Contact := fun _ => {}

namespace SlotDecoder

def modify (d : SlotDecoder) (f : Contact → Contact) : SlotDecoder :=
  { d with contacts := update d.contacts d.slot (f (d.contacts d.slot)) }

def event (d : SlotDecoder) (e : Event) : SlotDecoder :=
  if e.type = EV_ABS then
    if e.code = ABS_MT_SLOT then { d with slot := e.value }
    else if e.code = ABS_MT_TRACKING_ID then d.modify fun c => { c with tracking_id := e.value }
    else if e.code = ABS_MT_POSITION_X then d.modify fun c => { c with x := e.value }
    else if e.code = ABS_MT_POSITION_Y then d.modify fun c => { c with y := e.value }
    else d
  else if e.type = EV_SYN ∧ e.code = SYN_REPORT then { d with committed := d.contacts }
  else d

/-- `Device::send_events`, for a device that is there. -/
def send_events (d : SlotDecoder) (events : List Event) : SlotDecoder := events.foldl event d

end SlotDecoder

/-! ## The fingers -/

/-- A finger of the touch screen, or the mouse in its place. -/
inductive Finger where
  | mouse
  | touch (fingerId : Int64)
  deriving DecidableEq

def emulated_touch_id_ : Int32 := 0

/-- The finger's id as the functions above get it, which is converted to an `int`. -/
def Finger.id : Finger → Int32
  | .mouse => emulated_touch_id_
  | .touch fingerId => fingerId.toInt32

/-- The slot that a finger got, and where it was last. -/
structure Touch where
  slot : Fin MAX_FINGERS
  x : Int32
  y : Int32
  deriving DecidableEq

structure TouchConfiguration where
  no_touch_emulation : Bool := false
  legacy_input : Bool := false

structure TouchScreen where
  slots : TouchSlots := {}
  device : SlotDecoder := {}
  /-- The fingers that are down and got a slot. -/
  held : Finger → Option Touch := fun _ => none

/-- An event of the host. Its coordinates may lie outside of what is shown. -/
inductive TouchOp where
  | finger_down (fingerId : Int64) (at_ : Option (Int32 × Int32))
  | finger_motion (fingerId : Int64) (at_ : Option (Int32 × Int32))
  | finger_up (fingerId : Int64)
  /-- Any button of the mouse. -/
  | mouse_button_down (at_ : Option (Int32 × Int32))
  | mouse_motion (at_ : Option (Int32 × Int32))
  | mouse_button_up
  | release_reboxed_input

namespace TouchScreen

def down (s : TouchScreen) (f : Finger) (x y : Int32) : TouchScreen :=
  let result := s.slots.push_finger_down x y f.id []
  { slots := result.1
    device := s.device.send_events result.2
    held := match s.slots.find_touch_slot (-1) with
      | none => s.held
      | some slot => update s.held f (some { slot, x, y }) }

def motion (s : TouchScreen) (f : Finger) (x y : Int32) : TouchScreen :=
  let result := s.slots.push_finger_motion x y f.id []
  { slots := result.1
    device := s.device.send_events result.2
    held := update s.held f ((s.held f).map fun touch => { touch with x, y }) }

def up (s : TouchScreen) (f : Finger) : TouchScreen :=
  let result := s.slots.push_finger_up f.id []
  { slots := result.1
    device := s.device.send_events result.2
    held := update s.held f none }

/-- What an event does to a finger. -/
inductive Stroke where
  | down (f : Finger) (x y : Int32)
  | motion (f : Finger) (x y : Int32)
  | up (f : Finger)

def stroke (s : TouchScreen) : Stroke → TouchScreen
  | .down f x y => s.down f x y
  | .motion f x y => s.motion f x y
  | .up f => s.up f

/-- `process_input_event` and `release_reboxed_input`, as far as they have to do with fingers. -/
def process_input_event (c : TouchConfiguration) (s : TouchScreen) : TouchOp → Option Stroke
  | .finger_down fingerId at_ => at_.map fun p => .down (.touch fingerId) p.1 p.2
  | .finger_motion fingerId at_ => at_.map fun p => .motion (.touch fingerId) p.1 p.2
  | .finger_up fingerId => some (.up (.touch fingerId))
  | .mouse_button_down at_ => if c.no_touch_emulation then none else at_.map fun p => .down .mouse p.1 p.2
  | .mouse_motion at_ => if c.no_touch_emulation then none else at_.map fun p => .motion .mouse p.1 p.2
  | .mouse_button_up => if c.no_touch_emulation then none else some (.up .mouse)
  | .release_reboxed_input =>
    if c.legacy_input then none
    else if !c.no_touch_emulation && (s.slots.find_touch_slot emulated_touch_id_).isSome then some (.up .mouse)
    else none

def step (c : TouchConfiguration) (s : TouchScreen) (op : TouchOp) : Option TouchScreen :=
  match s.process_input_event c op with
  | none => some s
  | some stroke => some (s.stroke stroke)

/-- The contact in this slot is held by the finger, where the finger was last. -/
def ContactOf (s : TouchScreen) (slot : Int32) (f : Finger) : Prop :=
  ∃ touch, s.held f = some touch ∧ slot_value touch.slot = slot ∧ (s.device.committed slot).x = touch.x ∧
    (s.device.committed slot).y = touch.y

/-- The contacts that were committed are the fingers that hold a slot. -/
structure Follows (s : TouchScreen) : Prop where
  contact : ∀ f touch, s.held f = some touch → (s.device.committed (slot_value touch.slot)).tracking_id ≠ -1 ∧
    s.ContactOf (slot_value touch.slot) f
  finger : ∀ slot, (s.device.committed slot).tracking_id ≠ -1 → ∃ f, s.ContactOf slot f
  one_finger : ∀ slot f g, s.ContactOf slot f → s.ContactOf slot g → f = g
  valid : ∀ slot, (s.device.committed slot).tracking_id ≠ -1 → 0 ≤ (s.device.committed slot).tracking_id
  distinct : ∀ slot slot', (s.device.committed slot).tracking_id ≠ -1 →
    (s.device.committed slot).tracking_id = (s.device.committed slot').tracking_id → slot = slot'

/-- The condition on the events: a finger that gets a slot has an id that is not the mark of a free slot, and its
tracking id is a valid one that no held finger has; a finger that moves or goes up has no id of another one. -/
def Apart (s : TouchScreen) : Stroke → Prop
  | .down f _ _ => s.slots.find_touch_slot (-1) ≠ none →
      f.id ≠ -1 ∧ 0 ≤ Input.tracking_id f.id ∧ ∀ g, s.held g ≠ none → Input.tracking_id g.id ≠ Input.tracking_id f.id
  | .motion f _ _ | .up f => ∀ g, s.held g ≠ none → g.id = f.id → g = f

def KeepsApart (c : TouchConfiguration) (s : TouchScreen) (op : TouchOp) : Prop :=
  ∀ stroke, s.process_input_event c op = some stroke → s.Apart stroke

end TouchScreen

def touchMachine (c : TouchConfiguration) : Machine TouchScreen TouchOp where
  init := {}
  step := TouchScreen.step c

end AnboxReboxed.Input
