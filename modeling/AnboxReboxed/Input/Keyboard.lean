import AnboxReboxed.Input.Device
import AnboxReboxed.Lib.OrdMap

/-!
# `Keyboard`

The keyboard turns key events of the host into batches. It keeps two sets of codes: those that the host holds, and
those whose press the sink has accepted. `Pointer` treats its buttons in the same way, so presses and releases are
defined here once, with the stream and the kind of the batches as parameters. Each call runs under the mutex of its
object, the call of the sink included. What the sink is stays open: `submit` takes its state to the next one and
tells whether the batch was accepted.

The diagnostic counters of both classes are only printed and are left out.
-/

namespace AnboxReboxed.Input

open AnboxReboxed.Lib

/-- `EventSink::submit`. -/
abbrev Sink (σ : Type) := σ → EventBatch → σ × Bool

structure HeldCodes where
  host_held_ : OrdSet Code := ∅
  injected_held_ : OrdSet Code := ∅
  deriving DecidableEq

namespace HeldCodes

variable {σ : Type} (submit : Sink σ) (stream : Stream) (kind : BatchKind)

/-- The batch for one code. -/
def transition (code : Code) (value : Int32) (source_sequence source_time_ns : UInt64) : EventBatch :=
  { stream, kind, events := [key_event code value, syn_report], source_sequence, source_time_ns }

/-- The batch that releases all codes of the set, in the order of the set. -/
def forced_release (codes : OrdSet Code) (source_sequence source_time_ns : UInt64) : EventBatch :=
  { stream
    kind := .ForcedRelease
    events := codes.keys.map (fun code => key_event code 0) ++ [syn_report]
    source_sequence
    source_time_ns }

def press (h : HeldCodes) (sink : σ) (code : Code) (source_sequence source_time_ns : UInt64) :
    (HeldCodes × σ) × Bool :=
  if code ∈ h.host_held_ then ((h, sink), true)
  else
    let h := { h with host_held_ := h.host_held_.insert code () }
    match submit sink (transition stream kind code 1 source_sequence source_time_ns) with
    | (sink, true) => (({ h with injected_held_ := h.injected_held_.insert code () }, sink), true)
    | (sink, false) => ((h, sink), false)

def release (h : HeldCodes) (sink : σ) (code : Code) (source_sequence source_time_ns : UInt64) :
    (HeldCodes × σ) × Bool :=
  if code ∉ h.host_held_ then ((h, sink), true)
  else
    let h := { h with host_held_ := h.host_held_.erase code }
    if code ∉ h.injected_held_ then ((h, sink), true)
    else
      let h := { h with injected_held_ := h.injected_held_.erase code }
      match submit sink (transition stream kind code 0 source_sequence source_time_ns) with
      | (sink, accepted) => ((h, sink), accepted)

/-- A sequence number is taken only when there is something to release. -/
def release_all (h : HeldCodes) (sink : σ) (next_source_sequence source_time_ns : UInt64) :
    HeldCodes × σ × UInt64 :=
  if h.injected_held_ = ∅ then ({ h with host_held_ := ∅ }, sink, next_source_sequence)
  else
    let batch := forced_release stream h.injected_held_ (next_source_sequence + 1) source_time_ns
    ({}, (submit sink batch).1, next_source_sequence + 1)

end HeldCodes

inductive RepeatPolicy where
  | IgnoreHost
  | ForwardLinuxRepeat
  deriving DecidableEq

structure Keyboard where
  repeat_policy_ : RepeatPolicy := .IgnoreHost
  held : HeldCodes := {}
  next_source_sequence_ : UInt64 := 0
  deriving DecidableEq

namespace Keyboard

variable {σ : Type} (submit : Sink σ)

def key (k : Keyboard) (sink : σ) (linux_code : Code) (pressed host_repeat : Bool) (source_time_ns : UInt64) :
    (Keyboard × σ) × Bool :=
  let source_sequence := k.next_source_sequence_ + 1
  let k := { k with next_source_sequence_ := source_sequence }
  if linux_code = KEY_RESERVED then ((k, sink), false)
  else if host_repeat then
    if !pressed || linux_code ∉ k.held.host_held_ || k.repeat_policy_ = .IgnoreHost then ((k, sink), true)
    else
      match submit sink (HeldCodes.transition .Keyboard .Repeat linux_code 2 source_sequence source_time_ns) with
      | (sink, accepted) => ((k, sink), accepted)
  else if pressed then
    match k.held.press submit .Keyboard .Key sink linux_code source_sequence source_time_ns with
    | ((held, sink), result) => (({ k with held }, sink), result)
  else
    match k.held.release submit .Keyboard .Key sink linux_code source_sequence source_time_ns with
    | ((held, sink), result) => (({ k with held }, sink), result)

def release_all (k : Keyboard) (sink : σ) (source_time_ns : UInt64) : Keyboard × σ :=
  match k.held.release_all submit .Keyboard sink k.next_source_sequence_ source_time_ns with
  | (held, sink, next_source_sequence_) => ({ k with held, next_source_sequence_ }, sink)

def reset_after_transport_failure (k : Keyboard) : Keyboard := { k with held := {} }

end Keyboard

end AnboxReboxed.Input

/-!
## `Pointer`

Buttons are held like keys, without repeats. Motion and wheel are states that are handed on as they come. `Producers`
are the keyboard and the pointer of one platform, with the calls that the event thread makes.
-/

namespace AnboxReboxed.Input

structure Pointer where
  held : HeldCodes := {}
  next_source_sequence_ : UInt64 := 0
  deriving DecidableEq

namespace Pointer

variable {σ : Type} (submit : Sink σ)

def absolute (p : Pointer) (sink : σ) (x y : Int32) (source_time_ns : UInt64) : (Pointer × σ) × Bool :=
  let p := { p with next_source_sequence_ := p.next_source_sequence_ + 1 }
  let batch : EventBatch :=
    { stream := .Pointer
      kind := .Motion
      events := [⟨EV_ABS, ABS_X, x⟩, ⟨EV_ABS, ABS_Y, y⟩, syn_report]
      source_sequence := p.next_source_sequence_
      source_time_ns }
  match submit sink batch with
  | (sink, accepted) => ((p, sink), accepted)

/-- The axes of a relative event that have moved. -/
def moved (axes : List (Code × Int32)) : List Event :=
  (axes.filter fun axis => axis.2 ≠ 0).map fun axis => ⟨EV_REL, axis.1, axis.2⟩

/-- Relative motion and the wheel: nothing is sent when no axis has moved. -/
def send_moved (kind : BatchKind) (axes : List (Code × Int32)) (p : Pointer) (sink : σ) (source_time_ns : UInt64) :
    (Pointer × σ) × Bool :=
  if moved axes = [] then ((p, sink), true)
  else
    let p := { p with next_source_sequence_ := p.next_source_sequence_ + 1 }
    let batch : EventBatch :=
      { stream := .Pointer
        kind
        events := moved axes ++ [syn_report]
        source_sequence := p.next_source_sequence_
        source_time_ns }
    match submit sink batch with
    | (sink, accepted) => ((p, sink), accepted)

def relative (p : Pointer) (sink : σ) (dx dy : Int32) (source_time_ns : UInt64) : (Pointer × σ) × Bool :=
  p.send_moved submit .Motion [(REL_X, dx), (REL_Y, dy)] sink source_time_ns

def wheel (p : Pointer) (sink : σ) (vertical horizontal : Int32) (source_time_ns : UInt64) : (Pointer × σ) × Bool :=
  p.send_moved submit .Wheel [(REL_WHEEL, vertical), (REL_HWHEEL, horizontal)] sink source_time_ns

def button (p : Pointer) (sink : σ) (linux_code : Code) (pressed : Bool) (source_time_ns : UInt64) :
    (Pointer × σ) × Bool :=
  let source_sequence := p.next_source_sequence_ + 1
  let p := { p with next_source_sequence_ := source_sequence }
  if pressed then
    match p.held.press submit .Pointer .Button sink linux_code source_sequence source_time_ns with
    | ((held, sink), result) => (({ p with held }, sink), result)
  else
    match p.held.release submit .Pointer .Button sink linux_code source_sequence source_time_ns with
    | ((held, sink), result) => (({ p with held }, sink), result)

def release_all (p : Pointer) (sink : σ) (source_time_ns : UInt64) : Pointer × σ :=
  match p.held.release_all submit .Pointer sink p.next_source_sequence_ source_time_ns with
  | (held, sink, next_source_sequence_) => ({ p with held, next_source_sequence_ }, sink)

def reset_after_transport_failure (p : Pointer) : Pointer := { p with held := {} }

end Pointer

structure Producers where
  keyboard : Keyboard := {}
  pointer : Pointer := {}
  deriving DecidableEq

inductive InputCall where
  | key (linux_code : Code) (pressed host_repeat : Bool) (source_time_ns : UInt64)
  | keyboard_release_all (source_time_ns : UInt64)
  | absolute (x y : Int32) (source_time_ns : UInt64)
  | relative (dx dy : Int32) (source_time_ns : UInt64)
  | button (linux_code : Code) (pressed : Bool) (source_time_ns : UInt64)
  | wheel (vertical horizontal : Int32) (source_time_ns : UInt64)
  | pointer_release_all (source_time_ns : UInt64)
  deriving DecidableEq

namespace Producers

variable {σ : Type} (submit : Sink σ)

def call (p : Producers) (sink : σ) : InputCall → Producers × σ
  | .key linux_code pressed host_repeat source_time_ns =>
    match p.keyboard.key submit sink linux_code pressed host_repeat source_time_ns with
    | ((keyboard, sink), _) => ({ p with keyboard }, sink)
  | .keyboard_release_all source_time_ns =>
    match p.keyboard.release_all submit sink source_time_ns with
    | (keyboard, sink) => ({ p with keyboard }, sink)
  | .absolute x y source_time_ns =>
    match p.pointer.absolute submit sink x y source_time_ns with
    | ((pointer, sink), _) => ({ p with pointer }, sink)
  | .relative dx dy source_time_ns =>
    match p.pointer.relative submit sink dx dy source_time_ns with
    | ((pointer, sink), _) => ({ p with pointer }, sink)
  | .button linux_code pressed source_time_ns =>
    match p.pointer.button submit sink linux_code pressed source_time_ns with
    | ((pointer, sink), _) => ({ p with pointer }, sink)
  | .wheel vertical horizontal source_time_ns =>
    match p.pointer.wheel submit sink vertical horizontal source_time_ns with
    | ((pointer, sink), _) => ({ p with pointer }, sink)
  | .pointer_release_all source_time_ns =>
    match p.pointer.release_all submit sink source_time_ns with
    | (pointer, sink) => ({ p with pointer }, sink)

/-- The batches that a call gives to its sink. -/
def submits (p : Producers) (c : InputCall) : List EventBatch :=
  (p.call (fun batches batch => (batches ++ [batch], true)) [] c).2

def held (p : Producers) : Stream → HeldCodes
  | .Keyboard => p.keyboard.held
  | .Pointer => p.pointer.held

def reset_after_transport_failure (p : Producers) : Stream → Producers
  | .Keyboard => { p with keyboard := p.keyboard.reset_after_transport_failure }
  | .Pointer => { p with pointer := p.pointer.reset_after_transport_failure }

end Producers

end AnboxReboxed.Input
