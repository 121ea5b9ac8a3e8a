import AnboxReboxed.Input.Keyboard
import AnboxReboxed.Input.Touch
import Mathlib.Data.UInt

/-!
# The SDL platform and its focus

The platform forwards keys and buttons of the window that has the focus to the keyboard and the pointer. Which window
this is, it keeps in `focused_sdl_window_id_`, as the events of its windows tell and whenever it creates one. The lock
of the pointer belongs to the focused window as well.

The device files of the legacy input, the emulated finger, frames, viewports and tasks are not part of this: what the
renderer makes of a point on a window comes with the event.
-/

namespace AnboxReboxed.Sdl

open AnboxReboxed.Lib AnboxReboxed.Input

local instance neZeroCodes : NeZero (2 ^ 16) := inferInstance

/-- `SDL_Scancode` -/
abbrev Scancode := UInt32

def SDL_SCANCODE_R : Scancode := 21
def KMOD_CTRL : UInt16 := 0x00c0
def KMOD_ALT : UInt16 := 0x0300
def SDL_BUTTON_LEFT : UInt8 := 1
def SDL_BUTTON_MIDDLE : UInt8 := 2
def SDL_BUTTON_RIGHT : UInt8 := 3
def SDL_BUTTON_X1 : UInt8 := 4
def SDL_BUTTON_X2 : UInt8 := 5
def BTN_LEFT : Code := 0x110
def BTN_RIGHT : Code := 0x111
def BTN_MIDDLE : Code := 0x112
def BTN_SIDE : Code := 0x113
def BTN_EXTRA : Code := 0x114

/-- 0 stands for a button that is not known. -/
def convert_mouse_button (button : UInt8) : Code :=
  if button = SDL_BUTTON_LEFT then BTN_LEFT
  else if button = SDL_BUTTON_RIGHT then BTN_RIGHT
  else if button = SDL_BUTTON_MIDDLE then BTN_MIDDLE
  else if button = SDL_BUTTON_X1 then BTN_SIDE
  else if button = SDL_BUTTON_X2 then BTN_EXTRA
  else 0

/-! ## Events -/

inductive WindowEvent where
  | FOCUS_GAINED
  | FOCUS_LOST
  | HIDDEN
  | MINIMIZED
  | CLOSE
  deriving DecidableEq

/-- `SDL_KEYDOWN` and `SDL_KEYUP`. -/
structure KeyEvent where
  windowID : UInt32
  pressed : Bool
  repeats : Bool := false
  scancode : Scancode
  modifiers : UInt16 := 0

/-- `SDL_MOUSEMOTION`, with what the viewport of the window makes of the point and of the way to it. -/
structure MotionEvent where
  windowID : UInt32
  absolute : Option (Int32 × Int32)
  relative : Option (Int32 × Int32)

inductive WindowControl where
  | none
  | maximize
  | close
  deriving DecidableEq

/-- `SDL_MOUSEBUTTONDOWN` and `SDL_MOUSEBUTTONUP`. -/
structure ButtonEvent where
  windowID : UInt32
  pressed : Bool
  button : UInt8
  /-- `window_control_at` the point -/
  hovered : WindowControl := .none
  absolute : Option (Int32 × Int32)

structure WheelEvent where
  windowID : UInt32
  x : Int32
  y : Int32
  flipped : Bool
  /-- The place of the mouse, where the window has a viewport. -/
  absolute : Option (Int32 × Int32)
  viewport : Bool

/-- A step of the platform, at a time. SDL decides which id a window gets and whether it grants a grab. -/
inductive SdlOp where
  | SDL_QUIT (time_ns : UInt64)
  | SDL_WINDOWEVENT (windowID : UInt32) (event : WindowEvent) (time_ns : UInt64)
  | key (event : KeyEvent) (grants : Bool) (time_ns : UInt64)
  | motion (event : MotionEvent) (time_ns : UInt64)
  | button (event : ButtonEvent) (time_ns : UInt64)
  | wheel (event : WheelEvent) (time_ns : UInt64)
  /-- A call that comes to its end. -/
  | create_window (window_id : UInt32) (client_side_decorations : Bool)
  /-- Nobody holds the window any more. -/
  | destroyed (id : Nat)

/-! ## The platform -/

structure Window where
  window_id : UInt32
  client_side_decorations_ : Bool
  pressed_window_control_ : WindowControl := .none

/-- What the platform is built on. `convert` is the table of the `KeycodeConverter`. -/
structure Setup (σ : Type) where
  config_ : TouchConfiguration := {}
  repeat_policy_ : RepeatPolicy := .IgnoreHost
  convert : Scancode → Code
  submit : Sink σ

/-- The windows that exist are in `objects`, by their `id()`; `windows_` lists those that the platform looks at. Beside
the members stands under which focus each code was pressed, and the window that the pointer was last locked to. -/
structure Platform (σ : Type) where
  producers : Producers := {}
  sink : σ
  objects : OrdMap Nat Window := ∅
  windows_ : OrdSet Nat := ∅
  next_window_id : Nat := 0
  focused_sdl_window_id_ : UInt32 := 0
  pointer_locked_ : Bool := false
  pressed_under : Stream → Code → UInt32 := fun _ _ => 0
  grabbed : UInt32 := 0

namespace Platform

variable {σ : Type} (h : Setup σ)

/-- The codes whose press was accepted and which are not released. -/
def injected (p : Platform σ) (d : Stream) : OrdSet Code := (p.producers.held d).injected_held_

/-- A call of the keyboard or the pointer. A press that is accepted belongs to the focused window. -/
def call (p : Platform σ) (c : InputCall) : Platform σ :=
  let (producers, sink) := p.producers.call h.submit p.sink c
  { p with
    producers
    sink
    pressed_under := fun d code =>
      if code ∈ (producers.held d).injected_held_ ∧ code ∉ p.injected d then p.focused_sdl_window_id_
      else p.pressed_under d code }

/-- The entry `id` of `windows_`, if its window is still there. -/
def lock (p : Platform σ) (id : Nat) : Option Window := if id ∈ p.windows_ then p.objects.find? id else none

def window_for_sdl_id (p : Platform σ) (window_id : UInt32) : Option Nat :=
  p.windows_.keys.find? fun id => (p.lock id).any fun w => w.window_id = window_id

/-- Whether `SDL_GetWindowFromID` finds a window of the platform. -/
def SDL_GetWindowFromID (p : Platform σ) (window_id : UInt32) : Bool :=
  p.objects.entries.any fun e => e.2.window_id = window_id

/-- `SDL_GetWindowGrab` tells what became of the request. A window that is let go is not grabbed. -/
def set_pointer_locked (p : Platform σ) (locked grants : Bool) : Platform σ :=
  if p.SDL_GetWindowFromID p.focused_sdl_window_id_ then
    { p with
      pointer_locked_ := locked && grants
      grabbed := if locked && grants then p.focused_sdl_window_id_ else p.grabbed }
  else p

def handle_pointer_lock_shortcut (p : Platform σ) (event : KeyEvent) (grants : Bool) : Option (Platform σ) :=
  if !event.pressed || event.repeats || event.scancode ≠ SDL_SCANCODE_R then none
  else if event.modifiers &&& (KMOD_CTRL ||| KMOD_ALT) ≠ KMOD_CTRL ||| KMOD_ALT then none
  else some (p.set_pointer_locked (!p.pointer_locked_) grants)

def release_reboxed_input (p : Platform σ) (time_ns : UInt64) : Platform σ :=
  if h.config_.legacy_input then p
  else (p.call h (.keyboard_release_all time_ns)).call h (.pointer_release_all time_ns)

/-- The test at the head of `process_reboxed_input_event`. -/
def accepts (p : Platform σ) (windowID : UInt32) : Bool := windowID ≠ 0 && windowID = p.focused_sdl_window_id_

/-- `map_pointer_absolute` and `map_pointer_relative`. -/
def map_pointer (p : Platform σ) (windowID : UInt32) (mapped : Option (Int32 × Int32)) : Option (Int32 × Int32) :=
  if (p.window_for_sdl_id windowID).isSome then mapped else none

def process_key (p : Platform σ) (event : KeyEvent) (time_ns : UInt64) : Platform σ :=
  if p.accepts event.windowID then p.call h (.key (h.convert event.scancode) event.pressed event.repeats time_ns)
  else p

def process_motion (p : Platform σ) (event : MotionEvent) (time_ns : UInt64) : Platform σ :=
  if p.accepts event.windowID && h.config_.no_touch_emulation then
    if p.pointer_locked_ then
      match p.map_pointer event.windowID event.relative with
      | some (x, y) => p.call h (.relative x y time_ns)
      | none => p
    else
      match p.map_pointer event.windowID event.absolute with
      | some (x, y) => p.call h (.absolute x y time_ns)
      | none => p
  else p

def process_button (p : Platform σ) (event : ButtonEvent) (time_ns : UInt64) : Platform σ :=
  if p.accepts event.windowID && h.config_.no_touch_emulation then
    let code := convert_mouse_button event.button
    if code = 0 then p
    else if event.pressed && !p.pointer_locked_ then
      match p.map_pointer event.windowID event.absolute with
      | some (x, y) => (p.call h (.absolute x y time_ns)).call h (.button code event.pressed time_ns)
      | none => p
    else p.call h (.button code event.pressed time_ns)
  else p

def process_wheel (p : Platform σ) (event : WheelEvent) (time_ns : UInt64) : Platform σ :=
  if p.accepts event.windowID then
    let (vertical, horizontal) := if event.flipped then (-event.y, -event.x) else (event.y, event.x)
    if p.pointer_locked_ then
      if (p.window_for_sdl_id event.windowID).isSome && event.viewport then
        p.call h (.wheel vertical horizontal time_ns)
      else p
    else
      match p.map_pointer event.windowID event.absolute with
      | some (x, y) => (p.call h (.absolute x y time_ns)).call h (.wheel vertical horizontal time_ns)
      | none => p
  else p

def create_window (p : Platform σ) (window_id : UInt32) (client_side_decorations_ : Bool) : Platform σ :=
  let id := p.next_window_id
  { p with
    next_window_id := id + 1
    objects := p.objects.insert id { window_id, client_side_decorations_ }
    focused_sdl_window_id_ := window_id
    windows_ := p.windows_.insert id () }

def window_deleted (p : Platform σ) (id : Nat) (time_ns : UInt64) : Platform σ :=
  if id ∉ p.windows_ then p
  else
    let p := match p.lock id with
      | some window =>
        let p := p.release_reboxed_input h time_ns
        if window.window_id = p.focused_sdl_window_id_ then p.set_pointer_locked false false else p
      | none => p
    { p with windows_ := p.windows_.erase id }

def window_wants_focus (p : Platform σ) (id : Nat) : Platform σ :=
  match p.lock id with
  | some window => { p with focused_sdl_window_id_ := window.window_id }
  | none => p

def window_lost_focus (p : Platform σ) (id : Nat) (time_ns : UInt64) : Platform σ :=
  match p.lock id with
  | some window =>
    if window.window_id = p.focused_sdl_window_id_ then
      { (p.release_reboxed_input h time_ns).set_pointer_locked false false with focused_sdl_window_id_ := 0 }
    else p
  | none => p

def window_hidden (p : Platform σ) (id : Nat) (time_ns : UInt64) : Platform σ :=
  let p := p.release_reboxed_input h time_ns
  let p := if p.pointer_locked_ then p.set_pointer_locked false false else p
  match p.lock id with
  | some window =>
    if window.window_id = p.focused_sdl_window_id_ then { p with focused_sdl_window_id_ := 0 } else p
  | none => p

/-- `pressed_window_control_ = ...` -/
def press_control (p : Platform σ) (id : Nat) (control : WindowControl) : Platform σ :=
  match p.objects.find? id with
  | some w => { p with objects := p.objects.insert id { w with pressed_window_control_ := control } }
  | none => p

/-- `Window::process_event` -/
def process_event (p : Platform σ) (id : Nat) (time_ns : UInt64) : WindowEvent → Platform σ
  | .FOCUS_GAINED => p.window_wants_focus id
  | .FOCUS_LOST => (p.press_control id .none).window_lost_focus h id time_ns
  | .HIDDEN => p.window_hidden h id time_ns
  | .MINIMIZED => p.window_hidden h id time_ns
  | .CLOSE => p.window_deleted h id time_ns

/-- `Window::process_window_control_event` for a button. The second part tells whether it takes the event. -/
def process_window_control_event (p : Platform σ) (id : Nat) (event : ButtonEvent) (time_ns : UInt64) :
    Platform σ × Bool :=
  match p.objects.find? id with
  | none => (p, false)
  | some w =>
    if !w.client_side_decorations_ || event.button ≠ SDL_BUTTON_LEFT then (p, false)
    else if event.pressed then (p.press_control id event.hovered, event.hovered ≠ .none)
    else
      let p := p.press_control id .none
      if w.pressed_window_control_ = .none then (p, false)
      else if w.pressed_window_control_ = event.hovered ∧ event.hovered = .close then
        (p.window_deleted h id time_ns, true)
      else (p, true)

/-- The same for a motion. -/
def control_takes_motion (p : Platform σ) (id : Nat) : Bool :=
  (p.objects.find? id).any fun w => w.client_side_decorations_ && w.pressed_window_control_ ≠ .none

/-- A round of `process_events`, or what else happens to the platform. -/
def step (p : Platform σ) : SdlOp → Option (Platform σ)
  | .SDL_QUIT time_ns => some (p.release_reboxed_input h time_ns)
  | .SDL_WINDOWEVENT windowID event time_ns =>
    some (match p.window_for_sdl_id windowID with
      | some id => p.process_event h id time_ns event
      | none => p)
  | .key event grants time_ns =>
    some (match p.handle_pointer_lock_shortcut event grants with
      | some p => p
      | none => if h.config_.legacy_input then p else p.process_key h event time_ns)
  | .motion event time_ns =>
    some (if (p.window_for_sdl_id event.windowID).any p.control_takes_motion || h.config_.legacy_input then p
      else p.process_motion h event time_ns)
  | .button event time_ns =>
    let (p, taken) := match p.window_for_sdl_id event.windowID with
      | some id => p.process_window_control_event h id event time_ns
      | none => (p, false)
    some (if taken || h.config_.legacy_input then p else p.process_button h event time_ns)
  | .wheel event time_ns => some (if h.config_.legacy_input then p else p.process_wheel h event time_ns)
  | .create_window window_id client_side_decorations =>
    if window_id = 0 ∨ p.SDL_GetWindowFromID window_id then none
    else some (p.create_window window_id client_side_decorations)
  | .destroyed id => if id ∈ p.objects then some { p with objects := p.objects.erase id } else none

end Platform

def sdlMachine {σ : Type} (h : Setup σ) (sink : σ) : Machine (Platform σ) SdlOp where
  init := { producers := { keyboard := { repeat_policy_ := h.repeat_policy_ } }, sink }
  step := Platform.step h

/-! ## What the focus carries with it -/

namespace Platform

variable {σ : Type}

/-- Every code that is held was pressed under the focus of now, and a pointer that is locked is locked to the focused
window. -/
structure Settled (p : Platform σ) : Prop where
  pressed : ∀ d, ∀ code ∈ p.injected d, p.pressed_under d code = p.focused_sdl_window_id_
  locked : p.pointer_locked_ = true → p.grabbed = p.focused_sdl_window_id_

/-- When the focus goes away, what was pressed under it is not held any more. -/
def Released (p p' : Platform σ) : Prop :=
  p'.focused_sdl_window_id_ ≠ p.focused_sdl_window_id_ →
    ∀ d, ∀ code ∈ p'.injected d, p'.pressed_under d code ≠ p.focused_sdl_window_id_

/-- The window that a step gives the focus to. -/
def focus_given (p : Platform σ) : SdlOp → Option UInt32
  | .SDL_WINDOWEVENT windowID .FOCUS_GAINED _ => if (p.window_for_sdl_id windowID).isSome then some windowID else none
  | .create_window window_id _ =>
    if window_id = 0 ∨ p.SDL_GetWindowFromID window_id then none else some window_id
  | _ => none

/-- A window gets the focus when it has it already, or when nothing is held and the pointer is not locked. -/
def Handed (p : Platform σ) (op : SdlOp) : Prop :=
  ∀ window_id, p.focus_given op = some window_id →
    window_id = p.focused_sdl_window_id_ ∨ (∀ d, p.injected d = ∅) ∧ p.pointer_locked_ = false

end Platform

end AnboxReboxed.Sdl
