import AnboxReboxed.Input.Device
import AnboxReboxed.Input.Dispatcher
import AnboxReboxed.Input.Keyboard
import AnboxReboxed.Lib.Coalesce

/-!
# The input pipeline of the SDL platform

The keyboard and the pointer of the event thread, the dispatcher with its worker, and the two uinput devices. A
failed delivery makes the worker call `reset_reboxed_input_after_transport_failure`, which resets first the keyboard
and then the pointer. The destructor of the platform releases everything, waits for the queue, clears the handler,
drops the keyboard and the pointer, and only then destroys the dispatcher.
-/

namespace AnboxReboxed.Input

open AnboxReboxed.Lib Function

/-- How far the destructor of the platform has come. -/
inductive Stage where
  | running
  /-- The keyboard has been released. -/
  | keyboard_released
  /-- The pointer has been released too, and the queue is flushed. -/
  | flushing
  /-- The handler is cleared, and the keyboard and the pointer are gone. -/
  | closed
  deriving DecidableEq

structure Pipeline where
  producers : Producers := {}
  dispatcher : Dispatcher := { transport_failure_handler_ := true }
  devices : Stream → Device := fun _ => {}
  stage : Stage := .running
  /-- The failure handler has reset the keyboard and not yet the pointer. -/
  keyboard_reset : Bool := false

inductive PipelineOp where
  /-- A call of the event thread, with the clock of `submit`. -/
  | call (c : InputCall) (now enqueued : UInt64)
  | pop
  | check (now : UInt64)
  /-- The delivery ends after these writes. -/
  | finish (writes : List WriteResult) (now : UInt64)
  | handler_keyboard
  | handler_pointer
  | worker_exit
  | create_uinput_device (stream : Stream)
  /-- The steps of `~Platform`. -/
  | shutdown_keyboard (time now enqueued : UInt64)
  | shutdown_pointer (time now enqueued : UInt64)
  | close
  | stop
  deriving DecidableEq

namespace Pipeline

/-- A call of the keyboard or the pointer, with the dispatcher as its sink. -/
def call (l : Limits) (s : Pipeline) (c : InputCall) (now enqueued : UInt64) : Pipeline :=
  let result := s.producers.call (fun d batch => d.submit l batch now enqueued) s.dispatcher c
  { s with producers := result.1, dispatcher := result.2 }

/-- The handler finds no keyboard and no pointer after they are gone. -/
def reset (s : Pipeline) (stream : Stream) : Producers :=
  if s.stage = .closed then s.producers else s.producers.reset_after_transport_failure stream

def finish (s : Pipeline) (writes : List WriteResult) (now : UInt64) : Option Pipeline :=
  match s.dispatcher.worker with
  | .delivering batch =>
    ((s.devices batch.stream).deliver_events batch.events writes).bind fun result =>
      (s.dispatcher.finish result.2 now).map fun dispatcher =>
        { s with dispatcher, devices := update s.devices batch.stream result.1 }
  | _ => none

def step (l : Limits) (s : Pipeline) : PipelineOp → Option Pipeline
  | .call c now enqueued => if s.stage = .running then some (s.call l c now enqueued) else none
  | .pop => (s.dispatcher.step l .pop).map fun dispatcher => { s with dispatcher }
  | .check now => (s.dispatcher.step l (.check now)).map fun dispatcher => { s with dispatcher }
  | .finish writes now => s.finish writes now
  | .handler_keyboard =>
    if s.dispatcher.worker = .handling ∧ s.keyboard_reset = false then
      some { s with producers := s.reset .Keyboard, keyboard_reset := true }
    else none
  | .handler_pointer =>
    if s.keyboard_reset then
      (s.dispatcher.step l .handler_returned).map fun dispatcher =>
        { s with producers := s.reset .Pointer, keyboard_reset := false, dispatcher }
    else none
  | .worker_exit => (s.dispatcher.step l .worker_exit).map fun dispatcher => { s with dispatcher }
  | .create_uinput_device stream =>
    some { s with devices := update s.devices stream (s.devices stream).create_uinput_device }
  | .shutdown_keyboard time now enqueued =>
    if s.stage = .running then
      some { s.call l (.keyboard_release_all time) now enqueued with stage := .keyboard_released }
    else none
  | .shutdown_pointer time now enqueued =>
    if s.stage = .keyboard_released then
      some { s.call l (.pointer_release_all time) now enqueued with stage := .flushing }
    else none
  | .close =>
    if s.stage = .flushing then
      (s.dispatcher.step l (.set_transport_failure_handler false)).map fun dispatcher =>
        { s with dispatcher, stage := .closed }
    else none
  | .stop =>
    if s.stage = .closed then (s.dispatcher.step l .stop).map fun dispatcher => { s with dispatcher } else none

/-! ## The release reserve -/

/-- The number of keys and buttons that are injected and not yet released. -/
def held (s : Pipeline) : Nat :=
  (s.producers.held .Keyboard).injected_held_.size + (s.producers.held .Pointer).injected_held_.size

/-- The batches of the queue that do not give way. -/
def fixed (queue : List EventBatch) : Nat := queue.countP fun batch => !droppable batch

/-- No release has been rejected for lack of room. -/
def ReleasesFit (s : Pipeline) : Prop :=
  ∀ batch, (batch, Outcome.full) ∈ s.dispatcher.calls → is_release batch = false

/-- A press or a wheel that enters at or above the normal limit, in the place of a batch that gives way, leaves room
for the releases of all that is then held. -/
def LeavesRoom (l : Limits) (s : Pipeline) : PipelineOp → Prop
  | .call c _ _ => ∀ batch ∈ s.producers.submits c, is_release batch = false → droppable batch = false →
      l.normal_limit ≤ s.dispatcher.queue_.length → s.dispatcher.queue_.any droppable = true →
        fixed s.dispatcher.queue_ + 1 + (s.held + if batch.kind = .Wheel then 0 else 1) ≤ l.capacity_
  | _ => True

/-! ## Stuck keys -/

/-- When nothing is under way and the host holds nothing, every device that exists has all keys up. -/
def NothingStuck (s : Pipeline) : Prop :=
  s.dispatcher.queue_ = [] → s.dispatcher.worker.batch = [] →
    (∀ stream, (s.producers.held stream).host_held_ = ∅) → ∀ stream, (s.devices stream).down = ∅

/-- The dispatcher accepts a batch of a kind that does not replace another one. -/
def takes (l : Limits) (d : Dispatcher) (batch : EventBatch) : Bool :=
  !d.stopping_ && !d.transport_failed_ && (d.queue_.length < l.limit batch || d.queue_.any droppable)

/-- A delivery fails only while the other device, if it exists, has all keys up, and a repeat that is sent and
accepted is one of an injected code. -/
def FailsAlone (l : Limits) (s : Pipeline) : PipelineOp → Prop
  | .finish writes _ => ∀ batch, s.dispatcher.worker = .delivering batch →
      ∀ device, (s.devices batch.stream).deliver_events batch.events writes = some (device, false) →
        ∀ stream, stream ≠ batch.stream → (s.devices stream).down = ∅
  | .call c _ _ => ∀ batch ∈ s.producers.submits c, batch.kind = .Repeat → takes l s.dispatcher batch = true →
      ∀ event ∈ batch.events, event.type = EV_KEY → event.code ∈ s.producers.keyboard.held.injected_held_
  | _ => True

end Pipeline

def pipelineMachine (l : Limits) (repeat_policy : RepeatPolicy) : Machine Pipeline PipelineOp where
  init := { producers := { keyboard := { repeat_policy_ := repeat_policy } } }
  step := Pipeline.step l

end AnboxReboxed.Input

/-!
## The position of the pointer

Where the batches that reach the pointer device leave the pointer, and where the batches that were submitted
would have left it. Both kinds of motion are coalesced alike: the later batch takes the place of the earlier one.
-/

namespace AnboxReboxed.Input

open AnboxReboxed.Lib

@[ext] structure Position where
  x : Int := 0
  y : Int := 0
  deriving DecidableEq

namespace Position

/-- `EV_ABS` sets a coordinate, and `EV_REL` adds to it. -/
def apply (p : Position) (event : Event) : Position :=
  if event.type = EV_ABS then
    if event.code = ABS_X then { p with x := event.value.toInt }
    else if event.code = ABS_Y then { p with y := event.value.toInt }
    else p
  else if event.type = EV_REL then
    if event.code = REL_X then { p with x := p.x + event.value.toInt }
    else if event.code = REL_Y then { p with y := p.y + event.value.toInt }
    else p
  else p

def move (p : Position) (batch : EventBatch) : Position := batch.events.foldl apply p

end Position

/-- The batches that coalescing does not cross. -/
def isBoundary (batch : EventBatch) : Bool := batch.kind ≠ .Motion

namespace Dispatcher

/-- No batch has been dropped or rejected. -/
structure NothingLost (s : Dispatcher) : Prop where
  dropped : s.diagnostics_.dropped = 0
  delivered : s.transport_failed_ = false
  accepted : ∀ call ∈ s.calls, call.2.accepted = true

/-- What is delivered and what is pending leaves the pointer where all submitted batches leave it, at the end and
at every boundary. -/
def InPlace (start : Position) (s : Dispatcher) : Prop :=
  Follows Position.move isBoundary start (s.delivered ++ s.pending) s.enqueued

/-- The pointer is where it should be at every boundary that has been delivered, and when nothing is pending. -/
structure PositionKept (start : Position) (s : Dispatcher) : Prop where
  boundary : ∀ before batch after, s.delivered = before ++ batch :: after → isBoundary batch = true →
    ∃ before' after', s.enqueued = before' ++ batch :: after' ∧
      before'.filter isBoundary = before.filter isBoundary ∧
      before'.foldl Position.move start = before.foldl Position.move start
  drained : s.pending = [] → s.enqueued.foldl Position.move start = s.delivered.foldl Position.move start

end Dispatcher

namespace Pipeline

/-- A motion that takes the place of a pending one leads where both would have led. -/
def Harmless (start : Position) (s : Pipeline) : PipelineOp → Prop
  | .call c _ _ => ∀ batch ∈ s.producers.submits c, ∀ old ∈ coalesces s.dispatcher.queue_ batch,
      let p := (s.dispatcher.delivered ++ s.dispatcher.pending).dropLast.foldl Position.move start
      (p.move old).move batch = p.move batch
  | _ => True

end Pipeline

end AnboxReboxed.Input
