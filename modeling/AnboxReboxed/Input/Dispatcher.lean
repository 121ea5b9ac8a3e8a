import AnboxReboxed.Input.Device
import AnboxReboxed.Lib.Machine

/-!
# `Dispatcher`

The queue between the producers of input and the two uinput devices. `submit` is called from any thread and runs
under the mutex, except for its clock; the worker releases the mutex while it reads the clock, while it delivers a
batch and while it calls the failure handler, so each of these is a step of its own.

The counters of `Diagnostics` are numbers here. `next_sequence_` has the 64 bits of the source.
-/

namespace AnboxReboxed.Input

open AnboxReboxed.Lib

/-- The two sizes, as the constructor of `Dispatcher` leaves them. -/
structure Limits where
  capacity_ : Nat
  release_reserve_ : Nat
  capacity_pos : 1 ≤ capacity_
  reserve_le : release_reserve_ ≤ capacity_

def Limits.ofArguments (capacity release_reserve : Nat) : Limits where
  capacity_ := max 1 capacity
  release_reserve_ := min release_reserve (max 1 capacity)
  capacity_pos := Nat.le_max_left _ _
  reserve_le := Nat.min_le_right _ _

structure Diagnostics where
  submitted : Nat := 0
  delivered : Nat := 0
  dropped : Nat := 0
  coalesced : Nat := 0
  transport_failures : Nat := 0
  maximum_depth : Nat := 0
  maximum_latency_us : UInt64 := 0
  deriving DecidableEq

/-- Where the worker is in `run`. -/
inductive Worker where
  | waiting
  /-- It has taken a batch and has not yet looked at its age. -/
  | popped (batch : EventBatch)
  | delivering (batch : EventBatch)
  /-- It calls the failure handler. -/
  | handling
  | exited
  deriving DecidableEq

/-- The batch that the worker has taken from the queue. -/
def Worker.batch : Worker → List EventBatch
  | .popped b => [b]
  | .delivering b => [b]
  | _ => []

/-- How `submit` ended. -/
inductive Outcome where
  /-- The batch has no events. -/
  | empty
  /-- The dispatcher is stopping or its transport has failed. -/
  | closed
  /-- It takes the place of `old`, the last batch of the queue. -/
  | coalesced (old : EventBatch)
  | queued
  /-- There is no room. -/
  | full
  deriving DecidableEq

/-- What `submit` returns. -/
def Outcome.accepted : Outcome → Bool
  | .empty => true
  | .closed => false
  | .coalesced _ => true
  | .queued => true
  | .full => false

/-- The batch has been put into the queue. -/
def Outcome.enqueued : Outcome → Bool
  | .empty => false
  | .closed => false
  | .coalesced _ => true
  | .queued => true
  | .full => false

structure Dispatcher where
  queue_ : List EventBatch := []
  /-- `delivering_` is set when the worker has a batch. -/
  worker : Worker := .waiting
  stopping_ : Bool := false
  transport_failed_ : Bool := false
  next_sequence_ : UInt64 := 0
  diagnostics_ : Diagnostics := {}
  /-- Whether a handler is set. -/
  transport_failure_handler_ : Bool := false
  /-- All calls of `submit`, with the batch as it was when the call ended. -/
  calls : List (EventBatch × Outcome) := []
  /-- The batches given to a device, and whether they were delivered. -/
  log : List (EventBatch × Bool) := []
  deriving DecidableEq

inductive DispatcherOp where
  /-- `now` and `enqueued` are the values of the clock that the call reads. -/
  | submit (batch : EventBatch) (now enqueued : UInt64)
  | pop
  | check (now : UInt64)
  | finish (delivered : Bool) (now : UInt64)
  | handler_returned
  | worker_exit
  | set_transport_failure_handler (handler : Bool)
  /-- `~Dispatcher`, up to the join. -/
  | stop
  deriving DecidableEq

def is_release (batch : EventBatch) : Bool :=
  batch.kind = .ForcedRelease || batch.events.any fun event => event.type = EV_KEY && event.value = 0

/-- A batch that may give way to another one. -/
def droppable (batch : EventBatch) : Bool := batch.kind = .Motion || batch.kind = .Repeat

def Limits.normal_limit (l : Limits) : Nat := l.capacity_ - l.release_reserve_

def Limits.limit (l : Limits) (incoming : EventBatch) : Nat :=
  if is_release incoming then l.capacity_ else l.normal_limit

/-- The last batch of the queue, when `batch` replaces it. -/
def coalesces (queue : List EventBatch) (batch : EventBatch) : Option EventBatch :=
  queue.getLast?.filter fun last => batch.kind = .Motion && last.kind = .Motion && last.stream = batch.stream

/-- A state that is too old to be replayed. -/
def stale_state (batch : EventBatch) (now : UInt64) : Bool :=
  (now - batch.source_time_ns) / 1000 > 100000 &&
    (batch.kind = .Motion || batch.kind = .Wheel || batch.kind = .Repeat)

namespace Dispatcher

def make_room_locked (l : Limits) (s : Dispatcher) (incoming : EventBatch) : Dispatcher × Bool :=
  if s.queue_.length < l.limit incoming then (s, true)
  else if s.queue_.any droppable then
    ({ s with
      queue_ := s.queue_.eraseP droppable
      diagnostics_ := { s.diagnostics_ with dropped := s.diagnostics_.dropped + 1 } }, true)
  else (s, false)

/-- `s` with one more call of `submit`. -/
def called (s : Dispatcher) (batch : EventBatch) (outcome : Outcome) : Dispatcher :=
  { s with calls := s.calls ++ [(batch, outcome)] }

/-- The batch with the times that `submit` gives it. -/
def stamped (batch : EventBatch) (now enqueued : UInt64) : EventBatch :=
  { batch with
    source_time_ns := if batch.source_time_ns = 0 then now else batch.source_time_ns
    enqueue_time_ns := enqueued }

/-- A new transport sequence number is taken. -/
def numbered (s : Dispatcher) : Dispatcher :=
  { s with
    next_sequence_ := s.next_sequence_ + 1
    diagnostics_ := { s.diagnostics_ with submitted := s.diagnostics_.submitted + 1 } }

def push_back (s : Dispatcher) (batch : EventBatch) : Dispatcher :=
  { s with
    queue_ := s.queue_ ++ [batch]
    diagnostics_ :=
      { s.diagnostics_ with maximum_depth := max s.diagnostics_.maximum_depth (s.queue_.length + 1) } }

def submit (l : Limits) (s : Dispatcher) (batch : EventBatch) (now enqueued : UInt64) : Dispatcher × Bool :=
  if batch.events = [] then (s.called batch .empty, true)
  else
    let batch := stamped batch now enqueued
    if s.stopping_ || s.transport_failed_ then (s.called batch .closed, false)
    else
      let s := s.numbered
      let batch := { batch with transport_sequence := s.next_sequence_ }
      match coalesces s.queue_ batch with
      | some old =>
        ({ s with
          queue_ := s.queue_.dropLast ++ [batch]
          diagnostics_ := { s.diagnostics_ with coalesced := s.diagnostics_.coalesced + 1 } }.called batch
            (.coalesced old), true)
      | none =>
        match make_room_locked l s batch with
        | (s, false) =>
          ({ s with
            diagnostics_ := { s.diagnostics_ with dropped := s.diagnostics_.dropped + 1 } }.called batch .full, false)
        | (s, true) => ((s.push_back batch).called batch .queued, true)

/-- The worker finds the queue not empty. -/
def pop (s : Dispatcher) : Option Dispatcher :=
  match s.worker, s.queue_ with
  | .waiting, b :: queue => some { s with queue_ := queue, worker := .popped b }
  | _, _ => none

def check (s : Dispatcher) (now : UInt64) : Option Dispatcher :=
  match s.worker with
  | .popped b =>
    if stale_state b now then
      some
        { s with
          worker := .waiting
          diagnostics_ := { s.diagnostics_ with dropped := s.diagnostics_.dropped + 1 } }
    else some { s with worker := .delivering b }
  | _ => none

/-- `deliver_events` has returned. -/
def finish (s : Dispatcher) (delivered : Bool) (now : UInt64) : Option Dispatcher :=
  match s.worker with
  | .delivering b =>
    if delivered then
      some
        { s with
          worker := .waiting
          log := s.log ++ [(b, true)]
          diagnostics_ :=
            { s.diagnostics_ with
              delivered := s.diagnostics_.delivered + 1
              maximum_latency_us := max s.diagnostics_.maximum_latency_us ((now - b.source_time_ns) / 1000) } }
    else
      some
        { s with
          worker := if s.transport_failure_handler_ then .handling else .waiting
          transport_failed_ := true
          queue_ := []
          log := s.log ++ [(b, false)]
          diagnostics_ :=
            { s.diagnostics_ with
              transport_failures := s.diagnostics_.transport_failures + 1
              dropped := s.diagnostics_.dropped + s.queue_.length } }
  | _ => none

def step (l : Limits) (s : Dispatcher) : DispatcherOp → Option Dispatcher
  | .submit batch now enqueued => some (s.submit l batch now enqueued).1
  | .pop => s.pop
  | .check now => s.check now
  | .finish delivered now => s.finish delivered now
  | .handler_returned => if s.worker = .handling then some { s with worker := .waiting } else none
  | .worker_exit =>
    if s.worker = .waiting ∧ s.queue_ = [] ∧ s.stopping_ then some { s with worker := .exited } else none
  | .set_transport_failure_handler handler => some { s with transport_failure_handler_ := handler }
  | .stop => some { s with stopping_ := true }

/-! ## The laws of the queue -/

/-- The batches for which `submit` returned true. -/
def accepted (s : Dispatcher) : List EventBatch := (s.calls.filter fun call => call.2.accepted).map Prod.fst

/-- The batches that were put into the queue. -/
def enqueued (s : Dispatcher) : List EventBatch := (s.calls.filter fun call => call.2.enqueued).map Prod.fst

def delivered (s : Dispatcher) : List EventBatch := (s.log.filter fun entry => entry.2).map Prod.fst

/-- The batches on their way to a device, the one that the worker has first. -/
def pending (s : Dispatcher) : List EventBatch := s.worker.batch ++ s.queue_

end Dispatcher

/-- Key and button transitions that are never given up. -/
def kept (batch : EventBatch) : Bool :=
  (batch.kind = .Key || batch.kind = .Button || batch.kind = .ForcedRelease) && batch.events ≠ []

namespace Dispatcher

structure QueueLaws (l : Limits) (s : Dispatcher) : Prop where
  bounded : s.queue_.length ≤ l.capacity_
  accounting : s.diagnostics_.submitted =
    s.diagnostics_.delivered + s.diagnostics_.dropped + s.diagnostics_.coalesced +
      s.diagnostics_.transport_failures + s.queue_.length + s.worker.batch.length
  increasing : s.diagnostics_.submitted < 2 ^ 64 →
    s.delivered.Pairwise fun a b => a.transport_sequence < b.transport_sequence
  in_order : s.transport_failed_ = false → (s.delivered ++ s.pending).filter kept = s.accepted.filter kept
  in_order_failed : (s.delivered ++ s.pending).filter kept <+: s.accepted.filter kept
  replaced : ∀ old new, (new, .coalesced old) ∈ s.calls →
    old.kind = .Motion ∧ new.kind = .Motion ∧ old.stream = new.stream ∧
      ∃ before after, s.enqueued = before ++ old :: new :: after
  failed_last : Justified (fun earlier _ => ∀ entry ∈ earlier, entry.2 = true) s.log
  exited_empty : s.worker = .exited → s.queue_ = []

end Dispatcher

def dispatcherMachine (l : Limits) : Machine Dispatcher DispatcherOp where
  init := {}
  step := Dispatcher.step l

/-- Left alone, and with deliveries that succeed, the worker delivers all that must be kept. -/
def Dispatcher.Drains (l : Limits) (s : Dispatcher) : Prop :=
  ∀ now, ∃ is s', (∀ op ∈ is, op = .pop ∨ op = .check now ∨ op = .finish true now) ∧
    (dispatcherMachine l).exec s is = some s' ∧ s'.delivered.filter kept = s.accepted.filter kept

end AnboxReboxed.Input
