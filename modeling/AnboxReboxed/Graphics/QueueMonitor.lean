import AnboxReboxed.Graphics.BufferQueue
import AnboxReboxed.Lib.CondVar
import AnboxReboxed.Lib.Machine

/-!
# `BufferQueue` under one mutex

Any number of producers, consumers and closers call the queue under one mutex. A thread that holds the
mutex runs until it returns or waits; a waiter is known by the buffer it wants to push, or to fill.
-/

namespace AnboxReboxed.Graphics

open AnboxReboxed.Lib AnboxReboxed.Common

inductive LockedCall where
  | push_locked (buffer : Buffer)
  | pop_locked (buffer : Buffer)
  | close_locked

/-- The thread that holds the mutex is inside a call, or has the result of one. -/
inductive Holder where
  | calling (call : LockedCall)
  | returned (result : QueueResult)

structure QueueMonitor where
  queue : BufferQueue
  mutex : Option Holder := none
  can_push_ : CondVar Buffer := {}
  can_pop_ : CondVar Buffer := {}

inductive MonitorOp where
  /-- A thread takes the mutex and makes a call. -/
  | lock (call : LockedCall)
  /-- The holder runs; `k` is the choice of a `notify_one` it makes. -/
  | run (k : Nat)
  | unlock
  /-- A producer that was woken takes the mutex again. -/
  | resumePush (k : Nat)
  | resumePop (k : Nat)
  /-- A producer wakes up without a notification. -/
  | wakePush (k : Nat)
  | wakePop (k : Nat)

namespace QueueMonitor

/-- One round of the loop of `push_locked`, and `try_push_locked` after it. -/
def runPush (s : QueueMonitor) (buffer : Buffer) (k : Nat) : QueueMonitor :=
  match s.queue.push_locked buffer with
  | none => { s with mutex := none, can_push_ := s.can_push_.wait buffer }
  | some (result, queue, _) =>
    { s with
      queue
      mutex := some (.returned result)
      can_pop_ := if result = .ok ∧ s.queue.count_ = 0 then s.can_pop_.notify_one k else s.can_pop_ }

def runPop (s : QueueMonitor) (buffer : Buffer) (k : Nat) : QueueMonitor :=
  match s.queue.pop_locked buffer with
  | none => { s with mutex := none, can_pop_ := s.can_pop_.wait buffer }
  | some (result, queue, _) =>
    { s with
      queue
      mutex := some (.returned result)
      can_push_ := if result = .ok ∧ s.queue.count_ = s.queue.capacity_ then s.can_push_.notify_one k
        else s.can_push_ }

def runClose (s : QueueMonitor) : QueueMonitor :=
  { s with
    queue := s.queue.close_locked
    mutex := some (.returned .ok)
    can_push_ := if s.queue.count_ = s.queue.capacity_ then s.can_push_.notify_all else s.can_push_
    can_pop_ := if s.queue.count_ = 0 then s.can_pop_.notify_all else s.can_pop_ }

def step (s : QueueMonitor) : MonitorOp → Option QueueMonitor
  | .lock call => if s.mutex.isNone then some { s with mutex := some (.calling call) } else none
  | .run k =>
    match s.mutex with
    | some (.calling (.push_locked buffer)) => some (s.runPush buffer k)
    | some (.calling (.pop_locked buffer)) => some (s.runPop buffer k)
    | some (.calling .close_locked) => some s.runClose
    | _ => none
  | .unlock =>
    match s.mutex with
    | some (.returned _) => some { s with mutex := none }
    | _ => none
  | .resumePush k =>
    if s.mutex.isNone then
      (s.can_push_.resume k).map fun (buffer, can_push_) =>
        { s with can_push_, mutex := some (.calling (.push_locked buffer)) }
    else none
  | .resumePop k =>
    if s.mutex.isNone then
      (s.can_pop_.resume k).map fun (buffer, can_pop_) =>
        { s with can_pop_, mutex := some (.calling (.pop_locked buffer)) }
    else none
  | .wakePush k => some { s with can_push_ := s.can_push_.notify_one k }
  | .wakePop k => some { s with can_pop_ := s.can_pop_.notify_one k }

/-- Nobody holds the mutex, and nobody was woken who has not resumed. -/
def Quiet (s : QueueMonitor) : Prop :=
  s.mutex = none ∧ s.can_push_.woken = [] ∧ s.can_pop_.woken = []

/-- In a quiet state only those sleep who have to wait. -/
def WakeUpsSufficient (s : QueueMonitor) : Prop :=
  s.Quiet →
    (s.can_push_.asleep ≠ [] → s.queue.count_ = s.queue.capacity_ ∧ s.queue.closed_ = false) ∧
    (s.can_pop_.asleep ≠ [] → s.queue.count_ = 0 ∧ s.queue.closed_ = false)

/-- The condition on a step: a call that notifies nobody finds nobody asleep. A push into a queue that
is not empty notifies no consumer, a pop from one that is not full no producer, and closing a queue
notifies producers only when it is full and consumers only when it is empty. -/
def LeavesNobody (s : QueueMonitor) : MonitorOp → Prop
  | .run _ =>
    match s.mutex with
    | some (.calling (.push_locked _)) =>
      s.queue.can_push_locked → s.queue.count_ ≠ 0 → s.can_pop_.asleep = []
    | some (.calling (.pop_locked _)) =>
      s.queue.can_pop_locked → s.queue.count_ ≠ s.queue.capacity_ → s.can_push_.asleep = []
    | some (.calling .close_locked) =>
      (s.queue.count_ ≠ s.queue.capacity_ → s.can_push_.asleep = []) ∧
        (s.queue.count_ ≠ 0 → s.can_pop_.asleep = [])
    | _ => True
  | _ => True

end QueueMonitor

def monitorMachine (capacity : Nat) (h : 0 < capacity) : Machine QueueMonitor MonitorOp where
  init := { queue := BufferQueue.new capacity h }
  step := QueueMonitor.step

end AnboxReboxed.Graphics
