import AnboxReboxed.Lib.CondVar
import AnboxReboxed.Lib.Machine
import Mathlib.Logic.Function.Basic

/-!
# Shutting a `BufferedIOStream` down

The writer thread, any number of committing threads and `forceStop` around `out_queue_`. The writer and
the committers test and wait under `out_lock_`, `forceStop` closes the queue under `lock_`, so that its
steps fall between theirs. A step is one access to a lock, a test of `count_` or `closed_`, an update, a
`wait` or a notification; of the queue only these numbers matter here. Other users of the two locks
touch nothing of this.
-/

namespace AnboxReboxed.Graphics

open AnboxReboxed.Lib

abbrev CommitterId := Nat

/-- Where `thread_main` is. -/
inductive WriterPlace where
  /-- At `unique_lock l(out_lock_)`. -/
  | unlocked
  /-- `while (count_ == 0)` of `pop_locked`. -/
  | testEmpty
  /-- `if (closed_)` of `pop_locked`. -/
  | testClosed
  /-- At `can_pop_.wait(lock)`, still awake. -/
  | wait
  /-- In `can_pop_.wait(lock)`. -/
  | waiting
  /-- `if (count_ == 0)` of `try_pop_locked`. -/
  | tryPop
  /-- `if (count_-- == capacity_)`. -/
  | take
  /-- `can_push_.notify_one()`. -/
  | notify
  /-- Writing to the socket, with the lock. -/
  | send
  /-- The result was `-EIO`. -/
  | leave
  | finished
  deriving DecidableEq

/-- Where a call of `commitBuffer` is. -/
inductive CommitPlace where
  /-- At `unique_lock l(out_lock_)`. -/
  | unlocked
  /-- `while (count_ == capacity_)` of `push_locked`. -/
  | testFull
  /-- `if (closed_)` of `push_locked`. -/
  | testClosed
  /-- At `can_push_.wait(lock)`, still awake. -/
  | wait
  /-- In `can_push_.wait(lock)`. -/
  | waiting
  /-- `if (closed_)` of `try_push_locked`. -/
  | tryClosed
  /-- `if (count_ >= capacity_)`. -/
  | tryFull
  /-- `if (count_++ == 0)`. -/
  | store
  /-- `can_pop_.notify_one()`. -/
  | notify
  /-- Before the lock is released. -/
  | leave
  deriving DecidableEq

/-- Where `forceStop` is. -/
inductive StopPlace where
  /-- At `lock_guard l(lock_)`. -/
  | unlocked
  /-- `closed_ = true` of `close_locked`. -/
  | close
  /-- `if (count_ == capacity_)`. -/
  | testFull
  /-- `can_push_.notify_all()`. -/
  | notifyPush
  /-- `if (count_ == 0)`. -/
  | testEmpty
  /-- `can_pop_.notify_all()`. -/
  | notifyPop
  /-- Before the lock is released. -/
  | leave
  deriving DecidableEq

/-- Who holds `out_lock_`. -/
inductive OutUser where
  | writer
  | committer (t : CommitterId)
  deriving DecidableEq

structure StreamShutdown where
  capacity_ : Nat
  count_ : Nat := 0
  closed_ : Bool := false
  /-- Somebody holds `lock_`. -/
  lock_ : Bool := false
  out_lock_ : Option OutUser := none
  can_push_ : CondVar CommitterId := {}
  can_pop_ : CondVar Unit := {}
  writer : WriterPlace := .unlocked
  committers : CommitterId → CommitPlace := fun _ => .unlocked
  stopper : StopPlace := .unlocked
  /-- A call of `forceStop` has completed. -/
  stopped : Bool := false

inductive ShutdownOp where
  /-- The writer's next step; `k` chooses the thread it notifies. -/
  | write (k : Nat)
  /-- The next step of committer `t`. -/
  | commit (t : CommitterId) (k : Nat)
  /-- The next step of `forceStop`, which may be called again. -/
  | stop
  /-- Somebody else takes `lock_`. -/
  | useLock
  | dropLock
  /-- A committer wakes up without a notification. -/
  | wakePush (k : Nat)
  | wakePop (k : Nat)

namespace StreamShutdown

def write (s : StreamShutdown) (k : Nat) : Option StreamShutdown :=
  match s.writer with
  | .unlocked =>
    if s.out_lock_ = none then some { s with out_lock_ := some .writer, writer := .testEmpty } else none
  | .testEmpty => some { s with writer := if s.count_ = 0 then .testClosed else .tryPop }
  | .testClosed => some { s with writer := if s.closed_ then .leave else .wait }
  | .wait => some { s with out_lock_ := none, can_pop_ := s.can_pop_.wait (), writer := .waiting }
  | .waiting =>
    if s.out_lock_ = none then
      (s.can_pop_.resume k).map fun (_, can_pop_) =>
        { s with can_pop_, out_lock_ := some .writer, writer := .testEmpty }
    else none
  | .tryPop =>
    some { s with writer := if s.count_ = 0 then (if s.closed_ then .leave else .send) else .take }
  | .take =>
    some { s with
      count_ := s.count_ - 1
      writer := if s.count_ = s.capacity_ then .notify else .send }
  | .notify => some { s with can_push_ := s.can_push_.notify_one k, writer := .send }
  | .send => some { s with out_lock_ := none, writer := .unlocked }
  | .leave => some { s with out_lock_ := none, writer := .finished }
  | .finished => none

/-- Committer `t` goes on at `pc`. -/
def at_ (s : StreamShutdown) (t : CommitterId) (pc : CommitPlace) : StreamShutdown :=
  { s with committers := Function.update s.committers t pc }

def commit (s : StreamShutdown) (t : CommitterId) (k : Nat) : Option StreamShutdown :=
  match s.committers t with
  | .unlocked =>
    if s.out_lock_ = none then some { s.at_ t .testFull with out_lock_ := some (.committer t) } else none
  | .testFull => some (s.at_ t (if s.count_ = s.capacity_ then .testClosed else .tryClosed))
  | .testClosed => some (s.at_ t (if s.closed_ then .leave else .wait))
  | .wait => some { s.at_ t .waiting with out_lock_ := none, can_push_ := s.can_push_.wait t }
  | .waiting =>
    if s.out_lock_ = none then
      (s.can_push_.resume k).bind fun (t', can_push_) =>
        if t' = t then some { s.at_ t .testFull with can_push_, out_lock_ := some (.committer t) } else none
    else none
  | .tryClosed => some (s.at_ t (if s.closed_ then .leave else .tryFull))
  | .tryFull => some (s.at_ t (if s.capacity_ ≤ s.count_ then .leave else .store))
  | .store => some { s.at_ t (if s.count_ = 0 then .notify else .leave) with count_ := s.count_ + 1 }
  | .notify => some { s.at_ t .leave with can_pop_ := s.can_pop_.notify_one k }
  | .leave => some { s.at_ t .unlocked with out_lock_ := none }

def stop (s : StreamShutdown) : Option StreamShutdown :=
  match s.stopper with
  | .unlocked => if s.lock_ then none else some { s with lock_ := true, stopper := .close }
  | .close => some { s with closed_ := true, stopper := .testFull }
  | .testFull => some { s with stopper := if s.count_ = s.capacity_ then .notifyPush else .testEmpty }
  | .notifyPush => some { s with can_push_ := s.can_push_.notify_all, stopper := .testEmpty }
  | .testEmpty => some { s with stopper := if s.count_ = 0 then .notifyPop else .leave }
  | .notifyPop => some { s with can_pop_ := s.can_pop_.notify_all, stopper := .leave }
  | .leave => some { s with lock_ := false, stopped := true, stopper := .unlocked }

def step (s : StreamShutdown) : ShutdownOp → Option StreamShutdown
  | .write k => s.write k
  | .commit t k => s.commit t k
  | .stop => s.stop
  | .useLock => if s.lock_ then none else some { s with lock_ := true }
  | .dropLock => if s.lock_ ∧ s.stopper = .unlocked then some { s with lock_ := false } else none
  | .wakePush k => some { s with can_push_ := s.can_push_.notify_one k }
  | .wakePop k => some { s with can_pop_ := s.can_pop_.notify_one k }

/-- The notifications of single committers that are on their way. -/
def pushNotifications (s : StreamShutdown) : Nat := if s.writer = .notify then 1 else 0

/-- Once `forceStop` has completed, nobody is asleep without a notification on its way. -/
def NoLostWakeUp (s : StreamShutdown) : Prop :=
  s.stopped = true →
    (s.can_pop_.asleep ≠ [] → ∃ t, s.committers t = .notify) ∧
    s.can_push_.asleep.length ≤ s.pushNotifications

/-- The condition on the steps of `forceStop`: it notifies nobody who has found the queue open and is
not asleep yet; and where it does not notify the committers, because the queue is not full, no more of
them are asleep than the writer is about to wake. -/
def StopReaches (s : StreamShutdown) : ShutdownOp → Prop
  | .stop =>
    match s.stopper with
    | .testFull => s.count_ = s.capacity_ ∨ s.can_push_.asleep.length ≤ s.pushNotifications
    | .notifyPush => ∀ t, s.committers t ≠ .wait
    | .notifyPop => s.writer ≠ .wait
    | _ => True
  | _ => True

end StreamShutdown

/-- A stream whose `out_queue_` has room for `capacity` buffers. -/
def shutdownMachine (capacity : Nat) : Machine StreamShutdown ShutdownOp where
  init := { capacity_ := capacity }
  step := StreamShutdown.step

end AnboxReboxed.Graphics
