import AnboxReboxed.Common.SmallVector
import AnboxReboxed.Lib.Fifo

/-!
# `BufferQueue`

A bounded queue of buffers in a ring of slots. The `_locked` functions run under the caller's lock;
those that wait have no result while they wait.
-/

namespace AnboxReboxed.Graphics

open AnboxReboxed.Lib AnboxReboxed.Common

/-- `using Buffer = SmallFixedVector<char, 512>`. -/
abbrev Buffer := SmallVector

/-- The result codes of the queue operations: `0`, `-EIO` and `-EAGAIN`. -/
inductive QueueResult where
  | ok
  | eio
  | eagain
  deriving DecidableEq, Repr

structure BufferQueue where
  capacity_ : Nat
  pos_ : Nat
  count_ : Nat
  closed_ : Bool
  buffers_ : Nat → Buffer
  pos_lt : pos_ < capacity_
  count_le : count_ ≤ capacity_

namespace BufferQueue

/-- `BufferQueue(capacity)`. -/
def new (capacity : Nat) (h : 0 < capacity) : BufferQueue :=
  ⟨capacity, 0, 0, false, fun _ => SmallVector.empty, h, Nat.zero_le _⟩

def can_push_locked (q : BufferQueue) : Bool := !q.closed_ && q.count_ < q.capacity_

def can_pop_locked (q : BufferQueue) : Bool := 0 < q.count_

/-- `try_push_locked`: the result, the queue and what is left of `buffer`. -/
def try_push_locked (q : BufferQueue) (buffer : Buffer) : QueueResult × BufferQueue × Buffer :=
  if q.closed_ then (.eio, q, buffer)
  else if h : q.capacity_ ≤ q.count_ then (.eagain, q, buffer)
  else
    let pos := wrapIndex q.capacity_ (q.pos_ + q.count_)
    let moved := (q.buffers_ pos).moveAssign buffer
    (.ok,
      { q with
        buffers_ := Function.update q.buffers_ pos moved.1
        count_ := q.count_ + 1
        count_le := Nat.not_le.mp h },
      moved.2)

/-- `push_locked`; `none` while it waits for a free slot. -/
def push_locked (q : BufferQueue) (buffer : Buffer) : Option (QueueResult × BufferQueue × Buffer) :=
  if q.count_ = q.capacity_ then
    if q.closed_ then some (.eio, q, buffer) else none
  else some (q.try_push_locked buffer)

/-- `try_pop_locked`: the result, the queue and the new value of `*buffer`. -/
def try_pop_locked (q : BufferQueue) (buffer : Buffer) : QueueResult × BufferQueue × Buffer :=
  if h : q.count_ = 0 then (if q.closed_ then .eio else .eagain, q, buffer)
  else
    let moved := buffer.moveAssign (q.buffers_ q.pos_)
    (.ok,
      { q with
        buffers_ := Function.update q.buffers_ q.pos_ moved.2
        pos_ := wrapIndex q.capacity_ (q.pos_ + 1)
        count_ := q.count_ - 1
        pos_lt := wrapIndex_lt (by have := q.pos_lt; omega)
        count_le := Nat.le_trans (Nat.sub_le _ _) q.count_le },
      moved.1)

/-- `pop_locked`; `none` while it waits for a buffer. -/
def pop_locked (q : BufferQueue) (buffer : Buffer) : Option (QueueResult × BufferQueue × Buffer) :=
  if q.count_ = 0 then
    if q.closed_ then some (.eio, q, buffer) else none
  else some (q.try_pop_locked buffer)

/-- A buffer popped is one buffer less in the queue. -/
theorem count_try_pop_locked {q q' : BufferQueue} {b b' : Buffer}
    (h : q.try_pop_locked b = (.ok, q', b')) : q'.count_ < q.count_ := by
  unfold try_pop_locked at h
  by_cases h0 : q.count_ = 0
  · rw [dif_pos h0] at h
    split_ifs at h <;> cases h
  · rw [dif_neg h0] at h
    rw [← (Prod.mk.inj (Prod.mk.inj h).2).1]
    exact Nat.sub_lt (Nat.pos_of_ne_zero h0) Nat.one_pos

theorem count_pop_locked {q q' : BufferQueue} {b b' : Buffer}
    (h : q.pop_locked b = some (.ok, q', b')) : q'.count_ < q.count_ := by
  unfold pop_locked at h
  split_ifs at h
  · cases h
  · exact count_try_pop_locked (Option.some.inj h)

/-- `close_locked`. -/
def close_locked (q : BufferQueue) : BufferQueue := { q with closed_ := true }

end BufferQueue

/-- A call that does not wait, with the buffer it is given. -/
inductive QueueCall where
  | try_push_locked (buffer : Buffer)
  | try_pop_locked (buffer : Buffer)
  | close_locked

/-- A call that was made: the queue before and after it, its result and what it left in the buffer it
was given. -/
structure QueueRecord where
  before : BufferQueue
  call : QueueCall
  result : QueueResult
  after : BufferQueue
  buffer : Buffer

namespace BufferQueue

def call (q : BufferQueue) (c : QueueCall) : QueueRecord :=
  match c with
  | .try_push_locked b =>
    let (result, after, buffer) := q.try_push_locked b
    ⟨q, c, result, after, buffer⟩
  | .try_pop_locked b =>
    let (result, after, buffer) := q.try_pop_locked b
    ⟨q, c, result, after, buffer⟩
  | .close_locked => ⟨q, c, .ok, q.close_locked, .empty⟩

/-- The queue after a sequence of calls, and their records. -/
def calls : BufferQueue → List QueueCall → BufferQueue × List QueueRecord
  | q, [] => (q, [])
  | q, c :: cs =>
    let rest := calls (q.call c).after cs
    (rest.1, q.call c :: rest.2)

end BufferQueue

end AnboxReboxed.Graphics
