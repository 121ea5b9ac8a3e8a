import AnboxReboxed.Graphics.BufferQueue
import AnboxReboxed.Lib.Machine

/-!
# The request half of `BufferedIOStream`

The socket thread posts buffers, the render thread reads them. All of it runs under `lock_`, which a
reader gives up only while it waits for a buffer.
-/

namespace AnboxReboxed.Graphics

open AnboxReboxed.Common

/-- The part of `BufferedIOStream` that `read` and `post_data` use. -/
structure RequestStream where
  in_queue_ : BufferQueue
  read_buffer_ : Buffer
  read_buffer_left_ : Nat
  left_le : read_buffer_left_ ≤ read_buffer_.size

/-- How a call of `read` ends, or that it waits. -/
inductive ReadResult where
  | blocked
  | null
  | bytes (data : List UInt8)

namespace RequestStream

/-- The constructor. -/
def new : RequestStream := ⟨.new 1024 (by decide), SmallVector.empty, 0, Nat.zero_le _⟩

/-- `post_data`: whether the queue took the buffer. `none` while the queue is full. -/
def post_data (s : RequestStream) (data : Buffer) : Option (QueueResult × RequestStream) :=
  (s.in_queue_.push_locked data).map fun (result, in_queue_, _) => (result, { s with in_queue_ })

/-- `forceStop`, as far as the request half is concerned. -/
def forceStop (s : RequestStream) : RequestStream :=
  { s with in_queue_ := s.in_queue_.close_locked }

/-- The bytes of `read_buffer_` not delivered yet. -/
def unread (s : RequestStream) : List UInt8 :=
  s.read_buffer_.data.drop (s.read_buffer_.size - s.read_buffer_left_)

/-- `read_buffer_` was filled by a pop. -/
def refill (in_queue_ : BufferQueue) (read_buffer_ : Buffer) : RequestStream :=
  ⟨in_queue_, read_buffer_, read_buffer_.size, Nat.le_refl _⟩

/-- The loop of `read`, with `dst` the bytes copied so far. Only the first pop waits. -/
def readLoop (s : RequestStream) (wanted : Nat) (dst : List UInt8) : ReadResult × RequestStream :=
  if dst.length < wanted then
    if 0 < s.read_buffer_left_ then
      let avail := min (wanted - dst.length) s.read_buffer_left_
      readLoop
        { s with
          read_buffer_left_ := s.read_buffer_left_ - avail
          left_le := Nat.le_trans (Nat.sub_le _ _) s.left_le }
        wanted (dst ++ s.unread.take avail)
    else if dst.length = 0 then
      match _h : s.in_queue_.pop_locked s.read_buffer_ with
      | none => (.blocked, s)
      | some (.ok, in_queue_, read_buffer_) => readLoop (refill in_queue_ read_buffer_) wanted dst
      | some (_, _, _) => (.null, s)
    else
      match _h : s.in_queue_.try_pop_locked s.read_buffer_ with
      | (.ok, in_queue_, read_buffer_) => readLoop (refill in_queue_ read_buffer_) wanted dst
      | (_, _, _) => (.bytes dst, s)
  else (.bytes dst, s)
termination_by (wanted - dst.length, s.in_queue_.count_)
decreasing_by
  · -- some bytes were copied
    have hlen : (s.unread.take avail).length = avail := by
      have := s.left_le
      simp only [unread, SmallVector.size, List.length_take, List.length_drop] at *
      omega
    refine Prod.Lex.left _ _ ?_
    rw [List.length_append, hlen]
    omega
  · exact Prod.Lex.right _ (BufferQueue.count_pop_locked _h)
  · exact Prod.Lex.right _ (BufferQueue.count_try_pop_locked _h)

/-- `read`: the bytes it delivers, null, or that it waits, with what it popped so far gone. -/
def read (s : RequestStream) (wanted : Nat) : ReadResult × RequestStream := s.readLoop wanted []

end RequestStream

end AnboxReboxed.Graphics

/-!
## The response half of `BufferedIOStream`

A render thread fills `write_buffer_` and commits it; the writer thread takes the committed buffers
from `out_queue_` and sends them. The writer holds `out_lock_` from the moment it has a buffer until
it is done with it, so that `allocBuffer` and `commitBuffer` wait meanwhile. `forceStop` takes the
other lock and can come at any time.
-/

namespace AnboxReboxed.Graphics

open AnboxReboxed.Lib AnboxReboxed.Common

/-- Where `thread_main` is. -/
inductive WriterPc where
  /-- At `pop_locked`, with `out_lock_` free. -/
  | popping
  /-- In the inner loop, with `bytes_left` of `buffer` to send. -/
  | sending (buffer : List UInt8) (bytes_left : Nat)
  /-- The thread has left its loop. -/
  | stopped

/-- What `send_raw` returns. -/
inductive SendResult where
  /-- The socket accepted `n` bytes. -/
  | written (n : Nat)
  /-- `EINTR` or `EAGAIN`. -/
  | busy
  /-- Any other error. -/
  | fatal
  deriving DecidableEq, Repr

/-- The stream. The last three fields record the history: the bytes of the committed buffers in
commit order, the bytes the socket accepted, and whether a write failed for good. -/
structure ResponseStream where
  write_buffer_ : Buffer
  out_queue_ : BufferQueue
  pc : WriterPc := .popping
  committed : List UInt8 := []
  accepted : List UInt8 := []
  failed : Bool := false

inductive ResponseOp where
  /-- `memory` is what uninitialised memory happens to hold. -/
  | allocBuffer (min_size : Nat) (memory : Nat → UInt8)
  /-- The owner of the allocated buffer writes one byte. -/
  | store (i : Nat) (b : UInt8)
  | commitBuffer (size : Nat)
  | forceStop
  /-- The writer calls `pop_locked`. -/
  | pop
  /-- The writer calls `send_raw`. -/
  | send_raw (result : SendResult)

namespace ResponseStream

/-- The constructor. -/
def new (buffer_size : Nat) (memory : Nat → UInt8) : ResponseStream where
  write_buffer_ := SmallVector.empty.resize_noinit buffer_size memory
  out_queue_ := .new 16 (by decide)

/-- `out_lock_` is free. -/
def unlocked (s : ResponseStream) : Bool :=
  match s.pc with
  | .sending .. => false
  | _ => true

/-- `allocBuffer`. -/
def allocBuffer (s : ResponseStream) (min_size : Nat) (memory : Nat → UInt8) : ResponseStream :=
  if s.write_buffer_.size < min_size then
    { s with write_buffer_ := s.write_buffer_.resize_noinit min_size memory }
  else s

/-- `commitBuffer`: a heap buffer is cut to size and moved into the queue, one in place is copied.
`none` while the queue is full, and for a size that the assertion rejects. -/
def commitBuffer (s : ResponseStream) (size : Nat) : Option ResponseStream :=
  if size ≤ s.write_buffer_.size then
    let committed := s.committed ++ s.write_buffer_.data.take size
    if s.write_buffer_.isAllocated then
      (s.out_queue_.push_locked (s.write_buffer_.resize size)).map fun (_, out_queue_, write_buffer_) =>
        { s with out_queue_, write_buffer_, committed }
    else
      (s.out_queue_.push_locked (SmallVector.ofRange (s.write_buffer_.data.take size))).map
        fun (_, out_queue_, _) => { s with out_queue_, committed }
  else none

/-- The writer at the top of its loop. -/
def pop (s : ResponseStream) : Option ResponseStream :=
  match s.pc with
  | .popping =>
    (s.out_queue_.pop_locked SmallVector.empty).map fun
      | (.ok, out_queue_, buffer) =>
        { s with out_queue_,
                 pc := if buffer.size = 0 then .popping else .sending buffer.data buffer.size }
      | (_, out_queue_, _) => { s with out_queue_, pc := .stopped }
  | _ => none

/-- One round of the inner loop. A fatal error leaves it, and the writer goes on with the next buffer;
so does the writer when no bytes are left. -/
def send_raw (s : ResponseStream) (result : SendResult) : Option ResponseStream :=
  match s.pc with
  | .sending buffer bytes_left =>
    match result with
    | .written n =>
      if n ≤ bytes_left then
        some { s with
          pc := if bytes_left - n = 0 then .popping else .sending buffer (bytes_left - n)
          accepted := s.accepted ++ (buffer.drop (buffer.length - bytes_left)).take n }
      else none
    | .busy => some s
    | .fatal => some { s with pc := .popping, failed := true }
  | _ => none

def step (s : ResponseStream) : ResponseOp → Option ResponseStream
  | .allocBuffer min_size memory => if s.unlocked then some (s.allocBuffer min_size memory) else none
  | .store i b => some { s with write_buffer_ := s.write_buffer_.set i b }
  | .commitBuffer size => if s.unlocked then s.commitBuffer size else none
  | .forceStop => some { s with out_queue_ := s.out_queue_.close_locked }
  | .pop => s.pop
  | .send_raw result => s.send_raw result

end ResponseStream

/-- A fresh stream and its writer thread. -/
def responseMachine (buffer_size : Nat) (memory : Nat → UInt8) : Machine ResponseStream ResponseOp where
  init := .new buffer_size memory
  step := ResponseStream.step

end AnboxReboxed.Graphics
