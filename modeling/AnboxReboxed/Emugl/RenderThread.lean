import AnboxReboxed.Graphics.RenderStreams
import AnboxReboxed.Lib.Machine
import Mathlib.Tactic.Linarith

/-!
# `ReadBuffer`

The growing buffer from which the render thread decodes. `getData` compacts it, doubles it when it is
full and reads from the stream; here it is cut at the call of `read`, which may wait.
-/

namespace AnboxReboxed.Emugl

/-- `m_size - m_validData` in `size_t`. -/
def freeBytes (m_size m_validData : Nat) : Nat :=
  if m_validData ≤ m_size then m_size - m_validData else 2 ^ 64 + m_size - m_validData

/-- The memory at `m_buf` is a function of the offset, `m_readPtr` an offset into it. -/
structure ReadBuffer where
  m_buf : Nat → UInt8
  m_readPtr : Nat
  m_size : Nat
  m_validData : Nat

namespace ReadBuffer

/-- The constructor; `memory` is what `malloc` returns. -/
def new (bufsize : Nat) (memory : Nat → UInt8) : ReadBuffer := ⟨memory, 0, bufsize, 0⟩

/-- `buf()`. -/
def buf (r : ReadBuffer) (i : Nat) : UInt8 := r.m_buf (r.m_readPtr + i)

/-- The first `n` bytes from the read pointer on. -/
def front (r : ReadBuffer) (n : Nat) : List UInt8 := (List.range n).map r.buf

/-- The `memmove` of `getData`. -/
def compact (r : ReadBuffer) : ReadBuffer :=
  if 0 < r.m_validData ∧ 0 < r.m_readPtr then
    { r with m_buf := fun i => if i < r.m_validData then r.buf i else r.m_buf i }
  else r

/-- Twice the size, or `INT_MAX` when that overflows. -/
def grownSize (m_size : Nat) : Nat :=
  let new_size := m_size * 2 % 2 ^ 64
  if new_size < m_size then 2 ^ 31 - 1 else new_size

/-- `getData` up to the call of `read`: the buffer and the number of bytes to ask for. `none` when
`realloc` fails. -/
def prepare (r : ReadBuffer) (realloc_ok : Bool) : Option (ReadBuffer × Nat) :=
  let r := r.compact
  if freeBytes r.m_size r.m_validData = 0 then
    if realloc_ok then
      let m_size := grownSize r.m_size
      some ({ r with m_size, m_readPtr := 0 }, freeBytes m_size r.m_validData)
    else none
  else some ({ r with m_readPtr := 0 }, freeBytes r.m_size r.m_validData)

/-- `read` has stored `data` after the valid bytes. -/
def receive (r : ReadBuffer) (data : List UInt8) : ReadBuffer :=
  { r with
    m_buf := fun i => if r.m_validData ≤ i then data.getD (i - r.m_validData) (r.m_buf i) else r.m_buf i
    m_validData := r.m_validData + data.length }

/-- What `getData` returns for `len` bytes: a `size_t` converted to `int`. -/
def stat (len : Nat) : Int := (BitVec.ofNat 32 len).toInt

/-- `consume`. -/
def consume (r : ReadBuffer) (amount : Nat) : ReadBuffer :=
  { r with m_validData := r.m_validData - amount, m_readPtr := r.m_readPtr + amount }

end ReadBuffer

end AnboxReboxed.Emugl

/-!
## `RenderThread::main`

The render thread reads from its stream and hands every complete packet to the decoders, while the
socket thread posts buffers and `forceStop` may come at any time. The generated decoders are
parameters.
-/

namespace AnboxReboxed.Emugl

open AnboxReboxed.Lib AnboxReboxed.Graphics

/-- `readProtocolU32`: the bytes of the word in the order of the host, least significant first. -/
def readProtocolU32 (buffer : Nat → UInt8) (word : Nat) : Nat :=
  (buffer (4 * word)).toNat + 2 ^ 8 * (buffer (4 * word + 1)).toNat +
    2 ^ 16 * (buffer (4 * word + 2)).toNat + 2 ^ 24 * (buffer (4 * word + 3)).toNat

def kRcGetHostExtensionsString : Nat := 10069
def kApi35RcSetPuid : Nat := 10033
def kApi35RcFlushWindowColorBufferAsync : Nat := 10031
def kApi35RcSetDisplayColorBuffer : Nat := 10040
def kApi35RcGetDisplayColorBuffer : Nat := 10041
def kApi35RcCreateDisplayById : Nat := 10062
def kApi35RcSetDisplayPoseDpi : Nat := 10063
def kApi35RcCreateColorBufferDma : Nat := 10035
def kRcBindTexture : Nat := 10020

/-- The packets that the compatibility decoder takes. -/
def handlesModern (opcode packet_length : Nat) : Bool :=
  opcode == kApi35RcSetPuid && packet_length == 16 ||
  opcode == kApi35RcFlushWindowColorBufferAsync && packet_length == 12 ||
  opcode == kApi35RcCreateDisplayById && packet_length == 12 ||
  opcode == kApi35RcSetDisplayColorBuffer && packet_length == 16 ||
  opcode == kApi35RcGetDisplayColorBuffer && packet_length == 16 ||
  opcode == kApi35RcSetDisplayPoseDpi && packet_length == 32 ||
  opcode == kApi35RcCreateColorBufferDma && packet_length == 24 ||
  opcode == kRcBindTexture && packet_length == 12 ||
  opcode == kRcGetHostExtensionsString

/-- What the decoders do to the renderer, the responses and themselves, all of it a `δ`. A generated
decoder sees one packet and returns how much of it it took. -/
structure Decoders (δ : Type) where
  /-- The effect of `decodeModernRenderControlCompatibility`, which reads at fixed offsets. -/
  modern : δ → (Nat → UInt8) → δ
  m_glDec : δ → List UInt8 → Nat × δ
  m_gl2Dec : δ → List UInt8 → Nat × δ
  m_rcDec : δ → List UInt8 → Nat × δ

namespace Decoders

variable {δ : Type} (D : Decoders δ)

/-- `decodeModernRenderControlCompatibility`. -/
def decodeModernRenderControlCompatibility (d : δ) (buffer : Nat → UInt8) (length : Nat) : Nat × δ :=
  if length < 8 then (0, d)
  else
    let opcode := readProtocolU32 buffer 0
    let packet_length := readProtocolU32 buffer 1
    if packet_length < 8 ∨ length < packet_length then (0, d)
    else if handlesModern opcode packet_length then (packet_length, D.modern d buffer)
    else (0, d)

/-- The decoders in turn, until one takes the packet. -/
def decode (d : δ) (r : ReadBuffer) (packet_size : Nat) : Nat × δ :=
  let (last, d) := D.decodeModernRenderControlCompatibility d r.buf packet_size
  if 0 < last then (last, d)
  else
    let (last, d) := D.m_glDec d (r.front packet_size)
    if 0 < last then (last, d)
    else
      let (last, d) := D.m_gl2Dec d (r.front packet_size)
      if 0 < last then (last, d)
      else D.m_rcDec d (r.front packet_size)

end Decoders

/-- Where `main` is. -/
inductive RenderPc where
  /-- At the top of the outer loop. -/
  | fetching
  /-- In `read`, called for `len` bytes. -/
  | reading (len : Nat)
  /-- At the top of the inner loop. -/
  | decoding
  /-- The outer loop is left. -/
  | finished

/-- The render thread and its stream. The last three fields record the history: the bytes that
`in_queue_` accepted, the bytes `read` delivered and the packets handed to the decoders. -/
structure Transport (δ : Type) where
  m_stream : RequestStream
  readBuf : ReadBuffer
  pc : RenderPc
  dec : δ
  queued : List UInt8 := []
  delivered : List UInt8 := []
  handed : List (List UInt8) := []

inductive TransportOp where
  | post_data (data : Buffer)
  | forceStop
  /-- The render thread goes on; `realloc_ok` tells whether a `realloc` succeeds. -/
  | thread (realloc_ok : Bool)

/-- The bytes that a run posts. -/
def TransportOp.postedBytes : List TransportOp → List UInt8
  | [] => []
  | .post_data data :: ops => data.data ++ postedBytes ops
  | _ :: ops => postedBytes ops

/-- `STREAM_BUFFER_SIZE`. -/
def streamBufferSize : Nat := 4 * 1024 * 1024

namespace Transport

variable {δ : Type} (D : Decoders δ)

/-- One round of the inner loop. -/
def decodeRound (s : Transport δ) : Transport δ :=
  if s.readBuf.m_validData < 8 then { s with pc := .fetching }
  else
    let packet_size := readProtocolU32 s.readBuf.buf 1
    if packet_size < 8 ∨ s.readBuf.m_validData < packet_size then { s with pc := .fetching }
    else
      let (last, dec) := D.decode s.dec s.readBuf packet_size
      let handed := s.handed ++ [s.readBuf.front packet_size]
      if 0 < last then { s with dec, handed, readBuf := s.readBuf.consume last }
      else { s with dec, handed, pc := .fetching }

/-- `getData` up to its call of `read`. -/
def fetchRound (s : Transport δ) (realloc_ok : Bool) : Transport δ :=
  match s.readBuf.prepare realloc_ok with
  | some (readBuf, len) => { s with readBuf, pc := .reading len }
  | none => { s with pc := .finished }

/-- `read` returns, or goes on waiting. -/
def readRound (s : Transport δ) (len : Nat) : Transport δ :=
  match s.m_stream.read len with
  | (.blocked, m_stream) => { s with m_stream }
  | (.null, m_stream) => { s with m_stream, pc := .finished }
  | (.bytes data, m_stream) =>
    { s with
      m_stream
      readBuf := s.readBuf.receive data
      delivered := s.delivered ++ data
      pc := if ReadBuffer.stat data.length ≤ 0 then .finished else .decoding }

/-- One step of the render thread. -/
def threadStep (s : Transport δ) (realloc_ok : Bool) : Option (Transport δ) :=
  match s.pc with
  | .fetching => some (s.fetchRound realloc_ok)
  | .reading len => some (s.readRound len)
  | .decoding => some (s.decodeRound D)
  | .finished => none

def step (s : Transport δ) : TransportOp → Option (Transport δ)
  | .post_data data => (s.m_stream.post_data data).map fun (result, m_stream) =>
      { s with m_stream, queued := if result = .ok then s.queued ++ data.data else s.queued }
  | .forceStop => some { s with m_stream := s.m_stream.forceStop }
  | .thread realloc_ok => s.threadStep D realloc_ok

end Transport

/-- A render thread at the start of `main`, over a fresh stream. -/
def transportMachine {δ : Type} (D : Decoders δ) (d : δ) (memory : Nat → UInt8) :
    Machine (Transport δ) TransportOp where
  init :=
    { m_stream := .new, readBuf := .new streamBufferSize memory, pc := .fetching, dec := d }
  step := Transport.step D

/-!
## What is at the head of the read buffer

The render thread leaves its inner loop in the same way when a packet is not complete, when no decoder takes it and when
its header cannot be right. Then it reads more, and what is at the head stays there.
-/

section

open AnboxReboxed.Lib

/-- What is left over is the start of one packet. -/
def ReadBuffer.Pending (r : ReadBuffer) : Prop :=
  r.m_validData < 8 ∨ 8 ≤ readProtocolU32 r.buf 1 ∧ r.m_validData < readProtocolU32 r.buf 1

variable {δ : Type} (D : Decoders δ)

/-- A decoder takes the packet. They are asked in turn, and those that do not take it may still change something. -/
def Decoders.Takes (d : δ) (packet : List UInt8) : Prop :=
  handlesModern (readProtocolU32 (fun i => packet.getD i 0) 0) packet.length = true ∨
  (D.m_glDec d packet).1 ≠ 0 ∨
  (D.m_gl2Dec (D.m_glDec d packet).2 packet).1 ≠ 0 ∨
  (D.m_rcDec (D.m_gl2Dec (D.m_glDec d packet).2 packet).2 packet).1 ≠ 0

namespace Transport

/-- The thread is in `getData`, or about to call it. -/
def Waits (s : Transport δ) : Prop := s.pc = .fetching ∨ ∃ len, s.pc = .reading len

/-- More is read only to complete a packet. -/
def NothingStuck (s : Transport δ) : Prop := s.Waits → s.readBuf.Pending

/-- A header announces its own length at least, and a complete packet is taken. -/
def Decodable (s : Transport δ) : TransportOp → Prop
  | .thread _ =>
    s.pc = .decoding → 8 ≤ s.readBuf.m_validData →
      8 ≤ readProtocolU32 s.readBuf.buf 1 ∧
      (readProtocolU32 s.readBuf.buf 1 ≤ s.readBuf.m_validData →
        D.Takes s.dec (s.readBuf.front (readProtocolU32 s.readBuf.buf 1)))
  | _ => True

/-- The buffer holds less than twice the longest packet. -/
def Small (s : Transport δ) : Prop := s.readBuf.m_validData ≤ s.readBuf.m_size ∧ s.readBuf.m_size < 2 ^ 33

end Transport

end

end AnboxReboxed.Emugl
