import AnboxReboxed.Graphics.Proofs.RenderStreamsProofs
import AnboxReboxed.Lib.Machine

/-!
# `AudioSink`

Android writes audio data, and the audio device asks for it with a callback. Both go through one queue, and a call gives
up `lock_` only while it waits for the other side.
-/

namespace AnboxReboxed.Sdl

open AnboxReboxed.Lib AnboxReboxed.Common AnboxReboxed.Graphics

abbrev SDL_AudioDeviceID := UInt32

def max_queue_size : Nat := 16

structure AudioSink where
  device_id_ : SDL_AudioDeviceID
  /-- `queue_`, `read_buffer_` and `read_buffer_left_`. -/
  input : RequestStream

namespace AudioSink

theorem nothing_left : 0 ≤ (SmallVector.empty : Buffer).size := Nat.zero_le _

/-- The constructor. -/
def new : AudioSink where
  device_id_ := 0
  input := ⟨.new max_queue_size (Nat.succ_pos 15), SmallVector.empty, 0, nothing_left⟩

/-- `connect_audio`, with what `SDL_OpenAudioDevice` returns when it is called. -/
def connect_audio (s : AudioSink) (opened : SDL_AudioDeviceID) : Bool × AudioSink :=
  if 0 < s.device_id_ then (true, s) else (opened != 0, { s with device_id_ := opened })

/-- `queue_.push_locked`; `none` while the queue is full. -/
def push (s : AudioSink) (data : List UInt8) : Option AudioSink :=
  (s.input.post_data (SmallVector.ofRange data)).map fun (_, input) => { s with input }

/-- `write_data`: the sink that the push is made on, if it is. -/
def write_data (s : AudioSink) (opened : SDL_AudioDeviceID) (data : List UInt8) : Option AudioSink :=
  let (connected, s) := s.connect_audio opened
  if connected then s.push data else some s

/-- `read_data`: what it has copied to the buffer when it returns. Its loop is that of `BufferedIOStream::read`. -/
def read_data (s : AudioSink) (buffer : List UInt8) : Option (List UInt8) × AudioSink :=
  match s.input.read buffer.length with
  | (.blocked, input) => (none, { s with input })
  | (.null, input) => (some [], { s with input })
  | (.bytes dst, input) => (some dst, { s with input })

end AudioSink

/-- A callback that has returned. -/
structure Callback where
  /-- The buffer before the callback. -/
  before : List UInt8
  /-- What has been copied to its front. -/
  copied : List UInt8

def Callback.after (c : Callback) : List UInt8 := c.copied ++ c.before.drop c.copied.length

structure Playback where
  sink : AudioSink := .new
  /-- The data of a `write_data` that waits in its push. -/
  writing : Option (List UInt8) := none
  /-- The buffer of a callback that waits in its pop. -/
  requesting : Option (List UInt8) := none
  /-- The data of the calls of `write_data` that have returned. -/
  written : List UInt8 := []
  returned : List Callback := []

inductive PlaybackOp where
  /-- The device is open already, or it is opened with the number. -/
  | write_data (opened : {id : SDL_AudioDeviceID // id ≠ 0}) (data : List UInt8)
  /-- The condition variables may wake up a call for nothing. -/
  | write_wakes
  | on_data_requested (buffer : List UInt8)
  | read_wakes

namespace Playback

/-- The push has gone through, or the call waits. -/
def pushed (p : Playback) (sink : AudioSink) (data : List UInt8) : Option AudioSink → Playback
  | none => { p with sink, writing := some data }
  | some sink => { p with sink, writing := none, written := p.written ++ data }

def read (p : Playback) (buffer : List UInt8) : Playback :=
  match p.sink.read_data buffer with
  | (none, sink) => { p with sink, requesting := some buffer }
  | (some copied, sink) => { p with sink, requesting := none, returned := p.returned ++ [⟨buffer, copied⟩] }

/-- What the callbacks have copied, one after another. -/
def played (p : Playback) : List UInt8 := p.returned.flatMap Callback.copied

end Playback

/-- One call of `write_data` is made after another, and so are the callbacks, which begin when the device is open. -/
def playback : Machine Playback PlaybackOp where
  init := {}
  step p
    | .write_data opened data =>
      if p.writing = none then
        some (p.pushed (p.sink.connect_audio opened).2 data (p.sink.write_data opened data))
      else none
    | .write_wakes => p.writing.map fun data => p.pushed p.sink data (p.sink.push data)
    | .on_data_requested buffer =>
      if p.requesting = none ∧ 0 < p.sink.device_id_ then some (p.read buffer) else none
    | .read_wakes => p.requesting.map p.read

/-! ## What the playback is for -/

/-- What is left of the buffer is silent. -/
def Callback.Silent (c : Callback) : Prop :=
  c.after = c.copied ++ List.replicate (c.before.length - c.copied.length) 0

/-- The audio that has been played is the first of what was written, and nothing else is heard. -/
structure Lossless (p : Playback) : Prop where
  played_prefix : p.played <+: p.written
  silent : ∀ c ∈ p.returned, c.Silent

/-- The buffer is silent behind the audio that there is. When there is none, the callback waits. -/
def AudioSink.Covers (s : AudioSink) (buffer : List UInt8) : Prop :=
  s.input.available = [] ∨ ∀ b ∈ buffer.drop s.input.available.length, b = 0

/-- A callback that goes on does so with a buffer that is covered. -/
def Playback.Covered (p : Playback) : PlaybackOp → Prop
  | .write_data .. | .write_wakes => True
  | .on_data_requested buffer => p.requesting = none ∧ 0 < p.sink.device_id_ → p.sink.Covers buffer
  | .read_wakes => ∀ buffer ∈ p.requesting, p.sink.Covers buffer

end AnboxReboxed.Sdl
