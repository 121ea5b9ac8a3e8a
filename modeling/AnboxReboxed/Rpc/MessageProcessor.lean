import AnboxReboxed.Lib.Framing
import AnboxReboxed.Rpc.Protobuf

/-!
# `MessageProcessor`

`process_data` cuts what arrives on a connection into frames of a four-byte header and a message, and
hands the messages on. What it calls is a parameter: `dispatch` and `process_event_sequence` are
virtual, and the calls that are pending when a response arrives depend on the rest of the program.
-/

namespace AnboxReboxed.Rpc

open AnboxReboxed.Lib

def header_size : Nat := 4

namespace MessageType

def invocation : UInt8 := 0
def response : UInt8 := 1

end MessageType

/-- `std::numeric_limits<int>::max()`. -/
def INT_MAX : Nat := 2 ^ 31 - 1

def size_fits_protobuf_int (size : Nat) : Bool := size ≤ INT_MAX

/-- What became of `populate_message_for_result`. -/
inductive Populated where
  | parsed
  /-- `ParseFromString` refused the response. -/
  | unparsed
  /-- `pending_calls_.at` threw: there is no such call. -/
  | unknown
  deriving DecidableEq

/-- What `process_data` calls, with the state `η` it works on. -/
structure Handlers (η : Type) where
  dispatch : η → Invocation → η
  populate_message_for_result : η → Result → η × Populated
  complete_response : η → Result → η
  process_event_sequence : η → Bytes → η

inductive Call where
  | dispatch (invocation : Invocation)
  | populate_message_for_result (result : Result)
  | complete_response (result : Result)
  | process_event_sequence (event : Bytes)
  deriving DecidableEq

/-- Why `process_data` did not return `true`. -/
inductive Failure where
  | returnedFalse
  | threw
  deriving DecidableEq

/-- A frame that was taken off the buffer. -/
structure Frame where
  message_type : UInt8
  message : Bytes
  deriving DecidableEq

/-- What `process_data` has done so far: the frames it erased from `buffer_` and the calls it made. -/
structure Progress (η : Type) where
  env : η
  frames : List Frame := []
  calls : List Call := []
  failure : Option Failure := none

def message_size (high medium low : UInt8) : Nat :=
  (high.toNat <<< 16) + (medium.toNat <<< 8) + low.toNat

namespace Handlers

variable {η : Type} (P : Protobuf) (h : Handlers η)

def onInvocation (s : Progress η) (invocation : Invocation) : Progress η :=
  { s with env := h.dispatch s.env invocation, calls := s.calls ++ [.dispatch invocation] }

/-- The part of the response branch that is about the pending call. -/
def onResponse (s : Progress η) (result : Result) : Progress η :=
  if result.id.isSome then
    let (env, populated) := h.populate_message_for_result s.env result
    let s := { s with env, calls := s.calls ++ [Call.populate_message_for_result result] }
    match populated with
    | .unknown => { s with failure := some .threw }
    | .unparsed => { s with failure := some .returnedFalse }
    | .parsed =>
      { s with env := h.complete_response s.env result, calls := s.calls ++ [Call.complete_response result] }
  else s

def onEvent (s : Progress η) (event : Bytes) : Progress η :=
  { s with env := h.process_event_sequence s.env event, calls := s.calls ++ [.process_event_sequence event] }

def onResult (s : Progress η) (result : Result) : Progress η :=
  let s := h.onResponse s result
  if s.failure.isSome then s else result.events.foldl h.onEvent s

/-- A complete frame, by its type. -/
def onFrame (s : Progress η) (f : Frame) : Progress η :=
  if f.message_type = MessageType.invocation then
    match if size_fits_protobuf_int f.message.length then P.parseInvocation f.message else none with
    | none => { s with failure := some .returnedFalse }
    | some invocation => h.onInvocation s invocation
  else if f.message_type = MessageType.response then
    match if size_fits_protobuf_int f.message.length then P.parseResult f.message else none with
    | none => { s with failure := some .returnedFalse }
    | some result => h.onResult s result
  else s

/-- The body of the loop over `buffer_`. -/
def nextFrame (s : Progress η) : Bytes → Verdict (Progress η)
  | high :: medium :: low :: message_type :: rest =>
    let size := message_size high medium low
    if rest.length < size then .more
    else
      let f : Frame := ⟨message_type, rest.take size⟩
      let s := h.onFrame P s f
      if s.failure.isSome then .refused s
      else .consumed (header_size + size) { s with frames := s.frames ++ [f] }
  | _ => .more

theorem nextFrame_stable (s : Progress η) (l m : Bytes) (hl : h.nextFrame P s l ≠ .more) :
    h.nextFrame P s (l ++ m) = h.nextFrame P s l := by
  match l with
  | [] | [_] | [_, _] | [_, _, _] => exact absurd rfl hl
  | high :: medium :: low :: message_type :: rest =>
    simp only [nextFrame] at hl
    split at hl
    · exact absurd rfl hl
    · rename_i hlen
      have hle : message_size high medium low ≤ rest.length := Nat.le_of_not_lt hlen
      have hlen' : ¬(rest ++ m).length < message_size high medium low := by
        rw [List.length_append]
        omega
      simp only [List.cons_append, nextFrame, if_neg hlen, if_neg hlen', List.take_append_of_le_length hle]

theorem nextFrame_shrinks (s : Progress η) (l : Bytes) (n : Nat) (s' : Progress η)
    (hl : h.nextFrame P s l = .consumed n s') : 0 < n ∧ n ≤ l.length := by
  match l with
  | [] | [_] | [_, _] | [_, _, _] => cases hl
  | high :: medium :: low :: message_type :: rest =>
    simp only [nextFrame] at hl
    split at hl
    · cases hl
    · rename_i hlen
      split at hl
      · cases hl
      · cases hl
        simp only [header_size, List.length_cons]
        omega

/-- The decoder of a connection. -/
def framing : Framing (Progress η) UInt8 where
  next := h.nextFrame P
  stable := h.nextFrame_stable P
  shrinks := h.nextFrame_shrinks P

/-- `process_data`: the bytes go behind those in `buffer_`, and all complete frames are taken off. It
returns `true` when it waits for more; otherwise the connection is removed. -/
def process_data (d : Decoded (Progress η) UInt8) (data : Bytes) : Decoded (Progress η) UInt8 :=
  (h.framing P).feed d data

/-- A connection with an empty `buffer_`. -/
def connected (env : η) : Decoded (Progress η) UInt8 := .waiting { env } []

/-- The chunks of a connection, in turn. -/
def process_chunks (env : η) (chunks : List Bytes) : Decoded (Progress η) UInt8 :=
  chunks.foldl (h.process_data P) (connected env)

end Handlers

/-- Fewer bytes than one complete frame. -/
def Incomplete : Bytes → Prop
  | high :: medium :: low :: _ :: rest => rest.length < message_size high medium low
  | _ => True

/-- A message of the protocol. -/
inductive Message where
  | invocation (m : Invocation)
  | result (m : Result)
  deriving DecidableEq

namespace Message

def type : Message → UInt8
  | .invocation _ => MessageType.invocation
  | .result _ => MessageType.response

def serialize (P : Protobuf) : Message → Bytes
  | .invocation m => P.serializeInvocation m
  | .result m => P.serializeResult m

/-- The calls that hand the message on. -/
def calls : Message → List Call
  | .invocation m => [.dispatch m]
  | .result m =>
    (if m.id.isSome then [.populate_message_for_result m, .complete_response m] else []) ++
      m.events.map .process_event_sequence

end Message

namespace Frame

/-- The message of a frame; frames of an unknown type have none. -/
def parse (P : Protobuf) (f : Frame) : Option Message :=
  if f.message_type = MessageType.invocation then (P.parseInvocation f.message).map .invocation
  else if f.message_type = MessageType.response then (P.parseResult f.message).map .result
  else none

/-- The calls that hand the message of a frame on. -/
def calls (P : Protobuf) (f : Frame) : List Call := (f.parse P).elim [] Message.calls

/-- The type is neither `invocation` nor `response`. -/
def Unknown (f : Frame) : Prop :=
  f.message_type ≠ MessageType.invocation ∧ f.message_type ≠ MessageType.response

end Frame

/-- `header_bytes`, which holds the size in three bytes. -/
def header_bytes (size : Nat) (type : UInt8) : Bytes :=
  [(size >>> 16 &&& 0xff).toUInt8, (size >>> 8 &&& 0xff).toUInt8, (size &&& 0xff).toUInt8, type]

/-- A frame as it is sent. -/
def Frame.bytes (f : Frame) : Bytes := header_bytes f.message.length f.message_type ++ f.message

end AnboxReboxed.Rpc

/-!
## What is sent over a connection

`Channel::call_method`, `Channel::send_event` and `MessageProcessor::send_response`, up to the bytes
they hand to the `MessageSender`. Parameters, events and responses are messages of other protocols,
given by their serialization.
-/

namespace AnboxReboxed.Rpc

/-- What a sender did. -/
inductive Sent where
  /-- The bytes were handed to the `MessageSender`. -/
  | sent (bytes : Bytes)
  | threw
  /-- `send_response` returned without sending anything. -/
  | returned
  deriving DecidableEq

def Sent.bytes : Sent → Bytes
  | .sent bytes => bytes
  | _ => []

namespace Channel

/-- `serialize_to_array_or_throw`, of a message that is serialized to `data`. -/
def serialize_to_array_or_throw (data : Bytes) : Option Bytes :=
  if INT_MAX < data.length then none else some data

def send_message (type : UInt8) (message : Bytes) : Sent :=
  match serialize_to_array_or_throw message with
  | none => .threw
  | some data => .sent (header_bytes message.length type ++ data)

def invocation_for (id : UInt32) (method_name parameters : Bytes) : Option Invocation :=
  (serialize_to_array_or_throw parameters).map fun buffer =>
    { id, method_name, parameters := buffer, protocol_version := 1 }

/-- `id` is what `next_id` returned. -/
def call_method (P : Protobuf) (id : UInt32) (method_name parameters : Bytes) : Sent :=
  match invocation_for id method_name parameters with
  | none => .threw
  | some invocation => send_message MessageType.invocation (P.serializeInvocation invocation)

def send_event (P : Protobuf) (event : Bytes) : Sent :=
  match serialize_to_array_or_throw event with
  | none => .threw
  | some buffer => send_message MessageType.response (P.serializeResult { events := [buffer] })

end Channel

/-- `MessageProcessor::send_response`. -/
def send_response (P : Protobuf) (id : UInt32) (response : Bytes) : Sent :=
  if !size_fits_protobuf_int response.length then .returned
  else
    let data := P.serializeResult { id := some id, response := some response }
    if !size_fits_protobuf_int data.length then .returned
    else .sent (header_bytes data.length MessageType.response ++ data)

/-- A use of one of the senders. -/
inductive Sending where
  | call_method (id : UInt32) (method_name parameters : Bytes)
  | send_event (event : Bytes)
  | send_response (id : UInt32) (response : Bytes)

namespace Sending

def send (P : Protobuf) : Sending → Sent
  | .call_method id method_name parameters => Channel.call_method P id method_name parameters
  | .send_event event => Channel.send_event P event
  | .send_response id response => Rpc.send_response P id response

/-- The message that is to arrive. -/
def message : Sending → Message
  | .call_method id method_name parameters => .invocation ⟨id, method_name, parameters, 1⟩
  | .send_event event => .result { events := [event] }
  | .send_response id response => .result { id := some id, response := some response }

end Sending

/-- What goes over the wire. -/
def transmitted (P : Protobuf) (sendings : List Sending) : Bytes :=
  sendings.flatMap fun m => (m.send P).bytes

/-- The messages a connection has taken in. -/
def Progress.messages {η : Type} (P : Protobuf) (s : Progress η) : List Message :=
  s.frames.filterMap (Frame.parse P)

/-- The peer takes in exactly the messages sent, in order, and hands each of them on. -/
def Delivered {η : Type} (P : Protobuf) (h : Handlers η) (env : η) (sendings : List Sending) : Prop :=
  ∀ chunks, chunks.flatten = transmitted P sendings → ∃ s, h.process_chunks P env chunks = .waiting s [] ∧
    s.messages P = sendings.map Sending.message ∧
    s.calls = (sendings.map Sending.message).flatMap Message.calls

end AnboxReboxed.Rpc
