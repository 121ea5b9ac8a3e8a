import AnboxReboxed.Lib.Machine
import AnboxReboxed.Network.SocketConnection
import AnboxReboxed.Rpc.MessageProcessor
import AnboxReboxed.Rpc.PendingCallCache

/-!
# The processors of RPC connections

`process_data` once more, now with what its `dispatch` and `process_event_sequence` are and with the
exceptions that leave them: `PlatformMessageProcessor`, `ManagementApiMessageProcessor` and the plain
`MessageProcessor` of the container's client.
-/

namespace AnboxReboxed.Rpc

open AnboxReboxed.Lib AnboxReboxed.Network

/-- How a call ends. -/
inductive Ending where
  | returned
  | threw
  deriving DecidableEq

/-- An exception leaves `process_data` too. -/
def Ending.failure : Ending → Option Failure
  | .returned => none
  | .threw => some .threw

/-- A function of a server that `invoke` is instantiated with. `ParseFromString` is that of its parameter
message; `call` includes `done->Run()`, which is `send_response`. -/
structure ServerFunction (η : Type) where
  ParseFromString : Bytes → Bool
  call : η → Invocation → η × Ending

/-- What a processor works with. The state `η` is that of the whole program. -/
structure Endpoint (η : Type) where
  /-- The methods that `dispatch` knows. -/
  functions : List (Bytes × ServerFunction η)
  /-- `send_response` of the message that reports an error. -/
  send_response : η → UInt32 → η × Ending
  /-- The calls that are pending; of each, what `ParseFromString` of its response accepts. -/
  pending_calls_ : η → OrdMap Int (Bytes → Bool)
  /-- What the populator writes into the response. -/
  populate : η → Result → η
  complete_response : η → Result → η
  process_event_sequence : η → Bytes → η × Ending

/-- `EventSequence` of the bridge. -/
structure EventSequence where
  boot_finished : Option Bytes := none
  window_state_update : Option Bytes := none
  application_list_update : Option Bytes := none

/-- `PlatformApiSkeleton`. -/
structure PlatformServer (η : Type) where
  set_clipboard_data : ServerFunction η
  get_clipboard_data : ServerFunction η
  parseEventSequence : Bytes → Option EventSequence
  handle_boot_finished_event : η → Bytes → η × Ending
  handle_window_state_update_event : η → Bytes → η × Ending
  handle_application_list_update_event : η → Bytes → η × Ending

namespace PlatformServer

variable {η : Type}

/-- `if (seq.has_...()) server_->handle_...(seq....())`, unless an exception was thrown before. -/
def handle (handler : η → Bytes → η × Ending) (event : Option Bytes) : η × Ending → η × Ending
  | (env, .returned) => event.elim (env, .returned) (handler env)
  | (env, .threw) => (env, .threw)

def process_event_sequence (server : PlatformServer η) (env : η) (raw_events : Bytes) : η × Ending :=
  match server.parseEventSequence raw_events with
  | none => (env, .returned)
  | some seq =>
    handle server.handle_application_list_update_event seq.application_list_update
      (handle server.handle_window_state_update_event seq.window_state_update
        (handle server.handle_boot_finished_event seq.boot_finished (env, .returned)))

end PlatformServer

/-- The name of a method on the wire. -/
def methodName (name : String) : Bytes := name.toUTF8.toList

namespace Endpoint

variable {η : Type} (E : Endpoint η)

def platformMessageProcessor (server : PlatformServer η) : Endpoint η :=
  { E with
    functions := [(methodName "set_clipboard_data", server.set_clipboard_data),
      (methodName "get_clipboard_data", server.get_clipboard_data)]
    process_event_sequence := server.process_event_sequence }

def managementApiMessageProcessor (start_container stop_container : ServerFunction η) : Endpoint η :=
  { E with
    functions := [(methodName "start_container", start_container), (methodName "stop_container", stop_container)]
    process_event_sequence := fun env _ => (env, .returned) }

/-- `MessageProcessor` itself, whose virtual functions do nothing. -/
def messageProcessor : Endpoint η :=
  { E with
    functions := []
    process_event_sequence := fun env _ => (env, .returned) }

/-- The parameters are parsed before the `try` block; what the function throws is caught and reported. -/
def invoke (function : ServerFunction η) (env : η) (invocation : Invocation) : η × Ending :=
  if function.ParseFromString invocation.parameters then
    match function.call env invocation with
    | (env, .returned) => (env, .returned)
    | (env, .threw) => E.send_response env invocation.id
  else (env, .threw)

def dispatch (env : η) (invocation : Invocation) : η × Ending :=
  match E.functions.lookup invocation.method_name with
  | none => (env, .returned)
  | some function => E.invoke function env invocation

/-- `pending_calls_.at` throws when there is no such call. -/
def onResponse (env : η) (result : Result) : η × Option Failure :=
  match result.id with
  | none => (env, none)
  | some id =>
    match (E.pending_calls_ env).find? (key id) with
    | none => (env, some .threw)
    | some ParseFromString =>
      let env := E.populate env result
      if ParseFromString (result.response.getD []) then (E.complete_response env result, none)
      else (env, some .returnedFalse)

def onEvents (env : η) : List Bytes → η × Ending
  | [] => (env, .returned)
  | event :: events =>
    match E.process_event_sequence env event with
    | (env, .returned) => onEvents env events
    | (env, .threw) => (env, .threw)

def onResult (env : η) (result : Result) : η × Option Failure :=
  match E.onResponse env result with
  | (env, some failure) => (env, some failure)
  | (env, none) => ((E.onEvents env result.events).1, (E.onEvents env result.events).2.failure)

variable (P : Protobuf)

def onFrame (env : η) (f : Frame) : η × Option Failure :=
  if f.message_type = MessageType.invocation then
    match if size_fits_protobuf_int f.message.length then P.parseInvocation f.message else none with
    | none => (env, some .returnedFalse)
    | some invocation => ((E.dispatch env invocation).1, (E.dispatch env invocation).2.failure)
  else if f.message_type = MessageType.response then
    match if size_fits_protobuf_int f.message.length then P.parseResult f.message else none with
    | none => (env, some .returnedFalse)
    | some result => E.onResult env result
  else (env, none)

end Endpoint

/-- The first complete frame of a buffer. -/
def frontFrame : Bytes → Option Frame
  | high :: medium :: low :: message_type :: rest =>
    if rest.length < message_size high medium low then none
    else some ⟨message_type, rest.take (message_size high medium low)⟩
  | _ => none

/-- Where the loop of `process_data` is: how much it has erased, and how it was left. -/
structure Loop (η : Type) where
  env : η
  erased : Nat := 0
  failure : Option Failure := none

/-- The state of a processor. -/
structure Processor (η : Type) where
  env : η
  buffer_ : Bytes := []

namespace Endpoint

variable {η : Type} (E : Endpoint η) (P : Protobuf)

/-- The body of the loop over `buffer_`. -/
def nextFrame (s : Loop η) (l : Bytes) : Verdict (Loop η) :=
  match frontFrame l with
  | none => .more
  | some f =>
    match E.onFrame P s.env f with
    | (env, some failure) => .refused { s with env, failure := some failure }
    | (env, none) =>
      .consumed (header_size + f.message.length) { s with env, erased := s.erased + header_size + f.message.length }

end Endpoint

theorem frontFrame_append {l : Bytes} {f : Frame} (h : frontFrame l = some f) (m : Bytes) :
    frontFrame (l ++ m) = some f := by
  match l with
  | [] | [_] | [_, _] | [_, _, _] => cases h
  | high :: medium :: low :: message_type :: rest =>
    simp only [frontFrame] at h
    split_ifs at h with hlen
    have hle : message_size high medium low ≤ rest.length := Nat.le_of_not_lt hlen
    have hlen' : ¬(rest ++ m).length < message_size high medium low := by
      rw [List.length_append]
      omega
    simp only [List.cons_append, frontFrame, if_neg hlen', List.take_append_of_le_length hle]
    exact h

theorem frontFrame_length {l : Bytes} {f : Frame} (h : frontFrame l = some f) :
    header_size + f.message.length ≤ l.length := by
  match l with
  | [] | [_] | [_, _] | [_, _, _] => cases h
  | high :: medium :: low :: message_type :: rest =>
    simp only [frontFrame] at h
    split_ifs at h with hlen
    cases h
    simp only [header_size, List.length_take, List.length_cons]
    omega

namespace Endpoint

variable {η : Type} (E : Endpoint η) (P : Protobuf)

theorem nextFrame_stable (s : Loop η) (l m : Bytes) (hl : E.nextFrame P s l ≠ .more) :
    E.nextFrame P s (l ++ m) = E.nextFrame P s l := by
  unfold nextFrame at hl ⊢
  cases hf : frontFrame l with
  | none =>
    rw [hf] at hl
    exact absurd rfl hl
  | some f => rw [frontFrame_append hf m]

theorem nextFrame_shrinks (s : Loop η) (l : Bytes) (n : Nat) (s' : Loop η)
    (hl : E.nextFrame P s l = .consumed n s') : 0 < n ∧ n ≤ l.length := by
  unfold nextFrame at hl
  split at hl
  · cases hl
  · next f hf =>
    have hlen := frontFrame_length hf
    split at hl
    · cases hl
    · cases hl
      exact ⟨by simp only [header_size]; omega, hlen⟩

def framing : Framing (Loop η) UInt8 where
  next := E.nextFrame P
  stable := E.nextFrame_stable P
  shrinks := E.nextFrame_shrinks P

def process_data (p : Processor η) (data : Bytes) : Processor η × Processed :=
  match (E.framing P).drive { env := p.env } (p.buffer_ ++ data) with
  | .waiting s rest => (⟨s.env, rest⟩, .accepted)
  | .refused s => (⟨s.env, (p.buffer_ ++ data).drop s.erased⟩, if s.failure = some .threw then .threw else .refused)

/-- A connection, and the rest of the program. -/
inductive ConnectionOp (η : Type) where
  | on_read_size (read : Read)
  /-- Other threads change what the processor works with. -/
  | elsewhere (env : η)

abbrev Connection (η : Type) := SocketConnection (Processor η)

/-- A read ends only when one is armed. -/
def step (c : Connection η) : ConnectionOp η → Option (Connection η)
  | .on_read_size read => if c.reading then some (c.on_read_size (E.process_data P) read) else none
  | .elsewhere env => some { c with processor_ := { c.processor_ with env } }

/-- A new connection. -/
def machine (env : η) : Machine (Connection η) (ConnectionOp η) where
  init := { processor_ := { env } }
  step := E.step P

/-- The invocation throws: its parameters do not parse, or its function fails and the error cannot be
sent. -/
def InvocationThrows (env : η) (invocation : Invocation) : Prop :=
  ∃ function, E.functions.lookup invocation.method_name = some function ∧
    (function.ParseFromString invocation.parameters = false ∨
      (function.call env invocation).2 = .threw ∧
        (E.send_response (function.call env invocation).1 invocation.id).2 = .threw)

/-- The environment after some events. -/
def afterEvents (env : η) (events : List Bytes) : η :=
  events.foldl (fun env event => (E.process_event_sequence env event).1) env

/-- A handler of an event throws. -/
def EventsThrow (env : η) (events : List Bytes) : Prop :=
  ∃ handled event rest, events = handled ++ event :: rest ∧
    (E.process_event_sequence (E.afterEvents env handled) event).2 = .threw

/-- The result throws: there is no call with its id, or a handler of its events throws after the call was
completed. -/
def ResultThrows (env : η) (result : Result) : Prop :=
  match result.id with
  | none => E.EventsThrow env result.events
  | some id =>
    match (E.pending_calls_ env).find? (key id) with
    | none => True
    | some ParseFromString => ParseFromString (result.response.getD []) = true ∧
      E.EventsThrow (E.complete_response (E.populate env result) result) result.events

def FrameThrows (env : η) (f : Frame) : Prop :=
  match f.parse P with
  | none => False
  | some (.invocation invocation) => E.InvocationThrows env invocation
  | some (.result result) => E.ResultThrows env result

/-- Frames that are all taken off the buffer lead from one environment to another. -/
inductive Takes : η → List Frame → η → Prop where
  | nil {env : η} : Takes env [] env
  | cons {env env' : η} {f : Frame} {fs : List Frame} (hlen : f.message.length < 2 ^ 24)
      (hok : (E.onFrame P env f).2 = none) (hrest : Takes (E.onFrame P env f).1 fs env') : Takes env (f :: fs) env'

/-- A frame of the bytes throws, and all before it are taken off the buffer. -/
def BytesThrow (env : η) (l : Bytes) : Prop :=
  ∃ fs env' f rest, E.Takes P env fs env' ∧ f.message.length < 2 ^ 24 ∧
    l = fs.flatMap Frame.bytes ++ (f.bytes ++ rest) ∧ E.FrameThrows P env' f

/-- The condition on the steps: no frame that has become complete throws. -/
def Quiet (c : Connection η) : ConnectionOp η → Prop
  | .on_read_size (.data bytes) => ¬E.BytesThrow P c.processor_.env (c.processor_.buffer_ ++ bytes)
  | _ => True

end Endpoint

end AnboxReboxed.Rpc
