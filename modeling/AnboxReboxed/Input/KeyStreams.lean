import AnboxReboxed.Input.Dispatcher
import AnboxReboxed.Input.Keyboard
import AnboxReboxed.Lib.Strokes

/-!
# The event stream of each key

The keyboard and the pointer over a sink that accepts every release and may reject anything else. For each code, the
values of its accepted events since the last reset form a stream of presses, repeats and releases.
-/

namespace AnboxReboxed.Input

open AnboxReboxed.Lib

/-- The sink keeps what it has accepted. It takes a release whatever `accepts` says. -/
def releasing_sink (accepts : Bool) : Sink (List EventBatch) := fun accepted batch =>
  if accepts || is_release batch then (accepted ++ [batch], true) else (accepted, false)

structure KeyStreams where
  producers : Producers
  /-- What the sink has accepted of each stream since its last reset. -/
  accepted : List EventBatch := []
  deriving DecidableEq

inductive KeyStreamsOp where
  | call (c : InputCall) (accepts : Bool)
  | reset_after_transport_failure (stream : Stream)
  deriving DecidableEq

namespace KeyStreams

def step (s : KeyStreams) : KeyStreamsOp → Option KeyStreams
  | .call c accepts =>
    let result := s.producers.call (releasing_sink accepts) s.accepted c
    some { producers := result.1, accepted := result.2 }
  | .reset_after_transport_failure stream =>
    some
      { producers := s.producers.reset_after_transport_failure stream
        accepted := s.accepted.filter fun batch => batch.stream ≠ stream }

/-- The values of the key events of one code in a batch. -/
def batch_values (code : Code) (batch : EventBatch) : List Int32 :=
  (batch.events.filter fun event => event.type = EV_KEY && event.code = code).map Event.value

/-- The values of the accepted key events of one code. -/
def values (s : KeyStreams) (stream : Stream) (code : Code) : List Int32 :=
  (s.accepted.filter fun batch => batch.stream = stream).flatMap (batch_values code)

/-- A press, any number of repeats and a release, again and again; the last release may be missing. -/
def key_stream : RegularExpression Int32 := strokes 1 0 (RegularExpression.char 2).star

/-- The same without repeats. -/
def button_stream : RegularExpression Int32 := strokes 1 0 1

/-- The streams of all codes match, and `injected_held_` has the codes whose last event is no release. -/
def WellFormed (stream : Stream) (expression : RegularExpression Int32) (s : KeyStreams) : Prop :=
  ∀ code, s.values stream code ∈ expression.matches' ∧
    (code ∈ (s.producers.held stream).injected_held_ ↔
      (s.values stream code).getLast? = some 1 ∨ (s.values stream code).getLast? = some 2)

/-- A repeat that is sent and accepted is one of a code whose press was accepted. -/
def RepeatsInjected (s : KeyStreams) : KeyStreamsOp → Prop
  | .call c accepts => accepts = true → ∀ batch ∈ s.producers.submits c, batch.kind = .Repeat →
      ∀ event ∈ batch.events, event.type = EV_KEY → event.code ∈ s.producers.keyboard.held.injected_held_
  | .reset_after_transport_failure _ => True

end KeyStreams

def keyStreamsMachine (repeat_policy : RepeatPolicy) : Machine KeyStreams KeyStreamsOp where
  init := { producers := { keyboard := { repeat_policy_ := repeat_policy } } }
  step := KeyStreams.step

end AnboxReboxed.Input
