import AnboxReboxed.Lib.Machine

/-!
# `AndroidApiStub`

The four calls of the bridge, each with a `WaitHandle` of its own. A call counts itself as expected,
hands its request to the channel and waits until all results are there, or for thirty seconds. Calls of
one method come one after another; the methods run side by side over one channel, whose failed sends
complete every pending call. A call is known by its method and its number among the calls of the method,
which stand for its invocation id.
-/

namespace AnboxReboxed.Bridge

open AnboxReboxed.Lib

/-- `common::WaitHandle`. -/
structure WaitHandle where
  expecting : Nat := 0
  received : Nat := 0
  deriving DecidableEq

namespace WaitHandle

def expect_result (w : WaitHandle) : WaitHandle := { w with expecting := w.expecting + 1 }

def result_received (w : WaitHandle) : WaitHandle := { w with received := w.received + 1 }

/-- The condition `wait_for_pending` waits for. -/
def complete (w : WaitHandle) : Bool := w.received = w.expecting

def has_result (w : WaitHandle) : Bool := 0 < w.received

end WaitHandle

inductive Method where
  | launch
  | set_focused_task
  | remove_task
  | resize_task
  deriving DecidableEq

abbrev CallId := Method × Nat

/-- Where the call of a method is; `k` is its number. -/
inductive StubPlace where
  | idle
  /-- At `channel_->call_method`, after `expect_result`. -/
  | expected (k : Nat)
  /-- The call is registered with the channel and its request is being sent. -/
  | sending (k : Nat)
  /-- In `wait_for_pending`. -/
  | waiting (k : Nat)
  /-- At `has_result`. -/
  | waited (k : Nat)
  deriving DecidableEq

/-- The call that is under way. -/
def StubPlace.call : StubPlace → Option Nat
  | .idle => none
  | .expected k => some k
  | .sending k => some k
  | .waiting k => some k
  | .waited k => some k

inductive StubEvent where
  /-- The `Result` of the call was processed, and its closure ran. -/
  | processed (call : CallId)
  | returned (call : CallId)
  /-- The call threw "RPC call timed out". -/
  | timedOut (call : CallId)
  /-- The call threw the error of its response. -/
  | failed (call : CallId)
  deriving DecidableEq

structure AndroidApiStub where
  handles : Method → WaitHandle := fun _ => {}
  places : Method → StubPlace := fun _ => .idle
  /-- The calls registered with the channel. -/
  pending : List CallId := []
  /-- The calls whose response has an error. -/
  errors : List CallId := []
  /-- The calls of a method whose closure has not run. -/
  outstanding : Method → List Nat := fun _ => []
  history : List StubEvent := []

inductive StubOp where
  /-- A call up to `expect_result`. -/
  | begin (m : Method)
  | register (m : Method)
  /-- `call_method` throws, before or after it registers the call, without a send. -/
  | refuse (m : Method)
  | sent (m : Method)
  /-- The send fails: `force_completion`, and `call_method` throws. -/
  | fail (m : Method)
  /-- The `Result` of a pending call is processed. -/
  | respond (call : CallId) (error : Bool)
  /-- `wait_for_pending` returns because all results are there, or because its limit has passed. -/
  | wake (m : Method)
  | limit (m : Method)
  | finish (m : Method)
  deriving DecidableEq

namespace AndroidApiStub

def setPlace (s : AndroidApiStub) (m : Method) (p : StubPlace) : AndroidApiStub :=
  { s with places := Function.update s.places m p }

/-- The closure of a call: `application_launched`, `focused_task_set`, `task_removed` or
`task_resized`. -/
def runClosure (s : AndroidApiStub) (call : CallId) : AndroidApiStub :=
  { s with
    handles := Function.update s.handles call.1 (s.handles call.1).result_received
    outstanding := Function.update s.outstanding call.1 ((s.outstanding call.1).erase call.2) }

def force_completion (s : AndroidApiStub) : AndroidApiStub :=
  { s.pending.foldl runClosure s with pending := [] }

/-- From `has_result` to the end of the call. -/
def finish (s : AndroidApiStub) (m : Method) (k : Nat) : AndroidApiStub :=
  let event :=
    if !(s.handles m).has_result then StubEvent.timedOut (m, k)
    else if (m, k) ∈ s.errors then .failed (m, k)
    else .returned (m, k)
  { s.setPlace m .idle with history := s.history ++ [event] }

def step (s : AndroidApiStub) : StubOp → Option AndroidApiStub
  | .begin m =>
    if s.places m = .idle then
      some { s.setPlace m (.expected (s.handles m).expecting) with
        handles := Function.update s.handles m (s.handles m).expect_result
        outstanding := Function.update s.outstanding m ((s.handles m).expecting :: s.outstanding m) }
    else none
  | .register m =>
    match s.places m with
    | .expected k => some { s.setPlace m (.sending k) with pending := s.pending ++ [(m, k)] }
    | _ => none
  | .refuse m =>
    match s.places m with
    | .expected _ => some (s.setPlace m .idle)
    | .sending _ => some (s.setPlace m .idle)
    | _ => none
  | .sent m =>
    match s.places m with
    | .sending k => some (s.setPlace m (.waiting k))
    | _ => none
  | .fail m =>
    match s.places m with
    | .sending _ => some (s.force_completion.setPlace m .idle)
    | _ => none
  | .respond call error =>
    if call ∈ s.pending then
      some { s.runClosure call with
        pending := s.pending.erase call
        errors := if error then call :: s.errors else s.errors
        history := s.history ++ [.processed call] }
    else none
  | .wake m =>
    match s.places m with
    | .waiting k => if (s.handles m).complete then some (s.setPlace m (.waited k)) else none
    | _ => none
  | .limit m =>
    match s.places m with
    | .waiting k => some (s.setPlace m (.waited k))
    | _ => none
  | .finish m =>
    match s.places m with
    | .waited k => some (s.finish m k)
    | _ => none

/-- A call returns only after its own response was processed, and a call whose response was processed
does not report a timeout. -/
def OwnResponse (pre : List StubEvent) : StubEvent → Prop
  | .returned call => .processed call ∈ pre
  | .timedOut call => .processed call ∉ pre
  | _ => True

/-- The wait of call `k` of `m` is over, without its response. -/
def Undecided (s : AndroidApiStub) (m : Method) (k : Nat) : Prop :=
  s.places m = .waited k ∧ .processed (m, k) ∉ s.history

/-- The condition on the steps. A wait reaches its limit without its own response only while no closure
of the method has run, and from then until `has_result` no closure of another call of the method runs. A
send fails only while no other method has a call under way that would be completed by it. -/
def Timely (s : AndroidApiStub) : StubOp → Prop
  | .limit m =>
    ∀ k, s.places m = .waiting k → .processed (m, k) ∉ s.history → (s.handles m).received = 0
  | .respond call _ => ∀ k, s.Undecided call.1 k → k = call.2
  | .fail m =>
    ∀ call ∈ s.pending, call.1 ≠ m →
      (s.places call.1).call ≠ some call.2 ∧ ∀ k, ¬s.Undecided call.1 k
  | _ => True

end AndroidApiStub

def stubMachine : Machine AndroidApiStub StubOp where
  init := {}
  step := AndroidApiStub.step

end AnboxReboxed.Bridge
