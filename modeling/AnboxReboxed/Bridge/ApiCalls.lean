import AnboxReboxed.Bridge.AndroidApiStub
import AnboxReboxed.Rpc.PendingCallCache

/-!
# Calls and their response objects

The calls of `AndroidApiStub` and `ManagementApiStub`, from any number of threads and over any number of
channels. A call owns a `Request` with a response object, which is destroyed when the call returns or
throws; the `PendingCallCache` of its channel holds a plain pointer to it. A call is known by its number,
which stands for its `Request`. Every use of a mutex is one step.
-/

namespace AnboxReboxed.Bridge

open AnboxReboxed.Lib AnboxReboxed.Rpc

inductive ApiMethod where
  | android (m : Method)
  | start_container
  | stop_container
  deriving DecidableEq

/-- The wait has a limit: `default_rpc_call_timeout` or `stop_waiting_timeout`. -/
def ApiMethod.timed : ApiMethod → Bool
  | .start_container => false
  | _ => true

/-- A `WaitHandle`: a member of `AndroidApiStub`, or of the `Request` of a call of
`ManagementApiStub`. -/
inductive HandleId where
  | member (m : Method)
  | request (call : Nat)
  deriving DecidableEq

def ApiMethod.handle (call : Nat) : ApiMethod → HandleId
  | .android m => .member m
  | _ => .request call

/-- Where a call is. -/
inductive ApiPlace where
  | absent
  /-- At `channel_->call_method`, after `expect_result`. -/
  | expected
  /-- In `next_id`: the counter was read and is not yet written. -/
  | loaded (id : UInt32)
  /-- Before `save_completion_details`. -/
  | numbered (id : UInt32)
  /-- In `send_message`. -/
  | registered
  /-- `sender_->send` threw; at `notify_disconnected`. -/
  | failing
  | waiting
  /-- The wait is over: all results are there. -/
  | answered
  /-- The wait is over: its limit has passed. -/
  | timedOut
  /-- Returned or thrown, with its `Request` destroyed. -/
  | ended
  deriving DecidableEq

/-- Where `process_data` is with a `Result` that has an id. -/
inductive ApiResult where
  | absent
  /-- Between `populate_message_for_result` and `complete_response`. -/
  | populated (channel : Nat) (id : UInt32)
  /-- The entry of the call was erased, and its closure is not yet run. -/
  | completing (call : Nat)
  | finished
  deriving DecidableEq

inductive ApiEvent where
  /-- The response object of the call was written. -/
  | wrote (call : Nat)
  | ended (call : Nat)
  deriving DecidableEq

structure ApiCalls where
  /-- `next_message_id`, one for all channels. -/
  next_message_id : UInt32 := 0
  /-- `pending_calls_` of the channels. -/
  pending_calls_ : Nat → OrdMap Int Nat := fun _ => ∅
  handles : HandleId → WaitHandle := fun _ => {}
  methods : Nat → ApiMethod := fun _ => .start_container
  channels : Nat → Nat := fun _ => 0
  places : Nat → ApiPlace := fun _ => .absent
  results : Nat → ApiResult := fun _ => .absent
  /-- The calls that a handle expects a result for. -/
  outstanding : HandleId → List Nat := fun _ => []
  history : List ApiEvent := []

inductive ApiOp where
  /-- A call up to `expect_result`. -/
  | begin (c : Nat) (method : ApiMethod) (channel : Nat)
  /-- `invocation_for` throws: the request cannot be serialized. -/
  | unserialized (c : Nat)
  | load (c : Nat)
  | store (c : Nat)
  | save_completion_details (c : Nat)
  /-- `send_message` returns; it throws before `sender_->send`; `sender_->send` throws. -/
  | sent (c : Nat)
  | refuse (c : Nat)
  | fail (c : Nat)
  | force_completion (c : Nat)
  /-- A `Result` arrives; `parsed` tells whether `ParseFromString` accepts the response. -/
  | populate_message_for_result (n channel : Nat) (id : UInt32) (parsed : Bool)
  | complete_response (n : Nat)
  | run (n : Nat)
  /-- The wait returns because all results are there, or because its limit has passed. -/
  | wake (c : Nat)
  | limit (c : Nat)
  | finish (c : Nat)
  deriving DecidableEq

namespace ApiCalls

def setPlace (s : ApiCalls) (c : Nat) (p : ApiPlace) : ApiCalls :=
  { s with places := Function.update s.places c p }

def setResult (s : ApiCalls) (n : Nat) (p : ApiResult) : ApiCalls :=
  { s with results := Function.update s.results n p }

def handleOf (s : ApiCalls) (c : Nat) : HandleId := (s.methods c).handle c

/-- The call returns or throws. -/
def finish (s : ApiCalls) (c : Nat) : ApiCalls :=
  { s.setPlace c .ended with history := s.history ++ [.ended c] }

/-- The closure of a call: `application_launched`, `container_started` and so on. -/
def runClosure (s : ApiCalls) (c : Nat) : ApiCalls :=
  { s with
    handles := Function.update s.handles (s.handleOf c) (s.handles (s.handleOf c)).result_received
    outstanding := Function.update s.outstanding (s.handleOf c) ((s.outstanding (s.handleOf c)).erase c) }

/-- What `force_completion` runs. -/
def closures (s : ApiCalls) (channel : Nat) : List Nat := (s.pending_calls_ channel).entries.map Prod.snd

def force_completion (s : ApiCalls) (channel : Nat) : ApiCalls :=
  { (s.closures channel).foldl runClosure s with
    pending_calls_ := Function.update s.pending_calls_ channel ∅ }

/-- `wait_for_all` resets the counters; `wait_for_pending` does not. -/
def wake (s : ApiCalls) (c : Nat) : ApiCalls :=
  if (s.methods c).timed then s.setPlace c .answered
  else { s.setPlace c .answered with handles := Function.update s.handles (s.handleOf c) {} }

def populate_message_for_result (s : ApiCalls) (n channel : Nat) (id : UInt32) (parsed : Bool) : ApiCalls :=
  match (s.pending_calls_ channel).find? (key id) with
  | none => s.setResult n .finished
  | some c =>
    { s.setResult n (if parsed then .populated channel id else .finished) with
      history := s.history ++ [.wrote c] }

def complete_response (s : ApiCalls) (n channel : Nat) (id : UInt32) : ApiCalls :=
  match (s.pending_calls_ channel).find? (key id) with
  | none => s.setResult n .finished
  | some c =>
    { s.setResult n (.completing c) with
      pending_calls_ :=
        Function.update s.pending_calls_ channel ((s.pending_calls_ channel).erase (key id)) }

def step (s : ApiCalls) : ApiOp → Option ApiCalls
  | .begin c method channel =>
    if s.places c = .absent then
      let h := method.handle c
      some { s.setPlace c .expected with
        methods := Function.update s.methods c method
        channels := Function.update s.channels c channel
        handles := Function.update s.handles h (s.handles h).expect_result
        outstanding := Function.update s.outstanding h (c :: s.outstanding h) }
    else none
  | .unserialized c => if s.places c = .expected then some (s.finish c) else none
  | .load c => if s.places c = .expected then some (s.setPlace c (.loaded s.next_message_id)) else none
  | .store c =>
    match s.places c with
    | .loaded id => some { s.setPlace c (.numbered id) with next_message_id := id + 1 }
    | _ => none
  | .save_completion_details c =>
    match s.places c with
    | .numbered id =>
      let channel := s.channels c
      some { s.setPlace c .registered with
        pending_calls_ :=
          Function.update s.pending_calls_ channel ((s.pending_calls_ channel).insert (key id) c) }
    | _ => none
  | .sent c => if s.places c = .registered then some (s.setPlace c .waiting) else none
  | .refuse c => if s.places c = .registered then some (s.finish c) else none
  | .fail c => if s.places c = .registered then some (s.setPlace c .failing) else none
  | .force_completion c =>
    if s.places c = .failing then some ((s.force_completion (s.channels c)).finish c) else none
  | .populate_message_for_result n channel id parsed =>
    if s.results n = .absent then some (s.populate_message_for_result n channel id parsed) else none
  | .complete_response n =>
    match s.results n with
    | .populated channel id => some (s.complete_response n channel id)
    | _ => none
  | .run n =>
    match s.results n with
    | .completing c => some ((s.runClosure c).setResult n .finished)
    | _ => none
  | .wake c =>
    if s.places c = .waiting ∧ (s.handles (s.handleOf c)).complete = true then some (s.wake c) else none
  | .limit c =>
    if s.places c = .waiting ∧ (s.methods c).timed = true then some (s.setPlace c .timedOut) else none
  | .finish c =>
    if s.places c = .answered ∨ s.places c = .timedOut then some (s.finish c) else none

/-- Some channel has an entry for the call. -/
def Pending (s : ApiCalls) (c : Nat) : Prop := ∃ channel k, (s.pending_calls_ channel).find? k = some c

/-- The call is under way. -/
def Live (s : ApiCalls) (c : Nat) : Prop := s.places c ≠ .absent ∧ s.places c ≠ .ended

/-- A response object is written only before its call has ended. -/
def BeforeEnd (pre : List ApiEvent) : ApiEvent → Prop
  | .wrote c => .ended c ∉ pre
  | .ended _ => True

/-- Every entry points to the `Request` of a call under way, and no response object was written after
its call had ended. -/
def NoStaleEntries (s : ApiCalls) : Prop := (∀ c, s.Pending c → s.Live c) ∧ Justified BeforeEnd s.history

/-- The condition on the steps. A call that was registered ends because its request cannot be sent as one
message, or because its limit has passed, only after its entry is gone. -/
def TakesBack (s : ApiCalls) : ApiOp → Prop
  | .refuse c => ¬s.Pending c
  | .finish c => s.places c = .timedOut → ¬s.Pending c
  | _ => True

end ApiCalls

def apiMachine : Machine ApiCalls ApiOp where
  init := {}
  step := ApiCalls.step

end AnboxReboxed.Bridge
