import AnboxReboxed.Lib.Machine
import AnboxReboxed.Lib.OrdMap
import AnboxReboxed.Rpc.Protobuf

/-!
# Pending calls

Any number of threads in `Channel::call_method`, the responses that `process_data` takes in, and the
`PendingCallCache` between them. Every use of the mutex of the cache is one step, and so are the read
and the write of the counter in `next_id`, which nothing protects. A call is known by its number, which
stands for its response object and its closure. The history records what happened to the calls.
-/

namespace AnboxReboxed.Rpc

open AnboxReboxed.Lib

/-- Where a call of `call_method` is. -/
inductive CallPlace where
  | absent
  /-- In `next_id`: the counter was read and is not yet written. -/
  | loaded (id : UInt32)
  /-- Before `save_completion_details`. -/
  | numbered (id : UInt32)
  /-- In `send_message`. -/
  | registered (id : UInt32)
  /-- `sender_->send` threw; at `notify_disconnected`. -/
  | failing (id : UInt32)
  | returned (id : UInt32)
  | threw (id : UInt32)
  deriving DecidableEq

/-- Where `process_data` is with a `Result` that has an id. -/
inductive ResultPlace where
  | absent
  /-- Between `populate_message_for_result` and `complete_response`. -/
  | populated (result : Result)
  /-- In `complete_response`: the call was erased and its closure is not yet run. -/
  | completing (call : Nat)
  | finished
  deriving DecidableEq

/-- What happened to a call. Results are known by their number too. -/
inductive CallEvent where
  | registered (call : Nat) (id : UInt32)
  /-- The response object was written from a `Result`. -/
  | wrote (call : Nat) (n : Nat) (result : Result)
  /-- `complete_response` erased the call. -/
  | erased (call : Nat) (n : Nat)
  /-- The closure ran, for a `Result` or in `force_completion`. -/
  | ran (call : Nat) (n : Option Nat)
  /-- The id of a `Result` was not pending. -/
  | unknown (n : Nat)
  /-- The `force_completion` of a failed send has returned. -/
  | forced (call : Nat)
  deriving DecidableEq

/-- The key of `std::map<int, PendingCall>`. -/
def key (id : UInt32) : Int := id.toBitVec.toInt

structure PendingCallCache where
  /-- `next_message_id`. -/
  next_message_id : UInt32 := 0
  pending_calls_ : OrdMap Int Nat := ∅
  calls : Nat → CallPlace := fun _ => .absent
  results : Nat → ResultPlace := fun _ => .absent
  history : List CallEvent := []
  /-- The number of calls that have got their id. -/
  issued : Nat := 0

inductive CallOp where
  /-- `next_id` reads the counter, and writes it. -/
  | load (c : Nat)
  | store (c : Nat)
  | save_completion_details (c : Nat)
  /-- `send_message` returns; it throws before `sender_->send`; `sender_->send` throws. -/
  | sent (c : Nat)
  | refuse (c : Nat)
  | fail (c : Nat)
  | force_completion (c : Nat)
  /-- `parsed` tells whether `ParseFromString` accepts the response. -/
  | populate_message_for_result (n : Nat) (result : Result) (parsed : Bool)
  | complete_response (n : Nat)
  | run (n : Nat)
  deriving DecidableEq

namespace PendingCallCache

def setCall (s : PendingCallCache) (c : Nat) (p : CallPlace) : PendingCallCache :=
  { s with calls := Function.update s.calls c p }

def setResult (s : PendingCallCache) (n : Nat) (p : ResultPlace) : PendingCallCache :=
  { s with results := Function.update s.results n p }

/-- What `force_completion` runs. -/
def closures (s : PendingCallCache) : List Nat := s.pending_calls_.entries.map Prod.snd

def populate_message_for_result (s : PendingCallCache) (n : Nat) (result : Result) (id : UInt32)
    (parsed : Bool) : PendingCallCache :=
  match s.pending_calls_.find? (key id) with
  | none => { s.setResult n .finished with history := s.history ++ [.unknown n] }
  | some c =>
    { s.setResult n (if parsed then .populated result else .finished) with
      history := s.history ++ [.wrote c n result] }

def complete_response (s : PendingCallCache) (n : Nat) (id : UInt32) : PendingCallCache :=
  match s.pending_calls_.find? (key id) with
  | none => s.setResult n .finished
  | some c =>
    { s.setResult n (.completing c) with
      pending_calls_ := s.pending_calls_.erase (key id)
      history := s.history ++ [.erased c n] }

def force_completion (s : PendingCallCache) (c : Nat) : PendingCallCache :=
  { s with
    pending_calls_ := ∅
    history := s.history ++ s.closures.map (.ran · none) ++ [.forced c] }

def step (s : PendingCallCache) : CallOp → Option PendingCallCache
  | .load c => if s.calls c = .absent then some (s.setCall c (.loaded s.next_message_id)) else none
  | .store c =>
    match s.calls c with
    | .loaded id =>
      some { s.setCall c (.numbered id) with next_message_id := id + 1, issued := s.issued + 1 }
    | _ => none
  | .save_completion_details c =>
    match s.calls c with
    | .numbered id =>
      some { s.setCall c (.registered id) with
        pending_calls_ := s.pending_calls_.insert (key id) c
        history := s.history ++ [.registered c id] }
    | _ => none
  | .sent c =>
    match s.calls c with
    | .registered id => some (s.setCall c (.returned id))
    | _ => none
  | .refuse c =>
    match s.calls c with
    | .registered id => some (s.setCall c (.threw id))
    | _ => none
  | .fail c =>
    match s.calls c with
    | .registered id => some (s.setCall c (.failing id))
    | _ => none
  | .force_completion c =>
    match s.calls c with
    | .failing id => some ((s.force_completion c).setCall c (.threw id))
    | _ => none
  | .populate_message_for_result n result parsed =>
    match s.results n, result.id with
    | .absent, some id => some (s.populate_message_for_result n result id parsed)
    | _, _ => none
  | .complete_response n =>
    match s.results n with
    | .populated result => result.id.map (s.complete_response n)
    | _ => none
  | .run n =>
    match s.results n with
    | .completing c => some { s.setResult n .finished with history := s.history ++ [.ran c (some n)] }
    | _ => none

end PendingCallCache

/-- How far a call has come. -/
inductive Life where
  | unregistered
  | pending (id : UInt32)
  /-- Erased for the `Result` `n`, with the closure still to run. -/
  | erased (n : Nat)
  | ran (n : Option Nat)
  deriving DecidableEq

/-- How far each call has come after one more event. -/
def Life.next (f : Nat → Life) : CallEvent → Nat → Life
  | .registered c id => Function.update f c (.pending id)
  | .erased c n => Function.update f c (.erased n)
  | .ran c n => Function.update f c (.ran n)
  | _ => f

def life (h : List CallEvent) : Nat → Life := h.foldl Life.next fun _ => .unregistered

/-- The closure of `c` runs. -/
def CallEvent.runs (c : Nat) : CallEvent → Bool
  | .ran c' _ => c' = c
  | _ => false

namespace PendingCallCache

/-- Each closure runs at most once, and is out of the cache when it has run. A response object is only
written from a `Result` with the id of its call, while the call is pending. A `Result` whose id is not
pending runs no closure. After a failed send all calls registered before have had their closure run. -/
structure CompletesOnce (s : PendingCallCache) : Prop where
  once : ∀ c, (s.history.filter (CallEvent.runs c)).length ≤ 1
  removed : ∀ c n, .ran c n ∈ s.history → ∀ k, s.pending_calls_.find? k ≠ some c
  own : ∀ pre c n result post, s.history = pre ++ .wrote c n result :: post →
    ∃ id, life pre c = .pending id ∧ result.id = some id
  unknown : ∀ n c, .unknown n ∈ s.history → .ran c (some n) ∉ s.history
  failed : ∀ pre c post, s.history = pre ++ .forced c :: post →
    ∀ c' id, .registered c' id ∈ pre → ∃ n, .ran c' n ∈ pre

/-- The condition on the steps. A call reads the counter in `next_id` only while no other is between its
read and its write; and `force_completion` runs only while no closure is erased but not yet run. -/
def Orderly (s : PendingCallCache) : CallOp → Prop
  | .load _ => ∀ c id, s.calls c ≠ .loaded id
  | .force_completion _ => ∀ n c, s.results n ≠ .completing c
  | _ => True

end PendingCallCache

def callMachine : Machine PendingCallCache CallOp where
  init := {}
  step := PendingCallCache.step

end AnboxReboxed.Rpc
