import AnboxReboxed.Binder.BufferArea
import AnboxReboxed.Lib.OrdMap

/-!
# The transaction stacks of the threads

A thread that has sent a transaction waits for the reply to it, and those who work on the transaction may send it others
meanwhile. `transaction_stack` points at the last transaction that the thread has sent or received and that has no reply
yet; the one below it is behind `from_parent` for the thread that has sent it, and behind `to_parent` for the one that
has received it.

What is in the buffers is left out, and so are the one-way transactions, which are on no stack.
-/

namespace AnboxReboxed.Binder

open AnboxReboxed.Lib

abbrev ProcId := Nat
abbrev ThreadId := Nat
abbrev NodeId := Nat

namespace Calls

/-- What `thread->return_error` may be. -/
inductive ReturnError where
  | BR_OK
  | BR_ERROR
  | BR_TRANSACTION_COMPLETE
  | BR_DEAD_REPLY
  | BR_FAILED_REPLY
  deriving DecidableEq

inductive Work where
  | transaction (t : TransactionId)
  | transaction_complete
  deriving DecidableEq

structure Thread where
  proc : ProcId
  transaction_stack : Option TransactionId := none
  todo : List Work := []
  return_error : ReturnError := .BR_OK
  return_error2 : ReturnError := .BR_OK

structure Proc where
  todo : List Work := []

structure Transaction where
  from_thread : Option ThreadId
  from_parent : Option TransactionId := none
  to_proc : Option ProcId
  to_thread : Option ThreadId
  to_parent : Option TransactionId := none
  /-- That of the buffer. A reply has none. -/
  target_node : Option NodeId

structure State where
  procs : OrdMap ProcId Proc := ∅
  threads : OrdMap ThreadId Thread := ∅
  /-- The owners of the nodes that are not dead. -/
  nodes : NodeId → Option ProcId := fun _ => none
  transactions : OrdMap TransactionId Transaction := ∅

namespace State

def proc (s : State) (p : ProcId) : Except Bug Proc :=
  match s.procs.find? p with
  | some proc => .ok proc
  | none => .error .dangling

def thread (s : State) (x : ThreadId) : Except Bug Thread :=
  match s.threads.find? x with
  | some thread => .ok thread
  | none => .error .dangling

def transaction (s : State) (t : TransactionId) : Except Bug Transaction :=
  match s.transactions.find? t with
  | some transaction => .ok transaction
  | none => .error .dangling

def setProc (s : State) (p : ProcId) (proc : Proc) : State := { s with procs := s.procs.insert p proc }

def setThread (s : State) (x : ThreadId) (thread : Thread) : State := { s with threads := s.threads.insert x thread }

def setTransaction (s : State) (t : TransactionId) (transaction : Transaction) : State :=
  { s with transactions := s.transactions.insert t transaction }

/-- `kfree(t)` -/
def kfree (s : State) (t : TransactionId) : State := { s with transactions := s.transactions.erase t }

/-- `list_add_tail`, to the list of the thread, or else to that of the process. -/
def list_add_tail (s : State) (w : Work) (x : Option ThreadId) (p : ProcId) : Except Bug State :=
  match x with
  | some x => do
    let thread ← s.thread x
    return s.setThread x { thread with todo := thread.todo ++ [w] }
  | none => do
    let proc ← s.proc p
    return s.setProc p { proc with todo := proc.todo ++ [w] }

/-- The transaction goes from the top of the stack of the thread that has sent it, when there still is one. -/
def unstack (s : State) (target_thread : Option ThreadId) (t : TransactionId) (transaction : Transaction) :
    Except Bug State :=
  match target_thread with
  | none => .ok s
  | some x => do
    let thread ← s.thread x
    bugOn (thread.transaction_stack ≠ some t)
    bugOn (transaction.from_thread ≠ some x)
    return s.setThread x { thread with transaction_stack := transaction.from_parent }

def binder_pop_transaction (s : State) (target_thread : Option ThreadId) (t : TransactionId) : Except Bug State := do
  let transaction ← s.transaction t
  let s ← s.unstack target_thread t transaction
  return s.kfree t

end State

/-- An error that has not been returned yet makes way for another one. -/
def Thread.makeWay (thread : Thread) : Thread :=
  if thread.return_error ≠ .BR_OK ∧ thread.return_error2 = .BR_OK then
    { thread with return_error2 := thread.return_error, return_error := .BR_OK }
  else thread

namespace State

/-- `binder_send_failed_reply` for the thread that has sent the transaction. -/
def failSender (s : State) (target_thread : ThreadId) (t : TransactionId) (error_code : ReturnError) :
    Except Bug State := do
  let thread ← s.thread target_thread
  let s := s.setThread target_thread thread.makeWay
  if thread.makeWay.return_error = .BR_OK then
    let s ← s.binder_pop_transaction (some target_thread) t
    let thread ← s.thread target_thread
    return s.setThread target_thread { thread with return_error := error_code }
  else return s

def sendFailedReply : Nat → State → TransactionId → ReturnError → Except Bug State
  | 0, _, _, _ => .error .hang
  | fuel + 1, s, t, error_code => do
    let transaction ← s.transaction t
    match transaction.from_thread with
    | some target_thread => s.failSender target_thread t error_code
    | none =>
      -- whoever has sent the transaction was working on the next one, and will not reply to that either
      let s ← s.binder_pop_transaction none t
      match transaction.from_parent with
      | none => return s
      | some next => sendFailedReply fuel s next error_code

/-- The loop frees a transaction in each of its rounds. -/
def binder_send_failed_reply (s : State) (t : TransactionId) (error_code : ReturnError) : Except Bug State :=
  s.sendFailedReply s.transactions.size t error_code

/-- Is the thread one of the process? -/
def inProc (s : State) (target_proc : ProcId) (x : Option ThreadId) : Except Bug Bool :=
  match x with
  | none => .ok false
  | some x => do
    let thread ← s.thread x
    return thread.proc == target_proc

/-- The last thread of the process on the way from the transaction to the one it has all begun with. -/
def fromProc (s : State) (target_proc : ProcId) : Nat → Option TransactionId → Option ThreadId →
    Except Bug (Option ThreadId)
  | _, none, target_thread => .ok target_thread
  | 0, some _, _ => .error .hang
  | fuel + 1, some tmp, target_thread => do
    let transaction ← s.transaction tmp
    let found ← s.inProc target_proc transaction.from_thread
    s.fromProc target_proc fuel transaction.from_parent (if found then transaction.from_thread else target_thread)

/-- The thread that a transaction of `thread` is for, if it is for none in particular; a thread that waits for a reply
itself cannot send one. -/
def targetThread (s : State) (x : ThreadId) (target_proc : ProcId) : Except Bug (Option (Option ThreadId)) := do
  let thread ← s.thread x
  match thread.transaction_stack with
  | none => return some none
  | some tmp =>
    let transaction ← s.transaction tmp
    if transaction.to_thread ≠ some x then return none
    else
      let target_thread ← s.fromProc target_proc s.transactions.size (some tmp) none
      return some target_thread

/-- The end of a `binder_transaction` that fails. -/
def fail (s : State) (x : ThreadId) (in_reply_to : Option TransactionId) (return_error : ReturnError) :
    Except Bug State := do
  let thread ← s.thread x
  bugOn (thread.return_error ≠ .BR_OK)
  match in_reply_to with
  | some t =>
    (s.setThread x { thread with return_error := .BR_TRANSACTION_COMPLETE }).binder_send_failed_reply t return_error
  | none => return s.setThread x { thread with return_error }

/-- The transaction is queued, and so is word for its sender. -/
def send (s : State) (x : ThreadId) (t : TransactionId) (transaction : Transaction) (target_proc : ProcId) :
    Except Bug State := do
  let s ← (s.setTransaction t transaction).list_add_tail (.transaction t) transaction.to_thread target_proc
  s.list_add_tail .transaction_complete (some x) target_proc

/-- `binder_transaction` for `BC_TRANSACTION`. It may fail behind the choice of the target for want of memory or because
of what it is given. -/
def transact (s : State) (x : ThreadId) (t : TransactionId) (target : Option NodeId) (fails : Bool) :
    Except Bug State :=
  match target with
  | none => s.fail x none .BR_FAILED_REPLY
  | some target_node =>
    match s.nodes target_node with
    | none => s.fail x none .BR_DEAD_REPLY
    | some target_proc => do
      match ← s.targetThread x target_proc with
      | none => s.fail x none .BR_FAILED_REPLY
      | some target_thread =>
        if fails then s.fail x none .BR_FAILED_REPLY
        else
          let thread ← s.thread x
          (s.setThread x { thread with transaction_stack := some t }).send x t
            { from_thread := some x, from_parent := thread.transaction_stack, to_proc := some target_proc,
              to_thread := target_thread, target_node := some target_node } target_proc

/-- `binder_transaction` for `BC_REPLY`. -/
def reply (s : State) (x : ThreadId) (t : TransactionId) (fails : Bool) : Except Bug State := do
  let thread ← s.thread x
  match thread.transaction_stack with
  | none => s.fail x none .BR_FAILED_REPLY
  | some in_reply_to =>
    let transaction ← s.transaction in_reply_to
    if transaction.to_thread ≠ some x then s.fail x none .BR_FAILED_REPLY
    else
      let s := s.setThread x { thread with transaction_stack := transaction.to_parent }
      match transaction.from_thread with
      | none => s.fail x (some in_reply_to) .BR_DEAD_REPLY
      | some target_thread =>
        let target ← s.thread target_thread
        if target.transaction_stack ≠ some in_reply_to then s.fail x none .BR_FAILED_REPLY
        else if fails then s.fail x (some in_reply_to) .BR_FAILED_REPLY
        else
          let s ← s.binder_pop_transaction (some target_thread) in_reply_to
          s.send x t { from_thread := none, to_proc := some target.proc, to_thread := some target_thread,
                       target_node := none } target.proc

/-- The thread takes the first of its own work, or else, when it waits for no reply, that of its process. -/
def nextWork (s : State) (x : ThreadId) : Except Bug (Option (Work × State)) := do
  let thread ← s.thread x
  match thread.todo with
  | w :: rest => return some (w, s.setThread x { thread with todo := rest })
  | [] =>
    if thread.transaction_stack ≠ none then return none
    else
      let proc ← s.proc thread.proc
      match proc.todo with
      | w :: rest => return some (w, s.setProc thread.proc { proc with todo := rest })
      | [] => return none

/-- The transaction is handed to the thread. -/
def receive (s : State) (x : ThreadId) (t : TransactionId) : Except Bug State := do
  let transaction ← s.transaction t
  -- `t->from->proc->tsk`
  let _ ← s.inProc 0 transaction.from_thread
  if transaction.target_node = none then return s.kfree t
  else
    let thread ← s.thread x
    return (s.setTransaction t { transaction with to_parent := thread.transaction_stack, to_thread := some x }).setThread x
      { thread with transaction_stack := some t }

/-- `binder_thread_read`, up to the first work. Errors go first, and two of them may need more room than there is. -/
def binder_thread_read (s : State) (x : ThreadId) (room : Bool) : Except Bug State := do
  let thread ← s.thread x
  if thread.return_error ≠ .BR_OK then
    if thread.return_error2 ≠ .BR_OK ∧ !room then return s
    else return s.setThread x { thread with return_error := .BR_OK, return_error2 := .BR_OK }
  else
    match ← s.nextWork x with
    | none => return s
    | some (.transaction_complete, s) => return s
    | some (.transaction t, s) => s.receive x t

/-- The transactions on the stack of a thread forget the thread. -/
def clearStack (x : ThreadId) : Nat → State → Option TransactionId → Except Bug State
  | _, s, none => .ok s
  | 0, _, some _ => .error .hang
  | fuel + 1, s, some t => do
    let transaction ← s.transaction t
    if transaction.to_thread = some x then
      clearStack x fuel (s.setTransaction t { transaction with to_proc := none, to_thread := none }) transaction.to_parent
    else if transaction.from_thread = some x then
      clearStack x fuel (s.setTransaction t { transaction with from_thread := none }) transaction.from_parent
    else .error .bug

/-- What was to be received is dropped; who waits for a reply to it is told so. -/
def releaseTransaction (s : State) (t : TransactionId) : Except Bug State := do
  let transaction ← s.transaction t
  if transaction.target_node = none then return s.kfree t
  else s.binder_send_failed_reply t .BR_DEAD_REPLY

def binder_release_work : State → List Work → Except Bug State
  | s, [] => .ok s
  | s, .transaction_complete :: list => s.binder_release_work list
  | s, .transaction t :: list => do
    let s ← s.releaseTransaction t
    s.binder_release_work list

/-- `if (t && t->to_thread == thread)` -/
def sendReply (s : State) (x : ThreadId) (top : Option TransactionId) : Except Bug (Option TransactionId) :=
  match top with
  | none => .ok none
  | some t => do
    let transaction ← s.transaction t
    return if transaction.to_thread = some x then some t else none

def failReply (s : State) (send_reply : Option TransactionId) : Except Bug State :=
  match send_reply with
  | none => .ok s
  | some t => s.binder_send_failed_reply t .BR_DEAD_REPLY

/-- A transaction may be on the stack twice, sent and received. -/
def binder_free_thread (s : State) (x : ThreadId) : Except Bug State := do
  let thread ← s.thread x
  let send_reply ← s.sendReply x thread.transaction_stack
  let s ← clearStack x (2 * s.transactions.size) s thread.transaction_stack
  let s ← s.failReply send_reply
  let thread ← s.thread x
  let s ← (s.setThread x { thread with todo := [] }).binder_release_work thread.todo
  return { s with threads := s.threads.erase x }

def freeThreads : State → List ThreadId → Except Bug State
  | s, [] => .ok s
  | s, x :: xs => do
    let s ← s.binder_free_thread x
    s.freeThreads xs

/-- The threads of a process, as `rb_first` finds them. -/
def threadsOf (s : State) (p : ProcId) : List ThreadId :=
  (s.threads.entries.filter fun e => e.2.proc == p).map Prod.fst

/-- The nodes of a process die with it. -/
def releaseNodes (s : State) (p : ProcId) : State :=
  { s with nodes := fun n => if s.nodes n = some p then none else s.nodes n }

def binder_deferred_release (s : State) (p : ProcId) : Except Bug State := do
  let s ← s.freeThreads (s.threadsOf p)
  let s := s.releaseNodes p
  let proc ← s.proc p
  let s ← (s.setProc p { proc with todo := [] }).binder_release_work proc.todo
  return { s with procs := s.procs.erase p }

end State

/-- What processes do, and what comes of it. New objects are where none is. -/
inductive Step where
  /-- `binder_open` -/
  | binder_open (p : ProcId)
  /-- `binder_get_thread` -/
  | binder_get_thread (x : ThreadId) (p : ProcId)
  /-- `binder_new_node` -/
  | binder_new_node (n : NodeId) (p : ProcId)
  /-- A transaction for a node, or for a handle that is none. -/
  | BC_TRANSACTION (x : ThreadId) (t : TransactionId) (target : Option NodeId) (fails : Bool)
  | BC_REPLY (x : ThreadId) (t : TransactionId) (fails : Bool)
  /-- `BC_REQUEST_DEATH_NOTIFICATION` without memory for it. -/
  | death_failed (x : ThreadId)
  | binder_thread_read (x : ThreadId) (room : Bool)
  /-- `BINDER_THREAD_EXIT` -/
  | thread_exit (x : ThreadId)
  | binder_deferred_release (p : ProcId)

namespace State

/-- The thread may write: `binder_thread_write` stops at an error. -/
def mayWrite (s : State) (x : ThreadId) : Bool :=
  match s.threads.find? x with
  | some thread => thread.return_error == .BR_OK
  | none => false

def step (s : State) : Step → Option (Except Bug State)
  | .binder_open p => if p ∉ s.procs then some (.ok (s.setProc p {})) else none
  | .binder_get_thread x p => if p ∈ s.procs ∧ x ∉ s.threads then some (.ok (s.setThread x { proc := p })) else none
  | .binder_new_node n p =>
    if p ∈ s.procs ∧ s.nodes n = none then
      some (.ok { s with nodes := fun m => if m = n then some p else s.nodes m })
    else none
  | .BC_TRANSACTION x t target fails =>
    if s.mayWrite x ∧ t ∉ s.transactions then some (s.transact x t target fails) else none
  | .BC_REPLY x t fails => if s.mayWrite x ∧ t ∉ s.transactions then some (s.reply x t fails) else none
  | .death_failed x => if s.mayWrite x then some (s.fail x none .BR_ERROR) else none
  | .binder_thread_read x room => if x ∈ s.threads then some (s.binder_thread_read x room) else none
  | .thread_exit x => if x ∈ s.threads then some (s.binder_free_thread x) else none
  | .binder_deferred_release p => if p ∈ s.procs then some (s.binder_deferred_release p) else none

end State

/-- A bug ends the run. -/
def machine : Machine (Except Bug State) Step where
  init := .ok {}
  step s c :=
    match s with
    | .error _ => none
    | .ok s => s.step c

end Calls

end AnboxReboxed.Binder
