import AnboxReboxed.Binder.BufferArea

/-!
# What the driver does with the buffers of a process

A transaction takes a buffer, the process receives it and gives it back with `BC_FREE_BUFFER`, at any address it likes,
and the transaction ends before or after that. A transaction and its buffer know each other until one of them goes.
-/

namespace AnboxReboxed.Binder

open AnboxReboxed.Lib

/-- The buffer is for the transaction `t`, and not for the process to free. -/
def Buffer.claim (b : Buffer) (t : TransactionId) : Buffer := { b with allow_user_free := false, transaction := some t }

inductive Area where
  | unmapped
  | mapped (proc : Proc)
  | released

structure Driver where
  area : Area := .unmapped
  /-- The transactions that exist. -/
  transactions : TransactionId → Option Transaction := fun _ => none

/-- What happens, with what the kernel answers. -/
inductive Call where
  /-- `binder_mmap` -/
  | mmap (vm_start : UInt64) (len base : Nat) (m : Memory)
  /-- `binder_vma_close` -/
  | vma_close
  /-- `binder_transaction`, up to the buffer. -/
  | transaction (t : TransactionId) (data_size offsets_size extra_buffers_size : UInt64) (is_async : Bool) (m : Memory)
  /-- `binder_transaction` fails behind that. -/
  | copy_data_failed (t : TransactionId)
  /-- `binder_thread_read` hands the transaction to the process; a call that wants a reply is kept. -/
  | received (t : TransactionId) (keep : Bool)
  /-- `binder_pop_transaction` -/
  | pop_transaction (t : TransactionId)
  /-- `binder_release_work` drops a transaction that has not been received. -/
  | release_work (t : TransactionId)
  /-- `binder_free_thread` for a transaction that the thread has received. -/
  | free_thread (t : TransactionId)
  /-- `BC_FREE_BUFFER` -/
  | free_buffer (data_ptr : UInt64)
  /-- `binder_deferred_release` -/
  | deferred_release

namespace Driver

variable (B : SearchTree.Balancing Nat)

/-- `kfree(t)` -/
def kfree (d : Driver) (t : TransactionId) : Driver :=
  { d with transactions := fun u => if u = t then none else d.transactions u }

/-- A process that has mapped its area. -/
def withProc (d : Driver) (f : Proc → Except Bug Driver) : Option (Except Bug Driver) :=
  match d.area with
  | .mapped p => some (f p)
  | _ => none

/-- `t->buffer->transaction = NULL`, for a buffer that must be there. -/
def forget (p : Proc) (buffer : Nat) : Except Bug Proc := do
  let _ ← p.deref buffer
  return p.update buffer fun b => { b with transaction := none }

def binder_transaction (d : Driver) (p : Proc) (t : TransactionId)
    (data_size offsets_size extra_buffers_size : UInt64) (is_async : Bool) (m : Memory) : Except Bug Driver := do
  let (p, buffer) ← p.binder_alloc_buf B data_size offsets_size extra_buffers_size is_async m
  match buffer with
  | none => return { d with area := .mapped p }
  | some buffer =>
    let p := p.update buffer fun b => b.claim t
    return { area := .mapped p,
             transactions := fun u => if u = t then some { buffer := some buffer, queued := true } else d.transactions u }

def err_copy_data_failed (d : Driver) (p : Proc) (t : TransactionId) (buffer : Option Nat) : Except Bug Driver :=
  match buffer with
  | none => .error .dangling
  | some buffer => do
    let p ← forget p buffer
    let p ← p.binder_free_buf B buffer
    return { d with area := .mapped p }.kfree t

def binder_thread_read (d : Driver) (p : Proc) (t : TransactionId) (transaction : Transaction) (keep : Bool) :
    Except Bug Driver :=
  match transaction.buffer with
  | none => .error .bug
  | some buffer => do
    let _ ← p.deref buffer
    let p := p.update buffer fun b => { b with allow_user_free := true }
    if keep then
      return { area := .mapped p,
               transactions := fun u => if u = t then some { transaction with queued := false } else d.transactions u }
    else
      let p ← forget p buffer
      return { d with area := .mapped p }.kfree t

def binder_pop_transaction (d : Driver) (p : Proc) (t : TransactionId) (transaction : Transaction) :
    Except Bug Driver :=
  match transaction.buffer with
  | none => return d.kfree t
  | some buffer => do
    let p ← forget p buffer
    return { d with area := .mapped p }.kfree t

def binder_release_work (d : Driver) (p : Proc) (t : TransactionId) (transaction : Transaction) : Except Bug Driver :=
  match transaction.buffer with
  | none => .error .dangling
  | some buffer => do
    let p ← forget p buffer
    return { d with area := .mapped p }.kfree t

def binder_free_thread (d : Driver) (p : Proc) (t : TransactionId) (transaction : Transaction) : Except Bug Driver :=
  match transaction.buffer with
  | none => return d
  | some buffer => do
    let p ← forget p buffer
    let transactions ← setBuffer d.transactions t none
    return { area := .mapped p, transactions }

def BC_FREE_BUFFER (d : Driver) (p : Proc) (data_ptr : UInt64) : Except Bug Driver := do
  match ← p.binder_buffer_lookup data_ptr with
  | none => return d
  | some buffer =>
    let b ← p.deref buffer
    if !b.allow_user_free then return d
    else
      let transactions ← forgetBuffer d.transactions b
      let p := p.update buffer fun b => { b with transaction := none }
      let p ← p.binder_free_buf B buffer
      return { area := .mapped p, transactions }

/-- The transactions that are left have no buffer any more. -/
def binder_deferred_release (d : Driver) (p : Proc) : Except Bug Driver := do
  bugOn p.vma
  let _ ← Proc.releaseBuffers B p.buffers.length d.transactions p
  return { area := .released }

/-- A transaction that waits to be received. -/
def queued (d : Driver) (t : TransactionId) : Option Transaction :=
  (d.transactions t).filter fun transaction => transaction.queued

/-- A transaction that has been received. -/
def pending (d : Driver) (t : TransactionId) : Option Transaction :=
  (d.transactions t).filter fun transaction => !transaction.queued

def call (d : Driver) : Call → Option (Except Bug Driver)
  -- the kernel maps no empty area, and the area it finds is in the address space
  | .mmap vm_start len base m =>
    match d.area with
    | .unmapped =>
      if 0 < len ∧ (base + min len Proc.SZ_4M) * PAGE_SIZE ≤ 2 ^ 64 then
        some do
          match ← Proc.binder_mmap B vm_start len base m with
          | none => return d
          | some p => return { d with area := .mapped p }
      else none
    | _ => none
  | .vma_close => d.withProc fun p => .ok { d with area := .mapped { p with vma := false } }
  | .transaction t data_size offsets_size extra_buffers_size is_async m =>
    match d.transactions t with
    | some _ => none
    | none => d.withProc fun p => d.binder_transaction B p t data_size offsets_size extra_buffers_size is_async m
  | .copy_data_failed t => (d.queued t).bind fun transaction => d.withProc fun p =>
      d.err_copy_data_failed B p t transaction.buffer
  | .received t keep => (d.queued t).bind fun transaction => d.withProc fun p => d.binder_thread_read p t transaction keep
  | .pop_transaction t => (d.transactions t).bind fun transaction => d.withProc fun p =>
      d.binder_pop_transaction p t transaction
  | .release_work t => (d.queued t).bind fun transaction => d.withProc fun p => d.binder_release_work p t transaction
  | .free_thread t => (d.pending t).bind fun transaction => d.withProc fun p => d.binder_free_thread p t transaction
  | .free_buffer data_ptr => d.withProc fun p => d.BC_FREE_BUFFER B p data_ptr
  -- a file is released after its mappings are gone
  | .deferred_release =>
    match d.area with
    | .mapped p => if p.vma then none else some (d.binder_deferred_release B p)
    | _ => none

/-- A bug ends the run. -/
def machine : Machine (Except Bug Driver) Call where
  init := .ok {}
  step s c :=
    match s with
    | .error _ => none
    | .ok d => d.call B c

end Driver

end AnboxReboxed.Binder
