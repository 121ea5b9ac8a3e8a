import AnboxReboxed.Lib.LinkedList
import AnboxReboxed.Lib.Machine
import AnboxReboxed.Lib.SearchTree
import Mathlib.Algebra.Group.Nat.Defs

/-!
# The buffer area of a process

The data of the transactions for a process is in an area that the process has mapped. The area is tiled by buffers,
each with its header in front of its data, and only the pages that are in use are backed by memory. Addresses are
counted from `proc->buffer`, which begins a page.
-/

namespace AnboxReboxed.Binder

open AnboxReboxed.Lib

def PAGE_SIZE : Nat := 4096

/-- `sizeof(struct binder_buffer)` where pointers have 64 bits. The data begins behind it. -/
def header : Nat := 88

/-- `ALIGN(x, sizeof(void *))` -/
def ALIGN (x : Nat) : Nat := (x + 7) % 2 ^ 64 / 8 * 8

/-- `PAGE_ALIGN`, as the number of the page. -/
def pageAlign (a : Nat) : Nat := (PAGE_SIZE - 1 + a) / PAGE_SIZE

/-- `& PAGE_MASK`, as the number of the page. -/
def pageOf (a : Nat) : Nat := a / PAGE_SIZE

abbrev TransactionId := Nat

structure Buffer where
  addr : Nat
  free : Bool
  allow_user_free : Bool := false
  async_transaction : Bool := false
  transaction : Option TransactionId := none
  data_size : UInt64 := 0
  offsets_size : UInt64 := 0
  extra_buffers_size : UInt64 := 0

def Buffer.data (b : Buffer) : Nat := b.addr + header

/-- What the data of the buffer takes. -/
def Buffer.size (b : Buffer) : Nat :=
  (ALIGN b.data_size.toNat + ALIGN b.offsets_size.toNat + ALIGN b.extra_buffers_size.toNat) % 2 ^ 64

/-- What is kept of a `binder_transaction` here. -/
structure Transaction where
  buffer : Option Nat
  /-- It waits in a list of work, until it is received. -/
  queued : Bool

/-- What must not happen. -/
inductive Bug where
  /-- A `BUG_ON`, other than that of the page array. -/
  | bug
  /-- An access to something that does not exist. -/
  | dangling
  /-- A page is to be mapped that is mapped already, or that is not in the area. -/
  | page
  /-- A page is to be freed that is not mapped. -/
  | noPage
  /-- A loop that does not come to its end. -/
  | hang
  deriving DecidableEq

def bugOn (c : Bool) : Except Bug Unit := if c then .error .bug else .ok ()

theorem bugOn_ok {c : Bool} (h : c = false) : bugOn c = .ok () := by
  rw [h]
  rfl

/-- `t->buffer = buffer` -/
def setBuffer (transactions : TransactionId → Option Transaction) (t : TransactionId) (buffer : Option Nat) :
    Except Bug (TransactionId → Option Transaction) :=
  match transactions t with
  | none => .error .dangling
  | some transaction => .ok fun u => if u = t then some { transaction with buffer } else transactions u

/-- `buffer->transaction->buffer = NULL` -/
def forgetBuffer (transactions : TransactionId → Option Transaction) (b : Buffer) :
    Except Bug (TransactionId → Option Transaction) :=
  match b.transaction with
  | none => .ok transactions
  | some t => setBuffer transactions t none

/-- What the memory management of the kernel answers. -/
structure Memory where
  /-- The `mm` of the process is still there, and is the one with the mapping. -/
  mm : Bool := true
  /-- One of `alloc_page`, `map_kernel_range_noflush` and `vm_insert_page` fails for the page. -/
  fails : Nat → Bool := fun _ => false
  /-- What the memory of a new header holds. -/
  stale : Buffer := { addr := 0, free := false }

structure Proc where
  /-- `proc->buffer`, as the number of the page. -/
  base : Nat
  user_buffer_offset : UInt64
  vma : Bool
  /-- `buffer_size`, in pages. -/
  page_count : Nat
  /-- The pages that are mapped. -/
  pages : Nat → Bool
  buffers : List Buffer
  free_buffers : SearchTree Nat
  allocated_buffers : SearchTree Nat
  free_async_space : Nat

namespace Proc

def buffer_size (p : Proc) : Nat := p.page_count * PAGE_SIZE

/-- The buffer at an address. -/
def deref (p : Proc) (a : Nat) : Except Bug Buffer :=
  match LinkedList.get Buffer.addr a p.buffers with
  | none => .error .dangling
  | some b => .ok b

def next (p : Proc) (a : Nat) : Option Buffer := LinkedList.next Buffer.addr a p.buffers

def prev (p : Proc) (a : Nat) : Option Buffer := LinkedList.prev Buffer.addr a p.buffers

def update (p : Proc) (a : Nat) (f : Buffer → Buffer) : Proc :=
  { p with buffers := LinkedList.modify Buffer.addr a f p.buffers }

def binder_buffer_size (p : Proc) (a : Nat) : Nat :=
  match p.next a with
  | none => p.buffer_size - (a + header)
  | some next => next.addr - (a + header)

variable (B : SearchTree.Balancing Nat)

def binder_insert_free_buffer (p : Proc) (new : Nat) : Except Bug Proc := do
  let new_buffer ← p.deref new
  bugOn !new_buffer.free
  let tree ← p.free_buffers.link (fun parent => do
    let buffer ← p.deref parent
    bugOn !buffer.free
    return decide (p.binder_buffer_size new < p.binder_buffer_size parent)) new
  return { p with free_buffers := B.insert_color new tree }

def binder_insert_allocated_buffer (p : Proc) (new : Nat) : Except Bug Proc := do
  let new_buffer ← p.deref new
  bugOn new_buffer.free
  let tree ← p.allocated_buffers.link (fun parent => do
    let buffer ← p.deref parent
    bugOn buffer.free
    bugOn (new == parent)
    return decide (new < parent)) new
  return { p with allocated_buffers := B.insert_color new tree }

def binder_buffer_lookup (p : Proc) (user_ptr : UInt64) : Except Bug (Option Nat) :=
  let kern_ptr := (user_ptr - p.user_buffer_offset - UInt64.ofNat header).toNat
  p.allocated_buffers.find fun n => do
    let buffer ← p.deref n
    bugOn buffer.free
    return compare kern_ptr (p.base * PAGE_SIZE + n)

/-- The address of the data of a buffer for the process. -/
def user_ptr (p : Proc) (a : Nat) : UInt64 := UInt64.ofNat (p.base * PAGE_SIZE + a + header) + p.user_buffer_offset

/-- The pages from `start` on are freed, the last one first. -/
def freePages (start : Nat) : Nat → (Nat → Bool) → Except Bug (Nat → Bool)
  | 0, pages => .ok pages
  | n + 1, pages =>
    if pages (start + n) then freePages start n fun k => if k = start + n then false else pages k
    else .error .noPage

/-- The pages from `page` on are mapped. When this fails for one of them, those from `start` on are freed again. -/
def allocPages (count : Nat) (fails : Nat → Bool) (start : Nat) :
    Nat → Nat → (Nat → Bool) → Except Bug (Bool × (Nat → Bool))
  | _, 0, pages => .ok (true, pages)
  | page, n + 1, pages =>
    if pages page || decide (count ≤ page) then .error .page
    else if fails page then do
      let pages ← freePages start (page - start) pages
      return (false, pages)
    else allocPages count fails start (page + 1) n fun k => if k = page then true else pages k

/-- `binder_update_page_range` with `allocate`; `mm` is whether there is a mapping. -/
def mapPages (p : Proc) (mm : Bool) (fails : Nat → Bool) (start stop : Nat) : Except Bug (Bool × Proc) :=
  if stop ≤ start then .ok (true, p)
  else if !mm then .ok (false, p)
  else do
    let (ok, pages) ← allocPages p.page_count fails start start (stop - start) p.pages
    return (ok, { p with pages })

/-- `binder_update_page_range` without `allocate`. -/
def unmapPages (p : Proc) (start stop : Nat) : Except Bug Proc :=
  if stop ≤ start then .ok p
  else do
    let pages ← freePages start (stop - start) p.pages
    return { p with pages }

/-- The size of the data, unless it cannot be represented. -/
def checkedSize (data_size offsets_size extra_buffers_size : UInt64) : Option Nat :=
  let data_offsets_size := (ALIGN data_size.toNat + ALIGN offsets_size.toNat) % 2 ^ 64
  if data_offsets_size < data_size.toNat ∨ data_offsets_size < offsets_size.toNat then none
  else
    let size := (data_offsets_size + ALIGN extra_buffers_size.toNat) % 2 ^ 64
    if size < data_offsets_size ∨ size < extra_buffers_size.toNat then none else some size

/-- `binder_alloc_buf`: the buffer that was found is allocated. -/
def takeBuffer (p : Proc) (buffer : Nat) : Except Bug Proc :=
  let p := { p with free_buffers := B.erase buffer p.free_buffers }
  let p := p.update buffer fun b => { b with free := false }
  p.binder_insert_allocated_buffer B buffer

/-- `binder_alloc_buf`: what is left behind the data is a new free buffer, when there is room for its header. -/
def splitBuffer (p : Proc) (buffer size used : Nat) (stale : Buffer) : Except Bug Proc :=
  if used ≠ size then
    let new_buffer := { stale with addr := buffer + header + size, free := true }
    let p := { p with buffers := LinkedList.add Buffer.addr buffer new_buffer p.buffers }
    p.binder_insert_free_buffer B new_buffer.addr
  else .ok p

/-- `binder_alloc_buf`: how much of a buffer with `room` bytes is used, with the header of a new one behind the data. -/
def usedSize (size room : Nat) (exact : Bool) : Nat :=
  if exact then room
  else if size + header + 4 ≥ room then size -- no room for other buffers
  else size + header

/-- `binder_alloc_buf`: the sizes are written down. -/
def fillBuffer (p : Proc) (buffer : Nat) (data_size offsets_size extra_buffers_size : UInt64) (is_async : Bool)
    (size : Nat) : Proc :=
  let p := p.update buffer fun b =>
    { b with data_size, offsets_size, extra_buffers_size, async_transaction := is_async }
  if is_async then { p with free_async_space := p.free_async_space - (size + header) } else p

/-- `binder_alloc_buf` behind the search. -/
def useBuffer (p : Proc) (data_size offsets_size extra_buffers_size : UInt64) (is_async : Bool) (m : Memory)
    (size : Nat) (buffer : Nat) (exact : Bool) : Except Bug (Proc × Option Nat) := do
  let room := p.binder_buffer_size buffer
  let used := usedSize size room exact
  let has_page := pageOf (buffer + header + room)
  let end_page := min (pageAlign (buffer + header + used)) has_page
  let (ok, p) ← p.mapPages (m.mm && p.vma) m.fails (pageAlign (buffer + header)) end_page
  if !ok then return (p, none)
  else
    let p ← p.takeBuffer B buffer
    let p ← p.splitBuffer B buffer size used m.stale
    return (p.fillBuffer buffer data_size offsets_size extra_buffers_size is_async size, some buffer)

def binder_alloc_buf (p : Proc) (data_size offsets_size extra_buffers_size : UInt64) (is_async : Bool) (m : Memory) :
    Except Bug (Proc × Option Nat) :=
  if !p.vma then .ok (p, none)
  else
    match checkedSize data_size offsets_size extra_buffers_size with
    | none => .ok (p, none)
    | some size =>
      if is_async ∧ p.free_async_space < (size + header) % 2 ^ 64 then .ok (p, none)
      else do
        let (best_fit, exact) ← p.free_buffers.bestFit (fun n => do
          let buffer ← p.deref n
          bugOn !buffer.free
          return p.binder_buffer_size n) size none
        match best_fit with
        | none => return (p, none)
        | some buffer => p.useBuffer B data_size offsets_size extra_buffers_size is_async m size buffer exact

/-- `buffer_start_page` -/
def buffer_start_page (a : Nat) : Nat := pageOf a

/-- `buffer_end_page` -/
def buffer_end_page (a : Nat) : Nat := pageOf (a + header - 1)

/-- Whether the first and the last page of the header at `buffer` are to be freed: nothing else is on them. -/
def unsharedPages (prev buffer : Nat) (next : Option Nat) : Bool × Bool :=
  let share_prev := decide (buffer_end_page prev = buffer_start_page buffer)
  let free_page_start := !share_prev
  let free_page_end := !(share_prev && decide (buffer_end_page prev = buffer_end_page buffer))
  match next with
  | none => (free_page_start, free_page_end)
  | some next =>
    if buffer_start_page next = buffer_end_page buffer then
      (free_page_start && decide (buffer_start_page next ≠ buffer_start_page buffer), false)
    else (free_page_start, free_page_end)

/-- The header of a free buffer behind a free one is given up. -/
def binder_delete_free_buffer (p : Proc) (buffer : Nat) : Except Bug Proc :=
  match p.prev buffer with
  | none => .error .bug
  | some prev => do
    bugOn !prev.free
    let (free_page_start, free_page_end) := unsharedPages prev.addr buffer ((p.next buffer).map Buffer.addr)
    let p := { p with buffers := LinkedList.del Buffer.addr buffer p.buffers }
    if free_page_start || free_page_end then
      p.unmapPages (if free_page_start then buffer_start_page buffer else buffer_end_page buffer)
        ((if free_page_end then buffer_end_page buffer else buffer_start_page buffer) + 1)
    else return p

/-- `binder_free_buf`: a free buffer behind the buffer is merged into it. -/
def mergeNext (p : Proc) (buffer : Nat) : Except Bug Proc :=
  match p.next buffer with
  | none => .ok p
  | some next =>
    if next.free then
      binder_delete_free_buffer { p with free_buffers := B.erase next.addr p.free_buffers } next.addr
    else .ok p

/-- `binder_free_buf`: the buffer is merged into a free one before it. -/
def mergePrev (p : Proc) (buffer : Nat) : Except Bug (Proc × Nat) :=
  match p.prev buffer with
  | none => .ok (p, buffer)
  | some prev =>
    if prev.free then do
      let p ← p.binder_delete_free_buffer buffer
      return ({ p with free_buffers := B.erase prev.addr p.free_buffers }, prev.addr)
    else .ok (p, buffer)

def binder_free_buf (p : Proc) (buffer : Nat) : Except Bug Proc := do
  let b ← p.deref buffer
  let buffer_size := p.binder_buffer_size buffer
  bugOn b.free
  bugOn (decide (b.size > buffer_size))
  bugOn b.transaction.isSome
  bugOn (decide (buffer > p.buffer_size))
  let p := if b.async_transaction then { p with free_async_space := p.free_async_space + (b.size + header) } else p
  let p ← p.unmapPages (pageAlign b.data) (pageOf (b.data + buffer_size))
  let p := { p with allocated_buffers := B.erase buffer p.allocated_buffers }
  let p := p.update buffer fun b => { b with free := true }
  let p ← p.mergeNext B buffer
  let (p, buffer) ← p.mergePrev B buffer
  p.binder_insert_free_buffer B buffer

/-- `SZ_4M`, in pages. -/
def SZ_4M : Nat := 1024

/-- A process with an area of `len` pages before anything is in it. -/
def reserved (vm_start : UInt64) (len base : Nat) : Proc where
  base := base
  user_buffer_offset := vm_start - UInt64.ofNat (base * PAGE_SIZE)
  vma := false
  page_count := min len SZ_4M
  pages := fun _ => false
  buffers := []
  free_buffers := .leaf
  allocated_buffers := .leaf
  free_async_space := 0

/-- `binder_mmap` of `len` pages; the kernel finds the area at the page `base`. -/
def binder_mmap (vm_start : UInt64) (len base : Nat) (m : Memory) : Except Bug (Option Proc) := do
  let (ok, p) ← (reserved vm_start len base).mapPages true m.fails 0 1
  if !ok then return none
  else
    let p ← { p with buffers := [{ addr := 0, free := true }] }.binder_insert_free_buffer B 0
    return some { p with free_async_space := p.buffer_size / 2, vma := true }

/-- The loop of `binder_deferred_release` over the buffers that are left; `n` bounds the rounds. -/
def releaseBuffers : Nat → (TransactionId → Option Transaction) → Proc →
    Except Bug ((TransactionId → Option Transaction) × Proc)
  | n, transactions, p =>
    match p.allocated_buffers.toList with
    | [] => .ok (transactions, p)
    | first :: _ =>
      match n with
      | 0 => .error .bug
      | n + 1 => do
        let b ← p.deref first
        let transactions ← forgetBuffer transactions b
        let p := p.update first fun b => { b with transaction := none }
        let p ← p.binder_free_buf B first
        releaseBuffers n transactions p

end Proc

end AnboxReboxed.Binder
