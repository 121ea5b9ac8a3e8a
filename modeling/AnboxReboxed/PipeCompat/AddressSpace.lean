import AnboxReboxed.Lib.Machine
import Mathlib.Logic.Function.Basic
import Mathlib.Order.Basic

/-!
# Address space descriptors

The shim of the vendor image stands between a process and the system calls for descriptors. What is opened as
`/dev/goldfish_address_space` is `/dev/zero` in truth, and a table says which descriptors stand for it. Each system
call and each read or update of the table is a step of its own, so that the threads of the process interleave there.
-/

namespace AnboxReboxed.PipeCompat

open AnboxReboxed.Lib Function

/-- The device and the inode that `fstat` tells. -/
abbrev Identity := Nat × Nat

/-- An open file. It is an address space when `__open_2` made it for one. -/
structure Description where
  identity : Identity
  space : Bool
  deriving DecidableEq

/-- The descriptors of the process, which its threads share. -/
abbrev Kernel := Nat → Option Description

structure AddressSpaceFd where
  identity : Identity := (0, 0)
  active : Bool := false
  deriving DecidableEq

abbrev Table := Nat → AddressSpaceFd

/-- The size of `address_space_fds`. -/
def limit : Nat := 1024

/-- A system call that changes the descriptors. -/
inductive Syscall where
  | openat (fd : Nat) (description : Description)
  | close (fd : Nat)
  | close_range (first last : Nat)
  | dup (oldfd newfd : Nat)

def Kernel.run (k : Kernel) : Syscall → Kernel
  | .openat fd description => update k fd (some description)
  | .close fd => update k fd none
  | .close_range first last => fun fd => if first ≤ fd ∧ fd ≤ last then none else k fd
  | .dup oldfd newfd => update k newfd (k oldfd)

/-- The kernel hands out the lowest descriptor that is free. -/
def Kernel.Lowest (k : Kernel) (least fd : Nat) : Prop :=
  least ≤ fd ∧ k fd = none ∧ ∀ g < fd, least ≤ g → k g ≠ none

instance (k : Kernel) (least fd : Nat) : Decidable (k.Lowest least fd) :=
  inferInstanceAs (Decidable (least ≤ fd ∧ k fd = none ∧ ∀ g < fd, least ≤ g → k g ≠ none))

/-- Where a thread is in a wrapper. -/
inductive Pc where
  | idle
  /-- `connect_qemu_pipe`, with a socket. -/
  | connect (fd : Nat)
  /-- Before the system call of `close`, in `connect_qemu_pipe`. -/
  | closing (fd : Nat)
  | clear (fd : Nat)
  | clear_range (fd last : Nat)
  | track_fstat (fd : Nat)
  | track_clear (fd : Nat) (identity : Identity)
  | track_write (fd : Nat) (identity : Identity)
  | dup_clear (oldfd newfd : Nat)
  | dup_active (oldfd newfd : Nat)
  | dup_fstat (oldfd newfd : Nat)
  | dup_compare (oldfd newfd : Nat) (identity : Identity)
  | mismatch (oldfd : Nat)
  | dup_load (oldfd newfd : Nat)
  | dup_store (newfd : Nat) (entry : AddressSpaceFd)
  deriving DecidableEq

/-- A call of a wrapper. The result is that of the system call, where it may fail or chooses something. -/
inductive Call where
  /-- `__open_2` of the address space. -/
  | open_address_space (result : Option (Nat × Identity))
  /-- `__open_2`, `open` and `openat` of any other file. -/
  | open_file (result : Option (Nat × Identity))
  /-- `__open_2`, `open` and `openat` of a goldfish pipe. -/
  | open_pipe (result : Option (Nat × Identity))
  | close (fd : Nat)
  | close_range (first last : Nat) (cloexec : Bool)
  | dup (oldfd : Nat) (result : Option Nat)
  | dup2 (oldfd newfd : Nat)
  | dup3 (oldfd newfd : Nat)
  /-- `fcntl` with `F_DUPFD` or `F_DUPFD_CLOEXEC`. -/
  | fcntl_dupfd (fd argument : Nat) (result : Option Nat)

structure Shim where
  kernel : Kernel
  address_space_fds : Table := fun _ => {}
  pc : Nat → Pc := fun _ => .idle

def clear_address_space_fd (table : Table) (fd : Nat) : Table := if fd < limit then update table fd {} else table

namespace Shim

/-- `is_address_space_fd`, when no thread is in between. -/
def is_address_space_fd (s : Shim) (fd : Nat) : Bool :=
  fd < limit && (s.address_space_fds fd).active &&
    match s.kernel fd with
    | none => false
    | some d => d.identity = (s.address_space_fds fd).identity

/-- Where `close` goes on after its system call. -/
def after_close (fd : Nat) : Pc := if fd < limit then .clear fd else .idle

/-- Where `duplicate_address_space_fd` begins. -/
def after_dup (oldfd newfd : Nat) : Pc := if newfd < limit then .dup_clear oldfd newfd else .idle

def start_dup (s : Shim) (oldfd least : Nat) : Option Nat → Option (Option Syscall × Pc)
  | none => some (none, .idle)
  | some newfd =>
    if s.kernel oldfd ≠ none ∧ s.kernel.Lowest least newfd then
      some (some (.dup oldfd newfd), after_dup oldfd newfd)
    else none

/-- The first step of a wrapper: its system call, unless that changes nothing, and where it goes on. -/
def start (s : Shim) : Call → Option (Option Syscall × Pc)
  | .open_address_space none | .open_file none | .open_pipe none => some (none, .idle)
  | .open_address_space (some (fd, identity)) =>
    if s.kernel.Lowest 0 fd then
      some (some (.openat fd ⟨identity, true⟩), if fd < limit then .track_fstat fd else .idle)
    else none
  | .open_file (some (fd, identity)) =>
    if s.kernel.Lowest 0 fd then some (some (.openat fd ⟨identity, false⟩), .idle) else none
  | .open_pipe (some (fd, identity)) =>
    if s.kernel.Lowest 0 fd then some (some (.openat fd ⟨identity, false⟩), .connect fd) else none
  | .close fd => if s.kernel fd = none then some (none, .idle) else some (some (.close fd), after_close fd)
  | .close_range first last cloexec =>
    if last < first ∨ cloexec then some (none, .idle)
    else some (some (.close_range first last),
      if first < limit then .clear_range first (min last (limit - 1)) else .idle)
  | .dup oldfd result => s.start_dup oldfd 0 result
  | .dup2 oldfd newfd =>
    if s.kernel oldfd = none ∨ oldfd = newfd then some (none, .idle)
    else some (some (.dup oldfd newfd), after_dup oldfd newfd)
  | .dup3 oldfd newfd =>
    if s.kernel oldfd = none ∨ oldfd = newfd then some (none, .idle)
    else some (some (.dup oldfd newfd), after_dup oldfd newfd)
  | .fcntl_dupfd fd argument result => s.start_dup fd argument result

/-- A further step of a wrapper. The socket may be connected or not. -/
def resume (s : Shim) (connected : Bool) : Pc → Option (Option Syscall × Table × Pc)
  | .idle => none
  | .connect fd => some (none, s.address_space_fds, if connected then .idle else .closing fd)
  | .closing fd =>
    if s.kernel fd = none then some (none, s.address_space_fds, .idle)
    else some (some (.close fd), s.address_space_fds, after_close fd)
  | .clear fd => some (none, clear_address_space_fd s.address_space_fds fd, .idle)
  | .clear_range fd last =>
    some (none, clear_address_space_fd s.address_space_fds fd, if fd < last then .clear_range (fd + 1) last else .idle)
  | .track_fstat fd =>
    match s.kernel fd with
    | none => some (none, s.address_space_fds, .idle)
    | some d => some (none, s.address_space_fds, .track_clear fd d.identity)
  | .track_clear fd identity =>
    some (none, clear_address_space_fd s.address_space_fds fd, .track_write fd identity)
  | .track_write fd identity => some (none, update s.address_space_fds fd ⟨identity, true⟩, .idle)
  | .dup_clear oldfd newfd => some (none, clear_address_space_fd s.address_space_fds newfd, .dup_active oldfd newfd)
  | .dup_active oldfd newfd =>
    some (none, s.address_space_fds,
      if oldfd < limit ∧ (s.address_space_fds oldfd).active then .dup_fstat oldfd newfd else .idle)
  | .dup_fstat oldfd newfd =>
    match s.kernel oldfd with
    | none => some (none, s.address_space_fds, .mismatch oldfd)
    | some d => some (none, s.address_space_fds, .dup_compare oldfd newfd d.identity)
  | .dup_compare oldfd newfd identity =>
    some (none, s.address_space_fds,
      if identity = (s.address_space_fds oldfd).identity then .dup_load oldfd newfd else .mismatch oldfd)
  | .mismatch oldfd => some (none, clear_address_space_fd s.address_space_fds oldfd, .idle)
  | .dup_load oldfd newfd => some (none, s.address_space_fds, .dup_store newfd (s.address_space_fds oldfd))
  | .dup_store newfd entry => some (none, update s.address_space_fds newfd entry, .idle)

end Shim

inductive Act where
  | call (c : Call)
  | resume (connected : Bool)

/-- A step of a thread. -/
structure Label where
  thread : Nat
  act : Act

namespace Shim

/-- The system call of a step, what it makes of the table, and where the thread goes on. -/
def next (s : Shim) (l : Label) : Option (Option Syscall × Table × Pc) :=
  match l.act with
  | .call c =>
    if s.pc l.thread = .idle then (s.start c).map fun r => (r.1, s.address_space_fds, r.2) else none
  | .resume connected => s.resume connected (s.pc l.thread)

def step (s : Shim) (l : Label) : Option Shim :=
  (s.next l).map fun r =>
    { kernel := match r.1 with
        | none => s.kernel
        | some c => s.kernel.run c
      address_space_fds := r.2.1
      pc := update s.pc l.thread r.2.2 }

/-- No wrapper is in progress. -/
def Quiet (s : Shim) : Prop := ∀ t, s.pc t = .idle

def IsSpace (s : Shim) (fd : Nat) : Prop := ∃ d, s.kernel fd = some d ∧ d.space = true

/-- The table tells the address spaces, whenever no wrapper is in progress. -/
def Tracked (s : Shim) : Prop := s.Quiet → ∀ fd < limit, s.is_address_space_fd fd = true ↔ s.IsSpace fd

end Shim

namespace Pc

/-- The wrapper has still to update the entry. -/
def Updates (fd : Nat) : Pc → Prop
  | .clear f | .track_fstat f | .track_clear f _ | .track_write f _ | .mismatch f | .dup_store f _ => fd = f
  | .clear_range f last => f ≤ fd ∧ fd ≤ last
  | .dup_clear _ newfd | .dup_active _ newfd | .dup_fstat _ newfd | .dup_compare _ newfd _ | .dup_load _ newfd =>
    fd = newfd
  | .idle | .connect _ | .closing _ => False

/-- The wrapper may still make the entry an active one. -/
def Sets (fd : Nat) : Pc → Prop
  | .track_fstat f | .track_clear f _ | .track_write f _ | .dup_store f _ => fd = f
  | .dup_clear _ newfd | .dup_active _ newfd | .dup_fstat _ newfd | .dup_compare _ newfd _ | .dup_load _ newfd =>
    fd = newfd
  | .idle | .connect _ | .closing _ | .clear _ | .clear_range _ _ | .mismatch _ => False

/-- The wrapper has still to read the entry. -/
def Reads (fd : Nat) : Pc → Prop
  | .dup_clear oldfd _ | .dup_active oldfd _ | .dup_fstat oldfd _ | .dup_compare oldfd _ _ | .dup_load oldfd _ =>
    fd = oldfd
  | _ => False

end Pc

namespace Shim

/-- No other thread has still to update or to read the entry. -/
def Free (s : Shim) (t fd : Nat) : Prop := ∀ u ≠ t, ¬(s.pc u).Updates fd ∧ ¬(s.pc u).Reads fd

/-- No other thread may still set the entry, or has still to read it. -/
def Unset (s : Shim) (t fd : Nat) : Prop := ∀ u ≠ t, ¬(s.pc u).Sets fd ∧ ¬(s.pc u).Reads fd

/-- A system call comes in time: an address space gets a descriptor whose entry is free, a descriptor goes when its
entry is not to be set or read any more, and is duplicated when its entry is right. -/
def InTime (s : Shim) (t : Nat) : Syscall → Prop
  | .openat fd d => d.space = true → fd < limit → s.Free t fd
  | .close fd => fd < limit → s.Unset t fd
  | .close_range first last => ∀ fd < limit, first ≤ fd → fd ≤ last → s.kernel fd ≠ none → s.Unset t fd
  | .dup oldfd newfd =>
    (s.IsSpace oldfd → newfd < limit → oldfd < limit ∧ s.Free t newfd) ∧
    (newfd < limit → s.kernel newfd ≠ none → s.Unset t newfd) ∧
    (oldfd < limit → newfd < limit → ∀ u ≠ t, ¬(s.pc u).Updates oldfd)

/-- The condition on a step. -/
def Orderly (s : Shim) (l : Label) : Prop := ∀ c table pc, s.next l = some (some c, table, pc) → s.InTime l.thread c

end Shim

/-- A process with the descriptors that it inherited. -/
def shimMachine (inherited : Nat → Option Identity) : Machine Shim Label where
  init := { kernel := fun fd => (inherited fd).map fun identity => { identity, space := false } }
  step := Shim.step

end AnboxReboxed.PipeCompat
