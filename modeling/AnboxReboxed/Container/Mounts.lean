import AnboxReboxed.Lib.Delimited
import AnboxReboxed.Lib.Scanf
import AnboxReboxed.Lib.Wire
import Mathlib.Data.List.Dedup

/-!
# Stale mounts

The container manager finds the mount points in `mountinfo` and detaches those of Anbox Reboxed, the longest path first.
The kernel is a parameter: what is mounted, what `umount2` answers, and that a mount that was detached is gone.
-/

namespace AnboxReboxed.Container

open AnboxReboxed.Lib
open AnboxReboxed.Lib.Scanf (isSpace)

abbrev Path := ByteString

local instance lawfulBEqPath : LawfulBEq Path := inferInstance

def newline (c : UInt8) : Bool := c == 10

/-! ## What the kernel writes -/

/-- The characters that are written as an escape. -/
def escaped (c : UInt8) : Bool := c == 32 || c == 9 || c == 10 || c == 92

/-- A backslash and three octal digits. -/
def octalEscape (c : UInt8) : ByteString :=
  [92, .ofNat (48 + c.toNat / 64), .ofNat (48 + c.toNat / 8 % 8), .ofNat (48 + c.toNat % 8)]

def escapePath (path : Path) : ByteString := path.flatMap fun c => if escaped c then octalEscape c else [c]

/-- A field without white space. -/
structure Field where
  text : ByteString
  ne_nil : text ≠ []
  noSpace : ∀ c ∈ text, isSpace c = false

/-- A mount with the other fields of its line. -/
structure Mount where
  id : Field
  parent : Field
  device : Field
  root : Field
  mountpoint : Path
  options : ByteString
  absolute : mountpoint.head? = some 47
  /-- There is no CR, VT or FF in the path. -/
  plain : ∀ c ∈ mountpoint, c ≠ 13 ∧ c ≠ 11 ∧ c ≠ 12
  oneLine : ∀ c ∈ options, newline c = false

namespace Mount

/-- The line of `mountinfo`, up to its end. -/
def line (m : Mount) : ByteString :=
  m.id.text ++ 32 :: (m.parent.text ++ 32 :: (m.device.text ++ 32 :: (m.root.text ++
    32 :: (escapePath m.mountpoint ++ 32 :: m.options))))

end Mount

/-- `/proc/self/mountinfo` -/
def mountinfo (mounts : List Mount) : ByteString := mounts.flatMap fun m => m.line ++ [10]

/-! ## The container manager -/

def octalDigit (c : UInt8) : Bool := 48 ≤ c && c ≤ 55

/-- The character that three octal digits stand for. -/
def octalValue : ByteString → Option UInt8
  | a :: b :: c :: _ =>
    if octalDigit a && octalDigit b && octalDigit c then
      some (.ofNat ((a.toNat - 48) * 64 + (b.toNat - 48) * 8 + c.toNat - 48))
    else none
  | _ => none

/-- The loop of `decode_mountinfo_path`, which goes over the next `skip` characters. -/
def decodeFrom : Nat → ByteString → ByteString
  | _, [] => []
  | skip + 1, _ :: encoded => decodeFrom skip encoded
  | 0, c :: encoded =>
    match if c = 92 then octalValue encoded else none with
    | some value => value :: decodeFrom 3 encoded
    | none => c :: decodeFrom 0 encoded

def decode_mountinfo_path (encoded : ByteString) : Path := decodeFrom 0 encoded

/-- The fifth field of every line that has one. -/
def current_mountpoints (text : ByteString) : List Path :=
  (Delimited.lines newline text).filterMap fun line => (Delimited.words isSpace line)[4]?.map decode_mountinfo_path

inductive UmountResult where
  | detached
  /-- `EINVAL` or `ENOENT`. -/
  | gone
  | failed
  deriving DecidableEq

/-- The kernel, with the part of the file system library that is used. -/
structure MountHost (ω : Type) where
  mounts : ω → List Mount
  umount2 : ω → Path → UmountResult × ω
  lexically_normal : Path → Path
  /-- What is detached is no longer mounted. -/
  detached_lt : ∀ w path, (umount2 w path).1 = .detached → (mounts (umount2 w path).2).length < (mounts w).length

namespace MountHost

variable {ω : Type} (host : MountHost ω)

def is_mountpoint (w : ω) (path : Path) : Bool :=
  host.lexically_normal path ∈ current_mountpoints (mountinfo (host.mounts w))

def safe_umount (w : ω) (path : Path) : Bool × ω :=
  if host.is_mountpoint w path then
    match _h : (host.umount2 w path).1 with
    | .detached => safe_umount (host.umount2 w path).2 path
    | .gone => (true, (host.umount2 w path).2)
    | .failed => (false, (host.umount2 w path).2)
  else (true, w)
termination_by (host.mounts w).length
decreasing_by exact host.detached_lt w path _h

end MountHost

/-- `data_dir / name` -/
def dataPath (data_dir : Path) (name : String) : Path :=
  (if data_dir = [] ∨ data_dir.getLast? = some 47 then data_dir else data_dir ++ [47]) ++ ByteString.of name

def combined_rootfs_dir (data_dir : Path) : Path := dataPath data_dir "combined-rootfs"

def rootfs_dir (data_dir : Path) : Path := dataPath data_dir "rootfs"

def vendor_rootfs (data_dir : Path) : Path := dataPath data_dir "vendor-rootfs"

/-- The mount points that are detached. -/
def Candidate (data_dir mountpoint : Path) : Prop :=
  (mountpoint = combined_rootfs_dir data_dir ∨ combined_rootfs_dir data_dir ++ [47] <+: mountpoint) ∨
    mountpoint = vendor_rootfs data_dir ∨ mountpoint = rootfs_dir data_dir

instance (data_dir mountpoint : Path) : Decidable (Candidate data_dir mountpoint) :=
  inferInstanceAs (Decidable (_ ∨ _))

/-- The order of the cleanup; of the candidates only the set matters. -/
def cleanupOrder (left right : Path) : Bool :=
  if left.length ≠ right.length then right.length < left.length else right ≤ left

/-- What a cleanup leaves, with the calls of `safe_umount`. -/
structure Cleanup (ω : Type) where
  world : ω
  success : Bool := true
  calls : List Path := []

def cleanup_anbox_mounts {ω : Type} (host : MountHost ω) (data_dir : Path) (w : ω) : Cleanup ω :=
  let mountpoints := current_mountpoints (mountinfo (host.mounts w))
  let candidates := (mountpoints.filter fun mountpoint => Candidate data_dir mountpoint).dedup
  let ordered := candidates.mergeSort cleanupOrder
  ordered.foldl
    (fun c mountpoint =>
      let (success, world) := host.safe_umount c.world mountpoint
      { world, success := success && c.success, calls := c.calls ++ [mountpoint] })
    { world := w }

/-- `inner` lies below `outer`. -/
def Below (outer inner : Path) : Prop :=
  ∃ tail, tail ≠ [] ∧ inner = outer ++ tail ∧ (outer.getLast? = some 47 ∨ tail.head? = some 47)

end AnboxReboxed.Container
