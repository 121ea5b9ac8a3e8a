import AnboxReboxed.Lib.Fallible
import AnboxReboxed.Lib.Machine
import AnboxReboxed.Scripts.PropertyOverlay
import Mathlib.Data.Char
import Mathlib.Data.List.Dedup
import Mathlib.Data.List.Lex
import Mathlib.Data.List.Sort

/-!
# The managed image for the data of Android

`prepare` makes an ext4 image, copies the legacy data into it, and publishes it when the copy has the same entries.
`enable` selects the image with a marker, and `disable` takes the marker away.
-/

namespace AnboxReboxed.Scripts.DataImage

open AnboxReboxed.Lib
open NativeBridge (Str strip)

/-- The names from the root of a tree. -/
abbrev Path := List Str

local instance lawfulBEqStr : LawfulBEq Str := inferInstance
local instance lawfulBEqPath : LawfulBEq Path := inferInstance

def FORMAT_VERSION : Nat := 1
def ENABLE_MARKER : Str := "managed-ext4-v1\n".toList
def REQUIRED_FEATURES : List Str := ["project".toList, "verity".toList]
def MIN_FREE_MARGIN : Nat := 256 * 1024 * 1024
def MIN_IMAGE_SIZE : Int := 8 * 1024 * 1024 * 1024

/-! ## Trees -/

mutual

/-- What a name in a directory is for: a directory, a link to one, or anything else. -/
inductive Node where
  | file
  | link
  | dir (d : Dir)

inductive Dir where
  | nil
  | cons (name : Str) (node : Node) (rest : Dir)

end

def Dir.directories : Dir → List Str
  | .nil => []
  | .cons _ .file rest => rest.directories
  | .cons name _ rest => name :: rest.directories

def Dir.files : Dir → List Str
  | .nil => []
  | .cons name .file rest => name :: rest.files
  | .cons _ _ rest => rest.files

/-- What `os.walk` yields. -/
structure Visit where
  relative : Path
  directories : List Str
  files : List Str

mutual

/-- `os.walk` with `followlinks=False`, below the root. -/
def Node.walk (relative : Path) : Node → List Visit
  | .file => []
  | .link => []
  | .dir d => ⟨relative, d.directories, d.files⟩ :: Dir.walk relative d

def Dir.walk (relative : Path) : Dir → List Visit
  | .nil => []
  | .cons name node rest => Node.walk (relative ++ [name]) node ++ Dir.walk relative rest

end

def Visit.entries (visit : Visit) : List Path :=
  visit.directories.map (visit.relative ++ [·]) ++ visit.files.map (visit.relative ++ [·])

def tree_entries (root : Dir) : List Path := (Node.walk [] (.dir root)).flatMap Visit.entries

/-- The path leads to something in the tree. -/
inductive Entry : Dir → Path → Prop where
  | here (name : Str) (node : Node) (rest : Dir) : Entry (.cons name node rest) [name]
  | inside {name : Str} {d rest : Dir} {path : Path} : Entry d path → Entry (.cons name (.dir d) rest) (name :: path)
  | later {name : Str} {node : Node} {rest : Dir} {path : Path} : Entry rest path → Entry (.cons name node rest) path

/-- A directory with its extended attributes. -/
structure Root where
  tree : Dir := .nil
  xattrs : List (Str × List UInt8) := []

def Root.listxattr (root : Root) : List Str := root.xattrs.map Prod.fst

/-- There is none where the call raises. -/
def Root.getxattr (root : Root) (name : Str) : Option (List UInt8) := root.xattrs.lookup name

def lost_found : Str := "lost+found".toList

/-- The root of a filesystem that `mkfs.ext4` has made. -/
def fresh : Root := { tree := .cons lost_found (.dir .nil) .nil }

/-! ## The disk -/

structure Filesystem where
  /-- The features in the output of `dumpe2fs`, if it has such a line. -/
  features : Option (List Str)
  root : Root

structure Image where
  mode : Nat
  filesystem : Option Filesystem := none

/-- A file, and the one with `.tmp` behind its name. It has been opened at least, or written, too. -/
structure Slot (α : Type) where
  file : Option (Option α) := none
  temporary : Option (Option α) := none

structure Manifest where
  format_version : Nat := FORMAT_VERSION
  created_utc : Str
  image : String := "android-data.img"
  image_size : Int
  source_allocated_bytes : Nat
  features : List Str
  legacy_data_retained : Bool := true

structure Disk where
  /-- There is none when it is missing or unsafe. -/
  source : Option Root
  managed : Bool := false
  image : Option Image := none
  pending : Option Image := none
  marker : Slot Str := {}
  manifest : Slot Manifest := {}
  /-- How many directories of `mkdtemp` there are. -/
  mountpoints : Nat := 0
  /-- The pending image is mounted on one. -/
  mounted : Bool := false

/-- What is validated, and when. -/
inductive Validation where
  | made
  | checked
  | enabled
  deriving DecidableEq

inductive Target where
  | marker
  | manifest
  deriving DecidableEq

/-- The steps that may fail. -/
inductive Step where
  | lxc_info
  | source_is_dir
  | managed_exists
  | du
  | disk_usage
  | mkdir
  | chmod_managed
  | pending_exists
  | unlink_pending
  /-- `truncate` may fail before or after it makes the file. -/
  | truncate_open
  | truncate
  | chmod_pending
  | mkfs
  | is_file (v : Validation)
  | dumpe2fs (v : Validation)
  | mkdtemp
  | mount
  | cp
  | sync
  | getxattr
  | umount
  | e2fsck
  | replace_image
  | open_temporary (t : Target)
  | write (t : Target)
  | fsync (t : Target)
  | chmod (t : Target)
  | replace (t : Target)
  | rmdir
  | marker_exists
  | unlink_marker
  deriving DecidableEq

/-- What a command raises. -/
inductive Exc where
  | not_root
  | missing_programs (names : List String)
  | container_running (state : Str)
  | unsafe_source
  | already_exists
  | no_space (need have_ : Nat)
  | unsafe_image
  | writable_image
  | unknown_features
  | lacks_features (missing : List Str)
  | tree_differs (missing extra : List Str)
  | xattr_lost (name : Str)
  | xattr_changed (name : Str)
  | called_process_error
  | os_error
  deriving DecidableEq

/-- What is found on the host, and what the programs do. -/
structure Env where
  geteuid : Nat := 0
  which : String → Bool := fun _ => true
  /-- The output of `lxc-info`, if it succeeds. -/
  lxc_info : Option Str := none
  allocated_bytes : Nat
  free : Nat
  size_gib : Int := 8
  /-- The mode of a file that `truncate` makes. -/
  new_mode : Nat := 0o644
  now : Str := []
  /-- The features of a filesystem that `mkfs.ext4` makes, as `dumpe2fs` prints them. -/
  features : Option (List Str)
  /-- What `cp -a` makes of the destination. It only adds to it. -/
  cp : Root → Root → Root
  cp_adds : ∀ source destination path, Entry destination.tree path → Entry (cp source destination).tree path

abbrev Fs := Fallible Exc Step Disk

def file (o : Step) (f : Disk → Disk) : Fs Unit := Fallible.op .os_error o f

def run (o : Step) (f : Disk → Disk) : Fs Unit := Fallible.op .called_process_error o f

/-! ## The checks -/

def require_root (env : Env) : Fs Unit := Fallible.raiseIf (env.geteuid ≠ 0) .not_root

def require_programs (env : Env) (names : List String) : Fs Unit :=
  let missing := names.filter fun name => !env.which name
  Fallible.raiseIf (missing ≠ []) (.missing_programs missing)

def container_state (env : Env) : Str :=
  if !env.which "lxc-info" then "UNKNOWN".toList
  else
    match env.lxc_info with
    | some stdout => strip stdout
    | none => "STOPPED".toList

def stopped_states : List Str := ["STOPPED".toList, "UNKNOWN".toList, []]

def require_container_stopped (env : Env) : Fs Unit := do
  file .lxc_info id
  Fallible.raiseIf (container_state env ∉ stopped_states) (.container_running (container_state env))

/-- A file of the group or of all that may be written. -/
def writable (mode : Nat) : Bool := mode &&& 0o022 != 0

def missing_features (features : List Str) : List Str := REQUIRED_FEATURES.filter (· ∉ features)

/-- `dumpe2fs` fails when there is no filesystem. -/
def image_features (v : Validation) (image : Image) : Fs (List Str) := do
  run (.dumpe2fs v) id
  match image.filesystem with
  | none => Fallible.raise .called_process_error
  | some filesystem =>
    match filesystem.features with
    | none => Fallible.raise .unknown_features
    | some features => return features

def validate_image (v : Validation) (image : Disk → Option Image) : Fs (List Str) := do
  file (.is_file v) id
  match ← Fallible.read image with
  | none => Fallible.raise .unsafe_image
  | some image =>
    Fallible.raiseIf (writable image.mode) .writable_image
    let features ← image_features v image
    Fallible.raiseIf (missing_features features ≠ []) (.lacks_features (missing_features features))
    return features

def posix (path : Path) : Str := ['/'].intercalate path

/-- `sorted(entries - others)` -/
def difference (entries others : List Path) : List Str :=
  ((entries.filter (· ∉ others)).map posix).dedup.insertionSort (· ≤ ·)

/-- The sets of the two trees are one. -/
def same_entries (source destination : Dir) : Prop :=
  (∀ path ∈ tree_entries source, path ∈ tree_entries destination) ∧
    ∀ path ∈ tree_entries destination, path ∈ tree_entries source

instance (source destination : Dir) : Decidable (same_entries source destination) :=
  inferInstanceAs (Decidable (_ ∧ _))

def verify_root_xattrs (source destination : Root) : Fs Unit :=
  match source.listxattr.find? fun name => destination.getxattr name ≠ source.getxattr name with
  | none => return
  | some name =>
    Fallible.raise (if destination.getxattr name = none then .xattr_lost name else .xattr_changed name)

/-! ## Preparing -/

/-- `t` names the steps, and `on` is for the two files on the disk. -/
def atomic_write {α : Type} (t : Target) (on : (Slot α → Slot α) → Disk → Disk) (content : α) : Fs Unit := do
  file (.open_temporary t) (on fun slot => { slot with temporary := some none })
  file (.write t) (on fun slot => { slot with temporary := some (some content) })
  file (.fsync t) id
  file (.chmod t) id
  file (.replace t) (on fun slot => { file := slot.temporary, temporary := none })

def PROGRAMS : List String := ["cp", "du", "dumpe2fs", "e2fsck", "mkfs.ext4", "mount", "sync", "truncate", "umount"]

/-- The checks of `prepare`. -/
def preconditions (env : Env) : Fs Root := do
  require_root env
  require_programs env PROGRAMS
  require_container_stopped env
  file .source_is_dir id
  match ← Fallible.read Disk.source with
  | none => Fallible.raise .unsafe_source
  | some source =>
    file .managed_exists id
    let d ← Fallible.read id
    Fallible.raiseIf (d.image.isSome ∨ d.marker.file.isSome) .already_exists
    run .du id
    file .disk_usage id
    Fallible.raiseIf (env.free < env.allocated_bytes + MIN_FREE_MARGIN)
      (.no_space (env.allocated_bytes + MIN_FREE_MARGIN) env.free)
    return source

def image_size (env : Env) : Int :=
  max (max MIN_IMAGE_SIZE (env.size_gib * 1024 * 1024 * 1024)) (env.allocated_bytes * 2 + 1024 * 1024 * 1024)

def clear : Fs Unit := do
  file .mkdir fun d => { d with managed := true }
  file .chmod_managed id
  file .pending_exists id
  if (← Fallible.read Disk.pending).isSome then file .unlink_pending fun d => { d with pending := none }

def Disk.on_pending (f : Image → Image) (d : Disk) : Disk := { d with pending := d.pending.map f }

def make (env : Env) : Fs Unit := do
  run .truncate_open fun d => { d with pending := some { mode := env.new_mode } }
  run .truncate id
  file .chmod_pending (Disk.on_pending fun image => { image with mode := 0o600 })
  run .mkfs (Disk.on_pending fun image => { image with filesystem := some ⟨env.features, fresh⟩ })
  let _ ← validate_image .made Disk.pending

/-- The root of the pending image. -/
def Disk.destination (d : Disk) : Root := ((d.pending.bind Image.filesystem).map Filesystem.root).getD {}

/-- The copy into the image that is mounted. -/
def Disk.copy (cp : Root → Root) : Disk → Disk :=
  Disk.on_pending fun image =>
    { image with filesystem := image.filesystem.map fun filesystem => { filesystem with root := cp filesystem.root } }

def compare (source : Root) : Fs Unit := do
  let destination ← Fallible.read Disk.destination
  Fallible.raiseIf (¬same_entries source.tree destination.tree)
    (.tree_differs ((difference (tree_entries source.tree) (tree_entries destination.tree)).take 5)
      ((difference (tree_entries destination.tree) (tree_entries source.tree)).take 5))
  file .getxattr id
  verify_root_xattrs source destination

/-- The disk, and the local variables of `prepare` that the handler looks at. -/
structure Migration where
  disk : Disk
  mounted : Bool := false
  /-- It is not `None`. -/
  mountpoint : Bool := false

abbrev Ms := Fallible Exc Step Migration

def onDisk {α : Type} (m : Fs α) : Ms α := Fallible.zoom Migration.disk (fun disk s => { s with disk }) m

/-- The directory is made, and the image is mounted on it. -/
def mount : Ms Unit := do
  Fallible.op .os_error .mkdtemp fun s =>
    { s with disk := { s.disk with mountpoints := s.disk.mountpoints + 1 }, mountpoint := true }
  Fallible.op .called_process_error .mount fun s => { s with disk := { s.disk with mounted := true }, mounted := true }

def unmount : Ms Unit :=
  Fallible.op .called_process_error .umount fun s =>
    { s with disk := { s.disk with mounted := false }, mounted := false }

/-- What is tried, up to the publication. -/
def migrate (env : Env) (source : Root) : Ms (List Str) := do
  onDisk (make env)
  mount
  onDisk (do
    run .cp (Disk.copy (env.cp source))
    run .sync id
    compare source)
  unmount
  onDisk (do
    run .e2fsck id
    validate_image .checked Disk.pending)

def Disk.on_manifest (f : Slot Manifest → Slot Manifest) (d : Disk) : Disk := { d with manifest := f d.manifest }

def Disk.on_marker (f : Slot Str → Slot Str) (d : Disk) : Disk := { d with marker := f d.marker }

def manifest (env : Env) (features : List Str) : Manifest where
  created_utc := env.now
  image_size := image_size env
  source_allocated_bytes := env.allocated_bytes
  features := features.dedup.insertionSort (· ≤ ·)

def publish (env : Env) (features : List Str) : Fs Unit := do
  file .replace_image fun d => { d with image := d.pending, pending := none }
  atomic_write .manifest Disk.on_manifest (manifest env features)

/-- The handler of all exceptions. Its own operations succeed. -/
def undo : Ms Unit := do
  let s ← Fallible.read id
  if s.mounted ∧ s.mountpoint then Fallible.modify fun s => { s with disk := { s.disk with mounted := false } }
  if s.disk.pending.isSome then Fallible.modify fun s => { s with disk := { s.disk with pending := none } }

/-- A directory that something is mounted on cannot be removed. -/
def remove_mountpoint : Ms Unit := do
  if (← Fallible.read Migration.mountpoint) then
    Fallible.ignoring .rmdir fun s =>
      if s.disk.mounted then s else { s with disk := { s.disk with mountpoints := s.disk.mountpoints - 1 } }

def prepare (env : Env) : Fs Unit := do
  let source ← preconditions env
  clear
  Fallible.zoom (fun disk => { disk }) (fun s _ => s.disk) (do
    let _ ← Fallible.ensure
      (Fallible.attempt (do
        let features ← migrate env source
        onDisk (publish env features)) undo) remove_mountpoint)

/-! ## The other commands -/

def enable (env : Env) : Fs Unit := do
  require_root env
  require_container_stopped env
  let _ ← validate_image .enabled Disk.image
  atomic_write .marker Disk.on_marker ENABLE_MARKER

def disable (env : Env) : Fs Unit := do
  require_root env
  require_container_stopped env
  file .marker_exists id
  if (← Fallible.read fun d => d.marker.file).isSome then
    file .unlink_marker (Disk.on_marker fun slot => { slot with file := none })

inductive Command where
  | prepare
  | enable
  | disable
  deriving DecidableEq

structure Label where
  command : Command
  env : Env
  fault : Option Step

def Label.program (l : Label) : Fs Unit :=
  match l.command with
  | .prepare => prepare l.env
  | .enable => enable l.env
  | .disable => disable l.env

/-- There is the legacy data at first, and nothing else. -/
def dataImages (source : Option Root) : Machine Disk Label where
  init := { source }
  step d l := some (l.program.final l.fault d)

/-! ## What a migration is for -/

/-- The extended attributes of the source are those of the destination, too. -/
def Preserves (source destination : Root) : Prop :=
  ∀ name ∈ source.listxattr, destination.getxattr name = source.getxattr name

/-- The destination has the entries of the source, and its attributes. -/
structure Matches (source destination : Root) : Prop where
  entries : ∀ path, Entry source.tree path ↔ Entry destination.tree path
  xattrs : Preserves source destination

/-- What the host and the disk have to be like for `prepare` to begin. -/
structure Admitted (env : Env) (d : Disk) : Prop where
  root : env.geteuid = 0
  programs : ∀ name ∈ PROGRAMS, env.which name = true
  stopped : container_state env ∈ stopped_states
  source : d.source.isSome = true
  no_image : d.image = none
  no_marker : d.marker.file = none
  space : env.allocated_bytes + MIN_FREE_MARGIN ≤ env.free

/-- The filesystem that is made has the features that are required. -/
def Makes (env : Env) : Prop := ∃ features ∈ env.features, missing_features features = []

structure Migrates (env : Env) (d : Disk) : Prop where
  admitted : Admitted env d
  makes : Makes env
  copies : ∀ source ∈ d.source, Matches source (env.cp source fresh)

/-- The step is one of those that write the manifest. -/
def Step.of_manifest : Step → Bool
  | .open_temporary t | .write t | .fsync t | .chmod t | .replace t => t = .manifest
  | _ => false

/-- Nothing but a directory for images has been made, and nothing but a pending image has been taken away. -/
structure Unchanged (d d' : Disk) : Prop where
  source : d'.source = d.source
  image : d'.image = d.image
  marker : d'.marker = d.marker
  manifest : d'.manifest = d.manifest
  mounted : d'.mounted = false
  pending : d'.pending = none ∨ d'.pending = d.pending

/-- The copy is published, with a manifest. -/
structure Published (env : Env) (d d' : Disk) : Prop where
  source : d'.source = d.source
  mounted : d'.mounted = false
  image : ∃ source ∈ d.source, ∃ image ∈ d'.image, ∃ filesystem ∈ image.filesystem,
    filesystem.root = env.cp source fresh
  manifest : ∃ features, d'.manifest.file = some (some (manifest env features))

/-- The copy has the entries of the source, those of the new filesystem, and nothing else. -/
def Faithful (env : Env) (source : Root) : Prop :=
  ∀ path, Entry (env.cp source fresh).tree path ↔ Entry source.tree path ∨ Entry fresh.tree path

/-- The copy lacks an entry, or it has another one than `lost+found` too many. -/
def Unfaithful (env : Env) (source : Root) : Prop :=
  (∃ path, Entry source.tree path ∧ ¬Entry (env.cp source fresh).tree path) ∨
    ∃ path, path ≠ [lost_found] ∧ Entry (env.cp source fresh).tree path ∧ ¬Entry source.tree path

/-- A faithful copy is published, and another one is not. -/
structure Judges (env : Env) (d : Disk) (source : Root) : Prop where
  accepts : Faithful env source → Preserves source (env.cp source fresh) →
    ∃ fault d', prepare env none d = .ok ((), fault, d') ∧ Published env d d'
  refuses : Unfaithful env source →
    ∃ e d', prepare env none d = .error (e, d') ∧ d'.image = d.image ∧ d'.manifest = d.manifest

/-- It is so for the legacy data whenever `prepare` may begin and the programs do what they should. -/
def Accepts (source : Root) : Prop :=
  ∀ env d, d.source = some source → d.mounted = false → Admitted env d → Makes env → Judges env d source

/-- No step fails, and the checks are met. -/
def Returns (env : Env) (d : Disk) : Prop := ∃ fault d', prepare env none d = .ok ((), fault, d')

/-- What `prepare` leaves when it raises: nothing is mounted, there are no new files, and it may be tried again. -/
structure Restored (d d' : Disk) : Prop where
  mounted : d'.mounted = false
  source : d'.source = d.source
  pending : d'.pending.isSome = true → d.pending.isSome = true
  image : d'.image.isSome = true → d.image.isSome = true
  manifest : d'.manifest.file.isSome = true → d.manifest.file.isSome = true
  temporary : d'.manifest.temporary.isSome = true → d.manifest.temporary.isSome = true
  again : ∀ env, Returns env d → Returns env d'

def Repeatable (d : Disk) (l : Label) : Prop :=
  l.command = .prepare → ∀ e d', prepare l.env l.fault d = .error (e, d') → Restored d d'

/-- A step that writes the manifest does not fail when `prepare` comes to it. -/
def ManifestWritten (d : Disk) (l : Label) : Prop :=
  l.command = .prepare → Migrates l.env d → ∀ o ∈ l.fault, o.of_manifest = false

end AnboxReboxed.Scripts.DataImage
