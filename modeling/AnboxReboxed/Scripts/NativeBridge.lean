import AnboxReboxed.Lib.Fallible
import AnboxReboxed.Lib.Machine
import AnboxReboxed.Scripts.PropertyOverlay
import Mathlib.Data.List.Infix

/-!
# The native bridge and its commands

A translator is kept under `state/native-bridge`, with a manifest. It is in use when the manifest says so, the marker
is there, and a line of the bindtab binds the property overlay. A command changes these one after another, and rolls
back when an operation fails.
-/

namespace AnboxReboxed.Scripts.NativeBridge

open AnboxReboxed.Lib Function

/-- The files of a payload. -/
abbrev Payload := Str → Option (List UInt8)

/-- The directory `state/native-bridge`, or one that is to become it. -/
structure Root where
  manifest : Option Manifest := none
  payload : Payload := fun _ => none
  /-- The file `enabled`. -/
  marker : Option Str := none
  overlay : Option (List Str) := none

structure Disk where
  root : Option Root := none
  /-- The directories `native-bridge.new-*`, by process. -/
  staging : Nat → Option Root := fun _ => none
  /-- The directories `native-bridge.old-*`, by process. -/
  backup : Nat → Option Root := fun _ => none
  /-- The lines of the bindtab. -/
  bindtab : List Str := []

/-- The operations that may fail. One that only checks or reads something may find it wrong, too. -/
inductive Op where
  | descriptor
  | validate
  | mkdir_state
  | bindtab_read
  | mkdir_staging
  | build
  | property_source
  | write_manifest
  | chmod_staging
  | bindtab_mkdir
  | bindtab_write
  | bindtab_replace
  | bindtab_fsync
  | replace_backup
  | replace_root
  | fsync_state
  | rmtree_backup
  | rmtree_staging
  | restore_root
  | manifest_read
  | build_image
  | overlay_write
  | overlay_replace
  /-- The second `property_source` of `enable`. -/
  | property_relative
  | manifest_write
  | manifest_replace
  | marker_open
  | marker_write
  | marker_chmod
  | marker_fsync
  | marker_unlink
  | rmtree_root
  deriving DecidableEq

/-- What a `BridgeError` is about, as far as `verify` looks at its message. -/
inductive Reason where
  | other
  | guest_unavailable
  | did_not_boot
  | library_load_failed
  | unsupported_abi
  | probe_apk_install_failed
  deriving DecidableEq

inductive Exc where
  | bridge_error (reason : Reason)
  | os_error
  | timeout_expired
  | value_error
  deriving DecidableEq

abbrev Fs := Fallible Exc Op Disk

/-- The options, and the property file of Android, which is the same all the time. -/
structure Args where
  /-- As `pathlib` writes it. -/
  data_dir : Str
  original : List Str
  /-- The path of the property file in the image. -/
  relative : Str

/-- `path / name`, where the current directory is not written. -/
def child (path name : Str) : Str :=
  if path = ".".toList then name else if path = "/".toList then '/' :: name else path ++ '/' :: name

/-- The line that binds the overlay. -/
def Args.binding (args : Args) : Str :=
  child (child args.data_dir "state".toList) "native-bridge".toList ++ "/properties/".toList ++ args.relative ++
    ' ' :: child (child args.data_dir "combined-rootfs".toList) args.relative ++
      " none bind,create=file,optional,ro 0 0".toList

def is_bridge (line : Str) : Prop := "/state/native-bridge/".toList <:+: line

instance (line : Str) : Decidable (is_bridge line) := inferInstanceAs (Decidable (_ <:+: _))

def without_bridge_bindings (lines : List Str) : List Str := lines.filter fun line => ¬is_bridge line

namespace Disk

def setRoot (f : Root → Root) (d : Disk) : Disk := { d with root := d.root.map f }

def manifest (d : Disk) : Option Manifest := d.root.bind Root.manifest

def payload (d : Disk) (path : Str) : Option (List UInt8) := d.root.bind fun root => root.payload path

def marker (d : Disk) : Option Str := d.root.bind Root.marker

end Disk

def file (o : Op) (f : Disk → Disk) : Fs Unit := Fallible.op .os_error o f

def skip (o : Op) : Fs Unit := file o fun d => d

def atomic_bindtab (lines : List Str) : Fs Unit := do
  skip .bindtab_mkdir
  skip .bindtab_write
  file .bindtab_replace fun d => { d with bindtab := lines }
  skip .bindtab_fsync

def current_bindtab : Fs (List Str) := do
  skip .bindtab_read
  Fallible.read Disk.bindtab

/-- The manifest, if there is one. -/
def find_manifest : Fs (Option Manifest) := do
  let manifest ← Fallible.read Disk.manifest
  if manifest.isSome then skip .manifest_read
  return manifest

def load_manifest : Fs Manifest := do
  match ← find_manifest with
  | none => Fallible.raise (.bridge_error .other)
  | some manifest => return manifest

def save_manifest (manifest : Manifest) : Fs Unit := do
  skip .manifest_write
  file .manifest_replace (Disk.setRoot fun root => { root with manifest := some manifest })

def write_property_overlay (args : Args) (manifest : Manifest) : Fs Unit := do
  skip .property_source
  skip .overlay_write
  file .overlay_replace (Disk.setRoot fun root => { root with overlay := some (overlay_text args.original manifest) })

/-! ## Installing -/

/-- What `build_payload` makes of a source. -/
structure Built where
  translator : Str
  detected_abis : List Abi
  payload : Payload

def remove_staging (pid : Nat) : Fs Unit := do
  if (← Fallible.read fun d => d.staging pid).isSome then
    file .rmtree_staging fun d => { d with staging := update d.staging pid none }

def restore_root (pid : Nat) : Fs Unit := do
  let d ← Fallible.read id
  if (d.backup pid).isSome ∧ d.root.isNone then
    file .restore_root fun d => { d with root := d.backup pid, backup := update d.backup pid none }

def restore_bindtab : Option (List Str) → Fs Unit
  | none => return
  | some lines => atomic_bindtab lines

/-- The exception handler of the two installers. The bindtab is written when it has been changed. -/
def undo_install (pid : Nat) (original_bindtab : Option (List Str)) : Fs Unit := do
  remove_staging pid
  restore_root pid
  restore_bindtab original_bindtab

/-- What was installed before is set aside. -/
def set_aside (pid : Nat) : Fs Unit := do
  if (← Fallible.read Disk.root).isSome then
    file .replace_backup fun d => { d with root := none, backup := update d.backup pid d.root }

def drop_backup (pid : Nat) : Fs Unit := do
  if (← Fallible.read fun d => d.backup pid).isSome then
    Fallible.ignoring .rmtree_backup fun d => { d with backup := update d.backup pid none }

/-- The part that the two installers have in common. -/
def transaction (pid : Nat) (prepare : Fs Unit) (manifest : Manifest) : Fs Unit := do
  skip .mkdir_state
  let original_bindtab ← current_bindtab
  let d ← Fallible.read id
  if (d.staging pid).isSome ∨ (d.backup pid).isSome then Fallible.raise (.bridge_error .other)
  Fallible.attempt (do
    file .mkdir_staging fun d => { d with staging := update d.staging pid (some {}) }
    prepare
    skip .property_source
    file .write_manifest fun d =>
      { d with staging := update d.staging pid ((d.staging pid).map fun root =>
        { root with manifest := some manifest }) }
    skip .chmod_staging
    atomic_bindtab (without_bridge_bindings original_bindtab)) (undo_install pid none)
  Fallible.attempt (do
    set_aside pid
    file .replace_root fun d => { d with root := d.staging pid, staging := update d.staging pid none }
    skip .fsync_state
    drop_backup pid) (undo_install pid (some original_bindtab))

def install_official (args : Args) (pid : Nat) : Fs Unit := do
  skip .descriptor
  skip .validate
  transaction pid (pure ())
    { backend_id := .berberis
      backend_kind := .builtin_image
      translator := "libberberis_arm64.so".toList
      detected_abis := [.arm64_v8a]
      original_properties := parse_properties args.original }

def install (args : Args) (pid : Nat) (backend : Option Backend) (source : Option Built) : Fs Unit :=
  if backend = some .berberis then
    if source.isSome then Fallible.raise (.bridge_error .other) else install_official args pid
  else
    match source with
    | none => Fallible.raise (.bridge_error .other)
    | some built =>
      transaction pid
        (file .build fun d =>
          { d with staging := update d.staging pid ((d.staging pid).map fun root =>
            { root with payload := built.payload }) })
        { backend_id := .external
          backend_kind := .external_payload
          translator := built.translator
          detected_abis := built.detected_abis
          original_properties := parse_properties args.original }

/-! ## Enabling, disabling and removing -/

def marker_value : Kind → Str
  | .builtin_image => "builtin-image-v1\n".toList
  | .external_payload => "managed-system-overlay-v1\n".toList

def set_marker (marker : Option Str) : Disk → Disk := Disk.setRoot fun root => { root with marker }

def enable (args : Args) (backend : Option Backend) : Fs Unit := do
  let manifest ← load_manifest
  if backend.isSome ∧ backend ≠ some manifest.backend_id then Fallible.raise (.bridge_error .other)
  let lines := without_bridge_bindings (← current_bindtab)
  skip .validate
  if manifest.backend_kind = .external_payload then skip .build_image
  write_property_overlay args manifest
  skip .property_relative
  save_manifest { manifest with enabled := true }
  Fallible.attempt (do
    file .marker_open (set_marker (some []))
    file .marker_write (set_marker (some (marker_value manifest.backend_kind)))
    skip .marker_chmod
    skip .marker_fsync
    atomic_bindtab (lines ++ [args.binding])) (do
    file .marker_unlink (set_marker none)
    save_manifest manifest)

/-- The manifest is saved when there is one. -/
def save_if_some : Option Manifest → Fs Unit
  | none => return
  | some manifest => save_manifest manifest

def disable : Fs Unit := do
  let manifest ← find_manifest
  let original_lines ← current_bindtab
  save_if_some (manifest.map fun manifest => { manifest with enabled := false })
  Fallible.attempt (do
    atomic_bindtab (without_bridge_bindings original_lines)
    file .marker_unlink (set_marker none)
    if manifest.isSome then skip .marker_fsync) (save_if_some manifest)

/-- What is left of a directory when `shutil.rmtree` fails. -/
structure Remains where
  manifest : Bool
  overlay : Bool
  payload : Str → Bool

def Remains.of (left : Remains) (root : Root) : Root where
  manifest := if left.manifest then root.manifest else none
  payload path := if left.payload path then root.payload path else none
  marker := root.marker
  overlay := if left.overlay then root.overlay else none

def remove (left : Remains) : Fs Unit := do
  disable
  if (← Fallible.read Disk.root).isSome then
    Fallible.torn .os_error .rmtree_root (Disk.setRoot left.of) fun d => { d with root := none }
    skip .fsync_state

/-! ## Runs -/

inductive Command where
  | install (backend : Option Backend) (source : Option Built)
  | enable (backend : Option Backend)
  | disable
  | remove (left : Remains)

structure Label where
  pid : Nat
  command : Command
  fault : Option Op

def Label.run (args : Args) (l : Label) : Fs Unit :=
  match l.command with
  | .install backend source => install args l.pid backend source
  | .enable backend => enable args backend
  | .disable => disable
  | .remove left => remove left

/-- The state has only lines of others in the bindtab at first. -/
def commandMachine (args : Args) (others : List Str) : Machine Disk Label where
  init := { bindtab := without_bridge_bindings others }
  step d l := some ((l.run args).final l.fault d)

namespace Disk

/-- The manifest, the payload, the marker and the bindtab are the same. -/
structure Same (d d' : Disk) : Prop where
  manifest : d'.manifest = d.manifest
  payload : d'.payload = d.payload
  marker : d'.marker = d.marker
  bindtab : d'.bindtab = d.bindtab

def NoLeftovers (d : Disk) : Prop := ∀ pid, d.staging pid = none ∧ d.backup pid = none

/-- A command that raises leaves everything as before. -/
def RollsBack (args : Args) (d : Disk) (l : Label) : Prop :=
  ∀ e d', l.run args l.fault d = .error (e, d') → d.Same d' ∧ d'.NoLeftovers

def Enabled (d : Disk) : Prop := ∃ m, d.manifest = some m ∧ m.enabled = true

def Bound (d : Disk) : Prop := ∃ line ∈ d.bindtab, is_bridge line

/-- The manifest, the marker and the bindtab agree, and the lines of others are there. -/
structure Consistent (others : List Str) (d : Disk) : Prop where
  marker : d.Enabled ↔ d.marker ≠ none
  bindtab : d.Enabled ↔ d.Bound
  others : without_bridge_bindings d.bindtab = without_bridge_bindings others

end Disk

/-- The operations of `enable` that a rollback takes too far when it was enabled before. -/
def enable_ops : List Op :=
  [.marker_open, .marker_write, .marker_chmod, .marker_fsync, .bindtab_mkdir, .bindtab_write, .bindtab_replace]

/-- The operations of `disable` after it has changed the bindtab. -/
def disable_ops : List Op := [.bindtab_fsync, .marker_unlink, .marker_fsync]

/-- No operation fails where the rollback does not reach. -/
def Harmless (args : Args) (d : Disk) (l : Label) : Prop :=
  match l.command with
  | .install _ _ =>
    l.fault ≠ some .fsync_state ∧ (l.fault = some .bindtab_fsync → ¬d.Enabled) ∧
      (l.fault = some .rmtree_backup → d.root = none)
  | .enable _ =>
    args.data_dir ≠ ".".toList ∧ l.fault ≠ some .bindtab_fsync ∧
      (d.Enabled → ∀ o ∈ enable_ops, l.fault ≠ some o)
  | .disable => d.Enabled → ∀ o ∈ disable_ops, l.fault ≠ some o
  | .remove left =>
    (d.Enabled → ∀ o ∈ disable_ops, l.fault ≠ some o) ∧
    (l.fault = some .rmtree_root → d.root = none ∨
      (¬d.Enabled ∧ left.manifest = true ∧ ∀ path, d.payload path ≠ none → left.payload path = true)) ∧
    (l.fault = some .fsync_state → d.root = none)

end AnboxReboxed.Scripts.NativeBridge
