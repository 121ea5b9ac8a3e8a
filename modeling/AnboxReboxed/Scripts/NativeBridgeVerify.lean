import AnboxReboxed.Scripts.NativeBridge

/-!
# Verifying the native bridge

An ABI is advertised to Android when a probe of it has passed. For the probe, the ABI is in the property overlay for a
while; afterwards the overlay is put back, and is written anew when the results have been saved. Whatever the guest does
in between is given by the results of the calls to it.
-/

namespace AnboxReboxed.Scripts.NativeBridge

open AnboxReboxed.Lib Function

/-- The disk, and what the most recent probe of each ABI on the installed payload has found. -/
structure Bridge where
  disk : Disk
  /-- There is none when the probe has not come to an end. -/
  latest : Abi → Option Record := fun _ => none

def Disk.overlay (d : Disk) : Option (List Str) := d.root.bind Root.overlay

def Disk.set_overlay (text : List Str) : Disk → Disk := Disk.setRoot fun root => { root with overlay := some text }

/-- What a command in the guest may raise. Its output may not be UTF-8. -/
inductive GuestExc where
  | os_error
  | timeout_expired
  | value_error
  deriving DecidableEq

def GuestExc.toExc : GuestExc → Exc
  | .os_error => .os_error
  | .timeout_expired => .timeout_expired
  | .value_error => .value_error

/-- The result of a command in the guest. -/
abbrev Guest (α : Type) := Except GuestExc α

/-- What `instrumentation_outcome` finds in the output of the probe. -/
inductive Outcome where
  | jni_succeeded
  | load_failed
  | jni_failed
  | unavailable

def Outcome.record : Outcome → Record
  | .jni_succeeded => ⟨true, .jni_call_succeeded⟩
  | .load_failed => ⟨false, .native_bridge_library_load_failed⟩
  | .jni_failed => ⟨false, .jni_call_failed⟩
  | .unavailable => ⟨false, .probe_result_unavailable⟩

/-- How the calls in `verify_one_abi` come out. -/
structure Probe where
  /-- `restart_guest`, with the temporary properties. -/
  restart : Except Exc Unit
  /-- `capture_diagnostics` after a boot that was not completed. -/
  boot_diagnostics : Bool
  /-- The ABI is in the list that Android has. -/
  advertised : Guest Bool
  /-- `remove_probe_package`, and whether it has something to report. -/
  removal : Guest Bool
  /-- `package_install`. When it fails, the ABI may be an unsupported one. -/
  install : Guest (Option Bool)
  outcome : Guest Outcome
  diagnostics : Bool
  removal_after : Guest Bool
  restart_after : Except Exc Unit

def Reason.state : Reason → ProbeState
  | .library_load_failed => .native_bridge_library_load_failed
  | .guest_unavailable | .did_not_boot => .guest_unavailable
  | .unsupported_abi => .unsupported_abi
  | .probe_apk_install_failed => .probe_apk_install_failed
  | .other => .jni_call_failed

namespace Probe

def restarted (p : Probe) : Except Exc Unit :=
  match p.restart with
  | .error (.bridge_error .did_not_boot) =>
    if p.boot_diagnostics then .error (.bridge_error .library_load_failed) else .error .os_error
  | r => r

/-- The `try` block of `verify_one_abi`, once the temporary properties are written. -/
def attempt (p : Probe) : Except Exc Record := do
  p.restarted
  if !(← p.advertised.mapError GuestExc.toExc) then throw (.bridge_error .unsupported_abi)
  if ← p.removal.mapError GuestExc.toExc then throw (.bridge_error .probe_apk_install_failed)
  match ← p.install.mapError GuestExc.toExc with
  | some unsupported => return ⟨false, if unsupported then .unsupported_abi else .probe_apk_install_failed⟩
  | none => return (← p.outcome.mapError GuestExc.toExc).record

/-- The block with its exception handlers. Without an overlay there is nothing to try. -/
def result (p : Probe) (found : Bool) : Except Exc Record :=
  match if found then p.attempt else .error (.bridge_error .other) with
  | .error .timeout_expired => .ok ⟨false, .guest_unavailable⟩
  | .error (.bridge_error reason) => .ok ⟨false, reason.state⟩
  | r => r

/-- The record has its diagnostics already. -/
def diagnosed (p : Probe) (found : Bool) : Bool :=
  found && p.restart = .error (.bridge_error .did_not_boot) && p.boot_diagnostics

end Probe

/-- A record after a cleanup that did not go well. -/
def Record.spoiled (record : Record) : Record where
  passed := false
  state :=
    if record.state = .native_bridge_library_load_failed ∨ record.state = .guest_unavailable then record.state
    else .probe_apk_install_failed

abbrev Vs := Fallible Exc Op Bridge

def onDisk {α : Type} (m : Fs α) : Vs α := Fallible.zoom Bridge.disk (fun disk s => { s with disk }) m

def write_file_in_place : Option (List Str) → Vs Unit
  | none => return
  | some text => Fallible.modify fun s => { s with disk := s.disk.set_overlay text }

/-- Whether the removal of the package adds something to `cleanup`. -/
def cleanup_removal : Guest Bool → Vs Bool
  | .ok reported => return reported
  | .error .value_error => Fallible.raise .value_error
  | .error _ => return true

/-- The same for the restart with the properties restored. -/
def cleanup_restart : Except Exc Unit → Vs Bool
  | .ok () => return false
  | .error .value_error => Fallible.raise .value_error
  | .error _ => return true

def set_latest (abi : Abi) (record : Option Record) : Vs Unit :=
  Fallible.modify fun s => { s with latest := update s.latest abi record }

/-- The end of `verify_one_abi`, where the exception of the block is still raised. -/
def conclude (abi : Abi) (spoils : Bool) : Except Exc Record → Vs Record
  | .error e => Fallible.raise e
  | .ok record => do
    let record := if spoils then record.spoiled else record
    set_latest abi (some record)
    return record

def Probe.undiagnosed (p : Probe) (found : Bool) : Bool :=
  match p.result found with
  | .error _ => false
  | .ok record => !record.passed && !p.diagnosed found && !p.diagnostics

def verify_one_abi (manifest : Manifest) (abi : Abi) (p : Probe) : Vs Record := do
  set_latest abi none
  let content ← Fallible.read fun s => s.disk.overlay
  write_file_in_place (content.map fun text => merged_property_text text (property_updates manifest [abi]))
  let removal ← cleanup_removal p.removal_after
  write_file_in_place content
  let restart ← if content.isSome then cleanup_restart p.restart_after else pure false
  conclude abi (p.undiagnosed content.isSome || removal || restart) (p.result content.isSome)

abbrev Results := Abi → Option Record

/-- The loop over the ABIs, with the results and the failures so far. -/
def verify_abis (manifest : Manifest) (probe : Abi → Probe) : List Abi → Results → List Abi → Vs (Results × List Abi)
  | [], results, failures => return (results, failures)
  | abi :: abis, results, failures => do
    let record ← verify_one_abi manifest abi (probe abi)
    let results := update results abi (some record)
    let failures := if record.passed then failures else failures ++ [abi]
    if record.state = .native_bridge_library_load_failed then return (results, failures)
    else verify_abis manifest probe abis results failures

/-- How the calls in `verify` come out. -/
structure Verification where
  baseline : Except Exc Unit
  baseline_diagnostics : Bool
  /-- `restart_guest`, when it has been disabled. -/
  recovery : Except Exc Unit
  /-- `validate_probe_apk` and `copy_probe`. -/
  probe_apk : Except Exc Unit
  probe : Abi → Probe
  /-- `remove_guest_probe_file`, and whether it reports an error. -/
  remove_file : Guest Bool
  /-- `restart_guest` and `validate_persistent_properties`, with the new results. -/
  activation : Except Exc Unit
  /-- The same with the old ones. -/
  reactivation : Except Exc Unit

/-- It is disabled, and the guest is started without it. -/
def give_up (v : Verification) : Vs Unit := do
  onDisk disable
  Fallible.ofExcept v.recovery
  Fallible.raise (.bridge_error .other)

def baseline_failed (manifest : Manifest) (v : Verification) : Exc → Vs Unit
  | .bridge_error _ => do
    if !v.baseline_diagnostics then Fallible.raise .os_error
    onDisk (save_manifest manifest)
    give_up v
  | e => Fallible.raise e

def activate_persistent_properties (args : Args) (manifest : Manifest) (activation : Except Exc Unit) : Vs Unit := do
  onDisk (write_property_overlay args manifest)
  Fallible.ofExcept activation

def activation_failed (args : Args) (prior : Manifest) (v : Verification) : Exc → Vs Unit
  | .value_error => Fallible.raise .value_error
  | _ => do
    onDisk (save_manifest prior)
    activate_persistent_properties args prior v.reactivation
    Fallible.raise (.bridge_error .other)

def load_failed (results : Results) : Bool :=
  [Abi.arm64_v8a, .armeabi_v7a].any fun abi =>
    (results abi).any fun record => record.state = .native_bridge_library_load_failed

/-- What `verify` does with its results. -/
def commit (args : Args) (manifest : Manifest) (v : Verification) (results : Results) (failures : List Abi)
    (cleanup_error : Bool) : Vs Unit := do
  onDisk (save_manifest { manifest with verification := results })
  if cleanup_error then Fallible.raise (.bridge_error .other)
  else if load_failed results then give_up v
  else do
    Fallible.rescue (activate_persistent_properties args { manifest with verification := results } v.activation)
      (activation_failed args manifest v)
    if failures ≠ [] then Fallible.raise (.bridge_error .other)

def verify (args : Args) (v : Verification) : Vs Unit := do
  let manifest ← onDisk load_manifest
  if !manifest.enabled then Fallible.raise (.bridge_error .other)
  onDisk (write_property_overlay args manifest)
  Fallible.rescue (Fallible.ofExcept v.baseline) (baseline_failed manifest v)
  Fallible.ofExcept v.probe_apk
  let ((results, failures), cleanup_error) ← Fallible.ensure
    (verify_abis manifest v.probe manifest.detected_abis manifest.verification [])
    (Fallible.ofExcept (v.remove_file.mapError GuestExc.toExc))
  commit args manifest v results failures cleanup_error

/-! ## Runs -/

inductive Action where
  | command (l : Label)
  | verify (v : Verification)

/-- The operation writes nothing, or may find something wrong. -/
def Op.is_check : Op → Bool
  | .descriptor | .validate | .bindtab_read | .build | .property_source | .property_relative | .manifest_read
  | .build_image => true
  | _ => false

/-- No write of a file fails. -/
def Writes (fault : Option Op) : Prop := ∀ o ∈ fault, o.is_check = true

instance (fault : Option Op) : Decidable (Writes fault) := inferInstanceAs (Decidable (∀ o ∈ fault, _))

/-- Another payload is installed by the command, or none. -/
def Command.replaces : Command → Bool
  | .install _ _ | .remove _ => true
  | .enable _ | .disable => false

def Bridge.command (args : Args) (s : Bridge) (l : Label) : Bridge :=
  match l.run args l.fault s.disk with
  | .error (_, disk) => { s with disk }
  | .ok (_, _, disk) => { disk, latest := if l.command.replaces then fun _ => none else s.latest }

def bridgeMachine (args : Args) (others : List Str) : Machine Bridge Action where
  init := { disk := { bindtab := without_bridge_bindings others } }
  step s
    | .command l => if Writes l.fault then some (s.command args l) else none
    | .verify v => some ((verify args v).final none s)

/-! ## What is advertised -/

/-- What a property may say about an ABI of ARM. -/
inductive Advert where
  | abi (name : Str)
  | isa (key : Str)

def arm_abis : List Str := ["arm64-v8a".toList, "armeabi-v7a".toList, "armeabi".toList]

/-- The line is about it. -/
def Advert.In (line : Str) : Advert → Prop
  | .abi name => name ∈ arm_abis ∧ ∃ key ∈ [Key.abilist, .abilist32, .abilist64], ∃ value,
      property line = some (key.name, value) ∧ name ∈ (value.splitOn ',').map strip
  | .isa key => "ro.dalvik.vm.isa.arm".toList <+: key ∧ ∃ value, property line = some (key, value)

def Advertises (text : List Str) (a : Advert) : Prop := ∃ line ∈ text, a.In line

/-- The ABI that has to be verified for it. -/
def Advert.Belongs (abi : Abi) : Advert → Prop
  | .abi name => match abi with
    | .arm64_v8a => name = Abi.arm64_v8a.name
    | .armeabi_v7a => name = Abi.armeabi_v7a.name ∨ name = "armeabi".toList
  | .isa key => match abi with
    | .arm64_v8a => key = Key.isa_arm64.name
    | .armeabi_v7a => key = Key.isa_arm.name

/-- When the overlay is bound, it advertises nothing of ARM that was not there before and has not been verified, by the
most recent probe. -/
def Bridge.Truthful (args : Args) (s : Bridge) : Prop :=
  args.binding ∈ s.disk.bindtab → ∀ text, s.disk.overlay = some text → ∀ a, Advertises text a →
    Advertises args.original a ∨ ∃ m abi record, s.disk.manifest = some m ∧ a.Belongs abi ∧
      m.verification abi = some record ∧ record.passed = true ∧ s.latest abi = some record

/-- The probe ends with an exception, though the properties are restored. -/
def Probe.Raises (p : Probe) : Prop := (∃ e, p.result true = .error e) ∨ p.restart_after = .error .value_error

/-- The probe passes, and so does what comes after it. -/
def Probe.Passes (p : Probe) : Prop :=
  (∃ record, p.result true = .ok record ∧ record.passed = true) ∧ p.removal_after = .ok false ∧
    p.restart_after = .ok ()

/-- Whatever has passed before passes again. -/
def Verification.Repeats (v : Verification) (m : Manifest) : Prop :=
  ∀ abi ∈ m.detected_abis, m.passed abi = true → (v.probe abi).Passes

/-- The results are saved, and become active. -/
structure Verification.Settles (args : Args) (v : Verification) (m : Manifest) : Prop where
  probe : ∀ abi ∈ m.detected_abis, ¬(v.probe abi).Raises
  remove_file : ∀ e, v.remove_file ≠ .error e
  reported : v.remove_file = .ok true → v.Repeats m
  /-- The line for the current directory is not found by `disable`. -/
  data_dir : args.data_dir = ".".toList → v.Repeats m
  activation : ∀ e, v.activation = .error e → e = .value_error

/-- The output of the cleanup after a probe can be read, and a result that replaces a good one is not lost. -/
def Bridge.Reliable (args : Args) (s : Bridge) : Action → Prop
  | .command _ => True
  | .verify v => ∀ m, s.disk.manifest = some m → m.enabled = true → v.baseline = .ok () → v.probe_apk = .ok () →
      (∀ abi ∈ m.detected_abis, (v.probe abi).removal_after ≠ .error .value_error) ∧
      ((∃ abi ∈ m.detected_abis, m.passed abi = true) → v.Settles args m)

end AnboxReboxed.Scripts.NativeBridge
