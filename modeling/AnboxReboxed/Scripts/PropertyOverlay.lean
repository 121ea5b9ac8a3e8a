import Mathlib.Logic.Function.Basic

/-!
# The property overlay of the native bridge

Android learns from a file of properties which ABIs there are. The overlay stands for that file: it is the original
one, with some properties taken out and others put in. A text is given by its lines.
-/

namespace AnboxReboxed.Scripts.NativeBridge

open Function

abbrev Str := List Char

/-- An ABI that a translator may be for. -/
inductive Abi where
  | arm64_v8a
  | armeabi_v7a
  deriving DecidableEq

def Abi.name : Abi → Str
  | .arm64_v8a => "arm64-v8a".toList
  | .armeabi_v7a => "armeabi-v7a".toList

inductive ProbeState where
  | jni_call_failed
  | jni_call_succeeded
  | native_bridge_library_load_failed
  | guest_unavailable
  | unsupported_abi
  | probe_apk_install_failed
  | probe_result_unavailable
  deriving DecidableEq

/-- What a probe of an ABI has found. -/
structure Record where
  passed : Bool
  state : ProbeState
  deriving DecidableEq

inductive Backend where
  | berberis
  | external
  deriving DecidableEq

inductive Kind where
  | builtin_image
  | external_payload
  deriving DecidableEq

structure Manifest where
  backend_id : Backend
  backend_kind : Kind
  translator : Str
  detected_abis : List Abi
  enabled : Bool := false
  verification : Abi → Option Record := fun _ => none
  original_properties : Str → Option Str

/-- The record says that the ABI works. -/
def Manifest.passed (m : Manifest) (abi : Abi) : Bool :=
  match m.verification abi with
  | none => false
  | some record => record.passed

/-- `str.isspace` -/
def is_space (c : Char) : Bool :=
  let n := c.toNat
  (9 ≤ n && n ≤ 13) || (28 ≤ n && n ≤ 32) || n == 0x85 || n == 0xa0 || n == 0x1680 || (0x2000 ≤ n && n ≤ 0x200a) ||
    n == 0x2028 || n == 0x2029 || n == 0x202f || n == 0x205f || n == 0x3000

def lstrip (s : Str) : Str := s.dropWhile is_space

def strip (s : Str) : Str := (lstrip (lstrip s).reverse).reverse

/-- The key and the value of a line. -/
def property (line : Str) : Option (Str × Str) :=
  if line ≠ [] ∧ (lstrip line).head? ≠ some '#' ∧ '=' ∈ line then
    some (strip (line.takeWhile (· ≠ '=')), strip (line.dropWhile (· ≠ '=')).tail)
  else none

def set_property (result : Str → Option Str) (line : Str) : Str → Option Str :=
  match property line with
  | none => result
  | some (key, value) => update result key (some value)

def parse_properties (text : List Str) : Str → Option Str := text.foldl set_property fun _ => none

/-- `PROPERTY_KEYS` -/
inductive Key where
  | isa_arm
  | isa_arm64
  | native_bridge
  | native_bridge_exec
  | abilist
  | abilist32
  | abilist64
  deriving DecidableEq

def Key.name : Key → Str
  | .isa_arm => "ro.dalvik.vm.isa.arm".toList
  | .isa_arm64 => "ro.dalvik.vm.isa.arm64".toList
  | .native_bridge => "ro.dalvik.vm.native.bridge".toList
  | .native_bridge_exec => "ro.enable.native.bridge.exec".toList
  | .abilist => "ro.product.cpu.abilist".toList
  | .abilist32 => "ro.product.cpu.abilist32".toList
  | .abilist64 => "ro.product.cpu.abilist64".toList

/-- All of them, as they are sorted. -/
def Key.all : List Key :=
  [.isa_arm, .isa_arm64, .native_bridge, .native_bridge_exec, .abilist, .abilist32, .abilist64]

abbrev Updates := Key → Option Str

/-- The key that `merged_property_text` finds in a line, if it is one of them. -/
def line_key (line : Str) : Option Key :=
  if '=' ∈ strip line then Key.all.find? fun key => key.name = (strip line).takeWhile (· ≠ '=') else none

def assignment (key : Key) (value : Str) : Str := key.name ++ '=' :: value

/-- The loop over the lines, with the keys it has seen. -/
def merge_lines (updates : Updates) : List Key → List Str → List Str × List Key
  | seen, [] => ([], seen)
  | seen, line :: lines =>
    match line_key line with
    | none => (line :: (merge_lines updates seen lines).1, (merge_lines updates seen lines).2)
    | some key =>
      match updates key with
      | none => merge_lines updates seen lines
      | some value =>
        if key ∈ seen then merge_lines updates seen lines
        else (assignment key value :: (merge_lines updates (key :: seen) lines).1,
          (merge_lines updates (key :: seen) lines).2)

def merged_property_text (original : List Str) (updates : Updates) : List Str :=
  let merged := merge_lines updates [] original
  merged.1 ++ "# Properties added by Anbox Reboxed Native Bridge".toList ::
    Key.all.filterMap fun key => if key ∈ merged.2 then none else (updates key).map (assignment key)

/-- The ABIs that the image has, as a list property of it says. -/
def native_abis (m : Manifest) (key : Key) (default : String) : List Str :=
  (((m.original_properties key.name).getD default.toList).splitOn ',').filter (· ≠ [])

def native64 (m : Manifest) (working : List Abi) : List Str :=
  let native := native_abis m .abilist64 "x86_64"
  if .arm64_v8a ∈ working ∧ Abi.arm64_v8a.name ∉ native then native ++ [Abi.arm64_v8a.name] else native

def native32 (m : Manifest) (working : List Abi) : List Str :=
  let native := native_abis m .abilist32 "x86"
  if .armeabi_v7a ∈ working ∧ Abi.armeabi_v7a.name ∉ native then
    native ++ [Abi.armeabi_v7a.name, "armeabi".toList].filter (· ∉ native)
  else native

/-- `",".join(abis)` -/
def join_abis (abis : List Str) : Str := [','].intercalate abis

def property_updates (m : Manifest) (working : List Abi) : Updates
  | .native_bridge => some m.translator
  | .native_bridge_exec => none
  | .isa_arm => if .armeabi_v7a ∈ working then some "x86".toList else none
  | .isa_arm64 => if .arm64_v8a ∈ working then some "x86_64".toList else none
  | .abilist64 => if working = [] then none else some (join_abis (native64 m working))
  | .abilist32 => if working = [] then none else some (join_abis (native32 m working))
  | .abilist => if working = [] then none else some (join_abis (native64 m working ++ native32 m working))

/-- The ABIs that have been verified. -/
def verified_abis (m : Manifest) : List Abi := [Abi.arm64_v8a, .armeabi_v7a].filter m.passed

/-- What `write_property_overlay` writes. -/
def overlay_text (original : List Str) (m : Manifest) : List Str :=
  merged_property_text original (property_updates m (verified_abis m))

end AnboxReboxed.Scripts.NativeBridge
