import AnboxReboxed.Scripts.PropertyOverlay
import Mathlib.Data.Char
import Mathlib.Data.List.Dedup
import Mathlib.Data.List.Infix
import Mathlib.Data.List.Lex
import Mathlib.Data.List.Sort

/-!
# The preflight of a package

Before a base APK and its splits are sent for installation, the bridge looks at their metadata. It refuses what is not
one bundle, leaves out the splits that are for an ABI the guest does not have, and says whether the native libraries of
the others can run.
-/

namespace AnboxReboxed.Scripts.PackagePreflight

open NativeBridge (Str strip)

local instance lawfulBEqStr : LawfulBEq Str := inferInstance

def MAX_APKS : Nat := 128

/-- What `apk_metadata` reports, as far as it is looked at. Its pattern for a split matches one character at least. -/
structure ApkMetadata where
  file : Str
  package : Str
  version_code : Str
  version_name : Str := []
  split : Option Str := none
  split_ne_nil : split ≠ some [] := by decide
  /-- The directories of `lib` that a library is in. -/
  abis : List Str := []
  deriving DecidableEq

def ApkMetadata.identity (item : ApkMetadata) : Str × Str := (item.package, item.version_code)

def ApkMetadata.is_base (item : ApkMetadata) : Bool := item.split.isNone

/-- The ABIs that the guest can run by itself, and those that are translated. -/
structure LiveAbis where
  native : List Str
  translated : List Str

def LiveAbis.effective (live : LiveAbis) : List Str := live.native ++ live.translated

/-! ## The ABIs of the guest -/

/-- The manifest of the native bridge, with the ABIs that it has checked. -/
structure BridgeManifest where
  enabled : Bool
  /-- By ABI, whether it has passed. -/
  verification : List (Str × Bool)

structure Guest where
  /-- The output of `getprop`, when it succeeds. -/
  getprop : Option Str
  /-- The texts of `build.prop` and `prop.default`, as far as they exist. -/
  properties : List Str
  /-- There is none when it cannot be read. -/
  manifest : Option BridgeManifest

def abilist_key : Str := "ro.product.cpu.abilist=".toList

/-- `re.search(r"^ro\.product\.cpu\.abilist=(.+)$", text, re.M)` -/
def abilist_match (text : Str) : Option Str :=
  (text.splitOn '\n').findSome? fun line =>
    if abilist_key <+: line ∧ line ≠ abilist_key then some (line.drop abilist_key.length) else none

def BridgeManifest.passed (manifest : BridgeManifest) : List Str :=
  if manifest.enabled then (manifest.verification.filter (·.2)).map (·.1) else []

def live_abis (guest : Guest) : LiveAbis :=
  let native := (guest.getprop.map fun out => ((strip out).splitOn ',').filter (· ≠ [])).getD []
  let native :=
    if native ≠ [] then native
    else ((guest.properties.findSome? abilist_match).map fun value => (strip value).splitOn ',').getD []
  let native := if native ≠ [] then native else ["x86_64".toList, "x86".toList]
  let translated := (guest.manifest.map BridgeManifest.passed).getD []
  let translated := translated.filter (· ∉ ["x86".toList, "x86_64".toList])
  { native := native.filter (· ∉ translated), translated }

/-! ## The bundle -/

/-- The letters of a marker that `str.lower` gives. Outside ASCII, two capital letters have one of ASCII in their lower
case, and the others have none: these are left as they are. -/
def lower_char (c : Char) : Str :=
  if c.toNat = 0x130 then ['i', Char.ofNat 0x307]
  else if c.toNat = 0x212A then ['k']
  else [c.toLower]

def lower (s : Str) : Str := s.flatMap lower_char

/-- The markers in their order. -/
def aliases : List (Str × Str) :=
  [("x86_64".toList, "x86_64".toList), ("x86".toList, "x86".toList), ("arm64_v8a".toList, "arm64-v8a".toList),
    ("armeabi_v7a".toList, "armeabi-v7a".toList), ("armeabi".toList, "armeabi".toList)]

def split_targets_abi : Option Str → Option Str
  | none => none
  | some split =>
    if split = [] then none
    else
      let lowered := (lower split).map fun c => if c = '-' then '_' else c
      (aliases.find? fun marker => marker.1 <:+: lowered).map (·.2)

structure Rejection where
  file : Str
  reason : Str
  deriving DecidableEq

structure Preflight where
  package : Str
  version_name : Str
  version_code : Str
  selected : List ApkMetadata
  rejected : List Rejection
  apk_abis : List Str
  native_guest_abis : List Str
  translated_abis : List Str
  native_bridge_required : Bool
  compatible : Bool
  reason : Str

/-- `",".join(names) or "none"` -/
def or_none (names : List Str) : Str :=
  let joined := [','].intercalate names
  if joined = [] then "none".toList else joined

/-- The body of the loop over the metadata. -/
def select (effective : List Str) (found : List ApkMetadata × List (ApkMetadata × Str)) (item : ApkMetadata) :
    List ApkMetadata × List (ApkMetadata × Str) :=
  match split_targets_abi item.split with
  | none => (found.1 ++ [item], found.2)
  | some target =>
    if target ∉ effective then (found.1, found.2 ++ [(item, "split targets unsupported ABI ".toList ++ target)])
    else (found.1 ++ [item], found.2)

/-- What `package_preflight` does after its checks. -/
def report (base : ApkMetadata) (metadata : List ApkMetadata) (live : LiveAbis) : Preflight :=
  let found := metadata.foldl (select live.effective) ([], [])
  let package_abis := (found.1.flatMap (·.abis)).dedup.insertionSort (· ≤ ·)
  let compatible := package_abis.isEmpty || package_abis.any (· ∈ live.effective)
  let requires := !package_abis.isEmpty && !package_abis.any (· ∈ live.native) && compatible
  { package := base.package
    version_name := base.version_name
    version_code := base.version_code
    selected := found.1
    rejected := found.2.map fun r => ⟨r.1.file, r.2⟩
    apk_abis := package_abis
    native_guest_abis := live.native
    translated_abis := live.translated
    native_bridge_required := requires
    compatible
    reason :=
      if compatible then "compatible".toList
      else "APK native libraries target ".toList ++ or_none package_abis ++ "; guest supports native ".toList ++
        or_none live.native ++ " and translated ".toList ++ or_none live.translated }

def split_names (metadata : List ApkMetadata) : List Str :=
  metadata.filterMap fun item => item.split.filter (· ≠ [])

def package_preflight (metadata : List ApkMetadata) (live : LiveAbis) : Except String Preflight :=
  if metadata = [] ∨ MAX_APKS < metadata.length then .error "provide between 1 and 128 APK files"
  else if (metadata.map ApkMetadata.identity).dedup.length ≠ 1 then
    .error "base and split APK package/version identities differ"
  else
    match metadata.filter ApkMetadata.is_base with
    | [base] =>
      if (split_names metadata).length ≠ (split_names metadata).dedup.length then
        .error "bundle contains duplicate split names"
      else .ok (report base metadata live)
    | _ => .error "bundle must contain exactly one base APK"

/-! ## What the preflight is for -/

/-- One package, with one base. -/
structure Bundle (metadata : List ApkMetadata) : Prop where
  same_identity : ∀ a ∈ metadata, ∀ b ∈ metadata, a.identity = b.identity
  one_base : ∃ base, metadata.filter ApkMetadata.is_base = [base]
  splits_nodup : (metadata.filterMap (·.split)).Nodup

/-- The name of the split is not one of an ABI that the guest does not have. -/
def Kept (live : LiveAbis) (item : ApkMetadata) : Prop :=
  ∀ target ∈ split_targets_abi item.split, target ∈ live.effective

instance (live : LiveAbis) (item : ApkMetadata) : Decidable (Kept live item) :=
  inferInstanceAs (Decidable (∀ target ∈ split_targets_abi item.split, _))

/-- One of the APKs has a library for one of the ABIs. -/
def Matches (items : List ApkMetadata) (abis : List Str) : Prop := ∃ item ∈ items, ∃ abi ∈ item.abis, abi ∈ abis

/-- What a verdict on a bundle is to say. -/
structure Verdict (metadata : List ApkMetadata) (live : LiveAbis) (v : Preflight) : Prop where
  selected : v.selected = metadata.filter (Kept live ·)
  rejected : v.rejected.map Rejection.file = (metadata.filter (¬Kept live ·)).map ApkMetadata.file
  base_selected : ∃ base ∈ v.selected, base.split = none
  /-- What has native libraries and is compatible can run some of them. -/
  runs : v.compatible = true → (∃ item ∈ metadata, item.abis ≠ []) → Matches v.selected live.effective
  native_bridge_required : v.native_bridge_required = true ↔
    v.compatible = true ∧ Matches v.selected live.translated ∧ ¬Matches v.selected live.native

/-- The result of a preflight: what is a bundle is given a verdict, and all else is refused. -/
structure Judged (metadata : List ApkMetadata) (live : LiveAbis) (result : Except String Preflight) : Prop where
  returns : (∃ v, result = .ok v) ↔ Bundle metadata ∧ metadata.length ≤ MAX_APKS
  verdict : ∀ v, result = .ok v → Verdict metadata live v

/-- If there are native libraries, then some of them are in an APK that is not rejected. -/
def KeepsLibraries (metadata : List ApkMetadata) (live : LiveAbis) : Prop :=
  (∃ item ∈ metadata, item.abis ≠ []) → ∃ item ∈ metadata, Kept live item ∧ item.abis ≠ []

end AnboxReboxed.Scripts.PackagePreflight
