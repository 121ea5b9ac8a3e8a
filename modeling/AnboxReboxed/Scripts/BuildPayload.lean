import AnboxReboxed.Lib.FileTree
import Mathlib.Data.Char
import Mathlib.Data.List.Infix
import Mathlib.Data.List.Lex
import Mathlib.Data.List.Sort

/-!
# The payload of a translator

`build_payload` looks for the translators in a tree that has been extracted, checks what they need, and stages the files
that belong to them. A path is given by its components.
-/

namespace AnboxReboxed.Scripts.BuildPayload

open AnboxReboxed.Lib

abbrev Str := List Char

abbrev Bytes := List UInt8

abbrev Path := List FileName

local instance lawfulBEqFileName : LawfulBEq FileName := inferInstance

inductive Architecture where
  | x86
  | arm
  | x86_64
  | arm64
  deriving DecidableEq

/-- What `readelf` prints about a file. -/
structure Dynamic where
  succeeds : Bool := true
  soname : Option Str := none
  interpreter : Option Str := none
  needed : List FileName := []
  symbol_versions : List Str := []

/-- What is found in the content of a file. There is no ELF class and machine for a file that is not supported. -/
structure Tools where
  elf_info : Bytes → Option (Nat × Architecture)
  readelf : Bytes → Dynamic
  native_bridge_interface_version : Bytes → Option Nat
  sha256 : Bytes → Str

/-- A regular file, by its own name. -/
structure File where
  name : FileName
  content : Bytes
  mode : Nat

/-- Something below the root, with the file that it is or, if it is a link, leads to. -/
structure Entry where
  directory : Path
  name : FileName
  is_symlink : Bool := false
  file : Option File
  own : is_symlink = false → ∀ f ∈ file, f.name = name

def Entry.path (e : Entry) : Path := e.directory ++ [e.name]

/-- Where the tree is, which is an absolute path that has been resolved. -/
structure Root where
  parts : Path
  real : dotdot ∉ parts

def TRANSLATOR_NAMES : List FileName := ["libndk_translation.so".toList, "libhoudini.so".toList]

def SAFE_SYSTEM_LIBS : List FileName :=
  ["libandroid.so".toList, "libc.so".toList, "libdl.so".toList, "liblog.so".toList, "libm.so".toList,
    "libstdc++.so".toList, "libc++.so".toList, "libz.so".toList, "libbase.so".toList, "libutils.so".toList]

def PARTITIONS : List FileName := ["system".toList, "system_ext".toList, "product".toList, "vendor".toList]

/-- What a `BridgeError` is about. -/
inductive Problem where
  | no_translator
  | translator_writable (source : Entry)
  | translator_host (source : Entry)
  | mixed_translators
  | missing_dependency (name : FileName) (bits : Nat) (architecture : Architecture)
  | readelf_failed (source : Entry)
  | unsafe_target
  | unsupported_elf (resolved : File)

inductive Exc where
  | bridge_error (problem : Problem)
  | key_error
  | os_error

/-! ## Paths -/

def as_posix (path : Path) : Str := ['/'].intercalate path

def absolute (root : Root) (e : Entry) : Str := '/' :: as_posix (root.parts ++ e.path)

/-- The order of the paths: links come last. -/
def Before (root : Root) (a b : Entry) : Prop :=
  (a.is_symlink = false ∧ b.is_symlink = true) ∨ (a.is_symlink = b.is_symlink ∧ absolute root a ≤ absolute root b)

instance (root : Root) : DecidableRel (Before root) := fun a b => by unfold Before; infer_instance

/-- The tree as it is gone through. -/
def sorted (root : Root) (tree : List Entry) : List Entry := tree.insertionSort (Before root)

def translator_target (root : Root) (path : Entry) (bits : Nat) : Except Exc Path :=
  let parts := root.parts ++ path.path
  let indexes := (PARTITIONS.filter (· ∈ parts)).map fun name => parts.idxOf name
  let relative :=
    match indexes.min? with
    | some index => parts.drop index
    | none => ["system".toList, if bits = 64 then "lib64".toList else "lib".toList, path.name]
  if dotdot ∈ relative then .error (.bridge_error .unsafe_target) else .ok relative

def file_name (path : Path) : FileName := path.getLastD []

/-- `sub in s` -/
def contains (s : Str) (sub : String) : Bool := sub.toList <:+: s

def startswith (s : Str) (pre : String) : Bool := pre.toList <+: s

def endswith (s : Str) (suffix : String) : Bool := suffix.toList <:+ s

def libndk_arm64_file (target : Path) : Bool :=
  let value := as_posix target
  let name := file_name target
  -- `$` also matches in front of a line break at the end
  let binfmt_misc_arm := endswith name "binfmt_misc_arm" || endswith name "binfmt_misc_arm\n" ||
    contains name "binfmt_misc_arm."
  if contains value "/arm/" || endswith name ".arm.txt" || binfmt_misc_arm then false
  else contains value "/arm64/" || endswith name ".arm64.txt" || startswith name "libndk_translation" ||
    startswith name "ndk_translation" || (name = "libnb.so".toList && "lib64".toList ∈ target) ||
    name = "binfmt_misc_arm64".toList

/-! ## The translators -/

structure Library where
  entry : Entry
  file : File
  bits : Nat
  architecture : Architecture

variable (tools : Tools)

def library (path : Entry) : Option Library :=
  match path.file with
  | none => none
  | some file =>
    if endswith path.name ".so" then
      (tools.elf_info file.content).map fun info => ⟨path, file, info.1, info.2⟩
    else none

/-- A lookup in `all_libraries`, where the first path of a name counts. -/
def bundled (libraries : List Library) (bits : Nat) (architecture : Architecture) (name : FileName) : Option Library :=
  libraries.find? fun l => l.bits = bits ∧ l.architecture = architecture ∧ l.entry.name = name

def needed_libraries (source : Library) : Except Exc (List FileName) :=
  let dynamic := tools.readelf source.file.content
  if dynamic.succeeds then .ok dynamic.needed else .error (.bridge_error (.readelf_failed source.entry))

abbrev Identity := Str × Nat × Architecture

structure Translators where
  identities : List Identity := []
  translator_name : Option FileName := none
  translators : List Library := []

/-- The body of the loop over the candidates. -/
def add_translator (libraries : List Library) (s : Translators) (source : Library) : Except Exc Translators :=
  let identity := (tools.sha256 source.file.content, source.bits, source.architecture)
  if identity ∈ s.identities then .ok s
  else if source.file.mode &&& 0o022 ≠ 0 then .error (.bridge_error (.translator_writable source.entry))
  else if source.architecture ∉ [.x86, .x86_64] then .error (.bridge_error (.translator_host source.entry))
  else if s.translator_name.any (· ≠ source.entry.name) then .error (.bridge_error .mixed_translators)
  else do
    let needed ← needed_libraries tools source
    match needed.find? fun dependency =>
        dependency ∉ SAFE_SYSTEM_LIBS ∧
          (bundled libraries source.bits source.architecture dependency).isNone = true with
    | some dependency => .error (.bridge_error (.missing_dependency dependency source.bits source.architecture))
    | none =>
      return {
        identities := identity :: s.identities
        translator_name := some source.entry.name
        translators := s.translators ++ [source] }

/-- `sorted(architectures)` -/
def Translators.architectures (s : Translators) : List Str :=
  (if s.translators.any (·.bits = 64) then ["arm64-v8a".toList] else []) ++
    if s.translators.any (·.bits ≠ 64) then ["armeabi-v7a".toList] else []

/-! ## The files that are selected -/

structure Selected where
  item : Entry
  file : File
  bits : Nat
  target : Path

def Library.select (root : Root) (l : Library) : Except Exc Selected := do
  return ⟨l.entry, l.file, l.bits, ← translator_target root l.entry l.bits⟩

def select_libndk (root : Root) (arm64_only : Bool) (selected : List Selected) (item : Entry) :
    Except Exc (List Selected) :=
  match item.file with
  | none => .ok selected
  | some file => do
    let bits := ((tools.elf_info file.content).map Prod.fst).getD 64
    let target ← translator_target root item bits
    if arm64_only && !libndk_arm64_file target then return selected
    else if libndk_arm64_file target then return selected ++ [⟨item, file, bits, target⟩]
    else return selected

def select_dependency (root : Root) (libraries : List Library) (source : Library) (selected : List Selected)
    (dependency : FileName) : Except Exc (List Selected) :=
  if dependency ∈ SAFE_SYSTEM_LIBS then .ok selected
  else
    match bundled libraries source.bits source.architecture dependency with
    | none => .error .key_error
    | some library => return selected ++ [← { library with bits := source.bits }.select root]

def select_translator (root : Root) (libraries : List Library) (selected : List Selected) (source : Library) :
    Except Exc (List Selected) := do
  let first ← source.select root
  let needed ← needed_libraries tools source
  needed.foldlM (select_dependency root libraries source) (selected ++ [first])

/-- The first half of `build_payload`: the translators, and the files to be staged in their order. -/
def selection (root : Root) (tree : List Entry) : Except Exc (Translators × List Selected) := do
  let paths := sorted root tree
  let libraries := paths.filterMap (library tools)
  let candidates := libraries.filter (·.entry.name ∈ TRANSLATOR_NAMES)
  if candidates.isEmpty then throw (.bridge_error .no_translator)
  let translators ← candidates.foldlM (add_translator tools libraries) {}
  let selected ←
    if translators.translator_name = some "libndk_translation.so".toList then
      paths.foldlM (select_libndk tools root (translators.architectures = ["arm64-v8a".toList])) []
    else translators.translators.foldlM (select_translator tools root libraries) []
  return (translators, selected)

/-! ## Staging -/

structure StagedFile where
  path : Path
  content : Bytes
  mode : Nat
  deriving DecidableEq

structure Metadata where
  bits : Nat
  machine : Architecture
  soname : Option Str
  interpreter : Option Str
  needed : List FileName
  symbol_versions : List Str
  deriving DecidableEq

def elf_metadata (content : Bytes) : Option Metadata :=
  (tools.elf_info content).map fun info =>
    let dynamic := tools.readelf content
    { bits := info.1, machine := info.2, soname := dynamic.soname, interpreter := dynamic.interpreter,
      needed := dynamic.needed, symbol_versions := dynamic.symbol_versions }

/-- An entry of the manifest. -/
structure FileEntry where
  path : Path
  sha256 : Str
  size : Nat
  mode : Nat
  bits : Nat
  elf : Option Metadata
  deriving DecidableEq

structure Staging where
  output : List StagedFile
  staged_identities : List (Identity × Path) := []
  files : List FileEntry := []
  deduplicated : List (Path × Path) := []

/-- There is a file or, above a file, a directory. -/
def Occupied (output : List StagedFile) (target : Path) : Prop := ∃ f ∈ output, target <+: f.path

instance (output : List StagedFile) (target : Path) : Decidable (Occupied output target) := by
  unfold Occupied; infer_instance

/-- No directory can be made where a file is. -/
def Obstructed (output : List StagedFile) (target : Path) : Prop := ∃ f ∈ output, f.path <+: target

instance (output : List StagedFile) (target : Path) : Decidable (Obstructed output target) := by
  unfold Obstructed; infer_instance

/-- `None` for a file that is no library; a library has to be an ELF file. -/
def identity (resolved : File) : Except Exc (Option Identity) :=
  if endswith resolved.name ".so" then
    match tools.elf_info resolved.content with
    | none => .error (.bridge_error (.unsupported_elf resolved))
    | some info => .ok (some (tools.sha256 resolved.content, info.1, info.2))
  else .ok none

def staged_mode (target : Path) : Nat := if "bin".toList ∈ target then 0o755 else 0o644

def Selected.staged (s : Selected) : StagedFile := ⟨s.target, s.file.content, staged_mode s.target⟩

def Selected.entry (s : Selected) : FileEntry where
  path := s.target
  sha256 := tools.sha256 s.file.content
  size := s.file.content.length
  mode := staged_mode s.target
  bits := s.bits
  elf := elf_metadata tools s.file.content

def Staging.add (st : Staging) (s : Selected) (id : Option Identity) : Staging where
  output := st.output ++ [s.staged]
  staged_identities := st.staged_identities ++ (id.map fun id => (id, s.target)).toList
  files := st.files ++ [s.entry tools]
  deduplicated := st.deduplicated

/-- The body of the loop over the selected files. -/
def stage (st : Staging) (s : Selected) : Except Exc Staging := do
  let id ← identity tools s.file
  match if s.item.is_symlink then id.bind fun id => st.staged_identities.lookup id else none with
  | some same_as => return { st with deduplicated := st.deduplicated ++ [(s.target, same_as)] }
  | none =>
    if Occupied st.output s.target then return st
    else if Obstructed st.output s.target then throw .os_error
    else return st.add tools s id

structure Payload where
  translator_name : Option FileName
  architectures : List Str
  files : List FileEntry
  deduplicated : List (Path × Path)
  interface_versions : List Nat
  output : List StagedFile
  deriving DecidableEq

/-- What is returned, and the output directory with what has been staged there. -/
def build_payload (root : Root) (tree : List Entry) (output : List StagedFile) : Except Exc Payload := do
  let (translators, selected) ← selection tools root tree
  let st ← selected.foldlM (stage tools) { output := output }
  return {
    translator_name := translators.translator_name
    architectures := translators.architectures
    files := st.files.insertionSort fun a b => as_posix a.path ≤ as_posix b.path
    deduplicated := st.deduplicated
    interface_versions := (translators.translators.filterMap fun l =>
      tools.native_bridge_interface_version l.file.content).dedup.insertionSort (· ≤ ·)
    output := st.output }

/-! ## What is staged -/

def selected_files (root : Root) (tree : List Entry) : List Selected :=
  match selection tools root tree with
  | .error _ => []
  | .ok (_, selected) => selected

/-- A library is known by its content. -/
def key (resolved : File) : Option Identity :=
  if endswith resolved.name ".so" then
    (tools.elf_info resolved.content).map fun info => (tools.sha256 resolved.content, info.1, info.2)
  else none

/-- A link to a library that is staged already is left out, and what would come to a place that is occupied. -/
def LeftOut (output : List StagedFile) (taken : List Selected) (s : Selected) : Prop :=
  (s.item.is_symlink = true ∧ (key tools s.file).isSome = true ∧ ∃ k ∈ taken, key tools k.file = key tools s.file) ∨
    Occupied (output ++ taken.map Selected.staged) s.target

instance (output : List StagedFile) (taken : List Selected) (s : Selected) :
    Decidable (LeftOut tools output taken s) := by
  unfold LeftOut; infer_instance

/-- The others, in their order. -/
def taken (output : List StagedFile) (selected : List Selected) : List Selected :=
  selected.foldl (fun taken s => if LeftOut tools output taken s then taken else taken ++ [s]) []

/-- A library may need this name: no safe library, and in the guest no library of its system. -/
def Needs (guest : FileName → Bool) (content : Bytes) (architecture : Architecture) (name : FileName) : Prop :=
  name ∈ (tools.readelf content).needed ∧ name ∉ SAFE_SYSTEM_LIBS ∧
    (architecture = .arm ∨ architecture = .arm64 → guest name = false)

/-- A library of this class and for this machine needs the name. -/
def Selected.NeedsFor (guest : FileName → Bool) (s : Selected) (info : Nat × Architecture) (name : FileName) : Prop :=
  endswith s.item.name ".so" = true ∧ tools.elf_info s.file.content = some info ∧
    Needs tools guest s.file.content info.2 name

/-- One of the files has the name, the class and the machine. -/
def Provided (selected : List Selected) (info : Nat × Architecture) (name : FileName) : Prop :=
  ∃ l ∈ selected, l.item.name = name ∧ tools.elf_info l.file.content = some info

/-- The translators, when nothing is selected but them and what they need. -/
def checked_translators (root : Root) (tree : List Entry) : List Library :=
  match selection tools root tree with
  | .error _ => []
  | .ok (translators, _) =>
    if translators.translator_name = some "libndk_translation.so".toList then [] else translators.translators

/-- What has not been looked for is there: the names that the other staged files need are selected, and what is left out
is not needed, or is staged from another place. -/
structure Complete (guest : FileName → Bool) (root : Root) (tree : List Entry) (output : List StagedFile) : Prop where
  selected : ∀ s ∈ taken tools output (selected_files tools root tree),
    (∀ source ∈ checked_translators tools root tree, source.file.content ≠ s.file.content) →
      ∀ info name, s.NeedsFor tools guest info name → Provided tools (selected_files tools root tree) info name
  left_out : ∀ l ∈ selected_files tools root tree, ∀ info, tools.elf_info l.file.content = some info →
    (∃ s ∈ taken tools output (selected_files tools root tree), s.NeedsFor tools guest info l.item.name) →
      Provided tools (taken tools output (selected_files tools root tree)) info l.item.name

/-- The content of a file in the output directory. -/
def read (output : List StagedFile) (path : Path) : Option Bytes := (output.find? (·.path = path)).map (·.content)

/-- The part of a path from the first partition on. -/
def fromPartition (parts : Path) : Path := parts.dropWhile (· ∉ PARTITIONS)

/-- The part of the root from the first partition on. -/
def partition_part (root : Root) : Path := root.parts.dropWhile (· ∉ PARTITIONS)

end AnboxReboxed.Scripts.BuildPayload
