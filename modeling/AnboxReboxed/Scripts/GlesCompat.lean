import AnboxReboxed.Lib.Machine
import Mathlib.Data.List.AList
import Mathlib.Data.List.Infix

/-!
# The overlay for the GLES libraries

`anbox-gles-compat` replaces libraries of the vendor image: it puts the replacements below `state/vendor-gles-compat`
and binds them over the originals by lines of the `bindtab`. Each step is one file operation. It may raise, and the
process may be killed before it. What is prepared before the first change is only read and is left out, up to whether
it raises.
-/

namespace AnboxReboxed.Scripts.GlesCompat

open AnboxReboxed.Lib

abbrev Text := List Char

local instance lawfulBEqText : LawfulBEq Text := inferInstance

/-- A hash stands for the content that has it. -/
abbrev Sha256 := Text

/-! ## Manifests -/

structure Entry where
  /-- `target_path` without `/vendor/` -/
  library : Text
  replacement_sha256 : Sha256
  deriving DecidableEq

/-- The suffix of a file that is not complete. -/
def tmp : Text := ".tmp".toList

/-- The replacement libraries of a manifest. Their paths are canonical, and none is the path of another one before it
is complete. -/
structure Manifest where
  entries : List Entry
  nonempty : entries ≠ []
  nodup : (entries.map Entry.library).Nodup
  complete : ∀ e ∈ entries, ¬tmp <:+ e.library
  deriving DecidableEq

def Manifest.libraries (m : Manifest) : List Text := m.entries.map Entry.library

/-! ## The bindtab -/

def marker : Text := "vendor-gles-compat".toList

/-- `os.path.join`, for a path that does not start with a slash. -/
def join (directory path : Text) : Text :=
  if directory = [] ∨ directory.getLast? = some '/' then directory ++ path else directory ++ '/' :: path

def overlay_rel (library : Text) : Text := "state/".toList ++ marker ++ '/' :: library

def bind_line (data_dir library : Text) : Text :=
  join data_dir (overlay_rel library) ++ ' ' :: join data_dir ("combined-rootfs/vendor/".toList ++ library) ++
    " none bind,optional,ro 0 0".toList

/-- The lines that `update_bindtab` writes. -/
def update_bindtab (data_dir : Text) (lines : List Text) (wanted : List Text) : List Text :=
  lines.filter (fun line => ¬marker <:+: line) ++ wanted.map (bind_line data_dir)

/-! ## Runs -/

inductive Action where
  | apply
  | auto
  | reset

/-- What a run does next. -/
inductive Stage where
  | idle
  /-- Before the first change of `apply_replacements`. -/
  | preparing
  /-- `current` is computed. -/
  | comparing
  /-- In `rmtree`. -/
  | removing
  /-- In the loop over the replacements that are left. -/
  | copying (left : List Entry)
  /-- The file is complete, and is to be moved to its place. -/
  | replacing (entry : Entry) (left : List Entry)
  | binding
  /-- At the end of the `with` statement. -/
  | leaving
  /-- In `reset`. -/
  | unbinding
  | clearing
  /-- In the handler of `main`. -/
  | recovering
  | discarding
  deriving DecidableEq

/-- The lines of the bindtab, the files below `state/vendor-gles-compat`, the run and its manifest; or the one of the
last run. -/
structure Gles where
  lines : List Text
  overlay : AList fun _ : Text => Sha256 := ∅
  stage : Stage := .idle
  manifest : Option Manifest := none

inductive GlesOp where
  | start (action : Action) (m : Manifest)
  | next
  /-- `rmtree` removes a file. -/
  | unlink (path : Text)
  /-- `copyfile` writes a part of the file. -/
  | partly (content : Sha256)
  | raise
  | kill

namespace Gles

variable (data_dir : Text)

/-- The entries of the manifest that is loaded. -/
def entries (s : Gles) : List Entry := (s.manifest.map Manifest.entries).getD []

/-- `current` -/
def current (s : Gles) : Bool :=
  s.entries.all (fun e => s.overlay.lookup e.library = some e.replacement_sha256) &&
    s.overlay.keys.all (fun path => path ∈ s.entries.map Entry.library)

def next (s : Gles) : Option Gles :=
  match s.stage with
  | .idle => none
  | .preparing => some { s with stage := .comparing }
  | .comparing => some { s with stage := if s.current then .binding else .removing }
  | .removing => if s.overlay.keys = [] then some { s with stage := .copying s.entries } else none
  | .copying [] => some { s with stage := .binding }
  | .copying (e :: left) =>
    if s.overlay.lookup e.library = some e.replacement_sha256 then some { s with stage := .copying left }
    else
      some { s with overlay := s.overlay.insert (e.library ++ tmp) e.replacement_sha256, stage := .replacing e left }
  | .replacing e left =>
    match s.overlay.lookup (e.library ++ tmp) with
    | some content =>
      some { s with
        overlay := (s.overlay.erase (e.library ++ tmp)).insert e.library content
        stage := .copying left }
    | none => none
  | .binding => some { s with
      lines := update_bindtab data_dir s.lines (s.entries.map Entry.library)
      stage := .leaving }
  | .leaving => some { s with stage := .idle }
  | .unbinding => some { s with lines := update_bindtab data_dir s.lines [], stage := .clearing }
  | .clearing => if s.overlay.keys = [] then some { s with stage := .idle } else none
  | .recovering => some { s with lines := update_bindtab data_dir s.lines [], stage := .discarding }
  | .discarding => if s.overlay.keys = [] then some { s with stage := .idle } else none

/-- In `rmtree`, by whoever calls it. -/
def removes (s : Gles) : Bool := s.stage = .removing || s.stage = .clearing || s.stage = .discarding

def step (s : Gles) : GlesOp → Option Gles
  | .start action m =>
    if s.stage = .idle then
      some { s with
        manifest := some m
        stage := match action with
          | .apply => .preparing
          | .auto => .preparing
          | .reset => .unbinding }
    else none
  | .next => s.next data_dir
  | .unlink path =>
    if s.removes ∧ path ∈ s.overlay then some { s with overlay := s.overlay.erase path } else none
  | .partly content =>
    match s.stage with
    | .copying (e :: _) =>
      if s.overlay.lookup e.library = some e.replacement_sha256 then none
      else some { s with overlay := s.overlay.insert (e.library ++ tmp) content }
    | _ => none
  | .raise =>
    match s.stage with
    | .idle => none
    | .recovering => some { s with stage := .idle }
    | .discarding => some { s with stage := .idle }
    | _ => some { s with stage := .recovering }
  | .kill => if s.stage = .idle then none else some { s with stage := .idle }

end Gles

/-- There are lines of others in the bindtab, and no overlay. -/
def glesMachine (data_dir : Text) (others : List Text) : Machine Gles GlesOp where
  init := { lines := others }
  step := Gles.step data_dir

/-! ## All or nothing -/

section Property

variable (data_dir : Text)

/-- The line binds a library. -/
def Binding (line : Text) : Prop := ∃ library, line = bind_line data_dir library

namespace Gles

/-- The library is bound, and its file is there. -/
def Active (s : Gles) (library : Text) : Prop :=
  bind_line data_dir library ∈ s.lines ∧ s.overlay.lookup library ≠ none

/-- Nothing is active, or just what the manifest lists, with the contents that it lists. -/
def AllOrNothing (m : Manifest) (s : Gles) : Prop :=
  (∀ library, ¬s.Active data_dir library) ∨
    (∀ library, s.Active data_dir library ↔ library ∈ m.libraries) ∧
      ∀ e ∈ m.entries, s.overlay.lookup e.library = some e.replacement_sha256

/-- Beside the lines of the others there are only bindings. -/
def OthersKept (others : List Text) (s : Gles) : Prop :=
  ∃ bindings, (∀ line ∈ bindings, Binding data_dir line) ∧ s.lines = others ++ bindings

structure Consistent (others : List Text) (s : Gles) : Prop where
  active : ∀ m, s.manifest = some m → s.AllOrNothing data_dir m
  others : s.OthersKept data_dir others

/-- A run starts with what its own manifest has made, or with nothing. The bindtab is rewritten when the others do not
name the overlay. -/
def Undisturbed (s : Gles) : GlesOp → Prop
  | .start _ m => s.stage = .idle → s.AllOrNothing data_dir m
  | .next =>
    s.stage = .binding ∨ s.stage = .unbinding ∨ s.stage = .recovering →
      ∀ line ∈ s.lines, marker <:+: line → Binding data_dir line
  | _ => True

end Gles

end Property

end AnboxReboxed.Scripts.GlesCompat
