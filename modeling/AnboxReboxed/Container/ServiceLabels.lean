import AnboxReboxed.Lib.InitScript
import AnboxReboxed.Lib.Machine
import Mathlib.Data.List.Infix

/-!
# The init files of the container

`add_container_service_labels` copies an init file line by line. Some lines are replaced, and options are put in after
the declarations of services. Each line is kept here with what it stands for; the text that is appended to `hw/init.rc`
afterwards is fixed and not part of the model.
-/

namespace AnboxReboxed.Container

open AnboxReboxed.Lib AnboxReboxed.Lib.InitScript

/-- What the function asks about the file and the host. -/
structure InitFile where
  filename : Line
  /-- It is `hw/init.rc` of the source directory. -/
  hw_init : Bool := false
  /-- `/dev/ashmem` exists. -/
  ashmem : Bool := false

/-- `std::string::find` and `replace`: the first occurrence of `pattern` gives way to `text`. -/
def replaceFirst (pattern text : Line) : Line → Line
  | [] => []
  | c :: line =>
    if pattern <+: c :: line then text ++ (c :: line).drop pattern.length else c :: replaceFirst pattern text line

def exec_replacements : List (Line × Line) := [
  ("exec - ".toList, "exec u:r:init:s0 ".toList),
  ("exec -- ".toList, "exec u:r:init:s0 -- ".toList),
  ("exec_background - ".toList, "exec_background u:r:init:s0 ".toList),
  ("exec_background -- ".toList, "exec_background u:r:init:s0 -- ".toList)]

/-- The first of the replacements that applies. -/
def replaceExec : List (Line × Line) → Line → Line
  | [], text => text
  | (pattern, replacement) :: replacements, text =>
    if pattern <+: text then replacement ++ text.drop pattern.length else replaceExec replacements text

namespace InitFile

variable (file : InitFile)

/-- The replacements of a line, from its first character that is not blank on. -/
def replaceText (text : Line) : Line :=
  let text :=
    if file.hw_init ∧ text = "mount fusectl none /sys/fs/fuse/connections".toList then
      "# Anbox Reboxed: host fusectl connections are hidden".toList
    else text
  let text :=
    if file.ashmem = false ∧ file.hw_init ∧ text = "setprop sys.use_memfd false".toList then
      "setprop sys.use_memfd true".toList
    else text
  let text :=
    if file.filename = "init.zygote32.rc".toList ∧ "service ".toList <+: text then
      replaceFirst "/system/bin/app_process ".toList "/system/bin/app_process32 ".toList text
    else text
  let text :=
    if "/system/bin/vdc keymaster earlyBootEnded".toList <:+: text then
      "exec u:r:init:s0 -- /system/bin/true".toList
    else text
  replaceExec exec_replacements text

def replaceLine (line : Line) : Line :=
  if line.dropWhile blank = [] then line else line.takeWhile blank ++ file.replaceText (line.dropWhile blank)

end InitFile

/-- The last character that is not blank is a backslash. -/
def endsInBackslash (line : Line) : Bool := line.reverse.dropWhile blank |>.head? |>.any (· == '\\')

/-- A line of the file, as the loop goes over it. -/
structure ScannedLine where
  /-- `lines[index]` -/
  original : Line
  /-- What is written for it. -/
  shown : Line
  /-- The following lines, when this one ends what the loop takes for the declaration of a service. -/
  declared : Option (List Line) := none
  deriving DecidableEq

/-- The look-ahead. -/
def hasSeclabel : List Line → Bool
  | [] => false
  | [] :: options => hasSeclabel options
  | (c :: option) :: options =>
    if !blank c then false
    else if "seclabel ".toList <+: (c :: option).dropWhile blank then true
    else hasSeclabel options

def preload64 : Line :=
  "    setenv LD_PRELOAD /data/anbox/libanbox_ashmem_ioctl_compat.so:/data/anbox/libanbox_pipe_compat.so".toList

def preload32 : Line :=
  "    setenv LD_PRELOAD /data/anbox/libanbox_ashmem_ioctl_compat32.so:/data/anbox/libanbox_pipe_compat32.so".toList

namespace InitFile

variable (file : InitFile)

/-- The loop, which is in a declaration or not. Continuations of a declaration are written as they are. -/
def scan : Bool → List Line → List ScannedLine
  | _, [] => []
  | declaring, line :: lines =>
    let shown := if declaring then line else file.replaceLine line
    if declaring ∨ "service ".toList <+: line then
      if endsInBackslash line ∧ lines ≠ [] then ⟨line, shown, none⟩ :: scan true lines
      else ⟨line, shown, some lines⟩ :: scan false lines
    else ⟨line, shown, none⟩ :: scan false lines

/-- The lines with `LD_PRELOAD`, for a declaration that ends with `line`. -/
def preloads (line : Line) : List Line :=
  (if file.filename = "surfaceflinger.rc".toList then
    ["    setenv LD_PRELOAD /data/anbox/libanbox_pipe_compat.so".toList] else []) ++
  (if file.filename = "installd.rc".toList then
    ["    setenv LD_PRELOAD /data/anbox/libanbox_installd_selinux_compat.so".toList] else []) ++
  (if file.filename = "init.zygote64.rc".toList ∨
      file.filename = "init.zygote64_32.rc".toList ∧ "service zygote ".toList <+: line then
    [preload64] else []) ++
  (if file.filename = "init.zygote32.rc".toList ∨
      file.filename = "init.zygote64_32.rc".toList ∧ "service zygote_secondary ".toList <+: line then
    [preload32] else [])

/-- The options that are put in behind a line. -/
def inserted (s : ScannedLine) : List Line :=
  match s.declared with
  | none => []
  | some options =>
    file.preloads s.original ++ if hasSeclabel options then [] else ["    seclabel u:r:init:s0".toList]

end InitFile

/-! ## What `init` makes of the result -/

/-- A line with its options; these have no tag. -/
def taggedLines (entry : ScannedLine × List Line) : List (Option ScannedLine × Line) :=
  (some entry.1, entry.1.shown) :: entry.2.map fun option => (none, option)

/-- The generated file as it is read. -/
def generatedScript : Machine (Reader (Option ScannedLine)) (ScannedLine × List Line) where
  init := {}
  step r entry := some (r.readAll (taggedLines entry))

namespace GeneratedService

variable (s : Service (Option ScannedLine))

/-- The service without the options that were put in. -/
def own : Service (Option ScannedLine) := { s with options := s.options.filter fun o => o.all (·.1.isSome) }

/-- The options that were put in. -/
def added : List Line := (s.options.filter fun o => !o.all (·.1.isSome)).map Statement.text

def preloads : List Line := (added s).filter ("    setenv LD_PRELOAD ".toList <+: ·)

end GeneratedService

/-- The lines of the file, with the replacements, as they are read. -/
def shownScript : Machine (Reader ScannedLine) ScannedLine where
  init := {}
  step r s := some (r.read (s, s.shown))

/-- The last line of the declaration. -/
def lastLine (s : Service ScannedLine) : Option ScannedLine := s.declaration.getLast?.map Prod.fst

end AnboxReboxed.Container
