import AnboxReboxed.Lib.KeyFile

/-!
# The launchers of the host

For each application of Android there is a desktop entry in a directory of the host, and an icon. The names of the
files and the lines of the entry are made of what the guest says about the application.
-/

namespace AnboxReboxed.Application

open AnboxReboxed.Lib ByteString

/-- `android::Intent`. -/
structure Intent where
  action : ByteString := []
  uri : ByteString := []
  type : ByteString := []
  flags : Int := 0
  package : ByteString := []
  component : ByteString := []
  categories : List ByteString := []
  deriving DecidableEq

/-- `Database::Item`. -/
structure Item where
  name : ByteString := []
  package : ByteString := []
  launch_intent : Intent := {}
  icon : ByteString := []
  deriving DecidableEq

/-- What is asked of the process: the path of its executable, and the value of `SNAP`. -/
structure Process where
  exe_path : ByteString
  snap : ByteString := []

def snap_exe_path : ByteString := .of "/snap/bin/anbox"

def Process.executable (p : Process) : ByteString := if p.snap.length > 0 then snap_exe_path else p.exe_path

def slash : UInt8 := 47
def dot : UInt8 := 46
def dash : UInt8 := 45

/-- A path of `boost::filesystem`, with something appended to it. -/
def join (path name : ByteString) : ByteString :=
  if path = [] ∨ path.getLast? = some slash then path ++ name else path ++ slash :: name

/-- The path that the system gets, which ends before a zero. -/
def c_str (path : ByteString) : ByteString := path.takeWhile (· ≠ 0)

/-- The directory of the launchers. -/
structure LauncherStorage where
  path_ : ByteString
  no_zero : 0 ∉ path_

def endl (line : ByteString) : ByteString := line ++ [newline]

/-- An argument of the command, which is left out when it is empty. -/
def argument (option value : ByteString) : ByteString :=
  if value = [] then [] else option ++ equals :: value ++ .of " "

/-- The fields of an intent that are arguments, with their options. -/
def Intent.options (intent : Intent) : List (ByteString × ByteString) :=
  [(.of "--action", intent.action), (.of "--type", intent.type), (.of "--uri", intent.uri),
    (.of "--package", intent.package), (.of "--component", intent.component)]

def exec (exe_path : ByteString) (intent : Intent) : ByteString :=
  exe_path ++ .of " launch " ++ intent.options.flatMap fun o => argument o.1 o.2

namespace LauncherStorage

variable (s : LauncherStorage)

def clean_package_name (package_name : ByteString) : ByteString :=
  package_name.map fun b => if b = dot then dash else b

def path_for_item (package_name : ByteString) : ByteString :=
  join s.path_ (.of "anbox-" ++ package_name ++ .of ".desktop")

def path_for_item_icon (package_name : ByteString) : ByteString :=
  join s.path_ (.of "anbox-" ++ package_name ++ .of ".png")

def desktop_item (process : Process) (item : Item) : ByteString :=
  endl (.of "[Desktop Entry]") ++ endl (.of "Type=Application") ++ endl (.of "Name=" ++ item.name) ++
    endl (.of "Exec=" ++ exec process.executable item.launch_intent) ++ endl (.of "Terminal=false") ++
    endl (.of "Categories=Anbox;") ++ endl (.of "Icon=" ++ s.path_for_item_icon (clean_package_name item.package))

/-- The files that are written, in order: where, and what. -/
def add_or_update (process : Process) (item : Item) : List (ByteString × ByteString) :=
  let package_name := clean_package_name item.package
  [(c_str (s.path_for_item package_name), s.desktop_item process item),
    (c_str (s.path_for_item_icon package_name), item.icon)]

/-- The path is below the directory: it goes on from there, and not up again. -/
def Inside (path : ByteString) : Prop :=
  ∃ name, path = join s.path_ name ∧ name ≠ [] ∧ name.head? ≠ some slash ∧ ¬[dot, dot] <:+: name

/-- The entry has its keys, and runs the executable. -/
structure Runs (executable entry : ByteString) : Prop where
  keys : (parse entry).map Prod.fst =
    [.of "Type", .of "Name", .of "Exec", .of "Terminal", .of "Categories", .of "Icon"]
  command : ∀ value, (.of "Exec", value) ∈ parse entry → executable ++ .of " launch " <+: value

/-- What is to be written for an item. -/
structure Harmless (process : Process) (item : Item) : Prop where
  entry : ∃ entry icon, s.add_or_update process item = [entry, icon] ∧ Runs process.executable entry.2
  inside : ∀ file ∈ s.add_or_update process item, s.Inside file.1

/-- No key is behind a line break: not in the name, not in the path of the icon, and not in the command, where the
option of the next argument would be one. -/
structure Unbroken (process : Process) (item : Item) : Prop where
  name : equals ∉ afterBreak item.name
  executable : newline ∉ process.executable
  value : ∀ option ∈ item.launch_intent.options, equals ∉ afterBreak option.2
  last : item.launch_intent.options.Pairwise fun option next => newline ∈ option.2 → next.2 = []
  icon : equals ∉ afterBreak (s.path_ ++ item.package)

end LauncherStorage

end AnboxReboxed.Application
