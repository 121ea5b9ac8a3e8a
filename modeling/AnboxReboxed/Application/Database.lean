import AnboxReboxed.Application.LauncherStorage
import AnboxReboxed.Lib.Machine
import Mathlib.Logic.Function.Basic

/-!
# The applications of the guest

Android tells which applications it has and which ones are gone. The database keeps what it said about each package,
and a launcher for each of them in the directory of the host.
-/

namespace AnboxReboxed.Application

open AnboxReboxed.Lib ByteString Function

/-- The files of the host, by their paths. -/
abbrev Files := ByteString → Option ByteString

namespace LauncherStorage

variable (s : LauncherStorage)

/-- The file that a path stands for in the directory itself. -/
def entry_name (path : ByteString) : Option ByteString :=
  if join s.path_ [] <+: path ∧ slash ∉ path.drop (join s.path_ []).length then
    some (path.drop (join s.path_ []).length)
  else none

def reset (files : Files) : Files := fun path =>
  match s.entry_name path with
  | none => files path
  | some name => if ByteString.of "anbox-" <+: name then none else files path

def remove (item : Item) (files : Files) : Files :=
  let package_name := clean_package_name item.package
  update (update files (c_str (s.path_for_item package_name)) none) (c_str (s.path_for_item_icon package_name)) none

end LauncherStorage

def write (files : Files) (file : ByteString × ByteString) : Files := update files file.1 (some file.2)

structure Database where
  items_ : ByteString → Option Item := fun _ => none
  done_reset : Bool := false
  /-- The files that the storage has to do with. -/
  files : Files

namespace Database

variable (storage_ : LauncherStorage) (process : Process)

def store_or_update (db : Database) (item : Item) : Database where
  items_ := update db.items_ item.package (some { item with icon := [] })
  done_reset := true
  files := (storage_.add_or_update process item).foldl write
    (if db.done_reset then db.files else storage_.reset db.files)

def remove (db : Database) (item : Item) : Database :=
  match db.items_ item.package with
  | none => db
  | some _ => { db with files := storage_.remove item db.files, items_ := update db.items_ item.package none }

end Database

/-! ## The events -/

/-- An intent of the bridge. A text that is not set is empty. -/
structure LaunchIntent where
  action : ByteString := []
  uri : ByteString := []
  type : ByteString := []
  package : ByteString := []
  component : ByteString := []
  categories : List ByteString := []

structure AndroidApplication where
  name : ByteString := []
  package : ByteString
  launch_intent : LaunchIntent := {}
  icon : ByteString := []

structure ApplicationListUpdateEvent where
  applications : List AndroidApplication := []
  removed_applications : List AndroidApplication := []

namespace AndroidApplication

/-- The item that `handle_application_list_update_event` makes of an application. -/
def item (app : AndroidApplication) : Item where
  name := app.name
  package := app.package
  launch_intent :=
    { action := app.launch_intent.action
      uri := app.launch_intent.uri
      type := app.launch_intent.uri
      package := app.launch_intent.package
      component := app.launch_intent.component
      categories := app.launch_intent.categories }
  icon := app.icon

/-- The item that an application stands for, without its icon. -/
def mirrored (app : AndroidApplication) : Item where
  name := app.name
  package := app.package
  launch_intent :=
    { action := app.launch_intent.action
      uri := app.launch_intent.uri
      type := app.launch_intent.type
      package := app.launch_intent.package
      component := app.launch_intent.component
      categories := app.launch_intent.categories }

end AndroidApplication

namespace Database

variable (storage_ : LauncherStorage) (process : Process)

def handle_removed (db : Database) (app : AndroidApplication) : Database :=
  if app.package = [] then db else db.remove storage_ { package := app.package }

def handle_application (db : Database) (app : AndroidApplication) : Database :=
  if app.package = [] then db else db.store_or_update storage_ process app.item

def handle_application_list_update_event (db : Database) (event : ApplicationListUpdateEvent) : Database :=
  event.applications.foldl (handle_application storage_ process)
    (event.removed_applications.foldl (handle_removed storage_) db)

end Database

/-! ## What is to become of an event -/

/-- The items of a map, less those of the packages that are gone. -/
def without (items : ByteString → Option Item) (removed : List AndroidApplication) : ByteString → Option Item :=
  removed.foldl (fun items app => update items app.package none) items

/-- The items of a map, overridden in order by what `item` makes of the applications that have a package. -/
def overridden (item : AndroidApplication → Item) (items : ByteString → Option Item)
    (applications : List AndroidApplication) : ByteString → Option Item :=
  applications.foldl (fun items app => if app.package = [] then items else update items app.package (some (item app)))
    items

namespace LauncherStorage

variable (s : LauncherStorage)

/-- The path is one of `anbox-*.desktop` in the directory. -/
def IsLauncher (path : ByteString) : Prop :=
  ∃ name, path = join s.path_ name ∧ slash ∉ name ∧ ByteString.of "anbox-" <+: name ∧
    ByteString.of ".desktop" <:+ name

/-- The file of a package. -/
def launcher (package : ByteString) : ByteString := c_str (s.path_for_item (clean_package_name package))

end LauncherStorage

namespace Database

variable (storage_ : LauncherStorage) (process : Process)

/-- There is one launcher for each package, written from its item, and no other one. -/
structure Launchers (db : Database) : Prop where
  written : ∀ package item, db.items_ package = some item → storage_.IsLauncher (storage_.launcher package) ∧
    db.files (storage_.launcher package) = some (storage_.desktop_item process item)
  only : ∀ path content, storage_.IsLauncher path → db.files path = some content →
    ∃ package item, db.items_ package = some item ∧ storage_.launcher package = path
  distinct : ∀ package package' item item', db.items_ package = some item → db.items_ package' = some item' →
    storage_.launcher package = storage_.launcher package' → package = package'

/-- An event is mirrored: by the items, and by the launchers once there are any. -/
structure Mirrors (db : Database) (event : ApplicationListUpdateEvent) (db' : Database) : Prop where
  items : db'.items_ =
    overridden AndroidApplication.mirrored (without db.items_ event.removed_applications) event.applications
  launchers : db'.done_reset = true → db'.Launchers storage_ process

/-- The last application of a package in a list. -/
def latest : List AndroidApplication → ByteString → Option AndroidApplication
  | [], _ => none
  | app :: applications, package =>
    (latest applications package).or (if app.package = package then some app else none)

/-- The package is listed by the event, or it is kept. -/
def Remains (db : Database) (event : ApplicationListUpdateEvent) (package : ByteString) : Prop :=
  (package ≠ [] ∧ ∃ app ∈ event.applications, app.package = package) ∨
    (db.items_ package ≠ none ∧ ∀ app ∈ event.removed_applications, app.package ≠ package)

/-- The type that is listed last is the uri, the packages are names of files, and no two of those that remain have
the same file. -/
structure Mirrorable (db : Database) (event : ApplicationListUpdateEvent) : Prop where
  types : ∀ package app, package ≠ [] → latest event.applications package = some app →
    app.launch_intent.type = app.launch_intent.uri
  names : ∀ app ∈ event.applications, slash ∉ app.package ∧ 0 ∉ app.package
  distinct : ∀ package package', db.Remains event package → db.Remains event package' →
    LauncherStorage.clean_package_name package = LauncherStorage.clean_package_name package' → package = package'

end Database

/-- The directory may have any files at first. -/
def databaseMachine (storage_ : LauncherStorage) (process : Process) (files : Files) :
    Machine Database ApplicationListUpdateEvent where
  init := { files }
  step db event := some (db.handle_application_list_update_event storage_ process event)

end AnboxReboxed.Application
