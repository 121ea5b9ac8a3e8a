import AnboxReboxed.Lib.Machine
import AnboxReboxed.Lib.OrdMap

/-!
# The window manager for many windows

Android tells which windows it has and which ones are gone, and the manager keeps one window of the host for each
task of the freeform stack. An update takes three passes: over the windows that Android has, over the tasks that
were known already, and over the windows that are gone.
-/

namespace AnboxReboxed.Wm

open AnboxReboxed.Lib

/-- `Stack::Id`. Android may send any number. -/
inductive Stack where
  | Invalid
  | Default
  | Fullscreen
  | Freeform
  | other (id : Int)
  deriving DecidableEq

structure Rect where
  left : Int := 0
  top : Int := 0
  right : Int := 0
  bottom : Int := 0
  deriving DecidableEq

structure WindowState where
  display : Int := 0
  has_surface : Bool
  frame : Rect := {}
  package_name : String := ""
  task : Int
  stack : Stack
  deriving DecidableEq

/-- A window of the host. Its `id` stands for the object. -/
structure Window where
  id : Nat
  task : Int
  frame : Rect
  title : String
  attached : Bool := false

/-- What the manager does to its surroundings. -/
inductive Effect where
  | createNativeWindow (id : Nat)
  | update_state (id : Nat) (states : List WindowState)
  | release (id : Nat)
  | destroyNativeWindow (id : Nat)
  | remove_task (task : Int)
  deriving DecidableEq

def Effect.updateOf (id : Nat) : Effect → Option (List WindowState)
  | .update_state i states => if i = id then some states else none
  | _ => none

/-- What a platform makes of a request for a window: which one it gets, and whether the renderer makes a native
window for it. -/
structure Created where
  task : Int
  frame : Rect
  title : String
  createNativeWindow : Bool

/-- A platform may answer each request in its own way: the first argument counts the windows that were made. -/
structure Platform where
  create_window : Nat → Int → Rect → String → Option Created

namespace Window

def attach (w : Window) (createNativeWindow : Bool) : Window × List Effect :=
  ({ w with attached := createNativeWindow }, if createNativeWindow then [.createNativeWindow w.id] else [])

def release (w : Window) : Window × List Effect :=
  if w.attached then ({ w with attached := false }, [.destroyNativeWindow w.id]) else (w, [])

/-- The manager releases a window and lets it go, and the destructor releases it once more. -/
def drop (w : Window) : List Effect :=
  let (w, released) := w.release
  let (w, destroyed) := w.release
  .release w.id :: released ++ destroyed

end Window

structure MultiWindowManager where
  windows_ : OrdMap Int Window := ∅
  /-- How many windows were made. -/
  created : Nat := 0
  log : List Effect := []

/-- A call of `apply_window_state_update`, and what `find_by_package` gives then: the names of the valid items. -/
structure Update where
  updated : List WindowState
  removed : List WindowState
  find_by_package : String → Option String := fun _ => none

abbrev TaskUpdates := OrdMap Int (List WindowState)

namespace MultiWindowManager

/-- The body of the first loop, for a window that is not known yet. -/
def create (platform_ : Option Platform) (op : Update) (m : MultiWindowManager) (window : WindowState) :
    MultiWindowManager :=
  let title := (op.find_by_package window.package_name).getD window.package_name
  match platform_ with
  | none => m
  | some p =>
    match p.create_window m.created window.task window.frame title with
    | some c =>
      let w : Window := { id := m.created, task := c.task, frame := c.frame, title := c.title }
      let (w, attached) := w.attach c.createNativeWindow
      { windows_ := m.windows_.insert window.task w
        created := m.created + 1
        log := m.log ++ attached }
    | none => { m with log := m.log ++ [.remove_task window.task] }

def collect (platform_ : Option Platform) (op : Update) :
    MultiWindowManager × TaskUpdates → WindowState → MultiWindowManager × TaskUpdates
  | (m, task_updates), window =>
    if window.stack ≠ .Freeform then (m, task_updates)
    else if !window.has_surface then (m, task_updates)
    else
      match m.windows_.find? window.task with
      | some _ =>
        match task_updates.find? window.task with
        | none => (m, task_updates.insert window.task [window])
        | some states => (m, task_updates.insert window.task (states ++ [window]))
      | none => (m.create platform_ op window, task_updates)

/-- The second loop. -/
def send (m : MultiWindowManager) (task_updates : TaskUpdates) : MultiWindowManager :=
  { m with log := m.log ++ task_updates.entries.filterMap fun u =>
      (m.windows_.find? u.1).map fun w => .update_state w.id u.2 }

/-- The body of the third loop. -/
def remove (task_updates : TaskUpdates) (m : MultiWindowManager) (window : WindowState) : MultiWindowManager :=
  match m.windows_.find? window.task with
  | none => m
  | some w =>
    match task_updates.find? window.task with
    | some _ => m
    | none => { m with windows_ := m.windows_.erase window.task, log := m.log ++ w.drop }

def apply_window_state_update (platform_ : Option Platform) (m : MultiWindowManager) (op : Update) :
    MultiWindowManager :=
  let (m, task_updates) := op.updated.foldl (collect platform_ op) (m, ∅)
  op.removed.foldl (remove task_updates) (m.send task_updates)

def find_window_for_task (m : MultiWindowManager) (task : Int) : Option Window :=
  (m.windows_.entries.find? fun w => w.2.task = task).map Prod.snd

/-- The calls of `update_state` that a window got. -/
def updates (m : MultiWindowManager) (id : Nat) : List (List WindowState) := m.log.filterMap (Effect.updateOf id)

/-- The window is one of the manager's. -/
def Has (m : MultiWindowManager) (id : Nat) : Prop := ∃ task w, m.windows_.find? task = some w ∧ w.id = id

end MultiWindowManager

namespace Update

/-- The windows of a task that Android has, with a surface and in the freeform stack. -/
def entries (op : Update) (task : Int) : List WindowState :=
  op.updated.filter fun window => window.stack = .Freeform ∧ window.has_surface ∧ window.task = task

/-- The task is used. -/
def Uses (op : Update) (task : Int) : Prop := op.entries task ≠ []

def Removes (op : Update) (task : Int) : Prop := ∃ window ∈ op.removed, window.task = task

end Update

namespace MultiWindowManager

/-- What an update is to make of the windows. -/
structure Follows (m : MultiWindowManager) (op : Update) (m' : MultiWindowManager) : Prop where
  tasks : ∀ t, t ∈ m'.windows_ ↔ (t ∈ m.windows_ ∨ op.Uses t) ∧ ¬(op.Removes t ∧ ¬op.Uses t)
  keyed : ∀ t w, m'.windows_.find? t = some w → w.task = t
  found : ∀ t, (∃ w, m'.find_window_for_task t = some w) ↔ t ∈ m'.windows_
  kept : ∀ t w, m.windows_.find? t = some w → op.Uses t → m'.windows_.find? t = some w
  updated : ∀ t w, m.windows_.find? t = some w →
    (op.Uses t → m'.updates w.id = m.updates w.id ++ [op.entries t]) ∧
      (¬op.Uses t → m'.updates w.id = m.updates w.id)
  released : ∀ id < m'.created, ¬m'.Has id → m'.log.count (.release id) = 1 ∧
    m'.log.count (.destroyNativeWindow id) = m'.log.count (.createNativeWindow id)
  held : ∀ id, m'.Has id → m'.log.count (.release id) = 0 ∧ m'.log.count (.destroyNativeWindow id) = 0

/-- A task that is new, and of which a window is gone as well, has two windows at least: the first makes the task
known, and the next one is an update of it. -/
def UsedTwice (m : MultiWindowManager) (op : Update) : Prop :=
  ∀ t, op.Removes t → t ∉ m.windows_ → op.Uses t → 2 ≤ (op.entries t).length

end MultiWindowManager

/-- The platform is there and makes every window it is asked for. -/
def Creates (platform_ : Option Platform) : Prop :=
  ∃ p, platform_ = some p ∧ ∀ n task frame title, ∃ c, p.create_window n task frame title = some c ∧ c.task = task

/-- A window that the platform makes is one of the task that it is asked for. It may make none. -/
def KeepsTask (platform_ : Option Platform) : Prop :=
  ∀ p, platform_ = some p → ∀ n task frame title c, p.create_window n task frame title = some c → c.task = task

def managerMachine (platform_ : Option Platform) : Machine MultiWindowManager Update where
  init := {}
  step m op := some (m.apply_window_state_update platform_ op)

end AnboxReboxed.Wm
