import AnboxReboxed.Graphics.CoordinateTransform
import AnboxReboxed.Lib.LastMax
import AnboxReboxed.Lib.Scanf
import AnboxReboxed.Wm.MultiWindowManager

/-!
# `MultiWindowComposerStrategy`

Every layer of a frame names the task that it belongs to. The layers of a task go to the window of the task, and
are moved there from where they are on the display: the largest of them gives the origin of the window.
-/

namespace AnboxReboxed.Emugl

def Rect.Invalid : Rect := ⟨-1, -1, -1, -1⟩

/-- Two rectangles start at the same point. -/
def Rect.SameOrigin (r r' : Rect) : Prop := r.left = r'.left ∧ r.top = r'.top

instance (r r' : Rect) : Decidable (r.SameOrigin r') := inferInstanceAs (Decidable (_ ∧ _))

end AnboxReboxed.Emugl

namespace AnboxReboxed.Graphics

open AnboxReboxed.Lib AnboxReboxed.Emugl AnboxReboxed.Wm

/-- A `Renderable`. The guest gives it its name, which may be any bytes. -/
structure Layer where
  name : List UInt8
  buffer : HandleType
  alpha : ℚ
  screen_position : Emugl.Rect
  crop : Emugl.Rect
  deriving DecidableEq

def surface_text : List UInt8 := Scanf.bytes "org.anbox.surface.".toList

/-- `c_str()`: what is in front of the first zero byte. -/
def c_str (text : List UInt8) : List UInt8 := text.takeWhile (· ≠ 0)

/-- What `%d` stores for a number: the C library reads a `long`, which ends at its bounds, and cuts it to an `int`. -/
def storeInt (i : Int) : Int := toInt (clamp i (-2 ^ 63) (2 ^ 63 - 1))

/-- `task_id`, where the loop does not go on without one. -/
def task_id (name : List UInt8) : Option Int :=
  if !surface_text.isPrefixOf name then none
  else
    match Scanf.literal surface_text (c_str name) with
    | .ok _ rest =>
      match Scanf.decimal rest with
      | .ok i _ => if storeInt i = 0 then none else some (storeInt i)
      | _ => none
    | _ => none

namespace MultiWindowComposerStrategy

/-- `WindowRenderableList`; the `id` of a window stands for the object. -/
abbrev WindowLayers := OrdMap Nat (List Layer)

/-- The body of the first loop. -/
def collect (wm_ : MultiWindowManager) (win_layers : WindowLayers) (renderable : Layer) : WindowLayers :=
  match task_id renderable.name with
  | none => win_layers
  | some task =>
    match wm_.find_window_for_task task with
    | none => win_layers
    | some w =>
      match win_layers.find? w.id with
      | none => win_layers.insert w.id [renderable]
      | some renderables => win_layers.insert w.id (renderables ++ [renderable])

/-- `layer_area`, an `int`. -/
def layer_area (r : Layer) : Int := toInt (toInt r.screen_position.width * toInt r.screen_position.height)

/-- `new_window_frame` after the loop that looks for it. -/
def new_window_frame (renderables : List Layer) : Emugl.Rect :=
  (renderables.foldl (LastMax.keep layer_area Layer.screen_position) (-1, .Invalid)).2

/-- `set_screen_position` with the rectangle relative to the window. -/
def place (frame : Emugl.Rect) (r : Layer) : Layer :=
  { r with
    screen_position :=
      ⟨toInt (r.screen_position.left - frame.left + r.crop.left),
        toInt (r.screen_position.top - frame.top + r.crop.top),
        toInt (r.screen_position.right - frame.left + r.crop.left),
        toInt (r.screen_position.bottom - frame.top + r.crop.top)⟩ }

/-- The body of the second loop. -/
def final_renderables (renderables : List Layer) : List Layer :=
  renderables.map (place (new_window_frame renderables))

def process_layers (wm_ : MultiWindowManager) (renderables : List Layer) : List (Nat × List Layer) :=
  (renderables.foldl (collect wm_) ∅).entries.map fun w => (w.1, final_renderables w.2)

/-! ## What the strategy should do -/

/-- `org.anbox.surface.<task>` -/
def surface_name (task : Int) : List UInt8 := surface_text ++ Scanf.bytes (toString task).toList

/-- The layers of a task. -/
def layersOf (task : Int) (renderables : List Layer) : List Layer :=
  renderables.filter fun r => r.name = surface_name task

/-- The exact area. -/
def area (r : Layer) : Int := r.screen_position.width * r.screen_position.height

/-- Everything of a layer but where it is. -/
def content (r : Layer) : List UInt8 × HandleType × ℚ × Emugl.Rect × Int × Int :=
  (r.name, r.buffer, r.alpha, r.crop, r.screen_position.width, r.screen_position.height)

/-- The layers that a window got. -/
def given (out : List (Nat × List Layer)) (w : Window) : List Layer := (out.lookup w.id).getD []

/-- The layers of a frame are those of the windows. -/
structure Faithful (wm_ : MultiWindowManager) (renderables : List Layer) (out : List (Nat × List Layer)) : Prop where
  windows : ∀ e ∈ out, wm_.Has e.1
  layers : ∀ t w, wm_.windows_.find? t = some w →
    (given out w).map content = (layersOf w.task renderables).map content
  /-- Two layers with crops of one origin. -/
  offsets : ∀ t w, wm_.windows_.find? t = some w →
    ∀ p ∈ (layersOf w.task renderables).zip (given out w), ∀ q ∈ (layersOf w.task renderables).zip (given out w),
      p.1.crop.SameOrigin q.1.crop →
        p.2.screen_position.left - q.2.screen_position.left = p.1.screen_position.left - q.1.screen_position.left ∧
          p.2.screen_position.top - q.2.screen_position.top = p.1.screen_position.top - q.1.screen_position.top
  reference : ∀ t w, wm_.windows_.find? t = some w →
    ∀ r, LastMax.IsLast area (given out w) r → r.screen_position.SameOrigin r.crop

/-- What the types of the source give, and that the sums for the new rectangles fit. -/
structure InRange (wm_ : MultiWindowManager) (renderables : List Layer) : Prop where
  tasks : ∀ t w, wm_.windows_.find? t = some w → InInt w.task
  sums : ∀ e ∈ (renderables.foldl (collect wm_) ∅).entries, ∀ r ∈ e.2,
    InInt (r.screen_position.left - (new_window_frame e.2).left + r.crop.left) ∧
      InInt (r.screen_position.top - (new_window_frame e.2).top + r.crop.top) ∧
      InInt (r.screen_position.right - (new_window_frame e.2).left + r.crop.left) ∧
      InInt (r.screen_position.bottom - (new_window_frame e.2).top + r.crop.top)

/-- A name from which `sscanf` reads the task of a window is the name of the task, and no window has the task 0 as
long as a layer does. -/
def PlainNames (wm_ : MultiWindowManager) (renderables : List Layer) : Prop :=
  ∀ t w, wm_.windows_.find? t = some w → ∀ r ∈ renderables,
    (task_id r.name = some w.task → r.name = surface_name w.task) ∧ (w.task = 0 → r.name ≠ surface_name 0)

/-- The last layer with the greatest area as an `int`, if that is not below -1, starts where the last one with the
greatest area does. -/
def SameReference (renderables : List Layer) : Prop :=
  ∀ r, LastMax.IsLast area renderables r →
    (∀ r', LastMax.IsLast layer_area renderables r' → -1 ≤ layer_area r' →
      r.screen_position.SameOrigin r'.screen_position) ∧
    ((∀ r' ∈ renderables, layer_area r' < -1) → r.screen_position.SameOrigin .Invalid)

end MultiWindowComposerStrategy

end AnboxReboxed.Graphics
