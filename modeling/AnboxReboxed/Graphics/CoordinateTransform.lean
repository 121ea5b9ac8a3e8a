import AnboxReboxed.Emugl.HostWindow
import Mathlib.Data.Rat.Floor
import Mathlib.Tactic.Linarith

/-!
# `CoordinateTransform`

Where the content of Android stands in the host window, and which point of Android a point of the window is. The
viewport is the one that `draw` publishes. What the source computes with `double` is rational.
-/

namespace AnboxReboxed.Emugl

def Rotation.quarter_turn (r : Rotation) : Bool := r = .R90 || r = .R270

def Rect.width (r : Rect) : Int := r.right - r.left

def Rect.height (r : Rect) : Int := r.bottom - r.top

end AnboxReboxed.Emugl

namespace AnboxReboxed.Graphics

open AnboxReboxed.Emugl

/-- The values of an `int`. -/
def InInt (i : Int) : Prop := -2 ^ 31 ≤ i ∧ i < 2 ^ 31

instance (i : Int) : Decidable (InInt i) := inferInstanceAs (Decidable (_ ∧ _))

/-- `std::clamp`. -/
def clamp (i low high : Int) : Int := if i < low then low else if high < i then high else i

/-- `std::lround`: to the nearest integer, and away from zero half-way between two. -/
def lround (q : ℚ) : Int := if 0 ≤ q then ⌊q + 1 / 2⌋ else ⌈q - 1 / 2⌉

structure CoordinateTransform where
  android_width_ : Int := 0
  android_height_ : Int := 0
  rotation_ : Rotation := .R0
  viewport_ : Rect := .Empty
  valid_ : Bool := false
  deriving DecidableEq

namespace CoordinateTransform

/-! ## The aspect fit -/

/-- `static_cast<int>(static_cast<long long>(a) * b / c)`. -/
def scaled (a b c : Int) : Int := toInt ((a * b).tdiv c)

/-- The width and the height of the content. -/
def fit (host_width host_height source_width source_height : Int) : Int × Int :=
  let width := host_width
  let height := max 1 (scaled host_width source_height source_width)
  if host_height < height then (max 1 (scaled host_height source_width source_height), host_height)
  else (width, height)

/-- The content in the middle of the host window. -/
def centre (host_width host_height width height : Int) : Rect :=
  let left := (host_width - width).tdiv 2
  let top := (host_height - height).tdiv 2
  ⟨left, top, left + width, top + height⟩

/-- The constructor that fits the content into the host window. -/
def ofSizes (host android : Size) (rotation : Rotation) : CoordinateTransform where
  android_width_ := android.1
  android_height_ := android.2
  rotation_ := rotation
  viewport_ := coordinateTransformViewport host android rotation
  valid_ := host.Positive ∧ android.Positive

/-- The values that the constructor computes as an `int` or converts to one. -/
def intermediates (host_width host_height source_width source_height : Int) : List Int :=
  let size := fit host_width host_height source_width source_height
  let r := centre host_width host_height size.1 size.2
  (host_width * source_height).tdiv source_width ::
    ((if host_height < max 1 (scaled host_width source_height source_width) then
        [(host_height * source_width).tdiv source_height]
      else []) ++
      [host_width - size.1, host_height - size.2, r.left, r.top, r.right, r.bottom])

/-! ## Points -/

/-- The constructor that takes the rectangle of the content. -/
def ofViewport (viewport : Rect) (android : Size) (rotation : Rotation) : CoordinateTransform where
  android_width_ := android.1
  android_height_ := android.2
  rotation_ := rotation
  viewport_ := viewport
  valid_ := 0 < viewport.width ∧ 0 < viewport.height ∧ android.Positive

/-- How far `i` is between the first and the last of `size` columns, or rows. -/
def ratio (i size : Int) : ℚ := if size ≤ 1 then 0 else (i : ℚ) / (size - 1 : Int)

/-- A coordinate of Android for a ratio. -/
def place (q : ℚ) (size : Int) : Int := clamp (lround (q * (size - 1 : Int))) 0 (size - 1)

/-- The ratios along the axes of Android for those along the axes of the host. -/
def rotate (u v : ℚ) : Rotation → ℚ × ℚ
  | .R0 => (u, v)
  | .R90 => (v, 1 - u)
  | .R180 => (1 - u, 1 - v)
  | .R270 => (1 - v, u)

/-- `map_absolute`; `none` where it returns false. -/
def map_absolute (t : CoordinateTransform) (host_x host_y : Int) : Option (Int × Int) :=
  if !t.valid_ ∨ host_x < t.viewport_.left ∨ t.viewport_.right ≤ host_x ∨ host_y < t.viewport_.top ∨
      t.viewport_.bottom ≤ host_y then none
  else
    let u := ratio (host_x - t.viewport_.left) t.viewport_.width
    let v := ratio (host_y - t.viewport_.top) t.viewport_.height
    let p := rotate u v t.rotation_
    some (place p.1 t.android_width_, place p.2 t.android_height_)

end CoordinateTransform

/-! ## What a fit should be -/

/-- A positive `int`. -/
abbrev PosInt := { i : Int // 0 < i ∧ i < 2 ^ 31 }

/-- The size of the source as it stands in the host window. -/
def source (android_width android_height : PosInt) (r : Rotation) : PosInt × PosInt :=
  if r.quarter_turn then (android_height, android_width) else (android_width, android_height)

/-- `r` is the source in the aspect of the source, as large as the host allows, and in its middle. -/
structure AspectFit (host_width host_height source_width source_height : Int) (r : Rect) : Prop where
  inside : 0 ≤ r.left ∧ 0 ≤ r.top ∧ r.right ≤ host_width ∧ r.bottom ≤ host_height
  positive : 1 ≤ r.width ∧ 1 ≤ r.height
  spans : (r.width = host_width ∧ r.height = max 1 (host_width * source_height / source_width)) ∨
    (r.height = host_height ∧ r.width = max 1 (host_height * source_width / source_height))
  centred : |r.left - (host_width - r.right)| ≤ 1 ∧ |r.top - (host_height - r.bottom)| ≤ 1

end AnboxReboxed.Graphics

/-!
## `RenderedViewport::map_absolute`

The pointer is at a point of the window, in logical coordinates; the viewport that `draw` publishes is in pixels of
the drawable. The viewport is projected to the window, and the window to Android.
-/

namespace AnboxReboxed.Graphics

open AnboxReboxed.Emugl

/-- `project_start`. -/
def project_start (value logical drawable : Int) : Int :=
  if logical ≤ 1 ∨ drawable ≤ 1 then 0 else ⌈(value : ℚ) * (logical - 1 : Int) / (drawable - 1 : Int)⌉

/-- `project_end`. -/
def project_end (value logical drawable : Int) : Int :=
  if logical ≤ 1 ∨ drawable ≤ 1 then logical
  else ⌊((value - 1 : Int) : ℚ) * (logical - 1 : Int) / (drawable - 1 : Int)⌋ + 1

/-- The viewport of a snapshot in logical coordinates. -/
def logical_viewport (s : RenderedViewport) : Rect :=
  if s.window.1 ≤ 0 ∨ s.window.2 ≤ 0 ∨ s.drawable.1 ≤ 0 ∨ s.drawable.2 ≤ 0 then Rect.Empty
  else
    ⟨clamp (project_start s.viewport.left s.window.1 s.drawable.1) 0 s.window.1,
      clamp (project_start s.viewport.top s.window.2 s.drawable.2) 0 s.window.2,
      clamp (project_end s.viewport.right s.window.1 s.drawable.1) 0 s.window.1,
      clamp (project_end s.viewport.bottom s.window.2 s.drawable.2) 0 s.window.2⟩

/-- `RenderedViewport::map_absolute`; `none` where it returns false. -/
def map_absolute (s : RenderedViewport) (window_x window_y : Int) : Option (Int × Int) :=
  if !s.valid ∨ s.window.1 ≤ 0 ∨ s.window.2 ≤ 0 ∨ s.drawable.1 ≤ 0 ∨ s.drawable.2 ≤ 0 ∨ window_x < 0 ∨ window_y < 0 ∨
      s.window.1 ≤ window_x ∨ s.window.2 ≤ window_y then none
  else (CoordinateTransform.ofViewport (logical_viewport s) s.android s.rotation).map_absolute window_x window_y

/-! ## What the pointer should do -/

/-- A point has a column and a row. -/
inductive Axis where
  | column
  | row

namespace Axis

def other : Axis → Axis
  | .column => .row
  | .row => .column

/-- A coordinate of a point, or a side of a size. -/
def of (p : Int × Int) : Axis → Int
  | .column => p.1
  | .row => p.2

/-- The first column or row of a rectangle. -/
def start (r : Rect) : Axis → Int
  | .column => r.left
  | .row => r.top

/-- The first one after it. -/
def stop (r : Rect) : Axis → Int
  | .column => r.right
  | .row => r.bottom

/-- The axis of Android that an axis of the window lies along. -/
def turned (r : Rotation) (a : Axis) : Axis := if r.quarter_turn then a.other else a

/-- The two axes run in opposite directions. -/
def reversed (r : Rotation) : Axis → Bool
  | .column => r = .R90 || r = .R180
  | .row => r = .R180 || r = .R270

end Axis

/-- A column or row of the window in pixels of the drawable. -/
def projection (i logical drawable : Int) : ℚ := (i : ℚ) * (drawable - 1 : Int) / (logical - 1 : Int)

/-- A point of the window on the content that is drawn. -/
def OnContent (s : RenderedViewport) (w : Int × Int) : Prop :=
  ∀ a : Axis, (0 ≤ a.of w ∧ a.of w < a.of s.window) ∧
    a.start s.viewport ≤ projection (a.of w) (a.of s.window) (a.of s.drawable) ∧
      projection (a.of w) (a.of s.window) (a.of s.drawable) ≤ (a.stop s.viewport - 1 : Int)

/-- The pointer follows what is drawn. -/
structure FollowsContent (s : RenderedViewport) : Prop where
  accepted : ∀ w : Int × Int, (map_absolute s w.1 w.2).isSome ↔ OnContent s w
  inside : ∀ w p : Int × Int, map_absolute s w.1 w.2 = some p → ∀ a : Axis, 0 ≤ a.of p ∧ a.of p ≤ a.of s.android - 1
  monotone : ∀ w w' p p' : Int × Int, map_absolute s w.1 w.2 = some p → map_absolute s w'.1 w'.2 = some p' →
    ∀ a : Axis, a.of w ≤ a.of w' →
      if a.reversed s.rotation then (a.turned s.rotation).of p' ≤ (a.turned s.rotation).of p
      else (a.turned s.rotation).of p ≤ (a.turned s.rotation).of p'
  /-- The first of several accepted columns or rows. -/
  first : ∀ w p : Int × Int, map_absolute s w.1 w.2 = some p → ∀ a : Axis,
    (∀ w', OnContent s w' → a.of w ≤ a.of w') → (∃ w', OnContent s w' ∧ a.of w' ≠ a.of w) →
      (a.turned s.rotation).of p = if a.reversed s.rotation then (a.turned s.rotation).of s.android - 1 else 0
  /-- The last of several accepted columns or rows. -/
  last : ∀ w p : Int × Int, map_absolute s w.1 w.2 = some p → ∀ a : Axis,
    (∀ w', OnContent s w' → a.of w' ≤ a.of w) → (∃ w', OnContent s w' ∧ a.of w' ≠ a.of w) →
      (a.turned s.rotation).of p = if a.reversed s.rotation then 0 else (a.turned s.rotation).of s.android - 1

/-- A snapshot that is valid, with sizes that the projection is defined for. -/
structure Presented (s : RenderedViewport) : Prop where
  valid : s.valid
  window : ∀ a : Axis, 2 ≤ a.of s.window
  drawable : ∀ a : Axis, 2 ≤ a.of s.drawable
  android : s.android.Positive

end AnboxReboxed.Graphics
