import AnboxReboxed.Emugl.Renderer
import AnboxReboxed.Lib.Machine

/-!
# Host windows and their published viewport

`createNativeWindow`, `updateHostWindow` and `draw` for one native window, as far as the published
viewport goes. Each of them runs under `m_lock`; what EGL answers is in their arguments. The history
records what a published viewport depends on.
-/

namespace AnboxReboxed.Emugl

open AnboxReboxed.Lib

/-- A width and a height. -/
abbrev Size := Int × Int

/-- Both are positive. -/
def Size.Positive (size : Size) : Prop := 0 < size.1 ∧ 0 < size.2

instance (size : Size) : Decidable size.Positive := inferInstanceAs (Decidable (_ ∧ _))

inductive Rotation where
  | R0
  | R90
  | R180
  | R270
  deriving DecidableEq

def Rect.Empty : Rect := ⟨0, 0, 0, 0⟩

/-- `static_cast<int>` of a `long long`. -/
def toInt (i : Int) : Int := i.bmod (2 ^ 32)

/-- The viewport of `CoordinateTransform(host_width, host_height, android_width, android_height)`: the
largest centred rectangle of the host with the proportions of Android's screen. -/
def coordinateTransformViewport (host android : Size) (rotation : Rotation) : Rect :=
  if host.1 ≤ 0 ∨ host.2 ≤ 0 ∨ android.1 ≤ 0 ∨ android.2 ≤ 0 then Rect.Empty
  else
    let quarter_turn := rotation = .R90 ∨ rotation = .R270
    let source_width := if quarter_turn then android.2 else android.1
    let source_height := if quarter_turn then android.1 else android.2
    let fitted := max 1 (toInt ((host.1 * source_height).tdiv source_width))
    let (width, height) :=
      if fitted > host.2 then (max 1 (toInt ((host.2 * source_width).tdiv source_height)), host.2)
      else (host.1, fitted)
    let left := (host.1 - width).tdiv 2
    let top := (host.2 - height).tdiv 2
    ⟨left, top, left + width, top + height⟩

structure RenderedViewport where
  valid : Bool := false
  window : Size := (0, 0)
  drawable : Size := (0, 0)
  viewport : Rect := Rect.Empty
  android : Size := (0, 0)
  rotation : Rotation := .R0
  generation : UInt64 := 0
  deriving DecidableEq

structure RendererWindow where
  /-- There is an EGL surface. -/
  surface : Bool := false
  published_viewport : RenderedViewport := {}
  /-- How often the generation was incremented. -/
  increments : Nat := 0

inductive ViewportEvent where
  /-- `updateHostWindow` was told a window size that differs from the published one, or found a drawable
  that differs or cannot be queried. -/
  | geometryChanged
  /-- The surface was recreated. -/
  | recreated
  /-- `draw` called `glViewport`, for a drawable of this size. -/
  | glViewport (drawable : Size)
  deriving DecidableEq

/-- What EGL answers in `recreateWindowSurfaceLocked`; a query that fails is `none`. -/
structure Recreation where
  query : Option Size
  created : Bool
  queryCreated : Option Size

/-- What `draw` takes the size of Android's screen from. -/
inductive FrameSource where
  | external (frame expected : Size)
  | renderables (renderables : List Renderable)

inductive Swap where
  | swapped
  /-- `EGL_BAD_SURFACE` or `EGL_BAD_NATIVE_WINDOW`. -/
  | badSurface
  | failed
  deriving DecidableEq

/-- What EGL answers in `draw`. -/
structure DrawAnswers where
  bind : Bool
  recreation : Recreation
  bindAgain : Bool
  query : Option Size
  /-- The query of `invalidateViewportLocked` on the way out. -/
  queryInvalid : Option Size
  swap : Swap
  recreationSwap : Recreation

namespace RendererWindow

def invalidateViewportLocked (w : RendererWindow) (query : Option Size) : RendererWindow :=
  { w with
    published_viewport := { w.published_viewport with
      valid := false
      generation := w.published_viewport.generation + 1
      drawable := if w.surface then query.getD (0, 0) else (0, 0) }
    increments := w.increments + 1 }

/-- The window, and whether there is a new surface. -/
def recreateWindowSurfaceLocked (w : RendererWindow) (r : Recreation) : RendererWindow × Bool :=
  let w := { w.invalidateViewportLocked r.query with surface := r.created }
  if r.created then (w.invalidateViewportLocked r.queryCreated, true) else (w, false)

end RendererWindow

/-- `source_width` and `source_height`, before the drawable takes their place. -/
def FrameSource.size : FrameSource → Size
  | .external frame expected =>
    (if 0 < frame.1 then frame.1 else expected.1, if 0 < frame.2 then frame.2 else expected.2)
  | .renderables rs =>
    rs.foldl (fun size r => (max size.1 r.screen_position.right, max size.2 r.screen_position.bottom)) (0, 0)

namespace RendererWindow

/-- The part of `draw` that publishes the viewport it has set, for a drawable of the size `surface`. -/
def publish (w : RendererWindow) (surface : Size) (source : FrameSource) : RendererWindow :=
  let source := if source.size.Positive then source.size else surface
  let content := coordinateTransformViewport surface source .R0
  let published := w.published_viewport
  let window := if published.window.1 ≤ 0 ∨ published.window.2 ≤ 0 then surface else published.window
  let viewport_changed := !published.valid || published.drawable != surface ||
    published.viewport != content || published.android != source || published.rotation != .R0
  { w with
    published_viewport := {
      valid := true
      window
      drawable := surface
      viewport := content
      android := source
      rotation := .R0
      generation := if viewport_changed then published.generation + 1 else published.generation }
    increments := if viewport_changed then w.increments + 1 else w.increments }

/-- `draw` from the query of the drawable on. -/
def drawBound (w : RendererWindow) (source : FrameSource) (a : DrawAnswers) :
    RendererWindow × List ViewportEvent :=
  match a.query with
  | none => (w.invalidateViewportLocked a.queryInvalid, [])
  | some surface =>
    if surface.Positive then
      let w := w.publish surface source
      if a.swap = .badSurface then
        ((w.recreateWindowSurfaceLocked a.recreationSwap).1, [.glViewport surface, .recreated])
      else (w, [.glViewport surface])
    else (w.invalidateViewportLocked a.queryInvalid, [])

def draw (w : RendererWindow) (source : FrameSource) (a : DrawAnswers) :
    RendererWindow × List ViewportEvent :=
  if a.bind then w.drawBound source a
  else
    let (w, created) := w.recreateWindowSurfaceLocked a.recreation
    if created && a.bindAgain then
      let (w, events) := w.drawBound source a
      (w, .recreated :: events)
    else (w, [.recreated])

/-- `updateHostWindow` of an existing window. -/
def updateHostWindow (w : RendererWindow) (window : Size) (query queryInvalid : Option Size) :
    RendererWindow × List ViewportEvent :=
  let published := w.published_viewport
  let known := w.surface && query.isSome
  let window_geometry_changed := published.window != window
  let drawable_geometry_changed := known && published.drawable != query.getD (0, 0)
  let events :=
    if window_geometry_changed || drawable_geometry_changed || !known then [ViewportEvent.geometryChanged]
    else []
  let w := { w with published_viewport := { published with window } }
  if published.valid && !window_geometry_changed && known && !drawable_geometry_changed then (w, events)
  else (w.invalidateViewportLocked queryInvalid, events)

end RendererWindow

/-- The native window in the tables of the renderer. -/
structure HostWindow where
  /-- Its entry in `m_nativeWindows`. -/
  window : Option RendererWindow := none
  /-- Its entry in `m_pendingWindowSizes`. -/
  pendingSize : Option Size := none
  history : List ViewportEvent := []
  /-- The snapshots after each operation so far, with the number of increments at the time. -/
  snapshots : List (Nat × RenderedViewport) := []

inductive HostWindowOp where
  | createNativeWindow (created : Bool) (query : Option Size) (bind : Bool)
  | updateHostWindow (window : Size) (query queryInvalid : Option Size)
  | draw (source : FrameSource) (answers : DrawAnswers)

namespace HostWindow

/-- The window is stored, and its snapshot is there to be seen. -/
def put (s : HostWindow) (w : RendererWindow) (events : List ViewportEvent) : HostWindow :=
  { s with
    window := some w
    history := s.history ++ events
    snapshots := s.snapshots ++ [(w.increments, w.published_viewport)] }

def createNativeWindow (s : HostWindow) (created : Bool) (query : Option Size) (bind : Bool) : HostWindow :=
  match s.window with
  | some _ => s
  | none =>
    let w : RendererWindow :=
      { surface := created, published_viewport := { window := s.pendingSize.getD (0, 0) } }
    let s := { s with pendingSize := none }
    if created && bind then s.put (w.invalidateViewportLocked query) [] else s

def updateHostWindow (s : HostWindow) (window : Size) (query queryInvalid : Option Size) : HostWindow :=
  match s.window with
  | none => { s with pendingSize := some window }
  | some w =>
    let (w, events) := w.updateHostWindow window query queryInvalid
    s.put w events

def draw (s : HostWindow) (source : FrameSource) (a : DrawAnswers) : HostWindow :=
  match s.window with
  | none => s
  | some w =>
    let (w, events) := w.draw source a
    s.put w events

def step (s : HostWindow) : HostWindowOp → HostWindow
  | .createNativeWindow created query bind => s.createNativeWindow created query bind
  | .updateHostWindow window query queryInvalid => s.updateHostWindow window query queryInvalid
  | .draw source a => s.draw source a

/-- The snapshot for which `renderedViewport` returns `true`. -/
def renderedViewport (s : HostWindow) : Option RenderedViewport :=
  (s.window.map RendererWindow.published_viewport).filter RenderedViewport.valid

/-- How often the generation was incremented. -/
def increments (s : HostWindow) : Nat := (s.window.map RendererWindow.increments).getD 0

/-- What a published snapshot says. -/
def Consistent (v : RenderedViewport) : Prop :=
  v.window.Positive ∧ v.drawable.Positive ∧ v.android.Positive ∧
    v.viewport = coordinateTransformViewport v.drawable v.android .R0

/-- The lifecycle of a published viewport. -/
structure Lifecycle (s : HostWindow) : Prop where
  consistent : ∀ v, s.renderedViewport = some v → Consistent v
  generations : (s.snapshots.map Prod.snd).Pairwise fun v v' =>
    v.generation ≤ v'.generation ∧ (v ≠ v' → v.generation ≠ v'.generation)
  set : ∀ v, s.renderedViewport = some v → ∃ pre drawable post,
    s.history = pre ++ .glViewport drawable :: post ∧ drawable.Positive ∧
      .geometryChanged ∉ post ∧ .recreated ∉ post

end HostWindow

def hostWindowMachine : Machine HostWindow HostWindowOp where
  init := {}
  step s op := some (s.step op)

end AnboxReboxed.Emugl
