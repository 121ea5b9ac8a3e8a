import AnboxReboxed.Emugl.HostWindow
import AnboxReboxed.Lib.OrdMap

/-!
# The tables of host windows

`m_nativeWindows`, `m_pendingWindowSizes` and the EGL surfaces. What EGL answers is in the arguments; of `draw` there
is the recreation of a surface.
-/

namespace AnboxReboxed.Emugl

open AnboxReboxed.Lib

/-- A `RendererWindow` with its surface. -/
structure SurfaceWindow where
  /-- `EGL_NO_SURFACE` is `none`. -/
  surface : Option Nat := none
  published_viewport : RenderedViewport := {}
  /-- How often the generation was incremented. -/
  increments : Nat := 0
  deriving DecidableEq

namespace SurfaceWindow

/-- The window without the name of its surface. -/
def toRendererWindow (w : SurfaceWindow) : RendererWindow := ⟨w.surface.isSome, w.published_viewport, w.increments⟩

/-- The snapshot of `r`, with the surface. -/
def withSnapshot (surface : Option Nat) (r : RendererWindow) : SurfaceWindow :=
  ⟨surface, r.published_viewport, r.increments⟩

def invalidateViewportLocked (w : SurfaceWindow) (query : Option Size) : SurfaceWindow :=
  withSnapshot w.surface (w.toRendererWindow.invalidateViewportLocked query)

def updateHostWindow (w : SurfaceWindow) (window : Size) (query queryInvalid : Option Size) : SurfaceWindow :=
  withSnapshot w.surface (w.toRendererWindow.updateHostWindow window query queryInvalid).1

end SurfaceWindow

/-- The part of a `Renderer` that deals with host windows. -/
structure NativeWindows where
  m_nativeWindows : OrdMap Nat SurfaceWindow := ∅
  m_pendingWindowSizes : OrdMap Nat Size := ∅
  /-- The surfaces that were created and not destroyed, the latest one first. -/
  surfaces : List Nat := []
  deriving DecidableEq

namespace NativeWindows

/-- `eglCreateWindowSurface` when it succeeds. -/
def eglCreateWindowSurface (s : NativeWindows) (surface : Nat) : NativeWindows :=
  { s with surfaces := surface :: s.surfaces }

/-- `eglDestroySurface`, unless it is `EGL_NO_SURFACE`. -/
def eglDestroySurface (s : NativeWindows) : Option Nat → NativeWindows
  | none => s
  | some surface => { s with surfaces := s.surfaces.erase surface }

/-- `createNativeWindow`: `created` is what `eglCreateWindowSurface` returns, `query` the size of the new surface, and
`bind` what `bindWindow_locked` returns. -/
def createNativeWindow (s : NativeWindows) (native_window : Nat) (created : Option Nat) (query : Option Size)
    (bind : Bool) : NativeWindows × Option SurfaceWindow :=
  match s.m_nativeWindows.find? native_window with
  | some existing => (s, some existing)
  | none =>
    let window : SurfaceWindow :=
      { published_viewport := { window := (s.m_pendingWindowSizes.find? native_window).getD (0, 0) } }
    let s := { s with m_pendingWindowSizes := s.m_pendingWindowSizes.erase native_window }
    match created with
    | none => (s, none)
    | some surface =>
      let s := s.eglCreateWindowSurface surface
      let window := { window with surface := some surface }.invalidateViewportLocked query
      if bind then ({ s with m_nativeWindows := s.m_nativeWindows.insert native_window window }, some window)
      else (s.eglDestroySurface (some surface), none)

def updateHostWindow (s : NativeWindows) (native_window : Nat) (window : Size) (query queryInvalid : Option Size) :
    NativeWindows :=
  match s.m_nativeWindows.find? native_window with
  | none => { s with m_pendingWindowSizes := s.m_pendingWindowSizes.insert native_window window }
  | some w =>
    { s with
      m_nativeWindows := s.m_nativeWindows.insert native_window (w.updateHostWindow window query queryInvalid) }

def destroyNativeWindow (s : NativeWindows) (native_window : Nat) : NativeWindows :=
  let s := { s with m_pendingWindowSizes := s.m_pendingWindowSizes.erase native_window }
  match s.m_nativeWindows.find? native_window with
  | none => s
  | some w =>
    let s := s.eglDestroySurface w.surface
    { s with m_nativeWindows := s.m_nativeWindows.erase native_window }

/-- `recreateWindowSurfaceLocked` of a window that `draw` has found: the old surface goes first. -/
def recreateWindowSurfaceLocked (s : NativeWindows) (native_window : Nat) (query : Option Size)
    (created : Option Nat) (queryCreated : Option Size) : NativeWindows :=
  match s.m_nativeWindows.find? native_window with
  | none => s
  | some w =>
    let window := w.toRendererWindow.recreateWindowSurfaceLocked ⟨query, created.isSome, queryCreated⟩
    let s := s.eglDestroySurface w.surface
    let s :=
      match created with
      | none => s
      | some surface => s.eglCreateWindowSurface surface
    { s with
      m_nativeWindows := s.m_nativeWindows.insert native_window (SurfaceWindow.withSnapshot created window.1) }

end NativeWindows

inductive NativeWindowOp where
  | createNativeWindow (native_window : Nat) (created : Option Nat) (query : Option Size) (bind : Bool)
  | updateHostWindow (native_window : Nat) (window : Size) (query queryInvalid : Option Size)
  | destroyNativeWindow (native_window : Nat)
  | recreateWindowSurfaceLocked (native_window : Nat) (query : Option Size) (created : Option Nat)
      (queryCreated : Option Size)

namespace NativeWindows

def step (s : NativeWindows) : NativeWindowOp → NativeWindows
  | .createNativeWindow native_window created query bind => (s.createNativeWindow native_window created query bind).1
  | .updateHostWindow native_window window query queryInvalid =>
    s.updateHostWindow native_window window query queryInvalid
  | .destroyNativeWindow native_window => s.destroyNativeWindow native_window
  | .recreateWindowSurfaceLocked native_window query created queryCreated =>
    s.recreateWindowSurfaceLocked native_window query created queryCreated

/-- The surfaces of the windows in a table. -/
def owned (m_nativeWindows : OrdMap Nat SurfaceWindow) : List Nat :=
  m_nativeWindows.entries.filterMap fun e => e.2.surface

/-- Every surface belongs to one window of the table, and a window of the table has no pending size. -/
structure Inv (s : NativeWindows) : Prop where
  surfaces : s.surfaces.Perm (owned s.m_nativeWindows)
  pending : ∀ native_window ∈ s.m_nativeWindows, native_window ∉ s.m_pendingWindowSizes

/-- What the tables have for one native window. -/
structure Shows (s : NativeWindows) (native_window : Nat) (h : HostWindow) : Prop where
  window : h.window = (s.m_nativeWindows.find? native_window).map SurfaceWindow.toRendererWindow
  pendingSize : h.pendingSize = s.m_pendingWindowSizes.find? native_window

end NativeWindows

def nativeWindowMachine : Machine NativeWindows NativeWindowOp where
  init := {}
  step s op := some (s.step op)

end AnboxReboxed.Emugl
