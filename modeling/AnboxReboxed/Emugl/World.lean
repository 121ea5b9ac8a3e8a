import AnboxReboxed.Emugl.RetainFrame
import AnboxReboxed.Lib.Machine

/-!
# The renderer and its render threads

A `World` is the renderer with the live render threads and the clock. Every operation is one atomic
step under `m_lock`; which thread runs next, the handles it passes, how long time stands still and
what EGL and GL answer are chosen by the label.
-/

namespace AnboxReboxed.Emugl

open AnboxReboxed.Lib

abbrev ThreadId := Nat

/-- The renderer, the live render threads and the clock. `nextPtr` is the address the next object
gets. -/
structure World where
  renderer : Renderer := {}
  threads : OrdMap ThreadId RenderThreadInfo := ∅
  nextPtr : Nat := 1
  now : TimePoint := 0
  deriving DecidableEq, Inhabited

/-- The operations of the renderer and the events of its threads. The flag `gl` says whether the EGL
and GL calls of an operation succeed. -/
inductive Op where
  /-- Time passes. -/
  | tick (elapsed : Nat)
  /-- A render thread starts `RenderThread::main`. -/
  | startThread (t : ThreadId)
  | createColorBuffer (p_width p_height : Int) (p_internalFormat : GLenum) (gl : Bool)
  | openColorBuffer (p_colorbuffer : HandleType)
  | closeColorBuffer (p_colorbuffer : HandleType)
  | createRenderContext (t : ThreadId) (p_config : Int) (p_share : HandleType) (gl : Bool)
  | createWindowSurface (t : ThreadId) (p_config : Int) (gl : Bool)
  | drainRenderContext (t : ThreadId)
  | drainWindowSurface (t : ThreadId)
  | DestroyRenderContext (t : ThreadId) (p_context : HandleType)
  | DestroyWindowSurface (t : ThreadId) (p_surface : HandleType)
  | bindContext (t : ThreadId) (p_context p_drawSurface p_readSurface : HandleType) (gl : Bool)
  | setWindowSurfaceColorBuffer (p_surface p_colorbuffer : HandleType)
  | retainPostedColorBuffer (p_colorbuffer : HandleType)
  | retain_frame (renderables : List Renderable) (gl : HandleType → Bool)
  | release_frame (renderables : List Renderable)
  /-- A render thread runs `deferCurrentThreadResources` and leaves `RenderThread::main`; `elapsed`
  is the time between the two clock readings. -/
  | exitThread (t : ThreadId) (elapsed : Nat)

/-- What an operation returns to its caller. -/
inductive Reply where
  | none
  | handle (h : HandleType)
  | status (code : Int)
  | flag (b : Bool)
  | size (s : Option (Int × Int))
  | frame (ok : Bool) (renderables : List Renderable)
  deriving DecidableEq

namespace World

/-- An operation of the live thread `t`; a thread that is not live makes no steps. -/
def onThread (w : World) (t : ThreadId) (f : RenderThreadInfo → Option (World × Reply)) :
    Option (World × Reply) := (w.threads.find? t).bind f

theorem onThread_some {w : World} {t : ThreadId} {f : RenderThreadInfo → Option (World × Reply)}
    {res : World × Reply} (h : w.onThread t f = some res) :
    ∃ tinfo, w.threads.find? t = some tinfo ∧ f tinfo = some res := Option.bind_eq_some_iff.mp h

/-- Store the results of an operation of thread `t`. -/
def update (w : World) (t : ThreadId) (renderer : Renderer) (tinfo : RenderThreadInfo) : World :=
  { w with renderer, threads := w.threads.insert t tinfo }

/-- One step. `none` when the thread is not live, or when the operation does not return. -/
def step (w : World) : Op → Option (World × Reply)
  | .tick elapsed => some ({ w with now := w.now + elapsed }, .none)
  | .startThread t =>
    if t ∈ w.threads then none
    else some ({ w with threads := w.threads.insert t {} }, .none)
  | .createColorBuffer p_width p_height p_internalFormat gl =>
    (w.renderer.createColorBuffer p_width p_height p_internalFormat
      (if gl then some w.nextPtr else none)).map fun (ret, renderer) =>
        ({ w with renderer, nextPtr := w.nextPtr + 1 }, .handle ret)
  | .openColorBuffer h =>
    let (code, renderer) := w.renderer.openColorBuffer h
    some ({ w with renderer }, .status code)
  | .closeColorBuffer h => some ({ w with renderer := w.renderer.closeColorBuffer h }, .none)
  | .createRenderContext t p_config p_share gl =>
    w.onThread t fun tinfo =>
      (w.renderer.createRenderContext tinfo p_config p_share
        (if gl then some w.nextPtr else none)).map fun (ret, renderer, tinfo) =>
          ({ w.update t renderer tinfo with nextPtr := w.nextPtr + 1 }, .handle ret)
  | .createWindowSurface t p_config gl =>
    w.onThread t fun tinfo =>
      (w.renderer.createWindowSurface tinfo p_config
        (if gl then some w.nextPtr else none)).map fun (ret, renderer, tinfo) =>
          ({ w.update t renderer tinfo with nextPtr := w.nextPtr + 1 }, .handle ret)
  | .drainRenderContext t =>
    w.onThread t fun tinfo =>
      let (renderer, tinfo) := w.renderer.drainRenderContext tinfo
      some (w.update t renderer tinfo, .none)
  | .drainWindowSurface t =>
    w.onThread t fun tinfo =>
      let (renderer, tinfo) := w.renderer.drainWindowSurface tinfo
      some (w.update t renderer tinfo, .none)
  | .DestroyRenderContext t p_context =>
    w.onThread t fun tinfo =>
      let (renderer, tinfo) := w.renderer.DestroyRenderContext tinfo w.now p_context
      some (w.update t renderer tinfo, .none)
  | .DestroyWindowSurface t p_surface =>
    w.onThread t fun tinfo =>
      let (renderer, tinfo) := w.renderer.DestroyWindowSurface tinfo w.now p_surface
      some (w.update t renderer tinfo, .none)
  | .bindContext t p_context p_drawSurface p_readSurface gl =>
    w.onThread t fun tinfo =>
      let (ok, renderer, tinfo) :=
        w.renderer.bindContext tinfo w.now p_context p_drawSurface p_readSurface gl
      some (w.update t renderer tinfo, .flag ok)
  | .setWindowSurfaceColorBuffer p_surface p_colorbuffer =>
    let (ok, renderer) := w.renderer.setWindowSurfaceColorBuffer w.now p_surface p_colorbuffer
    some ({ w with renderer }, .flag ok)
  | .retainPostedColorBuffer h =>
    let (size, renderer) := w.renderer.retainPostedColorBuffer w.now h
    some ({ w with renderer }, .size size)
  | .retain_frame renderables gl =>
    (w.renderer.retain_frame w.nextPtr gl renderables).map fun res =>
      ({ w with renderer := res.renderer, nextPtr := res.nextPtr },
        .frame res.ok res.renderables)
  | .release_frame renderables =>
    some ({ w with renderer := w.renderer.release_frame renderables }, .none)
  | .exitThread t elapsed =>
    w.onThread t fun tinfo =>
      let (renderer, _) :=
        w.renderer.deferCurrentThreadResources tinfo w.now (w.now + elapsed)
      some ({ w with renderer, threads := w.threads.erase t, now := w.now + elapsed }, .none)

end World

/-- The renderer of a display with `configs` configurations as a machine: it starts fresh, without
render threads. -/
def renderMachine (configs : Nat) : Machine World Op where
  init := { renderer := { m_configs := configs } }
  step w op := (w.step op).map Prod.fst

end AnboxReboxed.Emugl

/-!
## The guest's books

What the guest has been given and has done so far, kept beside the renderer: the colour buffers
returned to it, how often it opened and closed each of them, and the snapshots that are on their way
through the composer. A guest that keeps to its own handles takes only the steps of `ledgerMachine`.
-/

namespace AnboxReboxed.Emugl

open AnboxReboxed.Lib

/-- A renderer with the guest's books. -/
structure Ledger where
  world : World
  /-- The colour-buffer handles returned to the guest. -/
  issued : OrdSet HandleType := ∅
  /-- The handles of the snapshots `retain_frame` returned. -/
  snapshots : OrdSet HandleType := ∅
  /-- The successful calls of `openColorBuffer` for each handle. -/
  opens : HandleType → Nat := fun _ => 0
  /-- The calls of `closeColorBuffer` for each handle. -/
  closes : HandleType → Nat := fun _ => 0

/-- The number of windows `h` is attached to. -/
def Renderer.attachedWindows (r : Renderer) (h : HandleType) : Nat :=
  r.m_windows.sumBy fun w => if w.2 = h then 1 else 0

namespace Ledger

/-- Every colour-buffer handle in `op` was returned to its caller before: to the guest, or, for
`release_frame`, to the composer. -/
def permits (l : Ledger) : Op → Bool
  | .openColorBuffer h => h ∈ l.issued
  | .closeColorBuffer h => h ∈ l.issued
  | .setWindowSurfaceColorBuffer _ h => h = 0 ∨ h ∈ l.issued
  | .retainPostedColorBuffer h => h ∈ l.issued
  | .release_frame renderables => ∀ renderable ∈ renderables, renderable.buffer ∈ l.snapshots
  | _ => true

/-- `f` with one more at `h`. -/
def bump (f : HandleType → Nat) (h : HandleType) : HandleType → Nat :=
  fun k => if k = h then f k + 1 else f k

/-- Enter an operation and its result into the books. -/
def record (l : Ledger) (op : Op) (world : World) (reply : Reply) : Ledger :=
  match op, reply with
  | .createColorBuffer .., .handle h =>
    { l with world, issued := if h = 0 then l.issued else l.issued.insert h () }
  | .openColorBuffer h, .status code =>
    { l with world, opens := if code = 0 then bump l.opens h else l.opens }
  | .closeColorBuffer h, _ => { l with world, closes := bump l.closes h }
  | .retain_frame .., .frame true renderables =>
    { l with world,
             snapshots := renderables.foldl (fun s renderable => s.insert renderable.buffer ())
               l.snapshots }
  | _, _ => { l with world }

end Ledger

/-- The renderer driven by a guest that passes only colour-buffer handles it was given. -/
def ledgerMachine (configs : Nat) : Machine Ledger Op where
  init := { world := (renderMachine configs).init }
  step l op := if l.permits op then (l.world.step op).map fun (w, reply) => l.record op w reply else none

end AnboxReboxed.Emugl

/-!
## Who cleans up a context or a window

A context or window stays in its table until somebody removes it: the thread that created it, when it
exits, or the reaper, when a deferral expires. An orphan is an entry that neither of them knows.
-/

namespace AnboxReboxed.Emugl

open AnboxReboxed.Lib

namespace Renderer

/-- `bindContext` finds the context `h` at `now`: it is in the table and the reaper leaves it there. -/
def FindsContext (r : Renderer) (now : TimePoint) (h : HandleType) : Prop :=
  h ∈ r.m_contexts ∧ ∀ e, r.m_deferredContexts.find? h = some e → now < e

/-- A window is found at `now`. -/
def FindsWindow (r : Renderer) (now : TimePoint) (h : HandleType) : Prop :=
  h ∈ r.m_windows ∧ ∀ e, r.m_deferredWindows.find? h = some e → now < e

/-- Every entry of a table has an owner or a deferral. -/
def Covered {α : Type} (table : OrdMap HandleType α) (deferred : OrdMap HandleType TimePoint)
    (owned : HandleType → Prop) : Prop := ∀ h, h ∈ table → owned h ∨ h ∈ deferred

end Renderer

namespace World

/-- Some live thread created the context `h` and has not let go of it. -/
def OwnsContext (w : World) (h : HandleType) : Prop :=
  ∃ t tinfo, w.threads.find? t = some tinfo ∧ h ∈ tinfo.m_contextSet

/-- Some live thread created the window `h` and has not let go of it. -/
def OwnsWindow (w : World) (h : HandleType) : Prop :=
  ∃ t tinfo, w.threads.find? t = some tinfo ∧ h ∈ tinfo.m_windowSet

/-- No context and no window is orphaned. -/
def NoOrphans (w : World) : Prop :=
  Renderer.Covered w.renderer.m_contexts w.renderer.m_deferredContexts w.OwnsContext ∧
    Renderer.Covered w.renderer.m_windows w.renderer.m_deferredWindows w.OwnsWindow

/-- All threads are gone and every deferral has expired. -/
def Quiescent (w : World) : Prop :=
  (∀ t, t ∉ w.threads) ∧
    (∀ h e, w.renderer.m_deferredContexts.find? h = some e → e ≤ w.now) ∧
    (∀ h e, w.renderer.m_deferredWindows.find? h = some e → e ≤ w.now)

/-- One run of the reaper empties both tables. -/
def ReapEmpties (w : World) : Prop :=
  (w.renderer.reapDeferredResourcesLocked w.now).m_contexts = ∅ ∧
    (w.renderer.reapDeferredResourcesLocked w.now).m_windows = ∅

/-- The operation looks up the context `h` in order to use it. -/
def ReusesContext (w : World) : Op → HandleType → Prop
  | .bindContext _ c d rd _, h => (c ≠ 0 ∨ d ≠ 0 ∨ rd ≠ 0) ∧ h = c ∧ w.renderer.FindsContext w.now c
  | _, _ => False

/-- The operation looks up the window `h` in order to use it; `bindContext` looks up the surfaces only
after the context, and the read surface only after the draw surface. -/
def ReusesWindow (w : World) : Op → HandleType → Prop
  | .bindContext _ c d rd _, h =>
    w.renderer.FindsContext w.now c ∧ w.renderer.FindsWindow w.now d ∧
      (h = d ∨ h = rd ∧ w.renderer.FindsWindow w.now rd) ∧ (c ≠ 0 ∨ d ≠ 0 ∨ rd ≠ 0)
  | .setWindowSurfaceColorBuffer s _, h => h = s ∧ w.renderer.FindsWindow w.now s
  | _, _ => False

/-- Whatever pending deferral the operation cancels belongs to a resource that a live thread still
owns. -/
def ReusesOwned (w : World) (op : Op) : Prop :=
  (∀ h, w.ReusesContext op h → h ∈ w.renderer.m_deferredContexts → w.OwnsContext h) ∧
    (∀ h, w.ReusesWindow op h → h ∈ w.renderer.m_deferredWindows → w.OwnsWindow h)

/-! ## Resources in use -/

/-- Some live thread has the context `p` current. -/
def UsesContext (w : World) (p : RenderContextPtr) : Prop :=
  ∃ t tinfo, w.threads.find? t = some tinfo ∧ tinfo.currContext = some p

/-- Some live thread has the window `p` as its draw or its read surface. -/
def UsesWindow (w : World) (p : WindowSurfacePtr) : Prop :=
  ∃ t tinfo, w.threads.find? t = some tinfo ∧
    (tinfo.currDrawSurf = some p ∨ tinfo.currReadSurf = some p)

/-- Whatever the reaper removes now, no live thread uses. -/
def ReapsUnused (w : World) : Prop :=
  (∀ h p, w.renderer.m_contexts.find? h = some p →
      h ∉ (w.renderer.reapDeferredResourcesLocked w.now).m_contexts → ¬ w.UsesContext p) ∧
    (∀ h win, w.renderer.m_windows.find? h = some win →
      h ∉ (w.renderer.reapDeferredResourcesLocked w.now).m_windows → ¬ w.UsesWindow win.1)

/-- A thread that exits has created nothing that another live thread has current. -/
def ExitsUnused (w : World) : Op → Prop
  | .exitThread t _ => ∀ tinfo t' tinfo', w.threads.find? t = some tinfo → t' ≠ t →
      w.threads.find? t' = some tinfo' →
      (∀ h p, h ∈ tinfo.m_contextSet → w.renderer.m_contexts.find? h = some p →
        tinfo'.currContext ≠ some p) ∧
      (∀ h win, h ∈ tinfo.m_windowSet → w.renderer.m_windows.find? h = some win →
        tinfo'.currDrawSurf ≠ some win.1 ∧ tinfo'.currReadSurf ≠ some win.1)
  | _ => True

end World

end AnboxReboxed.Emugl
