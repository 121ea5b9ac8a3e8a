import AnboxReboxed.Emugl.ColorBuffer

/-!
# The renderer with its EGL and GL objects

A `GlWorld` is a `World` of handle tables together with the objects behind the handles, the host
windows and the state of EGL and GL. Every operation runs under `m_lock` on some thread, so it is one
step; the label says which thread, and what EGL and GL answer.
-/

namespace AnboxReboxed.Emugl

open AnboxReboxed.Lib

/-- An `EGLNativeWindowType`. -/
abbrev NativeWindow := Nat

/-- `static_cast<unsigned int>(i)`. -/
def toUnsigned (i : Int) : Nat := (i % 2 ^ 32).toNat

structure GlWorld where
  world : World := {}
  gl : Gl := {}
  windowSurfaces : OrdMap WindowSurfacePtr WindowSurface := ∅
  colorBuffers : OrdMap ColorBufferPtr ColorBuffer := ∅
  /-- `m_nativeWindows`, with the surface of each window. -/
  m_nativeWindows : OrdMap NativeWindow (Option EglSurface) := ∅
  presentation_sample_counter : Nat := 0

/-- What EGL and GL answer in one round of `retain_frame`. -/
structure SnapshotAnswers where
  create : CreateAnswers
  scope : ScopeAnswers
  complete : Bool
  resize : ResizeAnswers
  /-- The texture is drawn, and `glGetError` has nothing to report. -/
  copied : Bool

def SnapshotAnswers.ok (a : SnapshotAnswers) : Bool :=
  a.create.ok && a.scope.bind && a.complete && a.copied

/-- What EGL and GL answer in `draw`, beyond `DrawAnswers`. -/
structure DrawCalls where
  answers : DrawAnswers
  /-- The `eglMakeCurrent` of the first and of the last `recreateWindowSurfaceLocked`. -/
  unbind : Bool
  unbindSwap : Bool
  restore : Bool
  /-- The layers in turn. -/
  resize : Nat → ResizeAnswers
  sampleResize : ResizeAnswers
  sampleComplete : Bool

/-- What EGL answers to the destructors of the colour buffers that an operation lets go of. -/
abbrev DestroyAnswers := ColorBufferPtr → ScopeAnswers

inductive GlOp where
  /-- An operation on the tables, whose only EGL and GL calls are those of destructors. -/
  | tables (t : ThreadId) (op : Op) (destroyed : DestroyAnswers)
  | startThread (t : ThreadId)
  | createColorBuffer (t : ThreadId) (p_width p_height : Int) (p_internalFormat : GLenum)
      (a : CreateAnswers)
  | createWindowSurface (t : ThreadId) (p_config p_width p_height : Int) (a : PbufferAnswers)
  | bindContext (t : ThreadId) (p_context p_drawSurface p_readSurface : HandleType) (ok : Bool)
      (reaped replaced : DestroyAnswers)
  | setWindowSurfaceColorBuffer (t : ThreadId) (p_surface p_colorbuffer : HandleType)
      (destroyed : DestroyAnswers) (a : PbufferAnswers)
  | flushWindowSurfaceColorBuffer (t : ThreadId) (p_surface : HandleType) (a : FlushAnswers)
  | readColorBuffer (t : ThreadId) (p_colorbuffer : HandleType) (x y width height : Int) (pixels : Bool)
      (a : ScopeAnswers) (complete : Bool)
  | updateColorBuffer (t : ThreadId) (p_colorbuffer : HandleType) (x y width height : Int)
      (pixels : Bool) (a : ScopeAnswers)
  | retain_frame (t : ThreadId) (renderables : List Renderable) (a : HandleType → SnapshotAnswers)
      (destroyed : DestroyAnswers)
  | createNativeWindow (t : ThreadId) (native_window : NativeWindow) (create bind restore : Bool)
  /-- `external` holds the sizes of the external frame source, when there is one. -/
  | draw (t : ThreadId) (native_window : NativeWindow) (renderables : List Renderable)
      (external : Option (Size × Size)) (a : DrawCalls)

/-- The operations that have no steps of their own in `GlOp`, when the thread `t` makes them. -/
def Op.onlyTables (t : ThreadId) : Op → Bool
  | .tick _ | .openColorBuffer _ | .closeColorBuffer _ | .retainPostedColorBuffer _ | .release_frame _ =>
    true
  | .createRenderContext t' _ _ _ | .drainRenderContext t' | .drainWindowSurface t'
  | .DestroyRenderContext t' _ | .DestroyWindowSurface t' _ | .exitThread t' _ => t' == t
  | .startThread _ | .createColorBuffer .. | .createWindowSurface .. | .bindContext ..
  | .setWindowSurfaceColorBuffer .. | .retain_frame .. => false

/-- `createColorBuffer` gets as far as `ColorBuffer::create`. -/
def Renderer.admitsColorBuffer (r : Renderer) (p_width p_height : Int) : Bool :=
  let allocation_bytes := toSize p_width * toSize p_height * 8 % 2 ^ 64
  !(p_width ≤ 0 || p_height ≤ 0 || max_color_buffers ≤ r.m_colorbuffers.size ||
    sizeMax / toSize p_height / 8 < toSize p_width || max_color_buffer_bytes < allocation_bytes ||
    max_color_buffer_bytes - allocation_bytes < r.m_colorBufferBytes)

namespace GlWorld

/-! ## Objects without owners -/

/-- Some shared pointer to the window surface is left. -/
def windowOwned (s : GlWorld) (p : WindowSurfacePtr) : Bool :=
  s.world.renderer.m_windows.entries.any (fun e => e.2.1 == p) ||
    s.world.threads.entries.any fun e => e.2.currDrawSurf == some p || e.2.currReadSurf == some p

/-- Some shared pointer to the colour buffer is left. -/
def colorBufferOwned (s : GlWorld) (p : ColorBufferPtr) : Bool :=
  s.world.renderer.m_colorbuffers.entries.any (fun e => e.2.cb == p) ||
    s.windowSurfaces.entries.any fun e => e.2.mAttachedColorBuffer == some p && s.windowOwned e.1

/-- One colour buffer, which is destroyed when nothing points to it. -/
def collectOne (t : ThreadId) (a : DestroyAnswers) (s : GlWorld) (e : ColorBufferPtr × ColorBuffer) :
    GlWorld :=
  if s.colorBufferOwned e.1 then s
  else { s with gl := e.2.destroy s.gl t e.1 (a e.1), colorBuffers := s.colorBuffers.erase e.1 }

/-- The destructors that run on thread `t` once the pointers are gone. -/
def collect (s : GlWorld) (t : ThreadId) (a : DestroyAnswers) : GlWorld :=
  s.colorBuffers.entries.foldl (collectOne t a) s

/-! ## Bookkeeping -/

/-- `getEGLSurface()` of the window surface, if there is one. -/
def surfaceOf (s : GlWorld) (p : Option WindowSurfacePtr) : Option EglSurface :=
  p.bind fun p => (s.windowSurfaces.find? p).bind WindowSurface.mSurface

/-- What a thread with this bookkeeping has current. -/
def bindingOf (s : GlWorld) (tinfo : RenderThreadInfo) : EglBinding where
  context := tinfo.currContext.map .guest
  draw := s.surfaceOf tinfo.currDrawSurf
  read := s.surfaceOf tinfo.currReadSurf

/-- Change the window surface at `p`, if it is there. -/
def modifyWindow (s : GlWorld) (p : WindowSurfacePtr) (f : WindowSurface → WindowSurface) : GlWorld :=
  match s.windowSurfaces.find? p with
  | none => s
  | some w => { s with windowSurfaces := s.windowSurfaces.insert p (f w) }

/-- The calls of `WindowSurface::bind` in `bindContext`. -/
def bindSurfaces (s : GlWorld) (ctx : Option RenderContextPtr) :
    Option WindowSurfacePtr → Option WindowSurfacePtr → GlWorld
  | some draw, some read =>
    if draw ≠ read then (s.modifyWindow draw (·.bind ctx .BIND_DRAW)).modifyWindow read (·.bind ctx .BIND_READ)
    else s.modifyWindow draw (·.bind ctx .BIND_READDRAW)
  | _, _ => s

/-! ## Operations -/

def createColorBuffer (s : GlWorld) (t : ThreadId) (p_width p_height : Int) (p_internalFormat : GLenum)
    (a : CreateAnswers) : Option GlWorld :=
  (s.world.step (.createColorBuffer p_width p_height p_internalFormat a.ok)).map fun (world, _) =>
    if s.world.renderer.admitsColorBuffer p_width p_height then
      let (gl, c) := ColorBuffer.create s.gl t s.world.nextPtr p_width p_height p_internalFormat a
      match c with
      | none => { s with world, gl }
      | some c => { s with world, gl, colorBuffers := s.colorBuffers.insert s.world.nextPtr c }
    else { s with world }

def createWindowSurface (s : GlWorld) (t : ThreadId) (p_config p_width p_height : Int)
    (a : PbufferAnswers) : Option GlWorld :=
  (s.world.step (.createWindowSurface t p_config a.create)).map fun (world, _) =>
    if s.world.renderer.hasConfig p_config then
      let (gl, w) := WindowSurface.resize {} s.gl t (toUnsigned p_width) (toUnsigned p_height) a
      if a.create then
        { s with world, gl, windowSurfaces := s.windowSurfaces.insert s.world.nextPtr w }
      else { s with world, gl }
    else { s with world }

/-- `reapDeferredResourcesLocked` with the destructors it runs. -/
def reap (s : GlWorld) (t : ThreadId) (a : DestroyAnswers) : GlWorld :=
  collect { s with world := { s.world with
    renderer := s.world.renderer.reapDeferredResourcesLocked s.world.now } } t a

/-- `bindContext` after the reaper has run; it finds nothing more to reap. What it makes current is what
it looked up, and stores in the thread's `RenderThreadInfo`. -/
def bindReaped (s : GlWorld) (t : ThreadId) (p_context p_drawSurface p_readSurface : HandleType) (ok : Bool)
    (replaced : DestroyAnswers) : Option GlWorld :=
  (s.world.step (.bindContext t p_context p_drawSurface p_readSurface ok)).bind fun (world, reply) =>
    (s.world.threads.find? t).bind fun old => (world.threads.find? t).map fun tinfo =>
      if reply = .flag true then
        let s := { s with gl := s.gl.bindGuest t (s.bindingOf tinfo) }
        let s :=
          if tinfo.currDrawSurf = none ∧ tinfo.currReadSurf = none then
            s.bindSurfaces tinfo.currContext old.currDrawSurf old.currReadSurf
          else s.bindSurfaces tinfo.currContext tinfo.currDrawSurf tinfo.currReadSurf
        collect { s with world } t replaced
      else { s with world }

def bindContext (s : GlWorld) (t : ThreadId) (p_context p_drawSurface p_readSurface : HandleType) (ok : Bool)
    (reaped replaced : DestroyAnswers) : Option GlWorld :=
  (s.reap t reaped).bindReaped t p_context p_drawSurface p_readSurface ok replaced

/-- The resize of `WindowSurface::setColorBuffer`, for the window surface at `p`. -/
def resizeWindow (s : GlWorld) (t : ThreadId) (p : WindowSurfacePtr) (width height : Nat)
    (a : PbufferAnswers) : GlWorld :=
  match s.windowSurfaces.find? p with
  | none => s
  | some w =>
    if width ≠ w.mWidth ∨ height ≠ w.mHeight then
      let (gl, w) := w.resize s.gl t width height a
      { s with gl, windowSurfaces := s.windowSurfaces.insert p w }
    else s

/-- `WindowSurface::setColorBuffer` of the window surface at `p`. The buffer that was attached is
destroyed here, when this was the last pointer to it. -/
def setColorBuffer (s : GlWorld) (t : ThreadId) (p : WindowSurfacePtr) (cb : Option ColorBufferPtr)
    (destroyed : DestroyAnswers) (a : PbufferAnswers) : GlWorld :=
  let s := (s.modifyWindow p fun w => { w with mAttachedColorBuffer := cb }).collect t destroyed
  match cb.bind s.colorBuffers.find? with
  | none => s
  | some c => s.resizeWindow t p c.m_width c.m_height a

def setWindowSurfaceColorBuffer (s : GlWorld) (t : ThreadId) (p_surface p_colorbuffer : HandleType)
    (destroyed : DestroyAnswers) (a : PbufferAnswers) : Option GlWorld :=
  (s.world.step (.setWindowSurfaceColorBuffer p_surface p_colorbuffer)).map fun (world, reply) =>
    -- The reaper takes windows out of the table, but does not change those it leaves there.
    let old := if reply = .flag true then s.world.renderer.m_windows.find? p_surface else none
    let s := { s with world }
    let newColorBuffer :=
      if p_colorbuffer = 0 then none
      else (world.renderer.m_colorbuffers.find? p_colorbuffer).map ColorBufferRef.cb
    match old with
    | none => s.collect t destroyed
    | some w =>
      if w.2 = p_colorbuffer ∧ newColorBuffer = none then s.collect t destroyed
      else s.setColorBuffer t w.1 newColorBuffer destroyed a

def flushWindowSurfaceColorBuffer (s : GlWorld) (t : ThreadId) (p_surface : HandleType) (a : FlushAnswers) :
    GlWorld :=
  let window := (s.world.renderer.m_windows.find? p_surface).bind fun w => s.windowSurfaces.find? w.1
  let attached := (window.bind WindowSurface.mAttachedColorBuffer).bind fun p =>
    (s.colorBuffers.find? p).map fun c => (p, c)
  match window, attached with
  | some w, some (p, c) =>
    let currContext := ((s.world.threads.find? t).bind RenderThreadInfo.currContext).isSome
    let (gl, c) := w.flushColorBuffer s.gl t p c currContext a
    { s with gl, colorBuffers := s.colorBuffers.insert p c }
  | _, _ => s

/-- The colour buffer behind a handle, with its address. -/
def findColorBuffer (s : GlWorld) (h : HandleType) : Option (ColorBufferPtr × ColorBuffer) :=
  (s.world.renderer.m_colorbuffers.find? h).bind fun ref =>
    (s.colorBuffers.find? ref.cb).map fun c => (ref.cb, c)

/-- Apply a member function of `ColorBuffer` to the colour buffer behind a handle. -/
def onColorBuffer (s : GlWorld) (h : HandleType)
    (f : ColorBufferPtr → ColorBuffer → Gl × ColorBuffer) : GlWorld :=
  match s.findColorBuffer h with
  | none => s
  | some (p, c) => { s with gl := (f p c).1, colorBuffers := s.colorBuffers.insert p (f p c).2 }

def readColorBuffer (s : GlWorld) (t : ThreadId) (p_colorbuffer : HandleType) (x y width height : Int)
    (pixels : Bool) (a : ScopeAnswers) (complete : Bool) : GlWorld :=
  s.onColorBuffer p_colorbuffer fun p c => c.readPixels s.gl t p x y width height pixels a complete

def updateColorBuffer (s : GlWorld) (t : ThreadId) (p_colorbuffer : HandleType) (x y width height : Int)
    (pixels : Bool) (a : ScopeAnswers) : GlWorld :=
  s.onColorBuffer p_colorbuffer fun _ c => (c.subUpdate s.gl t x y width height pixels a, c)

/-! ## Frames -/

/-- The colour buffer that one round of `retain_frame` makes at the address `p`, as a copy of
`source`. -/
def snapshot (s : GlWorld) (t : ThreadId) (p : ColorBufferPtr) (source : ColorBufferRef)
    (a : SnapshotAnswers) : GlWorld :=
  let (gl, c) := ColorBuffer.create s.gl t p source.width source.height source.format a.create
  match c, s.colorBuffers.find? source.cb with
  | some c, some src =>
    let (gl, c, src) := c.snapshotFrom gl t p src source.cb a.scope a.complete a.resize
    { s with gl, colorBuffers := (s.colorBuffers.insert p c).insert source.cb src }
  | some c, none => { s with gl, colorBuffers := s.colorBuffers.insert p c }
  | none, _ => { s with gl }

/-- What the first loop of `retain_frame` does to the objects; the tables go through the same rounds as
in `retainLoop`. -/
def snapshotLoop (t : ThreadId) (a : HandleType → SnapshotAnswers) :
    GlWorld → Renderer.RetainState → List Renderable → GlWorld
  | s, _, [] => s
  | s, st, renderable :: renderables =>
    match Renderer.retainCheck st renderable.buffer with
    | .known => snapshotLoop t a s st renderables
    | .rejected => s
    | .admitted source allocation_bytes =>
      let answers := a renderable.buffer
      let s := s.snapshot t st.nextPtr source answers
      if colorBufferArgsOk source.width source.height source.format && answers.ok then
        match st.renderer.genHandle with
        | none => s
        | some (snapshot_handle, r) =>
          snapshotLoop t a s (Renderer.retainCommit st r renderable.buffer snapshot_handle source
            allocation_bytes st.nextPtr) renderables
      else s

def retain_frame (s : GlWorld) (t : ThreadId) (renderables : List Renderable)
    (a : HandleType → SnapshotAnswers) (destroyed : DestroyAnswers) : Option GlWorld :=
  (s.world.step (.retain_frame renderables fun h => (a h).ok)).map fun (world, _) =>
    let s := snapshotLoop t a s { renderer := s.world.renderer, nextPtr := s.world.nextPtr } renderables
    collect { s with world } t destroyed

/-! ## Host windows -/

def createNativeWindow (s : GlWorld) (t : ThreadId) (native_window : NativeWindow)
    (create bind restore : Bool) : GlWorld :=
  match s.m_nativeWindows.find? native_window with
  | some _ => s
  | none =>
    if create then
      let (surface, gl) := s.gl.createSurface
      let gl := gl.bindWindow_locked t (some surface) bind
      if bind then
        { s with
          gl := gl.unbind_locked t restore
          m_nativeWindows := s.m_nativeWindows.insert native_window (some surface) }
      else { s with gl }
    else s

/-- The new surface of the window, and what EGL does; what was current on the thread is not. -/
def recreateWindowSurfaceLocked (s : GlWorld) (t : ThreadId) (native_window : NativeWindow)
    (unbind create : Bool) : Option EglSurface × GlWorld :=
  let gl := s.gl.eglMakeCurrent t {} unbind
  if create then
    let (surface, gl) := gl.createSurface
    (some surface, { s with gl, m_nativeWindows := s.m_nativeWindows.insert native_window (some surface) })
  else (none, { s with gl, m_nativeWindows := s.m_nativeWindows.insert native_window none })

/-- The layers, from the one with the number `n` on. -/
def drawRenderables (t : ThreadId) (vport : Size) (a : Nat → ResizeAnswers) :
    GlWorld → Nat → List Renderable → GlWorld
  | s, _, [] => s
  | s, n, r :: rs =>
    drawRenderables t vport a (s.onColorBuffer r.buffer fun p c => c.bind s.gl t p vport (a n)) (n + 1) rs

/-- `++presentation_sample_counter % 60 == 1`. -/
def sample_presentation (s : GlWorld) : Bool := (s.presentation_sample_counter + 1) % 2 ^ 32 % 60 == 1

/-- The viewport that `draw` sets on a drawable of the size `surface`. -/
def drawViewport (surface : Size) (renderables : List Renderable) (external : Option (Size × Size)) : Size :=
  let source := match external with
    | some (frame, expected) => FrameSource.external frame expected
    | none => FrameSource.renderables renderables
  let source := if source.size.Positive then source.size else surface
  let content := coordinateTransformViewport surface source .R0
  (content.right - content.left, content.bottom - content.top)

/-- The part of `draw` that uses colour buffers, with the host window current. -/
def drawLayers (s : GlWorld) (t : ThreadId) (surface : Size) (renderables : List Renderable)
    (external : Option (Size × Size)) (a : DrawCalls) : GlWorld :=
  let sample := s.sample_presentation
  let vport := drawViewport surface renderables external
  let s := { s with presentation_sample_counter := (s.presentation_sample_counter + 1) % 2 ^ 32 }
  let s := if external.isSome then s else drawRenderables t vport a.resize s 0 renderables
  match renderables with
  | [] => s
  | r :: _ =>
    if sample then
      s.onColorBuffer r.buffer fun p c => c.sampleCurrentTexture s.gl t p vport a.sampleResize a.sampleComplete
    else s

/-- `draw` once the host window is current. -/
def drawBound (s : GlWorld) (t : ThreadId) (native_window : NativeWindow) (renderables : List Renderable)
    (external : Option (Size × Size)) (a : DrawCalls) : GlWorld :=
  match a.answers.query with
  | none => { s with gl := s.gl.unbind_locked t a.restore }
  | some surface =>
    if surface.Positive then
      let s := s.drawLayers t surface renderables external a
      let s := { s with gl := s.gl.unbind_locked t a.restore }
      if a.answers.swap = .badSurface then
        (s.recreateWindowSurfaceLocked t native_window a.unbindSwap a.answers.recreationSwap.created).2
      else s
    else { s with gl := s.gl.unbind_locked t a.restore }

def draw (s : GlWorld) (t : ThreadId) (native_window : NativeWindow) (renderables : List Renderable)
    (external : Option (Size × Size)) (a : DrawCalls) : GlWorld :=
  match s.m_nativeWindows.find? native_window with
  | none => s
  | some surface =>
    let s := { s with gl := s.gl.bindWindow_locked t surface a.answers.bind }
    if a.answers.bind then s.drawBound t native_window renderables external a
    else
      let (surface, s) := s.recreateWindowSurfaceLocked t native_window a.unbind a.answers.recreation.created
      if surface.isSome then
        let s := { s with gl := s.gl.bindWindow_locked t surface a.answers.bindAgain }
        if a.answers.bindAgain then s.drawBound t native_window renderables external a else s
      else s

/-- One step; `none` when it is not enabled or does not return. -/
def step (s : GlWorld) : GlOp → Option GlWorld
  | .tables t op destroyed =>
    if op.onlyTables t then
      (s.world.step op).map fun (world, _) => collect { s with world } t destroyed
    else none
  | .startThread t =>
    (s.world.step (.startThread t)).map fun (world, _) =>
      { s with
        world
        gl := { s.gl with
          current := Function.update s.gl.current t {}
          unrestored := Function.update s.gl.unrestored t false } }
  | .createColorBuffer t p_width p_height p_internalFormat a =>
    s.createColorBuffer t p_width p_height p_internalFormat a
  | .createWindowSurface t p_config p_width p_height a => s.createWindowSurface t p_config p_width p_height a
  | .bindContext t p_context p_drawSurface p_readSurface ok reaped replaced =>
    s.bindContext t p_context p_drawSurface p_readSurface ok reaped replaced
  | .setWindowSurfaceColorBuffer t p_surface p_colorbuffer destroyed a =>
    s.setWindowSurfaceColorBuffer t p_surface p_colorbuffer destroyed a
  | .flushWindowSurfaceColorBuffer t p_surface a => some (s.flushWindowSurfaceColorBuffer t p_surface a)
  | .readColorBuffer t p_colorbuffer x y width height pixels a complete =>
    some (s.readColorBuffer t p_colorbuffer x y width height pixels a complete)
  | .updateColorBuffer t p_colorbuffer x y width height pixels a =>
    some (s.updateColorBuffer t p_colorbuffer x y width height pixels a)
  | .retain_frame t renderables a destroyed => s.retain_frame t renderables a destroyed
  | .createNativeWindow t native_window create bind restore =>
    some (s.createNativeWindow t native_window create bind restore)
  | .draw t native_window renderables external a => some (s.draw t native_window renderables external a)

end GlWorld

/-- The renderer of a display with `configs` configurations, whose helper context has the surface
`pbufSurface`. -/
def glMachine (configs : Nat) (pbufSurface : Option EglSurface) : Machine GlWorld GlOp where
  init := { world := { renderer := { m_configs := configs } }, gl := { m_pbufSurface := pbufSurface } }
  step s op := s.step op

end AnboxReboxed.Emugl

/-!
## GL objects and their contexts

The same name stands for different objects in contexts that share nothing, so a colour buffer may use
the names it holds only where they were generated.
-/

namespace AnboxReboxed.Emugl

open AnboxReboxed.Lib

/-- The call hits nothing but objects of the colour buffer itself. -/
def GlUse.Own (g : Gl) : GlUse → Prop
  | .framebuffer cb f current => ∃ c, current = some c ∧ f.context = some c ∧
      (∀ ctx, c ≠ .guest ctx) ∧ g.generatedFor c f.name = some cb
  | .deletion _ current => ∀ ctx, current ≠ some (.guest ctx)

/-- `update` binds none of the framebuffers: there is nothing to scale, or no memory to scale into. -/
def TextureResize.Idle (r : TextureResize) (vport : Size) (a : ResizeAnswers) : Prop :=
  r.factor vport = 1 ∨ r.factor vport ≠ r.mFactor ∧ a.allocateWidth = false

/-- The context of a guest is current on the thread. -/
def Gl.GuestCurrent (g : Gl) (t : ThreadId) : Prop := ∃ ctx, g.context t = some (.guest ctx)

/-- The object is made, or not begun, or deleted again where it was made. -/
def CreateAnswers.Safe (a : CreateAnswers) (g : Gl) (t : ThreadId) : Prop :=
  a.scope.bind = true → a.allocate = true ∨ a.cleanup.bind = true ∨ ¬g.GuestCurrent t

namespace GlWorld

/-- Every GL call on an object of a colour buffer hit that object. -/
def NamesOwned (s : GlWorld) : Prop := ∀ u ∈ s.gl.uses, u.Own s.gl

/-- Destructors on the thread `t` get the helper context, or have it already. -/
def DestroysSafely (s : GlWorld) (t : ThreadId) (a : DestroyAnswers) : Prop :=
  ∀ p, (a p).bind = true ∨ s.gl.context t = some .pbuf

/-- `draw` neither scales a colour buffer nor samples one. -/
def DrawsPlainly (s : GlWorld) (vport : Size) (renderables : List Renderable)
    (external : Option (Size × Size)) (a : DrawCalls) : Prop :=
  (external = none → ∀ n r p c, renderables[n]? = some r → s.findColorBuffer r.buffer = some (p, c) →
    c.m_resizer.Idle vport (a.resize n)) ∧
  (s.sample_presentation = true → ∀ r, renderables.head? = some r → s.findColorBuffer r.buffer = none)

/-- The step uses the names of colour buffers only where they were generated. -/
def KeepsNames (s : GlWorld) : GlOp → Prop
  | .tables t _ destroyed => s.DestroysSafely t destroyed
  | .createColorBuffer t _ _ _ a => a.Safe s.gl t
  | .bindContext t _ _ _ ok reaped replaced =>
    s.DestroysSafely t reaped ∧ (ok = true → ∀ p, (replaced p).bind = true)
  | .setWindowSurfaceColorBuffer t _ _ destroyed _ => s.DestroysSafely t destroyed
  | .retain_frame t _ a destroyed => (∀ h, (a h).create.Safe s.gl t) ∧ s.DestroysSafely t destroyed
  | .draw _ native_window renderables external a =>
    native_window ∈ s.m_nativeWindows →
    (a.answers.bind = true ∨ a.answers.recreation.created = true ∧ a.answers.bindAgain = true) →
    ∀ surface, a.answers.query = some surface → surface.Positive →
      s.DrawsPlainly (drawViewport surface renderables external) renderables external a
  | _ => True

end GlWorld

/-!
## Bindings and bookkeeping

A guest's GL commands go to the context that is current on its render thread, so that has to be the one
in the thread's `RenderThreadInfo`.
-/

section

open AnboxReboxed.Lib

namespace DrawCalls

/-- The host window cannot be made current, and gets a new surface. -/
def recreatesFirst (a : DrawCalls) : Prop := a.answers.bind = false

/-- The frame is drawn but cannot be shown, and the window gets a new surface. -/
def recreatesLast (a : DrawCalls) : Prop :=
  (a.answers.bind = true ∨ a.answers.recreation.created = true ∧ a.answers.bindAgain = true) ∧
    (∃ surface, a.answers.query = some surface ∧ surface.Positive) ∧ a.answers.swap = .badSurface

end DrawCalls

namespace GlWorld

/-- What is current on every live thread is what its bookkeeping says, unless the thread was left behind
by a failed `eglMakeCurrent` at the end of an operation. -/
def BindingsMatch (s : GlWorld) : Prop :=
  ∀ t tinfo, s.world.threads.find? t = some tinfo → s.gl.unrestored t = false →
    s.gl.current t = s.bindingOf tinfo ∧ (tinfo.currContext = none → s.gl.current t = {})

/-- If the thread is a render thread, it has no context. -/
def Unbound (s : GlWorld) (t : ThreadId) : Prop :=
  ∀ tinfo, s.world.threads.find? t = some tinfo → tinfo.currContext = none

/-- The window surface at `p` can get another pbuffer: nobody has it current, or only the thread that
changes it, and there is a pbuffer before and after. -/
def ResizesSafely (s : GlWorld) (t : ThreadId) (p : WindowSurfacePtr) (w : WindowSurface)
    (a : PbufferAnswers) : Prop :=
  ∀ t' tinfo, s.world.threads.find? t' = some tinfo → s.gl.unrestored t' = false →
    (tinfo.currDrawSurf = some p ∨ tinfo.currReadSurf = some p) →
      (t' = t ∧ w.mSurface.isSome = true ∧ a.create = true) ∨ (w.mSurface = none ∧ a.create = false)

/-- The step leaves no thread with another binding than its bookkeeping says. -/
def KeepsBindings (s : GlWorld) : GlOp → Prop
  | .setWindowSurfaceColorBuffer t p_surface p_colorbuffer _ a =>
    ∀ win w p c, s.world.renderer.m_windows.find? p_surface = some win →
      s.windowSurfaces.find? win.1 = some w → p_colorbuffer ≠ 0 →
      s.findColorBuffer p_colorbuffer = some (p, c) → (c.m_width ≠ w.mWidth ∨ c.m_height ≠ w.mHeight) →
      s.ResizesSafely t win.1 w a
  | .draw t native_window _ _ a =>
    native_window ∈ s.m_nativeWindows → s.Unbound t ∨
      (a.recreatesFirst → a.unbind = false) ∧ (a.recreatesLast → a.unbindSwap = false)
  | _ => True

end GlWorld

end

end AnboxReboxed.Emugl
