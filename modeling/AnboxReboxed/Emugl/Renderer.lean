import AnboxReboxed.Lib.OrdMap

/-!
# The handle tables of the renderer

`Renderer` keeps the guest's GL resources in four kinds of tables: contexts, window surfaces, colour
buffers with their reference counts and byte budget, and the deferrals of resources whose creator
pipe has closed. Each definition below is one member function of the class `Renderer` run under
`m_lock`; what EGL and GL answer is an argument.
-/

namespace AnboxReboxed.Emugl

open AnboxReboxed.Lib

/-! ## Machine types -/

/-- `HandleType` (`uint32_t`); every handle the renderer generates is below `2 ^ 32`. -/
abbrev HandleType := Nat

/-- The address of a `RenderContext` owned through shared pointers. -/
abbrev RenderContextPtr := Nat

/-- The address of a `WindowSurface` owned through shared pointers. -/
abbrev WindowSurfacePtr := Nat

/-- The address of a `ColorBuffer` owned through shared pointers. -/
abbrev ColorBufferPtr := Nat

/-- A reading of `std::chrono::steady_clock`, in nanoseconds. -/
abbrev TimePoint := Nat

abbrev GLenum := Nat

/-- `std::numeric_limits<size_t>::max()`. -/
def sizeMax : Nat := 2 ^ 64 - 1

/-- `std::numeric_limits<uint32_t>::max()`. -/
def uint32Max : Nat := 2 ^ 32 - 1

/-- `static_cast<size_t>(i)`. -/
def toSize (i : Int) : Nat := (i % 2 ^ 64).toNat

/-- `a + b` in `size_t`. -/
def addSize (a b : Nat) : Nat := (a + b) % 2 ^ 64

/-- `a - b` in `size_t`, wrapping below zero. -/
def subSize (a b : Nat) : Nat := (a + (2 ^ 64 - b % 2 ^ 64)) % 2 ^ 64

/-- `anbox::graphics::Rect`. -/
structure Rect where
  left : Int
  top : Int
  right : Int
  bottom : Int
  deriving DecidableEq, Repr, Inhabited

/-- A layer to be presented. -/
structure Renderable where
  name : String
  buffer : HandleType
  screen_position : Rect
  crop : Rect
  deriving DecidableEq, Repr, Inhabited

/-- `ColorBufferRef`: a colour buffer with the number of references to its handle. -/
structure ColorBufferRef where
  cb : ColorBufferPtr
  refcount : Nat
  allocation_bytes : Nat
  width : Int
  height : Int
  format : GLenum
  deriving DecidableEq, Repr, Inhabited

/-- `RenderThreadInfo`: what a render thread has current, and the resources it created. -/
structure RenderThreadInfo where
  currContext : Option RenderContextPtr := none
  currDrawSurf : Option WindowSurfacePtr := none
  currReadSurf : Option WindowSurfacePtr := none
  m_contextSet : OrdSet HandleType := ∅
  m_windowSet : OrdSet HandleType := ∅
  deriving DecidableEq, Inhabited

/-- The part of `Renderer` that `m_lock` protects. `handlesGenerated` counts the calls of
`genHandle`; the source has no such field, and nothing below reads it. -/
structure Renderer where
  s_nextHandle : Nat := 0
  handlesGenerated : Nat := 0
  m_configs : Nat := 1
  m_contexts : OrdMap HandleType RenderContextPtr := ∅
  m_windows : OrdMap HandleType (WindowSurfacePtr × HandleType) := ∅
  m_deferredContexts : OrdMap HandleType TimePoint := ∅
  m_deferredWindows : OrdMap HandleType TimePoint := ∅
  m_colorbuffers : OrdMap HandleType ColorBufferRef := ∅
  m_colorBufferBytes : Nat := 0
  m_lastPostedColorBuffer : HandleType := 0
  deriving DecidableEq, Inhabited

/-- `max_color_buffer_bytes`: 2048 MiB. -/
def max_color_buffer_bytes : Nat := 2048 * 1024 * 1024

def max_color_buffers : Nat := 128

def kMaxDeferredContexts : Nat := 64

def kMaxDeferredWindows : Nat := 64

/-- `kDeferredLifetime`: two seconds. -/
def kDeferredLifetime : Nat := 2000000000

/-! ## `ColorBuffer::create` -/

def GL_RGB : GLenum := 0x1907

def GL_RGBA : GLenum := 0x1908

def GL_RGB565_OES : GLenum := 0x8D62

def GL_RGB5_A1_OES : GLenum := 0x8057

def GL_RGBA4_OES : GLenum := 0x8056

/-- The texture format of a colour buffer; `none` for a format `ColorBuffer::create` rejects. -/
def texInternalFormat (p_internalFormat : GLenum) : Option GLenum :=
  if p_internalFormat = GL_RGB ∨ p_internalFormat = GL_RGB565_OES then some GL_RGB
  else if p_internalFormat = GL_RGBA ∨ p_internalFormat = GL_RGB5_A1_OES ∨
      p_internalFormat = GL_RGBA4_OES then some GL_RGBA
  else none

def max_safe_texture_dimension : Int := 4096

/-- The argument checks of `ColorBuffer::create`, made before it touches EGL. -/
def colorBufferArgsOk (p_width p_height : Int) (p_internalFormat : GLenum) : Bool :=
  !(p_width ≤ 0 || p_height ≤ 0 || max_safe_texture_dimension < p_width ||
    max_safe_texture_dimension < p_height) && (texInternalFormat p_internalFormat).isSome

/-- `ColorBuffer::create`: `gl` is the object it returns when no EGL or GL call fails. -/
def createColorBufferObject (p_width p_height : Int) (p_internalFormat : GLenum)
    (gl : Option ColorBufferPtr) : Option ColorBufferPtr :=
  if colorBufferArgsOk p_width p_height p_internalFormat then gl else none

namespace Renderer

/-! ## Handles -/

/-- The loop of `genHandle`. It runs until it finds a free number; after `2 ^ 32` rounds it has seen
every number, so a search that is not over by then (`none`) never ends. -/
def genHandleLoop (r : Renderer) : Nat → Nat → Option HandleType
  | 0, _ => none
  | fuel + 1, next =>
    let id := (next + 1) % 2 ^ 32
    if id = 0 ∨ id ∈ r.m_contexts ∨ id ∈ r.m_windows then genHandleLoop r fuel id else some id

/-- `genHandle`. -/
def genHandle (r : Renderer) : Option (HandleType × Renderer) :=
  (genHandleLoop r (2 ^ 32) r.s_nextHandle).map fun id =>
    (id, { r with s_nextHandle := id, handlesGenerated := r.handlesGenerated + 1 })

/-! ## Colour buffers -/

/-- The entry that `createColorBuffer` and `retain_frame` write under a generated handle. -/
def addColorBuffer (r : Renderer) (handle : HandleType) (ref : ColorBufferRef) : Renderer :=
  { r with
    m_colorbuffers := r.m_colorbuffers.insert handle ref
    m_colorBufferBytes := addSize r.m_colorBufferBytes ref.allocation_bytes }

/-- `m_colorBufferBytes -= allocation_bytes; m_colorbuffers.erase(handle)`. -/
def freeColorBuffer (r : Renderer) (handle : HandleType) (ref : ColorBufferRef) : Renderer :=
  { r with
    m_colorbuffers := r.m_colorbuffers.erase handle
    m_colorBufferBytes := subSize r.m_colorBufferBytes ref.allocation_bytes }

/-- Drop one reference to `handle`, freeing the entry with the last one. This block stands in
`releaseWindowSurfaceColorBufferLocked`, `closeColorBuffer` and `release_frame`. -/
def dropReference (r : Renderer) (handle : HandleType) : Renderer :=
  match r.m_colorbuffers.find? handle with
  | none => r
  | some ref =>
    if ref.refcount = 0 then r
    else if ref.refcount - 1 = 0 then r.freeColorBuffer handle ref
    else { r with m_colorbuffers :=
             r.m_colorbuffers.insert handle { ref with refcount := ref.refcount - 1 } }

/-- `++refcount` on a live entry. -/
def addReference (r : Renderer) (handle : HandleType) : Renderer :=
  match r.m_colorbuffers.find? handle with
  | none => r
  | some ref => { r with m_colorbuffers :=
      r.m_colorbuffers.insert handle { ref with refcount := (ref.refcount + 1) % 2 ^ 32 } }

/-- `createColorBuffer`; the result is the returned handle, `0` for a rejected request. -/
def createColorBuffer (r : Renderer) (p_width p_height : Int) (p_internalFormat : GLenum)
    (gl : Option ColorBufferPtr) : Option (HandleType × Renderer) :=
  if p_width ≤ 0 ∨ p_height ≤ 0 then some (0, r)
  else
    let width := toSize p_width
    let height := toSize p_height
    if max_color_buffers ≤ r.m_colorbuffers.size then some (0, r)
    else if sizeMax / height / 8 < width then some (0, r)
    else
      let allocation_bytes := width * height * 8 % 2 ^ 64
      if max_color_buffer_bytes < allocation_bytes ∨
          max_color_buffer_bytes - allocation_bytes < r.m_colorBufferBytes then some (0, r)
      else
        match createColorBufferObject p_width p_height p_internalFormat gl with
        | none => some (0, r)
        | some cb =>
          r.genHandle.map fun (ret, r) =>
            (ret, r.addColorBuffer ret
              { cb, refcount := 1, allocation_bytes, width := p_width, height := p_height,
                format := p_internalFormat })

/-- `openColorBuffer`: `0`, or `-1` for an unknown handle or a saturated count. -/
def openColorBuffer (r : Renderer) (p_colorbuffer : HandleType) : Int × Renderer :=
  match r.m_colorbuffers.find? p_colorbuffer with
  | none => (-1, r)
  | some ref =>
    if ref.refcount = uint32Max then (-1, r) else (0, r.addReference p_colorbuffer)

/-- `closeColorBuffer`. -/
def closeColorBuffer (r : Renderer) (p_colorbuffer : HandleType) : Renderer :=
  r.dropReference p_colorbuffer

/-- `releaseWindowSurfaceColorBufferLocked`; its result is only logged. -/
def releaseWindowSurfaceColorBufferLocked (r : Renderer) (colorBufferHandle : HandleType) : Renderer :=
  if colorBufferHandle = 0 then r else r.dropReference colorBufferHandle

/-! ## Deferred resources -/

/-- `destroyDeferredWindowLocked`. -/
def destroyDeferredWindowLocked (r : Renderer) (windowHandle : HandleType) : Renderer :=
  match r.m_windows.find? windowHandle with
  | none => r
  | some window =>
    let r := r.releaseWindowSurfaceColorBufferLocked window.2
    { r with m_windows := r.m_windows.erase windowHandle }

/-- The keys whose deferral has expired at `now`, in iteration order. -/
def expired (deferred : OrdMap HandleType TimePoint) (now : TimePoint) : List HandleType :=
  (deferred.entries.filter fun e => ¬ now < e.2).map Prod.fst

/-- One expired window: its deferral goes first, then the window. -/
def reapWindow (r : Renderer) (handle : HandleType) : Renderer :=
  destroyDeferredWindowLocked { r with m_deferredWindows := r.m_deferredWindows.erase handle } handle

/-- One expired context. -/
def reapContext (r : Renderer) (handle : HandleType) : Renderer :=
  { r with
    m_deferredContexts := r.m_deferredContexts.erase handle
    m_contexts := r.m_contexts.erase handle }

/-- `reapDeferredResourcesLocked` when the clock reads `now`. -/
def reapDeferredResourcesLocked (r : Renderer) (now : TimePoint) : Renderer :=
  let r := (expired r.m_deferredWindows now).foldl reapWindow r
  (expired r.m_deferredContexts now).foldl reapContext r

/-- `cancelDeferredContextLocked`. -/
def cancelDeferredContextLocked (r : Renderer) (context : HandleType) : Renderer :=
  { r with m_deferredContexts := r.m_deferredContexts.erase context }

/-- `cancelDeferredWindowLocked`. -/
def cancelDeferredWindowLocked (r : Renderer) (window : HandleType) : Renderer :=
  { r with m_deferredWindows := r.m_deferredWindows.erase window }

/-- The body of the first loop of `deferCurrentThreadResources`. -/
def deferContext (expiry : TimePoint) (r : Renderer) (handle : HandleType) : Renderer :=
  if handle ∉ r.m_contexts then r
  else if kMaxDeferredContexts ≤ r.m_deferredContexts.size ∧ handle ∉ r.m_deferredContexts then
    { r with m_contexts := r.m_contexts.erase handle }
  else { r with m_deferredContexts := r.m_deferredContexts.insert handle expiry }

/-- The body of the second loop of `deferCurrentThreadResources`. -/
def deferWindow (expiry : TimePoint) (r : Renderer) (handle : HandleType) : Renderer :=
  if handle ∉ r.m_windows then r
  else if kMaxDeferredWindows ≤ r.m_deferredWindows.size ∧ handle ∉ r.m_deferredWindows then
    r.destroyDeferredWindowLocked handle
  else { r with m_deferredWindows := r.m_deferredWindows.insert handle expiry }

/-- `deferCurrentThreadResources`: the clock reads `now` in the reaper and `later` when the expiry is
computed. -/
def deferCurrentThreadResources (r : Renderer) (tinfo : RenderThreadInfo) (now later : TimePoint) :
    Renderer × RenderThreadInfo :=
  let r := r.reapDeferredResourcesLocked now
  let expiry := later + kDeferredLifetime
  let r := tinfo.m_contextSet.keys.foldl (deferContext expiry) r
  let r := tinfo.m_windowSet.keys.foldl (deferWindow expiry) r
  (r, { tinfo with m_contextSet := ∅, m_windowSet := ∅ })

/-! ## Contexts and windows -/

/-- `getConfigs()->get(p_config) != NULL`. -/
def hasConfig (r : Renderer) (p_config : Int) : Bool := 0 ≤ p_config && p_config < r.m_configs

/-- `createRenderContext`; `gl` is the object `RenderContext::create` returns. -/
def createRenderContext (r : Renderer) (tinfo : RenderThreadInfo) (p_config : Int)
    (p_share : HandleType) (gl : Option RenderContextPtr) :
    Option (HandleType × Renderer × RenderThreadInfo) :=
  if ¬ r.hasConfig p_config then some (0, r, tinfo)
  else if p_share ≠ 0 ∧ p_share ∉ r.m_contexts then some (0, r, tinfo)
  else
    match gl with
    | none => some (0, r, tinfo)
    | some rctx =>
      r.genHandle.map fun (ret, r) =>
        (ret, { r with m_contexts := r.m_contexts.insert ret rctx },
          { tinfo with m_contextSet := tinfo.m_contextSet.insert ret () })

/-- `createWindowSurface`; `gl` is the object `WindowSurface::create` returns. -/
def createWindowSurface (r : Renderer) (tinfo : RenderThreadInfo) (p_config : Int)
    (gl : Option WindowSurfacePtr) : Option (HandleType × Renderer × RenderThreadInfo) :=
  if ¬ r.hasConfig p_config then some (0, r, tinfo)
  else
    match gl with
    | none => some (0, r, tinfo)
    | some win =>
      r.genHandle.map fun (ret, r) =>
        (ret, { r with m_windows := r.m_windows.insert ret (win, 0) },
          { tinfo with m_windowSet := tinfo.m_windowSet.insert ret () })

/-- `drainRenderContext`. -/
def drainRenderContext (r : Renderer) (tinfo : RenderThreadInfo) : Renderer × RenderThreadInfo :=
  (tinfo.m_contextSet.keys.foldl (fun r h => { r with m_contexts := r.m_contexts.erase h }) r,
    { tinfo with m_contextSet := ∅ })

/-- `drainWindowSurface`; the loop body is the one of `destroyDeferredWindowLocked`. -/
def drainWindowSurface (r : Renderer) (tinfo : RenderThreadInfo) : Renderer × RenderThreadInfo :=
  (tinfo.m_windowSet.keys.foldl destroyDeferredWindowLocked r, { tinfo with m_windowSet := ∅ })

/-- `DestroyRenderContext`. -/
def DestroyRenderContext (r : Renderer) (tinfo : RenderThreadInfo) (now : TimePoint)
    (p_context : HandleType) : Renderer × RenderThreadInfo :=
  let r := r.reapDeferredResourcesLocked now
  ({ r with
      m_deferredContexts := r.m_deferredContexts.erase p_context
      m_contexts := r.m_contexts.erase p_context },
    { tinfo with m_contextSet := tinfo.m_contextSet.erase p_context })

/-- `DestroyWindowSurface`; a handle that is not a window leaves the thread's set alone. -/
def DestroyWindowSurface (r : Renderer) (tinfo : RenderThreadInfo) (now : TimePoint)
    (p_surface : HandleType) : Renderer × RenderThreadInfo :=
  let r := r.reapDeferredResourcesLocked now
  let r := { r with m_deferredWindows := r.m_deferredWindows.erase p_surface }
  match r.m_windows.find? p_surface with
  | none => (r, tinfo)
  | some w =>
    let r := r.releaseWindowSurfaceColorBufferLocked w.2
    ({ r with m_windows := r.m_windows.erase p_surface },
      { tinfo with m_windowSet := tinfo.m_windowSet.erase p_surface })

/-- The lookups of `bindContext` for a request that is not an unbind. Each handle found cancels its
own deferral before the next one is looked up. -/
def lookupBinding (r : Renderer) (p_context p_drawSurface p_readSurface : HandleType) :
    Renderer × Option (RenderContextPtr × WindowSurfacePtr × WindowSurfacePtr) :=
  match r.m_contexts.find? p_context with
  | none => (r, none)
  | some ctx =>
    let r := r.cancelDeferredContextLocked p_context
    match r.m_windows.find? p_drawSurface with
    | none => (r, none)
    | some draw =>
      let r := r.cancelDeferredWindowLocked p_drawSurface
      if p_readSurface ≠ p_drawSurface then
        match r.m_windows.find? p_readSurface with
        | none => (r, none)
        | some read => (r.cancelDeferredWindowLocked p_readSurface, some (ctx, draw.1, read.1))
      else (r, some (ctx, draw.1, draw.1))

/-- `bindContext`; `eglMakeCurrent` says whether that call succeeds. -/
def bindContext (r : Renderer) (tinfo : RenderThreadInfo) (now : TimePoint)
    (p_context p_drawSurface p_readSurface : HandleType) (eglMakeCurrent : Bool) :
    Bool × Renderer × RenderThreadInfo :=
  let r := r.reapDeferredResourcesLocked now
  if p_context ≠ 0 ∨ p_drawSurface ≠ 0 ∨ p_readSurface ≠ 0 then
    match r.lookupBinding p_context p_drawSurface p_readSurface with
    | (r, none) => (false, r, tinfo)
    | (r, some (ctx, draw, read)) =>
      if eglMakeCurrent then
        (true, r, { tinfo with
          currContext := some ctx, currDrawSurf := some draw, currReadSurf := some read })
      else (false, r, tinfo)
  else if eglMakeCurrent then
    (true, r, { tinfo with currContext := none, currDrawSurf := none, currReadSurf := none })
  else (false, r, tinfo)

/-! ## Attaching and posting colour buffers -/

/-- `setWindowSurfaceColorBuffer`, as far as the tables go. -/
def setWindowSurfaceColorBuffer (r : Renderer) (now : TimePoint)
    (p_surface p_colorbuffer : HandleType) : Bool × Renderer :=
  let r := r.reapDeferredResourcesLocked now
  let r := r.cancelDeferredWindowLocked p_surface
  match r.m_windows.find? p_surface with
  | none => (false, r)
  | some w =>
    if p_colorbuffer ≠ 0 ∧ p_colorbuffer ∉ r.m_colorbuffers then (false, r)
    else if w.2 = p_colorbuffer then (true, r)
    else if ∃ ref ∈ r.m_colorbuffers.find? p_colorbuffer,
        p_colorbuffer ≠ 0 ∧ ref.refcount = uint32Max then (false, r)
    else
      let r := r.releaseWindowSurfaceColorBufferLocked w.2
      let r := if p_colorbuffer ≠ 0 then r.addReference p_colorbuffer else r
      (true, { r with m_windows := r.m_windows.insert p_surface (w.1, p_colorbuffer) })

/-- `retainPostedColorBuffer`; on success it also returns the size of the buffer. -/
def retainPostedColorBuffer (r : Renderer) (now : TimePoint) (p_colorbuffer : HandleType) :
    Option (Int × Int) × Renderer :=
  let r := r.reapDeferredResourcesLocked now
  match r.m_colorbuffers.find? p_colorbuffer with
  | none => (none, r)
  | some next =>
    if r.m_lastPostedColorBuffer ≠ p_colorbuffer then
      if next.refcount = uint32Max then (none, r)
      else
        let previous := r.m_lastPostedColorBuffer
        let r := { r.addReference p_colorbuffer with m_lastPostedColorBuffer := p_colorbuffer }
        (some (next.width, next.height), r.releaseWindowSurfaceColorBufferLocked previous)
    else (some (next.width, next.height), r)

end Renderer

end AnboxReboxed.Emugl
