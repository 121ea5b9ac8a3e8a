import AnboxReboxed.Emugl.Egl
import AnboxReboxed.Emugl.HostWindow

/-!
# Colour buffers and their framebuffers

`ColorBuffer` and its `TextureResize`, as far as the current context and the framebuffer names go. A
colour buffer holds a framebuffer that it makes when it first needs one; its resizer holds two, from
the start. What EGL and GL answer is an argument.
-/

namespace AnboxReboxed.Emugl

structure TextureResize where
  mWidth : Nat
  mHeight : Nat
  mFactor : Nat
  mFBWidth : Framebuffer
  mFBHeight : Framebuffer
  deriving DecidableEq

/-- What GL answers in `TextureResize::update`. -/
structure ResizeAnswers where
  allocateWidth : Bool
  checkWidth : Bool
  allocateHeight : Bool
  checkHeight : Bool
  /-- The check and the draw call of the horizontal pass. -/
  drawWidth : Bool

namespace TextureResize

def MAX_FACTOR_POWER : Nat := 4

/-- The loop of `calculateFactor`. -/
def factorLoop (target : Size) : Nat → Nat → Nat → Nat → Nat
  | 0, _, _, factor => factor
  | i + 1, w, h, factor =>
    if target.1 ≤ w ∧ target.2 ≤ h then factorLoop target i (w / 2) (h / 2) (factor * 2) else factor

def calculateFactor (width height : Nat) (target : Size) : Nat :=
  if target.1 ≤ 0 ∨ target.2 ≤ 0 then 1
  else factorLoop target MAX_FACTOR_POWER (width / 2) (height / 2) 1

/-- The factor of `update` for the viewport `vport`; a rotated screen is turned first. -/
def factor (r : TextureResize) (vport : Size) : Nat :=
  calculateFactor r.mWidth r.mHeight
    (if decide (r.mWidth < r.mHeight) != decide (vport.1 < vport.2) then vport.swap else vport)

/-- The constructor. -/
def create (g : Gl) (t : ThreadId) (cb : ColorBufferPtr) (width height : Nat) : Gl × TextureResize :=
  let (g, mFBWidth) := g.glGenFramebuffers t cb
  let (g, mFBHeight) := g.glGenFramebuffers t cb
  (g, { mWidth := width, mHeight := height, mFactor := 1, mFBWidth, mFBHeight })

/-- The destructor. -/
def destroy (r : TextureResize) (g : Gl) (t : ThreadId) (cb : ColorBufferPtr) : Gl :=
  ((g.useFramebuffer t cb r.mFBWidth).useFramebuffer t cb r.mFBHeight).deleteObjects t cb

def setupFramebuffers (r : TextureResize) (g : Gl) (t : ThreadId) (cb : ColorBufferPtr) (factor : Nat)
    (a : ResizeAnswers) : Gl × TextureResize × Bool :=
  if factor = r.mFactor then
    let g := g.useFramebuffer t cb r.mFBWidth
    if a.checkWidth then (g.useFramebuffer t cb r.mFBHeight, r, a.checkHeight) else (g, r, false)
  else if a.allocateWidth then
    let g := g.useFramebuffer t cb r.mFBWidth
    if a.checkWidth && a.allocateHeight then
      let g := g.useFramebuffer t cb r.mFBHeight
      if a.checkHeight then (g, { r with mFactor := factor }, true) else (g, r, false)
    else (g, r, false)
  else (g, r, false)

def resize (r : TextureResize) (g : Gl) (t : ThreadId) (cb : ColorBufferPtr) (a : ResizeAnswers) : Gl :=
  let g := g.useFramebuffer t cb r.mFBWidth
  if a.drawWidth then g.useFramebuffer t cb r.mFBHeight else g

def update (r : TextureResize) (g : Gl) (t : ThreadId) (cb : ColorBufferPtr) (vport : Size)
    (a : ResizeAnswers) : Gl × TextureResize :=
  if r.factor vport = 1 then (g, r)
  else
    let (g, r, ready) := r.setupFramebuffers g t cb (r.factor vport) a
    (if ready then r.resize g t cb a else g, r)

end TextureResize

structure ColorBuffer where
  m_width : Nat
  m_height : Nat
  /-- `none` for the name `0`. -/
  m_fbo : Option Framebuffer
  m_resizer : TextureResize
  deriving DecidableEq

/-- What EGL and GL answer in `ColorBuffer::create`. -/
structure CreateAnswers where
  scope : ScopeAnswers
  /-- The memory and both textures can be had. -/
  allocate : Bool
  /-- The destructor, when something could not be had. -/
  cleanup : ScopeAnswers

/-- The object is made. -/
def CreateAnswers.ok (a : CreateAnswers) : Bool := a.scope.bind && a.allocate

/-- `bindFbo`; the name is `none` afterwards when the framebuffer is not complete. -/
def bindFbo (g : Gl) (t : ThreadId) (cb : ColorBufferPtr) (fbo : Option Framebuffer) (complete : Bool) :
    Gl × Option Framebuffer :=
  let (g, f) := match fbo with
    | some f => (g, f)
    | none => g.glGenFramebuffers t cb
  let g := g.useFramebuffer t cb f
  if complete then (g, some f) else (g.useFramebuffer t cb f, none)

namespace ColorBuffer

/-- `ColorBuffer::create` of the object with the address `p`. -/
def create (g : Gl) (t : ThreadId) (p : ColorBufferPtr) (p_width p_height : Int)
    (p_internalFormat : GLenum) (a : CreateAnswers) : Gl × Option ColorBuffer :=
  if !colorBufferArgsOk p_width p_height p_internalFormat then (g, none)
  else if a.allocate then
    g.scopedHelperContext t a.scope fun g =>
      if a.scope.bind then
        let (g, m_resizer) := TextureResize.create g t p p_width.toNat p_height.toNat
        (g, some { m_width := p_width.toNat, m_height := p_height.toNat, m_fbo := none, m_resizer })
      else (g, none)
  else
    -- The scope ends before the unfinished object is deleted, which holds nothing but textures.
    let (g, _) := g.scopedHelperContext t a.scope fun g => (g, ())
    if a.scope.bind then
      ((g.scopedHelperContext t a.cleanup fun g => (g.deleteObjects t p, ())).1, none)
    else (g, none)

/-- The destructor; it goes on when the helper context cannot be had. -/
def destroy (c : ColorBuffer) (g : Gl) (t : ThreadId) (p : ColorBufferPtr) (a : ScopeAnswers) : Gl :=
  (g.scopedHelperContext t a fun g =>
    let g := match c.m_fbo with
      | some f => g.useFramebuffer t p f
      | none => g
    (c.m_resizer.destroy (g.deleteObjects t p) t p, ())).1

/-- The rectangle lies in the buffer, and there is memory for it. -/
def inRange (c : ColorBuffer) (x y width height : Int) (pixels : Bool) : Bool :=
  !(!pixels || x < 0 || y < 0 || width ≤ 0 || height ≤ 0 || (c.m_width : Int) < x + width ||
    (c.m_height : Int) < y + height)

/-- Bind the framebuffer in the helper context, and unbind it again. -/
def withFbo (c : ColorBuffer) (g : Gl) (t : ThreadId) (p : ColorBufferPtr) (a : ScopeAnswers)
    (complete : Bool) : Gl × ColorBuffer :=
  g.scopedHelperContext t a fun g =>
    if a.bind then
      let (g, m_fbo) := bindFbo g t p c.m_fbo complete
      (g, { c with m_fbo })
    else (g, c)

def readPixels (c : ColorBuffer) (g : Gl) (t : ThreadId) (p : ColorBufferPtr) (x y width height : Int)
    (pixels : Bool) (a : ScopeAnswers) (complete : Bool) : Gl × ColorBuffer :=
  if c.inRange x y width height pixels then c.withFbo g t p a complete else (g, c)

def subUpdate (c : ColorBuffer) (g : Gl) (t : ThreadId) (x y width height : Int) (pixels : Bool)
    (a : ScopeAnswers) : Gl :=
  if c.inRange x y width height pixels then (g.scopedHelperContext t a fun g => (g, ())).1 else g

/-- `currContext` says whether the calling thread has one in its `RenderThreadInfo`. -/
def blitFromCurrentReadBuffer (c : ColorBuffer) (g : Gl) (t : ThreadId) (p : ColorBufferPtr)
    (currContext : Bool) (a : ScopeAnswers) (complete : Bool) : Gl × ColorBuffer :=
  if currContext then c.withFbo g t p a complete else (g, c)

/-- `bind`, with the viewport `vport`. -/
def bind (c : ColorBuffer) (g : Gl) (t : ThreadId) (p : ColorBufferPtr) (vport : Size)
    (a : ResizeAnswers) : Gl × ColorBuffer :=
  let (g, m_resizer) := c.m_resizer.update g t p vport a
  (g, { c with m_resizer })

/-- `snapshotFrom`: this buffer and the source. -/
def snapshotFrom (c : ColorBuffer) (g : Gl) (t : ThreadId) (p : ColorBufferPtr) (source : ColorBuffer)
    (psource : ColorBufferPtr) (a : ScopeAnswers) (complete : Bool) (r : ResizeAnswers) :
    Gl × ColorBuffer × ColorBuffer :=
  if source.m_width ≠ c.m_width ∨ source.m_height ≠ c.m_height then (g, c, source)
  else
    g.scopedHelperContext t a fun g =>
      if a.bind then
        let (g, m_fbo) := bindFbo g t p c.m_fbo complete
        if complete then
          let (g, source) := source.bind g t psource (c.m_width, c.m_height) r
          (g, { c with m_fbo }, source)
        else (g, { c with m_fbo }, source)
      else (g, c, source)

def sampleCurrentTexture (c : ColorBuffer) (g : Gl) (t : ThreadId) (p : ColorBufferPtr) (vport : Size)
    (r : ResizeAnswers) (complete : Bool) : Gl × ColorBuffer :=
  let (g, c) := c.bind g t p vport r
  let (g, m_fbo) := bindFbo g t p c.m_fbo complete
  (g, { c with m_fbo })

end ColorBuffer

/-!
## Window surfaces and their pbuffer

`WindowSurface` draws into a pbuffer of the size of the colour buffer attached to it; another size means
another pbuffer.
-/

section

structure WindowSurface where
  mSurface : Option EglSurface := none
  mAttachedColorBuffer : Option ColorBufferPtr := none
  mReadContext : Option RenderContextPtr := none
  mDrawContext : Option RenderContextPtr := none
  mWidth : Nat := 0
  mHeight : Nat := 0
  deriving DecidableEq

/-- What EGL answers in `WindowSurface::resize`. -/
structure PbufferAnswers where
  unbind : Bool
  create : Bool
  rebind : Bool

/-- What EGL and GL answer in `WindowSurface::flushColorBuffer`. -/
structure FlushAnswers where
  bind : Bool
  scope : ScopeAnswers
  complete : Bool
  restore : Bool

namespace WindowSurface

/-- The pbuffer is current on a thread with the binding `b`. -/
def needRebindContext (w : WindowSurface) (b : EglBinding) : Bool :=
  w.mSurface.isSome && (b.read == w.mSurface || b.draw == w.mSurface)

def resize (w : WindowSurface) (g : Gl) (t : ThreadId) (p_width p_height : Nat) (a : PbufferAnswers) :
    Gl × WindowSurface :=
  if w.mSurface.isSome ∧ w.mWidth = p_width ∧ w.mHeight = p_height then (g, w)
  else
    let prev := g.current t
    let rebind := w.needRebindContext prev
    let before := g.unrestored t
    let g := if rebind then g.eglMakeCurrent t {} a.unbind else g
    if a.create then
      let (mSurface, g) := g.createSurface
      let other (surface : Option EglSurface) := if surface = w.mSurface then some mSurface else surface
      (if rebind then g.restore t ⟨prev.context, other prev.draw, other prev.read⟩ before a.rebind else g,
        { w with mSurface := some mSurface, mWidth := p_width, mHeight := p_height })
    else (g, { w with mSurface := none })

inductive BindType where
  | BIND_READ
  | BIND_DRAW
  | BIND_READDRAW

def bind (w : WindowSurface) (p_ctx : Option RenderContextPtr) : BindType → WindowSurface
  | .BIND_READ => { w with mReadContext := p_ctx }
  | .BIND_DRAW => { w with mDrawContext := p_ctx }
  | .BIND_READDRAW => { w with mReadContext := p_ctx, mDrawContext := p_ctx }

/-- `flushColorBuffer` with the attached colour buffer `c`, which has the address `p`. -/
def flushColorBuffer (w : WindowSurface) (g : Gl) (t : ThreadId) (p : ColorBufferPtr) (c : ColorBuffer)
    (currContext : Bool) (a : FlushAnswers) : Gl × ColorBuffer :=
  if w.mWidth = 0 ∨ w.mHeight = 0 then (g, c)
  else if c.m_width ≠ w.mWidth ∨ c.m_height ≠ w.mHeight then (g, c)
  else
    match w.mDrawContext with
    | none => (g, c)
    | some ctx =>
      let prev := g.current t
      let before := g.unrestored t
      let g := g.eglMakeCurrent t ⟨some (.guest ctx), w.mSurface, w.mSurface⟩ a.bind
      if a.bind then
        let (g, c) := c.blitFromCurrentReadBuffer g t p currContext a.scope a.complete
        (g.restore t prev before a.restore, c)
      else (g, c)

end WindowSurface

end

end AnboxReboxed.Emugl
