import AnboxReboxed.Emugl.World
import Mathlib.Logic.Function.Basic

/-!
# Current contexts and GL names

EGL keeps a context with a draw and a read surface current on every thread, and every GL call acts on
the context of the thread that makes it. The renderer saves and restores what is current by hand.
Framebuffer names belong to the context that generated them; textures, buffers and programs are shared
between the two contexts of the host, but not with those of the guest.
-/

namespace AnboxReboxed.Emugl

open AnboxReboxed.Lib

inductive EglContext where
  /-- The context of a `RenderContext`. -/
  | guest (ctx : RenderContextPtr)
  /-- `m_pbufContext`, which colour buffers are made and changed with. -/
  | pbuf
  /-- `m_eglContext`, which the host windows are drawn with. -/
  | presentation
  deriving DecidableEq

/-- A surface; `EGL_NO_SURFACE` is `none`. -/
abbrev EglSurface := Nat

/-- What is current on a thread. -/
structure EglBinding where
  context : Option EglContext := none
  draw : Option EglSurface := none
  read : Option EglSurface := none
  deriving DecidableEq

/-- A framebuffer name, with the context that generated it. -/
structure Framebuffer where
  name : Nat
  context : Option EglContext
  deriving DecidableEq

/-- A GL call on an object of the colour buffer `cb`, with the context that was current. -/
inductive GlUse where
  /-- A framebuffer name it holds is bound or deleted. -/
  | framebuffer (cb : ColorBufferPtr) (framebuffer : Framebuffer) (current : Option EglContext)
  /-- Textures, programs or buffers it holds are deleted. -/
  | deletion (cb : ColorBufferPtr) (current : Option EglContext)
  deriving DecidableEq

/-- EGL and GL as far as the renderer's own objects go. `unrestored` and `uses` only record what
happened. -/
structure Gl where
  m_pbufSurface : Option EglSurface := none
  current : ThreadId → EglBinding := fun _ => {}
  /-- `m_prevContext`, `m_prevDrawSurf` and `m_prevReadSurf`. -/
  prev : EglBinding := {}
  nextSurface : EglSurface := 0
  /-- The colour buffers that the names `1, 2, …` of a context were generated for. -/
  generated : EglContext → List ColorBufferPtr := fun _ => []
  /-- The thread came out of an operation whose last `eglMakeCurrent` failed, and has not bound a
  context since. -/
  unrestored : ThreadId → Bool := fun _ => false
  uses : List GlUse := []

/-- What EGL answers to `bind_locked` and `unbind_locked` around a piece of code. -/
structure ScopeAnswers where
  bind : Bool
  unbind : Bool

namespace Gl

def eglMakeCurrent (g : Gl) (t : ThreadId) (b : EglBinding) (ok : Bool) : Gl :=
  if ok then { g with current := Function.update g.current t b } else g

/-- The `eglMakeCurrent` that ends an operation; `before` says whether the thread was left behind before
the operation. -/
def restore (g : Gl) (t : ThreadId) (b : EglBinding) (before ok : Bool) : Gl :=
  { g.eglMakeCurrent t b ok with unrestored := Function.update g.unrestored t (before || !ok) }

/-- The `eglMakeCurrent` of `bindContext`; the thread is not left behind any more. -/
def bindGuest (g : Gl) (t : ThreadId) (b : EglBinding) : Gl :=
  { g.eglMakeCurrent t b true with unrestored := Function.update g.unrestored t false }

/-- Make `b` current and save what was, if that succeeds. -/
def bindSaved (g : Gl) (t : ThreadId) (b : EglBinding) (ok : Bool) : Gl :=
  if ok then { g.eglMakeCurrent t b ok with prev := g.current t } else g

def bind_locked (g : Gl) (t : ThreadId) (ok : Bool) : Gl :=
  g.bindSaved t ⟨some .pbuf, g.m_pbufSurface, g.m_pbufSurface⟩ ok

def bindWindow_locked (g : Gl) (t : ThreadId) (surface : Option EglSurface) (ok : Bool) : Gl :=
  g.bindSaved t ⟨some .presentation, surface, surface⟩ ok

def unbind_locked (g : Gl) (t : ThreadId) (ok : Bool) : Gl :=
  let g' := g.restore t g.prev (g.unrestored t) ok
  if ok then { g' with prev := {} } else g'

/-- `ScopedHelperContext`: `body` runs with or without the helper context, and what was current comes
back after it. -/
def scopedHelperContext {β : Type} (g : Gl) (t : ThreadId) (a : ScopeAnswers) (body : Gl → Gl × β) :
    Gl × β :=
  let (g, b) := body (g.bind_locked t a.bind)
  (if a.bind then g.unbind_locked t a.unbind else g, b)

/-- A new surface. -/
def createSurface (g : Gl) : EglSurface × Gl := (g.nextSurface, { g with nextSurface := g.nextSurface + 1 })

/-- The context that GL calls of the thread act on. -/
def context (g : Gl) (t : ThreadId) : Option EglContext := (g.current t).context

/-- One new framebuffer name for the colour buffer `cb`. -/
def glGenFramebuffers (g : Gl) (t : ThreadId) (cb : ColorBufferPtr) : Gl × Framebuffer :=
  match g.context t with
  | none => (g, ⟨0, none⟩)
  | some c =>
    ({ g with generated := Function.update g.generated c (g.generated c ++ [cb]) },
      ⟨(g.generated c).length + 1, some c⟩)

/-- `glBindFramebuffer` or `glDeleteFramebuffers` of a name that `cb` holds. -/
def useFramebuffer (g : Gl) (t : ThreadId) (cb : ColorBufferPtr) (f : Framebuffer) : Gl :=
  { g with uses := g.uses ++ [.framebuffer cb f (g.context t)] }

/-- `glDeleteTextures`, `glDeleteProgram` or `glDeleteBuffers` of objects that `cb` holds. -/
def deleteObjects (g : Gl) (t : ThreadId) (cb : ColorBufferPtr) : Gl :=
  { g with uses := g.uses ++ [.deletion cb (g.context t)] }

/-- The colour buffer for which the context `c` generated the name. -/
def generatedFor (g : Gl) (c : EglContext) (name : Nat) : Option ColorBufferPtr :=
  if name = 0 then none else (g.generated c)[name - 1]?

end Gl

end AnboxReboxed.Emugl
