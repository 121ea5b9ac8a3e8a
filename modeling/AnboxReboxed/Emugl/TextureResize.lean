import AnboxReboxed.Emugl.ColorBuffer
import AnboxReboxed.Lib.Machine

/-!
# The targets of `TextureResize`

A texture that is much larger than the viewport is drawn twice, into a texture of a fraction of its width and from
there into one of a fraction of both sides. Another viewport may need another fraction; the two textures, their
framebuffers and their programs are then changed one after the other, and GL may fail in between.
-/

namespace AnboxReboxed.Emugl

open AnboxReboxed.Lib

/-- `TextureResize::Framebuffer`, as far as it depends on the factor. -/
structure ResizeTarget where
  /-- The size of the texture, when it has one. -/
  texture : Option (Nat × Nat) := none
  /-- The texture is attached to the framebuffer. -/
  attached : Bool := false
  /-- `FACTOR` in the shaders of the program. Their texts are fixed, and compile. -/
  program : Option Nat := none
  deriving DecidableEq

/-- A `TextureResize` with its targets. -/
structure Resizer extends TextureResize where
  horizontal : ResizeTarget := {}
  vertical : ResizeTarget := {}
  deriving DecidableEq

/-- What GL answers in `update`. A texture allocation that fails leaves the texture as it was. -/
structure UpdateAnswers where
  allocateWidth : Bool := true
  checkWidth : Bool := true
  allocateHeight : Bool := true
  checkHeight : Bool := true
  /-- `checkFramebuffer` before the draw call, and the draw call itself. -/
  checkDrawWidth : Bool := true
  drawWidth : Bool := true
  checkDrawHeight : Bool := true
  drawHeight : Bool := true
  deriving DecidableEq

/-- The answers as far as the current context depends on them. -/
def UpdateAnswers.toResizeAnswers (a : UpdateAnswers) : ResizeAnswers where
  allocateWidth := a.allocateWidth
  checkWidth := a.checkWidth
  allocateHeight := a.allocateHeight
  checkHeight := a.checkHeight
  drawWidth := a.checkDrawWidth && a.drawWidth

/-- A draw call. -/
inductive ResizePass where
  | horizontal
  | vertical
  deriving DecidableEq

/-- What `update` leaves: the draw calls, and whether the texture of the vertical pass is returned. -/
structure Updated where
  resizer : Resizer
  passes : List ResizePass
  resized : Bool

namespace Resizer

/-- The constructor. -/
def create (mFBWidth mFBHeight : Framebuffer) (width height : Nat) : Resizer where
  mWidth := width
  mHeight := height
  mFactor := 1
  mFBWidth := mFBWidth
  mFBHeight := mFBHeight

/-- The texture of the horizontal pass has its new size, and is attached. -/
def allocateWidth (r : Resizer) (factor : Nat) : Resizer :=
  { r with
    horizontal := { r.horizontal with
      texture := some (r.mWidth / factor, r.mHeight)
      attached := true } }

def allocateHeight (r : Resizer) (factor : Nat) : Resizer :=
  { r with
    vertical := { r.vertical with
      texture := some (r.mWidth / factor, r.mHeight / factor)
      attached := true } }

/-- `detachShaders` and `attachShaders` for both programs, and `mFactor = factor`. -/
def attachShaders (r : Resizer) (factor : Nat) : Resizer :=
  { r with
    horizontal := { r.horizontal with program := some factor }
    vertical := { r.vertical with program := some factor }
    mFactor := factor }

def setupFramebuffers (r : Resizer) (factor : Nat) (a : UpdateAnswers) : Resizer × Bool :=
  if factor = r.mFactor then (r, a.checkWidth && a.checkHeight)
  else if !a.allocateWidth then (r, false)
  else if !a.checkWidth then (r.allocateWidth factor, false)
  else if !a.allocateHeight then (r.allocateWidth factor, false)
  else if !a.checkHeight then ((r.allocateWidth factor).allocateHeight factor, false)
  else (((r.allocateWidth factor).allocateHeight factor).attachShaders factor, true)

/-- The draw calls of `resize`, and what it returns. -/
def resize (a : UpdateAnswers) : List ResizePass × Bool :=
  if !a.checkDrawWidth then ([], false)
  else if !a.drawWidth then ([.horizontal], false)
  else if !a.checkDrawHeight then ([.horizontal], false)
  else ([.horizontal, .vertical], a.drawHeight)

def update (r : Resizer) (vport : Size) (a : UpdateAnswers) : Updated :=
  if r.factor vport = 1 then ⟨r, [], false⟩
  else
    match r.setupFramebuffers (r.factor vport) a with
    | (r, true) => ⟨r, (resize a).1, (resize a).2⟩
    | (r, false) => ⟨r, [], false⟩

/-- Both targets are set up for `mFactor`. -/
structure Configured (r : Resizer) : Prop where
  horizontal : r.horizontal = ⟨some (r.mWidth / r.mFactor, r.mHeight), true, some r.mFactor⟩
  vertical : r.vertical = ⟨some (r.mWidth / r.mFactor, r.mHeight / r.mFactor), true, some r.mFactor⟩

instance (r : Resizer) : Decidable r.Configured :=
  decidable_of_iff (_ ∧ _) ⟨fun h => ⟨h.1, h.2⟩, fun h => ⟨h.1, h.2⟩⟩

end Resizer

/-! ## Runs -/

/-- A call of `update`, for a viewport. -/
structure ResizeOp where
  vport : Size
  answers : UpdateAnswers := {}

/-- A resizer with its history, as far as it matters: `unfinished` when the latest change of the factor that got
past its first allocation has failed. -/
structure ResizeRun where
  resizer : Resizer
  unfinished : Bool := false

namespace ResizeRun

/-- The change of the factor goes through. -/
def Completes (a : UpdateAnswers) : Bool := a.checkWidth && a.allocateHeight && a.checkHeight

def step (s : ResizeRun) (op : ResizeOp) : ResizeRun where
  resizer := (s.resizer.update op.vport op.answers).resizer
  unfinished :=
    let factor := s.resizer.factor op.vport
    if factor = 1 ∨ factor = s.resizer.mFactor ∨ op.answers.allocateWidth = false then s.unfinished
    else !Completes op.answers

/-- What is drawn is drawn with both targets set up. -/
def DrawsConfigured (s : ResizeRun) (op : ResizeOp) : Prop :=
  (s.resizer.update op.vport op.answers).passes ≠ [] → (s.resizer.update op.vport op.answers).resizer.Configured

instance (s : ResizeRun) (op : ResizeOp) : Decidable (s.DrawsConfigured op) := inferInstanceAs (Decidable (_ → _))

/-- No draw at the configured factor while a change of it is unfinished. -/
def NoDrawUnfinished (s : ResizeRun) (op : ResizeOp) : Prop :=
  s.unfinished = true → s.resizer.factor op.vport ≠ 1 → s.resizer.factor op.vport = s.resizer.mFactor →
    ¬(op.answers.checkWidth ∧ op.answers.checkHeight ∧ op.answers.checkDrawWidth)

end ResizeRun

def resizeMachine (r : Resizer) : Machine ResizeRun ResizeOp where
  init := { resizer := r }
  step s op := some (s.step op)

end AnboxReboxed.Emugl
