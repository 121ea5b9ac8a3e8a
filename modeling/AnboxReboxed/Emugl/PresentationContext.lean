import AnboxReboxed.Emugl.TextureResize
import Mathlib.Logic.Function.Basic

/-!
# `TextureResize` in the presentation context

The resizer runs in the context that the layers are drawn in. It reads the state of the context first, draws its two
passes, and puts the state back. What is read from the context is accepted when it is put back; what GL makes of the
calls in between is an argument.
-/

namespace AnboxReboxed.Emugl

open Function

/-- Where the values of a vertex attribute come from. -/
structure VertexPointer where
  buffer : Nat
  size : Nat
  type : Nat
  normalized : Bool
  stride : Nat
  offset : Nat
  deriving DecidableEq

structure TextureFilters where
  mag_filter : Nat
  min_filter : Nat
  deriving DecidableEq

abbrev Box := Int × Int × Int × Int

/-- The state of a context, as far as the resizer changes it. Textures have names, and so have the other objects. -/
structure GlContext where
  viewport : Box
  framebuffer : Nat
  array_buffer : Nat
  program : Nat
  /-- The unit, counted from `GL_TEXTURE0`. -/
  active_texture : Nat
  /-- `GL_TEXTURE_BINDING_2D` of a unit. -/
  texture_binding : Nat → Nat
  scissor_box : Box
  color_mask : Bool × Bool × Bool × Bool
  scissor_enabled : Bool
  blend_enabled : Bool
  depth_enabled : Bool
  cull_enabled : Bool
  attrib_enabled : Nat → Bool
  attrib_pointer : Nat → VertexPointer
  filters : Nat → TextureFilters

namespace GlContext

def glBindTexture (g : GlContext) (texture : Nat) : GlContext :=
  { g with texture_binding := update g.texture_binding g.active_texture texture }

def glActiveTexture (g : GlContext) (texture : Nat) : GlContext := { g with active_texture := texture }

def glBindFramebuffer (g : GlContext) (framebuffer : Nat) : GlContext := { g with framebuffer }

def glBindBuffer (g : GlContext) (buffer : Nat) : GlContext := { g with array_buffer := buffer }

def glViewport (g : GlContext) (viewport : Box) : GlContext := { g with viewport }

/-- A program that is not linked is not taken. -/
def glUseProgram (g : GlContext) (program : Nat) (linked : Bool) : GlContext :=
  if linked then { g with program } else g

/-- There is no attribute at a negative location. -/
def setAttribute (g : GlContext) (location : Int) (enabled : Bool) : GlContext :=
  if 0 ≤ location then { g with attrib_enabled := update g.attrib_enabled location.toNat enabled } else g

def glVertexAttribPointer (g : GlContext) (location : Int) (pointer : VertexPointer) : GlContext :=
  if 0 ≤ location then { g with attrib_pointer := update g.attrib_pointer location.toNat pointer } else g

/-- The texture of the active unit. -/
def bound (g : GlContext) : Nat := g.texture_binding g.active_texture

/-- `glTexParameteri` for both filters. -/
def setFilters (g : GlContext) (filters : TextureFilters) : GlContext :=
  { g with filters := update g.filters g.bound filters }

end GlContext

def GL_NEAREST : Nat := 0x2600

def GL_FLOAT : Nat := 0x1406

/-- `TextureResize::Framebuffer`. -/
structure ResizeNames where
  texture : Nat
  framebuffer : Nat
  program : Nat
  aPosition : Int := -1
  deriving DecidableEq

/-- A resizer with the names of its objects. -/
structure NamedResizer where
  mWidth : Nat
  mHeight : Nat
  mFactor : Nat := 1
  mFBWidth : ResizeNames
  mFBHeight : ResizeNames
  mVertexBuffer : Nat
  deriving DecidableEq

/-- What GL answers in addition. -/
structure ContextAnswers extends UpdateAnswers where
  /-- Where the new shaders of the horizontal pass have `aPosition`; `none` when one of them was not made. -/
  shadersWidth : Option Int
  shadersHeight : Option Int
  linkedWidth : Bool := true
  linkedHeight : Bool := true

/-- `attachShaders` -/
def attachShaders (g : GlContext) (fb : ResizeNames) (shaders : Option Int) (linked : Bool) :
    GlContext × ResizeNames :=
  match shaders with
  | none => (g, fb)
  | some aPosition => (g.glUseProgram fb.program linked, { fb with aPosition })

namespace NamedResizer

/-- The factor of `update`. -/
def factor (r : NamedResizer) (vport : Box) : Nat :=
  let target : Size := (vport.2.2.1, vport.2.2.2)
  TextureResize.calculateFactor r.mWidth r.mHeight
    (if decide (r.mWidth < r.mHeight) != decide (target.1 < target.2) then target.swap else target)

def setupFramebuffers (r : NamedResizer) (g : GlContext) (factor : Nat) (a : ContextAnswers) :
    NamedResizer × GlContext × Bool :=
  if factor = r.mFactor then
    let g := g.glBindFramebuffer r.mFBWidth.framebuffer
    if !a.checkWidth then (r, g, false)
    else (r, g.glBindFramebuffer r.mFBHeight.framebuffer, a.checkHeight)
  else
    let g := g.glBindTexture r.mFBWidth.texture
    if !a.allocateWidth then (r, g, false)
    else
      let g := g.glBindFramebuffer r.mFBWidth.framebuffer
      if !a.checkWidth then (r, g, false)
      else
        let g := g.glBindTexture r.mFBHeight.texture
        if !a.allocateHeight then (r, g, false)
        else
          let g := g.glBindFramebuffer r.mFBHeight.framebuffer
          if !a.checkHeight then (r, g, false)
          else
            let (g, mFBWidth) := attachShaders g r.mFBWidth a.shadersWidth a.linkedWidth
            let (g, mFBHeight) := attachShaders g r.mFBHeight a.shadersHeight a.linkedHeight
            ({ r with mFBWidth, mFBHeight, mFactor := factor }, g, true)

/-- The pointer of both passes. -/
def pointer (r : NamedResizer) : VertexPointer where
  buffer := r.mVertexBuffer
  size := 2
  type := GL_FLOAT
  normalized := false
  stride := 0
  offset := 0

/-- The first part of a pass, up to its vertices. -/
def beginPass (r : NamedResizer) (g : GlContext) (fb : ResizeNames) (width height : Nat) (linked : Bool) : GlContext :=
  let g := g.glViewport (0, 0, width, height)
  let g := g.glUseProgram fb.program linked
  let g := g.setAttribute fb.aPosition true
  g.glVertexAttribPointer fb.aPosition r.pointer

def resize (r : NamedResizer) (g : GlContext) (texture : Nat) (a : ContextAnswers) : GlContext × Bool :=
  let g := g.glBindBuffer r.mVertexBuffer
  let g := g.glActiveTexture 0
  let g := g.glBindFramebuffer r.mFBWidth.framebuffer
  if !a.checkDrawWidth then (g, false)
  else
    let g := r.beginPass g r.mFBWidth (r.mWidth / r.mFactor) r.mHeight a.linkedWidth
    let g := g.glBindTexture texture
    let filters := g.filters g.bound
    let g := g.setFilters ⟨GL_NEAREST, GL_NEAREST⟩
    let g := g.setFilters filters
    if !a.drawWidth then (g, false)
    else
      let g := g.glBindFramebuffer r.mFBHeight.framebuffer
      if !a.checkDrawHeight then (g, false)
      else
        let g := r.beginPass g r.mFBHeight (r.mWidth / r.mFactor) (r.mHeight / r.mFactor) a.linkedHeight
        let g := g.glBindTexture r.mFBWidth.texture
        if !a.drawHeight then (g, false)
        else (((g.glBindBuffer 0).glBindFramebuffer 0).glBindTexture 0, true)

/-- `resize` between the two looks at the attributes. -/
def resizeKeepingAttributes (r : NamedResizer) (g : GlContext) (texture : Nat) (a : ContextAnswers) :
    GlContext × Bool :=
  let width_attribute_enabled := g.attrib_enabled r.mFBWidth.aPosition.toNat
  let height_attribute_enabled := g.attrib_enabled r.mFBHeight.aPosition.toNat
  let (g, resized) := r.resize g texture a
  let g := g.setAttribute r.mFBWidth.aPosition width_attribute_enabled
  let g :=
    if r.mFBHeight.aPosition ≠ r.mFBWidth.aPosition then
      g.setAttribute r.mFBHeight.aPosition height_attribute_enabled
    else g
  (g, resized)

/-- The tests and the mask that the passes must not inherit. -/
def disableTests (g : GlContext) : GlContext :=
  { g with
    scissor_enabled := false
    blend_enabled := false
    depth_enabled := false
    cull_enabled := false
    color_mask := (true, true, true, true) }

/-- The end of `update`: the state that was read from `saved` is put back. -/
def restore (saved g : GlContext) : GlContext :=
  let g := g.glBindFramebuffer saved.framebuffer
  let g := g.glViewport saved.viewport
  let g := g.glUseProgram saved.program true
  let g := g.glBindBuffer saved.array_buffer
  let g := g.glActiveTexture 0
  let g := g.glBindTexture (saved.texture_binding 0)
  let g :=
    if saved.active_texture ≠ 0 then
      (g.glActiveTexture saved.active_texture).glBindTexture (saved.texture_binding saved.active_texture)
    else g
  { g with
    scissor_box := saved.scissor_box
    color_mask := saved.color_mask
    scissor_enabled := saved.scissor_enabled
    blend_enabled := saved.blend_enabled
    depth_enabled := saved.depth_enabled
    cull_enabled := saved.cull_enabled }

/-- The context after `update`, with the resizer and the texture that is returned. -/
def update (r : NamedResizer) (g : GlContext) (texture : Nat) (a : ContextAnswers) :
    NamedResizer × GlContext × Nat :=
  if r.factor g.viewport = 1 then (r, g, texture)
  else
    match r.setupFramebuffers (disableTests g) (r.factor g.viewport) a with
    | (r, g', true) =>
      let (g', resized) := r.resizeKeepingAttributes g' texture a
      (r, restore g g', if resized then r.mFBHeight.texture else texture)
    | (r, g', false) => (r, restore g g', texture)

/-- The passes that get to their vertices, by their attributes. -/
def pointed (r : NamedResizer) (vport : Box) (a : ContextAnswers) : List Int :=
  let changed := r.factor vport ≠ r.mFactor
  let ready := a.checkWidth && a.checkHeight && (!changed || (a.allocateWidth && a.allocateHeight))
  let width := if changed then a.shadersWidth.getD r.mFBWidth.aPosition else r.mFBWidth.aPosition
  let height := if changed then a.shadersHeight.getD r.mFBHeight.aPosition else r.mFBHeight.aPosition
  if r.factor vport = 1 ∨ ready = false ∨ a.checkDrawWidth = false then []
  else if a.drawWidth && a.checkDrawHeight then [width, height]
  else [width]

end NamedResizer

/-- Everything is as before that a later draw depends on. -/
structure Untouched (texture : Nat) (g g' : GlContext) : Prop where
  viewport : g'.viewport = g.viewport
  framebuffer : g'.framebuffer = g.framebuffer
  array_buffer : g'.array_buffer = g.array_buffer
  program : g'.program = g.program
  active_texture : g'.active_texture = g.active_texture
  binding_active : g'.texture_binding g.active_texture = g.texture_binding g.active_texture
  binding_zero : g'.texture_binding 0 = g.texture_binding 0
  scissor_box : g'.scissor_box = g.scissor_box
  color_mask : g'.color_mask = g.color_mask
  scissor_enabled : g'.scissor_enabled = g.scissor_enabled
  blend_enabled : g'.blend_enabled = g.blend_enabled
  depth_enabled : g'.depth_enabled = g.depth_enabled
  cull_enabled : g'.cull_enabled = g.cull_enabled
  attrib_enabled : ∀ i, g'.attrib_enabled i = g.attrib_enabled i
  attrib_pointer : ∀ i, g'.attrib_pointer i = g.attrib_pointer i
  filters : g'.filters texture = g.filters texture

end AnboxReboxed.Emugl
