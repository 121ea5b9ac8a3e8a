import AnboxReboxed.Emugl.PresentationContext

/-!
# Proofs: what `TextureResize::update` leaves of the presentation context

The end of `update` puts back all but three parts of the state. Of these the filters are put back by the horizontal
pass itself, and the enable flags around `resize`; nobody puts the pointers back.
-/

namespace AnboxReboxed.Emugl

open Function

/-- What the end of `update` does not put back is as before. -/
structure SameArrays (g g' : GlContext) : Prop where
  attrib_enabled : g'.attrib_enabled = g.attrib_enabled
  attrib_pointer : g'.attrib_pointer = g.attrib_pointer
  filters : g'.filters = g.filters

namespace SameArrays

variable {g g₁ g₂ : GlContext}

theorem trans (h₁ : SameArrays g g₁) (h₂ : SameArrays g₁ g₂) : SameArrays g g₂ where
  attrib_enabled := h₂.attrib_enabled.trans h₁.attrib_enabled
  attrib_pointer := h₂.attrib_pointer.trans h₁.attrib_pointer
  filters := h₂.filters.trans h₁.filters

theorem glUseProgram (g : GlContext) (program : Nat) (linked : Bool) :
    SameArrays g (g.glUseProgram program linked) := by
  unfold GlContext.glUseProgram
  split <;> exact ⟨rfl, rfl, rfl⟩

theorem attachShaders (g : GlContext) (fb : ResizeNames) (shaders : Option Int) (linked : Bool) :
    SameArrays g (Emugl.attachShaders g fb shaders linked).1 := by
  cases shaders with
  | none => exact ⟨rfl, rfl, rfl⟩
  | some aPosition => exact glUseProgram g fb.program linked

theorem disableTests (g : GlContext) : SameArrays g (NamedResizer.disableTests g) := ⟨rfl, rfl, rfl⟩

end SameArrays

theorem attachShaders_aPosition (g : GlContext) (fb : ResizeNames) (shaders : Option Int) (linked : Bool) :
    (attachShaders g fb shaders linked).2.aPosition = shaders.getD fb.aPosition := by
  cases shaders <;> rfl

/-! ## The pointers of the passes -/

/-- The pointers after passes with these attributes. -/
def pointAll (pointer : VertexPointer) (pointers : Nat → VertexPointer) (attributes : List Int) : Nat → VertexPointer :=
  attributes.foldl (fun f i => if 0 ≤ i then update f i.toNat pointer else f) pointers

theorem pointAll_apply (pointer : VertexPointer) (attributes : List Int) (pointers : Nat → VertexPointer) (i : Nat) :
    pointAll pointer pointers attributes i = if (i : Int) ∈ attributes then pointer else pointers i := by
  induction attributes generalizing pointers with
  | nil => simp [pointAll]
  | cons location attributes ih =>
    have hstep : pointAll pointer pointers (location :: attributes)
        = pointAll pointer (if 0 ≤ location then update pointers location.toNat pointer else pointers) attributes := rfl
    rw [hstep, ih]
    by_cases hi : (i : Int) ∈ attributes
    · simp [hi]
    by_cases hlocation : (i : Int) = location
    · subst hlocation
      simp [hi]
    · have hne : 0 ≤ location → i ≠ location.toNat := by omega
      by_cases hnonneg : 0 ≤ location
      · simp [hi, hlocation, hnonneg, update_of_ne (hne hnonneg)]
      · simp [hi, hlocation, hnonneg]

theorem pointAll_eq_iff (pointer : VertexPointer) (attributes : List Int) (pointers : Nat → VertexPointer) :
    (∀ i, pointAll pointer pointers attributes i = pointers i) ↔
      ∀ i ∈ attributes, 0 ≤ i → pointers i.toNat = pointer := by
  simp only [pointAll_apply]
  constructor
  · intro h i hi hnonneg
    have hmem : (i.toNat : Int) ∈ attributes := by rwa [Int.toNat_of_nonneg hnonneg]
    have := h i.toNat
    rw [if_pos hmem] at this
    exact this.symm
  · intro h i
    by_cases hi : (i : Int) ∈ attributes
    · rw [if_pos hi, ← h i hi (Int.natCast_nonneg i), Int.toNat_natCast]
    · rw [if_neg hi]

theorem GlContext.glVertexAttribPointer_attrib_pointer (g : GlContext) (location : Int) (pointer : VertexPointer) :
    (g.glVertexAttribPointer location pointer).attrib_pointer = pointAll pointer g.attrib_pointer [location] := by
  unfold glVertexAttribPointer pointAll
  by_cases h : 0 ≤ location <;> simp [h]

theorem GlContext.setAttribute_of_ne (g : GlContext) {location : Int} (enabled : Bool) {i : Nat}
    (h : (i : Int) ≠ location) : (g.setAttribute location enabled).attrib_enabled i = g.attrib_enabled i := by
  unfold setAttribute
  split
  · exact update_of_ne (by omega) _ _
  · rfl

theorem GlContext.setAttribute_self (g : GlContext) (enabled : Bool) (i : Nat) :
    (g.setAttribute i enabled).attrib_enabled i = enabled := by
  simp [setAttribute]

theorem GlContext.setAttribute_attrib_pointer (g : GlContext) (location : Int) (enabled : Bool) :
    (g.setAttribute location enabled).attrib_pointer = g.attrib_pointer := by
  unfold setAttribute
  split <;> rfl

theorem GlContext.setAttribute_filters (g : GlContext) (location : Int) (enabled : Bool) :
    (g.setAttribute location enabled).filters = g.filters := by
  unfold setAttribute
  split <;> rfl

/-- The horizontal pass reads both filters, changes them and puts them back. -/
theorem GlContext.setFilters_setFilters (g : GlContext) (filters : TextureFilters) :
    ((g.setFilters filters).setFilters (g.filters g.bound)).filters = g.filters := by
  change update (update g.filters g.bound filters) g.bound (g.filters g.bound) = g.filters
  rw [update_idem, update_eq_self]

namespace NamedResizer

variable (r : NamedResizer) (g : GlContext) (texture : Nat) (a : ContextAnswers)

/-! ## `setupFramebuffers` -/

theorem setupFramebuffers_same (factor : Nat) : SameArrays g (r.setupFramebuffers g factor a).2.1 := by
  unfold setupFramebuffers
  split_ifs
  all_goals try exact ⟨rfl, rfl, rfl⟩
  -- The programs are taken into use only here.
  refine SameArrays.trans ?_ (SameArrays.trans (SameArrays.attachShaders _ _ _ _) (SameArrays.attachShaders _ _ _ _))
  exact ⟨rfl, rfl, rfl⟩

theorem setupFramebuffers_pointer (factor : Nat) : (r.setupFramebuffers g factor a).1.pointer = r.pointer := by
  unfold setupFramebuffers
  split_ifs <;> rfl

/-- The answers with which `setupFramebuffers` succeeds. -/
theorem setupFramebuffers_snd (factor : Nat) :
    (r.setupFramebuffers g factor a).2.2
      = (a.checkWidth && a.checkHeight && (!decide (factor ≠ r.mFactor) || (a.allocateWidth && a.allocateHeight))) := by
  unfold setupFramebuffers
  by_cases hfactor : factor = r.mFactor
  · by_cases hwidth : a.checkWidth <;> simp [hfactor, hwidth]
  · cases hallocateWidth : a.allocateWidth <;> cases hcheckWidth : a.checkWidth <;>
      cases hallocateHeight : a.allocateHeight <;> cases hcheckHeight : a.checkHeight <;> simp [hfactor]

/-- The attributes of the passes after `setupFramebuffers`. -/
theorem setupFramebuffers_aPosition {factor : Nat} (h : (r.setupFramebuffers g factor a).2.2 = true) :
    (r.setupFramebuffers g factor a).1.mFBWidth.aPosition
        = (if factor ≠ r.mFactor then a.shadersWidth.getD r.mFBWidth.aPosition else r.mFBWidth.aPosition) ∧
      (r.setupFramebuffers g factor a).1.mFBHeight.aPosition
        = (if factor ≠ r.mFactor then a.shadersHeight.getD r.mFBHeight.aPosition else r.mFBHeight.aPosition) := by
  by_cases hfactor : factor = r.mFactor
  · rw [if_neg (not_not.2 hfactor), if_neg (not_not.2 hfactor)]
    unfold setupFramebuffers
    rw [if_pos hfactor]
    split <;> exact ⟨rfl, rfl⟩
  · rw [setupFramebuffers_snd] at h
    obtain ⟨⟨hcheckWidth, hcheckHeight⟩, hallocateWidth, hallocateHeight⟩ :
        (a.checkWidth = true ∧ a.checkHeight = true) ∧ a.allocateWidth = true ∧ a.allocateHeight = true := by
      simpa [hfactor] using h
    rw [if_pos hfactor, if_pos hfactor]
    simp [setupFramebuffers, hfactor, hcheckWidth, hcheckHeight, hallocateWidth, hallocateHeight,
      attachShaders_aPosition]

/-! ## `resize` -/

/-- The attributes of the passes that get to their vertices. -/
def drawn : List Int :=
  if a.checkDrawWidth = false then []
  else if a.drawWidth && a.checkDrawHeight then [r.mFBWidth.aPosition, r.mFBHeight.aPosition]
  else [r.mFBWidth.aPosition]

theorem beginPass_pointer (fb : ResizeNames) (width height : Nat) (linked : Bool) :
    (r.beginPass g fb width height linked).attrib_pointer = pointAll r.pointer g.attrib_pointer [fb.aPosition] := by
  unfold beginPass
  rw [GlContext.glVertexAttribPointer_attrib_pointer, GlContext.setAttribute_attrib_pointer,
    (SameArrays.glUseProgram _ _ _).attrib_pointer]
  rfl

theorem beginPass_enabled (fb : ResizeNames) (width height : Nat) (linked : Bool) {i : Nat}
    (h : (i : Int) ≠ fb.aPosition) :
    (r.beginPass g fb width height linked).attrib_enabled i = g.attrib_enabled i := by
  have hpointer (g : GlContext) (pointer : VertexPointer) :
      (g.glVertexAttribPointer fb.aPosition pointer).attrib_enabled = g.attrib_enabled := by
    unfold GlContext.glVertexAttribPointer
    split <;> rfl
  unfold beginPass
  rw [hpointer, GlContext.setAttribute_of_ne _ _ h, (SameArrays.glUseProgram _ _ _).attrib_enabled]
  rfl

theorem beginPass_filters (fb : ResizeNames) (width height : Nat) (linked : Bool) :
    (r.beginPass g fb width height linked).filters = g.filters := by
  have hpointer (g : GlContext) (pointer : VertexPointer) :
      (g.glVertexAttribPointer fb.aPosition pointer).filters = g.filters := by
    unfold GlContext.glVertexAttribPointer
    split <;> rfl
  unfold beginPass
  rw [hpointer, GlContext.setAttribute_filters, (SameArrays.glUseProgram _ _ _).filters]
  rfl

theorem resize_pointer :
    (r.resize g texture a).1.attrib_pointer = pointAll r.pointer g.attrib_pointer (r.drawn a) := by
  unfold resize drawn
  cases a.checkDrawWidth
  · rfl
  cases a.drawWidth
  · exact beginPass_pointer r _ _ _ _ _
  cases a.checkDrawHeight
  · exact beginPass_pointer r _ _ _ _ _
  have hboth (g' : GlContext) (h : g'.attrib_pointer = pointAll r.pointer g.attrib_pointer [r.mFBWidth.aPosition]) :
      (r.beginPass g' r.mFBHeight (r.mWidth / r.mFactor) (r.mHeight / r.mFactor) a.linkedHeight).attrib_pointer
        = pointAll r.pointer g.attrib_pointer [r.mFBWidth.aPosition, r.mFBHeight.aPosition] := by
    rw [beginPass_pointer, h]
    rfl
  cases a.drawHeight
  all_goals exact hboth _ (beginPass_pointer r _ _ _ _ _)

theorem resize_enabled {i : Nat} (hwidth : (i : Int) ≠ r.mFBWidth.aPosition)
    (hheight : (i : Int) ≠ r.mFBHeight.aPosition) :
    (r.resize g texture a).1.attrib_enabled i = g.attrib_enabled i := by
  unfold resize
  cases a.checkDrawWidth
  · rfl
  cases a.drawWidth
  · exact beginPass_enabled r _ _ _ _ _ hwidth
  cases a.checkDrawHeight
  · exact beginPass_enabled r _ _ _ _ _ hwidth
  cases a.drawHeight
  all_goals exact (beginPass_enabled r _ _ _ _ _ hheight).trans (beginPass_enabled r _ _ _ _ _ hwidth)

theorem resize_filters : (r.resize g texture a).1.filters = g.filters := by
  have hpass (g : GlContext) :
      let g' := (r.beginPass g r.mFBWidth (r.mWidth / r.mFactor) r.mHeight a.linkedWidth).glBindTexture texture
      ((g'.setFilters ⟨GL_NEAREST, GL_NEAREST⟩).setFilters (g'.filters g'.bound)).filters = g.filters :=
    (GlContext.setFilters_setFilters _ _).trans (beginPass_filters r _ _ _ _ _)
  unfold resize
  cases a.checkDrawWidth
  · rfl
  cases a.drawWidth
  · exact hpass _
  cases a.checkDrawHeight
  · exact hpass _
  cases a.drawHeight
  all_goals exact (beginPass_filters r _ _ _ _ _).trans (hpass _)

/-! ## The enable flags -/

theorem resizeKeepingAttributes_pointer :
    (r.resizeKeepingAttributes g texture a).1.attrib_pointer = pointAll r.pointer g.attrib_pointer (r.drawn a) := by
  unfold resizeKeepingAttributes
  split_ifs <;> simp only [GlContext.setAttribute_attrib_pointer, resize_pointer]

theorem resizeKeepingAttributes_filters : (r.resizeKeepingAttributes g texture a).1.filters = g.filters := by
  unfold resizeKeepingAttributes
  split_ifs <;> simp only [GlContext.setAttribute_filters, resize_filters]

/-- The flags were read before the passes, and both attributes get theirs back. -/
theorem resizeKeepingAttributes_enabled (i : Nat) :
    (r.resizeKeepingAttributes g texture a).1.attrib_enabled i = g.attrib_enabled i := by
  unfold resizeKeepingAttributes
  by_cases hwidth : (i : Int) = r.mFBWidth.aPosition
  · have hself (g' : GlContext) :
        (g'.setAttribute r.mFBWidth.aPosition (g.attrib_enabled r.mFBWidth.aPosition.toNat)).attrib_enabled i
          = g.attrib_enabled i := by
      rw [← hwidth, GlContext.setAttribute_self, Int.toNat_natCast]
    split_ifs with hne
    · have hheight : (i : Int) ≠ r.mFBHeight.aPosition := fun h => hne (h ▸ hwidth)
      exact (GlContext.setAttribute_of_ne _ _ hheight).trans (hself _)
    · exact hself _
  · split_ifs with hne
    · by_cases hheight : (i : Int) = r.mFBHeight.aPosition
      · dsimp only
        rw [← hheight, GlContext.setAttribute_self, Int.toNat_natCast]
      · exact (GlContext.setAttribute_of_ne _ _ hheight).trans
          ((GlContext.setAttribute_of_ne _ _ hwidth).trans (resize_enabled r g texture a hwidth hheight))
    · have hheight : (i : Int) ≠ r.mFBHeight.aPosition := fun h => hwidth (h.trans (not_not.1 hne))
      exact (GlContext.setAttribute_of_ne _ _ hwidth).trans (resize_enabled r g texture a hwidth hheight)

/-! ## `update` -/

theorem untouched_refl : Untouched texture g g := by
  constructor <;> intros <;> rfl

/-- Everything else is put back at the end, whatever has happened to it. -/
theorem untouched_restore_iff (g' : GlContext) :
    Untouched texture g (restore g g') ↔
      (∀ i, g'.attrib_enabled i = g.attrib_enabled i) ∧ (∀ i, g'.attrib_pointer i = g.attrib_pointer i) ∧
        g'.filters texture = g.filters texture := by
  have henabled : (restore g g').attrib_enabled = g'.attrib_enabled := by
    unfold restore
    split_ifs <;> rfl
  have hpointer : (restore g g').attrib_pointer = g'.attrib_pointer := by
    unfold restore
    split_ifs <;> rfl
  have hfilters : (restore g g').filters = g'.filters := by
    unfold restore
    split_ifs <;> rfl
  constructor
  · rintro h
    exact ⟨henabled ▸ h.attrib_enabled, hpointer ▸ h.attrib_pointer, hfilters ▸ h.filters⟩
  · rintro ⟨h₁, h₂, h₃⟩
    by_cases hactive : g.active_texture = 0
    · constructor <;> simp [restore, GlContext.glBindTexture, GlContext.glActiveTexture, GlContext.glUseProgram,
        GlContext.glBindFramebuffer, GlContext.glBindBuffer, GlContext.glViewport, hactive, h₁, h₂, h₃]
    · constructor <;> simp [restore, GlContext.glBindTexture, GlContext.glActiveTexture, GlContext.glUseProgram,
        GlContext.glBindFramebuffer, GlContext.glBindBuffer, GlContext.glViewport, hactive, h₁, h₂, h₃,
        update_of_ne (Ne.symm hactive)]

/-- With the attributes of the programs, which `setupFramebuffers` may have changed, `drawn` is `pointed`. -/
theorem drawn_setupFramebuffers (hfactor : r.factor g.viewport ≠ 1)
    (hready : (r.setupFramebuffers (disableTests g) (r.factor g.viewport) a).2.2 = true) :
    (r.setupFramebuffers (disableTests g) (r.factor g.viewport) a).1.drawn a = r.pointed g.viewport a := by
  obtain ⟨hwidth, hheight⟩ := setupFramebuffers_aPosition r _ a hready
  rw [setupFramebuffers_snd] at hready
  simp only [drawn, pointed, hwidth, hheight, hready, hfactor, false_or, reduceCtorEq]

/-- The attributes of `setupFramebuffers` when it fails. -/
theorem pointed_of_not_ready
    (hready : (r.setupFramebuffers (disableTests g) (r.factor g.viewport) a).2.2 = false) :
    r.pointed g.viewport a = [] := by
  rw [setupFramebuffers_snd] at hready
  simp only [pointed, hready, true_or, or_true, if_true]

/-- After `update` the context is as before if and only if the attributes of the passes had the pointer of the passes
already. -/
theorem untouched_update_iff :
    Untouched texture g (r.update g texture a).2.1 ↔
      ∀ i ∈ r.pointed g.viewport a, 0 ≤ i → g.attrib_pointer i.toNat = r.pointer := by
  unfold update
  by_cases hfactor : r.factor g.viewport = 1
  · rw [if_pos hfactor]
    simp [pointed, hfactor, untouched_refl]
  rw [if_neg hfactor]
  have hsame := (SameArrays.disableTests g).trans
    (setupFramebuffers_same r (disableTests g) a (r.factor g.viewport))
  have hpointer := setupFramebuffers_pointer r (disableTests g) a (r.factor g.viewport)
  have hdrawn := drawn_setupFramebuffers r g a hfactor
  have hnone := pointed_of_not_ready r g a
  rcases hsetup : r.setupFramebuffers (disableTests g) (r.factor g.viewport) a with ⟨r', g', ready⟩
  rw [hsetup] at hsame hpointer hdrawn hnone
  obtain ⟨henabled, hpointers, hfilters⟩ := hsame
  cases ready with
  | false =>
    rw [hnone rfl]
    simp_all [untouched_restore_iff]
  | true =>
    rw [← hdrawn rfl, ← hpointer, ← hpointers, ← pointAll_eq_iff, untouched_restore_iff,
      resizeKeepingAttributes_pointer, resizeKeepingAttributes_filters]
    constructor
    · rintro ⟨-, h, -⟩ i
      exact (h i).trans (congrFun hpointers i).symm
    · intro h
      refine ⟨fun i => ?_, fun i => (h i).trans (congrFun hpointers i), congrFun hfilters texture⟩
      rw [resizeKeepingAttributes_enabled]
      exact congrFun henabled i

/-- A context in which attribute 0 has a pointer of its own, with a resizer for 8 × 8 and a viewport of 2 × 2. The
attribute keeps the pointer of the passes. -/
theorem not_always_untouched :
    ¬∀ (r : NamedResizer) (g : GlContext) (texture : Nat) (a : ContextAnswers),
      Untouched texture g (r.update g texture a).2.1 := by
  intro h
  have hpointer := (h ⟨8, 8, 1, ⟨1, 1, 1, -1⟩, ⟨2, 2, 2, -1⟩, 3⟩
    { viewport := (0, 0, 2, 2), framebuffer := 0, array_buffer := 0, program := 0, active_texture := 0,
      texture_binding := fun _ => 0, scissor_box := (0, 0, 2, 2), color_mask := (true, true, true, true),
      scissor_enabled := false, blend_enabled := false, depth_enabled := false, cull_enabled := false,
      attrib_enabled := fun _ => false, attrib_pointer := fun _ => ⟨5, 3, GL_FLOAT, false, 20, 0⟩,
      filters := fun _ => ⟨GL_NEAREST, GL_NEAREST⟩ }
    7 ⟨{}, some 0, some 0, true, true⟩).attrib_pointer 0
  exact absurd hpointer (by decide)

/-- There are as many pointers as draw calls. -/
theorem pointed_length {R : Resizer} {vport : Box} (hwidth : R.mWidth = r.mWidth) (hheight : R.mHeight = r.mHeight)
    (hfactor : R.mFactor = r.mFactor) :
    (r.pointed vport a).length = (R.update (vport.2.2.1, vport.2.2.2) a.toUpdateAnswers).passes.length := by
  have hsame : R.factor (vport.2.2.1, vport.2.2.2) = r.factor vport := by
    unfold TextureResize.factor factor
    rw [hwidth, hheight]
  unfold pointed Resizer.update
  by_cases hone : r.factor vport = 1
  · simp [hone, hsame]
  by_cases hchanged : r.factor vport = r.mFactor
  · have hone' : r.mFactor ≠ 1 := hchanged ▸ hone
    unfold Resizer.setupFramebuffers Resizer.resize
    cases a.checkWidth <;> cases a.checkHeight <;> cases a.checkDrawWidth <;> cases a.drawWidth <;>
      cases a.checkDrawHeight <;> simp [hone', hsame, hchanged, hfactor]
  · unfold Resizer.setupFramebuffers Resizer.resize
    cases a.allocateWidth <;> cases a.checkWidth <;> cases a.allocateHeight <;> cases a.checkHeight <;>
      cases a.checkDrawWidth <;> cases a.drawWidth <;> cases a.checkDrawHeight <;>
      simp [hone, hsame, hchanged, hfactor]

end NamedResizer

end AnboxReboxed.Emugl
