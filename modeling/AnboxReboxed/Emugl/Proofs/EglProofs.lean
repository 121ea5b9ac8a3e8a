import AnboxReboxed.Emugl.GlWorld
import AnboxReboxed.Emugl.Proofs.BookkeepingProofs

/-!
# Proofs: saving and restoring what is current

The code between `bind_locked` and `unbind_locked` only deals with names, so what was current on the
thread comes back, unless the call that restores it fails. Nothing here touches another thread.
-/

namespace AnboxReboxed.Emugl

open AnboxReboxed.Lib OrdMap

namespace Gl

variable {g g' g1 g2 g3 : Gl} {t : ThreadId}

/-! ## Calls that only deal with names -/

/-- What EGL has current is the same. -/
structure NamesOnly (g g' : Gl) : Prop where
  pbufSurface : g'.m_pbufSurface = g.m_pbufSurface
  current : g'.current = g.current
  prev : g'.prev = g.prev
  surfaces : g'.nextSurface = g.nextSurface
  unrestored : g'.unrestored = g.unrestored

theorem NamesOnly.refl (g : Gl) : NamesOnly g g := ⟨rfl, rfl, rfl, rfl, rfl⟩

theorem NamesOnly.trans (h1 : NamesOnly g1 g2) (h2 : NamesOnly g2 g3) : NamesOnly g1 g3 :=
  ⟨h2.pbufSurface.trans h1.pbufSurface, h2.current.trans h1.current, h2.prev.trans h1.prev,
    h2.surfaces.trans h1.surfaces, h2.unrestored.trans h1.unrestored⟩

theorem namesOnly_gen (g : Gl) (t : ThreadId) (cb : ColorBufferPtr) :
    NamesOnly g (g.glGenFramebuffers t cb).1 := by
  unfold glGenFramebuffers
  split
  · exact .refl g
  · exact ⟨rfl, rfl, rfl, rfl, rfl⟩

theorem namesOnly_use (g : Gl) (t : ThreadId) (cb : ColorBufferPtr) (f : Framebuffer) :
    NamesOnly g (g.useFramebuffer t cb f) := ⟨rfl, rfl, rfl, rfl, rfl⟩

theorem namesOnly_delete (g : Gl) (t : ThreadId) (cb : ColorBufferPtr) :
    NamesOnly g (g.deleteObjects t cb) := ⟨rfl, rfl, rfl, rfl, rfl⟩

theorem namesOnly_bindFbo (g : Gl) (t : ThreadId) (cb : ColorBufferPtr) (fbo : Option Framebuffer)
    (complete : Bool) : NamesOnly g (bindFbo g t cb fbo complete).1 := by
  have hf : ∀ g' f, NamesOnly g g' → NamesOnly g
      (if complete then (g'.useFramebuffer t cb f, some f)
        else ((g'.useFramebuffer t cb f).useFramebuffer t cb f, none)).1 := by
    intro g' f h
    split
    · exact h.trans (namesOnly_use g' t cb f)
    · exact (h.trans (namesOnly_use g' t cb f)).trans (namesOnly_use _ t cb f)
  cases fbo with
  | none => exact hf _ _ (namesOnly_gen g t cb)
  | some f => exact hf g f (.refl g)

theorem namesOnly_resizeCreate (g : Gl) (t : ThreadId) (cb : ColorBufferPtr) (width height : Nat) :
    NamesOnly g (TextureResize.create g t cb width height).1 :=
  (namesOnly_gen g t cb).trans (namesOnly_gen _ t cb)

theorem namesOnly_resizeDestroy (r : TextureResize) (g : Gl) (t : ThreadId) (cb : ColorBufferPtr) :
    NamesOnly g (r.destroy g t cb) :=
  ((namesOnly_use g t cb _).trans (namesOnly_use _ t cb _)).trans (namesOnly_delete _ t cb)

theorem namesOnly_setup (r : TextureResize) (g : Gl) (t : ThreadId) (cb : ColorBufferPtr) (factor : Nat)
    (a : ResizeAnswers) : NamesOnly g (r.setupFramebuffers g t cb factor a).1 := by
  have huse := namesOnly_use g t cb r.mFBWidth
  have hboth := huse.trans (namesOnly_use _ t cb r.mFBHeight)
  unfold TextureResize.setupFramebuffers
  dsimp only
  split_ifs
  · exact hboth
  · exact huse
  · exact hboth
  · exact hboth
  · exact huse
  · exact .refl g

theorem namesOnly_resize (r : TextureResize) (g : Gl) (t : ThreadId) (cb : ColorBufferPtr)
    (a : ResizeAnswers) : NamesOnly g (r.resize g t cb a) := by
  unfold TextureResize.resize
  dsimp only
  split_ifs
  · exact (namesOnly_use g t cb _).trans (namesOnly_use _ t cb _)
  · exact namesOnly_use g t cb _

theorem namesOnly_update (r : TextureResize) (g : Gl) (t : ThreadId) (cb : ColorBufferPtr) (vport : Size)
    (a : ResizeAnswers) : NamesOnly g (r.update g t cb vport a).1 := by
  unfold TextureResize.update
  split_ifs
  · exact .refl g
  · have hsetup := namesOnly_setup r g t cb (r.factor vport) a
    generalize r.setupFramebuffers g t cb (r.factor vport) a = out at hsetup
    dsimp only
    split_ifs
    · exact hsetup.trans (namesOnly_resize _ _ t cb a)
    · exact hsetup

theorem namesOnly_bind (c : ColorBuffer) (g : Gl) (t : ThreadId) (p : ColorBufferPtr) (vport : Size)
    (a : ResizeAnswers) : NamesOnly g (c.bind g t p vport a).1 := namesOnly_update c.m_resizer g t p vport a

theorem namesOnly_sample (c : ColorBuffer) (g : Gl) (t : ThreadId) (p : ColorBufferPtr) (vport : Size)
    (r : ResizeAnswers) (complete : Bool) :
    NamesOnly g (c.sampleCurrentTexture g t p vport r complete).1 :=
  (namesOnly_bind c g t p vport r).trans (namesOnly_bindFbo _ t p _ complete)

/-! ## What comes back -/

/-- After an operation of the thread `t`, what it had current is current again, unless the operation left
it behind. -/
structure Restored (t : ThreadId) (g g' : Gl) : Prop where
  others : ∀ t', t' ≠ t → g'.current t' = g.current t' ∧ g'.unrestored t' = g.unrestored t'
  self : g'.unrestored t = false → g.unrestored t = false ∧ g'.current t = g.current t
  surfaces : g.nextSurface ≤ g'.nextSurface

theorem Restored.refl (t : ThreadId) (g : Gl) : Restored t g g :=
  ⟨fun _ _ => ⟨rfl, rfl⟩, fun h => ⟨h, rfl⟩, Nat.le_refl _⟩

theorem Restored.trans (h1 : Restored t g1 g2) (h2 : Restored t g2 g3) : Restored t g1 g3 := by
  refine ⟨fun t' ht => ?_, fun h => ?_, Nat.le_trans h1.surfaces h2.surfaces⟩
  · obtain ⟨hc, hu⟩ := h2.others t' ht
    obtain ⟨hc', hu'⟩ := h1.others t' ht
    exact ⟨hc.trans hc', hu.trans hu'⟩
  · obtain ⟨hu, hc⟩ := h2.self h
    obtain ⟨hu', hc'⟩ := h1.self hu
    exact ⟨hu', hc.trans hc'⟩

/-- What holds of the thread and of the others alike. -/
theorem Restored.back (h : Restored t g g') {t1 : ThreadId} (hu : g'.unrestored t1 = false) :
    g.unrestored t1 = false ∧ g'.current t1 = g.current t1 := by
  by_cases he : t1 = t
  · subst he
    exact h.self hu
  · obtain ⟨hc, hu'⟩ := h.others t1 he
    exact ⟨hu' ▸ hu, hc⟩

theorem NamesOnly.restored (h : NamesOnly g1 g2) : Restored t g1 g2 := by
  refine ⟨fun t' _ => ?_, fun hu => ?_, Nat.le_of_eq h.surfaces.symm⟩
  · rw [h.current, h.unrestored]
    exact ⟨rfl, rfl⟩
  · rw [h.unrestored] at hu
    exact ⟨hu, by rw [h.current]⟩

theorem restored_createSurface (g : Gl) (t : ThreadId) : Restored t g g.createSurface.2 :=
  ⟨fun _ _ => ⟨rfl, rfl⟩, fun h => ⟨h, rfl⟩, Nat.le_succ _⟩

/-- From `bindSaved` over names to `unbind_locked`. -/
theorem restored_unbind (g : Gl) (t : ThreadId) (b : EglBinding) (ok : Bool)
    (hn : NamesOnly (g.bindSaved t b true) g') : Restored t g (g'.unbind_locked t ok) := by
  have hcur : g'.current = Function.update g.current t b := hn.current
  have hprev : g'.prev = g.current t := hn.prev
  have hunres : g'.unrestored = g.unrestored := hn.unrestored
  have hsurf : g'.nextSurface = g.nextSurface := hn.surfaces
  cases ok with
  | false =>
    refine ⟨fun t' ht => ?_, fun h => ?_, Nat.le_of_eq hsurf.symm⟩
    · simp [unbind_locked, restore, eglMakeCurrent, hcur, hunres, ht]
    · simp [unbind_locked, restore] at h
  | true =>
    refine ⟨fun t' ht => ?_, fun h => ?_, Nat.le_of_eq hsurf.symm⟩
    · simp [unbind_locked, restore, eglMakeCurrent, hcur, hunres, ht]
    · simp [unbind_locked, restore, hunres] at h
      exact ⟨h, by simp [unbind_locked, restore, eglMakeCurrent, hprev]⟩

theorem restored_scope {β : Type} {body : Gl → Gl × β} (hbody : ∀ g, NamesOnly g (body g).1) (g : Gl)
    (t : ThreadId) (a : ScopeAnswers) : Restored t g (g.scopedHelperContext t a body).1 := by
  unfold scopedHelperContext
  cases hb : a.bind with
  | false => exact (hbody g).restored
  | true => exact restored_unbind g t _ a.unbind (hbody _)

/-- As `Restored`, but under the condition `P` nothing may be current any more. -/
structure RestoredOr (t : ThreadId) (P : Prop) (g g' : Gl) : Prop where
  others : ∀ t', t' ≠ t → g'.current t' = g.current t' ∧ g'.unrestored t' = g.unrestored t'
  self : g'.unrestored t = false →
    g.unrestored t = false ∧ (g'.current t = g.current t ∨ P ∧ g'.current t = {})
  surfaces : g.nextSurface ≤ g'.nextSurface

theorem Restored.or (h : Restored t g g') (P : Prop) : RestoredOr t P g g' :=
  ⟨h.others, fun hu => ⟨(h.self hu).1, Or.inl (h.self hu).2⟩, h.surfaces⟩

theorem RestoredOr.trans {P Q : Prop} (h1 : RestoredOr t P g1 g2) (h2 : RestoredOr t Q g2 g3) :
    RestoredOr t (P ∨ Q) g1 g3 := by
  refine ⟨fun t' ht => ?_, fun h => ?_, Nat.le_trans h1.surfaces h2.surfaces⟩
  · obtain ⟨hc, hu⟩ := h2.others t' ht
    obtain ⟨hc', hu'⟩ := h1.others t' ht
    exact ⟨hc.trans hc', hu.trans hu'⟩
  · obtain ⟨hu, hc⟩ := h2.self h
    obtain ⟨hu', hc'⟩ := h1.self hu
    refine ⟨hu', ?_⟩
    rcases hc with hc | ⟨hq, hc⟩
    · rw [hc]
      exact hc'.imp_right fun h => ⟨Or.inl h.1, h.2⟩
    · exact Or.inr ⟨Or.inr hq, hc⟩

theorem RestoredOr.mono {P Q : Prop} (h : RestoredOr t P g g') (hPQ : P → Q) : RestoredOr t Q g g' :=
  ⟨h.others, fun hu => ⟨(h.self hu).1, (h.self hu).2.imp_right fun hp => ⟨hPQ hp.1, hp.2⟩⟩, h.surfaces⟩

theorem restoredOr_unbind (g : Gl) (t : ThreadId) (ok : Bool) :
    RestoredOr t (ok = true) g (g.eglMakeCurrent t {} ok) := by
  cases ok with
  | false => exact (Restored.refl t g).or _
  | true =>
    refine ⟨fun t' ht => ⟨Function.update_of_ne ht .., rfl⟩, fun h => ⟨h, Or.inr ⟨rfl, ?_⟩⟩, Nat.le_refl _⟩
    exact Function.update_self ..

/-! ## Colour buffers -/

/-- A relation between the states before and after that every scope around calls with names keeps. -/
structure ScopeRel (t : ThreadId) (R : Gl → Gl → Prop) : Prop where
  refl : ∀ g, R g g
  trans : ∀ {g1 g2 g3}, R g1 g2 → R g2 g3 → R g1 g3
  scope : ∀ {β : Type} {body : Gl → Gl × β}, (∀ g, NamesOnly g (body g).1) →
    ∀ g a, R g (g.scopedHelperContext t a body).1

theorem scopeRel_restored (t : ThreadId) : ScopeRel t (Restored t) :=
  ⟨.refl t, .trans, fun hbody g a => restored_scope hbody g t a⟩

namespace ScopeRel

variable {R : Gl → Gl → Prop} (hR : ScopeRel t R)

include hR

theorem create (g : Gl) (p : ColorBufferPtr) (p_width p_height : Int) (p_internalFormat : GLenum)
    (a : CreateAnswers) : R g (ColorBuffer.create g t p p_width p_height p_internalFormat a).1 := by
  unfold ColorBuffer.create
  split
  · exact hR.refl g
  · split
    · refine hR.scope (fun g => ?_) g a.scope
      split
      · exact namesOnly_resizeCreate g t p p_width.toNat p_height.toNat
      · exact .refl g
    · have hscope : R g (g.scopedHelperContext t a.scope fun g => (g, ())).1 :=
        hR.scope (fun g => .refl g) g a.scope
      have hdelete : ∀ g : Gl,
          R g (g.scopedHelperContext t a.cleanup fun g => (g.deleteObjects t p, ())).1 :=
        fun g => hR.scope (fun g => namesOnly_delete g t p) g a.cleanup
      dsimp only
      split
      · exact hR.trans hscope (hdelete _)
      · exact hscope

theorem destroy (c : ColorBuffer) (g : Gl) (p : ColorBufferPtr) (a : ScopeAnswers) :
    R g (c.destroy g t p a) := by
  refine hR.scope (fun g => ?_) g a
  cases c.m_fbo with
  | none => exact (namesOnly_delete g t p).trans (namesOnly_resizeDestroy _ _ t p)
  | some f =>
    exact ((namesOnly_use g t p f).trans (namesOnly_delete _ t p)).trans (namesOnly_resizeDestroy _ _ t p)

theorem snapshotFrom (c : ColorBuffer) (g : Gl) (p : ColorBufferPtr) (source : ColorBuffer)
    (psource : ColorBufferPtr) (a : ScopeAnswers) (complete : Bool) (r : ResizeAnswers) :
    R g (c.snapshotFrom g t p source psource a complete r).1 := by
  unfold ColorBuffer.snapshotFrom
  split
  · exact hR.refl g
  · refine hR.scope (fun g => ?_) g a
    have hfbo := namesOnly_bindFbo g t p c.m_fbo complete
    dsimp only
    split
    · split
      · exact hfbo.trans (namesOnly_bind source _ t psource _ r)
      · exact hfbo
    · exact .refl g

end ScopeRel

theorem restored_withFbo (c : ColorBuffer) (g : Gl) (t : ThreadId) (p : ColorBufferPtr) (a : ScopeAnswers)
    (complete : Bool) : Restored t g (c.withFbo g t p a complete).1 := by
  refine restored_scope (fun g => ?_) g t a
  split_ifs
  · exact namesOnly_bindFbo g t p c.m_fbo complete
  · exact .refl g

theorem restored_readPixels (c : ColorBuffer) (g : Gl) (t : ThreadId) (p : ColorBufferPtr)
    (x y width height : Int) (pixels : Bool) (a : ScopeAnswers) (complete : Bool) :
    Restored t g (c.readPixels g t p x y width height pixels a complete).1 := by
  unfold ColorBuffer.readPixels
  split_ifs
  · exact restored_withFbo c g t p a complete
  · exact .refl t g

theorem restored_subUpdate (c : ColorBuffer) (g : Gl) (t : ThreadId) (x y width height : Int) (pixels : Bool)
    (a : ScopeAnswers) : Restored t g (c.subUpdate g t x y width height pixels a) := by
  unfold ColorBuffer.subUpdate
  split_ifs
  · exact restored_scope (fun g => NamesOnly.refl g) g t a
  · exact .refl t g

theorem restored_blit (c : ColorBuffer) (g : Gl) (t : ThreadId) (p : ColorBufferPtr) (currContext : Bool)
    (a : ScopeAnswers) (complete : Bool) :
    Restored t g (c.blitFromCurrentReadBuffer g t p currContext a complete).1 := by
  unfold ColorBuffer.blitFromCurrentReadBuffer
  split_ifs
  · exact restored_withFbo c g t p a complete
  · exact .refl t g

/-- A binding that an operation saved itself comes back, whatever scopes ran in between. -/
theorem restored_flushed (g : Gl) (t : ThreadId) (b : EglBinding) (before ok : Bool)
    (hbefore : before = g.unrestored t) (h : Restored t (g.eglMakeCurrent t b true) g') :
    Restored t g (g'.restore t (g.current t) before ok) := by
  have hsurf : g.nextSurface ≤ g'.nextSurface := h.surfaces
  subst hbefore
  refine ⟨fun t' ht => ?_, fun hu => ?_, ?_⟩
  · obtain ⟨hc, hu⟩ := h.others t' ht
    have hc' : g'.current t' = g.current t' := by simpa [eglMakeCurrent, ht] using hc
    have hu' : g'.unrestored t' = g.unrestored t' := hu
    cases ok <;> simp [restore, eglMakeCurrent, ht, hc', hu']
  · cases ok with
    | false => simp [restore] at hu
    | true =>
      have hu' : g.unrestored t = false := by simpa [restore] using hu
      exact ⟨hu', by simp [restore, eglMakeCurrent]⟩
  · cases ok <;> exact hsurf

theorem restored_flush (w : WindowSurface) (g : Gl) (t : ThreadId) (p : ColorBufferPtr) (c : ColorBuffer)
    (currContext : Bool) (a : FlushAnswers) :
    Restored t g (w.flushColorBuffer g t p c currContext a).1 := by
  unfold WindowSurface.flushColorBuffer
  split
  · exact .refl t g
  · split
    · exact .refl t g
    · split
      · exact .refl t g
      · rename_i ctx hctx
        dsimp only
        cases a.bind with
        | false => exact .refl t g
        | true => exact restored_flushed g t _ (g.unrestored t) a.restore rfl (restored_blit c _ t p _ _ _)

end Gl

end AnboxReboxed.Emugl
