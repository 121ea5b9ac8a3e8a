import AnboxReboxed.Emugl.GlWorld
import AnboxReboxed.Emugl.Proofs.BindingProofs

/-!
# Proofs: GL objects and their contexts

Colour buffers generate all their framebuffer names in the helper context. They use them there too, as
long as `draw` neither scales nor samples and the destructors can switch contexts.
-/

namespace AnboxReboxed.Emugl

open AnboxReboxed.Lib OrdMap

variable {g g' g1 g2 g3 : Gl} {t : ThreadId} {p : ColorBufferPtr}

namespace Gl

/-! ## Names and uses -/

/-- The helper context generated the name for the colour buffer `p`. -/
def Held (g : Gl) (p : ColorBufferPtr) (f : Framebuffer) : Prop :=
  f.context = some .pbuf ∧ g.generatedFor .pbuf f.name = some p

/-- Names stay with those they were generated for, and every new use hits its own object. -/
structure OwnUses (g g' : Gl) : Prop where
  grows : ∀ c name p, g.generatedFor c name = some p → g'.generatedFor c name = some p
  uses : ∀ u ∈ g'.uses, u ∈ g.uses ∨ u.Own g'

theorem Held.mono {f : Framebuffer} (hf : g.Held p f) (h : OwnUses g g') : g'.Held p f :=
  ⟨hf.1, h.grows _ _ _ hf.2⟩

theorem OwnUses.own {u : GlUse} (h : OwnUses g g') (hu : u.Own g) : u.Own g' := by
  cases u with
  | framebuffer cb f current =>
    obtain ⟨c, hc, hf, hguest, hgen⟩ := hu
    exact ⟨c, hc, hf, hguest, h.grows _ _ _ hgen⟩
  | deletion cb current => exact hu

theorem OwnUses.refl (g : Gl) : OwnUses g g := ⟨fun _ _ _ => id, fun _ => Or.inl⟩

theorem OwnUses.trans (h1 : OwnUses g1 g2) (h2 : OwnUses g2 g3) : OwnUses g1 g3 := by
  refine ⟨fun c name p h => h2.grows _ _ _ (h1.grows _ _ _ h), fun u hu => ?_⟩
  rcases h2.uses u hu with hu2 | hown
  · exact (h1.uses u hu2).imp_right h2.own
  · exact Or.inr hown

theorem OwnUses.all (h : OwnUses g g') (hown : ∀ u ∈ g.uses, u.Own g) : ∀ u ∈ g'.uses, u.Own g' := by
  intro u hu
  rcases h.uses u hu with hold | hnew
  · exact h.own (hown u hold)
  · exact hnew

/-- Calls of EGL neither make nor use names. -/
theorem OwnUses.of_eq (hgen : g'.generated = g.generated) (huses : g'.uses = g.uses) : OwnUses g g' := by
  refine ⟨fun c name p h => ?_, fun u hu => Or.inl (huses ▸ hu)⟩
  unfold generatedFor at h ⊢
  rw [hgen]
  exact h

theorem ownUses_make (g : Gl) (t : ThreadId) (b : EglBinding) (ok : Bool) :
    OwnUses g (g.eglMakeCurrent t b ok) := by
  cases ok with
  | false => exact .refl g
  | true => exact .of_eq rfl rfl

theorem ownUses_restore (g : Gl) (t : ThreadId) (b : EglBinding) (before ok : Bool) :
    OwnUses g (g.restore t b before ok) :=
  (ownUses_make g t b ok).trans (.of_eq rfl rfl)

theorem ownUses_bindSaved (g : Gl) (t : ThreadId) (b : EglBinding) (ok : Bool) :
    OwnUses g (g.bindSaved t b ok) := by
  cases ok with
  | false => exact .refl g
  | true => exact .of_eq rfl rfl

theorem ownUses_unbind (g : Gl) (t : ThreadId) (ok : Bool) : OwnUses g (g.unbind_locked t ok) := by
  have hrestore := ownUses_restore g t g.prev (g.unrestored t) ok
  unfold unbind_locked
  dsimp only
  split
  · exact hrestore.trans (.of_eq rfl rfl)
  · exact hrestore

theorem generatedFor_append {c c' : EglContext} {l : List ColorBufferPtr} {name : Nat}
    (h : g.generatedFor c name = some p) :
    generatedFor { g with generated := Function.update g.generated c' (g.generated c' ++ l) } c name =
      some p := by
  unfold generatedFor at h ⊢
  split_ifs at h ⊢
  by_cases hc : c = c'
  · subst hc
    simp only [Function.update_self]
    rw [List.getElem?_append_left (List.getElem?_eq_some_iff.mp h).1]
    exact h
  · simp only [Function.update_of_ne hc]
    exact h

theorem ownUses_gen (g : Gl) (t : ThreadId) (p : ColorBufferPtr) :
    OwnUses g (g.glGenFramebuffers t p).1 := by
  unfold glGenFramebuffers
  split
  · exact .refl g
  · exact ⟨fun _ _ _ => generatedFor_append, fun _ => Or.inl⟩

/-- In the helper context a new name belongs to the one it was generated for. -/
theorem held_gen (hc : g.context t = some .pbuf) (p : ColorBufferPtr) :
    (g.glGenFramebuffers t p).1.Held p (g.glGenFramebuffers t p).2 := by
  unfold glGenFramebuffers
  rw [hc]
  exact ⟨rfl, by simp [generatedFor]⟩

theorem ownUses_use {f : Framebuffer} (hc : g.context t = some .pbuf) (hf : g.Held p f) :
    OwnUses g (g.useFramebuffer t p f) := by
  refine ⟨fun _ _ _ => id, fun u hu => ?_⟩
  rcases List.mem_append.mp hu with hold | hnew
  · exact Or.inl hold
  · cases List.mem_singleton.mp hnew
    refine Or.inr ⟨.pbuf, hc, hf.1, fun ctx h => ?_, hf.2⟩
    cases h

theorem ownUses_delete (hc : ¬g.GuestCurrent t) (p : ColorBufferPtr) : OwnUses g (g.deleteObjects t p) := by
  refine ⟨fun _ _ _ => id, fun u hu => ?_⟩
  rcases List.mem_append.mp hu with hold | hnew
  · exact Or.inl hold
  · cases List.mem_singleton.mp hnew
    exact Or.inr fun ctx h => hc ⟨ctx, h⟩

theorem not_guestCurrent (hc : g.context t = some .pbuf) : ¬g.GuestCurrent t := by
  rintro ⟨ctx, h⟩
  rw [hc] at h
  cases h

/-! ## What is current afterwards -/

/-- The thread has the same context current as before, or the helper context. -/
def KeptOrHelper (t : ThreadId) (g g' : Gl) : Prop :=
  g'.context t = g.context t ∨ g'.context t = some .pbuf

theorem KeptOrHelper.refl (t : ThreadId) (g : Gl) : KeptOrHelper t g g := Or.inl rfl

theorem KeptOrHelper.trans (h1 : KeptOrHelper t g1 g2) (h2 : KeptOrHelper t g2 g3) : KeptOrHelper t g1 g3 := by
  rcases h2 with h2 | h2
  · unfold KeptOrHelper
    rw [h2]
    exact h1
  · exact Or.inr h2

theorem KeptOrHelper.not_guest (h : KeptOrHelper t g g') (hg : ¬g.GuestCurrent t) : ¬g'.GuestCurrent t := by
  rcases h with h | h
  · unfold GuestCurrent
    rw [h]
    exact hg
  · exact not_guestCurrent h

theorem KeptOrHelper.helper (h : KeptOrHelper t g g') (hg : g.context t = some .pbuf) :
    g'.context t = some .pbuf := by
  rcases h with h | h
  · exact h.trans hg
  · exact h

theorem context_bind (g : Gl) (t : ThreadId) : (g.bind_locked t true).context t = some .pbuf := by
  simp [context, bind_locked, bindSaved, eglMakeCurrent]

theorem NamesOnly.context (h : NamesOnly g g') (t : ThreadId) : g'.context t = g.context t := by
  unfold Gl.context
  rw [h.current]

/-- The scope gives back the context it found, or leaves its own behind. -/
theorem keptOrHelper_scope {β : Type} {body : Gl → Gl × β} (hbody : ∀ g, NamesOnly g (body g).1) (g : Gl)
    (t : ThreadId) (a : ScopeAnswers) : KeptOrHelper t g (g.scopedHelperContext t a body).1 := by
  unfold scopedHelperContext
  cases a.bind with
  | false => exact Or.inl ((hbody g).context t)
  | true =>
    have hn := hbody (g.bind_locked t true)
    have hprev : (body (g.bind_locked t true)).1.prev = g.current t := hn.prev
    have hctx := (hn.context t).trans (context_bind g t)
    cases a.unbind with
    | false => exact Or.inr hctx
    | true =>
      refine Or.inl ?_
      simp [Gl.context, unbind_locked, restore, eglMakeCurrent, hprev]

theorem scope_unbound {β : Type} (body : Gl → Gl × β) {a : ScopeAnswers} (hb : a.bind = false) :
    g.scopedHelperContext t a body = body g := by
  unfold scopedHelperContext
  rw [hb]
  rfl

/-- Code that uses its own objects in the helper context may run in the scope. What it says of its result
is still true after the scope. -/
theorem ownUses_scope {β : Type} {body : Gl → Gl × β} {a : ScopeAnswers} {Q : Gl → β → Prop}
    (hQ : ∀ g g' b, OwnUses g g' → Q g b → Q g' b) (hc : a.bind = true ∨ g.context t = some .pbuf)
    (hbody : ∀ g', OwnUses g g' → g'.context t = some .pbuf →
      OwnUses g' (body g').1 ∧ Q (body g').1 (body g').2) :
    OwnUses g (g.scopedHelperContext t a body).1 ∧
      Q (g.scopedHelperContext t a body).1 (g.scopedHelperContext t a body).2 := by
  cases hb : a.bind with
  | false =>
    rw [hb] at hc
    rw [scope_unbound body hb]
    exact hbody g (.refl g) (hc.resolve_left Bool.false_ne_true)
  | true =>
    have hbind : OwnUses g (g.bind_locked t true) := ownUses_bindSaved g t _ true
    obtain ⟨hown, hq⟩ := hbody _ hbind (context_bind g t)
    have hunbind := ownUses_unbind (body (g.bind_locked t true)).1 t a.unbind
    unfold scopedHelperContext
    rw [hb]
    exact ⟨(hbind.trans hown).trans hunbind, hQ _ _ _ hunbind hq⟩

/-! ## Colour buffers -/

/-- Every framebuffer name that the colour buffer at `p` holds is its own, and its resizer has its size. -/
structure HeldBy (g : Gl) (p : ColorBufferPtr) (c : ColorBuffer) : Prop where
  fbo : ∀ f, c.m_fbo = some f → g.Held p f
  width : g.Held p c.m_resizer.mFBWidth
  height : g.Held p c.m_resizer.mFBHeight
  size : c.m_resizer.mWidth = c.m_width ∧ c.m_resizer.mHeight = c.m_height

variable {c : ColorBuffer}

theorem HeldBy.mono (h : HeldBy g p c) (ho : OwnUses g g') : HeldBy g' p c :=
  ⟨fun f hf => (h.fbo f hf).mono ho, h.width.mono ho, h.height.mono ho, h.size⟩

theorem HeldBy.with_fbo {m_fbo : Option Framebuffer} (h : HeldBy g p c) (hf : ∀ f, m_fbo = some f → g.Held p f) :
    HeldBy g p { c with m_fbo } := ⟨hf, h.width, h.height, h.size⟩

theorem ownUses_bindFbo {fbo : Option Framebuffer} (hc : g.context t = some .pbuf)
    (hf : ∀ f, fbo = some f → g.Held p f) (complete : Bool) :
    OwnUses g (bindFbo g t p fbo complete).1 ∧
      ∀ f, (bindFbo g t p fbo complete).2 = some f → (bindFbo g t p fbo complete).1.Held p f := by
  have hbind : ∀ g1 f, OwnUses g g1 → g1.context t = some .pbuf → g1.Held p f →
      let out := if complete then (g1.useFramebuffer t p f, some f)
        else ((g1.useFramebuffer t p f).useFramebuffer t p f, none)
      OwnUses g out.1 ∧ ∀ f', out.2 = some f' → out.1.Held p f' := by
    intro g1 f ho hc1 hf1
    have huse := ownUses_use hc1 hf1
    have hheld := hf1.mono huse
    cases complete with
    | true =>
      refine ⟨ho.trans huse, fun f' h => ?_⟩
      cases Option.some.inj h
      exact hheld
    | false => exact ⟨(ho.trans huse).trans (ownUses_use hc1 hheld), fun f' h => nomatch h⟩
  cases fbo with
  | none =>
    exact hbind _ _ (ownUses_gen g t p) (((namesOnly_gen g t p).context t).trans hc) (held_gen hc p)
  | some f => exact hbind g f (.refl g) hc (hf f rfl)

/-- The two names of the resizer come one after the other. -/
theorem ownUses_resizeCreate (hc : g.context t = some .pbuf) (p : ColorBufferPtr) (width height : Nat) :
    OwnUses g (TextureResize.create g t p width height).1 ∧
      HeldBy (TextureResize.create g t p width height).1 p
        { m_width := width, m_height := height, m_fbo := none,
          m_resizer := (TextureResize.create g t p width height).2 } := by
  have h1 := ownUses_gen g t p
  have hc1 : (g.glGenFramebuffers t p).1.context t = some .pbuf := ((namesOnly_gen g t p).context t).trans hc
  have h2 := ownUses_gen (g.glGenFramebuffers t p).1 t p
  exact ⟨h1.trans h2, ⟨fun f h => (nomatch h), (held_gen hc p).mono h2, held_gen hc1 p, rfl, rfl⟩⟩

/-- The destructor of an unfinished object, which holds textures only. -/
theorem ownUses_cleanup {a : ScopeAnswers} (hc : a.bind = true ∨ ¬g.GuestCurrent t) (p : ColorBufferPtr) :
    OwnUses g (g.scopedHelperContext t a fun g => (g.deleteObjects t p, ())).1 := by
  cases hb : a.bind with
  | false =>
    rw [hb] at hc
    rw [scope_unbound _ hb]
    exact ownUses_delete (hc.resolve_left Bool.false_ne_true) p
  | true =>
    have hbody : ∀ g', OwnUses g g' → g'.context t = some .pbuf →
        OwnUses g' (g'.deleteObjects t p) ∧ True :=
      fun g' _ hc' => ⟨ownUses_delete (not_guestCurrent hc') p, trivial⟩
    exact (ownUses_scope (Q := fun _ _ => True) (fun _ _ _ _ => id) (Or.inl hb) hbody).1

theorem ownUses_create (p_width p_height : Int) (p_internalFormat : GLenum) {a : CreateAnswers}
    (ha : a.Safe g t) :
    OwnUses g (ColorBuffer.create g t p p_width p_height p_internalFormat a).1 ∧
      ∀ c, (ColorBuffer.create g t p p_width p_height p_internalFormat a).2 = some c →
        HeldBy (ColorBuffer.create g t p p_width p_height p_internalFormat a).1 p c := by
  unfold ColorBuffer.create
  split
  · exact ⟨.refl g, fun c h => nomatch h⟩
  cases hb : a.scope.bind with
  | false =>
    rw [scope_unbound _ hb, scope_unbound _ hb]
    split
    · exact ⟨.refl g, fun c h => nomatch h⟩
    · exact ⟨.refl g, fun c h => nomatch h⟩
  | true =>
    split
    · refine ownUses_scope (Q := fun g c => ∀ c', c = some c' → HeldBy g p c')
        (fun g g' c ho h c' hc' => (h c' hc').mono ho) (Or.inl hb) fun g' _ hc' => ?_
      obtain ⟨hown, hheld⟩ := ownUses_resizeCreate hc' p p_width.toNat p_height.toNat
      refine ⟨hown, fun c h => ?_⟩
      cases Option.some.inj h
      exact hheld
    · rename_i hallocate
      have hscope : OwnUses g (g.scopedHelperContext t a.scope fun g => (g, ())).1 :=
        (ownUses_scope (Q := fun _ _ => True) (fun _ _ _ _ => id) (Or.inl hb)
          fun g' _ _ => ⟨.refl g', trivial⟩).1
      have hkept : KeptOrHelper t g (g.scopedHelperContext t a.scope fun g => (g, ())).1 :=
        keptOrHelper_scope (fun g => .refl g) g t a.scope
      have hcleanup := (ha hb).resolve_left hallocate
      exact ⟨hscope.trans (ownUses_cleanup (hcleanup.imp_right hkept.not_guest) p), fun c h => nomatch h⟩

theorem ownUses_resizeDestroy {r : TextureResize} (hc : g.context t = some .pbuf) (hw : g.Held p r.mFBWidth)
    (hh : g.Held p r.mFBHeight) : OwnUses g (r.destroy g t p) := by
  have h1 := ownUses_use hc hw
  have hc1 : (g.useFramebuffer t p r.mFBWidth).context t = some .pbuf := hc
  have h2 := ownUses_use hc1 (hh.mono h1)
  have hc2 : ((g.useFramebuffer t p r.mFBWidth).useFramebuffer t p r.mFBHeight).context t = some .pbuf := hc
  exact (h1.trans h2).trans (ownUses_delete (not_guestCurrent hc2) p)

/-- The destructor needs the helper context. -/
theorem ownUses_destroy {a : ScopeAnswers} (hh : HeldBy g p c) (hc : a.bind = true ∨ g.context t = some .pbuf) :
    OwnUses g (c.destroy g t p a) := by
  refine (ownUses_scope (Q := fun _ _ => True) (fun _ _ _ _ => id) hc fun g' ho hc' => ⟨?_, trivial⟩).1
  have hh' := hh.mono ho
  cases hf : c.m_fbo with
  | none =>
    have hdelete := ownUses_delete (not_guestCurrent hc') p
    exact hdelete.trans (ownUses_resizeDestroy hc' (hh'.width.mono hdelete) (hh'.height.mono hdelete))
  | some f =>
    have huse := ownUses_use hc' (hh'.fbo f hf)
    have hc1 : (g'.useFramebuffer t p f).context t = some .pbuf := hc'
    have hdelete := ownUses_delete (not_guestCurrent hc1) p
    have hboth := huse.trans hdelete
    exact hboth.trans (ownUses_resizeDestroy hc' (hh'.width.mono hboth) (hh'.height.mono hboth))

theorem ownUses_withFbo (hh : HeldBy g p c) (a : ScopeAnswers) (complete : Bool) :
    OwnUses g (c.withFbo g t p a complete).1 ∧
      HeldBy (c.withFbo g t p a complete).1 p (c.withFbo g t p a complete).2 := by
  unfold ColorBuffer.withFbo
  cases hb : a.bind with
  | false =>
    rw [scope_unbound _ hb]
    exact ⟨.refl g, hh⟩
  | true =>
    refine ownUses_scope (Q := fun g c => HeldBy g p c) (fun g g' c ho h => h.mono ho) (Or.inl hb)
      fun g' ho hc' => ?_
    have hh' := hh.mono ho
    obtain ⟨hown, hfbo⟩ := ownUses_bindFbo hc' hh'.fbo complete
    exact ⟨hown, (hh'.mono hown).with_fbo hfbo⟩

theorem ownUses_readPixels (hh : HeldBy g p c) (x y width height : Int) (pixels : Bool) (a : ScopeAnswers)
    (complete : Bool) :
    OwnUses g (c.readPixels g t p x y width height pixels a complete).1 ∧
      HeldBy (c.readPixels g t p x y width height pixels a complete).1 p
        (c.readPixels g t p x y width height pixels a complete).2 := by
  unfold ColorBuffer.readPixels
  split
  · exact ownUses_withFbo hh a complete
  · exact ⟨.refl g, hh⟩

theorem ownUses_subUpdate (g : Gl) (t : ThreadId) (c : ColorBuffer) (x y width height : Int) (pixels : Bool)
    (a : ScopeAnswers) : OwnUses g (c.subUpdate g t x y width height pixels a) := by
  unfold ColorBuffer.subUpdate
  split
  · cases hb : a.bind with
    | false =>
      rw [scope_unbound _ hb]
      exact .refl g
    | true =>
      exact (ownUses_scope (Q := fun _ _ => True) (fun _ _ _ _ => id) (Or.inl hb)
        fun g' _ _ => ⟨.refl g', trivial⟩).1
  · exact .refl g

theorem ownUses_blit (hh : HeldBy g p c) (currContext : Bool) (a : ScopeAnswers) (complete : Bool) :
    OwnUses g (c.blitFromCurrentReadBuffer g t p currContext a complete).1 ∧
      HeldBy (c.blitFromCurrentReadBuffer g t p currContext a complete).1 p
        (c.blitFromCurrentReadBuffer g t p currContext a complete).2 := by
  unfold ColorBuffer.blitFromCurrentReadBuffer
  split
  · exact ownUses_withFbo hh a complete
  · exact ⟨.refl g, hh⟩

theorem ownUses_flush {w : WindowSurface} (hh : HeldBy g p c) (currContext : Bool) (a : FlushAnswers) :
    OwnUses g (w.flushColorBuffer g t p c currContext a).1 ∧
      HeldBy (w.flushColorBuffer g t p c currContext a).1 p
        (w.flushColorBuffer g t p c currContext a).2 := by
  unfold WindowSurface.flushColorBuffer
  split
  · exact ⟨.refl g, hh⟩
  split
  · exact ⟨.refl g, hh⟩
  split
  · exact ⟨.refl g, hh⟩
  · rename_i ctx hctx
    have hmake := ownUses_make g t ⟨some (.guest ctx), w.mSurface, w.mSurface⟩ a.bind
    dsimp only
    split
    · obtain ⟨hblit, hheld⟩ := ownUses_blit (t := t) (hh.mono hmake) currContext a.scope a.complete
      have hrestore := ownUses_restore
        (c.blitFromCurrentReadBuffer (g.eglMakeCurrent t ⟨some (.guest ctx), w.mSurface, w.mSurface⟩ a.bind)
          t p currContext a.scope a.complete).1 t (g.current t) (g.unrestored t) a.restore
      exact ⟨(hmake.trans hblit).trans hrestore, hheld.mono hrestore⟩
    · exact ⟨hmake, hh.mono hmake⟩

/-! ## Scaling -/

theorem update_idle {r : TextureResize} {vport : Size} {a : ResizeAnswers} (h : r.Idle vport a) :
    r.update g t p vport a = (g, r) := by
  unfold TextureResize.update
  split
  · rfl
  · rename_i hfactor
    obtain ⟨hne, hallocate⟩ := h.resolve_left hfactor
    simp [TextureResize.setupFramebuffers, hne, hallocate]

theorem bind_idle {vport : Size} {a : ResizeAnswers} (h : c.m_resizer.Idle vport a) :
    c.bind g t p vport a = (g, c) := by
  unfold ColorBuffer.bind
  rw [update_idle h]

/-- A colour buffer is not scaled for a viewport of its own size. -/
theorem factor_self (r : TextureResize) : r.factor (r.mWidth, r.mHeight) = 1 := by
  unfold TextureResize.factor TextureResize.calculateFactor
  simp only [Nat.cast_lt, bne_self_eq_false, Bool.false_eq_true, if_false]
  split
  · rfl
  · rename_i hpos
    unfold TextureResize.MAX_FACTOR_POWER TextureResize.factorLoop
    refine if_neg fun h => ?_
    dsimp only at hpos h
    omega

theorem ownUses_snapshotFrom {source : ColorBuffer} {psource : ColorBufferPtr} (hh : HeldBy g p c)
    (hs : HeldBy g psource source) (a : ScopeAnswers) (complete : Bool) (r : ResizeAnswers) :
    OwnUses g (c.snapshotFrom g t p source psource a complete r).1 ∧
      HeldBy (c.snapshotFrom g t p source psource a complete r).1 p
        (c.snapshotFrom g t p source psource a complete r).2.1 ∧
      (c.snapshotFrom g t p source psource a complete r).2.2 = source := by
  unfold ColorBuffer.snapshotFrom
  split
  · exact ⟨.refl g, hh, rfl⟩
  rename_i hsize
  have hidle : source.m_resizer.Idle (c.m_width, c.m_height) r := by
    rw [not_or, not_not, not_not] at hsize
    rw [← hsize.1, ← hsize.2, ← hs.size.1, ← hs.size.2]
    exact Or.inl (factor_self _)
  cases hb : a.bind with
  | false =>
    rw [scope_unbound _ hb]
    exact ⟨.refl g, hh, rfl⟩
  | true =>
    refine ownUses_scope (Q := fun g (out : ColorBuffer × ColorBuffer) => HeldBy g p out.1 ∧ out.2 = source)
      (fun g g' out ho h => ⟨h.1.mono ho, h.2⟩) (Or.inl hb) fun g' ho hc' => ?_
    have hh' := hh.mono ho
    obtain ⟨hown, hfbo⟩ := ownUses_bindFbo hc' hh'.fbo complete
    have hheld := (hh'.mono hown).with_fbo hfbo
    dsimp only
    rw [bind_idle hidle]
    cases complete with
    | true => exact ⟨hown, hheld, rfl⟩
    | false => exact ⟨hown, hheld, rfl⟩

theorem scopeRel_keptOrHelper (t : ThreadId) : ScopeRel t (KeptOrHelper t) :=
  ⟨.refl t, .trans, fun hbody g a => keptOrHelper_scope hbody g t a⟩

end Gl

namespace GlWorld

open Gl

variable {s s' : GlWorld} {a : DestroyAnswers}

/-! ## The invariant -/

/-- All uses so far hit their own objects, and colour buffers hold no names but their own. -/
structure NamesOk (s : GlWorld) : Prop where
  owned : s.NamesOwned
  held : ∀ p c, s.colorBuffers.find? p = some c → s.gl.HeldBy p c

theorem NamesOk.update (hs : s.NamesOk) (ho : OwnUses s.gl s'.gl)
    (hb : ∀ p c, s'.colorBuffers.find? p = some c →
      s.colorBuffers.find? p = some c ∨ s'.gl.HeldBy p c) : s'.NamesOk := by
  refine ⟨ho.all hs.owned, fun p c hc => ?_⟩
  rcases hb p c hc with hold | hnew
  · exact (hs.held p c hold).mono ho
  · exact hnew

theorem NamesOk.same (hs : s.NamesOk) (ho : OwnUses s.gl s'.gl) (hb : s'.colorBuffers = s.colorBuffers) :
    s'.NamesOk :=
  hs.update ho fun p c hc => Or.inl (by rw [← hb]; exact hc)

theorem NamesOk.insert {gl : Gl} {c : ColorBuffer} (hs : s.NamesOk) (ho : OwnUses s.gl gl)
    (hc : gl.HeldBy p c) : NamesOk { s with gl, colorBuffers := s.colorBuffers.insert p c } := by
  refine hs.update ho fun q d hd => ?_
  have hd' : (s.colorBuffers.insert p c).find? q = some d := hd
  rw [find?_insert] at hd'
  split_ifs at hd' with hq
  · cases Option.some.inj hd'
    exact Or.inr (hq ▸ hc)
  · exact Or.inl hd'

theorem DestroysSafely.kept (hd : s.DestroysSafely t a) (h : KeptOrHelper t s.gl s'.gl) :
    s'.DestroysSafely t a := fun p => (hd p).imp_right h.helper

/-! ## Destructors -/

theorem NamesOk.collectOne {e : ColorBufferPtr × ColorBuffer} (hs : s.NamesOk) (he : s.gl.HeldBy e.1 e.2)
    (hd : s.DestroysSafely t a) :
    (GlWorld.collectOne t a s e).NamesOk ∧ OwnUses s.gl (GlWorld.collectOne t a s e).gl ∧
      KeptOrHelper t s.gl (GlWorld.collectOne t a s e).gl := by
  unfold GlWorld.collectOne
  split
  · exact ⟨hs, .refl _, .refl t _⟩
  · have ho : OwnUses s.gl (e.2.destroy s.gl t e.1 (a e.1)) := ownUses_destroy he (hd e.1)
    refine ⟨hs.update ho fun p c hc => ?_, ho, (scopeRel_keptOrHelper t).destroy e.2 s.gl e.1 (a e.1)⟩
    exact Or.inl (find?_of_erase hc).2

/-- The colour buffers that are still to come hold their own names all the while. -/
theorem NamesOk.collect (hs : s.NamesOk) (hd : s.DestroysSafely t a) : (s.collect t a).NamesOk := by
  have hfold : ∀ (l : List (ColorBufferPtr × ColorBuffer)) (s : GlWorld), s.NamesOk →
      s.DestroysSafely t a → (∀ e ∈ l, s.gl.HeldBy e.1 e.2) → (l.foldl (GlWorld.collectOne t a) s).NamesOk := by
    intro l
    induction l with
    | nil => exact fun s hs _ _ => hs
    | cons e l ih =>
      intro s hs hd hl
      obtain ⟨hs1, ho, hkept⟩ := hs.collectOne (hl e List.mem_cons_self) hd
      exact ih _ hs1 (hd.kept hkept) fun e' he' => (hl e' (List.mem_cons_of_mem e he')).mono ho
  refine hfold _ s hs hd fun e he => hs.held e.1 e.2 ?_
  exact find?_eq_some_iff.mpr he

theorem modifyWindow_objects (s : GlWorld) (p : WindowSurfacePtr) (f : WindowSurface → WindowSurface) :
    (s.modifyWindow p f).gl = s.gl ∧ (s.modifyWindow p f).colorBuffers = s.colorBuffers := by
  unfold modifyWindow
  split
  · exact ⟨rfl, rfl⟩
  · exact ⟨rfl, rfl⟩

theorem bindSurfaces_objects (s : GlWorld) (ctx : Option RenderContextPtr)
    (draw read : Option WindowSurfacePtr) :
    (s.bindSurfaces ctx draw read).gl = s.gl ∧
      (s.bindSurfaces ctx draw read).colorBuffers = s.colorBuffers := by
  unfold bindSurfaces
  split
  · split
    · rw [(modifyWindow_objects _ _ _).1, (modifyWindow_objects _ _ _).2]
      exact modifyWindow_objects _ _ _
    · exact modifyWindow_objects _ _ _
  · exact ⟨rfl, rfl⟩

/-- `bindContext` succeeds only when EGL makes the context current. -/
theorem bindContext_ok {w w' : World} {c d rd : HandleType} {ok : Bool}
    (h : w.step (.bindContext t c d rd ok) = some (w', .flag true)) : ok = true := by
  obtain ⟨tinfo, -, h⟩ := World.onThread_some h
  cases ok with
  | true => rfl
  | false =>
    exfalso
    have hflag : Reply.flag (w.renderer.bindContext tinfo w.now c d rd false).1 = .flag true :=
      congrArg Prod.snd (Option.some.inj h)
    have hfalse : (w.renderer.bindContext tinfo w.now c d rd false).1 = false := by
      unfold Renderer.bindContext
      dsimp only
      split
      · split
        · rfl
        · rfl
      · rfl
    rw [hfalse] at hflag
    cases hflag

theorem NamesOk.bindReaped {c d rd : HandleType} {ok : Bool} (hs : s.NamesOk)
    (hd : ok = true → ∀ p, (a p).bind = true) (h : s.bindReaped t c d rd ok a = some s') : s'.NamesOk := by
  obtain ⟨⟨world, rep⟩, hstep, h⟩ := Option.bind_eq_some_iff.mp h
  obtain ⟨old, -, h⟩ := Option.bind_eq_some_iff.mp h
  obtain ⟨tinfo, -, rfl⟩ := Option.map_eq_some_iff.mp h
  have hbound : NamesOk { s with gl := s.gl.bindGuest t (s.bindingOf tinfo) } :=
    hs.same (.of_eq rfl rfl) rfl
  have hobjects : ∀ draw read, NamesOk
      { bindSurfaces { s with gl := s.gl.bindGuest t (s.bindingOf tinfo) } tinfo.currContext draw read with
        world } := by
    intro draw read
    obtain ⟨hgl, hcb⟩ := bindSurfaces_objects { s with gl := s.gl.bindGuest t (s.bindingOf tinfo) }
      tinfo.currContext draw read
    exact hbound.same (.of_eq (by rw [hgl]) (by rw [hgl])) hcb
  dsimp only
  split
  · rename_i hrep
    subst hrep
    have hbind := hd (bindContext_ok hstep)
    split
    · exact (hobjects _ _).collect fun p => Or.inl (hbind p)
    · exact (hobjects _ _).collect fun p => Or.inl (hbind p)
  · exact hs.same (.refl _) rfl

/-! ## Window surfaces -/

theorem ownUses_windowResize (w : WindowSurface) (g : Gl) (t : ThreadId) (width height : Nat)
    (a : PbufferAnswers) : OwnUses g (w.resize g t width height a).1 := by
  unfold WindowSurface.resize
  split
  · exact .refl g
  · have hunbind : OwnUses g
        (if w.needRebindContext (g.current t) then g.eglMakeCurrent t {} a.unbind else g) := by
      split
      · exact ownUses_make g t {} a.unbind
      · exact .refl g
    dsimp only
    generalize (if w.needRebindContext (g.current t) then g.eglMakeCurrent t {} a.unbind else g) = g1 at hunbind
    split
    · have hcreate : OwnUses g g1.createSurface.2 := hunbind.trans (.of_eq rfl rfl)
      split
      · exact hcreate.trans (ownUses_restore _ t _ (g.unrestored t) a.rebind)
      · exact hcreate
    · exact hunbind

theorem NamesOk.resizeWindow (hs : s.NamesOk) (p : WindowSurfacePtr) (width height : Nat)
    (a : PbufferAnswers) : (s.resizeWindow t p width height a).NamesOk := by
  unfold GlWorld.resizeWindow
  split
  · exact hs
  · rename_i w hw
    split
    · exact hs.same (ownUses_windowResize w s.gl t width height a) rfl
    · exact hs

theorem NamesOk.setColorBuffer (hs : s.NamesOk) (hd : s.DestroysSafely t a) (p : WindowSurfacePtr)
    (cb : Option ColorBufferPtr) (b : PbufferAnswers) : (s.setColorBuffer t p cb a b).NamesOk := by
  obtain ⟨hgl, hcb⟩ := modifyWindow_objects s p fun w => { w with mAttachedColorBuffer := cb }
  unfold GlWorld.setColorBuffer
  dsimp only
  generalize (s.modifyWindow p fun w => { w with mAttachedColorBuffer := cb }) = s1 at hgl hcb
  have hs1 : s1.NamesOk := hs.same (.of_eq (by rw [hgl]) (by rw [hgl])) hcb
  have hcollect : (s1.collect t a).NamesOk := hs1.collect (hd.kept (Or.inl (by rw [hgl])))
  split
  · exact hcollect
  · exact hcollect.resizeWindow p _ _ b

theorem NamesOk.setWindow {ps pc : HandleType} {b : PbufferAnswers} (hs : s.NamesOk)
    (hd : s.DestroysSafely t a) (h : s.setWindowSurfaceColorBuffer t ps pc a b = some s') : s'.NamesOk := by
  obtain ⟨⟨world, rep⟩, -, rfl⟩ := Option.map_eq_some_iff.mp h
  have hs1 : NamesOk { s with world } := hs.same (.refl _) rfl
  have hd1 : DestroysSafely { s with world } t a := hd
  dsimp only
  generalize (if pc = 0 then none
    else (world.renderer.m_colorbuffers.find? pc).map ColorBufferRef.cb) = new
  split
  · exact hs1.collect hd1
  · split
    · exact hs1.collect hd1
    · exact hs1.setColorBuffer hd1 _ _ b

theorem NamesOk.createWindowSurface {cfg pw ph : Int} {b : PbufferAnswers} (hs : s.NamesOk)
    (h : s.createWindowSurface t cfg pw ph b = some s') : s'.NamesOk := by
  obtain ⟨⟨world, rep⟩, -, rfl⟩ := Option.map_eq_some_iff.mp h
  have ho := ownUses_windowResize {} s.gl t (toUnsigned pw) (toUnsigned ph) b
  dsimp only
  split
  · split
    · exact hs.same ho rfl
    · exact hs.same ho rfl
  · exact hs.same (.refl _) rfl

theorem NamesOk.flush (hs : s.NamesOk) (t : ThreadId) (ps : HandleType) (b : FlushAnswers) :
    (s.flushWindowSurfaceColorBuffer t ps b).NamesOk := by
  unfold flushWindowSurfaceColorBuffer
  dsimp only
  split
  · rename_i w p c hw hattached
    obtain ⟨q, -, hmap⟩ := Option.bind_eq_some_iff.mp hattached
    obtain ⟨d, hfind, he⟩ := Option.map_eq_some_iff.mp hmap
    cases he
    obtain ⟨ho, hheld⟩ := ownUses_flush (t := t) (w := w) (hs.held p c hfind)
      ((s.world.threads.find? t).bind RenderThreadInfo.currContext).isSome b
    exact hs.insert ho hheld
  · exact hs

/-! ## Colour buffers -/

theorem findColorBuffer_find {h : HandleType} {c : ColorBuffer} (hf : s.findColorBuffer h = some (p, c)) :
    s.colorBuffers.find? p = some c := by
  obtain ⟨ref, -, hmap⟩ := Option.bind_eq_some_iff.mp hf
  obtain ⟨d, hfind, he⟩ := Option.map_eq_some_iff.mp hmap
  cases he
  exact hfind

theorem NamesOk.onColorBuffer {h : HandleType} {f : ColorBufferPtr → ColorBuffer → Gl × ColorBuffer}
    (hs : s.NamesOk)
    (hf : ∀ p c, s.gl.HeldBy p c → OwnUses s.gl (f p c).1 ∧ (f p c).1.HeldBy p (f p c).2) :
    (s.onColorBuffer h f).NamesOk := by
  unfold GlWorld.onColorBuffer
  split
  · exact hs
  · rename_i p c hfind
    obtain ⟨ho, hheld⟩ := hf p c (hs.held p c (findColorBuffer_find hfind))
    exact hs.insert ho hheld

theorem NamesOk.createColorBuffer {pw ph : Int} {fmt : GLenum} {b : CreateAnswers} (hs : s.NamesOk)
    (hb : b.Safe s.gl t) (h : s.createColorBuffer t pw ph fmt b = some s') : s'.NamesOk := by
  obtain ⟨⟨world, rep⟩, -, rfl⟩ := Option.map_eq_some_iff.mp h
  obtain ⟨ho, hheld⟩ := ownUses_create (p := s.world.nextPtr) pw ph fmt hb
  dsimp only
  split
  · split
    · exact hs.same ho rfl
    · rename_i c hc
      have hs1 : NamesOk { s with world } := hs.same (.refl _) rfl
      exact hs1.insert ho (hheld c hc)
  · exact hs.same (.refl _) rfl

/-! ## Frames -/

theorem Safe.kept {b : CreateAnswers} (hb : b.Safe g t) (h : KeptOrHelper t g g') : b.Safe g' t :=
  fun hbind => (hb hbind).imp_right (Or.imp_right h.not_guest)

/-- One round keeps the invariant and the context. -/
theorem NamesOk.snapshot {b : SnapshotAnswers} (hs : s.NamesOk) (hb : b.create.Safe s.gl t)
    (p : ColorBufferPtr) (source : ColorBufferRef) :
    (s.snapshot t p source b).NamesOk ∧ KeptOrHelper t s.gl (s.snapshot t p source b).gl := by
  obtain ⟨ho, hheld⟩ := ownUses_create (p := p) source.width source.height source.format hb
  have hkept := (scopeRel_keptOrHelper t).create s.gl p source.width source.height source.format b.create
  unfold GlWorld.snapshot
  generalize ColorBuffer.create s.gl t p source.width source.height source.format b.create = out at *
  obtain ⟨gl, made⟩ := out
  dsimp only at ho hheld hkept ⊢
  split
  · rename_i c src hfind
    have hsrc := (hs.held source.cb src hfind).mono ho
    obtain ⟨ho', hheld', hsame⟩ := ownUses_snapshotFrom (t := t) (hheld c rfl) hsrc b.scope b.complete b.resize
    have hkept' := (scopeRel_keptOrHelper t).snapshotFrom c gl p src source.cb b.scope b.complete b.resize
    generalize c.snapshotFrom gl t p src source.cb b.scope b.complete b.resize = out at *
    obtain ⟨gl', c', src'⟩ := out
    subst hsame
    exact ⟨(hs.insert (ho.trans ho') hheld').insert (.refl _) (hsrc.mono ho'), hkept.trans hkept'⟩
  · rename_i c hfind
    exact ⟨hs.insert ho (hheld c rfl), hkept⟩
  · exact ⟨hs.same ho rfl, hkept⟩

theorem NamesOk.snapshotLoop {b : HandleType → SnapshotAnswers} (l : List Renderable) :
    ∀ (s : GlWorld) (st : Renderer.RetainState), s.NamesOk → (∀ h, (b h).create.Safe s.gl t) →
      (GlWorld.snapshotLoop t b s st l).NamesOk ∧ KeptOrHelper t s.gl (GlWorld.snapshotLoop t b s st l).gl := by
  induction l with
  | nil => exact fun s st hs _ => ⟨hs, .refl t _⟩
  | cons r l ih =>
    intro s st hs hb
    unfold GlWorld.snapshotLoop
    split
    · exact ih s st hs hb
    · exact ⟨hs, .refl t _⟩
    · rename_i source bytes hcheck
      obtain ⟨hs1, hkept⟩ := hs.snapshot (hb r.buffer) st.nextPtr source
      dsimp only
      split
      · split
        · exact ⟨hs1, hkept⟩
        · obtain ⟨hs2, hkept'⟩ := ih (s.snapshot t st.nextPtr source (b r.buffer)) _ hs1
            fun h => Safe.kept (hb h) hkept
          exact ⟨hs2, hkept.trans hkept'⟩
      · exact ⟨hs1, hkept⟩

theorem NamesOk.retain_frame {l : List Renderable} {b : HandleType → SnapshotAnswers} (hs : s.NamesOk)
    (hb : ∀ h, (b h).create.Safe s.gl t) (hd : s.DestroysSafely t a) (h : s.retain_frame t l b a = some s') :
    s'.NamesOk := by
  obtain ⟨⟨world, rep⟩, -, rfl⟩ := Option.map_eq_some_iff.mp h
  obtain ⟨hs1, hkept⟩ := NamesOk.snapshotLoop l s
    { renderer := s.world.renderer, nextPtr := s.world.nextPtr } hs hb
  have hs2 : NamesOk { GlWorld.snapshotLoop t b s
      { renderer := s.world.renderer, nextPtr := s.world.nextPtr } l with world } := hs1.same (.refl _) rfl
  exact hs2.collect (hd.kept hkept)

/-! ## Host windows -/

theorem NamesOk.createNativeWindow (hs : s.NamesOk) (t : ThreadId) (native_window : NativeWindow)
    (create bind restore : Bool) : (s.createNativeWindow t native_window create bind restore).NamesOk := by
  unfold GlWorld.createNativeWindow
  split
  · exact hs
  · cases create with
    | false => exact hs
    | true =>
      have hsurface : OwnUses s.gl s.gl.createSurface.2 := .of_eq rfl rfl
      have hbind := hsurface.trans (ownUses_bindSaved _ t
        ⟨some .presentation, some s.gl.nextSurface, some s.gl.nextSurface⟩ bind)
      cases bind with
      | false => exact hs.same hbind rfl
      | true => exact hs.same (hbind.trans (ownUses_unbind _ t restore)) rfl

theorem NamesOk.recreate (hs : s.NamesOk) (t : ThreadId) (native_window : NativeWindow)
    (unbind create : Bool) : (s.recreateWindowSurfaceLocked t native_window unbind create).2.NamesOk := by
  have hunbind := ownUses_make s.gl t {} unbind
  unfold recreateWindowSurfaceLocked
  cases create with
  | false => exact hs.same hunbind rfl
  | true => exact hs.same (hunbind.trans (.of_eq rfl rfl)) rfl

theorem onColorBuffer_same {h : HandleType} {f : ColorBufferPtr → ColorBuffer → Gl × ColorBuffer}
    (hf : ∀ p c, s.findColorBuffer h = some (p, c) → f p c = (s.gl, c)) : s.onColorBuffer h f = s := by
  unfold GlWorld.onColorBuffer
  split
  · rfl
  · rename_i p c hfind
    rw [hf p c hfind, insert_of_find? (findColorBuffer_find hfind)]

theorem drawRenderables_idle {vport : Size} {b : Nat → ResizeAnswers} (l : List Renderable) :
    ∀ n, (∀ k r p c, l[k]? = some r → s.findColorBuffer r.buffer = some (p, c) →
      c.m_resizer.Idle vport (b (n + k))) → drawRenderables t vport b s n l = s := by
  induction l with
  | nil => exact fun n _ => rfl
  | cons r l ih =>
    intro n h
    have hfirst : (s.onColorBuffer r.buffer fun p c => c.bind s.gl t p vport (b n)) = s :=
      onColorBuffer_same fun p c hfind => bind_idle (h 0 r p c rfl hfind)
    unfold drawRenderables
    rw [hfirst]
    refine ih (n + 1) fun k r' p c hk hfind => ?_
    have hidle := h (k + 1) r' p c (by simpa using hk) hfind
    rwa [← Nat.add_assoc, Nat.add_right_comm] at hidle

/-- Such a frame leaves all colour buffers as they are. -/
theorem drawLayers_plain {surface : Size} {l : List Renderable} {external : Option (Size × Size)}
    {b : DrawCalls} (h : s.DrawsPlainly (drawViewport surface l external) l external b) :
    s.drawLayers t surface l external b =
      { s with presentation_sample_counter := (s.presentation_sample_counter + 1) % 2 ^ 32 } := by
  obtain ⟨hidle, hsample⟩ := h
  have hlayers : (if external.isSome then
      { s with presentation_sample_counter := (s.presentation_sample_counter + 1) % 2 ^ 32 }
      else drawRenderables t (drawViewport surface l external) b.resize
        { s with presentation_sample_counter := (s.presentation_sample_counter + 1) % 2 ^ 32 } 0 l) =
      { s with presentation_sample_counter := (s.presentation_sample_counter + 1) % 2 ^ 32 } := by
    split
    · rfl
    · rename_i hext
      refine drawRenderables_idle l 0 fun k r p c hk hfind => ?_
      rw [Nat.zero_add]
      exact hidle (Option.not_isSome_iff_eq_none.mp hext) k r p c hk hfind
  unfold drawLayers
  dsimp only
  rw [hlayers]
  cases l with
  | nil => rfl
  | cons r l =>
    dsimp only
    split
    · rename_i hs
      refine onColorBuffer_same fun p c hfind => ?_
      have hnone : s.findColorBuffer r.buffer = none := hsample hs r rfl
      have hsome : none = some (p, c) := hnone.symm.trans hfind
      cases hsome
    · rfl

theorem NamesOk.drawBound {native_window : NativeWindow} {l : List Renderable}
    {external : Option (Size × Size)} {b : DrawCalls} (hs : s.NamesOk)
    (hb : ∀ surface, b.answers.query = some surface → surface.Positive →
      s.DrawsPlainly (drawViewport surface l external) l external b) :
    (s.drawBound t native_window l external b).NamesOk := by
  have hunbind : ∀ s : GlWorld, s.NamesOk → NamesOk { s with gl := s.gl.unbind_locked t b.restore } :=
    fun s hs => hs.same (ownUses_unbind s.gl t b.restore) rfl
  unfold GlWorld.drawBound
  split
  · exact hunbind s hs
  · rename_i surface hquery
    split
    · rename_i hpos
      dsimp only
      rw [drawLayers_plain (hb surface hquery hpos)]
      have hdrawn := hunbind
        { s with presentation_sample_counter := (s.presentation_sample_counter + 1) % 2 ^ 32 }
        (hs.same (.refl _) rfl)
      split
      · exact hdrawn.recreate t native_window _ _
      · exact hdrawn
    · exact hunbind s hs

theorem NamesOk.draw {native_window : NativeWindow} {l : List Renderable} {external : Option (Size × Size)}
    {b : DrawCalls} (hs : s.NamesOk) (hc : s.KeepsNames (.draw t native_window l external b)) :
    (s.draw t native_window l external b).NamesOk := by
  unfold GlWorld.draw
  split
  · exact hs
  · rename_i surface hfind
    have hplain := hc (mem_of_find? hfind)
    have hbind : NamesOk { s with gl := s.gl.bindWindow_locked t surface b.answers.bind } :=
      hs.same (ownUses_bindSaved s.gl t _ b.answers.bind) rfl
    dsimp only
    split
    · rename_i hok
      exact hbind.drawBound (hplain (Or.inl hok))
    · have hrecreated := hbind.recreate t native_window b.unbind b.answers.recreation.created
      unfold recreateWindowSurfaceLocked at hrecreated ⊢
      cases hcreated : b.answers.recreation.created with
      | false =>
        rw [hcreated] at hrecreated
        exact hrecreated
      | true =>
        simp only [hcreated, if_true, Option.isSome_some] at hrecreated ⊢
        split
        · rename_i hok
          exact NamesOk.drawBound (hrecreated.same (ownUses_bindSaved _ t _ b.answers.bindAgain) rfl)
            (hplain (Or.inr ⟨hcreated, hok⟩))
        · exact hrecreated.same (ownUses_bindSaved _ t _ b.answers.bindAgain) rfl

/-! ## Runs -/

theorem NamesOk.tables {op : Op} (hs : s.NamesOk) (hd : s.DestroysSafely t a)
    (h : s.step (.tables t op a) = some s') : s'.NamesOk := by
  simp only [step] at h
  split_ifs at h
  obtain ⟨⟨world, rep⟩, -, rfl⟩ := Option.map_eq_some_iff.mp h
  have hs1 : NamesOk { s with world } := hs.same (.refl _) rfl
  exact hs1.collect hd

theorem NamesOk.start (hs : s.NamesOk) (h : s.step (.startThread t) = some s') : s'.NamesOk := by
  obtain ⟨⟨world, rep⟩, -, rfl⟩ := Option.map_eq_some_iff.mp h
  exact hs.same (.of_eq rfl rfl) rfl

/-- Every step that meets the condition uses names only where they were generated. -/
theorem NamesOk.step {op : GlOp} (hs : s.NamesOk) (hc : s.KeepsNames op) (h : s.step op = some s') :
    s'.NamesOk := by
  cases op with
  | tables t op destroyed => exact hs.tables hc h
  | startThread t => exact hs.start h
  | createColorBuffer t pw ph fmt b => exact hs.createColorBuffer hc h
  | createWindowSurface t cfg pw ph b => exact hs.createWindowSurface h
  | bindContext t c d rd ok reaped replaced =>
    have hreap : NamesOk { s with world := { s.world with
        renderer := s.world.renderer.reapDeferredResourcesLocked s.world.now } } := hs.same (.refl _) rfl
    exact (hreap.collect hc.1).bindReaped hc.2 h
  | setWindowSurfaceColorBuffer t ps pc destroyed b => exact hs.setWindow hc h
  | flushWindowSurfaceColorBuffer t ps b =>
    cases h
    exact hs.flush t ps b
  | readColorBuffer t pc x y width height pixels b complete =>
    cases h
    exact hs.onColorBuffer fun p c hheld => ownUses_readPixels hheld x y width height pixels b complete
  | updateColorBuffer t pc x y width height pixels b =>
    cases h
    refine hs.onColorBuffer fun p c hheld => ?_
    have ho := ownUses_subUpdate s.gl t c x y width height pixels b
    exact ⟨ho, hheld.mono ho⟩
  | retain_frame t l b destroyed => exact hs.retain_frame hc.1 hc.2 h
  | createNativeWindow t nw create bind restore =>
    cases h
    exact hs.createNativeWindow t nw create bind restore
  | draw t nw l external b =>
    cases h
    exact hs.draw hc

theorem namesOk_init (configs : Nat) (pbufSurface : Option EglSurface) :
    (glMachine configs pbufSurface).init.NamesOk := by
  refine ⟨fun u hu => ?_, fun p c hc => ?_⟩
  · cases hu
  · simp [glMachine] at hc

/-- In every run in which no frame scales or samples a colour buffer, and every destructor gets the helper
context, GL calls on the objects of a colour buffer hit these objects. -/
theorem names_owned {configs : Nat} {pbufSurface : Option EglSurface} {ops : List GlOp}
    (h : (glMachine configs pbufSurface).AllSteps KeepsNames (glMachine configs pbufSurface).init ops) :
    (glMachine configs pbufSurface).AllStates NamesOwned (glMachine configs pbufSurface).init ops :=
  Machine.allStates_of_allSteps (fun _ _ _ hs hc hstep => hs.step hc hstep) (fun _ hs => hs.owned)
    (namesOk_init configs pbufSurface) h

/-- A colour buffer is created and read, and a host window is created. -/
def readOps : List GlOp :=
  [.startThread 1, .createColorBuffer 1 8 8 GL_RGBA ⟨scopeOk, true, scopeOk⟩,
    .readColorBuffer 1 1 0 0 8 8 true scopeOk true, .createNativeWindow 1 7 true true true]

/-- The answers to a `draw` on a drawable of the size of the colour buffer. -/
def drawCallsSized : DrawCalls :=
  { drawCallsOk with answers := { drawCallsOk.answers with query := some (8, 8) } }

/-- The colour buffer of `readOps`, over the whole screen. -/
def layer : Renderable := ⟨"", 1, ⟨0, 0, 8, 8⟩, ⟨0, 0, 8, 8⟩⟩

/-- After an empty frame the buffer is drawn, which is not the frame to sample, and closed. -/
def plainOps : List GlOp :=
  readOps ++ [.draw 1 7 [] none drawCallsSized, .draw 1 7 [layer] none drawCallsSized,
    .tables 1 (.closeColorBuffer 1) fun _ => scopeOk]

theorem names_owned_plain :
    (glMachine 1 none).AllStates NamesOwned (glMachine 1 none).init plainOps := by
  refine names_owned ?_
  -- the state before the buffer is drawn
  obtain ⟨s, c, hexec, hsample, hfind, hfactor⟩ : ∃ s c,
      (glMachine 1 none).exec (glMachine 1 none).init
        (readOps ++ [.draw 1 7 [] none drawCallsSized]) = some s ∧
      s.sample_presentation = false ∧ s.findColorBuffer layer.buffer = some (1, c) ∧
      c.m_resizer.factor (drawViewport (8, 8) [layer] none) = 1 := ⟨_, _, rfl, rfl, rfl, by decide⟩
  have hpre : (glMachine 1 none).AllSteps KeepsNames (glMachine 1 none).init
      (readOps ++ [.draw 1 7 [] none drawCallsSized]) := by
    refine (Machine.allSteps_cons rfl).mpr ⟨trivial, (Machine.allSteps_cons rfl).mpr ⟨fun _ => Or.inl rfl, ?_⟩⟩
    refine (Machine.allSteps_cons rfl).mpr ⟨trivial, (Machine.allSteps_cons rfl).mpr ⟨trivial, ?_⟩⟩
    refine (Machine.allSteps_cons rfl).mpr ⟨fun _ _ surface _ _ => ⟨fun _ n r p c hr => ?_, fun _ r hr => ?_⟩, trivial⟩
    · cases hr
    · cases hr
  refine (Machine.allSteps_append hexec).mpr ⟨hpre, fun _ _ surface hquery _ => ⟨fun _ n r p d hr hd => ?_, ?_⟩,
    fun s' _ => ⟨fun p => Or.inl rfl, fun _ _ => trivial⟩⟩
  · cases hquery
    have hr' : r = layer := List.mem_singleton.mp (List.mem_of_getElem? hr)
    rw [hr', hfind] at hd
    cases hd
    exact Or.inl hfactor
  · intro h
    rw [hsample] at h
    cases h

/-- The buffer is drawn in the first frame, which is sampled: its framebuffer is bound in the context of
the host windows, although the helper context generated it. -/
theorem sampling_binds_foreign : ¬ ∀ (configs : Nat) (pbufSurface : Option EglSurface) (s : GlWorld),
    (glMachine configs pbufSurface).Reachable s → s.NamesOwned := by
  intro hall
  have hs : ∃ s, (glMachine 1 none).exec (glMachine 1 none).init
      (readOps ++ [.draw 1 7 [layer] none drawCallsSized]) = some s ∧
      GlUse.framebuffer 1 ⟨3, some .pbuf⟩ (some .presentation) ∈ s.gl.uses := ⟨_, rfl, by decide⟩
  obtain ⟨s, hexec, huse⟩ := hs
  obtain ⟨c, hcurrent, hgenerated, -⟩ := hall 1 none s ⟨_, hexec⟩ _ huse
  rw [← Option.some.inj hcurrent] at hgenerated
  cases hgenerated

end GlWorld

end AnboxReboxed.Emugl
