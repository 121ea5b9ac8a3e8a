import AnboxReboxed.Emugl.Proofs.RendererProofs
import Mathlib.Tactic.Ring

/-!
# Proofs: generated handles

`genHandle` returns the first number after `s_nextHandle`, counted modulo `2 ^ 32`, that is neither
zero nor a context nor a window. Until the counter wraps this is simply the next number, which no
table knows yet.
-/

namespace AnboxReboxed.Emugl.Renderer

open AnboxReboxed.Lib OrdMap

/-! ## The search of `genHandle` -/

/-- `genHandle` skips `id`. -/
def Taken (r : Renderer) (id : Nat) : Prop := id = 0 ∨ id ∈ r.m_contexts ∨ id ∈ r.m_windows

instance (r : Renderer) (id : Nat) : Decidable (r.Taken id) :=
  inferInstanceAs (Decidable (_ ∨ _ ∨ _))

/-- The loop of `genHandle` returns the first number after `next` that is not taken. -/
theorem genHandleLoop_spec {r : Renderer} {fuel : Nat} : ∀ {next id : Nat},
    genHandleLoop r fuel next = some id →
      ∃ k, 1 ≤ k ∧ k ≤ fuel ∧ id = (next + k) % 2 ^ 32 ∧ ¬ r.Taken id ∧
        ∀ j, 1 ≤ j → j < k → r.Taken ((next + j) % 2 ^ 32) := by
  induction fuel with
  | zero => intro next id h; simp [genHandleLoop] at h
  | succ fuel ih =>
    intro next id h
    simp only [genHandleLoop] at h
    split_ifs at h with ht
    · obtain ⟨k, hk1, hk2, hid, hfree, hskip⟩ := ih h
      have hmod : ∀ j, ((next + 1) % 2 ^ 32 + j) % 2 ^ 32 = (next + (j + 1)) % 2 ^ 32 := by
        intro j; rw [Nat.mod_add_mod]; congr 1; ring
      refine ⟨k + 1, by omega, by omega, by rw [hid, hmod], hfree, fun j hj1 hj2 => ?_⟩
      by_cases hj : j = 1
      · subst hj; exact ht
      · have := hskip (j - 1) (by omega) (by omega)
        rwa [hmod, Nat.sub_add_cancel hj1] at this
    · refine ⟨1, le_rfl, by omega, (Option.some.inj h).symm, ?_, fun j hj1 hj2 => by omega⟩
      rw [← Option.some.inj h]
      exact ht

/-- What `genHandle` returns, and what it changes. -/
theorem genHandle_spec {r r' : Renderer} {id : Nat} (h : r.genHandle = some (id, r')) :
    r' = { r with s_nextHandle := id, handlesGenerated := r.handlesGenerated + 1 } ∧
      ∃ k, 1 ≤ k ∧ k ≤ 2 ^ 32 ∧ id = (r.s_nextHandle + k) % 2 ^ 32 ∧ ¬ r.Taken id ∧
        ∀ j, 1 ≤ j → j < k → r.Taken ((r.s_nextHandle + j) % 2 ^ 32) := by
  obtain ⟨id', hl, he⟩ := Option.map_eq_some_iff.mp h
  obtain ⟨rfl, rfl⟩ := Prod.mk.inj he
  exact ⟨rfl, genHandleLoop_spec hl⟩

/-- If the next number is free, `genHandle` takes it. -/
theorem genHandle_of_free {r : Renderer} (hf : ¬ r.Taken ((r.s_nextHandle + 1) % 2 ^ 32)) :
    r.genHandle = some ((r.s_nextHandle + 1) % 2 ^ 32,
      { r with s_nextHandle := (r.s_nextHandle + 1) % 2 ^ 32,
               handlesGenerated := r.handlesGenerated + 1 }) := by
  have h1 : genHandleLoop r (2 ^ 32) r.s_nextHandle = some ((r.s_nextHandle + 1) % 2 ^ 32) := by
    rw [show (2 : Nat) ^ 32 = (2 ^ 32 - 1) + 1 from rfl, genHandleLoop]
    exact if_neg hf
  unfold genHandle
  rw [h1]
  rfl

/-- A generated handle is not zero and fits into 32 bits. -/
theorem genHandle_pos {r r' : Renderer} {id : Nat} (h : r.genHandle = some (id, r')) :
    0 < id ∧ id < 2 ^ 32 := by
  obtain ⟨-, k, -, -, hid, hfree, -⟩ := genHandle_spec h
  refine ⟨Nat.pos_of_ne_zero fun h0 => hfree (Or.inl h0), ?_⟩
  rw [hid]
  exact Nat.mod_lt _ (by norm_num)

/-! ## Operations that generate a handle -/

section Create

variable {r r' : Renderer} {tinfo tinfo' : RenderThreadInfo} {cfg : Int} {ret : HandleType}

/-- The two ways `createColorBuffer` returns: it rejects the request and changes nothing, or the
buffer is within the limits and goes under a generated handle. -/
theorem createColorBuffer_cases {w ht : Int} {fmt : GLenum} {gl : Option ColorBufferPtr}
    (h : r.createColorBuffer w ht fmt gl = some (ret, r')) :
    (ret = 0 ∧ r' = r) ∨
    ∃ cb r1 ref, gl = some cb ∧ r.genHandle = some (ret, r1) ∧ r' = r1.addColorBuffer ret ref ∧
      ref.cb = cb ∧ ref.refcount = 1 ∧ r.m_colorbuffers.size < max_color_buffers ∧
      ref.allocation_bytes ≤ max_color_buffer_bytes ∧
      r.m_colorBufferBytes ≤ max_color_buffer_bytes - ref.allocation_bytes := by
  unfold createColorBuffer at h
  dsimp only at h
  split_ifs at h with h1 h2 h3 h4
  · cases h; exact Or.inl ⟨rfl, rfl⟩
  · cases h; exact Or.inl ⟨rfl, rfl⟩
  · cases h; exact Or.inl ⟨rfl, rfl⟩
  · cases h; exact Or.inl ⟨rfl, rfl⟩
  · split at h
    · cases h; exact Or.inl ⟨rfl, rfl⟩
    · rename_i cb hcb
      obtain ⟨⟨id, r1⟩, hgen, he⟩ := Option.map_eq_some_iff.mp h
      obtain ⟨rfl, rfl⟩ := Prod.mk.inj he
      have hgl : gl = some cb := by
        unfold createColorBufferObject at hcb
        split_ifs at hcb
        exact hcb
      push Not at h4
      exact Or.inr ⟨cb, r1, _, hgl, hgen, rfl, rfl, rfl, by omega, h4.1, h4.2⟩

/-- The two ways `createRenderContext` returns. -/
theorem createRenderContext_cases {share : HandleType} {gl : Option RenderContextPtr}
    (h : r.createRenderContext tinfo cfg share gl = some (ret, r', tinfo')) :
    (ret = 0 ∧ r' = r ∧ tinfo' = tinfo) ∨
    ∃ rctx r1, gl = some rctx ∧ r.genHandle = some (ret, r1) ∧
      r' = { r1 with m_contexts := r1.m_contexts.insert ret rctx } ∧
      tinfo' = { tinfo with m_contextSet := tinfo.m_contextSet.insert ret () } := by
  unfold createRenderContext at h
  split_ifs at h
  · cases h; exact Or.inl ⟨rfl, rfl, rfl⟩
  · split at h
    · cases h; exact Or.inl ⟨rfl, rfl, rfl⟩
    · obtain ⟨⟨id, r1⟩, hgen, he⟩ := Option.map_eq_some_iff.mp h
      cases he
      exact Or.inr ⟨_, r1, rfl, hgen, rfl, rfl⟩
  · cases h; exact Or.inl ⟨rfl, rfl, rfl⟩

/-- The two ways `createWindowSurface` returns. -/
theorem createWindowSurface_cases {gl : Option WindowSurfacePtr}
    (h : r.createWindowSurface tinfo cfg gl = some (ret, r', tinfo')) :
    (ret = 0 ∧ r' = r ∧ tinfo' = tinfo) ∨
    ∃ win r1, gl = some win ∧ r.genHandle = some (ret, r1) ∧
      r' = { r1 with m_windows := r1.m_windows.insert ret (win, 0) } ∧
      tinfo' = { tinfo with m_windowSet := tinfo.m_windowSet.insert ret () } := by
  unfold createWindowSurface at h
  split_ifs at h
  · split at h
    · cases h; exact Or.inl ⟨rfl, rfl, rfl⟩
    · obtain ⟨⟨id, r1⟩, hgen, he⟩ := Option.map_eq_some_iff.mp h
      cases he
      exact Or.inr ⟨_, r1, rfl, hgen, rfl, rfl⟩
  · cases h; exact Or.inl ⟨rfl, rfl, rfl⟩

end Create

/-! ## Operations that generate no handle -/

/-- `r'` has no key that `r` does not have, and its entries still name the same objects. -/
structure Shrinks (r r' : Renderer) : Prop where
  next : r'.s_nextHandle = r.s_nextHandle
  generated : r'.handlesGenerated = r.handlesGenerated
  contexts : ∀ h p, r'.m_contexts.find? h = some p → r.m_contexts.find? h = some p
  windows : ∀ h w, r'.m_windows.find? h = some w → ∃ a, r.m_windows.find? h = some (w.1, a)
  buffers : ∀ h, h ∈ r'.m_colorbuffers → h ∈ r.m_colorbuffers

theorem Shrinks.refl (r : Renderer) : Shrinks r r :=
  ⟨rfl, rfl, fun _ _ h => h, fun _ w h => ⟨w.2, h⟩, fun _ h => h⟩

theorem Shrinks.trans {r1 r2 r3 : Renderer} (h1 : Shrinks r1 r2) (h2 : Shrinks r2 r3) :
    Shrinks r1 r3 :=
  ⟨h2.next.trans h1.next, h2.generated.trans h1.generated, fun h p hp => h1.contexts h p (h2.contexts h p hp),
    fun h w hw => by
      obtain ⟨a, ha⟩ := h2.windows h w hw
      exact h1.windows h (w.1, a) ha,
    fun h hh => h1.buffers h (h2.buffers h hh)⟩

theorem SameButBuffers.shrinks {r r' : Renderer} (hs : SameButBuffers r r')
    (hb : ∀ h, h ∈ r'.m_colorbuffers → h ∈ r.m_colorbuffers) : Shrinks r r' :=
  ⟨hs.next, hs.generated, fun h p hp => by rwa [hs.contexts] at hp,
    fun h w hw => ⟨w.2, by rwa [hs.windows] at hw⟩, hb⟩

theorem shrinks_drop (r : Renderer) (h : HandleType) : Shrinks r (r.dropReference h) :=
  (sameButBuffers_drop r h).shrinks fun _ => mem_of_mem_dropReference

theorem shrinks_addReference (r : Renderer) (h : HandleType) : Shrinks r (r.addReference h) :=
  (sameButBuffers_addReference r h).shrinks fun _ => mem_addReference.mp

theorem shrinks_release (r : Renderer) (h : HandleType) :
    Shrinks r (r.releaseWindowSurfaceColorBufferLocked h) :=
  (sameButBuffers_release r h).shrinks fun _ => mem_of_mem_release

theorem shrinks_destroyWindow (r : Renderer) (h : HandleType) :
    Shrinks r (r.destroyDeferredWindowLocked h) := by
  have hs := sameButWindows_destroy r h
  refine ⟨hs.next, hs.generated, fun k p hp => by rwa [hs.contexts] at hp, fun k w hw => ?_,
    fun k => mem_of_mem_destroy⟩
  rw [windows_destroy] at hw
  exact ⟨w.2, (find?_of_erase hw).2⟩

theorem shrinks_reapWindow (r : Renderer) (h : HandleType) : Shrinks r (r.reapWindow h) := by
  have hs := shrinks_destroyWindow { r with m_deferredWindows := r.m_deferredWindows.erase h } h
  exact ⟨hs.next, hs.generated, hs.contexts, hs.windows, hs.buffers⟩

theorem shrinks_eraseContext (r : Renderer) (h : HandleType) (d : OrdMap HandleType TimePoint) :
    Shrinks r { r with m_deferredContexts := d, m_contexts := r.m_contexts.erase h } :=
  ⟨rfl, rfl, fun _ _ hp => (find?_of_erase hp).2, fun _ w hw => ⟨w.2, hw⟩, fun _ hh => hh⟩

theorem shrinks_reap (r : Renderer) (now : TimePoint) : Shrinks r (r.reapDeferredResourcesLocked now) := by
  have h1 : Shrinks r (r.reapWindows now) :=
    foldl_rel Shrinks.refl (fun _ _ _ => Shrinks.trans) shrinks_reapWindow _ r
  rw [reap_eq]
  exact h1.trans (foldl_rel Shrinks.refl (fun _ _ _ => Shrinks.trans)
    (fun r h => shrinks_eraseContext r h _) _ _)

theorem shrinks_deferredWindows (r : Renderer) (d : OrdMap HandleType TimePoint) :
    Shrinks r { r with m_deferredWindows := d } :=
  ⟨rfl, rfl, fun _ _ h => h, fun _ w h => ⟨w.2, h⟩, fun _ h => h⟩

theorem shrinks_deferredContexts (r : Renderer) (d : OrdMap HandleType TimePoint) :
    Shrinks r { r with m_deferredContexts := d } :=
  ⟨rfl, rfl, fun _ _ h => h, fun _ w h => ⟨w.2, h⟩, fun _ h => h⟩

theorem shrinks_deferContext (expiry : TimePoint) (r : Renderer) (h : HandleType) :
    Shrinks r (deferContext expiry r h) := by
  unfold deferContext
  split_ifs
  · exact shrinks_eraseContext r h _
  · exact shrinks_deferredContexts r _
  · exact .refl r

theorem shrinks_deferWindow (expiry : TimePoint) (r : Renderer) (h : HandleType) :
    Shrinks r (deferWindow expiry r h) := by
  unfold deferWindow
  split_ifs
  · exact shrinks_destroyWindow r h
  · exact shrinks_deferredWindows r _
  · exact .refl r

theorem shrinks_deferThread (r : Renderer) (tinfo : RenderThreadInfo) (now later : TimePoint) :
    Shrinks r (r.deferCurrentThreadResources tinfo now later).1 :=
  (shrinks_reap r now).trans
    ((foldl_rel Shrinks.refl (fun _ _ _ => Shrinks.trans) (shrinks_deferContext _) _ _).trans
      (foldl_rel Shrinks.refl (fun _ _ _ => Shrinks.trans) (shrinks_deferWindow _) _ _))

theorem shrinks_drainContexts (r : Renderer) (tinfo : RenderThreadInfo) :
    Shrinks r (r.drainRenderContext tinfo).1 :=
  foldl_rel Shrinks.refl (fun _ _ _ => Shrinks.trans) (fun r h => shrinks_eraseContext r h _) _ r

theorem shrinks_drainWindows (r : Renderer) (tinfo : RenderThreadInfo) :
    Shrinks r (r.drainWindowSurface tinfo).1 :=
  foldl_rel Shrinks.refl (fun _ _ _ => Shrinks.trans) shrinks_destroyWindow _ r

theorem shrinks_destroyContext (r : Renderer) (tinfo : RenderThreadInfo) (now : TimePoint)
    (h : HandleType) : Shrinks r (r.DestroyRenderContext tinfo now h).1 :=
  (shrinks_reap r now).trans (shrinks_eraseContext _ h _)

theorem shrinks_destroySurface (r : Renderer) (tinfo : RenderThreadInfo) (now : TimePoint)
    (h : HandleType) : Shrinks r (r.DestroyWindowSurface tinfo now h).1 := by
  rw [destroySurface_renderer]
  exact (shrinks_reap r now).trans (shrinks_reapWindow _ h)

theorem shrinks_bindContext (r : Renderer) (tinfo : RenderThreadInfo) (now : TimePoint)
    (c d rd : HandleType) (ok : Bool) : Shrinks r (r.bindContext tinfo now c d rd ok).2.1 := by
  have h1 := shrinks_reap r now
  rw [bindContext_renderer]
  split_ifs
  · obtain ⟨dc, dw, he⟩ := lookupBinding_eq (r.reapDeferredResourcesLocked now) c d rd
    rw [he]
    exact (h1.trans (shrinks_deferredContexts _ dc)).trans (shrinks_deferredWindows _ dw)
  · exact h1

theorem shrinks_attach {r : Renderer} {s : HandleType} {w : WindowSurfacePtr × HandleType}
    (hw : r.m_windows.find? s = some w) (a : HandleType) :
    Shrinks r { r with m_windows := r.m_windows.insert s (w.1, a) } := by
  refine ⟨rfl, rfl, fun _ _ h => h, fun k v hv => ?_, fun _ h => h⟩
  by_cases hk : k = s
  · subst hk
    have : v = (w.1, a) := by simpa using hv.symm
    exact ⟨w.2, by rw [hw, this]⟩
  · exact ⟨v.2, by simpa [find?_insert_ne _ _ hk] using hv⟩

theorem shrinks_reattach {r : Renderer} {s : HandleType} {w : WindowSurfacePtr × HandleType}
    (hw : r.m_windows.find? s = some w) (p : HandleType) : Shrinks r (r.reattach s w p) := by
  have h1 := shrinks_release r w.2
  have hwin := (sameButBuffers_release r w.2).windows
  unfold reattach
  dsimp only
  split_ifs with hp
  · have hwin' := ((sameButBuffers_addReference (r.releaseWindowSurfaceColorBufferLocked w.2) p).windows).trans
      hwin
    have h2 := (h1.trans (shrinks_addReference _ p)).trans (shrinks_attach (by rw [hwin']; exact hw) p)
    rwa [hwin'] at h2
  · have h2 := h1.trans (shrinks_attach (by rw [hwin]; exact hw) p)
    rwa [hwin] at h2

theorem shrinks_setColorBuffer (r : Renderer) (now : TimePoint) (s p : HandleType) :
    Shrinks r (r.setWindowSurfaceColorBuffer now s p).2 := by
  obtain ⟨r1, hr1, hcases⟩ := setColorBuffer_cases r now s p
  have h1 : Shrinks r r1 := by
    rw [hr1]
    exact (shrinks_reap r now).trans (shrinks_deferredWindows _ _)
  rcases hcases with he | ⟨w, hw, -, -, -, he⟩
  · rwa [he]
  · rw [he]
    exact h1.trans (shrinks_reattach hw p)

theorem shrinks_posted (r : Renderer) (h : HandleType) :
    Shrinks r { r with m_lastPostedColorBuffer := h } :=
  ⟨rfl, rfl, fun _ _ h => h, fun _ w h => ⟨w.2, h⟩, fun _ h => h⟩

theorem shrinks_retainPosted (r : Renderer) (now : TimePoint) (p : HandleType) :
    Shrinks r (r.retainPostedColorBuffer now p).2 := by
  obtain ⟨r1, hr1, hcases⟩ := retainPosted_cases r now p
  have h1 : Shrinks r r1 := by
    rw [hr1]
    exact shrinks_reap r now
  rcases hcases with he | ⟨-, -, -, he⟩
  · rwa [he]
  · rw [he]
    exact ((h1.trans (shrinks_addReference _ p)).trans (shrinks_posted _ p)).trans (shrinks_release _ _)

theorem shrinks_openColorBuffer (r : Renderer) (h : HandleType) : Shrinks r (r.openColorBuffer h).2 := by
  unfold openColorBuffer
  split
  · exact .refl r
  · split_ifs
    · exact .refl r
    · exact shrinks_addReference r h

theorem shrinks_release_frame (r : Renderer) (rds : List Renderable) :
    Shrinks r (r.release_frame rds) :=
  release_frame_rel Shrinks.refl (fun _ _ _ => Shrinks.trans) shrinks_drop r rds

theorem shrinks_rollback (r : Renderer) (created : List HandleType) : Shrinks r (rollback r created) := by
  refine foldl_rel Shrinks.refl (fun _ _ _ => Shrinks.trans) (fun r h => ?_) _ r
  unfold rollbackOne freeColorBuffer
  split
  · exact .refl r
  · exact ⟨rfl, rfl, fun _ _ h => h, fun _ w h => ⟨w.2, h⟩, fun _ hh => (mem_erase.mp hh).2⟩

/-! ## Before the counter wraps -/

/-- The state of the handle tables before the counter has wrapped: the counter is the number of
handles generated, and no key lies above it. -/
structure Unwrapped (r : Renderer) : Prop where
  next : r.s_nextHandle = r.handlesGenerated
  contexts : ∀ h : Nat, h ∈ r.m_contexts → h ≤ r.handlesGenerated
  windows : ∀ h : Nat, h ∈ r.m_windows → h ≤ r.handlesGenerated
  buffers : ∀ h : Nat, h ∈ r.m_colorbuffers → h ≤ r.handlesGenerated

theorem Shrinks.unwrapped {r r' : Renderer} (hs : Shrinks r r') (hu : Unwrapped r) : Unwrapped r' := by
  refine ⟨by rw [hs.next, hs.generated, hu.next], fun h hh => ?_, fun h hh => ?_, fun h hh => ?_⟩
  · obtain ⟨p, hp⟩ := mem_iff.mp hh
    rw [hs.generated]
    exact hu.contexts h (mem_of_find? (hs.contexts h p hp))
  · obtain ⟨w, hw⟩ := mem_iff.mp hh
    obtain ⟨a, ha⟩ := hs.windows h w hw
    rw [hs.generated]
    exact hu.windows h (mem_of_find? ha)
  · rw [hs.generated]
    exact hu.buffers h (hs.buffers h hh)

/-- Before the wrap `genHandle` returns the next number, which is above every key. -/
theorem Unwrapped.genHandle {r r' : Renderer} {id : Nat} (hu : Unwrapped r)
    (hlt : r.handlesGenerated + 1 < 2 ^ 32) (h : r.genHandle = some (id, r')) :
    id = r.handlesGenerated + 1 := by
  have hmod : (r.s_nextHandle + 1) % 2 ^ 32 = r.handlesGenerated + 1 := by
    rw [hu.next]; exact Nat.mod_eq_of_lt hlt
  have hfree : ¬ r.Taken ((r.s_nextHandle + 1) % 2 ^ 32) := by
    rw [hmod]
    rintro (h0 | hc | hw)
    · omega
    · have := hu.contexts _ hc; omega
    · have := hu.windows _ hw; omega
  rw [genHandle_of_free hfree, hmod] at h
  exact (Prod.mk.inj (Option.some.inj h)).1.symm

end AnboxReboxed.Emugl.Renderer
