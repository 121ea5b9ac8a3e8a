import AnboxReboxed.Emugl.RetainFrame
import AnboxReboxed.Lib.Proofs.OrdMapProofs

/-!
# Proofs: what the table operations change

One lemma for each field an operation leaves alone, and one for each field it changes, so that the
invariants below never unfold an operation again.
-/

namespace AnboxReboxed.Emugl.Renderer

open AnboxReboxed.Lib OrdMap

variable {r : Renderer} {h : HandleType}

/-! ## References to colour buffers -/

/-- The fields other than the colour-buffer table and its byte count. -/
structure SameButBuffers (r r' : Renderer) : Prop where
  next : r'.s_nextHandle = r.s_nextHandle
  generated : r'.handlesGenerated = r.handlesGenerated
  configs : r'.m_configs = r.m_configs
  contexts : r'.m_contexts = r.m_contexts
  windows : r'.m_windows = r.m_windows
  deferredContexts : r'.m_deferredContexts = r.m_deferredContexts
  deferredWindows : r'.m_deferredWindows = r.m_deferredWindows
  posted : r'.m_lastPostedColorBuffer = r.m_lastPostedColorBuffer

theorem SameButBuffers.refl (r : Renderer) : SameButBuffers r r := ⟨rfl, rfl, rfl, rfl, rfl, rfl, rfl, rfl⟩

theorem SameButBuffers.trans {r1 r2 r3 : Renderer} (h1 : SameButBuffers r1 r2)
    (h2 : SameButBuffers r2 r3) : SameButBuffers r1 r3 :=
  ⟨h2.next.trans h1.next, h2.generated.trans h1.generated, h2.configs.trans h1.configs,
    h2.contexts.trans h1.contexts, h2.windows.trans h1.windows,
    h2.deferredContexts.trans h1.deferredContexts, h2.deferredWindows.trans h1.deferredWindows,
    h2.posted.trans h1.posted⟩

theorem sameButBuffers_drop (r : Renderer) (h : HandleType) : SameButBuffers r (r.dropReference h) := by
  unfold dropReference freeColorBuffer
  split
  · exact .refl r
  · split_ifs <;> exact ⟨rfl, rfl, rfl, rfl, rfl, rfl, rfl, rfl⟩

theorem sameButBuffers_addReference (r : Renderer) (h : HandleType) :
    SameButBuffers r (r.addReference h) := by
  unfold addReference
  split
  · exact .refl r
  · exact ⟨rfl, rfl, rfl, rfl, rfl, rfl, rfl, rfl⟩

theorem sameButBuffers_release (r : Renderer) (h : HandleType) :
    SameButBuffers r (r.releaseWindowSurfaceColorBufferLocked h) := by
  unfold releaseWindowSurfaceColorBufferLocked
  split_ifs
  · exact .refl r
  · exact sameButBuffers_drop r h

/-- Dropping a reference to `h` leaves every other entry alone. -/
theorem find?_dropReference_ne (r : Renderer) {h k : HandleType} (hk : k ≠ h) :
    (r.dropReference h).m_colorbuffers.find? k = r.m_colorbuffers.find? k := by
  unfold dropReference freeColorBuffer
  split
  · rfl
  · split_ifs
    · rfl
    · exact find?_erase_ne _ hk
    · exact find?_insert_ne _ _ hk

theorem find?_release_ne (r : Renderer) {h k : HandleType} (hk : k ≠ h) :
    (r.releaseWindowSurfaceColorBufferLocked h).m_colorbuffers.find? k = r.m_colorbuffers.find? k := by
  unfold releaseWindowSurfaceColorBufferLocked
  split_ifs
  · rfl
  · exact find?_dropReference_ne r hk

/-- The entry of `h` after one of its references is dropped. -/
theorem find?_dropReference_self {ref : ColorBufferRef} (hf : r.m_colorbuffers.find? h = some ref)
    (hpos : 1 ≤ ref.refcount) :
    (r.dropReference h).m_colorbuffers.find? h =
      if ref.refcount = 1 then none else some { ref with refcount := ref.refcount - 1 } := by
  unfold dropReference freeColorBuffer
  simp only [hf]
  have h0 : ref.refcount ≠ 0 := by omega
  by_cases h1 : ref.refcount = 1
  · simp [h1]
  · have h2 : ref.refcount - 1 ≠ 0 := by omega
    simp [h0, h1, h2]

theorem dropReference_of_not_mem (hf : h ∉ r.m_colorbuffers) : r.dropReference h = r := by
  unfold dropReference
  simp [not_mem_iff.mp hf]

theorem find?_addReference_ne (r : Renderer) {h k : HandleType} (hk : k ≠ h) :
    (r.addReference h).m_colorbuffers.find? k = r.m_colorbuffers.find? k := by
  unfold addReference
  split
  · rfl
  · exact find?_insert_ne _ _ hk

theorem find?_addReference_self {ref : ColorBufferRef} (hf : r.m_colorbuffers.find? h = some ref) :
    (r.addReference h).m_colorbuffers.find? h =
      some { ref with refcount := (ref.refcount + 1) % 2 ^ 32 } := by
  unfold addReference
  simp [hf]

/-- Dropping a reference never adds an entry. -/
theorem mem_of_mem_dropReference {k : HandleType} (hk : k ∈ (r.dropReference h).m_colorbuffers) :
    k ∈ r.m_colorbuffers := by
  by_cases hkh : k = h
  · subst hkh
    by_contra hn
    rw [dropReference_of_not_mem hn] at hk
    exact hn hk
  · rw [mem_iff] at hk ⊢
    rwa [find?_dropReference_ne r hkh] at hk

theorem mem_addReference {k : HandleType} :
    k ∈ (r.addReference h).m_colorbuffers ↔ k ∈ r.m_colorbuffers := by
  by_cases hkh : k = h
  · subst hkh
    unfold addReference
    cases hf : r.m_colorbuffers.find? k with
    | none => rfl
    | some ref => simp [mem_of_find? hf]
  · rw [mem_iff, mem_iff, find?_addReference_ne r hkh]

theorem mem_of_mem_release {k : HandleType}
    (hk : k ∈ (r.releaseWindowSurfaceColorBufferLocked h).m_colorbuffers) : k ∈ r.m_colorbuffers := by
  unfold releaseWindowSurfaceColorBufferLocked at hk
  split_ifs at hk
  · exact hk
  · exact mem_of_mem_dropReference hk

/-! ## Window destruction and the reaper -/

/-- The fields `destroyDeferredWindowLocked` leaves alone. -/
structure SameButWindows (r r' : Renderer) : Prop where
  next : r'.s_nextHandle = r.s_nextHandle
  generated : r'.handlesGenerated = r.handlesGenerated
  configs : r'.m_configs = r.m_configs
  contexts : r'.m_contexts = r.m_contexts
  deferredContexts : r'.m_deferredContexts = r.m_deferredContexts
  posted : r'.m_lastPostedColorBuffer = r.m_lastPostedColorBuffer

theorem SameButWindows.refl (r : Renderer) : SameButWindows r r := ⟨rfl, rfl, rfl, rfl, rfl, rfl⟩

theorem SameButWindows.trans {r1 r2 r3 : Renderer} (h1 : SameButWindows r1 r2)
    (h2 : SameButWindows r2 r3) : SameButWindows r1 r3 :=
  ⟨h2.next.trans h1.next, h2.generated.trans h1.generated, h2.configs.trans h1.configs,
    h2.contexts.trans h1.contexts, h2.deferredContexts.trans h1.deferredContexts,
    h2.posted.trans h1.posted⟩

theorem sameButWindows_destroy (r : Renderer) (h : HandleType) :
    SameButWindows r (r.destroyDeferredWindowLocked h) := by
  unfold destroyDeferredWindowLocked
  split
  · exact .refl r
  · rename_i w _
    have hs := sameButBuffers_release r w.2
    exact ⟨hs.next, hs.generated, hs.configs, hs.contexts, hs.deferredContexts, hs.posted⟩

theorem deferredWindows_destroy (r : Renderer) (h : HandleType) :
    (r.destroyDeferredWindowLocked h).m_deferredWindows = r.m_deferredWindows := by
  unfold destroyDeferredWindowLocked
  split
  · rfl
  · rename_i w _
    exact (sameButBuffers_release r w.2).deferredWindows

theorem windows_destroy (r : Renderer) (h : HandleType) :
    (r.destroyDeferredWindowLocked h).m_windows = r.m_windows.erase h := by
  unfold destroyDeferredWindowLocked
  split
  · rename_i hf
    exact (erase_of_not_mem (not_mem_iff.mpr hf)).symm
  · rename_i w _
    show (r.releaseWindowSurfaceColorBufferLocked w.2).m_windows.erase h = _
    rw [(sameButBuffers_release r w.2).windows]

theorem mem_of_mem_destroy {k : HandleType}
    (hk : k ∈ (r.destroyDeferredWindowLocked h).m_colorbuffers) : k ∈ r.m_colorbuffers := by
  unfold destroyDeferredWindowLocked at hk
  split at hk
  · exact hk
  · exact mem_of_mem_release (h := _) hk

/-- Folding a map operation that erases one key at a time erases all of them. -/
theorem find?_foldl_erase {α : Type} (f : Renderer → HandleType → Renderer)
    (field : Renderer → OrdMap HandleType α) (hf : ∀ r h, field (f r h) = (field r).erase h)
    (l : List HandleType) : ∀ (r : Renderer) (k : HandleType),
      (field (l.foldl f r)).find? k = if k ∈ l then none else (field r).find? k := by
  induction l with
  | nil => intro r k; simp
  | cons a l ih =>
    intro r k
    rw [List.foldl_cons, ih, hf, find?_erase]
    by_cases hk : k ∈ l
    · simp [hk]
    · by_cases hka : k = a <;> simp [hk, hka]

theorem sameButWindows_reapWindow (r : Renderer) (h : HandleType) :
    SameButWindows r (r.reapWindow h) := by
  have hs := sameButWindows_destroy { r with m_deferredWindows := r.m_deferredWindows.erase h } h
  exact ⟨hs.next, hs.generated, hs.configs, hs.contexts, hs.deferredContexts, hs.posted⟩

theorem windows_reapWindow (r : Renderer) (h : HandleType) :
    (r.reapWindow h).m_windows = r.m_windows.erase h := windows_destroy _ h

theorem deferredWindows_reapWindow (r : Renderer) (h : HandleType) :
    (r.reapWindow h).m_deferredWindows = r.m_deferredWindows.erase h := deferredWindows_destroy _ h

/-- A relation between renderers that every round of a loop extends holds between its ends. -/
theorem foldl_rel {R : Renderer → Renderer → Prop} (hrefl : ∀ r, R r r)
    (htrans : ∀ r1 r2 r3, R r1 r2 → R r2 r3 → R r1 r3) {f : Renderer → HandleType → Renderer}
    (hf : ∀ r h, R r (f r h)) (l : List HandleType) (r : Renderer) : R r (l.foldl f r) := by
  induction l generalizing r with
  | nil => exact hrefl r
  | cons a l ih => exact htrans _ _ _ (hf r a) (ih (f r a))

/-- The windows the reaper removes at `now`. -/
def reapedWindows (r : Renderer) (now : TimePoint) : List HandleType := expired r.m_deferredWindows now

/-- The contexts the reaper removes at `now`. -/
def reapedContexts (r : Renderer) (now : TimePoint) : List HandleType :=
  expired r.m_deferredContexts now

theorem mem_expired {deferred : OrdMap HandleType TimePoint} {now : TimePoint} :
    h ∈ expired deferred now ↔ ∃ e, deferred.find? h = some e ∧ e ≤ now := by
  unfold expired
  simp only [List.mem_map, List.mem_filter, decide_eq_true_eq, not_lt]
  constructor
  · rintro ⟨⟨k, e⟩, ⟨hm, he⟩, rfl⟩
    exact ⟨e, find?_eq_some_iff.mpr hm, he⟩
  · rintro ⟨e, hf, he⟩
    exact ⟨(h, e), ⟨find?_eq_some_iff.mp hf, he⟩, rfl⟩

/-- The fields the reaper leaves alone, beside the two tables it prunes and the colour buffers. -/
structure SameCounters (r r' : Renderer) : Prop where
  next : r'.s_nextHandle = r.s_nextHandle
  generated : r'.handlesGenerated = r.handlesGenerated
  configs : r'.m_configs = r.m_configs
  posted : r'.m_lastPostedColorBuffer = r.m_lastPostedColorBuffer

section Reap

variable (r) (now : TimePoint)

/-- The renderer between the two loops of the reaper. -/
def reapWindows : Renderer := (r.reapedWindows now).foldl reapWindow r

theorem reap_eq : r.reapDeferredResourcesLocked now =
    ((r.reapWindows now).reapedContexts now).foldl reapContext (r.reapWindows now) := rfl

theorem sameButWindows_reapWindows : SameButWindows r (r.reapWindows now) :=
  foldl_rel SameButWindows.refl (fun _ _ _ => SameButWindows.trans) sameButWindows_reapWindow _ r

/-- The second loop of the reaper touches contexts only. -/
theorem reapContexts_frame (l : List HandleType) (r : Renderer) :
    SameCounters r (l.foldl reapContext r) ∧
      (l.foldl reapContext r).m_windows = r.m_windows ∧
      (l.foldl reapContext r).m_deferredWindows = r.m_deferredWindows ∧
      (l.foldl reapContext r).m_colorbuffers = r.m_colorbuffers ∧
      (l.foldl reapContext r).m_colorBufferBytes = r.m_colorBufferBytes := by
  induction l generalizing r with
  | nil => exact ⟨⟨rfl, rfl, rfl, rfl⟩, rfl, rfl, rfl, rfl⟩
  | cons a l ih =>
    obtain ⟨hc, h1, h2, h3, h4⟩ := ih (r.reapContext a)
    exact ⟨⟨hc.next, hc.generated, hc.configs, hc.posted⟩, h1, h2, h3, h4⟩

theorem find?_windows_reap (k : HandleType) :
    (r.reapDeferredResourcesLocked now).m_windows.find? k =
      if k ∈ r.reapedWindows now then none else r.m_windows.find? k := by
  rw [reap_eq, (reapContexts_frame _ _).2.1]
  exact find?_foldl_erase reapWindow m_windows windows_reapWindow _ r k

theorem find?_deferredWindows_reap (k : HandleType) :
    (r.reapDeferredResourcesLocked now).m_deferredWindows.find? k =
      if k ∈ r.reapedWindows now then none else r.m_deferredWindows.find? k := by
  rw [reap_eq, (reapContexts_frame _ _).2.2.1]
  exact find?_foldl_erase reapWindow m_deferredWindows deferredWindows_reapWindow _ r k

theorem reapedContexts_reapWindows : (r.reapWindows now).reapedContexts now = r.reapedContexts now := by
  unfold reapedContexts
  rw [(sameButWindows_reapWindows r now).deferredContexts]

theorem find?_contexts_reap (k : HandleType) :
    (r.reapDeferredResourcesLocked now).m_contexts.find? k =
      if k ∈ r.reapedContexts now then none else r.m_contexts.find? k := by
  rw [reap_eq, reapedContexts_reapWindows,
    find?_foldl_erase reapContext m_contexts (fun _ _ => rfl) _ _ k,
    (sameButWindows_reapWindows r now).contexts]

theorem find?_deferredContexts_reap (k : HandleType) :
    (r.reapDeferredResourcesLocked now).m_deferredContexts.find? k =
      if k ∈ r.reapedContexts now then none else r.m_deferredContexts.find? k := by
  rw [reap_eq, reapedContexts_reapWindows,
    find?_foldl_erase reapContext m_deferredContexts (fun _ _ => rfl) _ _ k,
    (sameButWindows_reapWindows r now).deferredContexts]

end Reap

/-! ## Invariants of the clean-up operations -/

/-- The lookups of `bindContext` only cancel deferrals. -/
theorem lookupBinding_eq (r : Renderer) (c d rd : HandleType) : ∃ dc dw,
    (r.lookupBinding c d rd).1 = { r with m_deferredContexts := dc, m_deferredWindows := dw } := by
  unfold lookupBinding
  split
  · exact ⟨_, _, rfl⟩
  · dsimp only
    split
    · exact ⟨_, _, rfl⟩
    · split_ifs
      · split <;> exact ⟨_, _, rfl⟩
      · exact ⟨_, _, rfl⟩

/-- The tables after `bindContext`: what the reaper and the lookups leave. -/
theorem bindContext_renderer (r : Renderer) (tinfo : RenderThreadInfo) (now : TimePoint)
    (c d rd : HandleType) (ok : Bool) : (r.bindContext tinfo now c d rd ok).2.1 =
      if c ≠ 0 ∨ d ≠ 0 ∨ rd ≠ 0 then ((r.reapDeferredResourcesLocked now).lookupBinding c d rd).1
      else r.reapDeferredResourcesLocked now := by
  unfold bindContext
  dsimp only
  split_ifs
  · split <;> (rename_i he; rw [he])
  · split <;> (rename_i he; rw [he])
  · rfl
  · rfl

theorem lookupBinding_found {r : Renderer} {c d rd : HandleType} {ctx : RenderContextPtr}
    {draw read : WindowSurfacePtr} (h : (r.lookupBinding c d rd).2 = some (ctx, draw, read)) :
    r.m_contexts.find? c = some ctx ∧ (∃ a, r.m_windows.find? d = some (draw, a)) ∧
      ∃ a, r.m_windows.find? rd = some (read, a) := by
  unfold lookupBinding at h
  split at h
  · cases h
  · rename_i ctx1 hc
    dsimp only at h
    split at h
    · cases h
    · rename_i w1 hd
      split_ifs at h with hrd
      · split at h
        · cases h
        · rename_i w2 hr
          cases h
          exact ⟨hc, ⟨w1.2, hd⟩, ⟨w2.2, hr⟩⟩
      · cases h
        rw [not_not] at hrd
        exact ⟨hc, ⟨w1.2, hd⟩, ⟨w1.2, by rw [hrd]; exact hd⟩⟩

/-- What `bindContext` makes current: what it was, nothing, or what the lookups found. -/
theorem bindContext_current (r : Renderer) (tinfo : RenderThreadInfo) (now : TimePoint)
    (c d rd : HandleType) (ok : Bool) :
    (r.bindContext tinfo now c d rd ok).2.2 = tinfo ∨
    (r.bindContext tinfo now c d rd ok).2.2 =
      { tinfo with currContext := none, currDrawSurf := none, currReadSurf := none } ∨
    ((c ≠ 0 ∨ d ≠ 0 ∨ rd ≠ 0) ∧ ∃ ctx draw read,
      ((r.reapDeferredResourcesLocked now).lookupBinding c d rd).2 = some (ctx, draw, read) ∧
      (r.bindContext tinfo now c d rd ok).2.2 =
        { tinfo with currContext := some ctx, currDrawSurf := some draw, currReadSurf := some read }) := by
  unfold bindContext
  dsimp only
  split_ifs with h1 h2 h3
  · split
    · exact Or.inl rfl
    · rename_i ctx draw read he
      exact Or.inr (Or.inr ⟨h1, ctx, draw, read, by rw [he], rfl⟩)
  · split <;> exact Or.inl rfl
  · exact Or.inr (Or.inl rfl)
  · exact Or.inl rfl

/-- `bindContext` changes what is current, never what the thread created. -/
theorem bindContext_sets (r : Renderer) (tinfo : RenderThreadInfo) (now : TimePoint)
    (c d rd : HandleType) (ok : Bool) :
    (r.bindContext tinfo now c d rd ok).2.2.m_contextSet = tinfo.m_contextSet ∧
      (r.bindContext tinfo now c d rd ok).2.2.m_windowSet = tinfo.m_windowSet := by
  unfold bindContext
  dsimp only
  split_ifs
  · split <;> exact ⟨rfl, rfl⟩
  · split <;> exact ⟨rfl, rfl⟩
  · exact ⟨rfl, rfl⟩
  · exact ⟨rfl, rfl⟩

/-- Destroying a window is what the reaper does to an expired one. -/
theorem destroySurface_renderer (r : Renderer) (tinfo : RenderThreadInfo) (now : TimePoint)
    (s : HandleType) :
    (r.DestroyWindowSurface tinfo now s).1 = (r.reapDeferredResourcesLocked now).reapWindow s := by
  unfold DestroyWindowSurface reapWindow destroyDeferredWindowLocked
  dsimp only
  split <;> rfl

/-- `DestroyWindowSurface` takes at most `s` out of the thread's sets. -/
theorem destroySurface_sets (r : Renderer) (tinfo : RenderThreadInfo) (now : TimePoint) (s : HandleType) :
    (r.DestroyWindowSurface tinfo now s).2.m_contextSet = tinfo.m_contextSet ∧
      ∀ h, h ≠ s → h ∈ tinfo.m_windowSet → h ∈ (r.DestroyWindowSurface tinfo now s).2.m_windowSet := by
  unfold DestroyWindowSurface
  dsimp only
  split
  · exact ⟨rfl, fun _ _ hm => hm⟩
  · exact ⟨rfl, fun _ hne hm => mem_erase.mpr ⟨hne, hm⟩⟩

theorem destroySurface_current (r : Renderer) (tinfo : RenderThreadInfo) (now : TimePoint)
    (s : HandleType) :
    (r.DestroyWindowSurface tinfo now s).2.currContext = tinfo.currContext ∧
      (r.DestroyWindowSurface tinfo now s).2.currDrawSurf = tinfo.currDrawSurf ∧
      (r.DestroyWindowSurface tinfo now s).2.currReadSurf = tinfo.currReadSurf := by
  unfold DestroyWindowSurface
  dsimp only
  split <;> exact ⟨rfl, rfl, rfl⟩

/-- The window `s` lets go of its buffer and takes `p`; zero stands for no buffer. -/
def reattach (r : Renderer) (s : HandleType) (w : WindowSurfacePtr × HandleType) (p : HandleType) :
    Renderer :=
  let released := r.releaseWindowSurfaceColorBufferLocked w.2
  { (if p ≠ 0 then released.addReference p else released) with
    m_windows := r.m_windows.insert s (w.1, p) }

/-- What `reattach` leaves alone. -/
theorem reattach_tables (r : Renderer) (s : HandleType) (w : WindowSurfacePtr × HandleType)
    (p : HandleType) : (r.reattach s w p).m_contexts = r.m_contexts ∧
      (r.reattach s w p).m_deferredContexts = r.m_deferredContexts ∧
      (r.reattach s w p).m_deferredWindows = r.m_deferredWindows := by
  have h1 := sameButBuffers_release r w.2
  unfold reattach
  dsimp only
  split_ifs
  · have h2 := h1.trans (sameButBuffers_addReference _ p)
    exact ⟨h2.contexts, h2.deferredContexts, h2.deferredWindows⟩
  · exact ⟨h1.contexts, h1.deferredContexts, h1.deferredWindows⟩

/-- The two outcomes of `setWindowSurfaceColorBuffer`, once the reaper has run and the deferral of the
window is cancelled. -/
theorem setColorBuffer_cases (r : Renderer) (now : TimePoint) (s p : HandleType) : ∃ r1,
    r1 = (r.reapDeferredResourcesLocked now).cancelDeferredWindowLocked s ∧
    ((r.setWindowSurfaceColorBuffer now s p).2 = r1 ∨
      ∃ w, r1.m_windows.find? s = some w ∧ (p ≠ 0 → p ∈ r1.m_colorbuffers) ∧ w.2 ≠ p ∧
        (∀ ref, p ≠ 0 → r1.m_colorbuffers.find? p = some ref → ref.refcount ≠ uint32Max) ∧
        (r.setWindowSurfaceColorBuffer now s p).2 = r1.reattach s w p) := by
  refine ⟨_, rfl, ?_⟩
  unfold setWindowSurfaceColorBuffer
  dsimp only
  split
  · exact Or.inl rfl
  · rename_i w hw
    split_ifs with h1 h2 h3 h4
    · exact Or.inl rfl
    · exact Or.inl rfl
    · exact Or.inl rfl
    all_goals
      refine Or.inr ⟨w, hw, fun h0 => by_contra fun hn => h1 ⟨h0, hn⟩, h2,
        fun ref h0 hf hmax => h3 ⟨ref, hf, h0, hmax⟩, ?_⟩
      simp only [reattach, h4, if_true, if_false, (sameButBuffers_addReference _ p).windows,
        (sameButBuffers_release _ w.2).windows, ne_eq, not_false_eq_true]

/-- The two outcomes of `retainPostedColorBuffer`, once the reaper has run. -/
theorem retainPosted_cases (r : Renderer) (now : TimePoint) (p : HandleType) : ∃ r1,
    r1 = r.reapDeferredResourcesLocked now ∧
    ((r.retainPostedColorBuffer now p).2 = r1 ∨
      (p ∈ r1.m_colorbuffers ∧ r1.m_lastPostedColorBuffer ≠ p ∧
        (∀ ref, r1.m_colorbuffers.find? p = some ref → ref.refcount ≠ uint32Max) ∧
        (r.retainPostedColorBuffer now p).2 =
          Renderer.releaseWindowSurfaceColorBufferLocked
            { r1.addReference p with m_lastPostedColorBuffer := p } r1.m_lastPostedColorBuffer)) := by
  refine ⟨_, rfl, ?_⟩
  unfold retainPostedColorBuffer
  dsimp only
  split
  · exact Or.inl rfl
  · rename_i next hn
    split_ifs with h1 h2
    · exact Or.inl rfl
    · refine Or.inr ⟨mem_of_find? hn, h1, fun ref hf => ?_, rfl⟩
      rw [hn] at hf
      rw [← Option.some.inj hf]
      exact h2
    · exact Or.inl rfl

/-- An invariant kept by every round of a loop is kept by the loop. -/
theorem foldl_inv {α : Type} {P : Renderer → Prop} {f : Renderer → α → Renderer}
    (hf : ∀ r a, P r → P (f r a)) (l : List α) {r : Renderer} (hr : P r) : P (l.foldl f r) := by
  induction l generalizing r with
  | nil => exact hr
  | cons a l ih => exact ih (hf r a hr)

/-- A relation between renderers that dropping a reference extends holds around `release_frame`. -/
theorem release_frame_rel {R : Renderer → Renderer → Prop} (hrefl : ∀ r, R r r)
    (htrans : ∀ r1 r2 r3, R r1 r2 → R r2 r3 → R r1 r3) (hdrop : ∀ r h, R r (r.dropReference h))
    (r : Renderer) (rds : List Renderable) : R r (r.release_frame rds) := by
  have hfold : ∀ (l : List Renderable) (acc : Renderer × OrdSet HandleType),
      R acc.1 (l.foldl releaseOne acc).1 := by
    intro l
    induction l with
    | nil => exact fun acc => hrefl _
    | cons rd l ih =>
      intro acc
      refine htrans _ _ _ ?_ (ih (releaseOne acc rd))
      unfold releaseOne
      dsimp only
      split_ifs
      · exact hrefl _
      · exact hdrop _ _
  exact hfold rds (r, ∅)

/-- An invariant that reads neither the contexts nor the deferrals and survives the destruction of a
window. Every operation that only cleans up keeps it. -/
structure CleanupInvariant (P : Renderer → Prop) : Prop where
  tables : ∀ r m dc dw, P r →
    P { r with m_contexts := m, m_deferredContexts := dc, m_deferredWindows := dw }
  destroy : ∀ r s, P r → P (r.destroyDeferredWindowLocked s)

namespace CleanupInvariant

variable {P : Renderer → Prop} {r : Renderer}

theorem reapWindow (hP : CleanupInvariant P) (hr : P r) (s : HandleType) : P (r.reapWindow s) :=
  hP.destroy _ s (hP.tables r r.m_contexts r.m_deferredContexts _ hr)

theorem reap (hP : CleanupInvariant P) (hr : P r) (now : TimePoint) :
    P (r.reapDeferredResourcesLocked now) := by
  refine foldl_inv (fun r h hr => ?_) _ (foldl_inv (fun r h hr => ?_) _ hr)
  · exact hP.tables r _ _ r.m_deferredWindows hr
  · exact hP.reapWindow hr h

theorem deferThread (hP : CleanupInvariant P) (hr : P r) (tinfo : RenderThreadInfo)
    (now later : TimePoint) : P (r.deferCurrentThreadResources tinfo now later).1 := by
  refine foldl_inv (fun r h hr => ?_) _ (foldl_inv (fun r h hr => ?_) _ (hP.reap hr now))
  · unfold deferWindow
    split_ifs
    · exact hP.destroy r h hr
    · exact hP.tables r r.m_contexts r.m_deferredContexts _ hr
    · exact hr
  · unfold deferContext
    split_ifs
    · exact hP.tables r _ r.m_deferredContexts r.m_deferredWindows hr
    · exact hP.tables r r.m_contexts _ r.m_deferredWindows hr
    · exact hr

theorem drainContexts (hP : CleanupInvariant P) (hr : P r) (tinfo : RenderThreadInfo) :
    P (r.drainRenderContext tinfo).1 := by
  refine foldl_inv (fun r h hr => ?_) _ hr
  exact hP.tables r _ r.m_deferredContexts r.m_deferredWindows hr

theorem drainWindows (hP : CleanupInvariant P) (hr : P r) (tinfo : RenderThreadInfo) :
    P (r.drainWindowSurface tinfo).1 := by
  refine foldl_inv (fun r h hr => ?_) _ hr
  exact hP.destroy r h hr

theorem destroyContext (hP : CleanupInvariant P) (hr : P r) (tinfo : RenderThreadInfo)
    (now : TimePoint) (c : HandleType) : P (r.DestroyRenderContext tinfo now c).1 :=
  hP.tables _ _ _ (r.reapDeferredResourcesLocked now).m_deferredWindows (hP.reap hr now)

theorem destroySurface (hP : CleanupInvariant P) (hr : P r) (tinfo : RenderThreadInfo)
    (now : TimePoint) (s : HandleType) : P (r.DestroyWindowSurface tinfo now s).1 := by
  rw [destroySurface_renderer]
  exact hP.reapWindow (hP.reap hr now) s

theorem bindContext (hP : CleanupInvariant P) (hr : P r) (tinfo : RenderThreadInfo) (now : TimePoint)
    (c d rd : HandleType) (ok : Bool) : P (r.bindContext tinfo now c d rd ok).2.1 := by
  have h1 := hP.reap hr now
  rw [bindContext_renderer]
  split_ifs
  · obtain ⟨dc, dw, he⟩ := lookupBinding_eq (r.reapDeferredResourcesLocked now) c d rd
    rw [he]
    exact hP.tables _ (r.reapDeferredResourcesLocked now).m_contexts dc dw h1
  · exact h1

end CleanupInvariant

end AnboxReboxed.Emugl.Renderer
