import AnboxReboxed.Emugl.Proofs.InUseProofs

/-!
# Proofs: what the threads have current

Only `bindContext` changes what a live thread has current, and it makes a context current together with
both surfaces. The addresses of the windows that a table or a thread knows have all been given out.
-/

namespace AnboxReboxed.Emugl

open AnboxReboxed.Lib OrdMap Renderer

/-- The operation neither starts a thread nor changes what one has current. -/
def Op.keepsCurrent : Op → Bool
  | .bindContext .. | .startThread _ => false
  | _ => true

namespace Renderer

/-- A call of `bindContext` that fails changes nothing about the thread. -/
theorem bindContext_fails {r : Renderer} {tinfo : RenderThreadInfo} {now : TimePoint} {c d rd : HandleType}
    {ok : Bool} (h : (r.bindContext tinfo now c d rd ok).1 ≠ true) :
    (r.bindContext tinfo now c d rd ok).2.2 = tinfo := by
  unfold bindContext at h ⊢
  dsimp only at h ⊢
  split_ifs at h ⊢
  · split at h
    · rfl
    · exact absurd rfl h
  · split
    · rfl
    · rfl
  · exact absurd rfl h
  · rfl

/-- Every entry was there before, for the same colour buffer. -/
def SameBuffers (r r' : Renderer) : Prop :=
  ∀ h ref', r'.m_colorbuffers.find? h = some ref' →
    ∃ ref, r.m_colorbuffers.find? h = some ref ∧ ref.cb = ref'.cb

theorem SameBuffers.refl (r : Renderer) : SameBuffers r r := fun _ ref h => ⟨ref, h, rfl⟩

theorem SameBuffers.trans {r1 r2 r3 : Renderer} (h1 : SameBuffers r1 r2) (h2 : SameBuffers r2 r3) :
    SameBuffers r1 r3 := by
  intro h ref3 hf3
  obtain ⟨ref2, hf2, he2⟩ := h2 h ref3 hf3
  obtain ⟨ref1, hf1, he1⟩ := h1 h ref2 hf2
  exact ⟨ref1, hf1, he1.trans he2⟩

theorem sameBuffers_drop (r : Renderer) (h : HandleType) : SameBuffers r (r.dropReference h) := by
  intro k ref' hf
  by_cases hk : k = h
  · subst hk
    unfold dropReference freeColorBuffer at hf
    split at hf
    · exact ⟨ref', hf, rfl⟩
    · rename_i ref hr
      split_ifs at hf
      · exact ⟨ref', hf, rfl⟩
      · simp at hf
      · rw [find?_insert, if_pos rfl] at hf
        exact ⟨ref, hr, by rw [← Option.some.inj hf]⟩
  · rw [find?_dropReference_ne r hk] at hf
    exact ⟨ref', hf, rfl⟩

theorem sameBuffers_addReference (r : Renderer) (h : HandleType) : SameBuffers r (r.addReference h) := by
  intro k ref' hf
  unfold addReference at hf
  split at hf
  · exact ⟨ref', hf, rfl⟩
  · rename_i ref hr
    dsimp only at hf
    rw [find?_insert] at hf
    split_ifs at hf with hk
    · subst hk
      exact ⟨ref, hr, by rw [← Option.some.inj hf]⟩
    · exact ⟨ref', hf, rfl⟩

theorem sameBuffers_release (r : Renderer) (h : HandleType) :
    SameBuffers r (r.releaseWindowSurfaceColorBufferLocked h) := by
  unfold releaseWindowSurfaceColorBufferLocked
  split_ifs
  · exact .refl r
  · exact sameBuffers_drop r h

theorem cleanup_sameBuffers (r : Renderer) : CleanupInvariant (SameBuffers r) := by
  refine ⟨fun r' m dc dw h => h, fun r' s h => ?_⟩
  unfold destroyDeferredWindowLocked
  split
  · exact h
  · exact h.trans (sameBuffers_release r' _)

/-- `setWindowSurfaceColorBuffer` puts no other colour buffer behind a handle. -/
theorem sameBuffers_setColorBuffer (r : Renderer) (now : TimePoint) (s p : HandleType) :
    SameBuffers r (r.setWindowSurfaceColorBuffer now s p).2 := by
  have hreap : SameBuffers r (r.reapDeferredResourcesLocked now) := (cleanup_sameBuffers r).reap (.refl r) now
  obtain ⟨r1, hr1, hcases⟩ := setColorBuffer_cases r now s p
  have h1 : SameBuffers r r1 := by
    rw [hr1]
    exact hreap
  rcases hcases with he | ⟨w, -, -, -, -, he⟩
  · rw [he]
    exact h1
  · rw [he]
    refine h1.trans ?_
    unfold reattach
    dsimp only
    split_ifs
    · exact (sameBuffers_release r1 w.2).trans (sameBuffers_addReference _ p)
    · exact sameBuffers_release r1 w.2

end Renderer

namespace World

variable {w w' : World} {t : ThreadId} {tinfo tinfo' : RenderThreadInfo}

theorem SameCurrent.refl (tinfo : RenderThreadInfo) : SameCurrent tinfo tinfo := ⟨rfl, rfl, rfl⟩

/-- A step that makes nothing current. -/
structure KeepsCurrent (w w' : World) : Prop where
  windows : ∀ h win, w'.renderer.m_windows.find? h = some win →
    (∃ a, w.renderer.m_windows.find? h = some (win.1, a)) ∨ win.1 = w.nextPtr ∧ w.nextPtr < w'.nextPtr
  threads : ∀ t tinfo', w'.threads.find? t = some tinfo' →
    ∃ tinfo, w.threads.find? t = some tinfo ∧ SameCurrent tinfo tinfo'
  nextPtr : w.nextPtr ≤ w'.nextPtr

theorem KeepsCurrent.refl (w : World) : KeepsCurrent w w where
  windows _ win hwin := Or.inl ⟨win.2, hwin⟩
  threads _ tinfo h := ⟨tinfo, h, .refl _⟩
  nextPtr := Nat.le_refl _

theorem KeepsCurrent.tables (hs : Shrinks w.renderer w'.renderer) (ht : w'.threads = w.threads)
    (hn : w.nextPtr ≤ w'.nextPtr) : KeepsCurrent w w' where
  windows h win hwin := Or.inl (hs.windows h win hwin)
  threads _ tinfo' h := ⟨tinfo', ht ▸ h, .refl _⟩
  nextPtr := hn

/-- The threads, when one of them has the same things current as before. -/
theorem SameCurrent.threads (hs : SameCurrent tinfo tinfo') (ht : w.threads.find? t = some tinfo)
    (hw : w'.threads = w.threads.insert t tinfo') (t1 : ThreadId) (tinfo1 : RenderThreadInfo)
    (h : w'.threads.find? t1 = some tinfo1) :
    ∃ tinfo, w.threads.find? t1 = some tinfo ∧ SameCurrent tinfo tinfo1 := by
  rw [hw, find?_insert] at h
  split_ifs at h with he
  · subst he
    exact ⟨tinfo, ht, Option.some.inj h ▸ hs⟩
  · exact ⟨tinfo1, h, .refl _⟩

theorem KeepsCurrent.thread (hs : Shrinks w.renderer w'.renderer) (ht : w.threads.find? t = some tinfo)
    (hw : w'.threads = w.threads.insert t tinfo') (hsame : SameCurrent tinfo tinfo')
    (hn : w.nextPtr ≤ w'.nextPtr) : KeepsCurrent w w' where
  windows h win hwin := Or.inl (hs.windows h win hwin)
  threads := hsame.threads ht hw
  nextPtr := hn

theorem SameTables.keepsCurrent (hs : SameTables w.renderer w'.renderer) (ht : w'.threads = w.threads)
    (hn : w.nextPtr ≤ w'.nextPtr) : KeepsCurrent w w' where
  windows h win hwin := Or.inl ⟨win.2, by rw [← hs.windows]; exact hwin⟩
  threads _ tinfo' h := ⟨tinfo', ht ▸ h, .refl _⟩
  nextPtr := hn

theorem keepsCurrent_createContext {cfg : Int} {share ret : HandleType} {gl : Option RenderContextPtr}
    {r : Renderer} (ht : w.threads.find? t = some tinfo)
    (h : w.renderer.createRenderContext tinfo cfg share gl = some (ret, r, tinfo')) :
    KeepsCurrent w { w.update t r tinfo' with nextPtr := w.nextPtr + 1 } := by
  rcases createRenderContext_cases h with ⟨-, rfl, rfl⟩ | ⟨rctx, r1, -, hgen, rfl, rfl⟩
  · exact .thread (.refl _) ht rfl (.refl _) (Nat.le_succ _)
  · obtain ⟨rfl, -⟩ := genHandle_spec hgen
    have hsame : SameCurrent tinfo { tinfo with m_contextSet := tinfo.m_contextSet.insert ret () } :=
      ⟨rfl, rfl, rfl⟩
    exact ⟨fun h win hwin => Or.inl ⟨win.2, hwin⟩, hsame.threads ht rfl, Nat.le_succ _⟩

theorem keepsCurrent_createWindow {cfg : Int} {ret : HandleType} {gl : Bool} {r : Renderer}
    (ht : w.threads.find? t = some tinfo)
    (h : w.renderer.createWindowSurface tinfo cfg (if gl then some w.nextPtr else none) =
      some (ret, r, tinfo')) : KeepsCurrent w { w.update t r tinfo' with nextPtr := w.nextPtr + 1 } := by
  rcases createWindowSurface_cases h with ⟨-, rfl, rfl⟩ | ⟨win, r1, hgl, hgen, rfl, rfl⟩
  · exact .thread (.refl _) ht rfl (.refl _) (Nat.le_succ _)
  · obtain ⟨rfl, -⟩ := genHandle_spec hgen
    have hptr : win = w.nextPtr := by
      split_ifs at hgl
      exact (Option.some.inj hgl).symm
    have hsame : SameCurrent tinfo { tinfo with m_windowSet := tinfo.m_windowSet.insert ret () } :=
      ⟨rfl, rfl, rfl⟩
    refine ⟨fun h win1 hwin => ?_, hsame.threads ht rfl, Nat.le_succ _⟩
    have hwin' : (w.renderer.m_windows.insert ret (win, 0)).find? h = some win1 := hwin
    rw [find?_insert] at hwin'
    split_ifs at hwin'
    · exact Or.inr ⟨by rw [← Option.some.inj hwin', hptr], Nat.lt_succ_self _⟩
    · exact Or.inl ⟨win1.2, hwin'⟩

theorem step_keepsCurrent {op : Op} {rep : Reply} (hop : op.keepsCurrent = true)
    (h : w.step op = some (w', rep)) : KeepsCurrent w w' := by
  cases op with
  | tick elapsed =>
    cases h
    exact .tables (.refl _) rfl (Nat.le_refl _)
  | startThread t => cases hop
  | createColorBuffer pw ph fmt gl =>
    obtain ⟨⟨ret, r1⟩, hc, he⟩ := Option.map_eq_some_iff.mp h
    cases he
    exact SameTables.keepsCurrent (sameTables_createColorBuffer hc) rfl (Nat.le_succ _)
  | openColorBuffer k =>
    cases h
    exact .tables (shrinks_openColorBuffer _ k) rfl (Nat.le_refl _)
  | closeColorBuffer k =>
    cases h
    exact .tables (shrinks_drop _ k) rfl (Nat.le_refl _)
  | createRenderContext t cfg share gl =>
    obtain ⟨tinfo, ht, h⟩ := onThread_some h
    obtain ⟨⟨ret, r1, tinfo1⟩, hc, he⟩ := Option.map_eq_some_iff.mp h
    cases he
    exact keepsCurrent_createContext ht hc
  | createWindowSurface t cfg gl =>
    obtain ⟨tinfo, ht, h⟩ := onThread_some h
    obtain ⟨⟨ret, r1, tinfo1⟩, hc, he⟩ := Option.map_eq_some_iff.mp h
    cases he
    exact keepsCurrent_createWindow ht hc
  | drainRenderContext t =>
    obtain ⟨tinfo, ht, h⟩ := onThread_some h
    cases h
    exact .thread (shrinks_drainContexts _ tinfo) ht rfl ⟨rfl, rfl, rfl⟩ (Nat.le_refl _)
  | drainWindowSurface t =>
    obtain ⟨tinfo, ht, h⟩ := onThread_some h
    cases h
    exact .thread (shrinks_drainWindows _ tinfo) ht rfl ⟨rfl, rfl, rfl⟩ (Nat.le_refl _)
  | DestroyRenderContext t c =>
    obtain ⟨tinfo, ht, h⟩ := onThread_some h
    cases h
    exact .thread (shrinks_destroyContext _ tinfo w.now c) ht rfl ⟨rfl, rfl, rfl⟩ (Nat.le_refl _)
  | DestroyWindowSurface t s =>
    obtain ⟨tinfo, ht, h⟩ := onThread_some h
    cases h
    exact .thread (shrinks_destroySurface _ tinfo w.now s) ht rfl (destroySurface_current _ tinfo w.now s)
      (Nat.le_refl _)
  | bindContext t c d rd gl => cases hop
  | setWindowSurfaceColorBuffer s p =>
    cases h
    exact .tables (shrinks_setColorBuffer _ w.now s p) rfl (Nat.le_refl _)
  | retainPostedColorBuffer p =>
    cases h
    exact .tables (shrinks_retainPosted _ w.now p) rfl (Nat.le_refl _)
  | retain_frame rds gl =>
    obtain ⟨res, hc, he⟩ := Option.map_eq_some_iff.mp h
    cases he
    exact SameTables.keepsCurrent (sameTables_retain_frame hc) rfl (nextPtr_retain_frame hc)
  | release_frame rds =>
    cases h
    exact .tables (shrinks_release_frame _ rds) rfl (Nat.le_refl _)
  | exitThread t elapsed =>
    obtain ⟨tinfo, ht, h⟩ := onThread_some h
    cases h
    refine ⟨fun h win hwin => Or.inl ((shrinks_deferThread w.renderer tinfo w.now _).windows h win hwin),
      fun t1 tinfo1 h1 => ⟨tinfo1, (find?_of_erase h1).2, .refl _⟩, Nat.le_refl _⟩

/-! ## Invariants of the bookkeeping -/

/-- A thread has a context current together with both surfaces, and the addresses of all windows have
been given out. -/
structure BookkeepingOk (w : World) : Prop where
  together : ∀ t tinfo, w.threads.find? t = some tinfo → tinfo.currContext = none →
    tinfo.currDrawSurf = none ∧ tinfo.currReadSurf = none
  windows : ∀ h win, w.renderer.m_windows.find? h = some win → win.1 < w.nextPtr
  used : ∀ p, w.UsesWindow p → p < w.nextPtr

theorem bookkeepingOk_init (configs : Nat) : (renderMachine configs).init.BookkeepingOk := by
  refine ⟨fun t tinfo h => ?_, fun h win hwin => ?_, fun p hu => ?_⟩
  · simp [renderMachine] at h
  · simp [renderMachine] at hwin
  · obtain ⟨t, ti, h, -⟩ := hu
    simp [renderMachine] at h

theorem BookkeepingOk.keepsCurrent (hb : w.BookkeepingOk) (hk : KeepsCurrent w w') : w'.BookkeepingOk := by
  refine ⟨fun t tinfo' ht' hnone => ?_, fun h win hwin => ?_, fun p hu => ?_⟩
  · obtain ⟨tinfo, ht, hc, hd, hr⟩ := hk.threads t tinfo' ht'
    rw [hd, hr]
    exact hb.together t tinfo ht (hc ▸ hnone)
  · rcases hk.windows h win hwin with ⟨a, ha⟩ | ⟨he, hlt⟩
    · exact Nat.lt_of_lt_of_le (hb.windows h (win.1, a) ha) hk.nextPtr
    · exact he ▸ hlt
  · obtain ⟨t, tinfo', ht', hcur⟩ := hu
    obtain ⟨tinfo, ht, -, hd, hr⟩ := hk.threads t tinfo' ht'
    rw [hd, hr] at hcur
    exact Nat.lt_of_lt_of_le (hb.used p ⟨t, tinfo, ht, hcur⟩) hk.nextPtr

/-- A new thread has nothing current. -/
theorem step_startThread {rep : Reply} (h : w.step (.startThread t) = some (w', rep)) :
    t ∉ w.threads ∧ w' = { w with threads := w.threads.insert t {} } := by
  simp only [step] at h
  split_ifs at h with ht
  cases h
  exact ⟨ht, rfl⟩

theorem BookkeepingOk.start {rep : Reply} (hb : w.BookkeepingOk)
    (h : w.step (.startThread t) = some (w', rep)) : w'.BookkeepingOk := by
  obtain ⟨-, rfl⟩ := step_startThread h
  refine ⟨fun t1 tinfo1 h1 hnone => ?_, hb.windows, fun p hu => ?_⟩
  · rw [find?_insert] at h1
    split_ifs at h1
    · cases Option.some.inj h1
      exact ⟨rfl, rfl⟩
    · exact hb.together t1 tinfo1 h1 hnone
  · rcases usesWindow_update rfl hu with hold | hnew | hnew
    · exact hb.used p hold
    · cases hnew
    · cases hnew

/-- What `bindContext` does: it fails and leaves the thread alone, or the thread has nothing current
afterwards, or a context and two windows of the table. -/
theorem step_bindContext {c d rd : HandleType} {gl : Bool} {rep : Reply}
    (h : w.step (.bindContext t c d rd gl) = some (w', rep)) :
    ∃ tinfo tinfo', w.threads.find? t = some tinfo ∧ w'.threads = w.threads.insert t tinfo' ∧
      w'.nextPtr = w.nextPtr ∧ Shrinks w.renderer w'.renderer ∧ (rep ≠ .flag true → tinfo' = tinfo) ∧
      (tinfo' = tinfo ∨
        tinfo' = { tinfo with currContext := none, currDrawSurf := none, currReadSurf := none } ∨
        ∃ ctx draw read, tinfo' = { tinfo with
            currContext := some ctx, currDrawSurf := some draw, currReadSurf := some read } ∧
          (∃ a, w.renderer.m_windows.find? d = some (draw, a)) ∧
          ∃ a, w.renderer.m_windows.find? rd = some (read, a)) := by
  obtain ⟨tinfo, ht, h⟩ := onThread_some h
  cases h
  refine ⟨tinfo, _, ht, rfl, rfl, shrinks_bindContext _ tinfo _ c d rd gl, fun hrep => ?_, ?_⟩
  · exact bindContext_fails fun hok => hrep (congrArg Reply.flag hok)
  rcases bindContext_current w.renderer tinfo w.now c d rd gl with he | he | ⟨-, ctx, draw, read, hl, he⟩
  · exact Or.inl he
  · exact Or.inr (Or.inl he)
  · obtain ⟨-, ⟨a, hdraw⟩, b, hread⟩ := lookupBinding_found hl
    obtain ⟨a', ha⟩ := (shrinks_reap w.renderer w.now).windows d _ hdraw
    obtain ⟨b', hb⟩ := (shrinks_reap w.renderer w.now).windows rd _ hread
    exact Or.inr (Or.inr ⟨ctx, draw, read, he, ⟨a', ha⟩, b', hb⟩)

theorem BookkeepingOk.bind {c d rd : HandleType} {gl : Bool} {rep : Reply} (hb : w.BookkeepingOk)
    (h : w.step (.bindContext t c d rd gl) = some (w', rep)) : w'.BookkeepingOk := by
  obtain ⟨tinfo, tinfo', ht, hthreads, hnext, hs, -, hcur⟩ := step_bindContext h
  have hwindows : ∀ h win, w'.renderer.m_windows.find? h = some win → win.1 < w'.nextPtr := by
    intro h win hwin
    obtain ⟨a, ha⟩ := hs.windows h win hwin
    rw [hnext]
    exact hb.windows h (win.1, a) ha
  refine ⟨fun t1 tinfo1 h1 hnone => ?_, hwindows, fun p hu => ?_⟩
  · rw [hthreads, find?_insert] at h1
    split_ifs at h1 with he
    · cases Option.some.inj h1
      rcases hcur with rfl | rfl | ⟨ctx, draw, read, rfl, -⟩
      · exact hb.together t tinfo' ht hnone
      · exact ⟨rfl, rfl⟩
      · cases hnone
    · exact hb.together t1 tinfo1 h1 hnone
  · rw [hnext]
    rcases usesWindow_update hthreads hu with hold | hnew
    · exact hb.used p hold
    · rcases hcur with rfl | rfl | ⟨ctx, draw, read, rfl, ⟨a, hdraw⟩, b, hread⟩
      · exact hb.used p ⟨t, tinfo', ht, hnew⟩
      · rcases hnew with hnew | hnew <;> cases hnew
      · rcases hnew with hnew | hnew
        · exact Option.some.inj hnew ▸ hb.windows d _ hdraw
        · exact Option.some.inj hnew ▸ hb.windows rd _ hread

theorem BookkeepingOk.step {op : Op} {rep : Reply} (hb : w.BookkeepingOk)
    (h : w.step op = some (w', rep)) : w'.BookkeepingOk := by
  cases hop : op.keepsCurrent with
  | true => exact hb.keepsCurrent (step_keepsCurrent hop h)
  | false =>
    cases op <;> first
      | exact hb.bind h
      | exact hb.start h
      | cases hop

end World

end AnboxReboxed.Emugl
