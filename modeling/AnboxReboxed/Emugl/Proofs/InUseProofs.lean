import AnboxReboxed.Emugl.Proofs.OwnershipProofs

/-!
# Proofs: deferred resources and their users

A resource that some thread has current is not deferred: binding it cancels the deferral, and only an
exiting creator defers it again. As long as no creator exits under a user, the reaper removes nothing
that is in use.
-/

namespace AnboxReboxed.Emugl

open AnboxReboxed.Lib OrdMap Renderer

/-! ## Tables of objects -/

/-- A table of objects, each stored under one handle, in which no deferred object is used. `next` is
the address of the next object. -/
structure Idle {α : Type} (obj : α → Nat) (table : OrdMap HandleType α)
    (deferred : OrdMap HandleType TimePoint) (used : Nat → Prop) (next : Nat) : Prop where
  unique : ∀ h1 h2 v1 v2, table.find? h1 = some v1 → table.find? h2 = some v2 → obj v1 = obj v2 → h1 = h2
  old : ∀ h v, table.find? h = some v → obj v < next
  usedOld : ∀ p, used p → p < next
  idle : ∀ h v, table.find? h = some v → h ∈ deferred → ¬ used (obj v)

namespace Idle

variable {α : Type} {obj : α → Nat} {table table' : OrdMap HandleType α}
  {deferred deferred' : OrdMap HandleType TimePoint} {used used' : Nat → Prop} {next next' : Nat}

/-- Entries, deferrals and users may go. -/
theorem mono (hi : Idle obj table deferred used next)
    (ht : ∀ h v', table'.find? h = some v' → ∃ v, table.find? h = some v ∧ obj v = obj v')
    (hd : ∀ h, h ∈ deferred' → h ∈ deferred) (hu : ∀ p, used' p → used p) (hn : next ≤ next') :
    Idle obj table' deferred' used' next' := by
  refine ⟨fun h1 h2 v1 v2 e1 e2 he => ?_, fun h v hv => ?_, fun p hp => lt_of_lt_of_le (hi.usedOld p (hu p hp)) hn,
    fun h v hv hdef hp => ?_⟩
  · obtain ⟨w1, f1, g1⟩ := ht h1 v1 e1
    obtain ⟨w2, f2, g2⟩ := ht h2 v2 e2
    exact hi.unique h1 h2 w1 w2 f1 f2 (g1.trans (he.trans g2.symm))
  · obtain ⟨w, f, g⟩ := ht h v hv
    exact g ▸ lt_of_lt_of_le (hi.old h w f) hn
  · obtain ⟨w, f, g⟩ := ht h v hv
    exact hi.idle h w f (hd h hdef) (g ▸ hu _ hp)

/-- A new object is used by nobody. -/
theorem insert (hi : Idle obj table deferred used next) {h : HandleType} {v : α} (hv : obj v = next) :
    Idle obj (table.insert h v) deferred used (next + 1) := by
  have hcase : ∀ k w, (table.insert h v).find? k = some w →
      (k = h ∧ obj w = next) ∨ (table.find? k = some w ∧ obj w < next) := by
    intro k w hw
    rw [find?_insert] at hw
    split_ifs at hw with hk
    · exact Or.inl ⟨hk, by rw [← Option.some.inj hw]; exact hv⟩
    · exact Or.inr ⟨hw, hi.old k w hw⟩
  refine ⟨fun h1 h2 v1 v2 e1 e2 he => ?_, fun k w hw => ?_, fun p hp => Nat.lt_succ_of_lt (hi.usedOld p hp),
    fun k w hw hdef hp => ?_⟩
  · rcases hcase h1 v1 e1 with ⟨k1, n1⟩ | ⟨f1, n1⟩ <;> rcases hcase h2 v2 e2 with ⟨k2, n2⟩ | ⟨f2, n2⟩
    · exact k1.trans k2.symm
    · omega
    · omega
    · exact hi.unique h1 h2 v1 v2 f1 f2 he
  · rcases hcase k w hw with ⟨-, n⟩ | ⟨-, n⟩ <;> omega
  · rcases hcase k w hw with ⟨-, n⟩ | ⟨f, -⟩
    · have := hi.usedOld _ hp
      omega
    · exact hi.idle k w f hdef hp

/-- An entry whose deferral is cancelled may be used. -/
theorem use (used' : Nat → Prop) (hi : Idle obj table deferred used next) {h : HandleType} {v : α}
    (hf : table.find? h = some v) (hh : h ∉ deferred) (hu : ∀ p, used' p → used p ∨ p = obj v) :
    Idle obj table deferred used' next := by
  refine ⟨hi.unique, hi.old, fun p hp => ?_, fun k w hw hdef hp => ?_⟩
  · rcases hu p hp with hp | rfl
    · exact hi.usedOld p hp
    · exact hi.old h v hf
  · rcases hu _ hp with hp | he
    · exact hi.idle k w hw hdef hp
    · exact hh (hi.unique k h w v hw hf he ▸ hdef)

/-- Unused entries may be deferred. -/
theorem defer (deferred : OrdMap HandleType TimePoint) (hi : Idle obj table deferred used next)
    (hd : ∀ h v, h ∈ deferred' → table.find? h = some v → h ∈ deferred ∨ ¬ used (obj v)) :
    Idle obj table deferred' used next :=
  ⟨hi.unique, hi.old, hi.usedOld, fun h v hv hdef hp =>
    (hd h v hdef hv).elim (fun hd' => hi.idle h v hv hd' hp) (fun hn => hn hp)⟩

end Idle

namespace Renderer

/-! ## Operations that defer nothing -/

/-- `r'` has no deferral that `r` does not have. -/
structure NoNewDeferrals (r r' : Renderer) : Prop where
  contexts : ∀ h, h ∈ r'.m_deferredContexts → h ∈ r.m_deferredContexts
  windows : ∀ h, h ∈ r'.m_deferredWindows → h ∈ r.m_deferredWindows

theorem NoNewDeferrals.refl (r : Renderer) : NoNewDeferrals r r := ⟨fun _ => id, fun _ => id⟩

theorem NoNewDeferrals.trans {r1 r2 r3 : Renderer} (h1 : NoNewDeferrals r1 r2)
    (h2 : NoNewDeferrals r2 r3) : NoNewDeferrals r1 r3 :=
  ⟨fun h hh => h1.contexts h (h2.contexts h hh), fun h hh => h1.windows h (h2.windows h hh)⟩

theorem NoNewDeferrals.of_eq {r r' : Renderer} (hc : r'.m_deferredContexts = r.m_deferredContexts)
    (hw : r'.m_deferredWindows = r.m_deferredWindows) : NoNewDeferrals r r' :=
  ⟨fun _ hh => hc ▸ hh, fun _ hh => hw ▸ hh⟩

theorem noNewDeferrals_reap (r : Renderer) (now : TimePoint) :
    NoNewDeferrals r (r.reapDeferredResourcesLocked now) :=
  ⟨fun h hh => ((mem_of_reaped (find?_deferredContexts_reap r now h)).mp hh).1,
    fun h hh => ((mem_of_reaped (find?_deferredWindows_reap r now h)).mp hh).1⟩

theorem noNewDeferrals_reapWindow (r : Renderer) (s : HandleType) : NoNewDeferrals r (r.reapWindow s) := by
  refine ⟨fun h hh => (sameButWindows_reapWindow r s).deferredContexts ▸ hh, fun h hh => ?_⟩
  rw [deferredWindows_reapWindow] at hh
  exact (mem_erase.mp hh).2

theorem noNewDeferrals_drainContexts (r : Renderer) (tinfo : RenderThreadInfo) :
    NoNewDeferrals r (r.drainRenderContext tinfo).1 := by
  refine foldl_rel NoNewDeferrals.refl (fun _ _ _ => NoNewDeferrals.trans) (fun r h => ?_) _ r
  exact .of_eq rfl rfl

theorem noNewDeferrals_drainWindows (r : Renderer) (tinfo : RenderThreadInfo) :
    NoNewDeferrals r (r.drainWindowSurface tinfo).1 := by
  refine foldl_rel NoNewDeferrals.refl (fun _ _ _ => NoNewDeferrals.trans) (fun r h => ?_) _ r
  exact .of_eq (sameButWindows_destroy r h).deferredContexts (deferredWindows_destroy r h)

theorem noNewDeferrals_destroyContext (r : Renderer) (tinfo : RenderThreadInfo) (now : TimePoint)
    (c : HandleType) : NoNewDeferrals r (r.DestroyRenderContext tinfo now c).1 :=
  (noNewDeferrals_reap r now).trans ⟨fun _ hh => (mem_erase.mp hh).2, fun _ => id⟩

theorem noNewDeferrals_destroySurface (r : Renderer) (tinfo : RenderThreadInfo) (now : TimePoint)
    (s : HandleType) : NoNewDeferrals r (r.DestroyWindowSurface tinfo now s).1 := by
  rw [destroySurface_renderer]
  exact (noNewDeferrals_reap r now).trans (noNewDeferrals_reapWindow _ s)

theorem noNewDeferrals_bindContext (r : Renderer) (tinfo : RenderThreadInfo) (now : TimePoint)
    (c d rd : HandleType) (ok : Bool) : NoNewDeferrals r (r.bindContext tinfo now c d rd ok).2.1 := by
  rw [bindContext_renderer]
  split_ifs
  · obtain ⟨-, -, h3, h4⟩ := lookupBinding_spec (r.reapDeferredResourcesLocked now) c d rd
    exact (noNewDeferrals_reap r now).trans ⟨fun h hh => ((h3 h).mp hh).1, fun h hh => ((h4 h).mp hh).1⟩
  · exact noNewDeferrals_reap r now

theorem noNewDeferrals_setColorBuffer (r : Renderer) (now : TimePoint) (s p : HandleType) :
    NoNewDeferrals r (r.setWindowSurfaceColorBuffer now s p).2 := by
  obtain ⟨-, -, h3, h4⟩ := setColorBuffer_tables r now s p
  refine (noNewDeferrals_reap r now).trans ⟨fun h hh => h3 ▸ hh, fun h hh => ?_⟩
  rw [h4] at hh
  exact (mem_erase.mp hh).2

theorem noNewDeferrals_retainPosted (r : Renderer) (now : TimePoint) (p : HandleType) :
    NoNewDeferrals r (r.retainPostedColorBuffer now p).2 := by
  obtain ⟨r1, rfl, hcases⟩ := retainPosted_cases r now p
  refine (noNewDeferrals_reap r now).trans ?_
  rcases hcases with he | ⟨-, -, -, he⟩
  · rw [he]
    exact .refl _
  · rw [he]
    have h1 := sameButBuffers_addReference (r.reapDeferredResourcesLocked now) p
    have h2 := sameButBuffers_release
      { (r.reapDeferredResourcesLocked now).addReference p with m_lastPostedColorBuffer := p }
      (r.reapDeferredResourcesLocked now).m_lastPostedColorBuffer
    exact .of_eq (h2.deferredContexts.trans h1.deferredContexts) (h2.deferredWindows.trans h1.deferredWindows)

/-- A loop that defers only the handles it visits. -/
theorem foldl_deferred (f : Renderer → HandleType → Renderer)
    (deferred : Renderer → OrdMap HandleType TimePoint)
    (hf : ∀ r a h, h ∈ deferred (f r a) → h ∈ deferred r ∨ h = a) (l : List HandleType) :
    ∀ (r : Renderer) (h : HandleType), h ∈ deferred (l.foldl f r) → h ∈ deferred r ∨ h ∈ l := by
  induction l with
  | nil => exact fun r h hh => Or.inl hh
  | cons a l ih =>
    intro r h hh
    rcases ih (f r a) h hh with h1 | h1
    · refine (hf r a h h1).imp_right fun he => ?_
      rw [he]
      exact List.mem_cons_self
    · exact Or.inr (List.mem_cons_of_mem a h1)

theorem deferContext_deferred (expiry : TimePoint) (r : Renderer) (a h : HandleType)
    (hh : h ∈ (deferContext expiry r a).m_deferredContexts) : h ∈ r.m_deferredContexts ∨ h = a := by
  unfold deferContext at hh
  split_ifs at hh
  · exact Or.inl hh
  · exact (mem_insert.mp hh).symm
  · exact Or.inl hh

theorem deferWindow_deferred (expiry : TimePoint) (r : Renderer) (a h : HandleType)
    (hh : h ∈ (deferWindow expiry r a).m_deferredWindows) : h ∈ r.m_deferredWindows ∨ h = a := by
  unfold deferWindow at hh
  split_ifs at hh
  · rw [deferredWindows_destroy] at hh
    exact Or.inl hh
  · exact (mem_insert.mp hh).symm
  · exact Or.inl hh

/-- What `deferCurrentThreadResources` defers belonged to the thread. -/
theorem deferThread_deferred (r : Renderer) (tinfo : RenderThreadInfo) (now later : TimePoint) :
    (∀ h, h ∈ (r.deferCurrentThreadResources tinfo now later).1.m_deferredContexts →
      h ∈ r.m_deferredContexts ∨ h ∈ tinfo.m_contextSet) ∧
    (∀ h, h ∈ (r.deferCurrentThreadResources tinfo now later).1.m_deferredWindows →
      h ∈ r.m_deferredWindows ∨ h ∈ tinfo.m_windowSet) := by
  have hreap := noNewDeferrals_reap r now
  refine ⟨fun h hh => ?_, fun h hh => ?_⟩
  · have hh' := (deferWindow_contexts (later + kDeferredLifetime) tinfo.m_windowSet.keys _).deferredContexts ▸ hh
    rcases foldl_deferred _ m_deferredContexts (deferContext_deferred (later + kDeferredLifetime))
      tinfo.m_contextSet.keys _ h hh' with h1 | h1
    · exact Or.inl (hreap.contexts h h1)
    · exact Or.inr (mem_keys_iff.mp h1)
  · rcases foldl_deferred _ m_deferredWindows (deferWindow_deferred (later + kDeferredLifetime))
      tinfo.m_windowSet.keys _ h hh with h1 | h1
    · rw [(deferContext_windows _ _ _).2] at h1
      exact Or.inl (hreap.windows h h1)
    · exact Or.inr (mem_keys_iff.mp h1)

end Renderer

/-! ## Steps -/

namespace World

/-- No deferred context or window is in use. -/
structure DeferredIdle (w : World) : Prop where
  contexts : Idle id w.renderer.m_contexts w.renderer.m_deferredContexts w.UsesContext w.nextPtr
  windows : Idle Prod.fst w.renderer.m_windows w.renderer.m_deferredWindows w.UsesWindow w.nextPtr

variable {w w' : World} {t : ThreadId} {tinfo tinfo' : RenderThreadInfo} {r : Renderer}

/-- A step that adds no entry, no deferral and no user. -/
theorem DeferredIdle.quiet (hi : w.DeferredIdle) (hs : Shrinks w.renderer w'.renderer)
    (hd : NoNewDeferrals w.renderer w'.renderer) (hc : ∀ p, w'.UsesContext p → w.UsesContext p)
    (hw : ∀ p, w'.UsesWindow p → w.UsesWindow p) (hn : w.nextPtr ≤ w'.nextPtr) : w'.DeferredIdle := by
  refine ⟨hi.contexts.mono (fun h p hp => ⟨p, hs.contexts h p hp, rfl⟩) hd.contexts hc hn,
    hi.windows.mono (fun h win hwin => ?_) hd.windows hw hn⟩
  obtain ⟨a, ha⟩ := hs.windows h win hwin
  exact ⟨(win.1, a), ha, rfl⟩

/-- A step of the tables only. -/
theorem DeferredIdle.tables (hi : w.DeferredIdle) (hs : Shrinks w.renderer w'.renderer)
    (hd : NoNewDeferrals w.renderer w'.renderer) (ht : w'.threads = w.threads)
    (hn : w.nextPtr ≤ w'.nextPtr) : w'.DeferredIdle := by
  refine hi.quiet hs hd (fun p hp => ?_) (fun p hp => ?_) hn
  · unfold UsesContext at hp ⊢
    rwa [← ht]
  · unfold UsesWindow at hp ⊢
    rwa [← ht]

/-- The users after an update of thread `t`. -/
theorem usesContext_update {p : RenderContextPtr} (hw : w'.threads = w.threads.insert t tinfo')
    (hu : w'.UsesContext p) : w.UsesContext p ∨ tinfo'.currContext = some p := by
  obtain ⟨t1, ti, h1, h2⟩ := hu
  rw [hw, find?_insert] at h1
  split_ifs at h1
  · exact Or.inr (Option.some.inj h1 ▸ h2)
  · exact Or.inl ⟨t1, ti, h1, h2⟩

theorem usesWindow_update {p : WindowSurfacePtr} (hw : w'.threads = w.threads.insert t tinfo')
    (hu : w'.UsesWindow p) :
    w.UsesWindow p ∨ tinfo'.currDrawSurf = some p ∨ tinfo'.currReadSurf = some p := by
  obtain ⟨t1, ti, h1, h2⟩ := hu
  rw [hw, find?_insert] at h1
  split_ifs at h1
  · exact Or.inr (Option.some.inj h1 ▸ h2)
  · exact Or.inl ⟨t1, ti, h1, h2⟩

/-- The thread has the same things current. -/
def SameCurrent (tinfo tinfo' : RenderThreadInfo) : Prop :=
  tinfo'.currContext = tinfo.currContext ∧ tinfo'.currDrawSurf = tinfo.currDrawSurf ∧
    tinfo'.currReadSurf = tinfo.currReadSurf

theorem SameCurrent.usesContext (hs : SameCurrent tinfo tinfo') (ht : w.threads.find? t = some tinfo)
    (hw : w'.threads = w.threads.insert t tinfo') (p : RenderContextPtr) (hu : w'.UsesContext p) :
    w.UsesContext p :=
  (usesContext_update hw hu).elim id fun h => ⟨t, tinfo, ht, hs.1.symm.trans h⟩

theorem SameCurrent.usesWindow (hs : SameCurrent tinfo tinfo') (ht : w.threads.find? t = some tinfo)
    (hw : w'.threads = w.threads.insert t tinfo') (p : WindowSurfacePtr) (hu : w'.UsesWindow p) :
    w.UsesWindow p := by
  rcases usesWindow_update hw hu with h | h | h
  · exact h
  · exact ⟨t, tinfo, ht, Or.inl (hs.2.1.symm.trans h)⟩
  · exact ⟨t, tinfo, ht, Or.inr (hs.2.2.symm.trans h)⟩

/-- A step of one thread that binds nothing. -/
theorem DeferredIdle.thread (hi : w.DeferredIdle) (hs : Shrinks w.renderer w'.renderer)
    (hd : NoNewDeferrals w.renderer w'.renderer) (ht : w.threads.find? t = some tinfo)
    (hw : w'.threads = w.threads.insert t tinfo') (hsame : SameCurrent tinfo tinfo')
    (hn : w.nextPtr ≤ w'.nextPtr) : w'.DeferredIdle :=
  hi.quiet hs hd (hsame.usesContext ht hw) (hsame.usesWindow ht hw) hn

theorem deferredIdle_createContext {cfg : Int} {share ret : HandleType} {gl : Bool} (hi : w.DeferredIdle)
    (ht : w.threads.find? t = some tinfo)
    (h : w.renderer.createRenderContext tinfo cfg share (if gl then some w.nextPtr else none) =
      some (ret, r, tinfo')) :
    DeferredIdle { w.update t r tinfo' with nextPtr := w.nextPtr + 1 } := by
  rcases createRenderContext_cases h with ⟨-, rfl, rfl⟩ | ⟨rctx, r1, hgl, hgen, rfl, rfl⟩
  · exact hi.thread (.refl _) (.refl _) ht rfl ⟨rfl, rfl, rfl⟩ (Nat.le_succ _)
  · obtain ⟨rfl, -⟩ := genHandle_spec hgen
    have hptr : rctx = w.nextPtr := by
      split_ifs at hgl
      exact (Option.some.inj hgl).symm
    subst hptr
    have hsame : SameCurrent tinfo { tinfo with m_contextSet := tinfo.m_contextSet.insert ret () } :=
      ⟨rfl, rfl, rfl⟩
    exact ⟨(hi.contexts.insert rfl).mono (fun h v hv => ⟨v, hv, rfl⟩) (fun _ => id)
        (hsame.usesContext ht rfl) (Nat.le_refl _),
      hi.windows.mono (fun h v hv => ⟨v, hv, rfl⟩) (fun _ => id) (hsame.usesWindow ht rfl) (Nat.le_succ _)⟩

theorem deferredIdle_createWindow {cfg : Int} {ret : HandleType} {gl : Bool} (hi : w.DeferredIdle)
    (ht : w.threads.find? t = some tinfo)
    (h : w.renderer.createWindowSurface tinfo cfg (if gl then some w.nextPtr else none) =
      some (ret, r, tinfo')) :
    DeferredIdle { w.update t r tinfo' with nextPtr := w.nextPtr + 1 } := by
  rcases createWindowSurface_cases h with ⟨-, rfl, rfl⟩ | ⟨win, r1, hgl, hgen, rfl, rfl⟩
  · exact hi.thread (.refl _) (.refl _) ht rfl ⟨rfl, rfl, rfl⟩ (Nat.le_succ _)
  · obtain ⟨rfl, -⟩ := genHandle_spec hgen
    have hptr : win = w.nextPtr := by
      split_ifs at hgl
      exact (Option.some.inj hgl).symm
    subst hptr
    have hsame : SameCurrent tinfo { tinfo with m_windowSet := tinfo.m_windowSet.insert ret () } :=
      ⟨rfl, rfl, rfl⟩
    exact ⟨hi.contexts.mono (fun h v hv => ⟨v, hv, rfl⟩) (fun _ => id) (hsame.usesContext ht rfl)
        (Nat.le_succ _),
      (hi.windows.insert (v := (w.nextPtr, 0)) rfl).mono (fun h v hv => ⟨v, hv, rfl⟩) (fun _ => id)
        (hsame.usesWindow ht rfl) (Nat.le_refl _)⟩

/-- What `bindContext` makes current has no deferral left. -/
theorem deferredIdle_bind {c d rd : HandleType} {gl : Bool} (hi : w.DeferredIdle)
    (ht : w.threads.find? t = some tinfo) :
    (w.update t (w.renderer.bindContext tinfo w.now c d rd gl).2.1
      (w.renderer.bindContext tinfo w.now c d rd gl).2.2).DeferredIdle := by
  have hs := shrinks_bindContext w.renderer tinfo w.now c d rd gl
  have hd := noNewDeferrals_bindContext w.renderer tinfo w.now c d rd gl
  rcases bindContext_current w.renderer tinfo w.now c d rd gl with he | he | ⟨hz, ctx, draw, read, hl, he⟩
  · exact hi.thread hs hd ht rfl (by rw [he]; exact ⟨rfl, rfl, rfl⟩) (Nat.le_refl _)
  · refine hi.quiet hs hd (fun p hu => (usesContext_update rfl hu).resolve_right ?_)
      (fun p hu => (usesWindow_update rfl hu).resolve_right ?_) (Nat.le_refl _)
    · rw [he]
      simp
    · rw [he]
      simp
  · obtain ⟨hc, ⟨a, hdraw⟩, ⟨b, hread⟩⟩ := lookupBinding_found hl
    obtain ⟨h1, h2, h3, h4⟩ := lookupBinding_spec (w.renderer.reapDeferredResourcesLocked w.now) c d rd
    have hr := bindContext_renderer w.renderer tinfo w.now c d rd gl
    rw [if_pos hz] at hr
    have hold : DeferredIdle
        { w with renderer := (w.renderer.bindContext tinfo w.now c d rd gl).2.1 } := hi.quiet
      hs hd (fun _ => id) (fun _ => id) (Nat.le_refl _)
    have hcm := mem_of_find? hc
    have hdm := mem_of_find? hdraw
    refine ⟨hold.contexts.use _ (h := c) (v := ctx) (by rw [hr, h1]; exact hc) ?_ (fun p hu => ?_), ?_⟩
    · rw [hr]
      exact fun hm => ((h3 c).mp hm).2 ⟨rfl, hcm⟩
    · refine (usesContext_update rfl hu).imp_right fun h => ?_
      rw [he] at h
      exact (Option.some.inj h).symm
    · have hrm := mem_of_find? hread
      have hwin : (w.renderer.bindContext tinfo w.now c d rd gl).2.1.m_windows =
          (w.renderer.reapDeferredResourcesLocked w.now).m_windows := by rw [hr, h2]
      have huse := hold.windows.use (fun p => w.UsesWindow p ∨ p = draw) (h := d) (v := (draw, a))
        (by rw [hwin]; exact hdraw) (by rw [hr]; exact fun hm => ((h4 d).mp hm).2 ⟨hcm, hdm, Or.inl rfl⟩)
        (fun p hp => hp)
      refine huse.use _ (h := rd) (v := (read, b)) (by rw [hwin]; exact hread)
        (by rw [hr]; exact fun hm => ((h4 rd).mp hm).2 ⟨hcm, hdm, Or.inr ⟨rfl, hrm⟩⟩) (fun p hu => ?_)
      have hu' := usesWindow_update rfl hu
      rw [he] at hu'
      rcases hu' with h | h | h
      · exact Or.inl (Or.inl h)
      · exact Or.inl (Or.inr (Option.some.inj h).symm)
      · exact Or.inr (Option.some.inj h).symm

theorem deferredIdle_exit {elapsed : Nat} (hi : w.DeferredIdle) (ht : w.threads.find? t = some tinfo)
    (hex : w.ExitsUnused (.exitThread t elapsed)) :
    DeferredIdle { w with
      renderer := (w.renderer.deferCurrentThreadResources tinfo w.now (w.now + elapsed)).1
      threads := w.threads.erase t, now := w.now + elapsed } := by
  have hs := shrinks_deferThread w.renderer tinfo w.now (w.now + elapsed)
  obtain ⟨hdc, hdw⟩ := deferThread_deferred w.renderer tinfo w.now (w.now + elapsed)
  refine ⟨Idle.defer w.renderer.m_deferredContexts ?_ (fun h p hm hp => ?_),
    Idle.defer w.renderer.m_deferredWindows ?_ (fun h win hm hwin => ?_)⟩
  · refine hi.contexts.mono (fun h p hp => ⟨p, hs.contexts h p hp, rfl⟩) (fun _ => id) (fun p hu => ?_)
      (Nat.le_refl _)
    obtain ⟨t1, ti, h1, h2⟩ := hu
    exact ⟨t1, ti, (find?_of_erase h1).2, h2⟩
  · refine (hdc h hm).imp_right fun hset hu => ?_
    obtain ⟨t1, ti, h1, h2⟩ := hu
    obtain ⟨hne, h1⟩ := find?_of_erase h1
    exact (hex tinfo t1 ti ht hne h1).1 h p hset (hs.contexts h p hp) h2
  · refine hi.windows.mono (fun h win hwin => ?_) (fun _ => id) (fun p hu => ?_) (Nat.le_refl _)
    · obtain ⟨a, ha⟩ := hs.windows h win hwin
      exact ⟨(win.1, a), ha, rfl⟩
    · obtain ⟨t1, ti, h1, h2⟩ := hu
      exact ⟨t1, ti, (find?_of_erase h1).2, h2⟩
  · refine (hdw h hm).imp_right fun hset hu => ?_
    obtain ⟨t1, ti, h1, h2⟩ := hu
    obtain ⟨hne, h1⟩ := find?_of_erase h1
    obtain ⟨a, ha⟩ := hs.windows h win hwin
    obtain ⟨hdraw, hread⟩ := (hex tinfo t1 ti ht hne h1).2 h (win.1, a) hset ha
    exact h2.elim hdraw hread

/-- Every step keeps deferred resources unused, provided no creator exits under a user. -/
theorem deferredIdle_step {op : Op} {rep : Reply} (hi : w.DeferredIdle) (hex : w.ExitsUnused op)
    (h : w.step op = some (w', rep)) : w'.DeferredIdle := by
  cases op with
  | tick elapsed =>
    cases h
    exact hi.tables (.refl _) (.refl _) rfl (Nat.le_refl _)
  | startThread t =>
    simp only [step] at h
    split_ifs at h
    cases h
    refine hi.quiet (.refl _) (.refl _) (fun p hu => (usesContext_update rfl hu).resolve_right (by simp))
      (fun p hu => (usesWindow_update rfl hu).resolve_right (by simp)) (Nat.le_refl _)
  | createColorBuffer pw ph fmt gl =>
    obtain ⟨⟨ret, r1⟩, hc, he⟩ := Option.map_eq_some_iff.mp h
    cases he
    have hs := sameTables_createColorBuffer hc
    exact ⟨hi.contexts.mono (fun h p hp => ⟨p, hs.contexts ▸ hp, rfl⟩)
        (fun h hh => hs.deferredContexts ▸ hh) (fun _ => id) (Nat.le_succ _),
      hi.windows.mono (fun h p hp => ⟨p, hs.windows ▸ hp, rfl⟩)
        (fun h hh => hs.deferredWindows ▸ hh) (fun _ => id) (Nat.le_succ _)⟩
  | openColorBuffer k =>
    cases h
    refine hi.tables (shrinks_openColorBuffer _ k) ?_ rfl (Nat.le_refl _)
    show NoNewDeferrals w.renderer (w.renderer.openColorBuffer k).2
    unfold openColorBuffer
    split
    · exact .refl _
    · split_ifs
      · exact .refl _
      · have hs := sameButBuffers_addReference w.renderer k
        exact .of_eq hs.deferredContexts hs.deferredWindows
  | closeColorBuffer k =>
    cases h
    have hs := sameButBuffers_drop w.renderer k
    exact hi.tables (shrinks_drop _ k) (.of_eq hs.deferredContexts hs.deferredWindows) rfl (Nat.le_refl _)
  | createRenderContext t cfg share gl =>
    obtain ⟨tinfo, ht, h⟩ := onThread_some h
    obtain ⟨⟨ret, r1, tinfo1⟩, hc, he⟩ := Option.map_eq_some_iff.mp h
    cases he
    exact deferredIdle_createContext hi ht hc
  | createWindowSurface t cfg gl =>
    obtain ⟨tinfo, ht, h⟩ := onThread_some h
    obtain ⟨⟨ret, r1, tinfo1⟩, hc, he⟩ := Option.map_eq_some_iff.mp h
    cases he
    exact deferredIdle_createWindow hi ht hc
  | drainRenderContext t =>
    obtain ⟨tinfo, ht, h⟩ := onThread_some h
    cases h
    exact hi.thread (shrinks_drainContexts _ tinfo) (noNewDeferrals_drainContexts _ tinfo) ht rfl
      ⟨rfl, rfl, rfl⟩ (Nat.le_refl _)
  | drainWindowSurface t =>
    obtain ⟨tinfo, ht, h⟩ := onThread_some h
    cases h
    exact hi.thread (shrinks_drainWindows _ tinfo) (noNewDeferrals_drainWindows _ tinfo) ht rfl
      ⟨rfl, rfl, rfl⟩ (Nat.le_refl _)
  | DestroyRenderContext t c =>
    obtain ⟨tinfo, ht, h⟩ := onThread_some h
    cases h
    exact hi.thread (shrinks_destroyContext _ tinfo w.now c)
      (noNewDeferrals_destroyContext _ tinfo w.now c) ht rfl ⟨rfl, rfl, rfl⟩ (Nat.le_refl _)
  | DestroyWindowSurface t s =>
    obtain ⟨tinfo, ht, h⟩ := onThread_some h
    cases h
    exact hi.thread (shrinks_destroySurface _ tinfo w.now s)
      (noNewDeferrals_destroySurface _ tinfo w.now s) ht rfl (destroySurface_current _ tinfo w.now s)
      (Nat.le_refl _)
  | bindContext t c d rd gl =>
    obtain ⟨tinfo, ht, h⟩ := onThread_some h
    cases h
    exact deferredIdle_bind hi ht
  | setWindowSurfaceColorBuffer s p =>
    cases h
    exact hi.tables (shrinks_setColorBuffer _ w.now s p) (noNewDeferrals_setColorBuffer _ w.now s p) rfl
      (Nat.le_refl _)
  | retainPostedColorBuffer p =>
    cases h
    exact hi.tables (shrinks_retainPosted _ w.now p) (noNewDeferrals_retainPosted _ w.now p) rfl
      (Nat.le_refl _)
  | retain_frame rds gl =>
    obtain ⟨res, hc, he⟩ := Option.map_eq_some_iff.mp h
    cases he
    have hs := sameTables_retain_frame hc
    have hn := nextPtr_retain_frame hc
    exact ⟨hi.contexts.mono (fun h p hp => ⟨p, hs.contexts ▸ hp, rfl⟩)
        (fun h hh => hs.deferredContexts ▸ hh) (fun _ => id) hn,
      hi.windows.mono (fun h p hp => ⟨p, hs.windows ▸ hp, rfl⟩)
        (fun h hh => hs.deferredWindows ▸ hh) (fun _ => id) hn⟩
  | release_frame rds =>
    cases h
    exact hi.tables (shrinks_release_frame _ rds) (release_frame_rel NoNewDeferrals.refl
      (fun _ _ _ => NoNewDeferrals.trans) (fun r h => .of_eq (sameButBuffers_drop r h).deferredContexts
        (sameButBuffers_drop r h).deferredWindows) _ rds) rfl (Nat.le_refl _)
  | exitThread t elapsed =>
    obtain ⟨tinfo, ht, h⟩ := onThread_some h
    cases h
    exact deferredIdle_exit hi ht hex

/-- What the reaper removes was deferred, hence unused. -/
theorem DeferredIdle.reapsUnused (hi : w.DeferredIdle) : w.ReapsUnused := by
  refine ⟨fun h p hp hgone => hi.contexts.idle h p hp ?_, fun h win hwin hgone => hi.windows.idle h win hwin ?_⟩
  · by_contra hd
    exact hgone (mem_contexts_reap.mpr ⟨mem_of_find? hp, fun e he => absurd (mem_of_find? he) hd⟩)
  · by_contra hd
    exact hgone (mem_windows_reap.mpr ⟨mem_of_find? hwin, fun e he => absurd (mem_of_find? he) hd⟩)

end World

/-! ## Runs -/

theorem deferredIdle_init (configs : Nat) : (renderMachine configs).init.DeferredIdle := by
  refine ⟨⟨fun _ _ _ _ h => ?_, fun _ _ h => ?_, fun _ hu => ?_, fun _ _ h => ?_⟩,
    ⟨fun _ _ _ _ h => ?_, fun _ _ h => ?_, fun _ hu => ?_, fun _ _ h => ?_⟩⟩
  all_goals first
    | (obtain ⟨t, ti, h, -⟩ := hu; simp [renderMachine] at h)
    | simp [renderMachine] at h

/-- **Deferred cleanup and resources in use.** In every run in which no thread exits while another
live thread has one of its contexts or windows current, the reaper, whenever it runs, removes nothing
that a live thread has current. -/
theorem reaps_unused {configs : Nat} {ops : List Op}
    (hex : (renderMachine configs).AllSteps World.ExitsUnused (renderMachine configs).init ops) :
    (renderMachine configs).AllStates World.ReapsUnused (renderMachine configs).init ops := by
  refine Machine.allStates_of_allSteps (P := World.DeferredIdle) (fun s op s' hs hc hstep => ?_)
    (fun s hs => hs.reapsUnused) (deferredIdle_init configs) hex
  obtain ⟨⟨w', rep⟩, hw, rfl⟩ := Option.map_eq_some_iff.mp hstep
  exact World.deferredIdle_step hs hc hw

/-- Thread 2 binds what thread 1 created and lets go of it; thread 1 exits; two seconds pass. -/
def handedBack : List Op :=
  [.startThread 1, .startThread 2, .createRenderContext 1 0 0 true, .createWindowSurface 1 0 true,
    .bindContext 2 1 2 2 true, .bindContext 2 0 0 0 true, .exitThread 1 0, .tick 2000000000]

theorem reaps_unused_handedBack :
    (renderMachine 1).AllStates World.ReapsUnused (renderMachine 1).init handedBack := by
  refine reaps_unused ?_
  refine (Machine.allSteps_cons rfl).mpr ⟨trivial, (Machine.allSteps_cons rfl).mpr ⟨trivial, ?_⟩⟩
  refine (Machine.allSteps_cons rfl).mpr ⟨trivial, (Machine.allSteps_cons rfl).mpr ⟨trivial, ?_⟩⟩
  refine (Machine.allSteps_cons rfl).mpr ⟨trivial, (Machine.allSteps_cons rfl).mpr ⟨trivial, ?_⟩⟩
  refine (Machine.allSteps_cons rfl).mpr ⟨?_, (Machine.allSteps_cons rfl).mpr ⟨trivial, trivial⟩⟩
  -- thread 2 is the only other thread, and has nothing current
  intro tinfo t' tinfo' _ hne ht'
  have hidle : tinfo' = {} := by
    have ht2 : (((∅ : OrdMap ThreadId RenderThreadInfo).insert 1
      { m_contextSet := (∅ : OrdSet HandleType).insert 1 ()
        m_windowSet := (∅ : OrdSet HandleType).insert 2 () }).insert 2 {}).find? t' = some tinfo' := ht'
    rw [find?_insert, find?_insert, if_neg hne] at ht2
    split_ifs at ht2
    · exact (Option.some.inj ht2).symm
    · simp at ht2
  subst hidle
  exact ⟨fun _ _ _ _ => by simp, fun _ _ _ _ => by simp⟩

/-- Thread 1 exits while thread 2 has its context and its window current; two seconds pass. -/
def pulledAway : List Op :=
  [.startThread 1, .startThread 2, .createRenderContext 1 0 0 true, .createWindowSurface 1 0 true,
    .bindContext 2 1 2 2 true, .exitThread 1 0, .tick 2000000000]

/-- The reaper takes the window and the context of thread 2. -/
theorem reaped_in_use : ¬ ∀ (configs : Nat) (w : World),
    (renderMachine configs).Reachable w → w.ReapsUnused := by
  intro hall
  have hw : ∃ w, (renderMachine 1).exec (renderMachine 1).init pulledAway = some w ∧
      w.renderer.m_contexts.find? 1 = some 1 ∧
      1 ∉ (w.renderer.reapDeferredResourcesLocked w.now).m_contexts ∧
      ∃ tinfo, w.threads.find? 2 = some tinfo ∧ tinfo.currContext = some 1 :=
    ⟨_, rfl, rfl, by decide, _, rfl, rfl⟩
  obtain ⟨w, he, hf, hgone, tinfo, ht, hcur⟩ := hw
  exact (hall 1 w ⟨_, he⟩).1 1 1 hf hgone ⟨2, tinfo, ht, hcur⟩

end AnboxReboxed.Emugl
