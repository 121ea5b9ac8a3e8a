import AnboxReboxed.Emugl.Proofs.RendererProofs

/-!
# Proofs: what a refused bind or attach leaves behind

`bindContext` and `setWindowSurfaceColorBuffer` cancel the deferral of a handle as soon as that handle
is accepted, before the checks that follow it. A request that is refused later has then taken resources
off the list of those to be destroyed, although nothing uses them.
-/

namespace AnboxReboxed.Emugl

open AnboxReboxed.Lib

/-! ## Atomicity -/

/-- The tables that a bind or an attach consults are those of `r`. -/
structure SameResources (r r' : Renderer) : Prop where
  contexts : r'.m_contexts = r.m_contexts
  windows : r'.m_windows = r.m_windows
  colorbuffers : r'.m_colorbuffers = r.m_colorbuffers
  deferredContexts : r'.m_deferredContexts = r.m_deferredContexts
  deferredWindows : r'.m_deferredWindows = r.m_deferredWindows

/-- The thread has the same context and surfaces current. -/
structure SameBinding (tinfo tinfo' : RenderThreadInfo) : Prop where
  context : tinfo'.currContext = tinfo.currContext
  draw : tinfo'.currDrawSurf = tinfo.currDrawSurf
  read : tinfo'.currReadSurf = tinfo.currReadSurf

namespace Renderer

/-- `bindContext` leaves nothing behind when it fails. -/
def BindAtomic (r : Renderer) (tinfo : RenderThreadInfo) (now : TimePoint)
    (c d rd : HandleType) (eglMakeCurrent : Bool) : Prop :=
  (r.bindContext tinfo now c d rd eglMakeCurrent).1 = false →
    SameResources (r.reapDeferredResourcesLocked now) (r.bindContext tinfo now c d rd eglMakeCurrent).2.1 ∧
    SameBinding tinfo (r.bindContext tinfo now c d rd eglMakeCurrent).2.2

/-- `setWindowSurfaceColorBuffer` leaves nothing behind when it fails. -/
def AttachAtomic (r : Renderer) (now : TimePoint) (s cb : HandleType) : Prop :=
  (r.setWindowSurfaceColorBuffer now s cb).1 = false →
    SameResources (r.reapDeferredResourcesLocked now) (r.setWindowSurfaceColorBuffer now s cb).2

/-- Every deferred handle that a bind request gets accepted is followed by checks that pass too. -/
structure BindSpares (r : Renderer) (c d rd : HandleType) (eglMakeCurrent : Bool) : Prop where
  context : c ∈ r.m_contexts → c ∈ r.m_deferredContexts →
    d ∈ r.m_windows ∧ rd ∈ r.m_windows ∧ eglMakeCurrent = true
  draw : c ∈ r.m_contexts → d ∈ r.m_windows → d ∈ r.m_deferredWindows →
    rd ∈ r.m_windows ∧ eglMakeCurrent = true
  read : c ∈ r.m_contexts → d ∈ r.m_windows → rd ∈ r.m_windows → rd ∈ r.m_deferredWindows →
    eglMakeCurrent = true

/-- The checks of `setWindowSurfaceColorBuffer`: the window exists, and so does the buffer, whose count
has room for one more reference unless the window holds it already. -/
def AttachAccepted (r : Renderer) (s cb : HandleType) : Prop :=
  ∃ w ∈ r.m_windows.find? s, cb = 0 ∨
    ∃ ref ∈ r.m_colorbuffers.find? cb, w.2 = cb ∨ ref.refcount ≠ uint32Max

end Renderer

/-! ## Cancelled deferrals -/

section Cancel

variable {r r' : Renderer}

theorem SameResources.refl (r : Renderer) : SameResources r r := ⟨rfl, rfl, rfl, rfl, rfl⟩

theorem SameBinding.refl (tinfo : RenderThreadInfo) : SameBinding tinfo tinfo := ⟨rfl, rfl, rfl⟩

theorem sameTables_cancelContext_iff {c : HandleType} :
    SameResources r (r.cancelDeferredContextLocked c) ↔ c ∉ r.m_deferredContexts := by
  constructor
  · intro h
    exact OrdMap.erase_eq_self_iff.mp h.deferredContexts
  · intro h
    exact ⟨rfl, rfl, rfl, OrdMap.erase_of_not_mem h, rfl⟩

theorem sameTables_cancelWindow_iff {s : HandleType} :
    SameResources r (r.cancelDeferredWindowLocked s) ↔ s ∉ r.m_deferredWindows := by
  constructor
  · intro h
    exact OrdMap.erase_eq_self_iff.mp h.deferredWindows
  · intro h
    exact ⟨rfl, rfl, rfl, rfl, OrdMap.erase_of_not_mem h⟩

/-- A context and a window are cancelled one after the other. -/
theorem sameTables_cancelDraw_iff {c d : HandleType} :
    SameResources r ((r.cancelDeferredContextLocked c).cancelDeferredWindowLocked d) ↔
      c ∉ r.m_deferredContexts ∧ d ∉ r.m_deferredWindows := by
  constructor
  · intro h
    exact ⟨OrdMap.erase_eq_self_iff.mp h.deferredContexts, OrdMap.erase_eq_self_iff.mp h.deferredWindows⟩
  · rintro ⟨hc, hd⟩
    exact ⟨rfl, rfl, rfl, OrdMap.erase_of_not_mem hc, OrdMap.erase_of_not_mem hd⟩

/-- Both erasures have to find nothing. -/
theorem sameTables_cancelRead_iff {c d rd : HandleType} :
    SameResources r (((r.cancelDeferredContextLocked c).cancelDeferredWindowLocked d).cancelDeferredWindowLocked
      rd) ↔ c ∉ r.m_deferredContexts ∧ d ∉ r.m_deferredWindows ∧ rd ∉ r.m_deferredWindows := by
  constructor
  · intro h
    have hwindows : (r.m_deferredWindows.erase d).erase rd = r.m_deferredWindows := h.deferredWindows
    have hgone : ∀ k, k = d ∨ k = rd → k ∉ r.m_deferredWindows := by
      rintro k hk
      rw [← hwindows]
      simp only [OrdMap.mem_erase]
      tauto
    exact ⟨OrdMap.erase_eq_self_iff.mp h.deferredContexts, hgone d (Or.inl rfl), hgone rd (Or.inr rfl)⟩
  · rintro ⟨hc, hd, hrd⟩
    refine ⟨rfl, rfl, rfl, OrdMap.erase_of_not_mem hc, ?_⟩
    show (r.m_deferredWindows.erase d).erase rd = r.m_deferredWindows
    rw [OrdMap.erase_of_not_mem hd, OrdMap.erase_of_not_mem hrd]

end Cancel

namespace Renderer

/-! ## Binding -/

section Bind

variable (r : Renderer) (c d rd : HandleType)

/-- The deferrals that a bind with three good handles has cancelled. -/
def cancelBound (r : Renderer) (c d rd : HandleType) : Renderer :=
  let r := (r.cancelDeferredContextLocked c).cancelDeferredWindowLocked d
  if rd ≠ d then r.cancelDeferredWindowLocked rd else r

/-- Where the lookups of `bindContext` stop, and what they have cancelled by then. -/
theorem lookupBinding_cases :
    (c ∉ r.m_contexts ∧ r.lookupBinding c d rd = (r, none)) ∨
    (c ∈ r.m_contexts ∧ d ∉ r.m_windows ∧
      r.lookupBinding c d rd = (r.cancelDeferredContextLocked c, none)) ∨
    (c ∈ r.m_contexts ∧ d ∈ r.m_windows ∧ rd ∉ r.m_windows ∧ r.lookupBinding c d rd =
      ((r.cancelDeferredContextLocked c).cancelDeferredWindowLocked d, none)) ∨
    (c ∈ r.m_contexts ∧ d ∈ r.m_windows ∧ rd ∈ r.m_windows ∧
      ∃ found, r.lookupBinding c d rd = (r.cancelBound c d rd, some found)) := by
  cases hc : r.m_contexts.find? c with
  | none => exact Or.inl ⟨OrdMap.not_mem_iff.mpr hc, by simp [lookupBinding, hc]⟩
  | some ctx =>
    have hcm := OrdMap.mem_of_find? hc
    refine Or.inr ?_
    cases hd : r.m_windows.find? d with
    | none =>
      refine Or.inl ⟨hcm, OrdMap.not_mem_iff.mpr hd, ?_⟩
      simp [lookupBinding, hc, cancelDeferredContextLocked, hd]
    | some draw =>
      have hdm := OrdMap.mem_of_find? hd
      refine Or.inr ?_
      by_cases hne : rd = d
      · subst hne
        refine Or.inr ⟨hcm, hdm, hdm, (ctx, draw.1, draw.1), ?_⟩
        simp [lookupBinding, cancelBound, hc, cancelDeferredContextLocked, hd]
      · cases hrd : r.m_windows.find? rd with
        | none =>
          refine Or.inl ⟨hcm, hdm, OrdMap.not_mem_iff.mpr hrd, ?_⟩
          simp [lookupBinding, hc, cancelDeferredContextLocked, cancelDeferredWindowLocked, hd, hne, hrd]
        | some read =>
          refine Or.inr ⟨hcm, hdm, OrdMap.mem_of_find? hrd, (ctx, draw.1, read.1), ?_⟩
          simp [lookupBinding, cancelBound, hc, cancelDeferredContextLocked, cancelDeferredWindowLocked,
            hd, hne, hrd]

theorem sameTables_cancelBound_iff : SameResources r (r.cancelBound c d rd) ↔
    c ∉ r.m_deferredContexts ∧ d ∉ r.m_deferredWindows ∧ rd ∉ r.m_deferredWindows := by
  unfold cancelBound
  dsimp only
  split_ifs with hne
  · exact sameTables_cancelRead_iff
  · have heq : rd = d := not_not.mp hne
    rw [sameTables_cancelDraw_iff, heq, and_self]

/-- A refused lookup refuses the bind, whatever EGL would have said. -/
theorem bindContext_of_none {r r' : Renderer} {c d rd : HandleType} (tinfo : RenderThreadInfo)
    (now : TimePoint) (egl : Bool) (hz : c ≠ 0 ∨ d ≠ 0 ∨ rd ≠ 0)
    (h : (r.reapDeferredResourcesLocked now).lookupBinding c d rd = (r', none)) :
    r.bindContext tinfo now c d rd egl = (false, r', tinfo) := by
  unfold bindContext
  dsimp only
  rw [if_pos hz, h]

/-- After good lookups it is EGL that decides. -/
theorem bindContext_of_some {r r' : Renderer} {c d rd : HandleType} (tinfo : RenderThreadInfo)
    (now : TimePoint) {found : RenderContextPtr × WindowSurfacePtr × WindowSurfacePtr}
    (hz : c ≠ 0 ∨ d ≠ 0 ∨ rd ≠ 0)
    (h : (r.reapDeferredResourcesLocked now).lookupBinding c d rd = (r', some found)) :
    r.bindContext tinfo now c d rd false = (false, r', tinfo) ∧
      (r.bindContext tinfo now c d rd true).1 = true := by
  unfold bindContext
  dsimp only
  rw [if_pos hz, if_pos hz, h]
  exact ⟨rfl, rfl⟩

variable (tinfo : RenderThreadInfo) (now : TimePoint) (egl : Bool)

/-- A bind that is refused with the tables `r'` is atomic if nothing was cancelled on the way. -/
theorem bindAtomic_iff_of_refused {r : Renderer} {r' : Renderer} {c d rd : HandleType}
    (h : r.bindContext tinfo now c d rd egl = (false, r', tinfo)) :
    r.BindAtomic tinfo now c d rd egl ↔ SameResources (r.reapDeferredResourcesLocked now) r' := by
  unfold BindAtomic
  rw [h]
  constructor
  · intro hatomic
    exact (hatomic rfl).1
  · intro hsame _
    exact ⟨hsame, SameBinding.refl tinfo⟩

theorem bindAtomic_iff : r.BindAtomic tinfo now c d rd egl ↔
    (c ≠ 0 ∨ d ≠ 0 ∨ rd ≠ 0 → (r.reapDeferredResourcesLocked now).BindSpares c d rd egl) := by
  by_cases hz : c ≠ 0 ∨ d ≠ 0 ∨ rd ≠ 0
  · rw [imp_iff_right hz]
    set r₀ := r.reapDeferredResourcesLocked now with hr₀
    rcases r₀.lookupBinding_cases c d rd with
      ⟨hc, h⟩ | ⟨hc, hd, h⟩ | ⟨hc, hd, hrd, h⟩ | ⟨hc, hd, hrd, found, h⟩
    · -- the first check fails, and nothing has been cancelled
      rw [bindAtomic_iff_of_refused tinfo now egl (bindContext_of_none tinfo now egl hz h)]
      refine iff_of_true (SameResources.refl r₀) ⟨?_, ?_, ?_⟩
      all_goals exact fun hcm => absurd hcm hc
    · rw [bindAtomic_iff_of_refused tinfo now egl (bindContext_of_none tinfo now egl hz h),
        sameTables_cancelContext_iff]
      constructor
      · intro hdef
        exact ⟨fun _ hc' => absurd hc' hdef, fun _ hd' => absurd hd' hd, fun _ hd' => absurd hd' hd⟩
      · intro hspare hdef
        exact hd (hspare.context hc hdef).1
    · rw [bindAtomic_iff_of_refused tinfo now egl (bindContext_of_none tinfo now egl hz h),
        sameTables_cancelDraw_iff]
      constructor
      · rintro ⟨hcdef, hddef⟩
        exact ⟨fun _ hc' => absurd hc' hcdef, fun _ _ hd' => absurd hd' hddef,
          fun _ _ hrd' => absurd hrd' hrd⟩
      · intro hspare
        exact ⟨fun hdef => hrd (hspare.context hc hdef).2.1, fun hdef => hrd (hspare.draw hc hd hdef).1⟩
    · obtain ⟨hfail, hpass⟩ := bindContext_of_some tinfo now hz h
      cases egl with
      | true =>
        refine iff_of_true (fun hfalse => ?_) ⟨fun _ _ => ⟨hd, hrd, rfl⟩, fun _ _ _ => ⟨hrd, rfl⟩,
          fun _ _ _ _ => rfl⟩
        rw [hpass] at hfalse
        cases hfalse
      | false =>
        rw [bindAtomic_iff_of_refused tinfo now false hfail, sameTables_cancelBound_iff]
        constructor
        · rintro ⟨hcdef, hddef, hrdef⟩
          exact ⟨fun _ hc' => absurd hc' hcdef, fun _ _ hd' => absurd hd' hddef,
            fun _ _ _ hrd' => absurd hrd' hrdef⟩
        · intro hspare
          exact ⟨fun hdef => Bool.false_ne_true (hspare.context hc hdef).2.2,
            fun hdef => Bool.false_ne_true (hspare.draw hc hd hdef).2,
            fun hdef => Bool.false_ne_true (hspare.read hc hd hrd hdef)⟩
  · -- an unbind looks nothing up
    refine iff_of_true ?_ (fun h => absurd h hz)
    cases egl with
    | true =>
      intro hfalse
      unfold bindContext at hfalse
      dsimp only at hfalse
      rw [if_neg hz] at hfalse
      cases hfalse
    | false =>
      have hfail : r.bindContext tinfo now c d rd false =
          (false, r.reapDeferredResourcesLocked now, tinfo) := by
        unfold bindContext
        dsimp only
        rw [if_neg hz]
        rfl
      rw [bindAtomic_iff_of_refused tinfo now false hfail]
      exact SameResources.refl _

end Bind

/-! ## Attaching -/

section Attach

variable (r : Renderer) (now : TimePoint) (s cb : HandleType)

/-- `setWindowSurfaceColorBuffer` succeeds when its checks pass; otherwise it has only cancelled the
deferral of its window. -/
theorem setWindowSurfaceColorBuffer_cases :
    ((r.reapDeferredResourcesLocked now).AttachAccepted s cb ∧
      (r.setWindowSurfaceColorBuffer now s cb).1 = true) ∨
    (¬ (r.reapDeferredResourcesLocked now).AttachAccepted s cb ∧
      r.setWindowSurfaceColorBuffer now s cb =
        (false, (r.reapDeferredResourcesLocked now).cancelDeferredWindowLocked s)) := by
  set r₀ := r.reapDeferredResourcesLocked now with hr₀
  unfold setWindowSurfaceColorBuffer AttachAccepted
  simp only [← hr₀, cancelDeferredWindowLocked]
  cases hw : r₀.m_windows.find? s with
  | none => simp
  | some w =>
    by_cases hz : cb = 0
    · -- a detach, or no change at all
      refine Or.inl ⟨⟨w, rfl, Or.inl hz⟩, ?_⟩
      simp only [hz, ne_eq, not_true_eq_false, false_and, if_false, and_false, exists_false]
      split_ifs <;> rfl
    · cases href : r₀.m_colorbuffers.find? cb with
      | none =>
        have hmissing : cb ∉ r₀.m_colorbuffers := OrdMap.not_mem_iff.mpr href
        simp [hz, hmissing]
      | some ref =>
        have hthere : cb ∈ r₀.m_colorbuffers := OrdMap.mem_of_find? href
        by_cases hsame : w.2 = cb
        · simp [hz, hthere, hsame]
        · by_cases hfull : ref.refcount = uint32Max
          · simp [hz, hthere, hsame, hfull]
          · simp [hz, hthere, hsame, hfull]

theorem attachAtomic_iff : r.AttachAtomic now s cb ↔
    (s ∈ (r.reapDeferredResourcesLocked now).m_deferredWindows →
      (r.reapDeferredResourcesLocked now).AttachAccepted s cb) := by
  unfold AttachAtomic
  rcases r.setWindowSurfaceColorBuffer_cases now s cb with ⟨hok, hpass⟩ | ⟨hbad, hfail⟩
  · refine iff_of_true (fun hfalse => ?_) (fun _ => hok)
    rw [hpass] at hfalse
    cases hfalse
  · rw [hfail, imp_iff_right rfl, sameTables_cancelWindow_iff]
    constructor
    · intro hdef hin
      exact absurd hin hdef
    · intro haccept hin
      exact hbad (haccept hin)

end Attach

/-! ## Both requests -/

/-- A refused bind is atomic exactly when no deferred handle was accepted before the check that failed,
and a refused attach exactly when its window was not deferred. -/
theorem bind_attach_atomic_iff (r : Renderer) (tinfo : RenderThreadInfo) (now : TimePoint)
    (c d rd : HandleType) (egl : Bool) (s cb : HandleType) :
    (r.BindAtomic tinfo now c d rd egl ↔
      (c ≠ 0 ∨ d ≠ 0 ∨ rd ≠ 0 → (r.reapDeferredResourcesLocked now).BindSpares c d rd egl)) ∧
    (r.AttachAtomic now s cb ↔
      (s ∈ (r.reapDeferredResourcesLocked now).m_deferredWindows →
        (r.reapDeferredResourcesLocked now).AttachAccepted s cb)) :=
  ⟨r.bindAtomic_iff c d rd tinfo now egl, r.attachAtomic_iff now s cb⟩

/-- A pipe created the context 1 and the window 2 and was closed at time 0. -/
def afterPipeClosed : Renderer :=
  let r : Renderer :=
    { s_nextHandle := 2
      m_contexts := (∅ : OrdMap HandleType RenderContextPtr).insert 1 10
      m_windows := (∅ : OrdMap HandleType (WindowSurfacePtr × HandleType)).insert 2 (20, 0) }
  let tinfo : RenderThreadInfo :=
    { m_contextSet := (∅ : OrdSet HandleType).insert 1 ()
      m_windowSet := (∅ : OrdSet HandleType).insert 2 () }
  (r.deferCurrentThreadResources tinfo 0 0).1

/-- One nanosecond later the context is bound to a surface that does not exist, and a colour buffer that
does not exist is attached to the window. Both are refused, and neither resource is deferred any more. -/
theorem not_always_atomic :
    ¬ (∀ (r : Renderer) (tinfo : RenderThreadInfo) (now : TimePoint) (c d rd : HandleType) (egl : Bool),
      r.BindAtomic tinfo now c d rd egl) ∧
    ¬ ∀ (r : Renderer) (now : TimePoint) (s cb : HandleType), r.AttachAtomic now s cb := by
  constructor
  · intro h
    have hsame := (h afterPipeClosed {} 1 1 3 3 true (by decide)).1.deferredContexts
    revert hsame
    decide
  · intro h
    have hsame := (h afterPipeClosed 1 2 3 (by decide)).deferredWindows
    revert hsame
    decide

end Renderer

end AnboxReboxed.Emugl
