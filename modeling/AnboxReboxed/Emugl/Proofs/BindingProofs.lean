import AnboxReboxed.Emugl.GlWorld
import AnboxReboxed.Emugl.Proofs.EglProofs

/-!
# Proofs: bindings and bookkeeping

Most operations give back what they found current, and leave the pbuffers alone. The exceptions are
`bindContext`, which changes binding and bookkeeping together, the resize of a window surface, and the
new surface of a host window in `draw`.
-/

namespace AnboxReboxed.Emugl

open AnboxReboxed.Lib OrdMap World Gl

namespace GlWorld

variable {s s' s1 s2 s3 : GlWorld} {t : ThreadId}

/-! ## Operations that leave the bindings alone -/

/-- The live threads have the same things current as before, and the pbuffers are the same. -/
structure Frame (s s' : GlWorld) : Prop where
  current : ∀ t tinfo, s.world.threads.find? t = some tinfo → s'.gl.unrestored t = false →
    s.gl.unrestored t = false ∧ s'.gl.current t = s.gl.current t
  next : s.gl.nextSurface ≤ s'.gl.nextSurface
  world : KeepsCurrent s.world s'.world
  surfaces : ∀ p, s'.surfaceOf (some p) = s.surfaceOf (some p)

/-- What binding and bookkeeping are made of, besides the tables. -/
structure SameObjects (t : ThreadId) (s s' : GlWorld) : Prop where
  gl : Restored t s.gl s'.gl
  world : s'.world = s.world
  surfaces : ∀ p, s'.surfaceOf (some p) = s.surfaceOf (some p)

theorem SameObjects.refl (t : ThreadId) (s : GlWorld) : SameObjects t s s := ⟨.refl t _, rfl, fun _ => rfl⟩

theorem SameObjects.trans (h1 : SameObjects t s1 s2) (h2 : SameObjects t s2 s3) : SameObjects t s1 s3 :=
  ⟨h1.gl.trans h2.gl, h2.world.trans h1.world, fun p => (h2.surfaces p).trans (h1.surfaces p)⟩

/-- New tables, then the objects. -/
theorem SameObjects.frame {world : World} (hw : KeepsCurrent s.world world)
    (h : SameObjects t { s with world } s') : Frame s s' where
  current _ _ _ hu := h.gl.back hu
  next := h.gl.surfaces
  world := by rw [h.world]; exact hw
  surfaces p := h.surfaces p

theorem SameObjects.of_gl {gl : Gl} {colorBuffers : OrdMap ColorBufferPtr ColorBuffer}
    {m_nativeWindows : OrdMap NativeWindow (Option EglSurface)} {counter : Nat} (h : Restored t s.gl gl) :
    SameObjects t s { s with gl, colorBuffers, m_nativeWindows, presentation_sample_counter := counter } :=
  ⟨h, rfl, fun _ => rfl⟩

theorem sameObjects_modifyWindow {p : WindowSurfacePtr} {f : WindowSurface → WindowSurface}
    (hf : ∀ w, (f w).mSurface = w.mSurface) : SameObjects t s (s.modifyWindow p f) := by
  unfold modifyWindow
  split
  · exact .refl t s
  · rename_i w hw
    refine ⟨.refl t _, rfl, fun q => ?_⟩
    show ((s.windowSurfaces.insert p (f w)).find? q).bind _ = _
    rw [find?_insert]
    split_ifs with hq
    · subst hq
      simp [surfaceOf, hw, hf]
    · rfl

theorem sameObjects_bindSurfaces (s : GlWorld) (t : ThreadId) (ctx : Option RenderContextPtr)
    (draw read : Option WindowSurfacePtr) : SameObjects t s (s.bindSurfaces ctx draw read) := by
  have hbind : ∀ (w : WindowSurface) (b : WindowSurface.BindType), (w.bind ctx b).mSurface = w.mSurface := by
    intro w b
    cases b <;> rfl
  unfold bindSurfaces
  split
  · split
    · exact (sameObjects_modifyWindow fun w => hbind w _).trans (sameObjects_modifyWindow fun w => hbind w _)
    · exact sameObjects_modifyWindow fun w => hbind w _
  · exact .refl t s

/-- What each destructor preserves, all of them preserve. -/
theorem collect_rel {R : GlWorld → GlWorld → Prop} (hrefl : ∀ s, R s s)
    (htrans : ∀ s1 s2 s3, R s1 s2 → R s2 s3 → R s1 s3) {a : DestroyAnswers}
    (hone : ∀ s e, R s (collectOne t a s e)) (s : GlWorld) : R s (s.collect t a) := by
  have hfold : ∀ (l : List (ColorBufferPtr × ColorBuffer)) (s : GlWorld),
      R s (l.foldl (collectOne t a) s) := by
    intro l
    induction l with
    | nil => exact hrefl
    | cons e l ih => exact fun s => htrans _ _ _ (hone s e) (ih _)
  exact hfold _ s

theorem sameObjects_collect (s : GlWorld) (t : ThreadId) (a : DestroyAnswers) :
    SameObjects t s (s.collect t a) := by
  refine collect_rel (SameObjects.refl t) (fun _ _ _ => SameObjects.trans) (fun s e => ?_) s
  unfold collectOne
  split
  · exact .refl t s
  · exact .of_gl ((scopeRel_restored t).destroy e.2 s.gl e.1 (a e.1))

theorem windowSurfaces_collect (s : GlWorld) (t : ThreadId) (a : DestroyAnswers) :
    (s.collect t a).windowSurfaces = s.windowSurfaces := by
  refine collect_rel (R := fun s s' => s'.windowSurfaces = s.windowSurfaces) (fun _ => rfl)
    (fun _ _ _ h1 h2 => h2.trans h1) (fun s e => ?_) s
  unfold collectOne
  split <;> rfl

/-- The colour buffers that are left are as they were. -/
theorem find?_collect (s : GlWorld) (t : ThreadId) (a : DestroyAnswers) {p : ColorBufferPtr} {c : ColorBuffer} :
    (s.collect t a).colorBuffers.find? p = some c → s.colorBuffers.find? p = some c := by
  refine collect_rel (R := fun s s' => s'.colorBuffers.find? p = some c → s.colorBuffers.find? p = some c)
    (fun _ => id) (fun _ _ _ h1 h2 h => h1 (h2 h)) (fun s e => ?_) s
  unfold collectOne
  split
  · exact id
  · exact fun h => (find?_of_erase h).2

theorem sameObjects_onColorBuffer {h : HandleType} {f : ColorBufferPtr → ColorBuffer → Gl × ColorBuffer}
    (hf : ∀ p c, Restored t s.gl (f p c).1) : SameObjects t s (s.onColorBuffer h f) := by
  unfold onColorBuffer
  split
  · exact .refl t s
  · exact .of_gl (hf _ _)

theorem sameObjects_snapshot (s : GlWorld) (t : ThreadId) (p : ColorBufferPtr) (source : ColorBufferRef)
    (a : SnapshotAnswers) : SameObjects t s (s.snapshot t p source a) := by
  have hc := (scopeRel_restored t).create s.gl p source.width source.height source.format a.create
  unfold snapshot
  generalize ColorBuffer.create s.gl t p source.width source.height source.format a.create = out at hc
  obtain ⟨gl, c⟩ := out
  dsimp only
  split
  · exact .of_gl (hc.trans ((scopeRel_restored t).snapshotFrom _ gl p _ _ _ _ _))
  · exact .of_gl hc
  · exact .of_gl hc

theorem sameObjects_snapshotLoop (t : ThreadId) (a : HandleType → SnapshotAnswers) (l : List Renderable) :
    ∀ (s : GlWorld) (st : Renderer.RetainState), SameObjects t s (snapshotLoop t a s st l) := by
  induction l with
  | nil => exact fun s st => .refl t s
  | cons r l ih =>
    intro s st
    unfold snapshotLoop
    split
    · exact ih s st
    · exact .refl t s
    · rename_i source bytes hcheck
      have hsnap := sameObjects_snapshot s t st.nextPtr source (a r.buffer)
      dsimp only
      split
      · split
        · exact hsnap
        · exact hsnap.trans (ih _ _)
      · exact hsnap

/-! ## The invariant -/

/-- Bindings match, and different window surfaces have different pbuffers. -/
structure BindingsOk (s : GlWorld) : Prop where
  bindings : s.BindingsMatch
  bookkeeping : s.world.BookkeepingOk
  distinct : ∀ p p' x, s.surfaceOf (some p) = some x → s.surfaceOf (some p') = some x → p = p'
  given : ∀ p x, s.surfaceOf (some p) = some x → x < s.gl.nextSurface

theorem surfaceOf_congr (h : ∀ p, s'.surfaceOf (some p) = s.surfaceOf (some p))
    (p : Option WindowSurfacePtr) : s'.surfaceOf p = s.surfaceOf p := by
  cases p with
  | none => rfl
  | some p => exact h p

theorem bindingOf_congr {tinfo tinfo' : RenderThreadInfo} (hs : SameCurrent tinfo tinfo')
    (h : ∀ p, s'.surfaceOf (some p) = s.surfaceOf (some p)) : s'.bindingOf tinfo' = s.bindingOf tinfo := by
  obtain ⟨hc, hd, hr⟩ := hs
  simp [bindingOf, hc, hd, hr, surfaceOf_congr h]

/-- A thread keeps its match when neither its binding nor its bookkeeping changes. -/
theorem BindingsOk.frame (hs : s.BindingsOk) (hf : Frame s s') : s'.BindingsOk := by
  refine ⟨fun t1 tinfo' ht1 hu => ?_, hs.bookkeeping.keepsCurrent hf.world, fun p p' x hp hp' => ?_,
    fun p x hp => ?_⟩
  · obtain ⟨tinfo, ht, hsame⟩ := hf.world.threads t1 tinfo' ht1
    obtain ⟨hu', hcur⟩ := hf.current t1 tinfo ht hu
    obtain ⟨hmatch, hnone⟩ := hs.bindings t1 tinfo ht hu'
    rw [hcur, bindingOf_congr hsame hf.surfaces]
    exact ⟨hmatch, fun h => hnone (hsame.1 ▸ h)⟩
  · rw [hf.surfaces] at hp hp'
    exact hs.distinct p p' x hp hp'
  · rw [hf.surfaces] at hp
    exact Nat.lt_of_lt_of_le (hs.given p x hp) hf.next

theorem BindingsOk.objects (hs : s.BindingsOk) (ho : SameObjects t s s') : s'.BindingsOk :=
  hs.frame (ho.frame (.refl _))

/-! ## Binding a context -/

theorem SameObjects.with_world (h : SameObjects t s s') (world : World) :
    SameObjects t { s with world } { s' with world } := ⟨h.gl, rfl, h.surfaces⟩

theorem BindingsOk.reap (hs : s.BindingsOk) (t : ThreadId) (a : DestroyAnswers) : (s.reap t a).BindingsOk := by
  have hw : KeepsCurrent s.world { s.world with
      renderer := s.world.renderer.reapDeferredResourcesLocked s.world.now } :=
    .tables (Renderer.shrinks_reap s.world.renderer s.world.now) rfl (Nat.le_refl _)
  exact hs.frame (SameObjects.frame hw (sameObjects_collect _ t a))

/-- The thread `t` has just made current what its new bookkeeping says. -/
theorem BindingsOk.bound {world : World} {tinfo : RenderThreadInfo} (hs : s.BindingsOk)
    (hw : world.BookkeepingOk) (ht : world.threads = s.world.threads.insert t tinfo) :
    BindingsOk { s with world, gl := s.gl.bindGuest t (s.bindingOf tinfo) } := by
  refine ⟨fun t1 tinfo1 ht1 hu => ?_, hw, hs.distinct, hs.given⟩
  have ht1' : (s.world.threads.insert t tinfo).find? t1 = some tinfo1 := by
    rw [← ht]
    exact ht1
  by_cases he : t1 = t
  · subst he
    simp only [find?_insert, if_true] at ht1'
    cases Option.some.inj ht1'
    have hcur : Function.update s.gl.current t1 (s.bindingOf tinfo) t1 = s.bindingOf tinfo :=
      Function.update_self ..
    refine ⟨hcur, fun hnone => hcur.trans ?_⟩
    obtain ⟨hd, hr⟩ := hw.together t1 tinfo ht1 hnone
    simp [bindingOf, hnone, hd, hr, surfaceOf]
  · rw [find?_insert, if_neg he] at ht1'
    have hcur : Function.update s.gl.current t (s.bindingOf tinfo) t1 = s.gl.current t1 :=
      Function.update_of_ne he ..
    have hu' : s.gl.unrestored t1 = false := by
      rw [← hu]
      exact (Function.update_of_ne he ..).symm
    obtain ⟨hmatch, hnone⟩ := hs.bindings t1 tinfo1 ht1' hu'
    exact ⟨hcur.trans hmatch, fun h => hcur.trans (hnone h)⟩

theorem BindingsOk.bindReaped {c d rd : HandleType} {ok : Bool} {a : DestroyAnswers} (hs : s.BindingsOk)
    (h : s.bindReaped t c d rd ok a = some s') : s'.BindingsOk := by
  obtain ⟨⟨world, rep⟩, hstep, h⟩ := Option.bind_eq_some_iff.mp h
  obtain ⟨old, hold, h⟩ := Option.bind_eq_some_iff.mp h
  obtain ⟨tinfo, htinfo, h⟩ := Option.map_eq_some_iff.mp h
  have hw := hs.bookkeeping.bind hstep
  obtain ⟨old', tinfo', hold', hthreads, hnext, hshrinks, hfail, -⟩ := step_bindContext hstep
  cases Option.some.inj (hold.symm.trans hold')
  have htinfo' : tinfo' = tinfo := by
    rw [hthreads, find?_insert, if_pos rfl] at htinfo
    exact Option.some.inj htinfo
  subst htinfo'
  subst h
  have hobjects : ∀ draw read, BindingsOk
      { bindSurfaces { s with gl := s.gl.bindGuest t (s.bindingOf tinfo') } tinfo'.currContext draw read with
        world } := by
    intro draw read
    have hsame := sameObjects_bindSurfaces { s with gl := s.gl.bindGuest t (s.bindingOf tinfo') } t
      tinfo'.currContext draw read
    exact (hs.bound hw hthreads).objects (hsame.with_world world)
  dsimp only
  split
  · split
    · exact (hobjects _ _).objects (sameObjects_collect _ t a)
    · exact (hobjects _ _).objects (sameObjects_collect _ t a)
  · rename_i hrep
    refine hs.frame ⟨fun _ _ _ hu => ⟨hu, rfl⟩, Nat.le_refl _, ?_, fun _ => rfl⟩
    refine .thread hshrinks hold hthreads ?_ (Nat.le_of_eq hnext.symm)
    rw [hfail hrep]
    exact .refl _

/-! ## Resizing a window surface -/

variable {p : WindowSurfacePtr} {w : WindowSurface}

theorem surfaceOf_find (hw : s.windowSurfaces.find? p = some w) : s.surfaceOf (some p) = w.mSurface := by
  simp [surfaceOf, hw]

theorem surfaceOf_insert {gl : Gl} {w' : WindowSurface} (q : WindowSurfacePtr) :
    surfaceOf { s with gl, windowSurfaces := s.windowSurfaces.insert p w' } (some q) =
      if q = p then w'.mSurface else s.surfaceOf (some q) := by
  show ((s.windowSurfaces.insert p w').find? q).bind _ = _
  rw [find?_insert]
  split_ifs
  · rfl
  · rfl

/-- Only the window surface itself has its pbuffer. -/
theorem BindingsOk.surfaceOf_eq_iff (hs : s.BindingsOk) {x : EglSurface}
    (hp : s.surfaceOf (some p) = some x) (q : Option WindowSurfacePtr) : s.surfaceOf q = some x ↔ q = some p := by
  cases q with
  | none => simp [surfaceOf]
  | some q => exact ⟨fun h => congrArg some (hs.distinct q p x h hp), fun h => by rw [h]; exact hp⟩

/-- The thread has to be unbound during the resize just when it has the window surface current. -/
theorem BindingsOk.needRebind_iff (hs : s.BindingsOk) (hw : s.windowSurfaces.find? p = some w)
    {tinfo : RenderThreadInfo} (hcur : s.gl.current t = s.bindingOf tinfo) :
    w.needRebindContext (s.gl.current t) = true ↔
      w.mSurface.isSome = true ∧ (tinfo.currDrawSurf = some p ∨ tinfo.currReadSurf = some p) := by
  have hp := surfaceOf_find hw
  rw [hcur]
  cases hm : w.mSurface with
  | none => simp [WindowSurface.needRebindContext, hm]
  | some x =>
    rw [hm] at hp
    simp [WindowSurface.needRebindContext, hm, bindingOf, hs.surfaceOf_eq_iff hp, or_comm]

/-- Another pbuffer, or none, for one window surface: what is left to show is that the threads match. -/
theorem BindingsOk.replaced (hs : s.BindingsOk) {w' : WindowSurface} {gl : Gl}
    (hnext : s.gl.nextSurface ≤ gl.nextSurface)
    (hnew : ∀ x, w'.mSurface = some x → s.gl.nextSurface ≤ x ∧ x < gl.nextSurface)
    (hmatch : ∀ t tinfo, s.world.threads.find? t = some tinfo → gl.unrestored t = false →
      gl.current t = bindingOf { s with gl, windowSurfaces := s.windowSurfaces.insert p w' } tinfo) :
    BindingsOk { s with gl, windowSurfaces := s.windowSurfaces.insert p w' } := by
  have hold : ∀ q x, s.surfaceOf (some q) = some x → w'.mSurface ≠ some x := by
    intro q x hq hx
    exact Nat.not_lt.mpr (hnew x hx).1 (hs.given q x hq)
  refine ⟨fun t1 tinfo ht1 hu => ?_, hs.bookkeeping, fun q q' x hq hq' => ?_, fun q x hq => ?_⟩
  · have hm := hmatch t1 tinfo ht1 hu
    refine ⟨hm, fun hnone => hm.trans ?_⟩
    obtain ⟨hd, hr⟩ := hs.bookkeeping.together t1 tinfo ht1 hnone
    simp [bindingOf, hnone, hd, hr, surfaceOf]
  · rw [surfaceOf_insert] at hq hq'
    split_ifs at hq hq' with h1 h2 h2
    · exact h1.trans h2.symm
    · exact absurd hq (hold q' x hq')
    · exact absurd hq' (hold q x hq)
    · exact hs.distinct q q' x hq hq'
  · rw [surfaceOf_insert] at hq
    split_ifs at hq
    · exact (hnew x hq).2
    · exact Nat.lt_of_lt_of_le (hs.given q x hq) hnext

theorem surfaceOf_insert_option {gl : Gl} {w' : WindowSurface} (q : Option WindowSurfacePtr) :
    surfaceOf { s with gl, windowSurfaces := s.windowSurfaces.insert p w' } q =
      if q = some p then w'.mSurface else s.surfaceOf q := by
  cases q with
  | none => rfl
  | some q => simp [surfaceOf_insert]

/-- The binding of a thread that does not have the window surface current. -/
theorem bindingOf_insert_unused {gl : Gl} {w' : WindowSurface} {tinfo : RenderThreadInfo}
    (hu : ¬(tinfo.currDrawSurf = some p ∨ tinfo.currReadSurf = some p)) :
    bindingOf { s with gl, windowSurfaces := s.windowSurfaces.insert p w' } tinfo = s.bindingOf tinfo := by
  obtain ⟨hd, hr⟩ := not_or.mp hu
  simp [bindingOf, surfaceOf_insert_option, hd, hr]

/-- The pbuffer is gone: no thread had it, or there was none. -/
theorem BindingsOk.resized_none (hs : s.BindingsOk) (hw : s.windowSurfaces.find? p = some w)
    {a : PbufferAnswers} (hcreate : a.create = false) (hsafe : s.ResizesSafely t p w a) :
    BindingsOk { s with
      gl := if w.needRebindContext (s.gl.current t) then s.gl.eglMakeCurrent t {} a.unbind else s.gl
      windowSurfaces := s.windowSurfaces.insert p { w with mSurface := none } } := by
  have hkeep : ∀ g : Gl, (g.eglMakeCurrent t {} a.unbind).nextSurface = g.nextSurface ∧
      (g.eglMakeCurrent t {} a.unbind).unrestored = g.unrestored := by
    intro g
    cases a.unbind <;> exact ⟨rfl, rfl⟩
  refine hs.replaced ?_ (by simp) (fun t1 tinfo ht1 hu => ?_)
  · split_ifs
    · rw [(hkeep s.gl).1]
    · exact Nat.le_refl _
  have hu' : s.gl.unrestored t1 = false := by
    split_ifs at hu
    · rwa [(hkeep s.gl).2] at hu
    · exact hu
  have hcur := (hs.bindings t1 tinfo ht1 hu').1
  by_cases huse : tinfo.currDrawSurf = some p ∨ tinfo.currReadSurf = some p
  · -- The thread has a window surface without a pbuffer, and keeps it.
    rcases hsafe t1 tinfo ht1 hu' huse with ⟨-, -, hc⟩ | ⟨hnone, -⟩
    · rw [hcreate] at hc
      cases hc
    · have hno : w.needRebindContext (s.gl.current t) = false := by
        simp [WindowSurface.needRebindContext, hnone]
      rw [if_neg (by simp [hno]), hcur]
      simp only [bindingOf, surfaceOf_insert_option]
      have hp : s.surfaceOf (some p) = none := (surfaceOf_find hw).trans hnone
      congr 1
      · split_ifs with h
        · rw [h, hp]
        · rfl
      · split_ifs with h
        · rw [h, hp]
        · rfl
  · rw [bindingOf_insert_unused huse]
    split_ifs with hneed
    · have hne : t1 ≠ t := by
        intro he
        subst he
        exact huse ((hs.needRebind_iff hw hcur).mp hneed).2
      rw [← hcur]
      cases a.unbind
      · rfl
      · exact Function.update_of_ne hne ..
    · exact hcur

/-- There is a new pbuffer: no thread had the old one, or the calling thread, which gets the new one. -/
theorem BindingsOk.resized_some (hs : s.BindingsOk) (hw : s.windowSurfaces.find? p = some w)
    {a : PbufferAnswers} (hcreate : a.create = true) (hsafe : s.ResizesSafely t p w a) (w' : WindowSurface)
    (hw' : w'.mSurface = some s.gl.nextSurface) (gl : Gl)
    (hgl : gl.current = (if w.needRebindContext (s.gl.current t) then s.gl.eglMakeCurrent t {} a.unbind
      else s.gl).current ∧ gl.unrestored = s.gl.unrestored ∧ gl.nextSurface = s.gl.nextSurface + 1) :
    BindingsOk { s with
      gl := if w.needRebindContext (s.gl.current t) then
          gl.restore t ⟨(s.gl.current t).context,
            if (s.gl.current t).draw = w.mSurface then some s.gl.nextSurface else (s.gl.current t).draw,
            if (s.gl.current t).read = w.mSurface then some s.gl.nextSurface else (s.gl.current t).read⟩
            (s.gl.unrestored t) a.rebind
        else gl
      windowSurfaces := s.windowSurfaces.insert p w' } := by
  obtain ⟨hcurrent, hunrestored, hnext⟩ := hgl
  have hafter : ∀ b, (if w.needRebindContext (s.gl.current t) then
      gl.restore t b (s.gl.unrestored t) a.rebind else gl).nextSurface = s.gl.nextSurface + 1 := by
    intro b
    rw [← hnext]
    split
    · cases a.rebind <;> rfl
    · rfl
  have hothers : ∀ t1, t1 ≠ t → gl.current t1 = s.gl.current t1 := by
    intro t1 hne
    rw [hcurrent]
    split_ifs
    · cases a.unbind
      · rfl
      · exact Function.update_of_ne hne ..
    · rfl
  -- Only the calling thread may have the window surface current.
  have huser : ∀ t1 tinfo, s.world.threads.find? t1 = some tinfo → s.gl.unrestored t1 = false →
      (tinfo.currDrawSurf = some p ∨ tinfo.currReadSurf = some p) → t1 = t ∧ w.mSurface.isSome = true := by
    intro t1 tinfo ht1 hu huse
    rcases hsafe t1 tinfo ht1 hu huse with ⟨ht, hsome, -⟩ | ⟨-, hc⟩
    · exact ⟨ht, hsome⟩
    · rw [hcreate] at hc
      cases hc
  refine hs.replaced ?_ (fun x hx => ?_) (fun t1 tinfo ht1 hu => ?_)
  · rw [hafter]
    exact Nat.le_succ _
  · rw [hw'] at hx
    cases hx
    rw [hafter]
    exact ⟨Nat.le_refl _, Nat.lt_succ_self _⟩
  by_cases hneed : w.needRebindContext (s.gl.current t) = true
  · rw [if_pos hneed] at hu ⊢
    by_cases he : t1 = t
    · subst he
      have hflags : s.gl.unrestored t1 = false ∧ a.rebind = true := by simpa [restore] using hu
      have hcur := (hs.bindings t1 tinfo ht1 hflags.1).1
      obtain ⟨x, hx⟩ := Option.isSome_iff_exists.mp ((hs.needRebind_iff hw hcur).mp hneed).1
      have hp : s.surfaceOf (some p) = some x := (surfaceOf_find hw).trans hx
      rw [hflags.2, hx, hcur]
      simp [restore, eglMakeCurrent, bindingOf, surfaceOf_insert_option, hs.surfaceOf_eq_iff hp, hw']
    · have hu' : s.gl.unrestored t1 = false := by
        rw [← hunrestored]
        simpa [restore, he] using hu
      have huse : ¬(tinfo.currDrawSurf = some p ∨ tinfo.currReadSurf = some p) :=
        fun h => he (huser t1 tinfo ht1 hu' h).1
      rw [bindingOf_insert_unused huse, ← (hs.bindings t1 tinfo ht1 hu').1, ← hothers t1 he]
      cases a.rebind
      · rfl
      · exact Function.update_of_ne he ..
  · rw [if_neg hneed] at hu ⊢
    rw [if_neg hneed] at hcurrent
    rw [hunrestored] at hu
    have hcur := (hs.bindings t1 tinfo ht1 hu).1
    have huse : ¬(tinfo.currDrawSurf = some p ∨ tinfo.currReadSurf = some p) := by
      intro h
      obtain ⟨he, hsome⟩ := huser t1 tinfo ht1 hu h
      subst he
      exact hneed ((hs.needRebind_iff hw hcur).mpr ⟨hsome, h⟩)
    rw [hcurrent, bindingOf_insert_unused huse]
    exact hcur

theorem BindingsOk.resizeWindow (hs : s.BindingsOk) {width height : Nat} {a : PbufferAnswers}
    (hsafe : ∀ w, s.windowSurfaces.find? p = some w → (width ≠ w.mWidth ∨ height ≠ w.mHeight) →
      s.ResizesSafely t p w a) : (s.resizeWindow t p width height a).BindingsOk := by
  unfold GlWorld.resizeWindow
  split
  · exact hs
  · rename_i w hw
    split
    · rename_i hsize
      have hsafe' := hsafe w hw hsize
      have hresize : ¬(w.mSurface.isSome ∧ w.mWidth = width ∧ w.mHeight = height) := by
        rintro ⟨-, h1, h2⟩
        exact hsize.elim (fun h => h h1.symm) (fun h => h h2.symm)
      unfold WindowSurface.resize
      rw [if_neg hresize]
      dsimp only
      cases hcreate : a.create with
      | false => exact hs.resized_none hw hcreate hsafe'
      | true =>
        have hsame : (if w.needRebindContext (s.gl.current t) then s.gl.eglMakeCurrent t {} a.unbind
            else s.gl).unrestored = s.gl.unrestored ∧
            (if w.needRebindContext (s.gl.current t) then s.gl.eglMakeCurrent t {} a.unbind
            else s.gl).nextSurface = s.gl.nextSurface := by
          split
          · cases a.unbind <;> exact ⟨rfl, rfl⟩
          · exact ⟨rfl, rfl⟩
        generalize hg : (if w.needRebindContext (s.gl.current t) then s.gl.eglMakeCurrent t {} a.unbind
          else s.gl) = g at hsame
        have hcurrent : g.current = (if w.needRebindContext (s.gl.current t) then
            s.gl.eglMakeCurrent t {} a.unbind else s.gl).current := by rw [hg]
        have hdone := hs.resized_some hw hcreate hsafe'
          { w with mSurface := some g.nextSurface, mWidth := width, mHeight := height }
          (congrArg some hsame.2) { g with nextSurface := g.nextSurface + 1 }
          ⟨hcurrent, hsame.1, congrArg (· + 1) hsame.2⟩
        rw [← hsame.2] at hdone
        exact hdone
    · exact hs

/-! ## Attaching a colour buffer -/

theorem BindingsOk.setColorBuffer {cb : Option ColorBufferPtr} {destroyed : DestroyAnswers}
    {a : PbufferAnswers} (hs : s.BindingsOk)
    (hsafe : ∀ w c, s.windowSurfaces.find? p = some w → cb.bind s.colorBuffers.find? = some c →
      (c.m_width ≠ w.mWidth ∨ c.m_height ≠ w.mHeight) → s.ResizesSafely t p w a) :
    (s.setColorBuffer t p cb destroyed a).BindingsOk := by
  unfold GlWorld.setColorBuffer
  dsimp only
  have hattach : SameObjects t s (s.modifyWindow p fun w => { w with mAttachedColorBuffer := cb }) :=
    sameObjects_modifyWindow fun w => rfl
  have hsame := hattach.trans (sameObjects_collect _ t destroyed)
  split
  · exact hs.objects hsame
  · rename_i c hc
    refine (hs.objects hsame).resizeWindow fun w' hw' hsize => ?_
    rw [windowSurfaces_collect] at hw'
    -- The window surface differs from the one before only in what is attached to it.
    obtain ⟨w, hw, hsurface, hwidth, hheight⟩ : ∃ w, s.windowSurfaces.find? p = some w ∧
        w'.mSurface = w.mSurface ∧ w'.mWidth = w.mWidth ∧ w'.mHeight = w.mHeight := by
      unfold modifyWindow at hw'
      split at hw'
      · exact ⟨w', hw', rfl, rfl, rfl⟩
      · rename_i w hw
        simp only [find?_insert, if_true] at hw'
        exact ⟨w, hw, by rw [← Option.some.inj hw'], by rw [← Option.some.inj hw'],
          by rw [← Option.some.inj hw']⟩
    have hc' : cb.bind s.colorBuffers.find? = some c := by
      obtain ⟨q, hq, hfind⟩ := Option.bind_eq_some_iff.mp hc
      refine Option.bind_eq_some_iff.mpr ⟨q, hq, ?_⟩
      have hold := find?_collect _ t destroyed hfind
      unfold modifyWindow at hold
      split at hold <;> exact hold
    rw [hwidth, hheight] at hsize
    intro t1 tinfo ht1 hu huse
    rw [hsame.world] at ht1
    rw [hsurface]
    exact hsafe w c hw hc' hsize t1 tinfo ht1 (hsame.gl.back hu).1 huse

theorem BindingsOk.setWindow {ps pc : HandleType} {destroyed : DestroyAnswers} {a : PbufferAnswers}
    (hs : s.BindingsOk) (hc : s.KeepsBindings (.setWindowSurfaceColorBuffer t ps pc destroyed a))
    (h : s.setWindowSurfaceColorBuffer t ps pc destroyed a = some s') : s'.BindingsOk := by
  obtain ⟨⟨world, rep⟩, hstep, rfl⟩ := Option.map_eq_some_iff.mp h
  have hs1 : BindingsOk { s with world } :=
    hs.frame (SameObjects.frame (step_keepsCurrent rfl hstep) (.refl t _))
  have hcollect := hs1.objects (sameObjects_collect _ t destroyed)
  dsimp only
  generalize hnew : (if pc = 0 then none
    else (world.renderer.m_colorbuffers.find? pc).map ColorBufferRef.cb) = new
  split
  · exact hcollect
  · rename_i win hwin
    split
    · exact hcollect
    · refine hs1.setColorBuffer fun w c hw hbind hsize => ?_
      have hwin' : s.world.renderer.m_windows.find? ps = some win := by
        split_ifs at hwin
        exact hwin
      obtain ⟨q, hq, hfind⟩ := Option.bind_eq_some_iff.mp hbind
      have hpc : pc ≠ 0 ∧ ∃ ref, world.renderer.m_colorbuffers.find? pc = some ref ∧ ref.cb = q := by
        rw [hq] at hnew
        split_ifs at hnew with h0
        exact ⟨h0, Option.map_eq_some_iff.mp hnew⟩
      obtain ⟨hne, ref', href', hcb⟩ := hpc
      have hrenderer : world.renderer =
          (s.world.renderer.setWindowSurfaceColorBuffer s.world.now ps pc).2 := by
        cases hstep
        rfl
      have hthreads : world.threads = s.world.threads := by
        cases hstep
        rfl
      rw [hrenderer] at href'
      obtain ⟨ref, href, he⟩ := Renderer.sameBuffers_setColorBuffer _ _ ps pc pc ref' href'
      have hcolor : s.findColorBuffer pc = some (q, c) := by
        have hfind' : s.colorBuffers.find? q = some c := hfind
        refine Option.bind_eq_some_iff.mpr ⟨ref, href, ?_⟩
        rw [he.trans hcb, hfind', Option.map_some]
      intro t1 tinfo ht1 hu huse
      have ht1' : s.world.threads.find? t1 = some tinfo := by
        rw [← hthreads]
        exact ht1
      exact hc win w q c hwin' hw hne hcolor hsize t1 tinfo ht1' hu huse

/-! ## Drawing a host window -/

/-- Only colour buffers and GL names change. -/
structure LayersOnly (s s' : GlWorld) : Prop where
  gl : NamesOnly s.gl s'.gl
  world : s'.world = s.world
  windowSurfaces : s'.windowSurfaces = s.windowSurfaces

theorem LayersOnly.refl (s : GlWorld) : LayersOnly s s := ⟨.refl _, rfl, rfl⟩

theorem LayersOnly.trans (h1 : LayersOnly s1 s2) (h2 : LayersOnly s2 s3) : LayersOnly s1 s3 :=
  ⟨h1.gl.trans h2.gl, h2.world.trans h1.world, h2.windowSurfaces.trans h1.windowSurfaces⟩

theorem layersOnly_onColorBuffer {h : HandleType} {f : ColorBufferPtr → ColorBuffer → Gl × ColorBuffer}
    (hf : ∀ p c, NamesOnly s.gl (f p c).1) : LayersOnly s (s.onColorBuffer h f) := by
  unfold onColorBuffer
  split
  · exact .refl s
  · exact ⟨hf _ _, rfl, rfl⟩

theorem layersOnly_drawRenderables (t : ThreadId) (vport : Size) (a : Nat → ResizeAnswers)
    (l : List Renderable) : ∀ s n, LayersOnly s (drawRenderables t vport a s n l) := by
  induction l with
  | nil => exact fun s n => .refl s
  | cons r l ih =>
    intro s n
    exact (layersOnly_onColorBuffer fun p c => namesOnly_bind c s.gl t p vport (a n)).trans (ih _ _)

theorem layersOnly_drawLayers (s : GlWorld) (t : ThreadId) (surface : Size) (l : List Renderable)
    (external : Option (Size × Size)) (a : DrawCalls) :
    LayersOnly s (s.drawLayers t surface l external a) := by
  have hdrawn : LayersOnly s
      (if external.isSome then
        { s with presentation_sample_counter := (s.presentation_sample_counter + 1) % 2 ^ 32 }
      else drawRenderables t (drawViewport surface l external) a.resize
        { s with presentation_sample_counter := (s.presentation_sample_counter + 1) % 2 ^ 32 } 0 l) := by
    split
    · exact ⟨.refl _, rfl, rfl⟩
    · have hcount : LayersOnly s
          { s with presentation_sample_counter := (s.presentation_sample_counter + 1) % 2 ^ 32 } :=
        ⟨.refl _, rfl, rfl⟩
      exact hcount.trans (layersOnly_drawRenderables t _ a.resize l _ 0)
  unfold drawLayers
  dsimp only
  split
  · exact hdrawn
  · split
    · exact hdrawn.trans (layersOnly_onColorBuffer fun p c => namesOnly_sample c _ t p _ _ _)
    · exact hdrawn

/-- As `SameObjects`, but under the condition `P` the thread may have nothing current any more. -/
structure Drawn (t : ThreadId) (P : Prop) (s s' : GlWorld) : Prop where
  gl : RestoredOr t P s.gl s'.gl
  world : s'.world = s.world
  windowSurfaces : s'.windowSurfaces = s.windowSurfaces

theorem Drawn.trans {P Q : Prop} (h1 : Drawn t P s1 s2) (h2 : Drawn t Q s2 s3) : Drawn t (P ∨ Q) s1 s3 :=
  ⟨h1.gl.trans h2.gl, h2.world.trans h1.world, h2.windowSurfaces.trans h1.windowSurfaces⟩

theorem Drawn.mono {P Q : Prop} (h : Drawn t P s s') (hPQ : P → Q) : Drawn t Q s s' :=
  ⟨h.gl.mono hPQ, h.world, h.windowSurfaces⟩

theorem drawn_recreate (s : GlWorld) (t : ThreadId) (native_window : NativeWindow) (unbind create : Bool) :
    Drawn t (unbind = true) s (s.recreateWindowSurfaceLocked t native_window unbind create).2 := by
  have hgl := restoredOr_unbind s.gl t unbind
  unfold recreateWindowSurfaceLocked
  dsimp only
  split
  · exact ⟨⟨hgl.others, hgl.self, Nat.le_trans hgl.surfaces (Nat.le_succ _)⟩, rfl, rfl⟩
  · exact ⟨hgl, rfl, rfl⟩

/-- From `bindWindow_locked` over the layers to `unbind_locked`. -/
theorem drawn_unbind (s : GlWorld) (t : ThreadId) (b : EglBinding)
    (hl : LayersOnly { s with gl := s.gl.bindSaved t b true } s') (ok : Bool) :
    Drawn t False s { s' with gl := s'.gl.unbind_locked t ok } :=
  ⟨(restored_unbind s.gl t b ok hl.gl).or _, hl.world, hl.windowSurfaces⟩

theorem drawn_drawBound (s : GlWorld) (t : ThreadId) (b : EglBinding) (native_window : NativeWindow)
    (l : List Renderable) (external : Option (Size × Size)) (a : DrawCalls) :
    Drawn t ((∃ surface, a.answers.query = some surface ∧ surface.Positive) ∧
        a.answers.swap = .badSurface ∧ a.unbindSwap = true) s
      (drawBound { s with gl := s.gl.bindSaved t b true } t native_window l external a) := by
  unfold drawBound
  split
  · exact (drawn_unbind s t b (.refl _) a.restore).mono False.elim
  · rename_i surface hquery
    split
    · rename_i hpos
      have hdrawn := drawn_unbind s t b (layersOnly_drawLayers _ t surface l external a) a.restore
      dsimp only
      split
      · rename_i hswap
        refine (hdrawn.trans (drawn_recreate _ t native_window a.unbindSwap _)).mono fun h => ?_
        exact ⟨⟨surface, hquery, hpos⟩, hswap, h.resolve_left id⟩
      · exact hdrawn.mono False.elim
    · exact (drawn_unbind s t b (.refl _) a.restore).mono False.elim

/-- What `draw` leaves current: what it found, or nothing after a new surface of the window. -/
theorem drawn_draw (s : GlWorld) (t : ThreadId) (native_window : NativeWindow) (l : List Renderable)
    (external : Option (Size × Size)) (a : DrawCalls) :
    Drawn t (native_window ∈ s.m_nativeWindows ∧
        (a.recreatesFirst ∧ a.unbind = true ∨ a.recreatesLast ∧ a.unbindSwap = true)) s
      (s.draw t native_window l external a) := by
  unfold draw
  split
  · exact ⟨(Restored.refl t _).or _, rfl, rfl⟩
  · rename_i surface hwindow
    have hmem := mem_of_find? hwindow
    dsimp only
    by_cases hbind : a.answers.bind = true
    · rw [if_pos hbind, hbind]
      refine (drawn_drawBound s t _ native_window l external a).mono fun h => ⟨hmem, Or.inr ⟨?_, h.2.2⟩⟩
      exact ⟨Or.inl hbind, h.1, h.2.1⟩
    · rw [if_neg hbind]
      rw [Bool.not_eq_true] at hbind
      rw [hbind]
      have hrec := drawn_recreate s t native_window a.unbind a.answers.recreation.created
      have hsome : (s.recreateWindowSurfaceLocked t native_window a.unbind
          a.answers.recreation.created).1.isSome = a.answers.recreation.created := by
        unfold recreateWindowSurfaceLocked
        cases a.answers.recreation.created <;> rfl
      have hfirst : ∀ {s'}, Drawn t (a.unbind = true) s s' → Drawn t (native_window ∈ s.m_nativeWindows ∧
          (a.recreatesFirst ∧ a.unbind = true ∨ a.recreatesLast ∧ a.unbindSwap = true)) s s' :=
        fun h => h.mono fun hu => ⟨hmem, Or.inl ⟨hbind, hu⟩⟩
      have hgl : ({ s with gl := s.gl.bindWindow_locked t surface false } : GlWorld) = s := rfl
      rw [hgl]
      generalize s.recreateWindowSurfaceLocked t native_window a.unbind a.answers.recreation.created = out
        at hrec hsome
      obtain ⟨surface', s2⟩ := out
      dsimp only at hrec hsome ⊢
      split
      · rename_i hs2
        rw [hs2] at hsome
        by_cases hagain : a.answers.bindAgain = true
        · rw [if_pos hagain, hagain]
          refine (hrec.trans (drawn_drawBound s2 t _ native_window l external a)).mono fun h => ⟨hmem, ?_⟩
          rcases h with h | h
          · exact Or.inl ⟨hbind, h⟩
          · exact Or.inr ⟨⟨Or.inr ⟨hsome.symm, hagain⟩, h.1, h.2.1⟩, h.2.2⟩
        · rw [if_neg hagain]
          rw [Bool.not_eq_true] at hagain
          rw [hagain]
          exact hfirst hrec
      · exact hfirst hrec

/-- A thread whose context is lost had none. -/
theorem BindingsOk.draw {native_window : NativeWindow} {l : List Renderable}
    {external : Option (Size × Size)} {a : DrawCalls} (hs : s.BindingsOk)
    (hc : s.KeepsBindings (.draw t native_window l external a)) :
    (s.draw t native_window l external a).BindingsOk := by
  have hd := drawn_draw s t native_window l external a
  generalize s.draw t native_window l external a = s' at hd
  have hsurfaces : ∀ p, s'.surfaceOf (some p) = s.surfaceOf (some p) := by
    intro p
    simp [surfaceOf, hd.windowSurfaces]
  refine hs.frame ⟨fun t1 tinfo ht1 hu => ?_, hd.gl.surfaces, hd.world ▸ .refl _, hsurfaces⟩
  by_cases he : t1 = t
  · subst he
    obtain ⟨hu', hcur⟩ := hd.gl.self hu
    refine ⟨hu', ?_⟩
    rcases hcur with hcur | ⟨⟨hmem, hlost⟩, hempty⟩
    · exact hcur
    · rcases hc hmem with hunbound | ⟨hfirst, hlast⟩
      · exact hempty.trans ((hs.bindings t1 tinfo ht1 hu').2 (hunbound tinfo ht1)).symm
      · rcases hlost with ⟨hrec, hunbind⟩ | ⟨hrec, hunbind⟩
        · rw [hfirst hrec] at hunbind
          cases hunbind
        · rw [hlast hrec] at hunbind
          cases hunbind
  · obtain ⟨hcur, hu'⟩ := hd.gl.others t1 he
    exact ⟨hu' ▸ hu, hcur⟩

/-! ## The other operations -/

theorem sameObjects_createColorBuffer {pw ph : Int} {fmt : GLenum} {a : CreateAnswers} {world : World}
    {rep : Reply} (hstep : s.world.step (.createColorBuffer pw ph fmt a.ok) = some (world, rep))
    (h : s.createColorBuffer t pw ph fmt a = some s') : SameObjects t { s with world } s' := by
  obtain ⟨⟨world', rep'⟩, hstep', rfl⟩ := Option.map_eq_some_iff.mp h
  cases Option.some.inj (hstep.symm.trans hstep')
  have hc := (scopeRel_restored t).create s.gl s.world.nextPtr pw ph fmt a
  dsimp only
  split
  · generalize ColorBuffer.create s.gl t s.world.nextPtr pw ph fmt a = out at hc
    obtain ⟨gl, c⟩ := out
    cases c with
    | none => exact ⟨hc, rfl, fun _ => rfl⟩
    | some c => exact ⟨hc, rfl, fun _ => rfl⟩
  · exact .refl t _

theorem BindingsOk.createColorBuffer {pw ph : Int} {fmt : GLenum} {a : CreateAnswers} (hs : s.BindingsOk)
    (h : s.createColorBuffer t pw ph fmt a = some s') : s'.BindingsOk := by
  obtain ⟨⟨world, rep⟩, hstep, -⟩ := Option.map_eq_some_iff.mp h
  exact hs.frame (SameObjects.frame (step_keepsCurrent rfl hstep) (sameObjects_createColorBuffer hstep h))

/-- A new window surface is nobody's. -/
theorem BindingsOk.createWindowSurface {cfg pw ph : Int} {a : PbufferAnswers} (hs : s.BindingsOk)
    (h : s.createWindowSurface t cfg pw ph a = some s') : s'.BindingsOk := by
  obtain ⟨⟨world, rep⟩, hstep, rfl⟩ := Option.map_eq_some_iff.mp h
  have hkeep := step_keepsCurrent rfl hstep
  have hs1 : BindingsOk { s with world } := hs.frame (SameObjects.frame hkeep (.refl t _))
  have hresize : WindowSurface.resize {} s.gl t (toUnsigned pw) (toUnsigned ph) a =
      if a.create then (s.gl.createSurface.2,
        { mSurface := some s.gl.nextSurface, mWidth := toUnsigned pw, mHeight := toUnsigned ph })
      else (s.gl, {}) := by
    unfold WindowSurface.resize
    rw [if_neg (by simp)]
    rfl
  dsimp only
  rw [hresize]
  split
  · cases a.create with
    | false => exact hs1
    | true =>
      refine hs1.replaced (Nat.le_succ _) (fun x hx => ?_) (fun t1 tinfo ht1 hu => ?_)
      · cases hx
        exact ⟨Nat.le_refl _, Nat.lt_succ_self _⟩
      · have hunused : ¬(tinfo.currDrawSurf = some s.world.nextPtr ∨
            tinfo.currReadSurf = some s.world.nextPtr) := by
          intro huse
          obtain ⟨old, hold, -, hd, hr⟩ := hkeep.threads t1 tinfo ht1
          rw [hd, hr] at huse
          exact Nat.lt_irrefl _ (hs.bookkeeping.used _ ⟨t1, old, hold, huse⟩)
        rw [bindingOf_insert_unused hunused]
        exact (hs1.bindings t1 tinfo ht1 hu).1
  · exact hs1

theorem sameObjects_flush (s : GlWorld) (t : ThreadId) (p_surface : HandleType) (a : FlushAnswers) :
    SameObjects t s (s.flushWindowSurfaceColorBuffer t p_surface a) := by
  unfold flushWindowSurfaceColorBuffer
  dsimp only
  split
  · exact .of_gl (restored_flush _ s.gl t _ _ _ a)
  · exact .refl t s

theorem sameObjects_createNativeWindow (s : GlWorld) (t : ThreadId) (native_window : NativeWindow)
    (create bind restore : Bool) :
    SameObjects t s (s.createNativeWindow t native_window create bind restore) := by
  unfold createNativeWindow
  split
  · exact .refl t s
  · cases create with
    | false => exact .refl t s
    | true =>
      have hnew := restored_createSurface s.gl t
      cases bind with
      | false => exact .of_gl hnew
      | true => exact .of_gl (hnew.trans (restored_unbind _ t _ restore (.refl _)))

theorem BindingsOk.retain_frame {l : List Renderable} {a : HandleType → SnapshotAnswers}
    {destroyed : DestroyAnswers} (hs : s.BindingsOk) (h : s.retain_frame t l a destroyed = some s') :
    s'.BindingsOk := by
  obtain ⟨⟨world, rep⟩, hstep, rfl⟩ := Option.map_eq_some_iff.mp h
  have hloop := sameObjects_snapshotLoop t a l s { renderer := s.world.renderer, nextPtr := s.world.nextPtr }
  exact hs.frame (SameObjects.frame (step_keepsCurrent rfl hstep)
    ((hloop.with_world world).trans (sameObjects_collect _ t destroyed)))

theorem BindingsOk.tables {op : Op} {destroyed : DestroyAnswers} (hs : s.BindingsOk)
    (h : s.step (.tables t op destroyed) = some s') : s'.BindingsOk := by
  simp only [step] at h
  split_ifs at h with hop
  obtain ⟨⟨world, rep⟩, hstep, rfl⟩ := Option.map_eq_some_iff.mp h
  have hkeeps : op.keepsCurrent = true := by
    cases op <;> first
      | rfl
      | cases hop
  exact hs.frame (SameObjects.frame (step_keepsCurrent hkeeps hstep) (sameObjects_collect _ t destroyed))

/-- A new thread has nothing current. -/
theorem BindingsOk.start (hs : s.BindingsOk) (h : s.step (.startThread t) = some s') : s'.BindingsOk := by
  obtain ⟨⟨world, rep⟩, hstep, rfl⟩ := Option.map_eq_some_iff.mp h
  have hbook := hs.bookkeeping.start hstep
  obtain ⟨-, rfl⟩ := step_startThread hstep
  refine ⟨fun t1 tinfo ht1 hu => ?_, hbook, hs.distinct, hs.given⟩
  have ht1' : (s.world.threads.insert t {}).find? t1 = some tinfo := ht1
  by_cases he : t1 = t
  · subst he
    rw [find?_insert, if_pos rfl] at ht1'
    cases Option.some.inj ht1'
    have hcur : Function.update s.gl.current t1 {} t1 = {} := Function.update_self ..
    exact ⟨hcur, fun _ => hcur⟩
  · rw [find?_insert, if_neg he] at ht1'
    have hcur : Function.update s.gl.current t {} t1 = s.gl.current t1 := Function.update_of_ne he ..
    have hu' : s.gl.unrestored t1 = false := by
      rw [← hu]
      exact (Function.update_of_ne he ..).symm
    obtain ⟨hmatch, hnone⟩ := hs.bindings t1 tinfo ht1' hu'
    exact ⟨hcur.trans hmatch, fun h => hcur.trans (hnone h)⟩

/-- Every step that meets the condition keeps bindings and bookkeeping together. -/
theorem BindingsOk.step {op : GlOp} (hs : s.BindingsOk) (hc : s.KeepsBindings op)
    (h : s.step op = some s') : s'.BindingsOk := by
  cases op with
  | tables t op destroyed => exact hs.tables h
  | startThread t => exact hs.start h
  | createColorBuffer t pw ph fmt a => exact hs.createColorBuffer h
  | createWindowSurface t cfg pw ph a => exact hs.createWindowSurface h
  | bindContext t c d rd ok reaped replaced => exact (hs.reap t reaped).bindReaped h
  | setWindowSurfaceColorBuffer t ps pc destroyed a => exact hs.setWindow hc h
  | flushWindowSurfaceColorBuffer t ps a =>
    cases h
    exact hs.objects (sameObjects_flush s t ps a)
  | readColorBuffer t pc x y width height pixels a complete =>
    cases h
    exact hs.objects (sameObjects_onColorBuffer fun p c =>
      restored_readPixels c s.gl t p x y width height pixels a complete)
  | updateColorBuffer t pc x y width height pixels a =>
    cases h
    exact hs.objects (sameObjects_onColorBuffer fun p c =>
      restored_subUpdate c s.gl t x y width height pixels a)
  | retain_frame t l a destroyed => exact hs.retain_frame h
  | createNativeWindow t nw create bind restore =>
    cases h
    exact hs.objects (sameObjects_createNativeWindow s t nw create bind restore)
  | draw t nw l external a =>
    cases h
    exact hs.draw hc

/-! ## Runs -/

theorem bindingsOk_init (configs : Nat) (pbufSurface : Option EglSurface) :
    (glMachine configs pbufSurface).init.BindingsOk := by
  refine ⟨fun t tinfo h => ?_, bookkeepingOk_init configs, fun p p' x h => ?_, fun p x h => ?_⟩
  · simp [glMachine] at h
  · simp [glMachine, surfaceOf] at h
  · simp [glMachine, surfaceOf] at h

/-- In every run in which no thread loses the context it has current to a new host window surface, and
only pbuffers that nobody else has current are replaced, what is current on every thread is what its
bookkeeping says. -/
theorem bindings_match {configs : Nat} {pbufSurface : Option EglSurface} {ops : List GlOp}
    (h : (glMachine configs pbufSurface).AllSteps KeepsBindings (glMachine configs pbufSurface).init ops) :
    (glMachine configs pbufSurface).AllStates BindingsMatch (glMachine configs pbufSurface).init ops :=
  Machine.allStates_of_allSteps (fun _ _ _ hs hc hstep => hs.step hc hstep) (fun _ hs => hs.bindings)
    (bindingsOk_init configs pbufSurface) h

/-- EGL does what it is asked. -/
def scopeOk : ScopeAnswers := ⟨true, true⟩

/-- The answers to a `draw` in which the drawable has no size, once the window is current. -/
def drawCallsOk : DrawCalls where
  answers :=
    { bind := true
      recreation := ⟨none, true, none⟩
      bindAgain := true
      query := none
      queryInvalid := none
      swap := .swapped
      recreationSwap := ⟨none, true, none⟩ }
  unbind := true
  unbindSwap := true
  restore := true
  resize _ := ⟨true, true, true, true, true⟩
  sampleResize := ⟨true, true, true, true, true⟩
  sampleComplete := true

/-- Thread 1 binds a context with a window, and a host window is created. -/
def boundOps : List GlOp :=
  [.startThread 1, .tables 1 (.createRenderContext 1 0 0 true) fun _ => scopeOk,
    .createWindowSurface 1 0 4 4 ⟨true, true, true⟩,
    .bindContext 1 1 2 2 true (fun _ => scopeOk) (fun _ => scopeOk), .createNativeWindow 1 7 true true true]

/-- The window gets a larger colour buffer, and the thread draws. -/
def resizedOps : List GlOp :=
  boundOps ++ [.createColorBuffer 1 8 8 GL_RGBA ⟨scopeOk, true, scopeOk⟩,
    .setWindowSurfaceColorBuffer 1 2 3 (fun _ => scopeOk) ⟨true, true, true⟩,
    .draw 1 7 [] none drawCallsOk]

theorem bindings_match_resized :
    (glMachine 1 none).AllStates BindingsMatch (glMachine 1 none).init resizedOps := by
  refine bindings_match ?_
  -- the state before the resize: thread 1 is the only thread, and the window has a pbuffer
  obtain ⟨s, hexec, hkeys, hwindow, hsurface⟩ : ∃ s,
      (glMachine 1 none).exec (glMachine 1 none).init
        (boundOps ++ [.createColorBuffer 1 8 8 GL_RGBA ⟨scopeOk, true, scopeOk⟩]) = some s ∧
      s.world.threads.keys = [1] ∧ s.world.renderer.m_windows.find? 2 = some (2, 0) ∧
      (s.surfaceOf (some 2)).isSome = true := ⟨_, rfl, rfl, rfl, rfl⟩
  have hpre : (glMachine 1 none).AllSteps KeepsBindings (glMachine 1 none).init
      (boundOps ++ [.createColorBuffer 1 8 8 GL_RGBA ⟨scopeOk, true, scopeOk⟩]) := by
    refine (Machine.allSteps_cons rfl).mpr ⟨trivial, (Machine.allSteps_cons rfl).mpr ⟨trivial, ?_⟩⟩
    refine (Machine.allSteps_cons rfl).mpr ⟨trivial, (Machine.allSteps_cons rfl).mpr ⟨trivial, ?_⟩⟩
    exact (Machine.allSteps_cons rfl).mpr ⟨trivial, (Machine.allSteps_cons rfl).mpr ⟨trivial, trivial⟩⟩
  refine (Machine.allSteps_append hexec).mpr ⟨hpre, ?_, fun s' _ => ⟨fun _ => Or.inr ⟨fun h => ?_, fun h => ?_⟩,
    fun _ _ => trivial⟩⟩
  · intro win w p c hwin hw _ _ _ t' tinfo ht _ _
    rw [hwindow] at hwin
    cases hwin
    have hone : t' = 1 := by
      have hmem := mem_keys_iff.mpr (mem_of_find? ht)
      rwa [hkeys, List.mem_singleton] at hmem
    rw [surfaceOf_find hw] at hsurface
    exact Or.inl ⟨hone, hsurface, rfl⟩
  · cases h
  · obtain ⟨-, ⟨surface, hquery, -⟩, -⟩ := h
    cases hquery

/-- The host window cannot be made current at first: it gets a new surface, and can be drawn then. -/
def lostOps : List GlOp :=
  boundOps ++ [.draw 1 7 [] none
    { drawCallsOk with answers := { drawCallsOk.answers with bind := false } }]

/-- The thread has nothing current afterwards, although every call that restores a binding succeeds. -/
theorem recreation_unbinds : ¬ ∀ (configs : Nat) (pbufSurface : Option EglSurface) (s : GlWorld),
    (glMachine configs pbufSurface).Reachable s → s.BindingsMatch := by
  intro hall
  have hs : ∃ s, (glMachine 1 none).exec (glMachine 1 none).init lostOps = some s ∧
      s.gl.unrestored 1 = false ∧ s.gl.current 1 = {} ∧
      ∃ tinfo, s.world.threads.find? 1 = some tinfo ∧ tinfo.currContext = some 1 :=
    ⟨_, rfl, rfl, rfl, _, rfl, rfl⟩
  obtain ⟨s, hexec, hu, hempty, tinfo, ht, hctx⟩ := hs
  have hmatch := (hall 1 none s ⟨_, hexec⟩ 1 tinfo ht hu).1
  rw [hempty] at hmatch
  have hcontext := congrArg EglBinding.context hmatch
  simp [bindingOf, hctx] at hcontext

end GlWorld

end AnboxReboxed.Emugl
