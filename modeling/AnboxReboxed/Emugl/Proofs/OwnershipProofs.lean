import AnboxReboxed.Emugl.Proofs.RetainFrameProofs
import AnboxReboxed.Emugl.World

/-!
# Proofs: orphaned contexts and windows

Every operation leaves a table entry with its owner or with its deferral, except that `bindContext`
and `setWindowSurfaceColorBuffer` cancel a deferral without making anybody the owner. A run stays free
of orphans exactly when those two only reuse resources whose creator is still alive.
-/

namespace AnboxReboxed.Emugl

open AnboxReboxed.Lib OrdMap Renderer

namespace Renderer

/-! ## Operations that leave the deferrals of what they keep -/

/-- Every entry of `r'` was in `r`, and its deferral, if it had one, is still there. -/
structure Keeps (r r' : Renderer) : Prop where
  contexts : ∀ h, h ∈ r'.m_contexts →
    h ∈ r.m_contexts ∧ (h ∈ r.m_deferredContexts → h ∈ r'.m_deferredContexts)
  windows : ∀ h, h ∈ r'.m_windows →
    h ∈ r.m_windows ∧ (h ∈ r.m_deferredWindows → h ∈ r'.m_deferredWindows)

theorem Keeps.refl (r : Renderer) : Keeps r r := ⟨fun _ h => ⟨h, id⟩, fun _ h => ⟨h, id⟩⟩

theorem Keeps.trans {r1 r2 r3 : Renderer} (h1 : Keeps r1 r2) (h2 : Keeps r2 r3) : Keeps r1 r3 := by
  refine ⟨fun h hh => ?_, fun h hh => ?_⟩
  · obtain ⟨h3, h4⟩ := h2.contexts h hh
    obtain ⟨h5, h6⟩ := h1.contexts h h3
    exact ⟨h5, fun hd => h4 (h6 hd)⟩
  · obtain ⟨h3, h4⟩ := h2.windows h hh
    obtain ⟨h5, h6⟩ := h1.windows h h3
    exact ⟨h5, fun hd => h4 (h6 hd)⟩

theorem SameButBuffers.keeps {r r' : Renderer} (hs : SameButBuffers r r') : Keeps r r' :=
  ⟨fun h hh => ⟨hs.contexts ▸ hh, fun hd => by rwa [hs.deferredContexts]⟩,
    fun h hh => ⟨hs.windows ▸ hh, fun hd => by rwa [hs.deferredWindows]⟩⟩

theorem keeps_destroyWindow (r : Renderer) (s : HandleType) :
    Keeps r (r.destroyDeferredWindowLocked s) := by
  have hs := sameButWindows_destroy r s
  refine ⟨fun h hh => ⟨hs.contexts ▸ hh, fun hd => by rwa [hs.deferredContexts]⟩, fun h hh => ?_⟩
  rw [windows_destroy] at hh
  rw [deferredWindows_destroy]
  exact ⟨(mem_erase.mp hh).2, id⟩

theorem keeps_reapWindow (r : Renderer) (s : HandleType) : Keeps r (r.reapWindow s) := by
  have hs := sameButWindows_reapWindow r s
  refine ⟨fun h hh => ⟨hs.contexts ▸ hh, fun hd => by rwa [hs.deferredContexts]⟩, fun h hh => ?_⟩
  rw [windows_reapWindow] at hh
  rw [deferredWindows_reapWindow]
  exact ⟨(mem_erase.mp hh).2, fun hd => mem_erase.mpr ⟨(mem_erase.mp hh).1, hd⟩⟩

theorem keeps_reapContext (r : Renderer) (c : HandleType) : Keeps r (r.reapContext c) := by
  refine ⟨fun h hh => ?_, fun h hh => ⟨hh, id⟩⟩
  obtain ⟨h1, h2⟩ := mem_erase.mp hh
  exact ⟨h2, fun hd => mem_erase.mpr ⟨h1, hd⟩⟩

theorem keeps_eraseContext (r : Renderer) (c : HandleType) :
    Keeps r { r with m_contexts := r.m_contexts.erase c } :=
  ⟨fun _ hh => ⟨(mem_erase.mp hh).2, id⟩, fun _ hh => ⟨hh, id⟩⟩

theorem keeps_foldl {f : Renderer → HandleType → Renderer} (hf : ∀ r h, Keeps r (f r h))
    (l : List HandleType) (r : Renderer) : Keeps r (l.foldl f r) :=
  foldl_rel Keeps.refl (fun _ _ _ => Keeps.trans) hf l r

theorem keeps_reap (r : Renderer) (now : TimePoint) : Keeps r (r.reapDeferredResourcesLocked now) :=
  (keeps_foldl keeps_reapWindow _ r).trans (keeps_foldl keeps_reapContext _ _)

theorem keeps_retainPosted (r : Renderer) (now : TimePoint) (p : HandleType) :
    Keeps r (r.retainPostedColorBuffer now p).2 := by
  obtain ⟨r1, rfl, hcases⟩ := retainPosted_cases r now p
  rcases hcases with he | ⟨-, -, -, he⟩
  · rw [he]
    exact keeps_reap r now
  · rw [he]
    refine ((keeps_reap r now).trans (sameButBuffers_addReference _ p).keeps).trans ?_
    have hrel := (sameButBuffers_release
      { (r.reapDeferredResourcesLocked now).addReference p with m_lastPostedColorBuffer := p }
      (r.reapDeferredResourcesLocked now).m_lastPostedColorBuffer).keeps
    exact ⟨hrel.contexts, hrel.windows⟩

theorem keeps_release_frame (r : Renderer) (rds : List Renderable) : Keeps r (r.release_frame rds) :=
  release_frame_rel Keeps.refl (fun _ _ _ => Keeps.trans) (fun r h => (sameButBuffers_drop r h).keeps) r rds

/-! ## Operations that defer -/

/-- A loop that leaves every handle it visits either removed or deferred. -/
theorem foldl_defer {α : Type} (f : Renderer → HandleType → Renderer)
    (table : Renderer → OrdMap HandleType α) (deferred : Renderer → OrdMap HandleType TimePoint)
    (hf : ∀ r a h, h ∈ table (f r a) → h ∈ table r ∧
      (h ∈ deferred r → h ∈ deferred (f r a)) ∧ (h = a → h ∈ deferred (f r a)))
    (l : List HandleType) : ∀ (r : Renderer) (h : HandleType), h ∈ table (l.foldl f r) →
      h ∈ table r ∧ (h ∈ deferred r → h ∈ deferred (l.foldl f r)) ∧
        (h ∈ l → h ∈ deferred (l.foldl f r)) := by
  induction l with
  | nil => exact fun r h hh => ⟨hh, id, fun hm => absurd hm List.not_mem_nil⟩
  | cons a l ih =>
    intro r h hh
    obtain ⟨h1, h2, h3⟩ := ih (f r a) h hh
    obtain ⟨h4, h5, h6⟩ := hf r a h h1
    refine ⟨h4, fun hd => h2 (h5 hd), fun hm => ?_⟩
    rcases List.mem_cons.mp hm with hm | hm
    · exact h2 (h6 hm)
    · exact h3 hm

theorem deferContext_spec (expiry : TimePoint) (r : Renderer) (a h : HandleType)
    (hh : h ∈ (deferContext expiry r a).m_contexts) : h ∈ r.m_contexts ∧
      (h ∈ r.m_deferredContexts → h ∈ (deferContext expiry r a).m_deferredContexts) ∧
      (h = a → h ∈ (deferContext expiry r a).m_deferredContexts) := by
  unfold deferContext at hh ⊢
  split_ifs at hh ⊢ with h1 h2
  · obtain ⟨h3, h4⟩ := mem_erase.mp hh
    exact ⟨h4, id, fun he => absurd he h3⟩
  · exact ⟨hh, fun hd => mem_insert.mpr (Or.inr hd), fun he => mem_insert.mpr (Or.inl he)⟩
  · exact ⟨hh, id, fun he => absurd (he ▸ hh) h1⟩

theorem deferWindow_spec (expiry : TimePoint) (r : Renderer) (a h : HandleType)
    (hh : h ∈ (deferWindow expiry r a).m_windows) : h ∈ r.m_windows ∧
      (h ∈ r.m_deferredWindows → h ∈ (deferWindow expiry r a).m_deferredWindows) ∧
      (h = a → h ∈ (deferWindow expiry r a).m_deferredWindows) := by
  unfold deferWindow at hh ⊢
  split_ifs at hh ⊢ with h1 h2
  · rw [windows_destroy] at hh
    obtain ⟨h3, h4⟩ := mem_erase.mp hh
    rw [deferredWindows_destroy]
    exact ⟨h4, id, fun he => absurd he h3⟩
  · exact ⟨hh, fun hd => mem_insert.mpr (Or.inr hd), fun he => mem_insert.mpr (Or.inl he)⟩
  · exact ⟨hh, id, fun he => absurd (he ▸ hh) h1⟩

/-- The loop over the contexts leaves the windows alone, and the other way round. -/
theorem deferContext_windows (expiry : TimePoint) (l : List HandleType) (r : Renderer) :
    (l.foldl (deferContext expiry) r).m_windows = r.m_windows ∧
      (l.foldl (deferContext expiry) r).m_deferredWindows = r.m_deferredWindows := by
  refine foldl_rel (R := fun r r' => r'.m_windows = r.m_windows ∧
    r'.m_deferredWindows = r.m_deferredWindows) (fun _ => ⟨rfl, rfl⟩)
    (fun _ _ _ h1 h2 => ⟨h2.1.trans h1.1, h2.2.trans h1.2⟩) (fun r a => ?_) l r
  unfold deferContext
  split_ifs <;> exact ⟨rfl, rfl⟩

theorem deferWindow_contexts (expiry : TimePoint) (l : List HandleType) (r : Renderer) :
    SameButWindows r (l.foldl (deferWindow expiry) r) := by
  refine foldl_rel SameButWindows.refl (fun _ _ _ => SameButWindows.trans) (fun r a => ?_) l r
  unfold deferWindow
  split_ifs
  · exact sameButWindows_destroy r a
  · exact ⟨rfl, rfl, rfl, rfl, rfl, rfl⟩
  · exact .refl r

/-- What `deferCurrentThreadResources` leaves in the tables is deferred if it belonged to the thread. -/
theorem deferThread_spec (r : Renderer) (tinfo : RenderThreadInfo) (now later : TimePoint) :
    Keeps r (r.deferCurrentThreadResources tinfo now later).1 ∧
      (∀ h, h ∈ (r.deferCurrentThreadResources tinfo now later).1.m_contexts →
        h ∈ tinfo.m_contextSet →
          h ∈ (r.deferCurrentThreadResources tinfo now later).1.m_deferredContexts) ∧
      (∀ h, h ∈ (r.deferCurrentThreadResources tinfo now later).1.m_windows →
        h ∈ tinfo.m_windowSet →
          h ∈ (r.deferCurrentThreadResources tinfo now later).1.m_deferredWindows) := by
  have hreap := keeps_reap r now
  have hc := foldl_defer _ m_contexts m_deferredContexts (deferContext_spec (later + kDeferredLifetime))
    tinfo.m_contextSet.keys (r.reapDeferredResourcesLocked now)
  have hcw := deferContext_windows (later + kDeferredLifetime) tinfo.m_contextSet.keys
    (r.reapDeferredResourcesLocked now)
  generalize hr1 : tinfo.m_contextSet.keys.foldl (deferContext (later + kDeferredLifetime))
    (r.reapDeferredResourcesLocked now) = r1 at hc hcw
  have hw := foldl_defer _ m_windows m_deferredWindows (deferWindow_spec (later + kDeferredLifetime))
    tinfo.m_windowSet.keys r1
  have hwc := deferWindow_contexts (later + kDeferredLifetime) tinfo.m_windowSet.keys r1
  have he : (r.deferCurrentThreadResources tinfo now later).1 =
      tinfo.m_windowSet.keys.foldl (deferWindow (later + kDeferredLifetime)) r1 := by rw [← hr1]; rfl
  rw [he]
  refine ⟨⟨fun h hh => ?_, fun h hh => ?_⟩, fun h hh hm => ?_, fun h hh hm => ?_⟩
  · rw [hwc.contexts] at hh
    obtain ⟨h1, h2, -⟩ := hc h hh
    obtain ⟨h3, h4⟩ := hreap.contexts h h1
    rw [hwc.deferredContexts]
    exact ⟨h3, fun hd => h2 (h4 hd)⟩
  · obtain ⟨h1, h2, -⟩ := hw h hh
    rw [hcw.1] at h1
    rw [hcw.2] at h2
    obtain ⟨h3, h4⟩ := hreap.windows h h1
    exact ⟨h3, fun hd => h2 (h4 hd)⟩
  · rw [hwc.contexts] at hh
    rw [hwc.deferredContexts]
    exact (hc h hh).2.2 (mem_keys_iff.mpr hm)
  · exact (hw h hh).2.2 (mem_keys_iff.mpr hm)

theorem SameTables.keeps {r r' : Renderer} (hs : SameTables r r') : Keeps r r' :=
  ⟨fun h hh => ⟨hs.contexts ▸ hh, fun hd => by rwa [hs.deferredContexts]⟩,
    fun h hh => ⟨hs.windows ▸ hh, fun hd => by rwa [hs.deferredWindows]⟩⟩

/-! ## Operations that cancel deferrals -/

/-- Cancelling the deferrals in `X` makes an orphan of every entry among them that nobody owns. -/
theorem covered_cancel {α : Type} {table : OrdMap HandleType α}
    {deferred deferred' : OrdMap HandleType TimePoint} {owned X : HandleType → Prop}
    (hcov : Covered table deferred owned) (hX : ∀ h, h ∈ deferred' ↔ h ∈ deferred ∧ ¬ X h) :
    Covered table deferred' owned ↔ ∀ h, X h → h ∈ table → h ∈ deferred → owned h := by
  constructor
  · intro hc h hx ht hd
    exact (hc h ht).resolve_right fun hd' => ((hX h).mp hd').2 hx
  · intro hall h ht
    rcases hcov h ht with ho | hd
    · exact Or.inl ho
    · by_cases hx : X h
      · exact Or.inl (hall h hx ht hd)
      · exact Or.inr ((hX h).mpr ⟨hd, hx⟩)

/-- A table from which the expired handles are removed. -/
theorem mem_of_reaped {α : Type} {table table' : OrdMap HandleType α}
    {deferred : OrdMap HandleType TimePoint} {now : TimePoint} {h : HandleType}
    (hfind : table'.find? h = if h ∈ expired deferred now then none else table.find? h) :
    h ∈ table' ↔ h ∈ table ∧ ∀ e, deferred.find? h = some e → now < e := by
  by_cases hm : h ∈ expired deferred now
  · rw [if_pos hm] at hfind
    obtain ⟨e, he, hle⟩ := mem_expired.mp hm
    constructor
    · exact fun hh => absurd hh (not_mem_iff.mpr hfind)
    · exact fun hh => absurd (hh.2 e he) (Nat.not_lt.mpr hle)
  · rw [if_neg hm] at hfind
    rw [mem_iff, hfind, ← mem_iff]
    refine ⟨fun hh => ⟨hh, fun e he => ?_⟩, fun hh => hh.1⟩
    by_contra hn
    exact hm (mem_expired.mpr ⟨e, he, Nat.not_lt.mp hn⟩)

section Reaped

variable {r : Renderer} {now : TimePoint} {h : HandleType}

theorem mem_contexts_reap :
    h ∈ (r.reapDeferredResourcesLocked now).m_contexts ↔ r.FindsContext now h :=
  mem_of_reaped (find?_contexts_reap r now h)

theorem mem_windows_reap :
    h ∈ (r.reapDeferredResourcesLocked now).m_windows ↔ r.FindsWindow now h :=
  mem_of_reaped (find?_windows_reap r now h)

/-- The deferral of an entry that survives the reaper survives as well. -/
theorem deferredContexts_reap (hf : r.FindsContext now h) :
    h ∈ (r.reapDeferredResourcesLocked now).m_deferredContexts ↔ h ∈ r.m_deferredContexts := by
  rw [mem_of_reaped (find?_deferredContexts_reap r now h)]
  exact and_iff_left hf.2

theorem deferredWindows_reap (hf : r.FindsWindow now h) :
    h ∈ (r.reapDeferredResourcesLocked now).m_deferredWindows ↔ h ∈ r.m_deferredWindows := by
  rw [mem_of_reaped (find?_deferredWindows_reap r now h)]
  exact and_iff_left hf.2

end Reaped

/-- The lookups of `bindContext` keep the tables and cancel the deferrals of what they find. -/
theorem lookupBinding_spec (r : Renderer) (c d rd : HandleType) :
    (r.lookupBinding c d rd).1.m_contexts = r.m_contexts ∧
      (r.lookupBinding c d rd).1.m_windows = r.m_windows ∧
      (∀ h, h ∈ (r.lookupBinding c d rd).1.m_deferredContexts ↔
        h ∈ r.m_deferredContexts ∧ ¬ (h = c ∧ c ∈ r.m_contexts)) ∧
      (∀ h, h ∈ (r.lookupBinding c d rd).1.m_deferredWindows ↔
        h ∈ r.m_deferredWindows ∧ ¬ (c ∈ r.m_contexts ∧ d ∈ r.m_windows ∧
          (h = d ∨ h = rd ∧ rd ∈ r.m_windows))) := by
  cases hc : r.m_contexts.find? c with
  | none =>
    have hcm := not_mem_iff.mpr hc
    simp [lookupBinding, hc, hcm]
  | some ctx =>
    have hcm := mem_of_find? hc
    cases hd : r.m_windows.find? d with
    | none =>
      have hdm := not_mem_iff.mpr hd
      simp [lookupBinding, cancelDeferredContextLocked, hc, hcm, hd, hdm, and_comm]
    | some draw =>
      have hdm := mem_of_find? hd
      by_cases hrd : rd = d
      · subst hrd
        simp [lookupBinding, cancelDeferredContextLocked, cancelDeferredWindowLocked, hc, hcm, hd, hdm,
          and_comm]
      · cases hr : r.m_windows.find? rd with
        | none =>
          have hrm := not_mem_iff.mpr hr
          simp [lookupBinding, cancelDeferredContextLocked, cancelDeferredWindowLocked, hc, hcm, hd, hdm,
            hrd, hr, hrm, and_comm]
        | some read =>
          have hrm := mem_of_find? hr
          simp [lookupBinding, cancelDeferredContextLocked, cancelDeferredWindowLocked, hc, hcm, hd, hdm,
            hrd, hr, hrm, and_comm, and_assoc, and_left_comm]

theorem covered_congr {α β : Type} {table : OrdMap HandleType α} {table' : OrdMap HandleType β}
    {deferred : OrdMap HandleType TimePoint} {owned : HandleType → Prop}
    (ht : ∀ h, h ∈ table' ↔ h ∈ table) : Covered table' deferred owned ↔ Covered table deferred owned :=
  forall_congr' fun h => imp_congr_left (ht h)

/-- The tables after `setWindowSurfaceColorBuffer`: those after the reaper, with the deferral of the
window cancelled. -/
theorem setColorBuffer_tables (r : Renderer) (now : TimePoint) (s p : HandleType) :
    (r.setWindowSurfaceColorBuffer now s p).2.m_contexts =
        (r.reapDeferredResourcesLocked now).m_contexts ∧
      (∀ h, h ∈ (r.setWindowSurfaceColorBuffer now s p).2.m_windows ↔
        h ∈ (r.reapDeferredResourcesLocked now).m_windows) ∧
      (r.setWindowSurfaceColorBuffer now s p).2.m_deferredContexts =
        (r.reapDeferredResourcesLocked now).m_deferredContexts ∧
      (r.setWindowSurfaceColorBuffer now s p).2.m_deferredWindows =
        (r.reapDeferredResourcesLocked now).m_deferredWindows.erase s := by
  obtain ⟨r1, rfl, hcases⟩ := setColorBuffer_cases r now s p
  rcases hcases with he | ⟨w, hw, -, -, -, he⟩
  · rw [he]
    exact ⟨rfl, fun _ => Iff.rfl, rfl, rfl⟩
  · obtain ⟨h1, h2, h3⟩ := reattach_tables
      ((r.reapDeferredResourcesLocked now).cancelDeferredWindowLocked s) s w p
    rw [he]
    refine ⟨h1, fun h => ?_, h2, h3⟩
    show h ∈ (((r.reapDeferredResourcesLocked now).cancelDeferredWindowLocked s).m_windows.insert s
      (w.1, p)) ↔ _
    rw [mem_insert]
    refine ⟨fun hor => hor.elim (fun e => e ▸ mem_of_find? hw) id, Or.inr⟩

end Renderer

/-! ## Steps -/

namespace World

variable {w w' : World} {t : ThreadId} {tinfo tinfo' : RenderThreadInfo} {r : Renderer}

/-- A thread that keeps what makes it an owner is still one. -/
theorem owner_update {P : RenderThreadInfo → Prop} (ho : ∃ t tinfo, w.threads.find? t = some tinfo ∧ P tinfo)
    (ht : w.threads.find? t = some tinfo) (hset : P tinfo → P tinfo') :
    ∃ t1 ti, (w.update t r tinfo').threads.find? t1 = some ti ∧ P ti := by
  obtain ⟨t1, ti, h1, h2⟩ := ho
  by_cases h12 : t1 = t
  · subst h12
    rw [ht] at h1
    refine ⟨t1, tinfo', find?_insert_self _ _ _, hset ?_⟩
    rwa [Option.some.inj h1]
  · exact ⟨t1, ti, (find?_insert_ne _ _ h12).trans h1, h2⟩

theorem OwnsContext.update {h : HandleType} (ho : w.OwnsContext h) (ht : w.threads.find? t = some tinfo)
    (hset : h ∈ tinfo.m_contextSet → h ∈ tinfo'.m_contextSet) :
    (w.update t r tinfo').OwnsContext h := owner_update ho ht hset

theorem OwnsWindow.update {h : HandleType} (ho : w.OwnsWindow h) (ht : w.threads.find? t = some tinfo)
    (hset : h ∈ tinfo.m_windowSet → h ∈ tinfo'.m_windowSet) :
    (w.update t r tinfo').OwnsWindow h := owner_update ho ht hset

/-- Nothing is orphaned by a step that keeps the deferrals of what it keeps, when the owners of what is
left keep it too or hand it to the reaper. -/
theorem NoOrphans.of_keeps (hn : w.NoOrphans) (hk : Keeps w.renderer w'.renderer)
    (hc : ∀ h, h ∈ w'.renderer.m_contexts → w.OwnsContext h →
      w'.OwnsContext h ∨ h ∈ w'.renderer.m_deferredContexts)
    (hw : ∀ h, h ∈ w'.renderer.m_windows → w.OwnsWindow h →
      w'.OwnsWindow h ∨ h ∈ w'.renderer.m_deferredWindows) : w'.NoOrphans := by
  refine ⟨fun h hh => ?_, fun h hh => ?_⟩
  · obtain ⟨h1, h2⟩ := hk.contexts h hh
    rcases hn.1 h h1 with ho | hd
    · exact hc h hh ho
    · exact Or.inr (h2 hd)
  · obtain ⟨h1, h2⟩ := hk.windows h hh
    rcases hn.2 h h1 with ho | hd
    · exact hw h hh ho
    · exact Or.inr (h2 hd)

/-- The same, for tables that are not yet those of a world. -/
theorem NoOrphans.covered_of_keeps (hn : w.NoOrphans) (hk : Keeps w.renderer r) :
    Covered r.m_contexts r.m_deferredContexts w.OwnsContext ∧
      Covered r.m_windows r.m_deferredWindows w.OwnsWindow :=
  show World.NoOrphans { w with renderer := r } from
    hn.of_keeps hk (fun _ _ => Or.inl) (fun _ _ => Or.inl)

/-- A step of the tables only. -/
theorem NoOrphans.of_tables (hn : w.NoOrphans) (hk : Keeps w.renderer w'.renderer)
    (ht : w'.threads = w.threads) : w'.NoOrphans := by
  refine hn.of_keeps hk (fun h _ ho => Or.inl ?_) (fun h _ ho => Or.inl ?_)
  · unfold OwnsContext at ho ⊢
    rwa [ht]
  · unfold OwnsWindow at ho ⊢
    rwa [ht]

/-- A step of one thread. -/
theorem NoOrphans.of_thread (hn : w.NoOrphans) (hk : Keeps w.renderer r)
    (ht : w.threads.find? t = some tinfo)
    (hc : ∀ h, h ∈ r.m_contexts → h ∈ tinfo.m_contextSet → h ∈ tinfo'.m_contextSet)
    (hw : ∀ h, h ∈ r.m_windows → h ∈ tinfo.m_windowSet → h ∈ tinfo'.m_windowSet) :
    (w.update t r tinfo').NoOrphans :=
  hn.of_keeps hk (fun h hh ho => Or.inl (ho.update ht (hc h hh)))
    (fun h hh ho => Or.inl (ho.update ht (hw h hh)))

theorem noOrphans_createContext {cfg : Int} {share ret : HandleType} {gl : Option RenderContextPtr}
    (hn : w.NoOrphans) (ht : w.threads.find? t = some tinfo)
    (h : w.renderer.createRenderContext tinfo cfg share gl = some (ret, r, tinfo')) :
    (w.update t r tinfo').NoOrphans := by
  rcases createRenderContext_cases h with ⟨-, rfl, rfl⟩ | ⟨rctx, r1, -, hgen, rfl, rfl⟩
  · exact hn.of_thread (.refl _) ht (fun _ _ => id) (fun _ _ => id)
  · have hs := sameTables_genHandle hgen
    have hold : (w.update t r1 { tinfo with
        m_contextSet := tinfo.m_contextSet.insert ret () }).NoOrphans := hn.of_thread
      hs.keeps ht (fun _ _ hm => mem_insert.mpr (Or.inr hm)) (fun _ _ => id)
    refine ⟨fun k hk => ?_, hold.2⟩
    rcases mem_insert.mp hk with rfl | hk
    · exact Or.inl ⟨t, _, find?_insert_self _ _ _, mem_insert.mpr (Or.inl rfl)⟩
    · exact hold.1 k hk

theorem noOrphans_createWindow {cfg : Int} {ret : HandleType} {gl : Option WindowSurfacePtr}
    (hn : w.NoOrphans) (ht : w.threads.find? t = some tinfo)
    (h : w.renderer.createWindowSurface tinfo cfg gl = some (ret, r, tinfo')) :
    (w.update t r tinfo').NoOrphans := by
  rcases createWindowSurface_cases h with ⟨-, rfl, rfl⟩ | ⟨win, r1, -, hgen, rfl, rfl⟩
  · exact hn.of_thread (.refl _) ht (fun _ _ => id) (fun _ _ => id)
  · have hs := sameTables_genHandle hgen
    have hold : (w.update t r1 { tinfo with
        m_windowSet := tinfo.m_windowSet.insert ret () }).NoOrphans := hn.of_thread
      hs.keeps ht (fun _ _ => id) (fun _ _ hm => mem_insert.mpr (Or.inr hm))
    refine ⟨hold.1, fun k hk => ?_⟩
    rcases mem_insert.mp hk with rfl | hk
    · exact Or.inl ⟨t, _, find?_insert_self _ _ _, mem_insert.mpr (Or.inl rfl)⟩
    · exact hold.2 k hk

theorem noOrphans_destroySurface {s : HandleType} (hn : w.NoOrphans)
    (ht : w.threads.find? t = some tinfo) :
    (w.update t (w.renderer.DestroyWindowSurface tinfo w.now s).1
      (w.renderer.DestroyWindowSurface tinfo w.now s).2).NoOrphans := by
  obtain ⟨hsc, hsw⟩ := destroySurface_sets w.renderer tinfo w.now s
  refine hn.of_thread ?_ ht (fun k _ hm => by rwa [hsc]) (fun k hk hm => hsw k ?_ hm)
  · rw [destroySurface_renderer]
    exact (keeps_reap _ _).trans (keeps_reapWindow _ s)
  · rw [destroySurface_renderer, windows_reapWindow] at hk
    exact (mem_erase.mp hk).1

theorem noOrphans_exit {elapsed : Nat} (hn : w.NoOrphans) (ht : w.threads.find? t = some tinfo) :
    NoOrphans { w with
      renderer := (w.renderer.deferCurrentThreadResources tinfo w.now (w.now + elapsed)).1
      threads := w.threads.erase t, now := w.now + elapsed } := by
  obtain ⟨hk, hc, hw⟩ := deferThread_spec w.renderer tinfo w.now (w.now + elapsed)
  refine hn.of_keeps hk (fun h hh ho => ?_) (fun h hh ho => ?_)
  · obtain ⟨t1, ti, h1, h2⟩ := ho
    by_cases h12 : t1 = t
    · subst h12
      rw [ht] at h1
      exact Or.inr (hc h hh (by rwa [Option.some.inj h1]))
    · exact Or.inl ⟨t1, ti, by rw [find?_erase_ne _ h12]; exact h1, h2⟩
  · obtain ⟨t1, ti, h1, h2⟩ := ho
    by_cases h12 : t1 = t
    · subst h12
      rw [ht] at h1
      exact Or.inr (hw h hh (by rwa [Option.some.inj h1]))
    · exact Or.inl ⟨t1, ti, by rw [find?_erase_ne _ h12]; exact h1, h2⟩

/-- An update that leaves the thread's sets alone changes no owner. -/
theorem noOrphans_update_iff (ht : w.threads.find? t = some tinfo)
    (hc : tinfo'.m_contextSet = tinfo.m_contextSet) (hw : tinfo'.m_windowSet = tinfo.m_windowSet) :
    (w.update t r tinfo').NoOrphans ↔ Covered r.m_contexts r.m_deferredContexts w.OwnsContext ∧
      Covered r.m_windows r.m_deferredWindows w.OwnsWindow := by
  have hthread : ∀ t1 ti, (w.update t r tinfo').threads.find? t1 = some ti →
      ∃ ti0, w.threads.find? t1 = some ti0 ∧ ti.m_contextSet = ti0.m_contextSet ∧
        ti.m_windowSet = ti0.m_windowSet := by
    intro t1 ti h1
    by_cases h12 : t1 = t
    · subst h12
      have h1' : (w.threads.insert t1 tinfo').find? t1 = some ti := h1
      rw [find?_insert_self] at h1'
      exact ⟨tinfo, ht, Option.some.inj h1' ▸ hc, Option.some.inj h1' ▸ hw⟩
    · exact ⟨ti, (find?_insert_ne _ _ h12).symm.trans h1, rfl, rfl⟩
  have hctx : ∀ h, (w.update t r tinfo').OwnsContext h ↔ w.OwnsContext h := by
    refine fun h => ⟨?_, fun ho => ho.update ht fun hm => by rwa [hc]⟩
    rintro ⟨t1, ti, h1, h2⟩
    obtain ⟨ti0, h3, h4, -⟩ := hthread t1 ti h1
    exact ⟨t1, ti0, h3, h4 ▸ h2⟩
  have hwin : ∀ h, (w.update t r tinfo').OwnsWindow h ↔ w.OwnsWindow h := by
    refine fun h => ⟨?_, fun ho => ho.update ht fun hm => by rwa [hw]⟩
    rintro ⟨t1, ti, h1, h2⟩
    obtain ⟨ti0, h3, -, h4⟩ := hthread t1 ti h1
    exact ⟨t1, ti0, h3, h4 ▸ h2⟩
  refine and_congr ?_ ?_
  · exact forall_congr' fun h => imp_congr_right fun _ => or_congr_left (hctx h)
  · exact forall_congr' fun h => imp_congr_right fun _ => or_congr_left (hwin h)

/-- `bindContext` makes no orphan exactly when it reuses owned resources. -/
theorem noOrphans_bind_iff {c d rd : HandleType} {gl : Bool} (hn : w.NoOrphans)
    (ht : w.threads.find? t = some tinfo) :
    w.ReusesOwned (.bindContext t c d rd gl) ↔
      (w.update t (w.renderer.bindContext tinfo w.now c d rd gl).2.1
        (w.renderer.bindContext tinfo w.now c d rd gl).2.2).NoOrphans := by
  obtain ⟨hsc, hsw⟩ := bindContext_sets w.renderer tinfo w.now c d rd gl
  rw [noOrphans_update_iff ht hsc hsw, bindContext_renderer]
  have hk := keeps_reap w.renderer w.now
  obtain ⟨hcc, hcw⟩ := hn.covered_of_keeps hk
  by_cases hz : c ≠ 0 ∨ d ≠ 0 ∨ rd ≠ 0
  · rw [if_pos hz]
    obtain ⟨h1, h2, h3, h4⟩ := lookupBinding_spec (w.renderer.reapDeferredResourcesLocked w.now) c d rd
    rw [h1, h2, covered_cancel hcc h3, covered_cancel hcw h4]
    refine and_congr ?_ ?_
    · constructor
      · rintro hall h ⟨rfl, hc⟩ - hd
        have hf := mem_contexts_reap.mp hc
        exact hall h ⟨hz, rfl, hf⟩ ((deferredContexts_reap hf).mp hd)
      · rintro hall h ⟨-, rfl, hf⟩ hd
        have hc := mem_contexts_reap.mpr hf
        exact hall h ⟨rfl, hc⟩ hc ((deferredContexts_reap hf).mpr hd)
    · constructor
      · rintro hall h ⟨hc, hd, hor⟩ ht' hdef
        have hf := mem_windows_reap.mp ht'
        refine hall h ⟨mem_contexts_reap.mp hc, mem_windows_reap.mp hd, ?_, hz⟩
          ((deferredWindows_reap hf).mp hdef)
        exact hor.imp_right fun ⟨h5, h6⟩ => ⟨h5, mem_windows_reap.mp h6⟩
      · rintro hall h ⟨hc, hd, hor, -⟩ hdef
        have hf : w.renderer.FindsWindow w.now h := by
          rcases hor with rfl | ⟨rfl, hrd⟩
          · exact hd
          · exact hrd
        refine hall h ⟨mem_contexts_reap.mpr hc, mem_windows_reap.mpr hd, ?_⟩ (mem_windows_reap.mpr hf)
          ((deferredWindows_reap hf).mpr hdef)
        exact hor.imp_right fun ⟨h5, h6⟩ => ⟨h5, mem_windows_reap.mpr h6⟩
  · rw [if_neg hz]
    exact iff_of_true ⟨fun h hr => absurd hr.1 hz, fun h hr => absurd hr.2.2.2 hz⟩ ⟨hcc, hcw⟩

/-- `setWindowSurfaceColorBuffer` makes no orphan exactly when the window has an owner. -/
theorem noOrphans_set_iff {s p : HandleType} (hn : w.NoOrphans) :
    w.ReusesOwned (.setWindowSurfaceColorBuffer s p) ↔
      NoOrphans { w with renderer := (w.renderer.setWindowSurfaceColorBuffer w.now s p).2 } := by
  obtain ⟨hcc, hcw⟩ := hn.covered_of_keeps (keeps_reap w.renderer w.now)
  have hX : ∀ h, h ∈ (w.renderer.reapDeferredResourcesLocked w.now).m_deferredWindows.erase s ↔
      h ∈ (w.renderer.reapDeferredResourcesLocked w.now).m_deferredWindows ∧ ¬ h = s :=
    fun h => mem_erase.trans and_comm
  obtain ⟨h1, h2, h3, h4⟩ := setColorBuffer_tables w.renderer w.now s p
  unfold NoOrphans
  show _ ↔ Covered (w.renderer.setWindowSurfaceColorBuffer w.now s p).2.m_contexts
    (w.renderer.setWindowSurfaceColorBuffer w.now s p).2.m_deferredContexts w.OwnsContext ∧
    Covered (w.renderer.setWindowSurfaceColorBuffer w.now s p).2.m_windows
      (w.renderer.setWindowSurfaceColorBuffer w.now s p).2.m_deferredWindows w.OwnsWindow
  rw [h1, h3, h4, covered_congr h2, covered_cancel hcw hX]
  constructor
  · rintro ⟨-, hall⟩
    refine ⟨hcc, fun h hs ht' hdef => ?_⟩
    have hf := mem_windows_reap.mp ht'
    exact hall h ⟨hs, hs ▸ hf⟩ ((deferredWindows_reap hf).mp hdef)
  · rintro ⟨-, hall⟩
    refine ⟨fun h hr => absurd hr id, fun h hr hdef => ?_⟩
    have hf : w.renderer.FindsWindow w.now h := hr.1 ▸ hr.2
    exact hall h hr.1 (mem_windows_reap.mpr hf) ((deferredWindows_reap hf).mpr hdef)

/-- The operations other than these two cancel no deferral. -/
theorem reusesOwned_of_none {op : Op} (hc : ∀ h, ¬ w.ReusesContext op h)
    (hw : ∀ h, ¬ w.ReusesWindow op h) : w.ReusesOwned op :=
  ⟨fun h hr => absurd hr (hc h), fun h hr => absurd hr (hw h)⟩

/-- From a state without orphans, a step leads to one without orphans exactly when it reuses only
owned resources. -/
theorem noOrphans_step_iff {op : Op} {rep : Reply} (hn : w.NoOrphans)
    (h : w.step op = some (w', rep)) : w.ReusesOwned op ↔ w'.NoOrphans := by
  have hquiet : (∀ h, ¬ w.ReusesContext op h) → (∀ h, ¬ w.ReusesWindow op h) → w'.NoOrphans →
      (w.ReusesOwned op ↔ w'.NoOrphans) := fun hc hw h' => iff_of_true (reusesOwned_of_none hc hw) h'
  cases op with
  | bindContext t c d rd gl =>
    obtain ⟨tinfo, ht, h⟩ := onThread_some h
    cases h
    exact noOrphans_bind_iff hn ht
  | setWindowSurfaceColorBuffer s p =>
    cases h
    exact noOrphans_set_iff hn
  | tick elapsed =>
    cases h
    exact hquiet (fun _ => id) (fun _ => id) (hn.of_tables (.refl _) rfl)
  | startThread t =>
    simp only [step] at h
    split_ifs at h with hnew
    cases h
    refine hquiet (fun _ => id) (fun _ => id) (hn.of_keeps (.refl _) (fun k _ ho => ?_) (fun k _ ho => ?_))
    · obtain ⟨t1, ti, h1, h2⟩ := ho
      have h12 : t1 ≠ t := fun e => hnew (e ▸ mem_of_find? h1)
      exact Or.inl ⟨t1, ti, (find?_insert_ne _ _ h12).trans h1, h2⟩
    · obtain ⟨t1, ti, h1, h2⟩ := ho
      have h12 : t1 ≠ t := fun e => hnew (e ▸ mem_of_find? h1)
      exact Or.inl ⟨t1, ti, (find?_insert_ne _ _ h12).trans h1, h2⟩
  | createColorBuffer pw ph fmt gl =>
    obtain ⟨⟨ret, r1⟩, hc, he⟩ := Option.map_eq_some_iff.mp h
    cases he
    exact hquiet (fun _ => id) (fun _ => id)
      (hn.of_tables (sameTables_createColorBuffer hc).keeps rfl)
  | openColorBuffer k =>
    cases h
    refine hquiet (fun _ => id) (fun _ => id) (hn.of_tables ?_ rfl)
    show Keeps w.renderer (w.renderer.openColorBuffer k).2
    unfold openColorBuffer
    split
    · exact .refl _
    · split_ifs
      · exact .refl _
      · exact (sameButBuffers_addReference _ k).keeps
  | closeColorBuffer k =>
    cases h
    exact hquiet (fun _ => id) (fun _ => id) (hn.of_tables (sameButBuffers_drop _ k).keeps rfl)
  | createRenderContext t cfg share gl =>
    obtain ⟨tinfo, ht, h⟩ := onThread_some h
    obtain ⟨⟨ret, r1, tinfo1⟩, hc, he⟩ := Option.map_eq_some_iff.mp h
    cases he
    exact hquiet (fun _ => id) (fun _ => id) (noOrphans_createContext hn ht hc)
  | createWindowSurface t cfg gl =>
    obtain ⟨tinfo, ht, h⟩ := onThread_some h
    obtain ⟨⟨ret, r1, tinfo1⟩, hc, he⟩ := Option.map_eq_some_iff.mp h
    cases he
    exact hquiet (fun _ => id) (fun _ => id) (noOrphans_createWindow hn ht hc)
  | drainRenderContext t =>
    obtain ⟨tinfo, ht, h⟩ := onThread_some h
    cases h
    refine hquiet (fun _ => id) (fun _ => id) (hn.of_thread (keeps_foldl keeps_eraseContext _ _) ht
      (fun k hk hm => ?_) (fun _ _ => id))
    have hf := find?_foldl_erase (fun r h => { r with m_contexts := r.m_contexts.erase h }) m_contexts
      (fun _ _ => rfl) tinfo.m_contextSet.keys w.renderer k
    rw [if_pos (mem_keys_iff.mpr hm)] at hf
    exact absurd hk (not_mem_iff.mpr hf)
  | drainWindowSurface t =>
    obtain ⟨tinfo, ht, h⟩ := onThread_some h
    cases h
    refine hquiet (fun _ => id) (fun _ => id) (hn.of_thread (keeps_foldl keeps_destroyWindow _ _) ht
      (fun _ _ => id) (fun k hk hm => ?_))
    have hf := find?_foldl_erase _ m_windows windows_destroy tinfo.m_windowSet.keys w.renderer k
    rw [if_pos (mem_keys_iff.mpr hm)] at hf
    exact absurd hk (not_mem_iff.mpr hf)
  | DestroyRenderContext t c =>
    obtain ⟨tinfo, ht, h⟩ := onThread_some h
    cases h
    refine hquiet (fun _ => id) (fun _ => id)
      (hn.of_thread ((keeps_reap _ _).trans (keeps_reapContext _ c)) ht (fun k hk hm => ?_) (fun _ _ => id))
    exact mem_erase.mpr ⟨(mem_erase.mp hk).1, hm⟩
  | DestroyWindowSurface t s =>
    obtain ⟨tinfo, ht, h⟩ := onThread_some h
    cases h
    exact hquiet (fun _ => id) (fun _ => id) (noOrphans_destroySurface hn ht)
  | retainPostedColorBuffer p =>
    cases h
    exact hquiet (fun _ => id) (fun _ => id) (hn.of_tables (keeps_retainPosted _ _ p) rfl)
  | retain_frame rds gl =>
    obtain ⟨res, hc, he⟩ := Option.map_eq_some_iff.mp h
    cases he
    exact hquiet (fun _ => id) (fun _ => id) (hn.of_tables (sameTables_retain_frame hc).keeps rfl)
  | release_frame rds =>
    cases h
    exact hquiet (fun _ => id) (fun _ => id) (hn.of_tables (keeps_release_frame _ rds) rfl)
  | exitThread t elapsed =>
    obtain ⟨tinfo, ht, h⟩ := onThread_some h
    cases h
    exact hquiet (fun _ => id) (fun _ => id) (noOrphans_exit hn ht)

/-- Without threads and with every deferral expired, the reaper removes whatever is no orphan. -/
theorem NoOrphans.reapEmpties (hn : w.NoOrphans) (hq : w.Quiescent) : w.ReapEmpties := by
  obtain ⟨hthreads, hdc, hdw⟩ := hq
  have hdead : ∀ t tinfo, w.threads.find? t ≠ some tinfo := fun t tinfo h => hthreads t (mem_of_find? h)
  refine ⟨eq_empty_of_forall_not_mem fun h hh => ?_, eq_empty_of_forall_not_mem fun h hh => ?_⟩
  · obtain ⟨hm, hlater⟩ := mem_contexts_reap.mp hh
    rcases hn.1 h hm with ⟨t, tinfo, ht, -⟩ | hd
    · exact hdead t tinfo ht
    · obtain ⟨e, he⟩ := mem_iff.mp hd
      exact absurd (hlater e he) (Nat.not_lt.mpr (hdc h e he))
  · obtain ⟨hm, hlater⟩ := mem_windows_reap.mp hh
    rcases hn.2 h hm with ⟨t, tinfo, ht, -⟩ | hd
    · exact hdead t tinfo ht
    · obtain ⟨e, he⟩ := mem_iff.mp hd
      exact absurd (hlater e he) (Nat.not_lt.mpr (hdw h e he))

end World

/-! ## Runs -/

theorem noOrphans_init (configs : Nat) : (renderMachine configs).init.NoOrphans :=
  ⟨fun _ h => absurd h (not_mem_empty _), fun _ h => absurd h (not_mem_empty _)⟩

/-- **No orphaned resources.** A run of the renderer and its threads stays free of orphans, so that one
reap empties both tables once every thread is gone and every deferral has expired, if and only if
each of its steps cancels only deferrals of resources that a live thread still owns. -/
theorem no_orphans_iff {configs : Nat} {ops : List Op} {w : World}
    (hrun : (renderMachine configs).exec (renderMachine configs).init ops = some w) :
    (renderMachine configs).AllStates
        (fun w => w.NoOrphans ∧ (w.Quiescent → w.ReapEmpties)) (renderMachine configs).init ops ↔
      (renderMachine configs).AllSteps World.ReusesOwned (renderMachine configs).init ops := by
  refine Machine.allStates_iff_allSteps (fun s op s' hs hstep => ?_)
    ⟨noOrphans_init configs, (noOrphans_init configs).reapEmpties⟩ hrun
  obtain ⟨⟨w', rep⟩, hw, rfl⟩ := Option.map_eq_some_iff.mp hstep
  rw [World.noOrphans_step_iff hs.1 hw]
  exact ⟨fun hn => ⟨hn, hn.reapEmpties⟩, fun hn => hn.1⟩

/-- Thread 1 creates a context and a window and exits; within two seconds thread 2 binds both. -/
def adoption : List Op :=
  [.startThread 1, .startThread 2, .createRenderContext 1 0 0 true, .createWindowSurface 1 0 true,
    .exitThread 1 0, .bindContext 2 1 2 2 true]

/-- The creator of a context is still alive when another thread binds it. -/
def sharing : List Op :=
  [.startThread 1, .startThread 2, .createRenderContext 1 0 0 true, .createWindowSurface 1 0 true,
    .bindContext 2 1 2 2 true, .bindContext 2 0 0 0 true, .exitThread 1 0]

theorem no_orphans_sharing : (renderMachine 1).AllStates
    (fun w => w.NoOrphans ∧ (w.Quiescent → w.ReapEmpties)) (renderMachine 1).init sharing := by
  have hrun : ∃ w, (renderMachine 1).exec (renderMachine 1).init sharing = some w := ⟨_, rfl⟩
  obtain ⟨w, hrun⟩ := hrun
  refine (no_orphans_iff hrun).mpr ?_
  have hnone : ∀ (w : World) (op : Op), (∀ h, ¬ w.ReusesContext op h) → (∀ h, ¬ w.ReusesWindow op h) →
      w.ReusesOwned op := fun _ _ => World.reusesOwned_of_none
  refine (Machine.allSteps_cons rfl).mpr ⟨hnone _ _ (fun _ => id) fun _ => id, ?_⟩
  refine (Machine.allSteps_cons rfl).mpr ⟨hnone _ _ (fun _ => id) fun _ => id, ?_⟩
  refine (Machine.allSteps_cons rfl).mpr ⟨hnone _ _ (fun _ => id) fun _ => id, ?_⟩
  refine (Machine.allSteps_cons rfl).mpr ⟨hnone _ _ (fun _ => id) fun _ => id, ?_⟩
  -- nothing is deferred when thread 2 binds and unbinds
  refine (Machine.allSteps_cons rfl).mpr
    ⟨⟨fun h _ hd => absurd hd (not_mem_empty h), fun h _ hd => absurd hd (not_mem_empty h)⟩, ?_⟩
  refine (Machine.allSteps_cons rfl).mpr
    ⟨⟨fun h _ hd => absurd hd (not_mem_empty h), fun h _ hd => absurd hd (not_mem_empty h)⟩, ?_⟩
  exact (Machine.allSteps_cons rfl).mpr ⟨hnone _ _ (fun _ => id) fun _ => id, trivial⟩

/-- The context and the window that thread 2 took over belong to nobody. -/
theorem orphan_after_adoption : ¬ ∀ (configs : Nat) (w : World),
    (renderMachine configs).Reachable w → w.NoOrphans := by
  intro hall
  have hw : ∃ w, (renderMachine 1).exec (renderMachine 1).init adoption = some w ∧
      1 ∈ w.renderer.m_contexts ∧ 1 ∉ w.renderer.m_deferredContexts ∧
      w.threads = (∅ : OrdMap ThreadId RenderThreadInfo).insert 2
        { currContext := some 1, currDrawSurf := some 2, currReadSurf := some 2 } :=
    ⟨_, rfl, by decide, by decide, by decide⟩
  obtain ⟨w, he, hc, hd, ht⟩ := hw
  rcases (hall 1 w ⟨_, he⟩).1 1 hc with ⟨t, tinfo, hf, hm⟩ | hdef
  · rw [ht, find?_insert] at hf
    split_ifs at hf
    · rw [← Option.some.inj hf] at hm
      exact not_mem_empty _ hm
    · simp at hf
  · exact hd hdef

end AnboxReboxed.Emugl
