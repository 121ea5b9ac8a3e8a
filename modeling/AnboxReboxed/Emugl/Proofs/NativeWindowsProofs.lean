import AnboxReboxed.Emugl.NativeWindows
import AnboxReboxed.Lib.Proofs.OrdMapProofs

/-!
# Proofs: the tables of host windows

A creation that fails leaves the windows and the surfaces as they were; the pending size of the window it has used up.
In every run each surface belongs to one window of the table.
-/

namespace AnboxReboxed.Emugl.NativeWindows

open AnboxReboxed.Lib

variable {s : NativeWindows} {native_window : Nat}

/-! ## One creation -/

theorem createNativeWindow_of_mem {w : SurfaceWindow} (h : s.m_nativeWindows.find? native_window = some w)
    (created : Option Nat) (query : Option Size) (bind : Bool) :
    s.createNativeWindow native_window created query bind = (s, some w) := by
  simp only [createNativeWindow, h]

/-- The exits with `nullptr`. A surface that was created is destroyed again. -/
theorem createNativeWindow_failed (h : s.m_nativeWindows.find? native_window = none) {created : Option Nat}
    (query : Option Size) {bind : Bool} (hfailed : (created.isSome && bind) = false) :
    s.createNativeWindow native_window created query bind
      = ({ s with m_pendingWindowSizes := s.m_pendingWindowSizes.erase native_window }, none) := by
  simp only [createNativeWindow, h]
  cases created with
  | none => rfl
  | some surface =>
    have hbind : bind = false := by simpa using hfailed
    simp [hbind, eglCreateWindowSurface, eglDestroySurface]

theorem createNativeWindow_succeeded (h : s.m_nativeWindows.find? native_window = none) (surface : Nat)
    (query : Option Size) :
    ∃ window, window.surface = some surface ∧
      s.createNativeWindow native_window (some surface) query true
        = (⟨s.m_nativeWindows.insert native_window window, s.m_pendingWindowSizes.erase native_window,
            surface :: s.surfaces⟩, some window) := by
  simp only [createNativeWindow, h]
  exact ⟨_, rfl, rfl⟩

theorem updateHostWindow_of_mem {w : SurfaceWindow} (h : s.m_nativeWindows.find? native_window = some w)
    (window : Size) (query queryInvalid : Option Size) :
    s.updateHostWindow native_window window query queryInvalid
      = { s with
          m_nativeWindows :=
            s.m_nativeWindows.insert native_window (w.updateHostWindow window query queryInvalid) } := by
  simp only [updateHostWindow, h]

theorem updateHostWindow_of_not_mem (h : s.m_nativeWindows.find? native_window = none) (window : Size)
    (query queryInvalid : Option Size) :
    s.updateHostWindow native_window window query queryInvalid
      = { s with m_pendingWindowSizes := s.m_pendingWindowSizes.insert native_window window } := by
  simp only [updateHostWindow, h]

theorem destroyNativeWindow_of_mem {w : SurfaceWindow} (h : s.m_nativeWindows.find? native_window = some w) :
    s.destroyNativeWindow native_window
      = ⟨s.m_nativeWindows.erase native_window, s.m_pendingWindowSizes.erase native_window,
          (s.eglDestroySurface w.surface).surfaces⟩ := by
  simp only [destroyNativeWindow, h]
  cases w.surface <;> rfl

theorem destroyNativeWindow_of_not_mem (h : s.m_nativeWindows.find? native_window = none) :
    s.destroyNativeWindow native_window
      = { s with m_pendingWindowSizes := s.m_pendingWindowSizes.erase native_window } := by
  simp only [destroyNativeWindow, h]

theorem recreateWindowSurfaceLocked_of_mem {w : SurfaceWindow} (h : s.m_nativeWindows.find? native_window = some w)
    (query : Option Size) (created : Option Nat) (queryCreated : Option Size) :
    ∃ window : SurfaceWindow, window.surface = created ∧
      s.recreateWindowSurfaceLocked native_window query created queryCreated
        = ⟨s.m_nativeWindows.insert native_window window, s.m_pendingWindowSizes,
            created.toList ++ (s.eglDestroySurface w.surface).surfaces⟩ := by
  simp only [recreateWindowSurfaceLocked, h]
  refine ⟨SurfaceWindow.withSnapshot created
    (w.toRendererWindow.recreateWindowSurfaceLocked ⟨query, created.isSome, queryCreated⟩).1, rfl, ?_⟩
  cases w.surface <;> cases created <;> rfl

/-- A creation that returns `nullptr` has changed nothing, if and only if no size was pending for the window. -/
theorem createNativeWindow_unchanged_iff (s : NativeWindows) (native_window : Nat) (created : Option Nat)
    (query : Option Size) (bind : Bool) :
    ((s.createNativeWindow native_window created query bind).2 = none →
        (s.createNativeWindow native_window created query bind).1.m_nativeWindows = s.m_nativeWindows ∧
        (s.createNativeWindow native_window created query bind).1.m_pendingWindowSizes = s.m_pendingWindowSizes ∧
        (s.createNativeWindow native_window created query bind).1.surfaces = s.surfaces) ↔
      native_window ∈ s.m_nativeWindows ∨ (created.isSome = true ∧ bind = true) ∨
        native_window ∉ s.m_pendingWindowSizes := by
  cases hfind : s.m_nativeWindows.find? native_window with
  | some w =>
    rw [createNativeWindow_of_mem hfind]
    simp [OrdMap.mem_of_find? hfind]
  | none =>
    have hnot : native_window ∉ s.m_nativeWindows := OrdMap.not_mem_iff.2 hfind
    cases hok : created.isSome && bind with
    | false =>
      rw [createNativeWindow_failed hfind query hok]
      have hfailed : ¬(created.isSome = true ∧ bind = true) := by
        rw [← Bool.and_eq_true, hok]
        exact Bool.false_ne_true
      simp [OrdMap.erase_eq_self_iff, hnot, hfailed]
    | true =>
      obtain ⟨hcreated, rfl⟩ := Bool.and_eq_true_iff.1 hok
      obtain ⟨surface, rfl⟩ := Option.isSome_iff_exists.1 hcreated
      obtain ⟨window, -, hcreate⟩ := createNativeWindow_succeeded hfind surface query
      rw [hcreate]
      simp

/-- The host has told the size of a window for which EGL then gives no surface. -/
theorem pending_size_lost :
    let s : NativeWindows := { m_pendingWindowSizes := OrdMap.insert ∅ 7 (640, 480) }
    (s.createNativeWindow 7 none none true).2 = none ∧
      (s.createNativeWindow 7 none none true).1.m_pendingWindowSizes ≠ s.m_pendingWindowSizes := by
  decide

/-! ## Runs -/

theorem owned_insert (m : OrdMap Nat SurfaceWindow) (native_window : Nat) (w : SurfaceWindow) :
    (owned (m.insert native_window w)).Perm (w.surface.toList ++ owned (m.erase native_window)) := by
  have h := (OrdMap.perm_insert m native_window w).filterMap fun e => e.2.surface
  rw [List.filterMap_cons] at h
  cases hsurface : w.surface <;> simpa [owned, hsurface] using h

theorem owned_of_find? {m : OrdMap Nat SurfaceWindow} {w : SurfaceWindow} (h : m.find? native_window = some w) :
    (owned m).Perm (w.surface.toList ++ owned (m.erase native_window)) := by
  rw [← OrdMap.insert_of_find? h, OrdMap.erase_insert_self]
  exact owned_insert m native_window w

theorem owned_insert_of_not_mem {m : OrdMap Nat SurfaceWindow} (h : native_window ∉ m) (w : SurfaceWindow) :
    (owned (m.insert native_window w)).Perm (w.surface.toList ++ owned m) := by
  have hperm := owned_insert m native_window w
  rwa [OrdMap.erase_of_not_mem h] at hperm

theorem eglDestroySurface_perm {surface : Option Nat} {rest : List Nat} (h : s.surfaces.Perm (surface.toList ++ rest)) :
    (s.eglDestroySurface surface).surfaces.Perm rest := by
  cases surface with
  | none => exact h
  | some surface => exact (h.erase surface).trans (by simp)

namespace Inv

theorem createNativeWindow (hs : s.Inv) (created : Option Nat) (query : Option Size) (bind : Bool) :
    (s.createNativeWindow native_window created query bind).1.Inv := by
  cases hfind : s.m_nativeWindows.find? native_window with
  | some w =>
    rw [createNativeWindow_of_mem hfind]
    exact hs
  | none =>
    cases hok : created.isSome && bind with
    | false =>
      rw [createNativeWindow_failed hfind query hok]
      exact ⟨hs.surfaces, fun native hnative h => hs.pending native hnative (OrdMap.mem_erase.1 h).2⟩
    | true =>
      obtain ⟨hcreated, rfl⟩ := Bool.and_eq_true_iff.1 hok
      obtain ⟨surface, rfl⟩ := Option.isSome_iff_exists.1 hcreated
      obtain ⟨window, hwindow, hcreate⟩ := createNativeWindow_succeeded hfind surface query
      have howned := owned_insert_of_not_mem (OrdMap.not_mem_iff.2 hfind) window
      rw [hcreate]
      refine ⟨?_, fun native hnative h => ?_⟩
      · rw [hwindow] at howned
        exact (hs.surfaces.cons surface).trans howned.symm
      · obtain ⟨hne, hmem⟩ := OrdMap.mem_erase.1 h
        exact hs.pending native ((OrdMap.mem_insert.1 hnative).resolve_left hne) hmem

theorem updateHostWindow (hs : s.Inv) (window : Size) (query queryInvalid : Option Size) :
    (s.updateHostWindow native_window window query queryInvalid).Inv := by
  cases hfind : s.m_nativeWindows.find? native_window with
  | none =>
    rw [updateHostWindow_of_not_mem hfind]
    refine ⟨hs.surfaces, fun native hnative h => ?_⟩
    rcases OrdMap.mem_insert.1 h with rfl | h
    · exact OrdMap.not_mem_iff.2 hfind hnative
    · exact hs.pending native hnative h
  | some w =>
    rw [updateHostWindow_of_mem hfind]
    refine ⟨?_, fun native hnative => ?_⟩
    · exact (hs.surfaces.trans (owned_of_find? hfind)).trans
        (owned_insert s.m_nativeWindows native_window (w.updateHostWindow window query queryInvalid)).symm
    · rcases OrdMap.mem_insert.1 hnative with rfl | h
      · exact hs.pending _ (OrdMap.mem_of_find? hfind)
      · exact hs.pending native h

theorem destroyNativeWindow (hs : s.Inv) (native_window : Nat) : (s.destroyNativeWindow native_window).Inv := by
  have hpending (native : Nat) (hnative : native ∈ s.m_nativeWindows) :
      native ∉ s.m_pendingWindowSizes.erase native_window :=
    fun h => hs.pending native hnative (OrdMap.mem_erase.1 h).2
  cases hfind : s.m_nativeWindows.find? native_window with
  | none =>
    rw [destroyNativeWindow_of_not_mem hfind]
    exact ⟨hs.surfaces, hpending⟩
  | some w =>
    rw [destroyNativeWindow_of_mem hfind]
    exact ⟨eglDestroySurface_perm (hs.surfaces.trans (owned_of_find? hfind)),
      fun native hnative => hpending native (OrdMap.mem_erase.1 hnative).2⟩

theorem recreateWindowSurfaceLocked (hs : s.Inv) (query : Option Size) (created : Option Nat)
    (queryCreated : Option Size) :
    (s.recreateWindowSurfaceLocked native_window query created queryCreated).Inv := by
  cases hfind : s.m_nativeWindows.find? native_window with
  | none =>
    rw [show s.recreateWindowSurfaceLocked native_window query created queryCreated = s by
      simp only [NativeWindows.recreateWindowSurfaceLocked, hfind]]
    exact hs
  | some w =>
    obtain ⟨window, hwindow, hrecreate⟩ := recreateWindowSurfaceLocked_of_mem hfind query created queryCreated
    have hrest := eglDestroySurface_perm (hs.surfaces.trans (owned_of_find? hfind))
    have howned := owned_insert s.m_nativeWindows native_window window
    rw [hwindow] at howned
    rw [hrecreate]
    refine ⟨(hrest.append_left _).trans howned.symm, fun native hnative => ?_⟩
    rcases OrdMap.mem_insert.1 hnative with rfl | h
    · exact hs.pending _ (OrdMap.mem_of_find? hfind)
    · exact hs.pending native h

theorem step (hs : s.Inv) (op : NativeWindowOp) : (s.step op).Inv := by
  cases op with
  | createNativeWindow _ created query bind => exact hs.createNativeWindow created query bind
  | updateHostWindow _ window query queryInvalid => exact hs.updateHostWindow window query queryInvalid
  | destroyNativeWindow native_window => exact hs.destroyNativeWindow native_window
  | recreateWindowSurfaceLocked _ query created queryCreated =>
    exact hs.recreateWindowSurfaceLocked query created queryCreated

/-- No run leaks a surface, and none is shared. -/
theorem of_reachable (h : nativeWindowMachine.Reachable s) : s.Inv := by
  refine h.invariant ?_ ?_
  · exact ⟨List.Perm.refl _, by simp [nativeWindowMachine]⟩
  · rintro s op s' hs hstep
    cases Option.some.inj hstep
    exact hs.step op

end Inv

/-! ## One native window -/

theorem toRendererWindow_withSnapshot {surface : Option Nat} {r : RendererWindow} (h : r.surface = surface.isSome) :
    (SurfaceWindow.withSnapshot surface r).toRendererWindow = r := by
  unfold SurfaceWindow.withSnapshot SurfaceWindow.toRendererWindow
  rw [← h]

theorem Shows.createNativeWindow {h : HostWindow} (hs : s.Shows native_window h) (created : Option Nat)
    (query : Option Size) (bind : Bool) :
    (s.createNativeWindow native_window created query bind).1.Shows native_window
      (h.createNativeWindow created.isSome query bind) := by
  obtain ⟨hwindow, hsize⟩ := hs
  cases hfind : s.m_nativeWindows.find? native_window with
  | some w =>
    rw [createNativeWindow_of_mem hfind]
    rw [hfind] at hwindow
    have hsame : h.createNativeWindow created.isSome query bind = h := by
      simp only [HostWindow.createNativeWindow, hwindow, Option.map_some]
    rw [hsame]
    exact ⟨by rw [hwindow, hfind], hsize⟩
  | none =>
    rw [hfind, Option.map_none] at hwindow
    unfold HostWindow.createNativeWindow
    rw [hwindow]
    dsimp only
    cases hok : created.isSome && bind with
    | false =>
      rw [createNativeWindow_failed hfind query hok]
      exact ⟨by simp [hfind], by simp⟩
    | true =>
      obtain ⟨hcreated, rfl⟩ := Bool.and_eq_true_iff.1 hok
      obtain ⟨surface, rfl⟩ := Option.isSome_iff_exists.1 hcreated
      unfold NativeWindows.createNativeWindow
      simp only [hfind, hsize, if_true]
      constructor
      · dsimp only [eglCreateWindowSurface, HostWindow.put]
        rw [OrdMap.find?_insert_self]
        rfl
      · dsimp only [eglCreateWindowSurface, HostWindow.put]
        rw [OrdMap.find?_erase_self]

theorem Shows.updateHostWindow {h : HostWindow} (hs : s.Shows native_window h) (window : Size)
    (query queryInvalid : Option Size) :
    (s.updateHostWindow native_window window query queryInvalid).Shows native_window
      (h.updateHostWindow window query queryInvalid) := by
  obtain ⟨hwindow, hsize⟩ := hs
  unfold HostWindow.updateHostWindow
  cases hfind : s.m_nativeWindows.find? native_window with
  | none =>
    rw [hfind, Option.map_none] at hwindow
    rw [hwindow, updateHostWindow_of_not_mem hfind]
    exact ⟨by simp [hfind], by simp⟩
  | some w =>
    rw [hfind, Option.map_some] at hwindow
    rw [hwindow, updateHostWindow_of_mem hfind]
    refine ⟨?_, hsize⟩
    have hsurface : (w.toRendererWindow.updateHostWindow window query queryInvalid).1.surface = w.surface.isSome := by
      unfold RendererWindow.updateHostWindow
      dsimp only
      split <;> rfl
    dsimp only [HostWindow.put]
    rw [OrdMap.find?_insert_self, Option.map_some, SurfaceWindow.updateHostWindow,
      toRendererWindow_withSnapshot hsurface]

end AnboxReboxed.Emugl.NativeWindows
