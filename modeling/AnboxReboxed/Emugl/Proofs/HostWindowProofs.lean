import AnboxReboxed.Emugl.HostWindow

/-!
# Proofs: the lifecycle of a published viewport

Every operation on a window is made of invalidations and publications. An invalidation raises the
generation and leaves no valid viewport; a publication changes nothing, or it raises the generation too.
-/

namespace AnboxReboxed.Emugl

open AnboxReboxed.Lib

namespace RendererWindow

variable {w w' w'' : RendererWindow} {events events' : List ViewportEvent}

/-- A window's snapshot counts its increments, and it is consistent while it is valid. -/
structure Sound (w : RendererWindow) : Prop where
  counted : w.published_viewport.generation = UInt64.ofNat w.increments
  consistent : w.published_viewport.valid = true → HostWindow.Consistent w.published_viewport

/-- Nothing has happened since that makes a viewport out of date. -/
def Quiet (events : List ViewportEvent) : Prop := .geometryChanged ∉ events ∧ .recreated ∉ events

/-- The events end with a `glViewport` that is up to date. -/
def EndsSet (events : List ViewportEvent) : Prop :=
  ∃ pre drawable post, events = pre ++ .glViewport drawable :: post ∧ drawable.Positive ∧ Quiet post

/-- What an operation may do to a window. -/
structure Evolves (w w' : RendererWindow) (events : List ViewportEvent) : Prop where
  sound : w'.Sound
  le : w.increments ≤ w'.increments
  same : w'.increments = w.increments → w'.published_viewport = w.published_viewport
  set : w'.published_viewport.valid = true →
    EndsSet events ∨ (Quiet events ∧ w.published_viewport.valid = true)

theorem EndsSet.append (h : EndsSet events) (hq : Quiet events') : EndsSet (events ++ events') := by
  obtain ⟨pre, drawable, post, rfl, hpos, hpost⟩ := h
  refine ⟨pre, drawable, post ++ events', by simp, hpos, ?_, ?_⟩
  · intro hm
    rcases List.mem_append.mp hm with hm | hm
    · exact hpost.1 hm
    · exact hq.1 hm
  · intro hm
    rcases List.mem_append.mp hm with hm | hm
    · exact hpost.2 hm
    · exact hq.2 hm

theorem EndsSet.after (h : EndsSet events') (events : List ViewportEvent) : EndsSet (events ++ events') := by
  obtain ⟨pre, drawable, post, rfl, hpos, hpost⟩ := h
  exact ⟨events ++ pre, drawable, post, by simp, hpos, hpost⟩

theorem Quiet.append (h : Quiet events) (h' : Quiet events') : Quiet (events ++ events') := by
  constructor
  · intro hm
    rcases List.mem_append.mp hm with hm | hm
    · exact h.1 hm
    · exact h'.1 hm
  · intro hm
    rcases List.mem_append.mp hm with hm | hm
    · exact h.2 hm
    · exact h'.2 hm

theorem Evolves.trans (h : Evolves w w' events) (h' : Evolves w' w'' events') :
    Evolves w w'' (events ++ events') := by
  refine ⟨h'.sound, Nat.le_trans h.le h'.le, ?_, ?_⟩
  · intro he
    have hle := h.le
    have hle' := h'.le
    rw [h'.same (by omega), h.same (by omega)]
  · intro hv
    rcases h'.set hv with hset | ⟨hq, hv'⟩
    · exact Or.inl (hset.after events)
    · rcases h.set hv' with hset | ⟨hq', hv''⟩
      · exact Or.inl (hset.append hq)
      · exact Or.inr ⟨hq'.append hq, hv''⟩

theorem ofNat_succ (n : Nat) : UInt64.ofNat n + 1 = UInt64.ofNat (n + 1) := by
  simp

/-- A window that is no longer valid, with the next generation, whatever has happened. -/
theorem Sound.invalidated (h : w.Sound) (hvalid : w'.published_viewport.valid = false)
    (hgeneration : w'.published_viewport.generation = w.published_viewport.generation + 1)
    (hincrements : w'.increments = w.increments + 1) (events : List ViewportEvent) : Evolves w w' events := by
  refine ⟨⟨?_, ?_⟩, by omega, by omega, ?_⟩
  · rw [hgeneration, hincrements, h.counted]
    exact ofNat_succ w.increments
  · intro hv
    rw [hvalid] at hv
    cases hv
  · intro hv
    rw [hvalid] at hv
    cases hv

theorem Sound.invalidateViewportLocked (h : w.Sound) (query : Option Size) (events : List ViewportEvent) :
    Evolves w (w.invalidateViewportLocked query) events :=
  h.invalidated rfl rfl rfl events

theorem Sound.recreateWindowSurfaceLocked (h : w.Sound) (r : Recreation) (events : List ViewportEvent) :
    Evolves w (w.recreateWindowSurfaceLocked r).1 events := by
  have hfirst := h.invalidateViewportLocked r.query []
  have hmiddle : Evolves w { w.invalidateViewportLocked r.query with surface := r.created } [] :=
    ⟨⟨hfirst.sound.counted, hfirst.sound.consistent⟩, hfirst.le, hfirst.same, hfirst.set⟩
  unfold RendererWindow.recreateWindowSurfaceLocked
  cases hc : r.created with
  | false =>
    rw [hc] at hmiddle
    refine ⟨hmiddle.sound, hmiddle.le, hmiddle.same, ?_⟩
    intro hv
    cases hv
  | true =>
    rw [hc] at hmiddle
    exact hmiddle.trans (hmiddle.sound.invalidateViewportLocked r.queryCreated events)

/-- `glViewport` is published. -/
theorem Sound.publish (h : w.Sound) {surface : Size} (hpos : surface.Positive) (source : FrameSource) :
    Evolves w (w.publish surface source) [.glViewport surface] := by
  have hset : EndsSet [.glViewport surface] := ⟨[], surface, [], rfl, hpos, by simp [Quiet]⟩
  have hsource : (if source.size.Positive then source.size else surface).Positive := by
    split
    · assumption
    · exact hpos
  have hwindow : (if w.published_viewport.window.1 ≤ 0 ∨ w.published_viewport.window.2 ≤ 0 then surface
      else w.published_viewport.window).Positive := by
    split
    · exact hpos
    · rename_i hne
      simp only [not_or, not_le] at hne
      exact hne
  unfold RendererWindow.publish
  dsimp only
  generalize (if source.size.Positive then source.size else surface) = android at hsource ⊢
  generalize hch : (!w.published_viewport.valid || w.published_viewport.drawable != surface ||
    w.published_viewport.viewport != coordinateTransformViewport surface android .R0 ||
    w.published_viewport.android != android || w.published_viewport.rotation != .R0) = changed
  cases changed with
  | true =>
    refine ⟨⟨?_, fun _ => ⟨hwindow, hpos, hsource, rfl⟩⟩, Nat.le_succ _, ?_, fun _ => Or.inl hset⟩
    · change w.published_viewport.generation + 1 = _
      rw [h.counted]
      exact ofNat_succ w.increments
    · intro he
      exact absurd he (Nat.succ_ne_self _)
  | false =>
    refine ⟨⟨h.counted, fun _ => ⟨hwindow, hpos, hsource, rfl⟩⟩, Nat.le_refl _, ?_, fun _ => Or.inl hset⟩
    -- nothing differs, and a valid snapshot has a positive window
    intro _
    simp only [Bool.or_eq_false_iff, Bool.not_eq_false', bne_eq_false_iff_eq] at hch
    obtain ⟨⟨⟨⟨hvalid, hdrawable⟩, hviewport⟩, handroid⟩, hrotation⟩ := hch
    obtain ⟨⟨hw1, hw2⟩, -⟩ := h.consistent hvalid
    have hkept : ¬(w.published_viewport.window.1 ≤ 0 ∨ w.published_viewport.window.2 ≤ 0) := by omega
    rw [if_neg hkept]
    cases hp : w.published_viewport with
    | mk valid window drawable viewport android' rotation generation =>
      simp only [hp] at hvalid hdrawable hviewport handroid hrotation ⊢
      simp [hvalid, hdrawable, hviewport, handroid, hrotation]

theorem Sound.drawBound (h : w.Sound) (source : FrameSource) (a : DrawAnswers) :
    Evolves w (w.drawBound source a).1 (w.drawBound source a).2 := by
  unfold RendererWindow.drawBound
  split
  · exact h.invalidateViewportLocked _ _
  · rename_i surface hq
    split
    · rename_i hpos
      have hpub := h.publish hpos source
      split
      · exact hpub.trans (hpub.sound.recreateWindowSurfaceLocked a.recreationSwap [.recreated])
      · exact hpub
    · exact h.invalidateViewportLocked _ _

theorem Sound.draw (h : w.Sound) (source : FrameSource) (a : DrawAnswers) :
    Evolves w (w.draw source a).1 (w.draw source a).2 := by
  have hre := h.recreateWindowSurfaceLocked a.recreation [.recreated]
  unfold RendererWindow.draw
  split
  · exact h.drawBound source a
  · dsimp only
    split
    · exact hre.trans (hre.sound.drawBound source a)
    · exact hre

theorem Sound.updateHostWindow (h : w.Sound) (window : Size) (query queryInvalid : Option Size) :
    Evolves w (w.updateHostWindow window query queryInvalid).1
      (w.updateHostWindow window query queryInvalid).2 := by
  unfold RendererWindow.updateHostWindow
  dsimp only
  split
  · rename_i hsame
    simp only [Bool.and_eq_true, Bool.not_eq_true', bne_eq_false_iff_eq] at hsame
    obtain ⟨⟨⟨hvalid, hwindow⟩, hknown⟩, hdrawable⟩ := hsame
    have hpublished : ({ w.published_viewport with window := window } : RenderedViewport) =
        w.published_viewport := by
      rw [← hwindow]
    have hevents : (if (w.published_viewport.window != window ||
        (w.surface && query.isSome && w.published_viewport.drawable != query.getD (0, 0)) ||
        !(w.surface && query.isSome)) = true then [ViewportEvent.geometryChanged] else []) = [] := by
      simpa [hwindow, hknown] using hdrawable
    rw [hevents, hpublished]
    exact ⟨h, Nat.le_refl _, fun _ => rfl, fun _ => Or.inr ⟨by simp [Quiet], hvalid⟩⟩
  · exact h.invalidated rfl rfl rfl _

end RendererWindow

namespace HostWindow

open RendererWindow

variable {s : HostWindow}

/-- The snapshots so far are ordered by their increments, and no two of them share one. -/
structure Sound (s : HostWindow) : Prop where
  window : ∀ w, s.window = some w → w.Sound
  absent : s.window = none → s.snapshots = []
  ordered : s.snapshots.Pairwise fun a b => a.1 ≤ b.1 ∧ (a.1 = b.1 → a.2 = b.2)
  counted : ∀ e ∈ s.snapshots, e.2.generation = UInt64.ofNat e.1
  latest : ∀ w, s.window = some w → ∀ e ∈ s.snapshots, e.1 ≤ w.increments ∧
    (e.1 = w.increments → e.2 = w.published_viewport)
  set : ∀ w, s.window = some w → w.published_viewport.valid = true → EndsSet s.history

/-- The first window, which is not valid. -/
theorem Sound.first (hs : s.Sound) (hnone : s.window = none) {w : RendererWindow} (hw : w.Sound)
    (hvalid : w.published_viewport.valid = false) : (s.put w []).Sound := by
  have hnil : (s.put w []).snapshots = [(w.increments, w.published_viewport)] := by
    simp [put, hs.absent hnone]
  refine ⟨?_, ?_, ?_, ?_, ?_, ?_⟩
  · intro w' hw'
    cases hw'
    exact hw
  · intro habsent
    cases habsent
  · rw [hnil]
    exact List.pairwise_singleton _ _
  · intro e he
    rw [hnil, List.mem_singleton] at he
    subst he
    exact hw.counted
  · intro w' hw' e he
    cases hw'
    rw [hnil, List.mem_singleton] at he
    subst he
    exact ⟨Nat.le_refl _, fun _ => rfl⟩
  · intro w' hw' hv
    cases hw'
    rw [hvalid] at hv
    cases hv

/-- A window is replaced by what an operation made of it. -/
theorem Sound.replace (hs : s.Sound) {w w' : RendererWindow} (hsome : s.window = some w)
    {events : List ViewportEvent} (he : Evolves w w' events) : (s.put w' events).Sound := by
  have hold : ∀ e ∈ s.snapshots, e.1 ≤ w'.increments ∧ (e.1 = w'.increments → e.2 = w'.published_viewport) := by
    intro e hm
    obtain ⟨hle, hsame⟩ := hs.latest w hsome e hm
    have hle' := he.le
    refine ⟨by omega, fun heq => ?_⟩
    rw [he.same (by omega)]
    exact hsame (by omega)
  refine ⟨?_, ?_, ?_, ?_, ?_, ?_⟩
  · intro v hv
    cases hv
    exact he.sound
  · intro habsent
    cases habsent
  · refine List.pairwise_append.mpr ⟨hs.ordered, List.pairwise_singleton _ _, ?_⟩
    intro a ha b hb
    rw [List.mem_singleton] at hb
    subst hb
    exact hold a ha
  · intro e hm
    rcases List.mem_append.mp hm with hm | hm
    · exact hs.counted e hm
    · rw [List.mem_singleton] at hm
      subst hm
      exact he.sound.counted
  · intro v hv e hm
    cases hv
    rcases List.mem_append.mp hm with hm | hm
    · exact hold e hm
    · rw [List.mem_singleton] at hm
      subst hm
      exact ⟨Nat.le_refl _, fun _ => rfl⟩
  · intro v hv hvalid
    cases hv
    rcases he.set hvalid with hset | ⟨hquiet, hvalid'⟩
    · exact hset.after s.history
    · exact (hs.set w hsome hvalid').append hquiet

theorem Sound.step (hs : s.Sound) (op : HostWindowOp) : (s.step op).Sound := by
  cases op with
  | createNativeWindow created query bind =>
    simp only [HostWindow.step, HostWindow.createNativeWindow]
    split
    · exact hs
    · rename_i hnone
      have hkept : Sound { s with pendingSize := none } := ⟨hs.1, hs.2, hs.3, hs.4, hs.5, hs.6⟩
      split
      · refine hkept.first hnone ?_ rfl
        exact (RendererWindow.Sound.invalidateViewportLocked ⟨rfl, by simp⟩ query []).sound
      · exact hkept
  | updateHostWindow window query queryInvalid =>
    simp only [HostWindow.step, HostWindow.updateHostWindow]
    split
    · exact ⟨hs.1, hs.2, hs.3, hs.4, hs.5, hs.6⟩
    · rename_i w hsome
      exact hs.replace hsome ((hs.window w hsome).updateHostWindow window query queryInvalid)
  | draw source a =>
    simp only [HostWindow.step, HostWindow.draw]
    split
    · exact hs
    · rename_i w hsome
      exact hs.replace hsome ((hs.window w hsome).draw source a)

theorem sound_init : (hostWindowMachine.init).Sound := by
  refine ⟨?_, fun _ => rfl, List.Pairwise.nil, ?_, ?_, ?_⟩
  all_goals simp [hostWindowMachine]

theorem sound_of_run {ops : List HostWindowOp}
    (h : hostWindowMachine.exec hostWindowMachine.init ops = some s) : s.Sound := by
  refine Machine.Reachable.invariant sound_init ?_ ⟨ops, h⟩
  intro s1 op s2 hs h12
  cases h12
  exact hs.step op

theorem ofNat_le {a b : Nat} (hab : a ≤ b) (hb : b < 2 ^ 64) : UInt64.ofNat a ≤ UInt64.ofNat b := by
  rw [UInt64.le_iff_toNat_le, UInt64.toNat_ofNat', UInt64.toNat_ofNat', Nat.mod_eq_of_lt hb,
    Nat.mod_eq_of_lt (by omega)]
  exact hab

theorem ofNat_ne {a b : Nat} (ha : a < 2 ^ 64) (hb : b < 2 ^ 64) (hne : a ≠ b) :
    UInt64.ofNat a ≠ UInt64.ofNat b := by
  intro he
  have hnat := congrArg UInt64.toNat he
  rw [UInt64.toNat_ofNat', UInt64.toNat_ofNat', Nat.mod_eq_of_lt ha, Nat.mod_eq_of_lt hb] at hnat
  exact hne hnat

/-- The lifecycle of a published viewport, in every run with fewer than 2^64 generations. -/
theorem viewport_lifecycle (ops : List HostWindowOp) (s : HostWindow)
    (h : hostWindowMachine.exec hostWindowMachine.init ops = some s) (hlt : s.increments < 2 ^ 64) :
    s.Lifecycle := by
  have hs := sound_of_run h
  have hrendered : ∀ v, s.renderedViewport = some v →
      ∃ w, s.window = some w ∧ w.published_viewport = v ∧ v.valid = true := by
    intro v hv
    obtain ⟨hmap, hvalid⟩ := Option.filter_eq_some_iff.mp hv
    obtain ⟨w, hw, rfl⟩ := Option.map_eq_some_iff.mp hmap
    exact ⟨w, hw, rfl, hvalid⟩
  refine ⟨?_, ?_, ?_⟩
  · intro v hv
    obtain ⟨w, hw, rfl, hvalid⟩ := hrendered v hv
    exact (hs.window w hw).consistent hvalid
  · cases hw : s.window with
    | none =>
      rw [hs.absent hw]
      exact List.Pairwise.nil
    | some w =>
      have hlt' : w.increments < 2 ^ 64 := by simpa [increments, hw] using hlt
      refine List.pairwise_map.mpr (hs.ordered.imp_of_mem ?_)
      intro a b ha hb hab
      have hb' := (hs.latest w hw b hb).1
      rw [hs.counted a ha, hs.counted b hb]
      refine ⟨ofNat_le hab.1 (by omega), fun hne => ofNat_ne (by omega) (by omega) ?_⟩
      exact fun he => hne (hab.2 he)
  · intro v hv
    obtain ⟨w, hw, rfl, hvalid⟩ := hrendered v hv
    obtain ⟨pre, drawable, post, heq, hpos, hquiet⟩ := hs.set w hw hvalid
    exact ⟨pre, drawable, post, heq, hpos, hquiet.1, hquiet.2⟩

/-- Answers with which everything goes well, for a drawable of four by four. -/
def goodAnswers : DrawAnswers where
  bind := true
  recreation := ⟨none, true, none⟩
  bindAgain := true
  query := some (4, 4)
  queryInvalid := none
  swap := .swapped
  recreationSwap := ⟨none, true, none⟩

/-- A window that is drawn once. -/
def drawnOps : List HostWindowOp :=
  [.createNativeWindow true (some (4, 4)) true, .draw (.renderables []) goodAnswers]

theorem viewport_lifecycle_drawn :
    ∃ s, hostWindowMachine.exec hostWindowMachine.init drawnOps = some s ∧ s.renderedViewport.isSome ∧
      s.Lifecycle := by
  have hrun : ∃ s, hostWindowMachine.exec hostWindowMachine.init drawnOps = some s ∧
      s.renderedViewport.isSome ∧ s.increments = 2 := ⟨_, rfl, by decide, by decide⟩
  obtain ⟨s, hs, hsome, hincrements⟩ := hrun
  exact ⟨s, hs, hsome, viewport_lifecycle drawnOps s hs (by omega)⟩

/-- A window that is told `n` times of a size while its drawable cannot be queried. -/
def agingOps (n : Nat) : List HostWindowOp :=
  .createNativeWindow true none true :: List.replicate n (.updateHostWindow (1, 1) none none)

theorem agingOps_run (n : Nat) : ∃ s w first rest,
    hostWindowMachine.exec hostWindowMachine.init (agingOps n) = some s ∧ s.window = some w ∧
      w.increments = n + 1 ∧ s.snapshots = first :: rest ∧ first.1 = 1 ∧
      (0 < n → (w.increments, w.published_viewport) ∈ rest) := by
  induction n with
  | zero => exact ⟨_, _, _, _, rfl, rfl, rfl, rfl, rfl, fun h => absurd h (Nat.lt_irrefl 0)⟩
  | succ n ih =>
    obtain ⟨s, w, first, rest, hexec, hw, hincrements, hsnapshots, hfirst, -⟩ := ih
    have hops : agingOps (n + 1) = agingOps n ++ [.updateHostWindow (1, 1) none none] := by
      simp [agingOps, List.replicate_succ']
    have hstep : s.step (.updateHostWindow (1, 1) none none) =
        s.put (w.updateHostWindow (1, 1) none none).1 (w.updateHostWindow (1, 1) none none).2 := by
      simp [HostWindow.step, HostWindow.updateHostWindow, hw]
    have hone : (w.updateHostWindow (1, 1) none none).1.increments = w.increments + 1 := by
      simp [RendererWindow.updateHostWindow, RendererWindow.invalidateViewportLocked]
    generalize w.updateHostWindow (1, 1) none none = out at hstep hone
    refine ⟨s.put out.1 out.2, out.1, first, rest ++ [(out.1.increments, out.1.published_viewport)],
      ?_, rfl, by omega, ?_, hfirst, fun _ => ?_⟩
    · rw [hops, Machine.exec_append, hexec, Option.bind_some]
      exact congrArg some hstep
    · simp [put, hsnapshots]
    · simp

/-- After 2^64 increments the generation starts again. -/
theorem generation_starts_again :
    ∃ s, hostWindowMachine.exec hostWindowMachine.init (agingOps (2 ^ 64 - 1)) = some s ∧ ¬s.Lifecycle := by
  obtain ⟨s, w, first, rest, hexec, hw, hincrements, hsnapshots, hfirst, hlast⟩ := agingOps_run (2 ^ 64 - 1)
  refine ⟨s, hexec, ?_⟩
  intro hl
  have hs := sound_of_run hexec
  have hmem := hlast (by norm_num)
  have hpair := hl.generations
  rw [hsnapshots, List.map_cons, List.pairwise_cons] at hpair
  have hle := (hpair.1 w.published_viewport (List.mem_map.mpr ⟨_, hmem, rfl⟩)).1
  have hgen := (hs.window w hw).counted
  have hgenFirst := hs.counted first (by simp [hsnapshots])
  rw [hgen, hgenFirst, hfirst, hincrements] at hle
  revert hle
  decide

end HostWindow

end AnboxReboxed.Emugl
