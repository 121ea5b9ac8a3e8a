import AnboxReboxed.Graphics.ComposerHistory

/-!
# Proofs: order of frames and redraws

The frame accepted last is pending, being drawn or presented last, and nothing newer has been drawn.
A request stays in `redraw_requested_` until the worker resolves its windows again, which starts a
pass unless there is no window.
-/

namespace AnboxReboxed.Graphics

open AnboxReboxed.Lib

namespace Composer

variable {s s' : Composer}

/-- What the worker finds when it wakes up. -/
theorem wake_cases {windows : List (Option Nat)} (hs : s.wake windows = some s') :
    s.worker = .waiting ∧
    ((s.stopping_ = true ∧ s' = { s with worker := .returned }) ∨
    (∃ frame, s.pending_ = some frame ∧ s' = { s with
      pending_ := none, redraw_requested_ := false, worker := .drawing frame frame.windows }) ∨
    (s.pending_ = none ∧ s.redraw_requested_ = true ∧ ∃ redraw_windows,
      (∀ frame, s.last_presented_ = some frame → redraw_windows = frame.windows) ∧
      (s.last_presented_ = none → ∀ w ∈ redraw_windows, w.2 = []) ∧
      s' = { s with
        redraw_requested_ := false
        worker := if redraw_windows.isEmpty then .waiting else .redrawing redraw_windows })) := by
  unfold wake at hs
  split at hs
  · rename_i hw
    refine ⟨hw, ?_⟩
    by_cases hstop : s.stopping_ = true
    · rw [if_pos hstop] at hs
      exact Or.inl ⟨hstop, (Option.some.inj hs).symm⟩
    · rw [if_neg hstop] at hs
      right
      cases hp : s.pending_ with
      | some frame =>
        rw [hp] at hs
        exact Or.inl ⟨frame, rfl, (Option.some.inj hs).symm⟩
      | none =>
        rw [hp] at hs
        right
        by_cases hreq : s.redraw_requested_ = true
        · dsimp only at hs
          rw [if_pos hreq] at hs
          refine ⟨rfl, hreq, _, ?_, ?_, (Option.some.inj hs).symm⟩
          · intro frame hf
            rw [hf]
          · intro hf w hw
            rw [hf] at hw
            obtain ⟨v, -, rfl⟩ := List.mem_map.mp hw
            rfl
        · dsimp only at hs
          rw [if_neg hreq] at hs
          cases hs
  · cases hs

/-- Releasing snapshots moves no frame. -/
theorem release_queue (s : Composer) (frame : Option Frame) :
    (s.release frame).pending_ = s.pending_ ∧ (s.release frame).last_presented_ = s.last_presented_ ∧
      (s.release frame).submitted_ = s.submitted_ ∧
      (s.release frame).redraw_requested_ = s.redraw_requested_ ∧ (s.release frame).worker = s.worker := by
  cases frame <;> exact ⟨rfl, rfl, rfl, rfl, rfl⟩

/-- A step that neither commits nor belongs to the worker's passes moves no frame. -/
theorem step_frame {op : ComposerOp} (hs : s.step op = some s') (hc : ∀ k, op ≠ .commit k)
    (hr : op ≠ .request_redraw) (hw : ∀ windows, op ≠ .wake windows) (hd : op ≠ .draw) :
    s'.pending_ = s.pending_ ∧ s'.last_presented_ = s.last_presented_ ∧ s'.submitted_ = s.submitted_ ∧
    s'.redraw_requested_ = s.redraw_requested_ ∧
    (s'.worker = s.worker ∨ (∃ f, s.worker = .releasing f) ∧ s'.worker = .counting ∨
      s.worker = .counting ∧ s'.worker = .waiting) := by
  cases op with
  | commit k => exact absurd rfl (hc k)
  | request_redraw => exact absurd rfl hr
  | wake windows => exact absurd rfl (hw windows)
  | draw => exact absurd rfl hd
  | guest op =>
    simp only [step, guest] at hs
    split_ifs at hs
    obtain ⟨r, -, rfl⟩ := Option.map_eq_some_iff.mp hs
    exact ⟨rfl, rfl, rfl, rfl, Or.inl rfl⟩
  | submit_layers win_layers =>
    simp only [step] at hs
    split_ifs at hs
    cases hs
    exact ⟨rfl, rfl, rfl, rfl, Or.inl rfl⟩
  | freeze k gl =>
    simp only [step, freeze] at hs
    split at hs
    · rename_i done window renderables todo frozen_lists hk
      cases window with
      | none =>
        cases hs
        exact ⟨rfl, rfl, rfl, rfl, Or.inl rfl⟩
      | some win =>
        obtain ⟨r, -, rfl⟩ := Option.map_eq_some_iff.mp hs
        exact ⟨rfl, rfl, rfl, rfl, Or.inl rfl⟩
    · cases hs
  | reject k =>
    simp only [step, reject] at hs
    split at hs
    · cases hs
      exact ⟨rfl, rfl, rfl, rfl, Or.inl rfl⟩
    · cases hs
      exact ⟨rfl, rfl, rfl, rfl, Or.inl rfl⟩
    · cases hs
  | releaseOld =>
    simp only [step, releaseOld] at hs
    split at hs
    · rename_i old_frame hwork
      cases hs
      obtain ⟨h1, h2, h3, h4, -⟩ := release_queue s old_frame
      exact ⟨h1, h2, h3, h4, Or.inr (Or.inl ⟨⟨_, hwork⟩, rfl⟩)⟩
    · cases hs
  | count =>
    simp only [step, count] at hs
    split at hs
    · rename_i hwork
      cases hs
      exact ⟨rfl, rfl, rfl, rfl, Or.inr (Or.inr ⟨hwork, rfl⟩)⟩
    · cases hs
  | stop =>
    simp only [step, stop] at hs
    split_ifs at hs
    cases hs
    exact ⟨rfl, rfl, rfl, rfl, Or.inl rfl⟩
  | destroy =>
    simp only [step, destroy] at hs
    split at hs
    · cases hs
      obtain ⟨h1, h2, h3, h4, h5⟩ := release_queue s s.pending_
      exact ⟨h1, h2, h3, h4, Or.inl h5⟩
    · cases hs
      obtain ⟨h1, h2, h3, h4, h5⟩ := release_queue s s.last_presented_
      exact ⟨h1, h2, h3, h4, Or.inl h5⟩
    · cases hs

end Composer

namespace ComposerHistory

variable {n n' : ComposerHistory}

/-- Where the frames are. -/
structure FramesInOrder (n : ComposerHistory) : Prop where
  increasing : (n.drawn.map Frame.sequence).Pairwise (· < ·)
  bounded : ∀ f ∈ n.drawn, f.sequence ≤ n.composer.submitted_
  pending : ∀ f, n.composer.pending_ = some f → n.accepted.getLast? = some f ∧
    f.sequence = n.composer.submitted_ ∧ ∀ g ∈ n.drawn, g.sequence < f.sequence
  taken : n.composer.pending_ = none → n.accepted.getLast? = n.drawn.getLast?
  drawing : ∀ frame windows, n.composer.worker = .drawing frame windows → n.drawn.getLast? = some frame
  presented : (∀ frame windows, n.composer.worker ≠ .drawing frame windows) →
    n.drawn.getLast? = n.composer.last_presented_
  last : n.composer.last_presented_ = n.presented.getLast?

/-- What the passes drew, and which requests they followed. -/
structure RedrawsInOrder (n : ComposerHistory) : Prop where
  contents : ∀ p ∈ n.passes, p.kind = .redraw →
    (∀ f, p.lastPresented = some f → p.windows = f.windows) ∧
    (p.lastPresented = none → ∀ w ∈ p.windows, w.2 = [])
  current : ∀ windows, n.composer.worker = .redrawing windows →
    ∃ p, n.passes.getLast? = some p ∧ p.kind = .redraw ∧ windows <:+ p.windows
  answered : n.composer.redraw_requested_ = false → ∀ i < n.requests,
    (∃ p ∈ n.passes, i < p.requests) ∨ ∃ m ∈ n.skipped, i < m

theorem frames_commit {k : Nat} {s : Composer} (h : FramesInOrder n)
    (hs : n.composer.commit k = some s) : FramesInOrder (n.record (.commit k) s) := by
  unfold Composer.commit at hs
  split at hs
  · obtain ⟨-, hlast, -, -, hwork⟩ := Composer.release_queue n.composer n.composer.pending_
    rw [← Option.some.inj hs]
    refine ⟨h.increasing, fun f hf => ?_, fun f hf => ?_, fun hc => ?_, ?_, ?_, ?_⟩
    · exact Nat.le_succ_of_le (h.bounded f hf)
    · cases hf
      refine ⟨List.getLast?_concat .., rfl, fun g hg => ?_⟩
      exact Nat.lt_succ_of_le (h.bounded g hg)
    · cases hc
    · exact hwork ▸ h.drawing
    · dsimp only [record]
      rw [hwork, hlast]
      exact h.presented
    · exact hlast.trans h.last
  · cases hs

theorem frames_wake {windows : List (Option Nat)} {s : Composer} (h : FramesInOrder n)
    (hs : n.composer.wake windows = some s) : FramesInOrder (n.record (.wake windows) s) := by
  obtain ⟨hw, hcase⟩ := Composer.wake_cases hs
  have hidle : ∀ frame ws, n.composer.worker ≠ .drawing frame ws := by
    intro frame ws hc
    rw [hw] at hc
    cases hc
  rcases hcase with ⟨-, rfl⟩ | ⟨frame, hp, rfl⟩ | ⟨hp, -, ws, -, -, rfl⟩
  · exact ⟨h.increasing, h.bounded, h.pending, h.taken, fun _ _ hc => by (cases hc),
      fun _ => h.presented hidle, h.last⟩
  · -- the pending frame is newer than all drawn before
    obtain ⟨hacc, hseq, hnew⟩ := h.pending frame hp
    refine ⟨?_, fun f hf => ?_, fun f hf => ?_, fun _ => ?_, fun f ws hc => ?_, fun hc => ?_, h.last⟩
    · simp only [record, recordWake, List.map_append, List.map_singleton]
      refine List.pairwise_append.mpr ⟨h.increasing, List.pairwise_singleton _ _, ?_⟩
      intro a ha b hb
      obtain ⟨g, hg, rfl⟩ := List.mem_map.mp ha
      rw [List.mem_singleton.mp hb]
      exact hnew g hg
    · rcases List.mem_append.mp hf with hf | hf
      · exact h.bounded f hf
      · rw [List.mem_singleton.mp hf]
        exact Nat.le_of_eq hseq
    · cases hf
    · exact hacc.trans (List.getLast?_concat ..).symm
    · cases hc
      exact List.getLast?_concat ..
    · exact absurd rfl (hc frame frame.windows)
  · have hrec : ∀ w', w' = (if ws.isEmpty then WorkerPc.waiting else .redrawing ws) →
        ∀ frame vs, w' ≠ .drawing frame vs := by
      rintro w' rfl frame vs hc
      split_ifs at hc
    simp only [record, recordWake]
    split
    · rename_i frame vs hc
      exact absurd hc (hrec _ rfl frame vs)
    · exact ⟨h.increasing, h.bounded, h.pending, h.taken, fun _ _ hc => absurd hc (hrec _ rfl _ _),
        fun _ => h.presented hidle, h.last⟩
    · exact ⟨h.increasing, h.bounded, h.pending, h.taken, fun _ _ hc => absurd hc (hrec _ rfl _ _),
        fun _ => h.presented hidle, h.last⟩
    · exact ⟨h.increasing, h.bounded, h.pending, h.taken, fun _ _ hc => absurd hc (hrec _ rfl _ _),
        fun _ => h.presented hidle, h.last⟩

theorem frames_draw {s : Composer} (h : FramesInOrder n) (hs : n.composer.draw = some s) :
    FramesInOrder (n.record .draw s) := by
  unfold Composer.draw at hs
  simp only [record, recordDraw]
  cases hw : n.composer.worker with
  | redrawing windows =>
    have hidle : ∀ frame ws, n.composer.worker ≠ .drawing frame ws := by
      intro frame ws hc
      rw [hw] at hc
      cases hc
    rw [hw] at hs
    cases windows with
    | nil =>
      cases hs
      exact ⟨h.increasing, h.bounded, h.pending, h.taken, fun _ _ hc => by (cases hc),
        fun _ => h.presented hidle, h.last⟩
    | cons w windows =>
      cases hs
      exact ⟨h.increasing, h.bounded, h.pending, h.taken, fun _ _ hc => by (cases hc),
        fun _ => h.presented hidle, h.last⟩
  | drawing frame windows =>
    have hdrawn := h.drawing frame windows hw
    rw [hw] at hs
    cases windows with
    | nil =>
      cases hs
      exact ⟨h.increasing, h.bounded, h.pending, h.taken, fun _ _ hc => by (cases hc), fun _ => hdrawn,
        (List.getLast?_concat ..).symm⟩
    | cons w windows =>
      cases hs
      refine ⟨h.increasing, h.bounded, h.pending, h.taken, fun f ws hc => ?_, fun hc => ?_, h.last⟩
      · cases hc
        exact hdrawn
      · exact absurd rfl (hc frame windows)
  | _ =>
    rw [hw] at hs
    cases hs

theorem redraws_wake {windows : List (Option Nat)} {s : Composer} (h : RedrawsInOrder n)
    (hlast : n.composer.last_presented_ = n.presented.getLast?)
    (hs : n.composer.wake windows = some s) : RedrawsInOrder (n.record (.wake windows) s) := by
  obtain ⟨-, hcase⟩ := Composer.wake_cases hs
  rcases hcase with ⟨-, rfl⟩ | ⟨frame, -, rfl⟩ | ⟨-, -, ws, hsome, hnone, rfl⟩
  · exact ⟨h.contents, fun _ hc => by (cases hc), h.answered⟩
  · refine ⟨fun p hp hk => ?_, fun ws hc => ?_, fun _ i hi => Or.inl ?_⟩
    · rcases List.mem_append.mp hp with hp | hp
      · exact h.contents p hp hk
      · rw [List.mem_singleton.mp hp] at hk
        cases hk
    · cases hc
    · exact ⟨_, List.mem_append_right _ List.mem_cons_self, hi⟩
  · cases hws : ws.isEmpty with
    | true =>
      -- no window to draw: the request is dropped
      simp only [record, recordWake, if_true]
      exact ⟨h.contents, fun _ hc => by (cases hc), fun _ i hi =>
        Or.inr ⟨_, List.mem_append_right _ List.mem_cons_self, hi⟩⟩
    | false =>
      simp only [record, recordWake, Bool.false_eq_true, if_false]
      refine ⟨fun p hp hk => ?_, fun vs hc => ?_, fun _ i hi => Or.inl ?_⟩
      · rcases List.mem_append.mp hp with hp | hp
        · exact h.contents p hp hk
        · rw [List.mem_singleton.mp hp]
          exact ⟨fun f hf => hsome f (hlast.trans hf), fun hf => hnone (hlast.trans hf)⟩
      · cases hc
        exact ⟨_, List.getLast?_concat .., rfl, List.suffix_rfl⟩
      · exact ⟨_, List.mem_append_right _ List.mem_cons_self, hi⟩

theorem redraws_draw {s : Composer} (h : RedrawsInOrder n) (hs : n.composer.draw = some s) :
    RedrawsInOrder (n.record .draw s) := by
  unfold Composer.draw at hs
  simp only [record, recordDraw]
  cases hw : n.composer.worker with
  | redrawing windows =>
    rw [hw] at hs
    cases windows with
    | nil =>
      cases hs
      exact ⟨h.contents, fun _ hc => by (cases hc), h.answered⟩
    | cons w windows =>
      cases hs
      refine ⟨h.contents, fun ws hc => ?_, h.answered⟩
      cases hc
      obtain ⟨p, hp, hk, hsuf⟩ := h.current _ hw
      exact ⟨p, hp, hk, (List.suffix_cons w windows).trans hsuf⟩
  | drawing frame windows =>
    rw [hw] at hs
    cases windows with
    | nil =>
      cases hs
      exact ⟨h.contents, fun _ hc => by (cases hc), h.answered⟩
    | cons w windows =>
      cases hs
      exact ⟨h.contents, fun _ hc => by (cases hc), h.answered⟩
  | _ =>
    rw [hw] at hs
    cases hs

/-- The invariant of the history. -/
structure InOrder (n : ComposerHistory) : Prop where
  frames : FramesInOrder n
  redraws : RedrawsInOrder n

/-- A step that moves no frame and starts no pass. -/
theorem InOrder.quiet {s : Composer} (h : InOrder n) (h1 : s.pending_ = n.composer.pending_)
    (h2 : s.last_presented_ = n.composer.last_presented_) (h3 : s.submitted_ = n.composer.submitted_)
    (h4 : s.redraw_requested_ = n.composer.redraw_requested_)
    (h5 : s.worker = n.composer.worker ∨ (∃ f, n.composer.worker = .releasing f) ∧ s.worker = .counting ∨
      n.composer.worker = .counting ∧ s.worker = .waiting) : InOrder { n with composer := s } := by
  -- the worker draws before the step exactly when it draws after it
  have hdraw : ∀ frame ws, s.worker = .drawing frame ws ↔ n.composer.worker = .drawing frame ws := by
    intro frame ws
    rcases h5 with h5 | ⟨⟨f, hf⟩, h5⟩ | ⟨hf, h5⟩
    · rw [h5]
    · rw [h5, hf]
      constructor <;> intro hc <;> cases hc
    · rw [h5, hf]
      constructor <;> intro hc <;> cases hc
  have hredraw : ∀ ws, s.worker = .redrawing ws → n.composer.worker = .redrawing ws := by
    intro ws hc
    rcases h5 with h5 | ⟨-, h5⟩ | ⟨-, h5⟩
    · exact h5 ▸ hc
    · rw [h5] at hc
      cases hc
    · rw [h5] at hc
      cases hc
  refine ⟨⟨h.frames.increasing, ?_, ?_, ?_, ?_, ?_, ?_⟩, ⟨h.redraws.contents, ?_, ?_⟩⟩
  · exact fun f hf => h3 ▸ h.frames.bounded f hf
  · dsimp only
    rw [h1, h3]
    exact h.frames.pending
  · dsimp only
    rw [h1]
    exact h.frames.taken
  · exact fun frame ws hc => h.frames.drawing frame ws ((hdraw frame ws).mp hc)
  · intro hc
    dsimp only
    rw [h2]
    exact h.frames.presented fun frame ws hd => hc frame ws ((hdraw frame ws).mpr hd)
  · exact h2.trans h.frames.last
  · exact fun ws hc => h.redraws.current ws (hredraw ws hc)
  · exact fun hc => h.redraws.answered (h4 ▸ hc)

/-- What one step preserves. -/
theorem inOrder_step {op : ComposerOp} {s : Composer} (h : InOrder n) (hs : n.composer.step op = some s) :
    InOrder (n.record op s) := by
  cases op with
  | commit k =>
    refine ⟨frames_commit h.frames hs, ?_⟩
    simp only [Composer.step, Composer.commit] at hs
    split at hs
    · obtain ⟨-, -, -, hreq, hwork⟩ := Composer.release_queue n.composer n.composer.pending_
      cases hs
      refine ⟨h.redraws.contents, ?_, ?_⟩
      · exact hwork ▸ h.redraws.current
      · exact hreq ▸ h.redraws.answered
    · cases hs
  | request_redraw =>
    cases hs
    refine ⟨⟨h.frames.increasing, h.frames.bounded, h.frames.pending, h.frames.taken, h.frames.drawing,
      h.frames.presented, h.frames.last⟩, ⟨h.redraws.contents, h.redraws.current, fun hc => ?_⟩⟩
    cases hc
  | wake windows => exact ⟨frames_wake h.frames hs, redraws_wake h.redraws h.frames.last hs⟩
  | draw => exact ⟨frames_draw h.frames hs, redraws_draw h.redraws hs⟩
  | guest | submit_layers | freeze | reject | releaseOld | count | stop | destroy =>
    obtain ⟨h1, h2, h3, h4, h5⟩ := Composer.step_frame hs (by simp) (by simp) (by simp) (by simp)
    exact h.quiet h1 h2 h3 h4 h5

end ComposerHistory

open ComposerHistory

end AnboxReboxed.Graphics
