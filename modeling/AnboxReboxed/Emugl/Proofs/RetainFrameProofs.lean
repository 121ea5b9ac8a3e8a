import AnboxReboxed.Emugl.Proofs.HandleProofs

/-!
# Proofs: the loop of `retain_frame`

An invariant of the loop state that every committed snapshot preserves holds however the loop ends.
-/

namespace AnboxReboxed.Emugl.Renderer

open AnboxReboxed.Lib OrdMap

/-- `P` holds of the state in which the loop ended. -/
def RetainOutcome.Sat (P : RetainState → Prop) : RetainOutcome → Prop
  | .retained st => P st
  | .failed st => P st
  | .hung => True

/-- The one way a round of the loop changes the tables: a source that passed the checks got a copy
at the next address and a handle from `genHandle`. -/
structure Commits (st : RetainState) (source_handle snapshot_handle : HandleType)
    (source : ColorBufferRef) (allocation_bytes : Nat) (r : Renderer) : Prop where
  check : retainCheck st source_handle = .admitted source allocation_bytes
  args : colorBufferArgsOk source.width source.height source.format = true
  gen : st.renderer.genHandle = some (snapshot_handle, r)

/-- A loop that got through `pre` goes on from the state it reached. -/
theorem retainLoop_append {gl : HandleType → Bool} {post : List Renderable} :
    ∀ {pre : List Renderable} {st0 st : RetainState}, retainLoop gl st0 pre = .retained st →
      retainLoop gl st0 (pre ++ post) = retainLoop gl st post := by
  intro pre
  induction pre with
  | nil =>
    intro st0 st h
    rw [RetainOutcome.retained.inj h]
    rfl
  | cons rd pre ih =>
    intro st0 st h
    rw [retainLoop] at h
    rw [List.cons_append]
    conv_lhs => rw [retainLoop]
    cases hc : retainCheck st0 rd.buffer with
    | known =>
      rw [hc] at h
      dsimp only at h ⊢
      exact ih h
    | rejected =>
      rw [hc] at h
      cases h
    | admitted source bytes =>
      rw [hc] at h
      dsimp only at h ⊢
      split at h
      · cases h
      · split at h
        · cases h
        · exact ih h

/-- The invariant rule of the loop of `retain_frame`; a round may use what the loop did before it. -/
theorem retainLoop_rule_from {P : RetainState → Prop} {gl : HandleType → Bool} {l : List Renderable}
    {st0 : RetainState} (hptr : ∀ st, P st → P { st with nextPtr := st.nextPtr + 1 })
    (hcommit : ∀ pre rd post st sh source bytes r, l = pre ++ rd :: post →
      retainLoop gl st0 pre = .retained st → P st → Commits st rd.buffer sh source bytes r →
      createColorBufferObject source.width source.height source.format
        (if gl rd.buffer then some st.nextPtr else none) = some st.nextPtr →
      P (retainCommit st r rd.buffer sh source bytes st.nextPtr)) :
    ∀ (post pre : List Renderable) (st : RetainState), l = pre ++ post →
      retainLoop gl st0 pre = .retained st → P st → (retainLoop gl st post).Sat P := by
  intro post
  induction post with
  | nil => exact fun _ st _ _ hst => hst
  | cons rd post ih =>
    intro pre st hl hpre hst
    have hnext : ∀ st', retainLoop gl st [rd] = .retained st' → P st' →
        (retainLoop gl st' post).Sat P := fun st' h1 hst' =>
      ih (pre ++ [rd]) st' (by simp [hl]) ((retainLoop_append hpre).trans h1) hst'
    unfold retainLoop
    cases hc : retainCheck st rd.buffer with
    | known => exact hnext st (by simp [retainLoop, hc]) hst
    | rejected => exact hst
    | admitted source bytes =>
      dsimp only
      cases hcb : createColorBufferObject source.width source.height source.format
          (if gl rd.buffer then some st.nextPtr else none) with
      | none => exact hptr st hst
      | some cb =>
        have hargs : colorBufferArgsOk source.width source.height source.format = true := by
          by_contra hn
          simp [createColorBufferObject, hn] at hcb
        have hptr' : cb = st.nextPtr := by
          have hcb' := hcb
          simp only [createColorBufferObject, hargs, if_true] at hcb'
          split_ifs at hcb'
          exact (Option.some.inj hcb').symm
        subst hptr'
        dsimp only
        cases hg : st.renderer.genHandle with
        | none => exact trivial
        | some p =>
          obtain ⟨sh, r⟩ := p
          exact hnext _ (by simp [retainLoop, hc, hcb, hg])
            (hcommit pre rd post st sh source bytes r hl hpre hst ⟨hc, hargs, hg⟩ hcb)

/-- The invariant rule of the loop of `retain_frame`. -/
theorem retainLoop_rule {P : RetainState → Prop} {gl : HandleType → Bool}
    (hptr : ∀ st, P st → P { st with nextPtr := st.nextPtr + 1 })
    (hcommit : ∀ st h sh source bytes r, P st → Commits st h sh source bytes r →
      P (retainCommit st r h sh source bytes st.nextPtr)) (l : List Renderable) (st : RetainState)
    (hst : P st) : (retainLoop gl st l).Sat P :=
  retainLoop_rule_from hptr (fun _ rd _ st sh source bytes r _ _ hst hc _ =>
    hcommit st rd.buffer sh source bytes r hst hc) l [] st rfl rfl hst

/-- What an admitted source looks like. -/
theorem retainCheck_admitted {st : RetainState} {h : HandleType} {source : ColorBufferRef} {bytes : Nat}
    (hc : retainCheck st h = .admitted source bytes) :
    h ∉ st.snapshots ∧ st.renderer.m_colorbuffers.find? h = some source ∧
      st.renderer.m_colorbuffers.size < max_color_buffers ∧ bytes ≤ max_color_buffer_bytes ∧
      st.renderer.m_colorBufferBytes ≤ max_color_buffer_bytes - bytes := by
  unfold retainCheck at hc
  split_ifs at hc with hs
  refine ⟨hs, ?_⟩
  split at hc
  · cases hc
  · rename_i src hf
    dsimp only at hc
    split_ifs at hc with h1 h2
    obtain ⟨rfl, rfl⟩ := RetainCheck.admitted.inj hc
    push Not at h2
    exact ⟨hf, h2.1, h2.2.1, h2.2.2⟩

/-- The two ways `retain_frame` returns. -/
theorem retain_frame_cases {r : Renderer} {p : ColorBufferPtr} {gl : HandleType → Bool}
    {rds : List Renderable} {res : RetainResult} (h : r.retain_frame p gl rds = some res) :
    (∃ st, retainLoop gl { renderer := r, nextPtr := p } rds = .failed st ∧
      res = { ok := false, renderer := rollback st.renderer st.created, renderables := rds,
              nextPtr := st.nextPtr }) ∨
    (∃ st, retainLoop gl { renderer := r, nextPtr := p } rds = .retained st ∧
      res = { ok := true, renderer := st.renderer,
              renderables := rds.map fun rd =>
                { rd with buffer := (st.snapshots.find? rd.buffer).getD 0 },
              nextPtr := st.nextPtr }) := by
  unfold retain_frame at h
  split at h
  · cases h
  · rename_i st hl
    exact Or.inl ⟨st, hl, (Option.some.inj h).symm⟩
  · rename_i st hl
    exact Or.inr ⟨st, hl, (Option.some.inj h).symm⟩

/-! ## What snapshots leave alone -/

/-- The contexts, the windows, their deferrals and the post. -/
structure SameTables (r r' : Renderer) : Prop where
  contexts : r'.m_contexts = r.m_contexts
  windows : r'.m_windows = r.m_windows
  deferredContexts : r'.m_deferredContexts = r.m_deferredContexts
  deferredWindows : r'.m_deferredWindows = r.m_deferredWindows
  posted : r'.m_lastPostedColorBuffer = r.m_lastPostedColorBuffer

theorem SameTables.refl (r : Renderer) : SameTables r r := ⟨rfl, rfl, rfl, rfl, rfl⟩

theorem SameTables.trans {r1 r2 r3 : Renderer} (h1 : SameTables r1 r2) (h2 : SameTables r2 r3) :
    SameTables r1 r3 :=
  ⟨h2.contexts.trans h1.contexts, h2.windows.trans h1.windows,
    h2.deferredContexts.trans h1.deferredContexts, h2.deferredWindows.trans h1.deferredWindows,
    h2.posted.trans h1.posted⟩

theorem sameTables_genHandle {r r' : Renderer} {id : HandleType} (h : r.genHandle = some (id, r')) :
    SameTables r r' := by
  obtain ⟨rfl, -⟩ := genHandle_spec h
  exact ⟨rfl, rfl, rfl, rfl, rfl⟩

theorem sameTables_addGenerated {r r' : Renderer} {id : HandleType} (ref : ColorBufferRef)
    (h : r.genHandle = some (id, r')) : SameTables r (r'.addColorBuffer id ref) := by
  obtain ⟨rfl, -⟩ := genHandle_spec h
  exact ⟨rfl, rfl, rfl, rfl, rfl⟩

theorem sameTables_rollback (r : Renderer) (created : List HandleType) :
    SameTables r (rollback r created) := by
  refine foldl_rel SameTables.refl (fun _ _ _ => SameTables.trans) (fun r h => ?_) created r
  unfold rollbackOne freeColorBuffer
  split
  · exact .refl r
  · exact ⟨rfl, rfl, rfl, rfl, rfl⟩

theorem sameTables_createColorBuffer {r r' : Renderer} {w ht : Int} {fmt : GLenum}
    {gl : Option ColorBufferPtr} {ret : HandleType} (h : r.createColorBuffer w ht fmt gl = some (ret, r')) :
    SameTables r r' := by
  rcases createColorBuffer_cases h with ⟨-, rfl⟩ | ⟨cb, r1, ref, -, hgen, rfl, -⟩
  · exact .refl _
  · exact sameTables_addGenerated ref hgen

theorem sameTables_retain_frame {r : Renderer} {p : ColorBufferPtr} {gl : HandleType → Bool}
    {rds : List Renderable} {res : RetainResult} (h : r.retain_frame p gl rds = some res) :
    SameTables r res.renderer := by
  have hloop : (retainLoop gl { renderer := r, nextPtr := p } rds).Sat
      fun st => SameTables r st.renderer :=
    retainLoop_rule (fun _ hst => hst)
      (fun st src sh source bytes r1 hst hc => hst.trans (sameTables_addGenerated _ hc.gen)) rds _ (.refl r)
  rcases retain_frame_cases h with ⟨st, hl, rfl⟩ | ⟨st, hl, rfl⟩
  · rw [hl] at hloop
    exact SameTables.trans hloop (sameTables_rollback st.renderer st.created)
  · rw [hl] at hloop
    exact hloop

theorem nextPtr_retain_frame {r : Renderer} {p : ColorBufferPtr} {gl : HandleType → Bool}
    {rds : List Renderable} {res : RetainResult} (h : r.retain_frame p gl rds = some res) :
    p ≤ res.nextPtr := by
  have hloop : (retainLoop gl { renderer := r, nextPtr := p } rds).Sat fun st => p ≤ st.nextPtr := by
    refine retainLoop_rule (fun st hst => ?_) (fun st src sh source bytes r1 hst hc => ?_) rds _
      (Nat.le_refl p)
    · exact Nat.le_succ_of_le hst
    · exact Nat.le_succ_of_le hst
  rcases retain_frame_cases h with ⟨st, hl, rfl⟩ | ⟨st, hl, rfl⟩
  · rw [hl] at hloop
    exact hloop
  · rw [hl] at hloop
    exact hloop

end AnboxReboxed.Emugl.Renderer
