import AnboxReboxed.Emugl.World
import AnboxReboxed.Emugl.Proofs.RetainFrameProofs

/-!
# Proofs: the colour-buffer budget

The byte counter is the sum over the live entries, every entry is referenced, and both limits hold.
Each table operation keeps this, provided a new entry goes under a handle that is not in use; before
the handle counter wraps that is always so.
-/

namespace AnboxReboxed.Emugl

open AnboxReboxed.Lib OrdMap Renderer

namespace Renderer

/-- The budget of the colour-buffer table. -/
structure Budget (r : Renderer) : Prop where
  bytes : r.m_colorBufferBytes = r.m_colorbuffers.sumBy ColorBufferRef.allocation_bytes
  referenced : ∀ h ref, r.m_colorbuffers.find? h = some ref →
    1 ≤ ref.refcount ∧ ref.refcount ≤ uint32Max
  count : r.m_colorbuffers.size ≤ max_color_buffers
  limit : r.m_colorBufferBytes ≤ max_color_buffer_bytes

variable {r r' : Renderer} {h : HandleType} {ref : ColorBufferRef}

/-- The budget only reads the colour-buffer table and its byte count. -/
theorem Budget.congr (hb : Budget r) (h1 : r'.m_colorbuffers = r.m_colorbuffers)
    (h2 : r'.m_colorBufferBytes = r.m_colorBufferBytes) : Budget r' :=
  ⟨by rw [h1, h2]; exact hb.bytes, by rw [h1]; exact hb.referenced, by rw [h1]; exact hb.count,
    by rw [h2]; exact hb.limit⟩

/-- An entry never holds more bytes than are accounted for, so subtracting them cannot wrap. -/
theorem Budget.entry_le (hb : Budget r) (hf : r.m_colorbuffers.find? h = some ref) :
    ref.allocation_bytes ≤ r.m_colorBufferBytes := by
  rw [hb.bytes]
  exact le_sumBy _ hf

theorem subSize_of_le {a b : Nat} (hle : b ≤ a) (ha : a < 2 ^ 64) : subSize a b = a - b := by
  unfold subSize
  have hb : b % 2 ^ 64 = b := Nat.mod_eq_of_lt (by omega)
  rw [hb, show a + (2 ^ 64 - b) = a - b + 2 ^ 64 by omega, Nat.add_mod_right]
  exact Nat.mod_eq_of_lt (by omega)

theorem budget_free (hb : Budget r) (hf : r.m_colorbuffers.find? h = some ref) :
    Budget (r.freeColorBuffer h ref) := by
  have hle := hb.entry_le hf
  have hlim := hb.limit
  have hsub : subSize r.m_colorBufferBytes ref.allocation_bytes =
      r.m_colorBufferBytes - ref.allocation_bytes :=
    subSize_of_le hle (by unfold max_color_buffer_bytes at hlim; omega)
  have hsum := sumBy_erase ColorBufferRef.allocation_bytes hf
  have hbytes := hb.bytes
  refine ⟨?_, fun k v hk => hb.referenced k v (find?_of_erase hk).2,
    le_trans (size_erase_le _ _) hb.count, ?_⟩
  · show subSize _ _ = _
    rw [hsub, hbytes, hsum]
    exact Nat.add_sub_cancel_left _ _
  · show subSize _ _ ≤ _
    omega

theorem budget_replace (hb : Budget r) (hf : r.m_colorbuffers.find? h = some ref) {n : Nat}
    (h1 : 1 ≤ n) (h2 : n ≤ uint32Max) :
    Budget { r with m_colorbuffers := r.m_colorbuffers.insert h { ref with refcount := n } } := by
  have hsum := sumBy_replace ColorBufferRef.allocation_bytes { ref with refcount := n } hf
  have hbytes := hb.bytes
  refine ⟨?_, fun k v hk => ?_, ?_, hb.limit⟩
  · show r.m_colorBufferBytes = _
    rw [hbytes]
    exact (Nat.add_right_cancel hsum).symm
  · have hk' : (r.m_colorbuffers.insert h { ref with refcount := n }).find? k = some v := hk
    by_cases hkh : k = h
    · subst hkh
      rw [find?_insert_self] at hk'
      rw [← Option.some.inj hk']
      exact ⟨h1, h2⟩
    · rw [find?_insert_ne _ _ hkh] at hk'
      exact hb.referenced k v hk'
  · show (r.m_colorbuffers.insert h _).size ≤ _
    rw [size_insert_of_find? hf]
    exact hb.count

theorem budget_drop (hb : Budget r) (h : HandleType) : Budget (r.dropReference h) := by
  unfold dropReference
  split
  · exact hb
  · rename_i ref hf
    have hr := hb.referenced h ref hf
    split_ifs with h1 h2
    · exact hb
    · exact budget_free hb hf
    · exact budget_replace hb hf (by omega) (by omega)

theorem budget_addReference (hb : Budget r)
    (hmax : ∀ ref, r.m_colorbuffers.find? h = some ref → ref.refcount ≠ uint32Max) :
    Budget (r.addReference h) := by
  unfold addReference
  split
  · exact hb
  · rename_i ref hf
    have hr := hb.referenced h ref hf
    have hne := hmax ref hf
    have hlt : ref.refcount + 1 < 2 ^ 32 := by unfold uint32Max at hr hne; omega
    refine budget_replace hb hf ?_ ?_
    · rw [Nat.mod_eq_of_lt hlt]; omega
    · rw [Nat.mod_eq_of_lt hlt]; unfold uint32Max; omega

theorem budget_add (hb : Budget r) (hfresh : h ∉ r.m_colorbuffers)
    (hcount : r.m_colorbuffers.size < max_color_buffers)
    (hbytes : ref.allocation_bytes ≤ max_color_buffer_bytes)
    (hroom : r.m_colorBufferBytes ≤ max_color_buffer_bytes - ref.allocation_bytes)
    (hone : ref.refcount = 1) : Budget (r.addColorBuffer h ref) := by
  have hadd : addSize r.m_colorBufferBytes ref.allocation_bytes =
      r.m_colorBufferBytes + ref.allocation_bytes := by
    unfold addSize
    apply Nat.mod_eq_of_lt
    unfold max_color_buffer_bytes at hbytes hroom
    omega
  refine ⟨?_, fun k v hk => ?_, ?_, ?_⟩
  · show addSize _ _ = (r.m_colorbuffers.insert h ref).sumBy _
    rw [hadd, sumBy_insert_of_not_mem _ hfresh, hb.bytes, Nat.add_comm]
  · have hk' : (r.m_colorbuffers.insert h ref).find? k = some v := hk
    by_cases hkh : k = h
    · subst hkh
      rw [find?_insert_self] at hk'
      rw [← Option.some.inj hk', hone]
      exact ⟨le_rfl, by decide⟩
    · rw [find?_insert_ne _ _ hkh] at hk'
      exact hb.referenced k v hk'
  · show (r.m_colorbuffers.insert h ref).size ≤ _
    rw [size_insert_of_not_mem hfresh]
    exact hcount
  · show addSize _ _ ≤ _
    omega

theorem budget_release (hb : Budget r) (h : HandleType) :
    Budget (r.releaseWindowSurfaceColorBufferLocked h) := by
  unfold releaseWindowSurfaceColorBufferLocked
  split_ifs
  · exact hb
  · exact budget_drop hb h

theorem budget_destroyWindow (hb : Budget r) (h : HandleType) :
    Budget (r.destroyDeferredWindowLocked h) := by
  unfold destroyDeferredWindowLocked
  split
  · exact hb
  · exact (budget_release hb _).congr rfl rfl

theorem budget_cleanup : CleanupInvariant Budget where
  tables _ _ _ _ hb := hb.congr rfl rfl
  destroy _ s hb := budget_destroyWindow hb s

theorem budget_setColorBuffer (hb : Budget r) (now : TimePoint) (s p : HandleType) :
    Budget (r.setWindowSurfaceColorBuffer now s p).2 := by
  obtain ⟨r1, hr1, hcases⟩ := setColorBuffer_cases r now s p
  have h1 : Budget r1 := by
    rw [hr1]
    exact (budget_cleanup.reap hb now).congr rfl rfl
  rcases hcases with he | ⟨w, -, -, hne, hmax, he⟩
  · rwa [he]
  · have h2 := budget_release h1 w.2
    rw [he]
    unfold reattach
    dsimp only
    split_ifs with hp
    · -- the old attachment differs from the new one, so the release leaves the new entry alone
      refine (budget_addReference h2 fun ref hf => hmax ref hp ?_).congr rfl rfl
      rwa [find?_release_ne r1 (Ne.symm hne)] at hf
    · exact h2.congr rfl rfl

theorem budget_retainPosted (hb : Budget r) (now : TimePoint) (p : HandleType) :
    Budget (r.retainPostedColorBuffer now p).2 := by
  obtain ⟨r1, hr1, hcases⟩ := retainPosted_cases r now p
  have h1 : Budget r1 := by
    rw [hr1]
    exact budget_cleanup.reap hb now
  rcases hcases with he | ⟨-, -, hmax, he⟩
  · rwa [he]
  · have h2 : Budget { r1.addReference p with m_lastPostedColorBuffer := p } :=
      (budget_addReference h1 hmax).congr rfl rfl
    rw [he]
    exact budget_release h2 _

theorem budget_open (hb : Budget r) (h : HandleType) : Budget (r.openColorBuffer h).2 := by
  unfold openColorBuffer
  split
  · exact hb
  · rename_i ref hf
    split_ifs with h1
    · exact hb
    · refine budget_addReference hb fun ref' hf' => ?_
      rw [hf] at hf'
      rw [← Option.some.inj hf']
      exact h1

theorem budget_release_frame (hb : Budget r) (rds : List Renderable) : Budget (r.release_frame rds) :=
  release_frame_rel (R := fun r r' => Budget r → Budget r') (fun _ => id)
    (fun _ _ _ h1 h2 hb => h2 (h1 hb)) (fun _ h hb => budget_drop hb h) r rds hb

theorem budget_rollback (hb : Budget r) (created : List HandleType) : Budget (rollback r created) := by
  refine foldl_inv (fun r h hr => ?_) _ hb
  unfold rollbackOne
  split
  · exact hr
  · rename_i entry hf
    exact budget_free hr hf

/-! ## Operations that generate handles -/

/-- As long as the counter has not wrapped, the tables are numbered upwards and within budget. -/
def GoodUntilWrap (r : Renderer) : Prop := r.handlesGenerated < 2 ^ 32 → Unwrapped r ∧ Budget r

theorem GoodUntilWrap.quiet (hg : GoodUntilWrap r) (hs : Shrinks r r') (hb : Budget r → Budget r') :
    GoodUntilWrap r' := by
  intro hlt
  rw [hs.generated] at hlt
  exact ⟨hs.unwrapped (hg hlt).1, hb (hg hlt).2⟩

/-- The tables around a call of `genHandle` before the wrap: the handle is above every key. -/
theorem GoodUntilWrap.gen {id : Nat} (hg : GoodUntilWrap r) (h : r.genHandle = some (id, r'))
    (hlt : r'.handlesGenerated < 2 ^ 32) :
    id = r.handlesGenerated + 1 ∧ Unwrapped r ∧ Budget r ∧
      r' = { r with s_nextHandle := id, handlesGenerated := r.handlesGenerated + 1 } := by
  obtain ⟨hr', -⟩ := genHandle_spec h
  have hlt' : r.handlesGenerated + 1 < 2 ^ 32 := by rw [hr'] at hlt; exact hlt
  obtain ⟨hu, hb⟩ := hg (by omega)
  exact ⟨hu.genHandle hlt' h, hu, hb, hr'⟩

/-- A new colour buffer under a generated handle. -/
theorem good_addColorBuffer {id : Nat} (hg : GoodUntilWrap r) (h : r.genHandle = some (id, r'))
    (hcount : r.m_colorbuffers.size < max_color_buffers)
    (hbytes : ref.allocation_bytes ≤ max_color_buffer_bytes)
    (hroom : r.m_colorBufferBytes ≤ max_color_buffer_bytes - ref.allocation_bytes)
    (hone : ref.refcount = 1) : GoodUntilWrap (r'.addColorBuffer id ref) := by
  intro hlt
  obtain ⟨hid, hu, hb, hr'⟩ := hg.gen h hlt
  subst hr'
  have hfresh : id ∉ r.m_colorbuffers := by
    intro hm
    have := hu.buffers id hm
    omega
  refine ⟨⟨hid, fun k hk => ?_, fun k hk => ?_, fun k hk => ?_⟩,
    budget_add (r := { r with s_nextHandle := id, handlesGenerated := r.handlesGenerated + 1 })
      (hb.congr rfl rfl) hfresh hcount hbytes hroom hone⟩
  · exact Nat.le_succ_of_le (hu.contexts k hk)
  · exact Nat.le_succ_of_le (hu.windows k hk)
  · show k ≤ r.handlesGenerated + 1
    rcases mem_insert.mp hk with rfl | hk
    · exact le_of_eq hid
    · exact Nat.le_succ_of_le (hu.buffers k hk)

theorem good_createColorBuffer {w ht : Int} {fmt : GLenum} {gl : Option ColorBufferPtr} {ret : HandleType}
    (hg : GoodUntilWrap r) (h : r.createColorBuffer w ht fmt gl = some (ret, r')) :
    GoodUntilWrap r' := by
  rcases createColorBuffer_cases h with ⟨-, rfl⟩ | ⟨cb, r1, ref, -, hgen, rfl, -, hone, h1, h2, h3⟩
  · exact hg
  · exact good_addColorBuffer hg hgen h1 h2 h3 hone

theorem good_createRenderContext {tinfo tinfo' : RenderThreadInfo} {cfg : Int} {share ret : HandleType}
    {gl : Option RenderContextPtr} (hg : GoodUntilWrap r)
    (h : r.createRenderContext tinfo cfg share gl = some (ret, r', tinfo')) : GoodUntilWrap r' := by
  rcases createRenderContext_cases h with ⟨-, rfl, -⟩ | ⟨rctx, r1, -, hgen, rfl, -⟩
  · exact hg
  · intro hlt
    obtain ⟨hid, hu, hb, rfl⟩ := hg.gen hgen hlt
    refine ⟨⟨hid, fun k hk => ?_, fun k hk => ?_, fun k hk => ?_⟩, hb.congr rfl rfl⟩
    · show k ≤ r.handlesGenerated + 1
      rcases mem_insert.mp hk with rfl | hk
      · exact le_of_eq hid
      · exact Nat.le_succ_of_le (hu.contexts k hk)
    · exact Nat.le_succ_of_le (hu.windows k hk)
    · exact Nat.le_succ_of_le (hu.buffers k hk)

theorem good_createWindowSurface {tinfo tinfo' : RenderThreadInfo} {cfg : Int} {ret : HandleType}
    {gl : Option WindowSurfacePtr} (hg : GoodUntilWrap r)
    (h : r.createWindowSurface tinfo cfg gl = some (ret, r', tinfo')) : GoodUntilWrap r' := by
  rcases createWindowSurface_cases h with ⟨-, rfl, -⟩ | ⟨win, r1, -, hgen, rfl, -⟩
  · exact hg
  · intro hlt
    obtain ⟨hid, hu, hb, rfl⟩ := hg.gen hgen hlt
    refine ⟨⟨hid, fun k hk => ?_, fun k hk => ?_, fun k hk => ?_⟩, hb.congr rfl rfl⟩
    · exact Nat.le_succ_of_le (hu.contexts k hk)
    · show k ≤ r.handlesGenerated + 1
      rcases mem_insert.mp hk with rfl | hk
      · exact le_of_eq hid
      · exact Nat.le_succ_of_le (hu.windows k hk)
    · exact Nat.le_succ_of_le (hu.buffers k hk)

theorem good_retain_frame {p : ColorBufferPtr} {gl : HandleType → Bool} {rds : List Renderable}
    {res : RetainResult} (hg : GoodUntilWrap r) (h : r.retain_frame p gl rds = some res) :
    GoodUntilWrap res.renderer := by
  have hloop : (retainLoop gl { renderer := r, nextPtr := p } rds).Sat
      fun st => GoodUntilWrap st.renderer := by
    refine retainLoop_rule (fun _ hst => hst) (fun st src sh source bytes r1 hst hc => ?_) rds _ hg
    obtain ⟨-, -, h1, h2, h3⟩ := retainCheck_admitted hc.check
    exact good_addColorBuffer hst hc.gen h1 h2 h3 rfl
  rcases retain_frame_cases h with ⟨st, hl, rfl⟩ | ⟨st, hl, rfl⟩
  · rw [hl] at hloop
    exact GoodUntilWrap.quiet hloop (shrinks_rollback _ _) (fun hb => budget_rollback hb _)
  · rw [hl] at hloop
    exact hloop

end Renderer

/-! ## Steps and runs -/

/-- Every operation keeps the tables good. -/
theorem good_step {w w' : World} {op : Op} {rep : Reply} (hg : GoodUntilWrap w.renderer)
    (h : w.step op = some (w', rep)) : GoodUntilWrap w'.renderer := by
  cases op with
  | tick elapsed => cases h; exact hg
  | startThread t =>
    simp only [World.step] at h
    split_ifs at h
    cases h; exact hg
  | createColorBuffer pw ph fmt gl =>
    obtain ⟨⟨ret, r1⟩, hc, he⟩ := Option.map_eq_some_iff.mp h
    cases he
    exact good_createColorBuffer hg hc
  | openColorBuffer k => cases h; exact hg.quiet (shrinks_openColorBuffer _ k) (fun hb => budget_open hb k)
  | closeColorBuffer k => cases h; exact hg.quiet (shrinks_drop _ k) (fun hb => budget_drop hb k)
  | createRenderContext t cfg share gl =>
    obtain ⟨tinfo, -, h⟩ := World.onThread_some h
    obtain ⟨⟨ret, r1, tinfo1⟩, hc, he⟩ := Option.map_eq_some_iff.mp h
    cases he
    exact good_createRenderContext hg hc
  | createWindowSurface t cfg gl =>
    obtain ⟨tinfo, -, h⟩ := World.onThread_some h
    obtain ⟨⟨ret, r1, tinfo1⟩, hc, he⟩ := Option.map_eq_some_iff.mp h
    cases he
    exact good_createWindowSurface hg hc
  | drainRenderContext t =>
    obtain ⟨tinfo, -, h⟩ := World.onThread_some h
    cases h
    exact hg.quiet (shrinks_drainContexts _ tinfo) (fun hb => budget_cleanup.drainContexts hb tinfo)
  | drainWindowSurface t =>
    obtain ⟨tinfo, -, h⟩ := World.onThread_some h
    cases h
    exact hg.quiet (shrinks_drainWindows _ tinfo) (fun hb => budget_cleanup.drainWindows hb tinfo)
  | DestroyRenderContext t c =>
    obtain ⟨tinfo, -, h⟩ := World.onThread_some h
    cases h
    exact hg.quiet (shrinks_destroyContext _ tinfo w.now c)
      (fun hb => budget_cleanup.destroyContext hb tinfo w.now c)
  | DestroyWindowSurface t s =>
    obtain ⟨tinfo, -, h⟩ := World.onThread_some h
    cases h
    exact hg.quiet (shrinks_destroySurface _ tinfo w.now s)
      (fun hb => budget_cleanup.destroySurface hb tinfo w.now s)
  | bindContext t c d rd gl =>
    obtain ⟨tinfo, -, h⟩ := World.onThread_some h
    cases h
    exact hg.quiet (shrinks_bindContext _ tinfo w.now c d rd gl)
      (fun hb => budget_cleanup.bindContext hb tinfo w.now c d rd gl)
  | setWindowSurfaceColorBuffer s cb =>
    cases h
    exact hg.quiet (shrinks_setColorBuffer _ w.now s cb) (fun hb => budget_setColorBuffer hb w.now s cb)
  | retainPostedColorBuffer k =>
    cases h
    exact hg.quiet (shrinks_retainPosted _ w.now k) (fun hb => budget_retainPosted hb w.now k)
  | retain_frame rds gl =>
    obtain ⟨res, hc, he⟩ := Option.map_eq_some_iff.mp h
    cases he
    exact good_retain_frame hg hc
  | release_frame rds =>
    cases h
    exact hg.quiet (shrinks_release_frame _ rds) (fun hb => budget_release_frame hb rds)
  | exitThread t elapsed =>
    obtain ⟨tinfo, -, h⟩ := World.onThread_some h
    cases h
    exact hg.quiet (shrinks_deferThread _ tinfo w.now (w.now + elapsed))
      (fun hb => budget_cleanup.deferThread hb tinfo w.now (w.now + elapsed))

theorem good_init (configs : Nat) : GoodUntilWrap (renderMachine configs).init.renderer :=
  fun _ => ⟨⟨rfl, fun _ h => absurd h (not_mem_empty _), fun _ h => absurd h (not_mem_empty _),
      fun _ h => absurd h (not_mem_empty _)⟩,
    ⟨rfl, fun _ _ h => by simp [renderMachine] at h, Nat.zero_le _, Nat.zero_le _⟩⟩

/-- The tables of every reachable renderer are good. -/
theorem good_reachable {configs : Nat} {w : World} (h : (renderMachine configs).Reachable w) :
    GoodUntilWrap w.renderer := by
  refine h.invariant (P := fun w => GoodUntilWrap w.renderer) (good_init configs)
    fun s i s' hs hstep => ?_
  obtain ⟨⟨w', rep⟩, hw, rfl⟩ := Option.map_eq_some_iff.mp hstep
  exact good_step hs hw

/-- **The colour-buffer budget.** In every state a fresh renderer can reach while fewer than `2 ^ 32`
handles are generated, the byte counter is the sum of the live allocations, every entry is
referenced, at most 128 entries exist, at most 2048 MiB are accounted for, and no live entry holds
more bytes than the counter, so that freeing it does not wrap the counter. -/
theorem colorBuffer_budget {configs : Nat} {w : World} (h : (renderMachine configs).Reachable w)
    (hgen : w.renderer.handlesGenerated < 2 ^ 32) :
    w.renderer.m_colorBufferBytes =
        w.renderer.m_colorbuffers.sumBy ColorBufferRef.allocation_bytes ∧
      (∀ k ref, w.renderer.m_colorbuffers.find? k = some ref →
        1 ≤ ref.refcount ∧ ref.allocation_bytes ≤ w.renderer.m_colorBufferBytes) ∧
      w.renderer.m_colorbuffers.size ≤ 128 ∧
      w.renderer.m_colorBufferBytes ≤ 2048 * 1024 * 1024 := by
  obtain ⟨-, hb⟩ := good_reachable h hgen
  exact ⟨hb.bytes, fun k ref hf => ⟨(hb.referenced k ref hf).1, hb.entry_le hf⟩, hb.count, hb.limit⟩

/-- A renderer with one `4 × 4` buffer and a snapshot of it, the buffer closed by the guest. -/
def budgetExample : List Op :=
  [.startThread 1, .createColorBuffer 4 4 GL_RGBA true,
    .retain_frame [⟨"layer", 1, default, default⟩] (fun _ => true), .closeColorBuffer 1]

theorem colorBuffer_budget_example : ∃ w, (renderMachine 1).exec (renderMachine 1).init budgetExample =
    some w ∧ w.renderer.m_colorBufferBytes = 128 ∧
      w.renderer.m_colorBufferBytes =
        w.renderer.m_colorbuffers.sumBy ColorBufferRef.allocation_bytes := by
  have hw : ∃ w, (renderMachine 1).exec (renderMachine 1).init budgetExample = some w ∧
      w.renderer.handlesGenerated < 2 ^ 32 ∧ w.renderer.m_colorBufferBytes = 128 :=
    ⟨_, rfl, by decide, by decide⟩
  obtain ⟨w, he, hgen, hbytes⟩ := hw
  exact ⟨w, he, hbytes, (colorBuffer_budget ⟨_, he⟩ hgen).1⟩

end AnboxReboxed.Emugl
