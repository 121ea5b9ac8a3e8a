import AnboxReboxed.Emugl.Proofs.FreshnessProofs
import AnboxReboxed.Emugl.World

/-!
# Proofs: snapshots and the guest do not meet

The guest reaches a colour buffer only under a handle it was given, directly or through a window or
the post. `retain_frame` puts its copies under handles that are fresh, or leaves the table as it was,
and `release_frame` takes out exactly the copies it is given.
-/

namespace AnboxReboxed.Emugl

open AnboxReboxed.Lib OrdMap

namespace Renderer

/-! ## What the guest can reach -/

/-- Of the table `table` only the entries under issued handles have changed; every object was there
under the same handle or is new, made between the addresses `first` and `next`. Windows and the post
hold issued handles. -/
structure Spares (issued : HandleType → Prop) (table : HandleType → Option ColorBufferRef)
    (first next : ColorBufferPtr) (r : Renderer) : Prop where
  zero : ¬ issued 0
  attached : ∀ s w, r.m_windows.find? s = some w → w.2 = 0 ∨ issued w.2
  posted : r.m_lastPostedColorBuffer = 0 ∨ issued r.m_lastPostedColorBuffer
  same : ∀ h, ¬ issued h → r.m_colorbuffers.find? h = table h
  objects : ∀ h ref, r.m_colorbuffers.find? h = some ref →
    (∃ ref0, table h = some ref0 ∧ ref0.cb = ref.cb) ∨ first ≤ ref.cb
  bounded : ∀ h ref, r.m_colorbuffers.find? h = some ref → ref.cb < next

section

variable {issued : HandleType → Prop} {table : HandleType → Option ColorBufferRef}
  {first next : ColorBufferPtr} {r r' : Renderer}

theorem Spares.congr (hs : Spares issued table first next r) (h1 : r'.m_colorbuffers = r.m_colorbuffers)
    (h2 : r'.m_windows = r.m_windows)
    (h3 : r'.m_lastPostedColorBuffer = r.m_lastPostedColorBuffer) :
    Spares issued table first next r' :=
  ⟨hs.zero, by rw [h2]; exact hs.attached, by rw [h3]; exact hs.posted, by rw [h1]; exact hs.same,
    by rw [h1]; exact hs.objects, by rw [h1]; exact hs.bounded⟩

theorem Spares.mono (hs : Spares issued table first next r) {next' : ColorBufferPtr}
    (h : next ≤ next') : Spares issued table first next' r :=
  { hs with bounded := fun k ref hf => Nat.lt_of_lt_of_le (hs.bounded k ref hf) h }

/-- A change of the table under issued handles that makes no new objects. -/
theorem Spares.buffers (hs : Spares issued table first next r)
    (hwin : r'.m_windows = r.m_windows)
    (hpost : r'.m_lastPostedColorBuffer = r.m_lastPostedColorBuffer)
    (hsame : ∀ h, ¬ issued h → r'.m_colorbuffers.find? h = r.m_colorbuffers.find? h)
    (hobj : ∀ h ref', r'.m_colorbuffers.find? h = some ref' →
      ∃ ref, r.m_colorbuffers.find? h = some ref ∧ ref.cb = ref'.cb) :
    Spares issued table first next r' := by
  refine ⟨hs.zero, by rw [hwin]; exact hs.attached, by rw [hpost]; exact hs.posted,
    fun h hi => (hsame h hi).trans (hs.same h hi), fun h ref' hf => ?_, fun h ref' hf => ?_⟩
  · obtain ⟨ref, hr, hcb⟩ := hobj h ref' hf
    exact hcb ▸ hs.objects h ref hr
  · obtain ⟨ref, hr, hcb⟩ := hobj h ref' hf
    exact hcb ▸ hs.bounded h ref hr

/-- Dropping a reference keeps the objects that stay. -/
theorem object_dropReference {a h : HandleType} {ref' : ColorBufferRef}
    (hf : (r.dropReference a).m_colorbuffers.find? h = some ref') :
    ∃ ref, r.m_colorbuffers.find? h = some ref ∧ ref.cb = ref'.cb := by
  by_cases hh : h = a
  · subst hh
    unfold dropReference freeColorBuffer at hf
    cases hr : r.m_colorbuffers.find? h with
    | none =>
      simp only [hr] at hf
      cases hf
    | some ref =>
      simp only [hr] at hf
      split_ifs at hf
      · exact ⟨ref, rfl, congrArg _ (Option.some.inj (hr.symm.trans hf))⟩
      · simp at hf
      · simp only [find?_insert_self, Option.some.injEq] at hf
        exact ⟨ref, rfl, by rw [← hf]⟩
  · rw [find?_dropReference_ne r hh] at hf
    exact ⟨ref', hf, rfl⟩

theorem object_addReference {a h : HandleType} {ref' : ColorBufferRef}
    (hf : (r.addReference a).m_colorbuffers.find? h = some ref') :
    ∃ ref, r.m_colorbuffers.find? h = some ref ∧ ref.cb = ref'.cb := by
  by_cases hh : h = a
  · subst hh
    unfold addReference at hf
    cases hr : r.m_colorbuffers.find? h with
    | none =>
      simp only [hr] at hf
      cases hf
    | some ref =>
      simp only [hr, find?_insert_self, Option.some.injEq] at hf
      exact ⟨ref, rfl, by rw [← hf]⟩
  · rw [find?_addReference_ne r hh] at hf
    exact ⟨ref', hf, rfl⟩

theorem Spares.drop (hs : Spares issued table first next r) {a : HandleType} (ha : issued a) :
    Spares issued table first next (r.dropReference a) :=
  hs.buffers (sameButBuffers_drop r a).windows (sameButBuffers_drop r a).posted
    (fun _ hi => find?_dropReference_ne r fun he => hi (he ▸ ha)) fun _ _ => object_dropReference

theorem Spares.add (hs : Spares issued table first next r) {a : HandleType} (ha : issued a) :
    Spares issued table first next (r.addReference a) :=
  hs.buffers (sameButBuffers_addReference r a).windows (sameButBuffers_addReference r a).posted
    (fun _ hi => find?_addReference_ne r fun he => hi (he ▸ ha)) fun _ _ => object_addReference

theorem Spares.release (hs : Spares issued table first next r) {a : HandleType} (ha : a = 0 ∨ issued a) :
    Spares issued table first next (r.releaseWindowSurfaceColorBufferLocked a) := by
  unfold releaseWindowSurfaceColorBufferLocked
  split_ifs with h0
  · exact hs
  · exact hs.drop (ha.resolve_left h0)

theorem spares_cleanup : CleanupInvariant (Spares issued table first next) where
  tables _ _ _ _ hs := hs.congr rfl rfl rfl
  destroy r s hs := by
    unfold destroyDeferredWindowLocked
    split
    · exact hs
    · rename_i w hw
      have hrel := hs.release (hs.attached s w hw)
      refine ⟨hs.zero, fun s' w' hw' => ?_, hrel.posted, hrel.same, hrel.objects, hrel.bounded⟩
      exact hrel.attached s' w' (find?_of_erase hw').2

theorem spares_open (hs : Spares issued table first next r) {a : HandleType} (ha : issued a) :
    Spares issued table first next (r.openColorBuffer a).2 := by
  unfold openColorBuffer
  split
  · exact hs
  · split_ifs
    · exact hs
    · exact hs.add ha

theorem spares_setColorBuffer (hs : Spares issued table first next r) (now : TimePoint)
    {s p : HandleType} (hp : p = 0 ∨ issued p) :
    Spares issued table first next (r.setWindowSurfaceColorBuffer now s p).2 := by
  obtain ⟨r1, hr1, hcases⟩ := setColorBuffer_cases r now s p
  have hs1 : Spares issued table first next r1 := by
    rw [hr1]
    exact (spares_cleanup.reap hs now).congr rfl rfl rfl
  rcases hcases with he | ⟨w, hw, -, -, -, he⟩
  · rwa [he]
  · rw [he]
    have hrel := hs1.release (hs1.attached s w hw)
    have hadd : Spares issued table first next
        (if p ≠ 0 then (r1.releaseWindowSurfaceColorBufferLocked w.2).addReference p
          else r1.releaseWindowSurfaceColorBufferLocked w.2) := by
      split_ifs with h0
      · exact hrel.add (hp.resolve_left h0)
      · exact hrel
    refine ⟨hs.zero, fun s' w' hw' => ?_, hadd.posted, hadd.same, hadd.objects, hadd.bounded⟩
    have hw'' : (r1.m_windows.insert s (w.1, p)).find? s' = some w' := hw'
    rw [find?_insert] at hw''
    split_ifs at hw''
    · rw [← Option.some.inj hw'']
      exact hp
    · exact hs1.attached s' w' hw''

theorem spares_retainPosted (hs : Spares issued table first next r) (now : TimePoint)
    {p : HandleType} (hp : issued p) :
    Spares issued table first next (r.retainPostedColorBuffer now p).2 := by
  obtain ⟨r1, hr1, hcases⟩ := retainPosted_cases r now p
  have hs1 : Spares issued table first next r1 := by
    rw [hr1]
    exact spares_cleanup.reap hs now
  rcases hcases with he | ⟨-, -, -, he⟩
  · rwa [he]
  · rw [he]
    have hadd := hs1.add hp
    have hnew : Spares issued table first next
        { r1.addReference p with m_lastPostedColorBuffer := p } :=
      ⟨hs.zero, hadd.attached, Or.inr hp, hadd.same, hadd.objects, hadd.bounded⟩
    exact hnew.release hs1.posted

/-- A new window has nothing attached. -/
theorem spares_newWindow {id : HandleType} {win : WindowSurfacePtr}
    (hs : Spares issued table first next r) (h1 : r'.m_colorbuffers = r.m_colorbuffers)
    (h2 : r'.m_windows = r.m_windows.insert id (win, 0))
    (h3 : r'.m_lastPostedColorBuffer = r.m_lastPostedColorBuffer) :
    Spares issued table first next r' := by
  refine ⟨hs.zero, fun s w hw => ?_, by rw [h3]; exact hs.posted, by rw [h1]; exact hs.same,
    by rw [h1]; exact hs.objects, by rw [h1]; exact hs.bounded⟩
  rw [h2, find?_insert] at hw
  split_ifs at hw
  · rw [← Option.some.inj hw]
    exact Or.inl rfl
  · exact hs.attached s w hw

/-- A new colour buffer of the guest. -/
theorem spares_create {issued' : HandleType → Prop} {a id : HandleType} {n : Nat} {ref : ColorBufferRef}
    (hs : Spares issued table first next r) (h0 : ¬ issued' 0) (hid : issued' id)
    (hmono : ∀ h, issued h → issued' h) (hcb : ref.cb = next) (hfirst : first ≤ next) :
    Spares issued' table first (next + 1)
      (Renderer.addColorBuffer { r with s_nextHandle := a, handlesGenerated := n } id ref) := by
  have hfind : ∀ h, (r.m_colorbuffers.insert id ref).find? h =
      if h = id then some ref else r.m_colorbuffers.find? h := fun h => find?_insert _ _ _ _
  refine ⟨h0, fun s w hw => (hs.attached s w hw).imp_right (hmono _), hs.posted.imp_right (hmono _),
    fun h hi => ?_, fun h ref' hf => ?_, fun h ref' hf => ?_⟩
  · show (r.m_colorbuffers.insert id ref).find? h = _
    rw [hfind, if_neg (fun he : h = id => hi (he ▸ hid))]
    exact hs.same h fun hi' => hi (hmono h hi')
  · have hf' : (r.m_colorbuffers.insert id ref).find? h = some ref' := hf
    rw [hfind] at hf'
    split_ifs at hf'
    · rw [← Option.some.inj hf', hcb]
      exact Or.inr hfirst
    · exact hs.objects h ref' hf'
  · have hf' : (r.m_colorbuffers.insert id ref).find? h = some ref' := hf
    rw [hfind] at hf'
    split_ifs at hf'
    · rw [← Option.some.inj hf', hcb]
      exact Nat.lt_succ_self _
    · exact Nat.lt_succ_of_lt (hs.bounded h ref' hf')

end

end Renderer

open Renderer

/-- A guest operation changes only entries under handles the guest was given. -/
theorem Ledger.spares_step {l : Ledger} {op : Op} {w : World} {rep : Reply}
    (hs : Spares (· ∈ l.issued) l.world.renderer.m_colorbuffers.find? l.world.nextPtr l.world.nextPtr
      l.world.renderer)
    (hp : l.permits op = true) (hr : ∀ rds gl, op ≠ .retain_frame rds gl)
    (hr' : ∀ rds, op ≠ .release_frame rds) (h : l.world.step op = some (w, rep)) :
    Spares (· ∈ (l.record op w rep).issued) l.world.renderer.m_colorbuffers.find? l.world.nextPtr
      w.nextPtr w.renderer := by
  cases op with
  | tick elapsed =>
    cases h
    exact hs
  | startThread t =>
    simp only [World.step] at h
    split_ifs at h
    cases h
    exact hs
  | createColorBuffer pw ph fmt gl =>
    obtain ⟨⟨ret, r1⟩, hc, he⟩ := Option.map_eq_some_iff.mp h
    cases he
    rcases createColorBuffer_cases hc with ⟨rfl, rfl⟩ | ⟨cb, r1, ref, hgl, hgen, rfl, hcb, -⟩
    · exact hs.mono (Nat.le_succ _)
    · obtain ⟨rfl, -⟩ := genHandle_spec hgen
      have hret : ret ≠ 0 := Nat.pos_iff_ne_zero.mp (genHandle_pos hgen).1
      have hcb' : ref.cb = l.world.nextPtr := by
        split_ifs at hgl
        exact hcb.trans (Option.some.inj hgl).symm
      simp only [record, if_neg hret]
      refine spares_create hs (fun h0 => ?_) (mem_insert.mpr (Or.inl rfl))
        (fun k hk => mem_insert.mpr (Or.inr hk)) hcb' (Nat.le_refl _)
      rcases mem_insert.mp h0 with h0 | h0
      · exact hret h0.symm
      · exact hs.zero h0
  | retain_frame rds gl => exact absurd rfl (hr rds gl)
  | release_frame rds => exact absurd rfl (hr' rds)
  | openColorBuffer k =>
    have hw : w.renderer = (l.world.renderer.openColorBuffer k).2 ∧ w.nextPtr = l.world.nextPtr ∧
        (l.record (.openColorBuffer k) w rep).issued = l.issued := by
      cases h
      exact ⟨rfl, rfl, rfl⟩
    rw [hw.1, hw.2.1, hw.2.2]
    exact spares_open hs (of_decide_eq_true hp)
  | closeColorBuffer k =>
    cases h
    exact hs.drop (of_decide_eq_true hp)
  | createRenderContext t cfg share gl =>
    obtain ⟨tinfo, -, h⟩ := World.onThread_some h
    obtain ⟨⟨ret, r1, tinfo1⟩, hc, he⟩ := Option.map_eq_some_iff.mp h
    cases he
    rcases createRenderContext_cases hc with ⟨-, rfl, -⟩ | ⟨rctx, r1, -, hgen, rfl, -⟩
    · exact hs.mono (Nat.le_succ _)
    · obtain ⟨rfl, -⟩ := genHandle_spec hgen
      exact (hs.mono (Nat.le_succ _)).congr rfl rfl rfl
  | createWindowSurface t cfg gl =>
    obtain ⟨tinfo, -, h⟩ := World.onThread_some h
    obtain ⟨⟨ret, r1, tinfo1⟩, hc, he⟩ := Option.map_eq_some_iff.mp h
    cases he
    rcases createWindowSurface_cases hc with ⟨-, rfl, -⟩ | ⟨win, r1, -, hgen, rfl, -⟩
    · exact hs.mono (Nat.le_succ _)
    · obtain ⟨rfl, -⟩ := genHandle_spec hgen
      exact spares_newWindow (hs.mono (Nat.le_succ _)) rfl rfl rfl
  | drainRenderContext t =>
    obtain ⟨tinfo, -, h⟩ := World.onThread_some h
    cases h
    exact spares_cleanup.drainContexts hs tinfo
  | drainWindowSurface t =>
    obtain ⟨tinfo, -, h⟩ := World.onThread_some h
    cases h
    exact spares_cleanup.drainWindows hs tinfo
  | DestroyRenderContext t c =>
    obtain ⟨tinfo, -, h⟩ := World.onThread_some h
    cases h
    exact spares_cleanup.destroyContext hs tinfo _ c
  | DestroyWindowSurface t s =>
    obtain ⟨tinfo, -, h⟩ := World.onThread_some h
    cases h
    exact spares_cleanup.destroySurface hs tinfo _ s
  | bindContext t c d rd gl =>
    obtain ⟨tinfo, -, h⟩ := World.onThread_some h
    cases h
    exact spares_cleanup.bindContext hs tinfo _ c d rd gl
  | setWindowSurfaceColorBuffer s cb =>
    cases h
    exact spares_setColorBuffer hs _ (of_decide_eq_true hp)
  | retainPostedColorBuffer k =>
    cases h
    exact spares_retainPosted hs _ (of_decide_eq_true hp)
  | exitThread t elapsed =>
    obtain ⟨tinfo, -, h⟩ := World.onThread_some h
    cases h
    exact spares_cleanup.deferThread hs tinfo _ _

/-! ## What `retain_frame` creates -/

/-- The table during `retain_frame`: the old one and, under fresh handles, one copy for each source
met so far. -/
structure Copies (issued : HandleType → Prop) (w : World) (renderables : List Renderable)
    (st : RetainState) : Prop where
  old : ∀ h, h ∉ st.created →
    st.renderer.m_colorbuffers.find? h = w.renderer.m_colorbuffers.find? h
  new : ∀ h ∈ st.created, w.renderer.m_colorbuffers.find? h = none ∧ ¬ issued h ∧
    ∃ ref, st.renderer.m_colorbuffers.find? h = some ref ∧ ref.refcount = 1 ∧
      w.nextPtr ≤ ref.cb ∧ ref.cb < st.nextPtr
  sources : ∀ k v, st.snapshots.find? k = some v →
    v ∈ st.created ∧ ∃ renderable ∈ renderables, renderable.buffer = k
  named : ∀ v ∈ st.created, ∃ k, st.snapshots.find? k = some v

/-- No copy goes under the handle of a colour buffer, or under one the guest was given. -/
def World.CopiesFresh (w : World) (issued : HandleType → Prop) (renderables : List Renderable)
    (gl : HandleType → Bool) : Prop :=
  ∀ r h, Generates w (.retain_frame renderables gl) r h → r.BuffersBehind ∧ r.Behind issued

section Retain

variable {issued : HandleType → Prop} {w : World} {renderables : List Renderable}
  {gl : HandleType → Bool} {st st' : RetainState}

theorem Copies.commit {rd : Renderable} {sh : HandleType} {source : ColorBufferRef} {bytes : Nat}
    {r : Renderer} (h : Copies issued w renderables st) (hc : Commits st rd.buffer sh source bytes r)
    (hrd : rd ∈ renderables) (hptr : w.nextPtr ≤ st.nextPtr)
    (hfree : sh ∉ st.renderer.m_colorbuffers) (hsh : ¬ issued sh) :
    Copies issued w renderables (retainCommit st r rd.buffer sh source bytes st.nextPtr) := by
  obtain ⟨rfl, -⟩ := genHandle_spec hc.gen
  have hknown : rd.buffer ∉ st.snapshots := (retainCheck_admitted hc.check).1
  have hnew : sh ∉ st.created := fun hm => by
    obtain ⟨-, -, ref, hf, -⟩ := h.new sh hm
    exact hfree (mem_of_find? hf)
  have hsnap : ∀ k, (st.snapshots.insert rd.buffer sh).find? k =
      if k = rd.buffer then some sh else st.snapshots.find? k := fun k => find?_insert _ _ _ _
  refine ⟨fun k hk => ?_, fun k hk => ?_, fun k v hv => ?_, fun v hv => ?_⟩
  · have hk' : k ∉ st.created ∧ k ≠ sh := by simpa [retainCommit, not_or] using hk
    exact (find?_insert_ne _ _ hk'.2).trans (h.old k hk'.1)
  · rcases List.mem_append.mp hk with hk | hk
    · obtain ⟨h1, h2, ref, hf, h3, h4, h5⟩ := h.new k hk
      have hne : k ≠ sh := fun he => hnew (he ▸ hk)
      exact ⟨h1, h2, ref, (find?_insert_ne _ _ hne).trans hf, h3, h4, Nat.lt_succ_of_lt h5⟩
    · rw [List.mem_singleton.mp hk]
      refine ⟨?_, hsh, _, find?_insert_self _ _ _, rfl, hptr, Nat.lt_succ_self _⟩
      rw [← h.old sh hnew]
      exact not_mem_iff.mp hfree
  · have hv' : (st.snapshots.insert rd.buffer sh).find? k = some v := hv
    rw [hsnap] at hv'
    split_ifs at hv' with hk
    · rw [← Option.some.inj hv']
      exact ⟨List.mem_append_right _ (List.mem_singleton.mpr rfl), rd, hrd, hk.symm⟩
    · obtain ⟨h1, h2⟩ := h.sources k v hv'
      exact ⟨List.mem_append_left _ h1, h2⟩
  · rcases List.mem_append.mp hv with hv | hv
    · obtain ⟨k, hk⟩ := h.named v hv
      refine ⟨k, (hsnap k).trans ?_⟩
      rw [if_neg (fun he : k = rd.buffer => hknown (he ▸ mem_of_find? hk))]
      exact hk
    · rw [List.mem_singleton.mp hv]
      exact ⟨rd.buffer, find?_insert_self _ _ _⟩

theorem retainLoop_copies (hfresh : w.CopiesFresh issued renderables gl) :
    (retainLoop gl { renderer := w.renderer, nextPtr := w.nextPtr } renderables).Sat
      fun st => Copies issued w renderables st ∧ w.nextPtr ≤ st.nextPtr := by
  refine retainLoop_rule_from (l := renderables) (fun st hst => ?_)
    (fun pre rd post st sh source bytes r hl hpre hst hc hcb => ?_) renderables [] _ rfl rfl ?_
  · refine ⟨⟨hst.1.old, fun h hh => ?_, hst.1.sources, hst.1.named⟩, Nat.le_succ_of_le hst.2⟩
    obtain ⟨h1, h2, ref, hf, h3, h4, h5⟩ := hst.1.new h hh
    exact ⟨h1, h2, ref, hf, h3, h4, Nat.lt_succ_of_lt h5⟩
  · have hg : Generates w (.retain_frame renderables gl) st.renderer sh :=
      hl ▸ Generates.snapshot hpre hc.check hcb hc.gen
    obtain ⟨hbuf, hiss⟩ := hfresh _ _ hg
    have hrd : rd ∈ renderables := by simp [hl]
    exact ⟨hst.1.commit hc hrd hst.2 (Behind.not_generated hbuf hc.gen) (hiss.not_generated hc.gen),
      Nat.le_succ_of_le hst.2⟩
  · refine ⟨⟨fun h _ => rfl, fun h hh => ?_, fun k v hv => ?_, fun v hv => ?_⟩, Nat.le_refl _⟩
    · cases hh
    · simp at hv
    · cases hv

/-- A finished loop has a copy of every source. -/
theorem retainLoop_covers : ∀ {l : List Renderable} {st : RetainState},
    retainLoop gl st l = .retained st' →
      (∀ k, k ∈ st.snapshots → k ∈ st'.snapshots) ∧ ∀ rd ∈ l, rd.buffer ∈ st'.snapshots := by
  intro l
  induction l with
  | nil =>
    intro st h
    rw [RetainOutcome.retained.inj h]
    exact ⟨fun _ hk => hk, fun rd hrd => by cases hrd⟩
  | cons rd l ih =>
    intro st h
    rw [retainLoop] at h
    cases hc : retainCheck st rd.buffer with
    | known =>
      rw [hc] at h
      have hmem : rd.buffer ∈ st.snapshots := by
        unfold retainCheck at hc
        by_contra hn
        rw [if_neg hn] at hc
        split at hc
        · cases hc
        · dsimp only at hc
          split_ifs at hc
      obtain ⟨hmono, hall⟩ := ih h
      refine ⟨hmono, fun rd' hrd' => ?_⟩
      rcases List.mem_cons.mp hrd' with rfl | hrd'
      · exact hmono _ hmem
      · exact hall rd' hrd'
    | rejected =>
      rw [hc] at h
      cases h
    | admitted source bytes =>
      rw [hc] at h
      dsimp only at h
      split at h
      · cases h
      · split at h
        · cases h
        · obtain ⟨hmono, hall⟩ := ih h
          refine ⟨fun k hk => hmono k (mem_insert.mpr (Or.inr hk)), fun rd' hrd' => ?_⟩
          rcases List.mem_cons.mp hrd' with rfl | hrd'
          · exact hmono _ (mem_insert.mpr (Or.inl rfl))
          · exact hall rd' hrd'

/-- The table after `rollback`. -/
theorem find?_rollback (created : List HandleType) : ∀ (r : Renderer) (h : HandleType),
    (rollback r created).m_colorbuffers.find? h =
      if h ∈ created then none else r.m_colorbuffers.find? h := by
  induction created with
  | nil => exact fun r h => (if_neg (List.not_mem_nil)).symm
  | cons a created ih =>
    intro r h
    have hone : (rollbackOne r a).m_colorbuffers.find? h =
        if h = a then none else r.m_colorbuffers.find? h := by
      unfold rollbackOne
      split
      · rename_i hf
        split_ifs with hh
        · rw [hh, hf]
        · rfl
      · exact find?_erase _ _ _
    show (rollback (rollbackOne r a) created).m_colorbuffers.find? h = _
    rw [ih, hone]
    by_cases hm : h ∈ created
    · simp [hm]
    · simp [hm]

/-- **`retain_frame`** with fresh handles: a failed call leaves the table as it was, a successful one
adds one entry with one reference for each handle of the frame it returns. -/
theorem retain_frame_copies (hfresh : w.CopiesFresh issued renderables gl) {res : RetainResult}
    (h : w.renderer.retain_frame w.nextPtr gl renderables = some res) :
    ∃ created : List HandleType,
      (∀ k, k ∉ created → res.renderer.m_colorbuffers.find? k = w.renderer.m_colorbuffers.find? k) ∧
      (∀ k ∈ created, w.renderer.m_colorbuffers.find? k = none ∧ ¬ issued k ∧
        ∃ ref, res.renderer.m_colorbuffers.find? k = some ref ∧ ref.refcount = 1 ∧
          w.nextPtr ≤ ref.cb ∧ ref.cb < res.nextPtr) ∧
      (res.ok = false → created = []) ∧
      (res.ok = true → ∀ k, k ∈ created ↔ ∃ rd ∈ res.renderables, rd.buffer = k) := by
  have hloop := retainLoop_copies hfresh
  rcases retain_frame_cases h with ⟨st, hl, rfl⟩ | ⟨st, hl, rfl⟩
  · rw [hl] at hloop
    refine ⟨[], fun k _ => ?_, fun k hk => ?_, fun _ => rfl, fun hok => ?_⟩
    · show (rollback st.renderer st.created).m_colorbuffers.find? k = _
      rw [find?_rollback]
      split_ifs with hk
      · exact (hloop.1.new k hk).1.symm
      · exact hloop.1.old k hk
    · cases hk
    · cases hok
  · rw [hl] at hloop
    obtain ⟨hcop, -⟩ := hloop
    refine ⟨st.created, hcop.old, hcop.new, fun hok => ?_, fun _ k => ⟨fun hk => ?_, ?_⟩⟩
    · cases hok
    · obtain ⟨src, hsrc⟩ := hcop.named k hk
      obtain ⟨-, rd, hrd, rfl⟩ := hcop.sources src k hsrc
      exact ⟨_, List.mem_map.mpr ⟨rd, hrd, rfl⟩, by simp [hsrc]⟩
    · rintro ⟨rd', hrd', rfl⟩
      obtain ⟨rd, hrd, rfl⟩ := List.mem_map.mp hrd'
      obtain ⟨v, hv⟩ := mem_iff.mp ((retainLoop_covers hl).2 rd hrd)
      show (st.snapshots.find? rd.buffer).getD 0 ∈ st.created
      rw [hv]
      exact (hcop.sources _ v hv).1

end Retain

/-! ## What `release_frame` removes -/

/-- The table after a part of the loop of `release_frame`, which skips the handles in `released`. -/
theorem find?_releaseOne : ∀ (renderables : List Renderable) (r : Renderer)
    (released : OrdSet HandleType),
    (∀ rd ∈ renderables, rd.buffer ∉ released →
      ∃ ref, r.m_colorbuffers.find? rd.buffer = some ref ∧ ref.refcount = 1) →
    ∀ h, (renderables.foldl releaseOne (r, released)).1.m_colorbuffers.find? h =
      if h ∉ released ∧ ∃ rd ∈ renderables, rd.buffer = h then none
      else r.m_colorbuffers.find? h := by
  intro renderables
  induction renderables with
  | nil =>
    intro r released _ h
    simp
  | cons rd renderables ih =>
    intro r released hone h
    rw [List.foldl_cons]
    by_cases hm : rd.buffer ∈ released
    · rw [show releaseOne (r, released) rd = (r, released) from if_pos hm,
        ih r released (fun rd' hrd' => hone rd' (List.mem_cons_of_mem _ hrd'))]
      congr 1
      simp only [List.mem_cons, exists_eq_or_imp, eq_iff_iff]
      refine and_congr_right fun hh => ⟨Or.inr, fun h' => h'.resolve_left fun he => hh (he ▸ hm)⟩
    · obtain ⟨ref, hf, h1⟩ := hone rd List.mem_cons_self hm
      have hself := find?_dropReference_self hf (by omega)
      rw [if_pos h1] at hself
      rw [show releaseOne (r, released) rd =
        (r.dropReference rd.buffer, released.insert rd.buffer ()) from if_neg hm,
        ih _ _ fun rd' hrd' hnot => ?_]
      · by_cases hh : h = rd.buffer
        · subst hh
          rw [if_neg (fun hc => hc.1 (mem_insert.mpr (Or.inl rfl))),
            if_pos ⟨hm, rd, List.mem_cons_self, rfl⟩]
          exact hself
        · rw [find?_dropReference_ne r hh]
          congr 1
          simp only [mem_insert, List.mem_cons, exists_eq_or_imp, eq_iff_iff]
          constructor
          · exact fun hc => ⟨fun h' => hc.1 (Or.inr h'), Or.inr hc.2⟩
          · exact fun hc => ⟨fun h' => h'.elim hh hc.1, hc.2.resolve_left fun he => hh he.symm⟩
      · have hne : rd'.buffer ≠ rd.buffer := fun he => hnot (mem_insert.mpr (Or.inl he))
        rw [find?_dropReference_ne r hne]
        exact hone rd' (List.mem_cons_of_mem _ hrd') fun h' => hnot (mem_insert.mpr (Or.inr h'))

/-- **`release_frame`** on buffers with one reference each: their entries go, the others stay. -/
theorem find?_release_frame {r : Renderer} {renderables : List Renderable}
    (hone : ∀ rd ∈ renderables, ∃ ref, r.m_colorbuffers.find? rd.buffer = some ref ∧ ref.refcount = 1)
    (h : HandleType) : (r.release_frame renderables).m_colorbuffers.find? h =
      if ∃ rd ∈ renderables, rd.buffer = h then none else r.m_colorbuffers.find? h := by
  unfold release_frame
  rw [find?_releaseOne renderables r ∅ fun rd hrd _ => hone rd hrd]
  simp

end AnboxReboxed.Emugl
