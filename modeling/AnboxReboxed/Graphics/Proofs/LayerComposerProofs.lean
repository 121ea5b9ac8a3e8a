import AnboxReboxed.Graphics.LayerComposer
import AnboxReboxed.Emugl.Proofs.SnapshotProofs

/-!
# Proofs: who owns a snapshot

Every snapshot that is alive is in the hands of one owner: a submission under way, the pending frame,
the frame being drawn or replaced, or the last presented one. Frames change hands as a whole, so that
the handles in all hands are the same up to their order; `release_frame` takes one owner's handles out
of the table, and nobody else has them.
-/

namespace AnboxReboxed.Graphics

open AnboxReboxed.Lib AnboxReboxed.Emugl OrdMap Emugl.Renderer

theorem mem_handlesOf {renderables : List Renderable} {h : HandleType} :
    h ∈ handlesOf renderables ↔ ∃ rd ∈ renderables, rd.buffer = h := by
  simp [handlesOf]

theorem handlesOf_nodup (renderables : List Renderable) : (handlesOf renderables).Nodup :=
  List.nodup_dedup _

/-! ## Custody -/

/-- The books about snapshots: those in somebody's hands are alive with one reference, out of the
guest's reach and not released; every snapshot created is in somebody's hands or was released, once,
and is gone then. -/
structure Custody (l : Ledger) (created : List (HandleType × ColorBufferPtr))
    (released : List (HandleType × Option ColorBufferPtr)) (owned : List HandleType) : Prop where
  spares : Spares (· ∈ l.issued) l.world.renderer.m_colorbuffers.find? l.world.nextPtr l.world.nextPtr
    l.world.renderer
  nodup : owned.Nodup
  live : ∀ h ∈ owned, h ∉ l.issued ∧ ∃ ref, l.world.renderer.m_colorbuffers.find? h = some ref ∧
    ref.refcount = 1 ∧ (h, ref.cb) ∈ created
  known : ∀ h p, (h, p) ∈ created → p < l.world.nextPtr ∧ ((h, some p) ∈ released ∨
    h ∈ owned ∧ ∃ ref, l.world.renderer.m_colorbuffers.find? h = some ref ∧ ref.cb = p)
  once : released.Nodup
  gone : ∀ h o, (h, o) ∈ released → ∃ p, o = some p ∧ (h, p) ∈ created ∧
    ∀ ref, l.world.renderer.m_colorbuffers.find? h = some ref → ref.cb ≠ p

namespace Custody

variable {l : Ledger} {created : List (HandleType × ColorBufferPtr)}
  {released : List (HandleType × Option ColorBufferPtr)} {owned owned' : List HandleType}

/-- Snapshots change hands. -/
theorem perm (h : Custody l created released owned) (hp : owned'.Perm owned) :
    Custody l created released owned' :=
  { h with
    nodup := hp.nodup_iff.mpr h.nodup
    live := fun k hk => h.live k (hp.mem_iff.mp hk)
    known := fun k p hk => ⟨(h.known k p hk).1,
      (h.known k p hk).2.imp_right fun ho => ⟨hp.mem_iff.mpr ho.1, ho.2⟩⟩ }

/-- The guest comes by new handles only through `createColorBuffer`. -/
theorem issued_record {op : Op} {w : World} {rep : Reply} (hs : l.world.step op = some (w, rep))
    {h : HandleType} (hh : h ∈ (l.record op w rep).issued) : h ∈ l.issued ∨
      ∃ pw ph fmt gl, op = .createColorBuffer pw ph fmt gl ∧ Generates l.world op l.world.renderer h := by
  cases op with
  | createColorBuffer pw ph fmt gl =>
    have hs' := hs
    obtain ⟨⟨ret, r1⟩, hc, he⟩ := Option.map_eq_some_iff.mp hs'
    cases he
    rcases createColorBuffer_cases hc with ⟨rfl, rfl⟩ | ⟨cb, r1, ref, -, hgen, -⟩
    · exact Or.inl hh
    · have hret : ret ≠ 0 := Nat.pos_iff_ne_zero.mp (genHandle_pos hgen).1
      simp only [Ledger.record, if_neg hret] at hh
      rcases mem_insert.mp hh with rfl | hh
      · exact Or.inr ⟨pw, ph, fmt, gl, rfl, .create hs hgen⟩
      · exact Or.inl hh
  | openColorBuffer k =>
    cases rep <;> exact Or.inl hh
  | retain_frame rds gl =>
    cases rep with
    | frame ok rds' => cases ok <;> exact Or.inl hh
    | _ => exact Or.inl hh
  | _ => exact Or.inl hh

theorem record_world (l : Ledger) (op : Op) (w : World) (rep : Reply) :
    (l.record op w rep).world = w := by
  unfold Ledger.record
  split <;> rfl

/-- Addresses are not used again. -/
theorem nextPtr_step {w w' : World} {op : Op} {rep : Reply} (hr : ∀ rds gl, op ≠ .retain_frame rds gl)
    (hs : w.step op = some (w', rep)) : w.nextPtr ≤ w'.nextPtr := by
  cases op with
  | retain_frame rds gl => exact absurd rfl (hr rds gl)
  | startThread t =>
    simp only [World.step] at hs
    split_ifs at hs
    cases hs
    exact Nat.le_refl _
  | createColorBuffer pw ph fmt gl =>
    obtain ⟨_, -, he⟩ := Option.map_eq_some_iff.mp hs
    cases he
    exact Nat.le_succ _
  | createRenderContext t cfg share gl =>
    obtain ⟨_, -, hs⟩ := World.onThread_some hs
    obtain ⟨_, -, he⟩ := Option.map_eq_some_iff.mp hs
    cases he
    exact Nat.le_succ _
  | createWindowSurface t cfg gl =>
    obtain ⟨_, -, hs⟩ := World.onThread_some hs
    obtain ⟨_, -, he⟩ := Option.map_eq_some_iff.mp hs
    cases he
    exact Nat.le_succ _
  | tick | openColorBuffer | closeColorBuffer | setWindowSurfaceColorBuffer | retainPostedColorBuffer
  | release_frame =>
    cases hs
    exact Nat.le_refl _
  | drainRenderContext | drainWindowSurface | DestroyRenderContext | DestroyWindowSurface | bindContext
  | exitThread =>
    obtain ⟨_, -, hs⟩ := World.onThread_some hs
    cases hs
    exact Nat.le_refl _

/-- The guest does not touch what is in the composer's hands. -/
theorem guest {op : Op} {w : World} {rep : Reply} (h : Custody l created released owned)
    (hp : l.permits op = true) (hr : ∀ rds gl, op ≠ .retain_frame rds gl)
    (hr' : ∀ rds, op ≠ .release_frame rds) (hs : l.world.step op = some (w, rep))
    (hfresh : ∀ pw ph fmt gl, op = .createColorBuffer pw ph fmt gl →
      ∀ r k, Generates l.world op r k → r.BuffersBehind) :
    Custody (l.record op w rep) created released owned := by
  have hsp := Ledger.spares_step h.spares hp hr hr' hs
  have hw : (l.record op w rep).world = w := record_world l op w rep
  have hptr : l.world.nextPtr ≤ w.nextPtr := nextPtr_step hr hs
  -- a new handle of the guest is not the handle of a snapshot
  have hnew : ∀ k ∈ owned, k ∉ (l.record op w rep).issued := by
    intro k hk hi
    obtain ⟨hni, ref, hf, -⟩ := h.live k hk
    rcases issued_record hs hi with hi | ⟨pw, ph, fmt, gl, hop, hg⟩
    · exact hni hi
    · obtain ⟨r', hgen⟩ := hg.genHandle
      exact Behind.not_generated (hfresh pw ph fmt gl hop _ _ hg) hgen (mem_of_find? hf)
  have hsame : ∀ k ∈ owned, w.renderer.m_colorbuffers.find? k = l.world.renderer.m_colorbuffers.find? k :=
    fun k hk => hsp.same k (hnew k hk)
  refine ⟨?_, h.nodup, fun k hk => ⟨hnew k hk, ?_⟩, fun k p hk => ?_, h.once, fun k o hk => ?_⟩
  · rw [hw]
    exact ⟨hsp.zero, hsp.attached, hsp.posted, fun _ _ => rfl, fun k ref hf => Or.inl ⟨ref, hf, rfl⟩,
      hsp.bounded⟩
  · rw [hw, hsame k hk]
    exact (h.live k hk).2
  · rw [hw]
    obtain ⟨hlt, hcase⟩ := h.known k p hk
    refine ⟨Nat.lt_of_lt_of_le hlt hptr, hcase.imp_right fun ho => ⟨ho.1, ?_⟩⟩
    rw [hsame k ho.1]
    exact ho.2
  · rw [hw]
    obtain ⟨p, ho, hc, hgone⟩ := h.gone k o hk
    refine ⟨p, ho, hc, fun ref hf hcb => ?_⟩
    rcases hsp.objects k ref hf with ⟨ref0, hf0, hcb0⟩ | hle
    · exact hgone ref0 hf0 (hcb0.trans hcb)
    · have := (h.known k p hc).1
      rw [hcb] at hle
      exact absurd this (Nat.not_lt.mpr hle)

/-- The ledger after the composer changed the renderer. -/
def withRenderer (l : Ledger) (renderer : Renderer) (nextPtr : ColorBufferPtr) : Ledger :=
  { l with world := { l.world with renderer, nextPtr } }

/-- `release_frame` ends the custody of the handles it is given. -/
theorem release {renderables : List Renderable}
    (h : Custody l created released (handlesOf renderables ++ owned)) :
    Custody (withRenderer l (l.world.renderer.release_frame renderables) l.world.nextPtr) created
      (released ++ (handlesOf renderables).map fun k =>
        (k, (l.world.renderer.m_colorbuffers.find? k).map ColorBufferRef.cb)) owned := by
  obtain ⟨-, hnd, hdisj⟩ := List.nodup_append.mp h.nodup
  have hmine : ∀ k ∈ handlesOf renderables, k ∈ handlesOf renderables ++ owned :=
    fun k hk => List.mem_append_left _ hk
  have hfind : ∀ k, (l.world.renderer.release_frame renderables).m_colorbuffers.find? k =
      if k ∈ handlesOf renderables then none else l.world.renderer.m_colorbuffers.find? k := by
    intro k
    rw [find?_release_frame fun rd hrd => ?_]
    · simp only [mem_handlesOf]
    · obtain ⟨-, ref, hf, h1, -⟩ := h.live _ (hmine _ (mem_handlesOf.mpr ⟨rd, hrd, rfl⟩))
      exact ⟨ref, hf, h1⟩
  have hstay : ∀ k ref, (l.world.renderer.release_frame renderables).m_colorbuffers.find? k = some ref →
      l.world.renderer.m_colorbuffers.find? k = some ref := by
    intro k ref hf
    rw [hfind] at hf
    split_ifs at hf
    exact hf
  have hother : ∀ k ∈ owned, (l.world.renderer.release_frame renderables).m_colorbuffers.find? k =
      l.world.renderer.m_colorbuffers.find? k := by
    intro k hk
    rw [hfind, if_neg fun hm => hdisj k hm k hk rfl]
  have hframe : SameButBuffers l.world.renderer (l.world.renderer.release_frame renderables) :=
    release_frame_rel SameButBuffers.refl (fun _ _ _ => SameButBuffers.trans) sameButBuffers_drop _ _
  refine ⟨⟨h.spares.zero, ?_, ?_, fun _ _ => rfl, fun k ref hf => Or.inl ⟨ref, hf, rfl⟩,
    fun k ref hf => h.spares.bounded k ref (hstay k ref hf)⟩, hnd, fun k hk => ?_, fun k p hk => ?_, ?_,
    fun k o hk => ?_⟩
  · exact fun s w hw => h.spares.attached s w (hframe.windows ▸ hw)
  · exact hframe.posted.symm ▸ h.spares.posted
  · show k ∉ l.issued ∧ ∃ ref, (l.world.renderer.release_frame renderables).m_colorbuffers.find? k = _ ∧ _
    rw [hother k hk]
    exact h.live k (List.mem_append_right _ hk)
  · obtain ⟨hlt, hrel | ⟨ho, ref, hf, hcb⟩⟩ := h.known k p hk
    · exact ⟨hlt, Or.inl (List.mem_append_left _ hrel)⟩
    · refine ⟨hlt, ?_⟩
      rcases List.mem_append.mp ho with ho | ho
      · refine Or.inl (List.mem_append_right _ (List.mem_map.mpr ⟨k, ho, ?_⟩))
        rw [hf, Option.map_some, hcb]
      · exact Or.inr ⟨ho, ref, (hother k ho).trans hf, hcb⟩
  · -- what was released before is gone, so nothing is released twice
    refine List.nodup_append.mpr ⟨h.once, ?_, ?_⟩
    · exact (handlesOf_nodup renderables).map_on fun _ _ _ _ he => (Prod.mk.inj he).1
    · rintro ⟨k, o⟩ hold e hnew rfl
      obtain ⟨k', hk', he⟩ := List.mem_map.mp hnew
      obtain ⟨rfl, rfl⟩ := Prod.mk.inj he
      obtain ⟨p, ho, -, hgone⟩ := h.gone _ _ hold
      obtain ⟨ref, hf, hcb⟩ := Option.map_eq_some_iff.mp ho
      exact hgone ref hf hcb
  · rcases List.mem_append.mp hk with hk | hk
    · obtain ⟨p, ho, hc, hgone⟩ := h.gone k o hk
      exact ⟨p, ho, hc, fun ref hf => hgone ref (hstay k ref hf)⟩
    · obtain ⟨k', hk', he⟩ := List.mem_map.mp hk
      obtain ⟨rfl, rfl⟩ := Prod.mk.inj he
      obtain ⟨-, ref, hf, -, hc⟩ := h.live k' (hmine k' hk')
      refine ⟨ref.cb, by rw [hf, Option.map_some], hc, fun ref' hf' => ?_⟩
      have hf'' : (l.world.renderer.release_frame renderables).m_colorbuffers.find? k' = some ref' := hf'
      rw [hfind, if_pos hk'] at hf''
      cases hf''

theorem mem_newBuffers {table : OrdMap HandleType ColorBufferRef} {first p : ColorBufferPtr}
    {k : HandleType} : (k, p) ∈ Composer.newBuffers table first ↔
      ∃ ref, table.find? k = some ref ∧ ref.cb = p ∧ first ≤ p := by
  unfold Composer.newBuffers
  simp only [List.mem_map, List.mem_filter, decide_eq_true_eq]
  constructor
  · rintro ⟨⟨k', ref⟩, ⟨hm, hle⟩, he⟩
    obtain ⟨rfl, rfl⟩ := Prod.mk.inj he
    exact ⟨ref, find?_eq_some_iff.mpr hm, rfl, hle⟩
  · rintro ⟨ref, hf, rfl, hle⟩
    exact ⟨(k, ref), ⟨find?_eq_some_iff.mp hf, hle⟩, rfl⟩

/-- `retain_frame` starts the custody of the snapshots it returns. -/
theorem retain {renderables : List Renderable} {gl : HandleType → Bool} {res : RetainResult}
    (h : Custody l created released owned)
    (hfresh : l.world.CopiesFresh (· ∈ l.issued) renderables gl)
    (hres : l.world.renderer.retain_frame l.world.nextPtr gl renderables = some res) :
    Custody (withRenderer l res.renderer res.nextPtr)
      (created ++ Composer.newBuffers res.renderer.m_colorbuffers l.world.nextPtr) released
      ((if res.ok then handlesOf res.renderables else []) ++ owned) := by
  obtain ⟨copies, hold, hcopy, hfail, hok⟩ := retain_frame_copies hfresh hres
  have hptr := nextPtr_retain_frame hres
  have hframe := sameTables_retain_frame hres
  -- what the frame names is what was copied
  have hnames : ∀ k, k ∈ (if res.ok then handlesOf res.renderables else []) ↔ k ∈ copies := by
    intro k
    cases hc : res.ok with
    | false => simp [hfail hc]
    | true => simp [hok hc, mem_handlesOf]
  have hapart : ∀ k ∈ owned, k ∉ copies := by
    intro k hk hm
    obtain ⟨-, ref, hf, -⟩ := h.live k hk
    rw [(hcopy k hm).1] at hf
    cases hf
  refine ⟨⟨h.spares.zero, ?_, ?_, fun _ _ => rfl, fun k ref hf => Or.inl ⟨ref, hf, rfl⟩,
    fun k ref hf => ?_⟩, ?_, fun k hk => ?_, fun k p hk => ?_, h.once, fun k o hk => ?_⟩
  · exact fun s w hw => h.spares.attached s w (hframe.windows ▸ hw)
  · exact hframe.posted.symm ▸ h.spares.posted
  · by_cases hm : k ∈ copies
    · obtain ⟨-, -, ref', hf', -, -, hlt⟩ := hcopy k hm
      exact Option.some.inj (hf'.symm.trans hf) ▸ hlt
    · exact Nat.lt_of_lt_of_le (h.spares.bounded k ref ((hold k hm).symm.trans hf)) hptr
  · refine List.nodup_append.mpr ⟨?_, h.nodup, ?_⟩
    · split_ifs
      · exact handlesOf_nodup _
      · exact List.nodup_nil
    · rintro k hk k' hk' rfl
      exact hapart k hk' ((hnames k).mp hk)
  · rcases List.mem_append.mp hk with hk | hk
    · obtain ⟨-, hni, ref, hf, h1, hle, -⟩ := hcopy k ((hnames k).mp hk)
      exact ⟨hni, ref, hf, h1, List.mem_append_right _ (mem_newBuffers.mpr ⟨ref, hf, rfl, hle⟩)⟩
    · obtain ⟨hni, ref, hf, h1, hc⟩ := h.live k hk
      exact ⟨hni, ref, (hold k (hapart k hk)).trans hf, h1, List.mem_append_left _ hc⟩
  · rcases List.mem_append.mp hk with hk | hk
    · obtain ⟨hlt, hcase⟩ := h.known k p hk
      refine ⟨Nat.lt_of_lt_of_le hlt hptr, hcase.imp_right ?_⟩
      rintro ⟨ho, ref, hf, hcb⟩
      exact ⟨List.mem_append_right _ ho, ref, (hold k (hapart k ho)).trans hf, hcb⟩
    · obtain ⟨ref, hf, rfl, hle⟩ := mem_newBuffers.mp hk
      have hm : k ∈ copies := by
        by_contra hm
        have := h.spares.bounded k ref ((hold k hm).symm.trans hf)
        exact absurd this (Nat.not_lt.mpr hle)
      obtain ⟨-, -, ref', hf', -, -, hlt⟩ := hcopy k hm
      refine ⟨Option.some.inj (hf'.symm.trans hf) ▸ hlt, Or.inr ⟨?_, ref, hf, rfl⟩⟩
      exact List.mem_append_left _ ((hnames k).mpr hm)
  · obtain ⟨p, ho, hc, hgone⟩ := h.gone k o hk
    refine ⟨p, ho, List.mem_append_left _ hc, fun ref hf hcb => ?_⟩
    by_cases hm : k ∈ copies
    · obtain ⟨-, -, ref', hf', -, hle, -⟩ := hcopy k hm
      have hlt := (h.known k p hc).1
      rw [Option.some.inj (hf'.symm.trans hf), hcb] at hle
      exact absurd hlt (Nat.not_lt.mpr hle)
    · exact hgone ref ((hold k hm).symm.trans hf) hcb

end Custody

/-! ## The owners -/

def frameHandles : Option Frame → List HandleType
  | none => []
  | some frame => handlesOf frame.retained_buffers

/-- The handles in the hands of a submission. -/
def Submission.owned : Submission → List HandleType
  | .freezing _ _ frozen_lists => frozen_lists.flatMap handlesOf
  | .rejecting frozen_lists => frozen_lists.flatMap handlesOf

/-- The handles in the hands of the worker. -/
def WorkerPc.owned : WorkerPc → List HandleType
  | .drawing frame _ => handlesOf frame.retained_buffers
  | .releasing old_frame => frameHandles old_frame
  | _ => []

/-- The layers of a frame are among its retained buffers. -/
def Frame.Named (frame : Frame) : Prop :=
  ∀ win rds, (some win, rds) ∈ frame.windows → ∀ rd ∈ rds, rd.buffer ∈ handlesOf frame.retained_buffers

/-- The layers of the windows done are among the frozen lists. -/
def Submission.Named : Submission → Prop
  | .freezing done _ frozen_lists =>
    ∀ win rds, (some win, rds) ∈ done → ∀ rd ∈ rds, rd.buffer ∈ frozen_lists.flatMap handlesOf
  | .rejecting _ => True

namespace Composer

variable {s s' : Composer}

/-- The handles of the pending frame and of the last presented one, until the destructor has released
them. -/
def kept (s : Composer) : List HandleType :=
  match s.destructor with
  | .done => []
  | .releasingLast => frameHandles s.last_presented_
  | _ => frameHandles s.pending_ ++ frameHandles s.last_presented_

/-- The handles of one owner after the other. -/
def owned (s : Composer) : List HandleType :=
  s.submissions.flatMap Submission.owned ++ (s.worker.owned ++ s.kept)

/-- The destructor has joined the worker. -/
def Joined (s : Composer) : Prop := s.destructor = .releasingLast ∨ s.destructor = .done

/-- Before the destructor has joined the worker, both frames are kept. -/
theorem owned_running (h : ¬ s.Joined) : s.owned = s.submissions.flatMap Submission.owned ++
    (s.worker.owned ++ (frameHandles s.pending_ ++ frameHandles s.last_presented_)) := by
  unfold owned kept
  split
  · rename_i hd
    exact absurd (Or.inr hd) h
  · rename_i hd
    exact absurd (Or.inl hd) h
  · rfl

/-- The frame the worker has taken and not counted yet. -/
def inFlight (s : Composer) : Nat :=
  match s.worker with
  | .drawing .. => 1
  | .releasing _ => 1
  | .counting => 1
  | _ => 0

def pendingCount (s : Composer) : Nat := if s.pending_.isSome then 1 else 0

/-- Layers that are or may be drawn belong to frames that are kept. -/
structure LayersOwned (s : Composer) : Prop where
  submissions : ∀ sub ∈ s.submissions, sub.Named
  pending : ∀ frame, s.pending_ = some frame → frame.Named
  last : ∀ frame, s.last_presented_ = some frame → frame.Named
  drawing : ∀ frame windows, s.worker = .drawing frame windows →
    frame.Named ∧ ∀ window ∈ windows, window ∈ frame.windows
  redrawing : ∀ windows, s.worker = .redrawing windows → ∀ win rds, (some win, rds) ∈ windows →
    ∀ rd ∈ rds, rd.buffer ∈ frameHandles s.last_presented_

/-- How far everybody is once the destructor has been called. -/
structure Stopped (s : Composer) : Prop where
  submissions : s.destructor ≠ .notCalled → s.submissions = []
  worker : s.Joined → s.worker = .returned

/-- The invariant of the composer. -/
structure Tracked (s : Composer) : Prop where
  custody : Custody s.ledger s.created s.released s.owned
  layers : LayersOwned s
  counted : s.submitted_ = s.presented_ + s.dropped_ + s.pendingCount + s.inFlight
  stopped : Stopped s

/-- A submission and the others. -/
theorem submissions_perm {k : Nat} {sub : Submission} (h : s.submissions[k]? = some sub) :
    s.submissions.Perm (sub :: s.submissions.eraseIdx k) := by
  obtain ⟨hk, rfl⟩ := List.getElem?_eq_some_iff.mp h
  exact (List.getElem_cons_eraseIdx_perm hk).symm

theorem submissions_set_perm {k : Nat} {sub : Submission} (h : s.submissions[k]? = some sub)
    (sub' : Submission) : (s.submissions.set k sub').Perm (sub' :: s.submissions.eraseIdx k) := by
  obtain ⟨hk, -⟩ := List.getElem?_eq_some_iff.mp h
  exact List.set_perm_cons_eraseIdx hk sub'

/-- The handles that are not in the hands of submission `k`. -/
def others (s : Composer) (k : Nat) : List HandleType :=
  (s.submissions.eraseIdx k).flatMap Submission.owned ++ (s.worker.owned ++ s.kept)

theorem owned_perm {k : Nat} {sub : Submission} (h : s.submissions[k]? = some sub) :
    s.owned.Perm (sub.owned ++ s.others k) := by
  unfold owned others
  rw [← List.append_assoc sub.owned, ← List.flatMap_cons]
  exact ((submissions_perm h).flatMap_right _).append_right _

/-- The handles in all hands when only submission `k` has changed. -/
theorem owned_set_perm {k : Nat} {sub : Submission} (h : s.submissions[k]? = some sub)
    (sub' : Submission) (hsub : s'.submissions = s.submissions.set k sub') (hw : s'.worker = s.worker)
    (hkept : s'.kept = s.kept) : s'.owned.Perm (sub'.owned ++ s.others k) := by
  unfold owned others
  rw [hsub, hw, hkept, ← List.append_assoc sub'.owned, ← List.flatMap_cons]
  exact ((submissions_set_perm h sub').flatMap_right _).append_right _

/-- What `release_frame` leaves alone. -/
theorem release_fields (s : Composer) (frame : Option Frame) :
    (s.release frame).worker = s.worker ∧ (s.release frame).submissions = s.submissions ∧
      (s.release frame).pending_ = s.pending_ ∧ (s.release frame).last_presented_ = s.last_presented_ ∧
      (s.release frame).presented_ = s.presented_ ∧ (s.release frame).destructor = s.destructor ∧
      (s.release frame).submitted_ = s.submitted_ ∧ (s.release frame).dropped_ = s.dropped_ := by
  cases frame <;> exact ⟨rfl, rfl, rfl, rfl, rfl, rfl, rfl, rfl⟩

/-- The custody after the release of an optional frame. -/
theorem custody_release {frame : Option Frame} {rest : List HandleType}
    (h : Custody s.ledger s.created s.released (frameHandles frame ++ rest)) :
    Custody (s.release frame).ledger (s.release frame).created (s.release frame).released rest := by
  cases frame with
  | none => exact h
  | some frame => exact h.release

/-! ## Steps -/

/-- A step that moves no snapshot in the tables. -/
theorem Tracked.custody_move (h : Tracked s) (hl : s'.ledger = s.ledger) (hc : s'.created = s.created)
    (hr : s'.released = s.released) (ho : s'.owned.Perm s.owned) :
    Custody s'.ledger s'.created s'.released s'.owned := by
  rw [hl, hc, hr]
  exact h.custody.perm ho

/-- The handles that a condition on fresh handles is about: a colour buffer of the guest must not go
under the handle of a live one, a copy under none the guest was ever given either. -/
def FreshHandles (s : Composer) : ComposerOp → Prop
  | .guest (.createColorBuffer p_width p_height p_internalFormat gl) =>
    ∀ r h, Generates s.ledger.world (.createColorBuffer p_width p_height p_internalFormat gl) r h →
      r.BuffersBehind
  | .freeze k gl =>
    ∀ done win renderables todo frozen_lists,
      s.submissions[k]? = some (.freezing done ((some win, renderables) :: todo) frozen_lists) →
      s.ledger.world.CopiesFresh (· ∈ s.ledger.issued) renderables gl
  | _ => True

theorem tracked_guest {op : Op} (h : Tracked s) (hfresh : s.FreshHandles (.guest op))
    (hs : s.guest op = some s') : Tracked s' := by
  unfold guest at hs
  split_ifs at hs with hp
  obtain ⟨⟨w, rep⟩, hstep, rfl⟩ := Option.map_eq_some_iff.mp hs
  refine ⟨?_, ⟨h.layers.submissions, h.layers.pending, h.layers.last, h.layers.drawing,
    h.layers.redrawing⟩, h.counted, ⟨h.stopped.submissions, h.stopped.worker⟩⟩
  refine h.custody.guest hp.1 ?_ ?_ hstep ?_
  · rintro rds gl rfl
    exact hp.2 rfl
  · rintro rds rfl
    exact hp.2 rfl
  · rintro pw ph fmt gl rfl
    exact hfresh

theorem tracked_submit {win_layers : WindowRenderableList} (h : Tracked s)
    (hd : s.destructor = .notCalled) :
    Tracked { s with submissions := s.submissions ++ [.freezing [] win_layers []] } := by
  refine ⟨h.custody_move rfl rfl rfl ?_, ⟨fun sub hsub => ?_, h.layers.pending, h.layers.last,
    h.layers.drawing, h.layers.redrawing⟩, h.counted, ⟨fun hc => absurd hd hc, fun hc => ?_⟩⟩
  · show ((s.submissions ++ [_]).flatMap Submission.owned ++ (s.worker.owned ++ s.kept)).Perm _
    rw [List.flatMap_append, List.flatMap_singleton]
    exact (List.append_nil _).symm ▸ List.Perm.refl _
  · rcases List.mem_append.mp hsub with hsub | hsub
    · exact h.layers.submissions sub hsub
    · rw [List.mem_singleton.mp hsub]
      intro win rds hm
      cases hm
  · rw [show s.destructor = .notCalled from hd] at hc
    rcases hc with hc | hc <;> cases hc

/-- Submission `k` was replaced by `sub`. -/
theorem LayersOwned.set {k : Nat} {sub : Submission} (h : LayersOwned s) (hsub : sub.Named)
    (h1 : s'.submissions = s.submissions.set k sub) (h2 : s'.worker = s.worker)
    (h3 : s'.pending_ = s.pending_) (h4 : s'.last_presented_ = s.last_presented_) : LayersOwned s' := by
  refine ⟨fun sub' hm => ?_, by rw [h3]; exact h.pending, by rw [h4]; exact h.last,
    by rw [h2]; exact h.drawing, by rw [h2, h4]; exact h.redrawing⟩
  rw [h1] at hm
  rcases List.mem_or_eq_of_mem_set hm with hm | rfl
  · exact h.submissions sub' hm
  · exact hsub

/-- While a submission is under way the destructor has not been called. -/
theorem Stopped.submitting {k : Nat} {sub : Submission} (h : Stopped s)
    (hk : s.submissions[k]? = some sub) : s.destructor = .notCalled := by
  by_contra hc
  rw [h.submissions hc] at hk
  cases hk

theorem Stopped.of_notCalled (h : s.destructor = .notCalled) : Stopped s := by
  refine ⟨fun hc => absurd h hc, fun hc => ?_⟩
  rcases hc with hc | hc <;> rw [h] at hc <;> cases hc

theorem tracked_freeze {k : Nat} {gl : HandleType → Bool} (h : Tracked s)
    (hfresh : s.FreshHandles (.freeze k gl)) (hs : s.freeze k gl = some s') : Tracked s' := by
  unfold freeze at hs
  split at hs
  · rename_i done window renderables todo frozen_lists hk
    have hnamed : (Submission.freezing done ((window, renderables) :: todo) frozen_lists).Named :=
      h.layers.submissions _ (List.mem_of_getElem? hk)
    have hnot := h.stopped.submitting hk
    cases window with
    | none =>
      rw [← Option.some.inj hs]
      refine ⟨h.custody_move rfl rfl rfl ?_, h.layers.set (k := k) ?_ rfl rfl rfl rfl, h.counted,
        .of_notCalled hnot⟩
      · exact List.Perm.trans (owned_set_perm hk _ rfl rfl rfl) (owned_perm hk).symm
      · intro win rds hm
        rcases List.mem_append.mp hm with hm | hm
        · exact hnamed win rds hm
        · simp at hm
    | some win =>
      obtain ⟨res, hres, rfl⟩ := Option.map_eq_some_iff.mp hs
      have hcust := h.custody.retain (hfresh done win renderables todo frozen_lists hk) hres
      refine ⟨hcust.perm ?_, h.layers.set (k := k) ?_ rfl rfl rfl rfl, h.counted, .of_notCalled hnot⟩
      · refine List.Perm.trans (owned_set_perm hk _ rfl rfl rfl) ?_
        refine List.Perm.trans ?_ ((owned_perm hk).symm.append_left _)
        rw [← List.append_assoc]
        refine List.Perm.append_right _ ?_
        cases res.ok with
        | false => exact List.Perm.refl _
        | true =>
          show ((frozen_lists ++ [res.renderables]).flatMap handlesOf).Perm _
          rw [List.flatMap_append, List.flatMap_singleton]
          exact List.perm_append_comm
      · cases res.ok with
        | false => exact trivial
        | true =>
          intro win' rds hm rd hrd
          rw [List.flatMap_append, List.flatMap_singleton]
          rcases List.mem_append.mp hm with hm | hm
          · exact List.mem_append_left _ (hnamed win' rds hm rd hrd)
          · refine List.mem_append_right _ (mem_handlesOf.mpr ⟨rd, ?_, rfl⟩)
            have heq := (Prod.mk.inj (List.mem_singleton.mp hm)).2
            exact heq ▸ hrd
  · cases hs

theorem tracked_reject {k : Nat} (h : Tracked s) (hs : s.reject k = some s') : Tracked s' := by
  unfold reject at hs
  split at hs
  · rename_i frozen frozen_lists hk
    rw [← Option.some.inj hs]
    have hcust : Custody s.ledger s.created s.released
        (handlesOf frozen ++ (Submission.owned (.rejecting frozen_lists) ++ s.others k)) := by
      rw [← List.append_assoc]
      exact h.custody.perm (owned_perm hk).symm
    refine ⟨hcust.release.perm (owned_set_perm hk _ rfl rfl rfl),
      h.layers.set (k := k) (show Submission.Named (.rejecting frozen_lists) from trivial) rfl rfl rfl rfl,
      h.counted, .of_notCalled (h.stopped.submitting hk)⟩
  · rename_i hk
    rw [← Option.some.inj hs]
    refine ⟨h.custody_move rfl rfl rfl (owned_perm hk).symm, ⟨fun sub hsub => ?_, h.layers.pending,
      h.layers.last, h.layers.drawing, h.layers.redrawing⟩, h.counted,
      .of_notCalled (h.stopped.submitting hk)⟩
    exact h.layers.submissions sub (List.mem_of_mem_eraseIdx hsub)
  · cases hs

/-- The retained buffers of a frame are those of its windows together. -/
theorem handlesOf_flatten {frozen_lists : List (List Renderable)}
    (h : (frozen_lists.flatMap handlesOf).Nodup) :
    (handlesOf frozen_lists.flatten).Perm (frozen_lists.flatMap handlesOf) := by
  refine (List.perm_ext_iff_of_nodup (handlesOf_nodup _) h).mpr fun k => ?_
  simp only [mem_handlesOf, List.mem_flatten, List.mem_flatMap]
  constructor
  · rintro ⟨rd, ⟨l, hl, hrd⟩, rfl⟩
    exact ⟨l, hl, rd, hrd, rfl⟩
  · rintro ⟨l, hl, rd, hrd, rfl⟩
    exact ⟨rd, ⟨l, hl, hrd⟩, rfl⟩

theorem tracked_commit {k : Nat} (h : Tracked s) (hs : s.commit k = some s') : Tracked s' := by
  unfold commit at hs
  split at hs
  · rename_i done frozen_lists hk
    have hnamed : (Submission.freezing done [] frozen_lists).Named :=
      h.layers.submissions _ (List.mem_of_getElem? hk)
    obtain ⟨hwork, -, -, hlast, hpres, hdes, -, -⟩ := release_fields s s.pending_
    have hnd : (frozen_lists.flatMap handlesOf).Nodup :=
      (List.nodup_append.mp ((owned_perm hk).nodup_iff.mp h.custody.nodup)).1
    have hrun : ¬ s.Joined := by
      rintro (hc | hc) <;> rw [h.stopped.submitting hk] at hc <;> cases hc
    -- the pending frame is released first, then the new one takes its place
    have hcust : Custody s.ledger s.created s.released (frameHandles s.pending_ ++
        ((s.submissions.eraseIdx k).flatMap Submission.owned ++
          (s.worker.owned ++ (handlesOf frozen_lists.flatten ++ frameHandles s.last_presented_)))) := by
      refine h.custody.perm (List.perm_iff_count.mpr fun a => ?_)
      have h1 := (handlesOf_flatten hnd).count_eq a
      have h2 := ((submissions_perm hk).flatMap_right Submission.owned).count_eq a
      rw [owned_running hrun]
      simp only [List.flatMap_cons, Submission.owned, List.count_append] at h2 ⊢
      omega
    rw [← Option.some.inj hs]
    refine ⟨?_, ⟨fun sub hsub => ?_, fun frame hf => ?_, ?_, ?_, ?_⟩, ?_, .of_notCalled ?_⟩
    · refine (custody_release hcust).perm (List.Perm.of_eq ((owned_running ?_).trans ?_))
      · unfold Joined
        dsimp only
        rw [hdes]
        exact hrun
      · dsimp only
        rw [hwork, hlast]
        rfl
    · exact h.layers.submissions sub (List.mem_of_mem_eraseIdx hsub)
    · rw [← Option.some.inj hf]
      intro win rds hm rd hrd
      exact (handlesOf_flatten hnd).mem_iff.mpr (hnamed win rds hm rd hrd)
    · exact hlast ▸ h.layers.last
    · exact hwork ▸ h.layers.drawing
    · show ∀ windows, (s.release s.pending_).worker = _ → _
      dsimp only
      rw [hwork, hlast]
      exact h.layers.redrawing
    · have hc := h.counted
      unfold pendingCount inFlight at *
      dsimp only
      rw [hwork, hpres]
      cases hp : s.pending_ with
      | none =>
        rw [hp] at hc
        simp at hc ⊢
        omega
      | some frame =>
        rw [hp] at hc
        simp at hc ⊢
        omega
    · exact hdes.trans (h.stopped.submitting hk)
  · cases hs

/-- A step of the worker that keeps every frame where it is. -/
theorem Tracked.worker (h : Tracked s) {worker : WorkerPc} {redraw_requested_ : Bool} {redraws_ : Nat}
    (howned : worker.owned = s.worker.owned)
    (hflight : inFlight { s with worker } = s.inFlight)
    (hdraw : ∀ frame windows, worker = .drawing frame windows →
      frame.Named ∧ ∀ window ∈ windows, window ∈ frame.windows)
    (hredraw : ∀ windows, worker = .redrawing windows → ∀ win rds, (some win, rds) ∈ windows →
      ∀ rd ∈ rds, rd.buffer ∈ frameHandles s.last_presented_)
    (hstop : s.Joined → worker = .returned) :
    Tracked { s with worker, redraw_requested_, redraws_ } := by
  refine ⟨h.custody_move rfl rfl rfl ?_, ⟨h.layers.submissions, h.layers.pending, h.layers.last, hdraw,
    hredraw⟩, ?_, ⟨h.stopped.submissions, hstop⟩⟩
  · show (s.submissions.flatMap Submission.owned ++ (worker.owned ++ s.kept)).Perm _
    rw [howned]
    exact List.Perm.refl _
  · exact h.counted.trans (congrArg (_ + ·) hflight.symm)

/-- The worker still runs, so the destructor has not joined it. -/
theorem Stopped.running (h : Stopped s) (hw : s.worker ≠ .returned) :
    ¬ s.Joined := fun hc => hw (h.worker hc)

theorem tracked_wake {windows : List (Option Nat)} (h : Tracked s) (hs : s.wake windows = some s') :
    Tracked s' := by
  unfold wake at hs
  split at hs
  · rename_i hw
    have hrun := h.stopped.running (s := s) (by rw [hw]; intro hc; cases hc)
    by_cases hstop : s.stopping_ = true
    · rw [if_pos hstop] at hs
      rw [← Option.some.inj hs]
      refine h.worker (by rw [hw]; rfl) (by unfold inFlight; rw [hw]) ?_ ?_ fun _ => rfl
      · intro frame windows hc
        cases hc
      · intro windows hc
        cases hc
    · rw [if_neg hstop] at hs
      cases hp : s.pending_ with
      | some frame =>
        simp only [hp] at hs
        rw [← Option.some.inj hs]
        refine ⟨h.custody_move rfl rfl rfl ?_, ⟨h.layers.submissions, fun _ hc => ?_, h.layers.last, ?_,
          fun _ hc => ?_⟩, ?_, ⟨h.stopped.submissions, fun hc => absurd hc hrun⟩⟩
        · rw [owned_running hrun, hw, hp]
          exact List.Perm.of_eq (owned_running hrun)
        · cases hc
        · intro frame' windows hc
          cases hc
          exact ⟨h.layers.pending frame hp, fun _ hm => hm⟩
        · cases hc
        · have hc := h.counted
          unfold pendingCount inFlight at *
          rw [hw, hp] at hc
          exact hc
      | none =>
        simp only [hp] at hs
        by_cases hreq : s.redraw_requested_ = true
        · rw [if_pos hreq] at hs
          rw [← Option.some.inj hs]
          simp only [← hp]
          refine h.worker ?_ ?_ ?_ ?_ fun hc => absurd hc hrun
          · rw [hw]
            split_ifs <;> rfl
          · unfold inFlight
            rw [hw]
            split_ifs <;> rfl
          · intro frame windows' hc
            split_ifs at hc
          · intro windows' hc win rds hm rd hrd
            split_ifs at hc
            cases hc
            cases hl : s.last_presented_ with
            | some frame =>
              rw [hl] at hm
              exact h.layers.last frame hl win rds hm rd hrd
            | none =>
              -- the windows of `process_layers({})` have no layers
              rw [hl] at hm
              obtain ⟨w, -, he⟩ := List.mem_map.mp hm
              cases he
              cases hrd
        · rw [if_neg hreq] at hs
          cases hs
  · cases hs

theorem tracked_draw (h : Tracked s) (hs : s.draw = some s') : Tracked s' := by
  unfold draw at hs
  split at hs
  · rename_i window windows hw
    rw [← Option.some.inj hs]
    refine h.worker (by rw [hw]; rfl) (by unfold inFlight; rw [hw]) (fun _ _ hc => ?_)
      (fun windows' hc win rds hm => ?_) fun hc => ?_
    · cases hc
    · cases hc
      exact h.layers.redrawing _ hw win rds (List.mem_cons_of_mem _ hm)
    · exact absurd hc (h.stopped.running (by rw [hw]; intro hc; cases hc))
  · rename_i hw
    rw [← Option.some.inj hs]
    refine h.worker (by rw [hw]; rfl) (by unfold inFlight; rw [hw]) (fun _ _ hc => ?_)
      (fun _ hc => ?_) fun hc => ?_
    · cases hc
    · cases hc
    · exact absurd hc (h.stopped.running (by rw [hw]; intro hc; cases hc))
  · rename_i frame window windows hw
    rw [← Option.some.inj hs]
    refine h.worker (by rw [hw]; rfl) (by unfold inFlight; rw [hw]) (fun _ _ hc => ?_)
      (fun _ hc => ?_) fun hc => ?_
    · cases hc
      obtain ⟨hnamed, hmem⟩ := h.layers.drawing _ _ hw
      exact ⟨hnamed, fun window' hm => hmem window' (List.mem_cons_of_mem _ hm)⟩
    · cases hc
    · exact absurd hc (h.stopped.running (by rw [hw]; intro hc; cases hc))
  · -- the frame drawn becomes the last presented one, which goes to the worker
    rename_i frame hw
    have hrun := h.stopped.running (s := s) (by rw [hw]; intro hc; cases hc)
    rw [← Option.some.inj hs]
    refine ⟨h.custody_move rfl rfl rfl ?_, ⟨h.layers.submissions, h.layers.pending, fun _ hf => ?_,
      fun _ _ hc => ?_, fun _ hc => ?_⟩, ?_, ⟨h.stopped.submissions, fun hc => absurd hc hrun⟩⟩
    · refine List.Perm.trans (List.Perm.of_eq (owned_running hrun)) ?_
      rw [owned_running hrun, hw]
      refine List.Perm.append_left _ (List.perm_iff_count.mpr fun a => ?_)
      simp only [WorkerPc.owned, frameHandles, List.count_append]
      omega
    · rw [← Option.some.inj hf]
      exact (h.layers.drawing _ _ hw).1
    · cases hc
    · cases hc
    · have hc := h.counted
      unfold pendingCount inFlight at *
      rw [hw] at hc
      exact hc
  · cases hs

theorem tracked_releaseOld (h : Tracked s) (hs : s.releaseOld = some s') : Tracked s' := by
  unfold releaseOld at hs
  split at hs
  · rename_i old_frame hw
    have hrun := h.stopped.running (s := s) (by rw [hw]; intro hc; cases hc)
    obtain ⟨-, hsub, hpend, hlast, hpres, hdes, hsubm, hdrop⟩ := release_fields s old_frame
    rw [← Option.some.inj hs]
    have hcust : Custody s.ledger s.created s.released (frameHandles old_frame ++
        (s.submissions.flatMap Submission.owned ++
          (frameHandles s.pending_ ++ frameHandles s.last_presented_))) := by
      refine h.custody.perm (List.perm_iff_count.mpr fun a => ?_)
      simp only [owned_running hrun, hw, WorkerPc.owned, List.count_append]
      omega
    refine ⟨?_, ⟨hsub ▸ h.layers.submissions, hpend ▸ h.layers.pending, hlast ▸ h.layers.last,
      fun _ _ hc => ?_, fun _ hc => ?_⟩, ?_, ⟨?_, fun hc => ?_⟩⟩
    · refine (custody_release hcust).perm (List.Perm.of_eq ((owned_running ?_).trans ?_))
      · unfold Joined
        dsimp only
        rw [hdes]
        exact hrun
      · dsimp only
        rw [hsub, hpend, hlast]
        rfl
    · cases hc
    · cases hc
    · have hc := h.counted
      unfold pendingCount inFlight at *
      dsimp only
      rw [hw] at hc
      rw [hsubm, hpres, hdrop, hpend]
      exact hc
    · show (s.release old_frame).destructor ≠ _ → (s.release old_frame).submissions = _
      rw [hdes, hsub]
      exact h.stopped.submissions
    · unfold Joined at hc
      dsimp only at hc
      rw [hdes] at hc
      exact absurd hc hrun
  · cases hs

theorem tracked_count (h : Tracked s) (hs : s.count = some s') : Tracked s' := by
  unfold count at hs
  split at hs
  · rename_i hw
    have hrun := h.stopped.running (s := s) (by rw [hw]; intro hc; cases hc)
    rw [← Option.some.inj hs]
    refine ⟨h.custody_move rfl rfl rfl ?_, ⟨h.layers.submissions, h.layers.pending, h.layers.last,
      fun _ _ hc => ?_, fun _ hc => ?_⟩, ?_, ⟨h.stopped.submissions, fun hc => absurd hc hrun⟩⟩
    · refine List.Perm.trans (List.Perm.of_eq (owned_running hrun)) ?_
      rw [owned_running hrun, hw]
      exact List.Perm.refl _
    · cases hc
    · cases hc
    · have hc := h.counted
      unfold pendingCount inFlight at *
      rw [hw] at hc
      dsimp only at hc ⊢
      omega
  · cases hs

theorem tracked_stop (h : Tracked s) (hs : s.stop = some s') : Tracked s' := by
  unfold stop at hs
  split_ifs at hs with hd
  rw [← Option.some.inj hs]
  have hrun : ¬ s.Joined := by
    rintro (hc | hc) <;> rw [hd.1] at hc <;> cases hc
  refine ⟨h.custody_move rfl rfl rfl ?_, ⟨h.layers.submissions, h.layers.pending,
    h.layers.last, h.layers.drawing, h.layers.redrawing⟩, h.counted, ⟨fun _ => ?_, fun hc => ?_⟩⟩
  · exact List.Perm.of_eq (owned_running hrun).symm
  · exact List.isEmpty_iff.mp hd.2
  · rcases hc with hc | hc <;> cases hc

/-- Releasing a frame touches nothing but the tables and the books. -/
theorem LayersOwned.release (h : LayersOwned s) (frame : Option Frame) (destructor : DestructorPc) :
    LayersOwned { s.release frame with destructor } := by
  cases frame <;> exact ⟨h.submissions, h.pending, h.last, h.drawing, h.redrawing⟩

theorem counted_release (h : s.submitted_ = s.presented_ + s.dropped_ + s.pendingCount + s.inFlight)
    (frame : Option Frame) (destructor : DestructorPc) :
    (s.release frame).submitted_ = (s.release frame).presented_ + (s.release frame).dropped_ +
      pendingCount { s.release frame with destructor } + inFlight { s.release frame with destructor } := by
  cases frame <;> exact h

theorem tracked_destroy (h : Tracked s) (hs : s.destroy = some s') : Tracked s' := by
  unfold destroy at hs
  split at hs
  · -- the worker has returned: the pending frame is released
    rename_i hd hw
    obtain ⟨hwork, hsub, -, hlast, -, -, -, -⟩ := release_fields s s.pending_
    have hno : s.submissions = [] := h.stopped.submissions (by rw [hd]; intro hc; cases hc)
    have hrun : ¬ s.Joined := by
      rintro (hc | hc) <;> rw [hd] at hc <;> cases hc
    have hcust : Custody s.ledger s.created s.released
        (frameHandles s.pending_ ++ frameHandles s.last_presented_) := by
      have hown := h.custody
      rw [owned_running hrun, hno, hw] at hown
      exact hown
    rw [← Option.some.inj hs]
    refine ⟨(custody_release hcust).perm ?_, h.layers.release _ _, counted_release h.counted _ _,
      ⟨fun _ => hsub.trans hno, fun _ => hwork.trans hw⟩⟩
    unfold owned kept
    dsimp only
    rw [hsub, hno, hwork, hw, hlast]
    exact List.Perm.refl _
  · rename_i hd
    obtain ⟨hwork, hsub, -, -, -, -, -, -⟩ := release_fields s s.last_presented_
    have hno : s.submissions = [] := h.stopped.submissions (by rw [hd]; intro hc; cases hc)
    have hw := h.stopped.worker (Or.inl hd)
    have hcust : Custody s.ledger s.created s.released (frameHandles s.last_presented_ ++ []) := by
      have hown := h.custody
      unfold owned kept at hown
      rw [hno, hw, hd] at hown
      rw [List.append_nil]
      exact hown
    rw [← Option.some.inj hs]
    refine ⟨(custody_release hcust).perm ?_, h.layers.release _ _, counted_release h.counted _ _,
      ⟨fun _ => hsub.trans hno, fun _ => hwork.trans hw⟩⟩
    unfold owned kept
    dsimp only
    rw [hsub, hno, hwork, hw]
    exact List.Perm.refl _
  · cases hs

/-- What one step preserves. -/
theorem tracked_step {op : ComposerOp} (h : Tracked s) (hfresh : s.FreshHandles op)
    (hs : s.step op = some s') : Tracked s' := by
  cases op with
  | guest op => exact tracked_guest h hfresh hs
  | submit_layers win_layers =>
    simp only [step] at hs
    split_ifs at hs with hd
    rw [← Option.some.inj hs]
    exact tracked_submit h hd
  | freeze k gl => exact tracked_freeze h hfresh hs
  | reject k => exact tracked_reject h hs
  | commit k => exact tracked_commit h hs
  | request_redraw =>
    rw [← Option.some.inj hs]
    exact h.worker rfl rfl h.layers.drawing h.layers.redrawing h.stopped.worker
  | wake windows => exact tracked_wake h hs
  | draw => exact tracked_draw h hs
  | releaseOld => exact tracked_releaseOld h hs
  | count => exact tracked_count h hs
  | stop => exact tracked_stop h hs
  | destroy => exact tracked_destroy h hs

theorem tracked_init (configs : Nat) : Tracked (composerMachine configs).init := by
  have hspares : Spares (· ∈ (∅ : OrdSet HandleType)) (OrdMap.find? ∅) 1 1
      { m_configs := configs : Renderer } := by
    refine ⟨not_mem_empty _, fun s w hw => ?_, Or.inl rfl, fun _ _ => rfl, fun h ref hf => ?_,
      fun h ref hf => ?_⟩
    · cases hw
    · cases hf
    · cases hf
  refine ⟨⟨hspares, List.nodup_nil, fun h hh => ?_, fun h p hh => ?_, List.nodup_nil, fun h o hh => ?_⟩,
    ⟨fun sub hsub => ?_, fun _ hc => ?_, fun _ hc => ?_, fun _ _ hc => ?_, fun _ hc => ?_⟩, rfl,
    .of_notCalled rfl⟩
  · cases hh
  · cases hh
  · cases hh
  · cases hsub
  · cases hc
  · cases hc
  · cases hc
  · cases hc

/-- What the presentation queue promises about its snapshots. -/
structure SnapshotsOwned (s : Composer) : Prop where
  /-- Nothing is released twice. -/
  once : s.released.Nodup
  /-- Only snapshots are released. -/
  snapshots : ∀ h o, (h, o) ∈ s.released → ∃ p, o = some p ∧ (h, p) ∈ s.created
  /-- A snapshot is in the table until it is released, and not any longer. -/
  alive : ∀ h p, (h, p) ∈ s.created →
    ((h, some p) ∉ s.released ↔ ∃ ref, s.buffers.find? h = some ref ∧ ref.cb = p)
  /-- Until then it belongs to a submission, to the worker, or to one of the two frames kept. -/
  held : ∀ h p, (h, p) ∈ s.created → (h, some p) ∉ s.released → h ∈ s.owned
  /-- What the worker draws is a snapshot that was not released. -/
  drawn : ∀ rd ∈ s.nextDraw, ∃ p, (rd.buffer, p) ∈ s.created ∧ (rd.buffer, some p) ∉ s.released
  counted : s.submitted_ = s.presented_ + s.dropped_ + s.pendingCount + s.inFlight
  /-- The destructor leaves no snapshot behind. -/
  gone : s.destructor = .done → ∀ h p, (h, p) ∈ s.created → (h, some p) ∈ s.released

/-- The layers to be drawn next are in the hands of the composer. -/
theorem nextDraw_owned (h : Tracked s) {rd : Renderable} (hrd : rd ∈ s.nextDraw) : rd.buffer ∈ s.owned := by
  unfold nextDraw at hrd
  split at hrd
  · rename_i win renderables windows hw
    rw [owned_running (h.stopped.running (by rw [hw]; intro hc; cases hc))]
    have hm := h.layers.redrawing _ hw win renderables List.mem_cons_self rd hrd
    exact List.mem_append_right _ (List.mem_append_right _ (List.mem_append_right _ hm))
  · rename_i frame win renderables windows hw
    obtain ⟨hnamed, hmem⟩ := h.layers.drawing _ _ hw
    have hm := hnamed win renderables (hmem _ List.mem_cons_self) rd hrd
    unfold owned
    rw [hw]
    exact List.mem_append_right _ (List.mem_append_left _ hm)
  · cases hrd

theorem Tracked.snapshotsOwned (h : Tracked s) : SnapshotsOwned s := by
  have hc := h.custody
  -- a released snapshot is gone, the others are in somebody's hands
  have hgone : ∀ k p, (k, some p) ∈ s.released → ∀ ref, s.buffers.find? k = some ref → ref.cb ≠ p := by
    intro k p hk ref hf
    obtain ⟨p', hp, -, hne⟩ := hc.gone k _ hk
    exact Option.some.inj hp ▸ hne ref hf
  have hheld : ∀ k p, (k, p) ∈ s.created → (k, some p) ∉ s.released →
      k ∈ s.owned ∧ ∃ ref, s.buffers.find? k = some ref ∧ ref.cb = p := fun k p hk hn =>
    (hc.known k p hk).2.resolve_left hn
  refine ⟨hc.once, fun k o hk => ?_, fun k p hk => ⟨fun hn => (hheld k p hk hn).2, ?_⟩,
    fun k p hk hn => (hheld k p hk hn).1, fun rd hrd => ?_, h.counted, fun hd k p hk => ?_⟩
  · obtain ⟨p, ho, hcr, -⟩ := hc.gone k o hk
    exact ⟨p, ho, hcr⟩
  · rintro ⟨ref, hf, hcb⟩ hrel
    exact hgone k p hrel ref hf hcb
  · obtain ⟨-, ref, hf, -, hcr⟩ := hc.live _ (nextDraw_owned h hrd)
    exact ⟨ref.cb, hcr, fun hrel => hgone _ _ hrel ref hf rfl⟩
  · by_contra hn
    have hown := (hheld k p hk hn).1
    unfold owned kept at hown
    rw [h.stopped.submissions (by rw [hd]; intro hc; cases hc), h.stopped.worker (Or.inr hd), hd] at hown
    cases hown

end Composer

open Composer

/-- **Ownership of snapshots.** In every run in which no colour buffer goes under the handle of a live
one, and no copy under a handle the guest was ever given, every snapshot is released once and drawn
only before that, and the destructor leaves none behind. -/
theorem snapshots_owned (configs : Nat) (ops : List ComposerOp)
    (hfresh : (composerMachine configs).AllSteps FreshHandles (composerMachine configs).init ops) :
    (composerMachine configs).AllStates SnapshotsOwned (composerMachine configs).init ops :=
  Machine.allStates_of_allSteps (fun _ _ _ h hC hs => tracked_step h hC hs)
    (fun _ h => h.snapshotsOwned) (tracked_init configs) hfresh

/-- A layer on the colour buffer `h`. -/
def layerOn (h : HandleType) : Renderable :=
  { name := "layer", buffer := h, screen_position := default, crop := default }

/-- Where the next handle is free, nothing else is ahead of it. -/
theorem behind_first {S : HandleType → Prop} {r : Renderer} (hfree : ¬ r.Taken (r.slot 1))
    (hS : ¬ S (r.slot 1)) : r.Behind S := by
  intro j hj1 hj2 hm
  rcases Nat.eq_or_lt_of_le hj1 with rfl | hj
  · exact absurd hm hS
  · exact Or.inr ⟨1, Nat.le_refl _, hj, hfree⟩

/-- One layer is copied from the tables as they are. -/
theorem copiesFresh_single {w : World} {issued : HandleType → Prop} {rd : Renderable}
    {gl : HandleType → Bool} (hb : w.renderer.BuffersBehind) (hi : w.renderer.Behind issued) :
    w.CopiesFresh issued [rd] gl := by
  intro r h hg
  generalize hop : Op.retain_frame [rd] gl = op at hg
  cases hg with
  | create step gen => exact ⟨hb, hi⟩
  | @snapshot gl' pre post rd' st source bytes cb h r' loop check object gen =>
    obtain ⟨hl, -⟩ := Op.retain_frame.inj hop
    cases pre with
    | nil =>
      cases loop
      exact ⟨hb, hi⟩
    | cons a pre =>
      have := congrArg List.length hl
      simp at this

/-- A frame is submitted, presented and released again. -/
def oneFrame : List ComposerOp :=
  [.guest (.createColorBuffer 1 1 GL_RGBA true), .submit_layers [(some 0, [layerOn 1])],
    .freeze 0 fun _ => true, .commit 0, .wake [], .draw, .draw, .releaseOld, .count, .stop, .wake [],
    .destroy, .destroy]

theorem snapshots_owned_oneFrame :
    ((composerMachine 1).exec (composerMachine 1).init oneFrame).isSome ∧
    (composerMachine 1).AllSteps FreshHandles (composerMachine 1).init oneFrame ∧
      (composerMachine 1).AllStates SnapshotsOwned (composerMachine 1).init oneFrame := by
  have hfresh : (composerMachine 1).AllSteps FreshHandles (composerMachine 1).init oneFrame := by
    refine (Machine.allSteps_cons rfl).mpr ⟨?_, ?_⟩
    · intro r h hg
      cases hg
      exact behind_first (by decide) (by decide)
    refine (Machine.allSteps_cons rfl).mpr ⟨trivial, ?_⟩
    refine (Machine.allSteps_cons rfl).mpr ⟨?_, ?_⟩
    · intro done win renderables todo frozen_lists hk
      cases hk
      exact copiesFresh_single (behind_first (by decide) (by decide))
        (behind_first (by decide) (by decide))
    repeat refine (Machine.allSteps_cons rfl).mpr ⟨trivial, ?_⟩
    exact trivial
  exact ⟨rfl, hfresh, snapshots_owned 1 oneFrame hfresh⟩

/-! ## A snapshot under the guest's handle -/

/-- The composer at rest over a renderer whose colour buffer 1 belongs to the guest. -/
def atRest (world : World) : Composer :=
  { ledger := { world, issued := (∅ : OrdSet HandleType).insert 1 () } }

/-- The operations of `spin` are entered nowhere in the books. -/
theorem guest_spin {n : Nat} (hn : n + 1 < 2 ^ 32) :
    (composerMachine 1).exec (atRest (overtaking 1)) ((spin n).map .guest) =
      some (atRest (overtaking (n + 1))) := by
  have hlift : ∀ {w w' : World} {op : Op}, (op = .createRenderContext 1 0 0 true ∨
      ∃ h, op = .DestroyRenderContext 1 h) → (renderMachine 1).step w op = some w' →
      (composerMachine 1).step (atRest w) (.guest op) = some (atRest w') := by
    intro w w' op hop hs
    obtain ⟨⟨w1, rep⟩, hstep, rfl⟩ := Option.map_eq_some_iff.mp hs
    show (atRest w).guest op = _
    unfold Composer.guest
    rcases hop with rfl | ⟨h, rfl⟩
    · rw [if_pos ⟨rfl, Bool.false_ne_true⟩, show (atRest w).ledger.world = w from rfl, hstep]
      rfl
    · rw [if_pos ⟨rfl, Bool.false_ne_true⟩, show (atRest w).ledger.world = w from rfl, hstep]
      rfl
  induction n with
  | zero => rfl
  | succ n ih =>
    obtain ⟨w1, h1, h2⟩ := Machine.exec_cons (spin_round hn)
    obtain ⟨w2, h2, h3⟩ := Machine.exec_cons h2
    rw [spin, List.map_append, Machine.exec_append, ih (by omega)]
    simp only [List.map_cons, List.map_nil, Option.bind_some, Machine.exec, hlift (Or.inl rfl) h1,
      hlift (Or.inr ⟨_, rfl⟩) h2]
    rw [Option.some.inj h3]

/-- The guest's colour buffer is submitted, and closed before the worker draws its snapshot. -/
def closedUnderway : List ComposerOp :=
  [.submit_layers [(some 0, [layerOn 1])], .freeze 0 fun _ => true, .commit 0,
    .guest (.closeColorBuffer 1), .wake []]

/-- Once the counter has come around to the guest's colour buffer 1, its snapshot goes under the same
handle, and the guest closes it instead. -/
theorem snapshot_closed_by_guest : ¬ ∀ (configs : Nat) (s : Composer),
    (composerMachine configs).Reachable s → SnapshotsOwned s := by
  intro hall
  have hreach : (composerMachine 1).Reachable (atRest (overtaking 4294967295)) := by
    refine ⟨[.guest (.startThread 1), .guest (.createColorBuffer 1 1 GL_RGBA true)] ++
      (spin 4294967294).map .guest, ?_⟩
    rw [Machine.exec_append, show (composerMachine 1).exec (composerMachine 1).init
      [.guest (.startThread 1), .guest (.createColorBuffer 1 1 GL_RGBA true)] =
        some (atRest (overtaking 1)) from rfl, Option.bind_some]
    exact guest_spin (n := 4294967294) (by norm_num)
  obtain ⟨s, hs, hdraw, hfind⟩ : ∃ s, (composerMachine 1).exec (atRest (overtaking 4294967295))
      closedUnderway = some s ∧ s.nextDraw = [layerOn 1] ∧ s.buffers.find? 1 = none := ⟨_, rfl, rfl, rfl⟩
  have howned : SnapshotsOwned s := by
    obtain ⟨is, his⟩ := hreach
    refine hall 1 s ⟨is ++ closedUnderway, ?_⟩
    rw [Machine.exec_append, his]
    exact hs
  obtain ⟨p, hc, hn⟩ := howned.drawn (layerOn 1) (hdraw ▸ List.mem_singleton.mpr rfl)
  obtain ⟨ref, hf, -⟩ := (howned.alive _ p hc).mp hn
  exact absurd (hf.symm.trans hfind) (fun hc => by cases hc)

end AnboxReboxed.Graphics
