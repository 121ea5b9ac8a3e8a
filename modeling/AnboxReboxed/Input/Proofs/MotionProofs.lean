import AnboxReboxed.Input.Pipeline
import AnboxReboxed.Input.Proofs.PipelineProofs

/-!
# Proofs: where coalescing leaves the pointer

Nothing but coalescing changes what is left of the submitted batches when none is lost. An absolute motion may
take the place of any other one; a relative motion may not, unless the other one changes nothing.
-/

namespace AnboxReboxed.Input

open AnboxReboxed.Lib

namespace Dispatcher

variable {l : Limits} {s s' : Dispatcher} {b : EventBatch} {o : Outcome} {start : Position}

/-! ## One step of the dispatcher -/

/-- The worker moves batches along, and loses none. -/
theorem Worked.flow_of_nothingLost (h : Worked s s') (hlost : s'.NothingLost) :
    s'.flow = s.flow ∧ s'.calls = s.calls := by
  refine ⟨?_, h.suffix.1⟩
  cases h with
  | pop hworker hqueue => simp [flow_eq, hworker, hqueue, Worker.batch, Dispatcher.delivered]
  | stale hworker hkept =>
    have hdropped : s.diagnostics_.dropped + 1 = 0 := hlost.dropped
    omega
  | deliver hworker => simp [flow_eq, hworker, Worker.batch, Dispatcher.delivered]
  | delivered hworker => simp [flow_eq, hworker, Worker.batch, Dispatcher.delivered]
  | failed hworker hnext =>
    have hfailed : true = false := hlost.delivered
    cases hfailed
  | handled hworker => simp [flow_eq, hworker, Worker.batch, Dispatcher.delivered]
  | exit hworker hqueue hstop => simp [flow_eq, hworker, Worker.batch, Dispatcher.delivered]
  | handler => rfl
  | stop => rfl

theorem inPlace_iff_follows {left all : List EventBatch} (hflow : s.flow = left) (henqueued : s.enqueued = all) :
    s.InPlace start ↔ Follows Position.move isBoundary start left all := by
  rw [← hflow, ← henqueued]
  rfl

theorem Worked.inPlace (h : Worked s s') (hlost : s'.NothingLost) (hs : s.InPlace start) : s'.InPlace start := by
  obtain ⟨hflow, hcalls⟩ := h.flow_of_nothingLost hlost
  exact (inPlace_iff_follows hflow (by rw [enqueued, hcalls, enqueued])).mpr hs

/-- Where batches are taken, the outcome tells whether one was replaced. -/
theorem submit_coalesced_iff {batch : EventBatch} {now enqueued : UInt64} (hevents : batch.events ≠ []) (hopen : s.Open)
    (h : Submitted l s b o (s.submit l batch now enqueued).1) (old : EventBatch) :
    o = .coalesced old ↔ coalesces s.queue_ batch = some old := by
  have hcalls := h.calls
  have hclosed : (s.stopping_ || s.transport_failed_) = false := by rw [hopen.1, hopen.2, Bool.or_false]
  have hsame : coalesces s.numbered.queue_
      { stamped batch now enqueued with transport_sequence := s.numbered.next_sequence_ } =
        coalesces s.queue_ batch := rfl
  unfold submit at hcalls
  rw [if_neg hevents] at hcalls
  simp only [hclosed, Bool.false_eq_true, if_false, hsame] at hcalls
  cases hcoalesces : coalesces s.queue_ batch with
  | some other =>
    rw [hcoalesces] at hcalls
    obtain ⟨-, ho⟩ := Prod.mk.inj (List.singleton_inj.mp (List.append_cancel_left hcalls))
    rw [← ho]
    simp
  | none =>
    rw [hcoalesces] at hcalls
    refine iff_of_false (fun ho => ?_) (fun h => by cases h)
    subst ho
    dsimp only at hcalls
    split at hcalls
    · obtain ⟨-, hlast⟩ := List.append_inj' hcalls rfl
      cases hlast
    · obtain ⟨-, hlast⟩ := List.append_inj' hcalls rfl
      cases hlast

/-- A call that loses nothing keeps the pointer in place if the motion that it replaces, if it does, makes no
difference. -/
theorem Submitted.inPlace_iff (h : Submitted l s b o s') (hevents : b.events ≠ []) (hlost : s'.NothingLost)
    (ho : ∀ old, o = .coalesced old ↔ coalesces s.queue_ b = some old) (hs : s.InPlace start) :
    s'.InPlace start ↔ ∀ old ∈ coalesces s.queue_ b,
      ((s.flow.dropLast.foldl Position.move start).move old).move b =
        (s.flow.dropLast.foldl Position.move start).move b := by
  have hother : (∀ old, o ≠ .coalesced old) → ∀ old ∈ coalesces s.queue_ b,
      ((s.flow.dropLast.foldl Position.move start).move old).move b =
        (s.flow.dropLast.foldl Position.move start).move b :=
    fun hno old hold => absurd ((ho old).mpr hold) (hno old)
  have henqueued := h.enqueued
  cases h with
  | empty hempty => exact absurd hempty hevents
  | closed hevents hclosed =>
    have hrejected := hlost.accepted (b, .closed) (List.mem_append_right _ List.mem_cons_self)
    cases hrejected
  | @coalesced init old hevents hopen hseq hqueue hold hkind hstream =>
    have hcoalesces : coalesces s.queue_ b = some old := (ho old).mp rfl
    have hflow : s.flow = s.delivered ++ s.worker.batch ++ init ++ [old] := by
      rw [flow_eq, hqueue, List.append_assoc _ init]
    have hdrop : s.flow.dropLast = s.delivered ++ s.worker.batch ++ init := by
      rw [hflow, List.dropLast_concat]
    rw [hcoalesces, hdrop]
    have hfollows : Follows Position.move isBoundary start (s.delivered ++ s.worker.batch ++ init ++ [old])
        s.enqueued := hflow ▸ hs
    have hreplace := hfollows.replace_iff (b := b) (by simp [isBoundary, hold]) (by simp [isBoundary, hkind])
    rw [inPlace_iff_follows (flow_eq.trans (List.append_assoc _ _ _).symm) henqueued]
    simp only [Option.mem_def, Option.some.injEq, forall_eq']
    exact hreplace
  | queued hevents hopen hseq hroom =>
    refine iff_of_true ?_ (hother fun old h => by cases h)
    refine (inPlace_iff_follows ?_ henqueued).mpr (hs.snoc b)
    rw [flow_eq]
    show s.delivered ++ s.worker.batch ++ (s.queue_ ++ [b]) = s.delivered ++ (s.worker.batch ++ s.queue_) ++ [b]
    simp only [List.append_assoc]
  | evicted hevents hopen hseq hover hqueue hd =>
    have hdropped : s.diagnostics_.dropped + 1 = 0 := hlost.dropped
    omega
  | full hevents hopen hover hnone =>
    have hdropped : s.diagnostics_.dropped + 1 = 0 := hlost.dropped
    omega

/-- Until everything is delivered the flow only goes on behind what has been delivered. -/
theorem InPlace.positionKept (hs : s.InPlace start) : s.PositionKept start where
  boundary := by
    intro before batch after hdelivered hboundary
    refine hs.meets before batch (after ++ s.pending) ?_ hboundary
    rw [hdelivered, List.append_assoc, List.cons_append]
  drained := by
    intro hpending
    rw [hs.last, hpending, List.append_nil]

end Dispatcher

namespace Pipeline

variable {l : Limits} {s s' : Pipeline} {op : PipelineOp} {c : InputCall} {start : Position}

/-! ## One step of the pipeline -/

theorem open_of_nothingLost {d d' : Dispatcher} {b : EventBatch} {o : Outcome} (h : Dispatcher.Submitted l d b o d')
    (hevents : b.events ≠ []) (hlost : d'.NothingLost) : d.Open := by
  cases h with
  | empty hempty => exact absurd hempty hevents
  | closed hevents hclosed =>
    have hrejected := hlost.accepted (b, .closed) (List.mem_append_right _ List.mem_cons_self)
    cases hrejected
  | coalesced hevents hopen => exact hopen
  | queued hevents hopen => exact hopen
  | evicted hevents hopen => exact hopen
  | full hevents hopen => exact hopen

/-- The dispatcher looks only at what the stamps leave alone. -/
theorem coalesces_stamped {batch b : EventBatch} (h : Dispatcher.Stamped batch b) (queue : List EventBatch) :
    coalesces queue b = coalesces queue batch := by
  unfold coalesces
  rw [h.kind, h.stream]

theorem move_stamped {batch b : EventBatch} (h : Dispatcher.Stamped batch b) (p : Position) :
    p.move b = p.move batch := by
  unfold Position.move
  rw [h.events]

/-- A call, of the event thread or of the destructor. -/
theorem call_inPlace_iff (now enqueued : UInt64) (hlost : (s.call l c now enqueued).dispatcher.NothingLost)
    (hs : s.dispatcher.InPlace start) :
    (s.call l c now enqueued).dispatcher.InPlace start ↔ s.Harmless start (.call c now enqueued) := by
  obtain ⟨act, hact, hsubmits, -, hdispatcher⟩ := call_spec l s c now enqueued
  rw [hdispatcher] at hlost ⊢
  show _ ↔ ∀ batch ∈ s.producers.submits c, _
  rw [hsubmits]
  cases act with
  | quiet after => exact iff_of_true hs fun batch hbatch => absurd hbatch List.not_mem_nil
  | submit batch accepted rejected =>
    have hne : batch.events ≠ [] := hact.events_ne_nil
    obtain ⟨b, o, hstamped, hsub, -⟩ := Dispatcher.submit_result l s.dispatcher batch now enqueued
    have hb : b.events ≠ [] := by rwa [hstamped.events]
    have ho : ∀ old, o = .coalesced old ↔ coalesces s.dispatcher.queue_ b = some old := by
      intro old
      rw [coalesces_stamped hstamped]
      exact Dispatcher.submit_coalesced_iff hne (open_of_nothingLost hsub hb hlost) hsub old
    refine (hsub.inPlace_iff hb hlost ho hs).trans ?_
    rw [coalesces_stamped hstamped]
    simp only [Act.batches, List.mem_singleton, forall_eq, move_stamped hstamped]
    exact Iff.rfl

/-- Forced releases do not coalesce. -/
theorem harmless_release_all (hc : ReleaseAll c) (now enqueued : UInt64) : s.Harmless start (.call c now enqueued) := by
  intro batch hbatch old hold
  obtain ⟨-, -, hkind, -⟩ := Dispatcher.coalesces_eq_some hold
  rw [kind_of_release_all hc hbatch] at hkind
  cases hkind

/-- Only calls of the event thread put motion into the queue. -/
theorem other_inPlace (hop : ∀ c now enqueued, op ≠ .call c now enqueued) (h : s.step l op = some s')
    (hlost : s'.dispatcher.NothingLost) (hs : s.dispatcher.InPlace start) : s'.dispatcher.InPlace start := by
  cases step_stepped h with
  | @call c now enqueued hstage hcall hproducers hdispatcher hdevices =>
    rw [hdispatcher] at hlost ⊢
    rcases hcall with rfl | hcall
    · exact absurd rfl (hop c now enqueued)
    · exact (call_inPlace_iff now enqueued hlost hs).mpr (harmless_release_all hcall now enqueued)
  | finish hop hworker hresult hdispatcher => exact (Dispatcher.finish_worked hdispatcher).inPlace hlost hs
  | work hwork => exact hwork.inPlace hlost hs
  | reset hhandling hdispatcher =>
    rcases hdispatcher with hwork | hsame
    · exact hwork.inPlace hlost hs
    · rwa [hsame]
  | create hdispatcher => rwa [hdispatcher]

/-- A step that loses nothing keeps the pointer in place exactly if it is harmless. -/
theorem step_inPlace_iff (h : s.step l op = some s') (hlost : s'.dispatcher.NothingLost)
    (hs : s.dispatcher.InPlace start) : s'.dispatcher.InPlace start ↔ s.Harmless start op := by
  by_cases hop : ∃ c now enqueued, op = .call c now enqueued
  · obtain ⟨c, now, enqueued, rfl⟩ := hop
    obtain ⟨-, rfl⟩ := of_guard_eq_some h
    exact call_inPlace_iff now enqueued hlost hs
  · refine iff_of_true (other_inPlace (fun c now enqueued heq => hop ⟨c, now, enqueued, heq⟩) h hlost hs) ?_
    cases op with
    | call c now enqueued => exact absurd ⟨c, now, enqueued, rfl⟩ hop
    | _ => trivial

/-! ## Which motion may replace which -/

/-- The motion of the pointer that waits last in the queue. -/
def pendingMotion (s : Pipeline) : Option EventBatch :=
  coalesces s.dispatcher.queue_ { stream := .Pointer, kind := .Motion }

/-- An absolute motion may replace every other one. -/
theorem harmless_absolute (x y : Int32) (time now enqueued : UInt64) :
    s.Harmless start (.call (.absolute x y time) now enqueued) := by
  intro batch hbatch old hold
  have hbatch' : batch ∈ [_] := hbatch
  rw [List.mem_singleton.mp hbatch']
  rfl

/-- The events of a relative motion. -/
def relativeEvents (dx dy : Int32) : List Event := Pointer.moved [(REL_X, dx), (REL_Y, dy)] ++ [syn_report]

theorem moved_relative_eq_nil {dx dy : Int32} : Pointer.moved [(REL_X, dx), (REL_Y, dy)] = [] ↔ dx = 0 ∧ dy = 0 := by
  by_cases hx : dx = 0 <;> by_cases hy : dy = 0 <;> simp [Pointer.moved, hx, hy]

theorem apply_relative (p : Position) (dx dy : Int32) :
    (relativeEvents dx dy).foldl Position.apply p = ⟨p.x + dx.toInt, p.y + dy.toInt⟩ := by
  have hzero : (0 : Int32).toInt = 0 := rfl
  have hx : p.apply ⟨EV_REL, REL_X, dx⟩ = { p with x := p.x + dx.toInt } := rfl
  have hy : ∀ q : Position, q.apply ⟨EV_REL, REL_Y, dy⟩ = { q with y := q.y + dy.toInt } := fun q => rfl
  have hsyn : ∀ q : Position, q.apply syn_report = q := fun q => rfl
  by_cases hdx : dx = 0 <;> by_cases hdy : dy = 0 <;>
    simp [relativeEvents, Pointer.moved, hdx, hdy, hx, hy, hsyn, hzero]

/-- A relative motion may replace only one that changes nothing. -/
theorem harmless_relative_iff (dx dy : Int32) (time now enqueued : UInt64) :
    s.Harmless start (.call (.relative dx dy time) now enqueued) ↔
      (dx ≠ 0 ∨ dy ≠ 0 → ∀ old ∈ s.pendingMotion,
        ((s.dispatcher.delivered ++ s.dispatcher.pending).dropLast.foldl Position.move start).move old =
          (s.dispatcher.delivered ++ s.dispatcher.pending).dropLast.foldl Position.move start) := by
  show (∀ batch ∈ s.producers.submits (.relative dx dy time), _) ↔ _
  by_cases hmoved : Pointer.moved [(REL_X, dx), (REL_Y, dy)] = []
  · have hnone : s.producers.submits (.relative dx dy time) = [] := by
      simp only [Producers.submits, Producers.call, Pointer.relative, Pointer.send_moved, if_pos hmoved]
    have hstill := moved_relative_eq_nil.mp hmoved
    rw [hnone]
    refine iff_of_true (fun batch hbatch => absurd hbatch List.not_mem_nil) fun h => ?_
    exact absurd hstill (by tauto)
  · have hone : s.producers.submits (.relative dx dy time) =
        [{ stream := .Pointer, kind := .Motion, events := relativeEvents dx dy,
           source_sequence := s.producers.pointer.next_source_sequence_ + 1, source_time_ns := time }] := by
      simp only [Producers.submits, Producers.call, Pointer.relative, Pointer.send_moved, if_neg hmoved]
      rfl
    have hmoves : dx ≠ 0 ∨ dy ≠ 0 := by
      rw [moved_relative_eq_nil] at hmoved
      tauto
    rw [hone, imp_iff_right hmoves]
    simp only [List.mem_singleton, forall_eq]
    refine forall_congr' fun old => imp_congr_right fun _ => ?_
    -- adding the same to both sides makes no difference
    show (relativeEvents dx dy).foldl Position.apply _ = (relativeEvents dx dy).foldl Position.apply _ ↔ _
    rw [apply_relative, apply_relative, Position.mk.injEq, add_left_inj, add_left_inj]
    exact Position.ext_iff.symm

/-! ## Runs -/

theorem inPlace_init (l : Limits) (policy : RepeatPolicy) (start : Position) :
    (pipelineMachine l policy).init.dispatcher.InPlace start := Follows.nil

/-- In a run that loses nothing the flow leads to the right position in every state exactly if every step is
harmless. -/
theorem inPlace_iff_harmless {policy : RepeatPolicy} {is : List PipelineOp} :
    ∀ {s t : Pipeline}, s.dispatcher.InPlace start → (pipelineMachine l policy).exec s is = some t →
      (pipelineMachine l policy).AllStates (fun s => s.dispatcher.NothingLost) s is →
      ((pipelineMachine l policy).AllStates (fun s => s.dispatcher.InPlace start) s is ↔
        (pipelineMachine l policy).AllSteps (Harmless start) s is) := by
  induction is with
  | nil => exact fun hs _ _ => iff_of_true hs trivial
  | cons op is ih =>
    intro s t hs hexec hlost
    obtain ⟨s', h, hexec'⟩ := Machine.exec_cons hexec
    have hnext := (Machine.allSteps_of_allStates hlost).1.2 s' h
    have hiff := step_inPlace_iff h hnext hs
    rw [Machine.allStates_cons h, Machine.allSteps_cons h, and_iff_right hs]
    rw [Machine.allStates_cons h] at hlost
    constructor
    · intro hrest
      have hs' : s'.dispatcher.InPlace start := by
        cases is with
        | nil => exact hrest
        | cons op' is' => exact hrest.1
      exact ⟨hiff.mp hs', (ih hs' hexec' hlost.2).mp hrest⟩
    · rintro ⟨hop, hrest⟩
      exact (ih (hiff.mpr hop) hexec' hlost.2).mpr hrest

/-- In a run that loses nothing and whose steps are all harmless, the pointer is where it should be at every
boundary that is delivered, and when nothing is pending. -/
theorem position_kept (l : Limits) (policy : RepeatPolicy) (start : Position) (is : List PipelineOp)
    (hlost : (pipelineMachine l policy).AllStates (fun s => s.dispatcher.NothingLost)
      (pipelineMachine l policy).init is)
    (hharmless : (pipelineMachine l policy).AllSteps (Harmless start) (pipelineMachine l policy).init is) :
    (pipelineMachine l policy).AllStates (fun s => s.dispatcher.PositionKept start)
      (pipelineMachine l policy).init is := by
  refine Machine.allStates_of_allSteps (P := fun s => s.dispatcher.InPlace start) ?_
    (fun s hs => hs.positionKept) (inPlace_init l policy start)
    (Machine.allSteps_and hharmless (Machine.allSteps_of_allStates hlost))
  rintro s op s' hs ⟨hop, -, hnext⟩ h
  exact (step_inPlace_iff h (hnext s' h) hs).mpr hop

/-- Two absolute motions, of which the second takes the place of the first and is delivered. -/
def absolute_twice : List PipelineOp :=
  [.create_uinput_device .Pointer, .call (.absolute 5 5 1) 1 1, .call (.absolute 7 9 1) 1 1, .pop, .check 1,
    .finish [.written 72] 1]

theorem position_kept_absolute_twice :
    (pipelineMachine (Limits.ofArguments 384 256) .IgnoreHost).AllStates
      (fun s => s.dispatcher.PositionKept {}) (pipelineMachine (Limits.ofArguments 384 256) .IgnoreHost).init
      absolute_twice := by
  refine position_kept (Limits.ofArguments 384 256) .IgnoreHost {} absolute_twice ?_ ?_
  · iterate 6 refine (Machine.allStates_cons rfl).mpr ⟨⟨by decide, by decide, by decide⟩, ?_⟩
    exact ⟨by decide, by decide, by decide⟩
  · refine (Machine.allSteps_cons rfl).mpr ⟨trivial, ?_⟩
    iterate 2 refine (Machine.allSteps_cons rfl).mpr ⟨harmless_absolute _ _ _ _ _, ?_⟩
    iterate 3 refine (Machine.allSteps_cons rfl).mpr ⟨trivial, ?_⟩
    trivial

/-- Two relative motions, of which the second takes the place of the first and is delivered. -/
def relative_twice : List PipelineOp :=
  [.create_uinput_device .Pointer, .call (.relative 1 0 1) 1 1, .call (.relative 1 0 1) 1 1, .pop, .check 1,
    .finish [.written 48] 1]

/-- The first of the two is lost. -/
theorem position_lost :
    (pipelineMachine (Limits.ofArguments 384 256) .IgnoreHost).AllStates (fun s => s.dispatcher.NothingLost)
        (pipelineMachine (Limits.ofArguments 384 256) .IgnoreHost).init relative_twice ∧
      ¬ (pipelineMachine (Limits.ofArguments 384 256) .IgnoreHost).AllStates
        (fun s => s.dispatcher.PositionKept {}) (pipelineMachine (Limits.ofArguments 384 256) .IgnoreHost).init
        relative_twice := by
  constructor
  · iterate 6 refine (Machine.allStates_cons rfl).mpr ⟨⟨by decide, by decide, by decide⟩, ?_⟩
    exact ⟨by decide, by decide, by decide⟩
  · intro h
    have hkept : Dispatcher.PositionKept {} _ := h.last rfl
    have hsame := hkept.drained rfl
    exact absurd hsame (by decide)

end Pipeline

end AnboxReboxed.Input
