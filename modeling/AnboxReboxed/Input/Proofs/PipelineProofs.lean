import AnboxReboxed.Input.Pipeline
import AnboxReboxed.Input.Proofs.DispatcherProofs
import AnboxReboxed.Input.Proofs.ProducersProofs

/-!
# Proofs: what a step of the pipeline does

A step is a call with the dispatcher as its sink, the end of a delivery, another step of the worker, or a reset by
the failure handler. The calls that the destructor of the platform makes are calls like any other.
-/

namespace AnboxReboxed.Input

open AnboxReboxed.Lib Function

namespace Pipeline

variable {l : Limits} {s s' : Pipeline} {op : PipelineOp}

/-- What a call comes to, with the dispatcher as its sink. -/
theorem call_spec (l : Limits) (s : Pipeline) (c : InputCall) (now enqueued : UInt64) :
    ∃ act, Acts s.producers.held act ∧ s.producers.submits c = act.batches ∧
      (s.call l c now enqueued).producers.held =
        (act.run (fun d batch => d.submit l batch now enqueued) s.dispatcher).1 ∧
      (s.call l c now enqueued).dispatcher =
        (act.run (fun d batch => d.submit l batch now enqueued) s.dispatcher).2 := by
  obtain ⟨act, hact, hsubmits, hrun⟩ := s.producers.call_act c
  obtain ⟨hheld, hdispatcher⟩ := Prod.mk.inj (hrun _ (fun d batch => d.submit l batch now enqueued) s.dispatcher)
  exact ⟨act, hact, hsubmits, hheld, hdispatcher⟩

/-- A call of `release_all`. -/
def ReleaseAll (c : InputCall) : Prop := ∃ time, c = .keyboard_release_all time ∨ c = .pointer_release_all time

/-- What a step makes of the pipeline. -/
inductive Stepped (l : Limits) (s s' : Pipeline) (op : PipelineOp) : Prop where
  | call {c : InputCall} {now enqueued : UInt64} (hstage : s.stage ≠ .closed)
      (hop : op = .call c now enqueued ∨ ReleaseAll c)
      (hproducers : s'.producers = (s.call l c now enqueued).producers)
      (hdispatcher : s'.dispatcher = (s.call l c now enqueued).dispatcher) (hdevices : s'.devices = s.devices)
  | finish {batch : EventBatch} {result : Device × Bool} {writes : List WriteResult} {now : UInt64}
      (hop : op = .finish writes now) (hworker : s.dispatcher.worker = .delivering batch)
      (hresult : (s.devices batch.stream).deliver_events batch.events writes = some result)
      (hdispatcher : s.dispatcher.finish result.2 now = some s'.dispatcher) (hproducers : s'.producers = s.producers)
      (hdevices : s'.devices = update s.devices batch.stream result.1)
  | work (hwork : Dispatcher.Worked s.dispatcher s'.dispatcher) (hlog : s'.dispatcher.log = s.dispatcher.log)
      (hproducers : s'.producers = s.producers) (hdevices : s'.devices = s.devices)
  | reset {stream : Stream} (hhandling : s.dispatcher.worker = .handling)
      (hdispatcher : Dispatcher.Worked s.dispatcher s'.dispatcher ∨ s'.dispatcher = s.dispatcher)
      (hlog : s'.dispatcher.log = s.dispatcher.log) (hproducers : s'.producers = s.reset stream)
      (hdevices : s'.devices = s.devices)
  | create {stream : Stream} (hdispatcher : s'.dispatcher = s.dispatcher) (hproducers : s'.producers = s.producers)
      (hdevices : s'.devices = update s.devices stream (s.devices stream).create_uinput_device)

/-- A step of the dispatcher that is neither a call nor the end of a delivery. -/
def between : DispatcherOp → Bool
  | .submit _ _ _ => false
  | .finish _ _ => false
  | _ => true

/-- A step of the dispatcher leaves the log alone unless it ends a delivery, and `stopping_` unless it is `stop`. -/
theorem frame_of_step {dop : DispatcherOp} {d d' : Dispatcher} (h : d.step l dop = some d') :
    (between dop = true → d'.log = d.log) ∧ (dop ≠ .stop → d'.stopping_ = d.stopping_) := by
  cases dop with
  | submit batch now enqueued =>
    obtain ⟨b, o, -, hsub, -⟩ := Dispatcher.submit_result l d batch now enqueued
    cases Option.some.inj h
    refine ⟨fun hop => ?_, fun _ => hsub.frame.2.1⟩
    cases hop
  | pop =>
    simp only [Dispatcher.step, Dispatcher.pop] at h
    split at h
    · cases Option.some.inj h
      exact ⟨fun _ => rfl, fun _ => rfl⟩
    · cases h
  | check now =>
    simp only [Dispatcher.step, Dispatcher.check] at h
    split at h
    · split at h <;> cases Option.some.inj h <;> exact ⟨fun _ => rfl, fun _ => rfl⟩
    · cases h
  | finish ok now =>
    constructor
    · intro hop
      cases hop
    · intro _
      simp only [Dispatcher.step, Dispatcher.finish] at h
      split at h
      · split at h <;> cases Option.some.inj h <;> rfl
      · cases h
  | handler_returned =>
    obtain ⟨-, rfl⟩ := of_guard_eq_some h
    exact ⟨fun _ => rfl, fun _ => rfl⟩
  | worker_exit =>
    obtain ⟨-, rfl⟩ := of_guard_eq_some h
    exact ⟨fun _ => rfl, fun _ => rfl⟩
  | set_transport_failure_handler handler =>
    cases Option.some.inj h
    exact ⟨fun _ => rfl, fun _ => rfl⟩
  | stop =>
    cases Option.some.inj h
    exact ⟨fun _ => rfl, fun hop => absurd rfl hop⟩

theorem worked_of_step {dop : DispatcherOp} {d d' : Dispatcher} (h : d.step l dop = some d')
    (hop : between dop = true) : Dispatcher.Worked d d' ∧ d'.log = d.log := by
  refine ⟨Dispatcher.step_worked (fun batch now enqueued heq => ?_) h, (frame_of_step h).1 hop⟩
  rw [heq] at hop
  cases hop

/-- A step that only moves the worker. -/
theorem work_stepped {dop : DispatcherOp} {f : Dispatcher → Pipeline} (h : (s.dispatcher.step l dop).map f = some s')
    (hop : between dop = true) (hdispatcher : ∀ d, (f d).dispatcher = d)
    (hproducers : ∀ d, (f d).producers = s.producers) (hdevices : ∀ d, (f d).devices = s.devices) :
    Stepped l s s' op := by
  obtain ⟨d, hd, rfl⟩ := Option.map_eq_some_iff.mp h
  obtain ⟨hwork, hlog⟩ := worked_of_step hd hop
  rw [← hdispatcher d] at hwork hlog
  exact .work hwork hlog (hproducers d) (hdevices d)

theorem finish_stepped {writes : List WriteResult} {now : UInt64} (h : s.finish writes now = some s') :
    Stepped l s s' (.finish writes now) := by
  unfold Pipeline.finish at h
  split at h
  · rename_i batch hworker
    obtain ⟨result, hresult, h⟩ := Option.bind_eq_some_iff.mp h
    obtain ⟨d, hd, rfl⟩ := Option.map_eq_some_iff.mp h
    exact .finish rfl hworker hresult hd rfl rfl
  · cases h

theorem step_stepped (h : s.step l op = some s') : Stepped l s s' op := by
  cases op with
  | call c now enqueued =>
    obtain ⟨hstage, rfl⟩ := of_guard_eq_some h
    exact .call (by rw [hstage]; decide) (Or.inl rfl) rfl rfl rfl
  | pop => exact work_stepped h rfl (fun _ => rfl) (fun _ => rfl) (fun _ => rfl)
  | check now => exact work_stepped h rfl (fun _ => rfl) (fun _ => rfl) (fun _ => rfl)
  | finish writes now => exact finish_stepped h
  | handler_keyboard =>
    obtain ⟨⟨hworker, -⟩, rfl⟩ := of_guard_eq_some h
    exact .reset hworker (Or.inr rfl) rfl rfl rfl
  | handler_pointer =>
    obtain ⟨-, h⟩ := Option.ite_none_right_eq_some.mp h
    obtain ⟨d, hd, rfl⟩ := Option.map_eq_some_iff.mp h
    obtain ⟨hwork, hlog⟩ := worked_of_step hd rfl
    obtain ⟨hworker, -⟩ := Option.ite_none_right_eq_some.mp hd
    exact .reset hworker (Or.inl hwork) hlog rfl rfl
  | worker_exit => exact work_stepped h rfl (fun _ => rfl) (fun _ => rfl) (fun _ => rfl)
  | create_uinput_device stream =>
    cases Option.some.inj h
    exact .create rfl rfl rfl
  | shutdown_keyboard time now enqueued =>
    obtain ⟨hstage, rfl⟩ := of_guard_eq_some h
    exact .call (by rw [hstage]; decide) (Or.inr ⟨time, Or.inl rfl⟩) rfl rfl rfl
  | shutdown_pointer time now enqueued =>
    obtain ⟨hstage, rfl⟩ := of_guard_eq_some h
    exact .call (by rw [hstage]; decide) (Or.inr ⟨time, Or.inr rfl⟩) rfl rfl rfl
  | close =>
    obtain ⟨-, h⟩ := Option.ite_none_right_eq_some.mp h
    exact work_stepped h rfl (fun _ => rfl) (fun _ => rfl) (fun _ => rfl)
  | stop =>
    obtain ⟨-, h⟩ := Option.ite_none_right_eq_some.mp h
    exact work_stepped h rfl (fun _ => rfl) (fun _ => rfl) (fun _ => rfl)

theorem kind_of_release_all {p : Producers} {c : InputCall} (hc : ReleaseAll c) {b : EventBatch}
    (hb : b ∈ p.submits c) : b.kind = .ForcedRelease := by
  obtain ⟨time, hc⟩ := hc
  have hforced : ∀ (stream : Stream) (h : HeldCodes) (next : UInt64),
      b ∈ (h.release_all (fun batches batch => (batches ++ [batch], true)) stream [] next time).2.1 →
        b.kind = .ForcedRelease := by
    intro stream h next hmem
    unfold HeldCodes.release_all at hmem
    by_cases hempty : h.injected_held_ = ∅
    · rw [if_pos hempty] at hmem
      cases hmem
    · rw [if_neg hempty] at hmem
      rw [List.mem_singleton.mp hmem]
      rfl
  rcases hc with rfl | rfl
  · exact hforced .Keyboard p.keyboard.held _ hb
  · exact hforced .Pointer p.pointer.held _ hb

theorem is_release_of_release_all {p : Producers} {c : InputCall} (hc : ReleaseAll c) {b : EventBatch}
    (hb : b ∈ p.submits c) : is_release b = true := by
  simp [is_release, kind_of_release_all hc hb]

/-! ## When the dispatcher may be stopping -/

theorem stopping_of_call (l : Limits) (s : Pipeline) (c : InputCall) (now enqueued : UInt64) :
    (s.call l c now enqueued).dispatcher.stopping_ = s.dispatcher.stopping_ := by
  obtain ⟨act, -, -, -, hdispatcher⟩ := call_spec l s c now enqueued
  rw [hdispatcher]
  cases act with
  | quiet after => rfl
  | submit b accepted rejected =>
    obtain ⟨b', o, -, hsub, -⟩ := Dispatcher.submit_result l s.dispatcher b now enqueued
    exact hsub.frame.2.1

/-- A step of the dispatcher other than `stop`, at the same stage. -/
theorem stopped_of_work {dop : DispatcherOp} {f : Dispatcher → Pipeline}
    (hs : s.dispatcher.stopping_ = true → s.stage = .closed) (h : (s.dispatcher.step l dop).map f = some s')
    (hop : dop ≠ .stop) (hdispatcher : ∀ d, (f d).dispatcher = d) (hstage : ∀ d, (f d).stage = s.stage) :
    s'.dispatcher.stopping_ = true → s'.stage = .closed := by
  obtain ⟨d, hd, rfl⟩ := Option.map_eq_some_iff.mp h
  intro hstop
  rw [hdispatcher, (frame_of_step hd).2 hop] at hstop
  rw [hstage]
  exact hs hstop

/-- The dispatcher is stopped only when the keyboard and the pointer are gone. -/
theorem stopped_step (hs : s.dispatcher.stopping_ = true → s.stage = .closed) (h : s.step l op = some s') :
    s'.dispatcher.stopping_ = true → s'.stage = .closed := by
  have hrunning : ∀ {c now enqueued}, s.stage ≠ .closed →
      (s.call l c now enqueued).dispatcher.stopping_ = true → False := by
    intro c now enqueued hstage hstop
    rw [stopping_of_call] at hstop
    exact hstage (hs hstop)
  cases op with
  | call c now enqueued =>
    obtain ⟨hstage, rfl⟩ := of_guard_eq_some h
    exact fun hstop => absurd hstop (hrunning (by rw [hstage]; decide))
  | pop => exact stopped_of_work hs h (by decide) (fun _ => rfl) (fun _ => rfl)
  | check now => exact stopped_of_work hs h (fun h => nomatch h) (fun _ => rfl) (fun _ => rfl)
  | finish writes now =>
    unfold step Pipeline.finish at h
    dsimp only at h
    split at h
    · obtain ⟨result, -, h⟩ := Option.bind_eq_some_iff.mp h
      have hstep : (s.dispatcher.step l (.finish result.2 now)).map _ = some s' := h
      exact stopped_of_work hs hstep (fun h => nomatch h) (fun _ => rfl) (fun _ => rfl)
    · cases h
  | handler_keyboard =>
    obtain ⟨-, rfl⟩ := of_guard_eq_some h
    exact hs
  | handler_pointer =>
    obtain ⟨-, h⟩ := Option.ite_none_right_eq_some.mp h
    exact stopped_of_work hs h (by decide) (fun _ => rfl) (fun _ => rfl)
  | worker_exit => exact stopped_of_work hs h (by decide) (fun _ => rfl) (fun _ => rfl)
  | create_uinput_device stream =>
    cases Option.some.inj h
    exact hs
  | shutdown_keyboard time now enqueued =>
    obtain ⟨hstage, rfl⟩ := of_guard_eq_some h
    exact fun hstop => absurd hstop (hrunning (by rw [hstage]; decide))
  | shutdown_pointer time now enqueued =>
    obtain ⟨hstage, rfl⟩ := of_guard_eq_some h
    exact fun hstop => absurd hstop (hrunning (by rw [hstage]; decide))
  | close =>
    obtain ⟨-, h⟩ := Option.ite_none_right_eq_some.mp h
    obtain ⟨d, -, rfl⟩ := Option.map_eq_some_iff.mp h
    exact fun _ => rfl
  | stop =>
    obtain ⟨hstage, h⟩ := Option.ite_none_right_eq_some.mp h
    obtain ⟨d, -, rfl⟩ := Option.map_eq_some_iff.mp h
    exact fun _ => hstage

end Pipeline

end AnboxReboxed.Input
