import AnboxReboxed.Input.Dispatcher
import Mathlib.Data.List.Basic
import Mathlib.Tactic.Linarith

/-!
# Proofs: the laws of the input queue

What `submit` and the worker can do is said once (`Submitted`, `Transition`). From the outside the batches flow
through one list, what was delivered and then what is pending: a batch enters at the end, batches that need not
be kept leave anywhere, and a failure cuts the list off (`Transition.flow`).
-/

namespace AnboxReboxed.Input

open AnboxReboxed.Lib

variable {b d : EventBatch} {now : UInt64}

theorem kept_of_droppable (h : droppable d = true) : kept d = false := by
  simp only [droppable, Bool.or_eq_true, decide_eq_true_eq] at h
  rcases h with h | h <;> simp [kept, h]

theorem kept_of_stale (h : stale_state b now = true) : kept b = false := by
  simp only [stale_state, Bool.and_eq_true, Bool.or_eq_true, decide_eq_true_eq] at h
  rcases h.2 with (h | h) | h <;> simp [kept, h]

namespace Dispatcher

variable {l : Limits} {s s' : Dispatcher} {o : Outcome}

/-! ## What a step does -/

/-- `b` is the batch given to `submit`, with its times and perhaps a number. -/
structure Stamped (batch b : EventBatch) : Prop where
  stream : b.stream = batch.stream
  kind : b.kind = batch.kind
  events : b.events = batch.events

theorem Stamped.is_release {batch : EventBatch} (h : Stamped batch b) : is_release b = is_release batch := by
  unfold Input.is_release
  rw [h.kind, h.events]

theorem Stamped.droppable {batch : EventBatch} (h : Stamped batch b) : droppable b = droppable batch := by
  unfold Input.droppable
  rw [h.kind]

/-- Batches are taken. -/
def Open (s : Dispatcher) : Prop := s.stopping_ = false ∧ s.transport_failed_ = false

/-- What a call of `submit` makes of the dispatcher. -/
inductive Submitted (l : Limits) (s : Dispatcher) (b : EventBatch) : Outcome → Dispatcher → Prop where
  | empty (hevents : b.events = []) : Submitted l s b .empty (s.called b .empty)
  | closed (hevents : b.events ≠ []) (hclosed : s.stopping_ = true ∨ s.transport_failed_ = true) :
      Submitted l s b .closed (s.called b .closed)
  | coalesced {init : List EventBatch} {old : EventBatch} (hevents : b.events ≠ []) (hopen : s.Open)
      (hseq : b.transport_sequence = s.next_sequence_ + 1) (hqueue : s.queue_ = init ++ [old])
      (hold : old.kind = .Motion) (hkind : b.kind = .Motion) (hstream : old.stream = b.stream) :
      Submitted l s b (.coalesced old)
        ({ s.numbered with
          queue_ := init ++ [b]
          diagnostics_ :=
            { s.numbered.diagnostics_ with coalesced := s.diagnostics_.coalesced + 1 } }.called b (.coalesced old))
  | queued (hevents : b.events ≠ []) (hopen : s.Open)
      (hseq : b.transport_sequence = s.next_sequence_ + 1) (hroom : s.queue_.length < l.limit b) :
      Submitted l s b .queued ((s.numbered.push_back b).called b .queued)
  | evicted {front rest : List EventBatch} {d : EventBatch} (hevents : b.events ≠ []) (hopen : s.Open)
      (hseq : b.transport_sequence = s.next_sequence_ + 1) (hover : l.limit b ≤ s.queue_.length)
      (hqueue : s.queue_ = front ++ d :: rest) (hd : droppable d = true) :
      Submitted l s b .queued
        (({ s.numbered with
          queue_ := front ++ rest
          diagnostics_ :=
            { s.numbered.diagnostics_ with
              dropped := s.diagnostics_.dropped + 1 } }.push_back b).called b .queued)
  | full (hevents : b.events ≠ []) (hopen : s.Open) (hover : l.limit b ≤ s.queue_.length)
      (hnone : ∀ d ∈ s.queue_, droppable d = false) :
      Submitted l s b .full
        ({ s.numbered with
          diagnostics_ :=
            { s.numbered.diagnostics_ with dropped := s.diagnostics_.dropped + 1 } }.called b .full)

theorem coalesces_eq_some {queue : List EventBatch} {old : EventBatch} (h : coalesces queue b = some old) :
    queue = queue.dropLast ++ [old] ∧ old.kind = .Motion ∧ b.kind = .Motion ∧ old.stream = b.stream := by
  obtain ⟨hlast, hkinds⟩ := Option.filter_eq_some_iff.mp h
  simp only [Bool.and_eq_true, decide_eq_true_eq] at hkinds
  obtain ⟨⟨hkind, hold⟩, hstream⟩ := hkinds
  exact ⟨(List.dropLast_append_getLast? old hlast).symm, hold, hkind, hstream⟩

theorem submit_result (l : Limits) (s : Dispatcher) (batch : EventBatch) (now enqueued : UInt64) :
    ∃ b o, Stamped batch b ∧ Submitted l s b o (s.submit l batch now enqueued).1 ∧
      (s.submit l batch now enqueued).2 = o.accepted := by
  unfold submit
  by_cases hevents : batch.events = []
  · rw [if_pos hevents]
    exact ⟨batch, .empty, ⟨rfl, rfl, rfl⟩, .empty hevents, rfl⟩
  · rw [if_neg hevents]
    by_cases hclosed : (s.stopping_ || s.transport_failed_) = true
    · simp only [hclosed, if_true]
      exact ⟨stamped batch now enqueued, .closed, ⟨rfl, rfl, rfl⟩,
        .closed hevents (Bool.or_eq_true _ _ ▸ hclosed), rfl⟩
    · have hopen : s.Open := by
        simp only [Bool.or_eq_true, not_or, Bool.not_eq_true] at hclosed
        exact hclosed
      simp only [hclosed, Bool.false_eq_true, if_false]
      generalize hb : ({ stamped batch now enqueued with transport_sequence := s.numbered.next_sequence_ } : EventBatch)
        = b
      have hstamped : Stamped batch b := by
        subst hb
        exact ⟨rfl, rfl, rfl⟩
      have hevents' : b.events ≠ [] := hstamped.events ▸ hevents
      have hseq : b.transport_sequence = s.next_sequence_ + 1 := by
        subst hb
        rfl
      cases hcoalesce : coalesces s.numbered.queue_ b with
      | some old =>
        obtain ⟨hqueue, hold, hkind, hstream⟩ := coalesces_eq_some hcoalesce
        exact ⟨b, _, hstamped, .coalesced hevents' hopen hseq hqueue hold hkind hstream, rfl⟩
      | none =>
        unfold make_room_locked
        by_cases hroom : s.numbered.queue_.length < l.limit b
        · simp only [hroom, if_true]
          exact ⟨b, _, hstamped, .queued hevents' hopen hseq hroom, rfl⟩
        · have hover : l.limit b ≤ s.queue_.length := Nat.le_of_not_lt hroom
          by_cases hany : s.numbered.queue_.any droppable = true
          · obtain ⟨d, hmem, hd⟩ := List.any_eq_true.mp hany
            obtain ⟨d, front, rest, -, hd, hqueue, herase⟩ := List.exists_of_eraseP hmem hd
            simp only [hroom, if_false, hany, if_true, herase]
            exact ⟨b, _, hstamped, .evicted hevents' hopen hseq hover hqueue hd, rfl⟩
          · have hnone : ∀ d ∈ s.queue_, droppable d = false := by
              intro d hmem
              have := hany
              simp only [List.any_eq_true, not_exists, not_and, Bool.not_eq_true] at this
              exact this d hmem
            simp only [hroom, if_false, hany, Bool.false_eq_true]
            exact ⟨b, _, hstamped, .full hevents' hopen hover hnone, rfl⟩

/-- What any other step makes of it. -/
inductive Worked (s : Dispatcher) : Dispatcher → Prop where
  | pop {b : EventBatch} {queue : List EventBatch} (hworker : s.worker = .waiting) (hqueue : s.queue_ = b :: queue) :
      Worked s { s with queue_ := queue, worker := .popped b }
  | stale {b : EventBatch} (hworker : s.worker = .popped b) (hkept : kept b = false) :
      Worked s
        { s with
          worker := .waiting
          diagnostics_ := { s.diagnostics_ with dropped := s.diagnostics_.dropped + 1 } }
  | deliver {b : EventBatch} (hworker : s.worker = .popped b) : Worked s { s with worker := .delivering b }
  | delivered {b : EventBatch} {latency : UInt64} (hworker : s.worker = .delivering b) :
      Worked s
        { s with
          worker := .waiting
          log := s.log ++ [(b, true)]
          diagnostics_ :=
            { s.diagnostics_ with
              delivered := s.diagnostics_.delivered + 1
              maximum_latency_us := latency } }
  | failed {b : EventBatch} {worker : Worker} (hworker : s.worker = .delivering b)
      (hnext : worker = .handling ∨ worker = .waiting) :
      Worked s
        { s with
          worker
          transport_failed_ := true
          queue_ := []
          log := s.log ++ [(b, false)]
          diagnostics_ :=
            { s.diagnostics_ with
              transport_failures := s.diagnostics_.transport_failures + 1
              dropped := s.diagnostics_.dropped + s.queue_.length } }
  | handled (hworker : s.worker = .handling) : Worked s { s with worker := .waiting }
  | exit (hworker : s.worker = .waiting) (hqueue : s.queue_ = []) (hstop : s.stopping_ = true) :
      Worked s { s with worker := .exited }
  | handler {handler : Bool} : Worked s { s with transport_failure_handler_ := handler }
  | stop : Worked s { s with stopping_ := true }

/-- What a step makes of the dispatcher. -/
inductive Transition (l : Limits) (s : Dispatcher) : Dispatcher → Prop where
  | submit {b : EventBatch} {o : Outcome} {s' : Dispatcher} (h : Submitted l s b o s') : Transition l s s'
  | work {s' : Dispatcher} (h : Worked s s') : Transition l s s'

theorem finish_worked {ok : Bool} (h : s.finish ok now = some s') : Worked s s' := by
  simp only [Dispatcher.finish] at h
  split at h
  · rename_i b hworker
    cases ok with
    | true =>
      cases Option.some.inj h
      exact .delivered hworker
    | false =>
      cases Option.some.inj h
      refine .failed hworker ?_
      by_cases hhandler : s.transport_failure_handler_ = true
      · exact Or.inl (if_pos hhandler)
      · exact Or.inr (if_neg hhandler)
  · cases h

theorem step_worked {op : DispatcherOp} (hop : ∀ batch now enqueued, op ≠ .submit batch now enqueued)
    (h : s.step l op = some s') : Worked s s' := by
  cases op with
  | submit batch now enqueued => exact absurd rfl (hop batch now enqueued)
  | pop =>
    simp only [step, Dispatcher.pop] at h
    split at h
    · rename_i b queue hworker hqueue
      cases Option.some.inj h
      exact .pop hworker hqueue
    · cases h
  | check now =>
    simp only [step, Dispatcher.check] at h
    split at h
    · rename_i b hworker
      by_cases hstale : stale_state b now = true
      · rw [if_pos hstale] at h
        cases Option.some.inj h
        exact .stale hworker (kept_of_stale hstale)
      · rw [if_neg hstale] at h
        cases Option.some.inj h
        exact .deliver hworker
    · cases h
  | finish delivered now => exact finish_worked h
  | handler_returned =>
    obtain ⟨hworker, rfl⟩ := of_guard_eq_some h
    exact .handled hworker
  | worker_exit =>
    obtain ⟨⟨hworker, hqueue, hstop⟩, rfl⟩ := of_guard_eq_some h
    exact .exit hworker hqueue hstop
  | set_transport_failure_handler handler =>
    cases Option.some.inj h
    exact .handler
  | stop =>
    cases Option.some.inj h
    exact .stop

theorem step_transition {op : DispatcherOp} (h : s.step l op = some s') : Transition l s s' := by
  by_cases hop : ∃ batch now enqueued, op = .submit batch now enqueued
  · obtain ⟨batch, now, enqueued, rfl⟩ := hop
    obtain ⟨b, o, -, hsubmitted, -⟩ := submit_result l s batch now enqueued
    cases Option.some.inj h
    exact .submit hsubmitted
  · refine .work (step_worked (fun batch now enqueued heq => ?_) h)
    exact hop ⟨batch, now, enqueued, heq⟩

/-! ## The flow of batches -/

/-- What was delivered, and then what is pending. -/
def flow (s : Dispatcher) : List EventBatch := s.delivered ++ s.pending

theorem Submitted.calls (h : Submitted l s b o s') : s'.calls = s.calls ++ [(b, o)] := by cases h <;> rfl

theorem Submitted.enqueued (h : Submitted l s b o s') :
    s'.enqueued = s.enqueued ++ if o.enqueued then [b] else [] := by
  rw [Dispatcher.enqueued, h.calls, Dispatcher.enqueued]
  cases ho : o.enqueued <;> simp [ho]

theorem Submitted.accepted (h : Submitted l s b o s') :
    s'.accepted = s.accepted ++ if o.accepted then [b] else [] := by
  rw [Dispatcher.accepted, h.calls, Dispatcher.accepted]
  cases ho : o.accepted <;> simp [ho]

/-- How the flow changes in a step. -/
inductive FlowStep (s s' : Dispatcher) : Prop where
  /-- Batches that need not be kept may leave. -/
  | keeps (haccepted : s'.accepted.filter kept = s.accepted.filter kept)
      (hfailed : s'.transport_failed_ = s.transport_failed_) (hsub : s'.flow.Sublist s.flow)
      (hkept : s'.flow.filter kept = s.flow.filter kept)
      (hcount : s.diagnostics_.submitted ≤ s'.diagnostics_.submitted)
  /-- A batch enters at the end. -/
  | enters {b : EventBatch} {rest : List EventBatch} (haccepted : s'.accepted = s.accepted ++ [b])
      (hopen : s.transport_failed_ = false) (hfailed : s'.transport_failed_ = false) (hflow : s'.flow = rest ++ [b])
      (hsub : rest.Sublist s.flow) (hkept : rest.filter kept = s.flow.filter kept)
      (hseq : b.transport_sequence = s.next_sequence_ + 1)
      (hcount : s'.diagnostics_.submitted = s.diagnostics_.submitted + 1)
  /-- A failure cuts off what is pending. -/
  | cuts (haccepted : s'.accepted = s.accepted) (hfailed : s'.transport_failed_ = true)
      (hcut : s'.flow <+: s.flow) (hcount : s'.diagnostics_.submitted = s.diagnostics_.submitted)

theorem filter_kept_remove {front rest : List EventBatch} (h : kept d = false) :
    (front ++ rest).filter kept = (front ++ d :: rest).filter kept := by
  simp [List.filter_append, h]

theorem sublist_remove {front rest : List EventBatch} : (front ++ rest).Sublist (front ++ d :: rest) :=
  List.Sublist.append (List.Sublist.refl _) (List.sublist_cons_self _ _)

theorem flow_eq : s.flow = s.delivered ++ s.worker.batch ++ s.queue_ := (List.append_assoc _ _ _).symm

/-- A batch enters at the end, and the batch `d`, which need not be kept, leaves the queue for it. -/
theorem FlowStep.replaces {front rest : List EventBatch} (haccepted : s'.accepted = s.accepted ++ [b])
    (hopen : s.transport_failed_ = false) (hfailed : s'.transport_failed_ = false)
    (hqueue : s.queue_ = front ++ d :: rest) (hd : kept d = false)
    (hflow : s'.flow = s.delivered ++ s.worker.batch ++ (front ++ rest ++ [b]))
    (hseq : b.transport_sequence = s.next_sequence_ + 1)
    (hcount : s'.diagnostics_.submitted = s.diagnostics_.submitted + 1) : FlowStep s s' := by
  have hbefore : s.flow = s.delivered ++ s.worker.batch ++ front ++ d :: rest := by
    rw [flow_eq, hqueue, List.append_assoc _ front]
  have hafter : s'.flow = s.delivered ++ s.worker.batch ++ front ++ rest ++ [b] := by
    rw [hflow, List.append_assoc _ front, List.append_assoc _ (front ++ rest)]
  refine .enters haccepted hopen hfailed hafter ?_ ?_ hseq hcount
  · rw [hbefore]
    exact sublist_remove
  · rw [hbefore]
    exact filter_kept_remove hd

theorem Submitted.flow (h : Submitted l s b o s') : FlowStep s s' := by
  have haccepted := h.accepted
  cases h with
  | empty hevents =>
    have hkept : kept b = false := by simp [kept, hevents]
    refine .keeps ?_ rfl (List.Sublist.refl _) rfl (Nat.le_refl _)
    rw [haccepted]
    simp [Outcome.accepted, hkept]
  | closed hevents hclosed =>
    refine .keeps ?_ rfl (List.Sublist.refl _) rfl (Nat.le_refl _)
    rw [haccepted]
    simp [Outcome.accepted]
  | @coalesced init old hevents hopen hseq hqueue hold hkind hstream =>
    have hkept : kept old = false := kept_of_droppable (by simp [droppable, hold])
    refine .replaces haccepted hopen.2 hopen.2 hqueue hkept ?_ hseq rfl
    rw [List.append_nil]
    exact flow_eq
  | queued hevents hopen hseq hroom =>
    refine .enters haccepted hopen.2 hopen.2 ?_ (List.Sublist.refl _) rfl hseq rfl
    rw [flow_eq, flow_eq, List.append_assoc _ s.queue_]
    rfl
  | @evicted front rest d hevents hopen hseq hover hqueue hd =>
    exact .replaces haccepted hopen.2 hopen.2 hqueue (kept_of_droppable hd) flow_eq hseq rfl
  | full hevents hopen hover hnone =>
    refine .keeps ?_ rfl (List.Sublist.refl _) rfl (Nat.le_succ _)
    rw [haccepted]
    simp [Outcome.accepted]

/-- A step that only moves the worker. -/
theorem FlowStep.of_eq (haccepted : s'.accepted = s.accepted) (hfailed : s'.transport_failed_ = s.transport_failed_)
    (hflow : s'.flow = s.flow) (hcount : s'.diagnostics_.submitted = s.diagnostics_.submitted) : FlowStep s s' :=
  .keeps (haccepted ▸ rfl) hfailed (hflow ▸ List.Sublist.refl _) (hflow ▸ rfl) (Nat.le_of_eq hcount.symm)

theorem Worked.flow (h : Worked s s') : FlowStep s s' := by
  cases h with
  | pop hworker hqueue =>
    refine .of_eq rfl rfl ?_ rfl
    rw [flow_eq, flow_eq, hworker, hqueue]
    simp only [Worker.batch, List.append_nil, List.append_assoc, List.singleton_append]
    rfl
  | @stale b hworker hkept =>
    have hflow : s.flow = s.delivered ++ b :: s.queue_ := by simp [flow_eq, hworker, Worker.batch]
    refine .keeps rfl rfl ?_ ?_ (Nat.le_refl _)
    · rw [hflow]
      exact sublist_remove
    · rw [hflow]
      exact filter_kept_remove hkept
  | deliver hworker =>
    refine .of_eq rfl rfl ?_ rfl
    rw [flow_eq, flow_eq, hworker]
    rfl
  | delivered hworker =>
    refine .of_eq rfl rfl ?_ rfl
    rw [flow_eq, flow_eq, hworker]
    simp [Dispatcher.delivered, Worker.batch]
  | @failed b worker hworker hnext =>
    have hbatch : worker.batch = [] := by rcases hnext with rfl | rfl <;> rfl
    have hdelivered : (s.log ++ [(b, false)]).filter (fun entry => entry.2) = s.log.filter fun entry => entry.2 := by
      simp
    refine .cuts rfl rfl ?_ rfl
    rw [flow_eq, flow_eq, hbatch, Dispatcher.delivered, Dispatcher.delivered, hdelivered, List.append_nil,
      List.append_nil, List.append_assoc]
    exact List.prefix_append _ _
  | handled hworker =>
    refine .of_eq rfl rfl ?_ rfl
    rw [flow_eq, flow_eq, hworker]
    rfl
  | exit hworker hqueue hstop =>
    refine .of_eq rfl rfl ?_ rfl
    rw [flow_eq, flow_eq, hworker]
    rfl
  | handler => exact FlowStep.of_eq rfl rfl rfl rfl
  | stop => exact FlowStep.of_eq rfl rfl rfl rfl

theorem Transition.flow (h : Transition l s s') : FlowStep s s' := by
  cases h with
  | submit h => exact h.flow
  | work h => exact h.flow

/-! ## Order and numbers -/

/-- What must be kept is in the flow, in the order in which it was accepted. -/
structure InOrder (s : Dispatcher) : Prop where
  all : s.transport_failed_ = false → s.flow.filter kept = s.accepted.filter kept
  first : s.flow.filter kept <+: s.accepted.filter kept

theorem FlowStep.inOrder (h : FlowStep s s') (hs : InOrder s) : InOrder s' := by
  cases h with
  | keeps haccepted hfailed hsub hkept hcount =>
    constructor
    · intro hopen
      rw [hkept, haccepted]
      exact hs.all (hfailed ▸ hopen)
    · rw [hkept, haccepted]
      exact hs.first
  | enters haccepted hopen hfailed hflow hsub hkept hseq hcount =>
    have hall : s'.flow.filter kept = s'.accepted.filter kept := by
      rw [hflow, haccepted, List.filter_append, List.filter_append, hkept, hs.all hopen]
    exact ⟨fun _ => hall, hall ▸ List.prefix_refl _⟩
  | cuts haccepted hfailed hcut hcount =>
    constructor
    · intro hopen
      rw [hfailed] at hopen
      cases hopen
    · rw [haccepted]
      exact (hcut.filter _).trans hs.first

/-- The flow is numbered in order, as long as the numbers have not wrapped around. -/
structure Numbered (s : Dispatcher) : Prop where
  next : s.next_sequence_ = UInt64.ofNat s.diagnostics_.submitted
  increasing : s.diagnostics_.submitted < 2 ^ 64 →
    s.flow.Pairwise fun a b => a.transport_sequence < b.transport_sequence
  bounded : s.diagnostics_.submitted < 2 ^ 64 →
    ∀ b ∈ s.flow, b.transport_sequence.toNat ≤ s.diagnostics_.submitted

/-- A number is taken, or none is. -/
theorem Transition.sequence (h : Transition l s s') :
    (s'.next_sequence_ = s.next_sequence_ ∧ s'.diagnostics_.submitted = s.diagnostics_.submitted) ∨
    (s'.next_sequence_ = s.next_sequence_ + 1 ∧ s'.diagnostics_.submitted = s.diagnostics_.submitted + 1) := by
  cases h with
  | submit h =>
    cases h with
    | empty => exact Or.inl ⟨rfl, rfl⟩
    | closed => exact Or.inl ⟨rfl, rfl⟩
    | coalesced => exact Or.inr ⟨rfl, rfl⟩
    | queued => exact Or.inr ⟨rfl, rfl⟩
    | evicted => exact Or.inr ⟨rfl, rfl⟩
    | full => exact Or.inr ⟨rfl, rfl⟩
  | work h => cases h <;> exact Or.inl ⟨rfl, rfl⟩

theorem Transition.numbered (h : Transition l s s') (hs : Numbered s) : Numbered s' := by
  have hnext : s'.next_sequence_ = UInt64.ofNat s'.diagnostics_.submitted := by
    rcases h.sequence with ⟨hseq, hcount⟩ | ⟨hseq, hcount⟩
    · rw [hseq, hcount, hs.next]
    · rw [hseq, hcount, hs.next, UInt64.ofNat_add]
      rfl
  -- A part of the old flow is numbered as it was.
  have hpart : ∀ flow : List EventBatch, flow.Sublist s.flow → s.diagnostics_.submitted < 2 ^ 64 →
      flow.Pairwise (fun a b => a.transport_sequence < b.transport_sequence) ∧
        ∀ b ∈ flow, b.transport_sequence.toNat ≤ s.diagnostics_.submitted := by
    intro flow hsub hlt
    exact ⟨(hs.increasing hlt).sublist hsub, fun b hb => hs.bounded hlt b (hsub.subset hb)⟩
  cases h.flow with
  | keeps haccepted hfailed hsub hkept hcount =>
    refine ⟨hnext, fun hlt => (hpart _ hsub (by omega)).1, fun hlt b hb => ?_⟩
    exact Nat.le_trans ((hpart _ hsub (by omega)).2 b hb) hcount
  | @enters b rest haccepted hopen hfailed hflow hsub hkept hseq hcount =>
    have hb : s'.diagnostics_.submitted < 2 ^ 64 → b.transport_sequence.toNat = s'.diagnostics_.submitted := by
      intro hlt
      rw [hseq, hs.next, hcount, ← UInt64.ofNat_one, ← UInt64.ofNat_add, UInt64.toNat_ofNat']
      exact Nat.mod_eq_of_lt (hcount ▸ hlt)
    refine ⟨hnext, fun hlt => ?_, fun hlt c hc => ?_⟩
    · obtain ⟨hrest, hbound⟩ := hpart _ hsub (by omega)
      rw [hflow, List.pairwise_append]
      refine ⟨hrest, List.pairwise_singleton _ _, fun c hc d hd => ?_⟩
      rw [List.mem_singleton.mp hd, UInt64.lt_iff_toNat_lt, hb hlt]
      have := hbound c hc
      omega
    · rw [hflow, List.mem_append, List.mem_singleton] at hc
      rcases hc with hc | rfl
      · have := (hpart _ hsub (by omega)).2 c hc
        omega
      · exact Nat.le_of_eq (hb hlt)
  | cuts haccepted hfailed hcut hcount =>
    refine ⟨hnext, fun hlt => (hpart _ hcut.sublist (hcount ▸ hlt)).1, fun hlt b hb => ?_⟩
    rw [hcount]
    exact (hpart _ hcut.sublist (hcount ▸ hlt)).2 b hb

/-! ## Counts -/

structure Counted (l : Limits) (s : Dispatcher) : Prop where
  bounded : s.queue_.length ≤ l.capacity_
  accounting : s.diagnostics_.submitted =
    s.diagnostics_.delivered + s.diagnostics_.dropped + s.diagnostics_.coalesced +
      s.diagnostics_.transport_failures + s.queue_.length + s.worker.batch.length

theorem limit_le (l : Limits) (b : EventBatch) : l.limit b ≤ l.capacity_ := by
  unfold Limits.limit
  by_cases hrelease : is_release b = true
  · exact Nat.le_of_eq (if_pos hrelease)
  · rw [if_neg hrelease]
    exact Nat.sub_le _ _

theorem Submitted.counted (h : Submitted l s b o s') (hs : Counted l s) : Counted l s' := by
  obtain ⟨hbounded, haccounting⟩ := hs
  cases h with
  | empty => exact ⟨hbounded, haccounting⟩
  | closed => exact ⟨hbounded, haccounting⟩
  | coalesced _ _ _ hqueue =>
    rw [hqueue, List.length_append, List.length_singleton] at hbounded haccounting
    constructor
    · simpa [called] using hbounded
    · simp only [called, numbered, List.length_append, List.length_singleton]
      omega
  | queued _ _ _ hroom =>
    have := limit_le l b
    constructor
    · simp only [called, push_back, numbered, List.length_append, List.length_singleton]
      omega
    · simp only [called, push_back, numbered, List.length_append, List.length_singleton]
      omega
  | evicted _ _ _ _ hqueue =>
    rw [hqueue, List.length_append, List.length_cons] at hbounded haccounting
    constructor
    · simp only [called, push_back, List.length_append, List.length_singleton]
      omega
    · simp only [called, push_back, numbered, List.length_append, List.length_singleton]
      omega
  | full =>
    refine ⟨hbounded, ?_⟩
    simp only [called, numbered]
    omega

theorem Worked.counted (h : Worked s s') (hs : Counted l s) : Counted l s' := by
  cases h with
  | pop hworker hqueue =>
    obtain ⟨hbounded, haccounting⟩ := hs
    rw [hqueue, List.length_cons] at hbounded haccounting
    rw [hworker] at haccounting
    exact ⟨Nat.le_of_succ_le hbounded, haccounting⟩
  | stale hworker =>
    have haccounting := hs.accounting
    rw [hworker] at haccounting
    refine ⟨hs.bounded, ?_⟩
    simp only [Worker.batch, List.length_singleton, List.length_nil] at haccounting ⊢
    omega
  | deliver hworker =>
    have haccounting := hs.accounting
    rw [hworker] at haccounting
    exact ⟨hs.bounded, haccounting⟩
  | delivered hworker =>
    have haccounting := hs.accounting
    rw [hworker] at haccounting
    refine ⟨hs.bounded, ?_⟩
    simp only [Worker.batch, List.length_singleton, List.length_nil] at haccounting ⊢
    omega
  | @failed b worker hworker hnext =>
    have haccounting := hs.accounting
    have hbatch : worker.batch = [] := by rcases hnext with rfl | rfl <;> rfl
    simp only [hworker, Worker.batch, List.length_singleton] at haccounting
    refine ⟨Nat.zero_le _, ?_⟩
    simp only [hbatch, List.length_nil]
    omega
  | handled hworker =>
    have haccounting := hs.accounting
    rw [hworker] at haccounting
    exact ⟨hs.bounded, haccounting⟩
  | exit hworker hqueue hstop =>
    have haccounting := hs.accounting
    rw [hworker] at haccounting
    exact ⟨hs.bounded, haccounting⟩
  | handler => exact ⟨hs.bounded, hs.accounting⟩
  | stop => exact ⟨hs.bounded, hs.accounting⟩

theorem Transition.counted (h : Transition l s s') (hs : Counted l s) : Counted l s' := by
  cases h with
  | submit h => exact h.counted hs
  | work h => exact h.counted hs

/-! ## Replaced batches -/

structure Replaced (s : Dispatcher) : Prop where
  /-- The last batch of the queue is the last one that was put into it. -/
  last : ∀ b, s.queue_.getLast? = some b → s.enqueued.getLast? = some b
  pairs : ∀ old new, (new, Outcome.coalesced old) ∈ s.calls →
    old.kind = .Motion ∧ new.kind = .Motion ∧ old.stream = new.stream ∧
      ∃ before after, s.enqueued = before ++ old :: new :: after

theorem Replaced.of_suffix (hs : Replaced s) (hcalls : s'.calls = s.calls) (hqueue : s'.queue_ <:+ s.queue_) :
    Replaced s' := by
  have henqueued : s'.enqueued = s.enqueued := by rw [enqueued, enqueued, hcalls]
  constructor
  · intro b hb
    obtain ⟨front, hfront⟩ := hqueue
    have hlast : s.queue_.getLast? = some b := by
      rw [← hfront, List.getLast?_append, hb]
      rfl
    rw [henqueued]
    exact hs.last b hlast
  · rw [hcalls, henqueued]
    exact hs.pairs

/-- What is put into the queue stands at its end. -/
theorem Submitted.last (h : Submitted l s b o s') :
    (o.enqueued = true ∧ s'.queue_.getLast? = some b) ∨ (o.enqueued = false ∧ s'.queue_ = s.queue_) := by
  cases h with
  | empty => exact Or.inr ⟨rfl, rfl⟩
  | closed => exact Or.inr ⟨rfl, rfl⟩
  | coalesced => exact Or.inl ⟨rfl, List.getLast?_concat⟩
  | queued => exact Or.inl ⟨rfl, List.getLast?_concat⟩
  | evicted => exact Or.inl ⟨rfl, List.getLast?_concat⟩
  | full => exact Or.inr ⟨rfl, rfl⟩

theorem Submitted.replaced (h : Submitted l s b o s') (hs : Replaced s) : Replaced s' := by
  constructor
  · intro c hc
    rw [h.enqueued]
    rcases h.last with ⟨ho, hlast⟩ | ⟨ho, hqueue⟩
    · rw [hlast] at hc
      rw [if_pos ho, List.getLast?_concat]
      exact hc
    · rw [ho, if_neg Bool.false_ne_true, List.append_nil]
      exact hs.last c (hqueue ▸ hc)
  · intro old new hmem
    rw [h.calls, List.mem_append, List.mem_singleton] at hmem
    rcases hmem with hmem | heq
    · obtain ⟨hold, hnew, hstream, before, after, heq⟩ := hs.pairs old new hmem
      refine ⟨hold, hnew, hstream, before, after ++ (if o.enqueued then [b] else []), ?_⟩
      rw [h.enqueued, heq, List.append_assoc, List.cons_append, List.cons_append]
    · obtain ⟨rfl, rfl⟩ := Prod.mk.inj heq
      have henqueued := h.enqueued
      cases h with
      | coalesced hevents hopen hseq hqueue hold hkind hstream =>
        -- The batch that is replaced was the last one of the queue.
        have hlast : s.enqueued.getLast? = some old := hs.last old (hqueue ▸ List.getLast?_concat)
        refine ⟨hold, hkind, hstream, s.enqueued.dropLast, [], ?_⟩
        rw [henqueued]
        show s.enqueued ++ [new] = _
        conv_lhs => rw [← List.dropLast_append_getLast? old hlast]
        rw [List.append_assoc, List.singleton_append]

/-- The worker takes the queue from its front, or all of it. -/
theorem Worked.suffix (h : Worked s s') : s'.calls = s.calls ∧ s'.queue_ <:+ s.queue_ := by
  cases h with
  | pop hworker hqueue => exact ⟨rfl, hqueue ▸ List.suffix_cons _ _⟩
  | failed => exact ⟨rfl, List.nil_suffix⟩
  | _ => exact ⟨rfl, List.suffix_refl _⟩

theorem Transition.replaced (h : Transition l s s') (hs : Replaced s) : Replaced s' := by
  cases h with
  | submit h => exact h.replaced hs
  | work h => exact hs.of_suffix h.suffix.1 h.suffix.2

/-! ## Failure and exit -/

structure Ended (s : Dispatcher) : Prop where
  delivered : s.transport_failed_ = false → ∀ entry ∈ s.log, entry.2 = true
  cut : s.transport_failed_ = true → s.pending = []
  failed_last : Justified (fun earlier _ => ∀ entry ∈ earlier, entry.2 = true) s.log
  exited : s.worker = .exited → s.stopping_ = true ∧ s.queue_ = []
  handling : s.worker = .handling → s.transport_failed_ = true

/-- `submit` does not touch the worker, and puts nothing into a closed queue. -/
theorem Submitted.frame (h : Submitted l s b o s') :
    s'.worker = s.worker ∧ s'.stopping_ = s.stopping_ ∧ s'.transport_failed_ = s.transport_failed_ ∧
      s'.log = s.log ∧ (s'.queue_ = s.queue_ ∨ s.Open) := by
  cases h with
  | empty => exact ⟨rfl, rfl, rfl, rfl, Or.inl rfl⟩
  | closed => exact ⟨rfl, rfl, rfl, rfl, Or.inl rfl⟩
  | coalesced _ hopen => exact ⟨rfl, rfl, rfl, rfl, Or.inr hopen⟩
  | queued _ hopen => exact ⟨rfl, rfl, rfl, rfl, Or.inr hopen⟩
  | evicted _ hopen => exact ⟨rfl, rfl, rfl, rfl, Or.inr hopen⟩
  | full => exact ⟨rfl, rfl, rfl, rfl, Or.inl rfl⟩

theorem Submitted.ended (h : Submitted l s b o s') (hs : Ended s) : Ended s' := by
  obtain ⟨hworker, hstopping, hfailed, hlog, hqueue⟩ := h.frame
  constructor
  · rw [hfailed, hlog]
    exact hs.delivered
  · rw [hfailed]
    intro hcut
    rcases hqueue with hqueue | hopen
    · rw [pending, hworker, hqueue]
      exact hs.cut hcut
    · rw [hopen.2] at hcut
      cases hcut
  · rw [hlog]
    exact hs.failed_last
  · rw [hworker, hstopping]
    intro hexited
    obtain ⟨hstop, hempty⟩ := hs.exited hexited
    rcases hqueue with hqueue | hopen
    · exact ⟨hstop, hqueue.trans hempty⟩
    · rw [hopen.1] at hstop
      cases hstop
  · rw [hworker, hfailed]
    exact hs.handling

theorem Worked.ended (h : Worked s s') (hs : Ended s) : Ended s' := by
  -- A worker that has a batch, or a queue that is not empty, means that nothing has failed.
  have hopen : s.pending ≠ [] → s.transport_failed_ = false := by
    intro hpending
    by_contra hfailed
    exact hpending (hs.cut (Bool.eq_true_of_not_eq_false hfailed))
  have hsnoc : ∀ entry, s.pending ≠ [] →
      Justified (fun earlier _ => ∀ entry ∈ earlier, entry.2 = true) (s.log ++ [entry]) :=
    fun entry hpending => hs.failed_last.snoc (hs.delivered (hopen hpending))
  cases h with
  | pop hworker hqueue =>
    have hok := hopen (by simp [pending, hqueue])
    refine ⟨hs.delivered, fun hfailed => ?_, hs.failed_last, fun h => (nomatch h), fun h => nomatch h⟩
    exact absurd (hok.symm.trans hfailed) Bool.false_ne_true
  | stale hworker =>
    have hok := hopen (by simp [pending, hworker, Worker.batch])
    refine ⟨hs.delivered, fun hfailed => ?_, hs.failed_last, fun h => (nomatch h), fun h => nomatch h⟩
    exact absurd (hok.symm.trans hfailed) Bool.false_ne_true
  | deliver hworker =>
    have hok := hopen (by simp [pending, hworker, Worker.batch])
    refine ⟨hs.delivered, fun hfailed => ?_, hs.failed_last, fun h => (nomatch h), fun h => nomatch h⟩
    exact absurd (hok.symm.trans hfailed) Bool.false_ne_true
  | @delivered b latency hworker =>
    have hpending : s.pending ≠ [] := by simp [pending, hworker, Worker.batch]
    have hok := hopen hpending
    refine ⟨fun _ entry hentry => ?_, fun hfailed => ?_, hsnoc _ hpending, fun h => (nomatch h),
      fun h => nomatch h⟩
    · rcases List.mem_append.mp hentry with hentry | hentry
      · exact hs.delivered hok entry hentry
      · rw [List.mem_singleton.mp hentry]
    · exact absurd (hok.symm.trans hfailed) Bool.false_ne_true
  | @failed b worker hworker hnext =>
    have hpending : s.pending ≠ [] := by simp [pending, hworker, Worker.batch]
    refine ⟨fun h => (nomatch h), fun _ => ?_, hsnoc _ hpending, fun hexited => ?_, fun _ => rfl⟩
    · rcases hnext with rfl | rfl <;> rfl
    · rcases hnext with rfl | rfl <;> cases hexited
  | handled hworker =>
    refine ⟨hs.delivered, fun hfailed => ?_, hs.failed_last, fun h => (nomatch h), fun h => nomatch h⟩
    have hcut := hs.cut hfailed
    rw [pending, hworker] at hcut
    exact hcut
  | exit hworker hqueue hstop =>
    refine ⟨hs.delivered, fun _ => ?_, hs.failed_last, fun _ => ⟨hstop, hqueue⟩, fun h => nomatch h⟩
    exact hqueue
  | handler => exact ⟨hs.delivered, hs.cut, hs.failed_last, hs.exited, hs.handling⟩
  | stop => exact ⟨hs.delivered, hs.cut, hs.failed_last, fun h => ⟨rfl, (hs.exited h).2⟩, hs.handling⟩

theorem Transition.ended (h : Transition l s s') (hs : Ended s) : Ended s' := by
  cases h with
  | submit h => exact h.ended hs
  | work h => exact h.ended hs

/-! ## The worker alone -/

/-- `op` is a step of the worker whose deliveries succeed. -/
def ByWorker (now : UInt64) (op : DispatcherOp) : Prop := op = .pop ∨ op = .check now ∨ op = .finish true now

/-- The worker alone has come from `s` to `s'`, where it waits. -/
structure WorkedOff (l : Limits) (now : UInt64) (s s' : Dispatcher) : Prop where
  run : ∃ is, (∀ op ∈ is, ByWorker now op) ∧ (dispatcherMachine l).exec s is = some s'
  waiting : s'.worker = .waiting
  calls : s'.calls = s.calls
  failed : s'.transport_failed_ = s.transport_failed_

theorem WorkedOff.refl (h : s.worker = .waiting) : WorkedOff l now s s :=
  ⟨⟨[], by simp, rfl⟩, h, rfl, rfl⟩

theorem WorkedOff.cons {op : DispatcherOp} {t : Dispatcher} (hop : ByWorker now op) (hstep : s.step l op = some t)
    (hcalls : t.calls = s.calls) (hfailed : t.transport_failed_ = s.transport_failed_) (h : WorkedOff l now t s') :
    WorkedOff l now s s' := by
  obtain ⟨is, his, hexec⟩ := h.run
  refine ⟨⟨op :: is, List.forall_mem_cons.mpr ⟨hop, his⟩, ?_⟩, h.waiting, h.calls.trans hcalls, h.failed.trans hfailed⟩
  rw [Machine.exec_step hstep]
  exact hexec

theorem worksOff_delivering (now : UInt64) (h : s.worker = .delivering b) :
    ∃ s', WorkedOff l now s s' ∧ s'.queue_ = s.queue_ := by
  have hstep : ∃ t, s.step l (.finish true now) = some t ∧ t.worker = .waiting ∧ t.calls = s.calls ∧
      t.transport_failed_ = s.transport_failed_ ∧ t.queue_ = s.queue_ := by
    simp only [step, finish, h]
    exact ⟨_, rfl, rfl, rfl, rfl, rfl⟩
  obtain ⟨t, hstep, hworker, hcalls, hfailed, hqueue⟩ := hstep
  exact ⟨t, .cons (Or.inr (Or.inr rfl)) hstep hcalls hfailed (.refl hworker), hqueue⟩

theorem worksOff_popped (now : UInt64) (h : s.worker = .popped b) :
    ∃ s', WorkedOff l now s s' ∧ s'.queue_ = s.queue_ := by
  by_cases hstale : stale_state b now = true
  · have hstep : ∃ t, s.step l (.check now) = some t ∧ t.worker = .waiting ∧ t.calls = s.calls ∧
        t.transport_failed_ = s.transport_failed_ ∧ t.queue_ = s.queue_ := by
      simp only [step, check, h, hstale, if_true]
      exact ⟨_, rfl, rfl, rfl, rfl, rfl⟩
    obtain ⟨t, hstep, hworker, hcalls, hfailed, hqueue⟩ := hstep
    exact ⟨t, .cons (Or.inr (Or.inl rfl)) hstep hcalls hfailed (.refl hworker), hqueue⟩
  · have hstep : s.step l (.check now) = some { s with worker := .delivering b } := by
      simp only [step, check, h, hstale]
      rfl
    obtain ⟨s', hoff, hqueue⟩ :=
      worksOff_delivering (l := l) (s := { s with worker := .delivering b }) now rfl
    exact ⟨s', .cons (Or.inr (Or.inl rfl)) hstep rfl rfl hoff, hqueue⟩

theorem WorkedOff.trans {t : Dispatcher} (h : WorkedOff l now s t) (h' : WorkedOff l now t s') :
    WorkedOff l now s s' := by
  obtain ⟨is, his, hexec⟩ := h.run
  obtain ⟨js, hjs, hexec'⟩ := h'.run
  refine ⟨⟨is ++ js, ?_, ?_⟩, h'.waiting, h'.calls.trans h.calls, h'.failed.trans h.failed⟩
  · intro op hop
    exact (List.mem_append.mp hop).elim (his op) (hjs op)
  · rw [Machine.exec_append, hexec]
    exact hexec'

/-- The queue gets shorter with each batch. -/
theorem worksOff_waiting (now : UInt64) (queue : List EventBatch) :
    ∀ s : Dispatcher, s.worker = .waiting → s.queue_ = queue → ∃ s', WorkedOff l now s s' ∧ s'.queue_ = [] := by
  induction queue with
  | nil => exact fun s hworker hqueue => ⟨s, .refl hworker, hqueue⟩
  | cons b queue ih =>
    intro s hworker hqueue
    have hstep : s.step l .pop = some { s with queue_ := queue, worker := .popped b } := by
      simp only [step, Dispatcher.pop, hworker, hqueue]
    obtain ⟨t, hoff, hrest⟩ :=
      worksOff_popped (l := l) (s := { s with queue_ := queue, worker := .popped b }) now rfl
    obtain ⟨s', hoff', hempty⟩ := ih t hoff.waiting hrest
    exact ⟨s', .trans (.cons (Or.inl rfl) hstep rfl rfl hoff) hoff', hempty⟩

/-! ## The laws -/

structure Invariant (l : Limits) (s : Dispatcher) : Prop where
  counted : Counted l s
  inOrder : InOrder s
  numbered : Numbered s
  replaced : Replaced s
  ended : Ended s

theorem invariant_init : Invariant l {} where
  counted := ⟨Nat.zero_le _, rfl⟩
  inOrder := ⟨fun _ => rfl, List.nil_prefix⟩
  numbered := ⟨rfl, fun _ => List.Pairwise.nil, fun _ _ h => nomatch h⟩
  replaced := ⟨fun _ h => (nomatch h), fun _ _ h => nomatch h⟩
  ended := ⟨fun _ _ h => (nomatch h), fun h => (nomatch h), justified_nil, fun h => (nomatch h),
    fun h => nomatch h⟩

theorem Invariant.step {op : DispatcherOp} (hs : Invariant l s) (h : s.step l op = some s') : Invariant l s' where
  counted := (step_transition h).counted hs.counted
  inOrder := (step_transition h).flow.inOrder hs.inOrder
  numbered := (step_transition h).numbered hs.numbered
  replaced := (step_transition h).replaced hs.replaced
  ended := (step_transition h).ended hs.ended

theorem reachable_invariant (h : (dispatcherMachine l).Reachable s) : Invariant l s :=
  h.invariant invariant_init fun _ _ _ hs hstep => hs.step hstep

theorem Invariant.laws (hs : Invariant l s) : QueueLaws l s where
  bounded := hs.counted.bounded
  accounting := hs.counted.accounting
  increasing := fun hlt => (hs.numbered.increasing hlt).sublist (List.sublist_append_left _ _)
  in_order := hs.inOrder.all
  in_order_failed := hs.inOrder.first
  replaced := hs.replaced.pairs
  failed_last := hs.ended.failed_last
  exited_empty := fun h => (hs.ended.exited h).2

/-- Where nothing is pending, all that must be kept has been delivered. -/
theorem Invariant.drained (hs : Invariant l s) (hopen : s.transport_failed_ = false) (hpending : s.pending = []) :
    s.delivered.filter kept = s.accepted.filter kept := by
  have hall := hs.inOrder.all hopen
  rw [flow, hpending, List.append_nil] at hall
  exact hall

theorem reachable_drains (h : (dispatcherMachine l).Reachable s) (hopen : s.transport_failed_ = false) :
    Drains l s := by
  intro now
  have hs := reachable_invariant h
  have hoff : (∃ s', WorkedOff l now s s' ∧ s'.queue_ = []) ∨ s.pending = [] := by
    cases hworker : s.worker with
    | waiting => exact Or.inl (worksOff_waiting now _ s hworker rfl)
    | popped b =>
      obtain ⟨t, hoff, -⟩ := worksOff_popped (l := l) now hworker
      obtain ⟨s', hoff', hempty⟩ := worksOff_waiting (l := l) now _ t hoff.waiting rfl
      exact Or.inl ⟨s', hoff.trans hoff', hempty⟩
    | delivering b =>
      obtain ⟨t, hoff, -⟩ := worksOff_delivering (l := l) now hworker
      obtain ⟨s', hoff', hempty⟩ := worksOff_waiting (l := l) now _ t hoff.waiting rfl
      exact Or.inl ⟨s', hoff.trans hoff', hempty⟩
    | handling =>
      have hfailed := hs.ended.handling hworker
      rw [hopen] at hfailed
      cases hfailed
    | exited =>
      right
      rw [pending, hworker, (hs.ended.exited hworker).2]
      rfl
  rcases hoff with ⟨s', hoff, hempty⟩ | hpending
  · obtain ⟨is, his, hexec⟩ := hoff.run
    refine ⟨is, s', his, hexec, ?_⟩
    have hs' := reachable_invariant (h.append hexec)
    have haccepted : s'.accepted = s.accepted := by rw [accepted, accepted, hoff.calls]
    rw [← haccepted]
    apply hs'.drained (hoff.failed.trans hopen)
    rw [pending, hoff.waiting, hempty]
    rfl
  · exact ⟨[], s, fun _ h => (nomatch h), rfl, hs.drained hopen hpending⟩

/-- In every state that any interleaving of calls, steps of the worker and a stop leads to, the queue keeps its
laws, and as long as no delivery has failed all that must be kept will be delivered. -/
theorem queue_laws (l : Limits) {s : Dispatcher} (h : (dispatcherMachine l).Reachable s) :
    QueueLaws l s ∧ (s.transport_failed_ = false → Drains l s) :=
  ⟨(reachable_invariant h).laws, reachable_drains h⟩

/-- The key with this code goes down. -/
def pressBatch (code : Code) : EventBatch :=
  { stream := .Keyboard, kind := .Key, events := [key_event code 1, syn_report], source_time_ns := 1 }

/-- A key, and two motions of which the second takes the place of the first; the key is delivered. -/
def keyAndMotion : List DispatcherOp :=
  let motion : EventBatch := { stream := .Pointer, kind := .Motion, events := [syn_report] }
  [.submit (pressBatch KEY_A) 1 1, .submit motion 1 1, .pop, .submit motion 2 2, .check 1, .finish true 1]

theorem queue_laws_key_and_motion :
    ∃ s, (dispatcherMachine (Limits.ofArguments 3 1)).exec {} keyAndMotion = some s ∧
      s.diagnostics_.coalesced = 1 ∧ s.delivered.length = 1 ∧ QueueLaws (Limits.ofArguments 3 1) s ∧
      Drains (Limits.ofArguments 3 1) s := by
  obtain ⟨s, hexec, hcoalesced, hdelivered, hopen⟩ :
      ∃ s, (dispatcherMachine (Limits.ofArguments 3 1)).exec {} keyAndMotion = some s ∧
        s.diagnostics_.coalesced = 1 ∧ s.delivered.length = 1 ∧ s.transport_failed_ = false :=
    ⟨_, rfl, by decide, by decide, by decide⟩
  obtain ⟨hlaws, hdrains⟩ := queue_laws (Limits.ofArguments 3 1) ⟨keyAndMotion, hexec⟩
  exact ⟨s, hexec, hcoalesced, hdelivered, hlaws, hdrains hopen⟩

/-! ## Where the laws end -/

/-- A dispatcher at rest after `n` batches. -/
structure Rested (n : Nat) (s : Dispatcher) : Prop where
  reachable : (dispatcherMachine (Limits.ofArguments 1 0)).Reachable s
  queue : s.queue_ = []
  waiting : s.worker = .waiting
  opened : s.Open
  next : s.next_sequence_ = UInt64.ofNat n
  count : s.delivered.length = n

/-- One more batch is submitted and delivered; it gets the next number. -/
theorem Rested.round {n : Nat} (h : Rested n s) :
    ∃ s' b, Rested (n + 1) s' ∧ s'.delivered = s.delivered ++ [b] ∧
      b.transport_sequence = UInt64.ofNat (n + 1) := by
  obtain ⟨hreachable, hqueue, hwaiting, ⟨hstopping, hfailed⟩, hnext, hcount⟩ := h
  obtain ⟨t, b, htaken, hworker, hqueue', hopen, hnext', hlog, hseq, hkind⟩ :
      ∃ t b, (dispatcherMachine (Limits.ofArguments 1 0)).exec s [.submit (pressBatch KEY_A) 1 1, .pop] = some t ∧
        t.worker = .popped b ∧ t.queue_ = [] ∧ t.Open ∧ t.next_sequence_ = s.next_sequence_ + 1 ∧
        t.log = s.log ∧ b.transport_sequence = s.next_sequence_ + 1 ∧ b.kind = .Key := by
    obtain ⟨queue_, worker, stopping_, transport_failed_, next_sequence_, diagnostics_, handler, calls, log⟩ := s
    dsimp only at hqueue hwaiting hstopping hfailed
    subst hqueue hwaiting hstopping hfailed
    refine ⟨_, _, rfl, rfl, rfl, ⟨rfl, rfl⟩, rfl, rfl, rfl, rfl⟩
  have hfresh : stale_state b 1 = false := by simp [stale_state, hkind]
  obtain ⟨s', hdone, hqueue'', hwaiting'', hopen', hnext'', hlog'⟩ :
      ∃ s', (dispatcherMachine (Limits.ofArguments 1 0)).exec t [.check 1, .finish true 1] = some s' ∧
        s'.queue_ = t.queue_ ∧ s'.worker = .waiting ∧ (t.Open → s'.Open) ∧ s'.next_sequence_ = t.next_sequence_ ∧
        s'.log = t.log ++ [(b, true)] := by
    have hcheck : (dispatcherMachine (Limits.ofArguments 1 0)).step t (.check 1) =
        some { t with worker := .delivering b } := by
      simp only [dispatcherMachine, step, check, hworker, hfresh]
      rfl
    rw [Machine.exec_step hcheck]
    exact ⟨_, rfl, rfl, rfl, fun h => h, rfl, rfl⟩
  have hexec : (dispatcherMachine (Limits.ofArguments 1 0)).exec s
      ([.submit (pressBatch KEY_A) 1 1, .pop] ++ [.check 1, .finish true 1]) = some s' := by
    rw [Machine.exec_append, htaken]
    exact hdone
  have hnumber : s.next_sequence_ + 1 = UInt64.ofNat (n + 1) := by
    rw [hnext, UInt64.ofNat_add]
    rfl
  have hdelivered : s'.delivered = s.delivered ++ [b] := by
    rw [delivered, hlog', hlog, delivered]
    simp
  refine ⟨s', b, ⟨hreachable.append hexec, hqueue''.trans hqueue', hwaiting'', hopen' hopen,
    (hnext''.trans hnext').trans hnumber, ?_⟩, hdelivered, hseq.trans hnumber⟩
  rw [hdelivered, List.length_append, hcount]
  rfl

theorem rested (n : Nat) : ∃ s, Rested n s := by
  induction n with
  | zero => exact ⟨{}, Machine.Reachable.init, rfl, rfl, ⟨rfl, rfl⟩, rfl, rfl⟩
  | succ n ih =>
    obtain ⟨s, hs⟩ := ih
    obtain ⟨s', b, hs', -⟩ := hs.round
    exact ⟨s', hs'⟩

/-- A key batch without events is accepted and not delivered when the worker exits, and after `2 ^ 64` batches the
numbers start again from zero. -/
theorem empty_key_and_wrapped_number :
    (∃ s, (dispatcherMachine (Limits.ofArguments 384 256)).Reachable s ∧ s.transport_failed_ = false ∧
      s.worker = .exited ∧ ∃ b ∈ s.accepted, b.kind = .Key ∧ b ∉ s.delivered) ∧
    ∃ s, (dispatcherMachine (Limits.ofArguments 1 0)).Reachable s ∧
      ¬ s.delivered.Pairwise fun a b => a.transport_sequence < b.transport_sequence := by
  constructor
  · refine ⟨_, ⟨[.submit {} 1 1, .stop, .worker_exit], rfl⟩, rfl, rfl, {}, ?_, rfl, ?_⟩
    · decide
    · decide
  · obtain ⟨s, hs⟩ := rested (2 ^ 64 - 1)
    obtain ⟨s', b, hs', hdelivered, hseq⟩ := hs.round
    refine ⟨s', hs'.reachable, fun hincreasing => ?_⟩
    have hzero : b.transport_sequence.toNat = 0 := by
      rw [hseq, Nat.sub_add_cancel (by norm_num), UInt64.toNat_ofNat']
      norm_num
    have hlength := hs.count
    cases hold : s.delivered with
    | nil =>
      rw [hold] at hlength
      norm_num at hlength
    | cons a rest =>
      rw [hdelivered, hold, List.pairwise_append] at hincreasing
      have hlt := hincreasing.2.2 a List.mem_cons_self b (List.mem_singleton.mpr rfl)
      rw [UInt64.lt_iff_toNat_lt, hzero] at hlt
      omega

end Dispatcher

end AnboxReboxed.Input
