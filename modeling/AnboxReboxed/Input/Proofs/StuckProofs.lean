import AnboxReboxed.Input.Proofs.DeviceProofs
import AnboxReboxed.Input.Proofs.PipelineProofs
import AnboxReboxed.Lib.Coalesce

/-!
# Proofs: no key stays stuck

Until a delivery fails, the batches under way lead from what is down at the devices to what is injected (`Feeds`):
every batch does to the one set what the call that submitted it did to the other, and the batches that may be given up
change neither. After a failure nothing is delivered any more, and what is down stays down.
-/

namespace AnboxReboxed.Input

open AnboxReboxed.Lib Function

/-- The keys that are down, for both streams. -/
abbrev Downs := Stream → OrdSet Code

/-- What a batch does to the keys that are down. -/
def deliver (downs : Downs) (b : EventBatch) : Downs := update downs b.stream (apply_events (downs b.stream) b.events)

def Held.injected (h : Held) : Downs := fun d => (h d).injected_held_

/-! ## Batches -/

variable {d : Stream} {c : Code} {b b' : EventBatch} {downs : Downs}

theorem Held.injected_update (h : Held) (d : Stream) (x : HeldCodes) :
    Held.injected (update h d x) = update (Held.injected h) d x.injected_held_ := by
  funext d'
  by_cases hd : d' = d
  · subst hd
    rw [Held.injected, update_self, update_self]
  · rw [Held.injected, update_of_ne hd, update_of_ne hd]
    rfl

theorem deliver_stamped (h : Dispatcher.Stamped b b') (downs : Downs) : deliver downs b' = deliver downs b := by
  rw [deliver, deliver, h.stream, h.events]

theorem kept_stamped (h : Dispatcher.Stamped b b') : kept b' = kept b := by
  unfold kept
  rw [h.kind, h.events]

theorem deliver_down {kind : BatchKind} {value : Int32} {seq time : UInt64} (hvalue : value ≠ 0) :
    deliver downs (HeldCodes.transition d kind c value seq time) = update downs d ((downs d).insert c ()) := by
  simp [deliver, HeldCodes.transition, apply_events, apply_event, key_event, syn_report, hvalue, EV_KEY, EV_SYN]

theorem deliver_up {kind : BatchKind} {seq time : UInt64} :
    deliver downs (HeldCodes.transition d kind c 0 seq time) = update downs d ((downs d).erase c) := by
  simp [deliver, HeldCodes.transition, apply_events, apply_event, key_event, syn_report, EV_KEY, EV_SYN]

theorem mem_apply_releases (codes : List Code) :
    ∀ {down : OrdSet Code}, c ∈ apply_events down (codes.map fun code => key_event code 0) ↔ c ∈ down ∧ c ∉ codes := by
  induction codes with
  | nil => simp [apply_events]
  | cons code codes ih =>
    intro down
    have hfirst : apply_events down ((code :: codes).map fun code => key_event code 0) =
        apply_events (down.erase code) (codes.map fun code => key_event code 0) := rfl
    rw [hfirst, ih, OrdMap.mem_erase, List.mem_cons, not_or]
    constructor
    · rintro ⟨⟨hne, hdown⟩, hrest⟩
      exact ⟨hdown, hne, hrest⟩
    · rintro ⟨hdown, hne, hrest⟩
      exact ⟨⟨hne, hdown⟩, hrest⟩

/-- A forced release of all that is down lifts everything. -/
theorem deliver_forced {seq time : UInt64} :
    deliver downs (HeldCodes.forced_release d (downs d) seq time) = update downs d ∅ := by
  have hempty : apply_events (downs d) ((downs d).keys.map fun code => key_event code 0) = ∅ := by
    apply OrdMap.eq_empty_of_forall_not_mem
    intro c hc
    obtain ⟨hdown, hkeys⟩ := (mem_apply_releases _).mp hc
    exact hkeys (OrdMap.mem_keys_iff.mpr hdown)
  have hevents : apply_events (downs d) (HeldCodes.forced_release d (downs d) seq time).events = ∅ := by
    rw [HeldCodes.forced_release, Device.apply_events_append, hempty]
    rfl
  rw [deliver, show (HeldCodes.forced_release d (downs d) seq time).stream = d from rfl, hevents]

theorem deliver_state (h : ∀ e ∈ b.events, e.type ≠ EV_KEY) : deliver downs b = downs := by
  have hnone : ∀ (events : List Event) (down : OrdSet Code), (∀ e ∈ events, e.type ≠ EV_KEY) →
      apply_events down events = down := by
    intro events
    induction events with
    | nil => exact fun _ _ => rfl
    | cons e events ih =>
      intro down hevents
      obtain ⟨he, hevents⟩ := List.forall_mem_cons.mp hevents
      have hfirst : apply_event down e = down := if_neg he
      show apply_events (apply_event down e) events = down
      rw [hfirst]
      exact ih down hevents
  rw [deliver, hnone _ _ h, update_eq_self]

/-- A batch does to the injected codes what its call does when it is accepted. A batch that may be given up changes
nothing, and a call whose batch is rejected changes nothing unless it was a release. -/
theorem Acts.target {h accepted rejected : Held} (hact : Acts h (.submit b accepted rejected))
    (hrepeat : b.kind = .Repeat → ∀ e ∈ b.events, e.type = EV_KEY → e.code ∈ (h .Keyboard).injected_held_) :
    deliver (Held.injected h) b = Held.injected accepted ∧
      (kept b = false → deliver (Held.injected h) b = Held.injected h) := by
  cases hact with
  | @press d c seq time hc =>
    constructor
    · rw [deliver_down (by decide), Held.injected_update]
      rfl
    · intro hkept
      cases d <;> simp [kept, HeldCodes.transition, Stream.press_kind] at hkept
  | @repeats c seq time hc =>
    have hcode : c ∈ (h .Keyboard).injected_held_ := hrepeat rfl (key_event c 2) List.mem_cons_self rfl
    have hsame : deliver (Held.injected h) (HeldCodes.transition .Keyboard .Repeat c 2 seq time) = Held.injected h := by
      obtain ⟨v, hv⟩ := OrdMap.mem_iff.mp hcode
      rw [deliver_down (by decide)]
      have hinsert : (Held.injected h .Keyboard).insert c () = Held.injected h .Keyboard := OrdMap.insert_of_find? hv
      rw [hinsert, update_eq_self]
    exact ⟨hsame, fun _ => hsame⟩
  | @release d c seq time after hc hafter =>
    subst hafter
    constructor
    · rw [deliver_up, Held.injected_update]
      rfl
    · intro hkept
      cases d <;> simp [kept, HeldCodes.transition, Stream.press_kind] at hkept
  | @release_all d seq time hd =>
    constructor
    · rw [Held.injected_update]
      exact @deliver_forced d (Held.injected h) seq time
    · intro hkept
      simp [kept, HeldCodes.forced_release] at hkept
  | state hkind hevents hkeys => exact ⟨deliver_state hkeys, fun _ => deliver_state hkeys⟩

theorem Acts.rejected_target {h accepted rejected : Held} (hact : Acts h (.submit b accepted rejected))
    (hrelease : is_release b = false) : Held.injected rejected = Held.injected h := by
  cases hact with
  | @press d =>
    rw [Held.injected_update]
    exact update_eq_self d (Held.injected h)
  | repeats => rfl
  | release => simp [is_release, HeldCodes.transition, key_event] at hrelease
  | release_all => simp [is_release, HeldCodes.forced_release] at hrelease
  | state => rfl

theorem Acts.quiet_target {h after : Held} (hact : Acts h (.quiet after)) : Held.injected after = Held.injected h := by
  cases hact with
  | quiet => rfl
  | @forgets d =>
    rw [Held.injected_update]
    exact update_eq_self d (Held.injected h)
  | @clears d =>
    rw [Held.injected_update]
    exact update_eq_self d (Held.injected h)

/-! ## The batches under way -/

namespace Dispatcher

variable {l : Limits} {s s' : Dispatcher} {o : Outcome} {target : Downs}

/-- `rest` is `pending`, perhaps without a batch that may be given up. -/
def GivenUp (pending rest : List EventBatch) : Prop :=
  rest = pending ∨ ∃ front d back, pending = front ++ d :: back ∧ rest = front ++ back ∧ kept d = false

theorem GivenUp.feeds {pending rest : List EventBatch} (h : GivenUp pending rest)
    (hfeeds : Feeds deliver kept downs pending target) : Feeds deliver kept downs rest target := by
  rcases h with rfl | ⟨front, d, back, rfl, rfl, hd⟩
  · exact hfeeds
  · exact hfeeds.remove hd

/-- An open dispatcher puts the batch at the end, or has no room for it. -/
theorem Submitted.pending (h : Submitted l s b o s') (hopen : s.Open) (hevents : b.events ≠ []) :
    (o = .full ∧ s'.pending = s.pending) ∨
      (o.accepted = true ∧ ∃ rest, s'.pending = rest ++ [b] ∧ GivenUp s.pending rest) := by
  cases h with
  | empty hempty => exact absurd hempty hevents
  | closed _ hclosed =>
    rcases hclosed with hclosed | hclosed
    · exact absurd (hopen.1.symm.trans hclosed) Bool.false_ne_true
    · exact absurd (hopen.2.symm.trans hclosed) Bool.false_ne_true
  | @coalesced init old _ _ _ hqueue hold =>
    refine Or.inr ⟨rfl, s.worker.batch ++ init, (List.append_assoc _ _ _).symm, Or.inr ?_⟩
    refine ⟨s.worker.batch ++ init, old, [], ?_, (List.append_nil _).symm,
      kept_of_droppable (by simp [droppable, hold])⟩
    rw [Dispatcher.pending, hqueue, List.append_assoc]
  | queued => exact Or.inr ⟨rfl, s.pending, (List.append_assoc _ _ _).symm, Or.inl rfl⟩
  | @evicted front rest d _ _ _ _ hqueue hd =>
    refine Or.inr ⟨rfl, s.worker.batch ++ (front ++ rest), (List.append_assoc _ _ _).symm, Or.inr ?_⟩
    refine ⟨s.worker.batch ++ front, d, rest, ?_, (List.append_assoc _ _ _).symm, kept_of_droppable hd⟩
    rw [Dispatcher.pending, hqueue, List.append_assoc]
  | full => exact Or.inl ⟨rfl, rfl⟩

/-- The worker moves a batch on, or gives up one that need not be kept. -/
theorem Worked.pending (h : Worked s s') (hlog : s'.log = s.log) : GivenUp s.pending s'.pending := by
  have hgrown : ∀ entry, s.log ++ [entry] ≠ s.log := by
    intro entry heq
    have := congrArg List.length heq
    simp at this
  cases h with
  | pop hworker hqueue =>
    left
    simp only [Dispatcher.pending, hworker, hqueue]
    rfl
  | @stale b hworker hkept =>
    refine Or.inr ⟨[], b, s.queue_, ?_, rfl, hkept⟩
    simp [Dispatcher.pending, hworker, Worker.batch]
  | deliver hworker =>
    left
    simp only [Dispatcher.pending, hworker]
    rfl
  | delivered => exact absurd hlog (hgrown _)
  | failed => exact absurd hlog (hgrown _)
  | handled hworker =>
    left
    simp only [Dispatcher.pending, hworker]
    rfl
  | exit hworker hqueue hstop =>
    left
    simp only [Dispatcher.pending, hworker]
    rfl
  | handler => exact Or.inl rfl
  | stop => exact Or.inl rfl

/-- Only the end of a delivery can be a failure. -/
theorem Worked.failed_of_log (h : Worked s s') (hlog : s'.log = s.log) :
    s'.transport_failed_ = s.transport_failed_ := by
  cases h with
  | failed =>
    have := congrArg List.length hlog
    simp at this
  | _ => rfl

end Dispatcher

/-! ## Steps -/

namespace Pipeline

variable {l : Limits} {s s' : Pipeline} {op : PipelineOp}

def keys_down (s : Pipeline) : Downs := fun d => (s.devices d).down

structure Steady (s : Pipeline) : Prop where
  ended : Dispatcher.Ended s.dispatcher
  stopped : s.dispatcher.stopping_ = true → s.stage = .closed
  inside : Held.Inside s.producers.held
  fed : s.dispatcher.transport_failed_ = false →
    Feeds deliver kept s.keys_down s.dispatcher.pending (Held.injected s.producers.held)
  up : s.dispatcher.transport_failed_ = true → ∀ d, (s.devices d).down = ∅

theorem Steady.nothingStuck (hs : Steady s) : NothingStuck s := by
  intro hqueue hbatch hhost d
  have hpending : s.dispatcher.pending = [] := by rw [Dispatcher.pending, hqueue, hbatch]; rfl
  cases hfailed : s.dispatcher.transport_failed_ with
  | true => exact hs.up hfailed d
  | false =>
    have hfed := hs.fed hfailed
    rw [hpending] at hfed
    have hdown : (s.devices d).down = (s.producers.held d).injected_held_ := congrFun hfed d
    rw [hdown]
    apply OrdMap.eq_empty_of_forall_not_mem
    intro c hc
    have hheld := hs.inside d c hc
    rw [hhost d] at hheld
    exact OrdMap.not_mem_empty c hheld

theorem ended_step (hs : Dispatcher.Ended s.dispatcher) (h : Stepped l s s' op) : Dispatcher.Ended s'.dispatcher := by
  cases h with
  | @call c now enqueued hstage hop hproducers hdispatcher hdevices =>
    obtain ⟨act, -, -, -, hrun⟩ := call_spec l s c now enqueued
    rw [hdispatcher, hrun]
    cases act with
    | quiet after => exact hs
    | submit b accepted rejected =>
      obtain ⟨b', o, -, hsub, -⟩ := Dispatcher.submit_result l s.dispatcher b now enqueued
      exact hsub.ended hs
  | finish hop hworker hresult hdispatcher hproducers hdevices =>
    exact (Dispatcher.finish_worked hdispatcher).ended hs
  | work hwork hlog hproducers hdevices => exact hwork.ended hs
  | reset hhandling hdispatcher hlog hproducers hdevices =>
    rcases hdispatcher with hwork | hsame
    · exact hwork.ended hs
    · rw [hsame]
      exact hs
  | create hdispatcher hproducers hdevices =>
    rw [hdispatcher]
    exact hs

theorem inside_step (hs : Held.Inside s.producers.held) (h : Stepped l s s' op) : Held.Inside s'.producers.held := by
  cases h with
  | @call c now enqueued hstage hop hproducers hdispatcher hdevices =>
    obtain ⟨act, hact, -, hheld, -⟩ := call_spec l s c now enqueued
    rw [hproducers, hheld]
    exact hact.inside hs _ _
  | finish hop hworker hresult hdispatcher hproducers hdevices =>
    rw [hproducers]
    exact hs
  | work hwork hlog hproducers hdevices =>
    rw [hproducers]
    exact hs
  | @reset stream hhandling hdispatcher hlog hproducers hdevices =>
    rw [hproducers, reset]
    split
    · exact hs
    · exact Producers.inside_reset hs stream
  | create hdispatcher hproducers hdevices =>
    rw [hproducers]
    exact hs

theorem takes_of_accepted {disp disp' : Dispatcher} {o : Outcome} (hsub : Dispatcher.Submitted l disp b' o disp')
    (hstamp : Dispatcher.Stamped b b') (hopen : disp.Open) (hkind : b.kind = .Repeat) (hevents : b.events ≠ [])
    (ho : o.accepted = true) : takes l disp b = true := by
  have hlimit : l.limit b' = l.limit b := by rw [Limits.limit, Limits.limit, hstamp.is_release]
  have hroom : (disp.queue_.length < l.limit b || disp.queue_.any droppable) = true := by
    cases hsub with
    | empty hempty => exact absurd (hstamp.events ▸ hempty) hevents
    | closed => cases ho
    | coalesced _ _ _ _ _ hmotion =>
      rw [hstamp.kind, hkind] at hmotion
      cases hmotion
    | queued _ _ _ hroom => simp [← hlimit, hroom]
    | evicted _ _ _ _ hqueue hd => simp [hqueue, hd]
    | full => cases ho
  rw [takes, hopen.1, hopen.2, hroom]
  rfl

/-- A repeat that is accepted is one of an injected code. -/
theorem repeat_injected {c : InputCall} {now enqueued : UInt64} {act : Act} (hact : Acts s.producers.held act)
    (hsubmits : s.producers.submits c = act.batches) (hb : b ∈ act.batches)
    (hop : op = .call c now enqueued ∨ ReleaseAll c) (halone : FailsAlone l s op)
    (htakes : b.kind = .Repeat → takes l s.dispatcher b = true) (hkind : b.kind = .Repeat) :
    ∀ e ∈ b.events, e.type = EV_KEY → e.code ∈ (s.producers.held .Keyboard).injected_held_ := by
  rcases hop with rfl | hrelease
  · exact halone b (hsubmits ▸ hb) hkind (htakes hkind)
  · -- A release is no repeat.
    have hyes := is_release_of_release_all hrelease (hsubmits ▸ hb)
    obtain ⟨code, seq, time, -, rfl, -⟩ := hact.repeat_of_kind hb hkind
    simp [is_release, HeldCodes.transition, key_event, syn_report, EV_KEY, EV_SYN] at hyes

theorem fed_call {c : InputCall} {now enqueued : UInt64} (hs : Steady s) (hfit : ReleasesFit s')
    (halone : FailsAlone l s op) (hstage : s.stage ≠ .closed) (hop : op = .call c now enqueued ∨ ReleaseAll c)
    (hproducers : s'.producers = (s.call l c now enqueued).producers)
    (hdispatcher : s'.dispatcher = (s.call l c now enqueued).dispatcher) (hdevices : s'.devices = s.devices) :
    s'.dispatcher.transport_failed_ = s.dispatcher.transport_failed_ ∧
      (s.dispatcher.transport_failed_ = false →
        Feeds deliver kept s'.keys_down s'.dispatcher.pending (Held.injected s'.producers.held)) := by
  obtain ⟨act, hact, hsubmits, hheld, hrun⟩ := call_spec l s c now enqueued
  rw [← hproducers] at hheld
  rw [← hdispatcher] at hrun
  have hdown : s'.keys_down = s.keys_down := by
    unfold keys_down
    rw [hdevices]
  rw [hdown, hheld]
  cases act with
  | quiet after =>
    simp only [Act.run] at hrun ⊢
    rw [hrun, hact.quiet_target]
    exact ⟨rfl, hs.fed⟩
  | submit b accepted rejected =>
    obtain ⟨b', o, hstamp, hsub, hanswer⟩ := Dispatcher.submit_result l s.dispatcher b now enqueued
    simp only [Act.run, hanswer] at hrun ⊢
    have hsub' : Dispatcher.Submitted l s.dispatcher b' o s'.dispatcher := hrun ▸ hsub
    refine ⟨hsub'.frame.2.2.1, fun hfailed => ?_⟩
    have hopen : s.dispatcher.Open := by
      refine ⟨?_, hfailed⟩
      by_contra hstop
      exact hstage (hs.stopped (Bool.eq_true_of_not_eq_false hstop))
    have hevents := hact.events_ne_nil
    rcases hsub'.pending hopen (hstamp.events ▸ hevents) with ⟨rfl, hpending⟩ | ⟨ho, rest, hpending, hgiven⟩
    · have hrelease : is_release b = false := by
        rw [← hstamp.is_release]
        apply hfit b'
        rw [hsub'.calls]
        exact List.mem_append_right _ (List.mem_singleton.mpr rfl)
      rw [hpending, if_neg (by decide), hact.rejected_target hrelease]
      exact hs.fed hfailed
    · have hrepeat := repeat_injected hact hsubmits (List.mem_singleton.mpr rfl) hop halone
        (fun hkind => takes_of_accepted hsub' hstamp hopen hkind hevents ho)
      obtain ⟨htarget, hsame⟩ := hact.target hrepeat
      rw [hpending, if_pos ho, ← htarget, ← deliver_stamped hstamp]
      refine (hgiven.feeds (hs.fed hfailed)).snoc fun hkept => ?_
      rw [deliver_stamped hstamp]
      exact hsame (kept_stamped hstamp ▸ hkept)

/-- The batch has reached its device. -/
theorem Steady.delivered {batch : EventBatch} {device : Device} {writes : List WriteResult} {now : UInt64}
    (hs : Steady s) (hworker : s.dispatcher.worker = .delivering batch)
    (hresult : (s.devices batch.stream).deliver_events batch.events writes = some (device, true))
    (hdispatcher : s.dispatcher.finish true now = some s'.dispatcher)
    (hdevices : s'.devices = update s.devices batch.stream device) :
    s'.dispatcher.transport_failed_ = false ∧
      Feeds deliver kept s'.keys_down s'.dispatcher.pending (Held.injected s.producers.held) := by
  have hpending : s.dispatcher.pending = batch :: s.dispatcher.queue_ := by rw [Dispatcher.pending, hworker]; rfl
  have hfailed : s.dispatcher.transport_failed_ = false := by
    by_contra hfailed
    have hcut := hs.ended.cut (Bool.eq_true_of_not_eq_false hfailed)
    rw [hpending] at hcut
    cases hcut
  have hdown : s'.keys_down = deliver s.keys_down batch := by
    funext d
    unfold keys_down deliver
    rw [hdevices]
    by_cases hd : d = batch.stream
    · subst hd
      rw [update_self, update_self]
      exact Device.deliver_events_true hresult
    · rw [update_of_ne hd, update_of_ne hd]
  simp only [Dispatcher.finish, hworker, if_true] at hdispatcher
  have hfed := hs.fed hfailed
  rw [hpending] at hfed
  rw [← Option.some.inj hdispatcher, hdown]
  exact ⟨hfailed, hfed.2⟩

/-- The batch has not reached its device, which is gone; the other one has all keys up. -/
theorem up_of_failed {batch : EventBatch} {device : Device} {writes : List WriteResult} {now : UInt64}
    (hworker : s.dispatcher.worker = .delivering batch) (halone : FailsAlone l s (.finish writes now))
    (hresult : (s.devices batch.stream).deliver_events batch.events writes = some (device, false))
    (hdispatcher : s.dispatcher.finish false now = some s'.dispatcher)
    (hdevices : s'.devices = update s.devices batch.stream device) :
    s'.dispatcher.transport_failed_ = true ∧ ∀ d, (s'.devices d).down = ∅ := by
  simp only [Dispatcher.finish, hworker, Bool.false_eq_true, if_false] at hdispatcher
  refine ⟨by rw [← Option.some.inj hdispatcher], fun d => ?_⟩
  rw [hdevices]
  by_cases hd : d = batch.stream
  · subst hd
    rw [update_self]
    exact Device.deliver_events_false hresult
  · rw [update_of_ne hd]
    exact halone batch hworker device hresult d hd

theorem Steady.step (hs : Steady s) (hfit : ReleasesFit s') (halone : FailsAlone l s op)
    (h : s.step l op = some s') : Steady s' := by
  have hstepped := step_stepped h
  have hended := ended_step hs.ended hstepped
  have hstopped := stopped_step hs.stopped h
  have hinside := inside_step hs.inside hstepped
  cases hstepped with
  | call hstage hop hproducers hdispatcher hdevices =>
    obtain ⟨hfailed, hfed⟩ := fed_call hs hfit halone hstage hop hproducers hdispatcher hdevices
    refine ⟨hended, hstopped, hinside, fun hopen => hfed (hfailed ▸ hopen), fun hclosed d => ?_⟩
    rw [hdevices]
    exact hs.up (hfailed ▸ hclosed) d
  | @finish batch result writes now hop hworker hresult hdispatcher hproducers hdevices =>
    obtain ⟨device, ok⟩ := result
    cases ok with
    | true =>
      obtain ⟨hopen, hfed⟩ := hs.delivered hworker hresult hdispatcher hdevices
      refine ⟨hended, hstopped, hinside, fun _ => hproducers ▸ hfed, fun hfailed => ?_⟩
      exact absurd (hopen.symm.trans hfailed) Bool.false_ne_true
    | false =>
      obtain ⟨hfailed, hup⟩ := up_of_failed hworker (hop ▸ halone) hresult hdispatcher hdevices
      refine ⟨hended, hstopped, hinside, fun hopen => ?_, fun _ => hup⟩
      exact absurd (hopen.symm.trans hfailed) Bool.false_ne_true
  | work hwork hlog hproducers hdevices =>
    have hfailed := hwork.failed_of_log hlog
    have hdown : s'.keys_down = s.keys_down := by
      unfold keys_down
      rw [hdevices]
    refine ⟨hended, hstopped, hinside, fun hopen => ?_, fun hclosed d => ?_⟩
    · rw [hdown, hproducers]
      exact (hwork.pending hlog).feeds (hs.fed (hfailed ▸ hopen))
    · rw [hdevices]
      exact hs.up (hfailed ▸ hclosed) d
  | reset hhandling hdispatcher hlog hproducers hdevices =>
    have hfailed : s'.dispatcher.transport_failed_ = true := by
      rcases hdispatcher with hwork | hsame
      · rw [hwork.failed_of_log hlog]
        exact hs.ended.handling hhandling
      · rw [hsame]
        exact hs.ended.handling hhandling
    refine ⟨hended, hstopped, hinside, fun hopen => ?_, fun _ d => ?_⟩
    · exact absurd (hopen.symm.trans hfailed) Bool.false_ne_true
    · rw [hdevices]
      exact hs.up (hs.ended.handling hhandling) d
  | @create stream hdispatcher hproducers hdevices =>
    have hdown : s'.keys_down = s.keys_down := by
      funext d
      unfold keys_down
      rw [hdevices]
      by_cases hd : d = stream
      · subst hd
        rw [update_self, Device.down_create]
      · rw [update_of_ne hd]
    refine ⟨hended, hstopped, hinside, ?_, fun hclosed d => ?_⟩
    · rw [hdown, hproducers, hdispatcher]
      exact hs.fed
    · rw [show (s'.devices d).down = (s.devices d).down from congrFun hdown d]
      exact hs.up (hdispatcher ▸ hclosed) d

theorem steady_init (l : Limits) (policy : RepeatPolicy) : Steady (pipelineMachine l policy).init where
  ended := ⟨fun _ _ h => (nomatch h), fun h => (nomatch h), justified_nil, fun h => (nomatch h), fun h => nomatch h⟩
  stopped := fun h => nomatch h
  inside := fun d c hc => by cases d <;> exact absurd hc (OrdMap.not_mem_empty c)
  fed := fun _ => by
    funext d
    cases d <;> rfl
  up := fun h => nomatch h

/-- In every run in which no release is rejected for lack of room, a delivery fails only while the other device has
all keys up, and the repeats that are accepted are those of injected codes: whenever nothing is under way and the host
holds nothing, nothing is stuck. -/
theorem nothing_stuck (l : Limits) (policy : RepeatPolicy) (is : List PipelineOp)
    (hfit : (pipelineMachine l policy).AllStates ReleasesFit (pipelineMachine l policy).init is)
    (halone : (pipelineMachine l policy).AllSteps (FailsAlone l) (pipelineMachine l policy).init is) :
    (pipelineMachine l policy).AllStates NothingStuck (pipelineMachine l policy).init is := by
  refine Machine.allStates_of_allSteps (P := Steady) ?_ (fun s hs => hs.nothingStuck) (steady_init l policy)
    (Machine.allSteps_and halone (Machine.allSteps_of_allStates hfit))
  rintro s op s' hs ⟨hop, -, hnext⟩ h
  exact hs.step (hnext s' h) hop h

theorem releasesFit_of_all (h : (s.dispatcher.calls.all fun call => call.2 ≠ .full || !is_release call.1) = true) :
    ReleasesFit s := by
  intro batch hbatch
  have hcall := List.all_eq_true.mp h _ hbatch
  simpa using hcall

theorem failsAlone_of_no_repeat {c : InputCall} {now enqueued : UInt64}
    (h : ((s.producers.submits c).all fun batch => batch.kind ≠ .Repeat) = true) :
    FailsAlone l s (.call c now enqueued) := by
  intro batch hbatch hkind
  have := List.all_eq_true.mp h batch hbatch
  simp [hkind] at this

theorem failsAlone_of_delivered {batch : EventBatch} {writes : List WriteResult} {now : UInt64}
    (hworker : s.dispatcher.worker = .delivering batch)
    (h : ((s.devices batch.stream).deliver_events batch.events writes).map Prod.snd = some true) :
    FailsAlone l s (.finish writes now) := by
  intro batch' hworker' device hresult
  cases hworker.symm.trans hworker'
  rw [hresult] at h
  cases h

/-- Both devices exist, and a key is pressed and its press delivered. -/
def key_delivered : List PipelineOp :=
  [.create_uinput_device .Keyboard, .create_uinput_device .Pointer, .call (.key KEY_A true false 1) 1 1, .pop, .check 1,
    .finish [.written 48] 1]

/-- The pointer moves, and its device fails. -/
def pointer_fails : List PipelineOp := [.call (.absolute 5 5 1) 1 1, .pop, .check 1, .finish [.failed] 1]

/-- The key is released before the pointer fails. -/
def released_before : List PipelineOp :=
  key_delivered ++ [.call (.key KEY_A false false 1) 1 1, .pop, .check 1,
    .finish [.interrupted, .written 24, .again true, .written 24] 1] ++ pointer_fails

/-- The key is released after the pointer has failed, and the failure handler runs. -/
def released_after : List PipelineOp :=
  key_delivered ++ pointer_fails ++ [.call (.key KEY_A false false 1) 1 1, .handler_keyboard, .handler_pointer]

theorem nothing_stuck_released_before :
    (pipelineMachine (Limits.ofArguments 384 256) .IgnoreHost).AllStates NothingStuck {} released_before := by
  refine nothing_stuck (Limits.ofArguments 384 256) .IgnoreHost released_before ?_ ?_
  · iterate 14 refine (Machine.allStates_cons rfl).mpr ⟨releasesFit_of_all (by decide), ?_⟩
    exact releasesFit_of_all (by decide)
  · iterate 2 refine (Machine.allSteps_cons rfl).mpr ⟨trivial, ?_⟩
    iterate 2
      refine (Machine.allSteps_cons rfl).mpr ⟨failsAlone_of_no_repeat (by decide), ?_⟩
      iterate 2 refine (Machine.allSteps_cons rfl).mpr ⟨trivial, ?_⟩
      refine (Machine.allSteps_cons rfl).mpr ⟨failsAlone_of_delivered rfl (by decide), ?_⟩
    refine (Machine.allSteps_cons rfl).mpr ⟨failsAlone_of_no_repeat (by decide), ?_⟩
    iterate 2 refine (Machine.allSteps_cons rfl).mpr ⟨trivial, ?_⟩
    -- The keyboard has all keys up when the delivery to the pointer fails.
    refine (Machine.allSteps_cons rfl).mpr ⟨fun batch hworker device _ stream hstream => ?_, trivial⟩
    cases hworker
    cases stream with
    | Keyboard => decide
    | Pointer => exact absurd rfl hstream

/-- The press has reached the keyboard when the delivery to the pointer fails: the release is refused, and the key
stays down at the keyboard, which still exists. -/
theorem key_stuck_after_pointer_failed :
    (pipelineMachine (Limits.ofArguments 384 256) .IgnoreHost).AllStates ReleasesFit {} released_after ∧
      ¬ (pipelineMachine (Limits.ofArguments 384 256) .IgnoreHost).AllStates NothingStuck {} released_after := by
  constructor
  · iterate 13 refine (Machine.allStates_cons rfl).mpr ⟨releasesFit_of_all (by decide), ?_⟩
    exact releasesFit_of_all (by decide)
  · intro h
    have hstuck : NothingStuck _ := h.last rfl
    have hup := hstuck rfl rfl (fun stream => by cases stream <;> rfl) .Keyboard
    exact absurd hup (by decide)

end Pipeline

end AnboxReboxed.Input
