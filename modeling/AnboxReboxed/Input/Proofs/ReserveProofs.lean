import AnboxReboxed.Input.Proofs.PipelineProofs

/-!
# Proofs: the release reserve

What does not give way in the queue and what is held together fit into the queue (`Reserved`). A release moves one
from the second to the first; a press below the normal limit stays clear of the reserve. Only a press or a wheel that
enters by eviction can break it.
-/

namespace AnboxReboxed.Input

open AnboxReboxed.Lib Function

/-! ## What `submit` does to the part of the queue that stays -/

namespace Dispatcher

open Pipeline (fixed)

variable {l : Limits} {s s' : Dispatcher} {b : EventBatch} {o : Outcome}

theorem fixed_append (xs ys : List EventBatch) : fixed (xs ++ ys) = fixed xs + fixed ys := List.countP_append

theorem fixed_cons_droppable {d : EventBatch} {xs : List EventBatch} (h : droppable d = true) :
    fixed (d :: xs) = fixed xs := by simp [fixed, h]

theorem fixed_singleton_kept (h : droppable b = false) : fixed [b] = 1 := by simp [fixed, h]

theorem fixed_le_length (queue : List EventBatch) : fixed queue ≤ queue.length := List.countP_le_length

theorem Submitted.queue_of_rejected (h : Submitted l s b o s') (ho : o.accepted = false) : s'.queue_ = s.queue_ := by
  cases h with
  | empty => cases ho
  | closed => rfl
  | coalesced => cases ho
  | queued => cases ho
  | evicted => cases ho
  | full => rfl

theorem Submitted.fixed_droppable (h : Submitted l s b o s') (hb : droppable b = true) :
    fixed s'.queue_ = fixed s.queue_ := by
  have hb' : fixed [b] = 0 := fixed_cons_droppable hb
  cases h with
  | empty => rfl
  | closed => rfl
  | @coalesced init old _ _ _ hqueue hold =>
    have hold' : droppable old = true := by simp [droppable, hold]
    rw [hqueue, fixed_append, fixed_cons_droppable hold']
    exact (fixed_append _ _).trans (by rw [hb']; rfl)
  | queued => exact (fixed_append _ _).trans (by rw [hb', Nat.add_zero]; rfl)
  | evicted _ _ _ _ hqueue hd =>
    rw [hqueue, fixed_append, fixed_cons_droppable hd, ← fixed_append]
    exact (fixed_append _ _).trans (by rw [hb', Nat.add_zero])
  | full => rfl

/-- A batch that stays enters below its limit or in the place of one that gives way. -/
theorem Submitted.fixed_kept (h : Submitted l s b o s') (hb : droppable b = false) (hevents : b.events ≠ [])
    (ho : o.accepted = true) :
    fixed s'.queue_ = fixed s.queue_ + 1 ∧
      (s.queue_.length < l.limit b ∨ (l.limit b ≤ s.queue_.length ∧ s.queue_.any droppable = true)) := by
  have hb' := fixed_singleton_kept hb
  cases h with
  | empty hempty => exact absurd hempty hevents
  | closed => cases ho
  | coalesced _ _ _ _ _ hkind => simp [droppable, hkind] at hb
  | queued _ _ _ hroom => exact ⟨(fixed_append _ _).trans (by rw [hb']; rfl), Or.inl hroom⟩
  | evicted _ _ _ hover hqueue hd =>
    refine ⟨?_, Or.inr ⟨hover, ?_⟩⟩
    · rw [hqueue, fixed_append, fixed_cons_droppable hd, ← fixed_append]
      exact (fixed_append _ _).trans (by rw [hb'])
    · rw [hqueue, List.any_append, List.any_cons, hd]
      simp
  | full => cases ho

/-- The queue is full of batches that stay. -/
theorem Submitted.fixed_full (h : Submitted l s b .full s') : l.limit b ≤ fixed s.queue_ := by
  cases h with
  | full _ _ hover hnone =>
    have hall : fixed s.queue_ = s.queue_.length := by
      apply List.countP_eq_length.mpr
      intro d hd
      simp [hnone d hd]
    omega

end Dispatcher

/-! ## What a call does to the codes that are held -/

/-- The number of injected codes. -/
def Held.count (h : Held) : Nat := (h .Keyboard).injected_held_.size + (h .Pointer).injected_held_.size

theorem Held.count_update (h : Held) (d : Stream) (x : HeldCodes) :
    Held.count (update h d x) + (h d).injected_held_.size = Held.count h + x.injected_held_.size := by
  cases d with
  | Keyboard =>
    simp only [Held.count, update_self, ne_eq, reduceCtorEq, not_false_eq_true, update_of_ne]
    omega
  | Pointer =>
    simp only [Held.count, update_self, ne_eq, reduceCtorEq, not_false_eq_true, update_of_ne]
    omega

theorem Held.count_host {h : Held} {d : Stream} {x : HeldCodes} (hx : x.injected_held_ = (h d).injected_held_) :
    Held.count (update h d x) = Held.count h := by
  have hcount := Held.count_update h d x
  rw [hx] at hcount
  exact Nat.add_right_cancel hcount

theorem size_insert_le (codes : OrdSet Code) (c : Code) : (codes.insert c ()).size ≤ codes.size + 1 := by
  by_cases h : c ∈ codes
  · obtain ⟨v, hv⟩ := OrdMap.mem_iff.mp h
    have := OrdMap.size_insert_of_find? (w := ()) hv
    omega
  · exact Nat.le_of_eq (OrdMap.size_insert_of_not_mem h)

theorem size_erase_add_one {codes : OrdSet Code} {c : Code} (h : c ∈ codes) :
    (codes.erase c).size + 1 = codes.size := by
  obtain ⟨v, hv⟩ := OrdMap.mem_iff.mp h
  exact OrdMap.size_erase hv

theorem size_pos_of_ne_empty {codes : OrdSet Code} (h : codes ≠ ∅) : 1 ≤ codes.size := by
  by_contra hzero
  apply h
  have hentries : codes.entries = [] := List.eq_nil_of_length_eq_zero (by unfold OrdMap.size at hzero; omega)
  apply OrdMap.eq_empty_of_forall_not_mem
  intro c hc
  have := OrdMap.mem_keys_iff.mpr hc
  rw [OrdMap.keys, hentries] at this
  cases this

/-- A quiet call keeps the number of injected codes. -/
theorem Acts.count_quiet {h after : Held} (hact : Acts h (.quiet after)) : after.count = h.count := by
  cases hact with
  | quiet => rfl
  | forgets => exact Held.count_host rfl
  | clears => exact Held.count_host rfl

/-- What a batch means for the number of injected codes: a release takes away at least one, and only a press adds
one. -/
inductive CountStep (b : EventBatch) (before accepted rejected : Nat) : Prop where
  | release (hrelease : is_release b = true) (hdrop : droppable b = false) (haccepted : accepted + 1 ≤ before)
      (hrejected : rejected + 1 ≤ before)
  | transient (hrelease : is_release b = false) (hdrop : droppable b = true) (haccepted : accepted = before)
      (hrejected : rejected = before)
  | stays (hrelease : is_release b = false) (hdrop : droppable b = false)
      (haccepted : accepted ≤ before + if b.kind = .Wheel then 0 else 1) (hrejected : rejected = before)

theorem press_kind_cases (d : Stream) : d.press_kind = .Key ∨ d.press_kind = .Button := by
  cases d
  · exact Or.inl rfl
  · exact Or.inr rfl

theorem Acts.count_submit {h accepted rejected : Held} {b : EventBatch} (hact : Acts h (.submit b accepted rejected)) :
    CountStep b h.count accepted.count rejected.count := by
  cases hact with
  | @press d c seq time hc =>
    have haccepted := Held.count_update h d
      { host_held_ := (h d).host_held_.insert c (), injected_held_ := (h d).injected_held_.insert c () }
    have hsize := size_insert_le (h d).injected_held_ c
    dsimp only at haccepted
    rcases press_kind_cases d with hkind | hkind
    all_goals
      refine .stays ?_ ?_ ?_ (Held.count_host rfl)
      · simp [is_release, HeldCodes.transition, key_event, syn_report, hkind, EV_KEY, EV_SYN]
      · simp [droppable, HeldCodes.transition, hkind]
      · simp only [HeldCodes.transition, hkind, reduceCtorEq, if_false]
        omega
  | repeats =>
    refine .transient ?_ ?_ rfl rfl
    · simp [is_release, HeldCodes.transition, key_event, syn_report, EV_KEY, EV_SYN]
    · simp [droppable, HeldCodes.transition]
  | @release d c seq time after hc hafter =>
    subst hafter
    have hcount := Held.count_update h d
      { host_held_ := (h d).host_held_.erase c, injected_held_ := (h d).injected_held_.erase c }
    have hsize := size_erase_add_one hc
    dsimp only at hcount
    refine .release ?_ ?_ (by omega) (by omega)
    · simp [is_release, HeldCodes.transition, key_event]
    · rcases press_kind_cases d with hkind | hkind <;> simp [droppable, HeldCodes.transition, hkind]
  | @release_all d seq time hne =>
    have hcount := Held.count_update h d {}
    have hsize := size_pos_of_ne_empty hne
    have hempty : ({} : HeldCodes).injected_held_.size = 0 := rfl
    refine .release ?_ ?_ (by omega) (by omega)
    · simp [is_release, HeldCodes.forced_release]
    · simp [droppable, HeldCodes.forced_release]
  | state hkind hevents hkeys =>
    have hrelease : is_release b = false := by
      have hany : b.events.any (fun event => event.type = EV_KEY && event.value = 0) = false := by
        rw [List.any_eq_false]
        intro e he
        simp [hkeys e he]
      rw [is_release, hany]
      rcases hkind with hkind | hkind <;> simp [hkind]
    rcases hkind with hkind | hkind
    · exact .transient hrelease (by simp [droppable, hkind]) rfl rfl
    · exact .stays hrelease (by simp [droppable, hkind]) (by simp [hkind]) rfl

/-! ## Steps -/

namespace Pipeline

variable {l : Limits} {s s' : Pipeline}

structure Reserved (l : Limits) (s : Pipeline) : Prop where
  room : fixed s.dispatcher.queue_ + s.held ≤ l.capacity_
  fit : ReleasesFit s

theorem limit_release {b : EventBatch} (h : is_release b = true) : l.limit b = l.capacity_ := if_pos h

theorem limit_other {b : EventBatch} (h : is_release b = false) : l.limit b = l.capacity_ - l.release_reserve_ := by
  rw [Limits.limit, h]
  rfl

/-- The batches that a call submits leave room, as in `LeavesRoom`. -/
def CallLeavesRoom (l : Limits) (s : Pipeline) (c : InputCall) : Prop :=
  ∀ batch ∈ s.producers.submits c, is_release batch = false → droppable batch = false →
    l.normal_limit ≤ s.dispatcher.queue_.length → s.dispatcher.queue_.any droppable = true →
      fixed s.dispatcher.queue_ + 1 + (s.held + if batch.kind = .Wheel then 0 else 1) ≤ l.capacity_

/-- One batch is submitted; `count` codes are injected afterwards. -/
theorem room_submitted {d d' : Dispatcher} {b b' : EventBatch} {o : Outcome} {before accepted rejected count : Nat}
    (hsub : Dispatcher.Submitted l d b' o d') (hstamp : Dispatcher.Stamped b b') (hevents : b.events ≠ [])
    (hcount : count = if o.accepted then accepted else rejected) (hstep : CountStep b before accepted rejected)
    (hroom : fixed d.queue_ + before ≤ l.capacity_) (hreserve : count ≤ l.release_reserve_)
    (hleaves : is_release b = false → droppable b = false → l.normal_limit ≤ d.queue_.length →
      d.queue_.any droppable = true →
        fixed d.queue_ + 1 + (before + if b.kind = .Wheel then 0 else 1) ≤ l.capacity_) :
    fixed d'.queue_ + count ≤ l.capacity_ ∧ (o = .full → is_release b' = false) := by
  have hreserve_le := l.reserve_le
  cases hstep with
  | release hrelease hdrop haccepted hrejected =>
    have hfull : o ≠ .full := by
      rintro rfl
      have hfixed := hsub.fixed_full
      rw [limit_release (hstamp.is_release.trans hrelease)] at hfixed
      omega
    refine ⟨?_, fun ho => absurd ho hfull⟩
    cases ho : o.accepted with
    | true =>
      have hfixed := (hsub.fixed_kept (hstamp.droppable.trans hdrop) (hstamp.events ▸ hevents) ho).1
      rw [ho, if_pos rfl] at hcount
      omega
    | false =>
      rw [ho, if_neg Bool.false_ne_true] at hcount
      rw [hsub.queue_of_rejected ho]
      omega
  | transient hrelease hdrop haccepted hrejected =>
    refine ⟨?_, fun _ => hstamp.is_release.trans hrelease⟩
    rw [hsub.fixed_droppable (hstamp.droppable.trans hdrop), hcount, haccepted, hrejected, ite_self]
    exact hroom
  | stays hrelease hdrop haccepted hrejected =>
    refine ⟨?_, fun _ => hstamp.is_release.trans hrelease⟩
    cases ho : o.accepted with
    | true =>
      obtain ⟨hfixed, henters⟩ := hsub.fixed_kept (hstamp.droppable.trans hdrop) (hstamp.events ▸ hevents) ho
      rw [ho, if_pos rfl] at hcount
      rw [limit_other (hstamp.is_release.trans hrelease)] at henters
      rcases henters with hbelow | ⟨hover, hany⟩
      · have := Dispatcher.fixed_le_length d.queue_
        omega
      · have := hleaves hrelease hdrop hover hany
        omega
    | false =>
      rw [ho, if_neg Bool.false_ne_true] at hcount
      rw [hsub.queue_of_rejected ho]
      omega

theorem Reserved.call {c : InputCall} {now enqueued : UInt64} (hs : Reserved l s) (hleaves : CallLeavesRoom l s c)
    (hreserve : (s.call l c now enqueued).held ≤ l.release_reserve_) : Reserved l (s.call l c now enqueued) := by
  obtain ⟨act, hact, hsubmits, hheld, hdispatcher⟩ := call_spec l s c now enqueued
  have hcount : (s.call l c now enqueued).held = Held.count _ := congrArg Held.count hheld
  cases act with
  | quiet after =>
    constructor
    · rw [hdispatcher, hcount]
      exact hact.count_quiet ▸ hs.room
    · unfold ReleasesFit
      rw [hdispatcher]
      exact hs.fit
  | submit b accepted rejected =>
    obtain ⟨b', o, hstamp, hsub, hanswer⟩ := Dispatcher.submit_result l s.dispatcher b now enqueued
    simp only [Act.run, hanswer] at hcount hdispatcher
    have hcount' : (s.call l c now enqueued).held = if o.accepted then accepted.count else rejected.count := by
      rw [hcount]
      cases o.accepted <;> rfl
    obtain ⟨hroom, hfull⟩ := room_submitted hsub hstamp hact.events_ne_nil hcount' hact.count_submit hs.room hreserve
      (hleaves b (hsubmits ▸ List.mem_singleton.mpr rfl))
    constructor
    · rw [hdispatcher]
      exact hroom
    · intro batch hbatch
      rw [hdispatcher, hsub.calls, List.mem_append, List.mem_singleton] at hbatch
      rcases hbatch with hbatch | heq
      · exact hs.fit batch hbatch
      · obtain ⟨rfl, rfl⟩ := Prod.mk.inj heq
        exact hfull rfl

/-- The queue gets no longer, and no more codes are held. -/
theorem Reserved.shrink (hs : Reserved l s) (hcalls : s'.dispatcher.calls = s.dispatcher.calls)
    (hqueue : s'.dispatcher.queue_ <:+ s.dispatcher.queue_) (hheld : s'.held ≤ s.held) : Reserved l s' := by
  constructor
  · have hfixed : fixed s'.dispatcher.queue_ ≤ fixed s.dispatcher.queue_ := hqueue.sublist.countP_le
    have := hs.room
    omega
  · intro batch hbatch
    exact hs.fit batch (hcalls ▸ hbatch)

theorem held_reset_le (stream : Stream) :
    Held.count (s.reset stream).held ≤ s.held := by
  unfold reset
  by_cases hclosed : s.stage = .closed
  · rw [if_pos hclosed]
    rfl
  · rw [if_neg hclosed]
    cases stream with
    | Keyboard => exact Nat.add_le_add_right (Nat.zero_le _) _
    | Pointer => exact Nat.add_le_add_left (Nat.zero_le _) _

theorem Reserved.step {op : PipelineOp} (hs : Reserved l s) (hleaves : LeavesRoom l s op)
    (hreserve : s'.held ≤ l.release_reserve_) (h : s.step l op = some s') : Reserved l s' := by
  cases step_stepped h with
  | @call c now enqueued hstage hop hproducers hdispatcher hdevices =>
    have hleaves' : CallLeavesRoom l s c := by
      rcases hop with rfl | hc
      · exact hleaves
      · intro b hb hrelease
        rw [is_release_of_release_all hc hb] at hrelease
        cases hrelease
    have hheld : s'.held = (s.call l c now enqueued).held := by rw [held, held, hproducers]
    have hcall := hs.call hleaves' (hheld ▸ hreserve)
    constructor
    · rw [hdispatcher, hheld]
      exact hcall.room
    · unfold ReleasesFit
      rw [hdispatcher]
      exact hcall.fit
  | finish hop hworker hresult hdispatcher hproducers hdevices =>
    have hwork := Dispatcher.finish_worked hdispatcher
    exact hs.shrink hwork.suffix.1 hwork.suffix.2 (Nat.le_of_eq (by rw [held, held, hproducers]))
  | work hwork hlog hproducers hdevices =>
    exact hs.shrink hwork.suffix.1 hwork.suffix.2 (Nat.le_of_eq (by rw [held, held, hproducers]))
  | @reset stream hhandling hdispatcher hlog hproducers hdevices =>
    have hheld : s'.held ≤ s.held := by
      have hle := held_reset_le (s := s) stream
      rw [← hproducers] at hle
      exact hle
    rcases hdispatcher with hwork | hsame
    · exact hs.shrink hwork.suffix.1 hwork.suffix.2 hheld
    · exact hs.shrink (by rw [hsame]) (hsame ▸ List.suffix_refl _) hheld
  | create hdispatcher hproducers hdevices =>
    exact hs.shrink (by rw [hdispatcher]) (hdispatcher ▸ List.suffix_refl _)
      (Nat.le_of_eq (by rw [held, held, hproducers]))

/-- In every run in which no more codes are held than the reserve has places, and in which every press and wheel that
enters by eviction leaves room, no release is rejected for lack of room. -/
theorem releases_fit (l : Limits) (policy : RepeatPolicy) (is : List PipelineOp)
    (hheld : (pipelineMachine l policy).AllStates (fun s => s.held ≤ l.release_reserve_)
      (pipelineMachine l policy).init is)
    (hleaves : (pipelineMachine l policy).AllSteps (LeavesRoom l) (pipelineMachine l policy).init is) :
    (pipelineMachine l policy).AllStates ReleasesFit (pipelineMachine l policy).init is := by
  have hinit : Reserved l (pipelineMachine l policy).init := ⟨Nat.zero_le _, fun _ h => nomatch h⟩
  refine Machine.allStates_of_allSteps (P := Reserved l) ?_ (fun s hs => hs.fit) hinit
    (Machine.allSteps_and hleaves (Machine.allSteps_of_allStates hheld))
  rintro s op s' hs ⟨hop, -, hnext⟩ h
  exact hs.step hop (hnext s' h) h

/-- A key is pressed and released around a motion, and another one is pressed and released, while the worker does not
run. -/
def two_keys : List PipelineOp :=
  [.call (.key KEY_A true false 1) 1 1, .call (.absolute 5 5 1) 1 1, .call (.key KEY_A false false 1) 1 1,
    .call (.key KEY_B true false 1) 1 1, .call (.key KEY_B false false 1) 1 1]

theorem releases_fit_two_keys :
    (pipelineMachine (Limits.ofArguments 384 256) .IgnoreHost).AllStates ReleasesFit {} two_keys := by
  refine releases_fit (Limits.ofArguments 384 256) .IgnoreHost two_keys ?_ ?_
  · iterate 5 refine (Machine.allStates_cons rfl).mpr ⟨by decide, ?_⟩
    change held _ ≤ _
    decide
  · iterate 5 refine (Machine.allSteps_cons rfl).mpr ⟨fun _ _ _ _ hover => absurd hover (by decide), ?_⟩
    trivial

/-- In a queue for three batches with one place reserved, the second press takes the place of the motion while the
first release stands in the reserved one; the second release is rejected. -/
theorem second_release_rejected :
    (pipelineMachine (Limits.ofArguments 3 1) .IgnoreHost).AllStates (fun s => s.held ≤ 1) {} two_keys ∧
      ¬ (pipelineMachine (Limits.ofArguments 3 1) .IgnoreHost).AllStates ReleasesFit {} two_keys := by
  constructor
  · iterate 5 refine (Machine.allStates_cons rfl).mpr ⟨by decide, ?_⟩
    change held _ ≤ _
    decide
  · intro h
    have hfit : ReleasesFit _ := h.last rfl
    let release : EventBatch :=
      { HeldCodes.transition .Keyboard .Key KEY_B 0 4 1 with transport_sequence := 5, enqueue_time_ns := 1 }
    exact absurd (hfit release (by decide)) (by decide)

end Pipeline

end AnboxReboxed.Input
