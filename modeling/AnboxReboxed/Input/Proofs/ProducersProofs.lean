import AnboxReboxed.Input.Keyboard
import AnboxReboxed.Lib.Proofs.OrdMapProofs
import Mathlib.Logic.Function.Basic

/-!
# Proofs: what a call of the keyboard or the pointer does

Every call submits at most one batch, and only the answer to a press changes what is held afterwards. `Acts` lists
what a call can come to; the batch does not depend on the sink, so the same act describes the call for every sink.
-/

namespace AnboxReboxed.Input

open AnboxReboxed.Lib Function

/-- The codes that are held, for both streams. -/
abbrev Held := Stream → HeldCodes

/-- A call changes what is held, or submits a batch and goes on by the answer. -/
inductive Act where
  | quiet (after : Held)
  | submit (batch : EventBatch) (accepted rejected : Held)

namespace Act

variable {σ : Type}

def run (submit : Sink σ) (sink : σ) : Act → Held × σ
  | .quiet after => (after, sink)
  | .submit b accepted rejected => (if (submit sink b).2 then accepted else rejected, (submit sink b).1)

def batches : Act → List EventBatch
  | .quiet _ => []
  | .submit b _ _ => [b]

end Act

/-- The kind of a press. -/
def Stream.press_kind : Stream → BatchKind
  | .Keyboard => .Key
  | .Pointer => .Button

/-- What a call can come to when `h` is held. -/
inductive Acts (h : Held) : Act → Prop where
  | quiet : Acts h (.quiet h)
  /-- The host lets go of a code whose press was rejected. -/
  | forgets {d : Stream} {c : Code} (hc : c ∉ (h d).injected_held_) :
      Acts h (.quiet (update h d { h d with host_held_ := (h d).host_held_.erase c }))
  /-- There is nothing to release. -/
  | clears {d : Stream} (hd : (h d).injected_held_ = ∅) : Acts h (.quiet (update h d { h d with host_held_ := ∅ }))
  | press {d : Stream} {c : Code} {seq time : UInt64} (hc : c ∉ (h d).host_held_) :
      Acts h
        (.submit (HeldCodes.transition d d.press_kind c 1 seq time)
          (update h d
            { host_held_ := (h d).host_held_.insert c (), injected_held_ := (h d).injected_held_.insert c () })
          (update h d { h d with host_held_ := (h d).host_held_.insert c () }))
  | repeats {c : Code} {seq time : UInt64} (hc : c ∈ (h .Keyboard).host_held_) :
      Acts h (.submit (HeldCodes.transition .Keyboard .Repeat c 2 seq time) h h)
  | release {d : Stream} {c : Code} {seq time : UInt64} {after : Held} (hc : c ∈ (h d).injected_held_)
      (hafter : after = update h d
        { host_held_ := (h d).host_held_.erase c, injected_held_ := (h d).injected_held_.erase c }) :
      Acts h (.submit (HeldCodes.transition d d.press_kind c 0 seq time) after after)
  | release_all {d : Stream} {seq time : UInt64} (hd : (h d).injected_held_ ≠ ∅) :
      Acts h (.submit (HeldCodes.forced_release d (h d).injected_held_ seq time) (update h d {}) (update h d {}))
  /-- Motion and wheel. -/
  | state {b : EventBatch} (hkind : b.kind = .Motion ∨ b.kind = .Wheel) (hevents : b.events ≠ [])
      (hkeys : ∀ e ∈ b.events, e.type ≠ EV_KEY) : Acts h (.submit b h h)

/-- Only what the host holds is injected. -/
def Held.Inside (h : Held) : Prop := ∀ d c, c ∈ (h d).injected_held_ → c ∈ (h d).host_held_

theorem Held.Inside.update {h : Held} (hh : h.Inside) (d : Stream) {x : HeldCodes}
    (hx : ∀ c, c ∈ x.injected_held_ → c ∈ x.host_held_) : Held.Inside (update h d x) := by
  intro d' c hc
  by_cases hd : d' = d
  · subst hd
    rw [update_self] at hc ⊢
    exact hx c hc
  · rw [update_of_ne hd] at hc ⊢
    exact hh d' c hc

theorem Acts.inside {σ : Type} {h : Held} {act : Act} (hact : Acts h act) (hh : h.Inside) (submit : Sink σ)
    (sink : σ) : Held.Inside (act.run submit sink).1 := by
  have hanswer : ∀ {b accepted rejected}, Held.Inside accepted → Held.Inside rejected →
      Held.Inside ((Act.submit b accepted rejected).run submit sink).1 := by
    intro b accepted rejected haccepted hrejected
    rw [Act.run]
    split
    · exact haccepted
    · exact hrejected
  cases hact with
  | quiet => exact hh
  | @forgets d code hcode =>
    refine hh.update d fun c hc => OrdMap.mem_erase.mpr ⟨?_, hh d c hc⟩
    rintro rfl
    exact hcode hc
  | @clears d hd =>
    refine hh.update d fun c hc => ?_
    rw [hd] at hc
    exact absurd hc (OrdMap.not_mem_empty c)
  | @press d =>
    refine hanswer (hh.update d fun c hc => ?_) (hh.update d fun c hc => ?_)
    · exact OrdMap.mem_insert.mpr ((OrdMap.mem_insert.mp hc).imp_right (hh d c))
    · exact OrdMap.mem_insert.mpr (Or.inr (hh d c hc))
  | repeats => exact hanswer hh hh
  | @release d code seq time after hcode hafter =>
    have hnext : Held.Inside after := by
      rw [hafter]
      exact hh.update d fun c hc => OrdMap.mem_erase.mpr ((OrdMap.mem_erase.mp hc).imp_right (hh d c))
    exact hanswer hnext hnext
  | @release_all d =>
    have hnext : Held.Inside (Function.update h d {}) := hh.update d fun c hc => hc
    exact hanswer hnext hnext
  | state => exact hanswer hh hh

/-- No call submits an empty batch. -/
theorem Acts.events_ne_nil {h accepted rejected : Held} {b : EventBatch} (hact : Acts h (.submit b accepted rejected)) :
    b.events ≠ [] := by
  cases hact with
  | press => exact List.cons_ne_nil _ _
  | repeats => exact List.cons_ne_nil _ _
  | release => exact List.cons_ne_nil _ _
  | release_all => exact List.append_ne_nil_of_right_ne_nil _ (List.cons_ne_nil _ _)
  | state _ hevents => exact hevents

theorem press_kind_ne_repeat (d : Stream) : d.press_kind ≠ .Repeat := by cases d <;> decide

/-- A batch of the kind `Repeat` comes from a repeat. -/
theorem Acts.repeat_of_kind {h : Held} {act : Act} {b : EventBatch} (hact : Acts h act) (hb : b ∈ act.batches)
    (hkind : b.kind = .Repeat) :
    ∃ c seq time, c ∈ (h .Keyboard).host_held_ ∧ b = HeldCodes.transition .Keyboard .Repeat c 2 seq time ∧
      act = .submit b h h := by
  cases hact with
  | quiet => cases hb
  | forgets => cases hb
  | clears => cases hb
  | @press d =>
    rw [List.mem_singleton.mp hb] at hkind
    exact absurd hkind (press_kind_ne_repeat d)
  | @repeats c seq time hc =>
    rw [List.mem_singleton.mp hb]
    exact ⟨c, seq, time, hc, rfl, rfl⟩
  | @release d =>
    rw [List.mem_singleton.mp hb] at hkind
    exact absurd hkind (press_kind_ne_repeat d)
  | release_all =>
    rw [List.mem_singleton.mp hb] at hkind
    cases hkind
  | state hstate =>
    rw [List.mem_singleton.mp hb] at hkind
    rcases hstate with hstate | hstate <;> exact absurd (hstate.symm.trans hkind) (by decide)

namespace Producers

variable {σ : Type} {p : Producers}

theorem held_keyboard (k : Keyboard) :
    ({ p with keyboard := k } : Producers).held = update p.held .Keyboard k.held := by
  funext d
  cases d <;> rfl

theorem held_pointer (q : Pointer) : ({ p with pointer := q } : Producers).held = update p.held .Pointer q.held := by
  funext d
  cases d <;> rfl

theorem held_reset (p : Producers) (d : Stream) :
    (p.reset_after_transport_failure d).held = update p.held d {} := by
  funext d'
  cases d <;> cases d' <;> rfl

theorem inside_reset (hp : Held.Inside p.held) (d : Stream) : Held.Inside (p.reset_after_transport_failure d).held := by
  rw [held_reset]
  exact hp.update d fun c hc => hc

end Producers

namespace HeldCodes

variable {σ : Type} {d : Stream} {h : HeldCodes} {c : Code} {seq time : UInt64}

/-- A press, as an act on `held` with `held d = h`. -/
theorem press_act (held : Held) (d : Stream) (c : Code) (seq time : UInt64) :
    ∃ act, Acts held act ∧ ∀ (σ : Type) (submit : Sink σ) (sink : σ),
      act.run submit sink =
        (update held d ((held d).press submit d d.press_kind sink c seq time).1.1,
          ((held d).press submit d d.press_kind sink c seq time).1.2) := by
  by_cases hc : c ∈ (held d).host_held_
  · refine ⟨.quiet held, .quiet, fun σ submit sink => ?_⟩
    simp only [press, if_pos hc, update_eq_self, Act.run]
  · refine ⟨_, @Acts.press held d c seq time hc, fun σ submit sink => ?_⟩
    simp only [press, if_neg hc, Act.run]
    rcases submit sink (transition d d.press_kind c 1 seq time) with ⟨sink', _ | _⟩ <;> rfl

theorem release_act (held : Held) (d : Stream) (c : Code) (seq time : UInt64) :
    ∃ act, Acts held act ∧ ∀ (σ : Type) (submit : Sink σ) (sink : σ),
      act.run submit sink =
        (update held d ((held d).release submit d d.press_kind sink c seq time).1.1,
          ((held d).release submit d d.press_kind sink c seq time).1.2) := by
  by_cases hhost : c ∈ (held d).host_held_
  · by_cases hc : c ∈ (held d).injected_held_
    · refine ⟨_, @Acts.release held d c seq time _ hc rfl, fun σ submit sink => ?_⟩
      simp only [release, if_neg (not_not.mpr hhost), if_neg (not_not.mpr hc), Act.run, ite_self]
    · refine ⟨_, .forgets hc, fun σ submit sink => ?_⟩
      simp only [release, if_neg (not_not.mpr hhost), if_pos hc, Act.run]
  · refine ⟨.quiet held, .quiet, fun σ submit sink => ?_⟩
    simp only [release, if_pos hhost, update_eq_self, Act.run]

theorem release_all_act (held : Held) (d : Stream) (next time : UInt64) :
    ∃ act, Acts held act ∧ ∀ (σ : Type) (submit : Sink σ) (sink : σ),
      act.run submit sink =
        (update held d ((held d).release_all submit d sink next time).1,
          ((held d).release_all submit d sink next time).2.1) := by
  by_cases hd : (held d).injected_held_ = ∅
  · refine ⟨_, .clears hd, fun σ submit sink => ?_⟩
    simp only [release_all, if_pos hd, Act.run]
  · refine ⟨_, @Acts.release_all held d (next + 1) time hd, fun σ submit sink => ?_⟩
    simp only [release_all, if_neg hd, Act.run, ite_self]

end HeldCodes

namespace Producers

variable {p : Producers}

theorem key_act (linux_code : Code) (pressed host_repeat : Bool) (time : UInt64) :
    ∃ act, Acts p.held act ∧ ∀ (σ : Type) (submit : Sink σ) (sink : σ),
      act.run submit sink =
        (update p.held .Keyboard (p.keyboard.key submit sink linux_code pressed host_repeat time).1.1.held,
          (p.keyboard.key submit sink linux_code pressed host_repeat time).1.2) := by
  have hsame : update p.held .Keyboard p.keyboard.held = p.held := update_eq_self Stream.Keyboard p.held
  by_cases hreserved : linux_code = KEY_RESERVED
  · refine ⟨_, .quiet, fun σ submit sink => ?_⟩
    simp only [Keyboard.key, if_pos hreserved, hsame, Act.run]
  · cases host_repeat with
    | true =>
      by_cases hsend : (!pressed || linux_code ∉ p.keyboard.held.host_held_ ||
          p.keyboard.repeat_policy_ = .IgnoreHost) = true
      · refine ⟨_, .quiet, fun σ submit sink => ?_⟩
        simp only [Keyboard.key, if_neg hreserved, if_true, if_pos hsend, hsame, Act.run]
      · have hhost : linux_code ∈ p.keyboard.held.host_held_ := by
          simp only [Bool.or_eq_true, not_or, decide_eq_true_eq, not_not] at hsend
          exact hsend.1.2
        refine ⟨_, @Acts.repeats p.held linux_code (p.keyboard.next_source_sequence_ + 1) time hhost,
          fun σ submit sink => ?_⟩
        simp only [Keyboard.key, if_neg hreserved, if_true, if_neg hsend, hsame, Act.run, ite_self]
    | false =>
      cases pressed with
      | true =>
        obtain ⟨act, hact, hrun⟩ :=
          HeldCodes.press_act p.held .Keyboard linux_code (p.keyboard.next_source_sequence_ + 1) time
        refine ⟨act, hact, fun σ submit sink => ?_⟩
        rw [hrun]
        simp only [Keyboard.key, if_neg hreserved, if_true]
        rfl
      | false =>
        obtain ⟨act, hact, hrun⟩ :=
          HeldCodes.release_act p.held .Keyboard linux_code (p.keyboard.next_source_sequence_ + 1) time
        refine ⟨act, hact, fun σ submit sink => ?_⟩
        rw [hrun]
        simp only [Keyboard.key, if_neg hreserved]
        rfl

theorem button_act (linux_code : Code) (pressed : Bool) (time : UInt64) :
    ∃ act, Acts p.held act ∧ ∀ (σ : Type) (submit : Sink σ) (sink : σ),
      act.run submit sink =
        (update p.held .Pointer (p.pointer.button submit sink linux_code pressed time).1.1.held,
          (p.pointer.button submit sink linux_code pressed time).1.2) := by
  cases pressed with
  | true =>
    obtain ⟨act, hact, hrun⟩ :=
      HeldCodes.press_act p.held .Pointer linux_code (p.pointer.next_source_sequence_ + 1) time
    refine ⟨act, hact, fun σ submit sink => ?_⟩
    rw [hrun]
    rfl
  | false =>
    obtain ⟨act, hact, hrun⟩ :=
      HeldCodes.release_act p.held .Pointer linux_code (p.pointer.next_source_sequence_ + 1) time
    refine ⟨act, hact, fun σ submit sink => ?_⟩
    rw [hrun]
    rfl

theorem moved_type {axes : List (Code × Int32)} {e : Event} (h : e ∈ Pointer.moved axes ++ [syn_report]) :
    e.type ≠ EV_KEY := by
  rcases List.mem_append.mp h with h | h
  · obtain ⟨axis, -, rfl⟩ := List.mem_map.mp h
    exact (by decide : EV_REL ≠ EV_KEY)
  · rw [List.mem_singleton.mp h]
    exact (by decide : EV_SYN ≠ EV_KEY)

theorem send_moved_act {kind : BatchKind} (hkind : kind = .Motion ∨ kind = .Wheel) (axes : List (Code × Int32))
    (time : UInt64) :
    ∃ act, Acts p.held act ∧ ∀ (σ : Type) (submit : Sink σ) (sink : σ),
      act.run submit sink =
        (update p.held .Pointer (p.pointer.send_moved submit kind axes sink time).1.1.held,
          (p.pointer.send_moved submit kind axes sink time).1.2) := by
  have hsame : update p.held .Pointer p.pointer.held = p.held := update_eq_self Stream.Pointer p.held
  by_cases hmoved : Pointer.moved axes = []
  · refine ⟨_, .quiet, fun σ submit sink => ?_⟩
    simp only [Pointer.send_moved, if_pos hmoved, hsame, Act.run]
  · refine ⟨_, .state (b :=
      { stream := .Pointer, kind, events := Pointer.moved axes ++ [syn_report],
        source_sequence := p.pointer.next_source_sequence_ + 1, source_time_ns := time })
      hkind (by simp) (fun e he => moved_type he), fun σ submit sink => ?_⟩
    simp only [Pointer.send_moved, if_neg hmoved, hsame, Act.run, ite_self]

theorem absolute_act (x y : Int32) (time : UInt64) :
    ∃ act, Acts p.held act ∧ ∀ (σ : Type) (submit : Sink σ) (sink : σ),
      act.run submit sink =
        (update p.held .Pointer (p.pointer.absolute submit sink x y time).1.1.held,
          (p.pointer.absolute submit sink x y time).1.2) := by
  have hsame : update p.held .Pointer p.pointer.held = p.held := update_eq_self Stream.Pointer p.held
  refine ⟨_, .state (b :=
    { stream := .Pointer, kind := .Motion, events := [⟨EV_ABS, ABS_X, x⟩, ⟨EV_ABS, ABS_Y, y⟩, syn_report],
      source_sequence := p.pointer.next_source_sequence_ + 1, source_time_ns := time })
    (Or.inl rfl) (by simp) ?_, fun σ submit sink => ?_⟩
  · intro e he
    simp only [List.mem_cons, List.not_mem_nil, or_false] at he
    rcases he with rfl | rfl | rfl
    · exact (by decide : EV_ABS ≠ EV_KEY)
    · exact (by decide : EV_ABS ≠ EV_KEY)
    · exact (by decide : EV_SYN ≠ EV_KEY)
  · simp only [Pointer.absolute, hsame, Act.run, ite_self]

/-- What a call comes to, the same for every sink. -/
theorem call_act (p : Producers) (c : InputCall) :
    ∃ act, Acts p.held act ∧ p.submits c = act.batches ∧ ∀ (σ : Type) (submit : Sink σ) (sink : σ),
      ((p.call submit sink c).1.held, (p.call submit sink c).2) = act.run submit sink := by
  obtain ⟨act, hact, hrun⟩ : ∃ act, Acts p.held act ∧ ∀ (σ : Type) (submit : Sink σ) (sink : σ),
      ((p.call submit sink c).1.held, (p.call submit sink c).2) = act.run submit sink := by
    cases c with
    | key linux_code pressed host_repeat time =>
      obtain ⟨act, hact, hrun⟩ := key_act (p := p) linux_code pressed host_repeat time
      refine ⟨act, hact, fun σ submit sink => ?_⟩
      rw [hrun, call, held_keyboard]
    | keyboard_release_all time =>
      obtain ⟨act, hact, hrun⟩ :=
        HeldCodes.release_all_act p.held .Keyboard p.keyboard.next_source_sequence_ time
      refine ⟨act, hact, fun σ submit sink => ?_⟩
      rw [hrun, call, held_keyboard]
      rfl
    | absolute x y time =>
      obtain ⟨act, hact, hrun⟩ := absolute_act (p := p) x y time
      refine ⟨act, hact, fun σ submit sink => ?_⟩
      rw [hrun, call, held_pointer]
    | relative dx dy time =>
      obtain ⟨act, hact, hrun⟩ := send_moved_act (p := p) (Or.inl rfl) [(REL_X, dx), (REL_Y, dy)] time
      refine ⟨act, hact, fun σ submit sink => ?_⟩
      rw [hrun, call, held_pointer]
      rfl
    | button linux_code pressed time =>
      obtain ⟨act, hact, hrun⟩ := button_act (p := p) linux_code pressed time
      refine ⟨act, hact, fun σ submit sink => ?_⟩
      rw [hrun, call, held_pointer]
    | wheel vertical horizontal time =>
      obtain ⟨act, hact, hrun⟩ :=
        send_moved_act (p := p) (Or.inr rfl) [(REL_WHEEL, vertical), (REL_HWHEEL, horizontal)] time
      refine ⟨act, hact, fun σ submit sink => ?_⟩
      rw [hrun, call, held_pointer]
      rfl
    | pointer_release_all time =>
      obtain ⟨act, hact, hrun⟩ :=
        HeldCodes.release_all_act p.held .Pointer p.pointer.next_source_sequence_ time
      refine ⟨act, hact, fun σ submit sink => ?_⟩
      rw [hrun, call, held_pointer]
      rfl
  refine ⟨act, hact, ?_, hrun⟩
  have hrecorded := congrArg Prod.snd (hrun _ (fun batches batch => (batches ++ [batch], true)) [])
  rw [submits]
  refine hrecorded.trans ?_
  cases act <;> rfl

end Producers

end AnboxReboxed.Input
