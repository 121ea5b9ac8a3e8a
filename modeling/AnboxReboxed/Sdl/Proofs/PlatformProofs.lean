import AnboxReboxed.Input.Proofs.ProducersProofs
import AnboxReboxed.Sdl.Platform

/-!
# Proofs: what the focus carries with it

Most of what a step does leaves the focus where it is (`Quiet`), and so keeps a platform settled. The focus is taken
away only after everything was released and the pointer was let go; it is given without either.
-/

namespace AnboxReboxed.Input

open AnboxReboxed.Lib

theorem HeldCodes.release_all_injected {σ : Type} (submit : Sink σ) (d : Stream) (h : HeldCodes) (sink : σ)
    (next time : UInt64) : (h.release_all submit d sink next time).1.injected_held_ = ∅ := by
  rw [HeldCodes.release_all]
  split
  · assumption
  · rfl

end AnboxReboxed.Input

namespace AnboxReboxed.Sdl

open AnboxReboxed.Lib AnboxReboxed.Input Function

namespace Platform

variable {σ : Type} {h : Setup σ} {p p' p'' : Platform σ} {id : Nat} {window_id : UInt32} {time_ns : UInt64}

/-- What is done while the focus stays. Only with the reboxed input is anything pressed or released. -/
structure Quiet (h : Setup σ) (p p' : Platform σ) : Prop where
  focus : p'.focused_sdl_window_id_ = p.focused_sdl_window_id_
  pressed : ∀ d, ∀ code ∈ p'.injected d,
    (code ∈ p.injected d ∧ p'.pressed_under d code = p.pressed_under d code) ∨
      p'.pressed_under d code = p.focused_sdl_window_id_
  locked : p'.pointer_locked_ = true →
    (p.pointer_locked_ = true ∧ p'.grabbed = p.grabbed) ∨ p'.grabbed = p.focused_sdl_window_id_
  legacy : h.config_.legacy_input = true → p'.producers = p.producers

theorem Quiet.refl (h : Setup σ) (p : Platform σ) : Quiet h p p where
  focus := rfl
  pressed := fun _ _ hcode => Or.inl ⟨hcode, rfl⟩
  locked := fun hlocked => Or.inl ⟨hlocked, rfl⟩
  legacy := fun _ => rfl

theorem Quiet.trans (h1 : Quiet h p p') (h2 : Quiet h p' p'') : Quiet h p p'' where
  focus := h2.focus.trans h1.focus
  pressed := by
    intro d code hcode
    rcases h2.pressed d code hcode with ⟨hcode', hunder⟩ | hunder
    · rcases h1.pressed d code hcode' with ⟨hcode'', hunder'⟩ | hunder'
      · exact Or.inl ⟨hcode'', hunder.trans hunder'⟩
      · exact Or.inr (hunder.trans hunder')
    · exact Or.inr (hunder.trans h1.focus)
  locked := by
    intro hlocked
    rcases h2.locked hlocked with ⟨hlocked', hgrabbed⟩ | hgrabbed
    · rcases h1.locked hlocked' with ⟨hlocked'', hgrabbed'⟩ | hgrabbed'
      · exact Or.inl ⟨hlocked'', hgrabbed.trans hgrabbed'⟩
      · exact Or.inr (hgrabbed.trans hgrabbed')
    · exact Or.inr (hgrabbed.trans h1.focus)
  legacy := fun hl => (h2.legacy hl).trans (h1.legacy hl)

theorem Quiet.settled (hq : Quiet h p p') (hp : p.Settled) : p'.Settled where
  pressed := by
    intro d code hcode
    rw [hq.focus]
    rcases hq.pressed d code hcode with ⟨hcode', hunder⟩ | hunder
    · rw [hunder]
      exact hp.pressed d code hcode'
    · exact hunder
  locked := by
    intro hlocked
    rw [hq.focus]
    rcases hq.locked hlocked with ⟨hlocked', hgrabbed⟩ | hgrabbed
    · rw [hgrabbed]
      exact hp.locked hlocked'
    · exact hgrabbed

/-! ## The parts of a step -/

theorem quiet_call (hl : h.config_.legacy_input = false) (c : InputCall) : Quiet h p (p.call h c) where
  focus := rfl
  pressed := by
    intro d code hcode
    show (code ∈ p.injected d ∧ (if _ then _ else _) = _) ∨ (if _ then _ else _) = _
    by_cases hold : code ∈ p.injected d
    · exact Or.inl ⟨hold, if_neg fun hnew => hnew.2 hold⟩
    · exact Or.inr (if_pos ⟨hcode, hold⟩)
  locked := fun hlocked => Or.inl ⟨hlocked, rfl⟩
  legacy := fun hl' => Bool.noConfusion (hl.symm.trans hl')

theorem quiet_set_pointer_locked (h : Setup σ) (p : Platform σ) (locked grants : Bool) :
    Quiet h p (p.set_pointer_locked locked grants) := by
  rw [set_pointer_locked]
  split
  · refine ⟨rfl, fun d code hcode => Or.inl ⟨hcode, rfl⟩, fun hlocked => Or.inr (if_pos hlocked), fun _ => rfl⟩
  · exact Quiet.refl h p

theorem quiet_release (h : Setup σ) (p : Platform σ) (time_ns : UInt64) :
    Quiet h p (p.release_reboxed_input h time_ns) := by
  rw [release_reboxed_input]
  split
  · exact Quiet.refl h p
  · rename_i hl
    have hl := Bool.eq_false_of_not_eq_true hl
    exact (quiet_call hl _).trans (quiet_call hl _)

theorem quiet_press_control (h : Setup σ) (p : Platform σ) (id : Nat) (control : WindowControl) :
    Quiet h p (p.press_control id control) := by
  rw [press_control]
  split
  · exact ⟨rfl, fun d code hcode => Or.inl ⟨hcode, rfl⟩, fun hlocked => Or.inl ⟨hlocked, rfl⟩, fun _ => rfl⟩
  · exact Quiet.refl h p

theorem quiet_window_deleted (h : Setup σ) (p : Platform σ) (id : Nat) (time_ns : UInt64) :
    Quiet h p (p.window_deleted h id time_ns) := by
  have hforget : ∀ {q : Platform σ}, Quiet h p q → Quiet h p { q with windows_ := q.windows_.erase id } :=
    fun hq => ⟨hq.focus, hq.pressed, hq.locked, hq.legacy⟩
  rw [window_deleted]
  split
  · exact Quiet.refl h p
  · refine hforget ?_
    split
    · dsimp only
      split
      · exact (quiet_release h p time_ns).trans (quiet_set_pointer_locked h _ _ _)
      · exact quiet_release h p time_ns
    · exact Quiet.refl h p

theorem quiet_shortcut (h : Setup σ) {event : KeyEvent} {grants : Bool}
    (hp : p.handle_pointer_lock_shortcut event grants = some p') : Quiet h p p' := by
  rw [handle_pointer_lock_shortcut] at hp
  split_ifs at hp
  rw [← Option.some.inj hp]
  exact quiet_set_pointer_locked h p _ _

section Reboxed

variable (hl : h.config_.legacy_input = false)

include hl

theorem quiet_process_key (event : KeyEvent) : Quiet h p (p.process_key h event time_ns) := by
  rw [process_key]
  split
  · exact quiet_call hl _
  · exact Quiet.refl h p

theorem quiet_process_motion (event : MotionEvent) : Quiet h p (p.process_motion h event time_ns) := by
  rw [process_motion]
  repeat' split
  all_goals first | exact quiet_call hl _ | exact Quiet.refl h p

theorem quiet_process_button (event : ButtonEvent) : Quiet h p (p.process_button h event time_ns) := by
  rw [process_button]
  dsimp only
  repeat' split
  all_goals
    first
    | exact (quiet_call hl _).trans (quiet_call hl _)
    | exact quiet_call hl _
    | exact Quiet.refl h p

theorem quiet_process_wheel (event : WheelEvent) : Quiet h p (p.process_wheel h event time_ns) := by
  rw [process_wheel]
  dsimp only
  repeat' split
  all_goals
    first
    | exact (quiet_call hl _).trans (quiet_call hl _)
    | exact quiet_call hl _
    | exact Quiet.refl h p

end Reboxed

theorem quiet_control_event (h : Setup σ) (p : Platform σ) (id : Nat) (event : ButtonEvent) (time_ns : UInt64) :
    Quiet h p (p.process_window_control_event h id event time_ns).1 := by
  rw [process_window_control_event]
  dsimp only
  split
  · exact Quiet.refl h p
  · split_ifs
    · exact Quiet.refl h p
    · exact quiet_press_control h p id _
    · exact quiet_press_control h p id _
    · exact (quiet_press_control h p id _).trans (quiet_window_deleted h _ id time_ns)
    · exact quiet_press_control h p id _

/-! ## Nothing is held when the focus goes -/

theorem window_of_window_for_sdl_id (hp : p.window_for_sdl_id window_id = some id) :
    ∃ w, p.lock id = some w ∧ w.window_id = window_id := by
  have hany := List.find?_some hp
  obtain ⟨w, hw, hid⟩ := (Option.any_eq_true _ _).mp hany
  exact ⟨w, hw, of_decide_eq_true hid⟩

/-- A window that is there is one of SDL. -/
theorem SDL_GetWindowFromID_of_lock {w : Window} (hw : p.lock id = some w) :
    p.SDL_GetWindowFromID w.window_id = true := by
  rw [lock] at hw
  split_ifs at hw
  exact List.any_eq_true.mpr ⟨(id, w), OrdMap.find?_eq_some_iff.mp hw, decide_eq_true rfl⟩

/-- Under the legacy input there is nothing to release. -/
def Sound (h : Setup σ) (p : Platform σ) : Prop :=
  p.Settled ∧ (h.config_.legacy_input = true → ∀ d, p.injected d = ∅)

theorem Quiet.sound (hq : Quiet h p p') (hp : Sound h p) : Sound h p' :=
  ⟨hq.settled hp.1, fun hl d => by rw [injected, hq.legacy hl]; exact hp.2 hl d⟩

theorem release_injected (hp : h.config_.legacy_input = true → ∀ d, p.injected d = ∅) (d : Stream) :
    (p.release_reboxed_input h time_ns).injected d = ∅ := by
  rw [release_reboxed_input]
  split
  · rename_i hl
    exact hp hl d
  · cases d with
    | Keyboard => exact HeldCodes.release_all_injected _ _ _ _ _ _
    | Pointer => exact HeldCodes.release_all_injected _ _ _ _ _ _

theorem release_lock (h : Setup σ) (p : Platform σ) (time_ns : UInt64) (id : Nat) :
    (p.release_reboxed_input h time_ns).lock id = p.lock id := by
  rw [release_reboxed_input]
  split <;> rfl

theorem set_pointer_locked_lock (p : Platform σ) (locked grants : Bool) (id : Nat) :
    (p.set_pointer_locked locked grants).lock id = p.lock id := by
  rw [set_pointer_locked]
  split <;> rfl

theorem set_pointer_locked_injected (p : Platform σ) (locked grants : Bool) (d : Stream) :
    (p.set_pointer_locked locked grants).injected d = p.injected d := by
  rw [set_pointer_locked]
  split <;> rfl

/-- The pointer of a window that is there can be let go. -/
theorem not_locked_of_unlock {w : Window} (hw : p.lock id = some w) (hfocus : w.window_id = p.focused_sdl_window_id_) :
    (p.set_pointer_locked false false).pointer_locked_ = false := by
  have hthere := SDL_GetWindowFromID_of_lock hw
  rw [hfocus] at hthere
  rw [set_pointer_locked, if_pos hthere]
  rfl

/-- Nothing belongs to the focus. -/
def Free (p : Platform σ) : Prop := (∀ d, p.injected d = ∅) ∧ p.pointer_locked_ = false

theorem Free.sound (hp : p.Free) : Sound h p := by
  refine ⟨⟨fun d code hcode => ?_, fun hlocked => ?_⟩, fun _ => hp.1⟩
  · rw [hp.1 d] at hcode
    exact absurd hcode (OrdMap.not_mem_empty code)
  · exact Bool.noConfusion (hp.2.symm.trans hlocked)

/-- The focus of a free platform can be set to anything. -/
theorem Free.focus (hp : p.Free) (window_id : UInt32) : Free { p with focused_sdl_window_id_ := window_id } := hp

theorem sound_window_lost_focus (hp : Sound h p) : Sound h (p.window_lost_focus h id time_ns) := by
  rw [window_lost_focus]
  split
  · rename_i w hw
    split
    · rename_i hfocus
      have hfree : Free ((p.release_reboxed_input h time_ns).set_pointer_locked false false) := by
        refine ⟨fun d => ?_, not_locked_of_unlock ((release_lock h p time_ns id).trans hw) ?_⟩
        · rw [set_pointer_locked_injected]
          exact release_injected hp.2 d
        · rw [hfocus, (quiet_release h p time_ns).focus]
      exact (hfree.focus 0).sound
    · exact hp
  · exact hp

theorem sound_window_hidden (hp : Sound h p) : Sound h (p.window_hidden h id time_ns) := by
  rw [window_hidden]
  have hquiet := quiet_release h p time_ns
  have hempty : ∀ d, (p.release_reboxed_input h time_ns).injected d = ∅ := release_injected hp.2
  generalize p.release_reboxed_input h time_ns = q at hquiet hempty ⊢
  have hq : Sound h q := hquiet.sound hp
  by_cases hlocked : q.pointer_locked_ = true
  · rw [if_pos hlocked]
    have hunlock := quiet_set_pointer_locked h q false false
    split
    · rename_i w hw
      split
      · rename_i hfocus
        rw [set_pointer_locked_lock] at hw
        rw [hunlock.focus] at hfocus
        have hfree : Free (q.set_pointer_locked false false) := by
          refine ⟨fun d => ?_, not_locked_of_unlock hw hfocus⟩
          rw [set_pointer_locked_injected]
          exact hempty d
        exact (hfree.focus 0).sound
      · exact hunlock.sound hq
    · exact hunlock.sound hq
  · rw [if_neg hlocked]
    have hfree : Free q := ⟨hempty, Bool.eq_false_of_not_eq_true hlocked⟩
    split
    · split
      · exact (hfree.focus 0).sound
      · exact hq
    · exact hq

/-! ## Steps -/

/-- A step keeps what is sound unless it gives the focus to another window. Then it does nothing else that matters
here. -/
theorem step_cases {op : SdlOp} (hp : Sound h p) (hs : p.step h op = some p') :
    (p.focus_given op = none ∧ Sound h p') ∨
    ∃ window_id, p.focus_given op = some window_id ∧ p'.focused_sdl_window_id_ = window_id ∧
      p'.producers = p.producers ∧ p'.pressed_under = p.pressed_under ∧ p'.pointer_locked_ = p.pointer_locked_ ∧
      p'.grabbed = p.grabbed := by
  cases op with
  | SDL_QUIT time_ns =>
    rw [← Option.some.inj hs]
    exact Or.inl ⟨rfl, (quiet_release h p time_ns).sound hp⟩
  | SDL_WINDOWEVENT windowID event time_ns =>
    rw [← Option.some.inj hs]
    cases hw : p.window_for_sdl_id windowID with
    | none =>
      refine Or.inl ⟨?_, hp⟩
      cases event <;> simp only [focus_given, hw, Option.isSome_none, Bool.false_eq_true, if_false]
    | some id =>
      cases event with
      | FOCUS_GAINED =>
        obtain ⟨w, hlock, hid⟩ := window_of_window_for_sdl_id hw
        refine Or.inr ⟨windowID, by simp only [focus_given, hw, Option.isSome_some, if_true], ?_⟩
        simp only [process_event, window_wants_focus, hlock]
        exact ⟨hid, trivial, trivial, trivial, trivial⟩
      | FOCUS_LOST => exact Or.inl ⟨rfl, sound_window_lost_focus ((quiet_press_control h p id .none).sound hp)⟩
      | HIDDEN => exact Or.inl ⟨rfl, sound_window_hidden hp⟩
      | MINIMIZED => exact Or.inl ⟨rfl, sound_window_hidden hp⟩
      | CLOSE => exact Or.inl ⟨rfl, (quiet_window_deleted h p id time_ns).sound hp⟩
  | key event grants time_ns =>
    rw [← Option.some.inj hs]
    refine Or.inl ⟨rfl, ?_⟩
    split
    · rename_i q hshortcut
      exact (quiet_shortcut h hshortcut).sound hp
    · split
      · exact hp
      · rename_i hl
        exact (quiet_process_key (Bool.eq_false_of_not_eq_true hl) event).sound hp
  | motion event time_ns =>
    rw [← Option.some.inj hs]
    refine Or.inl ⟨rfl, ?_⟩
    split
    · exact hp
    · rename_i htaken
      rw [Bool.or_eq_true, not_or] at htaken
      exact (quiet_process_motion (Bool.eq_false_of_not_eq_true htaken.2) event).sound hp
  | button event time_ns =>
    rw [← Option.some.inj hs]
    refine Or.inl ⟨rfl, ?_⟩
    have hcontrol : ∀ answer : Platform σ × Bool, Quiet h p answer.1 →
        Sound h (if answer.2 || h.config_.legacy_input then answer.1 else answer.1.process_button h event time_ns) := by
      intro answer hanswer
      split
      · exact hanswer.sound hp
      · rename_i htaken
        rw [Bool.or_eq_true, not_or] at htaken
        exact (quiet_process_button (Bool.eq_false_of_not_eq_true htaken.2) event).sound (hanswer.sound hp)
    cases p.window_for_sdl_id event.windowID with
    | none => exact hcontrol (p, false) (Quiet.refl h p)
    | some id => exact hcontrol _ (quiet_control_event h p id event time_ns)
  | wheel event time_ns =>
    rw [← Option.some.inj hs]
    refine Or.inl ⟨rfl, ?_⟩
    split
    · exact hp
    · rename_i hl
      exact (quiet_process_wheel (Bool.eq_false_of_not_eq_true hl) event).sound hp
  | create_window window_id decorations =>
    rw [step] at hs
    split_ifs at hs with hid
    rw [← Option.some.inj hs]
    exact Or.inr ⟨window_id, if_neg hid, rfl, rfl, rfl, rfl, rfl⟩
  | destroyed id =>
    rw [step] at hs
    split_ifs at hs
    rw [← Option.some.inj hs]
    exact Or.inl ⟨rfl, ⟨⟨hp.1.pressed, hp.1.locked⟩, hp.2⟩⟩

theorem sound_step {op : SdlOp} (hp : Sound h p) (hC : p.Handed op) (hs : p.step h op = some p') : Sound h p' := by
  rcases step_cases hp hs with ⟨-, hp'⟩ | ⟨window_id, hgiven, hfocus, hprod, hunder, hlock, hgrab⟩
  · exact hp'
  · have hinj : ∀ d, p'.injected d = p.injected d := fun d => by rw [injected, hprod, injected]
    rcases hC window_id hgiven with rfl | ⟨hempty, hunlocked⟩
    · refine ⟨⟨fun d code hcode => ?_, fun hlocked => ?_⟩, fun hl d => (hinj d).trans (hp.2 hl d)⟩
      · rw [hunder, hfocus]
        rw [hinj] at hcode
        exact hp.1.pressed d code hcode
      · rw [hgrab, hfocus]
        rw [hlock] at hlocked
        exact hp.1.locked hlocked
    · exact Free.sound ⟨fun d => (hinj d).trans (hempty d), hlock.trans hunlocked⟩

/-- A step that leaves the platform settled hands the focus on as it should. -/
theorem handed_of_settled {op : SdlOp} (hp : Sound h p) (hs : p.step h op = some p') (hp' : p'.Settled) :
    p.Handed op := by
  intro window_id hgiven
  rcases step_cases hp hs with ⟨hnone, -⟩ | ⟨window_id', hgiven', hfocus, hprod, hunder, hlock, hgrab⟩
  · cases hgiven.symm.trans hnone
  · cases Option.some.inj (hgiven.symm.trans hgiven')
    by_cases hsame : window_id = p.focused_sdl_window_id_
    · exact Or.inl hsame
    · refine Or.inr ⟨fun d => OrdMap.eq_empty_of_forall_not_mem fun code hcode => hsame ?_, ?_⟩
      · have hcode' : code ∈ p'.injected d := by rwa [injected, hprod]
        have hnow := hp'.pressed d code hcode'
        rw [hunder, hfocus, hp.1.pressed d code hcode] at hnow
        exact hnow.symm
      · by_contra hlocked
        rw [Bool.not_eq_false] at hlocked
        have hnow := hp'.locked (hlock.trans hlocked)
        rw [hgrab, hfocus, hp.1.locked hlocked] at hnow
        exact hsame hnow.symm

theorem handed_of_not_enabled {op : SdlOp} (hs : p.step h op = none) : p.Handed op := by
  intro window_id hgiven
  cases op with
  | create_window window_id' decorations =>
    rw [step] at hs
    rw [focus_given] at hgiven
    split_ifs at hs hgiven
  | destroyed id => cases hgiven
  | _ => cases hs

theorem Settled.released (hp' : p'.Settled) : Released p p' := by
  intro hfocus d code hcode hunder
  exact hfocus ((hp'.pressed d code hcode).symm.trans hunder)

theorem sound_init (h : Setup σ) (sink : σ) : Sound h (sdlMachine h sink).init :=
  Free.sound ⟨fun d => by cases d <;> rfl, rfl⟩

end Platform

/-- Nothing outlives the focus exactly when each window gets it only after everything was released and the pointer was
let go. -/
theorem Platform.settled_iff {σ : Type} (h : Setup σ) (sink : σ) (ops : List SdlOp) :
    ((sdlMachine h sink).AllSteps (fun p op => ∀ p', p.step h op = some p' → p.Released p')
        (sdlMachine h sink).init ops ∧
      (sdlMachine h sink).AllStates Settled (sdlMachine h sink).init ops) ↔
      (sdlMachine h sink).AllSteps Handed (sdlMachine h sink).init ops := by
  have hiff : (sdlMachine h sink).AllStates Settled (sdlMachine h sink).init ops ↔
      (sdlMachine h sink).AllSteps Handed (sdlMachine h sink).init ops :=
    Machine.allStates_iff_allSteps_of_enabled (R := Sound h) (fun p hp => hp.1)
      (fun p op hs => handed_of_not_enabled hs) (fun p op p' hp hC hs => sound_step hp hC hs)
      (fun p op p' hp hs hp' => handed_of_settled hp hs hp') ops _ (sound_init h sink)
  refine ⟨fun hall => hiff.mp hall.2, fun hC => ⟨?_, hiff.mpr hC⟩⟩
  exact Machine.allSteps_of_relation (R := Sound h) (fun p op p' hp hC' hs => sound_step hp hC' hs)
    (fun p op hp hC' p' hs => (sound_step hp hC' hs).1.released) ops _ (sound_init h sink) hC

/-- With a key of the first window down, a second window is created. -/
theorem Platform.not_always_settled :
    ¬∀ (σ : Type) (h : Setup σ) (sink : σ), (∀ s b, (h.submit s b).2 = true) → ∀ ops,
      (sdlMachine h sink).AllSteps (fun p op => ∀ p', p.step h op = some p' → p.Released p')
          (sdlMachine h sink).init ops ∧
        (sdlMachine h sink).AllStates Settled (sdlMachine h sink).init ops := by
  intro hall
  let h : Setup (List EventBatch) :=
    { convert := fun _ => KEY_A, submit := fun batches batch => (batches ++ [batch], true) }
  have hrun := (hall _ h [] (fun _ _ => rfl)
    [.create_window 1 false, .key { windowID := 1, pressed := true, scancode := 4 } false 0,
      .create_window 2 false]).2
  have hlast := hrun.last rfl
  have hpressed := hlast.pressed .Keyboard KEY_A (by decide)
  exact absurd hpressed (by decide)

end AnboxReboxed.Sdl
