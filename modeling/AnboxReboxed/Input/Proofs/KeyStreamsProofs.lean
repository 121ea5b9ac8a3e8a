import AnboxReboxed.Input.KeyStreams
import AnboxReboxed.Input.Proofs.ProducersProofs

/-!
# Proofs: the event stream of each key

A code is injected exactly while its stream has a stroke under way (`Tracked`). Presses, releases and forced releases
keep it so; a repeat does when the code is injected, and only then.
-/

namespace AnboxReboxed.Input

open AnboxReboxed.Lib Function RegularExpression

namespace KeyStreams

variable {s s' : KeyStreams} {d d' : Stream} {c : Code} {b : EventBatch}

/-! ## The values of a stream -/

theorem values_eq (s : KeyStreams) (d : Stream) (c : Code) :
    s.values d c = (s.accepted.filter fun batch => batch.stream = d).flatMap (batch_values c) := rfl

theorem values_congr (haccepted : s'.accepted = s.accepted) : s'.values d c = s.values d c := by
  rw [values_eq, values_eq, haccepted]

theorem values_snoc_same (haccepted : s'.accepted = s.accepted ++ [b]) (hd : b.stream = d) :
    s'.values d c = s.values d c ++ batch_values c b := by
  simp [values_eq, haccepted, List.filter_append, hd]

theorem values_snoc_other (haccepted : s'.accepted = s.accepted ++ [b]) (hd : b.stream ≠ d) :
    s'.values d c = s.values d c := by
  simp [values_eq, haccepted, List.filter_append, hd]

theorem batch_values_transition {kind : BatchKind} {code : Code} {value : Int32} {seq time : UInt64} :
    batch_values c (HeldCodes.transition d kind code value seq time) = if code = c then [value] else [] := by
  by_cases h : code = c
  · simp [batch_values, HeldCodes.transition, key_event, syn_report, h, EV_KEY, EV_SYN]
  · simp [batch_values, HeldCodes.transition, key_event, syn_report, h, EV_KEY, EV_SYN]

/-- A forced release has one event for each code of the set. -/
theorem batch_values_forced_release {codes : OrdSet Code} {seq time : UInt64} :
    batch_values c (HeldCodes.forced_release d codes seq time) = if c ∈ codes then [0] else [] := by
  have hkeys : (codes.keys.map fun code => key_event code 0).filter
      (fun event => event.type = EV_KEY && event.code = c) =
        (codes.keys.filter (· = c)).map fun code => key_event code 0 := by
    rw [List.filter_map]
    rfl
  have hsyn : [syn_report].filter (fun event => event.type = EV_KEY && event.code = c) = [] := by
    simp [syn_report, EV_SYN, EV_KEY]
  rw [batch_values, HeldCodes.forced_release, List.filter_append, hkeys, hsyn, List.append_nil, List.filter_eq]
  by_cases hc : c ∈ codes
  · rw [if_pos hc, List.count_eq_one_of_mem codes.keys_nodup (OrdMap.mem_keys_iff.mpr hc)]
    rfl
  · rw [if_neg hc, List.count_eq_zero_of_not_mem fun h => hc (OrdMap.mem_keys_iff.mp h)]
    rfl

theorem batch_values_state (h : ∀ e ∈ b.events, e.type ≠ EV_KEY) : batch_values c b = [] := by
  have hnone : b.events.filter (fun event => event.type = EV_KEY && event.code = c) = [] := by
    rw [List.filter_eq_nil_iff]
    intro e he
    simp [h e he]
  rw [batch_values, hnone, List.map_nil]

/-! ## Strokes -/

/-- What may come while a code is down. -/
def while_down : Stream → RegularExpression Int32
  | .Keyboard => (char 2).star
  | .Pointer => 1

structure Tracked (d : Stream) (s : KeyStreams) : Prop where
  down : ∀ c, c ∈ (s.producers.held d).injected_held_ → s.values d c ∈ (underWay 1 0 (while_down d)).matches'
  up : ∀ c, c ∉ (s.producers.held d).injected_held_ → s.values d c ∈ (finished 1 0 (while_down d)).matches'

/-- How one code goes on: `before` and `after` tell whether it is injected, `v` and `v'` are its values. -/
inductive CodeStep (d : Stream) (before after : Prop) (v v' : List Int32) : Prop where
  | same (hsame : after ↔ before) (hv : v' = v)
  | press (hbefore : ¬ before) (hafter : after) (hv : v' = v ++ [1])
  | repeats (hd : d = .Keyboard) (hbefore : before) (hafter : after) (hv : v' = v ++ [2])
  | release (hbefore : before) (hafter : ¬ after) (hv : v' = v ++ [0])

theorem Tracked.step (hs : Tracked d s)
    (h : ∀ c, CodeStep d (c ∈ (s.producers.held d).injected_held_) (c ∈ (s'.producers.held d).injected_held_)
      (s.values d c) (s'.values d c)) : Tracked d s' := by
  have hempty : [] ∈ (while_down d).matches' := by
    cases d with
    | Keyboard => exact Language.nil_mem_kstar _
    | Pointer => exact Language.nil_mem_one
  refine ⟨fun c hc => ?_, fun c hc => ?_⟩
  · cases h c with
    | same hsame hv =>
      rw [hv]
      exact hs.down c (hsame.mp hc)
    | press hbefore hafter hv =>
      rw [hv]
      exact underWay_down hempty (hs.up c hbefore)
    | repeats hd hbefore hafter hv =>
      subst hd
      rw [hv]
      refine underWay_while (fun v hv => ?_) (hs.down c hbefore)
      obtain ⟨symbols, rfl, hsymbols⟩ := Language.mem_kstar.mp hv
      refine Language.mem_kstar.mpr ⟨symbols ++ [[2]], by simp, fun y hy => ?_⟩
      rcases List.mem_append.mp hy with hy | hy
      · exact hsymbols y hy
      · exact List.mem_singleton.mp hy
    | release hbefore hafter hv => exact absurd hc hafter
  · cases h c with
    | same hsame hv =>
      rw [hv]
      exact hs.up c fun hbefore => hc (hsame.mpr hbefore)
    | press hbefore hafter hv => exact absurd hafter hc
    | repeats hd hbefore hafter hv => exact absurd hafter hc
    | release hbefore hafter hv =>
      rw [hv]
      exact finished_up (hs.down c hbefore)

/-- While a code is down its last value is a press or a repeat. -/
theorem while_down_getLast? {v : List Int32} {a : Int32} (h : v ∈ (while_down d).matches') (ha : v.getLast? = some a) :
    a = 2 := by
  cases d with
  | Keyboard =>
    obtain ⟨symbols, rfl, hsymbols⟩ := Language.mem_kstar.mp h
    have hmem : a ∈ symbols.flatten := List.mem_of_getLast? ha
    obtain ⟨symbol, hsymbol, hmem⟩ := List.mem_flatten.mp hmem
    rw [show symbol = [2] from hsymbols symbol hsymbol] at hmem
    exact List.mem_singleton.mp hmem
  | Pointer =>
    rw [(Language.mem_one v).mp h] at ha
    cases ha

theorem Tracked.wellFormed (hs : Tracked d s) : WellFormed d (strokes 1 0 (while_down d)) s := by
  intro c
  by_cases hc : c ∈ (s.producers.held d).injected_held_
  · have hdown := hs.down c hc
    refine ⟨strokes_of_underWay hdown, fun _ => ?_, fun _ => hc⟩
    rcases underWay_getLast? hdown with hlast | ⟨v, hv, a, ha, hlast⟩
    · exact Or.inl hlast
    · right
      rw [hlast, while_down_getLast? hv ha]
  · have hup := hs.up c hc
    refine ⟨strokes_of_finished hup, fun h => absurd h hc, fun hlast => ?_⟩
    rcases finished_getLast? hup with hnone | hzero
    · rw [hnone] at hlast
      rcases hlast with h | h <;> cases h
    · rw [hzero] at hlast
      rcases hlast with h | h <;> exact absurd (Option.some.inj h) (by decide)

/-! ## Calls -/

theorem releasing_sink_cases (accepts : Bool) (accepted : List EventBatch) (b : EventBatch) :
    (releasing_sink accepts accepted b = (accepted ++ [b], true)) ∨
    (releasing_sink accepts accepted b = (accepted, false) ∧ accepts = false ∧ is_release b = false) := by
  unfold releasing_sink
  by_cases h : (accepts || is_release b) = true
  · exact Or.inl (if_pos h)
  · refine Or.inr ⟨if_neg h, ?_⟩
    simpa using h

theorem releasing_sink_release {accepts : Bool} {accepted : List EventBatch} (h : is_release b = true) :
    releasing_sink accepts accepted b = (accepted ++ [b], true) := by
  rcases releasing_sink_cases accepts accepted b with hsink | ⟨-, -, hno⟩
  · exact hsink
  · rw [h] at hno
    cases hno

theorem is_release_transition {kind : BatchKind} {seq time : UInt64} :
    is_release (HeldCodes.transition d kind c 0 seq time) = true := by
  simp [is_release, HeldCodes.transition, key_event]

theorem is_release_forced {codes : OrdSet Code} {seq time : UInt64} :
    is_release (HeldCodes.forced_release d codes seq time) = true := by
  simp [is_release, HeldCodes.forced_release]

/-- Nothing happens to the stream `d`. -/
theorem Tracked.frame (hs : Tracked d s)
    (hheld : (s'.producers.held d).injected_held_ = (s.producers.held d).injected_held_)
    (hvalues : ∀ c, s'.values d c = s.values d c) : Tracked d s' := by
  refine hs.step fun c => ?_
  rw [hheld]
  exact .same Iff.rfl (hvalues c)

/-- The sink takes the batch of another stream, or rejects it. -/
theorem values_other {accepts : Bool} (haccepted : s'.accepted = (releasing_sink accepts s.accepted b).1)
    (hd : b.stream ≠ d) (c : Code) : s'.values d c = s.values d c := by
  rcases releasing_sink_cases accepts s.accepted b with hsink | ⟨hsink, -, -⟩
  · rw [hsink] at haccepted
    exact values_snoc_other haccepted hd
  · rw [hsink] at haccepted
    exact values_congr haccepted

/-- A press that is accepted. -/
theorem Tracked.press {code : Code} {seq time : UInt64} (hs : Tracked d s)
    (hcode : code ∉ (s.producers.held d).injected_held_)
    (hheld : (s'.producers.held d).injected_held_ = (s.producers.held d).injected_held_.insert code ())
    (haccepted : s'.accepted = s.accepted ++ [HeldCodes.transition d d.press_kind code 1 seq time]) : Tracked d s' := by
  refine hs.step fun c => ?_
  rw [hheld, values_snoc_same (d := d) haccepted rfl, batch_values_transition]
  by_cases hc : code = c
  · subst hc
    rw [if_pos rfl]
    exact .press hcode (OrdMap.mem_insert.mpr (Or.inl rfl)) rfl
  · rw [if_neg hc, List.append_nil]
    refine .same ?_ rfl
    simp [OrdMap.mem_insert, Ne.symm hc]

theorem Tracked.repeats {code : Code} {seq time : UInt64} (hs : Tracked .Keyboard s)
    (hcode : code ∈ (s.producers.held .Keyboard).injected_held_)
    (hheld : s'.producers.held .Keyboard = s.producers.held .Keyboard)
    (haccepted : s'.accepted = s.accepted ++ [HeldCodes.transition .Keyboard .Repeat code 2 seq time]) :
    Tracked .Keyboard s' := by
  refine hs.step fun c => ?_
  rw [hheld, values_snoc_same (d := .Keyboard) haccepted rfl, batch_values_transition]
  by_cases hc : code = c
  · subst hc
    rw [if_pos rfl]
    exact .repeats rfl hcode hcode rfl
  · rw [if_neg hc, List.append_nil]
    exact .same Iff.rfl rfl

theorem Tracked.release {code : Code} {seq time : UInt64} (hs : Tracked d s)
    (hcode : code ∈ (s.producers.held d).injected_held_)
    (hheld : (s'.producers.held d).injected_held_ = (s.producers.held d).injected_held_.erase code)
    (haccepted : s'.accepted = s.accepted ++ [HeldCodes.transition d d.press_kind code 0 seq time]) : Tracked d s' := by
  refine hs.step fun c => ?_
  rw [hheld, values_snoc_same (d := d) haccepted rfl, batch_values_transition]
  by_cases hc : code = c
  · subst hc
    rw [if_pos rfl]
    exact .release hcode (fun h => (OrdMap.mem_erase.mp h).1 rfl) rfl
  · rw [if_neg hc, List.append_nil]
    refine .same ?_ rfl
    simp [OrdMap.mem_erase, Ne.symm hc]

theorem Tracked.release_all {seq time : UInt64} (hs : Tracked d s)
    (hheld : (s'.producers.held d).injected_held_ = ∅)
    (haccepted : s'.accepted = s.accepted ++
      [HeldCodes.forced_release d (s.producers.held d).injected_held_ seq time]) : Tracked d s' := by
  refine hs.step fun c => ?_
  rw [hheld, values_snoc_same (d := d) haccepted rfl, batch_values_forced_release]
  by_cases hc : c ∈ (s.producers.held d).injected_held_
  · rw [if_pos hc]
    exact .release hc (OrdMap.not_mem_empty c) rfl
  · rw [if_neg hc, List.append_nil]
    exact .same ⟨fun h => absurd h (OrdMap.not_mem_empty c), fun h => absurd h hc⟩ rfl

/-- A change at the stream `d'`, seen from the stream `d`. -/
theorem injected_update (h : Held) (d d' : Stream) (x : HeldCodes) :
    (update h d' x d).injected_held_ = if d = d' then x.injected_held_ else (h d).injected_held_ := by
  by_cases hd : d = d'
  · subst hd
    rw [update_self, if_pos rfl]
  · rw [update_of_ne hd, if_neg hd]

theorem Tracked.act {act : Act} {accepts : Bool} (hs : Tracked d s) (hinside : Held.Inside s.producers.held)
    (hact : Acts s.producers.held act)
    (hrun : (s'.producers.held, s'.accepted) = act.run (releasing_sink accepts) s.accepted)
    (hrepeat : d = .Keyboard → accepts = true → ∀ b ∈ act.batches, b.kind = .Repeat → ∀ e ∈ b.events,
      e.type = EV_KEY → e.code ∈ (s.producers.held .Keyboard).injected_held_) : Tracked d s' := by
  have hheld : s'.producers.held = (act.run (releasing_sink accepts) s.accepted).1 := congrArg Prod.fst hrun
  have haccepted : s'.accepted = (act.run (releasing_sink accepts) s.accepted).2 := congrArg Prod.snd hrun
  -- A change of what the host holds is none of what is injected.
  have hhost : ∀ {d' x}, s'.producers.held = update s.producers.held d' x →
      x.injected_held_ = (s.producers.held d').injected_held_ →
        (s'.producers.held d).injected_held_ = (s.producers.held d).injected_held_ := by
    intro d' x hheld hx
    rw [hheld, injected_update, hx]
    by_cases hd : d = d'
    · rw [if_pos hd, hd]
    · rw [if_neg hd]
  cases hact with
  | quiet => exact hs.frame (by rw [hheld]; rfl) fun c => values_congr haccepted
  | forgets => exact hs.frame (hhost hheld rfl) fun c => values_congr haccepted
  | clears => exact hs.frame (hhost hheld rfl) fun c => values_congr haccepted
  | @press d' code seq time hcode =>
    rcases releasing_sink_cases accepts s.accepted (HeldCodes.transition d' d'.press_kind code 1 seq time) with
      hsink | ⟨hsink, -, -⟩
    · simp only [Act.run, hsink, if_true] at hheld haccepted
      by_cases hd : d = d'
      · subst hd
        refine hs.press (fun h => hcode (hinside d code h)) ?_ haccepted
        rw [hheld, update_self]
      · refine hs.frame ?_ fun c => values_snoc_other haccepted (Ne.symm hd)
        rw [hheld, update_of_ne hd]
    · simp only [Act.run, hsink, Bool.false_eq_true, if_false] at hheld haccepted
      exact hs.frame (hhost hheld rfl) fun c => values_congr haccepted
  | @repeats code seq time hcode =>
    have hheld' : s'.producers.held = s.producers.held := hheld.trans (ite_self _)
    by_cases hd : d = .Keyboard
    · subst hd
      rcases releasing_sink_cases accepts s.accepted (HeldCodes.transition .Keyboard .Repeat code 2 seq time) with
        hsink | ⟨hsink, -, -⟩
      · simp only [Act.run, hsink] at haccepted
        have haccepts : accepts = true := by
          by_contra hno
          rw [Bool.not_eq_true] at hno
          subst hno
          exact absurd (congrArg Prod.snd hsink) (by simp [releasing_sink, is_release, HeldCodes.transition, key_event,
            syn_report, EV_KEY, EV_SYN])
        have hcode' := hrepeat rfl haccepts _ (List.mem_singleton.mpr rfl) rfl (key_event code 2) List.mem_cons_self rfl
        exact hs.repeats hcode' (congrFun hheld' _) haccepted
      · simp only [Act.run, hsink] at haccepted
        exact hs.frame (by rw [hheld']) fun c => values_congr haccepted
    · exact hs.frame (by rw [hheld']) (values_other haccepted (Ne.symm hd))
  | @release d' code seq time after hcode hafter =>
    have hheld' : s'.producers.held = after := hheld.trans (ite_self _)
    subst hafter
    by_cases hd : d = d'
    · subst hd
      simp only [Act.run, releasing_sink_release is_release_transition] at haccepted
      exact hs.release hcode (by rw [hheld', update_self]) haccepted
    · exact hs.frame (by rw [hheld', update_of_ne hd]) (values_other haccepted (Ne.symm hd))
  | @release_all d' seq time hne =>
    have hheld' : s'.producers.held = update s.producers.held d' {} := hheld.trans (ite_self _)
    by_cases hd : d = d'
    · subst hd
      simp only [Act.run, releasing_sink_release is_release_forced] at haccepted
      exact hs.release_all (by rw [hheld', update_self]) haccepted
    · exact hs.frame (by rw [hheld', update_of_ne hd]) (values_other haccepted (Ne.symm hd))
  | @state b hkind hevents hkeys =>
    have hheld' : s'.producers.held = s.producers.held := hheld.trans (ite_self _)
    refine hs.frame (by rw [hheld']) fun c => ?_
    by_cases hd : b.stream = d
    · rcases releasing_sink_cases accepts s.accepted b with hsink | ⟨hsink, -, -⟩
      · simp only [Act.run, hsink] at haccepted
        rw [values_snoc_same haccepted hd, batch_values_state hkeys, List.append_nil]
      · simp only [Act.run, hsink] at haccepted
        exact values_congr haccepted
    · exact values_other haccepted hd c

theorem Tracked.reset (hs : Tracked d' s) (h : s.step (.reset_after_transport_failure d) = some s') :
    Tracked d' s' := by
  cases Option.some.inj h
  by_cases hd : d' = d
  · subst hd
    have hnone : ∀ c, c ∉ ((s.producers.reset_after_transport_failure d').held d').injected_held_ := by
      intro c
      rw [Producers.held_reset, update_self]
      exact OrdMap.not_mem_empty c
    have hvalues : (s.accepted.filter fun batch => batch.stream ≠ d').filter (fun batch => batch.stream = d') = [] := by
      simp [List.filter_filter]
    refine ⟨fun c hc => absurd hc (hnone c), fun c _ => ?_⟩
    rw [values_eq, hvalues]
    exact finished_nil
  · refine hs.frame (by rw [Producers.held_reset, update_of_ne hd]) fun c => ?_
    have hfilter : (s.accepted.filter fun batch => batch.stream ≠ d).filter (fun batch => batch.stream = d') =
        s.accepted.filter fun batch => batch.stream = d' := by
      rw [List.filter_filter]
      apply List.filter_congr
      intro batch _
      by_cases hstream : batch.stream = d'
      · simp [hstream, hd]
      · simp [hstream]
    rw [values_eq, values_eq, hfilter]

/-! ## Runs -/

theorem inside_next {op : KeyStreamsOp} (hs : Held.Inside s.producers.held) (h : s.step op = some s') :
    Held.Inside s'.producers.held := by
  cases op with
  | call c accepts =>
    obtain ⟨act, hact, -, hrun⟩ := Producers.call_act s.producers c
    cases Option.some.inj h
    have hheld := congrArg Prod.fst (hrun _ (releasing_sink accepts) s.accepted)
    dsimp only at hheld ⊢
    rw [hheld]
    exact hact.inside hs _ _
  | reset_after_transport_failure stream =>
    cases Option.some.inj h
    exact Producers.inside_reset hs stream

theorem Tracked.next {op : KeyStreamsOp} (hs : Tracked d s) (hinside : Held.Inside s.producers.held)
    (hrepeat : d = .Keyboard → s.RepeatsInjected op) (h : s.step op = some s') : Tracked d s' := by
  cases op with
  | call c accepts =>
    obtain ⟨act, hact, hsubmits, hrun⟩ := Producers.call_act s.producers c
    cases Option.some.inj h
    refine hs.act hinside hact (hrun _ (releasing_sink accepts) s.accepted) ?_
    intro hd haccepts b hb
    exact hrepeat hd haccepts b (hsubmits ▸ hb)
  | reset_after_transport_failure stream => exact hs.reset h

/-- A repeat of a code that is not injected leaves the code with a last value that is no release. -/
theorem repeatsInjected_of_wellFormed {op : KeyStreamsOp} {expression : RegularExpression Int32}
    (h : s.step op = some s') (hwell : WellFormed .Keyboard expression s') : s.RepeatsInjected op := by
  cases op with
  | reset_after_transport_failure stream => trivial
  | call call accepts =>
    obtain ⟨act, hact, hsubmits, hrun⟩ := Producers.call_act s.producers call
    cases Option.some.inj h
    intro haccepts b hb hkind e he htype
    rw [hsubmits] at hb
    specialize hrun _ (releasing_sink accepts) s.accepted
    obtain ⟨code, seq, time, -, rfl, rfl⟩ := hact.repeat_of_kind hb hkind
    have hcode : e.code = code := by
      simp only [HeldCodes.transition, List.mem_cons, List.not_mem_nil, or_false] at he
      rcases he with rfl | rfl
      · rfl
      · exact absurd htype (by decide)
    have hsink : releasing_sink accepts s.accepted (HeldCodes.transition .Keyboard .Repeat code 2 seq time) =
        (s.accepted ++ [HeldCodes.transition .Keyboard .Repeat code 2 seq time], true) := by
      rw [haccepts]
      rfl
    rw [Act.run, hsink] at hrun
    obtain ⟨hheld, haccepted⟩ := Prod.mk.inj hrun
    rw [hcode]
    have hlast := (hwell code).2.mpr
    rw [values_snoc_same (d := .Keyboard) (s := s) haccepted rfl, batch_values_transition, if_pos rfl, hheld] at hlast
    exact hlast (Or.inr List.getLast?_concat)

theorem exec_total (policy : RepeatPolicy) (is : List KeyStreamsOp) :
    ∀ s, ∃ s', (keyStreamsMachine policy).exec s is = some s' := by
  induction is with
  | nil => exact fun s => ⟨s, rfl⟩
  | cons op is ih =>
    intro s
    obtain ⟨s1, h1⟩ : ∃ s1, s.step op = some s1 := by cases op <;> exact ⟨_, rfl⟩
    obtain ⟨s', h'⟩ := ih s1
    refine ⟨s', ?_⟩
    rw [Machine.exec_step (m := keyStreamsMachine policy) h1]
    exact h'

theorem injected_init (policy : RepeatPolicy) (d : Stream) (c : Code) :
    c ∉ ((keyStreamsMachine policy).init.producers.held d).injected_held_ := by
  cases d <;> exact OrdMap.not_mem_empty c

theorem tracked_init (policy : RepeatPolicy) (d : Stream) :
    Held.Inside (keyStreamsMachine policy).init.producers.held ∧ Tracked d (keyStreamsMachine policy).init :=
  ⟨fun d c hc => absurd hc (injected_init policy d c), fun c hc => absurd hc (injected_init policy d c),
    fun _ _ => finished_nil⟩

/-- Along every run the streams of the keys stay well formed exactly when every repeat that is sent and accepted is
one of an injected code; the streams of the buttons are always well formed. -/
theorem streams_well_formed_iff (policy : RepeatPolicy) (is : List KeyStreamsOp) :
    ((keyStreamsMachine policy).AllStates (WellFormed .Keyboard key_stream) (keyStreamsMachine policy).init is ↔
      (keyStreamsMachine policy).AllSteps RepeatsInjected (keyStreamsMachine policy).init is) ∧
    (keyStreamsMachine policy).AllStates (WellFormed .Pointer button_stream) (keyStreamsMachine policy).init is := by
  constructor
  · obtain ⟨s', hexec⟩ := exec_total policy is (keyStreamsMachine policy).init
    exact Machine.allStates_iff_allSteps_of_relation (R := fun s => Held.Inside s.producers.held ∧ Tracked .Keyboard s)
      (fun s hs => hs.2.wellFormed)
      (fun s op s' hs hop h => ⟨inside_next hs.1 h, hs.2.next hs.1 (fun _ => hop) h⟩)
      (fun s op s' hs h hwell => repeatsInjected_of_wellFormed h hwell) (tracked_init policy .Keyboard) hexec
  · exact Machine.allStates_of_invariant (P := fun s => Held.Inside s.producers.held ∧ Tracked .Pointer s)
      (fun s op s' hs h => ⟨inside_next hs.1 h, hs.2.next hs.1 (fun hd => nomatch hd) h⟩)
      (fun s hs => hs.2.wellFormed) (tracked_init policy .Pointer)

/-- The press of a key is rejected while the host goes on repeating it, and a repeat is accepted: it is the first
event of the key. -/
theorem repeat_without_press :
    ¬ (keyStreamsMachine .ForwardLinuxRepeat).AllStates (WellFormed .Keyboard key_stream)
      (keyStreamsMachine .ForwardLinuxRepeat).init
      [.call (.key KEY_A true false 1) false, .call (.key KEY_A true true 2) true] := by
  intro h
  have hlast : WellFormed .Keyboard key_stream _ := h.last rfl
  exact absurd ((hlast KEY_A).2.mpr (Or.inr (by decide))) (by decide)

end KeyStreams

end AnboxReboxed.Input
