import AnboxReboxed.Input.Touch

/-!
# Proofs: the contacts follow the fingers

What a stroke makes of the screen is said once for each kind (`down_eq`, `motion_eq`, `up_eq`): the slot of the
finger is the current one, and only its contact changes. The invariant `Tracks` ties `touch_slots`, the contacts of
the kernel and the held fingers to each other.
-/

namespace AnboxReboxed.Input

open AnboxReboxed.Lib Function

theorem slot_value_injective : ∀ i j : Fin MAX_FINGERS, slot_value i = slot_value j → i = j := by decide

theorem slot_value_ne : ∀ i : Fin MAX_FINGERS, slot_value i ≠ -1 := by decide

namespace TouchSlots

variable {s : TouchSlots} {i : Fin MAX_FINGERS} {id : Int32}

theorem find_touch_slot_some (h : s.find_touch_slot id = some i) : s.touch_slots i = id := by
  have hi := List.find?_some h
  exact of_decide_eq_true hi

theorem find_touch_slot_none (h : s.find_touch_slot id = none) (i : Fin MAX_FINGERS) : s.touch_slots i ≠ id := by
  have hi := List.find?_eq_none.mp h i (List.mem_finRange i)
  intro heq
  exact hi (decide_eq_true heq)

end TouchSlots

namespace SlotDecoder

variable {d : SlotDecoder}

theorem send_events_append (d : SlotDecoder) (es es' : List Event) :
    d.send_events (es ++ es') = (d.send_events es).send_events es' := List.foldl_append

/-- The device with another contact in the slot `v`, which is committed and stays the current one. -/
def put (d : SlotDecoder) (v : Int32) (c : Contact) : SlotDecoder where
  slot := v
  contacts := update d.contacts v c
  committed := update d.contacts v c

/-- The device with the current slot `v`. -/
def at_ (d : SlotDecoder) (v : Int32) : SlotDecoder := { d with slot := v }

theorem send_down (d : SlotDecoder) (v id x y : Int32) :
    (d.at_ v).send_events [⟨EV_ABS, ABS_MT_TRACKING_ID, id⟩, ⟨EV_ABS, ABS_MT_POSITION_X, x⟩,
      ⟨EV_ABS, ABS_MT_POSITION_Y, y⟩, syn_report] = d.put v ⟨id, x, y⟩ := by
  simp [send_events, event, modify, put, at_, syn_report, EV_ABS, EV_SYN, SYN_REPORT, ABS_MT_SLOT,
    ABS_MT_TRACKING_ID, ABS_MT_POSITION_X, ABS_MT_POSITION_Y]

theorem send_up (d : SlotDecoder) (v : Int32) :
    (d.at_ v).send_events [⟨EV_ABS, ABS_MT_TRACKING_ID, -1⟩, syn_report] =
      d.put v { d.contacts v with tracking_id := -1 } := by
  simp [send_events, event, modify, put, at_, syn_report, EV_ABS, EV_SYN, SYN_REPORT, ABS_MT_SLOT,
    ABS_MT_TRACKING_ID]

theorem send_motion (d : SlotDecoder) (v x y : Int32) :
    (d.at_ v).send_events [⟨EV_ABS, ABS_MT_POSITION_X, x⟩, ⟨EV_ABS, ABS_MT_POSITION_Y, y⟩, syn_report] =
      d.put v { d.contacts v with x, y } := by
  simp [send_events, event, modify, put, at_, syn_report, EV_ABS, EV_SYN, SYN_REPORT, ABS_MT_SLOT,
    ABS_MT_TRACKING_ID, ABS_MT_POSITION_X, ABS_MT_POSITION_Y]

end SlotDecoder

namespace TouchScreen

variable {s s' : TouchScreen} {f g : Finger} {i : Fin MAX_FINGERS} {x y : Int32}

/-- The platform knows the current slot of the device, unless it has sent none yet. -/
def Current (s : TouchScreen) : Prop := s.slots.last_slot = -1 ∨ s.slots.last_slot = s.device.slot

/-- `push_slot` makes the slot the current one, with as few events as it takes. -/
theorem push_slot_spec {slots : TouchSlots} {d : SlotDecoder} (h : slots.last_slot = -1 ∨ slots.last_slot = d.slot)
    (i : Fin MAX_FINGERS) :
    (slots.push_slot [] i).1 = { slots with last_slot := slot_value i } ∧
      d.send_events (slots.push_slot [] i).2 = d.at_ (slot_value i) := by
  unfold TouchSlots.push_slot
  by_cases hlast : slots.last_slot = slot_value i
  · rw [if_neg (not_not.mpr hlast)]
    have hslot : d.slot = slot_value i := by
      rcases h with h | h
      · exact absurd (hlast.symm.trans h) (slot_value_ne i)
      · exact h.symm.trans hlast
    constructor
    · rw [← hlast]
    · rw [SlotDecoder.at_, ← hslot]
      rfl
  · rw [if_pos hlast]
    exact ⟨rfl, rfl⟩

theorem down_none (h : s.slots.find_touch_slot (-1) = none) : s.down f x y = s := by
  simp only [down, TouchSlots.push_finger_down, h]
  rfl

theorem down_eq (hs : s.Current) (h : s.slots.find_touch_slot (-1) = some i) :
    s.down f x y =
      { slots := { touch_slots := update s.slots.touch_slots i f.id, last_slot := slot_value i }
        device := s.device.put (slot_value i) ⟨tracking_id f.id, x, y⟩
        held := update s.held f (some { slot := i, x, y }) } := by
  let slots : TouchSlots := { s.slots with touch_slots := update s.slots.touch_slots i f.id }
  have hcurrent : slots.last_slot = -1 ∨ slots.last_slot = s.device.slot := hs
  obtain ⟨hslots, hevents⟩ := push_slot_spec hcurrent i
  simp only [down, TouchSlots.push_finger_down, h]
  rw [SlotDecoder.send_events_append, hevents, SlotDecoder.send_down, hslots]

theorem motion_none (h : s.slots.find_touch_slot f.id = none) (hf : s.held f = none) : s.motion f x y = s := by
  have hheld : update s.held f ((s.held f).map fun touch => { touch with x, y }) = s.held := by
    rw [hf, Option.map_none, ← hf, update_eq_self]
  simp only [motion, TouchSlots.push_finger_motion, h, hheld]
  rfl

theorem motion_eq (hs : s.Current) (h : s.slots.find_touch_slot f.id = some i) :
    s.motion f x y =
      { slots := { touch_slots := s.slots.touch_slots, last_slot := slot_value i }
        device := s.device.put (slot_value i) ⟨(s.device.contacts (slot_value i)).tracking_id, x, y⟩
        held := update s.held f ((s.held f).map fun touch => { touch with x, y }) } := by
  obtain ⟨hslots, hevents⟩ := push_slot_spec hs i
  simp only [motion, TouchSlots.push_finger_motion, h]
  rw [SlotDecoder.send_events_append, hevents, SlotDecoder.send_motion, hslots]

theorem up_none (h : s.slots.find_touch_slot f.id = none) (hf : s.held f = none) : s.up f = s := by
  have hheld : update s.held f none = s.held := by rw [← hf, update_eq_self]
  simp only [up, TouchSlots.push_finger_up, h, hheld]
  rfl

theorem up_eq (hs : s.Current) (h : s.slots.find_touch_slot f.id = some i) :
    s.up f =
      { slots := { touch_slots := update s.slots.touch_slots i (-1), last_slot := slot_value i }
        device := s.device.put (slot_value i) { s.device.contacts (slot_value i) with tracking_id := -1 }
        held := update s.held f none } := by
  obtain ⟨hslots, hevents⟩ := push_slot_spec hs i
  simp only [up, TouchSlots.push_finger_up, h]
  rw [SlotDecoder.send_events_append, hevents, SlotDecoder.send_up, hslots]

/-! ## The invariant -/

/-- `touch_slots`, the contacts and the held fingers agree. -/
structure Tracks (s : TouchScreen) : Prop where
  current : s.Current
  committed : s.device.committed = s.device.contacts
  free : ∀ i, s.slots.touch_slots i = -1 → (s.device.contacts (slot_value i)).tracking_id = -1
  outside : ∀ v, (∀ i, slot_value i ≠ v) → (s.device.contacts v).tracking_id = -1
  owner : ∀ i, s.slots.touch_slots i ≠ -1 → ∃ f touch, s.held f = some touch ∧ touch.slot = i
  slot : ∀ f touch, s.held f = some touch → s.slots.touch_slots touch.slot = f.id
  contact : ∀ f touch, s.held f = some touch →
    s.device.contacts (slot_value touch.slot) = ⟨tracking_id f.id, touch.x, touch.y⟩
  valid : ∀ f, s.held f ≠ none → f.id ≠ -1 ∧ 0 ≤ tracking_id f.id
  apart : ∀ f g, s.held f ≠ none → s.held g ≠ none → tracking_id f.id = tracking_id g.id → f = g

theorem tracks_init : Tracks {} where
  current := Or.inl rfl
  committed := rfl
  free := fun _ _ => rfl
  outside := fun _ _ => rfl
  owner := fun _ h => absurd rfl h
  slot := fun _ _ h => nomatch h
  contact := fun _ _ h => nomatch h
  valid := fun _ h => absurd rfl h
  apart := fun _ _ h => absurd rfl h

/-- A held finger has the tracking id of its contact, which is not -1. -/
theorem Tracks.tracking_ne (hs : s.Tracks) (h : s.held f ≠ none) : tracking_id f.id ≠ -1 := by
  intro heq
  have hvalid := (hs.valid f h).2
  rw [heq] at hvalid
  exact absurd hvalid (by decide)

/-- Two held fingers have different slots. -/
theorem Tracks.slot_injective (hs : s.Tracks) {t u : Touch} (hf : s.held f = some t) (hg : s.held g = some u)
    (h : t.slot = u.slot) : f = g := by
  have hid : f.id = g.id := by rw [← hs.slot f t hf, h, hs.slot g u hg]
  exact hs.apart f g (by rw [hf]; exact Option.some_ne_none t) (by rw [hg]; exact Option.some_ne_none u)
    (congrArg tracking_id hid)

theorem Tracks.follows (hs : s.Tracks) : s.Follows := by
  have hcontact : ∀ f touch, s.held f = some touch → s.ContactOf (slot_value touch.slot) f := by
    intro f touch hf
    refine ⟨touch, hf, rfl, ?_, ?_⟩
    · rw [hs.committed, hs.contact f touch hf]
    · rw [hs.committed, hs.contact f touch hf]
  have hfinger : ∀ slot, (s.device.committed slot).tracking_id ≠ -1 →
      ∃ f touch, s.held f = some touch ∧ slot_value touch.slot = slot := by
    intro slot hslot
    rw [hs.committed] at hslot
    by_cases hinside : ∃ i, slot_value i = slot
    · obtain ⟨i, rfl⟩ := hinside
      obtain ⟨f, touch, hf, rfl⟩ := hs.owner i fun hfree => hslot (hs.free i hfree)
      exact ⟨f, touch, hf, rfl⟩
    · exact absurd (hs.outside slot fun i hi => hinside ⟨i, hi⟩) hslot
  have htracking : ∀ f touch, s.held f = some touch →
      (s.device.committed (slot_value touch.slot)).tracking_id = tracking_id f.id := by
    intro f touch hf
    rw [hs.committed, hs.contact f touch hf]
  have hheld : ∀ {f touch}, s.held f = some touch → s.held f ≠ none := by
    intro f touch hf
    rw [hf]
    exact Option.some_ne_none touch
  constructor
  · intro f touch hf
    refine ⟨?_, hcontact f touch hf⟩
    rw [htracking f touch hf]
    exact hs.tracking_ne (hheld hf)
  · intro slot hslot
    obtain ⟨f, touch, hf, rfl⟩ := hfinger slot hslot
    exact ⟨f, hcontact f touch hf⟩
  · rintro slot f g ⟨t, hf, rfl, -, -⟩ ⟨u, hg, heq, -, -⟩
    exact hs.slot_injective hf hg (slot_value_injective _ _ heq).symm
  · intro slot hslot
    obtain ⟨f, touch, hf, rfl⟩ := hfinger slot hslot
    rw [htracking f touch hf]
    exact (hs.valid f (hheld hf)).2
  · intro slot slot' hslot heq
    obtain ⟨f, touch, hf, rfl⟩ := hfinger slot hslot
    obtain ⟨g, touch', hg, rfl⟩ := hfinger slot' (heq ▸ hslot)
    rw [htracking f touch hf, htracking g touch' hg] at heq
    have hfg := hs.apart f g (hheld hf) (hheld hg) heq
    subst hfg
    rw [hf] at hg
    rw [Option.some.inj hg]

/-! ## The strokes -/

/-- The only finger that can be meant by its id is the one that holds the slot. -/
theorem Tracks.holder (hs : s.Tracks) (hapart : ∀ g, s.held g ≠ none → g.id = f.id → g = f) (hid : f.id ≠ -1)
    (h : s.slots.find_touch_slot f.id = some i) : ∃ touch, s.held f = some touch ∧ touch.slot = i := by
  have hslot := TouchSlots.find_touch_slot_some h
  obtain ⟨g, touch, hg, rfl⟩ := hs.owner i (by rw [hslot]; exact hid)
  have hgf : g = f := by
    refine hapart g (by rw [hg]; exact Option.some_ne_none touch) ?_
    rw [← hs.slot g touch hg, hslot]
  subst hgf
  exact ⟨touch, hg, rfl⟩

/-- A finger without a slot is found only by the mark of a free slot. -/
theorem Tracks.not_held (hs : s.Tracks) (h : s.slots.find_touch_slot f.id = none) : s.held f = none := by
  by_contra hf
  obtain ⟨touch, hf⟩ := Option.ne_none_iff_exists'.mp hf
  exact TouchSlots.find_touch_slot_none h touch.slot (hs.slot f touch hf)

/-- What a stroke leaves in the slot `i`: nothing, or the finger `f` at some place. -/
inductive Left (s : TouchScreen) (f : Finger) (i : Fin MAX_FINGERS) : Int32 → Option Touch → Contact → Prop where
  | free {c : Contact} (hc : c.tracking_id = -1) : Left s f i (-1) none c
  | held {x y : Int32} (hid : f.id ≠ -1) (hvalid : 0 ≤ tracking_id f.id)
      (hapart : ∀ g, g ≠ f → s.held g ≠ none → tracking_id g.id ≠ tracking_id f.id) :
      Left s f i f.id (some { slot := i, x, y }) ⟨tracking_id f.id, x, y⟩

/-- A stroke of the finger `f` in the slot `i`, which no other finger holds. -/
theorem Tracks.stroke_at {id : Int32} {t : Option Touch} {c : Contact} (hs : s.Tracks)
    (hown : ∀ g touch, s.held g = some touch → (touch.slot = i ↔ g = f)) (hleft : Left s f i id t c)
    (hslots : s'.slots = { touch_slots := update s.slots.touch_slots i id, last_slot := slot_value i })
    (hdevice : s'.device = s.device.put (slot_value i) c) (hheld : s'.held = update s.held f t) : s'.Tracks := by
  have htouch : s'.slots.touch_slots = update s.slots.touch_slots i id := by rw [hslots]
  have hcontacts : s'.device.contacts = update s.device.contacts (slot_value i) c := by rw [hdevice]; rfl
  have hothers : ∀ {j}, j ≠ i → s'.device.contacts (slot_value j) = s.device.contacts (slot_value j) := by
    intro j hj
    rw [hcontacts]
    exact update_of_ne (fun h => hj (slot_value_injective _ _ h)) ..
  constructor
  · right
    rw [hslots, hdevice]
    rfl
  · rw [hdevice]
    rfl
  · intro j hj
    by_cases hji : j = i
    · subst hji
      rw [htouch, update_self] at hj
      rw [hcontacts, update_self]
      cases hleft with
      | free hc => exact hc
      | held hid => exact absurd hj hid
    · rw [htouch, update_of_ne hji] at hj
      rw [hothers hji]
      exact hs.free j hj
  · intro v hv
    rw [hcontacts, update_of_ne (hv i).symm]
    exact hs.outside v hv
  · intro j hj
    rw [hheld]
    by_cases hji : j = i
    · subst hji
      rw [htouch, update_self] at hj
      cases hleft with
      | free => exact absurd rfl hj
      | held => exact ⟨f, _, update_self .., rfl⟩
    · rw [htouch, update_of_ne hji] at hj
      obtain ⟨g, touch, hg, rfl⟩ := hs.owner j hj
      have hgf : g ≠ f := fun h => hji ((hown g touch hg).mpr h)
      exact ⟨g, touch, (update_of_ne hgf ..).trans hg, rfl⟩
  · intro g touch hg
    rw [hheld] at hg
    rw [htouch]
    by_cases hgf : g = f
    · subst hgf
      rw [update_self] at hg
      cases hleft with
      | free => cases hg
      | held =>
        cases Option.some.inj hg
        exact update_self ..
    · rw [update_of_ne hgf] at hg
      rw [update_of_ne fun h => hgf ((hown g touch hg).mp h)]
      exact hs.slot g touch hg
  · intro g touch hg
    rw [hheld] at hg
    by_cases hgf : g = f
    · subst hgf
      rw [update_self] at hg
      cases hleft with
      | free => cases hg
      | held =>
        cases Option.some.inj hg
        rw [hcontacts]
        exact update_self ..
    · rw [update_of_ne hgf] at hg
      rw [hothers fun h => hgf ((hown g touch hg).mp h)]
      exact hs.contact g touch hg
  · intro g hg
    rw [hheld] at hg
    by_cases hgf : g = f
    · subst hgf
      cases hleft with
      | free => exact absurd (update_self ..) hg
      | held hid hvalid => exact ⟨hid, hvalid⟩
    · rw [update_of_ne hgf] at hg
      exact hs.valid g hg
  · have hapart : ∀ g, g ≠ f → update s.held f t f ≠ none → s.held g ≠ none →
        tracking_id g.id ≠ tracking_id f.id := by
      intro g hgf hf hg
      rw [update_self] at hf
      cases hleft with
      | free => exact absurd rfl hf
      | held _ _ hapart => exact hapart g hgf hg
    intro g g' hg hg' heq
    rw [hheld] at hg hg'
    by_cases hgf : g = f
    · by_cases hgf' : g' = f
      · rw [hgf, hgf']
      · subst hgf
        rw [update_of_ne hgf'] at hg'
        exact absurd heq.symm (hapart g' hgf' hg hg')
    · rw [update_of_ne hgf] at hg
      by_cases hgf' : g' = f
      · subst hgf'
        exact absurd heq (hapart g hgf hg' hg)
      · rw [update_of_ne hgf'] at hg'
        exact hs.apart g g' hg hg' heq

/-- The fingers whose slot is `i`, which is free. -/
theorem Tracks.own_free (hs : s.Tracks) (hi : s.slots.touch_slots i = -1) (hf : s.held f = none) (g : Finger)
    (touch : Touch) (hg : s.held g = some touch) : touch.slot = i ↔ g = f := by
  constructor
  · intro hslot
    have hid := hs.slot g touch hg
    rw [hslot, hi] at hid
    exact absurd hid.symm (hs.valid g (by rw [hg]; exact Option.some_ne_none touch)).1
  · intro hgf
    rw [hgf, hf] at hg
    cases hg

/-- The fingers whose slot is the one of `f`. -/
theorem Tracks.own_held (hs : s.Tracks) {t : Touch} (hf : s.held f = some t) (g : Finger) (touch : Touch)
    (hg : s.held g = some touch) : touch.slot = t.slot ↔ g = f := by
  constructor
  · exact hs.slot_injective hg hf
  · intro hgf
    rw [hgf, hf] at hg
    rw [Option.some.inj hg]

theorem Tracks.down (hs : s.Tracks) (hapart : s.Apart (.down f x y)) : (s.down f x y).Tracks := by
  cases hfind : s.slots.find_touch_slot (-1) with
  | none => rw [down_none hfind]; exact hs
  | some i =>
    obtain ⟨hid, hvalid, hothers⟩ := hapart (by rw [hfind]; exact Option.some_ne_none i)
    have hf : s.held f = none := by
      by_contra hf
      exact hothers f hf rfl
    rw [down_eq hs.current hfind]
    have hfree := TouchSlots.find_touch_slot_some hfind
    exact hs.stroke_at (hs.own_free hfree hf) (.held hid hvalid fun g _ hg => hothers g hg) rfl rfl rfl

theorem Tracks.motion (hs : s.Tracks) (hapart : s.Apart (.motion f x y)) : (s.motion f x y).Tracks := by
  cases hfind : s.slots.find_touch_slot f.id with
  | none => rw [motion_none hfind (hs.not_held hfind)]; exact hs
  | some i =>
    rw [motion_eq hs.current hfind]
    have hslot := TouchSlots.find_touch_slot_some hfind
    have hsame : update s.slots.touch_slots i f.id = s.slots.touch_slots := by rw [← hslot, update_eq_self]
    by_cases hid : f.id = -1
    · have hf : s.held f = none := by
        by_contra hf
        exact (hs.valid f hf).1 hid
      rw [hid] at hslot hsame
      have hfree : (Contact.mk (s.device.contacts (slot_value i)).tracking_id x y).tracking_id = -1 := hs.free i hslot
      refine hs.stroke_at (hs.own_free hslot hf) (.free hfree) ?_ rfl ?_
      · rw [hsame]
      · rw [hf]
        rfl
    · obtain ⟨touch, hf, rfl⟩ := hs.holder hapart hid hfind
      have hne : s.held f ≠ none := by
        rw [hf]
        exact Option.some_ne_none touch
      have hothers : ∀ g, g ≠ f → s.held g ≠ none → tracking_id g.id ≠ tracking_id f.id :=
        fun g hgf hg heq => hgf (hs.apart g f hg hne heq)
      have hleft : Left s f touch.slot f.id (some { slot := touch.slot, x, y }) ⟨tracking_id f.id, x, y⟩ :=
        .held hid (hs.valid f hne).2 hothers
      refine hs.stroke_at (hs.own_held hf) hleft ?_ ?_ ?_
      · rw [hsame]
      · rw [hs.contact f touch hf]
      · rw [hf]
        rfl

theorem Tracks.up (hs : s.Tracks) (hapart : s.Apart (.up f)) : (s.up f).Tracks := by
  cases hfind : s.slots.find_touch_slot f.id with
  | none => rw [up_none hfind (hs.not_held hfind)]; exact hs
  | some i =>
    rw [up_eq hs.current hfind]
    by_cases hid : f.id = -1
    · have hslot := TouchSlots.find_touch_slot_some hfind
      rw [hid] at hslot
      have hf : s.held f = none := by
        by_contra hf
        exact (hs.valid f hf).1 hid
      exact hs.stroke_at (hs.own_free hslot hf) (.free rfl) rfl rfl rfl
    · obtain ⟨touch, hf, rfl⟩ := hs.holder hapart hid hfind
      exact hs.stroke_at (hs.own_held hf) (.free rfl) rfl rfl rfl

theorem Tracks.step {c : TouchConfiguration} {op : TouchOp} (hs : s.Tracks) (hapart : s.KeepsApart c op)
    (h : s.step c op = some s') : s'.Tracks := by
  unfold TouchScreen.step at h
  cases hop : s.process_input_event c op with
  | none =>
    rw [hop] at h
    exact Option.some.inj h ▸ hs
  | some stroke =>
    rw [hop] at h
    cases Option.some.inj h
    have hapart := hapart stroke hop
    cases stroke with
    | down f x y => exact hs.down hapart
    | motion f x y => exact hs.motion hapart
    | up f => exact hs.up hapart

/-- The contacts follow the fingers in runs in which the ids of the fingers stay apart. -/
theorem contacts_follow_fingers (c : TouchConfiguration) (ops : List TouchOp)
    (h : (touchMachine c).AllSteps (KeepsApart c) {} ops) : (touchMachine c).AllStates Follows {} ops :=
  Machine.allStates_of_allSteps (fun _ _ _ hs hC hstep => hs.step hC hstep) (fun _ hs => hs.follows) tracks_init h

/-- A finger goes down, moves and goes up. -/
def one_finger : List TouchOp := [.finger_down 1 (some (5, 6)), .finger_motion 1 (some (7, 8)), .finger_up 1]

theorem contacts_follow_one_finger : (touchMachine {}).AllStates Follows {} one_finger := by
  -- No other finger is ever held.
  have hheld : ∀ {h : Finger → Option Touch} {t : Option Touch}, (∀ g, h g ≠ none → g = .touch 1) →
      ∀ g, update h (.touch 1) t g ≠ none → g = .touch 1 := by
    intro h t hh g hg
    by_contra hne
    rw [update_of_ne hne] at hg
    exact hne (hh g hg)
  refine contacts_follow_fingers {} one_finger ?_
  refine (Machine.allSteps_cons rfl).mpr ⟨?_, (Machine.allSteps_cons rfl).mpr ⟨?_, (Machine.allSteps_cons rfl).mpr
    ⟨?_, trivial⟩⟩⟩
  · intro stroke h
    cases Option.some.inj h
    exact fun _ => ⟨by decide, by decide, fun g hg => absurd rfl hg⟩
  · intro stroke h
    cases Option.some.inj h
    exact fun g hg _ => hheld (fun _ hg => absurd rfl hg) g hg
  · intro stroke h
    cases Option.some.inj h
    exact fun g hg _ => hheld (hheld fun _ hg => absurd rfl hg) g hg

/-- Two buttons of the mouse put the same finger down twice, and the ids 1 and 11 have one tracking id. -/
theorem two_contacts_with_one_id :
    ¬ (touchMachine {}).AllStates Follows {} [.mouse_button_down (some (1, 1)), .mouse_button_down (some (1, 1))] ∧
      ¬ (touchMachine {}).AllStates Follows {} [.finger_down 1 (some (1, 1)), .finger_down 11 (some (2, 2))] := by
  constructor
  · intro h
    have hlast : Follows _ := h.last rfl
    exact absurd (hlast.distinct 0 1 (by decide) (by decide)) (by decide)
  · intro h
    have hlast : Follows _ := h.last rfl
    exact absurd (hlast.distinct 0 1 (by decide) (by decide)) (by decide)

end TouchScreen

end AnboxReboxed.Input
