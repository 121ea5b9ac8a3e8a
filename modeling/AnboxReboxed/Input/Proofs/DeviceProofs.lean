import AnboxReboxed.Input.Device
import AnboxReboxed.Lib.Proofs.OrdMapProofs

/-!
# Proofs: `deliver_events`

A delivery that succeeds has written all events, however many calls of `write` it took; one that fails leaves no
device behind.
-/

namespace AnboxReboxed.Input

open AnboxReboxed.Lib

namespace Device

variable {d device : Device} {events : List Event} {writes : List WriteResult}

theorem apply_events_append (down : OrdSet Code) (xs ys : List Event) :
    apply_events down (xs ++ ys) = apply_events (apply_events down xs) ys := List.foldl_append

theorem write_loop_result (writes : List WriteResult) :
    ∀ {down : OrdSet Code} {events : List Event} {result : Device × Bool}, write_loop writes down events = some result →
      result = (⟨some (apply_events down events)⟩, true) ∨ result = (⟨none⟩, false) := by
  have hdone : ∀ {down : OrdSet Code} {events : List Event}, events = [] →
      ((⟨some down⟩ : Device), true) = (⟨some (apply_events down events)⟩, true) := by
    rintro down events rfl
    rfl
  induction writes with
  | nil =>
    intro down events result h
    obtain ⟨hevents, rfl⟩ := Option.ite_none_right_eq_some.mp h |>.imp (fun h => h) Option.some.inj
    exact Or.inl (hdone hevents)
  | cons write writes ih =>
    intro down events result h
    rw [write_loop.eq_def] at h
    dsimp only at h
    by_cases hevents : events = []
    · rw [if_pos hevents] at h
      cases Option.some.inj h
      exact Or.inl (hdone hevents)
    · rw [if_neg hevents] at h
      cases write with
      | written bytes =>
        dsimp only at h
        split_ifs at h with hbytes hrecord
        · cases Option.some.inj h
          exact Or.inr rfl
        · -- The records that were written are taken off the front.
          have hrest := ih h
          rw [← apply_events_append, List.take_append_drop] at hrest
          exact hrest
      | interrupted => exact ih h
      | again ready =>
        cases ready with
        | true => exact ih h
        | false =>
          cases Option.some.inj h
          exact Or.inr rfl
      | failed =>
        cases Option.some.inj h
        exact Or.inr rfl

theorem deliver_events_true (h : d.deliver_events events writes = some (device, true)) :
    device.down = apply_events d.down events := by
  unfold deliver_events at h
  by_cases hevents : events = []
  · rw [if_pos hevents] at h
    cases Option.some.inj h
    rw [hevents]
    rfl
  · rw [if_neg hevents] at h
    cases huinput : d.uinput with
    | none =>
      rw [huinput] at h
      cases h
    | some down =>
      rw [huinput] at h
      rcases write_loop_result writes h with hresult | hresult
      · cases hresult
        rw [Device.down, Device.down, huinput]
        rfl
      · cases hresult

theorem deliver_events_false (h : d.deliver_events events writes = some (device, false)) : device.down = ∅ := by
  unfold deliver_events at h
  by_cases hevents : events = []
  · rw [if_pos hevents] at h
    cases h
  · rw [if_neg hevents] at h
    cases huinput : d.uinput with
    | none =>
      rw [huinput] at h
      cases Option.some.inj h
      rw [Device.down, huinput]
      rfl
    | some down =>
      rw [huinput] at h
      rcases write_loop_result writes h with hresult | hresult
      · cases hresult
      · cases hresult
        rfl

theorem down_create : d.create_uinput_device.down = d.down := rfl

end Device

end AnboxReboxed.Input
