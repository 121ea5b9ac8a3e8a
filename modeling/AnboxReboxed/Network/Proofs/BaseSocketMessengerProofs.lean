import AnboxReboxed.Network.SocketConnection

/-!
# Sends are contiguous unless an attempt is cut off

While no attempt is cut off after its first byte, the wire holds the data of the calls that have
returned, followed by what the holder of `message_lock` has written. An attempt that is cut off leaves
its bytes on the wire and writes them again: then there are more bytes than data.
-/

namespace AnboxReboxed.Network

open AnboxReboxed.Lib

namespace BaseSocketMessenger

variable {s s' : BaseSocketMessenger} {op : SendOp} {i : Nat} {data : List UInt8} {n : Nat}

/-- What the holder of the lock has written in its attempt. -/
def attempt (s : BaseSocketMessenger) : List UInt8 :=
  match s.message_lock with
  | none => []
  | some i =>
    match s.sends i with
    | .writing data n => data.take n
    | _ => []

/-- The data of the calls that have returned. -/
def written (s : BaseSocketMessenger) : List UInt8 := s.finished.flatMap fun i => (s.sends i).data

def NoThrow (s : BaseSocketMessenger) : Prop := ∀ i data, s.sends i ≠ .threw data

/-- Who holds the lock, and who has returned. -/
structure Tidy (s : BaseSocketMessenger) : Prop where
  locked : ∀ i, s.message_lock = some i ↔ ∃ data n, s.sends i = .writing data n
  within : ∀ i data n, s.sends i = .writing data n → n ≤ data.length
  nodup : s.finished.Nodup
  mem : ∀ i, i ∈ s.finished ↔ ∃ data, s.sends i = .returned data

/-- What is on the wire. -/
structure Accounted (s : BaseSocketMessenger) : Prop where
  total : s.wire.length = s.written.length + s.attempt.length + s.abandoned
  content : s.abandoned = 0 → s.wire = s.written ++ s.attempt

theorem attempt_unlocked (h : s.message_lock = none) : s.attempt = [] := by
  simp [attempt, h]

theorem attempt_writing (hl : s.message_lock = some i) (hi : s.sends i = .writing data n) :
    s.attempt = data.take n := by
  simp [attempt, hl, hi]

/-- What a step can be. -/
theorem step_cases (h : s.step op = some s') :
    (∃ i data, op = .send i data ∧ s.sends i = .absent ∧ s' = s.put i (.unlocked data)) ∨
    (∃ i data, op = .lock i ∧ s.sends i = .unlocked data ∧ s.message_lock = none ∧
      s' = { s.put i (.writing data 0) with message_lock := some i }) ∨
    (∃ i k data n, op = .write i k ∧ s.sends i = .writing data n ∧ 0 < k ∧ n + k ≤ data.length ∧
      s' = { s.put i (.writing data (n + k)) with wire := s.wire ++ (data.drop n).take k }) ∨
    (∃ i data, op = .done i ∧ s.sends i = .writing data data.length ∧
      s' = { s.put i (.returned data) with message_lock := none, finished := s.finished ++ [i] }) ∨
    (∃ i data n, op = .tryAgain i ∧ s.sends i = .writing data n ∧
      s' = { s.put i (.unlocked data) with message_lock := none, abandoned := s.abandoned + n }) ∨
    (∃ i data n, op = .fail i ∧ s.sends i = .writing data n ∧
      s' = { s.put i (.threw data) with message_lock := none }) := by
  cases op with
  | send i data =>
    simp only [step, Option.ite_none_right_eq_some, Option.some.injEq] at h
    exact Or.inl ⟨i, data, rfl, h.1, h.2.symm⟩
  | lock i =>
    simp only [step] at h
    split at h
    · rename_i data hi
      simp only [Option.ite_none_right_eq_some, Option.some.injEq] at h
      exact Or.inr (Or.inl ⟨i, data, rfl, hi, h.1, h.2.symm⟩)
    · cases h
  | write i k =>
    simp only [step] at h
    split at h
    · rename_i data n hi
      simp only [Option.ite_none_right_eq_some, Option.some.injEq] at h
      exact Or.inr (Or.inr (Or.inl ⟨i, k, data, n, rfl, hi, h.1.1, h.1.2, h.2.symm⟩))
    · cases h
  | done i =>
    simp only [step] at h
    split at h
    · rename_i data n hi
      simp only [Option.ite_none_right_eq_some, Option.some.injEq] at h
      obtain ⟨rfl, h⟩ := h
      exact Or.inr (Or.inr (Or.inr (Or.inl ⟨i, data, rfl, hi, h.symm⟩)))
    · cases h
  | tryAgain i =>
    simp only [step] at h
    split at h
    · rename_i data n hi
      simp only [Option.ite_none_right_eq_some, Option.some.injEq] at h
      exact Or.inr (Or.inr (Or.inr (Or.inr (Or.inl ⟨i, data, n, rfl, hi, h.2.symm⟩))))
    · cases h
  | fail i =>
    simp only [step] at h
    split at h
    · rename_i data n hi
      simp only [Option.ite_none_right_eq_some, Option.some.injEq] at h
      exact Or.inr (Or.inr (Or.inr (Or.inr (Or.inr ⟨i, data, n, rfl, hi, h.2.symm⟩))))
    · cases h

@[simp] theorem put_sends (s : BaseSocketMessenger) (i j : Nat) (p : SendPlace) :
    (s.put i p).sends j = if j = i then p else s.sends j := by
  simp [put, Function.update_apply]

@[simp] theorem put_wire (s : BaseSocketMessenger) (i : Nat) (p : SendPlace) :
    (s.put i p).wire = s.wire := rfl

@[simp] theorem put_message_lock (s : BaseSocketMessenger) (i : Nat) (p : SendPlace) :
    (s.put i p).message_lock = s.message_lock := rfl

@[simp] theorem put_finished (s : BaseSocketMessenger) (i : Nat) (p : SendPlace) :
    (s.put i p).finished = s.finished := rfl

@[simp] theorem put_abandoned (s : BaseSocketMessenger) (i : Nat) (p : SendPlace) :
    (s.put i p).abandoned = s.abandoned := rfl

/-- Only the holder of the lock writes. -/
theorem Tidy.holder (hs : s.Tidy) (hi : s.sends i = .writing data n) {j : Nat} {data' : List UInt8}
    {n' : Nat} (hj : s.sends j = .writing data' n') : j = i := by
  have h1 := (hs.locked i).mpr ⟨data, n, hi⟩
  have h2 := (hs.locked j).mpr ⟨data', n', hj⟩
  rw [h1] at h2
  exact (Option.some.inj h2).symm

theorem Tidy.step (hs : s.Tidy) (h : s.step op = some s') : s'.Tidy := by
  have hholder := @Tidy.holder s
  obtain ⟨hlocked, hwithin, hnodup, hmem⟩ := id hs
  rcases step_cases h with ⟨i, data, -, hi, rfl⟩ | ⟨i, data, -, hi, hl, rfl⟩ |
    ⟨i, k, data, n, -, hi, hk, hle, rfl⟩ | ⟨i, data, -, hi, rfl⟩ | ⟨i, data, n, -, hi, rfl⟩ |
    ⟨i, data, n, -, hi, rfl⟩
  · constructor <;> grind [put_sends, put_message_lock, put_finished]
  · constructor <;> grind [put_sends, put_message_lock, put_finished]
  all_goals
    have honly : ∀ j d m, s.sends j = .writing d m → j = i := fun j d m => hs.holder hi
    constructor <;> grind [put_sends, put_message_lock, put_finished]

/-- The data of calls that have returned is not touched by the steps of others. -/
theorem flatMap_put (p : SendPlace) {order : List Nat} (h : i ∉ order) :
    (order.flatMap fun j => ((s.put i p).sends j).data) = order.flatMap fun j => (s.sends j).data := by
  simp only [List.flatMap_def]
  congr 1
  apply List.map_congr_left
  intro j hj
  have hne : j ≠ i := fun he => h (he ▸ hj)
  simp [hne]

theorem Tidy.not_mem (hs : s.Tidy) (hi : ∀ data, s.sends i ≠ .returned data) : i ∉ s.finished := by
  intro hm
  obtain ⟨data, hd⟩ := (hs.mem i).mp hm
  exact hi data hd

theorem noThrow_of_step (h : s.step op = some s') (ht : s'.NoThrow) : s.NoThrow := by
  intro j data hj
  rcases step_cases h with ⟨i, d, -, hi, rfl⟩ | ⟨i, d, -, hi, hl, rfl⟩ |
    ⟨i, k, d, n, -, hi, hk, hle, rfl⟩ | ⟨i, d, -, hi, rfl⟩ | ⟨i, d, n, -, hi, rfl⟩ |
    ⟨i, d, n, -, hi, rfl⟩
  all_goals
    have hne : j ≠ i := by
      rintro rfl
      rw [hi] at hj
      cases hj
    exact ht j data (by simp [hne, hj])

/-- A call without the lock changes nothing of the holder's attempt. -/
theorem attempt_put {p : SendPlace} (h : s.message_lock ≠ some i) : (s.put i p).attempt = s.attempt := by
  simp only [attempt, put_message_lock]
  cases hl : s.message_lock with
  | none => rfl
  | some j =>
    have hne : j ≠ i := fun he => h (he ▸ hl)
    simp [hne]

/-- While no call has thrown, every byte on the wire is accounted for. -/
theorem Accounted.step (hs : s.Tidy) (ha : s.Accounted) (h : s.step op = some s') (ht : s'.NoThrow) :
    s'.Accounted := by
  obtain ⟨htotal, hcontent⟩ := ha
  rcases step_cases h with ⟨i, data, -, hi, rfl⟩ | ⟨i, data, -, hi, hl, rfl⟩ |
    ⟨i, k, data, n, -, hi, hk, hle, rfl⟩ | ⟨i, data, -, hi, rfl⟩ | ⟨i, data, n, -, hi, rfl⟩ |
    ⟨i, data, n, -, hi, rfl⟩
  -- `send`
  · have hwritten : (s.put i (.unlocked data)).written = s.written :=
      flatMap_put _ (hs.not_mem (by simp [hi]))
    have hfree : s.message_lock ≠ some i := by
      intro hl
      obtain ⟨d, n, hw⟩ := (hs.locked i).mp hl
      rw [hi] at hw
      cases hw
    constructor
    · rw [hwritten, attempt_put hfree]
      exact htotal
    · rw [hwritten, attempt_put hfree]
      exact hcontent
  -- `lock`
  · have hwritten : written { s.put i (.writing data 0) with message_lock := some i } = s.written :=
      flatMap_put _ (hs.not_mem (by simp [hi]))
    have hattempt : attempt { s.put i (.writing data 0) with message_lock := some i } = s.attempt := by
      rw [attempt_unlocked hl]
      simp [attempt]
    constructor
    · rw [hwritten, hattempt]
      exact htotal
    · rw [hwritten, hattempt]
      exact hcontent
  -- `write`
  · have hlock := (hs.locked i).mpr ⟨data, n, hi⟩
    have hwritten : written { s.put i (.writing data (n + k)) with wire := s.wire ++ (data.drop n).take k } =
        s.written := flatMap_put _ (hs.not_mem (by simp [hi]))
    have hattempt : attempt { s.put i (.writing data (n + k)) with wire := s.wire ++ (data.drop n).take k } =
        s.attempt ++ (data.drop n).take k := by
      rw [attempt_writing hlock hi, ← List.take_add]
      simp [attempt, hlock]
    constructor
    · rw [hwritten, hattempt]
      simp only [List.length_append, put_abandoned]
      omega
    · intro h0
      rw [hwritten, hattempt, ← List.append_assoc, ← hcontent h0]
  -- `done`: the attempt becomes part of what is written
  · have hlock := (hs.locked i).mpr ⟨data, data.length, hi⟩
    have hmem : i ∉ s.finished := hs.not_mem (by simp [hi])
    have hattempt : s.attempt = data := by
      rw [attempt_writing hlock hi, List.take_length]
    have hwritten : written { s.put i (.returned data) with
        message_lock := none, finished := s.finished ++ [i] } = s.written ++ data := by
      have hold := flatMap_put (s := s) (.returned data) hmem
      simp only [written, List.flatMap_append, hold]
      simp [SendPlace.data]
    rw [hattempt] at htotal hcontent
    constructor
    · rw [hwritten, attempt_unlocked rfl, List.length_append]
      exact htotal
    · rw [hwritten, attempt_unlocked rfl, List.append_nil]
      exact hcontent
  -- `tryAgain`: what was written in the attempt stays on the wire
  · have hlock := (hs.locked i).mpr ⟨data, n, hi⟩
    have hwithin := hs.within i data n hi
    have hwritten : written { s.put i (.unlocked data) with
        message_lock := none, abandoned := s.abandoned + n } = s.written :=
      flatMap_put _ (hs.not_mem (by simp [hi]))
    rw [attempt_writing hlock hi] at htotal hcontent
    rw [List.length_take_of_le hwithin] at htotal
    constructor
    · rw [hwritten, attempt_unlocked rfl]
      simp only [put_wire, List.length_nil]
      omega
    · intro h0
      obtain ⟨h0, rfl⟩ : s.abandoned = 0 ∧ n = 0 := by
        simp only at h0
        omega
      rw [hwritten, attempt_unlocked rfl]
      exact hcontent h0
  -- `fail`
  · exact absurd (by simp) (ht i data)

/-- The invariant of all runs. -/
def Sound (s : BaseSocketMessenger) : Prop := s.Tidy ∧ (s.NoThrow → s.Accounted)

theorem Sound.step (hs : s.Sound) (h : s.step op = some s') : s'.Sound :=
  ⟨hs.1.step h, fun ht => Accounted.step hs.1 (hs.2 (noThrow_of_step h ht)) h ht⟩

theorem sound_init : (sendMachine.init).Sound := by
  refine ⟨⟨?_, ?_, List.nodup_nil, ?_⟩, fun _ => ⟨rfl, fun _ => rfl⟩⟩
  · simp [sendMachine]
  · simp [sendMachine]
  · simp [sendMachine]

theorem sound_of_run {ops : List SendOp} (h : sendMachine.exec sendMachine.init ops = some s) : s.Sound :=
  Machine.Reachable.invariant sound_init (fun _ _ _ hs hst => hs.step hst) ⟨ops, h⟩

/-- Only a `try_again` after the first byte of an attempt abandons bytes. -/
theorem abandoned_step (h : s.step op = some s') :
    s.abandoned ≤ s'.abandoned ∧ (s'.abandoned = s.abandoned ↔ s.NothingTaken op) := by
  rcases step_cases h with ⟨i, data, rfl, hi, rfl⟩ | ⟨i, data, rfl, hi, hl, rfl⟩ |
    ⟨i, k, data, n, rfl, hi, hk, hle, rfl⟩ | ⟨i, data, rfl, hi, rfl⟩ | ⟨i, data, n, rfl, hi, rfl⟩ |
    ⟨i, data, n, rfl, hi, rfl⟩
  · simp [NothingTaken]
  · simp [NothingTaken]
  · simp [NothingTaken]
  · simp [NothingTaken]
  · refine ⟨Nat.le_add_right _ _, ?_⟩
    constructor
    · intro h0 j data' n' hop hj
      cases hop
      rw [hi] at hj
      cases hj
      simp only at h0
      omega
    · intro hC
      rw [hC i data n rfl hi]
      rfl
  · simp [NothingTaken]

theorem abandoned_eq_zero_iff {ops : List SendOp}
    (h : sendMachine.exec sendMachine.init ops = some s) :
    s.abandoned = 0 ↔ sendMachine.AllSteps NothingTaken sendMachine.init ops := by
  constructor
  · intro h0
    refine (Machine.allSteps_of_counter (f := abandoned) ?_ h).2 h0
    exact fun s1 op s2 h12 => ⟨(abandoned_step h12).1, (abandoned_step h12).2.mp⟩
  · intro hall
    refine Machine.exec_invariant (C := NothingTaken) (P := fun s => s.abandoned = 0) ?_ rfl hall h
    intro s1 op s2 h0 hC h12
    exact ((abandoned_step h12).2.mpr hC).trans h0

/-- When all calls have returned, the wire is in order if and only if no bytes were abandoned. -/
theorem Sound.contiguous_iff (hs : s.Sound) (hall : s.AllReturned) : s.Contiguous ↔ s.abandoned = 0 := by
  have hthrow : s.NoThrow := by
    intro i data hi
    rcases hall i with ha | ⟨d, hd⟩
    · rw [hi] at ha
      cases ha
    · rw [hi] at hd
      cases hd
  obtain ⟨htidy, hacc⟩ := hs
  obtain ⟨htotal, hcontent⟩ := hacc hthrow
  have hmem : ∀ i, i ∈ s.finished ↔ s.sends i ≠ .absent := by
    intro i
    rw [htidy.mem]
    rcases hall i with ha | ⟨d, hd⟩
    · simp [ha]
    · simp [hd]
  have hidle : s.attempt = [] := by
    cases hl : s.message_lock with
    | none => exact attempt_unlocked hl
    | some i =>
      obtain ⟨d, n, hw⟩ := (htidy.locked i).mp hl
      rcases hall i with ha | ⟨d', hd⟩
      · rw [hw] at ha
        cases ha
      · rw [hw] at hd
        cases hd
  rw [hidle] at htotal hcontent
  constructor
  · rintro ⟨order, hnodup, hord, hwire⟩
    -- both orders hold the same calls, so that there is no room for abandoned bytes
    have hperm : order.Perm s.finished := by
      rw [List.perm_ext_iff_of_nodup hnodup htidy.nodup]
      intro i
      rw [hord, hmem]
    have hlen : s.wire.length = s.written.length := by
      rw [hwire]
      exact (hperm.flatMap_right _).length_eq
    simp only [List.length_nil] at htotal
    omega
  · intro h0
    refine ⟨s.finished, htidy.nodup, hmem, ?_⟩
    rw [hcontent h0, List.append_nil]
    rfl

/-- **Sends are contiguous** exactly in the runs in which the socket reports `try_again` only before it
has taken a byte of the attempt. -/
theorem sends_contiguous_iff (ops : List SendOp) (s : BaseSocketMessenger)
    (h : sendMachine.exec sendMachine.init ops = some s) (hall : s.AllReturned) :
    s.Contiguous ↔ sendMachine.AllSteps NothingTaken sendMachine.init ops := by
  rw [(sound_of_run h).contiguous_iff hall]
  exact abandoned_eq_zero_iff h

/-- Two calls, the first of which has to try again before its first byte. -/
def turnOps : List SendOp :=
  [.send 0 [1, 2], .send 1 [3], .lock 0, .tryAgain 0, .lock 1, .write 1 1, .done 1, .lock 0, .write 0 1,
    .write 0 1, .done 0]

theorem sends_contiguous_turns :
    ∃ s, sendMachine.exec sendMachine.init turnOps = some s ∧ s.AllReturned ∧ s.Contiguous := by
  have hrun : ∃ s, sendMachine.exec sendMachine.init turnOps = some s ∧ s.AllReturned ∧ s.abandoned = 0 := by
    refine ⟨_, rfl, ?_, rfl⟩
    intro i
    rcases i with _ | _ | i
    · exact Or.inr ⟨_, rfl⟩
    · exact Or.inr ⟨_, rfl⟩
    · exact Or.inl rfl
  obtain ⟨s, hs, hall, h0⟩ := hrun
  exact ⟨s, hs, hall, (sends_contiguous_iff turnOps s hs hall).mpr ((abandoned_eq_zero_iff hs).mp h0)⟩

/-- A call that has to try again after its first byte. -/
def cutOps : List SendOp :=
  [.send 0 [1, 2], .lock 0, .write 0 1, .tryAgain 0, .lock 0, .write 0 2, .done 0]

/-- All calls return, and the first byte is on the wire twice. -/
theorem cut_off_byte_twice : ∃ s, sendMachine.exec sendMachine.init cutOps = some s ∧ s.AllReturned ∧
    s.wire = [1, 1, 2] ∧ ¬s.Contiguous := by
  have hrun : ∃ s, sendMachine.exec sendMachine.init cutOps = some s ∧ s.AllReturned ∧ s.wire = [1, 1, 2] ∧
      s.abandoned = 1 := by
    refine ⟨_, rfl, ?_, rfl, rfl⟩
    intro i
    rcases i with _ | i
    · exact Or.inr ⟨_, rfl⟩
    · exact Or.inl rfl
  obtain ⟨s, hs, hall, hwire, h1⟩ := hrun
  refine ⟨s, hs, hall, hwire, ?_⟩
  rw [(sound_of_run hs).contiguous_iff hall, h1]
  decide

end BaseSocketMessenger

end AnboxReboxed.Network
