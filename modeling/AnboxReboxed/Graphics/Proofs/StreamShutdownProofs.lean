import AnboxReboxed.Graphics.StreamShutdown

/-!
# Proofs: no lost wake-up at shutdown

`out_lock_` keeps the writer and the committers apart, so that a thread that is about to sleep still
sees what it tested. What `forceStop` does comes in between: the invariant follows it from the moment
the queue is closed to its last notification.
-/

namespace AnboxReboxed.Graphics

open AnboxReboxed.Lib CondVar

/-- The writer has `out_lock_`. -/
def WriterPlace.inside : WriterPlace → Bool
  | .unlocked | .waiting | .finished => false
  | _ => true

def CommitPlace.inside : CommitPlace → Bool
  | .unlocked | .waiting => false
  | _ => true

/-- `forceStop` has closed the queue and not woken the writer yet. -/
def StopPlace.beforePop : StopPlace → Bool
  | .testFull | .notifyPush | .testEmpty | .notifyPop => true
  | _ => false

/-- `forceStop` has closed the queue and not woken the committers yet. -/
def StopPlace.beforePush : StopPlace → Bool
  | .testFull | .notifyPush => true
  | _ => false

namespace StreamShutdown

variable {s s' : StreamShutdown}

/-- What the threads know while they have `out_lock_`, and why the writer is asleep. -/
structure Locked (s : StreamShutdown) : Prop where
  writer : s.writer.inside = true → s.out_lock_ = some .writer
  committer : ∀ t, (s.committers t).inside = true → s.out_lock_ = some (.committer t)
  empty : s.writer = .testClosed ∨ s.writer = .wait → s.count_ = 0
  full : ∀ t, s.committers t = .testClosed ∨ s.committers t = .wait → s.count_ = s.capacity_
  waiters : s.can_pop_.waiters = if s.writer = .waiting then 1 else 0
  asleep : s.can_pop_.asleep ≠ [] → s.count_ = 0 ∨ ∃ t, s.committers t = .notify

theorem Locked.outside (h : Locked s) (hw : s.writer.inside = true) (t : CommitterId) :
    (s.committers t).inside = false := by
  by_contra hc
  have h1 := h.committer t (by simpa using hc)
  rw [h.writer hw] at h1
  cases h1

/-- While the writer is awake nobody is asleep on `can_pop_`. -/
theorem Locked.awake (h : Locked s) (hw : s.writer ≠ .waiting) : s.can_pop_.asleep = [] := by
  have hn := h.waiters
  rw [if_neg hw] at hn
  unfold CondVar.waiters at hn
  exact List.length_eq_zero_iff.mp (by omega)

/-- The writer goes on with `out_lock_`, or leaves it for good. The committers are outside and nobody is
asleep on `can_pop_`, so that only its own place is to be seen to. -/
theorem Locked.writer_moves (h : Locked s) (hin : s.writer.inside = true)
    (hcom : s'.committers = s.committers) (hpop : s'.can_pop_ = s.can_pop_)
    (hlock : s'.writer.inside = true → s'.out_lock_ = some .writer) (hawake : s'.writer ≠ .waiting)
    (hempty : s'.writer = .testClosed ∨ s'.writer = .wait → s'.count_ = 0) : Locked s' := by
  have hout := h.outside hin
  have hne : s.writer ≠ .waiting := by
    intro hw
    rw [hw] at hin
    cases hin
  refine ⟨hlock, ?_, hempty, ?_, ?_, ?_⟩
  · intro t ht
    rw [hcom, hout t] at ht
    cases ht
  · intro t ht
    have hout := hout t
    rw [← hcom] at hout
    rcases ht with ht | ht
    · rw [ht] at hout
      cases hout
    · rw [ht] at hout
      cases hout
  · rw [hpop, if_neg hawake, h.waiters, if_neg hne]
  · intro hasleep
    rw [hpop, h.awake hne] at hasleep
    exact absurd rfl hasleep

/-- The writer goes on with `out_lock_`. -/
theorem Locked.writer_keeps (h : Locked s) (hin : s.writer.inside = true)
    (hcom : s'.committers = s.committers) (hpop : s'.can_pop_ = s.can_pop_) (hlock : s'.out_lock_ = s.out_lock_)
    (hawake : s'.writer ≠ .waiting) (hempty : s'.writer = .testClosed ∨ s'.writer = .wait → s'.count_ = 0) :
    Locked s' :=
  h.writer_moves hin hcom hpop (fun _ => hlock.trans (h.writer hin)) hawake hempty

theorem locked_write {k : Nat} (h : Locked s) (hs : s.write k = some s') : Locked s' := by
  unfold write at hs
  cases hw : s.writer <;> simp only [hw] at hs
  case unlocked =>
    split_ifs at hs with hfree
    cases hs
    have hout : ∀ t, (s.committers t).inside = false := by
      intro t
      by_contra hc
      have hl := h.committer t (by simpa using hc)
      rw [hfree] at hl
      cases hl
    refine ⟨fun _ => rfl, ?_, by simp, h.full, ?_, h.asleep⟩
    · intro t ht
      rw [hout t] at ht
      cases ht
    · simpa [hw] using h.waiters
  case testEmpty =>
    cases hs
    refine h.writer_keeps (by simp [hw, WriterPlace.inside]) rfl rfl rfl ?_ ?_
    · dsimp only
      split <;> simp
    · dsimp only
      split <;> simp [*]
  case testClosed =>
    cases hs
    refine h.writer_keeps (by simp [hw, WriterPlace.inside]) rfl rfl rfl ?_ ?_
    · dsimp only
      split <;> simp
    · exact fun _ => h.empty (Or.inl hw)
  case wait =>
    cases hs
    have hzero := h.empty (Or.inr hw)
    have hwaiters := h.waiters
    refine ⟨by simp [WriterPlace.inside], ?_, by simp, h.full, ?_, fun _ => Or.inl hzero⟩
    · intro t ht
      rw [h.outside (by simp [hw, WriterPlace.inside]) t] at ht
      cases ht
    · rw [waiters_wait, hwaiters]
      simp [hw]
  case waiting =>
    split_ifs at hs with hfree
    obtain ⟨⟨u, c⟩, hr, rfl⟩ := Option.map_eq_some_iff.mp hs
    have hwaiters := waiters_resume hr
    have hold := h.waiters
    rw [if_pos hw] at hold
    refine ⟨fun _ => rfl, ?_, by simp, h.full, ?_, ?_⟩
    · intro t ht
      have hl := h.committer t ht
      rw [hfree] at hl
      cases hl
    · simp
      omega
    · intro hasleep
      rw [resume_some hr] at hasleep
      exact h.asleep hasleep
  case tryPop =>
    cases hs
    refine h.writer_keeps (by simp [hw, WriterPlace.inside]) rfl rfl rfl ?_ ?_
    · dsimp only
      split_ifs <;> simp
    · dsimp only
      split_ifs <;> simp
  case take =>
    cases hs
    refine h.writer_keeps (by simp [hw, WriterPlace.inside]) rfl rfl rfl ?_ ?_
    · dsimp only
      split <;> simp
    · dsimp only
      split <;> simp
  case notify =>
    cases hs
    exact h.writer_keeps (by simp [hw, WriterPlace.inside]) rfl rfl rfl (by simp) (by simp)
  case send =>
    cases hs
    exact h.writer_moves (by simp [hw, WriterPlace.inside]) rfl rfl (by simp [WriterPlace.inside])
      (by simp) (by simp)
  case leave =>
    cases hs
    exact h.writer_moves (by simp [hw, WriterPlace.inside]) rfl rfl (by simp [WriterPlace.inside])
      (by simp) (by simp)
  case finished =>
    cases hs

/-- A notification on its way stays there while another committer moves. -/
theorem notify_elsewhere {t : CommitterId} {pc : CommitPlace} (ht : s.committers t ≠ .notify)
    (h : ∃ u, s.committers u = .notify) : ∃ u, Function.update s.committers t pc u = .notify := by
  obtain ⟨u, hu⟩ := h
  have hne : u ≠ t := by
    rintro rfl
    exact ht hu
  exact ⟨u, (Function.update_of_ne hne _ _).trans hu⟩

/-- A committer that has `out_lock_` keeps the others and the writer outside. -/
theorem Locked.alone (h : Locked s) {t : CommitterId} (hl : s.out_lock_ = some (.committer t)) :
    s.writer.inside = false ∧ ∀ u, u ≠ t → (s.committers u).inside = false := by
  constructor
  · by_contra hc
    have hw := h.writer (by simpa using hc)
    rw [hl] at hw
    cases hw
  · intro u hu
    by_contra hc
    have hl' := h.committer u (by simpa using hc)
    rw [hl] at hl'
    cases hl'
    exact hu rfl

/-- Committer `t` goes on with `out_lock_`, or leaves it. -/
theorem Locked.committer_moves (h : Locked s) {t : CommitterId} {pc : CommitPlace}
    (hl : s.writer.inside = false ∧ ∀ u, u ≠ t → (s.committers u).inside = false)
    (hcom : s'.committers = Function.update s.committers t pc) (hwriter : s'.writer = s.writer)
    (hlock : pc.inside = true → s'.out_lock_ = some (.committer t))
    (hfull : pc = .testClosed ∨ pc = .wait → s'.count_ = s'.capacity_)
    (hwaiters : s'.can_pop_.waiters = s.can_pop_.waiters)
    (hasleep : s'.can_pop_.asleep ≠ [] → s'.count_ = 0 ∨ ∃ u, s'.committers u = .notify) : Locked s' := by
  obtain ⟨hwout, hout⟩ := hl
  have hplace : ∀ u, s'.committers u = if u = t then pc else s.committers u := by
    intro u
    rw [hcom, Function.update_apply]
  refine ⟨?_, ?_, ?_, ?_, ?_, hasleep⟩
  · intro hw
    rw [hwriter, hwout] at hw
    cases hw
  · intro u hu
    rw [hplace] at hu
    by_cases hut : u = t
    · subst hut
      exact hlock (by simpa using hu)
    · rw [if_neg hut, hout u hut] at hu
      cases hu
  · intro hw
    rw [hwriter] at hw
    rcases hw with hw | hw
    · rw [hw] at hwout
      cases hwout
    · rw [hw] at hwout
      cases hwout
  · intro u hu
    rw [hplace] at hu
    by_cases hut : u = t
    · rw [if_pos hut] at hu
      exact hfull hu
    · have hou := hout u hut
      rw [if_neg hut] at hu
      rcases hu with hu | hu
      · rw [hu] at hou
        cases hou
      · rw [hu] at hou
        cases hou
  · rw [hwaiters, hwriter]
    exact h.waiters

theorem locked_commit {t : CommitterId} {k : Nat} (h : Locked s) (hs : s.commit t k = some s') :
    Locked s' := by
  have helse : ∀ pc, s.committers t ≠ .notify → s.can_pop_.asleep ≠ [] →
      s.count_ = 0 ∨ ∃ u, Function.update s.committers t pc u = .notify := by
    intro pc hne hasleep
    rcases h.asleep hasleep with h0 | hn
    · exact Or.inl h0
    · exact Or.inr (notify_elsewhere hne hn)
  have hfree : s.out_lock_ = none →
      s.writer.inside = false ∧ ∀ u, u ≠ t → (s.committers u).inside = false := by
    intro hl
    constructor
    · by_contra hc
      have hw := h.writer (by simpa using hc)
      rw [hl] at hw
      cases hw
    · intro u _
      by_contra hc
      have hl' := h.committer u (by simpa using hc)
      rw [hl] at hl'
      cases hl'
  unfold commit at_ at hs
  cases hc : s.committers t <;> simp only [hc] at hs
  case unlocked =>
    split_ifs at hs with hl
    cases hs
    exact h.committer_moves (hfree hl) rfl rfl (fun _ => rfl) (by simp) rfl (helse _ (by simp [hc]))
  case waiting =>
    split_ifs at hs with hl
    obtain ⟨⟨t', c⟩, hr, hs⟩ := Option.bind_eq_some_iff.mp hs
    dsimp only at hs
    split_ifs at hs
    cases hs
    exact h.committer_moves (hfree hl) rfl rfl (fun _ => rfl) (by simp) rfl (helse _ (by simp [hc]))
  all_goals
    have hl := h.committer t (by simp [hc, CommitPlace.inside])
    have halone := h.alone hl
  case testFull =>
    cases hs
    refine h.committer_moves halone rfl rfl (fun _ => hl) ?_ rfl (helse _ (by simp [hc]))
    split <;> simp [*]
  case testClosed =>
    cases hs
    have hcap := h.full t (Or.inl hc)
    exact h.committer_moves halone rfl rfl (fun _ => hl) (fun _ => hcap) rfl (helse _ (by simp [hc]))
  case wait =>
    cases hs
    exact h.committer_moves halone rfl rfl (by simp [CommitPlace.inside]) (by simp) rfl
      (helse _ (by simp [hc]))
  case tryClosed =>
    cases hs
    refine h.committer_moves halone rfl rfl (fun _ => hl) ?_ rfl (helse _ (by simp [hc]))
    split <;> simp
  case tryFull =>
    cases hs
    refine h.committer_moves halone rfl rfl (fun _ => hl) ?_ rfl (helse _ (by simp [hc]))
    split <;> simp
  case store =>
    cases hs
    refine h.committer_moves halone rfl rfl (fun _ => hl) ?_ rfl ?_
    · split <;> simp
    · -- the first buffer is announced, and a later one changes nothing
      intro hne
      right
      rcases h.asleep hne with h0 | hn
      · exact ⟨t, (Function.update_self ..).trans (if_pos h0)⟩
      · exact notify_elsewhere (by simp [hc]) hn
  case notify =>
    cases hs
    have hlen := asleep_notify_one s.can_pop_ k
    have hone : s.can_pop_.asleep.length ≤ 1 := by
      have hw := h.waiters
      unfold CondVar.waiters at hw
      split at hw <;> omega
    have hnil : (s.can_pop_.notify_one k).asleep = [] := List.length_eq_zero_iff.mp (by omega)
    exact h.committer_moves halone rfl rfl (fun _ => hl) (by simp) (waiters_notify_one _ k)
      (fun hne => absurd hnil hne)
  case leave =>
    cases hs
    exact h.committer_moves halone rfl rfl (by simp [CommitPlace.inside]) (by simp) rfl
      (helse _ (by simp [hc]))

theorem locked_stop (h : Locked s) (hs : s.stop = some s') : Locked s' := by
  have hwait := waiters_notify_all s.can_pop_
  obtain ⟨h1, h2, h3, h4, h5, h6⟩ := h
  unfold stop at hs
  cases hc : s.stopper <;> simp only [hc] at hs
  case unlocked =>
    split_ifs at hs
    cases hs
    exact ⟨h1, h2, h3, h4, h5, h6⟩
  case notifyPop =>
    cases hs
    exact ⟨h1, h2, h3, h4, hwait.trans h5, fun hne => absurd rfl hne⟩
  all_goals
    cases hs
    exact ⟨h1, h2, h3, h4, h5, h6⟩

/-! ## After the close -/

/-- The writer is past its last `wait`, or will be woken. -/
def PopSafe (s : StreamShutdown) : Prop :=
  s.writer ≠ .wait ∧ (s.can_pop_.asleep ≠ [] → ∃ t, s.committers t = .notify)

/-- The same for the committers. -/
def PushSafe (s : StreamShutdown) : Prop :=
  (∀ t, s.committers t ≠ .wait) ∧ s.can_push_.asleep.length ≤ s.pushNotifications

theorem popSafe_write {k : Nat} (hc : s.closed_ = true) (h : PopSafe s) (hs : s.write k = some s') :
    PopSafe s' := by
  obtain ⟨h1, h2⟩ := h
  unfold write at hs
  cases hw : s.writer <;> simp only [hw] at hs
  case wait => exact absurd hw h1
  case unlocked =>
    split_ifs at hs
    cases hs
    exact ⟨by simp, h2⟩
  case waiting =>
    split_ifs at hs
    obtain ⟨⟨u, c⟩, hr, rfl⟩ := Option.map_eq_some_iff.mp hs
    refine ⟨by simp, fun hne => h2 ?_⟩
    rw [← resume_some hr]
    exact hne
  case finished => cases hs
  all_goals
    cases hs
    refine ⟨?_, h2⟩
    grind

theorem pushSafe_write {k : Nat} (h : PushSafe s) (hs : s.write k = some s') : PushSafe s' := by
  obtain ⟨h1, h2⟩ := h
  have hlen := asleep_notify_one s.can_push_ k
  unfold write at hs
  unfold pushNotifications at h2
  cases hw : s.writer <;> simp only [hw] at hs
  case unlocked =>
    split_ifs at hs
    cases hs
    refine ⟨h1, ?_⟩
    grind
  case waiting =>
    split_ifs at hs
    obtain ⟨⟨u, c⟩, hr, rfl⟩ := Option.map_eq_some_iff.mp hs
    refine ⟨h1, ?_⟩
    grind
  case finished => cases hs
  all_goals
    cases hs
    refine ⟨h1, ?_⟩
    grind [pushNotifications]

theorem popSafe_commit {t : CommitterId} {k : Nat} (hl : Locked s) (h : PopSafe s)
    (hs : s.commit t k = some s') : PopSafe s' := by
  obtain ⟨h1, h2⟩ := h
  have hlen := asleep_notify_one s.can_pop_ k
  have hwait := hl.waiters
  unfold commit at_ at hs
  cases hc : s.committers t <;> simp only [hc] at hs
  case unlocked =>
    split_ifs at hs
    cases hs
    exact ⟨h1, fun hne => notify_elsewhere (by rw [hc]; decide) (h2 hne)⟩
  case waiting =>
    split_ifs at hs
    obtain ⟨⟨t', c⟩, hr, hs⟩ := Option.bind_eq_some_iff.mp hs
    dsimp only at hs
    split_ifs at hs
    cases hs
    exact ⟨h1, fun hne => notify_elsewhere (by rw [hc]; decide) (h2 hne)⟩
  case notify =>
    cases hs
    refine ⟨h1, fun hne => absurd (List.length_eq_zero_iff.mp ?_) hne⟩
    grind [CondVar.waiters]
  all_goals
    cases hs
    exact ⟨h1, fun hne => notify_elsewhere (by rw [hc]; decide) (h2 hne)⟩

theorem pushSafe_commit {t : CommitterId} {k : Nat} (hclosed : s.closed_ = true) (h : PushSafe s)
    (hs : s.commit t k = some s') : PushSafe s' := by
  obtain ⟨h1, h2⟩ := h
  have hupdate : ∀ pc, pc ≠ .wait → ∀ u, Function.update s.committers t pc u ≠ .wait := by
    intro pc hpc u
    rw [Function.update_apply]
    split_ifs
    · exact hpc
    · exact h1 u
  unfold commit at_ at hs
  cases hc : s.committers t <;> simp only [hc] at hs
  case wait => exact absurd hc (h1 t)
  case unlocked =>
    split_ifs at hs
    cases hs
    exact ⟨hupdate _ (by decide), h2⟩
  case waiting =>
    split_ifs at hs
    obtain ⟨⟨t', c⟩, hr, hs⟩ := Option.bind_eq_some_iff.mp hs
    dsimp only at hs
    split_ifs at hs
    cases hs
    refine ⟨hupdate _ (by decide), ?_⟩
    dsimp only
    rw [resume_some hr]
    exact h2
  all_goals
    cases hs
    refine ⟨hupdate _ ?_, h2⟩
    grind

/-- The invariant: from the close on, both sides are safe or `forceStop` has still to come to them. -/
structure Sound (s : StreamShutdown) : Prop where
  locked : Locked s
  pop : s.closed_ = true → PopSafe s ∨ s.stopped = false ∧ s.stopper.beforePop = true
  push : s.closed_ = true → PushSafe s ∨ s.stopped = false ∧ s.stopper.beforePush = true
  closed : s.stopped = true ∨ s.stopper.beforePop = true ∨ s.stopper = .leave → s.closed_ = true

/-- The steps of `forceStop`. A thread before its `wait` still sees the number it tested, so that the test
of `forceStop` comes out the same and its notification follows, which the condition keeps from being
early. -/
theorem sound_stop (h : Sound s) (hC : s.StopReaches .stop) (hs : s.stop = some s') : Sound s' := by
  have hlocked := locked_stop h.locked hs
  obtain ⟨hl, hpop, hpush, hclosed⟩ := h
  have hempty := hl.empty
  have hfull := hl.full
  have hasleep := hl.asleep
  simp only [StopReaches] at hC
  unfold stop at hs
  cases hc : s.stopper <;> simp only [hc] at hs hC
  case unlocked =>
    split_ifs at hs
    cases hs
    refine ⟨hlocked, ?_, ?_, ?_⟩
    all_goals grind [StopPlace.beforePop, StopPlace.beforePush, PopSafe, PushSafe, pushNotifications]
  all_goals
    cases hs
    refine ⟨hlocked, ?_, ?_, ?_⟩
    all_goals grind [StopPlace.beforePop, StopPlace.beforePush, PopSafe, PushSafe, pushNotifications,
      asleep_notify_all]

theorem locked_wakePop (h : Locked s) (k : Nat) :
    Locked { s with can_pop_ := s.can_pop_.notify_one k } := by
  refine ⟨h.writer, h.committer, h.empty, h.full, (waiters_notify_one _ _).trans h.waiters,
    fun hne => h.asleep (asleep_of_notify_one hne)⟩

/-- Only `forceStop` closes the queue. -/
theorem write_frame {k : Nat} (hs : s.write k = some s') :
    s'.closed_ = s.closed_ ∧ s'.stopped = s.stopped ∧ s'.stopper = s.stopper := by
  unfold write at hs
  cases hw : s.writer <;> simp only [hw] at hs
  case unlocked =>
    split_ifs at hs
    cases hs
    exact ⟨rfl, rfl, rfl⟩
  case waiting =>
    split_ifs at hs
    obtain ⟨r, -, rfl⟩ := Option.map_eq_some_iff.mp hs
    exact ⟨rfl, rfl, rfl⟩
  all_goals
    cases hs
  all_goals exact ⟨rfl, rfl, rfl⟩

theorem commit_frame {t : CommitterId} {k : Nat} (hs : s.commit t k = some s') :
    s'.closed_ = s.closed_ ∧ s'.stopped = s.stopped ∧ s'.stopper = s.stopper := by
  unfold commit at_ at hs
  cases hc : s.committers t <;> simp only [hc] at hs
  case unlocked =>
    split_ifs at hs
    cases hs
    exact ⟨rfl, rfl, rfl⟩
  case waiting =>
    split_ifs at hs
    obtain ⟨⟨t', c⟩, -, hs⟩ := Option.bind_eq_some_iff.mp hs
    dsimp only at hs
    split_ifs at hs
    cases hs
    exact ⟨rfl, rfl, rfl⟩
  all_goals
    cases hs
    exact ⟨rfl, rfl, rfl⟩

/-- What one step preserves. -/
theorem sound_step {op : ShutdownOp} (h : Sound s) (hC : s.StopReaches op) (hs : s.step op = some s') :
    Sound s' := by
  cases op with
  | write k =>
    obtain ⟨h1, h2, h3⟩ := write_frame hs
    refine ⟨locked_write h.locked hs, ?_, ?_, ?_⟩ <;> rw [h1, h2, h3]
    · exact fun hc => (h.pop hc).imp_left fun hp => popSafe_write hc hp hs
    · exact fun hc => (h.push hc).imp_left fun hp => pushSafe_write hp hs
    · exact h.closed
  | commit t k =>
    obtain ⟨h1, h2, h3⟩ := commit_frame hs
    refine ⟨locked_commit h.locked hs, ?_, ?_, ?_⟩ <;> rw [h1, h2, h3]
    · exact fun hc => (h.pop hc).imp_left fun hp => popSafe_commit h.locked hp hs
    · exact fun hc => (h.push hc).imp_left fun hp => pushSafe_commit hc hp hs
    · exact h.closed
  | stop => exact sound_stop h hC hs
  | useLock =>
    simp only [step] at hs
    split_ifs at hs
    cases hs
    exact ⟨⟨h.locked.writer, h.locked.committer, h.locked.empty, h.locked.full, h.locked.waiters,
      h.locked.asleep⟩, h.pop, h.push, h.closed⟩
  | dropLock =>
    simp only [step] at hs
    split_ifs at hs
    cases hs
    exact ⟨⟨h.locked.writer, h.locked.committer, h.locked.empty, h.locked.full, h.locked.waiters,
      h.locked.asleep⟩, h.pop, h.push, h.closed⟩
  | wakePush k =>
    cases hs
    refine ⟨⟨h.locked.writer, h.locked.committer, h.locked.empty, h.locked.full, h.locked.waiters,
      h.locked.asleep⟩, h.pop, fun hc => (h.push hc).imp_left fun hp => ⟨hp.1, ?_⟩, h.closed⟩
    refine Nat.le_trans ?_ hp.2
    dsimp only
    rw [asleep_notify_one]
    exact Nat.sub_le _ _
  | wakePop k =>
    cases hs
    refine ⟨locked_wakePop h.locked k, fun hc => (h.pop hc).imp_left fun hp => ⟨hp.1, fun hne => ?_⟩,
      h.push, h.closed⟩
    exact hp.2 (asleep_of_notify_one hne)

theorem sound_init (capacity : Nat) : Sound (shutdownMachine capacity).init := by
  refine ⟨⟨?_, ?_, ?_, ?_, rfl, ?_⟩, ?_, ?_, ?_⟩
  · intro hc
    cases hc
  · intro t hc
    cases hc
  · rintro (hc | hc) <;> cases hc
  · rintro t (hc | hc) <;> cases hc
  · intro hne
    exact absurd rfl hne
  · intro hc
    cases hc
  · intro hc
    cases hc
  · rintro (hc | hc | hc) <;> cases hc

theorem Sound.noLostWakeUp (h : Sound s) : s.NoLostWakeUp := by
  intro hstop
  have hc := h.closed (Or.inl hstop)
  have hpop : PopSafe s := (h.pop hc).resolve_right fun hb => by simp [hstop] at hb
  have hpush : PushSafe s := (h.push hc).resolve_right fun hb => by simp [hstop] at hb
  exact ⟨hpop.2, hpush.2⟩

end StreamShutdown

open StreamShutdown

/-- **Shutdown.** In every run in which no notification of `forceStop` falls between a waiter's test and
its sleep, and in which it leaves out the committers only when none of them needs it, nobody is asleep
without a notification once `forceStop` has completed. -/
theorem no_lost_wakeUp (capacity : Nat) (ops : List ShutdownOp)
    (hC : (shutdownMachine capacity).AllSteps StopReaches (shutdownMachine capacity).init ops) :
    (shutdownMachine capacity).AllStates NoLostWakeUp (shutdownMachine capacity).init ops :=
  Machine.allStates_of_allSteps (fun _ _ _ h hc hs => sound_step h hc hs) (fun _ h => h.noLostWakeUp)
    (sound_init capacity) hC

/-- The writer falls asleep, `forceStop` closes the queue and wakes it, and it leaves its loop. -/
def stopsAsleep : List ShutdownOp :=
  [.write 0, .write 0, .write 0, .write 0, .stop, .stop, .stop, .stop, .stop, .stop, .write 0, .write 0,
    .write 0, .write 0]

theorem no_lost_wakeUp_stopsAsleep :
    ((shutdownMachine 16).exec (shutdownMachine 16).init stopsAsleep).isSome = true ∧
    (shutdownMachine 16).AllStates NoLostWakeUp (shutdownMachine 16).init stopsAsleep := by
  refine ⟨rfl, no_lost_wakeUp 16 stopsAsleep ?_⟩
  iterate 6 refine (Machine.allSteps_cons rfl).mpr ⟨trivial, ?_⟩
  refine (Machine.allSteps_cons rfl).mpr ⟨Or.inr (Nat.zero_le _), ?_⟩
  refine (Machine.allSteps_cons rfl).mpr ⟨trivial, ?_⟩
  refine (Machine.allSteps_cons rfl).mpr ⟨WriterPlace.noConfusion, ?_⟩
  iterate 5 refine (Machine.allSteps_cons rfl).mpr ⟨trivial, ?_⟩
  exact trivial

/-- The writer finds the queue empty and open; `forceStop` runs; then the writer falls asleep. -/
def stopsTooEarly : List ShutdownOp :=
  [.write 0, .write 0, .write 0, .stop, .stop, .stop, .stop, .stop, .stop, .write 0]

/-- The notification of `forceStop` finds nobody asleep, and the writer sleeps for good. -/
theorem writer_sleeps_on : ¬ ∀ s, (shutdownMachine 16).Reachable s → s.NoLostWakeUp := by
  intro hall
  obtain ⟨s, hs, hstop, hne, hidle⟩ : ∃ s, (shutdownMachine 16).exec (shutdownMachine 16).init
      stopsTooEarly = some s ∧ s.stopped = true ∧ s.can_pop_.asleep ≠ [] ∧
      ∀ t, s.committers t = .unlocked := ⟨_, rfl, rfl, List.cons_ne_nil _ _, fun _ => rfl⟩
  obtain ⟨t, ht⟩ := (hall s ⟨stopsTooEarly, hs⟩ hstop).1 hne
  rw [hidle t] at ht
  cases ht

end AnboxReboxed.Graphics
