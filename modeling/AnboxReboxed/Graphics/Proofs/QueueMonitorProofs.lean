import AnboxReboxed.Graphics.QueueMonitor
import AnboxReboxed.Graphics.Proofs.BufferQueueProofs

/-!
# Proofs: wake-ups of the buffer queue

The queue announces only the first buffer and the first free slot. While somebody is asleep there is
nothing to take, or one unit and somebody on the way to take it; a second unit that comes in the
meantime is announced to nobody, which the condition on the steps excludes.
-/

namespace AnboxReboxed.Graphics

open AnboxReboxed.Lib CondVar BufferQueue

namespace QueueMonitor

variable {s s' : QueueMonitor}

/-- A consumer has the mutex and is about to look at the queue. -/
def Popping (s : QueueMonitor) : Prop := ∃ b, s.mutex = some (.calling (.pop_locked b))

def Pushing (s : QueueMonitor) : Prop := ∃ b, s.mutex = some (.calling (.push_locked b))

/-- The invariant: waiters are attended on both sides, and a closed queue has none asleep. -/
structure WellAttended (s : QueueMonitor) : Prop where
  push : s.can_push_.Attended (s.queue.capacity_ - s.queue.count_) s.Pushing
  pop : s.can_pop_.Attended s.queue.count_ s.Popping
  closed : s.queue.closed_ = true → s.can_push_.asleep = [] ∧ s.can_pop_.asleep = []

theorem not_popping (h : s.mutex.isNone = true) : ¬ s.Popping := by
  rintro ⟨b, hb⟩
  rw [hb] at h
  cases h

theorem not_pushing (h : s.mutex.isNone = true) : ¬ s.Pushing := by
  rintro ⟨b, hb⟩
  rw [hb] at h
  cases h

theorem wellAttended_push {b : Buffer} {k : Nat} (h : WellAttended s)
    (hm : s.mutex = some (.calling (.push_locked b)))
    (hC : s.queue.can_push_locked = true → s.queue.count_ ≠ 0 → s.can_pop_.asleep = []) :
    WellAttended (s.runPush b k) := by
  have hnp : ¬ s.Popping := by
    rintro ⟨b', hb⟩
    rw [hm] at hb
    cases hb
  unfold runPush
  split
  · -- the queue is full: the producer falls asleep
    rename_i hp
    obtain ⟨hfull, hopen⟩ := push_none hp
    refine ⟨?_, h.pop.mono fun hact => absurd hact hnp, fun hc => ?_⟩
    · dsimp only
      rw [hfull, Nat.sub_self]
      exact Attended.wait b
    · rw [show s.queue.closed_ = true from hc] at hopen
      cases hopen
  · rename_i res q b' hp
    rcases push_counts hp with ⟨hc, rfl, rfl⟩ | ⟨hcan, hcount, hcap, hopen, rfl⟩
    · obtain ⟨h1, h2⟩ := h.closed hc
      exact ⟨.of_nobody h1, .of_nobody h2, fun _ => ⟨h1, h2⟩⟩
    · have hlt : s.queue.capacity_ - s.queue.count_ = s.queue.capacity_ - (s.queue.count_ + 1) + 1 := by
        simp [can_push_locked] at hcan
        omega
      refine ⟨?_, ?_, fun hc => ?_⟩
      · dsimp only
        rw [hcap, hcount]
        exact Attended.taken (hlt ▸ h.push)
      · dsimp only
        rw [hcount]
        by_cases h0 : s.queue.count_ = 0
        · rw [if_pos ⟨rfl, h0⟩, h0]
          exact Attended.announced k
        · rw [if_neg fun hc => h0 hc.2]
          exact .of_nobody (hC hcan h0)
      · rw [show q.closed_ = true from hc] at hopen
        cases hopen

theorem wellAttended_pop {b : Buffer} {k : Nat} (h : WellAttended s)
    (hm : s.mutex = some (.calling (.pop_locked b)))
    (hC : s.queue.can_pop_locked = true → s.queue.count_ ≠ s.queue.capacity_ → s.can_push_.asleep = []) :
    WellAttended (s.runPop b k) := by
  have hnp : ¬ s.Pushing := by
    rintro ⟨b', hb⟩
    rw [hm] at hb
    cases hb
  unfold runPop
  split
  · -- the queue is empty: the consumer falls asleep
    rename_i hp
    obtain ⟨hnil, hopen⟩ := pop_none hp
    refine ⟨h.push.mono fun hact => absurd hact hnp, ?_, fun hc => ?_⟩
    · dsimp only
      rw [contents_eq_nil.mp hnil]
      exact Attended.wait b
    · rw [show s.queue.closed_ = true from hc] at hopen
      cases hopen
  · rename_i res q b' hp
    rcases pop_counts hp with ⟨hc, rfl, rfl⟩ | ⟨hcan, hcount, hcap, hclosed, rfl⟩
    · obtain ⟨h1, h2⟩ := h.closed hc
      exact ⟨.of_nobody h1, .of_nobody h2, fun _ => ⟨h1, h2⟩⟩
    · have hpop := h.pop
      rw [hcount] at hpop
      have hle := s.queue.count_le
      refine ⟨?_, hpop.taken, fun hc => ?_⟩
      · dsimp only
        rw [hcap]
        by_cases hfull : s.queue.count_ = s.queue.capacity_
        · rw [if_pos ⟨rfl, hfull⟩, show s.queue.capacity_ - q.count_ = 1 by omega]
          exact Attended.announced k
        · rw [if_neg fun hc => hfull hc.2]
          exact .of_nobody (hC hcan hfull)
      · obtain ⟨h1, h2⟩ := h.closed (hclosed.symm.trans hc)
        refine ⟨?_, h2⟩
        dsimp only
        rw [notify_one_nobody h1, ite_self]
        exact h1

theorem wellAttended_close
    (hC : (s.queue.count_ ≠ s.queue.capacity_ → s.can_push_.asleep = []) ∧
      (s.queue.count_ ≠ 0 → s.can_pop_.asleep = [])) : WellAttended s.runClose := by
  have hpush : s.runClose.can_push_.asleep = [] := by
    simp only [runClose]
    split_ifs with hfull
    · rfl
    · exact hC.1 hfull
  have hpop : s.runClose.can_pop_.asleep = [] := by
    simp only [runClose]
    split_ifs with h0
    · rfl
    · exact hC.2 h0
  exact ⟨.of_nobody hpush, .of_nobody hpop, fun _ => ⟨hpush, hpop⟩⟩

/-- What one step preserves. -/
theorem wellAttended_step {op : MonitorOp} (h : WellAttended s) (hC : s.LeavesNobody op)
    (hs : s.step op = some s') : WellAttended s' := by
  cases op with
  | lock call =>
    simp only [step] at hs
    split_ifs at hs with hm
    cases hs
    exact ⟨h.push.mono fun hact => absurd hact (not_pushing hm),
      h.pop.mono fun hact => absurd hact (not_popping hm), h.closed⟩
  | run k =>
    simp only [step] at hs
    simp only [LeavesNobody] at hC
    split at hs
    · rename_i b hm
      cases hs
      rw [hm] at hC
      exact wellAttended_push h hm hC
    · rename_i b hm
      cases hs
      rw [hm] at hC
      exact wellAttended_pop h hm hC
    · rename_i hm
      cases hs
      rw [hm] at hC
      exact wellAttended_close hC
    · cases hs
  | unlock =>
    simp only [step] at hs
    split at hs
    · rename_i res hm
      cases hs
      refine ⟨h.push.mono ?_, h.pop.mono ?_, h.closed⟩
      · rintro ⟨b, hb⟩
        rw [hm] at hb
        cases hb
      · rintro ⟨b, hb⟩
        rw [hm] at hb
        cases hb
    · cases hs
  | resumePush k =>
    simp only [step] at hs
    split_ifs at hs with hm
    obtain ⟨⟨b, c⟩, hr, rfl⟩ := Option.map_eq_some_iff.mp hs
    refine ⟨h.push.resumed hr ⟨b, rfl⟩, h.pop.mono fun hact => absurd hact (not_popping hm), fun hc => ?_⟩
    dsimp only
    rw [resume_some hr]
    exact h.closed hc
  | resumePop k =>
    simp only [step] at hs
    split_ifs at hs with hm
    obtain ⟨⟨b, c⟩, hr, rfl⟩ := Option.map_eq_some_iff.mp hs
    refine ⟨h.push.mono fun hact => absurd hact (not_pushing hm), h.pop.resumed hr ⟨b, rfl⟩, fun hc => ?_⟩
    dsimp only
    rw [resume_some hr]
    exact h.closed hc
  | wakePush k =>
    cases hs
    refine ⟨h.push.notified k, h.pop, fun hc => ?_⟩
    dsimp only
    rw [notify_one_nobody (h.closed hc).1]
    exact h.closed hc
  | wakePop k =>
    cases hs
    refine ⟨h.push, h.pop.notified k, fun hc => ?_⟩
    dsimp only
    rw [notify_one_nobody (h.closed hc).2]
    exact h.closed hc

theorem WellAttended.sufficient (h : WellAttended s) : s.WakeUpsSufficient := by
  rintro ⟨hm, hpush, hpop⟩
  have hnone : s.mutex.isNone = true := by rw [hm]; rfl
  have hopen : s.can_push_.asleep ≠ [] ∨ s.can_pop_.asleep ≠ [] → s.queue.closed_ = false := by
    intro hne
    by_contra hc
    obtain ⟨h1, h2⟩ := h.closed (Bool.eq_true_of_not_eq_false hc)
    exact hne.elim (fun hne => hne h1) (fun hne => hne h2)
  constructor
  · intro hne
    refine ⟨?_, hopen (Or.inl hne)⟩
    have hle := s.queue.count_le
    rcases h.push hne with h0 | ⟨-, hw | hact⟩
    · omega
    · exact absurd hpush hw
    · exact absurd hact (not_pushing hnone)
  · intro hne
    refine ⟨?_, hopen (Or.inr hne)⟩
    rcases h.pop hne with h0 | ⟨-, hw | hact⟩
    · exact h0
    · exact absurd hpop hw
    · exact absurd hact (not_popping hnone)

end QueueMonitor

open QueueMonitor

/-- **Wake-ups.** In every run in which no call leaves a sleeping thread without the notification it
needs, whoever sleeps in a quiet state has to. -/
theorem wakeUps_sufficient (capacity : Nat) (h : 0 < capacity) (ops : List MonitorOp)
    (hC : (monitorMachine capacity h).AllSteps LeavesNobody (monitorMachine capacity h).init ops) :
    (monitorMachine capacity h).AllStates WakeUpsSufficient (monitorMachine capacity h).init ops := by
  refine Machine.allStates_of_allSteps (fun _ _ _ hw hc hs => wellAttended_step hw hc hs)
    (fun _ hw => hw.sufficient) ⟨?_, ?_, ?_⟩ hC
  · exact CondVar.Attended.of_nobody rfl
  · exact CondVar.Attended.of_nobody rfl
  · exact fun _ => ⟨rfl, rfl⟩

/-- A consumer waits, a producer wakes it, and the queue is closed. -/
def oneConsumer : List MonitorOp :=
  [.lock (.pop_locked .empty), .run 0, .lock (.push_locked (.ofRange [1])), .run 0, .unlock,
    .resumePop 0, .run 0, .unlock, .lock .close_locked, .run 0, .unlock]

theorem wakeUps_sufficient_oneConsumer :
    ((monitorMachine 1 Nat.one_pos).exec (monitorMachine 1 Nat.one_pos).init oneConsumer).isSome = true ∧
    (monitorMachine 1 Nat.one_pos).AllStates WakeUpsSufficient (monitorMachine 1 Nat.one_pos).init
      oneConsumer := by
  refine ⟨rfl, wakeUps_sufficient 1 Nat.one_pos oneConsumer ?_⟩
  refine (Machine.allSteps_cons rfl).mpr ⟨trivial, ?_⟩
  refine (Machine.allSteps_cons rfl).mpr ⟨fun _ _ => rfl, ?_⟩
  refine (Machine.allSteps_cons rfl).mpr ⟨trivial, ?_⟩
  refine (Machine.allSteps_cons rfl).mpr ⟨fun _ hne => absurd rfl hne, ?_⟩
  refine (Machine.allSteps_cons rfl).mpr ⟨trivial, ?_⟩
  refine (Machine.allSteps_cons rfl).mpr ⟨trivial, ?_⟩
  refine (Machine.allSteps_cons rfl).mpr ⟨fun _ _ => rfl, ?_⟩
  refine (Machine.allSteps_cons rfl).mpr ⟨trivial, ?_⟩
  refine (Machine.allSteps_cons rfl).mpr ⟨trivial, ?_⟩
  refine (Machine.allSteps_cons rfl).mpr ⟨⟨fun _ => rfl, fun _ => rfl⟩, ?_⟩
  exact (Machine.allSteps_cons rfl).mpr ⟨trivial, trivial⟩

/-- Two consumers wait, two buffers come, and the first consumer takes one of them. -/
def twoConsumers : List MonitorOp :=
  [.lock (.pop_locked .empty), .run 0, .lock (.pop_locked .empty), .run 0,
    .lock (.push_locked (.ofRange [1])), .run 0, .unlock, .lock (.push_locked (.ofRange [2])), .run 0,
    .unlock, .resumePop 0, .run 0, .unlock]

/-- The second buffer is announced to nobody: it stays in the queue while a consumer sleeps. -/
theorem consumer_sleeps_on : ¬ ∀ (capacity : Nat) (h : 0 < capacity) (s : QueueMonitor),
    (monitorMachine capacity h).Reachable s → s.WakeUpsSufficient := by
  intro hall
  obtain ⟨s, hs, hquiet, hne, hcount⟩ : ∃ s, (monitorMachine 2 Nat.two_pos).exec
      (monitorMachine 2 Nat.two_pos).init twoConsumers = some s ∧ s.Quiet ∧ s.can_pop_.asleep ≠ [] ∧
      s.queue.count_ = 1 := ⟨_, rfl, ⟨rfl, rfl, rfl⟩, List.cons_ne_nil _ _, rfl⟩
  have h0 := ((hall 2 Nat.two_pos s ⟨twoConsumers, hs⟩ hquiet).2 hne).1
  rw [hcount] at h0
  cases h0

end AnboxReboxed.Graphics
