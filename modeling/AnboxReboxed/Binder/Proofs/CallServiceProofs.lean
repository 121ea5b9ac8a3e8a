import AnboxReboxed.Binder.Proofs.CallRunProofs
import AnboxReboxed.Lib.Machine
import Mathlib.Data.List.Nodup
import Mathlib.Logic.Relation

/-!
# Proofs: every call is served

In every run in which no thread is made to call itself, the driver meets no bug, and behind every call that has no reply
yet there is one that a thread is at work on, or that is in a list. A thread that waits for a reply is taken off its call
only by a reply or by an error that it is told of.
-/

namespace AnboxReboxed.Binder.Calls

open AnboxReboxed.Lib

namespace State

variable {s s' s'' : State} {chains : Set Chain} {x y z : ThreadId} {p : ProcId} {t u : TransactionId}
  {l : List TransactionId} {transaction : Transaction} {thread thread' : Thread} {error : ReturnError}

section Told

/-- The thread has not lost an error that it is to be told of. -/
structure Keeps (thread thread' : Thread) : Prop where
  error : thread.return_error ≠ .BR_OK → thread'.return_error ≠ .BR_OK
  error2 : thread.return_error2 ≠ .BR_OK → thread'.return_error2 ≠ .BR_OK

/-- There is one error more that the thread is to be told of. -/
structure Fails (thread thread' : Thread) : Prop where
  error : thread'.return_error ≠ .BR_OK
  error2 : thread.return_error ≠ .BR_OK → thread'.return_error2 ≠ .BR_OK

/-- No thread is taken off its transaction without an error, and no error is lost. -/
def Told (s s' : State) : Prop :=
  ∀ y thread', s'.threads.find? y = some thread' → ∃ thread, s.threads.find? y = some thread ∧ Keeps thread thread' ∧
    (thread'.transaction_stack = thread.transaction_stack ∨ Fails thread thread')

theorem find_of_thread_ok (h : s.thread x = .ok thread) : s.threads.find? x = some thread := by
  unfold State.thread at h
  split at h
  · next hx =>
    cases h
    exact hx
  · cases h

namespace Told

theorem of_threads (h : s'.threads = s.threads) : s.Told s' := by
  intro y thread' hy
  rw [h] at hy
  exact ⟨thread', hy, ⟨id, id⟩, Or.inl rfl⟩

theorem trans (h : s.Told s') (h' : s'.Told s'') : s.Told s'' := by
  intro y thread'' hy
  obtain ⟨thread', hy', hkeeps', hstack'⟩ := h' y thread'' hy
  obtain ⟨thread, hy, hkeeps, hstack⟩ := h y thread' hy'
  refine ⟨thread, hy, ⟨fun hne => hkeeps'.error (hkeeps.error hne), fun hne => hkeeps'.error2 (hkeeps.error2 hne)⟩, ?_⟩
  rcases hstack with hstack | hfails
  · rcases hstack' with hstack' | hfails'
    · exact Or.inl (hstack'.trans hstack)
    · exact Or.inr ⟨hfails'.error, fun hne => hfails'.error2 (hkeeps.error hne)⟩
  · exact Or.inr ⟨hkeeps'.error hfails.error, fun hne => hkeeps'.error2 (hfails.error2 hne)⟩

/-- One thread is changed. -/
theorem of_other (hx : s.threads.find? x = some thread) (hother : ∀ z, z ≠ x → s'.threads.find? z = s.threads.find? z)
    (hself : ∀ thread', s'.threads.find? x = some thread' → Keeps thread thread' ∧
      (thread'.transaction_stack = thread.transaction_stack ∨ Fails thread thread')) : s.Told s' := by
  intro y thread' hy
  by_cases hyx : y = x
  · subst hyx
    exact ⟨thread, hx, hself thread' hy⟩
  · rw [hother y hyx] at hy
    exact ⟨thread', hy, ⟨id, id⟩, Or.inl rfl⟩

theorem setThread (hx : s.threads.find? x = some thread) (hkeeps : Keeps thread thread')
    (hstack : thread'.transaction_stack = thread.transaction_stack) : s.Told (s.setThread x thread') := by
  refine of_other hx (fun z hz => ?_) fun thread'' hx' => ?_
  · rw [find_setThread, if_neg hz]
  · rw [find_setThread, if_pos rfl] at hx'
    cases hx'
    exact ⟨hkeeps, Or.inl hstack⟩

theorem erase (s : State) (x : ThreadId) : s.Told { s with threads := s.threads.erase x } := by
  intro y thread' hy
  exact ⟨thread', (OrdMap.find?_of_erase hy).2, ⟨id, id⟩, Or.inl rfl⟩

end Told

theorem pop_none (h : s.binder_pop_transaction none t = .ok s') : s'.threads = s.threads := by
  obtain ⟨transaction, -, h⟩ := of_bind_eq_ok h
  obtain ⟨s1, hs1, h⟩ := of_bind_eq_ok h
  cases hs1
  cases h
  rfl

theorem pop_other (h : s.binder_pop_transaction (some y) t = .ok s') (hz : z ≠ y) :
    s'.threads.find? z = s.threads.find? z := by
  obtain ⟨transaction, -, h⟩ := of_bind_eq_ok h
  obtain ⟨s1, hs1, h⟩ := of_bind_eq_ok h
  obtain ⟨thread, -, hs1⟩ := of_bind_eq_ok hs1
  obtain ⟨-, -, hs1⟩ := of_bind_eq_ok hs1
  obtain ⟨-, -, hs1⟩ := of_bind_eq_ok hs1
  cases hs1
  cases h
  rw [kfree_threads, find_setThread, if_neg hz]

theorem pop_self (h : s.binder_pop_transaction (some y) t = .ok s') : ∃ thread stack,
    s.threads.find? y = some thread ∧ s'.threads.find? y = some { thread with transaction_stack := stack } := by
  obtain ⟨transaction, -, h⟩ := of_bind_eq_ok h
  obtain ⟨s1, hs1, h⟩ := of_bind_eq_ok h
  obtain ⟨thread, hthread, hs1⟩ := of_bind_eq_ok hs1
  obtain ⟨-, -, hs1⟩ := of_bind_eq_ok hs1
  obtain ⟨-, -, hs1⟩ := of_bind_eq_ok hs1
  cases hs1
  cases h
  refine ⟨thread, transaction.from_parent, find_of_thread_ok hthread, ?_⟩
  rw [kfree_threads, find_setThread, if_pos rfl]

theorem makeWay_keeps (thread : Thread) : thread.return_error2 ≠ .BR_OK → thread.makeWay.return_error2 ≠ .BR_OK := by
  intro hne
  unfold Thread.makeWay
  rw [if_neg fun h => hne h.2]
  exact hne

theorem makeWay_moves (hok : thread.makeWay.return_error = .BR_OK) (hne : thread.return_error ≠ .BR_OK) :
    thread.makeWay.return_error2 ≠ .BR_OK := by
  unfold Thread.makeWay at hok ⊢
  split at hok
  · next h =>
    rw [if_pos h]
    exact hne
  · exact absurd hok hne

theorem failSender_told (h : s.failSender y t error = .ok s') (herror : error ≠ .BR_OK) : s.Told s' := by
  obtain ⟨thread, hthread, h⟩ := of_bind_eq_ok h
  have hy := find_of_thread_ok hthread
  simp only at h
  split at h
  · next hok =>
    obtain ⟨s2, hpop, h⟩ := of_bind_eq_ok h
    obtain ⟨thread2, hthread2, h⟩ := of_bind_eq_ok h
    cases h
    obtain ⟨thread1, stack, hy1, hy2⟩ := pop_self hpop
    rw [find_setThread, if_pos rfl] at hy1
    cases hy1
    cases (find_of_thread_ok hthread2).symm.trans hy2
    refine Told.of_other hy (fun z hz => ?_) fun thread' hy' => ?_
    · rw [find_setThread, if_neg hz, pop_other hpop hz, find_setThread, if_neg hz]
    · rw [find_setThread, if_pos rfl] at hy'
      cases hy'
      exact ⟨⟨fun _ => herror, makeWay_keeps thread⟩, Or.inr ⟨herror, makeWay_moves hok⟩⟩
  · next hne =>
    cases h
    exact Told.setThread hy ⟨fun _ => hne, makeWay_keeps thread⟩ (makeWay_stack thread)

theorem sendFailedReply_told (herror : error ≠ .BR_OK) (fuel : Nat) :
    ∀ {s : State} {t : TransactionId}, sendFailedReply fuel s t error = .ok s' → s.Told s' := by
  induction fuel with
  | zero => exact fun h => by cases h
  | succ fuel ih =>
    intro s t h
    obtain ⟨transaction, -, h⟩ := of_bind_eq_ok h
    cases hy : transaction.from_thread with
    | some y =>
      rw [hy] at h
      exact failSender_told h herror
    | none =>
      rw [hy] at h
      obtain ⟨s1, hpop, h⟩ := of_bind_eq_ok h
      have htold := Told.of_threads (pop_none hpop)
      cases hparent : transaction.from_parent with
      | none =>
        rw [hparent] at h
        cases h
        exact htold
      | some next =>
        rw [hparent] at h
        exact htold.trans (ih h)

theorem clearStack_threads (fuel : Nat) :
    ∀ {s : State} {top : Option TransactionId}, clearStack x fuel s top = .ok s' → s'.threads = s.threads := by
  induction fuel with
  | zero =>
    intro s top h
    cases top with
    | none =>
      cases h
      rfl
    | some t => cases h
  | succ fuel ih =>
    intro s top h
    cases top with
    | none =>
      cases h
      rfl
    | some t =>
      obtain ⟨transaction, -, h⟩ := of_bind_eq_ok h
      split at h
      · exact (ih h).trans rfl
      · split at h
        · exact (ih h).trans rfl
        · cases h

theorem releaseTransaction_told (h : s.releaseTransaction t = .ok s') : s.Told s' := by
  obtain ⟨transaction, -, h⟩ := of_bind_eq_ok h
  split at h
  · cases h
    exact Told.of_threads rfl
  · exact sendFailedReply_told (by simp) _ h

theorem binder_release_work_told (list : List Work) :
    ∀ {s : State}, s.binder_release_work list = .ok s' → s.Told s' := by
  induction list with
  | nil =>
    intro s h
    cases h
    exact Told.of_threads rfl
  | cons w list ih =>
    intro s h
    cases w with
    | transaction_complete => exact ih h
    | transaction t =>
      obtain ⟨s1, h1, h⟩ := of_bind_eq_ok h
      exact (releaseTransaction_told h1).trans (ih h)

theorem binder_free_thread_told (h : s.binder_free_thread x = .ok s') : s.Told s' := by
  obtain ⟨thread, -, h⟩ := of_bind_eq_ok h
  obtain ⟨send_reply, -, h⟩ := of_bind_eq_ok h
  obtain ⟨s1, hclear, h⟩ := of_bind_eq_ok h
  obtain ⟨s2, hfail, h⟩ := of_bind_eq_ok h
  obtain ⟨thread2, hx2, h⟩ := of_bind_eq_ok h
  obtain ⟨s3, hrelease, h⟩ := of_bind_eq_ok h
  cases h
  have htold2 : s1.Told s2 := by
    cases send_reply with
    | none =>
      cases hfail
      exact Told.of_threads rfl
    | some t => exact sendFailedReply_told (by simp) _ hfail
  have htold3 : s2.Told (s2.setThread x { thread2 with todo := [] }) :=
    Told.setThread (find_of_thread_ok hx2) ⟨id, id⟩ rfl
  exact (Told.of_threads (clearStack_threads _ hclear)).trans (htold2.trans (htold3.trans
    ((binder_release_work_told _ hrelease).trans (Told.erase s3 x))))

theorem freeThreads_told (xs : List ThreadId) : ∀ {s : State}, s.freeThreads xs = .ok s' → s.Told s' := by
  induction xs with
  | nil =>
    intro s h
    cases h
    exact Told.of_threads rfl
  | cons x xs ih =>
    intro s h
    obtain ⟨s1, h1, h⟩ := of_bind_eq_ok h
    exact (binder_free_thread_told h1).trans (ih h)

theorem binder_deferred_release_told (h : s.binder_deferred_release p = .ok s') : s.Told s' := by
  obtain ⟨s1, h1, h⟩ := of_bind_eq_ok h
  obtain ⟨proc, -, h⟩ := of_bind_eq_ok h
  obtain ⟨s3, h3, h⟩ := of_bind_eq_ok h
  cases h
  have hset : s1.Told ((s1.releaseNodes p).setProc p {}) := Told.of_threads rfl
  have htold3 : s3.Told { s3 with procs := s3.procs.erase p } := Told.of_threads rfl
  exact (freeThreads_told _ h1).trans (hset.trans ((binder_release_work_told _ h3).trans htold3))

theorem fail_told {in_reply_to : Option TransactionId} (h : s.fail x in_reply_to error = .ok s')
    (herror : error ≠ .BR_OK) : s.Told s' := by
  obtain ⟨thread, hthread, h⟩ := of_bind_eq_ok h
  obtain ⟨-, -, h⟩ := of_bind_eq_ok h
  have hx := find_of_thread_ok hthread
  cases in_reply_to with
  | none =>
    cases h
    exact Told.setThread hx ⟨fun _ => herror, id⟩ rfl
  | some t =>
    have hset : s.Told (s.setThread x { thread with return_error := .BR_TRANSACTION_COMPLETE }) :=
      Told.setThread hx ⟨fun _ => by simp, id⟩ rfl
    exact hset.trans (sendFailedReply_told herror _ h)

theorem list_add_tail_told {w : Work} {target : Option ThreadId} (h : s.list_add_tail w target p = .ok s') :
    s.Told s' := by
  cases target with
  | none =>
    obtain ⟨proc, -, h⟩ := of_bind_eq_ok h
    cases h
    exact Told.of_threads rfl
  | some x =>
    obtain ⟨thread, hx, h⟩ := of_bind_eq_ok h
    cases h
    exact Told.setThread (find_of_thread_ok hx) ⟨id, id⟩ rfl

theorem send_told (h : s.send x t transaction p = .ok s') : s.Told s' := by
  obtain ⟨s1, h1, h⟩ := of_bind_eq_ok h
  have htold : (s.setTransaction t transaction).Told s1 := list_add_tail_told h1
  have hset : s.Told (s.setTransaction t transaction) := Told.of_threads rfl
  exact hset.trans (htold.trans (list_add_tail_told h))

end Told

section Waits

/-- The thread waits for the reply to the call. -/
def Waits (s : State) (x : ThreadId) (t : TransactionId) : Prop :=
  (s.threads.find? x).bind Thread.transaction_stack = some t ∧ s.caller t = some x

/-- The thread has received the call, and is to reply to it. -/
def WorksOn (s : State) (x : ThreadId) (t : TransactionId) : Prop :=
  (s.threads.find? x).bind Thread.transaction_stack = some t ∧ s.caller t ≠ some x ∧
    (s.transactions.find? t).bind Transaction.to_thread = some x

theorem Waits.find (h : s.Waits x t) : ∃ thread transaction, s.threads.find? x = some thread ∧
    thread.transaction_stack = some t ∧ s.transactions.find? t = some transaction ∧
    transaction.from_thread = some x := by
  obtain ⟨thread, hx, hstack⟩ := Option.bind_eq_some_iff.mp h.1
  obtain ⟨transaction, hfind, hfrom⟩ := Option.bind_eq_some_iff.mp h.2
  exact ⟨thread, transaction, hx, hstack, hfind, hfrom⟩

/-- A thread that waits has not received the call itself. -/
theorem Waits.not_received (h : s.Waits x t) (hcore : s.Core none [] chains)
    (hfind : s.transactions.find? t = some transaction) : transaction.to_thread ≠ some x := by
  intro hto
  obtain ⟨thread, transaction', hx, hstack, hfind', hfrom⟩ := h.find
  cases hfind.symm.trans hfind'
  obtain ⟨l, -, hhead⟩ := hcore.working hx hstack hfind hto
  exact (hhead.receiver x rfl).2.2.1 hfrom

/-- A thread that waits can make no call. -/
theorem Waits.targetThread (h : s.Waits x t) (hcore : s.Core none [] chains) : s.targetThread x p = .ok none := by
  obtain ⟨thread, transaction, hx, hstack, hfind, -⟩ := h.find
  unfold State.targetThread
  rw [bind_eq_of_ok (thread_ok hx), hstack]
  simp only
  rw [bind_eq_of_ok (transaction_ok hfind)]
  exact if_pos (h.not_received hcore hfind)

/-- What has become of a thread that has waited: it waits still, or it has received another call meanwhile, or there is a
new reply for it, or one error more. -/
inductive Outcome (s s' : State) (x : ThreadId) (t : TransactionId) (thread' : Thread) : Prop
  | waiting (stack : thread'.transaction_stack = some t)
  | called_back (u : TransactionId) (transaction : Transaction) (stack : thread'.transaction_stack = some u)
      (find : s'.transactions.find? u = some transaction) (receiver : transaction.to_thread = some x)
      (below : transaction.to_parent = some t)
  | answered (u : TransactionId) (transaction : Transaction) (new : u ∉ s.transactions)
      (todo : .transaction u ∈ thread'.todo) (find : s'.transactions.find? u = some transaction)
      (reply : transaction.target_node = none) (freed : t ∉ s'.transactions)
  | failed (thread : Thread) (find : s.threads.find? x = some thread) (fails : Fails thread thread')

theorem Told.outcome (h : s.Told s') (hw : s.Waits x t) (hx' : s'.threads.find? x = some thread') :
    Outcome s s' x t thread' := by
  obtain ⟨thread, -, hx, hstack, -⟩ := hw.find
  obtain ⟨thread1, hx1, -, hstack'⟩ := h x thread' hx'
  cases hx.symm.trans hx1
  rcases hstack' with hstack' | hfails
  · exact .waiting (hstack'.trans hstack)
  · exact .failed _ hx hfails

/-- The same of the threads that have not done the step themselves. -/
theorem Told.outcome_of_other (h : (s.setThread y thread).Told s') (hyx : x ≠ y) (hw : s.Waits x t)
    (hx' : s'.threads.find? x = some thread') : Outcome s s' x t thread' := by
  obtain ⟨thread0, -, hx, hstack, -⟩ := hw.find
  obtain ⟨thread1, hx1, -, hstack'⟩ := h x thread' hx'
  rw [find_setThread, if_neg hyx] at hx1
  cases hx.symm.trans hx1
  rcases hstack' with hstack' | hfails
  · exact .waiting (hstack'.trans hstack)
  · exact .failed _ hx hfails

theorem transact_outcome {target : Option NodeId} {fails : Bool} (h : s.transact y u target fails = .ok s')
    (hcore : s.Core none [] chains) (hw : s.Waits x t) (hx' : s'.threads.find? x = some thread') :
    Outcome s s' x t thread' := by
  unfold transact at h
  cases target with
  | none => exact (fail_told h (by simp)).outcome hw hx'
  | some target_node =>
    simp only at h
    cases hnode : s.nodes target_node with
    | none =>
      rw [hnode] at h
      exact (fail_told h (by simp)).outcome hw hx'
    | some target_proc =>
      rw [hnode] at h
      obtain ⟨found, hfound, h⟩ := of_bind_eq_ok h
      cases found with
      | none => exact (fail_told h (by simp)).outcome hw hx'
      | some target_thread =>
        cases fails with
        | true =>
          simp only [if_true] at h
          exact (fail_told h (by simp)).outcome hw hx'
        | false =>
          have hxy : x ≠ y := by
            rintro rfl
            cases hfound.symm.trans (hw.targetThread hcore)
          simp only [Bool.false_eq_true, if_false] at h
          obtain ⟨thread, -, h⟩ := of_bind_eq_ok h
          exact (send_told h).outcome_of_other hxy hw hx'

theorem reply_outcome {fails : Bool} (h : s.reply y u fails = .ok s') (hinv : s.Inv none [] chains)
    (hy : s.threads.find? y = some thread) (hok : thread.return_error = .BR_OK) (hu : s.transactions.find? u = none)
    (hw : s.Waits x t) (hx' : s'.threads.find? x = some thread') : Outcome s s' x t thread' := by
  cases hstack : thread.transaction_stack with
  | none =>
    unfold reply at h
    rw [bind_eq_of_ok (thread_ok hy), hstack] at h
    exact (fail_told h (by simp)).outcome hw hx'
  | some r =>
    obtain ⟨c, hc, htop⟩ := (hinv.chains.stack y thread hy (by simp) r).mp hstack
    obtain ⟨transaction, hfind, -⟩ := hinv.chains.find hc (top_eq_some htop)
    by_cases hto : transaction.to_thread = some y
    · have hxy : x ≠ y := by
        rintro rfl
        obtain ⟨thread0, transaction0, hx0, hstack0, hfind0, -⟩ := hw.find
        cases hy.symm.trans hx0
        cases hstack.symm.trans hstack0
        exact hw.not_received hinv.toCore hfind hto
      cases hz : transaction.from_thread with
      | none =>
        unfold reply at h
        rw [bind_eq_of_ok (thread_ok hy), hstack] at h
        simp only at h
        rw [bind_eq_of_ok (transaction_ok hfind), if_neg (by simp [hto]), hz] at h
        exact (fail_told h (by simp)).outcome_of_other hxy hw hx'
      | some z =>
        obtain ⟨⟨caller, hcaller, hcstack⟩, s1, -, hreply, -, hreplied⟩ :=
          reply_to hinv hy hok hu hstack hfind hto hz fails
        cases hreply.symm.trans h
        cases fails with
        | true =>
          unfold reply at h
          rw [bind_eq_of_ok (thread_ok hy), hstack] at h
          simp only at h
          rw [bind_eq_of_ok (transaction_ok hfind), if_neg (by simp [hto]), hz] at h
          simp only at h
          have hzy : z ≠ y := by
            rintro rfl
            obtain ⟨l, -, hhead⟩ := hinv.toCore.working hy hstack hfind hto
            exact (hhead.receiver z rfl).2.2.1 hz
          have hcaller1 : (s.setThread y { thread with transaction_stack := transaction.to_parent }).threads.find? z =
              some caller := by rw [find_setThread, if_neg hzy, hcaller]
          rw [bind_eq_of_ok (thread_ok hcaller1), if_neg (by simp [hcstack])] at h
          simp only [if_true] at h
          exact (fail_told h (by simp)).outcome_of_other hxy hw hx'
        | false =>
          have hreplied := hreplied rfl
          by_cases hxz : x = z
          · subst hxz
            obtain ⟨answer, hanswer, hnone⟩ := hreplied.answer
            have hmem := hreplied.waiting
            rw [todo_thread hx', mem_waiting] at hmem
            obtain ⟨thread0, -, hx0, hstack0, -⟩ := hw.find
            cases hcaller.symm.trans hx0
            cases hcstack.symm.trans hstack0
            exact .answered u answer (OrdMap.not_mem_iff.mpr hu) hmem hanswer hnone (OrdMap.not_mem_iff.mpr hreplied.freed)
          · obtain ⟨thread0, -, hx0, hstack0, -⟩ := hw.find
            have hother := hreplied.other x hxy hxz
            rw [hx', hx0] at hother
            exact .waiting ((Option.some.inj hother).trans hstack0)
    · unfold reply at h
      rw [bind_eq_of_ok (thread_ok hy), hstack] at h
      simp only at h
      rw [bind_eq_of_ok (transaction_ok hfind), if_pos hto] at h
      exact (fail_told h (by simp)).outcome hw hx'

theorem receive_threads (h : s.receive y u = .ok s') (hxy : x ≠ y) : s'.threads.find? x = s.threads.find? x := by
  obtain ⟨transaction, -, h⟩ := of_bind_eq_ok h
  obtain ⟨-, -, h⟩ := of_bind_eq_ok h
  split at h
  · cases h
    rfl
  · obtain ⟨thread, -, h⟩ := of_bind_eq_ok h
    cases h
    rw [find_setThread, if_neg hxy]
    rfl

theorem nextWork_stacks {w : Work} (h : s.nextWork y = .ok (some (w, s'))) : s'.transactions = s.transactions ∧
    ∀ z, (s'.threads.find? z).map Thread.transaction_stack = (s.threads.find? z).map Thread.transaction_stack := by
  obtain ⟨thread, hy, h⟩ := of_bind_eq_ok h
  have hy := find_of_thread_ok hy
  split at h
  · cases h
    refine ⟨rfl, fun z => ?_⟩
    rw [find_setThread]
    split
    · next hzy => rw [hzy, hy, Option.map_some, Option.map_some]
    · rfl
  · split at h
    · cases h
    · obtain ⟨proc, -, h⟩ := of_bind_eq_ok h
      split at h
      · cases h
        exact ⟨rfl, fun _ => rfl⟩
      · cases h

theorem receive_stack (h : s.receive y u = .ok s') (hw : s.Waits x t) (hx' : s'.threads.find? x = some thread') :
    thread'.transaction_stack = some t ∨ ∃ transaction, thread'.transaction_stack = some u ∧
      s'.transactions.find? u = some transaction ∧ transaction.to_thread = some x ∧ transaction.to_parent = some t := by
  obtain ⟨thread, -, hx, hstack, -⟩ := hw.find
  by_cases hxy : x = y
  · subst hxy
    obtain ⟨transaction, hfind, h⟩ := of_bind_eq_ok h
    obtain ⟨-, -, h⟩ := of_bind_eq_ok h
    split at h
    · cases h
      cases hx.symm.trans hx'
      exact Or.inl hstack
    · rw [bind_eq_of_ok (thread_ok hx)] at h
      cases h
      rw [find_setThread, if_pos rfl] at hx'
      cases hx'
      refine Or.inr ⟨{ transaction with to_parent := thread.transaction_stack, to_thread := some x }, rfl, ?_, rfl, hstack⟩
      rw [setThread_transactions, find_setTransaction, if_pos rfl]
  · rw [receive_threads h hxy] at hx'
    cases hx.symm.trans hx'
    exact Or.inl hstack

theorem binder_thread_read_outcome {room : Bool} (h : s.binder_thread_read y room = .ok s') (hw : s.Waits x t)
    (hx' : s'.threads.find? x = some thread') : Outcome s s' x t thread' := by
  obtain ⟨thread, -, hx, hstack, -⟩ := hw.find
  obtain ⟨reader, hy, h⟩ := of_bind_eq_ok h
  have hy := find_of_thread_ok hy
  have hsame (hfind : s'.threads.find? x = s.threads.find? x) : Outcome s s' x t thread' := by
    cases hx.symm.trans (hfind.symm.trans hx')
    exact .waiting hstack
  split at h
  · split at h
    · cases h
      exact hsame rfl
    · cases h
      by_cases hxy : x = y
      · subst hxy
        cases hx.symm.trans hy
        rw [find_setThread, if_pos rfl] at hx'
        cases hx'
        exact .waiting hstack
      · exact hsame (by rw [find_setThread, if_neg hxy])
  · obtain ⟨work, hnext, h⟩ := of_bind_eq_ok h
    cases work with
    | none =>
      cases h
      exact hsame rfl
    | some work =>
      obtain ⟨w, s1⟩ := work
      obtain ⟨htx, hstacks⟩ := nextWork_stacks hnext
      cases w with
      | transaction_complete =>
        cases h
        have heq := hstacks x
        rw [hx', hx, Option.map_some, Option.map_some] at heq
        exact .waiting ((Option.some.inj heq).trans hstack)
      | transaction u =>
        have hw1 : s1.Waits x t := by
          have heq := hstacks x
          rw [hx, Option.map_some] at heq
          obtain ⟨thread1, hx1, hstack1⟩ := Option.map_eq_some_iff.mp heq
          refine ⟨Option.bind_eq_some_iff.mpr ⟨thread1, hx1, hstack1.trans hstack⟩, ?_⟩
          rw [caller_congr (s := s) (by rw [htx])]
          exact hw.2
        rcases receive_stack h hw1 hx' with hstack' | ⟨transaction, hstack', hfind, hto, hbelow⟩
        · exact .waiting hstack'
        · exact .called_back u transaction hstack' hfind hto hbelow

end Waits

section Runs

/-- What holds between the steps. -/
def Sound (s : State) : Prop := ∃ chains, s.Inv none [] chains

theorem sound_init : ({} : State).Sound := by
  refine ⟨∅, ⟨⟨⟨by simp, by simp, ?_, ?_, ?_, by simp⟩, ⟨?_, ?_, ?_, by simp, by simp, by simp⟩, ⟨?_, ?_⟩⟩, ?_⟩⟩
  · exact fun t transaction h => by cases h
  · exact fun t transaction h => by cases h
  · exact fun x thread h => by cases h
  · exact fun t transaction h => by cases h
  · intro q t h
    cases q <;> cases h
  · intro q
    cases q <;> exact List.nodup_nil
  · exact fun x thread h => by cases h
  · exact fun n p h => by cases h
  · exact fun x thread h => by cases h

theorem of_mayWrite (h : s.mayWrite x = true) :
    ∃ thread, s.threads.find? x = some thread ∧ thread.return_error = .BR_OK := by
  unfold mayWrite at h
  split at h
  · next thread hx => exact ⟨thread, hx, by simpa using h⟩
  · cases h

theorem binder_open_ok (h : s.Inv none [] chains) (hp : p ∉ s.procs) : (s.setProc p {}).Inv none [] chains := by
  refine ⟨⟨h.chains.of_eq rfl rfl, h.lists.congr rfl fun q => ?_, h.owners.setProc p {}⟩, h.errors⟩
  rw [todo_setProc]
  split
  · next hq =>
    rw [hq, State.todo, OrdMap.not_mem_iff.mp hp]
    rfl
  · rfl

/-- A thread that is not there is on no chain. -/
theorem Core.top_of_not_mem (h : s.Core none [] chains) {c : Chain} (hc : c ∈ chains) (hx : x ∉ s.threads) :
    s.top c x = none := by
  obtain ⟨t, transaction, l, hhead⟩ := h.chains.ok c hc
  rw [top_other fun heq => hx (hhead.receiver x heq).1, hhead.calls, lastSent_cons, caller_of_find hhead.sent.find,
    if_neg fun heq => hx (hhead.sent.live x heq)]
  by_contra hne
  exact hx (hhead.below.caller_live hne)

theorem binder_get_thread_ok (h : s.Inv none [] chains) (hp : p ∈ s.procs) (hx : x ∉ s.threads) :
    (s.setThread x { proc := p }).Inv none [] chains := by
  have hnone := OrdMap.not_mem_iff.mp hx
  have hold : ∀ y thread, (s.setThread x { proc := p }).threads.find? y = some thread →
      (y = x ∧ thread = { proc := p }) ∨ s.threads.find? y = some thread := by
    intro y thread hy
    rw [find_setThread] at hy
    split at hy
    · next hyx =>
      cases hy
      exact Or.inl ⟨hyx, rfl⟩
    · exact Or.inr hy
  have hlive : ∀ y, y ∈ s.threads → y ∈ (s.setThread x { proc := p }).threads :=
    fun y hy => OrdMap.mem_insert.mpr (Or.inr hy)
  have htop : ∀ c y, (s.setThread x { proc := p }).top c y = s.top c y := fun c y => top_congr fun _ _ => rfl
  have hchains : (s.setThread x { proc := p }).Chains none chains := by
    refine ⟨fun c hc => (h.chains.ok c hc).congr (fun _ _ => rfl) fun y _ => hlive y, h.chains.apart, h.chains.call,
      h.chains.reply, fun y thread hy _ t => ?_, by simp⟩
    simp only [htop]
    rcases hold y thread hy with ⟨rfl, rfl⟩ | hy
    · refine iff_of_false (by simp) ?_
      rintro ⟨c, hc, ht⟩
      cases (h.toCore.top_of_not_mem hc hx).symm.trans ht
    · exact h.chains.stack y thread hy (by simp) t
  refine ⟨⟨hchains, h.lists.congr rfl fun q => ?_, ⟨fun y thread hy => ?_, h.owners.node⟩⟩, fun y thread hy => ?_⟩
  · rw [todo_setThread]
    split
    · next hq =>
      rw [hq, State.todo, hnone]
      rfl
    · rfl
  · rcases hold y thread hy with ⟨rfl, rfl⟩ | hy
    · exact hp
    · exact h.owners.thread y thread hy
  · rcases hold y thread hy with ⟨rfl, rfl⟩ | hy
    · exact ⟨fun hne => absurd rfl hne, fun _ _ _ => rfl⟩
    · exact h.errors y thread hy

theorem binder_new_node_ok {n : NodeId} (h : s.Inv none [] chains) (hp : p ∈ s.procs) :
    ({ s with nodes := fun m => if m = n then some p else s.nodes m } : State).Inv none [] chains := by
  refine ⟨⟨h.chains.of_eq rfl rfl, h.lists.congr rfl fun q => by cases q <;> rfl, h.owners.thread, fun m q hm => ?_⟩,
    h.errors⟩
  simp only at hm
  split at hm
  · cases hm
    exact hp
  · exact h.owners.node m q hm

/-- No thread is made to call itself. -/
def CallsOther (s : State) : Step → Prop
  | .BC_TRANSACTION x _ target _ => s.callsItself x target = false
  | _ => True

/-- Every step comes to an end, and the chains are kept. -/
theorem step_ok (h : s.Sound) {c : Step} (hother : s.CallsOther c) {r : Except Bug State} (hstep : s.step c = some r) :
    ∃ s', r = .ok s' ∧ s'.Sound := by
  obtain ⟨chains, hinv⟩ := h
  have hdone {f : Except Bug State} (hf : f = r) (hok : ∃ s' chains', f = .ok s' ∧ s'.Inv none [] chains') :
      ∃ s', r = .ok s' ∧ s'.Sound := by
    obtain ⟨s', chains', hok, hinv'⟩ := hok
    exact ⟨s', hf.symm.trans hok, chains', hinv'⟩
  cases c with
  | binder_open p =>
    obtain ⟨hp, heq⟩ := of_guard_eq_some hstep
    exact hdone heq ⟨_, _, rfl, binder_open_ok hinv hp⟩
  | binder_get_thread x p =>
    obtain ⟨⟨hp, hx⟩, heq⟩ := of_guard_eq_some hstep
    exact hdone heq ⟨_, _, rfl, binder_get_thread_ok hinv hp hx⟩
  | binder_new_node n p =>
    obtain ⟨⟨hp, -⟩, heq⟩ := of_guard_eq_some hstep
    exact hdone heq ⟨_, _, rfl, binder_new_node_ok hinv hp⟩
  | BC_TRANSACTION x t target fails =>
    obtain ⟨⟨hmay, ht⟩, heq⟩ := of_guard_eq_some hstep
    obtain ⟨thread, hx, hok⟩ := of_mayWrite hmay
    exact hdone heq (transact_ok hinv hx hok (OrdMap.not_mem_iff.mp ht) hother)
  | BC_REPLY x t fails =>
    obtain ⟨⟨hmay, ht⟩, heq⟩ := of_guard_eq_some hstep
    obtain ⟨thread, hx, hok⟩ := of_mayWrite hmay
    exact hdone heq (reply_ok hinv hx hok (OrdMap.not_mem_iff.mp ht) fails)
  | death_failed x =>
    obtain ⟨hmay, heq⟩ := of_guard_eq_some hstep
    obtain ⟨thread, hx, hok⟩ := of_mayWrite hmay
    obtain ⟨hfail, hinv'⟩ := fail_ok hinv hx hok (show ReturnError.BR_ERROR ≠ .BR_OK by simp)
    exact hdone heq ⟨_, _, hfail, hinv'⟩
  | binder_thread_read x room =>
    obtain ⟨hx, heq⟩ := of_guard_eq_some hstep
    obtain ⟨thread, hx⟩ := OrdMap.mem_iff.mp hx
    exact hdone heq (binder_thread_read_ok hinv hx room)
  | thread_exit x =>
    obtain ⟨hx, heq⟩ := of_guard_eq_some hstep
    obtain ⟨s', chains', hfree, hinv', -⟩ := binder_free_thread_ok hinv hx
    exact hdone heq ⟨s', chains', hfree, hinv'⟩
  | binder_deferred_release p =>
    obtain ⟨hp, heq⟩ := of_guard_eq_some hstep
    exact hdone heq (binder_deferred_release_ok hinv hp)

theorem step_outcome (h : s.Sound) {c : Step} (hstep : s.step c = some (.ok s')) (hw : s.Waits x t)
    (hx' : s'.threads.find? x = some thread') : Outcome s s' x t thread' := by
  obtain ⟨chains, hinv⟩ := h
  cases c with
  | binder_open p =>
    obtain ⟨-, heq⟩ := of_guard_eq_some hstep
    cases heq
    exact (Told.of_threads rfl : s.Told (s.setProc p {})).outcome hw hx'
  | binder_get_thread y p =>
    obtain ⟨⟨-, hy⟩, heq⟩ := of_guard_eq_some hstep
    cases heq
    obtain ⟨thread, -, hx, hstack, -⟩ := hw.find
    have hxy : x ≠ y := by
      rintro rfl
      exact hy (OrdMap.mem_of_find? hx)
    rw [find_setThread, if_neg hxy] at hx'
    cases hx.symm.trans hx'
    exact .waiting hstack
  | binder_new_node n p =>
    obtain ⟨-, heq⟩ := of_guard_eq_some hstep
    cases heq
    exact (Told.of_threads rfl : s.Told { s with nodes := fun m => if m = n then some p else s.nodes m }).outcome hw hx'
  | BC_TRANSACTION y u target fails =>
    obtain ⟨-, heq⟩ := of_guard_eq_some hstep
    exact transact_outcome heq hinv.toCore hw hx'
  | BC_REPLY y u fails =>
    obtain ⟨⟨hmay, hu⟩, heq⟩ := of_guard_eq_some hstep
    obtain ⟨thread, hy, hok⟩ := of_mayWrite hmay
    exact reply_outcome heq hinv hy hok (OrdMap.not_mem_iff.mp hu) hw hx'
  | death_failed y =>
    obtain ⟨-, heq⟩ := of_guard_eq_some hstep
    exact (fail_told heq (by simp)).outcome hw hx'
  | binder_thread_read y room =>
    obtain ⟨-, heq⟩ := of_guard_eq_some hstep
    exact binder_thread_read_outcome heq hw hx'
  | thread_exit y =>
    obtain ⟨-, heq⟩ := of_guard_eq_some hstep
    exact (binder_free_thread_told heq).outcome hw hx'
  | binder_deferred_release p =>
    obtain ⟨-, heq⟩ := of_guard_eq_some hstep
    exact (binder_deferred_release_told heq).outcome hw hx'

end Runs

section Served

/-- Whoever has made the first call was at work on the second one. -/
def Parent (s : State) (u t : TransactionId) : Prop :=
  ∃ transaction, s.transactions.find? u = some transaction ∧ transaction.from_parent = some t

/-- The first call has come of the second one, or is the same. -/
abbrev MadeFor (s : State) : TransactionId → TransactionId → Prop := Relation.ReflTransGen s.Parent

theorem Served.madeFor {r : Option ThreadId} (h : s.Served r l) : ∀ u, l.head? = some u → ∀ t ∈ l, s.MadeFor u t := by
  induction h with
  | nil r => exact fun u _ t ht => absurd ht (by simp)
  | @cons r v transaction l sent _ _ _ ih =>
    intro u hu t ht
    cases hu
    rcases List.mem_cons.mp ht with rfl | ht
    · exact .refl
    · cases hl : l.head? with
      | none =>
        rw [List.head?_eq_none_iff.mp hl] at ht
        simp at ht
      | some w => exact .head ⟨transaction, sent.find, sent.parent.trans hl⟩ (ih w hl t ht)

theorem ChainHead.madeFor {c : Chain} (h : s.ChainHead c u transaction l) : ∀ t ∈ c.calls, s.MadeFor u t := by
  intro t ht
  rw [h.calls] at ht
  rcases List.mem_cons.mp ht with rfl | ht
  · exact .refl
  · cases hl : l.head? with
    | none =>
      rw [List.head?_eq_none_iff.mp hl] at ht
      simp at ht
    | some w => exact .head ⟨transaction, h.sent.find, h.sent.parent.trans hl⟩ (h.below.madeFor w hl t ht)

/-- Behind a call there is one that a thread works on, or that is in a list. -/
theorem Core.work (h : s.Core none [] chains) (hfind : s.transactions.find? t = some transaction)
    (hcall : transaction.target_node ≠ none) :
    ∃ u, s.MadeFor u t ∧ ((∃ x, s.WorksOn x u) ∨ ∃ q, u ∈ s.todo q) := by
  obtain ⟨c, hc, ht⟩ := h.chains.call t transaction hfind hcall
  obtain ⟨u, last, l, hhead⟩ := h.chains.ok c hc
  refine ⟨u, hhead.madeFor t ht, ?_⟩
  cases hr : c.receiver with
  | some x =>
    obtain ⟨hx, hto, hreceived⟩ := hhead.receiver x hr
    obtain ⟨thread, hx⟩ := OrdMap.mem_iff.mp hx
    have htop : s.top c x = some u := by rw [top_receiver hr, hhead.calls, List.head?_cons]
    have hstack := (h.chains.stack x thread hx (by simp) u).mpr ⟨c, hc, htop⟩
    refine Or.inl ⟨x, Option.bind_eq_some_iff.mpr ⟨thread, hx, hstack⟩, ?_,
      Option.bind_eq_some_iff.mpr ⟨last, hhead.sent.find, hto⟩⟩
    rw [caller_of_find hhead.sent.find]
    exact hreceived.1
  | none =>
    obtain ⟨receiver, calls⟩ := c
    cases hr
    obtain rfl : calls = u :: l := hhead.calls
    exact Or.inr ((h.lists.waits u last hhead.sent.find (Or.inr ⟨l, hc⟩)).resolve_left (by simp))

/-- A call in the list of a thread has come of a call that the thread waits for the reply to. -/
theorem Core.direct (h : s.Core none [] chains) (ht : t ∈ s.todo (.thread x))
    (hfind : s.transactions.find? t = some transaction) (hcall : transaction.target_node ≠ none) :
    ∃ u, u ≠ t ∧ s.Waits x u ∧ s.MadeFor t u := by
  obtain ⟨-, transaction', hfind', hplace, hlast⟩ := h.lists.mem _ t ht
  cases hfind.symm.trans hfind'
  obtain ⟨l, hl⟩ := hlast hcall
  obtain ⟨thread, hx⟩ : ∃ thread, s.threads.find? x = some thread := by
    cases hx : s.threads.find? x with
    | none => simp [State.todo, hx] at ht
    | some thread => exact ⟨thread, rfl⟩
  obtain ⟨hfrom, hstack⟩ := ready_thread h hx ht l transaction hl hfind
  have hto : transaction.to_thread = some x := by
    unfold Transaction.place at hplace
    split at hplace
    · next z hz =>
      cases hplace
      exact hz
    · cases hp : transaction.to_proc <;> simp [hp] at hplace
  obtain ⟨-, hsent⟩ := h.lists.direct t l transaction x hl hfind (by simp) hto (by simp)
  obtain ⟨u, hu⟩ := Option.ne_none_iff_exists'.mp hsent
  obtain ⟨hul, hcaller⟩ := lastSent_eq_some hu
  obtain ⟨transaction', hhead⟩ := h.head hl
  refine ⟨u, ne_of_mem_of_not_mem hul hhead.sent.new, ⟨?_, hcaller⟩,
    hhead.madeFor u (List.mem_cons_of_mem t hul)⟩
  exact Option.bind_eq_some_iff.mpr ⟨thread, hx, hstack.trans hu⟩

/-- What is in a list is in no other one, and nobody works on it. -/
theorem Core.apart (h : s.Core none [] chains) {q : Place} (ht : t ∈ s.todo q) :
    (∀ q', t ∈ s.todo q' → q' = q) ∧ ∀ x, ¬s.WorksOn x t := by
  obtain ⟨-, transaction, hfind, hplace, hlast⟩ := h.lists.mem q t ht
  constructor
  · intro q' ht'
    obtain ⟨-, transaction', hfind', hplace', -⟩ := h.lists.mem q' t ht'
    cases hfind.symm.trans hfind'
    exact Option.some.inj (hplace'.symm.trans hplace)
  · rintro x ⟨hstack, -, hto⟩
    obtain ⟨thread, hx, hstack⟩ := Option.bind_eq_some_iff.mp hstack
    obtain ⟨transaction', hfind', hto⟩ := Option.bind_eq_some_iff.mp hto
    cases hfind.symm.trans hfind'
    obtain ⟨l, hl, hhead⟩ := h.working hx hstack hfind hto
    obtain ⟨l', hl'⟩ := hlast hhead.sent.call
    cases h.chains.apart _ hl _ hl' t List.mem_cons_self List.mem_cons_self

end Served

end State

/-- In the step no thread is made to call itself. -/
def CallsOther : Except Bug State → Step → Prop
  | .ok s, .BC_TRANSACTION x _ target _ => s.callsItself x target = false
  | _, _ => True

instance (r : Except Bug State) (c : Step) : Decidable (CallsOther r c) := by
  unfold CallsOther
  split <;> infer_instance

def Fine (r : Except Bug State) : Prop := ∃ s : State, r = .ok s ∧ s.Sound

theorem fine_init : Fine machine.init := ⟨{}, rfl, State.sound_init⟩

theorem step_fine (r : Except Bug State) (c : Step) (r' : Except Bug State) (h : Fine r) (hother : CallsOther r c)
    (hstep : machine.step r c = some r') : Fine r' := by
  obtain ⟨s, rfl, hs⟩ := h
  refine State.step_ok hs (c := c) ?_ hstep
  cases c with
  | BC_TRANSACTION x t target fails => exact hother
  | _ => trivial

theorem exec_fine {steps : List Step} (h : machine.AllSteps CallsOther machine.init steps) {s : State}
    (hs : machine.exec machine.init steps = some (.ok s)) : s.Sound := by
  obtain ⟨s', heq, hsound⟩ := Machine.exec_invariant step_fine fine_init h hs
  cases heq
  exact hsound

theorem allStates_of_inv {P : State → Prop} (hP : ∀ s chains, s.Inv none [] chains → P s) {steps : List Step}
    (h : machine.AllSteps CallsOther machine.init steps) :
    machine.AllStates (fun r => ∃ s, r = .ok s ∧ P s) machine.init steps := by
  refine Machine.allStates_of_allSteps step_fine (fun r hr => ?_) fine_init h
  obtain ⟨s, hs, chains, hinv⟩ := hr
  exact ⟨s, hs, hP s chains hinv⟩

/-- The driver meets no bug: no check of its own fails, nothing that is freed is used, and every loop ends. -/
theorem calls_meet_no_bug {steps : List Step} (h : machine.AllSteps CallsOther machine.init steps) :
    machine.AllStates (fun r => ∃ s, r = .ok s) machine.init steps := by
  refine Machine.allStates_of_allSteps step_fine (fun r hr => ?_) fine_init h
  obtain ⟨s, hs, -⟩ := hr
  exact ⟨s, hs⟩

theorem calls_meet_no_bug_called_back : machine.AllStates (fun r => ∃ s, r = .ok s) machine.init
    [.binder_open 1, .binder_get_thread 1 1, .binder_new_node 1 1, .binder_open 2, .binder_get_thread 2 2,
      .binder_new_node 2 2, .BC_TRANSACTION 1 1 (some 2) false, .binder_thread_read 2 true,
      .BC_TRANSACTION 2 2 (some 1) false, .binder_thread_read 1 true, .binder_thread_read 1 true, .thread_exit 2] :=
  calls_meet_no_bug (by decide)

-- a thread that calls itself and replies to that before it has received it
example : machine.exec machine.init
    [.binder_open 1, .binder_get_thread 1 1, .binder_new_node 1 1, .binder_open 2, .binder_get_thread 2 2,
      .binder_new_node 2 2, .BC_TRANSACTION 1 1 (some 2) false, .binder_thread_read 2 true,
      .BC_TRANSACTION 2 2 (some 1) false, .binder_thread_read 1 true, .binder_thread_read 1 true,
      .BC_TRANSACTION 1 3 (some 1) false, .BC_REPLY 1 4 false, .thread_exit 1] = some (.error .bug) := by
  rfl

/-- In every state a thread has in its own list only calls that have come of the one it waits for the reply to; and
whatever is in a list is there once, in no other list, and no thread works on it. -/
theorem calls_are_delivered_once {steps : List Step} (h : machine.AllSteps CallsOther machine.init steps) :
    machine.AllStates (fun r => ∃ s, r = .ok s ∧ ∀ q t, t ∈ s.todo q →
      (s.todo q).count t = 1 ∧ (∀ q', t ∈ s.todo q' → q' = q) ∧ (∀ x, ¬s.WorksOn x t) ∧
      ∃ transaction, s.transactions.find? t = some transaction ∧
        ∀ x, q = .thread x → transaction.target_node ≠ none → ∃ u, u ≠ t ∧ s.Waits x u ∧ s.MadeFor t u)
      machine.init steps := by
  refine allStates_of_inv (fun s chains hinv q t ht => ?_) h
  obtain ⟨-, transaction, hfind, -, -⟩ := hinv.lists.mem q t ht
  obtain ⟨honly, hnobody⟩ := hinv.toCore.apart ht
  refine ⟨List.count_eq_one_of_mem (hinv.lists.nodup q) ht, honly, hnobody, transaction, hfind, ?_⟩
  rintro x rfl hcall
  exact hinv.toCore.direct ht hfind hcall

theorem calls_are_delivered_once_called_back : machine.AllStates (fun r => ∃ s, r = .ok s ∧ ∀ q t, t ∈ s.todo q →
    (s.todo q).count t = 1 ∧ (∀ q', t ∈ s.todo q' → q' = q) ∧ (∀ x, ¬s.WorksOn x t) ∧
    ∃ transaction, s.transactions.find? t = some transaction ∧
      ∀ x, q = .thread x → transaction.target_node ≠ none → ∃ u, u ≠ t ∧ s.Waits x u ∧ s.MadeFor t u) machine.init
    [.binder_open 1, .binder_get_thread 1 1, .binder_new_node 1 1, .binder_open 2, .binder_get_thread 2 2,
      .binder_new_node 2 2, .BC_TRANSACTION 1 1 (some 2) false, .binder_thread_read 2 true,
      .BC_TRANSACTION 2 2 (some 1) false] :=
  calls_are_delivered_once (by decide)

/-- In every run a thread that waits for a reply is taken off its call only by the call that it has received meanwhile, by
a new reply, or by an error more that it is to be told of, whoever makes the step. -/
theorem waiting_thread_is_answered {steps : List Step} (h : machine.AllSteps CallsOther machine.init steps) :
    machine.AllSteps (fun r c => ∀ s s' x t thread', r = .ok s → machine.step r c = some (.ok s') → s.Waits x t →
      s'.threads.find? x = some thread' → s.Outcome s' x t thread') machine.init steps := by
  refine Machine.allSteps_of_relation step_fine (fun r c hr _ => ?_) steps machine.init fine_init h
  rintro s s' x t thread' rfl hstep hw hx'
  obtain ⟨s1, heq, hsound⟩ := hr
  cases heq
  exact State.step_outcome hsound hstep hw hx'

theorem waiting_thread_is_answered_exit : machine.AllSteps (fun r c => ∀ s s' x t thread', r = .ok s →
    machine.step r c = some (.ok s') → s.Waits x t → s'.threads.find? x = some thread' → s.Outcome s' x t thread')
    machine.init
    [.binder_open 1, .binder_get_thread 1 1, .binder_new_node 1 1, .binder_open 2, .binder_get_thread 2 2,
      .BC_TRANSACTION 2 1 (some 1) false, .binder_thread_read 1 true, .thread_exit 1] :=
  waiting_thread_is_answered (by decide)

section Reachable

variable {steps : List Step} {s : State} {x y : ThreadId} {t r : TransactionId} {thread : Thread}
  {transaction : Transaction}

/-- A reply to a call whose sender is left finds that the sender waits for it: the sender goes back to what it was at work
on before its call, and so does the thread that replies, and nobody else is concerned. -/
theorem reply_reaches_caller (h : machine.AllSteps CallsOther machine.init steps)
    (hs : machine.exec machine.init steps = some (.ok s)) (hx : s.threads.find? x = some thread)
    (hok : thread.return_error = .BR_OK) (ht : t ∉ s.transactions) (hstack : thread.transaction_stack = some r)
    (hfind : s.transactions.find? r = some transaction) (hto : transaction.to_thread = some x)
    (hy : transaction.from_thread = some y) :
    s.Waits y r ∧ ∃ s', s.step (.BC_REPLY x t false) = some (.ok s') ∧ s.Replied s' x t r transaction y := by
  obtain ⟨chains, hinv⟩ := exec_fine h hs
  obtain ⟨⟨target, htarget, htop⟩, s', chains', hreply, -, hreplied⟩ :=
    State.reply_to hinv hx hok (OrdMap.not_mem_iff.mp ht) hstack hfind hto hy false
  refine ⟨⟨Option.bind_eq_some_iff.mpr ⟨target, htarget, htop⟩, Option.bind_eq_some_iff.mpr ⟨transaction, hfind, hy⟩⟩,
    s', ?_, hreplied rfl⟩
  have hmay : s.mayWrite x = true := by simp [State.mayWrite, hx, hok]
  rw [← hreply]
  exact if_pos ⟨hmay, ht⟩

theorem reply_reaches_caller_first : ∃ (s : State) (transaction : Transaction), s.Waits 2 1 ∧
    ∃ s', s.step (.BC_REPLY 1 2 false) = some (.ok s') ∧ s.Replied s' 1 2 1 transaction 2 :=
  ⟨_, _, reply_reaches_caller (x := 1) (y := 2) (t := 2) (r := 1)
    (show machine.AllSteps CallsOther machine.init
      [.binder_open 1, .binder_get_thread 1 1, .binder_new_node 1 1, .binder_open 2, .binder_get_thread 2 2,
        .BC_TRANSACTION 2 1 (some 1) false, .binder_thread_read 1 true] by decide)
    rfl rfl rfl (by decide) rfl rfl rfl rfl⟩

end Reachable

end AnboxReboxed.Binder.Calls
