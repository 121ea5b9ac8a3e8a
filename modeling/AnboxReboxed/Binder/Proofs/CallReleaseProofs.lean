import AnboxReboxed.Binder.Proofs.CallStepProofs

/-!
# Proofs: threads and processes that go

Whoever goes, no call is lost: it is answered with an error to the last thread before it in its chain that is left.
-/

namespace AnboxReboxed.Binder.Calls

open AnboxReboxed.Lib

namespace State

/-- What holds between the functions of the driver. -/
structure Inv (dying : Option ThreadId) (taken : List TransactionId) (s : State) (all : Set Chain) : Prop
    extends Core dying taken s all where
  errors : s.Errors

section Errors

variable {s s' : State} {x : ThreadId} {t : TransactionId} {thread thread' : Thread}

/-- The rule for a step that changes one thread. -/
theorem Errors.update (h : s.Errors)
    (hother : ∀ y thread, y ≠ x → s'.threads.find? y = some thread → s.threads.find? y = some thread)
    (hcaller : ∀ t y, y ≠ x → s'.caller t = some y → s.caller t = some y)
    (hx : ∀ thread, s'.threads.find? x = some thread → (thread.return_error2 ≠ .BR_OK → thread.return_error ≠ .BR_OK) ∧
      ∀ t, thread.transaction_stack = some t → s'.caller t = some x → thread.return_error2 = .BR_OK) :
    s'.Errors := by
  intro y thread hy
  by_cases hyx : y = x
  · subst hyx
    exact hx thread hy
  · obtain ⟨h1, h2⟩ := h y thread (hother y thread hyx hy)
    exact ⟨h1, fun t ht hc => h2 t ht (hcaller t y hyx hc)⟩

theorem Errors.setThread (h : s.Errors)
    (h1 : thread'.return_error2 ≠ .BR_OK → thread'.return_error ≠ .BR_OK)
    (h2 : ∀ t, thread'.transaction_stack = some t → s.caller t = some x → thread'.return_error2 = .BR_OK) :
    (s.setThread x thread').Errors := by
  refine h.update (x := x) (fun y thread hyx hy => ?_) (fun _ _ _ hu => hu) fun thread hx => ?_
  · rwa [find_setThread, if_neg hyx] at hy
  · rw [find_setThread, if_pos rfl] at hx
    cases hx
    exact ⟨h1, h2⟩

theorem caller_kfree {y : ThreadId} {u : TransactionId} (h : (s.kfree t).caller u = some y) : s.caller u = some y := by
  unfold caller at h ⊢
  rw [find_kfree] at h
  split at h
  · simp at h
  · exact h

theorem Errors.kfree (h : s.Errors) (t : TransactionId) : (s.kfree t).Errors := by
  intro y thread hy
  obtain ⟨h1, h2⟩ := h y thread hy
  exact ⟨h1, fun u hu hc => h2 u hu (caller_kfree hc)⟩

/-- A thread that may write has no error at all. -/
theorem Errors.ok (h : s.Errors) (hx : s.threads.find? x = some thread) (hok : thread.return_error = .BR_OK) :
    thread.return_error2 = .BR_OK := by
  by_contra hne
  exact (h x thread hx).1 hne hok

theorem makeWay_proc (thread : Thread) : thread.makeWay.proc = thread.proc := by
  unfold Thread.makeWay
  split <;> rfl

theorem makeWay_stack (thread : Thread) : thread.makeWay.transaction_stack = thread.transaction_stack := by
  unfold Thread.makeWay
  split <;> rfl

theorem makeWay_todo (thread : Thread) : thread.makeWay.todo = thread.todo := by
  unfold Thread.makeWay
  split <;> rfl

theorem makeWay_return_error (h : thread.return_error2 = .BR_OK) : thread.makeWay.return_error = .BR_OK := by
  unfold Thread.makeWay
  split
  · rfl
  · next hne => exact not_not.mp fun herr => hne ⟨herr, h⟩

end Errors

section Failure

variable {s : State} {chains : Set Chain} {dying : Option ThreadId} {taken : List TransactionId}
  {x y : ThreadId} {t : TransactionId} {l : List TransactionId} {transaction : Transaction} {error_code : ReturnError}

/-- The thread that has sent the call is told, and goes on with what it was at work on before. -/
theorem failSender_ok (h : s.Inv dying (t :: taken) chains) (hc : (⟨none, t :: l⟩ : Chain) ∈ chains)
    (hfind : s.transactions.find? t = some transaction) (hy : transaction.from_thread = some y)
    (herror : error_code ≠ .BR_OK) :
    ∃ s', s.failSender y t error_code = .ok s' ∧ s'.Inv dying taken (State.swap chains ⟨none, t :: l⟩ ⟨some y, l⟩) ∧
      s.Frame s' := by
  obtain ⟨thread, hthread, -, -⟩ := h.toCore.pop hc hfind hy
  have hstack := h.chains.sender hc hfind hy hthread
  have hok2 := (h.errors y thread hthread).2 t hstack ((caller_of_find hfind).trans hy)
  have hok := makeWay_return_error hok2
  have hcore1 : (s.setThread y thread.makeWay).Core dying (t :: taken) chains :=
    h.toCore.touch hthread (makeWay_proc thread) (makeWay_stack thread) (by rw [makeWay_todo])
  obtain ⟨thread1, hthread1, hpop, hcore2⟩ := hcore1.pop hc hfind hy
  have heq : thread1 = thread.makeWay := by
    rw [find_setThread, if_pos rfl] at hthread1
    exact (Option.some.inj hthread1).symm
  subst heq
  obtain ⟨s2, hs2⟩ : ∃ s2, s2 = ((s.setThread y thread.makeWay).setThread y
    { thread.makeWay with transaction_stack := l.head? }).kfree t := ⟨_, rfl⟩
  rw [← hs2] at hpop hcore2
  have hthreads2 : ∀ x, s2.threads.find? x =
      if x = y then some { thread.makeWay with transaction_stack := l.head? } else s.threads.find? x := by
    intro x
    rw [hs2, kfree_threads, find_setThread]
    split
    · rfl
    · next hxy => rw [find_setThread, if_neg hxy]
  have hthread2 : s2.threads.find? y = some { thread.makeWay with transaction_stack := l.head? } := by
    rw [hthreads2, if_pos rfl]
  obtain ⟨s3, hs3⟩ : ∃ s3, s3 = s2.setThread y
    { thread.makeWay with transaction_stack := l.head?, return_error := error_code } := ⟨_, rfl⟩
  have hcore3 : s3.Core dying taken (State.swap chains ⟨none, t :: l⟩ ⟨some y, l⟩) := by
    rw [hs3]
    exact hcore2.touch hthread2 rfl rfl rfl
  refine ⟨s3, ?_, ⟨hcore3, h.errors.update (x := y) (fun z thread' hz hfindz => ?_) (fun u z _ hu => ?_)
    fun thread' hthread' => ?_⟩, ?_⟩
  · unfold failSender
    rw [bind_eq_of_ok (thread_ok hthread)]
    simp only
    rw [if_pos hok, bind_eq_of_ok hpop, bind_eq_of_ok (thread_ok hthread2), hs3]
    rfl
  · rw [hs3, find_setThread, if_neg hz, hthreads2, if_neg hz] at hfindz
    exact hfindz
  · rw [hs3, hs2] at hu
    exact caller_kfree (s := s) (t := t) hu
  · rw [hs3, find_setThread, if_pos rfl] at hthread'
    cases hthread'
    refine ⟨fun _ => herror, fun u hu hcaller => ?_⟩
    -- what the thread is at work on now is not one of its own calls
    exfalso
    obtain ⟨l', rfl⟩ := List.head?_eq_some_iff.mp hu
    obtain ⟨transaction', hhead⟩ := hcore3.head (Or.inr ⟨rfl, by simp⟩)
    rw [caller_of_find hhead.sent.find] at hcaller
    exact (hhead.receiver y rfl).2.2.1 hcaller
  · refine ⟨fun z => ?_, ?_, ?_⟩
    · rw [hs3, find_setThread, hthreads2]
      split
      · next hzy => simp [hzy, hthread, makeWay_proc, makeWay_todo]
      · rfl
    · rw [hs3, hs2]
      rfl
    · rw [hs3, hs2]
      rfl

/-- The error goes down the chain to the first thread that is left. -/
theorem sendFailedReply_ok (herror : error_code ≠ .BR_OK) (l : List TransactionId) :
    ∀ {s : State} {chains : Set Chain} {t : TransactionId} {n : Nat}, l.length < n →
      s.Inv dying (t :: taken) chains → (⟨none, t :: l⟩ : Chain) ∈ chains →
      ∃ s' chains', sendFailedReply n s t error_code = .ok s' ∧ s'.Inv dying taken chains' ∧ s.Frame s' := by
  induction l with
  | nil =>
    intro s chains t fuel hfuel h hc
    obtain ⟨fuel, rfl⟩ := Nat.exists_eq_succ_of_ne_zero (Nat.ne_of_gt hfuel)
    obtain ⟨transaction, hhead⟩ := h.toCore.head hc
    have hfind := hhead.sent.find
    rw [sendFailedReply, bind_eq_of_ok (transaction_ok hfind)]
    cases hy : transaction.from_thread with
    | some y =>
      obtain ⟨s', hok, hinv, hframe⟩ := failSender_ok h hc hfind hy herror
      exact ⟨s', _, hok, hinv, hframe⟩
    | none =>
      obtain ⟨hpop, hcore⟩ := h.toCore.pop_lost hc hfind hy
      refine ⟨s.kfree t, _, ?_, ⟨hcore, h.errors.kfree t⟩, Frame.kfree s t⟩
      simp only
      rw [bind_eq_of_ok hpop, hhead.sent.parent]
      rfl
  | cons u l ih =>
    intro s chains t fuel hfuel h hc
    obtain ⟨fuel, rfl⟩ := Nat.exists_eq_succ_of_ne_zero (Nat.ne_of_gt (Nat.lt_of_le_of_lt (Nat.zero_le _) hfuel))
    obtain ⟨transaction, hhead⟩ := h.toCore.head hc
    have hfind := hhead.sent.find
    rw [sendFailedReply, bind_eq_of_ok (transaction_ok hfind)]
    cases hy : transaction.from_thread with
    | some y =>
      obtain ⟨s', hok, hinv, hframe⟩ := failSender_ok h hc hfind hy herror
      exact ⟨s', _, hok, hinv, hframe⟩
    | none =>
      obtain ⟨hpop, hcore⟩ := h.toCore.pop_lost hc hfind hy
      obtain ⟨s', chains', hok, hinv, hframe⟩ := ih (n := fuel) (by simpa using hfuel)
        (⟨hcore, h.errors.kfree t⟩ : (s.kfree t).Inv dying (u :: taken) _) (Or.inr ⟨rfl, by simp⟩)
      refine ⟨s', chains', ?_, hinv, (Frame.kfree s t).trans hframe⟩
      simp only
      rw [bind_eq_of_ok hpop, hhead.sent.parent]
      exact hok

theorem binder_send_failed_reply_ok (herror : error_code ≠ .BR_OK) (h : s.Inv dying (t :: taken) chains)
    (hc : (⟨none, t :: l⟩ : Chain) ∈ chains) :
    ∃ s' chains', s.binder_send_failed_reply t error_code = .ok s' ∧ s'.Inv dying taken chains' ∧ s.Frame s' := by
  refine sendFailedReply_ok herror l ?_ h hc
  exact (h.chains.ok _ hc).length_le

theorem Inv.free (h : s.Inv dying (t :: taken) chains) (hfind : s.transactions.find? t = some transaction)
    (hnone : transaction.target_node = none) : (s.kfree t).Inv dying taken chains := by
  refine ⟨⟨h.chains.congr (fun c hc u hu => ?_) (fun u transaction' hu => ?_) fun x => rfl,
    h.lists.free h.chains hfind hnone, (Frame.kfree s t).owners h.owners⟩, h.errors.kfree t⟩
  · rw [find_kfree, if_neg (h.chains.ne_reply hc hu hfind hnone)]
  · rw [find_kfree] at hu
    split at hu
    · cases hu
    · exact Or.inl hu

theorem releaseTransaction_ok (h : s.Inv dying (t :: taken) chains) :
    ∃ s' chains', s.releaseTransaction t = .ok s' ∧ s'.Inv dying taken chains' ∧ s.Frame s' := by
  obtain ⟨transaction, hfind, hlast⟩ := h.lists.find t List.mem_cons_self
  unfold releaseTransaction
  rw [bind_eq_of_ok (transaction_ok hfind)]
  by_cases hnone : transaction.target_node = none
  · rw [if_pos hnone]
    exact ⟨s.kfree t, chains, rfl, h.free hfind hnone, Frame.kfree s t⟩
  · rw [if_neg hnone]
    obtain ⟨l, hl⟩ := hlast hnone
    exact binder_send_failed_reply_ok (by simp) h hl

theorem binder_release_work_ok (list : List Work) :
    ∀ {s : State} {chains : Set Chain}, s.Inv dying (waiting list ++ taken) chains →
      ∃ s' chains', s.binder_release_work list = .ok s' ∧ s'.Inv dying taken chains' ∧ s.Frame s' := by
  induction list with
  | nil => exact fun h => ⟨_, _, rfl, h, Frame.refl _⟩
  | cons w list ih =>
    intro s chains h
    cases w with
    | transaction_complete => exact ih h
    | transaction t =>
      obtain ⟨s1, chains1, hok, hinv, hframe⟩ := releaseTransaction_ok h
      obtain ⟨s', chains', hok', hinv', hframe'⟩ := ih hinv
      exact ⟨s', chains', (bind_eq_of_ok hok).trans hok', hinv', hframe.trans hframe'⟩

end Failure

section Clear

variable {s s' : State} {chains : Set Chain} {taken : List TransactionId} {x y z : ThreadId} {t : TransactionId}
  {l : List TransactionId} {transaction : Transaction}

/-- The thread is forgotten. -/
def forget (x : ThreadId) (y : Option ThreadId) : Option ThreadId := if y = some x then none else y

theorem forget_eq_some : forget x (some y) = some z ↔ y = z ∧ y ≠ x := by
  unfold forget
  split <;> simp_all

theorem eq_of_forget {y : Option ThreadId} (h : forget x y = some z) : y = some z ∧ z ≠ x := by
  cases y with
  | none => simp [forget] at h
  | some y =>
    obtain ⟨rfl, hne⟩ := forget_eq_some.mp h
    exact ⟨rfl, hne⟩

theorem forget_ne (x : ThreadId) (y : Option ThreadId) : forget x y ≠ some x := fun h => (eq_of_forget h).2 rfl

/-- What is left of a transaction that a thread has received or sent. -/
def cleared (x : ThreadId) (transaction : Transaction) : Transaction :=
  { transaction with
    from_thread := forget x transaction.from_thread
    to_proc := if transaction.to_thread = some x then none else transaction.to_proc
    to_thread := forget x transaction.to_thread }

theorem lastSent_cleared (h : ∀ u ∈ l, s'.caller u = forget x (s.caller u)) :
    s'.lastSent z l = if z = x then none else s.lastSent z l := by
  induction l with
  | nil => simp
  | cons u l ih =>
    obtain ⟨hu, hl⟩ := List.forall_mem_cons.mp h
    rw [lastSent_cons, lastSent_cons, ih hl, hu]
    by_cases hzx : z = x
    · rw [if_pos hzx, if_neg (hzx ▸ forget_ne x _), if_pos hzx]
    · rw [if_neg hzx, if_neg hzx]
      by_cases hc : s.caller u = some z
      · rw [if_pos hc, hc, if_pos (by simp [forget, hzx])]
      · rw [if_neg hc, if_neg fun hf => hc (eq_of_forget hf).1]

theorem caller_cleared (h : s'.transactions.find? t = (s.transactions.find? t).map (cleared x)) :
    s'.caller t = forget x (s.caller t) := by
  unfold caller
  rw [h]
  cases s.transactions.find? t <;> simp [cleared, forget]

theorem Served.cleared {y : Option ThreadId} (h : s.Served y l)
    (hl : ∀ u ∈ l, s'.transactions.find? u = (s.transactions.find? u).map (State.cleared x))
    (hlive : ∀ z, z ∈ s.threads → z ∈ s'.threads) : s'.Served (forget x y) l := by
  induction h with
  | nil y => exact .nil _
  | @cons y t transaction l sent receiver received below ih =>
    obtain ⟨ht, hl⟩ := List.forall_mem_cons.mp hl
    rw [sent.find, Option.map_some] at ht
    refine .cons ⟨ht, sent.call, sent.parent, fun z hz => ?_, sent.new⟩ ?_ (fun z hz => ?_) (ih hl)
    · exact hlive z (sent.live z (eq_of_forget hz).1)
    · rw [← receiver]
      rfl
    · obtain ⟨hyz, hzx⟩ := eq_of_forget hz
      obtain ⟨hne, hparent⟩ := received z hyz
      refine ⟨fun hf => hne (eq_of_forget hf).1, ?_⟩
      rw [lastSent_cleared fun u hu => caller_cleared (hl u hu), if_neg hzx]
      exact hparent

/-- The walk down the stack of a thread meets the transactions of its chain, and clears each where the thread is in it. -/
theorem clearStack_ok (x : ThreadId) (l : List TransactionId) :
    ∀ {s : State} {y : Option ThreadId} {n : Nat}, s.Served y l → l.length ≤ n →
      ∃ s', clearStack x n s (if y = some x then l.head? else s.lastSent x l) = .ok s' ∧
        s'.procs = s.procs ∧ s'.threads = s.threads ∧ s'.nodes = s.nodes ∧
        ∀ u, s'.transactions.find? u =
          if u ∈ l then (s.transactions.find? u).map (cleared x) else s.transactions.find? u := by
  induction l with
  | nil =>
    intro s y fuel _ _
    refine ⟨s, ?_, rfl, rfl, rfl, fun u => by simp⟩
    cases fuel <;> split <;> rfl
  | cons t l ih =>
    intro s y fuel h hfuel
    cases h with
    | @cons _ _ transaction _ sent receiver received below =>
      have hfind := sent.find
      have hcaller := caller_of_find hfind
      -- a step that meets `t`, and goes on with the rest
      have hstep : ∀ {fuel' : Nat} (transaction' : Transaction) (p : Option TransactionId), l.length ≤ fuel' →
          transaction' = cleared x transaction →
          p = (if transaction.from_thread = some x then l.head? else s.lastSent x l) →
          ∃ s', clearStack x fuel' (s.setTransaction t transaction') p = .ok s' ∧
            s'.procs = s.procs ∧ s'.threads = s.threads ∧ s'.nodes = s.nodes ∧
            ∀ u, s'.transactions.find? u =
              if u ∈ t :: l then (s.transactions.find? u).map (cleared x) else s.transactions.find? u := by
        intro fuel' transaction' p hfuel' htransaction' hp
        have hkeep : ∀ u ∈ l, (s.setTransaction t transaction').transactions.find? u = s.transactions.find? u := by
          intro u hu
          rw [find_setTransaction, if_neg (ne_of_mem_of_not_mem hu sent.new)]
        obtain ⟨s', hok, hprocs, hthreads, hnodes, hfind'⟩ :=
          ih (s := s.setTransaction t transaction') (below.congr hkeep fun _ _ _ _ => id) hfuel'
        rw [lastSent_congr hkeep, ← hp] at hok
        refine ⟨s', hok, hprocs, hthreads, hnodes, fun u => ?_⟩
        rw [hfind', find_setTransaction]
        by_cases hut : u = t
        · subst hut
          simp [sent.new, hfind, htransaction']
        · simp [hut]
      cases fuel with
      | zero => simp at hfuel
      | succ fuel =>
        have hfuel' : l.length ≤ fuel := by simpa using hfuel
        by_cases hyx : y = some x
        · -- the thread has received it
          obtain ⟨hne, hparent⟩ := received x hyx
          obtain ⟨s', hok, hrest⟩ := hstep { transaction with to_proc := none, to_thread := none } transaction.to_parent
            hfuel' (by simp [cleared, forget, receiver, hyx, hne]) (by rw [if_neg hne, hparent])
          refine ⟨s', ?_, hrest⟩
          rw [if_pos hyx, List.head?_cons, clearStack, bind_eq_of_ok (transaction_ok hfind),
            if_pos (receiver.trans hyx)]
          exact hok
        · have hto : transaction.to_thread ≠ some x := fun hto => hyx (receiver.symm.trans hto)
          rw [if_neg hyx, lastSent_cons, hcaller]
          by_cases hfrom : transaction.from_thread = some x
          · -- the thread has sent it
            obtain ⟨s', hok, hrest⟩ := hstep { transaction with from_thread := none } transaction.from_parent hfuel'
              (by simp [cleared, forget, hto, hfrom]) (by rw [if_pos hfrom, sent.parent])
            refine ⟨s', ?_, hrest⟩
            rw [if_pos hfrom, clearStack, bind_eq_of_ok (transaction_ok hfind), if_neg hto, if_pos hfrom]
            exact hok
          · -- the thread is below
            rw [if_neg hfrom]
            obtain ⟨s', hok, hprocs, hthreads, hnodes, hfind'⟩ := ih below (Nat.le_succ_of_le hfuel')
            rw [if_neg hfrom] at hok
            refine ⟨s', hok, hprocs, hthreads, hnodes, fun u => ?_⟩
            rw [hfind']
            by_cases hut : u = t
            · subst hut
              simp [sent.new, hfind, cleared, forget, hto, hfrom]
            · simp [hut]

theorem clearStack_none (x : ThreadId) (fuel : Nat) (s : State) : clearStack x fuel s none = .ok s := by
  cases fuel <;> rfl

/-- The chain `c` without the thread. -/
structure Cleared (x : ThreadId) (s s' : State) (c : Chain) : Prop where
  threads : s'.threads = s.threads
  procs : s'.procs = s.procs
  nodes : s'.nodes = s.nodes
  other : ∀ u, u ∉ c.calls → s'.transactions.find? u = s.transactions.find? u
  caller : ∀ u ∈ c.calls, s'.caller u = forget x (s.caller u)
  ok : s'.ChainOk ⟨forget x c.receiver, c.calls⟩
  /-- A call that waits does so still, and where it did. -/
  head : ∀ t l transaction, c = ⟨none, t :: l⟩ → s.transactions.find? t = some transaction →
    s'.transactions.find? t = some { transaction with from_thread := forget x transaction.from_thread }

/-- The one call that loses its receiver. -/
def lost (x : ThreadId) (c : Chain) : List TransactionId := if c.receiver = some x then c.calls.head?.toList else []

namespace Cleared

variable {c : Chain} {thread : Thread} {t : TransactionId}

theorem frame (h : Cleared x s s' c) : s.Frame s' := ⟨fun y => by rw [h.threads], h.procs, h.nodes⟩

theorem top (h : Cleared x s s' c) (hz : z ≠ x) : s'.top ⟨forget x c.receiver, c.calls⟩ z = s.top c z := by
  by_cases hr : c.receiver = some z
  · rw [top_receiver hr]
    exact top_receiver (by simp [forget, hr, hz])
  · rw [top_other hr, top_other fun hf => hr (eq_of_forget hf).1, lastSent_cleared h.caller, if_neg hz]

theorem top_self (h : Cleared x s s' c) : s'.top ⟨forget x c.receiver, c.calls⟩ x = none := by
  rw [top_other (forget_ne x _), lastSent_cleared h.caller, if_pos rfl]

theorem mem_lost {u : TransactionId} (hu : u ∈ lost x c) : c.receiver = some x ∧ u ∈ c.calls ∧ ∃ l, c.calls = u :: l := by
  unfold lost at hu
  split at hu
  · next hr =>
    rw [Option.mem_toList] at hu
    exact ⟨hr, List.mem_of_head? hu, List.head?_eq_some_iff.mp hu⟩
  · simp at hu

theorem chains_swap (h : Cleared x s s' c) (hchains : s.Chains none chains) (hc : c ∈ chains)
    (hx : s.threads.find? x = some thread) (ht : s.top c x = some t) :
    s'.Chains (some x) (State.swap chains c ⟨forget x c.receiver, c.calls⟩) := by
  have hstack := (hchains.stack x thread hx (by simp) t).mpr ⟨c, hc, ht⟩
  refine hchains.swap (Or.inl hc) (fun _ => h.ok) ⟨fun u hu => Or.inl hu, fun u hu _ => h.other u hu,
    fun u hu hu' => absurd hu hu'⟩ (fun y => by rw [h.threads]) (fun y hy => ?_) fun y thread' hy hd => ⟨by simp, thread', ?_, ?_⟩
  · cases hy
    refine ⟨h.top_self, fun d hd hne => ?_⟩
    by_contra htop
    obtain ⟨u, hu⟩ := Option.ne_none_iff_exists'.mp htop
    have hstack' := (hchains.stack x thread hx (by simp) u).mpr ⟨d, hd, hu⟩
    cases hstack.symm.trans hstack'
    exact hne (hchains.apart d hd c hc t (top_eq_some hu) (top_eq_some ht))
  · rw [← h.threads]
    exact hy
  · rw [h.threads] at hy
    exact hchains.untouched hy (by simp) (Or.inl hc) (h.top fun heq => hd (congrArg some heq.symm)) rfl

theorem lists_swap (h : Cleared x s s' c) (hlists : s.Lists none [] chains) (hchains : s.Chains none chains)
    (hchains' : s'.Chains (some x) (State.swap chains c ⟨forget x c.receiver, c.calls⟩)) (hc : c ∈ chains) :
    s'.Lists (some x) (lost x c) (State.swap chains c ⟨forget x c.receiver, c.calls⟩) := by
  have hne_nil := (hchains.ok c hc).ne_nil
  have hc' : (⟨forget x c.receiver, c.calls⟩ : Chain) ∈ State.swap chains c ⟨forget x c.receiver, c.calls⟩ :=
    Or.inr ⟨rfl, hne_nil⟩
  have htodo := h.frame.todo
  have hout : ∀ d ∈ chains, d ≠ c → ∀ u ∈ d.calls, u ∉ c.calls :=
    fun d hd hne u hu huc => hne (hchains.apart d hd c hc u hu huc)
  have hwaits : ∀ t transaction, s.transactions.find? t = some transaction →
      transaction.target_node = none ∨ Last chains t → ∃ q, t ∈ s.todo q := by
    intro t transaction hfind hw
    exact (hlists.waits t transaction hfind hw).resolve_left (by simp)
  -- a chain without a receiver had none before, or the thread
  have hfree : ∀ t l, (⟨none, t :: l⟩ : Chain) = ⟨forget x c.receiver, c.calls⟩ → t ∈ lost x c ∨ c = ⟨none, t :: l⟩ := by
    intro t l heq
    obtain ⟨receiver, calls⟩ := c
    simp only [Chain.mk.injEq] at heq
    obtain ⟨hr, rfl⟩ := heq
    by_cases hrx : receiver = some x
    · left
      simp [lost, hrx]
    · right
      rw [forget, if_neg hrx] at hr
      rw [← hr]
  constructor
  · intro t transaction hfind hw
    simp only [htodo]
    by_cases htc : t ∈ c.calls
    · rcases hw with hnone | ⟨l, ⟨hl, hne⟩ | ⟨hl, -⟩⟩
      · exact absurd rfl (hchains'.ne_reply hc' htc hfind hnone)
      · exact absurd htc (hout _ hl hne t List.mem_cons_self)
      · rcases hfree t l hl with hlost | rfl
        · exact Or.inl hlost
        · obtain ⟨transaction', hfind', -⟩ := hchains.find hc htc
          exact Or.inr (hwaits t transaction' hfind' (Or.inr ⟨l, hc⟩))
    · rw [h.other t htc] at hfind
      refine Or.inr (hwaits t transaction hfind (hw.imp_right ?_))
      rintro ⟨l, ⟨hl, -⟩ | ⟨hl, -⟩⟩
      · exact ⟨l, hl⟩
      · obtain ⟨-, hcalls⟩ := Chain.mk.inj hl
        exact absurd (hcalls ▸ List.mem_cons_self) htc
  · intro q t ht
    rw [htodo] at ht
    obtain ⟨-, transaction, hfind, hplace, hlast⟩ := hlists.mem q t ht
    by_cases htc : t ∈ c.calls
    · obtain ⟨transaction', hfind', hcall⟩ := hchains.find hc htc
      cases hfind.symm.trans hfind'
      obtain ⟨l, hl⟩ := hlast hcall
      cases hchains.apart _ hl _ hc t List.mem_cons_self htc
      refine ⟨by simp [lost], _, h.head t l transaction rfl hfind, hplace, fun _ => ⟨l, hc'⟩⟩
    · refine ⟨fun hlost => htc (mem_lost hlost).2.1, transaction, (h.other t htc).trans hfind, hplace, fun hcall => ?_⟩
      obtain ⟨l, hl⟩ := hlast hcall
      refine ⟨l, Or.inl ⟨hl, ?_⟩⟩
      rintro rfl
      exact htc List.mem_cons_self
  · intro q
    rw [htodo]
    exact hlists.nodup q
  · intro t ht
    obtain ⟨hr, htc, l, hl⟩ := mem_lost ht
    obtain ⟨transaction, hfind, -⟩ := hchains'.find hc' htc
    refine ⟨transaction, hfind, fun _ => ⟨l, ?_⟩⟩
    have hnone : forget x c.receiver = none := if_pos hr
    rw [hnone, hl] at hc' ⊢
    exact hc'
  · unfold lost
    split
    · cases c.calls.head? <;> simp
    · exact List.nodup_nil
  · rintro t l transaction y (⟨hl, hne⟩ | ⟨hl, -⟩) hfind ht hto hd
    · have hsame : ∀ u ∈ t :: l, s'.transactions.find? u = s.transactions.find? u :=
        fun u hu => h.other u (hout _ hl hne u hu)
      rw [hsame t List.mem_cons_self] at hfind
      rw [lastSent_congr fun u hu => hsame u (List.mem_cons_of_mem _ hu)]
      exact hlists.direct t l transaction y hl hfind (by simp) hto (by simp)
    · have hyx : y ≠ x := fun heq => hd (congrArg some heq.symm)
      rcases hfree t l hl with hlost | rfl
      · exact absurd hlost ht
      · obtain ⟨transaction', hfind', -⟩ := hchains.find hc List.mem_cons_self
        have := (h.head t l transaction' rfl hfind').symm.trans hfind
        cases this
        obtain ⟨hfrom, hlast⟩ := hlists.direct t l transaction' y hc hfind' (by simp) hto (by simp)
        refine ⟨fun hf => hfrom (eq_of_forget hf).1, ?_⟩
        rw [lastSent_cleared fun u hu => h.caller u (List.mem_cons_of_mem _ hu), if_neg hyx]
        exact hlast

theorem inv (h : Cleared x s s' c) (hinv : s.Inv none [] chains) (hc : c ∈ chains)
    (hx : s.threads.find? x = some thread) (ht : s.top c x = some t) :
    s'.Inv (some x) (lost x c) (State.swap chains c ⟨forget x c.receiver, c.calls⟩) := by
  have hchains' := h.chains_swap hinv.chains hc hx ht
  refine ⟨⟨hchains', h.lists_swap hinv.lists hinv.chains hchains' hc, h.frame.owners hinv.owners⟩, ?_⟩
  have hcaller : ∀ u y, s'.caller u = some y → s.caller u = some y := by
    intro u y hu
    by_cases huc : u ∈ c.calls
    · rw [h.caller u huc] at hu
      exact (eq_of_forget hu).1
    · rwa [caller_congr (h.other u huc)] at hu
  intro y thread' hy
  rw [h.threads] at hy
  obtain ⟨h1, h2⟩ := hinv.errors y thread' hy
  exact ⟨h1, fun u hu hf => h2 u hu (hcaller u y hf)⟩

end Cleared

end Clear

section Exit

variable {s s' : State} {chains : Set Chain} {dying : Option ThreadId} {taken l : List TransactionId} {x : ThreadId}
  {p : ProcId} {thread : Thread} {rest : List Work}

/-- A thread has sent what it has not received. -/
theorem Served.apart {y : Option ThreadId} {l : List TransactionId} (h : s.Served y l) {t : TransactionId}
    {transaction : Transaction} (ht : t ∈ l) (hfind : s.transactions.find? t = some transaction)
    (hx : transaction.to_thread = some x) : transaction.from_thread ≠ some x := by
  induction h with
  | nil y => simp at ht
  | cons sent receiver received below ih =>
    rcases List.mem_cons.mp ht with rfl | ht
    · cases hfind.symm.trans sent.find
      exact (received x (receiver.symm.trans hx)).1
    · exact ih ht

/-- What is on top of the stack of a thread and was for it is the last call of its chain. -/
theorem Core.receiver_of_top (h : s.Core none [] chains) {c : Chain} {t : TransactionId} {transaction : Transaction}
    (hc : c ∈ chains) (ht : s.top c x = some t) (hfind : s.transactions.find? t = some transaction)
    (hto : transaction.to_thread = some x) : c.receiver = some x := by
  by_contra hr
  rw [top_other hr] at ht
  obtain ⟨hmem, hcaller⟩ := lastSent_eq_some ht
  rw [caller_of_find hfind] at hcaller
  obtain ⟨u, transaction', l, hu⟩ := h.chains.ok c hc
  rw [hu.calls] at hmem
  rcases List.mem_cons.mp hmem with rfl | hmem
  · cases hfind.symm.trans hu.sent.find
    cases hreceiver : c.receiver with
    | some y =>
      obtain ⟨-, hto', -⟩ := hu.receiver y hreceiver
      cases hto.symm.trans hto'
      exact hr hreceiver
    | none =>
      have hc' : (⟨none, t :: l⟩ : Chain) ∈ chains := by
        rw [← hreceiver, ← hu.calls]
        exact hc
      exact (h.lists.direct t l transaction x hc' hfind (by simp) hto (by simp)).1 hcaller
  · exact hu.below.apart hmem hfind hto hcaller

theorem Inv.forgotten (h : s.Inv none [] chains) (hx : s.threads.find? x = some thread)
    (hstack : thread.transaction_stack = none) : s.Inv (some x) [] chains := by
  refine ⟨⟨⟨h.chains.ok, h.chains.apart, h.chains.call, h.chains.reply,
    fun y thread' hy _ => h.chains.stack y thread' hy (by simp), fun y hy c hc => ?_⟩,
    ⟨h.lists.waits, h.lists.mem, h.lists.nodup, h.lists.find, h.lists.distinct,
      fun t l transaction y hl hfind ht hto _ => h.lists.direct t l transaction y hl hfind ht hto (by simp)⟩,
    h.owners⟩, h.errors⟩
  cases hy
  exact h.chains.top_eq_none hx (by simp) hstack hc

theorem ChainHead.served {c : Chain} {t : TransactionId} {transaction : Transaction} {l : List TransactionId}
    (h : s.ChainHead c t transaction l) (hr : c.receiver ≠ none) : s.Served c.receiver c.calls := by
  obtain ⟨y, hy⟩ := Option.ne_none_iff_exists'.mp hr
  obtain ⟨-, hto, hreceived⟩ := h.receiver y hy
  rw [h.calls]
  refine .cons h.sent (hto.trans hy.symm) (fun z hz => ?_) h.below
  cases hy.symm.trans hz
  exact hreceived

theorem Sent.cleared {t : TransactionId} {transaction transaction' : Transaction} {l : List TransactionId}
    (h : s.Sent t transaction l) (hfind : s'.transactions.find? t = some transaction')
    (heq : transaction' = { transaction with from_thread := forget x transaction.from_thread })
    (hlive : ∀ z, z ∈ s.threads → z ∈ s'.threads) : s'.Sent t transaction' l where
  find := hfind
  call := heq ▸ h.call
  parent := heq ▸ h.parent
  live z hz := by
    rw [heq] at hz
    exact hlive z (h.live z (eq_of_forget hz).1)
  new := h.new

/-- The walk from a call that waits: the thread can only have sent it. -/
theorem clearStack_waiting {t t0 : TransactionId} {transaction : Transaction} {l : List TransactionId} {n : Nat}
    (hhead : s.ChainHead ⟨none, t :: l⟩ t transaction l)
    (hto : transaction.from_thread = some x → transaction.to_thread ≠ some x) (ht : s.lastSent x (t :: l) = some t0)
    (hn : l.length < n) :
    ∃ s', clearStack x n s (some t0) = .ok s' ∧ s'.procs = s.procs ∧ s'.threads = s.threads ∧ s'.nodes = s.nodes ∧
      s'.transactions.find? t = some { transaction with from_thread := forget x transaction.from_thread } ∧
      (∀ u ∈ l, s'.transactions.find? u = (s.transactions.find? u).map (State.cleared x)) ∧
      ∀ u, u ∉ t :: l → s'.transactions.find? u = s.transactions.find? u := by
  have hfind := hhead.sent.find
  rw [lastSent_cons, caller_of_find hfind] at ht
  by_cases hfrom : transaction.from_thread = some x
  · rw [if_pos hfrom] at ht
    obtain rfl : t = t0 := Option.some.inj ht
    obtain ⟨fuel, rfl⟩ := Nat.exists_eq_succ_of_ne_zero (Nat.ne_of_gt (Nat.lt_of_le_of_lt (Nat.zero_le _) hn))
    have hkeep : ∀ u ∈ l, (s.setTransaction t { transaction with from_thread := none }).transactions.find? u =
        s.transactions.find? u := by
      intro u hu
      rw [find_setTransaction, if_neg (ne_of_mem_of_not_mem hu hhead.sent.new)]
    obtain ⟨s', hok, hprocs, hthreads, hnodes, hfind'⟩ :=
      clearStack_ok x l (hhead.below.congr hkeep fun _ _ _ _ => id) (Nat.le_of_lt_succ hn)
    rw [if_pos hfrom, ← hhead.sent.parent] at hok
    refine ⟨s', ?_, hprocs, hthreads, hnodes, ?_, fun u hu => ?_, fun u hu => ?_⟩
    · rw [clearStack, bind_eq_of_ok (transaction_ok hfind), if_neg (hto hfrom), if_pos hfrom]
      exact hok
    · rw [hfind', if_neg hhead.sent.new, find_setTransaction, if_pos rfl, forget, if_pos hfrom]
    · rw [hfind', if_pos hu, hkeep u hu]
    · rw [List.mem_cons, not_or] at hu
      rw [hfind', if_neg hu.2, find_setTransaction, if_neg hu.1]
  · rw [if_neg hfrom] at ht
    obtain ⟨s', hok, hprocs, hthreads, hnodes, hfind'⟩ := clearStack_ok x l hhead.below (Nat.le_of_lt hn)
    rw [if_neg hfrom, ht] at hok
    refine ⟨s', hok, hprocs, hthreads, hnodes, ?_, fun u hu => ?_, fun u hu => ?_⟩
    · rw [hfind', if_neg hhead.sent.new, hfind, forget, if_neg hfrom]
    · rw [hfind', if_pos hu]
    · rw [List.mem_cons, not_or] at hu
      rw [hfind', if_neg hu.2]

theorem exists_cleared (h : s.Inv none [] chains) {c : Chain} {t0 : TransactionId} (hc : c ∈ chains)
    (ht : s.top c x = some t0) :
    ∃ s', clearStack x (2 * s.transactions.size) s (some t0) = .ok s' ∧ Cleared x s s' c := by
  have hlength := (h.chains.ok c hc).length_le
  obtain ⟨t, transaction, l, hhead⟩ := h.chains.ok c hc
  by_cases hr : c.receiver = none
  · obtain ⟨receiver, calls⟩ := c
    cases hr
    cases hhead.calls
    have hfind := hhead.sent.find
    have hto : transaction.from_thread = some x → transaction.to_thread ≠ some x :=
      fun hfrom hto => (h.lists.direct t l transaction x hc hfind (by simp) hto (by simp)).1 hfrom
    rw [List.length_cons] at hlength
    obtain ⟨s', hok, hprocs, hthreads, hnodes, hfindt, hfindl, hfindo⟩ :=
      clearStack_waiting (n := 2 * s.transactions.size) hhead hto (top_waiting.symm.trans ht) (by omega)
    have hlive : ∀ z, z ∈ s.threads → z ∈ s'.threads := fun z hz => hthreads ▸ hz
    refine ⟨s', hok, ⟨hthreads, hprocs, hnodes, hfindo, fun u hu => ?_, ?_, fun u l' transaction' heq hu => ?_⟩⟩
    · rcases List.mem_cons.mp hu with rfl | hu
      · rw [caller_of_find hfindt, caller_of_find hfind]
      · exact caller_cleared (hfindl u hu)
    · exact ⟨t, _, l, rfl, hhead.sent.cleared hfindt rfl hlive, hhead.below.cleared hfindl hlive,
        fun z hz => absurd hz (by simp [forget])⟩
    · cases heq
      cases hfind.symm.trans hu
      exact hfindt
  · have hserved := hhead.served hr
    obtain ⟨s', hok, hprocs, hthreads, hnodes, hfind'⟩ :=
      clearStack_ok x c.calls (n := 2 * s.transactions.size) hserved (by omega)
    have hlive : ∀ z, z ∈ s.threads → z ∈ s'.threads := fun z hz => hthreads ▸ hz
    have hcalls : ∀ u ∈ c.calls, s'.transactions.find? u = (s.transactions.find? u).map (State.cleared x) := by
      intro u hu
      rw [hfind', if_pos hu]
    refine ⟨s', ?_, ⟨hthreads, hprocs, hnodes, fun u hu => by rw [hfind', if_neg hu],
      fun u hu => caller_cleared (hcalls u hu), ?_, fun u l' transaction' heq => ?_⟩⟩
    · rw [← ht]
      exact hok
    · have hserved' := hserved.cleared hcalls hlive
      rw [hhead.calls] at hserved' ⊢
      refine hserved'.chainOk fun z hz => hlive z ?_
      exact (hhead.receiver z (eq_of_forget hz).1).1
    · rw [heq] at hr
      exact absurd rfl hr

/-- The stack of the thread is cleared; what it was at work on has nobody at work on it any more. -/
theorem clear_ok (h : s.Inv none [] chains) (hx : s.threads.find? x = some thread) :
    ∃ s' chains' send_reply, s.sendReply x thread.transaction_stack = .ok send_reply ∧
      clearStack x (2 * s.transactions.size) s thread.transaction_stack = .ok s' ∧
      s'.Inv (some x) send_reply.toList chains' ∧ s.Frame s' ∧
      ∀ t, send_reply = some t → Last chains' t := by
  cases hstack : thread.transaction_stack with
  | none => exact ⟨s, chains, none, rfl, clearStack_none .., h.forgotten hx hstack, Frame.refl s, by simp⟩
  | some t0 =>
    obtain ⟨c, hc, ht⟩ := (h.chains.stack x thread hx (by simp) t0).mp hstack
    obtain ⟨transaction, hfind, -⟩ := h.chains.find hc (top_eq_some ht)
    have hsend : s.sendReply x (some t0) = .ok (if transaction.to_thread = some x then some t0 else none) := by
      rw [sendReply, bind_eq_of_ok (transaction_ok hfind)]
      rfl
    obtain ⟨s', hok, hcleared⟩ := exists_cleared h hc ht
    have hinv := hcleared.inv h hc hx ht
    refine ⟨s', State.swap chains c ⟨forget x c.receiver, c.calls⟩, _, hsend, hok, ?_, hcleared.frame, ?_⟩
    · have hlost : lost x c = (if transaction.to_thread = some x then some t0 else none).toList := by
        by_cases hto : transaction.to_thread = some x
        · have hr := h.toCore.receiver_of_top hc ht hfind hto
          rw [top_receiver hr] at ht
          rw [lost, if_pos hr, if_pos hto, ht]
        · rw [if_neg hto, lost, if_neg, Option.toList_none]
          intro hr
          obtain ⟨u, transaction', l, hhead⟩ := h.chains.ok c hc
          rw [top_receiver hr, hhead.calls] at ht
          cases ht
          cases hfind.symm.trans hhead.sent.find
          exact hto (hhead.receiver x hr).2.1
      rw [← hlost]
      exact hinv
    · intro t ht'
      split at ht'
      · next hto =>
        cases ht'
        have hr := h.toCore.receiver_of_top hc ht hfind hto
        rw [top_receiver hr] at ht
        obtain ⟨l, hl⟩ := List.head?_eq_some_iff.mp ht
        refine ⟨l, Or.inr ⟨?_, by simp [hl]⟩⟩
        rw [hl, hr, forget, if_pos rfl]
      · cases ht'

/-- Work of a thread is taken out of its list. -/
theorem Inv.takeThread (h : s.Inv dying [] chains) (hx : s.threads.find? x = some thread)
    (hl : waiting thread.todo = l ++ waiting rest) : (s.setThread x { thread with todo := rest }).Inv dying l chains := by
  obtain ⟨h1, h2⟩ := h.errors x thread hx
  refine ⟨⟨h.chains.setThread hx rfl, ?_, h.owners.setThread hx rfl⟩, h.errors.setThread h1 h2⟩
  have hq : s.todo (.thread x) = l ++ waiting rest := (todo_thread hx).trans hl
  have hsame : (s.setThread x { thread with todo := rest }).transactions = s.transactions := rfl
  have htake := h.lists.take hq hsame (by rw [todo_setThread, if_pos rfl]) fun q hq => by rw [todo_setThread, if_neg hq]
  rwa [List.append_nil] at htake

/-- A thread that is forgotten, and has no work left, may be freed. -/
theorem Inv.freed (h : s.Inv (some x) [] chains) (htodo : s.todo (.thread x) = []) :
    ({ s with threads := s.threads.erase x } : State).Inv none [] chains := by
  obtain ⟨s', hs'⟩ : ∃ s' : State, s' = { s with threads := s.threads.erase x } := ⟨_, rfl⟩
  rw [← hs']
  have htx : s'.transactions = s.transactions := by rw [hs']
  have hprocs : s'.procs = s.procs := by rw [hs']
  have hthreads : ∀ y, s'.threads.find? y = if y = x then none else s.threads.find? y := by
    intro y
    rw [hs']
    exact OrdMap.find?_erase ..
  have hfind : ∀ y thread, s'.threads.find? y = some thread → y ≠ x ∧ s.threads.find? y = some thread := by
    intro y thread hy
    rw [hthreads] at hy
    split at hy
    · cases hy
    · next hyx => exact ⟨hyx, hy⟩
  have hsame : ∀ c ∈ chains, ∀ u ∈ c.calls, s'.transactions.find? u = s.transactions.find? u := fun _ _ _ _ => by rw [htx]
  have htop : ∀ c ∈ chains, ∀ y, s'.top c y = s.top c y := fun c hc y => top_congr (hsame c hc)
  have htodo' : ∀ q, s'.todo q = s.todo q := by
    intro q
    cases q with
    | thread y =>
      by_cases hyx : y = x
      · subst hyx
        rw [htodo]
        simp [State.todo, hthreads]
      · simp [State.todo, hthreads, hyx]
    | proc p => simp [State.todo, hprocs]
  refine ⟨⟨⟨fun c hc => (h.chains.ok c hc).congr (hsame c hc) fun y hy hmem => ?_, h.chains.apart, ?_, ?_, ?_, by simp⟩,
    ⟨?_, ?_, ?_, by simp, List.nodup_nil, ?_⟩, ?_⟩, ?_⟩
  · have hyx : y ≠ x := by
      rintro rfl
      exact hy (h.chains.gone y rfl c hc)
    obtain ⟨thread, hmem⟩ := OrdMap.mem_iff.mp hmem
    exact OrdMap.mem_of_find? ((hthreads y).trans (by rw [if_neg hyx, hmem]))
  · rw [htx]
    exact h.chains.call
  · rw [htx]
    exact h.chains.reply
  · intro y thread hy _ t
    obtain ⟨hyx, hy⟩ := hfind y thread hy
    rw [h.chains.stack y thread hy (fun heq => hyx (Option.some.inj heq).symm) t]
    exact exists_congr fun c => and_congr_right fun hc => by rw [htop c hc]
  · simpa only [htx, htodo'] using h.lists.waits
  · simpa only [htx, htodo'] using h.lists.mem
  · simpa only [htodo'] using h.lists.nodup
  · intro t l transaction y hl hfindt ht hto _
    rw [htx] at hfindt
    rw [lastSent_eq htx]
    refine h.lists.direct t l transaction y hl hfindt ht hto fun hxy => ?_
    cases hxy
    -- it would wait for the thread that has no work left
    obtain ⟨q, hq⟩ := (h.lists.waits t transaction hfindt (Or.inr ⟨l, hl⟩)).resolve_left (by simp)
    obtain ⟨-, transaction', hfindt', hplace, -⟩ := h.lists.mem q t hq
    cases hfindt.symm.trans hfindt'
    rw [Transaction.place, hto] at hplace
    cases hplace
    rw [htodo] at hq
    simp at hq
  · refine ⟨fun y thread hy => ?_, ?_⟩
    · rw [hprocs]
      exact h.owners.thread y thread (hfind y thread hy).2
    · rw [hs']
      exact h.owners.node
  · intro y thread hy
    obtain ⟨h1, h2⟩ := h.errors y thread (hfind y thread hy).2
    refine ⟨h1, fun t ht hc => h2 t ht ?_⟩
    rwa [caller_congr (s := s) (by rw [htx])] at hc

theorem binder_free_thread_ok (h : s.Inv none [] chains) (hx : x ∈ s.threads) :
    ∃ s' chains', s.binder_free_thread x = .ok s' ∧ s'.Inv none [] chains' ∧
      ({ s with threads := s.threads.erase x } : State).Frame s' := by
  obtain ⟨thread, hx⟩ := OrdMap.mem_iff.mp hx
  obtain ⟨s1, chains1, send_reply, hsend, hclear, hinv1, hframe1, hlast⟩ := clear_ok h hx
  -- the call that the thread was at work on fails
  obtain ⟨s2, chains2, hfail, hinv2, hframe2⟩ : ∃ s2 chains2, s1.failReply send_reply = .ok s2 ∧
      s2.Inv (some x) [] chains2 ∧ s1.Frame s2 := by
    cases send_reply with
    | none => exact ⟨s1, chains1, rfl, hinv1, Frame.refl s1⟩
    | some t =>
      obtain ⟨l, hl⟩ := hlast t rfl
      exact binder_send_failed_reply_ok (by simp) hinv1 hl
  have hframe12 := hframe1.trans hframe2
  obtain ⟨thread2, hx2⟩ := OrdMap.mem_iff.mp ((hframe12.live x).mpr (OrdMap.mem_of_find? hx))
  have hall : waiting thread2.todo = waiting thread2.todo ++ waiting [] := (List.append_nil _).symm
  have htake := hinv2.takeThread hx2 hall
  rw [← List.append_nil (waiting thread2.todo)] at htake
  obtain ⟨s3, chains3, hrelease, hinv3, hframe3⟩ := binder_release_work_ok thread2.todo htake
  have hx3 : s3.todo (.thread x) = [] := by
    rw [hframe3.todo, todo_setThread, if_pos rfl]
    rfl
  refine ⟨{ s3 with threads := s3.threads.erase x }, chains3, ?_, hinv3.freed hx3, fun y => ?_, ?_, ?_⟩
  · unfold binder_free_thread
    rw [bind_eq_of_ok (thread_ok hx), bind_eq_of_ok hsend, bind_eq_of_ok hclear, bind_eq_of_ok hfail,
      bind_eq_of_ok (thread_ok hx2), bind_eq_of_ok hrelease]
    rfl
  · simp only [OrdMap.find?_erase]
    by_cases hyx : y = x
    · simp [hyx]
    · rw [if_neg hyx, if_neg hyx, hframe3.threads, find_setThread, if_neg hyx, hframe12.threads]
  · exact hframe3.procs.trans hframe12.procs
  · exact hframe3.nodes.trans hframe12.nodes

/-- The threads go one after another. -/
theorem freeThreads_ok (xs : List ThreadId) :
    ∀ {s : State} {chains : Set Chain}, s.Inv none [] chains → (∀ x ∈ xs, x ∈ s.threads) → xs.Nodup →
      ∃ s' chains', s.freeThreads xs = .ok s' ∧ s'.Inv none [] chains' ∧ s'.procs = s.procs ∧ s'.nodes = s.nodes ∧
        ∀ x thread, s'.threads.find? x = some thread → x ∉ xs ∧ ∃ thread0, s.threads.find? x = some thread0 ∧
          thread.proc = thread0.proc := by
  induction xs with
  | nil => exact fun h _ _ => ⟨_, _, rfl, h, rfl, rfl, fun x thread hx => ⟨by simp, thread, hx, rfl⟩⟩
  | cons x xs ih =>
    intro s chains h hmem hnodup
    obtain ⟨hx, hxs⟩ := List.forall_mem_cons.mp hmem
    obtain ⟨hnew, hnodup⟩ := List.nodup_cons.mp hnodup
    obtain ⟨s1, chains1, hok1, hinv1, hframe1⟩ := binder_free_thread_ok h hx
    have hxs1 : ∀ y ∈ xs, y ∈ s1.threads := by
      intro y hy
      rw [hframe1.live]
      exact OrdMap.mem_erase.mpr ⟨ne_of_mem_of_not_mem hy hnew, hxs y hy⟩
    obtain ⟨s2, chains2, hok2, hinv2, hprocs, hnodes, hthreads⟩ := ih hinv1 hxs1 hnodup
    refine ⟨s2, chains2, (bind_eq_of_ok hok1).trans hok2, hinv2, hprocs.trans hframe1.procs,
      hnodes.trans hframe1.nodes, fun y thread hy => ?_⟩
    obtain ⟨hyxs, thread1, hy1, hproc1⟩ := hthreads y thread hy
    obtain ⟨thread0, hy0, hproc0, -⟩ := hframe1.find hy1
    obtain ⟨hyx, hy0⟩ := OrdMap.find?_of_erase hy0
    exact ⟨by simp [hyx, hyxs], thread0, hy0, hproc1.trans hproc0⟩

theorem mem_threadsOf : x ∈ s.threadsOf p ↔ ∃ thread, s.threads.find? x = some thread ∧ thread.proc = p := by
  unfold threadsOf
  rw [List.mem_map]
  constructor
  · rintro ⟨⟨y, thread⟩, he, rfl⟩
    rw [List.mem_filter] at he
    exact ⟨thread, OrdMap.find?_eq_some_iff.mpr he.1, by simpa using he.2⟩
  · rintro ⟨thread, hx, hproc⟩
    exact ⟨(x, thread), List.mem_filter.mpr ⟨OrdMap.find?_eq_some_iff.mp hx, by simpa using hproc⟩, rfl⟩

theorem nodup_threadsOf : (s.threadsOf p).Nodup := by
  have hkeys := OrdMap.keys_nodup s.threads
  exact (List.filter_sublist.map Prod.fst).nodup hkeys

/-- Work of a process is taken out of its list. -/
theorem Inv.takeProc (h : s.Inv dying [] chains) {proc : Proc} (hp : s.procs.find? p = some proc)
    (hl : waiting proc.todo = l ++ waiting rest) : (s.setProc p { proc with todo := rest }).Inv dying l chains := by
  refine ⟨⟨h.chains.of_eq rfl rfl, ?_, h.owners.setProc p _⟩, h.errors⟩
  have hq : s.todo (.proc p) = l ++ waiting rest := (todo_proc hp).trans hl
  have hsame : (s.setProc p { proc with todo := rest }).transactions = s.transactions := rfl
  have htake := h.lists.take hq hsame (by rw [todo_setProc, if_pos rfl]) fun q hq => by rw [todo_setProc, if_neg hq]
  rwa [List.append_nil] at htake

theorem Inv.releaseNodes (h : s.Inv none [] chains) (p : ProcId) : (s.releaseNodes p).Inv none [] chains := by
  refine ⟨⟨h.chains.of_eq rfl rfl, h.lists.congr rfl fun q => by cases q <;> rfl, h.owners.thread, fun n q hn => ?_⟩,
    h.errors⟩
  simp only [State.releaseNodes] at hn
  split at hn
  · cases hn
  · exact h.owners.node n q hn

/-- A process that has no thread, no node and no work left may be freed. -/
theorem Inv.closed (h : s.Inv none [] chains) (htodo : s.todo (.proc p) = [])
    (hthreads : ∀ x thread, s.threads.find? x = some thread → thread.proc ≠ p) (hnodes : ∀ n, s.nodes n ≠ some p) :
    ({ s with procs := s.procs.erase p } : State).Inv none [] chains := by
  have htodo' : ∀ q, ({ s with procs := s.procs.erase p } : State).todo q = s.todo q := by
    intro q
    cases q with
    | thread y => rfl
    | proc q =>
      by_cases hqp : q = p
      · subst hqp
        rw [htodo]
        simp [State.todo]
      · simp [State.todo, OrdMap.find?_erase, hqp]
  have hother : ∀ q, q ≠ p → q ∈ s.procs → q ∈ s.procs.erase p := fun q hqp hq => OrdMap.mem_erase.mpr ⟨hqp, hq⟩
  refine ⟨⟨h.chains.of_eq rfl rfl, h.lists.congr rfl htodo',
    fun x thread hx => hother _ (hthreads x thread hx) (h.owners.thread x thread hx), fun n q hn => ?_⟩, h.errors⟩
  refine hother q ?_ (h.owners.node n q hn)
  rintro rfl
  exact hnodes n hn

theorem binder_deferred_release_ok (h : s.Inv none [] chains) (hp : p ∈ s.procs) :
    ∃ s' chains', s.binder_deferred_release p = .ok s' ∧ s'.Inv none [] chains' := by
  have hmem : ∀ x ∈ s.threadsOf p, x ∈ s.threads := by
    intro x hx
    obtain ⟨thread, hx, -⟩ := mem_threadsOf.mp hx
    exact OrdMap.mem_of_find? hx
  obtain ⟨s1, chains1, hok1, hinv1, hprocs1, hnodes1, hthreads1⟩ := freeThreads_ok (s.threadsOf p) h hmem nodup_threadsOf
  have hp1 : p ∈ (s1.releaseNodes p).procs := by
    show p ∈ s1.procs
    rw [hprocs1]
    exact hp
  obtain ⟨proc, hproc⟩ := OrdMap.mem_iff.mp hp1
  have hall : waiting proc.todo = waiting proc.todo ++ waiting [] := (List.append_nil _).symm
  have htake := (hinv1.releaseNodes p).takeProc hproc hall
  rw [← List.append_nil (waiting proc.todo)] at htake
  obtain ⟨s3, chains3, hok3, hinv3, hframe3⟩ := binder_release_work_ok proc.todo htake
  refine ⟨{ s3 with procs := s3.procs.erase p }, chains3, ?_, hinv3.closed ?_ (fun x thread hx => ?_) fun n hn => ?_⟩
  · unfold binder_deferred_release
    rw [bind_eq_of_ok hok1]
    simp only
    rw [bind_eq_of_ok (proc_ok hproc), bind_eq_of_ok hok3]
    rfl
  · rw [hframe3.todo, todo_setProc, if_pos rfl]
    rfl
  · obtain ⟨thread1, hx1, hproc1, -⟩ := hframe3.find hx
    obtain ⟨hnot, thread0, hx0, hproc0⟩ := hthreads1 x thread1 hx1
    exact fun heq => hnot (mem_threadsOf.mpr ⟨thread0, hx0, hproc0.symm.trans (hproc1.symm.trans heq)⟩)
  · have hn1 : (s1.releaseNodes p).nodes n = some p := (congrFun hframe3.nodes n).symm.trans hn
    simp only [State.releaseNodes] at hn1
    split at hn1
    · cases hn1
    · next hne => exact hne hn1

end Exit

end State

end AnboxReboxed.Binder.Calls
