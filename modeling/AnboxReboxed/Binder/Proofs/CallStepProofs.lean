import AnboxReboxed.Binder.Proofs.CallListProofs
import AnboxReboxed.Lib.Fallible

/-!
# Proofs: what the functions of the driver do to the chains

A call that fails is answered to the thread that has made it, or else to the last one before it that is left.
-/

namespace AnboxReboxed.Binder.Calls

open AnboxReboxed.Lib

namespace State

/-- What holds at every point of a function of the driver. -/
structure Core (dying : Option ThreadId) (taken : List TransactionId) (s : State) (all : Set Chain) : Prop where
  chains : s.Chains dying all
  lists : s.Lists dying taken all
  owners : s.Owners

/-- A second error is kept only with a first one, and not by a thread that waits for a reply. -/
def Errors (s : State) : Prop :=
  ∀ x thread, s.threads.find? x = some thread →
    (thread.return_error2 ≠ .BR_OK → thread.return_error ≠ .BR_OK) ∧
    ∀ t, thread.transaction_stack = some t → s.caller t = some x → thread.return_error2 = .BR_OK

section Basic

variable {s : State} {x y : ThreadId} {t u : TransactionId} {p : ProcId} {thread thread' : Thread}
  {transaction : Transaction}

theorem thread_ok (h : s.threads.find? x = some thread) : s.thread x = .ok thread := by
  simp [State.thread, h]

theorem transaction_ok (h : s.transactions.find? t = some transaction) : s.transaction t = .ok transaction := by
  simp [State.transaction, h]

theorem proc_ok {proc : Proc} (h : s.procs.find? p = some proc) : s.proc p = .ok proc := by
  simp [State.proc, h]

theorem find_setThread : (s.setThread x thread).threads.find? y = if y = x then some thread else s.threads.find? y :=
  OrdMap.find?_insert ..

theorem find_kfree : (s.kfree t).transactions.find? u = if u = t then none else s.transactions.find? u :=
  OrdMap.find?_erase ..

theorem find_setTransaction : (s.setTransaction t transaction).transactions.find? u =
    if u = t then some transaction else s.transactions.find? u := OrdMap.find?_insert ..

@[simp] theorem setThread_transactions : (s.setThread x thread).transactions = s.transactions := rfl

@[simp] theorem kfree_threads : (s.kfree t).threads = s.threads := rfl

@[simp] theorem setTransaction_threads : (s.setTransaction t transaction).threads = s.threads := rfl

theorem mem_setThread (hx : s.threads.find? x = some thread) (thread' : Thread) :
    y ∈ (s.setThread x thread').threads ↔ y ∈ s.threads := by
  have hmem := OrdMap.mem_of_find? hx
  show y ∈ s.threads.insert x thread' ↔ _
  rw [OrdMap.mem_insert]
  constructor
  · rintro (rfl | h)
    · exact hmem
    · exact h
  · exact Or.inr

theorem Chains.setThread {chains : Set Chain} {dying : Option ThreadId} (h : s.Chains dying chains)
    (hx : s.threads.find? x = some thread) (hstack : thread'.transaction_stack = thread.transaction_stack) :
    (s.setThread x thread').Chains dying chains := by
  refine h.congr (fun _ _ _ _ => rfl) (fun _ _ hu => Or.inl hu) fun y => ?_
  rw [find_setThread]
  split
  · next hyx => simp [hyx, hx, hstack]
  · rfl

theorem Owners.setThread (h : s.Owners) (hx : s.threads.find? x = some thread) (hproc : thread'.proc = thread.proc) :
    (s.setThread x thread').Owners := by
  refine ⟨fun y thread0 hy => ?_, h.node⟩
  rw [find_setThread] at hy
  split at hy
  · cases hy
    rw [hproc]
    exact h.thread x thread hx
  · exact h.thread y thread0 hy

theorem Owners.setProc (h : s.Owners) (p : ProcId) (proc : Proc) : (s.setProc p proc).Owners := by
  have hmem : ∀ q, q ∈ s.procs → q ∈ (s.setProc p proc).procs := fun q hq => OrdMap.mem_insert.mpr (Or.inr hq)
  exact ⟨fun y thread hy => hmem _ (h.thread y thread hy), fun n q hn => hmem _ (h.node n q hn)⟩

end Basic

section Chains

variable {s : State} {chains : Set Chain} {dying : Option ThreadId} {x y : ThreadId} {t : TransactionId}
  {l : List TransactionId} {transaction : Transaction} {thread : Thread}

theorem top_sender (hy : transaction.from_thread = some y) (ht : s.transactions.find? t = some transaction) :
    s.top ⟨none, t :: l⟩ y = some t := by
  rw [top_waiting, lastSent_cons, if_pos]
  rw [caller_of_find ht, hy]

/-- A call that nobody works on is on top of the stack of its sender. -/
theorem Chains.sender (h : s.Chains dying chains) (hc : (⟨none, t :: l⟩ : Chain) ∈ chains)
    (hfind : s.transactions.find? t = some transaction) (hy : transaction.from_thread = some y)
    (hthread : s.threads.find? y = some thread) : thread.transaction_stack = some t := by
  have htop := top_sender (l := l) hy hfind
  exact (h.stack y thread hthread (h.not_gone hc htop) t).mpr ⟨_, hc, htop⟩

end Chains

namespace Core

variable {s : State} {chains : Set Chain} {dying : Option ThreadId} {taken : List TransactionId}
  {x y : ThreadId} {t : TransactionId} {l : List TransactionId} {transaction : Transaction} {thread thread' : Thread}

theorem head (h : s.Core dying taken chains) {y : Option ThreadId} (hc : (⟨y, t :: l⟩ : Chain) ∈ chains) :
    ∃ transaction, s.ChainHead ⟨y, t :: l⟩ t transaction l := by
  obtain ⟨u, transaction, l', hu⟩ := h.chains.ok _ hc
  cases hu.calls
  exact ⟨transaction, hu⟩

/-- The thread is changed in what the chains are not about. -/
theorem touch (h : s.Core dying taken chains) (hx : s.threads.find? x = some thread) (hproc : thread'.proc = thread.proc)
    (hstack : thread'.transaction_stack = thread.transaction_stack) (htodo : waiting thread'.todo = waiting thread.todo) :
    (s.setThread x thread').Core dying taken chains := by
  have hframe := Frame.setThread hx hproc htodo
  exact ⟨h.chains.setThread hx hstack, h.lists.congr rfl hframe.todo, hframe.owners h.owners⟩

end Core

/-- The last call of a chain is over and freed; only the stacks may have changed beside. -/
structure Over (s s' : State) (t : TransactionId) : Prop where
  frame : s.Frame s'
  transactions : ∀ u, s'.transactions.find? u = if u = t then none else s.transactions.find? u

/-- The call that fails next: the one before it in its chain, when the sender that could be told is gone. -/
def failsNext (transaction : Transaction) (l : List TransactionId) : List TransactionId :=
  if transaction.from_thread = none then l.head?.toList else []

theorem mem_failsNext {transaction : Transaction} {l : List TransactionId} {u : TransactionId} :
    u ∈ failsNext transaction l ↔ transaction.from_thread = none ∧ ∃ l', l = u :: l' := by
  unfold failsNext
  split
  · next hnone => simp [hnone, List.head?_eq_some_iff]
  · next hsome => simp [hsome]

theorem nodup_failsNext (transaction : Transaction) (l : List TransactionId) : (failsNext transaction l).Nodup := by
  unfold failsNext
  split
  · cases l.head? <;> simp
  · exact List.nodup_nil

namespace Over

variable {s s' : State} {chains : Set Chain} {dying : Option ThreadId} {taken : List TransactionId}
  {x : ThreadId} {t : TransactionId} {l : List TransactionId} {transaction : Transaction}

theorem keep (h : Over s s' t) (ht : t ∉ l) (u : TransactionId) (hu : u ∈ l) :
    s'.transactions.find? u = s.transactions.find? u := by
  rw [h.transactions, if_neg (ne_of_mem_of_not_mem hu ht)]

theorem changes (h : Over s s' t) (y y' : Option ThreadId) : Changes s s' ⟨y, t :: l⟩ ⟨y', l⟩ where
  new _ hu := Or.inl (List.mem_cons_of_mem _ hu)
  same u hu _ := by rw [h.transactions, if_neg (List.ne_of_not_mem_cons hu)]
  freed u hu hul := by rw [h.transactions, if_pos ((List.mem_cons.mp hu).resolve_right hul)]

/-- The top of the stack is another one for the sender of the call only. -/
theorem top (h : Over s s' t) (hsent : s.Sent t transaction l) (hx : transaction.from_thread ≠ some x) :
    s'.top ⟨transaction.from_thread, l⟩ x = s.top ⟨none, t :: l⟩ x := by
  rw [top_other hx, top_waiting, lastSent_cons, caller_of_find hsent.find, if_neg hx]
  exact lastSent_congr (h.keep hsent.new)

theorem chains_swap (h : Over s s' t) (hchains : s.Chains dying chains) (hc : (⟨none, t :: l⟩ : Chain) ∈ chains)
    (hhead : s.ChainHead ⟨none, t :: l⟩ t transaction l)
    (hstack : ∀ x thread', s'.threads.find? x = some thread' → ∃ thread, s.threads.find? x = some thread ∧
      thread'.transaction_stack = if transaction.from_thread = some x then l.head? else thread.transaction_stack) :
    s'.Chains dying (State.swap chains ⟨none, t :: l⟩ ⟨transaction.from_thread, l⟩) := by
  refine hchains.swap (Or.inl hc) (fun hne => ?_) (h.changes _ _) h.frame.live (fun x hx => ?_)
    fun x thread' hx hd => ⟨hd, ?_⟩
  · obtain ⟨u, l', rfl⟩ := List.exists_cons_of_ne_nil hne
    exact (hhead.below.chainOk hhead.sent.live).congr (h.keep hhead.sent.new) fun x _ => (h.frame.live x).mpr
  · have hne : transaction.from_thread ≠ some x :=
      fun hy => hchains.not_gone hc (top_sender hy hhead.sent.find) hx
    rw [h.top hhead.sent hne]
    exact ⟨hchains.gone x hx _ hc, fun d hd _ => hchains.gone x hx d hd⟩
  · obtain ⟨thread, hthread, hstack⟩ := hstack x thread' hx
    refine ⟨thread, hthread, ?_⟩
    by_cases hy : transaction.from_thread = some x
    · rw [if_pos hy] at hstack
      refine Or.inr ⟨hstack.trans (top_receiver (c := ⟨transaction.from_thread, l⟩) hy).symm, Or.inr ?_⟩
      rw [top_sender hy hhead.sent.find]
      simp
    · rw [if_neg hy] at hstack
      exact hchains.untouched hthread hd (Or.inl hc) (h.top hhead.sent hy) hstack

theorem core (h : Over s s' t) (hcore : s.Core dying (t :: taken) chains) (hc : (⟨none, t :: l⟩ : Chain) ∈ chains)
    (hhead : s.ChainHead ⟨none, t :: l⟩ t transaction l)
    (hstack : ∀ x thread', s'.threads.find? x = some thread' → ∃ thread, s.threads.find? x = some thread ∧
      thread'.transaction_stack = if transaction.from_thread = some x then l.head? else thread.transaction_stack) :
    s'.Core dying (failsNext transaction l ++ taken)
      (State.swap chains ⟨none, t :: l⟩ ⟨transaction.from_thread, l⟩) := by
  have hchains := h.chains_swap hcore.chains hc hhead hstack
  obtain ⟨hnot, hdistinct⟩ := List.nodup_cons.mp hcore.lists.distinct
  refine ⟨hchains, hcore.lists.swap hcore.chains hchains (h.changes _ _) h.frame (Or.inl hc)
    (fun u l' heq => ?_) ?_ fun u => ?_, h.frame.owners hcore.owners⟩
  · cases heq
    exact List.mem_cons_self
  · refine List.nodup_append.mpr ⟨nodup_failsNext transaction l, hdistinct, ?_⟩
    -- what is taken is the last of another chain
    rintro u hu v hv rfl
    obtain ⟨-, l', rfl⟩ := mem_failsNext.mp hu
    obtain ⟨transaction', hfindu, hlast⟩ := hcore.lists.find u (List.mem_cons_of_mem _ hv)
    obtain ⟨transaction'', hfindu', hcall⟩ := hcore.chains.find hc (List.mem_cons_of_mem _ List.mem_cons_self)
    cases hfindu.symm.trans hfindu'
    obtain ⟨l'', hl''⟩ := hlast hcall
    cases hcore.chains.apart _ hl'' _ hc u List.mem_cons_self (List.mem_cons_of_mem _ List.mem_cons_self)
    exact hhead.sent.new List.mem_cons_self
  · rw [List.mem_append, mem_failsNext]
    simp only [Chain.mk.injEq, List.cons.injEq, true_and, List.mem_cons]
    constructor
    · rintro (⟨hnone, l', hl'⟩ | hu)
      · exact Or.inr ⟨l', hnone, hl'⟩
      · refine Or.inl ⟨Or.inr hu, ?_⟩
        rintro ⟨l', rfl, -⟩
        exact hnot hu
    · rintro (⟨rfl | hu, hne⟩ | ⟨l', hnone, hl'⟩)
      · exact absurd ⟨l, rfl, rfl⟩ hne
      · exact Or.inr hu
      · exact Or.inl ⟨hnone, l', hl'⟩

end Over

namespace Core

variable {s : State} {chains : Set Chain} {dying : Option ThreadId} {taken : List TransactionId}
  {y : ThreadId} {t : TransactionId} {l : List TransactionId} {transaction : Transaction}

/-- A call is over that nobody works on: it is on top of the stack of its sender, and is taken from there. -/
theorem pop (h : s.Core dying (t :: taken) chains) (hc : (⟨none, t :: l⟩ : Chain) ∈ chains)
    (hfind : s.transactions.find? t = some transaction) (hy : transaction.from_thread = some y) :
    ∃ thread, s.threads.find? y = some thread ∧
      s.binder_pop_transaction (some y) t = .ok ((s.setThread y { thread with transaction_stack := l.head? }).kfree t) ∧
      ((s.setThread y { thread with transaction_stack := l.head? }).kfree t).Core dying taken
        (State.swap chains ⟨none, t :: l⟩ ⟨some y, l⟩) := by
  obtain ⟨transaction', hhead⟩ := h.head hc
  cases hfind.symm.trans hhead.sent.find
  obtain ⟨thread, hythread⟩ := OrdMap.mem_iff.mp (hhead.sent.live y hy)
  have hstack := h.chains.sender hc hfind hy hythread
  refine ⟨thread, hythread, ?_, ?_⟩
  · have hunstack : s.unstack (some y) t transaction =
        .ok (s.setThread y { thread with transaction_stack := transaction.from_parent }) := by
      unfold unstack
      simp only
      rw [bind_eq_of_ok (thread_ok hythread), bind_eq_of_ok (bugOn_ok (by simp [hstack])),
        bind_eq_of_ok (bugOn_ok (by simp [hy]))]
      rfl
    rw [hhead.sent.parent] at hunstack
    rw [binder_pop_transaction, bind_eq_of_ok (transaction_ok hfind), bind_eq_of_ok hunstack]
    rfl
  · have hset : s.Frame (s.setThread y { thread with transaction_stack := l.head? }) := Frame.setThread hythread rfl rfl
    have hover : Over s ((s.setThread y { thread with transaction_stack := l.head? }).kfree t) t :=
      ⟨hset.trans (Frame.kfree ..), fun u => find_kfree⟩
    have hcore := hover.core h hc hhead fun x thread' hx => ?_
    · rwa [hy, failsNext, if_neg (by simp [hy]), List.nil_append] at hcore
    · rw [kfree_threads, find_setThread] at hx
      split at hx
      · next hxy =>
        cases hx
        exact ⟨thread, hxy ▸ hythread, by rw [if_pos (hxy ▸ hy)]⟩
      · next hxy => exact ⟨thread', hx, by rw [hy, if_neg fun heq => hxy (Option.some.inj heq).symm]⟩

/-- The sender is gone: the call before is over as well. -/
theorem pop_lost (h : s.Core dying (t :: taken) chains) (hc : (⟨none, t :: l⟩ : Chain) ∈ chains)
    (hfind : s.transactions.find? t = some transaction) (hy : transaction.from_thread = none) :
    s.binder_pop_transaction none t = .ok (s.kfree t) ∧
      (s.kfree t).Core dying (l.head?.toList ++ taken) (State.swap chains ⟨none, t :: l⟩ ⟨none, l⟩) := by
  obtain ⟨transaction', hhead⟩ := h.head hc
  cases hfind.symm.trans hhead.sent.find
  constructor
  · unfold binder_pop_transaction
    rw [transaction_ok hfind]
    rfl
  · have hover : Over s (s.kfree t) t := ⟨Frame.kfree .., fun u => find_kfree⟩
    have hcore := hover.core h hc hhead fun x thread hx => ⟨thread, hx, by simp [hy]⟩
    rwa [hy, failsNext, if_pos hy] at hcore

end Core

end State

end AnboxReboxed.Binder.Calls
