import AnboxReboxed.Binder.Proofs.CallReleaseProofs

/-!
# Proofs: runs of calls and replies

Every step of the driver keeps the chains, as long as no thread is made to call itself. A reply then finds the thread
that waits for it, and whoever waits for a reply waits for a call that somebody is at work on, or that is in a list.
-/

namespace AnboxReboxed.Binder.Calls

open AnboxReboxed.Lib

namespace State

variable {s s' : State} {chains : Set Chain} {dying : Option ThreadId} {taken : List TransactionId}
  {x y : ThreadId} {p : ProcId} {t r : TransactionId} {l : List TransactionId} {transaction : Transaction}
  {thread thread' : Thread} {error : ReturnError}

section Fail

/-- A thread that may write is given an error. -/
theorem Inv.setError (h : s.Inv dying taken chains) (hx : s.threads.find? x = some thread)
    (hok : thread.return_error = .BR_OK) (herror : error ≠ .BR_OK) :
    (s.setThread x { thread with return_error := error }).Inv dying taken chains := by
  have hok2 := h.errors.ok hx hok
  exact ⟨h.toCore.touch hx rfl rfl rfl, h.errors.setThread (fun _ => herror) fun _ _ _ => hok2⟩

theorem fail_ok (h : s.Inv none [] chains) (hx : s.threads.find? x = some thread) (hok : thread.return_error = .BR_OK)
    (herror : error ≠ .BR_OK) :
    s.fail x none error = .ok (s.setThread x { thread with return_error := error }) ∧
      (s.setThread x { thread with return_error := error }).Inv none [] chains := by
  refine ⟨?_, h.setError hx hok herror⟩
  rw [fail, bind_eq_of_ok (thread_ok hx), bind_eq_of_ok (bugOn_ok (by simp [hok]))]
  rfl

/-- The call that was to be answered fails. -/
theorem failCall_ok (h : s.Inv none [t] chains) (hc : (⟨none, t :: l⟩ : Chain) ∈ chains)
    (hx : s.threads.find? x = some thread) (hok : thread.return_error = .BR_OK) (herror : error ≠ .BR_OK) :
    ∃ s' chains', s.fail x (some t) error = .ok s' ∧ s'.Inv none [] chains' := by
  obtain ⟨s', chains', hfail, hinv, -⟩ :=
    binder_send_failed_reply_ok herror (h.setError hx hok (show ReturnError.BR_TRANSACTION_COMPLETE ≠ .BR_OK by simp)) hc
  refine ⟨s', chains', ?_, hinv⟩
  rw [fail, bind_eq_of_ok (thread_ok hx), bind_eq_of_ok (bugOn_ok (by simp [hok]))]
  exact hfail

end Fail

section Send

/-- A thread that is at work on a chain is its receiver, and is on top of no other. -/
theorem Core.working (h : s.Core none [] chains) (hx : s.threads.find? x = some thread)
    (ht : thread.transaction_stack = some t) (hfind : s.transactions.find? t = some transaction)
    (hto : transaction.to_thread = some x) :
    ∃ l, (⟨some x, t :: l⟩ : Chain) ∈ chains ∧ s.ChainHead ⟨some x, t :: l⟩ t transaction l := by
  obtain ⟨c, hc, htop⟩ := (h.chains.stack x thread hx (by simp) t).mp ht
  have hr := h.receiver_of_top hc htop hfind hto
  rw [top_receiver hr] at htop
  obtain ⟨l, hl⟩ := List.head?_eq_some_iff.mp htop
  obtain ⟨receiver, calls⟩ := c
  cases hr
  cases hl
  obtain ⟨transaction', hhead⟩ := h.head hc
  cases hfind.symm.trans hhead.sent.find
  exact ⟨l, hc, hhead⟩

theorem inProc_ok (h : ∀ x, transaction.from_thread = some x → x ∈ s.threads) :
    ∃ found, s.inProc p transaction.from_thread = .ok found ∧ (found = true → transaction.from_thread ≠ none) := by
  cases hfrom : transaction.from_thread with
  | none => exact ⟨false, rfl, by simp⟩
  | some x =>
    obtain ⟨thread, hx⟩ := OrdMap.mem_iff.mp (h x hfrom)
    exact ⟨thread.proc == p, bind_eq_of_ok (thread_ok hx), by simp⟩

/-- The thread that is found is one that waits further down the chain. -/
theorem fromProc_ok (l : List TransactionId) :
    ∀ {y : Option ThreadId} {fuel : Nat} {a : Option ThreadId}, s.Served y l → l.length ≤ fuel →
      ∃ found, s.fromProc p fuel l.head? a = .ok found ∧ (found = a ∨ ∃ z, found = some z ∧ s.lastSent z l ≠ none) := by
  induction l with
  | nil =>
    intro y fuel acc _ _
    refine ⟨acc, ?_, Or.inl rfl⟩
    cases fuel <;> rfl
  | cons t l ih =>
    intro y fuel acc h hfuel
    obtain ⟨fuel, rfl⟩ := Nat.exists_eq_succ_of_ne_zero (Nat.ne_of_gt (Nat.lt_of_lt_of_le (Nat.succ_pos _) hfuel))
    cases h with
    | @cons _ _ transaction _ sent receiver received below =>
      obtain ⟨found, hin, hsome⟩ := inProc_ok (p := p) sent.live
      obtain ⟨result, hok, hresult⟩ := ih (a := if found then transaction.from_thread else acc) below (by simpa using hfuel)
      refine ⟨result, ?_, ?_⟩
      · rw [List.head?_cons, fromProc, bind_eq_of_ok (transaction_ok sent.find), bind_eq_of_ok hin, sent.parent]
        exact hok
      · simp only [lastSent_cons, caller_of_find sent.find]
        rcases hresult with hresult | ⟨z, rfl, hz⟩
        · cases found with
          | false => exact Or.inl hresult
          | true =>
            obtain ⟨z, hz⟩ := Option.ne_none_iff_exists'.mp (hsome rfl)
            exact Or.inr ⟨z, by rw [hresult, if_pos rfl, hz], by simp [hz]⟩
        · refine Or.inr ⟨z, rfl, ?_⟩
          split
          · simp
          · exact hz

/-- What `targetThread` says of a thread that may call: the chain it is at work on, if any, and the thread in it that is
called back. -/
theorem targetThread_ok (h : s.Core none [] chains) (hx : s.threads.find? x = some thread) :
    s.targetThread x p = .ok none ∨
    ∃ target l, s.targetThread x p = .ok (some target) ∧ thread.transaction_stack = l.head? ∧
      ((⟨some x, l⟩ : Chain) ∈ chains ∨ l = []) ∧ s.Served (some x) l ∧
      ∀ z, target = some z → s.lastSent z l ≠ none := by
  unfold targetThread
  rw [bind_eq_of_ok (thread_ok hx)]
  cases ht : thread.transaction_stack with
  | none => exact Or.inr ⟨none, [], rfl, rfl, Or.inr rfl, .nil _, by simp⟩
  | some t =>
    obtain ⟨c, hc, htop⟩ := (h.chains.stack x thread hx (by simp) t).mp ht
    obtain ⟨transaction, hfind, -⟩ := h.chains.find hc (top_eq_some htop)
    simp only
    rw [bind_eq_of_ok (transaction_ok hfind)]
    by_cases hto : transaction.to_thread = some x
    · obtain ⟨l, hl, hhead⟩ := h.working hx ht hfind hto
      have hserved := hhead.served (by simp)
      obtain ⟨found, hok, hfound⟩ := fromProc_ok (p := p) (a := none) (t :: l) hserved
        (h.chains.ok _ hl).length_le
      refine Or.inr ⟨found, t :: l, ?_, rfl, Or.inl hl, hserved, fun z hz => ?_⟩
      · rw [List.head?_cons] at hok
        rw [if_neg (by simp [hto]), bind_eq_of_ok hok]
        rfl
      · rcases hfound with hfound | ⟨z', hz', hlast⟩
        · rw [hfound] at hz
          cases hz
        · cases hz.symm.trans hz'
          exact hlast
    · exact Or.inl (if_pos hto)

/-- A list that the transaction goes to is there. -/
theorem list_add_tail_ok (h : s.Core none (t :: taken) chains) (hfind : s.transactions.find? t = some transaction)
    (hlive : ∀ z, transaction.to_thread = some z → z ∈ s.threads) (hproc : transaction.to_proc = some p)
    (hp : p ∈ s.procs)
    (hdirect : ∀ l z, (⟨none, t :: l⟩ : Chain) ∈ chains → transaction.to_thread = some z →
      transaction.from_thread ≠ some z ∧ s.lastSent z l ≠ none) :
    ∃ s', s.list_add_tail (.transaction t) transaction.to_thread p = .ok s' ∧ s'.Core none taken chains ∧
      s'.transactions = s.transactions ∧
      ∀ y, ∃ todo : List Work → List Work,
        s'.threads.find? y = (s.threads.find? y).map fun thread => { thread with todo := todo thread.todo } := by
  cases hto : transaction.to_thread with
  | some z =>
    obtain ⟨thread, hz⟩ := OrdMap.mem_iff.mp (hlive z hto)
    have htodo : (s.setThread z { thread with todo := thread.todo ++ [.transaction t] }).todo (.thread z) =
        s.todo (.thread z) ++ [t] := by
      rw [todo_setThread, if_pos rfl, todo_thread hz]
      simp
    refine ⟨s.setThread z { thread with todo := thread.todo ++ [.transaction t] }, bind_eq_of_ok (thread_ok hz),
      ⟨h.chains.setThread hz rfl, ?_, h.owners.setThread hz rfl⟩, rfl, fun y => ?_⟩
    · exact h.lists.add hfind (by simp [Transaction.place, hto]) (fun l w hl hw _ => hdirect l w hl hw) rfl htodo
        fun q hq => by rw [todo_setThread, if_neg hq]
    · by_cases hyz : y = z
      · refine ⟨fun todo => todo ++ [.transaction t], ?_⟩
        rw [find_setThread, if_pos hyz, hyz, hz]
        rfl
      · refine ⟨id, ?_⟩
        rw [find_setThread, if_neg hyz]
        simp
  | none =>
    obtain ⟨proc, hp⟩ := OrdMap.mem_iff.mp hp
    have htodo : (s.setProc p { proc with todo := proc.todo ++ [.transaction t] }).todo (.proc p) =
        s.todo (.proc p) ++ [t] := by
      rw [todo_setProc, if_pos rfl, todo_proc hp]
      simp
    refine ⟨s.setProc p { proc with todo := proc.todo ++ [.transaction t] }, bind_eq_of_ok (proc_ok hp),
      ⟨h.chains.of_eq rfl rfl, ?_, h.owners.setProc p _⟩, rfl, fun y => ⟨id, by simp [setProc]⟩⟩
    exact h.lists.add hfind (by simp [Transaction.place, hto, hproc]) (fun l w hl hw _ => hdirect l w hl hw) rfl htodo
      fun q hq => by rw [todo_setProc, if_neg hq]

/-- The transaction is put into its list, and its sender is told. -/
theorem send_ok (h : (s.setTransaction t transaction).Inv none [t] chains) (hx : x ∈ s.threads)
    (hlive : ∀ z, transaction.to_thread = some z → z ∈ s.threads) (hproc : transaction.to_proc = some p)
    (hp : p ∈ s.procs)
    (hdirect : ∀ l z, (⟨none, t :: l⟩ : Chain) ∈ chains → transaction.to_thread = some z →
      transaction.from_thread ≠ some z ∧ (s.setTransaction t transaction).lastSent z l ≠ none) :
    ∃ s', s.send x t transaction p = .ok s' ∧ s'.Inv none [] chains ∧
      s'.transactions = (s.setTransaction t transaction).transactions ∧
      ∀ y, (s'.threads.find? y).map Thread.transaction_stack = (s.threads.find? y).map Thread.transaction_stack := by
  have hfind : (s.setTransaction t transaction).transactions.find? t = some transaction := by
    rw [find_setTransaction, if_pos rfl]
  obtain ⟨s1, hok1, hcore1, htx1, htodo1⟩ := list_add_tail_ok h.toCore hfind hlive hproc hp hdirect
  obtain ⟨thread, hx⟩ := OrdMap.mem_iff.mp hx
  obtain ⟨todo, hx1⟩ := htodo1 x
  rw [setTransaction_threads, hx, Option.map_some] at hx1
  have herrors1 : s1.Errors := by
    intro y thread1 hy1
    obtain ⟨todo, hy⟩ := htodo1 y
    rw [hy1] at hy
    obtain ⟨thread0, hy0, rfl⟩ := Option.map_eq_some_iff.mp hy.symm
    obtain ⟨h1, h2⟩ := h.errors y thread0 hy0
    refine ⟨h1, fun u hu hc => h2 u hu ?_⟩
    rwa [caller_congr (s := s.setTransaction t transaction) (by rw [htx1])] at hc
  obtain ⟨s2, hs2⟩ : ∃ s2, s2 = s1.setThread x
    { thread with todo := todo thread.todo ++ [.transaction_complete] } := ⟨_, rfl⟩
  refine ⟨s2, ?_, ⟨?_, ?_⟩, ?_, fun y => ?_⟩
  · rw [send, bind_eq_of_ok hok1, list_add_tail]
    exact (bind_eq_of_ok (thread_ok hx1)).trans (congrArg Except.ok hs2.symm)
  · rw [hs2]
    exact hcore1.touch hx1 rfl rfl (by simp)
  · rw [hs2]
    obtain ⟨h1, h2⟩ := herrors1 x _ hx1
    exact herrors1.setThread h1 h2
  · rw [hs2]
    exact htx1
  · rw [hs2, find_setThread]
    split
    · next hyx =>
      rw [hyx, hx]
      rfl
    · obtain ⟨todo, hy⟩ := htodo1 y
      rw [hy, Option.map_map]
      rfl

/-- A thread that may call puts its call on its stack. -/
theorem call_ok (h : s.Inv none [] chains) (hx : s.threads.find? x = some thread) (hok : thread.return_error = .BR_OK)
    (ht : s.transactions.find? t = none) (hstack : thread.transaction_stack = l.head?)
    (hl : (⟨some x, l⟩ : Chain) ∈ chains ∨ l = []) (hserved : s.Served (some x) l)
    (hfrom : transaction.from_thread = some x) (hparent : transaction.from_parent = thread.transaction_stack)
    (hcall : transaction.target_node ≠ none) :
    ((s.setThread x { thread with transaction_stack := some t }).setTransaction t transaction).Inv none [t]
      (State.swap chains ⟨some x, l⟩ ⟨none, t :: l⟩) := by
  obtain ⟨s', hs'⟩ : ∃ s', s' = (s.setThread x { thread with transaction_stack := some t }).setTransaction t transaction :=
    ⟨_, rfl⟩
  rw [← hs']
  have hthreads : ∀ y, s'.threads.find? y =
      if y = x then some { thread with transaction_stack := some t } else s.threads.find? y := by
    intro y
    rw [hs']
    exact find_setThread
  have hfind : ∀ u, s'.transactions.find? u = if u = t then some transaction else s.transactions.find? u := by
    intro u
    rw [hs']
    exact find_setTransaction
  have hframe : s.Frame s' := by
    have hset : s.Frame (s.setThread x { thread with transaction_stack := some t }) := Frame.setThread hx rfl rfl
    rw [hs']
    exact hset.trans (Frame.setTransaction ..)
  have hnew : t ∉ l := by
    intro hmem
    obtain ⟨transaction', hfind', -⟩ := hserved.call t hmem
    cases ht.symm.trans hfind'
  have hkeep : ∀ u ∈ l, s'.transactions.find? u = s.transactions.find? u := by
    intro u hu
    rw [hfind, if_neg (ne_of_mem_of_not_mem hu hnew)]
  have hcaller : s'.caller t = some x := by
    rw [caller_of_find (show s'.transactions.find? t = some transaction by rw [hfind, if_pos rfl]), hfrom]
  have hchange : Changes s s' ⟨some x, l⟩ ⟨none, t :: l⟩ := by
    refine ⟨fun u hu => ?_, fun u _ hu => ?_, fun u hu hu' => absurd (List.mem_cons_of_mem _ hu) hu'⟩
    · rcases List.mem_cons.mp hu with rfl | hu
      · exact Or.inr ht
      · exact Or.inl hu
    · rw [hfind, if_neg (List.ne_of_not_mem_cons hu)]
  have hmem := OrdMap.mem_of_find? hx
  have hchains : s'.Chains none (State.swap chains ⟨some x, l⟩ ⟨none, t :: l⟩) := by
    refine h.chains.swap hl (fun _ => ?_) hchange hframe.live (by simp) fun y thread' hy _ => ⟨by simp, ?_⟩
    · refine ⟨t, transaction, l, rfl, ⟨by rw [hfind, if_pos rfl], hcall, hparent.trans hstack, fun z hz => ?_, hnew⟩,
        ?_, fun z hz => by cases hz⟩
      · cases hfrom.symm.trans hz
        exact (hframe.live _).mpr hmem
      · rw [hfrom]
        exact hserved.congr hkeep fun _ _ z _ => (hframe.live z).mpr
    · rw [hthreads] at hy
      split at hy
      · next hyx =>
        subst hyx
        cases hy
        refine ⟨thread, hx, Or.inr ⟨by rw [top_waiting, lastSent_cons, if_pos hcaller], ?_⟩⟩
        rw [hstack, top_receiver rfl]
        cases l with
        | nil => exact Or.inl rfl
        | cons u l => exact Or.inr (by simp)
      · next hyx =>
        have hne : some x ≠ some y := fun heq => hyx (Option.some.inj heq).symm
        have htop : s'.top ⟨none, t :: l⟩ y = s.top ⟨some x, l⟩ y := by
          rw [top_waiting, lastSent_cons, hcaller, if_neg hne, top_other hne]
          exact lastSent_congr hkeep
        exact ⟨thread', hy, h.chains.untouched hy (by simp) hl htop rfl⟩
  refine ⟨⟨hchains, h.lists.swap h.chains hchains hchange hframe hl (fun u l' heq => by cases heq)
    (by simp) fun u => ?_, hframe.owners h.owners⟩, ?_⟩
  · simp only [List.mem_singleton, List.not_mem_nil, false_and, false_or, Chain.mk.injEq, List.cons.injEq, true_and]
    constructor
    · rintro rfl
      exact ⟨l, rfl, rfl⟩
    · rintro ⟨l', rfl, -⟩
      rfl
  · refine h.errors.update (x := x) (fun y thread' hyx hy => ?_) (fun u y hyx hu => ?_) fun thread' hy => ?_
    · rwa [hthreads, if_neg hyx] at hy
    · by_cases hut : u = t
      · rw [hut, hcaller] at hu
        exact absurd (Option.some.inj hu).symm hyx
      · rwa [caller_congr (s := s) (by rw [hfind, if_neg hut])] at hu
    · rw [hthreads, if_pos rfl] at hy
      cases hy
      have hok2 := h.errors.ok hx hok
      exact ⟨(h.errors x thread hx).1, fun _ _ _ => hok2⟩

/-- A thread that answers a call takes it from its stack. -/
theorem handBack_ok (h : s.Inv none [] chains) (hx : s.threads.find? x = some thread) (hok : thread.return_error = .BR_OK)
    (hl : (⟨some x, t :: l⟩ : Chain) ∈ chains) (hhead : s.ChainHead ⟨some x, t :: l⟩ t transaction l) :
    (s.setThread x { thread with transaction_stack := transaction.to_parent }).Inv none [t]
      (State.swap chains ⟨some x, t :: l⟩ ⟨none, t :: l⟩) := by
  obtain ⟨hmem, -, hfrom, hparent⟩ := hhead.receiver x rfl
  obtain ⟨s', hs'⟩ : ∃ s', s' = s.setThread x { thread with transaction_stack := transaction.to_parent } := ⟨_, rfl⟩
  rw [← hs']
  have hthreads : ∀ y, s'.threads.find? y =
      if y = x then some { thread with transaction_stack := transaction.to_parent } else s.threads.find? y := by
    intro y
    rw [hs']
    exact find_setThread
  have htx : s'.transactions = s.transactions := by
    rw [hs']
    rfl
  have hframe : s.Frame s' := by
    rw [hs']
    exact Frame.setThread hx rfl rfl
  have hchange : Changes s s' ⟨some x, t :: l⟩ ⟨none, t :: l⟩ :=
    ⟨fun u hu => Or.inl hu, fun u _ _ => by rw [htx], fun u hu hu' => absurd hu hu'⟩
  have hcaller : s.caller t ≠ some x := by
    rw [caller_of_find hhead.sent.find]
    exact hfrom
  have hchains : s'.Chains none (State.swap chains ⟨some x, t :: l⟩ ⟨none, t :: l⟩) := by
    refine h.chains.swap (Or.inl hl) (fun _ => ?_) hchange hframe.live (by simp) fun y thread' hy _ => ⟨by simp, ?_⟩
    · have hhead' : s.ChainOk ⟨none, t :: l⟩ := ⟨t, transaction, l, rfl, hhead.sent, hhead.below, fun z hz => by cases hz⟩
      exact hhead'.congr (fun u _ => by rw [htx]) fun z _ => (hframe.live z).mpr
    · rw [hthreads] at hy
      split at hy
      · next hyx =>
        subst hyx
        cases hy
        refine ⟨thread, hx, Or.inr ⟨?_, Or.inr ?_⟩⟩
        · rw [top_waiting, lastSent_eq htx, lastSent_cons, if_neg hcaller]
          exact hparent
        · rw [top_receiver rfl]
          simp
      · next hyx =>
        have htop : s'.top ⟨none, t :: l⟩ y = s.top ⟨some x, t :: l⟩ y := by
          rw [top_waiting, lastSent_eq htx, top_other fun heq => hyx (Option.some.inj heq).symm]
        exact ⟨thread', hy, h.chains.untouched hy (by simp) (Or.inl hl) htop rfl⟩
  refine ⟨⟨hchains, h.lists.swap h.chains hchains hchange hframe (Or.inl hl) (fun u l' heq => by cases heq)
    (by simp) fun u => ?_, hframe.owners h.owners⟩, ?_⟩
  · simp only [List.mem_singleton, List.not_mem_nil, false_and, false_or, Chain.mk.injEq, List.cons.injEq, true_and]
    constructor
    · rintro rfl
      exact ⟨l, rfl, rfl⟩
    · rintro ⟨l', rfl, -⟩
      rfl
  · rw [hs']
    have hok2 := h.errors.ok hx hok
    exact h.errors.setThread (h.errors x thread hx).1 fun _ _ _ => hok2

end Send

section Steps

theorem Served.caller_live {y : Option ThreadId} (h : s.Served y l) {z : ThreadId} (hz : s.lastSent z l ≠ none) :
    z ∈ s.threads := by
  induction h with
  | nil y => simp at hz
  | cons sent receiver received below ih =>
    rw [lastSent_cons, caller_of_find sent.find] at hz
    split at hz
    · next hfrom => exact sent.live z hfrom
    · exact ih hz

/-- The thread would be the one that its call is for. -/
def callsItself (s : State) (x : ThreadId) (target : Option NodeId) : Bool :=
  match target.bind s.nodes with
  | none => false
  | some p =>
    match s.targetThread x p with
    | .ok (some (some y)) => y == x
    | _ => false

theorem transact_ok (h : s.Inv none [] chains) (hx : s.threads.find? x = some thread) (hok : thread.return_error = .BR_OK)
    (ht : s.transactions.find? t = none) {target : Option NodeId} {fails : Bool} (hself : s.callsItself x target = false) :
    ∃ s' chains', s.transact x t target fails = .ok s' ∧ s'.Inv none [] chains' := by
  have hfail : ∀ error : ReturnError, error ≠ .BR_OK →
      ∃ s' chains', s.fail x none error = .ok s' ∧ s'.Inv none [] chains' := by
    intro error herror
    obtain ⟨hok, hinv⟩ := fail_ok h hx hok herror
    exact ⟨_, chains, hok, hinv⟩
  unfold transact
  cases target with
  | none => exact hfail _ (by simp)
  | some target_node =>
    simp only
    cases hnode : s.nodes target_node with
    | none => exact hfail _ (by simp)
    | some target_proc =>
      simp only
      rcases targetThread_ok (p := target_proc) h.toCore hx with htarget | ⟨target, l, htarget, hstack, hl, hserved, hlast⟩
      · rw [bind_eq_of_ok htarget]
        exact hfail _ (by simp)
      · rw [bind_eq_of_ok htarget]
        simp only
        cases fails with
        | true => exact hfail _ (by simp)
        | false =>
          rw [if_neg (by simp), bind_eq_of_ok (thread_ok hx)]
          have hother : ∀ z, target = some z → z ≠ x := by
            rintro z rfl rfl
            simp [callsItself, hnode, htarget] at hself
          obtain ⟨transaction, htransaction⟩ : ∃ transaction : Transaction, transaction =
              { from_thread := some x, from_parent := thread.transaction_stack, to_proc := some target_proc,
                to_thread := target, target_node := some target_node } := ⟨_, rfl⟩
          have hinv := call_ok h hx hok ht hstack hl hserved
            (show transaction.from_thread = some x by rw [htransaction]) (by rw [htransaction]) (by rw [htransaction]; simp)
          have hto : transaction.to_thread = target := by rw [htransaction]
          have hdirect : ∀ l' z, (⟨none, t :: l'⟩ : Chain) ∈ State.swap chains ⟨some x, l⟩ ⟨none, t :: l⟩ →
              transaction.to_thread = some z → transaction.from_thread ≠ some z ∧
                ((s.setThread x { thread with transaction_stack := some t }).setTransaction t transaction).lastSent z l' ≠
                  none := by
            intro l' z hl' hz
            have hz := hto.symm.trans hz
            refine ⟨fun hfrom => ?_, ?_⟩
            · rw [htransaction] at hfrom
              exact hother z hz (Option.some.inj hfrom).symm
            · rcases hl' with ⟨hl', -⟩ | ⟨hl', -⟩
              · obtain ⟨transaction', hfind, -⟩ := h.chains.find hl' List.mem_cons_self
                cases ht.symm.trans hfind
              · obtain ⟨-, hcalls⟩ := Chain.mk.inj hl'
                cases hcalls
                have hkeep : ∀ u ∈ l, ((s.setThread x { thread with transaction_stack := some t }).setTransaction t
                    transaction).transactions.find? u = s.transactions.find? u := by
                  intro u hu
                  rw [find_setTransaction, if_neg]
                  · rfl
                  · rintro rfl
                    obtain ⟨transaction', hfind, -⟩ := hserved.call u hu
                    cases ht.symm.trans hfind
                rw [lastSent_congr hkeep]
                exact hlast z hz
          obtain ⟨s', hsend, hinv', -, -⟩ := send_ok (x := x) (p := target_proc) hinv
            ((mem_setThread hx _).mpr (OrdMap.mem_of_find? hx))
            (fun z hz => (mem_setThread hx _).mpr (hserved.caller_live (hlast z (hto.symm.trans hz))))
            (by rw [htransaction]) (h.owners.node _ _ hnode) hdirect
          refine ⟨s', _, ?_, hinv'⟩
          rw [← htransaction]
          exact hsend

/-- A call is over that nobody works on, and its sender has no more errors than before. -/
theorem Inv.pop (h : s.Inv dying (t :: taken) chains) (hc : (⟨none, t :: l⟩ : Chain) ∈ chains)
    (hfind : s.transactions.find? t = some transaction) (hy : transaction.from_thread = some y) :
    ∃ thread, s.threads.find? y = some thread ∧ thread.transaction_stack = some t ∧
      s.binder_pop_transaction (some y) t = .ok ((s.setThread y { thread with transaction_stack := l.head? }).kfree t) ∧
      ((s.setThread y { thread with transaction_stack := l.head? }).kfree t).Inv dying taken
        (State.swap chains ⟨none, t :: l⟩ ⟨some y, l⟩) := by
  obtain ⟨thread, hthread, hpop, hcore⟩ := h.toCore.pop hc hfind hy
  have hstack := h.chains.sender hc hfind hy hthread
  obtain ⟨h1, h2⟩ := h.errors y thread hthread
  have hok2 := h2 t hstack ((caller_of_find hfind).trans hy)
  have herrors : (s.setThread y { thread with transaction_stack := l.head? }).Errors :=
    h.errors.setThread h1 fun _ _ _ => hok2
  exact ⟨thread, hthread, hstack, hpop, hcore, herrors.kfree t⟩

/-- A reply is in no chain, and nobody has sent it. -/
theorem Inv.addReply (h : s.Inv none [] chains) (ht : s.transactions.find? t = none)
    (hnone : transaction.target_node = none) (hfrom : transaction.from_thread = none) :
    (s.setTransaction t transaction).Inv none [t] chains := by
  refine ⟨⟨h.chains.congr (fun c hc u hu => ?_) (fun u transaction' hu => ?_) fun _ => rfl,
    h.lists.reply h.chains ht hnone, (Frame.setTransaction ..).owners h.owners⟩, ?_⟩
  · obtain ⟨transaction', hfindu, -⟩ := h.chains.find hc hu
    rw [find_setTransaction, if_neg]
    rintro rfl
    cases ht.symm.trans hfindu
  · rw [find_setTransaction] at hu
    split at hu
    · cases hu
      exact Or.inr ⟨hnone, hfrom⟩
    · exact Or.inl hu
  · intro z thread' hz
    obtain ⟨h1, h2⟩ := h.errors z thread' hz
    refine ⟨h1, fun u hu hcaller => h2 u hu ?_⟩
    by_cases hut : u = t
    · have hfind : (s.setTransaction t transaction).transactions.find? t = some transaction := by
        rw [find_setTransaction, if_pos rfl]
      rw [hut, caller_of_find hfind, hfrom] at hcaller
      cases hcaller
    · rwa [caller_congr (s := s) (by rw [find_setTransaction, if_neg hut])] at hcaller

/-- What a reply comes to that does not fail. -/
structure Replied (s s' : State) (x : ThreadId) (t : TransactionId) (call : TransactionId) (transaction : Transaction)
    (y : ThreadId) : Prop where
  waiting : t ∈ s'.todo (.thread y)
  answer : ∃ transaction, s'.transactions.find? t = some transaction ∧ transaction.target_node = none
  caller : (s'.threads.find? y).map Thread.transaction_stack = some transaction.from_parent
  replier : (s'.threads.find? x).map Thread.transaction_stack = some transaction.to_parent
  other : ∀ z, z ≠ x → z ≠ y →
    (s'.threads.find? z).map Thread.transaction_stack = (s.threads.find? z).map Thread.transaction_stack
  freed : s'.transactions.find? call = none

/-- A reply to a call whose sender is left: the sender waits for that reply. -/
theorem reply_to (h : s.Inv none [] chains) (hx : s.threads.find? x = some thread) (hok : thread.return_error = .BR_OK)
    (ht : s.transactions.find? t = none) (hstack : thread.transaction_stack = some r)
    (hfind : s.transactions.find? r = some transaction) (hto : transaction.to_thread = some x)
    (hy : transaction.from_thread = some y) (fails : Bool) :
    (∃ target, s.threads.find? y = some target ∧ target.transaction_stack = some r) ∧
    ∃ s' chains', s.reply x t fails = .ok s' ∧ s'.Inv none [] chains' ∧
      (fails = false → Replied s s' x t r transaction y) := by
  obtain ⟨l, hl, hhead⟩ := h.toCore.working hx hstack hfind hto
  obtain ⟨-, -, hne, -⟩ := hhead.receiver x rfl
  have hyx : y ≠ x := by
    rintro rfl
    exact hne hy
  obtain ⟨s1, hs1⟩ : ∃ s1, s1 = s.setThread x { thread with transaction_stack := transaction.to_parent } := ⟨_, rfl⟩
  have hinv1 := handBack_ok h hx hok hl hhead
  rw [← hs1] at hinv1
  have hc1 : (⟨none, r :: l⟩ : Chain) ∈ State.swap chains ⟨some x, r :: l⟩ ⟨none, r :: l⟩ := Or.inr ⟨rfl, by simp⟩
  have hx1 : s1.threads.find? x = some { thread with transaction_stack := transaction.to_parent } := by
    rw [hs1, find_setThread, if_pos rfl]
  have hfind1 : s1.transactions.find? r = some transaction := by
    rw [hs1]
    exact hfind
  obtain ⟨target, htarget, htop, hpop, hinv2⟩ := hinv1.pop hc1 hfind1 hy
  have htarget0 : s.threads.find? y = some target := by
    rw [hs1, find_setThread, if_neg hyx] at htarget
    exact htarget
  refine ⟨⟨target, htarget0, htop⟩, ?_⟩
  unfold reply
  rw [bind_eq_of_ok (thread_ok hx), hstack]
  simp only
  rw [bind_eq_of_ok (transaction_ok hfind), if_neg (by simp [hto]), ← hs1, hy]
  simp only
  rw [bind_eq_of_ok (thread_ok htarget), if_neg (by simp [htop])]
  cases fails with
  | true =>
    obtain ⟨s', chains', hfail, hinv'⟩ := failCall_ok hinv1 hc1 hx1 hok
      (show ReturnError.BR_FAILED_REPLY ≠ .BR_OK by simp)
    exact ⟨s', chains', hfail, hinv', by simp⟩
  | false =>
    rw [if_neg (by simp), bind_eq_of_ok hpop]
    obtain ⟨s2, hs2⟩ : ∃ s2, s2 = (s1.setThread y { target with transaction_stack := l.head? }).kfree r := ⟨_, rfl⟩
    rw [← hs2] at hinv2 ⊢
    have hthreads2 : ∀ z, s2.threads.find? z =
        if z = y then some { target with transaction_stack := l.head? } else s1.threads.find? z := by
      intro z
      rw [hs2]
      exact find_setThread
    have hrt : r ≠ t := by
      rintro rfl
      cases ht.symm.trans hfind
    have ht2 : s2.transactions.find? t = none := by
      rw [hs2, find_kfree, if_neg hrt.symm, setThread_transactions, hs1]
      exact ht
    have hframe2 : s.Frame s2 := by
      have hset1 : s.Frame s1 := by
        rw [hs1]
        exact Frame.setThread hx rfl rfl
      have hset2 : s1.Frame (s1.setThread y { target with transaction_stack := l.head? }) :=
        Frame.setThread htarget rfl rfl
      rw [hs2]
      exact hset1.trans (hset2.trans (Frame.kfree ..))
    obtain ⟨reply, hreply⟩ : ∃ reply : Transaction, reply =
      { from_thread := none, to_proc := some target.proc, to_thread := some y, target_node := none } := ⟨_, rfl⟩
    have hnone : reply.target_node = none := by rw [hreply]
    have hinv3 := hinv2.addReply ht2 hnone (by rw [hreply])
    obtain ⟨s', hsend, hinv', htx', hstacks'⟩ := send_ok (x := x) (p := target.proc) hinv3
      ((hframe2.live x).mpr (OrdMap.mem_of_find? hx))
      (fun z hz => (hframe2.live z).mpr (by
        rw [hreply] at hz
        cases hz
        exact OrdMap.mem_of_find? htarget0))
      (by rw [hreply]) (hframe2.procs ▸ h.owners.thread y target htarget0) (fun l' z hl' _ =>
        -- a reply is in no chain
        absurd rfl (hinv3.chains.ne_reply hl' (List.mem_cons_self : t ∈ (⟨none, t :: l'⟩ : Chain).calls)
          (by rw [find_setTransaction, if_pos rfl]) hnone))
    rw [hreply] at hsend htx'
    have hfind' : s'.transactions.find? t = some reply := by
      rw [htx', find_setTransaction, if_pos rfl, hreply]
    refine ⟨s', _, hsend, hinv', fun _ => ⟨?_, ⟨reply, hfind', hnone⟩, ?_, ?_, fun z hzx hzy => ?_, ?_⟩⟩
    · obtain ⟨q, hq⟩ := (hinv'.lists.waits t reply hfind' (Or.inl hnone)).resolve_left (by simp)
      obtain ⟨-, reply', hfind'', hplace, -⟩ := hinv'.lists.mem q t hq
      cases hfind'.symm.trans hfind''
      rw [hreply] at hplace
      cases hplace
      exact hq
    · rw [hstacks', hthreads2, if_pos rfl, hhead.sent.parent]
      rfl
    · rw [hstacks', hthreads2, if_neg hyx.symm, hx1]
      rfl
    · rw [hstacks', hthreads2, if_neg hzy, hs1, find_setThread, if_neg hzx]
    · rw [htx', find_setTransaction, if_neg hrt, hs2, find_kfree, if_pos rfl]

theorem reply_ok (h : s.Inv none [] chains) (hx : s.threads.find? x = some thread) (hok : thread.return_error = .BR_OK)
    (ht : s.transactions.find? t = none) (fails : Bool) :
    ∃ s' chains', s.reply x t fails = .ok s' ∧ s'.Inv none [] chains' := by
  have hfail : ∃ s' chains', s.fail x none .BR_FAILED_REPLY = .ok s' ∧ s'.Inv none [] chains' := by
    obtain ⟨hok, hinv⟩ := fail_ok h hx hok (show ReturnError.BR_FAILED_REPLY ≠ .BR_OK by simp)
    exact ⟨_, chains, hok, hinv⟩
  cases hstack : thread.transaction_stack with
  | none =>
    unfold reply
    rw [bind_eq_of_ok (thread_ok hx), hstack]
    exact hfail
  | some r =>
    obtain ⟨c, hc, htop⟩ := (h.chains.stack x thread hx (by simp) r).mp hstack
    obtain ⟨transaction, hfind, -⟩ := h.chains.find hc (top_eq_some htop)
    by_cases hto : transaction.to_thread = some x
    · cases hy : transaction.from_thread with
      | some y =>
        obtain ⟨-, s', chains', hreply, hinv, -⟩ := reply_to h hx hok ht hstack hfind hto hy fails
        exact ⟨s', chains', hreply, hinv⟩
      | none =>
        obtain ⟨l, hl, hhead⟩ := h.toCore.working hx hstack hfind hto
        have hinv1 := handBack_ok h hx hok hl hhead
        have hx1 : (s.setThread x { thread with transaction_stack := transaction.to_parent }).threads.find? x =
            some { thread with transaction_stack := transaction.to_parent } := by
          rw [find_setThread, if_pos rfl]
        obtain ⟨s', chains', hfail, hinv'⟩ := failCall_ok hinv1 (Or.inr ⟨rfl, by simp⟩) hx1 hok
          (show ReturnError.BR_DEAD_REPLY ≠ .BR_OK by simp)
        refine ⟨s', chains', ?_, hinv'⟩
        unfold reply
        rw [bind_eq_of_ok (thread_ok hx), hstack]
        simp only
        rw [bind_eq_of_ok (transaction_ok hfind), if_neg (by simp [hto]), hy]
        exact hfail
    · unfold reply
      rw [bind_eq_of_ok (thread_ok hx), hstack]
      simp only
      rw [bind_eq_of_ok (transaction_ok hfind), if_pos hto]
      exact hfail

end Steps

section Read

/-- A thread takes a call only when it does not wait itself, or when it waits further down the same chain. -/
def Ready (s : State) (chains : Set Chain) (x : ThreadId) (thread : Thread) (t : TransactionId) : Prop :=
  ∀ l transaction, (⟨none, t :: l⟩ : Chain) ∈ chains → s.transactions.find? t = some transaction →
    transaction.from_thread ≠ some x ∧ thread.transaction_stack = s.lastSent x l

theorem Ready.congr (h : s.Ready chains x thread t) (hsame : s'.transactions = s.transactions)
    (hstack : thread'.transaction_stack = thread.transaction_stack) : s'.Ready chains x thread' t := by
  intro l transaction hl hfind
  rw [hsame] at hfind
  rw [lastSent_eq hsame, hstack]
  exact h l transaction hl hfind

theorem ready_thread (h : s.Core none [] chains) (hx : s.threads.find? x = some thread) (ht : t ∈ s.todo (.thread x)) :
    s.Ready chains x thread t := by
  intro l transaction hl hfind
  obtain ⟨-, transaction', hfind', hplace, -⟩ := h.lists.mem _ t ht
  cases hfind.symm.trans hfind'
  have hto : transaction.to_thread = some x := by
    unfold Transaction.place at hplace
    split at hplace
    · next z hz =>
      cases hplace
      exact hz
    · cases hp : transaction.to_proc <;> simp [hp] at hplace
  obtain ⟨hfrom, hlast⟩ := h.lists.direct t l transaction x hl hfind (by simp) hto (by simp)
  have htop : s.top ⟨none, t :: l⟩ x = s.lastSent x l := by
    rw [top_waiting, lastSent_cons, if_neg]
    rw [caller_of_find hfind]
    exact hfrom
  refine ⟨hfrom, ?_⟩
  rw [← htop] at hlast ⊢
  exact h.chains.eq_of_top hx (by simp) hl hlast

theorem ready_proc (h : s.Core none [] chains) (hx : s.threads.find? x = some thread)
    (hstack : thread.transaction_stack = none) : s.Ready chains x thread t := by
  intro l transaction hl hfind
  have htop := h.chains.top_eq_none hx (by simp) hstack hl
  rw [top_waiting, lastSent_cons, caller_of_find hfind] at htop
  split at htop
  · cases htop
  · next hfrom => exact ⟨hfrom, hstack.trans htop.symm⟩

theorem nextWork_ok (h : s.Inv none [] chains) (hx : s.threads.find? x = some thread) :
    s.nextWork x = .ok none ∨
    (∃ s', s.nextWork x = .ok (some (.transaction_complete, s')) ∧ s'.Inv none [] chains) ∨
    ∃ t s' thread', s.nextWork x = .ok (some (.transaction t, s')) ∧ s'.Inv none [t] chains ∧
      s'.threads.find? x = some thread' ∧ s'.Ready chains x thread' t := by
  unfold nextWork
  rw [bind_eq_of_ok (thread_ok hx)]
  cases htodo : thread.todo with
  | cons w rest =>
    cases w with
    | transaction_complete =>
      have hl : waiting thread.todo = [] ++ waiting rest := by rw [htodo, waiting_complete, List.nil_append]
      exact Or.inr (Or.inl ⟨_, rfl, h.takeThread hx hl⟩)
    | transaction t =>
      have hl : waiting thread.todo = [t] ++ waiting rest := by rw [htodo, waiting_transaction, List.singleton_append]
      have ht : t ∈ s.todo (.thread x) := by
        rw [todo_thread hx, hl]
        exact List.mem_append_left _ List.mem_cons_self
      have hx' : (s.setThread x { thread with todo := rest }).threads.find? x = some { thread with todo := rest } := by
        rw [find_setThread, if_pos rfl]
      exact Or.inr (Or.inr ⟨t, _, _, rfl, h.takeThread hx hl, hx', (ready_thread h.toCore hx ht).congr rfl rfl⟩)
  | nil =>
    simp only
    by_cases hstack : thread.transaction_stack = none
    · obtain ⟨proc, hp⟩ := OrdMap.mem_iff.mp (h.owners.thread x thread hx)
      rw [if_neg (by simp [hstack]), bind_eq_of_ok (proc_ok hp)]
      cases hptodo : proc.todo with
      | nil => exact Or.inl rfl
      | cons w rest =>
        cases w with
        | transaction_complete =>
          have hl : waiting proc.todo = [] ++ waiting rest := by rw [hptodo, waiting_complete, List.nil_append]
          exact Or.inr (Or.inl ⟨_, rfl, h.takeProc hp hl⟩)
        | transaction t =>
          have hl : waiting proc.todo = [t] ++ waiting rest := by
            rw [hptodo, waiting_transaction, List.singleton_append]
          exact Or.inr (Or.inr ⟨t, _, thread, rfl, h.takeProc hp hl, hx, (ready_proc h.toCore hx hstack).congr rfl rfl⟩)
    · exact Or.inl (if_pos hstack)

end Read

section Receive

/-- What changes when a thread receives a call: the call is on top of its stack, and knows what was there before. -/
structure Receives (s s' : State) (x : ThreadId) (t : TransactionId) (thread : Thread) (transaction : Transaction) :
    Prop where
  frame : s.Frame s'
  threads : ∀ y, s'.threads.find? y =
    if y = x then some { thread with transaction_stack := some t } else s.threads.find? y
  transactions : ∀ u, s'.transactions.find? u =
    if u = t then some { transaction with to_parent := thread.transaction_stack, to_thread := some x }
    else s.transactions.find? u

theorem receives (hx : s.threads.find? x = some thread) (t : TransactionId) (transaction : Transaction) :
    Receives s ((s.setTransaction t { transaction with
      to_parent := thread.transaction_stack, to_thread := some x }).setThread x
        { thread with transaction_stack := some t }) x t thread transaction := by
  refine ⟨(Frame.setTransaction ..).trans (Frame.setThread hx rfl rfl), fun y => find_setThread, fun u => ?_⟩
  exact find_setTransaction

namespace Receives

theorem self (h : Receives s s' x t thread transaction) : s'.transactions.find? t =
    some { transaction with to_parent := thread.transaction_stack, to_thread := some x } := by
  rw [h.transactions, if_pos rfl]

theorem other (h : Receives s s' x t thread transaction) {u : TransactionId} (hu : u ≠ t) :
    s'.transactions.find? u = s.transactions.find? u := by
  rw [h.transactions, if_neg hu]

theorem changes (h : Receives s s' x t thread transaction) (y y' : Option ThreadId) :
    Changes s s' ⟨y, t :: l⟩ ⟨y', t :: l⟩ where
  new _ hu := Or.inl hu
  same _ hu _ := h.other (List.ne_of_not_mem_cons hu)
  freed _ hu hu' := absurd hu hu'

theorem caller (h : Receives s s' x t thread transaction) (hfind : s.transactions.find? t = some transaction)
    (u : TransactionId) : s'.caller u = s.caller u := by
  by_cases hut : u = t
  · rw [hut, caller_of_find hfind, caller_of_find h.self]
  · exact caller_congr (h.other hut)

/-- The thread has become the receiver of the chain. -/
theorem chainOk (h : Receives s s' x t thread transaction) (hhead : s.ChainHead ⟨none, t :: l⟩ t transaction l)
    (hx : s.threads.find? x = some thread) (hfrom : transaction.from_thread ≠ some x)
    (hstack : thread.transaction_stack = s.lastSent x l) : s'.ChainOk ⟨some x, t :: l⟩ := by
  have hlive : ∀ z, z ∈ s.threads → z ∈ s'.threads := fun z => (h.frame.live z).mpr
  have hkeep : ∀ u ∈ l, s'.transactions.find? u = s.transactions.find? u :=
    fun u hu => h.other (ne_of_mem_of_not_mem hu hhead.sent.new)
  refine ⟨t, _, l, rfl, ⟨h.self, hhead.sent.call, hhead.sent.parent, fun z hz => hlive z (hhead.sent.live z hz),
    hhead.sent.new⟩, hhead.below.congr hkeep fun _ _ z _ => hlive z, fun z hz => ?_⟩
  cases hz
  refine ⟨hlive x (OrdMap.mem_of_find? hx), rfl, hfrom, ?_⟩
  rw [lastSent_congr hkeep]
  exact hstack

theorem chains_swap (h : Receives s s' x t thread transaction) (hchains : s.Chains none chains)
    (hl : (⟨none, t :: l⟩ : Chain) ∈ chains) (hhead : s.ChainHead ⟨none, t :: l⟩ t transaction l)
    (hx : s.threads.find? x = some thread) (hfrom : transaction.from_thread ≠ some x)
    (hstack : thread.transaction_stack = s.lastSent x l) :
    s'.Chains none (State.swap chains ⟨none, t :: l⟩ ⟨some x, t :: l⟩) := by
  have hfind := hhead.sent.find
  have htop : s.top ⟨none, t :: l⟩ x = thread.transaction_stack := by
    rw [top_waiting, lastSent_cons, caller_of_find hfind, if_neg hfrom, hstack]
  refine hchains.swap (Or.inl hl) (fun _ => h.chainOk hhead hx hfrom hstack) (h.changes _ _) h.frame.live (by simp)
    fun y thread' hy _ => ⟨by simp, ?_⟩
  rw [h.threads] at hy
  split at hy
  · next hyx =>
    subst hyx
    cases hy
    refine ⟨thread, hx, Or.inr ⟨by rw [top_receiver rfl]; rfl, ?_⟩⟩
    rw [htop]
    exact em _
  · next hyx =>
    refine ⟨thread', hy, ?_⟩
    have htop' : s'.top ⟨some x, t :: l⟩ y = s.top ⟨none, t :: l⟩ y := by
      rw [top_waiting, top_other fun heq => hyx (Option.some.inj heq).symm]
      exact lastSent_of_caller fun u _ => h.caller hfind u
    exact hchains.untouched hy (by simp) (Or.inl hl) htop' rfl

theorem inv (h : Receives s s' x t thread transaction) (hinv : s.Inv none [t] chains)
    (hl : (⟨none, t :: l⟩ : Chain) ∈ chains) (hhead : s.ChainHead ⟨none, t :: l⟩ t transaction l)
    (hx : s.threads.find? x = some thread) (hfrom : transaction.from_thread ≠ some x)
    (hstack : thread.transaction_stack = s.lastSent x l) :
    s'.Inv none [] (State.swap chains ⟨none, t :: l⟩ ⟨some x, t :: l⟩) := by
  have hfind := hhead.sent.find
  have hchains := h.chains_swap hinv.chains hl hhead hx hfrom hstack
  refine ⟨⟨hchains, hinv.lists.swap hinv.chains hchains (h.changes _ _) h.frame (Or.inl hl)
    (fun u l' heq => ?_) List.nodup_nil fun u => ?_, h.frame.owners hinv.owners⟩, ?_⟩
  · cases heq
    exact List.mem_cons_self
  · simp only [List.not_mem_nil, List.mem_singleton, Chain.mk.injEq, List.cons.injEq, true_and, false_iff, not_or]
    constructor
    · rintro ⟨rfl, hne⟩
      exact hne ⟨l, rfl, rfl⟩
    · rintro ⟨l', h0, -⟩
      cases h0
  · refine hinv.errors.update (x := x) (fun y thread' hyx hy => ?_) (fun u y _ hu => h.caller hfind u ▸ hu)
      fun thread' hy => ?_
    · rwa [h.threads, if_neg hyx] at hy
    · rw [h.threads, if_pos rfl] at hy
      cases hy
      refine ⟨(hinv.errors x thread hx).1, fun u hu hc => ?_⟩
      cases hu
      rw [h.caller hfind, caller_of_find hfind] at hc
      exact absurd hc hfrom

end Receives

/-- The thread is at work on a call that it receives. -/
theorem receive_ok (h : s.Inv none [t] chains) (hx : s.threads.find? x = some thread) (hready : s.Ready chains x thread t) :
    ∃ s' chains', s.receive x t = .ok s' ∧ s'.Inv none [] chains' := by
  obtain ⟨transaction, hfind, hlast⟩ := h.lists.find t List.mem_cons_self
  unfold receive
  rw [bind_eq_of_ok (transaction_ok hfind)]
  by_cases hnone : transaction.target_node = none
  · have hlive : ∀ z, transaction.from_thread = some z → z ∈ s.threads := by
      intro z hz
      rw [h.chains.reply t transaction hfind hnone] at hz
      cases hz
    obtain ⟨found, hin, -⟩ := inProc_ok (p := 0) hlive
    rw [bind_eq_of_ok hin, if_pos hnone]
    exact ⟨s.kfree t, chains, rfl, h.free hfind hnone⟩
  · obtain ⟨l, hl⟩ := hlast hnone
    obtain ⟨transaction', hhead⟩ := h.toCore.head hl
    cases hfind.symm.trans hhead.sent.find
    obtain ⟨found, hin, -⟩ := inProc_ok (p := 0) hhead.sent.live
    obtain ⟨hfrom, hstack⟩ := hready l transaction hl hfind
    rw [bind_eq_of_ok hin, if_neg hnone, bind_eq_of_ok (thread_ok hx)]
    exact ⟨_, _, rfl, (receives hx t transaction).inv h hl hhead hx hfrom hstack⟩

theorem binder_thread_read_ok (h : s.Inv none [] chains) (hx : s.threads.find? x = some thread) (room : Bool) :
    ∃ s' chains', s.binder_thread_read x room = .ok s' ∧ s'.Inv none [] chains' := by
  unfold binder_thread_read
  rw [bind_eq_of_ok (thread_ok hx)]
  by_cases hok : thread.return_error = .BR_OK
  · rw [if_neg (by simp [hok])]
    rcases nextWork_ok h hx with hnext | ⟨s', hnext, hinv⟩ | ⟨t, s', thread', hnext, hinv, hx', hready⟩
    · rw [bind_eq_of_ok hnext]
      exact ⟨s, chains, rfl, h⟩
    · rw [bind_eq_of_ok hnext]
      exact ⟨s', chains, rfl, hinv⟩
    · rw [bind_eq_of_ok hnext]
      exact receive_ok hinv hx' hready
  · rw [if_pos hok]
    split
    · exact ⟨s, chains, rfl, h⟩
    · exact ⟨_, chains, rfl, h.toCore.touch hx rfl rfl rfl, h.errors.setThread (fun hne => absurd rfl hne) fun _ _ _ => rfl⟩

end Receive

end State

end AnboxReboxed.Binder.Calls
