import AnboxReboxed.Binder.TransactionStack
import AnboxReboxed.Lib.Proofs.OrdMapProofs
import Mathlib.Data.Set.Basic

/-!
# Proofs: chains of calls

The calls that have no reply yet form chains: the first call of a chain is one that a thread has made of its own accord,
and each further one is made by the thread that has received the one before it. The last call of a chain has been
received by a thread that is at work, or it waits to be received. Every stack of a thread is read off one chain.
-/

namespace AnboxReboxed.Binder.Calls

open AnboxReboxed.Lib

/-- A chain, with its last call first, and the thread that is at work on that, unless the call still waits. -/
structure Chain where
  receiver : Option ThreadId
  calls : List TransactionId

namespace State

/-- The thread that the call is to be answered to. -/
def caller (s : State) (t : TransactionId) : Option ThreadId := (s.transactions.find? t).bind Transaction.from_thread

/-- The last call that the thread has made. -/
def lastSent (s : State) (x : ThreadId) : List TransactionId → Option TransactionId
  | [] => none
  | t :: l => if s.caller t = some x then some t else s.lastSent x l

/-- The top of the stack of a thread, as far as the chain goes. -/
def top (s : State) (c : Chain) (x : ThreadId) : Option TransactionId :=
  if c.receiver = some x then c.calls.head? else s.lastSent x c.calls

/-- The call is the last of a chain that goes on with `l`. -/
structure Sent (s : State) (t : TransactionId) (transaction : Transaction) (l : List TransactionId) : Prop where
  find : s.transactions.find? t = some transaction
  call : transaction.target_node ≠ none
  parent : transaction.from_parent = l.head?
  live : ∀ x, transaction.from_thread = some x → x ∈ s.threads
  new : t ∉ l

/-- What a thread has received knows what was on its stack before. -/
def Received (s : State) (x : ThreadId) (transaction : Transaction) (l : List TransactionId) : Prop :=
  transaction.from_thread ≠ some x ∧ transaction.to_parent = s.lastSent x l

/-- The calls of a chain below its last one, which the thread `y` has made, if it is not gone. -/
inductive Served (s : State) : Option ThreadId → List TransactionId → Prop
  | nil (y : Option ThreadId) : Served s y []
  | cons {y : Option ThreadId} {t : TransactionId} {transaction : Transaction} {l : List TransactionId}
      (sent : s.Sent t transaction l) (receiver : transaction.to_thread = y)
      (received : ∀ x, y = some x → s.Received x transaction l) (below : Served s transaction.from_thread l) :
      Served s y (t :: l)

/-- The last call of a chain, and the calls below it. -/
structure ChainHead (s : State) (c : Chain) (t : TransactionId) (transaction : Transaction)
    (l : List TransactionId) : Prop where
  calls : c.calls = t :: l
  sent : s.Sent t transaction l
  below : s.Served transaction.from_thread l
  receiver : ∀ x, c.receiver = some x → x ∈ s.threads ∧ transaction.to_thread = some x ∧ s.Received x transaction l

def ChainOk (s : State) (c : Chain) : Prop := ∃ t transaction l, s.ChainHead c t transaction l

section Congr

variable {s s' : State} {x : ThreadId} {t : TransactionId} {l : List TransactionId} {c : Chain}

@[simp] theorem lastSent_nil : s.lastSent x [] = none := rfl

theorem lastSent_cons : s.lastSent x (t :: l) = if s.caller t = some x then some t else s.lastSent x l := rfl

theorem caller_of_find {transaction : Transaction} (h : s.transactions.find? t = some transaction) :
    s.caller t = transaction.from_thread := by simp [caller, h]

theorem caller_congr (h : s'.transactions.find? t = s.transactions.find? t) : s'.caller t = s.caller t := by
  simp [caller, h]

theorem lastSent_eq_some (h : s.lastSent x l = some t) : t ∈ l ∧ s.caller t = some x := by
  induction l with
  | nil => simp at h
  | cons u l ih =>
    rw [lastSent_cons] at h
    split at h
    · next hu =>
      cases h
      exact ⟨List.mem_cons_self, hu⟩
    · exact ⟨List.mem_cons_of_mem _ (ih h).1, (ih h).2⟩

theorem lastSent_eq_none : s.lastSent x l = none ↔ ∀ t ∈ l, s.caller t ≠ some x := by
  induction l with
  | nil => simp
  | cons u l ih =>
    rw [lastSent_cons, List.forall_mem_cons]
    split
    · next hu => simp [hu]
    · next hu => simp [hu, ih]

/-- What a thread has sent depends on the callers only. -/
theorem lastSent_of_caller (h : ∀ t ∈ l, s'.caller t = s.caller t) : s'.lastSent x l = s.lastSent x l := by
  induction l with
  | nil => rfl
  | cons u l ih =>
    rw [lastSent_cons, lastSent_cons, h u List.mem_cons_self, ih fun t ht => h t (List.mem_cons_of_mem _ ht)]

theorem lastSent_congr (h : ∀ t ∈ l, s'.transactions.find? t = s.transactions.find? t) :
    s'.lastSent x l = s.lastSent x l :=
  lastSent_of_caller fun t ht => caller_congr (h t ht)

theorem lastSent_eq (h : s'.transactions = s.transactions) : s'.lastSent x l = s.lastSent x l :=
  lastSent_congr fun t _ => by rw [h]

theorem top_congr (h : ∀ t ∈ c.calls, s'.transactions.find? t = s.transactions.find? t) : s'.top c x = s.top c x := by
  unfold top
  rw [lastSent_congr h]

theorem top_eq_some (h : s.top c x = some t) : t ∈ c.calls := by
  unfold top at h
  split at h
  · exact List.mem_of_head? h
  · exact (lastSent_eq_some h).1

theorem top_of_calls_nil (h : c.calls = []) : s.top c x = none := by
  unfold top
  rw [h]
  split <;> rfl

@[simp] theorem top_nil {y : Option ThreadId} : s.top ⟨y, []⟩ x = none := by
  unfold top
  split <;> rfl

theorem top_receiver (h : c.receiver = some x) : s.top c x = c.calls.head? := if_pos h

theorem top_other (h : c.receiver ≠ some x) : s.top c x = s.lastSent x c.calls := if_neg h

theorem top_waiting : s.top ⟨none, l⟩ x = s.lastSent x l := if_neg (by simp)

theorem Sent.congr {transaction : Transaction} (h : s.Sent t transaction l)
    (ht : s'.transactions.find? t = s.transactions.find? t) (hlive : ∀ x, s.caller t = some x → x ∈ s.threads → x ∈ s'.threads) :
    s'.Sent t transaction l where
  find := ht.trans h.find
  call := h.call
  parent := h.parent
  live x hx := hlive x ((caller_of_find h.find).trans hx) (h.live x hx)
  new := h.new

theorem Received.congr {transaction : Transaction} (h : s.Received x transaction l)
    (hl : ∀ t ∈ l, s'.transactions.find? t = s.transactions.find? t) : s'.Received x transaction l :=
  ⟨h.1, h.2.trans (lastSent_congr hl).symm⟩

/-- What is said of calls stands while the calls and their threads do. -/
theorem Served.congr {y : Option ThreadId} (h : s.Served y l)
    (hl : ∀ t ∈ l, s'.transactions.find? t = s.transactions.find? t)
    (hlive : ∀ t ∈ l, ∀ x, s.caller t = some x → x ∈ s.threads → x ∈ s'.threads) : s'.Served y l := by
  induction h with
  | nil y => exact .nil y
  | cons sent receiver received below ih =>
    obtain ⟨ht, hl⟩ := List.forall_mem_cons.mp hl
    obtain ⟨hlivet, hlive⟩ := List.forall_mem_cons.mp hlive
    exact .cons (sent.congr ht hlivet) receiver (fun x hx => (received x hx).congr hl) (ih hl hlive)

theorem ChainHead.congr {transaction : Transaction} (h : s.ChainHead c t transaction l)
    (hc : ∀ t ∈ c.calls, s'.transactions.find? t = s.transactions.find? t)
    (hlive : ∀ x, s.top c x ≠ none → x ∈ s.threads → x ∈ s'.threads) : s'.ChainHead c t transaction l := by
  have hcaller : ∀ u ∈ c.calls, ∀ x, s.caller u = some x → s.top c x ≠ none := by
    intro u hu x hx
    unfold top
    split
    · rw [h.calls]
      simp
    · intro hnone
      exact lastSent_eq_none.mp hnone u hu hx
  have hcalls := h.calls
  rw [hcalls] at hc hcaller
  obtain ⟨ht, hl⟩ := List.forall_mem_cons.mp hc
  obtain ⟨hlivet, hlivel⟩ := List.forall_mem_cons.mp hcaller
  refine ⟨hcalls, h.sent.congr ht fun x hx => hlive x (hlivet x hx),
    h.below.congr hl fun u hu x hx => hlive x (hlivel u hu x hx), fun x hx => ?_⟩
  obtain ⟨hmem, hto, hreceived⟩ := h.receiver x hx
  refine ⟨hlive x ?_ hmem, hto, hreceived.congr hl⟩
  rw [top_receiver hx, hcalls]
  simp

theorem ChainOk.congr (h : s.ChainOk c) (hc : ∀ t ∈ c.calls, s'.transactions.find? t = s.transactions.find? t)
    (hlive : ∀ x, s.top c x ≠ none → x ∈ s.threads → x ∈ s'.threads) : s'.ChainOk c := by
  obtain ⟨t, transaction, l, h⟩ := h
  exact ⟨t, transaction, l, h.congr hc hlive⟩

/-- Below a call that a thread has received, or that waits, is one that may be taken for the last one of its chain. -/
theorem Served.chainOk {y : Option ThreadId} (h : s.Served y (t :: l)) (hy : ∀ x, y = some x → x ∈ s.threads) :
    s.ChainOk ⟨y, t :: l⟩ := by
  cases h with
  | cons sent receiver received below =>
    refine ⟨t, _, l, rfl, sent, below, ?_⟩
    rintro x rfl
    exact ⟨hy x rfl, receiver, received x rfl⟩

theorem ChainOk.ne_nil (h : s.ChainOk c) : c.calls ≠ [] := by
  obtain ⟨t, transaction, l, h⟩ := h
  simp [h.calls]

/-- The calls of a chain are different, and there are no more of them than there are transactions. -/
theorem Served.nodup {y : Option ThreadId} (h : s.Served y l) : l.Nodup ∧ ∀ t ∈ l, t ∈ s.transactions := by
  induction h with
  | nil y => simp
  | cons sent receiver received below ih =>
    refine ⟨List.nodup_cons.mpr ⟨sent.new, ih.1⟩, List.forall_mem_cons.mpr ⟨?_, ih.2⟩⟩
    exact OrdMap.mem_of_find? sent.find

theorem Served.call {y : Option ThreadId} (h : s.Served y l) :
    ∀ t ∈ l, ∃ transaction, s.transactions.find? t = some transaction ∧ transaction.target_node ≠ none := by
  induction h with
  | nil y => simp
  | cons sent receiver received below ih => exact List.forall_mem_cons.mpr ⟨⟨_, sent.find, sent.call⟩, ih⟩

theorem ChainOk.length_le (h : s.ChainOk c) : c.calls.length ≤ s.transactions.size := by
  obtain ⟨t, transaction, l, h⟩ := h
  obtain ⟨hnodup, hmem⟩ := h.below.nodup
  have hsub : c.calls ⊆ s.transactions.keys := by
    rw [h.calls]
    intro u hu
    rw [OrdMap.mem_keys_iff]
    rcases List.mem_cons.mp hu with rfl | hu
    · exact OrdMap.mem_of_find? h.sent.find
    · exact hmem u hu
  have hlen := (List.subperm_of_subset (h.calls ▸ List.nodup_cons.mpr ⟨h.sent.new, hnodup⟩) hsub).length_le
  simpa [OrdMap.keys, OrdMap.size] using hlen

theorem ChainOk.find (h : s.ChainOk c) (ht : t ∈ c.calls) :
    ∃ transaction, s.transactions.find? t = some transaction ∧ transaction.target_node ≠ none := by
  obtain ⟨u, transaction, l, hu⟩ := h
  rw [hu.calls] at ht
  rcases List.mem_cons.mp ht with rfl | ht
  · exact ⟨transaction, hu.sent.find, hu.sent.call⟩
  · exact hu.below.call t ht

end Congr

/-- The chains after `c` has become `c'`; a chain ends with its first call. -/
def swap (chains : Set Chain) (c c' : Chain) : Set Chain := {d | (d ∈ chains ∧ d ≠ c) ∨ (d = c' ∧ c'.calls ≠ [])}

/-- The calls of a state, and the stacks that they are on. The thread `dying` is not to be found any more. -/
structure Chains (dying : Option ThreadId) (s : State) (chains : Set Chain) : Prop where
  ok : ∀ c ∈ chains, s.ChainOk c
  apart : ∀ c ∈ chains, ∀ d ∈ chains, ∀ t ∈ c.calls, t ∈ d.calls → c = d
  call : ∀ t transaction, s.transactions.find? t = some transaction → transaction.target_node ≠ none →
    ∃ c ∈ chains, t ∈ c.calls
  reply : ∀ t transaction, s.transactions.find? t = some transaction → transaction.target_node = none →
    transaction.from_thread = none
  stack : ∀ x thread, s.threads.find? x = some thread → dying ≠ some x →
    ∀ t, thread.transaction_stack = some t ↔ ∃ c ∈ chains, s.top c x = some t
  gone : ∀ x, dying = some x → ∀ c ∈ chains, s.top c x = none

/-- What a step may change that turns the chain `c` into `c'`. -/
structure Changes (s s' : State) (c c' : Chain) : Prop where
  new : ∀ t ∈ c'.calls, t ∈ c.calls ∨ s.transactions.find? t = none
  same : ∀ t, t ∉ c.calls → t ∉ c'.calls → s'.transactions.find? t = s.transactions.find? t
  freed : ∀ t, t ∈ c.calls → t ∉ c'.calls → s'.transactions.find? t = none

namespace Chains

variable {s s' : State} {chains : Set Chain} {dying dying' : Option ThreadId} {c c' : Chain} {x : ThreadId} {t : TransactionId}

/-- A thread is on the stack of one chain only. -/
theorem eq_of_top (h : s.Chains dying chains) {thread : Thread} (hx : s.threads.find? x = some thread)
    (hd : dying ≠ some x) (hc : c ∈ chains) (ht : s.top c x ≠ none) : thread.transaction_stack = s.top c x := by
  obtain ⟨t, ht⟩ := Option.ne_none_iff_exists'.mp ht
  rw [ht]
  exact (h.stack x thread hx hd t).mpr ⟨c, hc, ht⟩

/-- A thread whose stack and place in the chain stay as they are. -/
theorem untouched (h : s.Chains dying chains) {thread thread' : Thread} (hx : s.threads.find? x = some thread)
    (hd : dying ≠ some x) (hc : c ∈ chains ∨ c.calls = []) (htop : s'.top c' x = s.top c x)
    (hstack : thread'.transaction_stack = thread.transaction_stack) :
    (s.top c x = none ∧ s'.top c' x = none ∧ thread'.transaction_stack = thread.transaction_stack) ∨
      (thread'.transaction_stack = s'.top c' x ∧ (thread.transaction_stack = none ∨ s.top c x ≠ none)) := by
  rw [htop, hstack]
  by_cases hnone : s.top c x = none
  · exact Or.inl ⟨hnone, hnone, rfl⟩
  · have hmem : c ∈ chains := hc.resolve_right fun hnil => hnone (top_of_calls_nil hnil)
    exact Or.inr ⟨h.eq_of_top hx hd hmem hnone, Or.inr hnone⟩

/-- A thread that is on top of a chain is not gone. -/
theorem not_gone (h : s.Chains dying chains) (hc : c ∈ chains) (htop : s.top c x = some t) : dying ≠ some x := by
  intro hd
  exact Option.some_ne_none _ (htop.symm.trans (h.gone x hd c hc))

/-- What is in a chain is a call. -/
theorem find (h : s.Chains dying chains) (hc : c ∈ chains) (ht : t ∈ c.calls) :
    ∃ transaction, s.transactions.find? t = some transaction ∧ transaction.target_node ≠ none := (h.ok c hc).find ht

theorem ne_reply (h : s.Chains dying chains) (hc : c ∈ chains) (ht : t ∈ c.calls) {u : TransactionId}
    {reply : Transaction} (hu : s.transactions.find? u = some reply) (hnone : reply.target_node = none) : t ≠ u := by
  rintro rfl
  obtain ⟨transaction, hfind, hcall⟩ := h.find hc ht
  cases hfind.symm.trans hu
  exact hcall hnone

theorem top_eq_none (h : s.Chains dying chains) {thread : Thread} (hx : s.threads.find? x = some thread)
    (hd : dying ≠ some x) (hstack : thread.transaction_stack = none) (hc : c ∈ chains) : s.top c x = none := by
  by_contra hne
  exact hne ((h.eq_of_top hx hd hc hne).symm.trans hstack)

/-- The other chains are not about what changes. -/
theorem outside (h : s.Chains dying chains) (hc : c ∈ chains ∨ c.calls = []) (hchange : Changes s s' c c') {d : Chain}
    (hd : d ∈ chains) (hne : d ≠ c) (ht : t ∈ d.calls) : t ∉ c.calls ∧ t ∉ c'.calls := by
  have htc : t ∉ c.calls := by
    intro htc
    rcases hc with hc | hc
    · exact hne (h.apart d hd c hc t ht htc)
    · simp [hc] at htc
  refine ⟨htc, fun htc' => ?_⟩
  rcases hchange.new t htc' with htc' | hnone
  · exact htc htc'
  · obtain ⟨transaction, hfind, -⟩ := h.find hd ht
    exact Option.some_ne_none _ (hfind.symm.trans hnone)

/-- The rule for a step that changes one chain, and the stacks of the threads in it. -/
theorem swap (h : s.Chains dying chains) (hc : c ∈ chains ∨ c.calls = []) (hok : c'.calls ≠ [] → s'.ChainOk c')
    (hchange : Changes s s' c c') (hlive : ∀ x, x ∈ s'.threads ↔ x ∈ s.threads)
    (hgone : ∀ x, dying' = some x → s'.top c' x = none ∧ ∀ d ∈ chains, d ≠ c → s.top d x = none)
    (hstack : ∀ x thread', s'.threads.find? x = some thread' → dying' ≠ some x → dying ≠ some x ∧
      ∃ thread, s.threads.find? x = some thread ∧
        ((s.top c x = none ∧ s'.top c' x = none ∧ thread'.transaction_stack = thread.transaction_stack) ∨
          (thread'.transaction_stack = s'.top c' x ∧ (thread.transaction_stack = none ∨ s.top c x ≠ none)))) :
    s'.Chains dying' (State.swap chains c c') := by
  have hother : ∀ d ∈ chains, d ≠ c → ∀ t ∈ d.calls, t ∉ c.calls ∧ t ∉ c'.calls :=
    fun d hd hne t ht => h.outside hc hchange hd hne ht
  have hkeep : ∀ d ∈ chains, d ≠ c → ∀ t ∈ d.calls, s'.transactions.find? t = s.transactions.find? t :=
    fun d hd hne t ht => hchange.same t (hother d hd hne t ht).1 (hother d hd hne t ht).2
  have htop : ∀ d ∈ chains, d ≠ c → ∀ x, s'.top d x = s.top d x := fun d hd hne x => top_congr (hkeep d hd hne)
  constructor
  · rintro d (⟨hd, hne⟩ | ⟨rfl, hne⟩)
    · exact (h.ok d hd).congr (hkeep d hd hne) fun x _ => (hlive x).mpr
    · exact hok hne
  · rintro d (⟨hd, hne⟩ | ⟨rfl, -⟩) e (⟨he, hne'⟩ | ⟨rfl, -⟩) t htd hte
    · exact h.apart d hd e he t htd hte
    · exact absurd hte (hother d hd hne t htd).2
    · exact absurd htd (hother e he hne' t hte).2
    · rfl
  · intro t transaction ht hcall
    by_cases htc' : t ∈ c'.calls
    · exact ⟨c', Or.inr ⟨rfl, List.ne_nil_of_mem htc'⟩, htc'⟩
    · by_cases htc : t ∈ c.calls
      · rw [hchange.freed t htc htc'] at ht
        cases ht
      · rw [hchange.same t htc htc'] at ht
        obtain ⟨d, hd, htd⟩ := h.call t transaction ht hcall
        refine ⟨d, Or.inl ⟨hd, ?_⟩, htd⟩
        rintro rfl
        exact htc htd
  · intro t transaction ht hnone
    by_cases htc' : t ∈ c'.calls
    · obtain ⟨transaction', ht', hcall⟩ := (hok (List.ne_nil_of_mem htc')).find htc'
      cases ht.symm.trans ht'
      exact absurd hnone hcall
    · by_cases htc : t ∈ c.calls
      · rw [hchange.freed t htc htc'] at ht
        cases ht
      · rw [hchange.same t htc htc'] at ht
        exact h.reply t transaction ht hnone
  · intro x thread' hx' hd t
    obtain ⟨hd, thread, hx, ⟨hnone, hnone', heq⟩ | ⟨heq, hwas⟩⟩ := hstack x thread' hx' hd
    · rw [heq, h.stack x thread hx hd t]
      constructor
      · rintro ⟨d, hd, ht⟩
        have hne : d ≠ c := by
          rintro rfl
          exact Option.some_ne_none _ (ht.symm.trans hnone)
        exact ⟨d, Or.inl ⟨hd, hne⟩, (htop d hd hne x).trans ht⟩
      · rintro ⟨d, ⟨hd, hne⟩ | ⟨rfl, -⟩, ht⟩
        · exact ⟨d, hd, (htop d hd hne x).symm.trans ht⟩
        · exact absurd (ht.symm.trans hnone') (Option.some_ne_none _)
    · rw [heq]
      constructor
      · intro ht
        exact ⟨c', Or.inr ⟨rfl, List.ne_nil_of_mem (top_eq_some ht)⟩, ht⟩
      · rintro ⟨d, ⟨hd', hne⟩ | ⟨rfl, -⟩, ht⟩
        · exfalso
          have htd : s.top d x = some t := (htop d hd' hne x).symm.trans ht
          have hstackd := (h.stack x thread hx hd t).mpr ⟨d, hd', htd⟩
          rcases hwas with hwas | hwas
          · exact Option.some_ne_none _ (hstackd.symm.trans hwas)
          · obtain ⟨u, hu⟩ := Option.ne_none_iff_exists'.mp hwas
            rcases hc with hc | hc
            · have hstackc := (h.stack x thread hx hd u).mpr ⟨c, hc, hu⟩
              cases hstackd.symm.trans hstackc
              exact hne (h.apart d hd' c hc t (top_eq_some htd) (top_eq_some hu))
            · have := top_eq_some hu
              simp [hc] at this
        · exact ht
  · rintro x hx d (⟨hd, hne⟩ | ⟨rfl, -⟩)
    · exact (htop d hd hne x).trans ((hgone x hx).2 d hd hne)
    · exact (hgone x hx).1

/-- The calls and the stacks are all that matters. -/
theorem congr (h : s.Chains dying chains)
    (hkeep : ∀ c ∈ chains, ∀ t ∈ c.calls, s'.transactions.find? t = s.transactions.find? t)
    (hold : ∀ t transaction, s'.transactions.find? t = some transaction →
      s.transactions.find? t = some transaction ∨ (transaction.target_node = none ∧ transaction.from_thread = none))
    (hthreads : ∀ x, (s'.threads.find? x).map Thread.transaction_stack = (s.threads.find? x).map Thread.transaction_stack) :
    s'.Chains dying chains := by
  have htop : ∀ c ∈ chains, ∀ x, s'.top c x = s.top c x := fun c hc x => top_congr (hkeep c hc)
  have hlive : ∀ x, x ∈ s.threads → x ∈ s'.threads := by
    intro x hx
    obtain ⟨thread, hx⟩ := OrdMap.mem_iff.mp hx
    have := hthreads x
    rw [hx, Option.map_some] at this
    obtain ⟨thread', hx', -⟩ := Option.map_eq_some_iff.mp this
    exact OrdMap.mem_of_find? hx'
  constructor
  · exact fun c hc => (h.ok c hc).congr (hkeep c hc) fun x _ => hlive x
  · exact h.apart
  · intro t transaction ht hne
    exact h.call t transaction ((hold t transaction ht).resolve_right fun hnone => hne hnone.1) hne
  · intro t transaction ht hnone
    rcases hold t transaction ht with ht | ⟨-, hfrom⟩
    · exact h.reply t transaction ht hnone
    · exact hfrom
  · intro x thread' hx' hd t
    have := hthreads x
    rw [hx', Option.map_some] at this
    obtain ⟨thread, hx, heq⟩ := Option.map_eq_some_iff.mp this.symm
    rw [← heq, h.stack x thread hx hd t]
    exact exists_congr fun c => and_congr_right fun hc => by rw [htop c hc]
  · intro x hx c hc
    rw [htop c hc]
    exact h.gone x hx c hc

/-- The lists of work and the nodes are in no chain. -/
theorem of_eq (h : s.Chains dying chains) (htx : s'.transactions = s.transactions) (hthreads : s'.threads = s.threads) :
    s'.Chains dying chains :=
  h.congr (fun _ _ _ _ => by rw [htx]) (fun _ _ hu => Or.inl (htx ▸ hu)) fun _ => by rw [hthreads]

end Chains

end State

end AnboxReboxed.Binder.Calls
