import AnboxReboxed.Binder.Proofs.CallChainProofs

/-!
# Proofs: transactions that wait

A transaction that has not been received yet is in one list of work, that of the thread or of the process that it is
for. Between the lists, while the driver works on it, it is among the transactions that have been taken out.
-/

namespace AnboxReboxed.Binder.Calls

open AnboxReboxed.Lib

/-- The transactions in a list of work. -/
def waiting (l : List Work) : List TransactionId :=
  l.filterMap fun w =>
    match w with
    | .transaction t => some t
    | .transaction_complete => none

@[simp] theorem waiting_nil : waiting [] = [] := rfl

@[simp] theorem waiting_transaction (t : TransactionId) (l : List Work) : waiting (.transaction t :: l) = t :: waiting l := rfl

@[simp] theorem waiting_complete (l : List Work) : waiting (.transaction_complete :: l) = waiting l := rfl

@[simp] theorem waiting_append (l l' : List Work) : waiting (l ++ l') = waiting l ++ waiting l' := by simp [waiting]

/-- Where a transaction waits. -/
inductive Place where
  | thread (x : ThreadId)
  | proc (p : ProcId)
  deriving DecidableEq

def Transaction.place (transaction : Transaction) : Option Place :=
  match transaction.to_thread with
  | some x => some (.thread x)
  | none => transaction.to_proc.map .proc

namespace State

def todo (s : State) : Place → List TransactionId
  | .thread x => ((s.threads.find? x).map fun thread => waiting thread.todo).getD []
  | .proc p => ((s.procs.find? p).map fun proc => waiting proc.todo).getD []

theorem todo_setThread (s : State) (x : ThreadId) (thread : Thread) (q : Place) :
    (s.setThread x thread).todo q = if q = .thread x then waiting thread.todo else s.todo q := by
  cases q with
  | thread y => by_cases h : y = x <;> simp [todo, setThread, OrdMap.find?_insert, h]
  | proc p => simp [todo, setThread]

theorem todo_setProc (s : State) (p : ProcId) (proc : Proc) (q : Place) :
    (s.setProc p proc).todo q = if q = .proc p then waiting proc.todo else s.todo q := by
  cases q with
  | thread y => simp [todo, setProc]
  | proc q => by_cases h : q = p <;> simp [todo, setProc, OrdMap.find?_insert, h]

theorem todo_thread {s : State} {x : ThreadId} {thread : Thread} (h : s.threads.find? x = some thread) :
    s.todo (.thread x) = waiting thread.todo := by simp [todo, h]

theorem todo_proc {s : State} {p : ProcId} {proc : Proc} (h : s.procs.find? p = some proc) :
    s.todo (.proc p) = waiting proc.todo := by simp [todo, h]

theorem mem_waiting {l : List Work} {t : TransactionId} : t ∈ waiting l ↔ .transaction t ∈ l := by
  unfold waiting
  rw [List.mem_filterMap]
  constructor
  · rintro ⟨w, hw, heq⟩
    cases w with
    | transaction u =>
      cases heq
      exact hw
    | transaction_complete => cases heq
  · exact fun h => ⟨_, h, rfl⟩

/-- What a step leaves alone that only moves calls between stacks. -/
structure Frame (s s' : State) : Prop where
  threads : ∀ x, (s'.threads.find? x).map (fun thread => (thread.proc, waiting thread.todo)) =
    (s.threads.find? x).map fun thread => (thread.proc, waiting thread.todo)
  procs : s'.procs = s.procs
  nodes : s'.nodes = s.nodes

/-- Threads and nodes are those of a process. -/
structure Owners (s : State) : Prop where
  thread : ∀ x thread, s.threads.find? x = some thread → thread.proc ∈ s.procs
  node : ∀ n p, s.nodes n = some p → p ∈ s.procs

namespace Frame

variable {s s' s'' : State} {x : ThreadId} {t : TransactionId}

theorem refl (s : State) : s.Frame s := ⟨fun _ => rfl, rfl, rfl⟩

theorem trans (h : s.Frame s') (h' : s'.Frame s'') : s.Frame s'' :=
  ⟨fun x => (h'.threads x).trans (h.threads x), h'.procs.trans h.procs, h'.nodes.trans h.nodes⟩

theorem kfree (s : State) (t : TransactionId) : s.Frame (s.kfree t) := ⟨fun _ => rfl, rfl, rfl⟩

theorem setTransaction (s : State) (t : TransactionId) (transaction : Transaction) :
    s.Frame (s.setTransaction t transaction) := ⟨fun _ => rfl, rfl, rfl⟩

theorem setThread {thread thread' : Thread} (hx : s.threads.find? x = some thread) (hproc : thread'.proc = thread.proc)
    (htodo : waiting thread'.todo = waiting thread.todo) : s.Frame (s.setThread x thread') := by
  refine ⟨fun y => ?_, rfl, rfl⟩
  rw [State.setThread, OrdMap.find?_insert]
  split
  · next h => simp [h, hx, hproc, htodo]
  · rfl

theorem find (h : s.Frame s') {thread' : Thread} (hx : s'.threads.find? x = some thread') :
    ∃ thread, s.threads.find? x = some thread ∧ thread'.proc = thread.proc ∧
      waiting thread'.todo = waiting thread.todo := by
  have := h.threads x
  rw [hx, Option.map_some] at this
  obtain ⟨thread, hx, heq⟩ := Option.map_eq_some_iff.mp this.symm
  simp only [Prod.mk.injEq] at heq
  exact ⟨thread, hx, heq.1.symm, heq.2.symm⟩

theorem live (h : s.Frame s') (x : ThreadId) : x ∈ s'.threads ↔ x ∈ s.threads := by
  have := congrArg Option.isSome (h.threads x)
  simp only [Option.isSome_map] at this
  exact iff_of_eq (congrArg (· = true) this)

theorem todo (h : s.Frame s') (q : Place) : s'.todo q = s.todo q := by
  cases q with
  | thread x =>
    have := congrArg (Option.map Prod.snd) (h.threads x)
    simp only [Option.map_map, Function.comp_def] at this
    exact congrArg (Option.getD · []) this
  | proc p =>
    unfold State.todo
    rw [h.procs]

theorem owners (h : s.Frame s') (ho : s.Owners) : s'.Owners := by
  constructor
  · intro x thread' hx
    obtain ⟨thread, hx, hproc, -⟩ := h.find hx
    rw [hproc, h.procs]
    exact ho.thread x thread hx
  · intro n p hn
    rw [h.nodes] at hn
    rw [h.procs]
    exact ho.node n p hn

end Frame

/-- The call is the last one of a chain, and not received. -/
def Last (chains : Set Chain) (t : TransactionId) : Prop := ∃ l, (⟨none, t :: l⟩ : Chain) ∈ chains

/-- The transactions that wait are in the lists, apart from those that are taken out. -/
structure Lists (dying : Option ThreadId) (taken : List TransactionId) (s : State) (chains : Set Chain) : Prop where
  waits : ∀ t transaction, s.transactions.find? t = some transaction → transaction.target_node = none ∨ Last chains t →
    t ∈ taken ∨ ∃ q, t ∈ s.todo q
  mem : ∀ q t, t ∈ s.todo q → t ∉ taken ∧ ∃ transaction, s.transactions.find? t = some transaction ∧
    transaction.place = some q ∧ (transaction.target_node ≠ none → Last chains t)
  nodup : ∀ q, (s.todo q).Nodup
  find : ∀ t ∈ taken, ∃ transaction, s.transactions.find? t = some transaction ∧
    (transaction.target_node ≠ none → Last chains t)
  distinct : taken.Nodup
  /-- A call for a thread in particular is for one that waits for a reply itself. -/
  direct : ∀ t l transaction x, (⟨none, t :: l⟩ : Chain) ∈ chains → s.transactions.find? t = some transaction →
    t ∉ taken → transaction.to_thread = some x → dying ≠ some x →
    transaction.from_thread ≠ some x ∧ s.lastSent x l ≠ none

namespace Lists

variable {s s' : State} {chains : Set Chain} {dying : Option ThreadId} {taken taken' : List TransactionId} {c c' : Chain}
  {t : TransactionId} {q : Place}

/-- The rule for a step that changes one chain: its last call is taken out, before and after, if it is not received. -/
theorem swap (h : s.Lists dying taken chains) (hchains : s.Chains dying chains)
    (hchains' : s'.Chains dying (State.swap chains c c'))
    (hchange : Changes s s' c c') (hframe : s.Frame s')
    (hc : c ∈ chains ∨ c.calls = []) (hwas : ∀ t l, c = ⟨none, t :: l⟩ → t ∈ taken) (hdistinct : taken'.Nodup)
    (htaken : ∀ t, t ∈ taken' ↔ (t ∈ taken ∧ ¬∃ l, c = ⟨none, t :: l⟩) ∨ ∃ l, c' = ⟨none, t :: l⟩) :
    s'.Lists dying taken' (State.swap chains c c') := by
  -- what is not in the chain that changes
  have hother : ∀ d ∈ chains, d ≠ c → ∀ t ∈ d.calls, t ∉ c.calls ∧ t ∉ c'.calls :=
    fun d hd hne t ht => hchains.outside hc hchange hd hne ht
  have hreply : ∀ t transaction, s.transactions.find? t = some transaction → transaction.target_node = none →
      t ∉ c.calls ∧ t ∉ c'.calls := by
    intro t transaction hfind hnone
    have htc : t ∉ c.calls := by
      intro htc
      rcases hc with hc | hc
      · exact hchains.ne_reply hc htc hfind hnone rfl
      · simp [hc] at htc
    refine ⟨htc, fun htc' => ?_⟩
    rcases hchange.new t htc' with htc' | hfree
    · exact htc htc'
    · exact Option.some_ne_none _ (hfind.symm.trans hfree)
  have hkeep : ∀ t transaction, s.transactions.find? t = some transaction →
      (transaction.target_node ≠ none → Last chains t) → (¬∃ l, c = ⟨none, t :: l⟩) →
      (t ∉ c.calls ∧ t ∉ c'.calls) ∧ (transaction.target_node ≠ none → Last (State.swap chains c c') t) := by
    intro t transaction hfind hlast hhead
    by_cases hnone : transaction.target_node = none
    · exact ⟨hreply t transaction hfind hnone, fun hne => absurd hnone hne⟩
    · obtain ⟨l, hl⟩ := hlast hnone
      have hne : (⟨none, t :: l⟩ : Chain) ≠ c := fun heq => hhead ⟨l, heq.symm⟩
      exact ⟨hother _ hl hne t List.mem_cons_self, fun _ => ⟨l, Or.inl ⟨hl, hne⟩⟩⟩
  have hmem : ∀ q t, t ∈ s.todo q → ¬∃ l, c = ⟨none, t :: l⟩ := by
    rintro q t ht ⟨l, hl⟩
    exact (h.mem q t ht).1 (hwas t l hl)
  constructor
  · intro t transaction hfind hw
    simp only [hframe.todo]
    have hback : t ∉ c.calls → t ∉ c'.calls → (transaction.target_node = none ∨ Last chains t) →
        t ∈ taken' ∨ ∃ q, t ∈ s.todo q := by
      intro htc htc' hw
      rw [hchange.same t htc htc'] at hfind
      refine (h.waits t transaction hfind hw).imp_left fun ht => (htaken t).mpr (Or.inl ⟨ht, ?_⟩)
      rintro ⟨l, rfl⟩
      simp at htc
    rcases hw with hnone | ⟨l, ⟨hl, hne⟩ | ⟨hl, -⟩⟩
    · have htc' : t ∉ c'.calls := by
        intro htc'
        exact hchains'.ne_reply (Or.inr ⟨rfl, List.ne_nil_of_mem htc'⟩) htc' hfind hnone rfl
      have htc : t ∉ c.calls := by
        intro htc
        exact Option.some_ne_none _ (hfind.symm.trans (hchange.freed t htc htc'))
      exact hback htc htc' (Or.inl hnone)
    · obtain ⟨htc, htc'⟩ := hother _ hl hne t List.mem_cons_self
      exact hback htc htc' (Or.inr ⟨l, hl⟩)
    · exact Or.inl ((htaken t).mpr (Or.inr ⟨l, hl.symm⟩))
  · intro q t ht
    rw [hframe.todo] at ht
    have hhead := hmem q t ht
    obtain ⟨htaken', transaction, hfind, hplace, hlast⟩ := h.mem q t ht
    obtain ⟨⟨htc, htc'⟩, hlast'⟩ := hkeep t transaction hfind hlast hhead
    refine ⟨?_, transaction, (hchange.same t htc htc').trans hfind, hplace, hlast'⟩
    rw [htaken t]
    rintro (⟨ht', -⟩ | ⟨l, rfl⟩)
    · exact htaken' ht'
    · simp at htc'
  · intro q
    rw [hframe.todo]
    exact h.nodup q
  · intro t ht
    rcases (htaken t).mp ht with ⟨ht, hhead⟩ | ⟨l, rfl⟩
    · obtain ⟨transaction, hfind, hlast⟩ := h.find t ht
      obtain ⟨⟨htc, htc'⟩, hlast'⟩ := hkeep t transaction hfind hlast hhead
      exact ⟨transaction, (hchange.same t htc htc').trans hfind, hlast'⟩
    · have hin : (⟨none, t :: l⟩ : Chain) ∈ State.swap chains c ⟨none, t :: l⟩ := Or.inr ⟨rfl, by simp⟩
      obtain ⟨u, transaction, l', hu⟩ := hchains'.ok _ hin
      cases hu.calls
      exact ⟨transaction, hu.sent.find, fun _ => ⟨l, hin⟩⟩
  · exact hdistinct
  · intro t l transaction x hl hfind ht hx hd
    rcases hl with ⟨hl, hne⟩ | ⟨hl, -⟩
    · have hout : ∀ u ∈ t :: l, u ∉ c.calls ∧ u ∉ c'.calls := hother _ hl hne
      have hsameu : ∀ u ∈ t :: l, s'.transactions.find? u = s.transactions.find? u :=
        fun u hu => hchange.same u (hout u hu).1 (hout u hu).2
      rw [hsameu t List.mem_cons_self] at hfind
      rw [lastSent_congr fun u hu => hsameu u (List.mem_cons_of_mem _ hu)]
      refine h.direct t l transaction x hl hfind (fun ht' => ht ((htaken t).mpr (Or.inl ⟨ht', ?_⟩))) hx hd
      rintro ⟨l', rfl⟩
      exact (hout t List.mem_cons_self).1 List.mem_cons_self
    · exact absurd ((htaken t).mpr (Or.inr ⟨l, hl.symm⟩)) ht

theorem congr (h : s.Lists dying taken chains) (hsame : s'.transactions = s.transactions)
    (htodo : ∀ q, s'.todo q = s.todo q) : s'.Lists dying taken chains := by
  constructor
  · simpa only [hsame, htodo] using h.waits
  · simpa only [hsame, htodo] using h.mem
  · simpa only [htodo] using h.nodup
  · simpa only [hsame] using h.find
  · exact h.distinct
  · intro t l transaction x hl hfind
    rw [hsame] at hfind
    rw [lastSent_eq hsame]
    exact h.direct t l transaction x hl hfind

/-- A transaction that has been taken out goes to the end of a list. -/
theorem add (h : s.Lists dying (t :: taken) chains) {transaction : Transaction}
    (hfind : s.transactions.find? t = some transaction) (hplace : transaction.place = some q)
    (hdirect : ∀ l x, (⟨none, t :: l⟩ : Chain) ∈ chains → transaction.to_thread = some x → dying ≠ some x →
      transaction.from_thread ≠ some x ∧ s.lastSent x l ≠ none)
    (hsame : s'.transactions = s.transactions) (hq : s'.todo q = s.todo q ++ [t])
    (hother : ∀ q', q' ≠ q → s'.todo q' = s.todo q') : s'.Lists dying taken chains := by
  have htodo : ∀ q' u, u ∈ s'.todo q' ↔ u ∈ s.todo q' ∨ (q' = q ∧ u = t) := by
    intro q' u
    by_cases hqq : q' = q
    · simp [hqq, hq]
    · simp [hqq, hother q' hqq]
  have hnot : ∀ q', t ∉ s.todo q' := fun q' ht => (h.mem q' t ht).1 List.mem_cons_self
  obtain ⟨ht, hdistinct⟩ := List.nodup_cons.mp h.distinct
  constructor
  · intro u transaction' hu hw
    rw [hsame] at hu
    rcases h.waits u transaction' hu hw with hmem | ⟨q', hq'⟩
    · rcases List.mem_cons.mp hmem with rfl | hmem
      · exact Or.inr ⟨q, (htodo q u).mpr (Or.inr ⟨rfl, rfl⟩)⟩
      · exact Or.inl hmem
    · exact Or.inr ⟨q', (htodo q' u).mpr (Or.inl hq')⟩
  · intro q' u hu
    rw [hsame]
    rcases (htodo q' u).mp hu with hu | ⟨rfl, rfl⟩
    · obtain ⟨hnotin, hrest⟩ := h.mem q' u hu
      exact ⟨fun hmem => hnotin (List.mem_cons_of_mem _ hmem), hrest⟩
    · obtain ⟨transaction', hfind', hlast⟩ := h.find u List.mem_cons_self
      cases hfind.symm.trans hfind'
      exact ⟨ht, transaction, hfind, hplace, hlast⟩
  · intro q'
    by_cases hqq : q' = q
    · rw [hqq, hq]
      simpa [List.nodup_append, h.nodup q] using fun u hu => ne_of_mem_of_not_mem hu (hnot q)
    · rw [hother q' hqq]
      exact h.nodup q'
  · rw [hsame]
    exact fun u hu => h.find u (List.mem_cons_of_mem _ hu)
  · exact hdistinct
  · intro u l transaction' x hl hu hnotin hx hd
    rw [hsame] at hu
    rw [lastSent_eq hsame]
    by_cases hut : u = t
    · subst hut
      cases hfind.symm.trans hu
      exact hdirect l x hl hx hd
    · exact h.direct u l transaction' x hl hu (by simp [hut, hnotin]) hx hd

/-- The first transactions of a list are taken out. -/
theorem take (h : s.Lists dying taken chains) {l rest : List TransactionId} (hq : s.todo q = l ++ rest)
    (hsame : s'.transactions = s.transactions) (hq' : s'.todo q = rest)
    (hother : ∀ q', q' ≠ q → s'.todo q' = s.todo q') : s'.Lists dying (l ++ taken) chains := by
  have hnodup := h.nodup q
  rw [hq] at hnodup
  obtain ⟨hl, hrest, hapart⟩ := List.nodup_append.mp hnodup
  have htodo : ∀ q' u, u ∈ s'.todo q' → u ∈ s.todo q' ∧ u ∉ l := by
    intro q' u hu
    by_cases hqq : q' = q
    · subst hqq
      rw [hq'] at hu
      exact ⟨hq ▸ List.mem_append_right _ hu, fun hul => hapart u hul u hu rfl⟩
    · rw [hother q' hqq] at hu
      refine ⟨hu, fun hul => hqq ?_⟩
      obtain ⟨-, transaction, hfind, hplace, -⟩ := h.mem q' u hu
      obtain ⟨-, transaction', hfind', hplace', -⟩ := h.mem q u (hq ▸ List.mem_append_left _ hul)
      cases hfind.symm.trans hfind'
      exact Option.some.inj (hplace.symm.trans hplace')
  have hltodo : ∀ u ∈ l, u ∈ s.todo q := fun u hu => hq ▸ List.mem_append_left _ hu
  constructor
  · intro u transaction hu hw
    rw [hsame] at hu
    rcases h.waits u transaction hu hw with hmem | ⟨q', hu'⟩
    · exact Or.inl (List.mem_append_right _ hmem)
    · by_cases hqq : q' = q
      · subst hqq
        rw [hq] at hu'
        rcases List.mem_append.mp hu' with hu' | hu'
        · exact Or.inl (List.mem_append_left _ hu')
        · exact Or.inr ⟨q', hq' ▸ hu'⟩
      · exact Or.inr ⟨q', (hother q' hqq).symm ▸ hu'⟩
  · intro q' u hu
    obtain ⟨hu, hul⟩ := htodo q' u hu
    obtain ⟨hnotin, hrest⟩ := h.mem q' u hu
    rw [hsame]
    exact ⟨by simp [hul, hnotin], hrest⟩
  · intro q'
    by_cases hqq : q' = q
    · rw [hqq, hq']
      exact hrest
    · rw [hother q' hqq]
      exact h.nodup q'
  · intro u hu
    rw [hsame]
    rcases List.mem_append.mp hu with hu | hu
    · obtain ⟨-, transaction, hfind, -, hlast⟩ := h.mem q u (hltodo u hu)
      exact ⟨transaction, hfind, hlast⟩
    · exact h.find u hu
  · exact List.nodup_append.mpr ⟨hl, h.distinct, fun u hu v hv huv => (h.mem q u (hltodo u hu)).1 (huv ▸ hv)⟩
  · intro u l' transaction x hl' hu hnotin
    rw [hsame] at hu
    rw [lastSent_eq hsame]
    exact h.direct u l' transaction x hl' hu fun hmem => hnotin (List.mem_append_right _ hmem)

/-- A reply is made. -/
theorem reply (h : s.Lists dying taken chains) (hchains : s.Chains dying chains) {transaction : Transaction}
    (ht : s.transactions.find? t = none) (hnone : transaction.target_node = none) :
    (s.setTransaction t transaction).Lists dying (t :: taken) chains := by
  have hfind : ∀ u, (s.setTransaction t transaction).transactions.find? u =
      if u = t then some transaction else s.transactions.find? u := fun u => OrdMap.find?_insert ..
  have hold : ∀ u transaction', s.transactions.find? u = some transaction' →
      (s.setTransaction t transaction).transactions.find? u = some transaction' := by
    intro u transaction' hu
    have hut : u ≠ t := by
      rintro rfl
      exact Option.some_ne_none _ (hu.symm.trans ht)
    rw [hfind, if_neg hut, hu]
  have hchain : ∀ c ∈ chains, ∀ u ∈ c.calls, (s.setTransaction t transaction).transactions.find? u =
      s.transactions.find? u := by
    intro c hc u hu
    obtain ⟨transaction', hu', -⟩ := hchains.find hc hu
    rw [hold u transaction' hu', hu']
  have htodo : ∀ q, (s.setTransaction t transaction).todo q = s.todo q := (Frame.setTransaction s t transaction).todo
  constructor
  · intro u transaction' hu hw
    simp only [htodo]
    rw [hfind] at hu
    split at hu
    · next hut => exact Or.inl (by simp [hut])
    · exact (h.waits u transaction' hu hw).imp_left (List.mem_cons_of_mem _)
  · intro q u hu
    rw [htodo] at hu
    obtain ⟨hnotin, transaction', hu', hrest⟩ := h.mem q u hu
    refine ⟨?_, transaction', hold u transaction' hu', hrest⟩
    rw [List.mem_cons, not_or]
    refine ⟨?_, hnotin⟩
    rintro rfl
    exact Option.some_ne_none _ (hu'.symm.trans ht)
  · intro q
    rw [htodo]
    exact h.nodup q
  · intro u hu
    rcases List.mem_cons.mp hu with rfl | hu
    · exact ⟨transaction, by rw [hfind, if_pos rfl], fun hne => absurd hnone hne⟩
    · obtain ⟨transaction', hu', hlast⟩ := h.find u hu
      exact ⟨transaction', hold u transaction' hu', hlast⟩
  · refine List.nodup_cons.mpr ⟨fun hmem => ?_, h.distinct⟩
    obtain ⟨transaction', hu', -⟩ := h.find t hmem
    exact Option.some_ne_none _ (hu'.symm.trans ht)
  · intro u l transaction' x hl hu hnotin
    rw [hchain _ hl u List.mem_cons_self] at hu
    rw [lastSent_congr fun v hv => hchain _ hl v (List.mem_cons_of_mem _ hv)]
    exact h.direct u l transaction' x hl hu fun hmem => hnotin (List.mem_cons_of_mem _ hmem)

/-- A reply that has been taken out is freed. -/
theorem free (h : s.Lists dying (t :: taken) chains) (hchains : s.Chains dying chains) {transaction : Transaction}
    (ht : s.transactions.find? t = some transaction) (hnone : transaction.target_node = none) :
    (s.kfree t).Lists dying taken chains := by
  have hfind : ∀ u, (s.kfree t).transactions.find? u = if u = t then none else s.transactions.find? u :=
    fun u => OrdMap.find?_erase ..
  have hchain : ∀ c ∈ chains, ∀ u ∈ c.calls, (s.kfree t).transactions.find? u = s.transactions.find? u := by
    intro c hc u hu
    rw [hfind, if_neg (hchains.ne_reply hc hu ht hnone)]
  have htodo : ∀ q, (s.kfree t).todo q = s.todo q := (Frame.kfree s t).todo
  obtain ⟨hnot, hdistinct⟩ := List.nodup_cons.mp h.distinct
  constructor
  · intro u transaction' hu hw
    simp only [htodo]
    rw [hfind] at hu
    split at hu
    · cases hu
    · next hut => exact (h.waits u transaction' hu hw).imp_left fun hmem => (List.mem_cons.mp hmem).resolve_left hut
  · intro q u hu
    rw [htodo] at hu
    obtain ⟨hnotin, transaction', hu', hrest⟩ := h.mem q u hu
    rw [List.mem_cons, not_or] at hnotin
    exact ⟨hnotin.2, transaction', by rw [hfind, if_neg hnotin.1, hu'], hrest⟩
  · intro q
    rw [htodo]
    exact h.nodup q
  · intro u hu
    obtain ⟨transaction', hu', hlast⟩ := h.find u (List.mem_cons_of_mem _ hu)
    exact ⟨transaction', by rw [hfind, if_neg (ne_of_mem_of_not_mem hu hnot), hu'], hlast⟩
  · exact hdistinct
  · intro u l transaction' x hl hu hnotin
    have hut := hchains.ne_reply hl List.mem_cons_self ht hnone
    rw [hchain _ hl u List.mem_cons_self] at hu
    rw [lastSent_congr fun v hv => hchain _ hl v (List.mem_cons_of_mem _ hv)]
    exact h.direct u l transaction' x hl hu (by simp [hut, hnotin])

end Lists

end State

end AnboxReboxed.Binder.Calls
