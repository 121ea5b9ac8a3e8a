import AnboxReboxed.Binder.Proofs.BufferDriverProofs

/-!
# Proofs: runs of the driver on one buffer area

No `BUG_ON` is met in any run, whatever the process and its peers ask for and whichever allocations fail.
-/

namespace AnboxReboxed.Binder

open AnboxReboxed.Lib Proc

namespace Driver

/-- What holds while the area is mapped. -/
structure Mapped (d : Driver) (p : Proc) : Prop where
  area : d.area = .mapped p
  inv : p.Inv
  space : (p.base + p.page_count) * PAGE_SIZE ≤ 2 ^ 64
  linked : Linked d.transactions p.Allocated

/-- The invariant of a run. -/
def Inv (d : Driver) : Prop := (∃ p, d.Mapped p) ∨ ((∀ p, d.area ≠ .mapped p) ∧ ∀ t, d.transactions t = none)

variable (B : SearchTree.Balancing Nat) {d : Driver} {p p' : Proc} {r : Except Bug Driver}

theorem Inv.mapped (h : d.Inv) (hp : d.area = .mapped p) : d.Mapped p := by
  rcases h with ⟨q, hq⟩ | ⟨hnone, -⟩
  · cases hq.area.symm.trans hp
    exact hq
  · exact absurd hp (hnone p)

theorem Mapped.space_of (h : d.Mapped p) (hsame : SameArea p p') : (p'.base + p'.page_count) * PAGE_SIZE ≤ 2 ^ 64 := by
  rw [hsame.base, hsame.page_count]
  exact h.space

theorem withProc_eq_some {f : Proc → Except Bug Driver} (h : d.withProc f = some r) :
    ∃ p, d.area = .mapped p ∧ f p = r := by
  unfold withProc at h
  cases harea : d.area with
  | mapped p =>
    rw [harea] at h
    exact ⟨p, rfl, Option.some.inj h⟩
  | unmapped =>
    rw [harea] at h
    cases h
  | released =>
    rw [harea] at h
    cases h

/-- What a call comes to: the driver goes on, with its invariant. -/
def Fine (r : Except Bug Driver) : Prop := ∃ d, r = .ok d ∧ d.Inv

theorem fine_mapped {transactions : TransactionId → Option Transaction} (hinv : p.Inv)
    (hspace : (p.base + p.page_count) * PAGE_SIZE ≤ 2 ^ 64) (hlinked : Linked transactions p.Allocated) :
    Fine (.ok { area := .mapped p, transactions }) :=
  ⟨_, rfl, Or.inl ⟨p, rfl, hinv, hspace, hlinked⟩⟩

section Calls

variable {t : TransactionId} {transaction : Transaction} {b : Buffer}

theorem binder_transaction_fine (h : d.Mapped p) (ht : d.transactions t = none)
    {data_size offsets_size extra_buffers_size : UInt64} {is_async : Bool} {m : Memory} :
    Fine (d.binder_transaction B p t data_size offsets_size extra_buffers_size is_async m) := by
  unfold binder_transaction
  rcases binder_alloc_buf_ok B data_size offsets_size extra_buffers_size is_async m h.inv with
    ⟨hok, -⟩ | ⟨p1, b, e, hok, -, ⟨hspan, hbf, -⟩, hinv1, hsame1, hA1⟩
  · rw [bind_eq_of_ok hok]
    exact fine_mapped h.inv h.space h.linked
  · rw [bind_eq_of_ok hok]
    obtain ⟨hinv2, hsame2, hA2⟩ := update_ok hinv1 ((hA1 _).mpr (Or.inl rfl))
      (f := fun b => b.claim t) rfl rfl rfl rfl
    have hfresh : ∀ x, p.Allocated x → x.addr ≠ b.addr := by
      intro x hx heq
      refine not_isFree_of_isAllocated (fits_of_layout h.inv.layout) ⟨x, hx, heq⟩ ⟨b, fst_mem_of_mem_spans hspan, rfl, hbf⟩
    have hA : ∀ x, (p1.update b.addr fun b => b.claim t).Allocated x ↔
        x = (fill b data_size offsets_size extra_buffers_size is_async).claim t ∨ p.Allocated x := by
      intro x
      refine (hA2 x).trans (or_congr_right ⟨?_, fun hx => ⟨(hA1 x).mpr (Or.inr hx), ?_⟩⟩)
      · rintro ⟨hx, hne⟩
        exact ((hA1 x).mp hx).resolve_left hne
      · rintro rfl
        exact hfresh _ hx rfl
    exact fine_mapped hinv2 (h.space_of (hsame1.trans hsame2)) (h.linked.add
      (b := (fill b data_size offsets_size extra_buffers_size is_async).claim t) ht rfl rfl hfresh hA)

/-- The buffer of a transaction is known, and the transaction ends or loses it. -/
theorem forget_fine (h : d.Mapped p) (hb : p.Allocated b) (hbt : b.transaction = some t) (left : Option Transaction)
    (hleft : ∀ transaction, left = some transaction → transaction.buffer = none ∧ transaction.queued = false) :
    ∃ p', forget p b.addr = .ok p' ∧
      Fine (.ok { area := .mapped p', transactions := fun u => if u = t then left else d.transactions u }) := by
  obtain ⟨p', hok, hinv', hsame, hA⟩ := forget_ok h.inv hb
  refine ⟨p', hok, fine_mapped hinv' (h.space_of hsame) (h.linked.forget hb hbt hleft
    (fun x => x = { b with transaction := none }) ?_ ?_ hA)⟩
  · rintro x rfl
    exact ⟨rfl, rfl⟩
  · rintro x y rfl rfl
    rfl

/-- The transaction loses its buffer, which is freed. -/
theorem forget_free_fine (h : d.Mapped p) (hb : p.Allocated b) (hbt : b.transaction = some t) (left : Option Transaction)
    (hleft : ∀ transaction, left = some transaction → transaction.buffer = none ∧ transaction.queued = false) :
    ∃ p', (p.update b.addr fun b => { b with transaction := none }).binder_free_buf B b.addr = .ok p' ∧
      Fine (.ok { area := .mapped p', transactions := fun u => if u = t then left else d.transactions u }) := by
  obtain ⟨p', hok, hinv', hsame, hA⟩ := forget_free_ok B h.inv hb
  refine ⟨p', hok, fine_mapped hinv' (h.space_of hsame) (h.linked.forget hb hbt hleft (fun _ => False)
    (fun x hx => hx.elim) (fun x y hx => hx.elim) fun x => ?_)⟩
  rw [false_or]
  exact hA x

theorem none_left (transaction : Transaction) (h : (none : Option Transaction) = some transaction) :
    transaction.buffer = none ∧ transaction.queued = false := absurd h (by simp)

/-- The buffer that a transaction points at. -/
theorem Mapped.buffer (h : d.Mapped p) (ht : d.transactions t = some transaction) {a : Nat}
    (ha : transaction.buffer = some a) : ∃ b, p.Allocated b ∧ b.addr = a ∧ b.transaction = some t :=
  h.linked.buffer t transaction a ht ha

/-- A transaction that has not been received has its buffer. -/
theorem Mapped.queued_buffer (h : d.Mapped p) (ht : d.queued t = some transaction) :
    d.transactions t = some transaction ∧ ∃ b, p.Allocated b ∧ transaction.buffer = some b.addr ∧ b.transaction = some t := by
  obtain ⟨ht, hq⟩ := Option.filter_eq_some_iff.mp ht
  obtain ⟨b, hb, hab, -⟩ := h.linked.queued t transaction ht hq
  obtain ⟨c, hc, hca, hct⟩ := h.linked.buffer t transaction b.addr ht hab
  cases h.linked.unique c b hc hb hca
  exact ⟨ht, b, hb, hab, hct⟩

theorem err_copy_data_failed_fine (h : d.Mapped p) (ht : d.queued t = some transaction) :
    Fine (d.err_copy_data_failed B p t transaction.buffer) := by
  obtain ⟨-, b, hb, hab, hbt⟩ := h.queued_buffer ht
  obtain ⟨p', hfree, hfine⟩ := forget_free_fine B h hb hbt none none_left
  rw [hab]
  simp only [err_copy_data_failed]
  rw [show forget p b.addr = .ok _ from bind_eq_of_ok (deref_ok (fits_of_layout h.inv.layout) hb.1), bind_eq_of_ok rfl,
    bind_eq_of_ok hfree]
  exact hfine

theorem binder_thread_read_fine (h : d.Mapped p) (ht : d.queued t = some transaction) {keep : Bool} :
    Fine (d.binder_thread_read p t transaction keep) := by
  obtain ⟨htd, b, hb, hab, hbt⟩ := h.queued_buffer ht
  obtain ⟨hinv1, hsame1, hA1⟩ := update_ok h.inv hb (f := fun b => { b with allow_user_free := true }) rfl rfl rfl rfl
  have hderef := deref_ok (fits_of_layout h.inv.layout) hb.1
  have hlinked := h.linked.keep { b with allow_user_free := true } hb hbt htd rfl hbt hA1
  unfold binder_thread_read
  split
  · next hnone => exact absurd (hnone.symm.trans hab) (by simp)
  · next a ha =>
    cases Option.some.inj (hab.symm.trans ha)
    rw [bind_eq_of_ok hderef]
    cases keep with
    | true => exact fine_mapped hinv1 (h.space_of hsame1) hlinked
    | false =>
      obtain ⟨d1, hd1⟩ : ∃ d1 : Driver, d1 = {
        area := .mapped (p.update b.addr fun b => { b with allow_user_free := true })
        transactions := fun u => if u = t then some { transaction with queued := false } else d.transactions u } :=
        ⟨_, rfl⟩
      have hmapped : d1.Mapped (p.update b.addr fun b => { b with allow_user_free := true }) := by
        rw [hd1]
        exact ⟨rfl, hinv1, h.space_of hsame1, hlinked⟩
      obtain ⟨p', hok, hfine⟩ := forget_fine hmapped ((hA1 _).mpr (Or.inl rfl)) hbt none none_left
      refine (congrArg Fine ?_).mp hfine
      rw [if_neg (by simp), bind_eq_of_ok (x := forget _ b.addr) hok, hd1]
      refine congrArg Except.ok (congrArg (Driver.mk _) (funext fun u => ?_))
      by_cases hut : u = t <;> simp [hut]

theorem binder_pop_transaction_fine (h : d.Mapped p) (ht : d.transactions t = some transaction) :
    Fine (d.binder_pop_transaction p t transaction) := by
  unfold binder_pop_transaction
  cases hbuffer : transaction.buffer with
  | none =>
    refine ⟨d.kfree t, rfl, Or.inl ⟨p, h.area, h.inv, h.space, ?_⟩⟩
    exact h.linked.kfree ht hbuffer
  | some a =>
    obtain ⟨b, hb, rfl, hbt⟩ := h.buffer ht hbuffer
    obtain ⟨p', hok, hfine⟩ := forget_fine h hb hbt none none_left
    simp only
    rw [bind_eq_of_ok hok]
    exact hfine

theorem binder_release_work_fine (h : d.Mapped p) (ht : d.queued t = some transaction) :
    Fine (d.binder_release_work p t transaction) := by
  obtain ⟨-, b, hb, hab, hbt⟩ := h.queued_buffer ht
  obtain ⟨p', hok, hfine⟩ := forget_fine h hb hbt none none_left
  unfold binder_release_work
  rw [hab]
  simp only
  rw [bind_eq_of_ok hok]
  exact hfine

theorem binder_free_thread_fine (h : d.Mapped p) (ht : d.pending t = some transaction) :
    Fine (d.binder_free_thread p t transaction) := by
  obtain ⟨ht, hq⟩ := Option.filter_eq_some_iff.mp ht
  have hq : transaction.queued = false := by simpa using hq
  unfold binder_free_thread
  cases hbuffer : transaction.buffer with
  | none => exact ⟨d, rfl, Or.inl ⟨p, h⟩⟩
  | some a =>
    obtain ⟨b, hb, rfl, hbt⟩ := h.buffer ht hbuffer
    obtain ⟨p', hok, hfine⟩ := forget_fine h hb hbt (some { transaction with buffer := none })
      fun tr htr => by cases Option.some.inj htr; exact ⟨rfl, hq⟩
    simp only
    rw [bind_eq_of_ok hok, bind_eq_of_ok (setBuffer_ok ht none)]
    exact hfine

theorem BC_FREE_BUFFER_fine (h : d.Mapped p) (data_ptr : UInt64) : Fine (d.BC_FREE_BUFFER B p data_ptr) := by
  obtain ⟨found, hok, hfound⟩ := binder_buffer_lookup_ok h.inv h.space data_ptr
  unfold BC_FREE_BUFFER
  rw [bind_eq_of_ok hok]
  cases found with
  | none => exact ⟨d, rfl, Or.inl ⟨p, h⟩⟩
  | some a =>
    obtain ⟨⟨b, hb, rfl⟩, -⟩ := (hfound a).mp rfl
    simp only
    rw [bind_eq_of_ok (deref_ok (fits_of_layout h.inv.layout) hb.1)]
    cases hallow : b.allow_user_free with
    | false => exact ⟨d, rfl, Or.inl ⟨p, h⟩⟩
    | true =>
      simp only [Bool.not_true, Bool.false_eq_true, if_false]
      unfold forgetBuffer
      cases hbt : b.transaction with
      | none =>
        obtain ⟨p', hfree, hinv', hsame, hA⟩ := forget_free_ok B h.inv hb
        rw [bind_eq_of_ok rfl, bind_eq_of_ok hfree]
        exact fine_mapped hinv' (h.space_of hsame) (h.linked.free hb hbt hA)
      | some t =>
        obtain ⟨transaction, ht, hab⟩ := h.linked.transaction b t hb hbt
        have hq : transaction.queued = false := by
          refine Bool.eq_false_iff.mpr fun hq => ?_
          obtain ⟨c, hc, hac, hcf⟩ := h.linked.queued t transaction ht hq
          cases h.linked.unique c b hc hb (Option.some.inj (hac.symm.trans hab))
          exact Bool.false_ne_true (hcf.symm.trans hallow)
        obtain ⟨p', hfree, hfine⟩ := forget_free_fine B h hb hbt (some { transaction with buffer := none })
          fun tr htr => by cases Option.some.inj htr; exact ⟨rfl, hq⟩
        simp only
        rw [bind_eq_of_ok (setBuffer_ok ht none), bind_eq_of_ok hfree]
        exact hfine

theorem binder_deferred_release_fine (h : d.Mapped p) (hvma : p.vma = false) : Fine (d.binder_deferred_release B p) := by
  obtain ⟨T', p', hok, -⟩ := releaseBuffers_ok B (T := d.transactions) h.inv
    (fun b t hb hbt => (h.linked.transaction b t hb hbt).imp fun _ ht => ht.1) h.inv.length_le
  refine ⟨{ area := .released }, ?_, Or.inr ⟨fun q hq => (by cases hq), fun t => rfl⟩⟩
  rw [binder_deferred_release, bind_eq_of_ok (bugOn_ok hvma), bind_eq_of_ok hok]
  rfl

end Calls

/-- Every call that can be made comes to an end without a bug, and keeps the invariant. -/
theorem call_fine (h : d.Inv) {c : Call} (hc : d.call B c = some r) : Fine r := by
  cases c with
  | mmap vm_start len base m =>
    unfold call at hc
    cases harea : d.area with
    | mapped p =>
      rw [harea] at hc
      cases hc
    | released =>
      rw [harea] at hc
      cases hc
    | unmapped =>
      rw [harea] at hc
      obtain ⟨⟨hlen, hspace⟩, heq⟩ := of_guard_eq_some hc
      rw [← heq]
      have hnone : ∀ t, d.transactions t = none := by
        rcases h with ⟨p, hp⟩ | ⟨-, hnone⟩
        · cases harea.symm.trans hp.area
        · exact hnone
      rcases binder_mmap_ok B vm_start base m hlen with
        hok | ⟨p, hok, hinv, hbase, hcount, hempty⟩
      · rw [bind_eq_of_ok hok]
        exact ⟨d, rfl, h⟩
      · rw [bind_eq_of_ok hok]
        refine fine_mapped hinv (by rw [hbase, hcount]; exact hspace) ⟨fun b c hb => (hempty b hb).elim,
          fun t tr a ht => ?_, fun b t hb => (hempty b hb).elim, fun t tr ht => ?_⟩
        · exact absurd ((hnone t).symm.trans ht) (by simp)
        · exact absurd ((hnone t).symm.trans ht) (by simp)
  | vma_close =>
    obtain ⟨p, hp, rfl⟩ := withProc_eq_some hc
    have hm := h.mapped hp
    exact fine_mapped (p := { p with vma := false })
      ⟨hm.inv.small, hm.inv.layout, hm.inv.merged, hm.inv.free_tree, hm.inv.allocated_tree, hm.inv.async⟩ hm.space hm.linked
  | transaction t data_size offsets_size extra_buffers_size is_async m =>
    simp only [call] at hc
    split at hc
    · cases hc
    · next ht =>
      obtain ⟨p, hp, rfl⟩ := withProc_eq_some hc
      exact binder_transaction_fine B (h.mapped hp) ht
  | copy_data_failed t =>
    obtain ⟨transaction, ht, hc⟩ := Option.bind_eq_some_iff.mp hc
    obtain ⟨p, hp, rfl⟩ := withProc_eq_some hc
    exact err_copy_data_failed_fine B (h.mapped hp) ht
  | received t keep =>
    obtain ⟨transaction, ht, hc⟩ := Option.bind_eq_some_iff.mp hc
    obtain ⟨p, hp, rfl⟩ := withProc_eq_some hc
    exact binder_thread_read_fine (h.mapped hp) ht
  | pop_transaction t =>
    obtain ⟨transaction, ht, hc⟩ := Option.bind_eq_some_iff.mp hc
    obtain ⟨p, hp, rfl⟩ := withProc_eq_some hc
    exact binder_pop_transaction_fine (h.mapped hp) ht
  | release_work t =>
    obtain ⟨transaction, ht, hc⟩ := Option.bind_eq_some_iff.mp hc
    obtain ⟨p, hp, rfl⟩ := withProc_eq_some hc
    exact binder_release_work_fine (h.mapped hp) ht
  | free_thread t =>
    obtain ⟨transaction, ht, hc⟩ := Option.bind_eq_some_iff.mp hc
    obtain ⟨p, hp, rfl⟩ := withProc_eq_some hc
    exact binder_free_thread_fine (h.mapped hp) ht
  | free_buffer data_ptr =>
    obtain ⟨p, hp, rfl⟩ := withProc_eq_some hc
    exact BC_FREE_BUFFER_fine B (h.mapped hp) data_ptr
  | deferred_release =>
    unfold call at hc
    cases harea : d.area with
    | unmapped =>
      rw [harea] at hc
      cases hc
    | released =>
      rw [harea] at hc
      cases hc
    | mapped p =>
      rw [harea] at hc
      simp only at hc
      split at hc
      · cases hc
      · next hvma =>
        cases Option.some.inj hc
        exact binder_deferred_release_fine B (h.mapped harea) (by simpa using hvma)

theorem init_inv : ({} : Driver).Inv := Or.inr ⟨fun p hp => (by cases hp), fun t => rfl⟩

theorem step_fine {s s' : Except Bug Driver} {c : Call} (h : Fine s) (hs : (machine B).step s c = some s') : Fine s' := by
  obtain ⟨d, rfl, hd⟩ := h
  exact call_fine B hd hs

theorem reachable_fine {s : Except Bug Driver} (h : (machine B).Reachable s) : Fine s :=
  h.invariant ⟨{}, rfl, init_inv⟩ fun _ _ _ hs h => step_fine B hs h

/-- What follows from the invariant of a mapped area holds in every state of every run. -/
theorem allStates_of_mapped {Q : Driver → Proc → Prop} (hQ : ∀ d p, d.Mapped p → Q d p) (calls : List Call) :
    (machine B).AllStates (fun s => ∀ d p, s = .ok d → d.area = .mapped p → Q d p) (machine B).init calls :=
  Machine.allStates_of_invariant (P := Fine) (fun _ _ _ hs h => step_fine B hs h)
    (fun s hs d p heq hp => by
      obtain ⟨d', rfl, hd⟩ := hs
      cases Except.ok.inj heq
      exact hQ d p (hd.mapped hp))
    ⟨{}, rfl, init_inv⟩

/-- No run meets a `BUG_ON`, follows a pointer to nothing, maps a page twice or frees one that is not mapped. -/
theorem runs_meet_no_bug (calls : List Call) :
    (machine B).AllStates (fun s => ∃ d, s = .ok d) (machine B).init calls :=
  Machine.allStates_of_invariant (P := Fine) (fun _ _ _ hs h => step_fine B hs h) (fun _ hs => hs.imp fun _ h => h.1)
    ⟨{}, rfl, init_inv⟩

/-- In every state the buffers tile the area, no two free ones are next to each other, and a page is mapped unless it is
inside the data of a free buffer. -/
theorem pages_mapped_as_needed (calls : List Call) :
    (machine B).AllStates (fun s => ∀ d p, s = .ok d → d.area = .mapped p →
      (p.buffers.head?.map Buffer.addr = some 0 ∧ ∀ s ∈ spans p.buffer_size p.buffers, s.1.data ≤ s.2) ∧
      (∀ before b c after, p.buffers = before ++ b :: c :: after → ¬(b.free = true ∧ c.free = true)) ∧
      ∀ k, p.pages k = true ↔ k < p.page_count ∧ ¬∃ s ∈ spans p.buffer_size p.buffers,
        s.1.free = true ∧ s.1.data ≤ k * PAGE_SIZE ∧ (k + 1) * PAGE_SIZE ≤ s.2) (machine B).init calls := by
  refine allStates_of_mapped B (fun d p h => ⟨⟨h.inv.layout.first, h.inv.layout.fits⟩, fun before b c after hl => ?_,
    fun k => ?_⟩) calls
  · have hmerged := hl ▸ h.inv.merged
    exact (List.isChain_append_cons_cons.mp hmerged).2.1
  · rw [h.inv.layout.backed k]
    refine and_congr_right fun _ => not_congr (exists_congr fun s => and_congr_right fun _ => and_congr_right fun _ => ?_)
    rw [pageAlign_le_iff, lt_pageOf_iff]

/-- In every state the asynchronous transactions hold what is missing of their half of the area. -/
theorem async_space_accounted (calls : List Call) :
    (machine B).AllStates (fun s => ∀ d p, s = .ok d → d.area = .mapped p →
      p.free_async_space + ((p.buffers.filter fun b => !b.free && b.async_transaction).map fun b => b.size + header).sum =
        p.buffer_size / 2) (machine B).init calls := by
  have hsum : ∀ l : List Buffer,
      ((l.filter fun b => !b.free && b.async_transaction).map fun b => b.size + header).sum = asyncBytes l := by
    intro l
    induction l with
    | nil => rfl
    | cons b l ih =>
      rw [asyncBytes, List.map_cons, List.sum_cons, ← asyncBytes, ← ih, List.filter_cons, Buffer.asyncBytes]
      cases b.free <;> cases b.async_transaction <;> simp
  refine allStates_of_mapped B (fun d p h => ?_) calls
  rw [hsum]
  exact h.inv.async

/-- Once no buffer is left, the area is as it was mapped: one free buffer, and one page. -/
theorem drained_area_is_fresh (calls : List Call) :
    (machine B).AllStates (fun s => ∀ d p, s = .ok d → d.area = .mapped p → (∀ b ∈ p.buffers, b.free = true) →
      (∃ b, p.buffers = [b] ∧ b.addr = 0) ∧ p.free_buffers.toList = [0] ∧ p.allocated_buffers.toList = [] ∧
      p.free_async_space = p.buffer_size / 2 ∧ ∀ k, p.pages k = true ↔ k = 0) (machine B).init calls := by
  refine allStates_of_mapped B (fun d p h hfree => ?_) calls
  have hfirst := h.inv.layout.first
  have hmerged := h.inv.merged
  have hasync := h.inv.async
  have hfits := fits_of_layout h.inv.layout
  have hnone : ∀ x, x ∉ p.allocated_buffers.toList := by
    intro x hx
    obtain ⟨c, ⟨hc, hcf⟩, -⟩ := (h.inv.allocated_tree.mem x).mp hx
    exact Bool.false_ne_true (hcf.symm.trans (hfree c hc))
  -- of two buffers next to each other one would not be free
  have hsingle : ∃ b, p.buffers = [b] ∧ b.addr = 0 := by
    cases hl : p.buffers with
    | nil =>
      rw [hl] at hfirst
      cases hfirst
    | cons b l =>
      cases l with
      | nil =>
        rw [hl] at hfirst
        exact ⟨b, rfl, Option.some.inj hfirst⟩
      | cons c l =>
        rw [hl] at hmerged hfree
        exact absurd ⟨hfree b (by simp), hfree c (by simp)⟩ (List.isChain_cons_cons.mp hmerged).1
  obtain ⟨b, hl, haddr⟩ := hsingle
  have hbf : b.free = true := hfree b (by rw [hl]; simp)
  refine ⟨⟨b, hl, haddr⟩, ?_, List.eq_nil_iff_forall_not_mem.mpr hnone, ?_, fun k => ?_⟩
  · have hmem : ∀ x, x ∈ p.free_buffers.toList ↔ x = 0 := by
      intro x
      rw [h.inv.free_tree.mem x, IsFree, hl]
      simp only [List.mem_singleton, exists_eq_left, haddr, hbf, and_true]
      exact eq_comm
    exact List.perm_singleton.mp ((List.perm_ext_iff_of_nodup h.inv.free_tree.nodup (List.pairwise_singleton _ 0)).mpr
      fun x => (hmem x).trans List.mem_singleton.symm)
  · rw [hl] at hasync
    have : asyncBytes [b] = 0 := by
      rw [asyncBytes, List.map_singleton, List.sum_singleton, asyncBytes_free hbf]
    omega
  · have hb := hfits (b, p.buffer_size) (by rw [hl]; exact List.mem_singleton_self _)
    have hunused : Unused (p.page_count * PAGE_SIZE) p.buffers k ↔ 1 ≤ k ∧ k < p.page_count := by
      rw [hl, unused_cons, top_nil, or_iff_left not_unused_nil, pageAlign_le_iff, lt_pageOf_iff,
        data_eq, haddr]
      simp only [hbf, true_and, PAGE_SIZE]
      omega
    rw [h.inv.layout.backed k, hunused]
    rw [data_eq, haddr] at hb
    simp only [buffer_size, PAGE_SIZE] at hb
    omega

/-- In every state a transaction and its buffer point at each other, and a transaction that waits has its buffer, which the
process cannot free. -/
theorem transactions_and_buffers_linked (calls : List Call) :
    (machine B).AllStates (fun s => ∀ d p, s = .ok d → d.area = .mapped p →
      (∀ t transaction a, d.transactions t = some transaction → transaction.buffer = some a →
        ∃ b ∈ p.buffers, b.free = false ∧ b.addr = a ∧ b.transaction = some t) ∧
      (∀ b ∈ p.buffers, b.free = false → ∀ t, b.transaction = some t →
        ∃ transaction, d.transactions t = some transaction ∧ transaction.buffer = some b.addr) ∧
      ∀ t transaction, d.queued t = some transaction →
        ∃ b ∈ p.buffers, b.free = false ∧ transaction.buffer = some b.addr ∧ b.allow_user_free = false)
      (machine B).init calls := by
  refine allStates_of_mapped B (fun d p h => ⟨fun t transaction a ht ha => ?_, fun b hb hbf t hbt => ?_,
    fun t transaction ht => ?_⟩) calls
  · obtain ⟨b, ⟨hb, hbf⟩, hba, hbt⟩ := h.linked.buffer t transaction a ht ha
    exact ⟨b, hb, hbf, hba, hbt⟩
  · exact h.linked.transaction b t ⟨hb, hbf⟩ hbt
  · obtain ⟨ht, hq⟩ := Option.filter_eq_some_iff.mp ht
    obtain ⟨b, ⟨hb, hbf⟩, hab, hallow⟩ := h.linked.queued t transaction ht hq
    exact ⟨b, hb, hbf, hab, hallow⟩

section Reachable

variable {p : Proc}

theorem mapped_of_reachable (h : (machine B).Reachable (.ok d)) (hp : d.area = .mapped p) : d.Mapped p := by
  obtain ⟨d', heq, hd⟩ := reachable_fine B h
  cases Except.ok.inj heq
  exact hd.mapped hp

/-- When its memory can be had, a buffer is found if and only if a free one has room for the data and the asynchronous
transactions have space left; the one that is found is a smallest one. -/
theorem alloc_iff_satisfiable (h : (machine B).Reachable (.ok d)) (hp : d.area = .mapped p) {m : Memory}
    (hmm : m.mm = true) (hm : ∀ k, m.fails k = false) (data_size offsets_size extra_buffers_size : UInt64)
    (is_async : Bool) :
    ∃ p' found, p.binder_alloc_buf B data_size offsets_size extra_buffers_size is_async m = .ok (p', found) ∧
      (found.isSome = true ↔ p.Satisfiable data_size offsets_size extra_buffers_size is_async) ∧
      (found = none → p' = p) ∧
      ∀ a, found = some a → ∃ b e, b.addr = a ∧ p.SmallestFit data_size offsets_size extra_buffers_size b e ∧
        ∀ x, x ∈ p'.buffers ∧ x.free = false ↔
          x = fill b data_size offsets_size extra_buffers_size is_async ∨ (x ∈ p.buffers ∧ x.free = false) := by
  have hmapped := mapped_of_reachable B h hp
  rcases binder_alloc_buf_ok B data_size offsets_size extra_buffers_size is_async m hmapped.inv with
    ⟨hok, hwhy⟩ | ⟨p', b, e, hok, hsat, hsmallest, -, -, hA⟩
  · refine ⟨p, none, hok, iff_of_false (by simp) fun hsat => ?_, fun _ => rfl, fun a ha => absurd ha (by simp)⟩
    rcases hwhy hsat with hno | ⟨k, hk⟩
    · exact Bool.false_ne_true (hno.symm.trans hmm)
    · exact Bool.false_ne_true ((hm k).symm.trans hk)
  · refine ⟨p', some b.addr, hok, iff_of_true rfl hsat, fun hnone => absurd hnone (by simp), fun a ha => ?_⟩
    exact ⟨b, e, Option.some.inj ha, hsmallest, hA⟩

theorem alloc_iff_satisfiable_second : ∃ d p, (machine .plain).Reachable (.ok d) ∧ d.area = .mapped p ∧
    ∃ p' found, p.binder_alloc_buf .plain 100 8 0 false {} = .ok (p', found) ∧
      (found.isSome = true ↔ p.Satisfiable 100 8 0 false) := by
  obtain ⟨d, p, hd, hp⟩ : ∃ d p, (machine .plain).Reachable (.ok d) ∧ d.area = .mapped p :=
    ⟨_, _, ⟨[.mmap 0x10000 4 16 {}, .transaction 1 5000 8 0 true {}], rfl⟩, rfl⟩
  obtain ⟨p', found, hok, hiff, -⟩ := alloc_iff_satisfiable .plain hd hp (m := {}) rfl (fun _ => rfl) 100 8 0 false
  exact ⟨d, p, hd, hp, p', found, hok, hiff⟩

/-- Whatever pointer a process passes to `BC_FREE_BUFFER`: the buffer whose data is there is freed, when it has been handed
out, and no other one. -/
theorem free_buffer_frees_what_was_given (h : (machine B).Reachable (.ok d)) (hp : d.area = .mapped p) (ptr : UInt64) :
    ∃ d' p', d.call B (.free_buffer ptr) = some (.ok d') ∧ d'.area = .mapped p' ∧
      ∀ x, x ∈ p'.buffers ∧ x.free = false ↔
        (x ∈ p.buffers ∧ x.free = false) ∧ ¬(p.user_ptr x.addr = ptr ∧ x.allow_user_free = true) := by
  have hmapped := mapped_of_reachable B h hp
  have hcall : d.call B (.free_buffer ptr) = some (d.BC_FREE_BUFFER B p ptr) := by
    rw [call, withProc, hp]
  rw [hcall]
  obtain ⟨found, hok, hfound⟩ := binder_buffer_lookup_ok hmapped.inv hmapped.space ptr
  unfold BC_FREE_BUFFER
  rw [bind_eq_of_ok hok]
  cases found with
  | none =>
    refine ⟨d, p, rfl, hp, fun x => (and_iff_left_of_imp fun hx hgiven => ?_).symm⟩
    exact absurd ((hfound x.addr).mpr ⟨⟨x, hx, rfl⟩, hgiven.1⟩) (by simp)
  | some a =>
    obtain ⟨⟨b, hb, rfl⟩, hptr⟩ := (hfound a).mp rfl
    have hat : ∀ x, p.Allocated x → p.user_ptr x.addr = ptr → x = b := fun x hx hxp =>
      addr_unique hmapped.inv x b hx hb (Option.some.inj ((hfound x.addr).mpr ⟨⟨x, hx, rfl⟩, hxp⟩)).symm
    simp only
    rw [bind_eq_of_ok (deref_ok (fits_of_layout hmapped.inv.layout) hb.1)]
    cases hallow : b.allow_user_free with
    | false =>
      refine ⟨d, p, rfl, hp, fun x => (and_iff_left_of_imp fun hx hgiven => ?_).symm⟩
      rw [hat x hx hgiven.1, hallow] at hgiven
      exact Bool.false_ne_true hgiven.2
    | true =>
      obtain ⟨p', hfree, -, -, hA⟩ := forget_free_ok B hmapped.inv hb
      have hforget : ∃ transactions, forgetBuffer d.transactions b = .ok transactions := by
        unfold forgetBuffer
        cases hbt : b.transaction with
        | none => exact ⟨_, rfl⟩
        | some t =>
          obtain ⟨transaction, ht, -⟩ := hmapped.linked.transaction b t hb hbt
          exact ⟨_, setBuffer_ok ht none⟩
      obtain ⟨transactions, hforget⟩ := hforget
      refine ⟨{ area := .mapped p', transactions }, p', ?_, rfl, fun x => (hA x).trans (and_congr_right fun hx => ?_)⟩
      · rw [if_neg (by simp), bind_eq_of_ok hforget, bind_eq_of_ok hfree]
        rfl
      · refine not_congr ⟨?_, fun hgiven => hat x hx hgiven.1⟩
        rintro rfl
        exact ⟨hptr, hallow⟩

theorem free_buffer_frees_what_was_given_first : ∃ d p d' p', (machine .plain).Reachable (.ok d) ∧ d.area = .mapped p ∧
    d.call .plain (.free_buffer 65624) = some (.ok d') ∧ d'.area = .mapped p' ∧
      ∀ x, x ∈ p'.buffers ∧ x.free = false ↔
        (x ∈ p.buffers ∧ x.free = false) ∧ ¬(p.user_ptr x.addr = 65624 ∧ x.allow_user_free = true) := by
  obtain ⟨d, p, hd, hp⟩ : ∃ d p, (machine .plain).Reachable (.ok d) ∧ d.area = .mapped p :=
    ⟨_, _, ⟨[.mmap 0x10000 4 16 {}, .transaction 1 5000 8 0 true {}, .received 1 true], rfl⟩, rfl⟩
  obtain ⟨d', p', hcall, hp', hA⟩ := free_buffer_frees_what_was_given .plain hd hp 65624
  exact ⟨d, p, d', p', hd, hp, hcall, hp', hA⟩

end Reachable

end Driver

end AnboxReboxed.Binder
