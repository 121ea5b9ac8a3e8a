import AnboxReboxed.Binder.BufferDriver
import AnboxReboxed.Binder.Proofs.BufferAllocProofs

/-!
# Proofs: the buffers of a process in a run

Whatever the process and its peers do, the area keeps its invariant, and the transactions and their buffers point at
each other.
-/

namespace AnboxReboxed.Binder

open AnboxReboxed.Lib

/-- The transactions `T` and the allocated buffers `A` know each other. -/
structure Linked (T : TransactionId → Option Transaction) (A : Buffer → Prop) : Prop where
  unique : ∀ b c, A b → A c → b.addr = c.addr → b = c
  buffer : ∀ t transaction a, T t = some transaction → transaction.buffer = some a →
    ∃ b, A b ∧ b.addr = a ∧ b.transaction = some t
  transaction : ∀ b t, A b → b.transaction = some t →
    ∃ transaction, T t = some transaction ∧ transaction.buffer = some b.addr
  queued : ∀ t transaction, T t = some transaction → transaction.queued = true →
    ∃ b, A b ∧ transaction.buffer = some b.addr ∧ b.allow_user_free = false

namespace Linked

variable {T : TransactionId → Option Transaction} {A A' : Buffer → Prop} {b b' : Buffer} {t : TransactionId}

theorem congr (h : Linked T A) (hA : ∀ x, A' x ↔ A x) : Linked T A' := by
  have : A' = A := funext fun x => propext (hA x)
  rw [this]
  exact h

/-- A buffer is taken for a new transaction. -/
theorem add (h : Linked T A) (ht : T t = none) (hb : b.transaction = some t) (hfree : b.allow_user_free = false)
    (hnew : ∀ x, A x → x.addr ≠ b.addr) (hA : ∀ x, A' x ↔ x = b ∨ A x) :
    Linked (fun u => if u = t then some { buffer := some b.addr, queued := true } else T u) A' := by
  refine ⟨fun x y hx hy heq => ?_, fun u transaction a hu ha => ?_, fun x u hx hxu => ?_, fun u transaction hu hq => ?_⟩
  · rcases (hA x).mp hx with rfl | hx <;> rcases (hA y).mp hy with rfl | hy
    · rfl
    · exact absurd heq.symm (hnew y hy)
    · exact absurd heq (hnew x hx)
    · exact h.unique x y hx hy heq
  · by_cases hut : u = t
    · rw [if_pos hut] at hu
      cases Option.some.inj hu
      exact ⟨b, (hA b).mpr (Or.inl rfl), Option.some.inj ha, hut ▸ hb⟩
    · rw [if_neg hut] at hu
      obtain ⟨c, hc, hca, hcu⟩ := h.buffer u transaction a hu ha
      exact ⟨c, (hA c).mpr (Or.inr hc), hca, hcu⟩
  · rcases (hA x).mp hx with rfl | hx
    · exact ⟨_, if_pos (Option.some.inj (hxu.symm.trans hb)), rfl⟩
    · obtain ⟨transaction, hu, ha⟩ := h.transaction x u hx hxu
      refine ⟨transaction, ?_, ha⟩
      rw [if_neg]
      · exact hu
      · rintro rfl
        exact absurd (ht.symm.trans hu) (by simp)
  · by_cases hut : u = t
    · rw [if_pos hut] at hu
      cases Option.some.inj hu
      exact ⟨b, (hA b).mpr (Or.inl rfl), rfl, hfree⟩
    · rw [if_neg hut] at hu
      obtain ⟨c, hc, hca, hcf⟩ := h.queued u transaction hu hq
      exact ⟨c, (hA c).mpr (Or.inr hc), hca, hcf⟩

/-- The buffer of a transaction is not that of another one. -/
theorem ne_of_buffer (h : Linked T A) (hb : A b) (hbt : b.transaction = some t) {u : TransactionId} {c : Buffer}
    (hc : A c) {transaction : Transaction} (hu : T u = some transaction) (ha : transaction.buffer = some c.addr)
    (hne : u ≠ t) : c ≠ b := by
  rintro rfl
  obtain ⟨d, hd, hda, hdu⟩ := h.buffer u transaction c.addr hu ha
  cases h.unique d c hd hc hda
  exact hne (Option.some.inj (hdu.symm.trans hbt))

/-- A transaction and its buffer forget each other, and the buffer may be freed as well. -/
theorem forget (h : Linked T A) (hb : A b) (hbt : b.transaction = some t) {left : Option Transaction}
    (hleft : ∀ transaction, left = some transaction → transaction.buffer = none ∧ transaction.queued = false)
    (rest : Buffer → Prop) (hrest : ∀ x, rest x → x.transaction = none ∧ x.addr = b.addr)
    (hsub : ∀ x y, rest x → rest y → x = y) (hA : ∀ x, A' x ↔ rest x ∨ (A x ∧ x ≠ b)) :
    Linked (fun u => if u = t then left else T u) A' := by
  refine ⟨fun x y hx hy heq => ?_, fun u transaction a hu ha => ?_, fun x u hx hxu => ?_, fun u transaction hu hq => ?_⟩
  · rcases (hA x).mp hx with hx | hx <;> rcases (hA y).mp hy with hy | hy
    · exact hsub x y hx hy
    · exact absurd (h.unique y b hy.1 hb (heq.symm.trans (hrest x hx).2)) hy.2
    · exact absurd (h.unique x b hx.1 hb (heq.trans (hrest y hy).2)) hx.2
    · exact h.unique x y hx.1 hy.1 heq
  · by_cases hut : u = t
    · rw [if_pos hut] at hu
      exact absurd ((hleft transaction hu).1.symm.trans ha) (by simp)
    · rw [if_neg hut] at hu
      obtain ⟨c, hc, rfl, hcu⟩ := h.buffer u transaction a hu ha
      exact ⟨c, (hA c).mpr (Or.inr ⟨hc, h.ne_of_buffer hb hbt hc hu ha hut⟩), rfl, hcu⟩
  · rcases (hA x).mp hx with hx | ⟨hx, hne⟩
    · exact absurd ((hrest x hx).1.symm.trans hxu) (by simp)
    · obtain ⟨transaction, hu, ha⟩ := h.transaction x u hx hxu
      refine ⟨transaction, ?_, ha⟩
      rw [if_neg]
      · exact hu
      · rintro rfl
        obtain ⟨transaction', hu', ha'⟩ := h.transaction b u hb hbt
        cases Option.some.inj (hu.symm.trans hu')
        exact hne (h.unique x b hx hb (Option.some.inj (ha.symm.trans ha')))
  · by_cases hut : u = t
    · rw [if_pos hut] at hu
      exact absurd ((hleft transaction hu).2.symm.trans hq) Bool.false_ne_true
    · rw [if_neg hut] at hu
      obtain ⟨c, hc, hca, hcf⟩ := h.queued u transaction hu hq
      exact ⟨c, (hA c).mpr (Or.inr ⟨hc, h.ne_of_buffer hb hbt hc hu hca hut⟩), hca, hcf⟩

/-- A transaction is received and kept; the process may free the buffer then. -/
theorem keep (b' : Buffer) (h : Linked T A) (hb : A b) (hbt : b.transaction = some t) {transaction : Transaction}
    (ht : T t = some transaction) (haddr : b'.addr = b.addr) (hbt' : b'.transaction = some t)
    (hA : ∀ x, A' x ↔ x = b' ∨ (A x ∧ x ≠ b)) :
    Linked (fun u => if u = t then some { transaction with queued := false } else T u) A' := by
  obtain ⟨transaction', ht', ha'⟩ := h.transaction b t hb hbt
  cases Option.some.inj (ht.symm.trans ht')
  refine ⟨fun x y hx hy heq => ?_, fun u transaction a hu ha => ?_, fun x u hx hxu => ?_, fun u transaction hu hq => ?_⟩
  · rcases (hA x).mp hx with rfl | hx <;> rcases (hA y).mp hy with rfl | hy
    · rfl
    · exact absurd (h.unique y b hy.1 hb (heq.symm.trans haddr)) hy.2
    · exact absurd (h.unique x b hx.1 hb (heq.trans haddr)) hx.2
    · exact h.unique x y hx.1 hy.1 heq
  · by_cases hut : u = t
    · rw [if_pos hut] at hu
      cases Option.some.inj hu
      exact ⟨b', (hA b').mpr (Or.inl rfl), haddr.trans (Option.some.inj (ha'.symm.trans ha)), hut ▸ hbt'⟩
    · rw [if_neg hut] at hu
      obtain ⟨c, hc, rfl, hcu⟩ := h.buffer u transaction a hu ha
      exact ⟨c, (hA c).mpr (Or.inr ⟨hc, h.ne_of_buffer hb hbt hc hu ha hut⟩), rfl, hcu⟩
  · rcases (hA x).mp hx with rfl | ⟨hx, hne⟩
    · refine ⟨_, if_pos (Option.some.inj (hxu.symm.trans hbt')), ?_⟩
      rw [haddr]
      exact ha'
    · obtain ⟨transaction', hu, ha⟩ := h.transaction x u hx hxu
      refine ⟨transaction', ?_, ha⟩
      rw [if_neg]
      · exact hu
      · rintro rfl
        cases Option.some.inj (hu.symm.trans ht)
        exact hne (h.unique x b hx hb (Option.some.inj (ha.symm.trans ha')))
  · by_cases hut : u = t
    · rw [if_pos hut] at hu
      cases Option.some.inj hu
      exact absurd hq Bool.false_ne_true
    · rw [if_neg hut] at hu
      obtain ⟨c, hc, hca, hcf⟩ := h.queued u transaction hu hq
      exact ⟨c, (hA c).mpr (Or.inr ⟨hc, h.ne_of_buffer hb hbt hc hu hca hut⟩), hca, hcf⟩

/-- A buffer that no transaction refers to is freed. -/
theorem free (h : Linked T A) (hb : A b) (hbt : b.transaction = none) (hA : ∀ x, A' x ↔ A x ∧ x ≠ b) : Linked T A' := by
  have hne : ∀ c u, c.transaction = some u → c ≠ b := by
    rintro c u hc rfl
    exact absurd (hbt.symm.trans hc) (by simp)
  refine ⟨fun x y hx hy heq => h.unique x y ((hA x).mp hx).1 ((hA y).mp hy).1 heq, fun u transaction a hu ha => ?_,
    fun x u hx hxu => h.transaction x u ((hA x).mp hx).1 hxu, fun u transaction hu hq => ?_⟩
  · obtain ⟨c, hc, hca, hcu⟩ := h.buffer u transaction a hu ha
    exact ⟨c, (hA c).mpr ⟨hc, hne c u hcu⟩, hca, hcu⟩
  · obtain ⟨c, hc, hca, hcf⟩ := h.queued u transaction hu hq
    obtain ⟨d, hd, hda, hdu⟩ := h.buffer u transaction c.addr hu hca
    cases h.unique d c hd hc hda
    exact ⟨c, (hA c).mpr ⟨hc, hne c u hdu⟩, hca, hcf⟩

/-- A transaction without a buffer ends. -/
theorem kfree (h : Linked T A) {transaction : Transaction} (ht : T t = some transaction)
    (hnone : transaction.buffer = none) : Linked (fun u => if u = t then none else T u) A := by
  refine ⟨h.unique, fun u transaction a hu ha => ?_, fun x u hx hxu => ?_, fun u transaction hu hq => ?_⟩
  · by_cases hut : u = t
    · rw [if_pos hut] at hu
      exact absurd hu (by simp)
    · rw [if_neg hut] at hu
      exact h.buffer u transaction a hu ha
  · obtain ⟨transaction', hu, ha⟩ := h.transaction x u hx hxu
    refine ⟨transaction', ?_, ha⟩
    rw [if_neg]
    · exact hu
    · rintro rfl
      cases Option.some.inj (hu.symm.trans ht)
      exact absurd (hnone.symm.trans ha) (by simp)
  · by_cases hut : u = t
    · rw [if_pos hut] at hu
      exact absurd hu (by simp)
    · rw [if_neg hut] at hu
      exact h.queued u transaction hu hq

end Linked

namespace Proc

variable (B : SearchTree.Balancing Nat) {p : Proc} {b : Buffer}

theorem addr_unique (h : Inv p) (x y : Buffer) (hx : p.Allocated x) (hy : p.Allocated y) (heq : x.addr = y.addr) : x = y :=
  (fits_of_layout h.layout).eq_of_addr_eq hx.1 hy.1 heq

/-- A buffer is changed in what the area does not depend on. -/
theorem update_ok (h : Inv p) (hb : p.Allocated b) {f : Buffer → Buffer} (haddr : (f b).addr = b.addr)
    (hfree : (f b).free = b.free) (hsize : (f b).size = b.size)
    (hasync : (f b).async_transaction = b.async_transaction) :
    Inv (p.update b.addr f) ∧ SameArea p (p.update b.addr f) ∧
      ∀ x, (p.update b.addr f).Allocated x ↔ x = f b ∨ (p.Allocated x ∧ x ≠ b) := by
  obtain ⟨before, after, hl⟩ := List.append_of_mem hb.1
  have hfits := fits_of_layout h.layout
  have hff : (f b).free = false := hfree.trans hb.2
  rw [update_split hfits hl]
  obtain ⟨p', hp'⟩ : ∃ p' : Proc, p' = { p with buffers := before ++ f b :: after } := ⟨_, rfl⟩
  rw [← hp']
  have hl' : p'.buffers = before ++ ([f b] ++ after) := by
    rw [hp']
    rfl
  have hlayout : Layout p'.page_count p'.buffers p'.pages := by
    rw [hp']
    exact (hl ▸ h.layout).replace haddr hfree fun _ => hsize
  have hsizes : ∀ x, p'.binder_buffer_size x = p.binder_buffer_size x :=
    binder_buffer_size_congr (by rw [hp']) (by rw [hp', hl]; simp [haddr])
  have hrep : Replaced p p' b [f b] :=
    replaced hfits (fits_of_layout hlayout) (by rw [hp']) hl hl' haddr
  have halloc : ∀ x, p'.Allocated x ↔ x = f b ∨ (p.Allocated x ∧ x ≠ b) := by
    intro x
    rw [Allocated, Allocated, hrep.mem x, List.mem_singleton]
    constructor
    · rintro ⟨rfl | ⟨hx, hne⟩, hxf⟩
      · exact Or.inl rfl
      · exact Or.inr ⟨⟨hx, hxf⟩, hne⟩
    · rintro (rfl | ⟨⟨hx, hxf⟩, hne⟩)
      · exact ⟨Or.inl rfl, hff⟩
      · exact ⟨Or.inr ⟨hx, hne⟩, hxf⟩
  have hisfree : ∀ a, p'.IsFree a ↔ p.IsFree a := by
    intro a
    constructor
    · rintro ⟨d, hd, rfl, hdf⟩
      rcases (hrep.mem d).mp hd with hd | hd
      · rw [List.mem_singleton.mp hd, hff] at hdf
        exact absurd hdf Bool.false_ne_true
      · exact ⟨d, hd.1, rfl, hdf⟩
    · rintro ⟨d, hd, rfl, hdf⟩
      exact ⟨d, (hrep.mem d).mpr (Or.inr ⟨hd, fun heq => Bool.false_ne_true (hb.2.symm.trans (heq ▸ hdf))⟩), rfl, hdf⟩
  have hisalloc : ∀ a, p'.IsAllocated a ↔ p.IsAllocated a := by
    intro a
    constructor
    · rintro ⟨d, hd, rfl⟩
      rcases (halloc d).mp hd with rfl | hd
      · exact ⟨b, hb, haddr.symm⟩
      · exact ⟨d, hd.1, rfl⟩
    · rintro ⟨d, hd, rfl⟩
      by_cases hdb : d = b
      · exact ⟨f b, (halloc _).mpr (Or.inl rfl), hdb ▸ haddr⟩
      · exact ⟨d, (halloc d).mpr (Or.inr ⟨hd, hdb⟩), rfl⟩
  refine ⟨⟨by rw [hp']; exact h.small, hlayout, ?_, ?_, ?_, ?_⟩, by rw [hp']; exact ⟨rfl, rfl, rfl, rfl⟩, halloc⟩
  · rw [hl']
    obtain ⟨h1, h2, h3, h4⟩ := apart_split.mp (hl ▸ h.merged)
    refine apart_split.mpr ⟨h1, h2, fun x hx hf => Bool.false_ne_true (hff.symm.trans hf.2),
      fun y hy hf => Bool.false_ne_true (hff.symm.trans hf.1)⟩
  · have htree := h.free_tree.congr (fun x _ => hsizes x) hisfree
    rw [hp'] at htree ⊢
    exact htree
  · have htree := h.allocated_tree.congr (fun _ _ => rfl) hisalloc
    rw [hp'] at htree ⊢
    exact htree
  · have hold := h.async
    rw [hl, asyncBytes_split] at hold
    rw [hl', List.singleton_append, asyncBytes_split, Buffer.asyncBytes, hfree, hasync, hsize, ← Buffer.asyncBytes]
    rw [hp']
    exact hold

/-- `t->buffer->transaction = NULL` -/
theorem forget_ok (h : Inv p) (hb : p.Allocated b) :
    ∃ p', Driver.forget p b.addr = .ok p' ∧ Inv p' ∧ SameArea p p' ∧
      ∀ x, p'.Allocated x ↔ x = { b with transaction := none } ∨ (p.Allocated x ∧ x ≠ b) := by
  obtain ⟨hinv, hsame, halloc⟩ := update_ok h hb (f := fun b => { b with transaction := none }) rfl rfl rfl rfl
  exact ⟨_, bind_eq_of_ok (deref_ok (fits_of_layout h.layout) hb.1), hinv, hsame, halloc⟩

/-- The buffer of a transaction is freed. -/
theorem forget_free_ok (h : Inv p) (hb : p.Allocated b) :
    ∃ p', (p.update b.addr fun b => { b with transaction := none }).binder_free_buf B b.addr = .ok p' ∧ Inv p' ∧
      SameArea p p' ∧ ∀ x, p'.Allocated x ↔ p.Allocated x ∧ x ≠ b := by
  obtain ⟨hinv, hsame, halloc⟩ := update_ok h hb (f := fun b => { b with transaction := none }) rfl rfl rfl rfl
  obtain ⟨p', hok, hinv', hsame', halloc'⟩ := binder_free_buf_ok B hinv ((halloc _).mpr (Or.inl rfl)) rfl
  refine ⟨p', hok, hinv', hsame.trans hsame', fun x => ?_⟩
  rw [halloc' x, halloc x]
  constructor
  · rintro ⟨hx | hx, hne⟩
    · exact absurd hx hne
    · exact hx
  · rintro ⟨hx, hne⟩
    refine ⟨Or.inr ⟨hx, hne⟩, ?_⟩
    rintro rfl
    exact hne (addr_unique h _ b hx hb rfl)

/-- A pointer of the process leads to the allocated buffer whose data is there, and to no other one. -/
theorem binder_buffer_lookup_ok (h : Inv p) (hspace : (p.base + p.page_count) * PAGE_SIZE ≤ 2 ^ 64) (ptr : UInt64) :
    ∃ found, p.binder_buffer_lookup ptr = .ok found ∧ ∀ a, found = some a ↔ p.IsAllocated a ∧ p.user_ptr a = ptr := by
  have hfits := fits_of_layout h.layout
  obtain ⟨kern_ptr, hkern⟩ : ∃ k, k = (ptr - p.user_buffer_offset - UInt64.ofNat header).toNat := ⟨_, rfl⟩
  have hord : p.allocated_buffers.Ordered fun x => p.base * PAGE_SIZE + x :=
    h.allocated_tree.ordered.imp fun hle => Nat.add_le_add_left hle _
  obtain ⟨found, hok, hfound⟩ := SearchTree.find_spec (fun n => do
      let buffer ← p.deref n
      bugOn buffer.free
      return compare kern_ptr (p.base * PAGE_SIZE + n)) kern_ptr hord
    (fun x _ y _ heq => Nat.add_left_cancel heq) (fun x hx => by
        obtain ⟨d, hd, rfl⟩ := (h.allocated_tree.mem x).mp hx
        rw [bind_eq_of_ok (deref_ok hfits hd.1), bind_eq_of_ok (bugOn_ok hd.2)]
        rfl)
  refine ⟨found, ?_, fun a => ?_⟩
  · rw [binder_buffer_lookup]
    rw [hkern] at hok
    exact hok
  · rw [hfound a, h.allocated_tree.mem a]
    refine and_congr_right fun ha => ?_
    obtain ⟨d, hd, rfl⟩ := ha
    have hin := (hfits.addr_bounds hd.1).2
    rw [data_eq] at hin
    have hlt : p.base * PAGE_SIZE + d.addr < 2 ^ 64 := by
      simp only [buffer_size, PAGE_SIZE] at *
      omega
    have hof : (UInt64.ofNat (p.base * PAGE_SIZE + d.addr)).toNat = p.base * PAGE_SIZE + d.addr :=
      UInt64.toNat_ofNat_of_lt' hlt
    have hptr : p.user_ptr d.addr = UInt64.ofNat (p.base * PAGE_SIZE + d.addr) + UInt64.ofNat header + p.user_buffer_offset := by
      rw [user_ptr, UInt64.ofNat_add]
    rw [hptr, hkern, ← hof]
    constructor
    · intro heq
      have := UInt64.toNat_inj.mp heq
      rw [this]
      grind
    · rintro rfl
      congr 1
      grind

/-- A new area is one free buffer, and its first page is mapped. -/
theorem binder_mmap_ok (vm_start : UInt64) {len : Nat} (base : Nat) (m : Memory) (hlen : 0 < len) :
    binder_mmap B vm_start len base m = .ok none ∨
    ∃ p, binder_mmap B vm_start len base m = .ok (some p) ∧ Inv p ∧ p.base = base ∧ p.page_count = min len SZ_4M ∧
      ∀ x, ¬p.Allocated x := by
  have hcount : 0 < min len SZ_4M := Nat.lt_min.mpr ⟨hlen, by decide⟩
  unfold binder_mmap
  generalize hp0 : reserved vm_start len base = p0
  rcases mapPages_ok p0 true m.fails 0 1 (fun k _ hk => by
    rw [← hp0]
    exact ⟨rfl, by show k < min len SZ_4M; omega⟩) with ⟨hok, -⟩ | hok
  · exact Or.inl (bind_eq_of_ok hok)
  · obtain ⟨q, hq⟩ : ∃ q : Proc, q = { p0 with
      pages := setPages 0 1 true p0.pages, buffers := [{ addr := 0, free := true }] } := ⟨_, rfl⟩
    have hqcount : q.page_count = min len SZ_4M := by
      rw [hq, ← hp0]
      rfl
    have hqbuffers : q.buffers = [{ addr := 0, free := true }] := by rw [hq]
    have hlayout : Layout q.page_count q.buffers q.pages := by
      rw [hqcount, hqbuffers]
      refine ⟨rfl, fits_cons.mpr ⟨?_, fun s hs => absurd hs List.not_mem_nil⟩, fun k => ?_, ?_⟩
      · rw [top_nil]
        show 0 + header ≤ min len SZ_4M * PAGE_SIZE
        simp only [header, PAGE_SIZE]
        omega
      · rw [unused_cons, top_nil, lt_pageOf_iff, pageAlign_le_iff]
        have hpages : q.pages k = decide (k = 0) := by
          rw [hq, ← hp0]
          show setPages 0 1 true (fun _ => false) k = decide (k = 0)
          unfold setPages
          by_cases hk : k = 0
          · rw [if_pos (by omega), hk]
            rfl
          · rw [if_neg (by omega)]
            simp [hk]
        rw [hpages, decide_eq_true_eq, or_iff_left not_unused_nil]
        show k = 0 ↔ k < min len SZ_4M ∧ ¬(true = true ∧ 0 + header ≤ k * PAGE_SIZE ∧ _)
        simp only [header, PAGE_SIZE, true_and]
        omega
      · intro s hs hf
        rw [spans_cons, spans_nil, List.mem_singleton] at hs
        rw [hs] at hf
        exact absurd hf (by simp)
    have hnone : ∀ x, ¬q.Allocated x := by
      rintro x ⟨hx, hxf⟩
      rw [hqbuffers, List.mem_singleton] at hx
      rw [hx] at hxf
      exact absurd hxf (by simp)
    have hfree : q.IsFree 0 := ⟨{ addr := 0, free := true }, by rw [hqbuffers]; simp, rfl, rfl⟩
    obtain ⟨t, hins, ht⟩ := binder_insert_free_buffer_ok B (fits_of_layout hlayout) hfree (S := fun _ => False)
      (by rw [show q.free_buffers = .leaf by rw [hq, ← hp0]; rfl]; exact SearchTree.Indexed.empty) (fun x hx => hx.elim) id
    refine Or.inr ⟨{ q with free_buffers := t, free_async_space := q.buffer_size / 2, vma := true }, ?_, ?_, ?_, hqcount,
      hnone⟩
    · refine (bind_eq_of_ok hok).trans ?_
      rw [hq] at hins ⊢
      exact bind_eq_of_ok hins
    · refine ⟨by rw [hqcount]; exact Nat.min_le_right .., hlayout, ?_, ht.congr (fun _ _ => rfl) fun x => ?_, ?_, ?_⟩
      · show q.buffers.IsChain Apart
        rw [hqbuffers]
        exact List.isChain_singleton _
      · rw [false_or]
        constructor
        · rintro ⟨d, hd, rfl, -⟩
          rw [hqbuffers, List.mem_singleton] at hd
          rw [hd]
        · rintro rfl
          exact hfree
      · rw [show q.allocated_buffers = .leaf by rw [hq, ← hp0]; rfl]
        refine SearchTree.Indexed.empty.congr (fun _ _ => rfl) fun x => ?_
        rw [iff_false]
        rintro ⟨d, hd, -⟩
        exact hnone d hd
      · show q.buffer_size / 2 + asyncBytes q.buffers = q.buffer_size / 2
        rw [hqbuffers]
        rfl
    · rw [hq, ← hp0]
      rfl

theorem setBuffer_ok {T : TransactionId → Option Transaction} {t : TransactionId} {transaction : Transaction}
    (h : T t = some transaction) (buffer : Option Nat) :
    setBuffer T t buffer = .ok fun u => if u = t then some { transaction with buffer } else T u := by
  rw [setBuffer, h]

/-- There are no more rounds than buffers. -/
theorem Inv.length_le (h : Inv p) : p.allocated_buffers.toList.length ≤ p.buffers.length := by
  rw [← List.length_map (f := Buffer.addr)]
  refine h.allocated_tree.nodup.length_le_of_subset fun x hx => ?_
  obtain ⟨d, hd, rfl⟩ := (h.allocated_tree.mem x).mp hx
  exact List.mem_map_of_mem hd.1

/-- Each round frees one buffer. -/
theorem Inv.length_lt {p' : Proc} (h : Inv p) (h' : Inv p') (hb : p.Allocated b)
    (hA : ∀ x, p'.Allocated x ↔ p.Allocated x ∧ x ≠ b) :
    p'.allocated_buffers.toList.length < p.allocated_buffers.toList.length := by
  have hmem : b.addr ∈ p.allocated_buffers.toList := (h.allocated_tree.mem _).mpr ⟨b, hb, rfl⟩
  have hsub : p'.allocated_buffers.toList ⊆ p.allocated_buffers.toList.erase b.addr := by
    intro x hx
    obtain ⟨d, hd, rfl⟩ := (h'.allocated_tree.mem x).mp hx
    obtain ⟨hd, hne⟩ := (hA d).mp hd
    rw [h.allocated_tree.nodup.mem_erase_iff]
    exact ⟨fun heq => hne (addr_unique h d b hd hb heq), (h.allocated_tree.mem _).mpr ⟨d, hd, rfl⟩⟩
  have hle := h'.allocated_tree.nodup.length_le_of_subset hsub
  rw [List.length_erase_of_mem hmem] at hle
  have := List.length_pos_of_mem hmem
  omega

/-- All buffers that are left are freed. -/
theorem releaseBuffers_ok {n : Nat} {T : TransactionId → Option Transaction} (h : Inv p)
    (hT : ∀ b t, p.Allocated b → b.transaction = some t → ∃ transaction, T t = some transaction)
    (hn : p.allocated_buffers.toList.length ≤ n) :
    ∃ T' p', releaseBuffers B n T p = .ok (T', p') ∧ Inv p' ∧ SameArea p p' ∧ ∀ x, ¬p'.Allocated x := by
  induction n generalizing p T with
  | zero =>
    have hnil : p.allocated_buffers.toList = [] := List.length_eq_zero_iff.mp (Nat.le_zero.mp hn)
    refine ⟨T, p, by rw [releaseBuffers, hnil], h, .refl p, fun x hx => ?_⟩
    have := (h.allocated_tree.mem x.addr).mpr ⟨x, hx, rfl⟩
    rw [hnil] at this
    exact List.not_mem_nil this
  | succ n ih =>
    cases hlist : p.allocated_buffers.toList with
    | nil =>
      refine ⟨T, p, by rw [releaseBuffers, hlist], h, .refl p, fun x hx => ?_⟩
      have := (h.allocated_tree.mem x.addr).mpr ⟨x, hx, rfl⟩
      rw [hlist] at this
      exact List.not_mem_nil this
    | cons first rest =>
      obtain ⟨b, hb, rfl⟩ := (h.allocated_tree.mem first).mp (by rw [hlist]; exact List.mem_cons_self)
      obtain ⟨p1, hfree, hinv1, hsame1, hA1⟩ := forget_free_ok B h hb
      have hlt := h.length_lt hinv1 hb hA1
      have hset : ∃ T1, forgetBuffer T b = .ok T1 ∧
          ∀ u, (∃ transaction, T u = some transaction) → ∃ transaction, T1 u = some transaction := by
        unfold forgetBuffer
        cases hbt : b.transaction with
        | none => exact ⟨T, rfl, fun u hu => hu⟩
        | some t =>
          obtain ⟨transaction, ht⟩ := hT b t hb hbt
          refine ⟨_, setBuffer_ok ht none, fun u hu => ?_⟩
          by_cases hut : u = t
          · exact ⟨_, if_pos hut⟩
          · simp only [if_neg hut]
            exact hu
      obtain ⟨T1, hset, hdom⟩ := hset
      obtain ⟨T', p', hrest, hinv', hsame', hnone⟩ := ih hinv1 (T := T1)
        (fun c t hc hct => hdom t (hT c t ((hA1 c).mp hc).1 hct)) (by omega)
      refine ⟨T', p', ?_, hinv', hsame1.trans hsame', hnone⟩
      rw [releaseBuffers, hlist]
      simp only
      rw [bind_eq_of_ok (deref_ok (fits_of_layout h.layout) hb.1), bind_eq_of_ok hset, bind_eq_of_ok hfree]
      exact hrest

end Proc

end AnboxReboxed.Binder
