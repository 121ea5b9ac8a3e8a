import AnboxReboxed.Binder.Proofs.BufferAreaProofs

/-!
# Proofs: taking a buffer

The buffer that is taken is a smallest one that is large enough.
-/

namespace AnboxReboxed.Binder

open AnboxReboxed.Lib

namespace Proc

variable (B : SearchTree.Balancing Nat) {p : Proc} {before after : List Buffer} {b : Buffer}

theorem binder_buffer_size_congr {p' : Proc} (hcount : p'.page_count = p.page_count)
    (h : p'.buffers.map Buffer.addr = p.buffers.map Buffer.addr) (a : Nat) :
    p'.binder_buffer_size a = p.binder_buffer_size a := by
  have hmap : ∀ q : Proc, q.binder_buffer_size a =
      (((q.next a).map Buffer.addr).getD (q.page_count * PAGE_SIZE)) - (a + header) := by
    intro q
    rw [binder_buffer_size]
    cases q.next a <;> rfl
  rw [hmap, hmap, hcount, next, next, LinkedList.map_next_congr h]

theorem fits_replace {b' : Buffer} {stop : Nat} (h : Fits stop (before ++ b :: after)) (haddr : b'.addr = b.addr) :
    Fits stop (before ++ b' :: after) := by
  obtain ⟨hbefore, hcons⟩ := fits_append.mp h
  obtain ⟨hb, hafter⟩ := fits_cons.mp hcons
  refine fits_append.mpr ⟨?_, fits_cons.mpr ⟨?_, hafter⟩⟩
  · rw [top_cons, haddr]
    exact hbefore
  · rw [data_congr haddr]
    exact hb

/-- The buffer goes from one tree to the other. -/
theorem takeBuffer_ok (hfits : Fits p.buffer_size p.buffers) (hl : p.buffers = before ++ b :: after)
    (hb : b.free = true) (hfree : p.free_buffers.Indexed p.binder_buffer_size p.IsFree)
    (halloc : p.allocated_buffers.Indexed id p.IsAllocated) :
    ∃ free allocated, p.takeBuffer B b.addr = .ok { p with
        buffers := before ++ { b with free := false } :: after, free_buffers := free, allocated_buffers := allocated } ∧
      free.Indexed p.binder_buffer_size (fun x => p.IsFree x ∧ x ≠ b.addr) ∧
      allocated.Indexed id fun x => p.IsAllocated x ∨ x = b.addr := by
  have hmem : b ∈ p.buffers := by rw [hl]; simp
  obtain ⟨q, hq⟩ : ∃ q : Proc, q = { p with
    buffers := before ++ { b with free := false } :: after, free_buffers := B.erase b.addr p.free_buffers } := ⟨_, rfl⟩
  have hqfits : Fits q.buffer_size q.buffers := by
    rw [hl] at hfits
    rw [hq]
    exact fits_replace hfits rfl
  have hqb : q.IsAllocated b.addr := ⟨{ b with free := false }, ⟨by rw [hq]; simp, rfl⟩, rfl⟩
  have hqold : ∀ x, p.IsAllocated x → q.IsAllocated x := by
    rintro x ⟨d, ⟨hd, hdf⟩, rfl⟩
    refine ⟨d, ⟨?_, hdf⟩, rfl⟩
    rw [mem_split hl] at hd
    rw [hq, List.mem_append, List.mem_cons]
    rcases hd with hd | rfl | hd
    · exact Or.inl hd
    · exact absurd (hdf.symm.trans hb) Bool.false_ne_true
    · exact Or.inr (Or.inr hd)
  have hnot : ¬p.IsAllocated b.addr := fun h => not_isFree_of_isAllocated hfits h ⟨b, hmem, rfl, hb⟩
  obtain ⟨t, hok, ht⟩ := binder_insert_allocated_buffer_ok B hqfits hqb (S := p.IsAllocated) (by rw [hq]; exact halloc)
    hqold hnot
  refine ⟨B.erase b.addr p.free_buffers, t, ?_, hfree.erase B _ ⟨b, hmem, rfl, hb⟩ fun _ _ _ => rfl, ht⟩
  rw [takeBuffer, update, hl, LinkedList.modify_append _ _ _ (hl ▸ hfits).before_ne]
  rw [hq] at hok
  exact hok

/-- A new free buffer behind an allocated one. -/
theorem splitBuffer_ok {S : Nat → Prop} {size used : Nat} (before after : List Buffer) (b stale : Buffer)
    (hused : used ≠ size) (hfits : Fits p.buffer_size p.buffers)
    (hl : p.buffers = before ++ b :: after) (hb : b.free = false)
    (hsize : b.data + size + header ≤ top p.buffer_size after)
    (htree : p.free_buffers.Indexed p.binder_buffer_size S) (hS : ∀ x, S x → p.IsFree x) :
    ∃ p' t, p' = { p with
        buffers := before ++ b :: { stale with addr := b.data + size, free := true } :: after, free_buffers := t } ∧
      p.splitBuffer B b.addr size used stale = .ok p' ∧
      t.Indexed p'.binder_buffer_size fun x => S x ∨ x = b.data + size := by
  obtain ⟨new, hnew⟩ : ∃ new : Buffer, new = { stale with addr := b.data + size, free := true } := ⟨_, rfl⟩
  obtain ⟨q, hq⟩ : ∃ q : Proc, q = { p with buffers := before ++ b :: new :: after } := ⟨_, rfl⟩
  have hqsize : q.buffer_size = p.buffer_size := by rw [hq]; rfl
  have hqbuffers : q.buffers = before ++ b :: new :: after := by rw [hq]
  have haddr : new.addr = b.data + size := by rw [hnew]
  have hqfits : Fits q.buffer_size q.buffers := by
    rw [hqsize, hqbuffers]
    obtain ⟨hbefore, hcons⟩ := fits_append.mp (hl ▸ hfits)
    obtain ⟨-, hafter⟩ := fits_cons.mp hcons
    refine fits_append.mpr ⟨hbefore, fits_cons.mpr ⟨?_, fits_cons.mpr ⟨?_, hafter⟩⟩⟩
    · rw [top_cons, haddr]
      exact Nat.le_add_right ..
    · rw [Buffer.data, haddr]
      exact hsize
  have hrep : Replaced p q b [b, new] :=
    replaced hfits hqfits (by rw [hq]) hl hqbuffers rfl
  have hne : ∀ d ∈ p.buffers, d.free = true → d ≠ b := by
    rintro d - hd rfl
    exact Bool.false_ne_true (hb.symm.trans hd)
  have htree' : q.free_buffers.Indexed q.binder_buffer_size S := by
    have : q.free_buffers = p.free_buffers := by rw [hq]
    rw [this]
    refine htree.congr (fun x hx => ?_) fun _ => Iff.rfl
    obtain ⟨d, hd, rfl, hdf⟩ := hS x hx
    exact hrep.sizes d hd (hne d hd hdf)
  have hold : ∀ x, S x → q.IsFree x := by
    intro x hx
    obtain ⟨d, hd, rfl, hdf⟩ := hS x hx
    exact ⟨d, (hrep.mem d).mpr (Or.inr ⟨hd, hne d hd hdf⟩), rfl, hdf⟩
  have hfresh : ¬S new.addr := by
    intro hx
    obtain ⟨d, hd, heq, hdf⟩ := hS _ hx
    have hdq : d ∈ q.buffers := (hrep.mem d).mpr (Or.inr ⟨hd, hne d hd hdf⟩)
    have hnewq : new ∈ q.buffers := (hrep.mem new).mpr (Or.inl (by simp))
    have hdnew := hqfits.eq_of_addr_eq hdq hnewq heq
    -- the new buffer is behind `b` and before those that follow
    rw [hl, List.mem_append, List.mem_cons] at hd
    have hlt := (fits_append.mp (hl ▸ hfits)).1
    rcases hd with hd | rfl | hd
    · have := (hlt.addr_bounds hd).2
      rw [top_cons, data_eq] at this
      rw [haddr, data_eq] at heq
      omega
    · exact Bool.false_ne_true (hb.symm.trans hdf)
    · have := ((fits_cons.mp (fits_append.mp (hl ▸ hfits)).2).2.addr_bounds hd).1
      rw [haddr] at heq
      simp only [header] at hsize
      omega
  obtain ⟨t, hok, ht⟩ := binder_insert_free_buffer_ok B hqfits
    ⟨new, (hrep.mem new).mpr (Or.inl (by simp)), rfl, by rw [hnew]⟩ htree' hold hfresh
  refine ⟨{ q with free_buffers := t }, t, by rw [hq, hnew], ?_, ?_⟩
  · rw [splitBuffer, if_pos hused, hl, show b.addr + header + size = b.data + size from rfl, ← hnew]
    simp only [LinkedList.add_append (hl ▸ hfits).before_ne]
    rw [hq] at hok ⊢
    exact hok
  · rw [← haddr]
    exact ht

/-- The buffer `b` with the data of a transaction. -/
def fill (b : Buffer) (data_size offsets_size extra_buffers_size : UInt64) (is_async : Bool) : Buffer :=
  { b with free := false, data_size, offsets_size, extra_buffers_size, async_transaction := is_async }

/-- What is left of a buffer that is not split ends on the page that the data ends on, or at its end. -/
theorem end_page_whole {a size e : Nat} (hle : a + size ≤ e) (hroom : e ≤ a + size + header + 4) :
    min (pageAlign (a + size)) (pageOf e) = pageOf e := by
  refine Nat.min_eq_right ?_
  unfold pageAlign pageOf
  simp only [PAGE_SIZE, header] at *
  omega

theorem asyncBytes_fill {data_size offsets_size extra_buffers_size : UInt64} {is_async : Bool} {size : Nat}
    (hsize : (fill b data_size offsets_size extra_buffers_size is_async).size = size) :
    (fill b data_size offsets_size extra_buffers_size is_async).asyncBytes = if is_async then size + header else 0 := by
  rw [Buffer.asyncBytes, hsize]
  cases is_async with
  | false => exact if_neg fun h => Bool.false_ne_true h.2
  | true => exact if_pos ⟨rfl, rfl⟩

/-- The end of `binder_alloc_buf`, with the new free buffers `rest` behind the allocated one. -/
theorem inv_fill {p' : Proc} {b' : Buffer} (rest : List Buffer) {size : Nat} {is_async : Bool} (h : Inv p)
    (hl : p.buffers = before ++ b :: after) (hb : b.free = true) (hl' : p'.buffers = before ++ b' :: (rest ++ after))
    (hcount : p'.page_count = p.page_count) (haddr : b'.addr = b.addr) (hfree' : b'.free = false)
    (hrest : rest = [] ∨ ∃ new, rest = [new] ∧ new.free = true)
    (hlayout : Layout p'.page_count p'.buffers p'.pages)
    (hfree : p'.free_buffers.Indexed p'.binder_buffer_size fun x =>
      (p.IsFree x ∧ x ≠ b.addr) ∨ ∃ new ∈ rest, x = new.addr)
    (halloc : p'.allocated_buffers.Indexed id fun x => p.IsAllocated x ∨ x = b.addr)
    (hasync : b'.asyncBytes = if is_async then size + header else 0)
    (henough : is_async = true → size + header ≤ p.free_async_space)
    (hspace : p'.free_async_space = if is_async then p.free_async_space - (size + header) else p.free_async_space) :
    Inv p' ∧ ∀ x, p'.Allocated x ↔ x = b' ∨ p.Allocated x := by
  have hfits := fits_of_layout h.layout
  have hfits' := fits_of_layout hlayout
  have hapart := apart_split.mp (hl ▸ h.merged)
  have hrestfree : ∀ new ∈ rest, new.free = true := by
    rcases hrest with rfl | ⟨new, rfl, hnew⟩
    · exact fun new hnew => absurd hnew List.not_mem_nil
    · exact fun new' hnew' => List.mem_singleton.mp hnew' ▸ hnew
  have hrep : Replaced p p' b (b' :: rest) := replaced hfits hfits' hcount hl hl' (by rw [List.cons_append, top_cons, haddr])
  have hmem : ∀ x, x ∈ p'.buffers ↔ (x = b' ∨ x ∈ rest) ∨ (x ∈ p.buffers ∧ x ≠ b) := by
    intro x
    rw [hrep.mem x, List.mem_cons]
  have halloc' : ∀ x, p'.Allocated x ↔ x = b' ∨ p.Allocated x := by
    intro x
    rw [Allocated, Allocated, hmem x]
    constructor
    · rintro ⟨(rfl | hx) | ⟨hx, -⟩, hxf⟩
      · exact Or.inl rfl
      · exact absurd (hxf.symm.trans (hrestfree x hx)) Bool.false_ne_true
      · exact Or.inr ⟨hx, hxf⟩
    · rintro (rfl | ⟨hx, hxf⟩)
      · exact ⟨Or.inl (Or.inl rfl), hfree'⟩
      · exact ⟨Or.inr ⟨hx, fun heq => Bool.false_ne_true (hxf.symm.trans (heq ▸ hb))⟩, hxf⟩
  refine ⟨⟨hcount ▸ h.small, hlayout, ?_, hfree.congr (fun _ _ => rfl) fun x => ?_,
    halloc.congr (fun _ _ => rfl) fun x => ?_, ?_⟩, halloc'⟩
  · rw [hl']
    refine apart_split.mpr ⟨hapart.1, ?_, fun x hx hf => Bool.false_ne_true (hfree'.symm.trans hf.2),
      fun y hy hf => Bool.false_ne_true (hfree'.symm.trans hf.1)⟩
    rcases hrest with rfl | ⟨new, rfl, hnew⟩
    · exact hapart.2.1
    · exact List.isChain_cons.mpr ⟨fun y hy hf => hapart.2.2.2 y hy ⟨hb, hf.2⟩, hapart.2.1⟩
  · constructor
    · rintro ⟨d, hd, rfl, hdf⟩
      rcases (hmem d).mp hd with (rfl | hd) | ⟨hd, hne⟩
      · exact absurd (hfree'.symm.trans hdf) Bool.false_ne_true
      · exact Or.inr ⟨d, hd, rfl⟩
      · exact Or.inl ⟨⟨d, hd, rfl, hdf⟩, fun heq => hne (hfits.eq_of_addr_eq hd (by rw [hl]; simp) heq)⟩
    · rintro (⟨⟨d, hd, rfl, hdf⟩, hne⟩ | ⟨new, hnew, rfl⟩)
      · exact ⟨d, (hmem d).mpr (Or.inr ⟨hd, fun heq => hne (congrArg Buffer.addr heq)⟩), rfl, hdf⟩
      · exact ⟨new, (hmem new).mpr (Or.inl (Or.inr hnew)), rfl, hrestfree new hnew⟩
  · constructor
    · rintro ⟨d, hd, rfl⟩
      rcases (halloc' d).mp hd with rfl | hd
      · exact Or.inr haddr
      · exact Or.inl ⟨d, hd, rfl⟩
    · rintro (⟨d, hd, rfl⟩ | rfl)
      · exact ⟨d, (halloc' d).mpr (Or.inr hd), rfl⟩
      · exact ⟨b', (halloc' b').mpr (Or.inl rfl), haddr⟩
  · have hold := h.async
    have hnone : asyncBytes (rest ++ after) = asyncBytes after := by
      rcases hrest with rfl | ⟨new, rfl, hnew⟩
      · rfl
      · rw [List.singleton_append, ← List.nil_append (new :: after), asyncBytes_split, asyncBytes_free hnew]
        simp only [asyncBytes, List.map_nil, List.sum_nil, Nat.zero_add]
    rw [hl, asyncBytes_split, asyncBytes_free hb] at hold
    rw [hl', asyncBytes_split, hnone, hasync, hspace, show p'.buffer_size = p.buffer_size from congrArg (· * _) hcount,
      ← hold]
    cases is_async with
    | false => simp only [Bool.false_eq_true, if_false]
    | true =>
      have := henough rfl
      simp only [if_true]
      omega

section Use

variable {data_size offsets_size extra_buffers_size : UInt64} {is_async exact : Bool} {size : Nat} (m : Memory)

/-- `useBuffer` with the end of the buffer in place of its size. -/
theorem useBuffer_eq (hfits : Fits p.buffer_size p.buffers) (hl : p.buffers = before ++ b :: after) :
    p.useBuffer B data_size offsets_size extra_buffers_size is_async m size b.addr exact =
      p.mapPages (m.mm && p.vma) m.fails (pageAlign b.data)
        (min (pageAlign (b.data + usedSize size (top p.buffer_size after - b.data) exact))
          (pageOf (top p.buffer_size after))) >>= fun r =>
      if !r.1 then pure (r.2, none)
      else r.2.takeBuffer B b.addr >>= fun p' =>
        p'.splitBuffer B b.addr size (usedSize size (top p.buffer_size after - b.data) exact) m.stale >>= fun p' =>
        pure (p'.fillBuffer b.addr data_size offsets_size extra_buffers_size is_async size, some b.addr) := by
  have hfit : b.data ≤ top p.buffer_size after := (fits_cons.mp (fits_append.mp (hl ▸ hfits)).2).1
  have hend : b.addr + header + (top p.buffer_size after - b.data) = top p.buffer_size after :=
    Nat.add_sub_cancel' hfit
  unfold useBuffer
  simp only [binder_buffer_size_split hfits hl, hend]
  rfl

theorem fillBuffer_eq {q : Proc} (rest : List Buffer) (hfits : Fits p.buffer_size (before ++ b :: after))
    (hq : q.buffers = before ++ { b with free := false } :: rest) :
    q.fillBuffer b.addr data_size offsets_size extra_buffers_size is_async size = { q with
      buffers := before ++ fill b data_size offsets_size extra_buffers_size is_async :: rest
      free_async_space := if is_async then q.free_async_space - (size + header) else q.free_async_space } := by
  have hmod := LinkedList.modify_append { b with free := false }
    (fun b => { b with data_size, offsets_size, extra_buffers_size, async_transaction := is_async }) rest hfits.before_ne
  have hupd : (q.update b.addr fun b =>
        { b with data_size, offsets_size, extra_buffers_size, async_transaction := is_async }) =
      { q with buffers := before ++ fill b data_size offsets_size extra_buffers_size is_async :: rest } := by
    rw [update, hq]
    exact congrArg (fun l => { q with buffers := l }) hmod
  rw [fillBuffer, hupd]
  cases is_async <;> rfl

theorem Inv.unmapped (h : Inv p) (hl : p.buffers = before ++ b :: after) (hb : b.free = true) (k : Nat)
    (hk : pageAlign b.data ≤ k) (hk' : k < pageOf (top p.buffer_size after)) : p.pages k = false ∧ k < p.page_count :=
  (hl ▸ h.layout).unmapped_of_free hb hk hk'

/-- The whole buffer is used. -/
theorem useBuffer_whole (h : Inv p) (hl : p.buffers = before ++ b :: after) (hb : b.free = true)
    (hsize : (fill b data_size offsets_size extra_buffers_size is_async).size = size)
    (hle : b.data + size ≤ top p.buffer_size after)
    (hused : usedSize size (top p.buffer_size after - b.data) exact = size)
    (hroom : top p.buffer_size after ≤ b.data + size + header + 4)
    (henough : is_async = true → size + header ≤ p.free_async_space) :
    (p.useBuffer B data_size offsets_size extra_buffers_size is_async m size b.addr exact = .ok (p, none) ∧
      ((m.mm && p.vma) = false ∨ ∃ k, m.fails k = true)) ∨
    ∃ p', p.useBuffer B data_size offsets_size extra_buffers_size is_async m size b.addr exact = .ok (p', some b.addr) ∧
      Inv p' ∧ SameArea p p' ∧
      ∀ x, p'.Allocated x ↔ x = fill b data_size offsets_size extra_buffers_size is_async ∨ p.Allocated x := by
  have hfits := fits_of_layout h.layout
  have hlayout : Layout p.page_count (before ++ b :: after) p.pages := hl ▸ h.layout
  rw [useBuffer_eq B m hfits hl, hused, end_page_whole hle hroom]
  rcases mapPages_ok p (m.mm && p.vma) m.fails _ _ (h.unmapped hl hb) with ⟨hok, hfail⟩ | hok
  · exact Or.inl ⟨bind_eq_of_ok hok, hfail⟩
  · obtain ⟨p1, hp1⟩ : ∃ p1 : Proc,
      p1 = { p with pages := setPages (pageAlign b.data) (pageOf (top p.buffer_size after)) true p.pages } := ⟨_, rfl⟩
    obtain ⟨free, allocated, htake, hfree, halloc⟩ := takeBuffer_ok B (p := p1) (by rw [hp1]; exact hfits)
      (by rw [hp1]; exact hl) hb (by rw [hp1]; exact h.free_tree) (by rw [hp1]; exact h.allocated_tree)
    obtain ⟨p', hp'⟩ : ∃ p' : Proc, p' = { p1 with
      buffers := before ++ fill b data_size offsets_size extra_buffers_size is_async :: after
      free_buffers := free
      allocated_buffers := allocated
      free_async_space := if is_async then p1.free_async_space - (size + header) else p1.free_async_space } := ⟨_, rfl⟩
    have hsizes : ∀ x, p'.binder_buffer_size x = p1.binder_buffer_size x :=
      binder_buffer_size_congr (by rw [hp']) (by rw [hp', hp1]; simp [hl, fill])
    refine Or.inr ⟨p', ?_, ?_⟩
    · refine (bind_eq_of_ok hok).trans ?_
      rw [if_neg (by simp), ← hp1, bind_eq_of_ok htake]
      refine (bind_eq_of_ok (if_neg (by simp))).trans ?_
      rw [fillBuffer_eq after (hl ▸ hfits) rfl, hp']
      rfl
    · rw [and_left_comm]
      refine ⟨by rw [hp', hp1]; exact ⟨rfl, rfl, rfl, rfl⟩, inv_fill [] h hl hb (by rw [hp']; rfl)
        (by rw [hp', hp1]) rfl rfl (Or.inl rfl) ?_ ?_ ?_ (asyncBytes_fill hsize) henough (by rw [hp', hp1])⟩
      · rw [hp', hp1]
        exact hlayout.take rfl rfl (by rw [hsize]; exact hle)
      · have htree := hfree.congr (fun x _ => hsizes x) (T := fun x =>
          (p.IsFree x ∧ x ≠ b.addr) ∨ ∃ new ∈ ([] : List Buffer), x = new.addr) fun x => by
            rw [or_iff_left]
            · rw [hp1]
              rfl
            · rintro ⟨new, hnew, -⟩
              exact List.not_mem_nil hnew
        rw [hp'] at htree ⊢
        exact htree
      · rw [hp1] at halloc
        rw [hp']
        exact halloc

/-- A part of the buffer is used, and the rest is a free buffer. -/
theorem useBuffer_split (h : Inv p) (hl : p.buffers = before ++ b :: after) (hb : b.free = true)
    (hsize : (fill b data_size offsets_size extra_buffers_size is_async).size = size)
    (hused : usedSize size (top p.buffer_size after - b.data) exact = size + header)
    (hroom : b.data + size + header ≤ top p.buffer_size after)
    (henough : is_async = true → size + header ≤ p.free_async_space) :
    (p.useBuffer B data_size offsets_size extra_buffers_size is_async m size b.addr exact = .ok (p, none) ∧
      ((m.mm && p.vma) = false ∨ ∃ k, m.fails k = true)) ∨
    ∃ p', p.useBuffer B data_size offsets_size extra_buffers_size is_async m size b.addr exact = .ok (p', some b.addr) ∧
      Inv p' ∧ SameArea p p' ∧
      ∀ x, p'.Allocated x ↔ x = fill b data_size offsets_size extra_buffers_size is_async ∨ p.Allocated x := by
  have hfits := fits_of_layout h.layout
  have hlayout : Layout p.page_count (before ++ b :: after) p.pages := hl ▸ h.layout
  have hne : size + header ≠ size := by
    simp only [header]
    omega
  rw [useBuffer_eq B m hfits hl, hused]
  rcases mapPages_ok p (m.mm && p.vma) m.fails (pageAlign b.data)
    (min (pageAlign (b.data + (size + header))) (pageOf (top p.buffer_size after)))
    (fun k hk hk' => h.unmapped hl hb k hk (Nat.lt_of_lt_of_le hk' (Nat.min_le_right ..))) with ⟨hok, hfail⟩ | hok
  · exact Or.inl ⟨bind_eq_of_ok hok, hfail⟩
  · obtain ⟨p1, hp1⟩ : ∃ p1 : Proc, p1 = { p with
      pages := setPages (pageAlign b.data)
        (min (pageAlign (b.data + (size + header))) (pageOf (top p.buffer_size after))) true p.pages } := ⟨_, rfl⟩
    obtain ⟨free, allocated, htake, hfree, halloc⟩ := takeBuffer_ok B (p := p1) (by rw [hp1]; exact hfits)
      (by rw [hp1]; exact hl) hb (by rw [hp1]; exact h.free_tree) (by rw [hp1]; exact h.allocated_tree)
    obtain ⟨p2, hp2⟩ : ∃ p2 : Proc, p2 = { p1 with
      buffers := before ++ { b with free := false } :: after, free_buffers := free, allocated_buffers := allocated } :=
      ⟨_, rfl⟩
    have hsizes2 : ∀ x, p2.binder_buffer_size x = p1.binder_buffer_size x :=
      binder_buffer_size_congr (by rw [hp2]) (by rw [hp2, hp1]; simp [hl])
    have hfree2 : p2.free_buffers.Indexed p2.binder_buffer_size fun x => p.IsFree x ∧ x ≠ b.addr := by
      have htree := hfree.congr (fun x _ => hsizes2 x) (T := fun x => p.IsFree x ∧ x ≠ b.addr) fun x => by rw [hp1]; rfl
      rw [hp2] at htree ⊢
      exact htree
    have hS2 : ∀ x, p.IsFree x ∧ x ≠ b.addr → p2.IsFree x := by
      rintro x ⟨⟨d, hd, rfl, hdf⟩, hne⟩
      refine ⟨d, ?_, rfl, hdf⟩
      rw [mem_split hl] at hd
      rw [hp2, List.mem_append, List.mem_cons]
      rcases hd with hd | rfl | hd
      · exact Or.inl hd
      · exact absurd rfl hne
      · exact Or.inr (Or.inr hd)
    have hfits2 : Fits p.buffer_size (before ++ { b with free := false } :: after) := by
      rw [hl] at hfits
      exact fits_replace hfits rfl
    obtain ⟨p3, t, hp3, hsplit, ht⟩ := splitBuffer_ok B (p := p2) before after { b with free := false }
      m.stale hne (by rw [hp2, hp1]; exact hfits2) (by rw [hp2]) rfl (by rw [hp2, hp1]; exact hroom) hfree2 hS2
    obtain ⟨new, hnew⟩ : ∃ new : Buffer, new = { m.stale with addr := b.data + size, free := true } := ⟨_, rfl⟩
    have hp3 : p3 = { p2 with buffers := before ++ { b with free := false } :: new :: after, free_buffers := t } := by
      rw [hp3, hnew]
      rfl
    have haddr : new.addr = b.data + size := by rw [hnew]
    have hdata : new.data = b.data + (size + header) := by
      rw [Buffer.data, haddr, Nat.add_assoc]
    obtain ⟨p', hp'⟩ : ∃ p' : Proc, p' = { p3 with
      buffers := before ++ fill b data_size offsets_size extra_buffers_size is_async :: new :: after
      free_async_space := if is_async then p3.free_async_space - (size + header) else p3.free_async_space } := ⟨_, rfl⟩
    have hsizes : ∀ x, p'.binder_buffer_size x = p3.binder_buffer_size x :=
      binder_buffer_size_congr (by rw [hp']) (by rw [hp', hp3]; simp [fill])
    refine Or.inr ⟨p', ?_, ?_⟩
    · refine (bind_eq_of_ok hok).trans ?_
      rw [if_neg (by simp), ← hp1, bind_eq_of_ok htake, ← hp2]
      refine (bind_eq_of_ok hsplit).trans ?_
      rw [fillBuffer_eq (new :: after) (hl ▸ hfits) (by rw [hp3]), hp']
      rfl
    · rw [and_left_comm]
      refine ⟨by rw [hp', hp3, hp2, hp1]; exact ⟨rfl, rfl, rfl, rfl⟩, inv_fill [new] h hl hb (by rw [hp']; rfl)
        (by rw [hp', hp3, hp2, hp1]) rfl rfl (Or.inr ⟨new, rfl, by rw [hnew]⟩) ?_ ?_ ?_ (asyncBytes_fill hsize) henough
        (by rw [hp', hp3, hp2, hp1])⟩
      · have hpages := hlayout.split (fill b data_size offsets_size extra_buffers_size is_async) new hb rfl
          rfl (by rw [hsize, haddr]) (by rw [hnew]) (by rw [hdata, ← Nat.add_assoc]; exact hroom)
        rw [hdata] at hpages
        rw [hp', hp3, hp2, hp1]
        exact hpages
      · have htree := ht.congr (fun x _ => hsizes x) (T := fun x =>
          (p.IsFree x ∧ x ≠ b.addr) ∨ ∃ n ∈ [new], x = n.addr) fun x => or_congr_right ?_
        · rw [hp', hp3] at htree ⊢
          exact htree
        · constructor
          · rintro ⟨n, hn, rfl⟩
            rw [List.mem_singleton.mp hn, haddr]
            rfl
          · intro hx
            exact ⟨new, List.mem_singleton_self new, hx.trans haddr.symm⟩
      · rw [hp1] at halloc
        rw [hp', hp3, hp2]
        exact halloc

end Use

section Sizes

variable {data_size offsets_size extra_buffers_size : UInt64} {size : Nat}

/-- What `ALIGN` is meant to be. -/
def alignUp (x : Nat) : Nat := (x + 7) / 8 * 8

theorem ALIGN_eq (x : UInt64) : (ALIGN x.toNat = alignUp x.toNat ∧ alignUp x.toNat < 2 ^ 64) ∨
    (ALIGN x.toNat = 0 ∧ alignUp x.toNat = 2 ^ 64 ∧ 0 < x.toNat) := by
  have hx := x.toNat_lt
  unfold ALIGN alignUp
  omega

theorem le_alignUp (x : Nat) : x ≤ alignUp x ∧ alignUp x ≤ x + 7 := by
  unfold alignUp
  omega

/-- The checks let through exactly the sizes whose sum has 64 bits. -/
theorem checkedSize_eq_some_iff : checkedSize data_size offsets_size extra_buffers_size = some size ↔
    size = alignUp data_size.toNat + alignUp offsets_size.toNat + alignUp extra_buffers_size.toNat ∧ size < 2 ^ 64 := by
  have hd := ALIGN_eq data_size
  have ho := ALIGN_eq offsets_size
  have he := ALIGN_eq extra_buffers_size
  have hd' := le_alignUp data_size.toNat
  have ho' := le_alignUp offsets_size.toNat
  have he' := le_alignUp extra_buffers_size.toNat
  have hdvd : ∀ x, alignUp x % 8 = 0 := fun x => Nat.mul_mod_left ..
  have hd8 := hdvd data_size.toNat
  have ho8 := hdvd offsets_size.toNat
  have he8 := hdvd extra_buffers_size.toNat
  have hdt := data_size.toNat_lt
  have hot := offsets_size.toNat_lt
  have het := extra_buffers_size.toNat_lt
  unfold checkedSize
  generalize ALIGN data_size.toNat = ad at *
  generalize ALIGN offsets_size.toNat = ao at *
  generalize ALIGN extra_buffers_size.toNat = ae at *
  generalize alignUp data_size.toNat = ud at *
  generalize alignUp offsets_size.toNat = uo at *
  generalize alignUp extra_buffers_size.toNat = ue at *
  simp only
  split_ifs with h1 h2
  · simp only [false_iff]
    omega
  · simp only [false_iff]
    omega
  · rw [Option.some.injEq]
    omega

theorem size_fill {is_async : Bool} (h : checkedSize data_size offsets_size extra_buffers_size = some size) :
    (fill b data_size offsets_size extra_buffers_size is_async).size = size := by
  unfold checkedSize at h
  simp only at h
  split_ifs at h with h1 h2
  rw [← Option.some.inj h, Nat.mod_add_mod]
  rfl

end Sizes

section Alloc

variable {data_size offsets_size extra_buffers_size : UInt64} {is_async : Bool} {m : Memory}

/-- What the data of a transaction takes. -/
def dataSize (data_size offsets_size extra_buffers_size : UInt64) : Nat :=
  alignUp data_size.toNat + alignUp offsets_size.toNat + alignUp extra_buffers_size.toNat

/-- There is a free buffer for the data, and an asynchronous transaction has its space. -/
def Satisfiable (p : Proc) (data_size offsets_size extra_buffers_size : UInt64) (is_async : Bool) : Prop :=
  p.vma = true ∧
    (is_async = true → dataSize data_size offsets_size extra_buffers_size + header ≤ p.free_async_space) ∧
    ∃ s ∈ spans p.buffer_size p.buffers, s.1.free = true ∧
      s.1.data + dataSize data_size offsets_size extra_buffers_size ≤ s.2

/-- The buffer `b` that ends at `e` is a smallest free one with room for the data. -/
def SmallestFit (p : Proc) (data_size offsets_size extra_buffers_size : UInt64) (b : Buffer) (e : Nat) : Prop :=
  (b, e) ∈ spans p.buffer_size p.buffers ∧ b.free = true ∧
    b.data + dataSize data_size offsets_size extra_buffers_size ≤ e ∧
    ∀ s ∈ spans p.buffer_size p.buffers, s.1.free = true →
      s.1.data + dataSize data_size offsets_size extra_buffers_size ≤ s.2 → e - b.data ≤ s.2 - s.1.data

theorem room_iff (hfits : Fits p.buffer_size p.buffers) {s : Buffer × Nat} (hs : s ∈ spans p.buffer_size p.buffers)
    (size : Nat) : s.1.data + size ≤ s.2 ↔ size ≤ p.binder_buffer_size s.1.addr := by
  rw [binder_buffer_size_of_mem_spans hfits hs]
  have := hfits s hs
  omega

/-- In a mapped area there is no buffer that is larger than the area. -/
theorem Inv.span_le (h : Inv p) {s : Buffer × Nat} (hs : s ∈ spans p.buffer_size p.buffers) :
    s.2 ≤ 4194304 := by
  have hle := ((fits_of_layout h.layout).mem_bounds s hs).2.2
  have hsmall := h.small
  simp only [buffer_size, PAGE_SIZE, SZ_4M] at *
  omega

/-- `binder_alloc_buf` returns a smallest free buffer with enough room; it returns none when there is no such buffer, or
when its pages cannot be mapped, and then nothing has changed. -/
theorem binder_alloc_buf_ok (data_size offsets_size extra_buffers_size : UInt64) (is_async : Bool) (m : Memory)
    (h : Inv p) :
    (p.binder_alloc_buf B data_size offsets_size extra_buffers_size is_async m = .ok (p, none) ∧
      (p.Satisfiable data_size offsets_size extra_buffers_size is_async → m.mm = false ∨ ∃ k, m.fails k = true)) ∨
    ∃ p' b e, p.binder_alloc_buf B data_size offsets_size extra_buffers_size is_async m = .ok (p', some b.addr) ∧
      p.Satisfiable data_size offsets_size extra_buffers_size is_async ∧
      p.SmallestFit data_size offsets_size extra_buffers_size b e ∧ Inv p' ∧ SameArea p p' ∧
      ∀ x, p'.Allocated x ↔ x = fill b data_size offsets_size extra_buffers_size is_async ∨ p.Allocated x := by
  have hfits := fits_of_layout h.layout
  unfold binder_alloc_buf
  by_cases hvma : p.vma = true
  swap
  · rw [if_pos (by simpa using hvma)]
    exact Or.inl ⟨rfl, fun hs => absurd hs.1 hvma⟩
  rw [if_neg (by simp [hvma])]
  cases hchecked : checkedSize data_size offsets_size extra_buffers_size with
  | none =>
    refine Or.inl ⟨rfl, fun hs => ?_⟩
    obtain ⟨-, -, s, hs, -, hroom⟩ := hs
    have := h.span_le hs
    have hsome := checkedSize_eq_some_iff.mpr ⟨rfl, show dataSize data_size offsets_size extra_buffers_size < 2 ^ 64 by omega⟩
    exact absurd (hchecked.symm.trans hsome) (by simp)
  | some size =>
    obtain ⟨hsize, hlt⟩ := checkedSize_eq_some_iff.mp hchecked
    rw [← dataSize] at hsize
    simp only
    by_cases hasync : is_async = true ∧ p.free_async_space < (size + header) % 2 ^ 64
    · rw [if_pos hasync]
      refine Or.inl ⟨rfl, fun hs => ?_⟩
      have := hs.2.1 hasync.1
      have := Nat.mod_le (size + header) (2 ^ 64)
      omega
    · rw [if_neg hasync]
      obtain ⟨result, hok, hfit⟩ := SearchTree.bestFit_none (fun n => do
        let buffer ← p.deref n
        bugOn !buffer.free
        return p.binder_buffer_size n) size h.free_tree.ordered (fun x hx => by
          obtain ⟨d, hd, rfl, hdf⟩ := (h.free_tree.mem x).mp hx
          rw [bind_eq_of_ok (deref_ok hfits hd), bind_eq_of_ok (bugOn_ok (by rw [hdf]; rfl))]
          rfl)
      rw [bind_eq_of_ok hok]
      have hmem : ∀ s ∈ spans p.buffer_size p.buffers, s.1.free = true → s.1.addr ∈ p.free_buffers.toList :=
        fun s hs hf => (h.free_tree.mem _).mpr ⟨s.1, fst_mem_of_mem_spans hs, rfl, hf⟩
      rcases result with ⟨_ | x, exact⟩
      · refine Or.inl ⟨rfl, fun hs => ?_⟩
        obtain ⟨-, -, s, hs, hsf, hroom⟩ := hs
        rw [← hsize] at hroom
        have := hfit.2 _ (hmem s hs hsf)
        exact absurd ((room_iff hfits hs size).mp hroom) (by omega)
      · -- the node that was found is a smallest one with enough room
        have hx : x ∈ p.free_buffers.toList ∧ size ≤ p.binder_buffer_size x ∧
            (exact = true → p.binder_buffer_size x = size) ∧
            ∀ y ∈ p.free_buffers.toList, size ≤ p.binder_buffer_size y → p.binder_buffer_size x ≤ p.binder_buffer_size y := by
          cases exact with
          | true => exact ⟨hfit.1, Nat.le_of_eq hfit.2.symm, fun _ => hfit.2, fun y _ hy => hfit.2.symm ▸ hy⟩
          | false => exact ⟨hfit.1.resolve_right (by simp), Nat.le_of_lt hfit.2.1, fun hf => absurd hf (by simp), hfit.2.2⟩
        obtain ⟨hxmem, hle, hexact, hmin⟩ := hx
        obtain ⟨b, hb, rfl, hbf⟩ := (h.free_tree.mem x).mp hxmem
        obtain ⟨before, after, hl⟩ := List.append_of_mem hb
        have hspan : (b, top p.buffer_size after) ∈ spans p.buffer_size p.buffers := by
          rw [hl]
          exact mem_spans_split
        have hroom := (room_iff hfits hspan size).mpr hle
        have hend := h.span_le hspan
        have hbsize := binder_buffer_size_split hfits hl
        have henough : is_async = true → size + header ≤ p.free_async_space := by
          intro ha
          have hnot : ¬p.free_async_space < (size + header) % 2 ^ 64 := fun hn => hasync ⟨ha, hn⟩
          rw [Nat.mod_eq_of_lt (by simp only [header]; omega)] at hnot
          omega
        have hsat : p.Satisfiable data_size offsets_size extra_buffers_size is_async :=
          ⟨hvma, hsize ▸ henough, _, hspan, hbf, hsize ▸ hroom⟩
        have hsmallest : p.SmallestFit data_size offsets_size extra_buffers_size b (top p.buffer_size after) := by
          refine ⟨hspan, hbf, hsize ▸ hroom, fun s hs hsf hsr => ?_⟩
          rw [← hsize] at hsr
          have := hmin _ (hmem s hs hsf) ((room_iff hfits hs size).mp hsr)
          rw [hbsize, binder_buffer_size_of_mem_spans hfits hs] at this
          exact this
        have huse : (p.useBuffer B data_size offsets_size extra_buffers_size is_async m size b.addr exact = .ok (p, none) ∧
              ((m.mm && p.vma) = false ∨ ∃ k, m.fails k = true)) ∨
            ∃ p', p.useBuffer B data_size offsets_size extra_buffers_size is_async m size b.addr exact =
                .ok (p', some b.addr) ∧ Inv p' ∧ SameArea p p' ∧
              ∀ x, p'.Allocated x ↔ x = fill b data_size offsets_size extra_buffers_size is_async ∨ p.Allocated x := by
          by_cases hwhole : top p.buffer_size after ≤ b.data + size + header + 4
          · refine useBuffer_whole B m h hl hbf (size_fill hchecked) hroom ?_ hwhole henough
            unfold usedSize
            rw [hbsize] at hexact
            cases exact with
            | true => exact hexact rfl
            | false =>
              rw [if_neg Bool.false_ne_true, if_pos]
              simp only [header] at *
              omega
          · refine useBuffer_split B m h hl hbf (size_fill hchecked) ?_ (by simp only [header] at *; omega) henough
            unfold usedSize
            rw [hbsize] at hexact
            cases exact with
            | true =>
              have := hexact rfl
              simp only [header] at *
              omega
            | false =>
              rw [if_neg Bool.false_ne_true, if_neg]
              simp only [header] at *
              omega
        rcases huse with ⟨hnone, hwhy⟩ | ⟨p', hsome, hrest⟩
        · refine Or.inl ⟨hnone, fun _ => ?_⟩
          rw [hvma, Bool.and_true] at hwhy
          exact hwhy
        · exact Or.inr ⟨p', b, _, hsome, hsat, hsmallest, hrest⟩

end Alloc

end Proc

end AnboxReboxed.Binder
