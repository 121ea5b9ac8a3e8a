import AnboxReboxed.Binder.Proofs.BufferLayoutProofs
import AnboxReboxed.Lib.Fallible

/-!
# Proofs: taking and freeing a buffer

The invariant of the area, and that it is kept: no `BUG_ON` is met, and every pointer that is followed leads to a
buffer.
-/

namespace AnboxReboxed.Binder

open AnboxReboxed.Lib

/-- Two buffers next to each other that are not both free. -/
def Apart (b c : Buffer) : Prop := ¬(b.free = true ∧ c.free = true)

/-- What a buffer takes of the space for asynchronous transactions. -/
def Buffer.asyncBytes (b : Buffer) : Nat := if b.free = false ∧ b.async_transaction = true then b.size + header else 0

def asyncBytes (l : List Buffer) : Nat := (l.map Buffer.asyncBytes).sum

namespace Proc

def IsFree (p : Proc) (a : Nat) : Prop := ∃ b ∈ p.buffers, b.addr = a ∧ b.free = true

def Allocated (p : Proc) (b : Buffer) : Prop := b ∈ p.buffers ∧ b.free = false

def IsAllocated (p : Proc) (a : Nat) : Prop := ∃ b, p.Allocated b ∧ b.addr = a

/-- The invariant of a mapped area. -/
structure Inv (p : Proc) : Prop where
  small : p.page_count ≤ SZ_4M
  layout : Layout p.page_count p.buffers p.pages
  merged : p.buffers.IsChain Apart
  free_tree : p.free_buffers.Indexed p.binder_buffer_size p.IsFree
  allocated_tree : p.allocated_buffers.Indexed id p.IsAllocated
  async : p.free_async_space + asyncBytes p.buffers = p.buffer_size / 2

theorem fits_of_layout {p : Proc} (h : Layout p.page_count p.buffers p.pages) : Fits p.buffer_size p.buffers := h.fits

section Lookup

variable {p : Proc} {before after : List Buffer} {b : Buffer} {a : Nat}

theorem deref_split (hfits : Fits p.buffer_size p.buffers) (hl : p.buffers = before ++ b :: after) :
    p.deref b.addr = .ok b := by
  rw [hl] at hfits
  rw [deref, hl, LinkedList.get_append hfits.before_ne]

theorem next_split (hfits : Fits p.buffer_size p.buffers) (hl : p.buffers = before ++ b :: after) :
    p.next b.addr = after.head? := by
  rw [hl] at hfits
  rw [next, hl, LinkedList.next_append hfits.before_ne]

theorem update_split (hfits : Fits p.buffer_size p.buffers) (hl : p.buffers = before ++ b :: after)
    (f : Buffer → Buffer) : p.update b.addr f = { p with buffers := before ++ f b :: after } := by
  rw [hl] at hfits
  rw [update, hl, LinkedList.modify_append _ _ _ hfits.before_ne]

theorem binder_buffer_size_split (hfits : Fits p.buffer_size p.buffers) (hl : p.buffers = before ++ b :: after) :
    p.binder_buffer_size b.addr = top p.buffer_size after - b.data := by
  rw [binder_buffer_size, next_split hfits hl]
  cases after <;> rfl

/-- The sizes that can be seen depend on the spans only. -/
theorem binder_buffer_size_of_mem_spans (hfits : Fits p.buffer_size p.buffers) {e : Nat}
    (hs : (b, e) ∈ spans p.buffer_size p.buffers) : p.binder_buffer_size b.addr = e - b.data := by
  obtain ⟨before, after, hl, rfl⟩ := exists_split_of_mem_spans hs
  exact binder_buffer_size_split hfits hl

theorem deref_ok (hfits : Fits p.buffer_size p.buffers) (hb : b ∈ p.buffers) : p.deref b.addr = .ok b := by
  obtain ⟨before, after, hl⟩ := List.append_of_mem hb
  exact deref_split hfits hl

theorem not_isFree_of_isAllocated (hfits : Fits p.buffer_size p.buffers) (h : p.IsAllocated a) : ¬p.IsFree a := by
  obtain ⟨b, ⟨hb, hfree⟩, rfl⟩ := h
  rintro ⟨c, hc, heq, hcfree⟩
  have := hfits.eq_of_addr_eq hc hb heq
  subst this
  exact Bool.false_ne_true (hfree.symm.trans hcfree)

end Lookup

section Insert

variable (B : SearchTree.Balancing Nat) {p : Proc} {S : Nat → Prop} {a : Nat}

theorem binder_insert_free_buffer_ok (hfits : Fits p.buffer_size p.buffers) (hnew : p.IsFree a)
    (h : p.free_buffers.Indexed p.binder_buffer_size S) (hS : ∀ x, S x → p.IsFree x) (ha : ¬S a) :
    ∃ t, p.binder_insert_free_buffer B a = .ok { p with free_buffers := t } ∧
      t.Indexed p.binder_buffer_size fun x => S x ∨ x = a := by
  obtain ⟨b, hb, rfl, hfree⟩ := hnew
  obtain ⟨t, hok, ht⟩ := h.insert B ha (fun parent => do
    let buffer ← p.deref parent
    bugOn !buffer.free
    return decide (p.binder_buffer_size b.addr < p.binder_buffer_size parent)) (fun x hx => by
      obtain ⟨c, hc, rfl, hcfree⟩ := hS x hx
      rw [bind_eq_of_ok (deref_ok hfits hc), bind_eq_of_ok (bugOn_ok (by rw [hcfree]; rfl))]
      rfl)
  refine ⟨_, ?_, ht⟩
  rw [binder_insert_free_buffer, bind_eq_of_ok (deref_ok hfits hb), bind_eq_of_ok (bugOn_ok (by rw [hfree]; rfl)),
    bind_eq_of_ok hok]
  rfl

theorem binder_insert_allocated_buffer_ok (hfits : Fits p.buffer_size p.buffers) (hnew : p.IsAllocated a)
    (h : p.allocated_buffers.Indexed id S) (hS : ∀ x, S x → p.IsAllocated x) (ha : ¬S a) :
    ∃ t, p.binder_insert_allocated_buffer B a = .ok { p with allocated_buffers := t } ∧
      t.Indexed id fun x => S x ∨ x = a := by
  obtain ⟨b, hb, rfl⟩ := hnew
  obtain ⟨t, hok, ht⟩ := h.insert B ha (fun parent => do
    let buffer ← p.deref parent
    bugOn buffer.free
    bugOn (b.addr == parent)
    return decide (b.addr < parent)) (fun x hx => by
      obtain ⟨c, hc, rfl⟩ := hS x hx
      have hne : (b.addr == c.addr) = false := by
        rw [beq_eq_false_iff_ne]
        intro heq
        rw [heq] at ha
        exact ha hx
      rw [bind_eq_of_ok (deref_ok hfits hc.1), bind_eq_of_ok (bugOn_ok hc.2), bind_eq_of_ok (bugOn_ok hne)]
      rfl)
  refine ⟨_, ?_, ht⟩
  rw [binder_insert_allocated_buffer, bind_eq_of_ok (deref_ok hfits hb.1), bind_eq_of_ok (bugOn_ok hb.2),
    bind_eq_of_ok hok]
  rfl

end Insert

/-- What no operation on the buffers changes. -/
structure SameArea (p p' : Proc) : Prop where
  base : p'.base = p.base
  user_buffer_offset : p'.user_buffer_offset = p.user_buffer_offset
  vma : p'.vma = p.vma
  page_count : p'.page_count = p.page_count

theorem SameArea.refl (p : Proc) : SameArea p p := ⟨rfl, rfl, rfl, rfl⟩

theorem SameArea.trans {p p' p'' : Proc} (h : SameArea p p') (h' : SameArea p' p'') : SameArea p p'' :=
  ⟨h'.base.trans h.base, h'.user_buffer_offset.trans h.user_buffer_offset, h'.vma.trans h.vma,
    h'.page_count.trans h.page_count⟩

section Membership

variable {p : Proc} {before after : List Buffer} {b c : Buffer} {a : Nat}

theorem mem_split {x : Buffer} (hl : p.buffers = before ++ b :: after) :
    x ∈ p.buffers ↔ x ∈ before ∨ x = b ∨ x ∈ after := by
  rw [hl, List.mem_append, List.mem_cons]

theorem asyncBytes_split : asyncBytes (before ++ b :: after) = asyncBytes before + (b.asyncBytes + asyncBytes after) := by
  simp only [asyncBytes, List.map_append, List.map_cons, List.sum_append, List.sum_cons]

theorem asyncBytes_free (hb : b.free = true) : b.asyncBytes = 0 := by
  rw [Buffer.asyncBytes, if_neg fun h => Bool.false_ne_true (h.1.symm.trans hb)]

theorem apart_split : (before ++ b :: after).IsChain Apart ↔ before.IsChain Apart ∧ after.IsChain Apart ∧
    (∀ x ∈ before.getLast?, Apart x b) ∧ ∀ y ∈ after.head?, Apart b y := by
  rw [List.isChain_append, List.isChain_cons, List.head?_cons]
  constructor
  · rintro ⟨hbefore, ⟨hhead, hafter⟩, hlast⟩
    exact ⟨hbefore, hafter, fun x hx => hlast x hx b rfl, hhead⟩
  · rintro ⟨hbefore, hafter, hlast, hhead⟩
    refine ⟨hbefore, ⟨hhead, hafter⟩, fun x hx y hy => ?_⟩
    cases Option.mem_some_iff.mp hy
    exact hlast x hx

/-- A buffer keeps its size when the buffers in another place are changed. -/
theorem binder_buffer_size_outside {p p' : Proc} {mid mid' : List Buffer} (hfits : Fits p.buffer_size p.buffers)
    (hfits' : Fits p'.buffer_size p'.buffers) (hcount : p'.page_count = p.page_count)
    (hl : p.buffers = before ++ (mid ++ after)) (hl' : p'.buffers = before ++ (mid' ++ after))
    (htop : top p.buffer_size (mid' ++ after) = top p.buffer_size (mid ++ after)) {d : Buffer}
    (hd : d ∈ before ∨ d ∈ after) : p'.binder_buffer_size d.addr = p.binder_buffer_size d.addr := by
  have hsize : p'.buffer_size = p.buffer_size := congrArg (· * PAGE_SIZE) hcount
  have hspans := congrArg (spans p.buffer_size) hl
  have hspans' := congrArg (spans p.buffer_size) hl'
  rw [spans_append, spans_append] at hspans hspans'
  rw [htop] at hspans'
  have hcommon : ∃ e, (d, e) ∈ spans p.buffer_size p.buffers ∧ (d, e) ∈ spans p.buffer_size p'.buffers := by
    rcases hd with hd | hd
    · obtain ⟨e, he⟩ := exists_span (top p.buffer_size (mid ++ after)) hd
      exact ⟨e, hspans ▸ List.mem_append_left _ he, hspans' ▸ List.mem_append_left _ he⟩
    · obtain ⟨e, he⟩ := exists_span p.buffer_size hd
      exact ⟨e, hspans ▸ List.mem_append_right _ (List.mem_append_right _ he),
        hspans' ▸ List.mem_append_right _ (List.mem_append_right _ he)⟩
  obtain ⟨e, he, he'⟩ := hcommon
  rw [← hsize] at he'
  exact (binder_buffer_size_of_mem_spans hfits' he').trans (binder_buffer_size_of_mem_spans hfits he).symm

end Membership

section Free

variable (B : SearchTree.Balancing Nat) {p : Proc} {before after : List Buffer} {b c : Buffer}

/-- A free buffer behind a free one is given up, with the pages that nothing else is on. -/
theorem binder_delete_free_buffer_ok (hlayout : Layout p.page_count p.buffers p.pages)
    (hl : p.buffers = before ++ b :: c :: after) (hb : b.free = true) (hc : c.free = true) :
    ∃ pages, p.binder_delete_free_buffer c.addr = .ok { p with buffers := before ++ b :: after, pages } ∧
      Layout p.page_count (before ++ b :: after) pages := by
  have hl' : p.buffers = (before ++ [b]) ++ c :: after := by rw [hl, List.append_assoc, List.singleton_append]
  have hfits := fits_of_layout hlayout
  have hne : ∀ d ∈ before ++ [b], d.addr ≠ c.addr := (hl' ▸ hfits).before_ne
  have hprev : p.prev c.addr = some b := by rw [prev, hl, LinkedList.prev_cons_cons hne]
  have hdel : LinkedList.del Buffer.addr c.addr p.buffers = before ++ b :: after := by
    rw [hl', LinkedList.del_append hne, List.append_assoc, List.singleton_append]
  obtain ⟨hbfit, hcons⟩ := fits_cons.mp (fits_append.mp (hl ▸ hfits)).2
  obtain ⟨hcfit, -⟩ := fits_cons.mp hcons
  have hnext : ∀ n, after.head?.map Buffer.addr = some n → c.addr + header ≤ n := by
    intro n hn
    cases after with
    | nil => cases hn
    | cons d after => exact Option.some.inj hn ▸ hcfit
  have hbc : b.addr + header ≤ c.addr := hbfit
  have hspec := unsharedPages_spec hbc hnext
  rw [binder_delete_free_buffer, hprev, next_split hfits hl']
  simp only [bind_eq_of_ok (bugOn_ok (c := !b.free) (by rw [hb]; rfl)), hdel]
  have hlayout' := hl' ▸ hlayout
  rw [hl] at hlayout
  by_cases hany : ((unsharedPages b.addr c.addr (after.head?.map Buffer.addr)).1 ||
      (unsharedPages b.addr c.addr (after.head?.map Buffer.addr)).2) = true
  · simp only [hany, true_and] at hspec
    rw [if_pos hany, unmapPages_ok]
    · refine ⟨_, rfl, hlayout.merge hb hc fun k => ?_⟩
      unfold setPages
      by_cases hk : Unshared b.addr c.addr (after.head?.map Buffer.addr) k
      · rw [if_pos ((hspec k).mpr hk)]
        exact iff_of_false Bool.false_ne_true fun h => h.1 hk
      · rw [if_neg fun h => hk ((hspec k).mp h)]
        exact (and_iff_right hk).symm
    · intro k hk hk'
      obtain ⟨hin, -⟩ := (hspec k).mp ⟨hk, hk'⟩
      exact hlayout'.mapped_of_header hin.1 hin.2
  · simp only [hany, Bool.false_eq_true, false_and, false_iff] at hspec
    rw [if_neg hany]
    exact ⟨p.pages, rfl, hlayout.merge hb hc fun k => (and_iff_right (hspec k)).symm⟩

/-- What remains as it is when the free buffer `c` behind `b` is given up. -/
structure Dropped (p p' : Proc) (b c : Buffer) : Prop where
  allocated : ∀ x, p'.Allocated x ↔ p.Allocated x
  isFree : ∀ x, p'.IsFree x ↔ p.IsFree x ∧ x ≠ c.addr
  sizes : ∀ x, p.IsFree x → x ≠ b.addr → x ≠ c.addr → p'.binder_buffer_size x = p.binder_buffer_size x
  async : asyncBytes p'.buffers = asyncBytes p.buffers

theorem dropped {p' : Proc} (hfits : Fits p.buffer_size p.buffers) (hfits' : Fits p'.buffer_size p'.buffers)
    (hcount : p'.page_count = p.page_count) (hl : p.buffers = before ++ b :: c :: after)
    (hl' : p'.buffers = before ++ b :: after) (hc : c.free = true) : Dropped p p' b c := by
  have hsplit : p.buffers = (before ++ [b]) ++ c :: after := by rw [hl, List.append_assoc, List.singleton_append]
  have hne := (hsplit ▸ hfits).before_ne
  have hne' := (hsplit ▸ hfits).after_ne
  have hmem : ∀ x, x ∈ p.buffers ↔ x ∈ p'.buffers ∨ x = c := by
    intro x
    rw [hl, hl']
    simp only [List.mem_append, List.mem_cons]
    tauto
  have hnot : ∀ x ∈ p'.buffers, x.addr ≠ c.addr := by
    intro x hx
    rw [hl', List.mem_append, List.mem_cons] at hx
    rcases hx with hx | rfl | hx
    · exact hne x (List.mem_append_left _ hx)
    · exact hne x (List.mem_append_right _ List.mem_cons_self)
    · exact hne' x hx
  refine ⟨fun x => ?_, fun x => ?_, ?_, ?_⟩
  · rw [Allocated, Allocated, hmem x, or_and_right]
    refine (or_iff_left ?_).symm
    rintro ⟨rfl, hfree⟩
    exact Bool.false_ne_true (hfree.symm.trans hc)
  · constructor
    · rintro ⟨d, hd, rfl, hfree⟩
      exact ⟨⟨d, (hmem d).mpr (Or.inl hd), rfl, hfree⟩, hnot d hd⟩
    · rintro ⟨⟨d, hd, rfl, hfree⟩, hdc⟩
      rcases (hmem d).mp hd with hd | rfl
      · exact ⟨d, hd, rfl, hfree⟩
      · exact absurd rfl hdc
  · rintro x ⟨d, hd, rfl, -⟩ hdb hdc
    refine @binder_buffer_size_outside before after p p' [b, c] [b] hfits hfits' hcount hl hl' rfl d ?_
    rw [hl, List.mem_append, List.mem_cons, List.mem_cons] at hd
    rcases hd with hd | rfl | rfl | hd
    · exact Or.inl hd
    · exact absurd rfl hdb
    · exact absurd rfl hdc
    · exact Or.inr hd
  · rw [hl, hl', asyncBytes_split, asyncBytes_split, ← List.nil_append (c :: after), asyncBytes_split,
      asyncBytes_free hc]
    simp only [asyncBytes, List.map_nil, List.sum_nil, Nat.zero_add]

/-- A buffer has been freed and is not in a tree; its neighbours may be free too. -/
structure Freeing (p : Proc) (before : List Buffer) (b : Buffer) (after : List Buffer) : Prop where
  buffers : p.buffers = before ++ b :: after
  free : b.free = true
  layout : Layout p.page_count p.buffers p.pages
  apart_before : before.IsChain Apart
  apart_after : after.IsChain Apart
  free_tree : p.free_buffers.Indexed p.binder_buffer_size fun x => p.IsFree x ∧ x ≠ b.addr
  allocated_tree : p.allocated_buffers.Indexed id p.IsAllocated
  async : p.free_async_space + asyncBytes p.buffers = p.buffer_size / 2

theorem Dropped.isAllocated {p' : Proc} (h : Dropped p p' b c) (a : Nat) : p'.IsAllocated a ↔ p.IsAllocated a :=
  exists_congr fun x => and_congr_left fun _ => h.allocated x

theorem mergeNext_ok (h : Freeing p before b after) :
    ∃ p' after', p.mergeNext B b.addr = .ok p' ∧ Freeing p' before b after' ∧ (∀ c ∈ after'.head?, c.free = false) ∧
      SameArea p p' ∧ ∀ c, p'.Allocated c ↔ p.Allocated c := by
  have hfits := fits_of_layout h.layout
  rw [mergeNext, next_split hfits h.buffers]
  cases hafter : after with
  | nil =>
    subst hafter
    exact ⟨p, [], rfl, h, fun c hc => absurd hc (Option.not_mem_none c), .refl p, fun _ => Iff.rfl⟩
  | cons c after' =>
    subst hafter
    cases hc : c.free with
    | false =>
      simp only [List.head?_cons, hc, Bool.false_eq_true, if_false]
      exact ⟨p, c :: after', rfl, h, fun d hd => Option.mem_some_iff.mp hd ▸ hc, .refl p, fun _ => Iff.rfl⟩
    | true =>
      have hl := h.buffers
      obtain ⟨pages, hok, hlayout⟩ := binder_delete_free_buffer_ok
        (p := { p with free_buffers := B.erase c.addr p.free_buffers }) h.layout hl h.free hc
      simp only [List.head?_cons, hc, if_true, hok]
      obtain ⟨p', hp'⟩ : ∃ p' : Proc,
        p' = { p with buffers := before ++ b :: after', pages, free_buffers := B.erase c.addr p.free_buffers } := ⟨_, rfl⟩
      have hdrop : Dropped p p' b c := dropped hfits (hp' ▸ hlayout.fits) (by rw [hp']) hl (by rw [hp']) hc
      have hbc : c.addr ≠ b.addr := (hl ▸ hfits).after_ne c List.mem_cons_self
      have hc' : p.IsFree c.addr := ⟨c, by rw [hl]; simp, rfl, hc⟩
      have hapart := List.isChain_cons.mp h.apart_after
      refine ⟨p', after', by rw [hp'], ⟨by rw [hp'], h.free, by rw [hp']; exact hlayout, h.apart_before, hapart.2, ?_, ?_, ?_⟩,
        fun d hd => Bool.eq_false_iff.mpr fun hdf => hapart.1 d hd ⟨hc, hdf⟩,
        by rw [hp']; exact ⟨rfl, rfl, rfl, rfl⟩, hdrop.allocated⟩
      · have htree := h.free_tree.erase B p'.binder_buffer_size ⟨hc', hbc⟩
          fun x hx hxc => hdrop.sizes x hx.1 hx.2 hxc
        rw [hp'] at htree ⊢
        refine htree.congr (fun _ _ => rfl) fun x => ?_
        rw [← hp', hdrop.isFree x]
        exact and_right_comm
      · have htree := h.allocated_tree.congr (fun _ _ => rfl) hdrop.isAllocated
        rw [hp'] at htree ⊢
        exact htree
      · rw [hdrop.async]
        rw [hp']
        exact h.async

theorem mergePrev_ok (h : Freeing p before b after) :
    ∃ p' before' b', p.mergePrev B b.addr = .ok (p', b'.addr) ∧ Freeing p' before' b' after ∧
      (∀ c ∈ before'.getLast?, c.free = false) ∧ SameArea p p' ∧ ∀ c, p'.Allocated c ↔ p.Allocated c := by
  have hfits := fits_of_layout h.layout
  rcases List.eq_nil_or_concat before with rfl | ⟨before', a, rfl⟩
  · have hprev : p.prev b.addr = none := by
      rw [prev, h.buffers, List.nil_append]
      exact LinkedList.prev_head (h.buffers ▸ hfits).after_ne
    rw [mergePrev, hprev]
    exact ⟨p, [], b, rfl, h, fun c hc => absurd hc (Option.not_mem_none c), .refl p, fun _ => Iff.rfl⟩
  · have hl : p.buffers = before' ++ a :: b :: after := by
      rw [h.buffers, List.concat_eq_append, List.append_assoc, List.singleton_append]
    have hprev : p.prev b.addr = some a := by
      rw [prev, hl]
      refine LinkedList.prev_cons_cons fun d hd => (h.buffers ▸ hfits).before_ne d ?_
      rw [List.concat_eq_append]
      exact hd
    have hapart : before'.IsChain Apart ∧ ∀ x ∈ before'.getLast?, Apart x a := by
      have := h.apart_before
      rw [List.concat_eq_append] at this
      obtain ⟨h1, -, h2, -⟩ := apart_split.mp this
      exact ⟨h1, h2⟩
    rw [mergePrev, hprev]
    cases ha : a.free with
    | false =>
      simp only [ha, Bool.false_eq_true, if_false]
      refine ⟨p, before'.concat a, b, rfl, h, fun c hc => ?_, .refl p, fun _ => Iff.rfl⟩
      rw [List.concat_eq_append, List.getLast?_concat] at hc
      exact Option.mem_some_iff.mp hc ▸ ha
    | true =>
      obtain ⟨pages, hok, hlayout⟩ := binder_delete_free_buffer_ok h.layout hl ha h.free
      simp only [ha, if_true]
      rw [bind_eq_of_ok hok]
      obtain ⟨p', hp'⟩ : ∃ p' : Proc,
        p' = { p with buffers := before' ++ a :: after, pages, free_buffers := B.erase a.addr p.free_buffers } := ⟨_, rfl⟩
      have hdrop : Dropped p p' a b := dropped hfits (hp' ▸ hlayout.fits) (by rw [hp']) hl (by rw [hp']) h.free
      have hab : a.addr ≠ b.addr := by
        refine (h.buffers ▸ hfits).before_ne a ?_
        rw [List.concat_eq_append]
        exact List.mem_append_right _ List.mem_cons_self
      have ha' : p.IsFree a.addr := ⟨a, by rw [hl]; simp, rfl, ha⟩
      refine ⟨p', before', a, by rw [hp']; rfl, ⟨by rw [hp'], ha, by rw [hp']; exact hlayout, hapart.1, h.apart_after, ?_, ?_, ?_⟩,
        fun d hd => Bool.eq_false_iff.mpr fun hdf => hapart.2 d hd ⟨hdf, ha⟩, by rw [hp']; exact ⟨rfl, rfl, rfl, rfl⟩,
        hdrop.allocated⟩
      · have htree := h.free_tree.erase B p'.binder_buffer_size ⟨ha', hab⟩
          fun x hx hxa => hdrop.sizes x hx.1 hxa hx.2
        rw [hp'] at htree ⊢
        refine htree.congr (fun _ _ => rfl) fun x => ?_
        rw [← hp', hdrop.isFree x]
      · have htree := h.allocated_tree.congr (fun _ _ => rfl) hdrop.isAllocated
        rw [hp'] at htree ⊢
        exact htree
      · rw [hdrop.async]
        rw [hp']
        exact h.async

/-- What is known of the buffers when `b` is replaced by the buffers `mid`. -/
structure Replaced (p p' : Proc) (b : Buffer) (mid : List Buffer) : Prop where
  mem : ∀ x, x ∈ p'.buffers ↔ x ∈ mid ∨ (x ∈ p.buffers ∧ x ≠ b)
  sizes : ∀ d ∈ p.buffers, d ≠ b → p'.binder_buffer_size d.addr = p.binder_buffer_size d.addr

theorem replaced {p' : Proc} {mid : List Buffer} (hfits : Fits p.buffer_size p.buffers)
    (hfits' : Fits p'.buffer_size p'.buffers) (hcount : p'.page_count = p.page_count)
    (hl : p.buffers = before ++ b :: after) (hl' : p'.buffers = before ++ (mid ++ after))
    (htop : top p.buffer_size (mid ++ after) = b.addr) : Replaced p p' b mid := by
  have hother : ∀ x, x ∈ p.buffers ∧ x ≠ b ↔ x ∈ before ∨ x ∈ after := by
    intro x
    rw [mem_split hl]
    constructor
    · rintro ⟨hx | rfl | hx, hne⟩
      · exact Or.inl hx
      · exact absurd rfl hne
      · exact Or.inr hx
    · rintro (hx | hx)
      · exact ⟨Or.inl hx, fun heq => (hl ▸ hfits).before_ne x hx (congrArg Buffer.addr heq)⟩
      · exact ⟨Or.inr (Or.inr hx), fun heq => (hl ▸ hfits).after_ne x hx (congrArg Buffer.addr heq)⟩
  refine ⟨fun x => ?_, fun d hd hne => ?_⟩
  · rw [hother x, hl', List.mem_append, List.mem_append]
    tauto
  · exact @binder_buffer_size_outside before after p p' [b] mid hfits hfits' hcount hl hl' htop d
      ((hother d).mp ⟨hd, hne⟩)

namespace Replaced

variable {p' : Proc} {b' : Buffer}

/-- An allocated buffer becomes free. -/
theorem isFree_iff (h : Replaced p p' b [b']) (hfits : Fits p.buffer_size p.buffers) (hb : p.Allocated b)
    (haddr : b'.addr = b.addr) (x : Nat) : p'.IsFree x ∧ x ≠ b'.addr ↔ p.IsFree x := by
  constructor
  · rintro ⟨⟨d, hd, rfl, hfree⟩, hne⟩
    rcases (h.mem d).mp hd with hd | ⟨hd, -⟩
    · exact absurd (congrArg Buffer.addr (List.mem_singleton.mp hd)) hne
    · exact ⟨d, hd, rfl, hfree⟩
  · rintro ⟨d, hd, rfl, hfree⟩
    have hdb : d ≠ b := fun heq => Bool.false_ne_true (hb.2.symm.trans (heq ▸ hfree))
    refine ⟨⟨d, (h.mem d).mpr (Or.inr ⟨hd, hdb⟩), rfl, hfree⟩, fun heq => hdb ?_⟩
    exact hfits.eq_of_addr_eq hd hb.1 (heq.trans haddr)

theorem allocated_iff (h : Replaced p p' b [b']) (hfree : b'.free = true) (x : Buffer) :
    p'.Allocated x ↔ p.Allocated x ∧ x ≠ b := by
  rw [Allocated, Allocated, h.mem x, List.mem_singleton]
  constructor
  · rintro ⟨rfl | ⟨hx, hne⟩, hxf⟩
    · exact absurd (hxf.symm.trans hfree) Bool.false_ne_true
    · exact ⟨⟨hx, hxf⟩, hne⟩
  · rintro ⟨⟨hx, hxf⟩, hne⟩
    exact ⟨Or.inr ⟨hx, hne⟩, hxf⟩

end Replaced

theorem ne_of_isFree (hfits : Fits p.buffer_size p.buffers) (hb : p.Allocated b) {d : Buffer} (h : p.IsFree d.addr) : d ≠ b := by
  rintro rfl
  exact not_isFree_of_isAllocated hfits ⟨d, hb, rfl⟩ h

/-- The buffer at the end of `binder_free_buf` goes to the tree of the free buffers. -/
theorem Freeing.insert (h : Freeing p before b after) (hlast : ∀ c ∈ before.getLast?, c.free = false)
    (hhead : ∀ c ∈ after.head?, c.free = false) (hsmall : p.page_count ≤ SZ_4M) :
    ∃ t, p.binder_insert_free_buffer B b.addr = .ok { p with free_buffers := t } ∧
      Inv { p with free_buffers := t } := by
  have hb : p.IsFree b.addr := ⟨b, by rw [h.buffers]; simp, rfl, h.free⟩
  obtain ⟨t, hok, ht⟩ := binder_insert_free_buffer_ok B h.layout.fits hb h.free_tree (fun x hx => hx.1) fun hx => hx.2 rfl
  refine ⟨t, hok, hsmall, h.layout, ?_, ht.congr (fun _ _ => rfl) fun x => ?_, h.allocated_tree, h.async⟩
  · show p.buffers.IsChain Apart
    rw [h.buffers]
    refine apart_split.mpr ⟨h.apart_before, h.apart_after, fun x hx hf => ?_, fun y hy hf => ?_⟩
    · exact Bool.false_ne_true ((hlast x hx).symm.trans hf.1)
    · exact Bool.false_ne_true ((hhead y hy).symm.trans hf.2)
  · constructor
    · intro hx
      by_cases heq : x = b.addr
      · exact Or.inr heq
      · exact Or.inl ⟨hx, heq⟩
    · rintro (hx | rfl)
      · exact hx.1
      · exact hb

/-- What `binder_free_buf` has done before it merges the buffer with its neighbours. -/
def marked (p : Proc) (before : List Buffer) (b : Buffer) (after : List Buffer) : Proc :=
  { p with
    free_async_space := if b.async_transaction then p.free_async_space + (b.size + header) else p.free_async_space
    pages := setPages (pageAlign b.data) (pageOf (top p.buffer_size after)) false p.pages
    allocated_buffers := B.erase b.addr p.allocated_buffers
    buffers := before ++ { b with free := true } :: after }

theorem update_eq_marked (hfits : Fits p.buffer_size p.buffers) (hl : p.buffers = before ++ b :: after) :
    Proc.update { p with
      free_async_space := if b.async_transaction then p.free_async_space + (b.size + header) else p.free_async_space
      pages := setPages (pageAlign b.data) (pageOf (top p.buffer_size after)) false p.pages
      allocated_buffers := B.erase b.addr p.allocated_buffers } b.addr (fun b => { b with free := true }) =
    marked B p before b after := by
  rw [hl] at hfits
  rw [update, marked, hl, LinkedList.modify_append _ _ _ hfits.before_ne]

theorem freeing_marked (h : Inv p) (hl : p.buffers = before ++ b :: after) (hb : b.free = false) :
    Freeing (marked B p before b after) before { b with free := true } after ∧
      ∀ c, (marked B p before b after).Allocated c ↔ p.Allocated c ∧ c ≠ b := by
  have hfits := fits_of_layout h.layout
  have hmem : p.Allocated b := ⟨by rw [hl]; simp, hb⟩
  have hlayout : Layout p.page_count (before ++ { b with free := true } :: after)
      (setPages (pageAlign b.data) (pageOf (top p.buffer_size after)) false p.pages) :=
    (hl ▸ h.layout).give hb rfl rfl
  have hapart := apart_split.mp (hl ▸ h.merged)
  have hrep : Replaced p (marked B p before b after) b [{ b with free := true }] :=
    replaced hfits (fits_of_layout (p := marked B p before b after) hlayout) rfl hl rfl rfl
  have halloc := hrep.allocated_iff rfl
  refine ⟨⟨rfl, rfl, hlayout, hapart.1, hapart.2.1, ?_, ?_, ?_⟩, halloc⟩
  · refine h.free_tree.congr (fun x hx => ?_) (hrep.isFree_iff hfits hmem rfl)
    obtain ⟨d, hd, rfl, hfree⟩ := hx
    exact hrep.sizes d hd (ne_of_isFree hfits hmem ⟨d, hd, rfl, hfree⟩)
  · refine (h.allocated_tree.erase B id ⟨b, hmem, rfl⟩ fun _ _ _ => rfl).congr (fun _ _ => rfl) fun x => ?_
    constructor
    · rintro ⟨d, hd, rfl⟩
      obtain ⟨hd, hne⟩ := (halloc d).mp hd
      exact ⟨⟨d, hd, rfl⟩, fun heq => hne (hfits.eq_of_addr_eq hd.1 hmem.1 heq)⟩
    · rintro ⟨⟨d, hd, rfl⟩, hne⟩
      exact ⟨d, (halloc d).mpr ⟨hd, fun heq => hne (congrArg Buffer.addr heq)⟩, rfl⟩
  · have hasync := h.async
    rw [hl, asyncBytes_split, Buffer.asyncBytes] at hasync
    show (if b.async_transaction then _ else _) + asyncBytes (before ++ { b with free := true } :: after) =
      p.buffer_size / 2
    rw [asyncBytes_split, asyncBytes_free rfl, ← hasync]
    by_cases ha : b.async_transaction = true
    · rw [if_pos ha, if_pos ⟨hb, ha⟩, Nat.zero_add, Nat.add_assoc, Nat.add_left_comm (asyncBytes before)]
    · rw [if_neg ha, if_neg fun hc => ha hc.2]

/-- An allocated buffer that no transaction refers to can be freed. -/
theorem binder_free_buf_ok (h : Inv p) (hb : p.Allocated b) (ht : b.transaction = none) :
    ∃ p', p.binder_free_buf B b.addr = .ok p' ∧ Inv p' ∧ SameArea p p' ∧ ∀ c, p'.Allocated c ↔ p.Allocated c ∧ c ≠ b := by
  obtain ⟨before, after, hl⟩ := List.append_of_mem hb.1
  have hfits := fits_of_layout h.layout
  have hsize := binder_buffer_size_split hfits hl
  have hroom : b.data + b.size ≤ top p.buffer_size after := h.layout.room _ (hl ▸ mem_spans_split) hb.2
  have hend : b.data + (top p.buffer_size after - b.data) = top p.buffer_size after :=
    Nat.add_sub_cancel' ((fits_cons.mp (fits_append.mp (hl ▸ hfits)).2).1)
  have hin := (hfits.addr_bounds hb.1).2
  rw [data_eq] at hin
  obtain ⟨hfreeing, halloc⟩ := freeing_marked B h hl hb.2
  obtain ⟨p2, after2, hok2, hfreeing2, hhead, hsame2, halloc2⟩ := mergeNext_ok B hfreeing
  obtain ⟨p3, before3, b3, hok3, hfreeing3, hlast, hsame3, halloc3⟩ := mergePrev_ok B hfreeing2
  have hcount : p3.page_count = p.page_count := hsame3.page_count.trans hsame2.page_count
  obtain ⟨t, hok4, hinv⟩ := hfreeing3.insert B hlast hhead (hcount ▸ h.small)
  refine ⟨_, ?_, hinv, ?_, fun c => ?_⟩
  · have hmarked : ∀ q : Proc, q = (if b.async_transaction then
        { p with free_async_space := p.free_async_space + (b.size + header) } else p) →
        q.unmapPages (pageAlign b.data) (pageOf (b.data + p.binder_buffer_size b.addr)) = .ok { p with
          free_async_space := if b.async_transaction then p.free_async_space + (b.size + header) else p.free_async_space
          pages := setPages (pageAlign b.data) (pageOf (top p.buffer_size after)) false p.pages } := by
      rintro q rfl
      rw [hsize, hend, unmapPages_ok]
      · by_cases ha : b.async_transaction = true <;> simp only [ha, if_true, Bool.false_eq_true, if_false]
      · intro k hk hk'
        have := (hl ▸ h.layout).mapped_of_allocated hb.2 hk hk'
        by_cases ha : b.async_transaction = true
        · rw [if_pos ha]
          exact this
        · rw [if_neg ha]
          exact this
    rw [binder_free_buf, bind_eq_of_ok (deref_split hfits hl)]
    simp only [bind_eq_of_ok (bugOn_ok hb.2), bind_eq_of_ok (bugOn_ok (c := b.transaction.isSome) (by rw [ht]; rfl)),
      bind_eq_of_ok (bugOn_ok (c := decide (b.size > p.binder_buffer_size b.addr)) (by
        rw [hsize, decide_eq_false_iff_not]
        exact Nat.not_lt.mpr (Nat.le_sub_of_add_le' hroom))),
      bind_eq_of_ok (bugOn_ok (c := decide (b.addr > p.buffer_size)) (by
        rw [decide_eq_false_iff_not]
        omega)),
      bind_eq_of_ok (hmarked _ rfl)]
    rw [update_eq_marked B hfits hl]
    refine (bind_eq_of_ok hok2).trans ?_
    exact (bind_eq_of_ok (x := mergePrev B p2 b.addr) hok3).trans hok4
  · exact (@SameArea.trans p (marked B p before b after) _ ⟨rfl, rfl, rfl, rfl⟩
      (SameArea.trans hsame2 hsame3)).trans ⟨rfl, rfl, rfl, rfl⟩
  · exact (halloc3 c).trans ((halloc2 c).trans (halloc c))

end Free

end Proc

end AnboxReboxed.Binder
