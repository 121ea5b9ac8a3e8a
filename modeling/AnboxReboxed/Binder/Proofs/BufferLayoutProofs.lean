import AnboxReboxed.Binder.BufferArea
import Mathlib.Data.List.Chain

/-!
# Proofs: how the buffers lie in the area

Each buffer reaches up to the next one. A page is mapped unless it is inside the data of a free buffer.
-/

namespace AnboxReboxed.Binder

open AnboxReboxed.Lib

/-- Where the buffers `l` begin, when the area ends at `stop`. -/
def top (stop : Nat) : List Buffer → Nat
  | [] => stop
  | b :: _ => b.addr

/-- The buffers, each with its end. -/
def spans (stop : Nat) : List Buffer → List (Buffer × Nat)
  | [] => []
  | b :: l => (b, top stop l) :: spans stop l

/-- There is room for each header. -/
def Fits (stop : Nat) (l : List Buffer) : Prop := ∀ s ∈ spans stop l, s.1.data ≤ s.2

/-- The page is inside the data of a free buffer. -/
def Unused (stop : Nat) (l : List Buffer) (k : Nat) : Prop :=
  ∃ s ∈ spans stop l, s.1.free = true ∧ pageAlign s.1.data ≤ k ∧ k < pageOf s.2

/-- The buffers tile the area, the pages in use are mapped, and the data of the allocated buffers has its room. -/
structure Layout (count : Nat) (l : List Buffer) (pages : Nat → Bool) : Prop where
  first : (l.head?.map Buffer.addr) = some 0
  fits : Fits (count * PAGE_SIZE) l
  backed : ∀ k, pages k = true ↔ k < count ∧ ¬Unused (count * PAGE_SIZE) l k
  room : ∀ s ∈ spans (count * PAGE_SIZE) l, s.1.free = false → s.1.data + s.1.size ≤ s.2

/-- The pages with those from `start` up to `stop` mapped or not. -/
def setPages (start stop : Nat) (v : Bool) (pages : Nat → Bool) : Nat → Bool := fun k =>
  if start ≤ k ∧ k < stop then v else pages k

section Pages

theorem pageAlign_le_iff (a k : Nat) : pageAlign a ≤ k ↔ a ≤ k * PAGE_SIZE := by
  unfold pageAlign
  simp only [PAGE_SIZE]
  omega

theorem lt_pageOf_iff (a k : Nat) : k < pageOf a ↔ (k + 1) * PAGE_SIZE ≤ a := by
  unfold pageOf
  simp only [PAGE_SIZE]
  omega

variable {start n page count : Nat} {pages : Nat → Bool} {fails : Nat → Bool}

theorem setPages_empty {stop : Nat} (v : Bool) (h : stop ≤ start) : setPages start stop v pages = pages := by
  funext k
  exact if_neg (by omega)

/-- The last page by itself. -/
theorem setPages_last {stop : Nat} {v : Bool} (h : start ≤ stop) :
    setPages start stop v (fun k => if k = stop then v else pages k) = setPages start (stop + 1) v pages := by
  funext k
  simp only [setPages]
  rcases Nat.lt_trichotomy k stop with hk | rfl | hk
  · simp only [hk, Nat.lt_succ_of_lt hk, Nat.ne_of_lt hk, and_true, if_false]
  · rw [if_neg (by omega), if_pos rfl, if_pos (by omega)]
  · rw [if_neg (by omega), if_neg (by omega), if_neg (by omega)]

/-- The first page by itself. -/
theorem setPages_first {stop : Nat} {v : Bool} (h : start < stop) :
    setPages (start + 1) stop v (fun k => if k = start then v else pages k) = setPages start stop v pages := by
  funext k
  simp only [setPages]
  rcases Nat.lt_trichotomy k start with hk | rfl | hk
  · rw [if_neg (by omega), if_neg (by omega), if_neg (by omega)]
  · rw [if_neg (by omega), if_pos rfl, if_pos (by omega)]
  · simp only [Nat.succ_le_of_lt hk, Nat.le_of_lt hk, Nat.ne_of_gt hk, true_and, if_false]

/-- A page that was not mapped before is as it was. -/
theorem setPages_undo {stop : Nat} (h : start ≤ stop) (hstop : pages stop = false) :
    setPages start (stop + 1) false (fun k => if k = stop then true else pages k) = setPages start stop false pages := by
  funext k
  simp only [setPages]
  rcases Nat.lt_trichotomy k stop with hk | rfl | hk
  · simp only [hk, Nat.lt_succ_of_lt hk, Nat.ne_of_lt hk, and_true, if_false]
  · rw [if_pos (by omega), if_neg (by omega), hstop]
  · rw [if_neg (by omega), if_neg (by omega), if_neg (by omega)]

theorem freePages_ok (h : ∀ k, start ≤ k → k < start + n → pages k = true) :
    Proc.freePages start n pages = .ok (setPages start (start + n) false pages) := by
  induction n generalizing pages with
  | zero => rw [Nat.add_zero, setPages_empty _ (Nat.le_refl _), Proc.freePages]
  | succ n ih =>
    rw [Proc.freePages, if_pos (h (start + n) (by omega) (by omega)), ih, setPages_last (by omega)]
    · rfl
    · intro k hk hk'
      rw [if_neg (by omega)]
      exact h k hk (by omega)

/-- Either all of the pages are mapped, or none of those from `start` on. -/
theorem allocPages_ok (hstart : start ≤ page) (hbefore : ∀ k, start ≤ k → k < page → pages k = true)
    (h : ∀ k, page ≤ k → k < page + n → pages k = false ∧ k < count) :
    ∃ r, Proc.allocPages count fails start page n pages = .ok r ∧
      (r = (true, setPages page (page + n) true pages) ∨
        r = (false, setPages start page false pages) ∧ ∃ k, fails k = true) := by
  induction n generalizing page pages with
  | zero =>
    refine ⟨(true, pages), by rw [Proc.allocPages], Or.inl ?_⟩
    rw [Nat.add_zero, setPages_empty _ (Nat.le_refl _)]
  | succ n ih =>
    obtain ⟨hfree, hlt⟩ := h page (Nat.le_refl _) (by omega)
    have hguard : ¬(pages page || decide (count ≤ page)) = true := by
      rw [hfree, Bool.false_or, decide_eq_true_eq]
      omega
    rw [Proc.allocPages, if_neg hguard]
    by_cases hfail : fails page = true
    · rw [if_pos hfail, freePages_ok (n := page - start) (fun k hk hk' => hbefore k hk (by omega))]
      refine ⟨_, rfl, Or.inr ⟨?_, page, hfail⟩⟩
      rw [show start + (page - start) = page by omega]
    · have hbefore' : ∀ k, start ≤ k → k < page + 1 → (if k = page then true else pages k) = true := by
        intro k hk hk'
        by_cases heq : k = page
        · exact if_pos heq
        · rw [if_neg heq]
          exact hbefore k hk (by omega)
      have h' : ∀ k, page + 1 ≤ k → k < page + 1 + n → (if k = page then true else pages k) = false ∧ k < count := by
        intro k hk hk'
        rw [if_neg (by omega)]
        exact h k (by omega) (by omega)
      obtain ⟨r, hok, hr⟩ := ih (by omega) hbefore' h'
      rw [if_neg hfail]
      refine ⟨r, hok, hr.imp (fun hr => ?_) (fun hr => ⟨?_, hr.2⟩)⟩
      · rw [hr, setPages_first (by omega), Nat.add_right_comm, Nat.add_assoc]
      · rw [hr.1, setPages_undo hstart hfree]

/-- Pages that are not mapped yet are mapped, all of them or none. -/
theorem mapPages_ok (p : Proc) (mm : Bool) (fails : Nat → Bool) (start stop : Nat)
    (h : ∀ k, start ≤ k → k < stop → p.pages k = false ∧ k < p.page_count) :
    (p.mapPages mm fails start stop = .ok (false, p) ∧ (mm = false ∨ ∃ k, fails k = true)) ∨
      p.mapPages mm fails start stop = .ok (true, { p with pages := setPages start stop true p.pages }) := by
  unfold Proc.mapPages
  by_cases hle : stop ≤ start
  · rw [if_pos hle, setPages_empty _ hle]
    exact Or.inr rfl
  · rw [if_neg hle]
    cases mm with
    | false => exact Or.inl ⟨rfl, Or.inl rfl⟩
    | true =>
      obtain ⟨r, hok, hr⟩ := @allocPages_ok start (stop - start) start p.page_count p.pages fails (Nat.le_refl start)
        (fun k hk hk' => absurd hk (by omega)) (fun k hk hk' => h k hk (by omega))
      rw [if_neg (by simp), hok]
      rcases hr with rfl | ⟨rfl, hfail⟩
      · rw [show start + (stop - start) = stop by omega]
        exact Or.inr rfl
      · rw [setPages_empty _ (Nat.le_refl _)]
        exact Or.inl ⟨rfl, Or.inr hfail⟩

theorem unmapPages_ok {p : Proc} {stop : Nat} (h : ∀ k, start ≤ k → k < stop → p.pages k = true) :
    p.unmapPages start stop = .ok { p with pages := setPages start stop false p.pages } := by
  unfold Proc.unmapPages
  by_cases hle : stop ≤ start
  · rw [if_pos hle, setPages_empty _ hle]
  · rw [if_neg hle, freePages_ok (fun k hk hk' => h k hk (by omega)), show start + (stop - start) = stop by omega]
    rfl

end Pages

section Spans

variable {stop : Nat} {b c : Buffer} {l before after : List Buffer}

@[simp] theorem top_nil : top stop [] = stop := rfl

@[simp] theorem top_cons : top stop (b :: l) = b.addr := rfl

@[simp] theorem spans_nil : spans stop [] = [] := rfl

@[simp] theorem spans_cons : spans stop (b :: l) = (b, top stop l) :: spans stop l := rfl

theorem top_append : top stop (before ++ after) = top (top stop after) before := by
  cases before <;> rfl

theorem spans_append : spans stop (before ++ after) = spans (top stop after) before ++ spans stop after := by
  induction before with
  | nil => rfl
  | cons b before ih => rw [List.cons_append, spans_cons, ih, top_append, spans_cons, List.cons_append]

theorem forall_spans_append {P : Buffer × Nat → Prop} : (∀ s ∈ spans stop (before ++ after), P s) ↔
    (∀ s ∈ spans (top stop after) before, P s) ∧ ∀ s ∈ spans stop after, P s := by
  rw [spans_append]
  exact List.forall_mem_append

theorem forall_spans_cons {P : Buffer × Nat → Prop} :
    (∀ s ∈ spans stop (b :: l), P s) ↔ P (b, top stop l) ∧ ∀ s ∈ spans stop l, P s := by
  rw [spans_cons]
  exact List.forall_mem_cons

theorem fits_append : Fits stop (before ++ after) ↔ Fits (top stop after) before ∧ Fits stop after :=
  forall_spans_append

theorem fits_cons : Fits stop (b :: l) ↔ b.data ≤ top stop l ∧ Fits stop l := forall_spans_cons

theorem unused_append {k : Nat} :
    Unused stop (before ++ after) k ↔ Unused (top stop after) before k ∨ Unused stop after k := by
  unfold Unused
  rw [spans_append]
  simp only [List.mem_append, or_and_right, exists_or]

theorem not_unused_nil {k : Nat} : ¬Unused stop [] k := by
  rintro ⟨s, hs, -⟩
  exact List.not_mem_nil hs

theorem unused_cons {k : Nat} : Unused stop (b :: l) k ↔
    (b.free = true ∧ pageAlign b.data ≤ k ∧ k < pageOf (top stop l)) ∨ Unused stop l k := by
  unfold Unused
  rw [spans_cons]
  exact List.exists_mem_cons_iff ..

theorem fst_mem_of_mem_spans {s : Buffer × Nat} (h : s ∈ spans stop l) : s.1 ∈ l := by
  induction l with
  | nil => exact absurd h List.not_mem_nil
  | cons b l ih =>
    rcases List.mem_cons.mp h with rfl | h
    · exact List.mem_cons_self
    · exact List.mem_cons_of_mem _ (ih h)

theorem exists_span (stop : Nat) (h : b ∈ l) : ∃ e, (b, e) ∈ spans stop l := by
  induction l with
  | nil => exact absurd h List.not_mem_nil
  | cons c l ih =>
    rcases List.mem_cons.mp h with rfl | h
    · exact ⟨_, List.mem_cons_self⟩
    · obtain ⟨e, he⟩ := ih h
      exact ⟨e, List.mem_cons_of_mem _ he⟩

theorem exists_split_of_mem_spans {e : Nat} (h : (b, e) ∈ spans stop l) :
    ∃ before after, l = before ++ b :: after ∧ e = top stop after := by
  induction l with
  | nil => exact absurd h List.not_mem_nil
  | cons c l ih =>
    rcases List.mem_cons.mp h with heq | h
    · cases heq
      exact ⟨[], l, rfl, rfl⟩
    · obtain ⟨before, after, hl, he⟩ := ih h
      exact ⟨c :: before, after, congrArg (c :: ·) hl, he⟩

theorem mem_spans_split : (b, top stop after) ∈ spans stop (before ++ b :: after) := by
  rw [spans_append, spans_cons]
  exact List.mem_append_right _ List.mem_cons_self

theorem data_eq (b : Buffer) : b.data = b.addr + 88 := rfl

namespace Fits

theorem top_le (h : Fits stop l) : top stop l ≤ stop := by
  induction l with
  | nil => exact Nat.le_refl _
  | cons b l ih =>
    obtain ⟨hb, hl⟩ := fits_cons.mp h
    have := ih hl
    rw [data_eq] at hb
    rw [top_cons]
    omega

/-- Every span is inside the area. -/
theorem mem_bounds (h : Fits stop l) : ∀ s ∈ spans stop l, top stop l ≤ s.1.addr ∧ s.1.data ≤ s.2 ∧ s.2 ≤ stop := by
  induction l with
  | nil => exact fun s hs => absurd hs List.not_mem_nil
  | cons b l ih =>
    obtain ⟨hb, hl⟩ := fits_cons.mp h
    rw [data_eq] at hb
    intro s hs
    rcases List.mem_cons.mp hs with rfl | hs
    · exact ⟨Nat.le_refl _, hb, hl.top_le⟩
    · have := ih hl s hs
      rw [top_cons]
      exact ⟨by omega, this.2⟩

theorem addr_bounds (h : Fits stop l) (hb : b ∈ l) : top stop l ≤ b.addr ∧ b.data ≤ stop := by
  obtain ⟨e, he⟩ := exists_span stop hb
  obtain ⟨h1, h2, h3⟩ := h.mem_bounds _ he
  exact ⟨h1, Nat.le_trans h2 h3⟩

/-- The buffers before another one are below it, those behind it above. -/
theorem before_lt (h : Fits stop (before ++ b :: after)) : ∀ c ∈ before, c.data ≤ b.addr := fun _ hc =>
  ((fits_append.mp h).1.addr_bounds hc).2

theorem lt_after (h : Fits stop (before ++ b :: after)) : ∀ c ∈ after, b.data ≤ c.addr := by
  obtain ⟨hb, ha⟩ := fits_cons.mp (fits_append.mp h).2
  intro c hc
  exact Nat.le_trans hb (ha.addr_bounds hc).1

theorem before_ne (h : Fits stop (before ++ b :: after)) : ∀ c ∈ before, c.addr ≠ b.addr := by
  intro c hc
  have := h.before_lt c hc
  rw [data_eq] at this
  omega

theorem after_ne (h : Fits stop (before ++ b :: after)) : ∀ c ∈ after, c.addr ≠ b.addr := by
  intro c hc
  have := h.lt_after c hc
  rw [data_eq] at this
  omega

/-- A buffer is known by its address. -/
theorem eq_of_addr_eq (h : Fits stop l) (hb : b ∈ l) (hc : c ∈ l) (heq : b.addr = c.addr) : b = c := by
  obtain ⟨before, after, rfl⟩ := List.append_of_mem hb
  rcases List.mem_append.mp hc with hc | hc
  · exact absurd heq.symm (h.before_ne c hc)
  · rcases List.mem_cons.mp hc with rfl | hc
    · rfl
    · exact absurd heq.symm (h.after_ne c hc)

/-- No page is inside the data of two buffers. -/
theorem not_unused (h : Fits stop (before ++ b :: after)) {k : Nat} (hk : pageAlign b.data ≤ k)
    (hk' : k < pageOf (top stop after)) : ¬Unused b.addr before k ∧ ¬Unused stop after k := by
  obtain ⟨hbefore, hcons⟩ := fits_append.mp h
  obtain ⟨-, hafter⟩ := fits_cons.mp hcons
  rw [pageAlign_le_iff] at hk
  rw [lt_pageOf_iff] at hk'
  rw [data_eq] at hk
  constructor
  · rintro ⟨s, hs, -, -, hlt⟩
    have := (hbefore.mem_bounds s hs).2.2
    rw [top_cons] at this
    rw [lt_pageOf_iff] at hlt
    simp only [PAGE_SIZE] at *
    omega
  · rintro ⟨s, hs, -, hle, -⟩
    have := (hafter.mem_bounds s hs).1
    rw [pageAlign_le_iff, data_eq] at hle
    simp only [PAGE_SIZE] at *
    omega

end Fits

theorem unused_split {k : Nat} : Unused stop (before ++ b :: after) k ↔ Unused b.addr before k ∨
    (b.free = true ∧ pageAlign b.data ≤ k ∧ k < pageOf (top stop after)) ∨ Unused stop after k := by
  rw [unused_append, unused_cons, top_cons]

end Spans

theorem head_eq {b b' : Buffer} {before after after' : List Buffer} (h : b'.addr = b.addr) :
    (before ++ b' :: after').head?.map Buffer.addr = (before ++ b :: after).head?.map Buffer.addr := by
  cases before with
  | nil => exact congrArg some h
  | cons c before => rfl

theorem data_congr {b b' : Buffer} (h : b'.addr = b.addr) : b'.data = b.data := congrArg (· + header) h

theorem pageAlign_mono {a a' : Nat} (h : a ≤ a') : pageAlign a ≤ pageAlign a' := by
  rw [pageAlign_le_iff]
  have := (pageAlign_le_iff a' (pageAlign a')).mp (Nat.le_refl _)
  omega

/-- The pages inside an address range that ends in the area are pages of the area. -/
theorem lt_count_of_lt_pageOf {count a k : Nat} (ha : a ≤ count * PAGE_SIZE) (hk : k < pageOf a) : k < count := by
  rw [lt_pageOf_iff] at hk
  simp only [PAGE_SIZE] at *
  omega

/-- Outside of `[lo, mid)` two ranges with the same end have the same members. -/
theorem inside_iff {lo mid hi k : Nat} (hmono : lo ≤ mid) (hout : ¬(lo ≤ k ∧ k < min mid hi)) :
    (lo ≤ k ∧ k < hi) ↔ (mid ≤ k ∧ k < hi) := by omega

section Unshared

open Proc

/-- The page is on the header at `buffer`, and neither on the header before it nor on that behind it. -/
def Unshared (prev buffer : Nat) (next : Option Nat) (k : Nat) : Prop :=
  (buffer_start_page buffer ≤ k ∧ k ≤ buffer_end_page buffer) ∧ buffer_end_page prev < k ∧
    ∀ n, next = some n → k < buffer_start_page n

variable {prev buffer : Nat} {next : Option Nat}

theorem unsharedPages_fst : (unsharedPages prev buffer next).1 = true ↔
    buffer_end_page prev ≠ buffer_start_page buffer ∧ ∀ n, next = some n →
      buffer_start_page n = buffer_end_page buffer → buffer_start_page n ≠ buffer_start_page buffer := by
  unfold unsharedPages
  cases next with
  | none => simp
  | some n => by_cases hn : buffer_start_page n = buffer_end_page buffer <;> simp [hn]

theorem unsharedPages_snd : (unsharedPages prev buffer next).2 = true ↔
    (buffer_end_page prev = buffer_start_page buffer → buffer_end_page prev ≠ buffer_end_page buffer) ∧
      ∀ n, next = some n → buffer_start_page n ≠ buffer_end_page buffer := by
  unfold unsharedPages
  cases next with
  | none =>
    simp
    tauto
  | some n =>
    by_cases hn : buffer_start_page n = buffer_end_page buffer
    · simp [hn]
    · simp [hn]
      tauto

/-- The pages that `unsharedPages` has freed are those that nothing else is on. -/
theorem unsharedPages_spec (hprev : prev + header ≤ buffer) (hnext : ∀ n, next = some n → buffer + header ≤ n) (k : Nat) :
    (((unsharedPages prev buffer next).1 || (unsharedPages prev buffer next).2) = true ∧
      (if (unsharedPages prev buffer next).1 then buffer_start_page buffer else buffer_end_page buffer) ≤ k ∧
      k < (if (unsharedPages prev buffer next).2 then buffer_end_page buffer else buffer_start_page buffer) + 1) ↔
    Unshared prev buffer next k := by
  have hstart : buffer_end_page prev ≤ buffer_start_page buffer := by
    simp only [buffer_end_page, buffer_start_page, pageOf, PAGE_SIZE, header] at *
    omega
  have hlast : buffer_start_page buffer ≤ buffer_end_page buffer ∧
      buffer_end_page buffer ≤ buffer_start_page buffer + 1 := by
    simp only [buffer_end_page, buffer_start_page, pageOf, PAGE_SIZE, header]
    omega
  have hbehind : ∀ n, next = some n → buffer_end_page buffer ≤ buffer_start_page n := by
    intro n hn
    have := hnext n hn
    simp only [buffer_end_page, buffer_start_page, pageOf, PAGE_SIZE, header] at *
    omega
  have hfst := @unsharedPages_fst prev buffer next
  have hsnd := @unsharedPages_snd prev buffer next
  unfold Unshared
  generalize (unsharedPages prev buffer next).1 = free_start at *
  generalize (unsharedPages prev buffer next).2 = free_end at *
  clear hprev hnext
  cases next with
  | none =>
    simp only [reduceCtorEq, false_implies, implies_true, and_true] at hfst hsnd ⊢
    cases free_start <;> cases free_end <;> simp at hfst hsnd ⊢ <;> omega
  | some n =>
    have hbehind := hbehind n rfl
    simp only [Option.some.injEq, forall_eq'] at hfst hsnd ⊢
    cases free_start <;> cases free_end <;> simp at hfst hsnd ⊢ <;> omega

end Unshared

namespace Layout

variable {count : Nat} {pages : Nat → Bool} {before after : List Buffer} {b b' c new : Buffer}

theorem top_le (h : Layout count (before ++ b :: after) pages) :
    top (count * PAGE_SIZE) after ≤ count * PAGE_SIZE :=
  (fits_cons.mp (fits_append.mp h.fits).2).2.top_le

/-- What is on a page that is not mapped is the data of a free buffer. -/
theorem mapped_of_not_unused {l : List Buffer} (h : Layout count l pages) {k : Nat} (hk : k < count)
    (hn : ¬Unused (count * PAGE_SIZE) l k) : pages k = true := (h.backed k).mpr ⟨hk, hn⟩

theorem mapped_iff_of_iff {l l' : List Buffer} (h : Layout count l pages) {k : Nat}
    (hiff : Unused (count * PAGE_SIZE) l' k ↔ Unused (count * PAGE_SIZE) l k) :
    pages k = true ↔ k < count ∧ ¬Unused (count * PAGE_SIZE) l' k := by
  rw [h.backed k, hiff]

/-- The pages inside the data of a free buffer are not mapped. -/
theorem unmapped_of_free (h : Layout count (before ++ b :: after) pages) (hb : b.free = true) {k : Nat}
    (hk : pageAlign b.data ≤ k) (hk' : k < pageOf (top (count * PAGE_SIZE) after)) :
    pages k = false ∧ k < count := by
  refine ⟨Bool.eq_false_iff.mpr fun hp => ?_, lt_count_of_lt_pageOf h.top_le hk'⟩
  exact ((h.backed k).mp hp).2 (unused_split.mpr (Or.inr (Or.inl ⟨hb, hk, hk'⟩)))

/-- The pages inside the data of an allocated buffer are mapped. -/
theorem mapped_of_allocated (h : Layout count (before ++ b :: after) pages) (hb : b.free = false) {k : Nat}
    (hk : pageAlign b.data ≤ k) (hk' : k < pageOf (top (count * PAGE_SIZE) after)) : pages k = true := by
  obtain ⟨hbefore, hafter⟩ := h.fits.not_unused hk hk'
  refine h.mapped_of_not_unused (lt_count_of_lt_pageOf h.top_le hk') fun hu => ?_
  rcases unused_split.mp hu with hu | hu | hu
  · exact hbefore hu
  · exact Bool.false_ne_true (hb.symm.trans hu.1)
  · exact hafter hu

/-- The pages that a header is on are mapped. -/
theorem mapped_of_header (h : Layout count (before ++ b :: after) pages) {k : Nat} (hk : pageOf b.addr ≤ k)
    (hk' : k ≤ pageOf (b.addr + header - 1)) : pages k = true := by
  obtain ⟨hbefore, hcons⟩ := fits_append.mp h.fits
  obtain ⟨hb, hafter⟩ := fits_cons.mp hcons
  have hle := Nat.le_trans hb hafter.top_le
  unfold pageOf at hk hk'
  rw [data_eq] at hle hb
  refine h.mapped_of_not_unused ?_ fun hu => ?_
  · simp only [PAGE_SIZE, header] at *
    omega
  · rcases unused_split.mp hu with ⟨s, hs, -, -, hlt⟩ | ⟨-, hle', -⟩ | ⟨s, hs, -, hle', -⟩
    · have := (hbefore.mem_bounds s hs).2.2
      rw [lt_pageOf_iff] at hlt
      simp only [PAGE_SIZE, header, top_cons] at *
      omega
    · rw [pageAlign_le_iff, data_eq] at hle'
      simp only [PAGE_SIZE, header] at *
      omega
    · have := (hafter.mem_bounds s hs).1
      rw [pageAlign_le_iff, data_eq] at hle'
      simp only [PAGE_SIZE, header] at *
      omega

/-- A buffer is changed in what does not matter for where the buffers lie. -/
theorem replace (h : Layout count (before ++ b :: after) pages) (haddr : b'.addr = b.addr) (hfree : b'.free = b.free)
    (hsize : b'.free = false → b'.size = b.size) : Layout count (before ++ b' :: after) pages := by
  have hdata := data_congr haddr
  refine ⟨?_, ?_, fun k => h.mapped_iff_of_iff ?_, ?_⟩
  · rw [← h.first]
    exact head_eq haddr
  · obtain ⟨hbefore, hcons⟩ := fits_append.mp h.fits
    obtain ⟨hb, hafter⟩ := fits_cons.mp hcons
    refine fits_append.mpr ⟨?_, fits_cons.mpr ⟨?_, hafter⟩⟩
    · rw [top_cons, haddr]
      exact hbefore
    · rw [hdata]
      exact hb
  · rw [unused_split, unused_split, haddr, hfree, hdata]
  · obtain ⟨hbefore, hcons⟩ := forall_spans_append.mp h.room
    obtain ⟨hb, hafter⟩ := forall_spans_cons.mp hcons
    refine forall_spans_append.mpr ⟨?_, forall_spans_cons.mpr ⟨fun hf => ?_, hafter⟩⟩
    · rw [top_cons, haddr]
      exact hbefore
    · show b'.data + b'.size ≤ _
      rw [hdata, hsize hf]
      exact hb (hfree ▸ hf)

/-- A free buffer is taken as a whole. -/
theorem take (h : Layout count (before ++ b :: after) pages) (haddr : b'.addr = b.addr)
    (hfree : b'.free = false) (hsize : b.data + b'.size ≤ top (count * PAGE_SIZE) after) :
    Layout count (before ++ b' :: after)
      (setPages (pageAlign b.data) (pageOf (top (count * PAGE_SIZE) after)) true pages) := by
  have hdata := data_congr haddr
  obtain ⟨hbefore, hcons⟩ := fits_append.mp h.fits
  obtain ⟨hbfit, hafter⟩ := fits_cons.mp hcons
  refine ⟨?_, fits_append.mpr ⟨?_, fits_cons.mpr ⟨?_, hafter⟩⟩, fun k => ?_, ?_⟩
  · rw [← h.first]
    exact head_eq haddr
  · rw [top_cons, haddr]
    exact hbefore
  · rw [hdata]
    exact hbfit
  · unfold setPages
    by_cases hin : pageAlign b.data ≤ k ∧ k < pageOf (top (count * PAGE_SIZE) after)
    · obtain ⟨hu, hu'⟩ := h.fits.not_unused hin.1 hin.2
      rw [if_pos hin]
      refine iff_of_true rfl ⟨lt_count_of_lt_pageOf h.top_le hin.2, fun hn => ?_⟩
      rcases unused_split.mp hn with hn | hn | hn
      · rw [haddr] at hn
        exact hu hn
      · exact Bool.false_ne_true (hfree.symm.trans hn.1)
      · exact hu' hn
    · rw [if_neg hin]
      refine h.mapped_iff_of_iff ?_
      rw [unused_split, unused_split, haddr, hdata]
      simp only [hfree, hin, and_false, Bool.false_eq_true]
  · obtain ⟨hroom, hcons⟩ := forall_spans_append.mp h.room
    obtain ⟨-, hroom'⟩ := forall_spans_cons.mp hcons
    refine forall_spans_append.mpr ⟨?_, forall_spans_cons.mpr ⟨fun _ => ?_, hroom'⟩⟩
    · rw [top_cons, haddr]
      exact hroom
    · show b'.data + b'.size ≤ _
      rw [hdata]
      exact hsize

/-- A free buffer is taken up to the header of a new one. -/
theorem split (b' new : Buffer) (h : Layout count (before ++ b :: after) pages) (hb : b.free = true) (haddr : b'.addr = b.addr)
    (hfree : b'.free = false) (hsize : b.data + b'.size ≤ new.addr) (hnew : new.free = true)
    (hfits : new.data ≤ top (count * PAGE_SIZE) after) :
    Layout count (before ++ b' :: new :: after)
      (setPages (pageAlign b.data) (min (pageAlign new.data) (pageOf (top (count * PAGE_SIZE) after))) true pages) := by
  have hdata := data_congr haddr
  have hle : b.data ≤ new.addr := by omega
  have hmono : pageAlign b.data ≤ pageAlign new.data := pageAlign_mono (by rw [data_eq new]; omega)
  obtain ⟨hbefore, hcons⟩ := fits_append.mp h.fits
  obtain ⟨-, hafter⟩ := fits_cons.mp hcons
  have hsplit : ∀ k, Unused (count * PAGE_SIZE) (before ++ b' :: new :: after) k ↔ Unused b.addr before k ∨
      (pageAlign new.data ≤ k ∧ k < pageOf (top (count * PAGE_SIZE) after)) ∨
        Unused (count * PAGE_SIZE) after k := by
    intro k
    rw [unused_split, unused_cons, haddr]
    simp only [hfree, hnew, Bool.false_eq_true, false_and, true_and, false_or]
  refine ⟨?_, fits_append.mpr ⟨?_, fits_cons.mpr ⟨?_, fits_cons.mpr ⟨hfits, hafter⟩⟩⟩, fun k => ?_, ?_⟩
  · rw [← h.first]
    exact head_eq haddr
  · rw [top_cons, haddr]
    exact hbefore
  · rw [hdata]
    exact hle
  · rw [hsplit k]
    unfold setPages
    by_cases hin : pageAlign b.data ≤ k ∧ k < min (pageAlign new.data) (pageOf (top (count * PAGE_SIZE) after))
    · have hk : k < pageAlign new.data := Nat.lt_of_lt_of_le hin.2 (Nat.min_le_left ..)
      have hk' := Nat.lt_of_lt_of_le hin.2 (Nat.min_le_right ..)
      obtain ⟨hu, hu'⟩ := h.fits.not_unused hin.1 hk'
      rw [if_pos hin]
      refine iff_of_true rfl ⟨lt_count_of_lt_pageOf h.top_le hk', ?_⟩
      rintro (hn | hn | hn)
      · exact hu hn
      · exact absurd hn.1 (Nat.not_le.mpr hk)
      · exact hu' hn
    · rw [if_neg hin, h.backed k, unused_split]
      simp only [hb, true_and]
      -- outside of the pages that are mapped both data areas have the same pages
      have hiff : (pageAlign b.data ≤ k ∧ k < pageOf (top (count * PAGE_SIZE) after)) ↔
          (pageAlign new.data ≤ k ∧ k < pageOf (top (count * PAGE_SIZE) after)) := inside_iff hmono hin
      rw [hiff]
  · obtain ⟨hroom, hcons⟩ := forall_spans_append.mp h.room
    obtain ⟨-, hroom'⟩ := forall_spans_cons.mp hcons
    refine forall_spans_append.mpr ⟨?_, forall_spans_cons.mpr ⟨fun _ => ?_, forall_spans_cons.mpr ⟨fun hf => ?_, hroom'⟩⟩⟩
    · rw [top_cons, haddr]
      exact hroom
    · show b'.data + b'.size ≤ _
      rw [hdata]
      exact hsize
    · exact absurd (hnew.symm.trans hf) (Ne.symm Bool.false_ne_true)

/-- An allocated buffer is freed. -/
theorem give (h : Layout count (before ++ b :: after) pages) (hb : b.free = false) (haddr : b'.addr = b.addr)
    (hfree : b'.free = true) :
    Layout count (before ++ b' :: after)
      (setPages (pageAlign b.data) (pageOf (top (count * PAGE_SIZE) after)) false pages) := by
  have hdata := data_congr haddr
  obtain ⟨hbefore, hcons⟩ := fits_append.mp h.fits
  obtain ⟨hbfit, hafter⟩ := fits_cons.mp hcons
  refine ⟨?_, fits_append.mpr ⟨?_, fits_cons.mpr ⟨?_, hafter⟩⟩, fun k => ?_, ?_⟩
  · rw [← h.first]
    exact head_eq haddr
  · rw [top_cons, haddr]
    exact hbefore
  · rw [hdata]
    exact hbfit
  · unfold setPages
    by_cases hin : pageAlign b.data ≤ k ∧ k < pageOf (top (count * PAGE_SIZE) after)
    · rw [if_pos hin]
      refine iff_of_false Bool.false_ne_true fun hn => hn.2 (unused_split.mpr (Or.inr (Or.inl ⟨hfree, ?_⟩)))
      rw [hdata]
      exact hin
    · rw [if_neg hin]
      refine h.mapped_iff_of_iff ?_
      rw [unused_split, unused_split, haddr, hdata]
      simp only [hb, hin, and_false, Bool.false_eq_true]
  · obtain ⟨hroom, hcons⟩ := forall_spans_append.mp h.room
    obtain ⟨-, hroom'⟩ := forall_spans_cons.mp hcons
    refine forall_spans_append.mpr ⟨?_, forall_spans_cons.mpr ⟨fun hf => ?_, hroom'⟩⟩
    · rw [top_cons, haddr]
      exact hroom
    · exact absurd (hfree.symm.trans hf) (Ne.symm Bool.false_ne_true)

open Proc in
/-- The data of two buffers next to each other, and what is between them. -/
theorem inside_merged {stop n k : Nat} (hb : b.data ≤ c.addr) (hc : c.data ≤ top stop after) (hn : top stop after ≤ stop)
    (hstop : stop = n * PAGE_SIZE) :
    (pageAlign b.data ≤ k ∧ k < pageOf (top stop after)) ↔
      (pageAlign b.data ≤ k ∧ k < pageOf c.addr) ∨ (pageAlign c.data ≤ k ∧ k < pageOf (top stop after)) ∨
        Unshared b.addr c.addr (after.head?.map Buffer.addr) k := by
  unfold Unshared buffer_start_page buffer_end_page
  rw [pageAlign_le_iff, pageAlign_le_iff, lt_pageOf_iff, lt_pageOf_iff]
  simp only [data_eq] at *
  cases after with
  | nil =>
    simp only [List.head?_nil, Option.map_none, reduceCtorEq, false_implies, implies_true, and_true, top_nil] at *
    simp only [pageOf, PAGE_SIZE, header] at *
    omega
  | cons d after =>
    simp only [List.head?_cons, Option.map_some, Option.some.injEq, forall_eq', top_cons] at *
    simp only [pageOf, PAGE_SIZE, header] at *
    omega

/-- A free buffer is given up to the free one before it. -/
theorem merge {pages' : Nat → Bool} (h : Layout count (before ++ b :: c :: after) pages) (hb : b.free = true)
    (hc : c.free = true) (hpages : ∀ k, pages' k = true ↔
      ¬Unshared b.addr c.addr (after.head?.map Buffer.addr) k ∧ pages k = true) :
    Layout count (before ++ b :: after) pages' := by
  obtain ⟨hbefore, hcons⟩ := fits_append.mp h.fits
  obtain ⟨hbfit, hcons⟩ := fits_cons.mp hcons
  obtain ⟨hcfit, hafter⟩ := fits_cons.mp hcons
  have hbc : b.data ≤ c.addr := hbfit
  refine ⟨?_, fits_append.mpr ⟨hbefore, fits_cons.mpr ⟨?_, hafter⟩⟩, fun k => ?_, ?_⟩
  · rw [← h.first]
    exact head_eq rfl
  · rw [data_eq] at hcfit
    omega
  · rw [hpages k, h.backed k, unused_split, unused_split, unused_cons,
      inside_merged (k := k) hbc hcfit hafter.top_le rfl]
    simp only [hb, hc, true_and, top_cons]
    tauto
  · obtain ⟨hroom, hcons⟩ := forall_spans_append.mp h.room
    obtain ⟨-, hroom'⟩ := forall_spans_cons.mp (forall_spans_cons.mp hcons).2
    refine forall_spans_append.mpr ⟨hroom, forall_spans_cons.mpr ⟨fun hf => ?_, hroom'⟩⟩
    exact absurd (hb.symm.trans hf) (Ne.symm Bool.false_ne_true)

end Layout

end AnboxReboxed.Binder
