import Mathlib.Data.List.Basic

/-!
# Streams cut at delimiters

A stream is a sequence of pieces, each with a delimiter behind it, and of a rest without one. A reader that
keeps the rest finds the same pieces however the stream arrives.
-/

namespace AnboxReboxed.Lib.Delimited

variable {α : Type} (p : α → Bool)

/-- The pieces with a delimiter behind them. -/
def complete (l : List α) : List (List α) := (l.splitOnP p).dropLast

/-- What follows the last delimiter. -/
def rest (l : List α) : List α := (l.splitOnP p).getLast (List.splitOnP_ne_nil p l)

variable {p}

theorem splitOnP_eq (l : List α) : l.splitOnP p = complete p l ++ [rest p l] :=
  (List.dropLast_concat_getLast _).symm

theorem eq_of_splitOnP {l : List α} {pieces : List (List α)} {r : List α} (h : l.splitOnP p = pieces ++ [r]) :
    complete p l = pieces ∧ rest p l = r := by
  rw [splitOnP_eq] at h
  exact List.append_singleton_inj.mp h

section Cut

variable {l xs as : List α} {sep : α}

theorem complete_of_none (h : ∀ x ∈ l, p x = false) : complete p l = [] :=
  (eq_of_splitOnP (show l.splitOnP p = [] ++ [l] from List.splitOnP_eq_singleton h)).1

theorem rest_of_none (h : ∀ x ∈ l, p x = false) : rest p l = l :=
  (eq_of_splitOnP (show l.splitOnP p = [] ++ [l] from List.splitOnP_eq_singleton h)).2

@[simp] theorem complete_nil : complete p [] = [] := rfl

@[simp] theorem rest_nil : rest p [] = [] := rfl

theorem splitOnP_cut (hsep : p sep = true) : (xs ++ sep :: as).splitOnP p =
    (complete p xs ++ rest p xs :: complete p as) ++ [rest p as] := by
  rw [List.splitOnP_append_cons xs as hsep, splitOnP_eq xs, splitOnP_eq as]
  simp

/-- A delimiter completes the piece before it. -/
theorem complete_cut (hsep : p sep = true) :
    complete p (xs ++ sep :: as) = complete p xs ++ rest p xs :: complete p as :=
  (eq_of_splitOnP (splitOnP_cut hsep)).1

theorem rest_cut (hsep : p sep = true) : rest p (xs ++ sep :: as) = rest p as :=
  (eq_of_splitOnP (splitOnP_cut hsep)).2

/-- A stream has no delimiter, or it has a last one. -/
theorem none_or_last (l : List α) : (∀ x ∈ l, p x = false) ∨
    ∃ xs sep as, l = xs ++ sep :: as ∧ p sep = true ∧ ∀ x ∈ as, p x = false := by
  induction l with
  | nil => exact Or.inl fun x hx => absurd hx List.not_mem_nil
  | cons a l ih =>
    rcases ih with hnone | ⟨xs, sep, as, rfl, hsep, has⟩
    · cases ha : p a with
      | false => exact Or.inl (List.forall_mem_cons.mpr ⟨ha, hnone⟩)
      | true => exact Or.inr ⟨[], a, l, rfl, ha, hnone⟩
    · exact Or.inr ⟨a :: xs, sep, as, rfl, hsep, has⟩

/-- It has no delimiter, or it has a first one. -/
theorem none_or_first (l : List α) : (∀ x ∈ l, p x = false) ∨
    ∃ xs sep as, l = xs ++ sep :: as ∧ p sep = true ∧ ∀ x ∈ xs, p x = false := by
  induction l with
  | nil => exact Or.inl fun x hx => absurd hx List.not_mem_nil
  | cons a l ih =>
    cases ha : p a with
    | true => exact Or.inr ⟨[], a, l, rfl, ha, fun x hx => absurd hx List.not_mem_nil⟩
    | false =>
      rcases ih with hnone | ⟨xs, sep, as, rfl, hsep, hxs⟩
      · exact Or.inl (List.forall_mem_cons.mpr ⟨ha, hnone⟩)
      · exact Or.inr ⟨a :: xs, sep, as, rfl, hsep, List.forall_mem_cons.mpr ⟨ha, hxs⟩⟩

end Cut

/-- What arrives later completes the rest. -/
theorem complete_append (l m : List α) : complete p (l ++ m) = complete p l ++ complete p (rest p l ++ m) := by
  rcases none_or_last (p := p) l with hnone | ⟨xs, sep, as, rfl, hsep, has⟩
  · rw [complete_of_none hnone, rest_of_none hnone, List.nil_append]
  · rw [List.append_assoc, List.cons_append, complete_cut hsep, complete_cut hsep, rest_cut hsep,
      complete_of_none has, rest_of_none has]
    simp

theorem rest_append (l m : List α) : rest p (l ++ m) = rest p (rest p l ++ m) := by
  rcases none_or_last (p := p) l with hnone | ⟨xs, sep, as, rfl, hsep, has⟩
  · rw [rest_of_none hnone]
  · rw [List.append_assoc, List.cons_append, rest_cut hsep, rest_cut hsep, rest_of_none has]

/-- The rest is empty if a delimiter is the last element, and if there is no element at all. -/
theorem rest_eq_nil_iff {l : List α} : rest p l = [] ↔ ∀ x ∈ l.getLast?, p x = true := by
  rcases none_or_last (p := p) l with hnone | ⟨xs, sep, as, rfl, hsep, has⟩
  · rw [rest_of_none hnone]
    constructor
    · rintro rfl x hx
      cases hx
    · intro hlast
      by_contra hne
      have htrue := hlast _ (List.getLast?_eq_some_getLast hne)
      rw [hnone _ (List.getLast_mem hne)] at htrue
      cases htrue
  · rw [rest_cut hsep, rest_of_none has]
    constructor
    · rintro rfl x hx
      rw [List.getLast?_concat] at hx
      cases hx
      exact hsep
    · intro hlast
      by_contra hne
      have hget : (xs ++ sep :: as).getLast? = some (as.getLast hne) := by
        rw [List.getLast?_append, List.getLast?_cons, List.getLast?_eq_some_getLast hne]
        rfl
      have htrue := hlast _ hget
      rw [has _ (List.getLast_mem hne)] at htrue
      cases htrue

/-! ## Lines and words -/

/-- All pieces; the rest is one of them unless it is empty. -/
def lines (p : α → Bool) (l : List α) : List (List α) := complete p l ++ if (rest p l).isEmpty then [] else [rest p l]

/-- The pieces and the rest, as far as they are not empty. -/
def words (p : α → Bool) (l : List α) : List (List α) := (l.splitOnP p).filter fun w => !w.isEmpty

/-- No piece has a delimiter in it. -/
theorem not_of_mem_splitOnP {l w : List α} (hw : w ∈ l.splitOnP p) : ∀ x ∈ w, p x = false := by
  induction l generalizing w with
  | nil =>
    rw [List.splitOnP_nil, List.mem_singleton] at hw
    rw [hw]
    exact fun x hx => absurd hx List.not_mem_nil
  | cons a l ih =>
    rw [List.splitOnP_cons_eq_if_modifyHead] at hw
    split at hw
    · rcases List.mem_cons.mp hw with rfl | hw
      · exact fun x hx => absurd hx List.not_mem_nil
      · exact ih hw
    · rename_i ha
      obtain ⟨first, pieces, hsplit⟩ := List.exists_cons_of_ne_nil (List.splitOnP_ne_nil p l)
      rw [hsplit, List.modifyHead_cons] at hw
      rw [hsplit] at ih
      rcases List.mem_cons.mp hw with rfl | hw
      · exact List.forall_mem_cons.mpr ⟨by simpa using ha, ih List.mem_cons_self⟩
      · exact ih (List.mem_cons_of_mem _ hw)

/-- A piece is made of what was split. -/
theorem subset_of_mem_splitOnP {l w : List α} (hw : w ∈ l.splitOnP p) : w ⊆ l := by
  induction l generalizing w with
  | nil =>
    rw [List.splitOnP_nil, List.mem_singleton] at hw
    rw [hw]
    exact List.Subset.refl []
  | cons a l ih =>
    rw [List.splitOnP_cons_eq_if_modifyHead] at hw
    split at hw
    · rcases List.mem_cons.mp hw with rfl | hw
      · exact List.nil_subset _
      · exact List.subset_cons_of_subset a (ih hw)
    · obtain ⟨first, pieces, hsplit⟩ := List.exists_cons_of_ne_nil (List.splitOnP_ne_nil p l)
      rw [hsplit, List.modifyHead_cons] at hw
      rw [hsplit] at ih
      rcases List.mem_cons.mp hw with rfl | hw
      · exact List.cons_subset_cons a (ih List.mem_cons_self)
      · exact List.subset_cons_of_subset a (ih (List.mem_cons_of_mem _ hw))

theorem not_of_mem_lines {l w : List α} (hw : w ∈ lines p l) : ∀ x ∈ w, p x = false := by
  refine not_of_mem_splitOnP (l := l) ?_
  rw [splitOnP_eq]
  refine List.mem_append.mpr ((List.mem_append.mp hw).imp_right fun hrest => ?_)
  split at hrest
  · cases hrest
  · exact hrest

/-- Lines that are each written with a delimiter behind them. -/
theorem lines_flatMap {sep : α} (hsep : p sep = true) {ls : List (List α)} (h : ∀ l ∈ ls, ∀ x ∈ l, p x = false) :
    lines p (ls.flatMap fun l => l ++ [sep]) = ls := by
  induction ls with
  | nil => rfl
  | cons l ls ih =>
    have hl := h l List.mem_cons_self
    have htail := ih fun l' hl' => h l' (List.mem_cons_of_mem _ hl')
    rw [List.flatMap_cons, List.append_assoc, List.singleton_append, lines, complete_cut hsep, rest_cut hsep,
      complete_of_none hl, rest_of_none hl, List.nil_append, List.cons_append]
    exact congrArg _ htail

theorem words_of_none {w : List α} (hw : w ≠ []) (h : ∀ x ∈ w, p x = false) : words p w = [w] := by
  rw [words, List.splitOnP_eq_singleton h]
  simpa using hw

/-- A delimiter at the start leaves no word. -/
theorem words_cons {sep : α} {l : List α} (hsep : p sep = true) : words p (sep :: l) = words p l := by
  rw [words, words, List.splitOnP_cons_eq_if_modifyHead, if_pos hsep]
  exact List.filter_cons_of_neg (by simp)

/-- The first word ends at a delimiter. -/
theorem words_cut {w l : List α} {sep : α} (hw : w ≠ []) (h : ∀ x ∈ w, p x = false) (hsep : p sep = true) :
    words p (w ++ sep :: l) = w :: words p l := by
  rw [words, List.splitOnP_append_cons w l hsep, List.filter_append]
  exact congrArg (· ++ words p l) (words_of_none hw h)

/-- The first separator is in one place. -/
theorem cut_inj {sep : α} {xs ys as bs : List α} (hxs : sep ∉ xs) (hys : sep ∉ ys)
    (h : xs ++ sep :: as = ys ++ sep :: bs) : xs = ys ∧ as = bs := by
  induction xs generalizing ys with
  | nil =>
    cases ys with
    | nil => exact ⟨rfl, (List.cons.inj h).2⟩
    | cons y ys => exact absurd ((List.cons.inj h).1 ▸ List.mem_cons_self) hys
  | cons x xs ih =>
    cases ys with
    | nil => exact absurd ((List.cons.inj h).1 ▸ List.mem_cons_self) hxs
    | cons y ys =>
      obtain ⟨rfl, htail⟩ := List.cons.inj h
      obtain ⟨rfl, hrest⟩ := ih (List.not_mem_of_not_mem_cons hxs) (List.not_mem_of_not_mem_cons hys) htail
      exact ⟨rfl, hrest⟩

/-! ## Fields -/

section Fields

variable [BEq α] [LawfulBEq α] {sep : α} {l : List α}

/-- There is one field if there is no separator. -/
theorem splitOn_eq_singleton_iff {a : List α} : l.splitOn sep = [a] ↔ sep ∉ l ∧ l = a := by
  constructor
  · intro h
    rcases none_or_first (p := (· == sep)) l with hnone | ⟨xs, c, as, rfl, hc, hxs⟩
    · have hone : l.splitOn sep = [l] := List.splitOnP_eq_singleton hnone
      rw [hone] at h
      exact ⟨fun hmem => by simpa using hnone sep hmem, List.singleton_inj.mp h⟩
    · rw [List.splitOn_eq_splitOnP, List.splitOnP_append_cons_of_forall_mem hxs c hc] at h
      exact absurd (List.cons_inj_right xs |>.mp (h.trans (by rw [(List.cons.inj h).1]))) (List.splitOnP_ne_nil _ _)
  · rintro ⟨hmem, rfl⟩
    refine List.splitOnP_eq_singleton fun x hx => ?_
    rw [beq_eq_false_iff_ne]
    rintro rfl
    exact hmem hx

/-- The first field of several ends at the first separator. -/
theorem splitOn_eq_cons_iff {a b : List α} {fields : List (List α)} :
    l.splitOn sep = a :: b :: fields ↔ sep ∉ a ∧ ∃ m, l = a ++ sep :: m ∧ m.splitOn sep = b :: fields := by
  constructor
  · intro h
    rcases none_or_first (p := (· == sep)) l with hnone | ⟨xs, c, as, rfl, hc, hxs⟩
    · have hone : l.splitOn sep = [l] := List.splitOnP_eq_singleton hnone
      rw [hone] at h
      cases h
    · rw [List.splitOn_eq_splitOnP, List.splitOnP_append_cons_of_forall_mem hxs c hc] at h
      obtain ⟨rfl, hrest⟩ := List.cons.inj h
      have hcs : c = sep := beq_iff_eq.mp hc
      exact ⟨fun hmem => by simpa using hxs sep hmem, as, by rw [hcs], hrest⟩
  · rintro ⟨hmem, m, rfl, hm⟩
    have ha : ∀ x ∈ a, (x == sep) = false := by
      intro x hx
      rw [beq_eq_false_iff_ne]
      rintro rfl
      exact hmem hx
    rw [List.splitOn_eq_splitOnP, List.splitOnP_append_cons_of_forall_mem ha sep (beq_self_eq_true sep)]
    exact congrArg _ hm

end Fields

end AnboxReboxed.Lib.Delimited
