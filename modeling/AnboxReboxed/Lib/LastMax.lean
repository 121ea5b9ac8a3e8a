import Mathlib.Order.Lattice
import Mathlib.Tactic.Common

/-!
# The last of the greatest elements

A loop over a list keeps a value and what belongs to it, and an element that is not below the value takes its place.
What is left is the last of the greatest elements, unless all of them are below the value that the loop starts with.
-/

namespace AnboxReboxed.Lib.LastMax

variable {α α' β γ : Type} [LinearOrder β]

/-- The body of the loop. -/
def keep (f : α → β) (g : α → γ) (best : β × γ) (a : α) : β × γ := if f a < best.1 then best else (f a, g a)

/-- `a` is the last of the elements of `l` with the greatest value. -/
def IsLast (f : α → β) (l : List α) (a : α) : Prop :=
  ∃ before after, l = before ++ a :: after ∧ (∀ b ∈ before, f b ≤ f a) ∧ ∀ b ∈ after, f b < f a

variable {f f' : α → β} {g : α → γ} {l : List α} {a a' : α} {best : β × γ}

theorem IsLast.mem (h : IsLast f l a) : a ∈ l := by
  obtain ⟨before, after, rfl, -, -⟩ := h
  exact List.mem_append_right _ List.mem_cons_self

theorem IsLast.le (h : IsLast f l a) : ∀ b ∈ l, f b ≤ f a := by
  obtain ⟨before, after, rfl, hbefore, hafter⟩ := h
  intro b hb
  rcases List.mem_append.mp hb with hb | hb
  · exact hbefore b hb
  · rcases List.mem_cons.mp hb with rfl | hb
    · exact le_rfl
    · exact (hafter b hb).le

/-- The last one of a longer list is the first element, or the last one of the rest. -/
theorem isLast_cons_iff {b : α} :
    IsLast f (b :: l) a ↔ (a = b ∧ ∀ c ∈ l, f c < f b) ∨ (IsLast f l a ∧ f b ≤ f a) := by
  constructor
  · rintro ⟨before, after, heq, hbefore, hafter⟩
    cases before with
    | nil =>
      obtain ⟨rfl, rfl⟩ := List.cons.inj heq
      exact .inl ⟨rfl, hafter⟩
    | cons c before =>
      obtain ⟨rfl, rfl⟩ := List.cons.inj heq
      exact .inr ⟨⟨before, after, rfl, fun d hd => hbefore d (List.mem_cons_of_mem _ hd), hafter⟩,
        hbefore _ List.mem_cons_self⟩
  · rintro (⟨rfl, hafter⟩ | ⟨⟨before, after, rfl, hbefore, hafter⟩, hle⟩)
    · exact ⟨[], l, rfl, fun _ hb => absurd hb List.not_mem_nil, hafter⟩
    · refine ⟨b :: before, after, rfl, fun d hd => ?_, hafter⟩
      rcases List.mem_cons.mp hd with rfl | hd
      · exact hle
      · exact hbefore d hd

theorem IsLast.unique (h : IsLast f l a) (h' : IsLast f l a') : a = a' := by
  induction l with
  | nil => exact absurd h.mem List.not_mem_nil
  | cons b l ih =>
    rcases isLast_cons_iff.mp h with ⟨rfl, hall⟩ | ⟨hl, hle⟩
    · rcases isLast_cons_iff.mp h' with ⟨rfl, -⟩ | ⟨hl', hle'⟩
      · rfl
      · exact absurd (hall a' hl'.mem) (not_lt.mpr hle')
    · rcases isLast_cons_iff.mp h' with ⟨rfl, hall'⟩ | ⟨hl', -⟩
      · exact absurd (hall' a hl.mem) (not_lt.mpr hle)
      · exact ih hl hl'

theorem isLast_congr (h : ∀ b ∈ l, f b = f' b) : IsLast f l a ↔ IsLast f' l a := by
  induction l with
  | nil => exact ⟨fun hl => absurd hl.mem List.not_mem_nil, fun hl => absurd hl.mem List.not_mem_nil⟩
  | cons b l ih =>
    have hb := h b List.mem_cons_self
    have htail : ∀ c ∈ l, f c = f' c := fun c hc => h c (List.mem_cons_of_mem _ hc)
    rw [isLast_cons_iff, isLast_cons_iff, ih htail]
    refine or_congr (and_congr_right fun _ => forall₂_congr fun c hc => by rw [htail c hc, hb])
      (and_congr_right fun hl => by rw [hb, htail a hl.mem])

/-- A map that keeps the values keeps the last one. -/
theorem isLast_map_iff {k : α → α'} {f' : α' → β} {a' : α'} (h : ∀ b ∈ l, f' (k b) = f b) :
    IsLast f' (l.map k) a' ↔ ∃ a, IsLast f l a ∧ k a = a' := by
  induction l with
  | nil => exact ⟨fun hl => absurd hl.mem List.not_mem_nil, fun ⟨_, hl, _⟩ => absurd hl.mem List.not_mem_nil⟩
  | cons b l ih =>
    have hb := h b List.mem_cons_self
    have htail : ∀ c ∈ l, f' (k c) = f c := fun c hc => h c (List.mem_cons_of_mem _ hc)
    have hall : (∀ c ∈ l.map k, f' c < f' (k b)) ↔ ∀ c ∈ l, f c < f b := by
      rw [List.forall_mem_map, hb]
      exact forall₂_congr fun c hc => by rw [htail c hc]
    rw [List.map_cons, isLast_cons_iff, hall, ih htail]
    constructor
    · rintro (⟨rfl, hlt⟩ | ⟨⟨a, ha, rfl⟩, hle⟩)
      · exact ⟨b, isLast_cons_iff.mpr (.inl ⟨rfl, hlt⟩), rfl⟩
      · rw [hb, htail a ha.mem] at hle
        exact ⟨a, isLast_cons_iff.mpr (.inr ⟨ha, hle⟩), rfl⟩
    · rintro ⟨a, ha, rfl⟩
      rcases isLast_cons_iff.mp ha with ⟨rfl, hlt⟩ | ⟨ha, hle⟩
      · exact .inl ⟨rfl, hlt⟩
      · rw [← htail a ha.mem, ← hb] at hle
        exact .inr ⟨⟨a, ha, rfl⟩, hle⟩

/-- What the loop leaves. -/
theorem foldl_keep (l : List α) (best : β × γ) :
    (l.foldl (keep f g) best = best ∧ ∀ a ∈ l, f a < best.1) ∨
      ∃ a, IsLast f l a ∧ best.1 ≤ f a ∧ l.foldl (keep f g) best = (f a, g a) := by
  induction l generalizing best with
  | nil => exact .inl ⟨rfl, fun _ hb => absurd hb List.not_mem_nil⟩
  | cons b l ih =>
    rw [List.foldl_cons]
    by_cases hlt : f b < best.1
    · rw [keep, if_pos hlt]
      rcases ih best with ⟨heq, hall⟩ | ⟨a, ha, hle, heq⟩
      · exact .inl ⟨heq, List.forall_mem_cons.mpr ⟨hlt, hall⟩⟩
      · exact .inr ⟨a, isLast_cons_iff.mpr (.inr ⟨ha, (hlt.trans_le hle).le⟩), hle, heq⟩
    · rw [keep, if_neg hlt]
      rcases ih (f b, g b) with ⟨heq, hall⟩ | ⟨a, ha, hle, heq⟩
      · exact .inr ⟨b, isLast_cons_iff.mpr (.inl ⟨rfl, hall⟩), not_lt.mp hlt, heq⟩
      · exact .inr ⟨a, isLast_cons_iff.mpr (.inr ⟨ha, hle⟩), (not_lt.mp hlt).trans hle, heq⟩

end AnboxReboxed.Lib.LastMax
