import Mathlib.Data.List.Basic
import Mathlib.Logic.Basic
import Mathlib.Tactic.Common

/-!
# Queues that coalesce

Actions on a state wait in a queue, and a new one may take the place of the last one. Some actions are
boundaries, which are never replaced. What is left follows what was put in when it leads to the same state at
every boundary and at the end.
-/

namespace AnboxReboxed.Lib

variable {σ β : Type} {act : σ → β → σ} {boundary : β → Bool} {start : σ} {left all front : List β} {old b : β}

/-- The actions that are `left` come to the same as `all` of them. A boundary of the one list is met in the other
with the same number of boundaries before it. -/
structure Follows (act : σ → β → σ) (boundary : β → Bool) (start : σ) (left all : List β) : Prop where
  meets : ∀ before b after, left = before ++ b :: after → boundary b = true →
    ∃ before' after', all = before' ++ b :: after' ∧ before'.filter boundary = before.filter boundary ∧
      before'.foldl act start = before.foldl act start
  boundaries : all.filter boundary = left.filter boundary
  last : all.foldl act start = left.foldl act start

namespace Follows

theorem nil : Follows act boundary start [] [] where
  meets := by
    intro before b after h
    cases before <;> cases h
  boundaries := rfl
  last := rfl

/-- One more action on both sides. -/
theorem snoc (h : Follows act boundary start left all) (b : β) :
    Follows act boundary start (left ++ [b]) (all ++ [b]) where
  meets := by
    intro before c after heq hc
    rcases List.eq_nil_or_concat after with rfl | ⟨after', d, rfl⟩
    · obtain ⟨rfl, hbc⟩ := List.append_inj' heq rfl
      cases hbc
      exact ⟨all, [], rfl, h.boundaries, h.last⟩
    · rw [List.concat_eq_append, ← List.cons_append, ← List.append_assoc] at heq
      obtain ⟨hleft, -⟩ := List.append_inj' heq rfl
      obtain ⟨before', after'', hall, hfilter, hfold⟩ := h.meets before c after' hleft hc
      exact ⟨before', after'' ++ [b], by rw [hall]; simp, hfilter, hfold⟩
  boundaries := by rw [List.filter_append, List.filter_append, h.boundaries]
  last := by rw [List.foldl_append, List.foldl_append, h.last]

/-- An action may take the place of the last one exactly when that one makes no difference before it. -/
theorem replace_iff (h : Follows act boundary start (front ++ [old]) all) (hold : boundary old = false)
    (hb : boundary b = false) : Follows act boundary start (front ++ [b]) (all ++ [b]) ↔
      act (act (front.foldl act start) old) b = act (front.foldl act start) b := by
  have hlast : (all ++ [b]).foldl act start = act (act (front.foldl act start) old) b := by
    rw [List.foldl_append, h.last, List.foldl_append]
    rfl
  have hfront : (front ++ [b]).foldl act start = act (front.foldl act start) b := by
    rw [List.foldl_append]
    rfl
  constructor
  · intro h'
    rw [← hlast, ← hfront]
    exact h'.last
  · intro hsame
    refine ⟨fun before c after heq hc => ?_, ?_, by rw [hlast, hfront, hsame]⟩
    · rcases List.eq_nil_or_concat after with rfl | ⟨after', d, rfl⟩
      · obtain ⟨-, hbc⟩ := List.append_inj' heq rfl
        cases hbc
        rw [hb] at hc
        cases hc
      · rw [List.concat_eq_append, ← List.cons_append, ← List.append_assoc] at heq
        obtain ⟨hfront', -⟩ := List.append_inj' heq rfl
        obtain ⟨before', after'', hall, hfilter, hfold⟩ := h.meets before c (after' ++ [old])
          (by rw [hfront']; simp) hc
        exact ⟨before', after'' ++ [b], by rw [hall]; simp, hfilter, hfold⟩
    · rw [List.filter_append, h.boundaries, List.filter_append, List.filter_append]
      simp [hold, hb]

end Follows

/-!
## Updates under way

A queue of updates leads a state to a target. Some updates may be given up at any time; such an update must not
change the state at the place where it stands, so that the target is reached with or without it.
-/

section

variable {σ β : Type}

/-- The updates lead from the first state to the last one, and those that are not `kept` change nothing. -/
def Feeds (act : σ → β → σ) (kept : β → Bool) : σ → List β → σ → Prop
  | s, [], t => s = t
  | s, b :: bs, t => (kept b = false → act s b = s) ∧ Feeds act kept (act s b) bs t

variable {act : σ → β → σ} {kept : β → Bool} {s t : σ} {b : β} {xs ys : List β}

theorem feeds_append : ∀ {s : σ}, Feeds act kept s (xs ++ ys) t ↔
    ∃ u, Feeds act kept s xs u ∧ Feeds act kept u ys t := by
  induction xs with
  | nil =>
    intro s
    constructor
    · exact fun h => ⟨s, rfl, h⟩
    · rintro ⟨u, rfl, h⟩
      exact h
  | cons b xs ih =>
    intro s
    constructor
    · rintro ⟨hb, h⟩
      obtain ⟨u, hxs, hys⟩ := ih.mp h
      exact ⟨u, ⟨hb, hxs⟩, hys⟩
    · rintro ⟨u, ⟨hb, hxs⟩, hys⟩
      exact ⟨hb, ih.mpr ⟨u, hxs, hys⟩⟩

/-- One more update moves the target. -/
theorem Feeds.snoc (h : Feeds act kept s xs t) (hb : kept b = false → act t b = t) :
    Feeds act kept s (xs ++ [b]) (act t b) := feeds_append.mpr ⟨t, h, hb, rfl⟩

/-- An update that is not kept may go. -/
theorem Feeds.remove (h : Feeds act kept s (xs ++ b :: ys) t) (hb : kept b = false) :
    Feeds act kept s (xs ++ ys) t := by
  obtain ⟨u, hxs, hnone, hys⟩ := feeds_append.mp h
  rw [hnone hb] at hys
  exact feeds_append.mpr ⟨u, hxs, hys⟩

end

end AnboxReboxed.Lib
