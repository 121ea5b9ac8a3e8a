import Mathlib.Computability.RegularExpressions

/-!
# Streams of strokes

A stroke is a `down`, something from `while_down`, and an `up`. A stream is a sequence of strokes of which the last
one may be under way; whether it is can be read off its last symbol.
-/

namespace AnboxReboxed.Lib

open Computability RegularExpression

variable {α : Type} (down up : α) (while_down : RegularExpression α)

/-- All strokes are complete. -/
def finished : RegularExpression α := (char down * while_down * char up).star

/-- The last stroke is under way. -/
def underWay : RegularExpression α := finished down up while_down * (char down * while_down)

/-- A sequence of strokes, the last one perhaps under way. -/
def strokes : RegularExpression α := finished down up while_down * (char down * while_down + 1)

variable {down up while_down} {w : List α}

theorem finished_nil : [] ∈ (finished down up while_down).matches' := Language.nil_mem_kstar _

theorem underWay_down (hempty : [] ∈ while_down.matches') (h : w ∈ (finished down up while_down).matches') :
    w ++ [down] ∈ (underWay down up while_down).matches' := by
  have hdown : [down] ++ [] ∈ (char down * while_down).matches' := Language.append_mem_mul rfl hempty
  exact Language.append_mem_mul h hdown

theorem underWay_while {a : α} (hmore : ∀ v ∈ while_down.matches', v ++ [a] ∈ while_down.matches')
    (h : w ∈ (underWay down up while_down).matches') : w ++ [a] ∈ (underWay down up while_down).matches' := by
  obtain ⟨front, hfront, stroke, hstroke, rfl⟩ := Language.mem_mul.mp h
  obtain ⟨first, hfirst, rest, hrest, rfl⟩ := Language.mem_mul.mp hstroke
  rw [List.append_assoc, List.append_assoc]
  exact Language.append_mem_mul hfront (Language.append_mem_mul hfirst (hmore rest hrest))

theorem finished_up (h : w ∈ (underWay down up while_down).matches') :
    w ++ [up] ∈ (finished down up while_down).matches' := by
  obtain ⟨front, hfront, stroke, hstroke, rfl⟩ := Language.mem_mul.mp h
  obtain ⟨done, rfl, hdone⟩ := Language.mem_kstar.mp hfront
  refine Language.mem_kstar.mpr ⟨done ++ [stroke ++ [up]], by simp, fun v hv => ?_⟩
  rcases List.mem_append.mp hv with hv | hv
  · exact hdone v hv
  · rw [List.mem_singleton.mp hv]
    exact Language.append_mem_mul hstroke rfl

theorem strokes_of_finished (h : w ∈ (finished down up while_down).matches') :
    w ∈ (strokes down up while_down).matches' :=
  Language.mem_mul.mpr ⟨w, h, [], Or.inr rfl, List.append_nil w⟩

theorem strokes_of_underWay (h : w ∈ (underWay down up while_down).matches') :
    w ∈ (strokes down up while_down).matches' := by
  obtain ⟨front, hfront, stroke, hstroke, rfl⟩ := Language.mem_mul.mp h
  exact Language.append_mem_mul hfront (Or.inl hstroke)

/-- Complete strokes end with an `up`. -/
theorem finished_getLast? (h : w ∈ (finished down up while_down).matches') :
    w.getLast? = none ∨ w.getLast? = some up := by
  obtain ⟨done, rfl, hdone⟩ := Language.mem_kstar.mp h
  rcases List.eq_nil_or_concat done with rfl | ⟨done, stroke, rfl⟩
  · exact Or.inl rfl
  · obtain ⟨first, -, last, hlast, rfl⟩ := Language.mem_mul.mp (hdone stroke (by simp))
    right
    rw [show last = [up] from hlast]
    simp

/-- A stroke under way ends with its `down` or with a symbol of what comes while it is down. -/
theorem underWay_getLast? (h : w ∈ (underWay down up while_down).matches') :
    w.getLast? = some down ∨ ∃ v ∈ while_down.matches', ∃ a, v.getLast? = some a ∧ w.getLast? = some a := by
  obtain ⟨front, -, stroke, hstroke, rfl⟩ := Language.mem_mul.mp h
  obtain ⟨first, hfirst, rest, hrest, rfl⟩ := Language.mem_mul.mp hstroke
  rw [show first = [down] from hfirst, List.getLast?_append, List.getLast?_append]
  cases hlast : rest.getLast? with
  | none => exact Or.inl rfl
  | some a => exact Or.inr ⟨rest, hrest, a, hlast, rfl⟩

end AnboxReboxed.Lib
