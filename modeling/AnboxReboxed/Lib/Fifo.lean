import Mathlib.Data.List.Range
import Mathlib.Tactic.Linarith

/-!
# Bounded queues that can be closed

The abstract queue: a list of at most `capacity` elements and a flag. Whatever is accepted is handed
out once, in the order in which it came; a closed queue accepts nothing and is only drained.
-/

namespace AnboxReboxed.Lib

/-- The elements of a queue, from the head on, and whether it was closed. -/
structure Fifo (α : Type) where
  items : List α := []
  closed : Bool := false
  deriving DecidableEq

namespace Fifo

variable {α : Type}

inductive Call (α : Type) where
  | push (a : α)
  | pop
  | close

/-- The answer to a call; `refused` stands for a full queue or an empty one, `ended` for a closed one. -/
inductive Answer (α : Type) where
  | done
  | taken (a : α)
  | refused
  | ended
  deriving DecidableEq

/-- One call on a queue for `capacity` elements. -/
def step (capacity : Nat) (f : Fifo α) : Call α → Fifo α × Answer α
  | .push a =>
    if f.closed then (f, .ended)
    else if capacity ≤ f.items.length then (f, .refused)
    else ({ f with items := f.items ++ [a] }, .done)
  | .pop =>
    match f.items with
    | [] => (f, if f.closed then .ended else .refused)
    | a :: items => ({ f with items }, .taken a)
  | .close => ({ f with closed := true }, .done)

/-- The queue after the calls, and their answers. -/
def run (capacity : Nat) : Fifo α → List (Call α) → Fifo α × List (Answer α)
  | f, [] => (f, [])
  | f, c :: cs =>
    let rest := run capacity (f.step capacity c).1 cs
    (rest.1, (f.step capacity c).2 :: rest.2)

/-- The elements that were accepted. -/
def pushed : List (Call α) → List (Answer α) → List α
  | .push a :: cs, .done :: as => a :: pushed cs as
  | _ :: cs, _ :: as => pushed cs as
  | _, _ => []

/-- The elements that were handed out. -/
def popped (as : List (Answer α)) : List α :=
  as.filterMap fun
    | .taken a => some a
    | _ => none

/-- The answers of a closed queue: pushes fail, pops drain what is left and fail from then on. -/
def drain : List α → List (Call α) → List (Answer α)
  | _, [] => []
  | items, .push _ :: cs => .ended :: drain items cs
  | items, .close :: cs => .done :: drain items cs
  | [], .pop :: cs => .ended :: drain [] cs
  | a :: items, .pop :: cs => .taken a :: drain items cs

/-- A queue never holds more than its capacity. -/
theorem run_length {capacity : Nat} (cs : List (Call α)) : ∀ {f : Fifo α},
    f.items.length ≤ capacity → (run capacity f cs).1.items.length ≤ capacity := by
  induction cs with
  | nil => exact fun h => h
  | cons c cs ih =>
    intro f h
    apply ih
    cases c with
    | push a =>
      simp only [step]
      split_ifs with hc hfull
      · exact h
      · exact h
      · simp
        omega
    | pop =>
      simp only [step]
      split
      · exact h
      · rename_i a items hi
        rw [hi] at h
        exact Nat.le_of_succ_le h
    | close => exact h

/-- What was in the queue and what was accepted is handed out in this order, or still there. -/
theorem run_inOrder (capacity : Nat) (cs : List (Call α)) : ∀ f : Fifo α,
    f.items ++ pushed cs (run capacity f cs).2 =
      popped (run capacity f cs).2 ++ (run capacity f cs).1.items := by
  induction cs with
  | nil =>
    intro f
    simp [run, pushed, popped]
  | cons c cs ih =>
    intro f
    have h := ih (f.step capacity c).1
    cases c with
    | push a =>
      simp only [run]
      by_cases hc : f.closed = true
      · simp only [step, if_pos hc] at h ⊢
        exact h
      · by_cases hfull : capacity ≤ f.items.length
        · simp only [step, if_neg hc, if_pos hfull] at h ⊢
          exact h
        · simp only [step, if_neg hc, if_neg hfull] at h ⊢
          simpa [pushed, popped] using h
    | pop =>
      simp only [run]
      cases hi : f.items with
      | nil =>
        simp only [step, hi] at h ⊢
        cases hc : f.closed <;> simpa [hc, pushed, popped] using h
      | cons a items =>
        simp only [step, hi] at h ⊢
        simpa [pushed, popped] using h
    | close => exact h

/-- A closed queue is drained, whatever else is called. -/
theorem run_closed (capacity : Nat) (cs : List (Call α)) : ∀ {f : Fifo α}, f.closed = true →
    (run capacity f cs).2 = drain f.items cs := by
  induction cs with
  | nil => exact fun _ => rfl
  | cons c cs ih =>
    intro f hc
    cases c with
    | push a =>
      simp only [run, step, if_pos hc, drain]
      rw [ih hc]
    | pop =>
      cases hi : f.items with
      | nil =>
        simp only [run, step, hi, if_pos hc, drain]
        rw [ih hc, hi]
      | cons a items =>
        simp only [run, step, hi, drain]
        exact congrArg (.taken a :: ·) (ih (f := { f with items }) hc)
    | close =>
      simp only [run, step, drain]
      rw [ih rfl]

end Fifo

/-!
## Rings

A queue kept in an array of `capacity` slots: the elements stand in `count` consecutive slots from
`pos` on, and the slot after the last one is the first. Writing behind the last element appends to
the queue, and advancing `pos` removes its head.
-/

section

variable {α : Type}

/-- `i` brought back into the array after it has run over its end at most once. -/
def wrapIndex (capacity i : Nat) : Nat := if capacity ≤ i then i - capacity else i

/-- The queued elements, from the head on. -/
def ringView (slots : Nat → α) (capacity pos count : Nat) : List α :=
  (List.range count).map fun i => slots (wrapIndex capacity (pos + i))

@[simp] theorem ringView_length (slots : Nat → α) (capacity pos count : Nat) :
    (ringView slots capacity pos count).length = count := by simp [ringView]

theorem wrapIndex_lt {capacity i : Nat} (h : i < 2 * capacity) : wrapIndex capacity i < capacity := by
  unfold wrapIndex
  split_ifs <;> omega

/-- Different places of the queue lie in different slots. -/
theorem wrapIndex_ne {capacity pos i j : Nat} (hi : i < j) (hj : j < capacity) :
    wrapIndex capacity (pos + i) ≠ wrapIndex capacity (pos + j) := by
  unfold wrapIndex
  split_ifs <;> omega

/-- Writing behind the last element appends it. -/
theorem ringView_push {slots : Nat → α} {capacity pos count : Nat} (hc : count < capacity) (a : α) :
    ringView (Function.update slots (wrapIndex capacity (pos + count)) a) capacity pos (count + 1) =
      ringView slots capacity pos count ++ [a] := by
  unfold ringView
  rw [List.range_succ, List.map_append]
  congr 1
  · refine List.map_congr_left fun i hi => ?_
    exact Function.update_of_ne (wrapIndex_ne (List.mem_range.mp hi) hc) _ _
  · simp

/-- A slot outside the queue may hold anything. -/
theorem ringView_update_of_ne {slots : Nat → α} {capacity pos count k : Nat}
    (hk : ∀ i, i < count → wrapIndex capacity (pos + i) ≠ k) (a : α) :
    ringView (Function.update slots k a) capacity pos count = ringView slots capacity pos count := by
  refine List.map_congr_left fun i hi => ?_
  exact Function.update_of_ne (hk i (List.mem_range.mp hi)) _ _

/-- The head of a queue that is not empty stands at `pos`. -/
theorem ringView_pop {slots : Nat → α} {capacity pos count : Nat} (hp : pos < capacity)
    (hc : count + 1 ≤ capacity) :
    ringView slots capacity pos (count + 1) =
      slots pos :: ringView slots capacity (wrapIndex capacity (pos + 1)) count := by
  unfold ringView
  rw [List.range_succ_eq_map, List.map_cons, List.map_map]
  congr 1
  · simp [wrapIndex, Nat.not_le.mpr hp]
  · refine List.map_congr_left fun i hi => ?_
    have hi' := List.mem_range.mp hi
    show slots (wrapIndex capacity (pos + (i + 1))) =
      slots (wrapIndex capacity (wrapIndex capacity (pos + 1) + i))
    congr 1
    unfold wrapIndex
    split_ifs <;> omega

end

end AnboxReboxed.Lib
