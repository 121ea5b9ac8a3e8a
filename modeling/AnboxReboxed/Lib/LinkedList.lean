import Mathlib.Data.List.Basic

/-!
# Linked lists

A list of nodes that are known by their addresses, as the code has it that holds an address and goes on to the node
before or behind it.
-/

namespace AnboxReboxed.Lib.LinkedList

variable {α κ : Type} [DecidableEq κ] (addr : α → κ)

/-- The node at an address. -/
def get (k : κ) : List α → Option α
  | [] => none
  | x :: l => if addr x = k then some x else get k l

def next (k : κ) : List α → Option α
  | [] => none
  | x :: l => if addr x = k then l.head? else next k l

def prev (k : κ) : List α → Option α
  | x :: y :: l => if addr y = k then some x else prev k (y :: l)
  | _ => none

def modify (k : κ) (f : α → α) : List α → List α
  | [] => []
  | x :: l => if addr x = k then f x :: l else x :: modify k f l

/-- `list_add` -/
def add (k : κ) (new : α) : List α → List α
  | [] => []
  | x :: l => if addr x = k then x :: new :: l else x :: add k new l

/-- `list_del` -/
def del (k : κ) : List α → List α
  | [] => []
  | x :: l => if addr x = k then l else x :: del k l

variable {addr} {x y : α} {k : κ} {before after l : List α}

theorem get_append (h : ∀ z ∈ before, addr z ≠ addr x) : get addr (addr x) (before ++ x :: after) = some x := by
  induction before with
  | nil => exact if_pos rfl
  | cons z before ih =>
    rw [List.cons_append, get, if_neg (h z List.mem_cons_self)]
    exact ih fun w hw => h w (List.mem_cons_of_mem _ hw)

theorem next_append (h : ∀ z ∈ before, addr z ≠ addr x) :
    next addr (addr x) (before ++ x :: after) = after.head? := by
  induction before with
  | nil => exact if_pos rfl
  | cons z before ih =>
    rw [List.cons_append, next, if_neg (h z List.mem_cons_self)]
    exact ih fun w hw => h w (List.mem_cons_of_mem _ hw)

theorem prev_cons_cons (h : ∀ z ∈ before ++ [x], addr z ≠ addr y) :
    prev addr (addr y) (before ++ x :: y :: after) = some x := by
  induction before with
  | nil => exact if_pos rfl
  | cons z before ih =>
    have htail : ∀ w ∈ before ++ [x], addr w ≠ addr y := fun w hw => h w (List.mem_cons_of_mem _ hw)
    cases before with
    | nil =>
      rw [List.cons_append, List.nil_append, prev, if_neg (h x (by simp))]
      exact ih htail
    | cons w before =>
      rw [List.cons_append, List.cons_append, prev, if_neg (h w (by simp))]
      exact ih htail

theorem prev_head (h : ∀ z ∈ after, addr z ≠ addr x) : prev addr (addr x) (x :: after) = none := by
  have hnone : ∀ l : List α, (∀ z ∈ l, addr z ≠ addr x) → ∀ w, prev addr (addr x) (w :: l) = none := by
    intro l
    induction l with
    | nil => exact fun _ _ => rfl
    | cons z l ih =>
      intro hl w
      rw [prev, if_neg (hl z List.mem_cons_self)]
      exact ih (fun v hv => hl v (List.mem_cons_of_mem _ hv)) z
  exact hnone after h x

theorem modify_append (x : α) (f : α → α) (after : List α) (h : ∀ z ∈ before, addr z ≠ addr x) :
    modify addr (addr x) f (before ++ x :: after) = before ++ f x :: after := by
  induction before with
  | nil => exact if_pos rfl
  | cons z before ih =>
    rw [List.cons_append, modify, if_neg (h z List.mem_cons_self), ih fun w hw => h w (List.mem_cons_of_mem _ hw),
      List.cons_append]

theorem add_append {new : α} (h : ∀ z ∈ before, addr z ≠ addr x) :
    add addr (addr x) new (before ++ x :: after) = before ++ x :: new :: after := by
  induction before with
  | nil => exact if_pos rfl
  | cons z before ih =>
    rw [List.cons_append, add, if_neg (h z List.mem_cons_self), ih fun w hw => h w (List.mem_cons_of_mem _ hw),
      List.cons_append]

theorem del_append (h : ∀ z ∈ before, addr z ≠ addr x) :
    del addr (addr x) (before ++ x :: after) = before ++ after := by
  induction before with
  | nil => exact if_pos rfl
  | cons z before ih =>
    rw [List.cons_append, del, if_neg (h z List.mem_cons_self), ih fun w hw => h w (List.mem_cons_of_mem _ hw),
      List.cons_append]

/-- What is behind a node depends on the addresses only. -/
theorem map_next_congr {l' : List α} (h : l'.map addr = l.map addr) :
    (next addr k l').map addr = (next addr k l).map addr := by
  induction l generalizing l' with
  | nil =>
    rw [List.map_nil, List.map_eq_nil_iff] at h
    rw [h]
  | cons x l ih =>
    obtain ⟨y, l'', rfl, hy, hl⟩ := List.map_eq_cons_iff.mp h
    rw [next, next, hy]
    by_cases hx : addr x = k
    · rw [if_pos hx, if_pos hx, ← List.head?_map, ← List.head?_map, hl]
    · rw [if_neg hx, if_neg hx]
      exact ih hl

end AnboxReboxed.Lib.LinkedList
