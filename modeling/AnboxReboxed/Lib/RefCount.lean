import Mathlib.Tactic.Linarith

/-!
# Reference counts

A shared object is freed with its last reference. `Accounts` says what its count must be, given what
one owner is still owed and how many references the other owners hold. Once the first owner gives up
more than it was given the account is overdrawn, and the object may go while others still hold it.
-/

namespace AnboxReboxed.Lib

/-- The count after one reference is dropped; `none` is a freed object. -/
def dropCount : Option Nat → Option Nat
  | none => none
  | some n => if n = 1 then none else some (n - 1)

/-- The count of an object of which `owed` references belong to one owner and `held` to others. -/
def Accounts (count : Option Nat) (owed : Int) (held : Nat) : Prop :=
  match count with
  | none => owed < 0 ∨ held = 0
  | some n => 1 ≤ n ∧ (n : Int) = owed + held

namespace Accounts

variable {count : Option Nat} {owed : Int} {held n : Nat}

theorem pos (h : Accounts (some n) owed held) : 1 ≤ n := h.1

theorem count_eq (h : Accounts (some n) owed held) : (n : Int) = owed + held := h.2

/-- A held object is alive unless its account is overdrawn. -/
theorem alive (h : Accounts count owed held) (howed : 0 ≤ owed) (hheld : 1 ≤ held) :
    count.isSome = true := by
  cases count with
  | none =>
    rcases h with h | h
    · omega
    · omega
  | some n => rfl

/-- A new object has the one reference of its creator. -/
theorem new : Accounts (some 1) 1 0 := ⟨Nat.le_refl 1, by omega⟩

/-- One of the held references goes. -/
theorem drop_held (h : Accounts count owed (held + 1)) : Accounts (dropCount count) owed held := by
  cases count with
  | none =>
    rcases h with h | h
    · exact Or.inl h
    · omega
  | some n =>
    obtain ⟨hpos, hn⟩ := h
    by_cases h1 : n = 1
    · simp only [dropCount, if_pos h1]
      show owed < 0 ∨ held = 0
      omega
    · simp only [dropCount, if_neg h1]
      exact ⟨by omega, by omega⟩

/-- The owner gives up one reference, whether it has one left or not. -/
theorem drop_owed (h : Accounts count owed held) : Accounts (dropCount count) (owed - 1) held := by
  cases count with
  | none =>
    rcases h with h | h
    · exact Or.inl (by omega)
    · exact Or.inr h
  | some n =>
    obtain ⟨hpos, hn⟩ := h
    by_cases h1 : n = 1
    · simp only [dropCount, if_pos h1]
      show owed - 1 < 0 ∨ held = 0
      omega
    · simp only [dropCount, if_neg h1]
      exact ⟨by omega, by omega⟩

/-- One more reference is held. -/
theorem add_held (h : Accounts (some n) owed held) : Accounts (some (n + 1)) owed (held + 1) :=
  ⟨by omega, by have := h.2; push_cast; omega⟩

/-- The owner takes one more reference. -/
theorem add_owed (h : Accounts (some n) owed held) : Accounts (some (n + 1)) (owed + 1) held :=
  ⟨by omega, by have := h.2; push_cast; omega⟩

end Accounts

end AnboxReboxed.Lib
