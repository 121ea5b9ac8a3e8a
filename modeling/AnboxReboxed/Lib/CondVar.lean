import Mathlib.Data.List.Basic

/-!
# Condition variables

The threads waiting on a condition variable, seen from outside: those asleep, which only a
notification reaches, and those that were woken and wait for the mutex. `Attended` is the invariant of
waiters for units of a resource that are announced one at a time.
-/

namespace AnboxReboxed.Lib

/-- A condition variable with its waiters, each described by a `τ`. -/
structure CondVar (τ : Type) where
  asleep : List τ := []
  woken : List τ := []
  deriving DecidableEq

namespace CondVar

variable {τ : Type}

/-- `wait`: the mutex is released and the thread falls asleep, in one step. -/
def wait (c : CondVar τ) (t : τ) : CondVar τ := { c with asleep := c.asleep ++ [t] }

/-- `notify_one`; `k` chooses which of the threads asleep is woken. -/
def notify_one (c : CondVar τ) (k : Nat) : CondVar τ :=
  match c.asleep[k % c.asleep.length]? with
  | none => c
  | some t => ⟨c.asleep.eraseIdx (k % c.asleep.length), c.woken ++ [t]⟩

/-- `notify_all`. -/
def notify_all (c : CondVar τ) : CondVar τ := ⟨[], c.woken ++ c.asleep⟩

/-- A woken thread leaves `wait`, with the mutex. -/
def resume (c : CondVar τ) (k : Nat) : Option (τ × CondVar τ) :=
  (c.woken[k]?).map fun t => (t, { c with woken := c.woken.eraseIdx k })

@[simp] theorem asleep_notify_all (c : CondVar τ) : c.notify_all.asleep = [] := rfl

/-- A notification finds nobody, or it wakes one thread. -/
theorem notify_one_cases (c : CondVar τ) (k : Nat) :
    (c.asleep = [] ∧ c.notify_one k = c) ∨
      ((c.notify_one k).woken ≠ [] ∧ (c.notify_one k).asleep.length + 1 = c.asleep.length) := by
  unfold notify_one
  split
  · rename_i hk
    left
    refine ⟨?_, rfl⟩
    by_contra hne
    have hlt := Nat.mod_lt k (List.length_pos_iff.mpr hne)
    rw [List.getElem?_eq_getElem hlt] at hk
    cases hk
  · rename_i t hk
    right
    obtain ⟨hlt, -⟩ := List.getElem?_eq_some_iff.mp hk
    refine ⟨by simp, ?_⟩
    rw [List.length_eraseIdx_of_lt hlt]
    omega

theorem notify_one_nobody {c : CondVar τ} (h : c.asleep = []) (k : Nat) : c.notify_one k = c := by
  rcases notify_one_cases c k with ⟨-, he⟩ | ⟨-, hlen⟩
  · exact he
  · rw [h] at hlen
    cases hlen

/-- Nobody falls asleep because of a notification. -/
theorem asleep_of_notify_one {c : CondVar τ} {k : Nat} (h : (c.notify_one k).asleep ≠ []) :
    c.asleep ≠ [] := by
  intro hnil
  rw [notify_one_nobody hnil] at h
  exact h hnil

/-- The number of threads in `wait`. -/
def waiters (c : CondVar τ) : Nat := c.asleep.length + c.woken.length

theorem waiters_wait (c : CondVar τ) (t : τ) : (c.wait t).waiters = c.waiters + 1 := by
  simp [waiters, wait]
  omega

theorem waiters_notify_one (c : CondVar τ) (k : Nat) : (c.notify_one k).waiters = c.waiters := by
  unfold notify_one
  split
  · rfl
  · rename_i t hk
    obtain ⟨hlt, -⟩ := List.getElem?_eq_some_iff.mp hk
    simp only [waiters, List.length_eraseIdx_of_lt hlt, List.length_append, List.length_singleton]
    omega

theorem waiters_notify_all (c : CondVar τ) : c.notify_all.waiters = c.waiters := by
  simp [waiters, notify_all]
  omega

theorem waiters_resume {c c' : CondVar τ} {k : Nat} {t : τ} (h : c.resume k = some (t, c')) :
    c'.waiters + 1 = c.waiters := by
  obtain ⟨t', hk, he⟩ := Option.map_eq_some_iff.mp h
  cases he
  obtain ⟨hlt, -⟩ := List.getElem?_eq_some_iff.mp hk
  simp only [waiters, List.length_eraseIdx_of_lt hlt]
  omega

/-- A notification leaves one thread asleep less, or none. -/
theorem asleep_notify_one (c : CondVar τ) (k : Nat) :
    (c.notify_one k).asleep.length = c.asleep.length - 1 := by
  rcases notify_one_cases c k with ⟨hnil, he⟩ | ⟨-, hlen⟩
  · rw [he, hnil]
    rfl
  · omega

theorem resume_some {c c' : CondVar τ} {k : Nat} {t : τ} (h : c.resume k = some (t, c')) :
    c'.asleep = c.asleep := by
  obtain ⟨t', -, he⟩ := Option.map_eq_some_iff.mp h
  cases he
  rfl

/-- Nobody is asleep while there is something to wait for, unless there is exactly one unit and
somebody is on the way to take it. -/
def Attended (c : CondVar τ) (ready : Nat) (active : Prop) : Prop :=
  c.asleep ≠ [] → ready = 0 ∨ ready = 1 ∧ (c.woken ≠ [] ∨ active)

namespace Attended

variable {c : CondVar τ} {ready : Nat} {active active' : Prop}

/-- A thread falls asleep when there is nothing to take. -/
theorem wait (t : τ) : (c.wait t).Attended 0 active := fun _ => Or.inl rfl

/-- The first unit is announced. -/
theorem announced (k : Nat) : (c.notify_one k).Attended 1 active := by
  intro hne
  rcases notify_one_cases c k with ⟨hnil, he⟩ | ⟨hw, -⟩
  · rw [he] at hne
    exact absurd hnil hne
  · exact Or.inr ⟨rfl, Or.inl hw⟩

/-- Somebody takes a unit. -/
theorem taken (h : c.Attended (ready + 1) active) : c.Attended ready active' := by
  intro hne
  rcases h hne with h0 | ⟨h1, -⟩
  · cases h0
  · exact Or.inl (Nat.succ.inj h1)

/-- A thread wakes up, notified or not. -/
theorem notified (h : c.Attended ready active) (k : Nat) : (c.notify_one k).Attended ready active := by
  intro hne
  rcases notify_one_cases c k with ⟨-, he⟩ | ⟨hw, hlen⟩
  · rw [he] at hne ⊢
    exact h hne
  · have hold : c.asleep ≠ [] := by
      intro hnil
      rw [hnil] at hlen
      cases hlen
    rcases h hold with h0 | ⟨h1, -⟩
    · exact Or.inl h0
    · exact Or.inr ⟨h1, Or.inl hw⟩

/-- A woken thread goes on with the mutex. -/
theorem resumed {c' : CondVar τ} {k : Nat} {t : τ} (h : c.Attended ready active)
    (hr : c.resume k = some (t, c')) (ha : active') : c'.Attended ready active' := by
  intro hne
  rw [resume_some hr] at hne
  rcases h hne with h0 | ⟨h1, -⟩
  · exact Or.inl h0
  · exact Or.inr ⟨h1, Or.inr ha⟩

theorem mono (h : c.Attended ready active) (ha : active → active') : c.Attended ready active' := by
  intro hne
  rcases h hne with h0 | ⟨h1, hw | hact⟩
  · exact Or.inl h0
  · exact Or.inr ⟨h1, Or.inl hw⟩
  · exact Or.inr ⟨h1, Or.inr (ha hact)⟩

theorem of_nobody (h : c.asleep = []) : c.Attended ready active := fun hne => absurd h hne

end Attended

end CondVar

end AnboxReboxed.Lib
