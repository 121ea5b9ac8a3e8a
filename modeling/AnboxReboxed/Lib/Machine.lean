import Mathlib.Logic.Basic
import Mathlib.Tactic.Linarith

/-!
# Machines and their runs

A machine is a step function on states, driven by labels that carry every choice the environment
makes; a step that blocks or does not return has no result. The rules below turn what one step
preserves into what every run preserves.
-/

namespace AnboxReboxed.Lib

/-- A deterministic labelled transition system: all choices are in the labels `ι`. -/
structure Machine (σ ι : Type) where
  /-- The initial state. -/
  init : σ
  /-- One step; `none` when the label is not enabled. -/
  step : σ → ι → Option σ

/-- A step with a guard that is enabled. -/
theorem of_guard_eq_some {σ : Type} {c : Prop} [Decidable c] {a b : σ} (h : (if c then some a else none) = some b) :
    c ∧ a = b := by
  obtain ⟨hc, heq⟩ := Option.ite_none_right_eq_some.mp h
  exact ⟨hc, Option.some.inj heq⟩

namespace Machine

variable {σ ι : Type} (m : Machine σ ι)

/-- The state after the labels `is`, when all of them are enabled in turn. -/
def exec : σ → List ι → Option σ
  | s, [] => some s
  | s, i :: is => (m.step s i).bind fun s' => exec s' is

/-- Every step of the run over `is` meets `C`, a condition on the state before the step. -/
def AllSteps (C : σ → ι → Prop) : σ → List ι → Prop
  | _, [] => True
  | s, i :: is => C s i ∧ ∀ s', m.step s i = some s' → AllSteps C s' is

/-- Every state of the run over `is`, the first and the last included, satisfies `P`. -/
def AllStates (P : σ → Prop) : σ → List ι → Prop
  | s, [] => P s
  | s, i :: is => P s ∧ ∀ s', m.step s i = some s' → AllStates P s' is

/-- `s` is the last state of a run from the initial state. -/
def Reachable (s : σ) : Prop := ∃ is, m.exec m.init is = some s

variable {m}

theorem exec_cons {s s' : σ} {i : ι} {is : List ι} (h : m.exec s (i :: is) = some s') :
    ∃ s1, m.step s i = some s1 ∧ m.exec s1 is = some s' := Option.bind_eq_some_iff.mp h

theorem exec_step {s s' : σ} {i : ι} {is : List ι} (h : m.step s i = some s') :
    m.exec s (i :: is) = m.exec s' is := by
  show (m.step s i).bind _ = _
  rw [h, Option.bind_some]

theorem exec_append {s : σ} {is js : List ι} :
    m.exec s (is ++ js) = (m.exec s is).bind fun s' => m.exec s' js := by
  induction is generalizing s with
  | nil => rfl
  | cons i is ih =>
    show (m.step s i).bind _ = ((m.step s i).bind _).bind _
    cases m.step s i with
    | none => rfl
    | some s1 => exact ih

theorem allSteps_cons {C : σ → ι → Prop} {s s' : σ} {i : ι} {is : List ι} (h : m.step s i = some s') :
    m.AllSteps C s (i :: is) ↔ C s i ∧ m.AllSteps C s' is :=
  and_congr_right fun _ => ⟨fun ha => ha s' h, fun ha _ h' => Option.some.inj (h.symm.trans h') ▸ ha⟩

/-- A condition that can be checked for each step can be checked for a run. -/
instance decidableAllSteps {C : σ → ι → Prop} [∀ s i, Decidable (C s i)] : ∀ s is, Decidable (m.AllSteps C s is)
  | _, [] => isTrue trivial
  | s, i :: is =>
    match h : m.step s i with
    | none =>
      decidable_of_iff (C s i) ⟨fun hC => ⟨hC, fun _ h' => (Option.some_ne_none _ (h'.symm.trans h)).elim⟩, And.left⟩
    | some s' =>
      have := decidableAllSteps (C := C) s' is
      decidable_of_iff (C s i ∧ m.AllSteps C s' is) (allSteps_cons h).symm

theorem allStates_cons {P : σ → Prop} {s s' : σ} {i : ι} {is : List ι} (h : m.step s i = some s') :
    m.AllStates P s (i :: is) ↔ P s ∧ m.AllStates P s' is :=
  and_congr_right fun _ => ⟨fun ha => ha s' h, fun ha _ h' => Option.some.inj (h.symm.trans h') ▸ ha⟩

theorem allSteps_append {C : σ → ι → Prop} {is js : List ι} :
    ∀ {s s' : σ}, m.exec s is = some s' → (m.AllSteps C s (is ++ js) ↔ m.AllSteps C s is ∧ m.AllSteps C s' js) := by
  induction is with
  | nil =>
    intro s s' h
    cases Option.some.inj h
    exact ⟨fun h => ⟨trivial, h⟩, fun h => h.2⟩
  | cons i is ih =>
    intro s s' h
    obtain ⟨s1, h1, h2⟩ := exec_cons h
    rw [List.cons_append, allSteps_cons h1, allSteps_cons h1, ih h2, and_assoc]

/-- Two conditions that agree on every step agree on every run. -/
theorem allSteps_congr {C D : σ → ι → Prop} (h : ∀ s i, C s i ↔ D s i) (is : List ι) :
    ∀ s, m.AllSteps C s is ↔ m.AllSteps D s is := by
  induction is with
  | nil => exact fun s => Iff.rfl
  | cons i is ih =>
    intro s
    exact and_congr (h s i) (forall_congr' fun s' => imp_congr_right fun _ => ih s')

/-- The same for two conditions that agree on the steps from the states in `R`, which the steps that meet them
keep. -/
theorem allSteps_iff_of_relation {C D : σ → ι → Prop} {R : σ → Prop}
    (hkeep : ∀ s i s', R s → C s i → m.step s i = some s' → R s') (h : ∀ s i, R s → (D s i ↔ C s i)) (is : List ι) :
    ∀ s, R s → (m.AllSteps D s is ↔ m.AllSteps C s is) := by
  induction is with
  | nil => exact fun s _ => Iff.rfl
  | cons i is ih =>
    intro s hs
    constructor
    · rintro ⟨hD, hrest⟩
      have hC := (h s i hs).mp hD
      exact ⟨hC, fun s' h' => (ih s' (hkeep s i s' hs hC h')).mp (hrest s' h')⟩
    · rintro ⟨hC, hrest⟩
      exact ⟨(h s i hs).mpr hC, fun s' h' => (ih s' (hkeep s i s' hs hC h')).mpr (hrest s' h')⟩

/-- What follows from the condition `C` for the steps from the states in `R`, which these steps keep. -/
theorem allSteps_of_relation {C D : σ → ι → Prop} {R : σ → Prop}
    (hkeep : ∀ s i s', R s → C s i → m.step s i = some s' → R s') (h : ∀ s i, R s → C s i → D s i) (is : List ι) :
    ∀ s, R s → m.AllSteps C s is → m.AllSteps D s is := by
  induction is with
  | nil => exact fun _ _ _ => trivial
  | cons i is ih =>
    rintro s hs ⟨hC, hrest⟩
    exact ⟨h s i hs hC, fun s' h' => ih s' (hkeep s i s' hs hC h') (hrest s' h')⟩

/-- What every step preserves under the condition `C` holds at the end of every run whose steps all
meet `C`. -/
theorem exec_invariant {C : σ → ι → Prop} {P : σ → Prop}
    (hstep : ∀ s i s', P s → C s i → m.step s i = some s' → P s') {is : List ι} :
    ∀ {s s' : σ}, P s → m.AllSteps C s is → m.exec s is = some s' → P s' := by
  induction is with
  | nil =>
    intro s s' hs _ h
    exact Option.some.inj h ▸ hs
  | cons i is ih =>
    intro s s' hs hC h
    obtain ⟨s1, h1, h2⟩ := exec_cons h
    exact ih (hstep s i s1 hs hC.1 h1) (hC.2 s1 h1) h2

/-- An invariant that every step preserves under the condition `C` gives a property of every state of
a run whose steps all meet `C`. -/
theorem allStates_of_allSteps {C : σ → ι → Prop} {P Q : σ → Prop}
    (hstep : ∀ s i s', P s → C s i → m.step s i = some s' → P s') (hPQ : ∀ s, P s → Q s) {is : List ι} :
    ∀ {s : σ}, P s → m.AllSteps C s is → m.AllStates Q s is := by
  induction is with
  | nil => exact fun hs _ => hPQ _ hs
  | cons i is ih => exact fun hs hC => ⟨hPQ _ hs, fun s' h => ih (hstep _ i s' hs hC.1 h) (hC.2 s' h)⟩

theorem allSteps_true (is : List ι) : ∀ s : σ, m.AllSteps (fun _ _ => True) s is := by
  induction is with
  | nil => exact fun _ => trivial
  | cons i is ih => exact fun _ => ⟨trivial, fun s' _ => ih s'⟩

/-- A condition that the labels meet in every state. -/
theorem allSteps_of_forall_mem {C : σ → ι → Prop} {is : List ι} (h : ∀ i ∈ is, ∀ s, C s i) :
    ∀ s : σ, m.AllSteps C s is := by
  induction is with
  | nil => exact fun _ => trivial
  | cons i is ih =>
    exact fun s => ⟨h i List.mem_cons_self s, fun s' _ => ih (fun j hj => h j (List.mem_cons_of_mem _ hj)) s'⟩

/-- What every step preserves holds in every state of a run. -/
theorem allStates_of_invariant {P Q : σ → Prop} (hstep : ∀ s i s', P s → m.step s i = some s' → P s')
    (hPQ : ∀ s, P s → Q s) {is : List ι} {s : σ} (hs : P s) : m.AllStates Q s is :=
  allStates_of_allSteps (C := fun _ _ => True) (fun s i s' hs _ => hstep s i s' hs) hPQ hs (allSteps_true is s)

theorem AllStates.last {P : σ → Prop} {is : List ι} :
    ∀ {s s' : σ}, m.AllStates P s is → m.exec s is = some s' → P s' := by
  induction is with
  | nil => exact fun h hexec => Option.some.inj hexec ▸ h
  | cons i is ih =>
    intro s s' h hexec
    obtain ⟨s1, h1, h2⟩ := exec_cons hexec
    exact ih (h.2 s1 h1) h2

/-- In a run inside `P` every step leads from `P` to `P`. -/
theorem allSteps_of_allStates {P : σ → Prop} {is : List ι} :
    ∀ {s : σ}, m.AllStates P s is → m.AllSteps (fun s i => P s ∧ ∀ s', m.step s i = some s' → P s') s is := by
  induction is with
  | nil => exact fun _ => trivial
  | cons i is ih =>
    intro s h
    refine ⟨⟨h.1, fun s' hs' => ?_⟩, fun s' hs' => ih (h.2 s' hs')⟩
    cases is with
    | nil => exact h.2 s' hs'
    | cons j js => exact (h.2 s' hs').1

theorem allSteps_and {C D : σ → ι → Prop} {is : List ι} :
    ∀ {s : σ}, m.AllSteps C s is → m.AllSteps D s is → m.AllSteps (fun s i => C s i ∧ D s i) s is := by
  induction is with
  | nil => exact fun _ _ => trivial
  | cons i is ih => exact fun hC hD => ⟨⟨hC.1, hD.1⟩, fun s' h => ih (hC.2 s' h) (hD.2 s' h)⟩

/-- What every step preserves holds in every reachable state. -/
theorem Reachable.invariant {P : σ → Prop} (hinit : P m.init)
    (hstep : ∀ s i s', P s → m.step s i = some s' → P s') {s : σ} (h : m.Reachable s) : P s := by
  obtain ⟨is, his⟩ := h
  exact exec_invariant (C := fun _ _ => True) (fun s i s' hs _ => hstep s i s' hs) hinit
    (allSteps_true is _) his

/-- A counter that every step keeps or raises, and that stays as it is only in steps that meet `C`: when
it is the same after a run, all steps of the run meet `C`. -/
theorem allSteps_of_counter {C : σ → ι → Prop} {f : σ → Nat}
    (hstep : ∀ s i s', m.step s i = some s' → f s ≤ f s' ∧ (f s' = f s → C s i)) {is : List ι} :
    ∀ {s s' : σ}, m.exec s is = some s' → f s ≤ f s' ∧ (f s' = f s → m.AllSteps C s is) := by
  induction is with
  | nil =>
    intro s s' h
    cases Option.some.inj h
    exact ⟨Nat.le_refl _, fun _ => trivial⟩
  | cons i is ih =>
    intro s s' h
    obtain ⟨s1, h1, h2⟩ := exec_cons h
    obtain ⟨hle, hC⟩ := hstep s i s1 h1
    obtain ⟨hle', hC'⟩ := ih h2
    refine ⟨Nat.le_trans hle hle', fun heq => ?_⟩
    rw [allSteps_cons h1]
    exact ⟨hC (by omega), hC' (by omega)⟩

theorem Reachable.init : m.Reachable m.init := ⟨[], rfl⟩

theorem Reachable.append {s s' : σ} {is : List ι} (h : m.Reachable s) (hs : m.exec s is = some s') :
    m.Reachable s' := by
  obtain ⟨js, hjs⟩ := h
  refine ⟨js ++ is, ?_⟩
  rw [exec_append, hjs]
  exact hs

/-- The condition `C` is the exact one for `P`: from a state in `R`, which is inside `P`, a step that meets `C`
ends in `R`, and a step that ends in `P` meets `C`. -/
theorem allStates_iff_allSteps_of_relation {C : σ → ι → Prop} {R P : σ → Prop} (hR : ∀ s, R s → P s)
    (hkeep : ∀ s i s', R s → C s i → m.step s i = some s' → R s')
    (hexact : ∀ s i s', R s → m.step s i = some s' → P s' → C s i) {is : List ι} :
    ∀ {s s' : σ}, R s → m.exec s is = some s' → (m.AllStates P s is ↔ m.AllSteps C s is) := by
  induction is with
  | nil => exact fun hs _ => ⟨fun _ => trivial, fun _ => hR _ hs⟩
  | cons i is ih =>
    intro s s' hs h
    obtain ⟨s1, h1, h2⟩ := exec_cons h
    rw [allSteps_cons h1]
    rw [allStates_cons h1, and_iff_right (hR s hs)]
    constructor
    · intro ha
      have hP1 : P s1 := by
        cases is with
        | nil => exact ha
        | cons j js => exact ha.1
      have hC := hexact s i s1 hs h1 hP1
      exact ⟨hC, (ih (hkeep s i s1 hs hC h1) h2).mp ha⟩
    · rintro ⟨hC, ha⟩
      exact (ih (hkeep s i s1 hs hC h1) h2).mpr ha

/-- The same for runs that may stop at a step that is not enabled, for which `C` says nothing. -/
theorem allStates_iff_allSteps_of_enabled {C : σ → ι → Prop} {R P : σ → Prop} (hR : ∀ s, R s → P s)
    (hnone : ∀ s i, m.step s i = none → C s i) (hkeep : ∀ s i s', R s → C s i → m.step s i = some s' → R s')
    (hexact : ∀ s i s', R s → m.step s i = some s' → P s' → C s i) (is : List ι) :
    ∀ s, R s → (m.AllStates P s is ↔ m.AllSteps C s is) := by
  induction is with
  | nil => exact fun s hs => ⟨fun _ => trivial, fun _ => hR s hs⟩
  | cons i is ih =>
    intro s hs
    cases h1 : m.step s i with
    | none =>
      have hstop : ∀ s', m.step s i ≠ some s' := fun s' h => by cases h1.symm.trans h
      exact ⟨fun _ => ⟨hnone s i h1, fun s' h => absurd h (hstop s')⟩,
        fun _ => ⟨hR s hs, fun s' h => absurd h (hstop s')⟩⟩
    | some s1 =>
      rw [allSteps_cons h1, allStates_cons h1, and_iff_right (hR s hs)]
      constructor
      · intro ha
        have hP1 : P s1 := by
          cases is with
          | nil => exact ha
          | cons j js => exact ha.1
        have hC := hexact s i s1 hs h1 hP1
        exact ⟨hC, (ih s1 (hkeep s i s1 hs hC h1)).mp ha⟩
      · rintro ⟨hC, ha⟩
        exact (ih s1 (hkeep s i s1 hs hC h1)).mpr ha

/-- A run stays inside `P` exactly when each of its steps meets `C`, when from a state in `P` a step meets
`C` if and only if it ends in `P`. What every step preserves may be used. -/
theorem allStates_iff_allSteps_of_invariant {C : σ → ι → Prop} {I P : σ → Prop}
    (hinv : ∀ s i s', I s → m.step s i = some s' → I s')
    (hstep : ∀ s i s', I s → P s → m.step s i = some s' → (C s i ↔ P s')) {is : List ι} {s s' : σ} (hI : I s)
    (hs : P s) (h : m.exec s is = some s') : m.AllStates P s is ↔ m.AllSteps C s is :=
  allStates_iff_allSteps_of_relation (R := fun s => I s ∧ P s) (fun _ hR => hR.2)
    (fun s i s' hR hC h => ⟨hinv s i s' hR.1 h, (hstep s i s' hR.1 hR.2 h).mp hC⟩)
    (fun s i s' hR h => (hstep s i s' hR.1 hR.2 h).mpr) ⟨hI, hs⟩ h

theorem allStates_iff_allSteps {C : σ → ι → Prop} {P : σ → Prop}
    (hstep : ∀ s i s', P s → m.step s i = some s' → (C s i ↔ P s')) {is : List ι} {s s' : σ} (hs : P s)
    (h : m.exec s is = some s') : m.AllStates P s is ↔ m.AllSteps C s is :=
  allStates_iff_allSteps_of_relation (R := P) (fun _ hs => hs)
    (fun s i s' hs hC h => (hstep s i s' hs h).mp hC) (fun s i s' hs h => (hstep s i s' hs h).mpr) hs h

end Machine

/-!
## Histories

A history is the list of what has happened, oldest first. A rule says what may happen after what; a
history is justified when each of its events may happen after those before it.
-/

section

variable {α : Type} {W : List α → α → Prop} {h : List α} {e : α}

/-- Every event is allowed by what came before it. -/
def Justified (W : List α → α → Prop) (h : List α) : Prop :=
  ∀ pre e post, h = pre ++ e :: post → W pre e

theorem justified_nil : Justified W [] := by
  intro pre e post h
  simp at h

theorem Justified.snoc (hj : Justified W h) (hw : W h e) : Justified W (h ++ [e]) := by
  intro pre x post heq
  rcases List.eq_nil_or_concat post with rfl | ⟨post', y, rfl⟩
  · obtain ⟨rfl, hx⟩ := List.append_inj' heq rfl
    cases hx
    exact hw
  · rw [List.concat_eq_append, ← List.cons_append, ← List.append_assoc] at heq
    obtain ⟨hh, -⟩ := List.append_inj' heq rfl
    exact hj pre x post' hh

theorem Justified.of_snoc (hj : Justified W (h ++ [e])) : Justified W h ∧ W h e := by
  constructor
  · intro pre x post heq
    exact hj pre x (post ++ [e]) (by simp [heq])
  · exact hj h e [] rfl

end

end AnboxReboxed.Lib
