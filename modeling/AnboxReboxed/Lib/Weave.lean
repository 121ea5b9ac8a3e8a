import AnboxReboxed.Lib.Machine

/-!
# Runs with a script woven into them

A party follows a script, and whatever else may happen comes in between. The rules below follow the party along such a
run: its invariant speaks of what is left of the script.
-/

namespace AnboxReboxed.Lib

/-- The labels are those of the script, in order, with others in between. -/
inductive Weave {ι : Type} (Other : ι → Prop) : List ι → List ι → Prop where
  | nil : Weave Other [] []
  | own {i : ι} {script is : List ι} (h : Weave Other script is) : Weave Other (i :: script) (i :: is)
  | other {i : ι} {script is : List ι} (hi : Other i) (h : Weave Other script is) : Weave Other script (i :: is)

/-- Nothing comes in between. -/
theorem Weave.refl {ι : Type} {Other : ι → Prop} (script : List ι) : Weave Other script script := by
  induction script with
  | nil => exact .nil
  | cons i script ih => exact .own ih

namespace Machine

variable {σ ι : Type} {m : Machine σ ι} {Other : ι → Prop} {script is : List ι}

/-- When `A` means `C` for each step of the script, it does so for the run, and a run that meets `C` comes to its end.
What the others do is under the condition `U`. -/
theorem allSteps_iff_of_weave {U A C : σ → ι → Prop} {I : List ι → σ → Prop}
    (hown : ∀ i rest s, I (i :: rest) s →
      (A s i ↔ C s i) ∧ (C s i → ∃ s', m.step s i = some s' ∧ I rest s'))
    (hother : ∀ i rest s, Other i → U s i → I rest s →
      A s i ∧ C s i ∧ ∃ s', m.step s i = some s' ∧ I rest s') (hweave : Weave Other script is) :
    ∀ s, I script s → m.AllSteps U s is →
      (m.AllSteps A s is ↔ m.AllSteps C s is) ∧ (m.AllSteps C s is → ∃ s', m.exec s is = some s' ∧ I [] s') := by
  induction hweave with
  | nil => exact fun s hs _ => ⟨Iff.rfl, fun _ => ⟨s, rfl, hs⟩⟩
  | @own i script is hweave ih =>
    intro s hs hU
    obtain ⟨hiff, hnext⟩ := hown i script s hs
    have hrest : C s i → ∃ s', m.step s i = some s' ∧ (m.AllSteps A s' is ↔ m.AllSteps C s' is) ∧
        (m.AllSteps C s' is → ∃ s'', m.exec s' is = some s'' ∧ I [] s'') := by
      intro hC
      obtain ⟨s', hstep, hs'⟩ := hnext hC
      exact ⟨s', hstep, ih s' hs' (hU.2 s' hstep)⟩
    refine ⟨⟨fun hA => ?_, fun hC => ?_⟩, fun hC => ?_⟩
    · obtain ⟨s', hstep, hih, -⟩ := hrest (hiff.mp hA.1)
      exact (allSteps_cons hstep).mpr ⟨hiff.mp hA.1, hih.mp (hA.2 s' hstep)⟩
    · obtain ⟨s', hstep, hih, -⟩ := hrest hC.1
      exact (allSteps_cons hstep).mpr ⟨hiff.mpr hC.1, hih.mpr (hC.2 s' hstep)⟩
    · obtain ⟨s', hstep, -, hend⟩ := hrest hC.1
      rw [exec_step hstep]
      exact hend (hC.2 s' hstep)
  | @other i script is hi hweave ih =>
    intro s hs hU
    obtain ⟨hA, hC, s', hstep, hs'⟩ := hother i script s hi hU.1 hs
    obtain ⟨hiff, hend⟩ := ih s' hs' (hU.2 s' hstep)
    rw [allSteps_cons hstep, allSteps_cons hstep, and_iff_right hA, and_iff_right hC, exec_step hstep]
    exact ⟨hiff, hend⟩

/-- The first step of the script fails, whatever comes before it. -/
theorem not_allSteps_of_weave {U A : σ → ι → Prop} {I : σ → Prop} {i : ι} (hbad : ∀ s, I s → ¬A s i)
    (hother : ∀ j s, Other j → U s j → I s → ∃ s', m.step s j = some s' ∧ I s')
    (hweave : Weave Other (i :: script) is) : ∀ s, I s → m.AllSteps U s is → ¬m.AllSteps A s is := by
  generalize hscript : i :: script = whole at hweave
  induction hweave with
  | nil => cases hscript
  | own _ _ =>
    cases hscript
    exact fun s hs _ hA => hbad s hs hA.1
  | @other j whole is hj hweave ih =>
    intro s hs hU hA
    obtain ⟨s', hstep, hs'⟩ := hother j s hj hU.1 hs
    exact ih hscript s' hs' (hU.2 s' hstep) (hA.2 s' hstep)

end Machine

end AnboxReboxed.Lib
