import AnboxReboxed.Emugl.TextureResize
import Mathlib.Tactic.SplitIfs

/-!
# Proofs: what the resizer draws with

A change of the factor that goes through sets up both targets; one that fails past its first allocation leaves the
horizontal texture with the width of another factor, which the next update at the old factor does not look at.
-/

namespace AnboxReboxed.Emugl

open AnboxReboxed.Lib

/-! ## Factors -/

/-- A factor that `calculateFactor` can give for the width `width`. -/
def IsFactor (width factor : Nat) : Prop := ∃ k, factor = 2 ^ k ∧ 1 ≤ width / factor

theorem isFactor_factorLoop {target : Size} (ht : 0 < target.1) {width : Nat} (i h : Nat) {factor : Nat}
    (hf : factor = 1 ∨ IsFactor width factor) :
    TextureResize.factorLoop target i (width / (factor * 2)) h factor = 1 ∨
      IsFactor width (TextureResize.factorLoop target i (width / (factor * 2)) h factor) := by
  induction i generalizing h factor with
  | zero => exact hf
  | succ i ih =>
    unfold TextureResize.factorLoop
    split_ifs with hle
    · have hpos : 1 ≤ width / (factor * 2) := by omega
      have hnext : IsFactor width (factor * 2) := by
        rcases hf with rfl | ⟨k, rfl, -⟩
        · exact ⟨1, rfl, hpos⟩
        · exact ⟨k + 1, rfl, hpos⟩
      rw [Nat.div_div_eq_div_mul]
      exact ih (h / 2) (.inr hnext)
    · exact hf

theorem isFactor_calculateFactor (width height : Nat) (target : Size) :
    TextureResize.calculateFactor width height target = 1 ∨
      IsFactor width (TextureResize.calculateFactor width height target) := by
  unfold TextureResize.calculateFactor
  split_ifs with ht
  · exact .inl rfl
  · have ht' : 0 < target.1 := by omega
    exact isFactor_factorLoop ht' TextureResize.MAX_FACTOR_POWER (height / 2) (.inl rfl)

theorem isFactor_factor {r : TextureResize} {vport : Size} (h : r.factor vport ≠ 1) :
    IsFactor r.mWidth (r.factor vport) :=
  (isFactor_calculateFactor _ _ _).resolve_left h

/-- Different factors lead to different widths. -/
theorem IsFactor.div_ne {width f f' : Nat} (h : IsFactor width f) (h' : IsFactor width f') (hne : f ≠ f') :
    width / f ≠ width / f' := by
  have hlt : ∀ {a b : Nat}, a < b → 1 ≤ width / 2 ^ b → width / 2 ^ b < width / 2 ^ a := by
    intro a b hab hpos
    obtain ⟨c, rfl⟩ := Nat.exists_eq_add_of_lt hab
    rw [Nat.add_assoc, Nat.pow_add, ← Nat.div_div_eq_div_mul] at hpos ⊢
    have hone : 1 < 2 ^ (c + 1) := Nat.one_lt_two_pow (Nat.succ_ne_zero c)
    refine Nat.div_lt_self ?_ hone
    exact Nat.pos_of_ne_zero fun h0 => by rw [h0, Nat.zero_div] at hpos; omega
  obtain ⟨k, rfl, hk⟩ := h
  obtain ⟨k', rfl, hk'⟩ := h'
  rcases Nat.lt_trichotomy k k' with hlt' | rfl | hlt'
  · exact (hlt hlt' hk').ne'
  · exact absurd rfl hne
  · exact (hlt hlt' hk).ne

namespace Resizer

variable {r : Resizer} {factor : Nat} {vport : Size} {a : UpdateAnswers}

/-! ## A change of the factor -/

theorem setup_self (hf : factor = r.mFactor) : r.setupFramebuffers factor a = (r, a.checkWidth && a.checkHeight) :=
  if_pos hf

/-- A change that gets past its first allocation and fails has set the width of the horizontal texture. -/
theorem setup_unfinished (hf : factor ≠ r.mFactor) (hw : a.allocateWidth = true)
    (hc : ResizeRun.Completes a = false) :
    ∃ r' : Resizer, r.setupFramebuffers factor a = (r', false) ∧ r'.toTextureResize = r.toTextureResize ∧
      r'.horizontal.texture = some (r.mWidth / factor, r.mHeight) := by
  unfold setupFramebuffers
  rw [if_neg hf, if_neg (by simp [hw])]
  split_ifs with h1 h2 h3
  · exact ⟨_, rfl, rfl, rfl⟩
  · exact ⟨_, rfl, rfl, rfl⟩
  · exact ⟨_, rfl, rfl, rfl⟩
  · simp_all [ResizeRun.Completes]

theorem setup_refused (hf : factor ≠ r.mFactor) (hw : a.allocateWidth = false) :
    r.setupFramebuffers factor a = (r, false) := by
  unfold setupFramebuffers
  rw [if_neg hf, hw]
  rfl

theorem setup_completes (hf : factor ≠ r.mFactor) (hw : a.allocateWidth = true)
    (hc : ResizeRun.Completes a = true) :
    r.setupFramebuffers factor a = (((r.allocateWidth factor).allocateHeight factor).attachShaders factor, true) := by
  simp only [ResizeRun.Completes, Bool.and_eq_true] at hc
  obtain ⟨⟨h1, h2⟩, h3⟩ := hc
  simp [setupFramebuffers, hf, hw, h1, h2, h3]

/-- A change that goes through sets up both targets. -/
theorem configured_attachShaders (r : Resizer) (factor : Nat) :
    (((r.allocateWidth factor).allocateHeight factor).attachShaders factor).Configured := ⟨rfl, rfl⟩

/-! ## An update -/

theorem resize_nil_iff : (resize a).1 = [] ↔ a.checkDrawWidth = false := by
  unfold resize
  split_ifs with h1 h2 h3 <;> simp_all

theorem update_one (hf : r.factor vport = 1) : r.update vport a = ⟨r, [], false⟩ := if_pos hf

theorem update_ready {r' : Resizer} (hf : r.factor vport ≠ 1)
    (h : r.setupFramebuffers (r.factor vport) a = (r', true)) :
    r.update vport a = ⟨r', (resize a).1, (resize a).2⟩ := by
  unfold update
  rw [if_neg hf, h]

theorem update_failed {r' : Resizer} (hf : r.factor vport ≠ 1)
    (h : r.setupFramebuffers (r.factor vport) a = (r', false)) : r.update vport a = ⟨r', [], false⟩ := by
  unfold update
  rw [if_neg hf, h]

/-- Without its targets, the resizer is the one of the colour buffer. -/
theorem update_toTextureResize (r : Resizer) (g : Gl) (t : ThreadId) (cb : ColorBufferPtr) (vport : Size)
    (a : UpdateAnswers) :
    (r.toTextureResize.update g t cb vport a.toResizeAnswers).2 = (r.update vport a).resizer.toTextureResize := by
  by_cases hf : r.factor vport = 1
  · rw [update_one hf, TextureResize.update, if_pos hf]
  · unfold TextureResize.update TextureResize.setupFramebuffers update setupFramebuffers UpdateAnswers.toResizeAnswers
    rw [if_neg hf, if_neg hf]
    by_cases hself : r.factor vport = r.mFactor
    · cases a.checkWidth <;> cases a.checkHeight <;> simp [hself]
    · cases a.allocateWidth <;> cases a.checkWidth <;> cases a.allocateHeight <;> cases a.checkHeight <;>
        simp [hself, allocateWidth, allocateHeight, attachShaders]

end Resizer

namespace ResizeRun

variable {s : ResizeRun} {op : ResizeOp}

/-- The targets are set up while no change is unfinished; else the horizontal texture has the width of another
factor. -/
structure Inv (s : ResizeRun) : Prop where
  factor : s.resizer.mFactor = 1 ∨ IsFactor s.resizer.mWidth s.resizer.mFactor
  finished : s.unfinished = false → s.resizer.mFactor = 1 ∨ s.resizer.Configured
  unfinished : s.unfinished = true → ∃ f, IsFactor s.resizer.mWidth f ∧ f ≠ s.resizer.mFactor ∧
    s.resizer.horizontal.texture = some (s.resizer.mWidth / f, s.resizer.mHeight)

theorem inv_create (mFBWidth mFBHeight : Framebuffer) (width height : Nat) :
    Inv { resizer := .create mFBWidth mFBHeight width height } where
  factor := .inl rfl
  finished _ := .inl rfl
  unfinished h := Bool.noConfusion h

theorem Inv.not_configured (h : s.Inv) (hu : s.unfinished = true) (hf : s.resizer.mFactor ≠ 1) :
    ¬s.resizer.Configured := by
  intro hconf
  obtain ⟨f, hfactor, hne, htexture⟩ := h.unfinished hu
  rw [hconf.horizontal] at htexture
  have hwidth := (Prod.mk.inj (Option.some.inj htexture)).1
  exact (h.factor.resolve_left hf).div_ne hfactor hne.symm hwidth

/-- What a step does. -/
inductive Stepped (s : ResizeRun) (op : ResizeOp) : Prop where
  /-- There is nothing to resize. -/
  | idle (hf : s.resizer.factor op.vport = 1) (hpasses : (s.resizer.update op.vport op.answers).passes = [])
      (hstep : s.step op = s)
  /-- The factor is the configured one. -/
  | same (hf : s.resizer.factor op.vport ≠ 1) (hself : s.resizer.factor op.vport = s.resizer.mFactor)
      (hresizer : (s.resizer.update op.vport op.answers).resizer = s.resizer)
      (hpasses : (s.resizer.update op.vport op.answers).passes ≠ [] ↔
        op.answers.checkWidth ∧ op.answers.checkHeight ∧ op.answers.checkDrawWidth)
      (hstep : s.step op = s)
  /-- The first allocation fails. -/
  | refused (hne : s.resizer.factor op.vport ≠ s.resizer.mFactor)
      (hpasses : (s.resizer.update op.vport op.answers).passes = []) (hstep : s.step op = s)
  /-- The change fails later. -/
  | failed (hf : s.resizer.factor op.vport ≠ 1) (hne : s.resizer.factor op.vport ≠ s.resizer.mFactor)
      (hpasses : (s.resizer.update op.vport op.answers).passes = []) (hstep : (s.step op).unfinished = true)
      (hbase : (s.step op).resizer.toTextureResize = s.resizer.toTextureResize)
      (htexture : (s.step op).resizer.horizontal.texture =
        some (s.resizer.mWidth / s.resizer.factor op.vport, s.resizer.mHeight))
  /-- The change goes through. -/
  | changed (hf : s.resizer.factor op.vport ≠ 1) (hne : s.resizer.factor op.vport ≠ s.resizer.mFactor)
      (hstep : (s.step op).unfinished = false) (hconf : (s.step op).resizer.Configured)
      (hwidth : (s.step op).resizer.mWidth = s.resizer.mWidth)
      (hfactor : (s.step op).resizer.mFactor = s.resizer.factor op.vport)

/-- A step that changes neither the resizer nor the history. -/
theorem step_eq_self (hresizer : (s.resizer.update op.vport op.answers).resizer = s.resizer)
    (hkeep : s.resizer.factor op.vport = 1 ∨ s.resizer.factor op.vport = s.resizer.mFactor ∨
      op.answers.allocateWidth = false) : s.step op = s := by
  unfold step
  rw [hresizer, if_pos hkeep]

theorem stepped (s : ResizeRun) (op : ResizeOp) : Stepped s op := by
  by_cases hf : s.resizer.factor op.vport = 1
  · have hupdate := Resizer.update_one (a := op.answers) hf
    exact .idle hf (by rw [hupdate]) (step_eq_self (by rw [hupdate]) (.inl hf))
  by_cases hself : s.resizer.factor op.vport = s.resizer.mFactor
  · have hsetup := Resizer.setup_self (a := op.answers) hself
    cases hready : op.answers.checkWidth && op.answers.checkHeight with
    | false =>
      rw [hready] at hsetup
      have hupdate := Resizer.update_failed hf hsetup
      refine .same hf hself (by rw [hupdate]) ?_ (step_eq_self (by rw [hupdate]) (.inr (.inl hself)))
      rw [hupdate]
      simp only [Bool.and_eq_false_iff] at hready
      refine iff_of_false (fun h => h rfl) fun hdraws => ?_
      simp [hdraws] at hready
    | true =>
      rw [hready] at hsetup
      have hupdate := Resizer.update_ready hf hsetup
      refine .same hf hself (by rw [hupdate]) ?_ (step_eq_self (by rw [hupdate]) (.inr (.inl hself)))
      rw [hupdate, ne_eq, Resizer.resize_nil_iff, Bool.not_eq_false]
      rw [Bool.and_eq_true] at hready
      exact ⟨fun h => ⟨hready.1, hready.2, h⟩, fun h => h.2.2⟩
  cases hw : op.answers.allocateWidth with
  | false =>
    have hupdate := Resizer.update_failed hf (Resizer.setup_refused hself hw)
    exact .refused hself (by rw [hupdate]) (step_eq_self (by rw [hupdate]) (.inr (.inr hw)))
  | true =>
    have hflag : (s.step op).unfinished = !Completes op.answers :=
      if_neg (by simp [hf, hself, hw])
    cases hc : Completes op.answers with
    | false =>
      obtain ⟨r', hsetup, hbase, htexture⟩ := Resizer.setup_unfinished hself hw hc
      have hupdate := Resizer.update_failed hf hsetup
      have hresizer : (s.step op).resizer = r' := by
        show (s.resizer.update op.vport op.answers).resizer = r'
        rw [hupdate]
      refine .failed hf hself (by rw [hupdate]) (by rw [hflag, hc]; rfl) ?_ ?_
      · rw [hresizer, hbase]
      · rw [hresizer, htexture]
    | true =>
      have hupdate := Resizer.update_ready hf (Resizer.setup_completes hself hw hc)
      have hresizer : (s.step op).resizer = _ := congrArg Updated.resizer hupdate
      refine .changed hf hself (by rw [hflag, hc]; rfl) ?_ ?_ ?_
      · rw [hresizer]
        exact Resizer.configured_attachShaders _ _
      · rw [hresizer]
        rfl
      · rw [hresizer]
        rfl

theorem Inv.step (h : s.Inv) (op : ResizeOp) : (s.step op).Inv := by
  cases stepped s op with
  | idle hf hpasses hstep => rwa [hstep]
  | same hf hself hresizer hpasses hstep => rwa [hstep]
  | refused hne hpasses hstep => rwa [hstep]
  | failed hf hne hpasses hstep hbase htexture =>
    refine ⟨?_, fun hfalse => ?_, fun _ => ?_⟩
    · rw [hbase]
      exact h.factor
    · rw [hstep] at hfalse
      exact Bool.noConfusion hfalse
    · rw [hbase]
      exact ⟨_, isFactor_factor hf, hne, htexture⟩
  | changed hf hne hstep hconf hwidth hfactor =>
    refine ⟨.inr ?_, fun _ => .inr hconf, fun htrue => ?_⟩
    · rw [hwidth, hfactor]
      exact isFactor_factor hf
    · rw [hstep] at htrue
      exact Bool.noConfusion htrue

/-- A step draws with both targets set up exactly when it does not draw at the configured factor while a change is
unfinished. -/
theorem Inv.drawsConfigured_iff (h : s.Inv) (op : ResizeOp) : s.DrawsConfigured op ↔ s.NoDrawUnfinished op := by
  unfold DrawsConfigured NoDrawUnfinished
  cases stepped s op with
  | idle hf hpasses hstep => exact iff_of_true (fun hdraw => absurd hpasses hdraw) (fun _ hne => absurd hf hne)
  | refused hne hpasses hstep =>
    exact iff_of_true (fun hdraw => absurd hpasses hdraw) (fun _ _ hself => absurd hself hne)
  | failed hf hne hpasses hstep hbase htexture =>
    exact iff_of_true (fun hdraw => absurd hpasses hdraw) (fun _ _ hself => absurd hself hne)
  | changed hf hne hstep hconf hwidth hfactor => exact iff_of_true (fun _ => hconf) (fun _ _ hself => absurd hself hne)
  | same hf hself hresizer hpasses hstep =>
    have hne : s.resizer.mFactor ≠ 1 := hself ▸ hf
    rw [hpasses, hresizer]
    constructor
    · intro hconf hu _ _ hdraws
      exact h.not_configured hu hne (hconf hdraws)
    · intro hno hdraws
      cases hu : s.unfinished with
      | true => exact absurd hdraws (hno hu hf hself)
      | false => exact (h.finished hu).resolve_left hne

end ResizeRun

/-- In every run, whatever fails in it, the draw calls find both targets set up for the factor exactly as long as
none is made at the configured factor while a change of it is unfinished. -/
theorem Resizer.draws_configured_iff (mFBWidth mFBHeight : Framebuffer) (width height : Nat) (ops : List ResizeOp) :
    (resizeMachine (.create mFBWidth mFBHeight width height)).AllSteps ResizeRun.DrawsConfigured
        { resizer := .create mFBWidth mFBHeight width height } ops ↔
      (resizeMachine (.create mFBWidth mFBHeight width height)).AllSteps ResizeRun.NoDrawUnfinished
        { resizer := .create mFBWidth mFBHeight width height } ops := by
  apply Machine.allSteps_iff_of_relation (R := ResizeRun.Inv)
  · intro s op s' hs _ h
    obtain rfl := Option.some.inj h
    exact hs.step op
  · intro s op hs
    exact hs.drawsConfigured_iff op
  · exact ResizeRun.inv_create mFBWidth mFBHeight width height

/-- The factor is 2, a change to 4 fails at the vertical texture, and the viewport of the factor 2 comes back. -/
theorem Resizer.draws_torn :
    ¬(resizeMachine (.create ⟨1, none⟩ ⟨2, none⟩ 720 1600)).AllSteps ResizeRun.DrawsConfigured
      { resizer := .create ⟨1, none⟩ ⟨2, none⟩ 720 1600 }
      [{ vport := (320, 711) }, { vport := (180, 400), answers := { allocateHeight := false } },
        { vport := (320, 711) }] := by
  decide

end AnboxReboxed.Emugl
