import AnboxReboxed.Emugl.World
import AnboxReboxed.Emugl.Proofs.RetainFrameProofs

/-!
# Proofs: freshness of generated handles

`genHandle` compares its candidates with the contexts and the windows, not with the colour buffers.
A handle it returns is therefore fresh exactly when the first free slot after the counter holds no
colour buffer. Once the counter has wrapped, a colour buffer that is still alive can sit there.
-/

namespace AnboxReboxed.Emugl

open AnboxReboxed.Lib OrdMap Renderer

/-- `h` may name a new object: it is not zero and no table has it. -/
def Renderer.Fresh (r : Renderer) (h : HandleType) : Prop :=
  h ≠ 0 ∧ h ∉ r.m_contexts ∧ h ∉ r.m_windows ∧ h ∉ r.m_colorbuffers

/-- The number `j` places after the counter. -/
def Renderer.slot (r : Renderer) (j : Nat) : Nat := (r.s_nextHandle + j) % 2 ^ 32

/-- Every colour buffer ahead of the counter is preceded by a free slot, unless `genHandle` skips its
handle anyway. -/
def Renderer.BuffersBehind (r : Renderer) : Prop :=
  ∀ j, 1 ≤ j → j ≤ 2 ^ 32 → r.slot j ∈ r.m_colorbuffers →
    r.Taken (r.slot j) ∨ ∃ i, 1 ≤ i ∧ i < j ∧ ¬ r.Taken (r.slot i)

/-- No number of `S` is the first free slot after the counter. -/
def Renderer.Behind (S : HandleType → Prop) (r : Renderer) : Prop :=
  ∀ j, 1 ≤ j → j ≤ 2 ^ 32 → S (r.slot j) →
    r.Taken (r.slot j) ∨ ∃ i, 1 ≤ i ∧ i < j ∧ ¬ r.Taken (r.slot i)

/-- What is behind the counter is not generated. -/
theorem Renderer.Behind.not_generated {S : HandleType → Prop} {r r' : Renderer} {h : HandleType}
    (hb : r.Behind S) (hg : r.genHandle = some (h, r')) : ¬ S h := by
  obtain ⟨-, k, hk1, hk2, hid, hfree, hskip⟩ := genHandle_spec hg
  have hslot : r.slot k = h := hid.symm
  intro hS
  rcases hb k hk1 hk2 (by rw [hslot]; exact hS) with ht | ⟨i, hi1, hi2, hn⟩
  · rw [hslot] at ht
    exact hfree ht
  · exact hn (hskip i hi1 hi2)

/-- `Generates w op r h`: the step `op` from `w` stores a new object under `h`, which `genHandle`
returned when the tables were `r`. For `retain_frame` these are the tables after the renderables
`pre`, before the snapshot of `rd`. -/
inductive Generates (w : World) : Op → Renderer → HandleType → Prop where
  | create {op : Op} {w' : World} {h : HandleType} {r' : Renderer}
      (step : w.step op = some (w', .handle h)) (gen : w.renderer.genHandle = some (h, r')) :
      Generates w op w.renderer h
  | snapshot {gl : HandleType → Bool} {pre post : List Renderable} {rd : Renderable}
      {st : RetainState} {source : ColorBufferRef} {bytes : Nat} {cb : ColorBufferPtr}
      {h : HandleType} {r' : Renderer}
      (loop : retainLoop gl { renderer := w.renderer, nextPtr := w.nextPtr } pre = .retained st)
      (check : retainCheck st rd.buffer = .admitted source bytes)
      (object : createColorBufferObject source.width source.height source.format
        (if gl rd.buffer then some st.nextPtr else none) = some cb)
      (gen : st.renderer.genHandle = some (h, r')) :
      Generates w (.retain_frame (pre ++ rd :: post) gl) st.renderer h

theorem Generates.genHandle {w : World} {op : Op} {r : Renderer} {h : HandleType}
    (hg : Generates w op r h) : ∃ r', r.genHandle = some (h, r') := by
  cases hg with
  | create _ gen => exact ⟨_, gen⟩
  | snapshot _ _ _ gen => exact ⟨_, gen⟩

/-- The exact condition under which one call of `genHandle` returns a fresh handle. -/
theorem genHandle_fresh_iff {r r' : Renderer} {h : HandleType} (hg : r.genHandle = some (h, r')) :
    r.Fresh h ↔ r.BuffersBehind := by
  obtain ⟨-, k, hk1, hk2, hid, hfree, hskip⟩ := genHandle_spec hg
  have hslot : r.slot k = h := hid.symm
  constructor
  · intro hfresh j hj1 hj2 hm
    rcases Nat.lt_trichotomy j k with hlt | rfl | hgt
    · exact Or.inl (hskip j hj1 hlt)
    · rw [hslot] at hm
      exact absurd hm hfresh.2.2.2
    · exact Or.inr ⟨k, hk1, hgt, by rw [hslot]; exact hfree⟩
  · intro hb
    exact ⟨fun h0 => hfree (Or.inl h0), fun hc => hfree (Or.inr (Or.inl hc)),
      fun hw => hfree (Or.inr (Or.inr hw)), Behind.not_generated hb hg⟩

/-- Until the counter wraps, no colour buffer is ahead of it. -/
theorem Renderer.Unwrapped.buffersBehind {r : Renderer} (hu : Unwrapped r)
    (hlt : r.handlesGenerated + 1 < 2 ^ 32) : r.BuffersBehind := by
  intro j hj1 hj2 hm
  have hs : r.slot 1 = r.handlesGenerated + 1 := by
    unfold slot
    rw [hu.next]
    exact Nat.mod_eq_of_lt hlt
  rcases Nat.eq_or_lt_of_le hj1 with rfl | hj
  · have hle := hu.buffers _ hm
    omega
  · refine Or.inr ⟨1, le_rfl, hj, ?_⟩
    rw [hs]
    rintro (h0 | hc | hw)
    · omega
    · have := hu.contexts _ hc
      omega
    · have := hu.windows _ hw
      omega

/-- **Freshness of handles.** In every run of the renderer, every handle generated for a new object
is fresh if and only if, at every call of `genHandle`, the colour buffers ahead of the counter are
preceded by a free slot. -/
theorem handles_fresh_iff (configs : Nat) (ops : List Op) :
    (renderMachine configs).AllSteps (fun w op => ∀ r h, Generates w op r h → r.Fresh h)
        (renderMachine configs).init ops ↔
      (renderMachine configs).AllSteps (fun w op => ∀ r h, Generates w op r h → r.BuffersBehind)
        (renderMachine configs).init ops := by
  refine Machine.allSteps_congr (fun w op => ?_) ops _
  refine forall_congr' fun r => forall_congr' fun h => imp_congr_right fun hg => ?_
  obtain ⟨r', hgen⟩ := hg.genHandle
  exact genHandle_fresh_iff hgen

/-! ## A colour buffer overtaken by the counter -/

/-- A renderer with one colour buffer, under handle 1, and one thread that created the contexts of
`set`, after `n` handles. -/
def busy (n : Nat) (contexts : OrdMap HandleType RenderContextPtr) (set : OrdSet HandleType) : World where
  renderer :=
    { s_nextHandle := n
      handlesGenerated := n
      m_contexts := contexts
      m_colorbuffers := (∅ : OrdMap HandleType ColorBufferRef).insert 1
        { cb := 1, refcount := 1, allocation_bytes := 8, width := 1, height := 1, format := GL_RGBA }
      m_colorBufferBytes := 8 }
  threads := (∅ : OrdMap ThreadId RenderThreadInfo).insert 1 { m_contextSet := set }
  nextPtr := n + 1

/-- The same renderer when the thread has no context. -/
def overtaking (n : Nat) : World := busy n ∅ ∅

/-- The thread creates a context and destroys it again, once for each number up to `n`. -/
def spin : Nat → List Op
  | 0 => []
  | n + 1 => spin n ++ [.createRenderContext 1 0 0 true, .DestroyRenderContext 1 (n + 2)]

theorem overtaking_gen {n : Nat} (hn : n + 1 < 2 ^ 32) :
    (overtaking n).renderer.genHandle =
      some (n + 1, { (overtaking n).renderer with s_nextHandle := n + 1, handlesGenerated := n + 1 }) := by
  have hmod : (n + 1) % 2 ^ 32 = n + 1 := Nat.mod_eq_of_lt hn
  have hfree : ¬ (overtaking n).renderer.Taken ((n + 1) % 2 ^ 32) := by
    rw [hmod]
    rintro (h0 | hc | hw)
    · omega
    · exact not_mem_empty _ hc
    · exact not_mem_empty _ hw
  have := genHandle_of_free hfree
  rwa [show (overtaking n).renderer.s_nextHandle = n from rfl, hmod] at this

theorem overtaking_create {n : Nat} (hn : n + 1 < 2 ^ 32) :
    (renderMachine 1).step (overtaking n) (.createRenderContext 1 0 0 true) =
      some (busy (n + 1) ((∅ : OrdMap HandleType RenderContextPtr).insert (n + 1) (n + 1))
        ((∅ : OrdSet HandleType).insert (n + 1) ())) := by
  show ((((overtaking n).renderer.createRenderContext {} 0 0 (some (n + 1))).map _).map _) = _
  unfold createRenderContext
  rw [overtaking_gen hn]
  rfl

theorem busy_destroy (n : Nat) (contexts : OrdMap HandleType RenderContextPtr) (set : OrdSet HandleType)
    (h : HandleType) : (renderMachine 1).step (busy n contexts set) (.DestroyRenderContext 1 h) =
      some (busy n (contexts.erase h) (set.erase h)) := rfl

/-- One round moves the counter on by one and leaves everything else as it was. -/
theorem spin_round {n : Nat} (hn : n + 1 < 2 ^ 32) :
    (renderMachine 1).exec (overtaking n) [.createRenderContext 1 0 0 true, .DestroyRenderContext 1 (n + 1)] =
      some (overtaking (n + 1)) := by
  simp only [Machine.exec, overtaking_create hn, busy_destroy, Option.bind_some, erase_insert_self,
    erase_of_not_mem (not_mem_empty _)]
  rfl

theorem spin_exec {n : Nat} (hn : n + 1 < 2 ^ 32) :
    (renderMachine 1).exec (overtaking 1) (spin n) = some (overtaking (n + 1)) := by
  induction n with
  | zero => rfl
  | succ n ih =>
    rw [spin, Machine.exec_append, ih (by omega)]
    exact spin_round hn

theorem overtaking_reachable {n : Nat} (hn : n + 1 < 2 ^ 32) :
    (renderMachine 1).Reachable (overtaking (n + 1)) := by
  refine ⟨[.startThread 1, .createColorBuffer 1 1 GL_RGBA true] ++ spin n, ?_⟩
  rw [Machine.exec_append,
    show (renderMachine 1).exec (renderMachine 1).init
      [.startThread 1, .createColorBuffer 1 1 GL_RGBA true] = some (overtaking 1) from rfl]
  exact spin_exec hn

/-- After `2 ^ 32 - 1` handles the counter comes around to the colour buffer: the next one goes under
the handle of the live one. -/
theorem handle_reused : ¬ ∀ (configs : Nat) (w : World) (op : Op) (r : Renderer) (h : HandleType),
    (renderMachine configs).Reachable w → Generates w op r h → r.Fresh h := by
  intro hall
  have hreach : (renderMachine 1).Reachable (overtaking 4294967295) :=
    overtaking_reachable (n := 4294967294) (by norm_num)
  have hgen : (overtaking 4294967295).renderer.genHandle = some (1, _) := rfl
  have hstep : (overtaking 4294967295).step (.createColorBuffer 2 2 GL_RGBA true) =
    some (_, .handle 1) := rfl
  have hfresh := hall 1 _ _ _ _ hreach (.create hstep hgen)
  exact hfresh.2.2.2 (by decide)

end AnboxReboxed.Emugl
