import AnboxReboxed.Emugl.FrameLayers
import Mathlib.Tactic.NormNum

/-!
# Proofs: the layers of a frame

The packets of a connection arrive in order, so what the host makes of them depends on the calls alone. A call that
fails leaves its first layers to the next frame.
-/

namespace AnboxReboxed.Emugl

open AnboxReboxed.Lib Function HwcLayers

variable {c c' : RcConnection} {layer : HwcLayer} {hwLayers : List HwcLayer} {calls later : List (List HwcLayer)}
  {pending : List FrameLayer}

/-! ## What a call sends -/

/-- The packets of a call. -/
def packets : List HwcLayer → List RcPacket
  | [] => [.rcPostAllLayersDone]
  | layer :: hwLayers =>
    if layer.skip || layer.cursor then packets hwLayers
    else match layer.hostHandle with
      | none => []
      | some hostHandle => .rcPostLayer (layer.posted hostHandle) :: packets hwLayers

/-- What a call does to a connection: it sends its packets, and the host has nothing to do with it. -/
structure Sends (ps : List RcPacket) (c c' : RcConnection) : Prop where
  sent : c'.pipe ++ c'.encoded = c.pipe ++ c.encoded ++ ps
  frame_layers : c'.frame_layers = c.frame_layers
  submitted : c'.submitted = c.submitted
  calls : c'.calls = c.calls

theorem hwc_set_loop_sends (hwLayers : List HwcLayer) : ∀ c : RcConnection,
    Sends (packets hwLayers) c (c.hwc_set_loop hwLayers).1 := by
  induction hwLayers with
  | nil => exact fun c => ⟨(List.append_assoc ..).symm, rfl, rfl, rfl⟩
  | cons layer hwLayers ih =>
    intro c
    rw [packets, RcConnection.hwc_set_loop]
    split_ifs
    · exact ih c
    · cases layer.hostHandle with
      | none => exact ⟨(List.append_nil _).symm, rfl, rfl, rfl⟩
      | some hostHandle =>
        obtain ⟨hsent, hlayers, hsubmitted, hcalls⟩ :=
          ih (c.encode (.rcPostLayer (layer.posted hostHandle))).flush
        refine ⟨hsent.trans ?_, hlayers, hsubmitted, hcalls⟩
        show c.pipe ++ (c.encoded ++ [_]) ++ [] ++ packets hwLayers = _
        simp only [List.append_assoc, List.singleton_append]

/-! ## What the host makes of it -/

/-- The layers that are left over, and the frames that are handed over. -/
def gather : List FrameLayer → List RcPacket → List FrameLayer × List (List FrameLayer)
  | pending, [] => (pending, [])
  | pending, .rcPostLayer layer :: ps => gather (pending ++ [layer]) ps
  | pending, .rcPostAllLayersDone :: ps => ((gather [] ps).1, pending :: (gather [] ps).2)

theorem gather_append (ps qs : List RcPacket) : ∀ pending, gather pending (ps ++ qs) =
    ((gather (gather pending ps).1 qs).1, (gather pending ps).2 ++ (gather (gather pending ps).1 qs).2) := by
  induction ps with
  | nil => exact fun _ => rfl
  | cons p ps ih =>
    intro pending
    cases p with
    | rcPostLayer layer => exact ih (pending ++ [layer])
    | rcPostAllLayersDone =>
      rw [List.cons_append, gather, gather, ih []]
      rfl

/-- The layers of a call as they are posted. -/
def shown (hwLayers : List HwcLayer) : List FrameLayer :=
  (hwLayers.filter HwcLayer.visible).map fun layer => layer.posted (layer.hostHandle.getD 0)

theorem completes_cons : Completes (layer :: hwLayers) ↔
    (layer.visible = true → layer.hostHandle ≠ none) ∧ Completes hwLayers := List.forall_mem_cons

/-- A call that comes to its end hands over what is there with its own layers. -/
theorem gather_of_completes (h : Completes hwLayers) : ∀ pending,
    gather pending (packets hwLayers) = ([], [pending ++ shown hwLayers]) := by
  induction hwLayers with
  | nil =>
    intro pending
    rw [shown, List.filter_nil, List.map_nil, List.append_nil]
    rfl
  | cons layer hwLayers ih =>
    intro pending
    obtain ⟨hlayer, hrest⟩ := completes_cons.mp h
    have ih := ih hrest
    rw [packets]
    by_cases hskip : (layer.skip || layer.cursor) = true
    · have hhidden : ¬layer.visible = true := by simp [HwcLayer.visible, hskip]
      rw [if_pos hskip, ih, shown, shown, List.filter_cons_of_neg hhidden]
    · have hvisible : layer.visible = true := by simp [HwcLayer.visible, hskip]
      obtain ⟨hostHandle, hhandle⟩ := Option.ne_none_iff_exists'.mp (hlayer hvisible)
      rw [if_neg hskip, hhandle]
      simp only [gather]
      rw [ih, shown, shown, List.filter_cons_of_pos hvisible, List.map_cons, hhandle, List.append_assoc]
      rfl

/-- A call that fails leaves something behind, unless it fails at once. -/
theorem gather_of_fails (h : ¬Completes hwLayers) : ∃ left, (left = [] ↔ FailsAtOnce hwLayers) ∧
    ∀ pending, gather pending (packets hwLayers) = (pending ++ left, []) := by
  induction hwLayers with
  | nil => exact absurd (fun _ hmem => absurd hmem List.not_mem_nil) h
  | cons layer hwLayers ih =>
    rw [packets]
    by_cases hskip : (layer.skip || layer.cursor) = true
    · have hhidden : ¬layer.visible = true := by simp [HwcLayer.visible, hskip]
      have hrest : ¬Completes hwLayers := fun hrest =>
        h (completes_cons.mpr ⟨fun hvisible => absurd hvisible hhidden, hrest⟩)
      rw [if_pos hskip, FailsAtOnce, List.filter_cons_of_neg hhidden]
      exact ih hrest
    · have hvisible : layer.visible = true := by simp [HwcLayer.visible, hskip]
      rw [if_neg hskip, FailsAtOnce, List.filter_cons_of_pos hvisible, List.head?_cons]
      cases hhandle : layer.hostHandle with
      | none =>
        refine ⟨[], ⟨fun _ first hfirst => ?_, fun _ => rfl⟩, fun pending => ?_⟩
        · cases hfirst
          exact hhandle
        · exact Prod.ext (List.append_nil _).symm rfl
      | some hostHandle =>
        have hrest : ¬Completes hwLayers := by
          refine fun hrest => h (completes_cons.mpr ⟨fun _ => ?_, hrest⟩)
          rw [hhandle]
          exact Option.some_ne_none _
        obtain ⟨left, -, hleft⟩ := ih hrest
        refine ⟨layer.posted hostHandle :: left, ⟨(fun hnil => by cases hnil), fun hfails => ?_⟩, fun pending => ?_⟩
        · rw [hfails layer rfl] at hhandle
          cases hhandle
        · simp only [gather]
          rw [hleft, List.append_assoc]
          rfl

/-! ## Whole frames -/

/-- The quotients of the integers and of the rationals agree at both ends only. -/
theorem alpha_eq_iff (a : UInt8) : (((a.toNat / 255 : Nat) : Rat) = (a.toNat : Rat) / 255) ↔ a = 0 ∨ a = 255 := by
  have hlt := a.toNat_lt
  rw [eq_div_iff (by norm_num)]
  have hcast : ((a.toNat / 255 : Nat) : Rat) * 255 = (a.toNat : Rat) ↔ a.toNat / 255 * 255 = a.toNat := by
    exact_mod_cast Iff.rfl
  rw [hcast, ← UInt8.toNat_inj, ← UInt8.toNat_inj]
  have hzero : (0 : UInt8).toNat = 0 := rfl
  have hmax : (255 : UInt8).toNat = 255 := rfl
  omega

theorem posted_eq_wanted_iff : layer.posted (layer.hostHandle.getD 0) = layer.wanted ↔
    layer.planeAlpha = 0 ∨ layer.planeAlpha = 255 := by
  rw [← alpha_eq_iff]
  constructor
  · exact fun h => congrArg FrameLayer.alpha h
  · intro h
    rw [HwcLayer.posted, HwcLayer.wanted, h]

theorem append_shown_iff : pending ++ shown hwLayers = frame hwLayers ↔ pending = [] ∧ Plain hwLayers := by
  have hplain : shown hwLayers = frame hwLayers ↔ Plain hwLayers := by
    rw [shown, frame, List.map_inj_left]
    simp only [posted_eq_wanted_iff, List.mem_filter, and_imp]
    rfl
  rw [← hplain]
  constructor
  · intro h
    have hlength := congrArg List.length h
    rw [List.length_append, shown, frame, List.length_map, List.length_map] at hlength
    have hpending : pending = [] := List.length_eq_zero_iff.mp (by omega)
    rw [hpending, List.nil_append] at h
    exact ⟨hpending, h⟩
  · rintro ⟨rfl, h⟩
    exact h

theorem frames_cons : frames (hwLayers :: calls) =
    if Completes hwLayers then frame hwLayers :: frames calls else frames calls := by
  rw [frames, List.filter_cons]
  simp only [decide_eq_true_eq]
  split_ifs <;> rfl

/-- The frames are whole if and only if the calls are clean, and nothing is left over when one comes to its end. -/
theorem gather_eq_frames_iff (calls : List (List HwcLayer)) : ∀ pending,
    (gather pending (calls.flatMap packets)).2 = frames calls ↔
      Clean calls ∧ (pending = [] ∨ ∀ later ∈ calls, ¬Completes later) := by
  induction calls with
  | nil => exact fun _ => ⟨fun _ => ⟨trivial, Or.inr fun _ h => absurd h List.not_mem_nil⟩, fun _ => rfl⟩
  | cons hwLayers calls ih =>
    intro pending
    rw [List.flatMap_cons, gather_append, frames_cons, Clean, List.forall_mem_cons]
    by_cases hcompletes : Completes hwLayers
    · rw [gather_of_completes hcompletes, if_pos hcompletes, List.singleton_append, List.cons.injEq,
        append_shown_iff, ih]
      simp only [hcompletes, not_true, false_and, or_false, true_and, false_imp_iff, true_imp_iff, true_or, and_true]
      tauto
    · obtain ⟨left, hleft, hgather⟩ := gather_of_fails hcompletes
      rw [hgather, if_neg hcompletes, List.nil_append, ih, List.append_eq_nil_iff, hleft]
      simp only [hcompletes, not_false_eq_true, true_and, false_imp_iff, true_imp_iff]
      tauto

theorem length_gather (calls : List (List HwcLayer)) : ∀ pending,
    (gather pending (calls.flatMap packets)).2.length = (frames calls).length := by
  induction calls with
  | nil => exact fun _ => rfl
  | cons hwLayers calls ih =>
    intro pending
    rw [List.flatMap_cons, gather_append, frames_cons, List.length_append, ih]
    by_cases hcompletes : Completes hwLayers
    · rw [gather_of_completes hcompletes, if_pos hcompletes, List.length_singleton, List.length_cons, Nat.add_comm]
    · obtain ⟨left, -, hgather⟩ := gather_of_fails hcompletes
      rw [hgather, if_neg hcompletes, List.length_nil, Nat.zero_add]

theorem clean_left (h : Clean (calls ++ later)) : Clean calls := by
  induction calls with
  | nil => trivial
  | cons hwLayers calls ih =>
    obtain ⟨hplain, hfails, hrest⟩ := h
    refine ⟨hplain, fun hnot => (hfails hnot).imp_right fun hlater ls hls => ?_, ih hrest⟩
    exact hlater ls (List.mem_append_left _ hls)

/-! ## Runs -/

variable {s s' : Nat → RcConnection}

/-- What has been decoded, and what is on the way, are the packets of the calls. -/
def Ordered (c : RcConnection) : Prop :=
  ∃ decoded, c.calls.flatMap packets = decoded ++ (c.pipe ++ c.encoded) ∧
    gather [] decoded = (c.frame_layers, c.submitted)

theorem ordered_hwc_set (h : Ordered c) (displays : Option (List HwcLayer)) (rcEnc : Bool) :
    Ordered (c.hwc_set displays rcEnc).1 := by
  cases displays with
  | none => exact h
  | some hwLayers =>
    rw [RcConnection.hwc_set]
    cases rcEnc with
    | false => exact h
    | true =>
      obtain ⟨decoded, hsent, hgather⟩ := h
      obtain ⟨hsent', hlayers, hsubmitted, hcalls⟩ :=
        hwc_set_loop_sends hwLayers { c with calls := c.calls ++ [hwLayers] }
      simp only [if_true]
      refine ⟨decoded, ?_, ?_⟩
      · rw [hcalls, hsent', List.flatMap_append, hsent, List.flatMap_singleton, List.append_assoc]
      · rw [hlayers, hsubmitted, hgather]

theorem ordered_decode (h : Ordered c) (hc : c.decode = some c') : Ordered c' := by
  obtain ⟨decoded, hsent, hgather⟩ := h
  unfold RcConnection.decode at hc
  cases hpipe : c.pipe with
  | nil =>
    rw [hpipe] at hc
    cases hc
  | cons packet pipe =>
    rw [hpipe] at hc
    cases hc
    refine ⟨decoded ++ [packet], ?_, ?_⟩
    · rw [hpipe] at hsent
      cases packet <;> simpa [RcConnection.handle, RcConnection.rcPostLayer,
        RcConnection.rcPostAllLayersDone] using hsent
    · rw [gather_append, hgather]
      cases packet with
      | rcPostLayer layer => exact Prod.ext rfl (List.append_nil _)
      | rcPostAllLayersDone => rfl

theorem ordered_update (h : ∀ k, Ordered (s k)) (hc : Ordered c) (k : Nat) : ∀ j, Ordered (update s k c j) := by
  intro j
  rcases eq_or_ne j k with rfl | hne
  · rwa [update_self]
  · rw [update_of_ne hne]
    exact h j

theorem ordered_step (h : ∀ k, Ordered (s k)) (op : FrameOp) (hstep : frameMachine.step s op = some s') :
    ∀ k, Ordered (s' k) := by
  cases op with
  | hwc_set k displays rcEnc =>
    cases Option.some.inj hstep
    exact ordered_update h (ordered_hwc_set (h k) displays rcEnc) k
  | flush k =>
    cases Option.some.inj hstep
    refine ordered_update h ?_ k
    obtain ⟨decoded, hsent, hgather⟩ := h k
    exact ⟨decoded, hsent.trans (congrArg (decoded ++ ·) (List.append_nil _).symm), hgather⟩
  | decode k =>
    obtain ⟨c, hc, rfl⟩ := Option.map_eq_some_iff.mp hstep
    exact ordered_update h (ordered_decode (h k) hc) k

theorem ordered_of_reachable (h : frameMachine.Reachable s) : ∀ k, Ordered (s k) := by
  refine h.invariant (P := fun s => ∀ k, Ordered (s k)) (fun _ => ⟨[], rfl, rfl⟩) ?_
  intro _ op _ hs hstep
  exact ordered_step hs op hstep

/-- A connection makes its calls, one after the other. -/
theorem exec_calls (k : Nat) (calls : List (List HwcLayer)) : ∀ s, ∃ s',
    frameMachine.exec s (calls.map fun hwLayers => .hwc_set k (some hwLayers) true) = some s' ∧
      (s' k).calls = (s k).calls ++ calls ∧ ∀ j, j ≠ k → s' j = s j := by
  induction calls with
  | nil => exact fun s => ⟨s, rfl, (List.append_nil _).symm, fun _ _ => rfl⟩
  | cons hwLayers calls ih =>
    intro s
    obtain ⟨s', hs', hcalls, hothers⟩ := ih (update s k ((s k).hwc_set (some hwLayers) true).1)
    refine ⟨s', (Machine.exec_step rfl).trans hs', ?_, fun j hne => (hothers j hne).trans (update_of_ne hne ..)⟩
    rw [hcalls, update_self]
    have hsends := hwc_set_loop_sends hwLayers { s k with calls := (s k).calls ++ [hwLayers] }
    show (RcConnection.hwc_set_loop { s k with calls := (s k).calls ++ [hwLayers] } hwLayers).1.calls ++ calls = _
    rw [hsends.calls, List.append_assoc]
    rfl

/-- The host decodes all that is there. -/
theorem exec_decode (k : Nat) {n : Nat} : ∀ {s : Nat → RcConnection}, (s k).pipe.length = n → ∃ s',
    frameMachine.exec s (List.replicate n (.decode k)) = some s' ∧ (s' k).calls = (s k).calls ∧ (s' k).pipe = [] ∧
      (s' k).encoded = (s k).encoded ∧ ∀ j, j ≠ k → s' j = s j := by
  induction n with
  | zero => exact fun hlength => ⟨_, rfl, rfl, List.length_eq_zero_iff.mp hlength, rfl, fun _ _ => rfl⟩
  | succ n ih =>
    intro s hlength
    cases hpipe : (s k).pipe with
    | nil =>
      rw [hpipe] at hlength
      cases hlength
    | cons packet pipe =>
      rw [hpipe] at hlength
      let c : RcConnection := RcConnection.handle { s k with pipe } packet
      have hc : c.calls = (s k).calls ∧ c.pipe = pipe ∧ c.encoded = (s k).encoded := by
        cases packet <;> exact ⟨rfl, rfl, rfl⟩
      have hstep : frameMachine.step s (.decode k) = some (update s k c) := by
        show ((s k).decode).map (update s k) = _
        rw [RcConnection.decode, hpipe]
        rfl
      have hrest : (update s k c k).pipe.length = n := by
        rw [update_self, hc.2.1]
        exact Nat.succ.inj hlength
      obtain ⟨s', hs', hcalls, hempty, hencoded, hothers⟩ := ih hrest
      rw [update_self] at hcalls hencoded
      refine ⟨s', (Machine.exec_step hstep).trans hs', hcalls.trans hc.1, hempty, hencoded.trans hc.2.2, ?_⟩
      exact fun j hne => (hothers j hne).trans (update_of_ne hne ..)

/-- The calls of one connection, with all that they send decoded. -/
theorem exec_all (k : Nat) (calls : List (List HwcLayer)) :
    ∃ labels s, frameMachine.exec frameMachine.init labels = some s ∧
    (s k).calls = calls ∧ (s k).submitted = (gather [] (calls.flatMap packets)).2 ∧ ∀ j, j ≠ k → (s j).calls = [] := by
  obtain ⟨s1, h1, hcalls1, hothers1⟩ := exec_calls k calls frameMachine.init
  obtain ⟨s2, h2, hcalls2, hpipe2, hencoded2, hothers2⟩ := exec_decode k (s := update s1 k (s1 k).flush) rfl
  rw [update_self] at hcalls2 hencoded2
  have hexec : frameMachine.exec frameMachine.init
      (calls.map (fun hwLayers => .hwc_set k (some hwLayers) true) ++
        .flush k :: List.replicate (update s1 k (s1 k).flush k).pipe.length (.decode k)) = some s2 := by
    have hflush : frameMachine.step s1 (.flush k) = some (update s1 k (s1 k).flush) := rfl
    rw [Machine.exec_append, h1]
    exact (Machine.exec_step hflush).trans h2
  have hcalls : (s2 k).calls = calls := hcalls2.trans (hcalls1.trans (List.nil_append _))
  refine ⟨_, s2, hexec, hcalls, ?_, fun j hne => ?_⟩
  · obtain ⟨decoded, hsent, hgather⟩ := ordered_of_reachable ⟨_, hexec⟩ k
    rw [hpipe2, hencoded2, hcalls] at hsent
    have hdecoded : calls.flatMap packets = decoded := hsent.trans (List.append_nil _)
    rw [hdecoded, hgather]
  · rw [hothers2 j hne, update_of_ne hne, hothers1 j hne]
    rfl

/-- When the calls are not clean, there is a frame that is not that of one call. -/
theorem exists_broken (k : Nat) (h : ¬Clean calls) : ∃ labels s, frameMachine.exec frameMachine.init labels = some s ∧
    (s k).calls = calls ∧ (∀ j, j ≠ k → (s j).calls = []) ∧ ¬(s k).submitted <+: frames (s k).calls := by
  obtain ⟨labels, s, hs, hcalls, hsubmitted, hothers⟩ := exec_all k calls
  refine ⟨labels, s, hs, hcalls, hothers, fun hframes => h ?_⟩
  rw [hsubmitted, hcalls] at hframes
  exact ((gather_eq_frames_iff calls []).mp (hframes.eq_of_length (length_gather ..))).1

/-- In every run in which the connections make these calls, each frame is that of one call that comes to its end, if and
only if the calls of each connection are clean. -/
theorem frames_whole_iff (calls : Nat → List (List HwcLayer)) :
    (∀ labels s, frameMachine.exec frameMachine.init labels = some s → (∀ k, (s k).calls <+: calls k) →
      ∀ k, (s k).submitted <+: frames (s k).calls) ↔ ∀ k, Clean (calls k) := by
  constructor
  · intro h k
    by_contra hclean
    obtain ⟨labels, s, hs, hcalls, hothers, hbroken⟩ := exists_broken k hclean
    refine hbroken (h labels s hs (fun j => ?_) k)
    rcases eq_or_ne j k with rfl | hne
    · exact hcalls ▸ List.prefix_rfl
    · exact hothers j hne ▸ List.nil_prefix
  · intro h labels s hs hprefix k
    obtain ⟨decoded, hsent, hgather⟩ := ordered_of_reachable ⟨labels, hs⟩ k
    obtain ⟨later, hlater⟩ := hprefix k
    have hclean : Clean (s k).calls := by
      have hk := h k
      rw [← hlater] at hk
      exact clean_left hk
    have hframes := (gather_eq_frames_iff (s k).calls []).mpr ⟨hclean, Or.inl rfl⟩
    rw [hsent, gather_append, hgather] at hframes
    exact ⟨_, hframes⟩

/-- A layer with all of the screen to it. -/
def exampleLayer (hostHandle : Option HandleType) (planeAlpha : UInt8) : HwcLayer where
  name := "a"
  skip := false
  cursor := false
  hostHandle := hostHandle
  planeAlpha := planeAlpha
  sourceCrop := ⟨0, 0, 1, 1⟩
  displayFrame := ⟨0, 0, 1, 1⟩

/-- A call that fails at its second layer, and one that completes. -/
def leftOver : List (List HwcLayer) :=
  [[exampleLayer (some 1) 255, exampleLayer none 255], [exampleLayer (some 2) 255]]

/-- A call with a layer that is half transparent. -/
def halfTransparent : List (List HwcLayer) := [[exampleLayer (some 1) 128]]

theorem not_whole_of_mem :
    ∀ calls ∈ [leftOver, halfTransparent],
      ¬∀ labels s, frameMachine.exec frameMachine.init labels = some s → (s 0).calls = calls →
        (s 0).submitted <+: frames (s 0).calls := by
  intro calls hcalls h
  have hclean : ¬Clean calls := by
    rcases List.mem_cons.mp hcalls with rfl | hcalls
    · rintro ⟨-, hfails, -⟩
      rcases hfails (by decide) with hfails | hfails
      · cases hfails _ rfl
      · exact hfails _ (List.mem_singleton_self _) (by decide)
    · cases List.mem_singleton.mp hcalls
      rintro ⟨hplain, -⟩
      exact absurd (hplain (by decide) _ (List.mem_singleton_self _) rfl) (by decide)
  obtain ⟨labels, s, hs, hs0, -, hbroken⟩ := exists_broken 0 hclean
  exact hbroken (h labels s hs hs0)

/-- A call that fails at its second layer leaves the first one to the next frame, and a layer that is half transparent
is not to be seen. -/
theorem not_always_whole :
    (¬∀ labels s, frameMachine.exec frameMachine.init labels = some s → (s 0).calls = leftOver →
      (s 0).submitted <+: frames (s 0).calls) ∧
    ¬∀ labels s, frameMachine.exec frameMachine.init labels = some s → (s 0).calls = halfTransparent →
      (s 0).submitted <+: frames (s 0).calls :=
  ⟨not_whole_of_mem _ List.mem_cons_self, not_whole_of_mem _ (List.mem_cons_of_mem _ List.mem_cons_self)⟩

end AnboxReboxed.Emugl
