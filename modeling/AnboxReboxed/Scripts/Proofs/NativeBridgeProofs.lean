import AnboxReboxed.Scripts.Proofs.NativeBridgeRules

/-!
# Proofs: the commands of the native bridge

Each command keeps the manifest, the marker and the bindtab in agreement, and leaves them as they were when it raises.
-/

namespace AnboxReboxed.Scripts.NativeBridge

open AnboxReboxed.Lib Function Fallible

variable {args : Args} {others : List Str} {d d' : Disk} {fault : Option Op}

namespace Disk

theorem Same.refl (d : Disk) : d.Same d := ⟨rfl, rfl, rfl, rfl⟩

theorem Same.enabled (h : d.Same d') : d'.Enabled ↔ d.Enabled := by
  unfold Enabled
  rw [h.manifest]

theorem Consistent.congr (h : d.Consistent others) (hsame : d.Same d') : d'.Consistent others := by
  refine ⟨?_, ?_, ?_⟩
  · rw [hsame.enabled, hsame.marker]
    exact h.marker
  · rw [hsame.enabled, Bound, hsame.bindtab]
    exact h.bindtab
  · rw [hsame.bindtab]
    exact h.others

theorem not_enabled_of_manifest (h : ∀ m, d.manifest = some m → m.enabled = false) : ¬d.Enabled := by
  rintro ⟨m, hm, henabled⟩
  rw [h m hm] at henabled
  cases henabled

theorem not_bound_without (lines : List Str) : ¬∃ line ∈ without_bridge_bindings lines, is_bridge line := by
  rintro ⟨line, hmem, hbridge⟩
  exact absurd hbridge (of_decide_eq_true (List.mem_filter.mp hmem).2)

theorem without_without (lines : List Str) :
    without_bridge_bindings (without_bridge_bindings lines) = without_bridge_bindings lines := by
  rw [without_bridge_bindings, without_bridge_bindings, List.filter_filter]
  exact List.filter_congr fun line _ => Bool.and_self _

/-- There is nothing to take out of the bindtab, when it is not enabled. -/
theorem Consistent.without_eq (h : d.Consistent others) (hnot : ¬d.Enabled) :
    without_bridge_bindings d.bindtab = d.bindtab := by
  refine List.filter_eq_self.mpr fun line hmem => decide_eq_true fun hbridge => ?_
  exact hnot (h.bindtab.mpr ⟨line, hmem, hbridge⟩)

theorem Consistent.marker_eq (h : d.Consistent others) (hnot : ¬d.Enabled) : d.marker = none := by
  by_contra hmarker
  exact hnot (h.marker.mpr hmarker)

/-- A state in which it is not enabled, with the lines of others. -/
theorem consistent_of_disabled (h : d.Consistent others) (hmanifest : ∀ m, d'.manifest = some m → m.enabled = false)
    (hmarker : d'.marker = none) (hbindtab : d'.bindtab = without_bridge_bindings d.bindtab) :
    d'.Consistent others := by
  have hnot := not_enabled_of_manifest hmanifest
  refine ⟨iff_of_false hnot fun h' => h' hmarker, iff_of_false hnot ?_, ?_⟩
  · rw [Bound, hbindtab]
    exact not_bound_without d.bindtab
  · rw [hbindtab, without_without]
    exact h.others

theorem Consistent.disabled (h : d.Consistent others) : d.disabled.Consistent others := by
  apply consistent_of_disabled h
  · intro m hm
    obtain ⟨root, hroot, hm⟩ := Option.bind_eq_some_iff.mp hm
    obtain ⟨old, -, rfl⟩ := Option.map_eq_some_iff.mp hroot
    obtain ⟨m', -, rfl⟩ := Option.map_eq_some_iff.mp hm
    rfl
  · unfold Disk.marker Disk.disabled
    cases d.root <;> rfl
  · rfl

end Disk

/-! ## Commands -/

open Disk

theorem child_eq {path : Str} (name : Str) (hdot : path ≠ ".".toList) (hslash : path ≠ "/".toList) :
    child path name = path ++ '/' :: name := by
  rw [child, if_neg hdot, if_neg hslash]

theorem is_bridge_binding (args : Args) (hdir : args.data_dir ≠ ".".toList) : is_bridge args.binding := by
  have hroot : ∃ p, child (child args.data_dir "state".toList) "native-bridge".toList =
      p ++ "/state/native-bridge".toList := by
    by_cases hslash : args.data_dir = "/".toList
    · refine ⟨[], ?_⟩
      rw [hslash]
      decide
    · refine ⟨args.data_dir, ?_⟩
      have hlong : ∀ c : Char, args.data_dir ++ '/' :: "state".toList ≠ [c] := by
        intro c heq
        have hlength := congrArg List.length heq
        rw [List.length_append] at hlength
        have hsix : ('/' :: "state".toList).length = 6 := rfl
        rw [hsix] at hlength
        exact absurd hlength (by simp)
      rw [child_eq _ hdir hslash, child_eq _ (hlong '.') (hlong '/'), List.append_assoc]
      rfl
  obtain ⟨p, hp⟩ := hroot
  refine ⟨p, "properties/".toList ++ args.relative ++ ' ' ::
    child (child args.data_dir "combined-rootfs".toList) args.relative ++
      " none bind,create=file,optional,ro 0 0".toList, ?_⟩
  have hcut : "/state/native-bridge/".toList = "/state/native-bridge".toList ++ ['/'] := rfl
  have hproperties : "/properties/".toList = ['/'] ++ "properties/".toList := rfl
  rw [Args.binding, hp, hcut, hproperties]
  simp only [List.append_assoc]

theorem without_append_binding {lines : List Str} {line : Str} (hbridge : is_bridge line) :
    without_bridge_bindings (without_bridge_bindings lines ++ [line]) = without_bridge_bindings lines := by
  have hline : without_bridge_bindings [line] = [] := by
    rw [without_bridge_bindings, List.filter_singleton]
    simp [hbridge]
  rw [without_bridge_bindings, List.filter_append]
  exact (congrArg₂ _ (without_without lines) hline).trans (List.append_nil _)

theorem Disk.Consistent.enabled {m : Manifest} (h : d.Consistent others) (hm : d.manifest = some m)
    (hdir : args.data_dir ≠ ".".toList) : (d.enabled args m).Consistent others := by
  have hbridge := is_bridge_binding args hdir
  obtain ⟨root, staging, backup, bindtab⟩ := d
  obtain ⟨root, hroot, -⟩ := Option.bind_eq_some_iff.mp hm
  cases hroot
  refine ⟨iff_of_true ⟨_, rfl, rfl⟩ (Option.some_ne_none _), iff_of_true ⟨_, rfl, rfl⟩ ?_, ?_⟩
  · exact ⟨args.binding, List.mem_append_right _ List.mem_cons_self, hbridge⟩
  · exact (without_append_binding hbridge).trans h.others

theorem Disk.Same.overlaid (args : Args) (m : Manifest) (d : Disk) : d.Same (d.overlaid args m) := by
  obtain ⟨root, staging, backup, bindtab⟩ := d
  cases root <;> exact ⟨rfl, rfl, rfl, rfl⟩

/-- What holds after a command of a consistent state. -/
abbrev Kept (others : List Str) (d : Disk) : Prop := d.Consistent others ∧ d.NoLeftovers

/-- A late failure of `disable` is harmless when it was not enabled. -/
theorem Disk.Consistent.late (h : d.Consistent others) (hc : d.Enabled → ∀ o ∈ disable_ops, fault ≠ some o)
    (hfault : ∃ o ∈ disable_ops, fault = some o) :
    without_bridge_bindings d.bindtab = d.bindtab ∧ d.marker = none := by
  obtain ⟨o, ho, hfault⟩ := hfault
  have hnot : ¬d.Enabled := fun henabled => hc henabled o ho hfault
  exact ⟨h.without_eq hnot, h.marker_eq hnot⟩

theorem remove_spec {left : Remains} (h : d.Consistent others) (hn : d.NoLeftovers)
    (hc : d.Enabled → ∀ o ∈ disable_ops, fault ≠ some o)
    (hrmtree : fault = some .rmtree_root → d.root = none ∨
      (¬d.Enabled ∧ left.manifest = true ∧ ∀ path, d.payload path ≠ none → left.payload path = true))
    (hfsync : fault = some .fsync_state → d.root = none) :
    wp (remove left) (fun _ _ => Kept others) (fun _ d' => d.Same d' ∧ d'.NoLeftovers) fault d := by
  unfold remove
  rw [wp_bind]
  apply wp_disable ⟨Same.refl d, hn⟩ (h.late hc)
  have hdisabled : d.disabled.Consistent others := h.disabled
  obtain ⟨root, staging, backup, bindtab⟩ := d
  cases root with
  | none => exact ⟨hdisabled, hn⟩
  | some root =>
    have hne : ∀ {P : Prop}, some root = none → P := fun h' => by cases h'
    have hsome : (Disk.disabled ⟨some root, staging, backup, bindtab⟩).root.isSome = true := rfl
    rw [wp_bind, wp_read, if_pos hsome, wp_bind, wp_torn]
    constructor
    · intro hf
      obtain ⟨hnot, hmanifest, hpayload⟩ := (hrmtree hf).resolve_left fun h' => hne h'
      refine ⟨⟨?_, funext fun path => ?_, (h.marker_eq hnot).symm, h.without_eq hnot⟩, hn⟩
      · show (if left.manifest = true then root.manifest.map fun m => { m with enabled := false } else none) =
          root.manifest
        rw [if_pos hmanifest]
        cases hm : root.manifest with
        | none => rfl
        | some m =>
          have hfalse : m.enabled = false := eq_false_of_ne_true fun henabled => hnot ⟨m, hm, henabled⟩
          rw [Option.map_some, ← hfalse]
      · show (if left.payload path = true then root.payload path else none) = root.payload path
        by_cases hpath : root.payload path = none
        · rw [hpath, ite_self]
        · exact if_pos (hpayload path hpath)
    · intro _
      refine wp_file (fun hf => hne (hfsync hf)) fun _ => ⟨?_, hn⟩
      exact consistent_of_disabled h (fun _ h' => by cases h') rfl rfl

theorem run_spec {l : Label} (h : Kept others d) (hc : Harmless args d l) :
    wp (l.run args) (fun _ _ => Kept others) (fun _ d' => d.Same d' ∧ d'.NoLeftovers) l.fault d := by
  obtain ⟨h, hn⟩ := h
  obtain ⟨pid, command, fault⟩ := l
  have hback : d.Same d ∧ d.NoLeftovers := ⟨Same.refl d, hn⟩
  cases command with
  | install backend source =>
    obtain ⟨hfsync, hbindtab, hrmtree⟩ := hc
    refine wp_install hn (fun _ => hback) hfsync (fun hf => h.without_eq (hbindtab hf)) hrmtree ?_
    intro root m hm hdisabled _ _ hmarker _
    refine ⟨consistent_of_disabled h ?_ hmarker rfl, hn⟩
    intro m' hm'
    cases Option.some.inj (hm.symm.trans hm')
    exact hdisabled
  | enable backend =>
    obtain ⟨hdir, hlast, hc⟩ := hc
    refine wp_enable (fun _ => hback) (fun m _ => ⟨Same.overlaid args m d, hn⟩) hlast ?_
      fun m hm => ⟨h.enabled hm hdir, hn⟩
    rintro ⟨o, ho, hfault⟩
    exact h.marker_eq fun henabled => hc henabled o ho hfault
  | disable => exact wp_disable hback (h.late hc) ⟨h.disabled, hn⟩
  | remove left => exact remove_spec h hn hc.1 hc.2.1 hc.2.2

/-! ## Runs -/

theorem step_keeps {l : Label} (h : Kept others d) (hc : Harmless args d l)
    (hstep : (commandMachine args others).step d l = some d') : Kept others d' := by
  cases Option.some.inj hstep
  apply wp_final (P := Kept others)
  exact wp_mono (run_spec h hc) (fun _ _ _ h' => h') fun _ d' h' => ⟨h.1.congr h'.1, h'.2⟩

theorem init_keeps (args : Args) (others : List Str) :
    Kept others (commandMachine args others).init := by
  have hnot : ¬(commandMachine args others).init.Enabled := not_enabled_of_manifest fun _ h => by cases h
  refine ⟨⟨iff_of_false hnot fun h => h rfl, iff_of_false hnot ?_, without_without others⟩, fun _ => ⟨rfl, rfl⟩⟩
  exact not_bound_without others

/-- In every run in which no operation fails where the rollback does not reach, the commands are transactions. -/
theorem commands_transactional (args : Args) (others : List Str) (labels : List Label)
    (h : (commandMachine args others).AllSteps (Harmless args) (commandMachine args others).init labels) :
    (commandMachine args others).AllSteps (RollsBack args) (commandMachine args others).init labels ∧
      (commandMachine args others).AllStates (Consistent others) (commandMachine args others).init labels := by
  have hinit := init_keeps args others
  constructor
  · refine Machine.allSteps_of_relation (fun _ _ _ hd hc hstep => step_keeps hd hc hstep) ?_ labels _ hinit h
    intro d l hd hc e d' hrun
    have hspec := run_spec hd hc
    exact wp_error (E := fun _ d' => d.Same d' ∧ d'.NoLeftovers) hspec hrun
  · exact Machine.allStates_of_allSteps (fun _ _ _ hd hc hstep => step_keeps hd hc hstep) (fun _ hd => hd.1) hinit h

def exampleArgs : Args := ⟨"/var/lib/anbox".toList, [], "system/build.prop".toList⟩

def exampleBuilt : Built := ⟨"libhoudini.so".toList, [.arm64_v8a], fun _ => none⟩

theorem harmless_of_no_fault {l : Label} (hfault : l.fault = none) (hdir : args.data_dir ≠ ".".toList) :
    Harmless args d l := by
  have hne : ∀ {o : Op}, l.fault ≠ some o := by
    intro o h
    rw [hfault] at h
    cases h
  unfold Harmless
  split
  · exact ⟨hne, (fun h => absurd h hne), fun h => absurd h hne⟩
  · exact ⟨hdir, hne, fun _ _ _ => hne⟩
  · exact fun _ _ _ => hne
  · exact ⟨fun _ _ _ => hne, (fun h => absurd h hne), fun h => absurd h hne⟩

/-- A translator is installed, is not enabled because the bindtab cannot be written, and is enabled then. -/
theorem commands_transactional_retry :
    (commandMachine exampleArgs []).AllSteps (RollsBack exampleArgs) (commandMachine exampleArgs []).init
      [⟨1, .install none (some exampleBuilt), none⟩, ⟨2, .enable none, some .bindtab_write⟩, ⟨3, .enable none, none⟩] ∧
    (commandMachine exampleArgs []).AllStates (Consistent []) (commandMachine exampleArgs []).init
      [⟨1, .install none (some exampleBuilt), none⟩, ⟨2, .enable none, some .bindtab_write⟩,
        ⟨3, .enable none, none⟩] := by
  apply commands_transactional
  refine ⟨harmless_of_no_fault rfl (by decide), fun d hd => ?_⟩
  cases hd
  refine ⟨⟨by decide, by decide, fun henabled => ?_⟩, fun d hd => ?_⟩
  · obtain ⟨m, hm, hm'⟩ := henabled
    cases hm
    cases hm'
  · exact ⟨harmless_of_no_fault rfl (by decide), fun _ _ => trivial⟩

/-- The last operation of `enable` fails, after the bindtab has been replaced. -/
theorem not_always_transactional : ¬∀ args others labels,
    (commandMachine args others).AllSteps (RollsBack args) (commandMachine args others).init labels ∧
      (commandMachine args others).AllStates (Consistent others) (commandMachine args others).init labels := by
  intro h
  obtain ⟨d, hd⟩ : ∃ d, (commandMachine exampleArgs []).exec (commandMachine exampleArgs []).init
      [⟨1, .install none (some exampleBuilt), none⟩, ⟨2, .enable none, some .bindtab_fsync⟩] = some d := ⟨_, rfl⟩
  have hconsistent := (h _ _ _).2.last hd
  cases hd
  obtain ⟨m, hm, hm'⟩ := hconsistent.bindtab.mpr
    ⟨exampleArgs.binding, List.mem_cons_self, is_bridge_binding exampleArgs (by decide)⟩
  cases hm
  cases hm'

end AnboxReboxed.Scripts.NativeBridge
