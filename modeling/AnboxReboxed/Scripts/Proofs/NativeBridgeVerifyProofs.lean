import AnboxReboxed.Scripts.Proofs.NativeBridgeProofs
import AnboxReboxed.Scripts.Proofs.PropertyOverlayProofs

/-!
# Proofs: verifying the native bridge

The overlay is written for a manifest. A record that has passed in the manifest on the disk is the result of the most
recent probe, and whatever the overlay was written for has still passed there.
-/

namespace AnboxReboxed.Scripts.NativeBridge

open AnboxReboxed.Lib Function Fallible

variable {args : Args} {others : List Str} {d : Disk} {s s' : Bridge} {m : Manifest} {text : List Str}

/-! ## The invariant -/

/-- A record that has passed is that of the most recent probe. -/
def Manifest.Tracked (m : Manifest) (latest : Abi → Option Record) : Prop :=
  ∀ abi, m.passed abi = true → abi ∈ m.detected_abis ∧ latest abi = m.verification abi

/-- The text was written for a manifest with no more ABIs than this one. -/
def Manifest.Covers (args : Args) (m : Manifest) (text : List Str) : Prop :=
  ∃ m₀ : Manifest, text = overlay_text args.original m₀ ∧ m₀.original_properties = parse_properties args.original ∧
    ∀ abi, m₀.passed abi = true → m.passed abi = true

namespace Bridge

/-- The manifest is right, whether it is enabled or not. -/
structure Recorded (args : Args) (s : Bridge) : Prop where
  leftovers : s.disk.NoLeftovers
  original : ∀ m, s.disk.manifest = some m → m.original_properties = parse_properties args.original
  latest : ∀ m, s.disk.manifest = some m → m.Tracked s.latest

structure Sound (args : Args) (s : Bridge) : Prop extends s.Recorded args where
  overlay : args.binding ∈ s.disk.bindtab → ∀ text, s.disk.overlay = some text →
    ∃ m, s.disk.manifest = some m ∧ m.Covers args text

theorem Sound.truthful (h : s.Sound args) : s.Truthful args := by
  intro hbinding text htext a ha
  obtain ⟨m, hm, m₀, rfl, horiginal, hcovers⟩ := h.overlay hbinding text htext
  rcases advertises_overlay_text horiginal ha with ha | ⟨abi, hpassed, hbelongs⟩
  · exact Or.inl ha
  · obtain ⟨-, hlatest⟩ := h.latest m hm abi (hcovers abi hpassed)
    have hpassed := hcovers abi hpassed
    unfold Manifest.passed at hpassed
    cases hrecord : m.verification abi with
    | none =>
      rw [hrecord] at hpassed
      cases hpassed
    | some record =>
      rw [hrecord] at hpassed
      exact Or.inr ⟨m, abi, record, hm, hbelongs, hrecord, hpassed, hlatest.trans hrecord⟩

/-- What is not bound need not be covered. -/
theorem Recorded.sound_of_unbound (h : s.Recorded args) (hdir : args.data_dir ≠ ".".toList)
    (hbindtab : ∃ lines, s.disk.bindtab = without_bridge_bindings lines) : s.Sound args := by
  refine ⟨h, fun hbinding => ?_⟩
  obtain ⟨lines, hlines⟩ := hbindtab
  rw [hlines] at hbinding
  exact absurd ⟨args.binding, hbinding, is_bridge_binding args hdir⟩ (Disk.not_bound_without lines)

theorem Recorded.sound_of_no_overlay (h : s.Recorded args) (hoverlay : s.disk.overlay = none) : s.Sound args := by
  refine ⟨h, fun _ text htext => ?_⟩
  rw [hoverlay] at htext
  cases htext

theorem recorded_of_manifest (hn : s.disk.NoLeftovers) (hm : s.disk.manifest = some m)
    (horiginal : m.original_properties = parse_properties args.original) (htracked : m.Tracked s.latest) :
    s.Recorded args := by
  refine ⟨hn, fun m' hm' => ?_, fun m' hm' => ?_⟩
  · cases Option.some.inj (hm.symm.trans hm')
    exact horiginal
  · cases Option.some.inj (hm.symm.trans hm')
    exact htracked

theorem recorded_of_no_manifest (hn : s.disk.NoLeftovers) (hm : s.disk.manifest = none) : s.Recorded args := by
  have hne : ∀ m, s.disk.manifest ≠ some m := by
    intro m h
    rw [hm] at h
    cases h
  exact ⟨hn, fun m h => absurd h (hne m), fun m h => absurd h (hne m)⟩

theorem Recorded.sound_of_covers (h : s.Recorded args) (hm : s.disk.manifest = some m)
    (htext : s.disk.overlay = some text) (hcovers : m.Covers args text) : s.Sound args := by
  refine ⟨h, fun _ text' htext' => ⟨m, hm, ?_⟩⟩
  cases Option.some.inj (htext.symm.trans htext')
  exact hcovers

end Bridge

theorem Manifest.covers_self (horiginal : m.original_properties = parse_properties args.original) :
    m.Covers args (overlay_text args.original m) := ⟨m, rfl, horiginal, fun _ h => h⟩

/-! ## What is on the disk -/

namespace Disk

/-- The manifest is saved. -/
def saved (m : Manifest) (d : Disk) : Disk := d.setRoot fun root => { root with manifest := some m }

theorem exists_root (hm : d.manifest = some m) : ∃ root, d.root = some root ∧ root.manifest = some m :=
  Option.bind_eq_some_iff.mp hm

theorem overlaid_manifest (d : Disk) : (d.overlaid args m).manifest = d.manifest := by
  unfold manifest overlaid setRoot
  cases d.root <;> rfl

theorem overlaid_overlay {m' : Manifest} (hm : d.manifest = some m') :
    (d.overlaid args m).overlay = some (overlay_text args.original m) := by
  obtain ⟨root, hroot, -⟩ := exists_root hm
  unfold overlay overlaid setRoot
  rw [hroot]
  rfl

theorem saved_manifest {m' : Manifest} (hm : d.manifest = some m') : (d.saved m).manifest = some m := by
  obtain ⟨root, hroot, -⟩ := exists_root hm
  unfold manifest saved setRoot
  rw [hroot]
  rfl

theorem saved_overlay (d : Disk) : (d.saved m).overlay = d.overlay := by
  unfold overlay saved setRoot
  cases d.root <;> rfl

theorem saved_self (hm : d.manifest = some m) : d.saved m = d := by
  obtain ⟨root, staging, backup, bindtab⟩ := d
  obtain ⟨⟨manifest, payload, marker, overlay⟩, hroot, hmanifest⟩ := exists_root hm
  cases hroot
  cases hmanifest
  rfl

theorem disabled_manifest (d : Disk) :
    d.disabled.manifest = d.manifest.map fun m => { m with enabled := false } := by
  unfold manifest disabled
  cases d.root <;> rfl

theorem disabled_overlay (d : Disk) : d.disabled.overlay = d.overlay := by
  unfold overlay disabled
  cases d.root <;> rfl

end Disk

namespace Bridge

/-- Writing the overlay for the manifest. -/
theorem Recorded.overlaid (h : s.Recorded args) (hm : s.disk.manifest = some m) :
    Sound args { s with disk := s.disk.overlaid args m } := by
  have hm' : (s.disk.overlaid args m).manifest = some m := (Disk.overlaid_manifest s.disk).trans hm
  have hrecorded : Recorded args { s with disk := s.disk.overlaid args m } :=
    recorded_of_manifest h.leftovers hm' (h.original m hm) (h.latest m hm)
  exact hrecorded.sound_of_covers hm' (Disk.overlaid_overlay hm) (Manifest.covers_self (h.original m hm))

theorem Recorded.disabled (h : s.Recorded args) : Recorded args { s with disk := s.disk.disabled } := by
  cases hm : s.disk.manifest with
  | none =>
    refine recorded_of_no_manifest h.leftovers ?_
    show s.disk.disabled.manifest = none
    rw [Disk.disabled_manifest, hm]
    rfl
  | some m =>
    refine recorded_of_manifest (m := { m with enabled := false }) h.leftovers ?_ (h.original m hm) (h.latest m hm)
    show s.disk.disabled.manifest = some { m with enabled := false }
    rw [Disk.disabled_manifest, hm]
    rfl

theorem Sound.disabled (h : s.Sound args) : Sound args { s with disk := s.disk.disabled } := by
  refine ⟨h.toRecorded.disabled, fun hbinding text htext => ?_⟩
  have htext : s.disk.overlay = some text := (Disk.disabled_overlay s.disk).symm.trans htext
  obtain ⟨m, hm, hcovers⟩ := h.overlay (List.mem_filter.mp hbinding).1 text htext
  refine ⟨{ m with enabled := false }, ?_, hcovers⟩
  show s.disk.disabled.manifest = some { m with enabled := false }
  rw [Disk.disabled_manifest, hm]
  rfl

theorem Sound.enabled (h : s.Sound args) (hm : s.disk.manifest = some m) :
    Sound args { s with disk := s.disk.enabled args m } := by
  obtain ⟨root, hroot, -⟩ := Disk.exists_root hm
  have hmanifest : (s.disk.enabled args m).manifest = some { m with enabled := true } := by
    unfold Disk.enabled Disk.setRoot Disk.manifest
    rw [hroot]
    rfl
  have hoverlay : (s.disk.enabled args m).overlay = some (overlay_text args.original m) := by
    unfold Disk.enabled Disk.setRoot Disk.overlay
    rw [hroot]
    rfl
  have hrecorded : Recorded args { s with disk := s.disk.enabled args m } :=
    recorded_of_manifest h.leftovers hmanifest (h.original m hm) (h.latest m hm)
  exact hrecorded.sound_of_covers hmanifest hoverlay ⟨m, rfl, h.original m hm, fun _ h' => h'⟩

/-! ## Commands -/

theorem command_of_wp {P : Bridge → Prop} {l : Label}
    (h : wp (l.run args) (fun _ _ disk => P ⟨disk, if l.command.replaces then fun _ => none else s.latest⟩)
      (fun _ disk => P { s with disk }) l.fault s.disk) : P (s.command args l) := by
  unfold wp at h
  unfold command
  cases hrun : l.run args l.fault s.disk with
  | error e =>
    rw [hrun] at h
    exact h
  | ok r =>
    rw [hrun] at h
    exact h

theorem Sound.command {l : Label} (h : s.Sound args) (hwrites : Writes l.fault) : (s.command args l).Sound args := by
  have hfault : ∀ {o : Op}, o.is_check = false → l.fault ≠ some o := by
    intro o ho hfault
    have hcheck := hwrites o hfault
    rw [ho] at hcheck
    cases hcheck
  have hops : ∀ {ops : List Op}, (∀ o ∈ ops, o.is_check = false) → ¬∃ o ∈ ops, l.fault = some o := by
    rintro ops hops ⟨o, ho, hfault'⟩
    exact hfault (hops o ho) hfault'
  have hdisable : ¬∃ o ∈ disable_ops, l.fault = some o := hops (by decide)
  apply command_of_wp
  obtain ⟨pid, command, fault⟩ := l
  cases command with
  | install backend source =>
    refine wp_install h.leftovers (fun _ => h) (hfault rfl) (fun hf => absurd hf (hfault rfl))
      (fun hf => absurd hf (hfault rfl)) fun root m hm _ hpassed horiginal _ hoverlay => ?_
    have htracked : m.Tracked fun _ => none := by
      intro abi habi
      rw [hpassed abi] at habi
      cases habi
    refine Recorded.sound_of_no_overlay ?_ hoverlay
    exact recorded_of_manifest h.leftovers hm horiginal htracked
  | enable backend =>
    exact wp_enable (fun _ => h) (fun m hm => h.overlaid hm) (hfault rfl)
      (fun hf => absurd hf (hops (by decide))) fun m hm => h.enabled hm
  | disable => exact wp_disable h (fun hf => absurd hf hdisable) h.disabled
  | remove left =>
    show wp (remove left) _ _ _ _
    rw [remove, wp_bind]
    apply wp_disable h (fun hf => absurd hf hdisable)
    rw [wp_bind, wp_read, wp_ite, wp_bind, wp_torn]
    refine ⟨fun _ => ⟨fun hf => absurd hf (hfault rfl), fun _ => ?_⟩, fun hroot => ?_⟩
    · refine wp_file (fun hf => absurd hf (hfault rfl)) fun _ => ?_
      refine Recorded.sound_of_no_overlay ?_ rfl
      exact recorded_of_no_manifest h.leftovers rfl
    · have hnone : s.disk.disabled.root = none := Option.not_isSome_iff_eq_none.mp hroot
      have hmanifest : s.disk.disabled.manifest = none := by rw [Disk.manifest, hnone, Option.bind_none]
      have hoverlay : s.disk.disabled.overlay = none := by rw [Disk.overlay, hnone, Option.bind_none]
      refine Recorded.sound_of_no_overlay ?_ hoverlay
      exact recorded_of_no_manifest h.leftovers hmanifest

end Bridge

/-! ## Probing an ABI -/

section Probing

variable {α : Type} {Q : α → Option Op → Bridge → Prop} {E : Exc → Bridge → Prop} {fault : Option Op} {abi : Abi}
  {p : Probe}

theorem wp_cleanup_removal {r : Guest Bool} {Q : Bool → Option Op → Bridge → Prop} (hr : r ≠ .error .value_error)
    (hQ : ∀ b, (r = .ok false → b = false) → Q b fault s) : wp (cleanup_removal r) Q E fault s := by
  cases r with
  | ok b => exact hQ b fun h => Except.ok.inj h
  | error e =>
    cases e with
    | value_error => exact absurd rfl hr
    | os_error => exact hQ true fun h => by cases h
    | timeout_expired => exact hQ true fun h => by cases h

theorem wp_cleanup_restart {r : Except Exc Unit} {Q : Bool → Option Op → Bridge → Prop}
    (hE : r = .error .value_error → E .value_error s) (hQ : ∀ b, (r = .ok () → b = false) → Q b fault s) :
    wp (cleanup_restart r) Q E fault s := by
  cases r with
  | ok => exact hQ false fun _ => rfl
  | error e =>
    cases e with
    | value_error => exact hE rfl
    | bridge_error reason => exact hQ true fun h => by cases h
    | os_error => exact hQ true fun h => by cases h
    | timeout_expired => exact hQ true fun h => by cases h

/-- The text that was there is put back. -/
theorem Disk.set_overlay_set_overlay {temporary : List Str} (htext : d.overlay = some text) :
    (d.set_overlay temporary).set_overlay text = d := by
  obtain ⟨root, staging, backup, bindtab⟩ := d
  obtain ⟨⟨manifest, payload, marker, overlay⟩, hroot, hoverlay⟩ := Option.bind_eq_some_iff.mp htext
  cases hroot
  cases hoverlay
  rfl

/-- A probe that passes is not spoiled by what comes after it. -/
theorem passed_of_passes {record : Record} {removal restart : Bool} (hpasses : p.Passes)
    (hrecord : p.result true = .ok record) (hremoval : p.removal_after = .ok false → removal = false)
    (hrestart : p.restart_after = .ok () → restart = false) :
    (if (p.undiagnosed true || removal || restart) = true then record.spoiled else record).passed = true := by
  obtain ⟨⟨record', hrecord', hpassed⟩, hafter, hafter'⟩ := hpasses
  cases Except.ok.inj (hrecord.symm.trans hrecord')
  have hdiagnosed : p.undiagnosed true = false := by
    unfold Probe.undiagnosed
    rw [hrecord]
    dsimp only
    rw [hpassed]
    rfl
  rw [hdiagnosed, hremoval hafter, hrestart hafter']
  exact hpassed

/-- The properties are restored, and the result is the most recent one. -/
theorem wp_verify_one_abi {Q : Record → Option Op → Bridge → Prop} (htext : s.disk.overlay = some text)
    (hremoval : p.removal_after ≠ .error .value_error)
    (hE : ∀ e, p.Raises → E e { s with latest := update s.latest abi none })
    (hQ : ∀ record, (p.Passes → record.passed = true) →
      Q record fault { s with latest := update s.latest abi (some record) }) :
    wp (verify_one_abi m abi p) Q E fault s := by
  unfold verify_one_abi
  rw [wp_bind, set_latest, wp_modify, wp_bind, wp_read]
  dsimp only
  rw [htext, Option.map_some, write_file_in_place, wp_bind, wp_modify, wp_bind]
  refine wp_cleanup_removal hremoval fun removal hremoval => ?_
  rw [wp_bind, write_file_in_place, wp_modify]
  dsimp only
  rw [Disk.set_overlay_set_overlay htext, Option.isSome_some, if_pos rfl, wp_bind]
  refine wp_cleanup_restart (fun h => hE _ (Or.inr h)) fun restart hrestart => ?_
  cases hresult : p.result true with
  | error e => exact hE e (Or.inl ⟨e, hresult⟩)
  | ok record =>
    rw [conclude, wp_bind, set_latest, wp_modify]
    dsimp only
    rw [update_idem]
    exact hQ _ fun hpasses => passed_of_passes hpasses hresult hremoval hrestart

/-! ## Probing all of them -/

/-- The manifest with new results. -/
abbrev Manifest.verified (m : Manifest) (results : Results) : Manifest := { m with verification := results }

theorem passed_update_self {results : Results} {record : Record} :
    (m.verified (update results abi (some record))).passed abi = record.passed := by
  unfold Manifest.passed Manifest.verified
  dsimp only
  rw [update_self]

theorem passed_update_of_ne {results : Results} {record : Record} {abi' : Abi} (hne : abi' ≠ abi) :
    (m.verified (update results abi (some record))).passed abi' = (m.verified results).passed abi' := by
  unfold Manifest.passed Manifest.verified
  dsimp only
  rw [update_of_ne hne]

/-- What the loop keeps. An ABI that has passed before still does, when its probe passes again. -/
structure Progress (m : Manifest) (probe : Abi → Probe) (d : Disk) (results : Results) (s : Bridge) : Prop where
  disk : s.disk = d
  tracked : (m.verified results).Tracked s.latest
  kept : (∀ abi ∈ m.detected_abis, m.passed abi = true → (probe abi).Passes) →
    ∀ abi, m.passed abi = true → (m.verified results).passed abi = true

variable {probe : Abi → Probe} {results : Results} {record : Record}

theorem Progress.probed (h : Progress m probe d results s) (habi : abi ∈ m.detected_abis)
    (hrecord : (probe abi).Passes → record.passed = true) :
    Progress m probe d (update results abi (some record)) { s with latest := update s.latest abi (some record) } := by
  refine ⟨h.disk, fun abi' hpassed => ?_, fun hpasses abi' hpassed => ?_⟩
  · by_cases hne : abi' = abi
    · subst hne
      refine ⟨habi, ?_⟩
      dsimp only
      rw [update_self, update_self]
    · rw [passed_update_of_ne hne] at hpassed
      dsimp only
      rw [update_of_ne hne, update_of_ne hne]
      exact h.tracked abi' hpassed
  · by_cases hne : abi' = abi
    · subst hne
      rw [passed_update_self]
      exact hrecord (hpasses abi' habi hpassed)
    · rw [passed_update_of_ne hne]
      exact h.kept hpasses abi' hpassed

/-- An exception is one of a probe. -/
theorem wp_verify_abis {Q : Results × List Abi → Option Op → Bridge → Prop} {abis : List Abi}
    (htext : d.overlay = some text)
    (hremoval : ∀ abi ∈ m.detected_abis, (probe abi).removal_after ≠ .error .value_error)
    (hE : ∀ e latest, ∀ abi ∈ m.detected_abis, (probe abi).Raises → E e ⟨d, latest⟩)
    (hQ : ∀ r s, Progress m probe d r.1 s → Q r fault s) : ∀ {results : Results} {failures : List Abi} {s : Bridge},
    (∀ abi ∈ abis, abi ∈ m.detected_abis) → Progress m probe d results s →
      wp (verify_abis m probe abis results failures) Q E fault s := by
  induction abis with
  | nil => exact fun _ h => hQ _ _ h
  | cons abi abis ih =>
    intro results failures s habis h
    have habi : abi ∈ m.detected_abis := habis abi List.mem_cons_self
    have htext' : s.disk.overlay = some text := by
      rw [h.disk]
      exact htext
    rw [verify_abis, wp_bind]
    refine wp_verify_one_abi htext' (hremoval abi habi) (fun e hraises => ?_) fun record hrecord => ?_
    · rw [h.disk]
      exact hE e _ abi habi hraises
    · rw [wp_ite]
      refine ⟨fun _ => hQ _ _ (h.probed habi hrecord), fun _ => ?_⟩
      exact ih (fun abi' h' => habis abi' (List.mem_cons_of_mem _ h')) (h.probed habi hrecord)

end Probing

/-! ## Verifying -/

section Verifying

variable {v : Verification} {Q : Unit → Option Op → Bridge → Prop} {E : Exc → Bridge → Prop}

theorem wp_save {m : Manifest} (hQ : Q () none { s with disk := s.disk.saved m }) :
    wp (onDisk (save_manifest m)) Q E none s := by
  rw [onDisk, wp_zoom]
  refine wp_file_bind (fun h => by cases h) fun _ => ?_
  exact wp_file (fun h => by cases h) fun _ => hQ

theorem wp_overlay {m : Manifest} (hQ : Q () none { s with disk := s.disk.overlaid args m }) :
    wp (onDisk (write_property_overlay args m)) Q E none s := by
  rw [onDisk, wp_zoom]
  refine wp_file_bind (fun h => by cases h) fun _ => ?_
  refine wp_file_bind (fun h => by cases h) fun _ => ?_
  exact wp_file (fun h => by cases h) fun _ => hQ

theorem disable_none (d : Disk) : disable none d = .ok ((), none, d.disabled) := by
  obtain ⟨root, staging, backup, bindtab⟩ := d
  cases root with
  | none => rfl
  | some root =>
    obtain ⟨manifest, payload, marker, overlay⟩ := root
    cases manifest <;> rfl

/-- It always raises, when it has been disabled. -/
theorem wp_give_up (hE : ∀ e, E e { s with disk := s.disk.disabled }) : wp (give_up v) Q E none s := by
  unfold give_up
  rw [wp_bind, onDisk, wp_zoom, wp, disable_none]
  dsimp only
  rw [wp_bind]
  exact wp_ofExcept (fun e _ => hE e) fun _ _ => hE _

theorem wp_baseline_failed {e : Exc} (h : s.Sound args) (hm : s.disk.manifest = some m)
    (hE : ∀ e s, s.Sound args → E e s) : wp (baseline_failed m v e) Q E none s := by
  cases e with
  | bridge_error reason =>
    unfold baseline_failed
    rw [wp_ite, wp_bind]
    refine ⟨fun _ => hE _ s h, fun _ => ?_⟩
    rw [wp_bind]
    apply wp_save
    rw [Disk.saved_self hm]
    exact wp_give_up fun e => hE e _ h.disabled
  | os_error => exact hE _ s h
  | timeout_expired => exact hE _ s h
  | value_error => exact hE _ s h

/-- No ABI has passed before. -/
def Manifest.Fresh (m : Manifest) : Prop := ∀ abi, m.passed abi = false

theorem Manifest.Fresh.tracked (h : m.Fresh) (latest : Abi → Option Record) : m.Tracked latest := by
  intro abi hpassed
  rw [h abi] at hpassed
  cases hpassed

/-- What was there before is right when it says nothing. -/
theorem wp_activation_failed {m' : Manifest} {e : Exc} (h : s.Sound args) (hm : s.disk.manifest = some m')
    (horiginal : m.original_properties = parse_properties args.original) (hfresh : e = .value_error ∨ m.Fresh)
    (hE : ∀ e s, s.Sound args → E e s) : wp (activation_failed args m v e) Q E none s := by
  have hrestore : m.Fresh → wp (do
      onDisk (save_manifest m)
      activate_persistent_properties args m v.reactivation
      Fallible.raise (.bridge_error .other)) Q E none s := by
    intro hfresh
    have hm' : (s.disk.saved m).manifest = some m := Disk.saved_manifest hm
    have hrecorded : Bridge.Recorded args { s with disk := s.disk.saved m } :=
      Bridge.recorded_of_manifest h.leftovers hm' horiginal (hfresh.tracked s.latest)
    rw [wp_bind]
    apply wp_save
    rw [activate_persistent_properties, wp_bind, wp_bind]
    apply wp_overlay
    exact wp_ofExcept (fun e _ => hE e _ (hrecorded.overlaid hm')) fun _ _ => hE _ _ (hrecorded.overlaid hm')
  cases e with
  | value_error => exact hE _ s h
  | bridge_error reason => exact hrestore (hfresh.resolve_left fun h' => by cases h')
  | os_error => exact hrestore (hfresh.resolve_left fun h' => by cases h')
  | timeout_expired => exact hrestore (hfresh.resolve_left fun h' => by cases h')

/-- The results of the probes become active, or what was there before does again. -/
theorem commit_spec {results : Results} {failures : List Abi} {cleanup_error : Bool}
    (hn : s.disk.NoLeftovers) (hm : s.disk.manifest = some m)
    (horiginal : m.original_properties = parse_properties args.original)
    (htext : s.disk.overlay = some (overlay_text args.original m)) (htracked : (m.verified results).Tracked s.latest)
    (hkept : cleanup_error = true ∨ args.data_dir = ".".toList →
      ∀ abi, m.passed abi = true → (m.verified results).passed abi = true)
    (hactivation : ∀ e, v.activation = .error e → e = .value_error ∨ m.Fresh) :
    wp (commit args m v results failures cleanup_error) (fun _ _ => Bridge.Sound args) (fun _ => Bridge.Sound args)
      none s := by
  have hm' : (s.disk.saved (m.verified results)).manifest = some (m.verified results) := Disk.saved_manifest hm
  have hrecorded : Bridge.Recorded args { s with disk := s.disk.saved (m.verified results) } :=
    Bridge.recorded_of_manifest hn hm' horiginal htracked
  have hsaved : cleanup_error = true ∨ args.data_dir = ".".toList →
      Bridge.Sound args { s with disk := s.disk.saved (m.verified results) } := fun hor =>
    hrecorded.sound_of_covers hm' ((Disk.saved_overlay _).trans htext) ⟨m, rfl, horiginal, hkept hor⟩
  unfold commit
  rw [wp_bind]
  apply wp_save
  rw [wp_ite]
  refine ⟨fun hcleanup => hsaved (Or.inl hcleanup), fun _ => ?_⟩
  rw [wp_ite]
  constructor
  · refine fun _ => wp_give_up fun _ => ?_
    by_cases hdir : args.data_dir = ".".toList
    · exact (hsaved (Or.inr hdir)).disabled
    · exact hrecorded.disabled.sound_of_unbound hdir ⟨s.disk.bindtab, rfl⟩
  intro _
  rw [wp_bind, wp_rescue, activate_persistent_properties, wp_bind]
  apply wp_overlay
  have hsound := hrecorded.overlaid hm'
  refine wp_ofExcept (fun e he => ?_) fun _ _ => ?_
  · have hm' : (Disk.overlaid args (m.verified results) (s.disk.saved (m.verified results))).manifest =
        some (m.verified results) := (Disk.overlaid_manifest _).trans hm'
    exact wp_activation_failed hsound hm' horiginal (hactivation e he) fun _ _ h => h
  · rw [wp_ite]
    exact ⟨fun _ => hsound, fun _ => hsound⟩

/-- The part of `verify` after the baseline. When no ABI has passed before, nothing in the manifest may be wrong. -/
theorem probes_spec (h : s.Sound args) (hm : s.disk.manifest = some m)
    (htext : s.disk.overlay = some (overlay_text args.original m))
    (hremoval : ∀ abi ∈ m.detected_abis, (v.probe abi).removal_after ≠ .error .value_error)
    (hcases : m.Fresh ∨ v.Settles args m) :
    wp (do
      let ((results, failures), cleanup_error) ← Fallible.ensure
        (verify_abis m v.probe m.detected_abis m.verification [])
        (Fallible.ofExcept (v.remove_file.mapError GuestExc.toExc))
      commit args m v results failures cleanup_error) (fun _ _ => Bridge.Sound args) (fun _ => Bridge.Sound args)
      none s := by
  have horiginal := h.original m hm
  have hfresh : m.Fresh → ∀ latest, Bridge.Sound args ⟨s.disk, latest⟩ := by
    intro hfresh latest
    have hrecorded : Bridge.Recorded args ⟨s.disk, latest⟩ :=
      Bridge.recorded_of_manifest h.leftovers hm horiginal (hfresh.tracked latest)
    exact hrecorded.sound_of_covers hm htext (Manifest.covers_self horiginal)
  rw [wp_bind, wp_ensure]
  refine wp_verify_abis htext hremoval ?_ ?_ (fun _ h' => h') ⟨rfl, h.latest m hm, fun _ _ h' => h'⟩
  · intro e latest abi habi hraises
    rcases hcases with hnone | hsettles
    · exact wp_ofExcept (fun _ _ => hfresh hnone latest) fun _ _ => hfresh hnone latest
    · exact absurd hraises (hsettles.probe abi habi)
  · rintro ⟨results, failures⟩ ⟨disk, latest⟩ ⟨rfl, htracked, hkept⟩
    refine wp_ofExcept (fun e he => ?_) fun cleanup_error hcleanup => ?_
    · rcases hcases with hnone | hsettles
      · exact hfresh hnone latest
      · cases hremove : v.remove_file with
        | error e => exact absurd hremove (hsettles.remove_file e)
        | ok b =>
          rw [hremove] at he
          cases he
    · have hremove : v.remove_file = .ok cleanup_error := by
        cases hremove : v.remove_file with
        | error e =>
          rw [hremove] at hcleanup
          cases hcleanup
        | ok b =>
          rw [hremove] at hcleanup
          cases hcleanup
          rfl
      refine commit_spec h.leftovers hm horiginal htext htracked (fun hor abi hpassed => ?_) ?_
      · rcases hcases with hnone | hsettles
        · rw [hnone abi] at hpassed
          cases hpassed
        · refine hkept (hor.elim (fun hreported => hsettles.reported ?_) hsettles.data_dir) abi hpassed
          rw [hremove, hreported]
      · intro e he
        rcases hcases with hnone | hsettles
        · exact Or.inr hnone
        · exact Or.inl (hsettles.activation e he)

theorem verify_spec (h : s.Sound args) (hc : s.Reliable args (.verify v)) :
    wp (verify args v) (fun _ _ => Bridge.Sound args) (fun _ => Bridge.Sound args) none s := by
  unfold verify
  rw [wp_bind, onDisk, wp_zoom]
  refine wp_load_manifest (fun _ => h) fun m hm => ?_
  rw [wp_ite, wp_bind]
  refine ⟨fun _ => h, fun henabled => ?_⟩
  have henabled : m.enabled = true := by simpa using henabled
  have hsound : Bridge.Sound args { s with disk := s.disk.overlaid args m } := h.overlaid hm
  have hm' : (s.disk.overlaid args m).manifest = some m := (Disk.overlaid_manifest s.disk).trans hm
  rw [wp_bind]
  apply wp_overlay
  rw [wp_bind, wp_rescue]
  refine wp_ofExcept (fun e _ => wp_baseline_failed hsound hm' fun _ _ h' => h') fun _ hbaseline => ?_
  rw [wp_bind]
  refine wp_ofExcept (fun _ _ => hsound) fun _ hprobe => ?_
  obtain ⟨hremoval, hsettles⟩ := hc m hm henabled hbaseline hprobe
  refine probes_spec hsound hm' (Disk.overlaid_overlay hm) hremoval ?_
  by_cases hpassed : ∃ abi ∈ m.detected_abis, m.passed abi = true
  · exact Or.inr (hsettles hpassed)
  · refine Or.inl fun abi => eq_false_of_ne_true fun habi => hpassed ⟨abi, ?_, habi⟩
    exact (h.latest m hm abi habi).1

end Verifying

/-! ## Runs -/

theorem step_sound {a : Action} (h : s.Sound args) (hc : s.Reliable args a)
    (hstep : (bridgeMachine args others).step s a = some s') : s'.Sound args := by
  cases a with
  | command l =>
    obtain ⟨hwrites, rfl⟩ := of_guard_eq_some hstep
    exact h.command hwrites
  | verify v =>
    cases Option.some.inj hstep
    exact wp_final (verify_spec h hc)

theorem init_sound (args : Args) (others : List Str) : (bridgeMachine args others).init.Sound args :=
  (Bridge.recorded_of_no_manifest (fun _ => ⟨rfl, rfl⟩) rfl).sound_of_no_overlay rfl

/-- In every run in which no cleanup output is unreadable and no new result is lost, only verified ABIs are
advertised. -/
theorem truthful_of_reliable (args : Args) (others : List Str) (actions : List Action)
    (h : (bridgeMachine args others).AllSteps (Bridge.Reliable args) (bridgeMachine args others).init actions) :
    (bridgeMachine args others).AllStates (Bridge.Truthful args) (bridgeMachine args others).init actions :=
  Machine.allStates_of_allSteps (fun _ _ _ hs hc hstep => step_sound hs hc hstep) (fun _ hs => hs.truthful)
    (init_sound args others) h

def exampleProbe (outcome : Outcome) : Probe where
  restart := .ok ()
  boot_diagnostics := true
  advertised := .ok true
  removal := .ok false
  install := .ok none
  outcome := .ok outcome
  diagnostics := true
  removal_after := .ok false
  restart_after := .ok ()

def exampleVerification (outcome : Outcome) (reported : Bool) : Verification where
  baseline := .ok ()
  baseline_diagnostics := true
  recovery := .ok ()
  probe_apk := .ok ()
  probe _ := exampleProbe outcome
  remove_file := .ok reported
  activation := .ok ()
  reactivation := .ok ()

theorem reliable_exampleVerification (outcome : Outcome) :
    s.Reliable exampleArgs (.verify (exampleVerification outcome false)) := by
  intro m _ _ _ _
  refine ⟨(fun _ _ h => by cases h), fun _ => ⟨?_, ?_, ?_, ?_, ?_⟩⟩
  · rintro _ _ (⟨_, h⟩ | h)
    · cases h
    · cases h
  · exact fun _ h => by cases h
  · exact fun h => by cases h
  · exact fun h => absurd h (by decide)
  · exact fun _ h => by cases h

/-- A translator that works at first, and fails when it is verified again. -/
theorem truthful_of_regression :
    (bridgeMachine exampleArgs []).AllStates (Bridge.Truthful exampleArgs) (bridgeMachine exampleArgs []).init
      [.command ⟨1, .install none (some exampleBuilt), none⟩, .command ⟨2, .enable none, none⟩,
        .verify (exampleVerification .jni_succeeded false), .verify (exampleVerification .jni_failed false)] := by
  apply truthful_of_reliable
  refine ⟨trivial, fun _ _ => ⟨trivial, fun _ _ => ⟨reliable_exampleVerification _, fun _ _ => ?_⟩⟩⟩
  exact ⟨reliable_exampleVerification _, fun _ _ => trivial⟩

/-- The same, but the probe file cannot be removed the second time. The manifest is saved, and the overlay is not
written. -/
theorem not_always_truthful : ¬∀ args others actions,
    (bridgeMachine args others).AllStates (Bridge.Truthful args) (bridgeMachine args others).init actions := by
  intro h
  obtain ⟨s, hs⟩ : ∃ s, (bridgeMachine exampleArgs []).exec (bridgeMachine exampleArgs []).init
      [.command ⟨1, .install none (some exampleBuilt), none⟩, .command ⟨2, .enable none, none⟩,
        .verify (exampleVerification .jni_succeeded false), .verify (exampleVerification .jni_failed true)] =
      some s := ⟨_, rfl⟩
  have htruthful := (h _ _ _).last hs
  cases hs
  have hline : Advert.In (assignment .isa_arm64 "x86_64".toList) (.isa Key.isa_arm64.name) :=
    ⟨by decide, _, property_assignment _ _⟩
  obtain ⟨line, hmem, -⟩ | ⟨m, abi, record, hm, hbelongs, hrecord, hpassed, -⟩ :=
    htruthful List.mem_cons_self _ rfl _ ⟨_, by decide, hline⟩
  · cases hmem
  · cases hm
    cases abi with
    | arm64_v8a =>
      cases hrecord
      cases hpassed
    | armeabi_v7a =>
      have hkey : Key.isa_arm64.name = Key.isa_arm.name := hbelongs
      exact absurd hkey (by decide)

end AnboxReboxed.Scripts.NativeBridge
