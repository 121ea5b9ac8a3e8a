import AnboxReboxed.Scripts.NativeBridge

/-!
# Proofs: rules for the commands of the native bridge

What has to hold before a command, for something to hold after it. What a command does before it changes something may
fail as it likes, and a rollback that reaches far enough leaves just the state before.
-/

namespace AnboxReboxed.Scripts.NativeBridge

open AnboxReboxed.Lib Function Fallible

variable {args : Args} {d : Disk} {fault : Option Op} {pid : Nat} {α : Type} {Q : α → Option Op → Disk → Prop}
  {E : Exc → Disk → Prop}

/-! ## Rules for the operations -/

theorem wp_file_bind {o : Op} {f : Disk → Disk} {k : Unit → Fs α} (hE : fault = some o → E .os_error d)
    (hQ : fault ≠ some o → wp (k ()) Q E fault (f d)) : wp (file o f >>= k) Q E fault d := wp_op_bind hE hQ

theorem wp_skip_bind {o : Op} {k : Unit → Fs α} (hE : E .os_error d) (hQ : fault ≠ some o → wp (k ()) Q E fault d) :
    wp (skip o >>= k) Q E fault d := wp_file_bind (fun _ => hE) hQ

theorem wp_file {o : Op} {f : Disk → Disk} {Q : Unit → Option Op → Disk → Prop} (hE : fault = some o → E .os_error d)
    (hQ : fault ≠ some o → Q () fault (f d)) : wp (file o f) Q E fault d := by
  rw [file, wp_op]
  exact ⟨hE, hQ⟩

/-- The bindtab is the new one when the failure comes last. -/
theorem wp_atomic_bindtab {lines : List Str} {Q : Unit → Option Op → Disk → Prop}
    (hbefore : ∀ o ∈ [Op.bindtab_mkdir, .bindtab_write, .bindtab_replace], fault = some o → E .os_error d)
    (hafter : fault = some .bindtab_fsync → E .os_error { d with bindtab := lines })
    (hQ : fault ≠ some .bindtab_fsync → Q () fault { d with bindtab := lines }) :
    wp (atomic_bindtab lines) Q E fault d := by
  refine wp_file_bind (hbefore _ (by decide)) fun _ => ?_
  refine wp_file_bind (hbefore _ (by decide)) fun _ => ?_
  refine wp_file_bind (hbefore _ (by decide)) fun _ => ?_
  exact wp_file hafter hQ

theorem wp_current_bindtab_bind {k : List Str → Fs α} (hE : E .os_error d) (hQ : wp (k d.bindtab) Q E fault d) :
    wp (current_bindtab >>= k) Q E fault d := by
  rw [wp_bind]
  exact wp_skip_bind hE fun _ => hQ

theorem wp_find_manifest_bind {k : Option Manifest → Fs α} (hE : E .os_error d) (hQ : wp (k d.manifest) Q E fault d) :
    wp (find_manifest >>= k) Q E fault d := by
  rw [wp_bind]
  unfold find_manifest
  rw [wp_bind, wp_read]
  by_cases hsome : d.manifest.isSome = true
  · rw [if_pos hsome]
    exact wp_skip_bind hE fun _ => hQ
  · rw [if_neg hsome]
    exact hQ

theorem wp_save_manifest {manifest : Manifest} {Q : Unit → Option Op → Disk → Prop} (hE : E .os_error d)
    (hQ : Q () fault (d.setRoot fun root => { root with manifest := some manifest })) :
    wp (save_manifest manifest) Q E fault d := wp_skip_bind hE fun _ => wp_file (fun _ => hE) fun _ => hQ

/-! ## Disabling -/

/-- The state after `disable`. -/
def Disk.disabled (d : Disk) : Disk where
  root := d.root.map fun root =>
    { root with manifest := root.manifest.map fun m => { m with enabled := false }, marker := none }
  staging := d.staging
  backup := d.backup
  bindtab := without_bridge_bindings d.bindtab

/-- The part of `disable` that is rolled back. -/
theorem wp_disable_attempt {m : Option Manifest} {lines : List Str} {Q : Unit → Option Op → Disk → Prop}
    (hbefore : wp (save_if_some m) (fun _ _ => E .os_error) E none d)
    (hbindtab : (∃ o ∈ disable_ops, fault = some o) →
      wp (save_if_some m) (fun _ _ => E .os_error) E none { d with bindtab := lines })
    (hmarker : (∃ o ∈ disable_ops, fault = some o) →
      wp (save_if_some m) (fun _ _ => E .os_error) E none (set_marker none { d with bindtab := lines }))
    (hQ : Q () fault (set_marker none { d with bindtab := lines })) :
    wp (attempt (do
      atomic_bindtab lines
      file .marker_unlink (set_marker none)
      if m.isSome then skip .marker_fsync) (save_if_some m)) Q E fault d := by
  rw [wp_attempt, wp_bind]
  apply wp_atomic_bindtab (fun _ _ _ => hbefore) (fun hf => hbindtab ⟨_, by decide, hf⟩)
  intro _
  apply wp_file_bind (fun hf => hbindtab ⟨_, by decide, hf⟩)
  intro _
  by_cases hm : m.isSome = true
  · rw [if_pos hm]
    exact wp_file (fun hf => hmarker ⟨_, by decide, hf⟩) fun _ => hQ
  · rw [if_neg hm]
    exact hQ

/-- A failure of `disable` leaves the state before, unless it comes late and there was something to disable. -/
theorem wp_disable {Q : Unit → Option Op → Disk → Prop} (hE : E .os_error d)
    (hlate : (∃ o ∈ disable_ops, fault = some o) →
      without_bridge_bindings d.bindtab = d.bindtab ∧ d.marker = none) (hQ : Q () fault d.disabled) :
    wp disable Q E fault d := by
  unfold disable
  refine wp_find_manifest_bind hE (wp_current_bindtab_bind hE ?_)
  rw [wp_bind]
  obtain ⟨root, staging, backup, bindtab⟩ := d
  cases root with
  | none =>
    have hback : (∃ o ∈ disable_ops, fault = some o) →
        E .os_error ⟨none, staging, backup, without_bridge_bindings bindtab⟩ := by
      intro hf
      have hlines : without_bridge_bindings bindtab = bindtab := (hlate hf).1
      rw [hlines]
      exact hE
    exact wp_disable_attempt hE hback hback hQ
  | some root =>
    obtain ⟨manifest, payload, marker, overlay⟩ := root
    have hback : (∃ o ∈ disable_ops, fault = some o) →
        E .os_error ⟨some ⟨manifest, payload, marker, overlay⟩, staging, backup, without_bridge_bindings bindtab⟩ := by
      intro hf
      have hlines : without_bridge_bindings bindtab = bindtab := (hlate hf).1
      rw [hlines]
      exact hE
    have hback' : (∃ o ∈ disable_ops, fault = some o) →
        E .os_error ⟨some ⟨manifest, payload, none, overlay⟩, staging, backup, without_bridge_bindings bindtab⟩ := by
      intro hf
      have hmarker : marker = none := (hlate hf).2
      rw [← hmarker]
      exact hback hf
    cases manifest with
    | none => exact wp_disable_attempt hE hback hback' hQ
    | some m =>
      apply wp_save_manifest hE
      exact wp_disable_attempt hE hback hback' hQ

/-! ## Enabling -/

/-- The overlay is written. -/
def Disk.overlaid (args : Args) (m : Manifest) (d : Disk) : Disk :=
  d.setRoot fun root => { root with overlay := some (overlay_text args.original m) }

/-- The state after `enable`. -/
def Disk.enabled (args : Args) (m : Manifest) (d : Disk) : Disk :=
  { d.setRoot fun root =>
      { root with
        manifest := some { m with enabled := true }
        marker := some (marker_value m.backend_kind)
        overlay := some (overlay_text args.original m) } with
    bindtab := without_bridge_bindings d.bindtab ++ [args.binding] }

theorem wp_load_manifest {Q : Manifest → Option Op → Disk → Prop} (hE : ∀ e, E e d)
    (hQ : ∀ m, d.manifest = some m → Q m fault d) : wp load_manifest Q E fault d := by
  refine wp_find_manifest_bind (hE _) ?_
  cases hm : d.manifest with
  | none => exact hE _
  | some m => exact hQ m hm

theorem wp_load_manifest_bind {k : Manifest → Fs α} (hE : ∀ e, E e d)
    (hQ : ∀ m, d.manifest = some m → wp (k m) Q E fault d) : wp (load_manifest >>= k) Q E fault d := by
  rw [wp_bind]
  exact wp_load_manifest hE hQ

theorem wp_check_bind {c : Prop} [Decidable c] {e : Exc} {k : Unit → Fs α} (hE : E e d)
    (hQ : ¬c → wp (k ()) Q E fault d) : wp (if c then raise e >>= k else k ()) Q E fault d := by
  rw [wp_ite]
  exact ⟨fun _ => hE, hQ⟩

theorem wp_skip_if_bind {c : Prop} [Decidable c] {o : Op} {k : Unit → Fs α} (hE : E .os_error d)
    (hQ : wp (k ()) Q E fault d) : wp (if c then skip o >>= k else k ()) Q E fault d := by
  rw [wp_ite]
  exact ⟨fun _ => wp_skip_bind hE fun _ => hQ, fun _ => hQ⟩

theorem wp_write_property_overlay_bind {m : Manifest} {k : Unit → Fs α} (hE : E .os_error d)
    (hQ : wp (k ()) Q E fault
      (d.setRoot fun root => { root with overlay := some (overlay_text args.original m) })) :
    wp (write_property_overlay args m >>= k) Q E fault d := by
  rw [wp_bind]
  refine wp_skip_bind hE fun _ => wp_skip_bind hE fun _ => wp_file (fun _ => hE) fun _ => hQ

/-- A failure of `enable` leaves the overlay that was written, and nothing else, unless it takes away a marker that was
there before. -/
theorem wp_enable {backend : Option Backend} {Q : Unit → Option Op → Disk → Prop} (hE : ∀ e, E e d)
    (hover : ∀ m, d.manifest = some m → E .os_error (d.overlaid args m)) (hlast : fault ≠ some .bindtab_fsync)
    (hmarker : (∃ o ∈ enable_ops, fault = some o) → d.marker = none)
    (hQ : ∀ m, d.manifest = some m → Q () fault (d.enabled args m)) : wp (enable args backend) Q E fault d := by
  unfold enable
  refine wp_load_manifest_bind hE fun m hm => ?_
  apply wp_check_bind (hE _)
  intro _
  refine wp_current_bindtab_bind (hE _) (wp_skip_bind (hE _) fun _ => wp_skip_if_bind (hE _) ?_)
  refine wp_write_property_overlay_bind (hE _) (wp_skip_bind (hover m hm) fun _ => ?_)
  rw [wp_bind]
  apply wp_save_manifest (hover m hm)
  have hover := hover m hm
  have hQ := hQ m hm
  obtain ⟨root, staging, backup, bindtab⟩ := d
  obtain ⟨⟨manifest, payload, marker, overlay⟩, hroot, hm⟩ := Option.bind_eq_some_iff.mp hm
  cases hroot
  cases hm
  -- The rollback takes the marker away, and puts the manifest back.
  have hrollback : (∃ o ∈ enable_ops, fault = some o) →
      E .os_error ⟨some ⟨some m, payload, none, some (overlay_text args.original m)⟩, staging, backup, bindtab⟩ := by
    intro hf
    have hmarker : marker = none := hmarker hf
    rw [← hmarker]
    exact hover
  rw [wp_attempt]
  refine wp_file_bind (fun hf => hrollback ⟨_, by decide, hf⟩) fun _ => ?_
  refine wp_file_bind (fun hf => hrollback ⟨_, by decide, hf⟩) fun _ => ?_
  refine wp_file_bind (fun hf => hrollback ⟨_, by decide, hf⟩) fun _ => ?_
  refine wp_file_bind (fun hf => hrollback ⟨_, by decide, hf⟩) fun _ => ?_
  apply wp_atomic_bindtab
  · intro o ho hf
    refine hrollback ⟨o, ?_, hf⟩
    exact List.mem_append_right [Op.marker_open, .marker_write, .marker_chmod, .marker_fsync] ho
  · exact fun hf => absurd hf hlast
  · exact fun _ => hQ

/-! ## Installing -/

/-- The state after the exception handler of the installers. -/
def undone (pid : Nat) (original_bindtab : Option (List Str)) (d : Disk) : Disk where
  root := if (d.backup pid).isSome ∧ d.root.isNone then d.backup pid else d.root
  staging := update d.staging pid none
  backup := if (d.backup pid).isSome ∧ d.root.isNone then update d.backup pid none else d.backup
  bindtab := original_bindtab.getD d.bindtab

theorem wp_undo_install {original_bindtab : Option (List Str)} {Q : Unit → Option Op → Disk → Prop}
    (h : Q () none (undone pid original_bindtab d)) : wp (undo_install pid original_bindtab) Q E none d := by
  have hnone : ∀ {o : Op} {P : Prop}, (none : Option Op) = some o → P := fun h => by cases h
  have hbindtab : ∀ {x : Disk}, Q () none { x with bindtab := original_bindtab.getD x.bindtab } →
      wp (restore_bindtab original_bindtab) Q E none x := by
    intro x hx
    cases original_bindtab with
    | none => exact hx
    | some lines => exact wp_atomic_bindtab (fun _ _ hf => hnone hf) (fun hf => hnone hf) fun _ => hx
  have hroot : ∀ {x : Disk}, Q () none { undone pid original_bindtab x with staging := x.staging } →
      wp (restore_root pid >>= fun _ => restore_bindtab original_bindtab) Q E none x := by
    intro x hx
    rw [wp_bind, restore_root, wp_bind, wp_read]
    unfold undone at hx
    by_cases hmissing : (x.backup pid).isSome = true ∧ x.root.isNone = true
    · rw [if_pos hmissing, if_pos hmissing] at hx
      have hif : (((id x).backup pid).isSome = true ∧ (id x).root.isNone = true) := hmissing
      rw [if_pos hif]
      exact wp_file (fun hf => hnone hf) fun _ => hbindtab hx
    · rw [if_neg hmissing, if_neg hmissing] at hx
      have hif : ¬(((id x).backup pid).isSome = true ∧ (id x).root.isNone = true) := hmissing
      rw [if_neg hif]
      exact hbindtab hx
  unfold undo_install
  rw [wp_bind, remove_staging, wp_bind, wp_read]
  by_cases hstaging : (d.staging pid).isSome = true
  · rw [if_pos hstaging]
    exact wp_file (fun hf => hnone hf) fun _ => hroot h
  · rw [if_neg hstaging]
    have hsame : update d.staging pid none = d.staging :=
      update_eq_self_iff.mpr (Option.not_isSome_iff_eq_none.mp hstaging).symm
    unfold undone at h
    rw [hsame] at h
    exact hroot h

/-- What comes before the manifest of a new installation works on the staging directory. -/
def Prepares (pid : Nat) (prepare : Fs Unit) : Prop :=
  ∀ {d : Disk} {root : Root} {fault : Option Op} {Q : Unit → Option Op → Disk → Prop} {E : Exc → Disk → Prop},
    d.staging pid = some root → E .os_error d →
    (∀ root', root'.marker = root.marker → root'.overlay = root.overlay →
      Q () fault { d with staging := update d.staging pid (some root') }) →
    wp prepare Q E fault d

theorem prepares_pure (pid : Nat) : Prepares pid (pure ()) := by
  intro d root fault Q E hroot _ hQ
  have h := hQ root rfl rfl
  rw [← hroot, update_eq_self] at h
  exact h

theorem prepares_build (pid : Nat) (payload : Payload) :
    Prepares pid (file .build fun d => { d with staging := update d.staging pid ((d.staging pid).map fun root =>
      { root with payload }) }) := by
  intro d root fault Q E hroot hE hQ
  refine wp_file (fun _ => hE) fun _ => ?_
  rw [hroot]
  exact hQ _ rfl rfl

/-- The staging directory is all that is to be undone. -/
theorem undone_staging (hn : d.NoLeftovers) {staging : Nat → Option Root} (hstaging : ∀ p ≠ pid, staging p = none)
    {lines : List Str} {original_bindtab : Option (List Str)} (hlines : original_bindtab.getD lines = d.bindtab) :
    undone pid original_bindtab { d with staging, bindtab := lines } = d := by
  have hmissing : ¬((d.backup pid).isSome = true ∧ d.root.isNone = true) := by
    rintro ⟨hbackup, -⟩
    rw [(hn pid).2] at hbackup
    cases hbackup
  have hgone : update staging pid none = d.staging := by
    funext p
    rw [(hn p).1]
    by_cases hp : p = pid
    · rw [hp, update_self]
    · rw [update_of_ne hp]
      exact hstaging p hp
  unfold undone
  rw [if_neg hmissing, if_neg hmissing, hlines, hgone]

/-- The directory that was set aside is put back. -/
theorem undone_backup (hn : d.NoLeftovers) {staging : Nat → Option Root} (hstaging : ∀ p ≠ pid, staging p = none)
    {lines : List Str} (hroot : d.root.isSome = true) :
    undone pid (some d.bindtab) ⟨none, staging, update d.backup pid d.root, lines⟩ = d := by
  have hmissing : (update d.backup pid d.root pid).isSome = true ∧ (none : Option Root).isNone = true := by
    rw [update_self]
    exact ⟨hroot, rfl⟩
  have hgone : update staging pid none = d.staging := by
    funext p
    rw [(hn p).1]
    by_cases hp : p = pid
    · rw [hp, update_self]
    · rw [update_of_ne hp]
      exact hstaging p hp
  have hbackup : update d.backup pid none = d.backup := update_eq_self_iff.mpr (hn pid).2.symm
  unfold undone
  rw [if_pos hmissing, if_pos hmissing]
  dsimp only
  rw [update_self, update_idem, hgone, hbackup]
  rfl

/-- The new directory takes the place of the old one. -/
theorem wp_transaction_commit {root : Root} {Q : Unit → Option Op → Disk → Prop} (hn : d.NoLeftovers)
    (hE : E .os_error d) (hfsync : fault ≠ some .fsync_state) (hrmtree : fault = some .rmtree_backup → d.root = none)
    (hQ : Q () fault { d with root := some root, bindtab := without_bridge_bindings d.bindtab }) :
    wp (attempt (do
      set_aside pid
      file .replace_root fun d => { d with root := d.staging pid, staging := update d.staging pid none }
      skip .fsync_state
      drop_backup pid) (undo_install pid (some d.bindtab))) Q E fault
      { d with staging := update d.staging pid (some root), bindtab := without_bridge_bindings d.bindtab } := by
  have hstaging : ∀ p ≠ pid, update d.staging pid (some root) p = none := by
    intro p hp
    rw [update_of_ne hp]
    exact (hn p).1
  have hempty : update d.staging pid none = d.staging := update_eq_self_iff.mpr (hn pid).1.symm
  have hundone : E .os_error (undone pid (some d.bindtab)
      { d with staging := update d.staging pid (some root), bindtab := without_bridge_bindings d.bindtab }) := by
    rw [undone_staging hn hstaging rfl]
    exact hE
  rw [wp_attempt, wp_bind, set_aside, wp_bind, wp_read]
  by_cases hroot : d.root.isSome = true
  · rw [if_pos hroot]
    apply wp_file (fun _ => wp_undo_install hundone)
    intro _
    apply wp_file_bind
    · intro _
      apply wp_undo_install
      rw [undone_backup hn hstaging hroot]
      exact hE
    intro _
    apply wp_file_bind (fun hf => absurd hf hfsync)
    intro _
    have hsome : (update d.backup pid d.root pid).isSome = true := by
      rw [update_self]
      exact hroot
    have hbackup : update d.backup pid none = d.backup := update_eq_self_iff.mpr (hn pid).2.symm
    rw [drop_backup, wp_bind, wp_read, if_pos hsome, wp_ignoring]
    dsimp only
    rw [update_self, update_idem, update_idem, hempty, hbackup]
    refine ⟨fun hf => ?_, fun _ => hQ⟩
    rw [hrmtree hf] at hroot
    cases hroot
  · rw [if_neg hroot]
    apply wp_file_bind (fun _ => wp_undo_install hundone)
    intro _
    apply wp_file_bind (fun hf => absurd hf hfsync)
    intro _
    have hnone : ¬(d.backup pid).isSome = true := by
      rw [(hn pid).2]
      exact Bool.false_ne_true
    rw [drop_backup, wp_bind, wp_read, if_neg hnone]
    dsimp only
    rw [update_self, update_idem, hempty]
    exact hQ

/-- A failure of an installer leaves the state before, unless it comes after the bindtab or the directory is another
one. -/
theorem wp_transaction {prepare : Fs Unit} {manifest : Manifest} {Q : Unit → Option Op → Disk → Prop}
    (hn : d.NoLeftovers) (hprepare : Prepares pid prepare) (hE : ∀ e, E e d) (hfsync : fault ≠ some .fsync_state)
    (hbindtab : fault = some .bindtab_fsync → without_bridge_bindings d.bindtab = d.bindtab)
    (hrmtree : fault = some .rmtree_backup → d.root = none)
    (hQ : ∀ root : Root, root.manifest = some manifest → root.marker = none → root.overlay = none →
      Q () fault { d with root := some root, bindtab := without_bridge_bindings d.bindtab }) :
    wp (transaction pid prepare manifest) Q E fault d := by
  have hothers : ∀ root, ∀ p ≠ pid, update d.staging pid (some root) p = none := by
    intro root p hp
    rw [update_of_ne hp]
    exact (hn p).1
  -- Before the bindtab is another one, only the staging directory is to be removed.
  have hundo : ∀ root, wp (undo_install pid none) (fun _ _ => E .os_error) E none
      { d with staging := update d.staging pid (some root) } := by
    intro root
    apply wp_undo_install
    rw [undone_staging hn (hothers root) rfl]
    exact hE _
  unfold transaction
  refine wp_skip_bind (hE _) fun _ => wp_current_bindtab_bind (hE _) ?_
  rw [wp_bind, wp_read]
  apply wp_check_bind (hE _)
  intro _
  rw [wp_bind, wp_attempt]
  apply wp_file_bind
  · intro _
    apply wp_undo_install
    rw [undone_staging hn (fun p _ => (hn p).1) rfl]
    exact hE _
  intro _
  rw [wp_bind]
  refine hprepare (update_self _ _ _) (hundo _) fun root hmarker hoverlay => ?_
  dsimp only
  rw [update_idem]
  refine wp_skip_bind (hundo root) fun _ => wp_file_bind (fun _ => hundo root) fun _ => ?_
  dsimp only
  rw [update_self, update_idem, Option.map_some]
  refine wp_skip_bind (hundo _) fun _ => ?_
  refine wp_atomic_bindtab (fun _ _ _ => hundo _) ?_ fun _ => ?_
  · intro hf
    apply wp_undo_install
    have hlines : (none : Option (List Str)).getD (without_bridge_bindings d.bindtab) = d.bindtab := hbindtab hf
    rw [undone_staging hn (hothers _) hlines]
    exact hE _
  · exact wp_transaction_commit hn (hE _) hfsync hrmtree (hQ _ rfl hmarker hoverlay)

/-- The same for `install`, whichever of the installers it takes. -/
theorem wp_install {backend : Option Backend} {source : Option Built} {Q : Unit → Option Op → Disk → Prop}
    (hn : d.NoLeftovers) (hE : ∀ e, E e d) (hfsync : fault ≠ some .fsync_state)
    (hbindtab : fault = some .bindtab_fsync → without_bridge_bindings d.bindtab = d.bindtab)
    (hrmtree : fault = some .rmtree_backup → d.root = none)
    (hQ : ∀ (root : Root) (m : Manifest), root.manifest = some m → m.enabled = false → (∀ abi, m.passed abi = false) →
      m.original_properties = parse_properties args.original → root.marker = none → root.overlay = none →
      Q () fault { d with root := some root, bindtab := without_bridge_bindings d.bindtab }) :
    wp (install args pid backend source) Q E fault d := by
  unfold install
  rw [wp_ite]
  constructor
  · intro _
    rw [wp_ite]
    refine ⟨fun _ => hE _, fun _ => wp_skip_bind (hE _) fun _ => wp_skip_bind (hE _) fun _ => ?_⟩
    refine wp_transaction hn (prepares_pure pid) hE hfsync hbindtab hrmtree fun root hm => ?_
    exact hQ root _ hm rfl (fun _ => rfl) rfl
  · intro _
    cases source with
    | none => exact hE _
    | some built =>
      refine wp_transaction hn (prepares_build pid built.payload) hE hfsync hbindtab hrmtree fun root hm => ?_
      exact hQ root _ hm rfl (fun _ => rfl) rfl

end AnboxReboxed.Scripts.NativeBridge
