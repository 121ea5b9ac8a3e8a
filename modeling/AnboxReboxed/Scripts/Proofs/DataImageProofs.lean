import AnboxReboxed.Scripts.DataImage

/-!
# Proofs: the steps of `prepare`

What `os.walk` finds are the entries of the tree. A migration goes through when its checks are met and no step fails;
otherwise the handler leaves what was there before, until the image is published.
-/

namespace AnboxReboxed.Scripts.DataImage

open AnboxReboxed.Lib Fallible
open NativeBridge (Str)

/-! ## Trees -/

theorem not_entry_nil {path : Path} : ¬Entry .nil path := nofun

theorem entry_cons_iff {name : Str} {node : Node} {rest : Dir} {path : Path} : Entry (.cons name node rest) path ↔
    path = [name] ∨ (∃ d p, node = .dir d ∧ path = name :: p ∧ Entry d p) ∨ Entry rest path := by
  constructor
  · intro h
    cases h with
    | here => exact .inl rfl
    | inside h => exact .inr (.inl ⟨_, _, rfl, rfl, h⟩)
    | later h => exact .inr (.inr h)
  · rintro (rfl | ⟨d, p, rfl, rfl, h⟩ | h)
    · exact .here name node rest
    · exact .inside h
    · exact .later h

theorem Entry.ne_nil {d : Dir} {path : Path} (h : Entry d path) : path ≠ [] := by
  induction h with
  | here => exact List.cons_ne_nil _ _
  | inside => exact List.cons_ne_nil _ _
  | later _ ih => exact ih

/-- The names in a directory. -/
theorem mem_directories_or_files {name : Str} : ∀ d : Dir, name ∈ d.directories ∨ name ∈ d.files ↔ Entry d [name]
  | .nil => by simp [Dir.directories, Dir.files, not_entry_nil]
  | .cons first node rest => by
    have ih : name ∈ rest.directories ∨ name ∈ rest.files ↔ Entry rest [name] := mem_directories_or_files rest
    have hinside : ¬∃ d p, node = .dir d ∧ [name] = first :: p ∧ Entry d p := by
      rintro ⟨d, p, -, hp, hentry⟩
      exact hentry.ne_nil (List.cons.inj hp).2.symm
    rw [entry_cons_iff, or_iff_right hinside, ← ih, List.cons_eq_cons, and_iff_left rfl]
    cases node with
    | file => simp only [Dir.directories, Dir.files, List.mem_cons]; tauto
    | link => simp only [Dir.directories, Dir.files, List.mem_cons]; tauto
    | dir d => simp only [Dir.directories, Dir.files, List.mem_cons]; tauto

theorem mem_visit_entries {relative path : Path} {d : Dir} :
    path ∈ Visit.entries ⟨relative, d.directories, d.files⟩ ↔ ∃ name, path = relative ++ [name] ∧ Entry d [name] := by
  simp only [Visit.entries, List.mem_append, List.mem_map, ← mem_directories_or_files]
  constructor
  · rintro (⟨name, hname, rfl⟩ | ⟨name, hname, rfl⟩)
    · exact ⟨name, rfl, .inl hname⟩
    · exact ⟨name, rfl, .inr hname⟩
  · rintro ⟨name, rfl, hname | hname⟩
    · exact .inl ⟨name, hname, rfl⟩
    · exact .inr ⟨name, hname, rfl⟩

mutual

theorem mem_node_walk : ∀ (node : Node) (relative path : Path),
    path ∈ (Node.walk relative node).flatMap Visit.entries ↔ ∃ d p, node = .dir d ∧ path = relative ++ p ∧ Entry d p
  | .file, relative, path => by simp [Node.walk]
  | .link, relative, path => by simp [Node.walk]
  | .dir d, relative, path => by
    rw [Node.walk, List.flatMap_cons, List.mem_append, mem_visit_entries, mem_dir_walk d relative path]
    constructor
    · rintro (⟨name, hpath, hentry⟩ | ⟨first, p, hpath, -, hentry⟩)
      · exact ⟨d, _, rfl, hpath, hentry⟩
      · exact ⟨d, _, rfl, hpath, hentry⟩
    · rintro ⟨d', p, heq, hpath, hentry⟩
      cases heq
      match p with
      | [] => exact absurd rfl hentry.ne_nil
      | [name] => exact .inl ⟨name, hpath, hentry⟩
      | first :: second :: p => exact .inr ⟨first, second :: p, hpath, List.cons_ne_nil _ _, hentry⟩

/-- What is found in the directories of a directory. -/
theorem mem_dir_walk : ∀ (d : Dir) (relative path : Path), path ∈ (Dir.walk relative d).flatMap Visit.entries ↔
    ∃ first p, path = relative ++ first :: p ∧ p ≠ [] ∧ Entry d (first :: p)
  | .nil, relative, path => by simp [Dir.walk, not_entry_nil]
  | .cons name node rest, relative, path => by
    rw [Dir.walk, List.flatMap_append, List.mem_append, mem_node_walk node (relative ++ [name]) path,
      mem_dir_walk rest relative path]
    constructor
    · rintro (⟨d, p, rfl, hpath, hentry⟩ | ⟨first, p, hpath, hp, hentry⟩)
      · exact ⟨name, p, by rw [hpath, List.append_assoc]; rfl, hentry.ne_nil, .inside hentry⟩
      · exact ⟨first, p, hpath, hp, .later hentry⟩
    · rintro ⟨first, p, hpath, hp, hentry⟩
      rcases entry_cons_iff.mp hentry with hname | ⟨d, p', hnode, heq, hinside⟩ | hrest
      · exact absurd (List.cons.inj hname).2 hp
      · obtain ⟨rfl, rfl⟩ := List.cons.inj heq
        exact .inl ⟨d, p, hnode, by rw [hpath, List.append_assoc]; rfl, hinside⟩
      · exact .inr ⟨first, p, hpath, hp, hrest⟩

end

/-- The paths that are compared are those of the entries. -/
theorem mem_tree_entries {root : Dir} {path : Path} : path ∈ tree_entries root ↔ Entry root path := by
  rw [tree_entries, mem_node_walk]
  constructor
  · rintro ⟨d, p, hnode, rfl, hentry⟩
    cases hnode
    exact hentry
  · intro hentry
    exact ⟨root, path, rfl, rfl, hentry⟩

theorem same_entries_iff {source destination : Dir} :
    same_entries source destination ↔ ∀ path, Entry source path ↔ Entry destination path := by
  simp only [same_entries, mem_tree_entries]
  exact ⟨fun h path => ⟨h.1 path, h.2 path⟩, fun h => ⟨fun path => (h path).mp, fun path => (h path).mpr⟩⟩

/-! ## Rules for the checks -/

/-- A step before the manifest fails. -/
def Early (fault : Option Step) : Prop := ∃ o, fault = some o ∧ o.of_manifest = false

variable {env : Env} {d : Disk} {fault : Option Step} {E : Exc → Disk → Prop}

theorem wp_step_bind {α : Type} {e : Exc} {o : Step} {f : Disk → Disk} {k : Unit → Fs α}
    {Q : α → Option Step → Disk → Prop} (ho : o.of_manifest = false) (hE : Early fault → ∀ e, E e d)
    (hQ : wp (k ()) Q E fault (f d)) : wp (op e o f >>= k) Q E fault d :=
  wp_op_bind (fun h => hE ⟨o, h, ho⟩ _) fun _ => hQ

/-- A step that only looks at something. -/
theorem wp_look_bind {α : Type} {e : Exc} {o : Step} {k : Unit → Fs α} {Q : α → Option Step → Disk → Prop}
    (ho : o.of_manifest = false) (hE : Early fault → ∀ e, E e d) (hQ : wp (k ()) Q E fault d) :
    wp (op e o id >>= k) Q E fault d := wp_step_bind ho hE hQ

theorem wp_container_stopped_bind {α : Type} {k : Unit → Fs α} {Q : α → Option Step → Disk → Prop}
    (hE : (container_state env ∈ stopped_states → Early fault) → ∀ e, E e d)
    (hQ : container_state env ∈ stopped_states → wp (k ()) Q E fault d) :
    wp (require_container_stopped env >>= k) Q E fault d := by
  rw [wp_bind]
  refine wp_look_bind rfl (fun h => hE fun _ => h) ?_
  rw [raiseIf, wp_ite]
  exact ⟨fun h => hE (fun hin => absurd hin h) _, fun h => hQ (not_not.mp h)⟩

theorem missing_programs_eq_nil_iff : (PROGRAMS.filter fun name => !env.which name) = [] ↔
    ∀ name ∈ PROGRAMS, env.which name = true := by
  rw [List.filter_eq_nil_iff]
  exact forall₂_congr fun name _ => by rw [Bool.not_eq_true', Bool.not_eq_false]

/-- The checks of `prepare` change nothing. -/
theorem wp_preconditions {Q : Root → Option Step → Disk → Prop} (hE : (Admitted env d → Early fault) → ∀ e, E e d)
    (hQ : ∀ source, Admitted env d → d.source = some source → Q source fault d) :
    wp (preconditions env) Q E fault d := by
  have hstep : Early fault → ∀ e, E e d := fun h => hE fun _ => h
  refine wp_raiseIf_bind (fun h => hE (fun ha => absurd ha.root h) _) fun hroot => ?_
  refine wp_raiseIf_bind (fun h => hE (fun ha => absurd (missing_programs_eq_nil_iff.mpr ha.programs) h) _)
    fun hprograms => ?_
  refine wp_container_stopped_bind (fun h => hE fun ha => h ha.stopped) fun hstopped => ?_
  refine wp_look_bind rfl hstep ?_
  rw [wp_bind, wp_read]
  cases hsource : d.source with
  | none => exact hE (fun ha => absurd ha.source (by rw [hsource]; exact Bool.false_ne_true)) _
  | some source =>
    refine wp_look_bind rfl hstep ?_
    rw [wp_bind, wp_read]
    refine wp_raiseIf_bind (fun h => hE (fun ha => ?_) _) fun hmanaged => ?_
    · rcases h with h | h
      · exact absurd h (by rw [id, ha.no_image]; exact Bool.false_ne_true)
      · exact absurd h (by rw [id, ha.no_marker]; exact Bool.false_ne_true)
    refine wp_look_bind rfl hstep (wp_look_bind rfl hstep ?_)
    refine wp_raiseIf_bind (fun h => hE (fun ha => absurd h (not_lt.mpr ha.space)) _) fun hspace => ?_
    rw [not_or, Bool.not_eq_true, Bool.not_eq_true, Option.isSome_eq_false_iff, Option.isSome_eq_false_iff,
      Option.isNone_iff_eq_none, Option.isNone_iff_eq_none] at hmanaged
    exact hQ source ⟨not_not.mp hroot, missing_programs_eq_nil_iff.mp (not_not.mp hprograms), hstopped,
      by rw [hsource]; rfl, hmanaged.1, hmanaged.2, not_lt.mp hspace⟩ hsource

theorem wp_clear {Q : Unit → Option Step → Disk → Prop}
    (hE : Early fault → ∀ e, E e d ∧ E e { d with managed := true })
    (hQ : Q () fault { d with managed := true, pending := none }) : wp clear Q E fault d := by
  have hstep : Early fault → ∀ e, E e { d with managed := true } := fun h e => (hE h e).2
  refine wp_step_bind rfl (fun h e => (hE h e).1) (wp_look_bind rfl hstep (wp_look_bind rfl hstep ?_))
  rw [wp_bind, wp_read]
  by_cases hpending : d.pending.isSome = true
  · rw [if_pos hpending, file, wp_op]
    exact ⟨fun h => hstep ⟨_, h, rfl⟩ _, fun _ => hQ⟩
  · rw [if_neg hpending]
    rw [← Option.not_isSome_iff_eq_none.mp hpending] at hQ
    exact hQ

/-! ## Rules for the copy -/

/-- What `dumpe2fs` prints. -/
def Image.printed (image : Image) : Option (List Str) := image.filesystem.bind Filesystem.features

/-- The image passes the validation. -/
def Valid (image : Image) : Prop :=
  writable image.mode = false ∧ ∃ features ∈ image.printed, missing_features features = []

theorem wp_image_features {v : Validation} {image : Image} {Q : List Str → Option Step → Disk → Prop}
    (hE : image.printed = none ∨ Early fault → ∀ e, E e d)
    (hQ : ∀ features ∈ image.printed, Q features fault d) : wp (image_features v image) Q E fault d := by
  refine wp_look_bind rfl (fun h => hE (.inr h)) ?_
  unfold Image.printed at hE hQ
  cases hfilesystem : image.filesystem with
  | none => exact hE (.inl (by rw [hfilesystem]; rfl)) _
  | some filesystem =>
    rw [hfilesystem, Option.bind_some] at hE hQ
    dsimp only
    cases hfeatures : filesystem.features with
    | none => exact hE (.inl hfeatures) _
    | some features => exact hQ features hfeatures

theorem wp_validate_image {v : Validation} {image : Disk → Option Image} {Q : List Str → Option Step → Disk → Prop}
    (hE : ((∃ i ∈ image d, Valid i) → Early fault) → ∀ e, E e d)
    (hQ : (∃ i ∈ image d, Valid i) → ∀ features, Q features fault d) : wp (validate_image v image) Q E fault d := by
  have hstep : Early fault → ∀ e, E e d := fun h => hE fun _ => h
  refine wp_look_bind rfl hstep ?_
  rw [wp_bind, wp_read]
  cases himage : image d with
  | none =>
    refine hE (fun hvalid => ?_) _
    obtain ⟨i, hi, -⟩ := hvalid
    cases himage.symm.trans hi
  | some i =>
    have hvalid : (∃ j ∈ image d, Valid j) ↔ Valid i := by
      rw [himage]
      exact ⟨fun ⟨_, hj, h⟩ => Option.some.inj hj ▸ h, fun h => ⟨i, rfl, h⟩⟩
    rw [hvalid] at hE hQ
    refine wp_raiseIf_bind (fun h => hE (fun hv => absurd (h.symm.trans hv.1) (by decide)) _) fun hmode => ?_
    rw [wp_bind]
    refine wp_image_features (fun h => hE fun hv => h.resolve_left fun hnone => ?_) fun features hfeatures => ?_
    · obtain ⟨features, hfeatures, -⟩ := hv.2
      cases hnone.symm.trans hfeatures
    · refine wp_raiseIf_bind (fun h => hE (fun hv => ?_) _) fun hmissing => ?_
      · obtain ⟨features', hfeatures', hmissing⟩ := hv.2
        cases hfeatures.symm.trans hfeatures'
        exact absurd hmissing h
      · exact hQ ⟨Bool.eq_false_iff.mpr hmode, features, hfeatures, not_not.mp hmissing⟩ features

theorem wp_verify_root_xattrs {source destination : Root} {Q : Unit → Option Step → Disk → Prop}
    (hE : ¬Preserves source destination → ∀ e, E e d) (hQ : Preserves source destination → Q () fault d) :
    wp (verify_root_xattrs source destination) Q E fault d := by
  unfold verify_root_xattrs
  cases hfind : source.listxattr.find? fun name => destination.getxattr name ≠ source.getxattr name with
  | none =>
    refine hQ fun name hname => ?_
    have hnone := List.find?_eq_none.mp hfind name hname
    exact not_not.mp fun hne => hnone (decide_eq_true hne)
  | some name =>
    refine hE (fun h => ?_) _
    have hne : destination.getxattr name ≠ source.getxattr name :=
      of_decide_eq_true (List.find?_some
        (p := fun name => decide (destination.getxattr name ≠ source.getxattr name)) hfind)
    exact hne (h name (List.mem_of_find?_eq_some hfind))

theorem wp_compare {source : Root} {Q : Unit → Option Step → Disk → Prop}
    (hE : (Matches source d.destination → Early fault) → ∀ e, E e d)
    (hQ : Matches source d.destination → Q () fault d) : wp (compare source) Q E fault d := by
  rw [compare, wp_bind, wp_read]
  refine wp_raiseIf_bind (fun h => hE (fun hm => absurd (same_entries_iff.mpr hm.entries) h) _) fun hsame => ?_
  refine wp_look_bind rfl (fun h => hE fun _ => h) ?_
  exact wp_verify_root_xattrs (fun h => hE fun hm => absurd hm.xattrs h)
    fun h => hQ ⟨same_entries_iff.mp (not_not.mp hsame), h⟩

/-- The image before the copy, and with the root that the copy makes. -/
def imageOf (env : Env) (root : Root) : Image := ⟨0o600, some ⟨env.features, root⟩⟩

theorem valid_imageOf (root : Root) : Valid (imageOf env root) ↔ Makes env :=
  and_iff_right (by decide : writable 0o600 = false)

theorem wp_make {Q : Unit → Option Step → Disk → Prop}
    (hE : (Makes env → Early fault) → ∀ e pending, E e { d with pending })
    (hQ : Makes env → Q () fault { d with pending := some (imageOf env fresh) }) : wp (make env) Q E fault d := by
  have hstep : ∀ pending, Early fault → ∀ e, E e { d with pending } := fun pending h e => hE (fun _ => h) e pending
  refine wp_step_bind rfl (hstep d.pending) (wp_look_bind rfl (hstep _) ?_)
  refine wp_step_bind rfl (hstep _) (wp_step_bind rfl (hstep _) ?_)
  rw [wp_bind]
  have hvalid : (∃ i ∈ some (imageOf env fresh), Valid i) ↔ Makes env :=
    ⟨fun ⟨_, hi, h⟩ => (valid_imageOf fresh).mp (Option.some.inj hi ▸ h),
      fun h => ⟨_, rfl, (valid_imageOf fresh).mpr h⟩⟩
  exact wp_validate_image (fun h e => hE (fun hm => h (hvalid.mpr hm)) e _) fun h _ => hQ (hvalid.mp h)

/-- What the handler can make good again: only the pending image is new, and it knows of what is mounted. -/
structure Working (d : Disk) (s : Migration) : Prop where
  source : s.disk.source = d.source
  image : s.disk.image = d.image
  marker : s.disk.marker = d.marker
  manifest : s.disk.manifest = d.manifest
  mounted : s.disk.mounted = true → s.mounted = true ∧ s.mountpoint = true

theorem Working.refl {s : Migration} (h : s.disk.mounted = false) : Working s.disk s :=
  ⟨rfl, rfl, rfl, rfl, fun hm => absurd (h.symm.trans hm) Bool.false_ne_true⟩

/-- The body of the `try` before the publication. -/
theorem wp_migrate {source : Root} {E : Exc → Migration → Prop} {Q : List Str → Option Step → Migration → Prop}
    (hd : d.mounted = false)
    (hE : (Makes env ∧ Matches source (env.cp source fresh) → Early fault) → ∀ e s, Working d s → E e s)
    (hQ : Makes env → Matches source (env.cp source fresh) → ∀ features, Q features fault
      { disk := { d with
          pending := some (imageOf env (env.cp source fresh)), mountpoints := d.mountpoints + 1, mounted := false }
        mountpoint := true }) :
    wp (migrate env source) Q E fault { disk := d } := by
  have hstep : ∀ s, Working d s → Early fault → ∀ e, E e s := fun s hs h e => hE (fun _ => h) e s hs
  have hunmounted : ∀ pending mountpoints m b c, m = false →
      Working d { disk := { d with pending, mountpoints, mounted := m }, mounted := b, mountpoint := c } :=
    fun _ _ _ _ _ hm => ⟨rfl, rfl, rfl, rfl, fun h => absurd (hm.symm.trans h) Bool.false_ne_true⟩
  have hmounted : ∀ pending mountpoints m,
      Working d { disk := { d with pending, mountpoints, mounted := m }, mounted := true, mountpoint := true } :=
    fun _ _ _ => ⟨rfl, rfl, rfl, rfl, fun _ => ⟨rfl, rfl⟩⟩
  rw [migrate, wp_bind, onDisk, wp_zoom]
  refine wp_make (fun h e pending => hE (fun hm => h hm.1) e _ (hunmounted pending _ _ _ _ hd)) fun hmakes => ?_
  rw [wp_bind]
  refine wp_op_bind (fun h => hstep _ (hunmounted _ _ _ _ _ hd) ⟨_, h, rfl⟩ _) fun _ => ?_
  rw [wp_op]
  refine ⟨fun h => hstep _ (hunmounted _ _ _ _ _ hd) ⟨_, h, rfl⟩ _, fun _ => ?_⟩
  rw [wp_bind, onDisk, wp_zoom]
  refine wp_step_bind rfl (hstep _ (hmounted _ _ _)) (wp_look_bind rfl (hstep _ (hmounted _ _ _)) ?_)
  refine wp_compare (fun h e => hE (fun hm => h hm.2) e _ (hmounted _ _ _)) fun hmatches => ?_
  refine wp_op_bind (fun h => hstep _ (hmounted _ _ _) ⟨_, h, rfl⟩ _) fun _ => ?_
  rw [onDisk, wp_zoom]
  refine wp_look_bind rfl (hstep _ (hunmounted _ _ _ _ _ rfl)) ?_
  exact wp_validate_image (fun h e => hE (fun hm => h ⟨_, rfl, (valid_imageOf _).mpr hm.1⟩) e _
    (hunmounted _ _ _ _ _ rfl)) fun _ features => hQ hmakes hmatches features

/-! ## Rules for the publication -/

/-- A step that writes the manifest fails. -/
def Late (fault : Option Step) : Prop := ∃ o, fault = some o ∧ o.of_manifest = true

theorem not_early_of_late (h : Late fault) : ¬Early fault := by
  obtain ⟨o, rfl, ho⟩ := h
  rintro ⟨o', heq, ho'⟩
  rw [← Option.some.inj heq, ho] at ho'
  cases ho'

theorem wp_atomic_write_manifest {content : Manifest} {Q : Unit → Option Step → Disk → Prop}
    (hE : Late fault → ∀ e slot, E e { d with manifest := slot })
    (hQ : ¬Late fault → Q () fault { d with manifest := { file := some (some content) } }) :
    wp (atomic_write .manifest Disk.on_manifest content) Q E fault d := by
  have hlate : ∀ o, o.of_manifest = true → fault = some o → Late fault := fun o ho h => ⟨o, h, ho⟩
  refine wp_op_bind (fun h => hE (hlate _ rfl h) _ d.manifest) fun hopen => ?_
  refine wp_op_bind (fun h => hE (hlate _ rfl h) _ _) fun hwrite => ?_
  refine wp_op_bind (fun h => hE (hlate _ rfl h) _ _) fun hfsync => ?_
  refine wp_op_bind (fun h => hE (hlate _ rfl h) _ _) fun hchmod => ?_
  rw [file, wp_op]
  refine ⟨fun h => hE (hlate _ rfl h) _ _, fun hreplace => hQ ?_⟩
  -- these are all the steps that write the manifest
  rintro ⟨o, rfl, ho⟩
  cases o with
  | open_temporary t => exact hopen (by rw [of_decide_eq_true ho])
  | write t => exact hwrite (by rw [of_decide_eq_true ho])
  | fsync t => exact hfsync (by rw [of_decide_eq_true ho])
  | chmod t => exact hchmod (by rw [of_decide_eq_true ho])
  | replace t => exact hreplace (by rw [of_decide_eq_true ho])
  | _ => cases ho

theorem wp_undo {s : Migration} {E : Exc → Migration → Prop} {Q : Unit → Option Step → Migration → Prop}
    (h : Working d s) (hQ : ∀ s', Working d s' → s'.disk.mounted = false → s'.disk.pending = none → Q () none s') :
    wp undo Q E none s := by
  have hkept : Working d { s with disk := { s.disk with mounted := false } } :=
    ⟨h.source, h.image, h.marker, h.manifest, nofun⟩
  have hnone : ∀ s', Working d s' → s'.disk.mounted = false → s'.disk.pending = s.disk.pending →
      wp (if s.disk.pending.isSome = true then
        modify fun s => { s with disk := { s.disk with pending := none } } else pure ()) Q E none s' := by
    intro s' hs' hmounted hpending
    rw [wp_ite]
    refine ⟨fun _ => ?_, fun hno => ?_⟩
    · exact hQ _ ⟨hs'.source, hs'.image, hs'.marker, hs'.manifest, hs'.mounted⟩ hmounted rfl
    · exact hQ s' hs' hmounted (hpending.trans (Option.not_isSome_iff_eq_none.mp hno))
  rw [undo, wp_bind, wp_read]
  by_cases hmounted : s.mounted = true ∧ s.mountpoint = true
  · rw [id, if_pos hmounted]
    exact hnone _ hkept rfl rfl
  · rw [id, if_neg hmounted]
    exact hnone s h (Bool.eq_false_iff.mpr fun hm => hmounted (h.mounted hm)) rfl

theorem wp_remove_mountpoint {s : Migration} {E : Exc → Migration → Prop} {Q : Unit → Option Step → Migration → Prop}
    (hQ : ∀ fault mountpoints, Q () fault { s with disk := { s.disk with mountpoints } }) :
    wp remove_mountpoint Q E fault s := by
  rw [remove_mountpoint, wp_bind, wp_read]
  by_cases hmountpoint : s.mountpoint = true
  · rw [if_pos hmountpoint, wp_ignoring]
    refine ⟨fun _ => hQ none s.disk.mountpoints, fun _ => ?_⟩
    by_cases hmounted : s.disk.mounted = true
    · rw [if_pos hmounted]
      exact hQ fault s.disk.mountpoints
    · rw [if_neg hmounted]
      exact hQ fault _
  · rw [if_neg hmountpoint]
    exact hQ fault s.disk.mountpoints

/-- The disk after the handler: nothing is mounted, and there is no pending image. -/
structure Handled (d d' : Disk) : Prop where
  source : d'.source = d.source
  image : d'.image = d.image
  marker : d'.marker = d.marker
  manifest : d'.manifest = d.manifest
  mounted : d'.mounted = false
  pending : d'.pending = none

/-- The handler, with what is done at last. -/
theorem wp_handler {s : Migration} {E E' : Exc → Migration → Prop} {P : Disk → Prop} (h : Working d s)
    (hP : ∀ d', Handled d d' → P d') :
    wp undo (fun _ _ => wp remove_mountpoint (fun _ _ s => P s.disk) E' none) E none s :=
  wp_undo h fun _ hs hmounted hpending => wp_remove_mountpoint fun _ _ =>
    hP _ ⟨hs.source, hs.image, hs.marker, hs.manifest, hmounted, hpending⟩

/-! ## The whole of `prepare` -/

/-- How `prepare` fails: a step before the publication leaves nothing, and one that writes the manifest leaves the
image. -/
def Failed (env : Env) (d : Disk) (fault : Option Step) (d' : Disk) : Prop :=
  (Migrates env d → Early fault) ∧ Unchanged d d' ∨
    Late fault ∧ Migrates env d ∧ d'.source = d.source ∧ d'.mounted = false ∧ d'.image.isSome = true

/-- It publishes the copy when its checks are met and no step fails. -/
theorem wp_prepare (env : Env) (fault : Option Step) (hd : d.mounted = false) :
    wp (prepare env) (fun _ _ d' => (Migrates env d ∧ ¬Late fault) ∧ Published env d d')
      (fun _ => Failed env d fault) fault d := by
  rw [prepare, wp_bind]
  refine wp_preconditions (fun h e => .inl ⟨fun hm => h hm.admitted, rfl, rfl, rfl, rfl, hd, .inr rfl⟩)
    fun source hadmitted hsource => ?_
  rw [wp_bind]
  refine wp_clear (fun h e => ⟨.inl ⟨fun _ => h, rfl, rfl, rfl, rfl, hd, .inr rfl⟩,
    .inl ⟨fun _ => h, rfl, rfl, rfl, rfl, hd, .inr rfl⟩⟩) ?_
  rw [wp_zoom, wp_bind, wp_ensure, wp_attempt, wp_bind]
  have hmigrates : Migrates env d ↔ Makes env ∧ Matches source (env.cp source fresh) := by
    constructor
    · exact fun h => ⟨h.makes, h.copies source hsource⟩
    · rintro ⟨hmakes, hmatches⟩
      exact ⟨hadmitted, hmakes, fun s hs => Option.some.inj (hsource.symm.trans hs) ▸ hmatches⟩
  refine wp_migrate hd (fun h e s hs => wp_handler (P := Failed env d fault) hs fun d' hd' => ?_)
    fun hmakes hmatches features => ?_
  · exact .inl ⟨fun hm => h (hmigrates.mp hm),
      hd'.source, hd'.image, hd'.marker, hd'.manifest, hd'.mounted, .inl hd'.pending⟩
  · have hm := hmigrates.mpr ⟨hmakes, hmatches⟩
    rw [onDisk, wp_zoom, publish]
    refine wp_op_bind (fun h => wp_handler (P := Failed env d fault) ⟨rfl, rfl, rfl, rfl, nofun⟩ fun d' hd' => ?_)
      fun _ => wp_atomic_write_manifest (fun h e slot =>
        wp_handler (P := Failed env d fault) (.refl rfl) fun d' hd' => ?_) fun h => ?_
    · exact .inl ⟨fun _ => ⟨_, h, rfl⟩, hd'.source, hd'.image, hd'.marker, hd'.manifest, hd'.mounted, .inl hd'.pending⟩
    · exact .inr ⟨h, hm, hd'.source, hd'.mounted, by rw [hd'.image]; rfl⟩
    · exact wp_remove_mountpoint fun _ _ =>
        ⟨⟨hm, h⟩, rfl, rfl, ⟨source, hsource, _, rfl, _, rfl, rfl⟩, features, rfl⟩

end AnboxReboxed.Scripts.DataImage
