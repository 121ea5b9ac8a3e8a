import AnboxReboxed.Scripts.Proofs.DataImageProofs

/-!
# Correctness of the migration

A copy is published when it has just the entries of the legacy data: that is never so without a `lost+found`, which the
new filesystem has. A migration that fails can be repeated, unless the image has been published.
-/

namespace AnboxReboxed.Scripts.DataImage

open AnboxReboxed.Lib Fallible
open NativeBridge (Str)

variable {env : Env} {d d' : Disk} {source : Root}

theorem not_early_none : ¬Early none := nofun

/-- Without a failure it is for the host, the disk and the copy. -/
theorem returns_iff (hd : d.mounted = false) : Returns env d ↔ Migrates env d := by
  constructor
  · rintro ⟨fault, d', hok⟩
    exact (wp_ok (wp_prepare env none hd) hok).1.1
  · intro hm
    cases hresult : prepare env none d with
    | ok r => exact ⟨r.2.1, r.2.2, hresult⟩
    | error e =>
      rcases wp_error (wp_prepare env none hd) hresult with ⟨hearly, -⟩ | ⟨⟨o, ho, -⟩, -⟩
      · exact absurd (hearly hm) not_early_none
      · cases ho

/-! ## What is accepted -/

theorem entry_fresh_iff {path : Path} : Entry fresh.tree path ↔ path = [lost_found] := by
  rw [fresh, entry_cons_iff]
  constructor
  · rintro (h | ⟨d, p, hnode, -, hentry⟩ | h)
    · exact h
    · cases hnode
      exact absurd hentry not_entry_nil
    · exact absurd h not_entry_nil
  · exact .inl

theorem entry_copy_lost_found (env : Env) (source : Root) : Entry (env.cp source fresh).tree [lost_found] :=
  env.cp_adds source fresh _ (entry_fresh_iff.mpr rfl)

/-- What is published had a `lost+found`. -/
theorem entry_lost_found_of_returns (hd : d.mounted = false) (hsource : d.source = some source) (h : Returns env d) :
    Entry source.tree [lost_found] :=
  ((((returns_iff hd).mp h).copies source hsource).entries _).mpr (entry_copy_lost_found env source)

/-- The copy is refused without a trace. -/
theorem refuses_of_not_migrates (hd : d.mounted = false) (h : ¬Migrates env d) :
    ∃ e d', prepare env none d = .error (e, d') ∧ Unchanged d d' := by
  cases hresult : prepare env none d with
  | ok r => exact absurd (wp_ok (wp_prepare env none hd) hresult).1.1 h
  | error e =>
    rcases wp_error (wp_prepare env none hd) hresult with ⟨-, hunchanged⟩ | ⟨⟨o, ho, -⟩, -⟩
    · exact ⟨e.1, e.2, rfl, hunchanged⟩
    · cases ho

theorem not_matches_of_unfaithful (h : Unfaithful env source) : ¬Matches source (env.cp source fresh) := by
  intro hm
  rcases h with ⟨path, hentry, hnot⟩ | ⟨path, -, hentry, hnot⟩
  · exact hnot ((hm.entries path).mp hentry)
  · exact hnot ((hm.entries path).mpr hentry)

theorem judges_of_lost_found (hd : d.mounted = false) (hsource : d.source = some source) (ha : Admitted env d)
    (hmakes : Makes env) (h : Entry source.tree [lost_found]) : Judges env d source where
  accepts := by
    intro hfaithful hxattrs
    have hentries : ∀ path, Entry source.tree path ↔ Entry (env.cp source fresh).tree path := by
      intro path
      rw [hfaithful, entry_fresh_iff]
      constructor
      · exact .inl
      · rintro (hentry | rfl)
        · exact hentry
        · exact h
    have hm : Migrates env d :=
      ⟨ha, hmakes, fun s hs => Option.some.inj (hsource.symm.trans hs) ▸ ⟨hentries, hxattrs⟩⟩
    obtain ⟨fault, d', hok⟩ := (returns_iff hd).mpr hm
    exact ⟨fault, d', hok, (wp_ok (wp_prepare env none hd) hok).2⟩
  refuses := by
    intro hunfaithful
    have hnot : ¬Migrates env d := fun hm => not_matches_of_unfaithful hunfaithful (hm.copies source hsource)
    obtain ⟨e, d', herror, hunchanged⟩ := refuses_of_not_migrates hd hnot
    exact ⟨e, d', herror, hunchanged.image, hunchanged.manifest⟩

/-! ### A host that copies as it should -/

def Dir.append : Dir → Dir → Dir
  | .nil, other => other
  | .cons name node rest, other => .cons name node (rest.append other)

theorem entry_append_iff {path : Path} : ∀ d e : Dir, Entry (d.append e) path ↔ Entry d path ∨ Entry e path
  | .nil, e => ⟨.inr, fun h => h.resolve_left not_entry_nil⟩
  | .cons name node rest, e => by
    rw [Dir.append, entry_cons_iff, entry_cons_iff, entry_append_iff rest e, or_assoc, or_assoc]

/-- What is there stays, and the source comes behind it. -/
def plain : Env where
  allocated_bytes := 0
  free := MIN_FREE_MARGIN
  features := some REQUIRED_FEATURES
  cp source destination := { tree := destination.tree.append source.tree, xattrs := source.xattrs }
  cp_adds _ _ _ h := (entry_append_iff _ _).mpr (.inl h)

theorem makes_plain : Makes plain := ⟨REQUIRED_FEATURES, rfl, by decide⟩

theorem admitted_plain (source : Root) : Admitted plain { source := some source } where
  root := rfl
  programs _ _ := rfl
  stopped := by decide
  source := rfl
  no_image := rfl
  no_marker := rfl
  space := Nat.le_of_eq (Nat.zero_add _)

theorem faithful_plain (source : Root) : Faithful plain source := fun _ => (entry_append_iff _ _).trans or_comm

/-- The legacy data is migrated as it should be exactly when it has a `lost+found` of its own. -/
theorem prepare_accepts_iff (source : Root) : Accepts source ↔ Entry source.tree [lost_found] := by
  constructor
  · intro h
    have hjudges := h plain { source := some source } rfl rfl (admitted_plain source) makes_plain
    obtain ⟨fault, d', hok, -⟩ := hjudges.accepts (faithful_plain source) fun _ _ => rfl
    exact entry_lost_found_of_returns (d := { source := some source }) rfl rfl ⟨fault, d', hok⟩
  · intro h env d hsource hd ha hmakes
    exact judges_of_lost_found hd hsource ha hmakes h

/-- Legacy data without any entry is copied, and the copy is refused for its `lost+found`. -/
theorem prepare_not_accepts : ¬∀ source, Accepts source := by
  intro h
  have hjudges := h {} plain { source := some {} } rfl rfl (admitted_plain {}) makes_plain
  obtain ⟨fault, d', hok, -⟩ := hjudges.accepts (faithful_plain {}) fun _ _ => rfl
  exact not_entry_nil (entry_lost_found_of_returns (d := { source := some {} }) rfl rfl ⟨fault, d', hok⟩)

/-! ## What a failure leaves -/

theorem Unchanged.admitted (h : Unchanged d d') (ha : Admitted env d) : Admitted env d' where
  root := ha.root
  programs := ha.programs
  stopped := ha.stopped
  source := h.source ▸ ha.source
  no_image := h.image.trans ha.no_image
  no_marker := by rw [h.marker, ha.no_marker]
  space := ha.space

theorem Unchanged.restored (h : Unchanged d d') (hd : d.mounted = false) : Restored d d' where
  mounted := h.mounted
  source := h.source
  pending hsome := by
    rcases h.pending with hnone | hsame
    · rw [hnone] at hsome
      cases hsome
    · exact hsame ▸ hsome
  image hsome := h.image ▸ hsome
  manifest hsome := h.manifest ▸ hsome
  temporary hsome := h.manifest ▸ hsome
  again env hreturns := by
    have hm := (returns_iff hd).mp hreturns
    exact (returns_iff h.mounted).mpr
      ⟨h.admitted hm.admitted, hm.makes, fun source hs => hm.copies source (h.source ▸ hs)⟩

/-- One run of `prepare` can be repeated unless it fails after the publication. -/
theorem repeatable_iff (hd : d.mounted = false) (l : Label) : Repeatable d l ↔ ManifestWritten d l := by
  constructor
  · intro h hcommand hm o ho
    by_contra hmanifest
    have hlate : Late l.fault := ⟨o, ho, Bool.not_eq_false _ ▸ hmanifest⟩
    cases hresult : prepare l.env l.fault d with
    | ok r => exact (wp_ok (wp_prepare l.env l.fault hd) hresult).1.2 hlate
    | error e =>
      rcases wp_error (wp_prepare l.env l.fault hd) hresult with ⟨hearly, -⟩ | ⟨-, -, -, -, himage⟩
      · exact not_early_of_late hlate (hearly hm)
      · have hsome := (h hcommand e.1 e.2 hresult).image himage
        rw [hm.admitted.no_image] at hsome
        cases hsome
  · intro h hcommand e d' herror
    rcases wp_error (wp_prepare l.env l.fault hd) herror with ⟨-, hunchanged⟩ | ⟨⟨o, ho, hmanifest⟩, hm, -⟩
    · exact hunchanged.restored hd
    · exact absurd (hmanifest.symm.trans (h hcommand hm o ho)) (by decide)

/-! ### Runs -/

theorem wp_enable (hd : d.mounted = false) (fault : Option Step) :
    wp (enable env) (fun _ _ d => d.mounted = false) (fun _ d => d.mounted = false) fault d := by
  refine wp_raiseIf_bind (fun _ => hd) fun _ => ?_
  refine wp_container_stopped_bind (fun _ _ => hd) fun _ => ?_
  rw [wp_bind]
  refine wp_validate_image (fun _ _ => hd) fun _ _ => ?_
  refine wp_op_bind (fun _ => hd) fun _ => wp_op_bind (fun _ => hd) fun _ => ?_
  refine wp_op_bind (fun _ => hd) fun _ => wp_op_bind (fun _ => hd) fun _ => ?_
  rw [file, wp_op]
  exact ⟨fun _ => hd, fun _ => hd⟩

theorem wp_disable (hd : d.mounted = false) (fault : Option Step) :
    wp (disable env) (fun _ _ d => d.mounted = false) (fun _ d => d.mounted = false) fault d := by
  refine wp_raiseIf_bind (fun _ => hd) fun _ => ?_
  refine wp_container_stopped_bind (fun _ _ => hd) fun _ => wp_op_bind (fun _ => hd) fun _ => ?_
  rw [wp_bind, wp_read, wp_ite]
  refine ⟨fun _ => ?_, fun _ => hd⟩
  rw [file, wp_op]
  exact ⟨fun _ => hd, fun _ => hd⟩

/-- Between two commands nothing is mounted. -/
theorem mounted_of_step {data : Option Root} {l : Label} (hd : d.mounted = false)
    (h : (dataImages data).step d l = some d') : d'.mounted = false := by
  cases Option.some.inj h
  unfold Label.program
  cases l.command with
  | prepare =>
    refine wp_final (wp_mono (wp_prepare l.env l.fault hd) (fun _ _ _ hok => hok.2.mounted) fun _ _ hfailed => ?_)
    rcases hfailed with ⟨-, hunchanged⟩ | ⟨-, -, -, hmounted, -⟩
    · exact hunchanged.mounted
    · exact hmounted
  | enable => exact wp_final (wp_enable hd l.fault)
  | disable => exact wp_final (wp_disable hd l.fault)

/-- In every run of the commands, each migration that fails can be repeated exactly when no step that writes the
manifest fails. -/
theorem dataImages_repeatable_iff (data : Option Root) (labels : List Label) :
    (dataImages data).AllSteps Repeatable (dataImages data).init labels ↔
      (dataImages data).AllSteps ManifestWritten (dataImages data).init labels :=
  Machine.allSteps_iff_of_relation (R := fun d => d.mounted = false) (fun _ _ _ hd _ h => mounted_of_step hd h)
    (fun _ l hd => repeatable_iff hd l) labels _ rfl

/-- Legacy data with a `lost+found`, whose image is published. -/
theorem migrates_plain_fresh : Migrates plain { source := some fresh } where
  admitted := admitted_plain fresh
  makes := makes_plain
  copies source hs := by
    cases hs
    exact ⟨fun path => (or_self_iff.symm.trans (entry_append_iff _ _).symm), fun _ _ => rfl⟩

/-- The manifest cannot be written: the image stays, and `prepare` refuses to begin again. -/
theorem dataImages_not_repeatable : ¬∀ (data : Option Root) (labels : List Label),
    (dataImages data).AllSteps Repeatable (dataImages data).init labels := by
  intro h
  have hrepeatable := (h (some fresh) [⟨.prepare, plain, some (.write .manifest)⟩]).1
  have hwritten := (repeatable_iff (d := (dataImages (some fresh)).init) rfl _).mp hrepeatable
  exact absurd (hwritten rfl migrates_plain_fresh _ rfl) (by decide)

end AnboxReboxed.Scripts.DataImage
