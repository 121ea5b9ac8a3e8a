import AnboxReboxed.Scripts.GlesCompat

/-!
# Proofs: the overlay is all or nothing

While files are removed and written, nothing is bound: a run that finds bindings of its own manifest finds the files
complete as well, and leaves them alone. The failure path takes the bindings away before it touches a file.
-/

namespace AnboxReboxed.Scripts.GlesCompat

open AnboxReboxed.Lib

variable {data_dir : Text} {others lines : List Text} {m : Manifest} {library path : Text}

/-! ## Lines -/

theorem join_inj {directory p q : Text} (h : join directory p = join directory q) : p = q := by
  rw [join, join] at h
  split_ifs at h with hd
  · exact List.append_cancel_left h
  · exact (List.cons.inj (List.append_cancel_left h)).2

theorem length_join (directory : Text) : ∃ k, ∀ p, (join directory p).length = k + p.length := by
  by_cases hd : directory = [] ∨ directory.getLast? = some '/'
  · refine ⟨directory.length, fun p => ?_⟩
    rw [join, if_pos hd, List.length_append]
  · refine ⟨directory.length + 1, fun p => ?_⟩
    rw [join, if_neg hd, List.length_append, List.length_cons]
    omega

theorem overlay_rel_inj {p q : Text} (h : overlay_rel p = overlay_rel q) : p = q :=
  (List.cons.inj (List.append_cancel_left h)).2

theorem length_overlay_rel (library : Text) :
    (overlay_rel library).length = ("state/".toList ++ marker).length + (library.length + 1) :=
  List.length_append

theorem length_bind_line (data_dir : Text) :
    ∃ k, ∀ library, (bind_line data_dir library).length = k + 2 * library.length := by
  obtain ⟨k, hk⟩ := length_join data_dir
  have hline (a b rest : Text) : (join data_dir a ++ ' ' :: join data_dir b ++ rest).length =
      k + a.length + (k + b.length + 1) + rest.length := by
    simp only [List.length_append, List.length_cons, hk]
  -- A rewrite would compare the paths, and evaluate their texts for it.
  have hsum {n m l a b i j : Nat} (hi : i = a + (l + 1)) (hj : j = b + l) (hn : n = k + i + (k + j + 1) + m) :
      n = 2 * k + a + b + m + 2 + 2 * l := by
    omega
  exact ⟨_, fun library => hsum (length_overlay_rel library) List.length_append (hline _ _ _)⟩

theorem bind_line_inj {p q : Text} (h : bind_line data_dir p = bind_line data_dir q) : p = q := by
  obtain ⟨k, hk⟩ := length_join data_dir
  obtain ⟨n, hn⟩ := length_bind_line data_dir
  have hpq : p.length = q.length := by
    have hlength := congrArg List.length h
    rw [hn p, hn q] at hlength
    omega
  rw [bind_line, bind_line, List.append_assoc, List.append_assoc] at h
  have hsame : (join data_dir (overlay_rel p)).length = (join data_dir (overlay_rel q)).length := by
    rw [hk (overlay_rel p), hk (overlay_rel q), length_overlay_rel p, length_overlay_rel q, hpq]
  exact overlay_rel_inj (join_inj (List.append_inj h hsame).1)

theorem marker_bind_line (data_dir library : Text) : marker <:+: bind_line data_dir library := by
  have hrel : marker <:+: overlay_rel library := ⟨"state/".toList, '/' :: library, List.append_assoc _ _ _⟩
  have hjoin : overlay_rel library <:+: join data_dir (overlay_rel library) := by
    rw [join]
    split
    · exact (List.suffix_append _ _).isInfix
    · exact ((List.suffix_cons _ _).trans (List.suffix_append _ _)).isInfix
  rw [bind_line, List.append_assoc]
  exact (hrel.trans hjoin).trans (List.prefix_append _ _).isInfix

/-- The others have no bindings of their own. -/
def Foreign (data_dir : Text) (others : List Text) : Prop := ∀ line ∈ others, ¬Binding data_dir line

/-- A rewritten bindtab keeps the others when they do not name the overlay. -/
theorem update_bindtab_eq {bindings : List Text} (hforeign : Foreign data_dir others)
    (hbindings : ∀ line ∈ bindings, Binding data_dir line)
    (hmarked : ∀ line ∈ others ++ bindings, marker <:+: line → Binding data_dir line) (wanted : List Text) :
    update_bindtab data_dir (others ++ bindings) wanted = others ++ wanted.map (bind_line data_dir) := by
  have hothers : others.filter (fun line => ¬marker <:+: line) = others := by
    refine List.filter_eq_self.mpr fun line hline => decide_eq_true fun hmark => ?_
    exact hforeign line hline (hmarked line (List.mem_append_left _ hline) hmark)
  have hnone : bindings.filter (fun line => ¬marker <:+: line) = [] := by
    refine List.filter_eq_nil_iff.mpr fun line hline => ?_
    obtain ⟨library, rfl⟩ := hbindings line hline
    rw [decide_eq_true_iff, not_not]
    exact marker_bind_line data_dir library
  rw [update_bindtab, List.filter_append, hothers, hnone, List.append_nil]

/-- What is bound by lines behind those of the others. -/
theorem mem_bindings (hforeign : Foreign data_dir others) (wanted : List Text) :
    bind_line data_dir library ∈ others ++ wanted.map (bind_line data_dir) ↔ library ∈ wanted := by
  constructor
  · intro h
    rcases List.mem_append.mp h with h | h
    · exact absurd ⟨library, rfl⟩ (hforeign _ h)
    · obtain ⟨library', hmem, heq⟩ := List.mem_map.mp h
      exact bind_line_inj heq ▸ hmem
  · exact fun h => List.mem_append_right _ (List.mem_map_of_mem h)

/-- A line of another that names the overlay is lost. -/
theorem lost_of_marked {bindings wanted : List Text} (hbindings : ∀ line ∈ bindings, Binding data_dir line)
    (hlines : lines = others ++ bindings)
    (hkept : ∃ bindings', (∀ line ∈ bindings', Binding data_dir line) ∧
      update_bindtab data_dir lines wanted = others ++ bindings') :
    ∀ line ∈ lines, marker <:+: line → Binding data_dir line := by
  obtain ⟨bindings', -, hkept⟩ := hkept
  intro line hline hmark
  rw [hlines] at hline
  rcases List.mem_append.mp hline with hother | hbinding
  · have hmem : line ∈ update_bindtab data_dir lines wanted := by
      rw [hkept]
      exact List.mem_append_left _ hother
    rw [update_bindtab] at hmem
    rcases List.mem_append.mp hmem with hmem | hmem
    · exact absurd hmark (of_decide_eq_true (List.mem_filter.mp hmem).2)
    · obtain ⟨library, -, heq⟩ := List.mem_map.mp hmem
      exact ⟨library, heq.symm⟩
  · exact hbindings line hbinding

/-! ## The invariant -/

namespace Gles

variable {s s' : Gles} {done left : List Entry} {e : Entry}

/-- No line binds anything. -/
def Unbound (data_dir : Text) (s : Gles) : Prop := ∀ library, bind_line data_dir library ∉ s.lines

/-- There are the files of some entries with their contents, and perhaps one that is not complete. -/
structure Written (done : List Entry) (candidate : Option Text) (overlay : AList fun _ : Text => Sha256) : Prop where
  contents : ∀ e ∈ done, overlay.lookup e.library = some e.replacement_sha256
  only : ∀ path ∈ overlay, path ∈ done.map Entry.library ∨ some path = candidate

/-- The libraries of the manifest are bound, and their files are there. -/
structure Bound (data_dir : Text) (m : Manifest) (s : Gles) : Prop where
  lines : ∀ library, bind_line data_dir library ∈ s.lines ↔ library ∈ m.libraries
  files : Written m.entries none s.overlay

/-- What holds where a run is. -/
def Inside (data_dir : Text) (m : Manifest) (s : Gles) : Prop :=
  match s.stage with
  | .removing => s.Unbound data_dir
  | .clearing => s.Unbound data_dir
  | .discarding => s.Unbound data_dir
  | .copying left => s.Unbound data_dir ∧ ∃ done, m.entries = done ++ left ∧
      Written done (left.head?.map fun e => e.library ++ tmp) s.overlay
  | .replacing e left => s.Unbound data_dir ∧ ∃ done, m.entries = done ++ e :: left ∧
      Written done (some (e.library ++ tmp)) s.overlay ∧
        s.overlay.lookup (e.library ++ tmp) = some e.replacement_sha256
  | .binding => Written m.entries none s.overlay
  | _ => True

structure Invariant (data_dir : Text) (others : List Text) (s : Gles) : Prop where
  others : s.OthersKept data_dir others
  bound : s.Unbound data_dir ∨ ∃ m, s.manifest = some m ∧ s.Bound data_dir m
  inside : s.stage ≠ .idle → ∃ m, s.manifest = some m ∧ s.Inside data_dir m

theorem mem_libraries (he : e ∈ m.entries) : e.library ∈ m.libraries := List.mem_map_of_mem he

theorem Written.mem_iff (h : Written m.entries none s.overlay) :
    s.overlay.lookup library ≠ none ↔ library ∈ m.libraries := by
  rw [ne_eq, AList.lookup_eq_none, not_not]
  constructor
  · intro hmem
    rcases h.only library hmem with hlib | hnone
    · exact hlib
    · cases hnone
  · intro hlib
    obtain ⟨e, he, rfl⟩ := List.mem_map.mp hlib
    rw [← AList.lookup_isSome, h.contents e he]
    rfl

theorem Bound.active_iff (h : s.Bound data_dir m) : s.Active data_dir library ↔ library ∈ m.libraries := by
  rw [Active, h.lines, h.files.mem_iff, and_self_iff]

theorem Bound.allOrNothing (h : s.Bound data_dir m) : s.AllOrNothing data_dir m :=
  Or.inr ⟨fun _ => h.active_iff, h.files.contents⟩

theorem Invariant.consistent (h : Invariant data_dir others s) : s.Consistent data_dir others where
  active := by
    intro m hm
    rcases h.bound with hno | ⟨m', hm', hbound⟩
    · exact Or.inl fun library hactive => hno library hactive.1
    · cases Option.some.inj (hm.symm.trans hm')
      exact hbound.allOrNothing
  others := h.others

/-- What is bound for one manifest and complete for another is bound for the other. -/
theorem Bound.of_allOrNothing {m' : Manifest} (h : s.Bound data_dir m) (hall : s.AllOrNothing data_dir m') :
    s.Bound data_dir m' := by
  rcases hall with hnothing | ⟨hactive, hcontents⟩
  · obtain ⟨e, he⟩ := List.exists_mem_of_ne_nil _ m.nonempty
    exact absurd (h.active_iff.mpr (mem_libraries he)) (hnothing e.library)
  · have hsame : ∀ library, library ∈ m.libraries ↔ library ∈ m'.libraries := fun library =>
      h.active_iff.symm.trans (hactive library)
    refine ⟨fun library => (h.lines library).trans (hsame library), hcontents, fun path hpath => Or.inl ?_⟩
    refine (hsame path).mp (h.files.mem_iff.mp ?_)
    rwa [ne_eq, AList.lookup_eq_none, not_not]

/-- Files that are there for a manifest that is bound are left alone. -/
theorem Bound.current (h : s.Bound data_dir m) (hm : s.manifest = some m) : s.current = true := by
  have hentries : s.entries = m.entries := by rw [entries, hm]; rfl
  rw [Gles.current, hentries, Bool.and_eq_true, List.all_eq_true, List.all_eq_true]
  refine ⟨fun e he => decide_eq_true (h.files.contents e he), fun path hpath => decide_eq_true ?_⟩
  rcases h.files.only path (AList.mem_keys.mpr hpath) with hlib | hnone
  · exact hlib
  · cases hnone

theorem written_of_current (hm : s.manifest = some m) (h : s.current = true) : Written m.entries none s.overlay := by
  have hentries : s.entries = m.entries := by rw [entries, hm]; rfl
  rw [Gles.current, hentries, Bool.and_eq_true, List.all_eq_true, List.all_eq_true] at h
  exact ⟨fun e he => of_decide_eq_true (h.1 e he),
    fun path hpath => Or.inl (of_decide_eq_true (h.2 path (AList.mem_keys.mp hpath)))⟩

/-! ## Writing -/

theorem library_ne_tmp (he : e ∈ m.entries) {e' : Entry} : e.library ≠ e'.library ++ tmp := by
  intro heq
  exact m.complete e he (heq ▸ List.suffix_append _ _)

/-- The next library is not there yet. -/
theorem Written.lookup_next {candidate : Option Text} (hentries : m.entries = done ++ e :: left)
    (h : Written done candidate s.overlay) (hcandidate : candidate = some (e.library ++ tmp)) :
    s.overlay.lookup e.library = none := by
  have he : e ∈ m.entries := by
    rw [hentries]
    exact List.mem_append_right _ List.mem_cons_self
  rw [AList.lookup_eq_none]
  intro hmem
  rcases h.only e.library hmem with hlib | hc
  · have hnodup := m.nodup
    rw [hentries, List.map_append, List.map_cons] at hnodup
    exact (List.nodup_append.mp hnodup).2.2 e.library hlib e.library List.mem_cons_self rfl
  · rw [hcandidate] at hc
    exact library_ne_tmp he (Option.some.inj hc)

/-- A part of the next library is written. -/
theorem Written.insert_candidate {overlay : AList fun _ : Text => Sha256} (hentries : m.entries = done ++ e :: left)
    (h : Written done (some (e.library ++ tmp)) overlay) (content : Sha256) :
    Written done (some (e.library ++ tmp)) (overlay.insert (e.library ++ tmp) content) where
  contents := by
    intro e' he'
    have hmem : e' ∈ m.entries := by
      rw [hentries]
      exact List.mem_append_left _ he'
    rw [AList.lookup_insert_ne (library_ne_tmp hmem)]
    exact h.contents e' he'
  only := by
    intro path hpath
    rcases (AList.mem_insert _).mp hpath with rfl | hpath
    · exact Or.inr rfl
    · exact h.only path hpath

/-- The next library gets to its place. -/
theorem Written.replace {overlay : AList fun _ : Text => Sha256} (hentries : m.entries = done ++ e :: left)
    (h : Written done (some (e.library ++ tmp)) overlay) {candidate : Option Text} :
    Written (done ++ [e]) candidate
      ((overlay.erase (e.library ++ tmp)).insert e.library e.replacement_sha256) where
  contents := by
    intro e' he'
    by_cases hsame : e'.library = e.library
    · have hnodup := m.nodup
      rw [hentries, List.map_append, List.map_cons] at hnodup
      have heq : e' = e := by
        rcases List.mem_append.mp he' with hdone | hlast
        · exact absurd hsame
            ((List.nodup_append.mp hnodup).2.2 e'.library (List.mem_map_of_mem hdone) e.library List.mem_cons_self)
        · exact List.mem_singleton.mp hlast
      rw [heq, AList.lookup_insert]
    · have hdone : e' ∈ done := by
        rcases List.mem_append.mp he' with hdone | hlast
        · exact hdone
        · exact absurd (congrArg Entry.library (List.mem_singleton.mp hlast)) hsame
      have hmem : e' ∈ m.entries := by
        rw [hentries]
        exact List.mem_append_left _ hdone
      rw [AList.lookup_insert_ne hsame, AList.lookup_erase_ne (library_ne_tmp hmem)]
      exact h.contents e' hdone
  only := by
    intro path hpath
    rw [List.map_append, List.mem_append]
    rcases (AList.mem_insert _).mp hpath with rfl | hpath
    · exact Or.inl (Or.inr List.mem_cons_self)
    · obtain ⟨hne, hpath⟩ := AList.mem_erase.mp hpath
      rcases h.only path hpath with hlib | hc
      · exact Or.inl (Or.inl hlib)
      · exact absurd (Option.some.inj hc) hne

theorem written_nil {overlay : AList fun _ : Text => Sha256} (h : overlay.keys = []) (candidate : Option Text) :
    Written [] candidate overlay where
  contents := fun _ he => absurd he List.not_mem_nil
  only := by
    intro path hpath
    rw [AList.mem_keys, h] at hpath
    cases hpath

/-! ## Steps -/

/-- A step that leaves the bindtab alone. -/
theorem Invariant.of_lines (h : Invariant data_dir others s) (hlines : s'.lines = s.lines)
    (hbound : s'.Unbound data_dir ∨ ∃ m, s'.manifest = some m ∧ s'.Bound data_dir m)
    (hinside : s'.stage ≠ .idle → ∃ m, s'.manifest = some m ∧ s'.Inside data_dir m) :
    Invariant data_dir others s' where
  others := by rw [OthersKept, hlines]; exact h.others
  bound := hbound
  inside := hinside

/-- Only the stage changes. -/
theorem Invariant.of_stage (h : Invariant data_dir others s) (stage : Stage)
    (hinside : stage ≠ .idle → ∃ m, s.manifest = some m ∧ ({ s with stage } : Gles).Inside data_dir m) :
    Invariant data_dir others { s with stage } := by
  refine h.of_lines rfl ?_ hinside
  rcases h.bound with hno | ⟨m, hm, hbound⟩
  · exact Or.inl hno
  · exact Or.inr ⟨m, hm, hbound.lines, hbound.files⟩

/-- The bindtab is rewritten. -/
theorem Invariant.rewritten (hforeign : Foreign data_dir others) (h : Invariant data_dir others s)
    (hclean : ∀ line ∈ s.lines, marker <:+: line → Binding data_dir line) (wanted : List Text) :
    update_bindtab data_dir s.lines wanted = others ++ wanted.map (bind_line data_dir) := by
  obtain ⟨bindings, hbindings, hlines⟩ := h.others
  rw [hlines] at hclean ⊢
  exact update_bindtab_eq hforeign hbindings hclean wanted

theorem bindings_map (wanted : List Text) : ∀ line ∈ wanted.map (bind_line data_dir), Binding data_dir line := by
  intro line hline
  obtain ⟨library, -, rfl⟩ := List.mem_map.mp hline
  exact ⟨library, rfl⟩

/-- The bindings are taken away. -/
theorem invariant_unbind (hforeign : Foreign data_dir others) (h : Invariant data_dir others s)
    (hclean : ∀ line ∈ s.lines, marker <:+: line → Binding data_dir line) {stage : Stage}
    (hstage : stage = .clearing ∨ stage = .discarding) (hm : s.manifest = some m) :
    Invariant data_dir others { s with lines := update_bindtab data_dir s.lines [], stage } := by
  have hlines := h.rewritten hforeign hclean []
  have hno : Unbound data_dir { s with lines := update_bindtab data_dir s.lines [], stage } := by
    intro library hmem
    have hmem : bind_line data_dir library ∈ update_bindtab data_dir s.lines [] := hmem
    rw [hlines] at hmem
    exact absurd ((mem_bindings hforeign []).mp hmem) List.not_mem_nil
  refine ⟨⟨[], fun _ hline => absurd hline List.not_mem_nil, hlines⟩, Or.inl hno, fun _ => ⟨m, hm, ?_⟩⟩
  rcases hstage with rfl | rfl <;> exact hno

/-- The libraries are bound when their files are there. -/
theorem invariant_bind (hforeign : Foreign data_dir others) (h : Invariant data_dir others s)
    (hclean : ∀ line ∈ s.lines, marker <:+: line → Binding data_dir line) (hm : s.manifest = some m)
    (hfiles : Written m.entries none s.overlay) :
    Invariant data_dir others
      { s with lines := update_bindtab data_dir s.lines (s.entries.map Entry.library), stage := .leaving } := by
  have hentries : s.entries = m.entries := by rw [entries, hm]; rfl
  have hlines := h.rewritten hforeign hclean m.libraries
  rw [hentries]
  refine ⟨⟨_, bindings_map m.libraries, hlines⟩, Or.inr ⟨m, hm, fun library => ?_, hfiles⟩, fun _ => ⟨m, hm, trivial⟩⟩
  show bind_line data_dir library ∈ update_bindtab data_dir s.lines m.libraries ↔ _
  rw [hlines]
  exact mem_bindings hforeign m.libraries

theorem invariant_next (hforeign : Foreign data_dir others) (h : Invariant data_dir others s)
    (hC : s.Undisturbed data_dir .next) (hs : s.next data_dir = some s') : Invariant data_dir others s' := by
  by_cases hidle : s.stage = .idle
  · simp only [next, hidle] at hs
    cases hs
  obtain ⟨m, hm, hinside⟩ := h.inside hidle
  have hentries : s.entries = m.entries := by rw [entries, hm]; rfl
  rw [Inside] at hinside
  cases hstage : s.stage with
  | idle => exact absurd hstage hidle
  | preparing =>
    simp only [next, hstage] at hs
    cases hs
    exact h.of_stage .comparing fun _ => ⟨m, hm, trivial⟩
  | comparing =>
    simp only [next, hstage] at hs
    cases hs
    by_cases hcurrent : s.current = true
    · rw [if_pos hcurrent]
      exact h.of_stage .binding fun _ => ⟨m, hm, written_of_current hm hcurrent⟩
    · rw [if_neg hcurrent]
      refine h.of_stage .removing fun _ => ⟨m, hm, ?_⟩
      rcases h.bound with hno | ⟨m', hm', hbound⟩
      · exact hno
      · exact absurd (hbound.current hm') hcurrent
  | removing =>
    simp only [next, hstage] at hs hinside
    obtain ⟨hempty, rfl⟩ := of_guard_eq_some hs
    refine h.of_stage (.copying s.entries) fun _ => ⟨m, hm, hinside, [], ?_, written_nil hempty _⟩
    rw [hentries, List.nil_append]
  | copying left =>
    cases left with
    | nil =>
      simp only [next, hstage] at hs hinside
      cases hs
      obtain ⟨hno, done, hdone, hwritten⟩ := hinside
      rw [List.append_nil] at hdone
      refine h.of_stage .binding fun _ => ⟨m, hm, ?_⟩
      show Written m.entries none s.overlay
      rw [hdone]
      exact hwritten
    | cons e left =>
      simp only [next, hstage] at hs hinside
      obtain ⟨hno, done, hdone, hwritten⟩ := hinside
      have hnext := hwritten.lookup_next hdone rfl
      rw [hnext, if_neg (Option.some_ne_none _).symm] at hs
      cases hs
      refine h.of_lines rfl (Or.inl hno) fun _ => ⟨m, hm, hno, done, hdone, ?_, AList.lookup_insert _⟩
      exact hwritten.insert_candidate hdone _
  | replacing e left =>
    simp only [next, hstage] at hs hinside
    obtain ⟨hno, done, hdone, hwritten, hcontent⟩ := hinside
    rw [hcontent] at hs
    cases hs
    refine h.of_lines rfl (Or.inl hno) fun _ => ⟨m, hm, hno, done ++ [e], ?_, hwritten.replace hdone⟩
    rw [hdone, List.append_assoc]
    rfl
  | binding =>
    simp only [next, hstage] at hs hinside
    cases hs
    exact invariant_bind hforeign h (hC (Or.inl hstage)) hm hinside
  | leaving =>
    simp only [next, hstage] at hs
    cases hs
    exact h.of_stage .idle fun hne => absurd rfl hne
  | unbinding =>
    simp only [next, hstage] at hs
    cases hs
    exact invariant_unbind hforeign h (hC (Or.inr (Or.inl hstage))) (Or.inl rfl) hm
  | clearing =>
    simp only [next, hstage] at hs
    obtain ⟨-, rfl⟩ := of_guard_eq_some hs
    exact h.of_stage .idle fun hne => absurd rfl hne
  | recovering =>
    simp only [next, hstage] at hs
    cases hs
    exact invariant_unbind hforeign h (hC (Or.inr (Or.inr hstage))) (Or.inr rfl) hm
  | discarding =>
    simp only [next, hstage] at hs
    obtain ⟨-, rfl⟩ := of_guard_eq_some hs
    exact h.of_stage .idle fun hne => absurd rfl hne

theorem invariant_step {op : GlesOp} (hforeign : Foreign data_dir others) (h : Invariant data_dir others s)
    (hC : s.Undisturbed data_dir op) (hs : s.step data_dir op = some s') : Invariant data_dir others s' := by
  cases op with
  | start action m =>
    obtain ⟨hidle, rfl⟩ := of_guard_eq_some hs
    refine h.of_lines rfl ?_ fun _ => ⟨m, rfl, by cases action <;> trivial⟩
    rcases h.bound with hno | ⟨m', hm', hbound⟩
    · exact Or.inl hno
    · have hbound' := hbound.of_allOrNothing (hC hidle)
      exact Or.inr ⟨m, rfl, hbound'.lines, hbound'.files⟩
  | next => exact invariant_next hforeign h hC hs
  | unlink path =>
    obtain ⟨⟨hremoves, -⟩, rfl⟩ := of_guard_eq_some hs
    have hstage : s.stage = .removing ∨ s.stage = .clearing ∨ s.stage = .discarding := by
      rw [removes, Bool.or_eq_true, Bool.or_eq_true, decide_eq_true_iff, decide_eq_true_iff, decide_eq_true_iff,
        or_assoc] at hremoves
      exact hremoves
    have hinside : ∃ m, s.manifest = some m ∧ s.Unbound data_dir := by
      rcases hstage with hstage | hstage | hstage <;>
      · obtain ⟨m, hm, hinside⟩ := h.inside (by rw [hstage]; exact Stage.noConfusion)
        rw [Inside, hstage] at hinside
        exact ⟨m, hm, hinside⟩
    obtain ⟨m, hm, hno⟩ := hinside
    refine h.of_lines rfl (Or.inl hno) fun _ => ⟨m, hm, ?_⟩
    rcases hstage with hstage | hstage | hstage <;>
    · simp only [Inside, hstage]
      exact hno
  | partly content =>
    simp only [step] at hs
    split at hs
    · rename_i e left hstage
      obtain ⟨m, hm, hinside⟩ := h.inside (by rw [hstage]; exact Stage.noConfusion)
      simp only [Inside, hstage] at hinside
      obtain ⟨hno, done, hdone, hwritten⟩ := hinside
      split_ifs at hs
      cases hs
      refine h.of_lines rfl (Or.inl hno) fun _ => ⟨m, hm, ?_⟩
      simp only [Inside, hstage]
      exact ⟨hno, done, hdone, hwritten.insert_candidate hdone content⟩
    · cases hs
  | raise =>
    simp only [step] at hs
    split at hs
    · cases hs
    · cases hs
      exact h.of_stage .idle fun hne => absurd rfl hne
    · cases hs
      exact h.of_stage .idle fun hne => absurd rfl hne
    · rename_i hidle _ _
      cases hs
      obtain ⟨m, hm, -⟩ := h.inside hidle
      exact h.of_stage .recovering fun _ => ⟨m, hm, trivial⟩
  | kill =>
    simp only [step] at hs
    split_ifs at hs
    cases hs
    exact h.of_stage .idle fun hne => absurd rfl hne

/-- A step into a consistent state is undisturbed. -/
theorem undisturbed_of_consistent {op : GlesOp} (h : Invariant data_dir others s)
    (hs : s.step data_dir op = some s') (hs' : s'.Consistent data_dir others) : s.Undisturbed data_dir op := by
  cases op with
  | start action m =>
    obtain ⟨-, rfl⟩ := of_guard_eq_some hs
    exact fun _ => hs'.active m rfl
  | next =>
    intro hstage
    obtain ⟨bindings, hbindings, hlines⟩ := h.others
    rcases hstage with hstage | hstage | hstage <;>
    · simp only [step, next, hstage] at hs
      cases hs
      exact lost_of_marked hbindings hlines hs'.others
  | unlink path => trivial
  | partly content => trivial
  | raise => trivial
  | kill => trivial

theorem undisturbed_of_none {op : GlesOp} (hs : s.step data_dir op = none) : s.Undisturbed data_dir op := by
  cases op with
  | start action m =>
    intro hidle
    simp only [step, if_pos hidle] at hs
    cases hs
  | next =>
    rintro (hstage | hstage | hstage) <;>
    · simp only [step, next, hstage] at hs
      cases hs
  | unlink path => trivial
  | partly content => trivial
  | raise => trivial
  | kill => trivial

theorem invariant_init (hforeign : Foreign data_dir others) :
    Invariant data_dir others (glesMachine data_dir others).init where
  others := ⟨[], fun _ hline => absurd hline List.not_mem_nil, (List.append_nil others).symm⟩
  bound := Or.inl fun library hmem => hforeign _ hmem ⟨library, rfl⟩
  inside := fun hne => absurd rfl hne

end Gles

/-! ## Runs -/

/-- The overlay is all or nothing, and the other lines are kept, exactly when no run disturbs the manifest of another
one, and no line of the others names the overlay where the bindtab is rewritten. -/
theorem consistent_iff (data_dir : Text) (others : List Text) (hforeign : Foreign data_dir others) (ops : List GlesOp) :
    (glesMachine data_dir others).AllStates (Gles.Consistent data_dir others) (glesMachine data_dir others).init ops ↔
      (glesMachine data_dir others).AllSteps (Gles.Undisturbed data_dir) (glesMachine data_dir others).init ops :=
  Machine.allStates_iff_allSteps_of_enabled (R := Gles.Invariant data_dir others) (fun _ h => h.consistent)
    (fun _ _ hs => Gles.undisturbed_of_none hs) (fun _ _ _ h hC hs => Gles.invariant_step hforeign h hC hs)
    (fun _ _ _ h hs hs' => Gles.undisturbed_of_consistent h hs hs') ops _ (Gles.invariant_init hforeign)

/-- A manifest that replaces two libraries, with contents of one version. -/
def versioned (version : Sha256) : Manifest where
  entries := [⟨"lib64/a.so".toList, version⟩, ⟨"lib64/b.so".toList, version⟩]
  nonempty := List.cons_ne_nil _ _
  nodup := (by decide : ["lib64/a.so".toList, "lib64/b.so".toList].Nodup)
  complete := by
    intro e he
    rcases List.mem_cons.mp he with rfl | he
    · exact (by decide : ¬tmp <:+ "lib64/a.so".toList)
    · rw [List.mem_singleton.mp he]
      exact (by decide : ¬tmp <:+ "lib64/b.so".toList)

/-- The libraries are replaced, and are to be replaced by those of another version. -/
def interrupted_update : List GlesOp :=
  [.start .apply (versioned ['1'])] ++ List.replicate 10 .next ++
    [.start .apply (versioned ['2']), .next, .next, .unlink "lib64/a.so".toList]

/-- A line that is no binding, but names the overlay. -/
theorem foreign_marker : Foreign [] [marker] := by
  intro line hline
  rw [List.mem_singleton.mp hline]
  rintro ⟨library, hbinding⟩
  have hhead : (bind_line [] library).head? = some 's' := rfl
  rw [← hbinding] at hhead
  exact absurd hhead (by decide)

theorem interrupted_update_consistent_iff :
    (glesMachine [] [marker]).AllStates (Gles.Consistent [] [marker])
      (glesMachine [] [marker]).init interrupted_update ↔
      (glesMachine [] [marker]).AllSteps (Gles.Undisturbed []) (glesMachine [] [marker]).init interrupted_update :=
  consistent_iff [] [marker] foreign_marker interrupted_update

section OneManifest

variable {s s' : Gles}

theorem manifest_step {op : GlesOp} (hs : s.step data_dir op = some s') :
    s'.manifest = s.manifest ∨ ∃ action m, op = .start action m ∧ s'.manifest = some m := by
  cases op with
  | start action m =>
    obtain ⟨-, rfl⟩ := of_guard_eq_some hs
    exact Or.inr ⟨action, m, rfl, rfl⟩
  | next =>
    refine Or.inl ?_
    simp only [Gles.step, Gles.next] at hs
    repeat' split at hs
    all_goals cases hs <;> rfl
  | unlink path =>
    obtain ⟨-, rfl⟩ := of_guard_eq_some hs
    exact Or.inl rfl
  | partly content =>
    refine Or.inl ?_
    simp only [Gles.step] at hs
    repeat' split at hs
    all_goals cases hs <;> rfl
  | raise =>
    refine Or.inl ?_
    simp only [Gles.step] at hs
    split at hs
    all_goals cases hs
    all_goals rfl
  | kill =>
    refine Or.inl ?_
    simp only [Gles.step] at hs
    split at hs
    · cases hs
    · cases hs
      rfl

/-- While there is one manifest only, and the others do not name the overlay, nothing is disturbed. -/
theorem consistent_of_one_manifest (hforeign : Foreign data_dir others) (hunnamed : ∀ line ∈ others, ¬marker <:+: line)
    (m : Manifest) {ops : List GlesOp} (hops : ∀ op ∈ ops, ∀ action m', op = .start action m' → m' = m) :
    (glesMachine data_dir others).AllStates (Gles.Consistent data_dir others)
      (glesMachine data_dir others).init ops := by
  refine Machine.allStates_of_allSteps (C := fun _ op => ∀ action m', op = .start action m' → m' = m)
    (P := fun s => Gles.Invariant data_dir others s ∧ ∀ m', s.manifest = some m' → m' = m) ?_
    (fun _ h => h.1.consistent) ⟨Gles.invariant_init hforeign, fun _ hnone => by cases hnone⟩
    (Machine.allSteps_of_forall_mem (fun op hop _ => hops op hop) _)
  rintro s op s' ⟨h, hone⟩ hop hs
  have hC : s.Undisturbed data_dir op := by
    cases op with
    | start action m' =>
      intro _
      rw [hop action m' rfl]
      rcases h.bound with hno | ⟨m'', hm'', hbound⟩
      · exact Or.inl fun library hactive => hno library hactive.1
      · exact hone m'' hm'' ▸ hbound.allOrNothing
    | next =>
      intro _ line hline hmark
      obtain ⟨bindings, hbindings, hlines⟩ := h.others
      rw [hlines] at hline
      rcases List.mem_append.mp hline with hother | hbinding
      · exact absurd hmark (hunnamed line hother)
      · exact hbindings line hbinding
    | unlink path => trivial
    | partly content => trivial
    | raise => trivial
    | kill => trivial
  refine ⟨Gles.invariant_step hforeign h hC hs, fun m' hm' => ?_⟩
  rcases manifest_step hs with hsame | ⟨action, m'', rfl, hm''⟩
  · exact hone m' (hsame ▸ hm')
  · rw [hm''] at hm'
    cases Option.some.inj hm'
    exact hop action _ rfl

end OneManifest

/-- An update of the manifest is interrupted, and another line names the overlay. -/
theorem not_always_consistent :
    (¬∀ (data_dir : Text) (others : List Text), Foreign data_dir others → ∀ ops,
      (glesMachine data_dir others).AllStates (fun s => ∀ m, s.manifest = some m → s.AllOrNothing data_dir m)
        (glesMachine data_dir others).init ops) ∧
    ¬∀ (data_dir : Text) (others : List Text), Foreign data_dir others → ∀ ops,
      (glesMachine data_dir others).AllStates (fun s => s.OthersKept data_dir others)
        (glesMachine data_dir others).init ops := by
  refine ⟨fun h => ?_, fun h => ?_⟩
  · -- The first library is gone, and both are still bound.
    have hstate : ((glesMachine [] []).exec (glesMachine [] []).init interrupted_update).any (fun s =>
        s.manifest = some (versioned ['2']) && bind_line [] "lib64/b.so".toList ∈ s.lines &&
          s.overlay.lookup "lib64/b.so".toList ≠ none && s.overlay.lookup "lib64/a.so".toList = none) = true := by
      decide
    obtain ⟨s, hexec, hs⟩ := (Option.any_eq_true _ _).mp hstate
    simp only [Bool.and_eq_true, decide_eq_true_eq] at hs
    obtain ⟨⟨⟨hm, hline⟩, hb⟩, ha⟩ := hs
    have hrun := h [] [] (fun _ hline => absurd hline List.not_mem_nil) interrupted_update
    rcases hrun.last hexec (versioned ['2']) hm with hnothing | ⟨-, hcontents⟩
    · exact hnothing "lib64/b.so".toList ⟨hline, hb⟩
    · have hcontent := hcontents ⟨"lib64/a.so".toList, ['2']⟩ List.mem_cons_self
      rw [ha] at hcontent
      cases hcontent
  · have hrun := h [] [marker] foreign_marker [.start .reset (versioned ['1']), .next]
    obtain ⟨bindings, -, hlines⟩ := hrun.last rfl
    cases hlines

end AnboxReboxed.Scripts.GlesCompat
