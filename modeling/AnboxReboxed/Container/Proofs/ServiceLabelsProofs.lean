import AnboxReboxed.Container.ServiceLabels

/-!
# Proofs: the init files of the container

The generated file is read beside the lines it was made of. As long as options are put in behind declarations only, the
two readers agree on everything but these options.
-/

namespace AnboxReboxed.Container

open AnboxReboxed.Lib AnboxReboxed.Lib.InitScript

variable {file : InitFile}

/-! ## The lines -/

/-- A line that `init` reads as an option. -/
def IsOption (line : Line) : Prop := continues line = false ∧ kind line = .option

theorem isOption_seclabel : IsOption "    seclabel u:r:init:s0".toList := by
  constructor <;> decide +kernel

/-- A line that sets a variable, by its words. -/
theorem words_setenv (value : Line) :
    words ("    setenv LD_PRELOAD ".toList ++ value) = "setenv".toList :: "LD_PRELOAD".toList :: words value := by
  show words (' ' :: ' ' :: ' ' :: ' ' :: ("setenv".toList ++ ' ' :: ("LD_PRELOAD".toList ++ ' ' :: value))) = _
  have hblank : blank ' ' = true := rfl
  have hsetenv : ∀ c ∈ "setenv".toList, blank c = false := by simp [blank]
  have hpreload : ∀ c ∈ "LD_PRELOAD".toList, blank c = false := by simp [blank]
  unfold words
  rw [Delimited.words_cons hblank, Delimited.words_cons hblank, Delimited.words_cons hblank,
    Delimited.words_cons hblank, Delimited.words_cut (by simp) hsetenv hblank,
    Delimited.words_cut (by simp) hpreload hblank]

/-- The lines of `preloads` are options, and set no label. -/
theorem preloads_cases {line option : Line} (h : option ∈ file.preloads line) :
    IsOption option ∧ seclabel option = none ∧ "    setenv LD_PRELOAD ".toList <+: option := by
  have hall : ∀ option ∈ [
      "    setenv LD_PRELOAD /data/anbox/libanbox_pipe_compat.so".toList,
      "    setenv LD_PRELOAD /data/anbox/libanbox_installd_selinux_compat.so".toList, preload64, preload32],
      continues option = false ∧ "    setenv LD_PRELOAD ".toList <+: option := by
    decide +kernel
  have hmem : option ∈ [
      "    setenv LD_PRELOAD /data/anbox/libanbox_pipe_compat.so".toList,
      "    setenv LD_PRELOAD /data/anbox/libanbox_installd_selinux_compat.so".toList, preload64, preload32] := by
    simp only [InitFile.preloads, List.mem_append] at h
    rcases h with ((h | h) | h) | h
    all_goals
      split at h
      · simp_all
      · exact absurd h List.not_mem_nil
  obtain ⟨hends, value, rfl⟩ := hall option hmem
  refine ⟨⟨hends, ?_⟩, ?_, List.prefix_append _ _⟩
  · rw [kind, words_setenv]
    rfl
  · rw [seclabel, words_setenv]
    rfl

theorem inserted_isOption {s : ScannedLine} {option : Line} (h : option ∈ file.inserted s) : IsOption option := by
  unfold InitFile.inserted at h
  cases hdeclared : s.declared with
  | none => simp [hdeclared] at h
  | some options =>
    rw [hdeclared] at h
    rcases List.mem_append.1 h with h | h
    · exact (preloads_cases h).1
    · split at h
      · exact absurd h List.not_mem_nil
      · rw [List.mem_singleton.1 h]
        exact isOption_seclabel

/-! ## Two readers -/

/-- The options behind a service. -/
def addedTo (file : InitFile) (s : Service ScannedLine) : List Line :=
  match lastLine s with
  | none => []
  | some l => file.inserted l

/-- The service with the options put in. -/
def expand (file : InitFile) (s : Service ScannedLine) : Service (Option ScannedLine) where
  declaration := s.declaration.retag some
  options := (addedTo file s).map (fun option => [(none, option)]) ++ s.options.map (Statement.retag some)

theorem expand_addOption (s : Service ScannedLine) (option : Statement ScannedLine) :
    expand file (s.addOption option) = (expand file s).addOption (option.retag some) := by
  simp [expand, Service.addOption, addedTo, lastLine]

/-- `r` reads the shown lines, and `r'` the generated ones. -/
structure Sim (file : InitFile) (r : Reader ScannedLine) (r' : Reader (Option ScannedLine)) : Prop where
  pending : r'.pending = r.pending.retag some
  quiet : ∀ line ∈ r.pending, file.inserted line.1 = []
  services : r'.services = r.services.map (expand file)
  inService : r'.inService = r.inService

namespace Sim

variable {r : Reader ScannedLine} {r' : Reader (Option ScannedLine)} {s : ScannedLine}

theorem retag_append (h : Sim file r r') :
    r'.pending ++ [(some s, s.shown)] = (r.pending ++ [(s, s.shown)]).retag some := by
  rw [h.pending]
  simp [Statement.retag]

theorem atDeclaration_iff (h : Sim file r r') :
    (r'.read (some s, s.shown)).AtDeclaration ↔ (r.read (s, s.shown)).AtDeclaration := by
  cases hcontinues : continues s.shown with
  | true =>
    exact iff_of_false (Reader.not_atDeclaration_of_continues hcontinues)
      (Reader.not_atDeclaration_of_continues hcontinues)
  | false =>
    rw [Reader.read_complete hcontinues, Reader.read_complete hcontinues, Reader.atDeclaration_take,
      Reader.atDeclaration_take, h.retag_append, Statement.text_retag]

/-- A statement that is not a declaration, taken by both readers. -/
theorem take (h : Sim file r r') {statement : Statement ScannedLine} (hkind : kind statement.text ≠ .service) :
    Sim file (r.take statement) (r'.take (statement.retag some)) := by
  have htext : (statement.retag some).text = statement.text := Statement.text_retag some statement
  cases hstatement : kind statement.text with
  | service => exact absurd hstatement hkind
  | «section» =>
    rw [Reader.take_section hstatement, Reader.take_section (htext.symm ▸ hstatement)]
    exact ⟨rfl, fun _ hline => absurd hline List.not_mem_nil, h.services, rfl⟩
  | option =>
    rw [Reader.take_option hstatement, Reader.take_option (htext.symm ▸ hstatement)]
    refine ⟨rfl, fun _ hline => absurd hline List.not_mem_nil, ?_, h.inService⟩
    dsimp only
    rw [h.inService, h.services]
    split
    · cases r.services with
      | nil => rfl
      | cons service services => simp [expand_addOption]
    · rfl

/-- A line with its options, when it meets the condition for them. -/
theorem read (h : Sim file r r') (hplaced : file.inserted s ≠ [] → (r.read (s, s.shown)).AtDeclaration) :
    Sim file (r.read (s, s.shown)) (r'.readAll (taggedLines (s, file.inserted s))) := by
  have hread : r'.readAll (taggedLines (s, file.inserted s))
      = (r'.read (some s, s.shown)).readAll ((file.inserted s).map fun option => (none, option)) := rfl
  rw [hread]
  cases hcontinues : continues s.shown with
  | true =>
    have hnone : file.inserted s = [] :=
      not_not.1 (mt hplaced (Reader.not_atDeclaration_of_continues hcontinues))
    rw [Reader.read_continues hcontinues, Reader.read_continues hcontinues, hnone]
    refine ⟨h.retag_append, fun line hline => ?_, h.services, h.inService⟩
    rcases List.mem_append.1 hline with hline | hline
    · exact h.quiet line hline
    · rw [List.mem_singleton.1 hline]
      exact hnone
  | false =>
    rw [Reader.read_complete hcontinues, Reader.read_complete hcontinues, h.retag_append]
    by_cases hkind : kind (r.pending ++ [(s, s.shown)] : Statement ScannedLine).text = .service
    · have hkind' := (Statement.text_retag some (r.pending ++ [(s, s.shown)])).symm ▸ hkind
      rw [Reader.take_service hkind, Reader.take_service hkind']
      have hoptions : ∀ line ∈ (file.inserted s).map fun option => ((none : Option ScannedLine), option),
          continues line.2 = false ∧ kind line.2 = .option := by
        intro line hline
        obtain ⟨option, hoption, rfl⟩ := List.mem_map.1 hline
        exact inserted_isOption hoption
      obtain ⟨hpending, hservice, hservices⟩ := Reader.readAll_options
        (r := ⟨[], _, ⟨(r.pending ++ [(s, s.shown)]).retag some, []⟩ :: r'.services, true⟩) rfl rfl rfl hoptions
      refine ⟨hpending, fun _ hline => absurd hline List.not_mem_nil, ?_, hservice⟩
      rw [hservices, h.services]
      simp [expand, addedTo, lastLine]
    · have hnone : file.inserted s = [] := by
        refine not_not.1 (mt hplaced ?_)
        rwa [Reader.read_complete hcontinues, Reader.atDeclaration_take]
      rw [hnone]
      exact h.take hkind

/-- A run of both readers. -/
theorem run (scanned : List ScannedLine) : ∀ {r : Reader ScannedLine} {r' : Reader (Option ScannedLine)},
    Sim file r r' →
      (generatedScript.AllSteps
          (fun r entry => entry.2 ≠ [] → (r.read (some entry.1, entry.1.shown)).AtDeclaration) r'
          (scanned.map fun s => (s, file.inserted s)) ↔
        shownScript.AllSteps (fun r s => file.inserted s ≠ [] → (r.read (s, s.shown)).AtDeclaration) r scanned) ∧
      (shownScript.AllSteps (fun r s => file.inserted s ≠ [] → (r.read (s, s.shown)).AtDeclaration) r scanned →
        Sim file (scanned.foldl (fun r s => r.read (s, s.shown)) r)
          ((scanned.map fun s => (s, file.inserted s)).foldl (fun r entry => r.readAll (taggedLines entry)) r')) := by
  induction scanned with
  | nil => exact fun h => ⟨Iff.rfl, fun _ => h⟩
  | cons s scanned ih =>
    intro r r' h
    have hstep : shownScript.step r s = some (r.read (s, s.shown)) := rfl
    have hstep' : generatedScript.step r' (s, file.inserted s)
        = some (r'.readAll (taggedLines (s, file.inserted s))) := rfl
    rw [List.map_cons, Machine.allSteps_cons hstep, Machine.allSteps_cons hstep']
    constructor
    · constructor
      · rintro ⟨hplaced, hrest⟩
        have hplaced' := fun hne => h.atDeclaration_iff.1 (hplaced hne)
        exact ⟨hplaced', (ih (h.read hplaced')).1.1 hrest⟩
      · rintro ⟨hplaced, hrest⟩
        exact ⟨fun hne => h.atDeclaration_iff.2 (hplaced hne), (ih (h.read hplaced)).1.2 hrest⟩
    · rintro ⟨hplaced, hrest⟩
      exact (ih (h.read hplaced)).2 hrest

/-- At the end a statement that goes on is complete. No options were put in behind its lines. -/
theorem finish (h : Sim file r r') : r'.finish.services = r.finish.services.map (expand file) := by
  unfold Reader.finish
  by_cases hpending : r.pending = []
  · have hpending' : r'.pending = [] := by rw [h.pending, hpending]; rfl
    rw [if_pos hpending, if_pos hpending', h.services]
  have hpending' : r'.pending ≠ [] := by
    rw [h.pending]
    simpa [Statement.retag] using hpending
  rw [if_neg hpending, if_neg hpending', h.pending]
  by_cases hkind : kind r.pending.text = .service
  · have hkind' := (Statement.text_retag some r.pending).symm ▸ hkind
    have hadded : addedTo file ⟨r.pending, []⟩ = [] := by
      obtain ⟨line, hline⟩ : ∃ line, r.pending.getLast? = some line :=
        ⟨_, List.getLast?_eq_some_getLast hpending⟩
      simp only [addedTo, lastLine, hline, Option.map_some]
      exact h.quiet line (List.mem_of_getLast? hline)
    rw [Reader.take_service hkind, Reader.take_service hkind', h.services, List.map_cons]
    simp [expand, hadded]
  · exact (h.take hkind).services

end Sim

/-! ## Labels -/

end AnboxReboxed.Container
