import AnboxReboxed.Application.LauncherStorage

/-!
# Proofs: what a launcher runs

The keys of an entry are those that are written, and behind each text of the guest the keys that it brings along. The
names of the files are harmless whatever the guest says, as no dot of a package is left in them.
-/

namespace AnboxReboxed.Application

open AnboxReboxed.Lib ByteString

variable {a b s t : ByteString}

/-! ## The lines -/

theorem parse_endl_append (s t : ByteString) : parse (endl s ++ t) = parse s ++ parse t := by
  have h : endl s ++ t = s ++ newline :: t := by simp [endl]
  rw [h, parse_append_newline]

theorem parse_endl (s : ByteString) : parse (endl s) = parse s := by
  have h := parse_endl_append s []
  rwa [List.append_nil, parse_nil, List.append_nil] at h

/-- The keys and values of a desktop entry. -/
theorem parse_desktop_item (storage : LauncherStorage) (process : Process) (item : Item) :
    parse (storage.desktop_item process item) =
      (.of "Type", .of "Application") :: (.of "Name", firstLine item.name) :: (parse (afterBreak item.name) ++
      (.of "Exec", firstLine (exec process.executable item.launch_intent)) ::
        (parse (afterBreak (exec process.executable item.launch_intent)) ++
      (.of "Terminal", .of "false") :: (.of "Categories", .of "Anbox;") ::
      (.of "Icon", firstLine (storage.path_for_item_icon (LauncherStorage.clean_package_name item.package))) ::
        parse (afterBreak (storage.path_for_item_icon (LauncherStorage.clean_package_name item.package))))) := by
  have hkey : ∀ key text : String, equals ∉ ByteString.of key → newline ∉ ByteString.of key →
      ByteString.of text = ByteString.of key ++ [equals] → ∀ value, parse (.of text ++ value) =
        (.of key, firstLine value) :: parse (afterBreak value) := by
    intro key text hequals hnewline htext value
    rw [htext, List.append_assoc, List.singleton_append, parse_key hequals hnewline]
  have htype : parse (.of "Type=Application") = [(.of "Type", .of "Application")] :=
    hkey "Type" "Type=" (by decide) (by decide) rfl (.of "Application")
  have hterminal : parse (.of "Terminal=false") = [(.of "Terminal", .of "false")] :=
    hkey "Terminal" "Terminal=" (by decide) (by decide) rfl (.of "false")
  have hcategories : parse (.of "Categories=Anbox;") = [(.of "Categories", .of "Anbox;")] :=
    hkey "Categories" "Categories=" (by decide) (by decide) rfl (.of "Anbox;")
  have hheader : parse (.of "[Desktop Entry]") = [] := parse_eq_nil.mpr (by decide)
  simp only [LauncherStorage.desktop_item, List.append_assoc]
  rw [parse_endl_append, parse_endl_append, parse_endl_append, parse_endl_append, parse_endl_append,
    parse_endl_append, parse_endl, hheader, htype, hterminal, hcategories,
    hkey "Name" "Name=" (by decide) (by decide) rfl, hkey "Exec" "Exec=" (by decide) (by decide) rfl,
    hkey "Icon" "Icon=" (by decide) (by decide) rfl]
  rfl

/-- The entry has its keys, and no others, when no text brings a key along. -/
theorem keys_iff {names commands icons : List (ByteString × ByteString)} {name command icon : ByteString} :
    ((ByteString.of "Type", ByteString.of "Application") :: (ByteString.of "Name", name) :: (names ++
      (ByteString.of "Exec", command) :: (commands ++ (ByteString.of "Terminal", ByteString.of "false") ::
      (ByteString.of "Categories", ByteString.of "Anbox;") :: (ByteString.of "Icon", icon) :: icons))).map Prod.fst =
      [.of "Type", .of "Name", .of "Exec", .of "Terminal", .of "Categories", .of "Icon"] ↔
    names = [] ∧ commands = [] ∧ icons = [] := by
  constructor
  · intro h
    have hlen := congrArg List.length h
    simp only [List.length_map, List.length_cons, List.length_append, List.length_nil] at hlen
    simp only [← List.length_eq_zero_iff]
    omega
  · rintro ⟨rfl, rfl, rfl⟩
    rfl

theorem runs_iff (storage : LauncherStorage) (process : Process) (item : Item) :
    LauncherStorage.Runs process.executable (storage.desktop_item process item) ↔
      equals ∉ afterBreak item.name ∧ equals ∉ afterBreak (exec process.executable item.launch_intent) ∧
      equals ∉ afterBreak (storage.path_for_item_icon (LauncherStorage.clean_package_name item.package)) ∧
      process.executable ++ .of " launch " <+: firstLine (exec process.executable item.launch_intent) := by
  have hparse := parse_desktop_item storage process item
  constructor
  · rintro ⟨hkeys, hcommand⟩
    rw [hparse, keys_iff, parse_eq_nil, parse_eq_nil, parse_eq_nil] at hkeys
    refine ⟨hkeys.1, hkeys.2.1, hkeys.2.2, hcommand _ ?_⟩
    rw [hparse]
    simp
  · rintro ⟨hname, hexec, hicon, hprefix⟩
    rw [parse_eq_nil.mpr hname, parse_eq_nil.mpr hexec, parse_eq_nil.mpr hicon] at hparse
    constructor
    · rw [hparse]
      rfl
    · intro value hvalue
      rw [hparse] at hvalue
      have hne : ∀ key : String, ByteString.of "Exec" ≠ ByteString.of key → ∀ v, (ByteString.of "Exec", value) ≠
          (ByteString.of key, v) := fun key h v heq => h (Prod.mk.inj heq).1
      simp only [List.nil_append, List.mem_cons, List.not_mem_nil, or_false,
        hne "Type" (by decide), hne "Name" (by decide), hne "Terminal" (by decide), hne "Categories" (by decide),
        hne "Icon" (by decide), false_or] at hvalue
      rw [(Prod.mk.inj hvalue).2]
      exact hprefix

/-! ## The command -/

theorem mem_argument_of_ne_nil {option value : ByteString} (h : value ≠ []) : equals ∈ argument option value := by
  rw [argument, if_neg h]
  simp

/-- The arguments have no equals sign when there are none. -/
theorem equals_not_mem_arguments (options : List (ByteString × ByteString)) :
    equals ∉ (options.flatMap fun o => argument o.1 o.2) ↔ ∀ option ∈ options, option.2 = [] := by
  rw [List.mem_flatMap]
  constructor
  · intro h option hoption
    by_contra hne
    exact h ⟨option, hoption, mem_argument_of_ne_nil hne⟩
  · rintro h ⟨option, hoption, hmem⟩
    rw [argument, if_pos (h option hoption)] at hmem
    cases hmem

/-- The arguments bring no key along when no value does, and a value with a line break is the last one. -/
theorem unbroken_arguments (options : List (ByteString × ByteString))
    (hoptions : ∀ option ∈ options, newline ∉ option.1) :
    equals ∉ afterBreak (options.flatMap fun o => argument o.1 o.2) ↔
      (∀ option ∈ options, equals ∉ afterBreak option.2) ∧
      options.Pairwise fun option next => newline ∈ option.2 → next.2 = [] := by
  induction options with
  | nil => simp [afterBreak]
  | cons o options ih =>
    have ih := ih fun option h => hoptions option (List.mem_cons_of_mem _ h)
    have ho : newline ∉ o.1 ++ [equals] := by
      rw [List.mem_append, not_or]
      exact ⟨hoptions o List.mem_cons_self, by decide⟩
    rw [List.flatMap_cons, List.forall_mem_cons, List.pairwise_cons]
    by_cases hempty : o.2 = []
    · rw [argument, if_pos hempty, List.nil_append, ih, hempty]
      simp [afterBreak]
    · have hargument : argument o.1 o.2 = (o.1 ++ [equals]) ++ (o.2 ++ .of " ") := by
        rw [argument, if_neg hempty]
        simp
      rw [hargument, List.append_assoc, afterBreak_append_of_not_mem ho, List.append_assoc]
      by_cases hbreak : newline ∈ o.2
      · have hspace : equals ∉ ByteString.of " " := by decide
        rw [afterBreak_append_of_mem hbreak, List.mem_append, List.mem_append, not_or, not_or,
          equals_not_mem_arguments]
        constructor
        · rintro ⟨hvalue, -, hrest⟩
          refine ⟨⟨hvalue, fun option h => ?_⟩, fun option h _ => hrest option h, ?_⟩
          · rw [hrest option h]
            simp [afterBreak]
          · apply List.Pairwise.imp_of_mem _ (List.pairwise_of_forall_mem_list fun _ _ _ _ => trivial)
            intro x y _ hy _ _
            exact hrest y hy
        · rintro ⟨⟨hvalue, -⟩, hlast, -⟩
          exact ⟨hvalue, hspace, fun option h => hlast option h hbreak⟩
      · have hspace : newline ∉ ByteString.of " " := by decide
        rw [afterBreak_append_of_not_mem hbreak, afterBreak_append_of_not_mem hspace, ih, afterBreak_eq_nil hbreak]
        constructor
        · rintro ⟨hvalues, hpairs⟩
          exact ⟨⟨List.not_mem_nil, hvalues⟩, fun _ _ h => absurd h hbreak, hpairs⟩
        · rintro ⟨⟨-, hvalues⟩, -, hpairs⟩
          exact ⟨hvalues, hpairs⟩

theorem options_plain (intent : Intent) : ∀ option ∈ intent.options, newline ∉ option.1 := by
  have hoptions : intent.options.map Prod.fst = [.of "--action", .of "--type", .of "--uri", .of "--package",
      .of "--component"] := rfl
  have hplain : ∀ option ∈ intent.options.map Prod.fst, newline ∉ option := by
    rw [hoptions]
    decide
  exact fun option h => hplain option.1 (List.mem_map_of_mem h)

/-- The command starts as it should exactly when there is no line break in the path of the executable. -/
theorem launch_prefix_iff (executable : ByteString) (intent : Intent) :
    executable ++ .of " launch " <+: firstLine (exec executable intent) ↔ newline ∉ executable := by
  constructor
  · rintro ⟨rest, hrest⟩ hmem
    apply newline_not_mem_firstLine (exec executable intent)
    rw [← hrest]
    exact List.mem_append_left _ (List.mem_append_left _ hmem)
  · intro h
    have hlaunch : newline ∉ executable ++ .of " launch " := by
      rw [List.mem_append, not_or]
      exact ⟨h, by decide⟩
    have hall : ∀ b ∈ executable ++ .of " launch ", decide (b ≠ newline) = true := by
      intro b hb
      have hne : b ≠ newline := fun heq => hlaunch (heq ▸ hb)
      simpa using hne
    rw [exec, firstLine, List.takeWhile_append_of_pos hall]
    exact List.prefix_append _ _

theorem unbroken_exec {executable : ByteString} (h : newline ∉ executable) (intent : Intent) :
    equals ∉ afterBreak (exec executable intent) ↔ (∀ option ∈ intent.options, equals ∉ afterBreak option.2) ∧
      intent.options.Pairwise fun option next => newline ∈ option.2 → next.2 = [] := by
  have hlaunch : newline ∉ executable ++ .of " launch " := by
    rw [List.mem_append, not_or]
    exact ⟨h, by decide⟩
  rw [exec, afterBreak_append_of_not_mem hlaunch, unbroken_arguments _ (options_plain intent)]

/-! ## The paths -/

namespace LauncherStorage

theorem equals_mem_clean {package : ByteString} : equals ∈ clean_package_name package ↔ equals ∈ package := by
  rw [clean_package_name, List.mem_map]
  constructor
  · rintro ⟨b, hb, heq⟩
    by_cases hdot : b = dot
    · rw [if_pos hdot] at heq
      exact absurd heq (by decide)
    · rw [if_neg hdot] at heq
      rwa [← heq]
  · intro h
    exact ⟨equals, h, if_neg (by decide)⟩

theorem dot_not_mem_clean (package : ByteString) : dot ∉ clean_package_name package := by
  intro h
  obtain ⟨b, _, heq⟩ := List.mem_map.mp h
  by_cases hdot : b = dot
  · rw [if_pos hdot] at heq
    exact absurd heq (by decide)
  · rw [if_neg hdot] at heq
    exact hdot heq

theorem afterBreak_clean (package : ByteString) :
    afterBreak (clean_package_name package) = clean_package_name (afterBreak package) := by
  rw [afterBreak, clean_package_name, List.dropWhile_map, afterBreak, clean_package_name]
  congr 2
  funext b
  by_cases hdot : b = dot
  · rw [hdot]
    decide
  · simp [hdot]

/-- Some text between two others that has neither a line break nor an equals sign makes no difference. -/
theorem equals_mem_afterBreak_between (hequals : equals ∉ t) (hnewline : newline ∉ t) :
    equals ∈ afterBreak (a ++ (t ++ b)) ↔ equals ∈ afterBreak (a ++ b) := by
  rw [mem_afterBreak_append, afterBreak_append_of_not_mem hnewline, List.mem_append, or_iff_right hequals,
    ← mem_afterBreak_append]

/-- The path of the icon brings a key along exactly when the directory and the package do. -/
theorem equals_mem_icon (storage : LauncherStorage) (package : ByteString) :
    equals ∈ afterBreak (storage.path_for_item_icon (clean_package_name package)) ↔
      equals ∈ afterBreak (storage.path_ ++ package) := by
  have hname : equals ∈ afterBreak (storage.path_ ++ (ByteString.of "anbox-" ++ (clean_package_name package ++
      .of ".png"))) ↔ equals ∈ afterBreak (storage.path_ ++ package) := by
    rw [equals_mem_afterBreak_between (by decide) (by decide), ← List.append_assoc]
    have hend := equals_mem_afterBreak_between (a := storage.path_ ++ clean_package_name package)
      (b := []) (t := .of ".png") (by decide) (by decide)
    rw [List.append_nil, List.append_nil] at hend
    rw [hend, mem_afterBreak_append, mem_afterBreak_append, afterBreak_clean, equals_mem_clean, equals_mem_clean]
  rw [path_for_item_icon, join, List.append_assoc]
  split_ifs with hpath
  · exact hname
  · rw [← List.singleton_append, equals_mem_afterBreak_between (by decide) (by decide)]
    exact hname

theorem c_str_join (storage : LauncherStorage) (name : ByteString) :
    c_str (join storage.path_ name) = join storage.path_ (c_str name) := by
  have hzero : ∀ b ∈ storage.path_, decide (b ≠ 0) = true := by
    intro b hb
    have hne : b ≠ 0 := fun heq => storage.no_zero (heq ▸ hb)
    simpa using hne
  unfold join
  split_ifs with hpath
  · exact List.takeWhile_append_of_pos hzero
  · rw [c_str, List.takeWhile_append_of_pos hzero, List.takeWhile_cons_of_pos (by decide)]
    rfl

/-- The file of a package is below the directory, whatever the package is called. -/
theorem inside_of_package (storage : LauncherStorage) (package suffix : ByteString)
    (hsuffix : suffix.count dot ≤ 1) :
    storage.Inside (c_str (join storage.path_ (.of "anbox-" ++ clean_package_name package ++ suffix))) := by
  have hname : c_str (.of "anbox-" ++ clean_package_name package ++ suffix) =
      .of "anbox-" ++ c_str (clean_package_name package ++ suffix) := by
    rw [c_str, List.append_assoc, List.takeWhile_append_of_pos (List.all_eq_true.mp rfl)]
    rfl
  refine ⟨c_str (.of "anbox-" ++ clean_package_name package ++ suffix), c_str_join storage _, ?_, ?_, ?_⟩
  · rw [hname]
    exact List.cons_ne_nil _ _
  · rw [hname]
    exact fun h => absurd (Option.some.inj h) (by decide)
  · intro hdots
    have htwo : 2 ≤ (c_str (.of "anbox-" ++ clean_package_name package ++ suffix)).count dot :=
      hdots.sublist.count_le dot
    have hle : (c_str (.of "anbox-" ++ clean_package_name package ++ suffix)).count dot ≤
        (ByteString.of "anbox-" ++ clean_package_name package ++ suffix).count dot :=
      (List.takeWhile_sublist _).count_le dot
    have hanbox : (ByteString.of "anbox-").count dot = 0 := by decide
    have hpackage : (clean_package_name package).count dot = 0 := List.count_eq_zero.mpr (dot_not_mem_clean package)
    rw [List.count_append, List.count_append] at hle
    omega

theorem inside_of_mem (storage : LauncherStorage) (process : Process) (item : Item) :
    ∀ file ∈ storage.add_or_update process item, storage.Inside file.1 := by
  intro file hfile
  simp only [add_or_update, List.mem_cons, List.not_mem_nil, or_false] at hfile
  rcases hfile with rfl | rfl
  · exact inside_of_package storage _ _ (by decide)
  · exact inside_of_package storage _ _ (by decide)

/-- The files for an item are harmless exactly when no text of the guest or of the host brings a key along. -/
theorem harmless_iff_unbroken (storage : LauncherStorage) (process : Process) (item : Item) :
    storage.Harmless process item ↔ storage.Unbroken process item := by
  constructor
  · rintro ⟨⟨entry, icon, hfiles, hruns⟩, -⟩
    have hentry : entry.2 = storage.desktop_item process item := by
      have hhead := (List.cons.inj hfiles).1
      rw [← hhead]
    rw [hentry, runs_iff, equals_mem_icon, launch_prefix_iff] at hruns
    obtain ⟨hname, hexec, hicon, hexecutable⟩ := hruns
    obtain ⟨hvalue, hlast⟩ := (unbroken_exec hexecutable _).mp hexec
    exact ⟨hname, hexecutable, hvalue, hlast, hicon⟩
  · rintro ⟨hname, hexecutable, hvalue, hlast, hicon⟩
    refine ⟨⟨_, _, rfl, ?_⟩, inside_of_mem storage process item⟩
    rw [runs_iff, equals_mem_icon, launch_prefix_iff]
    exact ⟨hname, (unbroken_exec hexecutable _).mpr ⟨hvalue, hlast⟩, hicon, hexecutable⟩

/-- A directory for the launchers. -/
def applications : LauncherStorage where
  path_ := .of "/home/user/applications/anbox"
  no_zero := by decide

/-- A name with a line break in it adds a command of its own. -/
theorem name_adds_command :
    ¬applications.Harmless { exe_path := .of "/usr/bin/anbox" }
      { name := .of "Game\nExec=/bin/sh", package := .of "org.game" } := by
  rintro ⟨⟨entry, icon, hfiles, hruns⟩, -⟩
  have hentry := (List.cons.inj hfiles).1
  rw [← hentry, runs_iff] at hruns
  exact hruns.1 (by decide)

end LauncherStorage

end AnboxReboxed.Application
