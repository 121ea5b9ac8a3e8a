import AnboxReboxed.Application.Database
import AnboxReboxed.Application.Proofs.LauncherStorageProofs
import Mathlib.Data.List.TakeWhile

/-!
# Proofs: when the list of applications is mirrored

The items follow from the order of the events alone. The launchers do as long as the file of a package is one of the
directory, and each package has a file of its own: an application that is stored or removed touches its two files.
-/

namespace AnboxReboxed.Application

open AnboxReboxed.Lib ByteString Function

variable {storage_ : LauncherStorage} {process : Process} {package package' : ByteString}

/-! ## The files of a package -/

theorem join_eq (path name : ByteString) : join path name = join path [] ++ name := by
  unfold join
  split_ifs with h
  · rw [List.append_nil]
  · rw [List.append_assoc]
    rfl

theorem join_inj {path name name' : ByteString} : join path name = join path name' ↔ name = name' := by
  rw [join_eq path name, join_eq path name']
  exact List.append_cancel_left_eq _ _ _ |>.to_iff

namespace LauncherStorage

theorem mem_clean {b : UInt8} (hdot : b ≠ dot) (hdash : b ≠ dash) :
    b ∈ clean_package_name package ↔ b ∈ package := by
  rw [clean_package_name, List.mem_map]
  constructor
  · rintro ⟨c, hc, heq⟩
    by_cases hcdot : c = dot
    · rw [if_pos hcdot] at heq
      exact absurd heq.symm hdash
    · rw [if_neg hcdot] at heq
      rwa [← heq]
  · intro h
    exact ⟨b, h, if_neg hdot⟩

/-- The name of a package's file. -/
def name_for (package suffix : ByteString) : ByteString := .of "anbox-" ++ clean_package_name package ++ suffix

theorem c_str_of_not_mem {name : ByteString} (h : 0 ∉ name) : c_str name = name := by
  apply List.takeWhile_eq_self_iff.mpr
  intro b hb
  have hne : b ≠ 0 := fun heq => h (heq ▸ hb)
  simpa using hne

theorem zero_not_mem_name {suffix : ByteString} (h : 0 ∉ package) (hsuffix : 0 ∉ suffix) :
    0 ∉ name_for package suffix := by
  have hpackage : 0 ∉ clean_package_name package := fun hmem => h ((mem_clean (by decide) (by decide)).mp hmem)
  simp only [name_for, List.mem_append, not_or]
  exact ⟨⟨by decide, hpackage⟩, hsuffix⟩

/-- The file of a package without a zero, with a dot and an ending behind it. -/
theorem file_eq {suffix : ByteString} (h : 0 ∉ package) (hsuffix : 0 ∉ suffix) :
    c_str (join storage_.path_ (name_for package suffix)) = join storage_.path_ (name_for package suffix) := by
  rw [c_str_join, c_str_of_not_mem (zero_not_mem_name h hsuffix)]

theorem launcher_eq (h : 0 ∉ package) :
    storage_.launcher package = join storage_.path_ (name_for package (.of ".desktop")) := file_eq h (by decide)

/-- The file of a package is a launcher exactly when the package has no zero and is the name of a file. -/
theorem isLauncher_iff : storage_.IsLauncher (storage_.launcher package) ↔ slash ∉ package ∧ 0 ∉ package := by
  constructor
  · rintro ⟨name, hname, hslash, -, hsuffix⟩
    have hzero : 0 ∉ package := by
      intro hmem
      -- The name ends before the dot.
      have hcut : name = c_str (name_for package (.of ".desktop")) := by
        rw [launcher, path_for_item, c_str_join, join_inj] at hname
        exact hname.symm
      have hfront : c_str (name_for package (.of ".desktop")) = .of "anbox-" ++ c_str (clean_package_name package) := by
        have hclean : 0 ∈ clean_package_name package := (mem_clean (by decide) (by decide)).mpr hmem
        have hstop : ¬∀ b ∈ clean_package_name package, decide (b ≠ 0) = true :=
          fun h => absurd (h 0 hclean) (by decide)
        rw [c_str, name_for, List.append_assoc, List.takeWhile_append_of_pos (List.all_eq_true.mp rfl), c_str]
        congr 1
        rw [List.takeWhile_append, if_neg]
        intro hlen
        apply hstop
        exact List.takeWhile_eq_self_iff.mp ((List.takeWhile_sublist _).eq_of_length hlen)
      have hdot : dot ∈ name := hsuffix.subset (by decide)
      rw [hcut, hfront, List.mem_append] at hdot
      rcases hdot with hdot | hdot
      · exact absurd hdot (by decide)
      · exact dot_not_mem_clean package ((List.takeWhile_sublist _).subset hdot)
    refine ⟨fun hmem => ?_, hzero⟩
    rw [launcher_eq hzero, join_inj] at hname
    apply hslash
    rw [← hname]
    have hclean : slash ∈ clean_package_name package := (mem_clean (by decide) (by decide)).mpr hmem
    exact List.mem_append_left _ (List.mem_append_right _ hclean)
  · rintro ⟨hslash, hzero⟩
    refine ⟨_, launcher_eq hzero, ?_, ⟨_, (List.append_assoc _ _ _).symm⟩, List.suffix_append _ _⟩
    have hclean : slash ∉ clean_package_name package := fun h => hslash ((mem_clean (by decide) (by decide)).mp h)
    simp only [name_for, List.mem_append, not_or]
    exact ⟨⟨by decide, hclean⟩, by decide⟩

/-- Packages without a zero have the same file exactly when they are the same up to the dots. -/
theorem launcher_eq_iff (h : 0 ∉ package) (h' : 0 ∉ package') :
    storage_.launcher package = storage_.launcher package' ↔
      clean_package_name package = clean_package_name package' := by
  rw [launcher_eq h, launcher_eq h', join_inj, name_for, name_for]
  constructor
  · intro heq
    exact List.append_cancel_left (List.append_cancel_right heq)
  · intro heq
    rw [heq]

/-- The icon of a package is no launcher. -/
theorem not_isLauncher_icon (h : 0 ∉ package) :
    ¬storage_.IsLauncher (c_str (storage_.path_for_item_icon (clean_package_name package))) := by
  rintro ⟨name, hname, -, -, hsuffix⟩
  have hicon : c_str (storage_.path_for_item_icon (clean_package_name package)) =
      join storage_.path_ (name_for package (.of ".png")) := file_eq h (by decide)
  rw [hicon, join_inj] at hname
  have hpng : name.getLast? = some 103 := by
    rw [← hname, name_for, List.getLast?_append]
    rfl
  have htop : name.getLast? = some 112 := by
    obtain ⟨front, hfront⟩ := hsuffix
    rw [← hfront, List.getLast?_append]
    rfl
  exact absurd (hpng.symm.trans htop) (by decide)

/-- The reset leaves no launcher. -/
theorem reset_launcher {path : ByteString} (files : Files) (h : storage_.IsLauncher path) :
    storage_.reset files path = none := by
  obtain ⟨name, rfl, hslash, hanbox, -⟩ := h
  have hname : storage_.entry_name (join storage_.path_ name) = some name := by
    rw [entry_name, join_eq storage_.path_ name, List.drop_left, if_pos ⟨List.prefix_append _ _, hslash⟩]
  rw [reset, hname]
  exact if_pos hanbox

end LauncherStorage

/-! ## The items -/

theorem without_apply (removed : List AndroidApplication) (package : ByteString) : ∀ items : ByteString → Option Item,
    without items removed package = if ∃ app ∈ removed, app.package = package then none else items package := by
  induction removed with
  | nil =>
    intro items
    rw [if_neg (by simp)]
    rfl
  | cons app removed ih =>
    intro items
    have hcons : without items (app :: removed) = without (update items app.package none) removed := rfl
    rw [hcons, ih]
    by_cases hrest : ∃ app ∈ removed, app.package = package
    · have hall : ∃ a ∈ app :: removed, a.package = package := by
        obtain ⟨a, ha, heq⟩ := hrest
        exact ⟨a, List.mem_cons_of_mem _ ha, heq⟩
      rw [if_pos hrest, if_pos hall]
    · rw [if_neg hrest]
      by_cases happ : app.package = package
      · rw [if_pos ⟨app, List.mem_cons_self, happ⟩, happ, update_self]
      · have hnone : ¬∃ a ∈ app :: removed, a.package = package := by
          rintro ⟨a, ha, heq⟩
          rcases List.mem_cons.mp ha with rfl | ha
          · exact happ heq
          · exact hrest ⟨a, ha, heq⟩
        rw [if_neg hnone, update_of_ne (Ne.symm happ)]

theorem overridden_apply (item : AndroidApplication → Item) (applications : List AndroidApplication)
    (h : package ≠ []) : ∀ items : ByteString → Option Item, overridden item items applications package =
      ((Database.latest applications package).map item).or (items package) := by
  induction applications with
  | nil => exact fun items => rfl
  | cons app applications ih =>
    intro items
    have hcons : overridden item items (app :: applications) = overridden item
      (if app.package = [] then items else update items app.package (some (item app))) applications := rfl
    rw [hcons, ih, Database.latest]
    by_cases happ : app.package = package
    · have hne : app.package ≠ [] := fun h' => h (happ.symm.trans h')
      rw [if_neg hne, if_pos happ, happ, update_self]
      cases Database.latest applications package with
      | none => rfl
      | some app' => rfl
    · rw [if_neg happ, Option.or_none]
      by_cases hempty : app.package = []
      · rw [if_pos hempty]
      · rw [if_neg hempty, update_of_ne (Ne.symm happ)]

theorem overridden_nil (item : AndroidApplication → Item) (applications : List AndroidApplication) :
    ∀ items : ByteString → Option Item, overridden item items applications [] = items [] := by
  induction applications with
  | nil => exact fun items => rfl
  | cons app applications ih =>
    intro items
    have hcons : overridden item items (app :: applications) = overridden item
      (if app.package = [] then items else update items app.package (some (item app))) applications := rfl
    rw [hcons, ih]
    by_cases hempty : app.package = []
    · rw [if_pos hempty]
    · rw [if_neg hempty, update_of_ne (Ne.symm hempty)]

theorem latest_eq_none_iff {applications : List AndroidApplication} :
    Database.latest applications package = none ↔ ∀ app ∈ applications, app.package ≠ package := by
  induction applications with
  | nil => simp [Database.latest]
  | cons app applications ih =>
    rw [Database.latest, Option.or_eq_none_iff, ih, List.forall_mem_cons]
    by_cases happ : app.package = package
    · simp [happ]
    · simp [happ]

namespace Database

variable {db : Database} {event : ApplicationListUpdateEvent} {item : Item}

/-- The item that is stored for an application. -/
def stored (app : AndroidApplication) : Item := { app.item with icon := [] }

theorem items_applications (applications : List AndroidApplication) : ∀ db : Database,
    (applications.foldl (handle_application storage_ process) db).items_ =
      overridden stored db.items_ applications := by
  induction applications with
  | nil => exact fun db => rfl
  | cons app applications ih =>
    intro db
    rw [List.foldl_cons, ih, handle_application]
    by_cases hempty : app.package = []
    · rw [if_pos hempty, overridden, overridden, List.foldl_cons, if_pos hempty]
    · rw [if_neg hempty, overridden, overridden, List.foldl_cons, if_neg hempty]
      rfl

theorem done_reset_applications (applications : List AndroidApplication) : ∀ db : Database,
    (applications.foldl (handle_application storage_ process) db).done_reset = true ↔
      db.done_reset = true ∨ ∃ app ∈ applications, app.package ≠ [] := by
  induction applications with
  | nil => exact fun db => by simp
  | cons app applications ih =>
    intro db
    rw [List.foldl_cons, ih, handle_application]
    by_cases hempty : app.package = []
    · rw [if_pos hempty]
      simp [hempty]
    · rw [if_neg hempty]
      simp [hempty, store_or_update]

/-! ## The launchers -/

/-- The launchers are right once there are any, and there are no items before. -/
structure Sound (storage_ : LauncherStorage) (process : Process) (db : Database) : Prop where
  launchers : db.done_reset = true → db.Launchers storage_ process
  before : db.done_reset = false → ∀ package, db.items_ package = none
  named : db.items_ [] = none

theorem Sound.done_reset (h : db.Sound storage_ process) (hitem : db.items_ package = some item) :
    db.done_reset = true := by
  by_contra hno
  rw [h.before (Bool.eq_false_of_not_eq_true hno)] at hitem
  cases hitem

theorem Launchers.zero_not_mem (h : db.Launchers storage_ process) (hitem : db.items_ package = some item) :
    0 ∉ package := (LauncherStorage.isLauncher_iff.mp (h.written package item hitem).1).2

theorem remove_of_none (h : db.items_ item.package = none) : db.remove storage_ item = db := by
  rw [remove, h]

theorem items_remove (db : Database) (item : Item) :
    (db.remove storage_ item).items_ = update db.items_ item.package none := by
  cases h : db.items_ item.package with
  | none => rw [remove_of_none h, ← h, update_eq_self]
  | some old => rw [remove, h]

theorem sound_remove (h : db.Sound storage_ process) (item : Item) :
    (db.remove storage_ item).Sound storage_ process := by
  cases hold : db.items_ item.package with
  | none => rwa [remove_of_none hold]
  | some old =>
    have hreset := h.done_reset hold
    have hlaunchers := h.launchers hreset
    have hzero := hlaunchers.zero_not_mem hold
    have hremove : db.remove storage_ item =
        { db with files := storage_.remove item db.files, items_ := update db.items_ item.package none } := by
      rw [remove, hold]
    have hitems : ∀ {q it}, update db.items_ item.package none q = some it → q ≠ item.package ∧
        db.items_ q = some it := by
      intro q it hq
      by_cases hne : q = item.package
      · rw [hne, update_self] at hq
        cases hq
      · rw [update_of_ne hne] at hq
        exact ⟨hne, hq⟩
    -- No launcher but that of the item is touched.
    have hfiles : ∀ path, storage_.IsLauncher path → storage_.remove item db.files path =
        if path = storage_.launcher item.package then none else db.files path := by
      intro path hpath
      have hicon : path ≠ c_str (storage_.path_for_item_icon (LauncherStorage.clean_package_name item.package)) :=
        fun heq => LauncherStorage.not_isLauncher_icon hzero (heq ▸ hpath)
      rw [LauncherStorage.remove, update_of_ne hicon, update_apply]
      rfl
    rw [hremove]
    refine ⟨fun _ => ⟨?_, ?_, ?_⟩, fun hno => ?_, ?_⟩
    · intro q it hq
      obtain ⟨hne, hq⟩ := hitems hq
      obtain ⟨hlauncher, hcontent⟩ := hlaunchers.written q it hq
      refine ⟨hlauncher, ?_⟩
      have hother : storage_.launcher q ≠ storage_.launcher item.package :=
        fun heq => hne (hlaunchers.distinct q item.package it old hq hold heq)
      show storage_.remove item db.files (storage_.launcher q) = _
      rw [hfiles _ hlauncher, if_neg hother, hcontent]
    · intro path content hpath hcontent
      have hcontent : storage_.remove item db.files path = some content := hcontent
      rw [hfiles path hpath] at hcontent
      by_cases hgone : path = storage_.launcher item.package
      · rw [if_pos hgone] at hcontent
        cases hcontent
      · rw [if_neg hgone] at hcontent
        obtain ⟨q, it, hq, heq⟩ := hlaunchers.only path content hpath hcontent
        have hne : q ≠ item.package := fun h' => hgone (by rw [← heq, h'])
        exact ⟨q, it, (update_of_ne hne _ _).trans hq, heq⟩
    · intro q q' it it' hq hq' heq
      exact hlaunchers.distinct q q' it it' (hitems hq).2 (hitems hq').2 heq
    · rw [show db.done_reset = false from hno] at hreset
      cases hreset
    · show update db.items_ item.package none [] = none
      by_cases hempty : [] = item.package
      · rw [← hempty, update_self]
      · rw [update_of_ne hempty, h.named]

theorem items_store (db : Database) (item : Item) : (db.store_or_update storage_ process item).items_ =
    update db.items_ item.package (some { item with icon := [] }) := rfl

/-- An application is stored: its package is the name of a file that no other package has. -/
theorem sound_store (h : db.Sound storage_ process) (item : Item) (hnamed : item.package ≠ [])
    (hslash : slash ∉ item.package) (hzero : 0 ∉ item.package)
    (hdistinct : ∀ q it, db.items_ q = some it → LauncherStorage.clean_package_name q =
      LauncherStorage.clean_package_name item.package → q = item.package) :
    (db.store_or_update storage_ process item).Sound storage_ process := by
  have hlauncher : storage_.IsLauncher (storage_.launcher item.package) :=
    LauncherStorage.isLauncher_iff.mpr ⟨hslash, hzero⟩
  have hitems : ∀ {q it}, (db.store_or_update storage_ process item).items_ q = some it →
      (q = item.package ∧ it = { item with icon := [] }) ∨ (q ≠ item.package ∧ db.items_ q = some it) := by
    intro q it hq
    by_cases hne : q = item.package
    · rw [hne, items_store, update_self] at hq
      exact Or.inl ⟨hne, (Option.some.inj hq).symm⟩
    · rw [items_store, update_of_ne hne] at hq
      exact Or.inr ⟨hne, hq⟩
  have hother : ∀ {q it}, q ≠ item.package → db.items_ q = some it →
      storage_.launcher q ≠ storage_.launcher item.package := by
    intro q it hne hq heq
    have hq0 := (h.launchers (h.done_reset hq)).zero_not_mem hq
    exact hne (hdistinct q it hq ((LauncherStorage.launcher_eq_iff hq0 hzero).mp heq))
  -- No launcher but that of the item is touched, and there is none before the first one.
  have hfiles : ∀ path, storage_.IsLauncher path → (db.store_or_update storage_ process item).files path =
      if path = storage_.launcher item.package then some (storage_.desktop_item process item)
      else if db.done_reset then db.files path else none := by
    intro path hpath
    have hicon : path ≠ c_str (storage_.path_for_item_icon (LauncherStorage.clean_package_name item.package)) :=
      fun heq => LauncherStorage.not_isLauncher_icon hzero (heq ▸ hpath)
    simp only [store_or_update, LauncherStorage.add_or_update, List.foldl_cons, List.foldl_nil, write]
    rw [update_of_ne hicon, update_apply]
    refine if_congr Iff.rfl rfl ?_
    by_cases hreset : db.done_reset = true
    · rw [if_pos hreset, if_pos hreset]
    · rw [if_neg hreset, if_neg hreset]
      exact LauncherStorage.reset_launcher _ hpath
  refine ⟨fun _ => ⟨?_, ?_, ?_⟩, (fun hno => by cases hno), ?_⟩
  · intro q it hq
    rcases hitems hq with ⟨rfl, rfl⟩ | ⟨hne, hold⟩
    · refine ⟨hlauncher, ?_⟩
      rw [hfiles _ hlauncher, if_pos rfl]
      rfl
    · have hreset := h.done_reset hold
      obtain ⟨hlauncher', hcontent⟩ := (h.launchers hreset).written q it hold
      refine ⟨hlauncher', ?_⟩
      rw [hfiles _ hlauncher', if_neg (hother hne hold), if_pos hreset, hcontent]
  · intro path content hpath hcontent
    rw [hfiles path hpath] at hcontent
    by_cases hown : path = storage_.launcher item.package
    · exact ⟨item.package, { item with icon := [] }, update_self _ _ _, hown.symm⟩
    · rw [if_neg hown] at hcontent
      by_cases hreset : db.done_reset = true
      · rw [if_pos hreset] at hcontent
        obtain ⟨q, it, hq, heq⟩ := (h.launchers hreset).only path content hpath hcontent
        have hne : q ≠ item.package := fun h' => hown (by rw [← heq, h'])
        exact ⟨q, it, (update_of_ne hne _ _).trans hq, heq⟩
      · rw [if_neg hreset] at hcontent
        cases hcontent
  · intro q q' it it' hq hq' heq
    rcases hitems hq with ⟨rfl, -⟩ | ⟨hne, hold⟩
    · rcases hitems hq' with ⟨rfl, -⟩ | ⟨hne', hold'⟩
      · rfl
      · exact absurd heq.symm (hother hne' hold')
    · rcases hitems hq' with ⟨rfl, -⟩ | ⟨hne', hold'⟩
      · exact absurd heq (hother hne hold)
      · exact (h.launchers (h.done_reset hold)).distinct q q' it it' hold hold' heq
  · rw [items_store, update_of_ne (Ne.symm hnamed), h.named]

/-! ## An event -/

theorem removed_spec (removed : List AndroidApplication) : ∀ db : Database, db.Sound storage_ process →
    (removed.foldl (handle_removed storage_) db).Sound storage_ process ∧
      (removed.foldl (handle_removed storage_) db).items_ = without db.items_ removed ∧
      (removed.foldl (handle_removed storage_) db).done_reset = db.done_reset := by
  induction removed with
  | nil => exact fun db h => ⟨h, rfl, rfl⟩
  | cons app removed ih =>
    intro db h
    rw [List.foldl_cons, handle_removed]
    by_cases hempty : app.package = []
    · obtain ⟨hsound, hitems, hreset⟩ := ih db h
      rw [if_pos hempty]
      refine ⟨hsound, ?_, hreset⟩
      have hsame : update db.items_ app.package none = db.items_ := by
        rw [hempty, ← h.named, update_eq_self]
      rw [hitems, without, without, List.foldl_cons, hsame]
    · obtain ⟨hsound, hitems, hreset⟩ := ih _ (sound_remove h { package := app.package })
      rw [if_neg hempty]
      refine ⟨hsound, ?_, ?_⟩
      · rw [hitems, items_remove]
        rfl
      · rw [hreset, remove]
        cases db.items_ app.package with
        | none => rfl
        | some old => rfl

/-- The applications of an event are stored: they and the items are among packages that have different files. -/
theorem applications_spec (S : ByteString → Prop) (hS : ∀ q q', S q → S q' →
      LauncherStorage.clean_package_name q = LauncherStorage.clean_package_name q' → q = q')
    (applications : List AndroidApplication) (hnames : ∀ app ∈ applications, slash ∉ app.package ∧ 0 ∉ app.package)
    (hlisted : ∀ app ∈ applications, app.package ≠ [] → S app.package) :
    ∀ db : Database, db.Sound storage_ process → (∀ q, db.items_ q ≠ none → S q) →
      (applications.foldl (handle_application storage_ process) db).Sound storage_ process := by
  induction applications with
  | nil => exact fun db h _ => h
  | cons app applications ih =>
    intro db h hitems
    have ih := ih (fun a ha => hnames a (List.mem_cons_of_mem _ ha)) fun a ha => hlisted a (List.mem_cons_of_mem _ ha)
    rw [List.foldl_cons, handle_application]
    by_cases hempty : app.package = []
    · rw [if_pos hempty]
      exact ih db h hitems
    · obtain ⟨hslash, hzero⟩ := hnames app List.mem_cons_self
      have happ := hlisted app List.mem_cons_self hempty
      rw [if_neg hempty]
      apply ih
      · apply sound_store h app.item hempty hslash hzero
        intro q it hq hclean
        exact hS q app.package (hitems q (by rw [hq]; exact Option.some_ne_none it)) happ hclean
      · intro q hq
        by_cases hne : q = app.package
        · rw [hne]
          exact happ
        · have hold : (db.store_or_update storage_ process app.item).items_ q = db.items_ q := update_of_ne hne _ _
          rw [hold] at hq
          exact hitems q hq

theorem items_event (h : db.Sound storage_ process) (event : ApplicationListUpdateEvent) :
    (db.handle_application_list_update_event storage_ process event).items_ =
      overridden stored (without db.items_ event.removed_applications) event.applications := by
  rw [handle_application_list_update_event, items_applications, (removed_spec _ db h).2.1]

/-- The packages that have an item after an event. -/
theorem remains_iff (h : db.Sound storage_ process) (event : ApplicationListUpdateEvent) (package : ByteString) :
    (∃ item, (db.handle_application_list_update_event storage_ process event).items_ package = some item) ↔
      db.Remains event package := by
  rw [items_event h]
  by_cases hempty : package = []
  · have hnone : without db.items_ event.removed_applications [] = none := by
      rw [without_apply, h.named, ite_self]
    rw [hempty, overridden_nil, hnone]
    constructor
    · rintro ⟨item, hitem⟩
      cases hitem
    · rintro (⟨hne, -⟩ | ⟨hne, -⟩)
      · exact absurd rfl hne
      · exact absurd h.named hne
  · rw [overridden_apply _ _ hempty]
    cases hlatest : latest event.applications package with
    | some app =>
      have hlisted : ∃ app ∈ event.applications, app.package = package := by
        by_contra hno
        rw [latest_eq_none_iff.mpr fun a ha heq => hno ⟨a, ha, heq⟩] at hlatest
        cases hlatest
      exact ⟨fun _ => Or.inl ⟨hempty, hlisted⟩, fun _ => ⟨stored app, rfl⟩⟩
    | none =>
      have hnot := latest_eq_none_iff.mp hlatest
      rw [Option.map_none, Option.none_or, without_apply]
      constructor
      · rintro ⟨item, hitem⟩
        by_cases hremoved : ∃ app ∈ event.removed_applications, app.package = package
        · rw [if_pos hremoved] at hitem
          cases hitem
        · rw [if_neg hremoved] at hitem
          refine Or.inr ⟨?_, fun app happ heq => hremoved ⟨app, happ, heq⟩⟩
          rw [hitem]
          exact Option.some_ne_none item
      · rintro (⟨-, app, happ, heq⟩ | ⟨hne, hkept⟩)
        · exact absurd heq (hnot app happ)
        · have hremoved : ¬∃ app ∈ event.removed_applications, app.package = package := by
            rintro ⟨app, happ, heq⟩
            exact hkept app happ heq
          rw [if_neg hremoved]
          exact Option.ne_none_iff_exists'.mp hne

theorem done_reset_event (h : db.Sound storage_ process) (hremains : db.Remains event package) :
    (db.handle_application_list_update_event storage_ process event).done_reset = true := by
  rw [handle_application_list_update_event, done_reset_applications, (removed_spec _ db h).2.2]
  rcases hremains with ⟨hne, app, happ, rfl⟩ | ⟨hne, -⟩
  · exact Or.inr ⟨app, happ, hne⟩
  · obtain ⟨item, hitem⟩ := Option.ne_none_iff_exists'.mp hne
    exact Or.inl (h.done_reset hitem)

/-- An event that can be mirrored leaves launchers that are right. -/
theorem sound_event (h : db.Sound storage_ process) (hevent : db.Mirrorable event) :
    (db.handle_application_list_update_event storage_ process event).Sound storage_ process := by
  obtain ⟨hsound, hitems, -⟩ := removed_spec event.removed_applications db h
  apply applications_spec (db.Remains event) hevent.distinct event.applications hevent.names
  · intro app happ hne
    exact Or.inl ⟨hne, app, happ, rfl⟩
  · exact hsound
  · intro q hq
    rw [hitems, without_apply] at hq
    by_cases hremoved : ∃ app ∈ event.removed_applications, app.package = q
    · rw [if_pos hremoved] at hq
      exact absurd rfl hq
    · rw [if_neg hremoved] at hq
      exact Or.inr ⟨hq, fun app happ heq => hremoved ⟨app, happ, heq⟩⟩

/-- The exact condition on an event. -/
theorem mirrors_iff (h : db.Sound storage_ process) (event : ApplicationListUpdateEvent) :
    Mirrors storage_ process db event (db.handle_application_list_update_event storage_ process event) ↔
      db.Mirrorable event := by
  constructor
  · rintro ⟨hitems, hlaunchers⟩
    have hplain : ∀ q, db.Remains event q → slash ∉ q ∧ 0 ∉ q := by
      intro q hq
      obtain ⟨item, hitem⟩ := (remains_iff h event q).mpr hq
      exact LauncherStorage.isLauncher_iff.mp ((hlaunchers (done_reset_event h hq)).written q item hitem).1
    refine ⟨?_, ?_, ?_⟩
    · intro package app hne hlatest
      rw [items_event h] at hitems
      have hpackage := congrFun hitems package
      rw [overridden_apply _ _ hne, overridden_apply _ _ hne, hlatest] at hpackage
      have heq : stored app = app.mirrored := Option.some.inj hpackage
      exact (congrArg (fun item => item.launch_intent.type) heq).symm
    · intro app happ
      by_cases hempty : app.package = []
      · rw [hempty]
        exact ⟨List.not_mem_nil, List.not_mem_nil⟩
      · exact hplain app.package (Or.inl ⟨hempty, app, happ, rfl⟩)
    · intro q q' hq hq' hclean
      obtain ⟨item, hitem⟩ := (remains_iff h event q).mpr hq
      obtain ⟨item', hitem'⟩ := (remains_iff h event q').mpr hq'
      apply (hlaunchers (done_reset_event h hq)).distinct q q' item item' hitem hitem'
      exact (LauncherStorage.launcher_eq_iff (hplain q hq).2 (hplain q' hq').2).mpr hclean
  · intro hevent
    refine ⟨?_, (sound_event h hevent).launchers⟩
    rw [items_event h]
    funext q
    by_cases hempty : q = []
    · rw [hempty, overridden_nil, overridden_nil]
    · rw [overridden_apply _ _ hempty, overridden_apply _ _ hempty]
      cases hlatest : latest event.applications q with
      | none => rfl
      | some app =>
        have htype := hevent.types q app hempty hlatest
        have heq : stored app = app.mirrored := by
          rw [stored, AndroidApplication.item, AndroidApplication.mirrored, htype]
        rw [Option.map_some, Option.map_some, heq]

/-- In every run each event is mirrored exactly as long as each event can be mirrored, whatever files there are at
first. -/
theorem applications_mirrored_iff (storage_ : LauncherStorage) (process : Process) (files : Files)
    (events : List ApplicationListUpdateEvent) :
    (databaseMachine storage_ process files).AllSteps (fun db event => Mirrors storage_ process db event
      (db.handle_application_list_update_event storage_ process event)) { files } events ↔
      (databaseMachine storage_ process files).AllSteps Mirrorable { files } events := by
  apply Machine.allSteps_iff_of_relation (R := Sound storage_ process)
  · intro db event db' hdb hevent hstep
    cases Option.some.inj hstep
    exact sound_event hdb hevent
  · intro db event hdb
    exact mirrors_iff hdb event
  · exact ⟨(fun h => by cases h), fun _ _ => rfl, rfl⟩

/-- The type of an intent is lost. -/
theorem intent_type_lost :
    ¬(databaseMachine LauncherStorage.applications { exe_path := .of "/usr/bin/anbox" } fun _ => none).AllSteps
      (fun db event => Mirrors LauncherStorage.applications { exe_path := .of "/usr/bin/anbox" } db event
        (db.handle_application_list_update_event LauncherStorage.applications { exe_path := .of "/usr/bin/anbox" }
          event)) { files := fun _ => none }
      [{ applications := [{ package := .of "org.view", launch_intent := { type := .of "text/plain" } }] }] := by
  intro h
  have hitem := congrFun h.1.items (.of "org.view")
  exact absurd hitem (by decide)

end Database

end AnboxReboxed.Application
