import AnboxReboxed.Lib.Fallible
import AnboxReboxed.Scripts.ExtractArchive

/-!
# Proofs: extracting an archive

Nothing is created outside as long as what is missing of a path is missing inside. That is so for the files and
directories, which come before any link; for a link it has to be asked, because of the links before it.
-/

namespace AnboxReboxed.Scripts.ExtractArchive

open AnboxReboxed.Lib Fallible

variable {limit : Nat} {destination r : RealPath} {t : FileTree} {w : World} {path front : List FileName}
  {x : FileName} {fault : Option Empty} {α : Type}

/-! ## Being below -/

theorem below_concat (h : destination <+: r) : Below destination (r ++ [x]) := by
  refine ⟨h.trans (List.prefix_append r [x]), fun heq => ?_⟩
  have hlength := h.length_le
  rw [← heq, List.length_append] at hlength
  exact absurd hlength (by simp)

theorem of_below_concat (h : Below destination (r ++ [x])) : destination <+: r := by
  rcases List.prefix_concat_iff.mp h.1 with heq | h'
  · exact absurd heq.symm h.2
  · exact h'

/-! ## Creating what is missing -/

theorem create_eq_ok {parent : List FileName} {object : Node} {w' : World}
    (h : w.create destination parent x object = .ok w') :
    ∃ (r : RealPath) (hdir : w.tree.node r = some .dir) (hnew : w.tree.node (r ++ [x]) = none),
      w.tree.walk MAXSYMLINKS destination parent = .ok r ∧
        w' = ⟨w.tree.create r x object hdir hnew, (r ++ [x]) :: w.touched⟩ := by
  unfold World.create at h
  split at h
  · cases h
  · rename_i r hwalk
    split at h
    · rename_i hdir
      split at h
      · rename_i hnew
        exact ⟨r, hdir, hnew, hwalk, (Except.ok.inj h).symm⟩
      · cases h
    · cases h

theorem create_ok {parent : List FileName} {object : Node} (hwalk : w.tree.walk MAXSYMLINKS destination parent = .ok r)
    (hdir : w.tree.node r = some .dir) (hnew : w.tree.node (r ++ [x]) = none) :
    w.create destination parent x object = .ok ⟨w.tree.create r x object hdir hnew, (r ++ [x]) :: w.touched⟩ := by
  rw [World.create, hwalk]
  dsimp only
  rw [dif_pos hdir, dif_pos hnew]

theorem node_create_of_some (hdir : t.node r = some .dir) (hnew : t.node (r ++ [x]) = none) {object object' : Node}
    {p : RealPath} (h : t.node p = some object') : (t.create r x object hdir hnew).node p = some object' := by
  have hne : p ≠ r ++ [x] := by
    rintro rfl
    rw [hnew] at h
    cases h
  rw [FileTree.node_create, if_neg hne]
  exact h

/-- Nothing is below a directory that has just been created. -/
theorem node_create_below {hdir : t.node r = some .dir} {hnew : t.node (r ++ [x]) = none} {object : Node}
    (y : FileName) : (t.create r x object hdir hnew).node (r ++ [x] ++ [y]) = none := by
  have hne : r ++ [x] ++ [y] ≠ r ++ [x] := by simp
  rw [FileTree.node_create, if_neg hne]
  by_contra hnode
  have hdir' : t.node (r ++ [x]) = some .dir := t.parent _ _ hnode
  rw [hnew] at hdir'
  cases hdir'

/-- The rest of a path is missing inside, too, once a directory on it has been created. -/
theorem Leads.create {back : List FileName} (h : Leads destination t path) (hdots : dotdot ∉ path)
    (hdest : t.node destination ≠ none) (hpath : path = front ++ x :: back)
    (hwalk : t.walk MAXSYMLINKS destination front = .ok r) (hdir : t.node r = some .dir)
    (hnew : t.node (r ++ [x]) = none) : Leads destination (t.create r x .dir hdir hnew) path := by
  have hmono : ∀ p object, t.node p = some object → (t.create r x .dir hdir hnew).node p = some object :=
    fun _ _ => node_create_of_some hdir hnew
  have hr : destination <+: r := h front x back r hpath hwalk hdir hnew
  intro front' name back' r' hpath' hwalk' hdir' hnew'
  -- The walk goes through the new directory, and ends there.
  have hthrough : ∀ m, front' = front ++ x :: m → destination <+: r' := by
    rintro m rfl
    have hdots : x ≠ dotdot ∧ dotdot ∉ m := by
      refine ⟨fun hx => hdots ?_, fun hm => hdots ?_⟩
      · rw [hpath, hx]
        exact List.mem_append_right _ List.mem_cons_self
      · rw [hpath']
        exact List.mem_append_left _ (List.mem_append_right _ (List.mem_cons_of_mem _ hm))
    have hobject : (t.create r x .dir hdir hnew).node (r ++ [x]) = some .dir := by
      rw [FileTree.node_create, if_pos rfl]
    obtain ⟨k, hk⟩ := FileTree.walk_append (FileTree.walk_mono hmono hwalk)
    rw [hk, FileTree.walk_enter (hmono _ _ hdir) hdots.1 (by rw [hobject]; exact Option.some_ne_none _)
      (fun _ h' => by rw [hobject] at h'; cases h')] at hwalk'
    cases m with
    | nil =>
      rw [FileTree.walk_nil] at hwalk'
      cases hwalk'
      exact hr.trans (List.prefix_append r [x])
    | cons y m =>
      have hy : y ≠ dotdot := fun hy => hdots.2 (hy ▸ List.mem_cons_self)
      rw [FileTree.walk_missing hobject hy (node_create_below y)] at hwalk'
      cases hwalk'
  have hfront : front' <+: path := ⟨_, hpath'.symm⟩
  have hfront' : front ++ [x] <+: path := ⟨back, by rw [hpath, List.append_assoc]; rfl⟩
  rcases List.prefix_or_prefix_of_prefix hfront hfront' with hor | ⟨m, hm⟩
  · rcases List.prefix_concat_iff.mp hor with heq | ⟨m, hm⟩
    · exact hthrough [] heq
    · -- The walk is one that led somewhere before.
      rw [← hm] at hwalk
      obtain ⟨r'', hr''⟩ := FileTree.walk_left hwalk
      cases Except.ok.inj ((FileTree.walk_mono hmono hr'').symm.trans hwalk')
      have hold : t.node (r' ++ [name]) = none := by
        by_contra hnode
        obtain ⟨object, hobject⟩ := Option.ne_none_iff_exists'.mp hnode
        rw [hmono _ _ hobject] at hnew'
        cases hnew'
      obtain ⟨object, hobject⟩ := Option.ne_none_iff_exists'.mp (FileTree.node_of_walk hdest hr'')
      have hdir'' : t.node r' = some .dir := by
        rw [hobject, ← hmono _ _ hobject]
        exact hdir'
      exact h front' name back' r' hpath' hr'' hdir'' hold
  · refine hthrough m ?_
    rw [← hm, List.append_assoc]
    rfl

/-! ## Making directories -/

/-- The destination is there, and nothing outside has been touched. -/
structure Sane (destination : RealPath) (w : World) : Prop where
  dir : w.tree.node destination = some .dir
  touched : ∀ p ∈ w.touched, Below destination p

theorem Sane.exists (h : Sane destination w) : w.tree.node destination ≠ none := by
  rw [h.dir]
  exact Option.some_ne_none _

theorem Sane.create {object : Node} (h : Sane destination w) (hdir : w.tree.node r = some .dir)
    (hnew : w.tree.node (r ++ [x]) = none) (hr : destination <+: r) :
    Sane destination ⟨w.tree.create r x object hdir hnew, (r ++ [x]) :: w.touched⟩ := by
  constructor
  · exact node_create_of_some hdir hnew h.dir
  · intro p hp
    rcases List.mem_cons.mp hp with rfl | hp
    · exact below_concat hr
    · exact h.touched p hp

/-- What stays so when a directory is created inside. -/
structure Stable (destination : RealPath) (P : World → Prop) : Prop where
  sane : ∀ w, P w → Sane destination w
  create : ∀ w r x (hdir : w.tree.node r = some .dir) (hnew : w.tree.node (r ++ [x]) = none), P w →
    destination <+: r → P ⟨w.tree.create r x .dir hdir hnew, (r ++ [x]) :: w.touched⟩

section Mkdir

variable {P : World → Prop} {Q : Unit → Option Empty → World → Prop} {E : Exc → World → Prop}

theorem wp_exist_ok {e : Errno} (hE : E (.os_error e) w) (hQ : Q () fault w) :
    wp (exist_ok destination path e) Q E fault w := by
  unfold exist_ok
  rw [wp_bind, wp_read, wp_ite]
  exact ⟨fun _ => hE, fun _ => hQ⟩

/-- A directory is created as the path has it, or nothing is. -/
theorem wp_create_dir {parent back : List FileName} {w' : World} (hstable : Stable destination P)
    (hdots : dotdot ∉ path) (hpath : path = parent ++ x :: back) (hleads : Leads destination w.tree path) (hw : P w)
    (hcreate : w.create destination parent x .dir = .ok w') : Leads destination w'.tree path ∧ P w' := by
  obtain ⟨r, hdir, hnew, hwalk, rfl⟩ := create_eq_ok hcreate
  refine ⟨hleads.create hdots (hstable.sane w hw).exists hpath hwalk hdir hnew, ?_⟩
  exact hstable.create w r x hdir hnew hw (hleads parent x back r hpath hwalk hdir hnew)

theorem wp_mkdir {parent back : List FileName} (hstable : Stable destination P) (hdots : dotdot ∉ path)
    (hpath : path = parent ++ x :: back) (hleads : Leads destination w.tree path) (hw : P w) :
    wp (mkdir destination parent x) (fun _ _ w => Leads destination w.tree path ∧ P w) (fun _ => P) fault w := by
  unfold mkdir
  rw [wp_bind, wp_read]
  cases hcreate : w.create destination parent x .dir with
  | ok w' => exact wp_create_dir hstable hdots hpath hleads hw hcreate
  | error e =>
    cases e with
    | enoent => exact hw
    | enotdir => exact wp_exist_ok hw ⟨hleads, hw⟩
    | eexist => exact wp_exist_ok hw ⟨hleads, hw⟩
    | eloop => exact wp_exist_ok hw ⟨hleads, hw⟩

theorem wp_mkdir_parents (hstable : Stable destination P) (hdots : dotdot ∉ path) {up : List FileName} :
    ∀ {back : List FileName} {fault : Option Empty} {w : World}, path = up.reverse ++ back →
      Leads destination w.tree path → P w →
      wp (mkdir_parents destination up) (fun _ _ w => Leads destination w.tree path ∧ P w) (fun _ => P) fault w := by
  induction up with
  | nil => exact fun _ hleads hw => ⟨hleads, hw⟩
  | cons name up ih =>
    intro back fault w hpath hleads hw
    have hpath : path = up.reverse ++ name :: back := by
      rw [hpath, List.reverse_cons, List.append_assoc]
      rfl
    rw [mkdir_parents, wp_bind, wp_read]
    cases hcreate : w.create destination up.reverse name .dir with
    | ok w' => exact wp_create_dir hstable hdots hpath hleads hw hcreate
    | error e =>
      cases e with
      | enoent =>
        show wp (mkdir_parents destination up >>= fun _ => mkdir destination up.reverse name) _ _ _ _
        rw [wp_bind]
        refine wp_mono (ih hpath hleads hw) (fun _ _ w' h => ?_) fun _ _ h => h
        exact wp_mkdir hstable hdots hpath h.1 h.2
      | enotdir => exact wp_exist_ok hw ⟨hleads, hw⟩
      | eexist => exact wp_exist_ok hw ⟨hleads, hw⟩
      | eloop => exact wp_exist_ok hw ⟨hleads, hw⟩

theorem wp_call {f : World → Except Errno World} (hE : ∀ e, f w = .error e → E (.os_error e) w)
    (hQ : ∀ w', f w = .ok w' → Q () fault w') : wp (call f) Q E fault w := by
  unfold call
  rw [wp_bind, wp_read]
  cases hf : f w with
  | error e => exact hE e hf
  | ok w' => exact hQ w' hf

end Mkdir

/-! ## Files and directories -/

/-- There are no links yet. -/
structure Plain (destination : RealPath) (w : World) : Prop extends Sane destination w where
  links : ∀ p target, Below destination p → w.tree.node p ≠ some (.link target)

theorem below_append (hne : path ≠ []) : Below destination (destination ++ path) := by
  refine ⟨List.prefix_append _ _, fun heq => hne ?_⟩
  exact List.append_right_eq_self.mp heq

theorem Plain.walk {n : Nat} (h : Plain destination w) (hdots : dotdot ∉ path)
    (hwalk : w.tree.walk n destination path = .ok r) : r = destination ++ path :=
  FileTree.walk_plain (fun _ hne target => h.links _ target (below_append hne)) hdots hwalk

theorem Plain.leads (h : Plain destination w) (hdots : dotdot ∉ path) : Leads destination w.tree path := by
  intro front name back r hpath hwalk _ _
  have hfront : dotdot ∉ front := fun hmem => hdots (hpath ▸ List.mem_append_left _ hmem)
  rw [h.walk hfront hwalk]
  exact List.prefix_append _ _

theorem Plain.create {object : Node} (h : Plain destination w) (hdir : w.tree.node r = some .dir)
    (hnew : w.tree.node (r ++ [x]) = none) (hr : destination <+: r) (hobject : ∀ target, object ≠ .link target) :
    Plain destination ⟨w.tree.create r x object hdir hnew, (r ++ [x]) :: w.touched⟩ := by
  refine ⟨h.toSane.create hdir hnew hr, fun p target hp hlink => ?_⟩
  rw [FileTree.node_create] at hlink
  split at hlink
  · exact hobject target (Option.some.inj hlink)
  · exact h.links p target hp hlink

theorem stable_plain : Stable destination (Plain destination) :=
  ⟨fun _ h => h.toSane, fun _ _ _ hdir hnew h hr => h.create hdir hnew hr fun _ h' => by cases h'⟩

theorem wp_write_member {member : Member} {size : Int} {content : List UInt8} (h : Plain destination w) :
    wp (write_member destination member size content) (fun _ _ => Plain destination) (fun _ => Plain destination) fault
      w := by
  unfold write_member
  rw [wp_ite, wp_bind]
  refine ⟨fun _ => h, fun _ => ?_⟩
  rw [wp_bind]
  have hpath : member.path = member.parent.reverse.reverse ++ [member.name] := by
    rw [List.reverse_reverse]
    rfl
  refine wp_mono (wp_mkdir_parents stable_plain member.inside hpath (h.leads member.inside) h) ?_ fun _ _ h' => h'
  rintro - fault w ⟨hleads, h⟩
  rw [wp_bind]
  refine wp_call (fun _ _ => h) fun w' hcreate => ?_
  obtain ⟨r, hdir, hnew, hwalk, rfl⟩ := create_eq_ok hcreate
  have hr := hleads member.parent member.name [] r rfl hwalk hdir hnew
  have hfile : ∀ target, Node.file (content.take size.toNat) ≠ .link target := fun _ h' => by cases h'
  have h := h.create hdir hnew hr hfile
  rw [wp_ite, wp_bind]
  refine ⟨fun _ => h, fun _ => ?_⟩
  refine wp_call (fun _ _ => h) fun w' hchmod => ?_
  obtain ⟨r', hwalk', hret⟩ := of_bind_eq_ok hchmod
  cases hret
  refine ⟨⟨h.dir, fun p hp => ?_⟩, h.links⟩
  rcases List.mem_cons.mp hp with rfl | hp
  · rw [h.walk member.inside hwalk']
    exact below_append (List.append_ne_nil_of_right_ne_nil _ (List.cons_ne_nil _ _))
  · exact h.touched p hp

theorem wp_extract_entry {entry : Entry} {member : Member} {total : Int} {links : List Link}
    (h : Plain destination w) :
    wp (extract_entry destination entry member total links) (fun _ _ => Plain destination)
      (fun _ => Plain destination) fault w := by
  have hpath : member.path = member.path.reverse.reverse ++ [] := by rw [List.reverse_reverse, List.append_nil]
  unfold extract_entry
  split
  · exact h
  · rw [wp_bind]
    exact wp_ofExcept (fun _ _ => h) fun _ _ => h
  · exact h
  · rw [wp_bind]
    refine wp_mono (wp_mkdir_parents stable_plain member.inside hpath (h.leads member.inside) h) ?_ fun _ _ h' => h'
    exact fun _ _ _ h' => h'.2
  · exact h
  · rw [wp_ite, wp_bind, wp_bind]
    exact ⟨fun _ => h, fun _ => wp_mono (wp_write_member h) (fun _ _ _ h' => h') fun _ _ h' => h'⟩

theorem wp_extract_entries {entries : List Entry} :
    ∀ {count : Nat} {total : Int} {links : List Link} {fault : Option Empty} {w : World}, Plain destination w →
      wp (extract_entries destination entries count total links) (fun _ _ => Plain destination)
        (fun _ => Plain destination) fault w := by
  induction entries with
  | nil => exact fun h => h
  | cons entry entries ih =>
    intro count total links fault w h
    rw [extract_entries, wp_ite, wp_bind, wp_bind]
    refine ⟨fun _ => h, fun _ => wp_ofExcept (fun _ _ => h) fun member _ => ?_⟩
    cases member with
    | none => exact ih h
    | some member =>
      show wp (extract_entry destination entry member total links >>= fun p =>
        extract_entries destination entries (count + 1) p.1 p.2) _ _ _ _
      rw [wp_bind]
      exact wp_mono (wp_extract_entry h) (fun _ _ _ h' => ih h') fun _ _ h' => h'

/-! ## Links -/

theorem stable_sane : Stable destination (Sane destination) :=
  ⟨fun _ h => h, fun _ _ _ hdir hnew h hr => h.create hdir hnew hr⟩

theorem wp_symlink {link : Link} (h : Sane destination w)
    (hr : link.target ≠ [] → ∀ r, w.tree.walk MAXSYMLINKS destination link.member.parent = .ok r →
      w.tree.node r = some .dir → w.tree.node (r ++ [link.member.name]) = none → destination <+: r) :
    wp (symlink destination link) (fun _ _ => Sane destination) (fun _ => Sane destination) fault w := by
  unfold symlink
  rw [wp_ite, wp_bind]
  refine ⟨fun _ => h, fun htarget => wp_call (fun _ _ => h) fun w' hcreate => ?_⟩
  obtain ⟨r, hdir, hnew, hwalk, rfl⟩ := create_eq_ok hcreate
  exact h.create hdir hnew (hr htarget r hwalk hdir hnew)

theorem wp_create_link {link : Link} (h : Sane destination w) (hleads : Leads destination w.tree link.created) :
    wp (create_link destination link) (fun _ _ => Sane destination) (fun _ => Sane destination) fault w := by
  have hinside := link.member.inside
  have hdots : dotdot ∉ link.created := by
    unfold Link.created
    split
    · exact fun hmem => hinside (List.mem_append_left _ hmem)
    · exact hinside
  obtain ⟨back, hback⟩ : ∃ back, link.created = link.member.parent.reverse.reverse ++ back := by
    rw [List.reverse_reverse]
    unfold Link.created
    split
    · exact ⟨[], (List.append_nil _).symm⟩
    · exact ⟨[link.member.name], rfl⟩
  unfold create_link
  rw [wp_bind]
  refine wp_mono (wp_mkdir_parents stable_sane hdots hback hleads h) ?_ fun _ _ h' => h'
  rintro - fault w ⟨hleads, h⟩
  refine wp_symlink h fun htarget r hwalk hdir hnew => ?_
  refine hleads link.member.parent link.member.name [] r ?_ hwalk hdir hnew
  rw [Link.created, if_neg htarget]
  rfl

theorem unlink_eq_ok {member : Member} {w' : World} (h : w.unlink destination member = .ok w') :
    ∃ (r : RealPath) (target : Str) (hlink : w.tree.node (r ++ [member.name]) = some (.link target)),
      w.tree.walk MAXSYMLINKS destination member.parent = .ok r ∧
        w' = ⟨w.tree.unlink (r ++ [member.name]) target hlink, (r ++ [member.name]) :: w.touched⟩ := by
  unfold World.unlink at h
  split at h
  · cases h
  · rename_i r hwalk
    split at h
    · rename_i target hlink
      exact ⟨r, target, hlink, hwalk, (Except.ok.inj h).symm⟩
    · cases h

/-- Where there is less, a walk leads where it did, or nowhere. -/
theorem walk_unlink {p : RealPath} {target : Str} (hlink : t.node p = some (.link target)) {n : Nat}
    (h : (t.unlink p target hlink).walk n destination path = .ok r) : t.walk n destination path = .ok r := by
  refine FileTree.walk_mono (fun q object hq => ?_) h
  have hne : q ≠ p := by
    rintro rfl
    rw [FileTree.node, FileTree.unlink, AList.lookup_erase] at hq
    cases hq
  rw [FileTree.node_unlink hlink hne] at hq
  exact hq

theorem Sane.unlink {target : Str} {hlink : w.tree.node (r ++ [x]) = some (.link target)} (h : Sane destination w)
    (hr : destination <+: r) :
    Sane destination ⟨w.tree.unlink (r ++ [x]) target hlink, (r ++ [x]) :: w.touched⟩ := by
  have hne : destination ≠ r ++ [x] := by
    intro heq
    have hdir := h.dir
    rw [heq, hlink] at hdir
    cases hdir
  refine ⟨(FileTree.node_unlink hlink hne).trans h.dir, fun p hp => ?_⟩
  rcases List.mem_cons.mp hp with rfl | hp
  · exact below_concat hr
  · exact h.touched p hp

theorem wp_repair_link {link : Link} (h : Sane destination w) (hc : Vetted limit destination w (.repair link)) :
    wp (repair_link limit destination link) (fun _ _ => Sane destination) (fun _ => Sane destination) fault w := by
  unfold repair_link
  rw [wp_bind, wp_read, wp_ite]
  refine ⟨fun hbroken => ?_, fun _ => h⟩
  rw [wp_bind, wp_read]
  cases hintended : w.intended limit destination link with
  | none => exact h
  | some r =>
    dsimp only
    rw [wp_bind, wp_read, wp_ite]
    refine ⟨fun hfile => ?_, fun _ => h⟩
    have hparent := hc hbroken (by rw [hintended]; exact hfile)
    rw [wp_bind]
    refine wp_call (fun _ _ => h) fun w' hunlink => ?_
    obtain ⟨r', target, hlink, hwalk, rfl⟩ := unlink_eq_ok hunlink
    refine wp_symlink (h.unlink (hparent r' hwalk)) fun _ r'' hwalk' _ _ => ?_
    exact hparent r'' (walk_unlink hlink hwalk')

theorem wp_task {task : Task} (h : Sane destination w) (hc : Vetted limit destination w task) :
    wp (task.run limit destination) (fun _ _ => Sane destination) (fun _ => Sane destination) fault w := by
  cases task with
  | link link => exact wp_create_link h hc
  | repair link => exact wp_repair_link h hc
  | validate =>
    show wp (read World.tree >>= fun t => ofExcept (validate_tree limit destination false t)) _ _ _ _
    rw [wp_bind, wp_read]
    exact wp_ofExcept (fun _ _ => h) fun _ _ => h

/-! ## What has been touched -/

/-- What has been touched stays so. -/
def Grows (m : Ex α) : Prop :=
  ∀ fault w p, p ∈ w.touched → wp m (fun _ _ w => p ∈ w.touched) (fun _ w => p ∈ w.touched) fault w

theorem grows_pure (a : α) : Grows (pure a) := fun _ _ _ hp => hp

theorem Grows.bind {β : Type} {m : Ex β} {k : β → Ex α} (hm : Grows m) (hk : ∀ b, Grows (k b)) : Grows (m >>= k) := by
  intro fault w p hp
  rw [wp_bind]
  exact wp_mono (hm fault w p hp) (fun b fault w hp => hk b fault w p hp) fun _ _ hp => hp

theorem grows_read_bind {β : Type} {f : World → β} {k : β → Ex α} (hk : ∀ b, Grows (k b)) : Grows (read f >>= k) :=
  Grows.bind (fun _ _ _ hp => hp) hk

theorem grows_ofExcept (a : Except Exc α) : Grows (ofExcept a : Ex α) :=
  fun _ _ _ hp => wp_ofExcept (fun _ _ => hp) fun _ _ => hp

theorem grows_call {f : World → Except Errno World} (hf : ∀ w w' p, f w = .ok w' → p ∈ w.touched → p ∈ w'.touched) :
    Grows (call f) := fun _ w p hp => wp_call (fun _ _ => hp) fun w' hw' => hf w w' p hw' hp

theorem touched_create {parent : List FileName} {object : Node} {w' : World} {p : RealPath}
    (h : w.create destination parent x object = .ok w') (hp : p ∈ w.touched) : p ∈ w'.touched := by
  obtain ⟨r, hdir, hnew, hwalk, rfl⟩ := create_eq_ok h
  exact List.mem_cons_of_mem _ hp

theorem grows_mkdir {parent : List FileName} : Grows (mkdir destination parent x) := by
  intro fault w p hp
  unfold mkdir
  rw [wp_bind, wp_read]
  cases hcreate : w.create destination parent x .dir with
  | ok w' => exact touched_create hcreate hp
  | error e =>
    cases e with
    | enoent => exact hp
    | enotdir => exact wp_exist_ok hp hp
    | eexist => exact wp_exist_ok hp hp
    | eloop => exact wp_exist_ok hp hp

theorem grows_mkdir_parents {up : List FileName} : Grows (mkdir_parents destination up) := by
  induction up with
  | nil => exact grows_pure ()
  | cons name up ih =>
    intro fault w p hp
    rw [mkdir_parents, wp_bind, wp_read]
    cases hcreate : w.create destination up.reverse name .dir with
    | ok w' => exact touched_create hcreate hp
    | error e =>
      cases e with
      | enoent => exact Grows.bind ih (fun _ => grows_mkdir) fault w p hp
      | enotdir => exact wp_exist_ok hp hp
      | eexist => exact wp_exist_ok hp hp
      | eloop => exact wp_exist_ok hp hp

theorem grows_symlink {link : Link} : Grows (symlink destination link) := by
  intro fault w p hp
  unfold symlink
  rw [wp_ite, wp_bind]
  exact ⟨fun _ => hp, fun _ => grows_call (fun _ _ _ hcreate hp => touched_create hcreate hp) fault w p hp⟩

theorem touched_unlink {member : Member} {w' : World} {p : RealPath} (h : w.unlink destination member = .ok w')
    (hp : p ∈ w.touched) : p ∈ w'.touched := by
  obtain ⟨r, target, hlink, hwalk, rfl⟩ := unlink_eq_ok h
  exact List.mem_cons_of_mem _ hp

theorem grows_repair_link {link : Link} : Grows (repair_link limit destination link) := by
  intro fault w p hp
  unfold repair_link
  rw [wp_bind, wp_read, wp_ite]
  refine ⟨fun _ => ?_, fun _ => hp⟩
  rw [wp_bind, wp_read]
  cases w.intended limit destination link with
  | none => exact hp
  | some r =>
    dsimp only
    rw [wp_bind, wp_read, wp_ite]
    refine ⟨fun _ => ?_, fun _ => hp⟩
    exact Grows.bind (grows_call fun _ _ _ hunlink hp => touched_unlink hunlink hp)
      (fun _ => grows_symlink) fault w p hp

theorem grows_task (task : Task) : Grows (task.run limit destination) := by
  cases task with
  | link link => exact Grows.bind grows_mkdir_parents fun _ => grows_symlink
  | repair link => exact grows_repair_link
  | validate => exact grows_read_bind fun _ => grows_ofExcept _

theorem grows_run_tasks (ts : List Task) : Grows (run_tasks limit destination ts) := by
  induction ts with
  | nil => exact grows_pure ()
  | cons task ts ih => exact Grows.bind (grows_task task) fun _ => ih

/-! ## Touching something outside -/

/-- The program touches the object, whether it returns or raises. -/
def Touches (m : Ex α) (w : World) (p : RealPath) : Prop :=
  wp m (fun _ _ w => p ∈ w.touched) (fun _ w => p ∈ w.touched) none w

theorem Touches.bind {β : Type} {m : Ex β} {k : β → Ex α} {p : RealPath} (hm : Touches m w p)
    (hk : ∀ b, Grows (k b)) : Touches (m >>= k) w p := by
  unfold Touches
  rw [wp_bind]
  exact wp_mono hm (fun b fault w hp => hk b fault w p hp) fun _ _ hp => hp

/-- What is missing of a path is created. -/
theorem mkdir_parents_touches (hwalk : w.tree.walk MAXSYMLINKS destination front = .ok r)
    (hdir : w.tree.node r = some .dir) (hnew : w.tree.node (r ++ [x]) = none) (hx : x ≠ dotdot) {up : List FileName} :
    ∀ {back : List FileName}, up.reverse = front ++ x :: back →
      Touches (mkdir_parents destination up) w (r ++ [x]) := by
  induction up with
  | nil =>
    intro back hup
    exact absurd hup.symm (List.append_ne_nil_of_right_ne_nil _ (List.cons_ne_nil _ _))
  | cons name up ih =>
    intro back hup
    rw [List.reverse_cons] at hup
    unfold Touches
    rw [mkdir_parents, wp_bind, wp_read]
    rcases List.eq_nil_or_concat' back with rfl | ⟨back, y, rfl⟩
    · obtain ⟨hfront, hname⟩ := List.append_inj' hup rfl
      cases hname
      rw [hfront, create_ok hwalk hdir hnew]
      exact List.mem_cons_self
    · have hup : up.reverse = front ++ x :: back := by
        have hassoc : front ++ x :: (back ++ [y]) = (front ++ x :: back) ++ [y] := by simp
        rw [hassoc] at hup
        exact (List.append_inj' hup rfl).1
      have hcreate : w.create destination up.reverse name .dir = .error .enoent := by
        rw [World.create, hup, FileTree.walk_append_missing hwalk hdir hx hnew]
      rw [hcreate]
      exact Touches.bind (ih hup) fun _ => grows_mkdir

/-- Where the directory is there, nothing is created. -/
theorem wp_mkdir_parents_of_dir {Q : Unit → Option Empty → World → Prop} {E : Exc → World → Prop} {up : List FileName}
    (hdots : dotdot ∉ up) (hwalk : w.tree.walk MAXSYMLINKS destination up.reverse = .ok r)
    (hdir : w.tree.node r = some .dir) (hQ : Q () fault w) : wp (mkdir_parents destination up) Q E fault w := by
  cases up with
  | nil => exact hQ
  | cons name up =>
    have hname : name ≠ dotdot := fun h => hdots (h ▸ List.mem_cons_self)
    rw [List.reverse_cons] at hwalk
    obtain ⟨r', hwalk', hdir', hnode⟩ := FileTree.walk_concat hname hwalk
    have hcreate : w.create destination up.reverse name .dir = .error .eexist := by
      rw [World.create, hwalk']
      dsimp only
      rw [dif_pos hdir', dif_neg hnode]
    have his_dir : w.is_dir destination (up.reverse ++ [name]) = true := by
      rw [World.is_dir, hwalk]
      exact decide_eq_true hdir
    rw [mkdir_parents, wp_bind, wp_read, hcreate]
    show wp (exist_ok destination (up.reverse ++ [name]) .eexist) Q E fault w
    unfold exist_ok
    rw [wp_bind, wp_read, his_dir, wp_ite]
    exact ⟨(fun h => by cases h), fun _ => hQ⟩

theorem create_link_touches {link : Link} (hleads : ¬Leads destination w.tree link.created) :
    ∃ p, ¬Below destination p ∧ Touches (create_link destination link) w p := by
  unfold Leads at hleads
  push Not at hleads
  obtain ⟨front, name, back, r, hpath, hwalk, hdir, hnew, hr⟩ := hleads
  refine ⟨r ++ [name], fun h => hr (of_below_concat h), ?_⟩
  have hinside := link.member.inside
  have hmissing : ∀ {back}, link.member.parent = front ++ name :: back →
      Touches (create_link destination link) w (r ++ [name]) := by
    intro back hparent
    have hname : name ≠ dotdot := by
      rintro rfl
      refine hinside (List.mem_append_left _ ?_)
      rw [hparent]
      exact List.mem_append_right _ List.mem_cons_self
    have hup : link.member.parent.reverse.reverse = front ++ name :: back := by
      rw [List.reverse_reverse]
      exact hparent
    exact Touches.bind (mkdir_parents_touches hwalk hdir hnew hname hup) fun _ => grows_symlink
  unfold Link.created at hpath
  split at hpath
  · exact hmissing hpath
  · rename_i htarget
    rcases List.eq_nil_or_concat' back with rfl | ⟨back, y, rfl⟩
    · obtain ⟨hparent, hname⟩ := List.append_inj' hpath rfl
      cases hname
      unfold Touches create_link
      rw [wp_bind]
      refine wp_mkdir_parents_of_dir
        (fun hmem => hinside (List.mem_append_left _ (List.mem_reverse.mp hmem))) ?_ hdir ?_
      · rw [List.reverse_reverse, hparent]
        exact hwalk
      · unfold symlink
        rw [if_neg htarget]
        refine wp_call (fun e he => ?_) fun w' hw' => ?_
        · rw [hparent, create_ok hwalk hdir hnew] at he
          cases he
        · rw [hparent, create_ok hwalk hdir hnew] at hw'
          cases hw'
          exact List.mem_cons_self
    · have hassoc : front ++ name :: (back ++ [y]) = (front ++ name :: back) ++ [y] := by simp
      rw [hassoc] at hpath
      exact hmissing (List.append_inj' hpath rfl).1

theorem unlink_ok {member : Member} (hlstat : (w.lstat destination member).any Node.is_link = true)
    (hwalk : w.tree.walk MAXSYMLINKS destination member.parent = .ok r) :
    ∃ w', w.unlink destination member = .ok w' ∧ r ++ [member.name] ∈ w'.touched := by
  unfold World.lstat at hlstat
  unfold World.unlink
  rw [hwalk] at hlstat ⊢
  dsimp only at hlstat ⊢
  split
  · exact ⟨_, rfl, List.mem_cons_self⟩
  · rename_i hlink
    cases hnode : w.tree.node (r ++ [member.name]) with
    | none =>
      rw [hnode] at hlstat
      cases hlstat
    | some object =>
      rw [hnode] at hlstat
      cases object with
      | link target => exact absurd hnode (hlink target)
      | dir => cases hlstat
      | file content => cases hlstat

theorem repair_link_touches {link : Link} (hc : ¬Vetted limit destination w (.repair link)) :
    ∃ p, ¬Below destination p ∧ Touches (repair_link limit destination link) w p := by
  unfold Vetted at hc
  push Not at hc
  obtain ⟨hbroken, hintended, r, hwalk, hr⟩ := hc
  refine ⟨r ++ [link.member.name], fun h => hr (of_below_concat h), ?_⟩
  have hlstat := (Bool.and_eq_true_iff.mp hbroken).1
  obtain ⟨w', hunlink, htouched⟩ := unlink_ok hlstat hwalk
  unfold Touches repair_link
  rw [wp_bind, wp_read, if_pos hbroken, wp_bind, wp_read]
  cases hr' : w.intended limit destination link with
  | none =>
    rw [hr'] at hintended
    cases hintended
  | some r' =>
    rw [hr'] at hintended
    have hfile : (w.tree.node r').any Node.is_file = true := hintended
    dsimp only
    rw [wp_bind, wp_read, if_pos hfile, wp_bind]
    refine wp_call (fun e he => ?_) fun w'' hw'' => ?_
    · rw [hunlink] at he
      cases he
    · rw [hunlink] at hw''
      cases hw''
      exact grows_symlink _ _ _ htouched

/-- A task that touches nothing outside was vetted. -/
theorem task_touches {task : Task} (hne : task ≠ .validate) (hc : ¬Vetted limit destination w task) :
    ∃ p, ¬Below destination p ∧ Touches (task.run limit destination) w p := by
  cases task with
  | link link => exact create_link_touches hc
  | repair link => exact repair_link_touches hc
  | validate => exact absurd rfl hne

/-! ## The tree -/

theorem validate_link_of_mem {t : FileTree} {p : RealPath} {target : Str} {objects : List ((_ : RealPath) × Node)}
    (hmem : ⟨p, .link target⟩ ∈ objects) : ∀ {count total : Nat},
      validate_objects limit destination false t objects count total = .ok () →
        ∃ counted, validate_link limit destination false t p target = .ok counted := by
  induction objects with
  | nil => cases hmem
  | cons object objects ih =>
    intro count total h
    obtain ⟨q, object⟩ := object
    rcases List.mem_cons.mp hmem with heq | hrest
    · cases heq
      rw [validate_objects] at h
      obtain ⟨counted, hcounted, -⟩ := of_bind_eq_ok h
      exact ⟨counted, hcounted⟩
    · cases object with
      | link target' =>
        rw [validate_objects] at h
        obtain ⟨counted, -, h⟩ := of_bind_eq_ok h
        exact ih hrest h
      | dir =>
        rw [validate_objects] at h
        exact ih hrest (of_ite_error_eq_ok h).2
      | file content =>
        rw [validate_objects] at h
        obtain ⟨-, h⟩ := of_ite_error_eq_ok h
        obtain ⟨-, h⟩ := of_ite_error_eq_ok h
        exact ih hrest (of_ite_error_eq_ok h).2

/-- A link of a tree that was accepted leads to the destination, or below it. -/
theorem link_of_validate_tree {p : RealPath} {target : Str} (h : validate_tree limit destination false t = .ok ())
    (hp : Below destination p) (hlink : t.node p = some (.link target)) :
    isAbsolute target = false ∧ ∃ r, t.walk limit p.dropLast (components target) = .ok r ∧ destination <+: r := by
  have hmem : ⟨p, .link target⟩ ∈ t.nodes.entries.filter fun object => Below destination object.1 :=
    List.mem_filter.mpr ⟨AList.mem_lookup_iff.mp hlink, decide_eq_true hp⟩
  obtain ⟨counted, hcounted⟩ := validate_link_of_mem hmem h
  unfold validate_link at hcounted
  obtain ⟨habsolute, hcounted⟩ := of_ite_error_eq_ok hcounted
  refine ⟨eq_false_of_ne_true habsolute, ?_⟩
  split at hcounted
  · rename_i hresolve
    unfold resolve at hresolve
    split at hresolve
    · cases hresolve
    · rename_i r hwalk
      split at hresolve
      · rename_i hr
        exact ⟨r, hwalk, hr⟩
      · cases hresolve
  · cases hcounted

theorem linksInside_iff (h : validate_tree limit destination false t = .ok ()) :
    LinksInside destination t ↔ ∀ p target, Below destination p → t.node p = some (.link target) →
      t.walk limit p.dropLast (components target) ≠ .ok destination := by
  constructor
  · intro hinside p target hp hlink hwalk
    obtain ⟨n, r, hwalk', hr, -⟩ := hinside p target hp hlink
    rw [FileTree.base, (link_of_validate_tree h hp hlink).1] at hwalk'
    exact hr.2 (FileTree.walk_unique hwalk' hwalk)
  · intro hne p target hp hlink
    obtain ⟨habsolute, r, hwalk, hr⟩ := link_of_validate_tree h hp hlink
    have hbase : FileTree.base p.dropLast target = p.dropLast := by
      rw [FileTree.base, habsolute]
      rfl
    refine ⟨limit, r, ?_, ⟨hr, ?_⟩, ?_⟩
    · rw [hbase]
      exact hwalk
    · rintro rfl
      exact hne p target hp hlink hwalk
    · refine FileTree.node_of_walk ?_ hwalk
      rcases List.eq_nil_or_concat' p with rfl | ⟨q, x, rfl⟩
      · exact absurd (List.prefix_nil.mp hp.1).symm hp.2
      · rw [List.dropLast_concat]
        have hparent : t.node q = some .dir := by
          refine t.parent q x ?_
          have hlink : t.nodes.lookup (q ++ [x]) = some (.link target) := hlink
          rw [hlink]
          exact Option.some_ne_none _
        rw [hparent]
        exact Option.some_ne_none _

/-! ## Runs -/

variable {ts : List Task} {w' : World}

theorem step_iff {w₀ : World} {task : Task} :
    (taskMachine limit destination w₀).step w task = some w' ↔
      task.run limit destination none w = .ok ((), none, w') := by
  show ((task.run limit destination none w).toOption.map fun r => r.2.2) = some w' ↔ _
  cases hrun : task.run limit destination none w with
  | error e => exact ⟨(fun h => by cases h), fun h => by cases h⟩
  | ok r =>
    obtain ⟨⟨⟩, _ | e, w''⟩ := r
    · refine ⟨fun h => ?_, fun h => ?_⟩
      · cases Option.some.inj h
        rfl
      · cases h
        rfl
    · exact e.elim

/-- The tasks touch nothing outside, and leave only links that lead inside. -/
structure RunContained (limit : Nat) (destination : RealPath) (ts : List Task) (w : World) : Prop where
  touched : ∀ p ∈ ((run_tasks limit destination ts).final none w).touched, Below destination p
  links : ∀ w', run_tasks limit destination ts none w = .ok ((), none, w') → LinksInside destination w'.tree

theorem run_tasks_ok {task : Task} (h : task.run limit destination none w = .ok ((), none, w')) :
    run_tasks limit destination (task :: ts) none w = run_tasks limit destination ts none w' := by
  show andThen (task.run limit destination) (fun _ => run_tasks limit destination ts) none w = _
  rw [andThen, h]

theorem run_tasks_error {task : Task} {e : Exc} (ts : List Task)
    (h : task.run limit destination none w = .error (e, w')) :
    run_tasks limit destination (task :: ts) none w = .error (e, w') := by
  show andThen (task.run limit destination) (fun _ => run_tasks limit destination ts) none w = _
  rw [andThen, h]

theorem runContained_ok {task : Task} (h : task.run limit destination none w = .ok ((), none, w')) :
    RunContained limit destination (task :: ts) w ↔ RunContained limit destination ts w' := by
  have hrun : run_tasks limit destination (task :: ts) none w = run_tasks limit destination ts none w' := run_tasks_ok h
  have hfinal : (run_tasks limit destination (task :: ts)).final none w =
      (run_tasks limit destination ts).final none w' := by
    unfold final
    rw [hrun]
  refine ⟨fun h' => ⟨?_, ?_⟩, fun h' => ⟨?_, ?_⟩⟩
  · rw [← hfinal]
    exact h'.touched
  · rw [← hrun]
    exact h'.links
  · rw [hfinal]
    exact h'.touched
  · rw [hrun]
    exact h'.links

/-- Only the check of the tree is left. -/
theorem runContained_validate {w₀ : World} (h : Sane destination w) :
    RunContained limit destination [.validate] w ↔
      (taskMachine limit destination w₀).AllSteps (Vetted limit destination) w [.validate] := by
  have hsteps : (taskMachine limit destination w₀).AllSteps (Vetted limit destination) w [.validate] ↔
      Vetted limit destination w .validate := and_iff_left fun _ _ => trivial
  rw [hsteps]
  cases hvalidate : validate_tree limit destination false w.tree with
  | error e =>
    have hrun : Task.run limit destination .validate none w = .error (e, w) := by
      show ofExcept (validate_tree limit destination false w.tree) none w = _
      rw [hvalidate]
      rfl
    have hrun := run_tasks_error [] hrun
    refine iff_of_true ⟨?_, fun w' h' => ?_⟩ fun h' => ?_
    · unfold final
      rw [hrun]
      exact h.touched
    · rw [hrun] at h'
      cases h'
    · rw [hvalidate] at h'
      cases h'
  | ok =>
    have hrun : Task.run limit destination .validate none w = .ok ((), none, w) := by
      show ofExcept (validate_tree limit destination false w.tree) none w = _
      rw [hvalidate]
      rfl
    rw [runContained_ok hrun]
    constructor
    · exact fun h' _ => (linksInside_iff hvalidate).mp (h'.links w rfl)
    · intro hc
      refine ⟨h.touched, fun w' h' => ?_⟩
      cases h'
      exact (linksInside_iff hvalidate).mpr (hc hvalidate)

theorem runContained_iff (w₀ : World) (hts : ∀ task ∈ ts, task ≠ .validate) : ∀ {w : World}, Sane destination w →
    (RunContained limit destination (ts ++ [.validate]) w ↔
      (taskMachine limit destination w₀).AllSteps (Vetted limit destination) w (ts ++ [.validate])) := by
  induction ts with
  | nil => exact fun h => runContained_validate h
  | cons task ts ih =>
    intro w h
    by_cases hc : Vetted limit destination w task
    · have hspec : wp (task.run limit destination) (fun _ _ => Sane destination) (fun _ => Sane destination) none w :=
        wp_task h hc
      unfold wp at hspec
      cases hrun : task.run limit destination none w with
      | error e =>
        rw [hrun] at hspec
        obtain ⟨e, w'⟩ := e
        have hrun' := run_tasks_error (ts ++ [.validate]) hrun
        refine iff_of_true ⟨?_, fun w'' h' => ?_⟩ ⟨hc, fun w'' h' => ?_⟩
        · unfold final
          rw [List.cons_append, hrun']
          exact hspec.touched
        · rw [List.cons_append, hrun'] at h'
          cases h'
        · rw [step_iff, hrun] at h'
          cases h'
      | ok r =>
        rw [hrun] at hspec
        obtain ⟨⟨⟩, _ | e, w'⟩ := r
        · rw [List.cons_append, runContained_ok hrun, Machine.allSteps_cons (step_iff.mpr hrun), and_iff_right hc]
          exact ih (fun task' h' => hts task' (List.mem_cons_of_mem _ h')) hspec
        · exact e.elim
    · refine iff_of_false (fun h' => ?_) fun h' => hc h'.1
      obtain ⟨p, hp, htouches⟩ := task_touches (hts task List.mem_cons_self) hc
      have hrun : Touches (run_tasks limit destination (task :: ts ++ [.validate])) w p :=
        Touches.bind htouches fun _ => grows_run_tasks _
      exact hp (h'.touched p (wp_final (P := fun w : World => p ∈ w.touched) hrun))

/-! ## Extracting -/

theorem plain_of_fresh (h : Fresh destination t) : Plain destination ⟨t, []⟩ := by
  refine ⟨⟨h.dir, fun p hp => by cases hp⟩, fun p target hp hlink => ?_⟩
  have hnone : t.node p = some (.link target) := hlink
  rw [h.empty p hp] at hnone
  cases hnone

/-- The entries have been extracted, and the links are left. -/
theorem contained_iff_of_extracted {archive : Archive} {entries : List Entry} {links : List Link}
    (hentries : archive.entries = .ok entries)
    (hextract : extract_entries destination entries 0 0 [] none ⟨t, []⟩ = .ok (links, none, w))
    (hsane : Sane destination w) : Contained limit destination archive t ↔
      (taskMachine limit destination w).AllSteps (Vetted limit destination) w (tasks links) := by
  have hrun : extract_archive limit destination archive none ⟨t, []⟩ =
      run_tasks limit destination (tasks links) none w := by
    show andThen (ofExcept archive.entries) _ none _ = _
    rw [andThen, hentries]
    show andThen (extract_entries destination entries 0 0 []) _ none _ = _
    rw [andThen, hextract]
  have hfinal : (extract_archive limit destination archive).final none ⟨t, []⟩ =
      (run_tasks limit destination (tasks links)).final none w := by
    unfold final
    rw [hrun]
  have hcontained : Contained limit destination archive t ↔ RunContained limit destination (tasks links) w := by
    refine ⟨fun h => ⟨?_, ?_⟩, fun h => ⟨?_, ?_⟩⟩
    · rw [← hfinal]
      exact h.touched
    · rw [← hrun]
      exact h.links
    · rw [hfinal]
      exact h.touched
    · rw [hrun]
      exact h.links
  have hlast : ∀ task ∈ links.map Task.link ++ KNOWN_INTERNAL_LINKS.map Task.repair, task ≠ .validate := by
    rintro task hmem rfl
    rcases List.mem_append.mp hmem with hmem | hmem
    · obtain ⟨_, -, h⟩ := List.mem_map.mp hmem
      cases h
    · obtain ⟨_, -, h⟩ := List.mem_map.mp hmem
      cases h
  rw [hcontained, tasks]
  exact runContained_iff w hlast hsane

/-- When it raises before there is a link, there is nothing to ask. -/
theorem contained_of_raised {archive : Archive} {e : Exc} (hsane : Sane destination w)
    (hrun : extract_archive limit destination archive none ⟨t, []⟩ = .error (e, w)) :
    Contained limit destination archive t := by
  refine ⟨?_, fun w' h => ?_⟩
  · unfold final
    rw [hrun]
    exact hsane.touched
  · rw [hrun] at h
    cases h

/-- An archive stays inside its destination if and only if its links are created inside, whatever links are on the
way. -/
theorem contained_iff (limit : Nat) (destination : RealPath) (archive : Archive) (t : FileTree)
    (hfresh : Fresh destination t) :
    Contained limit destination archive t ↔ ∀ entries links w, archive.entries = .ok entries →
      extract_entries destination entries 0 0 [] none ⟨t, []⟩ = .ok (links, none, w) →
        (taskMachine limit destination w).AllSteps (Vetted limit destination) w (tasks links) := by
  have hplain := plain_of_fresh hfresh
  cases hentries : archive.entries with
  | error e =>
    have hrun : extract_archive limit destination archive none ⟨t, []⟩ = .error (e, ⟨t, []⟩) := by
      show andThen (ofExcept archive.entries) _ none _ = _
      rw [andThen, hentries]
      rfl
    exact iff_of_true (contained_of_raised hplain.toSane hrun) fun _ _ _ h => by cases h
  | ok entries =>
    have hspec : wp (extract_entries destination entries 0 0 []) (fun _ _ => Plain destination)
        (fun _ => Plain destination) none ⟨t, []⟩ := wp_extract_entries hplain
    unfold wp at hspec
    cases hextract : extract_entries destination entries 0 0 [] none ⟨t, []⟩ with
    | error e =>
      rw [hextract] at hspec
      have hrun : extract_archive limit destination archive none ⟨t, []⟩ = .error e := by
        show andThen (ofExcept archive.entries) _ none _ = _
        rw [andThen, hentries]
        show andThen (extract_entries destination entries 0 0 []) _ none _ = _
        rw [andThen, hextract]
      refine iff_of_true (contained_of_raised hspec.toSane hrun) fun entries' links w h h' => ?_
      cases Except.ok.inj h
      rw [hextract] at h'
      cases h'
    | ok r =>
      rw [hextract] at hspec
      obtain ⟨links, _ | e, w⟩ := r
      · rw [contained_iff_of_extracted hentries hextract hspec.toSane]
        refine ⟨fun h entries' links' w' hentries' hextract' => ?_, fun h => h entries links w rfl hextract⟩
        cases Except.ok.inj hentries'
        rw [hextract] at hextract'
        cases hextract'
        exact h
      · exact e.elim

def exampleTree : FileTree := FileTree.bare.create [] "payload".toList .dir rfl rfl

theorem fresh_exampleTree : Fresh ["payload".toList] exampleTree := by
  refine ⟨by decide, fun p hp => ?_⟩
  have hnode : exampleTree.node p = if p = ["payload".toList] then some .dir else FileTree.bare.node p :=
    FileTree.node_create p
  rw [hnode, if_neg hp.2]
  by_contra hnone
  have hmem := AList.lookup_isSome.mp (Option.isSome_iff_ne_none.mpr hnone)
  rw [List.mem_singleton.mp hmem] at hp
  exact absurd hp.1 (by decide)

/-- A link is created through one that leads up, and leads out of the destination from there. -/
def escapingArchive : Archive :=
  .tar [⟨"p/q/r".toList, .symlink (some "..".toList)⟩, ⟨"p/q/r/l".toList, .symlink (some "../..".toList)⟩,
    ⟨"p/l/evil".toList, .symlink (some "x".toList)⟩]

theorem escapingArchive_touches : ["evil".toList] ∈
    ((extract_archive 40 ["payload".toList] escapingArchive).final none ⟨exampleTree, []⟩).touched := by
  decide +kernel

theorem escapingArchive_not_contained : ¬Contained 40 ["payload".toList] escapingArchive exampleTree :=
  fun h => absurd (h.touched _ escapingArchive_touches) (by decide)

/-- The condition fails for such an archive. -/
theorem escapingArchive_not_vetted : ¬∀ entries links w, escapingArchive.entries = .ok entries →
    extract_entries ["payload".toList] entries 0 0 [] none ⟨exampleTree, []⟩ = .ok (links, none, w) →
      (taskMachine 40 ["payload".toList] w).AllSteps (Vetted 40 ["payload".toList]) w (tasks links) :=
  fun h => escapingArchive_not_contained
    ((contained_iff 40 ["payload".toList] escapingArchive exampleTree fresh_exampleTree).mpr h)

theorem not_always_contained : ¬∀ limit destination archive t, Fresh destination t →
    Contained limit destination archive t :=
  fun h => escapingArchive_not_contained (h 40 _ _ _ fresh_exampleTree)

end AnboxReboxed.Scripts.ExtractArchive
