import AnboxReboxed.Lib.Fallible
import AnboxReboxed.Lib.FileTree
import AnboxReboxed.Lib.Machine

/-!
# Extracting an archive

The files and directories of an archive are extracted first, and its links after them, one after another. A link is
looked at by what is written in the archive, before any link is there. Only at the end are the links of the tree
followed.
-/

namespace AnboxReboxed.Scripts.ExtractArchive

open AnboxReboxed.Lib

abbrev Str := List Char

def MAX_SOURCE : Nat := 4 * 1024 * 1024 * 1024

def MAX_FILE : Nat := 512 * 1024 * 1024

def MAX_FILES : Nat := 4096

/-- The links that the kernel follows on a path. -/
def MAXSYMLINKS : Nat := 40

/-- A path of an archive. It does not go up. -/
structure Member where
  parent : List FileName
  name : FileName
  inside : dotdot ∉ parent ++ [name]

def Member.path (member : Member) : List FileName := member.parent ++ [member.name]

/-- What a `BridgeError` is about. -/
inductive Problem where
  | unsafe_path (name : Str)
  | absolute_symlink (member : Member)
  | symlink_escapes (member : Member)
  | symlink_empty_target (member : Member)
  | member_limit
  | member_ended
  | too_many_entries
  | archive_limit
  | hard_link (name : Str)
  | special_file (name : Str)
  | not_supported
  | alias_no_target (member : Member)
  | alias_not_a_file (member : Member)
  | payload_absolute_symlink (path : RealPath)
  | payload_symlink (path : RealPath)
  | payload_too_many_files
  | payload_file_limit (path : RealPath)
  | payload_limit

inductive Exc where
  | bridge_error (problem : Problem)
  | os_error (errno : Errno)
  | unicode_error

def safe_member (name : Str) : Except Exc (Option Member) :=
  let normalized := name.map fun c => if c = '\\' then '/' else c
  let parts := components normalized
  if isAbsolute normalized then .error (.bridge_error (.unsafe_path name))
  else if h : parts.any (· = dotdot) then .error (.bridge_error (.unsafe_path name))
  else if hne : parts = [] then .ok none
  else
    .ok (some ⟨parts.dropLast, parts.getLast hne, by
      rw [List.dropLast_append_getLast]
      exact fun hmem => h (List.any_eq_true.mpr ⟨dotdot, hmem, decide_eq_true rfl⟩)⟩)

/-- The loop of `safe_link_target`. -/
def link_parts (member : Member) : List FileName → List FileName → Except Exc (List FileName)
  | parts, [] => .ok parts
  | parts, part :: rest =>
    if part = dotdot then
      if parts = [] then .error (.bridge_error (.symlink_escapes member))
      else link_parts member parts.dropLast rest
    else link_parts member (parts ++ [part]) rest

def safe_link_target (member : Member) (target : Str) : Except Exc Str := do
  if isAbsolute target then throw (.bridge_error (.absolute_symlink member))
  let parts ← link_parts member [] (member.parent ++ components target)
  if parts = [] then throw (.bridge_error (.symlink_empty_target member))
  return target

/-! ## File operations -/

/-- The file system, and what has been created, changed or removed in it, by where it really is. -/
structure World where
  tree : FileTree
  touched : List RealPath := []

abbrev Ex := Fallible Exc Empty World

namespace World

/-- A path is one below the destination, which is given by where it really is. -/
def is_dir (w : World) (destination : RealPath) (path : List FileName) : Bool :=
  match w.tree.walk MAXSYMLINKS destination path with
  | .error _ => false
  | .ok r => w.tree.node r = some .dir

/-- `mkdir`, `symlink`, and `open` with `O_CREAT` and `O_EXCL`. -/
def create (w : World) (destination : RealPath) (parent : List FileName) (name : FileName) (object : Node) :
    Except Errno World :=
  match w.tree.walk MAXSYMLINKS destination parent with
  | .error e => .error e
  | .ok r =>
    if hdir : w.tree.node r = some .dir then
      if hnew : w.tree.node (r ++ [name]) = none then
        .ok ⟨w.tree.create r name object hdir hnew, (r ++ [name]) :: w.touched⟩
      else .error .eexist
    else .error .enotdir

def lstat (w : World) (destination : RealPath) (member : Member) : Option Node :=
  match w.tree.walk MAXSYMLINKS destination member.parent with
  | .error _ => none
  | .ok r => w.tree.node (r ++ [member.name])

/-- Only links are unlinked. -/
def unlink (w : World) (destination : RealPath) (member : Member) : Except Errno World :=
  match w.tree.walk MAXSYMLINKS destination member.parent with
  | .error e => .error e
  | .ok r =>
    match h : w.tree.node (r ++ [member.name]) with
    | some (.link target) => .ok ⟨w.tree.unlink (r ++ [member.name]) target h, (r ++ [member.name]) :: w.touched⟩
    | _ => .error .enoent

end World

/-- A system call that changes something. -/
def call (f : World → Except Errno World) : Ex Unit := do
  match ← Fallible.read f with
  | .error e => Fallible.raise (.os_error e)
  | .ok w => Fallible.modify fun _ => w

/-- What `mkdir` does about an error, when the directory may be there already. -/
def exist_ok (destination : RealPath) (path : List FileName) (e : Errno) : Ex Unit := do
  if !(← Fallible.read fun w => w.is_dir destination path) then Fallible.raise (.os_error e)

/-- `mkdir(exist_ok=True)` -/
def mkdir (destination : RealPath) (parent : List FileName) (name : FileName) : Ex Unit := do
  match ← Fallible.read fun w => w.create destination parent name .dir with
  | .ok w => Fallible.modify fun _ => w
  | .error .enoent => Fallible.raise (.os_error .enoent)
  | .error e => exist_ok destination (parent ++ [name]) e

/-- `mkdir(parents=True, exist_ok=True)`, with the names of the path in reverse. -/
def mkdir_parents (destination : RealPath) : List FileName → Ex Unit
  | [] => return
  | name :: up => do
    match ← Fallible.read fun w => w.create destination up.reverse name .dir with
    | .ok w => Fallible.modify fun _ => w
    | .error .enoent => do
      mkdir_parents destination up
      mkdir destination up.reverse name
    | .error e => exist_ok destination (up.reverse ++ [name]) e

def chmod (destination : RealPath) (path : List FileName) : Ex Unit :=
  call fun w => do
    let r ← w.tree.walk MAXSYMLINKS destination path
    return { w with touched := r :: w.touched }

def write_member (destination : RealPath) (member : Member) (size : Int) (content : List UInt8) : Ex Unit := do
  if size < 0 ∨ size > MAX_FILE then Fallible.raise (.bridge_error .member_limit)
  mkdir_parents destination member.parent.reverse
  call fun w => w.create destination member.parent member.name (.file (content.take size.toNat))
  if content.length < size then Fallible.raise (.bridge_error .member_ended)
  chmod destination member.path

/-! ## The entries of an archive -/

inductive Kind where
  /-- The target may not be UTF-8 in a zip archive. -/
  | symlink (target : Option Str)
  | hard_link
  | directory
  | special
  /-- There may be less content than the size says. -/
  | file (size : Int) (content : List UInt8)

structure Entry where
  name : Str
  kind : Kind

structure ZipItem where
  filename : Str
  /-- `stat.S_ISLNK(item.external_attr >> 16)` -/
  is_link : Bool
  file_size : Nat
  content : List UInt8
  /-- The content as UTF-8. -/
  text : Option Str

def ZipItem.entry (item : ZipItem) : Entry where
  name := item.filename
  kind :=
    if item.is_link then .symlink item.text
    else if item.filename.getLast? = some '/' then .directory
    else .file item.file_size item.content

inductive Archive where
  | zip (items : List ZipItem)
  | tar (entries : List Entry)
  | other

structure Link where
  member : Member
  target : Str

/-- One entry, with the total size and the links so far. -/
def extract_entry (destination : RealPath) (entry : Entry) (member : Member) (total : Int) (links : List Link) :
    Ex (Int × List Link) :=
  match entry.kind with
  | .symlink none => Fallible.raise .unicode_error
  | .symlink (some target) => do
    let target ← Fallible.ofExcept (safe_link_target member target)
    return (total, links ++ [⟨member, target⟩])
  | .hard_link => Fallible.raise (.bridge_error (.hard_link entry.name))
  | .directory => do
    mkdir_parents destination member.path.reverse
    return (total, links)
  | .special => Fallible.raise (.bridge_error (.special_file entry.name))
  | .file size content => do
    if total + size > MAX_SOURCE then Fallible.raise (.bridge_error .archive_limit)
    write_member destination member size content
    return (total + size, links)

/-- The loop over the entries. -/
def extract_entries (destination : RealPath) : List Entry → Nat → Int → List Link → Ex (List Link)
  | [], _, _, links => return links
  | entry :: entries, count, total, links => do
    if count + 1 > MAX_FILES then Fallible.raise (.bridge_error .too_many_entries)
    match ← Fallible.ofExcept (safe_member entry.name) with
    | none => extract_entries destination entries (count + 1) total links
    | some member => do
      let (total, links) ← extract_entry destination entry member total links
      extract_entries destination entries (count + 1) total links

/-! ## Links -/

def symlink (destination : RealPath) (link : Link) : Ex Unit := do
  if link.target = [] then Fallible.raise (.os_error .enoent)
  call fun w => w.create destination link.member.parent link.member.name (.link link.target)

def create_link (destination : RealPath) (link : Link) : Ex Unit := do
  mkdir_parents destination link.member.parent.reverse
  symlink destination link

def KNOWN_INTERNAL_LINKS : List Link :=
  [⟨⟨["system".toList, "lib64".toList], "libnb.so".toList, by decide⟩, "libndk_translation.so".toList⟩,
    ⟨⟨["system".toList, "lib".toList], "libnb.so".toList, by decide⟩, "../lib64/libndk_translation.so".toList⟩]

/-- `resolve(strict=True)` and `relative_to`. A loop of links is longer than any limit. -/
def resolve (limit : Nat) (destination : RealPath) (t : FileTree) (base : RealPath) (path : List FileName) :
    Option RealPath :=
  match t.walk limit base path with
  | .error _ => none
  | .ok r => if destination <+: r then some r else none

def Node.is_link : Node → Bool
  | .link _ => true
  | _ => false

def Node.is_file : Node → Bool
  | .file _ => true
  | _ => false

/-- A known alias is a link that leads nowhere inside. -/
def World.broken (w : World) (limit : Nat) (destination : RealPath) (link : Link) : Bool :=
  (w.lstat destination link.member).any Node.is_link &&
    (resolve limit destination w.tree destination link.member.path).isNone

/-- Where it is intended to lead. -/
def World.intended (w : World) (limit : Nat) (destination : RealPath) (link : Link) : Option RealPath :=
  resolve limit destination w.tree destination (link.member.parent ++ components link.target)

/-- One turn of `repair_known_internal_links`. -/
def repair_link (limit : Nat) (destination : RealPath) (link : Link) : Ex Unit := do
  if ← Fallible.read fun w => w.broken limit destination link then
    match ← Fallible.read fun w => w.intended limit destination link with
    | none => Fallible.raise (.bridge_error (.alias_no_target link.member))
    | some r =>
      if ← Fallible.read fun w => (w.tree.node r).any Node.is_file then
        call fun w => w.unlink destination link.member
        symlink destination link
      else Fallible.raise (.bridge_error (.alias_not_a_file link.member))

/-! ## The tree -/

/-- The object is in the directory, or further below it. -/
def Below (destination p : RealPath) : Prop := destination <+: p ∧ p ≠ destination

instance (destination p : RealPath) : Decidable (Below destination p) := inferInstanceAs (Decidable (_ ∧ _))

/-- It is a known alias, and what it is intended for is there. -/
def known_broken (limit : Nat) (destination : RealPath) (t : FileTree) (p : RealPath) : Bool :=
  KNOWN_INTERNAL_LINKS.any fun link =>
    p = destination ++ link.member.path &&
      (resolve limit destination t p.dropLast (components link.target)).isSome

/-- A link of the tree, and how much it counts. -/
def validate_link (limit : Nat) (destination : RealPath) (allow_known_broken : Bool) (t : FileTree) (p : RealPath)
    (target : Str) : Except Exc Nat :=
  if isAbsolute target then .error (.bridge_error (.payload_absolute_symlink p))
  else if (resolve limit destination t p.dropLast (components target)).isSome then .ok 1
  else if allow_known_broken && known_broken limit destination t p then .ok 0
  else .error (.bridge_error (.payload_symlink p))

/-- The objects of the tree, with their number and size so far. The order in which `os.walk` finds them is not
specified. -/
def validate_objects (limit : Nat) (destination : RealPath) (allow_known_broken : Bool) (t : FileTree) :
    List ((_ : RealPath) × Node) → Nat → Nat → Except Exc Unit
  | [], _, _ => .ok ()
  | ⟨p, object⟩ :: objects, count, total =>
    match object with
    | .link target => do
      let counted ← validate_link limit destination allow_known_broken t p target
      validate_objects limit destination allow_known_broken t objects (count + counted) total
    | .dir =>
      if count + 1 > MAX_FILES then .error (.bridge_error .payload_too_many_files)
      else validate_objects limit destination allow_known_broken t objects (count + 1) total
    | .file content =>
      if count + 1 > MAX_FILES then .error (.bridge_error .payload_too_many_files)
      else if content.length > MAX_FILE then .error (.bridge_error (.payload_file_limit p))
      else if total + content.length > MAX_SOURCE then .error (.bridge_error .payload_limit)
      else validate_objects limit destination allow_known_broken t objects (count + 1) (total + content.length)

def validate_tree (limit : Nat) (destination : RealPath) (allow_known_broken : Bool) (t : FileTree) : Except Exc Unit :=
  validate_objects limit destination allow_known_broken t
    (t.nodes.entries.filter fun object => Below destination object.1) 0 0

/-! ## Extracting -/

/-- What is done after the files and directories. -/
inductive Task where
  | link (link : Link)
  | repair (link : Link)
  | validate

def Task.run (limit : Nat) (destination : RealPath) : Task → Ex Unit
  | .link l => create_link destination l
  | .repair l => repair_link limit destination l
  | .validate => do Fallible.ofExcept (validate_tree limit destination false (← Fallible.read World.tree))

def run_tasks (limit : Nat) (destination : RealPath) : List Task → Ex Unit
  | [] => return
  | task :: tasks => do
    task.run limit destination
    run_tasks limit destination tasks

/-- The links are created, the known aliases repaired, and the tree is checked. -/
def tasks (links : List Link) : List Task := links.map .link ++ KNOWN_INTERNAL_LINKS.map .repair ++ [.validate]

def Archive.entries : Archive → Except Exc (List Entry)
  | .zip items => .ok (items.map ZipItem.entry)
  | .tar entries => .ok entries
  | .other => .error (.bridge_error .not_supported)

def extract_archive (limit : Nat) (destination : RealPath) (archive : Archive) : Ex Unit := do
  let entries ← Fallible.ofExcept archive.entries
  let links ← extract_entries destination entries 0 0 []
  run_tasks limit destination (tasks links)

/-! ## Staying inside -/

/-- The destination is there, and empty. -/
structure Fresh (destination : RealPath) (t : FileTree) : Prop where
  dir : t.node destination = some .dir
  empty : ∀ p, Below destination p → t.node p = none

/-- Every link below the destination leads to something below it. -/
def LinksInside (destination : RealPath) (t : FileTree) : Prop :=
  ∀ p target, Below destination p → t.node p = some (.link target) →
    ∃ n r, t.walk n (FileTree.base p.dropLast target) (components target) = .ok r ∧ Below destination r ∧
      t.node r ≠ none

/-- Nothing outside is touched, and the links that are left lead inside. -/
structure Contained (limit : Nat) (destination : RealPath) (archive : Archive) (t : FileTree) : Prop where
  touched : ∀ p ∈ ((extract_archive limit destination archive).final none ⟨t, []⟩).touched, Below destination p
  links : ∀ w, extract_archive limit destination archive none ⟨t, []⟩ = .ok ((), none, w) →
    LinksInside destination w.tree

/-- What is missing of the path is missing in the destination, or below it. -/
def Leads (destination : RealPath) (t : FileTree) (path : List FileName) : Prop :=
  ∀ front name back r, path = front ++ name :: back → t.walk MAXSYMLINKS destination front = .ok r →
    t.node r = some .dir → t.node (r ++ [name]) = none → destination <+: r

/-- The path that is created for a link. A link without a target is not. -/
def Link.created (link : Link) : List FileName := if link.target = [] then link.member.parent else link.member.path

/-- A link is created, and a known alias is repaired, in the destination or below it, whatever links are on the way. A
tree that is accepted has no link to the destination itself. -/
def Vetted (limit : Nat) (destination : RealPath) (w : World) : Task → Prop
  | .link link => Leads destination w.tree link.created
  | .repair link => w.broken limit destination link = true →
      (w.intended limit destination link).any (fun r => (w.tree.node r).any Node.is_file) = true →
      ∀ r, w.tree.walk MAXSYMLINKS destination link.member.parent = .ok r → destination <+: r
  | .validate => validate_tree limit destination false w.tree = .ok () → ∀ p target, Below destination p →
      w.tree.node p = some (.link target) → w.tree.walk limit p.dropLast (components target) ≠ .ok destination

/-- The tasks, from where the files and directories have been extracted. -/
def taskMachine (limit : Nat) (destination : RealPath) (w : World) : Machine World Task where
  init := w
  step w task := (task.run limit destination none w).toOption.map fun r => r.2.2

end AnboxReboxed.Scripts.ExtractArchive
