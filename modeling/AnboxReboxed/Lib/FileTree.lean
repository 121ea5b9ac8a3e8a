import Mathlib.Data.List.AList

/-!
# File systems with symbolic links

An object is where it is by the names of the directories that lead to it from the root, none of them a link. A path is
walked as the kernel does it: every link on the way is followed, and counts against a limit.
-/

namespace AnboxReboxed.Lib

abbrev FileName := List Char

/-- The names from the root, without links. -/
abbrev RealPath := List FileName

inductive Node where
  | dir
  | file (content : List UInt8)
  | link (target : List Char)
  deriving DecidableEq

inductive Errno where
  | enoent
  | enotdir
  | eexist
  | eloop
  deriving DecidableEq

/-- The name of the directory above. -/
def dotdot : FileName := ['.', '.']

def isAbsolute (path : List Char) : Bool := path.head? = some '/'

/-- The names in a path. An empty one and `.` lead nowhere else. -/
def components (path : List Char) : List FileName := (path.splitOn '/').filter fun name => name ≠ [] ∧ name ≠ ['.']

/-- Whatever there is, is in a directory. -/
structure FileTree where
  nodes : AList fun _ : RealPath => Node
  root : nodes.lookup [] = some .dir
  parent : ∀ p x, nodes.lookup (p ++ [x]) ≠ none → nodes.lookup p = some .dir

namespace FileTree

def node (t : FileTree) (p : RealPath) : Option Node := t.nodes.lookup p

variable {t t' : FileTree} {p q cur r : RealPath} {x : FileName} {path : List FileName} {n : Nat}

theorem nil_ne_concat : ([] : RealPath) ≠ p ++ [x] := (List.concat_ne_nil x p).symm

/-- There is only the root. -/
def bare : FileTree where
  nodes := AList.singleton [] .dir
  root := rfl
  parent p x h := by
    have hmem := AList.lookup_isSome.mp (Option.isSome_iff_ne_none.mpr h)
    exact absurd (List.mem_singleton.mp hmem) nil_ne_concat.symm

def create (t : FileTree) (p : RealPath) (x : FileName) (object : Node) (hdir : t.node p = some .dir)
    (hnew : t.node (p ++ [x]) = none) : FileTree where
  nodes := t.nodes.insert (p ++ [x]) object
  root := by
    rw [AList.lookup_insert_ne nil_ne_concat]
    exact t.root
  parent q y h := by
    -- The new object is not above any other.
    have hne : q ≠ p ++ [x] := by
      rintro rfl
      rw [AList.lookup_insert_ne (by simp)] at h
      have hdir := t.parent _ _ h
      rw [node, hdir] at hnew
      cases hnew
    rw [AList.lookup_insert_ne hne]
    by_cases heq : q ++ [y] = p ++ [x]
    · rw [(List.append_inj' heq rfl).1]
      exact hdir
    · rw [AList.lookup_insert_ne heq] at h
      exact t.parent q y h

/-- Only a link is removed. -/
def unlink (t : FileTree) (p : RealPath) (target : List Char) (hlink : t.node p = some (.link target)) : FileTree where
  nodes := t.nodes.erase p
  root := by
    have hne : [] ≠ p := by
      rintro rfl
      rw [node, t.root] at hlink
      cases hlink
    rw [AList.lookup_erase_ne hne]
    exact t.root
  parent q x h := by
    have heq : q ++ [x] ≠ p := fun heq => h (by rw [heq, AList.lookup_erase])
    rw [AList.lookup_erase_ne heq] at h
    have hdir := t.parent q x h
    have hne : q ≠ p := by
      rintro rfl
      rw [node, hdir] at hlink
      cases hlink
    rw [AList.lookup_erase_ne hne]
    exact hdir

theorem node_create {object : Node} {hdir : t.node p = some .dir} {hnew : t.node (p ++ [x]) = none} (q : RealPath) :
    (t.create p x object hdir hnew).node q = if q = p ++ [x] then some object else t.node q := by
  by_cases hq : q = p ++ [x]
  · rw [if_pos hq, hq]
    exact AList.lookup_insert _
  · rw [if_neg hq]
    exact AList.lookup_insert_ne hq

theorem node_unlink {target : List Char} (hlink : t.node p = some (.link target)) (hq : q ≠ p) :
    (t.unlink p target hlink).node q = t.node q := AList.lookup_erase_ne hq

/-- The directory above is a directory. -/
theorem node_dropLast (h : t.node cur = some .dir) : t.node cur.dropLast = some .dir := by
  rcases List.eq_nil_or_concat' cur with rfl | ⟨p, x, rfl⟩
  · exact h
  · rw [List.dropLast_concat]
    refine t.parent p x ?_
    have h : t.nodes.lookup (p ++ [x]) = some .dir := h
    rw [h]
    exact Option.some_ne_none _

/-! ## Walking a path -/

/-- Where a link is followed from. -/
def base (cur : RealPath) (target : List Char) : RealPath := if isAbsolute target then [] else cur

/-- The walk up to the first link. -/
def walkWith (t : FileTree) (follow : RealPath → List FileName → Except Errno RealPath) :
    RealPath → List FileName → Except Errno RealPath
  | cur, [] => .ok cur
  | cur, name :: path =>
    if t.node cur ≠ some .dir then .error .enotdir
    else if name = dotdot then walkWith t follow cur.dropLast path
    else
      match t.node (cur ++ [name]) with
      | none => .error .enoent
      | some (.link target) => follow (base cur target) (components target ++ path)
      | some _ => walkWith t follow (cur ++ [name]) path

/-- Where a path leads from a directory. So many links may be on the way. -/
def walk (t : FileTree) : Nat → RealPath → List FileName → Except Errno RealPath
  | 0 => t.walkWith fun _ _ => .error .eloop
  | limit + 1 => t.walkWith (t.walk limit)

/-- The walk as a relation. -/
inductive Walks (t : FileTree) : Nat → RealPath → List FileName → RealPath → Prop where
  | done (n : Nat) (cur : RealPath) : Walks t n cur [] cur
  | up {n : Nat} {cur r : RealPath} {path : List FileName} (hdir : t.node cur = some .dir)
      (h : Walks t n cur.dropLast path r) : Walks t n cur (dotdot :: path) r
  | enter {n : Nat} {cur r : RealPath} {name : FileName} {path : List FileName} (hdir : t.node cur = some .dir)
      (hname : name ≠ dotdot) (hnode : t.node (cur ++ [name]) ≠ none)
      (hlink : ∀ target, t.node (cur ++ [name]) ≠ some (.link target)) (h : Walks t n (cur ++ [name]) path r) :
      Walks t n cur (name :: path) r
  | follow {n : Nat} {cur r : RealPath} {name : FileName} {path : List FileName} {target : List Char}
      (hdir : t.node cur = some .dir) (hname : name ≠ dotdot) (hlink : t.node (cur ++ [name]) = some (.link target))
      (h : Walks t n (base cur target) (components target ++ path) r) : Walks t (n + 1) cur (name :: path) r

/-- What becomes of a link. -/
def follows (t : FileTree) : Nat → RealPath → List FileName → Except Errno RealPath
  | 0 => fun _ _ => .error .eloop
  | limit + 1 => t.walk limit

theorem walk_eq (n : Nat) : t.walk n = t.walkWith (t.follows n) := by cases n <;> rfl

@[simp] theorem walk_nil : t.walk n cur [] = .ok cur := by
  rw [walk_eq]
  rfl

theorem walk_notdir (hdir : t.node cur ≠ some .dir) : t.walk n cur (x :: path) = .error .enotdir := by
  rw [walk_eq, walkWith, if_pos hdir]

theorem walk_up (hdir : t.node cur = some .dir) : t.walk n cur (dotdot :: path) = t.walk n cur.dropLast path := by
  rw [walk_eq, walkWith, if_neg (fun h => h hdir), if_pos rfl]

theorem walk_missing (hdir : t.node cur = some .dir) (hname : x ≠ dotdot) (hnode : t.node (cur ++ [x]) = none) :
    t.walk n cur (x :: path) = .error .enoent := by
  rw [walk_eq, walkWith, if_neg (fun h => h hdir), if_neg hname, hnode]

theorem walk_link {target : List Char} (hdir : t.node cur = some .dir) (hname : x ≠ dotdot)
    (hlink : t.node (cur ++ [x]) = some (.link target)) :
    t.walk n cur (x :: path) = t.follows n (base cur target) (components target ++ path) := by
  rw [walk_eq, walkWith, if_neg (fun h => h hdir), if_neg hname, hlink]

theorem walk_enter (hdir : t.node cur = some .dir) (hname : x ≠ dotdot) (hnode : t.node (cur ++ [x]) ≠ none)
    (hlink : ∀ target, t.node (cur ++ [x]) ≠ some (.link target)) :
    t.walk n cur (x :: path) = t.walk n (cur ++ [x]) path := by
  rw [walk_eq, walkWith, if_neg (fun h => h hdir), if_neg hname]
  cases hx : t.node (cur ++ [x]) with
  | none => exact absurd hx hnode
  | some node =>
    cases node with
    | link target => exact absurd hx (hlink target)
    | dir => rfl
    | file content => rfl

theorem Walks.walk (h : Walks t n cur path r) : t.walk n cur path = .ok r := by
  induction h with
  | done => exact walk_nil
  | up hdir _ ih => rw [walk_up hdir, ih]
  | enter hdir hname hnode hlink _ ih => rw [walk_enter hdir hname hnode hlink, ih]
  | follow hdir hname hlink _ ih =>
    rw [walk_link hdir hname hlink]
    exact ih

/-- The walk is one of the relation, when what comes after a link is. -/
theorem walks_of_follows (hfollows : ∀ {cur path}, t.follows n cur path = .ok r → ∃ m, n = m + 1 ∧ Walks t m cur path r)
    (h : t.walk n cur path = .ok r) : Walks t n cur path r := by
  induction path generalizing cur with
  | nil =>
    rw [walk_nil] at h
    cases h
    exact .done n _
  | cons x path ih =>
    by_cases hdir : t.node cur = some .dir
    · by_cases hname : x = dotdot
      · subst hname
        rw [walk_up hdir] at h
        exact .up hdir (ih h)
      · cases hnode : t.node (cur ++ [x]) with
        | none =>
          rw [walk_missing hdir hname hnode] at h
          cases h
        | some object =>
          have hsome : t.node (cur ++ [x]) ≠ none := by
            rw [hnode]
            exact Option.some_ne_none _
          by_cases hlink : ∃ target, t.node (cur ++ [x]) = some (.link target)
          · obtain ⟨target, hlink⟩ := hlink
            rw [walk_link hdir hname hlink] at h
            obtain ⟨m, rfl, hwalks⟩ := hfollows h
            exact .follow hdir hname hlink hwalks
          · have hlink : ∀ target, t.node (cur ++ [x]) ≠ some (.link target) := fun target h' => hlink ⟨target, h'⟩
            rw [walk_enter hdir hname hsome hlink] at h
            exact .enter hdir hname hsome hlink (ih h)
    · rw [walk_notdir hdir] at h
      cases h

theorem walks_of_walk (h : t.walk n cur path = .ok r) : Walks t n cur path r := by
  induction n generalizing cur path with
  | zero => exact walks_of_follows (fun h' => by cases h') h
  | succ n ih => exact walks_of_follows (fun h' => ⟨n, rfl, ih h'⟩) h

/-! ## Paths of several parts -/

/-- The walk goes on from where a part of it leads, with the links that are left. -/
theorem walk_append (h : t.walk n cur path = .ok r) : ∃ m, ∀ back, t.walk n cur (path ++ back) = t.walk m r back := by
  induction walks_of_walk h with
  | done n cur => exact ⟨n, fun _ => rfl⟩
  | up hdir hwalks ih =>
    obtain ⟨m, hm⟩ := ih hwalks.walk
    refine ⟨m, fun back => ?_⟩
    rw [List.cons_append, walk_up hdir, hm]
  | enter hdir hname hnode hlink hwalks ih =>
    obtain ⟨m, hm⟩ := ih hwalks.walk
    refine ⟨m, fun back => ?_⟩
    rw [List.cons_append, walk_enter hdir hname hnode hlink, hm]
  | follow hdir hname hlink hwalks ih =>
    obtain ⟨m, hm⟩ := ih hwalks.walk
    refine ⟨m, fun back => ?_⟩
    rw [List.cons_append, walk_link hdir hname hlink, ← hm, List.append_assoc]
    rfl

/-- A part of a walk leads somewhere, too. -/
theorem walk_left {back : List FileName} (h : t.walk n cur (path ++ back) = .ok r) :
    ∃ r', t.walk n cur path = .ok r' := by
  generalize hwhole : path ++ back = whole at h
  induction walks_of_walk h generalizing path with
  | done n cur =>
    rw [(List.append_eq_nil_iff.mp hwhole).1]
    exact ⟨cur, walk_nil⟩
  | @up n cur r rest hdir hwalks ih =>
    cases path with
    | nil => exact ⟨cur, walk_nil⟩
    | cons x path =>
      obtain ⟨rfl, hrest⟩ := List.cons.inj hwhole
      rw [walk_up hdir]
      exact ih hrest hwalks.walk
  | @enter n cur r name rest hdir hname hnode hlink hwalks ih =>
    cases path with
    | nil => exact ⟨cur, walk_nil⟩
    | cons x path =>
      obtain ⟨rfl, hrest⟩ := List.cons.inj hwhole
      rw [walk_enter hdir hname hnode hlink]
      exact ih hrest hwalks.walk
  | @follow n cur r name rest target hdir hname hlink hwalks ih =>
    cases path with
    | nil => exact ⟨cur, walk_nil⟩
    | cons x path =>
      obtain ⟨rfl, hrest⟩ := List.cons.inj hwhole
      have hrest : path ++ back = rest := hrest
      rw [walk_link hdir hname hlink]
      refine ih ?_ hwalks.walk
      rw [List.append_assoc, hrest]

/-- The last name of a walk is that of something in a directory. -/
theorem walk_concat (hname : x ≠ dotdot) (h : t.walk n cur (path ++ [x]) = .ok r) :
    ∃ r', t.walk n cur path = .ok r' ∧ t.node r' = some .dir ∧ t.node (r' ++ [x]) ≠ none := by
  obtain ⟨r', hr'⟩ := walk_left h
  obtain ⟨m, hm⟩ := walk_append hr'
  rw [hm] at h
  refine ⟨r', hr', ?_, ?_⟩
  · by_contra hdir
    rw [walk_notdir hdir] at h
    cases h
  · intro hnone
    by_cases hdir : t.node r' = some .dir
    · rw [walk_missing hdir hname hnone] at h
      cases h
    · rw [walk_notdir hdir] at h
      cases h

/-- Where something is missing in a directory, a walk ends. -/
theorem walk_append_missing {back : List FileName} (h : t.walk n cur path = .ok r) (hdir : t.node r = some .dir)
    (hname : x ≠ dotdot) (hnode : t.node (r ++ [x]) = none) :
    t.walk n cur (path ++ x :: back) = .error .enoent := by
  obtain ⟨m, hm⟩ := walk_append h
  rw [hm, walk_missing hdir hname hnode]

/-! ## What a walk depends on -/

/-- A walk that leads somewhere still does, when there is more. -/
theorem walk_mono (hmono : ∀ p object, t.node p = some object → t'.node p = some object)
    (h : t.walk n cur path = .ok r) : t'.walk n cur path = .ok r := by
  induction walks_of_walk h with
  | done => exact walk_nil
  | up hdir hwalks ih => rw [walk_up (hmono _ _ hdir), ih hwalks.walk]
  | @enter n cur r name path hdir hname hnode hlink hwalks ih =>
    obtain ⟨object, hobject⟩ := Option.ne_none_iff_exists'.mp hnode
    have hobject' := hmono _ _ hobject
    have hsome : t'.node (cur ++ [name]) ≠ none := by
      rw [hobject']
      exact Option.some_ne_none _
    have hlink' : ∀ target, t'.node (cur ++ [name]) ≠ some (.link target) := by
      rw [hobject', ← hobject]
      exact hlink
    rw [walk_enter (hmono _ _ hdir) hname hsome hlink', ih hwalks.walk]
  | follow hdir hname hlink hwalks ih =>
    rw [walk_link (hmono _ _ hdir) hname (hmono _ _ hlink)]
    exact ih hwalks.walk

/-- A walk that leads somewhere still does, when there is room for more links. -/
theorem walk_limit {m : Nat} (hm : n ≤ m) (h : t.walk n cur path = .ok r) : t.walk m cur path = .ok r := by
  induction walks_of_walk h generalizing m with
  | done => exact walk_nil
  | up hdir hwalks ih => rw [walk_up hdir, ih hm hwalks.walk]
  | enter hdir hname hnode hlink hwalks ih => rw [walk_enter hdir hname hnode hlink, ih hm hwalks.walk]
  | follow hdir hname hlink hwalks ih =>
    obtain ⟨k, rfl⟩ := Nat.exists_eq_add_one_of_ne_zero (Nat.ne_zero_of_lt hm)
    rw [walk_link hdir hname hlink]
    exact ih (Nat.le_of_succ_le_succ hm) hwalks.walk

/-- A walk leads to one place only. -/
theorem walk_unique {m : Nat} {r' : RealPath} (h : t.walk n cur path = .ok r) (h' : t.walk m cur path = .ok r') :
    r = r' :=
  Except.ok.inj ((walk_limit (Nat.le_max_left n m) h).symm.trans (walk_limit (Nat.le_max_right n m) h'))

/-- A walk leads to something that is there. -/
theorem node_of_walk (hcur : t.node cur ≠ none) (h : t.walk n cur path = .ok r) : t.node r ≠ none := by
  induction walks_of_walk h with
  | done => exact hcur
  | up hdir hwalks ih =>
    refine ih ?_ hwalks.walk
    rw [node_dropLast hdir]
    exact Option.some_ne_none _
  | enter _ _ hnode _ hwalks ih => exact ih hnode hwalks.walk
  | @follow n cur r name path target hdir _ _ hwalks ih =>
    refine ih ?_ hwalks.walk
    unfold base
    split
    · rw [node, t.root]
      exact Option.some_ne_none _
    · exact hcur

/-- Where there are no links below a directory, a path below it leads where it says. -/
theorem walk_plain (hplain : ∀ front, front ≠ [] → ∀ target, t.node (p ++ front) ≠ some (.link target))
    (hpath : dotdot ∉ path) (h : t.walk n p path = .ok r) : r = p ++ path := by
  induction path generalizing p with
  | nil =>
    rw [walk_nil] at h
    rw [List.append_nil]
    exact (Except.ok.inj h).symm
  | cons x path ih =>
    cases walks_of_walk h with
    | up => exact absurd List.mem_cons_self hpath
    | enter _ _ _ _ hwalks =>
      have hplain' : ∀ front, front ≠ [] → ∀ target, t.node (p ++ [x] ++ front) ≠ some (.link target) := by
        intro front _ target
        rw [List.append_assoc]
        exact hplain ([x] ++ front) (List.cons_ne_nil _ _) target
      rw [ih hplain' (fun h' => hpath (List.mem_cons_of_mem _ h')) hwalks.walk, List.append_assoc]
      rfl
    | follow _ _ hlink _ => exact absurd hlink (hplain [x] (List.cons_ne_nil _ _) _)

end FileTree

end AnboxReboxed.Lib
