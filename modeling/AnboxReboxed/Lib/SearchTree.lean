import Mathlib.Data.List.Basic

/-!
# Search trees that are balanced elsewhere

A binary tree as the code sees it that walks down from the root. At each node the code reads what it needs of the node,
which may fail, and turns left or right. How the tree is balanced is left open: the nodes keep their order then.
-/

namespace AnboxReboxed.Lib

inductive SearchTree (α : Type) where
  | leaf
  | node (left : SearchTree α) (x : α) (right : SearchTree α)

namespace SearchTree

variable {α ε : Type}

/-- The nodes in order. -/
def toList : SearchTree α → List α
  | leaf => []
  | node left x right => left.toList ++ x :: right.toList

@[simp] theorem toList_leaf : (leaf : SearchTree α).toList = [] := rfl

@[simp] theorem toList_node (left : SearchTree α) (x : α) (right : SearchTree α) :
    (node left x right).toList = left.toList ++ x :: right.toList := rfl

/-- Links a new node where the walk ends. -/
def link (goLeft : α → Except ε Bool) (a : α) : SearchTree α → Except ε (SearchTree α)
  | leaf => .ok (node leaf a leaf)
  | node left x right => do
    if ← goLeft x then
      let left ← link goLeft a left
      return node left x right
    else
      let right ← link goLeft a right
      return node left x right

/-- Looks for a node; `compare` tells where it is from the node at hand. -/
def find (compare : α → Except ε Ordering) : SearchTree α → Except ε (Option α)
  | leaf => .ok none
  | node left x right => do
    match ← compare x with
    | .lt => find compare left
    | .gt => find compare right
    | .eq => return some x

/-- Looks for a node that is large enough: the last one on the way that was larger, unless one is met that is just as
large. -/
def bestFit (size : α → Except ε Nat) (want : Nat) : SearchTree α → Option α → Except ε (Option α × Bool)
  | leaf, best => .ok (best, false)
  | node left x right, best => do
    let there ← size x
    if want < there then bestFit size want left (some x)
    else if there < want then bestFit size want right best
    else return (some x, true)

/-- Ordered by `key`; nodes with the same key are next to each other. -/
def Ordered (key : α → Nat) (t : SearchTree α) : Prop := t.toList.Pairwise (fun x y => key x ≤ key y)

variable {key : α → Nat} {left right t : SearchTree α} {a x : α}

theorem ordered_node : (node left x right).Ordered key ↔
    left.Ordered key ∧ right.Ordered key ∧ (∀ y ∈ left.toList, key y ≤ key x) ∧ (∀ y ∈ right.toList, key x ≤ key y) ∧
      ∀ y ∈ left.toList, ∀ z ∈ right.toList, key y ≤ key z := by
  unfold Ordered
  rw [toList_node, List.pairwise_append, List.pairwise_cons]
  constructor
  · rintro ⟨hleft, ⟨hx, hright⟩, hcross⟩
    exact ⟨hleft, hright, fun y hy => hcross y hy x List.mem_cons_self, hx,
      fun y hy z hz => hcross y hy z (List.mem_cons_of_mem _ hz)⟩
  · rintro ⟨hleft, hright, hlx, hxr, hlr⟩
    refine ⟨hleft, ⟨hxr, hright⟩, fun y hy z hz => ?_⟩
    rcases List.mem_cons.mp hz with rfl | hz
    · exact hlx y hy
    · exact hlr y hy z hz

/-- A new node is linked behind those that are not larger, and before the larger ones. -/
theorem link_ok {goLeft : α → Except ε Bool} (ht : t.Ordered key)
    (hgo : ∀ x ∈ t.toList, goLeft x = .ok (decide (key a < key x))) :
    ∃ t' before after, link goLeft a t = .ok t' ∧ t.toList = before ++ after ∧ t'.toList = before ++ a :: after ∧
      (∀ x ∈ before, key x ≤ key a) ∧ ∀ x ∈ after, key a < key x := by
  induction t with
  | leaf => exact ⟨node leaf a leaf, [], [], rfl, rfl, rfl, fun x hx => absurd hx List.not_mem_nil,
      fun x hx => absurd hx List.not_mem_nil⟩
  | node left x right ihl ihr =>
    obtain ⟨hleft, hright, hlx, hxr, -⟩ := ordered_node.mp ht
    have hgl : ∀ y ∈ left.toList, goLeft y = .ok (decide (key a < key y)) := fun y hy =>
      hgo y (List.mem_append_left _ hy)
    have hgr : ∀ y ∈ right.toList, goLeft y = .ok (decide (key a < key y)) := fun y hy =>
      hgo y (List.mem_append_right _ (List.mem_cons_of_mem _ hy))
    have hgx := hgo x (List.mem_append_right _ List.mem_cons_self)
    by_cases hlt : key a < key x
    · obtain ⟨t', before, after, hok, hold, hnew, hb, ha⟩ := ihl hleft hgl
      refine ⟨node t' x right, before, after ++ x :: right.toList, ?_, ?_, ?_, hb, ?_⟩
      · simp only [link, hgx, hlt, decide_true, hok, bind, Except.bind, if_true, pure, Except.pure]
      · rw [toList_node, hold, List.append_assoc]
      · rw [toList_node, hnew, List.append_assoc, List.cons_append]
      · intro y hy
        rcases List.mem_append.mp hy with hy | hy
        · exact ha y hy
        · rcases List.mem_cons.mp hy with rfl | hy
          · exact hlt
          · exact Nat.lt_of_lt_of_le hlt (hxr y hy)
    · obtain ⟨t', before, after, hok, hold, hnew, hb, ha⟩ := ihr hright hgr
      refine ⟨node left x t', left.toList ++ x :: before, after, ?_, ?_, ?_, ?_, ha⟩
      · simp only [link, hgx, hlt, decide_false, hok, bind, Except.bind, Bool.false_eq_true, if_false, pure,
          Except.pure]
      · rw [toList_node, hold, List.append_assoc, List.cons_append]
      · rw [toList_node, hnew, List.append_assoc, List.cons_append]
      · intro y hy
        rcases List.mem_append.mp hy with hy | hy
        · exact Nat.le_trans (hlx y hy) (Nat.not_lt.mp hlt)
        · rcases List.mem_cons.mp hy with rfl | hy
          · exact Nat.not_lt.mp hlt
          · exact hb y hy

/-- The tree with the new node is ordered again, and has no other nodes. -/
theorem link_spec {goLeft : α → Except ε Bool} (ht : t.Ordered key)
    (hgo : ∀ x ∈ t.toList, goLeft x = .ok (decide (key a < key x))) :
    ∃ t', link goLeft a t = .ok t' ∧ t'.Ordered key ∧ t'.toList.Perm (a :: t.toList) := by
  obtain ⟨t', before, after, hok, hold, hnew, hb, ha⟩ := link_ok ht hgo
  refine ⟨t', hok, ?_, ?_⟩
  · unfold Ordered at ht ⊢
    rw [hold, List.pairwise_append] at ht
    rw [hnew, List.pairwise_append, List.pairwise_cons]
    refine ⟨ht.1, ⟨fun x hx => Nat.le_of_lt (ha x hx), ht.2.1⟩, fun x hx y hy => ?_⟩
    rcases List.mem_cons.mp hy with rfl | hy
    · exact hb x hx
    · exact ht.2.2 x hx y hy
  · rw [hnew, hold]
    exact List.perm_middle

/-- The search finds the node with the key it is after, when there is one. -/
theorem find_spec (compare : α → Except ε Ordering) (want : Nat) (ht : t.Ordered key)
    (hinj : ∀ x ∈ t.toList, ∀ y ∈ t.toList, key x = key y → x = y)
    (hcmp : ∀ x ∈ t.toList, compare x = .ok (Ord.compare want (key x))) :
    ∃ found, find compare t = .ok found ∧ ∀ x, found = some x ↔ x ∈ t.toList ∧ key x = want := by
  induction t with
  | leaf => exact ⟨none, rfl, fun x => ⟨fun h => (Option.some_ne_none x h.symm).elim,
      fun h => absurd h.1 List.not_mem_nil⟩⟩
  | node left x right ihl ihr =>
    obtain ⟨hleft, hright, hlx, hxr, -⟩ := ordered_node.mp ht
    have hcl : ∀ y ∈ left.toList, y ∈ (node left x right).toList := fun y hy => List.mem_append_left _ hy
    have hcr : ∀ y ∈ right.toList, y ∈ (node left x right).toList := fun y hy =>
      List.mem_append_right _ (List.mem_cons_of_mem _ hy)
    have hmem : x ∈ (node left x right).toList := List.mem_append_right _ List.mem_cons_self
    have hcx := hcmp x hmem
    rcases Nat.lt_trichotomy want (key x) with hlt | heq | hgt
    · obtain ⟨found, hok, hfound⟩ := ihl hleft (fun y hy z hz => hinj y (hcl y hy) z (hcl z hz))
        (fun y hy => hcmp y (hcl y hy))
      refine ⟨found, ?_, fun y => ⟨fun h => ?_, fun h => ?_⟩⟩
      · simp only [find, hcx, Nat.compare_eq_lt.mpr hlt, bind, Except.bind, hok]
      · exact ⟨hcl y ((hfound y).mp h).1, ((hfound y).mp h).2⟩
      · rw [toList_node, List.mem_append, List.mem_cons] at h
        rcases h.1 with hy | rfl | hy
        · exact (hfound y).mpr ⟨hy, h.2⟩
        · have := h.2
          omega
        · have := hxr y hy
          have := h.2
          omega
    · refine ⟨some x, ?_, fun y => ⟨fun h => ?_, fun h => ?_⟩⟩
      · simp only [find, hcx, Nat.compare_eq_eq.mpr heq, bind, Except.bind, pure, Except.pure]
      · cases Option.some.inj h
        exact ⟨hmem, heq.symm⟩
      · exact congrArg some (hinj x hmem y h.1 (heq.symm.trans h.2.symm))
    · obtain ⟨found, hok, hfound⟩ := ihr hright (fun y hy z hz => hinj y (hcr y hy) z (hcr z hz))
        (fun y hy => hcmp y (hcr y hy))
      refine ⟨found, ?_, fun y => ⟨fun h => ?_, fun h => ?_⟩⟩
      · simp only [find, hcx, Nat.compare_eq_gt.mpr hgt, bind, Except.bind, hok]
      · exact ⟨hcr y ((hfound y).mp h).1, ((hfound y).mp h).2⟩
      · rw [toList_node, List.mem_append, List.mem_cons] at h
        rcases h.1 with hy | rfl | hy
        · have := hlx y hy
          have := h.2
          omega
        · have := h.2
          omega
        · exact (hfound y).mpr ⟨hy, h.2⟩

/-- What `bestFit` makes of the node `best` that it has met before and of the nodes `l`: a smallest one that is large
enough, and whether it is just as large. -/
def BestFit (key : α → Nat) (want : Nat) (best : Option α) (l : List α) : Option α × Bool → Prop
  | (some x, true) => x ∈ l ∧ key x = want
  | (some x, false) => (x ∈ l ∨ best = some x) ∧ want < key x ∧ ∀ y ∈ l, want ≤ key y → key x ≤ key y
  | (none, _) => best = none ∧ ∀ y ∈ l, key y < want

theorem bestFit_spec {size : α → Except ε Nat} {want : Nat} (ht : t.Ordered key)
    (hsize : ∀ x ∈ t.toList, size x = .ok (key x)) :
    ∀ best : Option α, (∀ b, best = some b → want < key b ∧ ∀ y ∈ t.toList, key y ≤ key b) →
      ∃ result, bestFit size want t best = .ok result ∧ BestFit key want best t.toList result := by
  induction t with
  | leaf =>
    intro best hbest
    refine ⟨(best, false), rfl, ?_⟩
    cases best with
    | none => exact ⟨rfl, fun y hy => absurd hy List.not_mem_nil⟩
    | some b => exact ⟨Or.inr rfl, (hbest b rfl).1, fun y hy => absurd hy List.not_mem_nil⟩
  | node left x right ihl ihr =>
    intro best hbest
    obtain ⟨hleft, hright, hlx, hxr, -⟩ := ordered_node.mp ht
    have hcl : ∀ y ∈ left.toList, y ∈ (node left x right).toList := fun y hy => List.mem_append_left _ hy
    have hcr : ∀ y ∈ right.toList, y ∈ (node left x right).toList := fun y hy =>
      List.mem_append_right _ (List.mem_cons_of_mem _ hy)
    have hmem : x ∈ (node left x right).toList := List.mem_append_right _ List.mem_cons_self
    have hsx := hsize x hmem
    rcases Nat.lt_trichotomy want (key x) with hlt | heq | hgt
    · obtain ⟨result, hok, hfit⟩ := ihl hleft (fun y hy => hsize y (hcl y hy)) (some x)
        (fun b hb => by cases hb; exact ⟨hlt, hlx⟩)
      refine ⟨result, ?_, ?_⟩
      · simp only [bestFit, hsx, hlt, if_true, hok, bind, Except.bind]
      · rcases result with ⟨_ | y, _ | _⟩
        · exact absurd hfit.1 (Option.some_ne_none x)
        · exact absurd hfit.1 (Option.some_ne_none x)
        · obtain ⟨hy, hlty, hmin⟩ := hfit
          have hyx : key y ≤ key x := by
            rcases hy with hy | hy
            · exact hlx y hy
            · exact Nat.le_of_eq (congrArg key (Option.some.inj hy).symm)
          refine ⟨Or.inl ?_, hlty, fun z hz hwz => ?_⟩
          · rcases hy with hy | hy
            · exact hcl y hy
            · exact Option.some.inj hy ▸ hmem
          · rw [toList_node, List.mem_append, List.mem_cons] at hz
            rcases hz with hz | rfl | hz
            · exact hmin z hz hwz
            · exact hyx
            · exact Nat.le_trans hyx (hxr z hz)
        · exact ⟨hcl y hfit.1, hfit.2⟩
    · refine ⟨(some x, true), ?_, hmem, heq.symm⟩
      simp only [bestFit, hsx, heq, Nat.lt_irrefl, if_false, bind, Except.bind, pure, Except.pure]
    · obtain ⟨result, hok, hfit⟩ := ihr hright (fun y hy => hsize y (hcr y hy)) best
        (fun b hb => ⟨(hbest b hb).1, fun y hy => (hbest b hb).2 y (hcr y hy)⟩)
      refine ⟨result, ?_, ?_⟩
      · simp only [bestFit, hsx, Nat.lt_asymm hgt, hgt, if_false, if_true, hok, bind, Except.bind]
      · rcases result with ⟨_ | y, _ | _⟩
        -- what is not behind the node `x` is too small
        all_goals
          have hsmall : ∀ z ∈ (node left x right).toList, z ∉ right.toList → key z < want := by
            intro z hz hn
            rw [toList_node, List.mem_append, List.mem_cons] at hz
            rcases hz with hz | rfl | hz
            · exact Nat.lt_of_le_of_lt (hlx z hz) hgt
            · exact hgt
            · exact absurd hz hn
        · refine ⟨hfit.1, fun z hz => ?_⟩
          by_cases hn : z ∈ right.toList
          · exact hfit.2 z hn
          · exact hsmall z hz hn
        · refine ⟨hfit.1, fun z hz => ?_⟩
          by_cases hn : z ∈ right.toList
          · exact hfit.2 z hn
          · exact hsmall z hz hn
        · refine ⟨hfit.1.imp_left (hcr y), hfit.2.1, fun z hz hwz => ?_⟩
          by_cases hn : z ∈ right.toList
          · exact hfit.2.2 z hn hwz
          · exact absurd (hsmall z hz hn) (Nat.not_lt.mpr hwz)
        · exact ⟨hcr y hfit.1, hfit.2⟩

/-- From the root: the result is a smallest node that is large enough, or there is none. -/
theorem bestFit_none (size : α → Except ε Nat) (want : Nat) (ht : t.Ordered key)
    (hsize : ∀ x ∈ t.toList, size x = .ok (key x)) :
    ∃ result, bestFit size want t none = .ok result ∧ BestFit key want none t.toList result :=
  bestFit_spec ht hsize none (fun b hb => absurd hb.symm (Option.some_ne_none b))

/-- What keeps a tree balanced: a new node is linked before it is coloured, and an old one is taken out. -/
structure Balancing (α : Type) [DecidableEq α] where
  insert_color : α → SearchTree α → SearchTree α
  erase : α → SearchTree α → SearchTree α
  toList_insert_color : ∀ a t, (insert_color a t).toList = t.toList
  toList_erase : ∀ a t, a ∈ t.toList → t.toList.Nodup → (erase a t).toList = t.toList.erase a

/-- The tree has the nodes in `S`, ordered by `key`. -/
structure Indexed (key : α → Nat) (S : α → Prop) (t : SearchTree α) : Prop where
  ordered : t.Ordered key
  nodup : t.toList.Nodup
  mem : ∀ a, a ∈ t.toList ↔ S a

namespace Indexed

variable {key' : α → Nat} {S T : α → Prop}

theorem congr (h : Indexed key S t) (hkey : ∀ a, S a → key' a = key a) (hS : ∀ a, T a ↔ S a) : Indexed key' T t where
  ordered := h.ordered.imp_of_mem fun {x y} hx hy hle => by
    rw [hkey x ((h.mem x).mp hx), hkey y ((h.mem y).mp hy)]
    exact hle
  nodup := h.nodup
  mem a := (h.mem a).trans (hS a).symm

theorem empty : Indexed key (fun _ => False) (leaf : SearchTree α) where
  ordered := List.Pairwise.nil
  nodup := List.nodup_nil
  mem _ := iff_of_false List.not_mem_nil id

variable [DecidableEq α] (B : Balancing α)

/-- A node is taken out; its key may have changed before. -/
theorem erase (h : Indexed key S t) (key' : α → Nat) (ha : S a) (hkey : ∀ x, S x → x ≠ a → key' x = key x) :
    Indexed key' (fun x => S x ∧ x ≠ a) (B.erase a t) := by
  have hlist := B.toList_erase a t ((h.mem a).mpr ha) h.nodup
  have hmem : ∀ x, x ∈ t.toList.erase a ↔ S x ∧ x ≠ a := by
    intro x
    rw [h.nodup.mem_erase_iff, h.mem x]
    exact and_comm
  refine ⟨?_, hlist ▸ h.nodup.erase a, fun x => ?_⟩
  · unfold Ordered
    rw [hlist]
    refine (h.ordered.sublist List.erase_sublist).imp_of_mem fun {x y} hx hy hle => ?_
    obtain ⟨hSx, hxa⟩ := (hmem x).mp hx
    obtain ⟨hSy, hya⟩ := (hmem y).mp hy
    rw [hkey x hSx hxa, hkey y hSy hya]
    exact hle
  · rw [hlist]
    exact hmem x

/-- A new node is linked and coloured. -/
theorem insert (h : Indexed key S t) (ha : ¬S a) (goLeft : α → Except ε Bool)
    (hgo : ∀ x, S x → goLeft x = .ok (decide (key a < key x))) :
    ∃ t', link goLeft a t = .ok t' ∧ Indexed key (fun x => S x ∨ x = a) (B.insert_color a t') := by
  obtain ⟨t', hok, hord, hperm⟩ := link_spec h.ordered fun x hx => hgo x ((h.mem x).mp hx)
  have hlist := B.toList_insert_color a t'
  refine ⟨t', hok, ?_, ?_, fun x => ?_⟩
  · unfold Ordered
    rw [hlist]
    exact hord
  · rw [hlist, hperm.nodup_iff]
    exact List.nodup_cons.mpr ⟨fun hm => ha ((h.mem a).mp hm), h.nodup⟩
  · rw [hlist, hperm.mem_iff, List.mem_cons, h.mem x]
    exact or_comm

end Indexed

section Plain

/-- The nodes of `right` behind those of the other tree. -/
def join (right : SearchTree α) : SearchTree α → SearchTree α
  | leaf => right
  | node l x r => node l x (join right r)

theorem toList_join (right t : SearchTree α) : (join right t).toList = t.toList ++ right.toList := by
  induction t with
  | leaf => rfl
  | node l x r _ ihr => rw [join, toList_node, ihr, toList_node, List.append_assoc, List.cons_append]

variable [DecidableEq α]

def remove (a : α) : SearchTree α → SearchTree α
  | leaf => leaf
  | node l x r => if x = a then join r l else if a ∈ l.toList then node (remove a l) x r else node l x (remove a r)

theorem toList_remove (t : SearchTree α) (ha : a ∈ t.toList) (hn : t.toList.Nodup) :
    (remove a t).toList = t.toList.erase a := by
  induction t with
  | leaf => rfl
  | node l x r ihl ihr =>
    rw [toList_node, List.nodup_append, List.nodup_cons] at hn
    obtain ⟨hnl, ⟨hxr, hnr⟩, hcross⟩ := hn
    rw [remove, toList_node]
    by_cases hxa : x = a
    · subst hxa
      have hnot : x ∉ l.toList := fun h => hcross x h x List.mem_cons_self rfl
      rw [if_pos rfl, toList_join, List.erase_append_right _ hnot, List.erase_cons_head]
    · rw [if_neg hxa]
      by_cases hal : a ∈ l.toList
      · rw [if_pos hal, toList_node, ihl hal hnl, List.erase_append_left _ hal]
      · have har : a ∈ r.toList := by
          rw [toList_node, List.mem_append, List.mem_cons] at ha
          rcases ha with h | h | h
          · exact absurd h hal
          · exact absurd h.symm hxa
          · exact h
        rw [if_neg hal, toList_node, ihr har hnr, List.erase_append_right _ hal,
          List.erase_cons_tail (by simpa using hxa)]

/-- No balancing at all. -/
def Balancing.plain : Balancing α where
  insert_color _ t := t
  erase := remove
  toList_insert_color _ _ := rfl
  toList_erase _ t := toList_remove t

end Plain

end SearchTree

end AnboxReboxed.Lib
