import AnboxReboxed.Lib.Delimited
import AnboxReboxed.Lib.Fallible
import AnboxReboxed.Scripts.BuildPayload
import Mathlib.Data.List.TakeWhile

/-!
# Proofs: the payload of a translator

The loop over the selected files stages those that are not left out, so that the entries are theirs, with the hash and
the size of what is staged. Whether the entries are closed under what the libraries need is a matter of the selection:
only what the translators themselves need is ever looked for. Where the tree is comes into the targets by the part of
the root from the first partition on, and nowhere else.
-/

namespace AnboxReboxed.Scripts.BuildPayload

open AnboxReboxed.Lib

variable {tools : Tools} {root root' : Root} {tree : List Entry} {output : List StagedFile} {selected : List Selected}

/-! ## The staged files -/

theorem taken_concat (selected : List Selected) (s : Selected) :
    taken tools output (selected ++ [s]) =
      if LeftOut tools output (taken tools output selected) s then taken tools output selected
      else taken tools output selected ++ [s] := by
  unfold taken
  rw [List.foldl_append]
  rfl

theorem identity_ok {resolved : File} {id : Option Identity} (h : identity tools resolved = .ok id) :
    key tools resolved = id := by
  unfold identity at h
  unfold key
  split at h
  · rename_i hso
    rw [if_pos hso]
    cases hinfo : tools.elf_info resolved.content with
    | none => simp [hinfo] at h
    | some info =>
      rw [hinfo] at h
      exact Except.ok.inj h
  · rename_i hso
    rw [if_neg hso]
    exact Except.ok.inj h

/-- What is known after some of the selected files. -/
structure Staged (tools : Tools) (output : List StagedFile) (selected : List Selected) (st : Staging) : Prop where
  staged : st.output = output ++ (taken tools output selected).map Selected.staged
  entries : st.files = (taken tools output selected).map (Selected.entry tools)
  identities : ∀ id, id ∈ st.staged_identities.map Prod.fst ↔
    ∃ s ∈ taken tools output selected, key tools s.file = some id

theorem lookup_isSome_iff_mem {α β : Type} [BEq α] [LawfulBEq α] {l : List (α × β)} {a : α} :
    (l.lookup a).isSome = true ↔ a ∈ l.map Prod.fst := by
  simp [List.lookup_isSome_iff]

theorem Staged.stage {st st' : Staging} {s : Selected} (hst : Staged tools output selected st)
    (h : stage tools st s = .ok st') : Staged tools output (selected ++ [s]) st' := by
  obtain ⟨id, hid, h⟩ := of_bind_eq_ok h
  obtain rfl := identity_ok hid
  cases hsame : if s.item.is_symlink then (key tools s.file).bind fun id => st.staged_identities.lookup id
      else none with
  | some same_as =>
    -- The link is recorded as one to a library that is staged.
    rw [hsame] at h
    obtain rfl := Except.ok.inj h
    obtain ⟨hlink, hlookup⟩ := Option.ite_none_right_eq_some.mp hsame
    obtain ⟨id, hkey, hlookup⟩ := Option.bind_eq_some_iff.mp hlookup
    obtain ⟨k, hk, hkid⟩ := (hst.identities id).mp (lookup_isSome_iff_mem.mp (by rw [hlookup]; rfl))
    have hleft : LeftOut tools output (taken tools output selected) s :=
      Or.inl ⟨hlink, by rw [hkey]; rfl, k, hk, hkid.trans hkey.symm⟩
    have htaken : taken tools output (selected ++ [s]) = taken tools output selected := by
      rw [taken_concat, if_pos hleft]
    exact ⟨by rw [htaken]; exact hst.staged, by rw [htaken]; exact hst.entries, by rw [htaken]; exact hst.identities⟩
  | none =>
    rw [hsame] at h
    dsimp only at h
    by_cases hoccupied : Occupied st.output s.target
    · rw [if_pos hoccupied] at h
      obtain rfl := Except.ok.inj h
      have hleft : LeftOut tools output (taken tools output selected) s := by
        rw [hst.staged] at hoccupied
        exact Or.inr hoccupied
      have htaken : taken tools output (selected ++ [s]) = taken tools output selected := by
        rw [taken_concat, if_pos hleft]
      exact ⟨by rw [htaken]; exact hst.staged, by rw [htaken]; exact hst.entries,
        by rw [htaken]; exact hst.identities⟩
    · rw [if_neg hoccupied] at h
      obtain ⟨-, h⟩ := of_ite_error_eq_ok h
      obtain rfl := Except.ok.inj h
      have hstays : ¬LeftOut tools output (taken tools output selected) s := by
        rintro (⟨hlink, hsome, k, hk, hkey⟩ | hleft)
        · obtain ⟨id, hid⟩ := Option.isSome_iff_exists.mp hsome
          have hfound := lookup_isSome_iff_mem.mpr ((hst.identities id).mpr ⟨k, hk, hkey.trans hid⟩)
          rw [if_pos hlink, hid, Option.bind_some] at hsame
          rw [hsame] at hfound
          cases hfound
        · rw [hst.staged] at hoccupied
          exact hoccupied hleft
      have htaken : taken tools output (selected ++ [s]) = taken tools output selected ++ [s] := by
        rw [taken_concat, if_neg hstays]
      constructor
      · rw [htaken, List.map_append, ← List.append_assoc, ← hst.staged]
        rfl
      · rw [htaken, List.map_append, ← hst.entries]
        rfl
      · intro id
        have hadded : (st.add tools s (key tools s.file)).staged_identities.map Prod.fst
            = st.staged_identities.map Prod.fst ++ (key tools s.file).toList := by
          unfold Staging.add
          rw [List.map_append]
          cases key tools s.file <;> rfl
        rw [hadded, htaken, List.mem_append, hst.identities, Option.mem_toList]
        constructor
        · rintro (⟨k, hk, hid⟩ | hid)
          · exact ⟨k, List.mem_append_left _ hk, hid⟩
          · exact ⟨s, List.mem_append_right _ List.mem_cons_self, hid⟩
        · rintro ⟨k, hk, hid⟩
          rcases List.mem_append.mp hk with hk | hk
          · exact Or.inl ⟨k, hk, hid⟩
          · rw [List.mem_singleton.mp hk] at hid
            exact Or.inr hid

/-- The least index is that of the first partition. -/
theorem min_indexes (parts default : Path) :
    (match ((PARTITIONS.filter (· ∈ parts)).map fun name => parts.idxOf name).min? with
      | some index => parts.drop index
      | none => default) = if fromPartition parts = [] then default else fromPartition parts := by
  rcases Delimited.none_or_first (p := (· ∈ PARTITIONS)) parts with hnone | ⟨front, x, back, rfl, hx, hfront⟩
  · have hfilter : PARTITIONS.filter (· ∈ parts) = [] := by
      refine List.filter_eq_nil_iff.mpr fun name hname hmem => ?_
      exact of_decide_eq_false (hnone name (of_decide_eq_true hmem)) hname
    have hrest : fromPartition parts = [] := by
      refine List.dropWhile_eq_nil_iff.mpr fun name hname => ?_
      exact decide_eq_true (of_decide_eq_false (hnone name hname))
    rw [hfilter, if_pos hrest]
    rfl
  · have hpartition : x ∈ PARTITIONS := of_decide_eq_true hx
    have hnot : ∀ name ∈ PARTITIONS, name ∉ front := fun name hname hmem =>
      of_decide_eq_false (hfront name hmem) hname
    have hindex : ∀ name ∈ PARTITIONS,
        (front ++ x :: back).idxOf name = (x :: back).idxOf name + front.length := fun name hname => by
      rw [List.idxOf_append, if_neg (hnot name hname)]
    have hmin : ((PARTITIONS.filter (· ∈ front ++ x :: back)).map
        fun name => (front ++ x :: back).idxOf name).min? = some front.length := by
      refine List.min?_eq_some_iff.mpr ⟨?_, fun index hmem => ?_⟩
      · refine List.mem_map.mpr ⟨x, List.mem_filter.mpr ⟨hpartition, decide_eq_true ?_⟩, ?_⟩
        · exact List.mem_append_right _ List.mem_cons_self
        · rw [hindex x hpartition, List.idxOf_cons_self, Nat.zero_add]
      · obtain ⟨name, hname, rfl⟩ := List.mem_map.mp hmem
        rw [hindex name (List.mem_filter.mp hname).1]
        exact Nat.le_add_left _ _
    have hrest : fromPartition (front ++ x :: back) = x :: back := by
      unfold fromPartition
      rw [List.dropWhile_append_of_pos fun name hname => decide_eq_true (of_decide_eq_false (hfront name hname)),
        List.dropWhile_cons_of_neg (by simpa using hpartition)]
    rw [hmin, hrest, if_neg (List.cons_ne_nil _ _)]
    exact List.drop_left

theorem translator_target_eq (root : Root) (e : Entry) (bits : Nat) :
    translator_target root e bits =
      let relative := if fromPartition (root.parts ++ e.path) = [] then
          ["system".toList, if bits = 64 then "lib64".toList else "lib".toList, e.name]
        else fromPartition (root.parts ++ e.path)
      if dotdot ∈ relative then .error (.bridge_error .unsafe_target) else .ok relative := by
  have hrelative := min_indexes (root.parts ++ e.path)
    ["system".toList, if bits = 64 then "lib64".toList else "lib".toList, e.name]
  exact congrArg (fun relative : Path =>
    if dotdot ∈ relative then (.error (.bridge_error .unsafe_target) : Except Exc Path) else .ok relative) hrelative

/-- Each file is selected for its target. -/
def Aimed (root : Root) (selected : List Selected) : Prop :=
  ∀ s ∈ selected, ∃ bits, translator_target root s.item bits = .ok s.target

theorem Aimed.concat (h : Aimed root selected) {s : Selected} {bits : Nat}
    (hs : translator_target root s.item bits = .ok s.target) : Aimed root (selected ++ [s]) :=
  List.forall_mem_append.mpr ⟨h, List.forall_mem_singleton.mpr ⟨bits, hs⟩⟩

variable {payload : Payload} {guest : FileName → Bool}

/-- A library among the others, with its class and machine. -/
def Known (tools : Tools) (libraries : List Library) : Prop :=
  ∀ l ∈ libraries, tools.elf_info l.file.content = some (l.bits, l.architecture)

/-- Libraries for this example have one byte that says which they are. -/
def exampleTools : Tools where
  elf_info _ := some (64, .x86_64)
  readelf content := { needed := if content = [1] then ["liba.so".toList, "libc.so".toList]
    else if content = [2] then ["libb.so".toList] else [] }
  native_bridge_interface_version _ := some 3
  sha256 content := content.map fun b => Char.ofNat b.toNat

def exampleEntry (directory : String) (name : String) (content : Bytes) : Entry where
  directory := [directory.toList]
  name := name.toList
  file := some ⟨name.toList, content, 0o644⟩
  own _ f hf := by rw [← Option.some.inj hf]

def exampleRoot : Root := ⟨["tmp".toList, "source".toList], by decide⟩

/-- A translator that needs `liba.so`, which needs `libb.so`. -/
def exampleTree : List Entry :=
  [exampleEntry "lib64" "libhoudini.so" [1], exampleEntry "lib64" "liba.so" [2], exampleEntry "lib64" "libb.so" [3]]

end AnboxReboxed.Scripts.BuildPayload
