import AnboxReboxed.Scripts.Proofs.BuildPayloadProofs

/-!
# Proofs: where a payload is unpacked

The root of the tree is in front of every path, which does not change their order. It comes into the targets with the
part from the first partition on: what is staged is the same for two roots exactly if they agree in that.
-/

namespace AnboxReboxed.Scripts.BuildPayload

open AnboxReboxed.Lib

variable {root root' : Root}

/-! ## The order of the paths -/

theorem as_posix_append (front : Path) {path : Path} (hpath : path ≠ []) :
    as_posix (front ++ path) = (front.flatMap fun name => name ++ ['/']) ++ as_posix path := by
  induction front with
  | nil => rfl
  | cons name front ih =>
    have hne : front ++ path ≠ [] := List.append_ne_nil_of_right_ne_nil _ hpath
    rw [List.cons_append, as_posix, List.intercalate_cons_of_ne_nil hne, List.flatMap_cons, List.append_assoc,
      List.append_assoc, List.append_assoc, ← ih, as_posix]

/-- What is in front of both paths does not matter. -/
theorem absolute_le_iff (root : Root) (a b : Entry) :
    absolute root a ≤ absolute root b ↔ as_posix a.path ≤ as_posix b.path := by
  have hne (e : Entry) : e.path ≠ [] := List.append_ne_nil_of_right_ne_nil _ (List.cons_ne_nil _ _)
  have habsolute (e : Entry) :
      absolute root e = ('/' :: root.parts.flatMap fun name => name ++ ['/']) ++ as_posix e.path := by
    rw [absolute, as_posix_append _ (hne e), List.cons_append]
  have hmono (front : Str) : StrictMono fun rest => front ++ rest := fun _ _ hlt => List.append_left_lt hlt
  rw [habsolute, habsolute]
  exact (hmono _).le_iff_le

theorem insertionSort_congr {α : Type} {r r' : α → α → Prop} [DecidableRel r] [DecidableRel r'] (h : r = r')
    (l : List α) : l.insertionSort r = l.insertionSort r' := by
  subst h
  congr!

theorem sorted_congr (root root' : Root) : sorted root = sorted root' := by
  have hbefore : Before root = Before root' := by
    funext a b
    unfold Before
    rw [absolute_le_iff root, absolute_le_iff root']
  funext tree
  exact insertionSort_congr hbefore tree

/-! ## The targets -/

theorem fromPartition_append (root : Root) (path : Path) : fromPartition (root.parts ++ path) =
    if partition_part root = [] then fromPartition path else partition_part root ++ path := by
  unfold fromPartition partition_part
  rw [List.dropWhile_append]
  split
  · rename_i hempty
    rw [if_pos (List.isEmpty_iff.mp hempty)]
  · rename_i hempty
    rw [if_neg fun h => hempty (List.isEmpty_iff.mpr h)]

theorem translator_target_congr (h : partition_part root = partition_part root') :
    translator_target root = translator_target root' := by
  funext e bits
  rw [translator_target_eq, translator_target_eq, fromPartition_append, fromPartition_append, h]

theorem build_payload_congr (h : partition_part root = partition_part root') (tools : Tools) (tree : List Entry)
    (output : List StagedFile) : build_payload tools root tree output = build_payload tools root' tree output := by
  have htarget := translator_target_congr h
  have hlibndk : select_libndk tools root = select_libndk tools root' := by
    funext arm64_only selected item
    unfold select_libndk
    rw [htarget]
  have hselect : Library.select root = Library.select root' := by
    funext l
    unfold Library.select
    rw [htarget]
  have htranslator : select_translator tools root = select_translator tools root' := by
    funext libraries selected source
    unfold select_translator select_dependency
    rw [hselect]
  have hselection : selection tools root tree = selection tools root' tree := by
    unfold selection
    rw [sorted_congr root root', hlibndk, htranslator]
  unfold build_payload
  rw [hselection]

/-! ## A tree for which the root matters -/

/-- The only file of the tree, in a partition. -/
def vendorEntry : Entry := exampleEntry "vendor" "libhoudini.so" [3]

def vendorFile : File := ⟨"libhoudini.so".toList, [3], 0o644⟩

theorem translator_target_vendor (root : Root) :
    translator_target root vendorEntry 64 = .ok (partition_part root ++ vendorEntry.path) := by
  have hpath : fromPartition vendorEntry.path = vendorEntry.path := by decide
  have hrelative : fromPartition (root.parts ++ vendorEntry.path) = partition_part root ++ vendorEntry.path := by
    rw [fromPartition_append, hpath]
    split
    · rename_i hempty
      rw [hempty, List.nil_append]
    · rfl
  have hne : partition_part root ++ vendorEntry.path ≠ [] :=
    List.append_ne_nil_of_right_ne_nil _ (List.cons_ne_nil _ _)
  have hreal : dotdot ∉ partition_part root ++ vendorEntry.path := by
    intro hmem
    rcases List.mem_append.mp hmem with hmem | hmem
    · exact root.real ((List.dropWhile_suffix _).subset hmem)
    · exact absurd hmem (by decide)
  rw [translator_target_eq, hrelative, if_neg hne]
  exact if_neg hreal

def vendorLibrary : Library := ⟨vendorEntry, vendorFile, 64, .x86_64⟩

def vendorTranslators : Translators where
  identities := [([Char.ofNat 3], 64, .x86_64)]
  translator_name := some "libhoudini.so".toList
  translators := [vendorLibrary]

def vendorSelected (root : Root) : Selected :=
  ⟨vendorEntry, vendorFile, 64, partition_part root ++ vendorEntry.path⟩

theorem selection_vendor (root : Root) :
    selection exampleTools root [vendorEntry] = .ok (vendorTranslators, [vendorSelected root]) := by
  have hselection : selection exampleTools root [vendorEntry] =
      [vendorLibrary].foldlM (select_translator exampleTools root [vendorLibrary]) [] >>= fun selected =>
        .ok (vendorTranslators, selected) := rfl
  have hselect : vendorLibrary.select root = .ok (vendorSelected root) := by
    unfold Library.select
    rw [show vendorLibrary.entry = vendorEntry from rfl, show vendorLibrary.bits = 64 from rfl,
      translator_target_vendor]
    rfl
  have htranslator : select_translator exampleTools root [vendorLibrary] [] vendorLibrary =
      .ok [vendorSelected root] := by
    unfold select_translator
    rw [hselect]
    rfl
  rw [hselection, List.foldlM_cons, htranslator]
  rfl

theorem build_payload_vendor (root : Root) : ∃ payload, build_payload exampleTools root [vendorEntry] [] = .ok payload ∧
    payload.files.map (·.path) = [partition_part root ++ vendorEntry.path] := by
  unfold build_payload
  rw [selection_vendor]
  exact ⟨_, rfl, rfl⟩

/-! ## Two roots -/

/-- For every tree the same is returned and staged below two roots, or nothing at all, exactly if the roots have the
same components from their first partition on. -/
theorem build_payload_root_iff (root root' : Root) :
    (∀ tools tree output, (build_payload tools root tree output).toOption
      = (build_payload tools root' tree output).toOption) ↔ partition_part root = partition_part root' := by
  constructor
  · intro h
    obtain ⟨payload, hpayload, hfiles⟩ := build_payload_vendor root
    obtain ⟨payload', hpayload', hfiles'⟩ := build_payload_vendor root'
    have hsame := h exampleTools [vendorEntry] []
    rw [hpayload, hpayload'] at hsame
    obtain rfl : payload = payload' := Option.some.inj hsame
    exact List.append_cancel_right (List.singleton_inj.mp (hfiles.symm.trans hfiles'))
  · intro h tools tree output
    rw [build_payload_congr h]

/-- A temporary directory that is below a directory with the name of a partition. -/
def productRoot : Root := ⟨["srv".toList, "product".toList, "tmp".toList, "source".toList], by decide⟩

/-- The location of the temporary directory decides where the translator is staged. -/
theorem root_matters : ¬∀ root root' tools tree output,
    (build_payload tools root tree output).toOption = (build_payload tools root' tree output).toOption := by
  intro h
  obtain ⟨payload, hpayload, hfiles⟩ := build_payload_vendor exampleRoot
  obtain ⟨payload', hpayload', hfiles'⟩ := build_payload_vendor productRoot
  have hsame := h exampleRoot productRoot exampleTools [vendorEntry] []
  rw [hpayload, hpayload'] at hsame
  obtain rfl : payload = payload' := Option.some.inj hsame
  exact absurd (hfiles.symm.trans hfiles') (by decide)

end AnboxReboxed.Scripts.BuildPayload
