import AnboxReboxed.Lib.Fallible
import AnboxReboxed.Scripts.PackagePreflight
import Mathlib.Data.List.Perm.Subperm

/-!
# Correctness of the preflight of a package

The loop over the metadata is two filters, and the verdict is read off the libraries of what is selected. An APK that is
rejected takes its libraries out of the verdict.
-/

namespace AnboxReboxed.Scripts.PackagePreflight

open AnboxReboxed.Lib
open NativeBridge (Str strip)

variable {metadata : List ApkMetadata} {live : LiveAbis} {v : Preflight}

/-! ## The ABIs of the guest -/

/-- What the guest runs by itself is not said to be translated. -/
theorem not_mem_translated {guest : Guest} {abi : Str} (h : abi ∈ (live_abis guest).native) :
    abi ∉ (live_abis guest).translated := by
  have hfilter := (List.mem_filter.mp h).2
  exact of_decide_eq_true hfilter

theorem not_x86_of_mem_translated {guest : Guest} {abi : Str} (h : abi ∈ (live_abis guest).translated) :
    abi ≠ "x86".toList ∧ abi ≠ "x86_64".toList := by
  have hfilter : abi ∉ ["x86".toList, "x86_64".toList] := of_decide_eq_true (List.mem_filter.mp h).2
  rw [List.mem_cons, List.mem_singleton, not_or] at hfilter
  exact hfilter

/-! ## What is refused -/

theorem length_dedup_eq_one {α : Type} [DecidableEq α] {l : List α} :
    l.dedup.length = 1 ↔ l ≠ [] ∧ ∀ a ∈ l, ∀ b ∈ l, a = b := by
  constructor
  · intro h
    obtain ⟨a, ha⟩ := List.length_eq_one_iff.mp h
    have hall : ∀ b ∈ l, b = a := fun b hb => List.mem_singleton.mp (ha ▸ List.mem_dedup.mpr hb)
    have hne : l ≠ [] := List.ne_nil_of_mem (List.mem_dedup.mp (ha ▸ List.mem_singleton_self a))
    exact ⟨hne, fun b hb c hc => (hall b hb).trans (hall c hc).symm⟩
  · rintro ⟨hne, hall⟩
    obtain ⟨a, ha⟩ := List.exists_mem_of_ne_nil l hne
    have hsub : l.dedup ⊆ [a] := fun b hb => List.mem_singleton.mpr (hall b (List.mem_dedup.mp hb) a ha)
    have hle := (List.subperm_of_subset (List.nodup_dedup l) hsub).length_le
    have hpos := List.length_pos_of_mem (List.mem_dedup.mpr ha)
    exact le_antisymm hle hpos

theorem length_dedup_eq_length {α : Type} [DecidableEq α] {l : List α} : l.length = l.dedup.length ↔ l.Nodup := by
  constructor
  · intro h
    have heq := (List.dedup_sublist l).eq_of_length h.symm
    exact heq ▸ List.nodup_dedup l
  · intro h
    rw [h.dedup]

theorem split_names_eq (metadata : List ApkMetadata) : split_names metadata = metadata.filterMap (·.split) := by
  refine List.filterMap_congr fun item _ => ?_
  have hne := item.split_ne_nil
  cases h : item.split with
  | none => rfl
  | some split =>
    have hsplit : split ≠ [] := fun hnil => hne (by rw [h, hnil])
    exact if_pos (decide_eq_true hsplit)

theorem package_preflight_ok_iff : package_preflight metadata live = .ok v ↔
    (Bundle metadata ∧ metadata.length ≤ MAX_APKS) ∧
      ∃ base, metadata.filter ApkMetadata.is_base = [base] ∧ v = report base metadata live := by
  unfold package_preflight
  have hidentity : (metadata.map ApkMetadata.identity).dedup.length = 1 ↔
      metadata ≠ [] ∧ ∀ a ∈ metadata, ∀ b ∈ metadata, a.identity = b.identity := by
    rw [length_dedup_eq_one]
    simp only [ne_eq, List.map_eq_nil_iff, List.forall_mem_map]
  rw [split_names_eq]
  constructor
  · intro h
    obtain ⟨hlength, h⟩ := of_ite_error_eq_ok h
    obtain ⟨hone, h⟩ := of_ite_error_eq_ok h
    have hsame := (hidentity.mp (not_not.mp hone)).2
    split at h
    · rename_i base hbase
      obtain ⟨hnames, h⟩ := of_ite_error_eq_ok h
      have hnodup := length_dedup_eq_length.mp (not_not.mp hnames)
      exact ⟨⟨⟨hsame, ⟨base, hbase⟩, hnodup⟩, not_lt.mp (not_or.mp hlength).2⟩, base, hbase, (Except.ok.inj h).symm⟩
    · cases h
  · rintro ⟨⟨hbundle, hlength⟩, base, hbase, rfl⟩
    have hmem : base ∈ metadata := List.mem_of_mem_filter (hbase ▸ List.mem_singleton_self base)
    have hne := List.ne_nil_of_mem hmem
    rw [if_neg (not_or.mpr ⟨hne, not_lt.mpr hlength⟩),
      if_neg (not_not.mpr (hidentity.mpr ⟨hne, hbundle.same_identity⟩)), hbase]
    exact if_neg (not_not.mpr (length_dedup_eq_length.mpr hbundle.splits_nodup))

/-- What is one bundle is given a verdict, and all else is refused. -/
theorem exists_package_preflight_ok_iff :
    (∃ v, package_preflight metadata live = .ok v) ↔ Bundle metadata ∧ metadata.length ≤ MAX_APKS := by
  constructor
  · rintro ⟨v, hv⟩
    exact (package_preflight_ok_iff.mp hv).1
  · intro h
    obtain ⟨base, hbase⟩ := h.1.one_base
    exact ⟨_, package_preflight_ok_iff.mpr ⟨h, base, hbase, rfl⟩⟩

/-! ## What is selected -/

theorem select_of_kept {item : ApkMetadata} (h : Kept live item) (found : List ApkMetadata × List (ApkMetadata × Str)) :
    select live.effective found item = (found.1 ++ [item], found.2) := by
  unfold select
  cases htarget : split_targets_abi item.split with
  | none => rfl
  | some target => exact if_neg (not_not.mpr (h target htarget))

theorem select_of_not_kept {item : ApkMetadata} (h : ¬Kept live item)
    (found : List ApkMetadata × List (ApkMetadata × Str)) :
    ∃ reason, select live.effective found item = (found.1, found.2 ++ [(item, reason)]) := by
  unfold select
  cases htarget : split_targets_abi item.split with
  | none => exact absurd (fun target hmem => absurd (htarget ▸ hmem) (Option.not_mem_none target)) h
  | some target =>
    have hnot : target ∉ live.effective := fun hmem =>
      h fun target' hmem' => Option.mem_unique (htarget ▸ hmem' : target' ∈ some target) rfl ▸ hmem
    exact ⟨_, if_pos hnot⟩

/-- The loop selects the APKs that are kept, and rejects the others. -/
theorem foldl_select (items : List ApkMetadata) (found : List ApkMetadata × List (ApkMetadata × Str)) :
    (items.foldl (select live.effective) found).1 = found.1 ++ items.filter (Kept live ·) ∧
      (items.foldl (select live.effective) found).2.map (·.1) = found.2.map (·.1) ++ items.filter (¬Kept live ·) := by
  induction items generalizing found with
  | nil => exact ⟨(List.append_nil _).symm, (List.append_nil _).symm⟩
  | cons item items ih =>
    rw [List.foldl_cons]
    by_cases h : Kept live item
    · rw [select_of_kept h, List.filter_cons_of_pos (by simpa using h), List.filter_cons_of_neg (by simpa using h)]
      obtain ⟨hselected, hrejected⟩ := ih (found.1 ++ [item], found.2)
      exact ⟨by rw [hselected, List.append_assoc, List.singleton_append], hrejected⟩
    · obtain ⟨reason, hselect⟩ := select_of_not_kept h found
      rw [hselect, List.filter_cons_of_neg (by simpa using h), List.filter_cons_of_pos (by simpa using h)]
      obtain ⟨hselected, hrejected⟩ := ih (found.1, found.2 ++ [(item, reason)])
      exact ⟨hselected, by rw [hrejected, List.map_append, List.append_assoc, List.map_singleton,
        List.singleton_append]⟩

theorem report_selected (base : ApkMetadata) (metadata : List ApkMetadata) (live : LiveAbis) :
    (report base metadata live).selected = metadata.filter (Kept live ·) :=
  (foldl_select metadata ([], [])).1

theorem report_rejected (base : ApkMetadata) (metadata : List ApkMetadata) (live : LiveAbis) :
    (report base metadata live).rejected.map Rejection.file =
      (metadata.filter (¬Kept live ·)).map ApkMetadata.file := by
  have hrejected : (metadata.foldl (select live.effective) ([], [])).2.map (·.1) = metadata.filter (¬Kept live ·) :=
    (foldl_select metadata ([], [])).2
  rw [← hrejected, List.map_map]
  exact List.map_map ..

/-! ## The verdict -/

theorem mem_apk_abis {base : ApkMetadata} {abi : Str} : abi ∈ (report base metadata live).apk_abis ↔
    ∃ item ∈ (report base metadata live).selected, abi ∈ item.abis := by
  show abi ∈ ((report base metadata live).selected.flatMap (·.abis)).dedup.insertionSort (· ≤ ·) ↔ _
  rw [List.mem_insertionSort, List.mem_dedup, List.mem_flatMap]

theorem any_apk_abis_iff {base : ApkMetadata} {abis : List Str} :
    (report base metadata live).apk_abis.any (· ∈ abis) = true ↔ Matches (report base metadata live).selected abis := by
  simp only [List.any_eq_true, decide_eq_true_iff, mem_apk_abis]
  constructor
  · rintro ⟨abi, ⟨item, hitem, habi⟩, hmem⟩
    exact ⟨item, hitem, abi, habi, hmem⟩
  · rintro ⟨item, hitem, abi, habi, hmem⟩
    exact ⟨abi, ⟨item, hitem, habi⟩, hmem⟩

theorem isEmpty_apk_abis_iff {base : ApkMetadata} :
    (report base metadata live).apk_abis.isEmpty = true ↔
      ∀ item ∈ (report base metadata live).selected, item.abis = [] := by
  simp only [List.isEmpty_iff, List.eq_nil_iff_forall_not_mem, mem_apk_abis, not_exists, not_and]
  exact ⟨fun h item hitem abi habi => h abi item hitem habi, fun h abi item hitem habi => h item hitem abi habi⟩

theorem report_compatible_iff {base : ApkMetadata} : (report base metadata live).compatible = true ↔
    (∀ item ∈ (report base metadata live).selected, item.abis = []) ∨
      Matches (report base metadata live).selected live.effective := by
  show ((report base metadata live).apk_abis.isEmpty || (report base metadata live).apk_abis.any (· ∈ live.effective)) =
    true ↔ _
  rw [Bool.or_eq_true, isEmpty_apk_abis_iff, any_apk_abis_iff]

theorem report_requires_iff {base : ApkMetadata} : (report base metadata live).native_bridge_required = true ↔
    (¬∀ item ∈ (report base metadata live).selected, item.abis = []) ∧
      ¬Matches (report base metadata live).selected live.native ∧ (report base metadata live).compatible = true := by
  show (!(report base metadata live).apk_abis.isEmpty && !(report base metadata live).apk_abis.any (· ∈ live.native) &&
    (report base metadata live).compatible) = true ↔ _
  rw [Bool.and_eq_true, Bool.and_eq_true, Bool.not_eq_true', Bool.not_eq_true', Bool.eq_false_iff, Bool.eq_false_iff,
    ne_eq, ne_eq, isEmpty_apk_abis_iff, any_apk_abis_iff, and_assoc]

theorem matches_effective_iff {items : List ApkMetadata} :
    Matches items live.effective ↔ Matches items live.native ∨ Matches items live.translated := by
  simp only [Matches, LiveAbis.effective, List.mem_append, and_or_left, exists_or]

theorem kept_of_is_base {item : ApkMetadata} (h : item.is_base = true) : Kept live item := by
  intro target htarget
  rw [Option.isNone_iff_eq_none.mp h] at htarget
  cases htarget

/-- Only that what runs is in an APK that is kept depends on the bundle. -/
theorem verdict_report_iff {base : ApkMetadata} (hbase : metadata.filter ApkMetadata.is_base = [base]) :
    Verdict metadata live (report base metadata live) ↔ KeepsLibraries metadata live := by
  have hmem : ∀ item, item ∈ (report base metadata live).selected ↔ item ∈ metadata ∧ Kept live item := fun item => by
    rw [report_selected, List.mem_filter, decide_eq_true_iff]
  constructor
  · rintro h ⟨item, hitem, habis⟩
    by_contra hnone
    have hempty : ∀ item ∈ (report base metadata live).selected, item.abis = [] := fun item hitem => by
      by_contra hne
      exact hnone ⟨item, ((hmem item).mp hitem).1, ((hmem item).mp hitem).2, hne⟩
    obtain ⟨found, hfound, abi, habi, -⟩ := h.runs (report_compatible_iff.mpr (.inl hempty)) ⟨item, hitem, habis⟩
    rw [hempty found hfound] at habi
    exact List.not_mem_nil habi
  · intro h
    refine ⟨report_selected .., report_rejected .., ?_, fun hcompatible hlibraries => ?_, ?_⟩
    · have hfilter := List.mem_filter.mp (hbase ▸ List.mem_singleton_self base)
      exact ⟨base, (hmem base).mpr ⟨hfilter.1, kept_of_is_base hfilter.2⟩, Option.isNone_iff_eq_none.mp hfilter.2⟩
    · obtain ⟨item, hitem, hkept, habis⟩ := h hlibraries
      refine (report_compatible_iff.mp hcompatible).resolve_left fun hempty => ?_
      exact habis (hempty item ((hmem item).mpr ⟨hitem, hkept⟩))
    · rw [report_requires_iff]
      constructor
      · rintro ⟨hsome, hnative, hcompatible⟩
        have heffective := (report_compatible_iff.mp hcompatible).resolve_left hsome
        exact ⟨hcompatible, (matches_effective_iff.mp heffective).resolve_left hnative, hnative⟩
      · rintro ⟨hcompatible, ⟨item, hitem, abi, habi, -⟩, hnative⟩
        exact ⟨fun hempty => List.not_mem_nil (hempty item hitem ▸ habi), hnative, hcompatible⟩

/-- A bundle is judged as it should be exactly when its native libraries are not all in splits that are rejected. -/
theorem package_preflight_judged_iff (metadata : List ApkMetadata) (live : LiveAbis) :
    Judged metadata live (package_preflight metadata live) ↔
      (Bundle metadata ∧ metadata.length ≤ MAX_APKS → KeepsLibraries metadata live) := by
  constructor
  · intro h hbundle
    obtain ⟨base, hbase⟩ := hbundle.1.one_base
    exact (verdict_report_iff hbase).mp (h.verdict _ (package_preflight_ok_iff.mpr ⟨hbundle, base, hbase, rfl⟩))
  · intro h
    refine ⟨exists_package_preflight_ok_iff, fun v hv => ?_⟩
    obtain ⟨hbundle, base, hbase, rfl⟩ := package_preflight_ok_iff.mp hv
    exact (verdict_report_iff hbase).mpr (h hbundle)

/-- A base without libraries, and a split with those for 64-bit ARM. -/
def armSplit : List ApkMetadata :=
  [{ file := "base.apk".toList, package := "app".toList, version_code := "1".toList },
    { file := "arm.apk".toList, package := "app".toList, version_code := "1".toList,
      split := some "config.arm64_v8a".toList, abis := ["arm64-v8a".toList] }]

/-- The guest has no translator, and the bundle is compatible with it: it is installed without its libraries. -/
theorem package_preflight_not_judged : ¬∀ metadata live, metadata ≠ [] →
    Judged metadata live (package_preflight metadata live) := by
  intro h
  have hjudged := h armSplit ⟨["x86_64".toList, "x86".toList], []⟩ (by decide)
  have hbundle : Bundle armSplit := ⟨by decide, ⟨_, rfl⟩, by decide⟩
  obtain ⟨v, hv⟩ := hjudged.returns.mpr ⟨hbundle, by decide⟩
  obtain ⟨-, base, hbase, rfl⟩ := package_preflight_ok_iff.mp hv
  have hkeeps := (verdict_report_iff hbase).mp (hjudged.verdict _ hv)
  exact absurd (hkeeps ⟨_, List.mem_cons_of_mem _ (List.mem_singleton_self _), by decide⟩) (by decide)

end AnboxReboxed.Scripts.PackagePreflight
