import AnboxReboxed.Android.PackageParts
import AnboxReboxed.Android.Proofs.BridgeServiceProofs

/-!
# Proofs: packages that arrive in parts

The files of an installation are those of its parts, one for each index, as long as the parts agree with each other. So
there are as many files as a part says when all of the indices are there, and not before.
-/

namespace AnboxReboxed.Android.PackageParts

open AnboxReboxed.Lib AnboxReboxed.Android.BridgeService Function
open AnboxReboxed.Scripts.ReboxedBridge (Str str)

variable {platform : Platform} {s s' : Service} {w w' : World} {label : Label} {message : Message} {id : Str} {p : Part}

/-! ## Names -/

theorem ordered_refl (s : Str) : ordered s s = true := by
  induction s with
  | nil => rfl
  | cons c s ih => simp [ordered, ih]

theorem ordered_partName_of_lt {i j : Nat} (hj : j < 1000) (hij : i < j) (x y : Str) :
    ordered (partName i x) (partName j y) = true ∧ ordered (partName j y) (partName i x) = false := by
  simp only [partName, List.cons_append, List.nil_append, ordered, Bool.or_eq_true, decide_eq_true_eq, Bool.and_eq_true,
    beq_iff_eq, Bool.or_eq_false_iff, decide_eq_false_iff_not, Bool.and_eq_false_imp]
  omega

/-- The index that a file is named after. -/
def indexOf (file : Str × ByteString) : Nat :=
  (file.1.getD 0 0 - 48) * 100 + (file.1.getD 1 0 - 48) * 10 + (file.1.getD 2 0 - 48)

theorem indexOf_file (h : p.index < 1000) : indexOf p.file = p.index := by
  show (48 + p.index / 100 - 48) * 100 + (48 + p.index / 10 % 10 - 48) * 10 + (48 + p.index % 10 - 48) = p.index
  omega

/-! ## The files of an installation -/

/-- There is one file for each index of the parts. -/
structure Tidy (parts : List Part) (files : Directory) : Prop where
  names : (files.map Prod.fst).Nodup
  origin : ∀ f ∈ files, ∃ p ∈ parts, f = p.file
  there : ∀ p ∈ parts, partName p.index p.name ∈ files.map Prod.fst
  agree : ∀ p ∈ parts, ∀ q ∈ parts, p.count = q.count ∧ (p.index = q.index → p.name = q.name)
  bound : ∀ p ∈ parts, p.index < p.count ∧ p.count ≤ 128

namespace Tidy

variable {parts : List Part} {files : Directory}

theorem indexOf_lt (h : Tidy parts files) (hp : p ∈ parts) {f : Str × ByteString} (hf : f ∈ files) :
    ∃ q ∈ parts, f = q.file ∧ indexOf f = q.index ∧ q.index < p.count := by
  obtain ⟨q, hq, rfl⟩ := h.origin f hf
  obtain ⟨hlt, hle⟩ := h.bound q hq
  refine ⟨q, hq, rfl, indexOf_file (by omega), ?_⟩
  rw [(h.agree p hp q hq).1]
  exact hlt

theorem nodup (h : Tidy parts files) (hp : p ∈ parts) : (files.map indexOf).Nodup := by
  have hnames : files.Pairwise fun f g => f.1 ≠ g.1 := List.pairwise_map.mp h.names
  refine List.pairwise_map.mpr (hnames.imp_of_mem fun {f g} hf hg hne heq => hne ?_)
  obtain ⟨q, hq, rfl, hfq, -⟩ := h.indexOf_lt hp hf
  obtain ⟨r, hr, rfl, hgr, -⟩ := h.indexOf_lt hp hg
  have hindex : q.index = r.index := hfq.symm.trans (heq.trans hgr)
  show partName q.index q.name = partName r.index r.name
  rw [hindex, (h.agree q hq r hr).2 hindex]

theorem mem_indexOf (h : Tidy parts files) (hp : p ∈ parts) : p.index ∈ files.map indexOf := by
  obtain ⟨f, hf, hname⟩ := List.mem_map.mp (h.there p hp)
  obtain ⟨q, hq, rfl⟩ := h.origin f hf
  have hindex : indexOf q.file = indexOf p.file := by
    show indexOf (q.file.1, q.content) = indexOf (p.file.1, p.content)
    rw [hname]
    rfl
  have hbound := h.bound p hp
  have hlt : p.index < 1000 := by omega
  rw [← indexOf_file hlt, ← hindex]
  exact List.mem_map_of_mem hf

/-- There are as many files as a part says, if and only if all of the indices are there. -/
theorem perm_range_iff (h : Tidy parts files) (hp : p ∈ parts) :
    (files.map indexOf).Perm (List.range p.count) ↔ ∀ i < p.count, ∃ q ∈ parts, q.index = i := by
  constructor
  · intro hperm i hi
    obtain ⟨f, hf, rfl⟩ := List.mem_map.mp (hperm.mem_iff.mpr (List.mem_range.mpr hi))
    obtain ⟨q, hq, -, hindex, -⟩ := h.indexOf_lt hp hf
    exact ⟨q, hq, hindex.symm⟩
  · intro hfull
    refine (List.perm_ext_iff_of_nodup (h.nodup hp) List.nodup_range).mpr fun i => ⟨fun hi => ?_, fun hi => ?_⟩
    · obtain ⟨f, hf, rfl⟩ := List.mem_map.mp hi
      obtain ⟨q, -, -, hindex, hlt⟩ := h.indexOf_lt hp hf
      exact List.mem_range.mpr (hindex ▸ hlt)
    · obtain ⟨q, hq, rfl⟩ := hfull i (List.mem_range.mp hi)
      exact h.mem_indexOf hq

theorem length_eq_iff (h : Tidy parts files) (hp : p ∈ parts) :
    files.length = p.count ↔ ∀ i < p.count, ∃ q ∈ parts, q.index = i := by
  rw [← h.perm_range_iff hp]
  constructor
  · intro hlength
    have hsubset : files.map indexOf ⊆ List.range p.count := by
      intro i hi
      obtain ⟨f, hf, rfl⟩ := List.mem_map.mp hi
      obtain ⟨q, -, -, hindex, hlt⟩ := h.indexOf_lt hp hf
      exact List.mem_range.mpr (hindex ▸ hlt)
    exact (List.subperm_of_subset (h.nodup hp) hsubset).perm_of_length_le (by simp [hlength])
  · intro hperm
    have := hperm.length_eq
    rwa [List.length_map, List.length_range] at this

/-- The order of the names is the order of the indices. -/
theorem sorted_indices (h : Tidy parts files) (hp : p ∈ parts)
    (hperm : (files.map indexOf).Perm (List.range p.count)) :
    files.sorted.map indexOf = List.range p.count := by
  have hmap : files.sorted.map indexOf = (files.map indexOf).insertionSort (· ≤ ·) := by
    refine List.map_insertionSort _ _ indexOf files fun f hf g hg => ?_
    obtain ⟨q, hq, rfl, hfq, -⟩ := h.indexOf_lt hp hf
    obtain ⟨r, hr, rfl, hgr, -⟩ := h.indexOf_lt hp hg
    have hqb := h.bound q hq
    have hrb := h.bound r hr
    rw [hfq, hgr]
    rcases Nat.lt_trichotomy q.index r.index with hlt | heq | hgt
    · exact iff_of_true (ordered_partName_of_lt (by omega) hlt _ _).1 hlt.le
    · have hname := (h.agree q hq r hr).2 heq
      refine iff_of_true ?_ heq.le
      show ordered (partName q.index q.name) (partName r.index r.name) = true
      rw [heq, hname]
      exact ordered_refl _
    · refine iff_of_false ?_ (Nat.not_le.mpr hgt)
      rw [Bool.not_eq_true]
      exact (ordered_partName_of_lt (by omega) hgt _ _).2
  rw [hmap]
  exact ((List.perm_insertionSort _ _).trans hperm).eq_of_pairwise' (List.pairwise_insertionSort _ _)
    List.pairwise_le_range

/-- A part that comes in takes the place of one with the same name. -/
theorem put (h : Tidy parts files) (hbound : p.index < p.count ∧ p.count ≤ 128)
    (hagree : ∀ q ∈ parts, q.count = p.count ∧ (q.index = p.index → q.name = p.name)) :
    Tidy (parts ++ [p]) (files.put (partName p.index p.name) p.content) := by
  have hmem : ∀ {P : Part → Prop}, (∀ q ∈ parts, P q) → P p → ∀ q ∈ parts ++ [p], P q := by
    intro P hparts hp q hq
    rcases List.mem_append.mp hq with hq | hq
    · exact hparts q hq
    · exact List.mem_singleton.mp hq ▸ hp
  have hnames : (files.put (partName p.index p.name) p.content).map Prod.fst =
      (files.map Prod.fst).filter (fun name => name ≠ partName p.index p.name) ++ [partName p.index p.name] := by
    rw [Directory.put, List.map_append, List.map_singleton, List.filter_map]
    rfl
  constructor
  · rw [hnames, List.nodup_append]
    refine ⟨h.names.filter _, List.nodup_singleton _, fun a ha b hb hab => ?_⟩
    have hne := (List.mem_filter.mp ha).2
    rw [hab, List.mem_singleton.mp hb] at hne
    simp at hne
  · intro f hf
    rcases List.mem_append.mp hf with hf | hf
    · obtain ⟨q, hq, rfl⟩ := h.origin f (List.mem_filter.mp hf).1
      exact ⟨q, List.mem_append_left _ hq, rfl⟩
    · exact ⟨p, List.mem_append_right _ (List.mem_singleton_self p), List.mem_singleton.mp hf⟩
  · rw [hnames]
    refine hmem (fun q hq => ?_) (List.mem_append_right _ (List.mem_singleton_self _))
    by_cases hname : partName q.index q.name = partName p.index p.name
    · rw [hname]
      exact List.mem_append_right _ (List.mem_singleton_self _)
    · exact List.mem_append_left _ (List.mem_filter.mpr ⟨h.there q hq, by simpa using hname⟩)
  · refine hmem (fun q hq => hmem (h.agree q hq) (hagree q hq)) (hmem (fun q hq => ?_) ⟨rfl, fun _ => rfl⟩)
    obtain ⟨hcount, hname⟩ := hagree q hq
    exact ⟨hcount.symm, fun heq => (hname heq.symm).symm⟩
  · exact hmem h.bound hbound

end Tidy

/-! ## What a frame does to the files -/

/-- The file of a transfer is what its digest has been fed with. -/
def Filed (s : Service) : Prop :=
  ∀ id t, s.transfers id = some t → t.id = id ∧ s.incoming id = some t.digest ∧ t.index < t.count ∧ t.count ≤ 128

theorem Filed.of_transfer (h : Filed s) {transfer_id : Option Str} {t : Transfer}
    (ht : transfer_id.bind s.transfers = some t) :
    s.transfers t.id = some t ∧ s.incoming t.id = some t.digest ∧ t.index < t.count ∧ t.count ≤ 128 := by
  obtain ⟨id, -, hid⟩ := Option.bind_eq_some_iff.mp ht
  obtain ⟨rfl, hrest⟩ := h id t hid
  exact ⟨hid, hrest⟩

/-- A file that goes or comes without a transfer is of no importance. -/
theorem Filed.of_incoming (h : Filed s) (hnone : s.transfers id = none) (htransfers : s'.transfers = s.transfers)
    (hincoming : ∀ id', id' ≠ id → s'.incoming id' = s.incoming id') : Filed s' := by
  intro id' t ht
  rw [htransfers] at ht
  have hne : id' ≠ id := by
    rintro rfl
    cases hnone.symm.trans ht
  rw [hincoming id' hne]
  exact h id' t ht

theorem Filed.remove (h : Filed s) : Filed (s.remove id) ∧ (s.remove id).transfers id = none := by
  refine ⟨fun id' t ht => ?_, update_self ..⟩
  have ht : update s.transfers id none id' = some t := ht
  rcases eq_or_ne id' id with rfl | hne
  · rw [update_self] at ht
    cases ht
  · rw [update_of_ne hne] at ht
    exact h id' t ht

theorem Filed.discard (h : Filed s) (hnone : s.transfers id = none) : Filed (s.discard id) :=
  h.of_incoming hnone rfl fun _ hne => update_of_ne hne ..

theorem finishReceivedFile_eq {t : Transfer} {published : Bool} :
    (s.finishReceivedFile t published).transfers = s.transfers ∧
    (s.finishReceivedFile t published).incoming = (s.discard t.id).incoming ∧
    (s.finishReceivedFile t published).installations = s.installations ∧
    (s.finishReceivedFile t published).installed = s.installed := by
  unfold Service.finishReceivedFile
  cases s.incoming t.id with
  | none => exact ⟨rfl, rfl, rfl, rfl⟩
  | some content =>
    cases published with
    | true => exact ⟨rfl, rfl, rfl, rfl⟩
    | false => exact ⟨rfl, rfl, rfl, rfl⟩

theorem finishPackagePart_incoming {t : Transfer} :
    (s.finishPackagePart t).1.transfers = s.transfers ∧
    ∀ id, id ≠ t.id → (s.finishPackagePart t).1.incoming id = s.incoming id := by
  unfold Service.finishPackagePart
  split
  · split_ifs
    · exact ⟨rfl, fun _ _ => rfl⟩
    · exact ⟨rfl, fun _ hne => update_of_ne hne ..⟩
  · exact ⟨rfl, fun _ _ => rfl⟩

theorem Filed.finishTransfer {t : Transfer} {published : Bool} (h : Filed s) (hnone : s.transfers t.id = none) :
    Filed (s.finishTransfer platform t published).1 := by
  unfold Service.finishTransfer
  split_ifs
  · exact h.discard hnone
  · cases t.operation with
    | package_part => exact h.of_incoming hnone finishPackagePart_incoming.1 finishPackagePart_incoming.2
    | file_receive =>
      refine h.of_incoming hnone finishReceivedFile_eq.1 fun id hne => ?_
      rw [finishReceivedFile_eq.2.1]
      exact update_of_ne hne ..

theorem Filed.handle (h : Filed s) : Filed (s.handle platform message).1 := by
  cases message with
  | begin operation transfer_id size sha256 name install_id index count =>
    show Filed (s.beginTransfer operation transfer_id size sha256 name install_id index count).1
    unfold Service.beginTransfer
    cases hchecked : s.begin_checked transfer_id size sha256 name with
    | none => exact h
    | some checked =>
      obtain ⟨id, size', hash, name'⟩ := checked
      have hnone := (Service.begin_checked_eq hchecked).1
      have hcreate : Filed (s.create id) := h.of_incoming hnone rfl fun _ hne => update_of_ne hne ..
      by_cases hlate : Service.begin_late install_id index count = true
      · simp only [if_pos hlate]
        intro id' t ht
        have ht : update s.transfers id _ id' = some t := ht
        rcases eq_or_ne id' id with rfl | hne
        · rw [update_self] at ht
          cases ht
          have hbounds : 1 ≤ count ∧ count ≤ 128 ∧ 0 ≤ index ∧ index < count := by
            rw [Service.begin_late, Bool.and_eq_true, decide_eq_true_eq] at hlate
            exact hlate.2
          refine ⟨rfl, update_self .., ?_, ?_⟩
          · show index.toNat < count.toNat
            omega
          · show count.toNat ≤ 128
            omega
        · rw [update_of_ne hne] at ht
          exact hcreate id' t ht
      · simp only [if_neg hlate]
        exact hcreate
  | chunk transfer_id data =>
    show Filed (s.transferChunk platform transfer_id data).1
    unfold Service.transferChunk
    split
    · next t data ht hdata =>
      obtain ⟨hmem, hfile, hbounds⟩ := h.of_transfer ht
      split_ifs
      · exact h
      · intro id' t' ht'
        have ht' : update s.transfers t.id _ id' = some t' := ht'
        rcases eq_or_ne id' t.id with rfl | hne
        · rw [update_self] at ht'
          cases ht'
          refine ⟨rfl, ?_, hbounds⟩
          show update s.incoming t.id _ t.id = _
          rw [update_self, hfile]
          rfl
        · rw [update_of_ne hne] at ht'
          obtain ⟨hid, hincoming, hbounds'⟩ := h id' t' ht'
          exact ⟨hid, (update_of_ne hne ..).trans hincoming, hbounds'⟩
    · exact h
  | «end» transfer_id published =>
    show Filed (s.endTransfer platform transfer_id published).1
    cases ht : transfer_id.bind s.transfers with
    | none =>
      rw [Service.endTransfer_eq_none ht]
      exact h
    | some t =>
      have hremoved : Filed (s.remove t.id) := h.remove.1
      have hclosed : Filed { s.remove t.id with outputs := update s.outputs t.id false } := hremoved
      rw [Service.endTransfer_eq_some ht]
      exact hclosed.finishTransfer h.remove.2
  | cancel transfer_id =>
    show Filed (s.cancelTransfer transfer_id)
    unfold Service.cancelTransfer
    cases ht : s.transfers transfer_id with
    | none => exact h
    | some t =>
      obtain ⟨rfl, -⟩ := h transfer_id t ht
      exact h.remove.1.discard h.remove.2
  | other throws => exact h

theorem completed_eq_some {transfer_id : Option Str} {published : Bool}
    (h : completed platform s (.«end» transfer_id published) = some p) :
    ∃ t, transfer_id.bind s.transfers = some t ∧ Service.verified platform t = true ∧ t.operation = .package_part ∧
      t.installId = some p.installId ∧ t.index = p.index ∧ t.count = p.count ∧ t.name = p.name ∧
      t.digest = p.content := by
  obtain ⟨t, ht, h⟩ := Option.bind_eq_some_iff.mp h
  split_ifs at h with hpart
  obtain ⟨installId, hid, rfl⟩ := Option.map_eq_some_iff.mp h
  exact ⟨t, ht, hpart.1, hpart.2, hid, rfl, rfl, rfl, rfl⟩

/-- Without a part that is completed, the directories are left alone. -/
theorem installations_of_none (h : completed platform s message = none) :
    (s.handle platform message).1.installations = s.installations ∧
    (s.handle platform message).1.installed = s.installed := by
  cases message with
  | begin operation transfer_id size sha256 name install_id index count =>
    show (s.beginTransfer operation transfer_id size sha256 name install_id index count).1.installations = _ ∧
      (s.beginTransfer operation transfer_id size sha256 name install_id index count).1.installed = _
    unfold Service.beginTransfer
    cases s.begin_checked transfer_id size sha256 name with
    | none => exact ⟨rfl, rfl⟩
    | some checked =>
      by_cases hlate : Service.begin_late install_id index count = true
      · simp only [if_pos hlate]
        exact ⟨rfl, rfl⟩
      · simp only [if_neg hlate]
        exact ⟨rfl, rfl⟩
  | chunk transfer_id data =>
    show (s.transferChunk platform transfer_id data).1.installations = _ ∧
      (s.transferChunk platform transfer_id data).1.installed = _
    unfold Service.transferChunk
    split
    · split_ifs <;> exact ⟨rfl, rfl⟩
    · exact ⟨rfl, rfl⟩
  | «end» transfer_id published =>
    show (s.endTransfer platform transfer_id published).1.installations = _ ∧
      (s.endTransfer platform transfer_id published).1.installed = _
    cases ht : transfer_id.bind s.transfers with
    | none =>
      rw [Service.endTransfer_eq_none ht]
      exact ⟨rfl, rfl⟩
    | some t =>
      rw [Service.endTransfer_eq_some ht, Service.finishTransfer]
      by_cases hverified : Service.verified platform t = false
      · rw [if_pos hverified]
        exact ⟨rfl, rfl⟩
      · rw [if_neg hverified]
        cases hop : t.operation with
        | file_receive => exact finishReceivedFile_eq.2.2
        | package_part =>
          have hnone : t.installId = none := by
            rw [completed, ht, Option.bind_some, if_pos ⟨Bool.eq_true_of_not_eq_false hverified, hop⟩] at h
            exact Option.map_eq_none_iff.mp h
          simp only [Service.finishPackagePart, hnone]
          exact ⟨rfl, rfl⟩
  | cancel transfer_id =>
    show (s.cancelTransfer transfer_id).installations = _ ∧ (s.cancelTransfer transfer_id).installed = _
    unfold Service.cancelTransfer
    cases s.transfers transfer_id with
    | none => exact ⟨rfl, rfl⟩
    | some t => exact ⟨rfl, rfl⟩
  | other throws => exact ⟨rfl, rfl⟩

/-- The files of the installation once a part has been moved there. -/
def withPart (s : Service) (p : Part) : Directory :=
  (s.installations p.installId).put (partName p.index p.name) p.content

theorem installations_of_some (hfiled : Filed s) (h : completed platform s message = some p)
    (hname : (partName p.index p.name).length ≤ NAME_MAX) :
    (p.index < p.count ∧ p.count ≤ 128) ∧
    (s.handle platform message).1.installations = update s.installations p.installId (withPart s p) ∧
    (s.handle platform message).1.installed =
      if (withPart s p).length = p.count then s.installed ++ [(p.installId, (withPart s p).sorted)]
      else s.installed := by
  cases message with
  | «end» transfer_id published =>
    obtain ⟨t, ht, hverified, hop, hid, hindex, hcount, htname, hcontent⟩ := completed_eq_some h
    obtain ⟨-, hfile, hbound⟩ := hfiled.of_transfer ht
    rw [hindex, hcount] at hbound
    have hincoming : (s.remove t.id).incoming t.id = some p.content := hcontent ▸ hfile
    have hverified' : ¬Service.verified platform t = false := by rw [hverified]; decide
    have heq : s.handle platform (.«end» transfer_id published) = s.endTransfer platform transfer_id published := rfl
    rw [heq, Service.endTransfer_eq_some ht, Service.finishTransfer, if_neg hverified', hop]
    simp only [Service.finishPackagePart, hid, hincoming, hindex, hcount, htname, if_neg (Nat.not_lt.mpr hname)]
    exact ⟨hbound, rfl, rfl⟩
  | _ => cases h

/-! ## Runs -/

namespace World

theorem filed_step (h : Filed w.service) (hstep : w.step platform label = some w') : Filed w'.service := by
  obtain ⟨service, hservice, rfl⟩ := Option.map_eq_some_iff.mp hstep
  cases label with
  | connect =>
    obtain ⟨-, rfl⟩ := of_guard_eq_some hservice
    exact h
  | frame message =>
    obtain ⟨-, rfl⟩ := Service.frame_eq_some hservice
    have hhandle : Filed (w.service.handle platform message).1 := h.handle
    exact hhandle
  | disconnect =>
    obtain ⟨-, rfl⟩ := of_guard_eq_some hservice
    exact h
  | onDestroy =>
    cases Option.some.inj hservice
    exact fun id t ht => by cases ht

/-- A step that completes no part leaves the installations alone. -/
theorem step_of_none (hstep : w.step platform label = some w') (hpart : w.part? platform label = none) :
    w'.arrived = w.arrived ∧ w'.service.installations = w.service.installations ∧
      w'.service.installed = w.service.installed := by
  obtain ⟨service, hservice, rfl⟩ := Option.map_eq_some_iff.mp hstep
  refine ⟨by rw [hpart]; exact List.append_nil _, ?_⟩
  cases label with
  | frame message =>
    obtain ⟨hconnected, rfl⟩ := Service.frame_eq_some hservice
    rw [part?, if_pos hconnected] at hpart
    exact installations_of_none hpart
  | connect =>
    obtain ⟨-, rfl⟩ := of_guard_eq_some hservice
    exact ⟨rfl, rfl⟩
  | disconnect =>
    obtain ⟨-, rfl⟩ := of_guard_eq_some hservice
    exact ⟨rfl, rfl⟩
  | onDestroy =>
    cases Option.some.inj hservice
    exact ⟨rfl, rfl⟩

theorem step_of_some (hfiled : Filed w.service) (hstep : w.step platform label = some w')
    (hpart : w.part? platform label = some p) (hname : (partName p.index p.name).length ≤ NAME_MAX) :
    (p.index < p.count ∧ p.count ≤ 128) ∧ w'.arrived = w.arrived ++ [p] ∧
    w'.service.installations = update w.service.installations p.installId (withPart w.service p) ∧
    w'.service.installed =
      if (withPart w.service p).length = p.count then
        w.service.installed ++ [(p.installId, (withPart w.service p).sorted)]
      else w.service.installed := by
  obtain ⟨service, hservice, rfl⟩ := Option.map_eq_some_iff.mp hstep
  cases label with
  | frame message =>
    obtain ⟨hconnected, rfl⟩ := Service.frame_eq_some hservice
    have hcompleted := hpart
    rw [part?, if_pos hconnected] at hcompleted
    obtain ⟨hbound, hinstallations, hinstalled⟩ := installations_of_some hfiled hcompleted hname
    refine ⟨hbound, ?_, hinstallations, hinstalled⟩
    rw [hpart]
    rfl
  | _ => cases hpart

/-- The files of an installation are in order, and it has been called for when all of them were there. -/
structure Gathered (w : World) (id : Str) : Prop where
  tidy : Tidy (w.parts id) (w.service.installations id)
  waiting : (∀ p ∈ w.parts id, ¬w.Full id p.count) → w.calls id = []
  called : ∀ p ∈ w.parts id, w.Full id p.count → ∃ files, w.calls id = [(id, files)] ∧ w.Complete id files

theorem Gathered.congr (h : w.Gathered id) (hparts : w'.parts id = w.parts id)
    (hfiles : w'.service.installations id = w.service.installations id) (hcalls : w'.calls id = w.calls id) :
    w'.Gathered id := by
  have hfull : ∀ n, w'.Full id n ↔ w.Full id n := by
    intro n
    rw [Full, Full, hparts]
  refine ⟨by rw [hparts, hfiles]; exact h.tidy, fun hwait => ?_, fun p hp hp' => ?_⟩
  · rw [hcalls]
    refine h.waiting fun p hp => ?_
    rw [← hfull]
    exact hwait p (hparts ▸ hp)
  · obtain ⟨files, hcall, hcomplete⟩ := h.called p (hparts ▸ hp) ((hfull _).mp hp')
    refine ⟨files, hcalls.trans hcall, ?_⟩
    rw [Complete, hparts]
    exact hcomplete

/-- The sorted files are complete when there are enough of them. -/
theorem complete_of_length {files : Directory} (htidy : Tidy (w.parts id) files) (hp : p ∈ w.parts id)
    (hlength : files.length = p.count) : w.Complete id files.sorted := by
  have hsorted := htidy.sorted_indices hp ((htidy.perm_range_iff hp).mpr ((htidy.length_eq_iff hp).mp hlength))
  refine ⟨⟨p, hp, ?_⟩, fun i file hfile => ?_⟩
  · rw [Directory.sorted, List.length_insertionSort, hlength]
  · have hmem : file ∈ files := (List.mem_insertionSort _).mp (List.mem_of_getElem? hfile)
    obtain ⟨q, hq, rfl, hindex, -⟩ := htidy.indexOf_lt hp hmem
    have hi : (files.sorted.map indexOf)[i]? = some (indexOf q.file) := by
      rw [List.getElem?_map, hfile]
      rfl
    rw [hsorted] at hi
    refine ⟨q, hq, ?_, rfl⟩
    obtain ⟨hlt, heq⟩ := List.getElem?_eq_some_iff.mp hi
    rw [List.getElem_range] at heq
    rw [← hindex, ← heq]

theorem Gathered.part (h : w.Gathered p.installId) (hbound : p.index < p.count ∧ p.count ≤ 128)
    (hO : ¬w.Full p.installId p.count ∧
      ∀ q ∈ w.parts p.installId, q.count = p.count ∧ (q.index = p.index → q.name = p.name))
    (hparts : w'.parts p.installId = w.parts p.installId ++ [p])
    (hfiles : w'.service.installations p.installId = withPart w.service p)
    (hcalls : w'.calls p.installId =
      if (withPart w.service p).length = p.count then
        w.calls p.installId ++ [(p.installId, (withPart w.service p).sorted)]
      else w.calls p.installId) : w'.Gathered p.installId := by
  have htidy : Tidy (w'.parts p.installId) (withPart w.service p) := by
    rw [hparts]
    exact h.tidy.put hbound hO.2
  have hp : p ∈ w'.parts p.installId := by
    rw [hparts]
    exact List.mem_append_right _ (List.mem_singleton_self p)
  have hnone : w.calls p.installId = [] := h.waiting fun q hq => (hO.2 q hq).1 ▸ hO.1
  rw [hnone, List.nil_append] at hcalls
  have hcount : ∀ q ∈ w'.parts p.installId, q.count = p.count := fun q hq => (htidy.agree q hq p hp).1
  refine ⟨hfiles ▸ htidy, fun hwait => ?_, fun q hq hfull => ?_⟩
  · rw [hcalls, if_neg fun hlength => hwait p hp ((htidy.length_eq_iff hp).mp hlength)]
  · rw [hcount q hq] at hfull
    have hlength := (htidy.length_eq_iff hp).mpr hfull
    rw [if_pos hlength] at hcalls
    exact ⟨_, hcalls, complete_of_length htidy hp hlength⟩

theorem gathered_step (hfiled : Filed w.service) (h : ∀ id, w.Gathered id) (hO : w.Orderly platform label)
    (hstep : w.step platform label = some w') (id : Str) : w'.Gathered id := by
  cases hpart : w.part? platform label with
  | none =>
    obtain ⟨harrived, hinstallations, hinstalled⟩ := step_of_none hstep hpart
    exact (h id).congr (by rw [parts, harrived, parts]) (by rw [hinstallations]) (by rw [calls, hinstalled, calls])
  | some p =>
    obtain ⟨hname, hO⟩ := hO p hpart
    obtain ⟨hbound, harrived, hinstallations, hinstalled⟩ := step_of_some hfiled hstep hpart hname
    rcases eq_or_ne id p.installId with rfl | hne
    · refine (h p.installId).part hbound hO ?_ ?_ ?_
      · simp [parts, harrived]
      · rw [hinstallations, update_self]
      · rw [calls, hinstalled]
        split_ifs
        · simp [calls]
        · rfl
    · have hne' : p.installId ≠ id := Ne.symm hne
      refine (h id).congr ?_ ?_ ?_
      · simp [parts, harrived, hne']
      · rw [hinstallations, update_of_ne hne]
      · rw [calls, hinstalled]
        split_ifs
        · simp [calls, hne']
        · rfl

theorem assembled_of_gathered (h : ∀ id, w.Gathered id) : w.Assembled := by
  intro id
  have hcases : w.calls id = [] ∨ ∃ files, w.calls id = [(id, files)] ∧ w.Complete id files := by
    by_cases hfull : ∃ p ∈ w.parts id, w.Full id p.count
    · obtain ⟨p, hp, hfull⟩ := hfull
      exact Or.inr ((h id).called p hp hfull)
    · exact Or.inl ((h id).waiting fun p hp hp' => hfull ⟨p, hp, hp'⟩)
  refine ⟨?_, ?_, fun n ⟨hpos, hcount, hperm⟩ => ?_⟩
  · rcases hcases with hnone | ⟨files, hone, -⟩
    · rw [hnone]
      exact Nat.zero_le 1
    · rw [hone]
      exact Nat.le_refl 1
  · intro call hcall
    rcases hcases with hnone | ⟨files, hone, hcomplete⟩
    · rw [hnone] at hcall
      cases hcall
    · rw [hone, List.mem_singleton] at hcall
      rw [hcall]
      exact hcomplete
  · have hfull : w.Full id n := by
      intro i hi
      obtain ⟨p, hp, rfl⟩ := List.mem_map.mp (hperm.mem_iff.mpr (List.mem_range.mpr hi))
      exact ⟨p, hp, rfl⟩
    obtain ⟨p, hp, -⟩ := hfull 0 hpos
    obtain ⟨files, hone, -⟩ := (h id).called p hp (hcount p hp ▸ hfull)
    rw [hone]
    rfl

end World

/-- In every run whose parts are all orderly, an installation is called for with all of its files, once at most, and
once if the parts of a package have all arrived. -/
theorem assembled_of_orderly (platform : Platform) (labels : List Label)
    (hO : (partsMachine platform).AllSteps (World.Orderly platform) (partsMachine platform).init labels) :
    (partsMachine platform).AllStates World.Assembled (partsMachine platform).init labels := by
  refine Machine.allStates_of_allSteps (P := fun w => Filed w.service ∧ ∀ id, w.Gathered id)
    (fun w label w' hw hO hstep => ⟨World.filed_step hw.1 hstep, World.gathered_step hw.1 hw.2 hO hstep⟩)
    (fun w hw => World.assembled_of_gathered hw.2) ?_ hO
  refine ⟨(fun id t ht => by cases ht), fun id => ⟨?_, fun _ => rfl, fun p hp => absurd hp List.not_mem_nil⟩⟩
  exact ⟨List.nodup_nil, fun f hf => absurd hf List.not_mem_nil, fun p hp => absurd hp List.not_mem_nil,
    fun p hp => absurd hp List.not_mem_nil, fun p hp => absurd hp List.not_mem_nil⟩

/-- The frames for one part. -/
def examplePart (id name : String) (index count : Int) : List Label :=
  [.frame (.begin .package_part (some (str id)) (some 1)
      (some (str "ca978112ca1bbdcafac231b39a23dc4da786eff8147c4e72b9807785afee48bb")) (some (str name)) (str "I") index
      count),
    .frame (.chunk (some (str id)) (some (str "YQ=="))), .frame (.«end» (some (str id)) true)]

/-- The parts of a package may come in another order. -/
theorem assembled_of_two_parts :
    (partsMachine examplePlatform).AllStates World.Assembled (partsMachine examplePlatform).init
      (.connect :: (examplePart "A" "split.apk" 1 2 ++ examplePart "B" "base.apk" 0 2)) :=
  assembled_of_orderly _ _ (by decide +kernel)

/-- Two parts of the same index are taken for the whole package. -/
theorem not_always_assembled : ¬∀ labels,
    (partsMachine examplePlatform).AllStates World.Assembled (partsMachine examplePlatform).init labels := by
  intro h
  obtain ⟨w, hw⟩ : ∃ w, (partsMachine examplePlatform).exec (partsMachine examplePlatform).init
      (.connect :: (examplePart "A" "a.apk" 0 2 ++ examplePart "B" "b.apk" 0 2)) = some w := ⟨_, rfl⟩
  have hindices : ∀ p ∈ w.parts (str "I"), p.index ≠ 1 := by
    cases hw
    decide +kernel
  have hcall : ∃ call ∈ w.calls (str "I"), call.2.length = 2 := by
    cases hw
    decide +kernel
  obtain ⟨call, hcall, hlength⟩ := hcall
  obtain ⟨-, hcomplete, -⟩ := (h _).last hw (str "I")
  have hsecond : call.2[1]? = some (call.2[1]) := List.getElem?_eq_getElem (by omega)
  obtain ⟨p, hp, hindex, -⟩ := (hcomplete call hcall).2 1 _ hsecond
  exact hindices p hp hindex

end AnboxReboxed.Android.PackageParts
