import AnboxReboxed.Container.Mounts

/-!
# Proofs: stale mounts

The escapes of the kernel are undone, so that the mount points come back. Of these the candidates are detached, and what
lies below another one is longer.
-/

namespace AnboxReboxed.Container

open AnboxReboxed.Lib
open AnboxReboxed.Lib.Scanf (isSpace)

/-! ## The escapes -/

theorem octalValue_octalEscape (c : UInt8) (encoded : ByteString) :
    octalValue ((octalEscape c).tail ++ encoded) = some c := by
  have hc := c.toNat_lt
  have hdigit (n : Nat) (hn : n < 8) : octalDigit (.ofNat (48 + n)) = true ∧ (UInt8.ofNat (48 + n)).toNat = 48 + n := by
    have hnat : (UInt8.ofNat (48 + n)).toNat = 48 + n := by
      rw [UInt8.toNat_ofNat']
      omega
    refine ⟨?_, hnat⟩
    simp only [octalDigit, Bool.and_eq_true, decide_eq_true_eq, UInt8.le_iff_toNat_le, hnat]
    constructor
    · show 48 ≤ 48 + n
      omega
    · show 48 + n ≤ 55
      omega
  obtain ⟨h₁, hn₁⟩ := hdigit (c.toNat / 64) (by omega)
  obtain ⟨h₂, hn₂⟩ := hdigit (c.toNat / 8 % 8) (by omega)
  obtain ⟨h₃, hn₃⟩ := hdigit (c.toNat % 8) (by omega)
  have hvalue : (48 + c.toNat / 64 - 48) * 64 + (48 + c.toNat / 8 % 8 - 48) * 8 + (48 + c.toNat % 8) - 48
      = c.toNat := by
    omega
  simp only [octalEscape, List.tail_cons, List.cons_append, List.nil_append, octalValue, h₁, h₂, h₃, hn₁, hn₂, hn₃,
    Bool.and_self, if_true, hvalue, UInt8.ofNat_toNat]

theorem decodeFrom_octalEscape (c : UInt8) (encoded : ByteString) :
    decodeFrom 0 (octalEscape c ++ encoded) = c :: decodeFrom 0 encoded := by
  have hvalue := octalValue_octalEscape c encoded
  simp only [octalEscape, List.tail_cons, List.cons_append, List.nil_append] at hvalue ⊢
  simp only [decodeFrom, if_true, hvalue]

theorem decodeFrom_plain {c : UInt8} (hc : c ≠ 92) (encoded : ByteString) :
    decodeFrom 0 (c :: encoded) = c :: decodeFrom 0 encoded := by
  simp only [decodeFrom, hc, if_false]

/-- A backslash of the path is escaped itself, so that every backslash that is decoded starts an escape. -/
theorem decode_escapePath (path : Path) : decode_mountinfo_path (escapePath path) = path := by
  unfold decode_mountinfo_path
  induction path with
  | nil => rfl
  | cons c path ih =>
    rw [escapePath, List.flatMap_cons]
    cases hc : escaped c with
    | true =>
      rw [if_pos rfl, decodeFrom_octalEscape]
      exact congrArg _ ih
    | false =>
      have hne : c ≠ 92 := by
        rintro rfl
        exact absurd hc (by decide)
      rw [if_neg Bool.false_ne_true, List.singleton_append, decodeFrom_plain hne]
      exact congrArg _ ih

/-! ## The fields of a line -/

theorem isSpace_cases {c : UInt8} (h : isSpace c = true) : c = 32 ∨ c = 9 ∨ c = 10 ∨ c = 11 ∨ c = 12 ∨ c = 13 := by
  simp only [isSpace, Bool.or_eq_true, Bool.and_eq_true, beq_iff_eq, decide_eq_true_eq, UInt8.le_iff_toNat_le] at h
  rcases h with rfl | ⟨hlow, hhigh⟩
  · exact Or.inl rfl
  have hlow' : 9 ≤ c.toNat := hlow
  have hhigh' : c.toNat ≤ 13 := hhigh
  have hnat : c.toNat = 9 ∨ c.toNat = 10 ∨ c.toNat = 11 ∨ c.toNat = 12 ∨ c.toNat = 13 := by omega
  exact Or.inr (hnat.imp (UInt8.toNat_inj.1 ·) (Or.imp (UInt8.toNat_inj.1 ·)
    (Or.imp (UInt8.toNat_inj.1 ·) (Or.imp (UInt8.toNat_inj.1 ·) (UInt8.toNat_inj.1 ·)))))

theorem octalEscape_noSpace (c : UInt8) : ∀ d ∈ octalEscape c, isSpace d = false := by
  have hc := c.toNat_lt
  have hdigit (n : Nat) (hn : n < 8) : isSpace (.ofNat (48 + n)) = false := by
    have hnat : (UInt8.ofNat (48 + n)).toNat = 48 + n := by
      rw [UInt8.toNat_ofNat']
      omega
    have hne : UInt8.ofNat (48 + n) ≠ 32 := by
      intro h
      rw [h] at hnat
      have : (32 : UInt8).toNat = 32 := rfl
      omega
    have hlt : ¬UInt8.ofNat (48 + n) ≤ 13 := by
      rw [UInt8.le_iff_toNat_le, hnat]
      show ¬48 + n ≤ 13
      omega
    rw [isSpace, beq_eq_false_iff_ne.2 hne, decide_eq_false hlt, Bool.and_false, Bool.or_false]
  intro d hd
  simp only [octalEscape, List.mem_cons, List.not_mem_nil, or_false] at hd
  rcases hd with rfl | rfl | rfl | rfl
  · decide
  · exact hdigit _ (by omega)
  · exact hdigit _ (by omega)
  · exact hdigit _ (by omega)

namespace Mount

variable (m : Mount)

theorem escapePath_ne_nil : escapePath m.mountpoint ≠ [] := by
  cases h : m.mountpoint with
  | nil =>
    have := m.absolute
    rw [h] at this
    cases this
  | cons c path =>
    rw [escapePath, List.flatMap_cons]
    refine List.append_ne_nil_of_left_ne_nil ?_ _
    split
    · exact List.cons_ne_nil _ _
    · exact List.cons_ne_nil _ _

/-- White space that is not escaped is excluded. -/
theorem escapePath_noSpace : ∀ c ∈ escapePath m.mountpoint, isSpace c = false := by
  intro d hd
  obtain ⟨c, hc, hd⟩ := List.mem_flatMap.1 hd
  cases hescaped : escaped c with
  | true =>
    rw [hescaped, if_pos rfl] at hd
    exact octalEscape_noSpace c d hd
  | false =>
    rw [hescaped, if_neg Bool.false_ne_true, List.mem_singleton] at hd
    subst hd
    obtain ⟨h13, h11, h12⟩ := m.plain d hc
    simp only [escaped, Bool.or_eq_false_iff, beq_eq_false_iff_ne] at hescaped
    obtain ⟨⟨⟨h32, h9⟩, h10⟩, -⟩ := hescaped
    rcases Bool.eq_false_or_eq_true (isSpace d) with hspace | hspace
    · rcases isSpace_cases hspace with rfl | rfl | rfl | rfl | rfl | rfl <;> contradiction
    · exact hspace

theorem words_line : Delimited.words isSpace m.line
    = m.id.text :: m.parent.text :: m.device.text :: m.root.text :: escapePath m.mountpoint ::
        Delimited.words isSpace m.options := by
  have hsep : isSpace 32 = true := by decide
  unfold line
  rw [Delimited.words_cut m.id.ne_nil m.id.noSpace hsep, Delimited.words_cut m.parent.ne_nil m.parent.noSpace hsep,
    Delimited.words_cut m.device.ne_nil m.device.noSpace hsep, Delimited.words_cut m.root.ne_nil m.root.noSpace hsep,
    Delimited.words_cut m.escapePath_ne_nil m.escapePath_noSpace hsep]

theorem line_oneLine : ∀ c ∈ m.line, newline c = false := by
  have hspace (c : UInt8) (h : isSpace c = false) : newline c = false := by
    cases hc : newline c with
    | false => rfl
    | true =>
      rw [beq_iff_eq.1 hc] at h
      exact absurd h (by decide)
  have h32 : newline 32 = false := by decide
  intro c hc
  simp only [line, List.mem_append, List.mem_cons] at hc
  rcases hc with h | rfl | h | rfl | h | rfl | h | rfl | h | rfl | h
  · exact hspace c (m.id.noSpace c h)
  · exact h32
  · exact hspace c (m.parent.noSpace c h)
  · exact h32
  · exact hspace c (m.device.noSpace c h)
  · exact h32
  · exact hspace c (m.root.noSpace c h)
  · exact h32
  · exact hspace c (m.escapePath_noSpace c h)
  · exact h32
  · exact m.oneLine c h

end Mount

/-- The mount points come back as they are. -/
theorem current_mountpoints_mountinfo (mounts : List Mount) :
    current_mountpoints (mountinfo mounts) = mounts.map Mount.mountpoint := by
  have hlines : Delimited.lines newline (mountinfo mounts) = mounts.map Mount.line := by
    have hsep : newline 10 = true := by decide
    have h := Delimited.lines_flatMap hsep (List.forall_mem_map.2 fun m (_ : m ∈ mounts) => m.line_oneLine)
    rwa [List.flatMap_map] at h
  unfold current_mountpoints
  rw [hlines, List.filterMap_map]
  have hmount (m : Mount) : ((Delimited.words isSpace m.line)[4]?.map decode_mountinfo_path) = some m.mountpoint := by
    rw [m.words_line]
    exact congrArg some (decode_escapePath m.mountpoint)
  rw [show (fun line => (Delimited.words isSpace line)[4]?.map decode_mountinfo_path) ∘ Mount.line
    = some ∘ Mount.mountpoint from funext hmount]
  rw [List.filterMap_eq_map]

/-! ## The order -/

theorem cleanupOrder_trans (a b c : Path) (hab : cleanupOrder a b = true) (hbc : cleanupOrder b c = true) :
    cleanupOrder a c = true := by
  unfold cleanupOrder at *
  split at hab <;> split at hbc <;> split <;> simp only [decide_eq_true_eq] at *
  all_goals first
    | omega
    | exact List.le_trans hbc hab

theorem cleanupOrder_total (a b : Path) : (cleanupOrder a b || cleanupOrder b a) = true := by
  unfold cleanupOrder
  by_cases h : a.length = b.length
  · simp [h, List.le_total b a]
  · have hlt : b.length < a.length ∨ a.length < b.length := by omega
    rw [if_pos h, if_pos (Ne.symm h), Bool.or_eq_true, decide_eq_true_iff, decide_eq_true_iff]
    exact hlt

theorem length_le_of_cleanupOrder {a b : Path} (h : cleanupOrder a b = true) : b.length ≤ a.length := by
  unfold cleanupOrder at h
  split at h
  · exact Nat.le_of_lt (of_decide_eq_true h)
  · omega

/-- What lies below a path is longer. -/
theorem Below.length_lt {outer inner : Path} (h : Below outer inner) : outer.length < inner.length := by
  obtain ⟨tail, hne, rfl, -⟩ := h
  rw [List.length_append]
  have := List.length_pos_of_ne_nil hne
  omega

/-! ## The cleanup -/

section Cleanup

variable {ω : Type} (host : MountHost ω) (data_dir : Path) (w : ω)

/-- Every candidate is detached, whatever became of the ones before. -/
theorem foldl_calls (ordered : List Path) (c : Cleanup ω) :
    (ordered.foldl
        (fun c mountpoint =>
          let (success, world) := host.safe_umount c.world mountpoint
          { world, success := success && c.success, calls := c.calls ++ [mountpoint] })
        c).calls = c.calls ++ ordered := by
  induction ordered generalizing c with
  | nil => simp
  | cons mountpoint ordered ih =>
    rw [List.foldl_cons, ih]
    simp

theorem cleanup_calls :
    (cleanup_anbox_mounts host data_dir w).calls
      = (((host.mounts w).map Mount.mountpoint).filter fun mountpoint => Candidate data_dir mountpoint).dedup.mergeSort
          cleanupOrder := by
  unfold cleanup_anbox_mounts
  rw [current_mountpoints_mountinfo]
  dsimp only
  rw [foldl_calls]
  rfl

theorem mem_cleanup_calls (mountpoint : Path) :
    mountpoint ∈ (cleanup_anbox_mounts host data_dir w).calls ↔
      mountpoint ∈ (host.mounts w).map Mount.mountpoint ∧ Candidate data_dir mountpoint := by
  rw [cleanup_calls, List.mem_mergeSort, List.mem_dedup, List.mem_filter, decide_eq_true_iff]

/-- A name with something behind it that does not start with a slash is the name of no candidate. -/
theorem not_candidate_sibling {tail : Path} (hne : tail ≠ []) (hslash : tail.head? ≠ some 47) :
    ¬Candidate data_dir (combined_rootfs_dir data_dir ++ tail) := by
  rintro ((h | ⟨rest, h⟩) | h | h)
  · exact hne (List.append_right_eq_self.1 h)
  · rw [List.append_assoc, List.append_cancel_left_eq] at h
    rw [← h] at hslash
    exact hslash rfl
  · simp only [combined_rootfs_dir, vendor_rootfs, dataPath, List.append_assoc, List.append_cancel_left_eq] at h
    have hhead : some (99 : UInt8) = some 118 := congrArg List.head? h
    exact absurd hhead (by decide)
  · simp only [combined_rootfs_dir, rootfs_dir, dataPath, List.append_assoc, List.append_cancel_left_eq] at h
    have hhead : some (99 : UInt8) = some 114 := congrArg List.head? h
    exact absurd hhead (by decide)

/-- The mount points are read back exactly; the cleanup detaches the candidates among them, each once and none before
one that lies below it. -/
theorem cleanup_detaches :
    current_mountpoints (mountinfo (host.mounts w)) = (host.mounts w).map Mount.mountpoint ∧
      (cleanup_anbox_mounts host data_dir w).calls.Nodup ∧
      (∀ mountpoint, mountpoint ∈ (cleanup_anbox_mounts host data_dir w).calls ↔
        mountpoint ∈ (host.mounts w).map Mount.mountpoint ∧ Candidate data_dir mountpoint) ∧
      (∀ tail, tail ≠ [] → tail.head? ≠ some 47 →
        combined_rootfs_dir data_dir ++ tail ∉ (cleanup_anbox_mounts host data_dir w).calls) ∧
      (cleanup_anbox_mounts host data_dir w).calls.Pairwise fun first second => ¬Below first second := by
  refine ⟨current_mountpoints_mountinfo _, ?_, mem_cleanup_calls host data_dir w, fun tail hne hslash h => ?_, ?_⟩
  · rw [cleanup_calls]
    exact (List.mergeSort_perm _ _).nodup_iff.2 (List.nodup_dedup _)
  · exact not_candidate_sibling data_dir hne hslash ((mem_cleanup_calls host data_dir w _).1 h).2
  · rw [cleanup_calls]
    refine (List.pairwise_mergeSort cleanupOrder_trans cleanupOrder_total _).imp fun {first second} h hbelow => ?_
    have hlt := hbelow.length_lt
    have hle := length_le_of_cleanupOrder h
    omega

end Cleanup

end AnboxReboxed.Container
