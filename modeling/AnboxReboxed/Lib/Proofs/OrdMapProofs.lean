import AnboxReboxed.Lib.OrdMap
import Mathlib.Algebra.BigOperators.Group.List.Basic

/-!
# Proofs: lookups, sizes and sums of ordered maps

Every operation is described by its effect on `find?`; sizes and sums follow from the two
permutations `perm_erase` and `perm_insert`.
-/

namespace AnboxReboxed.Lib.OrdMap

variable {κ α : Type} [LinearOrder κ]

/-! ## Membership and lookup -/

theorem lookup_eq_some_iff {l : List (κ × α)} (hl : l.Pairwise (fun a b => a.1 < b.1)) {k : κ} {v : α} :
    l.lookup k = some v ↔ (k, v) ∈ l := by
  induction l with
  | nil => simp
  | cons a l ih =>
    obtain ⟨k', v'⟩ := a
    obtain ⟨ha, hl⟩ := List.pairwise_cons.mp hl
    by_cases hk : k = k'
    · subst hk
      simp only [List.lookup_cons, beq_self_eq_true, Option.some.injEq, List.mem_cons, Prod.mk.injEq,
        true_and]
      constructor
      · rintro rfl; exact Or.inl rfl
      · rintro (rfl | h)
        · rfl
        · exact absurd (ha _ h) (lt_irrefl _)
    · have hkb : (k == k') = false := by simpa using hk
      simp [List.lookup_cons, hkb, ih hl, hk]

theorem find?_eq_some_iff {m : OrdMap κ α} {k : κ} {v : α} :
    m.find? k = some v ↔ (k, v) ∈ m.entries := lookup_eq_some_iff m.sorted

theorem mem_iff {m : OrdMap κ α} {k : κ} : k ∈ m ↔ ∃ v, m.find? k = some v := Option.isSome_iff_exists

theorem not_mem_iff {m : OrdMap κ α} {k : κ} : k ∉ m ↔ m.find? k = none := by
  rw [mem_iff, Option.eq_none_iff_forall_ne_some]
  exact not_exists

theorem mem_of_find? {m : OrdMap κ α} {k : κ} {v : α} (h : m.find? k = some v) : k ∈ m :=
  mem_iff.mpr ⟨v, h⟩

theorem mem_keys_iff {m : OrdMap κ α} {k : κ} : k ∈ m.keys ↔ k ∈ m := by
  rw [mem_iff, keys, List.mem_map]
  constructor
  · rintro ⟨⟨k', v⟩, h, rfl⟩; exact ⟨v, find?_eq_some_iff.mpr h⟩
  · rintro ⟨v, h⟩; exact ⟨(k, v), find?_eq_some_iff.mp h, rfl⟩

theorem keys_nodup (m : OrdMap κ α) : m.keys.Nodup := by
  rw [keys, List.Nodup, List.pairwise_map]
  exact m.sorted.imp fun h => ne_of_lt h

@[simp] theorem find?_empty (k : κ) : (∅ : OrdMap κ α).find? k = none := rfl

@[simp] theorem not_mem_empty (k : κ) : k ∉ (∅ : OrdMap κ α) := by simp [not_mem_iff]

theorem eq_empty_of_forall_not_mem {m : OrdMap κ α} (h : ∀ k, k ∉ m) : m = ∅ := by
  obtain ⟨entries, hsorted⟩ := m
  cases entries with
  | nil => rfl
  | cons e es => exact absurd (mem_of_find? (find?_eq_some_iff.mpr List.mem_cons_self)) (h e.1)

theorem mem_insertEntry {k : κ} {v : α} {l : List (κ × α)} (hl : l.Pairwise (fun a b => a.1 < b.1))
    {e : κ × α} : e ∈ insertEntry k v l ↔ e = (k, v) ∨ (e.1 ≠ k ∧ e ∈ l) := by
  induction l with
  | nil => simp [insertEntry]
  | cons a l ih =>
    obtain ⟨ha, hl⟩ := List.pairwise_cons.mp hl
    simp only [insertEntry]
    split_ifs with h1 h2
    · constructor
      · intro he
        rcases List.mem_cons.mp he with he | he
        · exact Or.inl he
        · refine Or.inr ⟨fun hek => ?_, he⟩
          rcases List.mem_cons.mp he with rfl | he'
          · exact absurd h1 (by rw [hek]; exact lt_irrefl _)
          · exact absurd (lt_trans h1 (ha e he')) (by rw [hek]; exact lt_irrefl _)
      · rintro (rfl | ⟨-, he⟩)
        · exact List.mem_cons_self
        · exact List.mem_cons_of_mem _ he
    · constructor
      · intro he
        rcases List.mem_cons.mp he with he | he
        · exact Or.inl he
        · refine Or.inr ⟨fun hek => ?_, List.mem_cons_of_mem _ he⟩
          have := ha e he
          rw [hek, h2] at this
          exact lt_irrefl _ this
      · rintro (rfl | ⟨hek, he⟩)
        · exact List.mem_cons_self
        · rcases List.mem_cons.mp he with rfl | he
          · exact absurd h2.symm hek
          · exact List.mem_cons_of_mem _ he
    · rw [List.mem_cons, ih hl, List.mem_cons]
      constructor
      · rintro (rfl | rfl | ⟨hek, he⟩)
        · exact Or.inr ⟨fun h => h2 h.symm, Or.inl rfl⟩
        · exact Or.inl rfl
        · exact Or.inr ⟨hek, Or.inr he⟩
      · rintro (rfl | ⟨hek, rfl | he⟩)
        · exact Or.inr (Or.inl rfl)
        · exact Or.inl rfl
        · exact Or.inr (Or.inr ⟨hek, he⟩)

theorem find?_insert (m : OrdMap κ α) (k k' : κ) (v : α) :
    (m.insert k v).find? k' = if k' = k then some v else m.find? k' := by
  apply Option.ext
  intro w
  rw [find?_eq_some_iff]
  show (k', w) ∈ insertEntry k v m.entries ↔ _
  rw [mem_insertEntry m.sorted]
  split_ifs with hk
  · subst hk
    simp [eq_comm]
  · rw [find?_eq_some_iff]
    simp [hk]

@[simp] theorem find?_insert_self (m : OrdMap κ α) (k : κ) (v : α) :
    (m.insert k v).find? k = some v := by simp [find?_insert]

theorem find?_insert_ne (m : OrdMap κ α) {k k' : κ} (v : α) (h : k' ≠ k) :
    (m.insert k v).find? k' = m.find? k' := by simp [find?_insert, h]

theorem find?_erase (m : OrdMap κ α) (k k' : κ) :
    (m.erase k).find? k' = if k' = k then none else m.find? k' := by
  apply Option.ext
  intro w
  rw [find?_eq_some_iff]
  show (k', w) ∈ m.entries.filter _ ↔ _
  rw [List.mem_filter]
  split_ifs with hk
  · simp [hk]
  · rw [find?_eq_some_iff]
    simp [hk]

@[simp] theorem find?_erase_self (m : OrdMap κ α) (k : κ) : (m.erase k).find? k = none := by
  simp [find?_erase]

theorem find?_erase_ne (m : OrdMap κ α) {k k' : κ} (h : k' ≠ k) :
    (m.erase k).find? k' = m.find? k' := by simp [find?_erase, h]

@[simp] theorem mem_insert {m : OrdMap κ α} {k k' : κ} {v : α} :
    k' ∈ m.insert k v ↔ k' = k ∨ k' ∈ m := by
  rw [mem_iff, mem_iff, find?_insert]
  by_cases h : k' = k <;> simp [h]

@[simp] theorem mem_erase {m : OrdMap κ α} {k k' : κ} : k' ∈ m.erase k ↔ k' ≠ k ∧ k' ∈ m := by
  rw [mem_iff, mem_iff, find?_erase]
  by_cases h : k' = k <;> simp [h]

theorem find?_of_erase {m : OrdMap κ α} {k k' : κ} {v : α} (h : (m.erase k).find? k' = some v) :
    k' ≠ k ∧ m.find? k' = some v := by
  rw [find?_erase] at h
  by_cases hk : k' = k
  · simp [hk] at h
  · exact ⟨hk, by simpa [hk] using h⟩

theorem erase_of_not_mem {m : OrdMap κ α} {k : κ} (h : k ∉ m) : m.erase k = m := by
  have : m.entries.filter (fun e => e.1 ≠ k) = m.entries := by
    apply List.filter_eq_self.mpr
    intro e he
    have hm : e.1 ∈ m := mem_of_find? (v := e.2) (find?_eq_some_iff.mpr he)
    simp only [ne_eq, decide_eq_true_eq]
    intro hk
    exact h (hk ▸ hm)
  unfold erase
  cases m
  simpa using this

/-- The first entry with a property of the key, in iteration order, has the least such key. -/
theorem entries_find?_eq_some_iff {m : OrdMap κ α} {p : κ → Bool} {e : κ × α} :
    m.entries.find? (fun e => p e.1) = some e ↔
      m.find? e.1 = some e.2 ∧ p e.1 = true ∧ ∀ k ∈ m, p k = true → e.1 ≤ k := by
  rw [List.find?_eq_some_iff_append, find?_eq_some_iff]
  constructor
  · rintro ⟨hp, as, bs, hentries, has⟩
    have hsorted := m.sorted
    rw [hentries, List.pairwise_append] at hsorted
    refine ⟨by rw [hentries]; simp, hp, fun k hk hpk => ?_⟩
    obtain ⟨v, hv⟩ := mem_iff.mp hk
    rw [find?_eq_some_iff, hentries, List.mem_append, List.mem_cons] at hv
    rcases hv with hv | rfl | hv
    · have hno := has _ hv
      rw [hpk] at hno
      cases hno
    · exact le_refl k
    · exact le_of_lt ((List.pairwise_cons.mp hsorted.2.1).1 _ hv)
  · rintro ⟨hmem, hp, hleast⟩
    obtain ⟨as, bs, hentries⟩ := List.append_of_mem hmem
    have hsorted := m.sorted
    rw [hentries, List.pairwise_append] at hsorted
    refine ⟨hp, as, bs, hentries, fun a ha => ?_⟩
    by_contra hpa
    have hmema : a.1 ∈ m :=
      mem_of_find? (v := a.2) (find?_eq_some_iff.mpr (by rw [hentries]; exact List.mem_append_left _ ha))
    have hle := hleast a.1 hmema (by simpa using hpa)
    exact absurd (hsorted.2.2 a ha e List.mem_cons_self) (not_lt.mpr hle)

/-! ## Sizes and sums -/

theorem erase_eq_self_iff {m : OrdMap κ α} {k : κ} : m.erase k = m ↔ k ∉ m := by
  constructor
  · intro h
    rw [not_mem_iff, ← h]
    exact find?_erase_self m k
  · exact erase_of_not_mem

theorem perm_erase {m : OrdMap κ α} {k : κ} {v : α} (h : m.find? k = some v) :
    m.entries.Perm ((k, v) :: (m.erase k).entries) := by
  have hnd : m.entries.Nodup := m.sorted.imp fun h e => by subst e; exact lt_irrefl _ h
  have hnd' : (m.erase k).entries.Nodup := hnd.filter _
  refine (List.perm_ext_iff_of_nodup hnd (List.nodup_cons.mpr ⟨?_, hnd'⟩)).mpr fun e => ?_
  · show (k, v) ∉ m.entries.filter _
    simp
  · show _ ↔ e ∈ (k, v) :: m.entries.filter _
    have hk := find?_eq_some_iff.mp h
    simp only [List.mem_cons, List.mem_filter, decide_eq_true_eq, ne_eq]
    constructor
    · intro he
      by_cases hek : e.1 = k
      · left
        have : m.find? e.1 = some e.2 := find?_eq_some_iff.mpr he
        rw [hek, h] at this
        exact Prod.ext hek (Option.some.inj this).symm
      · exact Or.inr ⟨he, hek⟩
    · rintro (rfl | ⟨he, -⟩)
      · exact hk
      · exact he

theorem filter_insertEntry (k : κ) (v : α) (l : List (κ × α)) :
    (insertEntry k v l).filter (fun e => e.1 ≠ k) = l.filter (fun e => e.1 ≠ k) := by
  induction l with
  | nil => simp [insertEntry]
  | cons a l ih =>
    simp only [insertEntry]
    split_ifs with h1 h2
    · simp
    · simp [h2]
    · simp only [List.filter_cons, ih]

@[simp] theorem erase_insert_self (m : OrdMap κ α) (k : κ) (v : α) :
    (m.insert k v).erase k = m.erase k := by
  unfold erase
  congr 1
  exact filter_insertEntry k v m.entries

theorem perm_insert (m : OrdMap κ α) (k : κ) (v : α) :
    (m.insert k v).entries.Perm ((k, v) :: (m.erase k).entries) := by
  have := perm_erase (find?_insert_self m k v)
  rwa [erase_insert_self] at this

theorem insertEntry_of_mem {k : κ} {v : α} {l : List (κ × α)} (hl : l.Pairwise (fun a b => a.1 < b.1))
    (h : (k, v) ∈ l) : insertEntry k v l = l := by
  induction l with
  | nil => cases h
  | cons a l ih =>
    obtain ⟨ha, hl⟩ := List.pairwise_cons.mp hl
    rcases List.mem_cons.mp h with rfl | hmem
    · simp [insertEntry]
    · have hlt : a.1 < k := ha (k, v) hmem
      simp only [insertEntry, if_neg (not_lt.mpr hlt.le), if_neg (ne_of_gt hlt), ih hl hmem]

/-- Writing what is there already changes nothing. -/
theorem insert_of_find? {m : OrdMap κ α} {k : κ} {v : α} (h : m.find? k = some v) : m.insert k v = m := by
  obtain ⟨entries, hsorted⟩ := m
  simp only [insert, insertEntry_of_mem hsorted (find?_eq_some_iff.mp h)]

theorem size_insert_of_not_mem {m : OrdMap κ α} {k : κ} {v : α} (h : k ∉ m) :
    (m.insert k v).size = m.size + 1 := by
  have := (perm_insert m k v).length_eq
  rw [erase_of_not_mem h] at this
  simpa [size] using this

theorem size_erase {m : OrdMap κ α} {k : κ} {v : α} (h : m.find? k = some v) :
    (m.erase k).size + 1 = m.size := by
  simpa [size] using (perm_erase h).length_eq.symm

theorem size_insert_of_find? {m : OrdMap κ α} {k : κ} {v w : α} (h : m.find? k = some v) :
    (m.insert k w).size = m.size := by
  have h1 := (perm_insert m k w).length_eq
  have h2 := size_erase h
  simp only [size, List.length_cons] at *
  omega

theorem size_erase_le (m : OrdMap κ α) (k : κ) : (m.erase k).size ≤ m.size :=
  List.length_filter_le _ _

theorem sumBy_insert (f : α → Nat) (m : OrdMap κ α) (k : κ) (v : α) :
    (m.insert k v).sumBy f = f v + (m.erase k).sumBy f := by
  have := ((perm_insert m k v).map fun e => f e.2).sum_eq
  simpa [sumBy] using this

theorem sumBy_erase (f : α → Nat) {m : OrdMap κ α} {k : κ} {v : α} (h : m.find? k = some v) :
    m.sumBy f = f v + (m.erase k).sumBy f := by
  have := ((perm_erase h).map fun e => f e.2).sum_eq
  simpa [sumBy] using this

theorem sumBy_insert_of_not_mem (f : α → Nat) {m : OrdMap κ α} {k : κ} {v : α} (h : k ∉ m) :
    (m.insert k v).sumBy f = f v + m.sumBy f := by rw [sumBy_insert, erase_of_not_mem h]

/-- Replacing a value changes the sum by the difference of the two values. -/
theorem sumBy_replace (f : α → Nat) {m : OrdMap κ α} {k : κ} {v : α} (w : α)
    (h : m.find? k = some v) : (m.insert k w).sumBy f + f v = m.sumBy f + f w := by
  rw [sumBy_insert, sumBy_erase f h]
  omega

theorem le_sumBy (f : α → Nat) {m : OrdMap κ α} {k : κ} {v : α} (h : m.find? k = some v) :
    f v ≤ m.sumBy f := by rw [sumBy_erase f h]; omega

theorem sumBy_eq_zero_iff (f : α → Nat) {m : OrdMap κ α} :
    m.sumBy f = 0 ↔ ∀ k v, m.find? k = some v → f v = 0 := by
  rw [sumBy, List.sum_eq_zero_iff_forall_eq_nat]
  simp only [List.mem_map, forall_exists_index, and_imp, Prod.forall]
  constructor
  · intro h k v hk
    exact h _ k v (find?_eq_some_iff.mp hk) rfl
  · rintro h n k v hk rfl
    exact h k v (find?_eq_some_iff.mpr hk)

end AnboxReboxed.Lib.OrdMap
