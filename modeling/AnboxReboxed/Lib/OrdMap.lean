import Mathlib.Tactic.Linarith

/-!
# Ordered maps

The executable counterpart of `std::map` and `std::set`: a list of entries whose keys strictly
increase, so that a key occurs at most once, two maps with the same lookups are equal, and iterating
over `entries` visits the keys in the order a C++ iterator does.
-/

namespace AnboxReboxed.Lib

/-- A finite map from ordered keys, listed in increasing order of the keys. -/
structure OrdMap (κ α : Type) [LinearOrder κ] where
  /-- The entries, in iteration order. -/
  entries : List (κ × α)
  /-- The keys strictly increase along the list. -/
  sorted : entries.Pairwise (fun a b => a.1 < b.1)

namespace OrdMap

variable {κ α : Type} [LinearOrder κ]

instance [DecidableEq α] : DecidableEq (OrdMap κ α) := fun m m' =>
  decidable_of_iff (m.entries = m'.entries) ⟨fun h => by cases m; cases m'; simp_all, fun h => h ▸ rfl⟩

/-- The map without entries. -/
def empty : OrdMap κ α := ⟨[], List.Pairwise.nil⟩

instance : EmptyCollection (OrdMap κ α) := ⟨empty⟩

instance : Inhabited (OrdMap κ α) := ⟨empty⟩

/-- `m.find(k)`: the value stored under `k`, if there is one. -/
def find? (m : OrdMap κ α) (k : κ) : Option α := m.entries.lookup k

/-- `k ∈ m` when the map has an entry under `k`. -/
instance : Membership κ (OrdMap κ α) := ⟨fun m k => (m.find? k).isSome = true⟩

instance (k : κ) (m : OrdMap κ α) : Decidable (k ∈ m) :=
  inferInstanceAs (Decidable ((m.find? k).isSome = true))

/-- The keys in increasing order. -/
def keys (m : OrdMap κ α) : List κ := m.entries.map Prod.fst

/-- `m.size()`. -/
def size (m : OrdMap κ α) : Nat := m.entries.length

/-- The sum of `f` over the stored values. -/
def sumBy (f : α → Nat) (m : OrdMap κ α) : Nat := (m.entries.map fun e => f e.2).sum

/-- Place `(k, v)` into a sorted list of entries, replacing an entry under `k`. -/
def insertEntry (k : κ) (v : α) : List (κ × α) → List (κ × α)
  | [] => [(k, v)]
  | e :: es =>
    if k < e.1 then (k, v) :: e :: es
    else if k = e.1 then (k, v) :: es
    else e :: insertEntry k v es

theorem mem_insertEntry_fst {k : κ} {v : α} {l : List (κ × α)} {e : κ × α}
    (h : e ∈ insertEntry k v l) : e = (k, v) ∨ e ∈ l := by
  induction l with
  | nil => simpa [insertEntry] using h
  | cons a l ih =>
    simp only [insertEntry] at h
    split_ifs at h with h1 h2
    · simpa using h
    · rcases List.mem_cons.mp h with h | h
      · exact Or.inl h
      · exact Or.inr (List.mem_cons_of_mem _ h)
    · rcases List.mem_cons.mp h with h | h
      · exact Or.inr (h ▸ List.mem_cons_self)
      · exact (ih h).imp id (List.mem_cons_of_mem _)

theorem insertEntry_sorted (k : κ) (v : α) {l : List (κ × α)}
    (hl : l.Pairwise (fun a b => a.1 < b.1)) :
    (insertEntry k v l).Pairwise (fun a b => a.1 < b.1) := by
  induction l with
  | nil => simp [insertEntry]
  | cons a l ih =>
    obtain ⟨ha, hl⟩ := List.pairwise_cons.mp hl
    simp only [insertEntry]
    split_ifs with h1 h2
    · refine List.pairwise_cons.mpr ⟨fun b hb => ?_, List.pairwise_cons.mpr ⟨ha, hl⟩⟩
      rcases List.mem_cons.mp hb with rfl | hb
      · exact h1
      · exact lt_trans h1 (ha b hb)
    · exact List.pairwise_cons.mpr ⟨fun b hb => by rw [h2]; exact ha b hb, hl⟩
    · refine List.pairwise_cons.mpr ⟨fun b hb => ?_, ih hl⟩
      rcases mem_insertEntry_fst hb with rfl | hb
      · exact lt_of_le_of_ne (not_lt.mp h1) (fun h => h2 h.symm)
      · exact ha b hb

/-- `m[k] = v`. -/
def insert (m : OrdMap κ α) (k : κ) (v : α) : OrdMap κ α :=
  ⟨insertEntry k v m.entries, insertEntry_sorted k v m.sorted⟩

/-- `m.erase(k)`. -/
def erase (m : OrdMap κ α) (k : κ) : OrdMap κ α :=
  ⟨m.entries.filter fun e => e.1 ≠ k, m.sorted.filter _⟩

end OrdMap

/-- A finite set of ordered keys, iterated in increasing order (`std::set`). -/
abbrev OrdSet (κ : Type) [LinearOrder κ] := OrdMap κ Unit

end AnboxReboxed.Lib
