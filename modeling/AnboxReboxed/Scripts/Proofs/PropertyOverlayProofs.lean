import AnboxReboxed.Lib.Delimited
import AnboxReboxed.Scripts.NativeBridgeVerify
import Mathlib.Data.List.TakeWhile

/-!
# Proofs: what the property overlay advertises

A line of the overlay is one of the original, or sets a property. A list of ABIs that is set has the ABIs of the
original in it, and those that are to be advertised.
-/

namespace AnboxReboxed.Scripts.NativeBridge

open AnboxReboxed.Lib Function

variable {s w x : Str}

/-! ## White space -/

theorem lstrip_append (hw : ∀ c ∈ w, is_space c = true) : lstrip (w ++ s) = lstrip s :=
  List.dropWhile_append_of_pos hw

theorem strip_append_left (hw : ∀ c ∈ w, is_space c = true) : strip (w ++ s) = strip s := by
  rw [strip, lstrip_append hw, strip]

theorem strip_append_right (hw : ∀ c ∈ w, is_space c = true) : strip (s ++ w) = strip s := by
  unfold strip
  have hempty : lstrip w = [] := List.dropWhile_eq_nil_iff.mpr hw
  have hreverse : ∀ c ∈ w.reverse, is_space c = true := fun c hc => hw c (List.mem_reverse.mp hc)
  by_cases hs : lstrip s = []
  · have happend : lstrip (s ++ w) = [] := by
      rw [lstrip_append (List.dropWhile_eq_nil_iff.mp hs), hempty]
    rw [happend, hs]
  · have happend : lstrip (s ++ w) = lstrip s ++ w := by
      rw [lstrip, List.dropWhile_append, if_neg]
      · rfl
      · exact fun h => hs (List.isEmpty_iff.mp h)
    rw [happend, List.reverse_append, lstrip_append hreverse]

/-- White space is stripped at both ends. -/
theorem exists_eq_strip (s : Str) : ∃ w w', s = w ++ strip s ++ w' ∧ (∀ c ∈ w, is_space c = true) ∧
    ∀ c ∈ w', is_space c = true := by
  refine ⟨s.takeWhile is_space, ((lstrip s).reverse.takeWhile is_space).reverse, ?_, ?_, ?_⟩
  · have hinner : strip s ++ ((lstrip s).reverse.takeWhile is_space).reverse = lstrip s := by
      have htake : (lstrip s).reverse.takeWhile is_space ++ lstrip (lstrip s).reverse = (lstrip s).reverse :=
        List.takeWhile_append_dropWhile
      rw [strip, ← List.reverse_append, htake, List.reverse_reverse]
    rw [List.append_assoc, hinner, lstrip, List.takeWhile_append_dropWhile]
  · exact fun c hc => List.mem_takeWhile_imp hc
  · exact fun c hc => List.mem_takeWhile_imp (List.mem_reverse.mp hc)

theorem comma_not_mem (hw : ∀ c ∈ w, is_space c = true) : ',' ∉ w := fun h => absurd (hw ',' h) (by decide)

theorem map_strip_splitOn_append_left (hw : ∀ c ∈ w, is_space c = true) :
    ((w ++ s).splitOn ',').map strip = (s.splitOn ',').map strip := by
  by_cases hcomma : ',' ∈ s
  · obtain ⟨a, b, rfl, ha⟩ := List.eq_append_cons_of_mem hcomma
    have hwa : ',' ∉ w ++ a := fun h => (List.mem_append.mp h).elim (comma_not_mem hw) ha
    rw [← List.append_assoc, List.splitOn_append_cons_self, List.splitOn_append_cons_self,
      List.splitOn_eq_singleton hwa, List.splitOn_eq_singleton ha, List.map_append, List.map_append,
      List.map_singleton, List.map_singleton, strip_append_left hw]
  · have hws : ',' ∉ w ++ s := fun h => (List.mem_append.mp h).elim (comma_not_mem hw) hcomma
    rw [List.splitOn_eq_singleton hcomma, List.splitOn_eq_singleton hws, List.map_singleton, List.map_singleton,
      strip_append_left hw]

theorem map_strip_splitOn_append_right (hw : ∀ c ∈ w, is_space c = true) :
    ((s ++ w).splitOn ',').map strip = (s.splitOn ',').map strip := by
  by_cases hcomma : ',' ∈ s
  · obtain ⟨b, a, hs, hb⟩ := List.eq_append_cons_of_mem (List.mem_reverse.mpr hcomma)
    obtain rfl : s = a.reverse ++ ',' :: b.reverse := by
      rw [← List.reverse_reverse s, hs]
      simp
    have hb : ',' ∉ b.reverse := fun h => hb (List.mem_reverse.mp h)
    have hbw : ',' ∉ b.reverse ++ w := fun h => (List.mem_append.mp h).elim hb (comma_not_mem hw)
    rw [List.append_assoc, List.cons_append, List.splitOn_append_cons_self, List.splitOn_append_cons_self,
      List.splitOn_eq_singleton hb, List.splitOn_eq_singleton hbw, List.map_append, List.map_append,
      List.map_singleton, List.map_singleton, strip_append_right hw]
  · have hsw : ',' ∉ s ++ w := fun h => (List.mem_append.mp h).elim hcomma (comma_not_mem hw)
    rw [List.splitOn_eq_singleton hcomma, List.splitOn_eq_singleton hsw, List.map_singleton, List.map_singleton,
      strip_append_right hw]

/-- Stripping a list changes its items by white space only. -/
theorem map_strip_splitOn (s : Str) : ((strip s).splitOn ',').map strip = (s.splitOn ',').map strip := by
  obtain ⟨w, w', hs, hw, hw'⟩ := exists_eq_strip s
  calc ((strip s).splitOn ',').map strip
      = ((w ++ strip s).splitOn ',').map strip := (map_strip_splitOn_append_left hw).symm
    _ = ((w ++ strip s ++ w').splitOn ',').map strip := (map_strip_splitOn_append_right hw').symm
    _ = (s.splitOn ',').map strip := by rw [← hs]

theorem strip_mem_of_strip (hx : x ∈ (strip s).splitOn ',') : strip x ∈ (s.splitOn ',').map strip := by
  rw [← map_strip_splitOn]
  exact List.mem_map_of_mem hx

/-! ## Lines -/

theorem property_assignment (key : Key) (value : Str) :
    property (assignment key value) = some (key.name, strip value) := by
  have hequals : ∀ c ∈ key.name, decide (c ≠ '=') = true := by cases key <;> exact List.all_eq_true.mp rfl
  have hstrip : strip key.name = key.name := by cases key <;> decide
  obtain ⟨name, hname⟩ : ∃ name, key.name = 'r' :: name := by cases key <;> exact ⟨_, rfl⟩
  have hhead : (lstrip (assignment key value)).head? = some 'r' := by
    rw [assignment, hname]
    rfl
  have htake : (assignment key value).takeWhile (· ≠ '=') = key.name := by
    rw [assignment, List.takeWhile_append_of_pos hequals, List.takeWhile_cons_of_neg (by decide), List.append_nil]
  have hdrop : (assignment key value).dropWhile (· ≠ '=') = '=' :: value := by
    rw [assignment, List.dropWhile_append_of_pos hequals, List.dropWhile_cons_of_neg (by decide)]
  have hline : assignment key value ≠ [] ∧ (lstrip (assignment key value)).head? ≠ some '#' ∧
      '=' ∈ assignment key value := by
    refine ⟨List.append_ne_nil_of_right_ne_nil _ (List.cons_ne_nil _ _), ?_, ?_⟩
    · rw [hhead]
      decide
    · exact List.mem_append_right _ List.mem_cons_self
  rw [property, if_pos hline, htake, hdrop, hstrip]
  rfl

/-- A line of the merged text is one of the original, or sets a property. -/
theorem mem_merge_lines {updates : Updates} {line : Str} {lines : List Str} : ∀ {seen : List Key},
    line ∈ (merge_lines updates seen lines).1 →
      line ∈ lines ∨ ∃ key value, updates key = some value ∧ line = assignment key value := by
  induction lines with
  | nil => exact fun h => by cases h
  | cons first lines ih =>
    intro seen h
    rw [merge_lines] at h
    have hrest : ∀ {seen}, line ∈ (merge_lines updates seen lines).1 →
        line ∈ first :: lines ∨ ∃ key value, updates key = some value ∧ line = assignment key value :=
      fun h => (ih h).imp_left (List.mem_cons_of_mem _)
    split at h
    · rcases List.mem_cons.mp h with rfl | h
      · exact Or.inl List.mem_cons_self
      · exact hrest h
    · rename_i key _
      split at h
      · exact hrest h
      · rename_i value hvalue
        split at h
        · exact hrest h
        · rcases List.mem_cons.mp h with rfl | h
          · exact Or.inr ⟨key, value, hvalue, rfl⟩
          · exact hrest h

theorem mem_merged_property_text {original : List Str} {updates : Updates} {line : Str}
    (h : line ∈ merged_property_text original updates) :
    line ∈ original ∨ property line = none ∨ ∃ key value, updates key = some value ∧ line = assignment key value := by
  rcases List.mem_append.mp h with h | h
  · exact (mem_merge_lines h).imp_right Or.inr
  · rcases List.mem_cons.mp h with rfl | h
    · exact Or.inr (Or.inl (by decide))
    · obtain ⟨key, -, hkey⟩ := List.mem_filterMap.mp h
      obtain ⟨-, hkey⟩ := Option.ite_none_left_eq_some.mp hkey
      obtain ⟨value, hvalue, rfl⟩ := Option.map_eq_some_iff.mp hkey
      exact Or.inr (Or.inr ⟨key, value, hvalue, rfl⟩)

/-- The loop has a value from before, or from a line. -/
theorem foldl_set_property {text : List Str} {key value : Str} : ∀ {init : Str → Option Str},
    text.foldl set_property init key = some value →
      init key = some value ∨ ∃ line ∈ text, property line = some (key, value) := by
  induction text with
  | nil => exact fun h => Or.inl h
  | cons line lines ih =>
    intro init h
    rcases ih h with h | ⟨line', hmem, hline'⟩
    · unfold set_property at h
      cases hline : property line with
      | none =>
        rw [hline] at h
        exact Or.inl h
      | some p =>
        rw [hline] at h
        by_cases hkey : key = p.1
        · subst hkey
          have hvalue : update init p.1 (some p.2) p.1 = some value := h
          rw [update_self] at hvalue
          cases Option.some.inj hvalue
          exact Or.inr ⟨line, List.mem_cons_self, hline⟩
        · have hvalue : update init p.1 (some p.2) key = some value := h
          rw [update_of_ne hkey] at hvalue
          exact Or.inl hvalue
    · exact Or.inr ⟨line', List.mem_cons_of_mem _ hmem, hline'⟩

theorem parse_properties_eq_some {text : List Str} {key value : Str} (h : parse_properties text key = some value) :
    ∃ line ∈ text, property line = some (key, value) := by
  rcases foldl_set_property h with h | h
  · cases h
  · exact h

/-! ## What a line advertises -/

/-- An ABI of the image is one that the original text has. -/
theorem native_abis_advertised {original : List Str} {m : Manifest} {key : Key} {default : String}
    (horiginal : m.original_properties = parse_properties original)
    (hkey : key ∈ [Key.abilist, .abilist32, .abilist64])
    (hdefault : ∀ x ∈ default.toList.splitOn ',', strip x ∉ arm_abis) (hx : x ∈ native_abis m key default)
    (harm : strip x ∈ arm_abis) : Advertises original (.abi (strip x)) := by
  obtain ⟨hx, -⟩ := List.mem_filter.mp hx
  cases hvalue : m.original_properties key.name with
  | none =>
    rw [hvalue] at hx
    exact absurd harm (hdefault x hx)
  | some value =>
    rw [hvalue] at hx
    rw [horiginal] at hvalue
    obtain ⟨line, hmem, hline⟩ := parse_properties_eq_some hvalue
    exact ⟨line, hmem, harm, key, hkey, value, hline, List.mem_map_of_mem hx⟩

theorem mem_native64 {m : Manifest} {working : List Abi} (hx : x ∈ native64 m working) :
    x ∈ native_abis m .abilist64 "x86_64" ∨ (.arm64_v8a ∈ working ∧ x = Abi.arm64_v8a.name) := by
  unfold native64 at hx
  dsimp only at hx
  split at hx
  · rename_i hworking
    rcases List.mem_append.mp hx with hx | hx
    · exact Or.inl hx
    · exact Or.inr ⟨hworking.1, List.mem_singleton.mp hx⟩
  · exact Or.inl hx

theorem mem_native32 {m : Manifest} {working : List Abi} (hx : x ∈ native32 m working) :
    x ∈ native_abis m .abilist32 "x86" ∨
      (.armeabi_v7a ∈ working ∧ x ∈ [Abi.armeabi_v7a.name, "armeabi".toList]) := by
  unfold native32 at hx
  dsimp only at hx
  split at hx
  · rename_i hworking
    rcases List.mem_append.mp hx with hx | hx
    · exact Or.inl hx
    · exact Or.inr ⟨hworking.1, (List.mem_filter.mp hx).1⟩
  · exact Or.inl hx

theorem native64_advertised {original : List Str} {m : Manifest} {working : List Abi}
    (horiginal : m.original_properties = parse_properties original) (hx : x ∈ native64 m working)
    (harm : strip x ∈ arm_abis) :
    Advertises original (.abi (strip x)) ∨ ∃ abi ∈ working, Advert.Belongs abi (.abi (strip x)) := by
  rcases mem_native64 hx with hx | ⟨hworking, rfl⟩
  · exact Or.inl (native_abis_advertised horiginal (by decide) (by decide) hx harm)
  · have hbelongs : strip Abi.arm64_v8a.name = Abi.arm64_v8a.name := by decide
    exact Or.inr ⟨.arm64_v8a, hworking, hbelongs⟩

theorem native32_advertised {original : List Str} {m : Manifest} {working : List Abi}
    (horiginal : m.original_properties = parse_properties original) (hx : x ∈ native32 m working)
    (harm : strip x ∈ arm_abis) :
    Advertises original (.abi (strip x)) ∨ ∃ abi ∈ working, Advert.Belongs abi (.abi (strip x)) := by
  have hbelongs : ∀ y ∈ [Abi.armeabi_v7a.name, "armeabi".toList],
      strip y = Abi.armeabi_v7a.name ∨ strip y = "armeabi".toList := by decide
  rcases mem_native32 hx with hx | ⟨hworking, hx⟩
  · exact Or.inl (native_abis_advertised horiginal (by decide) (by decide) hx harm)
  · exact Or.inr ⟨.armeabi_v7a, hworking, hbelongs x hx⟩

/-! ## Lists of ABIs -/

/-- An item of a list has no comma. -/
theorem comma_not_mem_splitOn (hx : x ∈ s.splitOn ',') : ',' ∉ x := fun hcomma =>
  absurd (Delimited.not_of_mem_splitOnP hx ',' hcomma) (by decide)

theorem comma_not_mem_native_abis {m : Manifest} {key : Key} {default : String} (hx : x ∈ native_abis m key default) :
    ',' ∉ x := comma_not_mem_splitOn (List.mem_filter.mp hx).1

theorem comma_not_mem_native64 {m : Manifest} {working : List Abi} (hx : x ∈ native64 m working) : ',' ∉ x := by
  rcases mem_native64 hx with hx | ⟨-, rfl⟩
  · exact comma_not_mem_native_abis hx
  · decide

theorem comma_not_mem_native32 {m : Manifest} {working : List Abi} (hx : x ∈ native32 m working) : ',' ∉ x := by
  have harm : ∀ y ∈ [Abi.armeabi_v7a.name, "armeabi".toList], ',' ∉ y := by decide
  rcases mem_native32 hx with hx | ⟨-, hx⟩
  · exact comma_not_mem_native_abis hx
  · exact harm x hx

/-- An item of a list that has been joined is one of it, but for white space. -/
theorem strip_mem_of_join_abis {abis : List Str} (hcomma : ∀ y ∈ abis, ',' ∉ y)
    (hx : x ∈ (strip (join_abis abis)).splitOn ',') (harm : strip x ∈ arm_abis) :
    ∃ y ∈ abis, strip y = strip x := by
  have hmem := strip_mem_of_strip hx
  by_cases hempty : abis = []
  · subst hempty
    have hblank : strip x = [] := by simpa [join_abis, strip, lstrip] using hmem
    rw [hblank] at harm
    exact absurd harm (by decide)
  · rw [join_abis, List.splitOn_intercalate _ hcomma hempty] at hmem
    exact List.mem_map.mp hmem

/-! ## What the overlay advertises -/

theorem Key.name_inj {k k' : Key} (h : k.name = k'.name) : k = k' := by
  have hall : ∀ k ∈ Key.all, ∀ k' ∈ Key.all, k.name = k'.name → k = k' := by decide
  have hmem : ∀ k : Key, k ∈ Key.all := fun k => by cases k <;> decide
  exact hall k (hmem k) k' (hmem k') h

/-- A list that is set has only ABIs of the original text, and those to be advertised. -/
theorem list_advertised {original : List Str} {m : Manifest} {working : List Abi} {key : Key} {value : Str}
    (horiginal : m.original_properties = parse_properties original)
    (hkey : key ∈ [Key.abilist, .abilist32, .abilist64]) (hvalue : property_updates m working key = some value)
    (hx : x ∈ (strip value).splitOn ',') (harm : strip x ∈ arm_abis) :
    Advertises original (.abi (strip x)) ∨ ∃ abi ∈ working, Advert.Belongs abi (.abi (strip x)) := by
  have h64 : ∀ y ∈ native64 m working, strip y = strip x →
      Advertises original (.abi (strip x)) ∨ ∃ abi ∈ working, Advert.Belongs abi (.abi (strip x)) := by
    intro y hy hyx
    rw [← hyx] at harm ⊢
    exact native64_advertised horiginal hy harm
  have h32 : ∀ y ∈ native32 m working, strip y = strip x →
      Advertises original (.abi (strip x)) ∨ ∃ abi ∈ working, Advert.Belongs abi (.abi (strip x)) := by
    intro y hy hyx
    rw [← hyx] at harm ⊢
    exact native32_advertised horiginal hy harm
  have hcases : key = .abilist ∨ key = .abilist32 ∨ key = .abilist64 := by simpa using hkey
  rcases hcases with rfl | rfl | rfl
  · obtain ⟨-, hvalue⟩ := Option.ite_none_left_eq_some.mp hvalue
    cases Option.some.inj hvalue
    have hcomma : ∀ y ∈ native64 m working ++ native32 m working, ',' ∉ y := by
      intro y hy
      rcases List.mem_append.mp hy with hy | hy
      · exact comma_not_mem_native64 hy
      · exact comma_not_mem_native32 hy
    obtain ⟨y, hy, hyx⟩ := strip_mem_of_join_abis hcomma hx harm
    rcases List.mem_append.mp hy with hy | hy
    · exact h64 y hy hyx
    · exact h32 y hy hyx
  · obtain ⟨-, hvalue⟩ := Option.ite_none_left_eq_some.mp hvalue
    cases Option.some.inj hvalue
    obtain ⟨y, hy, hyx⟩ := strip_mem_of_join_abis (fun _ => comma_not_mem_native32) hx harm
    exact h32 y hy hyx
  · obtain ⟨-, hvalue⟩ := Option.ite_none_left_eq_some.mp hvalue
    cases Option.some.inj hvalue
    obtain ⟨y, hy, hyx⟩ := strip_mem_of_join_abis (fun _ => comma_not_mem_native64) hx harm
    exact h64 y hy hyx

/-- The instruction set of ARM is set for an ABI to be advertised. -/
theorem isa_advertised {m : Manifest} {working : List Abi} {key : Key} {value : Str}
    (hkey : "ro.dalvik.vm.isa.arm".toList <+: key.name) (hvalue : property_updates m working key = some value) :
    ∃ abi ∈ working, Advert.Belongs abi (.isa key.name) := by
  have hisa : ∀ key ∈ Key.all, "ro.dalvik.vm.isa.arm".toList <+: key.name → key = .isa_arm ∨ key = .isa_arm64 := by
    decide
  have hmem : key ∈ Key.all := by cases key <;> decide
  rcases hisa key hmem hkey with rfl | rfl
  · obtain ⟨hworking, -⟩ := Option.ite_none_right_eq_some.mp hvalue
    exact ⟨.armeabi_v7a, hworking, rfl⟩
  · obtain ⟨hworking, -⟩ := Option.ite_none_right_eq_some.mp hvalue
    exact ⟨.arm64_v8a, hworking, rfl⟩

theorem assignment_advertised {original : List Str} {m : Manifest} {working : List Abi} {key : Key} {value : Str}
    {a : Advert} (horiginal : m.original_properties = parse_properties original)
    (hvalue : property_updates m working key = some value) (ha : a.In (assignment key value)) :
    Advertises original a ∨ ∃ abi ∈ working, a.Belongs abi := by
  cases a with
  | abi name =>
    obtain ⟨harm, key', hkey', value', hline, hname⟩ := ha
    rw [property_assignment] at hline
    obtain ⟨hkey, rfl⟩ := Prod.mk.inj (Option.some.inj hline)
    cases Key.name_inj hkey
    obtain ⟨x, hx, rfl⟩ := List.mem_map.mp hname
    exact list_advertised horiginal hkey' hvalue hx harm
  | isa name =>
    obtain ⟨hisa, value', hline⟩ := ha
    rw [property_assignment] at hline
    obtain ⟨rfl, -⟩ := Prod.mk.inj (Option.some.inj hline)
    exact Or.inr (isa_advertised hisa hvalue)

theorem not_in_of_property {line : Str} {a : Advert} (hline : property line = none) : ¬a.In line := by
  intro ha
  cases a with
  | abi name =>
    obtain ⟨-, _, -, _, h, -⟩ := ha
    rw [hline] at h
    cases h
  | isa name =>
    obtain ⟨-, _, h⟩ := ha
    rw [hline] at h
    cases h

/-- The overlay advertises what the original text does, and what has been verified. -/
theorem advertises_overlay_text {original : List Str} {m : Manifest} {a : Advert}
    (horiginal : m.original_properties = parse_properties original) (ha : Advertises (overlay_text original m) a) :
    Advertises original a ∨ ∃ abi, m.passed abi = true ∧ a.Belongs abi := by
  obtain ⟨line, hmem, ha⟩ := ha
  rcases mem_merged_property_text hmem with hmem | hline | ⟨key, value, hvalue, rfl⟩
  · exact Or.inl ⟨line, hmem, ha⟩
  · exact absurd ha (not_in_of_property hline)
  · rcases assignment_advertised horiginal hvalue ha with h | ⟨abi, habi, hbelongs⟩
    · exact Or.inl h
    · exact Or.inr ⟨abi, (List.mem_filter.mp habi).2, hbelongs⟩

end AnboxReboxed.Scripts.NativeBridge
