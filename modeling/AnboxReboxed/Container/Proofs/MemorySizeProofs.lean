import AnboxReboxed.Container.MemoryConfiguration

/-!
# Proofs: memory sizes

`std::stoull` takes an integer with a sign off the front of the text, so that the sizes with a sign are accepted beside
the documented ones. A normalized limit is read as itself.
-/

namespace AnboxReboxed.Container

open AnboxReboxed.Lib

/-! ## White space and case -/

/-- The text does not begin with white space. -/
def NoLead (text : Text) : Prop := text.dropWhile Scanf.isSpace = text

theorem noLead_cons {c : UInt8} {text : Text} (h : Scanf.isSpace c = false) : NoLead (c :: text) :=
  List.dropWhile_cons_of_neg (by rw [h]; exact Bool.false_ne_true)

theorem isSpace_toLower (c : UInt8) : Scanf.isSpace (toLower c) = Scanf.isSpace c := by
  unfold toLower
  split
  · rename_i h
    have hlow : 65 ≤ c.toNat := h.1
    have hhigh : c.toNat ≤ 90 := h.2
    have hsum : (c + 32).toNat = c.toNat + 32 := by
      rw [UInt8.toNat_add]
      show (c.toNat + 32) % 256 = _
      omega
    have hno (d : UInt8) (hd : 65 ≤ d.toNat) : Scanf.isSpace d = false := by
      simp only [Scanf.isSpace, Bool.or_eq_false_iff, beq_eq_false_iff_ne, Bool.and_eq_false_iff,
        decide_eq_false_iff_not, UInt8.le_iff_toNat_le, ← UInt8.toNat_inj, ne_eq, UInt8.reduceToNat]
      omega
    rw [hno c hlow, hno (c + 32) (by omega)]
  · rfl

theorem dropWhile_lower (text : Text) :
    (lower text).dropWhile Scanf.isSpace = lower (text.dropWhile Scanf.isSpace) := by
  unfold lower
  rw [List.dropWhile_map]
  congr 1
  exact congrArg (fun p => text.dropWhile p) (funext isSpace_toLower)

theorem noLead_trim (text : Text) : NoLead (trim text) := by
  unfold NoLead trim
  generalize hdropped : text.dropWhile Scanf.isSpace = dropped
  cases hkept : (dropped.reverse.dropWhile Scanf.isSpace).reverse with
  | nil => rfl
  | cons c kept =>
    -- The first character that is kept is the first one of `dropped`.
    have hsuffix : dropped.reverse.dropWhile Scanf.isSpace <:+ dropped.reverse := List.dropWhile_suffix _
    have hhead : c :: kept <+: dropped := by
      have hprefix := List.reverse_prefix.2 hsuffix
      rwa [List.reverse_reverse, hkept] at hprefix
    obtain ⟨rest, hrest⟩ := hhead
    have hc : Scanf.isSpace c = false := by
      have hne : text.dropWhile Scanf.isSpace ≠ [] := by
        rw [hdropped, ← hrest]
        exact List.cons_ne_nil _ _
      have hnot := List.head_dropWhile_not Scanf.isSpace hne
      simpa [hdropped, ← hrest] using hnot
    exact noLead_cons hc

theorem noLead_value (input : Text) : NoLead (lower (trim input)) := by
  unfold NoLead
  rw [dropWhile_lower, noLead_trim]

/-! ## Suffixes -/

theorem multiplier_eq_some_iff {suffix : Text} {m : Nat} : multiplier suffix = some m ↔ (suffix, m) ∈ suffixes := by
  constructor
  · intro h
    unfold multiplier at h
    split_ifs at h with h1 hk hm hg ht
    · cases h
      rcases h1 with rfl | rfl <;> decide
    · cases h
      rcases hk with rfl | rfl | rfl <;> decide
    · cases h
      rcases hm with rfl | rfl | rfl <;> decide
    · cases h
      rcases hg with rfl | rfl | rfl <;> decide
    · cases h
      rcases ht with rfl | rfl | rfl <;> decide
  · have hall : ∀ entry ∈ suffixes, multiplier entry.1 = some entry.2 := by decide
    exact fun h => hall _ h

theorem multiplier_pos {suffix : Text} {m : Nat} (h : (suffix, m) ∈ suffixes) : 0 < m := by
  have hall : ∀ entry ∈ suffixes, 0 < entry.2 := by decide
  exact hall _ h

/-- A suffix does not go on with the number. -/
theorem takeWhile_suffix {suffix : Text} {m : Nat} (h : (suffix, m) ∈ suffixes) :
    suffix.takeWhile Scanf.isDigit = [] := by
  have hall : ∀ entry ∈ suffixes, entry.1.takeWhile Scanf.isDigit = [] := by decide
  exact hall _ h

/-! ## The number -/

theorem digits_append_suffix {ds suffix : Text} {m : Nat} (negative : Bool) (hne : ds ≠ [])
    (hds : ∀ d ∈ ds, Scanf.isDigit d = true) (h : (suffix, m) ∈ suffixes) :
    Scanf.digits negative (ds ++ suffix)
      = .ok (if negative then -(Scanf.numeral ds : Int) else Scanf.numeral ds) suffix := by
  have htake : (ds ++ suffix).takeWhile Scanf.isDigit = ds := by
    rw [List.takeWhile_append_of_pos hds, takeWhile_suffix h, List.append_nil]
  have hdrop : (ds ++ suffix).dropWhile Scanf.isDigit = suffix := by
    have := List.takeWhile_append_dropWhile (p := Scanf.isDigit) (l := ds ++ suffix)
    rw [htake] at this
    exact List.append_cancel_left this
  rw [Scanf.digits, htake, hdrop, if_neg hne]

/-- What `std::stoull` makes of an integer in front of a suffix. -/
theorem stoull_append {t suffix : Text} {i : Int} {m : Nat} (ht : Scanf.IsDecimal t i) (h : (suffix, m) ∈ suffixes)
    (hrange : i.natAbs < 2 ^ 64) : stoull (t ++ suffix) = some ((i % 2 ^ 64).toNat, suffix) := by
  obtain ⟨negative, ds, hne, hds, rfl, hdecimal⟩ := Scanf.decimal_isDecimal ht suffix
  unfold stoull
  rw [hdecimal, digits_append_suffix negative hne hds h]
  exact if_pos hrange

/-- The number that `std::stoull` returns is an integer at the front of the text. -/
theorem stoull_some {value suffix : Text} {n : Nat} (hlead : NoLead value) (h : stoull value = some (n, suffix)) :
    ∃ t i, Scanf.IsDecimal t i ∧ value = t ++ suffix ∧ i.natAbs < 2 ^ 64 ∧ n = (i % 2 ^ 64).toNat := by
  unfold stoull at h
  cases hdecimal : Scanf.decimal value with
  | eof => simp [hdecimal] at h
  | mismatch => simp [hdecimal] at h
  | ok i rest =>
    simp only [hdecimal, Option.ite_none_right_eq_some, Option.some.injEq, Prod.mk.injEq] at h
    obtain ⟨hrange, rfl, rfl⟩ := h
    obtain ⟨ws, t, hws, ht, hvalue⟩ := Scanf.decimal_ok hdecimal
    have hnone : ws = [] := by
      cases ws with
      | nil => rfl
      | cons c ws =>
        have hdrop := congrArg List.length hlead
        rw [hvalue, List.cons_append, List.dropWhile_cons_of_pos (hws c List.mem_cons_self)] at hdrop
        have hle := (List.dropWhile_suffix Scanf.isSpace (l := ws ++ (t ++ rest))).length_le
        rw [List.length_cons] at hdrop
        omega
    rw [hnone, List.nil_append] at hvalue
    exact ⟨t, i, ht, hvalue, hrange, rfl⟩

/-- The texts that `parse_size` accepts, in the words of `std::stoull`. -/
inductive IsRead (allow_max : Bool) : Text → SizeValue → Prop where
  | max (h : allow_max = true) : IsRead allow_max (.of "max") .max
  | bytes {t suffix : Text} {i : Int} {m : Nat} (ht : Scanf.IsDecimal t i) (hsuffix : (suffix, m) ∈ suffixes)
      (hnumber : i.natAbs < 2 ^ 64) (hrange : (i % 2 ^ 64).toNat * m < 2 ^ 64) :
      IsRead allow_max (t ++ suffix) (.bytes ((i % 2 ^ 64).toNat * m))

/-- An integer begins with a digit or a sign. -/
theorem IsDecimal_head {t : Text} {i : Int} (ht : Scanf.IsDecimal t i) :
    ∃ c rest, t = c :: rest ∧ (c = 43 ∨ c = 45 ∨ Scanf.isDigit c = true) := by
  have hne : t ≠ [] := by
    cases ht with
    | plain hne => exact hne
    | plus => exact List.cons_ne_nil _ _
    | minus => exact List.cons_ne_nil _ _
  obtain ⟨c, rest, rfl⟩ := List.exists_cons_of_ne_nil hne
  exact ⟨c, rest, rfl, ht.forall_mem c List.mem_cons_self⟩

theorem append_ne_max {t : Text} {i : Int} (ht : Scanf.IsDecimal t i) (suffix : Text) : t ++ suffix ≠ .of "max" := by
  obtain ⟨c, rest, rfl, hc⟩ := IsDecimal_head ht
  intro h
  obtain ⟨rfl, -⟩ := List.cons.inj (show c :: (rest ++ suffix) = 109 :: ByteString.of "ax" from h)
  exact absurd hc (by decide)

theorem gt_div_iff {n m : Nat} (hm : 0 < m) : n > (2 ^ 64 - 1) / m ↔ ¬n * m < 2 ^ 64 := by
  rw [gt_iff_lt, ← not_le, Nat.le_div_iff_mul_le hm]
  omega

theorem parse_size_ok_iff (input : Text) (allow_max : Bool) (r : SizeValue) :
    parse_size input allow_max = .ok r ↔ IsRead allow_max (lower (trim input)) r := by
  have hlead := noLead_value input
  unfold parse_size
  generalize lower (trim input) = value at hlead
  dsimp only
  constructor
  · intro h
    split_ifs at h with hmax hempty
    · cases h
      rw [hmax.2]
      exact .max hmax.1
    · cases hstoull : stoull value with
      | none => simp [hstoull] at h
      | some found =>
        obtain ⟨number, suffix⟩ := found
        obtain ⟨t, i, ht, rfl, hnumber, rfl⟩ := stoull_some hlead hstoull
        simp only [hstoull] at h
        cases hmultiplier : multiplier suffix with
        | none => simp [hmultiplier] at h
        | some m =>
          have hsuffix := multiplier_eq_some_iff.1 hmultiplier
          simp only [hmultiplier] at h
          split_ifs at h with hoverflow
          cases h
          exact .bytes ht hsuffix hnumber
            (not_not.1 (mt (gt_div_iff (multiplier_pos hsuffix)).2 hoverflow))
  · intro h
    cases h with
    | max h => rw [if_pos ⟨h, rfl⟩]
    | @bytes t suffix i m ht hsuffix hnumber hrange =>
      have hempty : t ++ suffix ≠ [] := by
        obtain ⟨c, rest, rfl, -⟩ := IsDecimal_head ht
        exact List.cons_ne_nil _ _
      rw [if_neg fun hmax => append_ne_max ht suffix hmax.2, if_neg hempty]
      simp only [stoull_append ht hsuffix hnumber, multiplier_eq_some_iff.2 hsuffix]
      rw [if_neg fun hoverflow => (gt_div_iff (multiplier_pos hsuffix)).1 hoverflow hrange]

/-! ## The grammar -/

/-- A number in the range is what `std::stoull` returns for it. -/
theorem natCast_emod {n : Nat} (h : n < 2 ^ 64) : ((n : Int) % 2 ^ 64).toNat = n := by omega

/-- The product is in the range only if the number is. -/
theorem numeral_lt {n m : Nat} (hm : 0 < m) (h : n * m < 2 ^ 64) : n < 2 ^ 64 :=
  (Nat.le_mul_of_pos_right n hm).trans_lt h

theorem IsSize.isRead {allow_max : Bool} {value : Text} {r : SizeValue} (h : IsSize allow_max value r) :
    IsRead allow_max value r := by
  cases h with
  | max h => exact .max h
  | @bytes ds suffix m hne hds hsuffix hrange =>
    have hnumber := numeral_lt (multiplier_pos hsuffix) hrange
    rw [← natCast_emod hnumber]
    exact .bytes (.plain hne hds) hsuffix (by simpa using hnumber) (by rwa [natCast_emod hnumber])

/-- A size with a sign is read as well. -/
theorem IsSignedSize.isRead {value : Text} (h : IsSignedSize value) (allow_max : Bool) :
    ∃ r, IsRead allow_max value r := by
  cases h with
  | @plus ds suffix m hne hds hsuffix hrange =>
    have hnumber := numeral_lt (multiplier_pos hsuffix) hrange
    exact ⟨_, .bytes (.plus hne hds) hsuffix (by simpa using hnumber) (by rwa [natCast_emod hnumber])⟩
  | @minus ds suffix m hne hds hsuffix hnumber hrange =>
    have hwrapped : ((-(Scanf.numeral ds : Int)) % 2 ^ 64).toNat = (2 ^ 64 - Scanf.numeral ds) % 2 ^ 64 := by omega
    exact ⟨_, .bytes (.minus hne hds) hsuffix (by simpa using hnumber) (by rwa [hwrapped])⟩

/-- What is read is a size, unless there is a sign in front of it. -/
theorem IsRead.isSize_or_isSignedSize {allow_max : Bool} {value : Text} {r : SizeValue}
    (h : IsRead allow_max value r) : IsSize allow_max value r ∨ IsSignedSize value := by
  cases h with
  | max h => exact Or.inl (.max h)
  | @bytes t suffix i m ht hsuffix hnumber hrange =>
    cases ht with
    | plain hne hds =>
      have hn : Scanf.numeral t < 2 ^ 64 := by simpa using hnumber
      rw [natCast_emod hn] at hrange ⊢
      exact Or.inl (.bytes hne hds hsuffix hrange)
    | plus hne hds =>
      have hn := by simpa using hnumber
      rw [natCast_emod hn] at hrange
      exact Or.inr (.plus hne hds hsuffix hrange)
    | @minus ds hne hds =>
      have hn : Scanf.numeral ds < 2 ^ 64 := by simpa using hnumber
      have hwrapped : ((-(Scanf.numeral ds : Int)) % 2 ^ 64).toNat = (2 ^ 64 - Scanf.numeral ds) % 2 ^ 64 := by omega
      rw [hwrapped] at hrange
      exact Or.inr (.minus hne hds hsuffix hn hrange)

/-- No documented size has a sign. -/
theorem IsSize.not_isSignedSize {allow_max : Bool} {value : Text} {r : SizeValue} (h : IsSize allow_max value r) :
    ¬IsSignedSize value := by
  obtain ⟨c, rest, hvalue, hplus, hminus⟩ : ∃ c rest, value = c :: rest ∧ c ≠ 43 ∧ c ≠ 45 := by
    cases h with
    | max => exact ⟨109, ByteString.of "ax", rfl, by decide, by decide⟩
    | @bytes ds suffix m hne hds =>
      obtain ⟨d, ds, rfl⟩ := List.exists_cons_of_ne_nil hne
      have hd : Scanf.isDigit d = true := hds d List.mem_cons_self
      refine ⟨d, ds ++ suffix, rfl, ?_, ?_⟩
      · rintro rfl
        cases hd
      · rintro rfl
        cases hd
  rintro (hsigned | hsigned)
  · exact hplus (List.cons.inj hvalue).1.symm
  · exact hminus (List.cons.inj hvalue).1.symm

/-! ## Normalized limits -/

theorem trim_of_forall {text : Text} (h : ∀ c ∈ text, Scanf.isSpace c = false) : trim text = text := by
  have hdrop {l : Text} (hl : ∀ c ∈ l, Scanf.isSpace c = false) : l.dropWhile Scanf.isSpace = l := by
    rw [List.dropWhile_eq_self_iff]
    intro hlen
    rw [hl _ (List.getElem_mem hlen)]
    exact Bool.false_ne_true
  rw [trim, hdrop h, hdrop fun c hc => h c (List.mem_reverse.1 hc), List.reverse_reverse]

theorem lower_digits {ds : Text} (hds : ∀ d ∈ ds, Scanf.isDigit d = true) : lower ds = ds := by
  refine (List.map_congr_left fun d hd => ?_).trans (List.map_id ds)
  have hdigit := hds d hd
  simp only [Scanf.isDigit, Bool.and_eq_true, decide_eq_true_eq] at hdigit
  refine if_neg fun hupper => ?_
  have hlow : 65 ≤ d.toNat := hupper.1
  have hhigh : d.toNat ≤ 57 := hdigit.2
  omega

theorem isDigit_to_string (n : Nat) : ∀ d ∈ to_string n, Scanf.isDigit d = true := by
  refine Scanf.isDigit_bytes fun c hc => ?_
  rw [Nat.toString_eq_repr, Nat.toList_repr] at hc
  exact Nat.isDigit_of_mem_toDigits (by decide) (by decide) hc

/-- The text of a number is read as that number. -/
theorem parse_size_to_string {n : Nat} (allow_max : Bool) (hn : n < 2 ^ 64) :
    parse_size (to_string n) allow_max = .ok (.bytes n) := by
  have hdecimal : Scanf.IsDecimal (to_string n) n := Scanf.isDecimal_toString (n : Int)
  have hdigits := isDigit_to_string n
  rw [parse_size_ok_iff, trim_of_forall fun d hd => Scanf.not_isSpace_of_isDigit (hdigits d hd), lower_digits hdigits]
  have hread : IsRead allow_max (to_string n ++ []) (.bytes (((n : Int) % 2 ^ 64).toNat * 1)) :=
    .bytes hdecimal (by decide) (by simpa using hn) (by rwa [natCast_emod hn, mul_one])
  rwa [List.append_nil, natCast_emod hn, mul_one] at hread

theorem parse_size_range {input : Text} {allow_max : Bool} {n : Nat} (h : parse_size input allow_max = .ok (.bytes n)) :
    n < 2 ^ 64 := by
  have hread := (parse_size_ok_iff _ _ _).1 h
  generalize lower (trim input) = value at hread
  cases hread with
  | bytes _ _ _ hrange => exact hrange

theorem normalize_limit_ok_iff {input t : Text} :
    normalize_limit input = .ok t ↔ ∃ r, parse_size input true = .ok r ∧ r.text = t := by
  unfold normalize_limit
  cases parse_size input true with
  | error e => simp [Except.map]
  | ok r => simp [Except.map]

/-- A normalized limit is normalized to itself. -/
theorem normalize_limit_normalized {input t : Text} (h : normalize_limit input = .ok t) :
    normalize_limit t = .ok t := by
  obtain ⟨r, hparse, rfl⟩ := normalize_limit_ok_iff.1 h
  refine normalize_limit_ok_iff.2 ⟨r, ?_, rfl⟩
  cases r with
  | max => decide
  | bytes n => exact parse_size_to_string true (parse_size_range hparse)

/-- Exactly on the inputs that are not a size with a sign, `parse_size` accepts the documented sizes and nothing else,
and returns their value. A normalized limit is normalized to itself. -/
theorem parse_size_grammar_iff (input : Text) :
    ((∀ allow_max r, parse_size input allow_max = .ok r ↔ IsSize allow_max (lower (trim input)) r) ∧
      ∀ t, normalize_limit input = .ok t → normalize_limit t = .ok t) ↔ ¬IsSignedSize (lower (trim input)) := by
  constructor
  · rintro ⟨hgrammar, -⟩ hsigned
    obtain ⟨r, hread⟩ := hsigned.isRead false
    exact ((hgrammar false r).1 ((parse_size_ok_iff input false r).2 hread)).not_isSignedSize hsigned
  · intro hunsigned
    refine ⟨fun allow_max r => ⟨fun h => ?_, fun h => (parse_size_ok_iff _ _ _).2 h.isRead⟩,
      fun t => normalize_limit_normalized⟩
    exact ((parse_size_ok_iff _ _ _).1 h).isSize_or_isSignedSize.resolve_right hunsigned

/-- Both signs are accepted, and `-1` is the greatest size. -/
theorem signed_size_accepted :
    ¬∀ input allow_max r, parse_size input allow_max = .ok r ↔ IsSize allow_max (lower (trim input)) r := by
  intro h
  have hminus : IsSize true (.of "-1") (.bytes (2 ^ 64 - 1)) := (h (.of "-1") true _).1 (by decide +kernel)
  have hsigned : IsSignedSize (45 :: ByteString.of "1" ++ []) :=
    .minus (m := 1) (by decide) (List.all_eq_true.1 (by decide)) (by decide) (by decide) (by decide)
  exact hminus.not_isSignedSize hsigned

end AnboxReboxed.Container
