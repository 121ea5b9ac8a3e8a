import AnboxReboxed.Lib.Decimal
import Mathlib.Data.List.Basic
import Mathlib.Data.List.TakeWhile
import Mathlib.Tactic.Common

/-!
# The directives of `scanf`

A directive takes what it matches off the front of the text. There are two ways to fail, which the result of
`scanf` tells apart: the text ends too early, or it goes on with something else.
-/

namespace AnboxReboxed.Lib.Scanf

/-- What a directive does. -/
inductive Scanned (α : Type) where
  /-- An input failure: the text has ended. -/
  | eof
  /-- A matching failure. -/
  | mismatch
  | ok (value : α) (rest : List UInt8)
  deriving DecidableEq

/-- Ordinary characters of the format. -/
def literal : List UInt8 → List UInt8 → Scanned Unit
  | [], text => .ok () text
  | _ :: _, [] => .eof
  | f :: format, c :: text => if c = f then literal format text else .mismatch

/-- `isspace` in the C locale. -/
def isSpace (c : UInt8) : Bool := c == 32 || (9 ≤ c && c ≤ 13)

def isDigit (c : UInt8) : Bool := 48 ≤ c && c ≤ 57

def numeral (digits : List UInt8) : Nat := digits.foldl (fun n d => 10 * n + (d.toNat - 48)) 0

/-- The integer at the front of a text, which is `- digits` if `negative`. -/
def digits (negative : Bool) (text : List UInt8) : Scanned Int :=
  if text.takeWhile isDigit = [] then .mismatch
  else
    let n := numeral (text.takeWhile isDigit)
    .ok (if negative then -(n : Int) else n) (text.dropWhile isDigit)

/-- `%d`, as far as it does not depend on the range of `int`. -/
def decimal (text : List UInt8) : Scanned Int :=
  match text.dropWhile isSpace with
  | [] => .eof
  | c :: text => if c = 45 then digits true text else if c = 43 then digits false text else digits false (c :: text)

/-- The ways to write an integer that `%d` knows. -/
inductive IsDecimal : List UInt8 → Int → Prop where
  | plain {ds : List UInt8} (hne : ds ≠ []) (hds : ∀ d ∈ ds, isDigit d = true) : IsDecimal ds (numeral ds)
  | plus {ds : List UInt8} (hne : ds ≠ []) (hds : ∀ d ∈ ds, isDigit d = true) : IsDecimal (43 :: ds) (numeral ds)
  | minus {ds : List UInt8} (hne : ds ≠ []) (hds : ∀ d ∈ ds, isDigit d = true) :
      IsDecimal (45 :: ds) (-(numeral ds : Int))

/-! ## Ordinary characters -/

@[simp] theorem literal_append (format text : List UInt8) : literal format (format ++ text) = .ok () text := by
  induction format with
  | nil => rfl
  | cons f format ih => rw [List.cons_append, literal, if_pos rfl, ih]

theorem literal_ok {format text rest : List UInt8} {u : Unit} (h : literal format text = .ok u rest) :
    text = format ++ rest := by
  induction format generalizing text with
  | nil => cases h; rfl
  | cons f format ih =>
    cases text with
    | nil => cases h
    | cons c text =>
      rw [literal] at h
      split_ifs at h with hc
      rw [hc, ih h, List.cons_append]

/-- The text ends inside the format exactly when it is a part of it. -/
theorem literal_eof_iff {format text : List UInt8} :
    literal format text = .eof ↔ text <+: format ∧ text ≠ format := by
  induction format generalizing text with
  | nil =>
    constructor
    · intro h
      cases h
    · rintro ⟨hpre, hne⟩
      exact absurd (List.prefix_nil.mp hpre) hne
  | cons f format ih =>
    cases text with
    | nil => exact iff_of_true rfl ⟨List.nil_prefix, (List.cons_ne_nil _ _).symm⟩
    | cons c text =>
      rw [literal, List.cons_prefix_cons]
      split_ifs with hc
      · rw [ih, hc]
        simp
      · refine iff_of_false (fun h => by cases h) ?_
        rintro ⟨⟨hcf, -⟩, -⟩
        exact hc hcf

/-! ## Integers -/

theorem not_isSpace_of_isDigit {c : UInt8} (h : isDigit c = true) : isSpace c = false := by
  simp only [isDigit, Bool.and_eq_true, decide_eq_true_eq, UInt8.le_iff_toNat_le, UInt8.reduceToNat] at h
  simp only [isSpace, Bool.or_eq_false_iff, beq_eq_false_iff_ne, Bool.and_eq_false_iff, decide_eq_false_iff_not,
    UInt8.le_iff_toNat_le, ← UInt8.toNat_inj, ne_eq, UInt8.reduceToNat]
  omega

theorem decimal_spaces {ws : List UInt8} (hws : ∀ c ∈ ws, isSpace c = true) (text : List UInt8) :
    decimal (ws ++ text) = decimal text := by
  unfold decimal
  rw [List.dropWhile_append_of_pos hws]

theorem digits_ne_eof {negative : Bool} {text : List UInt8} : digits negative text ≠ .eof := by
  unfold digits
  split_ifs <;> exact fun h => by cases h

/-- The text ends before an integer exactly when there is nothing but white space. -/
theorem decimal_eof_iff {text : List UInt8} : decimal text = .eof ↔ ∀ c ∈ text, isSpace c = true := by
  rw [← List.dropWhile_eq_nil_iff, decimal]
  cases text.dropWhile isSpace with
  | nil => exact iff_of_true rfl rfl
  | cons c rest =>
    refine iff_of_false ?_ (List.cons_ne_nil _ _)
    dsimp only
    split_ifs <;> exact digits_ne_eof

theorem digits_ok {negative : Bool} {text rest : List UInt8} {n : Int} (h : digits negative text = .ok n rest) :
    ∃ ds, ds ≠ [] ∧ (∀ d ∈ ds, isDigit d = true) ∧ text = ds ++ rest ∧
      n = if negative then -(numeral ds : Int) else numeral ds := by
  unfold digits at h
  by_cases hnil : text.takeWhile isDigit = []
  · rw [if_pos hnil] at h
    cases h
  · rw [if_neg hnil] at h
    cases h
    exact ⟨text.takeWhile isDigit, hnil, fun _ hd => List.mem_takeWhile_imp hd,
      List.takeWhile_append_dropWhile.symm, rfl⟩

theorem digits_append {ds : List UInt8} (negative : Bool) (hne : ds ≠ []) (hds : ∀ d ∈ ds, isDigit d = true)
    (rest : List UInt8) : ∃ n rest', digits negative (ds ++ rest) = .ok n rest' := by
  have hnil : (ds ++ rest).takeWhile isDigit ≠ [] := by
    rw [List.takeWhile_append_of_pos hds]
    exact List.append_ne_nil_of_left_ne_nil hne _
  exact ⟨_, _, if_neg hnil⟩

theorem digits_self {ds : List UInt8} (negative : Bool) (hne : ds ≠ []) (hds : ∀ d ∈ ds, isDigit d = true) :
    digits negative ds = .ok (if negative then -(numeral ds : Int) else numeral ds) [] := by
  have htake : ds.takeWhile isDigit = ds := List.takeWhile_eq_self_iff.mpr hds
  have hdrop : ds.dropWhile isDigit = [] := List.dropWhile_eq_nil_iff.mpr hds
  rw [digits, htake, hdrop, if_neg hne]

/-- What `%d` makes of an integer is what its digits are. -/
theorem decimal_isDecimal {text : List UInt8} {n : Int} (h : IsDecimal text n) (rest : List UInt8) :
    ∃ negative ds, ds ≠ [] ∧ (∀ d ∈ ds, isDigit d = true) ∧
      n = (if negative = true then -(numeral ds : Int) else numeral ds) ∧
      decimal (text ++ rest) = digits negative (ds ++ rest) := by
  cases h with
  | minus hne hds => exact ⟨true, _, hne, hds, rfl, rfl⟩
  | plus hne hds => exact ⟨false, _, hne, hds, rfl, rfl⟩
  | plain hne hds =>
    refine ⟨false, text, hne, hds, rfl, ?_⟩
    obtain ⟨d, ds, rfl⟩ := List.exists_cons_of_ne_nil hne
    have hd : isDigit d = true := hds d List.mem_cons_self
    have hminus : d ≠ 45 := by
      rintro rfl
      cases hd
    have hplus : d ≠ 43 := by
      rintro rfl
      cases hd
    have hdrop : (d :: ds ++ rest).dropWhile isSpace = d :: (ds ++ rest) :=
      List.dropWhile_cons_of_neg (by rw [not_isSpace_of_isDigit hd]; exact Bool.false_ne_true)
    rw [decimal, hdrop]
    dsimp only
    rw [if_neg hminus, if_neg hplus, List.cons_append]

/-- An integer is read, whatever follows it. -/
theorem decimal_append {text : List UInt8} {n : Int} (h : IsDecimal text n) (rest : List UInt8) :
    ∃ m rest', decimal (text ++ rest) = .ok m rest' := by
  obtain ⟨negative, ds, hne, hds, -, hdecimal⟩ := decimal_isDecimal h rest
  rw [hdecimal]
  exact digits_append negative hne hds rest

/-- An integer with nothing behind it is read as it is. -/
theorem decimal_self {text : List UInt8} {n : Int} (h : IsDecimal text n) : decimal text = .ok n [] := by
  obtain ⟨negative, ds, hne, hds, hn, hdecimal⟩ := decimal_isDecimal h []
  rw [List.append_nil, List.append_nil] at hdecimal
  rw [hdecimal, digits_self negative hne hds, hn]

/-- What is read is an integer behind white space. -/
theorem decimal_ok {text rest : List UInt8} {n : Int} (h : decimal text = .ok n rest) :
    ∃ ws t, (∀ c ∈ ws, isSpace c = true) ∧ IsDecimal t n ∧ text = ws ++ (t ++ rest) := by
  refine ⟨text.takeWhile isSpace, ?_⟩
  have htext := List.takeWhile_append_dropWhile (p := isSpace) (l := text)
  have hws : ∀ c ∈ text.takeWhile isSpace, isSpace c = true := fun _ hc => List.mem_takeWhile_imp hc
  have hread : ∃ t, IsDecimal t n ∧ text.dropWhile isSpace = t ++ rest := by
    rw [decimal] at h
    cases hdrop : text.dropWhile isSpace with
    | nil =>
      rw [hdrop] at h
      cases h
    | cons c l =>
      rw [hdrop] at h
      dsimp only at h
      split_ifs at h with hminus hplus
      · obtain ⟨ds, hne, hds, rfl, rfl⟩ := digits_ok h
        exact ⟨45 :: ds, .minus hne hds, by rw [hminus, List.cons_append]⟩
      · obtain ⟨ds, hne, hds, rfl, rfl⟩ := digits_ok h
        exact ⟨43 :: ds, .plus hne hds, by rw [hplus, List.cons_append]⟩
      · obtain ⟨ds, hne, hds, hl, rfl⟩ := digits_ok h
        exact ⟨ds, .plain hne hds, hl⟩
  obtain ⟨t, ht, hdrop⟩ := hread
  exact ⟨t, hws, ht, by rw [← hdrop, htext]⟩

/-- An integer is written in one piece. -/
theorem IsDecimal.forall_mem {text : List UInt8} {n : Int} (h : IsDecimal text n) :
    ∀ c ∈ text, c = 43 ∨ c = 45 ∨ isDigit c = true := by
  cases h with
  | plain hne hds => exact fun c hc => Or.inr (Or.inr (hds c hc))
  | plus hne hds =>
    intro c hc
    rcases List.mem_cons.mp hc with rfl | hc
    · exact Or.inl rfl
    · exact Or.inr (Or.inr (hds c hc))
  | minus hne hds =>
    intro c hc
    rcases List.mem_cons.mp hc with rfl | hc
    · exact Or.inr (Or.inl rfl)
    · exact Or.inr (Or.inr (hds c hc))

/-! ## What `printf` writes -/

/-- The characters of a text, all of them below 256. -/
def bytes (text : List Char) : List UInt8 := text.map fun c => c.toNat.toUInt8

theorem toNat_toUInt8 {c : Char} (h : c.isDigit = true) : c.toNat.toUInt8.toNat = c.toNat := by
  have hc : c.toNat ≤ 57 := (Char.isDigit_iff_toNat.mp h).2
  exact Nat.mod_eq_of_lt (by omega)

theorem isDigit_bytes {text : List Char} (h : ∀ c ∈ text, c.isDigit = true) : ∀ d ∈ bytes text, isDigit d = true := by
  intro d hd
  obtain ⟨c, hc, rfl⟩ := List.mem_map.mp hd
  obtain ⟨hlow, hhigh⟩ := Char.isDigit_iff_toNat.mp (h c hc)
  simp only [isDigit, Bool.and_eq_true, decide_eq_true_eq, UInt8.le_iff_toNat_le, toNat_toUInt8 (h c hc),
    UInt8.reduceToNat]
  exact ⟨hlow, hhigh⟩

theorem numeral_bytes {text : List Char} (h : ∀ c ∈ text, c.isDigit = true) :
    numeral (bytes text) = Nat.ofDigitChars 10 text 0 := by
  unfold numeral bytes
  rw [List.foldl_map, Nat.ofDigitChars_eq_foldl]
  refine List.foldl_ext _ _ _ fun n c hc => ?_
  rw [toNat_toUInt8 (h c hc)]
  rfl

/-- `%d` reads what `%d` writes. -/
theorem isDecimal_toString (i : Int) : IsDecimal (bytes (toString i).toList) i := by
  have hdigits : ∀ n, ∀ c ∈ Nat.toDigits 10 n, c.isDigit = true :=
    fun n c hc => Nat.isDigit_of_mem_toDigits (by decide) (by decide) hc
  have hne : ∀ n, bytes (Nat.toDigits 10 n) ≠ [] := fun n h => Nat.toDigits_ne_nil (List.map_eq_nil_iff.mp h)
  have hvalue : ∀ n, numeral (bytes (Nat.toDigits 10 n)) = n := by
    intro n
    rw [numeral_bytes (hdigits n), Nat.ofDigitChars_toDigits (by decide) (by decide)]
  cases i with
  | ofNat n =>
    rw [Decimal.toList_ofNat]
    have hplain := IsDecimal.plain (hne n) (isDigit_bytes (hdigits n))
    rwa [hvalue n] at hplain
  | negSucc n =>
    rw [Decimal.toList_negSucc]
    have hminus := IsDecimal.minus (hne (n + 1)) (isDigit_bytes (hdigits (n + 1)))
    rwa [hvalue (n + 1)] at hminus

end AnboxReboxed.Lib.Scanf
