import Mathlib.Data.List.SplitOn
import Mathlib.Tactic.Linarith

/-!
# Decimal integers as text

Reading an integer from its digits, with a minus sign in front of a negative one, and several of them from the fields
of a line.
-/

namespace AnboxReboxed.Lib.Decimal

def parseNat (text : List Char) : Option Nat :=
  if text ≠ [] ∧ text.all Char.isDigit then some (Nat.ofDigitChars 10 text 0) else none

def parse : List Char → Option Int
  | '-' :: text => (parseNat text).map fun n => -(n : Int)
  | text => (parseNat text).map fun n => (n : Int)

theorem parseNat_toDigits (n : Nat) : parseNat (Nat.toDigits 10 n) = some n := by
  have hdigits : (Nat.toDigits 10 n).all Char.isDigit = true :=
    List.all_eq_true.mpr fun c hc => Nat.isDigit_of_mem_toDigits (by decide) (by decide) hc
  rw [parseNat, if_pos ⟨Nat.toDigits_ne_nil, hdigits⟩, Nat.ofDigitChars_toDigits (by decide) (by decide)]

theorem toList_negSucc (n : Nat) : (toString (Int.negSucc n)).toList = '-' :: Nat.toDigits 10 (n + 1) := by
  show ("-" ++ Nat.repr (n + 1)).toList = _
  rw [String.toList_append, Nat.toList_repr]
  rfl

theorem toList_ofNat (n : Nat) : (toString (Int.ofNat n)).toList = Nat.toDigits 10 n := Nat.toList_repr

theorem parse_of_digits {text : List Char} (h : ∀ c ∈ text, c.isDigit = true) :
    parse text = (parseNat text).map fun n => (n : Int) := by
  rw [parse]
  rintro rest rfl
  exact absurd (h '-' List.mem_cons_self) (by decide)

/-- What is written is read back. -/
theorem parse_toString (i : Int) : parse (toString i).toList = some i := by
  cases i with
  | ofNat n =>
    rw [toList_ofNat, parse_of_digits fun c hc => Nat.isDigit_of_mem_toDigits (by decide) (by decide) hc,
      parseNat_toDigits]
    rfl
  | negSucc n =>
    rw [toList_negSucc, parse, parseNat_toDigits]
    rfl

/-- An integer is written without blanks. -/
theorem not_mem_toString {c : Char} (hdigit : c.isDigit = false) (hminus : c ≠ '-') (i : Int) :
    c ∉ (toString i).toList := by
  have hdigits : ∀ n, c ∉ Nat.toDigits 10 n := by
    intro n hc
    have := Nat.isDigit_of_mem_toDigits (by decide) (by decide) hc
    exact Bool.noConfusion (hdigit.symm.trans this)
  cases i with
  | ofNat n =>
    rw [toList_ofNat]
    exact hdigits n
  | negSucc n =>
    rw [toList_negSucc, List.mem_cons, not_or]
    exact ⟨hminus, hdigits (n + 1)⟩

/-- The integers of a line that has a blank between two of them. -/
def parseFields (text : List Char) : Option (List Int) := (text.splitOn ' ').mapM parse

theorem parseFields_intercalate {is : List Int} (h : is ≠ []) :
    parseFields ([' '].intercalate (is.map fun i => (toString i).toList)) = some is := by
  have hblank : ∀ l ∈ is.map (fun i => (toString i).toList), ' ' ∉ l := by
    intro l hl
    obtain ⟨i, -, rfl⟩ := List.mem_map.mp hl
    exact not_mem_toString (by decide) (by decide) i
  have hne : is.map (fun i => (toString i).toList) ≠ [] := by
    rw [ne_eq, List.map_eq_nil_iff]
    exact h
  rw [parseFields, List.splitOn_intercalate ' ' hblank hne]
  clear hblank hne h
  induction is with
  | nil => rfl
  | cons i is ih => rw [List.map_cons, List.mapM_cons, parse_toString, Option.bind_eq_bind, Option.bind_some, ih]; rfl

end AnboxReboxed.Lib.Decimal

/-!
## Hexadecimal numbers as text

Lower-case digits, the most significant first. A reader takes digits of either case and stops at the
first byte that is none.
-/

namespace AnboxReboxed.Lib

/-- `0` to `9` and `a` to `f`. -/
def hexDigit (d : Nat) : UInt8 := if d < 10 then (48 + d).toUInt8 else (87 + d).toUInt8

def hexValue (b : UInt8) : Option Nat :=
  if 48 ≤ b ∧ b ≤ 57 then some (b.toNat - 48)
  else if 97 ≤ b ∧ b ≤ 102 then some (b.toNat - 87)
  else if 65 ≤ b ∧ b ≤ 70 then some (b.toNat - 55)
  else none

def hexDigits (n : Nat) : List UInt8 :=
  if n < 16 then [hexDigit n] else hexDigits (n / 16) ++ [hexDigit (n % 16)]
termination_by n
decreasing_by omega

/-- With zeros before the number, up to `width`. -/
def paddedHex (width n : Nat) : List UInt8 :=
  List.replicate (width - (hexDigits n).length) (hexDigit 0) ++ hexDigits n

/-- The number that the digits in front make up, behind those of `n`. -/
def readHex (n : Nat) : List UInt8 → Nat
  | [] => n
  | b :: bs =>
    match hexValue b with
    | some d => readHex (n * 16 + d) bs
    | none => n

theorem hexValue_hexDigit {d : Nat} (hd : d < 16) : hexValue (hexDigit d) = some d := by
  have hall : ∀ d : Fin 16, hexValue (hexDigit d) = some d.val := by decide
  exact hall ⟨d, hd⟩

theorem readHex_hexDigit {d : Nat} (hd : d < 16) (n : Nat) (l : List UInt8) :
    readHex n (hexDigit d :: l) = readHex (n * 16 + d) l := by
  rw [readHex, hexValue_hexDigit hd]

/-- Every byte is a digit. -/
def AllHex (l : List UInt8) : Prop := ∀ b ∈ l, ∃ d < 16, b = hexDigit d

theorem readHex_append {l : List UInt8} (hl : AllHex l) (m : List UInt8) :
    ∀ n, readHex n (l ++ m) = readHex (readHex n l) m := by
  induction l with
  | nil => exact fun _ => rfl
  | cons b l ih =>
    intro n
    obtain ⟨d, hd, rfl⟩ := hl b List.mem_cons_self
    rw [List.cons_append, readHex_hexDigit hd, readHex_hexDigit hd]
    exact ih (fun b hb => hl b (List.mem_cons_of_mem _ hb)) _

theorem allHex_hexDigits (n : Nat) : AllHex (hexDigits n) := by
  induction n using Nat.strongRecOn with
  | ind n ih =>
    intro b hb
    rw [hexDigits] at hb
    split_ifs at hb with hn
    · exact ⟨n, hn, List.mem_singleton.mp hb⟩
    · rcases List.mem_append.mp hb with hb | hb
      · exact ih (n / 16) (by omega) b hb
      · exact ⟨n % 16, by omega, List.mem_singleton.mp hb⟩

theorem readHex_hexDigits (n : Nat) : readHex 0 (hexDigits n) = n := by
  induction n using Nat.strongRecOn with
  | ind n ih =>
    rw [hexDigits]
    split_ifs with hn
    · rw [readHex_hexDigit hn]
      simp [readHex]
    · rw [readHex_append (allHex_hexDigits _), ih (n / 16) (by omega), readHex_hexDigit (by omega)]
      simp only [readHex]
      omega

theorem allHex_paddedHex (width n : Nat) : AllHex (paddedHex width n) := by
  intro b hb
  rcases List.mem_append.mp hb with hb | hb
  · exact ⟨0, by omega, List.eq_of_mem_replicate hb⟩
  · exact allHex_hexDigits n b hb

/-- A padded number is read back. -/
theorem readHex_paddedHex (width n : Nat) : readHex 0 (paddedHex width n) = n := by
  have hzeros : ∀ k, readHex 0 (List.replicate k (hexDigit 0)) = 0 := by
    intro k
    induction k with
    | zero => rfl
    | succ k ih =>
      rw [List.replicate_succ, readHex_hexDigit (by omega)]
      exact ih
  have hpad : AllHex (List.replicate (width - (hexDigits n).length) (hexDigit 0)) :=
    fun b hb => ⟨0, by omega, List.eq_of_mem_replicate hb⟩
  rw [paddedHex, readHex_append hpad, hzeros, readHex_hexDigits]

theorem length_hexDigits {n width : Nat} (hn : n < 16 ^ (width + 1)) : (hexDigits n).length ≤ width + 1 := by
  induction width generalizing n with
  | zero =>
    rw [hexDigits, if_pos (by omega)]
    exact Nat.le_refl 1
  | succ width ih =>
    rw [hexDigits]
    split_ifs
    · simp
    · have hdiv : n / 16 < 16 ^ (width + 1) := by
        apply Nat.div_lt_of_lt_mul
        rw [Nat.pow_succ, Nat.mul_comm] at hn
        exact hn
      have hlen := ih hdiv
      rw [List.length_append, List.length_singleton]
      omega

/-- A number that fits is padded to exactly the width. -/
theorem length_paddedHex {n : Nat} (width : Nat) (hn : n < 16 ^ (width + 1)) :
    (paddedHex (width + 1) n).length = width + 1 := by
  have hlen := length_hexDigits hn
  rw [paddedHex, List.length_append, List.length_replicate]
  omega

end AnboxReboxed.Lib
