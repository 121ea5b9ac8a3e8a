import Mathlib.Tactic.Linarith

/-!
# JSON values and their texts

A text is a list of code points, and a surrogate may stand alone in it. A value is written without blanks; how a code
point of a string is written is up to the writer.
-/

namespace AnboxReboxed.Lib

inductive Json where
  | null
  | bool (b : Bool)
  | int (n : Int)
  /-- A number that is not whole, as it is written. -/
  | float (zero : Bool) (repr : List Nat)
  | str (s : List Nat)
  | list (items : List Json)
  | dict (fields : List (List Nat × Json))

namespace Json

/-- The code points of a text. -/
def codes (text : String) : List Nat := text.toList.map Char.toNat

def hex (d : Nat) : Nat := if d < 10 then 48 + d else 87 + d

/-- A code unit as `\uXXXX`. -/
def escapeUnit (n : Nat) : List Nat := [92, 117, hex (n / 4096), hex (n / 256 % 16), hex (n / 16 % 16), hex (n % 16)]

/-- The short escapes for a quotation mark, a backslash and the common control characters. -/
def shortEscape (c : Nat) : Option (List Nat) :=
  if c = 34 ∨ c = 92 then some [92, c]
  else if c = 10 then some [92, 110]
  else if c = 13 then some [92, 114]
  else if c = 9 then some [92, 116]
  else if c = 12 then some [92, 102]
  else if c = 8 then some [92, 98]
  else none

/-- A code point in ASCII: two surrogates stand for one that does not fit a code unit. -/
def escapeAscii (c : Nat) : List Nat :=
  match shortEscape c with
  | some text => text
  | none =>
    if 32 ≤ c ∧ c ≤ 126 then [c]
    else if c < 0x10000 then escapeUnit c
    else escapeUnit (0xD800 + (c - 0x10000) / 0x400) ++ escapeUnit (0xDC00 + (c - 0x10000) % 0x400)

/-- A code point in UTF-8, with a question mark for a surrogate. -/
def utf8 (c : Nat) : List Nat :=
  if c < 0x80 then [c]
  else if c < 0x800 then [0xC0 + c / 64, 0x80 + c % 64]
  else if 0xD800 ≤ c ∧ c ≤ 0xDFFF then [63]
  else if c < 0x10000 then [0xE0 + c / 4096, 0x80 + c / 64 % 64, 0x80 + c % 64]
  else [0xF0 + c / 262144, 0x80 + c / 4096 % 64, 0x80 + c / 64 % 64, 0x80 + c % 64]

/-- A code point in UTF-8, where a slash is escaped, too. -/
def escapeUtf8 (c : Nat) : List Nat :=
  match shortEscape c with
  | some text => text
  | none => if c = 47 then [92, 47] else if c < 32 then escapeUnit c else utf8 c

section

variable (escape : Nat → List Nat)

def quote (s : List Nat) : List Nat := 34 :: s.flatMap escape ++ [34]

mutual

def render : Json → List Nat
  | .null => codes "null"
  | .bool b => codes (if b then "true" else "false")
  | .int n => codes (toString n)
  | .float _ repr => repr
  | .str s => quote escape s
  | .list items => 91 :: [44].intercalate (renderItems items) ++ [93]
  | .dict fields => 123 :: [44].intercalate (renderFields fields) ++ [125]

def renderItems : List Json → List (List Nat)
  | [] => []
  | v :: items => render v :: renderItems items

def renderFields : List (List Nat × Json) → List (List Nat)
  | [] => []
  | (key, v) :: fields => (quote escape key ++ 58 :: render v) :: renderFields fields

end

/-- How long the text of a value is. -/
def size (v : Json) : Nat := (render escape v).length

/-- How long a string is between its quotation marks. -/
def escaped (s : List Nat) : Nat := (s.flatMap escape).length

theorem length_intercalate (separator : Nat) (texts : List (List Nat)) (h : texts ≠ []) :
    ([separator].intercalate texts).length + 1 = (texts.map fun t => t.length + 1).sum := by
  induction texts with
  | nil => exact absurd rfl h
  | cons t texts ih =>
    cases texts with
    | nil => simp [List.intercalate]
    | cons t' texts =>
      have ih := ih (List.cons_ne_nil _ _)
      rw [List.intercalate_cons_cons, List.map_cons, List.sum_cons, ← ih]
      simp only [List.length_append, List.length_singleton]
      omega

theorem length_quote (s : List Nat) : (quote escape s).length = escaped escape s + 2 := by
  simp [quote, escaped]

theorem size_str (s : List Nat) : size escape (.str s) = escaped escape s + 2 := by
  rw [size, render, length_quote]

theorem renderFields_eq (fields : List (List Nat × Json)) :
    renderFields escape fields = fields.map fun f => quote escape f.1 ++ 58 :: render escape f.2 := by
  induction fields with
  | nil => rw [renderFields, List.map_nil]
  | cons f fields ih => rw [renderFields, ih, List.map_cons]

/-- Each field has its key in quotation marks and a colon, and a comma or the closing brace behind it. -/
theorem size_dict (fields : List (List Nat × Json)) :
    size escape (.dict fields) =
      max 2 (1 + (fields.map fun f => escaped escape f.1 + size escape f.2 + 4).sum) := by
  rw [size, render, renderFields_eq]
  cases fields with
  | nil => rfl
  | cons f fields =>
    have h := length_intercalate 44 ((f :: fields).map fun f => quote escape f.1 ++ 58 :: render escape f.2)
      (List.cons_ne_nil _ _)
    rw [List.map_map] at h
    have hle : 4 ≤ ((f :: fields).map fun f => escaped escape f.1 + size escape f.2 + 4).sum := by
      rw [List.map_cons, List.sum_cons]
      omega
    have hsum : ((f :: fields).map
        ((fun t : List Nat => t.length + 1) ∘ fun f => quote escape f.1 ++ 58 :: render escape f.2)).sum =
      ((f :: fields).map fun f => escaped escape f.1 + size escape f.2 + 4).sum := by
      congr 1
      apply List.map_congr_left
      intro f _
      rw [Function.comp_apply, List.length_append, length_quote, List.length_cons, size]
      omega
    rw [List.length_append, List.length_cons, List.length_singleton]
    omega

theorem escaped_append (s t : List Nat) : escaped escape (s ++ t) = escaped escape s + escaped escape t := by
  rw [escaped, List.flatMap_append, List.length_append, escaped, escaped]

end

end Json

end AnboxReboxed.Lib
