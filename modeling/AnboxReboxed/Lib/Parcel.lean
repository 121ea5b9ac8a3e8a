import Mathlib.Data.UInt
import Mathlib.Tactic.Linarith

/-!
# Parcels

A parcel is a stream of words of 32 bits, of which this is the part that is not yet read. A text is its length and its
units of 16 bits with a zero behind them, an array of bytes its length and the bytes, both filled up to whole words.
What cannot be read is 0 or empty, and nothing is skipped for it.
-/

namespace AnboxReboxed.Lib

abbrev Parcel := List UInt32

namespace Parcel

/-! ## Words -/

/-- Two units or fewer to the word, the first one in the low half. -/
def packUnits : List UInt16 → Parcel
  | [] => []
  | [a] => [.ofNat a.toNat]
  | a :: b :: units => .ofNat (a.toNat + 65536 * b.toNat) :: packUnits units

def unpackUnits : Parcel → List UInt16
  | [] => []
  | w :: p => .ofNat w.toNat :: .ofNat (w.toNat / 65536) :: unpackUnits p

/-- Four bytes or fewer to the word. -/
def packBytes : List UInt8 → Parcel
  | [] => []
  | [a] => [.ofNat a.toNat]
  | [a, b] => [.ofNat (a.toNat + 256 * b.toNat)]
  | [a, b, c] => [.ofNat (a.toNat + 256 * (b.toNat + 256 * c.toNat))]
  | a :: b :: c :: d :: bytes =>
    .ofNat (a.toNat + 256 * (b.toNat + 256 * (c.toNat + 256 * d.toNat))) :: packBytes bytes

def unpackBytes : Parcel → List UInt8
  | [] => []
  | w :: p =>
    .ofNat w.toNat :: .ofNat (w.toNat / 256) :: .ofNat (w.toNat / 65536) :: .ofNat (w.toNat / 16777216) ::
      unpackBytes p

def readWord : Parcel → UInt32 × Parcel
  | [] => (0, [])
  | w :: p => (w, p)

/-- The words that hold `size` bytes. -/
def readInplace (size : Nat) (p : Parcel) : Option (Parcel × Parcel) :=
  if (size + 3) / 4 ≤ p.length then some (p.take ((size + 3) / 4), p.drop ((size + 3) / 4)) else none

def INT32_MAX : Nat := 2 ^ 31 - 1

/-- A length that is negative, or too large, stands for no text. -/
def readString16 (p : Parcel) : List UInt16 × Parcel :=
  let (size, p) := readWord p
  if size.toNat < INT32_MAX then
    match readInplace (2 * (size.toNat + 1)) p with
    | some (words, p) => ((unpackUnits words).take size.toNat, p)
    | none => ([], p)
  else ([], p)

def readByteVector (p : Parcel) : List UInt8 × Parcel :=
  let (size, p) := readWord p
  if size.toNat ≤ INT32_MAX then
    match readInplace size.toNat p with
    | some (words, p) => ((unpackBytes words).take size.toNat, p)
    | none => ([], p)
  else ([], p)

def writeInt (n : Nat) : Parcel := [.ofNat n]

def writeString : Option (List UInt16) → Parcel
  | none => [0xffffffff]
  | some units => writeInt units.length ++ packUnits (units ++ [0])

def writeByteArray (bytes : List UInt8) : Parcel := writeInt bytes.length ++ packBytes bytes

variable {n : Nat}

end Parcel

end AnboxReboxed.Lib
