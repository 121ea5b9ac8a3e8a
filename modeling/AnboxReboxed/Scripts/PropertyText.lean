import AnboxReboxed.Lib.Delimited
import AnboxReboxed.Scripts.PropertyOverlay

/-!
# The text of the property overlay

The overlay and the file that it stands for, with their lines as Python splits and joins them. In the overlay the
properties of the file are kept, the lists of ABIs are those of the file with what has been verified behind it, and the
rest says how to run it.
-/

namespace AnboxReboxed.Scripts.NativeBridge

open AnboxReboxed.Lib

/-- Where `str.splitlines` ends a line. -/
def is_break (c : Char) : Bool :=
  let n := c.toNat
  (10 ≤ n && n ≤ 13) || (28 ≤ n && n ≤ 30) || n == 0x85 || n == 0x2028 || n == 0x2029

/-- Two characters end one line. -/
def crlf : Str → Str
  | '\r' :: '\n' :: text => '\n' :: crlf text
  | c :: text => c :: crlf text
  | [] => []

/-- `str.splitlines` -/
def splitlines (text : Str) : List Str := Delimited.lines is_break (crlf text)

/-- `"\n".join(output) + "\n"` -/
def joined (output : List Str) : Str := ['\n'].intercalate output ++ ['\n']

def parse_text (text : Str) : Str → Option Str := parse_properties (splitlines text)

def merged_text (original : Str) (updates : Updates) : Str :=
  joined (merged_property_text (splitlines original) updates)

def overlay (original : Str) (m : Manifest) : Str := merged_text original (property_updates m (verified_abis m))

/-! ## What the overlay is for -/

/-- The ABIs in the value of a list. -/
def listed (value : Str) : List Str := ((value.splitOn ',').map strip).filter (· ≠ [])

/-- The ABIs in a list of the text, and the default if there is no list. -/
def abis (text : Str) (key : Key) (default : String) : List Str :=
  listed ((parse_text text key.name).getD default.toList)

/-- Every line for the key has the key directly in front of the `=`. -/
def Plain (original : Str) (key : Key) : Prop :=
  ∀ line ∈ splitlines original, ∀ value, property line = some (key.name, value) → line_key line = some key

/-- The ABIs of `base` in their order, and behind them names of an ABI that has been verified, which is one of them
then. -/
def Extends (m : Manifest) (abi : Abi) (names base abis : List Str) : Prop :=
  (∃ added, abis = base ++ added ∧ ∀ name ∈ added, m.passed abi = true ∧ name ∈ names) ∧
    (m.passed abi = true → abi.name ∈ abis)

def Extends64 (original : Str) (m : Manifest) : List Str → Prop :=
  Extends m .arm64_v8a [Abi.arm64_v8a.name] (abis original .abilist64 "x86_64")

/-- With `armeabi-v7a` there is its predecessor. -/
def Extends32 (original : Str) (m : Manifest) : List Str → Prop :=
  Extends m .armeabi_v7a [Abi.armeabi_v7a.name, "armeabi".toList] (abis original .abilist32 "x86")

/-- What an overlay has to say. The lists are there once an ABI has been verified. -/
structure IsOverlay (original : Str) (m : Manifest) (text : Str) : Prop where
  others : ∀ key, key ∉ Key.all.map Key.name → parse_text text key = parse_text original key
  abilist64 : verified_abis m ≠ [] → Plain original .abilist64 →
    ∃ value, parse_text text Key.abilist64.name = some value ∧ Extends64 original m (listed value)
  abilist32 : verified_abis m ≠ [] → Plain original .abilist32 →
    ∃ value, parse_text text Key.abilist32.name = some value ∧ Extends32 original m (listed value)
  abilist : verified_abis m ≠ [] → Plain original .abilist →
    ∃ value abis64 abis32, parse_text text Key.abilist.name = some value ∧ listed value = abis64 ++ abis32 ∧
      Extends64 original m abis64 ∧ Extends32 original m abis32
  native_bridge : Plain original .native_bridge → parse_text text Key.native_bridge.name = some m.translator
  isa_arm64 : Plain original .isa_arm64 →
    ((parse_text text Key.isa_arm64.name).isSome = true ↔ m.passed .arm64_v8a = true)
  isa_arm : Plain original .isa_arm →
    ((parse_text text Key.isa_arm.name).isSome = true ↔ m.passed .armeabi_v7a = true)
  again : parse_text (merged_text text (property_updates m (verified_abis m))) = parse_text text

end AnboxReboxed.Scripts.NativeBridge
