import AnboxReboxed.Application.LauncherStorage
import AnboxReboxed.Lib.Delimited
import AnboxReboxed.Lib.Scanf
import AnboxReboxed.Lib.Wire
import Mathlib.Data.List.Sort
import Mathlib.Order.WithBot

/-!
# Memory sizes

`parse_size` and `normalize_limit`: a number with a suffix, or `max`. The number is read by `std::stoull`.
-/

namespace AnboxReboxed.Container

open AnboxReboxed.Lib

abbrev Text := ByteString

def trim (text : Text) : Text := ((text.dropWhile Scanf.isSpace).reverse.dropWhile Scanf.isSpace).reverse

/-- `std::tolower` -/
def toLower (c : UInt8) : UInt8 := if 65 ≤ c ∧ c ≤ 90 then c + 32 else c

def lower (text : Text) : Text := text.map toLower

/-- `std::stoull` in base 10: the number and what follows it. A number with a minus sign wraps around; `none` stands for
both exceptions. -/
def stoull (text : Text) : Option (Nat × Text) :=
  match Scanf.decimal text with
  | .ok n suffix => if n.natAbs < 2 ^ 64 then some ((n % 2 ^ 64).toNat, suffix) else none
  | _ => none

/-- The multiplier that a suffix stands for. -/
def multiplier (suffix : Text) : Option Nat :=
  if suffix = [] ∨ suffix = .of "b" then some 1
  else if suffix = .of "k" ∨ suffix = .of "kb" ∨ suffix = .of "kib" then some (2 ^ 10)
  else if suffix = .of "m" ∨ suffix = .of "mb" ∨ suffix = .of "mib" then some (2 ^ 20)
  else if suffix = .of "g" ∨ suffix = .of "gb" ∨ suffix = .of "gib" then some (2 ^ 30)
  else if suffix = .of "t" ∨ suffix = .of "tb" ∨ suffix = .of "tib" then some (2 ^ 40)
  else none

/-- What `parse_size` returns; `max` is the flag `is_max`, with the value 0. -/
inductive SizeValue where
  | max
  | bytes (n : Nat)
  deriving DecidableEq

def parse_size (input : Text) (allow_max : Bool) : Except Text SizeValue :=
  let value := lower (trim input)
  if allow_max ∧ value = .of "max" then .ok .max
  else if value = [] then .error (.of "Empty size value")
  else
    match stoull value with
    | none => .error (.of "Invalid size value '" ++ input ++ .of "'")
    | some (number, suffix) =>
      match multiplier suffix with
      | none => .error (.of "Invalid size suffix in '" ++ input ++ .of "'")
      | some multiplier =>
        if number > (2 ^ 64 - 1) / multiplier then .error (.of "Size value overflows: '" ++ input ++ .of "'")
        else .ok (.bytes (number * multiplier))

/-- `std::to_string` -/
def to_string (n : Nat) : Text := Scanf.bytes (toString n).toList

def SizeValue.text : SizeValue → Text
  | .max => .of "max"
  | .bytes n => to_string n

def normalize_limit (value : Text) : Except Text Text := (parse_size value true).map SizeValue.text

/-! ## The grammar -/

/-- The suffixes that are accepted, with their multipliers. -/
def suffixes : List (Text × Nat) := [
  ([], 1), (.of "b", 1),
  (.of "k", 2 ^ 10), (.of "kb", 2 ^ 10), (.of "kib", 2 ^ 10),
  (.of "m", 2 ^ 20), (.of "mb", 2 ^ 20), (.of "mib", 2 ^ 20),
  (.of "g", 2 ^ 30), (.of "gb", 2 ^ 30), (.of "gib", 2 ^ 30),
  (.of "t", 2 ^ 40), (.of "tb", 2 ^ 40), (.of "tib", 2 ^ 40)]

/-- The sizes as they are documented, without white space around them and in lower case. -/
inductive IsSize (allow_max : Bool) : Text → SizeValue → Prop where
  | max (h : allow_max = true) : IsSize allow_max (.of "max") .max
  | bytes {ds suffix : Text} {m : Nat} (hne : ds ≠ []) (hds : ∀ d ∈ ds, Scanf.isDigit d = true)
      (hsuffix : (suffix, m) ∈ suffixes) (hrange : Scanf.numeral ds * m < 2 ^ 64) :
      IsSize allow_max (ds ++ suffix) (.bytes (Scanf.numeral ds * m))

/-- A size with a sign that is in the range nevertheless: with a minus sign what counts is the number after it has
wrapped around. -/
inductive IsSignedSize : Text → Prop where
  | plus {ds suffix : Text} {m : Nat} (hne : ds ≠ []) (hds : ∀ d ∈ ds, Scanf.isDigit d = true)
      (hsuffix : (suffix, m) ∈ suffixes) (hrange : Scanf.numeral ds * m < 2 ^ 64) : IsSignedSize (43 :: ds ++ suffix)
  | minus {ds suffix : Text} {m : Nat} (hne : ds ≠ []) (hds : ∀ d ∈ ds, Scanf.isDigit d = true)
      (hsuffix : (suffix, m) ∈ suffixes) (hnumber : Scanf.numeral ds < 2 ^ 64)
      (hrange : (2 ^ 64 - Scanf.numeral ds) % 2 ^ 64 * m < 2 ^ 64) : IsSignedSize (45 :: ds ++ suffix)

end AnboxReboxed.Container

/-!
## The memory configuration

A file of lines `key=value`, where the last line of a key counts. Its entries are handed to a handler for each key, and
the configuration that they make is checked in the end.
-/

namespace AnboxReboxed.Container

open AnboxReboxed.Lib
open AnboxReboxed.Application (join)

local instance lawfulBEqText : LawfulBEq Text := inferInstance

/-- `parse_bool` -/
def parse_bool (value : Text) : Except Text Bool :=
  let normalized := lower (trim value)
  if normalized ∈ [.of "1", .of "true", .of "yes", .of "on"] then .ok true
  else if normalized ∈ [.of "0", .of "false", .of "no", .of "off"] then .ok false
  else .error (.of "Invalid boolean value '" ++ value ++ .of "'")

/-! ## The file -/

abbrev Entries := List (Text × Text)

def Entries.put (entries : Entries) (key value : Text) : Entries :=
  entries.filter (fun entry => entry.1 ≠ key) ++ [(key, value)]

/-- The entries in the order of a `std::map`. -/
def Entries.sorted (entries : Entries) : Entries := entries.insertionSort fun a b => a.1 ≤ b.1

def IsComment (line : Text) : Prop := line.head? = some 35 ∨ line.head? = some 59

instance (line : Text) : Decidable (IsComment line) := by unfold IsComment; infer_instance

def equals : UInt8 := 61

def lineError (path : Text) (line_number : Nat) (text : String) : Text :=
  path ++ .of ":" ++ to_string line_number ++ .of text

/-- The body of the loop of `read_config_file`. -/
def read_line (path : Text) (line_number : Nat) (result : Entries) (line : Text) : Except Text Entries :=
  let line := trim line
  if line = [] ∨ IsComment line then .ok result
  else if equals ∉ line then .error (lineError path line_number ": expected key=value")
  else
    let key := trim (line.takeWhile (· ≠ equals))
    let value := trim ((line.dropWhile (· ≠ equals)).drop 1)
    if key = [] then .error (lineError path line_number ": empty key") else .ok (result.put key value)

def read_lines (path : Text) : Nat → Entries → List Text → Except Text Entries
  | _, result, [] => .ok result
  | line_number, result, line :: lines => do
    let result ← read_line path (line_number + 1) result line
    read_lines path (line_number + 1) result lines

/-- The environment, and the files that there are: whether one exists, and what it contains or why it cannot be
opened. -/
structure MemoryHost where
  ANBOX_MEMORY_CONFIG : Text := []
  data_dir : Text
  exist : Text → Bool
  openFile : Text → Except Text Text

def getlines (content : Text) : List Text := Delimited.lines (· == 10) content

def read_config_file (host : MemoryHost) (path : Text) : Except Text Entries :=
  match host.openFile path with
  | .error e => .error (.of "Failed to open memory configuration " ++ path ++ .of ": " ++ e)
  | .ok content => read_lines path 0 [] (getlines content)

/-! ## The configuration -/

structure Configuration where
  swap_enabled : Bool := false
  swap_file : Text := .of "/var/lib/anbox/anbox.swap"
  swap_file_size : Nat := 0
  memory_high : Text := []
  memory_max : Text := []
  memory_swap_max : Text := []
  source : Text := []
  deriving DecidableEq

def SizeValue.value : SizeValue → Nat
  | .max => 0
  | .bytes n => n

namespace Configuration

def handlers : List (Text × (Configuration → Text → Except Text Configuration)) := [
  (.of "android.memory.high", fun c v => return { c with memory_high := ← normalize_limit v }),
  (.of "android.memory.max", fun c v => return { c with memory_max := ← normalize_limit v }),
  (.of "android.memory.swap.max", fun c v => return { c with memory_swap_max := ← normalize_limit v }),
  (.of "android.swap.enabled", fun c v => return { c with swap_enabled := ← parse_bool v }),
  (.of "android.swap.file", fun c v => return { c with swap_file := v }),
  (.of "android.swap.file_size", fun c v => return { c with swap_file_size := (← parse_size v false).value })]

/-- The handler of an entry. -/
def handle (selected : Text) (c : Configuration) (entry : Text × Text) : Except Text Configuration :=
  match handlers.lookup entry.1 with
  | none => .error (.of "Unknown memory configuration key '" ++ entry.1 ++ .of "' in " ++ selected)
  | some handler => handler c entry.2

/-- The checks at the end; `std::stoull` throws when it finds no number. -/
def check (c : Configuration) : Except Text Configuration :=
  if c.swap_file ≠ [] ∧ c.swap_file.head? ≠ some 47 then .error (.of "android.swap.file must be an absolute path")
  else if c.swap_enabled = true ∧ c.swap_file_size = 0 then
    .error (.of "android.swap.enabled=true requires android.swap.file_size")
  else if c.memory_high ≠ [] ∧ c.memory_max ≠ [] ∧ c.memory_high ≠ .of "max" ∧ c.memory_max ≠ .of "max" then
    match stoull c.memory_high, stoull c.memory_max with
    | some (high, _), some (max, _) =>
      if high > max then .error (.of "android.memory.high must not exceed android.memory.max") else .ok c
    | _, _ => .error (.of "stoull")
  else .ok c

end Configuration

def MemoryHost.candidates (host : MemoryHost) : List Text :=
  if host.ANBOX_MEMORY_CONFIG ≠ [] then [host.ANBOX_MEMORY_CONFIG]
  else [.of "/etc/anbox/memory.conf", .of "/var/lib/anbox/memory.conf", join host.data_dir (.of "memory.conf")]

def MemoryHost.selected (host : MemoryHost) : Option Text := host.candidates.find? host.exist

def load_configuration (host : MemoryHost) : Except Text Configuration :=
  match host.selected with
  | none => .ok {}
  | some selected => do
    let values ← read_config_file host selected
    let configuration ← values.sorted.foldlM (Configuration.handle selected) { source := selected }
    configuration.check

/-- What `setter` is called with. -/
def apply_lxc_limits (cgroup_v2 : Bool) (c : Configuration) : Except Text (List (Text × Text)) :=
  if c.memory_high = [] ∧ c.memory_max = [] ∧ c.memory_swap_max = [] then .ok []
  else if cgroup_v2 = false then .error (.of "Configured Anbox Reboxed memory limits require cgroup v2")
  else .ok (
    (if c.memory_high ≠ [] then [(.of "lxc.cgroup2.memory.high", c.memory_high)] else []) ++
    (if c.memory_max ≠ [] then [(.of "lxc.cgroup2.memory.max", c.memory_max)] else []) ++
    (if c.memory_swap_max ≠ [] then [(.of "lxc.cgroup2.memory.swap.max", c.memory_swap_max)] else []))

/-! ## What a text says -/

/-- The line gives the key this value: what is in front of the first `=` is the key, and what is behind it is the value,
without the white space around them. -/
inductive Assigns : Text → Text → Text → Prop where
  | intro {before after : Text} (hcut : equals ∉ before) (hkey : trim before ≠ [])
      (hcomment : ¬IsComment (trim before)) :
      Assigns (before ++ equals :: after) (trim before) (trim after)

/-- The value of the last line with this key. -/
def LastValue (lines : List Text) (key value : Text) : Prop :=
  ∃ before line after, lines = before ++ line :: after ∧ Assigns line key value ∧
    ∀ later ∈ after, ∀ other, ¬Assigns later key other

/-- The lines of the file that is read. -/
def MemoryHost.lines (host : MemoryHost) : List Text :=
  match host.selected.map host.openFile with
  | some (.ok content) => getlines content
  | _ => []

def known_keys : List Text := Configuration.handlers.map Prod.fst

/-- The keys of the limits, with their names for LXC. -/
def limit_names : List (Text × Text) := [
  (.of "android.memory.high", .of "lxc.cgroup2.memory.high"),
  (.of "android.memory.max", .of "lxc.cgroup2.memory.max"),
  (.of "android.memory.swap.max", .of "lxc.cgroup2.memory.swap.max")]

/-- The limit that a text stands for. -/
def limit (text : Text) : WithTop Nat := if text = .of "max" then ⊤ else (Scanf.numeral text : Nat)

structure Configuration.Consistent (c : Configuration) : Prop where
  limits : c.memory_high ≠ [] → c.memory_max ≠ [] → limit c.memory_high ≤ limit c.memory_max
  absolute : c.swap_file.head? = some 47
  swap : c.swap_enabled = true → 0 < c.swap_file_size

/-- Texts that agree on the last value of each known key give the same configuration, wherever they are read from. -/
def MemoryHost.DependsOnLast (host : MemoryHost) (c : Configuration) : Prop :=
  ∀ other c', (∀ key ∈ known_keys, ∀ v, LastValue other.lines key v ↔ LastValue host.lines key v) →
    load_configuration other = .ok c' → { c' with source := c.source } = c

/-- LXC gets the limits that are set, and each of them once. -/
def MemoryHost.Passes (host : MemoryHost) (c : Configuration) : Prop :=
  (∃ calls, apply_lxc_limits true c = .ok calls) ∧
  ∀ cgroup_v2 calls, apply_lxc_limits cgroup_v2 c = .ok calls → (calls.map Prod.fst).Nodup ∧
    ∀ name value, (name, value) ∈ calls ↔
      ∃ key v, (key, name) ∈ limit_names ∧ LastValue host.lines key v ∧ normalize_limit v = .ok value

/-- What the checks leave out does not happen: a high limit `max` comes with the maximum `max` if there is one, and the
swap file is not empty. -/
structure Orderly (lines : List Text) : Prop where
  max : ∀ v w, LastValue lines (.of "android.memory.high") v → LastValue lines (.of "android.memory.max") w →
    lower (trim v) = .of "max" → lower (trim w) = .of "max"
  swap_file : ¬LastValue lines (.of "android.swap.file") []

end AnboxReboxed.Container
