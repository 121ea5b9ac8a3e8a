import AnboxReboxed.Lib.Decimal

/-!
# `QemudMessageProcessor`

Commands of the Android side, each behind a header of four hexadecimal digits with its length. What is
done with a command is left to the classes that derive from this one.
-/

namespace AnboxReboxed.Qemu

open AnboxReboxed.Lib

abbrev Bytes := List UInt8

/-- A text of the source. -/
def ascii (text : String) : Bytes := text.toList.map fun c => c.toNat.toUInt8

def header_size : Nat := 4

/-- `std::snprintf(header, header_size + 1, "%04zx", size)`, which writes no more than four characters. -/
def header (size : Nat) : Bytes := (paddedHex 4 size).take header_size

/-- What `%x` reads: `0x` may stand before the digits, and a number with a minus is taken modulo `2 ^ 32`. -/
def scanHex (text : Bytes) : Nat :=
  if text.take 2 = [48, 120] ∨ text.take 2 = [48, 88] then readHex 0 (text.drop 2) else readHex 0 text

/-- `sscanf(header, "%04x", &body_size)`. White space, behind which it would read past the header, counts
as no number. -/
def scanHeader (text : Bytes) : Nat :=
  if text.head? = some 45 then (2 ^ 32 - scanHex text.tail) % 2 ^ 32
  else if text.head? = some 43 then scanHex text.tail
  else scanHex text

structure QemudMessageProcessor where
  buffer_ : Bytes := []
  /-- What `handle_command` was called with. -/
  handled : List Bytes := []
  deriving DecidableEq

namespace QemudMessageProcessor

/-- `buffer_.size() - consumed`, which is a `size_t`. -/
def remaining (size consumed : Nat) : UInt64 := size.toUInt64 - consumed.toUInt64

def process_commands (s : QemudMessageProcessor) : QemudMessageProcessor :=
  if s.buffer_.length < header_size then s
  else
    let body_size := scanHeader (s.buffer_.take header_size)
    if s.buffer_.length < header_size + body_size then s
    else
      let consumed := header_size + body_size
      let s' : QemudMessageProcessor :=
        { buffer_ := s.buffer_.drop consumed
          handled := s.handled ++ [(s.buffer_.drop header_size).take body_size] }
      if remaining s'.buffer_.length consumed ≤ 0 then s' else process_commands s'
termination_by s.buffer_.length
decreasing_by
  simp only [List.length_drop]
  unfold header_size at *
  omega

def process_data (s : QemudMessageProcessor) (data : Bytes) : QemudMessageProcessor :=
  process_commands { s with buffer_ := s.buffer_ ++ data }

end QemudMessageProcessor

/-- A command as it is sent. -/
def frame (command : Bytes) : Bytes := header command.length ++ command

def stream (commands : List Bytes) : Bytes := commands.flatMap frame

/-- The commands whose frames are complete in the first `n` bytes. -/
def complete : List Bytes → Nat → List Bytes
  | [], _ => []
  | c :: commands, n =>
    if n < (frame c).length then [] else c :: complete commands (n - (frame c).length)

/-- All complete commands were handled, and only what follows them is left. -/
def CaughtUp (commands : List Bytes) (received : Bytes) (s : QemudMessageProcessor) : Prop :=
  s.handled = complete commands received.length ∧
    s.buffer_ = received.drop (stream (complete commands received.length)).length

/-- A call after which `m` bytes were received, with `n` before it. No command that it completes is followed
by a complete one and by exactly as many bytes as its own frame has. -/
def Unequal (commands : List Bytes) (n m : Nat) : Prop :=
  ∀ before c next after, commands = before ++ c :: next :: after →
    n < (stream (before ++ [c])).length → (stream (before ++ [c, next])).length ≤ m →
    (m - (stream (before ++ [c])).length) % 2 ^ 64 ≠ (frame c).length

end AnboxReboxed.Qemu
