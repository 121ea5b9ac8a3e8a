import AnboxReboxed.Lib.Wire

/-!
# The binary writer

A writer fills a range of memory from its beginning on. It keeps within the range: what does not fit is not
written, and the writer throws instead. What was written before stays.
-/

namespace AnboxReboxed.Common

open AnboxReboxed.Lib

inductive Order where
  | Big
  | Little
  deriving DecidableEq

/-- The writer and the memory that its iterators point into. -/
structure BinaryWriter where
  memory : ByteString
  begin_ : Nat
  current_ : Nat
  end_ : Nat
  byte_order_ : Order
  begin_le : begin_ ≤ current_
  current_le : current_ ≤ end_
  end_le : end_ ≤ memory.length

/-- `std::out_of_range`. -/
inductive WriteError where
  | out_of_range
  deriving DecidableEq

/-- An exception leaves the writer as it is at that point. -/
abbrev WriterM := ExceptT WriteError (StateM BinaryWriter)

namespace BinaryWriter

/-- A writer on a machine that is little endian. -/
def new (memory : ByteString) (begin_ end_ : Nat) (h : begin_ ≤ end_) (hend : end_ ≤ memory.length) :
    BinaryWriter where
  memory := memory
  begin_ := begin_
  current_ := begin_
  end_ := end_
  byte_order_ := .Little
  begin_le := Nat.le_refl _
  current_le := h
  end_le := hend

/-- `memcpy` to `current_`, which moves on. -/
def put (w : BinaryWriter) (bytes : ByteString) (h : w.current_ + bytes.length ≤ w.end_) : BinaryWriter where
  memory := w.memory.take w.current_ ++ bytes ++ w.memory.drop (w.current_ + bytes.length)
  begin_ := w.begin_
  current_ := w.current_ + bytes.length
  end_ := w.end_
  byte_order_ := w.byte_order_
  begin_le := Nat.le_trans w.begin_le (Nat.le_add_right _ _)
  current_le := h
  end_le := by
    have hlen := w.end_le
    simp only [List.length_append, List.length_take, List.length_drop]
    omega

def bytes_written (w : BinaryWriter) : Nat := w.current_ - w.begin_

end BinaryWriter

open BinaryWriter

def write (bytes : ByteString) : WriterM Unit := fun w =>
  if h : w.current_ + bytes.length ≤ w.end_ then (.ok (), w.put bytes h) else (.error .out_of_range, w)

/-- The bytes of a number in the order that is set. -/
def inOrder (bytes : ByteString) : WriterM ByteString := fun w =>
  match w.byte_order_ with
  | .Big => (.ok bytes, w)
  | .Little => (.ok bytes.reverse, w)

def set_byte_order (order : Order) : WriterM Unit := fun w => (.ok (), { w with byte_order_ := order })

def write_uint16 (value : UInt16) : WriterM Unit := do
  let v ← inOrder (ByteString.be16 value.toNat)
  write v

def write_uint32 (value : UInt32) : WriterM Unit := do
  let v ← inOrder (ByteString.be32 value.toNat)
  write v

def write_string (s : ByteString) : WriterM Unit := write s

/-- The size is converted to 16 bits. -/
def write_string_with_size (s : ByteString) : WriterM Unit := do
  write_uint16 (UInt16.ofNat s.length)
  write_string s

end AnboxReboxed.Common
