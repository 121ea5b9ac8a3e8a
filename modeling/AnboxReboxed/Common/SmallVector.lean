import Mathlib.Tactic.Linarith

/-!
# `SmallFixedVector<char, 512>`

A vector whose first `kSmallSize` elements live inside the object; it moves to the heap when it grows
beyond that. Moving from a heap vector leaves the source empty and in place again.
-/

namespace AnboxReboxed.Common

def kSmallSize : Nat := 512

/-- A `SmallFixedVector` of bytes: its elements, its capacity and whether it is on the heap. -/
structure SmallVector where
  data : List UInt8
  capacity : Nat
  isAllocated : Bool
  size_le : data.length ≤ capacity
  inplace : isAllocated = false → capacity = kSmallSize

namespace SmallVector

/-- `init_inplace()`. -/
def empty : SmallVector := ⟨[], kSmallSize, false, Nat.zero_le _, fun _ => rfl⟩

instance : Inhabited SmallVector := ⟨empty⟩

def size (v : SmallVector) : Nat := v.data.length

/-- `resize_impl`: `fill` holds the bytes that the new elements get, or happen to have when they are
not initialised. Growing is by one half at least. -/
def resize_impl (v : SmallVector) (newSize : Nat) (fill : Nat → UInt8) : SmallVector :=
  if newSize < v.size then
    { v with
      data := v.data.take newSize
      size_le := Nat.le_trans (List.length_take_le' _ _) v.size_le }
  else if h : v.capacity < newSize then
    { data := v.data ++ (List.range (newSize - v.size)).map fill
      capacity := max newSize (v.capacity + v.capacity / 2)
      isAllocated := true
      size_le := by
        have hs : v.data.length ≤ v.capacity := v.size_le
        have hm : newSize ≤ max newSize (v.capacity + v.capacity / 2) := Nat.le_max_left _ _
        simp only [List.length_append, List.length_map, List.length_range, size]
        omega
      inplace := fun h => by cases h }
  else
    { v with
      data := v.data ++ (List.range (newSize - v.size)).map fill
      size_le := by
        have hs : v.data.length ≤ v.capacity := v.size_le
        simp only [List.length_append, List.length_map, List.length_range, size]
        omega }

/-- `resize`: new elements are zero. -/
def resize (v : SmallVector) (newSize : Nat) : SmallVector := v.resize_impl newSize fun _ => 0

/-- `resize_noinit`: new elements are whatever the memory holds. -/
def resize_noinit (v : SmallVector) (newSize : Nat) (memory : Nat → UInt8) : SmallVector :=
  v.resize_impl newSize memory

/-- `SmallFixedVector(b, e)`. -/
def ofRange (bytes : List UInt8) : SmallVector :=
  if h : bytes.length ≤ kSmallSize then ⟨bytes, kSmallSize, false, h, fun _ => rfl⟩
  else ⟨bytes, max bytes.length (kSmallSize + kSmallSize / 2), true, Nat.le_max_left _ _,
    fun h => by cases h⟩

/-- A vector that is not on the heap has at most `kSmallSize` elements. -/
theorem size_le_small {v : SmallVector} (h : ¬ v.isAllocated = true) : v.data.length ≤ kSmallSize :=
  v.inplace (Bool.not_eq_true _ ▸ h) ▸ v.size_le

/-- `operator=(SmallFixedVector&& other)`: the new value of the target and of `other`. -/
def moveAssign (this other : SmallVector) : SmallVector × SmallVector :=
  if h : other.isAllocated = true then (other, empty)
  else if hc : this.isAllocated = true ∧ this.capacity < other.size then
    (⟨other.data, kSmallSize, false, size_le_small h, fun _ => rfl⟩, other)
  else
    ({ this with
        data := other.data
        size_le := by
          by_cases ha : this.isAllocated = true
          · exact Nat.not_lt.mp fun hlt => hc ⟨ha, hlt⟩
          · rw [this.inplace (Bool.not_eq_true _ ▸ ha)]
            exact size_le_small h },
      other)

/-- The caller writes the byte at `i`. -/
def set (v : SmallVector) (i : Nat) (b : UInt8) : SmallVector :=
  { v with data := v.data.set i b, size_le := by rw [List.length_set]; exact v.size_le }

end SmallVector

end AnboxReboxed.Common
