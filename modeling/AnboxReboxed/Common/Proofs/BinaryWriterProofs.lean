import AnboxReboxed.Common.BinaryWriter

/-!
# Proofs: what a writer writes

A command of the writer stands for the bytes it writes: when they fit they are put into the memory, and when they
do not it throws, with nothing changed outside of what is left of the range. Commands in a row stand for their
bytes in a row.
-/

namespace AnboxReboxed.Common

open AnboxReboxed.Lib BinaryWriter

namespace BinaryWriter

variable {w w' w'' : BinaryWriter} {a b : ByteString}

/-- Nothing was written outside of what is left of the range of `w`. -/
structure Within (w w' : BinaryWriter) : Prop where
  length : w'.memory.length = w.memory.length
  outside : ∀ i, i < w.current_ ∨ w.end_ ≤ i → w'.memory[i]? = w.memory[i]?

theorem within_refl (w : BinaryWriter) : w.Within w := ⟨rfl, fun _ _ => rfl⟩

theorem within_put (h : w.current_ + a.length ≤ w.end_) : w.Within (w.put a h) := by
  have hend := w.end_le
  constructor
  · simp only [put, List.length_append, List.length_take, List.length_drop]
    omega
  · intro i hi
    have htake : (w.memory.take w.current_).length = w.current_ := by rw [List.length_take]; omega
    simp only [put]
    rcases hi with hi | hi
    · rw [List.append_assoc, List.getElem?_append_left (by omega), List.getElem?_take_of_lt hi]
    · rw [List.getElem?_append_right (by rw [List.length_append]; omega), List.getElem?_drop]
      congr 1
      rw [List.length_append, htake]
      omega

/-- What is within the range after a part was written is within the range. -/
theorem Within.of_put {h : w.current_ + a.length ≤ w.end_} (h' : (w.put a h).Within w') : w.Within w' := by
  have hput := within_put h
  constructor
  · rw [h'.length, hput.length]
  · intro i hi
    rw [h'.outside i, hput.outside i hi]
    rcases hi with hi | hi
    · exact Or.inl (Nat.lt_of_lt_of_le hi (Nat.le_add_right _ _))
    · exact Or.inr hi

theorem put_put (h : w.current_ + a.length ≤ w.end_) (h' : (w.put a h).current_ + b.length ≤ (w.put a h).end_)
    (hab : w.current_ + (a ++ b).length ≤ w.end_) : (w.put a h).put b h' = w.put (a ++ b) hab := by
  have hend := w.end_le
  have htake : (w.memory.take w.current_ ++ a).length = w.current_ + a.length := by
    rw [List.length_append, List.length_take]
    omega
  have hmemory : ((w.put a h).put b h').memory = (w.put (a ++ b) hab).memory := by
    simp only [put]
    rw [← htake, List.take_left, List.drop_append, List.drop_eq_nil_of_le (by omega), List.nil_append,
      List.drop_drop, htake, List.length_append, List.append_assoc _ a b]
    congr 2
    omega
  have hcurrent : ((w.put a h).put b h').current_ = (w.put (a ++ b) hab).current_ := by
    simp only [put, List.length_append, Nat.add_assoc]
  exact BinaryWriter.mk.injEq .. |>.mpr ⟨hmemory, rfl, hcurrent, rfl, rfl⟩

/-- What was written is in the memory. -/
theorem written_put (hw : w.current_ = w.begin_) (h : w.current_ + a.length ≤ w.end_) :
    ((w.put a h).memory.drop w.begin_).take a.length = a := by
  have hend := w.end_le
  have htake : (w.memory.take w.current_).length = w.begin_ := by rw [List.length_take]; omega
  simp only [put]
  rw [List.append_assoc, ← htake, List.drop_left, List.take_left]

end BinaryWriter

/-- The command writes these bytes, once the order is set. -/
def Writes (c : WriterM Unit) (bytes : ByteString) : Prop :=
  ∀ w : BinaryWriter, w.byte_order_ = .Big →
    (∀ h : w.current_ + bytes.length ≤ w.end_, c w = (.ok (), w.put bytes h)) ∧
    (w.end_ < w.current_ + bytes.length → ∃ w', c w = (.error .out_of_range, w') ∧ w.Within w')

variable {c d : WriterM Unit} {a b : ByteString}

theorem writes_write (bytes : ByteString) : Writes (write bytes) bytes := by
  intro w _
  constructor
  · intro h
    exact dif_pos h
  · intro h
    exact ⟨w, dif_neg (by omega), within_refl w⟩

theorem writes_pure : Writes (pure ()) [] := by
  intro w _
  constructor
  · intro h
    have hput : w.put [] h = w := by
      have hmemory : (w.put [] h).memory = w.memory := by simp [put]
      exact BinaryWriter.mk.injEq .. |>.mpr ⟨hmemory, rfl, rfl, rfl, rfl⟩
    rw [hput]
    rfl
  · intro h
    have hle := w.current_le
    rw [List.length_nil] at h
    omega

theorem bind_ok {α β : Type} {c : WriterM α} {f : α → WriterM β} {w w' : BinaryWriter} {x : α}
    (h : c w = (.ok x, w')) : (c >>= f) w = f x w' := by
  simp only [Bind.bind, ExceptT.bind, ExceptT.mk, StateT.bind, h]
  rfl

theorem bind_error {α : Type} {c : WriterM Unit} {f : Unit → WriterM α} {w w' : BinaryWriter} {e : WriteError}
    (h : c w = (.error e, w')) : (c >>= f) w = (.error e, w') := by
  simp only [Bind.bind, ExceptT.bind, ExceptT.mk, StateT.bind, h]
  rfl

theorem Writes.bind (hc : Writes c a) (hd : Writes d b) : Writes (c >>= fun _ => d) (a ++ b) := by
  intro w hw
  obtain ⟨hok, herror⟩ := hc w hw
  by_cases ha : w.current_ + a.length ≤ w.end_
  · obtain ⟨hok', herror'⟩ := hd (w.put a ha) hw
    rw [bind_ok (hok ha)]
    constructor
    · intro hab
      have hb : (w.put a ha).current_ + b.length ≤ (w.put a ha).end_ := by
        simp only [put]
        rw [List.length_append] at hab
        omega
      rw [hok' hb, put_put]
    · intro hab
      have hb : (w.put a ha).end_ < (w.put a ha).current_ + b.length := by
        simp only [put]
        rw [List.length_append] at hab
        omega
      obtain ⟨w', heq, hwithin⟩ := herror' hb
      exact ⟨w', heq, hwithin.of_put⟩
  · obtain ⟨w', heq, hwithin⟩ := herror (by omega)
    rw [bind_error heq]
    constructor
    · intro hab
      rw [List.length_append] at hab
      omega
    · intro _
      exact ⟨w', rfl, hwithin⟩

theorem writes_inOrder (bytes : ByteString) : Writes (inOrder bytes >>= write) bytes := by
  intro w hw
  have h : inOrder bytes w = (.ok bytes, w) := by simp only [inOrder, hw]
  rw [bind_ok h]
  exact writes_write bytes w hw

theorem writes_uint16 (value : UInt16) : Writes (write_uint16 value) (ByteString.be16 value.toNat) :=
  writes_inOrder _

theorem writes_uint32 (value : UInt32) : Writes (write_uint32 value) (ByteString.be32 value.toNat) :=
  writes_inOrder _

theorem be16_ofNat (n : Nat) : ByteString.be16 (UInt16.ofNat n).toNat = ByteString.be16 n := by
  have hhigh : UInt8.ofNat (n % 65536 / 256) = UInt8.ofNat (n / 256) := by
    apply UInt8.toNat_inj.mp
    simp only [UInt8.toNat_ofNat', Nat.reducePow]
    omega
  have hlow : UInt8.ofNat (n % 65536) = UInt8.ofNat n := by
    apply UInt8.toNat_inj.mp
    simp only [UInt8.toNat_ofNat', Nat.reducePow]
    omega
  simp only [ByteString.be16, UInt16.toNat_ofNat', Nat.reducePow, hhigh, hlow]

theorem writes_string_with_size (s : ByteString) : Writes (write_string_with_size s) (ByteString.sized s) := by
  have h := (writes_uint16 (UInt16.ofNat s.length)).bind (writes_write s)
  rwa [be16_ofNat] at h

theorem writes_forM (strings : List ByteString) :
    Writes (strings.forM write_string_with_size) (strings.flatMap ByteString.sized) := by
  induction strings with
  | nil => exact writes_pure
  | cons s strings ih => exact (writes_string_with_size s).bind ih

end AnboxReboxed.Common
