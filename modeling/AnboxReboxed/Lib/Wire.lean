import Mathlib.Tactic.Linarith

/-!
# Numbers and texts as bytes

Numbers are written with the most significant byte first, and a text after its size, which takes two bytes. A
reader takes one thing from the front of its input, and fails when the input is too short.
-/

namespace AnboxReboxed.Lib

abbrev ByteString := List UInt8

namespace ByteString

/-- A text of one-byte characters. -/
def of (text : String) : ByteString := text.toList.map fun c => c.toNat.toUInt8

/-- The two low bytes of a number. -/
def be16 (n : Nat) : ByteString := [UInt8.ofNat (n / 256), UInt8.ofNat n]

/-- The four low bytes of a number. -/
def be32 (n : Nat) : ByteString := be16 (n / 65536) ++ be16 n

/-- The size is cut to two bytes. -/
def sized (s : ByteString) : ByteString := be16 s.length ++ s

def readBe16 : ByteString → Option (Nat × ByteString)
  | a :: b :: l => some (a.toNat * 256 + b.toNat, l)
  | _ => none

def readBe32 : ByteString → Option (Nat × ByteString)
  | a :: b :: c :: d :: l => some (((a.toNat * 256 + b.toNat) * 256 + c.toNat) * 256 + d.toNat, l)
  | _ => none

def readSized (l : ByteString) : Option (ByteString × ByteString) :=
  match readBe16 l with
  | none => none
  | some (n, l) => if n ≤ l.length then some (l.take n, l.drop n) else none

variable {s l rest : ByteString} {n : Nat}

@[simp] theorem length_be16 (n : Nat) : (be16 n).length = 2 := rfl

@[simp] theorem length_be32 (n : Nat) : (be32 n).length = 4 := rfl

@[simp] theorem length_sized (s : ByteString) : (sized s).length = 2 + s.length := by
  rw [sized, List.length_append, length_be16]

theorem readBe16_be16 (n : Nat) (l : ByteString) : readBe16 (be16 n ++ l) = some (n % 65536, l) := by
  have hn : n / 256 % 256 * 256 + n % 256 = n % 65536 := by omega
  simp only [be16, List.cons_append, List.nil_append, readBe16, UInt8.toNat_ofNat', Nat.reducePow, hn]

theorem readBe32_be32 (n : Nat) (l : ByteString) : readBe32 (be32 n ++ l) = some (n % 4294967296, l) := by
  have hn : ((n / 65536 / 256 % 256 * 256 + n / 65536 % 256) * 256 + n / 256 % 256) * 256 + n % 256 =
      n % 4294967296 := by omega
  simp only [be32, be16, List.cons_append, List.nil_append, readBe32, UInt8.toNat_ofNat', Nat.reducePow, hn]

theorem readSized_be16 (hn : n < 65536) (hl : n ≤ l.length) :
    readSized (be16 n ++ l) = some (l.take n, l.drop n) := by
  rw [readSized, readBe16_be16, Nat.mod_eq_of_lt hn]
  exact if_pos hl

/-- A text that is not too long comes back. -/
theorem readSized_sized (hs : s.length < 65536) (l : ByteString) : readSized (sized s ++ l) = some (s, l) := by
  have hlen : s.length ≤ (s ++ l).length := by rw [List.length_append]; omega
  rw [sized, List.append_assoc, readSized_be16 hs hlen, List.take_left, List.drop_left]

theorem readBe16_some (h : readBe16 l = some (n, rest)) : n < 65536 ∧ l.length = 2 + rest.length := by
  rcases l with _ | ⟨a, _ | ⟨b, l⟩⟩
  · cases h
  · cases h
  · obtain ⟨hn, rfl⟩ := Prod.mk.inj (Option.some.inj h)
    have ha := a.toNat_lt
    have hb := b.toNat_lt
    simp only [List.length_cons]
    omega

theorem readBe32_some (h : readBe32 l = some (n, rest)) : l.length = 4 + rest.length := by
  rcases l with _ | ⟨a, _ | ⟨b, _ | ⟨c, _ | ⟨d, l⟩⟩⟩⟩
  · cases h
  · cases h
  · cases h
  · cases h
  · obtain ⟨-, rfl⟩ := Prod.mk.inj (Option.some.inj h)
    simp only [List.length_cons]
    omega

/-- A text that was read is no longer than its size says, and took as many bytes and two more. -/
theorem readSized_some (h : readSized l = some (s, rest)) :
    s.length < 65536 ∧ l.length = 2 + s.length + rest.length := by
  unfold readSized at h
  cases hn : readBe16 l with
  | none => simp [hn] at h
  | some p =>
    obtain ⟨n, l'⟩ := p
    obtain ⟨hlt, hlen⟩ := readBe16_some hn
    simp only [hn, Option.ite_none_right_eq_some, Option.some.injEq, Prod.mk.injEq] at h
    obtain ⟨hle, rfl, rfl⟩ := h
    rw [List.length_take, List.length_drop, Nat.min_eq_left hle]
    omega

end ByteString

end AnboxReboxed.Lib

/-!
## Base64

Three bytes make four characters, and what is left at the end is filled up.
-/

namespace AnboxReboxed.Lib.Base64

/-- The character for six bits. -/
def digit (n : Nat) : Nat :=
  if n < 26 then 65 + n else if n < 52 then 71 + n else if n < 62 then n - 4 else if n = 62 then 43 else 47

def encode : ByteString → List Nat
  | [] => []
  | [a] => [digit (a.toNat / 4), digit (a.toNat % 4 * 16), 61, 61]
  | [a, b] => [digit (a.toNat / 4), digit (a.toNat % 4 * 16 + b.toNat / 16), digit (b.toNat % 16 * 4), 61]
  | a :: b :: c :: data =>
    [digit (a.toNat / 4), digit (a.toNat % 4 * 16 + b.toNat / 16), digit (b.toNat % 16 * 4 + c.toNat / 64),
      digit (c.toNat % 64)] ++ encode data

theorem length_encode (data : ByteString) : (encode data).length = (data.length + 2) / 3 * 4 := by
  fun_induction encode data with
  | case1 => rfl
  | case2 => simp
  | case3 => simp
  | case4 a b c data ih =>
    rw [List.length_append, ih]
    simp only [List.length_cons, List.length_nil]
    omega

theorem digit_cases (n : Nat) : 48 ≤ digit n ∧ digit n ≤ 57 ∨ 65 ≤ digit n ∧ digit n ≤ 90 ∨
    97 ≤ digit n ∧ digit n ≤ 122 ∨ digit n = 43 ∨ digit n = 47 := by
  unfold digit
  split_ifs <;> omega

/-- The text consists of letters, digits and three other characters. -/
theorem encode_plain (data : ByteString) : ∀ c ∈ encode data,
    48 ≤ c ∧ c ≤ 57 ∨ 65 ≤ c ∧ c ≤ 90 ∨ 97 ≤ c ∧ c ≤ 122 ∨ c = 43 ∨ c = 47 ∨ c = 61 := by
  have hdigit (n : Nat) : 48 ≤ digit n ∧ digit n ≤ 57 ∨ 65 ≤ digit n ∧ digit n ≤ 90 ∨
      97 ≤ digit n ∧ digit n ≤ 122 ∨ digit n = 43 ∨ digit n = 47 ∨ digit n = 61 := by
    have := digit_cases n
    omega
  fun_induction encode data with
  | case1 => exact fun c hc => absurd hc List.not_mem_nil
  | case2 a => simpa using ⟨hdigit _, hdigit _⟩
  | case3 a b => simpa using ⟨hdigit _, hdigit _, hdigit _⟩
  | case4 a b c data ih =>
    intro x hx
    rcases List.mem_append.mp hx with hx | hx
    · have hfour : ∀ x ∈ [digit (a.toNat / 4), digit (a.toNat % 4 * 16 + b.toNat / 16),
          digit (b.toNat % 16 * 4 + c.toNat / 64), digit (c.toNat % 64)], 48 ≤ x ∧ x ≤ 57 ∨ 65 ≤ x ∧ x ≤ 90 ∨
          97 ≤ x ∧ x ≤ 122 ∨ x = 43 ∨ x = 47 ∨ x = 61 := by
        simpa using ⟨hdigit _, hdigit _, hdigit _, hdigit _⟩
      exact hfour x hx
    · exact ih x hx

end AnboxReboxed.Lib.Base64
