import AnboxReboxed.Lib.Wire

/-!
# Files of keys and values

A file is read line by line, and a line that has an equals sign is a key and its value. What is behind a line break
in a value is a line of its own: it has a key if there is an equals sign in it.
-/

namespace AnboxReboxed.Lib

namespace ByteString

def newline : UInt8 := 10
def equals : UInt8 := 61

/-- The key and the value of a line, up to and behind the first equals sign. -/
def keyValue (line : ByteString) : Option (ByteString × ByteString) :=
  if equals ∈ line then some (line.takeWhile (· ≠ equals), (line.dropWhile (· ≠ equals)).drop 1) else none

def parse (text : ByteString) : List (ByteString × ByteString) := (text.splitOn newline).filterMap keyValue

def firstLine (text : ByteString) : ByteString := text.takeWhile (· ≠ newline)

/-- What is behind the first line, from its break on. -/
def afterBreak (text : ByteString) : ByteString := text.dropWhile (· ≠ newline)

variable {s t : ByteString}

theorem parse_append_newline (s t : ByteString) : parse (s ++ newline :: t) = parse s ++ parse t := by
  rw [parse, List.splitOn_append_cons_self, List.filterMap_append]
  rfl

theorem parse_of_not_mem (h : newline ∉ s) : parse s = (keyValue s).toList := by
  rw [parse, List.splitOn_eq_singleton h]
  cases hs : keyValue s with
  | none => simp [hs]
  | some p => simp [hs]

theorem parse_nil : parse [] = [] := rfl

theorem parse_newline_cons (s : ByteString) : parse (newline :: s) = parse s := parse_append_newline [] s

theorem firstLine_append_afterBreak (s : ByteString) :
    firstLine s ++ afterBreak s = s :=
  List.takeWhile_append_dropWhile

theorem newline_not_mem_firstLine (s : ByteString) : newline ∉ firstLine s := by
  intro h
  have hall : (firstLine s).all (· ≠ newline) = true := List.all_takeWhile
  have hne := List.all_eq_true.mp hall newline h
  simp at hne

/-- A text without a break, or one with its first break. -/
theorem afterBreak_cases (s : ByteString) : (newline ∉ s ∧ afterBreak s = []) ∨
    (newline ∈ s ∧ ∃ t, afterBreak s = newline :: t) := by
  induction s with
  | nil => exact Or.inl ⟨List.not_mem_nil, rfl⟩
  | cons b s ih =>
    by_cases hb : b = newline
    · refine Or.inr ⟨by rw [hb]; exact List.mem_cons_self, s, ?_⟩
      rw [afterBreak, hb, List.dropWhile_cons_of_neg (by simp)]
    · have hdrop : afterBreak (b :: s) = afterBreak s := List.dropWhile_cons_of_pos (by simpa using hb)
      rw [hdrop]
      rcases ih with ⟨hs, heq⟩ | ⟨hs, heq⟩
      · exact Or.inl ⟨fun h => (List.mem_cons.mp h).elim (fun h => hb h.symm) hs, heq⟩
      · exact Or.inr ⟨List.mem_cons_of_mem _ hs, heq⟩

theorem afterBreak_eq_nil (h : newline ∉ s) : afterBreak s = [] :=
  ((afterBreak_cases s).resolve_right fun h' => h h'.1).2

theorem firstLine_eq_self (h : newline ∉ s) : firstLine s = s := by
  have hs := firstLine_append_afterBreak s
  rwa [afterBreak_eq_nil h, List.append_nil] at hs

theorem afterBreak_append_of_mem (h : newline ∈ s) (t : ByteString) : afterBreak (s ++ t) = afterBreak s ++ t := by
  induction s with
  | nil => cases h
  | cons b s ih =>
    by_cases hb : b = newline
    · rw [afterBreak, afterBreak, List.cons_append, hb, List.dropWhile_cons_of_neg (by simp),
        List.dropWhile_cons_of_neg (by simp), List.cons_append]
    · have hs : newline ∈ s := (List.mem_cons.mp h).resolve_left fun h => hb h.symm
      rw [afterBreak, afterBreak, List.cons_append, List.dropWhile_cons_of_pos (by simpa using hb),
        List.dropWhile_cons_of_pos (by simpa using hb)]
      exact ih hs

theorem afterBreak_append_of_not_mem (h : newline ∉ s) (t : ByteString) : afterBreak (s ++ t) = afterBreak t := by
  rw [afterBreak, List.dropWhile_append_of_pos]
  · rfl
  · intro b hb
    have hne : b ≠ newline := fun heq => h (heq ▸ hb)
    simpa using hne

theorem mem_afterBreak_append {b : UInt8} (s t : ByteString) :
    b ∈ afterBreak (s ++ t) ↔ b ∈ afterBreak s ∨ (newline ∈ s ∧ b ∈ t) ∨ (newline ∉ s ∧ b ∈ afterBreak t) := by
  by_cases h : newline ∈ s
  · rw [afterBreak_append_of_mem h, List.mem_append]
    simp [h]
  · rw [afterBreak_append_of_not_mem h, afterBreak_eq_nil h]
    simp [h]

theorem parse_lines (s : ByteString) : parse s = (keyValue (firstLine s)).toList ++ parse (afterBreak s) := by
  have hfirst := parse_of_not_mem (newline_not_mem_firstLine s)
  rcases afterBreak_cases s with ⟨hs, heq⟩ | ⟨-, t, heq⟩
  · rw [heq, parse_nil, List.append_nil, parse_of_not_mem hs, firstLine_eq_self hs]
  · have hsplit := firstLine_append_afterBreak s
    rw [heq] at hsplit ⊢
    rw [← hsplit, parse_append_newline, parse_newline_cons, hfirst, hsplit]

theorem keyValue_eq_none : keyValue s = none ↔ equals ∉ s := by
  unfold keyValue
  by_cases h : equals ∈ s
  · simp [h]
  · simp [h]

/-- A text has no key when it has no equals sign. -/
theorem parse_eq_nil : parse s = [] ↔ equals ∉ s := by
  generalize hn : s.length = n
  induction n using Nat.strongRecOn generalizing s with
  | ind n ih =>
    rw [parse_lines, List.append_eq_nil_iff, Option.toList_eq_nil_iff, keyValue_eq_none]
    have hsplit := firstLine_append_afterBreak s
    have hmem : equals ∉ s ↔ equals ∉ firstLine s ∧ equals ∉ afterBreak s := by
      nth_rewrite 1 [← hsplit]
      rw [List.mem_append, not_or]
    rw [hmem]
    refine and_congr_right fun _ => ?_
    rcases afterBreak_cases s with ⟨-, heq⟩ | ⟨-, t, heq⟩
    · rw [heq]
      simp [parse_nil]
    · have hlen : t.length < n := by
        have hlen := congrArg List.length hsplit
        rw [heq, List.length_append, List.length_cons] at hlen
        omega
      rw [heq, parse_newline_cons, ih t.length hlen rfl, List.mem_cons, not_or]
      have hne : equals ≠ newline := by decide
      exact ⟨fun h => ⟨hne, h⟩, fun h => h.2⟩

/-- A key and its value, and the keys that stand behind line breaks in the value. -/
theorem parse_key {key : ByteString} (hequals : equals ∉ key) (hnewline : newline ∉ key) (s : ByteString) :
    parse (key ++ equals :: s) = (key, firstLine s) :: parse (afterBreak s) := by
  have hkey : newline ∉ key ++ [equals] := by
    rw [List.mem_append, not_or]
    exact ⟨hnewline, by decide⟩
  have htake : ∀ b ∈ key, decide (b ≠ equals) = true := by
    intro b hb
    have hne : b ≠ equals := fun heq => hequals (heq ▸ hb)
    simpa using hne
  have hfirst : firstLine (key ++ [equals] ++ s) = key ++ equals :: firstLine s := by
    rw [firstLine, List.takeWhile_append_of_pos, List.append_assoc]
    · rfl
    · intro b hb
      have hne : b ≠ newline := fun heq => hkey (heq ▸ hb)
      simpa using hne
  have hvalue : keyValue (key ++ equals :: firstLine s) = some (key, firstLine s) := by
    have hmem : equals ∈ key ++ equals :: firstLine s := by simp
    rw [keyValue, if_pos hmem, List.takeWhile_append_of_pos htake, List.dropWhile_append_of_pos htake]
    simp
  have hassoc : key ++ equals :: s = key ++ [equals] ++ s := by simp
  rw [hassoc, parse_lines, hfirst, hvalue, afterBreak_append_of_not_mem hkey]
  rfl

end ByteString

end AnboxReboxed.Lib
