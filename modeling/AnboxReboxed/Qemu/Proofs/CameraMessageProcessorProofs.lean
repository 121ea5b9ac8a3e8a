import AnboxReboxed.Qemu.CameraMessageProcessor

/-!
# Proofs: the commands of the camera service

When the buffer has no NUL left, `process_commands` takes what is there for a command. So it never keeps
anything, and it gets through only when each call ends where a command does.
-/

namespace AnboxReboxed.Qemu

open AnboxReboxed.Lib

namespace CameraMessageProcessor

/-! ## One call -/

theorem commandSize_of_none {buffer : Bytes} (h : ∀ byte ∈ buffer, isNul byte = false) :
    commandSize buffer = buffer.length := by
  induction buffer with
  | nil => rfl
  | cons byte buffer ih =>
    obtain ⟨hbyte, hbuffer⟩ := List.forall_mem_cons.mp h
    rw [commandSize, if_neg (beq_eq_false_iff_ne.mp hbyte), ih hbuffer, List.length_cons]

/-- The scan stops at the first NUL. -/
theorem commandSize_append {command : Bytes} (rest : Bytes) (h : ∀ byte ∈ command, isNul byte = false) :
    commandSize (command ++ 0 :: rest) = command.length := by
  induction command with
  | nil => rfl
  | cons byte command ih =>
    obtain ⟨hbyte, hcommand⟩ := List.forall_mem_cons.mp h
    rw [List.cons_append, commandSize, if_neg (beq_eq_false_iff_ne.mp hbyte), ih hcommand, List.length_cons]

theorem process_commands_nil {s : CameraMessageProcessor} (h : s.buffer_ = []) : s.process_commands = some s := by
  rw [process_commands, if_pos h]

/-- Without a NUL the `erase` goes one beyond the end. -/
theorem process_commands_open {s : CameraMessageProcessor} (hne : s.buffer_ ≠ [])
    (h : ∀ byte ∈ s.buffer_, isNul byte = false) : s.process_commands = none := by
  rw [process_commands, if_neg hne]
  dsimp only
  rw [commandSize_of_none h, if_neg (by omega)]

/-- A command that has ended is taken off. -/
theorem process_commands_cut {s : CameraMessageProcessor} {command rest : Bytes}
    (hbuf : s.buffer_ = command ++ 0 :: rest) (h : ∀ byte ∈ command, isNul byte = false) :
    s.process_commands = (handle_command { s with buffer_ := rest } command).process_commands := by
  have hne : s.buffer_ ≠ [] := by
    rw [hbuf]
    exact List.append_ne_nil_of_right_ne_nil _ (List.cons_ne_nil _ _)
  have hdrop : (command ++ 0 :: rest).drop (command.length + 1) = rest := by simp
  have htake : (command ++ 0 :: rest).take command.length = command := by simp
  rw [process_commands, if_neg hne]
  dsimp only
  rw [hbuf, commandSize_append rest h, if_pos (by simp), hdrop, htake]

/-- `process_commands` handles every command that has ended. It returns only if nothing is left then. -/
theorem process_commands_spec (s : CameraMessageProcessor) :
    (Delimited.rest isNul s.buffer_ = [] ∧ ∃ s', s.process_commands = some s' ∧ s'.buffer_ = [] ∧
      s'.handled = s.handled ++ Delimited.complete isNul s.buffer_) ∨
    (Delimited.rest isNul s.buffer_ ≠ [] ∧ s.process_commands = none) := by
  -- the induction is on the buffer, which every command makes shorter
  induction hn : s.buffer_.length using Nat.strong_induction_on generalizing s with
  | _ n ih =>
    rcases Delimited.none_or_first (p := isNul) s.buffer_ with hnone | ⟨command, sep, rest, hbuf, hsep, hcommand⟩
    · rw [Delimited.rest_of_none hnone, Delimited.complete_of_none hnone]
      by_cases hnil : s.buffer_ = []
      · exact Or.inl ⟨hnil, s, process_commands_nil hnil, hnil, (List.append_nil _).symm⟩
      · exact Or.inr ⟨hnil, process_commands_open hnil hnone⟩
    · have hzero : sep = 0 := beq_iff_eq.mp hsep
      subst hzero
      have hshorter : rest.length < n := by
        rw [← hn, hbuf, List.length_append, List.length_cons]
        omega
      have hcomplete : Delimited.complete isNul s.buffer_ = command :: Delimited.complete isNul rest := by
        rw [hbuf, Delimited.complete_cut hsep, Delimited.complete_of_none hcommand,
          Delimited.rest_of_none hcommand, List.nil_append]
      have hrest : Delimited.rest isNul s.buffer_ = Delimited.rest isNul rest := by
        rw [hbuf, Delimited.rest_cut hsep]
      rw [process_commands_cut hbuf hcommand, hcomplete, hrest]
      have hnext := ih rest.length hshorter (handle_command { s with buffer_ := rest } command) (by simp)
      simpa using hnext

/-! ## The connection -/

theorem process_data_spec {s : CameraMessageProcessor} (hs : s.buffer_ = []) (data : Bytes) :
    ((∀ byte ∈ data.getLast?, isNul byte = true) ∧ ∃ s', s.process_data data = some s' ∧ s'.buffer_ = [] ∧
      s'.handled = s.handled ++ Delimited.complete isNul data) ∨
    ((¬ ∀ byte ∈ data.getLast?, isNul byte = true) ∧ s.process_data data = none) := by
  have hbuf : s.buffer_ ++ data = data := by rw [hs, List.nil_append]
  rw [← Delimited.rest_eq_nil_iff]
  unfold process_data
  rw [hbuf]
  exact process_commands_spec { s with buffer_ := data }

/-- After each call that returns the buffer is empty. -/
theorem exec_camera {s : CameraMessageProcessor} (hs : s.buffer_ = []) (chunks : List Bytes) :
    ((∀ data ∈ chunks, ∀ byte ∈ data.getLast?, isNul byte = true) ∧
      ∃ s', camera.exec s chunks = some s' ∧ s'.buffer_ = [] ∧
        s'.handled = s.handled ++ Delimited.complete isNul chunks.flatten ∧
        Delimited.rest isNul chunks.flatten = []) ∨
    ((¬ ∀ data ∈ chunks, ∀ byte ∈ data.getLast?, isNul byte = true) ∧ camera.exec s chunks = none) := by
  induction chunks generalizing s with
  | nil => exact Or.inl ⟨fun _ h => absurd h List.not_mem_nil, s, rfl, hs, (List.append_nil _).symm, rfl⟩
  | cons data chunks ih =>
    rw [List.forall_mem_cons]
    rcases process_data_spec hs data with ⟨hdata, s', hstep, hs', hhandled⟩ | ⟨hdata, hstep⟩
    · have hrest : Delimited.rest isNul data = [] := Delimited.rest_eq_nil_iff.mpr hdata
      have hexec : camera.exec s (data :: chunks) = camera.exec s' chunks := Machine.exec_step hstep
      rw [hexec, List.flatten_cons, Delimited.complete_append, Delimited.rest_append, hrest, List.nil_append]
      rcases ih hs' with ⟨hchunks, s'', hs'', hbuf, hall, hempty⟩ | ⟨hchunks, hnone⟩
      · refine Or.inl ⟨⟨hdata, hchunks⟩, s'', hs'', hbuf, ?_, hempty⟩
        rw [hall, hhandled, List.append_assoc]
      · exact Or.inr ⟨fun h => hchunks h.2, hnone⟩
    · refine Or.inr ⟨fun h => hdata h.1, ?_⟩
      show (s.process_data data).bind _ = none
      rw [hstep, Option.bind_none]

end CameraMessageProcessor

/-- The commands are split right after every call exactly when no call ends inside a command. -/
theorem camera_splits_iff (chunks : List Bytes) :
    (∀ n, SplitsCommands (chunks.take n)) ↔ ∀ data ∈ chunks, ∀ byte ∈ data.getLast?, byte = 0 := by
  have hnul : (∀ data ∈ chunks, ∀ byte ∈ data.getLast?, byte = 0) ↔
      ∀ data ∈ chunks, ∀ byte ∈ data.getLast?, isNul byte = true := by
    simp only [isNul, beq_iff_eq]
  rw [hnul]
  constructor
  · intro h
    obtain ⟨s, hs, -, -⟩ := h chunks.length
    rw [List.take_length] at hs
    rcases CameraMessageProcessor.exec_camera (s := camera.init) rfl chunks with ⟨hends, -⟩ | ⟨-, hnone⟩
    · exact hends
    · rw [hnone] at hs
      cases hs
  · intro hends n
    have htake : ∀ data ∈ chunks.take n, ∀ byte ∈ data.getLast?, isNul byte = true :=
      fun data hdata => hends data (List.mem_of_mem_take hdata)
    rcases CameraMessageProcessor.exec_camera (s := camera.init) rfl (chunks.take n) with
      ⟨-, s, hs, hbuf, hhandled, hrest⟩ | ⟨hbad, -⟩
    · exact ⟨s, hs, hhandled, by rw [hbuf, hrest]⟩
    · exact absurd htake hbad

/-- The first half of `list`. -/
theorem not_always_split : ¬ ∀ (chunks : List Bytes) (n : Nat), SplitsCommands (chunks.take n) := by
  intro h
  obtain ⟨s, hs, -, -⟩ := h [ascii "li"] 1
  rcases CameraMessageProcessor.exec_camera (s := camera.init) rfl ([ascii "li"].take 1) with ⟨hends, -⟩ | ⟨-, hnone⟩
  · revert hends
    decide
  · rw [hnone] at hs
    cases hs

end AnboxReboxed.Qemu
