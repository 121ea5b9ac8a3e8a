import AnboxReboxed.Qemu.AdbMessageProcessor

/-!
# Proofs: the adb proxy

As long as every command is completed by clean data, the processor is in one of five situations, each of
which does what the bytes ask for. Data that is not clean is refused wrongly, accepted wrongly, or lost.
-/

namespace AnboxReboxed.Qemu

open AnboxReboxed.Lib

namespace AdbMessageProcessor

variable {behind : Bytes → Nat → UInt8} {p : AdbMessageProcessor} {data : Bytes}

theorem process_data_proxying (h : p.state_ = .proxying_data) :
    p.process_data behind data = ({ p with forwarded := p.forwarded ++ data }, true) := if_pos h

/-- The command is not complete, or none is expected. -/
theorem process_data_wait (hstate : p.state_ ≠ .proxying_data)
    (h : p.expected_command_ = [] ∨ (p.buffer_ ++ data).length < p.expected_command_.length) :
    p.process_data behind data = ({ p with buffer_ := p.buffer_ ++ data }, true) := by
  have hnot : ¬(0 < p.expected_command_.length ∧ p.expected_command_.length ≤ (p.buffer_ ++ data).length) := by
    rintro ⟨hpos, hle⟩
    rcases h with h | h
    · rw [h] at hpos
      exact absurd hpos (Nat.lt_irrefl 0)
    · omega
  rw [process_data, if_neg hstate]
  exact if_neg hnot

/-- The command is complete, and it compares equal. -/
theorem process_data_equal (hstate : p.state_ ≠ .proxying_data) (hpos : 0 < p.expected_command_.length)
    (hle : p.expected_command_.length ≤ (p.buffer_ ++ data).length)
    (h : (p.buffer_ ++ data).take data.length = memory behind p.expected_command_ data.length) :
    p.process_data behind data =
      ({ p with
          buffer_ := (p.buffer_ ++ data).drop p.expected_command_.length
          expected_command_ := [] }.advance_state, true) := by
  rw [process_data, if_neg hstate]
  refine (if_pos ⟨hpos, hle⟩).trans ?_
  exact if_neg (fun hne => hne h)

/-- The command is complete, and it compares unequal. -/
theorem process_data_unequal (hstate : p.state_ ≠ .proxying_data) (hpos : 0 < p.expected_command_.length)
    (hle : p.expected_command_.length ≤ (p.buffer_ ++ data).length)
    (h : (p.buffer_ ++ data).take data.length ≠ memory behind p.expected_command_ data.length) :
    p.process_data behind data = ({ p with buffer_ := p.buffer_ ++ data }, false) := by
  rw [process_data, if_neg hstate]
  refine (if_pos ⟨hpos, hle⟩).trans ?_
  exact if_pos h

/-- Within the length of the command, only the command is compared. -/
theorem memory_of_le {command : Bytes} {n : Nat} (h : n ≤ command.length) :
    memory behind command n = command.take n := List.take_append_of_le_length h

end AdbMessageProcessor

namespace AdbPipe

variable {behind : Bytes → Nat → UInt8} {s s' : AdbPipe}

/-! ## What the bytes ask for -/

theorem outcome_short {before after : Bytes} (h : before.length < accept_command.length) :
    outcome before after = (false, []) := if_pos h

theorem outcome_not_accept {before after : Bytes} (hlen : accept_command.length ≤ before.length)
    (h : before.take accept_command.length ≠ accept_command) : outcome before after = (true, []) := by
  rw [outcome, if_neg (Nat.not_lt.mpr hlen), if_pos h]

theorem outcome_accept (rest after : Bytes) :
    outcome (accept_command ++ rest) after =
      if after = [] then (false, [])
      else if (rest ++ after).length < start_command.length then (false, [])
      else if (rest ++ after).take start_command.length ≠ start_command then (true, [])
      else (false, (rest ++ after).drop start_command.length) := by
  have hlen : ¬(accept_command ++ rest).length < accept_command.length := by
    rw [List.length_append]
    omega
  rw [outcome, if_neg hlen, List.take_left, List.drop_left, if_neg (fun h => h rfl)]

/-- The host gets what follows `start`. -/
theorem outcome_start (rest : Bytes) {after payload : Bytes} (hafter : after ≠ [])
    (h : rest ++ after = start_command ++ payload) : outcome (accept_command ++ rest) after = (false, payload) := by
  have hlen : ¬(start_command ++ payload).length < start_command.length := by
    rw [List.length_append]
    omega
  rw [outcome_accept, if_neg hafter, h, if_neg hlen, List.take_left, if_neg (fun h => h rfl), List.drop_left]

/-- The guest is refused when its second command is another one. -/
theorem outcome_not_start {rest after : Bytes} (hafter : after ≠ [])
    (hlen : start_command.length ≤ (rest ++ after).length)
    (h : (rest ++ after).take start_command.length ≠ start_command) :
    outcome (accept_command ++ rest) after = (true, []) := by
  rw [outcome_accept, if_neg hafter, if_neg (Nat.not_lt.mpr hlen), if_pos h]

/-! ## Situations -/

/-- The pipe waits for `accept`. -/
def accepting (before : Bytes) : AdbPipe := { before, processor := { buffer_ := before } }

/-- The pipe waits for the host. -/
def listening (rest : Bytes) : AdbPipe :=
  { before := accept_command ++ rest
    processor := { expected_command_ := [], buffer_ := rest, listening := true } }

/-- The pipe waits for `start`. -/
def starting (rest after : Bytes) : AdbPipe :=
  { before := accept_command ++ rest
    after
    processor :=
      { state_ := .waiting_for_guest_start_command
        expected_command_ := start_command
        buffer_ := rest ++ after
        listening := true
        connected := true
        replied := ok_command } }

def proxying (rest after payload : Bytes) : AdbPipe :=
  { before := accept_command ++ rest
    after
    processor :=
      { state_ := .proxying_data
        expected_command_ := []
        listening := true
        connected := true
        replied := ok_command
        forwarded := payload } }

/-- The situations of a pipe that has done what the bytes ask for. -/
inductive Synced : AdbPipe → Prop where
  | accepting {before : Bytes} (h : before.length < accept_command.length) : Synced (accepting before)
  | listening (rest : Bytes) : Synced (listening rest)
  | starting {rest after : Bytes} (h : after = [] ∨ (rest ++ after).length < start_command.length) :
      Synced (starting rest after)
  | proxying {rest after payload : Bytes} (h : rest ++ after = start_command ++ payload) (hafter : after ≠ []) :
      Synced (proxying rest after payload)
  | refused {s : AdbPipe} (h : outcome s.before s.after = (true, [])) (hrefused : s.refused = true)
      (hforwarded : s.processor.forwarded = []) : Synced s

theorem Synced.transparent (hs : s.Synced) : s.Transparent := by
  unfold Transparent
  cases hs with
  | accepting h =>
    show _ = outcome _ _
    rw [show outcome (AdbPipe.accepting _).before _ = _ from outcome_short h]
    rfl
  | listening rest => exact (outcome_accept rest []).symm ▸ rfl
  | starting h =>
    rename_i rest after
    show (false, []) = outcome (accept_command ++ rest) after
    rw [outcome_accept]
    rcases h with rfl | h
    · rw [if_pos rfl]
    · rw [if_pos h]
      split_ifs <;> rfl
  | proxying h hafter =>
    rename_i rest after payload
    show (false, payload) = outcome (accept_command ++ rest) after
    rw [outcome_start _ hafter h]
  | refused h hrefused hforwarded => rw [h, hrefused, hforwarded]

theorem step_process_data {data : Bytes} (h : step behind s (.process_data data) = some s') :
    s.refused = false ∧ data ≠ [] ∧ s' =
      { processor := (s.processor.process_data behind data).1
        refused := !(s.processor.process_data behind data).2
        before := if s.processor.connected then s.before else s.before ++ data
        after := if s.processor.connected then s.after ++ data else s.after } := by
  obtain ⟨⟨hrefused, hdata⟩, h⟩ := Option.ite_none_right_eq_some.mp h
  exact ⟨hrefused, hdata, (Option.some.inj h).symm⟩

theorem accepting_step {before data : Bytes} (h : step behind (accepting before) (.process_data data) = some s') :
    (Clean behind (accepting before) (.process_data data) → s'.Synced) ∧
      (s'.Transparent → Clean behind (accepting before) (.process_data data)) := by
  obtain ⟨-, -, rfl⟩ := step_process_data h
  have hstate : (accepting before).processor.state_ ≠ .proxying_data := by simp [accepting]
  by_cases hshort : (before ++ data).length < accept_command.length
  · rw [AdbMessageProcessor.process_data_wait hstate (Or.inr hshort)]
    exact ⟨fun _ => .accepting hshort, fun _ _ _ hle => absurd hle (Nat.not_le.mpr hshort)⟩
  · have hle : accept_command.length ≤ (before ++ data).length := Nat.le_of_not_lt hshort
    have hpos : 0 < accept_command.length := by decide
    have hother : accept_command ≠ start_command := by decide
    have hclean : Clean behind (accepting before) (.process_data data) ↔
        if (before ++ data).take accept_command.length = accept_command then
          (before ++ data).take data.length = AdbMessageProcessor.memory behind accept_command data.length
        else (before ++ data).take data.length ≠ AdbMessageProcessor.memory behind accept_command data.length := by
      simp only [Clean, accepting]
      exact ⟨fun h => h hstate hpos hle, fun h _ _ _ => h⟩
    rw [hclean]
    by_cases hcommand : (before ++ data).take accept_command.length = accept_command
    · have hbytes : before ++ data = accept_command ++ (before ++ data).drop accept_command.length := by
        nth_rewrite 1 [← List.take_append_drop accept_command.length (before ++ data)]
        rw [hcommand]
      rw [if_pos hcommand]
      by_cases hmem : (before ++ data).take data.length = AdbMessageProcessor.memory behind accept_command data.length
      · rw [AdbMessageProcessor.process_data_equal hstate hpos hle hmem]
        have hsynced := Synced.listening ((before ++ data).drop accept_command.length)
        unfold listening at hsynced
        rw [← hbytes] at hsynced
        exact ⟨fun _ => hsynced, fun _ => hmem⟩
      · -- `accept` is refused for what follows it.
        rw [AdbMessageProcessor.process_data_unequal hstate hpos hle hmem]
        refine ⟨fun h => absurd h hmem, fun htransparent => ?_⟩
        replace htransparent : (true, []) = outcome (before ++ data) [] := htransparent
        rw [hbytes, outcome_accept, if_pos rfl] at htransparent
        cases htransparent
    · rw [if_neg hcommand]
      by_cases hmem : (before ++ data).take data.length = AdbMessageProcessor.memory behind accept_command data.length
      · -- Another command is taken for `accept`.
        rw [AdbMessageProcessor.process_data_equal hstate hpos hle hmem]
        refine ⟨fun h => absurd hmem h, fun htransparent => ?_⟩
        replace htransparent : (false, []) = outcome (before ++ data) [] := htransparent
        rw [outcome_not_accept hle hcommand] at htransparent
        cases htransparent
      · rw [AdbMessageProcessor.process_data_unequal hstate hpos hle hmem]
        exact ⟨fun _ => .refused (outcome_not_accept hle hcommand) rfl rfl, fun _ => hmem⟩

theorem starting_step {rest after data : Bytes} (h : step behind (starting rest after) (.process_data data) = some s') :
    (Clean behind (starting rest after) (.process_data data) → s'.Synced) ∧
      (s'.Transparent → Clean behind (starting rest after) (.process_data data)) := by
  obtain ⟨-, hdata, rfl⟩ := step_process_data h
  have hstate : (starting rest after).processor.state_ ≠ .proxying_data := by simp [starting]
  have hafter : after ++ data ≠ [] := by simp [hdata]
  by_cases hshort : (rest ++ after ++ data).length < start_command.length
  · rw [AdbMessageProcessor.process_data_wait hstate (Or.inr hshort)]
    refine ⟨fun _ => ?_, fun _ _ _ hle => absurd hle (Nat.not_le.mpr hshort)⟩
    have hsynced : (starting rest (after ++ data)).Synced := .starting (Or.inr (by rwa [← List.append_assoc]))
    simp only [starting, ← List.append_assoc] at hsynced
    exact hsynced
  · have hle : start_command.length ≤ (rest ++ after ++ data).length := Nat.le_of_not_lt hshort
    have hpos : 0 < start_command.length := by decide
    have hclean : Clean behind (starting rest after) (.process_data data) ↔
        if (rest ++ after ++ data).take start_command.length = start_command then rest ++ after ++ data = start_command
        else (rest ++ after ++ data).take data.length ≠ AdbMessageProcessor.memory behind start_command data.length :=
      ⟨fun h => h hstate hpos hle, fun h _ _ _ => h⟩
    rw [hclean]
    by_cases hcommand : (rest ++ after ++ data).take start_command.length = start_command
    · rw [if_pos hcommand]
      have hbytes : rest ++ (after ++ data) = start_command ++ (rest ++ after ++ data).drop start_command.length := by
        nth_rewrite 1 [← List.append_assoc, ← List.take_append_drop start_command.length (rest ++ after ++ data)]
        rw [hcommand]
      by_cases hexact : rest ++ after ++ data = start_command
      · have hlen : data.length ≤ start_command.length := by
          rw [← hexact, List.length_append]
          omega
        have hmem : (rest ++ after ++ data).take data.length =
            AdbMessageProcessor.memory behind start_command data.length := by
          rw [AdbMessageProcessor.memory_of_le hlen, hexact]
        rw [AdbMessageProcessor.process_data_equal hstate hpos hle hmem]
        refine ⟨fun _ => ?_, fun _ => hexact⟩
        have hsynced : (proxying rest (after ++ data) []).Synced :=
          .proxying (by rw [← List.append_assoc, hexact, List.append_nil]) hafter
        have hdrop : (rest ++ after ++ data).drop start_command.length = [] := by
          rw [hexact, List.drop_length]
        simp only [starting, hdrop]
        exact hsynced
      · -- What follows `start` in the same data is refused or lost.
        refine ⟨fun h => absurd h hexact, fun htransparent => ?_⟩
        have houtcome := outcome_start rest hafter hbytes
        by_cases hmem : (rest ++ after ++ data).take data.length =
            AdbMessageProcessor.memory behind start_command data.length
        · rw [AdbMessageProcessor.process_data_equal hstate hpos hle hmem] at htransparent
          replace htransparent : (false, []) = outcome (accept_command ++ rest) (after ++ data) := htransparent
          rw [houtcome] at htransparent
          have hlost : [] = (rest ++ after ++ data).drop start_command.length := (Prod.ext_iff.mp htransparent).2
          rw [← hlost, List.append_nil, ← List.append_assoc] at hbytes
          exact hbytes
        · rw [AdbMessageProcessor.process_data_unequal hstate hpos hle hmem] at htransparent
          replace htransparent : (true, []) = outcome (accept_command ++ rest) (after ++ data) := htransparent
          rw [houtcome] at htransparent
          cases (Prod.ext_iff.mp htransparent).1
    · rw [if_neg hcommand]
      have houtcome : outcome (accept_command ++ rest) (after ++ data) = (true, []) := by
        rw [List.append_assoc] at hle hcommand
        exact outcome_not_start hafter hle hcommand
      by_cases hmem : (rest ++ after ++ data).take data.length =
          AdbMessageProcessor.memory behind start_command data.length
      · -- Another command is taken for `start`.
        rw [AdbMessageProcessor.process_data_equal hstate hpos hle hmem]
        refine ⟨fun h => absurd hmem h, fun htransparent => ?_⟩
        replace htransparent : (false, []) = outcome (accept_command ++ rest) (after ++ data) := htransparent
        rw [houtcome] at htransparent
        cases htransparent
      · rw [AdbMessageProcessor.process_data_unequal hstate hpos hle hmem]
        exact ⟨fun _ => .refused houtcome rfl rfl, fun _ => hmem⟩

theorem Synced.step {i : AdbOp} (hs : s.Synced) (h : AdbPipe.step behind s i = some s') :
    (Clean behind s i → s'.Synced) ∧ (s'.Transparent → Clean behind s i) := by
  cases i with
  | process_data data =>
    cases hs with
    | accepting hbefore => exact accepting_step h
    | listening rest =>
      obtain ⟨-, -, rfl⟩ := step_process_data h
      rw [AdbMessageProcessor.process_data_wait (by simp [AdbPipe.listening]) (Or.inl rfl)]
      refine ⟨fun _ => ?_, fun _ _ hpos => absurd hpos (Nat.lt_irrefl 0)⟩
      have hsynced := Synced.listening (rest ++ data)
      unfold AdbPipe.listening at hsynced
      rw [← List.append_assoc] at hsynced
      exact hsynced
    | starting hafter => exact starting_step h
    | proxying hbytes hafter =>
      rename_i rest after payload
      obtain ⟨-, -, rfl⟩ := step_process_data h
      rw [AdbMessageProcessor.process_data_proxying rfl]
      refine ⟨fun _ => ?_, fun _ hstate => absurd rfl hstate⟩
      have hsynced : (AdbPipe.proxying rest (after ++ data) (payload ++ data)).Synced :=
        .proxying (by rw [← List.append_assoc, hbytes, List.append_assoc]) (by simp [hafter])
      exact hsynced
    | refused houtcome hrefused hforwarded =>
      obtain ⟨hnot, -⟩ := step_process_data h
      rw [hrefused] at hnot
      cases hnot
  | on_host_connection =>
    obtain ⟨⟨hrefused, hlistening, hconnected⟩, h⟩ := Option.ite_none_right_eq_some.mp h
    obtain rfl := Option.some.inj h
    refine ⟨fun _ => ?_, fun _ => trivial⟩
    cases hs with
    | accepting hbefore => cases hlistening
    | listening rest =>
      have hsynced : (AdbPipe.starting rest []).Synced := .starting (Or.inl rfl)
      unfold AdbPipe.starting at hsynced
      rw [List.append_nil] at hsynced
      exact hsynced
    | starting hafter => cases hconnected
    | proxying hbytes hafter => cases hconnected
    | refused houtcome hrefused' hforwarded =>
      rw [hrefused'] at hrefused
      cases hrefused

/-- **Transparency.** In every run of a pipe the guest is refused and the host is sent what the bytes ask for,
exactly when every command is completed by clean data. -/
theorem transparent_iff (behind : Bytes → Nat → UInt8) (ops : List AdbOp) (s : AdbPipe)
    (h : (adbMachine behind).exec (adbMachine behind).init ops = some s) :
    (adbMachine behind).AllStates Transparent (adbMachine behind).init ops ↔
      (adbMachine behind).AllSteps (Clean behind) (adbMachine behind).init ops :=
  Machine.allStates_iff_allSteps_of_relation (R := Synced) (fun _ hs => hs.transparent)
    (fun _ _ _ hs hC h => (hs.step h).1 hC) (fun _ _ _ hs h => (hs.step h).2)
    (Synced.accepting (by decide)) h

/-- `accept` in two pieces, the host, `start`, and two bytes for the host. -/
def sessionOps : List AdbOp :=
  [.process_data (ascii "acc"), .process_data (ascii "ept"), .on_host_connection, .process_data start_command,
    .process_data [1, 2]]

theorem transparent_session :
    (∃ s, (adbMachine fun _ _ => 0).exec (adbMachine fun _ _ => 0).init sessionOps = some s ∧
      s.processor.forwarded = [1, 2]) ∧
    (adbMachine fun _ _ => 0).AllStates Transparent (adbMachine fun _ _ => 0).init sessionOps := by
  have hrun : ∃ s, (adbMachine fun _ _ => 0).exec (adbMachine fun _ _ => 0).init sessionOps = some s ∧
      s.processor.forwarded = [1, 2] := ⟨_, rfl, rfl⟩
  refine ⟨hrun, ?_⟩
  obtain ⟨s, hs, -⟩ := hrun
  refine (transparent_iff _ sessionOps s hs).mpr ?_
  refine (Machine.allSteps_cons rfl).mpr ⟨fun _ _ => by decide, (Machine.allSteps_cons rfl).mpr ⟨fun _ _ _ => by decide,
    (Machine.allSteps_cons rfl).mpr ⟨trivial, (Machine.allSteps_cons rfl).mpr ⟨fun _ _ _ => by decide,
      (Machine.allSteps_cons rfl).mpr ⟨fun hstate => absurd rfl hstate, trivial⟩⟩⟩⟩⟩

/-- A byte that comes with `start` has the guest refused, and `accxyz` in two pieces is taken for `accept`. -/
theorem not_transparent :
    (∃ s, (adbMachine fun _ _ => 0).exec (adbMachine fun _ _ => 0).init
        [.process_data accept_command, .on_host_connection, .process_data (start_command ++ [1])] = some s ∧
      s.refused = true ∧ outcome s.before s.after = (false, [1]) ∧ ¬s.Transparent) ∧
    ∃ s, (adbMachine fun _ _ => 0).exec (adbMachine fun _ _ => 0).init
        [.process_data (ascii "acc"), .process_data (ascii "xyz")] = some s ∧
      s.refused = false ∧ outcome s.before s.after = (true, []) ∧ ¬s.Transparent := by
  refine ⟨⟨_, rfl, rfl, by decide, ?_⟩, ⟨_, rfl, rfl, by decide, ?_⟩⟩
  · unfold Transparent
    decide
  · unfold Transparent
    decide

end AdbPipe

end AnboxReboxed.Qemu
