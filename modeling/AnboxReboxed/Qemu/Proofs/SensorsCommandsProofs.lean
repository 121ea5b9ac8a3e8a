import AnboxReboxed.Lib.Delimited
import AnboxReboxed.Qemu.SensorsCommands

/-!
# Proofs: what the commands for the sensors do

`sscanf` reads an integer, fails, or comes to the end of the text; the last of these sets the delay as well.
-/

namespace AnboxReboxed.Qemu

open AnboxReboxed.Lib

/-! ## Reading the delay -/

/-- `sscanf` answers `EOF` exactly when the text ends before the integer. -/
theorem scanDelay_eof_iff {text : Bytes} : scanDelay text = .eof ↔ EndsEarly text := by
  unfold scanDelay EndsEarly
  constructor
  · intro h
    cases hlit : Scanf.literal delayFormat text with
    | eof => exact Or.inl (Scanf.literal_eof_iff.mp hlit).1
    | mismatch =>
      rw [hlit] at h
      cases h
    | ok u rest =>
      rw [hlit] at h
      exact Or.inr ⟨rest, Scanf.decimal_eof_iff.mp h, Scanf.literal_ok hlit⟩
  · rintro (hpre | ⟨ws, hws, rfl⟩)
    · by_cases heq : text = delayFormat
      · have hall := Scanf.literal_append delayFormat []
        rw [List.append_nil] at hall
        rw [heq, hall]
        rfl
      · rw [Scanf.literal_eof_iff.mpr ⟨hpre, heq⟩]
    · rw [Scanf.literal_append]
      exact Scanf.decimal_eof_iff.mpr hws

/-- It reads an integer exactly when there is one. -/
theorem hasInteger_iff {text : Bytes} : HasInteger text ↔ ∃ n rest, scanDelay text = .ok n rest := by
  unfold scanDelay
  constructor
  · rintro ⟨ws, t, n, rest, hws, ht, rfl⟩
    rw [Scanf.literal_append]
    dsimp only
    rw [Scanf.decimal_spaces hws]
    exact Scanf.decimal_append ht rest
  · rintro ⟨n, rest, h⟩
    cases hlit : Scanf.literal delayFormat text with
    | eof =>
      rw [hlit] at h
      cases h
    | mismatch =>
      rw [hlit] at h
      cases h
    | ok u rest' =>
      rw [hlit] at h
      obtain ⟨ws, t, hws, ht, hrest'⟩ := Scanf.decimal_ok h
      exact ⟨ws, t, n, rest, hws, ht, by rw [Scanf.literal_ok hlit, hrest']⟩

theorem c_str_of_not_mem {text : Bytes} (h : (0 : UInt8) ∉ text) : c_str text = text := by
  refine List.takeWhile_eq_self_iff.mpr fun c hc => ?_
  simp only [ne_eq, decide_not, Bool.not_eq_true', decide_eq_false_iff_not]
  rintro rfl
  exact h hc

/-- A command to set the delay is read as it is meant. -/
theorem scanDelay_setDelay {command : Bytes} {n : Int} (h : IsSetDelay command n) :
    scanDelay (c_str command) = .ok n [] := by
  obtain ⟨text, htext, rfl⟩ := h
  have hnul : (0 : UInt8) ∉ delayFormat ++ text := by
    rw [List.mem_append, not_or]
    refine ⟨by decide, fun hmem => ?_⟩
    rcases htext.forall_mem 0 hmem with h | h | h <;> exact absurd h (by decide)
  rw [c_str_of_not_mem hnul]
  unfold scanDelay
  rw [Scanf.literal_append]
  exact Scanf.decimal_self htext

theorem IsSetDelay.unique {command : Bytes} {n m : Int} (h : IsSetDelay command n) (h' : IsSetDelay command m) :
    n = m := by
  have hread := (scanDelay_setDelay h).symm.trans (scanDelay_setDelay h')
  injection hread

/-- A command for a sensor is none for the delay. -/
theorem scanDelay_set (tail : Bytes) : scanDelay (c_str (ascii "set" ++ 58 :: tail)) = .mismatch := rfl

/-! ## Commands for a sensor -/

theorem splitOn_set_iff {command name v : Bytes} :
    command.splitOn 58 = [ascii "set", name, v] ↔ IsSet command name v := by
  have hset : (58 : UInt8) ∉ ascii "set" := by decide
  rw [Delimited.splitOn_eq_cons_iff]
  constructor
  · rintro ⟨-, m, rfl, hm⟩
    obtain ⟨hname, v', rfl, hlast⟩ := Delimited.splitOn_eq_cons_iff.mp hm
    obtain ⟨hv, rfl⟩ := Delimited.splitOn_eq_singleton_iff.mp hlast
    exact ⟨hname, hv, rfl⟩
  · rintro ⟨hname, hv, rfl⟩
    refine ⟨hset, _, rfl, ?_⟩
    rw [Delimited.splitOn_eq_cons_iff]
    exact ⟨hname, v, rfl, Delimited.splitOn_eq_singleton_iff.mpr ⟨hv, rfl⟩⟩

theorem IsSet.scan {command name v : Bytes} (h : IsSet command name v) : scanDelay (c_str command) = .mismatch := by
  obtain ⟨-, -, rfl⟩ := h
  exact scanDelay_set _

theorem not_isSet_list (name v : Bytes) : ¬IsSet (ascii "list-sensors") name v := by
  intro h
  have hsplit := splitOn_set_iff.mpr h
  have hone : (ascii "list-sensors").splitOn 58 = [ascii "list-sensors"] := by decide
  rw [hone] at hsplit
  cases hsplit

namespace SensorsCommands

/-! ## The branches of `handle_command` -/

section Branches

variable {s : SensorsCommands} {command : Bytes} {disabled_sensors : UInt32} {value : Int32}

theorem scan_list : scanDelay (c_str (ascii "list-sensors")) = .mismatch := by decide

theorem handle_command_eof (h : scanDelay (c_str command) = .eof) :
    s.handle_command command disabled_sensors value = { s with delay_ := value } := by
  have hlist : command ≠ ascii "list-sensors" := by
    rintro rfl
    rw [scan_list] at h
    cases h
  rw [handle_command, if_neg hlist, h]

theorem handle_command_ok {n : Int} {rest : Bytes} (h : scanDelay (c_str command) = .ok n rest) :
    s.handle_command command disabled_sensors value =
      { s with delay_ := if IsInt n then Int32.ofInt n else value } := by
  have hlist : command ≠ ascii "list-sensors" := by
    rintro rfl
    rw [scan_list] at h
    cases h
  rw [handle_command, if_neg hlist, h]

/-- After a matching failure the delay stays. -/
theorem handle_command_mismatch (h : scanDelay (c_str command) = .mismatch) :
    (s.handle_command command disabled_sensors value).delay_ = s.delay_ := by
  rw [handle_command, h]
  dsimp only
  split_ifs
  · rfl
  · split
    · split_ifs <;> rfl
    · rfl

/-- Without an answer the replies stay. -/
theorem handle_command_replies (h : command ≠ ascii "list-sensors") :
    (s.handle_command command disabled_sensors value).replies = s.replies := by
  rw [handle_command, if_neg h]
  split
  · rfl
  · rfl
  · split
    · split_ifs <;> rfl
    · rfl

/-- The sensors change only by a command for one of them. -/
theorem handle_command_sensors (h : ∀ name v, ¬IsSet command name v) :
    (s.handle_command command disabled_sensors value).enabledSensors_ = s.enabledSensors_ := by
  unfold handle_command
  split_ifs
  · rfl
  · split
    · rfl
    · rfl
    · split
      · rename_i set name flag hsplit
        split_ifs with hset
        · exact absurd (splitOn_set_iff.mp (hset ▸ hsplit)) (h name flag)
        · exact absurd (splitOn_set_iff.mp (hset ▸ hsplit)) (h name flag)
        · rfl
      · rfl

/-- Such a command switches the sensor on or off. -/
theorem handle_command_set {name v : Bytes} (h : IsSet command name v) :
    (s.handle_command command disabled_sensors value).enabledSensors_ =
      if v = ascii "1" then s.enabledSensors_ ||| Sensor.FromString name
      else s.enabledSensors_ &&& ~~~Sensor.FromString name := by
  have hlist : command ≠ ascii "list-sensors" := by
    rintro rfl
    exact not_isSet_list name v h
  rw [handle_command, if_neg hlist, h.scan]
  dsimp only
  rw [splitOn_set_iff.mpr h]
  dsimp only
  rw [if_pos rfl]
  split_ifs <;> rfl

end Branches

end SensorsCommands

/-! ## All commands -/

section Effects

variable {command : Bytes}

theorem or_and_not (a b : UInt32) : (a ||| b) &&& ~~~b = a &&& ~~~b := by
  apply UInt32.toBitVec_inj.mp
  ext i hi
  simp only [UInt32.toBitVec_and, UInt32.toBitVec_or, UInt32.toBitVec_not, BitVec.getElem_and, BitVec.getElem_or,
    BitVec.getElem_not]
  cases a.toBitVec[i] <;> cases b.toBitVec[i] <;> rfl

/-- What is done with the sensors and the replies is right for every command, whatever it does to the delay. -/
theorem effects_of_delay (s : SensorsCommands) (disabled_sensors : UInt32) (value : Int32)
    (hdelay : ∀ n, IsSetDelay command n →
      (s.handle_command command disabled_sensors value).delay_.toInt = n)
    (hother : (∀ n, ¬IsSetDelay command n) →
      (s.handle_command command disabled_sensors value).delay_ = s.delay_) :
    Effects command s (s.handle_command command disabled_sensors value) where
  delay := hdelay
  delay_only := hother
  sensor := by
    intro name v h
    rw [SensorsCommands.handle_command_set h]
    split_ifs
    · exact or_and_not _ _
    · rw [UInt32.and_assoc, UInt32.and_self]
  sensor_only := SensorsCommands.handle_command_sensors
  reply_only := SensorsCommands.handle_command_replies

/-- A command that is well put does what it says. -/
theorem WellPut.effects (h : WellPut command) (s : SensorsCommands) (disabled_sensors : UInt32) (value : Int32) :
    Effects command s (s.handle_command command disabled_sensors value) := by
  cases hscan : scanDelay (c_str command) with
  | eof => exact absurd (scanDelay_eof_iff.mp hscan) h.long_enough
  | mismatch =>
    refine effects_of_delay s disabled_sensors value (fun n hn => ?_)
      fun _ => SensorsCommands.handle_command_mismatch hscan
    rw [scanDelay_setDelay hn] at hscan
    cases hscan
  | ok n rest =>
    obtain ⟨m, hm, hint⟩ := h.exact (hasInteger_iff.mpr ⟨n, rest, hscan⟩)
    have hset : s.handle_command command disabled_sensors value = { s with delay_ := Int32.ofInt m } := by
      rw [SensorsCommands.handle_command_ok (scanDelay_setDelay hm), if_pos hint]
    refine effects_of_delay s disabled_sensors value (fun k hk => ?_) fun hno => absurd hm (hno m)
    rw [hset, hk.unique hm]
    exact Int32.toInt_ofInt_of_le hint.1 hint.2

/-- A command with the right effects in every state is well put. -/
theorem wellPut_of_effects
    (h : ∀ s disabled_sensors value, Effects command s
      (SensorsCommands.handle_command s command disabled_sensors value)) : WellPut command where
  long_enough := by
    intro hends
    have hscan := scanDelay_eof_iff.mpr hends
    have hother : ∀ n, ¬IsSetDelay command n := by
      intro n hn
      rw [scanDelay_setDelay hn] at hscan
      cases hscan
    -- the delay becomes what happens to be in `value`
    have hsame := (h {} 0 0).delay_only hother
    rw [SensorsCommands.handle_command_eof hscan] at hsame
    revert hsame
    decide
  exact := by
    intro hhas
    obtain ⟨n, rest, hscan⟩ := hasInteger_iff.mp hhas
    by_cases hset : ∃ m, IsSetDelay command m
    · obtain ⟨m, hm⟩ := hset
      have hdelay := (h {} 0 0).delay m hm
      refine ⟨m, hm, ?_⟩
      rw [← hdelay]
      exact ⟨Int32.le_toInt _, Int32.toInt_lt _⟩
    · -- the same delay is set whatever it was before
      have hother := not_exists.mp hset
      have hzero := (h { delay_ := 0 } 0 0).delay_only hother
      have hone := (h { delay_ := 1 } 0 0).delay_only hother
      rw [SensorsCommands.handle_command_ok hscan] at hzero hone
      have hclash : (0 : Int32) = 1 := hzero.symm.trans hone
      exact absurd hclash (by decide)

end Effects

/-- A command has the effects that it should have, in every state, exactly when it is well put. -/
theorem effects_iff (command : Bytes) :
    (∀ (s : SensorsCommands) (disabled_sensors : UInt32) (value : Int32),
      Effects command s (s.handle_command command disabled_sensors value)) ↔ WellPut command :=
  ⟨wellPut_of_effects, fun h => h.effects⟩

/-- The empty command sets the delay to whatever is in `value`. -/
theorem not_always_effects : ¬ ∀ (command : Bytes) (s : SensorsCommands) (disabled_sensors : UInt32) (value : Int32),
    Effects command s (s.handle_command command disabled_sensors value) := by
  intro h
  have hwell := wellPut_of_effects (h [])
  exact hwell.long_enough (Or.inl List.nil_prefix)

/-! ## The commands of the guest -/

theorem isSetDelay_guest (ms : Int32) : IsSetDelay (sensor_device_set_delay ms) ms.toInt :=
  ⟨_, Scanf.isDecimal_toString ms.toInt, rfl⟩

/-- A command with the scan of a matching failure is well put. -/
theorem wellPut_of_mismatch {command : Bytes} (h : scanDelay (c_str command) = .mismatch) : WellPut command where
  long_enough := by
    intro hends
    rw [scanDelay_eof_iff.mpr hends] at h
    cases h
  exact := by
    intro hhas
    obtain ⟨n, rest, hscan⟩ := hasInteger_iff.mp hhas
    rw [hscan] at h
    cases h

/-- The guest puts its commands well, so that each of them has the effects that it should have. -/
theorem wellPut_guest : (∀ ms, WellPut (sensor_device_set_delay ms)) ∧
    (∀ name enabled, WellPut (sensor_device_activate name enabled)) ∧ WellPut (ascii "list-sensors") := by
  refine ⟨fun ms => ⟨fun hends => ?_, fun _ => ?_⟩, fun name enabled => ?_, ?_⟩
  · have hscan := scanDelay_setDelay (isSetDelay_guest ms)
    rw [scanDelay_eof_iff.mpr hends] at hscan
    cases hscan
  · exact ⟨ms.toInt, isSetDelay_guest ms, Int32.le_toInt ms, Int32.toInt_lt ms⟩
  · refine wellPut_of_mismatch ?_
    unfold sensor_device_activate
    rw [List.append_assoc]
    exact scanDelay_set _
  · exact wellPut_of_mismatch SensorsCommands.scan_list

/-! ## The two models of the processor -/

section Threads

variable (p : SensorsMessageProcessor) {command : Bytes} {disabled_sensors : UInt32}

theorem threads_set {name v : Bytes} (h : IsSet command name v) :
    (p.handle_command command disabled_sensors).enabledSensors_ =
      if v = ascii "1" then p.enabledSensors_ ||| Sensor.FromString name
      else p.enabledSensors_ &&& ~~~Sensor.FromString name := by
  have hlist : command ≠ ascii "list-sensors" := by
    rintro rfl
    exact not_isSet_list name v h
  rw [SensorsMessageProcessor.handle_command, if_neg hlist, splitOn_set_iff.mpr h]
  dsimp only
  rw [if_pos rfl]
  split_ifs <;> rfl

theorem threads_other (h : ∀ name v, ¬IsSet command name v) :
    (p.handle_command command disabled_sensors).enabledSensors_ = p.enabledSensors_ := by
  unfold SensorsMessageProcessor.handle_command
  split_ifs
  · rfl
  · split
    · rename_i set name flag hsplit
      split_ifs with hset
      · exact absurd (splitOn_set_iff.mp (hset ▸ hsplit)) (h name flag)
      · exact absurd (splitOn_set_iff.mp (hset ▸ hsplit)) (h name flag)
      · rfl
    · rfl

/-- The sensors and the answers are those of the model with the two threads. -/
theorem handle_command_agrees (s : SensorsCommands) (value : Int32)
    (hsensors : s.enabledSensors_ = p.enabledSensors_) :
    (s.handle_command command disabled_sensors value).enabledSensors_ =
        (p.handle_command command disabled_sensors).enabledSensors_ ∧
      ∀ msg, (s.handle_command command disabled_sensors value).replies = s.replies ++ [msg] →
        (p.handle_command command disabled_sensors).commandThread = .replying msg := by
  constructor
  · by_cases hset : ∃ name v, IsSet command name v
    · obtain ⟨name, v, h⟩ := hset
      rw [SensorsCommands.handle_command_set h, threads_set p h, hsensors]
    · have hother : ∀ name v, ¬IsSet command name v := fun name v h => hset ⟨name, v, h⟩
      rw [SensorsCommands.handle_command_sensors hother, threads_other p hother, hsensors]
  · intro msg hmsg
    by_cases hlist : command = ascii "list-sensors"
    · rw [SensorsCommands.handle_command, if_pos hlist] at hmsg
      rw [SensorsMessageProcessor.handle_command, if_pos hlist]
      have heq := List.append_cancel_left hmsg
      rw [← List.singleton_inj.mp heq]
    · rw [SensorsCommands.handle_command_replies hlist] at hmsg
      have hnil := List.append_cancel_left ((List.append_nil _).trans hmsg)
      cases hnil

end Threads

end AnboxReboxed.Qemu
