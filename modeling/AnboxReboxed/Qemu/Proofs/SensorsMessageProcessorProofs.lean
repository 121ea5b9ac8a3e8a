import AnboxReboxed.Qemu.Proofs.QemudMessageProcessorProofs
import AnboxReboxed.Qemu.SensorsMessageProcessor
import Mathlib.Data.Nat.Digits.Lemmas

/-!
# Proofs: frames of the sensor pipe

Every message is short enough for its header and is not empty. When no header is sent between the header and
the body of another message, the output is a sequence of frames, and the guest decodes it as one.
-/

namespace AnboxReboxed.Qemu

open AnboxReboxed.Lib

/-! ## The guest -/

/-- A message that a header can announce. -/
def Short (msg : Bytes) : Prop := 0 < msg.length ∧ msg.length ≤ 0xffff

theorem guestNext_frame {msg : Bytes} (h : Short msg) (messages : List Bytes) (rest : Bytes) :
    guestNext messages (frame msg ++ rest) = .consumed (frame msg).length (messages ++ [msg]) := by
  have hframe := length_frame h.2
  have htake : (frame msg ++ rest).take header_size = header msg.length := by
    rw [frame, List.append_assoc, ← length_header h.2, List.take_left]
  have hbody : ((frame msg ++ rest).drop header_size).take msg.length = msg := by
    rw [frame, List.append_assoc, ← length_header h.2, List.drop_left, List.take_left]
  simp only [guestNext, htake, scanHeader_header h.2, hbody]
  rw [if_neg, hframe]
  rw [List.length_append]
  omega

theorem guestNext_header {msg : Bytes} (h : Short msg) (messages : List Bytes) :
    guestNext messages (header msg.length) = .more := by
  have hlen := length_header h.2
  have htake : (header msg.length).take header_size = header msg.length := by
    rw [← hlen, List.take_length]
  simp only [guestNext, htake, scanHeader_header h.2]
  rw [if_pos]
  obtain ⟨hpos, -⟩ := h
  omega

/-- The guest decodes a stream of short messages. -/
theorem drive_stream (msgs : List Bytes) : ∀ (messages : List Bytes) (rest : Bytes), (∀ msg ∈ msgs, Short msg) →
    guest.drive messages (stream msgs ++ rest) = guest.drive (messages ++ msgs) rest := by
  induction msgs with
  | nil =>
    intro messages rest _
    rw [List.append_nil]
    rfl
  | cons msg msgs ih =>
    intro messages rest h
    have hmsg := h msg List.mem_cons_self
    rw [stream_cons, List.append_assoc, Framing.drive_consumed (guestNext_frame hmsg messages _), List.drop_left,
      ih _ rest fun m hm => h m (List.mem_cons_of_mem _ hm), List.append_assoc, List.singleton_append]

/-! ## Messages are short -/

theorem to_string_short (n : UInt32) : Short (to_string n.toNat) := by
  have hlt : n.toNat < 10 ^ 10 := by
    have := n.toNat_lt
    omega
  unfold to_string Short
  split_ifs with hn
  · simp
  · have hlen : (Nat.digits 10 n.toNat).length ≤ 10 := (Nat.digits_length_le_iff (by omega) _).mpr hlt
    have hpos : 0 < (Nat.digits 10 n.toNat).length := List.length_pos_of_ne_nil (Nat.digits_ne_nil_iff_ne_zero.mpr hn)
    rw [List.length_map, List.length_reverse]
    omega

theorem text_short (r : Report) (value : Value) : Short (r.text value) := by
  have hvalue := value.property
  cases r with
  | sync =>
    simp only [Short, Report.text, List.length_append]
    have : (ascii "sync:").length = 5 := by decide
    omega
  | sensor s =>
    have hlabel : 0 < s.label.length ∧ s.label.length ≤ 20 := by cases s <;> decide
    simp only [Short, Report.text, List.length_append]
    omega

namespace SensorsMessageProcessor

variable {s s' : SensorsMessageProcessor}

/-! ## Steps -/

/-- The message that the connection's thread is about to send is short. -/
def ReplyShort : CommandThread → Prop
  | .replying msg => Short msg
  | _ => True

structure Orderly (s : SensorsMessageProcessor) : Prop where
  sent : ∀ msg ∈ s.sent, Short msg
  flight : ∀ msg ∈ s.inFlight, Short msg
  reply : ReplyShort s.commandThread
  single : s.inFlight.length ≤ 1
  output : s.output = stream s.sent ++ s.begun

theorem Orderly.framed (hs : s.Orderly) : s.Framed := by
  have hrest : guest.next s.sent s.begun = .more := by
    unfold begun
    have hflight := hs.flight
    have hsingle := hs.single
    match hmsgs : s.inFlight with
    | [] => rfl
    | [msg] =>
      rw [hmsgs] at hflight
      rw [List.flatMap_singleton]
      exact guestNext_header (hflight msg List.mem_cons_self) _
    | _ :: _ :: _ =>
      rw [hmsgs] at hsingle
      simp at hsingle
  refine ⟨hs.single, hs.output, ?_⟩
  rw [hs.output, drive_stream s.sent [] _ hs.sent, List.nil_append]
  exact Framing.drive_more hrest

/-- A step that sends nothing. -/
theorem Orderly.quiet (hs : s.Orderly) (houtput : s'.output = s.output) (hsent : s'.sent = s.sent)
    (hflight : s'.inFlight = s.inFlight) (hreply : ReplyShort s'.commandThread) : s'.Orderly := by
  refine ⟨hsent ▸ hs.sent, hflight ▸ hs.flight, hreply, hflight ▸ hs.single, ?_⟩
  rw [houtput, hsent, begun, hflight]
  exact hs.output

/-- The sensor thread moves between two messages. -/
theorem Orderly.idles {thread : SensorThread} (hs : s.Orderly) (hold : s.sensorThread.inFlight = [])
    (hnew : thread.inFlight = []) : Orderly { s with sensorThread := thread } := by
  refine hs.quiet rfl rfl ?_ hs.reply
  rw [inFlight, inFlight, hold, hnew]

/-- A header goes out while no message is in flight. -/
theorem Orderly.begin {msg : Bytes} (hs : s.Orderly) (hfree : s.inFlight = []) (hmsg : Short msg)
    (houtput : s'.output = s.output ++ header msg.length) (hsent : s'.sent = s.sent) (hflight : s'.inFlight = [msg])
    (hreply : ReplyShort s'.commandThread) : s'.Orderly := by
  have hbegun : s.begun = [] := by
    rw [begun, hfree]
    rfl
  refine ⟨hsent ▸ hs.sent, ?_, hreply, ?_, ?_⟩
  · rw [hflight]
    intro m hm
    rw [List.mem_singleton.mp hm]
    exact hmsg
  · rw [hflight]
    exact Nat.le_refl 1
  · rw [houtput, hs.output, hbegun, hsent, begun, hflight, List.flatMap_singleton, List.append_nil]

/-- The body goes out behind its header. -/
theorem Orderly.finish {msg : Bytes} (hs : s.Orderly) (hold : s.inFlight = [msg])
    (houtput : s'.output = s.output ++ msg) (hsent : s'.sent = s.sent ++ [msg]) (hflight : s'.inFlight = [])
    (hreply : ReplyShort s'.commandThread) : s'.Orderly := by
  have hmsg : Short msg := hs.flight msg (by rw [hold]; exact List.mem_cons_self)
  refine ⟨?_, ?_, hreply, ?_, ?_⟩
  · rw [hsent]
    intro m hm
    rcases List.mem_append.mp hm with hm | hm
    · exact hs.sent m hm
    · rw [List.mem_singleton.mp hm]
      exact hmsg
  · rw [hflight]
    intro m hm
    cases hm
  · rw [hflight]
    exact Nat.zero_le 1
  · rw [houtput, hs.output, hsent, stream_append, begun, begun, hold, hflight]
    simp [stream, frame]

/-- With one message in flight, the other thread is not sending. -/
theorem Orderly.alone (hs : s.Orderly) {msg : Bytes} :
    (s.sensorThread.inFlight = [msg] → s.commandThread.inFlight = []) ∧
      (s.commandThread.inFlight = [msg] → s.sensorThread.inFlight = []) := by
  have hsingle := hs.single
  rw [inFlight, List.length_append] at hsingle
  refine ⟨fun h => ?_, fun h => ?_⟩
  · rw [h, List.length_singleton] at hsingle
    exact List.eq_nil_of_length_eq_zero (by omega)
  · rw [h, List.length_singleton] at hsingle
    exact List.eq_nil_of_length_eq_zero (by omega)

theorem Orderly.handle_command (hs : s.Orderly) (hidle : s.commandThread = .idle) (command : Bytes)
    (disabled_sensors : UInt32) : (s.handle_command command disabled_sensors).Orderly := by
  have hkeep : ∀ s' : SensorsMessageProcessor, s'.output = s.output → s'.sent = s.sent →
      s'.sensorThread = s.sensorThread → s'.commandThread = s.commandThread → s'.Orderly := by
    intro s' houtput hsent hsensor hcommand
    refine hs.quiet houtput hsent ?_ (hcommand ▸ hs.reply)
    rw [inFlight, inFlight, hsensor, hcommand]
  unfold SensorsMessageProcessor.handle_command
  split_ifs with hlist
  · refine hs.quiet rfl rfl ?_ (to_string_short _)
    rw [inFlight, inFlight, hidle]
    rfl
  · split
    · split_ifs
      · exact hkeep _ rfl rfl rfl rfl
      · exact hkeep _ rfl rfl rfl rfl
      · exact hs
    · exact hs

theorem Orderly.step {i : SensorsOp} (hs : s.Orderly) (hC : s.Undisturbed i) (h : s.step i = some s') : s'.Orderly := by
  cases i with
  | round =>
    simp only [SensorsMessageProcessor.step] at h
    split at h
    · next hthread =>
      cases h
      exact hs.idles (by rw [hthread]; rfl) rfl
    · cases h
  | skip =>
    simp only [SensorsMessageProcessor.step] at h
    split at h
    · next hthread =>
      cases h
      exact hs.idles (by rw [hthread]; rfl) rfl
    · next hthread =>
      split_ifs at h
      cases h
      exact hs.idles (by rw [hthread]; rfl) rfl
    · cases h
  | report value =>
    simp only [SensorsMessageProcessor.step] at h
    split at h
    · next enabledSensors r left hthread =>
      split_ifs at h
      cases h
      refine hs.begin hC (text_short r value) rfl rfl ?_ hs.reply
      have hcommand : s.commandThread.inFlight = [] := (List.append_eq_nil_iff.mp hC).2
      show [_] ++ s.commandThread.inFlight = _
      rw [hcommand]
      rfl
    · cases h
  | reported =>
    simp only [SensorsMessageProcessor.step] at h
    split at h
    · next msg enabledSensors left hthread =>
      cases h
      have hsensor : s.sensorThread.inFlight = [msg] := by rw [hthread]; rfl
      have hcommand := hs.alone.1 hsensor
      have hold : s.inFlight = [msg] := by rw [inFlight, hsensor, hcommand]; rfl
      exact hs.finish hold rfl rfl hcommand hs.reply
    · cases h
  | handle_command command disabled_sensors =>
    obtain ⟨hidle, h⟩ := Option.ite_none_right_eq_some.mp h
    cases h
    exact hs.handle_command hidle command disabled_sensors
  | reply =>
    simp only [SensorsMessageProcessor.step] at h
    split at h
    · next msg hthread =>
      cases h
      have hmsg : Short msg := by
        have hreply := hs.reply
        rw [hthread] at hreply
        exact hreply
      refine hs.begin hC hmsg rfl rfl ?_ trivial
      have hsensor : s.sensorThread.inFlight = [] := (List.append_eq_nil_iff.mp hC).1
      show s.sensorThread.inFlight ++ [_] = _
      rw [hsensor]
      rfl
    · cases h
  | replied =>
    simp only [SensorsMessageProcessor.step] at h
    split at h
    · next msg hthread =>
      cases h
      have hcommand : s.commandThread.inFlight = [msg] := by rw [hthread]; rfl
      have hsensor := hs.alone.2 hcommand
      have hold : s.inFlight = [msg] := by rw [inFlight, hsensor, hcommand]; rfl
      refine hs.finish hold rfl rfl ?_ trivial
      show s.sensorThread.inFlight ++ [] = _
      rw [hsensor]
      rfl
    · cases h

/-- The output stays framed in runs in which no header comes between the header and the body of another
message. -/
theorem output_framed (ops : List SensorsOp)
    (h : sensorsMachine.AllSteps Undisturbed sensorsMachine.init ops) :
    sensorsMachine.AllStates Framed sensorsMachine.init ops := by
  have hinit : Orderly {} := by
    refine ⟨?_, ?_, trivial, Nat.zero_le 1, rfl⟩
    · intro msg hm
      cases hm
    · intro msg hm
      cases hm
  exact Machine.allStates_of_allSteps (P := Orderly) (fun _ _ _ hs hC h => hs.step hC h) (fun _ hs => hs.framed) hinit h

/-- The acceleration is reported, and then the sensors are listed. -/
def listOps : List SensorsOp :=
  [.handle_command (ascii "set:acceleration:1") 0, .round, .report ⟨[], by decide⟩, .reported,
    .handle_command (ascii "list-sensors") 0, .reply, .replied]

theorem output_framed_list :
    (∃ s, sensorsMachine.exec sensorsMachine.init listOps = some s ∧
      s.sent = [ascii "acceleration:", to_string 255]) ∧
    sensorsMachine.AllStates Framed sensorsMachine.init listOps := by
  refine ⟨⟨_, rfl, rfl⟩, output_framed listOps ?_⟩
  exact (Machine.allSteps_cons rfl).mpr ⟨trivial, (Machine.allSteps_cons rfl).mpr ⟨trivial,
    (Machine.allSteps_cons rfl).mpr ⟨by rfl, (Machine.allSteps_cons rfl).mpr ⟨trivial,
      (Machine.allSteps_cons rfl).mpr ⟨trivial, (Machine.allSteps_cons rfl).mpr ⟨by rfl,
        (Machine.allSteps_cons rfl).mpr ⟨trivial, trivial⟩⟩⟩⟩⟩⟩⟩

/-- The sensors are listed between the header and the body of a report. -/
def mixedOps : List SensorsOp :=
  [.handle_command (ascii "set:acceleration:1") 0, .round, .report ⟨[], by decide⟩,
    .handle_command (ascii "list-sensors") 0, .reply, .replied, .reported]

/-- The guest takes the header of the reply for the beginning of the report. -/
theorem mixed_output_not_framed :
    ∃ s, sensorsMachine.exec sensorsMachine.init mixedOps = some s ∧
      s.output = header 13 ++ header 3 ++ to_string 255 ++ ascii "acceleration:" ∧ ¬s.Framed := by
  have hreply : (to_string 255).length = 3 := by simp [to_string]
  have hrun : ∃ s, sensorsMachine.exec sensorsMachine.init mixedOps = some s ∧
      s.output = header 13 ++ header (to_string 255).length ++ to_string 255 ++ ascii "acceleration:" ∧
      s.sent = [to_string 255, ascii "acceleration:"] := ⟨_, rfl, rfl, rfl⟩
  obtain ⟨s, hs, houtput, hsent⟩ := hrun
  rw [hreply] at houtput
  refine ⟨s, hs, houtput, fun hframed => ?_⟩
  have hequal := hframed.output
  rw [houtput, hsent, stream_cons, frame, hreply] at hequal
  -- The streams differ in their first header.
  have hheader : header 13 = header 3 := by
    have htake := congrArg (List.take header_size) hequal
    simp only [List.append_assoc] at htake
    rw [← length_header (show 13 ≤ 0xffff by omega), List.take_left, length_header (show 13 ≤ 0xffff by omega),
      ← length_header (show 3 ≤ 0xffff by omega), List.take_left] at htake
    exact htake
  have hsize := congrArg scanHeader hheader
  rw [scanHeader_header (by omega), scanHeader_header (by omega)] at hsize
  omega

end SensorsMessageProcessor

end AnboxReboxed.Qemu
