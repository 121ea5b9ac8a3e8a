import AnboxReboxed.Rpc.MessageProcessor
import AnboxReboxed.Rpc.Proofs.MessageProcessorProofs

/-!
# Framing round trip

What is sent arrives when its size fits the three bytes of the header. The senders refuse a message only
when its size is no `int`, so that a larger one goes out under a header that holds its size modulo 2^24.
-/

namespace AnboxReboxed.Rpc

open AnboxReboxed.Lib Handlers

variable {η : Type} {P : Protobuf} {h : Handlers η}

/-- The frame a message travels in. -/
def Message.frame (P : Protobuf) (m : Message) : Frame := ⟨m.type, m.serialize P⟩

theorem Message.parse_frame (hP : P.Lawful) (m : Message) : (m.frame P).parse P = some m := by
  cases m with
  | invocation m =>
    simp [Message.frame, Frame.parse, Message.type, Message.serialize, hP.parse_invocation]
  | result m =>
    simp [Message.frame, Frame.parse, Message.type, Message.serialize, hP.parse_result,
      show MessageType.response ≠ MessageType.invocation by decide]

/-- A message is no longer than the frame it was parsed from. -/
theorem Frame.serialize_le (hP : P.Lawful) {f : Frame} {m : Message} (hf : f.parse P = some m) :
    (m.serialize P).length ≤ f.message.length := by
  unfold Frame.parse at hf
  split at hf
  · obtain ⟨i, hi, rfl⟩ := Option.map_eq_some_iff.mp hf
    exact hP.invocation_shortest _ _ hi
  · split at hf
    · obtain ⟨r, hr, rfl⟩ := Option.map_eq_some_iff.mp hf
      exact hP.result_shortest _ _ hr
    · cases hf

theorem Channel.send_message_of_lt {type : UInt8} {message : Bytes} (hlt : message.length < 2 ^ 24) :
    send_message type message = .sent (Frame.bytes ⟨type, message⟩) := by
  have hfits : ¬INT_MAX < message.length := by
    simp only [INT_MAX]
    omega
  simp only [send_message, serialize_to_array_or_throw, if_neg hfits, Frame.bytes]

/-- A sender that does not throw sends a message of less than 2^24 bytes in its frame. -/
theorem Sending.bytes_send (hP : P.Lawful) {m : Sending} (hok : m.send P ≠ .threw)
    (hlt : (m.message.serialize P).length < 2 ^ 24) : (m.send P).bytes = (m.message.frame P).bytes := by
  cases m with
  | call_method id method_name parameters =>
    by_cases hfits : INT_MAX < parameters.length
    · simp [Sending.send, Channel.call_method, Channel.invocation_for,
        Channel.serialize_to_array_or_throw, hfits] at hok
    · simp only [Sending.send, Channel.call_method, Channel.invocation_for,
        Channel.serialize_to_array_or_throw, if_neg hfits, Option.map_some]
      exact congrArg Sent.bytes (Channel.send_message_of_lt hlt)
  | send_event event =>
    by_cases hfits : INT_MAX < event.length
    · simp [Sending.send, Channel.send_event, Channel.serialize_to_array_or_throw, hfits] at hok
    · simp only [Sending.send, Channel.send_event, Channel.serialize_to_array_or_throw, if_neg hfits]
      exact congrArg Sent.bytes (Channel.send_message_of_lt hlt)
  | send_response id response =>
    have hheld := hP.response_held { id := some id, response := some response } response rfl
    have hsize := size_fits_of_lt hlt
    have hinner := size_fits_of_lt (Nat.lt_of_le_of_lt hheld hlt)
    simp only [Sending.message, Message.serialize] at hsize
    simp only [Sending.send, Rpc.send_response, hsize, hinner]
    rfl

/-- The frames of messages whose responses the peer waits for are accepted. -/
theorem accepts_frames (hP : P.Lawful) (messages : List Message) : ∀ s : Progress η, s.failure = none →
    (∀ m ∈ messages, (m.serialize P).length < 2 ^ 24) →
    (∀ e, ∀ m ∈ messages, ∀ r, m = .result r → r.id.isSome →
      (h.populate_message_for_result e r).2 = .parsed) →
    Accepts P h s (messages.map (Message.frame P)) := by
  induction messages with
  | nil => exact fun s _ _ _ => trivial
  | cons m messages ih =>
    intro s hs hlt hanswer
    have hlen : (m.frame P).message.length < 2 ^ 24 := hlt m List.mem_cons_self
    have hparse := Message.parse_frame hP m
    have hok : (h.onFrame P s (m.frame P)).failure = none := by
      rcases onFrame_cases (P := P) (h := h) s hs hlen with ⟨hok, -, -⟩ | ⟨-, hbad⟩ | ⟨-, r, hr, hid, hbad⟩
      · exact hok
      · rcases hbad with ⟨-, hnone⟩ | ⟨r, hr, hid, hbad⟩
        · rw [hparse] at hnone
          cases hnone
        · rw [hparse] at hr
          rw [hanswer _ m List.mem_cons_self r (Option.some.inj hr) hid] at hbad
          cases hbad
      · rw [hparse] at hr
        rw [hanswer _ m List.mem_cons_self r (Option.some.inj hr) hid] at hbad
        cases hbad
    refine ⟨hlen, hok, ih (taken P h s (m.frame P)) hok ?_ ?_⟩
    · exact fun m' hm' => hlt m' (List.mem_cons_of_mem m hm')
    · exact fun e m' hm' => hanswer e m' (List.mem_cons_of_mem m hm')

theorem Handlers.Accepts.lt {fs : List Frame} : ∀ {s : Progress η}, Accepts P h s fs →
    ∀ f ∈ fs, f.message.length < 2 ^ 24 := by
  induction fs with
  | nil => simp
  | cons f fs ih =>
    intro s hacc g hg
    rcases List.mem_cons.mp hg with rfl | hg
    · exact hacc.1
    · exact ih hacc.2.2 g hg

/-- A connection that waits has taken in frames of less than 2^24 bytes only. -/
theorem frames_lt {env : η} {chunks : List Bytes} {s : Progress η} {rest : Bytes}
    (hw : h.process_chunks P env chunks = .waiting s rest) : ∀ f ∈ s.frames, f.message.length < 2 ^ 24 := by
  rw [process_chunks_eq] at hw
  obtain ⟨fs, rest', hstream, hacc, hend⟩ := stream_cases (P := P) (h := h) { env } chunks.flatten
  rw [hstream, drive_accepted fs _ _ hacc] at hw
  rcases hend with hinc | ⟨f, rest'', hlen, rfl, hbad⟩
  · rw [drive_incomplete _ hinc] at hw
    cases hw
    rw [progress_frames]
    exact hacc.lt
  · rw [drive_frame_refused hlen hbad] at hw
    cases hw

theorem filterMap_parse_frames (hP : P.Lawful) (messages : List Message) :
    (messages.map (Message.frame P)).filterMap (Frame.parse P) = messages := by
  induction messages with
  | nil => rfl
  | cons m messages ih =>
    rw [List.map_cons, List.filterMap_cons_some (Message.parse_frame hP m), ih]

theorem flatMap_calls_frames (hP : P.Lawful) (messages : List Message) :
    (messages.map (Message.frame P)).flatMap (Frame.calls P) = messages.flatMap Message.calls := by
  induction messages with
  | nil => rfl
  | cons m messages ih =>
    have hcalls : (m.frame P).calls P = m.calls := by
      rw [Frame.calls, Message.parse_frame hP m]
      rfl
    rw [List.map_cons, List.flatMap_cons, List.flatMap_cons, ih, hcalls]

/-- What is delivered was short enough. -/
theorem Delivered.lt (hP : P.Lawful) {env : η} {sendings : List Sending}
    (hdel : Delivered P h env sendings) : ∀ m ∈ sendings, (m.message.serialize P).length < 2 ^ 24 := by
  intro m hm
  obtain ⟨s, hw, hmessages, -⟩ := hdel [transmitted P sendings] (by simp)
  have hmem : m.message ∈ s.messages P := by
    rw [hmessages]
    exact List.mem_map_of_mem hm
  obtain ⟨f, hf, hparse⟩ := List.mem_filterMap.mp hmem
  exact Nat.lt_of_le_of_lt (Frame.serialize_le hP hparse) (frames_lt hw f hf)

/-- Messages are delivered exactly when each is serialized to less than 2^24 bytes. The senders did not
throw, and the peer waits for the responses. -/
theorem framing_round_trip_iff (hP : P.Lawful) (h : Handlers η) (env : η) (sendings : List Sending)
    (hok : ∀ m ∈ sendings, m.send P ≠ .threw)
    (hanswer : ∀ e, ∀ m ∈ sendings, ∀ r, m.message = .result r → r.id.isSome →
      (h.populate_message_for_result e r).2 = .parsed) :
    Delivered P h env sendings ↔ ∀ m ∈ sendings, (m.message.serialize P).length < 2 ^ 24 := by
  constructor
  · exact fun hdel => hdel.lt hP
  · intro hlt chunks hchunks
    have hbytes : transmitted P sendings =
        ((sendings.map Sending.message).map (Message.frame P)).flatMap Frame.bytes := by
      simp only [transmitted, List.map_map, List.flatMap_def]
      congr 1
      apply List.map_congr_left
      intro m hm
      exact Sending.bytes_send hP (hok m hm) (hlt m hm)
    have hacc : Accepts P h { env } ((sendings.map Sending.message).map (Message.frame P)) := by
      apply accepts_frames hP _ _ rfl
      · intro m hm
        obtain ⟨x, hx, rfl⟩ := List.mem_map.mp hm
        exact hlt x hx
      · intro e m hm r hr
        obtain ⟨x, hx, rfl⟩ := List.mem_map.mp hm
        exact hanswer e x hx r hr
    obtain ⟨-, hcalls, -⟩ := progress_accepted _ _ rfl hacc
    refine ⟨progress P h { env } ((sendings.map Sending.message).map (Message.frame P)), ?_, ?_, ?_⟩
    · have hdrive := drive_accepted _ _ [] hacc
      rw [List.append_nil] at hdrive
      rw [process_chunks_eq, hchunks, hbytes, hdrive]
      exact drive_incomplete _ trivial
    · rw [Progress.messages, progress_frames]
      exact filterMap_parse_frames hP _
    · rw [hcalls, flatMap_calls_frames hP]
      rfl

theorem wire_event_length (event : Bytes) :
    ((Sending.send_event event).message.serialize wire).length =
      1 + (writeVarint event.length).length + event.length := by
  simp [Sending.message, Message.serialize, wire, writeFields, Result.fields, Field.write]
  omega

/-- An event of two bytes arrives. -/
theorem framing_round_trip_event : Delivered wire idle () [.send_event [1, 2]] := by
  apply (framing_round_trip_iff wire_lawful idle () [.send_event [1, 2]] ?_ ?_).mpr
  · intro m hm
    cases List.mem_singleton.mp hm
    rw [wire_event_length]
    simp [writeVarint]
  · intro m hm
    cases List.mem_singleton.mp hm
    simp [Sending.send, Channel.send_event, Channel.send_message, Channel.serialize_to_array_or_throw,
      INT_MAX, wire, writeFields, Result.fields, Field.write, writeVarint]
  · exact fun _ _ _ _ _ _ => rfl

theorem Channel.send_event_ne_threw {event : Bytes} (hinner : event.length ≤ INT_MAX)
    (houter : (P.serializeResult { events := [event] }).length ≤ INT_MAX) :
    send_event P event ≠ .threw := by
  simp [send_event, send_message, serialize_to_array_or_throw, Nat.not_lt.mpr hinner,
    Nat.not_lt.mpr houter]

/-- An event of 2^24 bytes. -/
@[irreducible] def largeEvent : Bytes := List.replicate (2 ^ 24) 0

theorem length_largeEvent : largeEvent.length = 2 ^ 24 := by
  rw [largeEvent, List.length_replicate]

/-- The event of 2^24 bytes is sent without an error, and it does not arrive. -/
theorem large_event_lost :
    (Sending.send_event largeEvent).send wire ≠ .threw ∧
      ¬Delivered wire idle () [.send_event largeEvent] := by
  have hvarint : (writeVarint (2 ^ 24)).length = 4 := by simp [writeVarint]
  have hlen : (wire.serializeResult { events := [largeEvent] }).length = 1 + 4 + 2 ^ 24 := by
    rw [← hvarint, ← length_largeEvent]
    exact wire_event_length largeEvent
  have hmax : INT_MAX = 2 ^ 31 - 1 := rfl
  constructor
  · apply Channel.send_event_ne_threw
    · rw [length_largeEvent]
      omega
    · omega
  · intro hdel
    have hlt := hdel.lt wire_lawful _ List.mem_cons_self
    change (wire.serializeResult { events := [largeEvent] }).length < 2 ^ 24 at hlt
    omega

end AnboxReboxed.Rpc
