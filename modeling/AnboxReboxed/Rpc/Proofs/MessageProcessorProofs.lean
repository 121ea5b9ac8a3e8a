import AnboxReboxed.Rpc.MessageProcessor

/-!
# What `process_data` makes of a stream

A stream is a sequence of complete frames and less than one frame more, or it has a first frame that is
refused. `process_data` finds the same frames however the stream is cut, since what it does with a
complete frame does not depend on what follows.
-/

namespace AnboxReboxed.Rpc

open AnboxReboxed.Lib

theorem toNat_low_byte (n : Nat) : (n &&& 0xff).toUInt8.toNat = n % 256 := by
  have hand : n &&& 0xff = n % 256 := Nat.and_two_pow_sub_one_eq_mod n 8
  rw [hand]
  exact toNat_toUInt8_of_lt (Nat.mod_lt n (by decide))

theorem message_size_eq (high medium low : UInt8) :
    message_size high medium low = high.toNat * 65536 + medium.toNat * 256 + low.toNat := by
  simp [message_size, Nat.shiftLeft_eq]

theorem message_size_lt (high medium low : UInt8) : message_size high medium low < 2 ^ 24 := by
  have h1 := high.toNat_lt
  have h2 := medium.toNat_lt
  have h3 := low.toNat_lt
  rw [message_size_eq]
  omega

/-- The header holds the size modulo 2^24. -/
theorem header_bytes_eq (size : Nat) (type : UInt8) :
    ∃ high medium low, header_bytes size type = [high, medium, low, type] ∧
      message_size high medium low = size % 2 ^ 24 := by
  refine ⟨_, _, _, rfl, ?_⟩
  rw [message_size_eq, toNat_low_byte, toNat_low_byte, toNat_low_byte, Nat.shiftRight_eq_div_pow,
    Nat.shiftRight_eq_div_pow]
  omega

/-- A frame as the loop reads it: the three bytes of the size, the type, and a message of that size. -/
theorem Frame.bytes_eq {f : Frame} (hf : f.message.length < 2 ^ 24) :
    ∃ high medium low, f.bytes = high :: medium :: low :: f.message_type :: f.message ∧
      message_size high medium low = f.message.length := by
  obtain ⟨high, medium, low, hheader, hsize⟩ := header_bytes_eq f.message.length f.message_type
  rw [Nat.mod_eq_of_lt hf] at hsize
  refine ⟨high, medium, low, ?_, hsize⟩
  rw [Frame.bytes, hheader]
  rfl

theorem header_bytes_message_size (high medium low type : UInt8) :
    header_bytes (message_size high medium low) type = [high, medium, low, type] := by
  have h1 := high.toNat_lt
  have h2 := medium.toNat_lt
  have h3 := low.toNat_lt
  have hbyte : ∀ (b : UInt8) (n : Nat), n % 256 = b.toNat → (n &&& 0xff).toUInt8 = b := by
    intro b n hn
    apply UInt8.toNat_inj.mp
    rw [toNat_low_byte, hn]
  simp only [header_bytes, message_size_eq, Nat.shiftRight_eq_div_pow]
  rw [hbyte high _ (by omega), hbyte medium _ (by omega), hbyte low _ (by omega)]

theorem size_fits_of_lt {size : Nat} (h : size < 2 ^ 24) : size_fits_protobuf_int size = true := by
  apply decide_eq_true
  simp only [INT_MAX]
  omega

/-- A buffer holds less than one frame, or it begins with a complete one. -/
theorem incomplete_or_frame (l : Bytes) :
    Incomplete l ∨ ∃ f rest, f.message.length < 2 ^ 24 ∧ l = Frame.bytes f ++ rest := by
  match l with
  | [] | [_] | [_, _] | [_, _, _] => exact Or.inl trivial
  | high :: medium :: low :: message_type :: rest =>
    by_cases hlen : rest.length < message_size high medium low
    · exact Or.inl hlen
    · have hle : message_size high medium low ≤ rest.length := Nat.le_of_not_lt hlen
      have htake : (rest.take (message_size high medium low)).length = message_size high medium low :=
        List.length_take_of_le hle
      refine Or.inr ⟨⟨message_type, rest.take (message_size high medium low)⟩,
        rest.drop (message_size high medium low), ?_, ?_⟩
      · rw [htake]
        exact message_size_lt high medium low
      · simp only [Frame.bytes, htake, header_bytes_message_size, List.cons_append, List.nil_append,
          List.take_append_drop]

namespace Handlers

variable {η : Type} {P : Protobuf} {h : Handlers η}

/-- What is left of `Progress` after a frame that was not refused. -/
def taken (P : Protobuf) (h : Handlers η) (s : Progress η) (f : Frame) : Progress η :=
  { h.onFrame P s f with frames := s.frames ++ [f] }

theorem nextFrame_incomplete {s : Progress η} {l : Bytes} (hl : Incomplete l) :
    h.nextFrame P s l = .more := by
  match l with
  | [] | [_] | [_, _] | [_, _, _] => rfl
  | high :: medium :: low :: message_type :: rest => exact if_pos hl

theorem onResponse_frames (s : Progress η) (result : Result) :
    (h.onResponse s result).frames = s.frames := by
  unfold onResponse
  split
  · dsimp only
    split <;> rfl
  · rfl

theorem foldl_onEvent (events : List Bytes) : ∀ s : Progress η,
    (events.foldl h.onEvent s).frames = s.frames ∧ (events.foldl h.onEvent s).failure = s.failure ∧
      (events.foldl h.onEvent s).calls = s.calls ++ events.map .process_event_sequence := by
  induction events with
  | nil => simp
  | cons e events ih =>
    intro s
    obtain ⟨h1, h2, h3⟩ := ih (h.onEvent s e)
    simp only [List.foldl_cons, h1, h2, h3]
    simp [onEvent]

theorem onResult_frames (s : Progress η) (result : Result) : (h.onResult s result).frames = s.frames := by
  simp only [onResult]
  split
  · exact onResponse_frames s result
  · rw [(foldl_onEvent _ _).1]
    exact onResponse_frames s result

@[simp] theorem onFrame_frames (s : Progress η) (f : Frame) : (h.onFrame P s f).frames = s.frames := by
  unfold onFrame
  split
  · split <;> rfl
  · split
    · split
      · rfl
      · exact onResult_frames _ _
    · rfl

/-- What the body of the loop does with a complete frame. -/
theorem nextFrame_frame (s : Progress η) {f : Frame} (hf : f.message.length < 2 ^ 24) (rest : Bytes) :
    h.nextFrame P s (f.bytes ++ rest) =
      if (h.onFrame P s f).failure.isSome then .refused (h.onFrame P s f)
      else .consumed f.bytes.length (taken P h s f) := by
  obtain ⟨high, medium, low, hframe, hsize⟩ := Frame.bytes_eq hf
  have hlen : ¬(f.message ++ rest).length < message_size high medium low := by
    rw [List.length_append]
    omega
  have htake : (f.message ++ rest).take (message_size high medium low) = f.message := by
    rw [hsize]
    exact List.take_left
  have hbytes : header_size + message_size high medium low = f.bytes.length := by
    rw [hframe, hsize]
    simp only [header_size, List.length_cons]
    omega
  rw [← hbytes]
  simp only [hframe, List.cons_append, nextFrame, if_neg hlen, htake, taken, onFrame_frames]

/-- The progress after some frames. -/
def progress (P : Protobuf) (h : Handlers η) (s : Progress η) (fs : List Frame) : Progress η :=
  fs.foldl (taken P h) s

/-- None of the frames is refused. -/
def Accepts (P : Protobuf) (h : Handlers η) : Progress η → List Frame → Prop
  | _, [] => True
  | s, f :: fs =>
    f.message.length < 2 ^ 24 ∧ (h.onFrame P s f).failure = none ∧ Accepts P h (taken P h s f) fs

theorem progress_frames (fs : List Frame) : ∀ s : Progress η,
    (progress P h s fs).frames = s.frames ++ fs := by
  induction fs with
  | nil => simp [progress]
  | cons f fs ih =>
    intro s
    have hfs := ih (taken P h s f)
    simp only [progress, List.foldl_cons] at hfs ⊢
    rw [hfs]
    simp [taken]

/-- Accepted frames are taken off the buffer one by one. -/
theorem drive_accepted (fs : List Frame) : ∀ (s : Progress η) (rest : Bytes), Accepts P h s fs →
    (h.framing P).drive s (fs.flatMap Frame.bytes ++ rest) =
      (h.framing P).drive (progress P h s fs) rest := by
  induction fs with
  | nil => exact fun s rest _ => rfl
  | cons f fs ih =>
    intro s rest ⟨hlen, hok, hrest⟩
    have hnext : (h.framing P).next s (f.bytes ++ (fs.flatMap Frame.bytes ++ rest)) =
        .consumed f.bytes.length (taken P h s f) := by
      refine (nextFrame_frame s hlen _).trans ?_
      simp [hok]
    rw [List.flatMap_cons, List.append_assoc, Framing.drive_consumed hnext, List.drop_left]
    exact ih (taken P h s f) rest hrest

/-- Every stream is a sequence of accepted frames, followed by less than one frame or by a frame that is
refused. -/
theorem stream_cases (s : Progress η) (l : Bytes) : ∃ fs rest, l = fs.flatMap Frame.bytes ++ rest ∧
    Accepts P h s fs ∧
      (Incomplete rest ∨ ∃ f rest', f.message.length < 2 ^ 24 ∧ rest = f.bytes ++ rest' ∧
        (h.onFrame P (progress P h s fs) f).failure.isSome) := by
  induction hn : l.length using Nat.strongRecOn generalizing s l with
  | ind n ih =>
    rcases incomplete_or_frame l with hl | ⟨f, rest, hlen, rfl⟩
    · exact ⟨[], l, rfl, trivial, Or.inl hl⟩
    · cases hok : (h.onFrame P s f).failure with
      | some failure =>
        exact ⟨[], f.bytes ++ rest, rfl, trivial, Or.inr ⟨f, rest, hlen, rfl, by simp [progress, hok]⟩⟩
      | none =>
        have hshort : rest.length < n := by
          rw [← hn]
          simp [Frame.bytes, header_bytes]
          omega
        obtain ⟨fs, rest', rfl, hacc, hend⟩ := ih rest.length hshort (taken P h s f) rest rfl
        exact ⟨f :: fs, rest', by simp, ⟨hlen, hok, hacc⟩, hend⟩

theorem drive_incomplete (s : Progress η) {rest : Bytes} (hr : Incomplete rest) :
    (h.framing P).drive s rest = .waiting s rest :=
  Framing.drive_more (nextFrame_incomplete hr)

theorem drive_frame_refused {s : Progress η} {f : Frame} {rest : Bytes} (hlen : f.message.length < 2 ^ 24)
    (hbad : (h.onFrame P s f).failure.isSome) :
    (h.framing P).drive s (f.bytes ++ rest) = .refused (h.onFrame P s f) := by
  apply Framing.drive_refused
  refine (nextFrame_frame s hlen rest).trans ?_
  rw [if_pos hbad]

/-- The chunks of a connection are processed as the stream they make up. -/
theorem process_chunks_eq (env : η) (chunks : List Bytes) :
    h.process_chunks P env chunks = (h.framing P).drive { env } chunks.flatten := by
  have hstart : ∀ s rest, connected env = .waiting s rest → (h.framing P).next s rest = .more := by
    intro s rest he
    cases he
    rfl
  exact Framing.foldl_feed chunks hstart

/-- The protobuf parse of the frame fails: that of the message, or that of the response in it. -/
def Unparsable (P : Protobuf) (h : Handlers η) (s : Progress η) (f : Frame) : Prop :=
  (¬f.Unknown ∧ f.parse P = none) ∨
    ∃ result, f.parse P = some (.result result) ∧ result.id.isSome ∧
      (h.populate_message_for_result s.env result).2 = .unparsed

/-- The exits of the response branch. -/
theorem onResult_cases (s : Progress η) (hs : s.failure = none) (result : Result) :
    ((h.onResult s result).failure = none ∧
      (h.onResult s result).calls = s.calls ++ (Message.result result).calls) ∨
    (result.id.isSome ∧ (h.populate_message_for_result s.env result).2 = .unparsed ∧
      (h.onResult s result).failure = some .returnedFalse) ∨
    (result.id.isSome ∧ (h.populate_message_for_result s.env result).2 = .unknown ∧
      (h.onResult s result).failure = some .threw) := by
  cases hid : result.id.isSome with
  | false =>
    left
    simp [onResult, onResponse, hid, hs, foldl_onEvent, Message.calls]
  | true =>
    cases hp : (h.populate_message_for_result s.env result).2 with
    | parsed =>
      left
      simp [onResult, onResponse, hid, hp, hs, foldl_onEvent, Message.calls]
    | unparsed =>
      right; left
      simp [onResult, onResponse, hid, hp]
    | unknown =>
      right; right
      simp [onResult, onResponse, hid, hp]

/-- A frame is handed on, its parse fails, or its response is for no pending call. -/
theorem onFrame_cases (s : Progress η) (hs : s.failure = none) {f : Frame}
    (hlen : f.message.length < 2 ^ 24) :
    ((h.onFrame P s f).failure = none ∧ (h.onFrame P s f).calls = s.calls ++ f.calls P ∧
      (f.Unknown ∨ ∃ m, f.parse P = some m)) ∨
    ((h.onFrame P s f).failure = some .returnedFalse ∧ Unparsable P h s f) ∨
    ((h.onFrame P s f).failure = some .threw ∧ ∃ result, f.parse P = some (.result result) ∧
      result.id.isSome ∧ (h.populate_message_for_result s.env result).2 = .unknown) := by
  have hfits := size_fits_of_lt hlen
  by_cases hinv : f.message_type = MessageType.invocation
  · cases hp : P.parseInvocation f.message with
    | none =>
      right; left
      refine ⟨by simp [onFrame, hinv, hfits, hp], Or.inl ⟨?_, by simp [Frame.parse, hinv, hp]⟩⟩
      intro hu
      exact hu.1 hinv
    | some m =>
      left
      refine ⟨by simp [onFrame, hinv, hfits, hp, onInvocation, hs], ?_, Or.inr ⟨.invocation m, ?_⟩⟩
      · simp [onFrame, hinv, hfits, hp, onInvocation, Frame.calls, Frame.parse, Message.calls]
      · simp [Frame.parse, hinv, hp]
  · by_cases hresp : f.message_type = MessageType.response
    · have hframe : ∀ m, P.parseResult f.message = some m → h.onFrame P s f = h.onResult s m := by
        intro m hp
        simp [onFrame, hresp, hfits, hp, show MessageType.response ≠ MessageType.invocation by decide]
      cases hp : P.parseResult f.message with
      | none =>
        right; left
        have hne : MessageType.response ≠ MessageType.invocation := by decide
        refine ⟨by simp [onFrame, hresp, hne, hfits, hp], Or.inl ⟨?_, by simp [Frame.parse, hresp, hne, hp]⟩⟩
        intro hu
        exact hu.2 hresp
      | some m =>
        have hparse : f.parse P = some (.result m) := by
          simp [Frame.parse, hresp, hp, show MessageType.response ≠ MessageType.invocation by decide]
        rw [hframe m hp]
        rcases onResult_cases s hs m with ⟨hok, hcalls⟩ | ⟨hid, hpop, hbad⟩ | ⟨hid, hpop, hbad⟩
        · exact Or.inl ⟨hok, by rw [hcalls, Frame.calls, hparse]; rfl, Or.inr ⟨_, hparse⟩⟩
        · exact Or.inr (Or.inl ⟨hbad, Or.inr ⟨m, hparse, hid, hpop⟩⟩)
        · exact Or.inr (Or.inr ⟨hbad, m, hparse, hid, hpop⟩)
    · left
      refine ⟨by simp [onFrame, hinv, hresp, hs], ?_, Or.inl ⟨hinv, hresp⟩⟩
      simp [onFrame, hinv, hresp, Frame.calls, Frame.parse]

/-- What accepted frames lead to: their calls, in order. -/
theorem progress_accepted (fs : List Frame) : ∀ s : Progress η, s.failure = none → Accepts P h s fs →
    (progress P h s fs).failure = none ∧ (progress P h s fs).calls = s.calls ++ fs.flatMap (Frame.calls P) ∧
      ∀ f ∈ fs, f.Unknown ∨ ∃ m, f.parse P = some m := by
  induction fs with
  | nil =>
    intro s hs _
    exact ⟨hs, by simp [progress], by simp⟩
  | cons f fs ih =>
    intro s hs ⟨hlen, hok, hrest⟩
    obtain ⟨h1, h2, h3⟩ := ih (taken P h s f) hok hrest
    rcases onFrame_cases (P := P) (h := h) s hs hlen with ⟨-, hcalls, hparse⟩ | ⟨hbad, -⟩ | ⟨hbad, -⟩
    · refine ⟨h1, ?_, ?_⟩
      · change (progress P h (taken P h s f) fs).calls = _
        rw [h2]
        simp [taken, hcalls]
      · intro g hg
        rcases List.mem_cons.mp hg with rfl | hg
        · exact hparse
        · exact h3 g hg
    · rw [hok] at hbad
      cases hbad
    · rw [hok] at hbad
      cases hbad

/-- Decoding does not depend on the chunks. Both runs wait with less than one frame, having handed on
the same complete frames, or both fail at the first frame whose parse fails. Frames of an unknown type
are among those taken off, and lead to no call. -/
theorem decoding_ignores_chunks (P : Protobuf) (h : Handlers η) (env : η) (chunks chunks' : List Bytes)
    (hcut : chunks.flatten = chunks'.flatten)
    (hquiet : ∀ s, h.process_chunks P env chunks = .refused s → s.failure ≠ some .threw) :
    (∃ s rest, h.process_chunks P env chunks = .waiting s rest ∧
      h.process_chunks P env chunks' = .waiting s rest ∧ Incomplete rest ∧
      chunks.flatten = s.frames.flatMap Frame.bytes ++ rest ∧
      s.calls = s.frames.flatMap (Frame.calls P) ∧ ∀ f ∈ s.frames, f.Unknown → f.calls P = []) ∨
    (∃ fs f rest, h.process_chunks P env chunks = .refused (h.onFrame P (progress P h { env } fs) f) ∧
      h.process_chunks P env chunks' = .refused (h.onFrame P (progress P h { env } fs) f) ∧
      chunks.flatten = fs.flatMap Frame.bytes ++ (f.bytes ++ rest) ∧ Accepts P h { env } fs ∧
      Unparsable P h (progress P h { env } fs) f ∧
      (progress P h { env } fs).calls = fs.flatMap (Frame.calls P) ∧
      ∀ g ∈ fs, g.Unknown → g.calls P = []) := by
  have hsame : h.process_chunks P env chunks' = h.process_chunks P env chunks := by
    rw [process_chunks_eq, process_chunks_eq, hcut]
  have hunknown : ∀ f : Frame, f.Unknown → f.calls P = [] := by
    intro f hf
    simp [Frame.calls, Frame.parse, hf.1, hf.2]
  rw [hsame]
  rw [process_chunks_eq] at hquiet ⊢
  obtain ⟨fs, rest, hstream, hacc, hend⟩ := stream_cases (P := P) (h := h) { env } chunks.flatten
  obtain ⟨hnone, hcalls, -⟩ := progress_accepted fs _ rfl hacc
  rw [hstream, drive_accepted fs _ _ hacc] at hquiet ⊢
  rcases hend with hinc | ⟨f, rest', hlen, rfl, hbad⟩
  · left
    have hframes : (progress P h { env } fs).frames = fs := progress_frames fs _
    refine ⟨_, rest, drive_incomplete _ hinc, drive_incomplete _ hinc, hinc, ?_, ?_, ?_⟩
    · rw [hframes]
    · rw [hframes, hcalls]
      rfl
    · exact fun f _ => hunknown f
  · right
    have hdrive := @drive_frame_refused η P h _ f rest' hlen hbad
    refine ⟨fs, f, rest', hdrive, hdrive, rfl, hacc, ?_, ?_, fun g _ => hunknown g⟩
    · rcases onFrame_cases _ hnone hlen with ⟨hok, -, -⟩ | ⟨-, hun⟩ | ⟨hthrew, -⟩
      · rw [hok] at hbad
        cases hbad
      · exact hun
      · exact absurd hthrew (hquiet _ hdrive)
    · rw [hcalls]
      rfl

/-- Handlers that do nothing, on a peer whose pending calls all take their response. -/
def idle : Handlers Unit where
  dispatch _ _ := ()
  populate_message_for_result _ _ := ((), .parsed)
  complete_response _ _ := ()
  process_event_sequence _ _ := ()

/-- An event of two bytes. -/
def eventFrame : Frame := ⟨MessageType.response, wire.serializeResult { events := [[1, 2]] }⟩

/-- An event that arrives in two chunks, the first of which ends inside the header. -/
theorem decoding_ignores_chunks_splitHeader :
    ∃ s rest, idle.process_chunks wire () [eventFrame.bytes.take 2, eventFrame.bytes.drop 2] = .waiting s rest ∧
      idle.process_chunks wire () [eventFrame.bytes] = .waiting s rest ∧ Incomplete rest := by
  have hlen : eventFrame.message.length < 2 ^ 24 := by
    simp [eventFrame, wire, writeFields, Result.fields, Field.write, writeVarint]
  have hacc : Accepts wire idle { env := () } [eventFrame] := by
    refine ⟨hlen, ?_, trivial⟩
    rcases onFrame_cases (P := wire) (h := idle) { env := () } rfl hlen with ⟨hok, -, -⟩ | ⟨-, hbad⟩ | ⟨-, hbad⟩
    · exact hok
    · simp [Unparsable, Frame.Unknown, Frame.parse, eventFrame, wire_lawful.parse_result, idle,
        MessageType.invocation, MessageType.response] at hbad
    · simp [idle] at hbad
  have hcut : [eventFrame.bytes.take 2, eventFrame.bytes.drop 2].flatten = [eventFrame.bytes].flatten := by
    simp
  have hwait : idle.process_chunks wire () [eventFrame.bytes.take 2, eventFrame.bytes.drop 2] =
      .waiting (progress wire idle { env := () } [eventFrame]) [] := by
    rw [process_chunks_eq, hcut]
    have hdrive := drive_accepted [eventFrame] { env := () } [] hacc
    simp only [List.flatMap_cons, List.flatMap_nil, List.append_nil] at hdrive
    rw [List.flatten_singleton, hdrive]
    exact drive_incomplete _ trivial
  rcases decoding_ignores_chunks wire idle () _ _ hcut (by rw [hwait]; simp) with
    ⟨s, rest, h1, h2, h3, -⟩ | ⟨fs, f, rest, h1, -⟩
  · exact ⟨s, rest, h1, h2, h3⟩
  · rw [hwait] at h1
    cases h1

end Handlers

end AnboxReboxed.Rpc
