import AnboxReboxed.Rpc.Endpoint
import AnboxReboxed.Rpc.Proofs.MessageProcessorProofs

/-!
# Proofs: exceptions on an RPC connection

A call of `process_data` is left by an exception exactly when one of the frames it takes throws, and what
makes a frame throw is said in terms of its message. From that follows when a connection is left without
a read and without being removed.
-/

namespace AnboxReboxed.Rpc

open AnboxReboxed.Lib AnboxReboxed.Network

/-! ## Frames -/

theorem frontFrame_bytes {f : Frame} (hf : f.message.length < 2 ^ 24) (rest : Bytes) :
    frontFrame (f.bytes ++ rest) = some f := by
  obtain ⟨high, medium, low, hframe, hsize⟩ := Frame.bytes_eq hf
  have hlen : ¬(f.message ++ rest).length < message_size high medium low := by
    rw [List.length_append]
    omega
  simp only [hframe, List.cons_append, frontFrame, if_neg hlen]
  rw [hsize, List.take_left]

theorem frontFrame_incomplete {l : Bytes} (hl : Incomplete l) : frontFrame l = none := by
  match l with
  | [] | [_] | [_, _] | [_, _, _] => rfl
  | high :: medium :: low :: message_type :: rest => exact if_pos hl

theorem frame_length (f : Frame) : f.bytes.length = header_size + f.message.length := by
  simp only [Frame.bytes, header_bytes, List.length_append, List.length_cons, List.length_nil, header_size]

@[simp] theorem failure_eq_some {e : Ending} : e.failure = some .threw ↔ e = .threw := by
  cases e <;> simp [Ending.failure]

namespace Endpoint

variable {η : Type} {E : Endpoint η} {P : Protobuf}

/-! ## What makes a frame throw -/

theorem dispatch_threw_iff {env : η} {invocation : Invocation} :
    (E.dispatch env invocation).2 = .threw ↔ E.InvocationThrows env invocation := by
  unfold dispatch InvocationThrows
  cases E.functions.lookup invocation.method_name with
  | none => simp
  | some function =>
    simp only [invoke, Option.some.injEq, exists_eq_left']
    split_ifs with hparse
    · rcases hcall : function.call env invocation with ⟨env', _ | _⟩ <;> simp [hparse]
    · simp [Bool.eq_false_iff.mpr hparse]

theorem onEvents_threw_iff (events : List Bytes) : ∀ env : η,
    (E.onEvents env events).2 = .threw ↔ E.EventsThrow env events := by
  induction events with
  | nil =>
    intro env
    simp [onEvents, EventsThrow]
  | cons e events ih =>
    intro env
    have hsplit : E.EventsThrow env (e :: events) ↔
        (E.process_event_sequence env e).2 = .threw ∨ E.EventsThrow (E.process_event_sequence env e).1 events := by
      constructor
      · rintro ⟨handled, event, rest, heq, hthrow⟩
        cases handled with
        | nil =>
          cases heq
          exact Or.inl hthrow
        | cons e' handled =>
          cases heq
          exact Or.inr ⟨handled, event, rest, rfl, hthrow⟩
      · rintro (hthrow | ⟨handled, event, rest, rfl, hthrow⟩)
        · exact ⟨[], e, events, rfl, hthrow⟩
        · exact ⟨e :: handled, event, rest, rfl, hthrow⟩
    rw [hsplit, ← ih, onEvents]
    rcases E.process_event_sequence env e with ⟨env', _ | _⟩
    · simp
    · simp

theorem onResult_threw_iff {env : η} {result : Result} :
    (E.onResult env result).2 = some .threw ↔ E.ResultThrows env result := by
  unfold onResult onResponse ResultThrows
  cases result.id with
  | none => simp [onEvents_threw_iff]
  | some id =>
    dsimp only
    cases (E.pending_calls_ env).find? (key id) with
    | none => simp
    | some ParseFromString =>
      dsimp only
      split_ifs with hparse
      · simp [onEvents_threw_iff, hparse]
      · simp [hparse]

theorem onFrame_threw_iff {env : η} {f : Frame} (hlen : f.message.length < 2 ^ 24) :
    (E.onFrame P env f).2 = some .threw ↔ E.FrameThrows P env f := by
  unfold onFrame FrameThrows Frame.parse
  rw [size_fits_of_lt hlen]
  by_cases hinv : f.message_type = MessageType.invocation
  · simp only [if_pos hinv, if_true]
    cases P.parseInvocation f.message with
    | none => simp
    | some invocation => simp [dispatch_threw_iff]
  · by_cases hres : f.message_type = MessageType.response
    · simp only [if_neg hinv, if_pos hres, if_true]
      cases P.parseResult f.message with
      | none => simp
      | some result => simp [onResult_threw_iff]
    · simp [hinv, hres]

/-- Where events are ignored, a frame throws for one of two reasons: an invocation that cannot be carried
out, or a result that no call waits for. -/
theorem frameThrows_iff {env : η} {f : Frame}
    (hevents : ∀ env event, (E.process_event_sequence env event).2 = .returned) :
    E.FrameThrows P env f ↔
      (∃ invocation, f.parse P = some (.invocation invocation) ∧ E.InvocationThrows env invocation) ∨
      ∃ result id, f.parse P = some (.result result) ∧ result.id = some id ∧
        (E.pending_calls_ env).find? (key id) = none := by
  have hquiet : ∀ env events, ¬E.EventsThrow env events := by
    rintro env events ⟨handled, event, rest, -, hthrow⟩
    rw [hevents] at hthrow
    cases hthrow
  unfold FrameThrows
  rcases f.parse P with _ | (invocation | result)
  · simp
  · simp
  · simp only [Option.some.injEq, reduceCtorEq, false_and, exists_false, Message.result.injEq, false_or]
    unfold ResultThrows
    constructor
    · intro h
      cases hid : result.id with
      | none =>
        rw [hid] at h
        exact absurd h (hquiet _ _)
      | some id =>
        cases hfind : (E.pending_calls_ env).find? (key id) with
        | none => exact ⟨result, id, rfl, hid, hfind⟩
        | some ParseFromString =>
          simp only [hid, hfind] at h
          exact absurd h.2 (hquiet _ _)
    · rintro ⟨_, id, rfl, hid, hfind⟩
      simp [hid, hfind]

/-- The container's client ignores invocations too. -/
theorem messageProcessor_frameThrows_iff {env : η} {f : Frame} :
    E.messageProcessor.FrameThrows P env f ↔ ∃ result id, f.parse P = some (.result result) ∧
      result.id = some id ∧ (E.pending_calls_ env).find? (key id) = none := by
  rw [frameThrows_iff fun _ _ => rfl]
  refine or_iff_right ?_
  rintro ⟨invocation, -, function, hfunction, -⟩
  cases hfunction

/-! ## The loop -/

theorem nextFrame_incomplete {s : Loop η} {l : Bytes} (hl : Incomplete l) : E.nextFrame P s l = .more := by
  unfold nextFrame
  rw [frontFrame_incomplete hl]

theorem nextFrame_taken {s : Loop η} {f : Frame} (hlen : f.message.length < 2 ^ 24)
    (hok : (E.onFrame P s.env f).2 = none) (rest : Bytes) :
    E.nextFrame P s (f.bytes ++ rest) = .consumed f.bytes.length
      { s with env := (E.onFrame P s.env f).1, erased := s.erased + f.bytes.length } := by
  unfold nextFrame
  rw [frontFrame_bytes hlen, frame_length, ← Nat.add_assoc]
  dsimp only
  split
  · next env failure h =>
    rw [h] at hok
    cases hok
  · next env h => simp [h]

theorem nextFrame_left {s : Loop η} {f : Frame} {failure : Failure} (hlen : f.message.length < 2 ^ 24)
    (hbad : (E.onFrame P s.env f).2 = some failure) (rest : Bytes) :
    E.nextFrame P s (f.bytes ++ rest) =
      .refused { s with env := (E.onFrame P s.env f).1, failure := some failure } := by
  unfold nextFrame
  rw [frontFrame_bytes hlen]
  dsimp only
  split
  · next env failure' h =>
    rw [h] at hbad ⊢
    cases hbad
    rfl
  · next env h =>
    rw [h] at hbad
    cases hbad

/-- Frames that are all taken off the buffer are behind the loop. -/
theorem drive_takes {env env' : η} {fs : List Frame} (ht : E.Takes P env fs env') :
    ∀ (s : Loop η) (rest : Bytes), s.env = env →
    (E.framing P).drive s (fs.flatMap Frame.bytes ++ rest) =
      (E.framing P).drive { s with env := env', erased := s.erased + (fs.flatMap Frame.bytes).length } rest := by
  induction ht with
  | nil =>
    intro s rest hs
    subst hs
    rfl
  | cons hlen hok _ ih =>
    intro s rest hs
    subst hs
    rw [List.flatMap_cons, List.append_assoc, Framing.drive_consumed (nextFrame_taken hlen hok _), List.drop_left,
      ih _ rest rfl, List.length_append, Nat.add_assoc]

/-- The loop takes some frames, and it ends with less than one frame or with one that it does not take. -/
theorem bytes_cases (env : η) (l : Bytes) : ∃ fs env' rest, E.Takes P env fs env' ∧
    l = fs.flatMap Frame.bytes ++ rest ∧
      (Incomplete rest ∨ ∃ f rest' failure, f.message.length < 2 ^ 24 ∧ rest = f.bytes ++ rest' ∧
        (E.onFrame P env' f).2 = some failure) := by
  induction hn : l.length using Nat.strongRecOn generalizing env l with
  | ind n ih =>
    rcases incomplete_or_frame l with hl | ⟨f, rest, hlen, rfl⟩
    · exact ⟨[], env, l, .nil, rfl, Or.inl hl⟩
    · cases hok : (E.onFrame P env f).2 with
      | some failure => exact ⟨[], env, f.bytes ++ rest, .nil, rfl, Or.inr ⟨f, rest, failure, hlen, rfl, hok⟩⟩
      | none =>
        have hshort : rest.length < n := by
          rw [← hn, List.length_append, frame_length]
          simp only [header_size]
          omega
        obtain ⟨fs, env', rest', htakes, rfl, hend⟩ := ih rest.length hshort (E.onFrame P env f).1 rest rfl
        exact ⟨f :: fs, env', rest', .cons hlen hok htakes, by simp, hend⟩

/-- All complete frames are taken off the buffer. -/
theorem process_data_takes {p : Processor η} {data rest : Bytes} {fs : List Frame} {env' : η}
    (ht : E.Takes P p.env fs env') (heq : p.buffer_ ++ data = fs.flatMap Frame.bytes ++ rest)
    (hrest : Incomplete rest) : E.process_data P p data = (⟨env', rest⟩, .accepted) := by
  unfold process_data
  rw [heq, drive_takes ht _ _ rfl, Framing.drive_more (nextFrame_incomplete hrest)]

/-- The loop is left at the first frame that is not taken. -/
theorem process_data_left {p : Processor η} {data rest : Bytes} {fs : List Frame} {env' : η} {f : Frame}
    {failure : Failure} (ht : E.Takes P p.env fs env')
    (heq : p.buffer_ ++ data = fs.flatMap Frame.bytes ++ (f.bytes ++ rest)) (hlen : f.message.length < 2 ^ 24)
    (hbad : (E.onFrame P env' f).2 = some failure) :
    E.process_data P p data = (⟨(E.onFrame P env' f).1, f.bytes ++ rest⟩,
      if some failure = some Failure.threw then .threw else .refused) := by
  unfold process_data
  rw [heq, drive_takes ht _ _ rfl, Framing.drive_refused (nextFrame_left hlen hbad rest)]
  simp only [Nat.zero_add, List.drop_left]

/-- `process_data` is left by an exception exactly when a frame throws. -/
theorem process_data_threw_iff {p : Processor η} {data : Bytes} :
    (E.process_data P p data).2 = .threw ↔ E.BytesThrow P p.env (p.buffer_ ++ data) := by
  constructor
  · intro hthrew
    obtain ⟨fs, env', rest, ht, heq, hend⟩ := E.bytes_cases (P := P) p.env (p.buffer_ ++ data)
    rcases hend with hrest | ⟨f, rest', failure, hlen, rfl, hbad⟩
    · rw [process_data_takes ht heq hrest] at hthrew
      cases hthrew
    · rw [process_data_left ht heq hlen hbad] at hthrew
      have hfailure : some failure = some Failure.threw := by
        by_contra hne
        rw [if_neg hne] at hthrew
        cases hthrew
      exact ⟨fs, env', f, rest', ht, hlen, heq, (onFrame_threw_iff hlen).mp (hbad.trans hfailure)⟩
  · rintro ⟨fs, env', f, rest, ht, hlen, heq, hthrows⟩
    rw [process_data_left ht heq hlen ((onFrame_threw_iff hlen).mpr hthrows), if_pos rfl]

/-! ## Processors that do not throw -/

/-- The processor as `Handlers`, without its exceptions. -/
def handlers (E : Endpoint η) : Handlers η where
  dispatch env invocation := (E.dispatch env invocation).1
  populate_message_for_result env result :=
    match (E.pending_calls_ env).find? (key (result.id.getD 0)) with
    | none => (env, .unknown)
    | some ParseFromString =>
      (E.populate env result, if ParseFromString (result.response.getD []) then .parsed else .unparsed)
  complete_response := E.complete_response
  process_event_sequence env event := (E.process_event_sequence env event).1

/-- Neither `dispatch` nor `process_event_sequence` throws. -/
structure NoThrow (E : Endpoint η) : Prop where
  dispatch : ∀ env invocation, (E.dispatch env invocation).2 = .returned
  events : ∀ env event, (E.process_event_sequence env event).2 = .returned

theorem NoThrow.onEvents (hE : E.NoThrow) (events : List Bytes) : ∀ s : Progress η,
    E.onEvents s.env events = ((events.foldl E.handlers.onEvent s).env, .returned) := by
  induction events with
  | nil => exact fun _ => rfl
  | cons e events ih =>
    intro s
    have he := hE.events s.env e
    rw [Endpoint.onEvents]
    split
    · next env h =>
      have hs := ih (E.handlers.onEvent s e)
      simp only [Handlers.onEvent, handlers, h] at hs
      simp only [List.foldl_cons, Handlers.onEvent, handlers, h]
      exact hs
    · next env h =>
      rw [h] at he
      cases he

theorem NoThrow.onResult (hE : E.NoThrow) {s : Progress η} (hs : s.failure = none) (result : Result) :
    E.onResult s.env result = ((E.handlers.onResult s result).env, (E.handlers.onResult s result).failure) := by
  -- The events come after a response without a failure.
  have hevents : ∀ s' : Progress η, s'.failure = none → E.onResponse s.env result = (s'.env, none) →
      E.onResult s.env result = ((result.events.foldl E.handlers.onEvent s').env,
        (result.events.foldl E.handlers.onEvent s').failure) := by
    intro s' hs' hresponse
    unfold Endpoint.onResult
    rw [hresponse]
    dsimp only
    rw [hE.onEvents, (Handlers.foldl_onEvent result.events s').2.1, hs']
    rfl
  cases hid : result.id with
  | none =>
    have hresponse : E.onResponse s.env result = (s.env, none) := by
      unfold onResponse
      rw [hid]
    rw [hevents s hs hresponse]
    simp [Handlers.onResult, Handlers.onResponse, hid, hs]
  | some id =>
    cases hfind : (E.pending_calls_ s.env).find? (key id) with
    | none =>
      have hresponse : E.onResponse s.env result = (s.env, some .threw) := by
        unfold onResponse
        rw [hid]
        dsimp only
        rw [hfind]
      simp [Endpoint.onResult, hresponse, Handlers.onResult, Handlers.onResponse, hid, handlers, hfind]
    | some ParseFromString =>
      by_cases hparse : ParseFromString (result.response.getD []) = true
      · have hresponse : E.onResponse s.env result = (E.complete_response (E.populate s.env result) result, none) := by
          unfold onResponse
          rw [hid]
          dsimp only
          rw [hfind]
          exact if_pos hparse
        have hs' := hevents (E.handlers.onResponse s result) ?_ ?_
        · rw [hs']
          simp [Handlers.onResult, Handlers.onResponse, hid, handlers, hfind, hparse, hs]
        · simp [Handlers.onResponse, hid, handlers, hfind, hparse, hs]
        · rw [hresponse]
          simp [Handlers.onResponse, hid, handlers, hfind, hparse]
      · have hresponse : E.onResponse s.env result = (E.populate s.env result, some .returnedFalse) := by
          unfold onResponse
          rw [hid]
          dsimp only
          rw [hfind]
          exact if_neg hparse
        simp [Endpoint.onResult, hresponse, Handlers.onResult, Handlers.onResponse, hid, handlers, hfind, hparse]

theorem NoThrow.onFrame (hE : E.NoThrow) {s : Progress η} (hs : s.failure = none) (f : Frame) :
    E.onFrame P s.env f = ((E.handlers.onFrame P s f).env, (E.handlers.onFrame P s f).failure) := by
  unfold Endpoint.onFrame Handlers.onFrame
  by_cases hinv : f.message_type = MessageType.invocation
  · simp only [if_pos hinv]
    cases (if size_fits_protobuf_int f.message.length then P.parseInvocation f.message else none) with
    | none => rfl
    | some invocation => simp [Handlers.onInvocation, handlers, hE.dispatch, hs, Ending.failure]
  · by_cases hres : f.message_type = MessageType.response
    · simp only [if_neg hinv, if_pos hres]
      cases (if size_fits_protobuf_int f.message.length then P.parseResult f.message else none) with
      | none => rfl
      | some result => exact hE.onResult hs result
    · simp [hinv, hres, hs]

theorem NoThrow.takes (hE : E.NoThrow) (fs : List Frame) : ∀ {s : Progress η}, s.failure = none →
    Handlers.Accepts P E.handlers s fs →
      E.Takes P s.env fs (Handlers.progress P E.handlers s fs).env ∧
        (Handlers.progress P E.handlers s fs).failure = none := by
  induction fs with
  | nil => exact fun hs _ => ⟨.nil, hs⟩
  | cons f fs ih =>
    intro s hs ⟨hlen, hok, hrest⟩
    have hframe := hE.onFrame (P := P) hs f
    obtain ⟨htakes, hnone⟩ := ih (s := Handlers.taken P E.handlers s f) hok hrest
    refine ⟨.cons hlen ?_ ?_, hnone⟩
    · rw [hframe]
      exact hok
    · rw [hframe]
      exact htakes

/-- A processor whose virtual functions do not throw is the `MessageProcessor` of its handlers. -/
theorem process_data_handlers (hE : E.NoThrow) (P : Protobuf) (p : Processor η) (data : Bytes) :
    match E.handlers.process_data P (.waiting { env := p.env } p.buffer_) data with
    | .waiting s rest => E.process_data P p data = (⟨s.env, rest⟩, .accepted)
    | .refused s => (E.process_data P p data).1.env = s.env ∧
        (E.process_data P p data).2 = if s.failure = some .threw then .threw else .refused := by
  obtain ⟨fs, rest, heq, hacc, hend⟩ :=
    Handlers.stream_cases (P := P) (h := E.handlers) { env := p.env } (p.buffer_ ++ data)
  obtain ⟨htakes, hnone⟩ := hE.takes fs rfl hacc
  have hdrive : E.handlers.process_data P (.waiting { env := p.env } p.buffer_) data =
      (E.handlers.framing P).drive (Handlers.progress P E.handlers { env := p.env } fs) rest := by
    show (E.handlers.framing P).drive _ (p.buffer_ ++ data) = _
    rw [heq, Handlers.drive_accepted fs _ rest hacc]
  rw [hdrive]
  rcases hend with hrest | ⟨f, rest', hlen, rfl, hbad⟩
  · rw [Handlers.drive_incomplete _ hrest]
    exact process_data_takes htakes heq hrest
  · rw [Handlers.drive_frame_refused hlen hbad]
    obtain ⟨failure, hfailure⟩ := Option.isSome_iff_exists.mp hbad
    have hframe := hE.onFrame (P := P) hnone f
    have hleft := process_data_left htakes heq hlen (by rw [hframe]; exact hfailure)
    rw [hleft, hframe, hfailure]
    exact ⟨rfl, by rw [hfailure]⟩

/-! ## Connections -/

/-- Only a connection that is in `connections_` reads. -/
def Listed (c : Connection η) : Prop := c.reading = true → c.registered = true

theorem on_read_size_cases (c : Connection η) (bytes : Bytes) :
    c.on_read_size (E.process_data P) (.data bytes) =
      { processor_ := (E.process_data P c.processor_ bytes).1
        reading := (E.process_data P c.processor_ bytes).2 = .accepted
        registered := c.registered && (E.process_data P c.processor_ bytes).2 ≠ .refused } := by
  simp only [SocketConnection.on_read_size, SocketConnection.remove, SocketConnection.read_next_message]
  rcases E.process_data P c.processor_ bytes with ⟨p, _ | _ | _⟩ <;> simp

theorem listed_step {env : η} {c c' : Connection η} {i : ConnectionOp η} (hc : Listed c)
    (h : (E.machine P env).step c i = some c') : Listed c' := by
  cases i with
  | elsewhere env =>
    cases h
    exact hc
  | on_read_size read =>
    obtain ⟨hreading, h⟩ := Option.ite_none_right_eq_some.mp h
    cases h
    cases read with
    | error => exact fun h => nomatch h
    | data bytes =>
      rw [on_read_size_cases]
      intro h
      have haccepted := of_decide_eq_true h
      simp [hc hreading, haccepted]

theorem settled_step {env : η} {c c' : Connection η} {i : ConnectionOp η} (hl : Listed c) (hc : c.Settled)
    (h : (E.machine P env).step c i = some c') : E.Quiet P c i ↔ c'.Settled := by
  cases i with
  | elsewhere env =>
    cases h
    exact ⟨fun _ => hc, fun _ => trivial⟩
  | on_read_size read =>
    obtain ⟨hreading, h⟩ := Option.ite_none_right_eq_some.mp h
    cases h
    cases read with
    | error => exact ⟨fun _ => Or.inr rfl, fun _ => trivial⟩
    | data bytes =>
      have hregistered := hl hreading
      rw [on_read_size_cases]
      show ¬E.BytesThrow P _ _ ↔ _
      rw [← process_data_threw_iff]
      cases hp : (E.process_data P c.processor_ bytes).2 <;> simp [SocketConnection.Settled, hregistered]

/-- Every read of a connection ends with a new read armed or with the connection removed, exactly when no
frame that it completes throws. -/
theorem never_wedged_iff (E : Endpoint η) (P : Protobuf) (env : η) (ops : List (ConnectionOp η))
    (c : Connection η) (h : (E.machine P env).exec (E.machine P env).init ops = some c) :
    (E.machine P env).AllStates SocketConnection.Settled (E.machine P env).init ops ↔
      (E.machine P env).AllSteps (E.Quiet P) (E.machine P env).init ops :=
  Machine.allStates_iff_allSteps_of_invariant (I := Listed) (fun _ _ _ hl h => listed_step hl h)
    (fun _ _ _ hl hs h => settled_step hl hs h) (fun _ => rfl) (Or.inl rfl) h

/-- A processor without any pending calls. -/
def idleEndpoint : Endpoint Unit :=
  messageProcessor
    { functions := []
      send_response := fun _ _ => ((), .returned)
      pending_calls_ := fun _ => ∅
      populate := fun _ _ => ()
      complete_response := fun _ _ => ()
      process_event_sequence := fun _ _ => ((), .returned) }

/-- An event arrives in two reads, and then the peer hangs up. -/
def eventOps : List (ConnectionOp Unit) :=
  [.on_read_size (.data (Handlers.eventFrame.bytes.take 2)), .elsewhere (),
    .on_read_size (.data (Handlers.eventFrame.bytes.drop 2)), .on_read_size .error]

theorem never_wedged_event :
    (idleEndpoint.machine wire ()).AllStates SocketConnection.Settled (idleEndpoint.machine wire ()).init eventOps := by
  have hlen : Handlers.eventFrame.message.length < 2 ^ 24 := by
    simp [Handlers.eventFrame, wire, writeFields, Result.fields, Field.write, writeVarint]
  have htakes : idleEndpoint.Takes wire () [Handlers.eventFrame] () := by
    refine .cons hlen ?_ .nil
    have hfits : size_fits_protobuf_int (wire.serializeResult { events := [[1, 2]] }).length = true :=
      size_fits_of_lt hlen
    simp [onFrame, Handlers.eventFrame, wire_lawful.parse_result, MessageType.invocation, MessageType.response,
      hfits, onResult, onResponse, onEvents, idleEndpoint, messageProcessor, Ending.failure]
  have hfirst : idleEndpoint.process_data wire { env := () } (Handlers.eventFrame.bytes.take 2) =
      (⟨(), Handlers.eventFrame.bytes.take 2⟩, .accepted) := process_data_takes .nil rfl trivial
  have hsecond : idleEndpoint.process_data wire ⟨(), Handlers.eventFrame.bytes.take 2⟩
      (Handlers.eventFrame.bytes.drop 2) = (⟨(), []⟩, .accepted) :=
    process_data_takes htakes (by simp) trivial
  have hquiet : ∀ {c : Connection Unit} {bytes : Bytes} {p : Processor Unit},
      idleEndpoint.process_data wire c.processor_ bytes = (p, .accepted) →
      idleEndpoint.Quiet wire c (.on_read_size (.data bytes)) := by
    intro c bytes p hp hthrow
    rw [← process_data_threw_iff, hp] at hthrow
    cases hthrow
  have hread : ∀ {p p' : Processor Unit} {bytes : Bytes},
      idleEndpoint.process_data wire p bytes = (p', .accepted) → (idleEndpoint.machine wire ()).step
        { processor_ := p } (.on_read_size (.data bytes)) = some { processor_ := p' } := by
    intro p p' bytes hp
    show (if True then some (SocketConnection.on_read_size _ _ _) else none) = _
    rw [if_pos trivial, on_read_size_cases, hp]
    rfl
  have h1 := hread hfirst
  have h2 : (idleEndpoint.machine wire ()).step { processor_ := ⟨(), Handlers.eventFrame.bytes.take 2⟩ }
      (.elsewhere ()) = some { processor_ := ⟨(), Handlers.eventFrame.bytes.take 2⟩ } := rfl
  have h3 := hread hsecond
  refine (never_wedged_iff idleEndpoint wire () eventOps
    { processor_ := { env := () }, reading := false, registered := false } ?_).mpr ?_
  · calc (idleEndpoint.machine wire ()).exec (idleEndpoint.machine wire ()).init eventOps
        = _ := Machine.exec_step h1
      _ = _ := Machine.exec_step h2
      _ = _ := Machine.exec_step h3
  · refine (Machine.allSteps_cons h1).mpr ⟨hquiet hfirst, (Machine.allSteps_cons h2).mpr ⟨trivial,
      (Machine.allSteps_cons h3).mpr ⟨hquiet hsecond, trivial, fun _ _ => trivial⟩⟩⟩

/-- A peer that answers a call nobody has made. -/
def strayResult : Frame := ⟨MessageType.response, wire.serializeResult { id := some 7 }⟩

theorem strayResult_length : strayResult.message.length < 2 ^ 24 := by
  simp [strayResult, wire, writeFields, Result.fields, Field.write, writeVarint]

theorem strayResult_parse : strayResult.parse wire = some (.result { id := some 7 }) := by
  simp [strayResult, Frame.parse, wire_lawful.parse_result, MessageType.invocation, MessageType.response]

/-- The connection is neither read from nor removed any more. -/
theorem stray_result_wedges :
    ∃ c, (idleEndpoint.machine wire ()).exec (idleEndpoint.machine wire ()).init
        [.on_read_size (.data strayResult.bytes)] = some c ∧ ¬c.Settled := by
  have hthrows : idleEndpoint.BytesThrow wire () strayResult.bytes := by
    refine ⟨[], (), strayResult, [], .nil, strayResult_length, by simp, ?_⟩
    exact messageProcessor_frameThrows_iff.mpr ⟨_, 7, strayResult_parse, rfl, rfl⟩
  refine ⟨_, rfl, ?_⟩
  intro hsettled
  have hstep : (idleEndpoint.machine wire ()).step (idleEndpoint.machine wire ()).init
      (.on_read_size (.data strayResult.bytes)) = some _ := rfl
  exact (settled_step (fun _ => rfl) (Or.inl rfl) hstep).mpr hsettled hthrows

end Endpoint

end AnboxReboxed.Rpc
