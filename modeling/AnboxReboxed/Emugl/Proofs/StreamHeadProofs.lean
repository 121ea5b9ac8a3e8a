import AnboxReboxed.Emugl.Proofs.RenderThreadProofs
import AnboxReboxed.Emugl.RenderThread

/-!
# Proofs: what is at the head of the read buffer

As long as what is left over is the start of a packet, the buffer is full only below `2 ^ 32` bytes, and doubling it
once is enough.
-/

namespace AnboxReboxed.Emugl

open AnboxReboxed.Lib AnboxReboxed.Graphics

variable {δ : Type} {D : Decoders δ} {r r' : ReadBuffer}

/-- The header is read off the valid bytes. -/
theorem ReadBuffer.readProtocolU32_valid (h : 8 ≤ r.m_validData) {word : Nat} (hw : word < 2) :
    readProtocolU32 r.buf word = readProtocolU32 (fun i => r.valid.getD i 0) word := by
  refine readProtocolU32_congr (n := 8) (fun i hi => ?_) (by omega)
  exact buf_eq_getD (q := []) ((List.append_nil _).symm ▸ List.prefix_rfl) (by omega)

theorem ReadBuffer.Pending.congr (h : r.Pending) (hvalid : r'.valid = r.valid) : r'.Pending := by
  have hlength : r'.m_validData = r.m_validData := by rw [← valid_length, hvalid, valid_length]
  rcases h with h | ⟨hheader, hshort⟩
  · exact Or.inl (by omega)
  · by_cases h8 : r.m_validData < 8
    · exact Or.inl (by omega)
    · rw [readProtocolU32_valid (by omega) (by omega), ← hvalid, ← readProtocolU32_valid (by omega) (by omega)]
        at hheader hshort
      exact Or.inr ⟨hheader, by omega⟩

/-- The decoders together take what one of them takes. -/
theorem Decoders.decode_pos_iff {n : Nat} (hheader : readProtocolU32 r.buf 1 = n) (h8 : 8 ≤ n) (d : δ) :
    0 < (D.decode d r n).1 ↔ D.Takes d (r.front n) := by
  have hop : readProtocolU32 r.buf 0 = readProtocolU32 (fun i => (r.front n).getD i 0) 0 := by
    refine readProtocolU32_congr (n := 8) (fun i hi => ?_) (by omega)
    rw [List.getD_eq_getElem?_getD, ReadBuffer.getElem?_front (by omega)]
    rfl
  have hmodern : D.decodeModernRenderControlCompatibility d r.buf n =
      if handlesModern (readProtocolU32 r.buf 0) n then (n, D.modern d r.buf) else (0, d) := by
    rw [decodeModernRenderControlCompatibility, if_neg (by omega), hheader]
    exact if_neg (by omega)
  rw [decode, hmodern, Takes, ReadBuffer.front_length, ← hop]
  by_cases hhandles : handlesModern (readProtocolU32 r.buf 0) n = true
  · rw [if_pos hhandles]
    simp only [hhandles, true_or, iff_true]
    rw [if_pos (by omega)]
    omega
  · rw [if_neg hhandles]
    simp only [hhandles, Nat.lt_irrefl, if_false, false_or, Bool.false_eq_true, Nat.pos_iff_ne_zero]
    split_ifs with hgl hgl2 <;> simp_all

namespace Transport

variable {s s' : Transport δ} {op : TransportOp}

/-- The buffer, and what is left over in it while the thread waits. -/
structure Bounded (s : Transport δ) : Prop where
  small : s.Small
  reading : ∀ len, s.pc = .reading len → s.readBuf.m_readPtr = 0 ∧ len = s.readBuf.m_size - s.readBuf.m_validData
  nothingStuck : s.NothingStuck

/-- A thread that does not wait. -/
theorem bounded_of_small (hsmall : s.Small) (hpc : s.pc = .decoding ∨ s.pc = .finished) : Bounded s := by
  refine ⟨hsmall, fun len hlen => ?_, fun hwait => ?_⟩
  · rcases hpc with hpc | hpc <;> cases hpc.symm.trans hlen
  · rcases hwait with hwait | ⟨len, hwait⟩ <;> rcases hpc with hpc | hpc <;> cases hpc.symm.trans hwait

theorem Bounded.fetch (h : Bounded s) (hpc : s.pc = .fetching) (realloc_ok : Bool) :
    Bounded (s.fetchRound realloc_ok) := by
  obtain ⟨hroom, hsize⟩ := h.small
  have hpending := h.nothingStuck (Or.inl hpc)
  unfold fetchRound
  rcases ReadBuffer.prepare_cases realloc_ok hroom (by omega) with
    ⟨-, -, hprep⟩ | ⟨r, hprep, hvalid, hcount, hptr, hgrow⟩
  · rw [hprep]
    exact bounded_of_small h.small (Or.inr rfl)
  · rw [hprep]
    have hlt : s.readBuf.m_validData < 2 ^ 32 := by
      have hheader := readProtocolU32_lt s.readBuf.buf 1
      rcases hpending with hlt | ⟨-, hlt⟩ <;> omega
    have hsmall : r.m_validData ≤ r.m_size ∧ r.m_size < 2 ^ 33 := by
      split_ifs at hgrow <;> omega
    refine ⟨hsmall, fun len hlen => ?_, fun _ => hpending.congr hvalid⟩
    cases hlen
    exact ⟨hptr, rfl⟩

theorem Bounded.read (h : Bounded s) {len : Nat} (hpc : s.pc = .reading len) : Bounded (s.readRound len) := by
  obtain ⟨hroom, hsize⟩ := h.small
  obtain ⟨-, hlen⟩ := h.reading len hpc
  have hspec := RequestStream.read_spec s.m_stream len
  unfold readRound
  split
  · exact ⟨h.small, h.reading, h.nothingStuck⟩
  · exact bounded_of_small h.small (Or.inr rfl)
  · next data st heq =>
    rw [heq] at hspec
    obtain ⟨-, hle, -⟩ := hspec
    have hsmall : s.readBuf.m_validData + data.length ≤ s.readBuf.m_size ∧ s.readBuf.m_size < 2 ^ 33 := by omega
    refine bounded_of_small hsmall ?_
    show (if ReadBuffer.stat data.length ≤ 0 then RenderPc.finished else .decoding) = .decoding ∨
      (if ReadBuffer.stat data.length ≤ 0 then RenderPc.finished else .decoding) = .finished
    split_ifs
    · exact Or.inr rfl
    · exact Or.inl rfl

/-- After a round of the inner loop nothing is stuck if and only if the round was over a packet that can be
decoded. -/
theorem decodeRound_iff (hpc : s.pc = .decoding) (realloc_ok : Bool) :
    s.Decodable D (.thread realloc_ok) ↔ (s.decodeRound D).NothingStuck := by
  have hdecodable : s.Decodable D (.thread realloc_ok) ↔ (8 ≤ s.readBuf.m_validData →
      8 ≤ readProtocolU32 s.readBuf.buf 1 ∧ (readProtocolU32 s.readBuf.buf 1 ≤ s.readBuf.m_validData →
        D.Takes s.dec (s.readBuf.front (readProtocolU32 s.readBuf.buf 1)))) :=
    ⟨fun h => h hpc, fun h _ => h⟩
  have hwaits : ∀ {s : Transport δ}, s.pc = .fetching → (s.NothingStuck ↔ s.readBuf.Pending) :=
    fun hpc => ⟨fun h => h (Or.inl hpc), fun h _ => h⟩
  rw [hdecodable]
  unfold decodeRound
  by_cases h8 : s.readBuf.m_validData < 8
  · rw [if_pos h8, hwaits rfl]
    exact ⟨fun _ => Or.inl h8, fun _ h => absurd h (by omega)⟩
  rw [if_neg h8]
  simp only
  by_cases hheader : readProtocolU32 s.readBuf.buf 1 < 8 ∨ s.readBuf.m_validData < readProtocolU32 s.readBuf.buf 1
  · rw [if_pos hheader, hwaits rfl]
    constructor
    · intro h
      have hle := (h (by omega)).1
      exact Or.inr ⟨hle, hheader.resolve_left (by omega)⟩
    · rintro (h | ⟨h, hlt⟩) _
      · exact absurd h h8
      · exact ⟨h, fun hle => absurd hlt (Nat.not_lt.mpr hle)⟩
  · rw [if_neg hheader]
    have hpos := D.decode_pos_iff (r := s.readBuf) rfl (by omega) s.dec
    cases hdecode : D.decode s.dec s.readBuf (readProtocolU32 s.readBuf.buf 1) with
    | mk last dec =>
      rw [hdecode] at hpos
      simp only
      by_cases hlast : 0 < last
      · rw [if_pos hlast]
        refine ⟨fun _ => ?_, fun _ _ => ⟨by omega, fun _ => hpos.mp hlast⟩⟩
        rintro (hwait | ⟨_, hwait⟩) <;> cases hpc.symm.trans hwait
      · rw [if_neg hlast, hwaits rfl]
        constructor
        · exact fun h => absurd (hpos.mpr ((h (by omega)).2 (by omega))) hlast
        · rintro (h | ⟨-, h⟩) _
          · exact absurd h h8
          · exact absurd (Or.inr h) hheader

/-- The thread goes on with what it has, or it goes back to get more. -/
theorem decodeRound_cases (D : Decoders δ) (s : Transport δ) :
    (∃ dec handed last, s.decodeRound D = { s with dec, handed, readBuf := s.readBuf.consume last }) ∨
    ∃ dec handed, s.decodeRound D = { s with dec, handed, pc := .fetching } := by
  unfold decodeRound
  split_ifs
  · exact Or.inr ⟨s.dec, s.handed, rfl⟩
  · simp only
    split_ifs
    · exact Or.inr ⟨s.dec, s.handed, rfl⟩
    · exact Or.inl ⟨_, _, _, rfl⟩
    · exact Or.inr ⟨_, _, rfl⟩

theorem Bounded.decode (h : Bounded s) (hpc : s.pc = .decoding) (hstuck : (s.decodeRound D).NothingStuck) :
    Bounded (s.decodeRound D) := by
  rcases decodeRound_cases D s with ⟨dec, handed, last, heq⟩ | ⟨dec, handed, heq⟩
  · rw [heq]
    exact bounded_of_small ⟨(Nat.sub_le _ _).trans h.small.1, h.small.2⟩ (Or.inl hpc)
  · rw [heq] at hstuck ⊢
    exact ⟨h.small, (fun _ hlen => by cases hlen), hstuck⟩

theorem bounded_iff_decodable (h : Bounded s) (hstep : s.step D op = some s') :
    (s.Decodable D op → Bounded s') ∧ (s'.NothingStuck → s.Decodable D op) := by
  cases op with
  | post_data data =>
    obtain ⟨r, -, rfl⟩ := Option.map_eq_some_iff.mp hstep
    exact ⟨fun _ => ⟨h.small, h.reading, h.nothingStuck⟩, fun _ => trivial⟩
  | forceStop =>
    cases Option.some.inj hstep
    exact ⟨fun _ => ⟨h.small, h.reading, h.nothingStuck⟩, fun _ => trivial⟩
  | thread realloc_ok =>
    have hskip : s.pc ≠ .decoding → s.Decodable D (.thread realloc_ok) := fun hne hpc => absurd hpc hne
    have hstep : s.threadStep D realloc_ok = some s' := hstep
    unfold threadStep at hstep
    split at hstep
    · next hpc =>
      cases Option.some.inj hstep
      exact ⟨fun _ => h.fetch hpc realloc_ok, fun _ => hskip fun h => by cases hpc.symm.trans h⟩
    · next len hpc =>
      cases Option.some.inj hstep
      exact ⟨fun _ => h.read hpc, fun _ => hskip fun h => by cases hpc.symm.trans h⟩
    · next hpc =>
      cases Option.some.inj hstep
      have hiff := decodeRound_iff (D := D) hpc realloc_ok
      exact ⟨fun hC => h.decode hpc (hiff.mp hC), hiff.mpr⟩
    · cases hstep

/-- A thread that is at its end is not going to decode anything. -/
theorem decodable_of_none (h : s.step D op = none) : s.Decodable D op := by
  cases op with
  | thread realloc_ok =>
    intro hpc
    have h : s.threadStep D realloc_ok = none := h
    rw [threadStep, hpc] at h
    cases h
  | _ => trivial

theorem bounded_init (d : δ) (memory : Nat → UInt8) : Bounded (transportMachine D d memory).init := by
  refine ⟨⟨Nat.zero_le _, ?_⟩, (fun len hlen => by cases hlen), fun _ => Or.inl (Nat.zero_lt_succ 7)⟩
  show 4 * 1024 * 1024 < 2 ^ 33
  decide

/-- More is read only to complete a packet if and only if each header that the thread finds announces its own length at
least and each complete packet is taken; and the buffer stays small then. -/
theorem nothing_stuck_iff (D : Decoders δ) (d : δ) (memory : Nat → UInt8) (ops : List TransportOp) :
    ((transportMachine D d memory).AllStates NothingStuck (transportMachine D d memory).init ops ↔
      (transportMachine D d memory).AllSteps (Decodable D) (transportMachine D d memory).init ops) ∧
    ((transportMachine D d memory).AllSteps (Decodable D) (transportMachine D d memory).init ops →
      (transportMachine D d memory).AllStates Small (transportMachine D d memory).init ops) := by
  have hinit := bounded_init (D := D) d memory
  constructor
  · exact Machine.allStates_iff_allSteps_of_enabled (fun s h => h.nothingStuck) (fun s op => decodable_of_none)
      (fun s op s' h hC hstep => (bounded_iff_decodable h hstep).1 hC)
      (fun s op s' h hstep => (bounded_iff_decodable h hstep).2) ops _ hinit
  · exact Machine.allStates_of_allSteps (fun s op s' h hC hstep => (bounded_iff_decodable h hstep).1 hC)
      (fun s h => h.small) hinit

/-- Decoders that take nothing. -/
def noDecoders : Decoders Unit where
  modern _ _ := ()
  m_glDec _ _ := (0, ())
  m_gl2Dec _ _ := (0, ())
  m_rcDec _ _ := (0, ())

/-- A short buffer is read at once. -/
theorem arrives (D : Decoders δ) (d : δ) (memory : Nat → UInt8) {bytes : List UInt8} (hne : bytes ≠ [])
    (hshort : bytes.length < 2 ^ 22) :
    ∃ s, (transportMachine D d memory).exec (transportMachine D d memory).init
      [.post_data (Common.SmallVector.ofRange bytes), .thread true, .thread true] = some s ∧
      s.pc = .decoding ∧ s.readBuf.valid = bytes := by
  cases hp : RequestStream.new.post_data (Common.SmallVector.ofRange bytes) with
  | none =>
    have hfull := (BufferQueue.push_none (Option.map_eq_none_iff.mp hp)).1
    cases hfull
  | some r =>
    obtain ⟨res, st⟩ := r
    rcases RequestStream.post_data_cases hp with ⟨hclosed, -⟩ | ⟨-, -, hav, rfl⟩
    · cases hclosed
    have hav : st.available = bytes := hav.trans (Common.SmallVector.ofRange_data bytes)
    let s0 : Transport δ := { (transportMachine D d memory).init with
      m_stream := st, queued := (Common.SmallVector.ofRange bytes).data }
    have h0 : (transportMachine D d memory).step (transportMachine D d memory).init
        (.post_data (Common.SmallVector.ofRange bytes)) = some s0 := by
      simp only [transportMachine, Transport.step, hp]
      rfl
    have hsize : streamBufferSize = 2 ^ 22 := by decide
    have hbound : streamBufferSize < 2 ^ 63 := by decide
    rcases ReadBuffer.prepare_cases (r := .new streamBufferSize memory) true (Nat.zero_le _) hbound with
      ⟨-, hok, -⟩ | ⟨r, hprep, hvalid, hcount, hptr, hgrow⟩
    · cases hok
    have hcount : r.m_validData = 0 := hcount
    have hgrow : r.m_size = streamBufferSize :=
      hgrow.trans (if_neg (show ¬0 = streamBufferSize by decide))
    have h1 : s0.step D (.thread true) = some { s0 with readBuf := r, pc := .reading (r.m_size - r.m_validData) } := by
      have hprep : s0.readBuf.prepare true = some (r, r.m_size - r.m_validData) := hprep
      show some (s0.fetchRound true) = _
      rw [fetchRound, hprep]
    have hread : ∃ st', st.read (r.m_size - r.m_validData) = (.bytes bytes, st') := by
      have hspec := RequestStream.read_spec st (r.m_size - r.m_validData)
      rw [hav] at hspec
      cases hread : st.read (r.m_size - r.m_validData) with
      | mk result st' =>
        rw [hread] at hspec
        cases result with
        | blocked => exact absurd hspec.1 hne
        | null => exact absurd hspec.1 hne
        | bytes data =>
          obtain ⟨hdata, -, hfull | ⟨-, hnil⟩, -⟩ := hspec
          · rw [hdata, List.length_append] at hshort
            omega
          · rw [hnil, List.append_nil] at hdata
            exact ⟨st', by rw [hdata]⟩
    obtain ⟨st', hread⟩ := hread
    have hread : s0.m_stream.read (r.m_size - r.m_validData) = (.bytes bytes, st') := hread
    have hstat : ¬ReadBuffer.stat bytes.length ≤ 0 := ReadBuffer.stat_pos (List.length_pos_iff.mpr hne) (by omega)
    refine ⟨_, (Machine.exec_step h0).trans ((Machine.exec_step h1).trans (Machine.exec_step rfl)), ?_, ?_⟩
    · simp only [readRound, hread, if_neg hstat]
    · simp only [readRound, hread]
      rw [ReadBuffer.valid_receive hptr, hvalid]
      rfl

/-- The guest posts a header, and the thread reads and looks at it. -/
def afterHeader (header : List UInt8) : List TransportOp :=
  [.post_data (Common.SmallVector.ofRange header), .thread true, .thread true] ++ [.thread true]

theorem stuck_at_header :
    ∀ header ∈ ([[0, 0, 0, 0, 0, 0, 0, 0], [1, 0, 0, 0, 8, 0, 0, 0]] : List (List UInt8)),
      ¬(transportMachine noDecoders () fun _ => 0).AllStates NothingStuck
        (transportMachine noDecoders () fun _ => 0).init
        (afterHeader header) := by
  intro header hheader h
  have hlength : header ≠ [] ∧ header.length = 8 := by
    clear h
    revert header
    decide
  obtain ⟨s, hs, hpc, hvalid⟩ := arrives noDecoders () (fun _ => 0) hlength.1 (by omega)
  have hlast : (s.decodeRound noDecoders).NothingStuck := by
    refine h.last (Machine.exec_append.trans ?_)
    rw [hs]
    show (s.threadStep noDecoders true).bind _ = _
    rw [threadStep, hpc]
    rfl
  have hcount : s.readBuf.m_validData = 8 := by rw [← ReadBuffer.valid_length, hvalid, hlength.2]
  have hword : ∀ word < 2, readProtocolU32 s.readBuf.buf word = readProtocolU32 (fun i => header.getD i 0) word := by
    intro word hw
    rw [ReadBuffer.readProtocolU32_valid (by omega) hw, hvalid]
  obtain ⟨hannounced, htakes⟩ := (decodeRound_iff hpc true).mpr hlast hpc (by omega)
  have hfront : s.readBuf.front 8 = header := by
    rw [ReadBuffer.front_eq_take (by omega), hvalid]
    exact List.take_of_length_le (by omega)
  rw [hword 1 (by omega)] at hannounced htakes
  rcases List.mem_cons.mp hheader with rfl | hheader
  · exact absurd hannounced (by decide)
  · cases List.mem_singleton.mp hheader
    have htaken : noDecoders.Takes s.dec (s.readBuf.front 8) := htakes hcount.ge
    rw [hfront] at htaken
    rcases htaken with hmodern | hnone | hnone | hnone
    · exact absurd hmodern (by decide)
    · exact hnone rfl
    · exact hnone rfl
    · exact hnone rfl

/-- The thread reads more when a header announces nothing, and when no decoder takes a complete packet. -/
theorem not_always_nothing_stuck :
    (¬(transportMachine noDecoders () fun _ => 0).AllStates NothingStuck
      (transportMachine noDecoders () fun _ => 0).init (afterHeader [0, 0, 0, 0, 0, 0, 0, 0])) ∧
    ¬(transportMachine noDecoders () fun _ => 0).AllStates NothingStuck
      (transportMachine noDecoders () fun _ => 0).init (afterHeader [1, 0, 0, 0, 8, 0, 0, 0]) :=
  ⟨stuck_at_header _ List.mem_cons_self, stuck_at_header _ (List.mem_cons_of_mem _ List.mem_cons_self)⟩

end Transport

end AnboxReboxed.Emugl
