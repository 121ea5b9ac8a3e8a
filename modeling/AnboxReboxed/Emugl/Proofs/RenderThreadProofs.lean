import AnboxReboxed.Emugl.RenderThread
import AnboxReboxed.Graphics.Proofs.RenderStreamsProofs
import Mathlib.Tactic.NormNum

/-!
# Proofs: the read buffer keeps its bytes

Compaction and growth leave the valid bytes alone, what is read is added at their end and what is
consumed goes from their front.
-/

namespace AnboxReboxed.Emugl.ReadBuffer

/-- The valid bytes. -/
def valid (r : ReadBuffer) : List UInt8 := r.front r.m_validData

@[simp] theorem front_length (r : ReadBuffer) (n : Nat) : (r.front n).length = n := by simp [front]

@[simp] theorem valid_length (r : ReadBuffer) : r.valid.length = r.m_validData := r.front_length _

theorem getElem?_front {r : ReadBuffer} {n i : Nat} (h : i < n) : (r.front n)[i]? = some (r.buf i) := by
  simp [front, h]

theorem getElem?_valid {r : ReadBuffer} {i : Nat} (h : i < r.m_validData) :
    r.valid[i]? = some (r.buf i) := getElem?_front h

/-- Two buffers whose first `n` bytes agree. -/
theorem front_congr {r r' : ReadBuffer} {n : Nat} (h : ∀ i, i < n → r.buf i = r'.buf i) :
    r.front n = r'.front n :=
  List.map_congr_left fun i hi => h i (List.mem_range.mp hi)

theorem front_eq_take {r : ReadBuffer} {n : Nat} (h : n ≤ r.m_validData) :
    r.front n = r.valid.take n := by
  rw [valid, front, front, ← List.map_take, List.take_range, Nat.min_eq_left h]

theorem freeBytes_eq {a b : Nat} (h : b ≤ a) : freeBytes a b = a - b := if_pos h

theorem grownSize_eq {n : Nat} (h : n < 2 ^ 63) : grownSize n = 2 * n := by
  unfold grownSize
  simp only
  rw [if_neg (by omega)]
  omega

theorem compact_size (r : ReadBuffer) : r.compact.m_size = r.m_size := by
  unfold compact
  split_ifs <;> rfl

theorem compact_validData (r : ReadBuffer) : r.compact.m_validData = r.m_validData := by
  unfold compact
  split_ifs <;> rfl

/-- After the `memmove` the valid bytes are at the start. -/
theorem compact_buf {r : ReadBuffer} {i : Nat} (h : i < r.m_validData) :
    r.compact.m_buf i = r.buf i := by
  unfold compact
  split_ifs with hc
  · exact if_pos h
  · have h0 : r.m_readPtr = 0 := by omega
    simp [buf, h0]

theorem valid_compact (r : ReadBuffer) (m_size : Nat) :
    valid { r.compact with m_size, m_readPtr := 0 } = r.valid := by
  unfold valid
  rw [show ReadBuffer.m_validData { r.compact with m_size, m_readPtr := 0 } = r.m_validData from
    r.compact_validData]
  refine front_congr fun i hi => ?_
  show r.compact.m_buf (0 + i) = _
  rw [Nat.zero_add]
  exact compact_buf hi

/-- What `getData` does before it reads: it fails only when it has to grow and cannot. -/
theorem prepare_cases {r : ReadBuffer} (realloc_ok : Bool) (hv : r.m_validData ≤ r.m_size)
    (hs : r.m_size < 2 ^ 63) :
    (r.m_validData = r.m_size ∧ realloc_ok = false ∧ r.prepare realloc_ok = none) ∨
    ∃ r', r.prepare realloc_ok = some (r', r'.m_size - r'.m_validData) ∧ r'.valid = r.valid ∧
      r'.m_validData = r.m_validData ∧ r'.m_readPtr = 0 ∧
      r'.m_size = if r.m_validData = r.m_size then 2 * r.m_size else r.m_size := by
  unfold prepare
  simp only [compact_size, compact_validData]
  rw [freeBytes_eq hv]
  by_cases hfull : r.m_validData = r.m_size
  · rw [if_pos (by omega), if_pos hfull, grownSize_eq hs, freeBytes_eq (by omega)]
    cases realloc_ok with
    | false => exact Or.inl ⟨hfull, rfl, rfl⟩
    | true =>
      refine Or.inr ⟨{ r.compact with m_size := 2 * r.m_size, m_readPtr := 0 }, ?_, valid_compact _ _,
        compact_validData _, rfl, rfl⟩
      simp only [compact_validData]
      rfl
  · rw [if_neg (by omega), if_neg hfull]
    refine Or.inr ⟨{ r.compact with m_readPtr := 0 }, ?_, valid_compact _ _, compact_validData _, rfl,
      compact_size _⟩
    simp only [compact_validData, compact_size]

/-- The bytes read follow the valid ones. -/
theorem valid_receive {r : ReadBuffer} (h : r.m_readPtr = 0) (data : List UInt8) :
    (r.receive data).valid = r.valid ++ data := by
  refine List.ext_getElem? fun i => ?_
  by_cases hi : i < r.m_validData + data.length
  · rw [getElem?_valid (show i < (r.receive data).m_validData from hi)]
    show some ((r.receive data).m_buf (r.m_readPtr + i)) = _
    rw [h, Nat.zero_add]
    by_cases hv : r.m_validData ≤ i
    · have hd : i - r.m_validData < data.length := by omega
      rw [List.getElem?_append_right (by simpa using hv), valid_length, List.getElem?_eq_getElem hd]
      simp [receive, hv, List.getD_eq_getElem?_getD, List.getElem?_eq_getElem hd]
    · rw [List.getElem?_append_left (by simpa using hv), getElem?_valid (by omega)]
      simp [receive, hv, buf, h]
  · rw [List.getElem?_eq_none (by simpa [receive] using hi), List.getElem?_eq_none (by simpa using hi)]

theorem valid_consume {r : ReadBuffer} {amount : Nat} (h : amount ≤ r.m_validData) :
    (r.consume amount).valid = r.valid.drop amount := by
  refine List.ext_getElem? fun i => ?_
  rw [List.getElem?_drop]
  by_cases hi : i < r.m_validData - amount
  · rw [getElem?_valid (show i < (r.consume amount).m_validData from hi), getElem?_valid (by omega)]
    simp [consume, buf, Nat.add_assoc]
  · rw [List.getElem?_eq_none (by simpa [consume] using hi), List.getElem?_eq_none (by simp; omega)]

theorem stat_pos {n : Nat} (h0 : 0 < n) (h : n < 2 ^ 31) : ¬ stat n ≤ 0 := by
  unfold stat
  rw [BitVec.toInt_ofNat', Int.bmod_eq_of_le] <;> omega

theorem stat_half : stat (2 ^ 31) ≤ 0 := by decide

end AnboxReboxed.Emugl.ReadBuffer

/-!
## Proofs: packets are reassembled whatever the chunking

The bytes that the queue accepted are, in this order, those of the packets handed to the decoders, the
valid bytes of the read buffer and what the stream still has. The header of the next packet says how
long it is, so that a packet is handed over as soon as it is complete and never before.
-/

namespace AnboxReboxed.Emugl

open AnboxReboxed.Lib AnboxReboxed.Common AnboxReboxed.Graphics RequestStream

/-- A packet with its header: opcode, length and body, the length counting all of it. -/
def WellFormed (p : List UInt8) : Prop :=
  8 ≤ p.length ∧ readProtocolU32 (fun i => p.getD i 0) 1 = p.length

namespace Decoders

variable {δ : Type} (D : Decoders δ)

/-- A generated decoder takes a packet as a whole or not at all. -/
structure WholePackets : Prop where
  gl : ∀ d p, WellFormed p → (D.m_glDec d p).1 = 0 ∨ (D.m_glDec d p).1 = p.length
  gl2 : ∀ d p, WellFormed p → (D.m_gl2Dec d p).1 = 0 ∨ (D.m_gl2Dec d p).1 = p.length
  rc : ∀ d p, WellFormed p → (D.m_rcDec d p).1 = 0 ∨ (D.m_rcDec d p).1 = p.length

/-- One of the decoders takes the packet. -/
def Accepts (p : List UInt8) : Prop :=
  handlesModern (readProtocolU32 (fun i => p.getD i 0) 0) p.length = true ∨
  (∀ d, (D.m_glDec d p).1 ≠ 0) ∨ (∀ d, (D.m_gl2Dec d p).1 ≠ 0) ∨ ∀ d, (D.m_rcDec d p).1 ≠ 0

end Decoders

/-- Words within the first `n` bytes depend on these bytes only. -/
theorem readProtocolU32_congr {b b' : Nat → UInt8} {n word : Nat} (h : ∀ i, i < n → b i = b' i)
    (hw : 4 * word + 4 ≤ n) : readProtocolU32 b word = readProtocolU32 b' word := by
  unfold readProtocolU32
  rw [h _ (by omega), h _ (by omega), h _ (by omega), h _ (by omega)]

/-- A word is below `2 ^ 32`. -/
theorem readProtocolU32_lt (b : Nat → UInt8) (word : Nat) : readProtocolU32 b word < 2 ^ 32 := by
  unfold readProtocolU32
  have h0 := (b (4 * word)).toNat_lt
  have h1 := (b (4 * word + 1)).toNat_lt
  have h2 := (b (4 * word + 2)).toNat_lt
  have h3 := (b (4 * word + 3)).toNat_lt
  omega

theorem WellFormed.length_lt {p : List UInt8} (h : WellFormed p) : p.length < 2 ^ 32 :=
  h.2 ▸ readProtocolU32_lt _ _

namespace ReadBuffer

/-- The bytes of the buffer, read off a list it starts with. -/
theorem buf_eq_getD {r : ReadBuffer} {p q : List UInt8} {i : Nat} (h : r.valid ++ q <+: p)
    (hi : i < r.m_validData) : r.buf i = p.getD i 0 := by
  obtain ⟨t, rfl⟩ := h
  have hlen : i < r.valid.length := by simpa using hi
  rw [List.getD_eq_getElem?_getD, List.append_assoc, List.getElem?_append_left hlen, getElem?_valid hi]
  rfl

end ReadBuffer

section Decode

variable {δ : Type} {D : Decoders δ} {p q rest : List UInt8} {r : ReadBuffer}

/-- The header of the packet at the front of the buffer. -/
theorem header_eq {word : Nat} (hr : r.valid ++ q <+: p ++ rest) (hv : 8 ≤ r.m_validData)
    (hp : 8 ≤ p.length) (hw : word < 2) :
    readProtocolU32 r.buf word = readProtocolU32 (fun i => p.getD i 0) word := by
  refine readProtocolU32_congr (n := 8) (fun i hi => ?_) (by omega)
  rw [ReadBuffer.buf_eq_getD hr (by omega), List.getD_eq_getElem?_getD,
    List.getElem?_append_left (by omega), ← List.getD_eq_getElem?_getD]

/-- The packet at the front of the buffer, once it is there as a whole. -/
theorem front_eq_packet (hr : r.valid ++ q <+: p ++ rest) (hv : p.length ≤ r.m_validData) :
    r.front p.length = p := by
  rw [ReadBuffer.front_eq_take hv]
  obtain ⟨t, ht⟩ := hr
  have h := congrArg (List.take p.length) ht
  rw [List.append_assoc, List.take_append_of_le_length (by simpa using hv), List.take_left] at h
  exact h

/-- A decoder's answer, when it takes packets as a whole. -/
theorem last_eq {n m : Nat} (h : n = 0 ∨ n = m) (hn : 0 < n) : n = m := h.resolve_left (by omega)

/-- The compatibility decoder on a packet that is there as a whole. -/
theorem modern_packet (D : Decoders δ) (hwf : WellFormed p) (hr : r.valid ++ q <+: p ++ rest)
    (hv : p.length ≤ r.m_validData) (d : δ) :
    D.decodeModernRenderControlCompatibility d r.buf p.length =
      if handlesModern (readProtocolU32 (fun i => p.getD i 0) 0) p.length then
        (p.length, D.modern d r.buf)
      else (0, d) := by
  have h8 : 8 ≤ p.length := hwf.1
  have hop : readProtocolU32 r.buf 0 = readProtocolU32 (fun i => p.getD i 0) 0 :=
    header_eq hr (by omega) h8 (by omega)
  have hlen : readProtocolU32 r.buf 1 = p.length :=
    (header_eq hr (by omega) h8 (by omega)).trans hwf.2
  unfold Decoders.decodeModernRenderControlCompatibility
  rw [if_neg (by omega), hlen, hop]
  exact if_neg (by omega)

/-- An accepted packet is taken as a whole. -/
theorem decode_packet (hD : D.WholePackets) (hwf : WellFormed p) (hacc : D.Accepts p)
    (hr : r.valid ++ q <+: p ++ rest) (hv : p.length ≤ r.m_validData) (d : δ) :
    (D.decode d r p.length).1 = p.length := by
  have h8 : 8 ≤ p.length := hwf.1
  unfold Decoders.decode
  rw [modern_packet D hwf hr hv, front_eq_packet hr hv]
  by_cases hm : handlesModern (readProtocolU32 (fun i => p.getD i 0) 0) p.length = true
  · rw [if_pos hm]
    dsimp only
    rw [if_pos (by omega)]
  · rw [if_neg hm]
    dsimp only
    rw [if_neg (Nat.lt_irrefl 0)]
    -- the first decoder in the chain that takes the packet returns its length
    by_cases h1 : 0 < (D.m_glDec d p).1
    · rw [if_pos h1]
      exact last_eq (hD.gl d p hwf) h1
    rw [if_neg h1]
    by_cases h2 : 0 < (D.m_gl2Dec (D.m_glDec d p).2 p).1
    · rw [if_pos h2]
      exact last_eq (hD.gl2 _ p hwf) h2
    rw [if_neg h2]
    refine (hD.rc _ p hwf).resolve_left fun h3 => ?_
    rcases hacc with h | h | h | h
    · exact hm h
    · exact h1 (Nat.pos_of_ne_zero (h d))
    · exact h2 (Nat.pos_of_ne_zero (h _))
    · exact h _ h3

end Decode

namespace Transport

variable {δ : Type} {D : Decoders δ} {packets : List (List UInt8)} {s s' : Transport δ}

/-- What the render thread needs to go on: memory when the buffer has to grow, and reads whose length
fits an `int`. -/
def Fits (s : Transport δ) : TransportOp → Prop
  | .thread realloc_ok =>
    match s.pc with
    | .fetching => s.readBuf.m_validData = s.readBuf.m_size → realloc_ok = true
    | .reading len => len < 2 ^ 31 ∨ s.m_stream.available.length < 2 ^ 31
    | _ => True
  | _ => True

theorem Fits.realloc {realloc_ok : Bool} (h : s.Fits (.thread realloc_ok)) (hpc : s.pc = .fetching) :
    s.readBuf.m_validData = s.readBuf.m_size → realloc_ok = true := by
  unfold Fits at h
  rw [hpc] at h
  exact h

theorem Fits.short {realloc_ok : Bool} {len : Nat} (h : s.Fits (.thread realloc_ok))
    (hpc : s.pc = .reading len) : len < 2 ^ 31 ∨ s.m_stream.available.length < 2 ^ 31 := by
  unfold Fits at h
  rw [hpc] at h
  exact h

/-- The run so far: which packets were handed over, and where the bytes of the others are. -/
structure Reassembles (packets : List (List UInt8)) (s : Transport δ) : Prop where
  order : s.handed <+: packets
  split : s.handed.flatten ++ (s.readBuf.valid ++ s.m_stream.available) = s.queued
  inStream : s.queued <+: packets.flatten
  size : ∃ k, k ≤ 32 ∧ s.readBuf.m_size = 2 ^ k
  room : s.readBuf.m_validData ≤ s.readBuf.m_size
  reading : ∀ len, s.pc = .reading len →
    s.readBuf.m_readPtr = 0 ∧ len = s.readBuf.m_size - s.readBuf.m_validData ∧ 0 < len
  incomplete : s.pc ≠ .decoding →
    ∀ p rest, packets = s.handed ++ p :: rest → s.readBuf.m_validData < p.length
  finished : s.pc = .finished → s.m_stream.in_queue_.closed_ = true ∧ s.m_stream.available = []

namespace Reassembles

/-- The bytes at hand are the first ones of the packets not handed over. -/
theorem rest (h : Reassembles packets s) : ∃ rest, packets = s.handed ++ rest ∧
    s.readBuf.valid ++ s.m_stream.available <+: rest.flatten := by
  obtain ⟨rest, hrest⟩ := h.order
  refine ⟨rest, hrest.symm, ?_⟩
  have hin := h.inStream
  rw [← h.split, ← hrest, List.flatten_append] at hin
  exact (List.prefix_append_right_inj _).mp hin

/-- When bytes are at hand, some packet is not handed over. -/
theorem next (h : Reassembles packets s) (hv : 0 < s.readBuf.m_validData) : ∃ p rest,
    packets = s.handed ++ p :: rest ∧
      s.readBuf.valid ++ s.m_stream.available <+: p ++ rest.flatten := by
  obtain ⟨rest, hrest, hpre⟩ := h.rest
  cases rest with
  | nil =>
    have hlen := hpre.length_le
    simp only [List.length_append, ReadBuffer.valid_length, List.flatten_nil, List.length_nil] at hlen
    omega
  | cons p rest => exact ⟨p, rest, hrest, hpre⟩

/-- A full buffer is not larger than the next packet, so it may be doubled. -/
theorem size_le (hwf : ∀ p ∈ packets, WellFormed p) (h : Reassembles packets s)
    (hpc : s.pc ≠ .decoding) (hfull : s.readBuf.m_validData = s.readBuf.m_size) :
    ∃ k, k ≤ 31 ∧ s.readBuf.m_size = 2 ^ k := by
  obtain ⟨k, hk, hsize⟩ := h.size
  have hpos : 0 < 2 ^ k := Nat.two_pow_pos k
  obtain ⟨p, rest, hp, -⟩ := h.next (by omega)
  have hlt : s.readBuf.m_validData < p.length := h.incomplete hpc p rest hp
  have hp32 : p.length < 2 ^ 32 := (hwf p (by simp [hp])).length_lt
  have hk32 : k < 32 := (Nat.pow_lt_pow_iff_right (a := 2) (by omega)).mp (by omega)
  exact ⟨k, by omega, hsize⟩

end Reassembles

theorem reassembles_fetch (hwf : ∀ p ∈ packets, WellFormed p) (h : Reassembles packets s)
    {realloc_ok : Bool} (hpc : s.pc = .fetching) (hfit : s.Fits (.thread realloc_ok)) :
    Reassembles packets (s.fetchRound realloc_ok) := by
  obtain ⟨k, hk, hsize⟩ := h.size
  have hle : 2 ^ k ≤ 2 ^ 32 := Nat.pow_le_pow_right (by omega) hk
  have hnd : s.pc ≠ .decoding := by rw [hpc]; exact fun hc => by cases hc
  rcases ReadBuffer.prepare_cases realloc_ok h.room (by omega) with
    ⟨hfull, hok, -⟩ | ⟨r, hprep, hvalid, hcount, hptr, hgrow⟩
  · rw [hfit.realloc hpc hfull] at hok
    cases hok
  · unfold fetchRound
    rw [hprep]
    have hroom : r.m_validData < r.m_size ∧ ∃ k, k ≤ 32 ∧ r.m_size = 2 ^ k := by
      by_cases hfull : s.readBuf.m_validData = s.readBuf.m_size
      · obtain ⟨j, hj, hj'⟩ := h.size_le hwf hnd hfull
        have hpos : 0 < 2 ^ j := Nat.two_pow_pos j
        rw [if_pos hfull] at hgrow
        exact ⟨by omega, j + 1, by omega, by rw [hgrow, hj', Nat.pow_succ]; omega⟩
      · rw [if_neg hfull] at hgrow
        have := h.room
        exact ⟨by omega, k, hk, hgrow.trans hsize⟩
    refine ⟨h.order, ?_, h.inStream, hroom.2, Nat.le_of_lt hroom.1, ?_, ?_, fun hc => ?_⟩
    · show _ ++ (r.valid ++ _) = _
      rw [hvalid]
      exact h.split
    · rintro len ⟨⟩
      exact ⟨hptr, rfl, Nat.sub_pos_of_lt hroom.1⟩
    · intro _ p rest hp
      exact hcount ▸ h.incomplete hnd p rest hp
    · cases hc

theorem reassembles_read (h : Reassembles packets s) {len : Nat} {realloc_ok : Bool}
    (hpc : s.pc = .reading len) (hfit : s.Fits (.thread realloc_ok)) :
    Reassembles packets (s.readRound len) := by
  obtain ⟨hptr, hlen, hpos⟩ := h.reading len hpc
  have hfit' := hfit.short hpc
  have hspec := read_spec s.m_stream len
  have hnd : s.pc ≠ .decoding := by rw [hpc]; exact fun hc => by cases hc
  unfold readRound
  split
  · -- nothing to read yet
    rename_i st heq
    rw [heq] at hspec
    obtain ⟨hav, -, hav', -⟩ := hspec
    refine ⟨h.order, ?_, h.inStream, h.size, h.room, h.reading, h.incomplete, fun hc => ?_⟩
    · rw [← h.split, hav, hav']
    · rw [hpc] at hc
      cases hc
  · rename_i st heq
    rw [heq] at hspec
    obtain ⟨hav, -, hav', hclosed, -⟩ := hspec
    refine ⟨h.order, ?_, h.inStream, h.size, h.room, fun _ hc => ?_,
      fun _ => h.incomplete hnd, fun _ => ⟨hclosed, hav'⟩⟩
    · rw [← h.split, hav, hav']
    · cases hc
  · rename_i data st heq
    rw [heq] at hspec
    obtain ⟨hav, hle, hmax, -⟩ := hspec
    have hdata : 0 < data.length := by
      rcases hmax with hfull | ⟨hne, -⟩
      · omega
      · exact List.length_pos_iff.mpr hne
    have hshort : data.length < 2 ^ 31 := by
      have := congrArg List.length hav
      rw [List.length_append] at this
      omega
    rw [if_neg (ReadBuffer.stat_pos hdata hshort)]
    have hroom : s.readBuf.m_validData + data.length ≤ s.readBuf.m_size := by omega
    refine ⟨h.order, ?_, h.inStream, h.size, hroom, fun _ hc => ?_, fun hc => absurd rfl hc, fun hc => ?_⟩
    · rw [ReadBuffer.valid_receive hptr, List.append_assoc, ← hav]
      exact h.split
    · cases hc
    · cases hc

/-- The buffer has no complete packet, and the thread leaves the inner loop. -/
theorem reassembles_leave (h : Reassembles packets s)
    (hlt : ∀ p rest, packets = s.handed ++ p :: rest → s.readBuf.m_validData < p.length) :
    Reassembles packets { s with pc := .fetching } :=
  { h with
    reading := fun _ hc => by cases hc
    incomplete := fun _ => hlt
    finished := fun hc => by cases hc }

theorem reassembles_decode (hD : D.WholePackets) (hwf : ∀ p ∈ packets, WellFormed p)
    (hacc : ∀ p ∈ packets, D.Accepts p) (h : Reassembles packets s) (hpc : s.pc = .decoding) :
    Reassembles packets (s.decodeRound D) := by
  unfold decodeRound
  by_cases h8 : s.readBuf.m_validData < 8
  · rw [if_pos h8]
    refine reassembles_leave h fun p rest hp => ?_
    exact Nat.lt_of_lt_of_le h8 (hwf p (by simp [hp])).1
  · rw [if_neg h8]
    obtain ⟨p, rest, hp, hpre⟩ := h.next (by omega)
    have hmem : p ∈ packets := by simp [hp]
    have hlen : readProtocolU32 s.readBuf.buf 1 = p.length :=
      (header_eq hpre (by omega) (hwf p hmem).1 (by omega)).trans (hwf p hmem).2
    have h8p := (hwf p hmem).1
    rw [hlen]
    by_cases hv : p.length ≤ s.readBuf.m_validData
    · -- a complete packet, which some decoder takes
      have hlast := decode_packet hD (hwf p hmem) (hacc p hmem) hpre hv s.dec
      dsimp only
      rw [if_neg (by omega), if_pos (by omega), hlast, front_eq_packet hpre hv]
      have hvalid := ReadBuffer.valid_consume hv
      have hcut : p ++ (s.readBuf.valid.drop p.length ++ s.m_stream.available) =
          s.readBuf.valid ++ s.m_stream.available := by
        have hfront := front_eq_packet hpre hv
        rw [ReadBuffer.front_eq_take hv] at hfront
        rw [← List.append_assoc]
        nth_rewrite 1 [← hfront]
        rw [List.take_append_drop]
      refine ⟨⟨rest, by rw [hp]; simp⟩, ?_, h.inStream, h.size, ?_, fun _ hc => ?_, fun hc => ?_, fun hc => ?_⟩
      · rw [← h.split, List.flatten_append, List.flatten_singleton, hvalid, List.append_assoc, hcut]
      · exact Nat.le_trans (Nat.sub_le _ _) h.room
      · exact absurd (hpc.symm.trans hc) (by intro hc'; cases hc')
      · exact absurd hpc hc
      · exact absurd (hpc.symm.trans hc) (by intro hc'; cases hc')
    · dsimp only
      rw [if_pos (Or.inr (Nat.not_le.mp hv))]
      refine reassembles_leave h fun p' rest' hp' => ?_
      have heq := List.append_cancel_left (hp.symm.trans hp')
      rw [← (List.cons.inj heq).1]
      exact Nat.not_le.mp hv

/-- What a step of the render thread leaves alone: what was queued, whether the queue is closed, and
the bytes delivered or available. -/
structure ThreadFrame (s s' : Transport δ) : Prop where
  queued : s'.queued = s.queued
  closed : s'.m_stream.in_queue_.closed_ = s.m_stream.in_queue_.closed_
  bytes : s'.delivered ++ s'.m_stream.available = s.delivered ++ s.m_stream.available
  available : s'.m_stream.available <:+ s.m_stream.available

theorem ThreadFrame.of_stream (hq : s'.queued = s.queued) (hs : s'.m_stream = s.m_stream)
    (hd : s'.delivered = s.delivered) : ThreadFrame s s' :=
  ⟨hq, by rw [hs], by rw [hs, hd], hs ▸ List.suffix_rfl⟩

theorem threadFrame_read (len : Nat) : ThreadFrame s (s.readRound len) := by
  have hspec := read_spec s.m_stream len
  unfold readRound
  split
  · rename_i st heq
    rw [heq] at hspec
    exact ⟨rfl, hspec.2.2.2.1.trans hspec.2.1.symm, by rw [hspec.1, hspec.2.2.1],
      hspec.2.2.1 ▸ List.nil_suffix⟩
  · rename_i st heq
    rw [heq] at hspec
    exact ⟨rfl, hspec.2.2.2.1.trans hspec.2.1.symm, by rw [hspec.1, hspec.2.2.1],
      hspec.2.2.1 ▸ List.nil_suffix⟩
  · rename_i data st heq
    rw [heq] at hspec
    exact ⟨rfl, hspec.2.2.2.1, by rw [hspec.1, List.append_assoc],
      hspec.1 ▸ List.suffix_append _ _⟩

theorem threadFrame_step {realloc_ok : Bool} (hs : s.threadStep D realloc_ok = some s') :
    ThreadFrame s s' := by
  unfold threadStep at hs
  split at hs
  · rw [← Option.some.inj hs]
    unfold fetchRound
    split <;> exact .of_stream rfl rfl rfl
  · exact Option.some.inj hs ▸ threadFrame_read _
  · rw [← Option.some.inj hs]
    unfold decodeRound
    split_ifs
    · exact .of_stream rfl rfl rfl
    · dsimp only
      split_ifs <;> exact .of_stream rfl rfl rfl
  · cases hs

/-- Every byte accepted by the queue was delivered or is available, whatever the run. -/
def Delivers (s : Transport δ) : Prop := s.delivered ++ s.m_stream.available = s.queued

theorem delivers_step {op : TransportOp} (h : s.Delivers) (hs : s.step D op = some s') :
    s'.Delivers := by
  cases op with
  | post_data data =>
    obtain ⟨⟨res, st⟩, hpost, rfl⟩ := Option.map_eq_some_iff.mp hs
    rcases post_data_cases hpost with ⟨-, rfl, rfl⟩ | ⟨-, -, hav, rfl⟩
    · exact h
    · show s.delivered ++ st.available = s.queued ++ data.data
      rw [hav, ← List.append_assoc]
      exact congrArg (· ++ data.data) h
  | forceStop => exact Option.some.inj hs ▸ h
  | thread realloc_ok =>
    have hf := threadFrame_step hs
    exact hf.bytes.trans (h.trans hf.queued.symm)

theorem delivers_init (d : δ) (memory : Nat → UInt8) : Delivers (transportMachine D d memory).init := rfl

/-- The buffers posted while the queue is open continue the stream of packets. -/
theorem reassembles_step (hD : D.WholePackets) (hwf : ∀ p ∈ packets, WellFormed p)
    (hacc : ∀ p ∈ packets, D.Accepts p) {op : TransportOp} (h : Reassembles packets s)
    (hfit : s.Fits op)
    (hpost : ∀ data, op = .post_data data → s.m_stream.in_queue_.closed_ = false →
      s.queued ++ data.data <+: packets.flatten)
    (hs : s.step D op = some s') : Reassembles packets s' := by
  cases op with
  | post_data data =>
    obtain ⟨⟨res, st⟩, hres, rfl⟩ := Option.map_eq_some_iff.mp hs
    rcases post_data_cases hres with ⟨-, rfl, rfl⟩ | ⟨hopen, -, hav, rfl⟩
    · exact { h with }
    · refine { h with split := ?_, inStream := hpost data rfl hopen, finished := fun hc => ?_ }
      · show _ ++ (_ ++ st.available) = s.queued ++ data.data
        rw [hav, ← h.split]
        simp
      · rw [(h.finished hc).1] at hopen
        cases hopen
  | forceStop =>
    rw [← Option.some.inj hs]
    exact { h with finished := fun hc => ⟨rfl, (h.finished hc).2⟩ }
  | thread realloc_ok =>
    simp only [step, threadStep] at hs
    split at hs
    · rename_i hpc
      exact Option.some.inj hs ▸ reassembles_fetch hwf h hpc hfit
    · rename_i len hpc
      exact Option.some.inj hs ▸ reassembles_read h hpc hfit
    · rename_i hpc
      exact Option.some.inj hs ▸ reassembles_decode hD hwf hacc h hpc
    · cases hs

theorem reassembles_init (hwf : ∀ p ∈ packets, WellFormed p) (d : δ) (memory : Nat → UInt8) :
    Reassembles packets (transportMachine D d memory).init := by
  refine ⟨List.nil_prefix, rfl, List.nil_prefix, ⟨22, by omega, rfl⟩, Nat.zero_le _, fun _ hc => ?_,
    fun _ p rest hp => ?_, fun hc => ?_⟩
  · cases hc
  · have hmem : p ∈ packets := by simp [hp]
    exact Nat.lt_of_lt_of_le (Nat.zero_lt_succ 7) (hwf p hmem).1
  · cases hc

/-- The queue is closed by `forceStop` only. -/
theorem closed_step {op : TransportOp} (hs : s.step D op = some s') :
    s'.m_stream.in_queue_.closed_ = s.m_stream.in_queue_.closed_ ∨ op = .forceStop := by
  cases op with
  | post_data data =>
    obtain ⟨⟨res, st⟩, hres, rfl⟩ := Option.map_eq_some_iff.mp hs
    rcases post_data_cases hres with ⟨-, rfl, -⟩ | ⟨hopen, hopen', -, -⟩
    · exact Or.inl rfl
    · exact Or.inl (hopen'.trans hopen.symm)
  | forceStop => exact Or.inr rfl
  | thread realloc_ok => exact Or.inl (threadFrame_step hs).closed

theorem closed_exec {ops : List TransportOp} {d : δ} {memory : Nat → UInt8} :
    ∀ {s s' : Transport δ}, (transportMachine D d memory).exec s ops = some s' →
      s.m_stream.in_queue_.closed_ = false → s'.m_stream.in_queue_.closed_ = true →
      TransportOp.forceStop ∈ ops := by
  induction ops with
  | nil =>
    intro s s' h hopen hclosed
    rw [Option.some.inj h, hclosed] at hopen
    cases hopen
  | cons op ops ih =>
    intro s s' h hopen hclosed
    obtain ⟨s1, h1, h2⟩ := Machine.exec_cons h
    rcases closed_step h1 with heq | rfl
    · exact List.mem_cons_of_mem _ (ih h2 (heq.trans hopen) hclosed)
    · exact List.mem_cons_self

/-- As long as the queue is open, what is queued and what is still to be posted make up the stream. -/
theorem posted_step {op : TransportOp} {ops : List TransportOp} {bytes : List UInt8}
    (hs : s.step D op = some s') (hopen : s'.m_stream.in_queue_.closed_ = false)
    (h : s.m_stream.in_queue_.closed_ = false →
      s.queued ++ TransportOp.postedBytes (op :: ops) <+: bytes) :
    s'.queued ++ TransportOp.postedBytes ops <+: bytes := by
  cases op with
  | post_data data =>
    obtain ⟨⟨res, st⟩, hres, rfl⟩ := Option.map_eq_some_iff.mp hs
    rcases post_data_cases hres with ⟨hclosed, rfl, -⟩ | ⟨hopen', -, -, rfl⟩
    · rw [show s.m_stream.in_queue_.closed_ = false from hopen] at hclosed
      cases hclosed
    · have hb := h hopen'
      rw [TransportOp.postedBytes, ← List.append_assoc] at hb
      exact hb
  | forceStop =>
    rw [← Option.some.inj hs] at hopen
    cases hopen
  | thread realloc_ok =>
    have hf := threadFrame_step hs
    rw [hf.queued]
    exact h (hf.closed.symm.trans hopen)

/-- The invariant along a run that posts a part of the stream. -/
theorem reassembles_exec (hD : D.WholePackets) (hwf : ∀ p ∈ packets, WellFormed p)
    (hacc : ∀ p ∈ packets, D.Accepts p) {d : δ} {memory : Nat → UInt8} {ops : List TransportOp} :
    ∀ {s s' : Transport δ}, Reassembles packets s →
      (s.m_stream.in_queue_.closed_ = false →
        s.queued ++ TransportOp.postedBytes ops <+: packets.flatten) →
      (transportMachine D d memory).AllSteps Fits s ops →
      (transportMachine D d memory).exec s ops = some s' → Reassembles packets s' := by
  induction ops with
  | nil => exact fun hs _ _ h => Option.some.inj h ▸ hs
  | cons op ops ih =>
    intro s s' hs hposts hfit h
    obtain ⟨s1, h1, h2⟩ := Machine.exec_cons h
    refine ih (reassembles_step hD hwf hacc hs hfit.1 ?_ h1) (fun hopen => posted_step h1 hopen hposts)
      (hfit.2 s1 h1) h2
    rintro data rfl hopen
    have hp := hposts hopen
    rw [TransportOp.postedBytes, ← List.append_assoc] at hp
    exact (List.prefix_append _ _).trans hp

/-- The render thread waits for a buffer, or has left its loop. -/
def Quiet (s : Transport δ) : Prop :=
  s.pc = .finished ∨ ∃ len, s.pc = .reading len ∧ s.m_stream.in_queue_.closed_ = false ∧
    s.m_stream.in_queue_.count_ = 0 ∧ s.m_stream.read_buffer_left_ = 0

theorem Reassembles.available_of_quiet (h : Reassembles packets s) (hq : s.Quiet) :
    s.m_stream.available = [] := by
  rcases hq with hfin | ⟨len, -, -, hcount, hleft⟩
  · exact (h.finished hfin).2
  · rw [available, unread_eq_nil hleft, BufferQueue.contents_eq_nil.mpr hcount]
    rfl

/-- A quiet thread has handed over every packet that was queued as a whole. -/
theorem Reassembles.complete (h : Reassembles packets s) (hq : s.Quiet) {ps : List (List UInt8)}
    (hps : ps <+: packets) (hin : ps.flatten <+: s.queued) : ps <+: s.handed := by
  rcases List.prefix_or_prefix_of_prefix hps h.order with hle | hge
  · exact hle
  · obtain ⟨more, rfl⟩ := hge
    cases more with
    | nil => simp
    | cons p more =>
      exfalso
      obtain ⟨rest, hrest⟩ := hps
      have hnd : s.pc ≠ .decoding := by
        rcases hq with hfin | ⟨len, hpc, -⟩
        · rw [hfin]; intro hc; cases hc
        · rw [hpc]; intro hc; cases hc
      have hlt := h.incomplete hnd p (more ++ rest) (by rw [← hrest]; simp)
      have hlen := hin.length_le
      rw [← h.split, h.available_of_quiet hq] at hlen
      simp only [List.flatten_append, List.flatten_cons, List.length_append, List.append_nil,
        ReadBuffer.valid_length] at hlen
      omega

/-- How far the render thread is from being quiet: every byte has to be read and decoded. -/
def work (s : Transport δ) : Nat :=
  6 * s.m_stream.available.length + 3 * s.readBuf.m_validData +
    match s.pc with
    | .decoding => 2
    | .fetching => 1
    | _ => 0

theorem work_fetch (hpc : s.pc = .fetching) (hroom : s.readBuf.m_validData ≤ s.readBuf.m_size)
    (hsize : s.readBuf.m_size < 2 ^ 63) : (s.fetchRound true).work < s.work := by
  rcases ReadBuffer.prepare_cases true hroom hsize with
    ⟨-, hok, -⟩ | ⟨r, hprep, -, hcount, -⟩
  · cases hok
  · unfold fetchRound work
    rw [hprep, hpc]
    dsimp only
    omega

theorem work_read {len : Nat} (hpc : s.pc = .reading len) (hpos : 0 < len) :
    (s.readRound len).Quiet ∨ (s.readRound len).work < s.work := by
  have hspec := read_spec s.m_stream len
  unfold readRound
  split
  · rename_i st heq
    rw [heq] at hspec
    obtain ⟨-, -, -, hopen, hcount, -, hleft⟩ := hspec
    exact Or.inl (Or.inr ⟨len, hpc, hopen, hcount, hleft⟩)
  · exact Or.inl (Or.inl rfl)
  · rename_i data st heq
    rw [heq] at hspec
    obtain ⟨hav, -, hmax, -⟩ := hspec
    have hdata : 0 < data.length := by
      rcases hmax with hfull | ⟨hne, -⟩
      · omega
      · exact List.length_pos_iff.mpr hne
    by_cases hstat : ReadBuffer.stat data.length ≤ 0
    · exact Or.inl (Or.inl (if_pos hstat))
    · refine Or.inr ?_
      have hlen := congrArg List.length hav
      rw [List.length_append] at hlen
      unfold work
      rw [if_neg hstat, hpc]
      simp only [ReadBuffer.receive]
      omega

theorem work_decode (D : Decoders δ) (hpc : s.pc = .decoding) : (s.decodeRound D).work < s.work := by
  have hleave : work { s with pc := .fetching } < s.work := by
    unfold work
    rw [hpc]
    exact Nat.lt_succ_self _
  unfold decodeRound
  by_cases h8 : s.readBuf.m_validData < 8
  · rw [if_pos h8]
    exact hleave
  · rw [if_neg h8]
    dsimp only
    split_ifs with hpart hlast
    · exact hleave
    · -- a packet was taken
      unfold work
      simp only [ReadBuffer.consume, hpc]
      omega
    · exact hleave

/-- A thread that is not quiet is so after its next step, or gets closer to it. -/
theorem quiet_or_work (D : Decoders δ) (h : Reassembles packets s) (hq : ¬ s.Quiet) :
    ∃ s', s.step D (.thread true) = some s' ∧ (s'.Quiet ∨ s'.work < s.work) := by
  obtain ⟨k, hk, hsize⟩ := h.size
  have hle : 2 ^ k ≤ 2 ^ 32 := Nat.pow_le_pow_right (by omega) hk
  simp only [step, threadStep]
  split
  · rename_i hpc
    exact ⟨_, rfl, Or.inr (work_fetch hpc h.room (by omega))⟩
  · rename_i len hpc
    exact ⟨_, rfl, work_read hpc (h.reading len hpc).2.2⟩
  · rename_i hpc
    exact ⟨_, rfl, Or.inr (work_decode D hpc)⟩
  · rename_i hpc
    exact absurd (Or.inl hpc) hq

/-- Left alone, the render thread becomes quiet. -/
theorem becomes_quiet (hD : D.WholePackets) (hwf : ∀ p ∈ packets, WellFormed p)
    (hacc : ∀ p ∈ packets, D.Accepts p) (d : δ) (memory : Nat → UInt8) (n : Nat) :
    ∀ {s : Transport δ}, Reassembles packets s → s.work ≤ n →
      ∃ m, (transportMachine D d memory).AllSteps Fits s (List.replicate m (.thread true)) →
        ∃ s', (transportMachine D d memory).exec s (List.replicate m (.thread true)) = some s' ∧
          s'.Quiet := by
  induction n with
  | zero =>
    intro s h hn
    by_cases hq : s.Quiet
    · exact ⟨0, fun _ => ⟨s, rfl, hq⟩⟩
    · obtain ⟨s1, h1, hq1 | hlt⟩ := quiet_or_work D h hq
      · exact ⟨1, fun _ => ⟨s1, Option.bind_eq_some_iff.mpr ⟨s1, h1, rfl⟩, hq1⟩⟩
      · omega
  | succ n ih =>
    intro s h hn
    by_cases hq : s.Quiet
    · exact ⟨0, fun _ => ⟨s, rfl, hq⟩⟩
    · obtain ⟨s1, h1, hq1 | hlt⟩ := quiet_or_work D h hq
      · exact ⟨1, fun _ => ⟨s1, Option.bind_eq_some_iff.mpr ⟨s1, h1, rfl⟩, hq1⟩⟩
      · by_cases hfit : s.Fits (.thread true)
        · have hR : Reassembles packets s1 :=
            reassembles_step hD hwf hacc h hfit (fun _ hc => by cases hc) h1
          obtain ⟨m, hm⟩ := ih hR (by omega)
          refine ⟨m + 1, fun hall => ?_⟩
          obtain ⟨s', hs', hq'⟩ := hm (hall.2 s1 h1)
          exact ⟨s', Option.bind_eq_some_iff.mpr ⟨s1, h1, hs'⟩, hq'⟩
        · exact ⟨1, fun hall => absurd hall.1 hfit⟩

theorem postedBytes_append (ops ops' : List TransportOp) :
    TransportOp.postedBytes (ops ++ ops') =
      TransportOp.postedBytes ops ++ TransportOp.postedBytes ops' := by
  induction ops with
  | nil => rfl
  | cons op ops ih => cases op <;> simp [TransportOp.postedBytes, ih]

/-- The thread alone posts nothing. -/
theorem postedBytes_threads (n : Nat) (realloc_ok : Bool) :
    TransportOp.postedBytes (List.replicate n (.thread realloc_ok)) = [] := by
  induction n with
  | zero => rfl
  | succ n ih => exact ih

theorem queued_threads {d : δ} {memory : Nat → UInt8} {realloc_ok : Bool} (n : Nat) :
    ∀ {s s' : Transport δ}, (transportMachine D d memory).exec s
      (List.replicate n (.thread realloc_ok)) = some s' → s'.queued = s.queued := by
  induction n with
  | zero => exact fun h => Option.some.inj h ▸ rfl
  | succ n ih =>
    intro s s' h
    obtain ⟨s1, h1, h2⟩ := Machine.exec_cons h
    exact (ih h2).trans (threadFrame_step h1).queued

/-- A run that posts less than `2 ^ 31` bytes and never runs out of memory meets the condition. -/
theorem fits_of_short {d : δ} {memory : Nat → UInt8} {ops : List TransportOp} :
    ∀ {s : Transport δ}, TransportOp.thread false ∉ ops →
      s.m_stream.available.length + (TransportOp.postedBytes ops).length < 2 ^ 31 →
      (transportMachine D d memory).AllSteps Fits s ops := by
  induction ops with
  | nil => exact fun _ _ => trivial
  | cons op ops ih =>
    intro s hmem hlen
    have hrest : TransportOp.thread false ∉ ops := fun hm => hmem (List.mem_cons_of_mem _ hm)
    cases op with
    | post_data data =>
      simp only [TransportOp.postedBytes, List.length_append] at hlen
      refine ⟨trivial, fun s1 h1 => ih hrest ?_⟩
      obtain ⟨⟨res, st⟩, hres, rfl⟩ := Option.map_eq_some_iff.mp h1
      rcases post_data_cases hres with ⟨-, rfl, -⟩ | ⟨-, -, hav, -⟩
      · show s.m_stream.available.length + _ < _
        omega
      · show st.available.length + _ < _
        rw [hav, List.length_append]
        omega
    | forceStop => exact ⟨trivial, fun s1 h1 => ih hrest (Option.some.inj h1 ▸ hlen)⟩
    | thread realloc_ok =>
      cases realloc_ok with
      | false => exact absurd List.mem_cons_self hmem
      | true =>
        have hlen' : s.m_stream.available.length + (TransportOp.postedBytes ops).length < 2 ^ 31 := hlen
        refine ⟨?_, fun s1 h1 => ih hrest ?_⟩
        · simp only [Fits]
          split
          · exact fun _ => trivial
          · exact Or.inr (by omega)
          · trivial
        · have := (threadFrame_step h1).available.length_le
          omega

end Transport

open Transport

/-- While every growth of the read buffer gets its memory and no read returns `2 ^ 31` bytes or more,
the packets handed to the decoders are those of the stream, once each and in order, however it was
split into buffers and whenever they were posted: a prefix of them at any time, and every packet
queued as a whole once the thread is quiet, which it becomes when left alone. In any run `read` returns
null only after `forceStop`, when every queued byte was delivered. -/
theorem transport_reassembles {δ : Type} (D : Decoders δ) (hD : D.WholePackets) (d : δ)
    (memory : Nat → UInt8) (packets : List (List UInt8)) (hwf : ∀ p ∈ packets, WellFormed p)
    (hacc : ∀ p ∈ packets, D.Accepts p) (ops : List TransportOp) (s : Transport δ)
    (hposts : TransportOp.postedBytes ops <+: packets.flatten)
    (hrun : (transportMachine D d memory).exec (transportMachine D d memory).init ops = some s) :
    ((transportMachine D d memory).AllSteps Fits (transportMachine D d memory).init ops →
      s.handed <+: packets ∧
      (s.Quiet → ∀ ps, ps <+: packets → ps.flatten <+: s.queued → ps <+: s.handed) ∧
      (s.Quiet → s.queued = packets.flatten → s.handed = packets) ∧
      ∃ n, (transportMachine D d memory).AllSteps Fits s (List.replicate n (.thread true)) →
        ∃ s', (transportMachine D d memory).exec s (List.replicate n (.thread true)) = some s' ∧
          s'.Quiet) ∧
    (∀ len, s.pc = .reading len → (s.m_stream.read len).1 = .null →
      TransportOp.forceStop ∈ ops ∧ s.delivered = s.queued) := by
  refine ⟨fun hfit => ?_, fun len hpc hnull => ?_⟩
  · have hR : Reassembles packets s :=
      reassembles_exec hD hwf hacc (reassembles_init hwf d memory) (fun _ => hposts) hfit hrun
    refine ⟨hR.order, fun hq ps => hR.complete hq, fun hq hall => ?_, ?_⟩
    · exact hR.order.eq_of_length_le
        (hR.complete hq List.prefix_rfl (hall ▸ List.prefix_rfl)).length_le
    · exact becomes_quiet hD hwf hacc d memory s.work hR (Nat.le_refl _)
  · have hV : s.delivered ++ s.m_stream.available = s.queued :=
      Machine.Reachable.invariant (m := transportMachine D d memory) (P := Delivers)
        (delivers_init d memory) (fun _ _ _ h hs => delivers_step h hs) ⟨ops, hrun⟩
    have hspec := read_spec s.m_stream len
    rw [show s.m_stream.read len = (.null, (s.m_stream.read len).2) from Prod.ext hnull rfl] at hspec
    rw [hspec.1, List.append_nil] at hV
    exact ⟨closed_exec hrun rfl hspec.2.1, hV⟩

/-- Decoders of which the first takes every packet. -/
def glOnly : Decoders Unit where
  modern := fun d _ => d
  m_glDec := fun d p => (p.length, d)
  m_gl2Dec := fun d _ => (0, d)
  m_rcDec := fun d _ => (0, d)

theorem glOnly_whole : glOnly.WholePackets :=
  ⟨fun _ _ _ => Or.inr rfl, fun _ _ _ => Or.inl rfl, fun _ _ _ => Or.inl rfl⟩

theorem glOnly_accepts {p : List UInt8} (h : WellFormed p) : glOnly.Accepts p :=
  Or.inr (Or.inl fun _ => Nat.ne_of_gt (Nat.lt_of_lt_of_le (by decide) h.1))

/-- Two packets, cut inside the header of the first and inside the body of the second. -/
def twoPackets : List (List UInt8) := [[1, 0, 0, 0, 8, 0, 0, 0], [2, 0, 0, 0, 10, 0, 0, 0, 7, 9]]

def cutPosts : List TransportOp :=
  [.post_data (SmallVector.ofRange [1, 0, 0]), .post_data SmallVector.empty,
    .post_data (SmallVector.ofRange [0, 8, 0, 0, 0, 2, 0, 0, 0, 10, 0, 0, 0, 7]),
    .post_data (SmallVector.ofRange [9])]

theorem transport_reassembles_twoPackets : ∃ n s,
    (transportMachine glOnly () fun _ => 0).exec (transportMachine glOnly () fun _ => 0).init
      (cutPosts ++ List.replicate n (.thread true)) = some s ∧ s.handed = twoPackets := by
  have hwf : ∀ p ∈ twoPackets, WellFormed p := by
    unfold twoPackets WellFormed
    decide
  have hacc : ∀ p ∈ twoPackets, glOnly.Accepts p := fun p hp => glOnly_accepts (hwf p hp)
  have hposts : TransportOp.postedBytes cutPosts = twoPackets.flatten := rfl
  have hmem : ∀ n, TransportOp.thread false ∉ cutPosts ++ List.replicate n (.thread true) := by
    simp [cutPosts]
  have hfit : ∀ n, (transportMachine glOnly () fun _ => 0).AllSteps Fits
      (transportMachine glOnly () fun _ => 0).init (cutPosts ++ List.replicate n (.thread true)) := by
    intro n
    refine fits_of_short (hmem n) ?_
    rw [postedBytes_append, postedBytes_threads, hposts]
    decide
  obtain ⟨s, hs, hq, hav⟩ : ∃ s, (transportMachine glOnly () fun _ => 0).exec
      (transportMachine glOnly () fun _ => 0).init cutPosts = some s ∧
      s.queued = twoPackets.flatten ∧ s.m_stream.available = twoPackets.flatten := ⟨_, rfl, rfl, rfl⟩
  obtain ⟨-, -, -, n, hn⟩ := (transport_reassembles glOnly glOnly_whole () (fun _ => 0) twoPackets hwf
    hacc cutPosts s (hposts ▸ List.prefix_rfl) hs).1 (by simpa using hfit 0)
  -- the thread alone goes on until it is quiet
  obtain ⟨s', hs', hquiet⟩ := hn (fits_of_short (by simp) (by
    rw [postedBytes_threads, hav]
    decide))
  have hrun : (transportMachine glOnly () fun _ => 0).exec (transportMachine glOnly () fun _ => 0).init
      (cutPosts ++ List.replicate n (.thread true)) = some s' := by
    rw [Machine.exec_append, hs]
    exact hs'
  refine ⟨n, s', hrun, ?_⟩
  refine ((transport_reassembles glOnly glOnly_whole () (fun _ => 0) twoPackets hwf hacc _ s' ?_ hrun).1
    (hfit n)).2.2.1 hquiet ((queued_threads n hs').trans hq)
  rw [postedBytes_append, postedBytes_threads, hposts]
  decide

section Truncation

variable {δ : Type} {D : Decoders δ} {d : δ} (memory : Nat → UInt8) {s : Transport δ}
  {total : List UInt8} {n size : Nat}

/-- The thread at the top of its loop, with the first `n` bytes of `total` in a buffer of `size`
bytes and the others in the stream. -/
structure Filled (total : List UInt8) (n size : Nat) (s : Transport δ) : Prop where
  pc : s.pc = .fetching
  count : s.readBuf.m_validData = n
  size : s.readBuf.m_size = size
  bytes : s.readBuf.valid ++ s.m_stream.available = total
  handed : s.handed = []
  queued : s.queued = total

/-- `getData` fills the buffer, grown if it was full, when there are enough bytes. -/
theorem Filled.getData (h : Filled total n size s) (hn : n ≤ size) (hpos : 0 < size)
    (hsize : size < 2 ^ 63) {g : Nat} (hg : g = if n = size then 2 * size else size)
    (htotal : g ≤ total.length) :
    ∃ s', (transportMachine D d memory).exec s [.thread true, .thread true] = some s' ∧
      s'.pc = (if ReadBuffer.stat (g - n) ≤ 0 then .finished else .decoding) ∧
      s'.readBuf.m_validData = g ∧ s'.readBuf.m_size = g ∧
      s'.readBuf.valid ++ s'.m_stream.available = total ∧ s'.handed = [] ∧ s'.queued = total := by
  obtain ⟨hpc, rfl, rfl, hbytes, hhanded, hqueued⟩ := h
  rcases ReadBuffer.prepare_cases true hn hsize with
    ⟨-, hok, -⟩ | ⟨r, hprep, hvalid, hcount, hptr, hgrow⟩
  · cases hok
  rw [← hg] at hgrow
  have hfetch : s.step D (.thread true) =
      some { s with readBuf := r, pc := .reading (g - s.readBuf.m_validData) } := by
    simp only [Transport.step, threadStep, hpc, fetchRound, hprep, hgrow, hcount]
  have hlt : s.readBuf.m_validData < g := by
    rw [hg]
    split_ifs <;> omega
  -- the stream has all the bytes that are asked for
  have hav : s.m_stream.available.length = total.length - s.readBuf.m_validData := by
    rw [← hbytes, List.length_append, ReadBuffer.valid_length]
    omega
  have hspec := read_spec s.m_stream (g - s.readBuf.m_validData)
  generalize hread : s.m_stream.read (g - s.readBuf.m_validData) = res at hspec
  obtain ⟨result, st⟩ := res
  cases result with
  | blocked =>
    have := hspec.1
    rw [this, List.length_nil] at hav
    omega
  | null =>
    have := hspec.1
    rw [this, List.length_nil] at hav
    omega
  | bytes data =>
    obtain ⟨hsplit, hle, hmax, -⟩ := hspec
    have hlen : data.length = g - s.readBuf.m_validData := by
      rcases hmax with hfull | ⟨-, hnil⟩
      · exact hfull
      · rw [hsplit, hnil, List.append_nil] at hav
        omega
    refine ⟨_, Option.bind_eq_some_iff.mpr ⟨_, hfetch, Option.bind_eq_some_iff.mpr ⟨_, rfl, rfl⟩⟩, ?_⟩
    simp only [readRound, hread, hlen]
    refine ⟨trivial, ?_, hgrow, ?_, hhanded, hqueued⟩
    · show r.m_validData + data.length = g
      omega
    · rw [ReadBuffer.valid_receive hptr, hvalid, List.append_assoc, ← hsplit]
      exact hbytes

/-- A packet longer than the buffer: nothing to decode yet. -/
theorem decodeRound_waits {len : Nat} (hhead : readProtocolU32 (fun i => total.getD i 0) 1 = len)
    (hbytes : s.readBuf.valid ++ s.m_stream.available = total) (h8 : 8 ≤ s.readBuf.m_validData)
    (hlen : s.readBuf.m_validData < len) : s.decodeRound D = { s with pc := .fetching } := by
  have hheader : readProtocolU32 s.readBuf.buf 1 = len := by
    rw [← hhead]
    refine readProtocolU32_congr (n := 8) (fun i hi => ?_) (by omega)
    exact ReadBuffer.buf_eq_getD (q := s.m_stream.available) (hbytes ▸ List.prefix_rfl) (by omega)
  unfold decodeRound
  rw [if_neg (by omega), hheader]
  exact if_pos (Or.inr hlen)

/-- One round of the outer loop fills the buffer again. -/
theorem Filled.round (h : Filled total n size s) (hn : n ≤ size) {g : Nat}
    (hg : g = if n = size then 2 * size else size) (h8 : 8 ≤ size) (hg31 : g ≤ 2 ^ 31)
    (hshort : g - n < 2 ^ 31) (htotal : g ≤ total.length)
    (hhead : readProtocolU32 (fun i => total.getD i 0) 1 = 2 ^ 32 - 1) :
    ∃ s', (transportMachine D d memory).exec s (List.replicate 3 (.thread true)) = some s' ∧
      Filled total g g s' := by
  have hlt : n < g ∧ size ≤ g := by
    rw [hg]
    split_ifs <;> omega
  obtain ⟨s1, h1, hpc, hcount, hsz, hbytes, hhanded, hqueued⟩ :=
    h.getData memory (D := D) (d := d) hn (by omega) (by omega) hg htotal
  rw [if_neg (ReadBuffer.stat_pos (by omega) hshort)] at hpc
  have hstep : s1.step D (.thread true) = some { s1 with pc := .fetching } := by
    simp only [Transport.step, threadStep, hpc]
    rw [decodeRound_waits hhead hbytes (by omega) (by omega)]
  refine ⟨{ s1 with pc := .fetching }, ?_, rfl, hcount, hsz, hbytes, hhanded, hqueued⟩
  rw [show List.replicate 3 (TransportOp.thread true) =
    [.thread true, .thread true] ++ [.thread true] from rfl, Machine.exec_append, h1]
  show (s1.step D (.thread true)).bind _ = _
  rw [hstep]
  rfl

/-- The buffer is doubled up to half the length of the packet. -/
theorem Filled.rounds (htotal : 2 ^ 31 ≤ total.length)
    (hhead : readProtocolU32 (fun i => total.getD i 0) 1 = 2 ^ 32 - 1) (k : Nat) (hk : k ≤ 9) :
    ∀ {s : Transport δ}, Filled total (2 ^ 22) (2 ^ 22) s →
    ∃ s', (transportMachine D d memory).exec s (List.replicate (3 * k) (.thread true)) = some s' ∧
      Filled total (2 ^ (22 + k)) (2 ^ (22 + k)) s' := by
  induction k with
  | zero => exact fun {s} h => ⟨s, rfl, h⟩
  | succ k ih =>
    intro s h
    obtain ⟨s1, h1, hf⟩ := ih (by omega) h
    have hpow : 2 ^ (22 + (k + 1)) = 2 * 2 ^ (22 + k) := by rw [← Nat.add_assoc, Nat.pow_succ]; omega
    have hle : 2 ^ (22 + k) ≤ 2 ^ 30 := Nat.pow_le_pow_right (by omega) (by omega)
    have hge : 2 ^ 22 ≤ 2 ^ (22 + k) := Nat.pow_le_pow_right (by omega) (by omega)
    obtain ⟨s2, h2, hf2⟩ := hf.round memory (D := D) (d := d) (Nat.le_refl _)
      (hpow.trans (if_pos rfl).symm) (by omega) (by omega) (by omega) (by omega) hhead
    refine ⟨s2, ?_, hf2⟩
    rw [Nat.mul_succ, List.replicate_add, Machine.exec_append, h1]
    exact h2

/-- A packet of almost `2 ^ 32` bytes and what follows it, in one buffer: the read that fills the
buffer of `2 ^ 32` bytes returns `2 ^ 31` bytes, a negative `int`, and the thread leaves its loop. -/
theorem truncated_read {b : Buffer} (hb : b.data = total) (htotal : 2 ^ 32 ≤ total.length)
    (hhead : readProtocolU32 (fun i => total.getD i 0) 1 = 2 ^ 32 - 1) :
    ∃ s, (transportMachine D d memory).exec (transportMachine D d memory).init
      (.post_data b :: List.replicate 32 (.thread true)) = some s ∧
      s.pc = .finished ∧ s.queued = total ∧ s.handed = [] := by
  obtain ⟨s0, h0, hf0⟩ : ∃ s0, (transportMachine D d memory).step (transportMachine D d memory).init
      (.post_data b) = some s0 ∧ Filled total 0 (2 ^ 22) s0 := by
    cases hp : RequestStream.new.post_data b with
    | none =>
      have hfull := (BufferQueue.push_none (Option.map_eq_none_iff.mp hp)).1
      cases hfull
    | some r =>
      obtain ⟨res, st⟩ := r
      rcases post_data_cases hp with ⟨hclosed, -⟩ | ⟨-, -, hav, rfl⟩
      · cases hclosed
      · refine ⟨{ (transportMachine D d memory).init with m_stream := st, queued := b.data },
          ?_, rfl, rfl, rfl, hav.trans hb, rfl, hb⟩
        simp only [transportMachine, Transport.step, hp]
        rfl
  obtain ⟨s1, h1, hf1⟩ := hf0.round memory (D := D) (d := d) (g := 2 ^ 22) (by omega)
    (by rw [if_neg (by omega)]) (by omega) (by omega) (by omega) (by omega) hhead
  obtain ⟨s2, h2, hf2⟩ := Filled.rounds memory (D := D) (d := d) (by omega) hhead 9
    (Nat.le_refl _) hf1
  rw [show 22 + 9 = 31 from rfl] at hf2
  obtain ⟨s3, h3, hpc, -, -, -, hhanded, hqueued⟩ := hf2.getData memory (D := D) (d := d)
    (g := 2 ^ 32) (Nat.le_refl _) (by omega) (by omega) (by rw [if_pos rfl, ← Nat.pow_succ']) htotal
  rw [show 2 ^ 32 - 2 ^ 31 = 2 ^ 31 by omega, if_pos ReadBuffer.stat_half] at hpc
  have hsteps : (transportMachine D d memory).exec s0 (List.replicate 3 (.thread true) ++
      (List.replicate (3 * 9) (.thread true) ++ [.thread true, .thread true])) = some s3 := by
    rw [Machine.exec_append, h1, Option.bind_some, Machine.exec_append, h2, Option.bind_some, h3]
  refine ⟨s3, ?_, hpc, hqueued, hhanded⟩
  rw [Machine.exec, h0, Option.bind_some]
  exact hsteps

end Truncation

/-- The longest packet there can be, followed by the shortest. -/
def hugePacket : List UInt8 := [1, 0, 0, 0, 255, 255, 255, 255] ++ List.replicate (2 ^ 32 - 9) 0

def hugeStream : List (List UInt8) := [hugePacket, [2, 0, 0, 0, 8, 0, 0, 0]]

theorem hugePacket_length : hugePacket.length = 2 ^ 32 - 1 := by
  rw [hugePacket, List.length_append, List.length_replicate]
  rfl

/-- The header of a packet is in its first eight bytes. -/
theorem header_append {p q : List UInt8} (h : 8 ≤ p.length) :
    readProtocolU32 (fun i => (p ++ q).getD i 0) 1 = readProtocolU32 (fun i => p.getD i 0) 1 := by
  refine readProtocolU32_congr (n := 8) (fun i hi => ?_) (by omega)
  rw [List.getD_eq_getElem?_getD, List.getElem?_append_left (by omega), ← List.getD_eq_getElem?_getD]

theorem hugePacket_header : readProtocolU32 (fun i => hugePacket.getD i 0) 1 = 2 ^ 32 - 1 :=
  header_append (p := [1, 0, 0, 0, 255, 255, 255, 255]) (by decide)

theorem packet_lost : (∀ p ∈ hugeStream, WellFormed p ∧ glOnly.Accepts p) ∧
    ∃ s, (transportMachine glOnly () fun _ => 0).exec (transportMachine glOnly () fun _ => 0).init
      (.post_data (SmallVector.ofRange hugeStream.flatten) :: List.replicate 32 (.thread true)) =
        some s ∧
      s.Quiet ∧ s.queued = hugeStream.flatten ∧ s.handed = [] ∧ s.handed ≠ hugeStream := by
  have hflat : hugeStream.flatten = hugePacket ++ [2, 0, 0, 0, 8, 0, 0, 0] := by
    simp [hugeStream]
  have hlen : hugeStream.flatten.length = 2 ^ 32 + 7 := by
    rw [hflat, List.length_append, hugePacket_length]
    rfl
  have hwf : ∀ p ∈ hugeStream, WellFormed p := by
    intro p hp
    rcases List.mem_cons.mp hp with rfl | hp
    · exact ⟨by rw [hugePacket_length]; omega, hugePacket_header.trans hugePacket_length.symm⟩
    · rw [List.mem_singleton.mp hp]
      unfold WellFormed
      decide
  refine ⟨fun p hp => ⟨hwf p hp, glOnly_accepts (hwf p hp)⟩, ?_⟩
  obtain ⟨s, hs, hpc, hqueued, hhanded⟩ := truncated_read (D := glOnly) (d := ())
    (fun _ => 0) (SmallVector.ofRange_data hugeStream.flatten) (by omega) (by
      rw [hflat, header_append (by rw [hugePacket_length]; omega), hugePacket_header])
  refine ⟨s, hs, Or.inl hpc, hqueued, hhanded, ?_⟩
  rw [hhanded]
  intro hnil
  cases hnil

end AnboxReboxed.Emugl
