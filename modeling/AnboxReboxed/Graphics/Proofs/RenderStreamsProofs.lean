import AnboxReboxed.Graphics.Proofs.BufferQueueProofs
import AnboxReboxed.Graphics.RenderStreams

/-!
# Proofs: reading a request stream

`read` delivers the oldest bytes that were posted and not delivered, as many as it wants or as there
are. It waits only when there are none and the queue is open, and returns null only when there are
none and the queue is closed.
-/

namespace AnboxReboxed.Graphics.RequestStream

open AnboxReboxed.Common BufferQueue

/-- The bytes posted and not delivered, oldest first. -/
def available (s : RequestStream) : List UInt8 := s.unread ++ s.in_queue_.contents.flatten

theorem unread_length (s : RequestStream) : s.unread.length = s.read_buffer_left_ := by
  have := s.left_le
  simp only [unread, SmallVector.size, List.length_drop] at *
  omega

theorem unread_eq_nil {s : RequestStream} (h : s.read_buffer_left_ = 0) : s.unread = [] :=
  List.length_eq_zero_iff.mp (s.unread_length.trans h)

theorem available_refill (q : BufferQueue) (b : Buffer) :
    (refill q b).available = b.data ++ q.contents.flatten := by
  simp [available, unread, refill, SmallVector.size]

/-- A pop makes the head of the queue the read buffer: the same bytes are available. -/
theorem available_pop {s : RequestStream} {q : BufferQueue} {b : Buffer}
    (h0 : s.read_buffer_left_ = 0) (h : s.in_queue_.contents = b.data :: q.contents) :
    (refill q b).available = s.available := by
  rw [available_refill, available, unread_eq_nil h0, h]
  rfl

/-- What the loop of `read` does with `total`, the bytes it has copied and the available ones, and a
queue of `count` buffers that is closed or not. -/
def ReadSpec (total : List UInt8) (closed : Bool) (count wanted : Nat) :
    ReadResult × RequestStream → Prop
  | (.blocked, s') => total = [] ∧ closed = false ∧ s'.available = [] ∧ s'.in_queue_.closed_ = false ∧
      s'.in_queue_.count_ = 0 ∧ s'.in_queue_.count_ ≤ count ∧ s'.read_buffer_left_ = 0
  | (.null, s') => total = [] ∧ closed = true ∧ s'.available = [] ∧ s'.in_queue_.closed_ = true ∧
      s'.in_queue_.count_ ≤ count
  | (.bytes data, s') => total = data ++ s'.available ∧ data.length ≤ wanted ∧
      (data.length = wanted ∨ data ≠ [] ∧ s'.available = []) ∧ s'.in_queue_.closed_ = closed ∧
      s'.in_queue_.count_ ≤ count

theorem ReadSpec.mono {total : List UInt8} {closed : Bool} {count count' wanted : Nat}
    {r : ReadResult × RequestStream} (h : ReadSpec total closed count wanted r) (hle : count ≤ count') :
    ReadSpec total closed count' wanted r := by
  obtain ⟨result, s'⟩ := r
  cases result with
  | blocked => exact ⟨h.1, h.2.1, h.2.2.1, h.2.2.2.1, h.2.2.2.2.1, h.2.2.2.2.2.1.trans hle, h.2.2.2.2.2.2⟩
  | null => exact ⟨h.1, h.2.1, h.2.2.1, h.2.2.2.1, h.2.2.2.2.trans hle⟩
  | bytes data => exact ⟨h.1, h.2.1, h.2.2.1, h.2.2.2.1, h.2.2.2.2.trans hle⟩

theorem readLoop_spec (s : RequestStream) (wanted : Nat) (dst : List UInt8) (hd : dst.length ≤ wanted) :
    ReadSpec (dst ++ s.available) s.in_queue_.closed_ s.in_queue_.count_ wanted (s.readLoop wanted dst) := by
  fun_induction readLoop s wanted dst with
  | case1 s dst hw hl avail ih =>
    -- bytes move from the read buffer to the destination
    have hmove : dst ++ s.unread.take avail ++ available
        { s with
          read_buffer_left_ := s.read_buffer_left_ - avail
          left_le := Nat.le_trans (Nat.sub_le _ _) s.left_le } = dst ++ s.available := by
      have hle := s.left_le
      have hrest : s.unread.drop avail = s.read_buffer_.data.drop
          (s.read_buffer_.size - (s.read_buffer_left_ - avail)) := by
        rw [unread, List.drop_drop]
        congr 1
        omega
      rw [available, available, List.append_assoc, ← List.append_assoc (s.unread.take avail)]
      show dst ++ (s.unread.take avail ++ s.read_buffer_.data.drop _ ++ _) = _
      rw [← hrest, List.take_append_drop]
    rw [hmove] at ih
    refine ih ?_
    rw [List.length_append, List.length_take, unread_length]
    omega
  | case2 s dst hw hl h0 hpop =>
    obtain ⟨hnil, hopen⟩ := pop_none hpop
    have hleft : s.read_buffer_left_ = 0 := Nat.eq_zero_of_not_pos hl
    have hav : s.available = [] := by rw [available, unread_eq_nil hleft, hnil]; rfl
    rw [List.length_eq_zero_iff.mp h0, hav]
    exact ⟨rfl, hopen, hav, hopen, contents_eq_nil.mp hnil, Nat.le_refl _, hleft⟩
  | case3 s dst hw hl h0 q b hpop ih =>
    rcases pop_cases hpop with ⟨-, -, -, -, hne⟩ | ⟨hcon, hcl, -⟩
    · cases hne
    · rw [available_pop (Nat.eq_zero_of_not_pos hl) hcon] at ih
      exact (hcl ▸ ih hd).mono (Nat.le_of_lt (count_pop_locked hpop))
  | case4 s dst hw hl h0 res q b hres hpop =>
    rcases pop_cases hpop with ⟨hnil, hclosed, -⟩ | ⟨-, -, hok⟩
    · have hav : s.available = [] := by
        rw [available, unread_eq_nil (Nat.eq_zero_of_not_pos hl), hnil]
        rfl
      rw [List.length_eq_zero_iff.mp h0, hav]
      exact ⟨rfl, hclosed, hav, hclosed, Nat.le_refl _⟩
    · exact absurd hok hres
  | case5 s dst hw hl h0 q b hpop ih =>
    have hne : s.in_queue_.count_ ≠ 0 := Nat.ne_of_gt (Nat.zero_lt_of_lt (count_try_pop_locked hpop))
    obtain ⟨q1, b1, he, hcon, hcl, -⟩ := try_pop_ok s.read_buffer_ hne
    obtain ⟨rfl, rfl⟩ := Prod.mk.inj (Prod.mk.inj (hpop.symm.trans he)).2
    rw [available_pop (Nat.eq_zero_of_not_pos hl) hcon] at ih
    exact (hcl ▸ ih hd).mono (Nat.le_of_lt (count_try_pop_locked hpop))
  | case6 s dst hw hl h0 res q b hres hpop =>
    have hnil : s.in_queue_.contents = [] := by
      by_contra hne
      obtain ⟨q1, b1, he, -⟩ := try_pop_ok s.read_buffer_ (fun h => hne (contents_eq_nil.mpr h))
      exact hres (Prod.mk.inj (hpop.symm.trans he)).1
    have hav : s.available = [] := by
      rw [available, unread_eq_nil (Nat.eq_zero_of_not_pos hl), hnil]
      rfl
    exact ⟨rfl, hd, Or.inr ⟨fun h => h0 (h ▸ rfl), hav⟩, rfl, Nat.le_refl _⟩
  | case7 s dst hw => exact ⟨rfl, hd, Or.inl (by omega), rfl, Nat.le_refl _⟩

theorem read_spec (s : RequestStream) (wanted : Nat) :
    ReadSpec s.available s.in_queue_.closed_ s.in_queue_.count_ wanted (s.read wanted) :=
  readLoop_spec s wanted [] (Nat.zero_le _)

/-- What a post can do: be refused by a closed queue, or add its bytes at the end. -/
theorem post_data_cases {s s' : RequestStream} {data : Buffer} {res : QueueResult}
    (h : s.post_data data = some (res, s')) :
    (s.in_queue_.closed_ = true ∧ s' = s ∧ res = .eio) ∨
    (s.in_queue_.closed_ = false ∧ s'.in_queue_.closed_ = false ∧
      s'.available = s.available ++ data.data ∧ res = .ok) := by
  obtain ⟨⟨res1, q, b⟩, hpush, he⟩ := Option.map_eq_some_iff.mp h
  cases he
  rcases push_cases hpush with ⟨hc, rfl, -, rfl⟩ | ⟨ho, ho', hcon, rfl⟩
  · exact Or.inl ⟨hc, rfl, rfl⟩
  · refine Or.inr ⟨ho, ho', ?_, rfl⟩
    show s.unread ++ q.contents.flatten = s.unread ++ s.in_queue_.contents.flatten ++ data.data
    rw [hcon]
    simp

end AnboxReboxed.Graphics.RequestStream

/-!
## Proofs: the response stream keeps its order

Every committed byte is accepted, in the writer's hands or queued, in this order, until a write fails
for good: then the rest of that buffer is lost, and whatever the socket accepts afterwards follows a
hole.
-/

namespace AnboxReboxed.Graphics

open AnboxReboxed.Lib AnboxReboxed.Common BufferQueue

namespace ResponseStream

/-- The bytes of the buffer in the writer's hands that the socket has not accepted. -/
def inFlight (s : ResponseStream) : List UInt8 :=
  match s.pc with
  | .sending buffer bytes_left => buffer.drop (buffer.length - bytes_left)
  | _ => []

/-- What the writer still has to send. -/
def pending (s : ResponseStream) : List UInt8 := s.inFlight ++ s.out_queue_.contents.flatten

/-- The socket has accepted a prefix of what was committed; as long as no write has failed, what is
left to send comes next, and while the queue is open nothing is missing at the end. -/
structure InOrder (s : ResponseStream) : Prop where
  accepted : s.accepted <+: s.committed
  pending : s.failed = false → s.accepted ++ s.pending <+: s.committed
  complete : s.failed = false → s.out_queue_.closed_ = false → s.accepted ++ s.pending = s.committed
  left_le : ∀ buffer bytes_left, s.pc = .sending buffer bytes_left → bytes_left ≤ buffer.length

/-- Nothing is accepted after a write has failed for good. -/
def SilentAfterFailure (s : ResponseStream) (op : ResponseOp) : Prop :=
  s.failed = true → ∀ n, op = .send_raw (.written n) → n = 0

variable {s s' : ResponseStream}

/-- A committed buffer enters the queue, or is dropped by a closed one. -/
theorem InOrder.commit {q : BufferQueue} {b b' w : Buffer} {res : QueueResult} {bytes : List UInt8}
    (h : s.InOrder) (hb : b.data = bytes) (hpush : s.out_queue_.push_locked b = some (res, q, b')) :
    InOrder { s with out_queue_ := q, write_buffer_ := w, committed := s.committed ++ bytes } := by
  have hgrow : s.committed <+: s.committed ++ bytes := List.prefix_append _ _
  rcases push_cases hpush with ⟨hclosed, rfl, -, -⟩ | ⟨hopen, -, hcon, -⟩
  · refine ⟨h.accepted.trans hgrow, fun hf => (h.pending hf).trans hgrow, fun _ ho => ?_, h.left_le⟩
    rw [show s.out_queue_.closed_ = true from hclosed] at ho
    cases ho
  · have hall : s.failed = false → s.accepted ++ (s.inFlight ++ q.contents.flatten) =
        s.committed ++ bytes := by
      intro hf
      rw [← h.complete hf hopen, hcon, List.flatten_append, hb]
      simp [ResponseStream.pending]
    refine ⟨h.accepted.trans hgrow, fun hf => ?_, fun hf _ => hall hf, h.left_le⟩
    show s.accepted ++ (s.inFlight ++ q.contents.flatten) <+: s.committed ++ bytes
    exact hall hf ▸ List.prefix_rfl

theorem inOrder_commitBuffer {size : Nat} (h : s.InOrder) (hs : s.commitBuffer size = some s') :
    s'.InOrder := by
  unfold commitBuffer at hs
  split_ifs at hs with hsize halloc
  · obtain ⟨⟨res, q, b⟩, hpush, rfl⟩ := Option.map_eq_some_iff.mp hs
    exact h.commit (SmallVector.resize_data hsize) hpush
  · obtain ⟨⟨res, q, b⟩, hpush, rfl⟩ := Option.map_eq_some_iff.mp hs
    exact h.commit (w := s.write_buffer_) (SmallVector.ofRange_data _) hpush

/-- A buffer just taken is in flight as a whole. -/
theorem inFlight_taken (s : ResponseStream) (b : Buffer) :
    inFlight { s with pc := if b.size = 0 then .popping else .sending b.data b.size } = b.data := by
  by_cases h0 : b.size = 0
  · rw [if_pos h0]
    exact (List.length_eq_zero_iff.mp h0).symm
  · rw [if_neg h0]
    show b.data.drop (b.data.length - b.data.length) = b.data
    rw [Nat.sub_self, List.drop_zero]

/-- The writer takes a buffer from the queue: the bytes left to send are the same. -/
theorem inOrder_pop (h : s.InOrder) (hs : s.pop = some s') : s'.InOrder := by
  unfold pop at hs
  split at hs
  · rename_i hpc
    obtain ⟨⟨res, q, b⟩, hpop, hs'⟩ := Option.map_eq_some_iff.mp hs
    have hidle : s.inFlight = [] := by simp [inFlight, hpc]
    rcases pop_cases hpop with ⟨hnil, -, rfl, -, rfl⟩ | ⟨hcon, hcl, rfl⟩
    · subst hs'
      have hp : ResponseStream.pending { s with pc := .stopped } = s.pending := by
        simp [ResponseStream.pending, inFlight, hpc]
      exact ⟨h.accepted, fun hf => by rw [hp]; exact h.pending hf,
        fun hf ho => by rw [hp]; exact h.complete hf ho, fun _ _ h' => by cases h'⟩
    · subst hs'
      have hp : ResponseStream.pending { s with
          out_queue_ := q
          pc := if b.size = 0 then .popping else .sending b.data b.size } = s.pending := by
        show inFlight { s with pc := if b.size = 0 then .popping else .sending b.data b.size } ++ _ = _
        unfold ResponseStream.pending
        rw [inFlight_taken, hidle, hcon]
        rfl
      refine ⟨h.accepted, fun hf => by rw [hp]; exact h.pending hf,
        fun hf ho => by rw [hp]; exact h.complete hf (hcl ▸ ho), fun buffer left hpc' => ?_⟩
      dsimp only at hpc'
      split_ifs at hpc'
      cases hpc'
      exact Nat.le_refl _
  · cases hs

/-- The bytes in flight after `n` of them were accepted. -/
theorem inFlight_written {buffer : List UInt8} {bytes_left n : Nat} (s : ResponseStream)
    (hle : bytes_left ≤ buffer.length) (hn : n ≤ bytes_left) :
    inFlight { s with
        pc := if bytes_left - n = 0 then .popping else .sending buffer (bytes_left - n) } =
      (buffer.drop (buffer.length - bytes_left)).drop n := by
  rw [List.drop_drop]
  by_cases h0 : bytes_left - n = 0
  · rw [if_pos h0, List.drop_eq_nil_of_le (by omega)]
    rfl
  · rw [if_neg h0]
    show buffer.drop (buffer.length - (bytes_left - n)) = _
    congr 1
    omega

/-- Accepted bytes move from what is pending to what is accepted. -/
theorem inOrder_written {buffer : List UInt8} {bytes_left n : Nat} (h : s.InOrder)
    (hpc : s.pc = .sending buffer bytes_left) (hn : n ≤ bytes_left)
    (hsilent : s.failed = true → n = 0) :
    InOrder { s with
      pc := if bytes_left - n = 0 then .popping else .sending buffer (bytes_left - n)
      accepted := s.accepted ++ (buffer.drop (buffer.length - bytes_left)).take n } := by
  have hle : bytes_left ≤ buffer.length := h.left_le _ _ hpc
  have hflight : s.inFlight = buffer.drop (buffer.length - bytes_left) := by simp [inFlight, hpc]
  have hmove : (s.accepted ++ (buffer.drop (buffer.length - bytes_left)).take n) ++
      (inFlight { s with
        pc := if bytes_left - n = 0 then .popping else .sending buffer (bytes_left - n) } ++
        s.out_queue_.contents.flatten) = s.accepted ++ s.pending := by
    rw [inFlight_written s hle hn, ← hflight, List.append_assoc,
      ← List.append_assoc (s.inFlight.take n), List.take_append_drop]
    rfl
  refine ⟨?_, fun hf => ?_, fun hf ho => ?_, fun buffer' left' hpc' => ?_⟩
  · show s.accepted ++ (buffer.drop (buffer.length - bytes_left)).take n <+: s.committed
    cases hf : s.failed with
    | false => exact (List.prefix_append _ _).trans (hmove ▸ h.pending hf)
    | true =>
      rw [hsilent hf, List.take_zero, List.append_nil]
      exact h.accepted
  · exact hmove.symm ▸ h.pending hf
  · exact hmove.trans (h.complete hf ho)
  · dsimp only at hpc'
    split_ifs at hpc'
    cases hpc'
    omega

theorem inOrder_send_raw {result : SendResult} (h : s.InOrder)
    (hsilent : s.SilentAfterFailure (.send_raw result)) (hs : s.send_raw result = some s') :
    s'.InOrder := by
  unfold send_raw at hs
  split at hs
  · rename_i buffer bytes_left hpc
    cases result with
    | busy => exact Option.some.inj hs ▸ h
    | fatal =>
      rw [← Option.some.inj hs]
      refine ⟨h.accepted, fun hf => ?_, fun hf => ?_, fun _ _ hpc' => ?_⟩
      · cases hf
      · cases hf
      · cases hpc'
    | written n =>
      dsimp only at hs
      by_cases hn : n ≤ bytes_left
      · rw [if_pos hn] at hs
        rw [← Option.some.inj hs]
        exact inOrder_written h hpc hn fun hf => hsilent hf n rfl
      · rw [if_neg hn] at hs
        cases hs
  · cases hs

theorem inOrder_step {op : ResponseOp} (h : s.InOrder) (hsilent : s.SilentAfterFailure op)
    (hs : s.step op = some s') : s'.InOrder := by
  cases op with
  | allocBuffer min_size memory =>
    simp only [step] at hs
    split_ifs at hs
    rw [← Option.some.inj hs]
    unfold allocBuffer
    split_ifs
    · exact ⟨h.accepted, h.pending, h.complete, h.left_le⟩
    · exact h
  | store i b =>
    rw [← Option.some.inj hs]
    exact ⟨h.accepted, h.pending, h.complete, h.left_le⟩
  | commitBuffer size =>
    simp only [step] at hs
    split_ifs at hs
    exact inOrder_commitBuffer h hs
  | forceStop =>
    rw [← Option.some.inj hs]
    refine ⟨h.accepted, h.pending, fun _ ho => ?_, h.left_le⟩
    cases ho
  | pop => exact inOrder_pop h hs
  | send_raw result => exact inOrder_send_raw h hsilent hs

theorem inOrder_new (buffer_size : Nat) (memory : Nat → UInt8) : InOrder (.new buffer_size memory) := by
  have hnil : ResponseStream.pending (.new buffer_size memory) = [] := rfl
  refine ⟨List.prefix_rfl, fun _ => ?_, fun _ _ => ?_, fun _ _ h' => by cases h'⟩
  · rw [hnil]
    exact List.prefix_rfl
  · rw [hnil]
    rfl

end ResponseStream

open ResponseStream

/-- While nothing is accepted after a fatal error, the accepted bytes are at every moment a prefix of
the committed ones. -/
theorem accepted_prefix_committed (buffer_size : Nat) (memory : Nat → UInt8) (ops : List ResponseOp)
    (hsilent : (responseMachine buffer_size memory).AllSteps SilentAfterFailure
      (responseMachine buffer_size memory).init ops) :
    (responseMachine buffer_size memory).AllStates (fun s => s.accepted <+: s.committed)
      (responseMachine buffer_size memory).init ops :=
  Machine.allStates_of_allSteps (P := InOrder) (fun _ _ _ h hC hs => inOrder_step h hC hs)
    (fun _ h => h.accepted) (inOrder_new buffer_size memory) hsilent

/-- A short write, a busy socket, the rest of the buffer, and a fatal error on the next one. -/
def shortWrites : List ResponseOp :=
  [.allocBuffer 2 fun _ => 0, .store 0 1, .store 1 2, .commitBuffer 2, .pop, .send_raw (.written 1),
    .send_raw .busy, .send_raw (.written 1), .store 0 3, .commitBuffer 1, .pop, .send_raw .fatal]

theorem accepted_prefix_committed_shortWrites :
    (responseMachine 2 fun _ => 0).AllStates (fun s => s.accepted <+: s.committed)
      (responseMachine 2 fun _ => 0).init shortWrites := by
  refine accepted_prefix_committed 2 (fun _ => 0) shortWrites ?_
  have hquiet : ∀ (s : ResponseStream) (op : ResponseOp), s.failed = false → s.SilentAfterFailure op :=
    fun s op hf hfail => by simp [hf] at hfail
  iterate 12 refine (Machine.allSteps_cons rfl).mpr ⟨hquiet _ _ rfl, ?_⟩
  trivial

/-- A buffer is partly accepted, a fatal error drops the rest, and the next buffer follows. -/
def holedStream : List ResponseOp :=
  [.store 0 1, .store 1 2, .commitBuffer 2, .store 0 3, .commitBuffer 1, .pop, .send_raw (.written 1),
    .send_raw .fatal, .pop, .send_raw (.written 1)]

theorem response_stream_holed :
    ∃ s, (responseMachine 2 fun _ => 0).exec (responseMachine 2 fun _ => 0).init holedStream =
      some s ∧ s.committed = [1, 2, 3] ∧ s.accepted = [1, 3] ∧ ¬ s.accepted <+: s.committed := by
  refine ⟨_, rfl, rfl, rfl, ?_⟩
  show ¬ [1, 3] <+: ([1, 2, 3] : List UInt8)
  decide

end AnboxReboxed.Graphics
