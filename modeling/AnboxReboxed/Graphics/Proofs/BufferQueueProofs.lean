import AnboxReboxed.Graphics.BufferQueue
import AnboxReboxed.Lib.Fifo

/-!
# Proofs: a buffer queue is a queue

The bytes of the queued buffers, in order. Pushing appends, popping removes the head, and closing
changes nothing but the flag.
-/

namespace AnboxReboxed.Common.SmallVector

/-- Moving a vector moves its elements, whether it lives on the heap or in place. -/
theorem moveAssign_data (this other : SmallVector) : (this.moveAssign other).1.data = other.data := by
  unfold moveAssign
  split_ifs <;> rfl

theorem ofRange_data (bytes : List UInt8) : (ofRange bytes).data = bytes := by
  unfold ofRange
  split_ifs <;> rfl

theorem resize_data {v : SmallVector} {n : Nat} (h : n ≤ v.size) : (v.resize n).data = v.data.take n := by
  unfold resize resize_impl
  have hs : v.data.length ≤ v.capacity := v.size_le
  by_cases hn : n < v.size
  · rw [if_pos hn]
  · have he : n = v.data.length := Nat.le_antisymm h (Nat.not_lt.mp hn)
    have hc : ¬ v.capacity < n := by omega
    rw [if_neg hn, dif_neg hc]
    simp [size, he]

end AnboxReboxed.Common.SmallVector

namespace AnboxReboxed.Graphics.BufferQueue

open AnboxReboxed.Lib AnboxReboxed.Common

/-- The bytes of the queued buffers, from the head on. -/
def contents (q : BufferQueue) : List (List UInt8) :=
  (ringView q.buffers_ q.capacity_ q.pos_ q.count_).map SmallVector.data

theorem contents_length (q : BufferQueue) : q.contents.length = q.count_ := by simp [contents]

theorem contents_eq_nil {q : BufferQueue} : q.contents = [] ↔ q.count_ = 0 := by
  rw [← contents_length, List.length_eq_zero_iff]

/-- What a push can do: refuse the buffer and change nothing, or append its bytes. -/
theorem push_cases {q q' : BufferQueue} {b b' : Buffer} {res : QueueResult}
    (h : q.push_locked b = some (res, q', b')) :
    (q.closed_ = true ∧ q' = q ∧ b' = b ∧ res = .eio) ∨
    (q.closed_ = false ∧ q'.closed_ = false ∧ q'.contents = q.contents ++ [b.data] ∧ res = .ok) := by
  unfold push_locked at h
  split_ifs at h with hfull hclosed
  · obtain ⟨rfl, rfl, rfl⟩ := Prod.mk.inj (Option.some.inj h) |>.imp id Prod.mk.inj
    exact Or.inl ⟨hclosed, rfl, rfl, rfl⟩
  · have h' := Option.some.inj h
    unfold try_push_locked at h'
    split_ifs at h' with hc hf
    · cases h'
      exact Or.inl ⟨hc, rfl, rfl, rfl⟩
    · exact absurd (Nat.le_antisymm q.count_le hf) hfull
    · cases h'
      have hc' : q.closed_ = false := Bool.not_eq_true _ ▸ hc
      refine Or.inr ⟨hc', hc', ?_, rfl⟩
      unfold contents
      dsimp only
      rw [ringView_push (Nat.not_le.mp hf), List.map_append, List.map_singleton,
        SmallVector.moveAssign_data]

/-- A push waits only for room in an open queue. -/
theorem push_none {q : BufferQueue} {b : Buffer} (h : q.push_locked b = none) :
    q.count_ = q.capacity_ ∧ q.closed_ = false := by
  unfold push_locked at h
  split_ifs at h with hfull hclosed
  exact ⟨hfull, Bool.not_eq_true _ ▸ hclosed⟩

/-- A pop from a queue that is not empty takes its head. -/
theorem try_pop_ok {q : BufferQueue} (b : Buffer) (h : q.count_ ≠ 0) : ∃ q' b',
    q.try_pop_locked b = (.ok, q', b') ∧ q.contents = b'.data :: q'.contents ∧
      q'.closed_ = q.closed_ ∧ q'.count_ + 1 = q.count_ := by
  obtain ⟨n, hn⟩ := Nat.exists_eq_succ_of_ne_zero h
  have hle : n + 1 ≤ q.capacity_ := by have := q.count_le; omega
  unfold try_pop_locked
  rw [dif_neg h]
  refine ⟨_, _, rfl, ?_, rfl, by dsimp only; omega⟩
  unfold contents
  dsimp only
  rw [hn, ringView_pop q.pos_lt hle, List.map_cons, SmallVector.moveAssign_data]
  congr 1
  rw [Nat.succ_sub_one, ringView_update_of_ne]
  -- the freed slot is the one before the new head
  intro i hi
  have hp := q.pos_lt
  unfold wrapIndex
  split_ifs <;> omega

theorem pop_cases {q q' : BufferQueue} {b b' : Buffer} {res : QueueResult}
    (h : q.pop_locked b = some (res, q', b')) :
    (q.contents = [] ∧ q.closed_ = true ∧ q' = q ∧ b' = b ∧ res = .eio) ∨
    (q.contents = b'.data :: q'.contents ∧ q'.closed_ = q.closed_ ∧ res = .ok) := by
  unfold pop_locked at h
  split_ifs at h with h0 hclosed
  · cases h
    exact Or.inl ⟨contents_eq_nil.mpr h0, hclosed, rfl, rfl, rfl⟩
  · obtain ⟨q1, b1, he, hcon, hcl, -⟩ := try_pop_ok b h0
    rw [he] at h
    cases h
    exact Or.inr ⟨hcon, hcl, rfl⟩

theorem pop_none {q : BufferQueue} {b : Buffer} (h : q.pop_locked b = none) :
    q.contents = [] ∧ q.closed_ = false := by
  unfold pop_locked at h
  split_ifs at h with h0 hclosed
  exact ⟨contents_eq_nil.mpr h0, Bool.not_eq_true _ ▸ hclosed⟩

/-! ## Counts -/

theorem capacity_try_push (q : BufferQueue) (b : Buffer) : (q.try_push_locked b).2.1.capacity_ = q.capacity_ := by
  unfold try_push_locked
  split_ifs <;> rfl

theorem capacity_try_pop (q : BufferQueue) (b : Buffer) : (q.try_pop_locked b).2.1.capacity_ = q.capacity_ := by
  unfold try_pop_locked
  split_ifs <;> rfl

/-- What a push that returns does to the numbers. -/
theorem push_counts {q q' : BufferQueue} {b b' : Buffer} {res : QueueResult}
    (h : q.push_locked b = some (res, q', b')) :
    (q.closed_ = true ∧ q' = q ∧ res = .eio) ∨
    (q.can_push_locked = true ∧ q'.count_ = q.count_ + 1 ∧ q'.capacity_ = q.capacity_ ∧
      q'.closed_ = false ∧ res = .ok) := by
  rcases push_cases h with ⟨hc, hq, -, hr⟩ | ⟨hc, hc', hcon, hr⟩
  · exact Or.inl ⟨hc, hq, hr⟩
  · right
    have hcount : q'.count_ = q.count_ + 1 := by
      rw [← contents_length, hcon, List.length_append, contents_length]
      rfl
    have hcap : q'.capacity_ = q.capacity_ := by
      unfold push_locked at h
      split_ifs at h with hfull hclosed
      · cases h
        rfl
      · have := capacity_try_push q b
        rw [Option.some.inj h] at this
        exact this
    refine ⟨?_, hcount, hcap, hc', hr⟩
    have hle := q'.count_le
    rw [hcount, hcap] at hle
    simp [can_push_locked, hc]
    omega

/-- What a pop that returns does to the numbers. -/
theorem pop_counts {q q' : BufferQueue} {b b' : Buffer} {res : QueueResult}
    (h : q.pop_locked b = some (res, q', b')) :
    (q.closed_ = true ∧ q' = q ∧ res = .eio) ∨
    (q.can_pop_locked = true ∧ q.count_ = q'.count_ + 1 ∧ q'.capacity_ = q.capacity_ ∧
      q'.closed_ = q.closed_ ∧ res = .ok) := by
  rcases pop_cases h with ⟨-, hc, hq, -, hr⟩ | ⟨hcon, hc, hr⟩
  · exact Or.inl ⟨hc, hq, hr⟩
  · right
    have hcount : q.count_ = q'.count_ + 1 := by
      rw [← contents_length, hcon, List.length_cons, contents_length]
    have hcap : q'.capacity_ = q.capacity_ := by
      unfold pop_locked at h
      split_ifs at h with h0 hclosed
      · cases h
        rfl
      · have := capacity_try_pop q b
        rw [Option.some.inj h] at this
        exact this
    refine ⟨?_, hcount, hcap, hc, hr⟩
    simp [can_pop_locked]
    omega

end AnboxReboxed.Graphics.BufferQueue

/-!
## Proofs: the ring refines a bounded queue

Seen through `contents` and `closed_`, every call is the call of the abstract queue with the same
answer. A call that fails returns the queue and the buffer as it got them.
-/

namespace AnboxReboxed.Graphics

open AnboxReboxed.Lib AnboxReboxed.Common

/-- The abstract queue a ring stands for. -/
def BufferQueue.fifo (q : BufferQueue) : Fifo (List UInt8) := { items := q.contents, closed := q.closed_ }

/-- What the abstract queue sees of a call. -/
def QueueCall.fifo : QueueCall → Fifo.Call (List UInt8)
  | .try_push_locked buffer => .push buffer.data
  | .try_pop_locked _ => .pop
  | .close_locked => .close

/-- What the abstract queue sees of the answer: a pop answers with what it left in the buffer. -/
def QueueRecord.answer (r : QueueRecord) : Fifo.Answer (List UInt8) :=
  match r.result, r.call with
  | .eio, _ => .ended
  | .eagain, _ => .refused
  | .ok, .try_pop_locked _ => .taken r.buffer.data
  | .ok, _ => .done

/-- The buffer a call is given. -/
def QueueCall.buffer : QueueCall → Buffer
  | .try_push_locked buffer => buffer
  | .try_pop_locked buffer => buffer
  | .close_locked => .empty

namespace BufferQueue

variable {q : BufferQueue}

/-- One call is one call of the abstract queue. -/
theorem call_refines (q : BufferQueue) (c : QueueCall) :
    ((q.call c).after.fifo, (q.call c).answer) = q.fifo.step q.capacity_ c.fifo := by
  cases c with
  | try_push_locked b =>
    simp only [call, try_push_locked, QueueCall.fifo, Fifo.step, fifo, contents_length]
    by_cases hc : q.closed_ = true
    · simp [hc, QueueRecord.answer]
    · by_cases hf : q.capacity_ ≤ q.count_
      · simp [hc, hf, QueueRecord.answer]
      · rw [if_neg hc, dif_neg hf, if_neg hc, if_neg hf]
        simp only [QueueRecord.answer, contents]
        rw [ringView_push (Nat.not_le.mp hf), List.map_append, List.map_singleton,
          SmallVector.moveAssign_data]
  | try_pop_locked b =>
    by_cases h0 : q.count_ = 0
    · have hnil := contents_eq_nil.mpr h0
      simp only [call, try_pop_locked, dif_pos h0, QueueCall.fifo, Fifo.step, fifo, hnil]
      cases q.closed_ <;> simp [QueueRecord.answer]
    · obtain ⟨q', b', he, hcon, hcl, -⟩ := try_pop_ok b h0
      simp only [call, he, QueueCall.fifo, Fifo.step, fifo, hcon, QueueRecord.answer, hcl]
  | close_locked => rfl

/-- The capacity is fixed. -/
theorem call_capacity (q : BufferQueue) (c : QueueCall) : (q.call c).after.capacity_ = q.capacity_ := by
  cases c with
  | try_push_locked b => exact capacity_try_push q b
  | try_pop_locked b => exact capacity_try_pop q b
  | close_locked => rfl

/-- A call that fails changes neither the queue nor the buffer. -/
theorem call_failed (q : BufferQueue) (c : QueueCall) (h : (q.call c).result ≠ .ok) :
    (q.call c).after = q ∧ (q.call c).buffer = c.buffer := by
  cases c with
  | try_push_locked b =>
    simp only [call, try_push_locked] at h ⊢
    split_ifs at h ⊢ with hc hf
    · exact ⟨rfl, rfl⟩
    · exact ⟨rfl, rfl⟩
    · exact absurd rfl h
  | try_pop_locked b =>
    simp only [call, try_pop_locked] at h ⊢
    split_ifs at h ⊢ with h0 hc
    · exact ⟨rfl, rfl⟩
    · exact ⟨rfl, rfl⟩
    · exact absurd rfl h
  | close_locked => exact absurd rfl h

theorem calls_refine (cs : List QueueCall) : ∀ q : BufferQueue,
    ((q.calls cs).1.fifo, (q.calls cs).2.map QueueRecord.answer) =
      q.fifo.run q.capacity_ (cs.map QueueCall.fifo) := by
  induction cs with
  | nil => exact fun q => rfl
  | cons c cs ih =>
    intro q
    have h1 := call_refines q c
    have h2 := ih (q.call c).after
    rw [call_capacity] at h2
    simp only [calls, List.map_cons, Fifo.run, ← h1, ← h2]

theorem calls_capacity (cs : List QueueCall) : ∀ q : BufferQueue,
    (q.calls cs).1.capacity_ = q.capacity_ := by
  induction cs with
  | nil => exact fun q => rfl
  | cons c cs ih => exact fun q => (ih _).trans (call_capacity q c)

theorem calls_failed (cs : List QueueCall) : ∀ (q : BufferQueue), ∀ r ∈ (q.calls cs).2,
    r.result ≠ .ok → r.after = r.before ∧ r.buffer = r.call.buffer := by
  induction cs with
  | nil =>
    intro q r hr
    cases hr
  | cons c cs ih =>
    intro q r hr hfail
    simp only [calls, List.mem_cons] at hr
    rcases hr with rfl | hr
    · have hb : (q.call c).before = q ∧ (q.call c).call = c := by cases c <;> exact ⟨rfl, rfl⟩
      rw [hb.1, hb.2]
      exact call_failed q c hfail
    · exact ih _ r hr hfail

theorem calls_append (cs ds : List QueueCall) : ∀ q : BufferQueue,
    (q.calls (cs ++ ds)).2 = (q.calls cs).2 ++ ((q.calls cs).1.calls ds).2 := by
  induction cs with
  | nil => exact fun q => rfl
  | cons c cs ih =>
    intro q
    simp only [List.cons_append, calls, ih]

theorem calls_length (cs : List QueueCall) : ∀ q : BufferQueue, (q.calls cs).2.length = cs.length := by
  induction cs with
  | nil => exact fun q => rfl
  | cons c cs ih =>
    intro q
    simp only [calls, List.length_cons, ih]

/-- What follows a `close_locked` drains the queue. -/
theorem calls_closed (pre post : List QueueCall) (q : BufferQueue) :
    ((q.calls (pre ++ .close_locked :: post)).2.drop (pre.length + 1)).map QueueRecord.answer =
      Fifo.drain (q.calls pre).1.contents (post.map QueueCall.fifo) := by
  rw [calls_append, ← List.drop_drop, ← calls_length pre q, List.drop_left]
  have href := congrArg Prod.snd (calls_refine post (q.calls pre).1.close_locked)
  exact href.trans (Fifo.run_closed _ _ rfl)

end BufferQueue

open BufferQueue

/-- **The queue is a bounded FIFO.** Every sequence of calls takes the ring through the states of the
abstract queue, with the same answers; what was pushed is popped once and in order; a call that fails
changes nothing; and after `close_locked` pushes fail while pops drain the queue. -/
theorem queue_refines_fifo (capacity : Nat) (h : 0 < capacity) (cs : List QueueCall) :
    let run := (BufferQueue.new capacity h).calls cs
    let abs := Fifo.run capacity {} (cs.map QueueCall.fifo)
    run.1.pos_ < capacity ∧ run.1.count_ ≤ capacity ∧ run.1.fifo = abs.1 ∧
    abs.1.items.length ≤ capacity ∧
    run.2.map QueueRecord.answer = abs.2 ∧
    Fifo.pushed (cs.map QueueCall.fifo) (run.2.map QueueRecord.answer) =
      Fifo.popped (run.2.map QueueRecord.answer) ++ run.1.contents ∧
    (∀ r ∈ run.2, r.result ≠ .ok → r.after = r.before ∧ r.buffer = r.call.buffer) ∧
    (∀ pre post, cs = pre ++ .close_locked :: post →
      (run.2.drop (pre.length + 1)).map QueueRecord.answer =
        Fifo.drain ((BufferQueue.new capacity h).calls pre).1.contents (post.map QueueCall.fifo)) := by
  intro run abs
  have hcap : run.1.capacity_ = capacity := calls_capacity cs _
  have href : (run.1.fifo, run.2.map QueueRecord.answer) = abs := calls_refine cs (BufferQueue.new capacity h)
  have hfifo : run.1.fifo = abs.1 := congrArg Prod.fst href
  have hans : run.2.map QueueRecord.answer = abs.2 := congrArg Prod.snd href
  refine ⟨hcap ▸ run.1.pos_lt, hcap ▸ run.1.count_le, hfifo,
    Fifo.run_length _ (Nat.zero_le _), hans, ?_, calls_failed cs _, ?_⟩
  · rw [hans]
    have hin := Fifo.run_inOrder capacity (cs.map QueueCall.fifo) {}
    rw [show run.1.contents = abs.1.items from congrArg Fifo.items hfifo]
    exact hin
  · rintro pre post rfl
    exact calls_closed pre post _

theorem queue_refines_fifo_wrapping :
    let cs : List QueueCall := [.try_push_locked (.ofRange [1]), .try_pop_locked .empty,
      .try_push_locked (.ofRange [2]), .try_push_locked (.ofRange [3]), .try_push_locked (.ofRange [4]),
      .close_locked, .try_pop_locked .empty]
    let run := (BufferQueue.new 2 (by decide)).calls cs
    run.1.contents = [[3]] ∧
      Fifo.pushed (cs.map QueueCall.fifo) (run.2.map QueueRecord.answer) =
        Fifo.popped (run.2.map QueueRecord.answer) ++ run.1.contents := by
  intro cs run
  refine ⟨?_, (queue_refines_fifo 2 (by decide) cs).2.2.2.2.2.1⟩
  decide

end AnboxReboxed.Graphics
