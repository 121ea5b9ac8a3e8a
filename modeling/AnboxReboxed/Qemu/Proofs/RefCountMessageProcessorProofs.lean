import AnboxReboxed.Lib.Proofs.OrdMapProofs
import AnboxReboxed.Qemu.RefCountMessageProcessor

/-!
# Proofs: refcount pipes own what they opened

A read leaves a pipe as it was, gives it its handle, or removes it; the first two keep the connection, and the
last one closes what the pipe had opened. The balance of every handle follows from these.
-/

namespace AnboxReboxed.Qemu

open AnboxReboxed.Lib AnboxReboxed.Network OrdMap

namespace RefCountMessageProcessor

variable {p : RefCountMessageProcessor}

theorem process_data_held {throws : Bool} {calls : List BackendCall} {data : Bytes} (h : p.color_buffer_ ≠ 0) :
    process_data throws (p, calls) data = (({ p with received := p.received ++ data }, calls), .refused) := if_pos h

/-- What a processor without a handle does with data. -/
theorem process_data_cases (throws : Bool) (calls : List BackendCall) (data : Bytes) (h : p.color_buffer_ = 0) :
    (process_data throws (p, calls) data =
        (({ p with received := p.received ++ data, pending_ := p.pending_ ++ data }, calls), .accepted)) ∨
    (∃ p', process_data throws (p, calls) data = ((p', calls), .refused) ∧ p'.color_buffer_ = 0) ∨
    ∃ handle result, handle ≠ 0 ∧ (p.pending_ ++ data).length = handle_size ∧
      handle = little_endian (p.pending_ ++ data) ∧
      result ≠ .refused ∧ process_data throws (p, calls) data =
        (({ p with received := p.received ++ data, pending_ := [], color_buffer_ := handle },
          calls ++ [.open_color_buffer p.serial (p.received ++ data) handle]), result) := by
  unfold process_data
  dsimp only
  rw [if_neg (not_not.mpr h)]
  by_cases hshort : (p.pending_ ++ data).length < handle_size
  · rw [if_pos hshort]
    exact Or.inl rfl
  · rw [if_neg hshort]
    by_cases hsize : (p.pending_ ++ data).length = handle_size
    · rw [if_neg (not_not.mpr hsize)]
      by_cases hzero : little_endian (p.pending_ ++ data) = 0
      · rw [if_pos hzero]
        exact Or.inr (Or.inl ⟨_, rfl, hzero⟩)
      · rw [if_neg hzero]
        refine Or.inr (Or.inr ⟨_, _, hzero, hsize, rfl, ?_, rfl⟩)
        cases throws <;> simp
    · rw [if_pos hsize]
      exact Or.inr (Or.inl ⟨_, rfl, h⟩)

end RefCountMessageProcessor

namespace RefCountPipes

variable {s s' : RefCountPipes} {id : Int} {c : RefCountConnection}

/-! ## What a read does -/

/-- What a read of the connection `c` makes of the pipes. -/
inductive ReadResult (s : RefCountPipes) (id : Int) (c : RefCountConnection) : RefCountPipes → Prop where
  /-- The handle is not complete. -/
  | waits {data : Bytes} {reading : Bool} (h : c.processor_.color_buffer_ = 0) :
      ReadResult s id c
        { s with
          connections := s.connections.insert id
            { processor_ :=
                { c.processor_ with
                  received := c.processor_.received ++ data
                  pending_ := c.processor_.pending_ ++ data }
              reading
              registered := true } }
  /-- The color buffer is opened. -/
  | opens {data : Bytes} {reading : Bool} {handle : UInt32} (h : c.processor_.color_buffer_ = 0) (hhandle : handle ≠ 0)
      (hsize : (c.processor_.pending_ ++ data).length = RefCountMessageProcessor.handle_size)
      (hvalue : handle = little_endian (c.processor_.pending_ ++ data)) :
      ReadResult s id c
        { s with
          connections := s.connections.insert id
            { processor_ :=
                { c.processor_ with
                  received := c.processor_.received ++ data
                  pending_ := []
                  color_buffer_ := handle }
              reading
              registered := true }
          calls := s.calls ++
            [.open_color_buffer c.processor_.serial (c.processor_.received ++ data) handle] }
  /-- The connection is removed, with what it holds. -/
  | closes :
    ReadResult s id c { s with connections := s.connections.erase id, calls := s.calls ++ c.processor_.destroy }

theorem read_result (hregistered : c.registered = true) (read : Read) (throws : Bool) :
    ReadResult s id c (s.on_read_size id c read throws) := by
  unfold on_read_size SocketConnection.on_read_size
  cases read with
  | error => exact .closes
  | data bytes =>
    by_cases hcolor : c.processor_.color_buffer_ = 0
    · rcases RefCountMessageProcessor.process_data_cases throws s.calls bytes hcolor with
        hwait | ⟨p', hbad, hzero⟩ | ⟨handle, result, hhandle, hsize, hvalue, hresult, hopen⟩
      · simp only [hwait, SocketConnection.read_next_message, hregistered, if_true]
        exact .waits hcolor
      · have hdestroy : p'.destroy = c.processor_.destroy := by
          simp [RefCountMessageProcessor.destroy, hzero, hcolor]
        simp only [hbad, SocketConnection.remove, hdestroy]
        exact .closes
      · cases result with
        | refused => exact absurd rfl hresult
        | accepted =>
          simp only [hopen, SocketConnection.read_next_message, hregistered, if_true]
          exact .opens hcolor hhandle hsize hvalue
        | threw =>
          simp only [hopen, hregistered, if_true]
          exact .opens hcolor hhandle hsize hvalue
    · simp only [RefCountMessageProcessor.process_data_held hcolor, SocketConnection.remove]
      exact .closes

/-! ## Counting calls -/

theorem countP_destroy (p : RefCountMessageProcessor) (h : UInt32) :
    p.destroy.countP (BackendCall.closes h) = if p.color_buffer_ = h ∧ h ≠ 0 then 1 else 0 := by
  unfold RefCountMessageProcessor.destroy
  by_cases hp : p.color_buffer_ = 0
  · have hnot : ¬(p.color_buffer_ = h ∧ h ≠ 0) := fun hh => hh.2 (hh.1.symm.trans hp)
    rw [if_pos hp, if_neg hnot]
    rfl
  · rw [if_neg hp]
    by_cases he : p.color_buffer_ = h
    · subst he
      simp [hp, BackendCall.closes]
    · simp [he, BackendCall.closes]

/-- The destructor opens nothing. -/
theorem not_open_of_mem_destroy {p : RefCountMessageProcessor} {e : BackendCall} (he : e ∈ p.destroy) :
    ∃ serial h, e = .close_color_buffer serial h := by
  unfold RefCountMessageProcessor.destroy at he
  split_ifs at he
  · cases he
  · exact ⟨_, _, List.mem_singleton.mp he⟩

/-- What every step preserves. -/
structure Kept (s : RefCountPipes) : Prop where
  balance : ∀ h, h ≠ 0 → s.calls.countP (BackendCall.opens h) = s.calls.countP (BackendCall.closes h) + s.holders h
  never_negative : ∀ calls, calls <+: s.calls → ∀ h,
    calls.countP (BackendCall.closes h) ≤ calls.countP (BackendCall.opens h)
  once : ∀ serial, s.calls.countP (BackendCall.openedBy serial) ≤ 1
  handle : ∀ serial received h, .open_color_buffer serial received h ∈ s.calls →
    h ≠ 0 ∧ RefCountMessageProcessor.handle_size ≤ received.length ∧
      h = little_endian (received.take RefCountMessageProcessor.handle_size)
  fresh : ∀ serial, s.created ≤ serial → s.calls.countP (BackendCall.openedBy serial) = 0
  listed : ∀ id c, s.connections.find? id = some c → c.registered = true ∧ c.processor_.serial < s.created
  distinct : ∀ id id' c c', s.connections.find? id = some c → s.connections.find? id' = some c' →
    c.processor_.serial = c'.processor_.serial → id = id'
  empty : ∀ id c, s.connections.find? id = some c → c.processor_.color_buffer_ = 0 →
    s.calls.countP (BackendCall.openedBy c.processor_.serial) = 0 ∧ c.processor_.pending_ = c.processor_.received

theorem Kept.exactOwners (hs : s.Kept) : s.ExactOwners := by
  refine ⟨hs.balance, hs.never_negative, hs.once, hs.handle, fun hempty h => ?_⟩
  by_cases hh : h = 0
  · subst hh
    have hopens : s.calls.countP (BackendCall.opens 0) = 0 := by
      rw [List.countP_eq_zero]
      intro e he
      cases e with
      | open_color_buffer serial received handle =>
        have hne := (hs.handle serial received handle he).1
        simp [BackendCall.opens, hne]
      | close_color_buffer serial handle => simp [BackendCall.opens]
    have hle := hs.never_negative s.calls (List.prefix_refl _) 0
    omega
  · have hbalance := hs.balance h hh
    have hholders : s.holders h = 0 := by
      rw [holders, hempty]
      rfl
    omega

/-- Calls that close no more than is open. -/
theorem never_negative_append {calls closed : List BackendCall}
    (hold : ∀ pre, pre <+: calls → ∀ h, pre.countP (BackendCall.closes h) ≤ pre.countP (BackendCall.opens h))
    (hend : ∀ h, (calls ++ closed).countP (BackendCall.closes h) ≤ calls.countP (BackendCall.opens h)) :
    ∀ pre, pre <+: calls ++ closed → ∀ h, pre.countP (BackendCall.closes h) ≤ pre.countP (BackendCall.opens h) := by
  intro pre hpre h
  rcases List.prefix_or_prefix_of_prefix hpre (List.prefix_append calls closed) with hpre' | hpre'
  · exact hold pre hpre' h
  · calc pre.countP (BackendCall.closes h)
        ≤ (calls ++ closed).countP (BackendCall.closes h) := hpre.sublist.countP_le
      _ ≤ calls.countP (BackendCall.opens h) := hend h
      _ ≤ pre.countP (BackendCall.opens h) := hpre'.sublist.countP_le

/-- Calls of destructors: they take what the destroyed processors held. -/
theorem Kept.destroyed (hs : s.Kept) {closed : List BackendCall} {connections : OrdMap Int RefCountConnection}
    (hclosed : ∀ e ∈ closed, ∃ serial h, e = .close_color_buffer serial h)
    (hcount : ∀ h, h ≠ 0 → s.holders h = closed.countP (BackendCall.closes h) +
      holders { s with connections, calls := s.calls ++ closed } h)
    (hzero : closed.countP (BackendCall.closes 0) = 0)
    (hconnections : ∀ id c, connections.find? id = some c → s.connections.find? id = some c) :
    Kept { s with connections, calls := s.calls ++ closed } := by
  have hopens : ∀ h, closed.countP (BackendCall.opens h) = 0 := by
    intro h
    rw [List.countP_eq_zero]
    intro e he
    obtain ⟨serial, handle, rfl⟩ := hclosed e he
    simp [BackendCall.opens]
  have hopened : ∀ serial, closed.countP (BackendCall.openedBy serial) = 0 := by
    intro serial
    rw [List.countP_eq_zero]
    intro e he
    obtain ⟨owner, handle, rfl⟩ := hclosed e he
    simp [BackendCall.openedBy]
  refine ⟨fun h hh => ?_, never_negative_append hs.never_negative fun h => ?_, fun serial => ?_,
    fun serial received h hm => ?_, fun serial hle => ?_, fun id c hc => hs.listed id c (hconnections id c hc),
    fun id id' c c' hc hc' => hs.distinct id id' c c' (hconnections id c hc) (hconnections id' c' hc'),
    fun id c hc hz => ?_⟩
  · have hbalance := hs.balance h hh
    have htaken := hcount h hh
    show (s.calls ++ closed).countP _ = (s.calls ++ closed).countP _ + _
    rw [List.countP_append, List.countP_append, hopens]
    omega
  · rw [List.countP_append]
    by_cases hh : h = 0
    · subst hh
      have hle := hs.never_negative s.calls (List.prefix_refl _) 0
      omega
    · have hbalance := hs.balance h hh
      have htaken := hcount h hh
      omega
  · show (s.calls ++ closed).countP _ ≤ 1
    rw [List.countP_append, hopened]
    exact hs.once serial
  · rcases List.mem_append.mp hm with hm | hm
    · exact hs.handle serial received h hm
    · obtain ⟨owner, handle, he⟩ := hclosed _ hm
      cases he
  · show (s.calls ++ closed).countP _ = 0
    rw [List.countP_append, hopened, hs.fresh serial hle]
  · obtain ⟨hnone, hpending⟩ := hs.empty id c (hconnections id c hc) hz
    refine ⟨?_, hpending⟩
    show (s.calls ++ closed).countP _ = 0
    rw [List.countP_append, hopened, hnone]

/-- The connection gets another processor state, with the same serial. -/
theorem Kept.replace (hs : s.Kept) (hc : s.connections.find? id = some c) {c' : RefCountConnection}
    (hregistered : c'.registered = true) (hserial : c'.processor_.serial = c.processor_.serial) :
    (∀ id' d, (s.connections.insert id c').find? id' = some d → d.registered = true ∧ d.processor_.serial < s.created) ∧
    ∀ id1 id2 d1 d2, (s.connections.insert id c').find? id1 = some d1 →
      (s.connections.insert id c').find? id2 = some d2 →
      d1.processor_.serial = d2.processor_.serial → id1 = id2 := by
  -- Every connection has the serial of an old one with the same id.
  have hold : ∀ id' d, (s.connections.insert id c').find? id' = some d →
      ∃ d', s.connections.find? id' = some d' ∧ d'.processor_.serial = d.processor_.serial := by
    intro id' d hd
    rw [find?_insert] at hd
    split_ifs at hd with he
    · cases hd
      exact ⟨c, he ▸ hc, hserial.symm⟩
    · exact ⟨d, hd, rfl⟩
  refine ⟨fun id' d hd => ?_, fun id1 id2 d1 d2 h1 h2 heq => ?_⟩
  · obtain ⟨d', hd', hserial'⟩ := hold id' d hd
    refine ⟨?_, hserial' ▸ (hs.listed id' d' hd').2⟩
    rw [find?_insert] at hd
    split_ifs at hd with he
    · cases hd
      exact hregistered
    · exact (hs.listed id' d hd).1
  · obtain ⟨d1', hd1, hs1⟩ := hold id1 d1 h1
    obtain ⟨d2', hd2, hs2⟩ := hold id2 d2 h2
    exact hs.distinct id1 id2 d1' d2' hd1 hd2 (hs1.trans (heq.trans hs2.symm))

theorem Kept.closes (hs : s.Kept) (hc : s.connections.find? id = some c) :
    Kept { s with connections := s.connections.erase id, calls := s.calls ++ c.processor_.destroy } := by
  refine hs.destroyed (fun e he => not_open_of_mem_destroy he) (fun h hh => ?_) ?_ (fun id' c' hc' => ?_)
  · rw [countP_destroy]
    have hsum := sumBy_erase (fun c : RefCountConnection => if c.processor_.color_buffer_ = h then 1 else 0) hc
    simp only [hh, ne_eq, not_false_eq_true, and_true]
    exact hsum
  · rw [countP_destroy]
    simp
  · rw [find?_erase] at hc'
    split_ifs at hc'
    exact hc'

theorem countP_closes_flatMap (l : List (Int × RefCountConnection)) {h : UInt32} (hh : h ≠ 0) :
    (l.flatMap fun e => e.2.processor_.destroy).countP (BackendCall.closes h) =
      (l.map fun e => if e.2.processor_.color_buffer_ = h then 1 else 0).sum := by
  induction l with
  | nil => rfl
  | cons e l ih =>
    rw [List.flatMap_cons, List.countP_append, countP_destroy, ih, List.map_cons, List.sum_cons]
    simp only [hh, ne_eq, not_false_eq_true, and_true]

theorem Kept.clear (hs : s.Kept) : s.clear.Kept := by
  refine hs.destroyed (fun e he => ?_) (fun h hh => ?_) ?_ (fun id c hc => ?_)
  · obtain ⟨entry, -, he⟩ := List.mem_flatMap.mp he
    exact not_open_of_mem_destroy he
  · rw [countP_closes_flatMap _ hh]
    rfl
  · rw [List.countP_flatMap]
    apply List.sum_eq_zero
    intro n hn
    obtain ⟨e, -, rfl⟩ := List.mem_map.mp hn
    rw [Function.comp_apply, countP_destroy]
    simp
  · cases hc

theorem Kept.waits (hs : s.Kept) (hc : s.connections.find? id = some c) (hzero : c.processor_.color_buffer_ = 0)
    {c' : RefCountConnection} (hregistered : c'.registered = true)
    (hserial : c'.processor_.serial = c.processor_.serial) (hzero' : c'.processor_.color_buffer_ = 0)
    (hpending : c'.processor_.pending_ = c'.processor_.received) :
    Kept { s with connections := s.connections.insert id c' } := by
  obtain ⟨hlisted, hdistinct⟩ := hs.replace hc hregistered hserial
  refine ⟨fun h hh => ?_, hs.never_negative, hs.once, hs.handle, hs.fresh, hlisted, hdistinct, fun id' d hd hz => ?_⟩
  · have hbalance := hs.balance h hh
    have hsum := sumBy_replace (fun c : RefCountConnection => if c.processor_.color_buffer_ = h then 1 else 0) c' hc
    simp only [hzero, hzero'] at hsum
    unfold holders at hbalance ⊢
    dsimp only
    omega
  · rw [find?_insert] at hd
    split_ifs at hd with he
    · cases hd
      rw [hserial]
      exact ⟨(hs.empty id c hc hzero).1, hpending⟩
    · exact hs.empty id' d hd hz

theorem Kept.opens (hs : s.Kept) (hc : s.connections.find? id = some c) (hzero : c.processor_.color_buffer_ = 0)
    {c' : RefCountConnection} (hregistered : c'.registered = true)
    (hserial : c'.processor_.serial = c.processor_.serial) (hhandle : c'.processor_.color_buffer_ ≠ 0)
    (hlen : RefCountMessageProcessor.handle_size ≤ c'.processor_.received.length)
    (hvalue : c'.processor_.color_buffer_ =
      little_endian (c'.processor_.received.take RefCountMessageProcessor.handle_size)) :
    Kept { s with
      connections := s.connections.insert id c'
      calls := s.calls ++
        [.open_color_buffer c.processor_.serial c'.processor_.received c'.processor_.color_buffer_] } := by
  obtain ⟨hlisted, hdistinct⟩ := hs.replace hc hregistered hserial
  have hserial' := (hs.listed id c hc).2
  obtain ⟨hnone, -⟩ := hs.empty id c hc hzero
  refine ⟨fun h hh => ?_, fun pre hpre h => ?_, fun serial => ?_, fun serial received h hm => ?_, fun serial hle => ?_,
    hlisted, hdistinct, fun id' d hd hz => ?_⟩
  · have hbalance := hs.balance h hh
    have hsum := sumBy_replace (fun c : RefCountConnection => if c.processor_.color_buffer_ = h then 1 else 0) c' hc
    simp only [hzero, if_neg hh.symm] at hsum
    unfold holders at hbalance ⊢
    simp only [List.countP_append, List.countP_singleton, BackendCall.opens, BackendCall.closes, decide_eq_true_eq,
      Bool.false_eq_true, if_false]
    omega
  · rcases List.prefix_concat_iff.mp hpre with rfl | hpre'
    · rw [List.countP_append, List.countP_append]
      have hle := hs.never_negative s.calls (List.prefix_refl _) h
      simp only [List.countP_singleton, BackendCall.closes, Bool.false_eq_true, if_false]
      omega
    · exact hs.never_negative pre hpre' h
  · show (s.calls ++ [_]).countP _ ≤ 1
    rw [List.countP_append, List.countP_singleton]
    have honce := hs.once serial
    by_cases he : c.processor_.serial = serial
    · subst he
      rw [hnone]
      split_ifs <;> omega
    · simp only [BackendCall.openedBy, he, decide_false, Bool.false_eq_true, if_false]
      omega
  · rcases List.mem_append.mp hm with hm | hm
    · exact hs.handle serial received h hm
    · cases List.mem_singleton.mp hm
      exact ⟨hhandle, hlen, hvalue⟩
  · show (s.calls ++ [_]).countP _ = 0
    have hne : c.processor_.serial ≠ serial := Nat.ne_of_lt (Nat.lt_of_lt_of_le hserial' hle)
    rw [List.countP_append, hs.fresh serial hle, List.countP_singleton]
    simp [BackendCall.openedBy, hne]
  · rw [find?_insert] at hd
    split_ifs at hd with he
    · cases hd
      exact absurd hz hhandle
    · obtain ⟨hnone', hpending⟩ := hs.empty id' d hd hz
      have hne : c.processor_.serial ≠ d.processor_.serial := by
        intro heq
        exact he (hs.distinct id id' c d hc hd heq).symm
      refine ⟨?_, hpending⟩
      show (s.calls ++ [_]).countP _ = 0
      rw [List.countP_append, hnone', List.countP_singleton]
      simp [BackendCall.openedBy, hne]

theorem Kept.read (hs : s.Kept) (hc : s.connections.find? id = some c) (h : ReadResult s id c s') : s'.Kept := by
  cases h with
  | waits hzero =>
    refine hs.waits hc hzero rfl rfl hzero ?_
    rw [(hs.empty id c hc hzero).2]
  | opens hzero hhandle hsize hvalue =>
    have hreceived := (hs.empty id c hc hzero).2
    rw [hreceived] at hsize hvalue
    refine hs.opens hc hzero rfl rfl hhandle (Nat.le_of_eq hsize.symm) ?_
    rw [hvalue, ← hsize, List.take_length]
  | closes => exact hs.closes hc

theorem Kept.create (hs : s.Kept) (id : Int) : (s.create_connection_for id).Kept := by
  unfold create_connection_for
  dsimp only
  split_ifs with hid
  · have hnil : ({ serial := s.created } : RefCountMessageProcessor).destroy = [] := rfl
    rw [hnil, List.append_nil]
    exact ⟨hs.balance, hs.never_negative, hs.once, hs.handle, fun serial hle => hs.fresh serial (Nat.le_of_succ_le hle),
      fun id c hc => ⟨(hs.listed id c hc).1, Nat.lt_succ_of_lt (hs.listed id c hc).2⟩, hs.distinct, hs.empty⟩
  · refine ⟨fun h hh => ?_, hs.never_negative, hs.once, hs.handle,
      fun serial hle => hs.fresh serial (Nat.le_of_succ_le hle), fun id' d hd => ?_,
      fun id1 id2 d1 d2 h1 h2 heq => ?_, fun id' d hd hz => ?_⟩
    · have hbalance := hs.balance h hh
      have hsum := sumBy_insert_of_not_mem
        (v := ({ processor_ := { serial := s.created } } : RefCountConnection))
        (fun c : RefCountConnection => if c.processor_.color_buffer_ = h then 1 else 0) hid
      simp only [if_neg hh.symm] at hsum
      unfold holders at hbalance ⊢
      dsimp only
      omega
    · rw [find?_insert] at hd
      split_ifs at hd
      · cases hd
        exact ⟨rfl, Nat.lt_succ_self _⟩
      · exact ⟨(hs.listed id' d hd).1, Nat.lt_succ_of_lt (hs.listed id' d hd).2⟩
    · rw [find?_insert] at h1 h2
      split_ifs at h1 h2 with he1 he2
      · exact he1.trans he2.symm
      · cases h1
        exact absurd heq.symm (Nat.ne_of_lt (hs.listed id2 d2 h2).2)
      · cases h2
        exact absurd heq (Nat.ne_of_lt (hs.listed id1 d1 h1).2)
      · exact hs.distinct id1 id2 d1 d2 h1 h2 heq
    · rw [find?_insert] at hd
      split_ifs at hd
      · cases hd
        exact ⟨hs.fresh s.created (Nat.le_refl _), rfl⟩
      · exact hs.empty id' d hd hz

theorem Kept.step {i : RefCountOp} (hs : s.Kept) (h : s.step i = some s') : s'.Kept := by
  cases i with
  | create_connection_for id =>
    cases h
    exact hs.create id
  | on_read_size id read throws =>
    obtain ⟨c, hc, h⟩ := Option.bind_eq_some_iff.mp h
    obtain ⟨-, h⟩ := Option.ite_none_right_eq_some.mp h
    cases h
    exact hs.read hc (read_result (hs.listed id c hc).1 read throws)
  | clear =>
    cases h
    exact hs.clear

theorem kept_init : Kept {} := by
  refine ⟨fun _ _ => rfl, fun pre hpre h => ?_, fun _ => Nat.zero_le 1, fun _ _ _ hm => (nomatch hm), fun _ _ => rfl,
    fun _ _ hc => (nomatch hc), fun _ _ _ _ hc => (nomatch hc), fun _ _ hc => (nomatch hc)⟩
  rw [List.prefix_nil.mp hpre]
  exact Nat.zero_le _

/-- **Ownership.** In every reachable state the pipes own exactly the references that they have opened and not
closed. -/
theorem pipes_own_exactly (s : RefCountPipes) (h : refCountMachine.Reachable s) : s.ExactOwners := by
  have hs : s.Kept := h.invariant (P := Kept) kept_init fun _ _ _ hs h => hs.step h
  exact hs.exactOwners

/-- Two pipes share a color buffer, whose handle comes to the first in two pieces; the first is closed. -/
def sharedOps : List RefCountOp :=
  [.create_connection_for 0, .create_connection_for 1, .on_read_size 0 (.data [7, 1]) false,
    .on_read_size 1 (.data [7, 1, 0, 0]) false, .on_read_size 0 (.data [0, 0]) false, .on_read_size 0 .error false]

theorem pipes_own_exactly_shared :
    ∃ s, refCountMachine.exec refCountMachine.init sharedOps = some s ∧
      s.calls = [.open_color_buffer 1 [7, 1, 0, 0] 263, .open_color_buffer 0 [7, 1, 0, 0] 263,
        .close_color_buffer 0 263] ∧ s.ExactOwners :=
  ⟨_, rfl, rfl, pipes_own_exactly _ ⟨sharedOps, rfl⟩⟩

end RefCountPipes

end AnboxReboxed.Qemu
