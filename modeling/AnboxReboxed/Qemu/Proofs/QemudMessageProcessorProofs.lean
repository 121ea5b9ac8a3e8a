import AnboxReboxed.Qemu.QemudMessageProcessor
import Mathlib.Data.List.Infix

/-!
# Proofs: the commands of a qemud stream

The loop stops early when what is left is as long as the frame it has just taken. `takes` says which
commands one call takes; it takes all complete ones exactly when it does not stop early.
-/

namespace AnboxReboxed.Qemu

open AnboxReboxed.Lib

/-! ## Headers -/

theorem header_of_le {size : Nat} (h : size ≤ 0xffff) : header size = paddedHex 4 size := by
  have hlen := length_paddedHex 3 (show size < 16 ^ 4 by norm_num; omega)
  exact List.take_of_length_le (Nat.le_of_eq hlen)

theorem length_header {size : Nat} (h : size ≤ 0xffff) : (header size).length = header_size := by
  rw [header_of_le h]
  exact length_paddedHex 3 (by norm_num; omega)

theorem scanHeader_digits {text : Bytes} (h : AllHex text) : scanHeader text = readHex 0 text := by
  have hdigit : ∀ d : Fin 16, hexDigit d ≠ 45 ∧ hexDigit d ≠ 43 ∧ hexDigit d ≠ 120 ∧ hexDigit d ≠ 88 := by decide
  have hmem : ∀ b ∈ text, b ≠ 45 ∧ b ≠ 43 ∧ b ≠ 120 ∧ b ≠ 88 := by
    intro b hb
    obtain ⟨d, hd, rfl⟩ := h b hb
    exact hdigit ⟨d, hd⟩
  have hhead : ∀ b, text.head? = some b → b ≠ 45 ∧ b ≠ 43 := by
    intro b hb
    obtain ⟨h1, h2, -, -⟩ := hmem b (List.mem_of_mem_head? hb)
    exact ⟨h1, h2⟩
  have hminus : text.head? ≠ some 45 := fun hb => (hhead 45 hb).1 rfl
  have hplus : text.head? ≠ some 43 := fun hb => (hhead 43 hb).2 rfl
  have hprefix : ¬(text.take 2 = [48, 120] ∨ text.take 2 = [48, 88]) := by
    rintro (ht | ht)
    · have hx : (120 : UInt8) ∈ text := List.mem_of_mem_take (ht ▸ by simp : (120 : UInt8) ∈ text.take 2)
      exact (hmem 120 hx).2.2.1 rfl
    · have hx : (88 : UInt8) ∈ text := List.mem_of_mem_take (ht ▸ by simp : (88 : UInt8) ∈ text.take 2)
      exact (hmem 88 hx).2.2.2 rfl
  rw [scanHeader, if_neg hminus, if_neg hplus, scanHex, if_neg hprefix]

/-- The header of a command is read back. -/
theorem scanHeader_header {size : Nat} (h : size ≤ 0xffff) : scanHeader (header size) = size := by
  rw [header_of_le h, scanHeader_digits (allHex_paddedHex 4 size), readHex_paddedHex]

/-! ## Streams -/

theorem length_frame {c : Bytes} (h : c.length ≤ 0xffff) : (frame c).length = header_size + c.length := by
  rw [frame, List.length_append, length_header h]

theorem stream_cons (c : Bytes) (commands : List Bytes) : stream (c :: commands) = frame c ++ stream commands :=
  List.flatMap_cons

theorem stream_append (l m : List Bytes) : stream (l ++ m) = stream l ++ stream m := List.flatMap_append

/-- The commands that one call takes off `n` bytes. -/
def takes : List Bytes → Nat → List Bytes
  | [], _ => []
  | c :: commands, n =>
    if n < (frame c).length then []
    else if (n - (frame c).length) % 2 ^ 64 = (frame c).length then [c]
    else c :: takes commands (n - (frame c).length)

namespace QemudMessageProcessor

theorem remaining_le_zero {size consumed : Nat} (h : consumed < 2 ^ 64) :
    remaining size consumed ≤ 0 ↔ size % 2 ^ 64 = consumed := by
  have h1 : size.toUInt64.toNat = size % 2 ^ 64 := UInt64.toNat_ofNat'
  have h2 : consumed.toUInt64.toNat = consumed % 2 ^ 64 := UInt64.toNat_ofNat'
  have h0 : (0 : UInt64).toNat = 0 := rfl
  rw [UInt64.le_iff_toNat_le, remaining, UInt64.toNat_sub, h1, h2, h0]
  omega

/-- One pass of the loop over a complete frame. -/
theorem process_commands_frame {c : Bytes} (hc : c.length ≤ 0xffff) (b : Bytes) (h : List Bytes) :
    process_commands ⟨frame c ++ b, h⟩ =
      if b.length % 2 ^ 64 = (frame c).length then ⟨b, h ++ [c]⟩ else process_commands ⟨b, h ++ [c]⟩ := by
  have hframe := length_frame hc
  have htake : (frame c ++ b).take header_size = header c.length := by
    rw [frame, List.append_assoc, ← length_header hc, List.take_left]
  have hbody : ((frame c ++ b).drop header_size).take c.length = c := by
    rw [frame, List.append_assoc, ← length_header hc, List.drop_left, List.take_left]
  have hdrop : (frame c ++ b).drop (header_size + c.length) = b := by
    rw [← hframe, List.drop_left]
  have hshort : (frame c).length < 2 ^ 64 := by
    rw [hframe]
    unfold header_size
    omega
  rw [process_commands]
  simp only [htake, scanHeader_header hc, hbody, hdrop, List.length_append]
  rw [if_neg (by omega), if_neg (by omega), ← hframe]
  simp only [remaining_le_zero hshort]

/-- The loop waits for the rest of a frame. -/
theorem process_commands_short {c b : Bytes} (hc : c.length ≤ 0xffff) (hb : b.length < (frame c).length)
    {rest : Bytes} (hpre : b <+: frame c ++ rest) (h : List Bytes) : process_commands ⟨b, h⟩ = ⟨b, h⟩ := by
  have hframe := length_frame hc
  rw [process_commands]
  by_cases hsize : b.length < header_size
  · rw [if_pos hsize]
  · have htake : b.take header_size = header c.length := by
      obtain ⟨m, hm⟩ := hpre
      have heq := congrArg (List.take header_size) hm
      rw [List.take_append_of_le_length (Nat.le_of_not_lt hsize), frame, List.append_assoc, ← length_header hc,
        List.take_left] at heq
      rwa [← length_header hc]
    rw [if_neg hsize]
    simp only [htake, scanHeader_header hc]
    rw [if_pos (by omega)]

theorem process_commands_stream (commands : List Bytes) : ∀ (b : Bytes) (h : List Bytes),
    (∀ c ∈ commands, c.length ≤ 0xffff) → b <+: stream commands →
    process_commands ⟨b, h⟩ =
      ⟨b.drop (stream (takes commands b.length)).length, h ++ takes commands b.length⟩ := by
  induction commands with
  | nil =>
    intro b h _ hb
    have hnil : b = [] := List.prefix_nil.mp hb
    subst hnil
    rw [process_commands, if_pos (by simp [header_size])]
    simp [takes]
  | cons c commands ih =>
    intro b h hlen hb
    have hc := hlen c List.mem_cons_self
    rw [stream_cons] at hb
    by_cases hshort : b.length < (frame c).length
    · rw [process_commands_short hc hshort hb, takes, if_pos hshort]
      simp [stream]
    · obtain ⟨b', rfl⟩ : ∃ b', b = frame c ++ b' := by
        obtain ⟨b', hb'⟩ := List.prefix_of_prefix_length_le (List.prefix_append _ _) hb (Nat.le_of_not_lt hshort)
        exact ⟨b', hb'.symm⟩
      have hb' : b' <+: stream commands := (List.prefix_append_right_inj _).mp hb
      rw [process_commands_frame hc]
      simp only [List.length_append, takes, Nat.add_sub_cancel_left,
        if_neg (Nat.not_lt.mpr (Nat.le_add_right (frame c).length b'.length))]
      split_ifs with hstop
      · simp [stream]
      · rw [ih b' _ (fun c hc => hlen c (List.mem_cons_of_mem _ hc)) hb']
        simp [stream_cons]

end QemudMessageProcessor

/-! ## Calls that take everything -/

/-- No command in the first `n` bytes, with a complete one behind it, is followed by as many bytes as its
frame has. -/
def Clear (commands : List Bytes) (n : Nat) : Prop :=
  ∀ before c next after, commands = before ++ c :: next :: after →
    (stream (before ++ [c, next])).length ≤ n →
    (n - (stream (before ++ [c])).length) % 2 ^ 64 ≠ (frame c).length

theorem complete_eq_nil {c : Bytes} {commands : List Bytes} {n : Nat} (h : n < (frame c).length) :
    complete (c :: commands) n = [] := if_pos h

theorem clear_cons {c : Bytes} {commands : List Bytes} {n : Nat} (hn : (frame c).length ≤ n) :
    Clear (c :: commands) n ↔
      ((n - (frame c).length) % 2 ^ 64 = (frame c).length → complete commands (n - (frame c).length) = []) ∧
        Clear commands (n - (frame c).length) := by
  constructor
  · intro h
    refine ⟨fun hstop => ?_, fun before c' next after heq hle => ?_⟩
    · cases commands with
      | nil => rfl
      | cons next after =>
        apply complete_eq_nil
        by_contra hle
        have hclear := h [] c next after rfl ?_
        · simp only [List.nil_append, stream_cons] at hclear
          simp only [stream, List.flatMap_nil, List.append_nil] at hclear
          exact hclear hstop
        · simp only [List.nil_append, stream_cons, List.length_append]
          simp only [stream, List.flatMap_nil, List.length_nil]
          omega
    · have hclear := h (c :: before) c' next after (by rw [heq]; rfl) ?_
      · simp only [List.cons_append, stream_cons c, List.length_append, ← Nat.sub_sub] at hclear
        exact hclear
      · simp only [List.cons_append, stream_cons c, List.length_append]
        omega
  · rintro ⟨hstop, hclear⟩ before c' next after heq hle
    cases before with
    | nil =>
      cases heq
      intro hrem
      simp only [List.nil_append, stream_cons, List.length_append] at hle hrem
      simp only [stream, List.flatMap_nil, List.length_nil, Nat.add_zero] at hle hrem
      have hnil := hstop hrem
      rw [complete, if_neg (by omega)] at hnil
      cases hnil
    | cons c0 before =>
      cases heq
      have hrest := hclear before c' next after rfl ?_
      · simp only [List.cons_append, stream_cons c, List.length_append, ← Nat.sub_sub]
        exact hrest
      · simp only [List.cons_append, stream_cons c, List.length_append] at hle
        omega

theorem takes_eq_nil {commands : List Bytes} {n : Nat} (h : complete commands n = []) : takes commands n = [] := by
  cases commands with
  | nil => rfl
  | cons c commands =>
    rw [complete] at h
    split_ifs at h with hn
    exact if_pos hn

/-- A call takes all complete commands exactly when it does not stop early. -/
theorem takes_eq_complete_iff (commands : List Bytes) :
    ∀ n, takes commands n = complete commands n ↔ Clear commands n := by
  induction commands with
  | nil =>
    intro n
    refine ⟨fun _ before c next after heq => ?_, fun _ => rfl⟩
    simp at heq
  | cons c commands ih =>
    intro n
    by_cases hn : n < (frame c).length
    · rw [takes, complete, if_pos hn, if_pos hn]
      refine ⟨fun _ before c' next after heq hle => ?_, fun _ => rfl⟩
      exfalso
      have hfirst : (frame c).length ≤ (stream (before ++ [c', next])).length := by
        cases before with
        | nil =>
          cases heq
          simp [stream]
        | cons c0 before =>
          cases heq
          simp [stream]
      omega
    · have hle := Nat.le_of_not_lt hn
      rw [clear_cons hle, ← ih, takes, complete, if_neg hn, if_neg hn]
      split_ifs with hstop
      · simp only [hstop, true_implies, List.cons.injEq, true_and]
        constructor
        · intro hnil
          exact ⟨hnil.symm, (takes_eq_nil hnil.symm).trans hnil⟩
        · exact fun h => h.1.symm
      · simp only [hstop, false_implies, true_and, List.cons.injEq]

/-! ## Runs -/

/-- The complete commands are the first ones, and the next one is not complete. -/
theorem complete_spec (commands : List Bytes) : ∀ n, ∃ rest, commands = complete commands n ++ rest ∧
    (stream (complete commands n)).length ≤ n ∧ complete rest (n - (stream (complete commands n)).length) = [] := by
  induction commands with
  | nil => exact fun n => ⟨[], rfl, Nat.zero_le n, rfl⟩
  | cons c commands ih =>
    intro n
    by_cases hn : n < (frame c).length
    · rw [complete_eq_nil hn]
      exact ⟨c :: commands, rfl, Nat.zero_le n, if_pos hn⟩
    · obtain ⟨rest, heq, hle, hnil⟩ := ih (n - (frame c).length)
      rw [complete, if_neg hn]
      refine ⟨rest, by rw [List.cons_append, ← heq], ?_, ?_⟩
      · rw [stream_cons, List.length_append]
        omega
      · rw [stream_cons, List.length_append, ← Nat.sub_sub]
        exact hnil

theorem complete_append (done : List Bytes) : ∀ {rest : List Bytes} {n : Nat}, (stream done).length ≤ n →
    complete (done ++ rest) n = done ++ complete rest (n - (stream done).length) := by
  induction done with
  | nil => exact fun _ => rfl
  | cons c done ih =>
    intro rest n hn
    rw [stream_cons, List.length_append] at hn
    rw [List.cons_append, complete, if_neg (by omega), ih (by omega), stream_cons, List.length_append,
      Nat.sub_sub, List.cons_append]

/-- The frames of a command and of those before it reach beyond what is incomplete. -/
theorem lt_stream_of_incomplete {before after : List Bytes} {c : Bytes} {n : Nat}
    (h : complete (before ++ c :: after) n = []) : n < (stream (before ++ [c])).length := by
  cases before with
  | nil =>
    rw [List.nil_append, complete] at h
    split_ifs at h with hn
    simpa [stream] using hn
  | cons c0 before =>
    rw [List.cons_append, complete] at h
    split_ifs at h with hn
    rw [List.cons_append, stream_cons, List.length_append]
    omega

/-- With the commands that are done set aside, the condition on a call is about the rest. -/
theorem unequal_iff_clear {done rest : List Bytes} {n m : Nat} (hn : (stream done).length ≤ n)
    (hrest : complete rest (n - (stream done).length) = []) :
    Unequal (done ++ rest) n m ↔ Clear rest (m - (stream done).length) := by
  constructor
  · intro h before c next after heq hle
    have hlt : n - (stream done).length < (stream (before ++ [c])).length := by
      rw [heq] at hrest
      exact lt_stream_of_incomplete hrest
    have hpos : 0 < (stream (before ++ [c, next])).length := by
      rw [show before ++ [c, next] = (before ++ [c]) ++ [next] by simp, stream_append, List.length_append]
      omega
    have hne := h (done ++ before) c next after (by rw [heq, List.append_assoc])
      (by rw [List.append_assoc, stream_append, List.length_append]; omega)
      (by rw [List.append_assoc, stream_append, List.length_append]; omega)
    rw [List.append_assoc, stream_append, List.length_append, ← Nat.sub_sub] at hne
    exact hne
  · intro h before c next after heq hlt hle
    have hsplit : ∃ before', before = done ++ before' := by
      rcases List.append_eq_append_iff.mp heq with ⟨as, hbefore, -⟩ | ⟨bs, hdone, hrest'⟩
      · exact ⟨as, hbefore⟩
      · cases bs with
        | nil => exact ⟨[], by simpa using hdone.symm⟩
        | cons b bs =>
          -- The command would be done already.
          exfalso
          obtain ⟨rfl, -⟩ := List.cons.inj hrest'
          rw [hdone, show before ++ c :: bs = (before ++ [c]) ++ bs by simp, stream_append,
            List.length_append] at hn
          omega
    obtain ⟨before', rfl⟩ := hsplit
    rw [List.append_assoc] at heq
    have hne := h before' c next after (List.append_cancel_left heq) ?_
    · rw [List.append_assoc, stream_append, List.length_append, ← Nat.sub_sub]
      exact hne
    · rw [List.append_assoc, stream_append, List.length_append] at hle
      omega

theorem caughtUp_step {commands : List Bytes} (hlen : ∀ c ∈ commands, c.length ≤ 0xffff) {received data : Bytes}
    {s : QemudMessageProcessor} (hs : CaughtUp commands received s) (hpre : received ++ data <+: stream commands) :
    CaughtUp commands (received ++ data) (s.process_data data) ↔
      Unequal commands received.length (received ++ data).length := by
  obtain ⟨rest, heq, hle, hnil⟩ := complete_spec commands received.length
  obtain ⟨hhandled, hbuffer⟩ := hs
  generalize complete commands received.length = done at heq hle hnil hhandled hbuffer
  subst heq
  have hlong : (stream done).length ≤ (received ++ data).length := by
    rw [List.length_append]
    omega
  have hb : (received ++ data).drop (stream done).length <+: stream rest := by
    have hdrop := hpre.drop (stream done).length
    rwa [stream_append, List.drop_left] at hdrop
  have hprocess : s.process_data data =
      ⟨((received ++ data).drop (stream done).length).drop
          (stream (takes rest ((received ++ data).length - (stream done).length))).length,
        done ++ takes rest ((received ++ data).length - (stream done).length)⟩ := by
    have hcommands := QemudMessageProcessor.process_commands_stream rest
      ((received ++ data).drop (stream done).length) done (fun c hc => hlen c (List.mem_append_right _ hc)) hb
    rw [List.length_drop] at hcommands
    rw [QemudMessageProcessor.process_data, hbuffer, hhandled, ← List.drop_append_of_le_length hle]
    exact hcommands
  rw [unequal_iff_clear hle hnil, ← takes_eq_complete_iff, CaughtUp, hprocess, complete_append done hlong]
  constructor
  · intro h
    exact List.append_cancel_left h.1
  · intro h
    rw [h]
    refine ⟨rfl, ?_⟩
    simp only [stream_append, List.length_append, List.drop_drop]

theorem caughtUp_init {commands : List Bytes} (hlen : ∀ c ∈ commands, c.length ≤ 0xffff) :
    CaughtUp commands [] {} := by
  cases commands with
  | nil => exact ⟨rfl, rfl⟩
  | cons c commands =>
    have hnil : complete (c :: commands) 0 = [] := by
      apply complete_eq_nil
      rw [length_frame (hlen c List.mem_cons_self)]
      simp [header_size]
    simp [CaughtUp, hnil]

/-- Calls from a state in which everything complete is handled. -/
theorem caughtUp_calls {commands : List Bytes} (hlen : ∀ c ∈ commands, c.length ≤ 0xffff) (chunks : List Bytes) :
    ∀ {received : Bytes} {s : QemudMessageProcessor}, CaughtUp commands received s →
    received ++ chunks.flatten <+: stream commands →
    ((∀ calls later, chunks = calls ++ later →
        CaughtUp commands (received ++ calls.flatten) (calls.foldl QemudMessageProcessor.process_data s)) ↔
      ∀ calls data later, chunks = calls ++ data :: later →
        Unequal commands (received ++ calls.flatten).length (received ++ calls.flatten ++ data).length) := by
  induction chunks with
  | nil =>
    intro received s hs _
    constructor
    · intro _ calls data later heq
      simp at heq
    · intro _ calls later heq
      obtain ⟨rfl, rfl⟩ := List.append_eq_nil_iff.mp heq.symm
      simpa using hs
  | cons data chunks ih =>
    intro received s hs hpre
    have hpre' : (received ++ data) ++ chunks.flatten <+: stream commands := by
      rwa [List.append_assoc]
    have hfirst := caughtUp_step hlen hs (List.IsPrefix.trans (List.prefix_append _ _) hpre')
    constructor
    · intro h calls data' later heq
      have hdata : CaughtUp commands (received ++ data) (s.process_data data) := by
        simpa using h [data] chunks rfl
      cases calls with
      | nil =>
        cases heq
        simpa using hfirst.mp hdata
      | cons d calls =>
        cases heq
        have hrest := (ih hdata hpre').mp ?_ calls data' later rfl
        · simpa using hrest
        · intro calls' later' heq'
          have hcalls := h (data :: calls') later' (by rw [heq']; rfl)
          simpa using hcalls
    · intro h calls later heq
      have hdata : CaughtUp commands (received ++ data) (s.process_data data) := by
        apply hfirst.mpr
        simpa using h [] data chunks rfl
      cases calls with
      | nil => simpa using hs
      | cons d calls =>
        cases heq
        have hrest := (ih hdata hpre').mpr ?_ calls later rfl
        · simpa using hrest
        · intro calls' data' later' heq'
          have hcalls := h (data :: calls') data' later' (by rw [heq']; rfl)
          simpa using hcalls

/-- **Framing.** Over every way of cutting a stream of commands into calls, each call leaves all complete
commands handled and nothing but an incomplete frame in the buffer, exactly when no call completes a command
that is followed by a complete one and by exactly as many bytes as its own frame has. -/
theorem commands_handled_iff (commands chunks : List Bytes) (hlen : ∀ c ∈ commands, c.length ≤ 0xffff)
    (hcut : chunks.flatten = stream commands) :
    (∀ calls later, chunks = calls ++ later →
        CaughtUp commands calls.flatten (calls.foldl QemudMessageProcessor.process_data {})) ↔
      ∀ calls data later, chunks = calls ++ data :: later →
        Unequal commands calls.flatten.length (calls.flatten ++ data).length := by
  have hcalls := caughtUp_calls hlen chunks (caughtUp_init hlen) (by rw [List.nil_append, hcut])
  simpa using hcalls

/-- Two commands of different lengths that arrive in one call. -/
theorem commands_handled_pair :
    CaughtUp [[1], [2, 3]] (stream [[1], [2, 3]]) (QemudMessageProcessor.process_data {} (stream [[1], [2, 3]])) := by
  have h := (commands_handled_iff [[1], [2, 3]] [stream [[1], [2, 3]]] (by decide) (by simp)).mpr ?_
    [stream [[1], [2, 3]]] [] rfl
  · simpa using h
  · intro calls data later heq before c next after hcommands _ _
    have hcalls : calls = [] ∧ data = stream [[1], [2, 3]] := by
      cases calls with
      | nil => exact ⟨rfl, (List.cons.inj heq).1.symm⟩
      | cons d calls => simp at heq
    obtain ⟨rfl, rfl⟩ := hcalls
    have hbefore : before = [] ∧ c = [1] := by
      cases before with
      | nil => exact ⟨rfl, (List.cons.inj hcommands).1.symm⟩
      | cons b before =>
        have hlen := congrArg List.length hcommands
        simp only [List.length_cons, List.length_append, List.length_nil] at hlen
        omega
    obtain ⟨rfl, rfl⟩ := hbefore
    simp [stream, length_frame, header_size]

/-- Two commands of the same length arrive in one call, and the second stays in the buffer. -/
theorem second_command_stranded :
    ¬CaughtUp [[1], [2]] (stream [[1], [2]]) (QemudMessageProcessor.process_data {} (stream [[1], [2]])) := by
  have hstep : CaughtUp [[1], [2]] ([] ++ stream [[1], [2]])
      (QemudMessageProcessor.process_data {} (stream [[1], [2]])) ↔ Unequal [[1], [2]] 0 _ :=
    caughtUp_step (by decide) (caughtUp_init (by decide)) (List.prefix_refl _)
  intro h
  have hne := hstep.mp h [] [1] [2] [] rfl
  simp [stream, length_frame, header_size] at hne

end AnboxReboxed.Qemu
