import AnboxReboxed.Sdl.AudioSink

/-!
# Correctness of the playback

What was written is what has been played, and behind it what is queued still. A callback that finds less than it wants
returns without looking at the rest of its buffer.
-/

namespace AnboxReboxed.Sdl

open AnboxReboxed.Lib AnboxReboxed.Common AnboxReboxed.Graphics

theorem connect_audio_of_ne_zero (s : AudioSink) {opened : SDL_AudioDeviceID} (h : opened ≠ 0) :
    (s.connect_audio opened).1 = true ∧ (s.connect_audio opened).2.input = s.input := by
  unfold AudioSink.connect_audio
  by_cases hopen : 0 < s.device_id_
  · rw [if_pos hopen]
    exact ⟨rfl, rfl⟩
  · rw [if_neg hopen]
    exact ⟨bne_iff_ne.mpr h, rfl⟩

theorem write_data_eq_push (s : AudioSink) {opened : SDL_AudioDeviceID} (h : opened ≠ 0) (data : List UInt8) :
    s.write_data opened data = (s.connect_audio opened).2.push data := if_pos (connect_audio_of_ne_zero s h).1

/-- A push that goes through puts its data behind what there is. -/
theorem push_spec {s s' : AudioSink} {data : List UInt8} (hopen : s.input.in_queue_.closed_ = false)
    (h : s.push data = some s') :
    s'.input.available = s.input.available ++ data ∧ s'.input.in_queue_.closed_ = false := by
  obtain ⟨⟨res, input⟩, hpost, rfl⟩ := Option.map_eq_some_iff.mp h
  rcases RequestStream.post_data_cases hpost with ⟨hclosed, -⟩ | ⟨-, hopen', havailable, -⟩
  · exact absurd (hopen.symm.trans hclosed) Bool.false_ne_true
  · exact ⟨havailable.trans (by rw [SmallVector.ofRange_data]), hopen'⟩

theorem silent_iff (c : Callback) : c.Silent ↔ ∀ b ∈ c.before.drop c.copied.length, b = 0 := by
  unfold Callback.Silent Callback.after
  rw [List.append_cancel_left_eq, List.eq_replicate_iff, List.length_drop]
  exact and_iff_right rfl

namespace Playback

/-- What was written is what has been played, and what there is. -/
structure Good (p : Playback) : Prop where
  written : p.written = p.played ++ p.sink.input.available
  not_closed : p.sink.input.in_queue_.closed_ = false

theorem good_init : Good playback.init := ⟨rfl, rfl⟩

/-- The audio that is copied is the first there is. It ends with the buffer, or with what there is. -/
structure Copies (p : Playback) (buffer copied : List UInt8) (p' : Playback) : Prop where
  available : p.sink.input.available = copied ++ p'.sink.input.available
  ends : copied.length = buffer.length ∨ p'.sink.input.available = [] ∧ copied ≠ []
  returned : p'.returned = p.returned ++ [⟨buffer, copied⟩]

/-- A callback waits, or it copies some audio. -/
theorem read_cases {p : Playback} (hp : Good p) (buffer : List UInt8) :
    (p.read buffer).written = p.written ∧ (p.read buffer).sink.input.in_queue_.closed_ = false ∧
      ((p.sink.input.available = [] ∧ (p.read buffer).sink.input.available = [] ∧
          (p.read buffer).returned = p.returned) ∨
        ∃ copied, p.Copies buffer copied (p.read buffer)) := by
  have hspec := p.sink.input.read_spec buffer.length
  unfold read AudioSink.read_data
  cases hread : p.sink.input.read buffer.length with
  | mk result input =>
    rw [hread, hp.not_closed] at hspec
    cases result with
    | blocked =>
      obtain ⟨hbefore, -, hafter, hopen, -⟩ := hspec
      exact ⟨rfl, hopen, .inl ⟨hbefore, hafter, rfl⟩⟩
    | null => exact absurd hspec.2.1 Bool.false_ne_true
    | bytes copied =>
      obtain ⟨havailable, -, hends, hopen, -⟩ := hspec
      exact ⟨rfl, hopen, .inr ⟨copied, havailable, hends.imp_right And.symm, rfl⟩⟩

theorem played_append {p : Playback} {c : Callback} {returned : List Callback} (h : returned = p.returned ++ [c]) :
    returned.flatMap Callback.copied = p.played ++ c.copied := by
  rw [h, List.flatMap_append, List.flatMap_singleton]
  rfl

/-- The callback is silent when the buffer was covered, and only then. -/
theorem Copies.silent_iff_covers {p p' : Playback} {buffer copied : List UInt8} (h : p.Copies buffer copied p') :
    (⟨buffer, copied⟩ : Callback).Silent ↔ p.sink.Covers buffer := by
  rw [silent_iff]
  rcases h.ends with hfull | ⟨hrest, hne⟩
  · -- the buffer is full
    have hle : buffer.length ≤ p.sink.input.available.length := by
      rw [h.available, List.length_append, hfull]
      exact Nat.le_add_right _ _
    have hnone : ∀ n, buffer.length ≤ n → ∀ b ∈ buffer.drop n, b = 0 := fun n hn b hb => by
      rw [List.drop_of_length_le hn] at hb
      exact absurd hb List.not_mem_nil
    exact ⟨fun _ => .inr (hnone _ hle), fun _ => hnone _ hfull.ge⟩
  · have havailable : p.sink.input.available = copied := by rw [h.available, hrest, List.append_nil]
    rw [AudioSink.Covers, havailable, or_iff_right hne]

theorem forall_silent_append {p : Playback} {c : Callback} :
    (∀ d ∈ p.returned ++ [c], d.Silent) ↔ (∀ d ∈ p.returned, d.Silent) ∧ c.Silent := by
  simp only [List.mem_append, List.mem_singleton, or_imp, forall_and, forall_eq]

theorem read_spec {p : Playback} (hp : Good p) (buffer : List UInt8) :
    Good (p.read buffer) ∧ ((∀ c ∈ (p.read buffer).returned, c.Silent) ↔
      (∀ c ∈ p.returned, c.Silent) ∧ p.sink.Covers buffer) := by
  obtain ⟨hwritten, hopen, ⟨hbefore, hafter, hreturned⟩ | ⟨copied, hcopies⟩⟩ := read_cases hp buffer
  · refine ⟨⟨?_, hopen⟩, ?_⟩
    · rw [hwritten, hp.written, played, played, hreturned, hbefore, hafter]
    · rw [hreturned]
      exact (and_iff_left (.inl hbefore)).symm
  · refine ⟨⟨?_, hopen⟩, ?_⟩
    · rw [hwritten, hp.written, hcopies.available, ← List.append_assoc]
      exact congrArg (· ++ _) (played_append hcopies.returned).symm
    · rw [hcopies.returned, forall_silent_append, hcopies.silent_iff_covers]

theorem pushed_spec {p : Playback} {sink : AudioSink} (hp : Good p) (hsink : sink.input = p.sink.input)
    (data : List UInt8) :
    Good (p.pushed sink data (sink.push data)) ∧ (p.pushed sink data (sink.push data)).returned = p.returned := by
  have hopen : sink.input.in_queue_.closed_ = false := hsink ▸ hp.not_closed
  cases hpush : sink.push data with
  | none => exact ⟨⟨hsink ▸ hp.written, hopen⟩, rfl⟩
  | some sink' =>
    obtain ⟨havailable, hopen'⟩ := push_spec hopen hpush
    refine ⟨⟨?_, hopen'⟩, rfl⟩
    show p.written ++ data = p.played ++ sink'.input.available
    rw [havailable, hsink, hp.written, List.append_assoc]

/-- Every step keeps what was written, and leaves no noise exactly when the buffer was covered. -/
theorem step_spec {p p' : Playback} {op : PlaybackOp} (hp : Good p) (h : playback.step p op = some p') :
    Good p' ∧ ((∀ c ∈ p'.returned, c.Silent) ↔ (∀ c ∈ p.returned, c.Silent) ∧ p.Covered op) := by
  cases op with
  | write_data opened data =>
    obtain ⟨-, rfl⟩ := of_guard_eq_some h
    rw [write_data_eq_push _ opened.2]
    obtain ⟨hgood, hreturned⟩ := pushed_spec hp (connect_audio_of_ne_zero p.sink opened.2).2 data
    exact ⟨hgood, hreturned ▸ (and_iff_left trivial).symm⟩
  | write_wakes =>
    obtain ⟨data, -, rfl⟩ := Option.map_eq_some_iff.mp h
    obtain ⟨hgood, hreturned⟩ := pushed_spec hp rfl data
    exact ⟨hgood, hreturned ▸ (and_iff_left trivial).symm⟩
  | on_data_requested buffer =>
    obtain ⟨hguard, rfl⟩ := of_guard_eq_some h
    have hcovered : p.Covered (.on_data_requested buffer) ↔ p.sink.Covers buffer := forall_prop_of_true hguard
    rw [hcovered]
    exact read_spec hp buffer
  | read_wakes =>
    obtain ⟨buffer, hbuffer, rfl⟩ := Option.map_eq_some_iff.mp h
    have hcovered : p.Covered .read_wakes ↔ p.sink.Covers buffer := by
      rw [Covered, hbuffer]
      exact ⟨fun hall => hall buffer rfl, fun hc b hb => Option.some.inj hb ▸ hc⟩
    rw [hcovered]
    exact read_spec hp buffer

theorem covered_of_step_eq_none {p : Playback} {op : PlaybackOp} (h : playback.step p op = none) : p.Covered op := by
  cases op with
  | write_data opened data => trivial
  | write_wakes => trivial
  | on_data_requested buffer =>
    intro hguard
    cases (if_pos hguard).symm.trans h
  | read_wakes =>
    intro buffer hbuffer
    rw [Option.map_eq_none_iff.mp h] at hbuffer
    cases hbuffer

theorem Good.lossless_iff {p : Playback} (hp : Good p) : Lossless p ↔ ∀ c ∈ p.returned, c.Silent :=
  ⟨Lossless.silent, fun h => ⟨⟨_, hp.written.symm⟩, h⟩⟩

/-- No audio is lost, repeated or reordered in any run. -/
theorem playback_played_prefix (ops : List PlaybackOp) :
    playback.AllStates (fun p => p.played <+: p.written) playback.init ops :=
  Machine.allStates_of_invariant (fun _ _ _ hp h => (step_spec hp h).1) (fun _ hp => ⟨_, hp.written.symm⟩) good_init

/-- In every run the playback is lossless exactly as long as no callback finds less audio than it wants, but some, and
noise in the rest of its buffer. -/
theorem playback_lossless_iff (ops : List PlaybackOp) :
    playback.AllStates Lossless playback.init ops ↔ playback.AllSteps Covered playback.init ops := by
  refine Machine.allStates_iff_allSteps_of_enabled (R := fun p => Good p ∧ Lossless p) (fun p hR => hR.2)
    (fun p op => covered_of_step_eq_none) ?_ ?_ ops playback.init ⟨good_init, ?_⟩
  · rintro p op p' ⟨hgood, hlossless⟩ hcovered h
    obtain ⟨hgood', hsilent⟩ := step_spec hgood h
    exact ⟨hgood', hgood'.lossless_iff.mpr (hsilent.mpr ⟨hlossless.silent, hcovered⟩)⟩
  · rintro p op p' ⟨hgood, -⟩ h hlossless'
    exact ((step_spec hgood h).2.mp hlossless'.silent).2
  · exact ⟨List.nil_prefix, fun c hc => absurd hc List.not_mem_nil⟩

/-- Two bytes are written. -/
def twoBytes : Playback := { sink := (AudioSink.new.write_data 2 [1, 2]).getD .new, written := [1, 2] }

/-- A callback wants four bytes, and plays the last two of its buffer as they are. -/
theorem playback_not_lossless : ¬∀ ops, playback.AllStates Lossless playback.init ops := by
  intro h
  have hrun := h [.write_data ⟨2, by decide⟩ [1, 2], .on_data_requested [9, 9, 9, 9]]
  have hstep : playback.step playback.init (.write_data ⟨2, by decide⟩ [1, 2]) = some twoBytes := rfl
  have hread : playback.step twoBytes (.on_data_requested [9, 9, 9, 9]) = some (twoBytes.read [9, 9, 9, 9]) := rfl
  have hgood : Good twoBytes := (step_spec good_init hstep).1
  have hsilent := ((hrun.2 _ hstep).2 _ hread).silent
  have hcovers := ((read_spec hgood _).2.mp hsilent).2
  have havailable : twoBytes.sink.input.available = [1, 2] := rfl
  rw [AudioSink.Covers, havailable] at hcovers
  exact absurd hcovers (by decide)

end Playback

end AnboxReboxed.Sdl
