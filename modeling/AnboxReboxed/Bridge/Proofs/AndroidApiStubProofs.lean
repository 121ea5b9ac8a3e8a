import AnboxReboxed.Bridge.AndroidApiStub

/-!
# A call returns for its own response

`received` and `expecting` differ by the calls whose closure has not run: when they are equal, the
closure of the call that waits has run, and unless a failed send ran it its response was processed. The
other way out of the wait is its limit, after which only `received` being zero makes the call fail.
-/

namespace AnboxReboxed.Bridge

open AnboxReboxed.Lib

namespace AndroidApiStub

variable {s s' : AndroidApiStub} {m : Method} {k : Nat}

/-- The counters are those of the closures. -/
structure Counted (s : AndroidApiStub) : Prop where
  count : ∀ m, (s.handles m).received + (s.outstanding m).length = (s.handles m).expecting
  below : ∀ m, ∀ k ∈ s.outstanding m, k < (s.handles m).expecting
  nodup : ∀ m, (s.outstanding m).Nodup
  registered : ∀ call ∈ s.pending, call.2 ∈ s.outstanding call.1
  once : s.pending.Nodup

/-- What the calls under way rely on. -/
structure Attributed (s : AndroidApiStub) : Prop where
  fresh : ∀ m k, s.places m = .expected k → k ∈ s.outstanding m ∧ (m, k) ∉ s.pending
  answered : ∀ m k, (s.places m).call = some k → k ∉ s.outstanding m → .processed (m, k) ∈ s.history
  positive : ∀ m k, .processed (m, k) ∈ s.history → 0 < (s.handles m).received
  decided : ∀ m k, s.Undecided m k → (s.handles m).received = 0
  justified : Justified OwnResponse s.history

@[simp] theorem setPlace_places (s : AndroidApiStub) (m m' : Method) (p : StubPlace) :
    (s.setPlace m p).places m' = if m' = m then p else s.places m' := by
  simp [setPlace, Function.update_apply]

@[simp] theorem runClosure_handles (s : AndroidApiStub) (call : CallId) (m : Method) :
    (s.runClosure call).handles m = if m = call.1 then (s.handles m).result_received else s.handles m := by
  simp only [runClosure, Function.update_apply]
  grind

@[simp] theorem runClosure_outstanding (s : AndroidApiStub) (call : CallId) (m : Method) :
    (s.runClosure call).outstanding m =
      if m = call.1 then (s.outstanding m).erase call.2 else s.outstanding m := by
  simp only [runClosure, Function.update_apply]
  grind

theorem Counted.setPlace (hs : s.Counted) (m : Method) (p : StubPlace) : (s.setPlace m p).Counted :=
  ⟨hs.1, hs.2, hs.3, hs.4, hs.5⟩

/-- `t` is `s` after the closures of the calls in `l` have run. -/
structure Completed (l : List CallId) (s t : AndroidApiStub) : Prop where
  places : t.places = s.places
  history : t.history = s.history
  expecting : ∀ m, (t.handles m).expecting = (s.handles m).expecting
  count : ∀ m, (t.handles m).received + (t.outstanding m).length =
    (s.handles m).received + (s.outstanding m).length
  le : ∀ m, (s.handles m).received ≤ (t.handles m).received
  nodup : ∀ m, (t.outstanding m).Nodup
  mem : ∀ m k, k ∈ t.outstanding m ↔ k ∈ s.outstanding m ∧ (m, k) ∉ l
  untouched : ∀ m, (∀ k, (m, k) ∉ l) → t.handles m = s.handles m

theorem completed_one {call : CallId} (hnodup : ∀ m, (s.outstanding m).Nodup)
    (hmem : call.2 ∈ s.outstanding call.1) : Completed [call] s (s.runClosure call) := by
  obtain ⟨m, k⟩ := call
  have hlen := List.length_erase_of_mem hmem
  have hpos := List.length_pos_of_mem hmem
  refine ⟨rfl, rfl, ?_, ?_, ?_, ?_, ?_, ?_⟩
  · grind [runClosure_handles, WaitHandle.result_received]
  · intro m'
    simp only [runClosure_handles, runClosure_outstanding]
    split
    · rename_i he
      subst he
      simp only [WaitHandle.result_received]
      simp only at hlen hpos
      omega
    · rfl
  · grind [runClosure_handles, WaitHandle.result_received]
  · intro m'
    rw [runClosure_outstanding]
    split
    · exact (hnodup m').erase k
    · exact hnodup m'
  · intro m' k'
    rw [runClosure_outstanding]
    split
    · rename_i he
      subst he
      rw [(hnodup m').mem_erase_iff]
      grind
    · grind
  · intro m' hnot
    have hne : m' ≠ m := fun he => hnot k (by simp [he])
    simp [hne]

theorem Completed.trans {l l' : List CallId} {t u : AndroidApiStub} (h1 : Completed l s t)
    (h2 : Completed l' t u) : Completed (l ++ l') s u := by
  refine ⟨h2.places.trans h1.places, h2.history.trans h1.history, ?_, ?_, ?_, h2.nodup, ?_, ?_⟩
  · exact fun m => (h2.expecting m).trans (h1.expecting m)
  · exact fun m => (h2.count m).trans (h1.count m)
  · exact fun m => Nat.le_trans (h1.le m) (h2.le m)
  · intro m k
    rw [h2.mem, h1.mem, List.mem_append]
    tauto
  · intro m hnot
    have hnot1 : ∀ k, (m, k) ∉ l := fun k hk => hnot k (List.mem_append_left l' hk)
    have hnot2 : ∀ k, (m, k) ∉ l' := fun k hk => hnot k (List.mem_append_right l hk)
    exact (h2.untouched m hnot2).trans (h1.untouched m hnot1)

/-- `force_completion` runs the closures one after the other. -/
theorem completed_foldl (l : List CallId) : ∀ s : AndroidApiStub, (∀ m, (s.outstanding m).Nodup) →
    l.Nodup → (∀ call ∈ l, call.2 ∈ s.outstanding call.1) → Completed l s (l.foldl runClosure s) := by
  induction l with
  | nil =>
    intro s hnodup _ _
    refine ⟨rfl, rfl, fun _ => rfl, fun _ => rfl, fun _ => Nat.le_refl _, hnodup, ?_, fun _ _ => rfl⟩
    simp
  | cons call l ih =>
    intro s hnodup hl hmem
    obtain ⟨hcall, hl⟩ := List.nodup_cons.mp hl
    have hone := completed_one hnodup (hmem call List.mem_cons_self)
    have hrest := ih (s.runClosure call) hone.nodup hl ?_
    · exact hone.trans hrest
    · intro call' hc'
      rw [hone.mem]
      refine ⟨hmem call' (List.mem_cons_of_mem call hc'), ?_⟩
      intro he
      rw [List.mem_singleton] at he
      exact hcall (he ▸ hc')

def Sound (s : AndroidApiStub) : Prop := s.Counted ∧ s.Attributed

/-- A call that goes on, or that throws. -/
theorem Sound.move {p : StubPlace} (hs : s.Sound) (hcall : ∀ k, p.call = some k → (s.places m).call = some k)
    (hearly : ∀ k, p ≠ .expected k) (hlast : ∀ k, p = .waited k → .processed (m, k) ∉ s.history →
      (s.handles m).received = 0) : (s.setPlace m p).Sound := by
  obtain ⟨hc, hfresh, hanswered, hpositive, hdecided, hjustified⟩ := hs
  refine ⟨hc.setPlace m p, ?_, ?_, hpositive, ?_, hjustified⟩
  · intro m' k hk
    grind [setPlace_places, AndroidApiStub.setPlace]
  · intro m' k hk
    grind [setPlace_places, AndroidApiStub.setPlace]
  · rintro m' k ⟨hk, hp⟩
    rw [setPlace_places] at hk
    split at hk
    · rename_i he
      subst he
      exact hlast k hk hp
    · exact hdecided m' k ⟨hk, hp⟩

theorem Sound.begin (hs : s.Sound) (hm : s.places m = .idle) :
    Sound { s.setPlace m (.expected (s.handles m).expecting) with
        handles := Function.update s.handles m (s.handles m).expect_result
        outstanding := Function.update s.outstanding m ((s.handles m).expecting :: s.outstanding m) } := by
  obtain ⟨⟨hcount, hbelow, hnodup, hregistered, honce⟩, hfresh, hanswered, hpositive, hdecided, hjustified⟩ := hs
  have hnew : (s.handles m).expecting ∉ s.outstanding m := fun hk => Nat.lt_irrefl _ (hbelow m _ hk)
  refine ⟨⟨?_, ?_, ?_, ?_, honce⟩, ?_, ?_, ?_, ?_, hjustified⟩
  · intro m'
    have hold := hcount m'
    simp only [Function.update_apply]
    split
    · rename_i he
      subst he
      simp only [WaitHandle.expect_result, List.length_cons]
      omega
    · exact hold
  · intro m' k hk
    have hold := hbelow m'
    simp only [Function.update_apply] at hk ⊢
    grind [WaitHandle.expect_result]
  · intro m'
    simp only [Function.update_apply]
    grind
  · intro call hcall
    have hold := hregistered call hcall
    simp only [Function.update_apply]
    grind
  · intro m' k hk
    simp only [setPlace_places] at hk
    simp only [Function.update_apply, AndroidApiStub.setPlace]
    grind
  · intro m' k hk hout
    simp only [setPlace_places] at hk
    simp only [Function.update_apply, AndroidApiStub.setPlace] at hout ⊢
    grind [StubPlace.call]
  · intro m' k hk
    have hold := hpositive m' k hk
    simp only [Function.update_apply]
    grind [WaitHandle.expect_result]
  · rintro m' k ⟨hk, hp⟩
    simp only [setPlace_places] at hk
    split at hk
    · cases hk
    · rename_i hne
      simp only [Function.update_apply, if_neg hne]
      exact hdecided m' k ⟨hk, hp⟩

theorem Sound.register (hs : s.Sound) (hm : s.places m = .expected k) :
    Sound { s.setPlace m (.sending k) with pending := s.pending ++ [(m, k)] } := by
  obtain ⟨hout, hnew⟩ := hs.2.fresh m k hm
  obtain ⟨⟨hcount, hbelow, hnodup, hregistered, honce⟩, hfresh, hanswered, hpositive, hdecided, hjustified⟩ := hs
  refine ⟨⟨hcount, hbelow, hnodup, ?_, ?_⟩, ?_, ?_, hpositive, ?_, hjustified⟩
  · intro call hcall
    rcases List.mem_append.mp hcall with hcall | hcall
    · exact hregistered call hcall
    · rw [List.mem_singleton] at hcall
      subst hcall
      exact hout
  · rw [List.nodup_append]
    grind
  · intro m' k' hk
    simp only [setPlace_places] at hk
    simp only [AndroidApiStub.setPlace]
    grind
  · intro m' k' hk
    simp only [setPlace_places] at hk
    simp only [AndroidApiStub.setPlace]
    grind [StubPlace.call]
  · rintro m' k' ⟨hk, hp⟩
    simp only [setPlace_places] at hk
    split at hk
    · cases hk
    · exact hdecided m' k' ⟨hk, hp⟩

/-- Closures run, each of a registered call. -/
theorem Counted.completed {l : List CallId} {t : AndroidApiStub} (hs : s.Counted) (ht : Completed l s t) :
    (∀ m, (t.handles m).received + (t.outstanding m).length = (t.handles m).expecting) ∧
      (∀ m, ∀ k ∈ t.outstanding m, k < (t.handles m).expecting) := by
  constructor
  · intro m
    rw [ht.count, ht.expecting]
    exact hs.count m
  · intro m k hk
    rw [ht.expecting]
    exact hs.below m k ((ht.mem m k).mp hk).1

theorem Sound.respond (hs : s.Sound) {call : CallId} (hcall : call ∈ s.pending) (error : Bool)
    (hC : s.Timely (.respond call error)) :
    Sound { s.runClosure call with
        pending := s.pending.erase call
        errors := if error then call :: s.errors else s.errors
        history := s.history ++ [.processed call] } := by
  have hone := completed_one hs.1.nodup (hs.1.registered call hcall)
  obtain ⟨hcount', hbelow'⟩ := hs.1.completed hone
  obtain ⟨⟨hcount, hbelow, hnodup, hregistered, honce⟩, hfresh, hanswered, hpositive, hdecided, hjustified⟩ := hs
  obtain ⟨m, k⟩ := call
  refine ⟨⟨hcount', hbelow', hone.nodup, ?_, honce.erase _⟩, ?_, ?_, ?_, ?_, hjustified.snoc trivial⟩
  · intro call' hc'
    rw [honce.mem_erase_iff] at hc'
    refine (hone.mem _ _).mpr ⟨hregistered call' hc'.2, ?_⟩
    simpa using hc'.1
  · intro m' k' hk
    obtain ⟨hk1, hk2⟩ := hfresh m' k' hk
    refine ⟨(hone.mem _ _).mpr ⟨hk1, ?_⟩, fun hp => hk2 (List.mem_of_mem_erase hp)⟩
    intro he
    rw [List.mem_singleton] at he
    exact hk2 (he ▸ hcall)
  · intro m' k' hk hout
    rw [hone.mem] at hout
    by_cases hin : k' ∈ s.outstanding m'
    · have he : (m', k') ∈ [(m, k)] := by
        by_contra hne
        exact hout ⟨hin, hne⟩
      rw [List.mem_singleton] at he
      simp [he]
    · exact List.mem_append_left _ (hanswered m' k' hk hin)
  · intro m' k' hk
    have hle := hone.le m'
    rcases List.mem_append.mp hk with hk | hk
    · exact Nat.lt_of_lt_of_le (hpositive m' k' hk) hle
    · cases List.mem_singleton.mp hk
      simp [WaitHandle.result_received]
  · rintro m' k' ⟨hk, hp⟩
    have hold : .processed (m', k') ∉ s.history := fun hm => hp (List.mem_append_left _ hm)
    by_cases hmm : m' = m
    · subst hmm
      obtain rfl : k' = k := hC k' ⟨hk, hold⟩
      exact absurd (by simp) hp
    · have hsame := hone.untouched m' (by simp [hmm])
      change ((s.runClosure (m, k)).handles m').received = 0
      rw [hsame]
      exact hdecided m' k' ⟨hk, hold⟩

theorem Sound.fail (hs : s.Sound) (hC : s.Timely (.fail m)) :
    (s.force_completion.setPlace m .idle).Sound := by
  have hall := completed_foldl s.pending s hs.1.nodup hs.1.once hs.1.registered
  obtain ⟨hcount', hbelow'⟩ := hs.1.completed hall
  obtain ⟨⟨hcount, hbelow, hnodup, hregistered, honce⟩, hfresh, hanswered, hpositive, hdecided, hjustified⟩ := hs
  have hplaces : ∀ m', (s.force_completion.setPlace m .idle).places m' =
      if m' = m then .idle else s.places m' := by
    intro m'
    rw [setPlace_places]
    exact congrArg (fun p => if m' = m then StubPlace.idle else p) (congrFun hall.places m')
  have hhistory : (s.force_completion.setPlace m .idle).history = s.history := hall.history
  refine ⟨⟨hcount', hbelow', hall.nodup, ?_, List.nodup_nil⟩, ?_, ?_, ?_, ?_, ?_⟩
  · exact fun call hc => absurd hc List.not_mem_nil
  · intro m' k' hk
    rw [hplaces] at hk
    split at hk
    · cases hk
    · obtain ⟨hk1, hk2⟩ := hfresh m' k' hk
      exact ⟨(hall.mem m' k').mpr ⟨hk1, hk2⟩, List.not_mem_nil⟩
  · intro m' k' hk hout
    rw [hplaces] at hk
    rw [hhistory]
    split at hk
    · cases hk
    · rename_i hne
      -- the call under way is none of those that were completed
      have hnot : (m', k') ∉ s.pending := fun hp => (hC (m', k') hp hne).1 hk
      apply hanswered m' k' hk
      intro hin
      exact hout ((hall.mem m' k').mpr ⟨hin, hnot⟩)
  · intro m' k' hk
    rw [hhistory] at hk
    exact Nat.lt_of_lt_of_le (hpositive m' k' hk) (hall.le m')
  · rintro m' k' ⟨hk, hp⟩
    rw [hplaces] at hk
    rw [hhistory] at hp
    split at hk
    · cases hk
    · rename_i hne
      have hnone : ∀ k, (m', k) ∉ s.pending := fun k'' hp' => (hC (m', k'') hp' hne).2 k' ⟨hk, hp⟩
      have hsame := hall.untouched m' hnone
      change ((s.pending.foldl runClosure s).handles m').received = 0
      rw [hsame]
      exact hdecided m' k' ⟨hk, hp⟩
  · rw [hhistory]
    exact hjustified

theorem Sound.finish (hs : s.Sound) (hm : s.places m = .waited k) : (s.finish m k).Sound := by
  have hmove : (s.setPlace m .idle).Sound := hs.move (by simp [StubPlace.call]) (by simp) (by simp)
  obtain ⟨hc, hfresh, hanswered, hpositive, hdecided, hjustified⟩ := hmove
  have hevent : ∀ call, StubEvent.processed call ∈ (s.finish m k).history ↔ .processed call ∈ s.history := by
    intro call
    simp only [AndroidApiStub.finish, List.mem_append, List.mem_singleton]
    grind
  refine ⟨⟨hc.1, hc.2, hc.3, hc.4, hc.5⟩, hfresh, ?_, ?_, ?_, ?_⟩
  · intro m' k' hk hout
    rw [hevent]
    exact hanswered m' k' hk hout
  · intro m' k' hk
    rw [hevent] at hk
    exact hpositive m' k' hk
  · rintro m' k' ⟨hk, hp⟩
    rw [hevent] at hp
    exact hdecided m' k' ⟨hk, hp⟩
  · apply Justified.snoc hjustified
    change OwnResponse s.history _
    split
    · rename_i hres
      intro hp
      have hpos := hs.2.positive m k hp
      simp [WaitHandle.has_result] at hres
      omega
    · rename_i hres
      split
      · trivial
      · -- a call that returns found a result, so that it was not undecided
        by_contra hp
        have hzero := hs.2.decided m k ⟨hm, hp⟩
        simp [WaitHandle.has_result, hzero] at hres

theorem Sound.step {op : StubOp} (hs : s.Sound) (hC : s.Timely op) (h : s.step op = some s') : s'.Sound := by
  cases op with
  | begin m =>
    simp only [AndroidApiStub.step, Option.ite_none_right_eq_some, Option.some.injEq] at h
    obtain ⟨hm, rfl⟩ := h
    exact hs.begin hm
  | register m =>
    simp only [AndroidApiStub.step] at h
    split at h
    · rename_i k hm
      cases h
      exact hs.register hm
    · cases h
  | refuse m =>
    simp only [AndroidApiStub.step] at h
    split at h
    · cases h
      exact hs.move (by simp [StubPlace.call]) (by simp) (by simp)
    · cases h
      exact hs.move (by simp [StubPlace.call]) (by simp) (by simp)
    · cases h
  | sent m =>
    simp only [AndroidApiStub.step] at h
    split at h
    · rename_i k hm
      cases h
      exact hs.move (by simp [hm, StubPlace.call]) (by simp) (by simp)
    · cases h
  | fail m =>
    simp only [AndroidApiStub.step] at h
    split at h
    · cases h
      exact hs.fail hC
    · cases h
  | respond call error =>
    simp only [AndroidApiStub.step, Option.ite_none_right_eq_some, Option.some.injEq] at h
    obtain ⟨hcall, rfl⟩ := h
    exact hs.respond hcall error hC
  | wake m =>
    simp only [AndroidApiStub.step] at h
    split at h
    · rename_i k hm
      simp only [Option.ite_none_right_eq_some, Option.some.injEq] at h
      obtain ⟨hcomplete, rfl⟩ := h
      refine hs.move (by simp [hm, StubPlace.call]) (by simp) ?_
      -- all closures of the method have run, that of this call among them
      intro k' hk' hp
      cases hk'
      have hcount := hs.1.count m
      simp only [WaitHandle.complete, decide_eq_true_eq] at hcomplete
      have hnil : s.outstanding m = [] := List.length_eq_zero_iff.mp (by omega)
      exact absurd (hs.2.answered m k (by simp [hm, StubPlace.call]) (by simp [hnil])) hp
    · cases h
  | limit m =>
    simp only [AndroidApiStub.step] at h
    split at h
    · rename_i k hm
      cases h
      refine hs.move (by simp [hm, StubPlace.call]) (by simp) ?_
      intro k' hk' hp
      cases hk'
      exact hC k hm hp
    · cases h
  | finish m =>
    simp only [AndroidApiStub.step] at h
    split at h
    · rename_i k hm
      cases h
      exact hs.finish hm
    · cases h

theorem sound_init : (stubMachine.init).Sound := by
  refine ⟨⟨?_, ?_, ?_, ?_, List.nodup_nil⟩, ?_, ?_, ?_, ?_, justified_nil⟩
  all_goals simp [stubMachine, StubPlace.call, Undecided]

end AndroidApiStub

end AnboxReboxed.Bridge
