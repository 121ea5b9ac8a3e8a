import AnboxReboxed.Bridge.ApiCalls
import AnboxReboxed.Lib.Proofs.OrdMapProofs
import Mathlib.Data.List.Nodup

/-!
# Proofs: entries and their calls

A handle counts the calls whose closure has not run. When it is complete, none of them is left, so that a
call that wakes up has no entry any more. Calls that give up have to take their entry back.
-/

namespace AnboxReboxed.Bridge

open AnboxReboxed.Lib OrdMap AnboxReboxed.Rpc

/-- The call is not yet registered. -/
def ApiPlace.early : ApiPlace → Bool
  | .absent | .expected | .loaded _ | .numbered _ => true
  | _ => false

namespace ApiCalls

variable {s s' : ApiCalls} {c : Nat}

/-- The call was registered, and its closure has not run. -/
def Entered (s : ApiCalls) (c : Nat) : Prop :=
  c ∈ s.outstanding (s.handleOf c) ∧ (s.places c).early = false

/-- The calls that a handle counts are those it has no result for, and each of them has at most one entry
or one `Result` that runs its closure. -/
structure Counted (s : ApiCalls) : Prop where
  count : ∀ h, (s.handles h).received + (s.outstanding h).length = (s.handles h).expecting
  nodup : ∀ h, (s.outstanding h).Nodup
  member : ∀ h c, c ∈ s.outstanding h → h = s.handleOf c ∧ s.places c ≠ .absent
  expected : ∀ c, (s.places c).early = true → s.places c ≠ .absent → c ∈ s.outstanding (s.handleOf c)
  entry : ∀ ch k c, (s.pending_calls_ ch).find? k = some c → s.Entered c ∧ ch = s.channels c
  erased : ∀ n c, s.results n = .completing c → s.Entered c ∧ ¬s.Pending c
  once : ∀ ch k k' c, (s.pending_calls_ ch).find? k = some c → (s.pending_calls_ ch).find? k' = some c → k = k'
  single : ∀ n n' c, s.results n = .completing c → s.results n' = .completing c → n = n'

/-- No entry points to a call that is over. -/
structure Fresh (s : ApiCalls) : Prop where
  free : ∀ c, s.places c = .answered ∨ s.places c = .ended → ¬s.Pending c
  gone : ∀ c, .ended c ∈ s.history → s.places c = .ended
  written : Justified BeforeEnd s.history

def Ok (s : ApiCalls) : Prop := s.Counted ∧ s.Fresh

theorem Ok.noStaleEntries (hs : s.Ok) : s.NoStaleEntries := by
  refine ⟨fun c hp => ?_, hs.2.written⟩
  have hover := fun h => hs.2.free c h hp
  obtain ⟨ch, k, hfind⟩ := hp
  obtain ⟨⟨-, hearly⟩, -⟩ := hs.1.entry ch k c hfind
  refine ⟨fun h => ?_, fun h => hover (Or.inr h)⟩
  rw [h] at hearly
  cases hearly

theorem Counted.not_early (hs : s.Counted) (hp : s.Pending c) : (s.places c).early = false := by
  obtain ⟨ch, k, hfind⟩ := hp
  exact (hs.entry ch k c hfind).1.2

/-! ## A call goes on -/

theorem places_setPlace (s : ApiCalls) (c c' : Nat) (p : ApiPlace) :
    (s.setPlace c p).places c' = if c' = c then p else s.places c' := Function.update_apply ..

/-- The place of a call that was begun changes, and it does not become unregistered again. -/
theorem Counted.setPlace {p : ApiPlace} (hs : s.Counted) (hbegun : s.places c ≠ .absent) (hp : p ≠ .absent)
    (hearly : p.early = true → (s.places c).early = true) : (s.setPlace c p).Counted := by
  have hentered : ∀ c', s.Entered c' → (s.setPlace c p).Entered c' := by
    intro c' ⟨hmem, hlate⟩
    refine ⟨hmem, ?_⟩
    rw [places_setPlace]
    split_ifs with he
    · subst he
      cases hpe : p.early with
      | false => rfl
      | true =>
        rw [hearly hpe] at hlate
        cases hlate
    · exact hlate
  refine ⟨hs.count, hs.nodup, fun h c' hc' => ?_, fun c' hc' hne => ?_, fun ch k c' hfind => ?_,
    fun n c' hn => ?_, hs.once, hs.single⟩
  · obtain ⟨hh, hne⟩ := hs.member h c' hc'
    refine ⟨hh, ?_⟩
    rw [places_setPlace]
    split_ifs
    · exact hp
    · exact hne
  · rw [places_setPlace] at hc' hne
    split_ifs at hc' hne with he
    · subst he
      exact hs.expected c' (hearly hc') hbegun
    · exact hs.expected c' hc' hne
  · obtain ⟨he, hch⟩ := hs.entry ch k c' hfind
    exact ⟨hentered c' he, hch⟩
  · obtain ⟨he, hnot⟩ := hs.erased n c' hn
    exact ⟨hentered c' he, hnot⟩

theorem Ok.setPlace {p : ApiPlace} (hs : s.Ok) (hbegun : s.places c ≠ .absent) (hp : p ≠ .absent)
    (hearly : p.early = true → (s.places c).early = true) (hlive : s.places c ≠ .ended)
    (hover : p = .answered ∨ p = .ended → ¬s.Pending c) : (s.setPlace c p).Ok := by
  refine ⟨hs.1.setPlace hbegun hp hearly, fun c' hc' => ?_, fun c' hc' => ?_, hs.2.written⟩
  · rw [places_setPlace] at hc'
    split_ifs at hc' with he
    · subst he
      exact hover hc'
    · exact hs.2.free c' hc'
  · have hended := hs.2.gone c' hc'
    rw [places_setPlace]
    split_ifs with he
    · subst he
      exact absurd hended hlive
    · exact hended

/-- A call that has no entry may end. -/
theorem Ok.finish (hs : s.Ok) (hbegun : s.places c ≠ .absent) (hnot : ¬s.Pending c) : (s.finish c).Ok := by
  have hplace : ∀ c', (s.finish c).places c' = if c' = c then .ended else s.places c' :=
    fun c' => places_setPlace s c c' .ended
  have hcounted : (s.setPlace c .ended).Counted := hs.1.setPlace hbegun (fun h => nomatch h) (fun h => nomatch h)
  refine ⟨⟨hcounted.count, hcounted.nodup, hcounted.member, hcounted.expected, hcounted.entry,
    hcounted.erased, hcounted.once, hcounted.single⟩, fun c' hc' => ?_, fun c' hc' => ?_,
    hs.2.written.snoc trivial⟩
  · rw [hplace] at hc'
    split_ifs at hc' with he
    · subst he
      exact hnot
    · exact hs.2.free c' hc'
  · rw [hplace]
    split_ifs with he
    · rfl
    · refine hs.2.gone c' ?_
      rcases List.mem_append.mp hc' with hold | hnew
      · exact hold
      · cases List.mem_singleton.mp hnew
        exact absurd rfl he

/-! ## Closures -/

/-- `t` is `s` after the closures of the calls in `l` have run. -/
structure Ran (l : List Nat) (s t : ApiCalls) : Prop where
  same : t = { s with handles := t.handles, outstanding := t.outstanding }
  expecting : ∀ h, (t.handles h).expecting = (s.handles h).expecting
  count : ∀ h, (t.handles h).received + (t.outstanding h).length =
    (s.handles h).received + (s.outstanding h).length
  nodup : ∀ h, (t.outstanding h).Nodup
  mem : ∀ h c, c ∈ t.outstanding h ↔ c ∈ s.outstanding h ∧ c ∉ l

theorem ran_one (hnodup : ∀ h, (s.outstanding h).Nodup)
    (hmember : ∀ h c, c ∈ s.outstanding h → h = s.handleOf c) (hc : c ∈ s.outstanding (s.handleOf c)) :
    Ran [c] s (s.runClosure c) := by
  have hhandles : ∀ h, (s.runClosure c).handles h =
      if h = s.handleOf c then (s.handles (s.handleOf c)).result_received else s.handles h :=
    fun h => Function.update_apply ..
  have houtstanding : ∀ h, (s.runClosure c).outstanding h =
      if h = s.handleOf c then (s.outstanding (s.handleOf c)).erase c else s.outstanding h :=
    fun h => Function.update_apply ..
  refine ⟨rfl, fun h => ?_, fun h => ?_, fun h => ?_, fun h c' => ?_⟩
  · rw [hhandles]
    split_ifs with he
    · rw [he]
      rfl
    · rfl
  · rw [hhandles, houtstanding]
    split_ifs with he
    · have hlen := List.length_erase_of_mem hc
      have hpos := List.length_pos_of_mem hc
      rw [he, hlen]
      simp only [WaitHandle.result_received]
      omega
    · rfl
  · rw [houtstanding]
    split_ifs
    · exact (hnodup _).erase c
    · exact hnodup h
  · rw [houtstanding, List.mem_singleton]
    split_ifs with he
    · rw [he, (hnodup _).mem_erase_iff, and_comm]
    · refine ⟨fun hm => ⟨hm, fun hcc => ?_⟩, And.left⟩
      rw [hcc] at hm
      exact he (hmember h c hm)

theorem Ran.trans {l l' : List Nat} {t u : ApiCalls} (h1 : Ran l s t) (h2 : Ran l' t u) :
    Ran (l ++ l') s u := by
  refine ⟨?_, fun h => (h2.expecting h).trans (h1.expecting h), fun h => (h2.count h).trans (h1.count h),
    h2.nodup, fun h c => ?_⟩
  · rw [h2.same, h1.same]
  · rw [h2.mem, h1.mem, List.mem_append]
    tauto

/-- The closures run one after the other. -/
theorem ran_foldl (l : List Nat) : ∀ s : ApiCalls, (∀ h, (s.outstanding h).Nodup) →
    (∀ h c, c ∈ s.outstanding h → h = s.handleOf c) → l.Nodup → (∀ c ∈ l, c ∈ s.outstanding (s.handleOf c)) →
    Ran l s (l.foldl runClosure s) := by
  induction l with
  | nil =>
    intro s hnodup _ _ _
    exact ⟨rfl, fun _ => rfl, fun _ => rfl, hnodup, by simp⟩
  | cons c l ih =>
    intro s hnodup hmember hl hmem
    obtain ⟨hc, hl⟩ := List.nodup_cons.mp hl
    have hone := ran_one hnodup hmember (hmem c List.mem_cons_self)
    have hrest := ih (s.runClosure c) hone.nodup (fun h c' hc' => hmember h c' ((hone.mem h c').mp hc').1) hl ?_
    · exact hone.trans hrest
    · intro c' hc'
      refine (hone.mem _ c').mpr ⟨hmem c' (List.mem_cons_of_mem c hc'), fun he => ?_⟩
      rw [List.mem_singleton] at he
      exact hc (he ▸ hc')

/-- Closures of registered calls have run, and the calls have no entry and no `Result` any more. -/
theorem Counted.ran {l : List Nat} {t : ApiCalls} (hs : s.Counted) (hr : Ran l s t)
    (hlate : ∀ c ∈ l, (s.places c).early = false) {pending : Nat → OrdMap Int Nat}
    {results : Nat → ApiResult}
    (hpending : ∀ ch k c, (pending ch).find? k = some c → (s.pending_calls_ ch).find? k = some c ∧ c ∉ l)
    (hresults : ∀ n c, results n = .completing c → s.results n = .completing c ∧ c ∉ l) :
    Counted { t with pending_calls_ := pending, results } := by
  have hplaces : t.places = s.places := by rw [hr.same]
  have hmethods : t.methods = s.methods := by rw [hr.same]
  have hchannels : t.channels = s.channels := by rw [hr.same]
  have hhandle : ∀ c, t.handleOf c = s.handleOf c := fun c => by
    unfold handleOf
    rw [hmethods]
  have hentered : ∀ c, s.Entered c → c ∉ l → t.Entered c := by
    intro c ⟨hmem, hearly⟩ hc
    refine ⟨?_, by rw [hplaces]; exact hearly⟩
    rw [hhandle]
    exact (hr.mem _ c).mpr ⟨hmem, hc⟩
  refine ⟨fun h => ?_, hr.nodup, fun h c hc => ?_, fun c hc hne => ?_, fun ch k c hfind => ?_,
    fun n c hn => ?_, fun ch k k' c hk hk' => ?_, fun n n' c hn hn' => ?_⟩
  · rw [hr.count, hs.count, hr.expecting]
  · obtain ⟨hh, hne⟩ := hs.member h c ((hr.mem h c).mp hc).1
    refine ⟨hh.trans (hhandle c).symm, ?_⟩
    show t.places c ≠ _
    rw [hplaces]
    exact hne
  · replace hc : (t.places c).early = true := hc
    replace hne : t.places c ≠ .absent := hne
    rw [hplaces] at hc hne
    show c ∈ t.outstanding (t.handleOf c)
    rw [hhandle]
    refine (hr.mem _ c).mpr ⟨hs.expected c hc hne, fun hcl => ?_⟩
    rw [hlate c hcl] at hc
    cases hc
  · obtain ⟨hold, hcl⟩ := hpending ch k c hfind
    obtain ⟨he, hch⟩ := hs.entry ch k c hold
    refine ⟨hentered c he hcl, ?_⟩
    show ch = t.channels c
    rw [hchannels]
    exact hch
  · obtain ⟨hold, hcl⟩ := hresults n c hn
    obtain ⟨he, hnot⟩ := hs.erased n c hold
    refine ⟨hentered c he hcl, ?_⟩
    rintro ⟨ch, k, hfind⟩
    exact hnot ⟨ch, k, (hpending ch k c hfind).1⟩
  · exact hs.once ch k k' c (hpending ch k c hk).1 (hpending ch k' c hk').1
  · exact hs.single n n' c (hresults n c hn).1 (hresults n' c hn').1

/-- Fewer entries, and no other change that matters to calls that are over. -/
theorem Fresh.shrink {t : ApiCalls} (hs : s.Fresh) (hplaces : t.places = s.places)
    (hhistory : t.history = s.history) (hpending : ∀ c, t.Pending c → s.Pending c) : t.Fresh := by
  refine ⟨fun c hc hp => ?_, fun c hc => ?_, hhistory ▸ hs.written⟩
  · rw [hplaces] at hc
    exact hs.free c hc (hpending c hp)
  · rw [hplaces]
    rw [hhistory] at hc
    exact hs.gone c hc

theorem closures_nodup (hs : s.Counted) (ch : Nat) : (s.closures ch).Nodup := by
  have hentries : (s.pending_calls_ ch).entries.Nodup := List.Nodup.of_map _ (keys_nodup (s.pending_calls_ ch))
  refine List.Nodup.map_on (fun e he e' he' heq => ?_) hentries
  have hk : e.1 = e'.1 := by
    refine hs.once ch e.1 e'.1 e.2 (find?_eq_some_iff.mpr he) ?_
    rw [heq]
    exact find?_eq_some_iff.mpr he'
  exact Prod.ext hk heq

theorem mem_closures {ch : Nat} : c ∈ s.closures ch ↔ ∃ k, (s.pending_calls_ ch).find? k = some c := by
  constructor
  · intro hc
    obtain ⟨e, he, rfl⟩ := List.mem_map.mp hc
    exact ⟨e.1, find?_eq_some_iff.mpr he⟩
  · rintro ⟨k, hk⟩
    exact List.mem_map.mpr ⟨(k, c), find?_eq_some_iff.mp hk, rfl⟩

theorem Ok.force_completion (hs : s.Ok) (ch : Nat) : (s.force_completion ch).Ok := by
  have hran : Ran (s.closures ch) s ((s.closures ch).foldl runClosure s) := by
    refine ran_foldl _ s hs.1.nodup (fun h c hc => (hs.1.member h c hc).1) (closures_nodup hs.1 ch) ?_
    intro c hc
    obtain ⟨k, hk⟩ := mem_closures.mp hc
    exact (hs.1.entry ch k c hk).1.1
  have hlate : ∀ c ∈ s.closures ch, (s.places c).early = false := by
    intro c hc
    obtain ⟨k, hk⟩ := mem_closures.mp hc
    exact hs.1.not_early ⟨ch, k, hk⟩
  -- An entry of another channel belongs to another call.
  have hpending : ∀ ch' k c, (Function.update s.pending_calls_ ch ∅ ch').find? k = some c →
      (s.pending_calls_ ch').find? k = some c ∧ c ∉ s.closures ch := by
    intro ch' k c hfind
    by_cases he : ch' = ch
    · rw [he, Function.update_self] at hfind
      simp at hfind
    · rw [Function.update_of_ne he] at hfind
      refine ⟨hfind, fun hc => ?_⟩
      obtain ⟨k', hk'⟩ := mem_closures.mp hc
      have h1 := (hs.1.entry ch' k c hfind).2
      have h2 := (hs.1.entry ch k' c hk').2
      exact he (h1.trans h2.symm)
  have hresults : ∀ n c, s.results n = .completing c → s.results n = .completing c ∧ c ∉ s.closures ch := by
    intro n c hn
    refine ⟨hn, fun hc => ?_⟩
    obtain ⟨k, hk⟩ := mem_closures.mp hc
    exact (hs.1.erased n c hn).2 ⟨ch, k, hk⟩
  have hsame := hran.same
  have hcounted := hs.1.ran hran hlate hpending hresults
  refine ⟨?_, hs.2.shrink ?_ ?_ ?_⟩
  · unfold ApiCalls.force_completion
    rw [hsame] at hcounted ⊢
    exact hcounted
  · show ((s.closures ch).foldl runClosure s).places = _
    rw [hsame]
  · show ((s.closures ch).foldl runClosure s).history = _
    rw [hsame]
  · rintro c ⟨ch', k, hfind⟩
    exact ⟨ch', k, (hpending ch' k c hfind).1⟩

/-! ## Steps -/

theorem Counted.begin (hs : s.Counted) (hc : s.places c = .absent) (m : ApiMethod) (ch : Nat) :
    Counted { s.setPlace c .expected with
      methods := Function.update s.methods c m
      channels := Function.update s.channels c ch
      handles := Function.update s.handles (m.handle c) (s.handles (m.handle c)).expect_result
      outstanding := Function.update s.outstanding (m.handle c) (c :: s.outstanding (m.handle c)) } := by
  have hnew : ∀ h, c ∉ s.outstanding h := fun h hm => (hs.member h c hm).2 hc
  have hne : ∀ c', s.Entered c' → c' ≠ c := by
    intro c' he heq
    exact hnew _ (heq ▸ he.1)
  have hmethod : ∀ c', c' ≠ c → Function.update s.methods c m c' = s.methods c' :=
    fun c' h => Function.update_of_ne h ..
  have houtstanding : ∀ h, Function.update s.outstanding (m.handle c) (c :: s.outstanding (m.handle c)) h =
      if h = m.handle c then c :: s.outstanding (m.handle c) else s.outstanding h :=
    fun h => Function.update_apply ..
  have hmem : ∀ h c', c' ∈ s.outstanding h →
      c' ∈ Function.update s.outstanding (m.handle c) (c :: s.outstanding (m.handle c)) h := by
    intro h c' hm
    rw [houtstanding]
    split_ifs with he
    · exact List.mem_cons_of_mem c (he ▸ hm)
    · exact hm
  have hentered : ∀ c', s.Entered c' → Entered { s.setPlace c .expected with
      methods := Function.update s.methods c m
      channels := Function.update s.channels c ch
      handles := Function.update s.handles (m.handle c) (s.handles (m.handle c)).expect_result
      outstanding := Function.update s.outstanding (m.handle c) (c :: s.outstanding (m.handle c)) } c' := by
    intro c' he
    refine ⟨?_, ?_⟩
    · simp only [handleOf, hmethod c' (hne c' he)]
      exact hmem _ c' he.1
    · rw [places_setPlace, if_neg (hne c' he)]
      exact he.2
  refine ⟨fun h => ?_, fun h => ?_, fun h c' hc' => ?_, fun c' hc' hn => ?_, fun ch' k c' hfind => ?_,
    fun n c' hn => ?_, hs.once, hs.single⟩
  · have hcount := hs.count h
    simp only [Function.update_apply]
    split_ifs with he
    · subst he
      simp only [WaitHandle.expect_result, List.length_cons]
      omega
    · exact hcount
  · simp only [houtstanding]
    split_ifs
    · exact List.nodup_cons.mpr ⟨hnew _, hs.nodup _⟩
    · exact hs.nodup h
  · simp only [houtstanding] at hc'
    by_cases he : c' = c
    · subst he
      refine ⟨?_, by simp [places_setPlace]⟩
      split_ifs at hc' with hh
      · simp only [handleOf, Function.update_self]
        exact hh
      · exact absurd hc' (hnew h)
    · have hold : c' ∈ s.outstanding h := by
        split_ifs at hc' with hh
        · rw [hh]
          exact (List.mem_cons.mp hc').resolve_left he
        · exact hc'
      obtain ⟨hh, hpl⟩ := hs.member h c' hold
      refine ⟨?_, ?_⟩
      · simp only [handleOf, hmethod c' he]
        exact hh
      · rw [places_setPlace, if_neg he]
        exact hpl
  · by_cases he : c' = c
    · subst he
      simp [handleOf]
    · rw [places_setPlace, if_neg he] at hc' hn
      simp only [handleOf, hmethod c' he]
      exact hmem _ c' (hs.expected c' hc' hn)
  · obtain ⟨he, hch⟩ := hs.entry ch' k c' hfind
    refine ⟨hentered c' he, ?_⟩
    simp only [Function.update_of_ne (hne c' he)]
    exact hch
  · obtain ⟨he, hnot⟩ := hs.erased n c' hn
    exact ⟨hentered c' he, hnot⟩

theorem Ok.begin (hs : s.Ok) (hc : s.places c = .absent) (m : ApiMethod) (ch : Nat) :
    Ok { s.setPlace c .expected with
      methods := Function.update s.methods c m
      channels := Function.update s.channels c ch
      handles := Function.update s.handles (m.handle c) (s.handles (m.handle c)).expect_result
      outstanding := Function.update s.outstanding (m.handle c) (c :: s.outstanding (m.handle c)) } := by
  refine ⟨hs.1.begin hc m ch, fun c' hc' => ?_, fun c' hc' => ?_, hs.2.written⟩
  · rw [places_setPlace] at hc'
    split_ifs at hc'
    · rcases hc' with h | h <;> cases h
    · exact hs.2.free c' hc'
  · have hended := hs.2.gone c' hc'
    rw [places_setPlace, if_neg ?_]
    · exact hended
    · rintro rfl
      rw [hc] at hended
      cases hended

/-- A new entry, which may take the place of one with the same id. -/
theorem Ok.save {id : UInt32} (hs : s.Ok) (hc : s.places c = .numbered id) :
    Ok { s.setPlace c .registered with
      pending_calls_ := Function.update s.pending_calls_ (s.channels c)
        ((s.pending_calls_ (s.channels c)).insert (key id) c) } := by
  have hearly : (s.places c).early = true := by rw [hc]; rfl
  have hbegun : s.places c ≠ .absent := by rw [hc]; exact fun h => nomatch h
  have hnew : ¬s.Pending c := fun hp => by
    rw [hs.1.not_early hp] at hearly
    cases hearly
  have hmoved := hs.setPlace (p := .registered) hbegun (fun h => nomatch h) (fun h => nomatch h)
    (by rw [hc]; exact fun h => nomatch h) (fun h => by rcases h with h | h <;> cases h)
  have hfind : ∀ ch k c', (Function.update s.pending_calls_ (s.channels c)
      ((s.pending_calls_ (s.channels c)).insert (key id) c) ch).find? k = some c' →
      (c' = c ∧ ch = s.channels c ∧ k = key id) ∨ c' ≠ c ∧ (s.pending_calls_ ch).find? k = some c' := by
    intro ch k c' h
    have hold : (s.pending_calls_ ch).find? k = some c' → c' ≠ c := fun h heq => hnew ⟨ch, k, heq ▸ h⟩
    by_cases hch : ch = s.channels c
    · subst hch
      rw [Function.update_self, find?_insert] at h
      split_ifs at h with hk
      · exact Or.inl ⟨(Option.some.inj h).symm, rfl, hk⟩
      · exact Or.inr ⟨hold h, h⟩
    · rw [Function.update_of_ne hch] at h
      exact Or.inr ⟨hold h, h⟩
  obtain ⟨⟨hcount, hnodup, hmember, hexpected, hentry, herased, honce, hsingle⟩, hover, hgone, hwritten⟩ := hmoved
  refine ⟨⟨hcount, hnodup, hmember, hexpected, fun ch k c' h => ?_, fun n c' hn => ?_,
    fun ch k k' c' h h' => ?_, hsingle⟩, fun c' hc' hp => ?_, hgone, hwritten⟩
  · rcases hfind ch k c' h with ⟨rfl, hch, -⟩ | ⟨-, hold⟩
    · exact ⟨⟨hs.1.expected c' hearly hbegun, by simp [places_setPlace, ApiPlace.early]⟩, hch⟩
    · exact hentry ch k c' hold
  · obtain ⟨he, hnot⟩ := herased n c' hn
    refine ⟨he, ?_⟩
    rintro ⟨ch, k, h⟩
    rcases hfind ch k c' h with ⟨rfl, -⟩ | ⟨-, hold⟩
    · have hlate := (hs.1.erased n c' hn).1.2
      rw [hearly] at hlate
      cases hlate
    · exact hnot ⟨ch, k, hold⟩
  · rcases hfind ch k c' h with ⟨hcc, -, hk⟩ | ⟨hne, hold⟩
    · rcases hfind ch k' c' h' with ⟨-, -, hk'⟩ | ⟨hne, -⟩
      · exact hk.trans hk'.symm
      · exact absurd hcc hne
    · rcases hfind ch k' c' h' with ⟨hcc, -⟩ | ⟨-, hold'⟩
      · exact absurd hcc hne
      · exact honce ch k k' c' hold hold'
  · obtain ⟨ch, k, h⟩ := hp
    rcases hfind ch k c' h with ⟨rfl, -⟩ | ⟨-, hold⟩
    · rw [places_setPlace, if_pos rfl] at hc'
      rcases hc' with h | h <;> cases h
    · exact hover c' hc' ⟨ch, k, hold⟩

/-- A `Result` that runs no closure. -/
theorem Ok.setResult (hs : s.Ok) {n : Nat} {r : ApiResult} (hr : ∀ c, r ≠ .completing c) :
    (s.setResult n r).Ok := by
  have hresult : ∀ n' c', (s.setResult n r).results n' = .completing c' → s.results n' = .completing c' := by
    intro n' c' h
    simp only [ApiCalls.setResult, Function.update_apply] at h
    split_ifs at h
    · exact absurd h (hr c')
    · exact h
  obtain ⟨⟨hcount, hnodup, hmember, hexpected, hentry, herased, honce, hsingle⟩, hover, hgone, hwritten⟩ := hs
  exact ⟨⟨hcount, hnodup, hmember, hexpected, hentry, fun n' c' h => herased n' c' (hresult n' c' h), honce,
    fun n1 n2 c' h1 h2 => hsingle n1 n2 c' (hresult n1 c' h1) (hresult n2 c' h2)⟩, hover, hgone, hwritten⟩

/-- Only a pointer of an entry is written through. -/
theorem Ok.populate (hs : s.Ok) (n ch : Nat) (id : UInt32) (parsed : Bool) :
    (s.populate_message_for_result n ch id parsed).Ok := by
  unfold populate_message_for_result
  split
  · exact hs.setResult fun _ h => nomatch h
  · next c hfind =>
    have hok : (s.setResult n (if parsed then .populated ch id else .finished)).Ok := by
      apply hs.setResult
      cases parsed <;> exact fun _ h => nomatch h
    have hlive : ApiEvent.ended c ∉ s.history := by
      intro h
      exact hs.2.free c (Or.inr (hs.2.gone c h)) ⟨ch, key id, hfind⟩
    refine ⟨⟨hok.1.count, hok.1.nodup, hok.1.member, hok.1.expected, hok.1.entry, hok.1.erased, hok.1.once,
      hok.1.single⟩, hok.2.free, fun c' hc' => ?_, hs.2.written.snoc hlive⟩
    refine hs.2.gone c' ((List.mem_append.mp hc').resolve_right fun h => ?_)
    cases List.mem_singleton.mp h

/-- The entry goes to the `Result` that runs its closure. -/
theorem Ok.complete_response (hs : s.Ok) (n ch : Nat) (id : UInt32) : (s.complete_response n ch id).Ok := by
  unfold ApiCalls.complete_response
  split
  · exact hs.setResult fun _ h => nomatch h
  · next c hfind =>
    have herase : ∀ ch' k c', (Function.update s.pending_calls_ ch ((s.pending_calls_ ch).erase (key id)) ch').find? k =
        some c' → (s.pending_calls_ ch').find? k = some c' ∧ c' ≠ c := by
      intro ch' k c' h
      by_cases he : ch' = ch
      · subst he
        rw [Function.update_self, find?_erase] at h
        split_ifs at h with hk
        refine ⟨h, ?_⟩
        rintro rfl
        exact hk (hs.1.once ch' k (key id) c' h hfind)
      · rw [Function.update_of_ne he] at h
        refine ⟨h, ?_⟩
        rintro rfl
        have h1 := (hs.1.entry ch' k c' h).2
        have h2 := (hs.1.entry ch (key id) c' hfind).2
        exact he (h1.trans h2.symm)
    have hresult : ∀ n' c', Function.update s.results n (.completing c) n' = .completing c' →
        n' = n ∧ c' = c ∨ n' ≠ n ∧ c' ≠ c ∧ s.results n' = .completing c' := by
      intro n' c' h
      rw [Function.update_apply] at h
      split_ifs at h with he
      · cases h
        exact Or.inl ⟨he, rfl⟩
      · refine Or.inr ⟨he, ?_, h⟩
        rintro rfl
        exact (hs.1.erased n' c' h).2 ⟨ch, key id, hfind⟩
    obtain ⟨⟨hcount, hnodup, hmember, hexpected, hentry, herased, honce, hsingle⟩, hover, hgone, hwritten⟩ := hs
    refine ⟨⟨hcount, hnodup, hmember, hexpected, fun ch' k c' h => hentry ch' k c' (herase ch' k c' h).1,
      fun n' c' h => ?_, fun ch' k k' c' h h' => honce ch' k k' c' (herase ch' k c' h).1 (herase ch' k' c' h').1,
      fun n1 n2 c' h1 h2 => ?_⟩, fun c' hc' hp => ?_, hgone, hwritten⟩
    · rcases hresult n' c' h with ⟨-, rfl⟩ | ⟨-, -, hold⟩
      · refine ⟨(hentry ch (key id) c' hfind).1, ?_⟩
        rintro ⟨ch', k, h'⟩
        exact (herase ch' k c' h').2 rfl
      · obtain ⟨he, hnot⟩ := herased n' c' hold
        refine ⟨he, ?_⟩
        rintro ⟨ch', k, h'⟩
        exact hnot ⟨ch', k, (herase ch' k c' h').1⟩
    · rcases hresult n1 c' h1 with ⟨hn1, hc1⟩ | ⟨-, hc1, hold1⟩
      · rcases hresult n2 c' h2 with ⟨hn2, -⟩ | ⟨-, hc2, -⟩
        · exact hn1.trans hn2.symm
        · exact absurd hc1 hc2
      · rcases hresult n2 c' h2 with ⟨-, hc2⟩ | ⟨-, -, hold2⟩
        · exact absurd hc2 hc1
        · exact hsingle n1 n2 c' hold1 hold2
    · obtain ⟨ch', k, h⟩ := hp
      exact hover c' hc' ⟨ch', k, (herase ch' k c' h).1⟩

/-- The closure of an erased entry runs. -/
theorem Ok.run (hs : s.Ok) {n : Nat} (hn : s.results n = .completing c) :
    ((s.runClosure c).setResult n .finished).Ok := by
  obtain ⟨⟨hc, hlate⟩, hnot⟩ := hs.1.erased n c hn
  have hran := ran_one hs.1.nodup (fun h c hc => (hs.1.member h c hc).1) hc
  have hearly : ∀ c' ∈ [c], (s.places c').early = false := by
    intro c' hc'
    rw [List.mem_singleton.mp hc']
    exact hlate
  have hpending : ∀ ch k c', (s.pending_calls_ ch).find? k = some c' →
      (s.pending_calls_ ch).find? k = some c' ∧ c' ∉ [c] := by
    intro ch k c' hfind
    refine ⟨hfind, fun hc' => ?_⟩
    rw [List.mem_singleton] at hc'
    exact hnot ⟨ch, k, hc' ▸ hfind⟩
  have hresults : ∀ n' c', Function.update s.results n .finished n' = .completing c' →
      s.results n' = .completing c' ∧ c' ∉ [c] := by
    intro n' c' hn'
    rw [Function.update_apply] at hn'
    split_ifs at hn' with he
    refine ⟨hn', fun hc' => ?_⟩
    rw [List.mem_singleton] at hc'
    exact he (hs.1.single n' n c (hc' ▸ hn') hn)
  exact ⟨hs.1.ran hran hearly hpending hresults, hs.2.shrink rfl rfl fun _ h => h⟩

/-- A handle that is complete has counted every result. -/
theorem Counted.complete (hs : s.Counted) {h : HandleId} (hcomplete : (s.handles h).complete = true) :
    s.outstanding h = [] := by
  have hcount := hs.count h
  have heq : (s.handles h).received = (s.handles h).expecting := of_decide_eq_true hcomplete
  apply List.eq_nil_of_length_eq_zero
  omega

theorem Counted.not_pending (hs : s.Counted) (hc : s.outstanding (s.handleOf c) = []) : ¬s.Pending c := by
  rintro ⟨ch, k, hfind⟩
  have hmem := (hs.entry ch k c hfind).1.1
  rw [hc] at hmem
  cases hmem

theorem Ok.wake (hs : s.Ok) (hc : s.places c = .waiting) (hcomplete : (s.handles (s.handleOf c)).complete = true) :
    (s.wake c).Ok := by
  have hnil := hs.1.complete hcomplete
  have hplace : (s.setPlace c .answered).Ok := by
    apply hs.setPlace
    · rw [hc]
      exact fun h => nomatch h
    · exact fun h => nomatch h
    · exact fun h => nomatch h
    · rw [hc]
      exact fun h => nomatch h
    · exact fun _ => hs.1.not_pending hnil
  unfold ApiCalls.wake
  split_ifs
  · exact hplace
  · obtain ⟨⟨hcount, hnodup, hmember, hexpected, hentry, herased, honce, hsingle⟩, hfresh⟩ := hplace
    refine ⟨⟨fun h => ?_, hnodup, hmember, hexpected, hentry, herased, honce, hsingle⟩, hfresh.free, hfresh.gone,
      hfresh.written⟩
    have hcount := hcount h
    show (Function.update s.handles (s.handleOf c) {} h).received + (s.outstanding h).length =
      (Function.update s.handles (s.handleOf c) {} h).expecting
    rw [Function.update_apply]
    split_ifs with he
    · rw [he, hnil]
      rfl
    · exact hcount

/-- `force_completion` drops the entry of the call that failed too. -/
theorem Ok.forced (hs : s.Ok) (hc : s.places c = .failing) :
    ((s.force_completion (s.channels c)).finish c).Ok := by
  have hforced := hs.force_completion (s.channels c)
  have hsame : ((s.force_completion (s.channels c)).places) = s.places := by
    have hfold : ∀ (l : List Nat) (t : ApiCalls), (l.foldl runClosure t).places = t.places := by
      intro l
      induction l with
      | nil => exact fun _ => rfl
      | cons c' l ih => exact fun t => ih (t.runClosure c')
    exact hfold _ s
  apply hforced.finish
  · rw [hsame, hc]
    exact fun h => nomatch h
  · rintro ⟨ch, k, hfind⟩
    replace hfind : (Function.update s.pending_calls_ (s.channels c) ∅ ch).find? k = some c := hfind
    by_cases he : ch = s.channels c
    · rw [he, Function.update_self, find?_empty] at hfind
      cases hfind
    · rw [Function.update_of_ne he] at hfind
      exact he (hs.1.entry ch k c hfind).2

/-- The call goes on to a place where it still waits for its result. -/
theorem Ok.move {p : ApiPlace} (hs : s.Ok) (hc : s.Live c) (hp : p ≠ .absent)
    (hearly : p.early = true → (s.places c).early = true) (hlive : p ≠ .answered ∧ p ≠ .ended) :
    (s.setPlace c p).Ok :=
  hs.setPlace hc.1 hp hearly hc.2 fun h => absurd h (not_or.mpr hlive)

theorem Ok.step {i : ApiOp} (hs : s.Ok) (hC : s.TakesBack i) (h : s.step i = some s') : s'.Ok := by
  cases i with
  | begin c m ch =>
    obtain ⟨hc, rfl⟩ := of_guard_eq_some h
    exact hs.begin hc m ch
  | unserialized c =>
    obtain ⟨hc, rfl⟩ := of_guard_eq_some h
    apply hs.finish
    · simp [hc]
    · intro hp
      have hlate := hs.1.not_early hp
      rw [hc] at hlate
      cases hlate
  | load c =>
    obtain ⟨hc, rfl⟩ := of_guard_eq_some h
    exact hs.move (by simp [Live, hc]) (by simp) (by simp [hc, ApiPlace.early]) (by simp)
  | store c =>
    simp only [ApiCalls.step] at h
    split at h
    · next id hc =>
      obtain rfl := Option.some.inj h
      have hok := hs.move (c := c) (p := .numbered id) (by simp [Live, hc]) (by simp)
        (by simp [hc, ApiPlace.early]) (by simp)
      exact ⟨⟨hok.1.count, hok.1.nodup, hok.1.member, hok.1.expected, hok.1.entry, hok.1.erased, hok.1.once,
        hok.1.single⟩, hok.2.free, hok.2.gone, hok.2.written⟩
    · cases h
  | save_completion_details c =>
    simp only [ApiCalls.step] at h
    split at h
    · next id hc =>
      obtain rfl := Option.some.inj h
      exact hs.save hc
    · cases h
  | sent c =>
    obtain ⟨hc, rfl⟩ := of_guard_eq_some h
    exact hs.move (by simp [Live, hc]) (by simp) (by simp [ApiPlace.early]) (by simp)
  | refuse c =>
    obtain ⟨hc, rfl⟩ := of_guard_eq_some h
    exact hs.finish (by simp [hc]) hC
  | fail c =>
    obtain ⟨hc, rfl⟩ := of_guard_eq_some h
    exact hs.move (by simp [Live, hc]) (by simp) (by simp [ApiPlace.early]) (by simp)
  | force_completion c =>
    obtain ⟨hc, rfl⟩ := of_guard_eq_some h
    exact hs.forced hc
  | populate_message_for_result n ch id parsed =>
    obtain ⟨-, rfl⟩ := of_guard_eq_some h
    exact hs.populate n ch id parsed
  | complete_response n =>
    simp only [ApiCalls.step] at h
    split at h
    · next ch id _ =>
      obtain rfl := Option.some.inj h
      exact hs.complete_response n ch id
    · cases h
  | run n =>
    simp only [ApiCalls.step] at h
    split at h
    · next c hn =>
      obtain rfl := Option.some.inj h
      exact hs.run hn
    · cases h
  | wake c =>
    obtain ⟨⟨hc, hcomplete⟩, rfl⟩ := of_guard_eq_some h
    exact hs.wake hc hcomplete
  | limit c =>
    obtain ⟨⟨hc, -⟩, rfl⟩ := of_guard_eq_some h
    exact hs.move (by simp [Live, hc]) (by simp) (by simp [ApiPlace.early]) (by simp)
  | finish c =>
    obtain ⟨hc, rfl⟩ := of_guard_eq_some h
    rcases hc with hc | hc
    · exact hs.finish (by simp [hc]) (hs.2.free c (Or.inl hc))
    · exact hs.finish (by simp [hc]) (hC hc)

theorem Ok.init : Ok {} := by
  have hnone : ∀ c, ¬Pending {} c := by
    rintro c ⟨ch, k, h⟩
    cases h
  refine ⟨⟨fun _ => rfl, fun _ => List.nodup_nil, ?_, fun _ _ h => absurd rfl h, ?_, ?_, ?_, ?_⟩,
    fun c _ => hnone c, ?_, justified_nil⟩
  · intro h c hc
    cases hc
  · intro ch k c h
    cases h
  · intro n c h
    cases h
  · intro ch k k' c h
    cases h
  · intro n n' c h
    cases h
  · intro c h
    cases h

/-- In runs in which every call that gives up has its entry taken back, no entry outlives its call. -/
theorem no_stale_entries {is : List ApiOp} (h : apiMachine.AllSteps TakesBack apiMachine.init is) :
    apiMachine.AllStates NoStaleEntries apiMachine.init is :=
  Machine.allStates_of_allSteps (P := Ok) (fun _ _ _ hs hC h => hs.step hC h) (fun _ hs => hs.noStaleEntries)
    Ok.init h

/-- A `stop_container` that is answered. -/
def stopOps : List ApiOp :=
  [.begin 0 .stop_container 0, .load 0, .store 0, .save_completion_details 0, .sent 0,
    .populate_message_for_result 0 0 0 true, .complete_response 0, .run 0, .wake 0, .finish 0]

theorem no_stale_entries_stop_container :
    (∃ s, apiMachine.exec apiMachine.init stopOps = some s ∧ s.history = [.wrote 0, .ended 0]) ∧
      apiMachine.AllStates NoStaleEntries apiMachine.init stopOps := by
  refine ⟨⟨_, rfl, rfl⟩, no_stale_entries ?_⟩
  refine ⟨trivial, fun s1 h1 => ⟨trivial, fun s2 h2 => ⟨trivial, fun s3 h3 => ⟨trivial, fun s4 h4 => ⟨trivial,
    fun s5 h5 => ⟨trivial, fun s6 h6 => ⟨trivial, fun s7 h7 => ⟨trivial, fun s8 h8 => ⟨trivial, fun s9 h9 =>
      ⟨fun hlimit => ?_, fun _ _ => trivial⟩⟩⟩⟩⟩⟩⟩⟩⟩⟩
  cases h1
  cases h2
  cases h3
  cases h4
  cases h5
  cases h6
  cases h7
  cases h8
  cases h9
  cases hlimit

/-- A `launch` whose result comes after its timeout. -/
def lateOps : List ApiOp :=
  [.begin 0 (.android .launch) 0, .load 0, .store 0, .save_completion_details 0, .sent 0, .limit 0, .finish 0,
    .populate_message_for_result 0 0 0 true]

/-- The late result is written into the response of a call that has thrown. -/
theorem late_result_is_written :
    ∃ s, apiMachine.exec apiMachine.init lateOps = some s ∧ s.history = [.ended 0, .wrote 0] ∧
      ¬s.NoStaleEntries := by
  have hrun : ∃ s, apiMachine.exec apiMachine.init lateOps = some s ∧ s.history = [.ended 0, .wrote 0] :=
    ⟨_, rfl, rfl⟩
  obtain ⟨s, hs, hhistory⟩ := hrun
  refine ⟨s, hs, hhistory, fun hstale => ?_⟩
  have hbefore : BeforeEnd [.ended 0] (.wrote 0) := hstale.2 [.ended 0] (.wrote 0) [] hhistory
  exact hbefore (List.mem_singleton_self _)

end ApiCalls

end AnboxReboxed.Bridge
