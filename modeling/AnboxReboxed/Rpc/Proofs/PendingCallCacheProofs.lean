import AnboxReboxed.Lib.Proofs.OrdMapProofs
import AnboxReboxed.Rpc.PendingCallCache
import Mathlib.Data.List.Induction
import Mathlib.Data.List.Nodup

/-!
# Pending calls complete once

Each call goes through the lives of `Life`, in this order. While the ids are distinct the cache holds
exactly the calls that are pending, each under its own id, so that what is done to an entry is done to
the call the id was given to.
-/

namespace AnboxReboxed.Rpc

open AnboxReboxed.Lib

/-- What may happen to the calls, after what. -/
def Allowed (pre : List CallEvent) : CallEvent → Prop
  | .registered c _ => life pre c = .unregistered
  | .wrote c _ result => ∃ id, life pre c = .pending id ∧ result.id = some id
  | .erased c n => (∃ id, life pre c = .pending id) ∧ ∃ result, .wrote c n result ∈ pre
  | .ran c none => ∃ id, life pre c = .pending id
  | .ran c (some n) => life pre c = .erased n
  | .unknown _ => True
  | .forced _ => ∀ c, life pre c = .unregistered ∨ ∃ n, life pre c = .ran n

section Lives

variable {h : List CallEvent} {c n : Nat}

theorem life_snoc (h : List CallEvent) (e : CallEvent) : life (h ++ [e]) = Life.next (life h) e := by
  simp [life]

@[simp] theorem life_registered (c c' : Nat) (id : UInt32) :
    life (h ++ [.registered c id]) c' = if c' = c then .pending id else life h c' := by
  rw [life_snoc, Life.next, Function.update_apply]

@[simp] theorem life_erased (c c' n : Nat) :
    life (h ++ [.erased c n]) c' = if c' = c then .erased n else life h c' := by
  rw [life_snoc, Life.next, Function.update_apply]

@[simp] theorem life_ran (c c' : Nat) (m : Option Nat) :
    life (h ++ [.ran c m]) c' = if c' = c then .ran m else life h c' := by
  rw [life_snoc, Life.next, Function.update_apply]

@[simp] theorem life_wrote (c n c' : Nat) (result : Result) :
    life (h ++ [.wrote c n result]) c' = life h c' := congrFun (life_snoc h _) c'

@[simp] theorem life_unknown (n c' : Nat) : life (h ++ [.unknown n]) c' = life h c' :=
  congrFun (life_snoc h _) c'

@[simp] theorem life_forced (c c' : Nat) : life (h ++ [.forced c]) c' = life h c' :=
  congrFun (life_snoc h _) c'

/-- A call that was registered stays so. -/
theorem life_of_registered {id : UInt32} (hm : CallEvent.registered c id ∈ h) :
    life h c ≠ .unregistered := by
  induction h using List.reverseRecOn with
  | nil => cases hm
  | append_singleton h e ih =>
    rw [life_snoc]
    rw [List.mem_append, List.mem_singleton] at hm
    rcases hm with hm | rfl
    · have hold := ih hm
      cases e <;> simp only [Life.next, Function.update_apply] <;> grind
    · simp [Life.next]

theorem ran_mem_of_life {m : Option Nat} (hl : life h c = .ran m) : .ran c m ∈ h := by
  induction h using List.reverseRecOn with
  | nil => cases hl
  | append_singleton h e ih =>
    rw [life_snoc] at hl
    cases e <;> simp only [Life.next, Function.update_apply] at hl <;> grind

theorem erased_mem_of_life (hl : life h c = .erased n) : .erased c n ∈ h := by
  induction h using List.reverseRecOn with
  | nil => cases hl
  | append_singleton h e ih =>
    rw [life_snoc] at hl
    cases e <;> simp only [Life.next, Function.update_apply] at hl <;> grind

/-- Nothing happens to a call whose closure has run. -/
theorem life_of_ran {m : Option Nat} (hj : Justified Allowed h) (hm : .ran c m ∈ h) :
    life h c = .ran m := by
  induction h using List.reverseRecOn with
  | nil => cases hm
  | append_singleton h e ih =>
    obtain ⟨hj, hw⟩ := hj.of_snoc
    rw [life_snoc]
    rw [List.mem_append, List.mem_singleton] at hm
    rcases hm with hm | rfl
    · have hold := ih hj hm
      cases e with
      | registered c' id =>
        have hw : life h c' = .unregistered := hw
        simp only [Life.next, Function.update_apply]
        grind
      | erased c' n' =>
        obtain ⟨⟨id, hw⟩, -⟩ := hw
        simp only [Life.next, Function.update_apply]
        grind
      | ran c' m' =>
        have hne : c ≠ c' := by
          rintro rfl
          cases m' with
          | none =>
            obtain ⟨id, hw⟩ := hw
            rw [hold] at hw
            cases hw
          | some n' =>
            have hw : life h c = .erased n' := hw
            rw [hold] at hw
            cases hw
        simp only [Life.next, Function.update_apply, if_neg hne]
        exact hold
      | wrote c' n' result => exact hold
      | unknown n' => exact hold
      | forced c' => exact hold
    · simp [Life.next]

/-- A closure runs once at most. -/
theorem runs_le_one (hj : Justified Allowed h) (c : Nat) : (h.filter (CallEvent.runs c)).length ≤ 1 := by
  induction h using List.reverseRecOn with
  | nil => simp
  | append_singleton h e ih =>
    obtain ⟨hj, hw⟩ := hj.of_snoc
    rw [List.filter_append, List.length_append]
    have hold := ih hj
    by_cases he : e.runs c = true
    · -- before it runs, it has not run
      have hnone : h.filter (CallEvent.runs c) = [] := by
        rw [List.filter_eq_nil_iff]
        intro x hx hr
        cases x with
        | ran c' m =>
          obtain rfl : c' = c := by simpa [CallEvent.runs] using hr
          have hlife := life_of_ran hj hx
          cases e with
          | ran c'' m' =>
            obtain rfl : c'' = c' := by simpa [CallEvent.runs] using he
            cases m' with
            | none =>
              obtain ⟨id, hw⟩ := hw
              rw [hlife] at hw
              cases hw
            | some n' =>
              have hw : life h c'' = .erased n' := hw
              rw [hlife] at hw
              cases hw
          | _ => simp [CallEvent.runs] at he
        | _ => simp [CallEvent.runs] at hr
      rw [hnone]
      simp [he]
    · simp [he]
      exact hold

/-- A closure that runs for a `Result` has had its response written from it. -/
theorem wrote_of_ran (hj : Justified Allowed h) (hm : .ran c (some n) ∈ h) :
    ∃ result, .wrote c n result ∈ h := by
  obtain ⟨pre, post, rfl⟩ := List.append_of_mem hm
  have hlife : life pre c = .erased n := hj pre _ post rfl
  obtain ⟨pre', post', rfl⟩ := List.append_of_mem (erased_mem_of_life hlife)
  have herased := hj pre' (.erased c n) (post' ++ .ran c (some n) :: post) (by simp)
  obtain ⟨-, result, hr⟩ := herased
  exact ⟨result, by simp [hr]⟩

end Lives

/-- The id a call was given. -/
def CallPlace.id? : CallPlace → Option UInt32
  | .absent => none
  | .loaded _ => none
  | .numbered id => some id
  | .registered id => some id
  | .failing id => some id
  | .returned id => some id
  | .threw id => some id

/-- `save_completion_details` is still to come. -/
def CallPlace.Early : CallPlace → Prop
  | .absent => True
  | .loaded _ => True
  | .numbered _ => True
  | _ => False

theorem key_inj {id id' : UInt32} (h : key id = key id') : id = id' :=
  UInt32.toBitVec_inj.mp (BitVec.toInt_inj.mp h)

theorem ofNat_inj {k k' : Nat} (hk : k < 2 ^ 32) (hk' : k' < 2 ^ 32)
    (h : UInt32.ofNat k = UInt32.ofNat k') : k = k' := by
  have hnat := congrArg UInt32.toNat h
  rwa [UInt32.toNat_ofNat', UInt32.toNat_ofNat', Nat.mod_eq_of_lt hk, Nat.mod_eq_of_lt hk'] at hnat

namespace PendingCallCache

variable {s s' : PendingCallCache} {c n : Nat} {id : UInt32}

/-- The ids are distinct. -/
structure Numbered (s : PendingCallCache) : Prop where
  counter : s.next_message_id = UInt32.ofNat s.issued
  loaded : ∀ c id, s.calls c = .loaded id → id = s.next_message_id
  oneLoaded : ∀ c c' id id', s.calls c = .loaded id → s.calls c' = .loaded id' → c = c'
  issued : ∀ c id, (s.calls c).id? = some id → ∃ k < s.issued, id = UInt32.ofNat k
  distinct : ∀ c c' id, (s.calls c).id? = some id → (s.calls c').id? = some id → c = c'

/-- The cache, the calls and the responses are where the history says. -/
structure Recorded (s : PendingCallCache) : Prop where
  early : ∀ c, (s.calls c).Early → life s.history c = .unregistered
  ids : ∀ c id, life s.history c = .pending id → (s.calls c).id? = some id
  cached : ∀ k c, s.pending_calls_.find? k = some c ↔ ∃ id, life s.history c = .pending id ∧ key id = k
  completing : ∀ n c, s.results n = .completing c ↔ life s.history c = .erased n
  populated : ∀ n result, s.results n = .populated result →
    ∃ c id, .wrote c n result ∈ s.history ∧ result.id = some id ∧ (s.calls c).id? = some id
  unknown : ∀ n, .unknown n ∈ s.history → s.results n = .finished ∧ ∀ c result, .wrote c n result ∉ s.history
  silent : ∀ n, s.results n = .absent → ∀ c result, .wrote c n result ∉ s.history
  justified : Justified Allowed s.history

@[simp] theorem setCall_calls (s : PendingCallCache) (c c' : Nat) (p : CallPlace) :
    (s.setCall c p).calls c' = if c' = c then p else s.calls c' := by
  simp [setCall, Function.update_apply]

@[simp] theorem setCall_results (s : PendingCallCache) (c : Nat) (p : CallPlace) :
    (s.setCall c p).results = s.results := rfl

@[simp] theorem setCall_pending_calls (s : PendingCallCache) (c : Nat) (p : CallPlace) :
    (s.setCall c p).pending_calls_ = s.pending_calls_ := rfl

@[simp] theorem setCall_history (s : PendingCallCache) (c : Nat) (p : CallPlace) :
    (s.setCall c p).history = s.history := rfl

@[simp] theorem setCall_issued (s : PendingCallCache) (c : Nat) (p : CallPlace) :
    (s.setCall c p).issued = s.issued := rfl

@[simp] theorem setCall_next (s : PendingCallCache) (c : Nat) (p : CallPlace) :
    (s.setCall c p).next_message_id = s.next_message_id := rfl

@[simp] theorem setResult_results (s : PendingCallCache) (n n' : Nat) (p : ResultPlace) :
    (s.setResult n p).results n' = if n' = n then p else s.results n' := by
  simp [setResult, Function.update_apply]

@[simp] theorem setResult_calls (s : PendingCallCache) (n : Nat) (p : ResultPlace) :
    (s.setResult n p).calls = s.calls := rfl

@[simp] theorem setResult_pending_calls (s : PendingCallCache) (n : Nat) (p : ResultPlace) :
    (s.setResult n p).pending_calls_ = s.pending_calls_ := rfl

@[simp] theorem setResult_history (s : PendingCallCache) (n : Nat) (p : ResultPlace) :
    (s.setResult n p).history = s.history := rfl

/-- A call that only moves on keeps its id. -/
theorem Numbered.move {p : CallPlace} (hs : s.Numbered) (hid : (s.calls c).id? = p.id?)
    (hp : ∀ id, p ≠ .loaded id) : (s.setCall c p).Numbered := by
  obtain ⟨hcounter, hloaded, hone, hissued, hdistinct⟩ := hs
  constructor <;> grind [setCall_calls, setCall_issued, setCall_next]

theorem Numbered.load (hs : s.Numbered)
    (hfree : ∀ c id, s.calls c ≠ .loaded id) : (s.setCall c (.loaded s.next_message_id)).Numbered := by
  obtain ⟨hcounter, hloaded, hone, hissued, hdistinct⟩ := hs
  constructor <;> grind [setCall_calls, setCall_issued, setCall_next, CallPlace.id?]

/-- The counter has not been given out yet. -/
theorem Numbered.store (hs : s.Numbered) (hc : s.calls c = .loaded id) (hlt : s.issued + 1 < 2 ^ 32) :
    Numbered { s.setCall c (.numbered id) with next_message_id := id + 1, issued := s.issued + 1 } := by
  have hid := hs.loaded c id hc
  have hnew : ∀ c', (s.calls c').id? ≠ some id := by
    intro c' hc'
    obtain ⟨k, hk, he⟩ := hs.issued c' id hc'
    rw [hid, hs.counter] at he
    have := ofNat_inj (by omega) (by omega) he
    omega
  have hnext : id + 1 = UInt32.ofNat (s.issued + 1) := by
    rw [hid, hs.counter]
    simp
  have hissue : id = UInt32.ofNat s.issued := by
    rw [hid, hs.counter]
  obtain ⟨hcounter, hloaded, hone, hissued, hdistinct⟩ := hs
  constructor
  · exact hnext
  · grind [setCall_calls]
  · grind [setCall_calls]
  · grind [setCall_calls, CallPlace.id?]
  · grind [setCall_calls, CallPlace.id?]

/-- A call that only moves on leaves no trace. -/
theorem Recorded.move {p : CallPlace} (hs : s.Recorded)
    (hid : ∀ id, (s.calls c).id? = some id → p.id? = some id)
    (hp : p.Early → (s.calls c).Early) : (s.setCall c p).Recorded := by
  obtain ⟨hearly, hids, hcached, hcompleting, hpopulated, hunknown, hsilent, hjustified⟩ := hs
  refine ⟨?_, ?_, hcached, hcompleting, ?_, hunknown, hsilent, hjustified⟩
  · grind [setCall_calls, setCall_history]
  · grind [setCall_calls, setCall_history]
  · intro n result hn
    obtain ⟨c', id, hw, hr, hc'⟩ := hpopulated n result hn
    exact ⟨c', id, hw, hr, by grind [setCall_calls]⟩

theorem Recorded.save_completion_details (hs : s.Recorded) (hn : s.Numbered)
    (hc : s.calls c = .numbered id) :
    Recorded { s.setCall c (.registered id) with
      pending_calls_ := s.pending_calls_.insert (key id) c
      history := s.history ++ [.registered c id] } := by
  have hnew : life s.history c = .unregistered := hs.early c (by simp [hc, CallPlace.Early])
  have hown : ∀ c', (s.calls c').id? = some id → c' = c := by
    intro c' hc'
    exact hn.distinct c' c id hc' (by simp [hc, CallPlace.id?])
  have hkey := @key_inj
  obtain ⟨hearly, hids, hcached, hcompleting, hpopulated, hunknown, hsilent, hjustified⟩ := hs
  refine ⟨?_, ?_, ?_, ?_, ?_, ?_, ?_, hjustified.snoc hnew⟩
  · grind [setCall_calls, life_registered, CallPlace.Early]
  · grind [setCall_calls, life_registered, CallPlace.id?]
  · intro k c'
    simp only [OrdMap.find?_insert, life_registered]
    grind
  · intro n c'
    simp only [setCall_results, life_registered, hcompleting]
    grind
  · intro n result hr
    obtain ⟨c', id', hw, hr, hc'⟩ := hpopulated n result hr
    exact ⟨c', id', List.mem_append_left _ hw, hr, by grind [setCall_calls, CallPlace.id?]⟩
  · simpa using hunknown
  · simpa using hsilent

/-- A `Result` is taken in. -/
theorem Recorded.populate_message_for_result (hs : s.Recorded) (hn : s.results n = .absent)
    {result : Result} (hr : result.id = some id) (parsed : Bool) :
    (s.populate_message_for_result n result id parsed).Recorded := by
  unfold PendingCallCache.populate_message_for_result
  obtain ⟨hearly, hids, hcached, hcompleting, hpopulated, hunknown, hsilent, hjustified⟩ := hs
  cases hf : s.pending_calls_.find? (key id) with
  | none =>
    refine ⟨?_, ?_, ?_, ?_, ?_, ?_, ?_, hjustified.snoc trivial⟩
    · simpa using hearly
    · simpa using hids
    · simpa using hcached
    · grind [setResult_results, life_unknown]
    · grind [setResult_results, setResult_calls]
    · grind [setResult_results]
    · grind [setResult_results]
  | some c =>
    obtain ⟨id', hlife, hkey⟩ := (hcached (key id) c).mp hf
    obtain rfl := key_inj hkey
    refine ⟨?_, ?_, ?_, ?_, ?_, ?_, ?_, hjustified.snoc ⟨id', hlife, hr⟩⟩
    · simpa using hearly
    · simpa using hids
    · simpa using hcached
    · grind [setResult_results, life_wrote]
    · intro n' result' hn'
      simp only [setResult_results] at hn'
      split at hn'
      · rename_i hnn
        split at hn'
        · cases hn'
          exact ⟨c, id', by simp [hnn], hr, hids c id' hlife⟩
        · cases hn'
      · obtain ⟨c', id, hw, hr', hc'⟩ := hpopulated n' result' hn'
        exact ⟨c', id, List.mem_append_left _ hw, hr', hc'⟩
    · grind [setResult_results]
    · grind [setResult_results]

/-- The call a response was written for is the one that is erased. -/
theorem Recorded.complete_response (hs : s.Recorded) (hnum : s.Numbered) {result : Result}
    (hn : s.results n = .populated result) (hr : result.id = some id) :
    (s.complete_response n id).Recorded := by
  unfold PendingCallCache.complete_response
  obtain ⟨cw, idw, hwrote, hrw, hidw⟩ := hs.populated n result hn
  obtain rfl : idw = id := Option.some.inj (hrw.symm.trans hr)
  obtain ⟨hearly, hids, hcached, hcompleting, hpopulated, hunknown, hsilent, hjustified⟩ := hs
  cases hf : s.pending_calls_.find? (key idw) with
  | none =>
    refine ⟨hearly, hids, hcached, ?_, ?_, ?_, ?_, hjustified⟩
    · grind [setResult_results, setResult_history]
    · grind [setResult_results, setResult_calls, setResult_history]
    · grind [setResult_results, setResult_history]
    · grind [setResult_results, setResult_history]
  | some c =>
    obtain ⟨id', hlife, hkey⟩ := (hcached (key idw) c).mp hf
    obtain rfl := key_inj hkey
    obtain rfl : cw = c := hnum.distinct cw c id' hidw (hids c id' hlife)
    refine ⟨?_, ?_, ?_, ?_, ?_, ?_, ?_, hjustified.snoc ⟨⟨id', hlife⟩, result, hwrote⟩⟩
    · grind [life_erased, setResult_calls]
    · grind [life_erased, setResult_calls]
    · intro k c'
      simp only [OrdMap.find?_erase, life_erased]
      have hkeys := @key_inj
      grind
    · grind [life_erased, setResult_results]
    · grind [setResult_results, setResult_calls]
    · grind [setResult_results]
    · grind [setResult_results]

theorem Recorded.run (hs : s.Recorded) (hn : s.results n = .completing c) :
    Recorded { s.setResult n .finished with history := s.history ++ [.ran c (some n)] } := by
  have hlife := (hs.completing n c).mp hn
  obtain ⟨hearly, hids, hcached, hcompleting, hpopulated, hunknown, hsilent, hjustified⟩ := hs
  refine ⟨?_, ?_, ?_, ?_, ?_, ?_, ?_, hjustified.snoc hlife⟩
  · grind [life_ran, setResult_calls]
  · grind [life_ran, setResult_calls]
  · grind [life_ran, setResult_pending_calls]
  · grind [life_ran, setResult_results]
  · grind [setResult_results, setResult_calls]
  · grind [setResult_results]
  · grind [setResult_results]

/-- The closures that `force_completion` runs are those of the pending calls, each of them once. -/
theorem Recorded.closures (hs : s.Recorded) :
    s.closures.Nodup ∧ ∀ c, c ∈ s.closures ↔ ∃ id, life s.history c = .pending id := by
  have hentry : ∀ k c, (k, c) ∈ s.pending_calls_.entries ↔ ∃ id, life s.history c = .pending id ∧ key id = k := by
    intro k c
    rw [← OrdMap.find?_eq_some_iff]
    exact hs.cached k c
  constructor
  · apply List.Nodup.map_on
    · rintro ⟨k, c⟩ hc ⟨k', c'⟩ hc' rfl
      obtain ⟨id, hid, rfl⟩ := (hentry k c).mp hc
      obtain ⟨id', hid', rfl⟩ := (hentry k' c).mp hc'
      rw [hid] at hid'
      cases hid'
      rfl
    · exact List.Nodup.of_map _ (OrdMap.keys_nodup s.pending_calls_)
  · intro c
    constructor
    · intro hc
      obtain ⟨⟨k, c'⟩, hm, rfl⟩ := List.mem_map.mp hc
      obtain ⟨id, hid, -⟩ := (hentry k c').mp hm
      exact ⟨id, hid⟩
    · rintro ⟨id, hid⟩
      exact List.mem_map.mpr ⟨(key id, c), (hentry (key id) c).mpr ⟨id, hid, rfl⟩, rfl⟩

/-- `force_completion` runs closures one after the other. -/
theorem life_forcedRuns (cs : List Nat) : ∀ (h : List CallEvent) (c' : Nat),
    life (h ++ cs.map (.ran · none)) c' = if c' ∈ cs then .ran none else life h c' := by
  induction cs with
  | nil => simp
  | cons c cs ih =>
    intro h c'
    have hstep := ih (h ++ [.ran c none]) c'
    simp only [List.append_assoc, List.singleton_append] at hstep
    rw [List.map_cons, hstep, life_ran]
    grind

theorem justified_forcedRuns (cs : List Nat) : ∀ h : List CallEvent, Justified Allowed h → cs.Nodup →
    (∀ c ∈ cs, ∃ id, life h c = .pending id) → Justified Allowed (h ++ cs.map (.ran · none)) := by
  induction cs with
  | nil => exact fun h hj _ _ => by simpa using hj
  | cons c cs ih =>
    intro h hj hnodup hpending
    obtain ⟨hc, hnodup⟩ := List.nodup_cons.mp hnodup
    have hfirst : Allowed h (.ran c none) := hpending c List.mem_cons_self
    have hrest : ∀ c' ∈ cs, ∃ id, life (h ++ [.ran c none]) c' = .pending id := by
      intro c' hc'
      obtain ⟨id, hid⟩ := hpending c' (List.mem_cons_of_mem c hc')
      have hne : c' ≠ c := fun he => hc (he ▸ hc')
      exact ⟨id, by rw [life_ran, if_neg hne, hid]⟩
    simpa using ih (h ++ [.ran c none]) (hj.snoc hfirst) hnodup hrest

theorem Recorded.force_completion (hs : s.Recorded) (hfree : ∀ n c, s.results n ≠ .completing c) (c : Nat) :
    (s.force_completion c).Recorded := by
  obtain ⟨hnodup, hmem⟩ := hs.closures
  obtain ⟨hearly, hids, hcached, hcompleting, hpopulated, hunknown, hsilent, hjustified⟩ := hs
  have hlife : ∀ c', life (s.history ++ s.closures.map (.ran · none) ++ [.forced c]) c' =
      if c' ∈ s.closures then .ran none else life s.history c' := by
    intro c'
    rw [life_forced, life_forcedRuns]
  have hruns := justified_forcedRuns s.closures s.history hjustified hnodup fun c' => (hmem c').mp
  have hallowed : Allowed (s.history ++ s.closures.map (.ran · none)) (.forced c) := by
    intro c'
    rw [life_forcedRuns]
    cases hc' : life s.history c' with
    | unregistered => grind
    | pending id => exact Or.inr ⟨none, if_pos ((hmem c').mpr ⟨id, hc'⟩)⟩
    | erased n => exact absurd ((hcompleting n c').mpr hc') (hfree n c')
    | ran n => grind
  refine ⟨?_, ?_, ?_, ?_, ?_, ?_, ?_, hruns.snoc hallowed⟩
  · intro c' hc'
    have hold := hearly c' hc'
    simp only [PendingCallCache.force_completion, hlife]
    grind
  · intro c' id hc'
    simp only [PendingCallCache.force_completion, hlife] at hc' ⊢
    grind
  · intro k c'
    simp only [PendingCallCache.force_completion, hlife]
    grind [OrdMap.find?_empty]
  · intro n c'
    simp only [PendingCallCache.force_completion, hlife]
    grind
  · intro n result hn
    obtain ⟨c', id, hw, hr, hc'⟩ := hpopulated n result hn
    exact ⟨c', id, by simp [PendingCallCache.force_completion, hw], hr, hc'⟩
  · intro n hn
    simp only [PendingCallCache.force_completion] at hn ⊢
    grind
  · intro n hn
    simp only [PendingCallCache.force_completion] at hn ⊢
    grind

/-- The counter only grows. -/
theorem issued_step {op : CallOp} (h : s.step op = some s') : s.issued ≤ s'.issued := by
  cases op <;> simp only [PendingCallCache.step] at h <;>
    grind [PendingCallCache.setCall, PendingCallCache.setResult, PendingCallCache.force_completion,
      PendingCallCache.populate_message_for_result, PendingCallCache.complete_response,
      Option.map_eq_some_iff]

/-- The invariant of the runs whose steps are all orderly. -/
theorem orderly_step {op : CallOp} (hs : s.Numbered ∧ s.Recorded) (hC : s.Orderly op)
    (h : s.step op = some s') (hlt : s'.issued < 2 ^ 32) : s'.Numbered ∧ s'.Recorded := by
  obtain ⟨hn, hr⟩ := hs
  cases op with
  | load c =>
    simp only [PendingCallCache.step, Option.ite_none_right_eq_some, Option.some.injEq] at h
    obtain ⟨hc, rfl⟩ := h
    refine ⟨hn.load hC, hr.move ?_ ?_⟩
    · simp [hc, CallPlace.id?]
    · simp [hc, CallPlace.Early]
  | store c =>
    simp only [PendingCallCache.step] at h
    split at h
    · rename_i id hc
      cases h
      have hmove := hr.move (c := c) (p := .numbered id) (by simp [hc, CallPlace.id?])
        (by simp [hc, CallPlace.Early])
      exact ⟨hn.store hc hlt, ⟨hmove.1, hmove.2, hmove.3, hmove.4, hmove.5, hmove.6, hmove.7, hmove.8⟩⟩
    · cases h
  | save_completion_details c =>
    simp only [PendingCallCache.step] at h
    split at h
    · rename_i id hc
      cases h
      have hmove := hn.move (c := c) (p := .registered id) (by simp [hc, CallPlace.id?]) (by simp)
      exact ⟨⟨hmove.1, hmove.2, hmove.3, hmove.4, hmove.5⟩, hr.save_completion_details hn hc⟩
    · cases h
  | sent c | refuse c | fail c =>
    simp only [PendingCallCache.step] at h
    split at h
    · rename_i id hc
      cases h
      exact ⟨hn.move (by simp [hc, CallPlace.id?]) (by simp),
        hr.move (by simp [hc, CallPlace.id?]) (by simp [CallPlace.Early])⟩
    · cases h
  | force_completion c =>
    simp only [PendingCallCache.step] at h
    split at h
    · rename_i id hc
      cases h
      have hforced : (s.force_completion c).Numbered := ⟨hn.1, hn.2, hn.3, hn.4, hn.5⟩
      have hplace : (s.force_completion c).calls c = .failing id := hc
      exact ⟨hforced.move (by simp [hplace, CallPlace.id?]) (by simp),
        (hr.force_completion hC c).move (by simp [hplace, CallPlace.id?]) (by simp [CallPlace.Early])⟩
    · cases h
  | populate_message_for_result n result parsed =>
    simp only [PendingCallCache.step] at h
    split at h
    · rename_i id habsent hid
      cases h
      refine ⟨?_, hr.populate_message_for_result habsent hid parsed⟩
      unfold PendingCallCache.populate_message_for_result
      split <;> exact ⟨hn.1, hn.2, hn.3, hn.4, hn.5⟩
    · cases h
  | complete_response n =>
    simp only [PendingCallCache.step] at h
    split at h
    · rename_i result hpop
      obtain ⟨id, hid, rfl⟩ := Option.map_eq_some_iff.mp h
      refine ⟨?_, hr.complete_response hn hpop hid⟩
      unfold PendingCallCache.complete_response
      split <;> exact ⟨hn.1, hn.2, hn.3, hn.4, hn.5⟩
    · cases h
  | run n =>
    simp only [PendingCallCache.step] at h
    split at h
    · rename_i c hc
      cases h
      exact ⟨⟨hn.1, hn.2, hn.3, hn.4, hn.5⟩, hr.run hc⟩
    · cases h

theorem Recorded.completesOnce (hr : s.Recorded) : s.CompletesOnce where
  once := runs_le_one hr.justified
  removed := by
    intro c n hm k hk
    obtain ⟨id, hid, -⟩ := (hr.cached k c).mp hk
    rw [life_of_ran hr.justified hm] at hid
    cases hid
  own := by
    intro pre c n result post heq
    exact hr.justified pre _ post heq
  unknown := by
    intro n c hu hran
    obtain ⟨result, hw⟩ := wrote_of_ran hr.justified hran
    exact (hr.unknown n hu).2 c result hw
  failed := by
    intro pre c post heq c' id hreg
    have hall : Allowed pre (.forced c) := hr.justified pre _ post heq
    rcases hall c' with hun | ⟨n, hran⟩
    · exact absurd hun (life_of_registered hreg)
    · exact ⟨n, ran_mem_of_life hran⟩

theorem init_sound : (callMachine.init).Numbered ∧ (callMachine.init).Recorded := by
  refine ⟨⟨rfl, ?_, ?_, ?_, ?_⟩, ⟨?_, ?_, ?_, ?_, ?_, ?_, ?_, justified_nil⟩⟩
  all_goals simp [callMachine, CallPlace.id?, life]

/-- Calls complete once, with their own result, in every run of fewer than 2^32 calls whose steps are
all orderly. -/
theorem calls_complete_once (ops : List CallOp) (s : PendingCallCache)
    (h : callMachine.exec callMachine.init ops = some s) (hcalls : s.issued < 2 ^ 32)
    (hC : callMachine.AllSteps Orderly callMachine.init ops) : s.CompletesOnce := by
  have hinv : s.issued < 2 ^ 32 → s.Numbered ∧ s.Recorded := by
    refine Machine.exec_invariant (C := Orderly) (P := fun s => s.issued < 2 ^ 32 → s.Numbered ∧ s.Recorded)
      ?_ (fun _ => init_sound) hC h
    intro s1 op s2 hs hop h12 hlt
    exact orderly_step (hs (Nat.lt_of_le_of_lt (issued_step h12) hlt)) hop h12 hlt
  exact (hinv hcalls).2.completesOnce

/-- A call that is answered. -/
def answeredOps : List CallOp :=
  [.load 0, .store 0, .save_completion_details 0, .sent 0,
    .populate_message_for_result 0 { id := some 0 } true, .complete_response 0, .run 0]

theorem calls_complete_once_answered :
    ∃ s, callMachine.exec callMachine.init answeredOps = some s ∧ .ran 0 (some 0) ∈ s.history ∧
      s.CompletesOnce := by
  have hrun : ∃ s, callMachine.exec callMachine.init answeredOps = some s ∧ .ran 0 (some 0) ∈ s.history ∧
      s.issued = 1 := ⟨_, rfl, by decide, rfl⟩
  obtain ⟨s, hs, hran, hissued⟩ := hrun
  have hC : callMachine.AllSteps Orderly callMachine.init answeredOps := by
    refine ⟨?_, fun _ _ => ⟨trivial, fun _ _ => ⟨trivial, fun _ _ => ⟨trivial, fun _ _ => ⟨trivial,
      fun _ _ => ⟨trivial, fun _ _ => ⟨trivial, fun _ _ => trivial⟩⟩⟩⟩⟩⟩⟩
    intro c id hc
    cases hc
  exact ⟨s, hs, hran, calls_complete_once answeredOps s hs (by omega) hC⟩

/-- Two calls that read the counter before either writes it, and then a failed send. -/
def racingOps : List CallOp :=
  [.load 0, .load 1, .store 0, .store 1, .save_completion_details 0, .save_completion_details 1, .fail 1,
    .force_completion 1]

/-- The first of two calls with the same id is overwritten, and its closure never runs. -/
theorem overwritten_call_never_completes :
    ∃ s, callMachine.exec callMachine.init racingOps = some s ∧ s.issued < 2 ^ 32 ∧ ¬s.CompletesOnce := by
  have hrun : ∃ s, callMachine.exec callMachine.init racingOps = some s ∧ s.issued = 2 ∧
      s.history = [.registered 0 0, .registered 1 0, .ran 1 none] ++ .forced 1 :: [] :=
    ⟨_, rfl, rfl, by decide⟩
  obtain ⟨s, hs, hissued, hhistory⟩ := hrun
  refine ⟨s, hs, by omega, ?_⟩
  intro hone
  obtain ⟨n, hn⟩ := hone.failed _ _ _ hhistory 0 0 (by decide)
  simp at hn

end PendingCallCache

end AnboxReboxed.Rpc
