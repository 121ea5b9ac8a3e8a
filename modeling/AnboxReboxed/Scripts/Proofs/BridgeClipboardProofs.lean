import AnboxReboxed.Scripts.BridgeClipboard
import Mathlib.Data.Set.Function

/-!
# Proofs: the clipboards on both sides of the bridge

At any time one side is ahead of the other one: all that is under way comes from there, and it ends with the text on its
clipboard. The lead changes only when nothing is under way.
-/

namespace AnboxReboxed.Scripts.BridgeClipboard

open AnboxReboxed.Lib

variable {digest_text : ByteString → Digest} {S : Set ByteString} {w w' : World} {c : Clipboards} {label : Label}

/-! ## What the handlers do -/

namespace Clipboards

variable (digest_text c) {text : ByteString} {message : Changed}

theorem clipboard_poll_cases (hshort : text.length ≤ MAX_CLIPBOARD) :
    (c.suppress_clipboard = some (digest_text text) ∧
      c.clipboard_poll digest_text text =
        { c with polling := none, suppress_clipboard := none, last_clipboard := some (digest_text text) }) ∨
    (c.suppress_clipboard ≠ some (digest_text text) ∧ text ≠ [] ∧ c.last_clipboard ≠ some (digest_text text) ∧
      c.clipboard_poll digest_text text =
        { c with
          polling := none
          last_clipboard := some (digest_text text)
          changed := c.changed ++ [{ text, digest := digest_text text }] }) ∨
    (c.suppress_clipboard ≠ some (digest_text text) ∧ (text = [] ∨ c.last_clipboard = some (digest_text text)) ∧
      c.clipboard_poll digest_text text = { c with polling := none }) := by
  simp only [clipboard_poll, if_neg (Nat.not_lt.mpr hshort)]
  by_cases hsuppress : c.suppress_clipboard = some (digest_text text)
  · exact Or.inl ⟨hsuppress, by rw [if_pos hsuppress.symm]⟩
  · rw [if_neg (Ne.symm hsuppress)]
    by_cases hsend : text ≠ [] ∧ some (digest_text text) ≠ c.last_clipboard
    · exact Or.inr (Or.inl ⟨hsuppress, hsend.1, Ne.symm hsend.2, by rw [if_pos hsend]⟩)
    · refine Or.inr (Or.inr ⟨hsuppress, ?_, by rw [if_neg hsend]⟩)
      by_cases htext : text = []
      · exact Or.inl htext
      · exact Or.inr (not_not.mp fun hlast => hsend ⟨htext, Ne.symm hlast⟩)

theorem clipboard_push_cases (htext : text ≠ []) (hshort : text.length ≤ MAX_CLIPBOARD) :
    (c.last_clipboard ≠ some (digest_text text) ∧
      c.clipboard_push digest_text text =
        { c with
          suppress_clipboard := some (digest_text text)
          last_clipboard := some (digest_text text)
          writing := some text }) ∨
    (c.last_clipboard = some (digest_text text) ∧ c.clipboard_push digest_text text = c) := by
  have hpass : ¬ (text = [] ∨ text.length > MAX_CLIPBOARD) := fun h => h.elim htext (Nat.not_lt.mpr hshort)
  rw [clipboard_push, if_neg hpass]
  by_cases hlast : c.last_clipboard = some (digest_text text)
  · exact Or.inr ⟨hlast, if_neg fun h => h hlast.symm⟩
  · exact Or.inl ⟨hlast, if_pos (Ne.symm hlast)⟩

theorem receiveClipboard_eq (htext : message.text ≠ []) (hshort : message.text.length ≤ MAX_CLIPBOARD) :
    c.receiveClipboard message =
      { c with
        lastRemoteClipboard := some message.digest
        android := message.text
        callbacks := c.callbacks + 1 } :=
  if_neg fun h => h.elim htext (Nat.not_lt.mpr hshort)

theorem onPrimaryClipChanged_cases (htext : c.android ≠ []) (hshort : c.android.length ≤ MAX_CLIPBOARD) :
    (c.lastRemoteClipboard = some (digest_text c.android) ∧
      c.onPrimaryClipChanged digest_text = { c with lastRemoteClipboard := none }) ∨
    (c.lastRemoteClipboard ≠ some (digest_text c.android) ∧
      c.onPrimaryClipChanged digest_text = { c with pushed := c.pushed ++ [c.android] }) := by
  have hpass : ¬ (c.android = [] ∨ c.android.length > 1024 * 1024) := fun h => h.elim htext (Nat.not_lt.mpr hshort)
  rw [onPrimaryClipChanged, if_neg hpass]
  by_cases hremote : c.lastRemoteClipboard = some (digest_text c.android)
  · exact Or.inl ⟨hremote, if_pos hremote.symm⟩
  · exact Or.inr ⟨hremote, if_neg (Ne.symm hremote)⟩

end Clipboards

namespace World

/-! ## The texts of a run -/

/-- The texts come from `S`, and those in the frames are not empty. -/
structure Known (digest_text : ByteString → Digest) (S : Set ByteString) (w : World) : Prop where
  host : w.now.host ∈ S
  android : w.now.android ∈ S
  polling : ∀ x, w.now.polling = some x → x ∈ S
  writing : ∀ x, w.now.writing = some x → x ∈ S ∧ x ≠ []
  changed : ∀ m ∈ w.now.changed, m.text ∈ S ∧ m.text ≠ [] ∧ m.digest = digest_text m.text
  pushed : ∀ x ∈ w.now.pushed, x ∈ S ∧ x ≠ []
  /-- A marker is set together with the last text. -/
  marked : w.now.last_clipboard = none → w.now.suppress_clipboard = none

/-- The text that a user copies is one of `S`. -/
def Within (S : Set ByteString) (label : Label) : Prop := ∀ text, label.copied? = some text → text ∈ S

/-- What the step is, label by label. -/
theorem step_eq_some (h : w.step digest_text label = some w') :
    ∃ now, w.now.step digest_text label = some now ∧ w' = w.observe now label := by
  obtain ⟨now, hnow, rfl⟩ := Option.map_eq_some_iff.mp h
  exact ⟨now, hnow, rfl⟩

theorem push_eq_some {now : Clipboards} (h : c.step digest_text .push = some now) :
    c.writing = none ∧ ∃ text pushed, c.pushed = text :: pushed ∧
      now = Clipboards.clipboard_push digest_text { c with pushed } text := by
  simp only [Clipboards.step] at h
  split at h
  · next text pushed hwriting hpushed => exact ⟨hwriting, text, pushed, hpushed, (Option.some.inj h).symm⟩
  · cases h

theorem receive_eq_some {now : Clipboards} (h : c.step digest_text .receiveClipboard = some now) :
    ∃ message changed, c.changed = message :: changed ∧
      now = Clipboards.receiveClipboard { c with changed } message := by
  simp only [Clipboards.step] at h
  split at h
  · next message changed hchanged => exact ⟨message, changed, hchanged, (Option.some.inj h).symm⟩
  · cases h

theorem observe_now {now : Clipboards} : (w.observe now label).now = now := by
  cases label <;> rfl

theorem changed_length_le {now : Clipboards} (h : c.step digest_text label = some now) (hlabel : label ≠ .poll_done) :
    now.changed.length ≤ c.changed.length := by
  cases label with
  | poll_done => exact absurd rfl hlabel
  | push =>
    obtain ⟨-, text, pushed, -, rfl⟩ := push_eq_some h
    unfold Clipboards.clipboard_push
    split_ifs <;> exact Nat.le_refl _
  | receiveClipboard =>
    obtain ⟨message, changed, hchanged, rfl⟩ := receive_eq_some h
    rw [hchanged]
    unfold Clipboards.receiveClipboard
    split_ifs <;> exact Nat.le_succ _
  | onPrimaryClipChanged =>
    obtain ⟨-, rfl⟩ := of_guard_eq_some h
    unfold Clipboards.onPrimaryClipChanged
    split_ifs <;> exact Nat.le_refl _
  | write =>
    obtain ⟨text, -, rfl⟩ := Option.map_eq_some_iff.mp h
    exact Nat.le_refl _
  | _ =>
    obtain ⟨-, rfl⟩ := of_guard_eq_some h
    exact Nat.le_refl _

theorem pushed_length_le {now : Clipboards} (h : c.step digest_text label = some now)
    (hlabel : label ≠ .onPrimaryClipChanged) : now.pushed.length ≤ c.pushed.length := by
  cases label with
  | onPrimaryClipChanged => exact absurd rfl hlabel
  | poll_done =>
    obtain ⟨x, -, rfl⟩ := Option.map_eq_some_iff.mp h
    simp only [Clipboards.clipboard_poll]
    split_ifs <;> exact Nat.le_refl _
  | push =>
    obtain ⟨-, text, pushed, hpushed, rfl⟩ := push_eq_some h
    rw [hpushed]
    unfold Clipboards.clipboard_push
    split_ifs <;> exact Nat.le_succ _
  | receiveClipboard =>
    obtain ⟨message, changed, -, rfl⟩ := receive_eq_some h
    unfold Clipboards.receiveClipboard
    split_ifs <;> exact Nat.le_refl _
  | write =>
    obtain ⟨text, -, rfl⟩ := Option.map_eq_some_iff.mp h
    exact Nat.le_refl _
  | _ =>
    obtain ⟨-, rfl⟩ := of_guard_eq_some h
    exact Nat.le_refl _

theorem of_copied {text : ByteString} (h : (if w.Quiescent then none else w.copied) = some text) :
    w.copied = some text := by
  split at h
  · cases h
  · exact h

theorem Known.step (hS : ∀ text ∈ S, text.length ≤ MAX_CLIPBOARD) (hw : w.Known digest_text S)
    (hlabel : Within S label) (h : w.step digest_text label = some w') : w'.Known digest_text S := by
  obtain ⟨now, hnow, rfl⟩ := step_eq_some h
  cases label with
  | host_copy text =>
    obtain ⟨-, rfl⟩ := of_guard_eq_some hnow
    exact { hw with host := hlabel text rfl }
  | android_copy text =>
    obtain ⟨-, rfl⟩ := of_guard_eq_some hnow
    exact { hw with android := hlabel text rfl }
  | poll_read =>
    obtain ⟨-, rfl⟩ := of_guard_eq_some hnow
    exact { hw with polling := fun x hx => Option.some.inj hx ▸ hw.host }
  | poll_done =>
    obtain ⟨x, hx, rfl⟩ := Option.map_eq_some_iff.mp hnow
    have hxS := hw.polling x hx
    have hdone : ∀ y, (none : Option ByteString) = some y → y ∈ S := fun y hy => by cases hy
    rcases Clipboards.clipboard_poll_cases digest_text w.now (hS x hxS) with
      ⟨-, heq⟩ | ⟨-, hne, -, heq⟩ | ⟨-, -, heq⟩
    · rw [heq]
      exact { hw with polling := hdone, marked := (fun h => by cases h) }
    · rw [heq]
      refine { hw with polling := hdone, marked := (fun h => by cases h), changed := fun m hm => ?_ }
      rcases List.mem_append.mp hm with hm | hm
      · exact hw.changed m hm
      · cases List.mem_singleton.mp hm
        exact ⟨hxS, hne, rfl⟩
    · rw [heq]
      exact { hw with polling := hdone }
  | push =>
    obtain ⟨hwriting, text, pushed, hpushed, rfl⟩ := push_eq_some hnow
    obtain ⟨htext, hne⟩ := hw.pushed text (hpushed ▸ List.mem_cons_self)
    have hrest : ∀ x ∈ pushed, x ∈ S ∧ x ≠ [] := fun x hx => hw.pushed x (hpushed ▸ List.mem_cons_of_mem _ hx)
    rcases Clipboards.clipboard_push_cases digest_text { w.now with pushed } hne
      (hS text htext) with ⟨-, heq⟩ | ⟨-, heq⟩
    · rw [heq]
      exact { hw with
        pushed := hrest
        writing := fun x hx => Option.some.inj hx ▸ ⟨htext, hne⟩
        marked := (fun h => by cases h) }
    · rw [heq]
      exact { hw with pushed := hrest }
  | write =>
    obtain ⟨text, htext, rfl⟩ := Option.map_eq_some_iff.mp hnow
    exact { hw with host := (hw.writing text htext).1, writing := (fun x hx => by cases hx) }
  | receiveClipboard =>
    obtain ⟨message, changed, hchanged, rfl⟩ := receive_eq_some hnow
    obtain ⟨htext, hne, -⟩ := hw.changed message (hchanged ▸ List.mem_cons_self)
    rw [Clipboards.receiveClipboard_eq _ hne (hS _ htext)]
    exact { hw with
      android := htext
      changed := fun m hm => hw.changed m (hchanged ▸ List.mem_cons_of_mem _ hm) }
  | onPrimaryClipChanged =>
    obtain ⟨-, rfl⟩ := of_guard_eq_some hnow
    by_cases hne : w.now.android = []
    · rw [Clipboards.onPrimaryClipChanged, if_pos (Or.inl hne)]
      exact { hw with }
    · rcases Clipboards.onPrimaryClipChanged_cases digest_text
        { w.now with callbacks := w.now.callbacks - 1 } hne (hS _ hw.android) with ⟨-, heq⟩ | ⟨-, heq⟩
      · rw [heq]
        exact { hw with }
      · rw [heq]
        refine { hw with pushed := fun x hx => ?_ }
        rcases List.mem_append.mp hx with hx | hx
        · exact hw.pushed x hx
        · cases List.mem_singleton.mp hx
          exact ⟨hw.android, hne⟩

/-! ## One side is ahead -/

/-- What the poll has in hand is what is on the host. -/
def Still (w : World) : Prop := ∀ x, w.now.polling = some x → x = w.now.host

/-- The text that Android has once all frames have arrived there. -/
def due (w : World) : ByteString := (w.now.changed.map Changed.text).getLastD w.now.android

/-- Nothing is on its way to the host. -/
structure HostLeads (digest_text : ByteString → Digest) (w : World) : Prop where
  pushed : w.now.pushed = []
  writing : w.now.writing = none
  callbacks : w.now.callbacks = 0 ∨
    w.now.callbacks = 1 ∧ w.now.lastRemoteClipboard = some (digest_text w.now.android) ∧ w.now.android ≠ []
  last : ∀ d, w.now.last_clipboard = some d → d = digest_text w.due
  got : w.host_got ≠ [] → w.now.last_clipboard = some (digest_text w.now.host) ∧ w.Still
  suppress : w.now.suppress_clipboard = some (digest_text w.now.host) →
    w.now.last_clipboard = some (digest_text w.now.host) ∧ w.Still
  suppressed : ∀ x, w.now.polling = some x → w.now.suppress_clipboard = some (digest_text x) →
    w.now.last_clipboard = some (digest_text x)
  empty : w.now.host = [] →
    (w.now.last_clipboard = none ∨ w.now.last_clipboard = some (digest_text w.now.host)) ∧ w.Still
  fresh : w.fresh = true → w.Still
  polled : w.polled = true → (w.now.host = [] ∨ w.now.last_clipboard = some (digest_text w.now.host)) ∧ w.Still
  copied : ∀ text, w.copied = some text → w.now.host = text ∧ text ≠ []

/-- Nothing is on its way to Android. -/
structure AndroidLeads (digest_text : ByteString → Digest) (w : World) : Prop where
  changed : w.now.changed = []
  still : w.Still
  apart : w.now.polling ≠ none → w.now.writing = none
  written : ∀ text, w.now.writing = some text → w.now.last_clipboard = some (digest_text text)
  settled : w.now.writing = none →
    w.now.last_clipboard = some (digest_text w.now.host) ∨ w.now.host = [] ∧ w.now.last_clipboard = none
  drained : w.now.callbacks = 0 → w.now.android = w.now.pushed.getLastD (w.now.writing.getD w.now.host)
  own : w.now.callbacks ≠ 0 →
    w.android_got = [] ∧ w.now.lastRemoteClipboard ≠ some (digest_text w.now.android) ∧ w.now.android ≠ []
  copied : ∀ text, w.copied = some text → w.now.android = text

theorem HostLeads.host_copy {text : ByteString} (hw : w.HostLeads digest_text) (htext : text ≠ [])
    (hO : w.Orderly digest_text (.host_copy text)) :
    (w.observe { w.now with host := text } (.host_copy text)).HostLeads digest_text := by
  obtain ⟨hpushed, hwriting, -, hsuppress⟩ := hO
  exact { hw with
    got := fun h => absurd rfl h
    suppress := fun h => absurd h hsuppress
    empty := fun h => absurd h htext
    fresh := (fun h => by cases h)
    polled := (fun h => by cases h)
    copied := fun t ht => Option.some.inj ht ▸ ⟨rfl, htext⟩ }

/-- The host takes over when nothing is left of what Android has sent. -/
theorem AndroidLeads.host_copy {text : ByteString} (hw : w.AndroidLeads digest_text) (hk : w.Known digest_text S)
    (htext : text ≠ []) (hO : w.Orderly digest_text (.host_copy text)) :
    (w.observe { w.now with host := text } (.host_copy text)).HostLeads digest_text := by
  obtain ⟨hpushed, hwriting, hcallbacks, hsuppress⟩ := hO
  have hzero : w.now.callbacks = 0 := by
    rcases hcallbacks with h | ⟨h, hremote⟩
    · exact h
    · exact absurd hremote (hw.own (by omega)).2.1
  have handroid : w.now.android = w.now.host := by
    have h := hw.drained hzero
    rwa [hpushed, hwriting] at h
  have hdue : w.due = w.now.host := by
    rw [due, hw.changed]
    exact handroid
  refine
    { pushed := hpushed
      writing := hwriting
      callbacks := Or.inl hzero
      last := fun d hd => ?_
      got := fun h => absurd rfl h
      suppress := fun h => absurd h hsuppress
      suppressed := fun x hx hsupp => ?_
      empty := fun h => absurd h htext
      fresh := (fun h => by cases h)
      polled := (fun h => by cases h)
      copied := fun t ht => Option.some.inj ht ▸ ⟨rfl, htext⟩ }
  · show d = digest_text w.due
    rw [hdue]
    rcases hw.settled hwriting with h | ⟨-, h⟩
    · exact Option.some.inj (hd.symm.trans h)
    · cases hd.symm.trans h
  · show w.now.last_clipboard = some (digest_text x)
    rw [hw.still x hx]
    rcases hw.settled hwriting with h | ⟨-, h⟩
    · exact h
    · cases (hk.marked h).symm.trans hsupp

theorem HostLeads.android_copy {text : ByteString} (hw : w.HostLeads digest_text) (htext : text ≠ [])
    (hO : w.Orderly digest_text (.android_copy text)) :
    (w.observe { w.now with android := text, callbacks := w.now.callbacks + 1 } (.android_copy text)).AndroidLeads
      digest_text := by
  obtain ⟨hchanged, hsettled, hpolling, hremote⟩ := hO
  have hstill : w.Still := by
    intro x hx
    rcases hpolling with h | h
    · cases h.symm.trans hx
    · exact Option.some.inj (hx.symm.trans h)
  exact
    { changed := hchanged
      still := hstill
      apart := fun _ => hw.writing
      written := (fun _ hx => by cases hw.writing.symm.trans hx)
      settled := fun _ => by
        rcases hsettled hw.writing with h | h
        · rcases (hw.empty h).1 with hlast | hlast
          · exact Or.inr ⟨h, hlast⟩
          · exact Or.inl hlast
        · exact Or.inl h
      drained := (fun h => by cases h)
      own := fun _ => ⟨rfl, hremote, htext⟩
      copied := fun t ht => Option.some.inj ht }

theorem AndroidLeads.android_copy {text : ByteString} (hw : w.AndroidLeads digest_text) (htext : text ≠ [])
    (hO : w.Orderly digest_text (.android_copy text)) :
    (w.observe { w.now with android := text, callbacks := w.now.callbacks + 1 } (.android_copy text)).AndroidLeads
      digest_text := by
  obtain ⟨-, -, -, hremote⟩ := hO
  exact { hw with
    drained := (fun h => by cases h)
    own := fun _ => ⟨rfl, hremote, htext⟩
    copied := fun t ht => Option.some.inj ht }

theorem HostLeads.poll_read (hw : w.HostLeads digest_text) :
    (w.observe { w.now with polling := some w.now.host } .poll_read).HostLeads digest_text := by
  have hstill : (w.observe { w.now with polling := some w.now.host } .poll_read).Still :=
    fun x hx => (Option.some.inj hx).symm
  exact { hw with
    got := fun h => ⟨(hw.got h).1, hstill⟩
    suppress := fun h => ⟨(hw.suppress h).1, hstill⟩
    suppressed := fun _ hx hs => by
      cases Option.some.inj hx
      exact (hw.suppress hs).1
    empty := fun h => ⟨(hw.empty h).1, hstill⟩
    fresh := fun _ => hstill
    polled := fun h => ⟨(hw.polled h).1, hstill⟩
    copied := fun t ht => hw.copied t (of_copied ht) }

theorem AndroidLeads.poll_read (hw : w.AndroidLeads digest_text) (hO : w.Orderly digest_text .poll_read) :
    (w.observe { w.now with polling := some w.now.host } .poll_read).AndroidLeads digest_text :=
  { hw with
    still := fun _ hx => (Option.some.inj hx).symm
    apart := fun _ => hO
    copied := fun t ht => hw.copied t (of_copied ht) }

theorem HostLeads.poll_done {x : ByteString} (hw : w.HostLeads digest_text) (hx : w.now.polling = some x)
    (hshort : x.length ≤ MAX_CLIPBOARD) :
    (w.observe (w.now.clipboard_poll digest_text x) .poll_done).HostLeads digest_text := by
  have hcopied : ∀ text, (if w.Quiescent then none else w.copied) = some text → w.now.host = text ∧ text ≠ [] :=
    fun t ht => hw.copied t (of_copied ht)
  rcases Clipboards.clipboard_poll_cases digest_text w.now hshort with
    ⟨hsupp, heq⟩ | ⟨hsupp, hne, hlast, heq⟩ | ⟨-, hdone, heq⟩
  · have hlast : w.now.last_clipboard = some (digest_text x) := hw.suppressed x hx hsupp
    rw [heq, ← hlast]
    refine { hw with
      got := fun h => ⟨(hw.got h).1, ?_⟩
      suppress := (fun h => by cases h)
      suppressed := (fun y hy => by cases hy)
      empty := fun h => ⟨(hw.empty h).1, ?_⟩
      fresh := (fun h => by cases h)
      polled := fun h => ⟨?_, ?_⟩
      copied := hcopied }
    on_goal 3 =>
      rcases Bool.or_eq_true_iff.mp h with h | h
      · exact (hw.polled h).1
      · exact Or.inr (hw.fresh h x hx ▸ hlast)
    all_goals exact fun y hy => by cases hy
  · -- What is sent was copied by a user, and it is not on its way already.
    have hother : w.Still → w.now.last_clipboard ≠ some (digest_text w.now.host) := fun h => h x hx ▸ hlast
    rw [heq]
    refine { hw with
      last := fun d hd => ?_
      got := fun h => absurd (hw.got h).1 (hother (hw.got h).2)
      suppress := fun h => absurd h ((hw.suppress h).2 x hx ▸ hsupp)
      suppressed := (fun y hy => by cases hy)
      empty := fun h => absurd ((hw.empty h).2 x hx ▸ h) hne
      fresh := (fun h => by cases h)
      polled := fun h => ⟨?_, fun y hy => by cases hy⟩
      copied := hcopied }
    · show d = digest_text (((w.now.changed ++ [_]).map Changed.text).getLastD w.now.android)
      rw [List.map_append, List.map_singleton, List.getLastD_concat]
      exact (Option.some.inj hd).symm
    · rcases Bool.or_eq_true_iff.mp h with h | h
      · obtain ⟨hhost, hstill⟩ := hw.polled h
        exact absurd (hhost.resolve_left (hstill x hx ▸ hne)) (hother hstill)
      · exact Or.inr (congrArg (fun t => some (digest_text t)) (hw.fresh h x hx))
  · rw [heq]
    refine { hw with
      got := fun h => ⟨(hw.got h).1, ?_⟩
      suppress := fun h => ⟨(hw.suppress h).1, ?_⟩
      suppressed := (fun y hy => by cases hy)
      empty := fun h => ⟨(hw.empty h).1, ?_⟩
      fresh := (fun h => by cases h)
      polled := fun h => ⟨?_, ?_⟩
      copied := hcopied }
    on_goal 4 =>
      rcases Bool.or_eq_true_iff.mp h with h | h
      · exact (hw.polled h).1
      · exact hw.fresh h x hx ▸ hdone
    all_goals exact fun y hy => by cases hy

/-- The poll finds what came from Android, and nothing else. -/
theorem AndroidLeads.poll_done_eq {x : ByteString} (hw : w.AndroidLeads digest_text) (hx : w.now.polling = some x)
    (hshort : x.length ≤ MAX_CLIPBOARD) :
    (w.now.clipboard_poll digest_text x).changed = [] ∧
    (w.observe (w.now.clipboard_poll digest_text x) .poll_done).AndroidLeads digest_text := by
  have hcopied : ∀ text, (if w.Quiescent then none else w.copied) = some text → w.now.android = text :=
    fun t ht => hw.copied t (of_copied ht)
  have hwriting : w.now.writing = none := hw.apart (by rw [hx]; exact Option.some_ne_none x)
  have hhost := hw.still x hx
  rcases Clipboards.clipboard_poll_cases digest_text w.now hshort with
    ⟨-, heq⟩ | ⟨-, hne, hlast, heq⟩ | ⟨-, -, heq⟩
  · rw [heq]
    exact ⟨hw.changed, { hw with
      still := (fun y hy => by cases hy)
      apart := fun _ => hwriting
      written := (fun _ ht => by cases hwriting.symm.trans ht)
      settled := fun _ => Or.inl (congrArg (fun t => some (digest_text t)) hhost)
      copied := hcopied }⟩
  · rcases hw.settled hwriting with h | ⟨h, -⟩
    · exact absurd (hhost ▸ h) hlast
    · exact absurd (hhost.trans h) hne
  · rw [heq]
    exact ⟨hw.changed, { hw with
      still := (fun y hy => by cases hy)
      apart := fun _ => hwriting
      copied := hcopied }⟩

theorem AndroidLeads.push {text : ByteString} {pushed : List ByteString} (hw : w.AndroidLeads digest_text)
    (hk : w.Known digest_text S) (hS : ∀ text ∈ S, text.length ≤ MAX_CLIPBOARD) (hinj : Set.InjOn digest_text S)
    (hO : w.Orderly digest_text .push) (hwriting : w.now.writing = none) (hpushed : w.now.pushed = text :: pushed) :
    (w.observe (Clipboards.clipboard_push digest_text { w.now with pushed } text) .push).AndroidLeads digest_text := by
  obtain ⟨htext, hne⟩ := hk.pushed text (hpushed ▸ List.mem_cons_self)
  have hdrained : w.now.callbacks = 0 → w.now.android = pushed.getLastD text := by
    intro h
    have h := hw.drained h
    rwa [hpushed, List.getLastD_cons] at h
  have hcopied : ∀ text, (if w.Quiescent then none else w.copied) = some text → w.now.android = text :=
    fun t ht => hw.copied t (of_copied ht)
  rcases Clipboards.clipboard_push_cases digest_text { w.now with pushed } hne (hS text htext) with
    ⟨-, heq⟩ | ⟨hlast, heq⟩
  · rw [heq]
    exact { hw with
      apart := fun h => absurd hO h
      written := fun t ht => Option.some.inj ht ▸ rfl
      settled := (fun h => by cases h)
      drained := hdrained
      copied := hcopied }
  · -- The text is on the host already.
    have hhost : w.now.host = text := by
      rcases hw.settled hwriting with h | ⟨-, h⟩
      · exact hinj hk.host htext (Option.some.inj (h.symm.trans hlast))
      · cases h.symm.trans hlast
    rw [heq]
    refine { hw with drained := fun h => ?_, copied := hcopied }
    show w.now.android = pushed.getLastD (w.now.writing.getD w.now.host)
    rw [hwriting, Option.getD_none, hhost]
    exact hdrained h

theorem AndroidLeads.write {text : ByteString} (hw : w.AndroidLeads digest_text) (htext : w.now.writing = some text) :
    (w.observe { w.now with host := text, writing := none } .write).AndroidLeads digest_text := by
  refine { hw with
    still := fun x hx => ?_
    apart := fun _ => rfl
    written := (fun _ ht => by cases ht)
    settled := fun _ => Or.inl (hw.written text htext)
    drained := fun h => ?_
    copied := fun t ht => hw.copied t (of_copied ht) }
  · have hnone : w.now.writing = none :=
      hw.apart (by rw [show w.now.polling = some x from hx]; exact Option.some_ne_none x)
    cases hnone.symm.trans htext
  · have h := hw.drained h
    rwa [htext] at h

theorem HostLeads.receive {message : Changed} {changed : List Changed} (hw : w.HostLeads digest_text)
    (hk : w.Known digest_text S) (hS : ∀ text ∈ S, text.length ≤ MAX_CLIPBOARD)
    (hO : w.Orderly digest_text .receiveClipboard) (hchanged : w.now.changed = message :: changed) :
    (w.observe (Clipboards.receiveClipboard { w.now with changed } message) .receiveClipboard).HostLeads
      digest_text := by
  obtain ⟨htext, hne, hdigest⟩ := hk.changed message (hchanged ▸ List.mem_cons_self)
  rw [Clipboards.receiveClipboard_eq _ hne (hS _ htext)]
  refine { hw with
    callbacks := Or.inr ⟨congrArg (· + 1) hO, congrArg some hdigest, hne⟩
    last := fun d hd => ?_
    copied := fun t ht => hw.copied t (of_copied ht) }
  have h := hw.last d hd
  rwa [due, hchanged, List.map_cons, List.getLastD_cons] at h

/-- A callback for a text from the host takes the marker away. -/
theorem HostLeads.callback (hw : w.HostLeads digest_text) (hshort : w.now.android.length ≤ MAX_CLIPBOARD)
    (hcallbacks : w.now.callbacks ≠ 0) :
    (Clipboards.onPrimaryClipChanged digest_text { w.now with callbacks := w.now.callbacks - 1 }).pushed = [] ∧
    (w.observe (Clipboards.onPrimaryClipChanged digest_text { w.now with callbacks := w.now.callbacks - 1 })
      .onPrimaryClipChanged).HostLeads digest_text := by
  obtain h | ⟨hone, hremote, hne⟩ := hw.callbacks
  · exact absurd h hcallbacks
  · rcases Clipboards.onPrimaryClipChanged_cases digest_text { w.now with callbacks := w.now.callbacks - 1 } hne
      hshort with ⟨-, heq⟩ | ⟨h, -⟩
    · rw [heq]
      exact ⟨hw.pushed, { hw with
        callbacks := Or.inl (congrArg (· - 1) hone)
        copied := fun t ht => hw.copied t (of_copied ht) }⟩
    · exact absurd hremote h

theorem AndroidLeads.callback (hw : w.AndroidLeads digest_text) (hshort : w.now.android.length ≤ MAX_CLIPBOARD)
    (hcallbacks : w.now.callbacks ≠ 0) :
    (w.observe (Clipboards.onPrimaryClipChanged digest_text { w.now with callbacks := w.now.callbacks - 1 })
      .onPrimaryClipChanged).AndroidLeads digest_text := by
  obtain ⟨hgot, hremote, hne⟩ := hw.own hcallbacks
  rcases Clipboards.onPrimaryClipChanged_cases digest_text { w.now with callbacks := w.now.callbacks - 1 } hne
    hshort with ⟨h, -⟩ | ⟨-, heq⟩
  · exact absurd h hremote
  · rw [heq]
    exact { hw with
      drained := fun _ => List.getLastD_concat.symm
      own := fun _ => ⟨hgot, hremote, hne⟩
      copied := fun t ht => hw.copied t (of_copied ht) }

/-- What holds from step to step: the texts are those of the run, and one of the sides is ahead. -/
def Led (digest_text : ByteString → Digest) (S : Set ByteString) (w : World) : Prop :=
  w.Known digest_text S ∧ (w.HostLeads digest_text ∨ w.AndroidLeads digest_text)

theorem Led.converged (hinj : Set.InjOn digest_text S) (hw : w.Led digest_text S) : w.Converged := by
  rintro ⟨hpushed, hchanged, hwriting, hpolled, hcallbacks⟩ text htext
  obtain ⟨hk, hw | hw⟩ := hw
  · obtain ⟨hhost, hne⟩ := hw.copied text htext
    have hlast := (hw.polled hpolled).1.resolve_left (hhost ▸ hne)
    have hdigest : digest_text w.now.host = digest_text w.now.android := by
      have h := hw.last _ hlast
      rwa [due, hchanged] at h
    exact ⟨hhost, (hinj hk.host hk.android hdigest).symm.trans hhost⟩
  · have handroid := hw.copied text htext
    have hsame := hw.drained hcallbacks
    rw [hpushed, hwriting] at hsame
    exact ⟨hsame.symm.trans handroid, handroid⟩

section

variable (hS : ∀ text ∈ S, text.length ≤ MAX_CLIPBOARD)
include hS

theorem Led.step (hinj : Set.InjOn digest_text S) (hw : w.Led digest_text S) (hlabel : Within S label)
    (hO : w.Orderly digest_text label) (h : w.step digest_text label = some w') : w'.Led digest_text S := by
  obtain ⟨hk, hw⟩ := hw
  refine ⟨hk.step hS hlabel h, ?_⟩
  obtain ⟨now, hnow, rfl⟩ := step_eq_some h
  cases label with
  | host_copy text =>
    obtain ⟨⟨htext, -⟩, rfl⟩ := of_guard_eq_some hnow
    rcases hw with hw | hw
    · exact Or.inl (hw.host_copy htext hO)
    · exact Or.inl (hw.host_copy hk htext hO)
  | android_copy text =>
    obtain ⟨⟨htext, -⟩, rfl⟩ := of_guard_eq_some hnow
    rcases hw with hw | hw
    · exact Or.inr (hw.android_copy htext hO)
    · exact Or.inr (hw.android_copy htext hO)
  | poll_read =>
    obtain ⟨-, rfl⟩ := of_guard_eq_some hnow
    exact hw.imp HostLeads.poll_read fun hw => hw.poll_read hO
  | poll_done =>
    obtain ⟨x, hx, rfl⟩ := Option.map_eq_some_iff.mp hnow
    have hshort := hS x (hk.polling x hx)
    exact hw.imp (fun hw => hw.poll_done hx hshort) fun hw => (hw.poll_done_eq hx hshort).2
  | push =>
    obtain ⟨hwriting, text, pushed, hpushed, rfl⟩ := push_eq_some hnow
    rcases hw with hw | hw
    · cases hw.pushed.symm.trans hpushed
    · exact Or.inr (hw.push hk hS hinj hO hwriting hpushed)
  | write =>
    obtain ⟨text, htext, rfl⟩ := Option.map_eq_some_iff.mp hnow
    rcases hw with hw | hw
    · cases hw.writing.symm.trans htext
    · exact Or.inr (hw.write htext)
  | receiveClipboard =>
    obtain ⟨message, changed, hchanged, rfl⟩ := receive_eq_some hnow
    rcases hw with hw | hw
    · exact Or.inl (hw.receive hk hS hO hchanged)
    · cases hw.changed.symm.trans hchanged
  | onPrimaryClipChanged =>
    obtain ⟨hcallbacks, rfl⟩ := of_guard_eq_some hnow
    have hshort := hS _ hk.android
    exact hw.imp (fun hw => (hw.callback hshort hcallbacks).2) fun hw => hw.callback hshort hcallbacks

/-- A round of the poll sends what has not come from Android. -/
theorem Led.poll_echoless {x : ByteString} (hw : w.Led digest_text S) (hx : w.now.polling = some x) {message : Changed}
    (h : (w.now.clipboard_poll digest_text x).changed = w.now.changed ++ [message]) : message.text ∉ w.host_got := by
  obtain ⟨hk, hw⟩ := hw
  have hshort := hS x (hk.polling x hx)
  have hnone : w.now.changed ≠ w.now.changed ++ [message] := fun h => by simpa using congrArg List.length h
  rcases hw with hw | hw
  · rcases Clipboards.clipboard_poll_cases digest_text w.now hshort with ⟨-, heq⟩ | ⟨-, -, hlast, -⟩ | ⟨-, -, heq⟩
    · rw [heq] at h
      exact absurd h hnone
    · intro hmem
      obtain ⟨hsent, hstill⟩ := hw.got (List.ne_nil_of_mem hmem)
      exact hlast (hstill x hx ▸ hsent)
    · rw [heq] at h
      exact absurd h hnone
  · rw [(hw.poll_done_eq hx hshort).1, hw.changed] at h
    cases h

/-- A callback sends what has not come from the host. -/
theorem Led.callback_echoless (hw : w.Led digest_text S) (hcallbacks : w.now.callbacks ≠ 0) {text : ByteString}
    (h : (Clipboards.onPrimaryClipChanged digest_text { w.now with callbacks := w.now.callbacks - 1 }).pushed =
      w.now.pushed ++ [text]) : text ∉ w.android_got := by
  obtain ⟨hk, hw | hw⟩ := hw
  · rw [(hw.callback (hS _ hk.android) hcallbacks).1, hw.pushed] at h
    cases h
  · rw [(hw.own hcallbacks).1]
    exact List.not_mem_nil

end

/-- The other steps send nothing. -/
theorem Led.echoless (hS : ∀ text ∈ S, text.length ≤ MAX_CLIPBOARD) (hw : w.Led digest_text S) :
    w.Echoless digest_text label := by
  intro w' h
  obtain ⟨now, hnow, rfl⟩ := step_eq_some h
  have hlonger : ∀ {α : Type} {l l' : List α} {a : α}, l' = l ++ [a] → ¬ l'.length ≤ l.length := by
    intro α l l' a h
    rw [h, List.length_append, List.length_singleton]
    omega
  constructor
  · intro message hsent
    by_cases hlabel : label = .poll_done
    · cases hlabel
      obtain ⟨x, hx, rfl⟩ := Option.map_eq_some_iff.mp hnow
      exact hw.poll_echoless hS hx hsent
    · exact absurd (changed_length_le hnow hlabel) (hlonger (observe_now ▸ hsent))
  · intro text hsent
    by_cases hlabel : label = .onPrimaryClipChanged
    · cases hlabel
      obtain ⟨hcallbacks, rfl⟩ := of_guard_eq_some hnow
      exact hw.callback_echoless hS hcallbacks hsent
    · exact absurd (pushed_length_le hnow hlabel) (hlonger (observe_now ▸ hsent))

end World

/-! ## Runs -/

/-- The texts of a run: those at its start, and those that are copied. -/
def texts (host android : ByteString) (labels : List Label) : Set ByteString :=
  { text | text = host ∨ text = android ∨ text ∈ labels.filterMap Label.copied? }

/-- In a run whose steps are all orderly, the sides agree on the last text that was copied whenever nothing is under
way, and no text is sent back. The digests tell the texts of the run apart. -/
theorem converged_of_orderly (digest_text : ByteString → Digest) (host android : ByteString) (labels : List Label)
    (hshort : ∀ text ∈ texts host android labels, text.length ≤ MAX_CLIPBOARD)
    (hinj : Set.InjOn digest_text (texts host android labels))
    (hO : (clipboardMachine digest_text host android).AllSteps (World.Orderly digest_text)
      (clipboardMachine digest_text host android).init labels) :
    (clipboardMachine digest_text host android).AllStates World.Converged
      (clipboardMachine digest_text host android).init labels ∧
    (clipboardMachine digest_text host android).AllSteps (World.Echoless digest_text)
      (clipboardMachine digest_text host android).init labels := by
  have hinit : World.Led digest_text (texts host android labels) (clipboardMachine digest_text host android).init := by
    refine ⟨?_, Or.inl ?_⟩
    · exact {
        host := Or.inl rfl
        android := Or.inr (Or.inl rfl)
        polling := (fun _ h => by cases h)
        writing := (fun _ h => by cases h)
        changed := fun _ h => absurd h List.not_mem_nil
        pushed := fun _ h => absurd h List.not_mem_nil
        marked := fun _ => rfl }
    · exact {
        pushed := rfl
        writing := rfl
        callbacks := Or.inl rfl
        last := (fun _ h => by cases h)
        got := fun h => absurd rfl h
        suppress := (fun h => by cases h)
        suppressed := (fun _ h => by cases h)
        empty := fun _ => ⟨Or.inl rfl, fun _ h => by cases h⟩
        fresh := (fun h => by cases h)
        polled := (fun h => by cases h)
        copied := (fun _ h => by cases h) }
  have hwithin : ∀ label ∈ labels, World.Within (texts host android labels) label :=
    fun label hlabel text htext => Or.inr (Or.inr (List.mem_filterMap.mpr ⟨label, hlabel, htext⟩))
  have hboth := Machine.allSteps_and (Machine.allSteps_of_forall_mem (fun label hlabel _ => hwithin label hlabel) _) hO
  constructor
  · exact Machine.allStates_of_allSteps (fun w label w' hw h hstep => hw.step hshort hinj h.1 h.2 hstep)
      (fun w hw => hw.converged hinj) hinit hboth
  · exact Machine.allSteps_of_relation (fun w label w' hw h hstep => hw.step hshort hinj h.1 h.2 hstep)
      (fun w label hw _ => hw.echoless hshort) labels _ hinit hboth

/-- The checksums of three texts. -/
def exampleDigest (text : ByteString) : Digest :=
  if text = [] then ByteString.of "e3b0c44298fc1c149afbf4c8996fb92427ae41e4649b934ca495991b7852b855"
  else if text = .of "a" then ByteString.of "ca978112ca1bbdcafac231b39a23dc4da786eff8147c4e72b9807785afee48bb"
  else if text = .of "b" then ByteString.of "3e23e8160039594a33894f6564e1b1348bbd7a0088d42c4acb73eeaed59c009d"
  else []

def exampleTexts : List ByteString := [[], .of "a", .of "b"]

/-- A text of the host reaches Android, and then one of Android the host. -/
def exampleTurns : List Label :=
  [.host_copy (.of "a"), .poll_read, .poll_done, .receiveClipboard, .onPrimaryClipChanged, .android_copy (.of "b"),
    .onPrimaryClipChanged, .push, .write, .poll_read, .poll_done]

theorem converged_of_turns :
    (∀ text ∈ texts [] [] exampleTurns, text.length ≤ MAX_CLIPBOARD) ∧
    Set.InjOn exampleDigest (texts [] [] exampleTurns) ∧
    (clipboardMachine exampleDigest [] []).AllStates World.Converged (clipboardMachine exampleDigest [] []).init
      exampleTurns := by
  have hthree : ∀ text ∈ texts [] [] exampleTurns, text ∈ exampleTexts := by
    rintro text (rfl | rfl | htext)
    · exact List.mem_cons_self
    · exact List.mem_cons_self
    · exact List.mem_cons_of_mem _ htext
  have hshort : ∀ text ∈ texts [] [] exampleTurns, text.length ≤ MAX_CLIPBOARD := by
    have hall : ∀ text ∈ exampleTexts, text.length ≤ MAX_CLIPBOARD := by decide
    exact fun text htext => hall text (hthree text htext)
  have hinj : Set.InjOn exampleDigest (texts [] [] exampleTurns) := by
    have hall : ∀ x ∈ exampleTexts, ∀ y ∈ exampleTexts,
        exampleDigest x = exampleDigest y → x = y := by decide +kernel
    exact fun x hx y hy => hall x (hthree x hx) y (hthree y hy)
  exact ⟨hshort, hinj, (converged_of_orderly exampleDigest [] [] _ hshort hinj (by decide +kernel)).1⟩

/-- The host copies a text before the poll has seen the one from Android. When it copies that one later, the poll takes
it for the one from Android; and a text that comes while the callback for another one is still due is sent back. -/
theorem not_always_converged :
    (¬∀ labels, (clipboardMachine exampleDigest [] []).AllStates World.Converged
      (clipboardMachine exampleDigest [] []).init labels) ∧
    ¬∀ labels, (clipboardMachine exampleDigest [] []).AllSteps (World.Echoless exampleDigest)
      (clipboardMachine exampleDigest [] []).init labels := by
  constructor
  · intro h
    obtain ⟨w, hw⟩ : ∃ w, (clipboardMachine exampleDigest [] []).exec (clipboardMachine exampleDigest [] []).init
        [.android_copy (.of "a"), .onPrimaryClipChanged, .push, .write, .host_copy (.of "b"), .poll_read, .poll_done,
          .receiveClipboard, .onPrimaryClipChanged, .host_copy (.of "a"), .poll_read, .poll_done] = some w := ⟨_, rfl⟩
    have hconverged := (h _).last hw
    cases hw
    exact absurd (hconverged (by decide +kernel) (.of "a") rfl).2 (by decide +kernel)
  · intro h
    obtain ⟨w, hw⟩ : ∃ w, (clipboardMachine exampleDigest [] []).exec (clipboardMachine exampleDigest [] []).init
        [.host_copy (.of "a"), .poll_read, .poll_done, .host_copy (.of "b"), .poll_read, .poll_done, .receiveClipboard,
          .receiveClipboard, .onPrimaryClipChanged] = some w := ⟨_, rfl⟩
    have hsteps := (Machine.allSteps_append hw).mp (h (_ ++ [.onPrimaryClipChanged]))
    cases hw
    exact absurd ((hsteps.2.1 _ rfl).2 (.of "b") rfl) (by decide +kernel)

end AnboxReboxed.Scripts.BridgeClipboard
