import AnboxReboxed.Emugl.Proofs.BudgetProofs
import AnboxReboxed.Emugl.World
import AnboxReboxed.Lib.RefCount

/-!
# Proofs: the reference counts are exact

The references to a guest colour buffer belong to the guest, to the windows it is attached to and to
the post. Each operation moves references between these owners; `Accounted` says that the count in
the table agrees with their sum.
-/

namespace AnboxReboxed.Emugl

open AnboxReboxed.Lib OrdMap Renderer

namespace Renderer

/-- The stored count of `h`. -/
def refcount (r : Renderer) (h : HandleType) : Option Nat :=
  (r.m_colorbuffers.find? h).map ColorBufferRef.refcount

/-- The references to `h` that windows and the post hold. -/
def held (r : Renderer) (h : HandleType) : Nat :=
  r.attachedWindows h + if r.m_lastPostedColorBuffer = h then 1 else 0

/-- The counts of the issued handles agree with what the guest is owed and with what is held. -/
structure Accounted (issued : HandleType → Prop) (owed : HandleType → Int) (r : Renderer) : Prop where
  zero : ¬ issued 0
  attached : ∀ s w, r.m_windows.find? s = some w → w.2 = 0 ∨ issued w.2
  posted : r.m_lastPostedColorBuffer = 0 ∨ issued r.m_lastPostedColorBuffer
  balance : ∀ h, issued h → Accounts (r.refcount h) (owed h) (r.held h)

section

variable {issued : HandleType → Prop} {owed : HandleType → Int} {r r' : Renderer}

theorem Accounted.congr (ha : Accounted issued owed r) (h1 : r'.m_colorbuffers = r.m_colorbuffers)
    (h2 : r'.m_windows = r.m_windows)
    (h3 : r'.m_lastPostedColorBuffer = r.m_lastPostedColorBuffer) : Accounted issued owed r' := by
  refine ⟨ha.zero, by rw [h2]; exact ha.attached, by rw [h3]; exact ha.posted, fun h hi => ?_⟩
  have hb := ha.balance h hi
  unfold refcount held attachedWindows at hb ⊢
  rwa [h1, h2, h3]

/-! ## The counts after one change -/

theorem refcount_drop_ne {a k : HandleType} (hk : k ≠ a) :
    (r.dropReference a).refcount k = r.refcount k := by
  unfold refcount
  rw [find?_dropReference_ne r hk]

theorem refcount_drop_self {a : HandleType} (hpos : ∀ n, r.refcount a = some n → 1 ≤ n) :
    (r.dropReference a).refcount a = dropCount (r.refcount a) := by
  cases hf : r.m_colorbuffers.find? a with
  | none =>
    rw [dropReference_of_not_mem (not_mem_iff.mpr hf)]
    simp [refcount, hf, dropCount]
  | some ref =>
    have h1 : 1 ≤ ref.refcount := hpos _ (by simp [refcount, hf])
    have hd := find?_dropReference_self hf h1
    simp only [refcount, hd, hf, Option.map_some, dropCount]
    by_cases h2 : ref.refcount = 1 <;> simp [h2]

theorem Accounted.ne_zero (ha : Accounted issued owed r) {k : HandleType} (hk : issued k) : k ≠ 0 :=
  fun h => ha.zero (h ▸ hk)

theorem Accounted.pos (ha : Accounted issued owed r) {k : HandleType} (hk : issued k) {n : Nat}
    (hn : r.refcount k = some n) : 1 ≤ n := by
  have := ha.balance k hk
  rw [hn] at this
  exact this.pos

/-- The count of `k` after a window or the post lets go of `a`. -/
theorem refcount_release {a k : HandleType} (hk0 : k ≠ 0) (hpos : ∀ n, r.refcount k = some n → 1 ≤ n) :
    (r.releaseWindowSurfaceColorBufferLocked a).refcount k =
      if k = a then dropCount (r.refcount k) else r.refcount k := by
  unfold releaseWindowSurfaceColorBufferLocked
  by_cases hka : k = a
  · subst hka
    rw [if_neg hk0, if_pos rfl]
    exact refcount_drop_self hpos
  · rw [if_neg hka]
    split_ifs
    · rfl
    · exact refcount_drop_ne hka

theorem Accounted.refcount_release (ha : Accounted issued owed r) {a k : HandleType} (hk : issued k) :
    (r.releaseWindowSurfaceColorBufferLocked a).refcount k =
      if k = a then dropCount (r.refcount k) else r.refcount k :=
  Renderer.refcount_release (ha.ne_zero hk) fun _ hn => ha.pos hk hn

/-- The counts after `++refcount` on an entry that is not saturated. -/
theorem refcount_addReference (hb : Budget r) {p : HandleType}
    (hmax : ∀ ref, r.m_colorbuffers.find? p = some ref → ref.refcount ≠ uint32Max) (k : HandleType) :
    (r.addReference p).refcount k =
      if k = p then (r.refcount k).map (· + 1) else r.refcount k := by
  unfold refcount
  by_cases hkp : k = p
  · subst hkp
    rw [if_pos rfl]
    cases hf : r.m_colorbuffers.find? k with
    | none => simp [addReference, hf]
    | some ref =>
      have hle := (hb.referenced k ref hf).2
      have hne := hmax ref hf
      have hlt : ref.refcount + 1 < 2 ^ 32 := by unfold uint32Max at hle hne; omega
      rw [find?_addReference_self hf]
      simp only [Option.map_some, Nat.mod_eq_of_lt hlt]
  · rw [if_neg hkp, find?_addReference_ne r hkp]

/-! ## What is held after one change -/

theorem attachedWindows_erase {s : HandleType} {w : WindowSurfacePtr × HandleType}
    (hw : r.m_windows.find? s = some w) (hw' : r'.m_windows = r.m_windows.erase s) (k : HandleType) :
    r'.attachedWindows k + (if k = w.2 then 1 else 0) = r.attachedWindows k := by
  unfold attachedWindows
  rw [hw', sumBy_erase _ hw]
  by_cases hk : w.2 = k
  · simp [hk]; omega
  · simp [hk, Ne.symm hk]

theorem attachedWindows_attach {s p : HandleType} {w : WindowSurfacePtr × HandleType}
    (hw : r.m_windows.find? s = some w) (hw' : r'.m_windows = r.m_windows.insert s (w.1, p))
    (k : HandleType) : r'.attachedWindows k + (if k = w.2 then 1 else 0) =
      r.attachedWindows k + if k = p then 1 else 0 := by
  unfold attachedWindows
  rw [hw']
  have := sumBy_replace (fun w : WindowSurfacePtr × HandleType => if w.2 = k then 1 else 0) (w.1, p) hw
  simpa only [eq_comm] using this

/-- One reference moves from `a` to `p`, where zero stands for no handle: the counts and what is held
change together. -/
theorem Accounted.transfer (ha : Accounted issued owed r) {a p : HandleType} (hne : p = 0 ∨ p ≠ a)
    (hlive : p ≠ 0 → p ∈ r.m_colorbuffers)
    (hcount : ∀ k, issued k → r'.refcount k =
      if k = p then (r.refcount k).map (· + 1)
      else if k = a then dropCount (r.refcount k) else r.refcount k)
    (hheld : ∀ k, issued k →
      r'.held k + (if k = a then 1 else 0) = r.held k + if k = p then 1 else 0)
    (hattached : ∀ s w, r'.m_windows.find? s = some w → w.2 = 0 ∨ issued w.2)
    (hposted : r'.m_lastPostedColorBuffer = 0 ∨ issued r'.m_lastPostedColorBuffer) :
    Accounted issued owed r' := by
  refine ⟨ha.zero, hattached, hposted, fun k hk => ?_⟩
  have hk0 := ha.ne_zero hk
  have hb := ha.balance k hk
  have hc := hcount k hk
  have hh := hheld k hk
  by_cases hkp : k = p
  · have hka : k ≠ a := by
      rcases hne with h | h
      · exact absurd (hkp.trans h) hk0
      · exact fun hka => h (hkp.symm.trans hka)
    obtain ⟨ref, hf⟩ := mem_iff.mp (hlive (hkp ▸ hk0))
    have hn : r.refcount k = some ref.refcount := by rw [refcount, hkp, hf]; rfl
    rw [if_pos hkp, hn] at hc
    rw [if_neg hka, if_pos hkp] at hh
    rw [hn] at hb
    have hh' : r'.held k = r.held k + 1 := by omega
    rw [hc, hh']
    exact hb.add_held
  · rw [if_neg hkp] at hc
    rw [if_neg hkp, Nat.add_zero] at hh
    by_cases hka : k = a
    · rw [if_pos hka] at hc hh
      rw [← hh] at hb
      rw [hc]
      exact hb.drop_held
    · rw [if_neg hka] at hc
      rw [if_neg hka, Nat.add_zero] at hh
      rw [hc, hh]
      exact hb

/-! ## Operations on windows -/

theorem accounted_destroyWindow (ha : Accounted issued owed r) (s : HandleType) :
    Accounted issued owed (r.destroyDeferredWindowLocked s) := by
  have hwin := windows_destroy r s
  have hpost := (sameButWindows_destroy r s).posted
  cases hf : r.m_windows.find? s with
  | none =>
    have : r.destroyDeferredWindowLocked s = r := by simp [destroyDeferredWindowLocked, hf]
    rwa [this]
  | some w =>
    have hbuf : (r.destroyDeferredWindowLocked s).m_colorbuffers =
        (r.releaseWindowSurfaceColorBufferLocked w.2).m_colorbuffers := by
      simp [destroyDeferredWindowLocked, hf]
    refine ha.transfer (a := w.2) (p := 0) (Or.inl rfl) (fun h => absurd rfl h) (fun k hk => ?_)
      (fun k hk => ?_) (fun s' w' hw' => ?_) (by rw [hpost]; exact ha.posted)
    · rw [if_neg (ha.ne_zero hk), ← ha.refcount_release hk, refcount, hbuf]
      rfl
    · have hatt := attachedWindows_erase hf hwin k
      unfold held
      rw [hpost, if_neg (ha.ne_zero hk)]
      omega
    · rw [hwin] at hw'
      exact ha.attached s' w' (find?_of_erase hw').2

theorem accounted_cleanup : CleanupInvariant (Accounted issued owed) where
  tables _ _ _ _ ha := ha.congr rfl rfl rfl
  destroy _ s ha := accounted_destroyWindow ha s

/-- A new window has nothing attached. -/
theorem accounted_newWindow (ha : Accounted issued owed r) {id : HandleType} {win : WindowSurfacePtr}
    (hfree : id ∉ r.m_windows) :
    Accounted issued owed { r with m_windows := r.m_windows.insert id (win, 0) } := by
  refine ⟨ha.zero, fun s w hw => ?_, ha.posted, fun k hk => ?_⟩
  · have hw' : (r.m_windows.insert id (win, 0)).find? s = some w := hw
    rw [find?_insert] at hw'
    split_ifs at hw'
    · rw [← Option.some.inj hw']
      exact Or.inl rfl
    · exact ha.attached s w hw'
  · have hheld : Renderer.held { r with m_windows := r.m_windows.insert id (win, 0) } k = r.held k := by
      unfold held attachedWindows
      dsimp only
      rw [sumBy_insert_of_not_mem _ hfree, if_neg (Ne.symm (ha.ne_zero hk)), Nat.zero_add]
    rw [hheld]
    exact ha.balance k hk

/-- The windows after `reattach`, and what it leaves alone. -/
theorem reattach_frame (r : Renderer) (s : HandleType) (w : WindowSurfacePtr × HandleType)
    (p : HandleType) : (r.reattach s w p).m_windows = r.m_windows.insert s (w.1, p) ∧
      (r.reattach s w p).m_lastPostedColorBuffer = r.m_lastPostedColorBuffer := by
  refine ⟨rfl, ?_⟩
  unfold reattach
  dsimp only
  split_ifs
  · exact (sameButBuffers_addReference _ p).posted.trans (sameButBuffers_release r w.2).posted
  · exact (sameButBuffers_release r w.2).posted

theorem accounted_reattach (hb : Budget r) (ha : Accounted issued owed r) {s p : HandleType}
    {w : WindowSurfacePtr × HandleType} (hw : r.m_windows.find? s = some w) (hp : p = 0 ∨ issued p)
    (hlive : p ≠ 0 → p ∈ r.m_colorbuffers) (hne : w.2 ≠ p)
    (hmax : ∀ ref, p ≠ 0 → r.m_colorbuffers.find? p = some ref → ref.refcount ≠ uint32Max) :
    Accounted issued owed (r.reattach s w p) := by
  obtain ⟨hwin, hpost⟩ := reattach_frame r s w p
  refine ha.transfer (a := w.2) (p := p) (Or.inr (Ne.symm hne)) hlive (fun k hk => ?_)
    (fun k hk => ?_) (fun s' w' hw' => ?_) (by rw [hpost]; exact ha.posted)
  · have hrel := ha.refcount_release (a := w.2) hk
    by_cases hp0 : p = 0
    · have hkp : k ≠ p := by rw [hp0]; exact ha.ne_zero hk
      rw [if_neg hkp, ← hrel]
      simp [reattach, refcount, hp0]
    · have hadd := refcount_addReference (budget_release hb w.2) (p := p)
        (fun ref hf => hmax ref hp0 (by rwa [find?_release_ne r (Ne.symm hne)] at hf)) k
      have he : (r.reattach s w p).refcount k =
          ((r.releaseWindowSurfaceColorBufferLocked w.2).addReference p).refcount k := by
        simp [reattach, refcount, hp0]
      rw [he, hadd, hrel]
      by_cases hkp : k = p
      · have hka : k ≠ w.2 := by rw [hkp]; exact Ne.symm hne
        simp only [if_pos hkp, if_neg hka]
      · simp only [if_neg hkp]
  · have hatt := attachedWindows_attach hw hwin k
    unfold held
    rw [hpost]
    omega
  · rw [hwin, find?_insert] at hw'
    split_ifs at hw'
    · rw [← Option.some.inj hw']
      exact hp
    · exact ha.attached s' w' hw'

theorem accounted_setColorBuffer (hb : Budget r) (ha : Accounted issued owed r) (now : TimePoint)
    {s p : HandleType} (hp : p = 0 ∨ issued p) :
    Accounted issued owed (r.setWindowSurfaceColorBuffer now s p).2 := by
  obtain ⟨r1, hr1, hcases⟩ := setColorBuffer_cases r now s p
  have hb1 : Budget r1 := by
    rw [hr1]
    exact (budget_cleanup.reap hb now).congr rfl rfl
  have ha1 : Accounted issued owed r1 := by
    rw [hr1]
    exact (accounted_cleanup.reap ha now).congr rfl rfl rfl
  rcases hcases with he | ⟨w, hw, hlive, hne, hmax, he⟩
  · rwa [he]
  · rw [he]
    exact accounted_reattach hb1 ha1 hw hp hlive hne hmax

theorem accounted_retainPosted (hb : Budget r) (ha : Accounted issued owed r) (now : TimePoint)
    {p : HandleType} (hp : issued p) : Accounted issued owed (r.retainPostedColorBuffer now p).2 := by
  obtain ⟨r1, hr1, hcases⟩ := retainPosted_cases r now p
  have hb1 : Budget r1 := by
    rw [hr1]
    exact budget_cleanup.reap hb now
  have ha1 : Accounted issued owed r1 := by
    rw [hr1]
    exact accounted_cleanup.reap ha now
  rcases hcases with he | ⟨hlive, hne, hmax, he⟩
  · rwa [he]
  · -- the post moves its reference from the previous buffer to `p`
    have hsame := sameButBuffers_release { r1.addReference p with m_lastPostedColorBuffer := p }
      r1.m_lastPostedColorBuffer
    have hwin : (r.retainPostedColorBuffer now p).2.m_windows = r1.m_windows := by
      rw [he, hsame.windows]
      exact (sameButBuffers_addReference r1 p).windows
    have hpost : (r.retainPostedColorBuffer now p).2.m_lastPostedColorBuffer = p := by
      rw [he, hsame.posted]
    refine ha1.transfer (a := r1.m_lastPostedColorBuffer) (p := p) (Or.inr (Ne.symm hne))
      (fun _ => hlive) (fun k hk => ?_) (fun k hk => ?_) (by rw [hwin]; exact ha1.attached)
      (by rw [hpost]; exact Or.inr hp)
    · have hadd : Renderer.refcount { r1.addReference p with m_lastPostedColorBuffer := p } k =
          if k = p then (r1.refcount k).map (· + 1) else r1.refcount k :=
        refcount_addReference hb1 hmax k
      have hpos : ∀ n, Renderer.refcount { r1.addReference p with m_lastPostedColorBuffer := p } k =
          some n → 1 ≤ n := by
        intro n hn
        rw [hadd] at hn
        split_ifs at hn
        · obtain ⟨m, -, rfl⟩ := Option.map_eq_some_iff.mp hn
          omega
        · exact ha1.pos hk hn
      rw [he, Renderer.refcount_release (ha1.ne_zero hk) hpos, hadd]
      by_cases hkp : k = p
      · have hka : k ≠ r1.m_lastPostedColorBuffer := by rw [hkp]; exact Ne.symm hne
        simp only [if_pos hkp, if_neg hka]
      · simp only [if_neg hkp]
    · unfold held attachedWindows
      rw [hwin, hpost]
      simp only [eq_comm (a := k)]
      omega

/-! ## Entries that are not the guest's -/

/-- What happens to entries that were not issued does not touch the books. -/
theorem Accounted.of_unissued (ha : Accounted issued owed r)
    (hcount : ∀ k, issued k → r'.m_colorbuffers.find? k = r.m_colorbuffers.find? k)
    (hw : r'.m_windows = r.m_windows)
    (hp : r'.m_lastPostedColorBuffer = r.m_lastPostedColorBuffer) : Accounted issued owed r' := by
  refine ⟨ha.zero, by rw [hw]; exact ha.attached, by rw [hp]; exact ha.posted, fun k hk => ?_⟩
  have hb := ha.balance k hk
  unfold refcount held attachedWindows at hb ⊢
  rwa [hcount k hk, hw, hp]

theorem accounted_dropUnissued (ha : Accounted issued owed r) {a : HandleType} (hna : ¬ issued a) :
    Accounted issued owed (r.dropReference a) :=
  ha.of_unissued (fun _ hk => find?_dropReference_ne r fun h => hna (h ▸ hk))
    (sameButBuffers_drop r a).windows (sameButBuffers_drop r a).posted

theorem accounted_release_frame (ha : Accounted issued owed r) {rds : List Renderable}
    (hrds : ∀ rd ∈ rds, ¬ issued rd.buffer) : Accounted issued owed (r.release_frame rds) := by
  have hfold : ∀ (l : List Renderable) (acc : Renderer × OrdSet HandleType),
      (∀ rd ∈ l, ¬ issued rd.buffer) → Accounted issued owed acc.1 →
      Accounted issued owed (l.foldl releaseOne acc).1 := by
    intro l
    induction l with
    | nil => exact fun acc _ hacc => hacc
    | cons rd l ih =>
      intro acc hl hacc
      refine ih (releaseOne acc rd) (fun rd' h' => hl rd' (List.mem_cons_of_mem _ h')) ?_
      unfold releaseOne
      dsimp only
      split_ifs
      · exact hacc
      · exact accounted_dropUnissued hacc (hl rd List.mem_cons_self)
  exact hfold rds (r, ∅) hrds ha

theorem accounted_rollback {created : List HandleType} : ∀ {r : Renderer}, Accounted issued owed r →
    (∀ h ∈ created, ¬ issued h) → Accounted issued owed (rollback r created) := by
  induction created with
  | nil => exact fun ha _ => ha
  | cons a l ih =>
    intro r ha hl
    refine ih (r := rollbackOne r a) ?_ (fun h hh => hl h (List.mem_cons_of_mem _ hh))
    unfold rollbackOne
    split
    · exact ha
    · refine ha.of_unissued (fun k hk => ?_) rfl rfl
      exact find?_erase_ne _ fun h => hl a List.mem_cons_self (h ▸ hk)

theorem accounted_addUnissued {a id : HandleType} {ref : ColorBufferRef} {n : Nat}
    (ha : Accounted issued owed r) (hna : ¬ issued id) :
    Accounted issued owed (Renderer.addColorBuffer
      { r with s_nextHandle := a, handlesGenerated := n } id ref) :=
  ha.of_unissued (fun _ hk => find?_insert_ne _ _ fun h => hna (h ▸ hk)) rfl rfl

/-! ## The guest's own references -/

theorem accounted_close (ha : Accounted issued owed r) {a : HandleType} {owed' : HandleType → Int}
    (howed : ∀ k, owed' k = if k = a then owed k - 1 else owed k) :
    Accounted issued owed' (r.dropReference a) := by
  have hsame := sameButBuffers_drop r a
  refine ⟨ha.zero, by rw [hsame.windows]; exact ha.attached, by rw [hsame.posted]; exact ha.posted,
    fun k hk => ?_⟩
  have hb := ha.balance k hk
  have hheld : (r.dropReference a).held k = r.held k := by
    unfold held attachedWindows
    rw [hsame.windows, hsame.posted]
  rw [hheld, howed]
  by_cases hka : k = a
  · subst hka
    rw [if_pos rfl, refcount_drop_self fun n hn => ha.pos hk hn]
    exact hb.drop_owed
  · rw [if_neg hka, refcount_drop_ne hka]
    exact hb

theorem accounted_open (hb : Budget r) (ha : Accounted issued owed r) {a : HandleType}
    {owed' : HandleType → Int} (hlive : a ∈ r.m_colorbuffers)
    (hmax : ∀ ref, r.m_colorbuffers.find? a = some ref → ref.refcount ≠ uint32Max)
    (howed : ∀ k, owed' k = if k = a then owed k + 1 else owed k) :
    Accounted issued owed' (r.addReference a) := by
  have hsame := sameButBuffers_addReference r a
  refine ⟨ha.zero, by rw [hsame.windows]; exact ha.attached, by rw [hsame.posted]; exact ha.posted,
    fun k hk => ?_⟩
  have hbal := ha.balance k hk
  have hheld : (r.addReference a).held k = r.held k := by
    unfold held attachedWindows
    rw [hsame.windows, hsame.posted]
  rw [hheld, howed, refcount_addReference hb hmax]
  by_cases hka : k = a
  · subst hka
    obtain ⟨ref, hf⟩ := mem_iff.mp hlive
    have hn : r.refcount k = some ref.refcount := by rw [refcount, hf]; rfl
    rw [hn] at hbal
    rw [if_pos rfl, if_pos rfl, hn]
    exact hbal.add_owed
  · rw [if_neg hka, if_neg hka]
    exact hbal

/-- A handle that no window and no post can know yet is issued for a new buffer. -/
theorem accounted_create {a id : HandleType} {ref : ColorBufferRef} {n : Nat}
    {issued' : HandleType → Prop} (ha : Accounted issued owed r) (hna : ¬ issued id) (hid : id ≠ 0)
    (howed : owed id = 1) (hone : ref.refcount = 1) (hissued : ∀ k, issued' k ↔ k = id ∨ issued k) :
    Accounted issued' owed (Renderer.addColorBuffer
      { r with s_nextHandle := a, handlesGenerated := n } id ref) := by
  have hunheld : r.held id = 0 := by
    have hatt : r.attachedWindows id = 0 := by
      refine (sumBy_eq_zero_iff _).mpr fun s w hw => if_neg fun h => ?_
      rcases ha.attached s w hw with h0 | h1
      · exact hid (h.symm.trans h0)
      · exact hna (h ▸ h1)
    have hpost : r.m_lastPostedColorBuffer ≠ id := by
      intro h
      rcases ha.posted with h0 | h1
      · exact hid (h.symm.trans h0)
      · exact hna (h ▸ h1)
    simp [held, hatt, hpost]
  refine ⟨fun h => ?_, fun s w hw => (ha.attached s w hw).imp_right fun h => (hissued _).mpr (Or.inr h),
    ha.posted.imp_right fun h => (hissued _).mpr (Or.inr h), fun k hk => ?_⟩
  · rcases (hissued 0).mp h with h0 | h1
    · exact hid h0.symm
    · exact ha.zero h1
  · have hcount : Renderer.refcount (Renderer.addColorBuffer
        { r with s_nextHandle := a, handlesGenerated := n } id ref) k =
          if k = id then some 1 else r.refcount k := by
      unfold refcount
      show ((r.m_colorbuffers.insert id ref).find? k).map _ = _
      rw [find?_insert]
      split_ifs
      · rw [Option.map_some, hone]
      · rfl
    rw [hcount]
    by_cases hkid : k = id
    · subst hkid
      rw [if_pos rfl, howed]
      show Accounts (some 1) 1 (r.held k)
      rw [hunheld]
      exact Accounts.new
    · rw [if_neg hkid]
      exact ha.balance k (((hissued k).mp hk).resolve_left hkid)

/-! ## Snapshots -/

/-- The loop of `retain_frame` leaves the books alone; its snapshots are new handles. -/
structure SnapshotsNew (issued : HandleType → Prop) (owed : HandleType → Int) (first : Nat)
    (st : RetainState) : Prop where
  accounted : Accounted issued owed st.renderer
  generated : first ≤ st.renderer.handlesGenerated
  snapshots : ∀ k (v : Nat), st.snapshots.find? k = some v →
    first < v ∧ v ≤ st.renderer.handlesGenerated
  created : ∀ v : Nat, v ∈ st.created → first < v

theorem retainLoop_snapshotsNew (p : ColorBufferPtr) (gl : HandleType → Bool) (rds : List Renderable)
    (hg : GoodUntilWrap r) (ha : r.handlesGenerated < 2 ^ 32 →
      Accounted issued owed r ∧ ∀ h : Nat, issued h → h ≤ r.handlesGenerated) :
    (retainLoop gl { renderer := r, nextPtr := p } rds).Sat fun st => GoodUntilWrap st.renderer ∧
      (st.renderer.handlesGenerated < 2 ^ 32 → SnapshotsNew issued owed r.handlesGenerated st) := by
  have hstart : r.handlesGenerated < 2 ^ 32 →
      SnapshotsNew issued owed r.handlesGenerated { renderer := r, nextPtr := p } := fun hlt =>
    ⟨(ha hlt).1, Nat.le_refl _, fun k v hv => by simp at hv, fun v hv => by simp at hv⟩
  refine retainLoop_rule (fun st hst => ?_) (fun st src sh source bytes r1 hst hc => ?_) rds _
    ⟨hg, hstart⟩
  · refine ⟨hst.1, fun hlt => ?_⟩
    obtain ⟨h1, h2, h3, h4⟩ := hst.2 hlt
    exact ⟨h1, h2, h3, h4⟩
  · obtain ⟨-, -, h1, h2, h3⟩ := retainCheck_admitted hc.check
    refine ⟨good_addColorBuffer hst.1 hc.gen h1 h2 h3 rfl, fun hlt => ?_⟩
    obtain ⟨hid, -, -, hr1⟩ := hst.1.gen hc.gen hlt
    subst hr1
    have hlt' : st.renderer.handlesGenerated + 1 < 2 ^ 32 := hlt
    obtain ⟨hacc, hgen, hsnap, hcre⟩ := hst.2 (by omega)
    have hnew : ¬ issued sh := fun hi => by
      have := (ha (by omega)).2 sh hi
      have hid' : (sh : Nat) = st.renderer.handlesGenerated + 1 := hid
      omega
    refine ⟨accounted_addUnissued hacc hnew, Nat.le_succ_of_le hgen, fun k v hv => ?_, fun v hv => ?_⟩
    · have hv' : (st.snapshots.insert src sh).find? k = some v := hv
      rw [find?_insert] at hv'
      split_ifs at hv'
      · have hvs : v = st.renderer.handlesGenerated + 1 := (Option.some.inj hv').symm.trans hid
        exact ⟨by omega, by rw [hvs]; exact Nat.le_refl _⟩
      · obtain ⟨h5, h6⟩ := hsnap k v hv'
        exact ⟨h5, Nat.le_succ_of_le h6⟩
    · rcases List.mem_append.mp hv with hv | hv
      · exact hcre v hv
      · have hvs : v = st.renderer.handlesGenerated + 1 := (List.mem_singleton.mp hv).trans hid
        omega

end

end Renderer

/-! ## Steps and runs -/

namespace Ledger

/-- What the guest may still close: its first reference and one for each successful open. -/
def owed (l : Ledger) (h : HandleType) : Int := 1 + l.opens h - l.closes h

/-- The books agree with the tables. -/
structure Books (l : Ledger) : Prop where
  accounted : Accounted (· ∈ l.issued) l.owed l.world.renderer
  issued : ∀ h : Nat, h ∈ l.issued → h ≤ l.world.renderer.handlesGenerated
  snapshots : ∀ h : Nat, h ∈ l.snapshots → h ≤ l.world.renderer.handlesGenerated ∧ h ∉ l.issued
  unissued : ∀ h, h ∉ l.issued → l.opens h = 0 ∧ l.closes h = 0

/-- The invariant of `ledgerMachine`. -/
def Sound (l : Ledger) : Prop :=
  GoodUntilWrap l.world.renderer ∧ (l.world.renderer.handlesGenerated < 2 ^ 32 → Books l)

variable {l : Ledger} {w : World}

/-- An operation that generates no handle and keeps the accounts. -/
theorem Books.quiet (hb : Books l) (hgen : w.renderer.handlesGenerated = l.world.renderer.handlesGenerated)
    (ha : Accounted (· ∈ l.issued) l.owed w.renderer) : Books { l with world := w } :=
  ⟨ha, fun h hh => by rw [hgen]; exact hb.issued h hh,
    fun h hh => by rw [hgen]; exact hb.snapshots h hh, hb.unissued⟩

/-- More handles may be generated, and new snapshots handed out, as long as none of them is issued. -/
theorem Books.grow {snapshots : OrdSet HandleType} (hb : Books l)
    (hgen : l.world.renderer.handlesGenerated ≤ w.renderer.handlesGenerated)
    (hsnap : ∀ h : Nat, h ∈ snapshots →
      h ∈ l.snapshots ∨ (h ≤ w.renderer.handlesGenerated ∧ h ∉ l.issued))
    (ha : Accounted (· ∈ l.issued) l.owed w.renderer) : Books { l with world := w, snapshots } := by
  refine ⟨ha, fun h hh => le_trans (hb.issued h hh) hgen, fun h hh => ?_, hb.unissued⟩
  rcases hsnap h hh with hold | hnew
  · obtain ⟨h1, h2⟩ := hb.snapshots h hold
    exact ⟨le_trans h1 hgen, h2⟩
  · exact hnew

theorem Books.ne_zero (hb : Books l) {h : HandleType} (hh : h ∈ l.issued) : h ≠ 0 :=
  hb.accounted.ne_zero hh

/-- Operations that generate no handle keep the invariant when they keep the accounts. -/
theorem Sound.quiet (hs : Sound l) (hsh : Shrinks l.world.renderer w.renderer)
    (hb : Budget l.world.renderer → Budget w.renderer)
    (ha : Budget l.world.renderer → Accounted (· ∈ l.issued) l.owed l.world.renderer →
      Accounted (· ∈ l.issued) l.owed w.renderer) : Sound { l with world := w } := by
  refine ⟨hs.1.quiet hsh hb, fun hlt => ?_⟩
  have hlt' : l.world.renderer.handlesGenerated < 2 ^ 32 := hsh.generated ▸ hlt
  have hbooks := hs.2 hlt'
  exact hbooks.quiet hsh.generated (ha (hs.1 hlt').2 hbooks.accounted)

/-- A handle generated for a context or a window leaves the accounts alone. -/
theorem Sound.generated {r1 : Renderer} {id : HandleType} (hs : Sound l) (hg : GoodUntilWrap w.renderer)
    (hgen : l.world.renderer.genHandle = some (id, r1))
    (hcount : w.renderer.handlesGenerated = r1.handlesGenerated)
    (hacc : Accounted (· ∈ l.issued) l.owed r1 → Accounted (· ∈ l.issued) l.owed w.renderer) :
    Sound { l with world := w } := by
  obtain ⟨hr1, -⟩ := genHandle_spec hgen
  subst hr1
  refine ⟨hg, fun hlt => ?_⟩
  have hc : w.renderer.handlesGenerated = l.world.renderer.handlesGenerated + 1 := hcount
  have hlt' : w.renderer.handlesGenerated < 2 ^ 32 := hlt
  have hbooks := hs.2 (by omega)
  refine ⟨hacc (hbooks.accounted.congr rfl rfl rfl), fun h hh => ?_, fun h hh => ?_, hbooks.unissued⟩
  · have := hbooks.issued h hh
    show h ≤ w.renderer.handlesGenerated
    omega
  · obtain ⟨h1, h2⟩ := hbooks.snapshots h hh
    refine ⟨?_, h2⟩
    show h ≤ w.renderer.handlesGenerated
    omega

theorem sound_createColorBuffer {pw ph : Int} {fmt : GLenum} {gl : Bool} {rep : Reply}
    (hs : Sound l) (h : l.world.step (.createColorBuffer pw ph fmt gl) = some (w, rep)) :
    Sound (l.record (.createColorBuffer pw ph fmt gl) w rep) := by
  obtain ⟨⟨ret, r1⟩, hc, he⟩ := Option.map_eq_some_iff.mp h
  cases he
  have hg := good_createColorBuffer hs.1 hc
  rcases createColorBuffer_cases hc with ⟨rfl, rfl⟩ | ⟨cb, r1, ref, -, hgen, rfl, -, hone, -, -, -⟩
  · exact hs.quiet (w := { l.world with nextPtr := l.world.nextPtr + 1 }) (Shrinks.refl _) id
      (fun _ ha => ha)
  · have hpos := genHandle_pos hgen
    have hret : ret ≠ 0 := Nat.pos_iff_ne_zero.mp hpos.1
    simp only [record, if_neg hret]
    refine ⟨hg, fun hlt => ?_⟩
    obtain ⟨hid, -, -, rfl⟩ := hs.1.gen hgen hlt
    have hlt' : l.world.renderer.handlesGenerated + 1 < 2 ^ 32 := hlt
    have hid' : (ret : Nat) = l.world.renderer.handlesGenerated + 1 := hid
    have hbooks := hs.2 (by omega)
    have hnew : ret ∉ l.issued := fun hi => by
      have := hbooks.issued ret hi
      omega
    have howed : l.owed ret = 1 := by
      obtain ⟨h1, h2⟩ := hbooks.unissued ret hnew
      simp [owed, h1, h2]
    refine ⟨accounted_create hbooks.accounted hnew hret howed hone fun k => mem_insert,
      fun k hk => ?_, fun k hk => ?_, fun k hk => hbooks.unissued k fun hi => hk (mem_insert.mpr (Or.inr hi))⟩
    · show k ≤ l.world.renderer.handlesGenerated + 1
      rcases mem_insert.mp hk with rfl | hk
      · omega
      · have := hbooks.issued k hk
        omega
    · obtain ⟨h1, h2⟩ := hbooks.snapshots k hk
      refine ⟨Nat.le_succ_of_le h1, fun hm => ?_⟩
      rcases mem_insert.mp hm with rfl | hm
      · omega
      · exact h2 hm

theorem mem_foldl_insert {rds : List Renderable} {h : HandleType} : ∀ {s : OrdSet HandleType},
    h ∈ rds.foldl (fun (s : OrdSet HandleType) rd => s.insert rd.buffer ()) s ↔
      h ∈ s ∨ ∃ rd ∈ rds, rd.buffer = h := by
  induction rds with
  | nil => intro s; simp
  | cons rd rds ih =>
    intro s
    rw [List.foldl_cons, ih, mem_insert]
    simp only [List.mem_cons, exists_eq_or_imp]
    constructor
    · rintro ((rfl | h1) | h1)
      · exact Or.inr (Or.inl rfl)
      · exact Or.inl h1
      · exact Or.inr (Or.inr h1)
    · rintro (h1 | rfl | h1)
      · exact Or.inl (Or.inr h1)
      · exact Or.inl (Or.inl rfl)
      · exact Or.inr h1

theorem sound_retain_frame {rds : List Renderable} {gl : HandleType → Bool} {rep : Reply}
    (hs : Sound l) (h : l.world.step (.retain_frame rds gl) = some (w, rep)) :
    Sound (l.record (.retain_frame rds gl) w rep) := by
  obtain ⟨res, hc, he⟩ := Option.map_eq_some_iff.mp h
  cases he
  have hloop := retainLoop_snapshotsNew l.world.nextPtr gl rds hs.1
    (fun hlt => ⟨(hs.2 hlt).accounted, (hs.2 hlt).issued⟩)
  rcases retain_frame_cases hc with ⟨st, hl, rfl⟩ | ⟨st, hl, rfl⟩
  · rw [hl] at hloop
    obtain ⟨hg, hnew⟩ := hloop
    have hsh := shrinks_rollback st.renderer st.created
    refine ⟨hg.quiet hsh fun hb => budget_rollback hb _, fun hlt => ?_⟩
    have hn := hnew (hsh.generated ▸ hlt)
    have hge := hn.generated
    have hlt' : (rollback st.renderer st.created).handlesGenerated < 2 ^ 32 := hlt
    have hgen : (rollback st.renderer st.created).handlesGenerated = st.renderer.handlesGenerated :=
      hsh.generated
    have hbooks := hs.2 (by omega)
    have hle : l.world.renderer.handlesGenerated ≤ (rollback st.renderer st.created).handlesGenerated := by
      omega
    refine hbooks.grow hle (fun h hh => Or.inl hh) (accounted_rollback hn.accounted fun v hv hi => ?_)
    have h1 := hn.created v hv
    have h2 := hbooks.issued v hi
    omega
  · rw [hl] at hloop
    obtain ⟨hg, hnew⟩ := hloop
    refine ⟨hg, fun hlt => ?_⟩
    have hn := hnew hlt
    have hge := hn.generated
    have hlt' : st.renderer.handlesGenerated < 2 ^ 32 := hlt
    have hbooks := hs.2 (by omega)
    refine hbooks.grow hge (fun h hh => ?_) hn.accounted
    rcases mem_foldl_insert.mp hh with hh | ⟨rd', hrd', rfl⟩
    · exact Or.inl hh
    · obtain ⟨rd, -, rfl⟩ := List.mem_map.mp hrd'
      cases hf : st.snapshots.find? rd.buffer with
      | none => exact Or.inr ⟨Nat.zero_le _, hbooks.accounted.zero⟩
      | some v =>
        have hv := hn.snapshots rd.buffer v hf
        refine Or.inr ⟨hv.2, fun hi => ?_⟩
        have := hbooks.issued v hi
        omega

/-- The guest's own references: the tables change with what the guest is owed. -/
theorem Sound.guest (opens closes : HandleType → Nat) (hs : Sound l)
    (hsh : Shrinks l.world.renderer w.renderer) (hb : Budget l.world.renderer → Budget w.renderer)
    (hun : ∀ k, k ∉ l.issued → opens k = l.opens k ∧ closes k = l.closes k)
    (ha : Budget l.world.renderer → Accounted (· ∈ l.issued) l.owed l.world.renderer →
      Accounted (· ∈ l.issued) (owed { l with opens, closes }) w.renderer) :
    Sound { l with world := w, opens, closes } := by
  refine ⟨hs.1.quiet hsh hb, fun hlt => ?_⟩
  have hlt' : l.world.renderer.handlesGenerated < 2 ^ 32 := hsh.generated ▸ hlt
  have hbooks := hs.2 hlt'
  have hgen := hsh.generated
  refine ⟨ha (hs.1 hlt').2 hbooks.accounted, fun h hh => ?_, fun h hh => ?_, fun k hk => ?_⟩
  · show h ≤ w.renderer.handlesGenerated
    rw [hgen]
    exact hbooks.issued h hh
  · show h ≤ w.renderer.handlesGenerated ∧ _
    rw [hgen]
    exact hbooks.snapshots h hh
  · obtain ⟨h1, h2⟩ := hun k hk
    obtain ⟨h3, h4⟩ := hbooks.unissued k hk
    exact ⟨h1.trans h3, h2.trans h4⟩

theorem owed_open (l : Ledger) (h k : HandleType) :
    owed { l with opens := bump l.opens h } k = if k = h then l.owed k + 1 else l.owed k := by
  unfold owed bump
  dsimp only
  split_ifs
  · push_cast
    omega
  · rfl

theorem owed_close (l : Ledger) (h k : HandleType) :
    owed { l with closes := bump l.closes h } k = if k = h then l.owed k - 1 else l.owed k := by
  unfold owed bump
  dsimp only
  split_ifs
  · push_cast
    omega
  · rfl

theorem bump_ne {f : HandleType → Nat} {h k : HandleType} (hk : k ≠ h) : bump f h k = f k := if_neg hk

theorem sound_open {k : HandleType} {rep : Reply} (hs : Sound l) (hk : k ∈ l.issued)
    (h : l.world.step (.openColorBuffer k) = some (w, rep)) :
    Sound (l.record (.openColorBuffer k) w rep) := by
  cases h
  have hsh := shrinks_openColorBuffer l.world.renderer k
  have hb := fun hb => budget_open (r := l.world.renderer) hb k
  unfold openColorBuffer at hsh hb
  cases hf : l.world.renderer.m_colorbuffers.find? k with
  | none =>
    simp only [hf] at hsh hb ⊢
    exact hs.quiet (w := { l.world with renderer := l.world.renderer }) hsh hb fun _ ha => ha
  | some ref =>
    simp only [hf] at hsh hb ⊢
    split_ifs at hsh hb ⊢ with hmax
    · exact hs.quiet (w := { l.world with renderer := l.world.renderer }) hsh hb fun _ ha => ha
    · refine hs.guest (w := { l.world with renderer := l.world.renderer.addReference k })
        (bump l.opens k) l.closes hsh hb (fun k' hk' => ⟨bump_ne ?_, rfl⟩)
        fun hbud ha => accounted_open hbud ha (mem_of_find? hf) (fun ref' hf' => ?_) fun k' => ?_
      · exact fun he => hk' (he ▸ hk)
      · rw [hf] at hf'
        rw [← Option.some.inj hf']
        exact hmax
      · exact owed_open l k k'

theorem sound_close {k : HandleType} {rep : Reply} (hs : Sound l) (hk : k ∈ l.issued)
    (h : l.world.step (.closeColorBuffer k) = some (w, rep)) :
    Sound (l.record (.closeColorBuffer k) w rep) := by
  cases h
  exact hs.guest (w := { l.world with renderer := l.world.renderer.dropReference k })
    l.opens (bump l.closes k) (shrinks_drop _ k) (fun hb => budget_drop hb k)
    (fun k' hk' => ⟨rfl, bump_ne fun he => hk' (he ▸ hk)⟩) fun _ ha => accounted_close ha (owed_close l k)

/-- **Soundness of one step.** Every step of a guest that keeps to its handles keeps the books. -/
theorem sound_step {op : Op} {rep : Reply} (hs : Sound l) (hp : l.permits op = true)
    (h : l.world.step op = some (w, rep)) : Sound (l.record op w rep) := by
  cases op with
  | tick elapsed =>
    cases h
    exact hs.quiet (w := { l.world with now := l.world.now + elapsed }) (Shrinks.refl _) id fun _ ha => ha
  | startThread t =>
    simp only [World.step] at h
    split_ifs at h
    cases h
    exact hs.quiet (w := { l.world with threads := l.world.threads.insert t {} }) (Shrinks.refl _) id
      fun _ ha => ha
  | createColorBuffer pw ph fmt gl => exact sound_createColorBuffer hs h
  | retain_frame rds gl => exact sound_retain_frame hs h
  | openColorBuffer k => exact sound_open hs (of_decide_eq_true hp) h
  | closeColorBuffer k => exact sound_close hs (of_decide_eq_true hp) h
  | createRenderContext t cfg share gl =>
    obtain ⟨tinfo, -, h⟩ := World.onThread_some h
    obtain ⟨⟨ret, r1, tinfo1⟩, hc, he⟩ := Option.map_eq_some_iff.mp h
    cases he
    have hg := good_createRenderContext hs.1 hc
    rcases createRenderContext_cases hc with ⟨-, rfl, -⟩ | ⟨rctx, r1, -, hgen, rfl, -⟩
    · exact hs.quiet (w := { l.world.update t _ tinfo1 with nextPtr := l.world.nextPtr + 1 })
        (Shrinks.refl _) id fun _ ha => ha
    · exact hs.generated (w := { l.world.update t _ tinfo1 with nextPtr := l.world.nextPtr + 1 })
        hg hgen rfl fun ha => ha.congr rfl rfl rfl
  | createWindowSurface t cfg gl =>
    obtain ⟨tinfo, -, h⟩ := World.onThread_some h
    obtain ⟨⟨ret, r1, tinfo1⟩, hc, he⟩ := Option.map_eq_some_iff.mp h
    cases he
    have hg := good_createWindowSurface hs.1 hc
    rcases createWindowSurface_cases hc with ⟨-, rfl, -⟩ | ⟨win, r1, -, hgen, rfl, -⟩
    · exact hs.quiet (w := { l.world.update t _ tinfo1 with nextPtr := l.world.nextPtr + 1 })
        (Shrinks.refl _) id fun _ ha => ha
    · have hfree : ret ∉ r1.m_windows := by
        obtain ⟨rfl, k, -, -, -, hfree, -⟩ := genHandle_spec hgen
        exact fun hm => hfree (Or.inr (Or.inr hm))
      exact hs.generated (w := { l.world.update t _ tinfo1 with nextPtr := l.world.nextPtr + 1 })
        hg hgen rfl fun ha => accounted_newWindow ha hfree
  | drainRenderContext t =>
    obtain ⟨tinfo, -, h⟩ := World.onThread_some h
    cases h
    exact hs.quiet (w := l.world.update t _ _) (shrinks_drainContexts _ tinfo)
      (fun hb => budget_cleanup.drainContexts hb tinfo) fun _ ha => accounted_cleanup.drainContexts ha tinfo
  | drainWindowSurface t =>
    obtain ⟨tinfo, -, h⟩ := World.onThread_some h
    cases h
    exact hs.quiet (w := l.world.update t _ _) (shrinks_drainWindows _ tinfo)
      (fun hb => budget_cleanup.drainWindows hb tinfo) fun _ ha => accounted_cleanup.drainWindows ha tinfo
  | DestroyRenderContext t c =>
    obtain ⟨tinfo, -, h⟩ := World.onThread_some h
    cases h
    exact hs.quiet (w := l.world.update t _ _) (shrinks_destroyContext _ tinfo _ c)
      (fun hb => budget_cleanup.destroyContext hb tinfo _ c)
      fun _ ha => accounted_cleanup.destroyContext ha tinfo _ c
  | DestroyWindowSurface t s =>
    obtain ⟨tinfo, -, h⟩ := World.onThread_some h
    cases h
    exact hs.quiet (w := l.world.update t _ _) (shrinks_destroySurface _ tinfo _ s)
      (fun hb => budget_cleanup.destroySurface hb tinfo _ s)
      fun _ ha => accounted_cleanup.destroySurface ha tinfo _ s
  | bindContext t c d rd gl =>
    obtain ⟨tinfo, -, h⟩ := World.onThread_some h
    cases h
    exact hs.quiet (w := l.world.update t _ _) (shrinks_bindContext _ tinfo _ c d rd gl)
      (fun hb => budget_cleanup.bindContext hb tinfo _ c d rd gl)
      fun _ ha => accounted_cleanup.bindContext ha tinfo _ c d rd gl
  | setWindowSurfaceColorBuffer s cb =>
    cases h
    exact hs.quiet (w := { l.world with renderer := _ }) (shrinks_setColorBuffer _ _ s cb)
      (fun hb => budget_setColorBuffer hb _ s cb)
      fun hb ha => accounted_setColorBuffer hb ha _ (of_decide_eq_true hp)
  | retainPostedColorBuffer k =>
    cases h
    exact hs.quiet (w := { l.world with renderer := _ }) (shrinks_retainPosted _ _ k)
      (fun hb => budget_retainPosted hb _ k)
      fun hb ha => accounted_retainPosted hb ha _ (of_decide_eq_true hp)
  | release_frame rds =>
    cases h
    have hsh := shrinks_release_frame l.world.renderer rds
    refine ⟨hs.1.quiet hsh fun hb => budget_release_frame hb rds, fun hlt => ?_⟩
    have hbooks := hs.2 (hsh.generated ▸ hlt)
    refine hbooks.quiet (w := { l.world with renderer := _ }) hsh.generated
      (accounted_release_frame hbooks.accounted fun rd hrd => ?_)
    exact (hbooks.snapshots rd.buffer (of_decide_eq_true hp rd hrd)).2
  | exitThread t elapsed =>
    obtain ⟨tinfo, -, h⟩ := World.onThread_some h
    cases h
    exact hs.quiet (w := { l.world with renderer := _, threads := _, now := _ })
      (shrinks_deferThread _ tinfo _ _) (fun hb => budget_cleanup.deferThread hb tinfo _ _)
      fun _ ha => accounted_cleanup.deferThread ha tinfo _ _

theorem sound_reachable {configs : Nat} (h : (ledgerMachine configs).Reachable l) : Sound l := by
  refine h.invariant (P := Sound) ?_ fun l op l' hs hstep => ?_
  · refine ⟨good_init configs, fun _ => ⟨⟨not_mem_empty _, fun s w hw => ?_, Or.inl rfl, fun h hh => ?_⟩,
      fun h hh => ?_, fun h hh => ?_, fun h _ => ⟨rfl, rfl⟩⟩⟩
    · simp [ledgerMachine, renderMachine] at hw
    · exact absurd hh (not_mem_empty _)
    · exact absurd hh (not_mem_empty _)
    · exact absurd hh (not_mem_empty _)
  · unfold ledgerMachine at hstep
    dsimp only at hstep
    split_ifs at hstep with hp
    obtain ⟨⟨w, rep⟩, hw, rfl⟩ := Option.map_eq_some_iff.mp hstep
    exact sound_step hs hp hw

end Ledger

/-- **Exact reference counts.** In every run in which the guest passes only handles it was given, fewer
than `2 ^ 32` handles are generated and no handle is closed more often than it was created and
opened, the count of a live guest buffer is its creation plus its opens minus its closes, plus one
for each window it is attached to and one if it was posted last; and every attached or posted buffer
is alive. -/
theorem refcounts_exact {configs : Nat} {l : Ledger} (h : (ledgerMachine configs).Reachable l)
    (hgen : l.world.renderer.handlesGenerated < 2 ^ 32)
    (hclose : ∀ k, l.closes k ≤ 1 + l.opens k) :
    (∀ k ref, k ∈ l.issued → l.world.renderer.m_colorbuffers.find? k = some ref →
      (ref.refcount : Int) = 1 + l.opens k - l.closes k + l.world.renderer.attachedWindows k +
        if l.world.renderer.m_lastPostedColorBuffer = k then 1 else 0) ∧
    (∀ s w, l.world.renderer.m_windows.find? s = some w → w.2 ≠ 0 →
      w.2 ∈ l.world.renderer.m_colorbuffers) ∧
    (l.world.renderer.m_lastPostedColorBuffer ≠ 0 →
      l.world.renderer.m_lastPostedColorBuffer ∈ l.world.renderer.m_colorbuffers) := by
  have ha := ((Ledger.sound_reachable h).2 hgen).accounted
  have hlive : ∀ k, k ∈ l.issued → 1 ≤ l.world.renderer.held k → k ∈ l.world.renderer.m_colorbuffers := by
    intro k hk hheld
    have howed : 0 ≤ l.owed k := by
      have := hclose k
      unfold Ledger.owed
      omega
    have := (ha.balance k hk).alive howed hheld
    rw [refcount, Option.isSome_map] at this
    exact this
  refine ⟨fun k ref hk hf => ?_, fun s w hw hne => ?_, fun hne => ?_⟩
  · have hbal := ha.balance k hk
    rw [refcount, hf] at hbal
    have := hbal.count_eq
    unfold Ledger.owed held at this
    push_cast at this
    omega
  · refine hlive w.2 ((ha.attached s w hw).resolve_left hne) ?_
    have := le_sumBy (fun v : WindowSurfacePtr × HandleType => if v.2 = w.2 then 1 else 0) hw
    simp only [if_true] at this
    exact le_trans this (Nat.le_add_right _ _)
  · refine hlive _ (ha.posted.resolve_left hne) ?_
    simp [held]

/-- One buffer that is opened, attached to a window, posted and closed once. -/
def refcountExample : List Op :=
  [.startThread 1, .createColorBuffer 4 4 GL_RGBA true, .openColorBuffer 1, .createWindowSurface 1 0 true,
    .setWindowSurfaceColorBuffer 2 1, .retainPostedColorBuffer 1, .closeColorBuffer 1]

theorem refcounts_exact_example : ∃ l ref,
    (ledgerMachine 1).exec (ledgerMachine 1).init refcountExample = some l ∧
      l.world.renderer.m_colorbuffers.find? 1 = some ref ∧ ref.refcount = 3 ∧
      (ref.refcount : Int) = 1 + l.opens 1 - l.closes 1 + l.world.renderer.attachedWindows 1 +
        if l.world.renderer.m_lastPostedColorBuffer = 1 then 1 else 0 := by
  have hl : ∃ l ref, (ledgerMachine 1).exec (ledgerMachine 1).init refcountExample = some l ∧
      l.world.renderer.handlesGenerated < 2 ^ 32 ∧ (∀ k, l.closes k ≤ 1 + l.opens k) ∧ 1 ∈ l.issued ∧
      l.world.renderer.m_colorbuffers.find? 1 = some ref ∧ ref.refcount = 3 := by
    refine ⟨_, _, rfl, by decide, fun k => ?_, by decide, rfl, rfl⟩
    show Ledger.bump (fun _ => 0) 1 k ≤ 1 + Ledger.bump (fun _ => 0) 1 k
    omega
  obtain ⟨l, ref, he, hgen, hclose, hissued, hf, hcount⟩ := hl
  exact ⟨l, ref, he, hf, hcount, (refcounts_exact ⟨_, he⟩ hgen hclose).1 1 ref hissued hf⟩

end AnboxReboxed.Emugl
