import AnboxReboxed.Wm.MultiWindowManager
import AnboxReboxed.Lib.Proofs.OrdMapProofs

/-!
# Proofs: the windows follow Android's tasks

What is always right is that a window is kept under its task, gets all of its updates at once, and is released when
it goes. Which tasks have a window after an update depends on the updates that the first pass collected: a task
that was known is among them when it is used at all, and one that was not, when it is used twice.
-/

namespace AnboxReboxed.Wm

open AnboxReboxed.Lib

/-! ## The updates of an Android task -/

namespace Update

variable {op : Update} {t : Int}

/-- The window counts for its task. -/
def Qualifies (window : WindowState) : Prop := window.stack = .Freeform ∧ window.has_surface

instance (window : WindowState) : Decidable (Qualifies window) :=
  inferInstanceAs (Decidable (window.stack = .Freeform ∧ window.has_surface))

/-- The windows of a task in a list. -/
def entriesOf (windows : List WindowState) (t : Int) : List WindowState :=
  windows.filter fun window => window.stack = .Freeform ∧ window.has_surface ∧ window.task = t

theorem entriesOf_cons {window : WindowState} {windows : List WindowState} (h : Qualifies window) :
    entriesOf (window :: windows) t =
      if window.task = t then window :: entriesOf windows t else entriesOf windows t := by
  rw [entriesOf, List.filter_cons]
  simp only [h.1, h.2, true_and, decide_eq_true_eq]
  rfl

theorem entriesOf_cons_of_not {window : WindowState} {windows : List WindowState} (h : ¬Qualifies window) :
    entriesOf (window :: windows) t = entriesOf windows t := by
  rw [entriesOf, List.filter_cons, if_neg]
  · rfl
  · intro hw
    have hw := of_decide_eq_true hw
    exact h ⟨hw.1, hw.2.1⟩

end Update

/-- More updates of a task. -/
def addUpdates (old : Option (List WindowState)) (new : List WindowState) : Option (List WindowState) :=
  if new = [] then old else some (old.getD [] ++ new)

theorem addUpdates_none_iff {new : List WindowState} : addUpdates none new = none ↔ new = [] := by
  unfold addUpdates
  by_cases h : new = []
  · simp [h]
  · simp [h]

theorem addUpdates_none {new : List WindowState} (h : new ≠ []) : addUpdates none new = some new := by
  rw [addUpdates, if_neg h, Option.getD_none, List.nil_append]

theorem addUpdates_cons (old : Option (List WindowState)) (window : WindowState) (new : List WindowState) :
    addUpdates (some (old.getD [] ++ [window])) new = addUpdates old (window :: new) := by
  unfold addUpdates
  rw [if_neg (List.cons_ne_nil window new)]
  by_cases h : new = []
  · rw [if_pos h, h]
  · rw [if_neg h, Option.getD_some, List.append_assoc, List.singleton_append]

namespace MultiWindowManager

variable {platform_ : Option Platform} {op : Update} {m m' : MultiWindowManager} {u : TaskUpdates} {t : Int}
  {w : Window} {window : WindowState}

/-! ## The invariant -/

/-- The windows are kept under their tasks, and the log has what became of each window that was made. -/
structure Inv (m : MultiWindowManager) : Prop where
  keyed : ∀ {t w}, m.windows_.find? t = some w → w.task = t
  made : ∀ {t w}, m.windows_.find? t = some w → w.id < m.created
  distinct : ∀ {t t' w w'}, m.windows_.find? t = some w → m.windows_.find? t' = some w' → w.id = w'.id → t = t'
  held : ∀ {t w}, m.windows_.find? t = some w → m.log.count (.release w.id) = 0 ∧
    m.log.count (.destroyNativeWindow w.id) = 0 ∧
    m.log.count (.createNativeWindow w.id) = if w.attached then 1 else 0
  dropped : ∀ id < m.created, ¬m.Has id → m.log.count (.release id) = 1 ∧
    m.log.count (.destroyNativeWindow id) = m.log.count (.createNativeWindow id)
  unmade : ∀ id, m.created ≤ id → m.log.count (.release id) = 0 ∧ m.log.count (.destroyNativeWindow id) = 0 ∧
    m.log.count (.createNativeWindow id) = 0

theorem inv_init : Inv {} where
  keyed h := by simp at h
  made h := by simp at h
  distinct h := by simp at h
  held h := by simp at h
  dropped id h := absurd h (Nat.not_lt_zero id)
  unmade id _ := by simp

/-! ## The first pass -/

/-- A window that is made for a task that had none. -/
def add (m : MultiWindowManager) (w : Window) : MultiWindowManager where
  windows_ := m.windows_.insert w.task w
  created := m.created + 1
  log := m.log ++ if w.attached then [.createNativeWindow w.id] else []

theorem create_eq (hp : Creates platform_) (op : Update) (m : MultiWindowManager) (window : WindowState) :
    ∃ w : Window, w.id = m.created ∧ w.task = window.task ∧ m.create platform_ op window = m.add w := by
  obtain ⟨p, rfl, hp⟩ := hp
  obtain ⟨c, hc, htask⟩ := hp m.created window.task window.frame
    ((op.find_by_package window.package_name).getD window.package_name)
  refine ⟨{ id := m.created, task := c.task, frame := c.frame, title := c.title, attached := c.createNativeWindow },
    rfl, htask, ?_⟩
  simp only [create, hc, Window.attach, add, htask]

theorem find?_add : (m.add w).windows_.find? t = if t = w.task then some w else m.windows_.find? t :=
  OrdMap.find?_insert m.windows_ w.task t w

theorem Inv.add (hm : m.Inv) (hid : w.id = m.created) (hnew : m.windows_.find? w.task = none) : (m.add w).Inv := by
  have hcases : ∀ {t w'}, (m.add w).windows_.find? t = some w' →
      (t = w.task ∧ w' = w) ∨ m.windows_.find? t = some w' := by
    intro t w' h
    rw [find?_add] at h
    by_cases ht : t = w.task
    · rw [if_pos ht] at h
      exact Or.inl ⟨ht, (Option.some.inj h).symm⟩
    · rw [if_neg ht] at h
      exact Or.inr h
  have hnative : ∀ id, (m.add w).log.count (.release id) = m.log.count (.release id) ∧
      (m.add w).log.count (.destroyNativeWindow id) = m.log.count (.destroyNativeWindow id) ∧
      (m.add w).log.count (.createNativeWindow id) =
        m.log.count (.createNativeWindow id) + if w.attached ∧ w.id = id then 1 else 0 := by
    intro id
    unfold MultiWindowManager.add
    by_cases ha : w.attached
    · simp [ha, List.count_append, List.count_singleton]
    · simp [ha]
  obtain ⟨hr, hd, hc⟩ := hm.unmade w.id (Nat.le_of_eq hid.symm)
  constructor
  · intro t w' h
    rcases hcases h with ⟨rfl, rfl⟩ | h
    · rfl
    · exact hm.keyed h
  · intro t w' h
    rcases hcases h with ⟨rfl, rfl⟩ | h
    · exact Nat.lt_succ_of_le (Nat.le_of_eq hid)
    · exact Nat.lt_succ_of_lt (hm.made h)
  · intro t t' w1 w2 h1 h2 heq
    rcases hcases h1 with ⟨rfl, rfl⟩ | hold1
    · rcases hcases h2 with ⟨rfl, rfl⟩ | hold2
      · rfl
      · exact absurd (hm.made hold2) (by omega)
    · rcases hcases h2 with ⟨rfl, rfl⟩ | hold2
      · exact absurd (hm.made hold1) (by omega)
      · exact hm.distinct hold1 hold2 heq
  · intro t w' h
    obtain ⟨hr', hd', hc'⟩ := hnative w'.id
    rw [hr', hd', hc']
    rcases hcases h with ⟨rfl, rfl⟩ | h
    · rw [hr, hd, hc]
      simp
    · obtain ⟨h1, h2, h3⟩ := hm.held h
      have hne : w.id ≠ w'.id := by have := hm.made h; omega
      rw [h1, h2, h3]
      simp [hne]
  · intro id hlt hnot
    obtain ⟨hr', hd', hc'⟩ := hnative id
    have hne : w.id ≠ id := fun heq => hnot ⟨w.task, w, by rw [find?_add, if_pos rfl], heq⟩
    have hlt' : id < m.created + 1 := hlt
    have hnot' : ¬m.Has id := by
      rintro ⟨t, w', h, heq⟩
      have ht : t ≠ w.task := fun ht => by rw [ht, hnew] at h; cases h
      exact hnot ⟨t, w', by rw [find?_add, if_neg ht]; exact h, heq⟩
    rw [hr', hd', hc', if_neg (fun h => hne h.2)]
    exact hm.dropped id (by omega) hnot'
  · intro id hle
    have hle' : m.created + 1 ≤ id := hle
    obtain ⟨hr', hd', hc'⟩ := hnative id
    obtain ⟨h1, h2, h3⟩ := hm.unmade id (by omega)
    rw [hr', hd', hc', if_neg (fun h => by omega)]
    exact ⟨h1, h2, h3⟩

theorem updates_add (id : Nat) : (m.add w).updates id = m.updates id := by
  simp only [updates, add, List.filterMap_append]
  by_cases ha : w.attached
  · simp [ha, Effect.updateOf]
  · simp [ha]

/-- What the first pass does with a window: nothing, an update of a task that is known, or a new one. -/
theorem collect_cases (hp : Creates platform_) (op : Update) (m : MultiWindowManager) (u : TaskUpdates)
    (window : WindowState) :
    (¬Update.Qualifies window ∧ collect platform_ op (m, u) window = (m, u)) ∨
    (Update.Qualifies window ∧ window.task ∈ m.windows_ ∧ collect platform_ op (m, u) window =
      (m, u.insert window.task ((u.find? window.task).getD [] ++ [window]))) ∨
    (Update.Qualifies window ∧ ∃ w : Window, w.id = m.created ∧ w.task = window.task ∧
      m.windows_.find? w.task = none ∧ collect platform_ op (m, u) window = (m.add w, u)) := by
  by_cases hq : Update.Qualifies window
  · have hstack : ¬window.stack ≠ .Freeform := not_not.mpr hq.1
    have hsurface : ¬(!window.has_surface) = true := by simp [hq.2]
    simp only [collect, if_neg hstack, if_neg hsurface]
    cases hw : m.windows_.find? window.task with
    | none =>
      obtain ⟨w, hid, htask, heq⟩ := create_eq hp op m window
      exact Or.inr (Or.inr ⟨hq, w, hid, htask, by rw [htask, hw], by rw [heq]⟩)
    | some w =>
      refine Or.inr (Or.inl ⟨hq, OrdMap.mem_of_find? hw, ?_⟩)
      cases u.find? window.task with
      | none => rfl
      | some states => rfl
  · refine Or.inl ⟨hq, ?_⟩
    by_cases hstack : window.stack = .Freeform
    · have hsurface : window.has_surface = false := by
        rw [← Bool.not_eq_true]
        exact fun h => hq ⟨hstack, h⟩
      simp [collect, hstack, hsurface]
    · simp [collect, hstack]

/-- What the first pass makes of the windows and of the updates. -/
structure Collected (windows : List WindowState) (m : MultiWindowManager) (u : TaskUpdates)
    (r : MultiWindowManager × TaskUpdates) : Prop where
  inv : r.1.Inv
  updates : ∀ id, r.1.updates id = m.updates id
  kept : ∀ t w, m.windows_.find? t = some w → r.1.windows_.find? t = some w
  tasks : ∀ t, t ∈ r.1.windows_ ↔ t ∈ m.windows_ ∨ Update.entriesOf windows t ≠ []
  collected : ∀ t, r.2.find? t = addUpdates (u.find? t)
    (if t ∈ m.windows_ then Update.entriesOf windows t else (Update.entriesOf windows t).tail)

theorem collected_foldl (hp : Creates platform_) (op : Update) (windows : List WindowState) :
    ∀ m u, m.Inv → Collected windows m u (windows.foldl (collect platform_ op) (m, u)) := by
  induction windows with
  | nil =>
    intro m u hm
    exact ⟨hm, fun _ => rfl, fun _ _ h => h, fun t => by simp [Update.entriesOf],
      fun t => by simp [Update.entriesOf, addUpdates]⟩
  | cons window windows ih =>
    intro m u hm
    rw [List.foldl_cons]
    rcases collect_cases hp op m u window with ⟨hq, heq⟩ | ⟨hq, hknown, heq⟩ | ⟨hq, w, hid, htask, hnew, heq⟩
    · rw [heq]
      have h := ih m u hm
      refine ⟨h.inv, h.updates, h.kept, fun t => ?_, fun t => ?_⟩
      · rw [Update.entriesOf_cons_of_not hq]
        exact h.tasks t
      · rw [Update.entriesOf_cons_of_not hq]
        exact h.collected t
    · rw [heq]
      have h := ih m (u.insert window.task ((u.find? window.task).getD [] ++ [window])) hm
      refine ⟨h.inv, h.updates, h.kept, fun t => ?_, fun t => ?_⟩
      · rw [h.tasks t, Update.entriesOf_cons hq]
        by_cases ht : window.task = t
        · rw [ht] at hknown
          exact ⟨fun _ => Or.inl hknown, fun _ => Or.inl hknown⟩
        · rw [if_neg ht]
      · rw [h.collected t, Update.entriesOf_cons hq, OrdMap.find?_insert]
        by_cases ht : window.task = t
        · rw [ht] at hknown ⊢
          rw [if_pos rfl, if_pos rfl, if_pos hknown, if_pos hknown, addUpdates_cons]
        · rw [if_neg ht, if_neg (Ne.symm ht)]
    · rw [heq]
      have h := ih (m.add w) u (hm.add hid hnew)
      have hmem : ∀ t, t ∈ (m.add w).windows_ ↔ t = window.task ∨ t ∈ m.windows_ := by
        intro t
        rw [← htask]
        exact OrdMap.mem_insert
      rw [htask] at hnew
      refine ⟨h.inv, fun id => ?_, fun t w' hw => ?_, fun t => ?_, fun t => ?_⟩
      · rw [h.updates, updates_add]
      · apply h.kept
        have ht : t ≠ w.task := fun ht => by rw [ht, htask, hnew] at hw; cases hw
        rw [find?_add, if_neg ht, hw]
      · rw [h.tasks t, hmem, Update.entriesOf_cons hq]
        by_cases ht : window.task = t
        · simp [ht]
        · simp [ht, Ne.symm ht]
      · rw [h.collected t, Update.entriesOf_cons hq]
        by_cases ht : window.task = t
        · -- The task is known from here on, by the window that is not among its updates.
          rw [ht] at hnew
          rw [if_pos ht, if_pos ((hmem t).mpr (Or.inl ht.symm)), if_neg (OrdMap.not_mem_iff.mpr hnew), List.tail_cons]
        · have hiff : t ∈ (m.add w).windows_ ↔ t ∈ m.windows_ := by
            rw [hmem]
            exact or_iff_right (Ne.symm ht)
          simp only [if_neg ht, hiff]

/-! ## The second pass -/

theorem filterMap_lookup {l : List (Int × List WindowState)} (hl : l.Pairwise (fun a b => a.1 < b.1)) (t : Int) :
    l.filterMap (fun u => if u.1 = t then some u.2 else none) = (l.lookup t).toList := by
  induction l with
  | nil => rfl
  | cons e l ih =>
    obtain ⟨he, hl⟩ := List.pairwise_cons.mp hl
    by_cases ht : e.1 = t
    · have hnone : l.filterMap (fun u => if u.1 = t then some u.2 else none) = [] := by
        rw [List.filterMap_eq_nil_iff]
        intro u hu
        exact if_neg (fun h => absurd (he u hu) (by omega))
      rw [List.filterMap_cons, if_pos ht, hnone, List.lookup_cons, ← ht]
      simp
    · have hne : (t == e.1) = false := beq_false_of_ne (Ne.symm ht)
      rw [List.filterMap_cons, if_neg ht, ih hl, List.lookup_cons, hne]

/-- A window gets the updates of its task, and no other ones. -/
theorem updates_send (hm : m.Inv) (hw : m.windows_.find? t = some w) :
    (m.send u).updates w.id = m.updates w.id ++ (u.find? t).toList := by
  have hone : ∀ e : Int × List WindowState,
      ((m.windows_.find? e.1).map fun w' => Effect.update_state w'.id e.2).bind (Effect.updateOf w.id) =
        if e.1 = t then some e.2 else none := by
    intro e
    by_cases he : e.1 = t
    · simp [he, hw, Effect.updateOf]
    · rw [if_neg he]
      cases hw' : m.windows_.find? e.1 with
      | none => rfl
      | some w' =>
        have hne : w'.id ≠ w.id := fun h => he (hm.distinct hw' hw h)
        simp [hne, Effect.updateOf]
  rw [updates, send, List.filterMap_append, List.filterMap_filterMap]
  simp only [hone]
  rw [filterMap_lookup u.sorted]
  rfl

theorem Inv.send (hm : m.Inv) (u : TaskUpdates) : (m.send u).Inv := by
  have hcount : ∀ e : Effect, (∀ id states, e ≠ .update_state id states) → (m.send u).log.count e = m.log.count e := by
    intro e he
    rw [MultiWindowManager.send, List.count_append, Nat.add_eq_left, List.count_eq_zero]
    intro hmem
    obtain ⟨a, _, ha⟩ := List.mem_filterMap.mp hmem
    obtain ⟨w, _, hw⟩ := Option.map_eq_some_iff.mp ha
    exact he _ _ hw.symm
  have hrelease : ∀ id, (m.send u).log.count (.release id) = m.log.count (.release id) :=
    fun id => hcount _ (by simp)
  have hdestroy : ∀ id, (m.send u).log.count (.destroyNativeWindow id) = m.log.count (.destroyNativeWindow id) :=
    fun id => hcount _ (by simp)
  have hcreate : ∀ id, (m.send u).log.count (.createNativeWindow id) = m.log.count (.createNativeWindow id) :=
    fun id => hcount _ (by simp)
  refine ⟨hm.keyed, hm.made, hm.distinct, fun h => ?_, fun id hlt hnot => ?_, fun id hle => ?_⟩
  · rw [hrelease, hdestroy, hcreate]
    exact hm.held h
  · rw [hrelease, hdestroy, hcreate]
    exact hm.dropped id hlt hnot
  · rw [hrelease, hdestroy, hcreate]
    exact hm.unmade id hle

/-! ## The third pass -/

theorem drop_eq (w : Window) :
    w.drop = .release w.id :: if w.attached then [.destroyNativeWindow w.id] else [] := by
  cases h : w.attached with
  | false => simp [Window.drop, Window.release, h]
  | true => simp [Window.drop, Window.release, h]

/-- A window goes. -/
def dropped (m : MultiWindowManager) (t : Int) (w : Window) : MultiWindowManager :=
  { m with windows_ := m.windows_.erase t, log := m.log ++ w.drop }

theorem Inv.remove (hm : m.Inv) (hw : m.windows_.find? t = some w) : (m.dropped t w).Inv := by
  have hcases : ∀ {t' w'}, (m.dropped t w).windows_.find? t' = some w' →
      w'.id ≠ w.id ∧ m.windows_.find? t' = some w' := by
    intro t' w' h
    obtain ⟨hne, hold⟩ := OrdMap.find?_of_erase h
    exact ⟨fun heq => hne (hm.distinct hold hw heq), hold⟩
  have hcounts : ∀ id, (m.dropped t w).log.count (.release id) =
        m.log.count (.release id) + (if w.id = id then 1 else 0) ∧
      (m.dropped t w).log.count (.destroyNativeWindow id) =
        m.log.count (.destroyNativeWindow id) + (if w.attached ∧ w.id = id then 1 else 0) ∧
      (m.dropped t w).log.count (.createNativeWindow id) = m.log.count (.createNativeWindow id) := by
    intro id
    rw [MultiWindowManager.dropped, drop_eq]
    by_cases ha : w.attached
    · simp [ha, List.count_append, List.count_cons]
    · simp [ha, List.count_append, List.count_cons]
  obtain ⟨hr, hd, hc⟩ := hm.held hw
  constructor
  · intro t' w' h
    exact hm.keyed (hcases h).2
  · intro t' w' h
    exact hm.made (hcases h).2
  · intro t1 t2 w1 w2 h1 h2 heq
    exact hm.distinct (hcases h1).2 (hcases h2).2 heq
  · intro t' w' h
    obtain ⟨hne, hold⟩ := hcases h
    obtain ⟨h1, h2, h3⟩ := hcounts w'.id
    rw [h1, h2, h3, if_neg (Ne.symm hne), if_neg (fun h => hne h.2.symm)]
    exact hm.held hold
  · intro id hlt hnot
    obtain ⟨h1, h2, h3⟩ := hcounts id
    rw [h1, h2, h3]
    by_cases hid : w.id = id
    · subst hid
      rw [hr, hd, hc]
      simp
    · have hnot' : ¬m.Has id := by
        rintro ⟨t', w', hold, heq⟩
        have hne : t' ≠ t := fun ht => hid (by rw [ht, hw] at hold; cases hold; exact heq)
        exact hnot ⟨t', w', (OrdMap.find?_erase_ne _ hne).trans hold, heq⟩
      rw [if_neg hid, if_neg (fun h => hid h.2)]
      exact hm.dropped id hlt hnot'
  · intro id hle
    obtain ⟨h1, h2, h3⟩ := hcounts id
    have hne : w.id ≠ id := by
      have hlt : w.id < m.created := hm.made hw
      have hle' : m.created ≤ id := hle
      omega
    rw [h1, h2, h3, if_neg hne, if_neg (fun h => hne h.2)]
    exact hm.unmade id hle

theorem updates_dropped (id : Nat) : (m.dropped t w).updates id = m.updates id := by
  rw [updates, dropped, drop_eq, List.filterMap_append]
  by_cases ha : w.attached
  · simp [ha, Effect.updateOf, updates]
  · simp [ha, Effect.updateOf, updates]

theorem remove_cases (u : TaskUpdates) (m : MultiWindowManager) (window : WindowState) :
    (remove u m window = m ∧ (m.windows_.find? window.task = none ∨ u.find? window.task ≠ none)) ∨
    (u.find? window.task = none ∧ ∃ w, m.windows_.find? window.task = some w ∧
      remove u m window = m.dropped window.task w) := by
  unfold remove
  cases hw : m.windows_.find? window.task with
  | none => exact Or.inl ⟨rfl, Or.inl rfl⟩
  | some w =>
    cases hu : u.find? window.task with
    | none => exact Or.inr ⟨rfl, w, rfl, rfl⟩
    | some states => exact Or.inl ⟨rfl, Or.inr (by simp)⟩

/-- What the third pass leaves. -/
structure Removed (removed : List WindowState) (u : TaskUpdates) (m m' : MultiWindowManager) : Prop where
  inv : m'.Inv
  updates : ∀ id, m'.updates id = m.updates id
  gone : ∀ t, (∃ window ∈ removed, window.task = t) → u.find? t = none → m'.windows_.find? t = none
  kept : ∀ t, ¬((∃ window ∈ removed, window.task = t) ∧ u.find? t = none) →
    m'.windows_.find? t = m.windows_.find? t

theorem removed_foldl (u : TaskUpdates) (removed : List WindowState) :
    ∀ m, m.Inv → Removed removed u m (removed.foldl (remove u) m) := by
  induction removed with
  | nil =>
    intro m hm
    exact ⟨hm, fun _ => rfl, fun t h => by simp at h, fun _ _ => rfl⟩
  | cons window removed ih =>
    intro m hm
    rw [List.foldl_cons]
    have htail : ∀ {t}, ¬((∃ w ∈ window :: removed, w.task = t) ∧ u.find? t = none) →
        ¬((∃ w ∈ removed, w.task = t) ∧ u.find? t = none) := by
      rintro t h ⟨⟨w, hw, ht⟩, hu⟩
      exact h ⟨⟨w, List.mem_cons_of_mem _ hw, ht⟩, hu⟩
    have hnone : ∀ m : MultiWindowManager, m.Inv → ∀ t, m.windows_.find? t = none → u.find? t = none →
        (removed.foldl (remove u) m).windows_.find? t = none := by
      intro m hm t hnone hu
      have h := ih m hm
      by_cases ht : ∃ w ∈ removed, w.task = t
      · exact h.gone t ht hu
      · rw [h.kept t (fun h' => ht h'.1), hnone]
    rcases remove_cases u m window with ⟨heq, hwhy⟩ | ⟨hu, w, hw, heq⟩
    · rw [heq]
      have h := ih m hm
      refine ⟨h.inv, h.updates, ?_, fun t ht => h.kept t (htail ht)⟩
      rintro t ⟨w, hmem, rfl⟩ hu
      rcases List.mem_cons.mp hmem with rfl | hmem
      · rcases hwhy with hwhy | hwhy
        · exact hnone m hm _ hwhy hu
        · exact absurd hu hwhy
      · exact h.gone w.task ⟨w, hmem, rfl⟩ hu
    · rw [heq]
      have h := ih (m.dropped window.task w) (hm.remove hw)
      refine ⟨h.inv, fun id => ?_, ?_, fun t ht => ?_⟩
      · rw [h.updates, updates_dropped]
      · rintro t ⟨w', hmem, rfl⟩ hu'
        rcases List.mem_cons.mp hmem with rfl | hmem
        · exact hnone _ (hm.remove hw) _ (by simp [dropped]) hu'
        · exact h.gone w'.task ⟨w', hmem, rfl⟩ hu'
      · have hne : t ≠ window.task := fun h' => ht ⟨⟨window, List.mem_cons_self, h'.symm⟩, h' ▸ hu⟩
        rw [h.kept t (htail ht)]
        exact OrdMap.find?_erase_ne _ hne

/-! ## An update -/

theorem Inv.found (hm : m.Inv) (t : Int) : (∃ w, m.find_window_for_task t = some w) ↔ t ∈ m.windows_ := by
  rw [OrdMap.mem_iff]
  constructor
  · rintro ⟨w, hw⟩
    obtain ⟨e, he, rfl⟩ := Option.map_eq_some_iff.mp hw
    have hmem : m.windows_.find? e.1 = some e.2 := OrdMap.find?_eq_some_iff.mpr (List.mem_of_find?_eq_some he)
    have htask : e.2.task = t := by simpa using List.find?_some he
    exact ⟨e.2, by rw [← htask, hm.keyed hmem, hmem]⟩
  · rintro ⟨w, hw⟩
    have hsome : (m.windows_.entries.find? fun e => e.2.task = t).isSome := by
      rw [List.find?_isSome]
      exact ⟨(t, w), OrdMap.find?_eq_some_iff.mp hw, decide_eq_true (hm.keyed hw)⟩
    obtain ⟨e, he⟩ := Option.isSome_iff_exists.mp hsome
    exact ⟨e.2, by rw [find_window_for_task, he]; rfl⟩

/-- Whether the first pass collected an update of the task. -/
theorem Collected.none_iff {r : MultiWindowManager × TaskUpdates} (h : Collected op.updated m ∅ r) (t : Int) :
    r.2.find? t = none ↔ (t ∈ m.windows_ ∧ ¬op.Uses t) ∨ (t ∉ m.windows_ ∧ (op.entries t).length ≤ 1) := by
  rw [h.collected, OrdMap.find?_empty, addUpdates_none_iff]
  show (if t ∈ m.windows_ then op.entries t else (op.entries t).tail) = [] ↔ _
  by_cases ht : t ∈ m.windows_
  · simp [ht, Update.Uses]
  · simp only [ht, if_false, false_and, false_or, not_false_eq_true, true_and]
    cases op.entries t with
    | nil => simp
    | cons e es => simp

/-- An update, by its passes. -/
theorem apply_spec (hp : Creates platform_) (hm : m.Inv) (op : Update) :
    ∃ r, Collected op.updated m ∅ r ∧
      Removed op.removed r.2 (r.1.send r.2) (m.apply_window_state_update platform_ op) := by
  have hc := collected_foldl hp op op.updated m ∅ hm
  exact ⟨_, hc, removed_foldl _ op.removed _ (hc.inv.send _)⟩

theorem Inv.apply (hp : Creates platform_) (hm : m.Inv) (op : Update) :
    (m.apply_window_state_update platform_ op).Inv := by
  obtain ⟨r, _, hr⟩ := apply_spec hp hm op
  exact hr.inv

/-- The tasks that have a window after an update. -/
theorem mem_apply (hp : Creates platform_) (hm : m.Inv) (op : Update) (t : Int) :
    t ∈ (m.apply_window_state_update platform_ op).windows_ ↔ (t ∈ m.windows_ ∨ op.Uses t) ∧
      ¬(op.Removes t ∧ ((t ∈ m.windows_ ∧ ¬op.Uses t) ∨ (t ∉ m.windows_ ∧ (op.entries t).length ≤ 1))) := by
  obtain ⟨r, hc, hr⟩ := apply_spec hp hm op
  rw [← hc.none_iff t]
  have htasks : t ∈ r.1.windows_ ↔ t ∈ m.windows_ ∨ op.Uses t := hc.tasks t
  by_cases hgone : op.Removes t ∧ r.2.find? t = none
  · have hnone := hr.gone t hgone.1 hgone.2
    rw [← OrdMap.not_mem_iff] at hnone
    exact ⟨fun h => absurd h hnone, fun h => absurd hgone h.2⟩
  · have hkept : (m.apply_window_state_update platform_ op).windows_.find? t = r.1.windows_.find? t :=
      hr.kept t hgone
    rw [OrdMap.mem_iff, hkept, ← OrdMap.mem_iff, htasks]
    exact ⟨fun h => ⟨h, hgone⟩, fun h => h.1⟩

/-- What is right after every update. -/
theorem follows_of_tasks (hp : Creates platform_) (hm : m.Inv)
    (htasks : ∀ t, t ∈ (m.apply_window_state_update platform_ op).windows_ ↔
      (t ∈ m.windows_ ∨ op.Uses t) ∧ ¬(op.Removes t ∧ ¬op.Uses t)) :
    Follows m op (m.apply_window_state_update platform_ op) := by
  obtain ⟨r, hc, hr⟩ := apply_spec hp hm op
  refine ⟨htasks, fun t w h => hr.inv.keyed h, hr.inv.found, ?_, ?_, ?_, ?_⟩
  · intro t w hw huses
    rw [hr.kept t, ← hc.kept t w hw]
    · rfl
    · rintro ⟨_, hnone⟩
      rcases (hc.none_iff t).mp hnone with ⟨_, hnot⟩ | ⟨hnew, _⟩
      · exact hnot huses
      · exact hnew (OrdMap.mem_of_find? hw)
  · intro t w hw
    have hsend := updates_send (u := r.2) hc.inv (hc.kept t w hw)
    rw [hr.updates, hsend, hc.updates, hc.collected, OrdMap.find?_empty, if_pos (OrdMap.mem_of_find? hw)]
    constructor
    · intro huses
      have hne : Update.entriesOf op.updated t ≠ [] := huses
      rw [addUpdates_none hne]
      rfl
    · intro hnot
      have hnil : Update.entriesOf op.updated t = [] := not_not.mp hnot
      rw [addUpdates_none_iff.mpr hnil, Option.toList_none, List.append_nil]
  · exact hr.inv.dropped
  · rintro id ⟨t, w, hw, rfl⟩
    obtain ⟨h1, h2, _⟩ := hr.inv.held hw
    exact ⟨h1, h2⟩

/-- The exact condition on an update. -/
theorem follows_iff (hp : Creates platform_) (hm : m.Inv) (op : Update) :
    Follows m op (m.apply_window_state_update platform_ op) ↔ m.UsedTwice op := by
  constructor
  · intro h t hremoves hnew huses
    by_contra hlen
    have hmem := (h.tasks t).mpr ⟨Or.inr huses, fun h' => h'.2 huses⟩
    exact ((mem_apply hp hm op t).mp hmem).2 ⟨hremoves, Or.inr ⟨hnew, by omega⟩⟩
  · intro h
    apply follows_of_tasks hp hm
    intro t
    rw [mem_apply hp hm op t]
    refine and_congr_right fun hold => not_congr (and_congr_right fun hremoves => ?_)
    constructor
    · rintro (⟨_, hnot⟩ | ⟨hnew, hlen⟩)
      · exact hnot
      · intro huses
        have htwo := h t hremoves hnew huses
        omega
    · intro hnot
      exact Or.inl ⟨hold.resolve_right hnot, hnot⟩

/-- In every run the windows follow Android's tasks exactly as long as each task that is new in an update, and of
which a window is gone in the same update, is used twice there. -/
theorem windows_follow_tasks (hp : Creates platform_) (ops : List Update) :
    (managerMachine platform_).AllSteps (fun m op => Follows m op (m.apply_window_state_update platform_ op)) {} ops ↔
      (managerMachine platform_).AllSteps UsedTwice {} ops := by
  apply Machine.allSteps_iff_of_relation (R := Inv)
  · intro m op m' hm _ h
    cases Option.some.inj h
    exact hm.apply hp op
  · intro m op hm
    exact follows_iff hp hm op
  · exact inv_init

/-! ## Platforms that may fail -/

/-- The windows are kept under their tasks, and are different objects. -/
structure Owned (m : MultiWindowManager) : Prop where
  keyed : ∀ {t w}, m.windows_.find? t = some w → w.task = t
  made : ∀ {t w}, m.windows_.find? t = some w → w.id < m.created
  distinct : ∀ {t t' w w'}, m.windows_.find? t = some w → m.windows_.find? t' = some w' → w.id = w'.id → t = t'

theorem Owned.congr (hm : m.Owned) (hw : m'.windows_ = m.windows_) (hc : m'.created = m.created) : m'.Owned where
  keyed h := hm.keyed (hw ▸ h)
  made h := hc ▸ hm.made (hw ▸ h)
  distinct h h' := hm.distinct (hw ▸ h) (hw ▸ h')

theorem Owned.add (hm : m.Owned) (hid : w.id = m.created) : (m.add w).Owned := by
  have hcases : ∀ {t w'}, (m.add w).windows_.find? t = some w' →
      (t = w.task ∧ w' = w) ∨ m.windows_.find? t = some w' := by
    intro t w' h
    rw [find?_add] at h
    split_ifs at h with ht
    · exact Or.inl ⟨ht, (Option.some.inj h).symm⟩
    · exact Or.inr h
  refine ⟨fun h => ?_, fun h => ?_, fun h h' heq => ?_⟩
  · rcases hcases h with ⟨rfl, rfl⟩ | h
    · rfl
    · exact hm.keyed h
  · show _ < m.created + 1
    rcases hcases h with ⟨-, rfl⟩ | h
    · omega
    · exact Nat.lt_succ_of_lt (hm.made h)
  · rcases hcases h with ⟨rfl, rfl⟩ | hold
    · rcases hcases h' with ⟨rfl, rfl⟩ | hold'
      · rfl
      · have := hm.made hold'
        omega
    · rcases hcases h' with ⟨rfl, rfl⟩ | hold'
      · have := hm.made hold
        omega
      · exact hm.distinct hold hold' heq

theorem Owned.erase (hm : m.Owned) (hw : m'.windows_ = m.windows_.erase t) (hc : m'.created = m.created) :
    m'.Owned := by
  have hfind : ∀ {t' w'}, m'.windows_.find? t' = some w' → m.windows_.find? t' = some w' := by
    intro t' w' h
    rw [hw, OrdMap.find?_erase] at h
    split_ifs at h
    exact h
  exact ⟨fun h => hm.keyed (hfind h), fun h => hc ▸ hm.made (hfind h),
    fun h h' => hm.distinct (hfind h) (hfind h')⟩

theorem Owned.create (hp : KeepsTask platform_) (hm : m.Owned) (op : Update) (window : WindowState) :
    (m.create platform_ op window).Owned := by
  unfold MultiWindowManager.create
  dsimp only
  split
  · exact hm
  · rename_i p
    split
    · rename_i c hc
      have htask := hp p rfl _ _ _ _ _ hc
      have hadd := hm.add (w := ⟨m.created, c.task, c.frame, c.title, c.createNativeWindow⟩) rfl
      refine hadd.congr ?_ rfl
      simp only [MultiWindowManager.add, Window.attach, htask]
    · exact hm.congr rfl rfl

theorem Owned.collect (hp : KeepsTask platform_) (op : Update) (window : WindowState)
    {s : MultiWindowManager × TaskUpdates} (hm : s.1.Owned) :
    (MultiWindowManager.collect platform_ op s window).1.Owned := by
  unfold MultiWindowManager.collect
  split
  split_ifs
  · exact hm
  · exact hm
  · split
    · split <;> exact hm
    · exact hm.create hp op window

theorem Owned.remove (u : TaskUpdates) (hm : m.Owned) (window : WindowState) :
    (MultiWindowManager.remove u m window).Owned := by
  rcases remove_cases u m window with ⟨heq, -⟩ | ⟨-, w, -, heq⟩
  · rw [heq]
    exact hm
  · rw [heq]
    exact hm.erase rfl rfl

theorem Owned.apply (hp : KeepsTask platform_) (hm : m.Owned) (op : Update) :
    (m.apply_window_state_update platform_ op).Owned := by
  have hcollect : (op.updated.foldl (MultiWindowManager.collect platform_ op) (m, ∅)).1.Owned :=
    List.foldlRecOn (motive := fun s : MultiWindowManager × TaskUpdates => s.1.Owned) _ _ hm
      fun _ hs window _ => hs.collect hp op window
  exact List.foldlRecOn (motive := Owned) _ _ (hcollect.congr rfl rfl) fun _ hs window _ => hs.remove _ window

/-- In every run each window is kept under its task, whether the platform makes all of them or not. -/
theorem owned_of_reachable (hp : KeepsTask platform_) (hm : (managerMachine platform_).Reachable m) : m.Owned := by
  refine hm.invariant ?_ fun s op s' hs h => ?_
  · exact ⟨inv_init.keyed, inv_init.made, inv_init.distinct⟩
  · obtain rfl := Option.some.inj h
    exact hs.apply hp op

/-- A window is found by its task. -/
theorem Owned.find_window_for_task_eq (hm : m.Owned) (t : Int) :
    m.find_window_for_task t = m.windows_.find? t := by
  unfold find_window_for_task
  cases hw : m.windows_.find? t with
  | none =>
    rw [Option.map_eq_none_iff, List.find?_eq_none]
    intro e he htask
    have hmem : m.windows_.find? e.1 = some e.2 := OrdMap.find?_eq_some_iff.mpr he
    rw [← hm.keyed hmem, of_decide_eq_true htask, hw] at hmem
    exact absurd hmem (Option.some_ne_none _).symm
  | some w =>
    have hsome : (m.windows_.entries.find? fun e => e.2.task = t).isSome := by
      rw [List.find?_isSome]
      exact ⟨(t, w), OrdMap.find?_eq_some_iff.mp hw, decide_eq_true (hm.keyed hw)⟩
    obtain ⟨e, he⟩ := Option.isSome_iff_exists.mp hsome
    have hmem : m.windows_.find? e.1 = some e.2 := OrdMap.find?_eq_some_iff.mpr (List.mem_of_find?_eq_some he)
    have htask : e.2.task = t := by simpa using List.find?_some he
    rw [← hm.keyed hmem, htask, hw] at hmem
    rw [he, Option.map_some, hmem]

/-- A platform that makes every window, with a native one. -/
def hostPlatform : Platform where
  create_window _ task frame title := some { task, frame, title, createNativeWindow := true }

theorem hostPlatform_creates : Creates (some hostPlatform) := ⟨hostPlatform, rfl, fun _ _ _ _ => ⟨_, rfl, rfl⟩⟩

/-- A window of a freeform task that has a surface. -/
def shown (task : Int) : WindowState where
  has_surface := true
  task := task
  stack := .Freeform

theorem usedTwice_of_removed_nil {updated : List WindowState} : m.UsedTwice { updated, removed := [] } := by
  rintro t ⟨window, hmem, -⟩
  cases hmem

/-- A task gets a window, is updated while one of its windows goes, and goes itself. -/
theorem window_of_one_task_follows :
    Creates (some hostPlatform) ∧ (managerMachine (some hostPlatform)).AllSteps
      (fun m op => Follows m op (m.apply_window_state_update (some hostPlatform) op)) {}
      [{ updated := [shown 1], removed := [] }, { updated := [shown 1], removed := [shown 1] },
        { updated := [], removed := [shown 1] }] := by
  refine ⟨hostPlatform_creates, (windows_follow_tasks hostPlatform_creates _).mpr ?_⟩
  refine ⟨usedTwice_of_removed_nil, fun m1 h1 => ⟨?_, fun m2 h2 => ⟨?_, fun _ _ => trivial⟩⟩⟩
  · cases Option.some.inj h1
    rintro t ⟨window, hmem, rfl⟩ hnew
    rw [List.mem_singleton.mp hmem] at hnew
    exact absurd (by decide) hnew
  · intro t _ _ huses
    exact absurd rfl huses

/-- A task that is new and has one window, of which an older one is gone, has no window after the update. -/
theorem new_task_loses_its_window :
    ¬(managerMachine (some hostPlatform)).AllSteps
      (fun m op => Follows m op (m.apply_window_state_update (some hostPlatform) op)) {}
      [{ updated := [shown 1], removed := [shown 1] }] := by
  intro h
  have huses : Update.Uses { updated := [shown 1], removed := [shown 1] } 1 := List.cons_ne_nil (shown 1) []
  have hmem := (h.1.tasks 1).mpr ⟨Or.inr huses, fun h' => h'.2 huses⟩
  exact absurd hmem (by decide)

end MultiWindowManager

end AnboxReboxed.Wm
