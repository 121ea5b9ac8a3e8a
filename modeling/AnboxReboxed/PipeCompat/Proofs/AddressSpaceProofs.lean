import AnboxReboxed.PipeCompat.AddressSpace
import Mathlib.Tactic.FinCases

/-!
# Proofs: the table of the address spaces

A thread that may still set an entry, or that has still to read one, has it for itself as long as the system calls come
in time. An entry that no thread has still to update is right: it is active when its descriptor is an address space,
and has the identity of it then.
-/

namespace AnboxReboxed.PipeCompat

open AnboxReboxed.Lib Function

variable {s s' : Shim} {t u fd oldfd newfd : Nat} {p p' : Pc}

namespace Pc

/-- The descriptor and its copy, as long as a wrapper has them in hand. -/
def copy : Pc → Option (Nat × Nat)
  | .dup_clear oldfd newfd | .dup_active oldfd newfd | .dup_fstat oldfd newfd | .dup_compare oldfd newfd _
  | .dup_load oldfd newfd => some (oldfd, newfd)
  | _ => none

/-- The address space that a wrapper is about to enter. -/
def entering : Pc → Option Nat
  | .track_fstat fd | .track_clear fd _ | .track_write fd _ | .dup_store fd _ => some fd
  | _ => none

theorem reads_iff : p.Reads fd ↔ ∃ newfd, p.copy = some (fd, newfd) := by
  cases p <;> simp [Reads, copy, eq_comm]

theorem sets_iff : p.Sets fd ↔ p.entering = some fd ∨ ∃ oldfd, p.copy = some (oldfd, fd) := by
  cases p <;> simp [Sets, entering, copy, eq_comm]

theorem updates_of_sets (h : p.Sets fd) : p.Updates fd := by
  cases p <;> first | exact h | exact h.elim

theorem updates_iff_of_copy (h : p.copy = some (oldfd, newfd)) : p.Updates fd ↔ fd = newfd := by
  cases p <;> simp_all [copy, Updates]

end Pc

namespace Shim

/-! ## The invariant -/

/-- The descriptor is a copy of another one, and it is no address space when the table has no entry for that. -/
structure Copied (s : Shim) (oldfd newfd : Nat) : Prop where
  below : newfd < limit
  ne : oldfd ≠ newfd
  same : ∃ d, s.kernel newfd = some d ∧ (oldfd < limit → s.kernel oldfd = some d) ∧ (¬oldfd < limit → d.space = false)

/-- What a thread may rely on. -/
def PcOk (s : Shim) : Pc → Prop
  | .track_fstat fd => fd < limit ∧ s.IsSpace fd
  | .track_clear fd identity | .track_write fd identity => fd < limit ∧ s.kernel fd = some ⟨identity, true⟩
  | .dup_clear oldfd newfd => s.Copied oldfd newfd
  | .dup_active oldfd newfd => s.Copied oldfd newfd ∧ (s.address_space_fds newfd).active = false
  | .dup_fstat oldfd newfd | .dup_load oldfd newfd =>
    s.Copied oldfd newfd ∧ oldfd < limit ∧ (s.address_space_fds oldfd).active = true
  | .dup_compare oldfd newfd identity =>
    s.Copied oldfd newfd ∧ oldfd < limit ∧ (s.address_space_fds oldfd).active = true ∧
      ∃ d, s.kernel oldfd = some d ∧ d.identity = identity
  | .dup_store newfd entry =>
    newfd < limit ∧ ∃ d, s.kernel newfd = some d ∧ d.space = true ∧ entry = ⟨d.identity, true⟩
  | .clear_range fd last => fd ≤ last
  | .mismatch _ => False
  | .idle | .connect _ | .closing _ | .clear _ => True

/-- The entry is right. -/
structure Settled (s : Shim) (fd : Nat) : Prop where
  active : (s.address_space_fds fd).active = true ↔ s.IsSpace fd
  identity : ∀ d, (s.address_space_fds fd).active = true → s.kernel fd = some d →
    d.identity = (s.address_space_fds fd).identity

structure Inv (s : Shim) : Prop where
  thread : ∀ t, s.PcOk (s.pc t)
  /-- A thread that sets the entry of an address space has it for itself. -/
  setter : ∀ t u fd, t ≠ u → (s.pc t).Sets fd → s.IsSpace fd → ¬(s.pc u).Updates fd
  reader : ∀ t u, ∀ fd < limit, t ≠ u → (s.pc t).Reads fd → ¬(s.pc u).Updates fd
  settled : ∀ fd < limit, (∀ t, ¬(s.pc t).Updates fd) → s.Settled fd
  /-- The entry of an address space is not to be cleared only. -/
  pending : ∀ t, ∀ fd < limit, (s.pc t).Updates fd → s.IsSpace fd → ∃ u, (s.pc u).Sets fd

theorem inv_init (inherited : Nat → Option Identity) : (shimMachine inherited).init.Inv where
  thread _ := trivial
  setter _ _ _ _ h := h.elim
  reader _ _ _ _ _ h := h.elim
  settled fd _ _ := by
    have hnot : ¬(shimMachine inherited).init.IsSpace fd := by
      rintro ⟨d, hd, hspace⟩
      obtain ⟨i, -, rfl⟩ := Option.map_eq_some_iff.mp hd
      cases hspace
    exact ⟨⟨(fun h => by cases h), fun h => absurd h hnot⟩, fun _ h => by cases h⟩
  pending _ _ _ h := h.elim

theorem PcOk.of_entering (h : s.PcOk p) (hp : p.entering = some fd) : fd < limit ∧ s.IsSpace fd := by
  cases p with
  | track_fstat f =>
    cases hp
    exact h
  | track_clear f i =>
    cases hp
    exact ⟨h.1, _, h.2, rfl⟩
  | track_write f i =>
    cases hp
    exact ⟨h.1, _, h.2, rfl⟩
  | dup_store f e =>
    cases hp
    obtain ⟨hlt, d, hd, hspace, -⟩ := h
    exact ⟨hlt, d, hd, hspace⟩
  | _ => cases hp

theorem PcOk.of_copy (h : s.PcOk p) (hp : p.copy = some (oldfd, newfd)) : s.Copied oldfd newfd := by
  cases p with
  | dup_clear f g =>
    cases hp
    exact h
  | dup_active f g =>
    cases hp
    exact h.1
  | dup_fstat f g =>
    cases hp
    exact h.1
  | dup_compare f g i =>
    cases hp
    exact h.1
  | dup_load f g =>
    cases hp
    exact h.1
  | _ => cases hp

theorem PcOk.of_sets (h : s.PcOk p) (hsets : p.Sets fd) : fd < limit ∧ s.kernel fd ≠ none := by
  rcases Pc.sets_iff.mp hsets with hp | ⟨oldfd, hp⟩
  · obtain ⟨hlt, d, hd, -⟩ := h.of_entering hp
    exact ⟨hlt, by rw [hd]; exact Option.some_ne_none d⟩
  · obtain ⟨hlt, -, d, hd, -⟩ := h.of_copy hp
    exact ⟨hlt, by rw [hd]; exact Option.some_ne_none d⟩

theorem PcOk.of_reads (h : s.PcOk p) (hreads : p.Reads fd) (hlt : fd < limit) : s.kernel fd ≠ none := by
  obtain ⟨newfd, hp⟩ := Pc.reads_iff.mp hreads
  obtain ⟨-, -, d, -, hold, -⟩ := h.of_copy hp
  rw [hold hlt]
  exact Option.some_ne_none d

/-- A thread that has still to read an entry does not update it. -/
theorem PcOk.not_updates (h : s.PcOk p) (hreads : p.Reads fd) : ¬p.Updates fd := by
  obtain ⟨newfd, hp⟩ := Pc.reads_iff.mp hreads
  rw [Pc.updates_iff_of_copy hp]
  exact (h.of_copy hp).ne

/-- An entry that is still to be read is right. -/
theorem Inv.settled_of_reads (h : s.Inv) (hreads : (s.pc t).Reads fd) (hlt : fd < limit) : s.Settled fd := by
  apply h.settled fd hlt
  intro u
  by_cases hu : t = u
  · rw [← hu]
    exact (h.thread t).not_updates hreads
  · exact h.reader t u fd hlt hu hreads

theorem Copied.congr (h : s.Copied oldfd newfd) (hnew : s'.kernel newfd = s.kernel newfd)
    (hold : oldfd < limit → s'.kernel oldfd = s.kernel oldfd) : s'.Copied oldfd newfd := by
  obtain ⟨hlt, hne, d, hd, hsame, hspace⟩ := h
  exact ⟨hlt, hne, d, hnew.trans hd, fun h => (hold h).trans (hsame h), hspace⟩

/-- A thread does not depend on descriptors or entries that it has nothing to do with. -/
theorem PcOk.congr (h : s.PcOk p) (hsets : ∀ fd, p.Sets fd → s'.kernel fd = s.kernel fd)
    (hreads : ∀ fd < limit, p.Reads fd → s'.kernel fd = s.kernel fd ∧
      s'.address_space_fds fd = s.address_space_fds fd)
    (hactive : ∀ fd, p.Sets fd → (s.address_space_fds fd).active = false →
      (s'.address_space_fds fd).active = false) : s'.PcOk p := by
  have hcopied : ∀ {o n}, p.copy = some (o, n) → s'.Copied o n := by
    intro o n hp
    apply (h.of_copy hp).congr (hsets n (Pc.sets_iff.mpr (Or.inr ⟨o, hp⟩)))
    exact fun hlt => (hreads o hlt (Pc.reads_iff.mpr ⟨n, hp⟩)).1
  cases p with
  | track_fstat f =>
    obtain ⟨hlt, d, hd, hspace⟩ := h
    exact ⟨hlt, d, (hsets f rfl).trans hd, hspace⟩
  | track_clear f i => exact ⟨h.1, (hsets f rfl).trans h.2⟩
  | track_write f i => exact ⟨h.1, (hsets f rfl).trans h.2⟩
  | dup_store f e =>
    obtain ⟨hlt, d, hd, hspace⟩ := h
    exact ⟨hlt, d, (hsets f rfl).trans hd, hspace⟩
  | dup_clear o n => exact hcopied rfl
  | dup_active o n => exact ⟨hcopied rfl, hactive n rfl h.2⟩
  | dup_fstat o n => exact ⟨hcopied rfl, h.2.1, by rw [(hreads o h.2.1 rfl).2]; exact h.2.2⟩
  | dup_load o n => exact ⟨hcopied rfl, h.2.1, by rw [(hreads o h.2.1 rfl).2]; exact h.2.2⟩
  | dup_compare o n i =>
    obtain ⟨-, hlt, hactive, d, hd, hi⟩ := h
    obtain ⟨hkernel, htable⟩ := hreads o hlt rfl
    exact ⟨hcopied rfl, hlt, by rw [htable]; exact hactive, d, hkernel.trans hd, hi⟩
  | clear_range f last => exact h
  | mismatch f => exact h
  | _ => trivial

/-! ## Steps on the table -/

theorem pc_self (P : Pc → Prop) : P (update s.pc t p' t) ↔ P p' := by
  rw [update_self]

/-- The other threads stay where they are. -/
theorem pc_other (P : Pc → Prop) (hu : u ≠ t) : P (update s.pc t p' u) ↔ P (s.pc u) := by
  rw [update_of_ne hu]

/-- A step on the table: the thread has less to do afterwards, it changes only what it has to update, and what it has
done with is right. -/
theorem Inv.table_step (h : s.Inv) (hpc : s.pc t = p) {table : Table} (hupdates : ∀ fd, p'.Updates fd → p.Updates fd)
    (hsets : ∀ fd, p'.Sets fd → p.Sets fd) (hreads : ∀ fd, p'.Reads fd → p.Reads fd)
    (hkeeps : ∀ fd, p.Sets fd → p'.Updates fd → p'.Sets fd)
    (htable : ∀ fd, table fd = s.address_space_fds fd ∨
      (p.Updates fd ∧ ((table fd).active = true → p.Sets fd ∧ s.IsSpace fd)))
    (hok : PcOk { s with address_space_fds := table, pc := update s.pc t p' } p')
    (hdone : ∀ fd < limit, p.Updates fd → ¬p'.Updates fd →
      Settled { s with address_space_fds := table, pc := update s.pc t p' } fd) :
    Inv { s with address_space_fds := table, pc := update s.pc t p' } := by
  subst hpc
  have hold : ∀ {u fd}, (update s.pc t p' u).Updates fd → (s.pc u).Updates fd := by
    intro u fd hu
    by_cases hut : u = t
    · rw [hut] at hu ⊢
      exact hupdates fd ((pc_self (Pc.Updates fd)).mp hu)
    · exact (pc_other (Pc.Updates fd) hut).mp hu
  constructor
  · intro u
    by_cases hu : u = t
    · rw [hu]
      exact (pc_self _).mpr hok
    · refine (pc_other _ hu).mpr ((h.thread u).congr (fun _ _ => rfl) ?_ ?_)
      · intro fd hlt hreads
        refine ⟨rfl, (htable fd).resolve_right fun hnew => ?_⟩
        exact h.reader u t fd hlt hu hreads hnew.1
      · intro fd hsets hinactive
        rcases htable fd with heq | ⟨-, hnew⟩
        · exact (congrArg AddressSpaceFd.active heq).trans hinactive
        · by_contra hactive
          obtain ⟨hown, hspace⟩ := hnew (by simpa using hactive)
          exact h.setter t u fd (Ne.symm hu) hown hspace (Pc.updates_of_sets hsets)
  · intro u v fd huv hu hspace hv
    refine h.setter u v fd huv ?_ hspace (hold hv)
    by_cases hut : u = t
    · rw [hut] at hu ⊢
      exact hsets fd ((pc_self (Pc.Sets fd)).mp hu)
    · exact (pc_other (Pc.Sets fd) hut).mp hu
  · intro u v fd hlt huv hu hv
    refine h.reader u v fd hlt huv ?_ (hold hv)
    by_cases hut : u = t
    · rw [hut] at hu ⊢
      exact hreads fd ((pc_self (Pc.Reads fd)).mp hu)
    · exact (pc_other (Pc.Reads fd) hut).mp hu
  · intro fd hlt hnone
    have hthis : ¬p'.Updates fd := fun h' => hnone t ((pc_self (Pc.Updates fd)).mpr h')
    by_cases hwas : (s.pc t).Updates fd
    · exact hdone fd hlt hwas hthis
    · have hsettled : s.Settled fd := by
        apply h.settled fd hlt
        intro u
        by_cases hu : u = t
        · rw [hu]
          exact hwas
        · exact fun h' => hnone u ((pc_other (Pc.Updates fd) hu).mpr h')
      have heq : table fd = s.address_space_fds fd := (htable fd).resolve_right fun h' => hwas h'.1
      constructor
      · show (table fd).active = true ↔ _
        rw [heq]
        exact hsettled.active
      · intro d
        show (table fd).active = true → _ → _ = (table fd).identity
        rw [heq]
        exact hsettled.identity d
  · intro u fd hlt hu hspace
    obtain ⟨v, hv⟩ := h.pending u fd hlt (hold hu) hspace
    by_cases hvt : v = t
    · have hut : u = t := by
        by_contra hut
        rw [hvt] at hv
        exact h.setter t u fd (Ne.symm hut) hv hspace (hold hu)
      rw [hvt] at hv
      rw [hut] at hu
      exact ⟨t, (pc_self (Pc.Sets fd)).mpr (hkeeps fd hv ((pc_self (Pc.Updates fd)).mp hu))⟩
    · exact ⟨v, (pc_other (Pc.Sets fd) hvt).mpr hv⟩

/-- An entry is not cleared behind an address space. -/
theorem Inv.not_space_of_clear (h : s.Inv) (hpc : s.pc t = p) (hlt : fd < limit) (hupdates : p.Updates fd)
    (hsets : ¬p.Sets fd) : ¬s.IsSpace fd := by
  subst hpc
  intro hspace
  obtain ⟨u, hu⟩ := h.pending t fd hlt hupdates hspace
  have hut : u ≠ t := fun heq => hsets (heq ▸ hu)
  exact h.setter u t fd hut hu hspace hupdates

theorem clear_apply (table : Table) (f fd : Nat) :
    clear_address_space_fd table f fd = table fd ∨ (fd = f ∧ (clear_address_space_fd table f fd).active = false) := by
  unfold clear_address_space_fd
  by_cases hlt : f < limit
  · rw [if_pos hlt]
    by_cases hfd : fd = f
    · rw [hfd, update_self]
      exact Or.inr ⟨rfl, rfl⟩
    · rw [update_of_ne hfd]
      exact Or.inl rfl
  · rw [if_neg hlt]
    exact Or.inl rfl

theorem clear_self (table : Table) (hlt : fd < limit) : (clear_address_space_fd table fd fd).active = false := by
  rw [clear_address_space_fd, if_pos hlt, update_self]

/-- A wrapper that clears an entry it has to update. -/
theorem clear_changes {f : Nat} (hf : p.Updates f) (fd : Nat) :
    clear_address_space_fd s.address_space_fds f fd = s.address_space_fds fd ∨ (p.Updates fd ∧
      ((clear_address_space_fd s.address_space_fds f fd).active = true → p.Sets fd ∧ s.IsSpace fd)) := by
  rcases clear_apply s.address_space_fds f fd with heq | ⟨rfl, hinactive⟩
  · exact Or.inl heq
  · exact Or.inr ⟨hf, fun hactive => by rw [hinactive] at hactive; cases hactive⟩

theorem settled_of_inactive (hinactive : (s.address_space_fds fd).active = false) (hspace : ¬s.IsSpace fd) :
    s.Settled fd := by
  constructor
  · rw [hinactive]
    exact ⟨(fun h => by cases h), fun h => absurd h hspace⟩
  · intro d hactive
    rw [hinactive] at hactive
    cases hactive

theorem settled_of_active {d : Description} (hkernel : s.kernel fd = some d) (hspace : d.space = true)
    (hentry : s.address_space_fds fd = ⟨d.identity, true⟩) : s.Settled fd := by
  constructor
  · rw [hentry]
    exact ⟨fun _ => ⟨d, hkernel, hspace⟩, fun _ => rfl⟩
  · intro d' _ hd'
    rw [hentry]
    cases Option.some.inj (hkernel.symm.trans hd')
    rfl

/-- A wrapper clears an entry and is done with it. -/
theorem Inv.clear_step {f : Nat} (h : s.Inv) (hpc : s.pc t = p) (hf : p.Updates f) (hsets : ∀ fd, ¬p.Sets fd)
    (hupdates : ∀ fd, p'.Updates fd → p.Updates fd) (hdone : ∀ fd, p.Updates fd → ¬p'.Updates fd → fd = f)
    (hp' : ∀ fd, ¬p'.Sets fd ∧ ¬p'.Reads fd) (hok : ∀ s' : Shim, s'.PcOk p') :
    Inv { s with address_space_fds := clear_address_space_fd s.address_space_fds f, pc := update s.pc t p' } := by
  apply h.table_step hpc hupdates (fun fd h' => absurd h' (hp' fd).1) (fun fd h' => absurd h' (hp' fd).2)
    (fun fd h' => absurd h' (hsets fd)) (clear_changes hf) (hok _)
  intro fd hlt hwas hnot
  cases hdone fd hwas hnot
  exact settled_of_inactive (clear_self _ hlt) (h.not_space_of_clear hpc hlt hwas (hsets _))

/-- A wrapper goes on with the entries that it has in hand. -/
theorem Inv.keep_step (h : s.Inv) (hpc : s.pc t = p) {table : Table} (hupdates : ∀ fd, p'.Updates fd ↔ p.Updates fd)
    (hsets : ∀ fd, p'.Sets fd ↔ p.Sets fd) (hreads : ∀ fd, p'.Reads fd → p.Reads fd)
    (htable : ∀ fd, table fd = s.address_space_fds fd ∨
      (p.Updates fd ∧ ((table fd).active = true → p.Sets fd ∧ s.IsSpace fd)))
    (hok : PcOk { s with address_space_fds := table, pc := update s.pc t p' } p') :
    Inv { s with address_space_fds := table, pc := update s.pc t p' } := by
  apply h.table_step hpc (fun fd => (hupdates fd).mp) (fun fd => (hsets fd).mp) hreads
    (fun fd h' _ => (hsets fd).mpr h') htable hok
  intro fd _ hwas hnot
  exact absurd ((hupdates fd).mpr hwas) hnot

theorem Inv.read_step (h : s.Inv) (hpc : s.pc t = p) (hupdates : ∀ fd, p'.Updates fd ↔ p.Updates fd)
    (hsets : ∀ fd, p'.Sets fd ↔ p.Sets fd) (hreads : ∀ fd, p'.Reads fd → p.Reads fd)
    (hok : PcOk { s with pc := update s.pc t p' } p') : Inv { s with pc := update s.pc t p' } :=
  h.keep_step hpc hupdates hsets hreads (fun _ => Or.inl rfl) hok

/-- A wrapper enters an address space into the table and is over. -/
theorem Inv.set_step {d : Description} (h : s.Inv) (hpc : s.pc t = p) (hd : s.kernel fd = some d)
    (hspace : d.space = true) (hupdates : ∀ f, p.Updates f ↔ f = fd) (hsets : p.Sets fd) :
    Inv { s with
      address_space_fds := update s.address_space_fds fd ⟨d.identity, true⟩
      pc := update s.pc t .idle } := by
  apply h.table_step hpc
  · exact fun _ hf => hf.elim
  · exact fun _ hf => hf.elim
  · exact fun _ hf => hf.elim
  · exact fun _ _ hf => hf.elim
  · intro f
    by_cases hf : f = fd
    · subst hf
      exact Or.inr ⟨Pc.updates_of_sets hsets, fun _ => ⟨hsets, d, hd, hspace⟩⟩
    · exact Or.inl (update_of_ne hf _ _)
  · trivial
  · intro f _ hwas _
    cases (hupdates f).mp hwas
    exact settled_of_active hd hspace (update_self _ _ _)

/-- A wrapper that has nothing to do with the table. -/
def Detached (p : Pc) : Prop := ∀ fd, ¬p.Updates fd ∧ ¬p.Reads fd

theorem detached_idle : Detached .idle := fun _ => ⟨fun h => h, fun h => h⟩

theorem detached_connect (fd : Nat) : Detached (.connect fd) := fun _ => ⟨fun h => h, fun h => h⟩

theorem detached_closing (fd : Nat) : Detached (.closing fd) := fun _ => ⟨fun h => h, fun h => h⟩

theorem Inv.detached_step (h : s.Inv) (hpc : s.pc t = p) (hp : Detached p) (hp' : Detached p')
    (hok : ∀ s' : Shim, s'.PcOk p') : Inv { s with pc := update s.pc t p' } := by
  refine h.read_step hpc ?_ ?_ (fun fd hf => absurd hf (hp' fd).2) (hok _)
  · exact fun fd => iff_of_false (hp' fd).1 (hp fd).1
  · exact fun fd => iff_of_false (fun hf => (hp' fd).1 (Pc.updates_of_sets hf)) fun hf =>
      (hp fd).1 (Pc.updates_of_sets hf)

/-- The entries of a range are cleared from the first one on. -/
theorem Inv.resume_clear_range {last : Nat} (h : s.Inv) (hpc : s.pc t = .clear_range fd last) :
    Inv { s with
      address_space_fds := clear_address_space_fd s.address_space_fds fd
      pc := update s.pc t (if fd < last then .clear_range (fd + 1) last else .idle) } := by
  have hle : fd ≤ last := by
    have hok := h.thread t
    rwa [hpc] at hok
  have hfirst : Pc.Updates fd (.clear_range fd last) := ⟨Nat.le_refl fd, hle⟩
  by_cases hlast : fd < last
  · rw [if_pos hlast]
    apply h.clear_step hpc hfirst
    · exact fun _ hf => hf
    · exact fun f hf => ⟨Nat.le_of_succ_le hf.1, hf.2⟩
    · intro f hwas hnot
      have hwas : fd ≤ f ∧ f ≤ last := hwas
      have hnot : ¬(fd + 1 ≤ f ∧ f ≤ last) := hnot
      omega
    · exact fun _ => ⟨fun hf => hf, fun hf => hf⟩
    · exact fun _ => hlast
  · rw [if_neg hlast]
    apply h.clear_step hpc hfirst
    · exact fun _ hf => hf
    · exact fun _ hf => hf.elim
    · intro f hwas _
      have hwas : fd ≤ f ∧ f ≤ last := hwas
      omega
    · exact fun _ => ⟨fun hf => hf, fun hf => hf⟩
    · exact fun _ => trivial

/-- A copy of a descriptor without an active entry is no address space. -/
theorem Inv.not_space_of_copied (h : s.Inv) (hreads : (s.pc t).Reads oldfd) (hcopied : s.Copied oldfd newfd)
    (hactive : ¬(oldfd < limit ∧ (s.address_space_fds oldfd).active = true)) : ¬s.IsSpace newfd := by
  rintro ⟨d, hd, hspace⟩
  obtain ⟨d', hd', hold, hnone⟩ := hcopied.same
  cases Option.some.inj (hd.symm.trans hd')
  by_cases hlt : oldfd < limit
  · exact hactive ⟨hlt, (h.settled_of_reads hreads hlt).active.mpr ⟨d, hold hlt, hspace⟩⟩
  · rw [hnone hlt] at hspace
    cases hspace

theorem Inv.resume_dup_active (h : s.Inv) (hpc : s.pc t = .dup_active oldfd newfd) :
    Inv { s with
      pc := update s.pc t (if oldfd < limit ∧ (s.address_space_fds oldfd).active = true then .dup_fstat oldfd newfd
        else .idle) } := by
  have hok := h.thread t
  rw [hpc] at hok
  obtain ⟨hcopied, hinactive⟩ := hok
  by_cases hactive : oldfd < limit ∧ (s.address_space_fds oldfd).active = true
  · rw [if_pos hactive]
    refine h.read_step hpc (fun _ => Iff.rfl) (fun _ => Iff.rfl) (fun _ hf => hf) ?_
    exact ⟨hcopied.congr rfl fun _ => rfl, hactive⟩
  · rw [if_neg hactive]
    have hreads : (s.pc t).Reads oldfd := by rw [hpc]; rfl
    apply h.table_step hpc
    · exact fun _ hf => hf.elim
    · exact fun _ hf => hf.elim
    · exact fun _ hf => hf.elim
    · exact fun _ _ hf => hf.elim
    · exact fun _ => Or.inl rfl
    · trivial
    · rintro f _ rfl _
      exact settled_of_inactive hinactive (h.not_space_of_copied hreads hcopied hactive)

/-- The entry that is read is right, so the identities are the same. -/
theorem Inv.resume_dup_compare {i : Identity} (h : s.Inv) (hpc : s.pc t = .dup_compare oldfd newfd i) :
    Inv { s with
      pc := update s.pc t (if i = (s.address_space_fds oldfd).identity then .dup_load oldfd newfd
        else .mismatch oldfd) } := by
  have hok := h.thread t
  rw [hpc] at hok
  obtain ⟨hcopied, hlt, hactive, d, hd, rfl⟩ := hok
  have hreads : (s.pc t).Reads oldfd := by rw [hpc]; rfl
  rw [if_pos ((h.settled_of_reads hreads hlt).identity d hactive hd)]
  refine h.read_step hpc (fun _ => Iff.rfl) (fun _ => Iff.rfl) (fun _ hf => hf) ?_
  exact ⟨hcopied.congr rfl fun _ => rfl, hlt, hactive⟩

theorem Inv.resume_dup_load (h : s.Inv) (hpc : s.pc t = .dup_load oldfd newfd) :
    Inv { s with pc := update s.pc t (.dup_store newfd (s.address_space_fds oldfd)) } := by
  have hok := h.thread t
  rw [hpc] at hok
  obtain ⟨hcopied, hlt, hactive⟩ := hok
  have hreads : (s.pc t).Reads oldfd := by rw [hpc]; rfl
  have hsettled := h.settled_of_reads hreads hlt
  obtain ⟨d, hd, hspace⟩ := hsettled.active.mp hactive
  obtain ⟨d', hnew, hold, -⟩ := hcopied.same
  cases Option.some.inj ((hold hlt).symm.trans hd)
  have hentry : s.address_space_fds oldfd = ⟨d.identity, true⟩ := by
    rw [hsettled.identity d hactive hd, ← hactive]
  refine h.read_step hpc (fun _ => Iff.rfl) (fun _ => Iff.rfl) (fun _ hf => hf.elim) ?_
  exact ⟨hcopied.below, d, hnew, hspace, hentry⟩

/-- A further step of a wrapper that makes no system call. -/
theorem Inv.resume (h : s.Inv) {connected : Bool} {table : Table}
    (hnext : s.resume connected (s.pc t) = some (none, table, p')) :
    Inv { s with address_space_fds := table, pc := update s.pc t p' } := by
  have hok := h.thread t
  cases hpc : s.pc t with
  | idle =>
    rw [hpc] at hnext
    cases hnext
  | connect fd =>
    rw [hpc] at hnext
    cases hnext
    cases connected with
    | true => exact h.detached_step hpc (detached_connect fd) detached_idle fun _ => trivial
    | false => exact h.detached_step hpc (detached_connect fd) (detached_closing fd) fun _ => trivial
  | closing fd =>
    rw [hpc, Shim.resume] at hnext
    by_cases hnone : s.kernel fd = none
    · rw [if_pos hnone] at hnext
      cases hnext
      exact h.detached_step hpc (detached_closing fd) detached_idle fun _ => trivial
    · rw [if_neg hnone] at hnext
      cases hnext
  | clear fd =>
    rw [hpc] at hnext
    cases hnext
    apply h.clear_step hpc
    · rfl
    · exact fun _ hf => hf
    · exact fun _ hf => hf.elim
    · exact fun _ hf _ => hf
    · exact fun _ => ⟨fun hf => hf, fun hf => hf⟩
    · exact fun _ => trivial
  | clear_range fd last =>
    rw [hpc] at hnext
    cases hnext
    exact h.resume_clear_range hpc
  | track_fstat fd =>
    rw [hpc] at hnext hok
    obtain ⟨hlt, d, hd, hspace⟩ := hok
    rw [Shim.resume, hd] at hnext
    cases hnext
    refine h.read_step hpc (fun _ => Iff.rfl) (fun _ => Iff.rfl) (fun _ hf => hf.elim) ?_
    exact ⟨hlt, hd.trans (congrArg some (by rw [← hspace]))⟩
  | track_clear fd i =>
    rw [hpc] at hnext hok
    cases hnext
    exact h.keep_step hpc (fun _ => Iff.rfl) (fun _ => Iff.rfl) (fun _ hf => hf.elim) (clear_changes rfl) hok
  | track_write fd i =>
    rw [hpc] at hnext hok
    cases hnext
    exact h.set_step hpc hok.2 rfl (fun _ => Iff.rfl) rfl
  | dup_clear oldfd newfd =>
    rw [hpc] at hnext hok
    cases hnext
    refine h.keep_step hpc (fun _ => Iff.rfl) (fun _ => Iff.rfl) (fun _ hf => hf) (clear_changes rfl) ?_
    exact ⟨Copied.congr hok rfl fun _ => rfl, clear_self _ (Copied.below hok)⟩
  | dup_active oldfd newfd =>
    rw [hpc] at hnext
    cases hnext
    exact h.resume_dup_active hpc
  | dup_fstat oldfd newfd =>
    rw [hpc] at hnext hok
    obtain ⟨hcopied, hlt, hactive⟩ := hok
    obtain ⟨d, -, hd, -⟩ := hcopied.same
    rw [Shim.resume, hd hlt] at hnext
    cases hnext
    refine h.read_step hpc (fun _ => Iff.rfl) (fun _ => Iff.rfl) (fun _ hf => hf) ?_
    exact ⟨hcopied.congr rfl fun _ => rfl, hlt, hactive, d, hd hlt, rfl⟩
  | dup_compare oldfd newfd i =>
    rw [hpc] at hnext
    cases hnext
    exact h.resume_dup_compare hpc
  | mismatch f =>
    rw [hpc] at hok
    exact hok.elim
  | dup_load oldfd newfd =>
    rw [hpc] at hnext
    cases hnext
    exact h.resume_dup_load hpc
  | dup_store newfd e =>
    rw [hpc] at hnext hok
    obtain ⟨-, d, hd, hspace, rfl⟩ := hok
    cases hnext
    exact h.set_step hpc hd hspace (fun _ => Iff.rfl) rfl

/-! ## System calls -/

/-- A system call by a thread that has no entry in hand: the other threads keep the descriptors they rely on, and the
entries that the thread takes up are free for it. -/
theorem Inv.syscall_step (h : s.Inv) {k' : Kernel} (hidle : ∀ fd, ¬(s.pc t).Updates fd)
    (hothers : ∀ u, u ≠ t → ∀ fd < limit, (s.pc u).Sets fd ∨ (s.pc u).Reads fd → k' fd = s.kernel fd)
    (hok : PcOk { s with kernel := k', pc := update s.pc t p' } p')
    (hupdates : ∀ fd < limit, p'.Updates fd → ∀ u, u ≠ t → ¬(s.pc u).Reads fd)
    (hsets : ∀ u, u ≠ t → ∀ fd, (s.pc u).Sets fd → p'.Updates fd → ¬IsSpace { s with kernel := k' } fd)
    (hspace : ∀ fd, p'.Updates fd → IsSpace { s with kernel := k' } fd →
      p'.Sets fd ∧ ∀ u, u ≠ t → ¬(s.pc u).Updates fd)
    (hreads : ∀ fd < limit, p'.Reads fd → ∀ u, u ≠ t → ¬(s.pc u).Updates fd)
    (hsame : ∀ fd < limit, ¬p'.Updates fd → k' fd = s.kernel fd ∨
      (¬s.IsSpace fd ∧ ¬IsSpace { s with kernel := k' } fd)) :
    Inv { s with kernel := k', pc := update s.pc t p' } := by
  constructor
  · intro u
    by_cases hu : u = t
    · rw [hu]
      exact (pc_self _).mpr hok
    · refine (pc_other _ hu).mpr ((h.thread u).congr ?_ ?_ ?_)
      · exact fun fd hf => hothers u hu fd ((h.thread u).of_sets hf).1 (Or.inl hf)
      · exact fun fd hlt hf => ⟨hothers u hu fd hlt (Or.inr hf), rfl⟩
      · exact fun _ _ hinactive => hinactive
  · intro u v fd huv hu hsp hv
    by_cases hut : u = t
    · have hvt : v ≠ t := fun heq => huv (hut.trans heq.symm)
      rw [hut] at hu
      have hmine := Pc.updates_of_sets ((pc_self (Pc.Sets fd)).mp hu)
      exact (hspace fd hmine hsp).2 v hvt ((pc_other (Pc.Updates fd) hvt).mp hv)
    · have hu := (pc_other (Pc.Sets fd) hut).mp hu
      by_cases hvt : v = t
      · rw [hvt] at hv
        exact hsets u hut fd hu ((pc_self (Pc.Updates fd)).mp hv) hsp
      · have hlt := ((h.thread u).of_sets hu).1
        obtain ⟨d, hd, hdspace⟩ := hsp
        have hold : s.IsSpace fd := ⟨d, (hothers u hut fd hlt (Or.inl hu)).symm.trans hd, hdspace⟩
        exact h.setter u v fd huv hu hold ((pc_other (Pc.Updates fd) hvt).mp hv)
  · intro u v fd hlt huv hu hv
    by_cases hut : u = t
    · have hvt : v ≠ t := fun heq => huv (hut.trans heq.symm)
      rw [hut] at hu
      exact hreads fd hlt ((pc_self (Pc.Reads fd)).mp hu) v hvt ((pc_other (Pc.Updates fd) hvt).mp hv)
    · have hu := (pc_other (Pc.Reads fd) hut).mp hu
      by_cases hvt : v = t
      · rw [hvt] at hv
        exact hupdates fd hlt ((pc_self (Pc.Updates fd)).mp hv) u hut hu
      · exact h.reader u v fd hlt huv hu ((pc_other (Pc.Updates fd) hvt).mp hv)
  · intro fd hlt hnone
    have hthis : ¬p'.Updates fd := fun h' => hnone t ((pc_self (Pc.Updates fd)).mpr h')
    have hsettled : s.Settled fd := by
      apply h.settled fd hlt
      intro u
      by_cases hu : u = t
      · rw [hu]
        exact hidle fd
      · exact fun h' => hnone u ((pc_other (Pc.Updates fd) hu).mpr h')
    rcases hsame fd hlt hthis with heq | ⟨hold, hnew⟩
    · constructor
      · refine hsettled.active.trans ?_
        show (∃ d, s.kernel fd = some d ∧ _) ↔ ∃ d, k' fd = some d ∧ _
        rw [heq]
      · intro d hactive hd
        exact hsettled.identity d hactive (heq.symm.trans hd)
    · refine settled_of_inactive ?_ hnew
      have hinactive : ¬(s.address_space_fds fd).active = true := fun h' => hold (hsettled.active.mp h')
      exact eq_false_of_ne_true hinactive
  · intro u fd hlt hu hsp
    by_cases hmine : p'.Updates fd
    · exact ⟨t, (pc_self (Pc.Sets fd)).mpr (hspace fd hmine hsp).1⟩
    · have hut : u ≠ t := by
        intro hut
        rw [hut] at hu
        exact hmine ((pc_self (Pc.Updates fd)).mp hu)
      have hu := (pc_other (Pc.Updates fd) hut).mp hu
      have hold : s.IsSpace fd := by
        rcases hsame fd hlt hmine with heq | ⟨-, hnew⟩
        · obtain ⟨d, hd, hdspace⟩ := hsp
          exact ⟨d, heq.symm.trans hd, hdspace⟩
        · exact absurd hsp hnew
      obtain ⟨v, hv⟩ := h.pending u fd hlt hu hold
      have hvt : v ≠ t := fun heq => hidle fd (Pc.updates_of_sets (heq ▸ hv))
      exact ⟨v, (pc_other (Pc.Sets fd) hvt).mpr hv⟩

/-- A file is opened, and not tracked. -/
theorem Inv.open_untracked (h : s.Inv) (hidle : Detached (s.pc t)) (hp' : Detached p') (hok : ∀ s' : Shim, s'.PcOk p')
    (hfree : s.kernel fd = none) {d : Description} (hd : fd < limit → d.space = false) :
    Inv { s with kernel := s.kernel.run (.openat fd d), pc := update s.pc t p' } := by
  apply h.syscall_step (fun f => (hidle f).1) _ (hok _) (fun f _ hf => absurd hf (hp' f).1)
    (fun _ _ f _ hf => absurd hf (hp' f).1) (fun f hf => absurd hf (hp' f).1) (fun f _ hf => absurd hf (hp' f).2)
  · intro f hlt _
    by_cases hf : f = fd
    · refine Or.inr ⟨?_, ?_⟩
      · rintro ⟨d', hd', -⟩
        rw [hf, hfree] at hd'
        cases hd'
      · rintro ⟨d', hd', hspace⟩
        have hd' : update s.kernel fd (some d) f = some d' := hd'
        rw [hf, update_self] at hd'
        cases Option.some.inj hd'
        rw [hd (hf ▸ hlt)] at hspace
        cases hspace
    · exact Or.inl (update_of_ne hf _ _)
  · intro u _ f hlt hf
    have hne : f ≠ fd := by
      rintro rfl
      rcases hf with hf | hf
      · exact ((h.thread u).of_sets hf).2 hfree
      · exact (h.thread u).of_reads hf hlt hfree
    exact update_of_ne hne _ _

/-- An address space is opened. -/
theorem Inv.open_tracked (h : s.Inv) (hidle : Detached (s.pc t)) (hlt : fd < limit) (hfree : s.kernel fd = none)
    (i : Identity) (hin : s.Free t fd) :
    Inv { s with kernel := s.kernel.run (.openat fd ⟨i, true⟩), pc := update s.pc t (.track_fstat fd) } := by
  have hspace : IsSpace { s with kernel := s.kernel.run (.openat fd ⟨i, true⟩) } fd := ⟨_, update_self _ _ _, rfl⟩
  apply h.syscall_step (fun f => (hidle f).1)
  · intro u _ f hlt hf
    have hne : f ≠ fd := by
      rintro rfl
      rcases hf with hf | hf
      · exact ((h.thread u).of_sets hf).2 hfree
      · exact (h.thread u).of_reads hf hlt hfree
    exact update_of_ne hne _ _
  · exact ⟨hlt, hspace⟩
  · rintro f _ rfl u hu
    exact (hin u hu).2
  · rintro u hu f hf rfl
    exact absurd (Pc.updates_of_sets hf) (hin u hu).1
  · rintro f rfl _
    exact ⟨rfl, fun u hu => (hin u hu).1⟩
  · exact fun _ _ hf => hf.elim
  · intro f _ hf
    exact Or.inl (update_of_ne hf _ _)

/-- Descriptors are closed, and their entries are to be cleared. -/
theorem Inv.close_step (h : s.Inv) (hidle : Detached (s.pc t)) (D : Nat → Prop) {k' : Kernel}
    (hclosed : ∀ f, D f → k' f = none) (hkept : ∀ f, ¬D f → k' f = s.kernel f)
    (hupdates : ∀ f < limit, p'.Updates f ↔ D f) (hbelow : ∀ f, p'.Updates f → f < limit)
    (hp' : ∀ f, ¬p'.Sets f ∧ ¬p'.Reads f) (hok : ∀ s' : Shim, s'.PcOk p')
    (hin : ∀ f < limit, D f → s.kernel f ≠ none → s.Unset t f) :
    Inv { s with kernel := k', pc := update s.pc t p' } := by
  have hnot : ∀ f, p'.Updates f → ¬IsSpace { s with kernel := k' } f := by
    rintro f hf ⟨d, hd, -⟩
    have hd : k' f = some d := hd
    rw [hclosed f ((hupdates f (hbelow f hf)).mp hf)] at hd
    cases hd
  apply h.syscall_step (fun f => (hidle f).1) _ (hok _)
  · intro f hlt hf u hu hreads
    have hopen := (h.thread u).of_reads hreads hlt
    exact (hin f hlt ((hupdates f hlt).mp hf) hopen u hu).2 hreads
  · exact fun _ _ f _ hf => hnot f hf
  · exact fun f hf hspace => absurd hspace (hnot f hf)
  · exact fun f _ hf => absurd hf (hp' f).2
  · intro f hlt hf
    exact Or.inl (hkept f fun hD => hf ((hupdates f hlt).mpr hD))
  · intro u hu f hlt hf
    apply hkept
    intro hD
    rcases hf with hf | hf
    · exact (hin f hlt hD ((h.thread u).of_sets hf).2 u hu).1 hf
    · exact (hin f hlt hD ((h.thread u).of_reads hf hlt) u hu).2 hf

/-- A descriptor is duplicated to one that the table has no entry for. -/
theorem Inv.dup_untracked (h : s.Inv) (hidle : Detached (s.pc t)) (hlt : ¬newfd < limit) :
    Inv { s with kernel := s.kernel.run (.dup oldfd newfd), pc := update s.pc t .idle } := by
  have hne : ∀ f < limit, f ≠ newfd := fun f hf heq => hlt (heq ▸ hf)
  apply h.syscall_step (fun f => (hidle f).1)
  · exact fun u _ f hf _ => update_of_ne (hne f hf) _ _
  · trivial
  · exact fun _ _ hf => hf.elim
  · exact fun _ _ _ _ hf => hf.elim
  · exact fun _ hf => hf.elim
  · exact fun _ _ hf => hf.elim
  · exact fun f hf _ => Or.inl (update_of_ne (hne f hf) _ _)

theorem Inv.dup_tracked (h : s.Inv) (hidle : Detached (s.pc t)) (hlt : newfd < limit) (hne : oldfd ≠ newfd)
    (hopen : s.kernel oldfd ≠ none) (hin : s.InTime t (.dup oldfd newfd)) :
    Inv { s with kernel := s.kernel.run (.dup oldfd newfd), pc := update s.pc t (.dup_clear oldfd newfd) } := by
  obtain ⟨hspace, hunset, hold⟩ := hin
  obtain ⟨d, hd⟩ := Option.ne_none_iff_exists'.mp hopen
  have hcopy : update s.kernel newfd (s.kernel oldfd) newfd = some d := (update_self _ _ _).trans hd
  -- No other thread relies on what the descriptor was before.
  have hclear : ∀ u, u ≠ t → ¬(s.pc u).Sets newfd ∧ ¬(s.pc u).Reads newfd := by
    intro u hu
    by_cases hfree : s.kernel newfd = none
    · exact ⟨fun hf => ((h.thread u).of_sets hf).2 hfree, fun hf => (h.thread u).of_reads hf hlt hfree⟩
    · exact hunset hlt hfree u hu
  apply h.syscall_step (fun f => (hidle f).1)
  · intro u hu f _ hf
    have hfne : f ≠ newfd := by
      rintro rfl
      exact hf.elim (hclear u hu).1 (hclear u hu).2
    exact update_of_ne hfne _ _
  · refine ⟨hlt, hne, d, hcopy, fun _ => (update_of_ne hne _ _).trans hd, fun hge => ?_⟩
    by_contra hd'
    have hspace' : s.IsSpace oldfd := ⟨d, hd, by simpa using hd'⟩
    exact hge (hspace hspace' hlt).1
  · rintro f _ rfl u hu
    exact (hclear u hu).2
  · rintro u hu f hf rfl
    exact absurd hf (hclear u hu).1
  · rintro f rfl ⟨d', hd', hd'space⟩
    cases Option.some.inj (hcopy.symm.trans hd')
    have hspace' : s.IsSpace oldfd := ⟨d, hd, hd'space⟩
    exact ⟨rfl, fun u hu => ((hspace hspace' hlt).2 u hu).1⟩
  · rintro f hf rfl
    exact hold hf hlt
  · intro f _ hf
    exact Or.inl (update_of_ne hf _ _)

/-! ## A step of a thread -/

theorem Inv.close (h : s.Inv) (hidle : Detached (s.pc t)) (hopen : s.kernel fd ≠ none) (hin : s.InTime t (.close fd)) :
    Inv { s with kernel := s.kernel.run (.close fd), pc := update s.pc t (after_close fd) } := by
  have hclosed : ∀ f, f = fd → update s.kernel fd none f = none := by
    rintro f rfl
    exact update_self _ _ _
  have hkept : ∀ f, f ≠ fd → update s.kernel fd none f = s.kernel f := fun f hf => update_of_ne hf _ _
  have hin : ∀ f < limit, f = fd → s.kernel f ≠ none → s.Unset t f := by
    rintro f hlt rfl _
    exact hin hlt
  unfold after_close
  by_cases hlt : fd < limit
  · rw [if_pos hlt]
    apply h.close_step hidle (fun f => f = fd) hclosed hkept _ _ _ _ hin
    · exact fun _ _ => Iff.rfl
    · rintro f rfl
      exact hlt
    · exact fun _ => ⟨fun hf => hf, fun hf => hf⟩
    · exact fun _ => trivial
  · rw [if_neg hlt]
    apply h.close_step hidle (fun f => f = fd) hclosed hkept _ _ _ _ hin
    · intro f hf
      exact ⟨fun h' => h'.elim, fun heq => hlt (heq ▸ hf)⟩
    · exact fun _ hf => hf.elim
    · exact fun _ => ⟨fun hf => hf, fun hf => hf⟩
    · exact fun _ => trivial

theorem Inv.close_range {first last : Nat} (h : s.Inv) (hidle : Detached (s.pc t)) (hle : first ≤ last)
    (hin : s.InTime t (.close_range first last)) :
    Inv { s with
      kernel := s.kernel.run (.close_range first last)
      pc := update s.pc t (if first < limit then .clear_range first (min last (limit - 1)) else .idle) } := by
  have hclosed : ∀ f, first ≤ f ∧ f ≤ last → s.kernel.run (.close_range first last) f = none := fun f hf => if_pos hf
  have hkept : ∀ f, ¬(first ≤ f ∧ f ≤ last) → s.kernel.run (.close_range first last) f = s.kernel f :=
    fun f hf => if_neg hf
  have hin : ∀ f < limit, first ≤ f ∧ f ≤ last → s.kernel f ≠ none → s.Unset t f :=
    fun f hlt hf => hin f hlt hf.1 hf.2
  have hlimit : limit = 1024 := rfl
  by_cases hlt : first < limit
  · rw [if_pos hlt]
    apply h.close_step hidle (fun f => first ≤ f ∧ f ≤ last) hclosed hkept _ _ _ _ hin
    · intro f hf
      show first ≤ f ∧ f ≤ min last (limit - 1) ↔ first ≤ f ∧ f ≤ last
      omega
    · intro f hf
      have hf : first ≤ f ∧ f ≤ min last (limit - 1) := hf
      omega
    · exact fun _ => ⟨fun hf => hf, fun hf => hf⟩
    · intro _
      show first ≤ min last (limit - 1)
      omega
  · rw [if_neg hlt]
    apply h.close_step hidle (fun f => first ≤ f ∧ f ≤ last) hclosed hkept _ _ _ _ hin
    · intro f hf
      refine ⟨fun h' => h'.elim, fun h' => ?_⟩
      omega
    · exact fun _ hf => hf.elim
    · exact fun _ => ⟨fun hf => hf, fun hf => hf⟩
    · exact fun _ => trivial

theorem Inv.dup (h : s.Inv) (hidle : Detached (s.pc t)) (hne : oldfd ≠ newfd) (hopen : s.kernel oldfd ≠ none)
    (hin : s.InTime t (.dup oldfd newfd)) :
    Inv { s with kernel := s.kernel.run (.dup oldfd newfd), pc := update s.pc t (after_dup oldfd newfd) } := by
  unfold after_dup
  by_cases hlt : newfd < limit
  · rw [if_pos hlt]
    exact h.dup_tracked hidle hlt hne hopen hin
  · rw [if_neg hlt]
    exact h.dup_untracked hidle hlt

theorem Inv.start_dup (h : s.Inv) (hidle : Detached (s.pc t)) {least : Nat} {result : Option Nat} {sys : Syscall}
    (hnext : s.start_dup oldfd least result = some (some sys, p')) (hin : s.InTime t sys) :
    Inv { s with kernel := s.kernel.run sys, pc := update s.pc t p' } := by
  cases result with
  | none => cases hnext
  | some newfd =>
    obtain ⟨⟨hopen, -, hfree, -⟩, heq⟩ := Lib.of_guard_eq_some hnext
    obtain ⟨hsys, rfl⟩ := Prod.mk.inj heq
    cases Option.some.inj hsys
    have hne : oldfd ≠ newfd := fun h' => hopen (h' ▸ hfree)
    exact h.dup hidle hne hopen hin

/-- The first step of a wrapper, with its system call. -/
theorem Inv.start (h : s.Inv) (hidle : Detached (s.pc t)) {c : Call} {sys : Syscall}
    (hnext : s.start c = some (some sys, p')) (hin : s.InTime t sys) :
    Inv { s with kernel := s.kernel.run sys, pc := update s.pc t p' } := by
  cases c with
  | open_address_space result =>
    cases result with
    | none => cases hnext
    | some r =>
      obtain ⟨⟨-, hfree, -⟩, heq⟩ := Lib.of_guard_eq_some hnext
      obtain ⟨hsys, rfl⟩ := Prod.mk.inj heq
      cases Option.some.inj hsys
      by_cases hlt : r.1 < limit
      · rw [if_pos hlt]
        exact h.open_tracked hidle hlt hfree r.2 (hin rfl hlt)
      · rw [if_neg hlt]
        exact h.open_untracked hidle detached_idle (fun _ => trivial) hfree fun h' => absurd h' hlt
  | open_file result =>
    cases result with
    | none => cases hnext
    | some r =>
      obtain ⟨⟨-, hfree, -⟩, heq⟩ := Lib.of_guard_eq_some hnext
      obtain ⟨hsys, rfl⟩ := Prod.mk.inj heq
      cases Option.some.inj hsys
      exact h.open_untracked hidle detached_idle (fun _ => trivial) hfree fun _ => rfl
  | open_pipe result =>
    cases result with
    | none => cases hnext
    | some r =>
      obtain ⟨⟨-, hfree, -⟩, heq⟩ := Lib.of_guard_eq_some hnext
      obtain ⟨hsys, rfl⟩ := Prod.mk.inj heq
      cases Option.some.inj hsys
      exact h.open_untracked hidle (detached_connect r.1) (fun _ => trivial) hfree fun _ => rfl
  | close fd =>
    rw [Shim.start] at hnext
    by_cases hopen : s.kernel fd = none
    · rw [if_pos hopen] at hnext
      cases hnext
    · rw [if_neg hopen] at hnext
      cases hnext
      exact h.close hidle hopen hin
  | close_range first last cloexec =>
    rw [Shim.start] at hnext
    by_cases hnothing : last < first ∨ cloexec = true
    · rw [if_pos hnothing] at hnext
      cases hnext
    · rw [if_neg hnothing] at hnext
      cases hnext
      exact h.close_range hidle (Nat.le_of_not_lt fun h' => hnothing (Or.inl h')) hin
  | dup oldfd result => exact h.start_dup hidle hnext hin
  | dup2 oldfd newfd =>
    rw [Shim.start] at hnext
    by_cases hnothing : s.kernel oldfd = none ∨ oldfd = newfd
    · rw [if_pos hnothing] at hnext
      cases hnext
    · rw [if_neg hnothing] at hnext
      cases hnext
      exact h.dup hidle (fun h' => hnothing (Or.inr h')) (fun h' => hnothing (Or.inl h')) hin
  | dup3 oldfd newfd =>
    rw [Shim.start] at hnext
    by_cases hnothing : s.kernel oldfd = none ∨ oldfd = newfd
    · rw [if_pos hnothing] at hnext
      cases hnext
    · rw [if_neg hnothing] at hnext
      cases hnext
      exact h.dup hidle (fun h' => hnothing (Or.inr h')) (fun h' => hnothing (Or.inl h')) hin
  | fcntl_dupfd fd argument result => exact h.start_dup hidle hnext hin

/-- A wrapper whose system call changes nothing is over at once. -/
theorem start_dup_over {least : Nat} {result : Option Nat} (hnext : s.start_dup oldfd least result = some (none, p')) :
    p' = .idle := by
  cases result with
  | none =>
    cases hnext
    rfl
  | some newfd =>
    obtain ⟨-, heq⟩ := Lib.of_guard_eq_some hnext
    cases heq

theorem start_over {c : Call} (hnext : s.start c = some (none, p')) : p' = .idle := by
  cases c with
  | open_address_space result =>
    cases result with
    | none =>
      cases hnext
      rfl
    | some r =>
      obtain ⟨-, heq⟩ := Lib.of_guard_eq_some hnext
      cases heq
  | open_file result =>
    cases result with
    | none =>
      cases hnext
      rfl
    | some r =>
      obtain ⟨-, heq⟩ := Lib.of_guard_eq_some hnext
      cases heq
  | open_pipe result =>
    cases result with
    | none =>
      cases hnext
      rfl
    | some r =>
      obtain ⟨-, heq⟩ := Lib.of_guard_eq_some hnext
      cases heq
  | close fd =>
    rw [Shim.start] at hnext
    split at hnext <;> cases hnext
    rfl
  | close_range first last cloexec =>
    rw [Shim.start] at hnext
    split at hnext <;> cases hnext
    rfl
  | dup oldfd result => exact start_dup_over hnext
  | dup2 oldfd newfd =>
    rw [Shim.start] at hnext
    split at hnext <;> cases hnext
    rfl
  | dup3 oldfd newfd =>
    rw [Shim.start] at hnext
    split at hnext <;> cases hnext
    rfl
  | fcntl_dupfd fd argument result => exact start_dup_over hnext

/-- A wrapper makes a further system call only to close a descriptor. -/
theorem resume_syscall {connected : Bool} {sys : Syscall} {table : Table}
    (hnext : s.resume connected p = some (some sys, table, p')) :
    ∃ fd, p = .closing fd ∧ s.kernel fd ≠ none ∧ sys = .close fd ∧ table = s.address_space_fds ∧
      p' = after_close fd := by
  cases p with
  | closing fd =>
    rw [Shim.resume] at hnext
    by_cases hnone : s.kernel fd = none
    · rw [if_pos hnone] at hnext
      cases hnext
    · rw [if_neg hnone] at hnext
      cases hnext
      exact ⟨fd, rfl, hnone, rfl, rfl, rfl⟩
  | track_fstat fd =>
    rw [Shim.resume] at hnext
    split at hnext <;> cases hnext
  | dup_fstat oldfd newfd =>
    rw [Shim.resume] at hnext
    split at hnext <;> cases hnext
  | _ => cases hnext

theorem Inv.step {l : Label} (h : s.Inv) (ho : s.Orderly l) (hstep : s.step l = some s') : s'.Inv := by
  obtain ⟨⟨sys, table, p'⟩, hnext, rfl⟩ := Option.map_eq_some_iff.mp hstep
  have hin : ∀ c, sys = some c → s.InTime l.thread c := by
    rintro c rfl
    exact ho c table p' hnext
  rw [next] at hnext
  split at hnext
  case h_1 c _ =>
    -- A new call, of a thread in no wrapper.
    obtain ⟨hidle, hmap⟩ := Option.ite_none_right_eq_some.mp hnext
    obtain ⟨⟨sys, p'⟩, hstart, heq⟩ := Option.map_eq_some_iff.mp hmap
    cases heq
    have hdetached : Detached (s.pc l.thread) := by
      rw [hidle]
      exact detached_idle
    cases sys with
    | none =>
      cases start_over hstart
      exact h.detached_step hidle detached_idle detached_idle fun _ => trivial
    | some sys => exact h.start hdetached hstart (hin sys rfl)
  case h_2 connected _ =>
    cases sys with
    | none => exact h.resume hnext
    | some sys =>
      obtain ⟨fd, hpc, hopen, rfl, rfl, rfl⟩ := resume_syscall hnext
      have hdetached : Detached (s.pc l.thread) := by
        rw [hpc]
        exact detached_closing fd
      exact h.close hdetached hopen (hin _ rfl)

/-- When no wrapper is in progress, every entry is right. -/
theorem Inv.tracked (h : s.Inv) : s.Tracked := by
  intro hquiet fd hlt
  have hsettled : s.Settled fd := by
    apply h.settled fd hlt
    intro t
    rw [hquiet t]
    exact fun hf => hf
  constructor
  · intro his
    rw [is_address_space_fd, Bool.and_eq_true, Bool.and_eq_true] at his
    exact hsettled.active.mp his.1.2
  · rintro hspace
    have hactive := hsettled.active.mpr hspace
    obtain ⟨d, hd, -⟩ := hspace
    rw [is_address_space_fd, hd, hactive, decide_eq_true hlt]
    exact decide_eq_true (hsettled.identity d hactive hd)

end Shim

/-- In every run whose system calls come in time, the table tells the address spaces. -/
theorem tracked_of_orderly (inherited : Nat → Option Identity) (labels : List Label)
    (h : (shimMachine inherited).AllSteps Shim.Orderly (shimMachine inherited).init labels) :
    (shimMachine inherited).AllStates Shim.Tracked (shimMachine inherited).init labels :=
  Machine.allStates_of_allSteps (fun _ _ _ hs ho hstep => hs.step ho hstep) (fun _ hs => hs.tracked)
    (Shim.inv_init inherited) h

/-! ## One thread -/

/-- A call that duplicates only a descriptor with an entry. -/
def Call.Low : Call → Prop
  | .dup oldfd _ | .dup2 oldfd _ | .dup3 oldfd _ | .fcntl_dupfd oldfd _ _ => oldfd < limit
  | _ => True

theorem Shim.start_low {c : Call} {oldfd newfd : Nat} (hlow : c.Low)
    (hnext : s.start c = some (some (.dup oldfd newfd), p')) : oldfd < limit := by
  have hstart_dup : ∀ {f least result}, s.start_dup f least result = some (some (.dup oldfd newfd), p') →
      f = oldfd := by
    intro f least result h
    cases result with
    | none => cases h
    | some g =>
      obtain ⟨-, heq⟩ := Lib.of_guard_eq_some h
      cases heq
      rfl
  cases c with
  | open_address_space result =>
    cases result with
    | none => cases hnext
    | some r =>
      obtain ⟨-, heq⟩ := Lib.of_guard_eq_some hnext
      cases heq
  | open_file result =>
    cases result with
    | none => cases hnext
    | some r =>
      obtain ⟨-, heq⟩ := Lib.of_guard_eq_some hnext
      cases heq
  | open_pipe result =>
    cases result with
    | none => cases hnext
    | some r =>
      obtain ⟨-, heq⟩ := Lib.of_guard_eq_some hnext
      cases heq
  | close fd =>
    rw [Shim.start] at hnext
    split at hnext <;> cases hnext
  | close_range first last cloexec =>
    rw [Shim.start] at hnext
    split at hnext <;> cases hnext
  | dup f result => exact hstart_dup hnext ▸ hlow
  | dup2 f g =>
    rw [Shim.start] at hnext
    split at hnext <;> cases hnext
    exact hlow
  | dup3 f g =>
    rw [Shim.start] at hnext
    split at hnext <;> cases hnext
    exact hlow
  | fcntl_dupfd f argument result => exact hstart_dup hnext ▸ hlow

/-- A thread that is alone is in time. -/
theorem Shim.orderly_of_alone {l : Label} (halone : ∀ u, u ≠ l.thread → s.pc u = .idle)
    (hlow : ∀ c, l.act = .call c → c.Low) : s.Orderly l := by
  have hdetached : ∀ u, u ≠ l.thread → Detached (s.pc u) := by
    intro u hu
    rw [halone u hu]
    exact detached_idle
  have hfree : ∀ fd, s.Free l.thread fd := fun fd u hu => hdetached u hu fd
  have hunset : ∀ fd, s.Unset l.thread fd := by
    intro fd u hu
    exact ⟨fun hsets => (hdetached u hu fd).1 (Pc.updates_of_sets hsets), (hdetached u hu fd).2⟩
  intro sys table p' hnext
  cases sys with
  | openat fd d => exact fun _ _ => hfree fd
  | close fd => exact fun _ => hunset fd
  | close_range first last => exact fun fd _ _ _ _ => hunset fd
  | dup oldfd newfd =>
    refine ⟨fun _ _ => ⟨?_, hfree newfd⟩, fun _ _ => hunset newfd, fun _ _ u hu => (hdetached u hu oldfd).1⟩
    rw [next] at hnext
    split at hnext
    case h_1 c hact =>
      obtain ⟨-, hmap⟩ := Option.ite_none_right_eq_some.mp hnext
      obtain ⟨r, hstart, heq⟩ := Option.map_eq_some_iff.mp hmap
      obtain ⟨sys, p''⟩ := r
      cases heq
      exact start_low (hlow c hact) hstart
    case h_2 connected _ =>
      obtain ⟨fd, -, -, hsys, -⟩ := resume_syscall hnext
      cases hsys

/-- A process with one thread is orderly, unless it duplicates a descriptor that the table has no entry for. -/
theorem orderly_of_one_thread (inherited : Nat → Option Identity) (t : Nat) (labels : List Label) :
    ∀ s : Shim, (∀ u, u ≠ t → s.pc u = .idle) →
      (∀ l ∈ labels, l.thread = t ∧ ∀ c, l.act = .call c → c.Low) →
      (shimMachine inherited).AllSteps Shim.Orderly s labels := by
  induction labels with
  | nil => exact fun _ _ _ => trivial
  | cons l labels ih =>
    intro s halone hlabels
    obtain ⟨rfl, hlow⟩ := hlabels l List.mem_cons_self
    refine ⟨Shim.orderly_of_alone halone hlow, fun s' hstep => ?_⟩
    apply ih s' _ fun l' h' => hlabels l' (List.mem_cons_of_mem _ h')
    intro u hu
    obtain ⟨r, -, rfl⟩ := Option.map_eq_some_iff.mp hstep
    exact (update_of_ne hu _ _).trans (halone u hu)

/-- A thread opens the address space, duplicates it and closes the first descriptor. -/
theorem tracked_of_duplicate :
    (shimMachine fun _ => none).AllStates Shim.Tracked (shimMachine fun _ => none).init
      [⟨0, .call (.open_address_space (some (0, (5, 6))))⟩, ⟨0, .resume true⟩, ⟨0, .resume true⟩, ⟨0, .resume true⟩,
        ⟨0, .call (.dup 0 (some 1))⟩, ⟨0, .resume true⟩, ⟨0, .resume true⟩, ⟨0, .resume true⟩, ⟨0, .resume true⟩,
        ⟨0, .resume true⟩, ⟨0, .resume true⟩, ⟨0, .call (.close 0)⟩, ⟨0, .resume true⟩] := by
  apply tracked_of_orderly
  apply orderly_of_one_thread _ 0 _ _ fun _ _ => rfl
  intro l hl
  fin_cases hl <;> refine ⟨rfl, fun c hc => ?_⟩ <;> cases hc
  · trivial
  · show 0 < 1024
    decide
  · trivial

/-- One thread closes an address space. Before it clears the entry, another one opens an address space and is given
the same descriptor. -/
theorem not_always_tracked : ¬∀ inherited labels,
    (shimMachine inherited).AllStates Shim.Tracked (shimMachine inherited).init labels := by
  intro h
  obtain ⟨s, hs⟩ : ∃ s, (shimMachine fun _ => none).exec (shimMachine fun _ => none).init
      [⟨0, .call (.open_address_space (some (0, (5, 6))))⟩, ⟨0, .resume true⟩, ⟨0, .resume true⟩, ⟨0, .resume true⟩,
        ⟨0, .call (.close 0)⟩, ⟨1, .call (.open_address_space (some (0, (5, 6))))⟩, ⟨1, .resume true⟩,
        ⟨1, .resume true⟩, ⟨1, .resume true⟩, ⟨0, .resume true⟩] = some s := ⟨_, rfl⟩
  have htracked := (h _ _).last hs
  cases hs
  refine absurd ((htracked ?_ 0 (by decide)).mpr ⟨_, rfl, rfl⟩) (fun his => by cases his)
  intro t
  rcases t with _ | _ | t <;> rfl

end AnboxReboxed.PipeCompat
