import AnboxReboxed.Container.MemoryConfiguration
import AnboxReboxed.Container.Proofs.MemorySizeProofs
import AnboxReboxed.Lib.Fallible
import Mathlib.Data.List.DropRight

/-!
# Proofs: the memory configuration

The entries of the file are the last values of its lines, and each field of the configuration comes from the entry with
its key. So the configuration depends on the last values only, and what its checks leave out can be said of these.
-/

namespace AnboxReboxed.Container

open AnboxReboxed.Lib
open AnboxReboxed.Lib.Scanf (isSpace)

/-! ## White space -/

theorem trim_eq (text : Text) : trim text = (text.dropWhile isSpace).rdropWhile isSpace := rfl

theorem dropWhile_append_cons {c : UInt8} (hc : isSpace c = false) (before after : Text) :
    (before ++ c :: after).dropWhile isSpace = before.dropWhile isSpace ++ c :: after := by
  rw [List.dropWhile_append, List.dropWhile_cons_of_neg (by rw [hc]; exact Bool.false_ne_true)]
  split
  · rename_i hempty
    rw [List.isEmpty_iff.1 hempty, List.nil_append]
  · rfl

theorem rdropWhile_append_cons {c : UInt8} (hc : isSpace c = false) (before after : Text) :
    (before ++ c :: after).rdropWhile isSpace = before ++ c :: after.rdropWhile isSpace := by
  unfold List.rdropWhile
  rw [List.reverse_append, List.reverse_cons, List.append_assoc, List.singleton_append, dropWhile_append_cons hc,
    List.reverse_append, List.reverse_cons, List.reverse_reverse, List.append_assoc, List.singleton_append]

/-- A line is trimmed in front of a character that is no white space, and behind it. -/
theorem trim_append_cons {c : UInt8} (hc : isSpace c = false) (before after : Text) :
    trim (before ++ c :: after) = before.dropWhile isSpace ++ c :: after.rdropWhile isSpace := by
  rw [trim_eq, dropWhile_append_cons hc, rdropWhile_append_cons hc]

theorem trim_dropWhile (text : Text) : trim (text.dropWhile isSpace) = trim text := by
  rw [trim_eq, List.dropWhile_idempotent, trim_eq]

theorem trim_rdropWhile (text : Text) : trim (text.rdropWhile isSpace) = trim text := by
  rcases Delimited.none_or_first (p := fun c => !isSpace c) text with hnone | ⟨before, c, after, rfl, hc, -⟩
  · have hspaces : ∀ c ∈ text, isSpace c = true := fun c hc => by simpa using hnone c hc
    rw [List.rdropWhile_eq_nil_iff.2 hspaces, trim_eq text, List.dropWhile_eq_nil_iff.2 hspaces]
    rfl
  · have hstays : isSpace c = false := by simpa using hc
    rw [rdropWhile_append_cons hstays, trim_append_cons hstays, trim_append_cons hstays, List.rdropWhile_idempotent]

theorem trim_subset (text : Text) : ∀ c ∈ trim text, c ∈ text := fun _ hc =>
  (List.dropWhile_suffix _).subset ((List.rdropWhile_prefix _ _).subset hc)

/-- What is left begins as the text does behind its white space. -/
theorem head?_trim {text : Text} (h : trim text ≠ []) : (trim text).head? = (text.dropWhile isSpace).head? := by
  obtain ⟨spaces, hspaces⟩ := List.rdropWhile_prefix isSpace (text.dropWhile isSpace)
  rw [← hspaces, ← trim_eq, List.head?_append_of_ne_nil _ h]

/-! ## The lines -/

theorem isSpace_equals : isSpace equals = false := rfl

/-- The first `=` says what a line assigns. -/
theorem Assigns.of_cut {before after key value : Text} (h : Assigns (before ++ equals :: after) key value)
    (hcut : equals ∉ before) :
    key = trim before ∧ value = trim after ∧ trim before ≠ [] ∧ ¬IsComment (trim before) := by
  generalize hline : before ++ equals :: after = line at h
  cases h with
  | intro hcut' hkey hcomment =>
    obtain ⟨rfl, rfl⟩ := Delimited.cut_inj hcut hcut' hline
    exact ⟨rfl, rfl, hkey, hcomment⟩

theorem Assigns.mem {line key value : Text} (h : Assigns line key value) : equals ∈ line := by
  cases h with
  | intro => exact List.mem_append_right _ List.mem_cons_self

theorem Assigns.unique {line key key' value value' : Text} (h : Assigns line key value)
    (h' : Assigns line key' value') :
    key' = key ∧ value' = value := by
  cases h with
  | intro hcut _ _ =>
    obtain ⟨hkey, hvalue, -⟩ := h'.of_cut hcut
    exact ⟨hkey, hvalue⟩

theorem isComment_line {before : Text} (hkey : trim before ≠ []) (rest : Text) :
    IsComment (before.dropWhile isSpace ++ rest) ↔ IsComment (trim before) := by
  have hne : before.dropWhile isSpace ≠ [] := by
    intro hnil
    rw [trim_eq, hnil] at hkey
    exact hkey rfl
  unfold IsComment
  rw [head?_trim hkey, List.head?_append_of_ne_nil _ hne]

/-- A line that is read assigns a value, which is put into the result, or it changes nothing. -/
theorem read_line_ok {path line : Text} {n : Nat} {result result' : Entries}
    (h : read_line path n result line = .ok result') :
    (∃ key value, Assigns line key value ∧ result' = result.put key value) ∨
      (∀ key value, ¬Assigns line key value) ∧ result' = result := by
  by_cases hmem : equals ∈ line
  · obtain ⟨before, after, rfl, hcut⟩ := List.eq_append_cons_of_mem hmem
    have hfront : ∀ c ∈ before.dropWhile isSpace, decide (c ≠ equals) = true := fun c hc =>
      decide_eq_true (ne_of_mem_of_not_mem ((List.dropWhile_suffix _).subset hc) hcut)
    have htake : (before.dropWhile isSpace ++ equals :: after.rdropWhile isSpace).takeWhile (· ≠ equals)
        = before.dropWhile isSpace := by
      rw [List.takeWhile_append_of_pos hfront, List.takeWhile_cons_of_neg (by decide), List.append_nil]
    have hdrop : (before.dropWhile isSpace ++ equals :: after.rdropWhile isSpace).dropWhile (· ≠ equals)
        = equals :: after.rdropWhile isSpace := by
      rw [List.dropWhile_append_of_pos hfront, List.dropWhile_cons_of_neg (by decide)]
    unfold read_line at h
    dsimp only at h
    rw [trim_append_cons isSpace_equals, htake, hdrop, trim_dropWhile, List.drop_one, List.tail_cons,
      trim_rdropWhile] at h
    split_ifs at h with hskip hnone hkey
    · refine Or.inr ⟨fun key value hassigns => ?_, (Except.ok.inj h).symm⟩
      obtain ⟨-, -, hkey, hcomment⟩ := hassigns.of_cut hcut
      rcases hskip with hnil | hskip
      · exact absurd hnil (List.append_ne_nil_of_right_ne_nil _ (List.cons_ne_nil _ _))
      · exact hcomment ((isComment_line hkey _).1 hskip)
    · refine Or.inl ⟨trim before, trim after, .intro hcut hkey fun hcomment => hskip (Or.inr ?_),
        (Except.ok.inj h).symm⟩
      exact (isComment_line hkey _).2 hcomment
  · refine Or.inr ⟨fun key value hassigns => hmem hassigns.mem, ?_⟩
    have hnone : equals ∉ trim line := fun hin => hmem (trim_subset _ _ hin)
    unfold read_line at h
    dsimp only at h
    rw [if_pos hnone] at h
    split_ifs at h
    exact (Except.ok.inj h).symm

/-! ## Last values -/

theorem lastValue_nil {key value : Text} : ¬LastValue [] key value := by
  rintro ⟨before, line, after, hlines, -⟩
  exact absurd hlines.symm (List.append_ne_nil_of_right_ne_nil _ (List.cons_ne_nil _ _))

/-- The last line counts, if it is one for the key. -/
theorem lastValue_concat {lines : List Text} {line key value : Text} :
    LastValue (lines ++ [line]) key value ↔
      Assigns line key value ∨ (∀ other, ¬Assigns line key other) ∧ LastValue lines key value := by
  constructor
  · rintro ⟨before, found, after, hlines, hfound, hafter⟩
    rcases List.eq_nil_or_concat' after with rfl | ⟨init, last, rfl⟩
    · obtain ⟨-, rfl⟩ := List.append_singleton_inj.1 hlines
      exact Or.inl hfound
    · rw [← List.cons_append, ← List.append_assoc] at hlines
      obtain ⟨rfl, rfl⟩ := List.append_singleton_inj.1 hlines
      exact Or.inr ⟨hafter _ (by simp), before, found, init, rfl, hfound,
        fun later hlater => hafter later (by simp [hlater])⟩
  · rintro (hline | ⟨hline, before, found, after, rfl, hfound, hafter⟩)
    · exact ⟨lines, line, [], rfl, hline, fun _ hlater => absurd hlater List.not_mem_nil⟩
    · refine ⟨before, found, after ++ [line], by simp, hfound, fun later hlater => ?_⟩
      rcases List.mem_append.1 hlater with hlater | hlater
      · exact hafter later hlater
      · rw [List.mem_singleton.1 hlater]
        exact hline

theorem LastValue.unique {lines : List Text} {key v w : Text} (hv : LastValue lines key v)
    (hw : LastValue lines key w) :
    v = w := by
  induction lines using List.reverseRecOn with
  | nil => exact absurd hv lastValue_nil
  | append_singleton lines line ih =>
    rcases lastValue_concat.1 hv with hv | ⟨hnone, hv⟩ <;> rcases lastValue_concat.1 hw with hw | ⟨hnone', hw⟩
    · exact (hw.unique hv).2
    · exact absurd hv (hnone' v)
    · exact absurd hw (hnone w)
    · exact ih hv hw

/-! ## The entries -/

theorem mem_put {entries : Entries} {key value k v : Text} :
    (k, v) ∈ entries.put key value ↔ k = key ∧ v = value ∨ k ≠ key ∧ (k, v) ∈ entries := by
  unfold Entries.put
  simp only [List.mem_append, List.mem_filter, List.mem_singleton, Prod.mk.injEq, decide_eq_true_eq]
  tauto

theorem read_lines_ok {path : Text} {lines : List Text} {n : Nat} {result result' : Entries} {read : List Text}
    (hresult : ∀ key value, (key, value) ∈ result ↔ LastValue read key value)
    (h : read_lines path n result lines = .ok result') :
    ∀ key value, (key, value) ∈ result' ↔ LastValue (read ++ lines) key value := by
  induction lines generalizing n result read with
  | nil =>
    cases h
    rwa [List.append_nil]
  | cons line lines ih =>
    obtain ⟨next, hline, hlines⟩ := of_bind_eq_ok h
    rw [List.append_cons]
    refine ih (fun key value => ?_) hlines
    rw [lastValue_concat]
    rcases read_line_ok hline with ⟨k, v, hassigns, rfl⟩ | ⟨hnone, rfl⟩
    · rw [mem_put, hresult]
      constructor
      · rintro (⟨rfl, rfl⟩ | ⟨hne, hlast⟩)
        · exact Or.inl hassigns
        · exact Or.inr ⟨fun other hother => hne (hassigns.unique hother).1, hlast⟩
      · rintro (hline | ⟨hother, hlast⟩)
        · exact Or.inl (hassigns.unique hline)
        · exact Or.inr ⟨fun hkey => hother v (hkey ▸ hassigns), hlast⟩
    · rw [hresult]
      exact ⟨fun hlast => Or.inr ⟨hnone key, hlast⟩, fun hlast => (hlast.resolve_left (hnone key value)).2⟩

/-! ## The handlers -/

/-- A field is what `parse` makes of the value of this key, and no other key changes it. -/
structure Handled {α : Type} (field : Configuration → α) (key : Text) (parse : Text → Except Text α) : Prop where
  source (selected : Text) : field { source := selected } = field {}
  sets {selected v : Text} {c c' : Configuration} (h : c.handle selected (key, v) = .ok c') : parse v = .ok (field c')
  keeps {selected k v : Text} {c c' : Configuration} (hne : k ≠ key) (h : c.handle selected (k, v) = .ok c') :
    field c' = field c

theorem handle_known {selected key v : Text} {c c' : Configuration} (h : c.handle selected (key, v) = .ok c') :
    ∃ handler, (key, handler) ∈ Configuration.handlers ∧ handler c v = .ok c' := by
  unfold Configuration.handle at h
  cases hlookup : Configuration.handlers.lookup key with
  | none => simp [hlookup] at h
  | some handler =>
    obtain ⟨before, after, hhandlers, -⟩ := List.lookup_eq_some_iff.1 hlookup
    refine ⟨handler, hhandlers ▸ List.mem_append_right _ List.mem_cons_self, ?_⟩
    simpa only [hlookup] using h

/-- What an entry can do. -/
theorem handle_cases {selected key v : Text} {c c' : Configuration} (h : c.handle selected (key, v) = .ok c') :
    (key = .of "android.memory.high" ∧ ∃ t, normalize_limit v = .ok t ∧ c' = { c with memory_high := t }) ∨
    (key = .of "android.memory.max" ∧ ∃ t, normalize_limit v = .ok t ∧ c' = { c with memory_max := t }) ∨
    (key = .of "android.memory.swap.max" ∧ ∃ t, normalize_limit v = .ok t ∧ c' = { c with memory_swap_max := t }) ∨
    (key = .of "android.swap.enabled" ∧ ∃ b, parse_bool v = .ok b ∧ c' = { c with swap_enabled := b }) ∨
    (key = .of "android.swap.file" ∧ c' = { c with swap_file := v }) ∨
    (key = .of "android.swap.file_size" ∧
      ∃ r, parse_size v false = .ok r ∧ c' = { c with swap_file_size := r.value }) := by
  obtain ⟨handler, hmem, hhandler⟩ := handle_known h
  simp only [Configuration.handlers, List.mem_cons, List.not_mem_nil, or_false, Prod.mk.injEq] at hmem
  rcases hmem with ⟨rfl, rfl⟩ | ⟨rfl, rfl⟩ | ⟨rfl, rfl⟩ | ⟨rfl, rfl⟩ | ⟨rfl, rfl⟩ | ⟨rfl, rfl⟩
  · obtain ⟨t, ht, hc⟩ := of_bind_eq_ok hhandler
    exact Or.inl ⟨rfl, t, ht, (Except.ok.inj hc).symm⟩
  · obtain ⟨t, ht, hc⟩ := of_bind_eq_ok hhandler
    exact Or.inr (Or.inl ⟨rfl, t, ht, (Except.ok.inj hc).symm⟩)
  · obtain ⟨t, ht, hc⟩ := of_bind_eq_ok hhandler
    exact Or.inr (Or.inr (Or.inl ⟨rfl, t, ht, (Except.ok.inj hc).symm⟩))
  · obtain ⟨b, hb, hc⟩ := of_bind_eq_ok hhandler
    exact Or.inr (Or.inr (Or.inr (Or.inl ⟨rfl, b, hb, (Except.ok.inj hc).symm⟩)))
  · exact Or.inr (Or.inr (Or.inr (Or.inr (Or.inl ⟨rfl, (Except.ok.inj hhandler).symm⟩))))
  · obtain ⟨r, hr, hc⟩ := of_bind_eq_ok hhandler
    exact Or.inr (Or.inr (Or.inr (Or.inr (Or.inr ⟨rfl, r, hr, (Except.ok.inj hc).symm⟩))))

theorem handled_memory_high : Handled Configuration.memory_high (.of "android.memory.high") normalize_limit where
  source _ := rfl
  sets h := by
    obtain ⟨t, ht, hc⟩ := of_bind_eq_ok h
    rw [ht, ← Except.ok.inj hc]
  keeps hne h := by
    rcases handle_cases h with ⟨hkey, -⟩ | ⟨-, t, -, rfl⟩ | ⟨-, t, -, rfl⟩ | ⟨-, b, -, rfl⟩ | ⟨-, rfl⟩ | ⟨-, r, -, rfl⟩
    exacts [absurd hkey hne, rfl, rfl, rfl, rfl, rfl]

theorem handled_memory_max : Handled Configuration.memory_max (.of "android.memory.max") normalize_limit where
  source _ := rfl
  sets h := by
    obtain ⟨t, ht, hc⟩ := of_bind_eq_ok h
    rw [ht, ← Except.ok.inj hc]
  keeps hne h := by
    rcases handle_cases h with ⟨-, t, -, rfl⟩ | ⟨hkey, -⟩ | ⟨-, t, -, rfl⟩ | ⟨-, b, -, rfl⟩ | ⟨-, rfl⟩ | ⟨-, r, -, rfl⟩
    exacts [rfl, absurd hkey hne, rfl, rfl, rfl, rfl]

theorem handled_memory_swap_max :
    Handled Configuration.memory_swap_max (.of "android.memory.swap.max") normalize_limit where
  source _ := rfl
  sets h := by
    obtain ⟨t, ht, hc⟩ := of_bind_eq_ok h
    rw [ht, ← Except.ok.inj hc]
  keeps hne h := by
    rcases handle_cases h with ⟨-, t, -, rfl⟩ | ⟨-, t, -, rfl⟩ | ⟨hkey, -⟩ | ⟨-, b, -, rfl⟩ | ⟨-, rfl⟩ | ⟨-, r, -, rfl⟩
    exacts [rfl, rfl, absurd hkey hne, rfl, rfl, rfl]

theorem handled_swap_enabled : Handled Configuration.swap_enabled (.of "android.swap.enabled") parse_bool where
  source _ := rfl
  sets h := by
    obtain ⟨b, hb, hc⟩ := of_bind_eq_ok h
    rw [hb, ← Except.ok.inj hc]
  keeps hne h := by
    rcases handle_cases h with ⟨-, t, -, rfl⟩ | ⟨-, t, -, rfl⟩ | ⟨-, t, -, rfl⟩ | ⟨hkey, -⟩ | ⟨-, rfl⟩ | ⟨-, r, -, rfl⟩
    exacts [rfl, rfl, rfl, absurd hkey hne, rfl, rfl]

theorem handled_swap_file : Handled Configuration.swap_file (.of "android.swap.file") Except.ok where
  source _ := rfl
  sets h := by rw [← Except.ok.inj h]
  keeps hne h := by
    rcases handle_cases h with
      ⟨-, t, -, rfl⟩ | ⟨-, t, -, rfl⟩ | ⟨-, t, -, rfl⟩ | ⟨-, b, -, rfl⟩ | ⟨hkey, -⟩ | ⟨-, r, -, rfl⟩
    exacts [rfl, rfl, rfl, rfl, absurd hkey hne, rfl]

theorem handled_swap_file_size :
    Handled Configuration.swap_file_size (.of "android.swap.file_size")
      fun v => (parse_size v false).map SizeValue.value where
  source _ := rfl
  sets h := by
    obtain ⟨r, hr, hc⟩ := of_bind_eq_ok h
    rw [hr, ← Except.ok.inj hc]
    rfl
  keeps hne h := by
    rcases handle_cases h with ⟨-, t, -, rfl⟩ | ⟨-, t, -, rfl⟩ | ⟨-, t, -, rfl⟩ | ⟨-, b, -, rfl⟩ | ⟨-, rfl⟩ | ⟨hkey, -⟩
    exacts [rfl, rfl, rfl, rfl, rfl, absurd hkey hne]

section Handled

variable {α : Type} {field : Configuration → α} {key : Text} {parse : Text → Except Text α}

/-- The entry of the key decides on the field. -/
theorem Handled.foldlM_ok (hf : Handled field key parse) {selected : Text} {entries : Entries} {c c' : Configuration}
    (h : entries.foldlM (Configuration.handle selected) c = .ok c') :
    (∀ v, (∀ w, (key, w) ∈ entries → w = v) → (key, v) ∈ entries → parse v = .ok (field c')) ∧
      ((∀ v, (key, v) ∉ entries) → field c' = field c) := by
  induction entries generalizing c with
  | nil =>
    cases h
    exact ⟨fun _ _ hmem => absurd hmem List.not_mem_nil, fun _ => rfl⟩
  | cons entry entries ih =>
    obtain ⟨k, w⟩ := entry
    rw [List.foldlM_cons] at h
    obtain ⟨next, hentry, hentries⟩ := of_bind_eq_ok h
    obtain ⟨hset, hkept⟩ := ih hentries
    constructor
    · intro v honly hmem
      by_cases htail : (key, v) ∈ entries
      · exact hset v (fun w hw => honly w (List.mem_cons_of_mem _ hw)) htail
      · obtain ⟨rfl, rfl⟩ := Prod.mk.inj ((List.mem_cons.1 hmem).resolve_right htail)
        rw [hf.sets hentry, hkept fun w hw => htail (honly w (List.mem_cons_of_mem _ hw) ▸ hw)]
    · intro hnone
      rw [hkept fun v hv => hnone v (List.mem_cons_of_mem _ hv)]
      exact hf.keeps (fun hkey => hnone w (hkey ▸ List.mem_cons_self)) hentry

end Handled

theorem check_ok {c c' : Configuration} (h : c.check = .ok c') : c' = c := by
  unfold Configuration.check at h
  split_ifs at h
  · cases hhigh : stoull c.memory_high with
    | none => simp [hhigh] at h
    | some high =>
      cases hmax : stoull c.memory_max with
      | none => simp [hhigh, hmax] at h
      | some max =>
        simp only [hhigh, hmax] at h
        split_ifs at h
        exact (Except.ok.inj h).symm
  · exact (Except.ok.inj h).symm

/-- A loaded configuration has passed its checks. -/
theorem check_loaded {host : MemoryHost} {c : Configuration} (h : load_configuration host = .ok c) :
    c.check = .ok c := by
  unfold load_configuration at h
  cases hselected : host.selected with
  | none =>
    rw [hselected] at h
    cases h
    decide
  | some selected =>
    rw [hselected] at h
    obtain ⟨values, -, h⟩ := of_bind_eq_ok h
    obtain ⟨configuration, -, hcheck⟩ := of_bind_eq_ok h
    rw [check_ok hcheck]
    rwa [check_ok hcheck] at hcheck

/-- Each field of a loaded configuration comes from the last value of its key. -/
theorem Handled.load {α : Type} {field : Configuration → α} {key : Text} {parse : Text → Except Text α}
    (hf : Handled field key parse) {host : MemoryHost} {c : Configuration} (h : load_configuration host = .ok c) :
    (∀ v, LastValue host.lines key v → parse v = .ok (field c)) ∧
      ((∀ v, ¬LastValue host.lines key v) → field c = field {}) := by
  unfold load_configuration at h
  cases hselected : host.selected with
  | none =>
    rw [hselected] at h
    cases h
    unfold MemoryHost.lines
    rw [hselected]
    exact ⟨fun v hv => absurd hv lastValue_nil, fun _ => rfl⟩
  | some selected =>
    rw [hselected] at h
    obtain ⟨values, hread, h⟩ := of_bind_eq_ok h
    obtain ⟨configuration, hfold, hcheck⟩ := of_bind_eq_ok h
    obtain rfl := check_ok hcheck
    have hvalues : ∀ k v, (k, v) ∈ values.sorted ↔ LastValue host.lines k v := by
      intro k v
      rw [Entries.sorted, (List.perm_insertionSort _ _).mem_iff]
      unfold read_config_file at hread
      unfold MemoryHost.lines
      rw [hselected, Option.map_some]
      cases hopen : host.openFile selected with
      | error e => simp [hopen] at hread
      | ok content =>
        rw [hopen] at hread
        have hempty : ∀ k v, (k, v) ∈ ([] : Entries) ↔ LastValue [] k v := fun k v =>
          iff_of_false List.not_mem_nil lastValue_nil
        exact read_lines_ok hempty hread k v
    obtain ⟨hset, hkept⟩ := hf.foldlM_ok hfold
    constructor
    · intro v hv
      exact hset v (fun w hw => ((hvalues key w).1 hw).unique hv) ((hvalues key v).2 hv)
    · intro hnone
      rw [hkept fun v hv => hnone v ((hvalues key v).1 hv), hf.source]

/-! ## The limits -/

theorem to_string_ne_nil (n : Nat) : to_string n ≠ [] := by
  obtain ⟨c, rest, hcons, -⟩ := IsDecimal_head (Scanf.isDecimal_toString (n : Int))
  exact fun hnil => List.cons_ne_nil c rest (hcons.symm.trans hnil)

theorem to_string_ne_max (n : Nat) : to_string n ≠ .of "max" := by
  intro hmax
  have hdigit := isDigit_to_string n 109 (by rw [hmax]; decide)
  exact absurd hdigit (by decide)

theorem numeral_to_string (n : Nat) : Scanf.numeral (to_string n) = n := by
  have hdigits : ∀ c ∈ (toString n).toList, c.isDigit = true := by
    rw [Nat.toString_eq_repr, Nat.toList_repr]
    exact fun c hc => Nat.isDigit_of_mem_toDigits (by decide) (by decide) hc
  rw [to_string, Scanf.numeral_bytes hdigits, Nat.toString_eq_repr, Nat.toList_repr,
    Nat.ofDigitChars_toDigits (by decide) (by decide)]

theorem stoull_to_string {n : Nat} (hn : n < 2 ^ 64) : stoull (to_string n) = some (n, []) := by
  have happend : stoull (to_string n ++ []) = some (((n : Int) % 2 ^ 64).toNat, []) :=
    stoull_append (m := 1) (Scanf.isDecimal_toString (n : Int)) (by decide) (by simpa using hn)
  rwa [List.append_nil, natCast_emod hn] at happend

theorem limit_max : limit (.of "max") = ⊤ := if_pos rfl

theorem limit_to_string (n : Nat) : limit (to_string n) = n := by
  rw [limit, if_neg (to_string_ne_max n), numeral_to_string]

/-- A normalized limit is `max` or a number, and which one can be told from the value. -/
theorem normalize_limit_cases {v t : Text} (h : normalize_limit v = .ok t) :
    lower (trim v) = .of "max" ∧ t = .of "max" ∨ lower (trim v) ≠ .of "max" ∧ ∃ n < 2 ^ 64, t = to_string n := by
  obtain ⟨r, hparse, rfl⟩ := normalize_limit_ok_iff.1 h
  have hread := (parse_size_ok_iff _ _ _).1 hparse
  cases r with
  | max =>
    generalize lower (trim v) = value at hread
    cases hread with
    | max => exact Or.inl ⟨rfl, rfl⟩
  | bytes n =>
    refine Or.inr ⟨?_, n, parse_size_range hparse, rfl⟩
    generalize lower (trim v) = value at hread
    cases hread with
    | bytes ht => exact append_ne_max ht _

theorem normalize_limit_ne_nil {v t : Text} (h : normalize_limit v = .ok t) : t ≠ [] := by
  rcases normalize_limit_cases h with ⟨-, rfl⟩ | ⟨-, n, -, rfl⟩
  · decide
  · exact to_string_ne_nil n

/-- What the checks say about a configuration. -/
theorem check_spec {c : Configuration} (h : c.check = .ok c) :
    (c.swap_file = [] ∨ c.swap_file.head? = some 47) ∧ (c.swap_enabled = true → 0 < c.swap_file_size) ∧
      ∀ n m, n < 2 ^ 64 → m < 2 ^ 64 → c.memory_high = to_string n → c.memory_max = to_string m → n ≤ m := by
  unfold Configuration.check at h
  split_ifs at h with hswap hsize hnumbers
  all_goals
    have habsolute : c.swap_file = [] ∨ c.swap_file.head? = some 47 := by tauto
    have hpositive : c.swap_enabled = true → 0 < c.swap_file_size := fun henabled =>
      Nat.pos_of_ne_zero fun hzero => hsize ⟨henabled, hzero⟩
    refine ⟨habsolute, hpositive, fun n m hn hm hhigh hmax => ?_⟩
  · rw [hhigh, hmax, stoull_to_string hn, stoull_to_string hm] at h
    dsimp only at h
    split_ifs at h with hexceeds
    exact Nat.le_of_not_lt hexceeds
  · rw [hhigh, hmax] at hnumbers
    exact absurd ⟨to_string_ne_nil n, to_string_ne_nil m, to_string_ne_max n, to_string_ne_max m⟩ hnumbers

/-! ## What a configuration depends on -/

theorem Handled.agree {α : Type} {field : Configuration → α} {key : Text} {parse : Text → Except Text α}
    (hf : Handled field key parse) {host other : MemoryHost} {c c' : Configuration}
    (h : load_configuration host = .ok c) (h' : load_configuration other = .ok c')
    (hsame : ∀ v, LastValue other.lines key v ↔ LastValue host.lines key v) : field c' = field c := by
  by_cases hlast : ∃ v, LastValue host.lines key v
  · obtain ⟨v, hv⟩ := hlast
    exact Except.ok.inj (((hf.load h').1 v ((hsame v).2 hv)).symm.trans ((hf.load h).1 v hv))
  · have hnone : ∀ v, ¬LastValue host.lines key v := fun v hv => hlast ⟨v, hv⟩
    rw [(hf.load h).2 hnone, (hf.load h').2 fun v hv => hnone v ((hsame v).1 hv)]

theorem dependsOnLast {host : MemoryHost} {c : Configuration} (h : load_configuration host = .ok c) :
    host.DependsOnLast c := by
  intro other c' hsame h'
  have hhigh := handled_memory_high.agree h h' (hsame _ (by decide +kernel))
  have hmax := handled_memory_max.agree h h' (hsame _ (by decide +kernel))
  have hswap_max := handled_memory_swap_max.agree h h' (hsame _ (by decide +kernel))
  have henabled := handled_swap_enabled.agree h h' (hsame _ (by decide +kernel))
  have hfile := handled_swap_file.agree h h' (hsame _ (by decide +kernel))
  have hsize := handled_swap_file_size.agree h h' (hsame _ (by decide +kernel))
  rw [hhigh, hmax, hswap_max, henabled, hfile, hsize]

/-! ## The limits of LXC -/

theorem limit_set_iff {field : Configuration → Text} {key : Text} (hf : Handled field key normalize_limit)
    (hempty : field {} = []) {host : MemoryHost} {c : Configuration} (h : load_configuration host = .ok c)
    (value : Text) :
    value ≠ [] ∧ value = field c ↔ ∃ v, LastValue host.lines key v ∧ normalize_limit v = .ok value := by
  obtain ⟨hset, hkept⟩ := hf.load h
  constructor
  · rintro ⟨hne, rfl⟩
    by_contra hnone
    refine hne ((hkept fun v hv => hnone ⟨v, hv, hset v hv⟩).trans hempty)
  · rintro ⟨v, hv, hvalue⟩
    exact ⟨normalize_limit_ne_nil hvalue, Except.ok.inj (hvalue.symm.trans (hset v hv))⟩

/-- The calls, also when there is nothing to do. -/
theorem apply_lxc_limits_ok {cgroup_v2 : Bool} {c : Configuration} {calls : List (Text × Text)}
    (h : apply_lxc_limits cgroup_v2 c = .ok calls) :
    calls = (if c.memory_high ≠ [] then [(.of "lxc.cgroup2.memory.high", c.memory_high)] else []) ++
      (if c.memory_max ≠ [] then [(.of "lxc.cgroup2.memory.max", c.memory_max)] else []) ++
      (if c.memory_swap_max ≠ [] then [(.of "lxc.cgroup2.memory.swap.max", c.memory_swap_max)] else []) := by
  unfold apply_lxc_limits at h
  by_cases hempty : c.memory_high = [] ∧ c.memory_max = [] ∧ c.memory_swap_max = []
  · rw [if_pos hempty] at h
    obtain ⟨hhigh, hmax, hswap_max⟩ := hempty
    cases h
    rw [if_neg (not_not.2 hhigh), if_neg (not_not.2 hmax), if_neg (not_not.2 hswap_max)]
    rfl
  · rw [if_neg hempty] at h
    by_cases hcgroup : cgroup_v2 = false
    · rw [if_pos hcgroup] at h
      cases h
    · rw [if_neg hcgroup] at h
      exact (Except.ok.inj h).symm

/-- Each name is set at most once. -/
theorem nodup_apply_lxc_limits {cgroup_v2 : Bool} {c : Configuration} {calls : List (Text × Text)}
    (h : apply_lxc_limits cgroup_v2 c = .ok calls) : (calls.map Prod.fst).Nodup := by
  have hone (p : Prop) [Decidable p] (call : Text × Text) : (if p then [call] else []).Sublist [call] := by
    split
    · exact List.Sublist.refl _
    · exact List.nil_sublist _
  rw [apply_lxc_limits_ok h]
  refine ((((hone _ _).append (hone _ _)).append (hone _ _)).map Prod.fst).nodup ?_
  show [ByteString.of "lxc.cgroup2.memory.high", .of "lxc.cgroup2.memory.max", .of "lxc.cgroup2.memory.swap.max"].Nodup
  decide +kernel

theorem mem_apply_lxc_limits {cgroup_v2 : Bool} {c : Configuration} {calls : List (Text × Text)}
    (h : apply_lxc_limits cgroup_v2 c = .ok calls) (name value : Text) :
    (name, value) ∈ calls ↔
      (name = .of "lxc.cgroup2.memory.high" ∧ value ≠ [] ∧ value = c.memory_high) ∨
      (name = .of "lxc.cgroup2.memory.max" ∧ value ≠ [] ∧ value = c.memory_max) ∨
      (name = .of "lxc.cgroup2.memory.swap.max" ∧ value ≠ [] ∧ value = c.memory_swap_max) := by
  have hset (called t : Text) : t ≠ [] ∧ name = called ∧ value = t ↔ name = called ∧ value ≠ [] ∧ value = t := by
    constructor
    · rintro ⟨hne, hname, rfl⟩
      exact ⟨hname, hne, rfl⟩
    · rintro ⟨hname, hne, rfl⟩
      exact ⟨hne, hname, rfl⟩
  rw [apply_lxc_limits_ok h]
  simp only [List.mem_append, List.mem_ite_nil_right, List.mem_singleton, Prod.mk.injEq, hset, or_assoc]

/-- LXC gets each limit that the text sets, and no other. -/
theorem passes {host : MemoryHost} {c : Configuration} (h : load_configuration host = .ok c) : host.Passes c := by
  constructor
  · unfold apply_lxc_limits
    by_cases hempty : c.memory_high = [] ∧ c.memory_max = [] ∧ c.memory_swap_max = []
    · exact ⟨_, if_pos hempty⟩
    · exact ⟨_, if_neg hempty⟩
  · intro cgroup_v2 calls hcalls
    constructor
    · exact nodup_apply_lxc_limits hcalls
    · intro name value
      rw [mem_apply_lxc_limits hcalls, limit_set_iff handled_memory_high rfl h, limit_set_iff handled_memory_max rfl h,
        limit_set_iff handled_memory_swap_max rfl h]
      constructor
      · rintro (⟨rfl, v, hv⟩ | ⟨rfl, v, hv⟩ | ⟨rfl, v, hv⟩)
        · exact ⟨.of "android.memory.high", v, by decide +kernel, hv⟩
        · exact ⟨.of "android.memory.max", v, by decide +kernel, hv⟩
        · exact ⟨.of "android.memory.swap.max", v, by decide +kernel, hv⟩
      · rintro ⟨key, v, hname, hv⟩
        simp only [limit_names, List.mem_cons, List.not_mem_nil, or_false, Prod.mk.injEq] at hname
        rcases hname with ⟨rfl, rfl⟩ | ⟨rfl, rfl⟩ | ⟨rfl, rfl⟩
        · exact Or.inl ⟨rfl, v, hv⟩
        · exact Or.inr (Or.inl ⟨rfl, v, hv⟩)
        · exact Or.inr (Or.inr ⟨rfl, v, hv⟩)

/-! ## Consistency -/

/-- A limit that is set is the normal form of a last value. -/
theorem Handled.of_ne_nil {field : Configuration → Text} {key : Text} (hf : Handled field key normalize_limit)
    (hempty : field {} = []) {host : MemoryHost} {c : Configuration} (h : load_configuration host = .ok c)
    (hne : field c ≠ []) : ∃ v, LastValue host.lines key v ∧ normalize_limit v = .ok (field c) :=
  (limit_set_iff hf hempty h _).1 ⟨hne, rfl⟩

theorem consistent_iff_orderly {host : MemoryHost} {c : Configuration} (h : load_configuration host = .ok c) :
    c.Consistent ↔ Orderly host.lines := by
  obtain ⟨hfile, hsize, hnumbers⟩ := check_spec (check_loaded h)
  constructor
  · intro hconsistent
    constructor
    · intro v w hv hw hmax
      have hhigh := (handled_memory_high.load h).1 v hv
      have hmaximum := (handled_memory_max.load h).1 w hw
      have hle := hconsistent.limits (normalize_limit_ne_nil hhigh) (normalize_limit_ne_nil hmaximum)
      rcases normalize_limit_cases hhigh with ⟨-, htop⟩ | ⟨hnot, -⟩
      · rcases normalize_limit_cases hmaximum with ⟨hw, -⟩ | ⟨-, m, -, hm⟩
        · exact hw
        · rw [htop, hm, limit_max, limit_to_string, top_le_iff] at hle
          exact absurd hle (WithTop.natCast_ne_top m)
      · exact absurd hmax hnot
    · intro hlast
      have habsolute := hconsistent.absolute
      rw [← Except.ok.inj ((handled_swap_file.load h).1 [] hlast)] at habsolute
      cases habsolute
  · intro horderly
    refine ⟨fun hhigh hmax => ?_, hfile.resolve_left fun hnil => ?_, hsize⟩
    · obtain ⟨v, hv, hv'⟩ := handled_memory_high.of_ne_nil rfl h hhigh
      obtain ⟨w, hw, hw'⟩ := handled_memory_max.of_ne_nil rfl h hmax
      rcases normalize_limit_cases hw' with ⟨-, htop⟩ | ⟨hnot, m, hm, hmaximum⟩
      · rw [htop, limit_max]
        exact le_top
      · rcases normalize_limit_cases hv' with ⟨htop, -⟩ | ⟨-, n, hn, hhigh⟩
        · exact absurd (horderly.max v w hv hw htop) hnot
        · rw [hhigh, hmaximum, limit_to_string, limit_to_string]
          exact Nat.cast_le.2 (hnumbers n m hn hm hhigh hmaximum)
    · by_cases hset : ∃ v, LastValue host.lines (.of "android.swap.file") v
      · obtain ⟨v, hv⟩ := hset
        obtain rfl := Except.ok.inj ((handled_swap_file.load h).1 v hv)
        rw [hnil] at hv
        exact horderly.swap_file hv
      · have hdefault := (handled_swap_file.load h).2 fun v hv => hset ⟨v, hv⟩
        rw [hnil] at hdefault
        exact absurd hdefault (by decide)

/-- A configuration that is accepted depends only on the last value of each known key, and LXC gets exactly its limits;
it is consistent exactly if the high limit is not `max` above a maximum that is a number, and the swap file is not
empty. -/
theorem load_configuration_iff {host : MemoryHost} {c : Configuration} (h : load_configuration host = .ok c) :
    (host.DependsOnLast c ∧ c.Consistent ∧ host.Passes c) ↔ Orderly host.lines :=
  ⟨fun ⟨_, hconsistent, _⟩ => (consistent_iff_orderly h).1 hconsistent,
    fun horderly => ⟨dependsOnLast h, (consistent_iff_orderly h).2 horderly, passes h⟩⟩

/-- A host with this text in `/etc/anbox/memory.conf`. -/
def exampleHost (text : String) : MemoryHost where
  data_dir := .of "/var/lib/anbox"
  exist path := path = .of "/etc/anbox/memory.conf"
  openFile _ := .ok (.of text)

/-- Both limits, the high one not above the maximum. -/
theorem load_configuration_limits :
    ((exampleHost "android.memory.high=6G\n#\nandroid.memory.max = max\n").DependsOnLast
        { memory_high := .of "6442450944", memory_max := .of "max", source := .of "/etc/anbox/memory.conf" } ∧
      Configuration.Consistent
        { memory_high := .of "6442450944", memory_max := .of "max", source := .of "/etc/anbox/memory.conf" } ∧
      (exampleHost "android.memory.high=6G\n#\nandroid.memory.max = max\n").Passes
        { memory_high := .of "6442450944", memory_max := .of "max", source := .of "/etc/anbox/memory.conf" }) ↔
    Orderly (exampleHost "android.memory.high=6G\n#\nandroid.memory.max = max\n").lines :=
  load_configuration_iff (by decide +kernel)

/-- The high limit may be `max` beside any maximum. -/
theorem max_above_maximum : ¬∀ host c, load_configuration host = .ok c → c.Consistent := by
  intro h
  have hconsistent := h (exampleHost "android.memory.high=max\nandroid.memory.max=1G\n")
    { memory_high := .of "max", memory_max := .of "1073741824", source := .of "/etc/anbox/memory.conf" }
    (by decide +kernel)
  have hle := hconsistent.limits (by decide) (by decide)
  rw [limit_max, top_le_iff, limit, if_neg (by decide)] at hle
  exact WithTop.natCast_ne_top _ hle

end AnboxReboxed.Container
