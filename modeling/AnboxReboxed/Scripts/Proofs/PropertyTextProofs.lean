import AnboxReboxed.Scripts.Proofs.PropertyOverlayProofs
import AnboxReboxed.Scripts.PropertyText

/-!
# Proofs: the text of the property overlay

What a text says about a property is what its last line for it says. The merged text has no line for a key of the
overlay but the one that sets it, as far as the lines of the original have the key directly in front of the `=`; when it
is merged once more only the comment is added.
-/

namespace AnboxReboxed.Scripts.NativeBridge

open AnboxReboxed.Lib Function

variable {original lines : List Str} {updates : Updates} {seen : List Key} {line value s w x : Str} {key : Key}

/-! ## Lines of a text -/

theorem is_space_of_is_break {c : Char} (h : is_break c = true) : is_space c = true := by
  simp only [is_break, Bool.or_eq_true, Bool.and_eq_true, decide_eq_true_eq, beq_iff_eq] at h
  simp only [is_space, Bool.or_eq_true, Bool.and_eq_true, decide_eq_true_eq, beq_iff_eq]
  omega

/-- A text in one line. -/
def Unbroken (s : Str) : Prop := ∀ c ∈ s, is_break c = false

instance (s : Str) : Decidable (Unbroken s) := List.decidableBAll (fun c => is_break c = false) s

theorem Unbroken.of_subset (hs : Unbroken s) (h : ∀ c ∈ w, c ∈ s) : Unbroken w := fun c hc => hs c (h c hc)

theorem Unbroken.append (hs : Unbroken s) (hw : Unbroken w) : Unbroken (s ++ w) := fun c hc =>
  (List.mem_append.mp hc).elim (hs c) (hw c)

theorem unbroken_splitlines {text : Str} (h : line ∈ splitlines text) : Unbroken line :=
  Delimited.not_of_mem_lines h

theorem crlf_of_not_mem {text : Str} (h : '\r' ∉ text) : crlf text = text := by
  fun_induction crlf text with
  | case1 text ih => exact absurd List.mem_cons_self h
  | case2 c text _ ih => rw [ih (List.not_mem_of_not_mem_cons h)]
  | case3 => rfl

theorem joined_eq {output : List Str} (h : output ≠ []) :
    joined output = output.flatMap fun line => line ++ ['\n'] := by
  induction output with
  | nil => exact absurd rfl h
  | cons line output ih =>
    unfold joined at ih ⊢
    by_cases hempty : output = []
    · rw [hempty, List.intercalate_singleton, List.flatMap_singleton]
    · rw [List.intercalate_cons_of_ne_nil hempty, List.append_assoc, List.flatMap_cons, ← ih hempty, List.append_assoc]

/-- Lines that are joined are split again. -/
theorem splitlines_joined {output : List Str} (hne : output ≠ []) (h : ∀ line ∈ output, Unbroken line) :
    splitlines (joined output) = output := by
  have hreturn : '\r' ∉ joined output := by
    rw [joined_eq hne]
    intro hmem
    obtain ⟨line, hline, hmem⟩ := List.mem_flatMap.mp hmem
    rcases List.mem_append.mp hmem with hmem | hmem
    · exact absurd (h line hline '\r' hmem) (by decide)
    · exact absurd hmem (by decide)
  rw [splitlines, crlf_of_not_mem hreturn, joined_eq hne, Delimited.lines_flatMap (by decide) h]

/-! ## The last line counts -/

theorem set_property_eq (result : Str → Option Str) (line name : Str) :
    set_property result line name = (set_property (fun _ => none) line name).or (result name) := by
  unfold set_property
  cases property line with
  | none => rfl
  | some p =>
    obtain ⟨k, v⟩ := p
    dsimp only
    by_cases hname : name = k
    · rw [hname, update_self, update_self, Option.some_or]
    · rw [update_of_ne hname, update_of_ne hname, Option.none_or]

theorem foldl_set_property_eq (text : List Str) (result : Str → Option Str) (name : Str) :
    text.foldl set_property result name = (parse_properties text name).or (result name) := by
  unfold parse_properties
  induction text generalizing result with
  | nil => rfl
  | cons line text ih =>
    rw [List.foldl_cons, List.foldl_cons, ih, ih (set_property _ line), set_property_eq result, Option.or_assoc]

theorem parse_properties_append (text text' : List Str) (name : Str) :
    parse_properties (text ++ text') name = (parse_properties text' name).or (parse_properties text name) := by
  rw [parse_properties, List.foldl_append, foldl_set_property_eq]
  rfl

theorem parse_properties_cons (line : Str) (text : List Str) (name : Str) :
    parse_properties (line :: text) name = (parse_properties text name).or (parse_properties [line] name) :=
  parse_properties_append [line] text name

theorem parse_properties_of_none (h : ∀ v, property line ≠ some (x, v)) : parse_properties [line] x = none := by
  cases hvalue : parse_properties [line] x with
  | none => rfl
  | some v =>
    obtain ⟨line', hmem, hline⟩ := parse_properties_eq_some hvalue
    rw [List.mem_singleton.mp hmem] at hline
    exact absurd hline (h v)

theorem parse_properties_assignment (key : Key) (value name : Str) :
    parse_properties [assignment key value] name = if name = key.name then some (strip value) else none := by
  show set_property (fun _ => none) (assignment key value) name = _
  unfold set_property
  rw [property_assignment]
  dsimp only
  by_cases hname : name = key.name
  · rw [if_pos hname, hname, update_self]
  · rw [if_neg hname, update_of_ne hname]

/-! ## The two ways to read a line -/

theorem strip_append_cons {c : Char} (hc : is_space c = false) (before after : Str) :
    strip (before ++ c :: after) = lstrip before ++ c :: (lstrip after.reverse).reverse := by
  have hstays (before after : Str) : lstrip (before ++ c :: after) = lstrip before ++ c :: after := by
    unfold lstrip
    rw [List.dropWhile_append, List.dropWhile_cons_of_neg (by rw [hc]; exact Bool.false_ne_true)]
    split
    · rename_i hempty
      rw [List.isEmpty_iff.mp hempty, List.nil_append]
    · rfl
  rw [strip, hstays, List.reverse_append, List.reverse_cons, List.append_assoc, List.singleton_append, hstays,
    List.reverse_append, List.reverse_cons, List.reverse_reverse, List.append_assoc, List.singleton_append]

theorem is_space_equals : is_space '=' = false := rfl

theorem strip_subset (s : Str) : ∀ c ∈ strip s, c ∈ s := by
  obtain ⟨w, w', hs, -, -⟩ := exists_eq_strip s
  intro c hc
  rw [hs]
  exact List.mem_append_left _ (List.mem_append_right _ hc)

theorem Key.equals_not_mem (key : Key) : '=' ∉ key.name := by cases key <;> decide

theorem Key.strip_name (key : Key) : strip key.name = key.name := by cases key <;> decide

theorem Key.mem_all (key : Key) : key ∈ Key.all := by cases key <;> decide

theorem line_key_eq_some_iff : line_key line = some key ↔ ∃ rest, strip line = key.name ++ '=' :: rest := by
  unfold line_key
  constructor
  · intro h
    obtain ⟨hmem, h⟩ := Option.ite_none_right_eq_some.mp h
    have hname : key.name = (strip line).takeWhile (· ≠ '=') := by simpa using List.find?_some h
    obtain ⟨before, after, hline, hcut⟩ := List.eq_append_cons_of_mem hmem
    have hbefore : ∀ c ∈ before, decide (c ≠ '=') = true := fun c hc => decide_eq_true (ne_of_mem_of_not_mem hc hcut)
    rw [hline, List.takeWhile_append_of_pos hbefore, List.takeWhile_cons_of_neg (by decide), List.append_nil] at hname
    exact ⟨after, by rw [hline, hname]⟩
  · rintro ⟨rest, hline⟩
    have hname : ∀ c ∈ key.name, decide (c ≠ '=') = true := fun c hc =>
      decide_eq_true (ne_of_mem_of_not_mem hc key.equals_not_mem)
    have htake : (strip line).takeWhile (· ≠ '=') = key.name := by
      rw [hline, List.takeWhile_append_of_pos hname, List.takeWhile_cons_of_neg (by decide), List.append_nil]
    rw [if_pos (by rw [hline]; exact List.mem_append_right _ List.mem_cons_self), htake]
    cases hfind : Key.all.find? fun k => k.name = key.name with
    | none => exact absurd (by simp) (List.find?_eq_none.mp hfind key key.mem_all)
    | some k =>
      have hname : k.name = key.name := by simpa using List.find?_some hfind
      rw [Key.name_inj hname]

theorem line_key_assignment (key : Key) (value : Str) : line_key (assignment key value) = some key := by
  have hlstrip : lstrip key.name = key.name := by cases key <;> decide
  exact line_key_eq_some_iff.mpr ⟨_, by rw [assignment, strip_append_cons is_space_equals, hlstrip]⟩

/-- A line that the merge recognises sets the property. -/
theorem property_of_line_key (h : line_key line = some key) : ∃ v, property line = some (key.name, v) := by
  obtain ⟨rest, hstrip⟩ := line_key_eq_some_iff.mp h
  obtain ⟨w, w', hline, hw, -⟩ := exists_eq_strip line
  rw [hstrip] at hline
  have hfront : ∀ c ∈ w ++ key.name, decide (c ≠ '=') = true := by
    intro c hc
    refine decide_eq_true ?_
    rintro rfl
    rcases List.mem_append.mp hc with hc | hc
    · exact absurd (hw _ hc) (by decide)
    · exact key.equals_not_mem hc
  have hshape : line = (w ++ key.name) ++ '=' :: (rest ++ w') := by
    rw [hline]
    simp only [List.append_assoc, List.cons_append]
  have htake : line.takeWhile (· ≠ '=') = w ++ key.name := by
    rw [hshape, List.takeWhile_append_of_pos hfront, List.takeWhile_cons_of_neg (by decide), List.append_nil]
  have hhead : (lstrip line).head? = some 'r' := by
    rw [hshape, List.append_assoc, lstrip_append hw]
    cases key <;> rfl
  have hset : line ≠ [] ∧ (lstrip line).head? ≠ some '#' ∧ '=' ∈ line := by
    refine ⟨?_, ?_, ?_⟩
    · rw [hshape]
      exact List.append_ne_nil_of_right_ne_nil _ (List.cons_ne_nil _ _)
    · rw [hhead]
      decide
    · rw [hshape]
      exact List.mem_append_right _ List.mem_cons_self
  refine ⟨strip (line.dropWhile (· ≠ '=')).tail, ?_⟩
  rw [property, if_pos hset, htake, strip_append_left hw, key.strip_name]

/-! ## The loop over the lines -/

theorem merge_lines_kept (h : line_key line = none) : merge_lines updates seen (line :: lines) =
    (line :: (merge_lines updates seen lines).1, (merge_lines updates seen lines).2) := by
  rw [merge_lines, h]

theorem merge_lines_dropped (h : line_key line = some key) (hdropped : updates key = none ∨ key ∈ seen) :
    merge_lines updates seen (line :: lines) = merge_lines updates seen lines := by
  rw [merge_lines, h]
  dsimp only
  rcases hdropped with hnone | hseen
  · rw [hnone]
  · cases updates key with
    | none => rfl
    | some value => exact if_pos hseen

theorem merge_lines_set (h : line_key line = some key) (hvalue : updates key = some value) (hseen : key ∉ seen) :
    merge_lines updates seen (line :: lines) =
      (assignment key value :: (merge_lines updates (key :: seen) lines).1,
        (merge_lines updates (key :: seen) lines).2) := by
  rw [merge_lines, h]
  dsimp only
  rw [hvalue]
  exact if_neg hseen

/-- What the loop does with a line. -/
theorem line_cases (updates : Updates) (seen : List Key) (line : Str) : line_key line = none ∨
    (∃ key, line_key line = some key ∧ (updates key = none ∨ key ∈ seen)) ∨
    ∃ key value, line_key line = some key ∧ updates key = some value ∧ key ∉ seen := by
  cases hkey : line_key line with
  | none => exact Or.inl rfl
  | some key =>
    by_cases hseen : key ∈ seen
    · exact Or.inr (Or.inl ⟨key, rfl, Or.inr hseen⟩)
    · cases hvalue : updates key with
      | none => exact Or.inr (Or.inl ⟨key, rfl, Or.inl hvalue⟩)
      | some value => exact Or.inr (Or.inr ⟨key, value, rfl, hvalue, hseen⟩)

theorem subset_merge_lines (h : key ∈ seen) : key ∈ (merge_lines updates seen lines).2 := by
  induction lines generalizing seen with
  | nil => exact h
  | cons line lines ih =>
    rcases line_cases updates seen line with hnone | ⟨k, hk, hdropped⟩ | ⟨k, value, hk, hvalue, hseen⟩
    · rw [merge_lines_kept hnone]
      exact ih h
    · rw [merge_lines_dropped hk hdropped]
      exact ih h
    · rw [merge_lines_set hk hvalue hseen]
      exact ih (List.mem_cons_of_mem _ h)

/-! ## What the merged text says -/

/-- The properties that are not for the bridge. -/
def Other (name : Str) : Prop := ∀ key : Key, name ≠ key.name

theorem not_set_of_other (hx : Other x) (h : line_key line = some key) : parse_properties [line] x = none := by
  refine parse_properties_of_none fun v hv => ?_
  obtain ⟨w, hw⟩ := property_of_line_key h
  rw [hw] at hv
  exact hx key (Prod.mk.inj (Option.some.inj hv)).1.symm

theorem merge_lines_other (hx : Other x) :
    parse_properties (merge_lines updates seen lines).1 x = parse_properties lines x := by
  induction lines generalizing seen with
  | nil => rfl
  | cons line lines ih =>
    rw [parse_properties_cons line lines]
    rcases line_cases updates seen line with hnone | ⟨k, hk, hdropped⟩ | ⟨k, value, hk, hvalue, hseen⟩
    · rw [merge_lines_kept hnone, parse_properties_cons, ih]
    · rw [merge_lines_dropped hk hdropped, ih, not_set_of_other hx hk, Option.or_none]
    · rw [merge_lines_set hk hvalue hseen, parse_properties_cons, ih, parse_properties_assignment, if_neg (hx k),
        not_set_of_other hx hk]

/-- In these lines the key is always directly in front of the `=`. -/
def PlainLines (lines : List Str) (key : Key) : Prop :=
  ∀ line ∈ lines, ∀ value, property line = some (key.name, value) → line_key line = some key

/-- The merged lines set a property where its key is seen for the first time. -/
theorem merge_lines_plain (hplain : PlainLines lines key) :
    parse_properties (merge_lines updates seen lines).1 key.name =
      if key ∉ seen ∧ key ∈ (merge_lines updates seen lines).2 then (updates key).map strip else none := by
  induction lines generalizing seen with
  | nil => exact (if_neg fun h => h.1 h.2).symm
  | cons line lines ih =>
    obtain ⟨hline, hlines⟩ := List.forall_mem_cons.mp hplain
    rcases line_cases updates seen line with hnone | ⟨k, hk, hdropped⟩ | ⟨k, value, hk, hvalue, hseen⟩
    · have hunset : parse_properties [line] key.name = none := parse_properties_of_none fun v hv => by
        rw [hline v hv] at hnone
        cases hnone
      rw [merge_lines_kept hnone, parse_properties_cons, hunset, Option.or_none, ih hlines]
    · rw [merge_lines_dropped hk hdropped, ih hlines]
    · rw [merge_lines_set hk hvalue hseen, parse_properties_cons, ih hlines, parse_properties_assignment]
      by_cases hkey : key = k
      · subst hkey
        rw [if_neg fun h => h.1 List.mem_cons_self, Option.none_or, if_pos rfl,
          if_pos ⟨hseen, subset_merge_lines List.mem_cons_self⟩, hvalue, Option.map_some]
      · have hsame : key ∉ k :: seen ↔ key ∉ seen := by
          rw [List.mem_cons, not_or]
          exact and_iff_right hkey
        simp only [if_neg fun h => hkey (Key.name_inj h), Option.or_none, hsame]

/-- The lines that are added behind the comment. -/
def addedLines (updates : Updates) (seen : List Key) (keys : List Key) : List Str :=
  keys.filterMap fun key => if key ∈ seen then none else (updates key).map (assignment key)

theorem merged_property_text_eq (original : List Str) (updates : Updates) :
    merged_property_text original updates = (merge_lines updates [] original).1 ++
      "# Properties added by Anbox Reboxed Native Bridge".toList ::
        addedLines updates (merge_lines updates [] original).2 Key.all := rfl

theorem equals_not_mem_comment : '=' ∉ "# Properties added by Anbox Reboxed Native Bridge".toList := by decide +kernel

theorem property_comment : property "# Properties added by Anbox Reboxed Native Bridge".toList = none :=
  if_neg fun h => equals_not_mem_comment h.2.2

theorem line_key_comment : line_key "# Properties added by Anbox Reboxed Native Bridge".toList = none :=
  if_neg fun h => equals_not_mem_comment (strip_subset _ _ h)

theorem parse_comment (text : List Str) (name : Str) :
    parse_properties ("# Properties added by Anbox Reboxed Native Bridge".toList :: text) name
      = parse_properties text name := by
  rw [parse_properties_cons, parse_properties_of_none, Option.or_none]
  intro v hv
  rw [property_comment] at hv
  cases hv

theorem addedLines_cons (updates : Updates) (seen : List Key) (k : Key) (keys : List Key) :
    addedLines updates seen (k :: keys) =
      (if k ∈ seen then [] else ((updates k).map (assignment k)).toList) ++ addedLines updates seen keys := by
  unfold addedLines
  rw [List.filterMap_cons]
  split_ifs
  · rfl
  · cases updates k <;> rfl

theorem parse_addedLines (keys : List Key) :
    parse_properties (addedLines updates seen keys) key.name =
      if key ∈ keys ∧ key ∉ seen then (updates key).map strip else none := by
  induction keys with
  | nil => exact (if_neg fun h => List.not_mem_nil h.1).symm
  | cons k keys ih =>
    have hfirst : parse_properties (if k ∈ seen then [] else ((updates k).map (assignment k)).toList) key.name
        = if key = k ∧ key ∉ seen then (updates key).map strip else none := by
      by_cases hseen : k ∈ seen
      · rw [if_pos hseen, if_neg fun h => h.2 (h.1 ▸ hseen)]
        rfl
      · rw [if_neg hseen]
        by_cases hkey : key = k
        · subst hkey
          rw [if_pos ⟨rfl, hseen⟩]
          cases updates key with
          | none => rfl
          | some value =>
            rw [Option.map_some, Option.toList_some, parse_properties_assignment, if_pos rfl, Option.map_some]
        · rw [if_neg fun h => hkey h.1]
          cases updates k with
          | none => rfl
          | some value =>
            rw [Option.map_some, Option.toList_some, parse_properties_assignment,
              if_neg fun h => hkey (Key.name_inj h)]
    rw [addedLines_cons, parse_properties_append, ih, hfirst]
    by_cases hseen : key ∈ seen
    · rw [if_neg fun h => h.2 hseen, if_neg fun h => h.2 hseen, if_neg fun h => h.2 hseen, Option.none_or]
    · by_cases hkey : key = k
      · rw [if_pos (⟨hkey, hseen⟩ : key = k ∧ key ∉ seen),
          if_pos (⟨hkey ▸ List.mem_cons_self, hseen⟩ : key ∈ k :: keys ∧ key ∉ seen)]
        split
        · exact Option.or_self
        · exact Option.none_or
      · rw [if_neg (fun h => hkey h.1 : ¬(key = k ∧ key ∉ seen)), Option.or_none]
        have hmem : key ∈ k :: keys ↔ key ∈ keys := by
          rw [List.mem_cons]
          exact or_iff_right hkey
        simp only [hmem]

theorem parse_addedLines_other (hx : Other x) (keys : List Key) :
    parse_properties (addedLines updates seen keys) x = none := by
  cases hvalue : parse_properties (addedLines updates seen keys) x with
  | none => rfl
  | some v =>
    obtain ⟨line, hmem, hline⟩ := parse_properties_eq_some hvalue
    obtain ⟨k, -, hk⟩ := List.mem_filterMap.mp hmem
    obtain ⟨-, hk⟩ := Option.ite_none_left_eq_some.mp hk
    obtain ⟨value, -, rfl⟩ := Option.map_eq_some_iff.mp hk
    rw [property_assignment] at hline
    exact absurd (Prod.mk.inj (Option.some.inj hline)).1.symm (hx k)

/-- The other properties are what they were. -/
theorem parse_merged_other (hx : Other x) :
    parse_properties (merged_property_text original updates) x = parse_properties original x := by
  rw [merged_property_text_eq, parse_properties_append, parse_comment, parse_addedLines_other hx, Option.none_or,
    merge_lines_other hx]

/-- A key of the overlay has what the updates have for it. -/
theorem parse_merged_plain (hplain : PlainLines original key) :
    parse_properties (merged_property_text original updates) key.name = (updates key).map strip := by
  rw [merged_property_text_eq, parse_properties_append, parse_comment, parse_addedLines, merge_lines_plain hplain]
  by_cases hseen : key ∈ (merge_lines updates [] original).2
  · rw [if_neg fun h => h.2 hseen, if_pos ⟨List.not_mem_nil, hseen⟩, Option.none_or]
  · rw [if_pos ⟨key.mem_all, hseen⟩, if_neg fun h => hseen h.2, Option.or_none]

/-! ## Merging again -/

/-- The lines that the loop has written go through it as they are. -/
theorem merge_lines_again (tail : List Str) :
    merge_lines updates seen ((merge_lines updates seen lines).1 ++ tail) =
      ((merge_lines updates seen lines).1 ++ (merge_lines updates (merge_lines updates seen lines).2 tail).1,
        (merge_lines updates (merge_lines updates seen lines).2 tail).2) := by
  induction lines generalizing seen with
  | nil => rfl
  | cons line lines ih =>
    rcases line_cases updates seen line with hnone | ⟨k, hk, hdropped⟩ | ⟨k, value, hk, hvalue, hseen⟩
    · rw [merge_lines_kept hnone, List.cons_append, merge_lines_kept hnone, ih, List.cons_append]
    · rw [merge_lines_dropped hk hdropped, ih]
    · rw [merge_lines_set hk hvalue hseen, List.cons_append,
        merge_lines_set (line_key_assignment k value) hvalue hseen, ih, List.cons_append]

variable (updates) in
/-- So do the lines that are added, and their keys have been seen then. -/
theorem merge_addedLines {seen' : List Key} {keys : List Key} (hnodup : keys.Nodup)
    (hseen : ∀ k ∈ keys, k ∈ seen' ↔ k ∈ seen) :
    (merge_lines updates seen' (addedLines updates seen keys)).1 = addedLines updates seen keys ∧
      ∀ k ∈ keys, (updates k).isSome = true → k ∈ (merge_lines updates seen' (addedLines updates seen keys)).2 := by
  induction keys generalizing seen' with
  | nil => exact ⟨rfl, fun k hk => absurd hk List.not_mem_nil⟩
  | cons k keys ih =>
    obtain ⟨hk, hnodup⟩ := List.nodup_cons.mp hnodup
    obtain ⟨hfirst, hrest⟩ := List.forall_mem_cons.mp hseen
    rw [addedLines_cons]
    by_cases hmem : k ∈ seen
    · rw [if_pos hmem, List.nil_append]
      obtain ⟨hlines, hkeys⟩ := ih hnodup hrest
      refine ⟨hlines, List.forall_mem_cons.mpr ⟨fun _ => subset_merge_lines (hfirst.mpr hmem), hkeys⟩⟩
    · rw [if_neg hmem]
      cases hvalue : updates k with
      | none =>
        obtain ⟨hlines, hkeys⟩ := ih hnodup hrest
        refine ⟨hlines, List.forall_mem_cons.mpr ⟨fun hsome => ?_, hkeys⟩⟩
        rw [hvalue] at hsome
        cases hsome
      | some value =>
        have hrest' : ∀ j ∈ keys, j ∈ k :: seen' ↔ j ∈ seen := fun j hj => by
          rw [List.mem_cons, hrest j hj]
          exact or_iff_right (ne_of_mem_of_not_mem hj hk)
        obtain ⟨hlines, hkeys⟩ := ih hnodup hrest'
        rw [Option.map_some, Option.toList_some, List.singleton_append,
          merge_lines_set (line_key_assignment k value) hvalue (mt hfirst.mp hmem)]
        exact ⟨congrArg _ hlines, List.forall_mem_cons.mpr ⟨fun _ => subset_merge_lines List.mem_cons_self, hkeys⟩⟩

/-- A second merge adds the comment once more, and nothing else. -/
theorem merged_property_text_again (original : List Str) (updates : Updates) :
    merged_property_text (merged_property_text original updates) updates =
      merged_property_text original updates ++ ["# Properties added by Anbox Reboxed Native Bridge".toList] := by
  have hnodup : Key.all.Nodup := by decide
  obtain ⟨hlines, hkeys⟩ := merge_addedLines updates hnodup
    fun k _ => Iff.refl (k ∈ (merge_lines updates [] original).2)
  have hnothing (seen : List Key) (hseen : ∀ k ∈ Key.all, (updates k).isSome = true → k ∈ seen) :
      addedLines updates seen Key.all = [] := by
    refine List.filterMap_eq_nil_iff.mpr fun k hk => ?_
    cases hvalue : updates k with
    | none => exact ite_self none
    | some value => exact if_pos (hseen k hk (by rw [hvalue]; rfl))
  rw [merged_property_text_eq (merged_property_text original updates), merged_property_text_eq original,
    merge_lines_again, merge_lines_kept line_key_comment]
  dsimp only
  rw [hlines, hnothing _ hkeys]

/-! ## The merged text has its lines -/

/-- A value that a text gives is in one line of it. -/
theorem unbroken_parse_text {text : Str} {v : Str} (h : parse_text text x = some v) : Unbroken v := by
  obtain ⟨line, hmem, hline⟩ := parse_properties_eq_some h
  refine (unbroken_splitlines hmem).of_subset fun c hc => ?_
  unfold property at hline
  obtain ⟨-, hp⟩ := Option.ite_none_right_eq_some.mp hline
  rw [← (Prod.mk.inj (Option.some.inj hp)).2] at hc
  exact (List.dropWhile_suffix _).subset (List.mem_of_mem_tail (strip_subset _ c hc))

theorem unbroken_join_abis {abis : List Str} (h : ∀ name ∈ abis, Unbroken name) : Unbroken (join_abis abis) := by
  unfold join_abis
  induction abis with
  | nil => exact fun c hc => absurd hc List.not_mem_nil
  | cons name abis ih =>
    obtain ⟨hname, habis⟩ := List.forall_mem_cons.mp h
    by_cases hempty : abis = []
    · rwa [hempty, List.intercalate_singleton]
    · rw [List.intercalate_cons_of_ne_nil hempty]
      exact (hname.append (by decide)).append (ih habis)

section Overlay

variable {text : Str} {m : Manifest} {working : List Abi}

theorem unbroken_native_abis (horiginal : m.original_properties = parse_text text) {default : String}
    (hdefault : Unbroken default.toList) (hx : x ∈ native_abis m key default) : Unbroken x := by
  obtain ⟨hx, -⟩ := List.mem_filter.mp hx
  refine Unbroken.of_subset ?_ (Delimited.subset_of_mem_splitOnP hx)
  rw [horiginal]
  cases hvalue : parse_text text key.name with
  | none => exact hdefault
  | some v => exact unbroken_parse_text hvalue

theorem unbroken_native64 (horiginal : m.original_properties = parse_text text) (hx : x ∈ native64 m working) :
    Unbroken x := by
  rcases mem_native64 hx with hx | ⟨-, rfl⟩
  · exact unbroken_native_abis horiginal (by decide) hx
  · decide

theorem unbroken_native32 (horiginal : m.original_properties = parse_text text) (hx : x ∈ native32 m working) :
    Unbroken x := by
  have harm : ∀ name ∈ [Abi.armeabi_v7a.name, "armeabi".toList], Unbroken name := by decide
  rcases mem_native32 hx with hx | ⟨-, hx⟩
  · exact unbroken_native_abis horiginal (by decide) hx
  · exact harm x hx

theorem unbroken_property_updates (horiginal : m.original_properties = parse_text text)
    (htranslator : Unbroken m.translator) {v : Str} (h : property_updates m working key = some v) : Unbroken v := by
  cases key with
  | native_bridge => rwa [← Option.some.inj h]
  | native_bridge_exec => cases h
  | isa_arm =>
    rw [← Option.some.inj (Option.ite_none_right_eq_some.mp h).2]
    decide
  | isa_arm64 =>
    rw [← Option.some.inj (Option.ite_none_right_eq_some.mp h).2]
    decide
  | abilist64 =>
    rw [← Option.some.inj (Option.ite_none_left_eq_some.mp h).2]
    exact unbroken_join_abis fun name => unbroken_native64 horiginal
  | abilist32 =>
    rw [← Option.some.inj (Option.ite_none_left_eq_some.mp h).2]
    exact unbroken_join_abis fun name => unbroken_native32 horiginal
  | abilist =>
    rw [← Option.some.inj (Option.ite_none_left_eq_some.mp h).2]
    refine unbroken_join_abis fun name hname => ?_
    exact (List.mem_append.mp hname).elim (unbroken_native64 horiginal) (unbroken_native32 horiginal)

theorem unbroken_assignment (hv : Unbroken value) : Unbroken (assignment key value) := by
  have hname : Unbroken (key.name ++ ['=']) := by cases key <;> decide
  have hline : assignment key value = key.name ++ ['='] ++ value := by
    rw [assignment, List.append_assoc]
    rfl
  rw [hline]
  exact hname.append hv

theorem unbroken_merged_property_text (horiginal : ∀ line ∈ original, Unbroken line)
    (hupdates : ∀ key v, updates key = some v → Unbroken v) (h : line ∈ merged_property_text original updates) :
    Unbroken line := by
  rw [merged_property_text_eq] at h
  rcases List.mem_append.mp h with h | h
  · rcases mem_merge_lines h with h | ⟨k, v, hv, rfl⟩
    · exact horiginal line h
    · exact unbroken_assignment (hupdates k v hv)
  · rcases List.mem_cons.mp h with rfl | h
    · decide +kernel
    · obtain ⟨k, -, hk⟩ := List.mem_filterMap.mp h
      obtain ⟨-, hk⟩ := Option.ite_none_left_eq_some.mp hk
      obtain ⟨v, hv, rfl⟩ := Option.map_eq_some_iff.mp hk
      exact unbroken_assignment (hupdates k v hv)

theorem splitlines_merged_text (hupdates : ∀ key v, updates key = some v → Unbroken v) (text : Str) :
    splitlines (merged_text text updates) = merged_property_text (splitlines text) updates := by
  refine splitlines_joined ?_ fun line => unbroken_merged_property_text (fun _ => unbroken_splitlines) hupdates
  rw [merged_property_text_eq]
  exact List.append_ne_nil_of_right_ne_nil _ (List.cons_ne_nil _ _)

/-! ## The lists of ABIs -/

theorem listed_strip (value : Str) : listed (strip value) = listed value := by
  unfold listed
  rw [map_strip_splitOn]

/-- The names in a list, without white space. -/
def names (abis : List Str) : List Str := (abis.map strip).filter (· ≠ [])

theorem names_append (abis abis' : List Str) : names (abis ++ abis') = names abis ++ names abis' := by
  rw [names, List.map_append, List.filter_append]
  rfl

theorem listed_join_abis {abis : List Str} (hcomma : ∀ name ∈ abis, ',' ∉ name) :
    listed (join_abis abis) = names abis := by
  by_cases hempty : abis = []
  · subst hempty
    rfl
  · rw [listed, join_abis, List.splitOn_intercalate _ hcomma hempty]
    rfl

/-- Empty names do not count. -/
theorem names_filter (abis : List Str) : names (abis.filter (· ≠ [])) = names abis := by
  induction abis with
  | nil => rfl
  | cons name abis ih =>
    rw [← List.singleton_append, names_append, List.filter_append, names_append, ih]
    cases name <;> rfl

theorem names_native_abis (horiginal : m.original_properties = parse_text text) (default : String) :
    names (native_abis m key default) = abis text key default := by
  rw [native_abis, names_filter, horiginal]
  rfl

theorem mem_verified_abis {abi : Abi} : abi ∈ verified_abis m ↔ m.passed abi = true := by
  unfold verified_abis
  rw [List.mem_filter]
  refine and_iff_right ?_
  cases abi <;> decide

theorem mem_names {abis : List Str} {abi : Abi} (h : abi.name ∈ abis) : abi.name ∈ names abis := by
  have hstrip : strip abi.name = abi.name := by cases abi <;> decide
  have hne : abi.name ≠ [] := by cases abi <;> decide
  refine List.mem_filter.mpr ⟨?_, decide_eq_true hne⟩
  rw [← hstrip]
  exact List.mem_map_of_mem h

theorem extends_native64 (horiginal : m.original_properties = parse_text text) :
    Extends64 text m (names (native64 m (verified_abis m))) := by
  have harm : names [Abi.arm64_v8a.name] = [Abi.arm64_v8a.name] := by decide
  unfold native64
  dsimp only
  split_ifs with hadd
  · rw [names_append, names_native_abis horiginal, harm]
    refine ⟨⟨_, rfl, fun name hname => ⟨mem_verified_abis.mp hadd.1, hname⟩⟩, fun _ => ?_⟩
    exact List.mem_append_right _ List.mem_cons_self
  · refine ⟨⟨[], ?_, fun name hname => absurd hname List.not_mem_nil⟩, fun hpassed => mem_names ?_⟩
    · rw [names_native_abis horiginal, List.append_nil]
    · exact not_not.mp fun hnot => hadd ⟨mem_verified_abis.mpr hpassed, hnot⟩

theorem extends_native32 (horiginal : m.original_properties = parse_text text) :
    Extends32 text m (names (native32 m (verified_abis m))) := by
  have harm : ∀ name ∈ [Abi.armeabi_v7a.name, "armeabi".toList],
      strip name ∈ [Abi.armeabi_v7a.name, "armeabi".toList] := by decide
  unfold native32
  dsimp only
  split_ifs with hadd
  · refine ⟨⟨_, by rw [names_append, names_native_abis horiginal], fun name hname => ?_⟩, fun _ => mem_names ?_⟩
    · obtain ⟨hname, -⟩ := List.mem_filter.mp hname
      obtain ⟨added, hadded, rfl⟩ := List.mem_map.mp hname
      exact ⟨mem_verified_abis.mp hadd.1, harm added (List.mem_filter.mp hadded).1⟩
    · exact List.mem_append_right _ (List.mem_filter.mpr ⟨List.mem_cons_self, decide_eq_true hadd.2⟩)
  · refine ⟨⟨[], ?_, fun name hname => absurd hname List.not_mem_nil⟩, fun hpassed => mem_names ?_⟩
    · rw [names_native_abis horiginal, List.append_nil]
    · exact not_not.mp fun hnot => hadd ⟨mem_verified_abis.mpr hpassed, hnot⟩

/-! ## The overlay -/

theorem strip_of_no_space (hw : ∀ c ∈ w, is_space c = false) : strip w = w := by
  have hstays {w : Str} (hw : ∀ c ∈ w, is_space c = false) : lstrip w = w := by
    cases w with
    | nil => rfl
    | cons c w =>
      exact List.dropWhile_cons_of_neg (by rw [hw c List.mem_cons_self]; exact Bool.false_ne_true)
  rw [strip, hstays hw, hstays fun c hc => hw c (List.mem_reverse.mp hc), List.reverse_reverse]

/-- The text that is written is an overlay, for a translator without white space in its name. -/
theorem overlay_isOverlay (original : Str) (m : Manifest) (horiginal : m.original_properties = parse_text original)
    (htranslator : ∀ c ∈ m.translator, is_space c = false) : IsOverlay original m (overlay original m) := by
  have hbreak : Unbroken m.translator := fun c hc => by
    rw [← Bool.not_eq_true]
    intro h
    exact absurd (is_space_of_is_break h) (by rw [htranslator c hc]; exact Bool.false_ne_true)
  have hupdates : ∀ key v, property_updates m (verified_abis m) key = some v → Unbroken v := fun _ _ =>
    unbroken_property_updates horiginal hbreak
  have hlines := splitlines_merged_text hupdates
  have hplain {key : Key} (h : Plain original key) :
      parse_text (overlay original m) key.name = (property_updates m (verified_abis m) key).map strip := by
    rw [parse_text, overlay, hlines]
    exact parse_merged_plain h
  have hset (h : verified_abis m ≠ []) {lists : Str} :
      ((if verified_abis m = [] then none else some lists).map strip) = some (strip lists) := by
    rw [if_neg h, Option.map_some]
  constructor
  case others =>
    intro key hkey
    rw [parse_text, overlay, hlines]
    exact parse_merged_other fun k hk => hkey (hk ▸ List.mem_map_of_mem k.mem_all)
  case abilist64 =>
    intro hverified h
    refine ⟨_, (hplain h).trans (hset hverified), ?_⟩
    rw [listed_strip, listed_join_abis fun _ => comma_not_mem_native64]
    exact extends_native64 horiginal
  case abilist32 =>
    intro hverified h
    refine ⟨_, (hplain h).trans (hset hverified), ?_⟩
    rw [listed_strip, listed_join_abis fun _ => comma_not_mem_native32]
    exact extends_native32 horiginal
  case abilist =>
    intro hverified h
    have hcomma : ∀ name ∈ native64 m (verified_abis m) ++ native32 m (verified_abis m), ',' ∉ name := fun name hname =>
      (List.mem_append.mp hname).elim comma_not_mem_native64 comma_not_mem_native32
    refine ⟨_, _, _, (hplain h).trans (hset hverified), ?_, extends_native64 horiginal, extends_native32 horiginal⟩
    rw [listed_strip, listed_join_abis hcomma, names_append]
  case native_bridge =>
    intro h
    rw [hplain h]
    exact congrArg some (strip_of_no_space htranslator)
  case isa_arm64 =>
    intro h
    rw [hplain h, Option.isSome_map, ← mem_verified_abis]
    exact Option.isSome_ite
  case isa_arm =>
    intro h
    rw [hplain h, Option.isSome_map, ← mem_verified_abis]
    exact Option.isSome_ite
  case again =>
    funext name
    rw [parse_text, hlines, overlay, hlines, merged_property_text_again, parse_properties_append,
      parse_properties_of_none, Option.none_or, parse_text, hlines]
    intro v hv
    rw [property_comment] at hv
    cases hv

end Overlay

/-- An external translator that has been found to work for these ABIs. -/
def exampleManifest (original : String) (verified : List Abi) : Manifest where
  backend_id := .external
  backend_kind := .external_payload
  translator := "libndk_translation.so".toList
  detected_abis := verified
  verification abi := if abi ∈ verified then some ⟨true, .jni_call_succeeded⟩ else none
  original_properties := parse_text original.toList

theorem overlay_isOverlay_arm64 :
    IsOverlay "ro.product.cpu.abilist64=x86_64\n".toList
      (exampleManifest "ro.product.cpu.abilist64=x86_64\n" [.arm64_v8a])
      (overlay "ro.product.cpu.abilist64=x86_64\n".toList
        (exampleManifest "ro.product.cpu.abilist64=x86_64\n" [.arm64_v8a])) :=
  overlay_isOverlay _ _ rfl fun c hc => Bool.eq_false_iff.2 (List.any_eq_false.1 (by decide) c hc)

/-- Each list has the ABIs that it had, in their order, and otherwise only ABIs that have been verified. -/
def KeepsAbis (original : Str) (m : Manifest) (text : Str) : Prop :=
  ∀ key ∈ [Key.abilist, .abilist32, .abilist64],
    (listed ((parse_text original key.name).getD [])).Sublist (listed ((parse_text text key.name).getD [])) ∧
    ∀ name ∈ listed ((parse_text text key.name).getD []), name ∈ listed ((parse_text original key.name).getD []) ∨
      ∃ abi, m.passed abi = true ∧ name = abi.name

/-- The ABI `armeabi` comes with `armeabi-v7a`, without a verification of its own, and `x86_64` stands in a list that
the original does not have. -/
theorem overlay_adds_unverified :
    (¬∀ original m, m.original_properties = parse_text original → KeepsAbis original m (overlay original m)) ∧
    parse_text (overlay "ro.product.cpu.abilist32=x86\n".toList
        (exampleManifest "ro.product.cpu.abilist32=x86\n" [.armeabi_v7a])) Key.abilist.name
      = some "x86_64,x86,armeabi-v7a,armeabi".toList := by
  have hvalue : parse_text (overlay "ro.product.cpu.abilist32=x86\n".toList
        (exampleManifest "ro.product.cpu.abilist32=x86\n" [.armeabi_v7a])) Key.abilist.name
      = some "x86_64,x86,armeabi-v7a,armeabi".toList := by decide +kernel
  refine ⟨fun h => ?_, hvalue⟩
  obtain ⟨-, hadded⟩ := h "ro.product.cpu.abilist32=x86\n".toList
    (exampleManifest "ro.product.cpu.abilist32=x86\n" [.armeabi_v7a]) rfl .abilist List.mem_cons_self
  rw [hvalue] at hadded
  rcases hadded "armeabi".toList (by decide +kernel) with hbefore | ⟨abi, -, habi⟩
  · exact absurd hbefore (by decide +kernel)
  · cases abi <;> exact absurd habi (by decide)

end AnboxReboxed.Scripts.NativeBridge
