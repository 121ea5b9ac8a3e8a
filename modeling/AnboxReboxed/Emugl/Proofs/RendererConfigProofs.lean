import AnboxReboxed.Emugl.RendererConfig
import Mathlib.Data.List.Range

/-!
# Correctness of the queries for EGL configs

The loop over the array of the guest is the list of its constraints, and the search writes the indices of what the host
returns one behind another. Nothing keeps the loop inside an array that does not end.
-/

namespace AnboxReboxed.Emugl

open RendererConfigList

variable {κ : Type} {egl : EglHost κ} {list : RendererConfigList}

/-- The id that the guest sees is that of the host. -/
theorem getConfigId_new (egl : EglHost κ) (config : κ) :
    (RendererConfig.new egl config).getConfigId = configId egl config := rfl

/-! ## The translation -/

/-- What a constraint of the guest adds for the host. -/
def added (c : EGLint × EGLint) : List EGLint := if isAndroidOnly c then [] else [(backed c).1, (backed c).2]

theorem flatMap_added (cs : List (EGLint × EGLint)) :
    cs.flatMap added = ((cs.filter fun c => !isAndroidOnly c).map backed).flatMap fun c => [c.1, c.2] := by
  induction cs with
  | nil => rfl
  | cons c cs ih =>
    rw [List.flatMap_cons, ih, added]
    cases h : isAndroidOnly c with
    | false => rw [List.filter_cons_of_pos (by simp [h])]; rfl
    | true => rw [List.filter_cons_of_neg (by simp [h])]; rfl

theorem translateAttribs_eq (attribs : List EGLint) (acc : List EGLint) (hasSurfaceType : Bool) :
    translateAttribs attribs acc hasSurfaceType = (constraints attribs).map fun cs =>
      (acc ++ cs.flatMap added, hasSurfaceType || cs.any fun c => c.1 = EGL_SURFACE_TYPE) := by
  induction attribs using constraints.induct generalizing acc hasSurfaceType with
  | case1 => rfl
  | case2 =>
    rw [translateAttribs, if_pos rfl, constraints, if_pos rfl]
    simp
  | case3 name h =>
    rw [translateAttribs, if_neg h, constraints, if_neg h]
    rfl
  | case4 value rest =>
    rw [translateAttribs, if_pos rfl, constraints, if_pos rfl]
    simp
  | case5 name value rest h ih =>
    rw [translateAttribs, if_neg h, constraints, if_neg h, Option.map_map]
    have hand : isAndroidOnly (name, value) = true ↔
        name = EGL_RECORDABLE_ANDROID ∨ name = EGL_FRAMEBUFFER_TARGET_ANDROID := decide_eq_true_iff
    by_cases hdropped : name = EGL_RECORDABLE_ANDROID ∨ name = EGL_FRAMEBUFFER_TARGET_ANDROID
    · have hsurface : name ≠ EGL_SURFACE_TYPE := by rcases hdropped with rfl | rfl <;> decide
      have hadded : added (name, value) = [] := if_pos (hand.mpr hdropped)
      rw [if_pos hdropped, ih]
      simp [Function.comp_def, hadded, hsurface]
    · have hadded : added (name, value) = [(backed (name, value)).1, (backed (name, value)).2] :=
        if_neg fun h => hdropped (hand.mp h)
      rw [if_neg hdropped]
      by_cases hsurface : name = EGL_SURFACE_TYPE
      · have hbacked : backed (name, value) = (name, EGL_PBUFFER_BIT) := if_pos hsurface
        rw [if_pos hsurface, ih]
        simp only [Function.comp_def, List.flatMap_cons, List.any_cons, hadded, hbacked, decide_eq_true hsurface,
          Bool.true_or, Bool.or_true, List.append_assoc]
      · have hbacked : backed (name, value) = (name, value) := if_neg hsurface
        rw [if_neg hsurface, ih]
        simp [Function.comp_def, hadded, hbacked, hsurface]

theorem hostAttribs_eq (attribs : List EGLint) : hostAttribs attribs = (constraints attribs).map hostQuery := by
  rw [hostAttribs, translateAttribs_eq, Option.map_map]
  congr 1
  funext cs
  show (if (false || cs.any fun c => c.1 = EGL_SURFACE_TYPE) then [] ++ cs.flatMap added
    else [] ++ cs.flatMap added ++ [EGL_SURFACE_TYPE, EGL_PBUFFER_BIT]) ++ [EGL_NONE] = hostQuery cs
  rw [List.nil_append, flatMap_added, Bool.false_or, hostQuery, hostConstraints]
  split_ifs
  · rfl
  · rw [List.flatMap_append]
    rfl

/-- The array ends when there is an `EGL_NONE` in the place of an attribute. -/
theorem exists_constraints_iff (attribs : List EGLint) :
    (∃ cs, constraints attribs = some cs) ↔ ∃ i, attribs[2 * i]? = some EGL_NONE := by
  induction attribs using constraints.induct with
  | case1 => simp [constraints]
  | case2 => exact ⟨fun _ => ⟨0, rfl⟩, fun _ => ⟨[], if_pos rfl⟩⟩
  | case3 name h =>
    rw [constraints, if_neg h]
    refine ⟨fun ⟨_, hcs⟩ => (Option.some_ne_none _ hcs.symm).elim, ?_⟩
    rintro ⟨i, hi⟩
    cases i with
    | zero => exact absurd (Option.some.inj hi) h
    | succ i => simp [Nat.mul_succ] at hi
  | case4 value rest => exact ⟨fun _ => ⟨0, rfl⟩, fun _ => ⟨[], if_pos rfl⟩⟩
  | case5 name value rest h ih =>
    rw [constraints, if_neg h]
    have hmap : (∃ cs, (constraints rest).map ((name, value) :: ·) = some cs) ↔ ∃ cs, constraints rest = some cs := by
      simp only [← Option.isSome_iff_exists, Option.isSome_map]
    rw [hmap, ih]
    constructor
    · rintro ⟨i, hi⟩
      exact ⟨i + 1, hi⟩
    · rintro ⟨i, hi⟩
      cases i with
      | zero => exact absurd (Option.some.inj hi) h
      | succ i => exact ⟨i, hi⟩

/-! ## The search -/

variable (egl list) in
def indices (configs : List κ) : List Nat := configs.filterMap (index egl list)

/-- One step of the search. -/
theorem matchConfigs_cons {configs : Bool} {configsSize : EGLint} {config : κ} {rest : List κ} {c : Choice}
    (hgo : ¬(configs ∧ 0 < configsSize.toInt ∧ configsSize.toInt ≤ c.result)) :
    list.matchConfigs egl configs configsSize (config :: rest) c =
      match index egl list config with
      | none => list.matchConfigs egl configs configsSize rest c
      | some k =>
        list.matchConfigs egl configs configsSize rest
          { result := c.result + 1
            writes :=
              if configs ∧ (c.result : Int) < configsSize.toInt then c.writes ++ [(c.result, k)] else c.writes } := by
  rw [matchConfigs, if_neg hgo, index]
  cases isCompatibleHostConfig egl config with
  | false => rfl
  | true => rfl

/-- Where there is nothing to write to, the search counts. -/
theorem matchConfigs_counting {configs : Bool} {configsSize : EGLint} (h : configs = true → configsSize.toInt ≤ 0)
    (answer : List κ) (c : Choice) : list.matchConfigs egl configs configsSize answer c =
      ⟨c.result + (indices egl list answer).length, c.writes⟩ := by
  induction answer generalizing c with
  | nil => rfl
  | cons config rest ih =>
    have hgo : ¬(configs ∧ 0 < configsSize.toInt ∧ configsSize.toInt ≤ c.result) := by
      rintro ⟨hc, hpos, -⟩
      exact absurd (h hc) (Int.not_le.mpr hpos)
    have hwrite : ¬(configs ∧ (c.result : Int) < configsSize.toInt) := by
      rintro ⟨hc, hlt⟩
      have := h hc
      omega
    rw [matchConfigs_cons hgo, indices, List.filterMap_cons]
    cases index egl list config with
    | none => exact ih c
    | some k =>
      dsimp only
      rw [if_neg hwrite, ih, List.length_cons, indices, Nat.add_right_comm, Nat.add_assoc]

/-- Otherwise it writes as many indices as there is room for. -/
theorem matchConfigs_writing {configsSize : EGLint} {n : Nat} (hn : configsSize.toInt = n) (hpos : 0 < n)
    (answer : List κ) (c : Choice) (hle : c.result ≤ n) : list.matchConfigs egl true configsSize answer c =
      ⟨c.result + ((indices egl list answer).take (n - c.result)).length,
        c.writes ++ (((indices egl list answer).take (n - c.result)).zipIdx c.result).map Prod.swap⟩ := by
  induction answer generalizing c with
  | nil => simp [matchConfigs, indices]
  | cons config rest ih =>
    rcases Nat.eq_or_lt_of_le hle with hfull | hlt
    · -- there is no room left
      have hstop : (true : Bool) ∧ 0 < configsSize.toInt ∧ configsSize.toInt ≤ c.result := by
        rw [hn, hfull]
        exact ⟨rfl, Int.natCast_pos.mpr hpos, Int.le_refl _⟩
      rw [matchConfigs, if_pos hstop, hfull, Nat.sub_self, List.take_zero]
      exact congrArg₂ Choice.mk hfull (List.append_nil _).symm
    · have hgo : ¬((true : Bool) ∧ 0 < configsSize.toInt ∧ configsSize.toInt ≤ c.result) := by
        rw [hn]
        omega
      have hwrite : (true : Bool) ∧ (c.result : Int) < configsSize.toInt := by
        rw [hn]
        exact ⟨rfl, Int.ofNat_lt.mpr hlt⟩
      rw [matchConfigs_cons hgo, indices, List.filterMap_cons]
      cases index egl list config with
      | none => exact ih c hle
      | some k =>
        dsimp only
        rw [if_pos hwrite, ih ⟨c.result + 1, _⟩ hlt, show n - c.result = n - (c.result + 1) + 1 by omega,
          List.take_succ_cons, List.zipIdx_cons, List.length_cons, indices]
        simp [Nat.add_assoc, Nat.add_comm]

/-! ## The answer -/

theorem map_some_filterMap {α β : Type} (f : α → Option β) (l : List α) :
    (l.filterMap f).map some = (l.filter fun a => (f a).isSome).map f := by
  induction l with
  | nil => rfl
  | cons a l ih =>
    cases h : f a with
    | none => rw [List.filterMap_cons_none h, List.filter_cons_of_neg (by simp [h]), ih]
    | some b =>
      rw [List.filterMap_cons_some h, List.filter_cons_of_pos (by simp [h]), List.map_cons, List.map_cons, ih, h]

theorem index_eq_some {config : κ} {k : Nat} (h : index egl list config = some k) :
    ∃ c, list.mConfigs[k]? = some c ∧ c.getConfigId = configId egl config := by
  obtain ⟨hcompatible, hindex⟩ := Option.ite_none_right_eq_some.mp h
  obtain ⟨hk, hid, -⟩ := List.findIdx?_eq_some_iff_getElem.mp hindex
  exact ⟨_, List.getElem?_eq_getElem hk, of_decide_eq_true hid⟩

/-- Two configs that the host returns have one index exactly when they have one id. -/
theorem nodup_indices_iff (n : Nat) (answer : List κ) : ((indices egl list answer).take n).Nodup ↔
    (((answer.filter fun config => (index egl list config).isSome).take n).map (configId egl)).Nodup := by
  have hsome : ((indices egl list answer).take n).map some =
      ((answer.filter fun config => (index egl list config).isSome).take n).map (index egl list) := by
    rw [List.map_take, indices, map_some_filterMap, List.map_take]
  rw [← List.nodup_map_iff fun _ _ => Option.some.inj, hsome]
  have hmem : ∀ config ∈ (answer.filter fun config => (index egl list config).isSome).take n,
      ∃ k, index egl list config = some k := fun config h =>
    Option.isSome_iff_exists.mp (List.mem_filter.mp (List.mem_of_mem_take h)).2
  have hiff : ∀ a ∈ (answer.filter fun config => (index egl list config).isSome).take n,
      ∀ b ∈ (answer.filter fun config => (index egl list config).isSome).take n,
      (index egl list a = index egl list b ↔ configId egl a = configId egl b) := by
    intro a ha b hb
    obtain ⟨k, hk⟩ := hmem a ha
    obtain ⟨m, hm⟩ := hmem b hb
    constructor
    · intro heq
      obtain ⟨c, hc, hid⟩ := index_eq_some hk
      obtain ⟨d, hd, hid'⟩ := index_eq_some (heq ▸ hk : index egl list b = some k)
      rw [← hid, ← hid', Option.some.inj (hc.symm.trans hd)]
    · intro heq
      obtain ⟨-, hindex⟩ := Option.ite_none_right_eq_some.mp hk
      obtain ⟨-, hindex'⟩ := Option.ite_none_right_eq_some.mp hm
      rw [hk, hm, ← hindex, ← hindex', heq]
  rw [List.Nodup, List.pairwise_map, List.Nodup, List.pairwise_map]
  exact List.Pairwise.iff_of_mem fun ha hb => not_congr (hiff _ ha _ hb)

theorem toInt_toInt32 (n : UInt32) :
    n.toInt32.toInt = if n.toNat < 2 ^ 31 then (n.toNat : Int) else (n.toNat : Int) - 2 ^ 32 := by
  have hcond : n.toInt32.toInt = if 2 * n.toNat < 2 ^ 32 then (n.toNat : Int) else (n.toNat : Int) - (2 ^ 32 : Nat) :=
    BitVec.toInt_eq_toNat_cond n.toBitVec
  rw [hcond]
  split_ifs <;> omega

variable {attribs : List UInt8} {configs : Bool} {configs_size : UInt32} {cs : List (EGLint × EGLint)}

theorem answered_empty (renderer : Option RendererConfigList) :
    Answered egl renderer attribs configs configs_size {} where
  places := rfl
  length_le := Nat.zero_le _
  result _ _ := rfl
  distinct := List.nodup_nil
  entries _ hk := absurd hk List.not_mem_nil

/-- What is written comes from the host, whatever it is. -/
theorem entries_of_mem_indices {k : Nat} (hends : constraints (words attribs) = some cs)
    (hk : k ∈ indices egl list (answers egl cs)) : ∃ l ∈ some list, ∃ config, l.mConfigs[k]? = some config ∧
      ∃ cs, constraints (words attribs) = some cs ∧ config.getConfigId ∈ (answers egl cs).map (configId egl) := by
  obtain ⟨config, hconfig, hindex⟩ := List.mem_filterMap.mp hk
  obtain ⟨c, hc, hid⟩ := index_eq_some hindex
  exact ⟨list, rfl, c, hc, cs, hends, List.mem_map.mpr ⟨config, hconfig, hid.symm⟩⟩

theorem indices_eq_nil_iff : indices egl list (answers egl cs) = [] ↔ usable egl list cs = [] := by
  rw [indices, List.filterMap_eq_nil_iff, usable, List.filter_eq_nil_iff]
  simp only [Option.not_isSome_iff_eq_none]

/-- With a place for some entries, only two configs of one id could go wrong. -/
theorem answered_writing_iff (hends : constraints (words attribs) = some cs) (hpos : 0 < configs_size.toNat)
    (hlt : configs_size.toNat < 2 ^ 31) :
    Answered egl (some list) attribs true configs_size
        (list.matchConfigs egl true configs_size.toInt32 (answers egl cs) {}) ↔
      (((usable egl list cs).take configs_size.toNat).map (configId egl)).Nodup := by
  have htoInt : configs_size.toInt32.toInt = (configs_size.toNat : Int) := by rw [toInt_toInt32, if_pos hlt]
  rw [matchConfigs_writing htoInt hpos _ _ (Nat.zero_le _), usable, ← nodup_indices_iff, Nat.sub_zero, List.nil_append]
  have hfst : ((((indices egl list (answers egl cs)).take configs_size.toNat).zipIdx 0).map Prod.swap).map Prod.fst =
      List.range ((indices egl list (answers egl cs)).take configs_size.toNat).length := by
    rw [List.map_map, List.range_eq_range']
    exact List.zipIdx_map_snd ..
  have hsnd : ((((indices egl list (answers egl cs)).take configs_size.toNat).zipIdx 0).map Prod.swap).map Prod.snd =
      (indices egl list (answers egl cs)).take configs_size.toNat := by
    rw [List.map_map]
    exact List.zipIdx_map_fst ..
  have hlength : ((((indices egl list (answers egl cs)).take configs_size.toNat).zipIdx 0).map Prod.swap).length =
      ((indices egl list (answers egl cs)).take configs_size.toNat).length := by
    rw [List.length_map, List.length_zipIdx]
  constructor
  · intro h
    exact hsnd ▸ h.distinct
  · intro h
    refine ⟨by rw [hfst, hlength], ?_, fun _ _ => ?_, by rw [hsnd]; exact h, fun k hk => ?_⟩
    · rw [hlength]
      exact List.length_take_le ..
    · rw [hlength]
      exact Nat.zero_add _
    · rw [hsnd] at hk
      exact entries_of_mem_indices hends (List.mem_of_mem_take hk)

/-- Without one, nothing is written. -/
theorem answered_counting_iff (h : configs = true → configs_size.toInt32.toInt ≤ 0) :
    Answered egl (some list) attribs configs configs_size
        (list.matchConfigs egl configs configs_size.toInt32 (answers egl cs) {}) ↔
      (0 < configs_size → configs = true → usable egl list cs = []) := by
  rw [matchConfigs_counting h]
  constructor
  · intro ha hpos hconfigs
    have hlength : 0 + (indices egl list (answers egl cs)).length = 0 := ha.result hpos hconfigs
    exact indices_eq_nil_iff.mp (List.length_eq_zero_iff.mp ((Nat.zero_add _).symm.trans hlength))
  · intro hempty
    refine ⟨rfl, Nat.zero_le _, fun hpos hconfigs => ?_, List.nodup_nil, fun k hk => absurd hk List.not_mem_nil⟩
    show 0 + (indices egl list (answers egl cs)).length = 0
    rw [indices_eq_nil_iff.mpr (hempty hpos hconfigs)]
    rfl

theorem answered_iff_sensible (hends : constraints (words attribs) = some cs) :
    Answered egl (some list) attribs configs configs_size
        (list.matchConfigs egl configs configs_size.toInt32 (answers egl cs) {}) ↔
      Sensible egl list attribs configs configs_size cs := by
  by_cases hcounts : configs = true → configs_size.toInt32.toInt ≤ 0
  · -- the size is zero, or it is taken for a negative number
    rw [answered_counting_iff hcounts]
    constructor
    · intro h
      have hcases : configs = true → usable egl list cs = [] ∨ configs_size.toNat = 0 := fun hconfigs =>
        (Nat.eq_zero_or_pos configs_size.toNat).symm.imp_left fun hpos => h (UInt32.lt_iff_toNat_lt.mpr hpos) hconfigs
      refine ⟨hends, fun hconfigs => (hcases hconfigs).imp_right fun h0 => by omega, fun hconfigs => ?_⟩
      rcases hcases hconfigs with hnil | h0
      · rw [hnil, List.take_nil]
        exact List.nodup_nil
      · rw [h0, List.take_zero]
        exact List.nodup_nil
    · intro h hpos hconfigs
      refine (h.room hconfigs).resolve_right fun hlt => ?_
      have hle := hcounts hconfigs
      rw [toInt_toInt32, if_pos hlt] at hle
      have hpos' : 0 < configs_size.toNat := UInt32.lt_iff_toNat_lt.mp hpos
      omega
  · obtain ⟨rfl, hpos⟩ := Classical.not_imp.mp hcounts
    rw [toInt_toInt32] at hpos
    have hlt : configs_size.toNat < 2 ^ 31 := by
      by_contra hge
      rw [if_neg hge] at hpos
      have := configs_size.toNat_lt
      omega
    rw [if_pos hlt] at hpos
    rw [answered_writing_iff hends (by omega) hlt]
    exact ⟨fun h => ⟨hends, fun _ => .inr hlt, fun _ => h⟩, fun h => h.distinct rfl⟩

theorem chooseConfig_eq {hostConfigs : List κ} (h : egl.eglGetConfigs = some hostConfigs) (attribs : List EGLint)
    (configsSize : EGLint) : list.chooseConfig egl attribs configs configsSize =
      (constraints attribs).map fun cs => list.matchConfigs egl configs configsSize (answers egl cs) {} := by
  have hanswers : ∀ cs, matchedConfigs egl hostConfigs (hostQuery cs) = answers egl cs := fun cs => by
    rw [answers, h, Option.getD_some]
  rw [chooseConfig, h]
  dsimp only
  rw [hostAttribs_eq, Option.map_map]
  exact Option.map_congr fun cs _ => congrArg (list.matchConfigs egl configs configsSize · {}) (hanswers cs)

/-- The query is answered, inside the array, exactly when the host is asked something that makes sense. -/
theorem rcChooseConfig_answered_iff (egl : EglHost κ) (renderer : Option RendererConfigList) (attribs : List UInt8)
    (configs : Bool) (configs_size : UInt32) :
    (∃ c, rcChooseConfig egl renderer attribs configs configs_size = some c ∧
        Answered egl renderer attribs configs configs_size c) ↔
      Handled egl renderer attribs configs configs_size := by
  cases renderer with
  | none => exact ⟨fun _ list hlist => absurd hlist (Option.not_mem_none list), fun _ => ⟨{}, rfl, answered_empty none⟩⟩
  | some list =>
    by_cases hattribs : attribs = []
    · exact ⟨fun _ _ _ hne => absurd hattribs hne, fun _ => ⟨{}, if_pos hattribs, answered_empty _⟩⟩
    · have hchoose : rcChooseConfig egl (some list) attribs configs configs_size =
          list.chooseConfig egl (words attribs) configs configs_size.toInt32 := if_neg hattribs
      rw [hchoose]
      cases hconfigs : egl.eglGetConfigs with
      | none =>
        have hempty : list.chooseConfig egl (words attribs) configs configs_size.toInt32 = some {} := by
          rw [chooseConfig, hconfigs]
        exact ⟨fun _ _ _ _ hne => absurd hconfigs hne, fun _ => ⟨{}, hempty, answered_empty _⟩⟩
      | some hostConfigs =>
        rw [chooseConfig_eq hconfigs]
        constructor
        · rintro ⟨c, hc, hanswered⟩ list' hlist - -
          obtain ⟨cs, hends, rfl⟩ := Option.map_eq_some_iff.mp hc
          cases hlist
          exact ⟨cs, (answered_iff_sensible hends).mp hanswered⟩
        · intro h
          have hsome : egl.eglGetConfigs ≠ none := by rw [hconfigs]; exact Option.some_ne_none _
          obtain ⟨cs, hsensible⟩ := h list rfl hattribs hsome
          rw [hsensible.ends, Option.map_some]
          exact ⟨_, rfl, (answered_iff_sensible hsensible.ends).mpr hsensible⟩

theorem nodup_answers (h : egl.Lawful) (cs : List (EGLint × EGLint)) : ((answers egl cs).map (configId egl)).Nodup := by
  rw [answers, matchedConfigs]
  cases hconfigs : egl.eglChooseConfig (hostQuery cs) with
  | none =>
    rw [Option.getD_none, List.take_nil]
    exact List.nodup_nil
  | some configs => exact (h _ configs hconfigs).sublist ((List.take_sublist _ _).map _)

/-- With a host that does as EGL says, it is for the guest to end its array and to give the size of another. -/
theorem handled_of_ends (h : egl.Lawful) (hends : ∃ i, (words attribs)[2 * i]? = some EGL_NONE)
    (hsize : configs_size.toNat < 2 ^ 31) (renderer : Option RendererConfigList) :
    Handled egl renderer attribs configs configs_size := by
  rintro list - - -
  obtain ⟨cs, hcs⟩ := (exists_constraints_iff _).mpr hends
  have hsublist : ((usable egl list cs).take configs_size.toNat).Sublist (answers egl cs) :=
    (List.take_sublist _ _).trans List.filter_sublist
  exact ⟨cs, hcs, fun _ => .inr hsize, fun _ => (nodup_answers h cs).sublist (hsublist.map _)⟩

/-- A host without configs. -/
def bareHost : EglHost Unit := ⟨some [], fun _ _ => 0, fun _ => some []⟩

/-- The guest asks for a red size of 8, and its array has no `EGL_NONE`. -/
theorem rcChooseConfig_not_answered : ¬∀ (egl : EglHost Unit) (renderer : Option RendererConfigList)
    (attribs : List UInt8) (configs : Bool) (configs_size : UInt32),
    ∃ c, rcChooseConfig egl renderer attribs configs configs_size = some c ∧
      Answered egl renderer attribs configs configs_size c := by
  intro h
  have hnone : rcChooseConfig bareHost (some (.new bareHost)) [0x24, 0x30, 0, 0, 8, 0, 0, 0] true 1 = none := rfl
  obtain ⟨c, hc, -⟩ := h bareHost (some (.new bareHost)) [0x24, 0x30, 0, 0, 8, 0, 0, 0] true 1
  exact Option.some_ne_none c (hc.symm.trans hnone)

end AnboxReboxed.Emugl
