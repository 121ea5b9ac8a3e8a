import AnboxReboxed.Graphics.MultiWindowComposerStrategy
import AnboxReboxed.Graphics.Proofs.CoordinateTransformProofs
import AnboxReboxed.Wm.Proofs.MultiWindowManagerProofs
import Mathlib.Data.List.Induction

/-!
# Proofs: layers and windows

The first loop gives a window the layers from whose names `sscanf` reads its task. The second one keeps the sizes and
the distances, and starts at the origin of the layer that the areas in `int` lead to.
-/

namespace AnboxReboxed.Graphics

open AnboxReboxed.Lib AnboxReboxed.Emugl AnboxReboxed.Wm

/-! ## Names -/

theorem storeInt_of_inInt {i : Int} (h : InInt i) : storeInt i = i := by
  have hlong : clamp i (-2 ^ 63) (2 ^ 63 - 1) = i := by
    unfold InInt at h
    unfold clamp
    rw [if_neg (by omega), if_neg (by omega)]
  rw [storeInt, hlong, toInt_of_inInt h]

namespace MultiWindowComposerStrategy

theorem c_str_surface_name (t : Int) : c_str (surface_name t) = surface_name t := by
  have hpre : ∀ c ∈ surface_text, decide (c ≠ 0) = true := by decide +kernel
  refine List.takeWhile_eq_self_iff.mpr fun c hc => ?_
  rcases List.mem_append.mp hc with hc | hc
  · exact hpre c hc
  · rcases (Scanf.isDecimal_toString t).forall_mem c hc with rfl | rfl | hdigit
    · rfl
    · rfl
    · refine decide_eq_true ?_
      rintro rfl
      cases hdigit

/-- The number of a task is read from its name. -/
theorem task_id_surface_name {t : Int} (ht : InInt t) (h0 : t ≠ 0) : task_id (surface_name t) = some t := by
  have hpre : surface_text.isPrefixOf (surface_name t) = true :=
    List.isPrefixOf_iff_prefix.mpr (List.prefix_append _ _)
  unfold task_id
  rw [hpre, c_str_surface_name, surface_name, Scanf.literal_append]
  dsimp only
  rw [Scanf.decimal_self (Scanf.isDecimal_toString t)]
  dsimp only
  rw [storeInt_of_inInt ht, if_neg h0]
  rfl

theorem task_id_ne_zero {name : List UInt8} {t : Int} (h : task_id name = some t) : t ≠ 0 := by
  unfold task_id at h
  split at h
  · cases h
  · split at h
    · split at h
      · split_ifs at h with h0
        obtain rfl := Option.some.inj h
        exact h0
      · cases h
    · cases h

variable {wm_ : MultiWindowManager} {t : Int} {w : Window}

/-! ## The first loop -/

theorem find?_collect (hm : wm_.Owned) (hw : wm_.windows_.find? t = some w) (win_layers : WindowLayers) (r : Layer) :
    ((collect wm_ win_layers r).find? w.id).getD [] =
      (win_layers.find? w.id).getD [] ++ if task_id r.name = some w.task then [r] else [] := by
  have htask : w.task = t := hm.keyed hw
  unfold collect
  cases hname : task_id r.name with
  | none => simp
  | some task =>
    dsimp only
    rw [hm.find_window_for_task_eq]
    by_cases heq : task = t
    · subst heq
      rw [hw]
      dsimp only
      rw [if_pos (by rw [htask])]
      cases hlist : win_layers.find? w.id with
      | none => simp
      | some renderables => simp
    · have hne : ¬some task = some w.task := fun h => heq ((Option.some.inj h).trans htask)
      rw [if_neg hne, List.append_nil]
      cases hw' : wm_.windows_.find? task with
      | none => rfl
      | some w' =>
        have hid : w.id ≠ w'.id := fun h => heq (hm.distinct hw' hw h.symm)
        dsimp only
        cases win_layers.find? w'.id with
        | none =>
          dsimp only
          rw [OrdMap.find?_insert, if_neg hid]
        | some renderables =>
          dsimp only
          rw [OrdMap.find?_insert, if_neg hid]

/-- A window gets the layers whose names are read as its task. -/
theorem find?_foldl_collect (hm : wm_.Owned) (hw : wm_.windows_.find? t = some w) (renderables : List Layer) :
    ((renderables.foldl (collect wm_) ∅).find? w.id).getD [] =
      renderables.filter fun r => task_id r.name = some w.task := by
  induction renderables using List.reverseRecOn with
  | nil => simp
  | append_singleton l r ih =>
    rw [List.foldl_append, List.filter_append, List.foldl_cons, List.foldl_nil, find?_collect hm hw, ih]
    congr 1
    split_ifs with hname <;> simp [hname]

/-- A list is kept for a window only. -/
theorem has_of_mem_collect (hm : wm_.Owned) (renderables : List Layer) :
    ∀ id ∈ renderables.foldl (collect wm_) ∅, wm_.Has id := by
  refine List.foldlRecOn (motive := fun win_layers : WindowLayers => ∀ id ∈ win_layers, wm_.Has id) _ _ ?_ ?_
  · intro id h
    exact absurd h (by simp)
  · intro win_layers ih r _ id hid
    unfold collect at hid
    split at hid
    · exact ih id hid
    · rename_i task _
      split at hid
      · exact ih id hid
      · rename_i w hw
        rw [hm.find_window_for_task_eq] at hw
        have hcases : id = w.id ∨ id ∈ win_layers := by
          split at hid <;> exact OrdMap.mem_insert.mp hid
        rcases hcases with rfl | hid
        · exact ⟨task, w, hw, rfl⟩
        · exact ih id hid

/-! ## The second loop -/

theorem lookup_map {κ α β : Type} [BEq κ] (f : α → β) (l : List (κ × α)) (k : κ) :
    (l.map fun e => (e.1, f e.2)).lookup k = (l.lookup k).map f := by
  induction l with
  | nil => rfl
  | cons e l ih =>
    rw [List.map_cons, List.lookup_cons, List.lookup_cons, ih]
    cases k == e.1 <;> rfl

theorem exists_of_mem_zip_map {α β : Type} {f : α → β} {l : List α} {p : α × β} (h : p ∈ l.zip (l.map f)) :
    ∃ a ∈ l, p = (a, f a) := by
  induction l with
  | nil => exact absurd h List.not_mem_nil
  | cons a l ih =>
    rw [List.map_cons, List.zip_cons_cons] at h
    rcases List.mem_cons.mp h with rfl | h
    · exact ⟨a, List.mem_cons_self, rfl⟩
    · obtain ⟨b, hb, hp⟩ := ih h
      exact ⟨b, List.mem_cons_of_mem _ hb, hp⟩

/-- What a window is given. -/
theorem given_process_layers (hm : wm_.Owned) (hw : wm_.windows_.find? t = some w) (renderables : List Layer) :
    given (process_layers wm_ renderables) w =
      final_renderables (renderables.filter fun r => task_id r.name = some w.task) := by
  have hfind := find?_foldl_collect hm hw renderables
  unfold given process_layers
  rw [lookup_map, ← hfind]
  show (Option.map _ (OrdMap.find? _ w.id)).getD [] = _
  cases (renderables.foldl (collect wm_) ∅).find? w.id with
  | none => rfl
  | some l => rfl

/-- The sums for the new rectangle of a layer fit. -/
def Fits (frame : Emugl.Rect) (r : Layer) : Prop :=
  InInt (r.screen_position.left - frame.left + r.crop.left) ∧
    InInt (r.screen_position.top - frame.top + r.crop.top) ∧
    InInt (r.screen_position.right - frame.left + r.crop.left) ∧
    InInt (r.screen_position.bottom - frame.top + r.crop.top)

theorem place_eq {frame : Emugl.Rect} {r : Layer} (h : Fits frame r) :
    (place frame r).screen_position =
      ⟨r.screen_position.left - frame.left + r.crop.left, r.screen_position.top - frame.top + r.crop.top,
        r.screen_position.right - frame.left + r.crop.left, r.screen_position.bottom - frame.top + r.crop.top⟩ := by
  unfold place
  rw [toInt_of_inInt h.1, toInt_of_inInt h.2.1, toInt_of_inInt h.2.2.1, toInt_of_inInt h.2.2.2]

theorem width_place {frame : Emugl.Rect} {r : Layer} (h : Fits frame r) :
    (place frame r).screen_position.width = r.screen_position.width := by
  unfold Rect.width
  rw [place_eq h]
  dsimp only
  omega

theorem height_place {frame : Emugl.Rect} {r : Layer} (h : Fits frame r) :
    (place frame r).screen_position.height = r.screen_position.height := by
  unfold Rect.height
  rw [place_eq h]
  dsimp only
  omega

theorem content_place {frame : Emugl.Rect} {r : Layer} (h : Fits frame r) : content (place frame r) = content r := by
  unfold content
  rw [width_place h, height_place h]
  rfl

theorem area_place {frame : Emugl.Rect} {r : Layer} (h : Fits frame r) : area (place frame r) = area r := by
  unfold area
  rw [width_place h, height_place h]

/-- A layer comes to its own crop when it starts where the window does. -/
theorem sameOrigin_place {frame : Emugl.Rect} {r : Layer} (h : Fits frame r) :
    (place frame r).screen_position.SameOrigin (place frame r).crop ↔ r.screen_position.SameOrigin frame := by
  unfold Rect.SameOrigin
  rw [place_eq h]
  show r.screen_position.left - frame.left + r.crop.left = r.crop.left ∧
    r.screen_position.top - frame.top + r.crop.top = r.crop.top ↔ _
  constructor <;> rintro ⟨h1, h2⟩ <;> constructor <;> omega

/-- The frame of the window is that of the last layer with the greatest area in `int`. -/
theorem new_window_frame_cases (l : List Layer) :
    (new_window_frame l = .Invalid ∧ ∀ r ∈ l, layer_area r < -1) ∨
      ∃ r, LastMax.IsLast layer_area l r ∧ -1 ≤ layer_area r ∧ new_window_frame l = r.screen_position := by
  unfold new_window_frame
  rcases LastMax.foldl_keep (f := layer_area) (g := Layer.screen_position) l (-1, .Invalid) with
    ⟨heq, hall⟩ | ⟨r, hr, hle, heq⟩
  · exact .inl ⟨by rw [heq], hall⟩
  · exact .inr ⟨r, hr, hle, by rw [heq]⟩

theorem sameReference_iff (l : List Layer) :
    SameReference l ↔ ∀ r, LastMax.IsLast area l r → r.screen_position.SameOrigin (new_window_frame l) := by
  refine forall₂_congr fun r hr => ?_
  rcases new_window_frame_cases l with ⟨heq, hall⟩ | ⟨r', hr', hle, heq⟩
  · rw [heq]
    constructor
    · exact fun h => h.2 hall
    · exact fun h => ⟨fun r'' hr'' hle => absurd (hall r'' hr''.mem) (not_lt.mpr hle), fun _ => h⟩
  · rw [heq]
    constructor
    · exact fun h => h.1 r' hr' hle
    · refine fun h => ⟨fun r'' hr'' _ => ?_, fun hall => absurd (hall r' hr'.mem) (not_lt.mpr hle)⟩
      rw [hr''.unique hr']
      exact h

/-! ## Both loops -/

/-- The layers from whose names a task is read. -/
def readAs (task : Int) (renderables : List Layer) : List Layer :=
  renderables.filter fun r => task_id r.name = some task

/-- What `PlainNames` says about one name. -/
theorem plain_iff {task : Int} (ht : InInt task) (name : List UInt8) :
    ((task_id name = some task → name = surface_name task) ∧ (task = 0 → name ≠ surface_name 0)) ↔
      (task_id name = some task ↔ name = surface_name task) := by
  constructor
  · rintro ⟨hplain, hzero⟩
    refine ⟨hplain, ?_⟩
    rintro rfl
    by_cases h0 : task = 0
    · exact absurd (by rw [h0]) (hzero h0)
    · exact task_id_surface_name ht h0
  · intro h
    refine ⟨h.mp, ?_⟩
    rintro rfl hname
    exact task_id_ne_zero (h.mpr hname) rfl

theorem readAs_eq_layersOf {renderables : List Layer} {task : Int}
    (h : ∀ r ∈ renderables, (task_id r.name = some task ↔ r.name = surface_name task)) :
    readAs task renderables = layersOf task renderables :=
  List.filter_congr fun r hr => decide_eq_decide.mpr (h r hr)

/-- Layers are the same but for their places only when the same ones were chosen: both choices are by the name. -/
theorem content_eq_iff {renderables out : List Layer} {task : Int}
    (hout : out.map content = (readAs task renderables).map content) :
    out.map content = (layersOf task renderables).map content ↔
      ∀ r ∈ renderables, (task_id r.name = some task ↔ r.name = surface_name task) := by
  rw [hout]
  constructor
  · intro heq r hr
    have hnames : (readAs task renderables).map Layer.name = (layersOf task renderables).map Layer.name := by
      have := congrArg (List.map Prod.fst) heq
      rwa [List.map_map, List.map_map] at this
    constructor
    · intro hread
      have hmem : r.name ∈ (readAs task renderables).map Layer.name :=
        List.mem_map_of_mem (List.mem_filter.mpr ⟨hr, decide_eq_true hread⟩)
      rw [hnames] at hmem
      obtain ⟨r', hr', hname⟩ := List.mem_map.mp hmem
      rw [← hname]
      exact of_decide_eq_true (List.mem_filter.mp hr').2
    · intro hname
      have hmem : r.name ∈ (layersOf task renderables).map Layer.name :=
        List.mem_map_of_mem (List.mem_filter.mpr ⟨hr, decide_eq_true hname⟩)
      rw [← hnames] at hmem
      obtain ⟨r', hr', hname'⟩ := List.mem_map.mp hmem
      rw [← hname']
      exact of_decide_eq_true (List.mem_filter.mp hr').2
  · intro h
    rw [readAs_eq_layersOf h]

theorem given_eq {renderables : List Layer} (hm : wm_.Owned) (hw : wm_.windows_.find? t = some w)
    (hnames : ∀ r ∈ renderables, (task_id r.name = some w.task ↔ r.name = surface_name w.task)) :
    given (process_layers wm_ renderables) w =
      (layersOf w.task renderables).map (place (new_window_frame (layersOf w.task renderables))) := by
  rw [given_process_layers hm hw, ← readAs_eq_layersOf hnames]
  rfl

section Window

variable {renderables : List Layer} (hm : wm_.Owned) (hw : wm_.windows_.find? t = some w)
  (hd : InRange wm_ renderables)
include hm hw hd

theorem fits_of_inRange :
    ∀ r ∈ readAs w.task renderables, Fits (new_window_frame (readAs w.task renderables)) r := by
  have hfind := find?_foldl_collect hm hw renderables
  intro r hr
  cases hlist : (renderables.foldl (collect wm_) ∅).find? w.id with
  | none =>
    rw [hlist] at hfind
    rw [readAs, ← hfind] at hr
    exact absurd hr List.not_mem_nil
  | some l =>
    rw [hlist] at hfind
    rw [readAs, ← hfind] at hr ⊢
    exact hd.sums (w.id, l) (OrdMap.find?_eq_some_iff.mp hlist) r hr

/-- The layers of a window are those with its name exactly when all names that are read as its task are its name. -/
theorem layers_iff :
    (given (process_layers wm_ renderables) w).map content = (layersOf w.task renderables).map content ↔
      ∀ r ∈ renderables, (task_id r.name = some w.task ↔ r.name = surface_name w.task) := by
  apply content_eq_iff
  rw [given_process_layers hm hw]
  show ((readAs w.task renderables).map _).map content = _
  rw [List.map_map]
  exact List.map_congr_left fun r hr => content_place (fits_of_inRange hm hw hd r hr)

variable (hnames : ∀ r ∈ renderables, (task_id r.name = some w.task ↔ r.name = surface_name w.task))
include hnames

theorem fits_layersOf :
    ∀ r ∈ layersOf w.task renderables, Fits (new_window_frame (layersOf w.task renderables)) r := by
  rw [← readAs_eq_layersOf hnames]
  exact fits_of_inRange hm hw hd

/-- Every layer is moved by the same distance, apart from its crop. -/
theorem offsets_kept : ∀ p ∈ (layersOf w.task renderables).zip (given (process_layers wm_ renderables) w),
    ∀ q ∈ (layersOf w.task renderables).zip (given (process_layers wm_ renderables) w),
      p.1.crop.SameOrigin q.1.crop →
        p.2.screen_position.left - q.2.screen_position.left = p.1.screen_position.left - q.1.screen_position.left ∧
          p.2.screen_position.top - q.2.screen_position.top = p.1.screen_position.top - q.1.screen_position.top := by
  have hfits := fits_layersOf hm hw hd hnames
  rw [given_eq hm hw hnames]
  intro p hp q hq hcrop
  obtain ⟨r, hr, rfl⟩ := exists_of_mem_zip_map hp
  obtain ⟨r', hr', rfl⟩ := exists_of_mem_zip_map hq
  obtain ⟨hleft, htop⟩ := hcrop
  rw [place_eq (hfits r hr), place_eq (hfits r' hr')]
  dsimp only at hleft htop ⊢
  omega

theorem reference_iff :
    (∀ r, LastMax.IsLast area (given (process_layers wm_ renderables) w) r → r.screen_position.SameOrigin r.crop) ↔
      SameReference (layersOf w.task renderables) := by
  have hfits := fits_layersOf hm hw hd hnames
  rw [given_eq hm hw hnames, sameReference_iff]
  constructor
  · intro h r hr
    have hlast := (LastMax.isLast_map_iff fun r hr => area_place (hfits r hr)).mpr ⟨r, hr, rfl⟩
    exact (sameOrigin_place (hfits r hr.mem)).mp (h _ hlast)
  · intro h r' hr'
    obtain ⟨r, hr, rfl⟩ := (LastMax.isLast_map_iff fun r hr => area_place (hfits r hr)).mp hr'
    exact (sameOrigin_place (hfits r hr.mem)).mpr (h r hr)

end Window

/-- The strategy gives the windows their layers, and gives them faithfully, exactly when the names are plain and the
areas in `int` lead to the right reference. -/
theorem process_layers_faithful_iff {platform_ : Option Platform} (hp : KeepsTask platform_)
    (hm : (managerMachine platform_).Reachable wm_) {renderables : List Layer} (hd : InRange wm_ renderables) :
    Faithful wm_ renderables (process_layers wm_ renderables) ↔
      PlainNames wm_ renderables ∧
        ∀ t w, wm_.windows_.find? t = some w → SameReference (layersOf w.task renderables) := by
  have howned := MultiWindowManager.owned_of_reachable hp hm
  have hplain : ∀ t w, wm_.windows_.find? t = some w →
      ((∀ r ∈ renderables, (task_id r.name = some w.task → r.name = surface_name w.task) ∧
          (w.task = 0 → r.name ≠ surface_name 0)) ↔
        ∀ r ∈ renderables, (task_id r.name = some w.task ↔ r.name = surface_name w.task)) :=
    fun t w hw => forall₂_congr fun r _ => plain_iff (hd.tasks t w hw) r.name
  constructor
  · intro h
    have hnames := fun t w hw => (layers_iff howned hw hd).mp (h.layers t w hw)
    exact ⟨fun t w hw => (hplain t w hw).mpr (hnames t w hw),
      fun t w hw => (reference_iff howned hw hd (hnames t w hw)).mp (h.reference t w hw)⟩
  · rintro ⟨hnames, hreference⟩
    have hiff := fun t w hw => (hplain t w hw).mp (hnames t w hw)
    refine ⟨fun e he => ?_, fun t w hw => ?_, fun t w hw => ?_, fun t w hw => ?_⟩
    · obtain ⟨e', he', rfl⟩ := List.mem_map.mp he
      exact has_of_mem_collect howned renderables e'.1 (OrdMap.mem_of_find? (OrdMap.find?_eq_some_iff.mpr he'))
    · exact (layers_iff howned hw hd).mpr (hiff t w hw)
    · exact offsets_kept howned hw hd (hiff t w hw)
    · exact (reference_iff howned hw hd (hiff t w hw)).mpr (hreference t w hw)

/-- No area that is no `int` is enough for the reference. -/
theorem sameReference_of_areas {l : List Layer} (h : ∀ r ∈ l, InInt r.screen_position.width ∧
    InInt r.screen_position.height ∧ 0 ≤ area r ∧ area r < 2 ^ 31) : SameReference l := by
  have heq : ∀ r ∈ l, area r = layer_area r := by
    intro r hr
    obtain ⟨hwidth, hheight, h0, hlt⟩ := h r hr
    unfold layer_area
    rw [toInt_of_inInt hwidth, toInt_of_inInt hheight]
    exact (toInt_of_inInt ⟨le_trans (by decide) h0, hlt⟩).symm
  intro r hr
  have hr32 := (LastMax.isLast_congr heq).mp hr
  refine ⟨fun r' hr' _ => ?_, fun hall => ?_⟩
  · rw [hr'.unique hr32]
    exact ⟨rfl, rfl⟩
  · have hlow := hall r hr.mem
    rw [← heq r hr.mem] at hlow
    have := (h r hr.mem).2.2.1
    omega

/-! ## A window of one task -/

/-- The manager when the task 1 is shown. -/
def oneWindow : MultiWindowManager :=
  ({} : MultiWindowManager).apply_window_state_update (some MultiWindowManager.hostPlatform)
    { updated := [MultiWindowManager.shown 1], removed := [] }

theorem hostPlatform_keepsTask : KeepsTask (some MultiWindowManager.hostPlatform) := by
  rintro p hp n task frame title c hc
  obtain rfl := Option.some.inj hp
  obtain rfl := Option.some.inj hc
  rfl

theorem oneWindow_reachable : (managerMachine (some MultiWindowManager.hostPlatform)).Reachable oneWindow :=
  ⟨[_], rfl⟩

theorem oneWindow_eq {t : Int} {w : Window} (hw : oneWindow.windows_.find? t = some w) :
    t = 1 ∧ w.id = 0 ∧ w.task = 1 := by
  have hmem := OrdMap.find?_eq_some_iff.mp hw
  obtain ⟨rfl, rfl⟩ := Prod.mk.inj (List.mem_singleton.mp hmem)
  exact ⟨rfl, rfl, rfl⟩

/-- A layer of the task 1 with its crop at the origin. -/
def layer (buffer : HandleType) (screen_position : Emugl.Rect) : Layer where
  name := Scanf.bytes "org.anbox.surface.1".toList
  buffer := buffer
  alpha := 1
  screen_position := screen_position
  crop := ⟨0, 0, screen_position.width, screen_position.height⟩

/-- A window partially offscreen, and a layer inside it. -/
def offscreen : List Layer := [layer 0 ⟨-100, -100, 924, 668⟩, layer 1 ⟨0, 0, 100, 200⟩]

example : process_layers oneWindow offscreen =
    [(0, [{ layer 0 ⟨-100, -100, 924, 668⟩ with screen_position := ⟨0, 0, 1024, 768⟩ },
      { layer 1 ⟨0, 0, 100, 200⟩ with screen_position := ⟨100, 100, 200, 300⟩ }])] := by
  decide

theorem offscreen_faithful : Faithful oneWindow offscreen (process_layers oneWindow offscreen) := by
  have hrange : InRange oneWindow offscreen := by
    refine ⟨fun t w hw => ?_, by decide⟩
    rw [(oneWindow_eq hw).2.2]
    decide
  refine (process_layers_faithful_iff hostPlatform_keepsTask oneWindow_reachable hrange).mpr
    ⟨fun t w hw r hr => ?_, fun t w hw => ?_⟩
  · have hname : ∀ r ∈ offscreen, r.name = surface_name 1 := by decide
    rw [(oneWindow_eq hw).2.2]
    exact ⟨fun _ => hname r hr, fun h => absurd h (by decide)⟩
  · rw [(oneWindow_eq hw).2.2]
    exact sameReference_of_areas (by decide)

/-- A layer with more pixels than an `int` counts, and a small one in front of it. -/
def huge : List Layer := [layer 0 ⟨0, 0, 65536, 65536⟩, layer 1 ⟨10, 10, 20, 20⟩]

/-- The window starts where the small layer does, and the large one is moved out of it. -/
theorem huge_not_faithful :
    process_layers oneWindow huge =
        [(0, [{ layer 0 ⟨0, 0, 65536, 65536⟩ with screen_position := ⟨-10, -10, 65526, 65526⟩ },
          { layer 1 ⟨10, 10, 20, 20⟩ with screen_position := ⟨0, 0, 10, 10⟩ }])] ∧
      ¬Faithful oneWindow huge (process_layers oneWindow huge) := by
  have hout : process_layers oneWindow huge =
      [(0, [{ layer 0 ⟨0, 0, 65536, 65536⟩ with screen_position := ⟨-10, -10, 65526, 65526⟩ },
        { layer 1 ⟨10, 10, 20, 20⟩ with screen_position := ⟨0, 0, 10, 10⟩ }])] := by decide
  refine ⟨hout, fun h => ?_⟩
  obtain ⟨w, hw⟩ : ∃ w, oneWindow.windows_.find? 1 = some w := ⟨_, rfl⟩
  have hreference := h.reference 1 w hw
  unfold given at hreference
  rw [hout, (oneWindow_eq hw).2.1] at hreference
  have hlast := hreference _ ⟨[], _, rfl, by decide, by decide⟩
  exact absurd hlast (by decide)

end MultiWindowComposerStrategy

end AnboxReboxed.Graphics
