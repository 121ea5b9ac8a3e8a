import AnboxReboxed.Graphics.CoordinateTransform

/-!
# Proofs: the aspect fit

The height that belongs to the full width of the host is converted to an `int` before it is compared with the
host. The fit is right where this conversion loses nothing, and where what is left is still too high.
-/

namespace AnboxReboxed.Graphics

open AnboxReboxed.Emugl

theorem toInt_of_inInt {i : Int} (h : InInt i) : toInt i = i := by
  unfold toInt
  unfold InInt at h
  exact Int.bmod_eq_of_le (by omega) (by omega)

theorem inInt_toInt (i : Int) : InInt (toInt i) := by
  have := Int.le_bmod (x := i) (m := 2 ^ 32) (by decide)
  have := Int.bmod_lt (x := i) (m := 2 ^ 32) (by decide)
  unfold toInt InInt
  omega

namespace CoordinateTransform

section Fit

variable {hw hh sw sh w h : Int}

/-! ## The middle of the host -/

theorem centre_width : (centre hw hh w h).width = w := by
  show (hw - w).tdiv 2 + w - (hw - w).tdiv 2 = w
  exact add_sub_cancel_left ..

theorem centre_height : (centre hw hh w h).height = h := by
  show (hh - h).tdiv 2 + h - (hh - h).tdiv 2 = h
  exact add_sub_cancel_left ..

theorem centre_eq (hw2 : w ≤ hw) (hh2 : h ≤ hh) :
    centre hw hh w h = ⟨(hw - w) / 2, (hh - h) / 2, (hw - w) / 2 + w, (hh - h) / 2 + h⟩ := by
  simp only [centre]
  rw [Int.tdiv_eq_ediv_of_nonneg (Int.sub_nonneg_of_le hw2), Int.tdiv_eq_ediv_of_nonneg (Int.sub_nonneg_of_le hh2)]

/-- A content that is not larger than the host stands inside it, and in its middle. -/
theorem centre_aspectFit (hw1 : 1 ≤ w) (hw2 : w ≤ hw) (hh1 : 1 ≤ h) (hh2 : h ≤ hh)
    (hspans : (w = hw ∧ h = max 1 (hw * sh / sw)) ∨ (h = hh ∧ w = max 1 (hh * sw / sh))) :
    AspectFit hw hh sw sh (centre hw hh w h) where
  inside := by
    rw [centre_eq hw2 hh2]
    dsimp only
    omega
  positive := by
    rw [centre_width, centre_height]
    exact ⟨hw1, hh1⟩
  spans := by
    rw [centre_width, centre_height]
    exact hspans
  centred := by
    rw [centre_eq hw2 hh2, abs_le, abs_le]
    dsimp only
    omega

/-! ## The size of the content -/

/-- When the height for the full width is too large, the width for the full height is not. -/
theorem width_lt (hsw : 0 < sw) (hsh : 0 < sh) (hlt : hh < hw * sh / sw) : hh * sw / sh < hw := by
  have hmul : hh * sw < hw * sh := by
    have := Int.le_ediv_iff_mul_le hsw |>.mp (Int.add_one_le_of_lt hlt)
    nlinarith
  exact Int.ediv_lt_of_lt_mul hsh hmul

theorem scaled_eq (hhw : 0 ≤ hw) (hsh : 0 ≤ sh) : scaled hw sh sw = toInt (hw * sh / sw) := by
  unfold scaled
  rw [Int.tdiv_eq_ediv_of_nonneg (by positivity)]

theorem fit_eq_width (h : max 1 (scaled hw sh sw) ≤ hh) : fit hw hh sw sh = (hw, max 1 (scaled hw sh sw)) :=
  if_neg (Int.not_lt.mpr h)

theorem fit_eq_height (h : hh < max 1 (scaled hw sh sw)) : fit hw hh sw sh = (max 1 (scaled hh sw sh), hh) :=
  if_pos h

end Fit

/-! ## The fit of two positive sizes -/

section Sizes

variable (hw hh sw sh : PosInt)

/-- The exact height for the full width of the host. -/
abbrev full_height (hw sw sh : PosInt) : Int := hw.1 * sh.1 / sw.1

theorem full_height_nonneg : 0 ≤ full_height hw sw sh :=
  Int.ediv_nonneg (Int.mul_nonneg hw.2.1.le sh.2.1.le) sw.2.1.le

theorem scaled_full_height : scaled hw.1 sh.1 sw.1 = toInt (full_height hw sw sh) := scaled_eq hw.2.1.le sh.2.1.le

/-- What is too high in `int` is too high. -/
theorem toInt_full_height_le : toInt (full_height hw sw sh) ≤ full_height hw sw sh := by
  by_cases hq : full_height hw sw sh < 2 ^ 31
  · have h0 := full_height_nonneg hw sw sh
    rw [toInt_of_inInt ⟨by omega, hq⟩]
  · have := (inInt_toInt (full_height hw sw sh)).2
    omega

/-- The fit that the narrowed height is too large for: the full height. -/
theorem fit_of_lt (h : hh.1 < toInt (full_height hw sw sh)) :
    fit hw.1 hh.1 sw.1 sh.1 = (max 1 (hh.1 * sw.1 / sh.1), hh.1) ∧ hh.1 * sw.1 / sh.1 < hw.1 := by
  have hlt : hh.1 * sw.1 / sh.1 < hw.1 :=
    width_lt sw.2.1 sh.2.1 (h.trans_le (toInt_full_height_le hw sw sh))
  have h0 : 0 ≤ hh.1 * sw.1 / sh.1 := full_height_nonneg hh sh sw
  refine ⟨?_, hlt⟩
  have hmax : hh.1 < max 1 (scaled hw.1 sh.1 sw.1) := by
    rw [scaled_full_height]
    exact h.trans_le (le_max_right ..)
  have := hw.2.2
  rw [fit_eq_height hmax, scaled_eq hh.2.1.le sw.2.1.le, toInt_of_inInt ⟨by omega, by omega⟩]

/-- The fit that the narrowed height is not too large for: the full width. -/
theorem fit_of_le (h : toInt (full_height hw sw sh) ≤ hh.1) :
    fit hw.1 hh.1 sw.1 sh.1 = (hw.1, max 1 (toInt (full_height hw sw sh))) := by
  have hmax : max 1 (scaled hw.1 sh.1 sw.1) ≤ hh.1 := by
    rw [scaled_full_height]
    exact max_le hh.2.1 h
  rw [fit_eq_width hmax, scaled_full_height]

/-- Above the values of an `int` the full width is a wrong choice: it is either too high or too wide. -/
theorem not_aspectFit (hq : 2 ^ 31 ≤ full_height hw sw sh) (h : toInt (full_height hw sw sh) ≤ hh.1) :
    ¬AspectFit hw.1 hh.1 sw.1 sh.1
      (centre hw.1 hh.1 (fit hw.1 hh.1 sw.1 sh.1).1 (fit hw.1 hh.1 sw.1 sh.1).2) := by
  intro hfit
  have hhh := hh.2.2
  have hlt : hh.1 * sw.1 / sh.1 < hw.1 := width_lt sw.2.1 sh.2.1 (by unfold full_height at hq; omega)
  have hspans := hfit.spans
  rw [centre_width, centre_height, fit_of_le hw hh sw sh h] at hspans
  obtain ⟨-, hheight⟩ | ⟨-, hwidth⟩ := hspans
  · -- The exact height is more than an `int` can be, and the content has one.
    have hint := (inInt_toInt (full_height hw sw sh)).2
    unfold full_height at hq hheight hint
    omega
  · -- The width of the content is the host's, and so the host has one column only.
    have hone : hw.1 = 1 := by
      have := hw.2.1
      omega
    have hle : full_height hw sw sh ≤ sh.1 := by
      unfold full_height
      rw [hone, Int.one_mul]
      exact Int.ediv_le_self _ sh.2.1.le
    have := sh.2.2
    omega

/-- The content is never larger than the host, and never empty. -/
theorem fit_bounds :
    (1 ≤ (fit hw.1 hh.1 sw.1 sh.1).1 ∧ (fit hw.1 hh.1 sw.1 sh.1).1 ≤ hw.1) ∧
      1 ≤ (fit hw.1 hh.1 sw.1 sh.1).2 ∧ (fit hw.1 hh.1 sw.1 sh.1).2 ≤ hh.1 := by
  have hw1 := hw.2.1
  have hh1 := hh.2.1
  by_cases hlt : hh.1 < toInt (full_height hw sw sh)
  · obtain ⟨hsize, hwidth⟩ := fit_of_lt hw hh sw sh hlt
    rw [hsize]
    exact ⟨⟨le_max_left .., max_le hw1 hwidth.le⟩, hh1, le_rfl⟩
  · have hle : toInt (full_height hw sw sh) ≤ hh.1 := Int.not_lt.mp hlt
    rw [fit_of_le hw hh sw sh hle]
    exact ⟨⟨hw1, le_rfl⟩, le_max_left .., max_le hh1 hle⟩

/-- The width for the full height is computed only where the one for the full width is too high, and fits. -/
theorem full_width_lt (h : hh.1 < max 1 (scaled hw.1 sh.1 sw.1)) : (hh.1 * sw.1).tdiv sh.1 < hw.1 := by
  have hlt : hh.1 < toInt (full_height hw sw sh) := by
    rw [scaled_full_height] at h
    have := hh.2.1
    omega
  rw [Int.tdiv_eq_ediv_of_nonneg (Int.mul_nonneg hh.2.1.le sw.2.1.le)]
  exact (fit_of_lt hw hh sw sh hlt).2

/-- The fit is right where the full height for the width is an `int`, and where what is left is too high. -/
theorem aspectFit_iff :
    AspectFit hw.1 hh.1 sw.1 sh.1
        (centre hw.1 hh.1 (fit hw.1 hh.1 sw.1 sh.1).1 (fit hw.1 hh.1 sw.1 sh.1).2) ↔
      full_height hw sw sh < 2 ^ 31 ∨ hh.1 < toInt (full_height hw sw sh) := by
  constructor
  · intro hfit
    by_contra hne
    exact not_aspectFit hw hh sw sh (by omega) (by omega) hfit
  · intro hcond
    by_cases hlt : hh.1 < toInt (full_height hw sw sh)
    · obtain ⟨hsize, hwidth⟩ := fit_of_lt hw hh sw sh hlt
      have h1 := hw.2.1
      rw [hsize]
      exact centre_aspectFit (le_max_left ..) (by omega) hh.2.1 le_rfl (.inr ⟨rfl, rfl⟩)
    · have hq : full_height hw sw sh < 2 ^ 31 := by omega
      have h0 := full_height_nonneg hw sw sh
      have heq : toInt (full_height hw sw sh) = full_height hw sw sh := toInt_of_inInt ⟨by omega, hq⟩
      have h1 := hh.2.1
      rw [fit_of_le hw hh sw sh (by omega), heq]
      exact centre_aspectFit hw.2.1 le_rfl (le_max_left ..) (by omega) (.inl ⟨rfl, rfl⟩)

/-- Nothing overflows but the height for the full width. -/
theorem intermediates_iff :
    (∀ i ∈ intermediates hw.1 hh.1 sw.1 sh.1, InInt i) ↔ full_height hw sw sh < 2 ^ 31 := by
  have h0 := full_height_nonneg hw sw sh
  have hhead : (hw.1 * sh.1).tdiv sw.1 = full_height hw sw sh :=
    Int.tdiv_eq_ediv_of_nonneg (Int.mul_nonneg hw.2.1.le sh.2.1.le)
  constructor
  · intro h
    have := h _ (List.mem_cons_self ..)
    rw [hhead] at this
    exact this.2
  · intro hq i hi
    obtain ⟨⟨hw1, hw2⟩, hh1, hh2⟩ := fit_bounds hw hh sw sh
    have hwmax := hw.2.2
    have hhmax := hh.2.2
    simp only [intermediates, centre_eq hw2 hh2, List.mem_cons, List.mem_append, List.not_mem_nil, or_false] at hi
    obtain rfl | hi | hi := hi
    · rw [hhead]
      exact ⟨by omega, hq⟩
    · split at hi
      · rename_i hgt
        obtain rfl := List.mem_singleton.mp hi
        have hlt := full_width_lt hw hh sw sh hgt
        have hnonneg := Int.tdiv_nonneg (Int.mul_nonneg hh.2.1.le sw.2.1.le) sh.2.1.le
        exact ⟨by omega, by omega⟩
      · exact absurd hi (List.not_mem_nil)
    · unfold InInt
      omega

end Sizes

end CoordinateTransform

open CoordinateTransform

/-! ## The constructor -/

theorem ofSizes_viewport (hw hh aw ah : PosInt) (r : Rotation) :
    (ofSizes (hw.1, hh.1) (aw.1, ah.1) r).viewport_ =
      let size := fit hw.1 hh.1 (source aw ah r).1.1 (source aw ah r).2.1
      centre hw.1 hh.1 size.1 size.2 := by
  have hvalid : ¬(hw.1 ≤ 0 ∨ hh.1 ≤ 0 ∨ aw.1 ≤ 0 ∨ ah.1 ≤ 0) := by
    have := hw.2.1
    have := hh.2.1
    have := aw.2.1
    have := ah.2.1
    omega
  unfold ofSizes coordinateTransformViewport
  rw [if_neg hvalid]
  cases r <;> rfl

/-- The constructor fits the content into the host, and computes no value that is not an `int`, where the height
of the content at the full width of the host is an `int`. The fit alone is right in one more case: the `int` that
becomes of a height that is none is still more than the host has. -/
theorem CoordinateTransform.fits_iff (hw hh aw ah : PosInt) (r : Rotation) :
    (AspectFit hw.1 hh.1 (source aw ah r).1.1 (source aw ah r).2.1 (ofSizes (hw.1, hh.1) (aw.1, ah.1) r).viewport_ ∧
        (∀ i ∈ intermediates hw.1 hh.1 (source aw ah r).1.1 (source aw ah r).2.1, InInt i) ↔
      hw.1 * (source aw ah r).2.1 / (source aw ah r).1.1 < 2 ^ 31) ∧
    (AspectFit hw.1 hh.1 (source aw ah r).1.1 (source aw ah r).2.1 (ofSizes (hw.1, hh.1) (aw.1, ah.1) r).viewport_ ↔
      hw.1 * (source aw ah r).2.1 / (source aw ah r).1.1 < 2 ^ 31 ∨
        hh.1 < toInt (hw.1 * (source aw ah r).2.1 / (source aw ah r).1.1)) := by
  have haspect := aspectFit_iff hw hh (source aw ah r).1 (source aw ah r).2
  have hint := intermediates_iff hw hh (source aw ah r).1 (source aw ah r).2
  rw [ofSizes_viewport]
  refine ⟨⟨fun h => hint.mp h.2, fun hq => ⟨haspect.mpr (.inl hq), hint.mpr hq⟩⟩, haspect⟩

/-- A window of 1600 columns and 900 rows, and a layer of one column and as many rows as an `int` counts: the
content is as wide as the window and has one row. -/
theorem CoordinateTransform.one_row :
    (FrameSource.renderables [⟨"layer", 1, ⟨0, 0, 1, 2147483647⟩, ⟨0, 0, 1, 2147483647⟩⟩]).size = (1, 2147483647) ∧
      (ofSizes (1600, 900) (1, 2147483647) .R0).viewport_ = ⟨0, 449, 1600, 450⟩ ∧
      ¬AspectFit 1600 900 1 2147483647 (ofSizes (1600, 900) (1, 2147483647) .R0).viewport_ := by
  have hview : (ofSizes (1600, 900) (1, 2147483647) .R0).viewport_ = ⟨0, 449, 1600, 450⟩ := by decide
  refine ⟨by decide, hview, fun h => ?_⟩
  have hspans := h.spans
  rw [hview] at hspans
  revert hspans
  decide

end AnboxReboxed.Graphics

/-!
## Proofs: the pointer follows what is drawn

One axis at a time. A column of the window is accepted when it is between the projected sides of the viewport, and
a side is rounded in such a way that this is the same as to project the column to the drawable.
-/

namespace AnboxReboxed.Graphics

open AnboxReboxed.Emugl CoordinateTransform

/-! ## Rounding -/

@[simp]
theorem lround_intCast (i : Int) : lround i = i := by
  unfold lround
  split
  · rw [Int.floor_eq_iff]
    constructor <;> linarith
  · rw [Int.ceil_eq_iff]
    constructor <;> linarith

theorem lround_mono {q q' : ℚ} (h : q ≤ q') : lround q ≤ lround q' := by
  unfold lround
  split <;> split
  · exact Int.floor_le_floor (by linarith)
  · linarith
  · -- What is negative is not rounded above zero, and what is not, not below.
    have hneg : ⌈q - 1 / 2⌉ ≤ 0 := Int.ceil_le.mpr (by push_cast; linarith)
    have hpos : 0 ≤ ⌊q' + 1 / 2⌋ := Int.le_floor.mpr (by push_cast; linarith)
    exact hneg.trans hpos
  · exact Int.ceil_le_ceil (by linarith)

theorem clamp_mono {i j low high : Int} (h : i ≤ j) (hle : low ≤ high) : clamp i low high ≤ clamp j low high := by
  unfold clamp
  split <;> split <;> (try split) <;> (try split) <;> omega

theorem clamp_bounds {low high : Int} (i : Int) (hle : low ≤ high) :
    low ≤ clamp i low high ∧ clamp i low high ≤ high := by
  unfold clamp
  split
  · omega
  · split <;> omega

theorem clamp_le_iff {i x high : Int} (h0 : 0 ≤ x) (h : x < high) : clamp i 0 high ≤ x ↔ i ≤ x := by
  unfold clamp
  split
  · omega
  · split <;> omega

theorem lt_clamp_iff {i x high : Int} (h0 : 0 ≤ x) (h : x < high) : x < clamp i 0 high ↔ x < i := by
  unfold clamp
  split
  · omega
  · split <;> omega

/-! ## The sides of the viewport -/

section Projection

variable {value logical drawable x : Int} (hl : 2 ≤ logical) (hd : 2 ≤ drawable)
include hl hd

theorem project_start_le_iff :
    project_start value logical drawable ≤ x ↔ (value : ℚ) ≤ projection x logical drawable := by
  have hl' : (0 : ℚ) < (logical - 1 : Int) := by exact_mod_cast (by omega : 0 < logical - 1)
  have hd' : (0 : ℚ) < (drawable - 1 : Int) := by exact_mod_cast (by omega : 0 < drawable - 1)
  unfold project_start projection
  rw [if_neg (by omega), Int.ceil_le, div_le_iff₀ hd', le_div_iff₀ hl']

theorem lt_project_end_iff :
    x < project_end value logical drawable ↔ projection x logical drawable ≤ (value - 1 : Int) := by
  have hl' : (0 : ℚ) < (logical - 1 : Int) := by exact_mod_cast (by omega : 0 < logical - 1)
  have hd' : (0 : ℚ) < (drawable - 1 : Int) := by exact_mod_cast (by omega : 0 < drawable - 1)
  unfold project_end projection
  rw [if_neg (by omega), Int.lt_add_one_iff, Int.le_floor, le_div_iff₀ hd', div_le_iff₀ hl']

/-- For a viewport inside the drawable, what the source casts to `int` is in the window. -/
theorem project_bounds {start stop : Int} (h0 : 0 ≤ start) (hlt : start < stop) (hle : stop ≤ drawable) :
    (0 ≤ project_start start logical drawable ∧ project_start start logical drawable ≤ logical - 1) ∧
      1 ≤ project_end stop logical drawable ∧ project_end stop logical drawable ≤ logical := by
  have hl' : (0 : ℚ) < (logical - 1 : Int) := by exact_mod_cast (by omega : 0 < logical - 1)
  have hlast : projection (logical - 1) logical drawable = (drawable - 1 : Int) := by
    unfold projection
    rw [mul_comm]
    exact mul_div_cancel_right₀ _ hl'.ne'
  have hfirst : projection 0 logical drawable = 0 := by
    unfold projection
    rw [Int.cast_zero, zero_mul, zero_div]
  refine ⟨⟨?_, ?_⟩, ?_, ?_⟩
  · unfold project_start
    rw [if_neg (by omega)]
    have hd' : (0 : ℚ) < (drawable - 1 : Int) := by exact_mod_cast (by omega : 0 < drawable - 1)
    have hs : (0 : ℚ) ≤ start := by exact_mod_cast h0
    exact Int.ceil_nonneg (by positivity)
  · rw [project_start_le_iff hl hd, hlast]
    exact_mod_cast (by omega : start ≤ drawable - 1)
  · rw [← Int.zero_add 1, Int.add_one_le_iff, lt_project_end_iff hl hd, hfirst]
    exact_mod_cast (by omega : 0 ≤ stop - 1)
  · unfold project_end
    rw [if_neg (by omega)]
    have hd' : (0 : ℚ) < (drawable - 1 : Int) := by exact_mod_cast (by omega : 0 < drawable - 1)
    have hs : ((stop - 1 : Int) : ℚ) ≤ (drawable - 1 : Int) := by exact_mod_cast (by omega : stop - 1 ≤ drawable - 1)
    have hfloor : ⌊((stop - 1 : Int) : ℚ) * (logical - 1 : Int) / (drawable - 1 : Int)⌋ ≤ logical - 1 := by
      rw [← Int.cast_le (R := ℚ)]
      refine (Int.floor_le _).trans ?_
      rw [div_le_iff₀ hd', mul_comm]
      exact mul_le_mul_of_nonneg_left hs hl'.le
    omega

end Projection

/-! ## Ratios and places -/

theorem ratio_mono {i j size : Int} (h : i ≤ j) : ratio i size ≤ ratio j size := by
  unfold ratio
  split
  · exact le_rfl
  · rename_i hsize
    have hpos : (0 : ℚ) < (size - 1 : Int) := by exact_mod_cast (by omega : 0 < size - 1)
    exact div_le_div_of_nonneg_right (by exact_mod_cast h) hpos.le

@[simp]
theorem ratio_zero (size : Int) : ratio 0 size = 0 := by
  unfold ratio
  split
  · rfl
  · exact zero_div _

theorem ratio_last {size : Int} (h : 1 < size) : ratio (size - 1) size = 1 := by
  unfold ratio
  rw [if_neg (Int.not_le.mpr h)]
  exact div_self (by exact_mod_cast (by omega : size - 1 ≠ 0))

theorem place_mono {q q' : ℚ} {size : Int} (h : q ≤ q') (hs : 0 < size) : place q size ≤ place q' size := by
  have hnonneg : (0 : ℚ) ≤ (size - 1 : Int) := by exact_mod_cast Int.le_sub_one_of_lt hs
  exact clamp_mono (lround_mono (mul_le_mul_of_nonneg_right h hnonneg)) (by omega)

theorem place_bounds (q : ℚ) {size : Int} (hs : 0 < size) : 0 ≤ place q size ∧ place q size ≤ size - 1 :=
  clamp_bounds _ (by omega)

theorem place_zero {size : Int} (hs : 0 < size) : place 0 size = 0 := by
  have hround : lround (0 * (size - 1 : Int)) = 0 := by
    rw [zero_mul]
    exact lround_intCast 0
  unfold place clamp
  rw [hround]
  split <;> omega

theorem place_one {size : Int} (hs : 0 < size) : place 1 size = size - 1 := by
  unfold place clamp
  rw [one_mul, lround_intCast]
  split <;> omega

/-! ## One axis -/

/-- How far a column or row of the window is along the logical viewport. -/
def along (s : RenderedViewport) (a : Axis) (i : Int) : ℚ :=
  ratio (i - a.start (logical_viewport s)) (a.stop (logical_viewport s) - a.start (logical_viewport s))

/-- The coordinate of Android for a column or row of the window. -/
def coordinate (s : RenderedViewport) (a : Axis) (i : Int) : Int :=
  place (if a.reversed s.rotation then 1 - along s a i else along s a i) ((a.turned s.rotation).of s.android)

theorem Axis.turned_turned (r : Rotation) (a : Axis) : (a.turned r).turned r = a := by
  cases r <;> cases a <;> rfl

section Presented

variable {s : RenderedViewport} (h : Presented s)
include h

theorem Presented.android_pos (a : Axis) : 0 < a.of s.android := by
  cases a
  · exact h.android.1
  · exact h.android.2

theorem Presented.sizes :
    ¬(s.window.1 ≤ 0 ∨ s.window.2 ≤ 0 ∨ s.drawable.1 ≤ 0 ∨ s.drawable.2 ≤ 0) := by
  have hw1 : 2 ≤ s.window.1 := h.window .column
  have hw2 : 2 ≤ s.window.2 := h.window .row
  have hd1 : 2 ≤ s.drawable.1 := h.drawable .column
  have hd2 : 2 ≤ s.drawable.2 := h.drawable .row
  omega

theorem start_logical_viewport (a : Axis) :
    a.start (logical_viewport s) =
      clamp (project_start (a.start s.viewport) (a.of s.window) (a.of s.drawable)) 0 (a.of s.window) := by
  unfold logical_viewport
  rw [if_neg h.sizes]
  cases a <;> rfl

theorem stop_logical_viewport (a : Axis) :
    a.stop (logical_viewport s) =
      clamp (project_end (a.stop s.viewport) (a.of s.window) (a.of s.drawable)) 0 (a.of s.window) := by
  unfold logical_viewport
  rw [if_neg h.sizes]
  cases a <;> rfl

/-- A point is on the content when each of its coordinates is in the logical viewport. -/
theorem onContent_iff {w : Int × Int} :
    OnContent s w ↔ ∀ a : Axis, (0 ≤ a.of w ∧ a.of w < a.of s.window) ∧
      a.start (logical_viewport s) ≤ a.of w ∧ a.of w < a.stop (logical_viewport s) := by
  refine forall_congr' fun a => and_congr_right fun hin => ?_
  rw [start_logical_viewport h, stop_logical_viewport h, clamp_le_iff hin.1 hin.2, lt_clamp_iff hin.1 hin.2,
    project_start_le_iff (h.window a) (h.drawable a), lt_project_end_iff (h.window a) (h.drawable a)]

theorem map_absolute_of_onContent {w : Int × Int} (hw : OnContent s w) :
    ∃ p, map_absolute s w.1 w.2 = some p ∧ ∀ a : Axis, (a.turned s.rotation).of p = coordinate s a (a.of w) := by
  have hin := (onContent_iff h).mp hw
  obtain ⟨⟨hx0, hx1⟩, hx2, hx3⟩ := hin .column
  obtain ⟨⟨hy0, hy1⟩, hy2, hy3⟩ := hin .row
  simp only [Axis.of, Axis.start, Axis.stop] at hx0 hx1 hx2 hx3 hy0 hy1 hy2 hy3
  have hsizes := h.sizes
  have hvalid : (!s.valid) = false := by rw [h.valid]; rfl
  have hcontent : (ofViewport (logical_viewport s) s.android s.rotation).valid_ = true := by
    refine decide_eq_true ⟨?_, ?_, h.android⟩
    · unfold Rect.width
      omega
    · unfold Rect.height
      omega
  have hinside : ¬(w.1 < (logical_viewport s).left ∨ (logical_viewport s).right ≤ w.1 ∨
      w.2 < (logical_viewport s).top ∨ (logical_viewport s).bottom ≤ w.2) := by omega
  unfold map_absolute
  rw [if_neg (by simp only [hvalid, Bool.false_eq_true, false_or]; omega)]
  unfold CoordinateTransform.map_absolute
  rw [if_neg (by rw [hcontent, Bool.not_true, Bool.false_eq_true, false_or]; exact hinside)]
  refine ⟨_, rfl, fun a => ?_⟩
  unfold coordinate
  cases s.rotation <;> cases a <;> rfl

theorem onContent_of_map_absolute {w p : Int × Int} (hp : map_absolute s w.1 w.2 = some p) : OnContent s w := by
  unfold map_absolute at hp
  split at hp
  · exact absurd hp (Option.some_ne_none p).symm
  · rename_i hwindow
    unfold CoordinateTransform.map_absolute at hp
    split at hp
    · exact absurd hp (Option.some_ne_none p).symm
    · rename_i hcontent
      simp only [ofViewport] at hcontent
      rw [onContent_iff h]
      intro a
      cases a
      · simp only [Axis.of, Axis.start, Axis.stop]
        omega
      · simp only [Axis.of, Axis.start, Axis.stop]
        omega

/-- What `map_absolute` returns, axis by axis. -/
theorem map_absolute_coordinate {w p : Int × Int} (hp : map_absolute s w.1 w.2 = some p) (a : Axis) :
    (a.turned s.rotation).of p = coordinate s a (a.of w) := by
  obtain ⟨p', hp', hcoord⟩ := map_absolute_of_onContent h (onContent_of_map_absolute h hp)
  obtain rfl := Option.some.inj (hp.symm.trans hp')
  exact hcoord a

theorem coordinate_bounds (a : Axis) (i : Int) :
    0 ≤ coordinate s a i ∧ coordinate s a i ≤ (a.turned s.rotation).of s.android - 1 :=
  place_bounds _ (h.android_pos _)

theorem coordinate_mono (a : Axis) {i j : Int} (hij : i ≤ j) :
    if a.reversed s.rotation then coordinate s a j ≤ coordinate s a i else coordinate s a i ≤ coordinate s a j := by
  have hratio : along s a i ≤ along s a j := ratio_mono (Int.sub_le_sub_right hij _)
  unfold coordinate
  split
  · exact place_mono (by linarith) (h.android_pos _)
  · exact place_mono hratio (h.android_pos _)

theorem coordinate_first (a : Axis) :
    coordinate s a (a.start (logical_viewport s)) =
      if a.reversed s.rotation then (a.turned s.rotation).of s.android - 1 else 0 := by
  have hratio : along s a (a.start (logical_viewport s)) = 0 := by
    unfold along
    rw [Int.sub_self, ratio_zero]
  unfold coordinate
  rw [hratio, sub_zero]
  split
  · exact place_one (h.android_pos _)
  · exact place_zero (h.android_pos _)

theorem coordinate_last (a : Axis) (hsize : 1 < a.stop (logical_viewport s) - a.start (logical_viewport s)) :
    coordinate s a (a.stop (logical_viewport s) - 1) =
      if a.reversed s.rotation then 0 else (a.turned s.rotation).of s.android - 1 := by
  have hratio : along s a (a.stop (logical_viewport s) - 1) = 1 := by
    unfold along
    rw [sub_right_comm, ratio_last hsize]
  unfold coordinate
  rw [hratio, sub_self]
  split
  · exact place_zero (h.android_pos _)
  · exact place_one (h.android_pos _)

/-- With a point on the content, there is one in every column and row of the logical viewport. -/
theorem onContent_at {w : Int × Int} (hw : OnContent s w) (a : Axis) {i : Int}
    (hi : (0 ≤ i ∧ i < a.of s.window) ∧ a.start (logical_viewport s) ≤ i ∧ i < a.stop (logical_viewport s)) :
    ∃ w', OnContent s w' ∧ a.of w' = i := by
  have hin := (onContent_iff h).mp hw
  cases a
  · refine ⟨(i, w.2), (onContent_iff h).mpr fun b => ?_, rfl⟩
    cases b
    · exact hi
    · exact hin .row
  · refine ⟨(w.1, i), (onContent_iff h).mpr fun b => ?_, rfl⟩
    cases b
    · exact hin .column
    · exact hi

/-- The sides of the logical viewport are in the window. -/
theorem logical_viewport_inWindow (a : Axis) :
    0 ≤ a.start (logical_viewport s) ∧ a.stop (logical_viewport s) ≤ a.of s.window := by
  have hwin := h.window a
  rw [start_logical_viewport h, stop_logical_viewport h]
  exact ⟨(clamp_bounds _ (by omega)).1, (clamp_bounds _ (by omega)).2⟩

/-- The first of the accepted columns or rows is the start of the logical viewport. -/
theorem start_of_first {w : Int × Int} (hw : OnContent s w) (a : Axis)
    (hfirst : ∀ w', OnContent s w' → a.of w ≤ a.of w') : a.of w = a.start (logical_viewport s) := by
  have hin := (onContent_iff h).mp hw a
  have hwin := logical_viewport_inWindow h a
  obtain ⟨w', hw', heq⟩ := onContent_at h hw a (i := a.start (logical_viewport s)) (by omega)
  have := hfirst w' hw'
  omega

theorem stop_of_last {w : Int × Int} (hw : OnContent s w) (a : Axis)
    (hlast : ∀ w', OnContent s w' → a.of w' ≤ a.of w) : a.of w = a.stop (logical_viewport s) - 1 := by
  have hin := (onContent_iff h).mp hw a
  have hwin := logical_viewport_inWindow h a
  obtain ⟨w', hw', heq⟩ := onContent_at h hw a (i := a.stop (logical_viewport s) - 1) (by omega)
  have := hlast w' hw'
  omega

end Presented

/-- The pointer follows what is drawn, wherever the viewport is and for every ratio of the window to the drawable. -/
theorem map_absolute_follows (s : RenderedViewport) (h : Presented s) : FollowsContent s where
  accepted w := by
    constructor
    · intro hsome
      obtain ⟨p, hp⟩ := Option.isSome_iff_exists.mp hsome
      exact onContent_of_map_absolute h hp
    · intro hw
      obtain ⟨p, hp, -⟩ := map_absolute_of_onContent h hw
      rw [hp]
      rfl
  inside w p hp a := by
    have hcoord := map_absolute_coordinate h hp (a.turned s.rotation)
    have hbounds := coordinate_bounds h (a.turned s.rotation) ((a.turned s.rotation).of w)
    rw [Axis.turned_turned] at hcoord hbounds
    rw [hcoord]
    exact hbounds
  monotone w w' p p' hp hp' a hle := by
    rw [map_absolute_coordinate h hp a, map_absolute_coordinate h hp' a]
    exact coordinate_mono h a hle
  first w p hp a hfirst hother := by
    have hw := onContent_of_map_absolute h hp
    rw [map_absolute_coordinate h hp a, start_of_first h hw a hfirst]
    exact coordinate_first h a
  last w p hp a hlast hother := by
    have hw := onContent_of_map_absolute h hp
    have hstop := stop_of_last h hw a hlast
    obtain ⟨w', hw', hne⟩ := hother
    have hin := (onContent_iff h).mp hw' a
    rw [map_absolute_coordinate h hp a, hstop]
    exact coordinate_last h a (by omega)

/-- A maximized window with a drawable of twice its size. -/
theorem map_absolute_follows_maximized :
    FollowsContent ⟨true, (800, 600), (1600, 1200), ⟨530, 0, 1070, 1200⟩, (720, 1600), .R0, 10⟩ :=
  map_absolute_follows _
    { valid := rfl
      window := fun a => by cases a <;> decide
      drawable := fun a => by cases a <;> decide
      android := by decide }

example : map_absolute ⟨true, (800, 600), (1600, 1200), ⟨530, 0, 1070, 1200⟩, (720, 1600), .R0, 10⟩ 534 599 =
    some (719, 1599) := by
  decide +kernel

end AnboxReboxed.Graphics
