import Bres.Video.Draw
import Mathlib.Tactic.Linarith
import Mathlib.Tactic.Positivity

/-!
# Where a picture is in the outgoing image

Without `__BLACKMAGIC_OUTPUT__` a picture is turned over twice, by the coordinates of
`calculateVec` and by the rows that are swapped, and so it is where its fields say. With
it the rows are not swapped, and the shader turns the picture itself over instead. It
comes out upright, but its place is mirrored, and at the height of the smaller canvas at
that: a picture stays where it should be only if it lies in the middle of the first 360
rows.
-/

namespace Bres

open Geometry Memory

/-! ## The window -/

theorem viewport_ortho {size : ℕ} (h : size ≠ 0) (x : ℚ) : viewport size (ortho 0 size x) = x := by
  have hsize : (size : ℚ) ≠ 0 := Nat.cast_ne_zero.2 h
  rw [viewport, ortho]
  field_simp
  ring

theorem wndWidthFhd_ne_zero (b : Build) : b.wndWidthFhd ≠ 0 := by cases b <;> decide

theorem wndHeightFhd_ne_zero (b : Build) : b.wndHeightFhd ≠ 0 := by cases b <;> decide

/-- The projection and the viewport undo each other. -/
theorem toWindow_eq (b : Build) (v : Vertex ℚ) : toWindow b v = v := by
  rw [toWindow, viewport_ortho (wndWidthFhd_ne_zero b), viewport_ortho (wndHeightFhd_ne_zero b)]

section Quad

variable {x y w h : ℚ}

/-- Where a window point lies in the picture, before the shader. -/
def texcoord (x y w h X Y : ℚ) : ℚ × ℚ := ((X - x) / w, (wndHeight - y - Y) / h)

/-- The texture points of the corners are one affine map of their places. -/
theorem texcoord_of_mem_calculateVec (hw : w ≠ 0) (hh : h ≠ 0) {v : Vertex ℚ}
    (hv : v ∈ calculateVec x y w h) :
    v.s = -(x / w) + 1 / w * v.x + 0 * v.y ∧
      v.t = (wndHeight - y) / h + 0 * v.x + -(1 / h) * v.y := by
  simp only [calculateVec, List.mem_cons, List.not_mem_nil, or_false] at hv
  obtain rfl | rfl | rfl | rfl | rfl | rfl := hv <;> constructor <;> field_simp <;> ring

theorem sample_calculateVec {T : Triangle ℚ} (hw : w ≠ 0) (hh : h ≠ 0)
    (hT : ∀ v ∈ [T.a, T.b, T.c], v ∈ calculateVec x y w h) (X Y : ℚ) :
    T.sample X Y = if T.Covers X Y then some (texcoord x y w h X Y) else none := by
  have hpoint : texcoord x y w h X Y = (-(x / w) + 1 / w * X + 0 * Y,
      (wndHeight - y) / h + 0 * X + -(1 / h) * Y) := by
    rw [texcoord]
    congr 1 <;> ring
  rw [Triangle.sample_eq_of_affine (fun v hv => (texcoord_of_mem_calculateVec hw hh (hT v hv)).1)
    (fun v hv => (texcoord_of_mem_calculateVec hw hh (hT v hv)).2), hpoint]

/-- The two triangles that the six corners make up. -/
def lowerTriangle (x y w h : ℚ) : Triangle ℚ :=
  ⟨⟨x, wndHeight - y, 0, 0⟩, ⟨x, wndHeight - (y + h), 0, 1⟩, ⟨x + w, wndHeight - (y + h), 1, 1⟩⟩

def upperTriangle (x y w h : ℚ) : Triangle ℚ :=
  ⟨⟨x + w, wndHeight - y, 1, 0⟩, ⟨x, wndHeight - y, 0, 0⟩, ⟨x + w, wndHeight - (y + h), 1, 1⟩⟩

theorem drawArrays_calculateVec (X Y : ℚ) :
    drawArrays (calculateVec x y w h) X Y =
      ((upperTriangle x y w h).sample X Y).or ((lowerTriangle x y w h).sample X Y) :=
  rfl

theorem doubleArea_lowerTriangle : (lowerTriangle x y w h).doubleArea = w * h := by
  simp only [lowerTriangle, Triangle.doubleArea, edge]
  ring

theorem doubleArea_upperTriangle : (upperTriangle x y w h).doubleArea = w * h := by
  simp only [upperTriangle, Triangle.doubleArea, edge]
  ring

/-- The triangle below the diagonal of the picture. -/
theorem covers_lowerTriangle_iff (harea : 0 < w * h) (X Y : ℚ) :
    (lowerTriangle x y w h).Covers X Y ↔
      0 ≤ 1 - (texcoord x y w h X Y).2 ∧
        0 ≤ (texcoord x y w h X Y).2 - (texcoord x y w h X Y).1 ∧
        0 ≤ (texcoord x y w h X Y).1 := by
  have hw : w ≠ 0 := left_ne_zero_of_mul harea.ne'
  have hh : h ≠ 0 := right_ne_zero_of_mul harea.ne'
  apply Triangle.covers_iff_of_weights (doubleArea_lowerTriangle ▸ harea) <;>
    rw [doubleArea_lowerTriangle] <;>
    simp only [lowerTriangle, edge, texcoord] <;>
    field_simp <;>
    ring

/-- The triangle above the diagonal. -/
theorem covers_upperTriangle_iff (harea : 0 < w * h) (X Y : ℚ) :
    (upperTriangle x y w h).Covers X Y ↔
      0 ≤ (texcoord x y w h X Y).1 - (texcoord x y w h X Y).2 ∧
        0 ≤ 1 - (texcoord x y w h X Y).1 ∧
        0 ≤ (texcoord x y w h X Y).2 := by
  have hw : w ≠ 0 := left_ne_zero_of_mul harea.ne'
  have hh : h ≠ 0 := right_ne_zero_of_mul harea.ne'
  apply Triangle.covers_iff_of_weights (doubleArea_upperTriangle ▸ harea) <;>
    rw [doubleArea_upperTriangle] <;>
    simp only [upperTriangle, edge, texcoord] <;>
    field_simp <;>
    ring

/-- Together they cover the rectangle. -/
theorem covers_iff_mem_Icc (harea : 0 < w * h) (X Y : ℚ) :
    (upperTriangle x y w h).Covers X Y ∨ (lowerTriangle x y w h).Covers X Y ↔
      texcoord x y w h X Y ∈ Set.Icc (0 : ℚ × ℚ) 1 := by
  rw [covers_upperTriangle_iff harea, covers_lowerTriangle_iff harea]
  simp only [sub_nonneg, Set.mem_Icc, Prod.le_def, Prod.fst_zero, Prod.snd_zero, Prod.fst_one,
    Prod.snd_one]
  constructor
  · rintro (⟨hvu, hu, hv⟩ | ⟨hv, huv, hu⟩)
    · exact ⟨⟨hv.trans hvu, hv⟩, hu, hvu.trans hu⟩
    · exact ⟨⟨hu, hu.trans huv⟩, huv.trans hv, hv⟩
  · rintro ⟨⟨hu, hv⟩, hu', hv'⟩
    cases le_total (texcoord x y w h X Y).2 (texcoord x y w h X Y).1 with
    | inl hvu => exact .inl ⟨hvu, hu', hv⟩
    | inr huv => exact .inr ⟨hv', huv, hu⟩

/-- Both triangles show the same picture. -/
theorem drawArrays_calculateVec_of_pos (harea : 0 < w * h) (X Y : ℚ) (q : ℚ × ℚ) :
    drawArrays (calculateVec x y w h) X Y = some q ↔
      texcoord x y w h X Y ∈ Set.Icc (0 : ℚ × ℚ) 1 ∧ texcoord x y w h X Y = q := by
  have hw : w ≠ 0 := left_ne_zero_of_mul harea.ne'
  have hh : h ≠ 0 := right_ne_zero_of_mul harea.ne'
  have hlower : ∀ v ∈ [(lowerTriangle x y w h).a, (lowerTriangle x y w h).b,
      (lowerTriangle x y w h).c], v ∈ calculateVec x y w h := by
    simp [lowerTriangle, calculateVec]
  have hupper : ∀ v ∈ [(upperTriangle x y w h).a, (upperTriangle x y w h).b,
      (upperTriangle x y w h).c], v ∈ calculateVec x y w h := by
    simp [upperTriangle, calculateVec]
  rw [drawArrays_calculateVec, sample_calculateVec hw hh hlower, sample_calculateVec hw hh hupper,
    ← covers_iff_mem_Icc harea]
  by_cases hu : (upperTriangle x y w h).Covers X Y
  · simp [hu]
  · simp [hu]

/-- A picture without an area, or one that is turned to its back, is not drawn. -/
theorem drawArrays_calculateVec_of_nonpos (harea : w * h ≤ 0) (X Y : ℚ) :
    drawArrays (calculateVec x y w h) X Y = none := by
  have hlower : ¬ (lowerTriangle x y w h).Covers X Y := fun hcovers =>
    harea.not_gt (doubleArea_lowerTriangle ▸ hcovers.1)
  have hupper : ¬ (upperTriangle x y w h).Covers X Y := fun hcovers =>
    harea.not_gt (doubleArea_upperTriangle ▸ hcovers.1)
  rw [drawArrays_calculateVec, Triangle.sample, Triangle.sample, if_neg hlower, if_neg hupper,
    Option.or_none]

end Quad

namespace Placement

variable (p : Placement) (b : Build)

/-- A drawn slot shows its picture at the place that its fields give. -/
theorem drawSlot_of_ofSlot {inst : Instance} (hdraw : inst.isDraw ≠ 0) (h : p.OfSlot inst) :
    drawSlot b inst = p.window b := by
  obtain ⟨hposX, hposY, hscale, hwidth, hheight⟩ := h
  funext row column
  rw [drawSlot, if_pos hdraw, hposX, hposY, hscale, window, hwidth, hheight]

/-- A picture that is scaled at all shows its front. -/
theorem area_pos_iff : 0 < p.width * p.scale * (p.height * p.scale) ↔ p.scale ≠ 0 := by
  have hsquare : p.width * p.scale * (p.height * p.scale) =
      p.width * p.height * (p.scale * p.scale) := by
    ring
  rw [hsquare, mul_pos_iff_of_pos_left (mul_pos p.width_pos p.height_pos), mul_self_pos]

/-- The point of the picture at a pixel of the window. -/
def windowPoint (row column : ℕ) : ℚ × ℚ :=
  flipY b (texcoord p.posX p.posY (p.width * p.scale) (p.height * p.scale)
    (column + 1 / 2) (row + 1 / 2))

/-- The shader turns the square of all points over onto itself. -/
theorem flipY_mem_Icc_iff (q : ℚ × ℚ) :
    flipY b q ∈ Set.Icc (0 : ℚ × ℚ) 1 ↔ q ∈ Set.Icc (0 : ℚ × ℚ) 1 := by
  cases b with
  | webrtc => rfl
  | blackmagic =>
      simp only [flipY, Set.mem_Icc, Prod.le_def, Prod.fst_zero, Prod.snd_zero, Prod.fst_one,
        Prod.snd_one, sub_nonneg, sub_le_self_iff]
      exact ⟨fun ⟨⟨hu, hv⟩, hu', hv'⟩ => ⟨⟨hu, hv'⟩, hu', hv⟩,
        fun ⟨⟨hu, hv⟩, hu', hv'⟩ => ⟨⟨hu, hv'⟩, hu', hv⟩⟩

theorem window_eq_some_iff (row column : ℕ) (q : ℚ × ℚ) :
    p.window b row column = some q ↔
      p.scale ≠ 0 ∧ p.windowPoint b row column ∈ Set.Icc (0 : ℚ × ℚ) 1 ∧
        p.windowPoint b row column = q := by
  have hwindow : (calculateVec p.posX p.posY (p.width * p.scale) (p.height * p.scale)).map
      (toWindow b) = calculateVec p.posX p.posY (p.width * p.scale) (p.height * p.scale) := by
    rw [funext (toWindow_eq b)]
    exact List.map_id' _
  rw [window, glMoviePlay, hwindow, Option.map_eq_some_iff, windowPoint, flipY_mem_Icc_iff]
  by_cases hscale : p.scale = 0
  · have harea := not_lt.1 (mt p.area_pos_iff.1 (not_not.2 hscale))
    simp only [drawArrays_calculateVec_of_nonpos harea]
    exact iff_of_false (by simp) (fun h => h.1 hscale)
  · have harea := p.area_pos_iff.2 hscale
    simp only [drawArrays_calculateVec_of_pos harea]
    constructor
    · rintro ⟨r, ⟨hmem, rfl⟩, rfl⟩
      exact ⟨hscale, hmem, rfl⟩
    · rintro ⟨-, hmem, rfl⟩
      exact ⟨_, ⟨hmem, rfl⟩, rfl⟩

end Placement

/-! ## The image -/

section Image

variable {α : Type*} {width : ℕ}

theorem glReadPixels_apply (window : ℕ → ℕ → α) {row column k : ℕ} (hcolumn : column < width)
    (hk : k < 4) :
    glReadPixels width window (4 * (width * row + column) + k) = (window row column, k) := by
  have hpixel : (4 * (width * row + column) + k) / 4 = width * row + column := by omega
  have hbyte : (4 * (width * row + column) + k) % 4 = k := by omega
  have hrow : (width * row + column) / width = row := by
    rw [Nat.mul_add_div (by omega), Nat.div_eq_of_lt hcolumn, Nat.add_zero]
  have hcol : (width * row + column) % width = column := by
    rw [Nat.mul_add_mod, Nat.mod_eq_of_lt hcolumn]
  rw [glReadPixels, hpixel, hbyte, hrow, hcol]

/-- The row of the window that a row of the image is taken from. -/
def windowRow (b : Build) (row : ℕ) : ℕ :=
  match b with
  | .webrtc => b.wndHeightFhd - 1 - row
  | .blackmagic => row

theorem videoBuffer_apply (b : Build) (window : ℕ → ℕ → α) {row column k : ℕ}
    (hrow : row < b.wndHeightFhd) (hcolumn : column < b.wndWidthFhd) (hk : k < 4) :
    videoBuffer b window (4 * (b.wndWidthFhd * row + column) + k) =
      (window (windowRow b row) column, k) := by
  cases b with
  | webrtc =>
      have hsplit : ∀ r, 4 * (Build.wndWidthFhd .webrtc * r + column) + k =
          4 * Build.wndWidthFhd .webrtc * r + (4 * column + k) := fun r => by ring
      rw [videoBuffer, hsplit, reverseRows_apply hrow (by omega), ← hsplit,
        glReadPixels_apply window hcolumn hk, windowRow]
  | blackmagic => exact glReadPixels_apply window hcolumn hk

theorem shows_videoBuffer_iff (b : Build) (window : ℕ → ℕ → α) {row column : ℕ}
    (hrow : row < b.wndHeightFhd) (hcolumn : column < b.wndWidthFhd) (q : α) :
    Shows (videoBuffer b window) b.wndWidthFhd row column q ↔
      window (windowRow b row) column = q := by
  constructor
  · intro hshows
    have hbyte := hshows 0 (by norm_num)
    rw [videoBuffer_apply b window hrow hcolumn (by norm_num)] at hbyte
    exact (Prod.mk.inj hbyte).1
  · rintro rfl k hk
    exact videoBuffer_apply b window hrow hcolumn hk

end Image

namespace Placement

variable (p : Placement) {b : Build}

/-- The place turned over within the first 360 rows. -/
def mirrored : Placement := { p with posY := wndHeight - (p.posY + p.height * p.scale) }

/-- The place where the picture is in the image. -/
def actual : Build → Placement
  | .webrtc => p
  | .blackmagic => p.mirrored

theorem windowPoint_windowRow (hscale : p.scale ≠ 0) {row : ℕ} (hrow : row < b.wndHeightFhd)
    (column : ℕ) :
    p.windowPoint b (windowRow b row) column = (p.actual b).point row column := by
  have hheight : p.height * p.scale ≠ 0 := mul_ne_zero p.height_pos.ne' hscale
  cases b with
  | webrtc =>
      have hlast : (windowRow .webrtc row : ℚ) = wndHeight - 1 - row := by
        have hle : row ≤ wndHeight - 1 := Nat.le_sub_one_of_lt hrow
        rw [windowRow, Build.wndHeightFhd, Nat.cast_sub hle, Nat.cast_sub (by decide),
          Nat.cast_one]
      rw [windowPoint, flipY, texcoord, actual, point, hlast]
      congr 1
      ring
  | blackmagic =>
      have hturned : 1 - (wndHeight - p.posY - (row + 1 / 2)) / (p.height * p.scale) =
          (row + 1 / 2 - (wndHeight - (p.posY + p.height * p.scale))) /
            (p.height * p.scale) := by
        rw [eq_div_iff hheight, sub_mul, div_mul_cancel₀ _ hheight]
        ring
      exact Prod.ext rfl hturned

/-- The picture is at its actual place, upright, and nowhere else in the image. -/
theorem shows_iff {row column : ℕ} (hrow : row < b.wndHeightFhd)
    (hcolumn : column < b.wndWidthFhd) (q : ℚ × ℚ) :
    Shows (videoBuffer b (p.window b)) b.wndWidthFhd row column (some q) ↔
      (p.actual b).Contains row column ∧ (p.actual b).point row column = q := by
  have hsame : (p.actual b).scale = p.scale := by cases b <;> rfl
  rw [shows_videoBuffer_iff b _ hrow hcolumn, window_eq_some_iff, Contains, hsame, and_assoc]
  refine and_congr_right fun hscale => ?_
  rw [p.windowPoint_windowRow hscale hrow]

theorem kept_iff_actual :
    p.Kept b ↔ ∀ row < b.wndHeightFhd, ∀ column < b.wndWidthFhd, ∀ q,
      (p.actual b).Contains row column ∧ (p.actual b).point row column = q ↔
        p.Contains row column ∧ p.point row column = q := by
  refine forall₂_congr fun row hrow => forall₂_congr fun column hcolumn => forall_congr' fun q => ?_
  rw [p.shows_iff hrow hcolumn]

/-- Two places that show the same point at one pixel are the same. -/
theorem posY_eq_of_point_eq {row column : ℕ} (hscale : p.scale ≠ 0)
    (h : p.mirrored.point row column = p.point row column) : p.mirrored.posY = p.posY := by
  have hheight : p.height * p.scale ≠ 0 := mul_ne_zero p.height_pos.ne' hscale
  have hsecond := congrArg Prod.snd h
  simp only [point] at hsecond
  have hnum := (div_left_inj' hheight).1 hsecond
  linarith

theorem mirrored_posY_eq_iff :
    p.mirrored.posY = p.posY ↔ 2 * p.posY + p.height * p.scale = wndHeight := by
  rw [mirrored]
  constructor <;> intro h <;> linarith

/-- The picture is where its fields say in the build without `__BLACKMAGIC_OUTPUT__`. In
the other it is if and only if its rows lie in the middle of the first 360, or it is too
thin to be seen, there as well as at the place where it is drawn. -/
theorem kept_iff :
    p.Kept b ↔ b = .webrtc ∨ 2 * p.posY + p.height * p.scale = wndHeight ∨
      ∀ row < b.wndHeightFhd, ∀ column < b.wndWidthFhd,
        ¬ p.Contains row column ∧ ¬ p.mirrored.Contains row column := by
  rw [kept_iff_actual, ← mirrored_posY_eq_iff]
  cases b with
  | webrtc => simp [actual]
  | blackmagic =>
      constructor
      · intro hkept
        refine .inr (or_iff_not_imp_left.2 fun hmoved row hrow column hcolumn => ?_)
        constructor
        · intro hcontains
          have hboth := (hkept row hrow column hcolumn _).2 ⟨hcontains, rfl⟩
          exact hmoved (p.posY_eq_of_point_eq hcontains.1 hboth.2)
        · intro hcontains
          have hboth := (hkept row hrow column hcolumn _).1 ⟨hcontains, rfl⟩
          exact hmoved (p.posY_eq_of_point_eq hboth.1.1 hboth.2.symm)
      · rintro (hbuild | hplace | hthin) row hrow column hcolumn q
        · cases hbuild
        · have hsame : p.mirrored = p := Placement.ext rfl hplace rfl rfl rfl
          rw [actual, hsame]
        · have hnone := hthin row hrow column hcolumn
          exact iff_of_false (fun h => hnone.2 h.1) (fun h => hnone.1 h.1)

/-- A picture at half its size in the upper right quarter of the smaller canvas. -/
def upperRight : Placement :=
  ⟨320, 0, wndWidth, wndHeight, 1 / 2, by decide, by decide⟩

/-- In the build with `__BLACKMAGIC_OUTPUT__` it appears 180 rows too low. -/
theorem not_kept_upperRight :
    upperRight.Inside .blackmagic ∧ ¬ upperRight.Kept .blackmagic := by
  constructor
  · constructor <;> apply Set.uIcc_subset_Icc <;> constructor <;> decide +kernel
  · intro hkept
    have hcontains : upperRight.Contains 0 320 := by
      refine ⟨by decide +kernel, ?_, ?_⟩ <;> constructor <;> decide +kernel
    have hboth := (upperRight.kept_iff_actual.1 hkept 0 (by decide) 320 (by decide) _).2
      ⟨hcontains, rfl⟩
    have hplace := upperRight.posY_eq_of_point_eq hcontains.1 hboth.2
    exact absurd hplace (by decide +kernel)

end Placement

end Bres
