import Bres.Geometry.Triangle
import Bres.Memory.Rows
import Bres.Pool.Exit
import Bres.Sdi.Pipeline

/-!
# From a slot's picture to the outgoing image

The drawing of `src/gl.cc`, and what `main` does with the window afterwards, in the two
builds. Window coordinates have their origin in the lower left corner, and `glReadPixels`
delivers the lowest row first. A pixel shows what is drawn at its centre.

A point of a picture is a pair of numbers from 0 to 1, counted from the left and from the
top: the first row of a texture is the first row of the picture, and its texture
coordinate is 0. A byte of the image is known by its pixel and its component, and a pixel
by the point of the picture that it shows, or `none` if it does not show the picture.
Which colour the shader makes of a point, and what other slots draw over it, does not
matter here.
-/

namespace Bres

open Geometry Memory

/-- `WND_WIDTH_FHD` -/
def Build.wndWidthFhd : Build → ℕ
  | .webrtc => wndWidth
  | .blackmagic => Bres.wndWidthFhd

/-- `WND_HEIGHT_FHD` -/
def Build.wndHeightFhd : Build → ℕ
  | .webrtc => wndHeight
  | .blackmagic => Bres.wndHeightFhd

/-! ## Drawing -/

/-- `calculateVec` -/
def calculateVec (x y w h : ℚ) : List (Vertex ℚ) :=
  [⟨x, wndHeight - y, 0, 0⟩,
    ⟨x, wndHeight - (y + h), 0, 1⟩,
    ⟨x + w, wndHeight - (y + h), 1, 1⟩,
    ⟨x + w, wndHeight - y, 1, 0⟩,
    ⟨x, wndHeight - y, 0, 0⟩,
    ⟨x + w, wndHeight - (y + h), 1, 1⟩]

/-- One axis of the matrix that `glm::ortho` makes for the range from `low` to `high`. -/
def ortho (low high x : ℚ) : ℚ := 2 / (high - low) * x - (high + low) / (high - low)

/-- One axis of `glViewport`, for a window that begins at 0. -/
def viewport (size : ℕ) (x : ℚ) : ℚ := (x + 1) * (size / 2)

/-- The vertex shader with the projection of `gl_init`, and the viewport behind it. -/
def toWindow (b : Build) (v : Vertex ℚ) : Vertex ℚ :=
  { v with
    x := viewport b.wndWidthFhd (ortho 0 b.wndWidthFhd v.x)
    y := viewport b.wndHeightFhd (ortho 0 b.wndHeightFhd v.y) }

/-- The point where the fragment shader reads the texture, `__SHPG_FLIP_Y__`. -/
def flipY (b : Build) (texcoord : ℚ × ℚ) : ℚ × ℚ :=
  match b with
  | .webrtc => texcoord
  | .blackmagic => (texcoord.1, 1 - texcoord.2)

/-- `gl_movie_play`, at the pixel of the window in a row and a column. -/
def glMoviePlay (b : Build) (x y w h scalex scaley : ℚ) (row column : ℕ) : Option (ℚ × ℚ) :=
  (drawArrays ((calculateVec x y (w * scalex) (h * scaley)).map (toWindow b))
    (column + 1 / 2) (row + 1 / 2)).map (flipY b)

/-- What `main` draws of a slot, as far as the numbers of its place are finite. -/
def drawSlot (b : Build) (inst : Instance) (row column : ℕ) : Option (ℚ × ℚ) :=
  if inst.isDraw ≠ 0 then
    match inst.posX, inst.posY, inst.scale with
    | .finite x, .finite y, .finite scale =>
        glMoviePlay b x y inst.width inst.height scale scale row column
    | _, _, _ => none
  else none

/-! ## Reading back -/

/-- `glReadPixels` of a window of that width, with four bytes for each pixel. -/
def glReadPixels {α : Type*} (width : ℕ) (window : ℕ → ℕ → α) (i : ℕ) : α × ℕ :=
  (window (i / 4 / width) (i / 4 % width), i % 4)

/-- What `videoBuffer` holds when it is handed on: to `Render`, after its rows have been
swapped, or to `bm_add_pipeline_frame`. -/
def videoBuffer {α : Type*} (b : Build) (window : ℕ → ℕ → α) : ℕ → α × ℕ :=
  match b with
  | .webrtc =>
      reverseRows (4 * b.wndWidthFhd) b.wndHeightFhd (glReadPixels b.wndWidthFhd window)
  | .blackmagic => glReadPixels b.wndWidthFhd window

/-- The four bytes of the pixel in a row and a column of an image come from `p`. -/
def Shows {α : Type*} (image : ℕ → α × ℕ) (width row column : ℕ) (p : α) : Prop :=
  ∀ k < 4, image (4 * (width * row + column) + k) = (p, k)

/-! ## Placements -/

/-- The place of a picture, as the fields of its slot give it. The sizes are those of a
texture. -/
@[ext]
structure Placement where
  posX : ℚ
  posY : ℚ
  width : ℚ
  height : ℚ
  scale : ℚ
  width_pos : 0 < width
  height_pos : 0 < height

namespace Placement

/-- The place that the fields of a slot give. -/
def OfSlot (p : Placement) (inst : Instance) : Prop :=
  inst.posX = .finite p.posX ∧ inst.posY = .finite p.posY ∧ inst.scale = .finite p.scale ∧
    p.width = inst.width ∧ p.height = inst.height

/-- The point of a picture at that place which the pixel in a row and a column of the
image is to show: how far the centre of the pixel is from the left and from the top. -/
def point (p : Placement) (row column : ℕ) : ℚ × ℚ :=
  ((column + 1 / 2 - p.posX) / (p.width * p.scale),
    (row + 1 / 2 - p.posY) / (p.height * p.scale))

/-- The centre of that pixel lies in the rectangle of the picture. -/
def Contains (p : Placement) (row column : ℕ) : Prop :=
  p.scale ≠ 0 ∧ p.point row column ∈ Set.Icc (0 : ℚ × ℚ) 1

/-- The whole picture lies inside the canvas of the build. -/
def Inside (p : Placement) (b : Build) : Prop :=
  Set.uIcc p.posX (p.posX + p.width * p.scale) ⊆ Set.Icc 0 (b.wndWidthFhd : ℚ) ∧
    Set.uIcc p.posY (p.posY + p.height * p.scale) ⊆ Set.Icc 0 (b.wndHeightFhd : ℚ)

/-- What the window shows of the picture. -/
def window (p : Placement) (b : Build) : ℕ → ℕ → Option (ℚ × ℚ) :=
  glMoviePlay b p.posX p.posY p.width p.height p.scale p.scale

/-- The picture is where its fields say, upright, and nowhere else in the image. -/
def Kept (p : Placement) (b : Build) : Prop :=
  ∀ row < b.wndHeightFhd, ∀ column < b.wndWidthFhd, ∀ q,
    Shows (videoBuffer b (p.window b)) b.wndWidthFhd row column (some q) ↔
      p.Contains row column ∧ p.point row column = q

end Placement

end Bres
