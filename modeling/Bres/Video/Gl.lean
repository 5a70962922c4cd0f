import Bres.Video.Draw

/-!
# The state that a slot is drawn with

`gl_movie_play` of `src/gl.cc` goes through objects that all slots share: the uniforms of the
program, one vertex buffer, and the textures, one for each name. Here they are the state of
OpenGL, as the calls of `gl_movie_play` change it, and all numbers are `float`.

What `glClear` and `glDrawArrays` make of the window is OpenGL's own affair, and a `Driver` says
what it is. The window may be any type. What a draw has to do with is only the window and what
the call reads, as everything else is as `gl_init` has left it.

A draw replaces all that it reads, so that nothing of an earlier one is left in it, as long as
the texture of the slot has the size of its picture.
-/

namespace Bres

open FloatValue (single)
open Geometry

/-! ## Textures -/

/-- The image of a texture, with four bytes for each texel. What a texel holds is not known
where `glTexImage2D` was given no picture or one that is gone. -/
structure Texture where
  width : ℕ
  height : ℕ
  texel : Fin height → Fin width → Fin 4 → Option UInt8

/-- Where the bytes of a pixel are among rows of `width` pixels, with `GL_UNPACK_ALIGNMENT`
at 1. -/
def pixelOffset (width row column k : ℕ) : ℕ := (width * row + column) * 4 + k

namespace Texture

/-- The texture of that size with the bytes of a picture. -/
def ofFrame (width height : ℕ) (frame : ℕ → UInt8) : Texture where
  width := width
  height := height
  texel row column k := some (frame (pixelOffset width row column k))

/-- `glTexSubImage2D` at the first texel. A picture that is larger than the texture is an
error, and the texture is kept. -/
def subImage (t : Texture) (width height : ℕ) (frame : ℕ → UInt8) : Texture :=
  if width ≤ t.width ∧ height ≤ t.height then
    { t with
      texel := fun row column k =>
        if row < height ∧ column < width then some (frame (pixelOffset width row column k))
        else t.texel row column k }
  else t

theorem size_subImage (t : Texture) (width height : ℕ) (frame : ℕ → UInt8) :
    (t.subImage width height frame).width = t.width ∧
      (t.subImage width height frame).height = t.height := by
  unfold subImage
  split <;> exact ⟨rfl, rfl⟩

/-- A picture of the size of the texture replaces all of it. -/
theorem subImage_self (t : Texture) (frame : ℕ → UInt8) :
    t.subImage t.width t.height frame = ofFrame t.width t.height frame := by
  rw [subImage, if_pos ⟨le_rfl, le_rfl⟩, ofFrame]
  congr 1
  funext row column k
  exact if_pos ⟨row.isLt, column.isLt⟩

end Texture

/-- The texture that a call of `glTexImage2D` makes. -/
def TexImage.texture (t : TexImage) : Texture where
  width := t.width
  height := t.height
  texel row column k := t.bytes.bind (·[pixelOffset t.width row column k]?)

/-! ## Drawing -/

/-- The uniforms of the fragment shader that `gl_movie_play` sets. The key colour is a constant
of the shader, and the call for it finds no uniform of that name. -/
structure Uniforms where
  alpha : FloatValue
  toblack : FloatValue
  threashold : FloatValue

/-- What a call of `glDrawArrays` reads. Without a texture the shader reads that of an
incomplete one. -/
structure DrawCall where
  uniforms : Uniforms
  texture : Option Texture
  vertices : List (Vertex FloatValue)

/-- What OpenGL makes of the window, and its `GL_MAX_TEXTURE_SIZE`. -/
structure Driver (Window : Type*) where
  maxTextureSize : ℕ
  clear : (red green blue alpha : FloatValue) → Window
  drawArrays : DrawCall → Window → Window

/-- `calculateVec`, in `float` -/
def calculateVecFloat (x y w h : FloatValue) : List (Vertex FloatValue) :=
  let right := x.add single w
  let top := FloatValue.sub single (.finite wndHeight) y
  let bottom := FloatValue.sub single (.finite wndHeight) (y.add single h)
  [⟨x, top, 0, 0⟩,
    ⟨x, bottom, 0, 1⟩,
    ⟨right, bottom, 1, 1⟩,
    ⟨right, top, 1, 0⟩,
    ⟨x, top, 0, 0⟩,
    ⟨right, bottom, 1, 1⟩]

/-- Where the four corners are numbers of the format, they are those of the exact
calculation. -/
theorem calculateVecFloat_finite {x y w h : ℚ}
    (hright : FloatValue.ofRat single (x + w) = .finite (x + w))
    (hlower : FloatValue.ofRat single (y + h) = .finite (y + h))
    (htop : FloatValue.ofRat single (wndHeight - y) = .finite (wndHeight - y))
    (hbottom : FloatValue.ofRat single (wndHeight - (y + h)) = .finite (wndHeight - (y + h))) :
    calculateVecFloat (.finite x) (.finite y) (.finite w) (.finite h) =
      (calculateVec x y w h).map fun v => ⟨.finite v.x, .finite v.y, .finite v.s, .finite v.t⟩ := by
  simp only [calculateVecFloat, FloatValue.add, FloatValue.sub, hright, hlower, ← sub_eq_add_neg,
    htop, hbottom]
  rfl

/-- The textures under their names, the uniforms, the vertex buffer and the window. A name
without a texture may be one that is not in use, or one for which `glTexImage2D` failed. -/
structure Gl (Window : Type*) where
  textures : GLuint → Option Texture
  uniforms : Uniforms
  vertexBuffer : List (Vertex FloatValue)
  window : Window

namespace Driver

variable {Window : Type*}

/-- A texture of that size, if OpenGL makes one. -/
def atSize {α : Type*} (D : Driver Window) (width height : ℕ) (a : α) : Option α :=
  if width ≤ D.maxTextureSize ∧ height ≤ D.maxTextureSize then some a else none

/-- `glTexImage2D` -/
def texImage2D (D : Driver Window) (t : TexImage) : Option Texture :=
  D.atSize t.width t.height t.texture

end Driver

namespace Gl

variable {Window : Type*}

/-- `glUniform1f` for the three uniforms. -/
def setUniforms (alpha toblack threashold : FloatValue) (gl : Gl Window) : Gl Window :=
  { gl with uniforms := ⟨alpha, toblack, threashold⟩ }

/-- `glTexSubImage2D` for the texture of that name. -/
def texSubImage2D (name : GLuint) (width height : ℕ) (frame : ℕ → UInt8) (gl : Gl Window) :
    Gl Window :=
  { gl with
    textures := Function.update gl.textures name
      ((gl.textures name).map fun t => t.subImage width height frame) }

/-- `glBufferSubData` at the first vertex. More than the buffer has room for is an error. -/
def bufferSubData (vertices : List (Vertex FloatValue)) (gl : Gl Window) : Gl Window :=
  if vertices.length ≤ gl.vertexBuffer.length then
    { gl with vertexBuffer := vertices ++ gl.vertexBuffer.drop vertices.length }
  else gl

/-- `glDrawArrays` of the first six vertices, with the texture of that name. -/
def drawArrays (D : Driver Window) (name : GLuint) (gl : Gl Window) : Gl Window :=
  { gl with
    window := D.drawArrays ⟨gl.uniforms, gl.textures name, gl.vertexBuffer.take 6⟩ gl.window }

/-- `gl_movie_play` -/
def moviePlay (D : Driver Window) (inst : Instance) (frame : ℕ → UInt8)
    (alpha toblack x y w h scalex scaley : FloatValue) (gl : Gl Window) : Gl Window :=
  let vertices := calculateVecFloat x y (w.mul single scalex) (h.mul single scaley)
  let gl := gl.setUniforms alpha toblack inst.chromakey
  let gl := gl.texSubImage2D inst.movieTexture w.toInteger h.toInteger frame
  (gl.bufferSubData vertices).drawArrays D inst.movieTexture

/-- `glClear` with the colour that `main` sets in front of it. -/
def clear (D : Driver Window) (gl : Gl Window) : Gl Window :=
  { gl with window := D.clear 0 1 0 1 }

end Gl

namespace Instance

/-- The bytes from `lastTextureBuffer_.data()` on. `behind` is what follows the buffer in
memory. -/
def frame (inst : Instance) (behind : ℕ → UInt8) (k : ℕ) : UInt8 :=
  inst.lastTextureBuffer.getD k (behind k)

/-- A size of a slot as the `float` that it is. -/
def floatSize (n : ℕ) : FloatValue := FloatValue.ofRat single n

theorem toInteger_floatSize (n : ℕ) : (floatSize n).toInteger = texSize n := rfl

end Instance

namespace Gl

variable {Window : Type*}

/-- What `main` does with a slot. -/
def drawSlot (D : Driver Window) (behind : ℕ → UInt8) (inst : Instance) (gl : Gl Window) :
    Gl Window :=
  if inst.isDraw ≠ 0 then
    gl.moviePlay D inst (inst.frame behind) 1 1 inst.posX inst.posY
      (Instance.floatSize inst.width) (Instance.floatSize inst.height) inst.scale inst.scale
  else gl

/-- The drawing of one turn of `main`, from `glClear` on. -/
def drawPool (D : Driver Window) (behind : Fin instanceMax → ℕ → UInt8) (pool : Pool)
    (gl : Gl Window) : Gl Window :=
  (List.finRange instanceMax).foldl (fun gl i => gl.drawSlot D (behind i) (pool.slot i))
    (gl.clear D)

end Gl

/-! ## What a slot brings with it -/

namespace Instance

variable {Window : Type*}

/-- The draw of a slot by itself: its own picture, as long as OpenGL makes textures of that
size, at its own place and with its own threshold. -/
def drawCall (D : Driver Window) (behind : ℕ → UInt8) (inst : Instance) : DrawCall where
  uniforms := ⟨1, 1, inst.chromakey⟩
  texture :=
    let width := texSize inst.width
    let height := texSize inst.height
    D.atSize width height (Texture.ofFrame width height (inst.frame behind))
  vertices :=
    calculateVecFloat inst.posX inst.posY ((floatSize inst.width).mul single inst.scale)
      ((floatSize inst.height).mul single inst.scale)

end Instance

/-- The slots that are drawn, over each other in their order. -/
def compose {Window : Type*} (D : Driver Window) (behind : Fin instanceMax → ℕ → UInt8)
    (pool : Pool) : Window :=
  ((List.finRange instanceMax).filter fun i => (pool.slot i).isDraw ≠ 0).foldl
    (fun window i => D.drawArrays ((pool.slot i).drawCall D (behind i)) window) (D.clear 0 1 0 1)

namespace Gl

variable {Window : Type*} {D : Driver Window} {gl : Gl Window} {inst : Instance}
  {behind : ℕ → UInt8}

/-- The texture of a slot has the size of its picture. It has no image if OpenGL makes no
textures of that size. -/
def Stores (D : Driver Window) (gl : Gl Window) (inst : Instance) : Prop :=
  (gl.textures inst.movieTexture).map (fun t => (t.width, t.height)) =
    D.atSize (texSize inst.width) (texSize inst.height) (texSize inst.width, texSize inst.height)

/-- The vertex buffer has the room that `gl_init` has made. -/
def HasRoom (gl : Gl Window) : Prop := gl.vertexBuffer.length = 6

theorem bufferSubData_eq {vertices : List (Vertex FloatValue)} (hroom : gl.HasRoom)
    (hlength : vertices.length = 6) :
    gl.bufferSubData vertices = { gl with vertexBuffer := vertices } := by
  rw [bufferSubData, hlength, if_pos (Nat.le_of_eq hroom.symm), List.drop_of_length_le
    (Nat.le_of_eq hroom), List.append_nil]

/-- The upload replaces the whole texture. -/
theorem Stores.map_subImage (h : gl.Stores D inst) (frame : ℕ → UInt8) :
    (gl.textures inst.movieTexture).map
        (fun t => t.subImage (texSize inst.width) (texSize inst.height) frame) =
      D.atSize (texSize inst.width) (texSize inst.height)
        (Texture.ofFrame (texSize inst.width) (texSize inst.height) frame) := by
  rw [Stores, Driver.atSize] at h
  rw [Driver.atSize]
  split at h <;> rename_i hfits
  · obtain ⟨t, ht, hsize⟩ := Option.map_eq_some_iff.1 h
    obtain ⟨hwidth, hheight⟩ := Prod.mk.inj hsize
    rw [if_pos hfits, ht, ← hwidth, ← hheight, Option.map_some, t.subImage_self]
  · rw [if_neg hfits, Option.map_eq_none_iff.1 h, Option.map_none]

/-- A drawn slot draws what it brings with it. -/
theorem drawSlot_eq (hroom : gl.HasRoom) (h : gl.Stores D inst) (hdraw : inst.isDraw ≠ 0) :
    gl.drawSlot D behind inst =
      { textures := Function.update gl.textures inst.movieTexture
          (inst.drawCall D behind).texture
        uniforms := (inst.drawCall D behind).uniforms
        vertexBuffer := (inst.drawCall D behind).vertices
        window := D.drawArrays (inst.drawCall D behind) gl.window } := by
  have hupload := h.map_subImage (inst.frame behind)
  rw [drawSlot, if_pos hdraw, moviePlay, bufferSubData_eq (by exact hroom) rfl]
  simp only [drawArrays, texSubImage2D, setUniforms, Function.update_self]
  rw [Instance.toInteger_floatSize, Instance.toInteger_floatSize, hupload]
  rfl

theorem HasRoom.drawSlot (hroom : gl.HasRoom) (h : inst.isDraw ≠ 0 → gl.Stores D inst)
    (behind : ℕ → UInt8) : (gl.drawSlot D behind inst).HasRoom := by
  by_cases hdraw : inst.isDraw ≠ 0
  · rw [drawSlot_eq hroom (h hdraw) hdraw]
    rfl
  · rw [Gl.drawSlot, if_neg hdraw]
    exact hroom

/-- Drawing a slot leaves the sizes of all textures alone. -/
theorem Stores.drawSlot {other : Instance} (h : gl.Stores D other) :
    (gl.drawSlot D behind inst).Stores D other := by
  by_cases hdraw : inst.isDraw ≠ 0
  · have htextures : (gl.drawSlot D behind inst).textures =
        Function.update gl.textures inst.movieTexture ((gl.textures inst.movieTexture).map
          fun t => t.subImage (texSize inst.width) (texSize inst.height) (inst.frame behind)) := by
      rw [Gl.drawSlot, if_pos hdraw, moviePlay, bufferSubData]
      split <;> rfl
    rw [Stores, htextures]
    by_cases hname : other.movieTexture = inst.movieTexture
    · rw [Stores, hname] at h
      rw [hname, Function.update_self, Option.map_map, ← h]
      refine congrArg (Option.map · _) (funext fun t => ?_)
      exact Prod.ext (t.size_subImage ..).1 (t.size_subImage ..).2
    · rw [Function.update_of_ne hname]
      exact h
  · rw [Gl.drawSlot, if_neg hdraw]
    exact h

variable {pool : Pool}

/-- The slots are drawn one after the other. -/
theorem foldl_drawSlot (behind : Fin instanceMax → ℕ → UInt8) (hroom : gl.HasRoom)
    (h : ∀ i, (pool.slot i).isDraw ≠ 0 → gl.Stores D (pool.slot i))
    (slots : List (Fin instanceMax)) :
    let gl' := slots.foldl (fun gl i => gl.drawSlot D (behind i) (pool.slot i)) gl
    gl'.HasRoom ∧ (∀ inst, gl.Stores D inst → gl'.Stores D inst) ∧
      gl'.window = (slots.filter fun i => (pool.slot i).isDraw ≠ 0).foldl
        (fun window i => D.drawArrays ((pool.slot i).drawCall D (behind i)) window) gl.window := by
  induction slots generalizing gl with
  | nil => exact ⟨hroom, fun _ h => h, rfl⟩
  | cons i slots ih =>
      obtain ⟨hroom', hstores, hwindow⟩ := ih (hroom.drawSlot (h i) (behind i))
        fun j hj => (h j hj).drawSlot
      refine ⟨hroom', fun inst hinst => hstores inst hinst.drawSlot, hwindow.trans ?_⟩
      by_cases hdraw : (pool.slot i).isDraw ≠ 0
      · rw [drawSlot_eq hroom (h i hdraw) hdraw, List.filter_cons_of_pos (by simpa using hdraw),
          List.foldl_cons]
      · rw [drawSlot, if_neg hdraw, List.filter_cons_of_neg (by simpa using hdraw)]

/-- The drawing of a turn, where the texture of each drawn slot has the size of its picture. -/
theorem drawPool_spec (behind : Fin instanceMax → ℕ → UInt8) (hroom : gl.HasRoom)
    (h : ∀ i, (pool.slot i).isDraw ≠ 0 → gl.Stores D (pool.slot i)) :
    (gl.drawPool D behind pool).HasRoom ∧
      (∀ inst, gl.Stores D inst → (gl.drawPool D behind pool).Stores D inst) ∧
      (gl.drawPool D behind pool).window = compose D behind pool :=
  @foldl_drawSlot _ D (gl.clear D) pool behind hroom h _

end Gl

end Bres
