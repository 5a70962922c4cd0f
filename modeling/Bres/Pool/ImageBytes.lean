import Bres.Basic.Rounding
import Bres.Pool.World

/-!
# The bytes of a static image

What `resourceAddStaticImage` copies and what `gl_generate_texture` hands to OpenGL, byte
by byte. Both take the picture for four channels, whatever the file has, and the sizes
pass through `float` members. So the picture is taken over as it is if and only if it
has four channels and its number of pixels is a `float`; with less channels both read
past its end.
-/

namespace Bres

open Transition FloatValue

/-! ## What is copied -/

/-- `inst.width * inst.height * 4`, as a size, for the sizes of a picture. -/
def floatByteCount (w h : ℕ) : ℕ :=
  (mul single (mul single (ofRat single w) (ofRat single h)) (ofRat single 4)).toInteger

/-- The outside world, with the products of `float` rounded. -/
def Platform.rounded (parse : Bytes → Option Json) : Platform := ⟨parse, floatByteCount⟩

/-- A picture that `stbi_load` can return. -/
structure DecodedImage extends Image where
  w_mem : w ∈ Set.Ico 1 (2 ^ 31)
  h_mem : h ∈ Set.Ico 1 (2 ^ 31)
  f_mem : f ∈ Set.Icc 1 4

namespace Image

/-- The pixel of that number as red, green, blue and opacity: a grey value stands for all
three colours, and a pixel without opacity is opaque. -/
def rgba (image : Image) (k : ℕ) : Bytes :=
  let byte := fun c => image.byteAt (k * image.f + c)
  match image.f with
  | 1 => [byte 0, byte 0, byte 0, 255]
  | 2 => [byte 0, byte 0, byte 0, byte 1]
  | 3 => [byte 0, byte 1, byte 2, 255]
  | _ => [byte 0, byte 1, byte 2, byte 3]

/-- Those bytes are the pixels of the picture, row by row. -/
def IsRgba (image : Image) (bytes : Bytes) : Prop :=
  bytes.length = image.w * image.h * 4 ∧
    ∀ j < image.h, ∀ i < image.w,
      (bytes.drop ((image.w * j + i) * 4)).take 4 = image.rgba (image.w * j + i)

/-- The buffer and the texture of the slot hold the picture, and neither is longer than what
it was read from. -/
structure Kept (image : Image) (inst : Instance) : Prop where
  copied : inst.lastTextureBuffer.length ≤ image.w * image.h * image.f
  buffer_eq : image.IsRgba inst.lastTextureBuffer
  texture : ∃ bytes, inst.texImage = some ⟨image.w, image.h, some bytes⟩ ∧
    bytes.length ≤ image.w * image.h * image.f ∧ image.IsRgba bytes

end Image

/-! ## The sizes -/

theorem ofRat_single_of_fits {n : ℕ} (h : Fits single n) (hn : n < 2 ^ 127) :
    ofRat single n = .finite n := by
  have hlog : Nat.log 2 n < 127 := Nat.log_lt_of_lt_pow' (by norm_num) hn
  exact h.ofRat_eq (by decide) (Int.ofNat_lt.2 hlog)

theorem exists_ofRat_single {n b : ℕ} (hn : n < 2 ^ b) (hb : b ≠ 0) (hmax : b ≤ 127) :
    ∃ c : ℕ, Fits single c ∧ ofRat single n = .finite c ∧ c ≤ 2 ^ b := by
  have hlog : Nat.log 2 n < b := Nat.log_lt_of_lt_pow' hb hn
  have hlt : (Nat.log 2 n : ℤ) < single.maxExponent :=
    Int.ofNat_lt.2 (hlog.trans_le hmax : Nat.log 2 n < 127)
  obtain ⟨c, hfits, hvalue, hc⟩ := exists_fits_of_natCast (by decide) (by decide) hlt
  exact ⟨c, hfits, hvalue, hc.trans (Nat.pow_le_pow_right two_pos hlog)⟩

theorem ofRat_single_four : ofRat single 4 = .finite 4 := by
  have hfits : Fits single 4 := ⟨1, 2, by decide, rfl⟩
  exact_mod_cast ofRat_single_of_fits hfits (by norm_num)

theorem mul_natCast (f : Format) (a b : ℕ) :
    FloatValue.mul f (.finite a) (.finite b) = ofRat f (a * b : ℕ) := by
  rw [Nat.cast_mul]
  rfl

theorem mul_four_of_fits {n : ℕ} (h : Fits single n) (hn : n < 2 ^ 125) :
    FloatValue.mul single (.finite n) (ofRat single 4) = .finite (n * 4 : ℕ) := by
  rw [ofRat_single_four]
  have hproduct := mul_natCast single n 4
  rw [Nat.cast_ofNat] at hproduct
  rw [hproduct]
  exact ofRat_single_of_fits (h.mul_two_pow 2) (by omega)

section Sizes

variable {w h : ℕ}

/-- The copy has room for a number of pixels that is a `float`. -/
theorem exists_floatByteCount (hw : w < 2 ^ 31) (hh : h < 2 ^ 31) :
    ∃ n : ℕ, Fits single n ∧ floatByteCount w h = n * 4 := by
  obtain ⟨a, -, hwidth, ha⟩ := exists_ofRat_single hw (by norm_num) (by norm_num)
  obtain ⟨b, -, hheight, hb⟩ := exists_ofRat_single hh (by norm_num) (by norm_num)
  have hab : a * b < 2 ^ 63 := by
    calc a * b ≤ 2 ^ 31 * 2 ^ 31 := Nat.mul_le_mul ha hb
      _ < 2 ^ 63 := by norm_num
  obtain ⟨n, hfits, hvalue, hn⟩ := exists_ofRat_single hab (by norm_num) (by norm_num)
  refine ⟨n, hfits, ?_⟩
  rw [floatByteCount, hwidth, hheight, mul_natCast, hvalue,
    mul_four_of_fits hfits (hn.trans_lt (by norm_num)), toInteger_natCast]

/-- The sizes and their product are taken over as they are. -/
theorem sizes_of_fits (hw : w ∈ Set.Ico 1 (2 ^ 31)) (hh : h ∈ Set.Ico 1 (2 ^ 31))
    (hfits : Fits single (w * h)) :
    texSize w = w ∧ texSize h = h ∧ floatByteCount w h = w * h * 4 := by
  have hpixels : w * h ≠ 0 := Nat.mul_ne_zero (by have := hw.1; omega) (by have := hh.1; omega)
  have hproduct : w * h < 2 ^ 62 := by
    calc w * h < 2 ^ 31 * 2 ^ 31 := Nat.mul_lt_mul'' hw.2 hh.2
      _ = 2 ^ 62 := (pow_add 2 31 31).symm
  have hwidth : ofRat single w = .finite w :=
    ofRat_single_of_fits (hfits.of_dvd hpixels (Nat.dvd_mul_right w h))
      (hw.2.trans (by norm_num))
  have hheight : ofRat single h = .finite h :=
    ofRat_single_of_fits (hfits.of_dvd hpixels (Nat.dvd_mul_left h w))
      (hh.2.trans (by norm_num))
  refine ⟨by rw [texSize, hwidth, toInteger_natCast],
    by rw [texSize, hheight, toInteger_natCast], ?_⟩
  rw [floatByteCount, hwidth, hheight, mul_natCast,
    ofRat_single_of_fits hfits (hproduct.trans (by norm_num)),
    mul_four_of_fits hfits (hproduct.trans (by norm_num)), toInteger_natCast]

end Sizes

/-! ## The pixels -/

namespace Image

variable {image : Image}

/-- Read for four channels, a picture with four channels is its own RGBA form. -/
theorem isRgba_read (hf : image.f = 4) : image.IsRgba (image.read (image.w * image.h * 4)) := by
  refine ⟨length_read .., fun j hj i hi => ?_⟩
  have hpixel : image.w * j + i + 1 ≤ image.w * image.h := by
    calc image.w * j + i + 1 ≤ image.w * j + image.w := by omega
      _ = image.w * (j + 1) := (Nat.mul_succ _ _).symm
      _ ≤ image.w * image.h := Nat.mul_le_mul_left _ hj
  have hbytes : image.rgba (image.w * j + i) =
      (List.range 4).map fun c => image.byteAt ((image.w * j + i) * 4 + c) := by
    simp only [rgba, hf]
    rfl
  rw [hbytes, read, ← List.map_drop, ← List.map_take]
  generalize image.w * j + i = k at hpixel
  apply List.ext_getElem
  · simp only [List.length_map, List.length_take, List.length_drop, List.length_range]
    omega
  · intro c hc hc'
    simp

end Image

/-! ## Adding an image -/

section Shown

variable {parse : Bytes → Option Json} {path : String} {x y : FloatValue} {env : Answers}
  {inst : Instance}

/-- Reads of a picture that has four channels stay inside it if its number of pixels is a
`float`. -/
theorem copies_of_fits {image : DecodedImage} (hf : image.f = 4)
    (hfits : Fits single (image.w * image.h)) :
    env.Copies (Platform.rounded parse) image.toImage := by
  obtain ⟨hwidth, hheight, hcount⟩ := sizes_of_fits image.w_mem image.h_mem hfits
  have hlength : image.data.length = image.w * image.h * 4 := hf ▸ image.size_eq
  refine ⟨fun hpast => ?_, fun hpast => ?_⟩
  · have hlt : image.data.length < floatByteCount image.w image.h := hpast.2
    omega
  · have hlt : image.data.length < texBytes image.w image.h := hpast.2
    rw [texBytes, hwidth, hheight] at hlt
    omega

/-- The buffer and the texture are the picture if and only if it has four channels and its
number of pixels is a `float`. -/
theorem shownImage_kept_iff {image : DecodedImage} :
    image.Kept (shownImage (Platform.rounded parse) path x y image.toImage env inst) ↔
      image.f = 4 ∧ Fits single (image.w * image.h) := by
  have hbuffer :
      (shownImage (Platform.rounded parse) path x y image.toImage env inst).lastTextureBuffer =
        image.read (floatByteCount image.w image.h) := rfl
  constructor
  · intro hkept
    have hlength : floatByteCount image.w image.h = image.w * image.h * 4 := by
      rw [← hkept.buffer_eq.1, hbuffer, Image.length_read]
    have hpixels : 0 < image.w * image.h := Nat.mul_pos image.w_mem.1 image.h_mem.1
    have hchannels : 4 ≤ image.f := by
      have hle := hkept.copied
      rw [hbuffer, Image.length_read, hlength] at hle
      exact Nat.le_of_mul_le_mul_left hle hpixels
    obtain ⟨n, hfits, hn⟩ := exists_floatByteCount image.w_mem.2 image.h_mem.2
    have heq : n = image.w * image.h := by omega
    exact ⟨le_antisymm image.f_mem.2 hchannels, heq ▸ hfits⟩
  · rintro ⟨hf, hfits⟩
    obtain ⟨hwidth, hheight, hcount⟩ := sizes_of_fits image.w_mem image.h_mem hfits
    have hread : image.IsRgba (image.read (image.w * image.h * 4)) := Image.isRgba_read hf
    have hinside : (image.read (image.w * image.h * 4)).length ≤
        image.w * image.h * image.f := by rw [Image.length_read, hf]
    have htexture :
        (shownImage (Platform.rounded parse) path x y image.toImage env inst).texImage =
          some ⟨image.w, image.h, some (image.read (image.w * image.h * 4))⟩ := by
      simp only [shownImage, texBytes, hwidth, hheight]
    rw [hcount] at hbuffer
    exact
      { copied := hbuffer ▸ hinside
        buffer_eq := hbuffer ▸ hread
        texture := ⟨_, htexture, hinside, hread⟩ }

end Shown

section Add

variable {parse : Bytes → Option Json} {ev : Bytes} {json : Json} {path posX posY : String}
  {x y : FloatValue} {i : Fin instanceMax} {pool : Pool} {env : Answers}

/-- An add that returns has shown the image in its slot. -/
theorem addImage_eq_done_iff (hparse : parse ev = some json)
    (hpath : json.HasString "path" path) (hposX : json.HasString "pos_x" posX)
    (hposY : json.HasString "pos_y" posY) (hx : stof posX = .ok x) (hy : stof posY = .ok y)
    (hindex : pool.freeIndex = i) {image : Image} (hload : env.stbiLoad path = some image)
    {pool' : Pool} :
    resourceAddStaticImage (Platform.rounded parse) ev env pool = .done pool' ↔
      env.Copies (Platform.rounded parse) image ∧
        pool' = ⟨Function.update pool.slot i (shownImage (Platform.rounded parse) path x y image
          env (pool.slot i)), env.texture :: pool.shared⟩ := by
  have hplatform : (Platform.rounded parse).parse ev = some json := hparse
  rw [addImage_of_present hplatform hpath hposX hposY hindex, hload]
  simp only [Family.visit_eq_done_iff, showImage_eq_done_iff, hx, hy, Except.ok.injEq,
    Prod.mk.injEq]
  constructor
  · rintro ⟨_, _, ⟨_, _, rfl, rfl, hcopies, rfl, rfl⟩, rfl⟩
    exact ⟨hcopies, rfl⟩
  · rintro ⟨hcopies, rfl⟩
    exact ⟨_, _, ⟨x, y, rfl, rfl, hcopies, rfl, rfl⟩, rfl⟩

/-- An add takes an image over as it is if and only if the image has four channels and
its number of pixels is a `float`. -/
theorem addImage_kept_iff (image : DecodedImage) (hparse : parse ev = some json)
    (hpath : json.HasString "path" path) (hposX : json.HasString "pos_x" posX)
    (hposY : json.HasString "pos_y" posY) (hx : stof posX = .ok x) (hy : stof posY = .ok y)
    (hindex : pool.freeIndex = i) (hload : env.stbiLoad path = some image.toImage) :
    (∃ pool', resourceAddStaticImage (Platform.rounded parse) ev env pool = .done pool' ∧
        image.Kept (pool'.slot i)) ↔
      image.f = 4 ∧ Fits single (image.w * image.h) := by
  constructor
  · rintro ⟨pool', hdone, hkept⟩
    obtain ⟨-, rfl⟩ :=
      (addImage_eq_done_iff hparse hpath hposX hposY hx hy hindex hload).1 hdone
    simp only [Function.update_self] at hkept
    exact shownImage_kept_iff.1 hkept
  · intro hfits
    have hcopies : env.Copies (Platform.rounded parse) image.toImage :=
      copies_of_fits hfits.1 hfits.2
    refine ⟨_, (addImage_eq_done_iff hparse hpath hposX hposY hx hy hindex hload).2
      ⟨hcopies, rfl⟩, ?_⟩
    simp only [Function.update_self]
    exact shownImage_kept_iff.2 hfits

end Add

namespace Sample

/-- The picture of two by two pixels. -/
def opaqueImage : DecodedImage where
  toImage := image
  w_mem := by decide
  h_mem := by decide
  f_mem := by decide

/-- One grey pixel. -/
def greyImage : DecodedImage where
  address := 8
  w := 1
  h := 1
  f := 1
  data := [127]
  beyond _ := 0
  size_eq := rfl
  w_mem := by decide
  h_mem := by decide
  f_mem := by decide

/-- A picture whose number of pixels, 16785409, is odd and has 25 bits. -/
def oddImage : DecodedImage where
  address := 8
  w := 4097
  h := 4097
  f := 4
  data := List.replicate (4097 * 4097 * 4) 0
  beyond _ := 0
  size_eq := List.length_replicate
  w_mem := by decide
  h_mem := by decide
  f_mem := by decide

/-- The outside world, where every path leads to that picture. -/
def answersWith (image : Image) : Answers where
  stbiLoad _ := some image
  texture := 1

end Sample

theorem addImage_kept_iff_sample :
    (∃ pool', resourceAddStaticImage (Platform.rounded Sample.platform.parse)
        (flatText Sample.addImage) (Sample.answersWith Sample.opaqueImage.toImage)
          Pool.startup = .done pool' ∧
      Sample.opaqueImage.Kept (pool'.slot 0)) ↔
        Sample.opaqueImage.f = 4 ∧
          Fits single (Sample.opaqueImage.w * Sample.opaqueImage.h) := by
  exact addImage_kept_iff Sample.opaqueImage Sample.parse_addImage rfl rfl rfl Sample.stof_zero
    Sample.stof_zero Sample.startup_freeIndex rfl

theorem not_fits_odd : ¬ Fits single (4097 * 4097) := by
  rintro ⟨m, k, hm, heq⟩
  have hbits : m < 16777216 := hm
  cases k with
  | zero => omega
  | succ k =>
      rw [pow_succ, ← Nat.mul_assoc] at heq
      omega

/-- The sample add does not take a picture over that misses one of the two conditions. -/
theorem Sample.not_kept_of_not {image : DecodedImage}
    (h : ¬ (image.f = 4 ∧ Fits single (image.w * image.h))) :
    ∃ pool', resourceAddStaticImage (Platform.rounded platform.parse) (flatText addImage)
        (answersWith image.toImage) Pool.startup = .done pool' ∧
      ¬ image.Kept (pool'.slot 0) := by
  have hcopies : (answersWith image.toImage).Copies (Platform.rounded platform.parse)
      image.toImage := ⟨by simp [Answers.Overreads, answersWith],
        by simp [Answers.Overreads, answersWith]⟩
  refine ⟨_, (addImage_eq_done_iff parse_addImage rfl rfl rfl stof_zero stof_zero
    startup_freeIndex rfl).2 ⟨hcopies, rfl⟩, ?_⟩
  simp only [Function.update_self]
  rwa [shownImage_kept_iff]

/-- A grey picture is read past its end, and of the other one pixel is missing. -/
theorem addImage_not_kept :
    (∃ pool', resourceAddStaticImage (Platform.rounded Sample.platform.parse)
        (flatText Sample.addImage) (Sample.answersWith Sample.greyImage.toImage)
          Pool.startup = .done pool' ∧
      ¬ Sample.greyImage.Kept (pool'.slot 0)) ∧
    ∃ pool', resourceAddStaticImage (Platform.rounded Sample.platform.parse)
        (flatText Sample.addImage) (Sample.answersWith Sample.oddImage.toImage)
          Pool.startup = .done pool' ∧
      ¬ Sample.oddImage.Kept (pool'.slot 0) :=
  ⟨Sample.not_kept_of_not fun h => absurd h.1 (by decide),
    Sample.not_kept_of_not fun h => not_fits_odd h.2⟩

end Bres
