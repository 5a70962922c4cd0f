import Bres.Transition.Outcome
import Bres.Video.Draw

/-!
# The read-back loop

The loop of `main` behind `glReadPixels`, on the bytes of a frame: each line of the
lower half is swapped with its counterpart by `std::swap_ranges`. An access outside of
the vector is a fault. The macros `WND_WIDTH_FHD` and `WND_HEIGHT_FHD` are parameters
here. The loop does to the bytes what `reverseRows` does to the cells of a buffer, so
no access leaves the vector, and the lines come out in the opposite order.
-/

namespace Bres

open Memory Transition

/-- A frame of that size, four bytes a pixel, as `glReadPixels` delivers it. -/
structure RawFrame (width height : ℕ) where
  bytes : Bytes
  size_eq : bytes.length = 4 * width * height

/-- A line of a frame of that width. -/
def frameLine (width : ℕ) (frame : Bytes) (line : ℕ) : Bytes :=
  (frame.drop (4 * width * line)).take (4 * width)

/-- `std::swap` of two elements of a vector. -/
def swapBytes (buffer : Bytes) (i j : ℕ) : Except Fault Bytes :=
  match buffer[i]?, buffer[j]? with
  | some a, some b => .ok ((buffer.set i b).set j a)
  | _, _ => .error .bufferOverflow

/-- The arguments of `std::swap_ranges`, counted from the beginning of the vector. -/
structure SwapCall where
  first : ℕ
  last : ℕ
  first2 : ℕ
deriving DecidableEq

/-- `std::swap_ranges` -/
def SwapCall.run (call : SwapCall) (buffer : Bytes) : Except Fault Bytes :=
  (List.range (call.last - call.first)).foldlM
    (fun buffer k => swapBytes buffer (call.first + k) (call.first2 + k)) buffer

/-- The call of one turn. The source counts in `int`s, none of which is larger than the
size of the frame. -/
def lineSwap (width height line : ℕ) : SwapCall :=
  ⟨4 * width * line, 4 * width * (line + 1), 4 * width * (height - line - 1)⟩

/-- The calls of the loop, in order. -/
def lineSwaps (width height : ℕ) : List SwapCall :=
  (List.range (height >>> 1)).map (lineSwap width height)

/-- The loop of `main` over the lines of the lower half. -/
def flipLines (width height : ℕ) (buffer : Bytes) : Except Fault Bytes :=
  (lineSwaps width height).foldlM (fun buffer call => call.run buffer) buffer

/-- The ranges of a call lie in a buffer of `n` bytes and do not meet. -/
structure SwapCall.Fits (call : SwapCall) (n : ℕ) : Prop where
  first_le : call.first ≤ call.last
  apart : call.last ≤ call.first2
  inside : call.first2 + (call.last - call.first) ≤ n

theorem lineSwaps_fits {width height : ℕ} :
    ∀ call ∈ lineSwaps width height, call.Fits (4 * width * height) := by
  intro call hcall
  obtain ⟨line, hline, rfl⟩ := List.mem_map.1 hcall
  rw [List.mem_range, Nat.shiftRight_one] at hline
  have hapart : 4 * width * line + 4 * width ≤ 4 * width * (height - line - 1) :=
    rows_apart (by omega)
  have hinside : 4 * width * (height - line - 1) + 4 * width ≤ 4 * width * height :=
    row_le (by omega)
  have hlast : (lineSwap width height line).last =
      (lineSwap width height line).first + 4 * width := Nat.mul_succ _ _
  exact ⟨by omega, hlast ▸ hapart, by rw [hlast, Nat.add_sub_cancel_left]; exact hinside⟩

/-! ## The bytes as cells -/

/-- The vector has `n` bytes, and its cells are those of `cells`. -/
structure Holds (n : ℕ) (buffer : Bytes) (cells : ℕ → Option UInt8) : Prop where
  length_eq : buffer.length = n
  getElem?_eq : ∀ i, buffer[i]? = cells i

variable {n : ℕ} {buffer : Bytes} {cells : ℕ → Option UInt8}

/-- An access inside the vector finds a byte. -/
theorem Holds.exists_getElem?_eq (h : Holds n buffer cells) {i : ℕ} (hi : i < n) :
    ∃ byte, buffer[i]? = some byte :=
  ⟨_, List.getElem?_eq_getElem (hi.trans_eq h.length_eq.symm)⟩

theorem Holds.swapBytes (h : Holds n buffer cells) {i j : ℕ} (hi : i < n) (hj : j < n) :
    ∃ buffer', swapBytes buffer i j = .ok buffer' ∧ Holds n buffer' (swapCells i j cells) := by
  obtain ⟨a, ha⟩ := h.exists_getElem?_eq hi
  obtain ⟨b, hb⟩ := h.exists_getElem?_eq hj
  refine ⟨_, by rw [Bres.swapBytes, ha, hb], ?_, fun m => ?_⟩
  · rw [List.length_set, List.length_set, h.length_eq]
  · rw [swapCells, Function.comp_apply, ← h.getElem?_eq]
    by_cases hmj : m = j
    · subst hmj
      rw [Equiv.swap_apply_right, List.getElem?_set_self (by simpa [h.length_eq]), ha]
    · rw [List.getElem?_set_ne (Ne.symm hmj)]
      by_cases hmi : m = i
      · subst hmi
        rw [Equiv.swap_apply_left, List.getElem?_set_self (by simpa [h.length_eq]), hb]
      · rw [List.getElem?_set_ne (Ne.symm hmi), Equiv.swap_apply_of_ne_of_ne hmi hmj]

theorem Holds.run {call : SwapCall} (h : Holds n buffer cells) (hcall : call.Fits n) :
    ∃ buffer', call.run buffer = .ok buffer' ∧
      Holds n buffer' (swapRanges call.first call.last call.first2 cells) := by
  have hapart := hcall.apart
  have hinside := hcall.inside
  refine exists_foldlM_eq_ok (fun k hk buffer cells hbuffer => ?_) h
  rw [List.mem_range] at hk
  exact hbuffer.swapBytes (by omega) (by omega)

/-- The loop turns the buffer of lines upside down. -/
theorem Holds.flipLines {width height : ℕ} (h : Holds (4 * width * height) buffer cells) :
    ∃ buffer', flipLines width height buffer = .ok buffer' ∧
      Holds (4 * width * height) buffer' (reverseRows (4 * width) height cells) := by
  have hturn : ∀ call ∈ lineSwaps width height, ∀ buffer cells,
      Holds (4 * width * height) buffer cells → ∃ buffer', call.run buffer = .ok buffer' ∧
        Holds (4 * width * height) buffer'
          (swapRanges call.first call.last call.first2 cells) :=
    fun call hcall _ _ hbuffer => hbuffer.run (lineSwaps_fits call hcall)
  obtain ⟨buffer', hdone, hbuffer'⟩ := exists_foldlM_eq_ok hturn h
  refine ⟨buffer', hdone, ?_⟩
  rw [lineSwaps, List.foldl_map] at hbuffer'
  exact hbuffer'

/-- A line is known by its bytes. -/
theorem frameLine_eq_iff {width line line' : ℕ} {frame frame' : Bytes} :
    frameLine width frame line = frameLine width frame' line' ↔
      ∀ k < 4 * width, frame[4 * width * line + k]? = frame'[4 * width * line' + k]? := by
  rw [List.ext_getElem?_iff]
  simp only [frameLine, List.getElem?_take, List.getElem?_drop]
  constructor
  · intro h k hk
    simpa [hk] using h k
  · intro h k
    split
    · rename_i hk
      exact h k hk
    · rfl

/-- For every size and all contents of a frame, the loop stays inside the frame, swaps
ranges that do not meet, and leaves in each line what its counterpart held. Run twice,
it leaves the frame as it was. -/
theorem RawFrame.flipLines_reverses {width height : ℕ} (frame : RawFrame width height) :
    ∃ flipped : RawFrame width height,
      flipLines width height frame.bytes = .ok flipped.bytes ∧
        (∀ line < height, frameLine width flipped.bytes line =
          frameLine width frame.bytes (height - 1 - line)) ∧
        flipLines width height flipped.bytes = .ok frame.bytes ∧
        ∀ call ∈ lineSwaps width height, call.Fits frame.bytes.length := by
  have hframe : Holds (4 * width * height) frame.bytes fun i => frame.bytes[i]? :=
    ⟨frame.size_eq, fun _ => rfl⟩
  obtain ⟨flipped, hflipped, hlines⟩ := hframe.flipLines
  obtain ⟨back, hback, hcells⟩ := hlines.flipLines
  refine ⟨⟨flipped, hlines.length_eq⟩, hflipped, fun line hline => ?_, ?_, fun call hcall => ?_⟩
  · refine frameLine_eq_iff.2 fun k hk => ?_
    rw [hlines.getElem?_eq, reverseRows_apply hline hk]
  · rw [reverseRows_reverseRows] at hcells
    rw [hback, List.ext_getElem? hcells.getElem?_eq]
  · rw [frame.size_eq]
    exact lineSwaps_fits call hcall

/-- What the loop makes of the bytes of a window is the `videoBuffer` of the window. -/
theorem flipLines_videoBuffer {α : Type*} {window : ℕ → ℕ → α} {byte : α × ℕ → UInt8}
    (frame : RawFrame (Build.wndWidthFhd .webrtc) (Build.wndHeightFhd .webrtc))
    (hframe : ∀ i < frame.bytes.length, frame.bytes[i]? =
      some (byte (glReadPixels (Build.wndWidthFhd .webrtc) window i))) :
    ∃ flipped, flipLines (Build.wndWidthFhd .webrtc) (Build.wndHeightFhd .webrtc) frame.bytes =
        .ok flipped ∧
      ∀ i < frame.bytes.length, flipped[i]? = some (byte (videoBuffer .webrtc window i)) := by
  have hcells : Holds (4 * Build.wndWidthFhd .webrtc * Build.wndHeightFhd .webrtc) frame.bytes
      fun i => frame.bytes[i]? := ⟨frame.size_eq, fun _ => rfl⟩
  obtain ⟨flipped, hflipped, hlines⟩ := hcells.flipLines
  refine ⟨flipped, hflipped, fun i hi => ?_⟩
  rw [frame.size_eq] at hi
  have hsize : 0 < 4 * Build.wndWidthFhd .webrtc := by decide
  have hrow := Nat.div_lt_of_lt_mul hi
  have hcell := Nat.mod_lt i hsize
  have hmirror := row_le (w := 4 * Build.wndWidthFhd .webrtc) hrow
  rw [hlines.getElem?_eq, videoBuffer, ← Nat.div_add_mod i (4 * Build.wndWidthFhd .webrtc),
    reverseRows_apply hrow hcell, reverseRows_apply hrow hcell, hframe]
  rw [frame.size_eq, Nat.sub_right_comm]
  exact (Nat.add_lt_add_left hcell _).trans_le hmirror

end Bres
