import Bres.Audio.Callback
import Bres.Signal.Saturate

/-!
# What the callbacks mix

The loops of the two callbacks, block by block and sample by sample: after a call the
buffer holds, for each sample, the sum of the samples of the mixed blocks that is clamped
after each block, and `audioBuffer` holds the same sums at every other place. The loops
touch the 960 bytes of a block in the buffer, whatever its length.
-/

namespace Bres

open Memory Signal

/-! ## The loop over a block -/

theorem saturate_eq (chk p : ℤ) : saturate chk p = clampTo 32767 (chk + p) := by
  unfold saturate clampTo
  split <;> [skip; split] <;> omega

theorem isInt16_saturate (chk p : ℤ) : IsInt16 (saturate chk p) := by
  unfold saturate IsInt16
  split <;> [skip; split] <;> omega

theorem mem_offsets {pcm : Bytes} (h : pcm.length = 960) {n : ℕ} :
    n ∈ offsets pcm ↔ ∃ k < 480, n = 2 * k := by
  rw [offsets, h, List.mem_range']
  simp

theorem pairwise_apart_offsets (pcm : Bytes) : (offsets pcm).Pairwise Region.Apart := by
  unfold offsets
  refine (List.pairwise_lt_range' _).imp_of_mem fun {m n} hm hn hlt => ?_
  obtain ⟨i, -, rfl⟩ := List.mem_range'.1 hm
  obtain ⟨j, -, rfl⟩ := List.mem_range'.1 hn
  exact .inl (by omega)

theorem apart_of_not_mem_offsets {pcm : Bytes} (h : pcm.length = 960) {k : ℕ} (hk : 480 ≤ k) :
    ∀ n ∈ offsets pcm, Region.Apart (2 * k) n := by
  intro n hn
  obtain ⟨j, hj, rfl⟩ := (mem_offsets h).1 hn
  exact .inr (by omega)

theorem addBlock_eq (data : Region UInt8) (pcm : Bytes) :
    addBlock data pcm =
      (offsets pcm).foldl (Region.rewriteShort fun n chk => saturate chk (shortAt pcm n)) data :=
  rfl

/-- A block adds its samples to the first 480, and leaves the others as they are. -/
theorem short_addBlock {pcm : Bytes} (h : pcm.length = 960) (data : Region UInt8) (k : ℕ) :
    (addBlock data pcm).short (2 * k) =
      if k < 480 then saturate (data.short (2 * k)) (shortAt pcm (2 * k))
      else data.short (2 * k) := by
  rw [addBlock_eq]
  by_cases hk : k < 480
  · rw [if_pos hk, Region.short_foldl_rewriteShort_of_mem (fun _ _ => isInt16_saturate ..)
      (pairwise_apart_offsets pcm) ((mem_offsets h).2 ⟨k, hk, rfl⟩)]
  · rw [if_neg hk, Region.short_foldl_rewriteShort_of_apart
      (apart_of_not_mem_offsets h (Nat.le_of_not_lt hk))]

theorem mem_touched_addBlock {pcm : Bytes} (h : pcm.length = 960) {data : Region UInt8}
    {i : ℕ} : i ∈ (addBlock data pcm).touched ↔ i ∈ data.touched ∨ i < 960 := by
  rw [addBlock_eq, Region.mem_touched_foldl_rewriteShort]
  refine or_congr_right ⟨?_, fun hi => ?_⟩
  · rintro ⟨n, hn, hi⟩
    obtain ⟨k, hk, rfl⟩ := (mem_offsets h).1 hn
    omega
  · exact ⟨2 * (i / 2), (mem_offsets h).2 ⟨i / 2, by omega, rfl⟩, by omega⟩

/-! ## The loop over the blocks -/

section Blocks

variable {blocks : List Bytes}

@[simp] theorem size_foldl_addBlock (blocks : List Bytes) (data : Region UInt8) :
    (blocks.foldl addBlock data).size = data.size := by
  induction blocks generalizing data with
  | nil => rfl
  | cons pcm blocks ih =>
      rw [List.foldl_cons, ih, addBlock_eq, Region.size_foldl_rewriteShort]

theorem short_foldl_addBlock (h : ∀ pcm ∈ blocks, pcm.length = 960) (data : Region UInt8)
    {k : ℕ} (hk : k < 480) :
    (blocks.foldl addBlock data).short (2 * k) =
      (blocks.map fun pcm => shortAt pcm (2 * k)).foldl saturate (data.short (2 * k)) := by
  induction blocks generalizing data with
  | nil => rfl
  | cons pcm blocks ih =>
      obtain ⟨hpcm, hblocks⟩ := List.forall_mem_cons.1 h
      rw [List.foldl_cons, ih hblocks, short_addBlock hpcm, if_pos hk, List.map_cons,
        List.foldl_cons]

theorem short_foldl_addBlock_of_le (h : ∀ pcm ∈ blocks, pcm.length = 960)
    (data : Region UInt8) {k : ℕ} (hk : 480 ≤ k) :
    (blocks.foldl addBlock data).short (2 * k) = data.short (2 * k) := by
  induction blocks generalizing data with
  | nil => rfl
  | cons pcm blocks ih =>
      obtain ⟨hpcm, hblocks⟩ := List.forall_mem_cons.1 h
      rw [List.foldl_cons, ih hblocks, short_addBlock hpcm, if_neg (Nat.not_lt.2 hk)]

theorem mem_touched_foldl_addBlock (h : ∀ pcm ∈ blocks, pcm.length = 960)
    {data : Region UInt8} {i : ℕ} :
    i ∈ (blocks.foldl addBlock data).touched ↔
      i ∈ data.touched ∨ blocks ≠ [] ∧ i < 960 := by
  induction blocks generalizing data with
  | nil => simp
  | cons pcm blocks ih =>
      obtain ⟨hpcm, hblocks⟩ := List.forall_mem_cons.1 h
      rw [List.foldl_cons, ih hblocks, mem_touched_addBlock hpcm]
      grind

end Blocks

/-! ## The samples of a call -/

/-- Sample `k` of each block that a callback mixes, in the order of the slots. -/
def mixedSamples (slots : Slots) (k : ℕ) : List ℤ :=
  (mixedBlocks slots).map fun pcm => shortAt pcm (2 * k)

/-- Behind the end of the blocks there is nothing to mix. -/
theorem sum_abs_mixedSamples_of_le {slots : Slots} {k : ℕ} (hk : 480 ≤ k) :
    ((mixedSamples slots k).map abs).sum = 0 := by
  have hzero : ∀ x ∈ (mixedSamples slots k).map abs, x = 0 := by
    intro x hx
    simp only [mixedSamples, List.map_map, List.mem_map, Function.comp_apply] at hx
    obtain ⟨pcm, hpcm, rfl⟩ := hx
    have hlength := length_of_mem_mixedBlocks hpcm
    rw [shortAt, List.getD_eq_default _ _ (by omega), List.getD_eq_default _ _ (by omega),
      int16_zero, abs_zero]
  exact List.sum_eq_zero hzero

theorem satSum_mixedSamples_of_le {slots : Slots} {k : ℕ} (hk : 480 ≤ k) :
    satSum 32767 (mixedSamples slots k) = 0 := by
  have habs : ((mixedSamples slots k).map abs).sum = 0 := sum_abs_mixedSamples_of_le hk
  have hsum : (mixedSamples slots k).sum = 0 :=
    abs_nonpos_iff.1 ((abs_sum_le _).trans habs.le)
  rw [satSum_eq_sum (habs.trans_le (by norm_num)), hsum]

/-- What the callbacks leave in a buffer of `len` bytes. -/
def mixedData (slots : Slots) (data : ℕ → UInt8) (len : ℕ) : Region UInt8 :=
  (mixedBlocks slots).foldl addBlock (Region.clear ⟨len, data, []⟩ 0)

/-- Each sample in front of the end is the sum that is clamped after each block. -/
theorem short_mixedData {slots : Slots} {data : ℕ → UInt8} {len k : ℕ}
    (hk : 2 * k + 2 ≤ len) :
    (mixedData slots data len).short (2 * k) = satSum 32767 (mixedSamples slots k) := by
  have hblocks : ∀ pcm ∈ mixedBlocks slots, pcm.length = 960 := fun _ =>
    length_of_mem_mixedBlocks
  have hclear : (Region.clear ⟨len, data, []⟩ 0).short (2 * k) = 0 := Region.short_clear _ hk
  have hsaturate : saturate = fun s x => clampTo 32767 (s + x) := by
    funext chk p
    exact saturate_eq chk p
  rcases lt_or_ge k 480 with hlt | hge
  · rw [mixedData, short_foldl_addBlock hblocks _ hlt, hclear, hsaturate, satSum, mixedSamples]
  · rw [mixedData, short_foldl_addBlock_of_le hblocks _ hge, hclear,
      satSum_mixedSamples_of_le hge]

theorem mem_touched_mixedData {slots : Slots} {data : ℕ → UInt8} {len i : ℕ} :
    i ∈ (mixedData slots data len).touched ↔ mixedBlocks slots ≠ [] ∧ i < 960 := by
  rw [mixedData, mem_touched_foldl_addBlock fun _ => length_of_mem_mixedBlocks]
  simp

theorem safe_mixedData_iff {slots : Slots} {data : ℕ → UInt8} {len : ℕ} :
    (mixedData slots data len).Safe ↔ 960 ≤ len ∨ mixedBlocks slots = [] := by
  have hsize : (mixedData slots data len).size = len := size_foldl_addBlock ..
  simp only [Region.Safe, mem_touched_mixedData, hsize]
  constructor
  · intro hsafe
    by_contra hneither
    obtain ⟨hlen, hblocks⟩ := not_or.1 hneither
    exact hlen (by have hlast := hsafe 959 ⟨hblocks, by norm_num⟩; omega)
  · rintro (hlen | hblocks) i ⟨hmixed, hi⟩
    · omega
    · exact absurd hblocks hmixed

/-! ## The copies in `audioBuffer` -/

section Copies

variable {pcm : Bytes} {l : List ℕ}

@[simp] theorem data_foldl_mixSample (l : List ℕ) (m : Mixing) :
    (l.foldl (mixSample pcm) m).data = l.foldl (addSample pcm) m.data := by
  induction l generalizing m with
  | nil => rfl
  | cons n l ih => exact ih _

@[simp] theorem chann_foldl_mixSample (l : List ℕ) (m : Mixing) :
    (l.foldl (mixSample pcm) m).chann = m.chann := by
  induction l generalizing m with
  | nil => rfl
  | cons n l ih => exact ih _

@[simp] theorem size_foldl_mixSample (l : List ℕ) (m : Mixing) :
    (l.foldl (mixSample pcm) m).audioBuffer.size = m.audioBuffer.size := by
  induction l generalizing m with
  | nil => rfl
  | cons n l ih => exact ih _

theorem mem_touched_foldl_mixSample {m : Mixing} {i : ℕ} :
    i ∈ (l.foldl (mixSample pcm) m).audioBuffer.touched ↔
      i ∈ m.audioBuffer.touched ∨ i ∈ l := by
  induction l generalizing m with
  | nil => simp
  | cons n l ih =>
      rw [List.foldl_cons, ih, mixSample, Region.touched_write, List.mem_cons, List.mem_cons]
      grind

theorem cell_foldl_mixSample_of_not_mem {n : ℕ} (hn : n ∉ l) (m : Mixing) :
    (l.foldl (mixSample pcm) m).audioBuffer.cell n = m.audioBuffer.cell n := by
  induction l generalizing m with
  | nil => rfl
  | cons j l ih =>
      rw [List.mem_cons, not_or] at hn
      rw [List.foldl_cons, ih hn.2, mixSample, Region.cell_write_of_ne _ hn.1]

/-- The copy of a sample is taken when it is stored, and nothing touches it later. -/
theorem cell_foldl_mixSample_of_mem (hl : l.Pairwise Region.Apart) {n : ℕ} (hn : n ∈ l)
    (m : Mixing) :
    (l.foldl (mixSample pcm) m).audioBuffer.cell n =
      (l.foldl (addSample pcm) m.data).short n := by
  induction l generalizing m with
  | nil => cases hn
  | cons j l ih =>
      obtain ⟨hj, hl⟩ := List.pairwise_cons.1 hl
      rw [List.foldl_cons, List.foldl_cons]
      by_cases hnl : n ∈ l
      · exact ih hl hnl _
      · obtain rfl : n = j := (List.mem_cons.1 hn).resolve_right hnl
        have hkeep : (l.foldl (addSample pcm) (addSample pcm m.data n)).short n =
            (addSample pcm m.data n).short n :=
          Region.short_foldl_rewriteShort_of_apart (g := fun n chk =>
            saturate chk (shortAt pcm n)) hj _
        rw [cell_foldl_mixSample_of_not_mem hnl, hkeep, mixSample, Region.cell_write_self]

end Copies

/-- What `audioBuffer` holds next to the buffer of the callback. -/
structure Mixing.Copied (m : Mixing) : Prop where
  size_eq : m.audioBuffer.size = 960
  safe : ∀ i ∈ m.audioBuffer.touched, i < 960
  even : m.chann ≠ 0 → ∀ k < 480, m.audioBuffer.cell (2 * k) = m.data.short (2 * k)
  odd : ∀ k, m.audioBuffer.cell (2 * k + 1) = 0

theorem Mixing.Copied.mixBlock {m : Mixing} (hm : m.Copied) {pcm : Bytes}
    (h : pcm.length = 960) : (mixBlock m pcm).Copied where
  size_eq := by
    rw [Bres.mixBlock, size_foldl_mixSample, hm.size_eq]
  safe i hi := by
    rcases mem_touched_foldl_mixSample.1 hi with hold | hnew
    · exact hm.safe i hold
    · obtain ⟨k, hk, rfl⟩ := (mem_offsets h).1 hnew
      omega
  even _ k hk := by
    have hmem : 2 * k ∈ offsets pcm := (mem_offsets h).2 ⟨k, hk, rfl⟩
    rw [Bres.mixBlock, cell_foldl_mixSample_of_mem (pairwise_apart_offsets pcm) hmem,
      data_foldl_mixSample]
  odd k := by
    have hmem : 2 * k + 1 ∉ offsets pcm := by
      intro hmem
      obtain ⟨j, -, hj⟩ := (mem_offsets h).1 hmem
      omega
    rw [Bres.mixBlock, cell_foldl_mixSample_of_not_mem hmem, hm.odd]

theorem Mixing.Copied.foldl_mixBlock {blocks : List Bytes}
    (h : ∀ pcm ∈ blocks, pcm.length = 960) {m : Mixing} (hm : m.Copied) :
    (blocks.foldl Bres.mixBlock m).Copied ∧
      (blocks.foldl Bres.mixBlock m).data = blocks.foldl addBlock m.data ∧
      (blocks.foldl Bres.mixBlock m).chann = m.chann + blocks.length := by
  induction blocks generalizing m with
  | nil => exact ⟨hm, rfl, rfl⟩
  | cons pcm blocks ih =>
      obtain ⟨hpcm, hblocks⟩ := List.forall_mem_cons.1 h
      obtain ⟨hcopied, hdata, hchann⟩ := ih hblocks (hm.mixBlock hpcm)
      refine ⟨hcopied, ?_, ?_⟩
      · rw [List.foldl_cons, hdata, Bres.mixBlock, data_foldl_mixSample, List.foldl_cons,
          addBlock]
      · have hnext : (Bres.mixBlock m pcm).chann = m.chann + 1 := by
          rw [Bres.mixBlock, chann_foldl_mixSample]
        rw [List.foldl_cons, hchann, hnext, List.length_cons]
        omega

/-! ## The callbacks as a whole -/

section Callbacks

variable (slots : Slots) (publish : Instance) (buffer10ms : List ℤ) (data : ℕ → UInt8)
  (len : ℕ)

/-- The state of `audioCallback` behind its loop. -/
def mixing : Mixing :=
  (mixedBlocks slots).foldl mixBlock
    ⟨Region.clear ⟨len, data, []⟩ 0, ⟨480 <<< 1, fun _ => 0, []⟩, 0⟩

theorem mixing_spec :
    (mixing slots data len).Copied ∧ (mixing slots data len).data = mixedData slots data len ∧
      (mixing slots data len).chann = (mixedBlocks slots).length := by
  have hstart : Mixing.Copied
      ⟨Region.clear ⟨len, data, []⟩ 0, ⟨480 <<< 1, fun _ => 0, []⟩, 0⟩ :=
    ⟨rfl, fun _ hi => absurd hi List.not_mem_nil, fun h => absurd rfl h, fun _ => rfl⟩
  obtain ⟨hcopied, hdata, hchann⟩ :=
    Mixing.Copied.foldl_mixBlock (fun _ => length_of_mem_mixedBlocks) hstart
  exact ⟨hcopied, hdata, hchann.trans (Nat.zero_add _)⟩

/-- A call publishes what `buffer10ms` held and the copies behind it, if it has mixed a
block and the sender is there. -/
theorem audioCallback_eq :
    audioCallback slots publish buffer10ms data len =
      if mixedBlocks slots ≠ [] ∧ publish.audioRender ≠ .null then
        ⟨fun i => (slots i).popAudio, mixedData slots data len,
          (mixing slots data len).audioBuffer, [],
          some (render (buffer10ms ++ (mixing slots data len).audioBuffer.contents))⟩
      else
        ⟨fun i => (slots i).popAudio, mixedData slots data len,
          (mixing slots data len).audioBuffer, buffer10ms, none⟩ := by
  obtain ⟨hcopied, hdata, hchann⟩ := mixing_spec slots data len
  have hfull : (buffer10ms ++ (mixing slots data len).audioBuffer.contents).length ≥ 960 := by
    rw [List.length_append, Region.length_contents, hcopied.size_eq]
    omega
  have hmixed : (mixing slots data len).chann ≠ 0 ↔ mixedBlocks slots ≠ [] := by
    rw [hchann, ne_eq, List.length_eq_zero_iff]
  have hloop : (mixedBlocks slots).foldl mixBlock
      ⟨Region.clear ⟨len, data, []⟩ 0, ⟨480 <<< 1, fun _ => 0, []⟩, 0⟩ =
        mixing slots data len := rfl
  simp only [audioCallback, foldl_visitSlot_finRange, hloop, hmixed, hdata, if_pos hfull]

theorem audioCallback_data :
    (audioCallback slots publish buffer10ms data len).data = mixedData slots data len := by
  rw [audioCallback_eq]
  split <;> rfl

theorem audioCallback_audioBuffer :
    (audioCallback slots publish buffer10ms data len).audioBuffer =
      (mixing slots data len).audioBuffer := by
  rw [audioCallback_eq]
  split <;> rfl

theorem audioCallback_slots :
    (audioCallback slots publish buffer10ms data len).slots = fun i => (slots i).popAudio := by
  rw [audioCallback_eq]
  split <;> rfl

theorem audioCallbackSDI_eq :
    audioCallbackSDI slots data len =
      (len / 4, fun i => (slots i).popAudio, mixedData slots data len) := by
  rw [audioCallbackSDI, foldl_visitSlot_finRange]
  rfl

theorem audioCallbackSDI_data :
    (audioCallbackSDI slots data len).2.2 = mixedData slots data len := by
  rw [audioCallbackSDI_eq]

end Callbacks

end Bres
