import Bres.Audio.OnData

/-!
# Expanding 16 kHz to 48 kHz

What the loop of the 16 kHz branch of `OnData` leaves in the string. Turn `n` writes the
samples `3 n` to `3 n + 3`, so the loop leaves the first three samples at zero and ends
one sample behind the string. What it writes lies on the way between two samples that
are neighbours in the interleaved block, which are samples of one channel only if there
is one channel.
-/

namespace Bres

open Memory Signal

/-- Sample `i` of the string was written. -/
def Written (pcm : Region UInt8) (i : ℕ) : Prop := 2 * i ∈ pcm.touched

instance (pcm : Region UInt8) (i : ℕ) : Decidable (Written pcm i) :=
  inferInstanceAs (Decidable (_ ∈ _))

/-- The loop writes within `count` samples and writes all of them. -/
def Covers (pcm : Region UInt8) (count : ℕ) : Prop :=
  (∀ i, Written pcm i → i < count) ∧ ∀ i, i < count → Written pcm i

/-- The sample that the loop leaves at `i`: a third is added for each step behind the
last sample that is kept. -/
def expanded (audioData : Bytes) (i : ℕ) : ℤ :=
  lerp (sampleAt audioData (i / 3 - 1)) (sampleAt audioData (i / 3)) ((i % 3 : ℕ) / 3 : ℚ)

/-- Each written sample of a block of 160 frames comes from two consecutive samples of
the channel at whose position it stands. -/
def ChannelsApart (channels : ℕ) (audioData : Bytes) (pcm : Region UInt8) : Prop :=
  ∀ i, Written pcm i → ∃ m j : ℕ, m + 1 < 160 ∧ j ≤ 3 ∧
    let a := sampleAt audioData (m * channels + i % channels)
    let b := sampleAt audioData ((m + 1) * channels + i % channels)
    pcm.short (2 * i) = lerp a b (j / 3 : ℚ) ∧ pcm.short (2 * i) ∈ Set.uIcc a b ∧
      IsInt16 (pcm.short (2 * i))

theorem isInt16_of_mem_uIcc {a b v : ℤ} (ha : IsInt16 a) (hb : IsInt16 b)
    (h : v ∈ Set.uIcc a b) : IsInt16 v := by
  unfold IsInt16 at *
  rcases Set.mem_uIcc.1 h with hv | hv <;> omega

/-! ## One turn of the loop -/

section Turn

variable (audioData : Bytes) (pcm : Region UInt8) (n : ℕ)

theorem expandSample_eq :
    expandSample audioData pcm n =
      (((pcm.writeShort (2 * (n * 3 + 0))
        (lerp (sampleAt audioData (n - 1)) (sampleAt audioData n) (0 : ℚ))).writeShort
        (2 * (n * 3 + 1))
        (lerp (sampleAt audioData (n - 1)) (sampleAt audioData n) (1 / 3 : ℚ))).writeShort
        (2 * (n * 3 + 2))
        (lerp (sampleAt audioData (n - 1)) (sampleAt audioData n) (2 / 3 : ℚ))).writeShort
        (2 * (n * 3 + 3))
        (lerp (sampleAt audioData (n - 1)) (sampleAt audioData n) (1 : ℚ)) := by
  have hstep : ∀ a b t : ℚ,
      (a / 32768 + (b / 32768 - a / 32768) / 3 * t) * 32768 = a + t / 3 * (b - a) := by
    intro a b t
    ring
  have hkept : ∀ a : ℚ, a / 32768 * 32768 = a := fun a => by ring
  simp only [expandSample, Nat.sub_zero, hstep, hkept, lerp, truncate_intCast, one_div]
  norm_num

theorem mem_touched_expandSample {b : ℕ} :
    b ∈ (expandSample audioData pcm n).touched ↔
      b ∈ pcm.touched ∨ 6 * n ≤ b ∧ b < 6 * n + 8 := by
  rw [expandSample_eq]
  simp only [Region.mem_touched_writeShort]
  grind

theorem short_expandSample_of_mem {j : ℕ} (hj : j ≤ 3) :
    (expandSample audioData pcm n).short (2 * (n * 3 + j)) =
      lerp (sampleAt audioData (n - 1)) (sampleAt audioData n) (j / 3 : ℚ) := by
  have hrange : ∀ t : ℚ, 0 ≤ t → t ≤ 1 →
      IsInt16 (lerp (sampleAt audioData (n - 1)) (sampleAt audioData n) t) := fun t h0 h1 =>
    isInt16_of_mem_uIcc (shortAt_range ..) (shortAt_range ..) (lerp_mem_uIcc _ _ ⟨h0, h1⟩)
  rw [expandSample_eq]
  obtain rfl | rfl | rfl | rfl : j = 0 ∨ j = 1 ∨ j = 2 ∨ j = 3 := by omega
  · iterate 3 rw [Region.short_writeShort_of_apart _ (by unfold Region.Apart; omega)]
    rw [Region.short_writeShort_self _ _ (hrange _ (by norm_num) (by norm_num))]
    norm_num
  · iterate 2 rw [Region.short_writeShort_of_apart _ (by unfold Region.Apart; omega)]
    rw [Region.short_writeShort_self _ _ (hrange _ (by norm_num) (by norm_num))]
    norm_num
  · rw [Region.short_writeShort_of_apart _ (by unfold Region.Apart; omega),
      Region.short_writeShort_self _ _ (hrange _ (by norm_num) (by norm_num))]
    norm_num
  · rw [Region.short_writeShort_self _ _ (hrange _ (by norm_num) (by norm_num))]
    norm_num

theorem short_expandSample_of_lt {i : ℕ} (hi : i < 3 * n) :
    (expandSample audioData pcm n).short (2 * i) = pcm.short (2 * i) := by
  rw [expandSample_eq]
  repeat rw [Region.short_writeShort_of_apart _ (by unfold Region.Apart; omega)]

end Turn

/-! ## The whole loop -/

section Loop

variable (audioData : Bytes)

theorem mem_touched_expand_loop (pcm : Region UInt8) (k : ℕ) {b : ℕ} :
    b ∈ ((List.range' 1 k).foldl (expandSample audioData) pcm).touched ↔
      b ∈ pcm.touched ∨ 0 < k ∧ 6 ≤ b ∧ b < 6 * k + 8 := by
  induction k with
  | zero => simp
  | succ k ih =>
      rw [List.range'_1_concat, List.foldl_append, List.foldl_cons, List.foldl_nil,
        mem_touched_expandSample, ih, or_assoc]
      refine or_congr_right ?_
      omega

/-- The last sample of a turn is the first of the next one. -/
theorem lerp_eq_expanded {k j : ℕ} (hj : j ≤ 3) :
    lerp (sampleAt audioData k) (sampleAt audioData (k + 1)) (j / 3 : ℚ) =
      expanded audioData ((k + 1) * 3 + j) := by
  rcases hj.lt_or_eq with hlt | rfl
  · have hdiv : ((k + 1) * 3 + j) / 3 = k + 1 := by omega
    have hmod : ((k + 1) * 3 + j) % 3 = j := by omega
    rw [expanded, hdiv, hmod, Nat.add_sub_cancel]
  · have hdiv : ((k + 1) * 3 + 3) / 3 = k + 1 + 1 := by omega
    have hmod : ((k + 1) * 3 + 3) % 3 = 0 := by omega
    rw [expanded, hdiv, hmod, Nat.add_sub_cancel]
    norm_num

theorem short_expand_loop (pcm : Region UInt8) {k i : ℕ} (hk : 0 < k) (hmin : 3 ≤ i)
    (hmax : i ≤ 3 * k + 3) :
    ((List.range' 1 k).foldl (expandSample audioData) pcm).short (2 * i) =
      expanded audioData i := by
  induction k with
  | zero => exact absurd hk (lt_irrefl 0)
  | succ k ih =>
      rw [List.range'_1_concat, List.foldl_append, List.foldl_cons, List.foldl_nil,
        Nat.add_comm 1 k]
      by_cases hi : i < 3 * (k + 1)
      · rw [short_expandSample_of_lt _ _ _ hi]
        exact ih (by omega) (by omega)
      · obtain ⟨j, rfl⟩ : ∃ j, i = (k + 1) * 3 + j := ⟨i - (k + 1) * 3, by omega⟩
        have hj : j ≤ 3 := by omega
        rw [short_expandSample_of_mem _ _ _ hj, Nat.add_sub_cancel, lerp_eq_expanded _ hj]

end Loop

section Block

variable {channels : ℕ}

theorem written_expand_iff (audioData : Bytes) (h : 1 ≤ channels) {i : ℕ} :
    Written (expand audioData 160 channels) i ↔ 3 ≤ i ∧ i ≤ 3 * (160 * channels) := by
  rw [Written, expand, mem_touched_expand_loop]
  simp only [zeroString, List.not_mem_nil, false_or]
  omega

/-- A written sample stands in one turn of the loop. -/
theorem exists_turn (h : 1 ≤ channels) {i : ℕ} (hmin : 3 ≤ i)
    (hmax : i ≤ 3 * (160 * channels)) :
    ∃ k j, i = (k + 1) * 3 + j ∧ j ≤ 3 ∧ k + 1 < 160 * channels := by
  by_cases hi : i = 3 * (160 * channels)
  · exact ⟨160 * channels - 2, 3, by omega, le_rfl, by omega⟩
  · exact ⟨i / 3 - 1, i % 3, by omega, by omega, by omega⟩

theorem short_expand (audioData : Bytes) {k j : ℕ} (hj : j ≤ 3)
    (hk : k + 1 < 160 * channels) :
    (expand audioData 160 channels).short (2 * ((k + 1) * 3 + j)) =
      lerp (sampleAt audioData k) (sampleAt audioData (k + 1)) (j / 3 : ℚ) := by
  rw [expand, short_expand_loop audioData _ (by omega) (by omega) (by omega),
    lerp_eq_expanded audioData hj]

theorem third_mem_Icc {j : ℕ} (hj : j ≤ 3) : (j / 3 : ℚ) ∈ Set.Icc (0 : ℚ) 1 := by
  have hle : (j : ℚ) ≤ 3 := by exact_mod_cast hj
  exact ⟨by positivity, by linarith⟩

end Block

/-! ## The bounds of the loop -/

/-- Whatever the block holds, the loop neither stays in the string nor fills it. -/
theorem expand_never_covers (audioData : Bytes) {channels : ℕ} (h : 1 ≤ channels) :
    Written (expand audioData 160 channels) (3 * (160 * channels)) ∧
      (∀ i < 3, ¬ Written (expand audioData 160 channels) i) ∧
      ¬ Covers (expand audioData 160 channels) (3 * (160 * channels)) := by
  have hend : Written (expand audioData 160 channels) (3 * (160 * channels)) :=
    (written_expand_iff audioData h).2 ⟨by omega, le_rfl⟩
  refine ⟨hend, fun i hi hwritten => ?_, fun hcovers => ?_⟩
  · have hmin := ((written_expand_iff audioData h).1 hwritten).1
    omega
  · exact lt_irrefl _ (hcovers.1 _ hend)

/-- A silent block with one channel. -/
def silence : Bytes := List.replicate 320 0

theorem expand_never_covers_silence :
    Written (expand silence 160 1) 480 ∧ (∀ i < 3, ¬ Written (expand silence 160 1) i) ∧
      ¬ Covers (expand silence 160 1) 480 :=
  expand_never_covers silence le_rfl

theorem not_covers_silence : ¬ Covers (expand silence 160 1) 480 := by
  intro hcovers
  have hfirst : Written (expand silence 160 1) 0 := hcovers.2 0 (by norm_num)
  have hmin := ((written_expand_iff silence le_rfl).1 hfirst).1
  omega

/-! ## The channels of the result -/

/-- The samples of all channels but the one at position 4 of a frame are three. -/
def otherChannels (channels : ℕ) : Bytes :=
  (List.range (320 * channels)).map fun b =>
    if b % 2 = 0 ∧ b / 2 % channels ≠ 4 % channels then 3 else 0

theorem sampleAt_otherChannels {channels m : ℕ} (hm : m < 160 * channels) :
    sampleAt (otherChannels channels) m = if m % channels ≠ 4 % channels then 3 else 0 := by
  have hlow : (otherChannels channels).getD (2 * m) 0 =
      if m % channels ≠ 4 % channels then 3 else 0 := by
    rw [otherChannels, List.getD_eq_getElem _ _ (by simp; omega)]
    simp
  have hhigh : (otherChannels channels).getD (2 * m + 1) 0 = 0 := by
    rw [otherChannels, List.getD_eq_getElem _ _ (by simp; omega)]
    simp
  rw [sampleAt, shortAt, hlow, hhigh]
  split <;> decide

/-- Of two neighbours in a frame at most one belongs to the channel at position 4. -/
theorem not_channelsApart_otherChannels {channels : ℕ} (h : 2 ≤ channels) :
    ¬ ChannelsApart channels (otherChannels channels)
      (expand (otherChannels channels) 160 channels) := by
  intro happart
  have hwritten : Written (expand (otherChannels channels) 160 channels) 4 :=
    (written_expand_iff _ (by omega)).2 ⟨by norm_num, by omega⟩
  obtain ⟨m, j, hm, hj, -, hmem, -⟩ := happart 4 hwritten
  have hposition : 4 % channels < channels := Nat.mod_lt _ (by omega)
  have hkept : ∀ m < 160,
      sampleAt (otherChannels channels) (m * channels + 4 % channels) = 0 := by
    intro m hm
    have hlt : m * channels + 4 % channels < 160 * channels := by nlinarith
    rw [sampleAt_otherChannels hlt, if_neg]
    simp
  rw [hkept m (by omega), hkept (m + 1) hm, Set.uIcc_self, Set.mem_singleton_iff] at hmem
  have hvalue : (expand (otherChannels channels) 160 channels).short (2 * ((0 + 1) * 3 + 1)) =
      lerp (sampleAt (otherChannels channels) 0) (sampleAt (otherChannels channels) (0 + 1))
        (1 / 3 : ℚ) := by
    exact_mod_cast short_expand (otherChannels channels) (by norm_num) (by omega)
  rw [show 2 * ((0 + 1) * 3 + 1) = 2 * 4 from rfl, hmem,
    sampleAt_otherChannels (by omega), sampleAt_otherChannels (by omega)] at hvalue
  have hzero : 0 % channels = 0 := Nat.zero_mod _
  have hone : (0 + 1) % channels = 1 := Nat.mod_eq_of_lt (by omega)
  rw [hzero, hone] at hvalue
  by_cases hfirst : 4 % channels = 0
  · rw [hfirst] at hvalue
    norm_num [lerp, truncate] at hvalue
  · by_cases hsecond : 4 % channels = 1
    · rw [hsecond] at hvalue
      norm_num [lerp, truncate] at hvalue
    · rw [if_pos (Ne.symm hfirst), if_pos (Ne.symm hsecond)] at hvalue
      norm_num [lerp, truncate] at hvalue

theorem channelsApart_of_mono (audioData : Bytes) :
    ChannelsApart 1 audioData (expand audioData 160 1) := by
  intro i hwritten
  obtain ⟨hmin, hmax⟩ := (written_expand_iff audioData le_rfl).1 hwritten
  obtain ⟨k, j, rfl, hj, hk⟩ := exists_turn le_rfl hmin hmax
  have hmem := lerp_mem_uIcc (sampleAt audioData k) (sampleAt audioData (k + 1))
    (third_mem_Icc hj)
  refine ⟨k, j, hk, hj, ?_⟩
  simp only [Nat.mod_one, Nat.mul_one, Nat.add_zero, short_expand audioData hj hk]
  exact ⟨trivial, hmem, isInt16_of_mem_uIcc (shortAt_range ..) (shortAt_range ..) hmem⟩

/-- The channels stay apart where there is one. In any case a sample lies between two
neighbours of the interleaved block, and so in the range of 16 bits. -/
theorem expand_channelsApart_iff {channels : ℕ} (h : 1 ≤ channels) :
    ((∀ audioData : Bytes, audioData.length = 320 * channels →
        ChannelsApart channels audioData (expand audioData 160 channels)) ↔ channels = 1) ∧
      ∀ (audioData : Bytes) (i : ℕ), Written (expand audioData 160 channels) i →
        IsInt16 ((expand audioData 160 channels).short (2 * i)) ∧
          ∃ k, k + 1 < 160 * channels ∧ (expand audioData 160 channels).short (2 * i) ∈
            Set.uIcc (sampleAt audioData k) (sampleAt audioData (k + 1)) := by
  refine ⟨⟨fun happart => ?_, ?_⟩, fun audioData i hwritten => ?_⟩
  · by_contra hne
    have hlength : (otherChannels channels).length = 320 * channels := by
      simp [otherChannels]
    exact not_channelsApart_otherChannels (by omega) (happart _ hlength)
  · rintro rfl audioData -
    exact channelsApart_of_mono audioData
  · obtain ⟨hmin, hmax⟩ := (written_expand_iff audioData h).1 hwritten
    obtain ⟨k, j, rfl, hj, hk⟩ := exists_turn h hmin hmax
    have hmem := lerp_mem_uIcc (sampleAt audioData k) (sampleAt audioData (k + 1))
      (third_mem_Icc hj)
    rw [short_expand audioData hj hk]
    exact ⟨isInt16_of_mem_uIcc (shortAt_range ..) (shortAt_range ..) hmem, k, hk, hmem⟩

theorem expand_channelsApart_silence : ChannelsApart 1 silence (expand silence 160 1) :=
  (expand_channelsApart_iff le_rfl).1.2 rfl silence List.length_replicate

theorem not_channelsApart_stereo :
    ¬ ChannelsApart 2 (otherChannels 2) (expand (otherChannels 2) 160 2) :=
  not_channelsApart_otherChannels le_rfl

end Bres
