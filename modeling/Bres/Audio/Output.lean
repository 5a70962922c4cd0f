import Bres.Audio.Mix
import Mathlib.Data.List.Perm.Basic

/-!
# What the callbacks hand out

The buffer that a callback leaves, and the blocks of two-channel frames that are made of
it. A sample is the sum that is clamped after each block; where no block but the last
takes the sum out of the range, it is the clamped sum, and where nothing is cut off at
all, the order of the slots does not matter. The loop over a block runs past the end of
a buffer that is shorter than the block.

The two paths lay out the mixed samples differently: `audioCallback` publishes one sample
for each frame, and the samples that the SDI output is given fill both channels of half
as many frames.
-/

namespace Bres

open Memory Signal

/-! ## The sums -/

theorem mixedBlocks_perm (slots : Slots) (σ : Equiv.Perm (Fin instanceMax)) :
    (mixedBlocks (slots ∘ σ)).Perm (mixedBlocks slots) := by
  have hblocks : mixedBlocks (slots ∘ σ) =
      ((List.finRange instanceMax).map σ).filterMap fun i => (slots i).mixedBlock := by
    rw [mixedBlocks, List.filterMap_map]
    rfl
  rw [hblocks]
  exact (σ.map_finRange_perm).filterMap _

/-- Each sample in front of the end of the buffer, in both callbacks. -/
theorem callback_sums (slots : Slots) (publish : Instance) (buffer10ms : List ℤ)
    (data : ℕ → UInt8) {len k : ℕ} (hk : 2 * k + 2 ≤ len) :
    ∃ v : ℤ, (audioCallback slots publish buffer10ms data len).data.short (2 * k) = v ∧
      (audioCallbackSDI slots data len).2.2.short (2 * k) = v ∧
      v = satSum 32767 (mixedSamples slots k) ∧ |v| ≤ 32767 ∧
      ((∀ p, p <+: mixedSamples slots k → p ≠ mixedSamples slots k → |p.sum| ≤ 32767) →
        v = clampTo 32767 (mixedSamples slots k).sum) ∧
      (((mixedSamples slots k).map abs).sum ≤ 32767 → v = (mixedSamples slots k).sum ∧
        ∀ σ : Equiv.Perm (Fin instanceMax),
          (audioCallback (slots ∘ σ) publish buffer10ms data len).data.short (2 * k) = v ∧
          (audioCallbackSDI (slots ∘ σ) data len).2.2.short (2 * k) = v) := by
  have hrange : (0 : ℤ) ≤ 32767 := by norm_num
  refine ⟨satSum 32767 (mixedSamples slots k), ?_, ?_, rfl, abs_satSum_le hrange _,
    fun hprefixes => satSum_eq_clampTo_sum hrange hprefixes, fun hsum =>
      ⟨satSum_eq_sum hsum, fun σ => ?_⟩⟩
  · rw [audioCallback_data, short_mixedData hk]
  · rw [audioCallbackSDI_data, short_mixedData hk]
  · have hsame : satSum 32767 (mixedSamples (slots ∘ σ) k) =
        satSum 32767 (mixedSamples slots k) :=
      satSum_perm ((mixedBlocks_perm slots σ).symm.map _) hsum
    rw [audioCallback_data, audioCallbackSDI_data, short_mixedData hk, hsame]
    exact ⟨rfl, rfl⟩

/-! ## Loud channels -/

/-- Two channels at the upper limit, and one at the lower. -/
def loudBlocks : List Bytes :=
  [constantBlock 32767, constantBlock 32767, constantBlock (-32767)]

theorem mixedSamples_loudBlocks : mixedSamples (drawnChannels loudBlocks) 0 =
    [32767, 32767, -32767] := by
  have hblocks : mixedBlocks (drawnChannels loudBlocks) = loudBlocks :=
    mixedBlocks_drawnChannels (by simp [loudBlocks]) (by simp [loudBlocks, instanceMax])
  rw [mixedSamples, hblocks, loudBlocks]
  simp only [List.map_cons, List.map_nil]
  rw [shortAt_constantBlock (by decide) (by norm_num),
    shortAt_constantBlock (by decide) (by norm_num)]

theorem callback_sums_loudBlocks :
    ∃ v : ℤ, (audioCallback (drawnChannels loudBlocks) Instance.startup [] (fun _ => 0)
        960).data.short (2 * 0) = v ∧
      v = satSum 32767 (mixedSamples (drawnChannels loudBlocks) 0) := by
  have hk : 2 * 0 + 2 ≤ 960 := by norm_num
  obtain ⟨v, hv, -, hsum, -⟩ :=
    callback_sums (drawnChannels loudBlocks) Instance.startup [] (fun _ => 0) hk
  exact ⟨v, hv, hsum⟩

/-- Cut off at the upper limit, the second sample no longer makes up for the third. -/
theorem callback_cuts_loudBlocks :
    (audioCallback (drawnChannels loudBlocks) Instance.startup [] (fun _ => 0)
        960).data.short 0 = 0 ∧
      (audioCallbackSDI (drawnChannels loudBlocks) (fun _ => 0) 960).2.2.short 0 = 0 ∧
      clampTo 32767 (mixedSamples (drawnChannels loudBlocks) 0).sum = 32767 := by
  have hzero : (mixedData (drawnChannels loudBlocks) (fun _ => 0) 960).short (2 * 0) = 0 := by
    rw [short_mixedData (by norm_num), mixedSamples_loudBlocks]
    decide
  rw [audioCallback_data, audioCallbackSDI_data, mixedSamples_loudBlocks]
  exact ⟨hzero, hzero, by decide⟩

/-! ## The accesses -/

/-- `RenderAudioSamples` asks for four bytes for each frame that is missing from a
second, and schedules all these frames. -/
theorem renderAudioSamples_eq (slots : Slots) (bufferedSamples : ℕ) (heap : ℕ → UInt8) :
    renderAudioSamples slots (some bufferedSamples) heap =
      if bufferedSamples < 48000 then
        let len := (48000 - bufferedSamples) * 4
        let data := mixedData slots (Region.clear ⟨len, heap, []⟩ 0).cell len
        some ⟨fun i => (slots i).popAudio, data,
          some (scheduleAudioSamples data (48000 - bufferedSamples))⟩
      else none := by
  have hcount : (48000 - bufferedSamples) * 4 / 4 = 48000 - bufferedSamples :=
    Nat.mul_div_cancel _ (by norm_num)
  simp only [renderAudioSamples, audioCallbackSDI_eq, audioRate48k, audioOutChannelBitsz]
  norm_num only [hcount]
  by_cases hless : bufferedSamples < 48000
  · rw [if_pos hless, if_pos hless, if_pos (Nat.sub_pos_of_lt hless)]
  · rw [if_neg hless, if_neg hless]

theorem renderAudioSamples_some {slots : Slots} {bufferedSamples : ℕ} {heap : ℕ → UInt8}
    {e : RenderEnd} (h : renderAudioSamples slots (some bufferedSamples) heap = some e) :
    bufferedSamples < 48000 ∧ ∃ data : ℕ → UInt8,
      e.data = mixedData slots data ((48000 - bufferedSamples) * 4) ∧
        e.scheduled = some (scheduleAudioSamples e.data (48000 - bufferedSamples)) := by
  rw [renderAudioSamples_eq] at h
  obtain ⟨hless, h⟩ := Option.ite_none_right_eq_some.1 h
  obtain rfl := Option.some.inj h
  exact ⟨hless, _, rfl, rfl⟩

/-- Every access lies in its buffer if and only if the buffer has room for a block, or
there is no block to mix. -/
theorem callback_safe_iff (slots : Slots) (publish : Instance) (buffer10ms : List ℤ) :
    (∀ (data : ℕ → UInt8) (len : ℕ),
        ((audioCallback slots publish buffer10ms data len).data.Safe ∧
          (audioCallback slots publish buffer10ms data len).audioBuffer.Safe ↔
        960 ≤ len ∨ mixedBlocks slots = [])) ∧
      ∀ (bufferedSamples : ℕ) (heap : ℕ → UInt8) (e : RenderEnd),
        renderAudioSamples slots (some bufferedSamples) heap = some e →
        (e.data.Safe ↔ bufferedSamples ≤ 47760 ∨ mixedBlocks slots = []) := by
  refine ⟨fun data len => ?_, fun bufferedSamples heap e he => ?_⟩
  · obtain ⟨hcopied, -, -⟩ := mixing_spec slots data len
    have hcopies : (mixing slots data len).audioBuffer.Safe := fun i hi => by
      rw [hcopied.size_eq]
      exact hcopied.safe i hi
    rw [audioCallback_data, audioCallback_audioBuffer, safe_mixedData_iff]
    exact and_iff_left hcopies
  · obtain ⟨hless, data, hdata, -⟩ := renderAudioSamples_some he
    rw [hdata, safe_mixedData_iff]
    refine or_congr_left ?_
    omega

/-- One channel with a pending block of silence. -/
def quietSlots : Slots := drawnChannels [constantBlock 0]

theorem mixedBlocks_quietSlots : mixedBlocks quietSlots = [constantBlock 0] :=
  mixedBlocks_drawnChannels (by simp) (by simp [instanceMax])

theorem callback_safe_quietSlots :
    ((audioCallback quietSlots Instance.startup [] (fun _ => 0) 960).data.Safe ∧
        (audioCallback quietSlots Instance.startup [] (fun _ => 0) 960).audioBuffer.Safe) ∧
      ∃ e, renderAudioSamples quietSlots (some 0) (fun _ => 0) = some e ∧ e.data.Safe := by
  have hsome := renderAudioSamples_eq quietSlots 0 fun _ => 0
  rw [if_pos (by norm_num)] at hsome
  exact ⟨((callback_safe_iff quietSlots Instance.startup []).1 _ _).2 (.inl le_rfl), _, hsome,
    ((callback_safe_iff quietSlots Instance.startup []).2 0 (fun _ => 0) _ hsome).2
      (.inl (by norm_num))⟩

/-- With 47999 frames buffered the loop is given four bytes for a block of 960. -/
theorem not_safe_quietSlots :
    ∃ e, renderAudioSamples quietSlots (some 47999) (fun _ => 0) = some e ∧ ¬ e.data.Safe := by
  have hsome := renderAudioSamples_eq quietSlots 47999 fun _ => 0
  rw [if_pos (by norm_num)] at hsome
  refine ⟨_, hsome, ?_⟩
  rw [safe_mixedData_iff, mixedBlocks_quietSlots]
  simp

/-! ## The frames -/

/-- Frame `k` of the playback has the value in one of its channels. -/
def Playback.Carries (p : Playback) (k : ℕ) (v : ℤ) : Prop :=
  k < p.frames ∧ ∃ c < p.channels, p.sample (k * p.channels + c) = v

/-- Sample `k` of `data` is carried by frame `k` of a playback at 48 kHz, for the whole
10 ms. -/
def Playback.AtRate (p : Playback) (data : Region UInt8) : Prop :=
  p.rate = 48000 ∧ ∀ k < 480, p.Carries k (data.short (2 * k))

/-- What `buffer10ms` can hold between two calls. It is empty at first. -/
inductive Buffered : List ℤ → Prop where
  | start : Buffered []
  | call {buffer10ms : List ℤ} (slots : Slots) (publish : Instance) (data : ℕ → UInt8)
      (len : ℕ) (h : Buffered buffer10ms) :
      Buffered (audioCallback slots publish buffer10ms data len).buffer10ms

theorem Buffered.eq_nil {buffer10ms : List ℤ} (h : Buffered buffer10ms) :
    buffer10ms = [] := by
  induction h with
  | start => rfl
  | call slots publish data len h ih =>
      subst ih
      rw [audioCallback_eq]
      split <;> rfl

/-- The published block has the mixed samples in the first channel of its frames. -/
theorem atRate_published {slots : Slots} {publish : Instance} {buffer10ms : List ℤ}
    (hbuffered : Buffered buffer10ms) {data : ℕ → UInt8} {len : ℕ} {p : Playback}
    (h : (audioCallback slots publish buffer10ms data len).published = some p) :
    p.AtRate (audioCallback slots publish buffer10ms data len).data := by
  obtain ⟨hcopied, hdata, hchann⟩ := mixing_spec slots data len
  obtain rfl := hbuffered.eq_nil
  rw [audioCallback_data]
  rw [audioCallback_eq] at h
  split at h
  · rename_i hpublish
    obtain rfl := Option.some.inj h
    have hlength : (mixing slots data len).audioBuffer.contents.length = 960 := by
      rw [Region.length_contents, hcopied.size_eq]
    have hmixed : (mixing slots data len).chann ≠ 0 := by
      rw [hchann]
      exact fun h => hpublish.1 (List.length_eq_zero_iff.1 h)
    refine ⟨rfl, fun k hk => ⟨?_, 0, two_pos, ?_⟩⟩
    · rw [render, List.nil_append, hlength]
      omega
    · have hk' : 2 * k < (mixing slots data len).audioBuffer.contents.length := by omega
      rw [render, List.nil_append]
      simp only [Nat.add_zero, Nat.mul_comm k 2]
      rw [List.getD_eq_getElem _ _ hk', Region.getElem_contents, hcopied.even hmixed k hk,
        hdata]
  · cases h

theorem carries_scheduled_iff {data : Region UInt8} {frames k : ℕ} {v : ℤ} :
    (scheduleAudioSamples data frames).Carries k v ↔
      k < frames ∧ (data.short (2 * (2 * k)) = v ∨ data.short (2 * (2 * k + 1)) = v) := by
  simp only [Playback.Carries, scheduleAudioSamples]
  refine and_congr_right fun _ => ?_
  rw [Nat.mul_comm k 2]
  constructor
  · rintro ⟨c, hc, hv⟩
    obtain rfl | rfl : c = 0 ∨ c = 1 := by omega
    · exact .inl hv
    · exact .inr hv
  · rintro (hv | hv)
    · exact ⟨0, two_pos, hv⟩
    · exact ⟨1, one_lt_two, hv⟩

/-- Two mixed samples fill one frame, so the samples are in their frames only if all but
the first are zero. -/
theorem atRate_scheduled_iff {slots : Slots} {data : ℕ → UInt8} {frames : ℕ} :
    (scheduleAudioSamples (mixedData slots data (frames * 4)) frames).AtRate
        (mixedData slots data (frames * 4)) ↔
      480 ≤ frames ∧ ∀ k, 1 ≤ k → k < 480 → satSum 32767 (mixedSamples slots k) = 0 := by
  have hsum : ∀ k, 480 ≤ frames → k < 960 →
      (mixedData slots data (frames * 4)).short (2 * k) =
        satSum 32767 (mixedSamples slots k) := fun k hframes hk =>
    short_mixedData (by omega)
  constructor
  · rintro ⟨-, hcarries⟩
    have hframes : 480 ≤ frames := (carries_scheduled_iff.1 (hcarries 479 (by norm_num))).1
    -- down from the samples behind the block: frame `k` holds samples `2 k` and `2 k + 1`
    have hzero : ∀ n k, 960 - k = n → 1 ≤ k → k < 960 →
        satSum 32767 (mixedSamples slots k) = 0 := by
      intro n
      induction n using Nat.strong_induction_on with
      | _ n ih =>
          intro k hn hpos hlt
          by_cases hk : 480 ≤ k
          · exact satSum_mixedSamples_of_le hk
          · have hframe := (carries_scheduled_iff.1 (hcarries k (by omega))).2
            rw [hsum _ hframes (by omega), hsum _ hframes (by omega),
              hsum _ hframes (by omega)] at hframe
            rcases hframe with heq | heq
            · rw [← heq]
              exact ih (960 - 2 * k) (by omega) _ rfl (by omega) (by omega)
            · rw [← heq]
              exact ih (960 - (2 * k + 1)) (by omega) _ rfl (by omega) (by omega)
    exact ⟨hframes, fun k hpos hlt => hzero _ k rfl hpos (by omega)⟩
  · rintro ⟨hframes, hzero⟩
    have hall : ∀ k, 1 ≤ k → satSum 32767 (mixedSamples slots k) = 0 := by
      intro k hpos
      rcases lt_or_ge k 480 with hlt | hge
      · exact hzero k hpos hlt
      · exact satSum_mixedSamples_of_le hge
    refine ⟨rfl, fun k hk => carries_scheduled_iff.2 ⟨by omega, .inl ?_⟩⟩
    rw [hsum _ hframes (by omega), hsum _ hframes (by omega)]
    rcases Nat.eq_zero_or_pos k with rfl | hpos
    · rfl
    · rw [hall _ (by omega), hall k hpos]

/-- The published blocks play the mix at its rate. The samples scheduled for the SDI
output do so if and only if ten milliseconds are asked for and nothing is heard behind
the first sample. -/
theorem playback_atRate {buffer10ms : List ℤ} (hbuffered : Buffered buffer10ms)
    (slots : Slots) (publish : Instance) :
    (∀ (data : ℕ → UInt8) (len : ℕ) (p : Playback),
        (audioCallback slots publish buffer10ms data len).published = some p →
        p.AtRate (audioCallback slots publish buffer10ms data len).data) ∧
      ∀ (bufferedSamples : ℕ) (heap : ℕ → UInt8) (e : RenderEnd),
        renderAudioSamples slots (some bufferedSamples) heap = some e →
        ((∃ p, e.scheduled = some p ∧ p.AtRate e.data) ↔
          bufferedSamples ≤ 47520 ∧
            ∀ k, 1 ≤ k → k < 480 → satSum 32767 (mixedSamples slots k) = 0) := by
  refine ⟨fun data len p h => atRate_published hbuffered h, fun bufferedSamples heap e he => ?_⟩
  obtain ⟨hless, data, hdata, hscheduled⟩ := renderAudioSamples_some he
  have hframes : 480 ≤ 48000 - bufferedSamples ↔ bufferedSamples ≤ 47520 := by omega
  rw [hscheduled, hdata, ← hframes, ← @atRate_scheduled_iff slots data]
  simp

/-- The slots with a publish instance that is there. -/
def publisher : Instance := { Instance.startup with audioRender := .live }

theorem playback_atRate_quietSlots :
    ∃ e, renderAudioSamples quietSlots (some 0) (fun _ => 0) = some e ∧
      ((∃ p, e.scheduled = some p ∧ p.AtRate e.data) ↔
        0 ≤ 47520 ∧ ∀ k, 1 ≤ k → k < 480 → satSum 32767 (mixedSamples quietSlots k) = 0) := by
  have hsome := renderAudioSamples_eq quietSlots 0 fun _ => 0
  rw [if_pos (by norm_num)] at hsome
  exact ⟨_, hsome, (playback_atRate .start quietSlots publisher).2 0 (fun _ => 0) _ hsome⟩

/-- One channel with a pending block of samples that are all one. -/
def steadySlots : Slots := drawnChannels [constantBlock 1]

theorem not_atRate_steadySlots :
    ∃ e p, renderAudioSamples steadySlots (some 0) (fun _ => 0) = some e ∧
      e.scheduled = some p ∧ ¬ p.AtRate e.data := by
  have hsome := renderAudioSamples_eq steadySlots 0 fun _ => 0
  rw [if_pos (by norm_num)] at hsome
  refine ⟨_, _, hsome, rfl, ?_⟩
  rw [atRate_scheduled_iff]
  rintro ⟨-, hzero⟩
  have hblocks : mixedBlocks steadySlots = [constantBlock 1] :=
    mixedBlocks_drawnChannels (by simp) (by simp [instanceMax])
  have hsecond := hzero 1 le_rfl (by norm_num)
  rw [mixedSamples, hblocks, List.map_singleton,
    shortAt_constantBlock (by decide) (by norm_num)] at hsecond
  exact absurd hsecond (by decide)

end Bres
