import Bres.Audio.Output
import Bres.Audio.Round
import Bres.Pool.Registry

/-!
# What is played over a whole run

The two audio callbacks as parts of the running program. In the build with
`__BLACKMAGIC_OUTPUT__` DeckLink calls `RenderAudioSamples`, which fills the audio buffer
of the device up to a second; in the other build SDL calls `audioCallback`, which also
hands what it has mixed to the sender.

Each call is given by the blocks that it has taken from the queues. Whatever the other
threads do between two visits, it leaves the mix of these blocks, and the samples that are
played are those of the calls, one call behind the other.
-/

namespace Bres

open Memory Signal Transition

/-! ## Mixed blocks -/

/-- Sample `k` of blocks that are mixed one after the other. -/
def mixOf (blocks : List Bytes) (k : ℕ) : ℤ :=
  satSum 32767 (blocks.map fun pcm => shortAt pcm (2 * k))

/-- The frames of a playback on two channels. -/
def Playback.stereo (p : Playback) : List (ℤ × ℤ) :=
  (List.range p.frames).map fun k => (p.sample (2 * k), p.sample (2 * k + 1))

/-- The blocks that a call has mixed. -/
def PastRound.blocks {μ ω : Type} (r : PastRound μ ω) : List Bytes :=
  r.taken.filterMap Taken.heard

section Blocks

variable {blocks : List Bytes}

/-- The loop over the blocks is that of a call which finds them in its channels. -/
theorem mixedData_drawnChannels (h : ∀ pcm ∈ blocks, pcm.length = 960)
    (hfit : blocks.length ≤ instanceMax) (data : ℕ → UInt8) (len : ℕ) :
    mixedData (drawnChannels blocks) data len =
      blocks.foldl addBlock (Region.clear ⟨len, data, []⟩ 0) := by
  rw [mixedData, mixedBlocks_drawnChannels h hfit]

theorem mixedSamples_drawnChannels (h : ∀ pcm ∈ blocks, pcm.length = 960)
    (hfit : blocks.length ≤ instanceMax) (k : ℕ) :
    satSum 32767 (mixedSamples (drawnChannels blocks) k) = mixOf blocks k := by
  rw [mixedSamples, mixedBlocks_drawnChannels h hfit, mixOf]

end Blocks

theorem Taken.length_of_heard {t : Taken} {pcm : Bytes} (h : t.heard = some pcm) :
    pcm.length = 960 := by
  obtain ⟨⟨-, hlength⟩, h⟩ := Option.ite_none_right_eq_some.1 h
  obtain rfl := Option.some.inj h
  exact hlength

namespace Callback.Mixes

variable {σ μ ι ω ε : Type} {c : Callback σ μ ι ω ε} {taken : List Taken}
  {rest : List (Fin instanceMax)} {m : μ}

theorem length_of_mem {pcm : Bytes} (hpcm : pcm ∈ taken.filterMap Taken.heard) :
    pcm.length = 960 := by
  obtain ⟨t, -, ht⟩ := List.mem_filterMap.1 hpcm
  exact Taken.length_of_heard ht

theorem length_le (h : c.Mixes taken rest m) :
    (taken.filterMap Taken.heard).length ≤ instanceMax := by
  have hslots := h.ordered.length_le
  rw [List.length_append, List.length_map, List.length_finRange] at hslots
  have hheard := List.length_filterMap_le Taken.heard taken
  omega

end Callback.Mixes

theorem safe_of_addBlock {data : Region UInt8} {pcm : Bytes} (h : (addBlock data pcm).Safe) :
    data.Safe := by
  intro i hi
  have hsize : (addBlock data pcm).size = data.size := by
    rw [addBlock_eq, Region.size_foldl_rewriteShort]
  rw [← hsize]
  refine h i ?_
  rw [addBlock_eq, Region.mem_touched_foldl_rewriteShort]
  exact .inl hi

/-! ## `RenderAudioSamples` -/

/-- The frames in the audio buffer of the device, and those that it has played. -/
structure AudioOut where
  waiting : List (ℤ × ℤ) := []
  played : List (ℤ × ℤ) := []

/-- The locals of `RenderAudioSamples` and of `audioCallbackSDI`. -/
structure RenderCall where
  targetCount : ℕ
  data : Region UInt8

/-- They stand like this in front of the loop. -/
def RenderCall.start (remain : ℕ) (heap : ℕ → UInt8) : RenderCall :=
  let datalen := remain * audioOutChannelBitsz
  let data := Region.clear ⟨datalen, heap, []⟩ 0
  ⟨datalen / audioOutChannelBitsz, Region.clear ⟨datalen, data.cell, []⟩ 0⟩

/-- `RenderAudioSamples` with its callback. The memory of `malloc` has some content,
`ScheduleAudioSamples` takes some of the frames, and the device plays what it has. -/
def sdiAudio : Callback AudioOut RenderCall (ℕ → UInt8) ℕ ℕ where
  enter out heap :=
    if out.waiting.length < audioRate48k then
      some (.start (audioRate48k - out.waiting.length) heap)
    else none
  mix m pcm := { m with data := addBlock m.data pcm }
  data m := m.data
  enter_safe out heap m h := by
    obtain ⟨-, h⟩ := Option.ite_none_right_eq_some.1 h
    obtain rfl := Option.some.inj h
    exact fun _ hi => absurd hi List.not_mem_nil
  leave out m samplesWritten :=
    if m.targetCount > 0 then
      if samplesWritten ≤ m.targetCount then
        let scheduled := (scheduleAudioSamples m.data m.targetCount).stereo.take samplesWritten
        some { out with waiting := out.waiting ++ scheduled }
      else none
    else some out
  turn out n :=
    if n ≤ out.waiting.length then
      some ⟨out.waiting.drop n, out.played ++ out.waiting.take n⟩
    else none

section Sdi

variable {P : Platform} {own : AudioOut} {taken : List Taken} {rest : List (Fin instanceMax)}
  {m : RenderCall} {s t : Soundtrack AudioOut RenderCall ℕ} {a : SoundAction (ℕ → UInt8) ℕ ℕ}

theorem targetCount_start (remain : ℕ) (heap : ℕ → UInt8) :
    (RenderCall.start remain heap).targetCount = remain :=
  Nat.mul_div_cancel _ (by decide)

/-- A call asks for the frames that are missing from a second. -/
theorem sdiAudio_enter_eq_some {heap : ℕ → UInt8} (h : sdiAudio.enter own heap = some m) :
    own.waiting.length + m.targetCount = 48000 ∧ 0 < m.targetCount ∧
      ∃ data : ℕ → UInt8, m.data = Region.clear ⟨m.targetCount * 4, data, []⟩ 0 := by
  obtain ⟨hless, h⟩ := Option.ite_none_right_eq_some.1 h
  obtain rfl := Option.some.inj h
  have hless : own.waiting.length < 48000 := hless
  rw [targetCount_start]
  simp only [audioRate48k]
  exact ⟨by omega, by omega, _, rfl⟩

theorem foldl_sdiAudio_mix (blocks : List Bytes) (m : RenderCall) :
    blocks.foldl sdiAudio.mix m = ⟨m.targetCount, blocks.foldl addBlock m.data⟩ := by
  induction blocks generalizing m with
  | nil => rfl
  | cons pcm blocks ih => exact ih _

theorem sdiAudio_leave (hpos : 0 < m.targetCount) {written : ℕ} (h : written ≤ m.targetCount) :
    sdiAudio.leave own m written = some { own with
      waiting := own.waiting ++
        (scheduleAudioSamples m.data m.targetCount).stereo.take written } := by
  simp only [sdiAudio, if_pos hpos, if_pos h]

theorem targetCount_pos (h : sdiAudio.Mixes taken rest m) : 0 < m.targetCount := by
  obtain ⟨m₀, ⟨own, heap, henter⟩, rfl⟩ := h.mixed
  rw [foldl_sdiAudio_mix]
  exact (sdiAudio_enter_eq_some henter).2.1

/-- The frames that `n` frames of a call consist of. -/
def sdiFrames (blocks : List Bytes) (n : ℕ) : List (ℤ × ℤ) :=
  (List.range n).map fun k => (mixOf blocks (2 * k), mixOf blocks (2 * k + 1))

/-- A call that has returned schedules the mix of the blocks that it has taken. -/
theorem stereo_of_mixes (h : sdiAudio.Mixes taken rest m) :
    (scheduleAudioSamples m.data m.targetCount).stereo =
      sdiFrames (taken.filterMap Taken.heard) m.targetCount := by
  obtain ⟨m₀, ⟨own, heap, henter⟩, rfl⟩ := h.mixed
  obtain ⟨-, -, data, hdata⟩ := sdiAudio_enter_eq_some henter
  rw [foldl_sdiAudio_mix, hdata]
  have hlength : ∀ pcm ∈ taken.filterMap Taken.heard, pcm.length = 960 := fun _ =>
    Callback.Mixes.length_of_mem
  refine List.map_congr_left fun k hk => ?_
  have hk : k < m₀.targetCount := List.mem_range.1 hk
  simp only [scheduleAudioSamples]
  rw [← mixedData_drawnChannels hlength h.length_le, short_mixedData (by omega),
    short_mixedData (by omega), mixedSamples_drawnChannels hlength h.length_le,
    mixedSamples_drawnChannels hlength h.length_le]

/-- What holds of the audio buffer of the device in every run. -/
structure Plays (s : Soundtrack AudioOut RenderCall ℕ) : Prop where
  bounded : s.own.waiting.length ≤ 48000
  room : ∀ r, s.round = some r → s.own.waiting.length + r.mixed.targetCount ≤ 48000
  frames : s.own.played ++ s.own.waiting =
    s.past.flatMap fun r => (sdiFrames r.blocks r.mixed.targetCount).take r.answer

theorem Plays.step (hs : Plays s) (hsound : s.Sound P sdiAudio)
    (h : s.step P sdiAudio a = some t) : Plays t := by
  cases Soundtrack.step_spec h with
  | moved => exact ⟨hs.bounded, hs.room, hs.frames⟩
  | entered hround henter =>
      refine ⟨hs.bounded, fun r hr => ?_, hs.frames⟩
      obtain rfl := Option.some.inj hr
      exact (sdiAudio_enter_eq_some henter).1.le
  | @visited i rest taken m hround hsafe =>
      refine ⟨hs.bounded, fun r hr => ?_, hs.frames⟩
      obtain rfl := Option.some.inj hr
      have hroom : s.own.waiting.length + m.targetCount ≤ 48000 := hs.room _ hround
      rw [foldl_sdiAudio_mix]
      exact hroom
  | @left taken m y own hround hleave =>
      have hmixes : sdiAudio.Mixes taken [] m := hsound.round _ hround
      have hroom : s.own.waiting.length + m.targetCount ≤ 48000 := hs.room _ hround
      simp only [sdiAudio, if_pos (targetCount_pos hmixes)] at hleave
      obtain ⟨hwritten, hleave⟩ := Option.ite_none_right_eq_some.1 hleave
      obtain rfl := Option.some.inj hleave
      rw [stereo_of_mixes hmixes]
      refine ⟨?_, fun r hr => (nomatch hr), ?_⟩
      · simp only [List.length_append, List.length_take]
        omega
      · rw [← List.append_assoc, hs.frames, List.flatMap_append, List.flatMap_singleton]
        rfl
  | @turned n own hturn =>
      obtain ⟨hless, hturn⟩ := Option.ite_none_right_eq_some.1 hturn
      obtain rfl := Option.some.inj hturn
      have hlength : (s.own.waiting.drop n).length ≤ s.own.waiting.length := by simp
      refine ⟨hlength.trans hs.bounded, fun r hr => ?_, ?_⟩
      · have hroom := hs.room r hr
        simp only
        omega
      · rw [List.append_assoc, List.take_append_drop]
        exact hs.frames

theorem size_of_mixes (h : sdiAudio.Mixes taken rest m) : m.data.size = m.targetCount * 4 := by
  obtain ⟨m₀, ⟨own, heap, henter⟩, rfl⟩ := h.mixed
  obtain ⟨-, -, data, hdata⟩ := sdiAudio_enter_eq_some henter
  rw [foldl_sdiAudio_mix, size_foldl_addBlock, hdata, Region.size_clear]

/-- The loop over a block stays in a buffer of 240 frames or more. -/
theorem safe_visit_iff (h : sdiAudio.Mixes taken rest m) (inst : Instance) :
    (inst.mixedBlock.toList.foldl sdiAudio.mix m).data.Safe ↔
      240 ≤ m.targetCount ∨ inst.mixedBlock = none := by
  rw [foldl_sdiAudio_mix]
  cases hblock : inst.mixedBlock with
  | none => exact iff_of_true h.safe (.inr rfl)
  | some pcm =>
      have hlength := Instance.length_of_mixedBlock hblock
      simp only [Option.toList_some, List.foldl_cons, List.foldl_nil, reduceCtorEq, or_false,
        Region.Safe, mem_touched_addBlock hlength]
      rw [addBlock_eq, Region.size_foldl_rewriteShort, size_of_mixes h]
      constructor
      · intro hsafe
        have hlast := hsafe 959 (.inr (by norm_num))
        omega
      · rintro hcount i (hi | hi)
        · exact (h.safe i hi).trans_eq (size_of_mixes h)
        · omega

/-- A call with nothing in between is `renderAudioSamples`. -/
theorem run_renderAudioSamples {heap : ℕ → UInt8} {e : RenderEnd} {written : ℕ}
    (hround : s.round = none)
    (h : renderAudioSamples s.world.pool.slot (some s.own.waiting.length) heap = some e)
    (hsafe : e.data.Safe) (hwritten : written ≤ 48000 - s.own.waiting.length) :
    ∃ t p, run (Soundtrack.step P sdiAudio) s
          (.enter heap :: List.replicate instanceMax .visit ++ [.leave written]) = some t ∧
      e.scheduled = some p ∧ t.world = ⟨⟨e.slots, s.world.pool.shared⟩, s.world.hands⟩ ∧
      t.own = ⟨s.own.waiting ++ p.stereo.take written, s.own.played⟩ := by
  rw [renderAudioSamples_eq] at h
  obtain ⟨hless, h⟩ := Option.ite_none_right_eq_some.1 h
  obtain rfl := Option.some.inj h
  have henter : sdiAudio.enter s.own heap =
      some (.start (48000 - s.own.waiting.length) heap) := if_pos hless
  have hmixed := foldl_sdiAudio_mix (mixedBlocks s.world.pool.slot)
    (.start (48000 - s.own.waiting.length) heap)
  rw [targetCount_start] at hmixed
  obtain ⟨taken, hrun⟩ := Soundtrack.run_call (P := P) (fun _ _ => safe_of_addBlock) hround henter
    (by rw [hmixed]; exact hsafe)
    (by rw [hmixed]; exact sdiAudio_leave (Nat.sub_pos_of_lt hless) hwritten)
  exact ⟨_, _, hrun, rfl, rfl, rfl⟩

theorem start_plays : Plays (Soundtrack.start {}) where
  bounded := Nat.zero_le _
  room _ hr := nomatch hr
  frames := rfl

namespace Soundtrack

/-- A channel is added and drawn, gets a block, and a call takes it. -/
def oneBlock : List (SoundAction (ℕ → UInt8) ℕ ℕ) :=
  (Sample.drawChannel ++ [WorldAction.thread 0 (.onData (constantBlock 1))]).map .world ++
    .enter (fun _ => 0) :: List.replicate instanceMax .visit ++ [.leave 480, .turn 240]

end Soundtrack

end Sdi

/-! ## `audioCallback` -/

/-- What outlives a call of `audioCallback`: its buffer, the samples that SDL was given
and the frames that the sender was given. -/
structure AudioSend where
  buffer10ms : List ℤ := []
  heard : List ℤ := []
  published : List (ℤ × ℤ) := []

/-- `audioCallback`, called by SDL with `len` bytes of some memory. -/
def sdlAudio : Callback AudioSend Mixing ((ℕ → UInt8) × ℕ) Handle Empty where
  enter _ buffer :=
    some ⟨Region.clear ⟨buffer.2, buffer.1, []⟩ 0, ⟨480 <<< 1, fun _ => 0, []⟩, 0⟩
  mix := mixBlock
  data := Mixing.data
  enter_safe _ buffer m h := by
    obtain rfl := Option.some.inj h
    exact fun _ hi => absurd hi List.not_mem_nil
  leave own m audioRender :=
    let heard := own.heard ++ (List.range (m.data.size / 2)).map fun k => m.data.short (2 * k)
    if m.chann ≠ 0 ∧ audioRender ≠ .null then
      let buffer10ms := own.buffer10ms ++ m.audioBuffer.contents
      if buffer10ms.length ≥ 960 then
        some ⟨[], heard, own.published ++ (render buffer10ms).stereo⟩
      else some ⟨buffer10ms, heard, own.published⟩
    else some ⟨own.buffer10ms, heard, own.published⟩
  turn _ z := z.elim

section Sdl

variable {P : Platform} {taken : List Taken} {rest : List (Fin instanceMax)} {m : Mixing}
  {s t : Soundtrack AudioSend Mixing Handle} {a : SoundAction ((ℕ → UInt8) × ℕ) Handle Empty}

/-- The frames that the sender is given after a call with these blocks. -/
def sentFrames (blocks : List Bytes) : List (ℤ × ℤ) :=
  (List.range 480).map fun k => (mixOf blocks k, 0)

/-- The loops of a call leave what they leave when nothing else happens, and the channels
have these blocks pending. -/
theorem mixing_of_mixes (h : sdlAudio.Mixes taken rest m) :
    ∃ data len, m = mixing (drawnChannels (taken.filterMap Taken.heard)) data len := by
  obtain ⟨m₀, ⟨own, buffer, henter⟩, rfl⟩ := h.mixed
  obtain rfl := Option.some.inj henter
  have hlength : ∀ pcm ∈ taken.filterMap Taken.heard, pcm.length = 960 := fun _ =>
    Callback.Mixes.length_of_mem
  refine ⟨buffer.1, buffer.2, ?_⟩
  rw [mixing, mixedBlocks_drawnChannels hlength h.length_le]
  rfl

theorem chann_of_mixes (h : sdlAudio.Mixes taken rest m) :
    m.chann ≠ 0 ↔ taken.filterMap Taken.heard ≠ [] := by
  obtain ⟨data, len, rfl⟩ := mixing_of_mixes h
  obtain ⟨-, -, hchann⟩ := mixing_spec (drawnChannels (taken.filterMap Taken.heard)) data len
  rw [hchann, mixedBlocks_drawnChannels (fun _ => Callback.Mixes.length_of_mem) h.length_le,
    ne_eq, List.length_eq_zero_iff]

theorem short_of_mixes (h : sdlAudio.Mixes taken rest m) {k : ℕ} (hk : 2 * k + 2 ≤ m.data.size) :
    m.data.short (2 * k) = mixOf (taken.filterMap Taken.heard) k := by
  obtain ⟨data, len, rfl⟩ := mixing_of_mixes h
  obtain ⟨-, hdata, -⟩ := mixing_spec (drawnChannels (taken.filterMap Taken.heard)) data len
  rw [hdata] at hk ⊢
  rw [short_mixedData (by simpa [mixedData] using hk),
    mixedSamples_drawnChannels (fun _ => Callback.Mixes.length_of_mem) h.length_le]

/-- A call that has mixed something was given room for a block. -/
theorem size_le_of_mixes (h : sdlAudio.Mixes taken rest m)
    (hheard : taken.filterMap Taken.heard ≠ []) : 960 ≤ m.data.size := by
  obtain ⟨data, len, rfl⟩ := mixing_of_mixes h
  obtain ⟨-, hdata, -⟩ := mixing_spec (drawnChannels (taken.filterMap Taken.heard)) data len
  have hsafe : (mixing (drawnChannels (taken.filterMap Taken.heard)) data len).data.Safe := h.safe
  rw [hdata, safe_mixedData_iff,
    mixedBlocks_drawnChannels (fun _ => Callback.Mixes.length_of_mem) h.length_le] at hsafe
  rw [hdata]
  simpa [mixedData] using hsafe.resolve_right hheard

theorem stereo_of_render (h : sdlAudio.Mixes taken rest m)
    (hheard : taken.filterMap Taken.heard ≠ []) :
    (render m.audioBuffer.contents).stereo = sentFrames (taken.filterMap Taken.heard) := by
  have hroom := size_le_of_mixes h hheard
  have hcopied : m.Copied := by
    obtain ⟨data, len, rfl⟩ := mixing_of_mixes h
    exact (mixing_spec _ data len).1
  have hlength : m.audioBuffer.contents.length = 960 := by
    rw [Region.length_contents, hcopied.size_eq]
  have hframes : (render m.audioBuffer.contents).frames = 480 := by
    rw [render, hlength]
  rw [Playback.stereo, hframes]
  refine List.map_congr_left fun k hk => ?_
  have hk : k < 480 := List.mem_range.1 hk
  have hcell : ∀ n < 960, (render m.audioBuffer.contents).sample n = m.audioBuffer.cell n := by
    intro n hn
    simp only [render]
    rw [List.getD_eq_getElem _ _ (by omega), Region.getElem_contents]
  rw [hcell _ (by omega), hcell _ (by omega), hcopied.even ((chann_of_mixes h).2 hheard) k hk,
    hcopied.odd, short_of_mixes h (by omega)]

/-- What holds of the buffers of `audioCallback` in every run. -/
structure Sends (s : Soundtrack AudioSend Mixing Handle) : Prop where
  emptied : s.own.buffer10ms = []
  heard : s.own.heard =
    s.past.flatMap fun r => (List.range (r.mixed.data.size / 2)).map (mixOf r.blocks)
  published : s.own.published =
    s.past.flatMap fun r => if r.blocks ≠ [] ∧ r.answer ≠ .null then sentFrames r.blocks else []

theorem start_sends : Sends (Soundtrack.start {}) where
  emptied := rfl
  heard := rfl
  published := rfl

/-- What a call leaves behind its loop. -/
theorem sdlAudio_leave (slots : Slots) (data : ℕ → UInt8) (len : ℕ) (own : AudioSend)
    (audioRender : Handle) :
    let m := mixing slots data len
    let heard := own.heard ++ (List.range (m.data.size / 2)).map fun k => m.data.short (2 * k)
    sdlAudio.leave own m audioRender = some
      (if mixedBlocks slots ≠ [] ∧ audioRender ≠ .null then
        ⟨[], heard,
          own.published ++ (render (own.buffer10ms ++ m.audioBuffer.contents)).stereo⟩
      else ⟨own.buffer10ms, heard, own.published⟩) := by
  obtain ⟨hcopied, -, hchann⟩ := mixing_spec slots data len
  have hfull : (own.buffer10ms ++ (mixing slots data len).audioBuffer.contents).length ≥ 960 := by
    rw [List.length_append, Region.length_contents, hcopied.size_eq]
    omega
  have hmixed : (mixing slots data len).chann ≠ 0 ↔ mixedBlocks slots ≠ [] := by
    rw [hchann, ne_eq, List.length_eq_zero_iff]
  simp only [sdlAudio, hmixed, if_pos hfull]
  split <;> rfl

/-- A call with nothing in between is `audioCallback`. -/
theorem run_audioCallback {publish : Instance} {data : ℕ → UInt8} {len : ℕ}
    (hround : s.round = none)
    (hsafe : (audioCallback s.world.pool.slot publish s.own.buffer10ms data len).data.Safe) :
    ∃ t, run (Soundtrack.step P sdlAudio) s
          (.enter (data, len) :: List.replicate instanceMax .visit ++
            [.leave publish.audioRender]) = some t ∧
      let e := audioCallback s.world.pool.slot publish s.own.buffer10ms data len
      t.world = ⟨⟨e.slots, s.world.pool.shared⟩, s.world.hands⟩ ∧
      t.own.buffer10ms = e.buffer10ms ∧
      t.own.published = s.own.published ++ (e.published.map Playback.stereo).getD [] := by
  obtain ⟨-, hdata, -⟩ := mixing_spec s.world.pool.slot data len
  rw [audioCallback_data, ← hdata] at hsafe
  have hmix : ∀ (m : Mixing) (pcm : Bytes), (mixBlock m pcm).data.Safe → m.data.Safe := by
    intro m pcm h
    rw [mixBlock, data_foldl_mixSample] at h
    exact safe_of_addBlock h
  obtain ⟨taken, hrun⟩ := Soundtrack.run_call (P := P) (c := sdlAudio) hmix hround
    (x := (data, len)) rfl hsafe
    (sdlAudio_leave s.world.pool.slot data len s.own publish.audioRender)
  refine ⟨_, hrun, ?_⟩
  rw [audioCallback_eq]
  split
  · exact ⟨rfl, rfl, rfl⟩
  · exact ⟨rfl, rfl, (List.append_nil _).symm⟩

/-- What a call that has taken these blocks leaves behind its loop. -/
theorem sdlAudio_leave_of_mixes (h : sdlAudio.Mixes taken rest m) {own : AudioSend}
    (hemptied : own.buffer10ms = []) (audioRender : Handle) :
    sdlAudio.leave own m audioRender = some
      ⟨[], own.heard ++ (List.range (m.data.size / 2)).map (mixOf (taken.filterMap Taken.heard)),
        own.published ++
          if taken.filterMap Taken.heard ≠ [] ∧ audioRender ≠ .null then
            sentFrames (taken.filterMap Taken.heard)
          else []⟩ := by
  have hheard : (List.range (m.data.size / 2)).map (fun k => m.data.short (2 * k)) =
      (List.range (m.data.size / 2)).map (mixOf (taken.filterMap Taken.heard)) := by
    refine List.map_congr_left fun k hk => short_of_mixes h ?_
    have hk := List.mem_range.1 hk
    omega
  have hblocks := mixedBlocks_drawnChannels (fun _ => Callback.Mixes.length_of_mem) h.length_le
  by_cases hsends : taken.filterMap Taken.heard ≠ [] ∧ audioRender ≠ .null
  · have hstereo := stereo_of_render h hsends.1
    obtain ⟨data, len, rfl⟩ := mixing_of_mixes h
    rw [sdlAudio_leave, hheard, hblocks, hemptied, if_pos hsends, if_pos hsends,
      List.nil_append, hstereo]
  · obtain ⟨data, len, rfl⟩ := mixing_of_mixes h
    rw [sdlAudio_leave, hheard, hblocks, hemptied, if_neg hsends, if_neg hsends,
      List.append_nil]

theorem Sends.step (hs : Sends s) (hsound : s.Sound P sdlAudio)
    (h : s.step P sdlAudio a = some t) : Sends t := by
  cases Soundtrack.step_spec h with
  | moved => exact ⟨hs.emptied, hs.heard, hs.published⟩
  | entered => exact ⟨hs.emptied, hs.heard, hs.published⟩
  | visited => exact ⟨hs.emptied, hs.heard, hs.published⟩
  | left hround hleave =>
      rw [sdlAudio_leave_of_mixes (hsound.round _ hround) hs.emptied] at hleave
      obtain rfl := Option.some.inj hleave
      refine ⟨rfl, ?_, ?_⟩
      · rw [hs.heard, List.flatMap_append, List.flatMap_singleton]
        rfl
      · rw [hs.published, List.flatMap_append, List.flatMap_singleton]
        rfl
  | @turned z own hturn => exact z.elim

namespace Soundtrack

/-- What `audioCallback` hands out. In every run the frames that the sender was given are
those of the calls that have mixed something while it was there: 480 frames with the mix
of the blocks that the call has taken in the first channel and silence in the second. SDL
plays the same mix at all times. A call takes at most one block from each slot, in the
order of the slots, and what was pushed for a slot was taken from it, in order, or still
waits; nothing is left in `buffer10ms` behind a call. -/
theorem run_publishes {as : List (SoundAction ((ℕ → UInt8) × ℕ) Handle Empty)}
    (h : run (step P sdlAudio) (start {}) as = some s) :
    s.own.published = s.past.flatMap (fun r =>
        if r.blocks ≠ [] ∧ r.answer ≠ .null then sentFrames r.blocks else []) ∧
      s.own.heard = s.past.flatMap (fun r =>
        (List.range (r.mixed.data.size / 2)).map (mixOf r.blocks)) ∧
      s.own.buffer10ms = [] ∧
      (∀ r ∈ s.past, (r.taken.map Taken.slot).Sublist (List.finRange instanceMax)) ∧
      ∀ i, pushedFor i as = s.takenFrom i ++ s.queue i := by
  obtain ⟨hsound, hsends⟩ : s.Sound P sdlAudio ∧ Sends s :=
    run_preserves (I := fun s => s.Sound P sdlAudio ∧ Sends s)
      (fun _ _ _ hs hstep => ⟨hs.1.step hstep, hs.2.step hs.1 hstep⟩)
      ⟨start_sound _, start_sends⟩ h
  refine ⟨hsends.published, hsends.heard, hsends.emptied, fun r hr => ?_, run_pushedFor h⟩
  have hordered := (hsound.past r hr).ordered
  rwa [List.append_nil] at hordered

/-- The same block, with the sender there. -/
def oneSent : List (SoundAction ((ℕ → UInt8) × ℕ) Handle Empty) :=
  (Sample.drawChannel ++ [WorldAction.thread 0 (.onData (constantBlock 1))]).map .world ++
    .enter (fun _ => 0, 960) :: List.replicate instanceMax .visit ++ [.leave .live]

theorem run_publishes_block :
    ∃ s, run (step Sample.platform sdlAudio) (start {}) oneSent = some s ∧
      s.own.published.length = 480 ∧
      s.own.published = s.past.flatMap (fun r =>
        if r.blocks ≠ [] ∧ r.answer ≠ .null then sentFrames r.blocks else []) ∧
      pushedFor 0 oneSent = s.takenFrom 0 ++ s.queue 0 := by
  have hobserved : (run (step Sample.platform sdlAudio) (start {}) oneSent).map
      (fun s => s.own.published.length) = some 480 := by
    decide +kernel
  obtain ⟨s, hs, hlength⟩ := Option.map_eq_some_iff.1 hobserved
  obtain ⟨hpublished, -, -, -, hpushed⟩ := run_publishes hs
  exact ⟨s, hs, hlength, hpublished, hpushed 0⟩

end Soundtrack

end Sdl

end Bres
