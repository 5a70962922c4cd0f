import Bres.Event.Queue
import Bres.Memory.Region
import Mathlib.Data.List.FinRange

/-!
# The audio callbacks

`src/audio.cc`, with `AudioRender::Render` of `inc/bres+client_vdevice_inl.hh` and
`Output::RenderAudioSamples` of `src/bm.cc`. A callback is given a buffer and its length.
It clears the buffer, takes one block from the audio queue of every slot that is not
free, and adds each block of 10 ms to the buffer if its slot is drawn. The loop over a
block runs to the length of the block.

The two callbacks differ in what they do with a sample next to the buffer and behind the
loop, so the visit of a slot takes the treatment of a block as an argument. The first of
them is called by SDL in the build without `__BLACKMAGIC_OUTPUT__`, the second by
`RenderAudioSamples` in the build with it.
-/

namespace Bres

open Memory

/-- The slots of `pooled_instances`. -/
abbrev Slots := Fin instanceMax → Instance

/-- `AUDIO_OUT_CHANNELBITSZ` -/
def audioOutChannelBitsz : ℕ := 2 * (16 / 8)

/-- `AUDIO_RATE48K` -/
def audioRate48k : ℕ := 48000

/-- Interleaved samples that are handed over to be played. -/
structure Playback where
  sample : ℕ → ℤ
  frames : ℕ
  channels : ℕ
  rate : ℕ

/-! ## Adding a block -/

/-- What is stored for a sum of two samples. -/
def saturate (chk p : ℤ) : ℤ :=
  if chk + p > 32767 then 32767
  else if chk + p < -32767 then -32767
  else chk + p

/-- The sample at offset `n` of a block is added to the one in the buffer. -/
def addSample (pcm : Bytes) (data : Region UInt8) (n : ℕ) : Region UInt8 :=
  let p := shortAt pcm n
  let chk := data.short n
  (data.readShort n).writeShort n (saturate chk p)

/-- The values of `n` in the loop over a block. -/
def offsets (pcm : Bytes) : List ℕ := List.range' 0 ((pcm.length + 1) / 2) 2

/-- The visit of a slot: one audio event is taken, and a block of 10 ms is mixed if the
slot is drawn. -/
def visitSlot {μ : Type} (mix : μ → Bytes → μ) (s : Slots × μ) (i : Fin instanceMax) :
    Slots × μ :=
  let inst := s.1 i
  if inst.instanceEnum ≠ .min then
    match popEvent inst .audio with
    | none => s
    | some (e, inst) =>
        (Function.update s.1 i inst,
          if inst.isDraw ≠ 0 ∧ e.event.length = 480 <<< 1 then mix s.2 e.event else s.2)
  else s

/-! ## `audioCallback` -/

/-- The locals of `audioCallback`, with the buffer it is given. -/
structure Mixing where
  data : Region UInt8
  audioBuffer : Region ℤ
  chann : ℕ

def mixSample (pcm : Bytes) (m : Mixing) (n : ℕ) : Mixing :=
  let data := addSample pcm m.data n
  { m with data := data, audioBuffer := m.audioBuffer.write n (data.short n) }

def mixBlock (m : Mixing) (pcm : Bytes) : Mixing :=
  let m := (offsets pcm).foldl (mixSample pcm) m
  { m with chann := m.chann + 1 }

/-- `AudioRender::Render`: `RecordedDataIsAvailable` is told of two bytes for each of two
channels. `Render` calls it only `if (audio_callback_)`, that is, when libwebrtc has
registered its transport; this is what is handed to it then. -/
def render (data : List ℤ) : Playback where
  sample i := data.getD i 0
  frames := data.length / 2
  channels := 2
  rate := 48000

/-- What a call of `audioCallback` leaves, with the block that it publishes. -/
structure CallbackEnd where
  slots : Slots
  data : Region UInt8
  audioBuffer : Region ℤ
  buffer10ms : List ℤ
  published : Option Playback

/-- `audioCallback`, called with `len` bytes of the memory behind `data`. -/
def audioCallback (slots : Slots) (publish : Instance) (buffer10ms : List ℤ)
    (data : ℕ → UInt8) (len : ℕ) : CallbackEnd :=
  let m : Mixing := ⟨Region.clear ⟨len, data, []⟩ 0, ⟨480 <<< 1, fun _ => 0, []⟩, 0⟩
  let (slots, m) := (List.finRange instanceMax).foldl (visitSlot mixBlock) (slots, m)
  if m.chann ≠ 0 ∧ publish.audioRender ≠ .null then
    let buffer10ms := buffer10ms ++ m.audioBuffer.contents
    if buffer10ms.length ≥ 960 then
      ⟨slots, m.data, m.audioBuffer, [], some (render buffer10ms)⟩
    else ⟨slots, m.data, m.audioBuffer, buffer10ms, none⟩
  else ⟨slots, m.data, m.audioBuffer, buffer10ms, none⟩

/-! ## `audioCallbackSDI` -/

def addBlock (data : Region UInt8) (pcm : Bytes) : Region UInt8 :=
  (offsets pcm).foldl (addSample pcm) data

/-- `audioCallbackSDI`, with `targetCount` in front. -/
def audioCallbackSDI (slots : Slots) (data : ℕ → UInt8) (len : ℕ) :
    ℕ × Slots × Region UInt8 :=
  let targetCount := len / audioOutChannelBitsz
  (targetCount, (List.finRange instanceMax).foldl (visitSlot addBlock)
    (slots, Region.clear ⟨len, data, []⟩ 0))

/-- `ScheduleAudioSamples`, on an output enabled for two channels of 16 bits at 48 kHz. -/
def scheduleAudioSamples (data : Region UInt8) (sampleFrameCount : ℕ) : Playback where
  sample i := data.short (2 * i)
  frames := sampleFrameCount
  channels := 2
  rate := audioRate48k

/-- What a call of `RenderAudioSamples` leaves. -/
structure RenderEnd where
  slots : Slots
  data : Region UInt8
  scheduled : Option Playback

/-- `Output::RenderAudioSamples` once `audioInit` has set the callback, when
`GetBufferedAudioSampleFrameCount` answers `bufferedSamples` and `malloc` returns memory
with that content; `none` where it allocates no buffer. -/
def renderAudioSamples (slots : Slots) (bufferedSamples : Option ℕ) (heap : ℕ → UInt8) :
    Option RenderEnd :=
  match bufferedSamples with
  | none => none
  | some bufferedSamples =>
      if bufferedSamples < audioRate48k then
        let remain := audioRate48k - bufferedSamples
        let datalen := remain * audioOutChannelBitsz
        let data := Region.clear ⟨datalen, heap, []⟩ 0
        let (trgtcnt, slots, data) := audioCallbackSDI slots data.cell datalen
        if trgtcnt > 0 then
          some ⟨slots, data, some (scheduleAudioSamples data trgtcnt)⟩
        else some ⟨slots, data, none⟩
      else none

/-! ## What a callback takes from the slots -/

/-- The slot behind a visit. -/
def Instance.popAudio (inst : Instance) : Instance :=
  if inst.instanceEnum ≠ .min then { inst with eventsAudio := inst.eventsAudio.tail }
  else inst

/-- The block that a visit of the slot mixes. -/
def Instance.mixedBlock (inst : Instance) : Option Bytes :=
  match inst.eventsAudio with
  | [] => none
  | e :: _ =>
      if inst.instanceEnum ≠ .min ∧ inst.isDraw ≠ 0 ∧ e.event.length = 480 <<< 1 then
        some e.event
      else none

/-- The blocks that a callback mixes, in the order of the slots. -/
def mixedBlocks (slots : Slots) : List Bytes :=
  (List.finRange instanceMax).filterMap fun i => (slots i).mixedBlock

theorem visitSlot_eq {μ : Type} (mix : μ → Bytes → μ) (s : Slots × μ) (i : Fin instanceMax) :
    visitSlot mix s i = (Function.update s.1 i (s.1 i).popAudio,
      ((s.1 i).mixedBlock.toList).foldl mix s.2) := by
  unfold visitSlot Instance.popAudio
  by_cases henum : (s.1 i).instanceEnum = .min
  · have hnone : (s.1 i).mixedBlock = none := by
      unfold Instance.mixedBlock
      cases (s.1 i).eventsAudio <;> simp [henum]
    simp [henum, hnone]
  · cases hevents : (s.1 i).eventsAudio with
    | nil =>
        have hsame : { s.1 i with eventsAudio := [] } = s.1 i := by rw [← hevents]
        simp [henum, popEvent, Instance.events, Instance.mixedBlock, hevents, hsame]
    | cons e es =>
        have hne : (s.1 i).instanceEnum ≠ .min := henum
        simp only [if_pos hne, popEvent, Instance.events, Instance.setEvents,
          Instance.mixedBlock, hevents, List.tail_cons]
        by_cases hmixed : (s.1 i).isDraw ≠ 0 ∧ e.event.length = 480 <<< 1
        · rw [if_pos hmixed, if_pos ⟨hne, hmixed⟩]
          rfl
        · rw [if_neg hmixed, if_neg fun h => hmixed h.2]
          rfl

theorem foldl_visitSlot {μ : Type} (mix : μ → Bytes → μ) {l : List (Fin instanceMax)}
    (hl : l.Nodup) (s : Slots × μ) :
    l.foldl (visitSlot mix) s = (fun i => if i ∈ l then (s.1 i).popAudio else s.1 i,
      (l.filterMap fun i => (s.1 i).mixedBlock).foldl mix s.2) := by
  induction l generalizing s with
  | nil => simp
  | cons i l ih =>
      obtain ⟨hi, hl⟩ := List.nodup_cons.1 hl
      have hkeep : ∀ j ∈ l, Function.update s.1 i (s.1 i).popAudio j = s.1 j := fun j hj =>
        Function.update_of_ne (ne_of_mem_of_not_mem hj hi) ..
      rw [List.foldl_cons, visitSlot_eq, ih hl]
      simp only
      congr 1
      · funext j
        by_cases hj : j = i
        · subst hj
          simp [hi]
        · simp [hj]
      · rw [List.filterMap_congr fun j hj => by rw [hkeep j hj], List.filterMap_cons]
        cases (s.1 i).mixedBlock <;> rfl

/-- The loop over the slots takes one event from each, and mixes the blocks in order. -/
theorem foldl_visitSlot_finRange {μ : Type} (mix : μ → Bytes → μ) (slots : Slots) (m : μ) :
    (List.finRange instanceMax).foldl (visitSlot mix) (slots, m) =
      (fun i => (slots i).popAudio, (mixedBlocks slots).foldl mix m) := by
  rw [foldl_visitSlot mix (List.nodup_finRange _)]
  simp [mixedBlocks]

theorem Instance.length_of_mixedBlock {inst : Instance} {pcm : Bytes}
    (h : inst.mixedBlock = some pcm) : pcm.length = 960 := by
  unfold Instance.mixedBlock at h
  cases hevents : inst.eventsAudio with
  | nil => simp [hevents] at h
  | cons e es =>
      rw [hevents] at h
      obtain ⟨⟨-, -, hlength⟩, heq⟩ := Option.ite_none_right_eq_some.1 h
      obtain rfl := Option.some.inj heq
      exact hlength

theorem length_of_mem_mixedBlocks {slots : Slots} {pcm : Bytes}
    (h : pcm ∈ mixedBlocks slots) : pcm.length = 960 := by
  obtain ⟨i, -, hi⟩ := List.mem_filterMap.1 h
  exact Instance.length_of_mixedBlock hi

/-! ## Sample slots -/

/-- A block whose samples are all the same. -/
def constantBlock (v : ℤ) : Bytes :=
  (List.range 960).map fun n => if n % 2 = 0 then lowByte v else highByte v

@[simp] theorem length_constantBlock (v : ℤ) : (constantBlock v).length = 960 := by
  simp [constantBlock]

theorem shortAt_constantBlock {v : ℤ} (hv : IsInt16 v) {k : ℕ} (hk : k < 480) :
    shortAt (constantBlock v) (2 * k) = v := by
  have hlow : (constantBlock v).getD (2 * k) 0 = lowByte v := by
    rw [constantBlock, List.getD_eq_getElem _ _ (by simp; omega)]
    simp
  have hhigh : (constantBlock v).getD (2 * k + 1) 0 = highByte v := by
    rw [constantBlock, List.getD_eq_getElem _ _ (by simp; omega)]
    simp
  rw [shortAt, hlow, hhigh, int16_bytes hv]

/-- A drawn channel with one pending block. -/
def drawnChannel (pcm : Bytes) : Instance :=
  { Instance.startup with
    instanceEnum := .instance00
    isDraw := 1
    eventsAudio := [⟨.audio, pcm⟩] }

/-- Channels with these pending blocks in the first slots. -/
def drawnChannels (blocks : List Bytes) : Slots := fun i =>
  match blocks[i.val]? with
  | none => Instance.startup
  | some pcm => drawnChannel pcm

theorem mixedBlock_drawnChannel {pcm : Bytes} (h : pcm.length = 960) :
    (drawnChannel pcm).mixedBlock = some pcm := by
  unfold Instance.mixedBlock drawnChannel
  simp [h]

theorem mixedBlock_drawnChannels {blocks : List Bytes} (h : ∀ pcm ∈ blocks, pcm.length = 960)
    (i : Fin instanceMax) : (drawnChannels blocks i).mixedBlock = blocks[i.val]? := by
  unfold drawnChannels
  cases hi : blocks[i.val]? with
  | none => rfl
  | some pcm => exact mixedBlock_drawnChannel (h pcm (List.mem_of_getElem? hi))

theorem filterMap_getElem?_range {α : Type*} (l : List α) (n : ℕ) :
    (List.range n).filterMap (fun k => l[k]?) = l.take n := by
  induction n with
  | zero => rfl
  | succ n ih =>
      rw [List.range_succ, List.filterMap_append, ih, List.take_add_one,
        List.filterMap_cons, List.filterMap_nil]
      cases l[n]? <;> rfl

theorem mixedBlocks_drawnChannels {blocks : List Bytes}
    (h : ∀ pcm ∈ blocks, pcm.length = 960) (hfit : blocks.length ≤ instanceMax) :
    mixedBlocks (drawnChannels blocks) = blocks := by
  have hrange : mixedBlocks (drawnChannels blocks) =
      (List.range instanceMax).filterMap fun k => blocks[k]? := by
    simp only [mixedBlocks, mixedBlock_drawnChannels h]
    rw [← List.map_coe_finRange_eq_range, List.filterMap_map]
    rfl
  rw [hrange, filterMap_getElem?_range, List.take_of_length_le hfit]

end Bres
