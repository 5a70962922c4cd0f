import Bres.Audio.Mix
import Bres.Audio.OnData
import Bres.Pool.Threads
import Bres.Transition.Backlog

/-!
# From the tracks to the mixer

A block goes from `OnData` through the audio queue of its slot to a callback. The two
sides agree through the size of a block alone: `OnData` pushes 960 bytes for each channel
of a track, and the callbacks mix blocks of 960 bytes.

All tracks of a slot share its queue, and a callback takes one block from it. In a run
with one callback for each 10 ms the queue is a queue with one service in each period,
and as many arrivals as the slot has tracks.
-/

namespace Bres

open Memory Transition

/-! ## The size of a block -/

/-- Every drawn slot that has the block at the head of its queue hands it to the mixing
loop of a callback. -/
def Mixable (pcm : Bytes) : Prop :=
  ∀ inst : Instance, inst.instanceEnum ≠ .min → inst.isDraw ≠ 0 →
    inst.eventsAudio.head? = some ⟨.audio, pcm⟩ → inst.mixedBlock = some pcm

theorem mixable_iff {pcm : Bytes} : Mixable pcm ↔ pcm.length = 960 := by
  constructor
  · intro hmixable
    have hmixed := hmixable (drawnChannel pcm) (by simp [drawnChannel])
      (by simp [drawnChannel]) rfl
    exact Instance.length_of_mixedBlock hmixed
  · intro hlength inst henum hdraw hhead
    obtain ⟨es, hevents⟩ := List.head?_eq_some_iff.1 hhead
    simp [Instance.mixedBlock, hevents, henum, hdraw, hlength]

/-- A block of an accepted format is mixed if and only if the track has one channel. -/
theorem onData_mixable_iff {frames : AudioFrames} (h : frames.Accepted) :
    ∃ pcm : Bytes, (∀ inst, onData frames inst = pushEvent inst .audio .audio pcm) ∧
      (Mixable pcm ↔ frames.numberOfChannels = 1) := by
  obtain ⟨pcm, hlength, hpush⟩ := onData_of_accepted h
  refine ⟨pcm, hpush, ?_⟩
  rw [mixable_iff, hlength]
  omega

/-- Ten silent milliseconds at 48 kHz. -/
def silentFrames (channels : ℕ) : AudioFrames where
  audioData := some (List.replicate (480 * 2 * channels) 0)
  bitsPerSample := 16
  sampleRate := 48000
  numberOfChannels := channels
  numberOfFrames := 480
  size_eq data hdata _ := by
    obtain rfl := Option.some.inj hdata
    exact List.length_replicate

theorem accepted_silentFrames {channels : ℕ} (h : 1 ≤ channels) :
    (silentFrames channels).Accepted :=
  ⟨nofun, rfl, h, .inl ⟨rfl, rfl⟩⟩

theorem onData_mixable_mono :
    ∃ pcm : Bytes, (∀ inst, onData (silentFrames 1) inst = pushEvent inst .audio .audio pcm) ∧
      (Mixable pcm ↔ (silentFrames 1).numberOfChannels = 1) :=
  onData_mixable_iff (accepted_silentFrames le_rfl)

/-- A stereo block is twice as long as what the callbacks mix. -/
theorem onData_not_mixable_stereo :
    (silentFrames 2).Accepted ∧
      ∃ pcm : Bytes, (∀ inst, onData (silentFrames 2) inst = pushEvent inst .audio .audio pcm) ∧
        ¬ Mixable pcm := by
  have haccepted : (silentFrames 2).Accepted := accepted_silentFrames one_le_two
  obtain ⟨pcm, hlength, hpush⟩ := onData_of_accepted haccepted
  refine ⟨haccepted, pcm, hpush, fun hmixable => ?_⟩
  have hsize : pcm.length = 1920 := hlength
  rw [mixable_iff.1 hmixable] at hsize
  norm_num at hsize

/-! ## The steps of the threads -/

/-- A call of `OnData` with an accepted format is a step of the slot. -/
theorem threadStep_onData {parse : Bytes → Option Json} {s : Slot} {frames : AudioFrames}
    (h : frames.Accepted) (hlive : s.inst.rtc.peerConnectionFactory = .live) :
    ∃ pcm, threadStep parse s (.onData pcm) = some ⟨onData frames s.inst, s.hands⟩ := by
  obtain ⟨pcm, -, hpush⟩ := onData_of_accepted h
  exact ⟨pcm, by rw [threadStep, if_pos hlive, hpush]⟩

/-- What a callback does to an occupied slot is the step of the slot that takes a block. -/
theorem threadStep_audio {parse : Bytes → Option Json} {s : Slot}
    (hoccupied : s.inst.instanceEnum ≠ .min) :
    threadStep parse s .audio = some ⟨s.inst.popAudio, s.hands⟩ := by
  rw [threadStep, if_pos hoccupied, Instance.popAudio, if_pos hoccupied, popEvent,
    Instance.events]
  cases hevents : s.inst.eventsAudio with
  | nil =>
      have hsame : { s.inst with eventsAudio := [] } = s.inst := by rw [← hevents]
      rw [List.tail_nil, hsame]
  | cons e es => rfl

/-! ## The run of a slot -/

/-- A call of `OnData` for a track of slot `i`, or of `audioCallback`. -/
inductive AudioAction where
  | onData (i : Fin instanceMax) (track : ℕ) (frames : AudioFrames)
  | callback (publish : Instance) (data : ℕ → UInt8) (len : ℕ)

structure AudioState where
  slots : Slots
  buffer10ms : List ℤ

namespace AudioState

def step (s : AudioState) : AudioAction → AudioState
  | .onData i _ frames =>
      { s with slots := Function.update s.slots i (onData frames (s.slots i)) }
  | .callback publish data len =>
      let e := audioCallback s.slots publish s.buffer10ms data len
      ⟨e.slots, e.buffer10ms⟩

def run (s : AudioState) (l : List AudioAction) : AudioState := l.foldl step s

/-- The length of the audio queue of slot `i`. -/
def queued (s : AudioState) (i : Fin instanceMax) : ℕ := (s.slots i).eventsAudio.length

/-- The queue of slot `i` holds at most `B` blocks at every moment of the run. -/
def QueueWithin (s : AudioState) (i : Fin instanceMax) (B : ℕ) (l : List AudioAction) : Prop :=
  ∀ l', l' <+: l → (s.run l').queued i ≤ B

end AudioState

namespace AudioAction

variable {i : Fin instanceMax} {publish : Instance} {data : ℕ → UInt8} {len : ℕ}

def IsCallback : AudioAction → Bool
  | .onData _ _ _ => false
  | .callback _ _ _ => true

/-- The track of slot `i` that the action brings a block from. -/
def trackOf (i : Fin instanceMax) : AudioAction → Option ℕ
  | .onData j track _ => if j = i then some track else none
  | .callback _ _ _ => none

/-- What the action is to the queue of slot `i`. -/
def traffic (i : Fin instanceMax) : AudioAction → Option Traffic
  | .onData j _ _ => if j = i then some .arrival else none
  | .callback _ _ _ => some .service

theorem trackOf_callback : (callback publish data len).trackOf i = none := rfl

theorem traffic_callback : (callback publish data len).traffic i = some .service := rfl

theorem isCallback_callback : (callback publish data len).IsCallback = true := rfl

end AudioAction

/-- Ten milliseconds: one block of an accepted format from each of the `k` tracks of slot
`i`, and one callback, in any order and among the blocks of other slots. -/
structure TrackPeriod (i : Fin instanceMax) (k : ℕ) (l : List AudioAction) : Prop where
  accepted : ∀ track frames, .onData i track frames ∈ l → frames.Accepted
  tracks : (l.filterMap (AudioAction.trackOf i)).Perm (List.range k)
  callback : l.countP AudioAction.IsCallback = 1

/-- The callback of the period comes in front of the blocks of slot `i`. -/
def CallbackFirst (i : Fin instanceMax) (l : List AudioAction) : Prop :=
  ServiceFirst (l.filterMap (AudioAction.traffic i))

/-! ### The queue as a queue -/

section Queue

variable {i : Fin instanceMax} {s : AudioState}

theorem popAudio_length (inst : Instance) (h : inst.instanceEnum ≠ .min) :
    inst.popAudio.eventsAudio.length = inst.eventsAudio.length - 1 := by
  rw [Instance.popAudio, if_pos h, List.length_tail]

theorem popAudio_instanceEnum (inst : Instance) :
    inst.popAudio.instanceEnum = inst.instanceEnum := by
  unfold Instance.popAudio
  split <;> rfl

/-- A step keeps the slot occupied, and moves the length of its queue. -/
theorem AudioState.step_spec (hoccupied : (s.slots i).instanceEnum ≠ .min) {a : AudioAction}
    (haccepted : ∀ track frames, a = .onData i track frames → frames.Accepted) :
    ((s.step a).slots i).instanceEnum ≠ .min ∧
      (s.step a).queued i = backlog (s.queued i) (a.traffic i).toList := by
  cases a with
  | onData j track frames =>
      by_cases hj : j = i
      · subst hj
        obtain ⟨pcm, -, hpush⟩ := onData_of_accepted (haccepted track frames rfl)
        simp only [step, hpush, Function.update_self, queued, AudioAction.traffic]
        refine ⟨hoccupied, ?_⟩
        simp [pushEvent, Instance.setEvents, Instance.events, Traffic.apply]
      · have hkeep : (s.step (.onData j track frames)).slots i = s.slots i :=
          Function.update_of_ne (Ne.symm hj) ..
        simp only [queued, hkeep, AudioAction.traffic, if_neg hj, Option.toList_none,
          backlog_nil, and_true]
        exact hoccupied
  | callback publish data len =>
      simp only [step, queued, audioCallback_slots, AudioAction.traffic, popAudio_instanceEnum]
      exact ⟨hoccupied, popAudio_length _ hoccupied⟩

/-- Behind a run the queue is as long as the backlog of its traffic. -/
theorem AudioState.queued_run {l : List AudioAction}
    (hoccupied : (s.slots i).instanceEnum ≠ .min)
    (haccepted : ∀ track frames, .onData i track frames ∈ l → frames.Accepted) :
    (s.run l).queued i = backlog (s.queued i) (l.filterMap (AudioAction.traffic i)) := by
  induction l generalizing s with
  | nil => rfl
  | cons a l ih =>
      have hfirst : ∀ track frames, a = .onData i track frames → frames.Accepted := by
        rintro track frames rfl
        exact haccepted track frames (List.mem_cons_self ..)
      obtain ⟨hstay, hstep⟩ := step_spec hoccupied hfirst
      have hrest : ((s.step a).run l).queued i =
          backlog ((s.step a).queued i) (l.filterMap (AudioAction.traffic i)) :=
        ih hstay fun track frames hmem => haccepted track frames (List.mem_cons_of_mem _ hmem)
      rw [run, List.foldl_cons, ← run, hrest, hstep, ← backlog_append, List.filterMap_cons]
      cases a.traffic i <;> rfl

theorem AudioState.queueWithin_iff {l : List AudioAction} {B : ℕ}
    (hoccupied : (s.slots i).instanceEnum ≠ .min)
    (haccepted : ∀ track frames, .onData i track frames ∈ l → frames.Accepted) :
    s.QueueWithin i B l ↔
      Within B (s.queued i) (l.filterMap (AudioAction.traffic i)) := by
  have hrun : ∀ l', l' <+: l → (s.run l').queued i =
      backlog (s.queued i) (l'.filterMap (AudioAction.traffic i)) := fun l' hl' =>
    queued_run hoccupied fun track frames hmem => haccepted track frames (hl'.subset hmem)
  constructor
  · rintro hqueue p ⟨q, hq⟩
    obtain ⟨l', l'', rfl, rfl, -⟩ := List.filterMap_eq_append_iff.1 hq.symm
    rw [← hrun l' (List.prefix_append ..)]
    exact hqueue l' (List.prefix_append ..)
  · intro hwithin l' hl'
    rw [hrun l' hl']
    exact hwithin _ (hl'.filterMap _)

theorem count_arrival_traffic (l : List AudioAction) :
    (l.filterMap (AudioAction.traffic i)).count .arrival =
      (l.filterMap (AudioAction.trackOf i)).length := by
  induction l with
  | nil => rfl
  | cons a l ih =>
      cases a with
      | onData j track frames =>
          by_cases hj : j = i
          · simp [AudioAction.traffic, AudioAction.trackOf, hj, ih]
          · simp [AudioAction.traffic, AudioAction.trackOf, hj, ih]
      | callback publish data len =>
          rw [List.filterMap_cons_some AudioAction.traffic_callback,
            List.filterMap_cons_none AudioAction.trackOf_callback,
            List.count_cons_of_ne (by decide), ih]

theorem count_service_traffic (l : List AudioAction) :
    (l.filterMap (AudioAction.traffic i)).count .service =
      l.countP AudioAction.IsCallback := by
  induction l with
  | nil => rfl
  | cons a l ih =>
      cases a with
      | onData j track frames =>
          by_cases hj : j = i
          · simp [AudioAction.traffic, AudioAction.IsCallback, hj, ih]
          · simp [AudioAction.traffic, AudioAction.IsCallback, hj, ih]
      | callback publish data len =>
          rw [List.filterMap_cons_some AudioAction.traffic_callback, List.count_cons_self, ih,
            List.countP_cons_of_pos AudioAction.isCallback_callback]

theorem TrackPeriod.period {k : ℕ} {l : List AudioAction} (h : TrackPeriod i k l) :
    Period k (l.filterMap (AudioAction.traffic i)) := by
  refine ⟨?_, (count_service_traffic l).trans h.callback⟩
  rw [count_arrival_traffic, h.tracks.length_eq, List.length_range]

end Queue

/-- The order in which the queue of a slot with one track stays within one block. -/
def CallbackKeepsPlace (i : Fin instanceMax) (periods : List (List AudioAction)) : Prop :=
  periods.Pairwise fun p p' => CallbackFirst i p → CallbackFirst i p'

/-- The queue of an occupied slot that begins empty is bounded by the number `k` of its
tracks if there is no track, or one and the callback keeps its place once it comes first.
Runs of less than three periods aside, it is bounded in no other run: with more than one
track the queue grows from period to period. With at most one it never holds more than
two blocks. -/
theorem audio_queue_bounded_iff {i : Fin instanceMax} {k : ℕ} {s : AudioState}
    {periods : List (List AudioAction)} (hoccupied : (s.slots i).instanceEnum ≠ .min)
    (hempty : (s.slots i).eventsAudio = []) (h : ∀ p ∈ periods, TrackPeriod i k p) :
    (k = 0 ∨ k = 1 ∧ CallbackKeepsPlace i periods → s.QueueWithin i k periods.flatten) ∧
      (3 ≤ periods.length → (s.QueueWithin i k periods.flatten ↔
        k = 0 ∨ k = 1 ∧ CallbackKeepsPlace i periods)) ∧
      (k ≤ 1 → s.QueueWithin i 2 periods.flatten) ∧
      periods.length * k ≤ (s.run periods.flatten).queued i + periods.length := by
  have haccepted : ∀ track frames, .onData i track frames ∈ periods.flatten →
      frames.Accepted := by
    intro track frames hmem
    obtain ⟨p, hp, hmem⟩ := List.mem_flatten.1 hmem
    exact (h p hp).accepted track frames hmem
  have hstart : s.queued i = 0 := by rw [AudioState.queued, hempty, List.length_nil]
  have htraffic : periods.flatten.filterMap (AudioAction.traffic i) =
      (periods.map (List.filterMap (AudioAction.traffic i))).flatten :=
    List.filterMap_flatten
  have hperiods : ∀ p ∈ periods.map (List.filterMap (AudioAction.traffic i)),
      Period k p := by
    intro p hp
    obtain ⟨l, hl, rfl⟩ := List.mem_map.1 hp
    exact (h l hl).period
  have hwithin : ∀ B, s.QueueWithin i B periods.flatten ↔
      Within B 0 (periods.map (List.filterMap (AudioAction.traffic i))).flatten := fun B => by
    rw [AudioState.queueWithin_iff hoccupied haccepted, hstart, htraffic]
  have horder : (periods.map (List.filterMap (AudioAction.traffic i))).Pairwise
      (fun p p' => ServiceFirst p → ServiceFirst p') ↔ CallbackKeepsPlace i periods :=
    List.pairwise_map
  rw [hwithin, hwithin, AudioState.queued_run hoccupied haccepted, hstart, htraffic, ← horder]
  refine ⟨within_periods hperiods, fun hlength => within_periods_iff hperiods ?_,
    fun hk => ?_, ?_⟩
  · rwa [List.length_map]
  · obtain rfl | rfl : k = 0 ∨ k = 1 := by omega
    · exact fun l hl => (within_of_no_arrival hperiods l hl).trans (Nat.zero_le 2)
    · exact within_two_of_one hperiods (Nat.zero_le 1)
  · have hgrowth := length_mul_le_backlog hperiods 0
    rwa [List.length_map, Nat.zero_add] at hgrowth

/-! ### Runs with a channel in the first slot -/

/-- A drawn channel in every slot, with nothing in its queues. -/
def idleState : AudioState :=
  ⟨fun _ => { Instance.startup with instanceEnum := .instance00, isDraw := 1 }, []⟩

/-- Ten milliseconds of `k` tracks of the first slot, with the callback at the end. -/
def tracksThenCallback (k : ℕ) : List AudioAction :=
  (List.range k).map (fun track => .onData 0 track (silentFrames 1)) ++
    [.callback Instance.startup (fun _ => 0) 960]

theorem trackPeriod_tracksThenCallback (k : ℕ) : TrackPeriod 0 k (tracksThenCallback k) where
  accepted track frames hmem := by
    simp only [tracksThenCallback, List.mem_append, List.mem_map, List.mem_singleton,
      reduceCtorEq, or_false, AudioAction.onData.injEq] at hmem
    obtain ⟨_, _, -, -, rfl⟩ := hmem
    exact accepted_silentFrames le_rfl
  tracks := by
    rw [tracksThenCallback, List.filterMap_append, List.filterMap_map,
      List.filterMap_cons_none AudioAction.trackOf_callback, List.filterMap_nil,
      List.append_nil]
    exact .of_eq (List.filterMap_some ..)
  callback := by
    have hnone : ((List.range k).map fun track =>
        AudioAction.onData 0 track (silentFrames 1)).countP AudioAction.IsCallback = 0 := by
      simp [List.countP_eq_zero, AudioAction.IsCallback]
    rw [tracksThenCallback, List.countP_append, hnone,
      List.countP_cons_of_pos AudioAction.isCallback_callback, List.countP_nil]

theorem audio_queue_bounded_one_track :
    idleState.QueueWithin 0 1 (List.replicate 3 (tracksThenCallback 1)).flatten := by
  have hkeeps : CallbackKeepsPlace 0 (List.replicate 3 (tracksThenCallback 1)) := by
    refine List.pairwise_of_forall_mem_list fun p hp p' hp' hfirst => ?_
    rw [List.eq_of_mem_replicate hp', ← List.eq_of_mem_replicate hp]
    exact hfirst
  exact (audio_queue_bounded_iff (by decide) rfl fun p hp =>
    List.eq_of_mem_replicate hp ▸ trackPeriod_tracksThenCallback 1).1 (.inr ⟨rfl, hkeeps⟩)

/-- With two tracks, three periods are enough to leave the bound. -/
theorem not_queueWithin_two_tracks :
    (∀ p ∈ List.replicate 3 (tracksThenCallback 2), TrackPeriod 0 2 p) ∧
      ¬ idleState.QueueWithin 0 2 (List.replicate 3 (tracksThenCallback 2)).flatten := by
  have hperiod : ∀ p ∈ List.replicate 3 (tracksThenCallback 2), TrackPeriod 0 2 p :=
    fun p hp => List.eq_of_mem_replicate hp ▸ trackPeriod_tracksThenCallback 2
  refine ⟨hperiod, fun hqueue => ?_⟩
  have haccepted : ∀ track frames, .onData 0 track frames ∈
      (List.replicate 3 (tracksThenCallback 2)).flatten → frames.Accepted := by
    intro track frames hmem
    obtain ⟨p, hp, hmem⟩ := List.mem_flatten.1 hmem
    exact (hperiod p hp).accepted track frames hmem
  rw [AudioState.queueWithin_iff (by decide) haccepted, List.filterMap_flatten] at hqueue
  refine not_within_of_two_le (fun p hp => ?_) le_rfl ?_ hqueue
  · obtain ⟨l, hl, rfl⟩ := List.mem_map.1 hp
    exact (hperiod l hl).period
  · rw [List.length_map, List.length_replicate]

end Bres
