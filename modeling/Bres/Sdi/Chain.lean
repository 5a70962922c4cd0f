import Bres.Sdi.Device
import Bres.Transition.Merge

/-!
# From the render thread to the device

`main` of `src/main.cc` hands each picture that it has drawn to
`bm_add_pipeline_frame`, `bm_pipeline_service` passes it on to the output of the
device, and the output schedules it when DeckLink completes a frame. `Broadcast`
puts the pipeline and the output together: the call of `Device::setFrame` is one
step of both. The pictures that the output refused are logged; no step reads the
log.

`Chained` is the invariant. What the output has accepted and what it has refused
are a merge of what was passed on, so the invariants of the two halves add up to
one about the whole way of a picture.
-/

namespace Bres

open Transition

/-- The picture that the service thread has in its hand and has not passed on. -/
def Pipeline.handed? (p : Pipeline) : Option Bytes :=
  match p.consumer with
  | some (a, false) => p.buffers[a]?
  | _ => none

/-- A device with one output passes each picture on to it. -/
theorem Device.setFrame_single (o : Output) (cnt : ℕ) (frame : Bytes) (n w h : ℕ) :
    (⟨[o], cnt⟩ : Device).setFrame 0 frame n w h =
      (o.setFrame frame n w h).map fun r => ⟨[r.2], cnt⟩ := by
  cases hset : o.setFrame frame n w h with
  | error e => simp [Device.setFrame, hset, Except.map, bind, Except.bind]
  | ok r => simp [Device.setFrame, hset, Except.map, bind, Except.bind, pure, Except.pure]

/-- The pipeline, the output at its end and the pictures that it refused. -/
structure Broadcast where
  pipeline : Pipeline := {}
  playout : Playout
  refused : List Bytes := []

inductive BroadcastAction where
  | pipeline (a : PipelineAction)
  | scheduledFrameCompleted (k : ℕ) (result : CompletionResult) (granted : Bool)

namespace Broadcast

/-- A step of the render thread, of the service thread or of DeckLink. -/
def step (s : Broadcast) : BroadcastAction → Option Broadcast
  | .pipeline .serviceSetFrame => do
      let pframe ← s.pipeline.handed?
      let pipeline ← s.pipeline.step .serviceSetFrame
      let playout ← s.playout.step (.setFrame pframe fhdBytes wndWidthFhd wndHeightFhd)
      let refused :=
        if s.playout.output.completedFrames = [] then s.refused ++ [pframe] else s.refused
      return ⟨pipeline, playout, refused⟩
  | .pipeline a => (s.pipeline.step a).map fun pipeline => { s with pipeline := pipeline }
  | .scheduledFrameCompleted k result granted =>
      (s.playout.step (.scheduledFrameCompleted k result granted)).map fun playout =>
        { s with playout := playout }

/-- The device has its output, and neither thread has done anything yet. -/
def start (link : Link) (mode : DisplayMode) : Broadcast := { playout := .start link mode }

end Broadcast

/-- What a step of the whole way can do. -/
inductive BroadcastStep (s : Broadcast) : Broadcast → Prop where
  | moved {a : PipelineAction} {pipeline : Pipeline} (hstep : s.pipeline.step a = some pipeline)
      (hpassed : pipeline.passed = s.pipeline.passed) :
      BroadcastStep s { s with pipeline := pipeline }
  | refused {pframe : Bytes} {pipeline : Pipeline}
      (hstep : s.pipeline.step .serviceSetFrame = some pipeline)
      (hpassed : pipeline.passed = s.pipeline.passed ++ [pframe]) :
      BroadcastStep s { s with pipeline := pipeline, refused := s.refused ++ [pframe] }
  | accepted {pframe : Bytes} {pipeline : Pipeline} {playout : Playout}
      (hstep : s.pipeline.step .serviceSetFrame = some pipeline)
      (hpassed : pipeline.passed = s.pipeline.passed ++ [pframe])
      (hset : s.playout.step (.setFrame pframe fhdBytes wndWidthFhd wndHeightFhd) = some playout)
      (hlength : fhdBytes ≤ pframe.length)
      (hevents : playout.events = s.playout.events ++ [.push pframe]) :
      BroadcastStep s { s with pipeline := pipeline, playout := playout }
  | completed {k : ℕ} {result : CompletionResult} {granted : Bool} {playout : Playout}
      (hstep : s.playout.step (.scheduledFrameCompleted k result granted) = some playout)
      (hevents : playout.events = s.playout.events ++ [.pull]) :
      BroadcastStep s { s with playout := playout }

namespace Pipeline

variable {p q : Pipeline} {pframe : Bytes}

theorem step_serviceSetFrame (h : p.handed? = some pframe) :
    ∃ q, p.step .serviceSetFrame = some q ∧ q.passed = p.passed ++ [pframe.take fhdBytes] := by
  unfold handed? at h
  split at h
  · rename_i a hconsumer
    refine ⟨{ p with consumer := some (a, true), passed := _ }, ?_, rfl⟩
    simp only [step, hconsumer, h, Option.map_some]
  · cases h

/-- Only the call of `Device::setFrame` adds to what has been passed on. -/
theorem step_passed {a : PipelineAction} (ha : a ≠ .serviceSetFrame) (h : p.step a = some q) :
    q.passed = p.passed := by
  cases step_spec h with
  | passed => exact absurd rfl ha
  | started => rfl
  | idle => rfl
  | taken => rfl
  | returned => rfl
  | dropped => rfl
  | obtained => rfl
  | copied => rfl
  | queued => rfl

/-- The picture in the hand of the service thread fills the window. -/
theorem Lined.handed_length (hp : p.Lined) (h : p.handed? = some pframe) :
    pframe.length = fhdBytes := by
  unfold handed? at h
  split at h
  · exact hp.buffers_size pframe (List.mem_of_getElem? h)
  · cases h

/-- No more pictures are under way than there are buffers. -/
theorem Lined.exists_inside (hp : p.Lined) :
    ∃ inside : List Bytes, p.obtained = p.passed ++ inside ∧ inside.length ≤ 32 := by
  have heq := hp.obtained_eq
  rw [List.append_assoc] at heq
  obtain ⟨l, inside, hobtained, hpassed, hinside⟩ := List.map_eq_append_iff.1 heq
  obtain rfl : l = p.passed := List.map_injective_iff.2 (Option.some_injective _) hpassed
  refine ⟨inside, hobtained, ?_⟩
  have hlength := congrArg List.length hinside
  have hsum := hp.custody.sum_length
  have hbuffers : p.buffers.length ≤ 32 := by
    rw [hp.buffers_length]
    split <;> omega
  have hwaiting : p.waiting.length ≤
      (p.consumer.map Prod.fst).toList.length + p.pipelineEgress.length := by
    unfold waiting
    split
    · rename_i a hconsumer
      rw [hconsumer, List.length_append]
      exact le_rfl
    · simp
  simp only [places, List.map_cons, List.map_nil, List.sum_cons, List.sum_nil,
    List.length_range, Option.length_toList, Option.isSome_map] at hsum
  simp only [List.length_map, List.length_append, Option.length_toList,
    Option.isSome_map] at hlength hwaiting
  omega

end Pipeline

namespace Playout

variable {p q : Playout} {frame : Bytes} {n w h : ℕ}

/-- The output takes a picture where a frame is completed. -/
theorem step_setFrame (hset : p.step (.setFrame frame n w h) = some q) :
    (p.output.completedFrames = [] ∧ q = p) ∨
      (p.output.completedFrames ≠ [] ∧ q.events = p.events ++ [.push (frame.take n)]) := by
  cases step_spec hset with
  | refused hcompleted => exact .inl ⟨hcompleted, rfl⟩
  | accepted hcompleted => exact .inr ⟨by simp [hcompleted], rfl⟩

/-- The service thread calls `Device::setFrame` for the step. -/
theorem setFrame_of_step (hset : p.step (.setFrame frame n w h) = some q) (cnt : ℕ) :
    (⟨[p.output], cnt⟩ : Device).setFrame 0 frame n w h = .ok ⟨[q.output], cnt⟩ := by
  rw [Device.setFrame_single]
  cases hcode : p.output.setFrame frame n w h with
  | error e => simp [step, hcode] at hset
  | ok r =>
      obtain ⟨code, o⟩ := r
      have houtput : q.output = o := by
        cases code <;> simp only [step, hcode, Option.some.injEq] at hset <;> rw [← hset]
      rw [houtput]
      rfl

theorem step_completed {k : ℕ} {result : CompletionResult} {granted : Bool}
    (hstep : p.step (.scheduledFrameCompleted k result granted) = some q) :
    q.events = p.events ++ [.pull] := by
  cases step_spec hstep with
  | completed => rfl

end Playout

namespace Broadcast

variable {s t : Broadcast} {a : BroadcastAction} {mode : DisplayMode}

theorem step_pipeline (s : Broadcast) {a : PipelineAction} (ha : a ≠ .serviceSetFrame) :
    s.step (.pipeline a) =
      (s.pipeline.step a).map fun pipeline => { s with pipeline := pipeline } := by
  cases a with
  | serviceSetFrame => exact absurd rfl ha
  | _ => rfl

/-- A picture that the service thread passes on is there whole, so what the output takes of
it is the picture. -/
theorem step_spec (hlined : s.pipeline.Lined) (h : s.step a = some t) : BroadcastStep s t := by
  cases a with
  | scheduledFrameCompleted k result granted =>
      obtain ⟨playout, hplayout, rfl⟩ := Option.map_eq_some_iff.1 h
      exact .completed hplayout (Playout.step_completed hplayout)
  | pipeline a =>
      by_cases ha : a = .serviceSetFrame
      · subst ha
        obtain ⟨pframe, hframe, h⟩ := Option.bind_eq_some_iff.1 h
        obtain ⟨pipeline, hpipeline, h⟩ := Option.bind_eq_some_iff.1 h
        obtain ⟨playout, hplayout, h⟩ := Option.bind_eq_some_iff.1 h
        obtain rfl := Option.some.inj h
        have hlength := hlined.handed_length hframe
        have hwhole : pframe.take fhdBytes = pframe := List.take_of_length_le hlength.le
        obtain ⟨_, hpipeline', hpassed⟩ := Pipeline.step_serviceSetFrame hframe
        obtain rfl := Option.some.inj (hpipeline.symm.trans hpipeline')
        rw [hwhole] at hpassed
        obtain ⟨hcompleted, rfl⟩ | ⟨hcompleted, hevents⟩ := Playout.step_setFrame hplayout
        · rw [if_pos hcompleted]
          exact .refused hpipeline hpassed
        · rw [if_neg hcompleted]
          rw [hwhole] at hevents
          exact .accepted hpipeline hpassed hplayout hlength.ge hevents
      · rw [step_pipeline s ha] at h
        obtain ⟨pipeline, hpipeline, rfl⟩ := Option.map_eq_some_iff.1 h
        exact .moved hpipeline (Pipeline.step_passed ha hpipeline)

/-- What has been passed on by whether the output took it. -/
def passedOn (s : Broadcast) (accepted : Bool) : List Bytes :=
  if accepted then Feed.pushes s.playout.events else s.refused

/-- The two halves keep their invariants, and every picture that has been passed on was
accepted or refused. -/
structure Chained (mode : DisplayMode) (s : Broadcast) : Prop where
  lined : s.pipeline.Lined
  fed : s.playout.Fed mode
  inStock : s.playout.InStock mode
  merge : Merge s.passedOn s.pipeline.passed

theorem start_chained (link : Link) (mode : DisplayMode) : (start link mode).Chained mode where
  lined := Pipeline.start_lined
  fed := Playout.start_fed link mode
  inStock := Playout.start_inStock link mode
  merge := by
    have hnone : (start link mode).passedOn = fun _ => [] := funext fun accepted => by
      cases accepted <;> rfl
    rw [hnone]
    exact .nil

/-- A picture of the window fills the frames of the device. -/
theorem isFull_window (hmode : mode.size = fhdBytes) {pframe : Bytes}
    (hlength : fhdBytes ≤ pframe.length) :
    OutputAction.IsFull mode (.setFrame pframe fhdBytes wndWidthFhd wndHeightFhd) :=
  ⟨hlength, hmode.symm, rfl⟩

/-- A picture that is passed on joins one of the two parts. -/
theorem merge_passedOn (accepted : Bool) {pframe : Bytes}
    (hmerge : Merge s.passedOn s.pipeline.passed)
    (hpassed : t.pipeline.passed = s.pipeline.passed ++ [pframe])
    (hpart : t.passedOn accepted = s.passedOn accepted ++ [pframe])
    (hother : t.passedOn (!accepted) = s.passedOn (!accepted)) :
    Merge t.passedOn t.pipeline.passed := by
  have hparts : t.passedOn =
      Function.update s.passedOn accepted (s.passedOn accepted ++ [pframe]) := by
    funext other
    by_cases hsame : other = accepted
    · rw [hsame, Function.update_self, hpart]
    · rw [Function.update_of_ne hsame]
      rwa [Bool.eq_not_of_ne hsame]
  rw [hparts, hpassed]
  exact hmerge.snoc accepted pframe

theorem Chained.step (hmode : mode.size = fhdBytes) (hs : s.Chained mode)
    (h : s.step a = some t) : t.Chained mode := by
  cases step_spec hs.lined h with
  | moved hstep hpassed =>
      exact ⟨hs.lined.step (Pipeline.step_spec hstep), hs.fed, hs.inStock, by
        rw [hpassed]
        exact hs.merge⟩
  | @refused pframe pipeline hstep hpassed =>
      exact ⟨hs.lined.step (Pipeline.step_spec hstep), hs.fed, hs.inStock,
        merge_passedOn false hs.merge hpassed rfl rfl⟩
  | @accepted pframe pipeline playout hstep hpassed hset hlength hevents =>
      have hpushes : Feed.pushes playout.events = Feed.pushes s.playout.events ++ [pframe] := by
        rw [hevents, Feed.pushes_append]
        rfl
      exact ⟨hs.lined.step (Pipeline.step_spec hstep),
        hs.fed.step (isFull_window hmode hlength) hset, hs.inStock.step hset,
        merge_passedOn true hs.merge hpassed hpushes rfl⟩
  | @completed k result granted playout hstep hevents =>
      have hfull : OutputAction.IsFull mode (.scheduledFrameCompleted k result granted) := trivial
      refine ⟨hs.lined, hs.fed.step hfull hstep, hs.inStock.step hstep, ?_⟩
      have hpushes : Feed.pushes playout.events = Feed.pushes s.playout.events := by
        rw [hevents, Feed.pushes_append]
        exact List.append_nil _
      have hsame : passedOn { s with playout := playout } = s.passedOn := funext fun accepted => by
        cases accepted with
        | false => rfl
        | true => exact hpushes
      rw [hsame]
      exact hs.merge

/-- The call of `Device::setFrame` goes through. -/
theorem Chained.exists_setFrame (hmode : mode.size = fhdBytes) (hs : s.Chained mode)
    {pframe : Bytes} (hframe : s.pipeline.handed? = some pframe) :
    ∃ t, s.step (.pipeline .serviceSetFrame) = some t ∧
      (⟨[s.playout.output], 1⟩ : Device).setFrame 0 pframe fhdBytes wndWidthFhd wndHeightFhd =
        .ok ⟨[t.playout.output], 1⟩ := by
  obtain ⟨pipeline, hpipeline, -⟩ := Pipeline.step_serviceSetFrame hframe
  have hlength := hs.lined.handed_length hframe
  obtain ⟨playout, hplayout⟩ := hs.fed.exists_step (isFull_window hmode hlength.ge) trivial
  obtain ⟨t, ht, htplayout⟩ : ∃ t, s.step (.pipeline .serviceSetFrame) = some t ∧
      t.playout = playout := by
    simp [Broadcast.step, hframe, hpipeline, hplayout]
  rw [← htplayout] at hplayout
  exact ⟨t, ht, Playout.setFrame_of_step hplayout 1⟩

/-- The copy into a buffer of the pipeline goes through. -/
theorem Chained.exists_addCopy (hs : s.Chained mode) {b : Addr} {frame : Bytes}
    (hproducer : s.pipeline.producer = some ⟨b, frame, fhdBytes, false⟩)
    (hframe : fhdBytes ≤ frame.length) : ∃ t, s.step (.pipeline .addCopy) = some t := by
  obtain ⟨hlt, -⟩ := hs.lined.ne_of_producer hproducer
  have hpframe := List.getElem?_eq_getElem hlt
  have hcopy := Pipeline.step_addCopy hproducer hpframe
    (hs.lined.buffers_size _ (List.mem_of_getElem? hpframe)) hframe
  exact ⟨_, by rw [step_pipeline s (by nofun), hcopy]; rfl⟩

/-- The mode that the program asks for. -/
def hd1080 : DisplayMode :=
  { DisplayMode.pixel with width := wndWidthFhd, height := wndHeightFhd, size_lt := by decide }

/-- A picture that the render thread has drawn, up to the completion that shows it. -/
def oneFrame : List BroadcastAction :=
  [.pipeline .serviceStart, .pipeline (.addPop (List.replicate fhdBytes 1) fhdBytes),
    .pipeline .addCopy, .pipeline .addPush, .pipeline .servicePop, .pipeline .serviceSetFrame,
    .scheduledFrameCompleted 0 .completed true]

end Broadcast

end Bres
