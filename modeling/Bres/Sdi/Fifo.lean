import Bres.Sdi.Stock

/-!
# Accepted pictures are scheduled in order

`Fed` relates an output to the abstract queue of its run. It needs every
`setFrame` call to bring a picture of the full size: a shorter one would leave
old pixels in the frame, and the size that the next completion copies is taken
from the last call.
-/

namespace Bres

open Transition

/-- The call brings a picture that fills the frame. -/
def OutputAction.IsFull (mode : DisplayMode) : OutputAction → Prop
  | .setFrame frame framelen width height =>
      framelen ≤ frame.length ∧ framelen = mode.size ∧
        width * height * 4 % unsignedRange = framelen
  | .scheduledFrameCompleted .. => True

/-- The ten frames are in one place each, where `hand` lists those that
`ScheduledFrameCompleted` works on; all pictures have the full size, and the
frames on the device keep the pixels that they were scheduled with. -/
structure Output.Stocked (mode : DisplayMode) (hand : List FrameId) (o : Output) :
    Prop where
  custody : InCustody (hand :: o.places) (List.range 10)
  frames_length : o.linkOutput.frames.length = 10
  frames_size : ∀ pixels ∈ o.linkOutput.frames, pixels.length = mode.size
  last_size : o.lastFrame.length = mode.size
  copySize_eq : o.copySize = mode.size
  held_pixels : ∀ call ∈ o.linkOutput.held,
    o.linkOutput.frames[call.frame]? = some call.pixels

/-- The output queue and `_lastFrame` are the state of the abstract queue. -/
structure Output.Shows (o : Output) (feed : Feed Bytes) : Prop where
  waiting_eq : feed.waiting.map some =
    o.outputFrames.map fun f => o.linkOutput.frames[f]?
  last_eq : feed.last = o.lastFrame

namespace Output

variable {mode : DisplayMode} {o o' : Output} {hand : List FrameId} {feed : Feed Bytes}

theorem Stocked.getElem?_frames (ho : o.Stocked mode hand) {f : FrameId} {pixels : Bytes}
    (h : o.linkOutput.frames[f]? = some pixels) :
    f < o.linkOutput.frames.length ∧ pixels.length = mode.size := by
  obtain ⟨hlt, heq⟩ := List.getElem?_eq_some_iff.1 h
  exact ⟨hlt, ho.frames_size pixels (heq ▸ List.getElem_mem hlt)⟩

/-- A frame of the output can be filled with a picture of the full size. -/
theorem Stocked.exists_fill (ho : o.Stocked mode hand) (place : List FrameId) {f : FrameId}
    (hplace : place ∈ hand :: o.places) (hf : f ∈ place) {src : Bytes} {n : ℕ}
    (hn : n = mode.size) (hsrc : n ≤ src.length) :
    ∃ l, o.linkOutput.fill f src n = .ok l := by
  obtain ⟨-, old, hold, hsize⟩ := exists_frame ho.custody ho.frames_length ho.frames_size f
    (List.mem_flatten.2 ⟨place, hplace, hf⟩)
  exact ⟨_, LinkOutput.fill_eq_ok_iff.2
    ⟨_, _, hold, memcpy_full (hsize.trans hn.symm) hsrc, rfl⟩⟩

/-- Filling a frame with a picture of the full size. -/
theorem Stocked.fill (ho : o.Stocked mode hand) {f : FrameId} {src : Bytes} {n : ℕ}
    {l : LinkOutput} (hn : n = mode.size) (hfill : o.linkOutput.fill f src n = .ok l) :
    l = { o.linkOutput with frames := o.linkOutput.frames.set f (src.take n) } ∧
      l.frames[f]? = some (src.take n) ∧ l.frames.length = 10 ∧
      ∀ b ∈ l.frames, b.length = mode.size := by
  obtain ⟨hlength, hsizes, -⟩ := LinkOutput.fill_sizes ho.frames_size hfill
  obtain ⟨old, pixels, hold, hcopy, rfl⟩ := LinkOutput.fill_eq_ok_iff.1 hfill
  obtain ⟨-, hlen, -⟩ := memcpy_eq_ok_iff.1 hcopy
  obtain ⟨hlt, hsize⟩ := ho.getElem?_frames hold
  obtain rfl : src.take n = pixels := by
    simpa [memcpy_full (hsize.trans hn.symm) hlen] using hcopy
  exact ⟨rfl, List.getElem?_set_self hlt, hlength.trans ho.frames_length, hsizes⟩

/-- A frame that is not on the device can be written to. -/
theorem Stocked.held_pixels_set (ho : o.Stocked mode hand) {f : FrameId}
    (hf : f ∉ o.linkOutput.held.map ScheduleCall.frame) (pixels : Bytes) :
    ∀ call ∈ o.linkOutput.held,
      (o.linkOutput.frames.set f pixels)[call.frame]? = some call.pixels := by
  intro call hcall
  rw [List.getElem?_set_ne, ho.held_pixels call hcall]
  rintro rfl
  exact hf (List.mem_map_of_mem hcall)

/-- DeckLink hands a frame back. -/
theorem Stocked.handBack (ho : o.Stocked mode []) (hshows : o.Shows feed) {k : ℕ}
    {device : FrameId} (h : o.handBack k = some (device, o')) :
    o'.Stocked mode [device] ∧ o'.Shows feed ∧
      o'.linkOutput.calls = o.linkOutput.calls := by
  have hcustody := custody_handBack ho.custody h
  obtain ⟨l₁, call, l₂, hheld, rfl, rfl⟩ := handBack_eq_some h
  refine ⟨⟨hcustody, ho.frames_length, ho.frames_size, ho.last_size, ho.copySize_eq,
    fun other hother => ho.held_pixels other ?_⟩, ⟨hshows.waiting_eq, hshows.last_eq⟩, rfl⟩
  rw [hheld]
  exact List.perm_middle.mem_iff.2 (List.mem_cons_of_mem _ hother)

/-- Where no picture waits, the last one is copied into the oldest completed frame. -/
theorem Stocked.repeatLast {device f : FrameId} {fs : List FrameId} {l : LinkOutput}
    (ho : o.Stocked mode [device]) (hshows : o.Shows feed) (houtput : o.outputFrames = [])
    (hcompleted : o.completedFrames ++ [device] = f :: fs)
    (hfill : o.linkOutput.fill f o.lastFrame o.copySize = .ok l) :
    let o' : Output := { o with completedFrames := fs, linkOutput := l }
    o'.Stocked mode [f] ∧ o'.Shows (feed.after .pull) ∧
      o'.linkOutput.frames[f]? = some o'.lastFrame ∧
      o'.linkOutput.calls = o.linkOutput.calls := by
  have hcustody := custody_nextFrame ho.custody
    (nextFrame_eq_ok_iff.2 (.inl ⟨houtput, fs, l, hcompleted, hfill, rfl⟩))
  obtain ⟨rfl, hf, hlength, hsize⟩ := ho.fill ho.copySize_eq hfill
  have hwaiting : feed.waiting = [] := by
    simpa [houtput] using hshows.waiting_eq
  have hlast : o.lastFrame.take o.copySize = o.lastFrame := by
    rw [ho.copySize_eq, ← ho.last_size, List.take_length]
  have hheld : f ∉ o.linkOutput.held.map ScheduleCall.frame :=
    InCustody.head_not_mem [] hcustody List.nodup_range _ (by simp [places])
  refine ⟨⟨hcustody, hlength, hsize, ho.last_size, ho.copySize_eq, ho.held_pixels_set hheld _⟩,
    ⟨?_, ?_⟩, ?_, rfl⟩
  · simp [Feed.after, hwaiting, houtput]
  · simpa [Feed.after, hwaiting] using hshows.last_eq
  · rw [hf, hlast]

/-- The oldest picture that waits becomes the last one. -/
theorem Stocked.showWaiting {device f : FrameId} {fs : List FrameId} {pframe last : Bytes}
    (ho : o.Stocked mode [device]) (hshows : o.Shows feed) (houtput : o.outputFrames = f :: fs)
    (hpframe : o.linkOutput.frames[f]? = some pframe)
    (hcopy : memcpy o.lastFrame pframe o.copySize = .ok last) :
    let o' : Output :=
      { o with
        completedFrames := o.completedFrames ++ [device]
        outputFrames := fs
        lastFrame := last }
    o'.Stocked mode [f] ∧ o'.Shows (feed.after .pull) ∧
      o'.linkOutput.frames[f]? = some o'.lastFrame ∧
      o'.linkOutput.calls = o.linkOutput.calls := by
  have hcustody := custody_nextFrame ho.custody
    (nextFrame_eq_ok_iff.2 (.inr ⟨fs, pframe, last, houtput, hpframe, hcopy, rfl⟩))
  obtain ⟨-, hsize⟩ := ho.getElem?_frames hpframe
  obtain rfl : pframe = last := by
    have htake : pframe.take o.copySize = pframe := by
      rw [ho.copySize_eq, ← hsize, List.take_length]
    have hlen : o.copySize ≤ pframe.length := by
      rw [ho.copySize_eq, hsize]
    simpa [memcpy_full (ho.last_size.trans ho.copySize_eq.symm) hlen, htake] using hcopy
  obtain ⟨a, as, hwaiting⟩ : ∃ a as, feed.waiting = a :: as := by
    cases hfeed : feed.waiting with
    | nil => simpa [hfeed, houtput] using hshows.waiting_eq
    | cons a as => exact ⟨a, as, rfl⟩
  have heq := hshows.waiting_eq
  simp only [hwaiting, houtput, List.map_cons, hpframe, List.cons.injEq,
    Option.some.injEq] at heq
  obtain ⟨rfl, heq⟩ := heq
  refine ⟨⟨hcustody, ho.frames_length, ho.frames_size, hsize, ho.copySize_eq,
    ho.held_pixels⟩, ⟨?_, ?_⟩, hpframe, rfl⟩
  · simpa [Feed.after, hwaiting] using heq
  · simp [Feed.after, hwaiting]

/-- The frame picked for the next slot holds the picture that the abstract queue
hands out. -/
theorem Stocked.nextFrame {device f : FrameId} (ho : o.Stocked mode [device])
    (hshows : o.Shows feed) (h : o.nextFrame device = .ok (f, o')) :
    o'.Stocked mode [f] ∧ o'.Shows (feed.after .pull) ∧
      o'.linkOutput.frames[f]? = some o'.lastFrame ∧
      o'.linkOutput.calls = o.linkOutput.calls := by
  obtain ⟨houtput, fs, l, hcompleted, hfill, rfl⟩ | ⟨fs, pframe, last, houtput, hpframe,
    hcopy, rfl⟩ := nextFrame_eq_ok_iff.1 h
  · exact ho.repeatLast hshows houtput hcompleted hfill
  · exact ho.showWaiting hshows houtput hpframe hcopy

/-- There always is a next frame. -/
theorem Stocked.exists_nextFrame {device : FrameId} (ho : o.Stocked mode [device]) :
    ∃ r, o.nextFrame device = .ok r := by
  have hframes := exists_frame ho.custody ho.frames_length ho.frames_size
  exact Output.exists_nextFrame (fun f hf => (hframes f (mem_places_flatten hf)).2)
    ho.last_size ho.copySize_eq.le

/-- The frame is scheduled with the pixels that it has. -/
theorem Stocked.scheduled {f : FrameId} {pixels : Bytes} (ho : o.Stocked mode [f])
    (hf : o.linkOutput.frames[f]? = some pixels) (result : CompletionResult) :
    (o.scheduled f result).Stocked mode [] ∧
      (o.scheduled f result).linkOutput.calls.map ScheduleCall.pixels =
        o.linkOutput.calls.map ScheduleCall.pixels ++ [pixels] := by
  refine ⟨⟨custody_scheduled ho.custody result, ho.frames_length, ho.frames_size, ho.last_size,
    ho.copySize_eq, fun call hcall => ?_⟩, ?_⟩
  · rcases List.mem_append.1 hcall with hcall | hcall
    · exact ho.held_pixels call hcall
    · rw [List.mem_singleton.1 hcall]
      simp [Output.scheduled, LinkOutput.scheduleVideoFrame, hf]
  · simp [Output.scheduled, LinkOutput.scheduleVideoFrame, hf]

/-- `setFrame` puts a full picture into a completed frame. -/
theorem Stocked.setFrame (ho : o.Stocked mode []) (hshows : o.Shows feed) {frame : Bytes}
    {n w h : ℕ} {f : FrameId} {fs : List FrameId} {l : LinkOutput} (hn : n = mode.size)
    (hsize : w * h * 4 % unsignedRange = n) (hcompleted : o.completedFrames = f :: fs)
    (hfill : o.linkOutput.fill f frame n = .ok l) :
    let o' : Output :=
      { o with
        completedFrames := fs
        outputFrames := o.outputFrames ++ [f]
        linkOutput := l
        width := w
        height := h }
    o'.Stocked mode [] ∧ o'.Shows (feed.after (.push (frame.take n))) ∧
      o'.linkOutput.calls = o.linkOutput.calls := by
  have hmoved := custody_setFrame ho.custody hcompleted hfill
  obtain ⟨rfl, hf, hlength, hframes⟩ := ho.fill hn hfill
  have hcustody := ho.custody
  simp only [places, hcompleted] at hcustody
  have hne := InCustody.head_not_mem [[], o.linkOutput.held.map ScheduleCall.frame]
    hcustody List.nodup_range
  have hheld := hne (o.linkOutput.held.map ScheduleCall.frame) (by simp)
  refine ⟨⟨hmoved, hlength, hframes, ho.last_size, hsize.trans hn, ho.held_pixels_set hheld _⟩,
    ⟨?_, hshows.last_eq⟩, rfl⟩
  have hkeep : o.outputFrames.map (fun g => (o.linkOutput.frames.set f (frame.take n))[g]?) =
      o.outputFrames.map fun g => o.linkOutput.frames[g]? := by
    refine List.map_congr_left fun g hg => List.getElem?_set_ne ?_
    rintro rfl
    exact hne o.outputFrames (by simp) hg
  simp only [Feed.after, List.map_append, List.map_cons, List.map_nil, hkeep,
    hshows.waiting_eq]
  rw [← hf]

/-- The constructor's output: five frames on the device, five completed, all white. -/
theorem new_stocked (link : Link) (mode : DisplayMode) : (new link mode).Stocked mode [] := by
  have hstock := new_inStock link mode
  have hframes : (new link mode).linkOutput.frames = List.replicate 10 mode.white := rfl
  have hheld : (new link mode).linkOutput.held =
      (List.range 5).map fun i => ⟨i, i * mode.duration, mode.white, none⟩ := rfl
  refine ⟨hstock.custody, hstock.frames_length, hstock.frames_size, hstock.last_size,
    mode.size_mod, fun call hcall => ?_⟩
  rw [hheld] at hcall
  obtain ⟨i, hi, rfl⟩ := List.mem_map.1 hcall
  have hlt : i < 10 := (List.mem_range.1 hi).trans (by decide)
  rw [hframes]
  exact List.getElem?_replicate_of_lt hlt

end Output

namespace Playout

variable {mode : DisplayMode} {p q : Playout}

/-- How an output stands to the abstract queue of its run. -/
structure Fed (mode : DisplayMode) (p : Playout) : Prop where
  stocked : p.output.Stocked mode []
  shows : p.output.Shows (mode.idle.afterAll p.events)
  calls_eq : p.output.linkOutput.calls.map ScheduleCall.pixels =
    List.replicate 5 mode.white ++ mode.idle.outputs p.events

theorem start_fed (link : Link) (mode : DisplayMode) : (start link mode).Fed mode :=
  ⟨Output.new_stocked link mode, ⟨rfl, rfl⟩, rfl⟩

theorem Fed.step {a : OutputAction} (hp : p.Fed mode) (hfull : a.IsFull mode)
    (h : p.step a = some q) : q.Fed mode := by
  cases step_spec h with
  | refused hcompleted => exact hp
  | accepted hcompleted hfill =>
      obtain ⟨-, hn, hsize⟩ := hfull
      obtain ⟨hstocked, hshows, hcalls⟩ :=
        hp.stocked.setFrame hp.shows hn hsize hcompleted hfill
      refine ⟨hstocked, ?_, ?_⟩
      · rw [Feed.afterAll_snoc]
        exact hshows
      · rw [Feed.outputs_snoc_push, ← hp.calls_eq]
        exact congrArg _ hcalls
  | @completed k result device f o o' hback hnext =>
      obtain ⟨hstocked, hshows, hcalls⟩ := hp.stocked.handBack hp.shows hback
      obtain ⟨hstocked, hshows, hpixels, hcalls'⟩ := hstocked.nextFrame hshows hnext
      obtain ⟨hscheduled, hlog⟩ := hstocked.scheduled hpixels result
      refine ⟨hscheduled, ?_, ?_⟩
      · rw [Feed.afterAll_snoc]
        exact ⟨hshows.waiting_eq, hshows.last_eq⟩
      · rw [hlog, hcalls', hcalls, hp.calls_eq, Feed.outputs_snoc_pull, hshows.last_eq,
          List.append_assoc]

/-- What can happen to an output next: a `setFrame` call, or the completion of a
frame that DeckLink holds, where it grants the request that follows. -/
def Offers (p : Playout) : OutputAction → Prop
  | .setFrame .. => True
  | .scheduledFrameCompleted k _ granted =>
      k < p.output.linkOutput.held.length ∧ granted = true

/-- No full picture and no completion makes the output fault. -/
theorem Fed.exists_step {a : OutputAction} (hp : p.Fed mode) (hfull : a.IsFull mode)
    (ha : p.Offers a) : ∃ q, p.step a = some q := by
  cases a with
  | setFrame frame n w h =>
      obtain ⟨hlen, hn, -⟩ := hfull
      cases hcompleted : p.output.completedFrames with
      | nil => exact ⟨_, by rw [Playout.step, Output.setFrame_eq_ok_iff.2 (.inl ⟨hcompleted, rfl⟩)]⟩
      | cons f fs =>
          obtain ⟨l, hl⟩ := hp.stocked.exists_fill p.output.completedFrames
            (by simp [Output.places]) (hcompleted ▸ List.mem_cons_self ..) hn hlen
          exact ⟨_, by
            rw [Playout.step, Output.setFrame_eq_ok_iff.2 (.inr ⟨f, fs, l, hcompleted, hl, rfl⟩)]⟩
  | scheduledFrameCompleted k result granted =>
      obtain ⟨hk, rfl⟩ := ha
      have hheld := List.getElem?_eq_getElem hk
      obtain ⟨device, o, hback⟩ : ∃ device o, p.output.handBack k = some (device, o) :=
        ⟨_, _, by rw [Output.handBack, hheld]; rfl⟩
      obtain ⟨hstocked, -, -⟩ := hp.stocked.handBack hp.shows hback
      obtain ⟨⟨f, o'⟩, hnext⟩ := hstocked.exists_nextFrame
      have hdone : o.scheduledFrameCompleted device result true =
          .ok (o'.scheduled f result) :=
        bind_eq_ok_iff.2 ⟨(f, o'), hnext, rfl⟩
      exact ⟨⟨o'.scheduled f result, p.events ++ [.pull]⟩, by
        simp only [Playout.step, hback, hdone]⟩

/-- Where every `setFrame` call brings a full picture, an output is a queue that
repeats, whatever the order of the calls and the completions: after the five
white frames of the constructor, each completion schedules the oldest accepted
picture that waits, or the last one again. The accepted pictures are scheduled in
order, each in one block, and those not yet scheduled are in the output queue with
their pixels. A frame on the device keeps its pixels, and no call and no completion
makes the program fault. -/
theorem run_schedules {link : Link} {as : List OutputAction}
    (hfull : ∀ a ∈ as, a.IsFull mode) (h : run step (start link mode) as = some p) :
    p.output.linkOutput.calls.map ScheduleCall.pixels =
        List.replicate 5 mode.white ++ mode.idle.outputs p.events ∧
      (∃ (k : ℕ) (blocks : List (Bytes × ℕ)) (waiting : List Bytes),
        mode.idle.outputs p.events = List.replicate k mode.white ++
          blocks.flatMap (fun block => List.replicate (block.2 + 1) block.1) ∧
        Feed.pushes p.events = blocks.map Prod.fst ++ waiting ∧
        waiting.map some =
          p.output.outputFrames.map fun f => p.output.linkOutput.frames[f]?) ∧
      (∀ call ∈ p.output.linkOutput.held,
        p.output.linkOutput.frames[call.frame]? = some call.pixels) ∧
      ∀ a, a.IsFull mode → p.Offers a → ∃ q, p.step a = some q := by
  have hp : p.Fed mode :=
    ((Along.of_forall hfull).always (fun _ _ _ hs ha hstep => hs.step ha hstep)
      (start_fed link mode)).last h
  obtain ⟨k, blocks, houtputs, hpushes⟩ := mode.idle.exists_repeats p.events
  exact ⟨hp.calls_eq, ⟨k, blocks, _, houtputs, hpushes, hp.shows.waiting_eq⟩,
    hp.stocked.held_pixels, fun _ ha hoffers => hp.exists_step ha hoffers⟩

/-- A picture that is shown twice: two completions follow its `setFrame` call. -/
theorem run_schedules_pixel :
    ∃ p, run step (start 0 .pixel)
        [.setFrame [1, 2, 3, 4] 4 1 1, .scheduledFrameCompleted 0 .completed true,
          .scheduledFrameCompleted 0 .displayedLate true] = some p ∧
      p.output.linkOutput.calls.map ScheduleCall.pixels =
        List.replicate 5 DisplayMode.pixel.white ++ [[1, 2, 3, 4], [1, 2, 3, 4]] := by
  have hfull : ∀ a ∈ [OutputAction.setFrame [1, 2, 3, 4] 4 1 1,
      .scheduledFrameCompleted 0 .completed true,
      .scheduledFrameCompleted 0 .displayedLate true], a.IsFull .pixel := by
    simp [OutputAction.IsFull, DisplayMode.pixel, DisplayMode.size, unsignedRange]
  obtain ⟨p, hp, hevents⟩ : ∃ p, run step (start 0 .pixel)
      [.setFrame [1, 2, 3, 4] 4 1 1, .scheduledFrameCompleted 0 .completed true,
        .scheduledFrameCompleted 0 .displayedLate true] = some p ∧
      p.events = [.push [1, 2, 3, 4], .pull, .pull] := ⟨_, rfl, rfl⟩
  refine ⟨p, hp, ?_⟩
  rw [(run_schedules hfull hp).1, hevents]
  rfl

end Playout

end Bres
