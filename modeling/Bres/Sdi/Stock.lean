import Bres.Sdi.Playout

/-!
# The stock of frame objects

The ten frame objects of an output go around between the device and its two
queues. `InStock` says where they are: each is in one place, and five are with
DeckLink whenever `ScheduledFrameCompleted` has none in its hand. No picture
size, no order of calls and no choice of DeckLink breaks it, so there always is a
frame for the next slot, and the completed queue runs empty exactly when five
pictures wait in the output queue.
-/

namespace Bres

open Transition

namespace DisplayMode

/-- The abstract queue before the first picture. -/
def idle (mode : DisplayMode) : Feed Bytes := ⟨[], mode.white⟩

theorem white_length (mode : DisplayMode) : mode.white.length = mode.size :=
  List.length_replicate

/-- A mode of one pixel. -/
def pixel : DisplayMode := ⟨1, 1, 1001, by decide, by decide, by decide⟩

theorem size_mod (mode : DisplayMode) :
    mode.width * mode.height * 4 % unsignedRange = mode.size :=
  Nat.mod_eq_of_lt mode.size_lt

end DisplayMode

/-- The places where a frame object can be: the device, the completed queue and
the output queue. -/
def Output.places (o : Output) : List (List FrameId) :=
  [o.linkOutput.held.map ScheduleCall.frame, o.completedFrames, o.outputFrames]

/-- The ten frames are in one place each, where `hand` lists those that
`ScheduledFrameCompleted` works on, and five of them are in its hand or with
DeckLink. All buffers have the size of a picture of the mode. -/
structure Output.InStock (mode : DisplayMode) (hand : List FrameId) (o : Output) :
    Prop where
  custody : InCustody (hand :: o.places) (List.range 10)
  held_length : o.linkOutput.held.length + hand.length = 5
  frames_length : o.linkOutput.frames.length = 10
  frames_size : ∀ pixels ∈ o.linkOutput.frames, pixels.length = mode.size
  last_size : o.lastFrame.length = mode.size

/-! ## Where the frames go -/

namespace Output

variable {o o' : Output} {device f : FrameId} {tokens : List FrameId}

theorem custody_handBack {k : ℕ} (ho : InCustody ([] :: o.places) tokens)
    (h : o.handBack k = some (device, o')) : InCustody ([device] :: o'.places) tokens := by
  obtain ⟨l₁, call, l₂, hheld, rfl, rfl⟩ := handBack_eq_some h
  intro a
  have ha := ho a
  simp only [places, hheld, copies_cons, copies_nil, List.map_append, List.map_cons,
    List.count_append, List.count_cons, List.count_nil] at ha ⊢
  omega

/-- The frame that came in goes to the end of the completed queue, and the next one
leaves the output queue, or the completed queue where no picture waits. -/
theorem custody_nextFrame (ho : InCustody ([device] :: o.places) tokens)
    (h : o.nextFrame device = .ok (f, o')) : InCustody ([f] :: o'.places) tokens := by
  intro a
  have ha := ho a
  obtain ⟨houtput, fs, l, hcompleted, hfill, rfl⟩ | ⟨fs, pframe, last, houtput, hpframe,
    hcopy, rfl⟩ := nextFrame_eq_ok_iff.1 h
  · obtain ⟨old, pixels, -, -, rfl⟩ := LinkOutput.fill_eq_ok_iff.1 hfill
    have hcount := congrArg (List.count a) hcompleted
    simp only [List.count_append, List.count_cons, List.count_nil] at hcount
    simp only [places, houtput, copies_cons, copies_nil, List.count_cons,
      List.count_nil] at ha ⊢
    omega
  · simp only [places, houtput, copies_cons, copies_nil, List.count_append, List.count_cons,
      List.count_nil] at ha ⊢
    omega

theorem custody_scheduled (ho : InCustody ([f] :: o.places) tokens)
    (result : CompletionResult) : InCustody ([] :: (o.scheduled f result).places) tokens := by
  intro a
  have ha := ho a
  simp only [places, scheduled, LinkOutput.scheduleVideoFrame, copies_cons, copies_nil,
    List.map_append, List.map_cons, List.map_nil, List.count_append, List.count_cons,
    List.count_nil] at ha ⊢
  omega

/-- `setFrame` moves a frame from one queue to the other. -/
theorem custody_setFrame {frame : Bytes} {n : ℕ} {fs : List FrameId} {l : LinkOutput}
    (ho : InCustody ([] :: o.places) tokens) (hcompleted : o.completedFrames = f :: fs)
    (hfill : o.linkOutput.fill f frame n = .ok l) :
    InCustody [[], l.held.map ScheduleCall.frame, fs, o.outputFrames ++ [f]] tokens := by
  obtain ⟨old, pixels, -, -, rfl⟩ := LinkOutput.fill_eq_ok_iff.1 hfill
  intro a
  have ha := ho a
  simp only [places, hcompleted, copies_cons, copies_nil, List.count_append,
    List.count_cons, List.count_nil] at ha ⊢
  omega

/-- The next frame is the front of the output queue, or of the completed queue where no
picture waits. -/
theorem nextFrame_head (h : o.nextFrame device = .ok (f, o')) :
    (o.outputFrames ++ (o.completedFrames ++ [device])).head? = some f ∧
      o'.outputFrames = o.outputFrames.tail ∧ o'.linkOutput.held = o.linkOutput.held := by
  obtain ⟨houtput, fs, l, hcompleted, hfill, rfl⟩ | ⟨fs, pframe, last, houtput, hpframe,
    hcopy, rfl⟩ := nextFrame_eq_ok_iff.1 h
  · obtain ⟨old, pixels, -, -, rfl⟩ := LinkOutput.fill_eq_ok_iff.1 hfill
    simp [houtput, hcompleted]
  · simp [houtput]

end Output

theorem memcpy_length {dst src r : Bytes} {n : ℕ} (h : memcpy dst src n = .ok r) :
    r.length = dst.length := by
  obtain ⟨hdst, hsrc, rfl⟩ := memcpy_eq_ok_iff.1 h
  rw [List.length_append, List.length_take, List.length_drop]
  omega

/-- A copy into a frame keeps the number and the sizes of the frames. -/
theorem LinkOutput.fill_sizes {l l' : LinkOutput} {frame : FrameId} {src : Bytes} {n size : ℕ}
    (hsize : ∀ pixels ∈ l.frames, pixels.length = size) (h : l.fill frame src n = .ok l') :
    l'.frames.length = l.frames.length ∧ (∀ pixels ∈ l'.frames, pixels.length = size) ∧
      l'.held = l.held := by
  obtain ⟨old, pixels, hold, hcopy, rfl⟩ := fill_eq_ok_iff.1 h
  refine ⟨List.length_set, fun b hb => ?_, rfl⟩
  rcases List.mem_or_eq_of_mem_set hb with hb | rfl
  · exact hsize b hb
  · rw [memcpy_length hcopy]
    exact hsize old (List.mem_of_getElem? hold)

namespace Output

variable {mode : DisplayMode} {o o' : Output} {device f : FrameId}

/-- The constructor's output: five frames on the device, five completed. -/
theorem new_inStock (link : Link) (mode : DisplayMode) : (new link mode).InStock mode [] := by
  have hplaces : (new link mode).places = [[0, 1, 2, 3, 4], [5, 6, 7, 8, 9], []] := rfl
  have hframes : (new link mode).linkOutput.frames = List.replicate 10 mode.white := rfl
  refine ⟨fun a => ?_, rfl, ?_, fun pixels hpixels => ?_, mode.white_length⟩
  · rw [hplaces, show List.range 10 = [0, 1, 2, 3, 4] ++ [5, 6, 7, 8, 9] from rfl]
    simp only [copies_cons, copies_nil, List.count_append, List.count_nil]
    omega
  · rw [hframes, List.length_replicate]
  · rw [hframes] at hpixels
    rw [List.eq_of_mem_replicate hpixels, mode.white_length]

theorem InStock.handBack {k : ℕ} (ho : o.InStock mode [])
    (h : o.handBack k = some (device, o')) : o'.InStock mode [device] := by
  have hcustody := custody_handBack ho.custody h
  obtain ⟨l₁, call, l₂, hheld, rfl, rfl⟩ := handBack_eq_some h
  refine ⟨hcustody, ?_, ho.frames_length, ho.frames_size, ho.last_size⟩
  have hlength := ho.held_length
  rw [hheld, List.length_append, List.length_cons] at hlength
  rw [List.length_append, List.length_singleton]
  exact hlength

theorem InStock.nextFrame (ho : o.InStock mode [device])
    (h : o.nextFrame device = .ok (f, o')) : o'.InStock mode [f] := by
  have hcustody := custody_nextFrame ho.custody h
  obtain ⟨houtput, fs, l, hcompleted, hfill, rfl⟩ | ⟨fs, pframe, last, houtput, hpframe,
    hcopy, rfl⟩ := nextFrame_eq_ok_iff.1 h
  · obtain ⟨hlength, hsize, hheld⟩ := LinkOutput.fill_sizes ho.frames_size hfill
    refine ⟨hcustody, ?_, hlength.trans ho.frames_length, hsize, ho.last_size⟩
    rw [hheld]
    exact ho.held_length
  · exact ⟨hcustody, ho.held_length, ho.frames_length, ho.frames_size,
      (memcpy_length hcopy).trans ho.last_size⟩

theorem InStock.scheduled (ho : o.InStock mode [f]) (result : CompletionResult) :
    (o.scheduled f result).InStock mode [] := by
  refine ⟨custody_scheduled ho.custody result, ?_, ho.frames_length, ho.frames_size,
    ho.last_size⟩
  rw [Output.scheduled, LinkOutput.scheduleVideoFrame, List.length_append]
  exact ho.held_length

theorem InStock.setFrame {frame : Bytes} {n w h : ℕ} {fs : List FrameId} {l : LinkOutput}
    (ho : o.InStock mode []) (hcompleted : o.completedFrames = f :: fs)
    (hfill : o.linkOutput.fill f frame n = .ok l) :
    let o' : Output :=
      { o with
        completedFrames := fs
        outputFrames := o.outputFrames ++ [f]
        linkOutput := l
        width := w
        height := h }
    o'.InStock mode [] := by
  obtain ⟨hlength, hsize, hheld⟩ := LinkOutput.fill_sizes ho.frames_size hfill
  refine ⟨custody_setFrame ho.custody hcompleted hfill, ?_, hlength.trans ho.frames_length,
    hsize, ho.last_size⟩
  rw [hheld]
  exact ho.held_length

/-- The two queues share five frames. -/
theorem InStock.queues_length (ho : o.InStock mode []) :
    o.completedFrames.length + o.outputFrames.length = 5 := by
  have hsum := ho.custody.sum_length
  have hheld := ho.held_length
  simp only [places, List.map_cons, List.map_nil, List.sum_cons, List.sum_nil, List.length_nil,
    List.length_map, List.length_range] at hsum hheld
  omega

/-- Every frame is one of the ten and has a buffer of the size of a picture. -/
theorem exists_frame {places : List (List FrameId)} {frames : List Bytes} {size : ℕ}
    (hcustody : InCustody places (List.range 10)) (hlength : frames.length = 10)
    (hsizes : ∀ pixels ∈ frames, pixels.length = size) :
    ∀ f ∈ places.flatten, f < 10 ∧ ∃ pixels, frames[f]? = some pixels ∧ pixels.length = size := by
  intro f hf
  have hlt : f < 10 := List.mem_range.1 (hcustody.perm.mem_iff.1 hf)
  have hget := List.getElem?_eq_getElem (hlt.trans_eq hlength.symm)
  exact ⟨hlt, _, hget, hsizes _ (List.mem_of_getElem? hget)⟩

/-- The frames among which the next one is looked for. -/
theorem mem_places_flatten
    (hf : f ∈ o.outputFrames ++ (o.completedFrames ++ [device])) :
    f ∈ ([device] :: o.places).flatten := by
  simp only [places, List.flatten_cons, List.flatten_nil, List.mem_append,
    List.mem_singleton, List.not_mem_nil, or_false] at hf ⊢
  grind

/-- Where a copy of the picture size stays inside the buffers, there is a next frame. -/
theorem exists_nextFrame {size : ℕ}
    (hframes : ∀ f ∈ o.outputFrames ++ (o.completedFrames ++ [device]),
      ∃ pixels, o.linkOutput.frames[f]? = some pixels ∧ pixels.length = size)
    (hlast : o.lastFrame.length = size) (hsize : o.copySize ≤ size) :
    ∃ r, o.nextFrame device = .ok r := by
  have hfits := hsize.trans_eq hlast.symm
  cases houtput : o.outputFrames with
  | nil =>
      obtain ⟨f, fs, hcompleted⟩ := List.exists_cons_of_ne_nil
        (List.append_ne_nil_of_right_ne_nil o.completedFrames (List.cons_ne_nil device []))
      have hf : f ∈ o.completedFrames ++ [device] := hcompleted ▸ List.mem_cons_self ..
      obtain ⟨pixels, hget, hpixels⟩ := hframes f (List.mem_append_right _ hf)
      have hcopy := memcpy_eq_ok_iff.2 ⟨hsize.trans_eq hpixels.symm, hfits, rfl⟩
      have hfill := LinkOutput.fill_eq_ok_iff.2 ⟨_, _, hget, hcopy, rfl⟩
      exact ⟨_, nextFrame_eq_ok_iff.2 (.inl ⟨houtput, fs, _, hcompleted, hfill, rfl⟩)⟩
  | cons f fs =>
      have hf : f ∈ o.outputFrames := houtput ▸ List.mem_cons_self ..
      obtain ⟨pixels, hget, hpixels⟩ := hframes f (List.mem_append_left _ hf)
      have hcopy := memcpy_eq_ok_iff.2 ⟨hfits, hsize.trans_eq hpixels.symm, rfl⟩
      exact ⟨_, nextFrame_eq_ok_iff.2 (.inr ⟨fs, _, _, houtput, hget, hcopy, rfl⟩)⟩

/-- What goes wrong in the search for the next frame is a copy. -/
theorem nextFrame_eq_error {e : Fault} (h : o.nextFrame device = .error e) :
    e = .bufferOverflow := by
  cases houtput : o.outputFrames with
  | nil =>
      obtain ⟨f, fs, hcompleted⟩ := List.exists_cons_of_ne_nil
        (List.append_ne_nil_of_right_ne_nil o.completedFrames (List.cons_ne_nil device []))
      simp only [nextFrame, houtput, hcompleted] at h
      rcases bind_eq_error_iff.1 h with h | ⟨l, -, h⟩
      · exact LinkOutput.fill_eq_error h
      · cases h
  | cons f fs =>
      simp only [nextFrame, houtput] at h
      rcases bind_eq_error_iff.1 h with h | ⟨pframe, -, h⟩
      · exact LinkOutput.getBytes_eq_error h
      · rcases bind_eq_error_iff.1 h with h | ⟨last, -, h⟩
        · exact memcpy_eq_error h
        · cases h

/-- The completion of a frame finds the next one: the front of the output queue, or of
the completed queue where no picture waits. It is one of the ten frames and not on the
device, it is scheduled, and the end of the program is not an empty queue. -/
structure Finds (mode : DisplayMode) (o : Output) (device f : FrameId) : Prop where
  front : (o.outputFrames ++ (o.completedFrames ++ [device])).head? = some f
  lt : f < 10
  not_held : f ∉ o.linkOutput.held.map ScheduleCall.frame
  scheduled : ∀ result granted o',
    o.scheduledFrameCompleted device result granted = .ok o' →
      o'.linkOutput.held.map ScheduleCall.frame =
        o.linkOutput.held.map ScheduleCall.frame ++ [f]
  exists_scheduled : o.copySize ≤ mode.size →
    ∀ result, ∃ o', o.scheduledFrameCompleted device result true = .ok o'
  not_empty : ∀ result granted,
    o.scheduledFrameCompleted device result granted ≠ .error .emptyQueue

theorem InStock.exists_finds (ho : o.InStock mode [device]) : ∃ f, o.Finds mode device f := by
  have hframes := exists_frame ho.custody ho.frames_length ho.frames_size
  obtain ⟨f, fs, hfront⟩ := List.exists_cons_of_ne_nil (List.append_ne_nil_of_right_ne_nil
    o.outputFrames (List.append_ne_nil_of_right_ne_nil o.completedFrames
      (List.cons_ne_nil device [])))
  have hmem : f ∈ o.outputFrames ++ (o.completedFrames ++ [device]) :=
    hfront ▸ List.mem_cons_self ..
  refine ⟨f, ⟨by rw [hfront, List.head?_cons], (hframes f (mem_places_flatten hmem)).1, ?_,
    fun result granted o' h => ?_, fun hsize result => ?_, fun result granted h => ?_⟩⟩
  · -- the ten frames are pairwise distinct, and the others are not on the device
    have hnodup := ho.custody.perm.nodup_iff.2 List.nodup_range
    intro hheld
    simp only [places, List.flatten_cons, List.flatten_nil, List.nodup_append,
      List.mem_append, List.mem_singleton, List.append_nil] at hnodup hmem
    grind
  · obtain ⟨⟨g, o₁⟩, hnext, hdone⟩ := bind_eq_ok_iff.1 h
    obtain ⟨hhead, -, hheld⟩ := nextFrame_head hnext
    obtain rfl : g = f := by
      rw [hfront, List.head?_cons] at hhead
      exact (Option.some.inj hhead).symm
    cases granted with
    | false => cases hdone
    | true =>
        cases hdone
        simp [Output.scheduled, LinkOutput.scheduleVideoFrame, hheld]
  · obtain ⟨r, hr⟩ := exists_nextFrame
      (fun g hg => (hframes g (mem_places_flatten hg)).2) ho.last_size hsize
    exact ⟨_, bind_eq_ok_iff.2 ⟨r, hr, rfl⟩⟩
  · rcases bind_eq_error_iff.1 h with h | ⟨r, -, h⟩
    · cases nextFrame_eq_error h
    · cases granted <;> cases h

end Output

namespace Playout

variable {mode : DisplayMode} {p q : Playout}

/-- The frames are in stock, and a frame of the output queue stands for each accepted
picture that has not been scheduled. -/
structure InStock (mode : DisplayMode) (p : Playout) : Prop where
  output : p.output.InStock mode []
  waiting_length :
    (mode.idle.afterAll p.events).waiting.length = p.output.outputFrames.length

theorem start_inStock (link : Link) (mode : DisplayMode) : (start link mode).InStock mode :=
  ⟨Output.new_inStock link mode, rfl⟩

theorem InStock.step {a : OutputAction} (hp : p.InStock mode) (h : p.step a = some q) :
    q.InStock mode := by
  cases step_spec h with
  | refused hcompleted => exact hp
  | accepted hcompleted hfill =>
      refine ⟨hp.output.setFrame hcompleted hfill, ?_⟩
      rw [Feed.afterAll_snoc, Feed.after, List.length_append, List.length_append,
        hp.waiting_length]
      rfl
  | @completed k result device f o o' hback hnext =>
      have hdevice := hp.output.handBack hback
      refine ⟨(hdevice.nextFrame hnext).scheduled result, ?_⟩
      obtain ⟨l₁, call, l₂, -, -, rfl⟩ := Output.handBack_eq_some hback
      obtain ⟨-, houtput, -⟩ := Output.nextFrame_head hnext
      rw [Feed.afterAll_snoc, Feed.waiting_after_pull, List.length_tail, hp.waiting_length,
        Output.scheduled, houtput, List.length_tail]

/-- After any calls and completions, the ten frames of the constructor are in one place
each: five with DeckLink and five in the two queues together. So whatever frame DeckLink
hands back, its completion finds one to schedule and takes no front of an empty queue,
and a picture is refused exactly when five accepted ones wait. -/
theorem frames_partitioned {link : Link} (h : Reachable step (start link mode) p) :
    (p.output.linkOutput.held.map ScheduleCall.frame ++
        (p.output.completedFrames ++ p.output.outputFrames)).Perm (List.range 10) ∧
      p.output.linkOutput.held.length = 5 ∧
      p.output.completedFrames.length + p.output.outputFrames.length = 5 ∧
      (∀ k < 5, ∃ device o f, p.output.handBack k = some (device, o) ∧
        o.Finds mode device f) ∧
      (mode.idle.afterAll p.events).waiting.length = p.output.outputFrames.length ∧
      ∀ frame n width height,
        (∃ o, p.output.setFrame frame n width height = .ok (.outOfMemory, o)) ↔
          p.output.outputFrames.length = 5 := by
  have hp : p.InStock mode := h.invariant (fun _ _ _ hs => hs.step) (start_inStock link mode)
  have hheld : p.output.linkOutput.held.length = 5 := hp.output.held_length
  have hqueues := hp.output.queues_length
  refine ⟨?_, hheld, hqueues, fun k hk => ?_, hp.waiting_length, fun frame n width height => ?_⟩
  · simpa [Output.places] using hp.output.custody.perm
  · obtain ⟨device, o, hback⟩ : ∃ device o, p.output.handBack k = some (device, o) :=
      ⟨_, _, by rw [Output.handBack, List.getElem?_eq_getElem (hk.trans_eq hheld.symm)]; rfl⟩
    obtain ⟨f, hf⟩ := (hp.output.handBack hback).exists_finds
    exact ⟨device, o, f, hback, hf⟩
  · constructor
    · rintro ⟨o, ho⟩
      obtain ⟨hcompleted, -⟩ | ⟨f, fs, l, -, -, hr⟩ := Output.setFrame_eq_ok_iff.1 ho
      · rw [hcompleted, List.length_nil, Nat.zero_add] at hqueues
        exact hqueues
      · cases hr
    · intro hfull
      have hcompleted : p.output.completedFrames = [] := List.length_eq_zero_iff.1 (by omega)
      exact ⟨_, Output.setFrame_eq_ok_iff.2 (.inl ⟨hcompleted, rfl⟩)⟩

/-- Five pictures wait, and the sixth is refused. -/
theorem frames_partitioned_pixel :
    ∃ p, run step (start 0 .pixel) (List.replicate 5 (.setFrame [1, 2, 3, 4] 4 1 1)) = some p ∧
      p.output.linkOutput.held.length = 5 ∧
      ∃ o, p.output.setFrame [5, 6, 7, 8] 4 1 1 = .ok (.outOfMemory, o) := by
  obtain ⟨p, hp, hfull⟩ : ∃ p,
      run step (start 0 .pixel) (List.replicate 5 (.setFrame [1, 2, 3, 4] 4 1 1)) = some p ∧
        p.output.outputFrames.length = 5 := ⟨_, rfl, rfl⟩
  obtain ⟨-, hheld, -, -, -, hrefused⟩ := frames_partitioned ⟨_, hp⟩
  exact ⟨p, hp, hheld, (hrefused _ _ _ _).2 hfull⟩

end Playout

end Bres
