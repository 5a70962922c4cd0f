import Bres.Pool.World

/-!
# The picture buffer of a slot is large enough

The collection copies `WND_WIDTH * WND_HEIGHT * 4` bytes into `lastTextureBuffer`,
and drawing a slot reads `width * height * 4` bytes from it. The second always
fits. The first fits as long as a channel is opened only in a slot whose buffer
holds a picture, and a smaller picture is shown only in a slot that no frame can
reach any more.
-/

namespace Bres

open Transition

namespace World

/-- In every slot that is not free, a picture about to be copied fits in the
buffer, and so does what drawing the slot reads from it. -/
def TexturesFit (w : World) : Prop :=
  ∀ i, (w.pool.slot i).instanceEnum ≠ .min →
    ((w.slot i).waiting ≠ [] → pictureBytes ≤ (w.pool.slot i).lastTextureBuffer.length) ∧
      ((w.pool.slot i).isDraw ≠ 0 →
        (w.pool.slot i).width * (w.pool.slot i).height * 4 ≤
          (w.pool.slot i).lastTextureBuffer.length)

/-- The step is no channel add into a slot whose buffer is smaller than a picture,
and no add of a smaller picture into a slot that frames may still reach. -/
def LeavesRoom (P : Platform) (w : World) : WorldAction → Prop
  | .command env ev =>
      ∀ i : Fin instanceMax, w.pool.freeIndex = i →
        (P.AddsChannel ev → pictureBytes ≤ (w.pool.slot i).lastTextureBuffer.length) ∧
          ∀ image, P.AddsImage env ev image → image.w * image.h * 4 < pictureBytes →
            (w.pool.slot i).eventsImageCurrent = [] ∧
              (w.pool.slot i).rtc.peerConnectionFactory ≠ .live
  | .thread _ _ => True

end World

/-- The size of the buffer is that of the drawn picture, and it holds a picture of
the decoder as long as one may arrive or waits. -/
structure Slot.Fits (s : Slot) : Prop where
  sized : s.inst.lastTextureBuffer.length = s.inst.width * s.inst.height * 4
  room : s.inst.rtc.peerConnectionFactory = .live ∨ s.waiting ≠ [] →
    pictureBytes ≤ s.inst.lastTextureBuffer.length

theorem SlotStep.waiting_ne_nil {s t : Slot} {a : SlotAction} (h : SlotStep s a t)
    (ht : t.waiting ≠ []) : s.waiting ≠ [] ∨ s.hands.decoders ≠ [] := by
  cases h with
  | pushed hk hcalls => exact .inr (by simp [hcalls])
  | collected hrenderer hcurrent => exact .inl (by simp [Slot.waiting, hcurrent])
  | copied hrenderer => exact .inl (by simp [Slot.waiting, hrenderer])
  | returned hrenderer =>
      refine .inl fun hs => ht ?_
      simpa [Slot.waiting, hrenderer] using hs
  | _ => exact .inl ht

theorem ThreadStep.waiting_ne_nil {s t : Slot} (h : ThreadStep s t) (ht : t.waiting ≠ []) :
    s.waiting ≠ [] ∨ s.hands.decoders ≠ [] := by
  have hsame : ∀ {inst : Instance}, s.inst.SamePictures inst →
      Slot.waiting ⟨inst, s.hands⟩ = s.waiting := by
    intro inst hsame
    have hcurrent : inst.eventsImageCurrent = s.inst.eventsImageCurrent :=
      congrFun hsame.images .current
    simp only [Slot.waiting, hcurrent]
  cases h with
  | exchange hallowed h => exact h.waiting_ne_nil ht
  | quiet hkeeps => exact .inl (hsame hkeeps ▸ ht)
  | queued hkeeps => exact .inl (hsame hkeeps ▸ ht)
  | taken hkeeps => exact .inl (hsame hkeeps ▸ ht)

/-- The threads leave the sizes alone. -/
theorem ThreadStep.sizes_eq {s t : Slot} (h : ThreadStep s t) :
    t.inst.width = s.inst.width ∧ t.inst.height = s.inst.height ∧
      t.inst.lastTextureBuffer.length = s.inst.lastTextureBuffer.length := by
  have hwidth := congrArg Instance.width h.frozen
  have hheight := congrArg Instance.height h.frozen
  have hlength := congrArg (fun inst : Instance => inst.lastTextureBuffer.length) h.frozen
  simp only [Instance.frozen, List.length_replicate] at hlength
  exact ⟨hwidth, hheight, hlength⟩

theorem Slot.Fits.thread {s t : Slot} (hs : s.Fits) (hsound : s.Sound)
    (h : ThreadStep s t) : t.Fits := by
  obtain ⟨hwidth, hheight, hlength⟩ := h.sizes_eq
  refine ⟨by rw [hlength, hwidth, hheight, hs.sized], fun hframes => ?_⟩
  rw [hlength]
  apply hs.room
  rw [h.peerConnectionFactory_eq] at hframes
  rcases hframes with hlive | hwaiting
  · exact .inl hlive
  · rcases h.waiting_ne_nil hwaiting with hold | hdecoders
    · exact .inr hold
    · exact .inl (hsound.live_of_decoders hdecoders)

/-- An allowed command keeps the buffer large enough. -/
theorem SlotChange.fits {P : Platform} (hP : ∀ m n, P.byteCount m n = m * n * 4)
    {env : Answers} {ev : SEvent} {w : World} {i : Fin instanceMax} {inst : Instance}
    (h : SlotChange P env ev w.pool i inst) (hidle : (w.hands i).renderer = none)
    (hallowed : w.LeavesRoom P (.command env ev)) (hi : (w.slot i).Fits) :
    Slot.Fits ⟨inst, w.hands i⟩ := by
  cases h with
  | kept => exact hi
  | opened htype hparse hid htoken hmulti hserver hindex =>
      have hroom := (hallowed i hindex).1
        (Platform.addsChannel_of_strings htype hparse hid htoken hmulti hserver)
      refine ⟨?_, fun _ => ?_⟩
      · rw [openedChannel_width, openedChannel_height, openedChannel_lastTextureBuffer]
        exact hi.sized
      · rw [openedChannel_lastTextureBuffer]
        exact hroom
  | @shown json path posX posY x y image htype hparse hpath hposX hposY hload hx hy hindex =>
      have hlength : (image.read (P.byteCount image.w image.h)).length =
          image.w * image.h * 4 := by rw [Image.length_read, hP]
      refine ⟨hlength, fun hframes => ?_⟩
      by_contra hsmall
      simp only [shownImage, hlength, not_le] at hsmall
      obtain ⟨hcurrent, hgone⟩ := (hallowed i hindex).2 image
        (Platform.addsImage_of_strings htype hparse hpath hposX hposY hload) hsmall
      rcases hframes with hlive | hwaiting
      · exact hgone hlive
      · apply hwaiting
        simp only [Slot.waiting, hidle, shownImage, hcurrent]
        rfl
  | closed =>
      refine ⟨hi.sized, fun hframes => hi.room (.inr ?_)⟩
      rcases hframes with hlive | hwaiting
      · cases hlive
      · exact hwaiting
  | freed => exact ⟨hi.sized, hi.room⟩
  | updated => exact ⟨hi.sized, hi.room⟩

theorem SlotEffect.fits {P : Platform} (hP : ∀ m n, P.byteCount m n = m * n * 4)
    {w : World} {a : WorldAction} {i : Fin instanceMax} {t : Slot}
    (h : SlotEffect P w a i t) (hallowed : w.LeavesRoom P a) (hsound : (w.slot i).Sound)
    (hi : (w.slot i).Fits) : t.Fits := by
  cases h with
  | untouched => exact hi
  | commanded ha hidle hchange =>
      subst ha
      exact hchange.fits hP hidle hallowed hi
  | worked ha hthread => exact hi.thread hsound hthread

namespace World

variable {P : Platform} {as : List WorldAction}

theorem texturesFit_of_fits {w : World} (h : ∀ i, (w.slot i).Fits) : w.TexturesFit :=
  fun i _ => ⟨fun hwaiting => (h i).room (.inr hwaiting), fun _ => (h i).sized.ge⟩

/-- Every state of a run that leaves room keeps the collection and the drawing
inside the buffers. -/
theorem texturesFit_of_leavesRoom (hP : ∀ m n, P.byteCount m n = m * n * 4)
    (h : Along (step P) (LeavesRoom P) startup as) :
    Always (step P) TexturesFit startup as := by
  have hstart : ∀ i, (startup.slot i).Fits := fun i =>
    ⟨by simp [startup, slot, Pool.startup, Instance.startup, pictureBytes],
      fun _ => by simp [startup, slot, Pool.startup, Instance.startup]⟩
  have hfits : Always (step P) (fun w => w.Sound ∧ ∀ i, (w.slot i).Fits) startup as :=
    h.always (fun w a w' hw hallowed hstep => ⟨hw.1.step hstep, fun i =>
      (hw.1.effect hstep i).fits hP hallowed (hw.1 i) (hw.2 i)⟩) ⟨startup_sound, hstart⟩
  exact hfits.mono fun w hw => texturesFit_of_fits hw.2

/-- The rule at a run in which a channel is added and pushes a frame. -/
theorem texturesFit_add_frame :
    Always (step Sample.platform) TexturesFit startup
      [Sample.command 1 .subscribeAddChannel Sample.addChannel,
        .thread 0 (.exchange (.framePop Picture.zero)),
        .thread 0 (.exchange (.frameFill 0)), .thread 0 (.exchange (.framePush 0))] := by
  refine texturesFit_of_leavesRoom (fun _ _ => rfl) ⟨fun i _ => ⟨fun _ => ?_, ?_⟩, ?_⟩
  · simp [startup, Pool.startup, Instance.startup]
  · rintro image ⟨htype, -⟩
    cases htype
  · exact fun _ _ => ⟨trivial, fun _ _ => ⟨trivial, fun _ _ => ⟨trivial, fun _ _ => trivial⟩⟩⟩

/-- A channel in the slot of a deleted image of four pixels: its first frame does not
fit. -/
theorem not_texturesFit_image_channel :
    ∃ w, run (step Sample.platform) startup
        [Sample.command 1 .resourceAddStaticImage Sample.addImage,
          Sample.command 2 .resourceDeleteStaticImage Sample.deleteImage,
          Sample.command 3 .subscribeAddChannel Sample.addChannel,
          .thread 0 (.exchange (.framePop Picture.zero)),
          .thread 0 (.exchange (.frameFill 0)),
          .thread 0 (.exchange (.framePush 0))] = some w ∧
      (w.pool.slot 0).eventsImageCurrent = [0] ∧
      (w.pool.slot 0).lastTextureBuffer.length = 16 ∧ ¬ w.TexturesFit := by
  have hobserved : (run (step Sample.platform) startup
        [Sample.command 1 .resourceAddStaticImage Sample.addImage,
          Sample.command 2 .resourceDeleteStaticImage Sample.deleteImage,
          Sample.command 3 .subscribeAddChannel Sample.addChannel,
          .thread 0 (.exchange (.framePop Picture.zero)),
          .thread 0 (.exchange (.frameFill 0)),
          .thread 0 (.exchange (.framePush 0))]).map
      (fun w => ((w.pool.slot 0).instanceEnum, (w.pool.slot 0).eventsImageCurrent,
        (w.pool.slot 0).lastTextureBuffer.length)) = some (.instance00, [0], 16) := by
    decide +kernel
  obtain ⟨w, hw, htriple⟩ := Option.map_eq_some_iff.1 hobserved
  obtain ⟨henum, hpair⟩ := Prod.mk.inj htriple
  obtain ⟨hcurrent, hlength⟩ := Prod.mk.inj hpair
  refine ⟨w, hw, hcurrent, hlength, fun hfit => ?_⟩
  have hwaiting : (w.slot 0).waiting ≠ [] := by
    simp [Slot.waiting, slot, hcurrent]
  have hroom := (hfit 0 (by simp [henum])).1 hwaiting
  rw [hlength] at hroom
  exact absurd hroom (by decide)

end World

end Bres
