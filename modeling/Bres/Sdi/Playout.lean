import Bres.Sdi.Output
import Bres.Transition.Custody
import Bres.Transition.Feed
import Bres.Transition.Run

/-!
# The SDI output is a queue that repeats

`Playout.step` runs an output under any order of `setFrame` calls and
completions, where DeckLink may hand back any frame that it holds. `OutputStep`
spells out what a step can do.

The pictures live in ten frame objects that are used over and over. `Fed` is the
invariant that carries them: each object is in one place only, an object that
waits or is on the device keeps its pixels, and the waiting pictures with
`_lastFrame` are the state of the abstract queue. From it every run schedules
what a `Feed` hands out that starts with the white picture.
-/

namespace Bres

open Transition

/-- What the render side and DeckLink do with an output. -/
inductive OutputAction where
  | setFrame (frame : Bytes) (framelen width height : ℕ)
  | scheduledFrameCompleted (k : ℕ) (result : CompletionResult) (granted : Bool)

/-- An output with a record of its run: the pictures that `setFrame` accepted and
the completions, in order. No step reads the record. -/
structure Playout where
  output : Output
  events : List (Feed.Event Bytes) := []

namespace Playout

/-- The step of a `setFrame` call or of a completion; `none` where DeckLink does
not hold the frame, or where the program ends. -/
def step (p : Playout) : OutputAction → Option Playout
  | .setFrame frame framelen width height =>
      match p.output.setFrame frame framelen width height with
      | .error _ => none
      | .ok (.outOfMemory, o) => some { p with output := o }
      | .ok (.ok, o) => some ⟨o, p.events ++ [.push (frame.take framelen)]⟩
  | .scheduledFrameCompleted k result granted =>
      match p.output.handBack k with
      | none => none
      | some (device, o) =>
          match o.scheduledFrameCompleted device result granted with
          | .error _ => none
          | .ok o => some ⟨o, p.events ++ [.pull]⟩

/-- The output as its constructor leaves it. -/
def start (link : Link) (mode : DisplayMode) : Playout := ⟨Output.new link mode, []⟩

end Playout

theorem LinkOutput.getBytes_eq_ok_iff {l : LinkOutput} {frame : FrameId} {pixels : Bytes} :
    l.getBytes frame = .ok pixels ↔ l.frames[frame]? = some pixels := by
  unfold getBytes
  split <;> simp_all

theorem LinkOutput.fill_eq_ok_iff {l l' : LinkOutput} {frame : FrameId} {src : Bytes} {n : ℕ} :
    l.fill frame src n = .ok l' ↔
      ∃ old pixels, l.frames[frame]? = some old ∧ memcpy old src n = .ok pixels ∧
        l' = { l with frames := l.frames.set frame pixels } := by
  simp only [fill, bind_eq_ok_iff, getBytes_eq_ok_iff, pure, Except.pure, Except.ok.injEq]
  constructor
  · rintro ⟨old, hold, pixels, hcopy, rfl⟩
    exact ⟨old, pixels, hold, hcopy, rfl⟩
  · rintro ⟨old, pixels, hold, hcopy, rfl⟩
    exact ⟨old, hold, pixels, hcopy, rfl⟩

/-- The two ways to the next frame. -/
theorem Output.nextFrame_eq_ok_iff {o o' : Output} {device f : FrameId} :
    o.nextFrame device = .ok (f, o') ↔
      (o.outputFrames = [] ∧ ∃ fs l, o.completedFrames ++ [device] = f :: fs ∧
        o.linkOutput.fill f o.lastFrame o.copySize = .ok l ∧
        o' = { o with completedFrames := fs, linkOutput := l }) ∨
      ∃ fs pframe last, o.outputFrames = f :: fs ∧ o.linkOutput.frames[f]? = some pframe ∧
        memcpy o.lastFrame pframe o.copySize = .ok last ∧
        o' = { o with
          completedFrames := o.completedFrames ++ [device]
          outputFrames := fs
          lastFrame := last } := by
  cases houtput : o.outputFrames with
  | nil =>
      obtain ⟨g, gs, hcompleted⟩ := List.exists_cons_of_ne_nil
        (List.append_ne_nil_of_right_ne_nil o.completedFrames (List.cons_ne_nil device []))
      simp only [nextFrame, houtput, hcompleted, bind_eq_ok_iff, pure, Except.pure,
        Except.ok.injEq, Prod.mk.injEq]
      constructor
      · rintro ⟨l, hl, rfl, rfl⟩
        exact .inl ⟨trivial, gs, l, rfl, hl, rfl⟩
      · rintro (⟨-, fs, l, hcons, hl, rfl⟩ | ⟨fs, pframe, last, hcons, -⟩)
        · cases hcons
          exact ⟨l, hl, rfl, rfl⟩
        · cases hcons
  | cons g gs =>
      simp only [nextFrame, houtput, bind_eq_ok_iff, LinkOutput.getBytes_eq_ok_iff, pure,
        Except.pure, Except.ok.injEq, Prod.mk.injEq]
      constructor
      · rintro ⟨pframe, hpframe, last, hlast, rfl, rfl⟩
        exact .inr ⟨gs, pframe, last, rfl, hpframe, hlast, rfl⟩
      · rintro (⟨hnil, -⟩ | ⟨fs, pframe, last, hcons, hpframe, hlast, rfl⟩)
        · cases hnil
        · cases hcons
          exact ⟨pframe, hpframe, last, hlast, rfl, rfl⟩

theorem Output.setFrame_eq_ok_iff {o : Output} {frame : Bytes} {n w h : ℕ}
    {r : HResult × Output} :
    o.setFrame frame n w h = .ok r ↔
      (o.completedFrames = [] ∧ r = (.outOfMemory, o)) ∨
      ∃ f fs l, o.completedFrames = f :: fs ∧ o.linkOutput.fill f frame n = .ok l ∧
        r = (.ok, { o with
          completedFrames := fs
          outputFrames := o.outputFrames ++ [f]
          linkOutput := l
          width := w
          height := h }) := by
  cases hcompleted : o.completedFrames with
  | nil => simp [setFrame, hcompleted, eq_comm]
  | cons g gs =>
      simp only [setFrame, hcompleted, bind_eq_ok_iff, pure, Except.pure, Except.ok.injEq]
      constructor
      · rintro ⟨l, hl, rfl⟩
        exact .inr ⟨g, gs, l, rfl, hl, rfl⟩
      · rintro (⟨hnil, -⟩ | ⟨f, fs, l, hcons, hl, rfl⟩)
        · cases hnil
        · cases hcons
          exact ⟨l, hl, rfl⟩

/-- A frame that DeckLink hands back is one that it holds. -/
theorem Output.handBack_eq_some {o o' : Output} {k : ℕ} {device : FrameId}
    (h : o.handBack k = some (device, o')) :
    ∃ l₁ call l₂, o.linkOutput.held = l₁ ++ call :: l₂ ∧ device = call.frame ∧
      o' = { o with linkOutput := { o.linkOutput with held := l₁ ++ l₂ } } := by
  obtain ⟨call, hk, hcall⟩ := Option.map_eq_some_iff.1 h
  obtain ⟨l₁, l₂, hheld, herase, -⟩ := exists_split_of_getElem? hk
  cases hcall
  exact ⟨l₁, call, l₂, hheld, rfl, by rw [herase]⟩

/-- What a step of the output can do. -/
inductive OutputStep : Playout → OutputAction → Playout → Prop where
  | refused {p : Playout} {frame : Bytes} {n w h : ℕ}
      (hcompleted : p.output.completedFrames = []) :
      OutputStep p (.setFrame frame n w h) p
  | accepted {p : Playout} {frame : Bytes} {n w h : ℕ} {f : FrameId} {fs : List FrameId}
      {l : LinkOutput} (hcompleted : p.output.completedFrames = f :: fs)
      (hfill : p.output.linkOutput.fill f frame n = .ok l) :
      OutputStep p (.setFrame frame n w h)
        ⟨{ p.output with
            completedFrames := fs
            outputFrames := p.output.outputFrames ++ [f]
            linkOutput := l
            width := w
            height := h },
          p.events ++ [.push (frame.take n)]⟩
  | completed {p : Playout} {k : ℕ} {result : CompletionResult} {device f : FrameId}
      {o o' : Output} (hback : p.output.handBack k = some (device, o))
      (hnext : o.nextFrame device = .ok (f, o')) :
      OutputStep p (.scheduledFrameCompleted k result true)
        ⟨o'.scheduled f result, p.events ++ [.pull]⟩

theorem Playout.step_spec {p q : Playout} {a : OutputAction} (h : p.step a = some q) :
    OutputStep p a q := by
  cases a with
  | setFrame frame n width height =>
      cases hset : p.output.setFrame frame n width height with
      | error e => simp [step, hset] at h
      | ok r =>
          obtain ⟨hcompleted, rfl⟩ | ⟨f, fs, l, hcompleted, hfill, rfl⟩ :=
            Output.setFrame_eq_ok_iff.1 hset
          · simp only [step, hset, Option.some.injEq] at h
            subst h
            exact .refused hcompleted
          · simp only [step, hset, Option.some.injEq] at h
            subst h
            exact .accepted hcompleted hfill
  | scheduledFrameCompleted k result granted =>
      cases hback : p.output.handBack k with
      | none => simp [step, hback] at h
      | some r =>
          obtain ⟨device, o⟩ := r
          simp only [step, hback] at h
          split at h
          · cases h
          · rename_i o₁ hdone
            cases h
            obtain ⟨⟨f, o'⟩, hnext, hschedule⟩ := bind_eq_ok_iff.1 hdone
            cases granted with
            | false => simp at hschedule
            | true =>
                obtain rfl : o'.scheduled f result = o₁ := by
                  simpa [pure, Except.pure] using hschedule
                exact .completed hback hnext

end Bres
