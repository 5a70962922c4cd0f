import Bres.Basic.Instance
import Bres.Transition.Outcome

/-!
# The SDI output

The `Output` class of `src/bm.cc`, which plays pictures through a DeckLink
device. Its constructor creates ten frame objects. Five of them are scheduled at
once and the others go to the completed queue; from then on `setFrame` moves a
completed frame to the output queue with a new picture in it, and
`ScheduledFrameCompleted`, which DeckLink calls with each frame that it has
played, schedules the next one.

`LinkOutput` is what DeckLink keeps for an output: the pixels of the frame
objects and the frames it was given and has not handed back. The source aborts
where DeckLink refuses a request, so an `Output` exists only if the constructor
met no refusal. An out of range `memcpy` and `front` of an empty queue are
faults of their own.
-/

namespace Bres

open Transition

/-- The number of values of an `unsigned`. -/
def unsignedRange : ℕ := 2 ^ 32

/-- `memcpy`, which may neither read nor write past the end of a buffer. -/
def memcpy (dst src : Bytes) (n : ℕ) : Except Fault Bytes :=
  if n ≤ dst.length ∧ n ≤ src.length then .ok (src.take n ++ dst.drop n)
  else .error .bufferOverflow

theorem memcpy_eq_ok_iff {dst src r : Bytes} {n : ℕ} :
    memcpy dst src n = .ok r ↔
      n ≤ dst.length ∧ n ≤ src.length ∧ r = src.take n ++ dst.drop n := by
  unfold memcpy
  split
  · rename_i h
    simp [h, eq_comm]
  · rename_i h
    simp only [reduceCtorEq, false_iff]
    exact fun h' => h ⟨h'.1, h'.2.1⟩

/-- A copy of the size of both buffers is the source. -/
theorem memcpy_full {dst src : Bytes} {n : ℕ} (hdst : dst.length = n) (hsrc : n ≤ src.length) :
    memcpy dst src n = .ok (src.take n) := by
  rw [memcpy, if_pos ⟨hdst.ge, hsrc⟩, List.drop_of_length_le hdst.le, List.append_nil]

/-- `BMDOutputFrameCompletionResult` -/
inductive CompletionResult where
  | completed
  | displayedLate
  | dropped
  | flushed
deriving DecidableEq, Repr

/-- What DeckLink tells of the display mode in use. The picture size fits an
`unsigned`, and every display time that a slot number can lead to fits a
`BMDTimeValue`. -/
structure DisplayMode where
  width : ℕ
  height : ℕ
  duration : ℕ
  size_lt : width * height * 4 < unsignedRange
  duration_pos : 0 < duration
  duration_lt : duration < 2 ^ 31

namespace DisplayMode

/-- The bytes of a picture that fills the frame. -/
def size (mode : DisplayMode) : ℕ := mode.width * mode.height * 4

/-- The picture that the constructor fills the frames with. -/
def white (mode : DisplayMode) : Bytes := List.replicate mode.size 0xFF

end DisplayMode

/-- The address of an `IDeckLink`. -/
abbrev Link := ℕ

/-- The number of a frame object in the order of creation. -/
abbrev FrameId := ℕ

/-- A call of `ScheduleVideoFrame`. The pixels that the frame had then and the
completion that the call answers, if any, are kept for the record. -/
structure ScheduleCall where
  frame : FrameId
  displayTime : ℕ
  pixels : Bytes
  answers : Option CompletionResult

/-- The DeckLink side of an output: the pixels of the frame objects, the frames
scheduled and not yet handed back, and all the calls made so far. -/
structure LinkOutput where
  frames : List Bytes := []
  held : List ScheduleCall := []
  calls : List ScheduleCall := []

namespace LinkOutput

/-- `CreateVideoFrame`, with the `memset` that follows it. -/
def createVideoFrame (l : LinkOutput) (pixels : Bytes) : LinkOutput :=
  { l with frames := l.frames ++ [pixels] }

/-- `ScheduleVideoFrame` -/
def scheduleVideoFrame (l : LinkOutput) (frame : FrameId) (displayTime : ℕ)
    (answers : Option CompletionResult) : LinkOutput :=
  let call := ⟨frame, displayTime, l.frames[frame]?.getD [], answers⟩
  { l with held := l.held ++ [call], calls := l.calls ++ [call] }

/-- The bytes behind `GetBytes`. -/
def getBytes (l : LinkOutput) (frame : FrameId) : Except Fault Bytes :=
  match l.frames[frame]? with
  | none => .error .bufferOverflow
  | some pixels => .ok pixels

/-- A `memcpy` into the bytes behind `GetBytes`. -/
def fill (l : LinkOutput) (frame : FrameId) (src : Bytes) (n : ℕ) :
    Except Fault LinkOutput := do
  let pframe ← l.getBytes frame
  let pixels ← memcpy pframe src n
  return { l with frames := l.frames.set frame pixels }

end LinkOutput

theorem memcpy_eq_error {dst src : Bytes} {n : ℕ} {e : Fault}
    (h : memcpy dst src n = .error e) : e = .bufferOverflow := by
  unfold memcpy at h
  split at h
  · cases h
  · exact (Except.error.inj h).symm

theorem LinkOutput.getBytes_eq_error {l : LinkOutput} {frame : FrameId} {e : Fault}
    (h : l.getBytes frame = .error e) : e = .bufferOverflow := by
  unfold getBytes at h
  split at h
  · exact (Except.error.inj h).symm
  · cases h

/-- The memory behind a frame is all that can go wrong in filling it. -/
theorem LinkOutput.fill_eq_error {l : LinkOutput} {frame : FrameId} {src : Bytes} {n : ℕ}
    {e : Fault} (h : l.fill frame src n = .error e) : e = .bufferOverflow := by
  rcases bind_eq_error_iff.1 h with h | ⟨pframe, -, h⟩
  · exact getBytes_eq_error h
  · rcases bind_eq_error_iff.1 h with h | ⟨pixels, -, h⟩
    · exact memcpy_eq_error h
    · cases h

/-- The members of `Output` that the frames pass through. -/
structure Output where
  link : Link
  width : ℕ
  height : ℕ
  duration : ℕ
  totalFramesScheduled : ℕ := 0
  lastFrame : Bytes := []
  outputFrames : List FrameId := []
  completedFrames : List FrameId := []
  linkOutput : LinkOutput := {}

/-- The codes that `setFrame` returns. -/
inductive HResult where
  | ok
  | outOfMemory
deriving DecidableEq, Repr

namespace Output

/-- One turn of the loop in the constructor. -/
def createFrame (mode : DisplayMode) (o : Output) (i : ℕ) : Output :=
  let outputFrame := o.linkOutput.frames.length
  let linkOutput := o.linkOutput.createVideoFrame mode.white
  let o :=
    if i < 5 then
      { o with
        linkOutput := linkOutput.scheduleVideoFrame outputFrame
          (o.totalFramesScheduled * o.duration) none }
    else
      { o with
        linkOutput := linkOutput
        completedFrames := o.completedFrames ++ [outputFrame] }
  { o with totalFramesScheduled := (o.totalFramesScheduled + 1) % unsignedRange }

/-- `Output::Output` -/
def new (link : Link) (mode : DisplayMode) : Output :=
  let o : Output :=
    { link := link, width := mode.width, height := mode.height, duration := mode.duration }
  let o := (List.range 10).foldl (createFrame mode) o
  { o with lastFrame := mode.white }

/-- `_width*_height*4`, an `unsigned`. -/
def copySize (o : Output) : ℕ := o.width * o.height * 4 % unsignedRange

/-- `Output::setFrame`. The pixel size that it is given is not used. -/
def setFrame (o : Output) (frame : Bytes) (framelen width height : ℕ) :
    Except Fault (HResult × Output) :=
  match o.completedFrames with
  | [] => .ok (.outOfMemory, o)
  | outframe :: completedFrames => do
      let linkOutput ← o.linkOutput.fill outframe frame framelen
      return (.ok,
        { o with
          completedFrames := completedFrames
          outputFrames := o.outputFrames ++ [outframe]
          linkOutput := linkOutput
          width := width
          height := height })

/-- The first half of `ScheduledFrameCompleted`: the frame to schedule, which
gets the last picture again when none is waiting. -/
def nextFrame (o : Output) (device : FrameId) : Except Fault (FrameId × Output) :=
  let completedFrames := o.completedFrames ++ [device]
  match o.outputFrames with
  | [] =>
      match completedFrames with
      | [] => .error .emptyQueue
      | outframe :: completedFrames => do
          let linkOutput ← o.linkOutput.fill outframe o.lastFrame o.copySize
          return (outframe,
            { o with completedFrames := completedFrames, linkOutput := linkOutput })
  | outframe :: outputFrames => do
      let pframe ← o.linkOutput.getBytes outframe
      let lastFrame ← memcpy o.lastFrame pframe o.copySize
      return (outframe,
        { o with
          completedFrames := completedFrames
          outputFrames := outputFrames
          lastFrame := lastFrame })

end Output

/-- What a completion adds to the frame counter before the next frame is
scheduled. -/
def CompletionResult.skips : CompletionResult → ℕ
  | .displayedLate => 2
  | .dropped => 2
  | _ => 0

namespace Output

/-- The output after a granted request of `ScheduledFrameCompleted`. -/
def scheduled (o : Output) (outframe : FrameId) (result : CompletionResult) : Output :=
  let total := (o.totalFramesScheduled + result.skips) % unsignedRange
  { o with
    linkOutput :=
      o.linkOutput.scheduleVideoFrame outframe (total * o.duration) (some result)
    totalFramesScheduled := (total + 1) % unsignedRange }

/-- `Output::ScheduledFrameCompleted`, where DeckLink grants the request for the
next frame or not. -/
def scheduledFrameCompleted (o : Output) (device : FrameId) (result : CompletionResult)
    (granted : Bool) : Except Fault Output := do
  let (outframe, o) ← o.nextFrame device
  if granted then return o.scheduled outframe result else .error .panic

/-- DeckLink hands back the `k`-th of the frames that it holds. -/
def handBack (o : Output) (k : ℕ) : Option (FrameId × Output) :=
  o.linkOutput.held[k]?.map fun call =>
    (call.frame,
      { o with linkOutput := { o.linkOutput with held := o.linkOutput.held.eraseIdx k } })

@[simp] theorem new_link (link : Link) (mode : DisplayMode) : (new link mode).link = link := rfl

end Output

end Bres
