import Bres.Basic.Instance
import Mathlib.Logic.Function.Basic

/-!
# The queues of an instance

`src/event.cc`: the three queues of signaling and audio events, guarded by
`mtx_`, and the two queues of picture buffers, guarded by `mtx_image_`. Each
function holds its lock from beginning to end, so each is one step.

`eventInit` allocates thirty zeroed buffers and queues them as empty. A buffer
is named by its position in `imageHeap`, so the new ones are numbered from the
present length on.
-/

namespace Bres

namespace Instance

/-- The queue that an `EVENT_ORDER` names. -/
def events (inst : Instance) : EventOrder → List SEvent
  | .websocketsToWebrtc => inst.eventsWebsocketsToWebrtc
  | .webrtcToWebsockets => inst.eventsWebrtcToWebsockets
  | .audio => inst.eventsAudio

def setEvents (inst : Instance) (order : EventOrder) (es : List SEvent) : Instance :=
  match order with
  | .websocketsToWebrtc => { inst with eventsWebsocketsToWebrtc := es }
  | .webrtcToWebsockets => { inst with eventsWebrtcToWebsockets := es }
  | .audio => { inst with eventsAudio := es }

end Instance

/-- `push_event` -/
def pushEvent (inst : Instance) (order : EventOrder) (type : EventType)
    (event : Bytes) : Instance :=
  inst.setEvents order (inst.events order ++ [⟨type, event⟩])

/-- `pop_event`, with `none` where it returns `false`. -/
def popEvent (inst : Instance) (order : EventOrder) : Option (SEvent × Instance) :=
  match inst.events order with
  | [] => none
  | e :: es => some (e, inst.setEvents order es)

/-- `event_init` -/
def eventInit (inst : Instance) : Instance :=
  { inst with
    imageHeap := inst.imageHeap ++ List.replicate 30 Picture.zero
    eventsImageEmpty :=
      inst.eventsImageEmpty ++ List.range' inst.imageHeap.length 30 }

/-- The two queues of picture buffers. -/
inductive ImageQueue where
  | empty
  | current
deriving DecidableEq, Repr

namespace Instance

/-- The queue behind `EVENT_TYPE_EMPTY_IMAGE` or `EVENT_TYPE_CURRENT_IMAGE`. -/
def images (inst : Instance) : ImageQueue → List Addr
  | .empty => inst.eventsImageEmpty
  | .current => inst.eventsImageCurrent

def setImages (inst : Instance) (queue : ImageQueue) (as : List Addr) : Instance :=
  match queue with
  | .empty => { inst with eventsImageEmpty := as }
  | .current => { inst with eventsImageCurrent := as }

end Instance

/-- `push_bin_event` -/
def pushBinEvent (inst : Instance) (queue : ImageQueue) (addr : Addr) : Instance :=
  inst.setImages queue (inst.images queue ++ [addr])

/-- `pop_bin_event`, with `none` where it returns `false`. -/
def popBinEvent (inst : Instance) (queue : ImageQueue) : Option (Addr × Instance) :=
  match inst.images queue with
  | [] => none
  | a :: as => some (a, inst.setImages queue as)

theorem popEvent_eq_some_iff {inst inst' : Instance} {order : EventOrder} {e : SEvent} :
    popEvent inst order = some (e, inst') ↔
      ∃ es, inst.events order = e :: es ∧ inst' = inst.setEvents order es := by
  unfold popEvent
  cases h : inst.events order with
  | nil => simp
  | cons a es =>
      simp only [Option.some.injEq, Prod.mk.injEq, List.cons.injEq]
      constructor
      · rintro ⟨rfl, rfl⟩
        exact ⟨es, ⟨rfl, rfl⟩, rfl⟩
      · rintro ⟨es', ⟨rfl, rfl⟩, rfl⟩
        exact ⟨rfl, rfl⟩

/-- The two ways of a function that looks for an event. -/
theorem popEvent_cases {β : Type} {inst : Instance} {order : EventOrder} {empty result : β}
    {handle : SEvent → Instance → β}
    (h : (match popEvent inst order with
      | none => empty
      | some (e, inst') => handle e inst') = result) :
    (inst.events order = [] ∧ empty = result) ∨
      ∃ e es, inst.events order = e :: es ∧ handle e (inst.setEvents order es) = result := by
  unfold popEvent at h
  cases hevents : inst.events order with
  | nil =>
      rw [hevents] at h
      exact .inl ⟨rfl, h⟩
  | cons e es =>
      rw [hevents] at h
      exact .inr ⟨e, es, rfl, h⟩

theorem popBinEvent_eq_some_iff {inst inst' : Instance} {queue : ImageQueue} {a : Addr} :
    popBinEvent inst queue = some (a, inst') ↔
      ∃ as, inst.images queue = a :: as ∧ inst' = inst.setImages queue as := by
  unfold popBinEvent
  cases h : inst.images queue with
  | nil => simp
  | cons b as =>
      simp only [Option.some.injEq, Prod.mk.injEq, List.cons.injEq]
      constructor
      · rintro ⟨rfl, rfl⟩
        exact ⟨as, ⟨rfl, rfl⟩, rfl⟩
      · rintro ⟨as', ⟨rfl, rfl⟩, rfl⟩
        exact ⟨rfl, rfl⟩

theorem popBinEvent_eq_none_iff {inst : Instance} {queue : ImageQueue} :
    popBinEvent inst queue = none ↔ inst.images queue = [] := by
  unfold popBinEvent
  cases inst.images queue <;> simp

theorem events_setEvents (inst : Instance) (order : EventOrder) (es : List SEvent) :
    (inst.setEvents order es).events = Function.update inst.events order es := by
  funext other
  cases order <;> cases other <;> rfl

theorem images_setEvents (inst : Instance) (order : EventOrder) (es : List SEvent) :
    (inst.setEvents order es).images = inst.images := by
  funext queue
  cases order <;> cases queue <;> rfl

theorem imageHeap_setEvents (inst : Instance) (order : EventOrder) (es : List SEvent) :
    (inst.setEvents order es).imageHeap = inst.imageHeap := by
  cases order <;> rfl

end Bres
