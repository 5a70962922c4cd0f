import Bres.Pool.Threads

/-!
# The members that only `main` writes

A command changes the quit flag of a slot, its use, its threads and its connection in
several stages. The threads of the program write none of these members, and the two that
they look at only hold a thread back. So a thread that works on a slot in the middle of a
command does there what it does on the whole slot.
-/

namespace Bres

open Transition

/-- The members that a command changes in stages. -/
structure Control where
  quit : Bool
  isDraw : UInt32
  instanceEnum : InstanceEnum
  eventDispatchThread : StdThread
  websocketsThread : StdThread
  context : Handle
  websocket : Handle

def Instance.withControl (inst : Instance) (c : Control) : Instance :=
  { inst with
    quit := c.quit
    isDraw := c.isDraw
    instanceEnum := c.instanceEnum
    eventDispatchThread := c.eventDispatchThread
    websocketsThread := c.websocketsThread
    context := c.context
    websocket := c.websocket }

def Slot.withControl (s : Slot) (c : Control) : Slot := ⟨s.inst.withControl c, s.hands⟩

/-- The members hold a thread back that would be held back by those of `inst`. -/
structure Control.Within (c : Control) (inst : Instance) : Prop where
  used : c.instanceEnum ≠ .min → inst.instanceEnum ≠ .min
  joinable : c.eventDispatchThread = .joinable → inst.eventDispatchThread = .joinable

variable {parse : Bytes → Option Json} {s t : Slot} {c : Control}

/-! ## The queues -/

theorem events_withControl (inst : Instance) (c : Control) :
    (inst.withControl c).events = inst.events := by
  funext order
  cases order <;> rfl

theorem setEvents_withControl (inst : Instance) (c : Control) (order : EventOrder)
    (es : List SEvent) :
    (inst.withControl c).setEvents order es = (inst.setEvents order es).withControl c := by
  cases order <;> rfl

theorem pushEvent_withControl (inst : Instance) (c : Control) (order : EventOrder)
    (type : EventType) (event : Bytes) :
    pushEvent (inst.withControl c) order type event =
      (pushEvent inst order type event).withControl c := by
  rw [pushEvent, events_withControl, setEvents_withControl, pushEvent]

theorem popEvent_withControl (inst : Instance) (c : Control) (order : EventOrder) :
    popEvent (inst.withControl c) order =
      (popEvent inst order).map fun r => (r.1, r.2.withControl c) := by
  simp only [popEvent, events_withControl, setEvents_withControl]
  cases inst.events order <;> rfl

theorem images_withControl (inst : Instance) (c : Control) :
    (inst.withControl c).images = inst.images := by
  funext queue
  cases queue <;> rfl

theorem setImages_withControl (inst : Instance) (c : Control) (queue : ImageQueue)
    (as : List Addr) :
    (inst.withControl c).setImages queue as = (inst.setImages queue as).withControl c := by
  cases queue <;> rfl

theorem pushBinEvent_withControl (inst : Instance) (c : Control) (queue : ImageQueue)
    (addr : Addr) :
    pushBinEvent (inst.withControl c) queue addr =
      (pushBinEvent inst queue addr).withControl c := by
  rw [pushBinEvent, images_withControl, setImages_withControl, pushBinEvent]

theorem popBinEvent_withControl (inst : Instance) (c : Control) (queue : ImageQueue) :
    popBinEvent (inst.withControl c) queue =
      (popBinEvent inst queue).map fun r => (r.1, r.2.withControl c) := by
  simp only [popBinEvent, images_withControl, setImages_withControl]
  cases inst.images queue <;> rfl

/-! ## The steps of the threads -/

theorem slotStep_withControl (s : Slot) (c : Control) (a : SlotAction) :
    slotStep (s.withControl c) a = (slotStep s a).map (·.withControl c) := by
  cases a with
  | framePop picture =>
      simp only [slotStep, Slot.withControl, popBinEvent_withControl]
      cases popBinEvent s.inst .empty <;> rfl
  | frameFill k =>
      simp only [slotStep, Slot.withControl]
      cases s.hands.decoders[k]? <;> rfl
  | framePush k =>
      simp only [slotStep, Slot.withControl, pushBinEvent_withControl]
      cases s.hands.decoders[k]? with
      | none => rfl
      | some call => cases h : call.filled <;> simp [h]
  | collectPop =>
      simp only [slotStep, Slot.withControl, popBinEvent_withControl]
      cases s.hands.renderer with
      | some held => rfl
      | none => cases popBinEvent s.inst .current <;> rfl
  | collectCopy =>
      simp only [slotStep, Slot.withControl]
      rcases s.hands.renderer with _ | ⟨addr, _ | _⟩
      · rfl
      · have hheap : (s.inst.withControl c).imageHeap = s.inst.imageHeap := rfl
        have hbuffer : (s.inst.withControl c).lastTextureBuffer = s.inst.lastTextureBuffer := rfl
        simp only [hheap, hbuffer]
        cases s.inst.imageHeap[addr]? with
        | none => rfl
        | some picture =>
            dsimp only
            cases copyPicture s.inst.lastTextureBuffer picture <;> rfl
      · rfl
  | collectPush =>
      simp only [slotStep, Slot.withControl, pushBinEvent_withControl]
      rcases s.hands.renderer with _ | ⟨addr, _ | _⟩ <;> rfl

theorem clientReceive_withControl {inst inst' : Instance} {payload : Bytes}
    (h : clientReceive parse (inst.withControl c) payload = .done inst') :
    ∃ received, clientReceive parse inst payload = .done received ∧
      inst' = received.withControl c := by
  obtain ⟨hlength, type, htype, rfl⟩ := clientReceive_eq_done h
  refine ⟨_, clientReceive_of_isOfType inst hlength htype, ?_⟩
  have hcopied : (inst.withControl c).copied payload =
      (inst.copied payload).withControl c := rfl
  simp only [Instance.received, hcopied, pushEvent_withControl]
  split
  · rfl
  · split <;> rfl

theorem websocketsEvent_withControl (inst : Instance) (c : Control) (type : EventType)
    (event : Bytes) :
    websocketsEvent parse (inst.withControl c) type event =
      (websocketsEvent parse inst type event).mapState fun r => (r.1.withControl c, r.2) := by
  unfold websocketsEvent
  cases parse event with
  | none => rfl
  | some json => cases type.isOutgoing <;> rfl

theorem SlotAction.Allowed.of_withControl {inst : Instance} {a : SlotAction}
    (hc : c.Within inst) (h : a.Allowed (inst.withControl c)) : a.Allowed inst := by
  cases a with
  | framePop picture => exact h
  | collectPop => exact hc.used h
  | _ => trivial

/-- What a thread does on a slot in the middle of a command, it does on the whole slot. -/
theorem threadStep_withControl {a : ThreadAction} (hc : c.Within s.inst)
    (h : threadStep parse (s.withControl c) a = some t) :
    ∃ whole, threadStep parse s a = some whole ∧ t = whole.withControl c := by
  cases a with
  | exchange a =>
      obtain ⟨hallowed, h⟩ := Option.ite_none_right_eq_some.1 h
      rw [slotStep_withControl] at h
      obtain ⟨whole, hstep, rfl⟩ := Option.map_eq_some_iff.1 h
      exact ⟨whole, by rw [threadStep, if_pos (hallowed.of_withControl hc), hstep], rfl⟩
  | onData pcm =>
      obtain ⟨hlive, h⟩ := Option.ite_none_right_eq_some.1 h
      obtain rfl := Option.some.inj h
      exact ⟨_, if_pos hlive, rfl⟩
  | send type text =>
      obtain ⟨hlive, h⟩ := Option.ite_none_right_eq_some.1 h
      obtain rfl := Option.some.inj h
      exact ⟨_, if_pos hlive, rfl⟩
  | receive payload =>
      obtain ⟨hlive, h⟩ := Option.ite_none_right_eq_some.1 h
      have hwhole : s.inst.rtc.peerConnectionFactory = .live := hlive
      cases hreceive : clientReceive parse (s.inst.withControl c) payload with
      | thrown e inst => simp [Slot.withControl, hreceive] at h
      | done inst =>
          obtain ⟨received, hreceived, rfl⟩ := clientReceive_withControl hreceive
          simp only [Slot.withControl, hreceive] at h
          obtain rfl := Option.some.inj h
          refine ⟨⟨received, s.hands⟩, ?_, rfl⟩
          rw [threadStep, if_pos hwhole, hreceived]
  | webrtcEvent peerConnection =>
      obtain ⟨hthread, h⟩ := Option.ite_none_right_eq_some.1 h
      simp only [Slot.withControl, popEvent_withControl] at h
      have hwhole := hc.joinable hthread
      cases hpop : popEvent s.inst .websocketsToWebrtc with
      | none =>
          rw [hpop] at h
          obtain rfl := Option.some.inj h
          exact ⟨s, by rw [threadStep, if_pos hwhole, hpop], rfl⟩
      | some r =>
          rw [hpop] at h
          obtain rfl := Option.some.inj h
          exact ⟨_, by rw [threadStep, if_pos hwhole, hpop], rfl⟩
  | websocketsEvent =>
      obtain ⟨hthread, h⟩ := Option.ite_none_right_eq_some.1 h
      simp only [Slot.withControl, popEvent_withControl] at h
      have hwhole := hc.joinable hthread
      cases hpop : popEvent s.inst .webrtcToWebsockets with
      | none =>
          rw [hpop] at h
          obtain rfl := Option.some.inj h
          exact ⟨s, by rw [threadStep, if_pos hwhole, hpop], rfl⟩
      | some r =>
          simp only [hpop, Option.map_some, websocketsEvent_withControl] at h
          cases hevent : websocketsEvent parse r.2 r.1.type r.1.event with
          | thrown e x => simp [hevent] at h
          | done x =>
              simp only [hevent, Outcome.mapState_done] at h
              obtain rfl := Option.some.inj h
              refine ⟨⟨x.1, s.hands⟩, ?_, rfl⟩
              rw [threadStep, if_pos hwhole, hpop]
              simp only [hevent]
  | audio =>
      obtain ⟨hused, h⟩ := Option.ite_none_right_eq_some.1 h
      simp only [Slot.withControl, popEvent_withControl] at h
      have hwhole := hc.used hused
      cases hpop : popEvent s.inst .audio with
      | none =>
          rw [hpop] at h
          obtain rfl := Option.some.inj h
          exact ⟨s, by rw [threadStep, if_pos hwhole, hpop], rfl⟩
      | some r =>
          rw [hpop] at h
          obtain rfl := Option.some.inj h
          exact ⟨_, by rw [threadStep, if_pos hwhole, hpop], rfl⟩

end Bres
