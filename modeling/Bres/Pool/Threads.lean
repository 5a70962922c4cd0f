import Bres.Exchange.Custody
import Bres.Signaling.Webrtc
import Bres.Signaling.Websockets

/-!
# The threads that work on a slot

Next to the command that sets a slot up, these run on it at any time: the
callbacks of WebRTC and of the websocket as long as their objects are alive, the
dispatch thread as long as it has not been joined, the audio callback and the
collection as long as the slot is not free. Each handler that holds a lock, or
that only one thread runs, is one step; a handler that throws ends the program,
so it is no step.

What libwebrtc does with an offer is outside: `webrtcEvent` says only what is
left in `webrtc_peer_connection`.
-/

namespace Bres

open Transition

inductive ThreadAction where
  /-- `OnFrame`, or the collection of `main`. -/
  | exchange (a : SlotAction)
  /-- `OnData`, with the block it has put together. -/
  | onData (pcm : Bytes)
  /-- `OnIceCandidate`, an answer, or `LWS_CALLBACK_CLIENT_ESTABLISHED`. -/
  | send (type : EventType) (text : Bytes)
  /-- `LWS_CALLBACK_CLIENT_RECEIVE` -/
  | receive (payload : Bytes)
  /-- The dispatch thread, from websockets to WebRTC. -/
  | webrtcEvent (peerConnection : Handle)
  /-- The dispatch thread, from WebRTC to websockets. -/
  | websocketsEvent
  /-- `audioCallback`, the part for one slot. -/
  | audio

/-- An `OnFrame` call starts while the connection is there, and a collection
while the slot is not free. -/
def SlotAction.Allowed (inst : Instance) : SlotAction → Prop
  | .framePop _ => inst.rtc.peerConnectionFactory = .live
  | .collectPop => inst.instanceEnum ≠ .min
  | _ => True

instance (inst : Instance) : ∀ a : SlotAction, Decidable (a.Allowed inst)
  | .framePop _ => inferInstanceAs (Decidable (_ = _))
  | .frameFill _ => inferInstanceAs (Decidable True)
  | .framePush _ => inferInstanceAs (Decidable True)
  | .collectPop => inferInstanceAs (Decidable (_ ≠ _))
  | .collectCopy => inferInstanceAs (Decidable True)
  | .collectPush => inferInstanceAs (Decidable True)

def threadStep (parse : Bytes → Option Json) (s : Slot) : ThreadAction → Option Slot
  | .exchange a => if a.Allowed s.inst then slotStep s a else none
  | .onData pcm =>
      if s.inst.rtc.peerConnectionFactory = .live then
        some ⟨pushEvent s.inst .audio .audio pcm, s.hands⟩
      else none
  | .send type text =>
      if s.inst.rtc.peerConnectionFactory = .live ∧ type.isOutgoing then
        some ⟨pushEvent s.inst .webrtcToWebsockets type text, s.hands⟩
      else none
  | .receive payload =>
      if s.inst.rtc.peerConnectionFactory = .live then
        match clientReceive parse s.inst payload with
        | .thrown _ _ => none
        | .done inst => some ⟨inst, s.hands⟩
      else none
  | .webrtcEvent peerConnection =>
      if s.inst.eventDispatchThread = .joinable then
        match popEvent s.inst .websocketsToWebrtc with
        | none => some s
        | some (_, inst) =>
            some ⟨{ inst with rtc := { inst.rtc with peerConnection := peerConnection } },
              s.hands⟩
      else none
  | .websocketsEvent =>
      if s.inst.eventDispatchThread = .joinable then
        match popEvent s.inst .webrtcToWebsockets with
        | none => some s
        | some (e, inst) =>
            match websocketsEvent parse inst e.type e.event with
            | .thrown _ _ => none
            | .done (inst, _) => some ⟨inst, s.hands⟩
      else none
  | .audio =>
      if s.inst.instanceEnum ≠ .min then
        match popEvent s.inst .audio with
        | none => some s
        | some (_, inst) => some ⟨inst, s.hands⟩
      else none

/-! ## What the threads leave alone -/

namespace Instance

/-- The record without what the threads write: the queues, the buffers, the
receive and send texts and the peer connection. Of `lastTextureBuffer` only the
size is kept. -/
def frozen (inst : Instance) : Instance :=
  { inst with
    recvBuffer := []
    recvWritten := 0
    sendTarget := []
    rtc := { inst.rtc with peerConnection := .null }
    eventsWebsocketsToWebrtc := []
    eventsWebrtcToWebsockets := []
    eventsAudio := []
    eventsImageEmpty := []
    eventsImageCurrent := []
    imageHeap := []
    lastTextureBuffer := List.replicate inst.lastTextureBuffer.length 0 }

/-- The pictures of the slot, and everything else that the threads leave alone. -/
structure SamePictures (inst inst' : Instance) : Prop where
  frozen : inst'.frozen = inst.frozen
  images : inst'.images = inst.images
  heap : inst'.imageHeap = inst.imageHeap

theorem SamePictures.refl (inst : Instance) : inst.SamePictures inst := ⟨rfl, rfl, rfl⟩

theorem SamePictures.trans {inst₁ inst₂ inst₃ : Instance} (h : inst₁.SamePictures inst₂)
    (h' : inst₂.SamePictures inst₃) : inst₁.SamePictures inst₃ :=
  ⟨h'.frozen.trans h.frozen, h'.images.trans h.images, h'.heap.trans h.heap⟩

theorem samePictures_setEvents (inst : Instance) (order : EventOrder) (es : List SEvent) :
    inst.SamePictures (inst.setEvents order es) :=
  ⟨by cases order <;> rfl, images_setEvents .., imageHeap_setEvents ..⟩

end Instance

theorem SlotStep.frozen {s t : Slot} {a : SlotAction} (h : SlotStep s a t) :
    t.inst.frozen = s.inst.frozen := by
  cases h with
  | @copied b picture hrenderer hpicture hfits =>
      have hlength : (picture.bytes ++ s.inst.lastTextureBuffer.drop pictureBytes).length =
          s.inst.lastTextureBuffer.length := by
        rw [List.length_append, picture.size_eq, List.length_drop]
        omega
      simp only [Instance.frozen, hlength]
  | _ => rfl

/-- What a thread can do to a slot in one step: exchange a picture, queue an event
for a connection that is alive, take one that its reader may take, or neither. -/
inductive ThreadStep (s : Slot) : Slot → Prop where
  | exchange {a : SlotAction} {t : Slot} (hallowed : a.Allowed s.inst)
      (h : SlotStep s a t) : ThreadStep s t
  | quiet {inst : Instance} (hsame : s.inst.SamePictures inst)
      (hevents : inst.events = s.inst.events) : ThreadStep s ⟨inst, s.hands⟩
  | queued {inst : Instance} {order : EventOrder} {e : SEvent}
      (hsame : s.inst.SamePictures inst)
      (hlive : s.inst.rtc.peerConnectionFactory = .live)
      (hevents : inst.events =
        Function.update s.inst.events order (s.inst.events order ++ [e])) :
      ThreadStep s ⟨inst, s.hands⟩
  | taken {inst : Instance} {order : EventOrder} {e : SEvent} {es : List SEvent}
      (hsame : s.inst.SamePictures inst) (hhead : s.inst.events order = e :: es)
      (hreader : if order = .audio then s.inst.instanceEnum ≠ .min
        else s.inst.eventDispatchThread = .joinable)
      (hevents : inst.events = Function.update s.inst.events order es) :
      ThreadStep s ⟨inst, s.hands⟩

theorem ThreadStep.pushed {s : Slot} {received : Instance} (order : EventOrder)
    (type : EventType) (event : Bytes) (hsame : s.inst.SamePictures received)
    (hlive : s.inst.rtc.peerConnectionFactory = .live)
    (hevents : received.events = s.inst.events) :
    ThreadStep s ⟨pushEvent received order type event, s.hands⟩ := by
  have hpushed : (pushEvent received order type event).events =
      Function.update s.inst.events order (s.inst.events order ++ [⟨type, event⟩]) := by
    rw [pushEvent, events_setEvents, hevents]
  exact .queued (hsame.trans (received.samePictures_setEvents ..)) hlive hpushed

theorem ThreadStep.popped {s : Slot} {inst : Instance} {order : EventOrder} {e : SEvent}
    {es : List SEvent} (hqueue : s.inst.events order = e :: es)
    (hreader : if order = .audio then s.inst.instanceEnum ≠ .min
      else s.inst.eventDispatchThread = .joinable)
    (hsame : (s.inst.setEvents order es).SamePictures inst)
    (hevents : inst.events = (s.inst.setEvents order es).events) :
    ThreadStep s ⟨inst, s.hands⟩ := by
  refine .taken ((s.inst.samePictures_setEvents ..).trans hsame) hqueue hreader ?_
  rw [hevents, events_setEvents]

theorem clientReceive_threadStep {parse : Bytes → Option Json} {s : Slot} {inst : Instance}
    {payload : Bytes} (hlive : s.inst.rtc.peerConnectionFactory = .live)
    (h : clientReceive parse s.inst payload = .done inst) : ThreadStep s ⟨inst, s.hands⟩ := by
  obtain ⟨-, type, -, rfl⟩ := clientReceive_eq_done h
  have hsame : s.inst.SamePictures (s.inst.copied payload) :=
    ⟨rfl, s.inst.images_copied payload, rfl⟩
  have hevents := s.inst.events_copied payload
  unfold Instance.received
  split
  · exact .pushed _ _ _ hsame hlive hevents
  · split
    · exact .pushed _ _ _ hsame hlive hevents
    · exact .quiet hsame hevents

theorem websocketsEvent_sameEvents {parse : Bytes → Option Json} {inst inst' : Instance}
    {type : EventType} {event : Bytes} {requested : Bool}
    (h : websocketsEvent parse inst type event = .done (inst', requested)) :
    inst.SamePictures inst' ∧ inst'.events = inst.events := by
  obtain ⟨-, -, hevent⟩ | ⟨-, hevent⟩ | ⟨-, hevent⟩ := websocketsEvent_cases parse inst type event
  · cases hevent.symm.trans h
    refine ⟨⟨rfl, ?_, rfl⟩, ?_⟩
    · funext queue
      cases queue <;> rfl
    · funext order
      cases order <;> rfl
  · cases hevent.symm.trans h
    exact ⟨.refl inst, rfl⟩
  · cases hevent.symm.trans h

theorem threadStep_spec {parse : Bytes → Option Json} {s t : Slot} {a : ThreadAction}
    (h : threadStep parse s a = some t) : ThreadStep s t := by
  cases a with
  | exchange a =>
      obtain ⟨hallowed, h⟩ := Option.ite_none_right_eq_some.1 h
      exact .exchange hallowed (slotStep_spec h)
  | onData pcm =>
      obtain ⟨hlive, h⟩ := Option.ite_none_right_eq_some.1 h
      obtain rfl := Option.some.inj h
      exact .pushed _ _ _ (.refl _) hlive rfl
  | send type text =>
      obtain ⟨⟨hlive, -⟩, h⟩ := Option.ite_none_right_eq_some.1 h
      obtain rfl := Option.some.inj h
      exact .pushed _ _ _ (.refl _) hlive rfl
  | receive payload =>
      obtain ⟨hlive, h⟩ := Option.ite_none_right_eq_some.1 h
      cases hreceive : clientReceive parse s.inst payload with
      | thrown e inst => simp [hreceive] at h
      | done inst =>
          rw [hreceive] at h
          obtain rfl := Option.some.inj h
          exact clientReceive_threadStep hlive hreceive
  | webrtcEvent peerConnection =>
      obtain ⟨hjoinable, h⟩ := Option.ite_none_right_eq_some.1 h
      obtain ⟨-, h⟩ | ⟨e, es, hqueue, h⟩ := popEvent_cases h
      · cases h
        exact .quiet (.refl _) rfl
      · cases h
        refine .popped hqueue hjoinable ⟨rfl, ?_, rfl⟩ ?_
        · funext queue
          cases queue <;> rfl
        · funext order
          cases order <;> rfl
  | websocketsEvent =>
      obtain ⟨hjoinable, h⟩ := Option.ite_none_right_eq_some.1 h
      obtain ⟨-, h⟩ | ⟨e, es, hqueue, h⟩ := popEvent_cases h
      · cases h
        exact .quiet (.refl _) rfl
      · cases hevent : Bres.websocketsEvent parse (s.inst.setEvents .webrtcToWebsockets es)
          e.type e.event with
        | thrown x y => simp [hevent] at h
        | done r =>
            obtain ⟨inst', requested⟩ := r
            simp only [hevent] at h
            obtain rfl := Option.some.inj h
            obtain ⟨hsame, hevents⟩ := websocketsEvent_sameEvents hevent
            exact .popped hqueue hjoinable hsame hevents
  | audio =>
      obtain ⟨henum, h⟩ := Option.ite_none_right_eq_some.1 h
      obtain ⟨-, h⟩ | ⟨e, es, hqueue, h⟩ := popEvent_cases h
      · cases h
        exact .quiet (.refl _) rfl
      · cases h
        exact .popped hqueue henum (.refl _) rfl

theorem Slot.Custody.samePictures {s : Slot} {inst : Instance} (hs : s.Custody)
    (h : s.inst.SamePictures inst) : Slot.Custody ⟨inst, s.hands⟩ := by
  intro b
  have hempty : inst.eventsImageEmpty = s.inst.eventsImageEmpty := congrFun h.images .empty
  have hcurrent : inst.eventsImageCurrent = s.inst.eventsImageCurrent :=
    congrFun h.images .current
  simp only [Slot.places, hempty, hcurrent, h.heap]
  exact hs b

theorem SlotStep.decoders_ne_nil {s t : Slot} {a : SlotAction} (h : SlotStep s a t)
    (ht : t.hands.decoders ≠ []) :
    s.hands.decoders ≠ [] ∨ ∃ picture, a = .framePop picture := by
  cases h with
  | starved => exact .inr ⟨_, rfl⟩
  | popped => exact .inr ⟨_, rfl⟩
  | filled hcalls => exact .inl (by simp [hcalls])
  | pushed hk hcalls hfilled => exact .inl (by simp [hcalls])
  | _ => exact .inl ht

theorem ThreadStep.frozen {s t : Slot} (h : ThreadStep s t) :
    t.inst.frozen = s.inst.frozen := by
  cases h with
  | exchange hallowed h => exact h.frozen
  | quiet hsame => exact hsame.frozen
  | queued hsame => exact hsame.frozen
  | taken hsame => exact hsame.frozen

end Bres
