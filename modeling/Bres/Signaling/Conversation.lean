import Bres.Signaling.Connect
import Bres.Signaling.IceServers
import Bres.Signaling.Negotiation

/-!
# The conversation with the signaling server

One instance from the moment its connection is asked for: the callbacks of
libwebsockets, the dispatch thread with both of its halves, `webrtc_event` and the
observers of libwebrtc, interleaved in any order. The dispatch thread pops an event
from one queue, handles it, and turns to the other queue. A handler that throws ends the
program, so it is no step.

`ConversationStep` spells out what a step can do, and `Negotiation.InTurn` is what the
observers keep of the order of offers and answers.
-/

namespace Bres

open Transition

/-- `json["type"]` of a payload that can be read. -/
def payloadType (parse : Bytes → Option Json) (payload : Bytes) : Option String :=
  (parse payload).bind fun json => (json.find "type").bind Json.getString

/-- The event that carries a candidate, written by `dump`. -/
def candidateMessage (dump : Json → Bytes) (sdp : String) : Bytes :=
  dump (.object [("type", .string "candidate"), ("candidate", .string sdp)])

/-- `OnIceCandidate`, where the candidate has a text form or not. -/
def onIceCandidate (dump : Json → Bytes) (inst : Instance) : Option String → Instance
  | none => inst
  | some sdp => pushEvent inst .webrtcToWebsockets .candidate (candidateMessage dump sdp)

/-- `webrtc_event`. `describes` tells whether libwebrtc can make a session description
of a text. -/
def webrtcEvent (parse : Bytes → Option Json) (describes : String → Bool) (s : Negotiation)
    (type : EventType) (event : Bytes) : Except Exn Negotiation :=
  match parse event with
  | none => .error .parseError
  | some json =>
      if type = .offer then do
        let _ ← webrtcEventServers parse event
        let sdp ← json.stringAt "sdp"
        return s.webrtcOffer (describes sdp)
      else return s

/-- Where the dispatch thread is in its loop. -/
inductive DispatchPhase where
  | webrtc
  | offering (e : SEvent)
  | websockets
  | sending (e : SEvent)
deriving DecidableEq

/-- An instance in its conversation, with the record of what was received, of the
candidates found, of what was pushed for the server, of the events that the two halves
of the dispatch thread have handled, and of the texts written to the socket. No step
reads the record, but for the first write, which needs a request. -/
structure Conversation where
  negotiation : Negotiation
  phase : DispatchPhase := .webrtc
  connected : Bool := false
  received : List Bytes := []
  candidates : List String := []
  pushed : List SEvent := []
  handled : List SEvent := []
  stored : List SEvent := []
  written : List LwsWrite := []

inductive ConversationAction where
  | established
  | receive (payload : Bytes)
  | iceCandidate (sdp : Option String)
  | complete (k : ℕ) (success : Bool) (sdp : String)
  | dispatch
  | writeable

namespace Conversation

/-- The instance. -/
def inst (s : Conversation) : Instance := s.negotiation.inst

/-- The events for the server that have been pushed and not been popped. -/
def queue (s : Conversation) : List SEvent := s.inst.eventsWebrtcToWebsockets

/-- The conversation after a handler, with the events that it has pushed. -/
def after (s : Conversation) (n : Negotiation) : Conversation :=
  { s with
    negotiation := n
    pushed := s.pushed ++ n.inst.eventsWebrtcToWebsockets.drop s.queue.length }

def withInst (s : Conversation) (inst : Instance) : Conversation :=
  s.after { s.negotiation with inst := inst }

/-- The conversation with another state of the instance, where nothing was pushed. -/
def setInst (s : Conversation) (inst : Instance) : Conversation :=
  { s with negotiation := { s.negotiation with inst := inst } }

/-- The next step of the dispatch thread. -/
def dispatch (parse : Bytes → Option Json) (describes : String → Bool) (s : Conversation) :
    Option Conversation :=
  match s.phase with
  | .webrtc =>
      match popEvent s.inst .websocketsToWebrtc with
      | none => some { s with phase := .websockets }
      | some (e, inst) => some { s.setInst inst with phase := .offering e }
  | .offering e =>
      match webrtcEvent parse describes s.negotiation e.type e.event with
      | .error _ => none
      | .ok n =>
          some { s with negotiation := n, phase := .websockets, handled := s.handled ++ [e] }
  | .websockets =>
      match popEvent s.inst .webrtcToWebsockets with
      | none => some { s with phase := .webrtc }
      | some (e, inst) => some { s.setInst inst with phase := .sending e }
  | .sending e =>
      match websocketsEvent parse s.inst e.type e.event with
      | .thrown _ _ => none
      | .done (inst, _) =>
          some { s.setInst inst with phase := .webrtc, stored := s.stored ++ [e] }

def step (parse : Bytes → Option Json) (dump : Json → Bytes) (describes : String → Bool)
    (s : Conversation) : ConversationAction → Option Conversation
  | .established =>
      if s.connected then none
      else some { s.withInst (clientEstablished s.inst) with connected := true }
  | .receive payload =>
      if s.connected then
        match clientReceive parse s.inst payload with
        | .thrown _ _ => none
        | .done inst => some { s.withInst inst with received := s.received ++ [payload] }
      else none
  | .iceCandidate sdp =>
      if s.negotiation.connection.isSome then
        some { s.withInst (onIceCandidate dump s.inst sdp) with
          candidates := s.candidates ++ sdp.toList }
      else none
  | .complete k success sdp => (s.negotiation.step dump (.complete k success sdp)).map s.after
  | .dispatch => s.dispatch parse describes
  | .writeable =>
      if s.stored ≠ [] then some { s with written := s.written ++ [clientWriteable s.inst] }
      else none

/-- An instance whose connection has been asked for. -/
def start (inst : Instance) : Conversation := { negotiation := .start inst }

end Conversation

/-! ## The answers of a negotiation -/

theorem PeerConnection.addTrack_offer {c c' : PeerConnection} {track : MediaTrack}
    (h : c.addTrack track = .ok c') : c'.offer = c.offer := by
  unfold addTrack at h
  split at h
  · cases h
  · cases h
    rfl

theorem DescriptionObserver.onSuccess_offer {inst : Instance} {c c' : PeerConnection}
    {observer : DescriptionObserver} (h : observer.onSuccess inst c = .ok c') :
    c'.offer = c.offer := by
  cases observer with
  | setSessionDescriptionLocal =>
      cases h
      rfl
  | setSessionDescription =>
      rw [onSuccess, setSessionDescriptionOnSuccess] at h
      split at h
      · obtain ⟨c₁, hvideo, h⟩ := bind_eq_ok_iff.1 h
        obtain ⟨c₂, haudio, h⟩ := bind_eq_ok_iff.1 h
        cases h
        exact (PeerConnection.addTrack_offer haudio).trans (PeerConnection.addTrack_offer hvideo)
      · cases h
        rfl

namespace Negotiation

variable {dump : Json → Bytes} {s t : Negotiation}

/-- What a completed request does to the conversation: nothing, or it pushes the answer to
the offer of the connection. -/
structure Completed (dump : Json → Bytes) (sdp : String) (s t : Negotiation) : Prop where
  offers_eq : t.offers = s.offers
  connection : ∃ c c', s.connection = some c ∧ t.connection = some c' ∧ c'.offer = c.offer
  inst : (t.inst = s.inst ∧ t.answers = s.answers) ∨
    ∃ c, s.connection = some c ∧ t.answers = s.answers ++ [c.offer] ∧
      t.inst = pushEvent s.inst .webrtcToWebsockets .answer (answerMessage dump sdp)

theorem completed_described {c : PeerConnection} {n : ℕ} {sdp : String}
    {r : Except Fault PeerConnection} (hc : s.connection = some c)
    (hr : ∀ c', r = .ok c' → c'.offer = c.offer) :
    Completed dump sdp s (described { s with callbacks := n } r) := by
  cases r with
  | ok c' => exact ⟨rfl, ⟨c, c', hc, rfl, hr c' rfl⟩, .inl ⟨rfl, rfl⟩⟩
  | error e => exact ⟨rfl, ⟨c, c, hc, hc, rfl⟩, .inl ⟨rfl, rfl⟩⟩

theorem step_completed {k : ℕ} {success : Bool} {sdp : String}
    (h : s.step dump (.complete k success sdp) = some t) : Completed dump sdp s t := by
  obtain ⟨described, ha, -⟩ | ⟨k, success, sdp, c, r, ha, hc, -, h⟩ := step_eq_some h
  · cases ha
  cases ha
  cases success with
  | false =>
      cases r <;> cases h <;> exact ⟨rfl, ⟨c, _, hc, rfl, rfl⟩, .inl ⟨rfl, rfl⟩⟩
  | true =>
      cases r with
      | setRemoteDescription observer =>
          cases h
          exact completed_described hc fun _ hr => (DescriptionObserver.onSuccess_offer hr :)
      | setLocalDescription observer =>
          cases h
          exact completed_described hc fun _ hr => (DescriptionObserver.onSuccess_offer hr :)
      | createAnswer =>
          obtain ⟨-, h⟩ := Option.ite_none_right_eq_some.1 h
          cases h
          exact ⟨rfl, ⟨c, _, hc, rfl, rfl⟩, .inr ⟨c, hc, rfl, rfl⟩⟩

/-- The answers come in the order of their offers, and the connection belongs to the last
offer. -/
structure InTurn (s : Negotiation) : Prop where
  orderly : s.Orderly
  latest : ∀ c, s.connection = some c → c.offer + 1 = s.offers
  sorted : s.answers.Pairwise (· < ·)

theorem start_inTurn {inst : Instance} (h : inst.TracksMatchOrder) : (start inst).InTurn :=
  ⟨start_orderly h, fun c hc => absurd hc.symm (Option.some_ne_none c), .nil⟩

theorem InTurn.offer (hs : s.InTurn) (described : Bool) : (s.webrtcOffer described).InTurn where
  orderly := hs.orderly.offer described
  latest c hc := by
    obtain rfl := Option.some.inj hc
    cases described <;> rfl
  sorted := hs.sorted

/-- The exchange of offers and answers depends on the order of the instance and on its
tracks only. -/
theorem InTurn.setInst (hs : s.InTurn) {inst : Instance} (hinst : inst.frozen = s.inst.frozen) :
    InTurn { s with inst := inst } := by
  have horder : inst.order = s.inst.order := (congrArg Instance.order hinst :)
  have hvideo : inst.rtc.videoTrack = s.inst.rtc.videoTrack :=
    (congrArg (fun inst : Instance => inst.rtc.videoTrack) hinst :)
  have haudio : inst.rtc.audioTrack = s.inst.rtc.audioTrack :=
    (congrArg (fun inst : Instance => inst.rtc.audioTrack) hinst :)
  refine ⟨⟨hs.orderly.running, fun hsubscribe => ?_, hs.orderly.answers_nodup,
    hs.orderly.answers_lt, hs.orderly.callbacks_le, fun c hc => ?_⟩, hs.latest, hs.sorted⟩
  · have htracks := hs.orderly.tracks (horder.symm.trans hsubscribe)
    rwa [← hvideo, ← haudio] at htracks
  · obtain ⟨hoffer, hsenders, budget, hcourse, hbudget⟩ := hs.orderly.connection c hc
    have hobserver : localObserver inst = localObserver s.inst := by
      unfold localObserver
      rw [horder]
    refine ⟨hoffer, hsenders, budget, ?_, hbudget⟩
    cases hcourse with
    | offered hanswers => exact .offered hanswers
    | accepted hanswers => exact .accepted hanswers
    | answered =>
        rw [← hobserver]
        exact .answered
    | settled => exact .settled
    | ended hpending => exact .ended hpending

theorem InTurn.completed {k : ℕ} {success : Bool} {sdp : String} (hs : s.InTurn)
    (h : s.step dump (.complete k success sdp) = some t) : t.InTurn := by
  have horderly := hs.orderly.step h
  obtain ⟨hoffers, ⟨c, c', hc, hc', heq⟩, hinst⟩ := step_completed h
  refine ⟨horderly, fun d hd => ?_, ?_⟩
  · obtain rfl : c' = d := Option.some.inj (hc'.symm.trans hd)
    rw [heq, hoffers]
    exact hs.latest c hc
  · obtain ⟨-, hanswers⟩ | ⟨d, hd, hanswers, -⟩ := hinst
    · rw [hanswers]
      exact hs.sorted
    · have hlatest := hs.latest d hd
      have hnodup := horderly.answers_nodup
      rw [hanswers] at hnodup ⊢
      refine List.pairwise_append.2 ⟨hs.sorted, List.pairwise_singleton .., ?_⟩
      intro m hm n hn
      obtain rfl := List.mem_singleton.1 hn
      -- All earlier answers are to offers so far, and this one is new.
      have hlt := hs.orderly.answers_lt m hm
      have hne := (List.nodup_append.1 hnodup).2.2 m hm d.offer hn
      omega

end Negotiation

/-! ## One step -/

namespace Conversation

/-- An event is pushed for the server. -/
def speak (s : Conversation) (e : SEvent) : Conversation :=
  { s.setInst (pushEvent s.inst .webrtcToWebsockets e.type e.event) with
    pushed := s.pushed ++ [e] }

/-- The instance after a payload has been copied to its receive buffer. -/
def copied (s : Conversation) (payload : Bytes) : Conversation :=
  { s.setInst (s.inst.copied payload) with received := s.received ++ [payload] }

end Conversation

/-- What a step of the conversation can do. -/
inductive ConversationStep (parse : Bytes → Option Json) (dump : Json → Bytes)
    (s : Conversation) : Conversation → Prop where
  | greeted (hconnected : s.connected = false) :
      ConversationStep parse dump s
        { s.speak ⟨.connect, connectMessage s.inst⟩ with connected := true }
  | ponged {payload : Bytes} (hconnected : s.connected = true)
      (htype : payloadType parse payload = some "ping") :
      ConversationStep parse dump s ((s.copied payload).speak ⟨.pong, pongMessage⟩)
  | offered {payload : Bytes} (hconnected : s.connected = true)
      (htype : payloadType parse payload = some "offer") :
      ConversationStep parse dump s ((s.copied payload).setInst
        (pushEvent (s.inst.copied payload) .websocketsToWebrtc .offer payload))
  | ignored {payload : Bytes} (hconnected : s.connected = true)
      (hoffer : payloadType parse payload ≠ some "offer")
      (hping : payloadType parse payload ≠ some "ping") :
      ConversationStep parse dump s (s.copied payload)
  | found {sdp : String} (hconnection : s.negotiation.connection.isSome) :
      ConversationStep parse dump s
        { s.speak ⟨.candidate, candidateMessage dump sdp⟩ with
          candidates := s.candidates ++ [sdp] }
  | settled {n : Negotiation} (hturn : s.negotiation.InTurn → n.InTurn)
      (hoffers : n.offers = s.negotiation.offers) (hanswers : n.answers = s.negotiation.answers)
      (hinst : n.inst = s.inst) : ConversationStep parse dump s { s with negotiation := n }
  | answered {n : Negotiation} {sdp : String} {k : ℕ}
      (hconnection : s.negotiation.connection.isSome)
      (hturn : s.negotiation.InTurn → n.InTurn) (hoffers : n.offers = s.negotiation.offers)
      (hanswers : n.answers = s.negotiation.answers ++ [k])
      (hinst : n.inst =
        pushEvent s.inst .webrtcToWebsockets .answer (answerMessage dump sdp)) :
      ConversationStep parse dump s
        { s with negotiation := n, pushed := s.pushed ++ [⟨.answer, answerMessage dump sdp⟩] }
  | nothing : ConversationStep parse dump s s
  | looked {phase : DispatchPhase} (hphase : s.phase = .webrtc ∨ s.phase = .websockets)
      (hphase' : phase = .webrtc ∨ phase = .websockets) :
      ConversationStep parse dump s { s with phase := phase }
  | took {e : SEvent} {es : List SEvent} (hphase : s.phase = .webrtc)
      (hqueue : s.inst.eventsWebsocketsToWebrtc = e :: es) :
      ConversationStep parse dump s
        { s.setInst { s.inst with eventsWebsocketsToWebrtc := es } with phase := .offering e }
  | handled {e : SEvent} {described : Bool} (hphase : s.phase = .offering e)
      (htype : e.type = .offer) :
      ConversationStep parse dump s
        { s with
          negotiation := s.negotiation.webrtcOffer described
          phase := .websockets
          handled := s.handled ++ [e] }
  | skipped {e : SEvent} (hphase : s.phase = .offering e) (htype : e.type ≠ .offer) :
      ConversationStep parse dump s
        { s with phase := .websockets, handled := s.handled ++ [e] }
  | popped {e : SEvent} {es : List SEvent} (hphase : s.phase = .websockets)
      (hqueue : s.inst.eventsWebrtcToWebsockets = e :: es) :
      ConversationStep parse dump s
        { s.setInst { s.inst with eventsWebrtcToWebsockets := es } with phase := .sending e }
  | stored {e : SEvent} {inst : Instance} (hphase : s.phase = .sending e)
      (hinst : inst = if e.type.isOutgoing then { s.inst with sendTarget := e.event } else s.inst) :
      ConversationStep parse dump s
        { s.setInst inst with phase := .webrtc, stored := s.stored ++ [e] }
  | written (hstored : s.stored ≠ []) :
      ConversationStep parse dump s { s with written := s.written ++ [clientWriteable s.inst] }

/-- The type of a payload is what `clientReceive` reads of it. -/
theorem payloadType_eq_some_iff {parse : Bytes → Option Json} {payload : Bytes} {type : String} :
    payloadType parse payload = some type ↔ IsOfType parse payload type := by
  simp only [payloadType, Option.bind_eq_some_iff, IsOfType]
  exact exists_congr fun json =>
    and_congr_right fun _ => Option.bind_eq_some_iff.symm.trans (json.text_eq_some_iff ..)

namespace Conversation

variable {parse : Bytes → Option Json} {dump : Json → Bytes} {describes : String → Bool}
  {s t : Conversation} {a : ConversationAction}

/-- A handler that leaves the queue for the server alone or adds to it. -/
theorem after_eq {n : Negotiation} {es : List SEvent}
    (hqueue : n.inst.eventsWebrtcToWebsockets = s.queue ++ es) :
    s.after n = { s with negotiation := n, pushed := s.pushed ++ es } := by
  unfold after
  rw [hqueue, List.drop_left]

theorem withInst_eq {inst : Instance} {es : List SEvent}
    (hqueue : inst.eventsWebrtcToWebsockets = s.queue ++ es) :
    s.withInst inst = { s.setInst inst with pushed := s.pushed ++ es } := after_eq hqueue

theorem withInst_of_same {inst : Instance}
    (hqueue : inst.eventsWebrtcToWebsockets = s.queue) : s.withInst inst = s.setInst inst := by
  rw [withInst_eq (hqueue.trans (List.append_nil _).symm), List.append_nil]
  rfl

theorem withInst_pushEvent (type : EventType) (event : Bytes) :
    s.withInst (pushEvent s.inst .webrtcToWebsockets type event) = s.speak ⟨type, event⟩ :=
  withInst_eq rfl

theorem receive_spec {payload : Bytes} {inst : Instance} (hconnected : s.connected = true)
    (h : clientReceive parse s.inst payload = .done inst) :
    ConversationStep parse dump s
      { s.withInst inst with received := s.received ++ [payload] } := by
  obtain ⟨-, type, htype, rfl⟩ := clientReceive_eq_done h
  rw [← payloadType_eq_some_iff] at htype
  unfold Instance.received
  split
  · rename_i hoffer
    subst hoffer
    have hsame : s.withInst (pushEvent (s.inst.copied payload) .websocketsToWebrtc .offer payload) =
        s.setInst (pushEvent (s.inst.copied payload) .websocketsToWebrtc .offer payload) :=
      withInst_of_same rfl
    rw [hsame]
    exact .offered hconnected htype
  · rename_i hoffer
    split
    · rename_i hping
      subst hping
      have hspoken : s.withInst (pushEvent (s.inst.copied payload) .webrtcToWebsockets .pong
          pongMessage) = _ := withInst_eq rfl
      rw [hspoken]
      exact .ponged hconnected htype
    · rename_i hping
      have hsame : s.withInst (s.inst.copied payload) = s.setInst (s.inst.copied payload) :=
        withInst_of_same rfl
      rw [hsame]
      exact .ignored hconnected (by simpa [htype] using hoffer) (by simpa [htype] using hping)

/-- An offer makes a new connection, and no other event does anything. -/
theorem webrtcEvent_eq_ok {n n' : Negotiation} {type : EventType} {event : Bytes}
    (h : webrtcEvent parse describes n type event = .ok n') :
    (type = .offer ∧ ∃ described, n' = n.webrtcOffer described) ∨ (type ≠ .offer ∧ n' = n) := by
  unfold webrtcEvent at h
  split at h
  · cases h
  · split at h
    · rename_i htype
      obtain ⟨servers, -, h⟩ := bind_eq_ok_iff.1 h
      obtain ⟨sdp, -, h⟩ := bind_eq_ok_iff.1 h
      exact .inl ⟨htype, _, (Except.ok.inj h).symm⟩
    · rename_i htype
      exact .inr ⟨htype, (Except.ok.inj h).symm⟩

theorem dispatch_spec (h : s.dispatch parse describes = some t) :
    ConversationStep parse dump s t := by
  unfold dispatch at h
  split at h
  · rename_i hphase
    obtain ⟨-, h⟩ | ⟨e, es, hqueue, h⟩ := popEvent_cases h
    · cases h
      exact .looked (.inl hphase) (.inr rfl)
    · cases h
      exact .took hphase hqueue
  · rename_i e hphase
    split at h
    · cases h
    · rename_i n hn
      obtain rfl := Option.some.inj h
      obtain ⟨htype, described, rfl⟩ | ⟨htype, rfl⟩ := webrtcEvent_eq_ok hn
      · exact .handled hphase htype
      · exact .skipped hphase htype
  · rename_i hphase
    obtain ⟨-, h⟩ | ⟨e, es, hqueue, h⟩ := popEvent_cases h
    · cases h
      exact .looked (.inr hphase) (.inl rfl)
    · cases h
      exact .popped hphase hqueue
  · rename_i e hphase
    obtain ⟨-, htype, hevent⟩ | ⟨htype, hevent⟩ | ⟨-, hevent⟩ :=
      websocketsEvent_cases parse s.inst e.type e.event
    · rw [hevent] at h
      cases h
      exact .stored hphase (by rw [if_pos htype])
    · rw [hevent] at h
      cases h
      exact .stored hphase (by rw [htype]; rfl)
    · rw [hevent] at h
      cases h

theorem completed_spec {k : ℕ} {success : Bool} {sdp : String} {n : Negotiation}
    (h : s.negotiation.step dump (.complete k success sdp) = some n) :
    ConversationStep parse dump s (s.after n) := by
  have hturn : s.negotiation.InTurn → n.InTurn := fun hs => hs.completed h
  obtain ⟨hoffers, -, ⟨hinst, hanswers⟩ | ⟨c, hc, hanswers, hinst⟩⟩ :=
    Negotiation.step_completed h
  · have hqueue : n.inst.eventsWebrtcToWebsockets = s.queue ++ [] := by
      rw [hinst, List.append_nil]
      rfl
    rw [after_eq hqueue, List.append_nil]
    exact .settled hturn hoffers hanswers hinst
  · have hqueue : n.inst.eventsWebrtcToWebsockets =
        s.queue ++ [⟨.answer, answerMessage dump sdp⟩] := by
      rw [hinst]
      rfl
    rw [after_eq hqueue]
    exact .answered (by rw [hc]; rfl) hturn hoffers hanswers hinst

theorem step_spec (h : s.step parse dump describes a = some t) :
    ConversationStep parse dump s t := by
  cases a with
  | established =>
      obtain ⟨hconnected, h⟩ := Option.ite_none_left_eq_some.1 h
      have hspoken : s.withInst (clientEstablished s.inst) =
          s.speak ⟨.connect, connectMessage s.inst⟩ := withInst_pushEvent _ _
      rw [hspoken] at h
      cases h
      exact .greeted (Bool.eq_false_iff.2 hconnected)
  | receive payload =>
      obtain ⟨hconnected, h⟩ := Option.ite_none_right_eq_some.1 h
      split at h
      · cases h
      · rename_i inst hreceive
        cases h
        exact receive_spec hconnected hreceive
  | iceCandidate sdp =>
      obtain ⟨hconnection, h⟩ := Option.ite_none_right_eq_some.1 h
      cases sdp with
      | none =>
          have hsame : s.withInst (onIceCandidate dump s.inst none) = s :=
            withInst_of_same rfl
          rw [hsame, Option.toList_none, List.append_nil] at h
          cases h
          exact .nothing
      | some sdp =>
          have hspoken : s.withInst (onIceCandidate dump s.inst (some sdp)) =
              s.speak ⟨.candidate, candidateMessage dump sdp⟩ := withInst_pushEvent _ _
          rw [hspoken] at h
          cases h
          exact .found hconnection
  | complete k success sdp =>
      obtain ⟨n, hn, rfl⟩ := Option.map_eq_some_iff.1 h
      exact completed_spec hn
  | dispatch => exact dispatch_spec h
  | writeable =>
      obtain ⟨hstored, h⟩ := Option.ite_none_right_eq_some.1 h
      cases h
      exact .written hstored

end Conversation

end Bres
