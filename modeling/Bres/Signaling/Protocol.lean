import Bres.Signaling.Conversation
import Bres.Transition.Register

/-!
# What the program says to the signaling server

The invariants of a conversation. `Attentive`: every offer received is handled once and
in order. `Polite`: each kind of event that is pushed for the server is determined by
what was received from it, one connect message, a pong for each ping, and at most one
answer for each offer, in the order of the offers. `Faithful`: nothing is lost between
the push and `sendTarget`, and what is written to the socket never goes back behind a
text that has been written.
-/

namespace Bres

open Transition

namespace Conversation

/-- The offer in the hand of the dispatch thread. -/
def inOffer (s : Conversation) : List SEvent :=
  match s.phase with
  | .offering e => [e]
  | _ => []

/-- The event for the server in the hand of the dispatch thread. -/
def inSending (s : Conversation) : List SEvent :=
  match s.phase with
  | .sending e => [e]
  | _ => []

/-- The offers so far: those handled, the one in the hand of the thread, and those that
wait. -/
def offers (s : Conversation) : List SEvent :=
  s.handled ++ s.inOffer ++ s.inst.eventsWebsocketsToWebrtc

/-- The texts of the events of a type that have been pushed for the server. -/
def said (s : Conversation) (type : EventType) : List Bytes :=
  (s.pushed.filter fun e => e.type = type).map SEvent.event

/-- The payloads of a type that have been received. -/
def heard (parse : Bytes → Option Json) (s : Conversation) (type : String) : List Bytes :=
  s.received.filter fun payload => payloadType parse payload = some type

/-- Every offer received is on its way to `webrtc_event` or has been handled there. -/
structure Attentive (parse : Bytes → Option Json) (s : Conversation) : Prop where
  inTurn : s.negotiation.InTurn
  offers_eq : s.negotiation.offers = s.handled.length
  heard_eq : s.heard parse "offer" = s.offers.map SEvent.event
  type_eq : ∀ e ∈ s.offers, e.type = .offer

/-- What has been pushed for the server is determined by what was received from it. -/
structure Polite (parse : Bytes → Option Json) (dump : Json → Bytes) (inst : Instance)
    (s : Conversation) : Prop where
  frozen : s.inst.frozen = inst.frozen
  silent : s.connected = false → s.pushed = [] ∧ s.received = []
  first : s.connected = true → s.pushed.head? = some ⟨.connect, connectMessage inst⟩
  connect : s.said .connect = if s.connected then [connectMessage inst] else []
  pong : s.said .pong = (s.heard parse "ping").map fun _ => pongMessage
  candidate : s.said .candidate = s.candidates.map (candidateMessage dump)
  answer : ∃ sdps : List String, sdps.length = s.negotiation.answers.length ∧
    s.said .answer = sdps.map (answerMessage dump)
  outgoing : ∀ e ∈ s.pushed, e.type.isOutgoing = true

/-- Nothing is lost between the push and `sendTarget`, and nothing is written that was not
there. -/
structure Faithful (s : Conversation) : Prop where
  pushed_eq : s.pushed = s.stored ++ s.inSending ++ s.queue
  sendTarget : ∀ e, s.stored.getLast? = some e → s.inst.sendTarget = e.event
  glimpses : ∃ seen, Glimpses (s.stored.map SEvent.event) seen ∧ s.written = seen.map lwsWrite

theorem said_self (s : Conversation) {t : Conversation} (type : EventType) (text : Bytes)
    (ht : t.pushed = s.pushed ++ [⟨type, text⟩]) : t.said type = s.said type ++ [text] := by
  simp [said, ht]

theorem said_other (s : Conversation) {t : Conversation} {e : SEvent}
    (ht : t.pushed = s.pushed ++ [e]) {type : EventType} (htype : e.type ≠ type) :
    t.said type = s.said type := by
  simp [said, ht, htype]

theorem heard_append (parse : Bytes → Option Json) (s : Conversation) {t : Conversation}
    {payload : Bytes} (ht : t.received = s.received ++ [payload]) (type : String) :
    t.heard parse type =
      s.heard parse type ++ if payloadType parse payload = some type then [payload] else [] := by
  unfold heard
  rw [ht, List.filter_append, List.filter_singleton]
  by_cases htype : payloadType parse payload = some type
  · simp [htype]
  · simp [htype]

/-! ## What a step keeps -/

variable {parse : Bytes → Option Json} {dump : Json → Bytes} {describes : String → Bool}
  {s t : Conversation} {a : ConversationAction}

/-- A step that hears nothing and leaves the offers where they are, or moves one on. -/
theorem Attentive.of_same (hs : s.Attentive parse) (hturn : t.negotiation.InTurn)
    (hoffers : t.negotiation.offers = t.handled.length) (hreceived : t.received = s.received)
    (hsame : t.offers = s.offers) : t.Attentive parse where
  inTurn := hturn
  offers_eq := hoffers
  heard_eq := by
    rw [heard, hreceived, hsame]
    exact hs.heard_eq
  type_eq := by
    rw [hsame]
    exact hs.type_eq

theorem Attentive.step (hs : s.Attentive parse) (h : ConversationStep parse dump s t) :
    t.Attentive parse := by
  have hturn := hs.inTurn
  cases h with
  | greeted hconnected => exact hs.of_same (hturn.setInst rfl) hs.offers_eq rfl rfl
  | @ponged payload hconnected htype =>
      refine ⟨hturn.setInst rfl, hs.offers_eq, ?_, hs.type_eq⟩
      rw [heard_append parse s rfl, hs.heard_eq, htype, if_neg (by decide), List.append_nil]
      rfl
  | @offered payload hconnected htype =>
      have hlonger : offers ((s.copied payload).setInst
          (pushEvent (s.inst.copied payload) .websocketsToWebrtc .offer payload)) =
          s.offers ++ [⟨.offer, payload⟩] := (List.append_assoc ..).symm
      refine ⟨hturn.setInst rfl, hs.offers_eq, ?_, ?_⟩
      · rw [heard_append parse s rfl, hs.heard_eq, if_pos htype, hlonger, List.map_append]
        rfl
      · rw [hlonger]
        exact List.forall_mem_append.2 ⟨hs.type_eq, by simp⟩
  | @ignored payload hconnected hoffer hping =>
      refine ⟨hturn.setInst rfl, hs.offers_eq, ?_, hs.type_eq⟩
      rw [heard_append parse s rfl, hs.heard_eq, if_neg hoffer, List.append_nil]
      rfl
  | found hconnection => exact hs.of_same (hturn.setInst rfl) hs.offers_eq rfl rfl
  | settled hturn' hoffers hanswers hinst =>
      refine hs.of_same (hturn' hturn) (hoffers.trans hs.offers_eq) rfl ?_
      unfold offers
      rw [inst, hinst]
      rfl
  | answered hconnection hturn' hoffers hanswers hinst =>
      refine hs.of_same (hturn' hturn) (hoffers.trans hs.offers_eq) rfl ?_
      unfold offers
      rw [inst, hinst]
      rfl
  | nothing => exact hs
  | looked hphase hphase' =>
      refine hs.of_same hturn hs.offers_eq rfl ?_
      unfold offers inOffer
      rcases hphase with hphase | hphase <;> rcases hphase' with rfl | rfl <;> rw [hphase] <;> rfl
  | took hphase hqueue =>
      refine hs.of_same (hturn.setInst rfl) hs.offers_eq rfl ?_
      unfold offers inOffer
      rw [hphase, hqueue, List.append_assoc, List.append_assoc]
      rfl
  | @handled e described hphase htype =>
      refine hs.of_same (hturn.offer described) ?_ rfl ?_
      · rw [List.length_append, ← hs.offers_eq]
        rfl
      · unfold offers inOffer
        rw [hphase, List.append_nil]
        rfl
  | @skipped e hphase htype =>
      have hmem : e ∈ s.offers := by simp [offers, inOffer, hphase]
      exact absurd (hs.type_eq e hmem) htype
  | popped hphase hqueue =>
      refine hs.of_same (hturn.setInst rfl) hs.offers_eq rfl ?_
      unfold offers inOffer
      rw [hphase]
      rfl
  | @stored e inst' hphase hinst =>
      have hsame : inst'.frozen = s.inst.frozen ∧
          inst'.eventsWebsocketsToWebrtc = s.inst.eventsWebsocketsToWebrtc := by
        rw [hinst]
        split <;> exact ⟨rfl, rfl⟩
      refine hs.of_same (hturn.setInst hsame.1) hs.offers_eq rfl ?_
      unfold offers inOffer
      rw [hphase]
      exact congrArg (s.handled ++ [] ++ ·) hsame.2
  | written hstored => exact hs.of_same hturn hs.offers_eq rfl rfl

theorem connectMessage_congr {inst inst' : Instance} (h : inst.frozen = inst'.frozen) :
    connectMessage inst = connectMessage inst' := by
  have horder : inst.order = inst'.order := (congrArg Instance.order h :)
  have hid : inst.channelId = inst'.channelId := (congrArg Instance.channelId h :)
  have htoken : inst.channelToken = inst'.channelToken := (congrArg Instance.channelToken h :)
  have hmulti : inst.channelMultipleStream = inst'.channelMultipleStream :=
    (congrArg Instance.channelMultipleStream h :)
  simp only [connectMessage, horder, hid, htoken, hmulti]

/-- There is a peer connection only after an offer, and an offer only after the greeting. -/
theorem connected_of_connection {inst : Instance} (hattentive : s.Attentive parse)
    (hpolite : s.Polite parse dump inst) (h : s.negotiation.connection.isSome) :
    s.connected = true := by
  by_contra hnot
  obtain ⟨c, hc⟩ := Option.isSome_iff_exists.1 h
  have hlatest := hattentive.inTurn.latest c hc
  have hreceived := (hpolite.silent (Bool.eq_false_iff.2 hnot)).2
  have hheard := hattentive.heard_eq
  rw [heard, hreceived, List.filter_nil, eq_comm, List.map_eq_nil_iff, offers,
    List.append_assoc, List.append_eq_nil_iff] at hheard
  rw [hattentive.offers_eq, hheard.1] at hlatest
  cases hlatest

/-- A step that says nothing, on an open connection where it hears something. -/
theorem Polite.of_quiet {inst : Instance} (hs : s.Polite parse dump inst)
    (hframe : t.inst.frozen = s.inst.frozen) (hconnected : t.connected = s.connected)
    (hpushed : t.pushed = s.pushed) (hsilent : s.connected = false → t.received = s.received)
    (hping : t.heard parse "ping" = s.heard parse "ping")
    (hcandidates : t.candidates = s.candidates)
    (hanswers : t.negotiation.answers = s.negotiation.answers) : t.Polite parse dump inst := by
  have hsaid : t.said = s.said := by
    funext type
    unfold said
    rw [hpushed]
  refine ⟨hframe.trans hs.frozen, fun hnot => ?_, fun h => ?_, ?_, ?_, ?_, ?_, ?_⟩
  · rw [hconnected] at hnot
    rw [hpushed, hsilent hnot]
    exact hs.silent hnot
  · rw [hconnected] at h
    rw [hpushed]
    exact hs.first h
  · rw [hsaid, hconnected]
    exact hs.connect
  · rw [hsaid, hping]
    exact hs.pong
  · rw [hsaid, hcandidates]
    exact hs.candidate
  · rw [hsaid, hanswers]
    exact hs.answer
  · rw [hpushed]
    exact hs.outgoing

/-- A step after the greeting that says something. -/
theorem Polite.of_spoken {inst : Instance} {e : SEvent} (hs : s.Polite parse dump inst)
    (hframe : t.inst.frozen = s.inst.frozen) (hconnected : s.connected = true)
    (hconnected' : t.connected = true) (hpushed : t.pushed = s.pushed ++ [e])
    (hconnect : e.type ≠ .connect) (hout : e.type.isOutgoing = true)
    (hpong : t.said .pong = (t.heard parse "ping").map fun _ => pongMessage)
    (hcandidate : t.said .candidate = t.candidates.map (candidateMessage dump))
    (hanswer : ∃ sdps : List String, sdps.length = t.negotiation.answers.length ∧
      t.said .answer = sdps.map (answerMessage dump)) : t.Polite parse dump inst := by
  refine ⟨hframe.trans hs.frozen, fun hnot => ?_, fun _ => ?_, ?_, hpong, hcandidate, hanswer, ?_⟩
  · rw [hconnected'] at hnot
    cases hnot
  · rw [hpushed, List.head?_append, hs.first hconnected]
    rfl
  · rw [said_other s hpushed hconnect, hs.connect, hconnected, hconnected']
  · rw [hpushed]
    exact List.forall_mem_append.2 ⟨hs.outgoing, by simpa using hout⟩

theorem Polite.step {inst : Instance} (hattentive : s.Attentive parse)
    (hs : s.Polite parse dump inst) (h : ConversationStep parse dump s t) :
    t.Polite parse dump inst := by
  cases h with
  | greeted hconnected =>
      obtain ⟨hpushed, hreceived⟩ := hs.silent hconnected
      have hmessage := connectMessage_congr hs.frozen
      refine ⟨hs.frozen, by nofun, fun _ => ?_, ?_, ?_, ?_, ?_, ?_⟩
      · rw [← hmessage]
        exact congrArg List.head? (congrArg (· ++ [_]) hpushed)
      · rw [said_self s .connect _ rfl, hs.connect, hconnected, ← hmessage]
        rfl
      · exact (said_other s rfl (by nofun)).trans hs.pong
      · exact (said_other s rfl (by nofun)).trans hs.candidate
      · rw [said_other s rfl (by nofun)]
        exact hs.answer
      · exact List.forall_mem_append.2 ⟨hs.outgoing, by simp; rfl⟩
  | ponged hconnected htype =>
      refine hs.of_spoken rfl hconnected hconnected rfl (by nofun) rfl ?_ ?_ ?_
      · rw [said_self s .pong _ rfl, heard_append parse s rfl, if_pos htype, hs.pong,
          List.map_append]
        rfl
      · exact (said_other s rfl (by nofun)).trans hs.candidate
      · rw [said_other s rfl (by nofun)]
        exact hs.answer
  | offered hconnected htype =>
      refine hs.of_quiet rfl rfl rfl (fun hnot => ?_) ?_ rfl rfl
      · rw [hconnected] at hnot
        cases hnot
      · rw [heard_append parse s rfl, htype, if_neg (by decide), List.append_nil]
  | ignored hconnected hoffer hping =>
      refine hs.of_quiet rfl rfl rfl (fun hnot => ?_) ?_ rfl rfl
      · rw [hconnected] at hnot
        cases hnot
      · rw [heard_append parse s rfl, if_neg hping, List.append_nil]
  | found hconnection =>
      have hconnected := connected_of_connection hattentive hs hconnection
      refine hs.of_spoken rfl hconnected hconnected rfl (by nofun) rfl ?_ ?_ ?_
      · exact (said_other s rfl (by nofun)).trans hs.pong
      · rw [said_self s .candidate _ rfl, hs.candidate, List.map_append]
        rfl
      · rw [said_other s rfl (by nofun)]
        exact hs.answer
  | settled hturn hoffers hanswers hinst =>
      exact hs.of_quiet (congrArg Instance.frozen hinst) rfl rfl (fun _ => rfl) rfl rfl hanswers
  | @answered n sdp k hconnection hturn hoffers hanswers hinst =>
      have hconnected := connected_of_connection hattentive hs hconnection
      obtain ⟨sdps, hlength, hanswer⟩ := hs.answer
      refine hs.of_spoken (congrArg Instance.frozen hinst :) hconnected hconnected rfl (by nofun)
        rfl ?_ ?_ ⟨sdps ++ [sdp], ?_, ?_⟩
      · exact (said_other s rfl (by nofun)).trans hs.pong
      · exact (said_other s rfl (by nofun)).trans hs.candidate
      · rw [List.length_append, hlength, hanswers, List.length_append]
        rfl
      · rw [said_self s .answer _ rfl, hanswer, List.map_append]
        rfl
  | nothing => exact hs
  | looked _ _ => exact hs.of_quiet rfl rfl rfl (fun _ => rfl) rfl rfl rfl
  | took _ _ => exact hs.of_quiet rfl rfl rfl (fun _ => rfl) rfl rfl rfl
  | handled _ _ => exact hs.of_quiet rfl rfl rfl (fun _ => rfl) rfl rfl rfl
  | skipped _ _ => exact hs.of_quiet rfl rfl rfl (fun _ => rfl) rfl rfl rfl
  | popped _ _ => exact hs.of_quiet rfl rfl rfl (fun _ => rfl) rfl rfl rfl
  | @stored e inst' hphase hinst =>
      have hframe : inst'.frozen = s.inst.frozen := by
        rw [hinst]
        split <;> rfl
      exact hs.of_quiet hframe rfl rfl (fun _ => rfl) rfl rfl rfl
  | written _ => exact hs.of_quiet rfl rfl rfl (fun _ => rfl) rfl rfl rfl

/-- A step that leaves everything that has been pushed where it is. -/
theorem Faithful.of_same (hs : s.Faithful) (hpushed : t.pushed = s.pushed)
    (hstored : t.stored = s.stored) (hsending : t.inSending ++ t.queue = s.inSending ++ s.queue)
    (htarget : t.inst.sendTarget = s.inst.sendTarget) (hwritten : t.written = s.written) :
    t.Faithful := by
  refine ⟨?_, ?_, ?_⟩
  · rw [hpushed, hs.pushed_eq, hstored, List.append_assoc, List.append_assoc, hsending]
  · rw [hstored, htarget]
    exact hs.sendTarget
  · rw [hstored, hwritten]
    exact hs.glimpses

theorem Faithful.of_spoken {e : SEvent} (hs : s.Faithful) (hpushed : t.pushed = s.pushed ++ [e])
    (hstored : t.stored = s.stored) (hphase : t.phase = s.phase)
    (hqueue : t.queue = s.queue ++ [e]) (htarget : t.inst.sendTarget = s.inst.sendTarget)
    (hwritten : t.written = s.written) : t.Faithful := by
  have hsending : t.inSending = s.inSending := by
    unfold inSending
    rw [hphase]
  refine ⟨?_, ?_, ?_⟩
  · rw [hpushed, hs.pushed_eq, hstored, hsending, hqueue, List.append_assoc]
  · rw [hstored, htarget]
    exact hs.sendTarget
  · rw [hstored, hwritten]
    exact hs.glimpses

/-- An event for the server is stored, whatever the texts before it. -/
theorem Faithful.store {e : SEvent} (hs : s.Faithful) (hphase : s.phase = .sending e) :
    Faithful { s.setInst { s.inst with sendTarget := e.event } with
      phase := .webrtc, stored := s.stored ++ [e] } := by
  obtain ⟨seen, hseen, hwritten⟩ := hs.glimpses
  have hpushed := hs.pushed_eq
  rw [inSending, hphase] at hpushed
  refine ⟨?_, fun d hd => ?_, seen, ?_, hwritten⟩
  · exact hpushed.trans (congrArg (· ++ s.queue) (List.append_nil _).symm)
  · have hlast : e = d := Option.some.inj ((List.getLast?_concat ..).symm.trans hd)
    rw [← hlast]
    rfl
  · have htexts := hseen.store e.event
    rwa [← List.map_singleton, ← List.map_append] at htexts

theorem Faithful.step (hs : s.Faithful) (hout : ∀ e ∈ s.pushed, e.type.isOutgoing = true)
    (h : ConversationStep parse dump s t) : t.Faithful := by
  cases h with
  | greeted _ => exact hs.of_spoken rfl rfl rfl rfl rfl rfl
  | ponged _ _ => exact hs.of_spoken rfl rfl rfl rfl rfl rfl
  | offered _ _ => exact hs.of_same rfl rfl rfl rfl rfl
  | ignored _ _ _ => exact hs.of_same rfl rfl rfl rfl rfl
  | found _ => exact hs.of_spoken rfl rfl rfl rfl rfl rfl
  | settled hturn hoffers hanswers hinst =>
      have hinst : inst { s with negotiation := _ } = s.inst := hinst
      refine hs.of_same rfl rfl ?_ (congrArg Instance.sendTarget hinst) rfl
      rw [queue, hinst]
      rfl
  | answered hconnection hturn hoffers hanswers hinst =>
      exact hs.of_spoken rfl rfl rfl (congrArg Instance.eventsWebrtcToWebsockets hinst :)
        (congrArg Instance.sendTarget hinst :) rfl
  | nothing => exact hs
  | looked hphase hphase' =>
      refine hs.of_same rfl rfl ?_ rfl rfl
      unfold inSending
      rcases hphase with hphase | hphase <;> rcases hphase' with rfl | rfl <;> rw [hphase] <;> rfl
  | took hphase _ =>
      refine hs.of_same rfl rfl ?_ rfl rfl
      unfold inSending
      rw [hphase]
      rfl
  | handled hphase _ =>
      refine hs.of_same rfl rfl ?_ rfl rfl
      unfold inSending
      rw [hphase]
      rfl
  | skipped hphase _ =>
      refine hs.of_same rfl rfl ?_ rfl rfl
      unfold inSending
      rw [hphase]
      rfl
  | @popped e es hphase hqueue =>
      refine hs.of_same rfl rfl ?_ rfl rfl
      have hqueue : s.queue = e :: es := hqueue
      rw [hqueue, inSending, inSending, hphase]
      rfl
  | @stored e inst hphase hinst =>
      have hmem : e ∈ s.pushed := by
        rw [hs.pushed_eq]
        simp [inSending, hphase]
      rw [hinst, if_pos (hout e hmem)]
      exact hs.store hphase
  | written hstored =>
      obtain ⟨seen, hseen, hwritten⟩ := hs.glimpses
      have hlast := List.getLast?_eq_some_getLast hstored
      refine ⟨hs.pushed_eq, hs.sendTarget, seen ++ [s.inst.sendTarget], ?_, ?_⟩
      · refine hseen.read ?_
        rw [List.getLast?_map, hlast, hs.sendTarget _ hlast]
        rfl
      · rw [List.map_append, ← hwritten]
        rfl

/-- How the conversation stands. -/
structure Sound (parse : Bytes → Option Json) (dump : Json → Bytes) (inst : Instance)
    (s : Conversation) : Prop where
  attentive : s.Attentive parse
  polite : s.Polite parse dump inst
  faithful : s.Faithful

theorem Sound.step {inst : Instance} (hs : s.Sound parse dump inst)
    (h : s.step parse dump describes a = some t) : t.Sound parse dump inst :=
  ⟨hs.attentive.step (step_spec h), hs.polite.step hs.attentive (step_spec h),
    hs.faithful.step hs.polite.outgoing (step_spec h)⟩

theorem start_sound {inst : Instance} (htracks : inst.TracksMatchOrder)
    (hqueue : inst.eventsWebrtcToWebsockets = []) (hoffers : inst.eventsWebsocketsToWebrtc = []) :
    (start inst).Sound parse dump inst where
  attentive := by
    have hnone : (start inst).offers = [] := hoffers
    refine ⟨Negotiation.start_inTurn htracks, rfl, ?_, ?_⟩
    · rw [hnone]
      rfl
    · rw [hnone]
      exact List.forall_mem_nil _
  polite := ⟨rfl, fun _ => ⟨rfl, rfl⟩, by nofun, rfl, rfl, rfl, ⟨[], rfl, rfl⟩,
    List.forall_mem_nil _⟩
  faithful := ⟨hqueue.symm, by nofun, ⟨[], .start, rfl⟩⟩

/-- An offer without servers. -/
def plainOffer : Json :=
  .object [("type", .string "offer"), ("sdp", .string "v=0"),
    ("config", .object [("iceServers", .array [])])]

/-- The program greets the server, answers its offer, and writes the greeting. -/
def oneOffer : List ConversationAction :=
  [.established, .receive (bytes "offer"), .dispatch, .dispatch, .complete 0 true "",
    .complete 0 true "v=0", .dispatch, .dispatch, .writeable]

end Conversation

end Bres
