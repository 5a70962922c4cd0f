import Bres.Signaling.Connect
import Bres.Signaling.Dispatch

/-!
# Write requests and the life of the connection

`inst->websocket` is set when the connection is asked for and cleared by the service
thread when libwebsockets reports that it is closed or cannot be made. The dispatch
thread passes it to `lws_callback_on_writable` for every outgoing event, without a
look at it, and an event can be in the queue or in the thread's hand at that time.

The requests are all made on an open connection if the queue is empty at first,
events are pushed only while the connection is open, and it is closed only while no
event is on its way. Each step against these rules lets the dispatch thread make a
request on a connection that is not open.
-/

namespace Bres

open Transition

/-- What libwebsockets has reported of the connection that was asked for. -/
inductive ConnectionState where
  | connecting
  | opened
  | closed
deriving DecidableEq

structure Connection where
  inst : Instance
  state : ConnectionState
  thread : DispatchThread := .idle
  /-- The connection and the pointer at each call of `lws_callback_on_writable`. -/
  requests : List (ConnectionState × Handle) := []

/-- The callbacks of libwebsockets that matter for the pointer, a push by any thread, and
the two halves of the dispatch loop. -/
inductive ConnectionAction where
  | established
  | connectionError
  | closed
  | push (type : EventType) (text : Bytes)
  | pop
  | store

/-- `websockets_callback`, the branch of `LWS_CALLBACK_CLOSED` and
`LWS_CALLBACK_CLIENT_CONNECTION_ERROR`. -/
def clientClosed (inst : Instance) : Instance := { inst with websocket := .null }

namespace Connection

def step (parse : Bytes → Option Json) (s : Connection) (a : ConnectionAction) :
    Option Connection :=
  if s.thread = .ended then none
  else
    match a with
    | .established =>
        if s.state = .connecting then
          some { s with inst := clientEstablished s.inst, state := .opened }
        else none
    | .connectionError =>
        if s.state = .connecting then
          some { s with inst := clientClosed s.inst, state := .closed }
        else none
    | .closed =>
        if s.state = .opened then
          some { s with inst := clientClosed s.inst, state := .closed }
        else none
    | .push type text =>
        if type.isOutgoing then
          some { s with inst := pushEvent s.inst .webrtcToWebsockets type text }
        else none
    | .pop =>
        match s.thread with
        | .idle =>
            match popEvent s.inst .webrtcToWebsockets with
            | none => some s
            | some (e, inst) => some { s with inst := inst, thread := .popped e }
        | _ => none
    | .store =>
        match s.thread with
        | .popped e =>
            match websocketsEvent parse s.inst e.type e.event with
            | .thrown _ (inst, _) => some { s with inst := inst, thread := .ended }
            | .done (inst, true) =>
                some { s with
                  inst := inst
                  thread := .idle
                  requests := s.requests ++ [(s.state, s.inst.websocket)] }
            | .done (inst, false) => some { s with inst := inst, thread := .idle }
        | _ => none

/-- The result of `lws_client_connect_via_info` for a slot. -/
def start (inst : Instance) (connected : Bool) : Connection where
  inst := { inst with websocket := if connected then .live else .null }
  state := if connected then .connecting else .closed

/-- The events on their way to the socket. -/
def pending (s : Connection) : List SEvent :=
  (match s.thread with
    | .popped e => [e]
    | _ => []) ++ s.inst.eventsWebrtcToWebsockets

/-- All requests so far were made on an open connection. -/
def RequestsOpen (s : Connection) : Prop := ∀ r ∈ s.requests, r = (.opened, .live)

/-- Events are pushed while the connection is open, and it is lost while none is on its
way. -/
def Allowed (s : Connection) : ConnectionAction → Prop
  | .push _ _ => s.state = .opened
  | .closed => s.pending = []
  | .connectionError => s.pending = []
  | _ => True

variable {parse : Bytes → Option Json} {s t : Connection} {a : ConnectionAction}

/-! ## One step -/

inductive Step (parse : Bytes → Option Json) (s : Connection) :
    ConnectionAction → Connection → Prop where
  | established (hstate : s.state = .connecting) :
      Step parse s .established
        { s with inst := clientEstablished s.inst, state := .opened }
  | lost {a : ConnectionAction} (ha : a = .connectionError ∨ a = .closed) :
      Step parse s a { s with inst := clientClosed s.inst, state := .closed }
  | pushed {type : EventType} {text : Bytes} (htype : type.isOutgoing = true) :
      Step parse s (.push type text)
        { s with inst := pushEvent s.inst .webrtcToWebsockets type text }
  | nothing : Step parse s .pop s
  | popped {e : SEvent} {es : List SEvent} (hthread : s.thread = .idle)
      (hqueue : s.inst.eventsWebrtcToWebsockets = e :: es) :
      Step parse s .pop
        { s with inst := { s.inst with eventsWebrtcToWebsockets := es }, thread := .popped e }
  | stored {e : SEvent} (hthread : s.thread = .popped e) :
      Step parse s .store
        { s with
          inst := { s.inst with sendTarget := e.event }
          thread := .idle
          requests := s.requests ++ [(s.state, s.inst.websocket)] }
  | dropped {e : SEvent} {thread : DispatchThread} (hthread : s.thread = .popped e)
      (hdropped : thread = .idle ∨ thread = .ended) :
      Step parse s .store { s with thread := thread }

theorem step_spec (h : s.step parse a = some t) : Step parse s a t := by
  obtain ⟨-, h⟩ := Option.ite_none_left_eq_some.1 h
  cases a with
  | established =>
      obtain ⟨hstate, h⟩ := Option.ite_none_right_eq_some.1 h
      cases h
      exact .established hstate
  | connectionError =>
      obtain ⟨-, h⟩ := Option.ite_none_right_eq_some.1 h
      cases h
      exact .lost (.inl rfl)
  | closed =>
      obtain ⟨-, h⟩ := Option.ite_none_right_eq_some.1 h
      cases h
      exact .lost (.inr rfl)
  | push type text =>
      obtain ⟨htype, h⟩ := Option.ite_none_right_eq_some.1 h
      cases h
      exact .pushed htype
  | pop =>
      simp only at h
      split at h
      · rename_i hthread
        obtain ⟨-, h⟩ | ⟨e, es, hqueue, h⟩ := popEvent_cases h
        · cases h
          exact .nothing
        · cases h
          exact .popped hthread hqueue
      · cases h
  | store =>
      simp only at h
      split at h
      · rename_i e hthread
        obtain ⟨-, -, hevent⟩ | ⟨-, hevent⟩ | ⟨-, hevent⟩ :=
          websocketsEvent_cases parse s.inst e.type e.event
        · rw [hevent] at h
          cases h
          exact .stored hthread
        · rw [hevent] at h
          cases h
          exact .dropped hthread (.inl rfl)
        · rw [hevent] at h
          cases h
          exact .dropped hthread (.inr rfl)
      · cases h

/-- What the allowed steps keep. -/
structure Sound (s : Connection) : Prop where
  live : s.state ≠ .closed → s.inst.websocket = .live
  pending_eq_nil : s.state ≠ .opened → s.pending = []
  outgoing : ∀ e ∈ s.pending, e.type.isOutgoing = true
  requestsOpen : s.RequestsOpen

theorem start_sound {inst : Instance} (hqueue : inst.eventsWebrtcToWebsockets = [])
    (connected : Bool) : (start inst connected).Sound where
  live h := by
    cases connected with
    | true => rfl
    | false => exact absurd rfl h
  pending_eq_nil _ := hqueue
  outgoing e he := by
    have hpending : (start inst connected).pending = [] := hqueue
    rw [hpending] at he
    cases he
  requestsOpen := List.forall_mem_nil _

theorem pending_pushEvent (s : Connection) (type : EventType) (text : Bytes) :
    pending { s with inst := pushEvent s.inst .webrtcToWebsockets type text } =
      s.pending ++ [⟨type, text⟩] := by
  unfold pending
  rw [List.append_assoc]
  rfl

/-- The events on their way are those in the hand of the thread and those behind. -/
theorem pending_of_popped {e : SEvent} (hthread : s.thread = .popped e) :
    s.pending = e :: s.inst.eventsWebrtcToWebsockets := by
  rw [pending, hthread]
  rfl

/-- An event in the hand of the thread is on its way to an open connection. -/
theorem Sound.opened_of_popped (hs : s.Sound) {e : SEvent} (hthread : s.thread = .popped e) :
    s.state = .opened := by
  by_contra hnot
  have hpending := pending_of_popped hthread
  rw [hs.pending_eq_nil hnot] at hpending
  cases hpending

theorem Sound.outgoing_of_popped (hs : s.Sound) {e : SEvent} (hthread : s.thread = .popped e)
    {d : SEvent} (hd : d ∈ s.inst.eventsWebrtcToWebsockets) : d.type.isOutgoing = true := by
  apply hs.outgoing d
  rw [pending_of_popped hthread]
  exact List.mem_cons_of_mem e hd

theorem Sound.step (hs : s.Sound) (hallowed : s.Allowed a) (h : s.step parse a = some t) :
    t.Sound := by
  cases step_spec h with
  | established hstate =>
      have hnot : s.state ≠ .opened := by
        rw [hstate]
        decide
      have hnot' : s.state ≠ .closed := by
        rw [hstate]
        decide
      refine ⟨fun _ => hs.live hnot', fun hopen => absurd rfl hopen, ?_, hs.requestsOpen⟩
      intro e he
      have hpending := pending_pushEvent s .connect (connectMessage s.inst)
      rw [hs.pending_eq_nil hnot] at hpending
      obtain rfl := List.mem_singleton.1 (hpending ▸ he)
      rfl
  | lost ha =>
      have hpending : s.pending = [] := by
        rcases ha with rfl | rfl
        · exact hallowed
        · exact hallowed
      exact ⟨fun hclosed => absurd rfl hclosed, fun _ => hpending, hs.outgoing, hs.requestsOpen⟩
  | pushed htype =>
      refine ⟨hs.live, fun hclosed => absurd hallowed hclosed, ?_, hs.requestsOpen⟩
      intro e he
      rw [pending_pushEvent] at he
      rcases List.mem_append.1 he with he | he
      · exact hs.outgoing e he
      · rw [List.mem_singleton.1 he]
        exact htype
  | nothing => exact hs
  | @popped e es hthread hqueue =>
      have hpending : s.pending = e :: es := by
        rw [pending, hthread, hqueue]
        rfl
      refine ⟨hs.live, fun hclosed => ?_, fun e he => ?_, hs.requestsOpen⟩
      · exact hpending.symm.trans (hs.pending_eq_nil hclosed)
      · exact hs.outgoing e (hpending ▸ he)
  | stored hthread =>
      have hopened := hs.opened_of_popped hthread
      have hlive : s.inst.websocket = .live := hs.live (by rw [hopened]; decide)
      refine ⟨hs.live, fun hnot => absurd hopened hnot,
        fun d hd => hs.outgoing_of_popped hthread hd, ?_⟩
      refine List.forall_mem_append.2 ⟨hs.requestsOpen, ?_⟩
      rw [List.forall_mem_singleton, hopened, hlive]
  | @dropped e thread hthread hdropped =>
      have hqueue : pending { s with thread := thread } = s.inst.eventsWebrtcToWebsockets := by
        rcases hdropped with rfl | rfl
        · rfl
        · rfl
      refine ⟨hs.live, fun hnot => absurd (hs.opened_of_popped hthread) hnot, fun d hd => ?_,
        hs.requestsOpen⟩
      rw [hqueue] at hd
      exact hs.outgoing_of_popped hthread hd

/-! ## Steps that are not allowed -/

/-- The thread has an event in its hand and stores it. -/
theorem step_store {e : SEvent} (hthread : s.thread = .popped e)
    (htype : e.type.isOutgoing = true) (hparse : (parse e.event).isSome) :
    ∃ t, s.step parse .store = some t ∧
      t.requests = s.requests ++ [(s.state, s.inst.websocket)] := by
  refine ⟨{ s with
      inst := { s.inst with sendTarget := e.event }
      thread := .idle
      requests := s.requests ++ [(s.state, s.inst.websocket)] }, ?_, rfl⟩
  simp [step, hthread, websocketsEvent_of_outgoing s.inst hparse htype]

/-- An idle thread takes the next event into its hand. -/
theorem step_pop (hthread : s.thread = .idle) (hpending : s.pending ≠ []) :
    ∃ e t, e ∈ s.pending ∧ s.step parse .pop = some t ∧ t.thread = .popped e ∧
      t.requests = s.requests ∧ t.state = s.state ∧ t.inst.websocket = s.inst.websocket := by
  have hqueue : s.pending = s.inst.eventsWebrtcToWebsockets := by
    rw [pending, hthread]
    rfl
  obtain ⟨e, es, he⟩ := List.exists_cons_of_ne_nil hpending
  have hpop : popEvent s.inst .webrtcToWebsockets =
      some (e, s.inst.setEvents .webrtcToWebsockets es) :=
    popEvent_eq_some_iff.2 ⟨es, hqueue.symm.trans he, rfl⟩
  refine ⟨e, { s with
      inst := s.inst.setEvents .webrtcToWebsockets es
      thread := .popped e }, ?_, ?_, rfl, rfl, rfl, rfl⟩
  · rw [he]
    exact List.mem_cons_self ..
  · simp [step, hthread, hpop]

/-- With an event on its way, the dispatch loop makes a request next. -/
theorem exists_run_request (hrunning : s.thread ≠ .ended) (hpending : s.pending ≠ [])
    (houtgoing : ∀ e ∈ s.pending, e.type.isOutgoing = true)
    (hreadable : ∀ e ∈ s.pending, (parse e.event).isSome) :
    ∃ as t, run (step parse) s as = some t ∧ (∀ a ∈ as, a = .pop ∨ a = .store) ∧
      t.requests = s.requests ++ [(s.state, s.inst.websocket)] := by
  cases hthread : s.thread with
  | ended => exact absurd hthread hrunning
  | popped e =>
      have hmem : e ∈ s.pending := by
        rw [pending_of_popped hthread]
        exact List.mem_cons_self ..
      obtain ⟨t, hstep, ht⟩ := step_store hthread (houtgoing e hmem) (hreadable e hmem)
      exact ⟨[.store], t, run_cons_eq_some_iff.2 ⟨t, hstep, rfl⟩, by simp, ht⟩
  | idle =>
      obtain ⟨e, u, hmem, hpop, hu, hrequests, hstate, hsocket⟩ := step_pop hthread hpending
      obtain ⟨t, hstore, ht⟩ := step_store hu (houtgoing e hmem) (hreadable e hmem)
      refine ⟨[.pop, .store], t, run_cons_eq_some_iff.2 ⟨u, hpop,
        run_cons_eq_some_iff.2 ⟨t, hstore, rfl⟩⟩, by simp, ?_⟩
      rw [ht, hrequests, hstate, hsocket]

/-- A step that is not allowed leaves an event on its way to a connection that is not
open. -/
theorem Sound.pending_of_not_allowed (hs : s.Sound) (hnot : ¬ s.Allowed a)
    (h : s.step parse a = some t) :
    t.state ≠ .opened ∧ t.pending ≠ [] ∧ ∀ e ∈ t.pending, e.type.isOutgoing = true := by
  cases step_spec h with
  | established => exact absurd trivial hnot
  | lost ha =>
      have hpending : s.pending ≠ [] := by
        rcases ha with rfl | rfl
        · exact hnot
        · exact hnot
      have hlost : ConnectionState.closed ≠ .opened := by decide
      exact ⟨hlost, hpending, hs.outgoing⟩
  | pushed htype =>
      refine ⟨hnot, ?_, ?_⟩
      · rw [pending_pushEvent]
        exact List.append_ne_nil_of_right_ne_nil _ (List.cons_ne_nil _ _)
      · rw [pending_pushEvent]
        exact List.forall_mem_append.2 ⟨hs.outgoing, List.forall_mem_singleton.2 htype⟩
  | nothing => exact absurd trivial hnot
  | popped => exact absurd trivial hnot
  | stored => exact absurd trivial hnot
  | dropped => exact absurd trivial hnot

/-- After such a step, the dispatch loop makes a request on a connection that is not open,
if it can read the events. -/
theorem Sound.breaks (hs : s.Sound) (hnot : ¬ s.Allowed a) (h : s.step parse a = some t)
    (hrunning : t.thread ≠ .ended) (hreadable : ∀ e ∈ t.pending, (parse e.event).isSome) :
    ∃ as u, run (Connection.step parse) t as = some u ∧ (∀ b ∈ as, b = .pop ∨ b = .store) ∧
      ¬ u.RequestsOpen := by
  obtain ⟨hstate, hpending, houtgoing⟩ := hs.pending_of_not_allowed hnot h
  obtain ⟨as, u, hrun, has, hu⟩ := exists_run_request hrunning hpending houtgoing hreadable
  refine ⟨as, u, hrun, has, fun hopen => hstate ?_⟩
  have hlast : (t.state, t.inst.websocket) ∈ u.requests := by
    rw [hu]
    exact List.mem_append_right _ (List.mem_singleton_self _)
  exact congrArg Prod.fst (hopen _ hlast)

/-! ## Runs -/

/-- In a run from an empty queue, where events are pushed while the connection is open
and it is lost while none is on its way, every request is made on an open connection. -/
theorem run_requestsOpen {inst : Instance} {connected : Bool} {as : List ConnectionAction}
    (hqueue : inst.eventsWebrtcToWebsockets = [])
    (h : Along (step parse) Allowed (start inst connected) as) :
    Always (step parse) RequestsOpen (start inst connected) as :=
  (h.always (fun _ _ _ hs hallowed hstep => hs.step hallowed hstep)
    (start_sound hqueue connected)).mono fun _ hs => hs.requestsOpen

/-- The first message of a connection is written. -/
theorem run_requestsOpen_connect :
    ∃ s, run (step fun _ => some (connectValue .startup)) (start .startup true)
        [.established, .pop, .store] = some s ∧
      s.requests = [(.opened, .live)] ∧ s.RequestsOpen := by
  have halong : Along (step fun _ => some (connectValue .startup)) Allowed
      (start .startup true) [.established, .pop, .store] :=
    ⟨trivial, fun _ _ => ⟨trivial, fun _ _ => ⟨trivial, fun _ _ => trivial⟩⟩⟩
  obtain ⟨s, hs, hrequests⟩ : ∃ s, run (step fun _ => some (connectValue .startup))
      (start .startup true) [.established, .pop, .store] = some s ∧
      s.requests = [(.opened, .live)] := ⟨_, rfl, rfl⟩
  exact ⟨s, hs, hrequests, (run_requestsOpen rfl halong).last hs⟩

/-- The connection is closed before the dispatch thread takes the first message; or it
cannot be made, and a candidate is pushed. -/
theorem run_closed_request :
    (∃ s, run (step fun _ => some (connectValue .startup)) (start .startup true)
        [.established, .closed, .pop, .store] = some s ∧ ¬ s.RequestsOpen) ∧
      ∃ s, run (step Signaling.sampleParse) (start .startup true)
        [.connectionError, .push .candidate (flatText [("type", .string "candidate")]), .pop,
          .store] = some s ∧ ¬ s.RequestsOpen := by
  have hrequests : ∀ {s : Connection}, s.requests = [(.closed, .null)] → ¬ s.RequestsOpen := by
    intro s hs hopen
    rw [RequestsOpen, hs, List.forall_mem_singleton] at hopen
    cases hopen
  constructor
  · obtain ⟨s, hs, hclosed⟩ : ∃ s, run (step fun _ => some (connectValue .startup))
        (start .startup true) [.established, .closed, .pop, .store] = some s ∧
        s.requests = [(.closed, .null)] := ⟨_, rfl, rfl⟩
    exact ⟨s, hs, hrequests hclosed⟩
  · obtain ⟨s, hs, hclosed⟩ : ∃ s, run (step Signaling.sampleParse) (start .startup true)
        [.connectionError, .push .candidate (flatText [("type", .string "candidate")]), .pop,
          .store] = some s ∧ s.requests = [(.closed, .null)] := ⟨_, rfl, rfl⟩
    exact ⟨s, hs, hrequests hclosed⟩

end Connection

end Bres
