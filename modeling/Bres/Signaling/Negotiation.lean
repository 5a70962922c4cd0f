import Bres.Pool.World

/-!
# Offers and answers

The three observers of `inc/bres+client_webrtc_inl.hh` that answer an offer, and
the part of `webrtc_event` that starts them: a new peer connection and
`SetRemoteDescription` on it. Its observer adds the tracks of a publisher and asks
for an answer; the observer of the answer sets it as the local description and
pushes the `ANSWER` event; and the observer of the local description asks for an
answer again. A subscriber has the first observer in both places.

libwebrtc completes each request once, in any order and with any result, as long
as the connection is the present one. An answer is created only while a remote
offer is unanswered, which a local description ends, and a track can be added to a
connection once.
-/

namespace Bres

open Transition

/-- `OBSERVER_CLSID`, the two that set a description. -/
inductive DescriptionObserver where
  | setSessionDescription
  | setSessionDescriptionLocal
deriving DecidableEq

/-- A request that libwebrtc has not completed yet. -/
inductive RtcRequest where
  | setRemoteDescription (observer : DescriptionObserver)
  | setLocalDescription (observer : DescriptionObserver)
  | createAnswer
deriving DecidableEq

/-- The two tracks of a publisher. -/
inductive MediaTrack where
  | video
  | audio
deriving DecidableEq

/-- A `PeerConnection` with the number of the offer that it was made for. -/
structure PeerConnection where
  offer : ℕ
  remoteOffer : Bool := false
  senders : List MediaTrack := []
  pending : List RtcRequest := []

namespace PeerConnection

/-- `AddTrack`, where the caller aborts on an error. -/
def addTrack (c : PeerConnection) (track : MediaTrack) : Except Fault PeerConnection :=
  if track ∈ c.senders then .error .panic
  else .ok { c with senders := c.senders ++ [track] }

def request (c : PeerConnection) (r : RtcRequest) : PeerConnection :=
  { c with pending := c.pending ++ [r] }

end PeerConnection

/-- An instance with its present peer connection. The offers so far, the offers that
an `ANSWER` event was pushed for, and the callbacks since the last offer are
recorded; no step reads them, but for the number of the next offer. -/
structure Negotiation where
  inst : Instance
  connection : Option PeerConnection := none
  aborted : Bool := false
  offers : ℕ := 0
  answers : List ℕ := []
  callbacks : ℕ := 0

/-- An `OFFER` event, whose session description can be created or not, or the
completion of a request, with the description in text form where an answer is
created. -/
inductive NegotiationAction where
  | offer (described : Bool)
  | complete (k : ℕ) (success : Bool) (sdp : String)

/-- `SetSessionDescriptionObserverImpl::OnSuccess` -/
def setSessionDescriptionOnSuccess (inst : Instance) (c : PeerConnection) :
    Except Fault PeerConnection := do
  if inst.rtc.videoTrack ≠ .null ∧ inst.rtc.audioTrack ≠ .null then
    let c ← c.addTrack .video
    let c ← c.addTrack .audio
    return c.request .createAnswer
  else return c.request .createAnswer

/-- The `OnSuccess` of either observer of a description. -/
def DescriptionObserver.onSuccess (inst : Instance) (c : PeerConnection) :
    DescriptionObserver → Except Fault PeerConnection
  | .setSessionDescription => setSessionDescriptionOnSuccess inst c
  | .setSessionDescriptionLocal => .ok (c.request .createAnswer)

/-- The observer that `CreateSessionDescriptionObserverImpl` gives to
`SetLocalDescription`. -/
def localObserver (inst : Instance) : DescriptionObserver :=
  if inst.order = .subscribe then .setSessionDescription else .setSessionDescriptionLocal

/-- The event that carries an answer, written by `dump`. -/
def answerMessage (dump : Json → Bytes) (sdp : String) : Bytes :=
  dump (.object [("type", .string "answer"), ("sdp", .string sdp)])

namespace Negotiation

/-- `webrtc_event` for an offer, from the creation of the peer connection on. -/
def webrtcOffer (s : Negotiation) (described : Bool) : Negotiation :=
  let c : PeerConnection := { offer := s.offers }
  { s with
    inst := { s.inst with rtc := { s.inst.rtc with peerConnection := .live } }
    connection :=
      some (if described then c.request (.setRemoteDescription .setSessionDescription) else c)
    offers := s.offers + 1
    callbacks := 0 }

/-- `CreateSessionDescriptionObserverImpl::OnSuccess` -/
def createSessionDescriptionOnSuccess (dump : Json → Bytes) (s : Negotiation)
    (c : PeerConnection) (sdp : String) : Negotiation :=
  { s with
    inst := pushEvent s.inst .webrtcToWebsockets .answer (answerMessage dump sdp)
    connection := some (c.request (.setLocalDescription (localObserver s.inst)))
    answers := s.answers ++ [c.offer] }

/-- The connection that the observer of a description leaves, or the end of the
program. -/
def described (s : Negotiation) : Except Fault PeerConnection → Negotiation
  | .ok c => { s with connection := some c }
  | .error _ => { s with aborted := true }

/-- The completion of a request on the present connection. A failure is logged
only. -/
def complete (dump : Json → Bytes) (s : Negotiation) (c : PeerConnection) (r : RtcRequest)
    (success : Bool) (sdp : String) : Option Negotiation :=
  match r, success with
  | .setRemoteDescription observer, true =>
      some (s.described (observer.onSuccess s.inst { c with remoteOffer := true }))
  | .setLocalDescription observer, true =>
      some (s.described (observer.onSuccess s.inst { c with remoteOffer := false }))
  | .createAnswer, true =>
      if c.remoteOffer then some (s.createSessionDescriptionOnSuccess dump c sdp) else none
  | _, false => some { s with connection := some c }

def step (dump : Json → Bytes) (s : Negotiation) (a : NegotiationAction) :
    Option Negotiation :=
  if s.aborted then none
  else
    match a with
    | .offer described => some (s.webrtcOffer described)
    | .complete k success sdp =>
        match s.connection with
        | none => none
        | some c =>
            match c.pending[k]? with
            | none => none
            | some r =>
                complete dump { s with callbacks := s.callbacks + 1 }
                  { c with pending := c.pending.eraseIdx k } r success sdp

/-- An instance before its first offer. -/
def start (inst : Instance) : Negotiation := { inst := inst }

end Negotiation

/-- How far the observers have come with an offer, with a bound on the callbacks
that are left. -/
inductive PeerConnection.Course (inst : Instance) (answers : List ℕ) :
    PeerConnection → ℕ → Prop where
  | offered {n : ℕ} (hanswers : n ∉ answers) :
      Course inst answers
        { offer := n, pending := [.setRemoteDescription .setSessionDescription] } 4
  | accepted {n : ℕ} {senders : List MediaTrack} (hanswers : n ∉ answers) :
      Course inst answers
        { offer := n, remoteOffer := true, senders := senders, pending := [.createAnswer] } 3
  | answered {n : ℕ} {senders : List MediaTrack} :
      Course inst answers
        { offer := n, remoteOffer := true, senders := senders
          pending := [.setLocalDescription (localObserver inst)] } 2
  | settled {n : ℕ} {senders : List MediaTrack} :
      Course inst answers
        { offer := n, senders := senders, pending := [.createAnswer] } 1
  | ended {c : PeerConnection} (hpending : c.pending = []) : Course inst answers c 0

/-- A subscriber has no tracks. -/
def Instance.TracksMatchOrder (inst : Instance) : Prop :=
  inst.order = .subscribe → inst.rtc.videoTrack = .null ∨ inst.rtc.audioTrack = .null

namespace Negotiation

/-- What holds along every exchange. -/
structure Orderly (s : Negotiation) : Prop where
  running : s.aborted = false
  tracks : s.inst.TracksMatchOrder
  answers_nodup : s.answers.Nodup
  answers_lt : ∀ n ∈ s.answers, n < s.offers
  callbacks_le : s.callbacks ≤ 4
  connection : ∀ c, s.connection = some c → c.offer < s.offers ∧ c.senders.Nodup ∧
    ∃ budget, c.Course s.inst s.answers budget ∧ s.callbacks + budget ≤ 4

variable {dump : Json → Bytes} {s t : Negotiation} {a : NegotiationAction}

theorem start_orderly {inst : Instance} (h : inst.TracksMatchOrder) : (start inst).Orderly where
  running := rfl
  tracks := h
  answers_nodup := List.nodup_nil
  answers_lt := List.forall_mem_nil _
  callbacks_le := Nat.zero_le 4
  connection c hc := absurd hc.symm (Option.some_ne_none c)

theorem Orderly.offer (hs : s.Orderly) (described : Bool) : (s.webrtcOffer described).Orderly where
  running := hs.running
  tracks := hs.tracks
  answers_nodup := hs.answers_nodup
  answers_lt n hn := (hs.answers_lt n hn).trans (Nat.lt_succ_self _)
  callbacks_le := Nat.zero_le 4
  connection c hc := by
    have hfresh : s.offers ∉ s.answers := fun hmem => Nat.lt_irrefl _ (hs.answers_lt _ hmem)
    cases described with
    | true =>
        cases hc
        exact ⟨Nat.lt_succ_self _, List.nodup_nil, 4, .offered hfresh, le_rfl⟩
    | false =>
        cases hc
        exact ⟨Nat.lt_succ_self _, List.nodup_nil, 0, .ended rfl, Nat.zero_le _⟩

theorem getElem?_singleton_eq_some {α : Type*} {a b : α} {k : ℕ} (h : [a][k]? = some b) :
    k = 0 ∧ b = a := by
  obtain ⟨hk, hb⟩ := List.getElem?_eq_some_iff.1 h
  obtain rfl : k = 0 := Nat.lt_one_iff.1 hk
  exact ⟨rfl, hb.symm⟩

/-- The tracks of a publisher are added to a connection without senders. -/
theorem setSessionDescriptionOnSuccess_of_senders_nil (inst : Instance) {c : PeerConnection}
    (h : c.senders = []) :
    ∃ senders : List MediaTrack, senders.Nodup ∧
      setSessionDescriptionOnSuccess inst c =
        .ok ({ c with senders := senders }.request .createAnswer) := by
  unfold setSessionDescriptionOnSuccess
  split
  · refine ⟨[.video, .audio], by decide, ?_⟩
    simp [PeerConnection.addTrack, h, bind, Except.bind, pure, Except.pure]
  · refine ⟨[], List.nodup_nil, ?_⟩
    rw [← h]
    rfl

/-- The local description of a subscriber adds no track, and that of a publisher has
an observer that adds none. -/
theorem localObserver_onSuccess {inst : Instance} (h : inst.TracksMatchOrder)
    (c : PeerConnection) :
    (localObserver inst).onSuccess inst c = .ok (c.request .createAnswer) := by
  unfold localObserver
  split
  · rename_i horder
    have hnone : ¬ (inst.rtc.videoTrack ≠ .null ∧ inst.rtc.audioTrack ≠ .null) := by
      rcases h horder with hnull | hnull
      · exact fun hboth => hboth.1 hnull
      · exact fun hboth => hboth.2 hnull
    rw [DescriptionObserver.onSuccess, setSessionDescriptionOnSuccess, if_neg hnone]
    rfl
  · rfl

/-- A completion on a connection that stays orderly. -/
theorem Orderly.completed (hs : s.Orderly) {c : PeerConnection} (hoffer : c.offer < s.offers)
    (hsenders : c.senders.Nodup) {budget : ℕ} (hcourse : c.Course s.inst s.answers budget)
    (hbudget : s.callbacks + 1 + budget ≤ 4) :
    Orderly { s with callbacks := s.callbacks + 1, connection := some c } where
  running := hs.running
  tracks := hs.tracks
  answers_nodup := hs.answers_nodup
  answers_lt := hs.answers_lt
  callbacks_le := (Nat.le_add_right _ budget).trans hbudget
  connection c' hc' := by
    cases hc'
    exact ⟨hoffer, hsenders, budget, hcourse, hbudget⟩

/-- The answer of an offer that had none. -/
theorem Orderly.createSessionDescription (hs : s.Orderly) {n : ℕ} {senders : List MediaTrack}
    (hanswers : n ∉ s.answers) (hoffer : n < s.offers) (hsenders : senders.Nodup)
    (hbudget : s.callbacks + 3 ≤ 4) (sdp : String) :
    (createSessionDescriptionOnSuccess dump { s with callbacks := s.callbacks + 1 }
      { offer := n, remoteOffer := true, senders := senders } sdp).Orderly where
  running := hs.running
  tracks := hs.tracks
  answers_nodup := by
    refine List.nodup_append.2 ⟨hs.answers_nodup, List.nodup_singleton n, ?_⟩
    rintro m hm _ hn rfl
    rw [List.mem_singleton.1 hn] at hm
    exact hanswers hm
  answers_lt m hm := by
    rcases List.mem_append.1 hm with hm | hm
    · exact hs.answers_lt m hm
    · rw [List.mem_singleton.1 hm]
      exact hoffer
  callbacks_le := by
    change s.callbacks + 1 ≤ 4
    omega
  connection c hc := by
    cases hc
    exact ⟨hoffer, hsenders, 2, .answered, by
      change s.callbacks + 1 + 2 ≤ 4
      omega⟩

/-- No more than one request is under way. -/
theorem course_pending {inst : Instance} {answers : List ℕ} {c : PeerConnection} {budget k : ℕ}
    {r : RtcRequest} (h : c.Course inst answers budget) (hr : c.pending[k]? = some r) :
    k = 0 ∧ c.pending = [r] ∧ 0 < budget := by
  cases h with
  | ended hpending =>
      rw [hpending] at hr
      cases hr
  | offered _ =>
      obtain ⟨rfl, rfl⟩ := getElem?_singleton_eq_some hr
      exact ⟨rfl, rfl, Nat.succ_pos 3⟩
  | accepted _ =>
      obtain ⟨rfl, rfl⟩ := getElem?_singleton_eq_some hr
      exact ⟨rfl, rfl, Nat.succ_pos 2⟩
  | answered =>
      obtain ⟨rfl, rfl⟩ := getElem?_singleton_eq_some hr
      exact ⟨rfl, rfl, Nat.succ_pos 1⟩
  | settled =>
      obtain ⟨rfl, rfl⟩ := getElem?_singleton_eq_some hr
      exact ⟨rfl, rfl, Nat.succ_pos 0⟩

/-- A request that fails ends the course of its offer. -/
theorem Orderly.failed (hs : s.Orderly) {c : PeerConnection} (hc : s.connection = some c)
    {k : ℕ} {r : RtcRequest} (hr : c.pending[k]? = some r) :
    Orderly { s with
      callbacks := s.callbacks + 1
      connection := some { c with pending := c.pending.eraseIdx k } } := by
  obtain ⟨hoffer, hsenders, budget, hcourse, hbudget⟩ := hs.connection c hc
  obtain ⟨rfl, hpending, hpos⟩ := course_pending hcourse hr
  refine hs.completed hoffer hsenders (.ended ?_) (by omega)
  rw [hpending]
  rfl

/-- The request that is under way succeeds. -/
theorem Orderly.succeeded (hs : s.Orderly) {c : PeerConnection} (hc : s.connection = some c)
    {r : RtcRequest} (hr : c.pending = [r]) {sdp : String}
    (h : Negotiation.complete dump { s with callbacks := s.callbacks + 1 }
      { c with pending := [] } r true sdp = some t) : t.Orderly := by
  obtain ⟨hoffer, hsenders, budget, hcourse, hbudget⟩ := hs.connection c hc
  cases hcourse with
  | ended hpending =>
      rw [hpending] at hr
      cases hr
  | @offered n hanswers =>
      obtain rfl := List.singleton_inj.1 hr
      have hnone : ({ offer := n, remoteOffer := true } : PeerConnection).senders = [] := rfl
      obtain ⟨senders, hnodup, hresult⟩ :=
        setSessionDescriptionOnSuccess_of_senders_nil s.inst hnone
      have ht : t = described { s with callbacks := s.callbacks + 1 }
          (setSessionDescriptionOnSuccess s.inst { offer := n, remoteOffer := true }) :=
        (Option.some.inj h).symm
      rw [ht, hresult]
      exact hs.completed hoffer hnodup (.accepted hanswers) (by omega)
  | accepted hanswers =>
      obtain rfl := List.singleton_inj.1 hr
      cases h
      exact hs.createSessionDescription hanswers hoffer hsenders (by omega) sdp
  | @answered n senders =>
      obtain rfl := List.singleton_inj.1 hr
      have ht : t = described { s with callbacks := s.callbacks + 1 }
          ((localObserver s.inst).onSuccess s.inst { offer := n, senders := senders }) :=
        (Option.some.inj h).symm
      rw [ht, localObserver_onSuccess hs.tracks]
      exact hs.completed hoffer hsenders .settled (by omega)
  | settled =>
      obtain rfl := List.singleton_inj.1 hr
      cases h

theorem Orderly.complete (hs : s.Orderly) {c : PeerConnection} (hc : s.connection = some c)
    {k : ℕ} {r : RtcRequest} (hr : c.pending[k]? = some r) {success : Bool} {sdp : String}
    (h : Negotiation.complete dump { s with callbacks := s.callbacks + 1 }
      { c with pending := c.pending.eraseIdx k } r success sdp = some t) : t.Orderly := by
  cases success with
  | false =>
      have ht : t = { s with
          callbacks := s.callbacks + 1
          connection := some { c with pending := c.pending.eraseIdx k } } := by
        cases r <;> exact (Option.some.inj h).symm
      rw [ht]
      exact hs.failed hc hr
  | true =>
      obtain ⟨-, -, budget, hcourse, -⟩ := hs.connection c hc
      obtain ⟨rfl, hpending, -⟩ := course_pending hcourse hr
      rw [hpending] at h
      exact hs.succeeded hc hpending h

theorem step_eq_some (h : s.step dump a = some t) :
    (∃ described, a = .offer described ∧ t = s.webrtcOffer described) ∨
      ∃ k success sdp c r, a = .complete k success sdp ∧ s.connection = some c ∧
        c.pending[k]? = some r ∧
        Negotiation.complete dump { s with callbacks := s.callbacks + 1 }
          { c with pending := c.pending.eraseIdx k } r success sdp = some t := by
  obtain ⟨-, h⟩ := Option.ite_none_left_eq_some.1 h
  cases a with
  | offer described =>
      cases h
      exact .inl ⟨described, rfl, rfl⟩
  | complete k success sdp =>
      cases hc : s.connection with
      | none => simp [hc] at h
      | some c =>
          cases hr : c.pending[k]? with
          | none => simp [hc, hr] at h
          | some r =>
              simp only [hc, hr] at h
              exact .inr ⟨k, success, sdp, c, r, rfl, rfl, hr, h⟩

theorem Orderly.step (hs : s.Orderly) (h : s.step dump a = some t) : t.Orderly := by
  rcases step_eq_some h with ⟨described, -, rfl⟩ | ⟨k, success, sdp, c, r, -, hc, hr, h⟩
  · exact hs.offer described
  · exact hs.complete hc hr h

end Negotiation

/-! ## The events pushed -/

/-- The `ANSWER` events in the queue to the socket. -/
def Instance.answerEvents (inst : Instance) : ℕ :=
  inst.eventsWebrtcToWebsockets.countP (·.type = .answer)

namespace Negotiation

variable {dump : Json → Bytes} {s t : Negotiation} {a : NegotiationAction}

/-- Every answer on record is in the queue, besides the `n` that were there before. -/
def Counted (n : ℕ) (s : Negotiation) : Prop :=
  s.inst.answerEvents = n + s.answers.length

theorem Counted.described {n : ℕ} (hs : s.Counted n) (r : Except Fault PeerConnection) :
    (s.described r).Counted n := by
  cases r with
  | ok c => exact hs
  | error e => exact hs

theorem Counted.complete {n : ℕ} (hs : s.Counted n) {c : PeerConnection} {r : RtcRequest}
    {success : Bool} {sdp : String} (h : s.complete dump c r success sdp = some t) :
    t.Counted n := by
  cases success with
  | false =>
      cases r <;> cases h <;> exact hs
  | true =>
      cases r with
      | setRemoteDescription observer =>
          cases h
          exact hs.described _
      | setLocalDescription observer =>
          cases h
          exact hs.described _
      | createAnswer =>
          obtain ⟨-, h⟩ := Option.ite_none_right_eq_some.1 h
          cases h
          have hpushed : (s.createSessionDescriptionOnSuccess dump c sdp).inst.answerEvents =
              s.inst.answerEvents + 1 := by
            simp [createSessionDescriptionOnSuccess, Instance.answerEvents, pushEvent,
              Instance.setEvents, Instance.events]
          rw [Counted, hpushed, hs]
          simp [createSessionDescriptionOnSuccess, Nat.add_assoc]

theorem Counted.step {n : ℕ} (hs : s.Counted n) (h : s.step dump a = some t) :
    t.Counted n := by
  rcases step_eq_some h with ⟨described, -, rfl⟩ | ⟨k, success, sdp, c, r, -, hc, hr, h⟩
  · exact hs
  · exact Counted.complete (s := { s with callbacks := s.callbacks + 1 }) hs h

/-- In every exchange, each offer is answered at most once, each track is added to a
connection at most once, so that the program does not abort, and an offer is
followed by at most four callbacks. -/
theorem run_answers {inst : Instance} (hinst : inst.TracksMatchOrder)
    {as : List NegotiationAction} (h : run (step dump) (start inst) as = some t) :
    t.answers.Nodup ∧ (∀ n ∈ t.answers, n < t.offers) ∧
      t.inst.answerEvents = inst.answerEvents + t.answers.length ∧
      (∀ c, t.connection = some c → c.senders.Nodup) ∧ t.aborted = false ∧
      t.callbacks ≤ 4 := by
  have horderly : t.Orderly := run_preserves (fun _ _ _ hs hstep => hs.step hstep)
    (start_orderly hinst) h
  have hstart : (start inst).Counted inst.answerEvents := rfl
  have hcounted : t.Counted inst.answerEvents :=
    run_preserves (fun _ _ _ hs hstep => hs.step hstep) hstart h
  exact ⟨horderly.answers_nodup, horderly.answers_lt, hcounted,
    fun c hc => (horderly.connection c hc).2.1, horderly.running, horderly.callbacks_le⟩

/-- An exchange that ends with the failure of the second answer. -/
def answeredOffer : List NegotiationAction :=
  [.offer true, .complete 0 true "", .complete 0 true "v=0", .complete 0 true "",
    .complete 0 false ""]

theorem run_answers_publisher :
    ∃ t, run (step fun _ => []) (start (webrtcInit { order := .publish })) answeredOffer =
        some t ∧
      t.answers = [0] ∧ t.answers.Nodup ∧ t.aborted = false ∧ t.callbacks ≤ 4 := by
  have htracks : (webrtcInit { order := .publish }).TracksMatchOrder := by
    intro horder
    cases horder
  obtain ⟨t, ht, hanswers⟩ : ∃ t, run (step fun _ => [])
      (start (webrtcInit { order := .publish })) answeredOffer = some t ∧ t.answers = [0] :=
    ⟨_, rfl, rfl⟩
  obtain ⟨hnodup, -, -, -, hrunning, hcallbacks⟩ := run_answers htracks ht
  exact ⟨t, ht, hanswers, hnodup, hrunning, hcallbacks⟩

end Negotiation

/-! ## The slots of the pool -/

/-- An instance that `webrtc_init` has not made a publisher. -/
def Instance.Trackless (inst : Instance) : Prop :=
  inst.order = .subscribe ∧ inst.rtc.audioTrack = .null ∧ inst.rtc.videoTrack = .null

theorem webrtcInit_trackless {inst : Instance} (h : inst.Trackless) :
    (webrtcInit inst).Trackless := by
  obtain ⟨horder, haudio, hvideo⟩ := h
  have hnot : inst.order ≠ .publish := by simp [horder]
  refine ⟨horder, ?_, ?_⟩
  · simp [webrtcInit, hnot, haudio]
  · simp [webrtcInit, hnot, hvideo]

theorem ThreadStep.trackless {s t : Slot} (h : ThreadStep s t) (hs : s.inst.Trackless) :
    t.inst.Trackless := by
  obtain ⟨horder, haudio, hvideo⟩ := hs
  refine ⟨?_, ?_, ?_⟩
  · exact (congrArg Instance.order h.frozen).trans horder
  · exact (congrArg (fun inst : Instance => inst.rtc.audioTrack) h.frozen).trans haudio
  · exact (congrArg (fun inst : Instance => inst.rtc.videoTrack) h.frozen).trans hvideo

theorem SlotChange.trackless {P : Platform} {env : Answers} {ev : SEvent} {pool : Pool}
    {i : Fin instanceMax} {inst : Instance} (h : SlotChange P env ev pool i inst)
    (hi : (pool.slot i).Trackless) : inst.Trackless := by
  cases h with
  | kept => exact hi
  | opened => exact webrtcInit_trackless hi
  | shown => exact ⟨rfl, hi.2⟩
  | closed => exact hi
  | freed => exact hi
  | updated => exact hi

theorem SlotEffect.trackless {P : Platform} {w : World} {a : WorldAction} {i : Fin instanceMax}
    {t : Slot} (h : SlotEffect P w a i t) (hs : (w.slot i).inst.Trackless) :
    t.inst.Trackless := by
  cases h with
  | untouched => exact hs
  | commanded ha hidle hchange hreleased => exact hchange.trackless hs
  | worked ha hthread => exact hthread.trackless hs

namespace World

variable {P : Platform} {w : World}

theorem Reachable.trackless (h : w.Reachable P) (i : Fin instanceMax) :
    (w.pool.slot i).Trackless := by
  have hinvariant : w.Sound ∧ ∀ i, (w.slot i).inst.Trackless := by
    refine Transition.Reachable.invariant
      (I := fun w => w.Sound ∧ ∀ i, (w.slot i).inst.Trackless) (fun w a w' hw hstep => ?_)
      ⟨startup_sound, fun _ => ⟨rfl, rfl, rfl⟩⟩ h
    refine ⟨hw.1.step hstep, fun i => ?_⟩
    exact (hw.1.effect hstep i).trackless (hw.2 i)
  exact hinvariant.2 i

/-- The subscribers of every pool that the program can reach. -/
theorem Reachable.tracksMatchOrder (h : w.Reachable P) (i : Fin instanceMax) :
    (w.pool.slot i).TracksMatchOrder := fun _ => .inl (h.trackless i).2.2

end World

end Bres
