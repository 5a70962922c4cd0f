import Bres.Pool.Threads
import Bres.Transition.Run

/-!
# From the signaling queue to the socket

Any thread pushes an outgoing event, the dispatch thread pops one and stores its
text in `sendTarget`, and the websocket service thread writes `sendTarget` when
libwebsockets calls back. A write request is answered by at least one callback, and
requests made before it may be merged.

`sendTarget` holds one text, and `snprintf` can store a text of up to `BUFFLEN - 2` bytes
without a zero byte. The events are written once each, in order and as they are exactly if
the dispatch thread stores a text only when the one before it has been written, every text
can be parsed, no callback comes without a request, and the text that a callback finds is
one that `snprintf` can store.
-/

namespace Bres

open Transition

/-- The dispatch thread: between two events, with an event it has popped, or ended
by an exception, which ends the program. -/
inductive DispatchThread where
  | idle
  | popped (e : SEvent)
  | ended
deriving DecidableEq

structure Signaling where
  inst : Instance
  thread : DispatchThread := .idle
  /-- A write request that no callback has answered yet. -/
  requested : Bool := false
  /-- The texts pushed so far. -/
  pushed : List Bytes := []
  /-- The calls of `lws_write` so far. -/
  written : List LwsWrite := []

inductive SignalingAction where
  | push (type : EventType) (text : Bytes)
  | pop
  | store
  | writeable

namespace Signaling

def step (parse : Bytes → Option Json) (s : Signaling) : SignalingAction → Option Signaling
  | .push type text =>
      if type.isOutgoing ∧ s.thread ≠ .ended then
        some { s with
          inst := pushEvent s.inst .webrtcToWebsockets type text
          pushed := s.pushed ++ [text] }
      else none
  | .pop =>
      match s.thread with
      | .idle =>
          match popEvent s.inst .webrtcToWebsockets with
          | none => some s
          | some (e, inst) => some { s with inst := inst, thread := .popped e }
      | _ => none
  | .store =>
      match s.thread with
      | .popped e =>
          match websocketsEvent parse s.inst e.type e.event with
          | .thrown _ (inst, _) => some { s with inst := inst, thread := .ended }
          | .done (inst, requested) =>
              some { s with
                inst := inst, thread := .idle, requested := s.requested || requested }
      | _ => none
  | .writeable =>
      if (s.requested = true ∨ s.written ≠ []) ∧ s.thread ≠ .ended then
        some { s with
          requested := false, written := s.written ++ [clientWriteable s.inst] }
      else none

/-- A slot whose queue of outgoing events is empty. -/
def start (inst : Instance) : Signaling :=
  { inst := inst.setEvents .webrtcToWebsockets [] }

/-- The event in the hand of the dispatch thread. -/
def inHand (s : Signaling) : List SEvent :=
  match s.thread with
  | .popped e => [e]
  | _ => []

/-- The texts that are still to be written, in order. -/
def outstanding (s : Signaling) : List Bytes :=
  (if s.requested then [s.inst.sendTarget] else []) ++
    (s.inHand ++ s.inst.eventsWebrtcToWebsockets).map SEvent.event

/-- The calls of `lws_write` so far are those of these texts, each byte for byte. -/
def Wrote (s : Signaling) (texts : List Bytes) : Prop :=
  List.Forall₂ LwsWrite.IsExact s.written texts

/-- Every text pushed has been written, as it is, once and in order, or is still to be. -/
def InOrder (s : Signaling) : Prop :=
  ∃ texts, s.Wrote texts ∧ s.pushed = texts ++ s.outstanding

/-- A text is stored only when no request is pending, and if it can be parsed; a
callback comes only if a request is pending and the text stored can be printed. -/
def Paced (parse : Bytes → Option Json) (s : Signaling) : SignalingAction → Prop
  | .store => s.requested = false ∧ ∀ e ∈ s.inHand, (parse e.event).isSome
  | .writeable => s.requested = true ∧ IsPrintable s.inst.sendTarget
  | _ => True

variable {parse : Bytes → Option Json} {s t : Signaling} {a : SignalingAction}

/-! ## One step -/

inductive Step (parse : Bytes → Option Json) (s : Signaling) :
    SignalingAction → Signaling → Prop where
  | pushed {type : EventType} {text : Bytes} (htype : type.isOutgoing = true) :
      Step parse s (.push type text)
        { s with
          inst := { s.inst with
            eventsWebrtcToWebsockets := s.inst.eventsWebrtcToWebsockets ++ [⟨type, text⟩] }
          pushed := s.pushed ++ [text] }
  | nothing : Step parse s .pop s
  | popped {e : SEvent} {es : List SEvent} (hthread : s.thread = .idle)
      (hqueue : s.inst.eventsWebrtcToWebsockets = e :: es) :
      Step parse s .pop
        { s with inst := { s.inst with eventsWebrtcToWebsockets := es }, thread := .popped e }
  | stored {e : SEvent} (hthread : s.thread = .popped e) (hparse : (parse e.event).isSome)
      (htype : e.type.isOutgoing = true) :
      Step parse s .store
        { s with
          inst := { s.inst with sendTarget := e.event }, thread := .idle, requested := true }
  | ignored {e : SEvent} (hthread : s.thread = .popped e)
      (htype : e.type.isOutgoing = false) : Step parse s .store { s with thread := .idle }
  | failed {e : SEvent} (hthread : s.thread = .popped e) (hparse : parse e.event = none) :
      Step parse s .store { s with thread := .ended }
  | written :
      Step parse s .writeable
        { s with requested := false, written := s.written ++ [lwsWrite s.inst.sendTarget] }

theorem step_spec (h : s.step parse a = some t) : Step parse s a t := by
  cases a with
  | push type text =>
      obtain ⟨⟨htype, -⟩, h⟩ := Option.ite_none_right_eq_some.1 h
      obtain rfl := Option.some.inj h
      exact .pushed htype
  | pop =>
      simp only [step] at h
      split at h
      · rename_i hthread
        obtain ⟨-, h⟩ | ⟨e, es, hqueue, h⟩ := popEvent_cases h
        · obtain rfl := Option.some.inj h
          exact .nothing
        · obtain rfl := Option.some.inj h
          exact .popped hthread hqueue
      · cases h
  | store =>
      simp only [step] at h
      split at h
      · rename_i e hthread
        obtain ⟨hparse, htype, hevent⟩ | ⟨htype, hevent⟩ | ⟨hparse, hevent⟩ :=
          websocketsEvent_cases parse s.inst e.type e.event
        · simp only [hevent, Bool.or_true] at h
          obtain rfl := Option.some.inj h
          exact .stored hthread hparse htype
        · simp only [hevent, Bool.or_false] at h
          obtain rfl := Option.some.inj h
          exact .ignored hthread htype
        · rw [hevent] at h
          obtain rfl := Option.some.inj h
          exact .failed hthread hparse
      · cases h
  | writeable =>
      obtain ⟨-, h⟩ := Option.ite_none_right_eq_some.1 h
      obtain rfl := Option.some.inj h
      exact .written

/-- The dispatch thread of the program takes an event and stores its text in one step. -/
theorem run_of_threadStep {hands : Hands} {u : Slot} (hthread : s.thread = .idle)
    (h : threadStep parse ⟨s.inst, hands⟩ .websocketsEvent = some u) :
    ∃ as t, run (Signaling.step parse) s (.pop :: as) = some t ∧ t.thread = .idle ∧
      u = ⟨t.inst, hands⟩ := by
  obtain ⟨-, h⟩ := Option.ite_none_right_eq_some.1 h
  cases hpop : popEvent s.inst .webrtcToWebsockets with
  | none =>
      rw [hpop] at h
      refine ⟨[], s, ?_, hthread, (Option.some.inj h).symm⟩
      simp [run, Signaling.step, hthread, hpop]
  | some r =>
      obtain ⟨e, inst⟩ := r
      simp only [hpop] at h
      cases hevent : websocketsEvent parse inst e.type e.event with
      | thrown x r => simp [hevent] at h
      | done r =>
          obtain ⟨inst', requested⟩ := r
          simp only [hevent] at h
          refine ⟨[.store], { s with
            inst := inst', requested := s.requested || requested }, ?_, hthread,
            (Option.some.inj h).symm⟩
          simp [run, Signaling.step, hthread, hpop, hevent]

/-- All queued events are of the types that `websocketsEvent` sends. -/
def Outgoing (s : Signaling) : Prop :=
  ∀ e ∈ s.inHand ++ s.inst.eventsWebrtcToWebsockets, e.type.isOutgoing = true

theorem Outgoing.step (hs : s.Outgoing) (h : Step parse s a t) : t.Outgoing := by
  unfold Outgoing inHand at *
  cases h with
  | @pushed type text htype =>
      rw [← List.append_assoc]
      simp only [List.forall_mem_append, List.forall_mem_singleton] at hs ⊢
      exact ⟨hs, htype⟩
  | nothing => exact hs
  | popped hthread hqueue =>
      rw [hthread, hqueue] at hs
      exact hs
  | stored hthread => exact fun e he => hs e (List.mem_append_right _ he)
  | ignored hthread => exact fun e he => hs e (List.mem_append_right _ he)
  | failed hthread => exact fun e he => hs e (List.mem_append_right _ he)
  | written => exact hs

/-- A callback writes the text that is stored if it can be printed. -/
theorem Wrote.writeable {texts : List Bytes} (hs : s.Wrote texts)
    (hprint : IsPrintable s.inst.sendTarget) :
    List.Forall₂ LwsWrite.IsExact (s.written ++ [lwsWrite s.inst.sendTarget])
      (texts ++ [s.inst.sendTarget]) :=
  List.rel_append hs (.cons ((lwsWrite_isExact_iff _).2 hprint) .nil)

/-- A paced step keeps the texts in order. -/
theorem InOrder.step (hs : s.InOrder) (houtgoing : s.Outgoing) (hpaced : s.Paced parse a)
    (h : Step parse s a t) : t.InOrder := by
  obtain ⟨texts, hwrote, hpushed⟩ := hs
  unfold InOrder outstanding inHand at *
  cases h with
  | pushed htype =>
      refine ⟨texts, hwrote, ?_⟩
      simp only [List.map_append] at hpushed ⊢
      simp [hpushed]
  | nothing => exact ⟨texts, hwrote, hpushed⟩
  | popped hthread hqueue => exact ⟨texts, hwrote, by simpa [hthread, hqueue] using hpushed⟩
  | stored hthread hparse htype =>
      obtain ⟨hrequested, -⟩ := hpaced
      exact ⟨texts, hwrote, by simpa [hthread, hrequested] using hpushed⟩
  | @ignored e hthread htype =>
      have hmem : e ∈ s.inHand := by simp [inHand, hthread]
      rw [houtgoing e (List.mem_append_left _ hmem)] at htype
      cases htype
  | @failed e hthread hparse =>
      have hmem : e ∈ s.inHand := by simp [inHand, hthread]
      have hsome := hpaced.2 e hmem
      rw [hparse] at hsome
      cases hsome
  | written =>
      obtain ⟨hrequested, hprint⟩ := hpaced
      refine ⟨texts ++ [s.inst.sendTarget], hwrote.writeable hprint, ?_⟩
      simpa [hrequested] using hpushed

theorem InOrder.length_pushed (hs : s.InOrder) :
    s.pushed.length = s.written.length + s.outstanding.length := by
  obtain ⟨texts, hwrote, hpushed⟩ := hs
  rw [hpushed, List.length_append, hwrote.length_eq]

/-- A text that is written as it is can be printed. -/
theorem isPrintable_of_inOrder (hs : s.InOrder) (hrequested : s.requested = true)
    (ht : InOrder { s with
      requested := false, written := s.written ++ [lwsWrite s.inst.sendTarget] }) :
    IsPrintable s.inst.sendTarget := by
  obtain ⟨texts, hwrote, hpushed⟩ := hs
  obtain ⟨texts', hwrote', hpushed'⟩ := ht
  have hsame : texts' = texts ++ [s.inst.sendTarget] := by
    -- what is still to be written begins with the text in `sendTarget`
    simp only [outstanding, hrequested, if_true] at hpushed
    rw [hpushed, outstanding, if_neg (by simp), List.nil_append, ← List.append_assoc] at hpushed'
    exact (List.append_cancel_right hpushed').symm
  rw [Wrote, hsame] at hwrote'
  have hlast : List.Forall₂ LwsWrite.IsExact [lwsWrite s.inst.sendTarget]
      [s.inst.sendTarget] := by
    have hdrop := List.forall₂_drop s.written.length hwrote'
    rwa [List.drop_left, hwrote.length_eq, List.drop_left] at hdrop
  exact (lwsWrite_isExact_iff _).1 (List.forall₂_cons.1 hlast).1

/-- A step that is not paced loses a text, writes one twice, or changes one. -/
theorem paced_of_inOrder (hs : s.InOrder) (ht : t.InOrder) (h : Step parse s a t) :
    s.Paced parse a := by
  have hlength := hs.length_pushed
  have hlength' := ht.length_pushed
  unfold outstanding inHand at hlength hlength'
  cases h with
  | pushed => trivial
  | nothing => trivial
  | popped => trivial
  | stored hthread hparse htype =>
      refine ⟨?_, fun d hd => ?_⟩
      · by_contra hrequested
        rw [Bool.not_eq_false] at hrequested
        simp [hthread, hrequested] at hlength hlength'
        omega
      · simp only [inHand, hthread, List.mem_singleton] at hd
        rw [hd]
        exact hparse
  | ignored hthread htype =>
      simp [hthread] at hlength hlength'
      omega
  | failed hthread hparse =>
      simp [hthread] at hlength hlength'
      omega
  | written =>
      have hrequested : s.requested = true := by
        by_contra hnone
        rw [Bool.not_eq_true] at hnone
        simp [hnone] at hlength hlength'
        omega
      exact ⟨hrequested, isPrintable_of_inOrder hs hrequested ht⟩

/-! ## Runs -/

/-- What holds at the start of a run and is kept by its paced steps. -/
structure Sound (s : Signaling) : Prop where
  outgoing : s.Outgoing
  inOrder : s.InOrder

theorem start_sound (inst : Instance) : (start inst).Sound := ⟨nofun, [], .nil, rfl⟩

theorem Sound.step (hs : s.Sound) (hpaced : s.Paced parse a)
    (h : s.step parse a = some t) : t.Sound :=
  ⟨hs.outgoing.step (step_spec h), hs.inOrder.step hs.outgoing hpaced (step_spec h)⟩

/-- The dispatch thread runs, it will not fail on an event that is there, and what is still
to be written can be printed. -/
structure Running (parse : Bytes → Option Json) (s : Signaling) : Prop where
  thread : s.thread ≠ .ended
  readable : ∀ e ∈ s.inHand ++ s.inst.eventsWebrtcToWebsockets, (parse e.event).isSome
  printable : ∀ text ∈ s.outstanding, IsPrintable text

/-- The work that is left: up to three steps for an event. -/
def load (s : Signaling) : ℕ :=
  3 * s.inst.eventsWebrtcToWebsockets.length + 2 * s.inHand.length + s.requested.toNat

theorem outstanding_eq_nil_of_load {s : Signaling} (h : s.load = 0) : s.outstanding = [] := by
  unfold load at h
  have hqueue : s.inst.eventsWebrtcToWebsockets = [] := List.eq_nil_of_length_eq_zero (by omega)
  have hhand : s.inHand = [] := List.eq_nil_of_length_eq_zero (by omega)
  have hrequested : s.requested = false := by
    cases hrequested : s.requested with
    | false => rfl
    | true => simp [hrequested] at h
  simp [outstanding, hqueue, hhand, hrequested]

/-- As long as work is left, there is a paced step that does some of it. -/
theorem Sound.advance (hs : s.Sound) (hrunning : s.Running parse) (hload : s.load ≠ 0) :
    ∃ a t, s.step parse a = some t ∧ s.Paced parse a ∧ t.pushed = s.pushed ∧
      t.Running parse ∧ t.load < s.load := by
  obtain ⟨hthread, hreadable, hprintable⟩ := hrunning
  unfold outstanding at hprintable
  cases hrequested : s.requested with
  | true =>
      simp only [hrequested, if_true, List.forall_mem_append, List.forall_mem_singleton]
        at hprintable
      refine ⟨.writeable, { s with
          requested := false, written := s.written ++ [clientWriteable s.inst] },
        if_pos ⟨.inl hrequested, hthread⟩, ⟨hrequested, hprintable.1⟩, rfl,
        ⟨hthread, hreadable, ?_⟩, ?_⟩
      · simpa [outstanding, inHand] using hprintable.2
      · simp [load, hrequested, inHand]
  | false =>
      cases hstate : s.thread with
      | ended => exact absurd hstate hthread
      | popped e =>
          have hmem : e ∈ s.inHand := by simp [inHand, hstate]
          have hparse := hreadable e (List.mem_append_left _ hmem)
          have htype := hs.outgoing e (List.mem_append_left _ hmem)
          refine ⟨.store, { s with
              inst := { s.inst with sendTarget := e.event }, thread := .idle
              requested := true }, ?_, ⟨hrequested, fun d hd => ?_⟩, rfl,
            ⟨nofun, fun d hd => hreadable d (List.mem_append_right _ hd), ?_⟩, ?_⟩
          · simp [Signaling.step, hstate, websocketsEvent_of_outgoing s.inst hparse htype]
          · exact hreadable d (List.mem_append_left _ hd)
          · simpa [outstanding, inHand, hstate, hrequested] using hprintable
          · simp [load, inHand, hstate, hrequested]
      | idle =>
          cases hqueue : s.inst.eventsWebrtcToWebsockets with
          | nil => exact absurd (by simp [load, inHand, hstate, hqueue, hrequested]) hload
          | cons e es =>
              have hpop : popEvent s.inst .webrtcToWebsockets =
                  some (e, s.inst.setEvents .webrtcToWebsockets es) :=
                popEvent_eq_some_iff.2 ⟨es, hqueue, rfl⟩
              refine ⟨.pop, { s with
                  inst := s.inst.setEvents .webrtcToWebsockets es, thread := .popped e },
                ?_, trivial, rfl, ⟨nofun, fun d hd => hreadable d ?_, ?_⟩, ?_⟩
              · simp [Signaling.step, hstate, hpop]
              · rw [hqueue]
                exact List.mem_append_right _ hd
              · simpa [outstanding, inHand, hstate, hqueue, hrequested, Instance.setEvents]
                  using hprintable
              · simp [load, inHand, hstate, hqueue, hrequested, Instance.setEvents]
                omega

/-- From a state with all texts in order, paced steps alone write what is left. -/
theorem Sound.drain (hs : s.Sound) (hrunning : s.Running parse) :
    ∃ as t, run (Signaling.step parse) s as = some t ∧
      Along (Signaling.step parse) (Paced parse) s as ∧
      t.pushed = s.pushed ∧ t.Wrote s.pushed := by
  induction hn : s.load using Nat.strong_induction_on generalizing s with
  | _ n ih =>
    by_cases hload : s.load = 0
    · obtain ⟨texts, hwrote, hpushed⟩ := hs.inOrder
      rw [outstanding_eq_nil_of_load hload, List.append_nil] at hpushed
      exact ⟨[], s, rfl, trivial, rfl, hpushed ▸ hwrote⟩
    · obtain ⟨a, t, hstep, hpaced, hpushed, ht, hless⟩ := hs.advance hrunning hload
      obtain ⟨as, u, hrun, halong, hpushedu, hwritten⟩ :=
        ih t.load (hn ▸ hless) (hs.step hpaced hstep) ht rfl
      refine ⟨a :: as, u, run_cons_eq_some_iff.2 ⟨t, hstep, hrun⟩, ⟨hpaced, fun t' ht' => ?_⟩,
        hpushedu.trans hpushed, hpushed ▸ hwritten⟩
      obtain rfl := Option.some.inj (hstep.symm.trans ht')
      exact halong

/-- In a run from an empty queue, the texts stay in order if and only if every step is
paced; and then paced steps can write all that has been pushed, as long as it can be
parsed and printed. -/
theorem inOrder_iff_paced {inst : Instance} {as : List SignalingAction}
    (h : run (Signaling.step parse) (start inst) as = some s) :
    (Always (Signaling.step parse) InOrder (start inst) as ↔
      Along (Signaling.step parse) (Paced parse) (start inst) as) ∧
    (Along (Signaling.step parse) (Paced parse) (start inst) as → s.Running parse →
      ∃ bs t, run (Signaling.step parse) s bs = some t ∧
        Along (Signaling.step parse) (Paced parse) s bs ∧
        t.pushed = s.pushed ∧ t.Wrote s.pushed) := by
  have hsound : Along (Signaling.step parse) (Paced parse) (start inst) as →
      Always (Signaling.step parse) Sound (start inst) as := fun halong =>
    halong.always (fun _ _ _ hs hpaced hstep => hs.step hpaced hstep) (start_sound inst)
  refine ⟨⟨fun halways => ?_, fun halong => (hsound halong).mono fun _ hs => hs.inOrder⟩,
    fun halong hrunning => ?_⟩
  · have hpaced : ∀ u a v, Outgoing u → InOrder u → Signaling.step parse u a = some v →
        InOrder v → Paced parse u a := fun u a v _ hu hstep hv =>
      paced_of_inOrder hu hv (step_spec hstep)
    exact Always.along (fun u a v hu _ hstep _ => hu.step (step_spec hstep)) hpaced
      (start_sound inst).outgoing h halways
  · have hs : s.Sound := (hsound halong).last h
    exact hs.drain hrunning

/-- A reader that knows the two texts of the runs below. -/
def sampleParse : Bytes → Option Json :=
  flatParse [[("type", .string "answer")], [("type", .string "candidate")]]

/-- The push of an answer, and of a candidate after it. -/
def samplePushes : List SignalingAction :=
  [.push .answer (flatText [("type", .string "answer")]),
    .push .candidate (flatText [("type", .string "candidate")])]

/-- The rule at the two pushes. -/
theorem inOrder_iff_paced_pushes :
    ∃ s, run (Signaling.step sampleParse) (start .startup) samplePushes = some s ∧
      s.Running sampleParse ∧
      Along (Signaling.step sampleParse) (Paced sampleParse) (start .startup) samplePushes ∧
      (Always (Signaling.step sampleParse) InOrder (start .startup) samplePushes ↔
        Along (Signaling.step sampleParse) (Paced sampleParse) (start .startup) samplePushes) ∧
      ∃ bs t, run (Signaling.step sampleParse) s bs = some t ∧
        Along (Signaling.step sampleParse) (Paced sampleParse) s bs ∧
        t.pushed = s.pushed ∧ t.Wrote s.pushed := by
  obtain ⟨s, hs, hthread, hrequested, hqueue⟩ : ∃ s,
      run (Signaling.step sampleParse) (start .startup) samplePushes = some s ∧
        s.thread = .idle ∧ s.requested = false ∧ s.inst.eventsWebrtcToWebsockets =
          [⟨.answer, flatText [("type", .string "answer")]⟩,
            ⟨.candidate, flatText [("type", .string "candidate")]⟩] := ⟨_, rfl, rfl, rfl, rfl⟩
  have hrunning : s.Running sampleParse := by
    refine ⟨by rw [hthread]; nofun, ?_, ?_⟩
    · simp only [inHand, hthread, hqueue, List.nil_append, List.forall_mem_cons]
      exact ⟨rfl, rfl, nofun⟩
    · simp only [outstanding, inHand, hthread, hrequested, hqueue, List.nil_append,
        Bool.false_eq_true, if_false, List.map_cons, List.map_nil, List.forall_mem_cons]
      exact ⟨by decide, by decide, nofun⟩
  have halong : Along (Signaling.step sampleParse) (Paced sampleParse) (start .startup)
      samplePushes := ⟨trivial, fun _ _ => ⟨trivial, fun _ _ => trivial⟩⟩
  exact ⟨s, hs, hrunning, halong, (inOrder_iff_paced hs).1,
    (inOrder_iff_paced hs).2 halong hrunning⟩

/-- The candidate is stored over the answer before a callback has come. -/
theorem not_inOrder_two_stores :
    ∃ s, run (Signaling.step sampleParse) (start .startup)
        (samplePushes ++ [.pop, .store, .pop, .store, .writeable]) = some s ∧
      s.outstanding = [] ∧ s.written = [lwsWrite (flatText [("type", .string "candidate")])] ∧
      ¬ s.InOrder := by
  obtain ⟨s, hs, houtstanding, hwritten, hpushed⟩ : ∃ s,
      run (Signaling.step sampleParse) (start .startup)
        (samplePushes ++ [.pop, .store, .pop, .store, .writeable]) = some s ∧
      s.outstanding = [] ∧ s.written = [lwsWrite (flatText [("type", .string "candidate")])] ∧
      s.pushed.length = 2 := ⟨_, rfl, rfl, rfl, rfl⟩
  refine ⟨s, hs, houtstanding, hwritten, fun horder => ?_⟩
  have hlength := horder.length_pushed
  rw [houtstanding, hwritten, hpushed] at hlength
  cases hlength

end Signaling

end Bres
