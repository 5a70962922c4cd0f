import Bres.Signaling.Websockets

/-!
# Payloads of any shape

The receive branch of `websockets_callback` on whatever arrives. The text may be no
JSON, a value that is not an object, or an object with a type of any kind or without
one. The queues come out right in every case, but the branch returns only where the
payload is an object whose type is a string: neither the parse nor the conversion of
the type is guarded, and libwebsockets calls the branch from C.
-/

namespace Bres

open Transition

/-- The payload is an offer or a ping. -/
def AsksForEvent (parse : Bytes → Option Json) (payload : Bytes) : Prop :=
  IsOfType parse payload "offer" ∨ IsOfType parse payload "ping"

/-- One event is added to one of the two signaling queues, and the other queues are as
they were. -/
def Instance.GainsOne (inst inst' : Instance) : Prop :=
  ∃ order e, order ≠ .audio ∧
    inst'.events = Function.update inst.events order (inst.events order ++ [e])

/-- The queues after a payload: changed by an offer or a ping only. -/
structure QueuesFollow (parse : Bytes → Option Json) (inst : Instance) (payload : Bytes)
    (inst' : Instance) : Prop where
  gains : AsksForEvent parse payload → inst.GainsOne inst'
  unchanged : ¬ AsksForEvent parse payload → inst'.events = inst.events

/-- The branch returns, with the queues as they are to be. -/
structure Handles (parse : Bytes → Option Json) (inst : Instance) (payload : Bytes) :
    Prop where
  isDone : (clientReceive parse inst payload).IsDone
  queues : QueuesFollow parse inst payload (clientReceive parse inst payload).state

variable {parse : Bytes → Option Json} {inst : Instance} {payload : Bytes}

theorem gainsOne_pushEvent_copied {order : EventOrder} (horder : order ≠ .audio)
    (type : EventType) (event : Bytes) :
    inst.GainsOne (pushEvent (inst.copied payload) order type event) := by
  refine ⟨order, ⟨type, event⟩, horder, ?_⟩
  rw [pushEvent, events_setEvents, Instance.events_copied]

/-- The queues come out right whether the branch returns or throws. -/
theorem clientReceive_queues (hlength : payload.length ≤ bufflen + lwsPre) :
    QueuesFollow parse inst payload (clientReceive parse inst payload).state := by
  by_cases h : ∃ type, IsOfType parse payload type
  · obtain ⟨type, htype⟩ := h
    rw [clientReceive_of_isOfType inst hlength htype, Outcome.state_done, Instance.received]
    by_cases hoffer : type = "offer"
    · subst hoffer
      rw [if_pos rfl]
      exact ⟨fun _ => gainsOne_pushEvent_copied (by decide) _ _,
        fun hasks => absurd (.inl htype) hasks⟩
    · by_cases hping : type = "ping"
      · subst hping
        rw [if_neg hoffer, if_pos rfl]
        exact ⟨fun _ => gainsOne_pushEvent_copied (by decide) _ _,
          fun hasks => absurd (.inr htype) hasks⟩
      · rw [if_neg hoffer, if_neg hping]
        refine ⟨fun hasks => ?_, fun _ => inst.events_copied payload⟩
        rcases hasks with hasks | hasks
        · exact absurd (htype.unique hasks) hoffer
        · exact absurd (htype.unique hasks) hping
  · obtain ⟨e, he⟩ := clientReceive_of_not_isOfType inst hlength
      fun type htype => h ⟨type, htype⟩
    rw [he, Outcome.state_thrown]
    refine ⟨fun hasks => ?_, fun _ => inst.events_copied payload⟩
    rcases hasks with hasks | hasks <;> exact absurd ⟨_, hasks⟩ h

/-- A payload that fits `recv_buffer` is handled if and only if it is an object whose
type is a string. Whatever it is, the queues are changed by an offer or a ping only, and
then by one event. -/
theorem clientReceive_handles_iff (hlength : payload.length ≤ bufflen + lwsPre) :
    (Handles parse inst payload ↔ ∃ type, IsOfType parse payload type) ∧
      QueuesFollow parse inst payload (clientReceive parse inst payload).state := by
  refine ⟨⟨fun h => ?_, fun ⟨type, htype⟩ => ⟨?_, clientReceive_queues hlength⟩⟩,
    clientReceive_queues hlength⟩
  · obtain ⟨inst', hdone⟩ := h.isDone
    obtain ⟨-, type, htype, -⟩ := clientReceive_eq_done hdone
    exact ⟨type, htype⟩
  · rw [clientReceive_of_isOfType inst hlength htype]
    exact Outcome.isDone_done _

/-- A ping is answered. -/
theorem clientReceive_handles_iff_ping :
    Handles (flatParse [[("type", .string "ping")]]) {} (flatText [("type", .string "ping")]) :=
  (clientReceive_handles_iff (by decide)).1.2
    ⟨"ping", .object [("type", .string "ping")], flatParse_flatText rfl, rfl⟩

/-- A branch that throws does not handle its payload. -/
theorem not_handles_of_thrown {e : Exn}
    (h : (clientReceive parse inst payload).exception = some e) : ¬ Handles parse inst payload :=
  fun hhandles => Outcome.not_isDone_of_exception h hhandles.isDone

/-- No JSON, an array, an object without a type, and an object whose type is a number. -/
theorem not_handles_untyped :
    ¬ Handles (flatParse []) {} (bytes "hello") ∧
      ¬ Handles (fun _ => some (.array [])) {} (bytes "[]") ∧
      ¬ Handles (flatParse [[]]) {} (flatText []) ∧
      ¬ Handles (flatParse [[("type", .number "1")]]) {} (flatText [("type", .number "1")]) := by
  have hparse : (clientReceive (flatParse []) {} (bytes "hello")).exception =
      some .parseError := rfl
  have harray : (clientReceive (fun _ => some (.array [])) {} (bytes "[]")).exception =
      some .typeError := rfl
  have hmissing : (clientReceive (flatParse [[]]) {} (flatText [])).exception =
      some .typeError := rfl
  have hnumber : (clientReceive (flatParse [[("type", .number "1")]]) {}
      (flatText [("type", .number "1")])).exception = some .typeError := rfl
  exact ⟨not_handles_of_thrown hparse, not_handles_of_thrown harray,
    not_handles_of_thrown hmissing, not_handles_of_thrown hnumber⟩

end Bres
