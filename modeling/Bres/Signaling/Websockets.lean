import Bres.Event.Queue
import Bres.Transition.Outcome

/-!
# The websocket side of an instance

`src/websockets.cc`: the life cycle of the libwebsockets context, the handler of
outgoing events, and the receive and writeable branches of the service
callback. The texts written to the socket are kept as the arguments of
`lws_write`, that is, as the local buffer behind `LWS_PRE` and the length.
-/

namespace Bres

open Transition

/-- `websockets_init` -/
def websocketsInit (inst : Instance) : Instance :=
  { inst with context := .live }

/-- `websockets_quit`: `lws_context_destroy` takes the connection along. -/
def websocketsQuit (inst : Instance) : Outcome Exn Instance :=
  match inst.context with
  | .null => .done inst
  | .live =>
      .done { inst with
        context := .dangling
        websocket := if inst.websocket = .live then .dangling else inst.websocket }
  | .dangling => .thrown .useAfterFree inst

/-- The event types that `websockets_event` sends. -/
def EventType.isOutgoing : EventType → Bool
  | .connect | .pong | .answer | .candidate => true
  | _ => false

/-- `websockets_event`, up to the request to the service thread: the flag says
whether `lws_callback_on_writable` is called. -/
def websocketsEvent (parse : Bytes → Option Json) (inst : Instance)
    (type : EventType) (event : Bytes) : Outcome Exn (Instance × Bool) :=
  match parse event with
  | none => .thrown .parseError (inst, false)
  | some _ =>
      if type.isOutgoing then .done ({ inst with sendTarget := event }, true)
      else .done (inst, false)

theorem websocketsEvent_of_outgoing {parse : Bytes → Option Json} {type : EventType}
    {event : Bytes} (inst : Instance) (hparse : (parse event).isSome)
    (htype : type.isOutgoing = true) :
    websocketsEvent parse inst type event = .done ({ inst with sendTarget := event }, true) := by
  obtain ⟨json, hjson⟩ := Option.isSome_iff_exists.1 hparse
  rw [websocketsEvent, hjson, if_pos htype]

/-- An event is stored, ignored, or not read. -/
theorem websocketsEvent_cases (parse : Bytes → Option Json) (inst : Instance)
    (type : EventType) (event : Bytes) :
    ((parse event).isSome ∧ type.isOutgoing = true ∧
        websocketsEvent parse inst type event = .done ({ inst with sendTarget := event }, true)) ∨
      (type.isOutgoing = false ∧ websocketsEvent parse inst type event = .done (inst, false)) ∨
      (parse event = none ∧
        websocketsEvent parse inst type event = .thrown .parseError (inst, false)) := by
  cases hparse : parse event with
  | none =>
      refine .inr (.inr ⟨rfl, ?_⟩)
      rw [websocketsEvent, hparse]
  | some json =>
      have hsome : (parse event).isSome := by rw [hparse]; rfl
      cases htype : type.isOutgoing with
      | true => exact .inl ⟨rfl, rfl, websocketsEvent_of_outgoing inst hsome htype⟩
      | false =>
          refine .inr (.inl ⟨rfl, ?_⟩)
          rw [websocketsEvent, hparse, htype]
          rfl

/-- `json_message.dump()` for the answer to a ping. -/
def pongMessage : Bytes := flatText [("type", .string "pong")]

/-- `websockets_callback`, the branch of `LWS_CALLBACK_CLIENT_RECEIVE`. -/
def clientReceive (parse : Bytes → Option Json) (inst : Instance)
    (payload : Bytes) : Outcome Exn Instance :=
  if bufflen + lwsPre < payload.length then .thrown .bufferOverflow inst
  else
    let inst :=
      { inst with
        recvBuffer := payload ++ inst.recvBuffer.drop payload.length
        recvWritten := payload.length }
    match parse payload with
    | none => .thrown .parseError inst
    | some json =>
        match (json.find "type").bind Json.getString with
        | none => .thrown .typeError inst
        | some type =>
            if type = "offer" then
              .done (pushEvent inst .websocketsToWebrtc .offer payload)
            else if type = "ping" then
              .done (pushEvent inst .webrtcToWebsockets .pong pongMessage)
            else .done inst

/-- The instance after the copy to its receive buffer. -/
def Instance.copied (inst : Instance) (payload : Bytes) : Instance :=
  { inst with
    recvBuffer := payload ++ inst.recvBuffer.drop payload.length
    recvWritten := payload.length }

/-- The payload is an object whose type is that string. -/
def IsOfType (parse : Bytes → Option Json) (payload : Bytes) (type : String) : Prop :=
  ∃ json, parse payload = some json ∧ json.HasString "type" type

/-- The instance after a payload with a type. -/
def Instance.received (inst : Instance) (payload : Bytes) (type : String) : Instance :=
  if type = "offer" then pushEvent (inst.copied payload) .websocketsToWebrtc .offer payload
  else if type = "ping" then
    pushEvent (inst.copied payload) .webrtcToWebsockets .pong pongMessage
  else inst.copied payload

section Receive

variable {parse : Bytes → Option Json} {inst inst' : Instance} {payload : Bytes}

theorem IsOfType.unique {s t : String} (hs : IsOfType parse payload s)
    (ht : IsOfType parse payload t) : s = t := by
  obtain ⟨json, hjson, hs⟩ := hs
  obtain ⟨json', hjson', ht⟩ := ht
  obtain rfl : json = json' := Option.some.inj (hjson.symm.trans hjson')
  exact hs.unique ht

theorem Instance.events_copied (inst : Instance) (payload : Bytes) :
    (inst.copied payload).events = inst.events := by
  funext order
  cases order <;> rfl

theorem Instance.images_copied (inst : Instance) (payload : Bytes) :
    (inst.copied payload).images = inst.images := by
  funext queue
  cases queue <;> rfl

/-- Without a type that is a string, the branch throws, and only the receive buffer has
been written. -/
theorem clientReceive_of_not_isOfType (inst : Instance)
    (hlength : payload.length ≤ bufflen + lwsPre)
    (h : ∀ type, ¬ IsOfType parse payload type) :
    ∃ e, clientReceive parse inst payload = .thrown e (inst.copied payload) := by
  rw [clientReceive, if_neg (Nat.not_lt.2 hlength)]
  cases hparse : parse payload with
  | none => exact ⟨_, rfl⟩
  | some json =>
      have hnone : (json.find "type").bind Json.getString = none := by
        rw [Option.eq_none_iff_forall_ne_some]
        exact fun type htype => h type ⟨json, hparse, (json.text_eq_some_iff ..).1 htype⟩
      exact ⟨.typeError, by simp only [hnone]; rfl⟩

/-- With a type that is a string, the branch returns. -/
theorem clientReceive_of_isOfType (inst : Instance)
    (hlength : payload.length ≤ bufflen + lwsPre) {type : String}
    (h : IsOfType parse payload type) :
    clientReceive parse inst payload = .done (inst.received payload type) := by
  obtain ⟨json, hparse, htype⟩ := h
  have hsome : (json.find "type").bind Json.getString = some type :=
    (json.text_eq_some_iff ..).2 htype
  rw [clientReceive, if_neg (Nat.not_lt.2 hlength)]
  simp only [hparse, hsome, Instance.received]
  split_ifs <;> rfl

/-- A payload that is received has a type, and fits the buffer. -/
theorem clientReceive_eq_done (h : clientReceive parse inst payload = .done inst') :
    payload.length ≤ bufflen + lwsPre ∧
      ∃ type, IsOfType parse payload type ∧ inst' = inst.received payload type := by
  by_cases hlength : payload.length ≤ bufflen + lwsPre
  · by_cases htyped : ∃ type, IsOfType parse payload type
    · obtain ⟨type, htype⟩ := htyped
      rw [clientReceive_of_isOfType inst hlength htype] at h
      exact ⟨hlength, type, htype, (Outcome.done.inj h).symm⟩
    · obtain ⟨e, he⟩ := clientReceive_of_not_isOfType inst hlength
        fun type htype => htyped ⟨type, htype⟩
      rw [he] at h
      cases h
  · rw [clientReceive, if_pos (Nat.lt_of_not_le hlength)] at h
    cases h

end Receive

/-- The arguments of `lws_write`: the bytes behind `LWS_PRE` and the length. -/
structure LwsWrite where
  buffer : Bytes
  len : ℕ
deriving DecidableEq

/-- The `lws_write` of a text: `snprintf` stores at most `BUFFLEN - 2` bytes before
its NUL and returns the length of the whole text. -/
def lwsWrite (text : Bytes) : LwsWrite :=
  let text := text.takeWhile (· ≠ 0)
  let stored := text.take (bufflen - 2)
  { buffer := stored ++ List.replicate (bufflen - stored.length) 0
    len := text.length }

/-- `websockets_callback`, the branch of `LWS_CALLBACK_CLIENT_WRITEABLE`. -/
def clientWriteable (inst : Instance) : LwsWrite := lwsWrite inst.sendTarget

/-- The bytes that `lws_write` takes are those of the text, and they lie inside the
local buffer. -/
def LwsWrite.IsExact (w : LwsWrite) (text : Bytes) : Prop :=
  w.len = text.length ∧ w.len ≤ w.buffer.length ∧ w.buffer.take w.len = text

/-- `snprintf` stores the whole text: it has room for it, and no zero byte ends it early. -/
def IsPrintable (text : Bytes) : Prop := text.length ≤ bufflen - 2 ∧ 0 ∉ text

instance (text : Bytes) : Decidable (IsPrintable text) :=
  inferInstanceAs (Decidable (_ ∧ _))

/-- A text without a zero byte is printed as a whole. -/
theorem takeWhile_ne_zero_eq_iff (text : Bytes) :
    text.takeWhile (· ≠ 0) = text ↔ 0 ∉ text := by
  rw [List.takeWhile_eq_self_iff]
  constructor
  · intro h hzero
    simpa using h 0 hzero
  · intro hzero c hc
    have hne : c ≠ 0 := fun h => hzero (h ▸ hc)
    simpa using hne

theorem lwsWrite_isExact_iff (text : Bytes) : (lwsWrite text).IsExact text ↔ IsPrintable text := by
  constructor
  · rintro ⟨hlen, hbuffer, htake⟩
    have hprinted : text.takeWhile (· ≠ 0) = text :=
      (List.takeWhile_prefix _).eq_of_length hlen
    have hzero := (takeWhile_ne_zero_eq_iff text).1 hprinted
    refine ⟨?_, hzero⟩
    by_contra hlong
    simp only [lwsWrite, hprinted] at htake
    -- the byte behind the stored part is the NUL of `snprintf`
    have hnul : text[bufflen - 2]? = some 0 := by
      have hstored : (text.take (bufflen - 2)).length = bufflen - 2 := by
        rw [List.length_take]
        omega
      rw [← htake, List.getElem?_take_of_lt (by omega),
        List.getElem?_append_right hstored.le, hstored, Nat.sub_self]
      rfl
    exact hzero (List.mem_of_getElem? hnul)
  · rintro ⟨hlength, hzero⟩
    have hprinted := (takeWhile_ne_zero_eq_iff text).2 hzero
    have hstored : text.take (bufflen - 2) = text := List.take_of_length_le hlength
    simp only [LwsWrite.IsExact, lwsWrite, hprinted, hstored, List.length_append,
      List.length_replicate, List.take_left, and_true, true_and]
    omega

end Bres
