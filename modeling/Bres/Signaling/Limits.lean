import Bres.Signaling.Websockets

/-!
# The lengths of signaling messages

libwebsockets is told to deliver up to 16384 bytes in a callback, and it delivers
a longer message, or one that arrives in parts, in several callbacks. The receive
branch copies every part into `recv_buffer`, which has `BUFFLEN + LWS_PRE` bytes,
and reads it as a message of its own. The writeable branch prints `sendTarget`
into a buffer of `BUFFLEN` bytes and passes on the length that `snprintf` returns,
which is that of the whole text.

So a message is received as it was sent exactly if it arrives in one part and fits
`recv_buffer`, and a text is sent as it is exactly if `snprintf` can store it.
-/

namespace Bres

open Transition

/-- `protocols[0].rx_buffer_size` -/
def rxBufferSize : ℕ := 16384

/-- The text is an object with a member `type`. -/
def HasType (parse : Bytes → Option Json) (text : Bytes) : Prop :=
  ∃ json type, parse text = some json ∧ json.find "type" = some type

/-- What the receive path relies on in its reader: a text is rejected where one
object directly follows another. A zero byte counts as the end of the input, so it
is excluded. -/
structure ReadsObjects (parse : Bytes → Option Json) : Prop where
  single : ∀ text next rest, 0 ∉ text → HasType parse text → HasType parse next →
    parse (text ++ next ++ rest) = none

/-- A message of the SFU: an object whose type is a string, such as an offer, an update, a
notification or a ping. -/
structure SfuMessage (parse : Bytes → Option Json) where
  type : String
  text : Bytes
  no_nul : 0 ∉ text
  typed : IsOfType parse text type

namespace SfuMessage

variable {parse : Bytes → Option Json}

/-- The instance with what the message is to result in: one event for an offer or a ping,
and none for any other message. -/
def queued (m : SfuMessage parse) (inst : Instance) : Instance :=
  if m.type = "offer" then pushEvent inst .websocketsToWebrtc .offer m.text
  else if m.type = "ping" then pushEvent inst .webrtcToWebsockets .pong pongMessage
  else inst

/-- The parts in which libwebsockets may deliver the message. -/
structure DeliveredIn (m : SfuMessage parse) (parts : List Bytes) : Prop where
  flatten_eq : parts.flatten = m.text
  part_ne_nil : [] ∉ parts
  part_length : ∀ part ∈ parts, part.length ≤ rxBufferSize

end SfuMessage

/-- One callback of `LWS_CALLBACK_CLIENT_RECEIVE` for each part. -/
def receiveParts (parse : Bytes → Option Json) (parts : List Bytes) (inst : Instance) :
    Outcome Exn Instance :=
  Outcome.sweep (fun part inst => clientReceive parse inst part) parts inst

/-- The callbacks stay inside `recv_buffer` and end with the queues as the message in
one piece is to leave them. -/
def SfuMessage.ReceivedOnce {parse : Bytes → Option Json} (m : SfuMessage parse)
    (parts : List Bytes) (inst : Instance) : Prop :=
  ∃ inst', receiveParts parse parts inst = .done inst' ∧
    ∀ order, inst'.events order = (m.queued inst).events order

/-- A part that is received is an object with a type. -/
theorem hasType_of_clientReceive {parse : Bytes → Option Json} {inst inst' : Instance}
    {payload : Bytes} (h : clientReceive parse inst payload = .done inst') :
    HasType parse payload := by
  obtain ⟨-, type, ⟨json, hparse, htype⟩, -⟩ := clientReceive_eq_done h
  exact ⟨json, .string type, hparse, htype⟩

/-- A message that arrives in one part and fits the buffer. -/
theorem SfuMessage.clientReceive_eq {parse : Bytes → Option Json} (m : SfuMessage parse)
    (inst : Instance) (hlength : m.text.length ≤ bufflen + lwsPre) :
    clientReceive parse inst m.text = .done (m.queued (inst.copied m.text)) :=
  clientReceive_of_isOfType inst hlength m.typed

/-- The queues do not depend on the receive buffer. -/
theorem SfuMessage.queued_events {parse : Bytes → Option Json} (m : SfuMessage parse)
    (inst : Instance) (payload : Bytes) (order : EventOrder) :
    (m.queued (inst.copied payload)).events order = (m.queued inst).events order := by
  unfold queued
  split_ifs <;> cases order <;> rfl

/-- A message has a text: two empty ones would make an empty one. -/
theorem SfuMessage.text_ne_nil {parse : Bytes → Option Json} (hparse : ReadsObjects parse)
    (m : SfuMessage parse) : m.text ≠ [] := by
  obtain ⟨json, hsome, htype⟩ := m.typed
  intro hnil
  have htyped : HasType parse [] := ⟨json, _, hnil ▸ hsome, htype⟩
  have hnone := hparse.single [] [] [] (List.not_mem_nil) htyped htyped
  rw [List.append_nil, List.append_nil, ← hnil, hsome] at hnone
  cases hnone

/-- A message is received as if it had arrived in one callback exactly if it does arrive in
one callback and has no more than `BUFFLEN + LWS_PRE` bytes. -/
theorem SfuMessage.receivedOnce_iff {parse : Bytes → Option Json} (hparse : ReadsObjects parse)
    (m : SfuMessage parse) {parts : List Bytes} (hparts : m.DeliveredIn parts)
    (inst : Instance) :
    m.ReceivedOnce parts inst ↔ parts = [m.text] ∧ m.text.length ≤ bufflen + lwsPre := by
  constructor
  · rintro ⟨inst', hdone, -⟩
    match parts, hparts.flatten_eq with
    | [], hflatten => exact absurd hflatten.symm (m.text_ne_nil hparse)
    | [part], hflatten =>
        obtain rfl : part = m.text := by simpa using hflatten
        obtain ⟨inst₁, hfirst, -⟩ := (Outcome.bind_eq_done_iff ..).1 hdone
        exact ⟨rfl, (clientReceive_eq_done hfirst).1⟩
    | part :: next :: rest, hflatten =>
        -- the first two parts are objects of their own, so the whole is not one
        obtain ⟨inst₁, hfirst, hdone⟩ := (Outcome.bind_eq_done_iff ..).1 hdone
        obtain ⟨inst₂, hsecond, -⟩ := (Outcome.bind_eq_done_iff ..).1 hdone
        have hno_nul : 0 ∉ part := fun hmem => m.no_nul (by
          rw [← hflatten]
          exact List.mem_append_left _ hmem)
        have hnone := hparse.single part next rest.flatten hno_nul
          (hasType_of_clientReceive hfirst) (hasType_of_clientReceive hsecond)
        obtain ⟨json, hsome, -⟩ := m.typed
        rw [← hflatten, List.flatten_cons, List.flatten_cons, ← List.append_assoc, hnone] at hsome
        cases hsome
  · rintro ⟨rfl, hlength⟩
    refine ⟨_, ?_, m.queued_events inst m.text⟩
    rw [receiveParts, Outcome.sweep_cons, m.clientReceive_eq inst hlength]
    rfl

/-! ## The writeable branch -/

/-- The writeable branch sends a text exactly as it is if and only if it has no more
than `BUFFLEN - 2` bytes, none of them zero. -/
theorem clientWriteable_isExact_iff (inst : Instance) :
    (clientWriteable inst).IsExact inst.sendTarget ↔
      inst.sendTarget.length ≤ bufflen - 2 ∧ 0 ∉ inst.sendTarget :=
  lwsWrite_isExact_iff inst.sendTarget

/-- A text of 5000 bytes: the length passed on is past the end of the buffer. -/
theorem not_isExact_long :
    (clientWriteable { Instance.startup with sendTarget := List.replicate 5000 97 }).len = 5000 ∧
      (clientWriteable
        { Instance.startup with sendTarget := List.replicate 5000 97 }).buffer.length = 4096 ∧
      ¬ (clientWriteable { Instance.startup with sendTarget := List.replicate 5000 97 }).IsExact
        (List.replicate 5000 97) := by
  have hprinted : (List.replicate 5000 (97 : UInt8)).takeWhile (· ≠ 0) =
      List.replicate 5000 97 :=
    (takeWhile_ne_zero_eq_iff _).2 fun h => absurd (List.eq_of_mem_replicate h) (by decide)
  have hlen : (lwsWrite (List.replicate 5000 97)).len = 5000 := by
    simp only [lwsWrite, hprinted, List.length_replicate]
  have hbuffer : (lwsWrite (List.replicate 5000 97)).buffer.length = 4096 := by
    simp only [lwsWrite, hprinted, List.take_replicate, List.length_append,
      List.length_replicate, bufflen]
    rfl
  refine ⟨hlen, hbuffer, fun h => ?_⟩
  have hle : (lwsWrite (List.replicate 5000 97)).len ≤
      (lwsWrite (List.replicate 5000 97)).buffer.length := h.2.1
  rw [hlen, hbuffer] at hle
  exact absurd hle (by decide)

/-! ## A reader that knows one message -/

theorem trimEnd_length_le (text : Bytes) : (trimEnd text).length ≤ text.length :=
  (List.rdropWhile_prefix isJsonSpace text).length_le

theorem readsObjects_flatParse (members : List (String × Json)) :
    ReadsObjects (flatParse [members]) where
  single text next rest _ htext hnext := by
    have htyped : ∀ {t}, HasType (flatParse [members]) t → trimEnd t = flatText members := by
      rintro t ⟨json, type, ht, -⟩
      have hsome : (flatParse [members] t).isSome := by simp [ht]
      obtain ⟨members', hmem, heq⟩ := flatParse_isSome_iff.1 hsome
      rw [← heq, List.mem_singleton.1 hmem]
    have hrest : trimEnd (next ++ rest) ≠ [] := by
      rw [trimEnd, ne_eq, List.rdropWhile_eq_nil_iff]
      intro hspace
      refine flatText_ne_nil members ((htyped hnext).symm.trans ?_)
      exact List.rdropWhile_eq_nil_iff.2 fun c hc => hspace c (List.mem_append_left _ hc)
    rw [← Option.not_isSome_iff_eq_none, flatParse_isSome_iff, List.append_assoc,
      trimEnd_append hrest]
    rintro ⟨members', hmem, heq⟩
    rw [List.mem_singleton.1 hmem, ← htyped htext] at heq
    have hlength := congrArg List.length heq
    have hle := trimEnd_length_le text
    have hpos := List.length_pos_iff.2 hrest
    rw [List.length_append] at hlength
    omega

/-- An offer with a session description of that many bytes. -/
def offerMembers (n : ℕ) : List (String × Json) :=
  [("type", .string "offer"), ("sdp", .string (String.ofList (List.replicate n 'v')))]

theorem bytes_replicate (n : ℕ) :
    bytes (String.ofList (List.replicate n 'v')) = List.replicate n 118 := by
  have hencode : String.utf8EncodeChar 'v' = [118] := by decide
  rw [bytes_ofList]
  induction n with
  | zero => rfl
  | succ n ih =>
      rw [List.replicate_succ, List.flatMap_cons, ih, hencode]
      rfl

theorem flatText_offerMembers (n : ℕ) :
    flatText (offerMembers n) =
      bytes "\x7b\"type\":\"offer\",\"sdp\":\"" ++ List.replicate n 118 ++ bytes "\"\x7d" := by
  have hquote : bytes "\"\x7d" = bytes "\"" ++ bytes "\x7d" := by decide
  simp only [flatText, offerMembers, scalarText, List.map_cons, List.map_nil, bytes_replicate,
    List.intercalate, List.intersperse, List.flatten_cons, List.flatten_nil, List.append_nil,
    hquote, ← List.append_assoc]
  rfl

/-- The offer as a message. -/
def sampleOffer (n : ℕ) : SfuMessage (flatParse [offerMembers n]) where
  type := "offer"
  text := flatText (offerMembers n)
  no_nul := by
    have hopen : 0 ∉ bytes "\x7b\"type\":\"offer\",\"sdp\":\"" := by decide
    have hclose : 0 ∉ bytes "\"\x7d" := by decide
    simp [flatText_offerMembers, hopen, hclose, List.mem_replicate]
  typed := ⟨_, flatParse_flatText rfl, rfl⟩

theorem sampleOffer_length (n : ℕ) : (sampleOffer n).text.length = n + 25 := by
  have hopen : (bytes "\x7b\"type\":\"offer\",\"sdp\":\"").length = 23 := by decide
  have hclose : (bytes "\"\x7d").length = 2 := by decide
  simp [sampleOffer, flatText_offerMembers, hopen, hclose]
  omega

theorem sampleOffer_deliveredIn (n : ℕ) (hn : n ≤ 16000) :
    (sampleOffer n).DeliveredIn [(sampleOffer n).text] where
  flatten_eq := by simp
  part_ne_nil := by
    have hlength := sampleOffer_length n
    rw [List.mem_singleton]
    intro hnil
    rw [← hnil] at hlength
    cases hlength
  part_length part hpart := by
    rw [List.mem_singleton.1 hpart, sampleOffer_length, rxBufferSize]
    omega

/-- A short offer in one part. -/
theorem receivedOnce_iff_short :
    (sampleOffer 100).ReceivedOnce [(sampleOffer 100).text] .startup := by
  refine ((sampleOffer 100).receivedOnce_iff (readsObjects_flatParse _)
    (sampleOffer_deliveredIn 100 (by decide)) .startup).2 ⟨rfl, ?_⟩
  rw [sampleOffer_length]
  decide

/-- An offer of 5025 bytes fits one callback and does not fit `recv_buffer`; one of 25
bytes that comes in two parts is not recognised. -/
theorem not_receivedOnce_long_split :
    ((sampleOffer 5000).DeliveredIn [(sampleOffer 5000).text] ∧
        receiveParts (flatParse [offerMembers 5000]) [(sampleOffer 5000).text] .startup =
          .thrown .bufferOverflow .startup ∧
        ¬ (sampleOffer 5000).ReceivedOnce [(sampleOffer 5000).text] .startup) ∧
      (sampleOffer 0).DeliveredIn [(sampleOffer 0).text.take 5, (sampleOffer 0).text.drop 5] ∧
      ¬ (sampleOffer 0).ReceivedOnce
        [(sampleOffer 0).text.take 5, (sampleOffer 0).text.drop 5] .startup := by
  have hlong : receiveParts (flatParse [offerMembers 5000]) [(sampleOffer 5000).text] .startup =
      .thrown .bufferOverflow .startup := by
    have hlength : bufflen + lwsPre < (sampleOffer 5000).text.length := by
      rw [sampleOffer_length]
      decide
    rw [receiveParts, Outcome.sweep_cons, clientReceive, if_pos hlength]
    rfl
  refine ⟨⟨sampleOffer_deliveredIn 5000 (by decide), hlong, ?_⟩, ⟨by simp, ?_, ?_⟩, ?_⟩
  · rintro ⟨inst', hdone, -⟩
    rw [hlong] at hdone
    cases hdone
  · decide
  · decide
  · rintro ⟨inst', hdone, -⟩
    rw [receiveParts, Outcome.sweep_cons] at hdone
    obtain ⟨inst₁, hfirst, -⟩ := (Outcome.bind_eq_done_iff ..).1 hdone
    obtain ⟨json, type, hjson, -⟩ := hasType_of_clientReceive hfirst
    have hnone : flatParse [offerMembers 0] ((sampleOffer 0).text.take 5) = none := by
      decide
    rw [hnone] at hjson
    cases hjson

end Bres
