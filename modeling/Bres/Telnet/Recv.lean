import Bres.Basic.Instance
import Bres.Transition.Outcome

/-!
# The telnet service

`onRecv` of `src/telnet_service.cc`. A client's bytes are collected in `req_`
until the last two of them look like the end of a line. Then everything collected
is read as one JSON text: a command of a known type is queued for the main loop,
and anything else is dropped.

`Telnet` is the state of one client with the queue of commands. A chunk is what
one `recv` call returns, so the empty chunk is the end of the connection.
-/

namespace Bres

open Transition

/-- The command that a `type` names. -/
def EventType.ofCommand (type : String) : Option EventType :=
  if type = "recieve/channel/add" then some .subscribeAddChannel
  else if type = "recieve/channel/delete" then some .subscribeDeleteChannel
  else if type = "recieve/channel/property" then some .subscribePropertyChannel
  else if type = "resource/static-image/add" then some .resourceAddStaticImage
  else if type = "resource/static-image/delete" then some .resourceDeleteStaticImage
  else none

structure Telnet where
  req : Bytes := []
  events : List SEvent := []
  connected : Bool := true

/-- `'\r'` -/
def cr : UInt8 := 13

/-- `'\n'` -/
def lf : UInt8 := 10

/-- The test of `onRecv` for the end of a command. -/
def endsCommand (req : Bytes) : Bool :=
  2 < req.length ∧ (req[req.length - 1]? = some lf ∨ req[req.length - 2]? = some cr)

/-- What `onRecv` does with a complete text: it is queued, dropped, or has a `type`
that is not a string. `none` is where `accept` answers `false`. -/
def readCommand (parse : Bytes → Option Json) (req : Bytes) (t : Telnet) :
    Outcome Exn Telnet :=
  match parse req with
  | none => .done { t with req := [] }
  | some json =>
      match json.find "type" with
      | none => .done { t with req := [] }
      | some v =>
          match v.getString with
          | none => .thrown .typeError { t with req := req }
          | some type =>
              match EventType.ofCommand type with
              | none => .done { t with req := [] }
              | some command =>
                  .done { t with req := [], events := t.events ++ [⟨command, req⟩] }

/-- `onRecv`, when `recv` returns `chunk`. -/
def onRecv (parse : Bytes → Option Json) (chunk : Bytes) (t : Telnet) : Outcome Exn Telnet :=
  if chunk = [] then .done { t with connected := false }
  else
    let req := t.req ++ chunk
    if endsCommand req then readCommand parse req t else .done { t with req := req }

/-- The calls of `onRecv` for the chunks of one connection. -/
def receiveAll (parse : Bytes → Option Json) (chunks : List Bytes) (t : Telnet) :
    Outcome Exn Telnet :=
  Outcome.sweep (onRecv parse) chunks t

/-! ## Rules -/

/-- The command that a text holds, if it is one of the five known types. -/
def commandOf (parse : Bytes → Option Json) (req : Bytes) : Option EventType :=
  (parse req).bind fun json => (json.text "type").bind EventType.ofCommand

/-- The text has a `type` that is not a string. -/
def Mistyped (parse : Bytes → Option Json) (req : Bytes) : Prop :=
  ∃ json v, parse req = some json ∧ json.find "type" = some v ∧ v.getString = none

/-- The entry of the queue for a text that holds a command. -/
def queued (parse : Bytes → Option Json) (req : Bytes) : Option SEvent :=
  (commandOf parse req).map fun command => ⟨command, req⟩

variable {parse : Bytes → Option Json} {req chunk : Bytes} {t t' : Telnet}

theorem readCommand_eq_done_iff : readCommand parse req t = .done t' ↔
    ¬ Mistyped parse req ∧
      t' = { t with req := [], events := t.events ++ (queued parse req).toList } := by
  unfold readCommand Mistyped queued commandOf
  cases hparse : parse req with
  | none => simp [eq_comm]
  | some json =>
      cases hfind : json.find "type" with
      | none => simp [hfind, Json.text, eq_comm]
      | some v =>
          cases htype : v.getString with
          | none => simp [hfind, htype]
          | some type =>
              cases hcommand : EventType.ofCommand type <;>
                simp [hfind, htype, hcommand, Json.text, eq_comm]

theorem readCommand_isDone_iff : (readCommand parse req t).IsDone ↔ ¬ Mistyped parse req := by
  simp only [Outcome.IsDone, readCommand_eq_done_iff, exists_and_left, exists_eq,
    and_true]

/-- A call that returns leaves the commands that were queued before, and at most one
more, which is the text of a known command. -/
theorem onRecv_events (h : onRecv parse chunk t = .done t') :
    ∃ ev : Option SEvent, t'.events = t.events ++ ev.toList ∧
      ∀ command ∈ ev, commandOf parse command.event = some command.type := by
  unfold onRecv at h
  split at h
  · cases h
    exact ⟨none, (List.append_nil _).symm, nofun⟩
  dsimp only at h
  split at h
  · obtain ⟨-, rfl⟩ := readCommand_eq_done_iff.1 h
    refine ⟨queued parse (t.req ++ chunk), rfl, fun ev hev => ?_⟩
    obtain ⟨command, hcommand, rfl⟩ := Option.map_eq_some_iff.1 hev
    exact hcommand
  · cases h
    exact ⟨none, (List.append_nil _).symm, nofun⟩

/-- Every queued command is the text of a known command. -/
theorem receiveAll_events {chunks : List Bytes}
    (ht : ∀ ev ∈ t.events, commandOf parse ev.event = some ev.type)
    (h : receiveAll parse chunks t = .done t') :
    ∀ ev ∈ t'.events, commandOf parse ev.event = some ev.type := by
  induction chunks generalizing t with
  | nil =>
      cases h
      exact ht
  | cons chunk chunks ih =>
      obtain ⟨r, hr, hrest⟩ := (Outcome.bind_eq_done_iff ..).1 h
      obtain ⟨new, hevents, hnew⟩ := onRecv_events hr
      refine ih (fun ev hev => ?_) hrest
      rcases List.mem_append.1 (hevents ▸ hev) with hev | hev
      · exact ht ev hev
      · exact hnew ev (Option.mem_toList.1 hev)

end Bres
