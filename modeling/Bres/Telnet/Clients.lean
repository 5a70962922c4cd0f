import Bres.Telnet.Chunks
import Bres.Transition.Merge

/-!
# The clients of the telnet service

`onAccept` and `onRecv` of `src/telnet_service.cc` with the queue that `main`
takes commands from. Every client has its own `req_`, and all of them push on one
queue. The event loop calls one handler at a time; `main` takes from the queue
between two of them, or while one waits for its lock.

A socket number is used again after its connection is closed, so a connection is
known by its number in the order of `accept`. The chunks of each connection and
the commands taken by `main` are recorded; no step reads the record.

What a client's chunks put on the queue does not depend on the other clients:
`Isolated` says that the queue is a merge of what each connection would have queued
if it had been the only one.
-/

namespace Bres

open Transition

/-! ## What `onRecv` reads -/

/-- The texts that `onRecv` takes for complete, and what is left over, when it gets
`chunks` and has collected `req` before. -/
def texts : Bytes → List Bytes → List Bytes × Bytes
  | req, [] => ([], req)
  | req, chunk :: chunks =>
      if endsCommand (req ++ chunk) then
        ((req ++ chunk) :: (texts [] chunks).1, (texts [] chunks).2)
      else texts (req ++ chunk) chunks

variable {parse : Bytes → Option Json}

theorem onRecv_eq_done_iff {chunk : Bytes} {t t' : Telnet} (hchunk : chunk ≠ []) :
    onRecv parse chunk t = .done t' ↔
      if endsCommand (t.req ++ chunk) then
        ¬ Mistyped parse (t.req ++ chunk) ∧
          t' = { t with
            req := []
            events := t.events ++ (queued parse (t.req ++ chunk)).toList }
      else t' = { t with req := t.req ++ chunk } := by
  rw [onRecv, if_neg hchunk]
  dsimp only
  split
  · exact readCommand_eq_done_iff
  · rw [Outcome.done.injEq, eq_comm]

/-- The chunks of a connection are read text by text: the calls return if no complete
text has a `type` that is not a string, and then they have queued the texts that are
commands. -/
theorem receiveAll_eq_done_iff {chunks : List Bytes} {t t' : Telnet} (hchunks : [] ∉ chunks) :
    receiveAll parse chunks t = .done t' ↔
      (∀ text ∈ (texts t.req chunks).1, ¬ Mistyped parse text) ∧
        t' = { t with
          req := (texts t.req chunks).2
          events := t.events ++ (texts t.req chunks).1.filterMap (queued parse) } := by
  induction chunks generalizing t with
  | nil => simp [receiveAll, texts, eq_comm]
  | cons chunk chunks ih =>
      rw [List.mem_cons, not_or] at hchunks
      have hfirst := @onRecv_eq_done_iff parse chunk t
      rw [receiveAll, Outcome.sweep_cons, Outcome.bind_eq_done_iff]
      change (∃ s, _ ∧ receiveAll parse chunks s = _) ↔ _
      rw [texts]
      cases hends : endsCommand (t.req ++ chunk) with
      | true =>
          simp only [hfirst (Ne.symm hchunks.1), hends, if_true, and_assoc, exists_and_left,
            exists_eq_left, ih hchunks.2, List.forall_mem_cons, List.filterMap_cons]
          cases queued parse (t.req ++ chunk) <;> simp
      | false =>
          simp only [hfirst (Ne.symm hchunks.1), hends, Bool.false_eq_true, if_false,
            exists_eq_left, ih hchunks.2]

/-- One more chunk completes the text that has been collected, or is collected too. -/
theorem texts_snoc (req : Bytes) (chunks : List Bytes) (chunk : Bytes) :
    texts req (chunks ++ [chunk]) =
      if endsCommand ((texts req chunks).2 ++ chunk) then
        ((texts req chunks).1 ++ [(texts req chunks).2 ++ chunk], [])
      else ((texts req chunks).1, (texts req chunks).2 ++ chunk) := by
  induction chunks generalizing req with
  | nil => rfl
  | cons first chunks ih =>
      rw [List.cons_append, texts, texts, ih, ih]
      split
      · split <;> rfl
      · rfl

/-! ## The service -/

/-- A file descriptor. -/
abbrev Socket := ℕ

/-- `client_t`, with the number of its connection. -/
structure Client where
  connection : ℕ
  req : Bytes := []

/-- What the system answers to `onAccept`: the socket that `accept` returns, whether its
options can be set, and whether libevent takes its event. -/
structure AcceptAnswer where
  client : Option Socket
  optionsSet : Bool
  eventAdded : Bool

/-- The connected clients and the queue of commands, with the record of the run. -/
structure Service where
  clients : Socket → Option Client := fun _ => none
  events : List SEvent := []
  connections : ℕ := 0
  chunks : ℕ → List Bytes := fun _ => []
  taken : List SEvent := []

inductive ServiceAction where
  | accept (answer : AcceptAnswer)
  | recv (sock : Socket) (chunk : Bytes)
  | take

namespace Service

/-- `onAccept`. Only a socket number above 0 is taken for a connection, and a connection
without its event is never heard of again. -/
def onAccept (answer : AcceptAnswer) (s : Service) : Outcome Exn Service :=
  match answer.client with
  | none | some 0 => .done s
  | some client =>
      if answer.optionsSet = false then .thrown .terminate s
      else if answer.eventAdded then
        .done { s with
          clients := Function.update s.clients client (some { connection := s.connections })
          connections := s.connections + 1 }
      else .done s

/-- `onRecv` for one of the clients. The record leaves out the end of the connection. -/
def recv (parse : Bytes → Option Json) (sock : Socket) (client : Client) (chunk : Bytes)
    (s : Service) : Option Service :=
  match onRecv parse chunk ⟨client.req, s.events, true⟩ with
  | .thrown _ _ => none
  | .done ⟨_, _, false⟩ => some { s with clients := Function.update s.clients sock none }
  | .done ⟨req, events, true⟩ =>
      some { s with
        clients := Function.update s.clients sock (some { client with req := req })
        events := events
        chunks := Function.update s.chunks client.connection
          (s.chunks client.connection ++ [chunk]) }

/-- A call of a handler, or `main` looking for a command. A handler that throws ends the
program, and the system returns no socket that is in use. -/
def step (parse : Bytes → Option Json) (s : Service) : ServiceAction → Option Service
  | .accept answer =>
      if (answer.client.bind s.clients).isSome then none
      else
        match s.onAccept answer with
        | .thrown _ _ => none
        | .done s => some s
  | .recv sock chunk =>
      match s.clients sock with
      | none => none
      | some client => s.recv parse sock client chunk
  | .take =>
      match s.events with
      | [] => some s
      | ev :: events => some { s with events := events, taken := s.taken ++ [ev] }

end Service

/-- What a step of the service can do. -/
inductive ServiceStep (parse : Bytes → Option Json) (s : Service) :
    ServiceAction → Service → Prop where
  | kept {a : ServiceAction} : ServiceStep parse s a s
  | connected {answer : AcceptAnswer} {sock : Socket} (hsock : s.clients sock = none) :
      ServiceStep parse s (.accept answer)
        { s with
          clients := Function.update s.clients sock (some { connection := s.connections })
          connections := s.connections + 1 }
  | closed {sock : Socket} {chunk : Bytes} :
      ServiceStep parse s (.recv sock chunk)
        { s with clients := Function.update s.clients sock none }
  | received {sock : Socket} {client : Client} {chunk req : Bytes} {events : List SEvent}
      (hclient : s.clients sock = some client) (hchunk : chunk ≠ [])
      (hrecv : onRecv parse chunk ⟨client.req, s.events, true⟩ = .done ⟨req, events, true⟩) :
      ServiceStep parse s (.recv sock chunk)
        { s with
          clients := Function.update s.clients sock (some { client with req := req })
          events := events
          chunks := Function.update s.chunks client.connection
            (s.chunks client.connection ++ [chunk]) }
  | taken {ev : SEvent} {events : List SEvent} (hevents : s.events = ev :: events) :
      ServiceStep parse s .take { s with events := events, taken := s.taken ++ [ev] }

namespace Service

variable {s s' : Service} {a : ServiceAction}

theorem onAccept_spec {answer : AcceptAnswer}
    (hfree : (answer.client.bind s.clients).isSome = false)
    (h : s.onAccept answer = .done s') : ServiceStep parse s (.accept answer) s' := by
  unfold onAccept at h
  split at h
  · cases h
    exact .kept
  · cases h
    exact .kept
  · rename_i client hzero hclient
    split at h
    · cases h
    split at h
    · cases h
      refine .connected ?_
      rw [hclient] at hfree
      simpa using hfree
    · cases h
      exact .kept

theorem recv_spec {sock : Socket} {client : Client} {chunk : Bytes}
    (hclient : s.clients sock = some client) (h : s.recv parse sock client chunk = some s') :
    ServiceStep parse s (.recv sock chunk) s' := by
  unfold recv at h
  split at h
  · cases h
  · cases h
    exact .closed
  · rename_i req events hrecv
    cases h
    refine .received hclient ?_ hrecv
    rintro rfl
    simp [onRecv] at hrecv

theorem step_spec (h : s.step parse a = some s') : ServiceStep parse s a s' := by
  cases a with
  | accept answer =>
      obtain ⟨hfree, h⟩ := Option.ite_none_left_eq_some.1 h
      cases haccept : s.onAccept answer with
      | thrown e t => simp [haccept] at h
      | done t =>
          rw [haccept] at h
          cases h
          exact onAccept_spec (Bool.eq_false_iff.2 hfree) haccept
  | recv sock chunk =>
      cases hclient : s.clients sock with
      | none => simp [step, hclient] at h
      | some client =>
          simp only [step, hclient] at h
          exact recv_spec hclient h
  | take =>
      cases hevents : s.events with
      | nil =>
          simp only [step, hevents, Option.some.injEq] at h
          subst h
          exact .kept
      | cons ev events =>
          simp only [step, hevents, Option.some.injEq] at h
          subst h
          exact .taken hevents

/-- The handlers of the service take nothing from the queue. -/
theorem step_grows (ha : a ≠ .take) (h : s.step parse a = some s') :
    s'.taken = s.taken ∧ s.events <+: s'.events := by
  cases step_spec h with
  | kept => exact ⟨rfl, List.prefix_refl _⟩
  | connected => exact ⟨rfl, List.prefix_refl _⟩
  | closed => exact ⟨rfl, List.prefix_refl _⟩
  | received hclient hchunk hrecv =>
      obtain ⟨new, hevents, -⟩ := onRecv_events hrecv
      exact ⟨rfl, new.toList, hevents.symm⟩
  | taken => exact absurd rfl ha

end Service

/-! ## Clients do not disturb each other -/

/-- What `onRecv` queues for a connection that it has all to itself. -/
def queues (parse : Bytes → Option Json) (chunks : List Bytes) : List SEvent :=
  (texts [] chunks).1.filterMap (queued parse)

/-- The queue is a merge of what each connection alone would have queued, and each client
holds what is left over of its own chunks. -/
structure Service.Isolated (parse : Bytes → Option Json) (s : Service) : Prop where
  merge : Merge (fun c => queues parse (s.chunks c)) (s.taken ++ s.events)
  nonempty : ∀ c, [] ∉ s.chunks c
  readable : ∀ c, ∀ text ∈ (texts [] (s.chunks c)).1, ¬ Mistyped parse text
  req_eq : ∀ sock client, s.clients sock = some client →
    client.req = (texts [] (s.chunks client.connection)).2
  apart : ∀ sock sock' client client', s.clients sock = some client →
    s.clients sock' = some client' → client.connection = client'.connection → sock = sock'
  connection_lt : ∀ sock client, s.clients sock = some client →
    client.connection < s.connections
  fresh : ∀ c, s.connections ≤ c → s.chunks c = []

namespace Service

variable {s s' : Service} {a : ServiceAction}

theorem start_isolated (parse : Bytes → Option Json) : ({} : Service).Isolated parse where
  merge := .nil
  nonempty := by simp
  readable := by simp [texts]
  req_eq := by simp
  apart := by simp
  connection_lt := by simp
  fresh := by simp

/-- A client that is there after one entry has been written. -/
theorem update_clients_eq_some {clients : Socket → Option Client} {sock k : Socket}
    {entry : Option Client} {c : Client} (h : Function.update clients sock entry k = some c) :
    k = sock ∧ entry = some c ∨ k ≠ sock ∧ clients k = some c := by
  by_cases hk : k = sock
  · subst hk
    exact .inl ⟨rfl, by simpa using h⟩
  · exact .inr ⟨hk, by rwa [Function.update_of_ne hk] at h⟩

theorem Isolated.connected (hs : s.Isolated parse) (sock : Socket) :
    Isolated parse { s with
      clients := Function.update s.clients sock (some { connection := s.connections })
      connections := s.connections + 1 } where
  merge := hs.merge
  nonempty := hs.nonempty
  readable := hs.readable
  req_eq k c hc := by
    obtain ⟨rfl, hnew⟩ | ⟨-, hold⟩ := update_clients_eq_some hc
    · cases hnew
      rw [hs.fresh s.connections le_rfl]
      rfl
    · exact hs.req_eq k c hold
  apart k k' c c' hc hc' heq := by
    obtain ⟨rfl, hnew⟩ | ⟨-, hold⟩ := update_clients_eq_some hc <;>
      obtain ⟨rfl, hnew'⟩ | ⟨-, hold'⟩ := update_clients_eq_some hc'
    · rfl
    · cases hnew
      exact absurd heq (hs.connection_lt _ _ hold').ne'
    · cases hnew'
      exact absurd heq (hs.connection_lt _ _ hold).ne
    · exact hs.apart _ _ _ _ hold hold' heq
  connection_lt k c hc := by
    obtain ⟨rfl, hnew⟩ | ⟨-, hold⟩ := update_clients_eq_some hc
    · cases hnew
      exact Nat.lt_succ_self _
    · exact Nat.lt_succ_of_lt (hs.connection_lt k c hold)
  fresh c hc := hs.fresh c (Nat.le_of_succ_le hc)

theorem Isolated.closed (hs : s.Isolated parse) (sock : Socket) :
    Isolated parse { s with clients := Function.update s.clients sock none } := by
  have hold : ∀ k c, Function.update s.clients sock none k = some c → s.clients k = some c := by
    intro k c hc
    obtain ⟨-, hnone⟩ | ⟨-, hold⟩ := update_clients_eq_some hc
    · cases hnone
    · exact hold
  exact ⟨hs.merge, hs.nonempty, hs.readable, fun k c hc => hs.req_eq k c (hold k c hc),
    fun k k' c c' hc hc' heq => hs.apart k k' c c' (hold k c hc) (hold k' c' hc') heq,
    fun k c hc => hs.connection_lt k c (hold k c hc), hs.fresh⟩

/-- A chunk adds to the queue what it adds to the queue of its own connection. -/
theorem onRecv_texts {chunks : List Bytes} {chunk req : Bytes} {events events' : List SEvent}
    (hchunk : chunk ≠ [])
    (h : onRecv parse chunk ⟨(texts [] chunks).2, events, true⟩ = .done ⟨req, events', true⟩) :
    req = (texts [] (chunks ++ [chunk])).2 ∧
      (∀ text ∈ (texts [] (chunks ++ [chunk])).1,
        text ∈ (texts [] chunks).1 ∨ ¬ Mistyped parse text) ∧
      ∃ new, events' = events ++ new ∧
        queues parse (chunks ++ [chunk]) = queues parse chunks ++ new := by
  rw [onRecv_eq_done_iff hchunk] at h
  dsimp only at h
  rw [queues, texts_snoc]
  split at h
  · rename_i hends
    obtain ⟨htext, h⟩ := h
    cases h
    rw [if_pos hends]
    refine ⟨rfl, fun text hmem => ?_, _, rfl, ?_⟩
    · rcases List.mem_append.1 hmem with hmem | hmem
      · exact .inl hmem
      · exact .inr (List.mem_singleton.1 hmem ▸ htext)
    · rw [List.filterMap_append, queues]
      cases hqueued : queued parse ((texts [] chunks).2 ++ chunk) <;> simp [hqueued]
  · rename_i hends
    cases h
    rw [if_neg hends]
    exact ⟨rfl, fun text hmem => .inl hmem, [], by simp, by simp [queues]⟩

theorem Isolated.received (hs : s.Isolated parse) {sock : Socket} {client : Client}
    {chunk req : Bytes} {events : List SEvent} (hclient : s.clients sock = some client)
    (hchunk : chunk ≠ [])
    (hrecv : onRecv parse chunk ⟨client.req, s.events, true⟩ = .done ⟨req, events, true⟩) :
    Isolated parse { s with
      clients := Function.update s.clients sock (some { client with req := req })
      events := events
      chunks := Function.update s.chunks client.connection
        (s.chunks client.connection ++ [chunk]) } := by
  rw [hs.req_eq sock client hclient] at hrecv
  obtain ⟨hreq, htexts, new, rfl, hqueues⟩ := onRecv_texts hchunk hrecv
  -- the other connections have received nothing
  have hown : ∀ k c, k ≠ sock → s.clients k = some c → c.connection ≠ client.connection :=
    fun k c hk hc heq => hk (hs.apart k sock c client hc hclient heq)
  refine ⟨?_, fun c => ?_, fun c => ?_, fun k c hc => ?_, fun k k' c c' hc hc' heq => ?_,
    fun k c hc => ?_, fun c hc => ?_⟩
  · have hmerge := hs.merge.append client.connection new
    rw [List.append_assoc] at hmerge
    convert hmerge using 1
    funext c
    rw [← hqueues]
    exact Function.apply_update (fun _ => queues parse) ..
  · dsimp only
    by_cases hc : c = client.connection
    · subst hc
      rw [Function.update_self, List.mem_append, not_or]
      exact ⟨hs.nonempty _, by simpa using hchunk.symm⟩
    · rw [Function.update_of_ne hc]
      exact hs.nonempty c
  · dsimp only
    by_cases hc : c = client.connection
    · subst hc
      rw [Function.update_self]
      exact fun text htext => (htexts text htext).elim (hs.readable _ text) id
    · rw [Function.update_of_ne hc]
      exact hs.readable c
  · dsimp only
    obtain ⟨rfl, hnew⟩ | ⟨hk, hold⟩ := update_clients_eq_some hc
    · cases hnew
      rw [Function.update_self]
      exact hreq
    · rw [Function.update_of_ne (hown k c hk hold)]
      exact hs.req_eq k c hold
  · obtain ⟨rfl, hnew⟩ | ⟨hk, hold⟩ := update_clients_eq_some hc <;>
      obtain ⟨rfl, hnew'⟩ | ⟨hk', hold'⟩ := update_clients_eq_some hc'
    · rfl
    · cases hnew
      exact absurd heq.symm (hown k' c' hk' hold')
    · cases hnew'
      exact absurd heq (hown k c hk hold)
    · exact hs.apart _ _ _ _ hold hold' heq
  · obtain ⟨rfl, hnew⟩ | ⟨hk, hold⟩ := update_clients_eq_some hc
    · cases hnew
      exact hs.connection_lt _ client hclient
    · exact hs.connection_lt k c hold
  · have hne : c ≠ client.connection := fun h =>
      absurd (hs.connection_lt sock client hclient) (not_lt.2 (h ▸ hc))
    dsimp only
    rw [Function.update_of_ne hne]
    exact hs.fresh c hc

theorem Isolated.step (hs : s.Isolated parse) (h : s.step parse a = some s') :
    s'.Isolated parse := by
  cases step_spec h with
  | kept => exact hs
  | connected hsock => exact hs.connected _
  | closed => exact hs.closed _
  | received hclient hchunk hrecv => exact hs.received hclient hchunk hrecv
  | taken hevents =>
      refine ⟨?_, hs.nonempty, hs.readable, hs.req_eq, hs.apart, hs.connection_lt, hs.fresh⟩
      have hmerge := hs.merge
      rw [hevents] at hmerge
      simpa using hmerge

/-- What a connection has queued and holds is what it would have as the only one. -/
theorem Isolated.receiveAll_eq (hs : s.Isolated parse) (c : ℕ) :
    receiveAll parse (s.chunks c) {} =
      .done ⟨(texts [] (s.chunks c)).2, queues parse (s.chunks c), true⟩ :=
  (receiveAll_eq_done_iff (hs.nonempty c)).2 ⟨hs.readable c, rfl⟩

/-- However the calls for the clients are interleaved, and whenever `main` takes a
command: each connection has queued what it would have queued as the only one, the
commands taken and those that wait are a merge of these, and a client holds in `req_`
what it would hold alone. -/
theorem run_clients {as : List ServiceAction} (h : run (Service.step parse) {} as = some s) :
    ∃ own : ℕ → Telnet, (∀ c, receiveAll parse (s.chunks c) {} = .done (own c)) ∧
      Merge (fun c => (own c).events) (s.taken ++ s.events) ∧
      ∀ sock client, s.clients sock = some client → client.req = (own client.connection).req := by
  have hs : s.Isolated parse :=
    run_preserves (fun _ _ _ hs hstep => hs.step hstep) (start_isolated parse) h
  exact ⟨_, hs.receiveAll_eq, hs.merge, hs.req_eq⟩

/-- Two clients send a delete each, the first one in two chunks around the other's. -/
def twoClients : List ServiceAction :=
  [.accept ⟨some 5, true, true⟩, .accept ⟨some 6, true, true⟩,
    .recv 5 (Sample.deleteLine.sent.take 10), .recv 6 Sample.deleteLine.sent,
    .recv 5 (Sample.deleteLine.sent.drop 10), .take]

theorem run_clients_two : ∃ s, run (step Sample.platform.parse) {} twoClients = some s ∧
    s.taken.length = 1 ∧ s.events.length = 1 ∧
    ∃ own : ℕ → Telnet,
      (∀ c, receiveAll Sample.platform.parse (s.chunks c) {} = .done (own c)) ∧
      Merge (fun c => (own c).events) (s.taken ++ s.events) ∧
      ∀ sock client, s.clients sock = some client →
        client.req = (own client.connection).req := by
  obtain ⟨s, hrun, htaken, hevents⟩ : ∃ s,
      run (step Sample.platform.parse) {} twoClients = some s ∧
        s.taken.length = 1 ∧ s.events.length = 1 := ⟨_, rfl, rfl, rfl⟩
  exact ⟨s, hrun, htaken, hevents, run_clients hrun⟩

end Service

end Bres
