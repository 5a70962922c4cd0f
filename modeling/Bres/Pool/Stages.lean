import Bres.Pool.World
import Bres.Transition.Worker

/-!
# Commands in stages

`World` executes a command in one step. But a channel add starts two threads at its end, and
a channel delete raises the quit flag of a slot, waits for these threads and takes down what
they work on, slot after slot, while all the other threads go on. Here `main` does one part
at a time, and anything can come in between. The other commands touch no thread, so they
stay in one piece.

The threads of a slot are loops under its quit flag: they handle events and call
`lws_service` only in the body of their loop. A part that throws ends the program, so it is
no step.
-/

namespace Bres

open Transition

/-- The two threads of a slot. -/
inductive SlotThread where
  | eventDispatch
  | websockets
deriving DecidableEq

namespace Instance

def thread (inst : Instance) : SlotThread → StdThread
  | .eventDispatch => inst.eventDispatchThread
  | .websockets => inst.websocketsThread

def setThread (inst : Instance) (v : StdThread) : SlotThread → Instance
  | .eventDispatch => { inst with eventDispatchThread := v }
  | .websockets => { inst with websocketsThread := v }

end Instance

/-- What `main` still has to do for a slot. -/
inductive Task where
  | start (thread : SlotThread) (i : Fin instanceMax)
  /-- The comparison at the head of the loop of `subscribeSideDeleteChannel`. -/
  | examine (channelId : String) (i : Fin instanceMax)
  | join (thread : SlotThread) (i : Fin instanceMax)
  | quitWebsockets (i : Fin instanceMax)
  | quitWebrtc (i : Fin instanceMax)
  | quitGl (i : Fin instanceMax)
deriving DecidableEq

/-- The end of `subscribeSideAddChannel`. -/
def startTasks (i : Fin instanceMax) : List Task :=
  [.start .eventDispatch i, .start .websockets i]

/-- The body of the loop of `subscribeSideDeleteChannel`, behind its three stores. -/
def closeTasks (i : Fin instanceMax) : List Task :=
  [.join .eventDispatch i, .join .websockets i, .quitWebsockets i, .quitWebrtc i, .quitGl i]

/-! ## The first part of a command -/

/-- `subscribeSideAddChannel`, up to the start of the threads. -/
def beginAddChannel (parse : Bytes → Option Json) (ev : Bytes) (env : Answers)
    (pool : Pool) : Outcome Exn (Pool × List Task) :=
  match parse ev with
  | none => .thrown .parseError (pool, [])
  | some json =>
      match json.find "channel_id", json.find "channel_token",
        json.find "channel_multiple_stream", json.find "signaling_server" with
      | some channelId, some channelToken, some channelMultipleStream,
        some signalingServer =>
          if h : pool.freeIndex < instanceMax then
            (pool.visit ⟨pool.freeIndex, h⟩
              (prepareChannel channelId channelToken channelMultipleStream signalingServer
                env)).mapState (·, startTasks ⟨pool.freeIndex, h⟩)
          else .done (pool, [])
      | _, _, _, _ => .done (pool, [])

/-- `subscribeSideDeleteChannel`, up to its loop. -/
def beginDeleteChannel (parse : Bytes → Option Json) (ev : Bytes) (pool : Pool) :
    Outcome Exn (Pool × List Task) :=
  match parse ev with
  | none => .thrown .parseError (pool, [])
  | some json =>
      match json.find "channel_id" with
      | none => .done (pool, [])
      | some v =>
          match v.getString with
          | none => .thrown .typeError (pool, [])
          | some channelId => .done (pool, (List.finRange instanceMax).map (.examine channelId))

/-- What a command does before the tasks that it leaves to `main`. -/
def beginCommand (P : Platform) (env : Answers) (ev : SEvent) (pool : Pool) :
    Outcome Exn (Pool × List Task) :=
  match ev.type with
  | .subscribeAddChannel => beginAddChannel P.parse ev.event env pool
  | .subscribeDeleteChannel => beginDeleteChannel P.parse ev.event pool
  | _ => (executeCommand P env ev pool).mapState (·, [])

/-! ## The program -/

structure Staged where
  world : World
  tasks : List Task
  worker : SlotThread × Fin instanceMax → Worker

inductive StagedAction where
  /-- `main` takes a command. -/
  | command (env : Answers) (ev : SEvent)
  /-- `main` goes on with the command. -/
  | task
  /-- A thread of the slot looks at its quit flag, or ends the body of its loop. That takes
  the handler or the `lws_service` that it has called to return. -/
  | worker (thread : SlotThread) (i : Fin instanceMax) (returns : Bool)
  | thread (i : Fin instanceMax) (a : ThreadAction)

namespace Staged

def slot (s : Staged) (i : Fin instanceMax) : Slot := s.world.slot i

def setInst (s : Staged) (i : Fin instanceMax) (inst : Instance) : Staged :=
  { s with world := { s.world with pool := { s.world.pool with
      slot := Function.update s.world.pool.slot i inst } } }

def setWorker (s : Staged) (thread : SlotThread) (i : Fin instanceMax) (w : Worker) : Staged :=
  { s with worker := Function.update s.worker (thread, i) w }

def setTasks (s : Staged) (tasks : List Task) : Staged := { s with tasks := tasks }

def glQuit (s : Staged) (i : Fin instanceMax) : Staged :=
  { s with world := { s.world with pool := { s.world.pool with
      shared := Bres.glQuit (s.slot i).inst s.world.pool.shared } } }

/-- A part that leaves a record, or throws. -/
def commit (s : Staged) (i : Fin instanceMax) : Outcome Exn Instance → Option Staged
  | .thrown _ _ => none
  | .done inst => some (s.setInst i inst)

/-- The next part of a command, with the tasks behind it. -/
def perform (s : Staged) (rest : List Task) : Task → Option Staged
  | .start thread i =>
      match (s.slot i).inst.thread thread with
      | .joinable => none
      | .none =>
          some (((s.setInst i ((s.slot i).inst.setThread .joinable thread)).setWorker thread i
            .looking).setTasks rest)
  | .examine channelId i =>
      if (s.slot i).inst.channelId = channelId then
        some ((s.setInst i { (s.slot i).inst with
          quit := true, isDraw := 0, instanceEnum := .min }).setTasks (closeTasks i ++ rest))
      else some (s.setTasks rest)
  | .join thread i =>
      match (s.slot i).inst.thread thread with
      | .none => none
      | .joinable =>
          if s.worker (thread, i) = .returned then
            some (((s.setInst i ((s.slot i).inst.setThread .none thread)).setWorker thread i
              .absent).setTasks rest)
          else none
  | .quitWebsockets i => (s.commit i (websocketsQuit (s.slot i).inst)).map (·.setTasks rest)
  | .quitWebrtc i =>
      if (s.slot i).hands.decoders.isEmpty then
        (s.commit i (webrtcQuit (s.slot i).inst)).map (·.setTasks rest)
      else none
  | .quitGl i => some ((s.glQuit i).setTasks rest)

/-- The threads of a slot handle events in the body of their loop, and the collection is
done by `main`. -/
def Runs (s : Staged) (i : Fin instanceMax) : ThreadAction → Prop
  | .webrtcEvent _ => s.worker (.eventDispatch, i) = .working
  | .websocketsEvent => s.worker (.eventDispatch, i) = .working
  | .receive _ => s.worker (.websockets, i) = .working
  | .exchange .collectPop => s.tasks = []
  | _ => True

instance (s : Staged) (i : Fin instanceMax) : ∀ a : ThreadAction, Decidable (s.Runs i a)
  | .webrtcEvent _ => inferInstanceAs (Decidable (_ = _))
  | .websocketsEvent => inferInstanceAs (Decidable (_ = _))
  | .receive _ => inferInstanceAs (Decidable (_ = _))
  | .exchange .collectPop => inferInstanceAs (Decidable (s.tasks = []))
  | .exchange (.framePop _) => inferInstanceAs (Decidable True)
  | .exchange (.frameFill _) => inferInstanceAs (Decidable True)
  | .exchange (.framePush _) => inferInstanceAs (Decidable True)
  | .exchange .collectCopy => inferInstanceAs (Decidable True)
  | .exchange .collectPush => inferInstanceAs (Decidable True)
  | .onData _ => inferInstanceAs (Decidable True)
  | .send _ _ => inferInstanceAs (Decidable True)
  | .audio => inferInstanceAs (Decidable True)

def step (P : Platform) (s : Staged) : StagedAction → Option Staged
  | .command env ev =>
      if s.tasks = [] ∧ s.world.Idle ∧ env.texture ≠ 0 ∧ env.texture ∉ s.world.pool.shared then
        match beginCommand P env ev s.world.pool with
        | .thrown _ _ => none
        | .done (pool, tasks) =>
            some { s with world := { s.world with pool := pool }, tasks := tasks }
      else none
  | .task =>
      match s.tasks with
      | [] => none
      | task :: rest => s.perform rest task
  | .worker thread i returns =>
      ((s.worker (thread, i)).step (s.slot i).inst.quit returns).map (s.setWorker thread i)
  | .thread i a =>
      if s.Runs i a then
        (s.world.step P (.thread i a)).map fun world => { s with world := world }
      else none

/-- The program before its first command. -/
def startup : Staged := ⟨World.startup, [], fun _ => .absent⟩

variable {s : Staged} {i j : Fin instanceMax}

@[simp] theorem setInst_slot_self (inst : Instance) :
    (s.setInst i inst).slot i = ⟨inst, (s.slot i).hands⟩ := by
  simp [setInst, slot, World.slot]

theorem setInst_slot_of_ne (inst : Instance) (h : j ≠ i) :
    (s.setInst i inst).slot j = s.slot j := by
  simp [setInst, slot, World.slot, h]

@[simp] theorem setWorker_slot (thread : SlotThread) (w : Worker) :
    (s.setWorker thread i w).slot j = s.slot j := rfl

theorem commit_eq_some_iff {o : Outcome Exn Instance} {t : Staged} :
    s.commit i o = some t ↔ ∃ inst, o = .done inst ∧ s.setInst i inst = t := by
  cases o with
  | done inst => simp [commit]
  | thrown e inst => simp [commit]

theorem step_task {P : Platform} {task : Task} {rest : List Task}
    (h : s.tasks = task :: rest) : s.step P .task = s.perform rest task := by
  rw [step, h]

theorem perform_join_eq_some_iff {thread : SlotThread} {rest : List Task} {t : Staged} :
    s.perform rest (.join thread i) = some t ↔
      (s.slot i).inst.thread thread = .joinable ∧ s.worker (thread, i) = .returned ∧
        ((s.setInst i ((s.slot i).inst.setThread .none thread)).setWorker thread i
          .absent).setTasks rest = t := by
  cases hthread : (s.slot i).inst.thread thread with
  | none => simp [perform, hthread]
  | joinable => simp [perform, hthread, Option.ite_none_right_eq_some]

theorem perform_start_eq_some_iff {thread : SlotThread} {rest : List Task} {t : Staged} :
    s.perform rest (.start thread i) = some t ↔
      (s.slot i).inst.thread thread = .none ∧
        ((s.setInst i ((s.slot i).inst.setThread .joinable thread)).setWorker thread i
          .looking).setTasks rest = t := by
  cases hthread : (s.slot i).inst.thread thread with
  | none => simp [perform, hthread]
  | joinable => simp [perform, hthread]

end Staged

/-! ## What the first part of a command leaves -/

theorem beginAddChannel_of_rejects {P : Platform} {ev : Bytes} {pool : Pool} {json : Json}
    (hparse : P.parse ev = some json) (h : pool.Rejects addChannelKeys json)
    (env : Answers) : beginAddChannel P.parse ev env pool = .done (pool, []) := by
  unfold beginAddChannel
  rw [hparse]
  rcases h with ⟨key, hkey, hnone⟩ | hfull
  · simp only [addChannelKeys, List.mem_cons, List.not_mem_nil, or_false] at hkey
    rcases hkey with rfl | rfl | rfl | rfl <;> simp only [hnone]
    · cases json.find "channel_id" <;> rfl
    · cases json.find "channel_id" <;> cases json.find "channel_token" <;> rfl
    · cases json.find "channel_id" <;> cases json.find "channel_token" <;>
        cases json.find "channel_multiple_stream" <;> rfl
  · simp only [dif_neg (Nat.not_lt.2 hfull)]
    split <;> rfl

theorem beginAddChannel_of_present {P : Platform} {ev : Bytes} {pool : Pool} {json : Json}
    {id token multi server : Json} {i : Fin instanceMax}
    (hparse : P.parse ev = some json) (hid : json.find "channel_id" = some id)
    (htoken : json.find "channel_token" = some token)
    (hmulti : json.find "channel_multiple_stream" = some multi)
    (hserver : json.find "signaling_server" = some server)
    (hindex : pool.freeIndex = i) (env : Answers) :
    beginAddChannel P.parse ev env pool =
      (pool.visit i (prepareChannel id token multi server env)).mapState
        (·, startTasks i) := by
  unfold beginAddChannel
  rw [hparse]
  have hlt : pool.freeIndex < instanceMax := lt_of_eq_of_lt hindex i.isLt
  have hi : (⟨pool.freeIndex, hlt⟩ : Fin instanceMax) = i := Fin.ext hindex
  simp only [hid, htoken, hmulti, hserver, dif_pos hlt, hi]

/-- An add that gets past its checks is to start the threads of the slot it has found. -/
theorem beginAddChannel_eq_done {P : Platform} {ev : Bytes} {env : Answers}
    {pool pool' : Pool} {tasks : List Task}
    (h : beginAddChannel P.parse ev env pool = .done (pool', tasks)) :
    (tasks = [] ∧ pool' = pool ∧ subscribeSideAddChannel P.parse ev env pool = .done pool) ∨
      ∃ (i : Fin instanceMax) (id token multi : String),
        tasks = startTasks i ∧
        pool' = ⟨Function.update pool.slot i (preparedChannel id token multi env
          (pool.slot i)), env.texture :: pool.shared⟩ ∧
        ((pool.slot i).eventDispatchThread = .none → (pool.slot i).websocketsThread = .none →
          subscribeSideAddChannel P.parse ev env pool =
            .done ⟨Function.update pool.slot i (openedChannel id token multi env
              (pool.slot i)), env.texture :: pool.shared⟩) := by
  cases hparse : P.parse ev with
  | none => simp [beginAddChannel, hparse] at h
  | some json =>
      by_cases hrejects : pool.Rejects addChannelKeys json
      · rw [beginAddChannel_of_rejects hparse hrejects] at h
        obtain ⟨rfl, rfl⟩ := Prod.mk.inj (Outcome.done.inj h)
        exact .inl ⟨rfl, rfl, addChannel_of_rejects hparse hrejects env⟩
      obtain ⟨i, channelId, channelToken, channelMultipleStream, signalingServer, hindex, hid,
        htoken, hmulti, hserver, hadd⟩ := addChannel_of_not_rejects hparse hrejects env
      rw [beginAddChannel_of_present hparse hid htoken hmulti hserver hindex] at h
      obtain ⟨p, hvisit, hp⟩ := (Outcome.mapState_eq_done_iff ..).1 h
      obtain ⟨rfl, rfl⟩ := Prod.mk.inj hp
      obtain ⟨inst, gl, hprepare, rfl⟩ := Family.visit_eq_done_iff.1 hvisit
      obtain ⟨id, token, multi, server, rfl, rfl, rfl, rfl, -, hr⟩ :=
        prepareChannel_eq_done_iff.1 hprepare
      obtain ⟨rfl, rfl⟩ := Prod.mk.inj hr
      refine .inr ⟨i, id, token, multi, rfl, rfl, fun hdispatch hwebsockets => ?_⟩
      have hstart : startThreads (preparedChannel id token multi env (pool.slot i)) =
          .done (openedChannel id token multi env (pool.slot i)) :=
        startThreads_eq_done_iff.2 ⟨hdispatch, hwebsockets, rfl⟩
      rw [hadd]
      refine Family.visit_eq_done ?_
      rw [openChannel, hprepare, Outcome.done_bind]
      simp only [hstart, Outcome.mapState_done]

/-- A delete that gets past its checks is to examine every slot. -/
theorem beginDeleteChannel_eq_done {parse : Bytes → Option Json} {ev : Bytes}
    {pool pool' : Pool} {tasks : List Task}
    (h : beginDeleteChannel parse ev pool = .done (pool', tasks)) :
    pool' = pool ∧
      ((tasks = [] ∧ subscribeSideDeleteChannel parse ev pool = .done pool) ∨
        ∃ json id, parse ev = some json ∧ json.HasString "channel_id" id ∧
          tasks = (List.finRange instanceMax).map (.examine id)) := by
  unfold beginDeleteChannel at h
  unfold subscribeSideDeleteChannel
  cases hparse : parse ev with
  | none => simp [hparse] at h
  | some json =>
      simp only [hparse] at h ⊢
      cases hfind : json.find "channel_id" with
      | none =>
          simp only [hfind] at h
          obtain ⟨rfl, rfl⟩ := Prod.mk.inj (Outcome.done.inj h)
          exact ⟨rfl, .inl ⟨rfl, rfl⟩⟩
      | some v =>
          simp only [hfind] at h
          cases v with
          | string id =>
              obtain ⟨rfl, rfl⟩ := Prod.mk.inj (Outcome.done.inj h)
              exact ⟨rfl, .inr ⟨json, id, rfl, hfind, rfl⟩⟩
          | _ => cases h

end Bres
