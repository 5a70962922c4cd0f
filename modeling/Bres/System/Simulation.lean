import Bres.Pool.Control
import Bres.Pool.Stages
import Bres.System.MainLoop

/-!
# The stages of a command add up to the command

`Staged` refines `World`: a run in which `main` does its commands part by part is, for all
that the threads and `main` leave behind, a run in which it does them in one step. An add
counts as done when it has prepared its slot, and a delete when it has closed its last one.
In between, each slot is at some stage of the command: `SlotStage.view` says what is there of
a slot of the other run.

A slot may still have its threads when an add prepares it. Then the program ends where it is
to start the first of them, and nothing is said of the steps of the threads before that end.
-/

namespace Bres

open Transition

/-! ## One slot -/

/-- How far `main` has come with a slot. -/
inductive SlotStage where
  | settled
  /-- Opened, with the first of its threads or with none. -/
  | starting (dispatch : StdThread)
  /-- Marked as free, and told to quit. -/
  | marked
  | dispatchJoined
  | joined
  | disconnected
  /-- Closed, but for its texture. -/
  | released

/-- The members of a slot that a command changes in stages. -/
def Instance.control (inst : Instance) : Control where
  quit := inst.quit
  isDraw := inst.isDraw
  instanceEnum := inst.instanceEnum
  eventDispatchThread := inst.eventDispatchThread
  websocketsThread := inst.websocketsThread
  context := inst.context
  websocket := inst.websocket

namespace SlotStage

/-- What the stage makes of them. -/
def control (c : Control) : SlotStage → Control
  | .settled => c
  | .starting dispatch => { c with eventDispatchThread := dispatch, websocketsThread := .none }
  | .marked => { c with quit := true, isDraw := 0, instanceEnum := .min }
  | .dispatchJoined =>
      { c with quit := true, isDraw := 0, instanceEnum := .min, eventDispatchThread := .none }
  | .joined =>
      { c with
        quit := true
        isDraw := 0
        instanceEnum := .min
        eventDispatchThread := .none
        websocketsThread := .none }
  | .disconnected | .released =>
      { quit := true
        isDraw := 0
        instanceEnum := .min
        eventDispatchThread := .none
        websocketsThread := .none
        context := .dangling
        websocket := if c.websocket = .live then .dangling else c.websocket }

/-- The record of a slot at that stage, from its record before or behind the command. -/
def view (inst : Instance) (stage : SlotStage) : Instance :=
  match stage with
  | .released => inst.closed
  | stage => inst.withControl (stage.control inst.control)

/-- The slot must have its threads for the stage to be reached. -/
def Manned : SlotStage → Prop
  | .settled => False
  | .marked => False
  | _ => True

/-- What is left to do for a slot at that stage. -/
def tasks (i : Fin instanceMax) : SlotStage → List Task
  | .settled => []
  | .starting .none => startTasks i
  | .starting .joinable => [.start .websockets i]
  | .marked => closeTasks i
  | .dispatchJoined => [.join .websockets i, .quitWebsockets i, .quitWebrtc i, .quitGl i]
  | .joined => [.quitWebsockets i, .quitWebrtc i, .quitGl i]
  | .disconnected => [.quitWebrtc i, .quitGl i]
  | .released => [.quitGl i]

/-- `part` is the slot `whole` at that stage. -/
structure Rel (stage : SlotStage) (whole part : Slot) : Prop where
  inst : part.inst = stage.view whole.inst
  hands : part.hands = whole.hands
  live : stage.Manned → whole.inst.Live
  quiet : stage = .released → whole.hands.decoders = []

end SlotStage

theorem Instance.control_eq_of_frozen {inst inst' : Instance} (h : inst'.frozen = inst.frozen) :
    inst'.control = inst.control := by
  have hcontrol := congrArg Instance.control h
  exact hcontrol

theorem Instance.live_frozen (inst : Instance) : inst.frozen.Live ↔ inst.Live := by
  constructor
  · rintro ⟨hdispatch, hwebsockets, hcontext, hrtc⟩
    exact ⟨hdispatch, hwebsockets, hcontext, hrtc⟩
  · rintro ⟨hdispatch, hwebsockets, hcontext, hrtc⟩
    exact ⟨hdispatch, hwebsockets, hcontext, hrtc⟩

theorem SlotStage.view_eq_withControl {stage : SlotStage} (h : stage ≠ .released)
    (inst : Instance) : stage.view inst = inst.withControl (stage.control inst.control) := by
  cases stage with
  | released => exact absurd rfl h
  | _ => rfl

theorem SlotStage.view_settled (inst : Instance) : SlotStage.settled.view inst = inst := rfl

theorem SlotStage.rel_settled_iff {whole part : Slot} :
    SlotStage.settled.Rel whole part ↔ part = whole := by
  constructor
  · rintro ⟨hinst, hhands, -, -⟩
    obtain ⟨inst, hands⟩ := part
    obtain rfl : inst = whole.inst := hinst
    obtain rfl : hands = whole.hands := hhands
    rfl
  · rintro rfl
    exact ⟨rfl, rfl, fun h => h.elim, fun h => by cases h⟩

theorem SlotStage.control_within {stage : SlotStage} {inst : Instance}
    (hlive : stage.Manned → inst.Live) : (stage.control inst.control).Within inst := by
  cases stage with
  | settled => exact ⟨id, id⟩
  | starting dispatch =>
      exact ⟨id, fun _ => (hlive trivial).eventDispatchThread⟩
  | marked => exact ⟨fun h => absurd rfl h, id⟩
  | dispatchJoined => exact ⟨fun h => absurd rfl h, fun h => by cases h⟩
  | joined => exact ⟨fun h => absurd rfl h, fun h => by cases h⟩
  | disconnected => exact ⟨fun h => absurd rfl h, fun h => by cases h⟩
  | released => exact ⟨fun h => absurd rfl h, fun h => by cases h⟩

variable {P : Platform} {parse : Bytes → Option Json}

/-- No thread has anything to do with a slot that is closed. -/
theorem threadStep_closed {inst : Instance} {hands : Hands} (hdecoders : hands.decoders = [])
    (hrenderer : hands.renderer = none) (a : ThreadAction) :
    threadStep parse ⟨inst.closed, hands⟩ a = none := by
  have hrtc : inst.closed.rtc.peerConnectionFactory ≠ .live := by
    intro h
    cases h
  have hthread : inst.closed.eventDispatchThread ≠ .joinable := by
    intro h
    cases h
  have hfree : ¬ inst.closed.instanceEnum ≠ .min := fun h => h rfl
  cases a with
  | exchange a =>
      cases a with
      | framePop picture => rw [threadStep, if_neg (by exact hrtc)]
      | frameFill k =>
          rw [threadStep, if_pos (by trivial)]
          simp only [slotStep, hdecoders, List.getElem?_nil]
      | framePush k =>
          rw [threadStep, if_pos (by trivial)]
          simp only [slotStep, hdecoders, List.getElem?_nil]
      | collectPop => rw [threadStep, if_neg (by exact hfree)]
      | collectCopy =>
          rw [threadStep, if_pos (by trivial)]
          simp only [slotStep, hrenderer]
      | collectPush =>
          rw [threadStep, if_pos (by trivial)]
          simp only [slotStep, hrenderer]
  | onData pcm => rw [threadStep, if_neg hrtc]
  | send type text => rw [threadStep, if_neg (not_and_of_not_left _ hrtc)]
  | receive payload => rw [threadStep, if_neg hrtc]
  | webrtcEvent peerConnection => rw [threadStep, if_neg hthread]
  | websocketsEvent => rw [threadStep, if_neg hthread]
  | audio => rw [threadStep, if_neg hfree]

/-- A thread does on a slot at some stage what it does on the whole slot. -/
theorem SlotStage.Rel.thread {stage : SlotStage} {whole part part' : Slot} {a : ThreadAction}
    (h : stage.Rel whole part) (hrenderer : stage = .released → whole.hands.renderer = none)
    (hstep : threadStep parse part a = some part') :
    ∃ whole', threadStep parse whole a = some whole' ∧ stage.Rel whole' part' := by
  obtain ⟨inst, hands⟩ := part
  obtain ⟨hinst, hhands, hlive, hquiet⟩ := h
  obtain rfl : inst = stage.view whole.inst := hinst
  obtain rfl : hands = whole.hands := hhands
  by_cases hstage : stage = .released
  · subst hstage
    rw [SlotStage.view, threadStep_closed (hquiet rfl) (hrenderer rfl)] at hstep
    cases hstep
  · rw [SlotStage.view_eq_withControl hstage] at hstep
    obtain ⟨whole', hwhole, rfl⟩ := threadStep_withControl (control_within hlive) hstep
    have hfrozen : whole'.inst.frozen = whole.inst.frozen := (threadStep_spec hwhole).frozen
    refine ⟨whole', hwhole, ?_, rfl, fun hmanned => ?_, fun h => absurd h hstage⟩
    · rw [SlotStage.view_eq_withControl hstage, Instance.control_eq_of_frozen hfrozen]
      rfl
    · rw [← Instance.live_frozen, hfrozen, Instance.live_frozen]
      exact hlive hmanned

/-! ## The whole pool -/

/-- A delete of that id, with a texture name that its step of `World` may be given. -/
structure Deleting (P : Platform) (pool : Pool) (env : Answers) (ev : SEvent) (id : String) :
    Prop where
  deletes : P.DeletesChannel ev id
  texture_ne : env.texture ≠ 0
  texture_fresh : env.texture ∉ pool.shared

/-- The stages of the slots when the loop of a delete has passed `past`. -/
def closedStages (pool : Pool) (id : String) (past : List (Fin instanceMax))
    (j : Fin instanceMax) : SlotStage :=
  if j ∈ past ∧ (pool.slot j).channelId = id then .released else .settled

/-- The texture names that are then left. -/
def texturesBehind (pool : Pool) (id : String) (past : List (Fin instanceMax)) : List GLuint :=
  past.foldl (fun gl j => if (pool.slot j).channelId = id then glQuit (pool.slot j) gl else gl)
    pool.shared

/-- The stages of a delete of one slot. -/
def SlotStage.Closing : SlotStage → Prop
  | .settled => False
  | .starting _ => False
  | _ => True

/-- What the tasks of `main` say of the slots and the texture names, and which command is
not done yet. -/
inductive Phase (P : Platform) (pool : Pool) (tasks : List Task)
    (stage : Fin instanceMax → SlotStage) (gl : List GLuint) : List SEvent → Prop
  | idle (htasks : tasks = []) (hstage : stage = fun _ => .settled) (hgl : gl = pool.shared) :
      Phase P pool tasks stage gl []
  | opening {i : Fin instanceMax} {v : StdThread} (htasks : tasks = (SlotStage.starting v).tasks i)
      (hstage : stage = Function.update (fun _ => .settled) i (.starting v))
      (hgl : gl = pool.shared) : Phase P pool tasks stage gl []
  | examining {env : Answers} {ev : SEvent} {id : String} {past rest : List (Fin instanceMax)}
      (hdelete : Deleting P pool env ev id) (hsplit : List.finRange instanceMax = past ++ rest)
      (hrest : rest ≠ []) (htasks : tasks = rest.map (.examine id))
      (hstage : stage = closedStages pool id past) (hgl : gl = texturesBehind pool id past) :
      Phase P pool tasks stage gl [ev]
  | closing {env : Answers} {ev : SEvent} {id : String} {past rest : List (Fin instanceMax)}
      {i : Fin instanceMax} {now : SlotStage} (hdelete : Deleting P pool env ev id)
      (hsplit : List.finRange instanceMax = past ++ i :: rest)
      (hid : (pool.slot i).channelId = id) (hnow : now.Closing)
      (htasks : tasks = now.tasks i ++ rest.map (.examine id))
      (hstage : stage = Function.update (closedStages pool id past) i now)
      (hgl : gl = texturesBehind pool id past) : Phase P pool tasks stage gl [ev]

section Phase

variable {pool pool' : Pool} {tasks : List Task} {stage : Fin instanceMax → SlotStage}
  {gl : List GLuint} {pending : List SEvent} {id : String} {past : List (Fin instanceMax)}
  {i j : Fin instanceMax}

theorem SlotStage.tasks_ne_nil {now : SlotStage} (h : now.Closing) (i : Fin instanceMax) :
    now.tasks i ≠ [] := by
  cases now with
  | settled => exact h.elim
  | starting v => exact h.elim
  | _ => exact List.cons_ne_nil _ _

theorem Phase.tasks_eq_nil (h : Phase P pool tasks stage gl pending) (htasks : tasks = []) :
    stage = (fun _ => .settled) ∧ gl = pool.shared ∧ pending = [] := by
  cases h with
  | idle _ hstage hgl => exact ⟨hstage, hgl, rfl⟩
  | @opening i v hopening =>
      rw [htasks] at hopening
      cases v with
      | none => exact absurd hopening.symm (List.cons_ne_nil _ _)
      | joinable => exact absurd hopening.symm (List.cons_ne_nil _ _)
  | examining _ _ hrest hexamine =>
      rw [htasks] at hexamine
      exact absurd (List.map_eq_nil_iff.1 hexamine.symm) hrest
  | @closing _ _ _ _ _ i now _ _ _ hnow hclosing =>
      rw [htasks] at hclosing
      exact absurd (List.append_eq_nil_iff.1 hclosing.symm).1 (SlotStage.tasks_ne_nil hnow i)

/-- The next task is to examine a slot, or the first one of the stage of its slot. -/
theorem Phase.head_cases {task : Task} {rest : List Task} (h : Phase P pool tasks stage gl pending)
    (htasks : tasks = task :: rest) :
    (∃ id i, task = .examine id i) ∨ ∃ i ts, (stage i).tasks i = task :: ts := by
  cases h with
  | idle hnil =>
      rw [htasks] at hnil
      cases hnil
  | @opening i v hopening hstage =>
      refine .inr ⟨i, rest, ?_⟩
      rw [hstage, Function.update_self, ← hopening, htasks]
  | @examining _ _ id _ slots _ _ hrest hexamine =>
      cases slots with
      | nil => exact absurd rfl hrest
      | cons i slots =>
          rw [htasks] at hexamine
          obtain ⟨hhead, -⟩ := List.cons.inj hexamine
          exact .inl ⟨id, i, hhead⟩
  | @closing _ _ _ _ _ i now _ _ _ hnow hclosing hstage =>
      obtain ⟨first, ts, hfirst⟩ := List.exists_cons_of_ne_nil (SlotStage.tasks_ne_nil hnow i)
      rw [htasks, hfirst] at hclosing
      obtain ⟨hhead, -⟩ := List.cons.inj hclosing
      refine .inr ⟨i, ts, ?_⟩
      rw [hstage, Function.update_self, hfirst, hhead]

theorem Phase.length_pending_le (h : Phase P pool tasks stage gl pending) :
    pending.length ≤ 1 := by
  cases h with
  | idle => exact Nat.zero_le _
  | opening => exact Nat.zero_le _
  | examining => exact le_rfl
  | closing => exact le_rfl

/-- The threads change nothing that a phase speaks of. -/
theorem Phase.of_frozen (hslot : ∀ j, (pool'.slot j).frozen = (pool.slot j).frozen)
    (hshared : pool'.shared = pool.shared) (h : Phase P pool tasks stage gl pending) :
    Phase P pool' tasks stage gl pending := by
  have hname : ∀ j, (pool'.slot j).channelId = (pool.slot j).channelId := fun j => by
    have hid := congrArg Instance.channelId (hslot j)
    exact hid
  have htexture : ∀ j, (pool'.slot j).movieTexture = (pool.slot j).movieTexture := fun j => by
    have htexture := congrArg Instance.movieTexture (hslot j)
    exact htexture
  have hstages : closedStages pool' = closedStages pool := by
    funext id past j
    rw [closedStages, closedStages, hname]
  have htextures : texturesBehind pool' = texturesBehind pool := by
    funext id past
    simp only [texturesBehind, hname, glQuit, htexture, hshared]
  cases h with
  | idle htasks hstage hgl => exact .idle htasks hstage (hgl.trans hshared.symm)
  | opening htasks hstage hgl => exact .opening htasks hstage (hgl.trans hshared.symm)
  | examining hdelete hsplit hrest htasks hstage hgl =>
      refine .examining ⟨hdelete.deletes, hdelete.texture_ne, ?_⟩ hsplit hrest htasks ?_ ?_
      · rw [hshared]
        exact hdelete.texture_fresh
      · rw [hstages]
        exact hstage
      · rw [htextures]
        exact hgl
  | closing hdelete hsplit hid hnow htasks hstage hgl =>
      refine .closing ⟨hdelete.deletes, hdelete.texture_ne, ?_⟩ hsplit ((hname _).trans hid)
        hnow htasks ?_ ?_
      · rw [hshared]
        exact hdelete.texture_fresh
      · rw [hstages]
        exact hstage
      · rw [htextures]
        exact hgl

theorem closedStages_of_not_mem (h : i ∉ past) : closedStages pool id past i = .settled :=
  if_neg fun hi => h hi.1

/-- The loop passes a slot that has another name. -/
theorem closedStages_pass (h : (pool.slot i).channelId ≠ id) :
    closedStages pool id (past ++ [i]) = closedStages pool id past := by
  funext j
  by_cases hji : j = i
  · subst hji
    rw [closedStages, if_neg fun hj => h hj.2, closedStages, if_neg fun hj => h hj.2]
  · simp [closedStages, hji]

/-- The loop passes a slot that it has closed. -/
theorem closedStages_close (h : (pool.slot i).channelId = id) :
    closedStages pool id (past ++ [i]) =
      Function.update (closedStages pool id past) i .released := by
  funext j
  by_cases hji : j = i
  · subst hji
    simp [closedStages, h]
  · simp [closedStages, hji]

theorem texturesBehind_snoc : texturesBehind pool id (past ++ [i]) =
    if (pool.slot i).channelId = id then glQuit (pool.slot i) (texturesBehind pool id past)
    else texturesBehind pool id past := by
  rw [texturesBehind, List.foldl_append]
  rfl

theorem not_mem_of_split {rest : List (Fin instanceMax)}
    (h : List.finRange instanceMax = past ++ i :: rest) : i ∉ past := by
  have hnodup : (past ++ i :: rest).Nodup := h ▸ List.nodup_finRange instanceMax
  exact fun hi => (List.nodup_append.1 hnodup).2.2 i hi i (List.mem_cons_self ..) rfl

theorem snoc_split {rest : List (Fin instanceMax)}
    (h : List.finRange instanceMax = past ++ i :: rest) :
    List.finRange instanceMax = past ++ [i] ++ rest := by
  rw [h, List.append_assoc]
  rfl

end Phase

end Bres
