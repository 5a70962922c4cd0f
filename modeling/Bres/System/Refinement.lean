import Bres.System.Simulation

/-!
# Every run in stages is a run of whole commands

The relation between the two programs is kept by every step: a step of a thread is the same
step in both, the loops of the threads of a slot show in neither, and a part of a command is
the whole command where it is the one that counts, or nothing.
-/

namespace Bres

open Transition

/-- The step of a thread. -/
def WorldAction.thread? : WorldAction → Option (Fin instanceMax × ThreadAction)
  | .command _ _ => none
  | .thread i a => some (i, a)

namespace StagedAction

def command? : StagedAction → Option SEvent
  | .command _ ev => some ev
  | _ => none

def thread? : StagedAction → Option (Fin instanceMax × ThreadAction)
  | .thread i a => some (i, a)
  | _ => none

end StagedAction

namespace Staged

/-- `main` is to start a thread in a slot that still has one, which ends the program. -/
def Ending (s : Staged) : Prop :=
  ∃ thread i rest, s.tasks = .start thread i :: rest ∧ (s.slot i).inst.thread thread = .joinable

/-- The state `w` of whole commands for a state in stages, with the command that is not done
yet. -/
structure At (P : Platform) (s : Staged) (w : World) (stage : Fin instanceMax → SlotStage)
    (pending : List SEvent) : Prop where
  phase : Phase P w.pool s.tasks stage s.world.pool.shared pending
  slots : ∀ j, (stage j).Rel (w.slot j) (s.slot j)
  idle : s.tasks ≠ [] → s.world.Idle

/-- What a step of the program in stages is for whole commands. -/
structure Matches (P : Platform) (w : World) (pending : List SEvent) (a : StagedAction)
    (s' : Staged) (bs : List WorldAction) (w' : World) (stage : Fin instanceMax → SlotStage)
    (pending' : List SEvent) : Prop where
  run_eq : run (World.step P) w bs = some w'
  related : s'.At P w' stage pending'
  commands_eq : pending ++ a.command?.toList = bs.filterMap WorldAction.command? ++ pending'
  threads_eq : bs.filterMap WorldAction.thread? = a.thread?.toList

variable {P : Platform} {s s' : Staged} {w w' : World} {stage : Fin instanceMax → SlotStage}
  {pending : List SEvent} {i j : Fin instanceMax} {id : String}
  {past rest : List (Fin instanceMax)} {env : Answers} {ev : SEvent}

/-! ## What the relation says -/

theorem At.hands_eq (h : s.At P w stage pending) : s.world.hands = w.hands := by
  funext j
  exact (h.slots j).hands

theorem At.idle_world (h : s.At P w stage pending) (hidle : s.world.Idle) : w.Idle := by
  intro j
  rw [← h.hands_eq]
  exact hidle j

/-- Between two commands the programs are in the same state. -/
theorem At.world_eq (h : s.At P w stage pending) (htasks : s.tasks = []) :
    s.world = w ∧ pending = [] := by
  obtain ⟨hstage, hshared, rfl⟩ := h.phase.tasks_eq_nil htasks
  refine ⟨?_, rfl⟩
  have hslot : s.world.pool.slot = w.pool.slot := by
    funext j
    have hrel := h.slots j
    rw [hstage, SlotStage.rel_settled_iff] at hrel
    exact congrArg Slot.inst hrel
  have hpool : s.world.pool = w.pool := by
    cases hs : s.world.pool
    cases hw : w.pool
    simp only [hs, hw] at hslot hshared
    rw [hslot, hshared]
  cases hs : s.world
  cases hw : w
  have hhands := h.hands_eq
  simp only [hs, hw] at hpool hhands
  rw [hpool, hhands]

theorem At.of_world (hs : s.world = w) (htasks : s.tasks = []) :
    s.At P w (fun _ => .settled) [] where
  phase := by
    subst hs
    exact .idle htasks rfl rfl
  slots j := by
    subst hs
    exact SlotStage.rel_settled_iff.2 rfl
  idle h := absurd htasks h

/-! ## The threads -/

theorem threadStep_renderer {parse : Bytes → Option Json} {a : ThreadAction} {x y : Slot}
    (h : threadStep parse x a = some y) (ha : a ≠ .exchange .collectPop)
    (hrenderer : x.hands.renderer = none) : y.hands.renderer = none := by
  cases a with
  | exchange a =>
      obtain ⟨-, h⟩ := Option.ite_none_right_eq_some.1 h
      cases slotStep_spec h with
      | idle => exact absurd rfl ha
      | collected => exact absurd rfl ha
      | copied hheld =>
          rw [hrenderer] at hheld
          cases hheld
      | returned => rfl
      | _ => exact hrenderer
  | onData pcm =>
      obtain ⟨-, h⟩ := Option.ite_none_right_eq_some.1 h
      obtain rfl := Option.some.inj h
      exact hrenderer
  | send type text =>
      obtain ⟨-, h⟩ := Option.ite_none_right_eq_some.1 h
      obtain rfl := Option.some.inj h
      exact hrenderer
  | receive payload =>
      obtain ⟨-, h⟩ := Option.ite_none_right_eq_some.1 h
      cases hreceive : clientReceive parse x.inst payload with
      | thrown e inst => simp [hreceive] at h
      | done inst =>
          rw [hreceive] at h
          obtain rfl := Option.some.inj h
          exact hrenderer
  | webrtcEvent peerConnection =>
      obtain ⟨-, h⟩ := Option.ite_none_right_eq_some.1 h
      obtain ⟨-, h⟩ | ⟨e, es, -, h⟩ := popEvent_cases h <;>
        obtain rfl := Option.some.inj h
      · exact hrenderer
      · exact hrenderer
  | websocketsEvent =>
      obtain ⟨-, h⟩ := Option.ite_none_right_eq_some.1 h
      obtain ⟨-, h⟩ | ⟨e, es, -, h⟩ := popEvent_cases h
      · obtain rfl := Option.some.inj h
        exact hrenderer
      · cases hevent : websocketsEvent parse (x.inst.setEvents .webrtcToWebsockets es)
          e.type e.event with
        | thrown e r => simp [hevent] at h
        | done r =>
            simp only [hevent] at h
            obtain rfl := Option.some.inj h
            exact hrenderer
  | audio =>
      obtain ⟨-, h⟩ := Option.ite_none_right_eq_some.1 h
      obtain ⟨-, h⟩ | ⟨e, es, -, h⟩ := popEvent_cases h <;>
        obtain rfl := Option.some.inj h
      · exact hrenderer
      · exact hrenderer

theorem At.thread {a : ThreadAction} (h : s.At P w stage pending)
    (hstep : s.step P (.thread i a) = some s') :
    ∃ w', Matches P w pending (.thread i a) s' [.thread i a] w' stage pending := by
  obtain ⟨hruns, hstep⟩ := Option.ite_none_right_eq_some.1 hstep
  obtain ⟨world, hworld, rfl⟩ := Option.map_eq_some_iff.1 hstep
  obtain ⟨havailable, part, hpart, rfl⟩ := World.thread_eq_some hworld
  have hrenderer : stage i = .released → (w.slot i).hands.renderer = none := by
    intro hreleased
    have htasks : s.tasks ≠ [] := by
      intro htasks
      obtain ⟨hstage, -, -⟩ := h.phase.tasks_eq_nil htasks
      rw [hstage] at hreleased
      cases hreleased
    exact h.idle_world (h.idle htasks) i
  obtain ⟨whole, hwhole, hrel⟩ := (h.slots i).thread hrenderer hpart
  have hfrozen : whole.inst.frozen = (w.slot i).inst.frozen := (threadStep_spec hwhole).frozen
  have hworld' : w.Available a := by
    cases a with
    | exchange a =>
        cases a with
        | collectPop => exact h.idle_world havailable
        | _ => trivial
    | _ => trivial
  refine ⟨w.put i whole, ?_, ⟨?_, fun j => ?_, fun htasks j => ?_⟩,
    List.append_nil _, rfl⟩
  · rw [run, World.step, if_pos hworld', hwhole]
    rfl
  · have hslots : ∀ j, ((w.put i whole).pool.slot j).frozen = (w.pool.slot j).frozen := by
      intro j
      by_cases hji : j = i
      · subst hji
        simp only [World.put, Function.update_self]
        exact hfrozen
      · simp only [World.put, Function.update_of_ne hji]
    exact Phase.of_frozen hslots rfl h.phase
  · by_cases hji : j = i
    · subst hji
      rw [slot, World.put_slot_self, World.put_slot_self]
      exact hrel
    · rw [slot, World.put_slot_of_ne _ _ hji, World.put_slot_of_ne _ _ hji]
      exact h.slots j
  · by_cases hji : j = i
    · subst hji
      have hnot : a ≠ .exchange .collectPop := by
        rintro rfl
        exact htasks hruns
      simpa [World.put] using threadStep_renderer hpart hnot (h.idle htasks j)
    · simpa [World.put, hji] using h.idle htasks j

theorem At.worker {thread : SlotThread} {returns : Bool} (h : s.At P w stage pending)
    (hstep : s.step P (.worker thread i returns) = some s') :
    Matches P w pending (.worker thread i returns) s' [] w stage pending := by
  obtain ⟨worker, -, rfl⟩ := Option.map_eq_some_iff.1 hstep
  exact ⟨rfl, ⟨h.phase, h.slots, h.idle⟩, List.append_nil _, rfl⟩

/-! ## The first part of a command -/

/-- A command that keeps the connections that are there is a step. -/
theorem step_command {pool : Pool} (hidle : w.Idle) (htexture : env.texture ≠ 0)
    (hfresh : env.texture ∉ w.pool.shared) (hexec : executeCommand P env ev w.pool = .done pool)
    (hreleased : w.Released pool) :
    run (World.step P) w [.command env ev] = some ⟨pool, w.hands⟩ := by
  rw [run, World.step, if_pos ⟨hidle, htexture, hfresh⟩]
  simp only [hexec, if_pos hreleased]
  rfl

theorem released_of_type {pool : Pool} (hw : w.Sound) (htype : ev.type ≠ .subscribeDeleteChannel)
    (hexec : executeCommand P env ev w.pool = .done pool) : w.Released pool := by
  intro j hlive hgone
  have hchange := executeCommand_slot (fun i => (hw i).inst) hexec j
  generalize pool.slot j = inst at hchange hgone
  cases hchange with
  | kept => exact absurd hlive hgone
  | opened => exact absurd rfl hgone
  | shown => exact absurd hlive hgone
  | closed hdelete => exact absurd hdelete htype
  | freed => exact absurd hlive hgone
  | updated => exact absurd hlive hgone

theorem view_openedChannel {id token multi : String} {env : Answers} {inst : Instance}
    (hdispatch : inst.eventDispatchThread = .none) (hwebsockets : inst.websocketsThread = .none) :
    preparedChannel id token multi env inst =
      (SlotStage.starting .none).view (openedChannel id token multi env inst) := by
  have hthreads : (preparedChannel id token multi env inst).eventDispatchThread = .none ∧
      (preparedChannel id token multi env inst).websocketsThread = .none :=
    ⟨hdispatch, hwebsockets⟩
  rw [openedChannel]
  generalize preparedChannel id token multi env inst = prepared at hthreads ⊢
  cases prepared
  obtain ⟨rfl, rfl⟩ := hthreads
  rfl

theorem openedChannel_live (id token multi : String) (env : Answers) (inst : Instance) :
    (openedChannel id token multi env inst).Live :=
  ⟨rfl, rfl, rfl, webrtcInit_isUp _⟩

theorem At.command (h : s.At P w stage pending) (hw : w.Sound)
    (hstep : s.step P (.command env ev) = some s') :
    s'.Ending ∨ ∃ bs w' stage' pending',
      Matches P w pending (.command env ev) s' bs w' stage' pending' := by
  obtain ⟨⟨htasks, hidle, htexture, hfresh⟩, hstep⟩ := Option.ite_none_right_eq_some.1 hstep
  obtain ⟨rfl, rfl⟩ := h.world_eq htasks
  cases hbegin : beginCommand P env ev s.world.pool with
  | thrown e r => simp [hbegin] at hstep
  | done r =>
      obtain ⟨pool, tasks⟩ := r
      simp only [hbegin] at hstep
      obtain rfl := Option.some.inj hstep
      -- The command is done at once.
      have hwhole : tasks = [] → executeCommand P env ev s.world.pool = .done pool →
          ev.type ≠ .subscribeDeleteChannel ∨ pool = s.world.pool →
          ∃ bs w' stage' pending', Matches P s.world [] (.command env ev)
            { s with world := { s.world with pool := pool }, tasks := tasks }
            bs w' stage' pending' := by
        intro hnil hexec hkeeps
        have hreleased : s.world.Released pool := by
          rcases hkeeps with htype | rfl
          · exact released_of_type hw htype hexec
          · exact fun j hlive hgone => absurd hlive hgone
        exact ⟨[.command env ev], _, _, [], step_command hidle htexture hfresh hexec hreleased,
          .of_world rfl hnil, rfl, rfl⟩
      cases htype : ev.type with
      | subscribeAddChannel =>
          have hexec : executeCommand P env ev s.world.pool =
              subscribeSideAddChannel P.parse ev.event env s.world.pool := by
            rw [executeCommand, htype]
          rw [beginCommand, htype] at hbegin
          rcases beginAddChannel_eq_done hbegin with
            ⟨hnil, rfl, hdone⟩ | ⟨i, id, token, multi, rfl, rfl, hopen⟩
          · exact .inr (hwhole hnil (hexec.trans hdone) (.inr rfl))
          · cases hdispatch : (s.world.pool.slot i).eventDispatchThread with
            | joinable =>
                have hthread : (preparedChannel id token multi env
                    (s.world.pool.slot i)).eventDispatchThread = .joinable := hdispatch
                refine .inl ⟨.eventDispatch, i, _, rfl, ?_⟩
                simpa [slot, World.slot, Instance.thread] using hthread
            | none =>
                have hwebsockets : (s.world.pool.slot i).websocketsThread = .none :=
                  (hw i).inst.websocketsThread_eq.trans hdispatch
                have hdone := hexec.trans (hopen hdispatch hwebsockets)
                have hreleased := released_of_type hw (by rw [htype]; decide) hdone
                refine .inr ⟨[.command env ev], _, _, [],
                  step_command hidle htexture hfresh hdone hreleased,
                  ⟨.opening (i := i) (v := .none) rfl rfl rfl, fun j => ?_, fun _ => hidle⟩,
                  rfl, rfl⟩
                by_cases hji : j = i
                · subst hji
                  simp only [Function.update_self, slot, World.slot]
                  exact ⟨view_openedChannel hdispatch hwebsockets, rfl,
                    fun _ => openedChannel_live .., fun hstage => by cases hstage⟩
                · simp only [Function.update_of_ne hji, SlotStage.rel_settled_iff, slot,
                    World.slot]
      | subscribeDeleteChannel =>
          have hexec : executeCommand P env ev s.world.pool =
              subscribeSideDeleteChannel P.parse ev.event s.world.pool := by
            rw [executeCommand, htype]
          rw [beginCommand, htype] at hbegin
          obtain ⟨rfl, ⟨hnil, hdone⟩ | ⟨json, id, hparse, hid, rfl⟩⟩ :=
            beginDeleteChannel_eq_done hbegin
          · exact .inr (hwhole hnil (hexec.trans hdone) (.inr rfl))
          · have hsplit : List.finRange instanceMax = [] ++ List.finRange instanceMax := rfl
            refine .inr ⟨[], s.world, closedStages s.world.pool id [], [ev], rfl,
              ⟨.examining ⟨⟨htype, json, hparse, hid⟩, htexture, hfresh⟩ hsplit ?_ rfl rfl rfl,
                fun j => ?_, fun _ => hidle⟩, rfl, rfl⟩
            · exact List.ne_nil_of_mem (List.mem_finRange (0 : Fin instanceMax))
            · rw [closedStages_of_not_mem (List.not_mem_nil), SlotStage.rel_settled_iff]
              rfl
      | _ =>
          rw [beginCommand, htype] at hbegin
          obtain ⟨_, hexec, hr⟩ := (Outcome.mapState_eq_done_iff ..).1 hbegin
          obtain ⟨rfl, rfl⟩ := Prod.mk.inj hr
          exact .inr (hwhole rfl hexec (.inl (by rw [htype]; decide)))

/-! ## The other parts -/

/-- The loop of a delete goes on to the next slot, or the delete counts as done. -/
theorem At.advance (hdelete : Deleting P w.pool env ev id)
    (hsplit : List.finRange instanceMax = past ++ rest)
    (htasks : s.tasks = rest.map (.examine id))
    (hgl : s.world.pool.shared = texturesBehind w.pool id past)
    (hslots : ∀ j, (closedStages w.pool id past j).Rel (w.slot j) (s.slot j))
    (hidle : s.world.Idle) :
    ∃ bs w' stage' pending', Matches P w [ev] .task s bs w' stage' pending' := by
  cases rest with
  | cons i rest =>
      exact ⟨[], w, _, [ev], rfl, ⟨.examining hdelete hsplit (List.cons_ne_nil _ _) htasks rfl hgl,
        hslots, fun _ => hidle⟩, rfl, rfl⟩
  | nil =>
      rw [List.append_nil] at hsplit
      obtain ⟨htype, json, hparse, hid⟩ := hdelete.deletes
      have hhands : s.world.hands = w.hands := by
        funext j
        exact (hslots j).hands
      have hidle' : w.Idle := fun j => hhands ▸ hidle j
      have hclosed : ∀ j, (w.pool.slot j).channelId = id →
          SlotStage.released.Rel (w.slot j) (s.slot j) := by
        intro j hj
        have hrel := hslots j
        rwa [closedStages, if_pos ⟨hsplit ▸ List.mem_finRange j, hj⟩] at hrel
      have hexec : executeCommand P env ev w.pool = .done s.world.pool := by
        rw [executeCommand, htype]
        refine (deleteChannel_done hparse hid fun j hj => (hclosed j hj).live trivial).trans ?_
        congr 1
        cases hpool : s.world.pool with
        | mk slots shared =>
            have hbehind : shared = texturesBehind w.pool id past := by
              rw [hpool] at hgl
              exact hgl
            have hshared : texturesWithout w.pool (fun inst => inst.channelId = id) = shared := by
              rw [hbehind, ← hsplit]
              rfl
            rw [hshared]
            congr 1
            funext j
            have hslot : (s.slot j).inst = slots j := congrFun (congrArg Family.slot hpool) j
            by_cases hj : (w.pool.slot j).channelId = id
            · rw [if_pos hj, ← hslot, (hclosed j hj).inst]
              rfl
            · have hrel := hslots j
              rw [closedStages, if_neg fun h => hj h.2, SlotStage.rel_settled_iff] at hrel
              rw [if_neg hj, ← hslot, hrel]
              rfl
      have hreleased : w.Released s.world.pool := by
        intro j hlive hgone
        by_cases hj : (w.pool.slot j).channelId = id
        · exact List.isEmpty_iff.2 ((hclosed j hj).quiet rfl)
        · have hrel := hslots j
          rw [closedStages, if_neg fun h => hj h.2, SlotStage.rel_settled_iff] at hrel
          have hinst : s.world.pool.slot j = w.pool.slot j := congrArg Slot.inst hrel
          rw [hinst] at hgone
          exact absurd hlive hgone
      refine ⟨[.command env ev], _, _, [],
        step_command hidle' hdelete.texture_ne hdelete.texture_fresh hexec hreleased,
        .of_world ?_ htasks, rfl, rfl⟩
      cases hworld : s.world
      simp only [hworld] at hhands
      rw [hhands]

theorem websocketsQuit_joined {inst : Instance} (h : inst.Live) :
    websocketsQuit (SlotStage.joined.view inst) = .done (SlotStage.disconnected.view inst) := by
  have hcontext : (SlotStage.joined.view inst).context = .live := h.context
  rw [websocketsQuit, hcontext]
  rfl

theorem webrtcQuit_disconnected {inst : Instance} (h : inst.Live) :
    webrtcQuit (SlotStage.disconnected.view inst) = .done (SlotStage.released.view inst) := by
  have hup : (SlotStage.disconnected.view inst).rtc.IsUp := h.rtc
  rw [webrtcQuit_of_isUp hup]
  rfl

theorem At.slots_update {now : SlotStage} {inst : Instance}
    (hslots : ∀ j, j ≠ i → (stage j).Rel (w.slot j) (s.slot j))
    (hi : now.Rel (w.slot i) ⟨inst, (s.slot i).hands⟩) (j : Fin instanceMax) :
    (Function.update stage i now j).Rel (w.slot j) ((s.setInst i inst).slot j) := by
  by_cases hji : j = i
  · subst hji
    rw [Function.update_self, setInst_slot_self]
    exact hi
  · rw [Function.update_of_ne hji, setInst_slot_of_ne _ hji]
    exact hslots j hji

/-- A part that moves the slot which `main` is at from one stage of a delete to the next. -/
theorem At.closing_step (now : SlotStage) (inst : Instance) {t : Staged}
    (hdelete : Deleting P w.pool env ev id)
    (hsplit : List.finRange instanceMax = past ++ i :: rest)
    (hid : (w.pool.slot i).channelId = id) (hnow : now.Closing)
    (hgl : s.world.pool.shared = texturesBehind w.pool id past)
    (hslots : ∀ j, j ≠ i → (closedStages w.pool id past j).Rel (w.slot j) (s.slot j))
    (hidle : s.world.Idle) (hi : now.Rel (w.slot i) ⟨inst, (s.slot i).hands⟩)
    (hworld : t.world = (s.setInst i inst).world)
    (htasks : t.tasks = now.tasks i ++ rest.map (.examine id)) :
    ∃ bs w' stage' pending', Matches P w [ev] .task t bs w' stage' pending' := by
  refine ⟨[], w, _, [ev], rfl,
    ⟨.closing hdelete hsplit hid hnow htasks rfl ?_, fun j => ?_, fun _ => ?_⟩, rfl, rfl⟩
  · rw [hworld]
    exact hgl
  · rw [slot, hworld]
    exact slots_update hslots hi j
  · rw [hworld]
    exact hidle

/-- A part of opening a slot starts a thread. -/
theorem At.task_opening {v : StdThread} (h : s.At P w stage [])
    (htasks : s.tasks = (SlotStage.starting v).tasks i)
    (hstage : stage = Function.update (fun _ => .settled) i (.starting v))
    (hgl : s.world.pool.shared = w.pool.shared) (hstep : s.step P .task = some s') :
    ∃ bs w' stage' pending', Matches P w [] .task s' bs w' stage' pending' := by
  have hi : (SlotStage.starting v).Rel (w.slot i) (s.slot i) := by
    have hrel := h.slots i
    rwa [hstage, Function.update_self] at hrel
  have hothers : ∀ j, j ≠ i → SlotStage.settled.Rel (w.slot j) (s.slot j) := by
    intro j hji
    have hrel := h.slots j
    rwa [hstage, Function.update_of_ne hji] at hrel
  have hlive : (w.slot i).inst.Live := hi.live trivial
  cases v with
  | none =>
      have hfirst : s.tasks = .start .eventDispatch i :: [.start .websockets i] := htasks
      rw [step_task hfirst] at hstep
      obtain ⟨-, rfl⟩ := perform_start_eq_some_iff.1 hstep
      refine ⟨[], w, _, [], rfl,
        ⟨.opening (v := .joinable) rfl rfl hgl,
          slots_update hothers ⟨?_, hi.hands, fun _ => hlive, fun hstage => by cases hstage⟩,
          fun _ => h.idle (by rw [hfirst]; exact List.cons_ne_nil _ _)⟩, rfl, rfl⟩
      rw [hi.inst]
      rfl
  | joinable =>
      have hlast : s.tasks = .start .websockets i :: [] := htasks
      rw [step_task hlast] at hstep
      obtain ⟨-, rfl⟩ := perform_start_eq_some_iff.1 hstep
      have hsettled : Function.update (fun _ => SlotStage.settled) i .settled =
          fun _ : Fin instanceMax => .settled :=
        Function.update_eq_self i fun _ => SlotStage.settled
      refine ⟨[], w, _, [], rfl,
        ⟨.idle rfl hsettled hgl,
          slots_update hothers ⟨?_, hi.hands, fun h => h.elim, fun hstage => by cases hstage⟩,
          fun hnil => absurd rfl hnil⟩, rfl, rfl⟩
      rw [hi.inst, SlotStage.view_settled]
      obtain ⟨hdispatch, hwebsockets, -, -⟩ := hlive
      generalize (w.slot i).inst = inst at hdispatch hwebsockets ⊢
      cases inst
      simp only at hdispatch hwebsockets
      rw [hdispatch, hwebsockets]
      rfl

/-- A part of closing a slot. -/
theorem At.task_closing {now : SlotStage} (h : s.At P w stage [ev]) (hw : w.Sound)
    (hdelete : Deleting P w.pool env ev id)
    (hsplit : List.finRange instanceMax = past ++ i :: rest)
    (hid : (w.pool.slot i).channelId = id) (hnow : now.Closing)
    (htasks : s.tasks = now.tasks i ++ rest.map (.examine id))
    (hstage : stage = Function.update (closedStages w.pool id past) i now)
    (hgl : s.world.pool.shared = texturesBehind w.pool id past)
    (hstep : s.step P .task = some s') :
    ∃ bs w' stage' pending', Matches P w [ev] .task s' bs w' stage' pending' := by
  have hi : now.Rel (w.slot i) (s.slot i) := by
    have hrel := h.slots i
    rwa [hstage, Function.update_self] at hrel
  have hothers : ∀ j, j ≠ i → (closedStages w.pool id past j).Rel (w.slot j) (s.slot j) := by
    intro j hji
    have hrel := h.slots j
    rwa [hstage, Function.update_of_ne hji] at hrel
  have hidle : s.world.Idle := h.idle fun hnil => by
    rw [hnil] at htasks
    exact SlotStage.tasks_ne_nil hnow i (List.append_eq_nil_iff.1 htasks.symm).1
  cases now with
  | settled => exact hnow.elim
  | starting v => exact hnow.elim
  | marked =>
      have hnext : s.tasks = .join .eventDispatch i ::
          (SlotStage.dispatchJoined.tasks i ++ rest.map (.examine id)) := htasks
      rw [step_task hnext] at hstep
      obtain ⟨hthread, -, rfl⟩ := perform_join_eq_some_iff.1 hstep
      rw [hi.inst] at hthread
      have hlive : (w.slot i).inst.Live := (hw i).inst.live_of_joinable hthread
      refine At.closing_step .dispatchJoined ((s.slot i).inst.setThread .none .eventDispatch)
        hdelete hsplit hid trivial hgl hothers hidle
        ⟨?_, hi.hands, fun _ => hlive, fun hstage => by cases hstage⟩ rfl rfl
      rw [hi.inst]
      rfl
  | dispatchJoined =>
      have hnext : s.tasks = .join .websockets i ::
          (SlotStage.joined.tasks i ++ rest.map (.examine id)) := htasks
      rw [step_task hnext] at hstep
      obtain ⟨-, -, rfl⟩ := perform_join_eq_some_iff.1 hstep
      refine At.closing_step .joined ((s.slot i).inst.setThread .none .websockets)
        hdelete hsplit hid trivial hgl hothers hidle
        ⟨?_, hi.hands, fun _ => hi.live trivial, fun hstage => by cases hstage⟩ rfl rfl
      rw [hi.inst]
      rfl
  | joined =>
      have hnext : s.tasks = .quitWebsockets i ::
          (SlotStage.disconnected.tasks i ++ rest.map (.examine id)) := htasks
      rw [step_task hnext, perform, hi.inst, websocketsQuit_joined (hi.live trivial)] at hstep
      obtain rfl := Option.some.inj hstep
      exact At.closing_step .disconnected _ hdelete hsplit hid trivial hgl hothers hidle
        ⟨rfl, hi.hands, fun _ => hi.live trivial, fun hstage => by cases hstage⟩ rfl rfl
  | disconnected =>
      have hnext : s.tasks = .quitWebrtc i ::
          (SlotStage.released.tasks i ++ rest.map (.examine id)) := htasks
      rw [step_task hnext, perform] at hstep
      obtain ⟨hdecoders, hstep⟩ := Option.ite_none_right_eq_some.1 hstep
      rw [hi.inst, webrtcQuit_disconnected (hi.live trivial)] at hstep
      obtain rfl := Option.some.inj hstep
      refine At.closing_step .released _ hdelete hsplit hid trivial hgl hothers hidle
        ⟨rfl, hi.hands, fun _ => hi.live trivial, fun _ => ?_⟩ rfl rfl
      rw [← hi.hands]
      exact List.isEmpty_iff.1 hdecoders
  | released =>
      have hnext : s.tasks = .quitGl i :: rest.map (.examine id) := htasks
      rw [step_task hnext, perform] at hstep
      obtain rfl := Option.some.inj hstep
      refine At.advance hdelete (snoc_split hsplit) rfl ?_ (fun j => ?_) hidle
      · have htexture : (s.slot i).inst.movieTexture = (w.pool.slot i).movieTexture := by
          rw [hi.inst]
          rfl
        rw [texturesBehind_snoc, if_pos hid, ← hgl]
        simp only [setTasks, glQuit, Bres.glQuit, htexture]
      · rw [closedStages_close hid, ← hstage]
        exact h.slots j

theorem At.task (h : s.At P w stage pending) (hw : w.Sound) (hstep : s.step P .task = some s') :
    ∃ bs w' stage' pending', Matches P w pending .task s' bs w' stage' pending' := by
  have hphase := h.phase
  cases hphase with
  | idle htasks =>
      rw [step, htasks] at hstep
      cases hstep
  | opening htasks hstage hgl => exact h.task_opening htasks hstage hgl hstep
  | closing hdelete hsplit hid hnow htasks hstage hgl =>
      exact h.task_closing hw hdelete hsplit hid hnow htasks hstage hgl hstep
  | @examining env ev id past rest hdelete hsplit hrest htasks hstage hgl =>
      cases rest with
      | nil => exact absurd rfl hrest
      | cons i rest =>
          have hidle : s.world.Idle := h.idle (by rw [htasks]; exact List.cons_ne_nil _ _)
          have hslots : ∀ j, (closedStages w.pool id past j).Rel (w.slot j) (s.slot j) := by
            rw [← hstage]
            exact h.slots
          have hi : s.slot i = w.slot i := by
            have hrel := hslots i
            rwa [closedStages_of_not_mem (not_mem_of_split hsplit),
              SlotStage.rel_settled_iff] at hrel
          have hnext : s.tasks = .examine id i :: rest.map (.examine id) := htasks
          have hname : (w.slot i).inst.channelId = (w.pool.slot i).channelId := rfl
          rw [step_task hnext, perform, hi, hname] at hstep
          by_cases hid : (w.pool.slot i).channelId = id
          · rw [if_pos hid] at hstep
            obtain rfl := Option.some.inj hstep
            exact At.closing_step .marked _ hdelete hsplit hid trivial hgl (fun j _ => hslots j)
              hidle ⟨rfl, by rw [hi], fun h => h.elim, fun hstage => by cases hstage⟩ rfl rfl
          · rw [if_neg hid] at hstep
            obtain rfl := Option.some.inj hstep
            refine At.advance hdelete (snoc_split hsplit) rfl ?_ (fun j => ?_) hidle
            · rw [texturesBehind_snoc, if_neg hid]
              exact hgl
            · rw [closedStages_pass hid]
              exact hslots j

/-! ## Whole runs -/

/-- No way leads back from a state in which `main` ends the program. -/
theorem Ending.step {a : StagedAction} (h : s.Ending) (hstep : s.step P a = some s') :
    s'.Ending := by
  obtain ⟨thread, i, rest, htasks, hthread⟩ := h
  cases a with
  | command env ev =>
      obtain ⟨⟨hnil, -⟩, -⟩ := Option.ite_none_right_eq_some.1 hstep
      rw [htasks] at hnil
      cases hnil
  | task =>
      rw [step_task htasks] at hstep
      obtain ⟨hnone, -⟩ := perform_start_eq_some_iff.1 hstep
      rw [hthread] at hnone
      cases hnone
  | worker other j =>
      obtain ⟨worker, -, rfl⟩ := Option.map_eq_some_iff.1 hstep
      exact ⟨thread, i, rest, htasks, hthread⟩
  | thread j a =>
      obtain ⟨-, hstep⟩ := Option.ite_none_right_eq_some.1 hstep
      obtain ⟨world, hworld, rfl⟩ := Option.map_eq_some_iff.1 hstep
      obtain ⟨-, part, hpart, rfl⟩ := World.thread_eq_some hworld
      refine ⟨thread, i, rest, htasks, ?_⟩
      by_cases hij : i = j
      · subst hij
        have hfrozen := congrArg (fun inst : Instance => inst.thread thread)
          (threadStep_spec hpart).frozen
        have hsame : part.inst.thread thread = (s.slot i).inst.thread thread := by
          cases thread <;> exact hfrozen
        rw [slot, World.put_slot_self, hsame]
        exact hthread
      · rw [slot, World.put_slot_of_ne _ _ hij]
        exact hthread

theorem At.step {a : StagedAction} (h : s.At P w stage pending) (hw : w.Sound)
    (hstep : s.step P a = some s') :
    s'.Ending ∨ ∃ bs w' stage' pending', Matches P w pending a s' bs w' stage' pending' := by
  cases a with
  | command env ev => exact h.command hw hstep
  | task => exact .inr (h.task hw hstep)
  | worker thread i returns => exact .inr ⟨_, _, _, _, h.worker hstep⟩
  | thread i a =>
      obtain ⟨w', hmatches⟩ := h.thread hstep
      exact .inr ⟨_, _, _, _, hmatches⟩

theorem filterMap_cons_toList {α β : Type} (f : α → Option β) (a : α) (as : List α) :
    (a :: as).filterMap f = (f a).toList ++ as.filterMap f := by
  cases h : f a <;> simp [h]

theorem At.run {as : List StagedAction} :
    ∀ {s : Staged} {w : World} {stage : Fin instanceMax → SlotStage} {pending : List SEvent},
      s.At P w stage pending → w.Sound → Transition.run (Staged.step P) s as = some s' →
      s'.Ending ∨ ∃ bs w' stage' pending', Transition.run (World.step P) w bs = some w' ∧
        s'.At P w' stage' pending' ∧
        pending ++ as.filterMap StagedAction.command? =
          bs.filterMap WorldAction.command? ++ pending' ∧
        bs.filterMap WorldAction.thread? = as.filterMap StagedAction.thread? := by
  induction as with
  | nil =>
      intro s w stage pending h _ hrun
      obtain rfl := Option.some.inj hrun
      exact .inr ⟨[], w, stage, pending, rfl, h, List.append_nil _, rfl⟩
  | cons a as ih =>
      intro s w stage pending h hw hrun
      obtain ⟨t, hstep, hrun⟩ := run_cons_eq_some_iff.1 hrun
      rcases h.step hw hstep with hending | ⟨bs, w₁, stage₁, pending₁, hmatches⟩
      · exact .inl (run_preserves (fun _ _ _ => Ending.step) hending hrun)
      · have hw₁ : w₁.Sound :=
          run_preserves (fun _ _ _ hw hstep => hw.step hstep) hw hmatches.run_eq
        rcases ih hmatches.related hw₁ hrun with
          hending | ⟨cs, w₂, stage₂, pending₂, hcs, hrelated, hcommands, hthreads⟩
        · exact .inl hending
        · refine .inr ⟨bs ++ cs, w₂, stage₂, pending₂, ?_, hrelated, ?_, ?_⟩
          · rw [run_append hmatches.run_eq]
            exact hcs
          · rw [filterMap_cons_toList, ← List.append_assoc, hmatches.commands_eq,
              List.append_assoc, hcommands, List.filterMap_append, List.append_assoc]
          · rw [List.filterMap_append, hmatches.threads_eq, hthreads, filterMap_cons_toList]

/-- `main` can do its commands part by part. In every run in which the threads of the slots
go on between the parts, each thread does what it does in a run of whole commands, in the
same order, and the commands that are done are the same ones in the same order, but for one
that may be under way. Between two commands the program is in the same state, and within one
each slot is at some stage of it. -/
theorem run_whole {as : List StagedAction} (h : Transition.run (Staged.step P) startup as = some s)
    (hending : ¬ s.Ending) :
    ∃ bs w pending, Transition.run (World.step P) World.startup bs = some w ∧
      bs.filterMap WorldAction.thread? = as.filterMap StagedAction.thread? ∧
      as.filterMap StagedAction.command? = bs.filterMap WorldAction.command? ++ pending ∧
      pending.length ≤ 1 ∧ (∀ j, ∃ now : SlotStage, now.Rel (w.slot j) (s.slot j)) ∧
      (s.tasks = [] → s.world = w ∧ pending = []) := by
  have hstart : startup.At P World.startup (fun _ => .settled) [] := .of_world rfl rfl
  rcases hstart.run World.startup_sound h with
    hends | ⟨bs, w, stage, pending, hrun, hrelated, hcommands, hthreads⟩
  · exact absurd hends hending
  · exact ⟨bs, w, pending, hrun, hthreads, hcommands, hrelated.phase.length_pending_le,
      fun j => ⟨stage j, hrelated.slots j⟩, hrelated.world_eq⟩

theorem not_ending_of_tasks (h : s.tasks = []) : ¬ s.Ending := by
  rintro ⟨thread, i, rest, htasks, -⟩
  rw [h] at htasks
  cases htasks

/-- A channel is added and deleted, and its dispatch thread is in the body of its loop when
it is told to quit. -/
def oneChannel : List StagedAction :=
  [.command (Sample.answers 1) ⟨.subscribeAddChannel, flatText Sample.addChannel⟩, .task, .task,
    .worker .eventDispatch 0 true,
    .command (Sample.answers 2) ⟨.subscribeDeleteChannel, flatText Sample.deleteChannel⟩, .task,
    .thread 0 .websocketsEvent, .worker .eventDispatch 0 true, .worker .websockets 0 true,
    .worker .eventDispatch 0 true] ++ List.replicate 13 .task

theorem run_whole_channel : ∃ s, Transition.run (Staged.step Sample.platform) startup oneChannel =
      some s ∧ s.tasks = [] ∧
    ∃ bs w pending, Transition.run (World.step Sample.platform) World.startup bs = some w ∧
      bs.filterMap WorldAction.thread? = oneChannel.filterMap StagedAction.thread? ∧
      oneChannel.filterMap StagedAction.command? =
        bs.filterMap WorldAction.command? ++ pending ∧
      pending.length ≤ 1 ∧ (∀ j, ∃ now : SlotStage, now.Rel (w.slot j) (s.slot j)) ∧
      (s.tasks = [] → s.world = w ∧ pending = []) := by
  have hobserved : (Transition.run (Staged.step Sample.platform) startup oneChannel).map
      Staged.tasks = some [] := by
    decide +kernel
  obtain ⟨s, hrun, htasks⟩ := Option.map_eq_some_iff.1 hobserved
  exact ⟨s, hrun, htasks, run_whole hrun (not_ending_of_tasks htasks)⟩

end Staged

end Bres
