import Bres.System.Refinement

/-!
# The threads of a slot and what they work on

A thread of a slot is there from its start to its join, and its handle with it. All that time
the context and the WebRTC objects of the slot are in place, and they are taken down only when
both threads have been joined. A join waits for at most two steps of the thread it is for,
whatever the other threads do in between.
-/

namespace Bres

open Transition

def StagedAction.worker? : StagedAction → Option (SlotThread × Fin instanceMax)
  | .worker t i _ => some (t, i)
  | _ => none

namespace Instance

theorem thread_setThread_self (inst : Instance) (v : StdThread) (thread : SlotThread) :
    (inst.setThread v thread).thread thread = v := by
  cases thread <;> rfl

theorem thread_setThread_of_ne (inst : Instance) (v : StdThread) {thread other : SlotThread}
    (h : other ≠ thread) : (inst.setThread v thread).thread other = inst.thread other := by
  cases thread <;> cases other <;> first | rfl | exact absurd rfl h

theorem thread_eq_of_frozen {inst inst' : Instance} (h : inst'.frozen = inst.frozen)
    (thread : SlotThread) : inst'.thread thread = inst.thread thread := by
  have hthread := congrArg (fun inst : Instance => inst.thread thread) h
  cases thread <;> exact hthread

end Instance

namespace SlotStage

variable {now : SlotStage} {i j : Fin instanceMax} {ts : List Task}

theorem eq_of_tasks_join {thread : SlotThread} (h : now.tasks j = .join thread i :: ts) :
    j = i ∧ (now = .marked ∨ now = .dispatchJoined) := by
  cases now with
  | starting v => cases v <;> cases h
  | marked =>
      cases h
      exact ⟨rfl, .inl rfl⟩
  | dispatchJoined =>
      cases h
      exact ⟨rfl, .inr rfl⟩
  | _ => cases h

theorem eq_of_tasks_quitWebsockets (h : now.tasks j = .quitWebsockets i :: ts) :
    j = i ∧ now = .joined := by
  cases now with
  | starting v => cases v <;> cases h
  | joined =>
      cases h
      exact ⟨rfl, rfl⟩
  | _ => cases h

theorem eq_of_tasks_quitWebrtc (h : now.tasks j = .quitWebrtc i :: ts) :
    j = i ∧ now = .disconnected := by
  cases now with
  | starting v => cases v <;> cases h
  | disconnected =>
      cases h
      exact ⟨rfl, rfl⟩
  | _ => cases h

end SlotStage

theorem websocketsQuit_thread {inst inst' : Instance} (h : websocketsQuit inst = .done inst') :
    inst'.thread = inst.thread := by
  unfold websocketsQuit at h
  split at h
  · cases h
    rfl
  · cases h
    funext thread
    cases thread <;> rfl
  · cases h

theorem webrtcQuit_thread {inst inst' : Instance} (h : webrtcQuit inst = .done inst') :
    inst'.thread = inst.thread := by
  simp only [webrtcQuit] at h
  split at h
  · cases h
  · split at h <;> cases h
    · funext thread
      cases thread <;> rfl
    · funext thread
      cases thread <;> rfl

variable {P : Platform}

theorem beginCommand_thread {env : Answers} {ev : SEvent} {pool pool' : Pool}
    {tasks : List Task} (hsound : ∀ i, (pool.slot i).Sound)
    (h : beginCommand P env ev pool = .done (pool', tasks)) (j : Fin instanceMax) :
    (pool'.slot j).thread = (pool.slot j).thread := by
  cases htype : ev.type with
  | subscribeAddChannel =>
      rw [beginCommand, htype] at h
      rcases beginAddChannel_eq_done h with
        ⟨-, rfl, -⟩ | ⟨i, id, token, multi, -, rfl, -⟩
      · rfl
      · by_cases hji : j = i
        · subst hji
          simp only [Function.update_self]
          funext thread
          cases thread <;> rfl
        · simp only [Function.update_of_ne hji]
  | subscribeDeleteChannel =>
      rw [beginCommand, htype] at h
      obtain ⟨rfl, -⟩ := beginDeleteChannel_eq_done h
      rfl
  | _ =>
      rw [beginCommand, htype] at h
      obtain ⟨after, hexec, hr⟩ := (Outcome.mapState_eq_done_iff ..).1 h
      obtain ⟨rfl, -⟩ := Prod.mk.inj hr
      have hchange := executeCommand_slot hsound hexec j
      generalize after.slot j = inst at hchange ⊢
      cases hchange with
      | opened hadd =>
          rw [htype] at hadd
          cases hadd
      | closed hdelete =>
          rw [htype] at hdelete
          cases hdelete
      | kept => rfl
      | _ =>
          funext thread
          cases thread <;> rfl

namespace Staged

variable {s s' : Staged} {w : World} {stage : Fin instanceMax → SlotStage}
  {pending : List SEvent} {thread : SlotThread} {i j : Fin instanceMax} {a : StagedAction}

/-! ## Threads and their handles -/

/-- There is a thread where there is a handle. -/
def Tracked (s : Staged) : Prop :=
  ∀ thread i, s.worker (thread, i) = .absent ↔ (s.slot i).inst.thread thread = .none

theorem Tracked.setInst {inst : Instance} (h : s.Tracked)
    (hinst : inst.thread = (s.slot i).inst.thread) : (s.setInst i inst).Tracked := by
  intro thread j
  by_cases hji : j = i
  · subst hji
    rw [setInst_slot_self, hinst]
    exact h thread j
  · rw [setInst_slot_of_ne _ hji]
    exact h thread j

/-- A thread and its handle come and go together. -/
theorem Tracked.setThread {v : StdThread} {worker : Worker} (h : s.Tracked)
    (hv : worker = .absent ↔ v = .none) :
    ((s.setInst i ((s.slot i).inst.setThread v thread)).setWorker thread i worker).Tracked := by
  intro other j
  rw [setWorker_slot]
  by_cases hji : j = i
  · subst hji
    rw [setInst_slot_self]
    by_cases hthread : other = thread
    · subst hthread
      rw [Instance.thread_setThread_self]
      simpa [setWorker] using hv
    · rw [Instance.thread_setThread_of_ne _ _ hthread]
      simpa [setWorker, Staged.setInst, hthread] using h other j
  · rw [setInst_slot_of_ne _ hji]
    simpa [setWorker, Staged.setInst, hji] using h other j

theorem Tracked.perform {task : Task} {rest : List Task} (h : s.Tracked)
    (hstep : s.perform rest task = some s') : s'.Tracked := by
  cases task with
  | start thread i =>
      obtain ⟨-, rfl⟩ := perform_start_eq_some_iff.1 hstep
      exact h.setThread (by decide)
  | examine id i =>
      rw [Staged.perform] at hstep
      split at hstep <;> obtain rfl := Option.some.inj hstep
      · refine h.setInst ?_
        funext thread
        cases thread <;> rfl
      · exact h
  | join thread i =>
      obtain ⟨-, -, rfl⟩ := perform_join_eq_some_iff.1 hstep
      exact h.setThread (by decide)
  | quitWebsockets i =>
      obtain ⟨t, ht, rfl⟩ := Option.map_eq_some_iff.1 hstep
      obtain ⟨inst, hquit, rfl⟩ := commit_eq_some_iff.1 ht
      exact h.setInst (websocketsQuit_thread hquit)
  | quitWebrtc i =>
      obtain ⟨-, hstep⟩ := Option.ite_none_right_eq_some.1 hstep
      obtain ⟨t, ht, rfl⟩ := Option.map_eq_some_iff.1 hstep
      obtain ⟨inst, hquit, rfl⟩ := commit_eq_some_iff.1 ht
      exact h.setInst (webrtcQuit_thread hquit)
  | quitGl i =>
      obtain rfl := Option.some.inj hstep
      exact h

theorem Tracked.step (h : s.Tracked) (hsound : s.tasks = [] → s.world.Sound)
    (hstep : s.step P a = some s') : s'.Tracked := by
  cases a with
  | command env ev =>
      obtain ⟨⟨htasks, -⟩, hstep⟩ := Option.ite_none_right_eq_some.1 hstep
      cases hbegin : beginCommand P env ev s.world.pool with
      | thrown e r => simp [hbegin] at hstep
      | done r =>
          simp only [hbegin] at hstep
          obtain rfl := Option.some.inj hstep
          intro thread j
          have hthread := beginCommand_thread (fun i => (hsound htasks i).inst) hbegin j
          have hslot : (s.slot j).inst.thread = (r.1.slot j).thread := hthread.symm
          rw [h thread j, hslot]
          rfl
  | task =>
      cases htasks : s.tasks with
      | nil =>
          rw [Staged.step, htasks] at hstep
          cases hstep
      | cons task rest =>
          rw [step_task htasks] at hstep
          exact h.perform hstep
  | worker thread i returns =>
      obtain ⟨worker, hworker, rfl⟩ := Option.map_eq_some_iff.1 hstep
      obtain ⟨hbefore, hafter⟩ := Worker.step_ne_absent hworker
      intro other j
      rw [setWorker_slot]
      by_cases hsame : (other, j) = (thread, i)
      · obtain ⟨rfl, rfl⟩ := Prod.mk.inj hsame
        simp only [setWorker, Function.update_self]
        exact iff_of_false hafter (mt (h other j).2 hbefore)
      · simp only [setWorker, Function.update_of_ne hsame]
        exact h other j
  | thread i a =>
      obtain ⟨-, hstep⟩ := Option.ite_none_right_eq_some.1 hstep
      obtain ⟨world, hworld, rfl⟩ := Option.map_eq_some_iff.1 hstep
      obtain ⟨-, part, hpart, rfl⟩ := World.thread_eq_some hworld
      intro thread j
      by_cases hji : j = i
      · subst hji
        rw [slot, World.put_slot_self,
          Instance.thread_eq_of_frozen (threadStep_spec hpart).frozen]
        exact h thread j
      · rw [slot, World.put_slot_of_ne _ _ hji]
        exact h thread j

/-- A run of the program, up to a state in which `main` ends it. -/
theorem run_at {as : List StagedAction} (h : Transition.run (Staged.step P) startup as = some s)
    (hending : ¬ s.Ending) :
    s.Tracked ∧ ∃ w stage pending, s.At P w stage pending ∧ w.Sound := by
  have hrun : (s.Ending ∨ ∃ w stage pending, s.At P w stage pending ∧ w.Sound) ∧ s.Tracked := by
    refine run_preserves (I := fun s => (s.Ending ∨
      ∃ w stage pending, s.At P w stage pending ∧ w.Sound) ∧ s.Tracked) ?_ ?_ h
    · rintro s a t ⟨hstate, htracked⟩ hstep
      have hsound : s.tasks = [] → s.world.Sound := by
        intro htasks
        rcases hstate with hends | ⟨w, stage, pending, hat, hw⟩
        · exact absurd hends (not_ending_of_tasks htasks)
        · rw [(hat.world_eq htasks).1]
          exact hw
      refine ⟨?_, htracked.step hsound hstep⟩
      rcases hstate with hends | ⟨w, stage, pending, hat, hw⟩
      · exact .inl (hends.step hstep)
      · rcases hat.step hw hstep with hends | ⟨bs, w', stage', pending', hmatches⟩
        · exact .inl hends
        · exact .inr ⟨w', stage', pending', hmatches.related,
            run_preserves (fun _ _ _ hw hstep => hw.step hstep) hw hmatches.run_eq⟩
    · exact ⟨.inr ⟨World.startup, _, _, .of_world rfl rfl, World.startup_sound⟩,
        fun thread i => by cases thread <;> exact iff_of_true rfl rfl⟩
  exact ⟨hrun.2, hrun.1.resolve_left hending⟩

theorem not_ending_of_join {rest : List Task} (h : s.tasks = .join thread i :: rest) :
    ¬ s.Ending := by
  rintro ⟨other, j, tasks, hstart, -⟩
  rw [h] at hstart
  cases hstart

/-! ## What the threads work on -/

theorem At.up_of_joinable (h : s.At P w stage pending) (hw : w.Sound) (thread : SlotThread)
    (hthread : (s.slot i).inst.thread thread = .joinable) :
    (s.slot i).inst.context = .live ∧ (s.slot i).inst.rtc.IsUp := by
  have hrel := h.slots i
  rw [hrel.inst] at hthread ⊢
  have hlive : (w.slot i).inst.thread thread = .joinable → (w.slot i).inst.Live := by
    intro hthread
    refine (hw i).inst.live_of_joinable ?_
    cases thread with
    | eventDispatch => exact hthread
    | websockets => exact (hw i).inst.websocketsThread_eq.symm.trans hthread
  cases hnow : stage i with
  | settled =>
      rw [hnow] at hthread
      exact ⟨(hlive hthread).context, (hlive hthread).rtc⟩
  | marked =>
      rw [hnow] at hthread
      have hwhole : (w.slot i).inst.thread thread = .joinable := by
        cases thread <;> exact hthread
      exact ⟨(hlive hwhole).context, (hlive hwhole).rtc⟩
  | starting v =>
      rw [hnow] at hrel
      exact ⟨(hrel.live trivial).context, (hrel.live trivial).rtc⟩
  | dispatchJoined =>
      rw [hnow] at hrel
      exact ⟨(hrel.live trivial).context, (hrel.live trivial).rtc⟩
  | _ =>
      rw [hnow] at hthread
      cases thread <;> cases hthread

/-- Before `main` takes down a connection it has joined both threads. -/
theorem At.none_of_quit {rest : List Task} (h : s.At P w stage pending)
    (htasks : s.tasks = .quitWebsockets i :: rest ∨ s.tasks = .quitWebrtc i :: rest)
    (thread : SlotThread) : (s.slot i).inst.thread thread = .none := by
  have hjoined : stage i = .joined ∨ stage i = .disconnected := by
    rcases htasks with htasks | htasks <;>
      rcases h.phase.head_cases htasks with ⟨id, j, hexamine⟩ | ⟨j, ts, hhead⟩
    · cases hexamine
    · obtain ⟨rfl, hnow⟩ := SlotStage.eq_of_tasks_quitWebsockets hhead
      exact .inl hnow
    · cases hexamine
    · obtain ⟨rfl, hnow⟩ := SlotStage.eq_of_tasks_quitWebrtc hhead
      exact .inr hnow
  rw [(h.slots i).inst]
  rcases hjoined with hnow | hnow <;> rw [hnow] <;> cases thread <;> rfl

/-- `main` waits for that thread, which has been told to quit. -/
structure Waiting (s : Staged) (thread : SlotThread) (i : Fin instanceMax) (rest : List Task) :
    Prop where
  tasks : s.tasks = .join thread i :: rest
  quit : (s.slot i).inst.quit = true
  joinable : (s.slot i).inst.thread thread = .joinable
  present : s.worker (thread, i) ≠ .absent

/-- Until `main` goes on, the steps that the thread has left are only made by itself. -/
theorem Waiting.step {rest : List Task} (h : s.Waiting thread i rest) (ha : a ≠ .task)
    (hstep : s.step P a = some s') : s'.Waiting thread i rest ∧
      (a.worker?.toList).count (thread, i) + (s'.worker (thread, i)).remaining =
        (s.worker (thread, i)).remaining := by
  cases a with
  | command env ev =>
      obtain ⟨⟨hnil, -⟩, -⟩ := Option.ite_none_right_eq_some.1 hstep
      rw [h.tasks] at hnil
      cases hnil
  | task => exact absurd rfl ha
  | worker other j returns =>
      obtain ⟨worker, hworker, rfl⟩ := Option.map_eq_some_iff.1 hstep
      by_cases hsame : (thread, i) = (other, j)
      · obtain ⟨rfl, rfl⟩ := Prod.mk.inj hsame
        obtain ⟨-, hafter⟩ := Worker.step_ne_absent hworker
        rw [h.quit] at hworker
        refine ⟨⟨h.tasks, h.quit, h.joinable, ?_⟩, ?_⟩
        · simpa only [setWorker, Function.update_self] using hafter
        · simp only [setWorker, Function.update_self, StagedAction.worker?, Option.toList_some,
            List.count_singleton_self]
          rw [Worker.remaining_step hworker, Nat.add_comm]
      · refine ⟨⟨h.tasks, h.quit, h.joinable, ?_⟩, ?_⟩
        · simpa only [setWorker, Function.update_of_ne hsame] using h.present
        · have hnot : (other, j) ≠ (thread, i) := fun hother => hsame hother.symm
          simp [setWorker, Function.update_of_ne hsame, StagedAction.worker?, hnot]
  | thread j a =>
      obtain ⟨-, hstep⟩ := Option.ite_none_right_eq_some.1 hstep
      obtain ⟨world, hworld, rfl⟩ := Option.map_eq_some_iff.1 hstep
      obtain ⟨-, part, hpart, rfl⟩ := World.thread_eq_some hworld
      refine ⟨⟨h.tasks, ?_, ?_, h.present⟩, Nat.zero_add _⟩
      · by_cases hij : i = j
        · subst hij
          have hquit := congrArg Instance.quit (threadStep_spec hpart).frozen
          rw [slot, World.put_slot_self]
          exact hquit.trans h.quit
        · rw [slot, World.put_slot_of_ne _ _ hij]
          exact h.quit
      · by_cases hij : i = j
        · subst hij
          rw [slot, World.put_slot_self,
            Instance.thread_eq_of_frozen (threadStep_spec hpart).frozen]
          exact h.joinable
        · rw [slot, World.put_slot_of_ne _ _ hij]
          exact h.joinable

theorem Waiting.run {rest : List Task} {bs : List StagedAction} :
    ∀ {s : Staged}, s.Waiting thread i rest → (∀ b ∈ bs, b ≠ .task) →
      Transition.run (Staged.step P) s bs = some s' → s'.Waiting thread i rest ∧
        (bs.filterMap StagedAction.worker?).count (thread, i) +
          (s'.worker (thread, i)).remaining = (s.worker (thread, i)).remaining := by
  induction bs with
  | nil =>
      intro s h _ hrun
      obtain rfl := Option.some.inj hrun
      exact ⟨h, Nat.zero_add _⟩
  | cons b bs ih =>
      intro s h hbs hrun
      obtain ⟨t, hstep, hrun⟩ := run_cons_eq_some_iff.1 hrun
      obtain ⟨hb, hbs⟩ := List.forall_mem_cons.1 hbs
      obtain ⟨ht, hfirst⟩ := h.step hb hstep
      obtain ⟨hlast, hrest⟩ := ih ht hbs hrun
      refine ⟨hlast, ?_⟩
      rw [filterMap_cons_toList, List.count_append, Nat.add_assoc, hrest]
      exact hfirst

theorem Waiting.isSome_task_iff {rest : List Task} (h : s.Waiting thread i rest) :
    (s.step P .task).isSome ↔ s.worker (thread, i) = .returned := by
  rw [step_task h.tasks, Option.isSome_iff_exists]
  simp only [perform_join_eq_some_iff, h.joinable, true_and]
  constructor
  · rintro ⟨t, hreturned, -⟩
    exact hreturned
  · intro hreturned
    exact ⟨_, hreturned, rfl⟩

/-- The slot whose thread `main` is to join has been told to quit. -/
theorem At.quit_of_join {rest : List Task} (h : s.At P w stage pending)
    (htasks : s.tasks = .join thread i :: rest) : (s.slot i).inst.quit = true := by
  have hjoins : stage i = .marked ∨ stage i = .dispatchJoined := by
    rcases h.phase.head_cases htasks with ⟨id, j, hexamine⟩ | ⟨j, ts, hhead⟩
    · cases hexamine
    · obtain ⟨rfl, hnow⟩ := SlotStage.eq_of_tasks_join hhead
      exact hnow
  rw [(h.slots i).inst]
  rcases hjoins with hnow | hnow <;> rw [hnow] <;> rfl

/-- When `main` is to join a thread of a slot, it goes on as soon as the thread has made the
steps that it had left, two at most, and not before. Until then the thread can make its next
step, whatever the other threads do, as soon as the body of its loop returns, if it is in
one. -/
theorem run_joins {as bs : List StagedAction} {rest : List Task} {t : Staged}
    (h : Transition.run (Staged.step P) startup as = some s)
    (htasks : s.tasks = .join thread i :: rest)
    (hthread : (s.slot i).inst.thread thread = .joinable)
    (hrun : Transition.run (Staged.step P) s bs = some t) (hbs : ∀ b ∈ bs, b ≠ .task) :
    (bs.filterMap StagedAction.worker?).count (thread, i) ≤ (s.worker (thread, i)).remaining ∧
      (s.worker (thread, i)).remaining ≤ 2 ∧
      ((t.step P .task).isSome ↔ (bs.filterMap StagedAction.worker?).count (thread, i) =
        (s.worker (thread, i)).remaining) ∧
      ((t.step P .task).isSome ∨
        ∀ returns, (t.worker (thread, i) = .working → returns = true) →
          (t.step P (.worker thread i returns)).isSome) := by
  obtain ⟨htracked, w, stage, pending, hat, hw⟩ := run_at h (not_ending_of_join htasks)
  have hpresent : s.worker (thread, i) ≠ .absent := by
    intro habsent
    rw [(htracked thread i).1 habsent] at hthread
    cases hthread
  have hwaiting : s.Waiting thread i rest :=
    ⟨htasks, hat.quit_of_join htasks, hthread, hpresent⟩
  obtain ⟨ht, hcount⟩ := hwaiting.run hbs hrun
  have hzero := Worker.remaining_eq_zero_iff ht.present
  refine ⟨by omega, Worker.remaining_le_two _, ?_, ?_⟩
  · rw [ht.isSome_task_iff, ← hzero]
    omega
  · rcases Worker.returned_or_step (t.slot i).inst.quit ht.present with
      hreturned | hnext
    · exact .inl (ht.isSome_task_iff.2 hreturned)
    · refine .inr fun returns hreturns => ?_
      rw [Staged.step, Option.isSome_map]
      exact hnext returns hreturns

/-- The dispatch thread of a channel ends its body and returns, and the channel is closed. -/
theorem run_joins_channel : ∃ s t,
    Transition.run (Staged.step Sample.platform) startup (oneChannel.take 6) = some s ∧
    Transition.run (Staged.step Sample.platform) s ((oneChannel.drop 6).take 4) = some t ∧
    (((oneChannel.drop 6).take 4).filterMap StagedAction.worker?).count (.eventDispatch, 0) ≤
      (s.worker (.eventDispatch, 0)).remaining ∧
    (s.worker (.eventDispatch, 0)).remaining ≤ 2 ∧
    ((t.step Sample.platform .task).isSome ↔
      (((oneChannel.drop 6).take 4).filterMap StagedAction.worker?).count (.eventDispatch, 0) =
        (s.worker (.eventDispatch, 0)).remaining) ∧
    ((t.step Sample.platform .task).isSome ∨
      ∀ returns, (t.worker (.eventDispatch, 0) = .working → returns = true) →
        (t.step Sample.platform (.worker .eventDispatch 0 returns)).isSome) := by
  have hobserved : (Transition.run (Staged.step Sample.platform) startup
      (oneChannel.take 6)).map (fun s => (s.tasks.head?,
        (s.slot 0).inst.thread .eventDispatch)) =
      some (some (.join .eventDispatch 0), .joinable) := by
    decide +kernel
  have hlast : (Transition.run (Staged.step Sample.platform) startup
      (oneChannel.take 6 ++ (oneChannel.drop 6).take 4)).isSome := by
    decide +kernel
  obtain ⟨t, ht⟩ := Option.isSome_iff_exists.1 hlast
  obtain ⟨s, hrun, ht⟩ := run_append_eq_some_iff.1 ht
  rw [hrun, Option.map_some, Option.some.injEq] at hobserved
  obtain ⟨hhead, hthread⟩ := Prod.mk.inj hobserved
  obtain ⟨rest, htasks⟩ := List.head?_eq_some_iff.1 hhead
  refine ⟨s, t, hrun, ht, run_joins hrun htasks hthread ht ?_⟩
  intro b hb
  simp only [oneChannel, List.drop_succ_cons, List.drop_zero, List.take_succ_cons, List.take_zero,
    List.cons_append, List.mem_cons, List.not_mem_nil, or_false] at hb
  rcases hb with rfl | rfl | rfl | rfl <;> exact fun h => by cases h

end Staged

end Bres
