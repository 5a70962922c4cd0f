import Bres.Audio.Backlog
import Bres.Pool.Delivery

/-!
# A callback among the other threads

The loops of the two audio callbacks visit the slots one after the other, and each visit
locks a queue for itself: between two visits `OnData` goes on to push blocks, and the main
loop executes commands. A `Soundtrack` is the program together with such a callback. What
a call begins with, what it does with a block and where its result goes is a parameter.

Every block that is taken from a queue is written down, and no step reads what was written.
The world of a soundtrack moves as `World.step` lets it. Over a whole run the blocks that
were pushed for a slot are those taken from it, in order, and those that still wait.
-/

namespace Bres

open Memory Transition

/-! ## The rounds of a callback -/

/-- A block that a visit has taken from the queue of a slot. -/
structure Taken where
  slot : Fin instanceMax
  pcm : Bytes
  drawn : Bool

/-- The block that a visit of slot `i` takes. -/
def Instance.taken (inst : Instance) (i : Fin instanceMax) : Option Taken :=
  if inst.instanceEnum ≠ .min then
    inst.eventsAudio.head?.map fun e => ⟨i, e.event, inst.isDraw ≠ 0⟩
  else none

/-- The block is mixed. -/
def Taken.heard (t : Taken) : Option Bytes :=
  if t.drawn ∧ t.pcm.length = 480 <<< 1 then some t.pcm else none

/-- A callback with the state `σ` that outlives its calls and the locals `μ` of a call. -/
structure Callback (σ μ ι ω ε : Type) where
  /-- What stands in front of the loop. -/
  enter : σ → ι → Option μ
  mix : μ → Bytes → μ
  /-- The buffer that the loop writes to. -/
  data : μ → Region UInt8
  enter_safe : ∀ own x m, enter own x = some m → (data m).Safe
  /-- What stands behind the loop. -/
  leave : σ → μ → ω → Option σ
  /-- What happens to its state outside of the calls. -/
  turn : σ → ε → Option σ

/-- A call in its loop. -/
structure Round (μ : Type) where
  rest : List (Fin instanceMax) := List.finRange instanceMax
  taken : List Taken := []
  mixed : μ

/-- A call that has returned. -/
structure PastRound (μ ω : Type) where
  taken : List Taken
  mixed : μ
  answer : ω

structure Soundtrack (σ μ ω : Type) where
  world : World
  own : σ
  round : Option (Round μ) := none
  past : List (PastRound μ ω) := []

inductive SoundAction (ι ω ε : Type) where
  | world (a : WorldAction)
  | enter (x : ι)
  | visit
  | leave (y : ω)
  | turn (z : ε)

/-- The step stands for a visit of the audio callback. -/
def WorldAction.IsAudio : WorldAction → Bool
  | .thread _ .audio => true
  | _ => false

namespace Soundtrack

variable {σ μ ι ω ε : Type}

/-- One step of a thread, or of the callback. A visit that leaves the buffer has no end. -/
def step (P : Platform) (c : Callback σ μ ι ω ε) (s : Soundtrack σ μ ω) :
    SoundAction ι ω ε → Option (Soundtrack σ μ ω)
  | .world a =>
      if a.IsAudio then none else (s.world.step P a).map fun w => { s with world := w }
  | .enter x =>
      match s.round with
      | some _ => none
      | none => (c.enter s.own x).map fun m => { s with round := some { mixed := m } }
  | .visit =>
      match s.round with
      | some ⟨i :: rest, taken, m⟩ =>
          let v := visitSlot c.mix (s.world.pool.slot, m) i
          if (c.data v.2).Safe then
            some { s with
              world := { s.world with pool := { s.world.pool with slot := v.1 } }
              round := some
                ⟨rest, taken ++ ((s.world.pool.slot i).taken i).toList, v.2⟩ }
          else none
      | _ => none
  | .leave y =>
      match s.round with
      | some ⟨[], taken, m⟩ => (c.leave s.own m y).map fun own =>
          { s with own := own, round := none, past := s.past ++ [⟨taken, m, y⟩] }
      | _ => none
  | .turn z => (c.turn s.own z).map fun own => { s with own := own }

/-- The program before its first command, with no call under way. -/
def start (own : σ) : Soundtrack σ μ ω := { world := World.startup, own := own }

/-- What the callback has taken from the queues. -/
def taken (s : Soundtrack σ μ ω) : List Taken :=
  s.past.flatMap PastRound.taken ++ (s.round.map Round.taken).getD []

/-- What the callback has taken from the queue of slot `i`. -/
def takenFrom (s : Soundtrack σ μ ω) (i : Fin instanceMax) : List Bytes :=
  (s.taken.filter fun t => t.slot = i).map Taken.pcm

/-- What waits in the queue of slot `i`. -/
def queue (s : Soundtrack σ μ ω) (i : Fin instanceMax) : List Bytes :=
  (s.world.pool.slot i).eventsAudio.map SEvent.event

end Soundtrack

/-- The block that a step of `OnData` pushes. -/
def ThreadAction.block : ThreadAction → Option Bytes
  | .onData pcm => some pcm
  | _ => none

/-- The block that is pushed for slot `i`. -/
def WorldAction.pushed (i : Fin instanceMax) : WorldAction → Option Bytes
  | .thread j x => if j = i then x.block else none
  | .command _ _ => none

/-- What `OnData` has pushed for slot `i` in a run. -/
def pushedFor {ι ω ε : Type} (i : Fin instanceMax) (as : List (SoundAction ι ω ε)) : List Bytes :=
  as.filterMap fun
    | .world a => a.pushed i
    | _ => none

/-! ## The visit of a slot -/

theorem Instance.bind_taken (inst : Instance) (i : Fin instanceMax) :
    (inst.taken i).bind Taken.heard = inst.mixedBlock := by
  unfold Instance.taken Instance.mixedBlock
  cases inst.eventsAudio with
  | nil => simp
  | cons e es =>
      by_cases henum : inst.instanceEnum = .min
      · simp [henum]
      · simp [henum, Taken.heard]

theorem Instance.slot_of_taken {inst : Instance} {i : Fin instanceMax} {t : Taken}
    (h : inst.taken i = some t) : t.slot = i := by
  unfold Instance.taken at h
  obtain ⟨-, h⟩ := Option.ite_none_right_eq_some.1 h
  obtain ⟨e, -, rfl⟩ := Option.map_eq_some_iff.1 h
  rfl

/-- A visit takes what it takes from the front. -/
theorem Instance.popAudio_queue (inst : Instance) (i : Fin instanceMax) :
    inst.eventsAudio.map SEvent.event =
      ((inst.taken i).map Taken.pcm).toList ++ inst.popAudio.eventsAudio.map SEvent.event := by
  unfold Instance.taken Instance.popAudio
  by_cases henum : inst.instanceEnum = .min
  · simp [henum]
  · cases hqueue : inst.eventsAudio with
    | nil => simp [henum]
    | cons e es => simp [henum]

/-- The program after a visit of slot `i`. -/
def World.visited (w : World) (i : Fin instanceMax) : World :=
  { w with
    pool := { w.pool with slot := Function.update w.pool.slot i (w.pool.slot i).popAudio } }

/-- A visit is no step of the program, or the one that stands for the callback. -/
theorem World.step_visit (P : Platform) (w : World) (i : Fin instanceMax) :
    w.visited i = w ∨ w.step P (.thread i .audio) = some (w.visited i) := by
  by_cases henum : (w.pool.slot i).instanceEnum = .min
  · have hsame : (w.pool.slot i).popAudio = w.pool.slot i := by simp [Instance.popAudio, henum]
    exact .inl (by rw [World.visited, hsame, Function.update_eq_self])
  · have hthread : threadStep P.parse (w.slot i) .audio =
        some ⟨(w.slot i).inst.popAudio, (w.slot i).hands⟩ := threadStep_audio henum
    have hput : w.put i ⟨(w.slot i).inst.popAudio, (w.slot i).hands⟩ = w.visited i := by
      simp [World.put, World.visited, World.slot]
    have havailable : w.Available .audio := trivial
    exact .inr (by rw [World.step, if_pos havailable, hthread, Option.map_some, hput])

theorem World.Reachable.step {P : Platform} {w w' : World} {a : WorldAction}
    (hw : w.Reachable P) (h : w.step P a = some w') : w'.Reachable P := by
  obtain ⟨as, has⟩ := hw
  exact ⟨as ++ [a], run_snoc has h⟩

/-! ## The queues -/

/-- Only `OnData` and the callback work on an audio queue. -/
theorem threadStep_eventsAudio {parse : Bytes → Option Json} {s t : Slot} {x : ThreadAction}
    (hx : x ≠ .audio) (h : threadStep parse s x = some t) :
    t.inst.eventsAudio.map SEvent.event =
      s.inst.eventsAudio.map SEvent.event ++ x.block.toList := by
  cases x with
  | exchange a =>
      obtain ⟨-, h⟩ := Option.ite_none_right_eq_some.1 h
      have hevents : t.inst.eventsAudio = s.inst.eventsAudio :=
        congrFun (slotStep_spec h).events_eq .audio
      simp [hevents, ThreadAction.block]
  | onData pcm =>
      obtain ⟨-, h⟩ := Option.ite_none_right_eq_some.1 h
      obtain rfl := Option.some.inj h
      simp [pushEvent, Instance.setEvents, Instance.events, ThreadAction.block]
  | send type text =>
      obtain ⟨-, h⟩ := Option.ite_none_right_eq_some.1 h
      obtain rfl := Option.some.inj h
      simp [pushEvent, Instance.setEvents, ThreadAction.block]
  | receive payload =>
      obtain ⟨-, h⟩ := Option.ite_none_right_eq_some.1 h
      cases hreceive : clientReceive parse s.inst payload with
      | thrown e inst => simp [hreceive] at h
      | done inst =>
          rw [hreceive] at h
          obtain rfl := Option.some.inj h
          obtain ⟨-, type, -, rfl⟩ := clientReceive_eq_done hreceive
          have hevents : (s.inst.received payload type).eventsAudio = s.inst.eventsAudio := by
            unfold Instance.received
            split_ifs <;> rfl
          simp [hevents, ThreadAction.block]
  | webrtcEvent peerConnection =>
      obtain ⟨-, h⟩ := Option.ite_none_right_eq_some.1 h
      obtain ⟨-, h⟩ | ⟨e, es, -, h⟩ := popEvent_cases h
      · cases h
        simp [ThreadAction.block]
      · cases h
        simp [Instance.setEvents, ThreadAction.block]
  | websocketsEvent =>
      obtain ⟨-, h⟩ := Option.ite_none_right_eq_some.1 h
      obtain ⟨-, h⟩ | ⟨e, es, -, h⟩ := popEvent_cases h
      · cases h
        simp [ThreadAction.block]
      · cases hevent : Bres.websocketsEvent parse (s.inst.setEvents .webrtcToWebsockets es)
          e.type e.event with
        | thrown x y => simp [hevent] at h
        | done r =>
            obtain ⟨inst, requested⟩ := r
            simp only [hevent] at h
            obtain rfl := Option.some.inj h
            have hevents : inst.eventsAudio = s.inst.eventsAudio :=
              congrFun (websocketsEvent_sameEvents hevent).2 .audio
            simp [hevents, ThreadAction.block]
  | audio => exact absurd rfl hx

theorem SlotChange.eventsAudio {P : Platform} {env : Answers} {ev : SEvent} {pool : Pool}
    {i : Fin instanceMax} {inst : Instance} (h : SlotChange P env ev pool i inst) :
    inst.eventsAudio = (pool.slot i).eventsAudio := by
  cases h <;> rfl

theorem World.step_eventsAudio {P : Platform} {w w' : World} {a : WorldAction} (hw : w.Sound)
    (haudio : a.IsAudio = false) (h : w.step P a = some w') (i : Fin instanceMax) :
    (w'.pool.slot i).eventsAudio.map SEvent.event =
      (w.pool.slot i).eventsAudio.map SEvent.event ++ (a.pushed i).toList := by
  cases a with
  | command env ev =>
      obtain ⟨-, -, -, pool, hexec, -, rfl⟩ := command_eq_some h
      have hchange := executeCommand_slot (fun i => (hw i).inst) hexec i
      rw [hchange.eventsAudio]
      simp [WorldAction.pushed]
  | thread j x =>
      obtain ⟨-, t, ht, rfl⟩ := thread_eq_some h
      have hx : x ≠ .audio := by
        rintro rfl
        cases haudio
      by_cases hj : j = i
      · subst hj
        have hqueue := threadStep_eventsAudio hx ht
        simpa [put, WorldAction.pushed, World.slot] using hqueue
      · simp [put, WorldAction.pushed, hj, Function.update_of_ne (Ne.symm hj)]

/-! ## The steps -/

/-- What a step of the program with its callback can do. -/
inductive SoundStep {σ μ ι ω ε : Type} (P : Platform) (c : Callback σ μ ι ω ε)
    (s : Soundtrack σ μ ω) : SoundAction ι ω ε → Soundtrack σ μ ω → Prop where
  | moved {a : WorldAction} {w : World} (haudio : a.IsAudio = false)
      (hstep : s.world.step P a = some w) : SoundStep P c s (.world a) { s with world := w }
  | entered {x : ι} {m : μ} (hround : s.round = none) (henter : c.enter s.own x = some m) :
      SoundStep P c s (.enter x) { s with round := some { mixed := m } }
  | visited {i : Fin instanceMax} {rest : List (Fin instanceMax)} {taken : List Taken} {m : μ}
      (hround : s.round = some ⟨i :: rest, taken, m⟩)
      (hsafe : (c.data ((s.world.pool.slot i).mixedBlock.toList.foldl c.mix m)).Safe) :
      SoundStep P c s .visit { s with
        world := s.world.visited i
        round := some ⟨rest, taken ++ ((s.world.pool.slot i).taken i).toList,
          (s.world.pool.slot i).mixedBlock.toList.foldl c.mix m⟩ }
  | left {taken : List Taken} {m : μ} {y : ω} {own : σ} (hround : s.round = some ⟨[], taken, m⟩)
      (hleave : c.leave s.own m y = some own) :
      SoundStep P c s (.leave y)
        { s with own := own, round := none, past := s.past ++ [⟨taken, m, y⟩] }
  | turned {z : ε} {own : σ} (hturn : c.turn s.own z = some own) :
      SoundStep P c s (.turn z) { s with own := own }

namespace Soundtrack

variable {σ μ ι ω ε : Type} {P : Platform} {c : Callback σ μ ι ω ε} {s t : Soundtrack σ μ ω}
  {a : SoundAction ι ω ε} {i : Fin instanceMax}

theorem step_spec (h : s.step P c a = some t) : SoundStep P c s a t := by
  cases a with
  | world a =>
      obtain ⟨haudio, h⟩ := Option.ite_none_left_eq_some.1 h
      obtain ⟨w, hstep, rfl⟩ := Option.map_eq_some_iff.1 h
      exact .moved (Bool.eq_false_iff.2 haudio) hstep
  | enter x =>
      cases hround : s.round with
      | some r => simp [step, hround] at h
      | none =>
          simp only [step, hround] at h
          obtain ⟨m, henter, rfl⟩ := Option.map_eq_some_iff.1 h
          exact .entered hround henter
  | visit =>
      match hround : s.round with
      | none => simp [step, hround] at h
      | some ⟨[], taken, m⟩ => simp [step, hround] at h
      | some ⟨i :: rest, taken, m⟩ =>
          simp only [step, hround, visitSlot_eq] at h
          obtain ⟨hsafe, h⟩ := Option.ite_none_right_eq_some.1 h
          obtain rfl := Option.some.inj h
          exact .visited hround hsafe
  | leave y =>
      match hround : s.round with
      | none => simp [step, hround] at h
      | some ⟨i :: rest, taken, m⟩ => simp [step, hround] at h
      | some ⟨[], taken, m⟩ =>
          simp only [step, hround] at h
          obtain ⟨own, hleave, rfl⟩ := Option.map_eq_some_iff.1 h
          exact .left hround hleave
  | turn z =>
      obtain ⟨own, hturn, rfl⟩ := Option.map_eq_some_iff.1 h
      exact .turned hturn

/-- A visit goes on as long as it stays in the buffer. -/
theorem step_visit_iff {rest : List (Fin instanceMax)} {taken : List Taken} {m : μ}
    (hround : s.round = some ⟨i :: rest, taken, m⟩) :
    (∃ t, s.step P c .visit = some t) ↔
      (c.data ((s.world.pool.slot i).mixedBlock.toList.foldl c.mix m)).Safe := by
  simp only [step, hround, visitSlot_eq, Option.ite_none_right_eq_some]
  exact ⟨fun ⟨_, hsafe, _⟩ => hsafe, fun hsafe => ⟨_, hsafe, rfl⟩⟩

end Soundtrack

/-! ## Whole runs -/

section Runs

variable {σ μ ι ω ε : Type} {P : Platform} {c : Callback σ μ ι ω ε} {s t : Soundtrack σ μ ω}
  {a : SoundAction ι ω ε} {i : Fin instanceMax}

/-- The locals that a call starts its loop with. -/
def Callback.Begins (c : Callback σ μ ι ω ε) (m : μ) : Prop := ∃ own x, c.enter own x = some m

/-- The locals of a call that has taken these blocks, in the order of the slots, and has
the slots in `rest` in front of it. -/
structure Callback.Mixes (c : Callback σ μ ι ω ε) (taken : List Taken)
    (rest : List (Fin instanceMax)) (m : μ) : Prop where
  ordered : (taken.map Taken.slot ++ rest).Sublist (List.finRange instanceMax)
  mixed : ∃ m₀, c.Begins m₀ ∧ m = (taken.filterMap Taken.heard).foldl c.mix m₀
  safe : (c.data m).Safe

theorem Callback.Mixes.visit {taken : List Taken} {rest : List (Fin instanceMax)} {m : μ}
    {inst : Instance} (h : c.Mixes taken (i :: rest) m)
    (hsafe : (c.data (inst.mixedBlock.toList.foldl c.mix m)).Safe) :
    c.Mixes (taken ++ (inst.taken i).toList) rest (inst.mixedBlock.toList.foldl c.mix m) where
  ordered := by
    refine List.Sublist.trans ?_ h.ordered
    cases htaken : inst.taken i with
    | none => simp
    | some t =>
        simp [Instance.slot_of_taken htaken]
  mixed := by
    obtain ⟨m₀, hbegins, rfl⟩ := h.mixed
    refine ⟨m₀, hbegins, ?_⟩
    rw [List.filterMap_append, List.foldl_append, ← inst.bind_taken i]
    cases htaken : inst.taken i with
    | none => rfl
    | some t => cases hheard : t.heard <;> simp [hheard]
  safe := hsafe

namespace Soundtrack

/-- What holds of the program with its callback in every run. -/
structure Sound (P : Platform) (c : Callback σ μ ι ω ε) (s : Soundtrack σ μ ω) : Prop where
  world : World.Reachable P s.world
  past : ∀ r ∈ s.past, c.Mixes r.taken [] r.mixed
  round : ∀ r, s.round = some r → c.Mixes r.taken r.rest r.mixed

theorem start_sound (own : σ) : (start own : Soundtrack σ μ ω).Sound P c where
  world := Reachable.refl _
  past _ hr := absurd hr List.not_mem_nil
  round _ hr := nomatch hr

theorem Sound.step (hs : s.Sound P c) (h : s.step P c a = some t) : t.Sound P c := by
  cases step_spec h with
  | moved haudio hstep => exact ⟨hs.world.step hstep, hs.past, hs.round⟩
  | entered hround henter =>
      refine ⟨hs.world, hs.past, fun r hr => ?_⟩
      obtain rfl := Option.some.inj hr
      exact ⟨List.Sublist.refl _, ⟨_, ⟨_, _, henter⟩, rfl⟩, c.enter_safe _ _ _ henter⟩
  | @visited i rest taken m hround hsafe =>
      refine ⟨?_, hs.past, fun r hr => ?_⟩
      · rcases s.world.step_visit P i with hsame | hstep
        · rw [hsame]
          exact hs.world
        · exact hs.world.step hstep
      · obtain rfl := Option.some.inj hr
        exact (hs.round _ hround).visit hsafe
  | left hround hleave =>
      refine ⟨hs.world, fun r hr => ?_, fun r hr => nomatch hr⟩
      rcases List.mem_append.1 hr with hr | hr
      · exact hs.past r hr
      · obtain rfl := List.mem_singleton.1 hr
        exact hs.round _ hround
  | turned hturn => exact ⟨hs.world, hs.past, hs.round⟩

/-- What a visit, `OnData` and the end of a call do to what was taken and what waits. -/
theorem Sound.takenFrom_step (hs : s.Sound P c) (h : s.step P c a = some t) :
    s.takenFrom i ++ s.queue i ++ pushedFor i [a] = t.takenFrom i ++ t.queue i := by
  cases step_spec h with
  | @moved a w haudio hstep =>
      have hqueue := World.step_eventsAudio hs.world.sound haudio hstep i
      simp only [takenFrom, taken, queue, pushedFor, hqueue, List.filterMap_cons,
        List.append_assoc]
      cases a.pushed i <;> simp
  | entered hround henter => simp [takenFrom, taken, queue, pushedFor, hround]
  | @visited j rest taken m hround hsafe =>
      by_cases hj : j = i
      · subst hj
        have hpop := (s.world.pool.slot j).popAudio_queue j
        cases htaken : (s.world.pool.slot j).taken j with
        | none =>
            rw [htaken] at hpop
            simpa [takenFrom, Soundtrack.taken, queue, pushedFor, hround, World.visited,
              htaken] using hpop
        | some x =>
            rw [htaken] at hpop
            simpa [takenFrom, Soundtrack.taken, queue, pushedFor, hround, World.visited,
              htaken, Instance.slot_of_taken htaken] using hpop
      · cases htaken : (s.world.pool.slot j).taken j with
        | none =>
            simp [takenFrom, Soundtrack.taken, queue, pushedFor, hround, World.visited,
              Ne.symm hj]
        | some x =>
            simp [takenFrom, Soundtrack.taken, queue, pushedFor, hround, World.visited,
              Ne.symm hj, Instance.slot_of_taken htaken, hj]
  | left hround hleave => simp [takenFrom, taken, queue, pushedFor, hround]
  | turned hturn => simp [takenFrom, taken, queue, pushedFor]

theorem Sound.takenFrom_run {as : List (SoundAction ι ω ε)} (hs : s.Sound P c)
    (h : run (Soundtrack.step P c) s as = some t) :
    s.takenFrom i ++ s.queue i ++ pushedFor i as = t.takenFrom i ++ t.queue i := by
  induction as generalizing s with
  | nil =>
      cases h
      exact List.append_nil _
  | cons a as ih =>
      obtain ⟨u, hu, hrun⟩ := run_cons_eq_some_iff.1 h
      have hpushed : pushedFor i (a :: as) = pushedFor i [a] ++ pushedFor i as :=
        List.filterMap_append (l := [a]) ..
      rw [hpushed, ← List.append_assoc, hs.takenFrom_step hu]
      exact ih (hs.step hu) hrun

/-- The blocks that were pushed for a slot are those taken from it, in order, and those
that wait. -/
theorem run_pushedFor {own : σ} {as : List (SoundAction ι ω ε)}
    (h : run (step P c) (start own) as = some s) (i : Fin instanceMax) :
    pushedFor i as = s.takenFrom i ++ s.queue i := by
  have hstart : (start own : Soundtrack σ μ ω).Sound P c := start_sound own
  exact hstart.takenFrom_run h

/-! ### A call with nothing in between -/

theorem safe_of_visits (hmix : ∀ m pcm, (c.data (c.mix m pcm)).Safe → (c.data m).Safe)
    {l : List (Fin instanceMax)} {slots : Slots} {m : μ}
    (h : (c.data (l.foldl (visitSlot c.mix) (slots, m)).2).Safe) : (c.data m).Safe := by
  induction l generalizing slots m with
  | nil => exact h
  | cons i l ih =>
      rw [List.foldl_cons, visitSlot_eq] at h
      have hnext := ih h
      cases hblock : (slots i).mixedBlock with
      | none => simpa [hblock] using hnext
      | some pcm => exact hmix m pcm (by simpa [hblock] using hnext)

/-- The visits of a call, one right behind the other, are the loop over the slots. -/
theorem run_visits (hmix : ∀ m pcm, (c.data (c.mix m pcm)).Safe → (c.data m).Safe)
    {l : List (Fin instanceMax)} {taken : List Taken} {m : μ}
    (hround : s.round = some ⟨l, taken, m⟩)
    (hsafe : (c.data (l.foldl (visitSlot c.mix) (s.world.pool.slot, m)).2).Safe) :
    ∃ taken', run (step P c) s (List.replicate l.length .visit) = some { s with
      world := { s.world with pool := { s.world.pool with
        slot := (l.foldl (visitSlot c.mix) (s.world.pool.slot, m)).1 } }
      round := some ⟨[], taken', (l.foldl (visitSlot c.mix) (s.world.pool.slot, m)).2⟩ } := by
  induction l generalizing s taken m with
  | nil =>
      refine ⟨taken, ?_⟩
      rw [List.foldl_nil, ← hround]
      rfl
  | cons i l ih =>
      rw [List.foldl_cons] at hsafe ⊢
      have hvisit : (c.data (visitSlot c.mix (s.world.pool.slot, m) i).2).Safe :=
        safe_of_visits hmix hsafe
      let t : Soundtrack σ μ ω := { s with
        world := { s.world with pool := { s.world.pool with
          slot := (visitSlot c.mix (s.world.pool.slot, m) i).1 } }
        round := some ⟨l, taken ++ ((s.world.pool.slot i).taken i).toList,
          (visitSlot c.mix (s.world.pool.slot, m) i).2⟩ }
      have hstep : s.step P c .visit = some t := by
        simp only [step, hround, if_pos hvisit, t]
      obtain ⟨taken', hrun⟩ := ih (s := t) rfl hsafe
      refine ⟨taken', ?_⟩
      rw [List.length_cons, List.replicate_succ, run, hstep, Option.bind_some, hrun]

/-- A call with nothing in between takes one block from each slot that is not free, and
mixes those that are heard. -/
theorem run_call (hmix : ∀ m pcm, (c.data (c.mix m pcm)).Safe → (c.data m).Safe)
    (hround : s.round = none) {x : ι} {y : ω} {m : μ} {own : σ}
    (henter : c.enter s.own x = some m)
    (hsafe : (c.data ((mixedBlocks s.world.pool.slot).foldl c.mix m)).Safe)
    (hleave : c.leave s.own ((mixedBlocks s.world.pool.slot).foldl c.mix m) y = some own) :
    ∃ taken, run (step P c) s (.enter x :: List.replicate instanceMax .visit ++ [.leave y]) =
      some
        { world := ⟨⟨fun i => (s.world.pool.slot i).popAudio, s.world.pool.shared⟩,
            s.world.hands⟩
          own := own
          past := s.past ++
            [⟨taken, (mixedBlocks s.world.pool.slot).foldl c.mix m, y⟩] } := by
  have hentered : s.step P c (.enter x) = some { s with round := some { mixed := m } } := by
    simp only [step, hround, henter, Option.map_some]
  have hloop := foldl_visitSlot_finRange c.mix s.world.pool.slot m
  obtain ⟨taken, hvisits⟩ := run_visits (P := P) hmix
    (s := { s with round := some { mixed := m } }) rfl (by rw [hloop]; exact hsafe)
  rw [hloop, List.length_finRange] at hvisits
  refine ⟨taken, ?_⟩
  rw [List.cons_append, run, hentered, Option.bind_some, run_append hvisits]
  simp only [run, step, hleave, Option.map_some, Option.bind_some]

end Soundtrack

end Runs

end Bres
