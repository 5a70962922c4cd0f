import Bres.Pool.World
import Bres.Telnet.Clients
import Bres.Transition.Gate

/-!
# The main loop and its clients

`main` of `src/main.cc` together with the telnet service and the threads of the pool.
`main` reads the clock at the start of each turn of its loop. At the end of the turn, if
a second has passed between that reading and the one of the last turn at which it did so, it
takes one command from the queue, where there is one, and executes it. The difference of the
two readings has 64 bits and no sign, so a clock that has gone back counts as late. Between
the two ends of a turn `main` draws, so it executes a command later than it has read the
clock, and anything can happen in between.

The clock readings and the executed commands with their times are recorded; no step
reads the record. A run of the whole program is a run of the pool and its threads in
which the commands come in the order of the queue.
-/

namespace Bres

open Transition

/-- The test of `main` before it looks for a command. -/
def Due (now prevUsec : UInt64) : Prop := 1000000 ≤ now - prevUsec

instance (now prevUsec : UInt64) : Decidable (Due now prevUsec) :=
  inferInstanceAs (Decidable (1000000 ≤ _))

/-- A command that has been executed: the reading at the start of the turn, the time at its
end, and the command. -/
structure Execution where
  reading : ℕ
  time : ℕ
  event : SEvent

/-- The telnet service, the pool with its threads, `prev_usec`, and the reading of the turn
that `main` is in, with the record of the run. -/
structure MainLoop where
  service : Service := {}
  world : World := World.startup
  prevUsec : UInt64 := 0
  turn : Option UInt64 := none
  /-- The readings of the turns that have ended. -/
  readings : List ℕ := []
  /-- The times of all readings and of all ends of turns. -/
  times : List ℕ := []
  executed : List Execution := []

inductive MainAction where
  | accept (answer : AcceptAnswer)
  | recv (sock : Socket) (chunk : Bytes)
  | thread (i : Fin instanceMax) (a : ThreadAction)
  /-- The start of a turn of the loop. -/
  | look (now : UInt64)
  /-- Its end, behind the drawing. -/
  | finish (time : ℕ) (env : Answers)

namespace MainLoop

def endTurn (s : MainLoop) (now : UInt64) (time : ℕ) : MainLoop :=
  { s with turn := none, readings := s.readings ++ [now.toNat], times := s.times ++ [time] }

/-- A step of the telnet service, of a thread of the pool, or of `main`. -/
def step (P : Platform) (s : MainLoop) : MainAction → Option MainLoop
  | .accept answer =>
      (s.service.step P.parse (.accept answer)).map fun service => { s with service := service }
  | .recv sock chunk =>
      (s.service.step P.parse (.recv sock chunk)).map fun service =>
        { s with service := service }
  | .thread i a => (s.world.step P (.thread i a)).map fun world => { s with world := world }
  | .look now =>
      match s.turn with
      | some _ => none
      | none => some { s with turn := some now, times := s.times ++ [now.toNat] }
  | .finish time env =>
      match s.turn with
      | none => none
      | some now =>
          if Due now s.prevUsec then
            match s.service.events with
            | [] => some { s.endTurn now time with prevUsec := now }
            | ev :: events =>
                (s.world.step P (.command env ev)).map fun world =>
                  { s.endTurn now time with
                    service :=
                      { s.service with events := events, taken := s.service.taken ++ [ev] }
                    world := world
                    prevUsec := now
                    executed := s.executed ++ [⟨now.toNat, time, ev⟩] }
          else some (s.endTurn now time)

end MainLoop

/-- What a step of the program can do. -/
inductive MainStep (P : Platform) (s : MainLoop) : MainLoop → Prop where
  | served {a : ServiceAction} {service : Service} (ha : a ≠ .take)
      (hserve : s.service.step P.parse a = some service) :
      MainStep P s { s with service := service }
  | worked {i : Fin instanceMax} {a : ThreadAction} {world : World}
      (hwork : s.world.step P (.thread i a) = some world) :
      MainStep P s { s with world := world }
  | looked {now : UInt64} (hturn : s.turn = none) :
      MainStep P s { s with turn := some now, times := s.times ++ [now.toNat] }
  | waited {now : UInt64} {time : ℕ} (hturn : s.turn = some now)
      (hdue : ¬ Due now s.prevUsec) : MainStep P s (s.endTurn now time)
  | idled {now : UInt64} {time : ℕ} (hturn : s.turn = some now) (hdue : Due now s.prevUsec)
      (hevents : s.service.events = []) :
      MainStep P s { s.endTurn now time with prevUsec := now }
  | executed {now : UInt64} {time : ℕ} {env : Answers} {ev : SEvent} {events : List SEvent}
      {world : World} (hturn : s.turn = some now) (hdue : Due now s.prevUsec)
      (hevents : s.service.events = ev :: events)
      (hcommand : s.world.step P (.command env ev) = some world) :
      MainStep P s
        { s.endTurn now time with
          service := { s.service with events := events, taken := s.service.taken ++ [ev] }
          world := world
          prevUsec := now
          executed := s.executed ++ [⟨now.toNat, time, ev⟩] }

namespace MainLoop

variable {P : Platform} {s s' : MainLoop} {a : MainAction}

theorem step_spec (h : s.step P a = some s') : MainStep P s s' := by
  cases a with
  | accept answer =>
      obtain ⟨service, hserve, rfl⟩ := Option.map_eq_some_iff.1 h
      exact .served (by nofun) hserve
  | recv sock chunk =>
      obtain ⟨service, hserve, rfl⟩ := Option.map_eq_some_iff.1 h
      exact .served (by nofun) hserve
  | thread i a =>
      obtain ⟨world, hwork, rfl⟩ := Option.map_eq_some_iff.1 h
      exact .worked hwork
  | look now =>
      cases hturn : s.turn with
      | some now' => simp [step, hturn] at h
      | none =>
          simp only [step, hturn, Option.some.injEq] at h
          subst h
          exact .looked hturn
  | finish time env =>
      cases hturn : s.turn with
      | none => simp [step, hturn] at h
      | some now =>
          by_cases hdue : Due now s.prevUsec
          · cases hevents : s.service.events with
            | nil =>
                simp only [step, hturn, hdue, hevents, if_true, Option.some.injEq] at h
                subst h
                exact .idled hturn hdue hevents
            | cons ev events =>
                simp only [step, hturn, hdue, hevents, if_true] at h
                obtain ⟨world, hcommand, rfl⟩ := Option.map_eq_some_iff.1 h
                exact .executed hturn hdue hevents hcommand
          · simp only [step, hturn, hdue, if_false, Option.some.injEq] at h
            subst h
            exact .waited hturn hdue

end MainLoop

/-! ## The pool sees the commands of the queue -/

/-- The command of a step of the pool. -/
def WorldAction.command? : WorldAction → Option SEvent
  | .command _ ev => some ev
  | .thread _ _ => none

namespace MainLoop

variable {P : Platform} {s s' : MainLoop} {a : MainAction}

/-- The state of the pool comes from a run in which the commands are those that have been
taken from the queue. -/
structure Follows (P : Platform) (s : MainLoop) (ws : List WorldAction) : Prop where
  world_eq : run (World.step P) World.startup ws = some s.world
  commands_eq : ws.filterMap WorldAction.command? = s.service.taken
  isolated : s.service.Isolated P.parse

theorem Follows.step (hs : ∃ ws, s.Follows P ws) (h : s.step P a = some s') :
    ∃ ws, s'.Follows P ws := by
  obtain ⟨ws, hs⟩ := hs
  cases step_spec h with
  | served ha hserve =>
      exact ⟨ws, hs.world_eq, hs.commands_eq.trans (Service.step_grows ha hserve).1.symm,
        hs.isolated.step hserve⟩
  | worked hwork =>
      refine ⟨ws ++ [_], run_snoc hs.world_eq hwork, ?_, hs.isolated⟩
      rw [List.filterMap_append, hs.commands_eq]
      exact List.append_nil _
  | looked => exact ⟨ws, hs.world_eq, hs.commands_eq, hs.isolated⟩
  | waited => exact ⟨ws, hs.world_eq, hs.commands_eq, hs.isolated⟩
  | idled => exact ⟨ws, hs.world_eq, hs.commands_eq, hs.isolated⟩
  | @executed now time env ev events world hturn hdue hevents hcommand =>
      have htake : s.service.step P.parse .take = some { s.service with
          events := events
          taken := s.service.taken ++ [ev] } := by
        rw [Service.step, hevents]
      refine ⟨ws ++ [_], run_snoc hs.world_eq hcommand, ?_, hs.isolated.step htake⟩
      rw [List.filterMap_append, hs.commands_eq]
      rfl

/-- A queued command is the text of a command of its type. -/
theorem commandOf_of_mem_queues {parse : Bytes → Option Json} {chunks : List Bytes}
    {ev : SEvent} (h : ev ∈ queues parse chunks) : commandOf parse ev.event = some ev.type := by
  obtain ⟨text, -, hqueued⟩ := List.mem_filterMap.1 h
  obtain ⟨type, htype, rfl⟩ := Option.map_eq_some_iff.1 hqueued
  exact htype

/-- The program as a whole does to its pool what a reader of commands does that gets one
queue of them: whatever the clients, the threads and `main` do and in whatever order, the
pool is in a state that a run of the pool and its threads reaches whose commands are the
ones taken from the queue, each once and in the order of the queue. These and the ones that
wait are a merge of what each connection would have queued alone, and the type under which
a command is executed is the type in its text. -/
theorem run_refines {as : List MainAction} (h : run (step P) {} as = some s) :
    (∃ ws, run (World.step P) World.startup ws = some s.world ∧
      ws.filterMap WorldAction.command? = s.service.taken) ∧
    (∃ own : ℕ → Telnet,
      (∀ c, receiveAll P.parse (s.service.chunks c) {} = .done (own c)) ∧
      Merge (fun c => (own c).events) (s.service.taken ++ s.service.events)) ∧
    ∀ ev ∈ s.service.taken, commandOf P.parse ev.event = some ev.type := by
  obtain ⟨ws, hs⟩ : ∃ ws, s.Follows P ws :=
    run_preserves (fun _ _ _ => Follows.step)
      ⟨[], rfl, rfl, Service.start_isolated P.parse⟩ h
  refine ⟨⟨ws, hs.world_eq, hs.commands_eq⟩, ⟨_, hs.isolated.receiveAll_eq, hs.isolated.merge⟩,
    fun ev hev => ?_⟩
  obtain ⟨c, hc⟩ := hs.isolated.merge.mem_iff.1 (List.mem_append_left _ hev)
  exact commandOf_of_mem_queues hc

/-- A client sends a delete while `main` draws, and `main` executes it at the end of the
turn. -/
def oneClient : List MainAction :=
  [.accept ⟨some 5, true, true⟩, .look 2000000, .recv 5 Sample.deleteLine.sent,
    .finish 2010000 (Sample.answers 1)]

theorem run_refines_one : ∃ s, run (step Sample.platform) {} oneClient = some s ∧
    s.service.taken.length = 1 ∧
    (∃ ws, run (World.step Sample.platform) World.startup ws = some s.world ∧
      ws.filterMap WorldAction.command? = s.service.taken) ∧
    (∃ own : ℕ → Telnet,
      (∀ c, receiveAll Sample.platform.parse (s.service.chunks c) {} = .done (own c)) ∧
      Merge (fun c => (own c).events) (s.service.taken ++ s.service.events)) ∧
    ∀ ev ∈ s.service.taken, commandOf Sample.platform.parse ev.event = some ev.type := by
  have hobserved : (run (step Sample.platform) {} oneClient).map
      (fun s => s.service.taken.length) = some 1 := by
    decide +kernel
  obtain ⟨s, hrun, htaken⟩ := Option.map_eq_some_iff.1 hobserved
  exact ⟨s, hrun, htaken, run_refines hrun⟩

/-! ## The pace of the commands -/

/-- The reading of the turn that `main` is in. -/
def reading (s : MainLoop) : List ℕ := s.turn.toList.map UInt64.toNat

/-- What the record says of when the executions took place. -/
def stamps (s : MainLoop) : List ℕ := s.executed.flatMap fun x => [x.reading, x.time]

/-- The turns at which `main` looks for a command are those at which a gate opens that
stays shut for a second, and the executions take place at the ends of such turns. -/
structure Paced (s : MainLoop) : Prop where
  readings_sublist : (s.readings ++ s.reading).Sublist s.times
  stamps_sublist : (s.stamps ++ s.reading).Sublist s.times
  prevUsec_eq : s.prevUsec.toNat = lastOpening 1000000 0 s.readings
  last_lt : s.readings.getLastD 0 < s.prevUsec.toNat + 1000000
  executed_sublist : (s.executed.map Execution.reading).Sublist (openings 1000000 0 s.readings)
  taken_eq : s.executed.map Execution.event = s.service.taken

/-- Where the clock does not go back, a second has passed if the difference says so. -/
theorem due_iff {now prevUsec : UInt64} (hle : prevUsec.toNat ≤ now.toNat) :
    Due now prevUsec ↔ prevUsec.toNat + 1000000 ≤ now.toNat := by
  rw [Due, UInt64.le_iff_toNat_le, UInt64.toNat_sub_of_le _ _ (UInt64.le_iff_toNat_le.2 hle)]
  change 1000000 ≤ _ ↔ _
  omega

section Turn

variable {now : UInt64} {time : ℕ}

theorem reading_of_turn (hturn : s.turn = some now) : s.reading = [now.toNat] := by
  rw [reading, hturn]
  rfl

theorem Paced.prevUsec_le (hs : s.Paced) (hturn : s.turn = some now)
    (hclock : s.times.IsChain (· ≤ ·)) : s.prevUsec.toNat ≤ now.toNat := by
  rw [hs.prevUsec_eq]
  rcases List.mem_cons.1 (lastOpening_mem 1000000 0 s.readings) with hzero | hmem
  · exact hzero.le.trans (Nat.zero_le _)
  · have hsorted := (List.isChain_iff_pairwise.1 hclock).sublist hs.readings_sublist
    rw [reading_of_turn hturn] at hsorted
    exact (List.pairwise_append.1 hsorted).2.2 _ hmem _ (List.mem_singleton.2 rfl)

theorem Paced.openings_due (hs : s.Paced) (hturn : s.turn = some now)
    (hclock : s.times.IsChain (· ≤ ·)) (hdue : Due now s.prevUsec) :
    openings 1000000 0 (s.readings ++ [now.toNat]) =
      openings 1000000 0 s.readings ++ [now.toNat] := by
  rw [due_iff (hs.prevUsec_le hturn hclock)] at hdue
  rw [openings_snoc, ← hs.prevUsec_eq, if_pos hdue]

theorem Paced.openings_waited (hs : s.Paced) (hturn : s.turn = some now)
    (hclock : s.times.IsChain (· ≤ ·)) (hdue : ¬ Due now s.prevUsec) :
    openings 1000000 0 (s.readings ++ [now.toNat]) = openings 1000000 0 s.readings := by
  rw [due_iff (hs.prevUsec_le hturn hclock)] at hdue
  rw [openings_snoc, ← hs.prevUsec_eq, if_neg hdue, List.append_nil]

/-- The reading of a turn that ends joins those of the turns before. -/
theorem Paced.readings_endTurn (hs : s.Paced) (hturn : s.turn = some now) :
    ((s.endTurn now time).readings ++ []).Sublist (s.endTurn now time).times := by
  have hreadings := hs.readings_sublist
  rw [reading_of_turn hturn] at hreadings
  rw [List.append_nil]
  exact hreadings.trans (List.sublist_append_left ..)

theorem Paced.stamps_endTurn (hs : s.Paced) (now : UInt64) :
    (s.stamps ++ []).Sublist (s.endTurn now time).times := by
  rw [List.append_nil]
  exact ((List.sublist_append_left ..).trans hs.stamps_sublist).trans
    (List.sublist_append_left ..)

end Turn

theorem Paced.step (hs : s.times.IsChain (· ≤ ·) → s.Paced) (h : s.step P a = some s') :
    s'.times.IsChain (· ≤ ·) → s'.Paced := by
  cases step_spec h with
  | served ha hserve =>
      intro hclock
      obtain ⟨hreadings, hstamps, hprev, hlast, hexecuted, htaken⟩ := hs hclock
      exact ⟨hreadings, hstamps, hprev, hlast, hexecuted,
        htaken.trans (Service.step_grows ha hserve).1.symm⟩
  | worked =>
      intro hclock
      obtain ⟨hreadings, hstamps, hprev, hlast, hexecuted, htaken⟩ := hs hclock
      exact ⟨hreadings, hstamps, hprev, hlast, hexecuted, htaken⟩
  | @looked now hturn =>
      intro hclock
      obtain ⟨hreadings, hstamps, hprev, hlast, hexecuted, htaken⟩ := hs hclock.left_of_append
      have hnone : s.reading = [] := by
        rw [reading, hturn]
        rfl
      rw [hnone, List.append_nil] at hreadings hstamps
      exact ⟨hreadings.append (.refl _), hstamps.append (.refl _), hprev, hlast, hexecuted,
        htaken⟩
  | @waited now time hturn hdue =>
      intro hclock
      have hclock := hclock.left_of_append
      have hpaced := hs hclock
      have hopenings := hpaced.openings_waited hturn hclock hdue
      refine ⟨hpaced.readings_endTurn hturn, hpaced.stamps_endTurn now, ?_, ?_, ?_,
        hpaced.taken_eq⟩
      · rw [lastOpening, endTurn, hopenings]
        exact hpaced.prevUsec_eq
      · rw [endTurn, List.getLastD_concat]
        rw [due_iff (hpaced.prevUsec_le hturn hclock)] at hdue
        exact not_le.1 hdue
      · rw [endTurn, hopenings]
        exact hpaced.executed_sublist
  | @idled now time hturn hdue =>
      intro hclock
      have hclock := hclock.left_of_append
      have hpaced := hs hclock
      have hopenings := hpaced.openings_due hturn hclock hdue
      refine ⟨hpaced.readings_endTurn hturn, hpaced.stamps_endTurn now, ?_, ?_, ?_,
        hpaced.taken_eq⟩
      · rw [lastOpening, endTurn, hopenings, List.getLastD_concat]
      · rw [endTurn, List.getLastD_concat]
        exact Nat.lt_add_of_pos_right (by decide)
      · rw [endTurn, hopenings]
        exact hpaced.executed_sublist.trans (List.sublist_append_left ..)
  | @executed now time env ev events world hturn hdue =>
      intro hclock
      have hclock := hclock.left_of_append
      have hpaced := hs hclock
      have hopenings := hpaced.openings_due hturn hclock hdue
      refine ⟨hpaced.readings_endTurn hturn, ?_, ?_, ?_, ?_, ?_⟩
      · have hstamps := hpaced.stamps_sublist
        rw [reading_of_turn hturn] at hstamps
        have hlast := hstamps.append (.refl [time])
        simpa [stamps, reading, endTurn] using hlast
      · rw [lastOpening, endTurn, hopenings, List.getLastD_concat]
      · rw [endTurn, List.getLastD_concat]
        exact Nat.lt_add_of_pos_right (by decide)
      · rw [endTurn, hopenings, List.map_append]
        exact hpaced.executed_sublist.append (.refl _)
      · rw [List.map_append, hpaced.taken_eq]
        rfl

theorem start_paced : ({} : MainLoop).Paced := ⟨.slnil, .slnil, rfl, by decide, .slnil, rfl⟩

theorem run_paced {as : List MainAction} (h : run (step P) {} as = some s)
    (hclock : s.times.IsChain (· ≤ ·)) : s.Paced :=
  run_preserves (fun _ _ _ => Paced.step) (fun _ => start_paced) h hclock

/-- While the clock does not go back, `main` executes the commands of the queue in their
order and each once. It executes each after the reading of its turn, and of any two
executions the first is over before the turn of the second begins, and that turn begins a
second after the turn of the first at least, whatever the clients send. -/
theorem run_spaced {as : List MainAction} (h : run (step P) {} as = some s)
    (hclock : s.times.IsChain (· ≤ ·)) :
    s.executed.map Execution.event = s.service.taken ∧
      (∀ x ∈ s.executed, x.reading ≤ x.time) ∧
      s.executed.Pairwise fun x y => x.reading + 1000000 ≤ y.reading ∧ x.time ≤ y.reading := by
  have hs := run_paced h hclock
  have hreadings := (pairwise_openings 1000000 0 s.readings).sublist hs.executed_sublist
  have hstamps : s.stamps.Pairwise (· ≤ ·) := (List.isChain_iff_pairwise.1 hclock).sublist
    ((List.sublist_append_left ..).trans hs.stamps_sublist)
  obtain ⟨hown, horder⟩ := List.pairwise_flatMap.1 hstamps
  refine ⟨hs.taken_eq, fun x hx => ?_, ?_⟩
  · exact List.rel_of_pairwise_cons (hown x hx) (List.mem_singleton_self _)
  · refine (List.pairwise_map.1 hreadings).imp₂ (fun x y hreading htime => ⟨hreading, ?_⟩) horder
    exact htime x.time (by simp) y.reading (by simp)

/-- Two deletes are queued. The turn half a second after the first is too early for the
second, although its own end is not. -/
def twoDeletes : List MainAction :=
  [.accept ⟨some 5, true, true⟩, .recv 5 Sample.deleteLine.sent, .look 2000000,
    .recv 5 Sample.deleteLine.sent, .finish 2900000 (Sample.answers 1), .look 2950000,
    .finish 3050000 (Sample.answers 1), .look 3060000, .finish 3070000 (Sample.answers 1)]

theorem run_spaced_two : ∃ s, run (step Sample.platform) {} twoDeletes = some s ∧
    s.executed.map (fun x => (x.reading, x.time)) = [(2000000, 2900000), (3060000, 3070000)] ∧
    s.executed.map Execution.event = s.service.taken ∧
      (∀ x ∈ s.executed, x.reading ≤ x.time) ∧
      s.executed.Pairwise fun x y => x.reading + 1000000 ≤ y.reading ∧ x.time ≤ y.reading := by
  have hobserved : (run (step Sample.platform) {} twoDeletes).map
      (fun s => (s.executed.map (fun x => (x.reading, x.time)), s.times)) =
        some ([(2000000, 2900000), (3060000, 3070000)],
          [2000000, 2900000, 2950000, 3050000, 3060000, 3070000]) := by
    decide +kernel
  obtain ⟨s, hrun, hpair⟩ := Option.map_eq_some_iff.1 hobserved
  obtain ⟨hexecuted, htimes⟩ := Prod.mk.inj hpair
  exact ⟨s, hrun, hexecuted, run_spaced hrun (by rw [htimes]; decide)⟩

/-! ## Waiting commands are executed -/

/-- How often `main` has looked for a command. -/
def looks (s : MainLoop) : ℕ := (openings 1000000 0 s.readings).length

/-- What has happened since `s`: the commands that waited are still ahead of all others,
and each look has taken one of them while there was one. -/
structure Proceeds (s t : MainLoop) : Prop where
  paced : t.Paced
  queue_prefix : s.service.taken ++ s.service.events <+: t.service.taken ++ t.service.events
  taken_length : s.service.taken.length + min (t.looks - s.looks) s.service.events.length ≤
    t.service.taken.length

theorem Paced.proceeds (hs : s.Paced) : s.Proceeds s := by
  refine ⟨hs, List.prefix_refl _, ?_⟩
  rw [Nat.sub_self, Nat.zero_min, Nat.add_zero]

theorem Proceeds.step {t t' : MainLoop} (hs : t.times.IsChain (· ≤ ·) → s.Proceeds t)
    (h : t.step P a = some t') : t'.times.IsChain (· ≤ ·) → s.Proceeds t' := by
  intro hclock'
  have hpaced' := Paced.step (fun hclock => (hs hclock).paced) h hclock'
  cases step_spec h with
  | served ha hserve =>
      obtain ⟨-, hqueue, htaken⟩ := hs hclock'
      obtain ⟨htaken', hevents⟩ := Service.step_grows ha hserve
      refine ⟨hpaced', hqueue.trans ?_, ?_⟩
      · rw [htaken']
        exact (List.prefix_append_right_inj _).2 hevents
      · rw [htaken']
        exact htaken
  | worked =>
      obtain ⟨-, hqueue, htaken⟩ := hs hclock'
      exact ⟨hpaced', hqueue, htaken⟩
  | looked =>
      obtain ⟨-, hqueue, htaken⟩ := hs hclock'.left_of_append
      exact ⟨hpaced', hqueue, htaken⟩
  | @waited now time hturn hdue =>
      have hclock := hclock'.left_of_append
      obtain ⟨hpaced, hqueue, htaken⟩ := hs hclock
      refine ⟨hpaced', hqueue, ?_⟩
      rw [looks, endTurn, hpaced.openings_waited hturn hclock hdue]
      exact htaken
  | @idled now time hturn hdue hevents =>
      obtain ⟨-, hqueue, -⟩ := hs hclock'.left_of_append
      refine ⟨hpaced', hqueue, ?_⟩
      -- all that waited has been taken
      have hlength := hqueue.length_le
      rw [hevents, List.length_append, List.append_nil] at hlength
      exact (Nat.add_le_add_left (Nat.min_le_right ..) _).trans hlength
  | @executed now time env ev events world hturn hdue hevents =>
      have hclock := hclock'.left_of_append
      obtain ⟨hpaced, hqueue, htaken⟩ := hs hclock
      refine ⟨hpaced', ?_, ?_⟩
      · rw [hevents] at hqueue
        simpa using hqueue
      · rw [looks] at htaken
        rw [looks, endTurn, hpaced.openings_due hturn hclock hdue, List.length_append,
          List.length_append]
        simp only [List.length_singleton]
        omega

/-- No step takes back what the clock has shown. -/
theorem isChain_times_of_run {as : List MainAction} {t : MainLoop}
    (h : run (step P) s as = some t) (hclock : t.times.IsChain (· ≤ ·)) :
    s.times.IsChain (· ≤ ·) := by
  have hgrows : s.times <+: t.times := by
    refine run_preserves (I := fun t => s.times <+: t.times) (fun u a v hu hstep => ?_)
      (List.prefix_refl _) h
    refine hu.trans ?_
    cases step_spec hstep with
    | served => exact List.prefix_refl _
    | worked => exact List.prefix_refl _
    | looked => exact List.prefix_append ..
    | waited => exact List.prefix_append ..
    | idled => exact List.prefix_append ..
    | executed => exact List.prefix_append ..
  obtain ⟨later, hlater⟩ := hgrows
  rw [← hlater] at hclock
  exact hclock.left_of_append

theorem Paced.sorted_readings (hs : s.Paced) (hclock : s.times.IsChain (· ≤ ·)) :
    s.readings.Pairwise (· ≤ ·) :=
  (List.isChain_iff_pairwise.1 hclock).sublist
    ((List.sublist_append_left ..).trans hs.readings_sublist)

/-- A client that has sent a command is served: if the turns of the loop never begin more than
`δ` microseconds apart, then of the commands that wait at some time the first `k` have been
executed, in their order and before any that comes later, when a turn has ended that began
`k` times a second and `δ` after the last turn that had ended by then, whatever the clients
and the threads do meanwhile. -/
theorem run_response {as bs : List MainAction} {t : MainLoop} {δ k : ℕ} {later : List ℕ}
    (h : run (step P) {} as = some s) (h' : run (step P) s bs = some t)
    (hreadings : t.readings = s.readings ++ later) (hclock : t.times.IsChain (· ≤ ·))
    (hgaps : (s.readings.getLastD 0 :: later).IsChain fun a b => b ≤ a + δ)
    (hlong : s.readings.getLastD 0 + k * (1000000 + δ) ≤ t.readings.getLastD 0) :
    s.service.taken ++ s.service.events.take k <+: t.service.taken := by
  have hpaced := run_paced h (isChain_times_of_run h' hclock)
  have hproceeds : s.Proceeds t :=
    run_preserves (fun _ _ _ => Proceeds.step) (fun _ => hpaced.proceeds) h' hclock
  have hlooks : s.looks + k ≤ t.looks := by
    have hsorted : (0 :: s.readings).Pairwise (· ≤ ·) :=
      .cons (fun _ _ => Nat.zero_le _) (hpaced.sorted_readings (isChain_times_of_run h' hclock))
    have hlast := hpaced.last_lt
    rw [hpaced.prevUsec_eq] at hlast
    have hk : k ≤ (openings 1000000 (lastOpening 1000000 0 s.readings) later).length := by
      refine le_length_openings (by decide) hlast hgaps ?_
      have hsplit : t.readings.getLastD 0 = later.getLastD (s.readings.getLastD 0) := by
        rw [hreadings]
        simp [List.getLastD_eq_getLast?, List.getLast?_append]
      rw [← hsplit]
      exact (Nat.add_le_add_right (lastOpening_le hsorted) _).trans hlong
    rw [looks, looks, hreadings, openings_append, List.length_append]
    exact Nat.add_le_add_left hk _
  refine List.prefix_of_prefix_length_le (List.IsPrefix.trans ?_ hproceeds.queue_prefix)
    (List.prefix_append ..) ?_
  · exact (List.prefix_append_right_inj _).2 (List.take_prefix ..)
  · have htaken := hproceeds.taken_length
    rw [List.length_append, List.length_take]
    omega

/-- A turn without a command, and two deletes that wait after it. -/
def twoWaiting : List MainAction :=
  [.look 1000000, .finish 1010000 (Sample.answers 1), .accept ⟨some 5, true, true⟩,
    .recv 5 Sample.deleteLine.sent, .recv 5 Sample.deleteLine.sent]

/-- Turns at every half second. -/
def sixTurns : List MainAction :=
  [1500000, 2000000, 2500000, 3000000, 3500000, 4000000].flatMap fun now =>
    [.look now, .finish (now.toNat + 10000) (Sample.answers 1)]

theorem run_response_two : ∃ s t, run (step Sample.platform) {} twoWaiting = some s ∧
    run (step Sample.platform) s sixTurns = some t ∧ s.service.taken.length = 0 ∧
    s.service.events.length = 2 ∧
    s.service.taken ++ s.service.events.take 2 <+: t.service.taken := by
  have hobserved : (run (step Sample.platform) {} twoWaiting).map
      (fun s => (s.readings, s.service.taken.length, s.service.events.length,
        (run (step Sample.platform) s sixTurns).map fun t =>
          (t.readings, decide (t.times.IsChain (· ≤ ·))))) =
      some ([1000000], 0, 2,
        some ([1000000, 1500000, 2000000, 2500000, 3000000, 3500000, 4000000], true)) := by
    decide +kernel
  obtain ⟨s, hs, hobserved⟩ := Option.map_eq_some_iff.1 hobserved
  simp only [Prod.mk.injEq] at hobserved
  obtain ⟨hbefore, htaken, hevents, hobserved⟩ := hobserved
  obtain ⟨t, ht, hafter⟩ := Option.map_eq_some_iff.1 hobserved
  obtain ⟨hafter, hclock⟩ := Prod.mk.inj hafter
  refine ⟨s, t, hs, ht, htaken, hevents, @run_response _ s _ _ t 500000 2
    [1500000, 2000000, 2500000, 3000000, 3500000, 4000000] hs ht ?_ (of_decide_eq_true hclock)
    ?_ ?_⟩
  · rw [hafter, hbefore]
    rfl
  · rw [hbefore]
    decide
  · rw [hbefore, hafter]
    decide

end MainLoop

end Bres
