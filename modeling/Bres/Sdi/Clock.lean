import Bres.Sdi.Fifo
import Mathlib.Data.List.Chain

/-!
# The display times of the SDI output

The display time of a frame is the frame counter times the frame duration. A
completion that reports its frame late or dropped advances the counter by two
before the next frame is scheduled, so it skips two slots; apart from that each
frame should be scheduled where the previous one ends, which is `OnTime`.

The constructor counts all the ten frames that it creates, also the five that it
does not schedule, so the first completion leaves a gap. From then on the frames
are on time until the counter, an `unsigned`, wraps around.
-/

namespace Bres

open Transition

/-- The slots that were skipped before the call. -/
def ScheduleCall.skips (call : ScheduleCall) : ℕ :=
  match call.answers with
  | some result => result.skips
  | none => 0

/-- Each frame is scheduled where the previous one ends, or later by the slots
that its completion skips. So the display times increase by a frame duration at
least. -/
def OnTime (duration : ℕ) (calls : List ScheduleCall) : Prop :=
  calls.IsChain fun call next =>
    next.displayTime = call.displayTime + (1 + next.skips) * duration

instance (duration : ℕ) (calls : List ScheduleCall) : Decidable (OnTime duration calls) :=
  inferInstanceAs (Decidable (List.IsChain _ _))

/-- The slots used or skipped by completions with these results. -/
def elapsed : List CompletionResult → ℕ
  | [] => 0
  | result :: results => result.skips + 1 + elapsed results

/-- The completion result that an action reports. -/
def OutputAction.result : OutputAction → Option CompletionResult
  | .setFrame .. => none
  | .scheduledFrameCompleted _ result _ => some result

/-- The display times of calls that answer completions with these results, from a
counter at `n` on. The counter is reduced where a time is taken from it. -/
inductive Timed (duration : ℕ) : ℕ → List CompletionResult → List ScheduleCall → Prop where
  | nil {n : ℕ} : Timed duration n [] []
  | cons {n : ℕ} {call : ScheduleCall} {result : CompletionResult}
      {results : List CompletionResult} {calls : List ScheduleCall}
      (hanswers : call.answers = some result)
      (htime : call.displayTime = (n + result.skips) % unsignedRange * duration)
      (hrest : Timed duration (n + result.skips + 1) results calls) :
      Timed duration n (result :: results) (call :: calls)

namespace Playout

/-- A step other than a completion schedules nothing. -/
theorem step_result_none {p q : Playout} {a : OutputAction} (h : p.step a = some q)
    (ha : a.result = none) :
    q.output.linkOutput.calls = p.output.linkOutput.calls ∧
      q.output.totalFramesScheduled = p.output.totalFramesScheduled ∧
      q.output.duration = p.output.duration := by
  cases step_spec h with
  | refused hcompleted => exact ⟨rfl, rfl, rfl⟩
  | accepted hcompleted hfill =>
      obtain ⟨old, pixels, -, -, rfl⟩ := LinkOutput.fill_eq_ok_iff.1 hfill
      exact ⟨rfl, rfl, rfl⟩
  | completed hback hnext => cases ha

/-- A completion schedules one frame at the slot that the counter has reached. -/
theorem step_result_some {p q : Playout} {a : OutputAction} {result : CompletionResult}
    (h : p.step a = some q) (ha : a.result = some result) :
    ∃ call, q.output.linkOutput.calls = p.output.linkOutput.calls ++ [call] ∧
      call.answers = some result ∧
      call.displayTime =
        (p.output.totalFramesScheduled + result.skips) % unsignedRange * p.output.duration ∧
      q.output.totalFramesScheduled =
        (p.output.totalFramesScheduled + result.skips + 1) % unsignedRange ∧
      q.output.duration = p.output.duration := by
  cases step_spec h with
  | refused hcompleted => cases ha
  | accepted hcompleted hfill => cases ha
  | completed hback hnext =>
      cases ha
      obtain ⟨l₁, call, l₂, -, -, rfl⟩ := Output.handBack_eq_some hback
      obtain ⟨-, fs, l, -, hfill, rfl⟩ | ⟨fs, pframe, last, -, -, -, rfl⟩ :=
        Output.nextFrame_eq_ok_iff.1 hnext
      · obtain ⟨old, pixels, -, -, rfl⟩ := LinkOutput.fill_eq_ok_iff.1 hfill
        exact ⟨_, rfl, rfl, rfl, Nat.mod_add_mod .., rfl⟩
      · exact ⟨_, rfl, rfl, rfl, Nat.mod_add_mod .., rfl⟩

/-- The calls of a run, with their display times. -/
theorem run_timed {as : List OutputAction} {p q : Playout} {n : ℕ}
    (hn : p.output.totalFramesScheduled = n % unsignedRange)
    (h : run step p as = some q) :
    ∃ calls, q.output.linkOutput.calls = p.output.linkOutput.calls ++ calls ∧
      Timed p.output.duration n (as.filterMap OutputAction.result) calls := by
  induction as generalizing p n with
  | nil =>
      cases h
      exact ⟨[], (List.append_nil _).symm, .nil⟩
  | cons a as ih =>
      obtain ⟨r, hr, hrun⟩ := run_cons_eq_some_iff.1 h
      cases ha : a.result with
      | none =>
          obtain ⟨hcalls, htotal, hduration⟩ := step_result_none hr ha
          rw [List.filterMap_cons_none ha, ← hcalls, ← hduration]
          exact ih (htotal.trans hn) hrun
      | some result =>
          obtain ⟨call, hcalls, hanswers, htime, htotal, hduration⟩ := step_result_some hr ha
          have hnext : r.output.totalFramesScheduled =
              (n + result.skips + 1) % unsignedRange := by
            rw [htotal, hn, Nat.add_assoc, Nat.mod_add_mod, Nat.add_assoc]
          obtain ⟨calls, hlog, htimed⟩ := ih hnext hrun
          refine ⟨call :: calls, ?_, ?_⟩
          · rw [hlog, hcalls, List.append_assoc]
            rfl
          · rw [List.filterMap_cons_some ha]
            refine .cons hanswers ?_ (hduration ▸ htimed)
            rw [htime, hn, Nat.mod_add_mod]

end Playout

theorem ScheduleCall.skips_of_answers {call : ScheduleCall} {result : CompletionResult}
    (h : call.answers = some result) : call.skips = result.skips := by
  rw [skips, h]

/-- The call after one at a slot of the counter is on time if the counter has not
wrapped before it. -/
theorem slot_mod_mul_eq_iff {duration m skips : ℕ} (hduration : 0 < duration) :
    (m + 1 + skips) % unsignedRange * duration = m * duration + (1 + skips) * duration ↔
      m + 1 + skips < unsignedRange := by
  rw [← Nat.add_mul, ← Nat.add_assoc, Nat.mul_left_inj hduration.ne']
  exact Nat.mod_eq_iff_lt (Nat.ne_of_gt (by decide))

/-- The calls of completions are on time as long as the counter does not wrap. -/
theorem Timed.onTime_iff {duration n : ℕ} (hduration : 0 < duration)
    {results : List CompletionResult} {result : CompletionResult} {calls : List ScheduleCall}
    (h : Timed duration n (result :: results) calls)
    (hn : n + result.skips < unsignedRange) :
    OnTime duration calls ↔ n + elapsed (result :: results) ≤ unsignedRange := by
  induction results generalizing n result calls with
  | nil =>
      cases h with
      | @cons _ call _ _ _ hanswers htime hrest =>
          cases hrest
          have hsingle : OnTime duration [call] := List.isChain_singleton call
          simp only [hsingle, elapsed, true_iff]
          omega
  | cons next results ih =>
      cases h with
      | @cons _ call _ _ _ hanswers htime hrest =>
          have hiff := ih hrest
          cases hrest with
          | @cons _ call' _ _ calls hanswers' htime' hrest' =>
              have hpair : OnTime duration (call :: call' :: calls) ↔
                  n + result.skips + 1 + next.skips < unsignedRange ∧
                    OnTime duration (call' :: calls) := by
                rw [OnTime, List.isChain_cons_cons, htime, htime',
                  call'.skips_of_answers hanswers', Nat.mod_eq_of_lt hn,
                  slot_mod_mul_eq_iff hduration]
                rfl
              rw [hpair]
              constructor
              · rintro ⟨hlt, hchain⟩
                have hle := (hiff hlt).1 hchain
                simp only [elapsed] at hle ⊢
                omega
              · intro hle
                have hlt : n + result.skips + 1 + next.skips < unsignedRange := by
                  simp only [elapsed] at hle
                  omega
                refine ⟨hlt, (hiff hlt).2 ?_⟩
                simp only [elapsed] at hle ⊢
                omega

/-- The five calls of the constructor. -/
def DisplayMode.prerolled (mode : DisplayMode) : List ScheduleCall :=
  (List.range 5).map fun i => ⟨i, i * mode.duration, mode.white, none⟩

theorem DisplayMode.prerolled_onTime (mode : DisplayMode) :
    OnTime mode.duration mode.prerolled := by
  simp [OnTime, prerolled, List.range_succ, ScheduleCall.skips]
  omega

namespace Playout

variable {mode : DisplayMode} {link : Link} {as : List OutputAction} {p : Playout}

/-- The display times of an output are without a gap exactly in the runs that have
no completion: the constructor counts ten frames and schedules five, so the first
completion leaves the slots five to nine empty. The frames that completions
schedule follow each other without a gap as long as the frame counter, which
stands at ten before the first of them, stays below `2 ^ 32`. -/
theorem run_onTime_iff (h : run step (start link mode) as = some p) :
    (OnTime mode.duration p.output.linkOutput.calls ↔
        as.filterMap OutputAction.result = []) ∧
      (OnTime mode.duration (p.output.linkOutput.calls.drop 5) ↔
        10 + elapsed (as.filterMap OutputAction.result) ≤ unsignedRange) := by
  obtain ⟨calls, hcalls, htimed⟩ := run_timed (n := 10) rfl h
  have hstart : (start link mode).output.linkOutput.calls = mode.prerolled := rfl
  have hlength : mode.prerolled.length = 5 := rfl
  have hdrop : p.output.linkOutput.calls.drop 5 = calls := by
    rw [hcalls, hstart, ← hlength, List.drop_left]
  rw [hdrop, hcalls, hstart]
  change Timed mode.duration 10 _ calls at htimed
  cases hresults : as.filterMap OutputAction.result with
  | nil =>
      rw [hresults] at htimed
      cases htimed
      have hnil : OnTime mode.duration [] := List.isChain_nil
      rw [List.append_nil]
      exact ⟨iff_of_true mode.prerolled_onTime rfl, iff_of_true hnil (by decide)⟩
  | cons result results =>
      rw [hresults] at htimed
      have hlt : 10 + result.skips < unsignedRange := by
        cases result <;> decide
      refine ⟨iff_of_false (fun hchain => ?_) (List.cons_ne_nil result results),
        htimed.onTime_iff mode.duration_pos hlt⟩
      cases htimed with
      | @cons _ call _ _ calls hanswers htime hrest =>
          have hgap := (List.isChain_append.1 hchain).2.2
            ⟨4, 4 * mode.duration, mode.white, none⟩ rfl call rfl
          rw [htime, call.skips_of_answers hanswers, Nat.mod_eq_of_lt hlt, ← Nat.add_mul,
            Nat.mul_left_inj mode.duration_pos.ne'] at hgap
          omega

/-- One picture is set, and no frame has been handed back yet. -/
theorem run_onTime_iff_preroll :
    ∃ p, run step (start 0 .pixel) [.setFrame [1, 2, 3, 4] 4 1 1] = some p ∧
      OnTime 1001 p.output.linkOutput.calls := by
  obtain ⟨p, hp⟩ : ∃ p, run step (start 0 .pixel) [.setFrame [1, 2, 3, 4] 4 1 1] = some p :=
    ⟨_, rfl⟩
  exact ⟨p, hp, (run_onTime_iff hp).1.2 rfl⟩

/-- The first completion, which is neither late nor dropped, is scheduled at slot
ten, right after slot four. -/
theorem run_first_completion_gap :
    ∃ p, run step (start 0 .pixel) [.scheduledFrameCompleted 0 .completed true] = some p ∧
      p.output.linkOutput.calls.map ScheduleCall.displayTime =
        [0, 1001, 2002, 3003, 4004, 10010] ∧
      ¬ OnTime 1001 p.output.linkOutput.calls :=
  ⟨_, rfl, rfl, by decide⟩

end Playout

end Bres
