import Mathlib.Data.Nat.Notation

/-!
# A loop under a stop flag

A thread runs `while (!stop) { … }`. It looks at the flag, is in the body of its loop, or
has returned, and it is absent before it is started and after it has been joined.

The flag is looked at between two bodies only. So a thread that is told to stop can still
finish a body, and it has returned after the `remaining` steps of its own. A body ends if
what it calls returns; that is an input of the step, so a body that never returns is one
whose thread makes no further step.
-/

namespace Transition

inductive Worker where
  | absent
  | looking
  | working
  | returned
deriving DecidableEq

namespace Worker

variable {w w' : Worker} {stop returns : Bool}

/-- The next step of the thread. Where it is in a body, `returns` says whether what the body
calls returns. -/
def step (stop returns : Bool) : Worker → Option Worker
  | .looking => some (if stop then .returned else .working)
  | .working => if returns then some .looking else none
  | _ => none

/-- The steps that a thread takes once the flag is up. -/
def remaining : Worker → ℕ
  | .working => 2
  | .looking => 1
  | _ => 0

theorem remaining_le_two (w : Worker) : w.remaining ≤ 2 := by
  cases w <;> decide

theorem remaining_eq_zero_iff (h : w ≠ .absent) : w.remaining = 0 ↔ w = .returned := by
  cases w with
  | absent => exact absurd rfl h
  | looking => simp [remaining]
  | working => simp [remaining]
  | returned => simp [remaining]

theorem step_ne_absent (h : w.step stop returns = some w') : w ≠ .absent ∧ w' ≠ .absent := by
  cases w with
  | looking =>
      obtain rfl := Option.some.inj h
      cases stop <;> exact ⟨nofun, nofun⟩
  | working =>
      obtain ⟨-, h⟩ := Option.ite_none_right_eq_some.1 h
      obtain rfl := Option.some.inj h
      exact ⟨nofun, nofun⟩
  | absent => cases h
  | returned => cases h

theorem remaining_step (h : w.step true returns = some w') :
    w.remaining = w'.remaining + 1 := by
  cases w with
  | looking =>
      obtain rfl := Option.some.inj h
      rfl
  | working =>
      obtain ⟨-, h⟩ := Option.ite_none_right_eq_some.1 h
      obtain rfl := Option.some.inj h
      rfl
  | absent => cases h
  | returned => cases h

/-- A thread has returned, or it can make its next step as soon as the body returns that it is
in, if it is in one. -/
theorem returned_or_step (stop : Bool) (h : w ≠ .absent) :
    w = .returned ∨
      ∀ returns, (w = .working → returns = true) → (w.step stop returns).isSome := by
  cases w with
  | absent => exact absurd rfl h
  | looking => exact .inr fun _ _ => rfl
  | working =>
      refine .inr fun returns hreturns => ?_
      obtain rfl := hreturns rfl
      rfl
  | returned => exact .inl rfl

end Worker

end Transition
