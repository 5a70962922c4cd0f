import Mathlib.Data.List.Basic

/-!
# A queue that repeats

A `Feed` hands out a value whenever it is asked for one: the oldest value that
waits, or the one handed out last when none is waiting. `outputs f es` lists
what a feed hands out over a run of pushes and pulls.

`exists_repeats` says what such a run looks like from outside. The values come
in the order of their pushes, each as one block of consecutive repetitions, and
those not handed out yet are still waiting.
-/

namespace Transition

/-- The values that wait, and the value handed out last. -/
structure Feed (α : Type*) where
  waiting : List α
  last : α

namespace Feed

variable {α : Type*}

/-- A value comes in, or one is asked for. -/
inductive Event (α : Type*) where
  | push (a : α)
  | pull

/-- The feed after an event. After a pull, `last` is what was handed out. -/
def after (f : Feed α) : Event α → Feed α
  | .push a => { f with waiting := f.waiting ++ [a] }
  | .pull =>
      match f.waiting with
      | [] => f
      | a :: as => ⟨as, a⟩

/-- The feed after a run. -/
def afterAll (f : Feed α) (es : List (Event α)) : Feed α := es.foldl after f

/-- What a run hands out. -/
def outputs : Feed α → List (Event α) → List α
  | _, [] => []
  | f, .push a :: es => outputs (f.after (.push a)) es
  | f, .pull :: es => (f.after .pull).last :: outputs (f.after .pull) es

/-- The values that come in over a run. -/
def pushes : List (Event α) → List α
  | [] => []
  | .push a :: es => a :: pushes es
  | .pull :: es => pushes es

theorem waiting_after_pull (f : Feed α) : (f.after .pull).waiting = f.waiting.tail := by
  cases h : f.waiting <;> simp [after, h]

theorem afterAll_snoc (f : Feed α) (es : List (Event α)) (e : Event α) :
    f.afterAll (es ++ [e]) = (f.afterAll es).after e := by
  rw [afterAll, List.foldl_append]
  rfl

theorem outputs_snoc_push (f : Feed α) (es : List (Event α)) (a : α) :
    f.outputs (es ++ [.push a]) = f.outputs es := by
  induction es generalizing f with
  | nil => rfl
  | cons e es ih =>
      cases e with
      | push b => exact ih _
      | pull => rw [List.cons_append, outputs, outputs, ih]

theorem outputs_snoc_pull (f : Feed α) (es : List (Event α)) :
    f.outputs (es ++ [.pull]) = f.outputs es ++ [((f.afterAll es).after .pull).last] := by
  induction es generalizing f with
  | nil => rfl
  | cons e es ih =>
      cases e with
      | push b => exact ih _
      | pull => rw [List.cons_append, outputs, outputs, ih, List.cons_append]; rfl

theorem pushes_append (es es' : List (Event α)) : pushes (es ++ es') = pushes es ++ pushes es' := by
  induction es with
  | nil => rfl
  | cons e es ih =>
      cases e with
      | push a => exact congrArg (a :: ·) ih
      | pull => exact ih

/-- A run hands out the values that have come in, in order, each repeated some
number of times before the next one, and keeps the remaining ones. -/
theorem exists_repeats (f : Feed α) (es : List (Event α)) :
    ∃ (k : ℕ) (blocks : List (α × ℕ)),
      f.outputs es = List.replicate k f.last ++
        blocks.flatMap (fun block => List.replicate (block.2 + 1) block.1) ∧
      f.waiting ++ pushes es = blocks.map Prod.fst ++ (f.afterAll es).waiting := by
  induction es generalizing f with
  | nil => exact ⟨0, [], rfl, by simp [pushes, afterAll]⟩
  | cons e es ih =>
      obtain ⟨k, blocks, houtputs, hwaiting⟩ := ih (f.after e)
      cases e with
      | push a =>
          refine ⟨k, blocks, houtputs, ?_⟩
          rw [pushes, ← List.singleton_append, ← List.append_assoc]
          exact hwaiting
      | pull =>
          cases hf : f.waiting with
          | nil =>
              have hafter : f.after .pull = f := by simp [after, hf]
              rw [hafter] at houtputs hwaiting
              refine ⟨k + 1, blocks, ?_, ?_⟩
              · rw [outputs, hafter, houtputs]
                rfl
              · rw [← hf]
                simpa [afterAll, hafter, pushes] using hwaiting
          | cons a as =>
              have hafter : f.after .pull = ⟨as, a⟩ := by simp [after, hf]
              rw [hafter] at houtputs hwaiting
              refine ⟨0, (a, k) :: blocks, ?_, ?_⟩
              · rw [outputs, hafter, houtputs]
                rfl
              · simpa [afterAll, hafter, pushes] using hwaiting

end Feed

end Transition
