import Mathlib.Algebra.BigOperators.Group.Finset.Basic
import Mathlib.Algebra.Order.BigOperators.Group.Finset
import Mathlib.Data.List.Basic
import Mathlib.Logic.Function.Basic

/-!
# Merges of lists

Several parties append to one list, each its own elements in its own order.
`Merge parts l` says that `l` can have come about in this way, where `parts i` is
what party `i` has appended. The list then holds exactly the elements of the
parts, each part in order, and as often as the parts together.
-/

namespace Transition

variable {ι α β : Type*} [DecidableEq ι]

/-- The list is a merge of the parts. -/
inductive Merge : (ι → List α) → List α → Prop where
  | nil : Merge (fun _ => []) []
  | snoc {parts : ι → List α} {l : List α} (i : ι) (a : α) (h : Merge parts l) :
      Merge (Function.update parts i (parts i ++ [a])) (l ++ [a])

namespace Merge

variable {parts : ι → List α} {l : List α}

/-- A party appends several elements in a row. -/
theorem append (h : Merge parts l) (i : ι) (as : List α) :
    Merge (Function.update parts i (parts i ++ as)) (l ++ as) := by
  induction as generalizing parts l with
  | nil => simpa using h
  | cons a as ih =>
      have hrest := ih (h.snoc i a)
      rw [Function.update_idem, Function.update_self] at hrest
      simpa using hrest

/-- Each part is in the list, in its order. -/
theorem sublist (h : Merge parts l) (i : ι) : (parts i).Sublist l := by
  induction h with
  | nil => exact .slnil
  | @snoc parts l j a h ih =>
      by_cases hij : i = j
      · subst hij
        rw [Function.update_self]
        exact ih.append (.refl _)
      · rw [Function.update_of_ne hij]
        exact ih.trans (List.sublist_append_left ..)

/-- The list holds the elements of the parts and no others. -/
theorem mem_iff (h : Merge parts l) {a : α} : a ∈ l ↔ ∃ i, a ∈ parts i := by
  induction h with
  | nil => simp
  | @snoc parts l j b h ih =>
      rw [List.mem_append, ih, List.mem_singleton]
      constructor
      · rintro (⟨i, hi⟩ | rfl)
        · refine ⟨i, ?_⟩
          by_cases hij : i = j
          · subst hij
            rw [Function.update_self]
            exact List.mem_append_left _ hi
          · rwa [Function.update_of_ne hij]
        · exact ⟨j, by rw [Function.update_self]; simp⟩
      · rintro ⟨i, hi⟩
        by_cases hij : i = j
        · subst hij
          rw [Function.update_self, List.mem_append, List.mem_singleton] at hi
          exact hi.imp_left fun hi => ⟨i, hi⟩
        · rw [Function.update_of_ne hij] at hi
          exact .inl ⟨i, hi⟩

/-- The list has as many elements of a kind as the parts together. -/
theorem countP_eq (h : Merge parts l) (p : α → Bool) {s : Finset ι}
    (hs : ∀ i, i ∉ s → parts i = []) : l.countP p = ∑ i ∈ s, (parts i).countP p := by
  induction h with
  | nil => simp
  | @snoc parts l j a h ih =>
      have hj : j ∈ s := by
        by_contra hj
        simpa using hs j hj
      have hrest : ∀ i, i ∉ s → parts i = [] := by
        intro i hi
        have hij : i ≠ j := fun h => hi (h ▸ hj)
        simpa [Function.update_of_ne hij] using hs i hi
      rw [List.countP_append, ih hrest, ← Finset.add_sum_erase s _ hj,
        ← Finset.add_sum_erase s _ hj, Function.update_self, List.countP_append]
      have hothers : ∀ i ∈ s.erase j,
          (Function.update parts j (parts j ++ [a]) i).countP p = (parts i).countP p := by
        intro i hi
        rw [Function.update_of_ne (Finset.ne_of_mem_erase hi)]
      rw [Finset.sum_congr rfl hothers]
      omega

theorem length_eq (h : Merge parts l) {s : Finset ι} (hs : ∀ i, i ∉ s → parts i = []) :
    l.length = ∑ i ∈ s, (parts i).length := by
  simpa using h.countP_eq (fun _ => true) hs

end Merge

end Transition
