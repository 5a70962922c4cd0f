import Mathlib.Algebra.BigOperators.Group.List.Basic
import Mathlib.Algebra.Order.Group.Abs
import Mathlib.Data.List.Induction

/-!
# Saturating sums

A sum that is clamped to `[-M, M]` after each summand. It never leaves that range, but
it forgets what it has cut off, so it depends on the order of the summands and is not
the clamped sum in general. It is where nothing is cut off before the last summand, and
it is the sum itself, in any order, where the absolute values together stay in the
range.
-/

namespace Signal

variable {α : Type*} [AddCommGroup α] [LinearOrder α] {M x : α} {l l' : List α}

def clampTo (M x : α) : α := max (-M) (min M x)

/-- The sum that is clamped after each summand. -/
def satSum (M : α) (l : List α) : α := l.foldl (fun s x => clampTo M (s + x)) 0

@[simp] theorem satSum_nil : satSum M ([] : List α) = 0 := rfl

theorem satSum_append_singleton (l : List α) (x : α) :
    satSum M (l ++ [x]) = clampTo M (satSum M l + x) := by
  rw [satSum, List.foldl_append, List.foldl_cons, List.foldl_nil, satSum]

variable [IsOrderedAddMonoid α]

theorem abs_clampTo_le (hM : 0 ≤ M) (x : α) : |clampTo M x| ≤ M := by
  have hneg : -M ≤ M := (neg_nonpos.2 hM).trans hM
  exact abs_le.2 ⟨le_max_left .., max_le hneg (min_le_left ..)⟩

theorem clampTo_of_abs_le (h : |x| ≤ M) : clampTo M x = x := by
  obtain ⟨hmin, hmax⟩ := abs_le.1 h
  rw [clampTo, min_eq_right hmax, max_eq_right hmin]

theorem abs_satSum_le (hM : 0 ≤ M) (l : List α) : |satSum M l| ≤ M := by
  induction l using List.reverseRecOn with
  | nil => rwa [satSum_nil, abs_zero]
  | append_singleton l x ih =>
      rw [satSum_append_singleton]
      exact abs_clampTo_le hM _

/-- If only the last summand can take the sum out of the range, then clamping after
each summand is clamping at the end. -/
theorem satSum_eq_clampTo_sum (hM : 0 ≤ M)
    (h : ∀ p, p <+: l → p ≠ l → |p.sum| ≤ M) : satSum M l = clampTo M l.sum := by
  induction l using List.reverseRecOn with
  | nil => exact (clampTo_of_abs_le (abs_zero.trans_le hM)).symm
  | append_singleton l x ih =>
      have hne : ∀ p, p <+: l → p ≠ l ++ [x] := by
        rintro p hp rfl
        have hlength := hp.length_le
        rw [List.length_append, List.length_singleton] at hlength
        exact Nat.not_succ_le_self _ hlength
      have hsum : |l.sum| ≤ M := h l (List.prefix_append ..) (hne l List.prefix_rfl)
      have hl : satSum M l = clampTo M l.sum := by
        apply ih
        intro p hp _
        exact h p (hp.trans (List.prefix_append ..)) (hne p hp)
      rw [satSum_append_singleton, hl, clampTo_of_abs_le hsum, List.sum_append,
        List.sum_singleton]

theorem abs_sum_le (l : List α) : |l.sum| ≤ (l.map abs).sum := by
  induction l with
  | nil => simp
  | cons x l ih =>
      rw [List.sum_cons, List.map_cons, List.sum_cons]
      exact (abs_add_le x l.sum).trans (add_le_add_right ih _)

theorem sum_map_abs_mono {p : List α} (h : p <+: l) :
    (p.map abs).sum ≤ (l.map abs).sum := by
  obtain ⟨q, rfl⟩ := h
  rw [List.map_append, List.sum_append]
  exact le_add_of_nonneg_right ((abs_nonneg _).trans (abs_sum_le q))

/-- Where the absolute values together stay in the range, nothing is cut off. -/
theorem satSum_eq_sum (h : (l.map abs).sum ≤ M) : satSum M l = l.sum := by
  have hall : ∀ p, p <+: l → |p.sum| ≤ M := fun p hp =>
    (abs_sum_le p).trans ((sum_map_abs_mono hp).trans h)
  have hM : 0 ≤ M := (abs_nonneg _).trans (hall l List.prefix_rfl)
  rw [satSum_eq_clampTo_sum hM fun p hp _ => hall p hp,
    clampTo_of_abs_le (hall l List.prefix_rfl)]

/-- Then the order of the summands does not matter. -/
theorem satSum_perm (hl : l.Perm l') (h : (l.map abs).sum ≤ M) :
    satSum M l' = satSum M l := by
  rw [satSum_eq_sum h, satSum_eq_sum ((hl.map abs).sum_eq.symm.trans_le h), hl.sum_eq]

end Signal
