import Mathlib.Algebra.Order.Floor.Ring
import Mathlib.Order.Interval.Set.UnorderedInterval
import Mathlib.Tactic.Linarith

/-!
# Interpolation between whole numbers

A point on the way from `a` to `b`, cut to a whole number towards zero, lies between
`a` and `b`.
-/

namespace Signal

variable {K : Type*} [Field K] [LinearOrder K] [IsStrictOrderedRing K] [FloorRing K]

/-- The whole number next to `q` on the side of zero. -/
def truncate (q : K) : ℤ := if 0 ≤ q then ⌊q⌋ else ⌈q⌉

@[simp] theorem truncate_intCast (v : ℤ) : truncate (v : K) = v := by
  unfold truncate
  split <;> simp

theorem le_truncate {a : ℤ} {q : K} (h : (a : K) ≤ q) : a ≤ truncate q := by
  unfold truncate
  split
  · exact Int.le_floor.2 h
  · exact_mod_cast h.trans (Int.le_ceil q)

theorem truncate_le {b : ℤ} {q : K} (h : q ≤ (b : K)) : truncate q ≤ b := by
  unfold truncate
  split
  · exact_mod_cast (Int.floor_le q).trans h
  · exact Int.ceil_le.2 h

theorem truncate_mem_uIcc {a b : ℤ} {q : K} (h : q ∈ Set.uIcc (a : K) b) :
    truncate q ∈ Set.uIcc a b := by
  rcases Set.mem_uIcc.1 h with ⟨ha, hb⟩ | ⟨hb, ha⟩
  · exact Set.mem_uIcc.2 (.inl ⟨le_truncate ha, truncate_le hb⟩)
  · exact Set.mem_uIcc.2 (.inr ⟨le_truncate hb, truncate_le ha⟩)

omit [FloorRing K] in
theorem add_mul_sub_mem_uIcc (a b : K) {t : K} (ht : t ∈ Set.Icc (0 : K) 1) :
    a + t * (b - a) ∈ Set.uIcc a b := by
  obtain ⟨hmin, hmax⟩ := ht
  rcases le_total a b with h | h
  · have hpos : 0 ≤ t * (b - a) := mul_nonneg hmin (sub_nonneg.2 h)
    have hle : t * (b - a) ≤ b - a := mul_le_of_le_one_left (sub_nonneg.2 h) hmax
    exact Set.mem_uIcc.2 (.inl ⟨by linarith, by linarith⟩)
  · have hpos : 0 ≤ t * (a - b) := mul_nonneg hmin (sub_nonneg.2 h)
    have hle : t * (a - b) ≤ a - b := mul_le_of_le_one_left (sub_nonneg.2 h) hmax
    exact Set.mem_uIcc.2 (.inr ⟨by linarith, by linarith⟩)

/-- The whole number next to the point at `t` on the way from `a` to `b`. -/
def lerp (a b : ℤ) (t : K) : ℤ := truncate ((a : K) + t * (b - a))

theorem lerp_mem_uIcc (a b : ℤ) {t : K} (ht : t ∈ Set.Icc (0 : K) 1) :
    lerp a b t ∈ Set.uIcc a b :=
  truncate_mem_uIcc (add_mul_sub_mem_uIcc _ _ ht)

@[simp] theorem lerp_zero (a b : ℤ) : lerp a b (0 : K) = a := by
  simp [lerp]

@[simp] theorem lerp_one (a b : ℤ) : lerp a b (1 : K) = b := by
  simp [lerp]

end Signal
