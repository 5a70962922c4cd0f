import Mathlib.Data.List.Basic
import Mathlib.Logic.Equiv.Basic
import Mathlib.Tactic.Ring

/-!
# Turning a buffer of rows upside down

A buffer is a function on positions. Two ranges are swapped cell by cell, and a buffer
of `h` rows is turned upside down by swapping each row of the first half with its
counterpart in the second. The rows that a turn swaps are not met again, so in the end
row `r` holds what row `h - 1 - r` held.
-/

namespace Memory

variable {α : Type*}

/-- `std::swap` of the cells at `i` and `j`. -/
def swapCells (i j : ℕ) (f : ℕ → α) : ℕ → α := f ∘ Equiv.swap i j

/-- `std::swap_ranges`: the cells from `first` up to `last` and those from `first2` on. -/
def swapRanges (first last first2 : ℕ) (f : ℕ → α) : ℕ → α :=
  (List.range (last - first)).foldl (fun f k => swapCells (first + k) (first2 + k) f) f

/-- A row of `w` cells is swapped with its counterpart among `h` rows. -/
def swapRow (w h : ℕ) (f : ℕ → α) (line : ℕ) : ℕ → α :=
  swapRanges (w * line) (w * (line + 1)) (w * (h - line - 1)) f

/-- The rows of the first half are swapped one after the other. -/
def reverseRows (w h : ℕ) (f : ℕ → α) : ℕ → α :=
  (List.range (h >>> 1)).foldl (swapRow w h) f

/-- Two ranges that do not meet trade their cells. -/
theorem foldl_swapCells {first first2 n : ℕ} (h : first + n ≤ first2) (f : ℕ → α) (i : ℕ) :
    (List.range n).foldl (fun f k => swapCells (first + k) (first2 + k) f) f i =
      if first ≤ i ∧ i < first + n then f (first2 + (i - first))
      else if first2 ≤ i ∧ i < first2 + n then f (first + (i - first2))
      else f i := by
  induction n generalizing i with
  | zero => rw [if_neg (by omega), if_neg (by omega), List.range_zero, List.foldl_nil]
  | succ n ih =>
      rw [List.range_succ, List.foldl_append, List.foldl_cons, List.foldl_nil, swapCells,
        Function.comp_apply, ih (by omega)]
      by_cases hfirst : i = first + n
      · rw [hfirst, Equiv.swap_apply_left, if_neg (by omega), if_neg (by omega),
          if_pos (by omega)]
        congr 1
        omega
      · by_cases hsecond : i = first2 + n
        · rw [hsecond, Equiv.swap_apply_right, if_neg (by omega), if_neg (by omega),
            if_neg (by omega), if_pos (by omega)]
          congr 1
          omega
        · rw [Equiv.swap_apply_of_ne_of_ne hfirst hsecond]
          congr 1
          · simp only [eq_iff_iff]
            omega
          · congr 1
            simp only [eq_iff_iff]
            omega

/-- The cells of a row are those whose position it divides. -/
theorem mul_add_mem_row_iff {w r line o : ℕ} (ho : o < w) :
    (w * line ≤ w * r + o ∧ w * r + o < w * line + w) ↔ r = line := by
  have hdiv : (w * r + o) / w = r := by
    rw [Nat.mul_add_div (by omega), Nat.div_eq_of_lt ho, Nat.add_zero]
  conv_rhs => rw [← hdiv]
  rw [Nat.div_eq_iff (by omega)]
  have hcomm : line * w = w * line := Nat.mul_comm line w
  omega

/-- The two rows of a turn lie one behind the other. -/
theorem rows_apart {w h line : ℕ} (hline : 2 * line + 1 < h) :
    w * line + w ≤ w * (h - line - 1) := by
  rw [← Nat.mul_succ]
  exact Nat.mul_le_mul_left w (by omega)

/-- The second row of a turn ends inside the buffer. -/
theorem row_le {w h line : ℕ} (hline : line < h) : w * (h - line - 1) + w ≤ w * h := by
  rw [← Nat.mul_succ]
  exact Nat.mul_le_mul_left w (by omega)

/-- A turn swaps two rows and leaves the others alone. -/
theorem swapRow_apply {w h line o : ℕ} (hline : 2 * line + 1 < h) (ho : o < w) (f : ℕ → α)
    (r : ℕ) :
    swapRow w h f line (w * r + o) =
      if r = line then f (w * (h - line - 1) + o)
      else if r = h - line - 1 then f (w * line + o)
      else f (w * r + o) := by
  have hwidth : w * (line + 1) - w * line = w := by
    rw [Nat.mul_succ, Nat.add_sub_cancel_left]
  rw [swapRow, swapRanges, hwidth, foldl_swapCells (rows_apart hline)]
  simp only [mul_add_mem_row_iff ho]
  by_cases hfirst : r = line
  · rw [if_pos hfirst, if_pos hfirst, hfirst, Nat.add_sub_cancel_left]
  · rw [if_neg hfirst, if_neg hfirst]
    by_cases hsecond : r = h - line - 1
    · rw [if_pos hsecond, if_pos hsecond, hsecond, Nat.add_sub_cancel_left]
    · rw [if_neg hsecond, if_neg hsecond]

/-- After `n` turns the outer rows are in their places, and the inner ones are untouched. -/
theorem foldl_swapRow_apply {w h n o : ℕ} (hn : 2 * n ≤ h) (ho : o < w) (f : ℕ → α) {r : ℕ}
    (hr : r < h) :
    (List.range n).foldl (swapRow w h) f (w * r + o) =
      if r < n ∨ h - n ≤ r then f (w * (h - 1 - r) + o) else f (w * r + o) := by
  induction n generalizing r with
  | zero => rw [if_neg (by omega), List.range_zero, List.foldl_nil]
  | succ n ih =>
      rw [List.range_succ, List.foldl_append, List.foldl_cons, List.foldl_nil,
        swapRow_apply (by omega) ho]
      have hmirror : h - 1 - n = h - n - 1 := by omega
      by_cases hfirst : r = n
      · rw [if_pos hfirst, ih (by omega) (by omega), if_neg (by omega), if_pos (by omega),
          hfirst, hmirror]
      · rw [if_neg hfirst]
        by_cases hsecond : r = h - n - 1
        · have hback : h - 1 - r = n := by omega
          rw [if_pos hsecond, ih (by omega) (by omega), if_neg (by omega),
            if_pos (by omega), hback]
        · rw [if_neg hsecond, ih (by omega) hr]
          congr 1
          simp only [eq_iff_iff]
          omega

/-- The rows come out in the opposite order. -/
theorem reverseRows_apply {w h r o : ℕ} (hr : r < h) (ho : o < w) (f : ℕ → α) :
    reverseRows w h f (w * r + o) = f (w * (h - 1 - r) + o) := by
  have hhalf : h >>> 1 = h / 2 := Nat.shiftRight_one h
  rw [reverseRows, hhalf, foldl_swapRow_apply (by omega) ho f hr]
  by_cases houter : r < h / 2 ∨ h - h / 2 ≤ r
  · rw [if_pos houter]
  · -- the middle row of an odd number of rows is its own counterpart
    have hmiddle : h - 1 - r = r := by omega
    rw [if_neg houter, hmiddle]

/-- Nothing behind the rows is touched. -/
theorem reverseRows_of_le {w h i : ℕ} (hi : w * h ≤ i) (f : ℕ → α) :
    reverseRows w h f i = f i := by
  have hturns : ∀ n, 2 * n ≤ h → (List.range n).foldl (swapRow w h) f i = f i := by
    intro n
    induction n with
    | zero => exact fun _ => rfl
    | succ n ih =>
        intro hn
        have hapart : w * n + w ≤ w * (h - n - 1) := rows_apart (by omega)
        have hinside : w * (h - n - 1) + w ≤ w * h := row_le (by omega)
        have hwidth : w * (n + 1) - w * n = w := by
          rw [Nat.mul_succ, Nat.add_sub_cancel_left]
        rw [List.range_succ, List.foldl_append, List.foldl_cons, List.foldl_nil, swapRow,
          swapRanges, hwidth, foldl_swapCells hapart, if_neg (by omega), if_neg (by omega),
          ih (by omega)]
  exact hturns (h >>> 1) (by rw [Nat.shiftRight_one]; omega)

/-- Turned upside down twice, a buffer is as it was. -/
theorem reverseRows_reverseRows (w h : ℕ) (f : ℕ → α) :
    reverseRows w h (reverseRows w h f) = f := by
  funext i
  by_cases hi : w * h ≤ i
  · rw [reverseRows_of_le hi, reverseRows_of_le hi]
  · have hrow : i / w < h := Nat.div_lt_of_lt_mul (Nat.lt_of_not_le hi)
    have hw : 0 < w := Nat.pos_of_ne_zero fun hw => hi (by simp [hw])
    have hsplit : w * (i / w) + i % w = i := Nat.div_add_mod i w
    have hback : h - 1 - (h - 1 - i / w) = i / w :=
      Nat.sub_sub_self (Nat.le_sub_one_of_lt hrow)
    rw [← hsplit, reverseRows_apply hrow (Nat.mod_lt i hw),
      reverseRows_apply (Nat.sub_one_sub_lt_of_lt hrow) (Nat.mod_lt i hw), hback]

end Memory
