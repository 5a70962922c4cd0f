import Mathlib.Algebra.Order.Group.Nat
import Mathlib.Data.List.Chain
import Mathlib.Tactic.Ring

/-!
# A gate that opens at intervals

A loop reads the clock at each of its turns, and does something at a turn if at least
`period` has passed since it last did so. `openings period last ts` are the readings
among `ts` at which this happens, where it happened before at `last`.

Two openings are at least a period apart. If the readings are never more than `δ`
apart, each opening follows the one before within `period + δ`.
-/

namespace Transition

variable {period last : ℕ}

/-- The readings at which the gate opens. -/
def openings (period : ℕ) : ℕ → List ℕ → List ℕ
  | _, [] => []
  | last, t :: ts =>
      if last + period ≤ t then t :: openings period t ts else openings period last ts

/-- When the gate has last opened. -/
def lastOpening (period last : ℕ) (ts : List ℕ) : ℕ := (openings period last ts).getLastD last

theorem openings_append (ts us : List ℕ) :
    openings period last (ts ++ us) =
      openings period last ts ++ openings period (lastOpening period last ts) us := by
  induction ts generalizing last with
  | nil => rfl
  | cons t ts ih =>
      rw [List.cons_append, openings, lastOpening, openings]
      split
      · rw [ih, List.cons_append, lastOpening, List.getLastD_cons]
      · rw [ih, lastOpening]

/-- One more turn. -/
theorem openings_snoc (ts : List ℕ) (t : ℕ) :
    openings period last (ts ++ [t]) = openings period last ts ++
      if lastOpening period last ts + period ≤ t then [t] else [] := by
  rw [openings_append]
  rfl

theorem openings_sublist (period last : ℕ) (ts : List ℕ) :
    (openings period last ts).Sublist ts := by
  induction ts generalizing last with
  | nil => exact .slnil
  | cons t ts ih =>
      rw [openings]
      split
      · exact (ih t).cons_cons t
      · exact (ih last).cons t

theorem lastOpening_mem (period last : ℕ) (ts : List ℕ) :
    lastOpening period last ts ∈ last :: ts :=
  ((openings_sublist period last ts).cons_cons last).mem List.getLastD_mem_cons

theorem lastOpening_le {ts : List ℕ} (hsorted : (last :: ts).Pairwise (· ≤ ·)) :
    lastOpening period last ts ≤ ts.getLastD last := by
  rcases List.eq_nil_or_concat' ts with rfl | ⟨us, u, rfl⟩
  · exact le_rfl
  · rw [List.getLastD_concat]
    rw [← List.cons_append, List.pairwise_append] at hsorted
    have hmem := lastOpening_mem period last (us ++ [u])
    rw [← List.cons_append, List.mem_append, List.mem_singleton] at hmem
    rcases hmem with hmem | heq
    · exact hsorted.2.2 _ hmem u (List.mem_singleton.2 rfl)
    · exact heq.le

/-- The gate stays shut for a period. -/
theorem isChain_openings (period last : ℕ) (ts : List ℕ) :
    (last :: openings period last ts).IsChain fun a b => a + period ≤ b := by
  induction ts generalizing last with
  | nil => exact .singleton last
  | cons t ts ih =>
      rw [openings]
      split
      · rename_i hdue
        exact .cons_cons hdue (ih t)
      · exact ih last

theorem pairwise_openings (period last : ℕ) (ts : List ℕ) :
    (openings period last ts).Pairwise fun a b => a + period ≤ b := by
  have : IsTrans ℕ fun a b => a + period ≤ b := ⟨fun a b c hab hbc => by omega⟩
  exact (List.isChain_iff_pairwise.1 (isChain_openings period last ts)).of_cons

/-- Where the readings are at most `δ` apart, the gate opens again within `period + δ`. -/
theorem getLastD_lt {δ now : ℕ} {ts : List ℕ} (hperiod : 0 < period)
    (hnow : now < last + period)
    (hgaps : (now :: ts).IsChain fun a b => b ≤ a + δ) :
    ts.getLastD now < last + (openings period last ts).length * (period + δ) + period := by
  induction ts generalizing last now with
  | nil => simpa [openings] using hnow
  | cons t ts ih =>
      rw [List.isChain_cons_cons] at hgaps
      obtain ⟨hgap, hgaps⟩ := hgaps
      rw [List.getLastD_cons, openings]
      split
      · rename_i hdue
        have hrest := @ih t t (by omega) hgaps
        rw [List.length_cons, Nat.add_one_mul]
        omega
      · exact ih (by omega) hgaps

theorem le_length_openings {δ now k : ℕ} {ts : List ℕ} (hperiod : 0 < period)
    (hnow : now < last + period) (hgaps : (now :: ts).IsChain fun a b => b ≤ a + δ)
    (hlong : last + k * (period + δ) ≤ ts.getLastD now) :
    k ≤ (openings period last ts).length := by
  by_contra hfew
  have hlt := getLastD_lt hperiod hnow hgaps
  have hmul : ((openings period last ts).length + 1) * (period + δ) ≤ k * (period + δ) :=
    Nat.mul_le_mul_right _ (not_le.1 hfew)
  rw [Nat.add_one_mul] at hmul
  omega

end Transition
