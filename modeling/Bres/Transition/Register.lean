import Mathlib.Data.List.Basic

/-!
# A register and its reader

A writer stores values in a register one after another, and a reader looks at it now
and then. It sees the value stored last. `Glimpses stored seen` says that `seen` can be
what the reader has seen of the values in `stored`: some may be missed and some may be
seen more than once, but a value is never seen after a later one.
-/

namespace Transition

variable {α : Type*}

/-- What a reader can have seen of the values stored so far. -/
inductive Glimpses : List α → List α → Prop where
  | start : Glimpses [] []
  | store {stored seen : List α} (a : α) (h : Glimpses stored seen) :
      Glimpses (stored ++ [a]) seen
  | read {stored seen : List α} {a : α} (h : Glimpses stored seen)
      (hlast : stored.getLast? = some a) : Glimpses stored (seen ++ [a])

namespace Glimpses

variable {stored seen : List α}

/-- The reader never goes back: the places of what it has seen do not fall. -/
theorem exists_places (h : Glimpses stored seen) :
    ∃ ks : List ℕ, ks.Pairwise (· ≤ ·) ∧ (∀ k ∈ ks, k < stored.length) ∧
      seen.map some = ks.map fun k => stored[k]? := by
  induction h with
  | start => exact ⟨[], .nil, List.forall_mem_nil _, rfl⟩
  | @store stored seen a h ih =>
      obtain ⟨ks, hsorted, hlt, hseen⟩ := ih
      refine ⟨ks, hsorted, fun k hk => ?_, ?_⟩
      · rw [List.length_append]
        exact Nat.lt_succ_of_lt (hlt k hk)
      · rw [hseen]
        exact List.map_congr_left fun k hk => (List.getElem?_append_left (hlt k hk)).symm
  | @read stored seen a h hlast ih =>
      obtain ⟨ks, hsorted, hlt, hseen⟩ := ih
      have hpos : 0 < stored.length := List.length_pos_of_ne_nil (by
        rintro rfl
        cases hlast)
      have hle : ∀ k ∈ ks, k ≤ stored.length - 1 := fun k hk => Nat.le_sub_one_of_lt (hlt k hk)
      refine ⟨ks ++ [stored.length - 1], ?_, ?_, ?_⟩
      · refine List.pairwise_append.2 ⟨hsorted, List.pairwise_singleton .., ?_⟩
        intro k hk m hm
        rw [List.mem_singleton.1 hm]
        exact hle k hk
      · refine List.forall_mem_append.2 ⟨hlt, ?_⟩
        rw [List.forall_mem_singleton]
        omega
      · rw [List.map_append, List.map_append, hseen, List.map_singleton, List.map_singleton,
          ← hlast, List.getLast?_eq_getElem?]

end Glimpses

end Transition
