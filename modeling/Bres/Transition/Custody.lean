import Mathlib.Algebra.Ring.Nat
import Mathlib.Data.List.Nodup
import Mathlib.Data.List.Perm.Basic

/-!
# Tokens in custody

Tokens are handed around between places: queues, and the hands of the parties
that work on them. `copies places a` counts a token over all places, and
`InCustody places tokens` says that every token has exactly as many copies as
it has in `tokens`, so that a list of distinct tokens is spread over the places
with each token in one place only. A step that moves a token leaves all counts
alone, so keeping custody is a matter of adding up counts.
-/

namespace Transition

variable {τ : Type*} [DecidableEq τ]

/-- The number of copies of a token, over all places. -/
def copies (places : List (List τ)) (a : τ) : ℕ :=
  (places.map fun p => p.count a).sum

@[simp] theorem copies_nil (a : τ) : copies [] a = 0 := rfl

@[simp] theorem copies_cons (p : List τ) (ps : List (List τ)) (a : τ) :
    copies (p :: ps) a = p.count a + copies ps a := by
  simp [copies]

theorem copies_eq_count_flatten (places : List (List τ)) (a : τ) :
    copies places a = places.flatten.count a := by
  induction places with
  | nil => rfl
  | cons p ps ih => rw [copies_cons, List.flatten_cons, List.count_append, ih]

/-- The places hold the tokens, each as often as it is listed. -/
def InCustody (places : List (List τ)) (tokens : List τ) : Prop :=
  ∀ a, copies places a = tokens.count a

namespace InCustody

variable {places : List (List τ)} {tokens : List τ}

theorem perm (h : InCustody places tokens) : places.flatten.Perm tokens :=
  List.perm_iff_count.2 fun a => (copies_eq_count_flatten places a).symm.trans (h a)

/-- The places together hold as many tokens as there are. -/
theorem sum_length (h : InCustody places tokens) :
    (places.map List.length).sum = tokens.length := by
  rw [← List.length_flatten]
  exact h.perm.length_eq

/-- A token that is listed once has one copy. -/
theorem copies_eq_one (h : InCustody places tokens) (hnodup : tokens.Nodup) {a : τ}
    (ha : a ∈ tokens) : copies places a = 1 := by
  rw [h a]
  exact List.count_eq_one_of_mem hnodup ha

/-- Each of the first numbers is in one place, and no other number is in any. -/
theorem copies_eq_ite {places : List (List ℕ)} {n : ℕ} (h : InCustody places (List.range n))
    (a : ℕ) : copies places a = if a < n then 1 else 0 := by
  split
  · rename_i ha
    exact h.copies_eq_one List.nodup_range (List.mem_range.2 ha)
  · rename_i ha
    rw [h a]
    exact List.count_eq_zero_of_not_mem fun hmem => ha (List.mem_range.1 hmem)

/-- Of distinct tokens, the first one of a place is nowhere else. -/
theorem head_not_mem (ps : List (List τ)) {qs : List (List τ)} {a : τ} {as : List τ}
    (h : InCustody (ps ++ (a :: as) :: qs) tokens) (hnodup : tokens.Nodup) :
    ∀ p ∈ ps ++ as :: qs, a ∉ p := by
  have hflat := h.perm.nodup_iff.2 hnodup
  rw [List.flatten_append, List.flatten_cons, List.cons_append, List.nodup_middle] at hflat
  intro p hp ha
  apply (List.nodup_cons.1 hflat).1
  rw [← List.flatten_cons, ← List.flatten_append]
  exact List.mem_flatten.2 ⟨p, hp, ha⟩

theorem mem_tokens (h : InCustody places tokens) {p : List τ} (hp : p ∈ places) {a : τ}
    (ha : a ∈ p) : a ∈ tokens :=
  h.perm.mem_iff.1 (List.mem_flatten.2 ⟨p, hp, ha⟩)

end InCustody

/-- Taking the element at an index out of a list, or changing it there. -/
theorem exists_split_of_getElem? {α : Type*} :
    ∀ {l : List α} {k : ℕ} {a : α}, l[k]? = some a →
      ∃ l₁ l₂, l = l₁ ++ a :: l₂ ∧ l.eraseIdx k = l₁ ++ l₂ ∧
        ∀ b, l.set k b = l₁ ++ b :: l₂
  | c :: l, 0, a, h => by
      obtain rfl : c = a := by simpa using h
      exact ⟨[], l, rfl, rfl, fun _ => rfl⟩
  | c :: l, k + 1, a, h => by
      obtain ⟨l₁, l₂, rfl, herase, hset⟩ := exists_split_of_getElem? (l := l) (by simpa using h)
      refine ⟨c :: l₁, l₂, rfl, ?_, fun b => ?_⟩
      · rw [List.eraseIdx_cons_succ, herase]
        rfl
      · rw [List.set_cons_succ, hset]
        rfl

end Transition
