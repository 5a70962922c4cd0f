import Mathlib.Algebra.Order.Group.Nat
import Mathlib.Data.List.Basic

/-!
# The backlog of a queue

A queue that gains an element with each arrival and loses one with each service, if there
is one. The backlog grows at least by the excess of the arrivals.

A run that is made of periods, each with the same number of arrivals and one service,
stays within one period's arrivals only if that number is at most one. With one arrival
and one service in each period, the order within a period matters: a service that comes
first finds the element of the period before, and from then on an arrival that comes
first finds it still there.
-/

namespace Transition

inductive Traffic where
  | arrival
  | service
deriving DecidableEq

def Traffic.apply (q : ℕ) : Traffic → ℕ
  | .arrival => q + 1
  | .service => q - 1

/-- The length of the queue behind `l`. -/
def backlog (q : ℕ) (l : List Traffic) : ℕ := l.foldl Traffic.apply q

/-- The queue holds at most `B` elements at every moment. -/
def Within (B q : ℕ) (l : List Traffic) : Prop := ∀ p, p <+: l → backlog q p ≤ B

/-- `k` arrivals and one service, in any order. -/
def Period (k : ℕ) (l : List Traffic) : Prop :=
  l.count .arrival = k ∧ l.count .service = 1

instance (k : ℕ) (l : List Traffic) : Decidable (Period k l) :=
  inferInstanceAs (Decidable (_ ∧ _))

/-- The service comes in front of the arrivals. -/
def ServiceFirst (l : List Traffic) : Prop := l.head? = some .service

instance (l : List Traffic) : Decidable (ServiceFirst l) :=
  inferInstanceAs (Decidable (_ = _))

/-! ## How the backlog moves -/

section Backlog

variable {B q k : ℕ} {l l' : List Traffic}

@[simp] theorem backlog_nil (q : ℕ) : backlog q [] = q := rfl

@[simp] theorem backlog_cons (q : ℕ) (t : Traffic) (l : List Traffic) :
    backlog q (t :: l) = backlog (t.apply q) l := rfl

theorem backlog_append (q : ℕ) (l l' : List Traffic) :
    backlog q (l ++ l') = backlog (backlog q l) l' := List.foldl_append

/-- What came and was not served is still there. -/
theorem add_count_arrival_le (q : ℕ) (l : List Traffic) :
    q + l.count .arrival ≤ backlog q l + l.count .service := by
  induction l generalizing q with
  | nil => simp
  | cons t l ih =>
      have hl := ih (t.apply q)
      cases t with
      | arrival =>
          rw [backlog_cons, List.count_cons_self, List.count_cons_of_ne (by decide)]
          simp only [Traffic.apply] at hl ⊢
          omega
      | service =>
          rw [backlog_cons, List.count_cons_self, List.count_cons_of_ne (by decide)]
          simp only [Traffic.apply] at hl ⊢
          omega

theorem backlog_le (q : ℕ) (l : List Traffic) : backlog q l ≤ q + l.count .arrival := by
  induction l generalizing q with
  | nil => simp
  | cons t l ih =>
      have hl := ih (t.apply q)
      cases t with
      | arrival =>
          rw [backlog_cons, List.count_cons_self]
          simp only [Traffic.apply] at hl ⊢
          omega
      | service =>
          rw [backlog_cons, List.count_cons_of_ne (by decide)]
          simp only [Traffic.apply] at hl ⊢
          omega

theorem within_nil_iff : Within B q [] ↔ q ≤ B := by
  simp [Within]

theorem within_cons_iff {t : Traffic} :
    Within B q (t :: l) ↔ q ≤ B ∧ Within B (t.apply q) l := by
  constructor
  · intro h
    exact ⟨h [] List.nil_prefix, fun p hp => h (t :: p) (List.cons_prefix_cons.2 ⟨rfl, hp⟩)⟩
  · rintro ⟨hq, h⟩ p hp
    cases p with
    | nil => exact hq
    | cons t' p =>
        obtain ⟨rfl, htail⟩ := List.cons_prefix_cons.1 hp
        exact h p htail

theorem within_append_iff :
    Within B q (l ++ l') ↔ Within B q l ∧ Within B (backlog q l) l' := by
  induction l generalizing q with
  | nil =>
      simp only [List.nil_append, within_nil_iff, backlog_nil, iff_and_self]
      exact fun h => h [] List.nil_prefix
  | cons t l ih => rw [List.cons_append, within_cons_iff, within_cons_iff, ih, and_assoc,
      backlog_cons]

end Backlog

/-! ## Periods -/

section Periods

variable {k : ℕ} {ps : List (List Traffic)}

/-- Each period adds its excess. -/
theorem length_mul_le_backlog (h : ∀ p ∈ ps, Period k p) (q : ℕ) :
    q + ps.length * k ≤ backlog q ps.flatten + ps.length := by
  induction ps generalizing q with
  | nil => simp
  | cons p ps ih =>
      obtain ⟨⟨harrival, hservice⟩, hps⟩ := List.forall_mem_cons.1 h
      have hp := add_count_arrival_le q p
      have hrest := ih hps (backlog q p)
      rw [harrival, hservice] at hp
      rw [List.flatten_cons, backlog_append, List.length_cons, Nat.add_one_mul]
      omega

theorem within_of_no_arrival (h : ∀ p ∈ ps, Period 0 p) : Within 0 0 ps.flatten := by
  induction ps with
  | nil => exact within_nil_iff.2 le_rfl
  | cons p ps ih =>
      obtain ⟨hp, hps⟩ := List.forall_mem_cons.1 h
      have hempty : ∀ l, l <+: p → backlog 0 l = 0 := by
        intro l hl
        have hcount : l.count .arrival ≤ p.count .arrival := hl.sublist.count_le _
        have hle := backlog_le 0 l
        rw [hp.1] at hcount
        omega
      rw [List.flatten_cons, within_append_iff, hempty p List.prefix_rfl]
      exact ⟨fun l hl => (hempty l hl).le, ih hps⟩

/-- Two or more arrivals in each period leave too much behind after three periods. -/
theorem not_within_of_two_le (h : ∀ p ∈ ps, Period k p) (hk : 2 ≤ k)
    (hlength : 3 ≤ ps.length) : ¬ Within k 0 ps.flatten := by
  intro hwithin
  have hsplit : ps = ps.take 3 ++ ps.drop 3 := (List.take_append_drop 3 ps).symm
  have hfirst : Within k 0 (ps.take 3).flatten := by
    rw [hsplit, List.flatten_append] at hwithin
    exact (within_append_iff.1 hwithin).1
  have hperiods : ∀ p ∈ ps.take 3, Period k p := fun p hp => h p (List.mem_of_mem_take hp)
  have hgrowth := length_mul_le_backlog hperiods 0
  have hbound := hfirst _ List.prefix_rfl
  rw [List.length_take, Nat.min_eq_left hlength] at hgrowth
  omega

/-- A period with one arrival has two orders. -/
theorem period_one_iff {l : List Traffic} :
    Period 1 l ↔ l = [.arrival, .service] ∨ l = [.service, .arrival] := by
  constructor
  · rintro ⟨harrival, hservice⟩
    match l with
    | [] => simp at harrival
    | [t] => cases t <;> simp at harrival hservice
    | [t, t'] => cases t <;> cases t' <;> simp at harrival hservice ⊢
    | t :: t' :: t'' :: l =>
        cases t <;> cases t' <;> cases t'' <;> simp at harrival hservice
  · rintro (rfl | rfl) <;> decide

theorem within_one_iff_of_one (h : ∀ p ∈ ps, Period 1 p) :
    Within 1 1 ps.flatten ↔ ∀ p ∈ ps, ServiceFirst p := by
  induction ps with
  | nil => simp [within_nil_iff]
  | cons p ps ih =>
      obtain ⟨hp, hps⟩ := List.forall_mem_cons.1 h
      rw [List.flatten_cons, within_append_iff, List.forall_mem_cons]
      rcases period_one_iff.1 hp with rfl | rfl
      · have hover : ¬ Within 1 1 [.arrival, .service] := fun hwithin =>
          absurd (hwithin [.arrival] (by simp)) (by decide)
        simp [hover, ServiceFirst]
      · have hunder : Within 1 1 [.service, .arrival] := by
          simp [within_cons_iff, within_nil_iff, Traffic.apply]
        rw [← ih hps]
        simp [hunder, ServiceFirst, Traffic.apply]

/-- With one arrival and one service in each period, the queue stays within one element
exactly if a period in which the service comes first is followed by such periods only. -/
theorem within_one_iff (h : ∀ p ∈ ps, Period 1 p) :
    Within 1 0 ps.flatten ↔ ps.Pairwise fun p p' => ServiceFirst p → ServiceFirst p' := by
  induction ps with
  | nil => simp [within_nil_iff]
  | cons p ps ih =>
      obtain ⟨hp, hps⟩ := List.forall_mem_cons.1 h
      rw [List.flatten_cons, within_append_iff, List.pairwise_cons]
      rcases period_one_iff.1 hp with rfl | rfl
      · have hunder : Within 1 0 [.arrival, .service] := by
          simp [within_cons_iff, within_nil_iff, Traffic.apply]
        rw [← ih hps]
        simp [hunder, ServiceFirst, Traffic.apply]
      · have hunder : Within 1 0 [.service, .arrival] := by
          simp [within_cons_iff, within_nil_iff, Traffic.apply]
        have hstart : backlog 0 [.service, .arrival] = 1 := rfl
        rw [hstart, within_one_iff_of_one hps]
        have hpairwise : (∀ p ∈ ps, ServiceFirst p) →
            ps.Pairwise fun p p' => ServiceFirst p → ServiceFirst p' := fun hall =>
          List.pairwise_of_forall_mem_list fun _ _ p' hp' _ => hall p' hp'
        simp only [hunder, true_and, ServiceFirst, List.head?_cons, forall_const]
        exact ⟨fun hall => ⟨hall, hpairwise hall⟩, And.left⟩

/-- The bound by the arrivals of one period, for any number of them. -/
theorem within_periods (h : ∀ p ∈ ps, Period k p)
    (hk : k = 0 ∨ k = 1 ∧ ps.Pairwise fun p p' => ServiceFirst p → ServiceFirst p') :
    Within k 0 ps.flatten := by
  obtain rfl | ⟨rfl, horder⟩ := hk
  · exact within_of_no_arrival h
  · exact (within_one_iff h).2 horder

theorem within_periods_iff (h : ∀ p ∈ ps, Period k p) (hlength : 3 ≤ ps.length) :
    Within k 0 ps.flatten ↔
      k = 0 ∨ k = 1 ∧ ps.Pairwise fun p p' => ServiceFirst p → ServiceFirst p' := by
  refine ⟨fun hwithin => ?_, within_periods h⟩
  obtain rfl | rfl | hk : k = 0 ∨ k = 1 ∨ 2 ≤ k := by omega
  · exact .inl rfl
  · exact .inr ⟨rfl, (within_one_iff h).1 hwithin⟩
  · exact absurd hwithin (not_within_of_two_le h hk hlength)

/-- In either order one element is left at most, and one more comes. -/
theorem within_two_of_one (h : ∀ p ∈ ps, Period 1 p) {q : ℕ} (hq : q ≤ 1) :
    Within 2 q ps.flatten := by
  induction ps generalizing q with
  | nil => exact within_nil_iff.2 (by omega)
  | cons p ps ih =>
      obtain ⟨hp, hps⟩ := List.forall_mem_cons.1 h
      rw [List.flatten_cons, within_append_iff]
      rcases period_one_iff.1 hp with rfl | rfl
      · refine ⟨?_, ih hps ?_⟩
        · simp [within_cons_iff, within_nil_iff, Traffic.apply]
          omega
        · simp [Traffic.apply]
          omega
      · refine ⟨?_, ih hps ?_⟩
        · simp [within_cons_iff, within_nil_iff, Traffic.apply]
          omega
        · simp [Traffic.apply]
          omega

end Periods

end Transition
