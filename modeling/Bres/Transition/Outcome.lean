import Mathlib.Logic.Function.Basic
import Mathlib.Data.List.Nodup

/-!
# Outcomes that keep their state

An imperative function that throws half way leaves behind everything it has
already written. `Outcome ε σ` records both endings with the state they leave:
`done s` is a normal return and `thrown e s` an exception `e`, and sequencing
stops at the first exception without undoing anything.

`sweep f l` runs a loop body over the labels of `l` in order. A `Family` is the
usual target of such a loop, one member for each label next to a component the
members share; `Family.visit` lets a body see one member and the shared
component only, and the two `sweep_visit` rules read off what a whole loop does
from what its body does to a single member.
-/

namespace Transition

/-- The two ways a computation over `σ` can end, each with the state it leaves. -/
inductive Outcome (ε σ : Type*) where
  | done (s : σ)
  | thrown (e : ε) (s : σ)

namespace Outcome

variable {ε σ τ : Type*}

/-- The state left behind, whichever way the computation ended. -/
def state : Outcome ε σ → σ
  | done s => s
  | thrown _ s => s

/-- A computation that returned normally. -/
def IsDone (o : Outcome ε σ) : Prop := ∃ s, o = done s

/-- The exception, if there is one. -/
def exception : Outcome ε σ → Option ε
  | done _ => none
  | thrown e _ => some e

/-- Sequencing: an exception stops the computation where it stands. -/
def bind (o : Outcome ε σ) (f : σ → Outcome ε σ) : Outcome ε σ :=
  match o with
  | done s => f s
  | thrown e s => thrown e s

/-- The same ending, with the state read through `f`. -/
def mapState (f : σ → τ) : Outcome ε σ → Outcome ε τ
  | done s => done (f s)
  | thrown e s => thrown e (f s)

@[simp] theorem state_done (s : σ) : (done s : Outcome ε σ).state = s := rfl

@[simp] theorem state_thrown (e : ε) (s : σ) : (thrown e s).state = s := rfl

@[simp] theorem done_bind (s : σ) (f : σ → Outcome ε σ) : (done s).bind f = f s := rfl

@[simp] theorem thrown_bind (e : ε) (s : σ) (f : σ → Outcome ε σ) :
    (thrown e s).bind f = thrown e s := rfl

@[simp] theorem mapState_done (f : σ → τ) (s : σ) :
    (done s : Outcome ε σ).mapState f = done (f s) := rfl

@[simp] theorem mapState_thrown (f : σ → τ) (e : ε) (s : σ) :
    (thrown e s).mapState f = thrown e (f s) := rfl

@[simp] theorem state_mapState (f : σ → τ) (o : Outcome ε σ) :
    (o.mapState f).state = f o.state := by
  cases o <;> rfl

@[simp] theorem isDone_done (s : σ) : (done s : Outcome ε σ).IsDone := ⟨s, rfl⟩

@[simp] theorem not_isDone_thrown (e : ε) (s : σ) : ¬ (thrown e s).IsDone := by
  rintro ⟨t, ht⟩
  cases ht

theorem not_isDone_of_exception {o : Outcome ε σ} {e : ε} (h : o.exception = some e) :
    ¬ o.IsDone := by
  rintro ⟨s, rfl⟩
  cases h

theorem bind_eq_done_iff (o : Outcome ε σ) (f : σ → Outcome ε σ) (t : σ) :
    o.bind f = done t ↔ ∃ s, o = done s ∧ f s = done t := by
  cases o with
  | done s => simp
  | thrown e s => simp

theorem isDone_bind_iff (o : Outcome ε σ) (f : σ → Outcome ε σ) :
    (o.bind f).IsDone ↔ ∃ s, o = done s ∧ (f s).IsDone := by
  cases o with
  | done s => simp
  | thrown e s => simp

/-- What a reading of the state says is not changed by a step that leaves it alone. -/
theorem state_bind_eq {f : σ → Outcome ε σ} (read : σ → τ)
    (h : ∀ s, read (f s).state = read s) (o : Outcome ε σ) :
    read (o.bind f).state = read o.state := by
  cases o with
  | done s => exact h s
  | thrown e s => rfl

@[simp] theorem isDone_mapState_iff (f : σ → τ) (o : Outcome ε σ) :
    (o.mapState f).IsDone ↔ o.IsDone := by
  cases o <;> simp

theorem mapState_eq_done_iff (f : σ → τ) (o : Outcome ε σ) (t : τ) :
    o.mapState f = done t ↔ ∃ s, o = done s ∧ f s = t := by
  cases o <;> simp

theorem bind_assoc (o : Outcome ε σ) (f g : σ → Outcome ε σ) :
    (o.bind f).bind g = o.bind fun s => (f s).bind g := by
  cases o <;> rfl

/-- A computation behind a check that throws. -/
theorem ite_thrown_eq_done_iff {p : Prop} [Decidable p] {e : ε} {s t : σ} {o : Outcome ε σ} :
    (if p then thrown e s else o) = done t ↔ ¬ p ∧ o = done t := by
  by_cases h : p <;> simp [h]

/-- A loop over `l`: the body is run at each label in turn. -/
def sweep {ι : Type*} (f : ι → σ → Outcome ε σ) : List ι → σ → Outcome ε σ
  | [], s => done s
  | i :: l, s => (f i s).bind (sweep f l)

@[simp] theorem sweep_nil {ι : Type*} (f : ι → σ → Outcome ε σ) (s : σ) :
    sweep f [] s = done s := rfl

@[simp] theorem sweep_cons {ι : Type*} (f : ι → σ → Outcome ε σ) (i : ι)
    (l : List ι) (s : σ) : sweep f (i :: l) s = (f i s).bind (sweep f l) := rfl

end Outcome

/-- The sequencing of `Except`, which keeps no state, ends normally where both
parts do. -/
theorem bind_eq_ok_iff {ε α β : Type} {x : Except ε α} {f : α → Except ε β} {b : β} :
    x >>= f = .ok b ↔ ∃ a, x = .ok a ∧ f a = .ok b := by
  cases x with
  | error e => simp [bind, Except.bind]
  | ok a => simp [bind, Except.bind]

theorem bind_eq_error_iff {ε α β : Type} {x : Except ε α} {f : α → Except ε β} {e : ε} :
    x >>= f = .error e ↔ x = .error e ∨ ∃ a, x = .ok a ∧ f a = .error e := by
  cases x with
  | error e => simp [bind, Except.bind]
  | ok a => simp [bind, Except.bind]

/-- A loop that may fail runs through where each turn does what a turn of a pure loop
does, up to a relation between the states. -/
theorem exists_foldlM_eq_ok {ε β γ κ : Type} {g : β → κ → Except ε β} {f : γ → κ → γ}
    {R : β → γ → Prop} :
    ∀ {ks : List κ} {b : β} {c : γ},
      (∀ k ∈ ks, ∀ b c, R b c → ∃ b', g b k = .ok b' ∧ R b' (f c k)) → R b c →
        ∃ b', ks.foldlM g b = .ok b' ∧ R b' (ks.foldl f c)
  | [], b, _, _, hb => ⟨b, rfl, hb⟩
  | k :: ks, b, c, hturn, hb => by
      obtain ⟨b₁, hfirst, hb₁⟩ := hturn k (List.mem_cons_self ..) b c hb
      obtain ⟨b₂, hrest, hb₂⟩ :=
        exists_foldlM_eq_ok (fun j hj => hturn j (List.mem_cons_of_mem k hj)) hb₁
      exact ⟨b₂, by rw [List.foldlM_cons]; exact bind_eq_ok_iff.2 ⟨b₁, hfirst, hrest⟩, hb₂⟩

/-- One member for each label, next to a component the members share. -/
structure Family (ι α γ : Type*) where
  slot : ι → α
  shared : γ

namespace Family

variable {ι α γ ε : Type*} [DecidableEq ι]

/-- Run a body that sees one member and the shared component. -/
def visit (p : Family ι α γ) (i : ι) (body : α → γ → Outcome ε (α × γ)) :
    Outcome ε (Family ι α γ) :=
  (body (p.slot i) p.shared).mapState fun r =>
    { slot := Function.update p.slot i r.1, shared := r.2 }

theorem visit_eq_done {p : Family ι α γ} {i : ι} {body : α → γ → Outcome ε (α × γ)}
    {a : α} {g : γ} (h : body (p.slot i) p.shared = .done (a, g)) :
    p.visit i body = .done { slot := Function.update p.slot i a, shared := g } := by
  simp [visit, h]

/-- What a visit leaves in its member, also when it throws. -/
@[simp] theorem visit_state_self (p : Family ι α γ) (i : ι)
    (body : α → γ → Outcome ε (α × γ)) :
    (p.visit i body).state.slot i = (body (p.slot i) p.shared).state.1 := by
  simp [visit]

theorem visit_eq_done_iff {p q : Family ι α γ} {i : ι} {body : α → γ → Outcome ε (α × γ)} :
    p.visit i body = .done q ↔
      ∃ a g, body (p.slot i) p.shared = .done (a, g) ∧
        { slot := Function.update p.slot i a, shared := g } = q := by
  unfold visit
  rw [Outcome.mapState_eq_done_iff]
  constructor
  · rintro ⟨⟨a, g⟩, hbody, hq⟩
    exact ⟨a, g, hbody, hq⟩
  · rintro ⟨a, g, hbody, hq⟩
    exact ⟨⟨a, g⟩, hbody, hq⟩

/-- A loop that returns has returned at each member it has met, and has left the others
alone. -/
theorem sweep_visit_eq_done {body : α → γ → Outcome ε (α × γ)} :
    ∀ {l : List ι} {p q : Family ι α γ}, l.Nodup →
      Outcome.sweep (fun i p => visit p i body) l p = .done q →
      (∀ i ∈ l, ∃ g g', body (p.slot i) g = .done (q.slot i, g')) ∧
        ∀ i, i ∉ l → q.slot i = p.slot i
  | [], p, q, _, h => by
      obtain rfl := Outcome.done.inj h
      exact ⟨List.forall_mem_nil _, fun _ _ => rfl⟩
  | i :: l, p, q, hl, h => by
      obtain ⟨hi, hl⟩ := List.nodup_cons.1 hl
      obtain ⟨p', hvisit, hsweep⟩ := (Outcome.bind_eq_done_iff ..).1 h
      obtain ⟨a, g, hbody, rfl⟩ := visit_eq_done_iff.1 hvisit
      obtain ⟨hmet, hother⟩ := sweep_visit_eq_done hl hsweep
      have hfirst : q.slot i = a := by
        rw [hother i hi]
        exact Function.update_self ..
      refine ⟨List.forall_mem_cons.2 ⟨⟨p.shared, g, ?_⟩, fun j hj => ?_⟩, fun j hj => ?_⟩
      · rw [hfirst]
        exact hbody
      · have hji : j ≠ i := ne_of_mem_of_not_mem hj hi
        simpa only [Function.update_of_ne hji] using hmet j hj
      · rw [List.mem_cons, not_or] at hj
        rw [hother j hj.2]
        exact Function.update_of_ne hj.1 ..

/-- A loop whose body leaves every member as it is. -/
theorem sweep_visit_unchanged {p : Family ι α γ} {body : α → γ → Outcome ε (α × γ)}
    {l : List ι} (h : ∀ i ∈ l, body (p.slot i) p.shared = .done (p.slot i, p.shared)) :
    Outcome.sweep (fun i p => visit p i body) l p = .done p := by
  induction l with
  | nil => rfl
  | cons i l ih =>
      have hvisit : p.visit i body = .done p := by
        rw [visit_eq_done (h i (List.mem_cons_self ..)), Function.update_eq_self]
      rw [Outcome.sweep_cons, hvisit, Outcome.done_bind]
      exact ih fun j hj => h j (List.mem_cons_of_mem i hj)

section Sweep

variable {body : α → γ → Outcome ε (α × γ)} {Fit : α → Prop} {fix : α → α}
  {release : α → γ → γ}

/-- A loop whose body returns normally on every member it meets transforms each
of them once. -/
theorem sweep_visit_done
    (hdone : ∀ a g, Fit a → body a g = .done (fix a, release a g)) :
    ∀ (l : List ι) (p : Family ι α γ), l.Nodup → (∀ i ∈ l, Fit (p.slot i)) →
      Outcome.sweep (fun i p => visit p i body) l p =
        .done { slot := fun i => if i ∈ l then fix (p.slot i) else p.slot i
                shared := l.foldl (fun g i => release (p.slot i) g) p.shared }
  | [], p, _, _ => by simp
  | i :: l, p, hl, hfit => by
      obtain ⟨hi, hl⟩ := List.nodup_cons.1 hl
      have hbody := hdone (p.slot i) p.shared (hfit i (List.mem_cons_self ..))
      have hkeep : ∀ j ∈ l, Function.update p.slot i (fix (p.slot i)) j = p.slot j := by
        intro j hj
        have hji : j ≠ i := ne_of_mem_of_not_mem hj hi
        exact Function.update_of_ne hji ..
      rw [Outcome.sweep_cons, visit_eq_done hbody, Outcome.done_bind,
        sweep_visit_done hdone l _ hl fun j hj => by
          simpa [hkeep j hj] using hfit j (List.mem_cons_of_mem _ hj)]
      congr 2
      · funext j
        by_cases hj : j = i
        · subst hj
          simp [hi]
        · simp [hj]
      · rw [List.foldl_cons]
        exact List.foldl_ext _ _ _ fun g j hj => by simp only [hkeep j hj]

/-- A loop that meets a member on which its body throws does not return. -/
theorem sweep_visit_not_done
    (hdone : ∀ a g, Fit a → body a g = .done (fix a, release a g)) :
    ∀ (l : List ι) (p : Family ι α γ), l.Nodup →
      (∀ i ∈ l, ¬ Fit (p.slot i) → ∀ g, ¬ (body (p.slot i) g).IsDone) →
      (∃ i ∈ l, ¬ Fit (p.slot i)) →
      ¬ (Outcome.sweep (fun i p => visit p i body) l p).IsDone
  | [], p, _, _, h => by simp at h
  | i :: l, p, hl, hthrown, h => by
      obtain ⟨hi, hl⟩ := List.nodup_cons.1 hl
      by_cases hfit : Fit (p.slot i)
      · have hkeep : ∀ j ∈ l, Function.update p.slot i (fix (p.slot i)) j = p.slot j := by
          intro j hj
          exact Function.update_of_ne (ne_of_mem_of_not_mem hj hi) ..
        obtain ⟨j, hj, hbad⟩ := h
        rcases List.mem_cons.1 hj with rfl | hj
        · exact absurd hfit hbad
        rw [Outcome.sweep_cons, visit_eq_done (hdone _ _ hfit), Outcome.done_bind]
        refine sweep_visit_not_done hdone l _ hl (fun k hk => ?_)
          ⟨j, hj, by simpa only [hkeep j hj] using hbad⟩
        simpa only [hkeep k hk] using hthrown k (List.mem_cons_of_mem _ hk)
      · rw [Outcome.sweep_cons, Outcome.isDone_bind_iff]
        rintro ⟨s, hs, -⟩
        have hvisit : (visit p i body).IsDone := ⟨s, hs⟩
        exact hthrown i (List.mem_cons_self ..) hfit p.shared (by simpa [visit] using hvisit)

end Sweep

end Family

end Transition
