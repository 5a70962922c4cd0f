import Mathlib.Data.List.Basic

/-!
# Runs of a partial step function

A system is given by `step : σ → α → Option σ`: the state after an action, and
`none` where the action is not possible. The actions carry every choice the
environment makes, so a list of actions determines a run.

`Always P s as` says that `P` holds of every state the run from `s` along `as`
visits, and `Along C s as` that every step of it is taken from a state and with
an action that `C` allows. The rules below derive the first from the second by
an invariant that the allowed steps keep, and go back from the first to the
second where a forbidden step breaks `P` at once.
-/

namespace Transition

variable {σ α : Type*}

/-- The state after a list of actions. -/
def run (step : σ → α → Option σ) : σ → List α → Option σ
  | s, [] => some s
  | s, a :: as => (step s a).bind fun t => run step t as

/-- `P` holds of every state visited. -/
def Always (step : σ → α → Option σ) (P : σ → Prop) : σ → List α → Prop
  | s, [] => P s
  | s, a :: as => P s ∧ ∀ t, step s a = some t → Always step P t as

/-- Every step is one that `C` allows. -/
def Along (step : σ → α → Option σ) (C : σ → α → Prop) : σ → List α → Prop
  | _, [] => True
  | s, a :: as => C s a ∧ ∀ t, step s a = some t → Along step C t as

/-- Some run leads from `s` to `t`. -/
def Reachable (step : σ → α → Option σ) (s t : σ) : Prop :=
  ∃ as, run step s as = some t

variable {step : σ → α → Option σ}

theorem run_cons_eq_some_iff {s u : σ} {a : α} {as : List α} :
    run step s (a :: as) = some u ↔
      ∃ t, step s a = some t ∧ run step t as = some u := by
  simp [run, Option.bind_eq_some_iff]

theorem run_append {s t : σ} {as bs : List α} (h : run step s as = some t) :
    run step s (as ++ bs) = run step t bs := by
  induction as generalizing s with
  | nil =>
      cases h
      rfl
  | cons a as ih =>
      obtain ⟨r, hr, hrun⟩ := run_cons_eq_some_iff.1 h
      rw [List.cons_append, run, hr]
      exact ih hrun

theorem run_append_eq_some_iff {s u : σ} {as bs : List α} :
    run step s (as ++ bs) = some u ↔ ∃ t, run step s as = some t ∧ run step t bs = some u := by
  induction as generalizing s with
  | nil => simp [run]
  | cons a as ih =>
      rw [List.cons_append, run_cons_eq_some_iff]
      simp only [ih, run_cons_eq_some_iff]
      constructor
      · rintro ⟨r, hr, t, ht, hu⟩
        exact ⟨t, ⟨r, hr, ht⟩, hu⟩
      · rintro ⟨t, ⟨r, hr, ht⟩, hu⟩
        exact ⟨r, hr, t, ht, hu⟩

theorem run_snoc {s t u : σ} {as : List α} {a : α} (h : run step s as = some t)
    (hstep : step t a = some u) : run step s (as ++ [a]) = some u := by
  rw [run_append h, run, hstep]
  rfl

theorem Reachable.refl (s : σ) : Reachable step s s := ⟨[], rfl⟩

/-- What every step preserves holds at the end of a run. -/
theorem run_preserves {I : σ → Prop}
    (hstep : ∀ s a t, I s → step s a = some t → I t) :
    ∀ {as : List α} {s t : σ}, I s → run step s as = some t → I t
  | [], _, _, hs, h => by
      cases h
      exact hs
  | a :: as, s, t, hs, h => by
      obtain ⟨r, hr, hrun⟩ := run_cons_eq_some_iff.1 h
      exact run_preserves hstep (hstep s a r hs hr) hrun

theorem Reachable.invariant {I : σ → Prop} {s t : σ}
    (hstep : ∀ s a t, I s → step s a = some t → I t) (hs : I s)
    (h : Reachable step s t) : I t := by
  obtain ⟨as, has⟩ := h
  exact run_preserves hstep hs has

theorem Always.head {P : σ → Prop} {s : σ} {as : List α} (h : Always step P s as) :
    P s := by
  cases as with
  | nil => exact h
  | cons a as => exact h.1

theorem Always.last {P : σ → Prop} :
    ∀ {as : List α} {s t : σ}, Always step P s as → run step s as = some t → P t
  | [], _, _, h, hrun => by
      cases hrun
      exact h
  | _ :: _, _, _, h, hrun => by
      obtain ⟨r, hr, hrun⟩ := run_cons_eq_some_iff.1 hrun
      exact (h.2 r hr).last hrun

theorem Always.mono {P Q : σ → Prop} (hPQ : ∀ s, P s → Q s) :
    ∀ {as : List α} {s : σ}, Always step P s as → Always step Q s as
  | [], s, h => hPQ s h
  | _ :: _, s, h => ⟨hPQ s h.1, fun t ht => (h.2 t ht).mono hPQ⟩

theorem Always.and {P Q : σ → Prop} :
    ∀ {as : List α} {s : σ}, Always step P s as → Always step Q s as →
      Always step (fun s => P s ∧ Q s) s as
  | [], _, hP, hQ => ⟨hP, hQ⟩
  | _ :: _, _, hP, hQ => ⟨⟨hP.1, hQ.1⟩, fun t ht => (hP.2 t ht).and (hQ.2 t ht)⟩

/-- Allowed are the steps whose actions are. -/
theorem Along.of_forall {C : α → Prop} :
    ∀ {as : List α} {s : σ}, (∀ a ∈ as, C a) → Along step (fun _ a => C a) s as
  | [], _, _ => trivial
  | _ :: _, _, h =>
      ⟨h _ (List.mem_cons_self ..), fun _ _ =>
        Along.of_forall fun b hb => h b (List.mem_cons_of_mem _ hb)⟩

/-- An invariant that the allowed steps keep holds of every state of a run that
takes allowed steps only. -/
theorem Along.always {C : σ → α → Prop} {I : σ → Prop}
    (hstep : ∀ s a t, I s → C s a → step s a = some t → I t) :
    ∀ {as : List α} {s : σ}, I s → Along step C s as → Always step I s as
  | [], _, hs, _ => hs
  | a :: _, s, hs, h =>
      ⟨hs, fun t ht => (h.2 t ht).always hstep (hstep s a t hs h.1 ht)⟩

/-- The same invariant, used to conclude something of every step taken. -/
theorem Along.along {C D : σ → α → Prop} {I : σ → Prop}
    (hstep : ∀ s a t, I s → C s a → step s a = some t → I t)
    (hD : ∀ s a, I s → C s a → D s a) :
    ∀ {as : List α} {s : σ}, I s → Along step C s as → Along step D s as
  | [], _, _, _ => trivial
  | a :: _, s, hs, h =>
      ⟨hD s a hs h.1, fun t ht => (h.2 t ht).along hstep hD (hstep s a t hs h.1 ht)⟩

/-- Where a step that `C` forbids breaks `P`, a run that keeps `P` throughout
takes allowed steps only. -/
theorem Always.along {C : σ → α → Prop} {I P : σ → Prop}
    (hI : ∀ s a t, I s → P s → step s a = some t → P t → I t)
    (hC : ∀ s a t, I s → P s → step s a = some t → P t → C s a) :
    ∀ {as : List α} {s u : σ}, I s → run step s as = some u →
      Always step P s as → Along step C s as
  | [], _, _, _, _, _ => trivial
  | a :: as, s, u, hs, hrun, h => by
      obtain ⟨t, ht, hrun⟩ := run_cons_eq_some_iff.1 hrun
      have hrest : Always step P t as := h.2 t ht
      have hallowed : C s a := hC s a t hs h.1 ht hrest.head
      have hI' : I t := hI s a t hs h.1 ht hrest.head
      refine ⟨hallowed, fun t' ht' => ?_⟩
      obtain rfl : t = t' := Option.some.inj (ht.symm.trans ht')
      exact Always.along hI hC hI' hrun hrest

end Transition
