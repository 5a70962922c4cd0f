import Mathlib.Data.Fin.Basic
import Mathlib.Data.Fin.Tuple.Basic
import Mathlib.Logic.Function.Basic

/-!
# Tables of numbered places

A place of a table holds an entry or is free. A new entry goes into the first free place,
or nowhere if there is none, and an entry stays in its place until it is erased. The
entries have keys, and two of them may share one: `erase` takes away all entries under a
key, and `modify` changes the first of them.

As long as no two entries share a key, the places do not matter, and the table is a map
from keys to entries.
-/

namespace Transition

abbrev Table (n : ℕ) (α : Type*) := Fin n → Option α

namespace Table

variable {n : ℕ} {α κ : Type*} [DecidableEq κ]

def empty : Table n α := fun _ => none

/-- The first free place. -/
def free? (t : Table n α) : Option (Fin n) := Fin.find? fun i => (t i).isNone

def insert (a : α) (t : Table n α) : Table n α :=
  match t.free? with
  | none => t
  | some i => Function.update t i (some a)

def erase (key : α → κ) (k : κ) (t : Table n α) : Table n α :=
  fun i => (t i).filter fun a => key a ≠ k

/-- The first place of an entry under the key. -/
def place? (key : α → κ) (k : κ) (t : Table n α) : Option (Fin n) :=
  Fin.find? fun i => (t i).map key = some k

def modify (key : α → κ) (k : κ) (f : α → α) (t : Table n α) : Table n α :=
  match t.place? key k with
  | none => t
  | some i => Function.update t i ((t i).map f)

variable {t : Table n α} {key : α → κ} {k : κ} {i : Fin n} {a : α} {f : α → α}

theorem free?_eq_some_iff : t.free? = some i ↔ t i = none ∧ ∀ j < i, t j ≠ none := by
  simp [free?, Option.ne_none_iff_isSome]

theorem free?_eq_none_iff : t.free? = none ↔ ∀ i, t i ≠ none := by
  simp [free?, Option.ne_none_iff_isSome]

theorem erase_eq_some_iff : t.erase key k i = some a ↔ t i = some a ∧ key a ≠ k := by
  simp [erase, Option.filter_eq_some_iff]

theorem place?_eq_some_iff :
    t.place? key k = some i ↔
      (t i).map key = some k ∧ ∀ j < i, (t j).map key ≠ some k := by
  simp [place?]

theorem place?_eq_none_iff : t.place? key k = none ↔ ∀ i, (t i).map key ≠ some k := by
  simp [place?]

/-! ## Tables as maps -/

/-- No two entries share a key, and the map has each of them under its key. -/
structure Lists (key : α → κ) (t : Table n α) (m : κ → Option α) : Prop where
  eq_some_iff : ∀ k a, m k = some a ↔ key a = k ∧ ∃ i, t i = some a
  unique : ∀ i j a b, t i = some a → t j = some b → key a = key b → i = j

namespace Lists

variable {m : κ → Option α}

omit [DecidableEq κ] in
theorem empty : Lists key (empty : Table n α) fun _ => none where
  eq_some_iff k a := by simp [Table.empty]
  unique := by nofun

omit [DecidableEq κ] in
theorem ne_of_new (h : Lists key t m) (hnew : m (key a) = none) {j : Fin n} {b : α}
    (hb : t j = some b) : key b ≠ key a := by
  intro hkey
  have hmem := (h.eq_some_iff (key a) b).2 ⟨hkey, j, hb⟩
  exact nomatch hnew.symm.trans hmem

/-- A new entry whose key is not in the table yet, and which finds a place. -/
theorem insert (h : Lists key t m) (hfree : t.free? ≠ none) (hnew : m (key a) = none) :
    Lists key (t.insert a) (Function.update m (key a) (some a)) := by
  obtain ⟨i, hi⟩ := Option.ne_none_iff_exists'.1 hfree
  obtain ⟨hnone, -⟩ := free?_eq_some_iff.1 hi
  have hmem : ∀ j b, t.insert a j = some b ↔ j = i ∧ b = a ∨ t j = some b := by
    intro j b
    rw [Table.insert, hi]
    rcases eq_or_ne j i with rfl | hj
    · simp [hnone, eq_comm]
    · simp [hj]
  constructor
  · intro k b
    simp only [hmem, exists_or, Function.update_apply, exists_eq_left]
    rcases eq_or_ne k (key a) with rfl | hk
    · rw [if_pos rfl, Option.some.injEq]
      constructor
      · rintro rfl
        exact ⟨rfl, .inl rfl⟩
      · rintro ⟨hkey, rfl | ⟨j, hb⟩⟩
        · rfl
        · exact absurd hkey (h.ne_of_new hnew hb)
    · rw [if_neg hk, h.eq_some_iff]
      refine and_congr_right fun hkey => ⟨.inr, ?_⟩
      rintro (rfl | hb)
      · exact absurd hkey.symm hk
      · exact hb
  · intro j j' b b' hb hb' hkey
    rw [hmem] at hb hb'
    rcases hb with ⟨rfl, rfl⟩ | hb <;> rcases hb' with ⟨rfl, rfl⟩ | hb'
    · rfl
    · exact absurd hkey.symm (h.ne_of_new hnew hb')
    · exact absurd hkey (h.ne_of_new hnew hb)
    · exact h.unique j j' b b' hb hb' hkey

theorem erase (h : Lists key t m) : Lists key (t.erase key k) (Function.update m k none) where
  eq_some_iff k' b := by
    simp only [erase_eq_some_iff, Function.update_apply, exists_and_right]
    rcases eq_or_ne k' k with rfl | hk
    · rw [if_pos rfl]
      exact iff_of_false nofun fun hb => hb.2.2 hb.1
    · rw [if_neg hk, h.eq_some_iff]
      exact and_congr_right fun hkey => (and_iff_left (hkey.trans_ne hk)).symm
  unique j j' b b' hb hb' :=
    h.unique j j' b b' (erase_eq_some_iff.1 hb).1 (erase_eq_some_iff.1 hb').1

/-- The first entry under the key is the only one. -/
theorem modify_apply (h : Lists key t m) (j : Fin n) :
    t.modify key k f j = (t j).map fun a => if key a = k then f a else a := by
  have hkept : ∀ {j}, (t j).map key ≠ some k →
      (t j).map (fun a => if key a = k then f a else a) = t j := by
    intro j hj
    cases hb : t j with
    | none => rfl
    | some b =>
        rw [hb, Option.map_some, ne_eq, Option.some.injEq] at hj
        rw [Option.map_some, if_neg hj]
  unfold Table.modify
  cases hplace : t.place? key k with
  | none => exact (hkept (place?_eq_none_iff.1 hplace j)).symm
  | some i =>
      obtain ⟨a, ha, hkey⟩ := Option.map_eq_some_iff.1 (place?_eq_some_iff.1 hplace).1
      rcases eq_or_ne j i with rfl | hj
      · simp only [Function.update_self, ha, Option.map_some, if_pos hkey]
      · refine (Function.update_of_ne hj ..).trans (hkept fun hb => ?_).symm
        obtain ⟨b, hb, hkey'⟩ := Option.map_eq_some_iff.1 hb
        exact hj (h.unique j i b a hb ha (hkey'.trans hkey.symm))

theorem modify (h : Lists key t m) (hf : ∀ a, key (f a) = key a) :
    Lists key (t.modify key k f) (Function.update m k ((m k).map f)) := by
  have hkey : ∀ a, key (if key a = k then f a else a) = key a := by
    intro a
    split
    · exact hf a
    · rfl
  have hmem : ∀ j b, t.modify key k f j = some b ↔
      ∃ a, t j = some a ∧ (if key a = k then f a else a) = b := by
    intro j b
    rw [h.modify_apply, Option.map_eq_some_iff]
  constructor
  · intro k' b
    simp only [hmem, Function.update_apply]
    rcases eq_or_ne k' k with rfl | hk
    · rw [if_pos rfl, Option.map_eq_some_iff]
      constructor
      · rintro ⟨a, ha, rfl⟩
        obtain ⟨rfl, j, hj⟩ := (h.eq_some_iff k' a).1 ha
        exact ⟨hf a, j, a, hj, if_pos rfl⟩
      · rintro ⟨hb, j, a, hj, rfl⟩
        have ha := (hkey a).symm.trans hb
        exact ⟨a, (h.eq_some_iff k' a).2 ⟨ha, j, hj⟩, (if_pos ha).symm⟩
    · rw [if_neg hk, h.eq_some_iff]
      constructor
      · rintro ⟨rfl, j, hj⟩
        exact ⟨rfl, j, b, hj, if_neg hk⟩
      · rintro ⟨hb, j, a, hj, rfl⟩
        have ha := ((hkey a).symm.trans hb).trans_ne hk
        rw [if_neg ha] at hb ⊢
        exact ⟨hb, j, hj⟩
  · intro j j' b b' hb hb' heq
    obtain ⟨a, ha, rfl⟩ := (hmem j b).1 hb
    obtain ⟨a', ha', rfl⟩ := (hmem j' b').1 hb'
    rw [hkey, hkey] at heq
    exact h.unique j j' a a' ha ha' heq

end Lists

end Table

/-! ## Requests to a map -/

/-- A request that changes the value of one key only. What is under a key depends on the
requests with that key alone. -/
theorem foldl_update_apply {ρ κ β : Type*} [DecidableEq κ] (key : ρ → κ) (effect : ρ → β → β)
    (rs : List ρ) (m : κ → β) (k : κ) :
    rs.foldl (fun m r => Function.update m (key r) (effect r (m (key r)))) m k =
      (rs.filter fun r => key r = k).foldl (fun b r => effect r b) (m k) := by
  induction rs generalizing m with
  | nil => rfl
  | cons r rs ih =>
      rw [List.foldl_cons, ih, List.filter_cons]
      rcases eq_or_ne (key r) k with rfl | hk
      · rw [Function.update_self, if_pos (decide_eq_true rfl), List.foldl_cons]
      · rw [Function.update_of_ne hk.symm, if_neg (by simpa using hk)]

end Transition
