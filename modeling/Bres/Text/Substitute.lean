import Mathlib.Data.List.Infix

/-!
# Substitution in a list

`find tgt src` is the position of the first occurrence of `tgt` in `src`, and
`substitute tgt dst src` puts `dst` for every occurrence, found from the left one
behind the other.

An element that does not stand in `tgt` cuts a substitution in two, and so does the
place behind an occurrence. With an encoding that writes the elements of `tgt` as
single code units of their own, a substitution can be made before the encoding or
after it.
-/

namespace Text

variable {α β : Type*}

theorem prefix_of_prefix_append_cons {tgt src rest : List α} {c : α} (hc : c ∉ tgt)
    (h : tgt <+: src ++ c :: rest) : tgt <+: src := by
  rcases List.prefix_or_prefix_of_prefix h (List.prefix_append src (c :: rest)) with h' | h'
  · exact h'
  · obtain ⟨behind, rfl⟩ := h'
    rw [List.prefix_append_right_inj] at h
    cases behind with
    | nil =>
        rw [List.append_nil]
    | cons d behind =>
        rw [List.cons_prefix_cons] at h
        rw [h.1] at hc
        exact absurd (List.mem_append_right src (List.mem_cons_self ..)) hc

/-- The parts of a list that lie between the occurrences of `tgt`, each occurrence being
the first one behind the one before it. -/
inductive Splits (tgt : List α) : List α → List (List α) → Prop where
  | last {src : List α} : (∀ i, ¬ tgt <+: src.drop i) → Splits tgt src [src]
  | occurrence {kept rest : List α} {parts : List (List α)} :
      (∀ i < kept.length, ¬ tgt <+: (kept ++ (tgt ++ rest)).drop i) →
      Splits tgt rest parts → Splits tgt (kept ++ (tgt ++ rest)) (kept :: parts)

theorem Splits.ne_nil {tgt src : List α} {parts : List (List α)} (h : Splits tgt src parts) :
    parts ≠ [] := by
  cases h <;> exact List.cons_ne_nil _ _

/-- The parts joined by `tgt` are the list. -/
theorem Splits.intercalate_eq {tgt src : List α} {parts : List (List α)}
    (h : Splits tgt src parts) : tgt.intercalate parts = src := by
  induction h with
  | last hnone => exact List.intercalate_singleton
  | occurrence hkept hrest ih =>
      rw [List.intercalate_cons_of_ne_nil hrest.ne_nil, ih, List.append_assoc]

section Substitution

variable [DecidableEq α]

/-- The position of the first occurrence of `tgt`. -/
def find (tgt : List α) : List α → Option ℕ
  | [] => if tgt = [] then some 0 else none
  | c :: cs => if tgt <+: c :: cs then some 0 else (find tgt cs).map (· + 1)

/-- The substitution where the first `skip` elements belong to an occurrence. -/
def substituteFrom (tgt dst : List α) : ℕ → List α → List α
  | _, [] => []
  | skip + 1, _ :: cs => substituteFrom tgt dst skip cs
  | 0, c :: cs =>
      if tgt <+: c :: cs then dst ++ substituteFrom tgt dst (tgt.length - 1) cs
      else c :: substituteFrom tgt dst 0 cs

/-- `src` with `dst` for every occurrence of `tgt`. -/
def substitute (tgt dst src : List α) : List α := substituteFrom tgt dst 0 src

variable {tgt dst : List α}

@[simp] theorem substitute_nil : substitute tgt dst [] = [] := rfl

theorem substituteFrom_length_append (skipped rest : List α) :
    substituteFrom tgt dst skipped.length (skipped ++ rest) = substitute tgt dst rest := by
  induction skipped with
  | nil => rfl
  | cons c skipped ih => exact ih

theorem substitute_append_of_target (h : tgt ≠ []) (rest : List α) :
    substitute tgt dst (tgt ++ rest) = dst ++ substitute tgt dst rest := by
  obtain ⟨c, cs, rfl⟩ := List.exists_cons_of_ne_nil h
  have hbegins : c :: cs <+: c :: (cs ++ rest) := List.prefix_append (c :: cs) rest
  rw [List.cons_append, substitute, substituteFrom, if_pos hbegins, List.length_cons,
    Nat.add_sub_cancel, substituteFrom_length_append]

theorem substitute_cons {c : α} {cs : List α} (h : ¬ tgt <+: c :: cs) :
    substitute tgt dst (c :: cs) = c :: substitute tgt dst cs := by
  rw [substitute, substituteFrom, if_neg h]
  rfl

/-- What no occurrence begins in is kept. -/
theorem substitute_append_of_no_occurrence {kept rest : List α}
    (h : ∀ i < kept.length, ¬ tgt <+: (kept ++ rest).drop i) :
    substitute tgt dst (kept ++ rest) = kept ++ substitute tgt dst rest := by
  induction kept with
  | nil => rfl
  | cons c kept ih =>
      have hbegins : ¬ tgt <+: c :: (kept ++ rest) := h 0 (Nat.succ_pos _)
      rw [List.cons_append, substitute_cons hbegins,
        ih fun i hi => h (i + 1) (Nat.succ_lt_succ hi)]
      rfl

/-! ## Occurrences -/

theorem substitute_of_find_none {src : List α} (h : find tgt src = none) :
    substitute tgt dst src = src := by
  induction src with
  | nil => rfl
  | cons c cs ih =>
      by_cases hbegins : tgt <+: c :: cs
      · simp [find, hbegins] at h
      · rw [find, if_neg hbegins, Option.map_eq_none_iff] at h
        rw [substitute_cons hbegins, ih h]

theorem add_length_le_of_find {src : List α} {i : ℕ} (h : find tgt src = some i) :
    i + tgt.length ≤ src.length := by
  induction src generalizing i with
  | nil =>
      rw [find] at h
      split at h
      · rename_i htgt
        obtain rfl := Option.some.inj h
        simp [htgt]
      · cases h
  | cons c cs ih =>
      rw [find] at h
      by_cases hbegins : tgt <+: c :: cs
      · rw [if_pos hbegins] at h
        obtain rfl := Option.some.inj h
        rw [Nat.zero_add]
        exact hbegins.length_le
      · rw [if_neg hbegins] at h
        obtain ⟨j, hj, rfl⟩ := Option.map_eq_some_iff.1 h
        have hlength := ih hj
        rw [List.length_cons]
        omega

theorem substitute_of_find {src : List α} {i : ℕ} (htgt : tgt ≠ [])
    (h : find tgt src = some i) :
    substitute tgt dst src = src.take i ++ dst ++
      substitute tgt dst (src.drop (i + tgt.length)) := by
  induction src generalizing i with
  | nil => simp [find, htgt] at h
  | cons c cs ih =>
      rw [find] at h
      by_cases hbegins : tgt <+: c :: cs
      · rw [if_pos hbegins] at h
        obtain rfl := Option.some.inj h
        obtain ⟨rest, hrest⟩ := hbegins
        rw [← hrest, substitute_append_of_target htgt]
        simp
      · rw [if_neg hbegins] at h
        obtain ⟨j, hj, rfl⟩ := Option.map_eq_some_iff.1 h
        rw [substitute_cons hbegins, ih hj, Nat.add_right_comm]
        simp

/-- Elements that no occurrence begins with are kept. -/
theorem substitute_append_of_head (htgt : tgt ≠ []) {kept : List α}
    (h : ∀ c ∈ kept, tgt.head? ≠ some c) (rest : List α) :
    substitute tgt dst (kept ++ rest) = kept ++ substitute tgt dst rest := by
  refine substitute_append_of_no_occurrence fun i hi hbegins => ?_
  obtain ⟨d, ds, rfl⟩ := List.exists_cons_of_ne_nil htgt
  rw [List.drop_append_of_le_length hi.le, List.drop_eq_getElem_cons hi, List.cons_append,
    List.cons_prefix_cons] at hbegins
  exact h kept[i] (List.getElem_mem hi) (congrArg some hbegins.1)

theorem substitute_append_of_not_mem (htgt : tgt ≠ []) {kept : List α}
    (h : ∀ c ∈ kept, c ∉ tgt) (rest : List α) :
    substitute tgt dst (kept ++ rest) = kept ++ substitute tgt dst rest :=
  substitute_append_of_head htgt (fun c hc hhead => h c hc (List.mem_of_mem_head? hhead)) rest

/-- A list from its end on: at each place an occurrence begins, or none does. -/
theorem occurrence_induction {motive : List α → Prop} (htgt : tgt ≠ []) (nil : motive [])
    (occurrence : ∀ rest, motive rest → motive (tgt ++ rest))
    (kept : ∀ c cs, ¬ tgt <+: c :: cs → motive cs → motive (c :: cs)) (src : List α) :
    motive src := by
  induction hn : src.length using Nat.strong_induction_on generalizing src with
  | _ n ih =>
      cases src with
      | nil => exact nil
      | cons c cs =>
          by_cases hbegins : tgt <+: c :: cs
          · obtain ⟨rest, hrest⟩ := hbegins
            have hlength : rest.length < n := by
              have hpos := List.length_pos_of_ne_nil htgt
              rw [← hn, ← hrest, List.length_append]
              omega
            rw [← hrest]
            exact occurrence rest (ih rest.length hlength rest rfl)
          · have hlength : cs.length < n := by
              rw [← hn, List.length_cons]
              exact Nat.lt_succ_self _
            exact kept c cs hbegins (ih cs.length hlength cs rfl)

/-- A substitution by something that is not longer makes no list longer. -/
theorem length_substitute_le (htgt : tgt ≠ []) (h : dst.length ≤ tgt.length) (src : List α) :
    (substitute tgt dst src).length ≤ src.length := by
  induction src using occurrence_induction htgt with
  | nil => exact le_rfl
  | occurrence rest ih =>
      rw [substitute_append_of_target htgt, List.length_append, List.length_append]
      exact Nat.add_le_add h ih
  | kept c cs hbegins ih =>
      rw [substitute_cons hbegins, List.length_cons, List.length_cons]
      exact Nat.succ_le_succ ih

/-- Where an occurrence is deleted, the list becomes shorter. -/
theorem length_substitute_nil_lt (htgt : tgt ≠ []) {src : List α} {i : ℕ}
    (h : find tgt src = some i) : (substitute tgt [] src).length < src.length := by
  have hnil : ([] : List α).length ≤ tgt.length := Nat.zero_le _
  have hrest := length_substitute_le htgt hnil (src.drop (i + tgt.length))
  have hlength := add_length_le_of_find h
  have hpos := List.length_pos_of_ne_nil htgt
  rw [substitute_of_find htgt h, List.append_nil, List.length_append, List.length_take]
  rw [List.length_drop] at hrest
  omega

/-- An element that does not stand in `tgt` cuts the substitution in two. -/
theorem substitute_append_cons (htgt : tgt ≠ []) {c : α} (hc : c ∉ tgt) (src rest : List α) :
    substitute tgt dst (src ++ c :: rest) =
      substitute tgt dst src ++ c :: substitute tgt dst rest := by
  induction src using occurrence_induction htgt with
  | nil =>
      have hkept : ∀ d ∈ [c], d ∉ tgt := fun d hd => List.mem_singleton.1 hd ▸ hc
      exact substitute_append_of_not_mem htgt hkept rest
  | occurrence src ih =>
      rw [List.append_assoc, substitute_append_of_target htgt, ih,
        substitute_append_of_target htgt, List.append_assoc]
  | kept d src hbegins ih =>
      have hbegins' : ¬ tgt <+: d :: (src ++ c :: rest) := fun h =>
        hbegins (prefix_of_prefix_append_cons hc h)
      rw [List.cons_append, substitute_cons hbegins', ih, substitute_cons hbegins]
      rfl

/-! ## The parts between the occurrences -/

/-- Every list has such parts. -/
theorem exists_splits (htgt : tgt ≠ []) (src : List α) : ∃ parts, Splits tgt src parts := by
  induction src using occurrence_induction htgt with
  | nil => exact ⟨_, .last fun i hbegins => htgt (by simpa using hbegins)⟩
  | occurrence rest ih =>
      obtain ⟨parts, hparts⟩ := ih
      have hkept : ∀ i < ([] : List α).length, ¬ tgt <+: ([] ++ (tgt ++ rest)).drop i :=
        fun i hi => absurd hi (Nat.not_lt_zero i)
      exact ⟨[] :: parts, .occurrence hkept hparts⟩
  | kept c cs hbegins ih =>
      obtain ⟨parts, hparts⟩ := ih
      cases hparts with
      | last hnone =>
          refine ⟨_, .last fun i => ?_⟩
          cases i with
          | zero => exact hbegins
          | succ i => exact hnone i
      | @occurrence kept rest parts hkept hrest =>
          have hkept' : ∀ i < (c :: kept).length,
              ¬ tgt <+: (c :: kept ++ (tgt ++ rest)).drop i := by
            intro i hi
            cases i with
            | zero => exact hbegins
            | succ i => exact hkept i (Nat.lt_of_succ_lt_succ hi)
          exact ⟨(c :: kept) :: parts, .occurrence hkept' hrest⟩

/-- The substitution joins the parts by `dst`. -/
theorem Splits.substitute_eq (htgt : tgt ≠ []) {src : List α} {parts : List (List α)}
    (h : Splits tgt src parts) : substitute tgt dst src = dst.intercalate parts := by
  induction h with
  | @last src hnone =>
      have hkept : substitute tgt dst (src ++ []) = src ++ substitute tgt dst [] :=
        substitute_append_of_no_occurrence fun i _ => by simpa using hnone i
      simpa using hkept
  | occurrence hkept hrest ih =>
      rw [substitute_append_of_no_occurrence hkept, substitute_append_of_target htgt, ih,
        List.intercalate_cons_of_ne_nil hrest.ne_nil, List.append_assoc]

end Substitution

/-! ## Encodings -/

/-- The elements of `tgt` are written as single code units that stand for nothing
else. -/
structure SelfSynchronizing (enc : α → List β) (tgt : List α) : Prop where
  ne_nil : ∀ c, enc c ≠ []
  single : ∀ c ∈ tgt, ∃ b, enc c = [b]
  only : ∀ c ∈ tgt, ∀ b, enc c = [b] → ∀ d, b ∈ enc d → d = c

namespace SelfSynchronizing

variable {enc : α → List β} {tgt dst : List α}

theorem tail {c : α} {cs : List α} (h : SelfSynchronizing enc (c :: cs)) :
    SelfSynchronizing enc cs where
  ne_nil := h.ne_nil
  single d hd := h.single d (List.mem_cons_of_mem c hd)
  only d hd := h.only d (List.mem_cons_of_mem c hd)

theorem flatMap_ne_nil (h : SelfSynchronizing enc tgt) (htgt : tgt ≠ []) :
    tgt.flatMap enc ≠ [] := by
  obtain ⟨c, cs, rfl⟩ := List.exists_cons_of_ne_nil htgt
  rw [List.flatMap_cons]
  exact List.append_ne_nil_of_left_ne_nil (h.ne_nil c) _

/-- An occurrence in the encoded list is one in the list. -/
theorem prefix_of_flatMap (h : SelfSynchronizing enc tgt) {src : List α}
    (hbegins : tgt.flatMap enc <+: src.flatMap enc) : tgt <+: src := by
  induction tgt generalizing src with
  | nil => exact List.nil_prefix
  | cons c cs ih =>
      obtain ⟨b, hb⟩ := h.single c (List.mem_cons_self ..)
      rw [List.flatMap_cons, hb, List.singleton_append] at hbegins
      cases src with
      | nil => cases List.prefix_nil.1 hbegins
      | cons d ds =>
          obtain ⟨b', bs, hd⟩ := List.exists_cons_of_ne_nil (h.ne_nil d)
          rw [List.flatMap_cons, hd, List.cons_append, List.cons_prefix_cons] at hbegins
          obtain ⟨rfl, hbegins⟩ := hbegins
          have hmem : b ∈ enc d := by
            rw [hd]
            exact List.mem_cons_self ..
          obtain rfl : d = c := h.only c (List.mem_cons_self ..) b hb d hmem
          obtain rfl : bs = [] := by
            rw [hd] at hb
            exact (List.cons.inj hb).2
          exact List.cons_prefix_cons.2 ⟨rfl, ih h.tail hbegins⟩

/-- No code unit of another element stands in the encoded target. -/
theorem not_mem_flatMap (h : SelfSynchronizing enc tgt) {d : α} (hd : d ∉ tgt) :
    ∀ b ∈ enc d, b ∉ tgt.flatMap enc := by
  intro b hb hmem
  obtain ⟨c, hc, hbc⟩ := List.mem_flatMap.1 hmem
  obtain ⟨b', hb'⟩ := h.single c hc
  rw [hb', List.mem_singleton] at hbc
  rw [hbc] at hb
  rw [h.only c hc b' hb' d hb] at hd
  exact hd hc

/-- The substitution in the encoded list is the encoded substitution. -/
theorem substitute_flatMap [DecidableEq α] [DecidableEq β] (h : SelfSynchronizing enc tgt)
    (htgt : tgt ≠ []) (src : List α) :
    substitute (tgt.flatMap enc) (dst.flatMap enc) (src.flatMap enc) =
      (substitute tgt dst src).flatMap enc := by
  have hencoded := h.flatMap_ne_nil htgt
  induction src using occurrence_induction htgt with
  | nil => rfl
  | occurrence src ih =>
      rw [List.flatMap_append, substitute_append_of_target hencoded, ih,
        substitute_append_of_target htgt, List.flatMap_append]
  | kept c src hbegins ih =>
      rw [substitute_cons hbegins, List.flatMap_cons, List.flatMap_cons, ← ih]
      by_cases hc : c ∈ tgt
      · obtain ⟨b, hb⟩ := h.single c hc
        have hbegins' : ¬ tgt.flatMap enc <+: b :: src.flatMap enc := by
          intro hoccurrence
          apply hbegins
          apply h.prefix_of_flatMap
          rw [List.flatMap_cons, hb]
          exact hoccurrence
        rw [hb, List.singleton_append, substitute_cons hbegins']
        rfl
      · exact substitute_append_of_not_mem hencoded (h.not_mem_flatMap hc) _

end SelfSynchronizing

/-- All the characters are of ASCII. -/
def Ascii (cs : List Char) : Prop :=
  ∀ c ∈ cs, c.toNat < 128

instance (cs : List Char) : Decidable (Ascii cs) :=
  List.decidableBAll (fun c : Char => c.toNat < 128) cs

theorem utf8EncodeChar_of_lt {c : Char} (h : c.toNat < 128) :
    String.utf8EncodeChar c = [UInt8.ofNat c.toNat] := by
  rw [String.utf8EncodeChar]
  exact if_pos (Nat.le_of_lt_succ h)

theorem le_of_mem_utf8EncodeChar {c : Char} (h : 128 ≤ c.toNat) {b : UInt8}
    (hb : b ∈ String.utf8EncodeChar c) : 128 ≤ b.toNat := by
  have hnot : ¬ c.val.toNat ≤ 127 := Nat.not_le_of_lt h
  simp only [String.utf8EncodeChar, if_neg hnot] at hb
  split at hb
  · simp only [List.mem_cons, List.not_mem_nil, or_false] at hb
    rcases hb with rfl | rfl <;> rw [UInt8.toNat_ofNat'] <;> omega
  · split at hb
    · simp only [List.mem_cons, List.not_mem_nil, or_false] at hb
      rcases hb with rfl | rfl | rfl <;> rw [UInt8.toNat_ofNat'] <;> omega
    · simp only [List.mem_cons, List.not_mem_nil, or_false] at hb
      rcases hb with rfl | rfl | rfl | rfl <;> rw [UInt8.toNat_ofNat'] <;> omega

/-- UTF-8 writes the characters of ASCII as themselves. -/
theorem selfSynchronizing_utf8 {tgt : List Char} (h : Ascii tgt) :
    SelfSynchronizing String.utf8EncodeChar tgt where
  ne_nil _ := String.utf8EncodeChar_ne_nil
  single c hc := ⟨_, utf8EncodeChar_of_lt (h c hc)⟩
  only c hc b hb d hd := by
    have hbyte : b.toNat = c.toNat := by
      rw [utf8EncodeChar_of_lt (h c hc), List.singleton_inj] at hb
      rw [← hb, UInt8.toNat_ofNat', Nat.mod_eq_of_lt]
      exact (h c hc).trans (by decide)
    have hlt := h c hc
    by_cases hdlt : d.toNat < 128
    · rw [utf8EncodeChar_of_lt hdlt, List.mem_singleton] at hd
      rw [hd, UInt8.toNat_ofNat', Nat.mod_eq_of_lt (hdlt.trans (by decide))] at hbyte
      exact Char.toNat_inj.1 hbyte
    · have hle := le_of_mem_utf8EncodeChar (Nat.le_of_not_lt hdlt) hd
      omega

end Text
