import Bres.Transition.Outcome
import Mathlib.Data.List.Flatten

/-!
# Messages cut into chunks

A stream of messages is encoded, one message behind the other, and arrives in
chunks that need not respect the messages. `Framed` groups the messages of such a
stream by the chunk boundaries that fall between two messages: a group is what
stands between two such boundaries, and the chunks of one group are merged. A
message has a group of its own exactly if it begins and ends where a chunk ends.

A receiver that only collects what it gets until a message ends may then be run
group by group: this is `Framed.sweep`.
-/

namespace Transition

variable {α β ε σ : Type*}

/-- How much the first `k` pieces hold together. -/
def offset (l : List (List β)) (k : ℕ) : ℕ := (l.take k).flatten.length

/-- One piece ends and the next begins at `n`. -/
def CutAt (l : List (List β)) (n : ℕ) : Prop := ∃ k, offset l k = n

/-- Piece `k` of `blocks` begins and ends where a piece of `chunks` does. -/
def Isolated (chunks blocks : List (List β)) (k : ℕ) : Prop :=
  CutAt chunks (offset blocks k) ∧ CutAt chunks (offset blocks (k + 1))

@[simp] theorem offset_zero (l : List (List β)) : offset l 0 = 0 := rfl

@[simp] theorem offset_cons_succ (c : List β) (l : List (List β)) (k : ℕ) :
    offset (c :: l) (k + 1) = c.length + offset l k := by
  simp [offset]

theorem offset_append (l l' : List (List β)) (k : ℕ) :
    offset (l ++ l') (l.length + k) = l.flatten.length + offset l' k := by
  rw [offset, List.take_length_add_append, List.flatten_append, List.length_append, offset]

theorem offset_length (l : List (List β)) : offset l l.length = l.flatten.length := by
  rw [offset, List.take_length]

theorem offset_append_of_le (l l' : List (List β)) {k : ℕ} (hk : k ≤ l.length) :
    offset (l ++ l') k = offset l k := by
  rw [offset, offset, List.take_append_of_le_length hk]

/-- Where no piece is empty, more pieces hold more. -/
theorem offset_lt :
    ∀ {l : List (List β)} {j k : ℕ}, [] ∉ l → j < k → k ≤ l.length →
      offset l j < offset l k
  | [], j, k, _, hjk, hk => by
      rw [List.length_nil] at hk
      omega
  | c :: l, j, 0, _, hjk, _ => absurd hjk (Nat.not_lt_zero j)
  | c :: l, 0, k + 1, hl, _, _ => by
      have hpos : 0 < c.length := List.length_pos_iff.2 fun h => hl (h ▸ List.mem_cons_self ..)
      rw [offset_zero, offset_cons_succ]
      omega
  | c :: l, j + 1, k + 1, hl, hjk, hk => by
      have ih := offset_lt (fun h => hl (List.mem_cons_of_mem _ h)) (Nat.lt_of_succ_lt_succ hjk)
        (Nat.le_of_succ_le_succ hk)
      rw [offset_cons_succ, offset_cons_succ]
      omega

theorem cutAt_zero (l : List (List β)) : CutAt l 0 := ⟨0, rfl⟩

theorem cutAt_cons_iff {c : List β} {l : List (List β)} {n : ℕ} :
    CutAt (c :: l) n ↔ n = 0 ∨ ∃ m, CutAt l m ∧ n = c.length + m := by
  constructor
  · rintro ⟨k, rfl⟩
    cases k with
    | zero => exact .inl rfl
    | succ k => exact .inr ⟨_, ⟨k, rfl⟩, offset_cons_succ ..⟩
  · rintro (rfl | ⟨m, ⟨k, rfl⟩, rfl⟩)
    · exact cutAt_zero _
    · exact ⟨k + 1, offset_cons_succ ..⟩

theorem not_cutAt_cons {c : List β} {l : List (List β)} {n : ℕ} (hpos : 0 < n)
    (hn : n < c.length) : ¬ CutAt (c :: l) n := by
  rw [cutAt_cons_iff]
  rintro (rfl | ⟨m, -, rfl⟩)
  · exact Nat.lt_irrefl 0 hpos
  · omega

/-- A nonempty piece is passed as a whole. -/
theorem cutAt_cons_add_iff {c : List β} {l : List (List β)} {m : ℕ} (hc : c ≠ []) :
    CutAt (c :: l) (c.length + m) ↔ CutAt l m := by
  have hpos := List.length_pos_iff.2 hc
  rw [cutAt_cons_iff]
  constructor
  · rintro (h | ⟨m', hm', h⟩)
    · omega
    · rwa [Nat.add_left_cancel h]
  · exact fun h => .inr ⟨m, h, rfl⟩

/-- Only the end of the first piece is lost when it is merged with the second. -/
theorem cutAt_merge_iff {c d : List β} {l : List (List β)} {n : ℕ} :
    CutAt (c :: d :: l) n ↔ CutAt ((c ++ d) :: l) n ∨ n = c.length := by
  simp only [cutAt_cons_iff, List.length_append]
  constructor
  · rintro (rfl | ⟨_, rfl | ⟨m, hm, rfl⟩, rfl⟩)
    · exact .inl (.inl rfl)
    · exact .inr rfl
    · exact .inl (.inr ⟨m, hm, (Nat.add_assoc ..).symm⟩)
  · rintro ((rfl | ⟨m, hm, rfl⟩) | rfl)
    · exact .inl rfl
    · exact .inr ⟨_, .inr ⟨m, hm, rfl⟩, Nat.add_assoc ..⟩
    · exact .inr ⟨0, .inl rfl, rfl⟩

/-- The messages of a stream, grouped by the chunk boundaries that are boundaries of
messages. -/
inductive Framed (enc : α → List β) : List (List β) → List (List α) → Prop
  | nil : Framed enc [] []
  | frame {g : List α} {chunks groups} (hg : g ≠ []) (h : Framed enc chunks groups) :
      Framed enc (g.flatMap enc :: chunks) (g :: groups)
  | merge {c d : List β} {chunks groups} (hd : d ≠ [])
      (hcut : ¬ CutAt (groups.flatten.map enc) c.length)
      (h : Framed enc ((c ++ d) :: chunks) groups) :
      Framed enc (c :: d :: chunks) groups

namespace Framed

variable {enc : α → List β} {chunks : List (List β)} {groups : List (List α)}

theorem ne_nil (h : Framed enc chunks groups) : ∀ g ∈ groups, g ≠ [] := by
  induction h with
  | nil => nofun
  | frame hg _ ih => exact List.forall_mem_cons.2 ⟨hg, ih⟩
  | merge _ _ _ ih => exact ih

/-- The chunks hold the messages and nothing else. -/
theorem flatten_eq (h : Framed enc chunks groups) :
    chunks.flatten = groups.flatten.flatMap enc := by
  induction h with
  | nil => rfl
  | frame _ _ ih => rw [List.flatten_cons, ih, List.flatten_cons, List.flatMap_append]
  | merge _ _ _ ih => rw [← ih, List.flatten_cons, List.flatten_cons, List.flatten_cons,
      List.append_assoc]

/-- Every stream can be grouped. -/
theorem exists_groups :
    ∀ {chunks : List (List β)} {msgs : List α}, [] ∉ chunks →
      chunks.flatten = msgs.flatMap enc → (∀ a, enc a ≠ []) →
        ∃ groups, groups.flatten = msgs ∧ Framed enc chunks groups
  | [], msgs, _, hflatten, henc => by
      have hmsgs : msgs = [] := by
        cases msgs with
        | nil => rfl
        | cons a msgs =>
            have hnil : (a :: msgs).flatMap enc = [] := hflatten.symm
            exact absurd (List.append_eq_nil_iff.1 hnil).1 (henc a)
      exact ⟨[], hmsgs.symm, .nil⟩
  | c :: chunks, msgs, hne, hflatten, henc => by
      simp only [List.mem_cons, not_or] at hne
      by_cases hcut : CutAt (msgs.map enc) c.length
      · obtain ⟨k, hk⟩ := hcut
        have hhead : c = (msgs.take k).flatMap enc ∧
            chunks.flatten = (msgs.drop k).flatMap enc := by
          refine List.append_inj ?_ ?_
          · rw [← List.flatMap_append, List.take_append_drop, ← hflatten, List.flatten_cons]
          · rw [← hk, offset, ← List.map_take, List.flatMap]
        obtain ⟨groups, hgroups, h⟩ := exists_groups hne.2 hhead.2 henc
        have hg : msgs.take k ≠ [] := by
          intro hnil
          exact hne.1 (by rw [hhead.1, hnil]; rfl)
        refine ⟨msgs.take k :: groups, ?_, hhead.1 ▸ .frame hg h⟩
        rw [List.flatten_cons, hgroups, List.take_append_drop]
      · cases chunks with
        | nil =>
            -- The last chunk ends where the stream does.
            refine absurd ⟨msgs.length, ?_⟩ hcut
            rw [offset, ← List.map_take, List.take_length, ← List.flatMap, ← hflatten]
            simp
        | cons d chunks =>
            simp only [List.mem_cons, not_or] at hne
            have hmerged : [] ∉ (c ++ d) :: chunks := by
              simp [hne.2.2, Ne.symm hne.1]
            obtain ⟨groups, rfl, h⟩ := exists_groups hmerged (by simpa using hflatten) henc
            exact ⟨groups, rfl, .merge (Ne.symm hne.2.1) hcut h⟩
termination_by chunks => chunks.length

/-- A chunk ends where a message does exactly if a group does. -/
theorem cutAt_iff (h : Framed enc chunks groups) (henc : ∀ a, enc a ≠ []) {k : ℕ}
    (hk : k ≤ groups.flatten.length) :
    CutAt chunks (offset (groups.flatten.map enc) k) ↔ CutAt groups k := by
  induction h generalizing k with
  | nil =>
      obtain rfl : k = 0 := by simpa using hk
      exact iff_of_true (cutAt_zero _) (cutAt_zero _)
  | @frame g chunks groups hg h ih =>
      have hpieces : ∀ l : List α, [] ∉ l.map enc := by
        simp only [List.mem_map, not_exists, not_and]
        exact fun l a _ => henc a
      have hwire : g.flatMap enc ≠ [] := by
        obtain ⟨a, g, rfl⟩ := List.exists_cons_of_ne_nil hg
        exact fun h => henc a (List.append_eq_nil_iff.1 h).1
      rw [List.flatten_cons, List.length_append] at hk
      rw [List.flatten_cons, List.map_append]
      rcases Nat.eq_zero_or_pos k with rfl | hpos
      · exact iff_of_true (cutAt_zero _) (cutAt_zero _)
      rcases Nat.lt_or_ge k g.length with hlt | hge
      · have hlength : (g.map enc).length = g.length := List.length_map _
        rw [offset_append_of_le _ _ (hlength ▸ Nat.le_of_lt hlt)]
        refine iff_of_false (not_cutAt_cons ?_ ?_) (not_cutAt_cons hpos hlt)
        · simpa using offset_lt (hpieces g) hpos (hlength ▸ Nat.le_of_lt hlt)
        · have hfits := offset_lt (hpieces g) (hlength ▸ hlt) (Nat.le_refl _)
          rwa [offset_length, ← List.flatMap] at hfits
      · obtain ⟨j, rfl⟩ := Nat.exists_eq_add_of_le hge
        have hoffset := offset_append (g.map enc) (groups.flatten.map enc) j
        rw [List.length_map, ← List.flatMap] at hoffset
        rw [hoffset, cutAt_cons_add_iff hwire, cutAt_cons_add_iff hg, ih (by omega)]
  | merge hd hcut h ih =>
      rw [cutAt_merge_iff, ih hk, or_iff_left]
      rintro hlength
      exact hcut ⟨k, hlength⟩

/-- A message is isolated exactly if its group ends with it as it began. -/
theorem isolated_iff (h : Framed enc chunks groups) (henc : ∀ a, enc a ≠ []) {k : ℕ}
    (hk : k < groups.flatten.length) :
    Isolated chunks (groups.flatten.map enc) k ↔ CutAt groups k ∧ CutAt groups (k + 1) := by
  rw [Isolated, h.cutAt_iff henc (Nat.le_of_lt hk), h.cutAt_iff henc hk]

end Framed

/-- The messages of the first group are alone if there is one of them. -/
theorem cutAt_first_iff {g : List α} {groups : List (List α)} {k : ℕ} (hk : k < g.length) :
    CutAt (g :: groups) k ∧ CutAt (g :: groups) (k + 1) ↔ g.length = 1 := by
  constructor
  · rintro ⟨hbegin, hend⟩
    have hzero : k = 0 := by
      by_contra hpos
      exact not_cutAt_cons (Nat.pos_of_ne_zero hpos) hk hbegin
    by_contra hlength
    exact not_cutAt_cons (Nat.succ_pos k) (by omega) hend
  · intro hlength
    obtain rfl : k = 0 := by omega
    exact ⟨cutAt_zero _, 1, by simpa [offset] using hlength⟩

/-- What is required of every message, given whether it has a group of its own. -/
theorem forall_alone_iff {R : α → Prop → Prop} {groups : List (List α)}
    (hne : [] ∉ groups) :
    (∀ k a, groups.flatten[k]? = some a → R a (CutAt groups k ∧ CutAt groups (k + 1))) ↔
      ∀ g ∈ groups, ∀ a ∈ g, R a (g.length = 1) := by
  induction groups with
  | nil => simp
  | cons g groups ih =>
      simp only [List.mem_cons, not_or] at hne
      have hg : g ≠ [] := Ne.symm hne.1
      have hrest : ∀ k, (g ++ groups.flatten)[g.length + k]? = groups.flatten[k]? := by
        intro k
        rw [List.getElem?_append_right (Nat.le_add_right ..), Nat.add_sub_cancel_left]
      have hcuts : ∀ k, CutAt (g :: groups) (g.length + k) ∧
          CutAt (g :: groups) (g.length + k + 1) ↔ CutAt groups k ∧ CutAt groups (k + 1) := by
        intro k
        rw [Nat.add_assoc, cutAt_cons_add_iff hg, cutAt_cons_add_iff hg]
      rw [List.forall_mem_cons, ← ih hne.2, List.flatten_cons]
      constructor
      · intro h
        refine ⟨fun a ha => ?_, fun k a hk => ?_⟩
        · obtain ⟨k, hk, rfl⟩ := List.mem_iff_getElem.1 ha
          rw [← cutAt_first_iff hk]
          apply h k
          rw [List.getElem?_append_left hk, List.getElem?_eq_getElem hk]
        · rw [← hcuts]
          apply h (g.length + k)
          rw [hrest, hk]
      · rintro ⟨hfirst, hothers⟩ k a hk
        rcases Nat.lt_or_ge k g.length with hlt | hge
        · rw [cutAt_first_iff hlt]
          rw [List.getElem?_append_left hlt] at hk
          exact hfirst a (List.mem_of_getElem? hk)
        · obtain ⟨j, rfl⟩ := Nat.exists_eq_add_of_le hge
          rw [hcuts]
          apply hothers j
          rw [← hrest, hk]

/-- A part of some lists is all of them only if it is all of each. -/
theorem flatMap_eq_iff_of_sublist {f h : α → List β} (hsub : ∀ a, (f a).Sublist (h a))
    {l : List α} : l.flatMap f = l.flatMap h ↔ ∀ a ∈ l, f a = h a := by
  induction l with
  | nil => simp
  | cons a l ih =>
      rw [List.flatMap_cons, List.flatMap_cons, List.forall_mem_cons, ← ih]
      constructor
      · intro heq
        have hfirst := (hsub a).length_le
        have hrest : (l.flatMap f).Sublist (l.flatMap h) := .flatMap_right l fun b _ => hsub b
        have hlength := congrArg List.length heq
        rw [List.length_append, List.length_append] at hlength
        have hle := hrest.length_le
        exact ⟨(hsub a).eq_of_length (by omega), hrest.eq_of_length (by omega)⟩
      · rintro ⟨hfirst, hrest⟩
        rw [hfirst, hrest]

/-- A receiver that collects a chunk which does not end with a message, and is idle
again behind one that does, may be run group by group. -/
theorem Framed.sweep {f : List β → σ → Outcome ε σ} {enc : α → List β}
    {chunks : List (List β)} {groups : List (List α)} (h : Framed enc chunks groups)
    (Idle : σ → Prop)
    (hcollect : ∀ msgs : List α, ∀ c d s, Idle s → c <+: msgs.flatMap enc →
      ¬ CutAt (msgs.map enc) c.length → d ≠ [] → (f c s).bind (f d) = f (c ++ d) s)
    (hidle : ∀ g : List α, g ≠ [] → ∀ s t, Idle s → f (g.flatMap enc) s = .done t → Idle t) :
    ∀ {s}, Idle s → Outcome.sweep f chunks s =
      Outcome.sweep (fun g => f (g.flatMap enc)) groups s := by
  induction h with
  | nil => exact fun _ => rfl
  | @frame g chunks groups hg h ih =>
      intro s hs
      rw [Outcome.sweep_cons, Outcome.sweep_cons]
      cases hout : f (g.flatMap enc) s with
      | done t => exact ih (hidle g hg s t hs hout)
      | thrown e t => rfl
  | @merge c d chunks groups hd hcut h ih =>
      intro s hs
      have hfront : c <+: groups.flatten.flatMap enc := by
        rw [← h.flatten_eq, List.flatten_cons, List.append_assoc]
        exact List.prefix_append ..
      rw [← ih hs, Outcome.sweep_cons, Outcome.sweep_cons,
        ← hcollect _ c d s hs hfront hcut hd, Outcome.bind_assoc]
      rfl

end Transition
