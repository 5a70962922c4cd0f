import Bres.Exchange.Step
import Bres.Transition.Custody

/-!
# Every buffer is in one place

`SlotStep` spells out what a step of the exchange can do. From it follows that
the buffers stay in custody: each of the buffers allocated so far is in the
empty queue, in the current queue, in the hand of one `OnFrame` call or in the
renderer's hand, and in one of these only. `eventInit` puts the buffers that it
allocates into the empty queue.
-/

namespace Bres

open Transition

inductive SlotStep : Slot → SlotAction → Slot → Prop where
  | starved {s : Slot} {picture : Picture} (hempty : s.inst.eventsImageEmpty = []) :
      SlotStep s (.framePop picture) s
  | popped {s : Slot} {picture : Picture} {a : Addr} {as : List Addr}
      (hempty : s.inst.eventsImageEmpty = a :: as) :
      SlotStep s (.framePop picture)
        ⟨{ s.inst with eventsImageEmpty := as },
          { s.hands with decoders := s.hands.decoders ++ [⟨a, picture, false⟩] }⟩
  | filled {s : Slot} {k : ℕ} {call : FrameCall} {l₁ l₂ : List FrameCall}
      (hcalls : s.hands.decoders = l₁ ++ call :: l₂) :
      SlotStep s (.frameFill k)
        ⟨{ s.inst with imageHeap := s.inst.imageHeap.set call.addr call.picture },
          { s.hands with decoders := l₁ ++ { call with filled := true } :: l₂ }⟩
  | pushed {s : Slot} {k : ℕ} {call : FrameCall} {l₁ l₂ : List FrameCall}
      (hk : s.hands.decoders[k]? = some call)
      (hcalls : s.hands.decoders = l₁ ++ call :: l₂) (hfilled : call.filled = true) :
      SlotStep s (.framePush k)
        ⟨{ s.inst with eventsImageCurrent := s.inst.eventsImageCurrent ++ [call.addr] },
          { s.hands with decoders := l₁ ++ l₂ }⟩
  | idle {s : Slot} (hrenderer : s.hands.renderer = none)
      (hcurrent : s.inst.eventsImageCurrent = []) :
      SlotStep s .collectPop s
  | collected {s : Slot} {a : Addr} {as : List Addr} (hrenderer : s.hands.renderer = none)
      (hcurrent : s.inst.eventsImageCurrent = a :: as) :
      SlotStep s .collectPop
        ⟨{ s.inst with eventsImageCurrent := as },
          { s.hands with renderer := some (a, false) }⟩
  | copied {s : Slot} {a : Addr} {picture : Picture}
      (hrenderer : s.hands.renderer = some (a, false))
      (hpicture : s.inst.imageHeap[a]? = some picture)
      (hfits : pictureBytes ≤ s.inst.lastTextureBuffer.length) :
      SlotStep s .collectCopy
        ⟨{ s.inst with lastTextureBuffer :=
            picture.bytes ++ s.inst.lastTextureBuffer.drop pictureBytes },
          { s.hands with renderer := some (a, true) }⟩
  | returned {s : Slot} {a : Addr} (hrenderer : s.hands.renderer = some (a, true)) :
      SlotStep s .collectPush
        ⟨{ s.inst with eventsImageEmpty := s.inst.eventsImageEmpty ++ [a] },
          { s.hands with renderer := none }⟩

theorem slotStep_spec {s t : Slot} {a : SlotAction} (h : slotStep s a = some t) :
    SlotStep s a t := by
  cases a with
  | framePop picture =>
      simp only [slotStep] at h
      cases hpop : popBinEvent s.inst .empty with
      | none =>
          rw [hpop] at h
          cases h
          exact .starved (popBinEvent_eq_none_iff.1 hpop)
      | some r =>
          rw [hpop] at h
          obtain ⟨as, hempty, hinst⟩ := popBinEvent_eq_some_iff.1 hpop
          cases h
          rw [hinst]
          exact .popped hempty
  | frameFill k =>
      simp only [slotStep] at h
      cases hk : s.hands.decoders[k]? with
      | none => simp [hk] at h
      | some call =>
          obtain ⟨l₁, l₂, hcalls, -, hset⟩ := exists_split_of_getElem? hk
          rw [hk] at h
          cases h
          rw [hset]
          exact .filled hcalls
  | framePush k =>
      simp only [slotStep] at h
      cases hk : s.hands.decoders[k]? with
      | none => simp [hk] at h
      | some call =>
          obtain ⟨l₁, l₂, hcalls, herase, -⟩ := exists_split_of_getElem? hk
          by_cases hfilled : call.filled = true
          · simp only [hk, hfilled, if_true] at h
            cases h
            rw [herase]
            exact .pushed hk hcalls hfilled
          · simp [hk, hfilled] at h
  | collectPop =>
      simp only [slotStep] at h
      cases hrenderer : s.hands.renderer with
      | some r => simp [hrenderer] at h
      | none =>
          rw [hrenderer] at h
          cases hpop : popBinEvent s.inst .current with
          | none =>
              rw [hpop] at h
              cases h
              exact .idle hrenderer (popBinEvent_eq_none_iff.1 hpop)
          | some r =>
              rw [hpop] at h
              obtain ⟨as, hcurrent, hinst⟩ := popBinEvent_eq_some_iff.1 hpop
              cases h
              rw [hinst]
              exact .collected hrenderer hcurrent
  | collectCopy =>
      simp only [slotStep] at h
      split at h
      · rename_i a hrenderer
        cases hpicture : s.inst.imageHeap[a]? with
        | none => simp [hpicture] at h
        | some picture =>
            by_cases hfits : pictureBytes ≤ s.inst.lastTextureBuffer.length
            · simp only [hpicture, copyPicture, hfits, if_true, Option.map_some] at h
              cases h
              exact .copied hrenderer hpicture hfits
            · simp [hpicture, copyPicture, hfits] at h
      · cases h
  | collectPush =>
      simp only [slotStep] at h
      split at h
      · rename_i a hrenderer
        cases h
        exact .returned hrenderer
      · cases h

namespace Slot

/-- Each buffer allocated for the slot is in exactly one place. -/
def Custody (s : Slot) : Prop :=
  InCustody s.places (List.range s.inst.imageHeap.length)

theorem Custody.step {s t : Slot} {a : SlotAction} (hs : s.Custody) (h : SlotStep s a t) :
    t.Custody := by
  intro b
  have hb := hs b
  cases h with
  | starved => exact hb
  | idle => exact hb
  | popped hempty =>
      simp only [places, copies_cons, copies_nil, hempty, List.count_cons, List.map_append,
        List.count_append, List.map_cons, List.map_nil, List.count_nil] at hb ⊢
      omega
  | filled hcalls =>
      simp only [places, copies_cons, copies_nil, hcalls, List.map_append, List.map_cons,
        List.count_append, List.count_cons, List.length_set] at hb ⊢
      exact hb
  | pushed hk hcalls hfilled =>
      simp only [places, copies_cons, copies_nil, hcalls, List.map_append, List.map_cons,
        List.count_append, List.count_cons, List.count_nil] at hb ⊢
      omega
  | collected hrenderer hcurrent =>
      simp only [places, copies_cons, copies_nil, hrenderer, hcurrent, Option.map_none,
        Option.map_some, Option.toList_none, Option.toList_some, List.count_cons,
        List.count_nil] at hb ⊢
      omega
  | copied hrenderer hpicture hfits =>
      simp only [places, hrenderer] at hb ⊢
      exact hb
  | returned hrenderer =>
      simp only [places, copies_cons, copies_nil, hrenderer, Option.map_none,
        Option.map_some, Option.toList_none, Option.toList_some, List.count_append,
        List.count_cons, List.count_nil] at hb ⊢
      omega

/-- The buffers of a later `event_init` are new. -/
theorem Custody.eventInit {s : Slot} (hs : s.Custody) :
    Custody ⟨Bres.eventInit s.inst, s.hands⟩ := by
  intro b
  have hb := hs b
  have hrange : List.range (s.inst.imageHeap.length + 30) =
      List.range s.inst.imageHeap.length ++ List.range' s.inst.imageHeap.length 30 := by
    rw [List.range_eq_range', List.range_eq_range', ← List.range'_append_1]
    simp
  simp only [places, Bres.eventInit, copies_cons, copies_nil, List.count_append,
    List.length_append, List.length_replicate, hrange] at hb ⊢
  omega

/-- The slot has as many buffers as were ever allocated for it. -/
theorem Custody.sum_length {s : Slot} (hs : s.Custody) :
    s.inst.eventsImageEmpty.length + s.inst.eventsImageCurrent.length +
      s.hands.decoders.length + s.hands.renderer.toList.length =
        s.inst.imageHeap.length := by
  have hsum := InCustody.sum_length hs
  have hrenderer : (s.hands.renderer.map Prod.fst).toList.length =
      s.hands.renderer.toList.length := by
    cases s.hands.renderer <;> rfl
  simp only [places, List.map_cons, List.map_nil, List.sum_cons, List.sum_nil,
    List.length_map, List.length_range, hrenderer] at hsum
  omega

end Slot

end Bres
