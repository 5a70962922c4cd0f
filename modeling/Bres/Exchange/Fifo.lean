import Bres.Exchange.Custody
import Bres.Transition.Run

/-!
# Pictures are copied in the order they were pushed

`Exchange` is a slot with three logs: the pictures of the `OnFrame` calls that
obtained a buffer, the pictures pushed as current, and what the collection has
copied to `lastTextureBuffer`. The logs only record; no step reads them.

`Exchange.Fifo` relates them to the slot. What was pushed is what was copied,
followed by the contents of the buffers that wait to be copied, so no picture is
lost, copied twice or overwritten while it waits.
-/

namespace Bres

open Transition

/-- A picture at the front of a buffer is what the first bytes of it are. -/
theorem Picture.take_append (picture : Picture) (rest : Bytes) :
    (picture.bytes ++ rest).take pictureBytes = picture.bytes := by
  rw [List.take_append_of_le_length picture.size_eq.ge,
    List.take_of_length_le picture.size_eq.le]

/-- A slot with the logs of its pictures. -/
structure Exchange where
  slot : Slot
  obtained : List Picture := []
  pushed : List Picture := []
  copied : List Bytes := []

/-- A later `event_init`, or a step of one of the two sides. -/
inductive ExchangeAction where
  | eventInit
  | slot (a : SlotAction)

/-- No `event_init` has been made on the instance. -/
structure Instance.HasNoBuffers (inst : Instance) : Prop where
  heap : inst.imageHeap = []
  empty : inst.eventsImageEmpty = []
  current : inst.eventsImageCurrent = []

namespace Exchange

/-- The logs after a step of the slot to `t`. -/
def record (e : Exchange) (a : SlotAction) (t : Slot) : Exchange :=
  match a with
  | .framePop picture =>
      if e.slot.inst.eventsImageEmpty = [] then { e with slot := t }
      else { e with slot := t, obtained := e.obtained ++ [picture] }
  | .framePush k =>
      { e with
        slot := t
        pushed := e.pushed ++ (e.slot.hands.decoders[k]?.map FrameCall.picture).toList }
  | .collectCopy =>
      { e with slot := t, copied := e.copied ++ [t.inst.lastTextureBuffer.take pictureBytes] }
  | _ => { e with slot := t }

def step (e : Exchange) : ExchangeAction → Option Exchange
  | .eventInit => some { e with slot := ⟨Bres.eventInit e.slot.inst, e.slot.hands⟩ }
  | .slot a => (slotStep e.slot a).map (e.record a)

/-- A slot with nothing logged and no hand on its buffers. -/
def start (inst : Instance) : Exchange := { slot := ⟨inst, {}⟩ }

end Exchange

namespace Slot

/-- The bytes in a buffer of the slot. -/
def bytesAt (s : Slot) (a : Addr) : Option Bytes :=
  s.inst.imageHeap[a]?.map Picture.bytes

theorem bytesAt_eq {s : Slot} {a : Addr} {picture : Picture}
    (h : s.inst.imageHeap[a]? = some picture) : s.bytesAt a = some picture.bytes := by
  rw [bytesAt, h, Option.map_some]

/-- Under custody, a buffer in the hand of an `OnFrame` call is nowhere else. -/
theorem Custody.ne_of_decoders {s : Slot} (hs : s.Custody) {call : FrameCall}
    {l₁ l₂ : List FrameCall} (hcalls : s.hands.decoders = l₁ ++ call :: l₂) :
    call.addr < s.inst.imageHeap.length ∧
      (∀ other ∈ l₁ ++ l₂, other.addr ≠ call.addr) ∧ ∀ a ∈ s.waiting, a ≠ call.addr := by
  have hmem : call.addr ∈ List.range s.inst.imageHeap.length := by
    refine InCustody.mem_tokens hs (p := s.hands.decoders.map FrameCall.addr)
      (by simp [places]) ?_
    simp [hcalls]
  have hone := InCustody.copies_eq_one hs List.nodup_range hmem
  simp only [places, copies_cons, copies_nil, hcalls, List.map_append, List.map_cons,
    List.count_append, List.count_cons_self] at hone
  refine ⟨List.mem_range.1 hmem, fun other hother heq => ?_, fun a ha heq => ?_⟩
  · have hpos : 0 < ((l₁ ++ l₂).map FrameCall.addr).count call.addr :=
      List.count_pos_iff.2 (List.mem_map.2 ⟨other, hother, heq⟩)
    rw [List.map_append, List.count_append] at hpos
    omega
  · rw [heq] at ha
    rcases List.mem_append.1 ha with hrenderer | hcurrent
    · split at hrenderer
      · rename_i b hb
        obtain rfl : call.addr = b := by simpa using hrenderer
        simp only [hb, Option.map_some, Option.toList_some, List.count_singleton_self] at hone
        omega
      · cases hrenderer
    · have hpos := List.count_pos_iff.2 hcurrent
      omega

/-- Under custody, the buffers that wait have been allocated. -/
theorem Custody.lt_of_waiting {s : Slot} (hs : s.Custody) {a : Addr} (ha : a ∈ s.waiting) :
    a < s.inst.imageHeap.length := by
  refine List.mem_range.1 ?_
  rcases List.mem_append.1 ha with hrenderer | hcurrent
  · split at hrenderer
    · rename_i b hb
      obtain rfl : a = b := by simpa using hrenderer
      exact InCustody.mem_tokens hs
        (p := (s.hands.renderer.map Prod.fst).toList) (by simp [places]) (by simp [hb])
    · cases hrenderer
  · exact InCustody.mem_tokens hs (p := s.inst.eventsImageCurrent) (by simp [places]) hcurrent

end Slot

namespace Exchange

/-- How the logs stand to the slot. -/
structure Fifo (e : Exchange) : Prop where
  custody : e.slot.Custody
  filled : ∀ call ∈ e.slot.hands.decoders, call.filled = true →
    e.slot.inst.imageHeap[call.addr]? = some call.picture
  pushed_eq : (e.pushed.map fun picture => some picture.bytes) =
    e.copied.map some ++ e.slot.waiting.map e.slot.bytesAt
  obtained_perm : e.obtained.Perm
    (e.pushed ++ e.slot.hands.decoders.map FrameCall.picture)

theorem start_fifo {inst : Instance} (h : inst.HasNoBuffers) : (start inst).Fifo where
  custody a := by simp [start, Slot.places, h.heap, h.empty, h.current]
  filled := nofun
  pushed_eq := by simp [start, Slot.waiting, h.current]
  obtained_perm := .nil

theorem Fifo.eventInit {e : Exchange} (he : e.Fifo) :
    Fifo { e with slot := ⟨Bres.eventInit e.slot.inst, e.slot.hands⟩ } where
  custody := he.custody.eventInit
  filled call hcall hfilled := by
    have hold := he.filled call hcall hfilled
    obtain ⟨hlt, -⟩ := List.getElem?_eq_some_iff.1 hold
    exact (List.getElem?_append_left hlt).trans hold
  pushed_eq := by
    refine he.pushed_eq.trans (congrArg _ (List.map_congr_left fun a ha => ?_))
    exact congrArg (Option.map Picture.bytes)
      (List.getElem?_append_left (he.custody.lt_of_waiting ha)).symm
  obtained_perm := he.obtained_perm

theorem Fifo.slot {e : Exchange} {a : SlotAction} {t : Slot} (he : e.Fifo)
    (h : SlotStep e.slot a t) : (e.record a t).Fifo := by
  have hcustody := he.custody.step h
  cases h with
  | starved hempty =>
      rw [record, if_pos hempty]
      exact ⟨hcustody, he.filled, he.pushed_eq, he.obtained_perm⟩
  | @popped picture b as hempty =>
      have hsome : e.slot.inst.eventsImageEmpty ≠ [] := by simp [hempty]
      rw [record, if_neg hsome]
      refine ⟨hcustody, fun call hcall hfilled => ?_, he.pushed_eq, ?_⟩
      · rcases List.mem_append.1 hcall with hcall | hcall
        · exact he.filled call hcall hfilled
        · rw [List.mem_singleton.1 hcall] at hfilled
          cases hfilled
      · rw [List.map_append, ← List.append_assoc]
        exact he.obtained_perm.append_right [picture]
  | @filled k call l₁ l₂ hcalls =>
      obtain ⟨hlt, hothers, hwaiting⟩ := he.custody.ne_of_decoders hcalls
      refine ⟨hcustody, fun other hother hfilled => ?_, ?_, ?_⟩
      · have hcases : other = { call with filled := true } ∨ other ∈ l₁ ++ l₂ :=
          List.mem_cons.1 (List.perm_middle.mem_iff.1 hother)
        rcases hcases with rfl | hother
        · exact List.getElem?_set_self hlt
        · have hmem : other ∈ e.slot.hands.decoders := by
            rw [hcalls]
            exact List.perm_middle.mem_iff.2 (List.mem_cons_of_mem _ hother)
          have hold := he.filled other hmem hfilled
          exact (List.getElem?_set_ne (hothers other hother).symm).trans hold
      · refine he.pushed_eq.trans (congrArg _ (List.map_congr_left fun b hb => ?_))
        exact congrArg (Option.map Picture.bytes)
          (List.getElem?_set_ne (hwaiting b hb).symm).symm
      · simpa [record, hcalls] using he.obtained_perm
  | @pushed k call l₁ l₂ hk hcalls hfilled =>
      have hpicture := he.filled call (by simp [hcalls]) hfilled
      simp only [record, hk, Option.map_some, Option.toList_some]
      refine ⟨hcustody, fun other hother => he.filled other ?_, ?_, ?_⟩
      · rw [hcalls]
        exact List.mem_append.2 ((List.mem_append.1 hother).imp_right (List.mem_cons_of_mem _))
      · have hbytes := Slot.bytesAt_eq hpicture
        rw [List.map_append, he.pushed_eq, List.append_assoc]
        simp only [Slot.waiting, List.map_append, List.map_cons, List.map_nil, ← hbytes,
          List.append_assoc]
        rfl
      · refine he.obtained_perm.trans ?_
        rw [hcalls, List.append_assoc]
        refine List.Perm.append_left _ ?_
        simp
  | idle hrenderer hcurrent =>
      exact ⟨hcustody, he.filled, he.pushed_eq, he.obtained_perm⟩
  | collected hrenderer hcurrent =>
      refine ⟨hcustody, he.filled, he.pushed_eq.trans ?_, he.obtained_perm⟩
      simp only [Slot.waiting, hrenderer, hcurrent, record]
      rfl
  | @copied b picture hrenderer hpicture hfits =>
      refine ⟨hcustody, he.filled, he.pushed_eq.trans ?_, he.obtained_perm⟩
      have hbytes := Slot.bytesAt_eq hpicture
      simp only [Slot.waiting, hrenderer, record, picture.take_append, List.map_append,
        List.map_cons, List.map_nil, hbytes, List.append_assoc]
      rfl
  | @returned b hrenderer =>
      refine ⟨hcustody, he.filled, he.pushed_eq.trans ?_, he.obtained_perm⟩
      simp only [Slot.waiting, hrenderer, record]
      rfl

/-- Every step keeps the logs and the slot together. -/
theorem Fifo.step {e f : Exchange} {a : ExchangeAction} (he : e.Fifo)
    (h : e.step a = some f) : f.Fifo := by
  cases a with
  | eventInit =>
      cases h
      exact he.eventInit
  | slot a =>
      obtain ⟨t, ht, rfl⟩ := Option.map_eq_some_iff.1 h
      exact he.slot (slotStep_spec ht)

/-- The invariant in the words of the exchange: at the end of any run each buffer
is in one place, the pictures pushed are those copied followed by those that wait
in their buffers, and every picture obtained has been pushed or is still in the
hand of its `OnFrame` call. -/
theorem run_fifo {inst : Instance} (hinst : inst.HasNoBuffers) {as : List ExchangeAction}
    {e : Exchange} (h : run step (start inst) as = some e) :
    (∀ a, copies e.slot.places a = if a < e.slot.inst.imageHeap.length then 1 else 0) ∧
      (e.pushed.map fun picture => some picture.bytes) =
        e.copied.map some ++ e.slot.waiting.map e.slot.bytesAt ∧
      e.obtained.Perm (e.pushed ++ e.slot.hands.decoders.map FrameCall.picture) := by
  have he : e.Fifo := run_preserves (fun _ _ _ hs hstep => hs.step hstep) (start_fifo hinst) h
  exact ⟨InCustody.copies_eq_ite he.custody, he.pushed_eq, he.obtained_perm⟩

theorem startup_hasNoBuffers : Instance.startup.HasNoBuffers := ⟨rfl, rfl, rfl⟩

/-- One `OnFrame` call and one collection after it. -/
theorem run_fifo_single :
    ∃ e, run step (start Instance.startup)
        [.eventInit, .slot (.framePop Picture.zero), .slot (.frameFill 0),
          .slot (.framePush 0), .slot .collectPop, .slot .collectCopy] = some e ∧
      e.copied.length = 1 ∧
      (∀ a, copies e.slot.places a = if a < e.slot.inst.imageHeap.length then 1 else 0) ∧
      (e.pushed.map fun picture => some picture.bytes) =
        e.copied.map some ++ e.slot.waiting.map e.slot.bytesAt ∧
      e.obtained.Perm (e.pushed ++ e.slot.hands.decoders.map FrameCall.picture) := by
  obtain ⟨e, he, hrenderer, hpicture, hbuffer, hcopied⟩ :
      ∃ e, run step (start Instance.startup)
          [.eventInit, .slot (.framePop Picture.zero), .slot (.frameFill 0),
            .slot (.framePush 0), .slot .collectPop] = some e ∧
        e.slot.hands.renderer = some (0, false) ∧
        e.slot.inst.imageHeap[0]? = some Picture.zero ∧
        e.slot.inst.lastTextureBuffer = Picture.zero.bytes ∧ e.copied = [] :=
    ⟨_, rfl, rfl, rfl, rfl, rfl⟩
  have hcopy := slotStep_collectCopy hrenderer hpicture
    (by rw [hbuffer, Picture.zero.size_eq])
  obtain ⟨f, hf, hlength⟩ : ∃ f, e.step (.slot .collectCopy) = some f ∧ f.copied.length = 1 := by
    rw [step, hcopy]
    exact ⟨_, rfl, by simp [record, hcopied]⟩
  have hrun := run_snoc he hf
  exact ⟨f, hrun, hlength, run_fifo startup_hasNoBuffers hrun⟩

end Exchange

end Bres
