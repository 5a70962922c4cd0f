import Bres.Event.Queue

/-!
# The exchange of picture buffers

The decoder side of a slot (`OnFrame` in `inc/bres+client_webrtc_inl.hh`) and
its renderer side (the collection loop of `main`) pass the buffers of the slot
back and forth through two queues. An `OnFrame` call pops an empty buffer, fills
it and pushes it as current; a collection pops a current buffer, copies it to
`lastTextureBuffer` and pushes it back as empty. Every one of these is a step of
its own, and any number of `OnFrame` calls may be under way at once.

`Hands` is what the two sides hold between their steps.
-/

namespace Bres

/-- An `OnFrame` call that has obtained a buffer. -/
structure FrameCall where
  addr : Addr
  picture : Picture
  filled : Bool

/-- The buffers that are in neither queue: those of the `OnFrame` calls under way,
and the one that the collection holds, with a mark once it has been copied. -/
structure Hands where
  decoders : List FrameCall := []
  renderer : Option (Addr × Bool) := none

/-- An instance with the threads that work on its pictures. -/
structure Slot where
  inst : Instance
  hands : Hands

inductive SlotAction where
  | framePop (picture : Picture)
  | frameFill (k : ℕ)
  | framePush (k : ℕ)
  | collectPop
  | collectCopy
  | collectPush

/-- `memcpy` of a picture to the front of a buffer; `none` past its end. -/
def copyPicture (dst : Bytes) (picture : Picture) : Option Bytes :=
  if pictureBytes ≤ dst.length then some (picture.bytes ++ dst.drop pictureBytes) else none

/-- One step of a decoder thread or of the collection. An `OnFrame` call that
finds no empty buffer returns, and a collection that finds no current buffer
moves on, so both leave the slot as it is. -/
def slotStep (s : Slot) : SlotAction → Option Slot
  | .framePop picture =>
      match popBinEvent s.inst .empty with
      | none => some s
      | some (a, inst) =>
          some ⟨inst, { s.hands with decoders := s.hands.decoders ++ [⟨a, picture, false⟩] }⟩
  | .frameFill k =>
      match s.hands.decoders[k]? with
      | none => none
      | some call =>
          some ⟨{ s.inst with imageHeap := s.inst.imageHeap.set call.addr call.picture },
            { s.hands with decoders := s.hands.decoders.set k { call with filled := true } }⟩
  | .framePush k =>
      match s.hands.decoders[k]? with
      | none => none
      | some call =>
          if call.filled then
            some ⟨pushBinEvent s.inst .current call.addr,
              { s.hands with decoders := s.hands.decoders.eraseIdx k }⟩
          else none
  | .collectPop =>
      match s.hands.renderer with
      | some _ => none
      | none =>
          match popBinEvent s.inst .current with
          | none => some s
          | some (a, inst) => some ⟨inst, { s.hands with renderer := some (a, false) }⟩
  | .collectCopy =>
      match s.hands.renderer with
      | some (a, false) =>
          match s.inst.imageHeap[a]? with
          | none => none
          | some picture =>
              (copyPicture s.inst.lastTextureBuffer picture).map fun buffer =>
                ⟨{ s.inst with lastTextureBuffer := buffer },
                  { s.hands with renderer := some (a, true) }⟩
      | _ => none
  | .collectPush =>
      match s.hands.renderer with
      | some (a, true) =>
          some ⟨pushBinEvent s.inst .empty a, { s.hands with renderer := none }⟩
      | _ => none

theorem slotStep_collectCopy {s : Slot} {a : Addr} {picture : Picture}
    (hrenderer : s.hands.renderer = some (a, false))
    (hpicture : s.inst.imageHeap[a]? = some picture)
    (hfits : pictureBytes ≤ s.inst.lastTextureBuffer.length) :
    slotStep s .collectCopy =
      some ⟨{ s.inst with lastTextureBuffer :=
          picture.bytes ++ s.inst.lastTextureBuffer.drop pictureBytes },
        { s.hands with renderer := some (a, true) }⟩ := by
  simp only [slotStep, hrenderer, hpicture, copyPicture, hfits, if_true, Option.map_some]

/-- The places where a buffer of the slot can be: the empty queue, the current
queue, the decoders' hands and the renderer's hand. -/
def Slot.places (s : Slot) : List (List Addr) :=
  [s.inst.eventsImageEmpty, s.inst.eventsImageCurrent,
    s.hands.decoders.map FrameCall.addr, (s.hands.renderer.map Prod.fst).toList]

/-- The buffers whose picture waits to be copied, in order. -/
def Slot.waiting (s : Slot) : List Addr :=
  (match s.hands.renderer with
    | some (a, false) => [a]
    | _ => []) ++ s.inst.eventsImageCurrent

end Bres
