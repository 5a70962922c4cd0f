import Bres.Pool.World

/-!
# The number of picture buffers

`subscribeSideAddChannel` calls `event_init`, which allocates thirty buffers, and
nothing calls `event_quit`. Under custody the buffers in the queues and in the
threads' hands are all that were ever allocated for the slot, so the number is
thirty in a slot that holds a channel, and none in a free one, exactly as long
as no delete frees a slot that holds a channel.
-/

namespace Bres

open Transition

/-- The number of buffers that exist for a slot. -/
def Slot.buffers (s : Slot) : ℕ :=
  s.inst.eventsImageEmpty.length + s.inst.eventsImageCurrent.length +
    s.hands.decoders.length + s.hands.renderer.toList.length

namespace World

/-- Thirty buffers for a slot that holds a channel, and none for a free one. -/
def BuffersKept (w : World) : Prop :=
  ∀ i, ((w.pool.slot i).instanceEnum = .instance00 → (w.slot i).buffers = 30) ∧
    ((w.pool.slot i).instanceEnum = .min → (w.slot i).buffers = 0)

/-- The step is no delete, of either kind, that frees a slot with a channel in it. -/
def FreesNoChannel (P : Platform) (w : World) : WorldAction → Prop
  | .command _ ev =>
      ∀ i, (w.pool.slot i).instanceEnum = .instance00 →
        ¬ P.DeletesChannel ev (w.pool.slot i).channelId ∧
          ¬ P.DeletesImage ev (w.pool.slot i).imagePath
  | .thread _ _ => True

end World

/-- The buffers allocated for a slot are those of the channel in it. -/
def Instance.HeapKept (inst : Instance) : Prop :=
  inst.imageHeap.length = if inst.instanceEnum = .instance00 then 30 else 0

theorem Slot.Sound.buffers_eq {s : Slot} (hs : s.Sound) :
    s.buffers = s.inst.imageHeap.length := hs.custody.sum_length

theorem SlotStep.heap_length {s t : Slot} {a : SlotAction} (h : SlotStep s a t) :
    t.inst.imageHeap.length = s.inst.imageHeap.length := by
  cases h with
  | filled hcalls => exact List.length_set
  | _ => rfl

theorem ThreadStep.heap_length {s t : Slot} (h : ThreadStep s t) :
    t.inst.imageHeap.length = s.inst.imageHeap.length := by
  cases h with
  | exchange hallowed h => exact h.heap_length
  | quiet hsame => rw [hsame.heap]
  | queued hsame => rw [hsame.heap]
  | taken hsame => rw [hsame.heap]

/-- An allowed command keeps the number of buffers that belongs to the slot. -/
theorem SlotChange.heapKept {P : Platform} {env : Answers} {ev : SEvent} {w : World}
    {i : Fin instanceMax} {inst : Instance} (h : SlotChange P env ev w.pool i inst)
    (hallowed : w.FreesNoChannel P (.command env ev)) (hi : (w.pool.slot i).HeapKept) :
    inst.HeapKept := by
  unfold Instance.HeapKept at hi ⊢
  cases h with
  | kept => exact hi
  | opened htype hparse hid htoken hmulti hserver hindex =>
      have hfree := Pool.isFree_of_freeIndex_eq hindex
      rw [hfree] at hi
      simpa using hi
  | shown htype hparse hpath hposX hposY hload hx hy hindex =>
      have hfree := Pool.isFree_of_freeIndex_eq hindex
      rw [hfree] at hi
      exact hi
  | closed htype hparse hid hmatch hlive =>
      have hchannel : (w.pool.slot i).instanceEnum ≠ .instance00 := fun henum =>
        (hallowed i henum).1 ⟨htype, _, hparse, hmatch ▸ hid⟩
      rw [if_neg hchannel] at hi
      exact hi
  | freed htype hparse hpath hmatch =>
      have hchannel : (w.pool.slot i).instanceEnum ≠ .instance00 := fun henum =>
        (hallowed i henum).2 ⟨htype, _, hparse, hmatch ▸ hpath⟩
      rw [if_neg hchannel] at hi
      exact hi
  | updated => exact hi

theorem SlotEffect.heapKept {P : Platform} {w : World} {a : WorldAction}
    {i : Fin instanceMax} {t : Slot} (h : SlotEffect P w a i t)
    (hallowed : w.FreesNoChannel P a) (hi : (w.pool.slot i).HeapKept) : t.inst.HeapKept := by
  cases h with
  | untouched => exact hi
  | commanded ha hidle hchange =>
      subst ha
      exact hchange.heapKept hallowed hi
  | worked ha hthread =>
      unfold Instance.HeapKept
      rw [hthread.heap_length, hthread.instanceEnum_eq]
      exact hi

namespace World

variable {P : Platform} {w w' : World} {a : WorldAction}

/-- The invariant behind `BuffersKept`. -/
structure Stocked (w : World) : Prop where
  sound : w.Sound
  heap : ∀ i, (w.pool.slot i).HeapKept

theorem startup_stocked : startup.Stocked := ⟨startup_sound, fun _ => rfl⟩

theorem Stocked.step (hw : w.Stocked) (hallowed : w.FreesNoChannel P a)
    (h : w.step P a = some w') : w'.Stocked :=
  ⟨hw.sound.step h, fun i => (hw.sound.effect h i).heapKept hallowed (hw.heap i)⟩

theorem Stocked.buffers_eq (hw : w.Stocked) (i : Fin instanceMax) :
    (w.slot i).buffers = if (w.pool.slot i).instanceEnum = .instance00 then 30 else 0 :=
  (hw.sound i).buffers_eq.trans (hw.heap i)

theorem Stocked.buffersKept (hw : w.Stocked) : w.BuffersKept := by
  intro i
  rw [hw.buffers_eq i]
  refine ⟨fun henum => if_pos henum, fun henum => if_neg ?_⟩
  rw [henum]
  nofun

/-- A delete that frees a slot with a channel in it leaves the buffers there. -/
theorem Stocked.not_buffersKept (hw : w.Stocked) (hbad : ¬ w.FreesNoChannel P a)
    (h : w.step P a = some w') : ¬ w'.BuffersKept := by
  cases a with
  | thread i x => exact absurd trivial hbad
  | command env ev =>
      simp only [FreesNoChannel, not_forall, not_and_or, not_not] at hbad
      obtain ⟨i, henum, hbad⟩ := hbad
      obtain ⟨-, -, -, pool, hexec, -, rfl⟩ := command_eq_some h
      have hheap : (w.pool.slot i).imageHeap.length = 30 := (hw.heap i).trans (if_pos henum)
      have hfreed : (pool.slot i).instanceEnum = .min ∧
          (pool.slot i).imageHeap = (w.pool.slot i).imageHeap := by
        rcases hbad with hdelete | hdelete
        · obtain ⟨htype, json, hparse, hid⟩ := hdelete
          simp only [executeCommand, htype] at hexec
          obtain ⟨-, rfl⟩ :=
            (deleteChannel_eq_done_iff hparse hid fun i => (hw.sound i).inst).1 hexec
          simp only [if_true]
          exact ⟨rfl, rfl⟩
        · obtain ⟨htype, json, hparse, hpath⟩ := hdelete
          simp only [executeCommand, htype, deleteImage_done hparse hpath,
            Outcome.done.injEq] at hexec
          subst hexec
          simp only [if_true]
          exact ⟨rfl, rfl⟩
      intro hkept
      have hzero := (hkept i).2 hfreed.1
      rw [((hw.sound.step h) i).buffers_eq] at hzero
      have hlength : (pool.slot i).imageHeap.length = 0 := hzero
      rw [hfreed.2, hheap] at hlength
      cases hlength

/-- In a run from the start, each slot has thirty buffers while it holds a channel
and none while it is free, if and only if no command frees a slot with a channel
in it. -/
theorem buffersKept_iff {as : List WorldAction} (h : run (step P) startup as = some w) :
    Always (step P) BuffersKept startup as ↔ Along (step P) (FreesNoChannel P) startup as := by
  constructor
  · have hallowed : ∀ (s : World) a t, s.Stocked → s.BuffersKept → s.step P a = some t →
        t.BuffersKept → s.FreesNoChannel P a := by
      intro s a t hs _ hstep ht
      by_contra hbad
      exact hs.not_buffersKept hbad hstep ht
    exact Always.along (I := Stocked)
      (fun s a t hs hkept hstep ht => hs.step (hallowed s a t hs hkept hstep ht) hstep)
      hallowed startup_stocked h
  · intro halong
    have hstocked : Always (step P) Stocked startup as :=
      halong.always (fun _ _ _ hs hallowed hstep => hs.step hallowed hstep) startup_stocked
    exact hstocked.mono fun _ hs => hs.buffersKept

/-- The equivalence at a run of one add. -/
theorem buffersKept_iff_add :
    ∃ w, run (step Sample.platform) startup
        [Sample.command 1 .subscribeAddChannel Sample.addChannel] = some w ∧
      (Always (step Sample.platform) BuffersKept startup
          [Sample.command 1 .subscribeAddChannel Sample.addChannel] ↔
        Along (step Sample.platform) (FreesNoChannel Sample.platform) startup
          [Sample.command 1 .subscribeAddChannel Sample.addChannel]) := by
  have hsome : (run (step Sample.platform) startup
      [Sample.command 1 .subscribeAddChannel Sample.addChannel]).isSome := by
    decide +kernel
  obtain ⟨w, hw⟩ := Option.isSome_iff_exists.1 hsome
  exact ⟨w, hw, buffersKept_iff hw⟩

/-- A channel that is added, deleted and added again has sixty buffers. -/
theorem not_buffersKept_add_delete_add :
    ∃ w, run (step Sample.platform) startup
        [Sample.command 1 .subscribeAddChannel Sample.addChannel,
          Sample.command 2 .subscribeDeleteChannel Sample.deleteChannel,
          Sample.command 3 .subscribeAddChannel Sample.addChannel] = some w ∧
      (w.pool.slot 0).instanceEnum = .instance00 ∧ (w.slot 0).buffers = 60 ∧
      ¬ w.BuffersKept := by
  have hobserved : (run (step Sample.platform) startup
        [Sample.command 1 .subscribeAddChannel Sample.addChannel,
          Sample.command 2 .subscribeDeleteChannel Sample.deleteChannel,
          Sample.command 3 .subscribeAddChannel Sample.addChannel]).map
      (fun w => ((w.pool.slot 0).instanceEnum, (w.slot 0).buffers)) =
        some (.instance00, 60) := by
    decide +kernel
  obtain ⟨w, hw, hpair⟩ := Option.map_eq_some_iff.1 hobserved
  obtain ⟨henum, hbuffers⟩ := Prod.mk.inj hpair
  refine ⟨w, hw, henum, hbuffers, fun hkept => ?_⟩
  have hthirty := (hkept 0).1 henum
  rw [hbuffers] at hthirty
  cases hthirty

end World

end Bres
