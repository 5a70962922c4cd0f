import Bres.Pool.World

/-!
# Who an entry of a queue was meant for

`Delivery` numbers the occupants of each slot and stamps every entry of its four
queues with the occupant that was in place when the entry was pushed and with the
occupant whose connection pushed it. The stamps follow the queues: an entry new at
the end gets one, and an entry taken from the front takes its stamp along.

An add leaves the queues as they are. So an entry that is taken carries the stamps
of the present occupant as long as every add takes a slot with nothing left in the
queues that will be read.
-/

namespace Bres

open Transition

/-- The four queues that carry something for an occupant. -/
inductive Lane where
  | events (order : EventOrder)
  | current

/-- The number of entries in a queue. -/
def Instance.lane (inst : Instance) : Lane → ℕ
  | .events order => (inst.events order).length
  | .current => inst.eventsImageCurrent.length

/-- The occupant in place when an entry was pushed, and the one whose connection
pushed it. -/
structure Stamp where
  occupant : ℕ
  sender : ℕ
deriving DecidableEq

/-- The stamps of a queue that goes from `before` to `after` entries. -/
def restamp (stamp : Stamp) (before after : ℕ) (stamps : List Stamp) : List Stamp :=
  stamps.drop (before - after) ++ List.replicate (after - before) stamp

theorem length_restamp {stamp : Stamp} {before after : ℕ} {stamps : List Stamp}
    (h : stamps.length = before) : (restamp stamp before after stamps).length = after := by
  rw [restamp, List.length_append, List.length_drop, List.length_replicate]
  omega

theorem mem_restamp {stamp s : Stamp} {before after : ℕ} {stamps : List Stamp}
    (h : s ∈ restamp stamp before after stamps) :
    s ∈ stamps ∨ (before < after ∧ s = stamp) := by
  rcases List.mem_append.1 h with h | h
  · exact .inl (List.mem_of_mem_drop h)
  · obtain ⟨hne, rfl⟩ := List.mem_replicate.1 h
    exact .inr ⟨by omega, rfl⟩

structure Delivery where
  world : World
  /-- The number of the present occupant. -/
  occupant : Fin instanceMax → ℕ := fun _ => 0
  /-- The occupant that the connection of the slot was made for. -/
  connection : Fin instanceMax → ℕ := fun _ => 0
  stamps : Fin instanceMax → Lane → List Stamp := fun _ _ => []

/-- A free slot is taken. -/
def Instance.EnteredBy (inst inst' : Instance) : Prop :=
  inst.instanceEnum = .min ∧ inst'.instanceEnum ≠ .min

instance (inst inst' : Instance) : Decidable (inst.EnteredBy inst') :=
  inferInstanceAs (Decidable (_ ∧ _))

namespace Delivery

/-- The numbers and stamps after a step of the program to `w`. -/
def record (d : Delivery) (w : World) : Delivery :=
  let occupant i := if (d.world.pool.slot i).EnteredBy (w.pool.slot i)
    then d.occupant i + 1 else d.occupant i
  let connection i := if (d.world.pool.slot i).EnteredBy (w.pool.slot i) ∧
      (w.pool.slot i).instanceEnum = .instance00
    then occupant i else d.connection i
  { world := w
    occupant := occupant
    connection := connection
    stamps := fun i lane => restamp ⟨occupant i, connection i⟩
      ((d.world.pool.slot i).lane lane) ((w.pool.slot i).lane lane) (d.stamps i lane) }

def step (P : Platform) (d : Delivery) (a : WorldAction) : Option Delivery :=
  (d.world.step P a).map d.record

def startup : Delivery := { world := World.startup }

/-- Whatever the step takes from a queue was pushed while the present occupant of
the slot was in place, and by its own connection. -/
def TakesOwn (P : Platform) (d : Delivery) (a : WorldAction) : Prop :=
  ∀ w, d.world.step P a = some w → ∀ i lane,
    (w.pool.slot i).lane lane < (d.world.pool.slot i).lane lane →
      (d.stamps i lane).head? = some ⟨d.occupant i, d.occupant i⟩

/-- The step is no add that takes a slot with something left in it: a channel finds
its four queues empty, and an image finds the audio and the current queue empty and
no connection alive. -/
def EntersClean (P : Platform) (d : Delivery) : WorldAction → Prop
  | .command env ev =>
      ∀ i : Fin instanceMax, d.world.pool.freeIndex = i →
        (P.AddsChannel ev → ∀ lane, (d.world.pool.slot i).lane lane = 0) ∧
          ∀ image, P.AddsImage env ev image →
            (d.world.pool.slot i).lane (.events .audio) = 0 ∧
              (d.world.pool.slot i).lane .current = 0 ∧
                (d.world.pool.slot i).rtc.peerConnectionFactory ≠ .live
  | .thread _ _ => True

end Delivery

/-- Something reads the queue: the dispatch thread reads the two signaling queues
as long as the connection is there. -/
def Lane.Read (inst : Instance) : Lane → Prop
  | .events .audio => True
  | .current => True
  | .events _ => inst.rtc.peerConnectionFactory = .live

theorem Lane.Read.mono {inst inst' : Instance}
    (h : inst'.rtc.peerConnectionFactory = .live → inst.rtc.peerConnectionFactory = .live)
    {lane : Lane} (hread : lane.Read inst') : lane.Read inst := by
  match lane with
  | .events .audio => trivial
  | .current => trivial
  | .events .websocketsToWebrtc => exact h hread
  | .events .webrtcToWebsockets => exact h hread

theorem SlotStep.events_eq {s t : Slot} {a : SlotAction} (h : SlotStep s a t) :
    t.inst.events = s.inst.events := by
  funext order
  cases h <;> cases order <;> rfl

theorem Instance.SamePictures.lane_current {inst inst' : Instance}
    (h : inst.SamePictures inst') : inst'.lane .current = inst.lane .current :=
  congrArg List.length (congrFun h.images .current)

/-- A thread adds to a queue only while the connection is there, and takes from one
only if it is read. -/
theorem ThreadStep.lane {s t : Slot} (hs : s.Sound) (h : ThreadStep s t) (lane : Lane) :
    t.inst.lane lane = s.inst.lane lane ∨
      (s.inst.rtc.peerConnectionFactory = .live ∧ s.inst.lane lane < t.inst.lane lane) ∨
        (lane.Read s.inst ∧ t.inst.lane lane < s.inst.lane lane) := by
  cases h with
  | exchange hallowed h =>
      cases lane with
      | events order => exact .inl (congrArg List.length (congrFun h.events_eq order))
      | current =>
          cases h with
          | pushed hk hcalls =>
              refine .inr (.inl ⟨hs.live_of_decoders (by simp [hcalls]), ?_⟩)
              simp [Instance.lane]
          | collected hrenderer hcurrent =>
              exact .inr (.inr ⟨trivial, by simp [Instance.lane, hcurrent]⟩)
          | _ => exact .inl rfl
  | quiet hsame hevents =>
      cases lane with
      | events order => exact .inl (congrArg List.length (congrFun hevents order))
      | current => exact .inl hsame.lane_current
  | @queued inst order e hsame hlive hevents =>
      cases lane with
      | current => exact .inl hsame.lane_current
      | events other =>
          by_cases hother : other = order
          · subst hother
            exact .inr (.inl ⟨hlive, by simp [Instance.lane, hevents]⟩)
          · exact .inl (by simp [Instance.lane, hevents, hother])
  | @taken inst order e es hsame hhead hreader hevents =>
      cases lane with
      | current => exact .inl hsame.lane_current
      | events other =>
          by_cases hother : other = order
          · subst hother
            refine .inr (.inr ⟨?_, by simp [Instance.lane, hevents, hhead]⟩)
            cases other with
            | audio => trivial
            | _ => exact (hs.inst.live_of_joinable hreader).rtc.1
          · exact .inl (by simp [Instance.lane, hevents, hother])

/-- A command leaves the queues as they are. -/
theorem SlotChange.lane {P : Platform} {env : Answers} {ev : SEvent} {pool : Pool}
    {i : Fin instanceMax} {inst : Instance} (h : SlotChange P env ev pool i inst)
    (lane : Lane) : inst.lane lane = (pool.slot i).lane lane := by
  match lane with
  | .current => cases h <;> rfl
  | .events order => cases h <;> cases order <;> rfl

/-- A slot that a command enters: the lowest free one, by the add of a channel or of
an image. -/
theorem SlotChange.entered {P : Platform} {env : Answers} {ev : SEvent} {pool : Pool}
    {i : Fin instanceMax} {inst : Instance} (h : SlotChange P env ev pool i inst)
    (hentered : (pool.slot i).EnteredBy inst) :
    pool.freeIndex = i ∧
      ((P.AddsChannel ev ∧ inst.instanceEnum = .instance00) ∨
        ∃ image, P.AddsImage env ev image ∧ inst.instanceEnum = .instanceLocal00 ∧
          inst.rtc = (pool.slot i).rtc) := by
  obtain ⟨hfree, htaken⟩ := hentered
  cases h with
  | kept => exact absurd hfree htaken
  | opened htype hparse hid htoken hmulti hserver hindex =>
      exact ⟨hindex, .inl ⟨Platform.addsChannel_of_strings htype hparse hid htoken hmulti
        hserver, rfl⟩⟩
  | shown htype hparse hpath hposX hposY hload hx hy hindex =>
      exact ⟨hindex, .inr ⟨_, Platform.addsImage_of_strings htype hparse hpath hposX hposY
        hload, rfl, rfl⟩⟩
  | closed => exact absurd rfl htaken
  | freed => exact absurd rfl htaken
  | updated => exact absurd hfree htaken

theorem SlotChange.live_of_not_entered {P : Platform} {env : Answers} {ev : SEvent}
    {pool : Pool} {i : Fin instanceMax} {inst : Instance}
    (h : SlotChange P env ev pool i inst) (hentered : ¬ (pool.slot i).EnteredBy inst)
    (hlive : inst.rtc.peerConnectionFactory = .live) :
    (pool.slot i).rtc.peerConnectionFactory = .live := by
  cases h with
  | opened htype hparse hid htoken hmulti hserver hindex =>
      exact absurd ⟨Pool.isFree_of_freeIndex_eq hindex, nofun⟩ hentered
  | closed => cases hlive
  | _ => exact hlive

/-! ## The invariant -/

namespace Delivery

variable {P : Platform} {d : Delivery} {i : Fin instanceMax}

/-- The stamps of a slot follow its queues, its connection is that of the present
occupant, and so is everything in a queue that is read. -/
structure Own (d : Delivery) (i : Fin instanceMax) : Prop where
  length : ∀ lane, (d.stamps i lane).length = (d.world.pool.slot i).lane lane
  connected : (d.world.pool.slot i).rtc.peerConnectionFactory = .live →
    d.connection i = d.occupant i
  stamped : ∀ lane, lane.Read (d.world.pool.slot i) → ∀ s ∈ d.stamps i lane,
    s = ⟨d.occupant i, d.occupant i⟩

theorem Own.length_record (hd : d.Own i) (w : World) (lane : Lane) :
    ((d.record w).stamps i lane).length = (w.pool.slot i).lane lane :=
  length_restamp (hd.length lane)

/-- A step that does not enter the slot, and that adds to its queues only while the
connection is there. -/
theorem Own.record_of_not_entered (hd : d.Own i) {w : World}
    (hentered : ¬ (d.world.pool.slot i).EnteredBy (w.pool.slot i))
    (hlive : (w.pool.slot i).rtc.peerConnectionFactory = .live →
      (d.world.pool.slot i).rtc.peerConnectionFactory = .live)
    (hpush : ∀ lane, (d.world.pool.slot i).lane lane < (w.pool.slot i).lane lane →
      (d.world.pool.slot i).rtc.peerConnectionFactory = .live) : (d.record w).Own i := by
  have hoccupant : (d.record w).occupant i = d.occupant i := if_neg hentered
  have hconnection : (d.record w).connection i = d.connection i :=
    if_neg fun h => hentered h.1
  refine ⟨hd.length_record w, fun h => ?_, fun lane hread s hs => ?_⟩
  · rw [hoccupant, hconnection]
    exact hd.connected (hlive h)
  · rw [hoccupant]
    rcases mem_restamp hs with hs | ⟨hlt, rfl⟩
    · exact hd.stamped lane (hread.mono hlive) s hs
    · have hown := hd.connected (hpush lane hlt)
      rw [← hoccupant, ← hconnection] at hown
      have hstamp : (⟨(d.record w).occupant i, (d.record w).connection i⟩ : Stamp) =
          ⟨d.occupant i, d.occupant i⟩ := by rw [hown, hoccupant]
      exact hstamp

theorem Own.record_of_channel (hd : d.Own i) {w : World}
    (hentered : (d.world.pool.slot i).EnteredBy (w.pool.slot i))
    (hchannel : (w.pool.slot i).instanceEnum = .instance00)
    (hempty : ∀ lane, (w.pool.slot i).lane lane = 0) : (d.record w).Own i := by
  refine ⟨hd.length_record w, fun _ => ?_, fun lane _ s hs => ?_⟩
  · have hconnection : (d.record w).connection i = (d.record w).occupant i :=
      if_pos ⟨hentered, hchannel⟩
    exact hconnection
  · have hnil := List.eq_nil_of_length_eq_zero ((hd.length_record w lane).trans (hempty lane))
    rw [hnil] at hs
    cases hs

theorem Own.record_of_image (hd : d.Own i) {w : World}
    (hgone : (w.pool.slot i).rtc.peerConnectionFactory ≠ .live)
    (haudio : (w.pool.slot i).lane (.events .audio) = 0)
    (hcurrent : (w.pool.slot i).lane .current = 0) : (d.record w).Own i := by
  refine ⟨hd.length_record w, fun h => absurd h hgone, fun lane hread s hs => ?_⟩
  have hempty : (w.pool.slot i).lane lane = 0 := by
    match lane with
    | .events .audio => exact haudio
    | .current => exact hcurrent
    | .events .websocketsToWebrtc => exact absurd hread hgone
    | .events .webrtcToWebsockets => exact absurd hread hgone
  have hnil := List.eq_nil_of_length_eq_zero ((hd.length_record w lane).trans hempty)
  rw [hnil] at hs
  cases hs

/-- Every step keeps the stamps, unless an add takes a slot with something left. -/
theorem Own.record {a : WorldAction} {w : World} {t : Slot} (hd : d.Own i)
    (hs : (d.world.slot i).Sound) (hallowed : d.EntersClean P a)
    (h : SlotEffect P d.world a i t) (ht : w.slot i = t) : (d.record w).Own i := by
  have hinst : w.pool.slot i = t.inst := congrArg Slot.inst ht
  cases h with
  | untouched =>
      have hsame : w.pool.slot i = d.world.pool.slot i := hinst
      refine hd.record_of_not_entered ?_ ?_ ?_ <;> rw [hsame]
      · exact fun hentered => hentered.2 hentered.1
      · exact id
      · exact fun lane hlt => absurd hlt (lt_irrefl _)
  | @commanded env ev inst ha hidle hchange hreleased =>
      subst ha hinst
      by_cases hentered : (d.world.pool.slot i).EnteredBy (w.pool.slot i)
      · obtain ⟨hindex, hadds⟩ := hchange.entered hentered
        rcases hadds with ⟨hadds, hchannel⟩ | ⟨image, hadds, -, hrtc⟩
        · refine hd.record_of_channel hentered hchannel fun lane => ?_
          rw [hchange.lane, (hallowed i hindex).1 hadds]
        · obtain ⟨haudio, hcurrent, hgone⟩ := (hallowed i hindex).2 image hadds
          refine hd.record_of_image ?_ ?_ ?_
          · rw [hrtc]
            exact hgone
          · rw [hchange.lane, haudio]
          · rw [hchange.lane, hcurrent]
      · refine hd.record_of_not_entered hentered (hchange.live_of_not_entered hentered)
          fun lane hlt => ?_
        rw [hchange.lane] at hlt
        exact absurd hlt (lt_irrefl _)
  | worked ha hthread =>
      rw [← ht] at hthread
      refine hd.record_of_not_entered ?_ ?_ fun lane hlt => ?_
      · rintro ⟨hfree, htaken⟩
        exact htaken (hthread.instanceEnum_eq.trans hfree)
      · exact fun hlive => hthread.peerConnectionFactory_eq.symm.trans hlive
      · rcases hthread.lane hs lane with heq | ⟨hlive, -⟩ | ⟨-, hgt⟩
        · exact absurd heq hlt.ne'
        · exact hlive
        · exact absurd hlt (lt_asymm hgt)

/-- Under the invariant, what is taken is the present occupant's. -/
theorem takesOwn_of_own {a : WorldAction} (hsound : d.world.Sound) (hd : ∀ i, d.Own i) :
    d.TakesOwn P a := by
  intro w hw i lane hlt
  have hread : lane.Read (d.world.pool.slot i) := by
    have heffect := hsound.effect hw i
    generalize ht : w.slot i = t at heffect
    have hinst : w.pool.slot i = t.inst := congrArg Slot.inst ht
    cases heffect with
    | untouched => exact absurd (hinst ▸ hlt) (lt_irrefl _)
    | commanded ha hidle hchange =>
        rw [hinst, hchange.lane] at hlt
        exact absurd hlt (lt_irrefl _)
    | worked ha hthread =>
        rw [hinst] at hlt
        rcases hthread.lane (hsound i) lane with heq | ⟨-, hgt⟩ | ⟨hread, -⟩
        · exact absurd heq hlt.ne
        · exact absurd hlt (lt_asymm hgt)
        · exact hread
  have hlength := (hd i).length lane
  cases hstamps : d.stamps i lane with
  | nil =>
      rw [hstamps] at hlength
      exact absurd hlt (by rw [← hlength]; exact Nat.not_lt_zero _)
  | cons s rest =>
      have hs := (hd i).stamped lane hread s (by rw [hstamps]; exact List.mem_cons_self)
      rw [hs]
      rfl

theorem startup_own (i : Fin instanceMax) : startup.Own i where
  length lane := by
    match lane with
    | .current => rfl
    | .events order => cases order <;> rfl
  connected h := by cases h
  stamped _ _ _ hs := by cases hs

/-- In a run whose adds take clean slots, every entry that is taken from a queue was
pushed for the present occupant of the slot. -/
theorem takesOwn_of_entersClean {as : List WorldAction}
    (h : Along (step P) (EntersClean P) startup as) :
    Along (step P) (TakesOwn P) startup as := by
  refine h.along (I := fun d => d.world.Sound ∧ ∀ i, d.Own i) ?_ ?_
    ⟨World.startup_sound, startup_own⟩
  · rintro d a d' ⟨hsound, hown⟩ hallowed hstep
    obtain ⟨w, hw, rfl⟩ := Option.map_eq_some_iff.1 hstep
    exact ⟨hsound.step hw, fun i =>
      (hown i).record (hsound i) hallowed (hsound.effect hw i) rfl⟩
  · rintro d a ⟨hsound, hown⟩ -
    exact takesOwn_of_own hsound hown

/-- The rule at a run in which a channel is added and its sound is mixed. -/
theorem takesOwn_add_audio :
    Along (step Sample.platform) (TakesOwn Sample.platform) startup
      [Sample.command 1 .subscribeAddChannel Sample.addChannel, .thread 0 (.onData [1, 0]),
        .thread 0 .audio] := by
  refine takesOwn_of_entersClean ⟨fun i _ => ⟨fun _ lane => ?_, ?_⟩, ?_⟩
  · match lane with
    | .current => rfl
    | .events order => cases order <;> rfl
  · rintro image ⟨htype, -⟩
    cases htype
  · exact fun _ _ => ⟨trivial, fun _ _ => ⟨trivial, fun _ _ => trivial⟩⟩

/-- A block of sound that was queued for a deleted channel is mixed for the channel
that is added after it. -/
theorem not_takesOwn_add_delete_add :
    ∃ d, run (step Sample.platform) startup
        [Sample.command 1 .subscribeAddChannel Sample.addChannel,
          .thread 0 (.onData [1, 0]),
          Sample.command 2 .subscribeDeleteChannel Sample.deleteChannel,
          Sample.command 3 .subscribeAddChannel Sample.addChannel] = some d ∧
      d.occupant 0 = 2 ∧ d.stamps 0 (.events .audio) = [⟨1, 1⟩] ∧
      ¬ d.TakesOwn Sample.platform (.thread 0 .audio) := by
  have hobserved : (run (step Sample.platform) startup
        [Sample.command 1 .subscribeAddChannel Sample.addChannel,
          .thread 0 (.onData [1, 0]),
          Sample.command 2 .subscribeDeleteChannel Sample.deleteChannel,
          Sample.command 3 .subscribeAddChannel Sample.addChannel]).map
      (fun d => (d.occupant 0, d.stamps 0 (.events .audio),
        (d.world.pool.slot 0).lane (.events .audio),
        (d.world.step Sample.platform (.thread 0 .audio)).map
          fun w => (w.pool.slot 0).lane (.events .audio))) =
        some (2, [⟨1, 1⟩], 1, some 0) := by
    decide +kernel
  obtain ⟨d, hd, htuple⟩ := Option.map_eq_some_iff.1 hobserved
  obtain ⟨hoccupant, htuple⟩ := Prod.mk.inj htuple
  obtain ⟨hstamps, htuple⟩ := Prod.mk.inj htuple
  obtain ⟨hbefore, hafter⟩ := Prod.mk.inj htuple
  obtain ⟨w, hw, hafter⟩ := Option.map_eq_some_iff.1 hafter
  refine ⟨d, hd, hoccupant, hstamps, fun hown => ?_⟩
  have hhead := hown w hw 0 (.events .audio) (by rw [hbefore, hafter]; exact Nat.one_pos)
  rw [hstamps, hoccupant] at hhead
  exact absurd hhead (by decide)

end Delivery

end Bres
