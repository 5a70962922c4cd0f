import Bres.Pool.World

/-!
# What a delete takes away

Both deletes look for their name in every slot, whatever the slot holds: the name
of an earlier occupant stays behind when a slot is freed or goes over to the other
kind, and a slot that was never used carries the empty name. A delete takes away
what it names, and nothing else, exactly if every slot that remembers the name
holds the resource, or would not be changed anyway, and no texture name that it
gives back is in use by a slot that is to stay.
-/

namespace Bres

open Transition

namespace Pool

/-- The outcome of a delete that tears down the slots of one resource, gives back
their textures, and leaves every other slot with its record and its texture. -/
def DeletesExactly (pool : Pool) (holds : Instance → Prop) (tear : Instance → Instance)
    (o : Outcome Exn Pool) : Prop :=
  ∃ pool', o = .done pool' ∧ ∀ i,
    (holds (pool.slot i) →
      pool'.slot i = tear (pool.slot i) ∧ (pool.slot i).movieTexture ∉ pool'.shared) ∧
    (¬ holds (pool.slot i) →
      pool'.slot i = pool.slot i ∧
        (¬ pool.IsFree i → (pool.slot i).movieTexture ∈ pool.shared →
          (pool.slot i).movieTexture ∈ pool'.shared))

/-- No slot that stays draws with a texture name of a slot that is hit. -/
def TexturesApart (pool : Pool) (hit holds : Instance → Prop) : Prop :=
  ∀ i, ¬ holds (pool.slot i) → ¬ pool.IsFree i →
    (pool.slot i).movieTexture ∈ pool.shared →
      ∀ j, hit (pool.slot j) → (pool.slot i).movieTexture ≠ (pool.slot j).movieTexture

instance (pool : Pool) (hit holds : Instance → Prop) [DecidablePred hit]
    [DecidablePred holds] : Decidable (pool.TexturesApart hit holds) :=
  inferInstanceAs (Decidable (∀ _, _ → _ → _ → ∀ _, _ → _))

/-- What `subscribeSideDeleteChannel` needs to be exact. -/
def RemembersChannel (pool : Pool) (id : String) : Prop :=
  (∀ i, (pool.slot i).channelId = id → (pool.slot i).HoldsChannel id) ∧
    pool.TexturesApart (fun inst => inst.channelId = id) fun inst => inst.HoldsChannel id

/-- What `resourceDeleteStaticImage` needs to be exact. -/
def RemembersImage (pool : Pool) (path : String) : Prop :=
  (∀ i, (pool.slot i).imagePath = path → (pool.slot i).HoldsImage path ∨
    (pool.IsFree i ∧ (pool.slot i).quit = true ∧ (pool.slot i).isDraw = 0)) ∧
    pool.TexturesApart (fun inst => inst.imagePath = path) fun inst => inst.HoldsImage path

instance (pool : Pool) (id : String) : Decidable (pool.RemembersChannel id) :=
  inferInstanceAs (Decidable ((∀ _, _ → _) ∧ _))

instance (pool : Pool) (path : String) : Decidable (pool.RemembersImage path) :=
  inferInstanceAs (Decidable ((∀ _, _ → _) ∧ _))

/-- A loop that tears down every slot it hits is exact if and only if it hits no
slot to stay, except where that changes nothing. -/
theorem deletesExactly_done_iff {pool : Pool} {hit holds : Instance → Prop}
    [DecidablePred hit] {tear : Instance → Instance}
    (hholds : ∀ inst, holds inst → hit inst) :
    pool.DeletesExactly holds tear
        (.done ⟨fun i => if hit (pool.slot i) then tear (pool.slot i) else pool.slot i,
          texturesWithout pool hit⟩) ↔
      (∀ i, hit (pool.slot i) → holds (pool.slot i) ∨ tear (pool.slot i) = pool.slot i) ∧
        pool.TexturesApart hit holds := by
  constructor
  · rintro ⟨pool', hdone, hexact⟩
    obtain rfl := Outcome.done.inj hdone
    refine ⟨fun i hi => ?_, fun i hstays hused hshared j hj heq => ?_⟩
    · by_cases hheld : holds (pool.slot i)
      · exact .inl hheld
      · have hsame := ((hexact i).2 hheld).1
        exact .inr ((if_pos hi).symm.trans hsame)
    · have hkept := ((hexact i).2 hstays).2 hused hshared
      exact (mem_texturesWithout.1 hkept).2 j hj heq
  · rintro ⟨hhits, hapart⟩
    refine ⟨_, rfl, fun i => ⟨fun hheld => ⟨if_pos (hholds _ hheld), fun hmem => ?_⟩,
      fun hstays => ⟨?_, fun hused hshared => ?_⟩⟩⟩
    · exact (mem_texturesWithout.1 hmem).2 i (hholds _ hheld) rfl
    · by_cases hi : hit (pool.slot i)
      · rcases hhits i hi with hheld | hsame
        · exact absurd hheld hstays
        · simp only [if_pos hi, hsame]
      · exact if_neg hi
    · exact mem_texturesWithout.2 ⟨hshared, fun j hj => hapart i hstays hused hshared j hj⟩

end Pool

theorem Instance.closed_ne_of_live {inst : Instance} (h : inst.Live) : inst.closed ≠ inst := by
  intro hclosed
  have hthread := congrArg Instance.eventDispatchThread hclosed
  rw [h.eventDispatchThread] at hthread
  cases hthread

theorem Instance.freed_eq_self_iff {inst : Instance} :
    inst.freed = inst ↔ inst.instanceEnum = .min ∧ inst.quit = true ∧ inst.isDraw = 0 := by
  constructor
  · intro hfreed
    exact ⟨(congrArg Instance.instanceEnum hfreed).symm, (congrArg Instance.quit hfreed).symm,
      (congrArg Instance.isDraw hfreed).symm⟩
  · rintro ⟨henum, hquit, hdraw⟩
    simp only [Instance.freed, ← henum, ← hquit, ← hdraw]

variable {P : Platform} {ev : Bytes} {json : Json} {pool : Pool}

theorem deleteChannel_exact_iff {id : String} (hsound : ∀ i, (pool.slot i).Sound)
    (hparse : P.parse ev = some json) (hid : json.HasString "channel_id" id) :
    pool.DeletesExactly (fun inst => inst.HoldsChannel id) Instance.closed
        (subscribeSideDeleteChannel P.parse ev pool) ↔ pool.RemembersChannel id := by
  have hholds : ∀ inst : Instance, inst.HoldsChannel id → inst.channelId = id :=
    fun _ h => h.2
  constructor
  · intro hexact
    have hdone := hexact
    obtain ⟨pool', hdone, -⟩ := hdone
    obtain ⟨hlive, -⟩ := (deleteChannel_eq_done_iff hparse hid hsound).1 hdone
    rw [deleteChannel_done hparse hid hlive, Pool.deletesExactly_done_iff hholds] at hexact
    refine ⟨fun i hi => ?_, hexact.2⟩
    exact (hexact.1 i hi).resolve_right (Instance.closed_ne_of_live (hlive i hi))
  · rintro ⟨hheld, hapart⟩
    have hlive : ∀ i, (pool.slot i).channelId = id → (pool.slot i).Live :=
      fun i hi => (hsound i).live_of_channel (hheld i hi).1
    rw [deleteChannel_done hparse hid hlive, Pool.deletesExactly_done_iff hholds]
    exact ⟨fun i hi => .inl (hheld i hi), hapart⟩

theorem deleteImage_exact_iff {path : String} (hparse : P.parse ev = some json)
    (hpath : json.HasString "path" path) :
    pool.DeletesExactly (fun inst => inst.HoldsImage path) Instance.freed
        (resourceDeleteStaticImage P ev pool) ↔ pool.RemembersImage path := by
  have hholds : ∀ inst : Instance, inst.HoldsImage path → inst.imagePath = path :=
    fun _ h => h.2
  rw [deleteImage_done hparse hpath, Pool.deletesExactly_done_iff hholds]
  simp only [Instance.freed_eq_self_iff]
  rfl

/-- In every state of the program, a delete is exact if and only if every slot that
remembers its name is one that it is meant for. -/
theorem delete_exact_iff {w : World} (hw : w.Reachable P)
    (hparse : P.parse ev = some json) {name : String} :
    (json.HasString "channel_id" name →
      (w.pool.DeletesExactly (fun inst => inst.HoldsChannel name) Instance.closed
        (subscribeSideDeleteChannel P.parse ev w.pool) ↔ w.pool.RemembersChannel name)) ∧
      (json.HasString "path" name →
        (w.pool.DeletesExactly (fun inst => inst.HoldsImage name) Instance.freed
          (resourceDeleteStaticImage P ev w.pool) ↔ w.pool.RemembersImage name)) :=
  ⟨deleteChannel_exact_iff (fun i => (hw.sound i).inst) hparse,
    deleteImage_exact_iff hparse⟩

/-- A channel and an image are in place, and each is deleted beside the other. -/
theorem delete_exact_iff_startup :
    ∃ w, run (World.step Sample.platform) World.startup
        [Sample.command 1 .subscribeAddChannel Sample.addChannel,
          Sample.command 2 .resourceAddStaticImage Sample.addImage] = some w ∧
      (w.pool.slot 0).HoldsChannel "sora" ∧ (w.pool.slot 1).HoldsImage "logo.png" ∧
      w.pool.DeletesExactly (fun inst => inst.HoldsChannel "sora") Instance.closed
        (subscribeSideDeleteChannel Sample.platform.parse (flatText Sample.deleteChannel)
          w.pool) ∧
      w.pool.DeletesExactly (fun inst => inst.HoldsImage "logo.png") Instance.freed
        (resourceDeleteStaticImage Sample.platform (flatText Sample.deleteImage) w.pool) := by
  have hobserved : (run (World.step Sample.platform) World.startup
        [Sample.command 1 .subscribeAddChannel Sample.addChannel,
          Sample.command 2 .resourceAddStaticImage Sample.addImage]).map
      (fun w => (decide ((w.pool.slot 0).HoldsChannel "sora" ∧
          (w.pool.slot 1).HoldsImage "logo.png"),
        decide (w.pool.RemembersChannel "sora" ∧ w.pool.RemembersImage "logo.png"))) =
          some (true, true) := by
    decide +kernel
  have hchannel : Sample.platform.parse (flatText Sample.deleteChannel) =
      some (.object Sample.deleteChannel) := rfl
  have himage : Sample.platform.parse (flatText Sample.deleteImage) =
      some (.object Sample.deleteImage) := rfl
  obtain ⟨w, hw, hpair⟩ := Option.map_eq_some_iff.1 hobserved
  obtain ⟨hplaced, hremembers⟩ := Prod.mk.inj hpair
  obtain ⟨hholds, hshows⟩ := of_decide_eq_true hplaced
  obtain ⟨hid, hpath⟩ := of_decide_eq_true hremembers
  exact ⟨w, hw, hholds, hshows, ((delete_exact_iff ⟨_, hw⟩ hchannel).1 rfl).2 hid,
    ((delete_exact_iff ⟨_, hw⟩ himage).2 rfl).2 hpath⟩

/-- The empty name: a channel delete joins a thread of a slot that was never used, and
an image delete frees the slot of a live channel. -/
theorem not_deletesExactly_empty_name :
    (∃ pool, subscribeSideDeleteChannel Sample.platform.parse
        (flatText Sample.deleteNoChannel) World.startup.pool = .thrown .systemError pool) ∧
      ¬ World.startup.pool.DeletesExactly (fun inst => inst.HoldsChannel "") Instance.closed
        (subscribeSideDeleteChannel Sample.platform.parse (flatText Sample.deleteNoChannel)
          World.startup.pool) ∧
      ∃ w, World.startup.step Sample.platform
          (Sample.command 1 .subscribeAddChannel Sample.addChannel) = some w ∧
        (w.pool.slot 0).HoldsChannel "sora" ∧
        ¬ w.pool.DeletesExactly (fun inst => inst.HoldsImage "") Instance.freed
          (resourceDeleteStaticImage Sample.platform (flatText Sample.deleteNoImage)
            w.pool) := by
  have hthrown : ∃ pool, subscribeSideDeleteChannel Sample.platform.parse
      (flatText Sample.deleteNoChannel) World.startup.pool = .thrown .systemError pool :=
    ⟨_, rfl⟩
  refine ⟨hthrown, ?_, ?_⟩
  · rintro ⟨pool', hdone, -⟩
    obtain ⟨pool, hthrown⟩ := hthrown
    rw [hthrown] at hdone
    cases hdone
  · have hobserved : (World.startup.step Sample.platform
        (Sample.command 1 .subscribeAddChannel Sample.addChannel)).map
        (fun w => ((w.pool.slot 0).instanceEnum, (w.pool.slot 0).channelId,
          (w.pool.slot 0).imagePath)) = some (.instance00, "sora", "") := by
      decide +kernel
    obtain ⟨w, hw, htriple⟩ := Option.map_eq_some_iff.1 hobserved
    obtain ⟨henum, hpair⟩ := Prod.mk.inj htriple
    obtain ⟨hid, hpath⟩ := Prod.mk.inj hpair
    refine ⟨w, hw, ⟨henum, hid⟩, fun hexact => ?_⟩
    have hparse : Sample.platform.parse (flatText Sample.deleteNoImage) =
        some (.object Sample.deleteNoImage) := rfl
    have hremembers := (deleteImage_exact_iff hparse rfl).1 hexact
    rcases hremembers.1 0 hpath with hheld | hfree
    · exact absurd (henum.symm.trans hheld.1) nofun
    · exact absurd (henum.symm.trans hfree.1) nofun

end Bres
