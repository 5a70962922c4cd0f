import Bres.Pool.Exit
import Mathlib.Data.Fintype.Card

/-!
# Texture names

An add makes a texture for the slot that it takes, and a delete gives back the texture
names of the slots that it hits. OpenGL may use a name again that has been given back, and
the record of a free slot still has its old name.

No texture is ever leaked: each name in use is that of a slot in use, or that of the publish
instance. The other way round, a slot in use has its texture as long as no delete hits a free
slot whose old name has come to another one.
-/

namespace Bres

open Transition

/-- The use of the slots, their texture names, and the names in use are the same. -/
structure Pool.SameNames (pool pool' : Pool) : Prop where
  shared_eq : pool'.shared = pool.shared
  use_eq : ∀ j, (pool'.slot j).instanceEnum = (pool.slot j).instanceEnum
  name_eq : ∀ j, (pool'.slot j).movieTexture = (pool.slot j).movieTexture

theorem Pool.SameNames.refl (pool : Pool) : pool.SameNames pool :=
  ⟨rfl, fun _ => rfl, fun _ => rfl⟩

theorem Pool.SameNames.of_update {pool : Pool} {i : Fin instanceMax} {inst : Instance}
    (henum : inst.instanceEnum = (pool.slot i).instanceEnum)
    (hname : inst.movieTexture = (pool.slot i).movieTexture) :
    pool.SameNames { pool with slot := Function.update pool.slot i inst } := by
  refine ⟨rfl, fun j => ?_, fun j => ?_⟩ <;>
    by_cases hji : j = i
  · simp only [hji, Function.update_self, henum]
  · simp only [Function.update_of_ne hji]
  · simp only [hji, Function.update_self, hname]
  · simp only [Function.update_of_ne hji]

/-- The record is one that the command tears down. -/
def Platform.Hits (P : Platform) (ev : SEvent) (inst : Instance) : Prop :=
  ∃ json, P.parse ev.event = some json ∧
    (ev.type = .subscribeDeleteChannel ∧ json.HasString "channel_id" inst.channelId ∨
      ev.type = .resourceDeleteStaticImage ∧ json.HasString "path" inst.imagePath)

/-- What a command that returns has done to the use of the slots and the names in use: not
anything, or it has taken the lowest free slot with a new texture, or it has torn down the
slots it hits. -/
inductive PoolChange (P : Platform) (env : Answers) (ev : SEvent) (pool pool' : Pool) : Prop where
  | quiet (hhits : ∀ inst, ¬ P.Hits ev inst) (hsame : pool.SameNames pool')
  | taken {i : Fin instanceMax} (hhits : ∀ inst, ¬ P.Hits ev inst) (hindex : pool.freeIndex = i)
      (hused : ¬ pool'.IsFree i) (hname : (pool'.slot i).movieTexture = env.texture)
      (hothers : ∀ j, j ≠ i → pool'.slot j = pool.slot j)
      (hshared : pool'.shared = env.texture :: pool.shared)
  | torn (hhit : ∀ j, P.Hits ev (pool.slot j) → pool'.IsFree j)
      (hothers : ∀ j, ¬ P.Hits ev (pool.slot j) → pool'.slot j = pool.slot j)
      (hnodup : pool.shared.Nodup → pool'.shared.Nodup)
      (hshared : ∀ t, t ∈ pool'.shared ↔
        t ∈ pool.shared ∧ ∀ j, P.Hits ev (pool.slot j) → t ≠ (pool.slot j).movieTexture)

variable {P : Platform} {env : Answers} {ev : SEvent} {pool pool' : Pool} {own : GLuint}

theorem not_hits_of_type (hchannel : ev.type ≠ .subscribeDeleteChannel)
    (himage : ev.type ≠ .resourceDeleteStaticImage) (inst : Instance) : ¬ P.Hits ev inst := by
  rintro ⟨json, -, ⟨htype, -⟩ | ⟨htype, -⟩⟩
  · exact hchannel htype
  · exact himage htype

theorem taken_of_update {i : Fin instanceMax} {inst : Instance} (hhits : ∀ inst, ¬ P.Hits ev inst)
    (hindex : pool.freeIndex = i) (hused : inst.instanceEnum ≠ .min)
    (hname : inst.movieTexture = env.texture) :
    PoolChange P env ev pool
      ⟨Function.update pool.slot i inst, env.texture :: pool.shared⟩ := by
  refine .taken hhits hindex ?_ ?_ (fun j hji => Function.update_of_ne hji ..) rfl
  · simpa [Pool.IsFree] using hused
  · simpa using hname

theorem nodup_texturesWithout {hit : Instance → Prop} [DecidablePred hit]
    (h : pool.shared.Nodup) : (texturesWithout pool hit).Nodup := by
  rw [texturesWithout]
  generalize pool.shared = gl at h
  generalize List.finRange instanceMax = slots
  induction slots generalizing gl with
  | nil => exact h
  | cons i slots ih =>
      rw [List.foldl_cons]
      split
      · exact ih _ (h.filter _)
      · exact ih _ h

theorem torn_of_texturesWithout {hit : Instance → Prop} [DecidablePred hit]
    {tear : Instance → Instance} (hhit : ∀ inst, hit inst ↔ P.Hits ev inst)
    (htear : ∀ inst, (tear inst).instanceEnum = .min) :
    PoolChange P env ev pool
      ⟨fun i => if hit (pool.slot i) then tear (pool.slot i) else pool.slot i,
        texturesWithout pool hit⟩ := by
  refine .torn (fun j hj => ?_) (fun j hj => if_neg (mt (hhit _).1 hj)) nodup_texturesWithout
    fun t => ?_
  · rw [Pool.IsFree]
    dsimp only
    rw [if_pos ((hhit _).2 hj), htear]
  · rw [mem_texturesWithout]
    simp only [hhit]

theorem addChannel_pool (htype : ev.type = .subscribeAddChannel)
    (h : subscribeSideAddChannel P.parse ev.event env pool = .done pool') :
    PoolChange P env ev pool pool' := by
  have hhits : ∀ inst, ¬ P.Hits ev inst :=
    not_hits_of_type (by rw [htype]; decide) (by rw [htype]; decide)
  cases hparse : P.parse ev.event with
  | none => simp [subscribeSideAddChannel, hparse] at h
  | some json =>
      by_cases hrejects : pool.Rejects addChannelKeys json
      · rw [addChannel_of_rejects hparse hrejects] at h
        cases h
        exact .quiet hhits (.refl pool)
      obtain ⟨i, id, token, multi, server, hindex, -, -, -, -, hadd⟩ :=
        addChannel_of_not_rejects hparse hrejects env
      rw [hadd] at h
      obtain ⟨r, hopen, rfl⟩ := (Outcome.mapState_eq_done_iff ..).1 h
      obtain ⟨id, token, multi, server, -, -, -, -, -, -, -, rfl⟩ :=
        openChannel_eq_done_iff.1 hopen
      exact taken_of_update hhits hindex (fun hmin => by cases hmin) rfl

theorem addImage_pool (htype : ev.type = .resourceAddStaticImage)
    (h : resourceAddStaticImage P ev.event env pool = .done pool') :
    PoolChange P env ev pool pool' := by
  have hhits : ∀ inst, ¬ P.Hits ev inst :=
    not_hits_of_type (by rw [htype]; decide) (by rw [htype]; decide)
  cases hparse : P.parse ev.event with
  | none => simp [resourceAddStaticImage, hparse] at h
  | some json =>
      by_cases hrejects : pool.Rejects addImageKeys json
      · rw [addImage_of_rejects hparse hrejects] at h
        cases h
        exact .quiet hhits (.refl pool)
      by_cases hmistyped : ∃ key ∈ addImageKeys, json.text key = none
      · rw [addImage_of_mistyped hparse hrejects hmistyped] at h
        cases h
      have htext : ∀ key ∈ addImageKeys, ∃ text, json.HasString key text := by
        intro key hkey
        obtain ⟨text, htext⟩ := Option.ne_none_iff_exists'.1
          fun hnone => hmistyped ⟨key, hkey, hnone⟩
        exact ⟨text, (Json.text_eq_some_iff ..).1 htext⟩
      obtain ⟨i, path, posX, posY, hindex, -, -, -, hadd⟩ :=
        addImage_of_texts hparse hrejects htext env
      rw [hadd] at h
      cases hload : env.stbiLoad path with
      | none =>
          rw [hload] at h
          cases h
          exact .quiet hhits (.refl pool)
      | some image =>
          rw [hload] at h
          obtain ⟨r, hshow, rfl⟩ := (Outcome.mapState_eq_done_iff ..).1 h
          obtain ⟨x, y, -, -, -, rfl⟩ := showImage_eq_done_iff.1 hshow
          exact taken_of_update hhits hindex (fun hmin => by cases hmin) rfl

theorem hits_channel_iff {json : Json} {id : String} (htype : ev.type = .subscribeDeleteChannel)
    (hparse : P.parse ev.event = some json) (hid : json.HasString "channel_id" id)
    (inst : Instance) : inst.channelId = id ↔ P.Hits ev inst := by
  constructor
  · rintro rfl
    exact ⟨json, hparse, .inl ⟨htype, hid⟩⟩
  · rintro ⟨json', hparse', ⟨-, hid'⟩ | ⟨htype', -⟩⟩
    · obtain rfl : json = json' := Option.some.inj (hparse.symm.trans hparse')
      exact Json.string.inj (Option.some.inj (hid'.symm.trans hid))
    · exact nomatch htype.symm.trans htype'

theorem hits_image_iff {json : Json} {path : String} (htype : ev.type = .resourceDeleteStaticImage)
    (hparse : P.parse ev.event = some json) (hpath : json.HasString "path" path)
    (inst : Instance) : inst.imagePath = path ↔ P.Hits ev inst := by
  constructor
  · rintro rfl
    exact ⟨json, hparse, .inr ⟨htype, hpath⟩⟩
  · rintro ⟨json', hparse', ⟨htype', -⟩ | ⟨-, hpath'⟩⟩
    · exact nomatch htype.symm.trans htype'
    · obtain rfl : json = json' := Option.some.inj (hparse.symm.trans hparse')
      exact Json.string.inj (Option.some.inj (hpath'.symm.trans hpath))

/-- A command that finds no name to delete hits nothing. -/
theorem not_hits_of_absent {json : Json} (hparse : P.parse ev.event = some json)
    (hchannel : ev.type = .subscribeDeleteChannel → json.find "channel_id" = none)
    (himage : ev.type = .resourceDeleteStaticImage → json.find "path" = none)
    (inst : Instance) : ¬ P.Hits ev inst := by
  rintro ⟨json', hparse', hnamed⟩
  obtain rfl : json = json' := Option.some.inj (hparse.symm.trans hparse')
  rcases hnamed with ⟨htype, hid⟩ | ⟨htype, hpath⟩
  · exact nomatch (hchannel htype).symm.trans hid
  · exact nomatch (himage htype).symm.trans hpath

theorem deleteChannel_pool (htype : ev.type = .subscribeDeleteChannel)
    (hsound : ∀ i, (pool.slot i).Sound)
    (h : subscribeSideDeleteChannel P.parse ev.event pool = .done pool') :
    PoolChange P env ev pool pool' := by
  cases hparse : P.parse ev.event with
  | none => simp [subscribeSideDeleteChannel, hparse] at h
  | some json =>
      cases hfind : json.find "channel_id" with
      | none =>
          rw [deleteChannel_of_absent hparse hfind] at h
          cases h
          exact .quiet (not_hits_of_absent hparse (fun _ => hfind)
            fun himage => absurd (htype.symm.trans himage) (by decide))
            (.refl pool)
      | some v =>
          cases htext : v.getString with
          | none =>
              rw [((named_of_mistyped hparse htext).1 hfind).1] at h
              cases h
          | some id =>
              obtain rfl := (Json.getString_eq_some_iff v id).1 htext
              obtain ⟨-, rfl⟩ := (deleteChannel_eq_done_iff hparse hfind hsound).1 h
              exact torn_of_texturesWithout (hits_channel_iff htype hparse hfind) fun _ => rfl

theorem deleteImage_pool (htype : ev.type = .resourceDeleteStaticImage)
    (h : resourceDeleteStaticImage P ev.event pool = .done pool') :
    PoolChange P env ev pool pool' := by
  cases hparse : P.parse ev.event with
  | none => simp [resourceDeleteStaticImage, hparse] at h
  | some json =>
      cases hfind : json.find "path" with
      | none =>
          rw [deleteImage_of_absent hparse hfind] at h
          cases h
          exact .quiet (not_hits_of_absent hparse
            (fun hchannel => absurd (htype.symm.trans hchannel) (by decide)) fun _ => hfind)
            (.refl pool)
      | some v =>
          cases htext : v.getString with
          | none =>
              rw [(named_of_mistyped hparse htext).2 hfind] at h
              cases h
          | some path =>
              obtain rfl := (Json.getString_eq_some_iff v path).1 htext
              rw [deleteImage_done hparse hfind] at h
              cases h
              exact torn_of_texturesWithout (hits_image_iff htype hparse hfind) fun _ => rfl

theorem property_pool (htype : ev.type = .subscribePropertyChannel)
    (h : subscribeSidePropertyChannel P.parse ev.event pool = .done pool') :
    PoolChange P env ev pool pool' := by
  have hhits : ∀ inst, ¬ P.Hits ev inst :=
    not_hits_of_type (by rw [htype]; decide) (by rw [htype]; decide)
  cases hparse : P.parse ev.event with
  | none => simp [subscribeSidePropertyChannel, hparse] at h
  | some json =>
      cases hfind : json.find "channel_id" with
      | none =>
          rw [property_of_absent hparse hfind] at h
          cases h
          exact .quiet hhits (.refl pool)
      | some v =>
          cases htext : v.getString with
          | none =>
              rw [((named_of_mistyped hparse htext).1 hfind).2] at h
              cases h
          | some id =>
              obtain rfl := (Json.getString_eq_some_iff v id).1 htext
              rw [property_of_id hparse hfind] at h
              cases hfirst : (List.finRange instanceMax).find? fun i =>
                  (pool.slot i).channelId = id with
              | none =>
                  rw [hfirst] at h
                  cases h
                  exact .quiet hhits (.refl pool)
              | some i =>
                  rw [hfirst] at h
                  obtain ⟨_, hvisit, rfl⟩ := (Outcome.mapState_eq_done_iff ..).1 h
                  obtain ⟨_, hset, rfl⟩ := (Outcome.mapState_eq_done_iff ..).1 hvisit
                  obtain ⟨-, rfl⟩ := setAttributes_eq_done_iff.1 hset
                  exact .quiet hhits (.of_update rfl rfl)

/-- What a command can do to the pool as a whole. -/
theorem executeCommand_pool (hsound : ∀ i, (pool.slot i).Sound)
    (h : executeCommand P env ev pool = .done pool') : PoolChange P env ev pool pool' := by
  unfold executeCommand at h
  split at h
  case h_1 htype => exact addChannel_pool htype h
  case h_2 htype => exact deleteChannel_pool htype hsound h
  case h_3 htype => exact property_pool htype h
  case h_4 htype => exact addImage_pool htype h
  case h_5 htype => exact deleteImage_pool htype h
  case h_6 _ hchannel _ _ himage =>
    cases h
    exact .quiet (not_hits_of_type hchannel himage) (.refl pool)

/-! ## The names in use -/

namespace Pool

/-- Each name in use is used once, and it is `own` or that of a slot in use. -/
structure NamesOwned (own : GLuint) (pool : Pool) : Prop where
  nodup : pool.shared.Nodup
  owned : ∀ t ∈ pool.shared, t = own ∨ ∃ i, ¬ pool.IsFree i ∧ (pool.slot i).movieTexture = t

/-- Every slot in use has a texture, and a different one each. -/
structure TexturesHeld (pool : Pool) : Prop where
  held : ∀ i, ¬ pool.IsFree i → (pool.slot i).movieTexture ∈ pool.shared
  apart : ∀ i j, ¬ pool.IsFree i → ¬ pool.IsFree j →
    (pool.slot i).movieTexture = (pool.slot j).movieTexture → i = j

/-- No slot that the command tears down still has the name of a slot in use that stays. -/
def Spares (P : Platform) (ev : SEvent) (pool : Pool) : Prop :=
  ∀ i, ¬ pool.IsFree i → ¬ P.Hits ev (pool.slot i) →
    ∀ j, P.Hits ev (pool.slot j) → (pool.slot i).movieTexture ≠ (pool.slot j).movieTexture

end Pool

namespace Pool.SameNames

theorem isFree_iff (h : pool.SameNames pool') (j : Fin instanceMax) :
    pool'.IsFree j ↔ pool.IsFree j := by
  rw [Pool.IsFree, Pool.IsFree, h.use_eq j]

theorem namesOwned (h : pool.SameNames pool') (hp : pool.NamesOwned own) :
    pool'.NamesOwned own := by
  refine ⟨h.shared_eq ▸ hp.nodup, fun t ht => (hp.owned t (h.shared_eq ▸ ht)).imp_right ?_⟩
  rintro ⟨j, hj, hjt⟩
  exact ⟨j, mt (h.isFree_iff j).1 hj, (h.name_eq j).trans hjt⟩

theorem texturesHeld (h : pool.SameNames pool') (hp : pool.TexturesHeld) :
    pool'.TexturesHeld := by
  refine ⟨fun j hj => ?_, fun j k hj hk heq => ?_⟩
  · rw [h.shared_eq, h.name_eq]
    exact hp.held j (mt (h.isFree_iff j).2 hj)
  · rw [h.name_eq, h.name_eq] at heq
    exact hp.apart j k (mt (h.isFree_iff j).2 hj) (mt (h.isFree_iff k).2 hk) heq

end Pool.SameNames

namespace PoolChange

theorem namesOwned (h : PoolChange P env ev pool pool') (hfresh : env.texture ∉ pool.shared)
    (hp : pool.NamesOwned own) : pool'.NamesOwned own := by
  cases h with
  | quiet _ hsame => exact hsame.namesOwned hp
  | @taken i _ hindex hused hname hothers hshared =>
      refine ⟨hshared ▸ List.nodup_cons.2 ⟨hfresh, hp.nodup⟩, fun t ht => ?_⟩
      rw [hshared] at ht
      rcases List.mem_cons.1 ht with rfl | ht
      · exact .inr ⟨i, hused, hname⟩
      · refine (hp.owned t ht).imp_right ?_
        rintro ⟨j, hj, hjt⟩
        have hji : j ≠ i := fun hji => hj (hji ▸ Pool.isFree_of_freeIndex_eq hindex)
        exact ⟨j, by rwa [Pool.IsFree, hothers j hji], by rwa [hothers j hji]⟩
  | torn hhit hothers hnodup hshared =>
      refine ⟨hnodup hp.nodup, fun t ht => ?_⟩
      obtain ⟨hmem, hgiven⟩ := (hshared t).1 ht
      refine (hp.owned t hmem).imp_right ?_
      rintro ⟨j, hj, hjt⟩
      have hkept : ¬ P.Hits ev (pool.slot j) := fun hjhit => hgiven j hjhit hjt.symm
      exact ⟨j, by rwa [Pool.IsFree, hothers j hkept], by rwa [hothers j hkept]⟩

/-- The slots in use keep textures of their own if and only if the command spares them. -/
theorem texturesHeld_iff (h : PoolChange P env ev pool pool') (hfresh : env.texture ∉ pool.shared)
    (hp : pool.TexturesHeld) : pool'.TexturesHeld ↔ pool.Spares P ev := by
  cases h with
  | quiet hhits hsame =>
      exact iff_of_true (hsame.texturesHeld hp) fun i _ _ j hj => absurd hj (hhits _)
  | @taken i hhits hindex hused hname hothers hshared =>
      have hold : ∀ j, j ≠ i → ¬ pool'.IsFree j → (pool'.slot j).movieTexture ∈ pool.shared := by
        intro j hji hj
        rw [Pool.IsFree, hothers j hji] at hj
        exact hothers j hji ▸ hp.held j hj
      refine iff_of_true ⟨fun j hj => ?_, fun j k hj hk heq => ?_⟩
        fun i _ _ j hj => absurd hj (hhits _)
      · rw [hshared]
        by_cases hji : j = i
        · exact hji ▸ hname ▸ List.mem_cons_self ..
        · exact List.mem_cons_of_mem _ (hold j hji hj)
      · by_cases hji : j = i <;> by_cases hki : k = i
        · exact hji.trans hki.symm
        · rw [hji, hname] at heq
          exact absurd (heq ▸ hold k hki hk) hfresh
        · rw [hki, hname] at heq
          exact absurd (heq ▸ hold j hji hj) hfresh
        · rw [Pool.IsFree, hothers j hji] at hj
          rw [Pool.IsFree, hothers k hki] at hk
          rw [hothers j hji, hothers k hki] at heq
          exact hp.apart j k hj hk heq
  | torn hhit hothers hnodup hshared =>
      have hkept : ∀ j, ¬ pool'.IsFree j → ¬ P.Hits ev (pool.slot j) := fun j => mt (hhit j)
      constructor
      · rintro ⟨hheld, -⟩ i hi hstays j hj
        have hused : ¬ pool'.IsFree i := by rwa [Pool.IsFree, hothers i hstays]
        have hmem := hheld i hused
        rw [hothers i hstays] at hmem
        exact ((hshared _).1 hmem).2 j hj
      · intro hspares
        refine ⟨fun j hj => ?_, fun j k hj hk heq => ?_⟩
        · have hstays := hkept j hj
          rw [Pool.IsFree, hothers j hstays] at hj
          rw [hothers j hstays]
          exact (hshared _).2 ⟨hp.held j hj, hspares j hj hstays⟩
        · have hstays := hkept j hj
          have hstays' := hkept k hk
          rw [Pool.IsFree, hothers j hstays] at hj
          rw [Pool.IsFree, hothers k hstays'] at hk
          rw [hothers j hstays, hothers k hstays'] at heq
          exact hp.apart j k hj hk heq

end PoolChange

/-! ## Every run -/

namespace World

variable {w w' : World} {a : WorldAction} {as : List WorldAction}

/-- The threads leave alone what is frozen. -/
theorem frozen_of_thread {i : Fin instanceMax} {x : ThreadAction}
    (h : w.step P (.thread i x) = some w') (j : Fin instanceMax) :
    (w'.pool.slot j).frozen = (w.pool.slot j).frozen := by
  obtain ⟨-, t, ht, rfl⟩ := thread_eq_some h
  by_cases hji : j = i
  · subst hji
    simp only [put, Function.update_self]
    exact (threadStep_spec ht).frozen
  · simp only [put, Function.update_of_ne hji]

theorem sameNames_of_thread {i : Fin instanceMax} {x : ThreadAction}
    (h : w.step P (.thread i x) = some w') : w.pool.SameNames w'.pool := by
  have hshared : w'.pool.shared = w.pool.shared := by
    obtain ⟨-, t, -, rfl⟩ := thread_eq_some h
    rfl
  refine ⟨hshared, fun j => ?_, fun j => ?_⟩
  · have henum := congrArg Instance.instanceEnum (frozen_of_thread h j)
    exact henum
  · have hname := congrArg Instance.movieTexture (frozen_of_thread h j)
    exact hname

/-- The step is no delete that hits a slot with the name of another one. -/
def Spares (P : Platform) (w : World) : WorldAction → Prop
  | .command _ ev => w.pool.Spares P ev
  | .thread _ _ => True

theorem namesOwned_step (hsound : w.Sound) (hw : w.pool.NamesOwned own)
    (h : w.step P a = some w') : w'.pool.NamesOwned own := by
  cases a with
  | command env ev =>
      obtain ⟨-, -, hfresh, pool, hexec, -, rfl⟩ := command_eq_some h
      exact (executeCommand_pool (fun i => (hsound i).inst) hexec).namesOwned hfresh hw
  | thread i x => exact (sameNames_of_thread h).namesOwned hw

theorem texturesHeld_step_iff (hsound : w.Sound) (hw : w.pool.TexturesHeld)
    (h : w.step P a = some w') : w'.pool.TexturesHeld ↔ w.Spares P a := by
  cases a with
  | command env ev =>
      obtain ⟨-, -, hfresh, pool, hexec, -, rfl⟩ := command_eq_some h
      exact (executeCommand_pool (fun i => (hsound i).inst) hexec).texturesHeld_iff hfresh hw
  | thread i x => exact iff_of_true ((sameNames_of_thread h).texturesHeld hw) trivial

end World

namespace Program

variable {build : Build} {channelId channelToken : String} {env : Answers} {p q : Program}
  {as : List ProgramAction}

/-- The step is no delete that hits a slot with the name of another one. -/
def Spares (P : Platform) (p : Program) : ProgramAction → Prop
  | .pool a => p.world.Spares P a
  | .publish _ => True

theorem startup_namesOwned :
    (startup build channelId channelToken env).world.pool.NamesOwned
      (startup build channelId channelToken env).publish.inst.movieTexture := by
  cases build with
  | webrtc => exact ⟨List.nodup_singleton _, fun t ht => .inl (List.mem_singleton.1 ht)⟩
  | blackmagic => exact ⟨List.nodup_nil, fun t ht => absurd ht List.not_mem_nil⟩

theorem startup_texturesHeld :
    (startup build channelId channelToken env).world.pool.TexturesHeld := by
  cases build with
  | webrtc => exact ⟨fun i hi => absurd rfl hi, fun i j hi => absurd rfl hi⟩
  | blackmagic => exact ⟨fun i hi => absurd rfl hi, fun i j hi => absurd rfl hi⟩

theorem namesOwned_step {a : ProgramAction} (hsound : p.Sound build)
    (hp : p.world.pool.NamesOwned p.publish.inst.movieTexture) (h : p.step P a = some q) :
    q.world.pool.NamesOwned q.publish.inst.movieTexture := by
  cases a with
  | pool a =>
      obtain ⟨w, hw, rfl⟩ := Option.map_eq_some_iff.1 h
      exact World.namesOwned_step hsound.world hp hw
  | publish a =>
      obtain ⟨-, h⟩ := Option.ite_none_left_eq_some.1 h
      obtain ⟨s, hs, rfl⟩ := Option.map_eq_some_iff.1 h
      have hname := congrArg Instance.movieTexture (threadStep_spec hs).frozen
      exact hname.symm ▸ hp

/-- What the program keeps of the names in use. -/
structure Owned (build : Build) (p : Program) : Prop where
  sound : p.Sound build
  names : p.world.pool.NamesOwned p.publish.inst.movieTexture

theorem Owned.step {a : ProgramAction} (hp : p.Owned build) (h : p.step P a = some q) :
    q.Owned build :=
  ⟨hp.sound.step h, namesOwned_step hp.sound hp.names h⟩

/-- Whatever commands come and whatever the threads do, no texture is leaked: the names in
use are different from each other, and each is that of a slot in use or of the publish
instance. So at any time there are not more than one for each slot in use and one. -/
theorem run_namesOwned
    (h : Reachable (step P) (startup build channelId channelToken env) p) :
    p.world.pool.shared.Nodup ∧
      (∀ t ∈ p.world.pool.shared, t = p.publish.inst.movieTexture ∨
        ∃ i, ¬ p.world.pool.IsFree i ∧ (p.world.pool.slot i).movieTexture = t) ∧
      p.world.pool.shared.length ≤
        (Finset.univ.filter fun i => ¬ p.world.pool.IsFree i).card + 1 := by
  have hp : p.Owned build :=
    h.invariant (fun _ _ _ hp hstep => hp.step hstep) ⟨startup_sound, startup_namesOwned⟩
  refine ⟨hp.names.nodup, hp.names.owned, ?_⟩
  have hsub : p.world.pool.shared.toFinset ⊆ insert p.publish.inst.movieTexture
      ((Finset.univ.filter fun i => ¬ p.world.pool.IsFree i).image fun i =>
        (p.world.pool.slot i).movieTexture) := by
    intro t ht
    rcases hp.names.owned t (List.mem_toFinset.1 ht) with rfl | ⟨i, hi, rfl⟩
    · exact Finset.mem_insert_self ..
    · exact Finset.mem_insert_of_mem
        (Finset.mem_image_of_mem _ (Finset.mem_filter.2 ⟨Finset.mem_univ i, hi⟩))
  rw [← List.toFinset_card_of_nodup hp.names.nodup]
  calc p.world.pool.shared.toFinset.card
      ≤ _ := Finset.card_le_card hsub
    _ ≤ _ := Finset.card_insert_le ..
    _ ≤ _ := Nat.add_le_add_right Finset.card_image_le 1

theorem texturesHeld_step_iff {a : ProgramAction} (hsound : p.Sound build)
    (hp : p.world.pool.TexturesHeld) (h : p.step P a = some q) :
    q.world.pool.TexturesHeld ↔ p.Spares P a := by
  cases a with
  | pool a =>
      obtain ⟨w, hw, rfl⟩ := Option.map_eq_some_iff.1 h
      exact World.texturesHeld_step_iff hsound.world hp hw
  | publish a =>
      obtain ⟨-, h⟩ := Option.ite_none_left_eq_some.1 h
      obtain ⟨s, hs, rfl⟩ := Option.map_eq_some_iff.1 h
      exact iff_of_true hp trivial

/-- In every run, the slots in use have textures of their own all the time if and only if no
delete hits a slot that still has the name of another one. -/
theorem run_texturesHeld_iff
    (h : run (step P) (startup build channelId channelToken env) as = some q) :
    Always (step P) (fun p => p.world.pool.TexturesHeld)
        (startup build channelId channelToken env) as ↔
      Along (step P) (Spares P) (startup build channelId channelToken env) as := by
  constructor
  · exact Always.along (fun _ _ _ hsound _ hstep _ => hsound.step hstep)
      (fun _ _ _ hsound hp hstep hq => (texturesHeld_step_iff hsound hp hstep).1 hq)
      startup_sound h
  · intro halong
    have halways : Always (step P) (fun p => p.Sound build ∧ p.world.pool.TexturesHeld)
        (startup build channelId channelToken env) as :=
      halong.always (fun _ _ _ hp hspares hstep =>
        ⟨hp.1.step hstep, (texturesHeld_step_iff hp.1 hp.2 hstep).2 hspares⟩)
        ⟨startup_sound, startup_texturesHeld⟩
    exact halways.mono fun _ hp => hp.2

/-- A channel takes the slot of another one, with the texture name of an image that has
been deleted. -/
def reuse : List ProgramAction :=
  [.pool (Sample.command 2 .subscribeAddChannel Sample.addChannel),
    .pool (Sample.command 3 .resourceAddStaticImage Sample.addImage),
    .pool (Sample.command 4 .subscribeDeleteChannel Sample.deleteChannel),
    .pool (Sample.command 4 .resourceDeleteStaticImage Sample.deleteImage),
    .pool (Sample.command 3 .subscribeAddChannel Sample.addChannel)]

/-- Another delete of the image takes away the texture of the channel. -/
theorem run_texturesHeld_iff_reuse : ∃ q, run (step Sample.platform)
      (startup .webrtc "sora" "token" (Sample.answers 1)) (reuse ++
        [.pool (Sample.command 4 .resourceDeleteStaticImage Sample.deleteImage)]) = some q ∧
    q.world.pool.shared = [1] ∧ ¬ q.world.pool.IsFree 0 ∧
    (Always (step Sample.platform) (fun p => p.world.pool.TexturesHeld)
        (startup .webrtc "sora" "token" (Sample.answers 1)) (reuse ++
          [.pool (Sample.command 4 .resourceDeleteStaticImage Sample.deleteImage)]) ↔
      Along (step Sample.platform) (Spares Sample.platform)
        (startup .webrtc "sora" "token" (Sample.answers 1)) (reuse ++
          [.pool (Sample.command 4 .resourceDeleteStaticImage Sample.deleteImage)])) := by
  have hobserved : (run (step Sample.platform)
      (startup .webrtc "sora" "token" (Sample.answers 1)) (reuse ++
        [.pool (Sample.command 4 .resourceDeleteStaticImage Sample.deleteImage)])).map
      (fun q => (q.world.pool.shared, decide (q.world.pool.IsFree 0))) = some ([1], false) := by
    decide +kernel
  obtain ⟨q, hq, hpair⟩ := Option.map_eq_some_iff.1 hobserved
  obtain ⟨hshared, hfree⟩ := Prod.mk.inj hpair
  exact ⟨q, hq, hshared, of_decide_eq_false hfree, run_texturesHeld_iff hq⟩

/-- The names in use after an add. -/
theorem run_namesOwned_add : ∃ p, step Sample.platform
      (startup .webrtc "sora" "token" (Sample.answers 1))
      (.pool (Sample.command 2 .subscribeAddChannel Sample.addChannel)) = some p ∧
    p.world.pool.shared = [2, 1] ∧ p.world.pool.shared.Nodup ∧
    (∀ t ∈ p.world.pool.shared, t = p.publish.inst.movieTexture ∨
      ∃ i, ¬ p.world.pool.IsFree i ∧ (p.world.pool.slot i).movieTexture = t) ∧
    p.world.pool.shared.length ≤
      (Finset.univ.filter fun i => ¬ p.world.pool.IsFree i).card + 1 := by
  have hobserved : (step Sample.platform (startup .webrtc "sora" "token" (Sample.answers 1))
      (.pool (Sample.command 2 .subscribeAddChannel Sample.addChannel))).map
      (fun p => p.world.pool.shared) = some [2, 1] := by
    decide +kernel
  obtain ⟨p, hp, hshared⟩ := Option.map_eq_some_iff.1 hobserved
  have hreach : Reachable (step Sample.platform)
      (startup .webrtc "sora" "token" (Sample.answers 1)) p :=
    ⟨[_], run_cons_eq_some_iff.2 ⟨p, hp, rfl⟩⟩
  exact ⟨p, hp, hshared, run_namesOwned hreach⟩

end Program

end Bres
