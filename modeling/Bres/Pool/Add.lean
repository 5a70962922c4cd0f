import Bres.Pool.World

/-!
# Where an add puts its resource

Both adds scan the pool for its first free slot, and both return without a trace when a
key is missing, when no slot is free, or when the picture cannot be loaded. Otherwise
they fill the slot that the scan has found, if their reads of memory that is not theirs do
not end the program. A channel also needs a slot whose threads have been joined: the scan
looks at the mark of the slot only, and a delete that frees a live channel by an image path
leaves the threads behind.
-/

namespace Bres

open Transition

namespace Pool

/-- No slot is free. -/
def Full (pool : Pool) : Prop := ∀ i, ¬ pool.IsFree i

/-- The lowest free slot. -/
def IsLowestFree (pool : Pool) (i : Fin instanceMax) : Prop :=
  pool.IsFree i ∧ ∀ j < i, ¬ pool.IsFree j

/-- The second pool differs from the first in one slot: the lowest free one is taken. -/
def Occupies (pool pool' : Pool) : Prop :=
  ∃ i, pool.IsLowestFree i ∧ ¬ pool'.IsFree i ∧ ∀ j, j ≠ i → pool'.slot j = pool.slot j

/-- The reasons for which a channel add leaves the pool as it is. -/
def Skips (pool : Pool) (keys : List String) (json : Json) : Prop :=
  (∃ key ∈ keys, ¬ json.Has key) ∨ pool.Full

/-- The reasons for which an image add does so. -/
def SkipsImage (pool : Pool) (env : Answers) (json : Json) : Prop :=
  pool.Skips addImageKeys json ∨ ∃ path, json.HasString "path" path ∧ env.stbiLoad path = none

/-- The command returns, and takes a slot unless it has a reason to leave the pool as it
is. -/
def AddsExactly (pool : Pool) (skips : Prop) (o : Outcome Exn Pool) : Prop :=
  ∃ pool', o = .done pool' ∧ (skips → pool' = pool) ∧ (¬ skips → pool.Occupies pool')

/-- The scan ends at the lowest free slot, or behind the last one. -/
theorem freeIndex_eq_iff {pool : Pool} {i : Fin instanceMax} :
    pool.freeIndex = i ↔ pool.IsLowestFree i := by
  have hlength : (i : ℕ) < (List.ofFn pool.slot).length := by
    rw [List.length_ofFn]
    exact i.isLt
  rw [freeIndex, List.findIdx_eq hlength]
  simp only [List.getElem_ofFn, decide_eq_true_eq, decide_eq_false_iff_not]
  refine and_congr_right fun _ => ⟨fun h j hj => h j hj, fun h j hj => ?_⟩
  exact h ⟨j, hj.trans i.isLt⟩ hj

theorem instanceMax_le_freeIndex_iff {pool : Pool} : instanceMax ≤ pool.freeIndex ↔ pool.Full := by
  constructor
  · intro hle i hfree
    have hscan : pool.freeIndex ≤ i := by
      by_contra hlt
      have hpast := List.not_of_lt_findIdx (not_le.1 hlt)
      simp only [List.getElem_ofFn, decide_eq_false_iff_not] at hpast
      exact hpast hfree
    exact absurd (hle.trans hscan) (not_le.2 i.isLt)
  · intro hfull
    by_contra hlt
    exact hfull ⟨pool.freeIndex, not_le.1 hlt⟩ (isFree_of_freeIndex_eq rfl)

theorem rejects_iff_skips {pool : Pool} {keys : List String} {json : Json} :
    pool.Rejects keys json ↔ pool.Skips keys json := by
  have hmissing : ∀ key, json.find key = none ↔ ¬ json.Has key := fun key => by
    rw [Json.Has, ← Option.ne_none_iff_exists', not_not]
  simp only [Rejects, Skips, hmissing, instanceMax_le_freeIndex_iff]

variable {pool : Pool} {i : Fin instanceMax} {skips : Prop}

theorem addsExactly_of_skips (h : skips) : pool.AddsExactly skips (.done pool) :=
  ⟨pool, rfl, fun _ => rfl, fun hnot => absurd h hnot⟩

/-- A command that writes an occupied record into the slot that the scan has found. -/
theorem addsExactly_visit (hskips : ¬ skips) (h : pool.freeIndex = i)
    {body : Instance → List GLuint → Outcome Exn (Instance × List GLuint)} {inst : Instance}
    {gl : List GLuint} (hbody : body (pool.slot i) pool.shared = .done (inst, gl))
    (henum : inst.instanceEnum ≠ .min) : pool.AddsExactly skips (pool.visit i body) := by
  refine ⟨_, Family.visit_eq_done hbody, fun hyes => absurd hyes hskips, fun _ => ?_⟩
  refine ⟨i, freeIndex_eq_iff.1 h, ?_, fun j hj => Function.update_of_ne hj ..⟩
  rw [IsFree]
  simpa only [Function.update_self] using henum

end Pool

variable {P : Platform} {ev : Bytes} {json : Json} {pool : Pool}

theorem visit_state_slot_of_ne {i j : Fin instanceMax} (h : j ≠ i)
    (body : Instance → List GLuint → Outcome Exn (Instance × List GLuint)) :
    (pool.visit i body).state.slot j = pool.slot j := by
  rw [Family.visit, Outcome.state_mapState]
  exact Function.update_of_ne h ..

/-- Keys that are present, with strings where they are present, have texts. -/
theorem exists_hasString {keys : List String} (hkeys : ∀ key ∈ keys, ∃ v, json.find key = some v)
    (htyped : ∀ key ∈ keys, json.StringOrAbsent key) :
    ∀ key ∈ keys, ∃ text, json.HasString key text := by
  intro key hkey
  obtain ⟨v, hv⟩ := hkeys key hkey
  obtain ⟨text, rfl⟩ := htyped key hkey v hv
  exact ⟨text, hv⟩

/-! ## Channels -/

theorem addChannel_exact_iff (hsound : ∀ i, (pool.slot i).Sound)
    (hparse : P.parse ev = some json)
    (htyped : ∀ key ∈ addChannelKeys, json.StringOrAbsent key) (env : Answers) :
    pool.AddsExactly (pool.Skips addChannelKeys json)
        (subscribeSideAddChannel P.parse ev env pool) ↔
      pool.Skips addChannelKeys json ∨
        ∀ i, pool.IsLowestFree i →
          (pool.slot i).eventDispatchThread = .none ∧ env.Survives (pool.slot i) := by
  by_cases hrejects : pool.Rejects addChannelKeys json
  · have hskips := Pool.rejects_iff_skips.1 hrejects
    rw [addChannel_of_rejects hparse hrejects]
    exact iff_of_true (Pool.addsExactly_of_skips hskips) (.inl hskips)
  have hskips := mt Pool.rejects_iff_skips.2 hrejects
  obtain ⟨i, id, token, multi, server, hindex, hid, htoken, hmulti, hserver, hadd⟩ :=
    addChannel_of_not_rejects hparse hrejects env
  obtain ⟨id, rfl⟩ := htyped "channel_id" (by simp [addChannelKeys]) id hid
  obtain ⟨token, rfl⟩ := htyped "channel_token" (by simp [addChannelKeys]) token htoken
  obtain ⟨multi, rfl⟩ := htyped "channel_multiple_stream" (by simp [addChannelKeys]) multi hmulti
  obtain ⟨server, rfl⟩ := htyped "signaling_server" (by simp [addChannelKeys]) server hserver
  rw [hadd]
  constructor
  · rintro ⟨pool', hdone, -⟩
    obtain ⟨inst, gl, hopen, -⟩ := Family.visit_eq_done_iff.1 hdone
    obtain ⟨_, _, _, _, -, -, -, -, hsurvives, hthread, -⟩ := openChannel_eq_done_iff.1 hopen
    refine .inr fun j hj => ?_
    obtain rfl : i = j := Fin.ext (hindex.symm.trans (Pool.freeIndex_eq_iff.2 hj))
    exact ⟨hthread, hsurvives⟩
  · intro hcondition
    obtain ⟨hthread, hsurvives⟩ :=
      hcondition.resolve_left hskips i (Pool.freeIndex_eq_iff.1 hindex)
    have hopen : openChannel (.string id) (.string token) (.string multi) (.string server)
        env (pool.slot i) pool.shared =
          .done (openedChannel id token multi env (pool.slot i), env.texture :: pool.shared) :=
      openChannel_eq_done_iff.2 ⟨id, token, multi, server, rfl, rfl, rfl, rfl, hsurvives,
        hthread, (hsound i).websocketsThread_eq.trans hthread, rfl⟩
    exact Pool.addsExactly_visit hskips hindex hopen (by simp)

/-- In every ending a channel add leaves all slots but the lowest free one alone. -/
theorem addChannel_state_slot (hparse : P.parse ev = some json) (env : Answers)
    {j : Fin instanceMax} (hj : ¬ pool.IsLowestFree j) :
    (subscribeSideAddChannel P.parse ev env pool).state.slot j = pool.slot j := by
  by_cases hrejects : pool.Rejects addChannelKeys json
  · rw [addChannel_of_rejects hparse hrejects, Outcome.state_done]
  obtain ⟨i, id, token, multi, server, hindex, -, -, -, -, hadd⟩ :=
    addChannel_of_not_rejects hparse hrejects env
  have hne : j ≠ i := by
    rintro rfl
    exact hj (Pool.freeIndex_eq_iff.1 hindex)
  rw [hadd, visit_state_slot_of_ne hne]

/-! ## Images -/

theorem addImage_exact_iff (hparse : P.parse ev = some json)
    (htyped : ∀ key ∈ addImageKeys, json.StringOrAbsent key)
    (hnumbers : ∀ key ∈ ["pos_x", "pos_y"], ∀ text, json.HasString key text →
      ∃ v, stof text = .ok v) (env : Answers) :
    pool.AddsExactly (pool.SkipsImage env json) (resourceAddStaticImage P ev env pool) ↔
      pool.SkipsImage env json ∨ ∀ path image, json.HasString "path" path →
        env.stbiLoad path = some image → env.Copies P image := by
  by_cases hrejects : pool.Rejects addImageKeys json
  · have hskips := Pool.rejects_iff_skips.1 hrejects
    rw [addImage_of_rejects hparse hrejects]
    exact iff_of_true (Pool.addsExactly_of_skips (.inl hskips)) (.inl (.inl hskips))
  have hskips := mt Pool.rejects_iff_skips.2 hrejects
  obtain ⟨hkeys, -⟩ := Pool.not_rejects_iff.1 hrejects
  obtain ⟨i, path, posX, posY, hindex, hpath, hposX, hposY, hadd⟩ :=
    addImage_of_texts hparse hrejects (exists_hasString hkeys htyped) env
  obtain ⟨x, hx⟩ := hnumbers "pos_x" (by simp) posX hposX
  obtain ⟨y, hy⟩ := hnumbers "pos_y" (by simp) posY hposY
  rw [hadd]
  cases hload : env.stbiLoad path with
  | none =>
      have hmissing : pool.SkipsImage env json := .inr ⟨path, hpath, hload⟩
      exact iff_of_true (Pool.addsExactly_of_skips hmissing) (.inl hmissing)
  | some image =>
      have hloads : ¬ pool.SkipsImage env json := by
        rintro (h | ⟨path', hpath', hnone⟩)
        · exact hskips h
        · rw [hpath'.unique hpath, hload] at hnone
          cases hnone
      constructor
      · rintro ⟨pool', hdone, -⟩
        obtain ⟨inst, gl, hshow, -⟩ := Family.visit_eq_done_iff.1 hdone
        obtain ⟨_, _, -, -, hcopies, -⟩ := showImage_eq_done_iff.1 hshow
        refine .inr fun path' image' hpath' hload' => ?_
        rw [hpath'.unique hpath, hload] at hload'
        exact Option.some.inj hload' ▸ hcopies
      · intro hcondition
        have hcopies := hcondition.resolve_left hloads path image hpath hload
        have hshow : showImage P path posX posY image env (pool.slot i) pool.shared =
            .done (shownImage P path x y image env (pool.slot i), env.texture :: pool.shared) :=
          showImage_eq_done_iff.2 ⟨x, y, hx, hy, hcopies, rfl⟩
        exact Pool.addsExactly_visit hloads hindex hshow (by simp [shownImage])

/-- In every ending an image add leaves all slots but the lowest free one alone. -/
theorem addImage_state_slot (hparse : P.parse ev = some json)
    (htyped : ∀ key ∈ addImageKeys, json.StringOrAbsent key) (env : Answers)
    {j : Fin instanceMax} (hj : ¬ pool.IsLowestFree j) :
    (resourceAddStaticImage P ev env pool).state.slot j = pool.slot j := by
  by_cases hrejects : pool.Rejects addImageKeys json
  · rw [addImage_of_rejects hparse hrejects, Outcome.state_done]
  obtain ⟨hkeys, -⟩ := Pool.not_rejects_iff.1 hrejects
  obtain ⟨i, path, posX, posY, hindex, -, -, -, hadd⟩ :=
    addImage_of_texts hparse hrejects (exists_hasString hkeys htyped) env
  have hne : j ≠ i := by
    rintro rfl
    exact hj (Pool.freeIndex_eq_iff.1 hindex)
  rw [hadd]
  cases env.stbiLoad path with
  | none => rfl
  | some image => exact visit_state_slot_of_ne hne _

/-! ## Both -/

/-- In every state of the program, an add takes the lowest free slot or has a reason not to,
if and only if it has a reason not to, or its reads do not end the program and, for a
channel, the threads of that slot have been joined. In no case does it touch another
slot. -/
theorem add_exact_iff {w : World} (hw : w.Reachable P) (hparse : P.parse ev = some json)
    (env : Answers) :
    ((∀ key ∈ addChannelKeys, json.StringOrAbsent key) →
      (w.pool.AddsExactly (w.pool.Skips addChannelKeys json)
          (subscribeSideAddChannel P.parse ev env w.pool) ↔
        w.pool.Skips addChannelKeys json ∨
          ∀ i, w.pool.IsLowestFree i →
            (w.pool.slot i).eventDispatchThread = .none ∧ env.Survives (w.pool.slot i)) ∧
      ∀ j, ¬ w.pool.IsLowestFree j →
        (subscribeSideAddChannel P.parse ev env w.pool).state.slot j = w.pool.slot j) ∧
    ((∀ key ∈ addImageKeys, json.StringOrAbsent key) →
      (∀ key ∈ ["pos_x", "pos_y"], ∀ text, json.HasString key text →
        ∃ v, stof text = .ok v) →
      (w.pool.AddsExactly (w.pool.SkipsImage env json)
          (resourceAddStaticImage P ev env w.pool) ↔
        w.pool.SkipsImage env json ∨ ∀ path image, json.HasString "path" path →
          env.stbiLoad path = some image → env.Copies P image) ∧
      ∀ j, ¬ w.pool.IsLowestFree j →
        (resourceAddStaticImage P ev env w.pool).state.slot j = w.pool.slot j) :=
  ⟨fun htyped => ⟨addChannel_exact_iff (fun i => (hw.sound i).inst) hparse htyped env,
      fun _ => addChannel_state_slot hparse env⟩,
    fun htyped hnumbers => ⟨addImage_exact_iff hparse htyped hnumbers env,
      fun _ => addImage_state_slot hparse htyped env⟩⟩

theorem Sample.addChannel_typed :
    ∀ key ∈ addChannelKeys, (Json.object Sample.addChannel).StringOrAbsent key := by
  have hid : (Json.object Sample.addChannel).HasString "channel_id" "sora" := rfl
  have htoken : (Json.object Sample.addChannel).HasString "channel_token" "token" := rfl
  have hmulti : (Json.object Sample.addChannel).HasString "channel_multiple_stream" "on" := rfl
  have hserver : (Json.object Sample.addChannel).HasString "signaling_server" "localhost" := rfl
  simp only [addChannelKeys, List.forall_mem_cons]
  exact ⟨hid.stringOrAbsent, htoken.stringOrAbsent, hmulti.stringOrAbsent,
    hserver.stringOrAbsent, List.forall_mem_nil _⟩

/-- The two parts at the start of the program. -/
theorem add_exact_iff_startup :
    (World.startup.pool.AddsExactly
        (World.startup.pool.Skips addChannelKeys (.object Sample.addChannel))
        (subscribeSideAddChannel Sample.platform.parse (flatText Sample.addChannel)
          (Sample.answers 1) World.startup.pool) ↔
      World.startup.pool.Skips addChannelKeys (.object Sample.addChannel) ∨
        ∀ i, World.startup.pool.IsLowestFree i →
          (World.startup.pool.slot i).eventDispatchThread = .none ∧
            (Sample.answers 1).Survives (World.startup.pool.slot i)) ∧
    (World.startup.pool.AddsExactly
        (World.startup.pool.SkipsImage (Sample.answers 1) (.object Sample.addImage))
        (resourceAddStaticImage Sample.platform (flatText Sample.addImage) (Sample.answers 1)
          World.startup.pool) ↔
      World.startup.pool.SkipsImage (Sample.answers 1) (.object Sample.addImage) ∨
        ∀ path image, (Json.object Sample.addImage).HasString "path" path →
          (Sample.answers 1).stbiLoad path = some image →
            (Sample.answers 1).Copies Sample.platform image) := by
  have hpath : (Json.object Sample.addImage).HasString "path" "logo.png" := rfl
  have hposX : (Json.object Sample.addImage).HasString "pos_x" "0" := rfl
  have hposY : (Json.object Sample.addImage).HasString "pos_y" "0" := rfl
  refine ⟨((add_exact_iff (.refl _) Sample.parse_addChannel _).1 Sample.addChannel_typed).1,
    ((add_exact_iff (.refl _) Sample.parse_addImage _).2 ?_ ?_).1⟩
  · simp only [addImageKeys, List.forall_mem_cons]
    exact ⟨hpath.stringOrAbsent, hposX.stringOrAbsent, hposY.stringOrAbsent,
      List.forall_mem_nil _⟩
  · simp only [List.forall_mem_cons]
    exact ⟨fun text htext => ⟨0, htext.unique hposX ▸ Sample.stof_zero⟩,
      fun text htext => ⟨0, htext.unique hposY ▸ Sample.stof_zero⟩, List.forall_mem_nil _⟩

/-- The sample channel is not added where the slot is not fit for it. -/
theorem Sample.not_addsExactly {w : World} (hw : w.Reachable platform)
    (hlowest : w.pool.IsLowestFree 0) {env : Answers}
    (h : ¬ ((w.pool.slot 0).eventDispatchThread = .none ∧ env.Survives (w.pool.slot 0))) :
    ¬ w.pool.AddsExactly (w.pool.Skips addChannelKeys (.object addChannel))
      (subscribeSideAddChannel platform.parse (flatText addChannel) env w.pool) := by
  intro hexact
  rcases (addChannel_exact_iff (fun i => (hw.sound i).inst) parse_addChannel
    addChannel_typed env).1 hexact with (⟨key, hkey, hmissing⟩ | hfull) | hfit
  · have hhas : ∀ key ∈ addChannelKeys, (Json.object addChannel).Has key := by
      simp only [addChannelKeys, List.forall_mem_cons]
      exact ⟨⟨_, rfl⟩, ⟨_, rfl⟩, ⟨_, rfl⟩, ⟨_, rfl⟩, List.forall_mem_nil _⟩
    exact hmissing (hhas key hkey)
  · exact hfull 0 hlowest.1
  · exact h (hfit 0 hlowest)

/-- The outside world, where reading a picture that has been freed ends the program. -/
def Sample.answersFreed (texture : GLuint) : Answers :=
  { Sample.answers texture with
    faults := fun read => match read with
      | .freedImage _ => true
      | _ => false }

/-- A live channel that is freed by the empty path leaves its threads behind, and the
channel that is to take the slot brings the program down. So can a channel in the slot of a
deleted image, whose picture it reads. -/
theorem not_addsExactly_add_delete_add :
    (∃ w, run (World.step Sample.platform) World.startup
        [Sample.command 1 .subscribeAddChannel Sample.addChannel,
          Sample.command 2 .resourceDeleteStaticImage Sample.deleteNoImage] = some w ∧
      w.pool.IsLowestFree 0 ∧
      ¬ w.pool.AddsExactly (w.pool.Skips addChannelKeys (.object Sample.addChannel))
        (subscribeSideAddChannel Sample.platform.parse (flatText Sample.addChannel)
          (Sample.answers 3) w.pool)) ∧
    ∃ w, run (World.step Sample.platform) World.startup
        [Sample.command 1 .resourceAddStaticImage Sample.addImage,
          Sample.command 2 .resourceDeleteStaticImage Sample.deleteImage] = some w ∧
      w.pool.IsLowestFree 0 ∧
      ¬ w.pool.AddsExactly (w.pool.Skips addChannelKeys (.object Sample.addChannel))
        (subscribeSideAddChannel Sample.platform.parse (flatText Sample.addChannel)
          (Sample.answersFreed 3) w.pool) := by
  have hthreads : (run (World.step Sample.platform) World.startup
        [Sample.command 1 .subscribeAddChannel Sample.addChannel,
          Sample.command 2 .resourceDeleteStaticImage Sample.deleteNoImage]).map
      (fun w => ((w.pool.slot 0).instanceEnum, (w.pool.slot 0).eventDispatchThread)) =
        some (.min, .joinable) := by
    decide +kernel
  have hpicture : (run (World.step Sample.platform) World.startup
        [Sample.command 1 .resourceAddStaticImage Sample.addImage,
          Sample.command 2 .resourceDeleteStaticImage Sample.deleteImage]).map
      (fun w => ((w.pool.slot 0).instanceEnum, (Sample.answersFreed 3).readFault 0
        (w.pool.slot 0).initImage)) = some (.min, some .useAfterFree) := by
    decide +kernel
  constructor
  · obtain ⟨w, hw, hpair⟩ := Option.map_eq_some_iff.1 hthreads
    obtain ⟨hfree, hthread⟩ := Prod.mk.inj hpair
    have hlowest : w.pool.IsLowestFree 0 := ⟨hfree, fun j hj => absurd hj (Nat.not_lt_zero _)⟩
    refine ⟨w, hw, hlowest, Sample.not_addsExactly ⟨_, hw⟩ hlowest fun hfit => ?_⟩
    rw [hthread] at hfit
    cases hfit.1
  · obtain ⟨w, hw, hpair⟩ := Option.map_eq_some_iff.1 hpicture
    obtain ⟨hfree, hgone⟩ := Prod.mk.inj hpair
    have hlowest : w.pool.IsLowestFree 0 := ⟨hfree, fun j hj => absurd hj (Nat.not_lt_zero _)⟩
    refine ⟨w, hw, hlowest, Sample.not_addsExactly ⟨_, hw⟩ hlowest fun hfit => ?_⟩
    cases hinit : (w.pool.slot 0).initImage with
    | dangling address =>
        have hread := hfit.2.readFault_eq
        rw [hinit] at hread
        cases hread
    | null =>
        rw [hinit] at hgone
        cases hgone
    | live image =>
        rw [hinit] at hgone
        simp [Answers.readFault, Answers.Overreads, Sample.answersFreed] at hgone

end Bres
