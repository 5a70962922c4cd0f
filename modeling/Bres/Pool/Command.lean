import Bres.Pool.Effect

/-!
# The commands, case by case

What each of the five commands does is decided by the members that its JSON text
has and by the slots of the pool. The first section names what a command asks for,
and the next has one rule for each case: a command that goes no further, one that
throws, and one that returns, with the pool it leaves behind.
-/

namespace Bres

open Transition

/-- The keys without which `subscribeSideAddChannel` returns at once. -/
def addChannelKeys : List String :=
  ["channel_id", "channel_token", "channel_multiple_stream", "signaling_server"]

/-- The keys without which `resourceAddStaticImage` returns at once. -/
def addImageKeys : List String := ["path", "pos_x", "pos_y"]

/-! ## What a command asks for -/

namespace Platform

/-- The command carries what a channel add needs. -/
def AddsChannel (P : Platform) (ev : SEvent) : Prop :=
  ev.type = .subscribeAddChannel ∧
    ∃ json, P.parse ev.event = some json ∧ ∀ key ∈ addChannelKeys, json.Has key

/-- The command carries what an image add needs, and the picture can be loaded. -/
def AddsImage (P : Platform) (env : Answers) (ev : SEvent) (image : Image) : Prop :=
  ev.type = .resourceAddStaticImage ∧
    ∃ json, P.parse ev.event = some json ∧ (∀ key ∈ addImageKeys, json.Has key) ∧
      ∃ path, json.HasString "path" path ∧ env.stbiLoad path = some image

/-- The command deletes the channel of that id. -/
def DeletesChannel (P : Platform) (ev : SEvent) (id : String) : Prop :=
  ev.type = .subscribeDeleteChannel ∧
    ∃ json, P.parse ev.event = some json ∧ json.HasString "channel_id" id

/-- The command deletes the static image of that path. -/
def DeletesImage (P : Platform) (ev : SEvent) (path : String) : Prop :=
  ev.type = .resourceDeleteStaticImage ∧
    ∃ json, P.parse ev.event = some json ∧ json.HasString "path" path

/-- The command carries the name of that record, to delete it or to set its attributes. -/
def Names (P : Platform) (ev : SEvent) (inst : Instance) : Prop :=
  ∃ json, P.parse ev.event = some json ∧
    ((ev.type = .subscribeDeleteChannel ∨ ev.type = .subscribePropertyChannel) ∧
        json.HasString "channel_id" inst.channelId ∨
      ev.type = .resourceDeleteStaticImage ∧ json.HasString "path" inst.imagePath)

end Platform

/-! ## Rules -/

variable {P : Platform} {env : Answers} {ev : Bytes} {pool pool' : Pool} {json : Json}

/-- An add command goes no further: a key is missing or no slot is free. -/
def Pool.Rejects (pool : Pool) (keys : List String) (json : Json) : Prop :=
  (∃ key ∈ keys, json.find key = none) ∨ instanceMax ≤ pool.freeIndex

theorem Pool.not_rejects_iff {keys : List String} :
    ¬ pool.Rejects keys json ↔
      (∀ key ∈ keys, ∃ v, json.find key = some v) ∧
        ∃ i : Fin instanceMax, pool.freeIndex = i := by
  simp only [Pool.Rejects, not_or, not_exists, not_and, not_le]
  refine and_congr ?_ ⟨fun h => ⟨⟨_, h⟩, rfl⟩, fun ⟨i, hi⟩ => hi ▸ i.isLt⟩
  exact forall₂_congr fun key _ => Option.ne_none_iff_exists'

theorem addChannel_of_rejects (hparse : P.parse ev = some json)
    (h : pool.Rejects addChannelKeys json) (env : Answers) :
    subscribeSideAddChannel P.parse ev env pool = .done pool := by
  unfold subscribeSideAddChannel
  rw [hparse]
  rcases h with ⟨key, hkey, hnone⟩ | hfull
  · simp only [addChannelKeys, List.mem_cons, List.not_mem_nil, or_false] at hkey
    rcases hkey with rfl | rfl | rfl | rfl <;> simp only [hnone]
    · cases json.find "channel_id" <;> rfl
    · cases json.find "channel_id" <;> cases json.find "channel_token" <;> rfl
    · cases json.find "channel_id" <;> cases json.find "channel_token" <;>
        cases json.find "channel_multiple_stream" <;> rfl
  · simp only [dif_neg (Nat.not_lt.2 hfull)]
    split <;> rfl

theorem addChannel_of_present {id token multi server : Json} {i : Fin instanceMax}
    (hparse : P.parse ev = some json) (hid : json.find "channel_id" = some id)
    (htoken : json.find "channel_token" = some token)
    (hmulti : json.find "channel_multiple_stream" = some multi)
    (hserver : json.find "signaling_server" = some server)
    (hindex : pool.freeIndex = i) (env : Answers) :
    subscribeSideAddChannel P.parse ev env pool =
      pool.visit i (openChannel id token multi server env) := by
  unfold subscribeSideAddChannel
  rw [hparse]
  have hlt : pool.freeIndex < instanceMax := lt_of_eq_of_lt hindex i.isLt
  have hi : (⟨pool.freeIndex, hlt⟩ : Fin instanceMax) = i := Fin.ext hindex
  simp only [hid, htoken, hmulti, hserver, dif_pos hlt, hi]

/-- A channel add that goes further works on the slot that the scan has found. -/
theorem addChannel_of_not_rejects (hparse : P.parse ev = some json)
    (h : ¬ pool.Rejects addChannelKeys json) (env : Answers) :
    ∃ (i : Fin instanceMax) (id token multi server : Json), pool.freeIndex = i ∧
      json.find "channel_id" = some id ∧ json.find "channel_token" = some token ∧
      json.find "channel_multiple_stream" = some multi ∧
      json.find "signaling_server" = some server ∧
      subscribeSideAddChannel P.parse ev env pool =
        pool.visit i (openChannel id token multi server env) := by
  obtain ⟨hkeys, i, hindex⟩ := Pool.not_rejects_iff.1 h
  obtain ⟨id, hid⟩ := hkeys "channel_id" (by simp [addChannelKeys])
  obtain ⟨token, htoken⟩ := hkeys "channel_token" (by simp [addChannelKeys])
  obtain ⟨multi, hmulti⟩ := hkeys "channel_multiple_stream" (by simp [addChannelKeys])
  obtain ⟨server, hserver⟩ := hkeys "signaling_server" (by simp [addChannelKeys])
  exact ⟨i, id, token, multi, server, hindex, hid, htoken, hmulti, hserver,
    addChannel_of_present hparse hid htoken hmulti hserver hindex env⟩

theorem addImage_of_rejects (hparse : P.parse ev = some json)
    (h : pool.Rejects addImageKeys json) (env : Answers) :
    resourceAddStaticImage P ev env pool = .done pool := by
  unfold resourceAddStaticImage
  rw [hparse]
  rcases h with ⟨key, hkey, hnone⟩ | hfull
  · simp only [addImageKeys, List.mem_cons, List.not_mem_nil, or_false] at hkey
    rcases hkey with rfl | rfl | rfl <;> simp only [hnone]
    · cases json.find "path" <;> rfl
    · cases json.find "path" <;> cases json.find "pos_x" <;> rfl
  · simp only [dif_neg (Nat.not_lt.2 hfull)]
    split <;> rfl

/-- An image add whose keys are present reads three strings before anything else. -/
theorem addImage_of_mistyped (hparse : P.parse ev = some json)
    (h : ¬ pool.Rejects addImageKeys json)
    (hmistyped : ∃ key ∈ addImageKeys, json.text key = none)
    (env : Answers) :
    resourceAddStaticImage P ev env pool = .thrown .typeError pool := by
  obtain ⟨hkeys, i, hindex⟩ := Pool.not_rejects_iff.1 h
  have hlt : pool.freeIndex < instanceMax := lt_of_eq_of_lt hindex i.isLt
  obtain ⟨path, hpath⟩ := hkeys "path" (by simp [addImageKeys])
  obtain ⟨posX, hposX⟩ := hkeys "pos_x" (by simp [addImageKeys])
  obtain ⟨posY, hposY⟩ := hkeys "pos_y" (by simp [addImageKeys])
  unfold resourceAddStaticImage
  simp only [hparse, hpath, hposX, hposY, dif_pos hlt]
  obtain ⟨key, hkey, hnone⟩ := hmistyped
  simp only [addImageKeys, List.mem_cons, List.not_mem_nil, or_false] at hkey
  rcases hkey with rfl | rfl | rfl
  · have hread : path.getString = none := by simpa [Json.text, hpath] using hnone
    rw [hread]
  · have hread : posX.getString = none := by simpa [Json.text, hposX] using hnone
    rw [hread]
    cases path.getString <;> rfl
  · have hread : posY.getString = none := by simpa [Json.text, hposY] using hnone
    rw [hread]
    cases path.getString <;> cases posX.getString <;> rfl

theorem addImage_of_present {path posX posY : String} {i : Fin instanceMax}
    (hparse : P.parse ev = some json) (hpath : json.HasString "path" path)
    (hposX : json.HasString "pos_x" posX) (hposY : json.HasString "pos_y" posY)
    (hindex : pool.freeIndex = i) (env : Answers) :
    resourceAddStaticImage P ev env pool =
      match env.stbiLoad path with
      | none => .done pool
      | some image => pool.visit i (showImage P path posX posY image env) := by
  unfold resourceAddStaticImage
  rw [hparse]
  have hlt : pool.freeIndex < instanceMax := lt_of_eq_of_lt hindex i.isLt
  have hi : (⟨pool.freeIndex, hlt⟩ : Fin instanceMax) = i := Fin.ext hindex
  simp only [Json.HasString] at hpath hposX hposY
  cases hload : env.stbiLoad path <;>
    simp only [hpath, hposX, hposY, dif_pos hlt, hi, Json.getString, hload]

/-- An image add that goes further, with the three texts it reads. -/
theorem addImage_of_texts (hparse : P.parse ev = some json)
    (h : ¬ pool.Rejects addImageKeys json)
    (htext : ∀ key ∈ addImageKeys, ∃ text, json.HasString key text)
    (env : Answers) :
    ∃ (i : Fin instanceMax) (path posX posY : String), pool.freeIndex = i ∧
      json.HasString "path" path ∧ json.HasString "pos_x" posX ∧
      json.HasString "pos_y" posY ∧
      resourceAddStaticImage P ev env pool =
        match env.stbiLoad path with
        | none => .done pool
        | some image => pool.visit i (showImage P path posX posY image env) := by
  obtain ⟨-, i, hindex⟩ := Pool.not_rejects_iff.1 h
  obtain ⟨path, hpath⟩ := htext "path" (by simp [addImageKeys])
  obtain ⟨posX, hposX⟩ := htext "pos_x" (by simp [addImageKeys])
  obtain ⟨posY, hposY⟩ := htext "pos_y" (by simp [addImageKeys])
  exact ⟨i, path, posX, posY, hindex, hpath, hposX, hposY,
    addImage_of_present hparse hpath hposX hposY hindex env⟩

theorem deleteChannel_of_absent (hparse : P.parse ev = some json)
    (h : json.find "channel_id" = none) :
    subscribeSideDeleteChannel P.parse ev pool = .done pool := by
  simp only [subscribeSideDeleteChannel, hparse, h]

theorem deleteChannel_of_id {id : String} (hparse : P.parse ev = some json)
    (h : json.HasString "channel_id" id) :
    subscribeSideDeleteChannel P.parse ev pool =
      Outcome.sweep (fun i pool => pool.visit i (deleteChannelAt id))
        (List.finRange instanceMax) pool := by
  simp only [Json.HasString] at h
  simp only [subscribeSideDeleteChannel, hparse, h, Json.getString]

theorem deleteImage_of_absent (hparse : P.parse ev = some json)
    (h : json.find "path" = none) :
    resourceDeleteStaticImage P ev pool = .done pool := by
  simp only [resourceDeleteStaticImage, hparse, h]

theorem deleteImage_of_path {path : String} (hparse : P.parse ev = some json)
    (h : json.HasString "path" path) :
    resourceDeleteStaticImage P ev pool =
      Outcome.sweep (fun i pool => pool.visit i (deleteImageAt path))
        (List.finRange instanceMax) pool := by
  simp only [Json.HasString] at h
  simp only [resourceDeleteStaticImage, hparse, h, Json.getString]

theorem property_of_absent (hparse : P.parse ev = some json)
    (h : json.find "channel_id" = none) :
    subscribeSidePropertyChannel P.parse ev pool = .done pool := by
  simp only [subscribeSidePropertyChannel, hparse, h]

theorem property_of_id {id : String} (hparse : P.parse ev = some json)
    (h : json.HasString "channel_id" id) :
    subscribeSidePropertyChannel P.parse ev pool =
      match (List.finRange instanceMax).find? fun i =>
          (pool.slot i).channelId = id with
      | none => .done pool
      | some i => pool.visit i fun inst gl => (setAttributes json inst).mapState (·, gl) := by
  simp only [Json.HasString] at h
  cases hfind : (List.finRange instanceMax).find? fun i => (pool.slot i).channelId = id <;>
    simp only [subscribeSidePropertyChannel, hparse, h, Json.getString, hfind]

/-- A command whose name is not a string throws before it looks at a slot. -/
theorem named_of_mistyped (hparse : P.parse ev = some json) {v : Json}
    (hv : v.getString = none) :
    (json.find "channel_id" = some v →
        subscribeSideDeleteChannel P.parse ev pool = .thrown .typeError pool ∧
          subscribeSidePropertyChannel P.parse ev pool = .thrown .typeError pool) ∧
      (json.find "path" = some v →
        resourceDeleteStaticImage P ev pool = .thrown .typeError pool) := by
  refine ⟨fun h => ⟨?_, ?_⟩, fun h => ?_⟩
  · simp only [subscribeSideDeleteChannel, hparse, h, hv]
  · simp only [subscribeSidePropertyChannel, hparse, h, hv]
  · simp only [resourceDeleteStaticImage, hparse, h, hv]

/-! ## The loops of the two deletes -/

theorem deleteChannelAt_eq (id : String) (inst : Instance) (gl : List GLuint)
    (h : inst.channelId = id → inst.Live) :
    deleteChannelAt id inst gl =
      .done (if inst.channelId = id then inst.closed else inst,
        if inst.channelId = id then glQuit inst gl else gl) := by
  unfold deleteChannelAt
  by_cases hid : inst.channelId = id
  · rw [if_pos hid, if_pos hid, if_pos hid, closeChannel, closeSlot_of_live (h hid)]
    rfl
  · rw [if_neg hid, if_neg hid, if_neg hid]

theorem not_isDone_deleteChannelAt {id : String} {inst : Instance}
    (hid : inst.channelId = id) (hthread : inst.eventDispatchThread = .none)
    (gl : List GLuint) : ¬ (deleteChannelAt id inst gl).IsDone := by
  rw [deleteChannelAt, if_pos hid, closeChannel, Outcome.isDone_bind_iff]
  rintro ⟨r, hr, -⟩
  obtain ⟨inst', hdone, -⟩ := (Outcome.mapState_eq_done_iff ..).1 hr
  exact not_isDone_closeSlot hthread ⟨inst', hdone⟩

theorem deleteImageAt_eq (path : String) (inst : Instance) (gl : List GLuint) :
    deleteImageAt path inst gl =
      .done (if inst.imagePath = path then inst.freed else inst,
        if inst.imagePath = path then glQuit inst gl else gl) := by
  unfold deleteImageAt
  by_cases hpath : inst.imagePath = path
  · rw [if_pos hpath, if_pos hpath, if_pos hpath]
    rfl
  · rw [if_neg hpath, if_neg hpath, if_neg hpath]

/-- The texture names left in use after `gl_quit` on every slot that `hit` picks. -/
def texturesWithout (pool : Pool) (hit : Instance → Prop) [DecidablePred hit] :
    List GLuint :=
  (List.finRange instanceMax).foldl
    (fun gl i => if hit (pool.slot i) then glQuit (pool.slot i) gl else gl) pool.shared

theorem mem_foldl_glQuit {hit : Instance → Prop} [DecidablePred hit]
    (slot : Fin instanceMax → Instance) (t : GLuint) :
    ∀ (l : List (Fin instanceMax)) (gl : List GLuint),
      t ∈ l.foldl (fun gl i => if hit (slot i) then glQuit (slot i) gl else gl) gl ↔
        t ∈ gl ∧ ∀ i ∈ l, hit (slot i) → t ≠ (slot i).movieTexture
  | [], gl => by simp
  | i :: l, gl => by
      rw [List.foldl_cons, mem_foldl_glQuit slot t l, List.forall_mem_cons]
      by_cases h : hit (slot i)
      · simp [h, glQuit, and_assoc]
      · simp [h]

theorem mem_texturesWithout {hit : Instance → Prop} [DecidablePred hit] {t : GLuint} :
    t ∈ texturesWithout pool hit ↔
      t ∈ pool.shared ∧ ∀ i, hit (pool.slot i) → t ≠ (pool.slot i).movieTexture := by
  simp [texturesWithout, mem_foldl_glQuit]

/-- A channel delete closes every slot that carries the id, if each of them still
has its threads. -/
theorem deleteChannel_done {id : String} (hparse : P.parse ev = some json)
    (hid : json.HasString "channel_id" id)
    (h : ∀ i, (pool.slot i).channelId = id → (pool.slot i).Live) :
    subscribeSideDeleteChannel P.parse ev pool =
      .done ⟨fun i => if (pool.slot i).channelId = id then (pool.slot i).closed
          else pool.slot i,
        texturesWithout pool fun inst => inst.channelId = id⟩ := by
  have hsweep := Family.sweep_visit_done (deleteChannelAt_eq id) (List.finRange instanceMax)
    pool (List.nodup_finRange _) fun i _ => h i
  simp only [List.mem_finRange, if_true] at hsweep
  rw [deleteChannel_of_id hparse hid, hsweep]
  rfl

/-- A channel delete that meets a slot without threads under its id throws. -/
theorem not_isDone_deleteChannel {id : String} (hparse : P.parse ev = some json)
    (hid : json.HasString "channel_id" id) (hsound : ∀ i, (pool.slot i).Sound)
    (h : ∃ i, (pool.slot i).channelId = id ∧ ¬ (pool.slot i).Live) :
    ¬ (subscribeSideDeleteChannel P.parse ev pool).IsDone := by
  rw [deleteChannel_of_id hparse hid]
  refine Family.sweep_visit_not_done
    (fun inst gl hfit => deleteChannelAt_eq id inst gl hfit) (List.finRange instanceMax) pool
    (List.nodup_finRange _) (fun i _ hfit gl => ?_) ?_
  · simp only [not_forall] at hfit
    obtain ⟨hmatch, hlive⟩ := hfit
    exact not_isDone_deleteChannelAt hmatch ((hsound i).not_live_iff.1 hlive) gl
  · obtain ⟨i, hmatch, hlive⟩ := h
    exact ⟨i, List.mem_finRange i, fun hfit => hlive (hfit hmatch)⟩

/-- A channel delete that returns has closed every slot that carries the id. -/
theorem deleteChannel_eq_done_iff {id : String} (hparse : P.parse ev = some json)
    (hid : json.HasString "channel_id" id) (hsound : ∀ i, (pool.slot i).Sound) :
    subscribeSideDeleteChannel P.parse ev pool = .done pool' ↔
      (∀ i, (pool.slot i).channelId = id → (pool.slot i).Live) ∧
        pool' = ⟨fun i => if (pool.slot i).channelId = id then (pool.slot i).closed
          else pool.slot i, texturesWithout pool fun inst => inst.channelId = id⟩ := by
  by_cases hlive : ∀ i, (pool.slot i).channelId = id → (pool.slot i).Live
  · rw [deleteChannel_done hparse hid hlive, Outcome.done.injEq]
    exact ⟨fun h => ⟨hlive, h.symm⟩, fun h => h.2.symm⟩
  · refine ⟨fun h => ?_, fun h => absurd h.1 hlive⟩
    simp only [not_forall] at hlive
    obtain ⟨i, hmatch, hlive⟩ := hlive
    exact absurd ⟨pool', h⟩ (not_isDone_deleteChannel hparse hid hsound ⟨i, hmatch, hlive⟩)

theorem deleteImage_done {path : String} (hparse : P.parse ev = some json)
    (hpath : json.HasString "path" path) :
    resourceDeleteStaticImage P ev pool =
      .done ⟨fun i => if (pool.slot i).imagePath = path then (pool.slot i).freed
          else pool.slot i,
        texturesWithout pool fun inst => inst.imagePath = path⟩ := by
  have hbody : ∀ inst gl, True → deleteImageAt path inst gl =
      .done (if inst.imagePath = path then inst.freed else inst,
        if inst.imagePath = path then glQuit inst gl else gl) :=
    fun inst gl _ => deleteImageAt_eq path inst gl
  have hsweep := Family.sweep_visit_done hbody (List.finRange instanceMax) pool
    (List.nodup_finRange _) fun _ _ => trivial
  simp only [List.mem_finRange, if_true] at hsweep
  rw [deleteImage_of_path hparse hpath, hsweep]
  rfl

end Bres
