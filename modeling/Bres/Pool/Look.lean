import Bres.Pool.World

/-!
# What an add takes over from the slot

`Look` is what the composition reads of a slot. Each add sets a part of it and
leaves the rest as the last occupant had it: `ChannelResidue` is the rest of
`subscribeSideAddChannel`, and `ImageResidue` the rest of `resourceAddStaticImage`.
Two adds of one command look the same if and only if the rests agree, and for an image
the addresses of the picture, which `init_image` keeps.
-/

namespace Bres

open Transition

/-- The attributes of a slot that matter to the composition. -/
structure Look where
  isDraw : UInt32
  posX : FloatValue
  posY : FloatValue
  width : ℕ
  height : ℕ
  scale : FloatValue
  chromakey : FloatValue
  initImage : Option ℕ
  imagePath : String
  order : InstanceOrder
  bufferSize : ℕ
  channelId : String
  channelToken : String
  channelMultipleStream : String

/-- What `subscribeSideAddChannel` leaves of the attributes. -/
structure ChannelResidue where
  width : ℕ
  height : ℕ
  chromakey : FloatValue
  initImage : Option ℕ
  imagePath : String
  bufferSize : ℕ

/-- What `resourceAddStaticImage` leaves of the attributes. -/
structure ImageResidue where
  chromakey : FloatValue
  channelId : String
  channelToken : String
  channelMultipleStream : String

namespace Instance

def look (inst : Instance) : Look where
  isDraw := inst.isDraw
  posX := inst.posX
  posY := inst.posY
  width := inst.width
  height := inst.height
  scale := inst.scale
  chromakey := inst.chromakey
  initImage := inst.initImage.address
  imagePath := inst.imagePath
  order := inst.order
  bufferSize := inst.lastTextureBuffer.length
  channelId := inst.channelId
  channelToken := inst.channelToken
  channelMultipleStream := inst.channelMultipleStream

def channelResidue (inst : Instance) : ChannelResidue where
  width := inst.width
  height := inst.height
  chromakey := inst.chromakey
  initImage := inst.initImage.address
  imagePath := inst.imagePath
  bufferSize := inst.lastTextureBuffer.length

def imageResidue (inst : Instance) : ImageResidue where
  chromakey := inst.chromakey
  channelId := inst.channelId
  channelToken := inst.channelToken
  channelMultipleStream := inst.channelMultipleStream

end Instance

/-- The pixels of two pictures are the same, wherever they are. -/
structure Image.SamePicture (image image' : Image) : Prop where
  w_eq : image.w = image'.w
  h_eq : image.h = image'.h
  f_eq : image.f = image'.f
  data_eq : image.data = image'.data

/-! ## Looks that last

The look of a slot is the same in every ending of a step, also where it ends the program. -/

theorem startThreads_look (inst : Instance) : (startThreads inst).state.look = inst.look := by
  unfold startThreads
  split
  · rfl
  · dsimp only
    split <;> rfl

theorem glGenerateTexture_look (env : Answers) (inst : Instance) (gl : List GLuint) :
    (glGenerateTexture env inst gl).state.1.look = inst.look := by
  cases hfault : env.readFault (texBytes inst.width inst.height) inst.initImage with
  | some e =>
      simp only [glGenerateTexture, hfault]
      rfl
  | none =>
      simp only [glGenerateTexture, hfault]
      rfl

theorem connectChannel_look (server : String) (env : Answers) (r : Instance × List GLuint) :
    (connectChannel (.string server) env r).state.1.look = r.1.look := by
  cases hserver : env.faults .signalingServer with
  | true =>
      simp only [connectChannel, Json.getString, hserver, if_true]
      rfl
  | false =>
      simp only [connectChannel, Json.getString, hserver, Bool.false_eq_true, if_false]
      rfl

theorem openChannel_look (id token multi server : String) (env : Answers) (inst : Instance)
    (gl : List GLuint) :
    (openChannel (.string id) (.string token) (.string multi) (.string server) env inst
      gl).state.1.look = (enteredChannel id token multi inst).look := by
  have hprepare : prepareChannel (.string id) (.string token) (.string multi) (.string server)
      env inst gl = (glGenerateTexture env (enteredChannel id token multi inst) gl).bind
        (connectChannel (.string server) env) := rfl
  let read : Instance × List GLuint → Look := fun r => r.1.look
  calc read (openChannel (.string id) (.string token) (.string multi) (.string server) env inst
          gl).state
      = read (prepareChannel (.string id) (.string token) (.string multi) (.string server) env
          inst gl).state := Outcome.state_bind_eq read (fun r => by
            rw [Outcome.state_mapState]
            exact startThreads_look r.1) _
    _ = read (glGenerateTexture env (enteredChannel id token multi inst) gl).state := by
        rw [hprepare]
        exact Outcome.state_bind_eq read (connectChannel_look server env) _
    _ = (enteredChannel id token multi inst).look := glGenerateTexture_look ..

theorem showImage_look {P : Platform} {path posX posY : String} {x y : FloatValue}
    {image : Image} (hx : stof posX = .ok x) (hy : stof posY = .ok y) (env : Answers)
    (inst : Instance) (gl : List GLuint) :
    (showImage P path posX posY image env inst gl).state.1.look =
      (shownImage P path x y image env inst).look := by
  have hstored : (storeFloat posX Instance.setPosX (claimImageSlot inst)).bind
      (storeFloat posY Instance.setPosY) =
        .done (((claimImageSlot inst).setPosX x).setPosY y) :=
    (Outcome.bind_eq_done_iff ..).2 ⟨_, storeFloat_eq_done_iff.2 ⟨x, hx, rfl⟩,
      storeFloat_eq_done_iff.2 ⟨y, hy, rfl⟩⟩
  rw [showImage, hstored]
  simp only [Outcome.mapState_done, Outcome.done_bind]
  by_cases hcopied : env.Overreads image (P.byteCount image.w image.h)
  · rw [if_pos hcopied]
    simp only [Outcome.state_thrown, Instance.look, shownImage, Image.length_read,
      List.length_replicate]
    rfl
  · rw [if_neg hcopied]
    cases hfault : env.readFault (texBytes image.w image.h) (.live image) with
    | some e =>
        simp only [glGenerateTexture, Instance.setPosX, Instance.setPosY, hfault]
        rfl
    | none =>
        simp only [glGenerateTexture, Instance.setPosX, Instance.setPosY, hfault]
        rfl

/-! ## The looks of the two adds -/

variable {P : Platform} {ev : Bytes} {json : Json} {pool : Pool} {i : Fin instanceMax}

/-- The look that a channel add gives to its slot. -/
theorem addChannel_look {id token multi server : String} (hparse : P.parse ev = some json)
    (hid : json.HasString "channel_id" id) (htoken : json.HasString "channel_token" token)
    (hmulti : json.HasString "channel_multiple_stream" multi)
    (hserver : json.HasString "signaling_server" server) (hindex : pool.freeIndex = i)
    (env : Answers) :
    ((subscribeSideAddChannel P.parse ev env pool).state.slot i).look =
      { isDraw := 0
        posX := 0
        posY := 0
        width := (pool.slot i).width
        height := (pool.slot i).height
        scale := 1
        chromakey := (pool.slot i).chromakey
        initImage := (pool.slot i).initImage.address
        imagePath := (pool.slot i).imagePath
        order := (pool.slot i).order
        bufferSize := (pool.slot i).lastTextureBuffer.length
        channelId := id
        channelToken := token
        channelMultipleStream := multi } := by
  rw [addChannel_of_present hparse hid htoken hmulti hserver hindex, Family.visit_state_self,
    openChannel_look]
  rfl

/-- The look that an image add gives to its slot. -/
theorem addImage_look {path posX posY : String} {x y : FloatValue} {image : Image}
    (hparse : P.parse ev = some json) (hpath : json.HasString "path" path)
    (hposX : json.HasString "pos_x" posX) (hposY : json.HasString "pos_y" posY)
    (hx : stof posX = .ok x) (hy : stof posY = .ok y) (hindex : pool.freeIndex = i)
    {env : Answers} (hload : env.stbiLoad path = some image) :
    ((resourceAddStaticImage P ev env pool).state.slot i).look =
      { isDraw := 1
        posX := x
        posY := y
        width := image.w
        height := image.h
        scale := 1
        chromakey := (pool.slot i).chromakey
        initImage := some image.address
        imagePath := path
        order := .subscribe
        bufferSize := P.byteCount image.w image.h
        channelId := (pool.slot i).channelId
        channelToken := (pool.slot i).channelToken
        channelMultipleStream := (pool.slot i).channelMultipleStream } := by
  rw [addImage_of_present hparse hpath hposX hposY hindex, hload]
  simp only [Family.visit_state_self, showImage_look hx hy]
  simp only [Instance.look, shownImage, Image.length_read, InitImage.address]

/-- Two adds of one command into the same slot look the same if and only if the two
slots agree on what the add does not set and, for an image, the picture has been loaded
to the same address. -/
theorem add_look_eq_iff {w₁ w₂ : World} (hw₁ : w₁.Reachable P) (hw₂ : w₂.Reachable P)
    (hindex₁ : w₁.pool.freeIndex = i) (hindex₂ : w₂.pool.freeIndex = i)
    (hparse : P.parse ev = some json) (env₁ env₂ : Answers) :
    (∀ id token multi server, json.HasString "channel_id" id →
      json.HasString "channel_token" token →
      json.HasString "channel_multiple_stream" multi →
      json.HasString "signaling_server" server →
        (((subscribeSideAddChannel P.parse ev env₁ w₁.pool).state.slot i).look =
            ((subscribeSideAddChannel P.parse ev env₂ w₂.pool).state.slot i).look ↔
          (w₁.pool.slot i).channelResidue = (w₂.pool.slot i).channelResidue)) ∧
    (∀ path posX posY x y image₁ image₂, json.HasString "path" path →
      json.HasString "pos_x" posX → json.HasString "pos_y" posY →
      stof posX = .ok x → stof posY = .ok y → env₁.stbiLoad path = some image₁ →
      env₂.stbiLoad path = some image₂ → image₁.SamePicture image₂ →
        (((resourceAddStaticImage P ev env₁ w₁.pool).state.slot i).look =
            ((resourceAddStaticImage P ev env₂ w₂.pool).state.slot i).look ↔
          (w₁.pool.slot i).imageResidue = (w₂.pool.slot i).imageResidue ∧
            image₁.address = image₂.address)) := by
  constructor
  · intro id token multi server hid htoken hmulti hserver
    have horder : (w₁.pool.slot i).order = (w₂.pool.slot i).order :=
      (hw₁.sound i).inst.order_eq.trans (hw₂.sound i).inst.order_eq.symm
    rw [addChannel_look hparse hid htoken hmulti hserver hindex₁,
      addChannel_look hparse hid htoken hmulti hserver hindex₂]
    simp only [Instance.channelResidue, Look.mk.injEq, ChannelResidue.mk.injEq, horder,
      true_and, and_true]
  · intro path posX posY x y image₁ image₂ hpath hposX hposY hx hy hload₁ hload₂ hsame
    rw [addImage_look hparse hpath hposX hposY hx hy hindex₁ hload₁,
      addImage_look hparse hpath hposX hposY hx hy hindex₂ hload₂]
    simp only [Instance.imageResidue, Look.mk.injEq, ImageResidue.mk.injEq, true_and,
      hsame.w_eq, hsame.h_eq, Option.some.injEq]
    constructor
    · rintro ⟨hchromakey, haddress, hid, htoken, hmulti⟩
      exact ⟨⟨hchromakey, hid, htoken, hmulti⟩, haddress⟩
    · rintro ⟨⟨hchromakey, hid, htoken, hmulti⟩, haddress⟩
      exact ⟨hchromakey, haddress, hid, htoken, hmulti⟩

/-- The equivalences at the start of the program and behind an image that has been
deleted. -/
theorem add_look_eq_iff_startup :
    ∃ w, run (World.step Sample.platform) World.startup
        [Sample.command 1 .resourceAddStaticImage Sample.addImage,
          Sample.command 2 .resourceDeleteStaticImage Sample.deleteImage] = some w ∧
      (((subscribeSideAddChannel Sample.platform.parse (flatText Sample.addChannel)
            (Sample.answers 3) World.startup.pool).state.slot 0).look =
          ((subscribeSideAddChannel Sample.platform.parse (flatText Sample.addChannel)
            (Sample.answers 3) w.pool).state.slot 0).look ↔
        (World.startup.pool.slot 0).channelResidue = (w.pool.slot 0).channelResidue) ∧
      (((resourceAddStaticImage Sample.platform (flatText Sample.addImage) (Sample.answers 3)
            World.startup.pool).state.slot 0).look =
          ((resourceAddStaticImage Sample.platform (flatText Sample.addImage)
            (Sample.answers 3) w.pool).state.slot 0).look ↔
        (World.startup.pool.slot 0).imageResidue = (w.pool.slot 0).imageResidue ∧
          Sample.image.address = Sample.image.address) := by
  have hobserved : (run (World.step Sample.platform) World.startup
        [Sample.command 1 .resourceAddStaticImage Sample.addImage,
          Sample.command 2 .resourceDeleteStaticImage Sample.deleteImage]).map
      (fun w => w.pool.freeIndex) = some 0 := by
    decide +kernel
  obtain ⟨w, hw, hindex⟩ := Option.map_eq_some_iff.1 hobserved
  have hsame : Sample.image.SamePicture Sample.image := ⟨rfl, rfl, rfl, rfl⟩
  exact ⟨w, hw,
    (add_look_eq_iff (.refl _) ⟨_, hw⟩ Sample.startup_freeIndex hindex Sample.parse_addChannel
      _ _).1 "sora" "token" "on" "localhost" rfl rfl rfl rfl,
    (add_look_eq_iff (.refl _) ⟨_, hw⟩ Sample.startup_freeIndex hindex Sample.parse_addImage
      _ _).2 "logo.png" "0" "0" 0 0 Sample.image Sample.image rfl rfl rfl Sample.stof_zero
        Sample.stof_zero rfl rfl hsame⟩

/-- A channel in a new slot is 640 pixels wide, and in the slot of a deleted image as
wide as the image. -/
theorem not_look_eq_after_image :
    ∃ w, run (World.step Sample.platform) World.startup
        [Sample.command 1 .resourceAddStaticImage Sample.addImage,
          Sample.command 2 .resourceDeleteStaticImage Sample.deleteImage] = some w ∧
      w.pool.freeIndex = (0 : Fin instanceMax) ∧
      ((subscribeSideAddChannel Sample.platform.parse (flatText Sample.addChannel)
          (Sample.answers 3) w.pool).state.slot 0).look ≠
        ((subscribeSideAddChannel Sample.platform.parse (flatText Sample.addChannel)
          (Sample.answers 3) World.startup.pool).state.slot 0).look := by
  have hobserved : (run (World.step Sample.platform) World.startup
        [Sample.command 1 .resourceAddStaticImage Sample.addImage,
          Sample.command 2 .resourceDeleteStaticImage Sample.deleteImage]).map
      (fun w => (w.pool.freeIndex,
        ((subscribeSideAddChannel Sample.platform.parse (flatText Sample.addChannel)
          (Sample.answers 3) w.pool).state.slot 0).look.width)) = some (0, 2) := by
    decide +kernel
  have hstartup : ((subscribeSideAddChannel Sample.platform.parse
      (flatText Sample.addChannel) (Sample.answers 3)
        World.startup.pool).state.slot 0).look.width = 640 := by
    decide +kernel
  obtain ⟨w, hw, hpair⟩ := Option.map_eq_some_iff.1 hobserved
  obtain ⟨hindex, hwidth⟩ := Prod.mk.inj hpair
  refine ⟨w, hw, hindex, fun hlook => ?_⟩
  rw [hlook, hstartup] at hwidth
  cases hwidth

end Bres
