import Bres.Pool.StaticImage

/-!
# What a command does to a slot

The bodies that the commands run in a slot are unfolded once here. The scan of the
two adds returns the lowest free slot, and each body that returns leaves an explicit
record: a slot is opened, shown, closed, freed or updated. `Instance.Sound` is what
holds of the record of every slot, and each of these records keeps it.
-/

namespace Bres

open Transition

/-! ## The scan for a free slot -/

namespace Pool

/-- The slot is free. -/
def IsFree (pool : Pool) (i : Fin instanceMax) : Prop :=
  (pool.slot i).instanceEnum = .min

instance (pool : Pool) (i : Fin instanceMax) : Decidable (pool.IsFree i) :=
  inferInstanceAs (Decidable (_ = _))

theorem isFree_of_freeIndex_eq {pool : Pool} {i : Fin instanceMax}
    (h : pool.freeIndex = i) : pool.IsFree i := by
  have hlt : (List.ofFn pool.slot).findIdx (fun inst => inst.instanceEnum = .min) <
      (List.ofFn pool.slot).length := by
    rw [List.length_ofFn]
    exact lt_of_eq_of_lt h i.isLt
  have hfree := List.findIdx_getElem (w := hlt)
  have hi : (List.ofFn pool.slot).findIdx (fun inst => inst.instanceEnum = .min) = i := h
  simp only [hi, List.getElem_ofFn, decide_eq_true_eq] at hfree
  exact hfree

end Pool

/-! ## Closing a slot -/

namespace Instance

/-- The threads, the context and the WebRTC objects of a channel are in place. -/
structure Live (inst : Instance) : Prop where
  eventDispatchThread : inst.eventDispatchThread = .joinable
  websocketsThread : inst.websocketsThread = .joinable
  context : inst.context = .live
  rtc : inst.rtc.IsUp

/-- The record that a delete leaves of a live channel. -/
def closed (inst : Instance) : Instance :=
  { inst with
    quit := true
    isDraw := 0
    instanceEnum := .min
    eventDispatchThread := .none
    websocketsThread := .none
    context := .dangling
    websocket := if inst.websocket = .live then .dangling else inst.websocket
    rtc := inst.rtc.afterQuit }

/-- The record that `resourceDeleteStaticImage` leaves of a matching slot. -/
def freed (inst : Instance) : Instance :=
  { inst with quit := true, isDraw := 0, instanceEnum := .min }

end Instance

/-- The shape of every slot of a pool that the commands have worked on. -/
structure Instance.Sound (inst : Instance) : Prop where
  live_of_joinable : inst.eventDispatchThread = .joinable → inst.Live
  joinable_of_channel :
    inst.instanceEnum = .instance00 → inst.eventDispatchThread = .joinable
  joinable_of_rtc :
    inst.rtc.peerConnectionFactory = .live → inst.eventDispatchThread = .joinable
  websocketsThread_eq : inst.websocketsThread = inst.eventDispatchThread
  order_eq : inst.order = .subscribe

theorem Instance.Sound.live_of_channel {inst : Instance} (h : inst.Sound)
    (henum : inst.instanceEnum = .instance00) : inst.Live :=
  h.live_of_joinable (h.joinable_of_channel henum)

theorem Instance.Sound.not_live_iff {inst : Instance} (h : inst.Sound) :
    ¬ inst.Live ↔ inst.eventDispatchThread = .none := by
  constructor
  · intro hlive
    cases hthread : inst.eventDispatchThread with
    | none => rfl
    | joinable => exact absurd (h.live_of_joinable hthread) hlive
  · intro hthread hlive
    rw [hlive.eventDispatchThread] at hthread
    cases hthread

theorem closeSlot_of_live {inst : Instance} (h : inst.Live) :
    closeSlot inst = .done inst.closed := by
  obtain ⟨hdispatch, hwebsockets, hcontext, hrtc⟩ := h
  simp only [closeSlot, joinThreads, hdispatch, hwebsockets, Outcome.done_bind,
    websocketsQuit, hcontext]
  refine webrtcQuit_of_isUp ?_
  exact hrtc

/-- Joining a thread that is not there throws. -/
theorem not_isDone_closeSlot {inst : Instance}
    (h : inst.eventDispatchThread = .none) : ¬ (closeSlot inst).IsDone := by
  simp [closeSlot, joinThreads, h]

/-! ## Opening a slot -/

/-- What a channel add reads without owning it does not end the program: the picture that
`init_image` points to, and the text of `signaling_server`. -/
structure Answers.Survives (env : Answers) (inst : Instance) : Prop where
  readFault_eq : env.readFault (texBytes inst.width inst.height) inst.initImage = none
  server_eq : env.faults .signalingServer = false

theorem glGenerateTexture_eq_done_iff {env : Answers} {inst : Instance} {gl : List GLuint}
    {r : Instance × List GLuint} :
    glGenerateTexture env inst gl = .done r ↔
      env.readFault (texBytes inst.width inst.height) inst.initImage = none ∧
        r = ({ inst with movieTexture := env.texture, texImage := some inst.texSource },
          env.texture :: gl) := by
  cases hfault : env.readFault (texBytes inst.width inst.height) inst.initImage with
  | some e => simp [glGenerateTexture, hfault]
  | none =>
      simp only [glGenerateTexture, hfault, Outcome.done.injEq, true_and]
      exact eq_comm

/-- The record of a channel slot just before its texture is made. -/
def enteredChannel (channelId channelToken channelMultipleStream : String)
    (inst : Instance) : Instance :=
  eventInit (webrtcInit (websocketsInit (((claimChannelSlot inst).setChannelId
    channelId |>.setChannelToken channelToken).setChannelMultipleStream
      channelMultipleStream)))

/-- The record of a channel slot just before its threads are started. -/
def preparedChannel (channelId channelToken channelMultipleStream : String)
    (env : Answers) (inst : Instance) : Instance :=
  { enteredChannel channelId channelToken channelMultipleStream inst with
    movieTexture := env.texture
    texImage := some inst.texSource
    websocket := env.connection }

/-- The record of a channel slot that `subscribeSideAddChannel` has set up. -/
def openedChannel (channelId channelToken channelMultipleStream : String)
    (env : Answers) (inst : Instance) : Instance :=
  { preparedChannel channelId channelToken channelMultipleStream env inst with
    eventDispatchThread := .joinable
    websocketsThread := .joinable }

@[simp] theorem openedChannel_imageHeap (id token multi : String) (env : Answers)
    (inst : Instance) : (openedChannel id token multi env inst).imageHeap =
      inst.imageHeap ++ List.replicate 30 Picture.zero := rfl

@[simp] theorem openedChannel_instanceEnum (id token multi : String) (env : Answers)
    (inst : Instance) :
    (openedChannel id token multi env inst).instanceEnum = .instance00 := rfl

@[simp] theorem openedChannel_width (id token multi : String) (env : Answers)
    (inst : Instance) :
    (openedChannel id token multi env inst).width = inst.width := rfl

@[simp] theorem openedChannel_height (id token multi : String) (env : Answers)
    (inst : Instance) :
    (openedChannel id token multi env inst).height = inst.height := rfl

@[simp] theorem openedChannel_lastTextureBuffer (id token multi : String)
    (env : Answers) (inst : Instance) :
    (openedChannel id token multi env inst).lastTextureBuffer =
      inst.lastTextureBuffer := rfl

theorem prepareChannel_of_strings {env : Answers} {inst : Instance} (h : env.Survives inst)
    (channelId channelToken channelMultipleStream signalingServer : String)
    (gl : List GLuint) :
    prepareChannel (.string channelId) (.string channelToken)
        (.string channelMultipleStream) (.string signalingServer) env inst gl =
      .done (preparedChannel channelId channelToken channelMultipleStream env inst,
        env.texture :: gl) := by
  have htexture : glGenerateTexture env
      (enteredChannel channelId channelToken channelMultipleStream inst) gl =
        .done ({ enteredChannel channelId channelToken channelMultipleStream inst with
          movieTexture := env.texture, texImage := some inst.texSource }, env.texture :: gl) :=
    glGenerateTexture_eq_done_iff.2 ⟨h.readFault_eq, rfl⟩
  have hprepare : prepareChannel (.string channelId) (.string channelToken)
      (.string channelMultipleStream) (.string signalingServer) env inst gl =
        (glGenerateTexture env
          (enteredChannel channelId channelToken channelMultipleStream inst) gl).bind
            (connectChannel (.string signalingServer) env) := rfl
  rw [hprepare, htexture, Outcome.done_bind, connectChannel, h.server_eq]
  rfl

theorem startThreads_eq_done_iff {inst inst' : Instance} :
    startThreads inst = .done inst' ↔
      inst.eventDispatchThread = .none ∧ inst.websocketsThread = .none ∧
        inst' = { inst with
          eventDispatchThread := .joinable, websocketsThread := .joinable } := by
  cases hdispatch : inst.eventDispatchThread with
  | joinable => simp [startThreads, hdispatch]
  | none =>
      cases hwebsockets : inst.websocketsThread with
      | joinable => simp [startThreads, hdispatch, hwebsockets]
      | none => simp [startThreads, hdispatch, hwebsockets, eq_comm]

theorem storeString_eq_done_iff {v : Json} {write : String → Instance → Instance}
    {inst inst' : Instance} :
    storeString v write inst = .done inst' ↔
      ∃ text, v = .string text ∧ write text inst = inst' := by
  cases v <;> simp [storeString, Json.getString]

/-- An add that comes to its threads has read four strings and has come through its reads. -/
theorem prepareChannel_eq_done_iff
    {channelId channelToken channelMultipleStream signalingServer : Json}
    {env : Answers} {inst : Instance} {gl : List GLuint} {r : Instance × List GLuint} :
    prepareChannel channelId channelToken channelMultipleStream signalingServer env inst gl =
        .done r ↔
      ∃ id token multi server, channelId = .string id ∧ channelToken = .string token ∧
        channelMultipleStream = .string multi ∧ signalingServer = .string server ∧
        env.Survives inst ∧ r = (preparedChannel id token multi env inst, env.texture :: gl) := by
  constructor
  · intro h
    obtain ⟨_, hread, h⟩ := (Outcome.bind_eq_done_iff ..).1 h
    obtain ⟨_, hstores, rfl⟩ := (Outcome.mapState_eq_done_iff ..).1 hread
    obtain ⟨_, hstore, hmulti⟩ := (Outcome.bind_eq_done_iff ..).1 hstores
    obtain ⟨_, hid, htoken⟩ := (Outcome.bind_eq_done_iff ..).1 hstore
    obtain ⟨id, rfl, rfl⟩ := storeString_eq_done_iff.1 hid
    obtain ⟨token, rfl, rfl⟩ := storeString_eq_done_iff.1 htoken
    obtain ⟨multi, rfl, rfl⟩ := storeString_eq_done_iff.1 hmulti
    obtain ⟨_, htexture, h⟩ := (Outcome.bind_eq_done_iff ..).1 h
    obtain ⟨hfault, rfl⟩ := glGenerateTexture_eq_done_iff.1 htexture
    cases signalingServer with
    | string server =>
        obtain ⟨hserver, h⟩ := Outcome.ite_thrown_eq_done_iff.1 h
        cases h
        exact ⟨id, token, multi, server, rfl, rfl, rfl, rfl,
          ⟨hfault, Bool.eq_false_iff.2 hserver⟩, rfl⟩
    | _ => cases h
  · rintro ⟨id, token, multi, server, rfl, rfl, rfl, rfl, hsurvives, rfl⟩
    exact prepareChannel_of_strings hsurvives id token multi server gl

/-- An add that returns has also found no thread in the slot. -/
theorem openChannel_eq_done_iff
    {channelId channelToken channelMultipleStream signalingServer : Json}
    {env : Answers} {inst : Instance} {gl : List GLuint} {r : Instance × List GLuint} :
    openChannel channelId channelToken channelMultipleStream signalingServer env inst gl =
        .done r ↔
      ∃ id token multi server, channelId = .string id ∧ channelToken = .string token ∧
        channelMultipleStream = .string multi ∧ signalingServer = .string server ∧
        env.Survives inst ∧ inst.eventDispatchThread = .none ∧ inst.websocketsThread = .none ∧
        r = (openedChannel id token multi env inst, env.texture :: gl) := by
  constructor
  · intro h
    obtain ⟨_, hprepare, h⟩ := (Outcome.bind_eq_done_iff ..).1 h
    obtain ⟨id, token, multi, server, rfl, rfl, rfl, rfl, hsurvives, rfl⟩ :=
      prepareChannel_eq_done_iff.1 hprepare
    obtain ⟨inst', hstart, rfl⟩ := (Outcome.mapState_eq_done_iff ..).1 h
    obtain ⟨hdispatch, hwebsockets, rfl⟩ := startThreads_eq_done_iff.1 hstart
    exact ⟨id, token, multi, server, rfl, rfl, rfl, rfl, hsurvives, hdispatch, hwebsockets, rfl⟩
  · rintro ⟨id, token, multi, server, rfl, rfl, rfl, rfl, hsurvives, hdispatch, hwebsockets, rfl⟩
    have hstart : startThreads (preparedChannel id token multi env inst) =
        .done (openedChannel id token multi env inst) :=
      startThreads_eq_done_iff.2 ⟨hdispatch, hwebsockets, rfl⟩
    rw [openChannel, prepareChannel_of_strings hsurvives, Outcome.done_bind]
    simp only [hstart, Outcome.mapState_done]

/-! ## Showing an image -/

/-- The reads of an image add stay inside the picture, or do not end the program. -/
structure Answers.Copies (P : Platform) (env : Answers) (image : Image) : Prop where
  copied : ¬ env.Overreads image (P.byteCount image.w image.h)
  uploaded : ¬ env.Overreads image (texBytes image.w image.h)

/-- The record of an image slot that `resourceAddStaticImage` has set up. -/
def shownImage (P : Platform) (path : String) (posX posY : FloatValue) (image : Image)
    (env : Answers) (inst : Instance) : Instance :=
  { inst with
    instanceEnum := .instanceLocal00
    quit := false
    isDraw := 1
    posX := posX
    posY := posY
    width := image.w
    height := image.h
    initImage := .dangling image.address
    imagePath := path
    scale := 1
    order := .subscribe
    lastTextureBuffer := image.read (P.byteCount image.w image.h)
    movieTexture := env.texture
    texImage := some
      { width := texSize image.w
        height := texSize image.h
        bytes := some (image.read (texBytes image.w image.h)) } }

theorem storeFloat_eq_done_iff {s : String} {write : FloatValue → Instance → Instance}
    {inst inst' : Instance} :
    storeFloat s write inst = .done inst' ↔ ∃ v, stof s = .ok v ∧ write v inst = inst' := by
  unfold storeFloat
  cases h : stof s with
  | error e => cases e <;> simp
  | ok v => simp

theorem showImage_eq_done_iff {P : Platform} {path posX posY : String} {image : Image}
    {env : Answers} {inst : Instance} {gl : List GLuint} {r : Instance × List GLuint} :
    showImage P path posX posY image env inst gl = .done r ↔
      ∃ x y, stof posX = .ok x ∧ stof posY = .ok y ∧ env.Copies P image ∧
        r = (shownImage P path x y image env inst, env.texture :: gl) := by
  have hread : ∀ {n : ℕ}, env.readFault n (.live image) = none ↔ ¬ env.Overreads image n := by
    simp [Answers.readFault]
  constructor
  · intro h
    obtain ⟨_, hconvert, h⟩ := (Outcome.bind_eq_done_iff ..).1 h
    obtain ⟨_, hstores, rfl⟩ := (Outcome.mapState_eq_done_iff ..).1 hconvert
    obtain ⟨_, hx, hy⟩ := (Outcome.bind_eq_done_iff ..).1 hstores
    obtain ⟨x, hposX, rfl⟩ := storeFloat_eq_done_iff.1 hx
    obtain ⟨y, hposY, rfl⟩ := storeFloat_eq_done_iff.1 hy
    obtain ⟨hcopied, h⟩ := Outcome.ite_thrown_eq_done_iff.1 h
    obtain ⟨_, htexture, h⟩ := (Outcome.bind_eq_done_iff ..).1 h
    obtain ⟨huploaded, rfl⟩ := glGenerateTexture_eq_done_iff.1 htexture
    cases h
    exact ⟨x, y, hposX, hposY, ⟨hcopied, hread.1 huploaded⟩, rfl⟩
  · rintro ⟨x, y, hposX, hposY, ⟨hcopied, huploaded⟩, rfl⟩
    have hx : storeFloat posX Instance.setPosX (claimImageSlot inst) =
        .done ((claimImageSlot inst).setPosX x) :=
      storeFloat_eq_done_iff.2 ⟨x, hposX, rfl⟩
    have hy : storeFloat posY Instance.setPosY ((claimImageSlot inst).setPosX x) =
        .done (((claimImageSlot inst).setPosX x).setPosY y) :=
      storeFloat_eq_done_iff.2 ⟨y, hposY, rfl⟩
    rw [showImage, hx, Outcome.done_bind, hy]
    simp only [Outcome.mapState_done, Outcome.done_bind, if_neg hcopied]
    exact (Outcome.bind_eq_done_iff ..).2
      ⟨_, glGenerateTexture_eq_done_iff.2 ⟨hread.2 huploaded, rfl⟩, rfl⟩

/-! ## Setting attributes -/

/-- The slot with the attributes of a property command whose keys are present. -/
def Instance.withAttributes (inst : Instance) (json : Json) : Instance :=
  { inst with
    isDraw := ((json.text "is_draw").map atoi).getD inst.isDraw
    posX := ((json.text "pos_x").map atof).getD inst.posX
    posY := ((json.text "pos_y").map atof).getD inst.posY
    scale := ((json.text "scale").map atof).getD inst.scale
    chromakey := ((json.text "chromakey").map atof).getD inst.chromakey }

/-- The keys that a property command may carry. -/
def attributeKeys : List String := ["is_draw", "pos_x", "pos_y", "scale", "chromakey"]

/-- An attribute that is not named keeps its value, so a store is always a store
of some value: the converted text or the one that is there. -/
theorem storeIfPresent_eq_done_iff {α : Type*} {get : Instance → α}
    {set : α → Instance → Instance} (hset : ∀ inst, set (get inst) inst = inst)
    {convert : String → α} {json : Json} {key : String} {inst inst' : Instance} :
    storeIfPresent json key (fun s => set (convert s)) inst = .done inst' ↔
      json.StringOrAbsent key ∧
        inst' = set (((json.text key).map convert).getD (get inst)) inst := by
  unfold storeIfPresent Json.StringOrAbsent Json.text
  cases json.find key with
  | none => simp [hset, eq_comm]
  | some v => cases v <;> simp [storeString, Json.getString, eq_comm]

theorem setAttributes_eq_done_iff {json : Json} {inst inst' : Instance} :
    setAttributes json inst = .done inst' ↔
      (∀ key ∈ attributeKeys, json.StringOrAbsent key) ∧ inst' = inst.withAttributes json := by
  have hdraw := @storeIfPresent_eq_done_iff _ Instance.isDraw Instance.setIsDraw
    (fun _ => rfl) atoi json "is_draw"
  have hposX := @storeIfPresent_eq_done_iff _ Instance.posX Instance.setPosX
    (fun _ => rfl) atof json "pos_x"
  have hposY := @storeIfPresent_eq_done_iff _ Instance.posY Instance.setPosY
    (fun _ => rfl) atof json "pos_y"
  have hscale := @storeIfPresent_eq_done_iff _ Instance.scale Instance.setScale
    (fun _ => rfl) atof json "scale"
  have hchromakey := @storeIfPresent_eq_done_iff _ Instance.chromakey Instance.setChromakey
    (fun _ => rfl) atof json "chromakey"
  simp only [setAttributes, Outcome.bind_eq_done_iff, hdraw, hposX, hposY, hscale,
    hchromakey, attributeKeys, List.forall_mem_cons, List.not_mem_nil, false_implies,
    implies_true, and_true]
  constructor
  · rintro ⟨_, ⟨_, ⟨_, ⟨_, ⟨h₁, rfl⟩, h₂, rfl⟩, h₃, rfl⟩, h₄, rfl⟩, h₅, rfl⟩
    refine ⟨⟨h₁, h₂, h₃, h₄, h₅⟩, ?_⟩
    simp only [Instance.withAttributes, Instance.setIsDraw, Instance.setPosX,
      Instance.setPosY, Instance.setScale, Instance.setChromakey]
  · rintro ⟨⟨h₁, h₂, h₃, h₄, h₅⟩, rfl⟩
    refine ⟨_, ⟨_, ⟨_, ⟨_, ⟨h₁, rfl⟩, h₂, rfl⟩, h₃, rfl⟩, h₄, rfl⟩, h₅, ?_⟩
    simp only [Instance.withAttributes, Instance.setIsDraw, Instance.setPosX,
      Instance.setPosY, Instance.setScale, Instance.setChromakey]

end Bres
