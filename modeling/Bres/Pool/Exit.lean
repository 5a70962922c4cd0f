import Bres.Pool.World

/-!
# The end of the program

`src/publish_side_channel.cc`, and what `main` does behind its loop: it takes down the
publish instance, ends the graphics, raises all the quit flags and tears down every
slot that is not free; at its return the threads of the slots are destroyed. The
publish instance is set up before the loop in the build without
`__BLACKMAGIC_OUTPUT__` only, but it is taken down in both.

Every step that is not legal ends the program here, but for `websockets_quit` without
a context, which does nothing. So `ExitsLegally` asks for a normal return and for
slots that are fit to be torn down. The threads of a slot are never joined at the end
and an image has no connection, so the exit is legal if and only if all slots are
free and without threads, in the build that has set up its publish instance.
-/

namespace Bres

open Transition

/-! ## The publish instance -/

/-- `publishSideAddChannel`, with the channel id and the token of the environment. -/
def publishSideAddChannel (channelId channelToken : String) (env : Answers)
    (inst : Instance) (gl : List GLuint) : Outcome Exn (Instance × List GLuint) :=
  let inst :=
    { inst with
      instanceEnum := .instance00
      quit := false
      isDraw := 1
      posX := 0
      posY := 0
      scale := 1
      channelId := channelId
      channelToken := channelToken
      channelMultipleStream := ""
      order := .publish
      capture := .live
      audioRender := .live }
  let inst := eventInit (webrtcInit (websocketsInit inst))
  (glGenerateTexture env inst gl).bind fun (inst, gl) =>
    (startThreads { inst with websocket := env.connection }).mapState (·, gl)

/-- A `delete` of an object that is there, with `NULL` stored behind it. -/
def deleteIfSet (object : Handle) (inst cleared : Instance) : Outcome Exn Instance :=
  match object with
  | .null => .done inst
  | .live => .done cleared
  | .dangling => .thrown .useAfterFree inst

def deleteCapture (inst : Instance) : Outcome Exn Instance :=
  deleteIfSet inst.capture inst { inst with capture := .null }

def deleteAudioRender (inst : Instance) : Outcome Exn Instance :=
  deleteIfSet inst.audioRender inst { inst with audioRender := .null }

/-- `publishSideDeleteChannel`; it begins as the delete of a channel does. -/
def publishSideDeleteChannel (inst : Instance) (gl : List GLuint) :
    Outcome Exn (Instance × List GLuint) :=
  (closeChannel inst gl).bind fun (inst, gl) =>
    ((deleteCapture inst).bind deleteAudioRender).mapState (·, gl)

/-! ## The exit of `main` -/

/-- The body of the last loop of `main`. -/
def quitSlot (inst : Instance) (gl : List GLuint) : Outcome Exn (Instance × List GLuint) :=
  if inst.instanceEnum ≠ .min then
    (((websocketsQuit inst).bind webrtcQuit).mapState (·, gl)).bind fun (inst, gl) =>
      .done (inst, glQuit inst gl)
  else .done (inst, gl)

/-- The destructors of the two threads of an instance. -/
def destroyThreads (inst : Instance) (gl : List GLuint) :
    Outcome Exn (Instance × List GLuint) :=
  if inst.eventDispatchThread = .joinable ∨ inst.websocketsThread = .joinable then
    .thrown .terminate (inst, gl)
  else .done (inst, gl)

/-- The pool when the last loop of `main` begins; `glfwTerminate` has taken the textures
along. -/
def Pool.stopped (pool : Pool) : Pool where
  slot i := { pool.slot i with quit := true }
  shared := []

/-- What becomes of the pool: the last loop of `main`, and the destructor. -/
def exitPool (pool : Pool) : Outcome Exn Pool :=
  (Outcome.sweep (fun i pool => pool.visit i quitSlot) (List.finRange instanceMax)
      pool.stopped).bind
    (Outcome.sweep (fun i pool => pool.visit i destroyThreads) (List.finRange instanceMax))

/-- `main`, from the end of its loop on. -/
def exitMain (publish : Instance) (pool : Pool) : Outcome Exn (Instance × Pool) :=
  (((publishSideDeleteChannel publish pool.shared).mapState fun r =>
      (r.1, { pool with shared := r.2 })).bind fun (publish, pool) =>
    (exitPool pool).mapState (publish, ·)).bind fun (publish, pool) =>
    (destroyThreads publish pool.shared).mapState fun r => (r.1, { pool with shared := r.2 })

/-! ## The whole program -/

/-- Without `__BLACKMAGIC_OUTPUT__`, or with it. -/
inductive Build where
  | webrtc
  | blackmagic
deriving DecidableEq

structure Program where
  publish : Slot
  world : World

inductive ProgramAction where
  | pool (a : WorldAction)
  | publish (a : ThreadAction)

/-- The collection of the main loop visits the pool only. -/
def ThreadAction.IsCollection : ThreadAction → Bool
  | .exchange .collectPop => true
  | .exchange .collectCopy => true
  | .exchange .collectPush => true
  | _ => false

namespace Program

def step (P : Platform) (p : Program) : ProgramAction → Option Program
  | .pool a => (p.world.step P a).map fun world => { p with world := world }
  | .publish a =>
      if a.IsCollection then none
      else (threadStep P.parse p.publish a).map fun publish => { p with publish := publish }

/-- The program when its main loop begins. -/
def startup (build : Build) (channelId channelToken : String) (env : Answers) : Program :=
  match build with
  | .webrtc =>
      let r := (publishSideAddChannel channelId channelToken env {} []).state
      ⟨⟨r.1, {}⟩, ⟨{ Pool.startup with shared := r.2 }, fun _ => {}⟩⟩
  | .blackmagic => ⟨⟨{}, {}⟩, World.startup⟩

/-- The slots that the exit tears down are channels that have been set up, and all of its
steps are legal. -/
structure ExitsLegally (p : Program) : Prop where
  returns : (exitMain p.publish.inst p.world.pool).IsDone
  fit : ∀ i, (p.world.pool.slot i).instanceEnum ≠ .min →
    (p.world.pool.slot i).instanceEnum = .instance00 ∧
      (p.world.pool.slot i).context = .live ∧ (p.world.pool.slot i).rtc.IsUp

end Program

/-! ## The invariants -/

/-- Without threads, no WebRTC objects are left. -/
def Instance.Spent (inst : Instance) : Prop :=
  inst.eventDispatchThread = .none → inst.rtc.messageQueue = .null

theorem ThreadStep.spent {s t : Slot} (h : ThreadStep s t) (hs : s.inst.Spent) :
    t.inst.Spent := by
  have hthread := congrArg Instance.eventDispatchThread h.frozen
  have hqueue := congrArg (fun inst : Instance => inst.rtc.messageQueue) h.frozen
  intro hnone
  have hspent : s.inst.rtc.messageQueue = .null := hs (hthread.symm.trans hnone)
  exact hqueue.trans hspent

theorem SlotEffect.spent {P : Platform} {w : World} {a : WorldAction} {i : Fin instanceMax}
    {t : Slot} (h : SlotEffect P w a i t) (hs : (w.slot i).inst.Spent) : t.inst.Spent := by
  cases h with
  | untouched => exact hs
  | worked ha hthread => exact hthread.spent hs
  | commanded ha hidle hchange hreleased =>
      cases hchange with
      | kept => exact hs
      | opened =>
          intro hthread
          cases hthread
      | shown => exact hs
      | closed => exact fun _ => rfl
      | freed => exact hs
      | updated => exact hs

/-- A publish instance that has been set up. -/
structure Instance.Publishing (inst : Instance) : Prop where
  live : inst.Live
  capture : inst.capture = .live
  audioRender : inst.audioRender = .live

theorem Instance.publishing_frozen (inst : Instance) :
    inst.frozen.Publishing ↔ inst.Publishing := by
  constructor
  · rintro ⟨⟨hdispatch, hwebsockets, hcontext, hrtc⟩, hcapture, hrender⟩
    exact ⟨⟨hdispatch, hwebsockets, hcontext, hrtc⟩, hcapture, hrender⟩
  · rintro ⟨⟨hdispatch, hwebsockets, hcontext, hrtc⟩, hcapture, hrender⟩
    exact ⟨⟨hdispatch, hwebsockets, hcontext, hrtc⟩, hcapture, hrender⟩

/-! ## What the exit needs -/

theorem publishSideDeleteChannel_of_publishing {inst : Instance} (h : inst.Publishing)
    (gl : List GLuint) :
    publishSideDeleteChannel inst gl =
      .done ({ inst.closed with capture := .null, audioRender := .null }, glQuit inst gl) := by
  have hcapture : inst.closed.capture = .live := h.capture
  have hrender : inst.closed.audioRender = .live := h.audioRender
  simp only [publishSideDeleteChannel, closeChannel, closeSlot_of_live h.live,
    Outcome.mapState_done, Outcome.done_bind, deleteCapture, hcapture, deleteIfSet,
    deleteAudioRender, hrender]
  rfl

/-- Without threads to join, the publish instance cannot be taken down. -/
theorem not_isDone_exitMain {publish : Instance} (h : publish.eventDispatchThread = .none)
    (pool : Pool) : ¬ (exitMain publish pool).IsDone := by
  rintro ⟨r, hexit⟩
  obtain ⟨_, hexit, -⟩ := (Outcome.bind_eq_done_iff ..).1 hexit
  obtain ⟨_, hdelete, -⟩ := (Outcome.bind_eq_done_iff ..).1 hexit
  obtain ⟨_, hdelete, -⟩ := (Outcome.mapState_eq_done_iff ..).1 hdelete
  obtain ⟨_, hclose, -⟩ := (Outcome.bind_eq_done_iff ..).1 hdelete
  obtain ⟨_, hclose, -⟩ := (Outcome.bind_eq_done_iff ..).1 hclose
  obtain ⟨inst, hclose, -⟩ := (Outcome.mapState_eq_done_iff ..).1 hclose
  exact not_isDone_closeSlot h ⟨inst, hclose⟩

theorem websocketsQuit_eq_done {inst inst' : Instance} (h : websocketsQuit inst = .done inst') :
    inst'.eventDispatchThread = inst.eventDispatchThread ∧ inst'.rtc = inst.rtc := by
  unfold websocketsQuit at h
  split at h
  · cases h
    exact ⟨rfl, rfl⟩
  · cases h
    exact ⟨rfl, rfl⟩
  · cases h

theorem webrtcQuit_eq_done {inst inst' : Instance} (h : webrtcQuit inst = .done inst') :
    inst'.eventDispatchThread = inst.eventDispatchThread ∧ inst.rtc.messageQueue ≠ .null := by
  simp only [webrtcQuit] at h
  split at h
  · cases h
  · rename_i hthreads
    have hqueue : inst.rtc.messageQueue ≠ .null := fun hnull => hthreads (.inl hnull)
    split at h
    · cases h
      exact ⟨rfl, hqueue⟩
    · cases h
      exact ⟨rfl, hqueue⟩
    · cases h

theorem quitSlot_eq_done {inst inst' : Instance} {gl gl' : List GLuint}
    (h : quitSlot inst gl = .done (inst', gl')) :
    inst'.eventDispatchThread = inst.eventDispatchThread ∧
      (inst.rtc.messageQueue = .null → inst.instanceEnum = .min) := by
  unfold quitSlot at h
  split at h
  · obtain ⟨r, hr, hgl⟩ := (Outcome.bind_eq_done_iff ..).1 h
    obtain ⟨inst₂, hquit, rfl⟩ := (Outcome.mapState_eq_done_iff ..).1 hr
    obtain ⟨inst₁, hwebsockets, hwebrtc⟩ := (Outcome.bind_eq_done_iff ..).1 hquit
    obtain ⟨hthread₁, hrtc⟩ := websocketsQuit_eq_done hwebsockets
    obtain ⟨hthread₂, hqueue⟩ := webrtcQuit_eq_done hwebrtc
    cases hgl
    rw [hrtc] at hqueue
    exact ⟨hthread₂.trans hthread₁, fun hnull => absurd hnull hqueue⟩
  · rename_i hfree
    cases h
    exact ⟨rfl, fun _ => not_not.1 hfree⟩

theorem quitSlot_of_free {inst : Instance} (h : inst.instanceEnum = .min) (gl : List GLuint) :
    quitSlot inst gl = .done (inst, gl) := by
  rw [quitSlot, if_neg (not_not.2 h)]

theorem destroyThreads_eq_done {inst inst' : Instance} {gl gl' : List GLuint}
    (h : destroyThreads inst gl = .done (inst', gl')) : inst.eventDispatchThread = .none := by
  unfold destroyThreads at h
  split at h
  · cases h
  · rename_i hthreads
    cases hthread : inst.eventDispatchThread with
    | none => rfl
    | joinable => exact absurd (.inl hthread) hthreads

theorem destroyThreads_of_none {inst : Instance} (hdispatch : inst.eventDispatchThread = .none)
    (hwebsockets : inst.websocketsThread = .none) (gl : List GLuint) :
    destroyThreads inst gl = .done (inst, gl) := by
  simp [destroyThreads, hdispatch, hwebsockets]

/-- The slots can be left as they are if and only if they are free and without threads. -/
theorem exitPool_isDone_iff {pool : Pool} (hsound : ∀ i, (pool.slot i).Sound)
    (hspent : ∀ i, (pool.slot i).Spent) :
    (exitPool pool).IsDone ↔
      ∀ i, pool.IsFree i ∧ (pool.slot i).eventDispatchThread = .none := by
  have hnodup : (List.finRange instanceMax).Nodup := List.nodup_finRange instanceMax
  constructor
  · rintro ⟨after, hexit⟩ i
    obtain ⟨quit, hquit, hdestroy⟩ := (Outcome.bind_eq_done_iff ..).1 hexit
    obtain ⟨gl, gl', hslot⟩ :=
      (Family.sweep_visit_eq_done hnodup hquit).1 i (List.mem_finRange i)
    obtain ⟨_, _, hthreads⟩ :=
      (Family.sweep_visit_eq_done hnodup hdestroy).1 i (List.mem_finRange i)
    obtain ⟨hsame, hfree⟩ := quitSlot_eq_done hslot
    have hnone : (pool.slot i).eventDispatchThread = .none :=
      hsame.symm.trans (destroyThreads_eq_done hthreads)
    exact ⟨hfree (hspent i hnone), hnone⟩
  · intro h
    have hfree : ∀ i, (pool.stopped.slot i).instanceEnum = .min := fun i => (h i).1
    have hdispatch : ∀ i, (pool.stopped.slot i).eventDispatchThread = .none := fun i => (h i).2
    have hwebsockets : ∀ i, (pool.stopped.slot i).websocketsThread = .none := fun i =>
      (hsound i).websocketsThread_eq.trans (h i).2
    have hquit : Outcome.sweep (fun i pool => pool.visit i quitSlot) (List.finRange instanceMax)
        pool.stopped = .done pool.stopped :=
      Family.sweep_visit_unchanged fun i _ => quitSlot_of_free (hfree i) _
    have hdestroy : Outcome.sweep (fun i pool => pool.visit i destroyThreads)
        (List.finRange instanceMax) pool.stopped = .done pool.stopped :=
      Family.sweep_visit_unchanged fun i _ =>
        destroyThreads_of_none (hdispatch i) (hwebsockets i) _
    rw [exitPool, hquit, Outcome.done_bind, hdestroy]
    exact ⟨_, rfl⟩

theorem exitMain_isDone_iff {publish : Instance} (hpublish : publish.Publishing) {pool : Pool}
    (hsound : ∀ i, (pool.slot i).Sound) (hspent : ∀ i, (pool.slot i).Spent) :
    (exitMain publish pool).IsDone ↔
      ∀ i, pool.IsFree i ∧ (pool.slot i).eventDispatchThread = .none := by
  have hpool : ∀ gl : List GLuint, (exitPool { pool with shared := gl }).IsDone ↔
      ∀ i, pool.IsFree i ∧ (pool.slot i).eventDispatchThread = .none := fun _ =>
    exitPool_isDone_iff hsound hspent
  rw [← hpool (glQuit publish pool.shared), exitMain,
    publishSideDeleteChannel_of_publishing hpublish, Outcome.mapState_done, Outcome.done_bind,
    Outcome.isDone_bind_iff]
  constructor
  · rintro ⟨r, hexit, -⟩
    obtain ⟨after, hafter, -⟩ := (Outcome.mapState_eq_done_iff ..).1 hexit
    exact ⟨after, hafter⟩
  · rintro ⟨after, hafter⟩
    refine ⟨_, (Outcome.mapState_eq_done_iff ..).2 ⟨after, hafter, rfl⟩, ?_⟩
    exact ⟨_, rfl⟩

namespace Program

variable {P : Platform} {build : Build} {channelId channelToken : String} {env : Answers}
  {p q : Program}

/-- What the program keeps. -/
structure Sound (build : Build) (p : Program) : Prop where
  world : p.world.Sound
  spent : ∀ i, (p.world.pool.slot i).Spent
  publishing : build = .webrtc → p.publish.inst.Publishing
  bare : build = .blackmagic → p.publish.inst.eventDispatchThread = .none

theorem startup_sound : (startup build channelId channelToken env).Sound build := by
  cases build with
  | webrtc =>
      refine ⟨World.startup_sound, fun i _ => rfl, fun _ => ?_, fun h => ?_⟩
      · exact ⟨⟨rfl, rfl, rfl, webrtcInit_isUp _⟩, rfl, rfl⟩
      · cases h
  | blackmagic =>
      refine ⟨World.startup_sound, fun i _ => rfl, fun h => ?_, fun _ => rfl⟩
      cases h

theorem Sound.step {a : ProgramAction} (hp : p.Sound build) (h : p.step P a = some q) :
    q.Sound build := by
  cases a with
  | pool a =>
      obtain ⟨w, hw, rfl⟩ := Option.map_eq_some_iff.1 h
      exact ⟨hp.world.step hw, fun i => (hp.world.effect hw i).spent (hp.spent i),
        hp.publishing, hp.bare⟩
  | publish a =>
      obtain ⟨-, h⟩ := Option.ite_none_left_eq_some.1 h
      obtain ⟨s, hs, rfl⟩ := Option.map_eq_some_iff.1 h
      have hfrozen : s.inst.frozen = p.publish.inst.frozen := (threadStep_spec hs).frozen
      refine ⟨hp.world, hp.spent, fun hbuild => ?_, fun hbuild => ?_⟩
      · rw [← Instance.publishing_frozen, hfrozen, Instance.publishing_frozen]
        exact hp.publishing hbuild
      · have hthread := congrArg Instance.eventDispatchThread hfrozen
        exact hthread.trans (hp.bare hbuild)

/-- From every state that the program can reach, its exit is legal if and only if it has
set up its publish instance and all slots are free and without threads. -/
theorem exitsLegally_iff
    (h : Reachable (step P) (startup build channelId channelToken env) p) :
    p.ExitsLegally ↔ build = .webrtc ∧
      ∀ i, p.world.pool.IsFree i ∧ (p.world.pool.slot i).eventDispatchThread = .none := by
  have hp : p.Sound build :=
    h.invariant (fun _ _ _ hp hstep => hp.step hstep) startup_sound
  cases build with
  | blackmagic =>
      constructor
      · rintro ⟨hreturns, -⟩
        exact absurd hreturns (not_isDone_exitMain (hp.bare rfl) _)
      · rintro ⟨hbuild, -⟩
        cases hbuild
  | webrtc =>
      have hexit := exitMain_isDone_iff (hp.publishing rfl) (fun i => (hp.world i).inst) hp.spent
      constructor
      · rintro ⟨hreturns, -⟩
        exact ⟨rfl, hexit.1 hreturns⟩
      · rintro ⟨-, hfree⟩
        exact ⟨hexit.2 hfree, fun i hnot => absurd (hfree i).1 hnot⟩

/-- The exit right after the start. -/
theorem exitsLegally_iff_startup :
    (startup .webrtc "sora" "token" (Sample.answers 1)).ExitsLegally :=
  (exitsLegally_iff (P := Sample.platform) (.refl _)).2 ⟨rfl, fun _ => ⟨rfl, rfl⟩⟩

/-- The exception that ends the exit. -/
def exitException (p : Program) : Option Exn :=
  (exitMain p.publish.inst p.world.pool).exception

/-- The exit joins a thread that is not there in the one build, and destroys the threads
of a channel and reaches for the connection of an image in the other. -/
theorem not_exitsLegally :
    ((startup .blackmagic "sora" "token" (Sample.answers 1)).exitException = some .systemError ∧
        ¬ (startup .blackmagic "sora" "token" (Sample.answers 1)).ExitsLegally) ∧
      (∃ p, step Sample.platform (startup .webrtc "sora" "token" (Sample.answers 1))
          (.pool (Sample.command 2 .subscribeAddChannel Sample.addChannel)) = some p ∧
        p.exitException = some .terminate ∧ ¬ p.ExitsLegally) ∧
      ∃ p, step Sample.platform (startup .webrtc "sora" "token" (Sample.answers 1))
          (.pool (Sample.command 2 .resourceAddStaticImage Sample.addImage)) = some p ∧
        p.exitException = some .nullDereference ∧ ¬ p.ExitsLegally := by
  have hillegal : ∀ {p : Program} {e : Exn}, p.exitException = some e → ¬ p.ExitsLegally :=
    fun hexception hlegal => Outcome.not_isDone_of_exception hexception hlegal.returns
  have hchannel : (step Sample.platform (startup .webrtc "sora" "token" (Sample.answers 1))
      (.pool (Sample.command 2 .subscribeAddChannel Sample.addChannel))).map exitException =
        some (some .terminate) := by decide +kernel
  have himage : (step Sample.platform (startup .webrtc "sora" "token" (Sample.answers 1))
      (.pool (Sample.command 2 .resourceAddStaticImage Sample.addImage))).map exitException =
        some (some .nullDereference) := by decide +kernel
  obtain ⟨p, hp, hexception⟩ := Option.map_eq_some_iff.1 hchannel
  obtain ⟨q, hq, hexception'⟩ := Option.map_eq_some_iff.1 himage
  have hbare : (startup .blackmagic "sora" "token" (Sample.answers 1)).exitException =
      some .systemError := rfl
  exact ⟨⟨hbare, hillegal hbare⟩, ⟨p, hp, hexception, hillegal hexception⟩,
    ⟨q, hq, hexception', hillegal hexception'⟩⟩

end Program

end Bres
