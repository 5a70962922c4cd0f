import Bres.Pool.SlotChange
import Bres.Pool.Threads
import Bres.Transition.Run

/-!
# The running program

A `World` is the pool with the hands of the threads that work on its slots. It
moves by one command of the main loop, or by one step of a thread at a slot. The
main thread executes commands and collects pictures, so it does one of them at a
time. A command ends when its handler returns; one that throws ends the program.
`webrtc_quit` releases the connection, which waits for the `OnFrame` calls that
are under way.

What a step does to each slot is one of three things: `SlotEffect` says which,
and the invariants of the program are proved from it, slot by slot.
-/

namespace Bres

open Transition

structure World where
  pool : Pool
  hands : Fin instanceMax → Hands

inductive WorldAction where
  | command (env : Answers) (ev : SEvent)
  | thread (i : Fin instanceMax) (a : ThreadAction)

namespace World

def slot (w : World) (i : Fin instanceMax) : Slot := ⟨w.pool.slot i, w.hands i⟩

def put (w : World) (i : Fin instanceMax) (s : Slot) : World where
  pool := { w.pool with slot := Function.update w.pool.slot i s.inst }
  hands := Function.update w.hands i s.hands

theorem put_slot_self (w : World) (i : Fin instanceMax) (s : Slot) :
    (w.put i s).slot i = s := by
  simp [put, slot]

theorem put_slot_of_ne (w : World) {i j : Fin instanceMax} (s : Slot) (h : j ≠ i) :
    (w.put i s).slot j = w.slot j := by
  simp [put, slot, h]

/-- The main thread is not in the middle of a collection. -/
def Idle (w : World) : Prop := ∀ i, (w.hands i).renderer = none

instance (w : World) : Decidable w.Idle := inferInstanceAs (Decidable (∀ _, _))

/-- No `OnFrame` call is under way at a slot whose connection `pool` has released. -/
def Released (w : World) (pool : Pool) : Prop :=
  ∀ i, (w.pool.slot i).rtc.peerConnectionFactory = .live →
    (pool.slot i).rtc.peerConnectionFactory ≠ .live → (w.hands i).decoders.isEmpty

instance (w : World) (pool : Pool) : Decidable (w.Released pool) :=
  inferInstanceAs (Decidable (∀ _, _))

/-- The main thread is free to take part in the step. -/
def Available (w : World) : ThreadAction → Prop
  | .exchange .collectPop => w.Idle
  | _ => True

instance (w : World) (a : ThreadAction) : Decidable (w.Available a) := by
  unfold Available
  split <;> infer_instance

/-- One step of the program. `glGenTextures` answers a name that is not in use. -/
def step (P : Platform) (w : World) : WorldAction → Option World
  | .command env ev =>
      if w.Idle ∧ env.texture ≠ 0 ∧ env.texture ∉ w.pool.shared then
        match executeCommand P env ev w.pool with
        | .thrown _ _ => none
        | .done pool => if w.Released pool then some ⟨pool, w.hands⟩ else none
      else none
  | .thread i a =>
      if w.Available a then (threadStep P.parse (w.slot i) a).map (w.put i) else none

/-- The program before its first command. -/
def startup : World := ⟨Pool.startup, fun _ => {}⟩

end World

/-- What a step does to slot `i`. -/
inductive SlotEffect (P : Platform) (w : World) (a : WorldAction) (i : Fin instanceMax) :
    Slot → Prop where
  | untouched : SlotEffect P w a i (w.slot i)
  | commanded {env : Answers} {ev : SEvent} {inst : Instance} (ha : a = .command env ev)
      (hidle : (w.hands i).renderer = none)
      (hchange : SlotChange P env ev w.pool i inst)
      (hreleased : (w.pool.slot i).rtc.peerConnectionFactory = .live →
        inst.rtc.peerConnectionFactory ≠ .live → (w.hands i).decoders = []) :
      SlotEffect P w a i ⟨inst, w.hands i⟩
  | worked {x : ThreadAction} {t : Slot} (ha : a = .thread i x)
      (hthread : ThreadStep (w.slot i) t) : SlotEffect P w a i t

namespace World

variable {P : Platform} {w w' : World} {a : WorldAction}

theorem command_eq_some {env : Answers} {ev : SEvent}
    (h : w.step P (.command env ev) = some w') :
    w.Idle ∧ env.texture ≠ 0 ∧ env.texture ∉ w.pool.shared ∧
      ∃ pool, executeCommand P env ev w.pool = .done pool ∧ w.Released pool ∧
        w' = ⟨pool, w.hands⟩ := by
  obtain ⟨⟨hidle, htexture, hfresh⟩, h⟩ := Option.ite_none_right_eq_some.1 h
  cases hexec : executeCommand P env ev w.pool with
  | thrown e pool => simp [hexec] at h
  | done pool =>
      simp only [hexec] at h
      obtain ⟨hreleased, h⟩ := Option.ite_none_right_eq_some.1 h
      exact ⟨hidle, htexture, hfresh, pool, rfl, hreleased, (Option.some.inj h).symm⟩

theorem thread_eq_some {i : Fin instanceMax} {x : ThreadAction}
    (h : w.step P (.thread i x) = some w') :
    w.Available x ∧ ∃ t, threadStep P.parse (w.slot i) x = some t ∧ w' = w.put i t := by
  obtain ⟨havailable, h⟩ := Option.ite_none_right_eq_some.1 h
  obtain ⟨t, ht, rfl⟩ := Option.map_eq_some_iff.1 h
  exact ⟨havailable, t, ht, rfl⟩

theorem step_slot (hsound : ∀ i, (w.pool.slot i).Sound) (h : w.step P a = some w')
    (i : Fin instanceMax) : SlotEffect P w a i (w'.slot i) := by
  cases a with
  | command env ev =>
      obtain ⟨hidle, -, -, pool, hexec, hreleased, rfl⟩ := command_eq_some h
      exact .commanded rfl (hidle i) (executeCommand_slot hsound hexec i)
        fun hlive hgone => List.isEmpty_iff.1 (hreleased i hlive hgone)
  | thread j x =>
      obtain ⟨-, t, ht, rfl⟩ := thread_eq_some h
      by_cases hij : i = j
      · subst hij
        rw [put_slot_self]
        exact .worked rfl (threadStep_spec ht)
      · rw [put_slot_of_ne _ _ hij]
        exact .untouched

end World

/-! ## The invariant of every run -/

theorem Instance.sound_frozen (inst : Instance) : inst.frozen.Sound ↔ inst.Sound := by
  constructor
  · rintro ⟨hlive, hchannel, hrtc, hwebsockets, horder⟩
    refine ⟨fun h => ?_, hchannel, hrtc, hwebsockets, horder⟩
    obtain ⟨hdispatch, hwebsockets, hcontext, hup⟩ := hlive h
    exact ⟨hdispatch, hwebsockets, hcontext, hup⟩
  · rintro ⟨hlive, hchannel, hrtc, hwebsockets, horder⟩
    refine ⟨fun h => ?_, hchannel, hrtc, hwebsockets, horder⟩
    obtain ⟨hdispatch, hwebsockets, hcontext, hup⟩ := hlive h
    exact ⟨hdispatch, hwebsockets, hcontext, hup⟩

/-- What holds of a slot in every run: its record is sound, its buffers are in
custody, and an `OnFrame` call is under way only while the connection is there. -/
structure Slot.Sound (s : Slot) : Prop where
  inst : s.inst.Sound
  custody : s.Custody
  live_of_decoders : s.hands.decoders ≠ [] → s.inst.rtc.peerConnectionFactory = .live

theorem ThreadStep.peerConnectionFactory_eq {s t : Slot} (h : ThreadStep s t) :
    t.inst.rtc.peerConnectionFactory = s.inst.rtc.peerConnectionFactory := by
  have hrtc := congrArg (fun inst : Instance => inst.rtc.peerConnectionFactory) h.frozen
  exact hrtc

theorem ThreadStep.instanceEnum_eq {s t : Slot} (h : ThreadStep s t) :
    t.inst.instanceEnum = s.inst.instanceEnum := by
  have henum := congrArg Instance.instanceEnum h.frozen
  exact henum

theorem Slot.Sound.thread {s t : Slot} (hs : s.Sound) (h : ThreadStep s t) : t.Sound where
  inst := by
    rw [← Instance.sound_frozen, h.frozen, Instance.sound_frozen]
    exact hs.inst
  custody := by
    cases h with
    | exchange hallowed h => exact hs.custody.step h
    | quiet hsame => exact hs.custody.samePictures hsame
    | queued hsame => exact hs.custody.samePictures hsame
    | taken hsame => exact hs.custody.samePictures hsame
  live_of_decoders := by
    rw [h.peerConnectionFactory_eq]
    intro hdecoders
    cases h with
    | exchange hallowed h =>
        rcases h.decoders_ne_nil hdecoders with hold | ⟨picture, rfl⟩
        · exact hs.live_of_decoders hold
        · exact hallowed
    | quiet => exact hs.live_of_decoders hdecoders
    | queued => exact hs.live_of_decoders hdecoders
    | taken => exact hs.live_of_decoders hdecoders

theorem SlotChange.custody {P : Platform} {env : Answers} {ev : SEvent} {pool : Pool}
    {i : Fin instanceMax} {inst : Instance} {hands : Hands}
    (h : SlotChange P env ev pool i inst) (hs : Slot.Custody ⟨pool.slot i, hands⟩) :
    Slot.Custody ⟨inst, hands⟩ := by
  cases h with
  | opened => exact hs.eventInit
  | _ => exact hs

theorem SlotEffect.sound {P : Platform} {w : World} {a : WorldAction} {i : Fin instanceMax}
    {t : Slot} (h : SlotEffect P w a i t) (hs : (w.slot i).Sound) : t.Sound := by
  cases h with
  | untouched => exact hs
  | commanded ha hidle hchange hreleased =>
      refine ⟨hchange.sound hs.inst, hchange.custody hs.custody, fun hdecoders => ?_⟩
      by_contra hgone
      exact hdecoders (hreleased (hs.live_of_decoders hdecoders) hgone)
  | worked ha hthread => exact hs.thread hthread

namespace World

/-- Every slot of the program is sound. -/
def Sound (w : World) : Prop := ∀ i, (w.slot i).Sound

theorem startup_sound : startup.Sound := fun _ =>
  ⟨Instance.startup_sound, fun a => by simp [startup, slot, Pool.startup, Slot.places,
    Instance.startup], fun h => absurd rfl h⟩

variable {P : Platform} {w w' : World} {a : WorldAction}

theorem Sound.effect (hw : w.Sound) (h : w.step P a = some w') (i : Fin instanceMax) :
    SlotEffect P w a i (w'.slot i) :=
  step_slot (fun i => (hw i).inst) h i

theorem Sound.step (hw : w.Sound) (h : w.step P a = some w') : w'.Sound := fun i =>
  (hw.effect h i).sound (hw i)

/-- A state that the program can reach from its start. -/
def Reachable (P : Platform) (w : World) : Prop :=
  Transition.Reachable (World.step P) startup w

theorem Reachable.sound (h : w.Reachable P) : w.Sound :=
  Transition.Reachable.invariant (fun _ _ _ hw hstep => hw.step hstep) startup_sound h

end World

/-! ## Sample commands

A platform that knows one channel and one image, for the runs on fixed inputs. -/

namespace Sample

def addChannel : List (String × Json) :=
  [("type", .string "recieve/channel/add"), ("channel_id", .string "sora"),
    ("channel_token", .string "token"), ("channel_multiple_stream", .string "on"),
    ("signaling_server", .string "localhost")]

def deleteChannel : List (String × Json) :=
  [("type", .string "recieve/channel/delete"), ("channel_id", .string "sora")]

def property : List (String × Json) :=
  [("type", .string "recieve/channel/property"), ("channel_id", .string "sora"),
    ("is_draw", .string "1")]

def addImage : List (String × Json) :=
  [("type", .string "resource/static-image/add"), ("path", .string "logo.png"),
    ("pos_x", .string "0"), ("pos_y", .string "0")]

def deleteImage : List (String × Json) :=
  [("type", .string "resource/static-image/delete"), ("path", .string "logo.png")]

/-- The two deletes with an empty name. -/
def deleteNoChannel : List (String × Json) :=
  [("type", .string "recieve/channel/delete"), ("channel_id", .string "")]

def deleteNoImage : List (String × Json) :=
  [("type", .string "resource/static-image/delete"), ("path", .string "")]

/-- A command whose type is a number. -/
def numberType : List (String × Json) := [("type", .number "1")]

def platform : Platform where
  parse := flatParse
    [addChannel, deleteChannel, property, addImage, deleteImage, deleteNoChannel,
      deleteNoImage, numberType]
  byteCount w h := w * h * 4

theorem parse_addChannel :
    platform.parse (flatText addChannel) = some (.object addChannel) := rfl

theorem parse_addImage : platform.parse (flatText addImage) = some (.object addImage) := rfl

theorem stof_zero : stof "0" = .ok 0 := by decide +kernel

theorem startup_freeIndex : World.startup.pool.freeIndex = (0 : Fin instanceMax) := by
  decide +kernel

/-- A picture of two by two pixels. -/
def image : Image where
  address := 8
  w := 2
  h := 2
  f := 4
  data := List.replicate 16 0
  beyond _ := 0
  size_eq := rfl

/-- The outside world, with the texture name that `glGenTextures` would answer. -/
def answers (texture : GLuint) : Answers where
  stbiLoad path := if path = "logo.png" then some image else none
  texture := texture

/-- A queued command. -/
def command (texture : GLuint) (type : EventType) (members : List (String × Json)) :
    WorldAction :=
  .command (answers texture) ⟨type, flatText members⟩

end Sample

end Bres
