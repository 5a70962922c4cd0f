import Bres.Pool.Names
import Bres.Video.Gl

/-!
# The drawn program

The program together with the state of OpenGL. A command makes the texture of the slot that it
takes and deletes those whose names it gives back, and the main thread draws the slots when it
is not in the middle of a collection.

A delete or a property command with a name that a free slot still has may take away the texture
of another slot, or have a slot drawn that is not in use. In a run without such commands every
drawn slot has a texture of its own of the size of its picture, and so each turn shows the drawn
slots as they are, whatever has been drawn with the shared objects before.
-/

namespace Bres

open Transition

/-! ## Textures and commands -/

/-- The textures after a step: `gl_quit` has deleted those whose names are not in use any
more, and `gl_generate_texture` has made one for the slot that has been taken. -/
def Gl.follow {Window : Type*} (D : Driver Window) (before after : Pool) (gl : Gl Window) :
    Gl Window :=
  { gl with
    textures := fun name =>
      if name ∈ after.shared then
        if name ∈ before.shared then gl.textures name
        else if h : before.freeIndex < instanceMax then
          (after.slot ⟨_, h⟩).texImage.bind D.texImage2D
        else none
      else none }

structure Mixer (Window : Type*) where
  program : Program
  gl : Gl Window

/-- A step of the program, or the drawing of a turn. `behind` is what follows the picture
buffers in memory. -/
inductive MixerAction where
  | program (a : ProgramAction)
  | draw (behind : Fin instanceMax → ℕ → UInt8)

namespace Mixer

variable {Window : Type*}

def pool (s : Mixer Window) : Pool := s.program.world.pool

def step (P : Platform) (D : Driver Window) (s : Mixer Window) :
    MixerAction → Option (Mixer Window)
  | .program a =>
      (s.program.step P a).map fun program =>
        ⟨program, s.gl.follow D s.pool program.world.pool⟩
  | .draw behind =>
      if s.program.world.Idle then some ⟨s.program, s.gl.drawPool D behind s.pool⟩ else none

/-- The step is no command with the name of a free slot. -/
def Tidy (P : Platform) (s : Mixer Window) : MixerAction → Prop
  | .program (.pool (.command _ ev)) => ∀ i, P.Names ev (s.pool.slot i) → ¬ s.pool.IsFree i
  | _ => True

/-- The program when its main loop begins, whatever `gl_init` has left in the vertex buffer and
in the window. -/
def startup (build : Build) (channelId channelToken : String) (env : Answers)
    (textures : GLuint → Option Texture)
    (vertices : Fin 6 → Geometry.Vertex FloatValue) (window : Window) : Mixer Window where
  program := .startup build channelId channelToken env
  gl := ⟨textures, ⟨1, 0, 0⟩, List.ofFn vertices, window⟩

end Mixer

/-! ## What a tidy run keeps -/

namespace SlotChange

variable {P : Platform} {env : Answers} {ev : SEvent} {pool : Pool} {i : Fin instanceMax}
  {inst : Instance}

/-- A slot in use has kept its texture and its size, or it has been taken. -/
theorem kept_or_taken (h : SlotChange P env ev pool i inst) (hused : inst.instanceEnum ≠ .min) :
    ¬ pool.IsFree i ∧ inst.movieTexture = (pool.slot i).movieTexture ∧
        inst.width = (pool.slot i).width ∧ inst.height = (pool.slot i).height ∨
      pool.freeIndex = i ∧ inst.movieTexture = env.texture ∧
        ∃ t, inst.texImage = some t ∧ t.width = texSize inst.width ∧
          t.height = texSize inst.height := by
  cases h with
  | kept => exact .inl ⟨hused, rfl, rfl, rfl⟩
  | opened htype hparse hid htoken hmulti hserver hindex =>
      exact .inr ⟨hindex, rfl, _, rfl, rfl, rfl⟩
  | shown htype hparse hpath hposX hposY hload hx hy hindex =>
      exact .inr ⟨hindex, rfl, _, rfl, rfl, rfl⟩
  | closed => exact absurd rfl hused
  | freed => exact absurd rfl hused
  | updated => exact .inl ⟨hused, rfl, rfl, rfl⟩

/-- A drawn slot is in use, or it has been drawn before, or the command names it. -/
theorem used_of_drawn (h : SlotChange P env ev pool i inst) (hdraw : inst.isDraw ≠ 0) :
    inst.instanceEnum ≠ .min ∨ inst.instanceEnum = (pool.slot i).instanceEnum ∧
      ((pool.slot i).isDraw ≠ 0 ∨ P.Names ev (pool.slot i)) := by
  cases h with
  | kept => exact .inr ⟨rfl, .inl hdraw⟩
  | opened => exact .inl nofun
  | shown => exact .inl nofun
  | closed => exact absurd rfl hdraw
  | freed => exact absurd rfl hdraw
  | @updated json id htype hparse hid hmatch =>
      exact .inr ⟨rfl, .inr ⟨json, hparse, .inl ⟨.inr htype, hmatch ▸ hid⟩⟩⟩

end SlotChange

namespace Gl

variable {Window : Type*} {D : Driver Window} {gl : Gl Window} {before after : Pool}
  {inst inst' : Instance}

/-- A texture that is in use before and after a step is kept. -/
theorem Stores.follow (h : gl.Stores D inst) (hbefore : inst.movieTexture ∈ before.shared)
    (hafter : inst.movieTexture ∈ after.shared) : (gl.follow D before after).Stores D inst := by
  rw [Stores, Gl.follow]
  dsimp only
  rw [if_pos hafter, if_pos hbefore]
  exact h

/-- The texture that a step has made has the size of its slot. -/
theorem stores_follow_of_taken {i : Fin instanceMax} {t : TexImage}
    (hindex : before.freeIndex = i) (hbefore : (after.slot i).movieTexture ∉ before.shared)
    (hafter : (after.slot i).movieTexture ∈ after.shared)
    (himage : (after.slot i).texImage = some t) (hwidth : t.width = texSize (after.slot i).width)
    (hheight : t.height = texSize (after.slot i).height) :
    (gl.follow D before after).Stores D (after.slot i) := by
  have hlt : before.freeIndex < instanceMax := hindex ▸ i.isLt
  have hi : (⟨before.freeIndex, hlt⟩ : Fin instanceMax) = i := Fin.ext hindex
  rw [Stores, Gl.follow]
  dsimp only
  rw [if_pos hafter, if_neg hbefore, dif_pos hlt, hi, himage, Option.bind_some,
    Driver.texImage2D, Driver.atSize, Driver.atSize, ← hwidth, ← hheight]
  split <;> rfl

theorem Stores.congr (h : gl.Stores D inst) (hname : inst'.movieTexture = inst.movieTexture)
    (hwidth : inst'.width = inst.width) (hheight : inst'.height = inst.height) :
    gl.Stores D inst' := by
  rw [Stores, hname, hwidth, hheight]
  exact h

end Gl

namespace Mixer

variable {Window : Type*} {P : Platform} {D : Driver Window} {build : Build}
  {s s' : Mixer Window} {a : MixerAction}

/-- What a tidy run keeps. -/
structure Ready (D : Driver Window) (build : Build) (s : Mixer Window) : Prop where
  sound : s.program.Sound build
  held : s.pool.TexturesHeld
  room : s.gl.HasRoom
  stores : ∀ i, ¬ s.pool.IsFree i → s.gl.Stores D (s.pool.slot i)
  drawn : ∀ i, (s.pool.slot i).isDraw ≠ 0 → ¬ s.pool.IsFree i

theorem Ready.stores_of_drawn (hs : s.Ready D build) (i : Fin instanceMax)
    (hdraw : (s.pool.slot i).isDraw ≠ 0) : s.gl.Stores D (s.pool.slot i) :=
  hs.stores i (hs.drawn i hdraw)

/-- A command that names no free slot spares the textures of the others. -/
theorem spares_of_tidy {ev : SEvent} {pool : Pool} (hp : pool.TexturesHeld)
    (h : ∀ i, P.Names ev (pool.slot i) → ¬ pool.IsFree i) : pool.Spares P ev := by
  intro i hi hstays j hj heq
  have hnames : P.Names ev (pool.slot j) := by
    obtain ⟨json, hparse, ⟨htype, hid⟩ | hpath⟩ := hj
    · exact ⟨json, hparse, .inl ⟨.inl htype, hid⟩⟩
    · exact ⟨json, hparse, .inr hpath⟩
  obtain rfl := hp.apart i j hi (h j hnames) heq
  exact hstays hj

theorem Ready.command {env : Answers} {ev : SEvent} {w' : World} (hs : s.Ready D build)
    (htidy : ∀ i, P.Names ev (s.pool.slot i) → ¬ s.pool.IsFree i)
    (h : s.program.world.step P (.command env ev) = some w') :
    Ready D build ⟨{ s.program with world := w' }, s.gl.follow D s.pool w'.pool⟩ := by
  have hheld' : w'.pool.TexturesHeld :=
    (World.texturesHeld_step_iff hs.sound.world hs.held h).2 (spares_of_tidy hs.held htidy)
  have hprogram : s.program.step P (.pool (.command env ev)) =
      some { s.program with world := w' } := by
    rw [Program.step, h]
    rfl
  obtain ⟨-, -, hfresh, pool, hexec, -, rfl⟩ := World.command_eq_some h
  have hchange := executeCommand_slot (fun i => (hs.sound.world i).inst) hexec
  refine ⟨hs.sound.step hprogram, hheld', hs.room, fun i hi => ?_, fun i hdraw => ?_⟩
  · have hafter := hheld'.held i hi
    rcases (hchange i).kept_or_taken hi with
      ⟨hused, hname, hwidth, hheight⟩ | ⟨hindex, hname, t, himage, hwidth, hheight⟩
    · have hbefore := hs.held.held i hused
      exact ((hs.stores i hused).congr hname hwidth hheight).follow (hname ▸ hbefore) hafter
    · exact Gl.stores_follow_of_taken hindex (hname ▸ hfresh) hafter himage hwidth hheight
  · rcases (hchange i).used_of_drawn hdraw with hused | ⟨hsame, hold⟩
    · exact hused
    · have hused := hold.elim (hs.drawn i) (htidy i)
      exact fun hfree => hused (hsame.symm.trans hfree)

theorem Ready.thread {i : Fin instanceMax} {x : ThreadAction} {w' : World}
    (hs : s.Ready D build) (h : s.program.world.step P (.thread i x) = some w') :
    Ready D build ⟨{ s.program with world := w' }, s.gl.follow D s.pool w'.pool⟩ := by
  have hsame := World.sameNames_of_thread h
  have hprogram : s.program.step P (.pool (.thread i x)) =
      some { s.program with world := w' } := by
    rw [Program.step, h]
    rfl
  have hheld' : w'.pool.TexturesHeld := hsame.texturesHeld hs.held
  refine ⟨hs.sound.step hprogram, hheld', hs.room, fun j hj => ?_, fun j hdraw => ?_⟩
  · have hused : ¬ s.pool.IsFree j := mt (hsame.isFree_iff j).2 hj
    have hfrozen := World.frozen_of_thread h j
    have hwidth := congrArg Instance.width hfrozen
    have hheight := congrArg Instance.height hfrozen
    have hbefore : (w'.pool.slot j).movieTexture ∈ s.pool.shared :=
      hsame.shared_eq ▸ hheld'.held j hj
    exact ((hs.stores j hused).congr (hsame.name_eq j) hwidth hheight).follow hbefore
      (hheld'.held j hj)
  · have hdraw' := congrArg Instance.isDraw (World.frozen_of_thread h j)
    exact mt (hsame.isFree_iff j).1 (hs.drawn j (hdraw'.symm.trans_ne hdraw))

theorem Ready.draw (hs : s.Ready D build) (behind : Fin instanceMax → ℕ → UInt8) :
    Ready D build ⟨s.program, s.gl.drawPool D behind s.pool⟩ := by
  obtain ⟨hroom, hstores, -⟩ := Gl.drawPool_spec behind hs.room hs.stores_of_drawn
  exact ⟨hs.sound, hs.held, hroom, fun i hi => hstores _ (hs.stores i hi), hs.drawn⟩

theorem Ready.step (hs : s.Ready D build) (htidy : s.Tidy P a) (h : s.step P D a = some s') :
    s'.Ready D build := by
  cases a with
  | draw behind =>
      obtain ⟨-, h⟩ := Option.ite_none_right_eq_some.1 h
      cases h
      exact hs.draw behind
  | program a =>
      obtain ⟨program, hprogram, rfl⟩ := Option.map_eq_some_iff.1 h
      cases a with
      | pool a =>
          obtain ⟨w, hw, rfl⟩ := Option.map_eq_some_iff.1 hprogram
          cases a with
          | command env ev => exact hs.command htidy hw
          | thread i x => exact hs.thread hw
      | publish a =>
          have hsound := hs.sound.step hprogram
          obtain ⟨-, hprogram⟩ := Option.ite_none_left_eq_some.1 hprogram
          obtain ⟨publish, -, rfl⟩ := Option.map_eq_some_iff.1 hprogram
          exact ⟨hsound, hs.held, hs.room, fun i hi =>
            (hs.stores i hi).follow (hs.held.held i hi) (hs.held.held i hi), hs.drawn⟩

end Mixer

/-! ## A sample run -/

namespace Sample

/-- A window that is the list of what has been drawn in it. -/
def driver : Driver (List DrawCall) where
  maxTextureSize := 16384
  clear _ _ _ _ := []
  drawArrays call window := window ++ [call]

def mixer : Mixer (List DrawCall) :=
  .startup .webrtc "sora" "token" (answers 1) (fun _ => none) (fun _ => ⟨0, 0, 0, 0⟩) []

/-- An image is shown and drawn. -/
def showPicture : List MixerAction :=
  [.program (.pool (command 2 .resourceAddStaticImage addImage)), .draw fun _ _ => 0]

theorem showPicture_tidy :
    Along (Mixer.step platform driver) (Mixer.Tidy platform) mixer showPicture := by
  refine ⟨fun i => ?_, fun _ _ => ⟨trivial, fun _ _ => trivial⟩⟩
  rintro ⟨json, -, ⟨htype, -⟩ | ⟨htype, -⟩⟩
  · exact nomatch htype
  · exact nomatch htype

end Sample

namespace Mixer

section Run

variable {Window : Type*} {P : Platform} {D : Driver Window} {build : Build}
  {s s' : Mixer Window}

variable {channelId channelToken : String} {env : Answers} {textures : GLuint → Option Texture}
  {vertices : Fin 6 → Geometry.Vertex FloatValue} {window : Window} {as : List MixerAction}
  {behind : Fin instanceMax → ℕ → UInt8}

theorem startup_ready :
    (startup build channelId channelToken env textures vertices window).Ready D build := by
  refine ⟨Program.startup_sound, Program.startup_texturesHeld, List.length_ofFn, ?_, ?_⟩
  · cases build with
    | webrtc => exact fun i hi => absurd rfl hi
    | blackmagic => exact fun i hi => absurd rfl hi
  · cases build with
    | webrtc => exact fun i hdraw => absurd rfl hdraw
    | blackmagic => exact fun i hdraw => absurd rfl hdraw

/-- In a run in which no command carries the name of a free slot, the window shows at the end
of every drawing the drawn slots over each other on a green ground, in the order of the slots:
each slot draws with its own picture, place and threshold, whatever the textures, the uniforms,
the vertex buffer and the window have held before. -/
theorem run_window
    (htidy : Along (step P D) (Tidy P)
      (startup build channelId channelToken env textures vertices window) as)
    (h : run (step P D) (startup build channelId channelToken env textures vertices window) as =
      some s)
    (hdraw : s.step P D (.draw behind) = some s') :
    s'.gl.window = compose D behind s.pool := by
  have hs : s.Ready D build :=
    (htidy.always (fun _ _ _ hs hallowed hstep => hs.step hallowed hstep) startup_ready).last h
  obtain ⟨-, hdraw⟩ := Option.ite_none_right_eq_some.1 hdraw
  cases hdraw
  exact (Gl.drawPool_spec behind hs.room hs.stores_of_drawn).2.2

end Run

/-- In the next turn the image alone is drawn, on the ground. -/
theorem run_window_shown : ∃ s s',
    run (step Sample.platform Sample.driver) Sample.mixer Sample.showPicture = some s ∧
    s.step Sample.platform Sample.driver (.draw fun _ _ => 0) = some s' ∧
    (s.pool.slot 0).isDraw = 1 ∧ s.gl.window.length = 1 ∧
    s'.gl.window = compose Sample.driver (fun _ _ => 0) s.pool := by
  have hobserved : (run (step Sample.platform Sample.driver) Sample.mixer Sample.showPicture).map
      (fun s => (decide s.program.world.Idle, (s.pool.slot 0).isDraw, s.gl.window.length)) =
        some (true, 1, 1) := by
    decide +kernel
  obtain ⟨s, hs, hobserved⟩ := Option.map_eq_some_iff.1 hobserved
  simp only [Prod.mk.injEq, decide_eq_true_eq] at hobserved
  obtain ⟨hidle, hdraw, hlength⟩ := hobserved
  exact ⟨s, _, hs, if_pos hidle, hdraw, hlength,
    run_window Sample.showPicture_tidy hs (if_pos hidle)⟩

end Mixer

end Bres
