import Bres.Basic.Rounding
import Bres.Signaling.Websockets
import Bres.Signaling.Webrtc
import Mathlib.Data.List.FinRange

/-!
# The channel commands of the pool

`src/subscribe_side_channel.cc`: adding, deleting and updating a receive
channel. The pool is the vector of `INSTANCE_MAX` slots together with the
texture names that OpenGL has in use.

`Answers` is what the outside world answers while a command is executed: the pictures
that can be loaded, the name that `glGenTextures` picks, whether a connection comes about,
and which reads of memory that is not the program's end it. Both adds make such reads, past
the end of a picture or of one that has been freed.

Each command is a function of its JSON text and the pool, and returns the pool
it leaves behind in both endings, so that a command that throws half way leaves
its traces in the slot it was writing.
-/

namespace Bres

open Transition

/-- `pooled_instances`, with the texture names in use. -/
abbrev Pool := Family (Fin instanceMax) Instance (List GLuint)

/-- The pool of `main` before the first command. -/
def Pool.startup : Pool := ⟨fun _ => Instance.startup, []⟩

/-- The scan at the head of both add commands: the number of slots in front of
the first free one. -/
def Pool.freeIndex (pool : Pool) : ℕ :=
  (List.ofFn pool.slot).findIdx fun inst => inst.instanceEnum = .min

/-! ## Stores into a slot -/

namespace Instance

def setChannelId (s : String) (inst : Instance) : Instance :=
  { inst with channelId := s }

def setChannelToken (s : String) (inst : Instance) : Instance :=
  { inst with channelToken := s }

def setChannelMultipleStream (s : String) (inst : Instance) : Instance :=
  { inst with channelMultipleStream := s }

def setIsDraw (v : UInt32) (inst : Instance) : Instance :=
  { inst with isDraw := v }

def setPosX (v : FloatValue) (inst : Instance) : Instance :=
  { inst with posX := v }

def setPosY (v : FloatValue) (inst : Instance) : Instance :=
  { inst with posY := v }

def setScale (v : FloatValue) (inst : Instance) : Instance :=
  { inst with scale := v }

def setChromakey (v : FloatValue) (inst : Instance) : Instance :=
  { inst with chromakey := v }

end Instance

/-! ## What the outside world answers -/

/-- A read of memory that is not the program's: `n` bytes of a picture that has less, bytes
of a picture that has been freed, or the text of `signaling_server`, which is gone when the
connection is made. -/
inductive BadRead where
  | pastImage (address n : ℕ)
  | freedImage (address : ℕ)
  | signalingServer

structure Answers where
  stbiLoad : String → Option Image
  texture : GLuint
  connected : Bool := true
  faults : BadRead → Bool := fun _ => false

namespace Answers

/-- Reading `n` bytes of the picture ends the program. -/
def Overreads (env : Answers) (image : Image) (n : ℕ) : Prop :=
  env.faults (.pastImage image.address n) ∧ image.data.length < n

instance (env : Answers) (image : Image) (n : ℕ) : Decidable (env.Overreads image n) :=
  inferInstanceAs (Decidable (_ ∧ _))

/-- How reading `n` bytes from `init_image` ends the program. -/
def readFault (env : Answers) (n : ℕ) : InitImage → Option Exn
  | .null => none
  | .live image => if env.Overreads image n then some .bufferOverflow else none
  | .dangling address => if env.faults (.freedImage address) then some .useAfterFree else none

/-- `lws_client_connect_via_info` -/
def connection (env : Answers) : Handle := if env.connected then .live else .null

end Answers

/-! ## Textures and threads -/

/-- A `float` member as one of the sizes that `glTexImage2D` takes. -/
def texSize (n : ℕ) : ℕ := (FloatValue.ofRat FloatValue.single n).toInteger

/-- The bytes that `glTexImage2D` reads for a slot of that width and height. -/
def texBytes (width height : ℕ) : ℕ := texSize width * texSize height * 4

/-- What `glTexImage2D` makes of the members of a slot. -/
def Instance.texSource (inst : Instance) : TexImage where
  width := texSize inst.width
  height := texSize inst.height
  bytes :=
    match inst.initImage with
    | .live image => some (image.read (texBytes inst.width inst.height))
    | _ => none

/-- `gl_generate_texture` -/
def glGenerateTexture (env : Answers) (inst : Instance) (gl : List GLuint) :
    Outcome Exn (Instance × List GLuint) :=
  let inst := { inst with movieTexture := env.texture }
  let gl := env.texture :: gl
  match env.readFault (texBytes inst.width inst.height) inst.initImage with
  | some e => .thrown e (inst, gl)
  | none => .done ({ inst with texImage := some inst.texSource }, gl)

/-- `gl_quit` -/
def glQuit (inst : Instance) (gl : List GLuint) : List GLuint :=
  gl.filter (· ≠ inst.movieTexture)

/-- The two thread assignments at the end of an add. Assigning to a
`std::thread` that has not been joined ends the program. -/
def startThreads (inst : Instance) : Outcome Exn Instance :=
  match inst.eventDispatchThread with
  | .joinable => .thrown .terminate inst
  | .none =>
      let inst := { inst with eventDispatchThread := .joinable }
      match inst.websocketsThread with
      | .joinable => .thrown .terminate inst
      | .none => .done { inst with websocketsThread := .joinable }

/-- The two joins of a delete. -/
def joinThreads (inst : Instance) : Outcome Exn Instance :=
  match inst.eventDispatchThread with
  | .none => .thrown .systemError inst
  | .joinable =>
      let inst := { inst with eventDispatchThread := .none }
      match inst.websocketsThread with
      | .none => .thrown .systemError inst
      | .joinable => .done { inst with websocketsThread := .none }

/-- `get<std::string>()` followed by a store into the slot. -/
def storeString (v : Json) (write : String → Instance → Instance) (inst : Instance) :
    Outcome Exn Instance :=
  match v.getString with
  | none => .thrown .typeError inst
  | some text => .done (write text inst)

/-! ## Adding a channel -/

/-- The assignments that `subscribeSideAddChannel` makes before it reads a value. -/
def claimChannelSlot (inst : Instance) : Instance :=
  { inst with
    instanceEnum := .instance00
    quit := false
    isDraw := 0
    posX := 0
    posY := 0
    scale := 1 }

/-- The connection that `subscribeSideAddChannel` makes. -/
def connectChannel (signalingServer : Json) (env : Answers) (r : Instance × List GLuint) :
    Outcome Exn (Instance × List GLuint) :=
  match signalingServer.getString with
  | none => .thrown .typeError r
  | some _ =>
      -- `c_str()` of a string that ends with its statement
      if env.faults .signalingServer then .thrown .useAfterFree r
      else .done ({ r.1 with websocket := env.connection }, r.2)

/-- `subscribeSideAddChannel` from the choice of the slot on, up to the start of the
threads. -/
def prepareChannel (channelId channelToken channelMultipleStream signalingServer : Json)
    (env : Answers) (inst : Instance) (gl : List GLuint) :
    Outcome Exn (Instance × List GLuint) :=
  (((storeString channelId Instance.setChannelId (claimChannelSlot inst)).bind
      (storeString channelToken Instance.setChannelToken)).bind
      (storeString channelMultipleStream Instance.setChannelMultipleStream)).mapState
        (·, gl) |>.bind fun (inst, gl) =>
    (glGenerateTexture env (eventInit (webrtcInit (websocketsInit inst))) gl).bind
      (connectChannel signalingServer env)

/-- `subscribeSideAddChannel` from the choice of the slot on. -/
def openChannel (channelId channelToken channelMultipleStream signalingServer : Json)
    (env : Answers) (inst : Instance) (gl : List GLuint) :
    Outcome Exn (Instance × List GLuint) :=
  (prepareChannel channelId channelToken channelMultipleStream signalingServer env inst gl).bind
    fun (inst, gl) => (startThreads inst).mapState (·, gl)

/-- `subscribeSideAddChannel` -/
def subscribeSideAddChannel (parse : Bytes → Option Json) (ev : Bytes)
    (env : Answers) (pool : Pool) : Outcome Exn Pool :=
  match parse ev with
  | none => .thrown .parseError pool
  | some json =>
      match json.find "channel_id", json.find "channel_token",
        json.find "channel_multiple_stream", json.find "signaling_server" with
      | some channelId, some channelToken, some channelMultipleStream,
        some signalingServer =>
          if h : pool.freeIndex < instanceMax then
            pool.visit ⟨pool.freeIndex, h⟩
              (openChannel channelId channelToken channelMultipleStream signalingServer env)
          else .done pool
      | _, _, _, _ => .done pool

/-! ## Deleting a channel -/

/-- What `subscribeSideDeleteChannel` does to the record of a slot with a
matching id. -/
def closeSlot (inst : Instance) : Outcome Exn Instance :=
  let inst := { inst with quit := true, isDraw := 0, instanceEnum := .min }
  ((joinThreads inst).bind websocketsQuit).bind webrtcQuit

/-- `closeSlot`, with `gl_quit` at its end. -/
def closeChannel (inst : Instance) (gl : List GLuint) :
    Outcome Exn (Instance × List GLuint) :=
  ((closeSlot inst).mapState (·, gl)).bind fun (inst, gl) => .done (inst, glQuit inst gl)

/-- The body of the loop of `subscribeSideDeleteChannel`. -/
def deleteChannelAt (channelId : String) (inst : Instance) (gl : List GLuint) :
    Outcome Exn (Instance × List GLuint) :=
  if inst.channelId = channelId then closeChannel inst gl else .done (inst, gl)

/-- `subscribeSideDeleteChannel` -/
def subscribeSideDeleteChannel (parse : Bytes → Option Json) (ev : Bytes)
    (pool : Pool) : Outcome Exn Pool :=
  match parse ev with
  | none => .thrown .parseError pool
  | some json =>
      match json.find "channel_id" with
      | none => .done pool
      | some v =>
          match v.getString with
          | none => .thrown .typeError pool
          | some channelId =>
              Outcome.sweep (fun i pool => pool.visit i (deleteChannelAt channelId))
                (List.finRange instanceMax) pool

/-! ## Updating a channel -/

/-- One attribute of a property command: stored if its key is present. -/
def storeIfPresent (json : Json) (key : String)
    (write : String → Instance → Instance) (inst : Instance) : Outcome Exn Instance :=
  match json.find key with
  | none => .done inst
  | some v => storeString v write inst

/-- The attributes of a property command, in the order of the source. -/
def setAttributes (json : Json) (inst : Instance) : Outcome Exn Instance :=
  ((((storeIfPresent json "is_draw" (fun s => Instance.setIsDraw (atoi s)) inst).bind
    (storeIfPresent json "pos_x" fun s => Instance.setPosX (atof s))).bind
    (storeIfPresent json "pos_y" fun s => Instance.setPosY (atof s))).bind
    (storeIfPresent json "scale" fun s => Instance.setScale (atof s))).bind
    (storeIfPresent json "chromakey" fun s => Instance.setChromakey (atof s))

/-- `subscribeSidePropertyChannel`; its loop ends at the first slot whose id
matches. -/
def subscribeSidePropertyChannel (parse : Bytes → Option Json) (ev : Bytes)
    (pool : Pool) : Outcome Exn Pool :=
  match parse ev with
  | none => .thrown .parseError pool
  | some json =>
      match json.find "channel_id" with
      | none => .done pool
      | some v =>
          match v.getString with
          | none => .thrown .typeError pool
          | some channelId =>
              match (List.finRange instanceMax).find? fun i =>
                  (pool.slot i).channelId = channelId with
              | none => .done pool
              | some i =>
                  pool.visit i fun inst gl => (setAttributes json inst).mapState (·, gl)

end Bres
