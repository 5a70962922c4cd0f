import Bres.Basic.Json
import Bres.Basic.Number

/-!
# Instances

The constants, enumerations and the `instance_t` record of
`inc/bres+client_ext.h`. Handles of the libraries the program is linked to are
kept as what the program can know of them: a null pointer, an object that is
alive, or the address of one that is gone. `init_image` keeps its address as well,
and what it points to as long as that is there. The picture buffers that
`event_init` allocates for a slot are numbered in the order of their
allocation, and `imageHeap` holds their contents.

A `Picture` has exactly the `WND_WIDTH * WND_HEIGHT * 4` bytes that the decoder
writes and the main loop copies.
-/

namespace Bres

/-- `WND_WIDTH` -/
def wndWidth : ℕ := 640

/-- `WND_HEIGHT` -/
def wndHeight : ℕ := 360

/-- `WND_WIDTH * WND_HEIGHT * 4`, the size of a picture in bytes. -/
def pictureBytes : ℕ := wndWidth * wndHeight * 4

/-- `BUFFLEN` -/
def bufflen : ℕ := 4096

/-- `LWS_PRE`, the room libwebsockets wants in front of a payload. -/
def lwsPre : ℕ := 16

/-- `EVENT_ORDER`, less its bounds. -/
inductive EventOrder where
  | websocketsToWebrtc
  | webrtcToWebsockets
  | audio
deriving DecidableEq, Repr

/-- `EVENT_TYPE`, less its upper bound. -/
inductive EventType where
  | none
  | connect
  | offer
  | answer
  | candidate
  | pong
  | emptyImage
  | currentImage
  | subscribeAddChannel
  | subscribeDeleteChannel
  | subscribePropertyChannel
  | resourceAddStaticImage
  | resourceDeleteStaticImage
  | audio
deriving DecidableEq, Repr

/-- The values of `INSTANCE` that the program stores: a free slot, a slot that
holds a channel, and a slot that holds a static image. -/
inductive InstanceEnum where
  | min
  | instance00
  | instanceLocal00
deriving DecidableEq, Repr

/-- `INSTANCE_MAX`, the number of slots in the pool. -/
def instanceMax : ℕ := 9

instance : NeZero instanceMax := ⟨nofun⟩

/-- `INSTANCE_ORDER` -/
inductive InstanceOrder where
  | subscribe
  | publish
deriving DecidableEq, Repr

/-- `sevent_t` -/
structure SEvent where
  type : EventType
  event : Bytes
deriving DecidableEq

/-- What a raw or counted pointer to a library object refers to. -/
inductive Handle where
  | null
  | live
  | dangling
deriving DecidableEq, Repr

/-- `std::thread`: without a thread, or with one that has not been joined. -/
inductive StdThread where
  | none
  | joinable
deriving DecidableEq, Repr

/-- The exceptions and the fatal errors that a handler can end in. -/
inductive Exn where
  | parseError
  | typeError
  | invalidArgument
  | outOfRange
  | systemError
  | terminate
  | nullDereference
  | useAfterFree
  | bufferOverflow
deriving DecidableEq, Repr

/-- The ways in which the program ends by itself, without an exception: a `PANIC`, an
access out of range, or `front` of an empty queue. -/
inductive Fault where
  | panic
  | bufferOverflow
  | emptyQueue
deriving DecidableEq, Repr

/-- A texture name of OpenGL. -/
abbrev GLuint := ℕ

/-- The number of a picture buffer in the order of allocation. -/
abbrev Addr := ℕ

/-- The contents of one picture buffer. -/
structure Picture where
  bytes : Bytes
  size_eq : bytes.length = pictureBytes

/-- A buffer after `bzero`. -/
def Picture.zero : Picture := ⟨List.replicate pictureBytes 0, List.length_replicate⟩

/-- A picture returned by `stbi_load`: the pointer, `w * h * f` bytes behind it, and
whatever follows them in memory. -/
structure Image where
  address : ℕ
  w : ℕ
  h : ℕ
  f : ℕ
  data : Bytes
  beyond : ℕ → UInt8
  size_eq : data.length = w * h * f

namespace Image

/-- The byte at an offset from the pointer that `stbi_load` returned. -/
def byteAt (image : Image) (k : ℕ) : UInt8 :=
  image.data.getD k (image.beyond k)

/-- The `n` bytes from the pointer on. -/
def read (image : Image) (n : ℕ) : Bytes := (List.range n).map image.byteAt

@[simp] theorem length_read (image : Image) (n : ℕ) : (image.read n).length = n := by
  simp [read]

end Image

/-- `init_image`: `NULL`, a picture, or the address that a picture had. -/
inductive InitImage where
  | null
  | live (image : Image)
  | dangling (address : ℕ)

/-- The pointer itself. -/
def InitImage.address : InitImage → Option ℕ
  | null => none
  | live image => some image.address
  | dangling address => some address

/-- The call of `glTexImage2D` that has filled a texture: the sizes, and the bytes that it
has read. They are not known where it was given no picture or one that is gone. -/
structure TexImage where
  width : ℕ
  height : ℕ
  bytes : Option Bytes

/-- The WebRTC objects of an instance. -/
structure Rtc where
  peerConnectionFactory : Handle := .null
  peerConnection : Handle := .null
  peerObserver : Handle := .null
  messageQueue : Handle := .null
  workerThread : Handle := .null
  signalingThread : Handle := .null
  audioTrack : Handle := .null
  videoTrack : Handle := .null
deriving DecidableEq

/-- `instance_t`, with the values its members have in a new
`std::vector<instance_t>`. `texImage` is no member of it: it is what OpenGL holds under
`movieTexture`. -/
structure Instance where
  -- websockets
  context : Handle := .null
  websocket : Handle := .null
  recvBuffer : Bytes := List.replicate (bufflen + lwsPre) 0
  recvWritten : ℕ := 0
  sendTarget : Bytes := []
  -- webrtc
  rtc : Rtc := {}
  channelId : String := ""
  channelToken : String := ""
  channelMultipleStream : String := ""
  order : InstanceOrder := .subscribe
  capture : Handle := .null
  audioRender : Handle := .null
  -- event
  eventsWebsocketsToWebrtc : List SEvent := []
  eventsWebrtcToWebsockets : List SEvent := []
  eventsAudio : List SEvent := []
  eventsImageEmpty : List Addr := []
  eventsImageCurrent : List Addr := []
  imageHeap : List Picture := []
  -- texture
  movieTexture : GLuint := 0
  texImage : Option TexImage := none
  isDraw : UInt32 := 0
  posX : FloatValue := 0
  posY : FloatValue := 0
  imagePath : String := ""
  width : ℕ := wndWidth
  height : ℕ := wndHeight
  initImage : InitImage := .null
  scale : FloatValue := 1
  chromakey : FloatValue := 0
  lastTextureBuffer : Bytes := []
  -- management
  instanceEnum : InstanceEnum := .min
  quit : Bool := false
  eventDispatchThread : StdThread := .none
  websocketsThread : StdThread := .none

namespace Instance

/-- A slot of the pool as `main` sets it up before the first command. -/
def startup : Instance :=
  { lastTextureBuffer := List.replicate pictureBytes 0 }

/-- The slot holds a live channel of that id. -/
def HoldsChannel (inst : Instance) (id : String) : Prop :=
  inst.instanceEnum = .instance00 ∧ inst.channelId = id

/-- The slot holds a static image loaded from that path. -/
def HoldsImage (inst : Instance) (path : String) : Prop :=
  inst.instanceEnum = .instanceLocal00 ∧ inst.imagePath = path

instance (inst : Instance) (id : String) : Decidable (inst.HoldsChannel id) :=
  inferInstanceAs (Decidable (_ ∧ _))

instance (inst : Instance) (path : String) : Decidable (inst.HoldsImage path) :=
  inferInstanceAs (Decidable (_ ∧ _))

end Instance

end Bres
