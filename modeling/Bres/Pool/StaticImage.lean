import Bres.Pool.Channel

/-!
# The static-image commands of the pool

`src/resource_static_image.cc` and the dispatch of a queued command in `main`. What
`stbi_load` answers depends on the path and on the file system at that moment.

The size of the picture buffer is the product of two `float` members and four.
The product is kept as a parameter `byteCount` next to the JSON reader, so that
a statement can read it exactly or with its rounding.
-/

namespace Bres

open Transition

/-- What the commands take from outside the repository: the JSON reader, and the
`float` product `width * height * 4` converted to `size_t`. -/
structure Platform where
  parse : Bytes → Option Json
  byteCount : ℕ → ℕ → ℕ

/-- `std::stof` followed by a store into the slot. -/
def storeFloat (s : String) (write : FloatValue → Instance → Instance)
    (inst : Instance) : Outcome Exn Instance :=
  match stof s with
  | .error .invalidArgument => .thrown .invalidArgument inst
  | .error .outOfRange => .thrown .outOfRange inst
  | .ok v => .done (write v inst)

/-- The assignments that `resourceAddStaticImage` makes before it converts a
position. -/
def claimImageSlot (inst : Instance) : Instance :=
  { inst with instanceEnum := .instanceLocal00, quit := false, isDraw := 1 }

/-- `resourceAddStaticImage` from the choice of the slot on. -/
def showImage (P : Platform) (path posX posY : String) (image : Image) (env : Answers)
    (inst : Instance) (gl : List GLuint) : Outcome Exn (Instance × List GLuint) :=
  ((storeFloat posX Instance.setPosX (claimImageSlot inst)).bind
    (storeFloat posY Instance.setPosY)).mapState (·, gl) |>.bind fun (inst, gl) =>
    let size := P.byteCount image.w image.h
    let inst :=
      { inst with
        width := image.w
        height := image.h
        initImage := .live image
        imagePath := path
        scale := 1
        order := .subscribe
        lastTextureBuffer := List.replicate size 0 }
    if env.Overreads image size then .thrown .bufferOverflow (inst, gl)
    else
      (glGenerateTexture env { inst with lastTextureBuffer := image.read size } gl).bind
        -- `stbi_image_free`: the slot keeps the address
        fun (inst, gl) => .done ({ inst with initImage := .dangling image.address }, gl)

/-- `resourceAddStaticImage` -/
def resourceAddStaticImage (P : Platform) (ev : Bytes) (env : Answers) (pool : Pool) :
    Outcome Exn Pool :=
  match P.parse ev with
  | none => .thrown .parseError pool
  | some json =>
      match json.find "path", json.find "pos_x", json.find "pos_y" with
      | some path, some posX, some posY =>
          if h : pool.freeIndex < instanceMax then
            match path.getString, posX.getString, posY.getString with
            | some path, some posX, some posY =>
                match env.stbiLoad path with
                | none => .done pool
                | some image =>
                    pool.visit ⟨pool.freeIndex, h⟩ (showImage P path posX posY image env)
            | _, _, _ => .thrown .typeError pool
          else .done pool
      | _, _, _ => .done pool

/-- The body of the loop of `resourceDeleteStaticImage`. -/
def deleteImageAt (path : String) (inst : Instance) (gl : List GLuint) :
    Outcome Exn (Instance × List GLuint) :=
  if inst.imagePath = path then
    let inst := { inst with quit := true, isDraw := 0, instanceEnum := .min }
    .done (inst, glQuit inst gl)
  else .done (inst, gl)

/-- `resourceDeleteStaticImage` -/
def resourceDeleteStaticImage (P : Platform) (ev : Bytes) (pool : Pool) :
    Outcome Exn Pool :=
  match P.parse ev with
  | none => .thrown .parseError pool
  | some json =>
      match json.find "path" with
      | none => .done pool
      | some v =>
          match v.getString with
          | none => .thrown .typeError pool
          | some path =>
              Outcome.sweep (fun i pool => pool.visit i (deleteImageAt path))
                (List.finRange instanceMax) pool

/-- The dispatch of a queued command in the main loop. -/
def executeCommand (P : Platform) (env : Answers) (ev : SEvent) (pool : Pool) :
    Outcome Exn Pool :=
  match ev.type with
  | .subscribeAddChannel => subscribeSideAddChannel P.parse ev.event env pool
  | .subscribeDeleteChannel => subscribeSideDeleteChannel P.parse ev.event pool
  | .subscribePropertyChannel => subscribeSidePropertyChannel P.parse ev.event pool
  | .resourceAddStaticImage => resourceAddStaticImage P ev.event env pool
  | .resourceDeleteStaticImage => resourceDeleteStaticImage P ev.event pool
  | _ => .done pool

end Bres
