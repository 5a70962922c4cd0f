import Bres.Pool.Add
import Bres.Pool.Property
import Bres.Transition.Table

/-!
# What the commands are for

The purpose of the pool, without its slots' records: a table of layers, each under the id
of a channel or the path of an image. An add puts a layer into the first free place, a
delete takes the layers under a key away, and a property command sets attributes of the
first channel with its id. `request` is what a command asks of this table.

The attributes that an add does not set are those of the last occupant of the slot: the
size and the picture of a new channel, and `chromakey`. A layer has only what commands with
its key have set, so it knows `chromakey` after such a command, and a channel has no size.

The pool follows the table as long as no command names a slot that has another kind of
occupant or none, which still carries the name of an earlier one.
-/

namespace Bres

open Transition

/-! ## Layers -/

/-- What a layer is asked for by. -/
inductive LayerKey where
  | channel (id : String)
  | image (path : String)
deriving DecidableEq

/-- Where the picture of a layer comes from. -/
inductive Source where
  | channel (id token multipleStream : String)
  | image (path : String) (width height : ℕ)

def Source.key : Source → LayerKey
  | channel id _ _ => .channel id
  | image path _ _ => .image path

structure Layer where
  source : Source
  isDraw : UInt32
  posX : FloatValue
  posY : FloatValue
  scale : FloatValue := 1
  chromakey : Option FloatValue := none

/-- The attributes that a property command sets. -/
structure Attributes where
  isDraw : Option UInt32
  posX : Option FloatValue
  posY : Option FloatValue
  scale : Option FloatValue
  chromakey : Option FloatValue

namespace Layer

def key (layer : Layer) : LayerKey := layer.source.key

def set (a : Attributes) (layer : Layer) : Layer :=
  { layer with
    isDraw := a.isDraw.getD layer.isDraw
    posX := a.posX.getD layer.posX
    posY := a.posY.getD layer.posY
    scale := a.scale.getD layer.scale
    chromakey := a.chromakey.or layer.chromakey }

end Layer

/-! ## Requests -/

inductive Request where
  | add (layer : Layer)
  | remove (key : LayerKey)
  | set (id : String) (a : Attributes)

namespace Request

def key : Request → LayerKey
  | add layer => layer.key
  | remove key => key
  | set id _ => .channel id

/-- What a request does to the table. -/
def apply : Request → Table instanceMax Layer → Table instanceMax Layer
  | add layer => Table.insert layer
  | remove key => Table.erase Layer.key key
  | set id a => Table.modify Layer.key (.channel id) (Layer.set a)

/-- What a request does to the layer under its key. -/
def effect : Request → Option Layer → Option Layer
  | add layer => fun _ => some layer
  | remove _ => fun _ => none
  | set _ a => Option.map (Layer.set a)

end Request

def Json.attributes (json : Json) : Attributes where
  isDraw := (json.text "is_draw").map atoi
  posX := (json.text "pos_x").map atof
  posY := (json.text "pos_y").map atof
  scale := (json.text "scale").map atof
  chromakey := (json.text "chromakey").map atof

/-- A new channel is not drawn. -/
def channelLayer (id token multipleStream : String) : Layer :=
  { source := .channel id token multipleStream, isDraw := 0, posX := 0, posY := 0 }

def imageLayer (path : String) (posX posY : FloatValue) (image : Image) : Layer :=
  { source := .image path image.w image.h, isDraw := 1, posX := posX, posY := posY }

/-- What a command asks for, if it asks for anything. -/
def Platform.request (P : Platform) (env : Answers) (ev : SEvent) : Option Request := do
  let json ← P.parse ev.event
  match ev.type with
  | .subscribeAddChannel =>
      let id ← json.text "channel_id"
      let token ← json.text "channel_token"
      let multipleStream ← json.text "channel_multiple_stream"
      let _ ← json.text "signaling_server"
      some (.add (channelLayer id token multipleStream))
  | .subscribeDeleteChannel =>
      let id ← json.text "channel_id"
      some (.remove (.channel id))
  | .subscribePropertyChannel =>
      let id ← json.text "channel_id"
      some (.set id json.attributes)
  | .resourceAddStaticImage =>
      let path ← json.text "path"
      let posX ← json.text "pos_x"
      let posY ← json.text "pos_y"
      let image ← env.stbiLoad path
      let x ← (stof posX).toOption
      let y ← (stof posY).toOption
      some (.add (imageLayer path x y image))
  | .resourceDeleteStaticImage =>
      let path ← json.text "path"
      some (.remove (.image path))
  | _ => none

/-! ## The table behind a pool -/

/-- The slot is occupied by the source. -/
def Source.HeldBy (inst : Instance) : Source → Prop
  | channel id token multipleStream =>
      inst.HoldsChannel id ∧ inst.channelToken = token ∧
        inst.channelMultipleStream = multipleStream
  | image path width height =>
      inst.HoldsImage path ∧ inst.width = width ∧ inst.height = height

/-- The slot shows the layer. -/
structure Layer.ShownBy (layer : Layer) (inst : Instance) : Prop where
  source : layer.source.HeldBy inst
  isDraw : inst.isDraw = layer.isDraw
  posX : inst.posX = layer.posX
  posY : inst.posY = layer.posY
  scale : inst.scale = layer.scale
  chromakey : ∀ v, layer.chromakey = some v → inst.chromakey = v

/-- What is in a place of the table, and the slot with its number. -/
def Instance.Shows (inst : Instance) : Option Layer → Prop
  | none => inst.instanceEnum = .min
  | some layer => layer.ShownBy inst

/-- The pool follows the table. -/
def Pool.Follows (pool : Pool) (table : Table instanceMax Layer) : Prop :=
  ∀ i, (pool.slot i).Shows (table i)

/-- No command names a slot that holds nothing, or something of another kind. -/
def World.Fits (P : Platform) (w : World) : WorldAction → Prop
  | .command _ ev => ∀ i, P.Names ev (w.pool.slot i) →
      (w.pool.slot i).instanceEnum =
        if ev.type = .resourceDeleteStaticImage then .instanceLocal00 else .instance00
  | .thread _ _ => True

namespace Source.HeldBy

variable {source : Source} {inst : Instance}

theorem instanceEnum_ne (h : source.HeldBy inst) : inst.instanceEnum ≠ .min := by
  cases source with
  | channel => exact h.1.1.trans_ne (by decide)
  | image => exact h.1.1.trans_ne (by decide)

/-- A slot with a channel carries the id of its layer. -/
theorem key_eq_channel_iff {id : String} (h : source.HeldBy inst)
    (hfits : inst.channelId = id → inst.instanceEnum = .instance00) :
    source.key = .channel id ↔ inst.channelId = id := by
  cases source with
  | channel => simp [key, h.1.2]
  | image =>
      refine iff_of_false nofun fun hid => ?_
      exact nomatch h.1.1.symm.trans (hfits hid)

/-- A slot with an image carries the path of its layer. -/
theorem key_eq_image_iff {path : String} (h : source.HeldBy inst)
    (hfits : inst.imagePath = path → inst.instanceEnum = .instanceLocal00) :
    source.key = .image path ↔ inst.imagePath = path := by
  cases source with
  | channel =>
      refine iff_of_false nofun fun hpath => ?_
      exact nomatch h.1.1.symm.trans (hfits hpath)
  | image => simp [key, h.1.2]

end Source.HeldBy

namespace Instance.Shows

variable {inst : Instance} {l : Option Layer}

theorem eq_none_iff (h : inst.Shows l) : l = none ↔ inst.instanceEnum = .min := by
  cases l with
  | none => exact iff_of_true rfl h
  | some layer => exact iff_of_false nofun h.source.instanceEnum_ne

theorem key_eq_channel_iff {id : String} (h : inst.Shows l)
    (hfits : inst.channelId = id → inst.instanceEnum = .instance00) :
    l.map Layer.key = some (.channel id) ↔ inst.channelId = id := by
  cases l with
  | none =>
      have hfree : inst.instanceEnum = .min := h
      exact iff_of_false nofun fun hid => nomatch hfree.symm.trans (hfits hid)
  | some layer => exact Option.some_inj.trans (h.source.key_eq_channel_iff hfits)

theorem key_eq_image_iff {path : String} (h : inst.Shows l)
    (hfits : inst.imagePath = path → inst.instanceEnum = .instanceLocal00) :
    l.map Layer.key = some (.image path) ↔ inst.imagePath = path := by
  cases l with
  | none =>
      have hfree : inst.instanceEnum = .min := h
      exact iff_of_false nofun fun hpath => nomatch hfree.symm.trans (hfits hpath)
  | some layer => exact Option.some_inj.trans (h.source.key_eq_image_iff hfits)

end Instance.Shows

namespace Pool.Follows

variable {pool : Pool} {table : Table instanceMax Layer}

theorem freeIndex_eq_iff (h : pool.Follows table) {i : Fin instanceMax} :
    pool.freeIndex = i ↔ table.free? = some i := by
  rw [Pool.freeIndex_eq_iff, Table.free?_eq_some_iff, Pool.IsLowestFree, Pool.IsFree,
    (h i).eq_none_iff]
  refine and_congr_right fun _ => forall₂_congr fun j _ => ?_
  rw [Pool.IsFree, ne_eq, (h j).eq_none_iff]

theorem full_iff (h : pool.Follows table) : pool.Full ↔ table.free? = none := by
  rw [Table.free?_eq_none_iff, Pool.Full]
  exact forall_congr' fun i => not_congr (h i).eq_none_iff.symm

/-- One slot and its place change. -/
theorem update (h : pool.Follows table) {i : Fin instanceMax} {inst : Instance}
    {l : Option Layer} (hi : inst.Shows l) (shared : List GLuint) :
    Pool.Follows ⟨Function.update pool.slot i inst, shared⟩ (Function.update table i l) := by
  intro j
  rcases eq_or_ne j i with rfl | hj
  · simpa only [Function.update_self] using hi
  · simpa only [Function.update_of_ne hj] using h j

end Pool.Follows

/-! ## What the commands do to the table -/

/-- The table after a request, if there is one. -/
def after (r : Option Request) (table : Table instanceMax Layer) : Table instanceMax Layer :=
  r.elim table fun r => r.apply table

section Commands

variable {P : Platform} {env : Answers} {ev : SEvent} {pool pool' : Pool}
  {table : Table instanceMax Layer} {json : Json} {r : Request}

theorem request_addChannel_iff (htype : ev.type = .subscribeAddChannel)
    (hparse : P.parse ev.event = some json) :
    P.request env ev = some r ↔ ∃ id token multi server, json.HasString "channel_id" id ∧
      json.HasString "channel_token" token ∧ json.HasString "channel_multiple_stream" multi ∧
      json.HasString "signaling_server" server ∧ r = .add (channelLayer id token multi) := by
  simp only [Platform.request, hparse, htype, Option.bind_eq_bind, Option.bind_some,
    Option.bind_eq_some_iff, Json.text_eq_some_iff, Option.some.injEq]
  grind

theorem toOption_eq_some_iff {ε α : Type*} {e : Except ε α} {v : α} :
    e.toOption = some v ↔ e = .ok v := by
  cases e <;> simp [Except.toOption]

theorem request_addImage_iff (htype : ev.type = .resourceAddStaticImage)
    (hparse : P.parse ev.event = some json) :
    P.request env ev = some r ↔ ∃ path posX posY image x y, json.HasString "path" path ∧
      json.HasString "pos_x" posX ∧ json.HasString "pos_y" posY ∧
      env.stbiLoad path = some image ∧ stof posX = .ok x ∧ stof posY = .ok y ∧
      r = .add (imageLayer path x y image) := by
  simp only [Platform.request, hparse, htype, Option.bind_eq_bind, Option.bind_some,
    Option.bind_eq_some_iff, Json.text_eq_some_iff, Option.some.injEq,
    toOption_eq_some_iff]
  grind

/-- An add that finds no place, or lacks a key, changes nothing. -/
theorem after_of_rejects {keys : List String} (hfollows : pool.Follows table)
    (hrejects : pool.Rejects keys json)
    (hadd : ∀ r, P.request env ev = some r →
      (∃ layer, r = .add layer) ∧ ∀ key ∈ keys, json.Has key) :
    after (P.request env ev) table = table := by
  cases hrequest : P.request env ev with
  | none => rfl
  | some r =>
      obtain ⟨⟨layer, rfl⟩, hkeys⟩ := hadd r hrequest
      rcases Pool.rejects_iff_skips.1 hrejects with ⟨key, hkey, hmissing⟩ | hfull
      · exact absurd (hkeys key hkey) hmissing
      · rw [after, Option.elim_some, Request.apply, Table.insert, hfollows.full_iff.1 hfull]

theorem addChannel_follows (hfollows : pool.Follows table)
    (htype : ev.type = .subscribeAddChannel)
    (h : subscribeSideAddChannel P.parse ev.event env pool = .done pool') :
    pool'.Follows (after (P.request env ev) table) := by
  cases hparse : P.parse ev.event with
  | none => simp [subscribeSideAddChannel, hparse] at h
  | some json =>
      by_cases hrejects : pool.Rejects addChannelKeys json
      · rw [addChannel_of_rejects hparse hrejects] at h
        cases h
        rw [after_of_rejects hfollows hrejects fun r hr => ?_]
        · exact hfollows
        obtain ⟨id, token, multi, server, hid, htoken, hmulti, hserver, rfl⟩ :=
          (request_addChannel_iff htype hparse).1 hr
        refine ⟨⟨_, rfl⟩, ?_⟩
        simp only [addChannelKeys, List.forall_mem_cons]
        exact ⟨⟨_, hid⟩, ⟨_, htoken⟩, ⟨_, hmulti⟩, ⟨_, hserver⟩, List.forall_mem_nil _⟩
      obtain ⟨i, id, token, multi, server, hindex, hid, htoken, hmulti, hserver, hadd⟩ :=
        addChannel_of_not_rejects hparse hrejects env
      rw [hadd] at h
      obtain ⟨_, hopen, rfl⟩ := (Outcome.mapState_eq_done_iff ..).1 h
      obtain ⟨id, token, multi, server, rfl, rfl, rfl, rfl, -, -, -, rfl⟩ :=
        openChannel_eq_done_iff.1 hopen
      have hrequest : P.request env ev = some (.add (channelLayer id token multi)) :=
        (request_addChannel_iff htype hparse).2
          ⟨id, token, multi, server, hid, htoken, hmulti, hserver, rfl⟩
      have hshows : (openedChannel id token multi env (pool.slot i)).Shows
          (some (channelLayer id token multi)) :=
        ⟨⟨⟨rfl, rfl⟩, rfl, rfl⟩, rfl, rfl, rfl, rfl,
          fun v hv => absurd hv (Option.some_ne_none v).symm⟩
      rw [after, hrequest, Option.elim_some, Request.apply, Table.insert,
        hfollows.freeIndex_eq_iff.1 hindex]
      exact hfollows.update hshows _

theorem addImage_follows (hfollows : pool.Follows table)
    (htype : ev.type = .resourceAddStaticImage)
    (h : resourceAddStaticImage P ev.event env pool = .done pool') :
    pool'.Follows (after (P.request env ev) table) := by
  cases hparse : P.parse ev.event with
  | none => simp [resourceAddStaticImage, hparse] at h
  | some json =>
      by_cases hrejects : pool.Rejects addImageKeys json
      · rw [addImage_of_rejects hparse hrejects] at h
        cases h
        rw [after_of_rejects hfollows hrejects fun r hr => ?_]
        · exact hfollows
        obtain ⟨path, posX, posY, image, x, y, hpath, hposX, hposY, -, -, -, rfl⟩ :=
          (request_addImage_iff htype hparse).1 hr
        refine ⟨⟨_, rfl⟩, ?_⟩
        simp only [addImageKeys, List.forall_mem_cons]
        exact ⟨⟨_, hpath⟩, ⟨_, hposX⟩, ⟨_, hposY⟩, List.forall_mem_nil _⟩
      by_cases hmistyped : ∃ key ∈ addImageKeys, json.text key = none
      · rw [addImage_of_mistyped hparse hrejects hmistyped] at h
        cases h
      have htext : ∀ key ∈ addImageKeys, ∃ text, json.HasString key text := by
        intro key hkey
        obtain ⟨text, htext⟩ := Option.ne_none_iff_exists'.1
          fun hnone => hmistyped ⟨key, hkey, hnone⟩
        exact ⟨text, (Json.text_eq_some_iff ..).1 htext⟩
      obtain ⟨i, path, posX, posY, hindex, hpath, hposX, hposY, hadd⟩ :=
        addImage_of_texts hparse hrejects htext env
      rw [hadd] at h
      cases hload : env.stbiLoad path with
      | none =>
          rw [hload] at h
          cases h
          have hrequest : P.request env ev = none := by
            refine Option.eq_none_iff_forall_ne_some.2 fun r hr => ?_
            obtain ⟨path', _, _, image, _, _, hpath', -, -, himage, -⟩ :=
              (request_addImage_iff htype hparse).1 hr
            rw [hpath'.unique hpath, hload] at himage
            cases himage
          rw [hrequest]
          exact hfollows
      | some image =>
          rw [hload] at h
          obtain ⟨_, hshow, rfl⟩ := (Outcome.mapState_eq_done_iff ..).1 h
          obtain ⟨x, y, hx, hy, -, rfl⟩ := showImage_eq_done_iff.1 hshow
          have hrequest : P.request env ev = some (.add (imageLayer path x y image)) :=
            (request_addImage_iff htype hparse).2
              ⟨path, posX, posY, image, x, y, hpath, hposX, hposY, hload, hx, hy, rfl⟩
          have hshows : (shownImage P path x y image env (pool.slot i)).Shows
              (some (imageLayer path x y image)) :=
            ⟨⟨⟨rfl, rfl⟩, rfl, rfl⟩, rfl, rfl, rfl, rfl,
              fun v hv => absurd hv (Option.some_ne_none v).symm⟩
          rw [after, hrequest, Option.elim_some, Request.apply, Table.insert,
            hfollows.freeIndex_eq_iff.1 hindex]
          exact hfollows.update hshows _

theorem request_deleteChannel (htype : ev.type = .subscribeDeleteChannel)
    (hparse : P.parse ev.event = some json) :
    P.request env ev = (json.text "channel_id").map fun id => .remove (.channel id) := by
  simp only [Platform.request, hparse, htype, Option.bind_eq_bind, Option.bind_some,
    Option.map_eq_bind]
  rfl

theorem request_deleteImage (htype : ev.type = .resourceDeleteStaticImage)
    (hparse : P.parse ev.event = some json) :
    P.request env ev = (json.text "path").map fun path => .remove (.image path) := by
  simp only [Platform.request, hparse, htype, Option.bind_eq_bind, Option.bind_some,
    Option.map_eq_bind]
  rfl

theorem request_property (htype : ev.type = .subscribePropertyChannel)
    (hparse : P.parse ev.event = some json) :
    P.request env ev = (json.text "channel_id").map fun id => .set id json.attributes := by
  simp only [Platform.request, hparse, htype, Option.bind_eq_bind, Option.bind_some,
    Option.map_eq_bind]
  rfl

/-- A loop that frees every slot whose layer is under the key. -/
theorem Pool.Follows.erase (hfollows : pool.Follows table) {key : LayerKey}
    (hit : Instance → Prop) [DecidablePred hit] (tear : Instance → Instance)
    (hhit : ∀ i, (table i).map Layer.key = some key ↔ hit (pool.slot i))
    (htear : ∀ inst, (tear inst).instanceEnum = .min) (shared : List GLuint) :
    Pool.Follows ⟨fun i => if hit (pool.slot i) then tear (pool.slot i) else pool.slot i, shared⟩
      (table.erase Layer.key key) := by
  intro i
  have hi := hhit i
  have hshows := hfollows i
  dsimp only [Table.erase]
  cases hl : table i with
  | none =>
      rw [hl] at hi hshows
      rw [if_neg fun h => nomatch hi.2 h]
      exact hshows
  | some layer =>
      rw [hl] at hi hshows
      rw [Option.map_some, Option.some_inj] at hi
      by_cases hkey : layer.key = key
      · rw [if_pos (hi.1 hkey), Option.filter_some_neg (by simpa using hkey)]
        exact htear _
      · rw [if_neg (mt hi.2 hkey), Option.filter_some_pos (by simpa using hkey)]
        exact hshows

theorem deleteChannel_follows (hfollows : pool.Follows table)
    (hsound : ∀ i, (pool.slot i).Sound) (htype : ev.type = .subscribeDeleteChannel)
    (hfits : ∀ i, P.Names ev (pool.slot i) → (pool.slot i).instanceEnum = .instance00)
    (h : subscribeSideDeleteChannel P.parse ev.event pool = .done pool') :
    pool'.Follows (after (P.request env ev) table) := by
  cases hparse : P.parse ev.event with
  | none => simp [subscribeSideDeleteChannel, hparse] at h
  | some json =>
      rw [request_deleteChannel htype hparse]
      cases hfind : json.find "channel_id" with
      | none =>
          rw [deleteChannel_of_absent hparse hfind] at h
          cases h
          rw [Json.text, hfind]
          exact hfollows
      | some v =>
          cases htext : v.getString with
          | none =>
              rw [((named_of_mistyped hparse htext).1 hfind).1] at h
              cases h
          | some id =>
              obtain rfl := (Json.getString_eq_some_iff v id).1 htext
              obtain ⟨-, rfl⟩ := (deleteChannel_eq_done_iff hparse hfind hsound).1 h
              rw [Json.text, hfind, Option.bind_some, htext, Option.map_some, after,
                Option.elim_some, Request.apply]
              refine hfollows.erase (fun inst => inst.channelId = id) Instance.closed
                (fun i => ?_) (fun _ => rfl) _
              refine (hfollows i).key_eq_channel_iff fun hid => hfits i ?_
              exact ⟨json, hparse, .inl ⟨.inl htype, hid ▸ hfind⟩⟩

theorem deleteImage_follows (hfollows : pool.Follows table)
    (htype : ev.type = .resourceDeleteStaticImage)
    (hfits : ∀ i, P.Names ev (pool.slot i) → (pool.slot i).instanceEnum = .instanceLocal00)
    (h : resourceDeleteStaticImage P ev.event pool = .done pool') :
    pool'.Follows (after (P.request env ev) table) := by
  cases hparse : P.parse ev.event with
  | none => simp [resourceDeleteStaticImage, hparse] at h
  | some json =>
      rw [request_deleteImage htype hparse]
      cases hfind : json.find "path" with
      | none =>
          rw [deleteImage_of_absent hparse hfind] at h
          cases h
          rw [Json.text, hfind]
          exact hfollows
      | some v =>
          cases htext : v.getString with
          | none =>
              rw [(named_of_mistyped hparse htext).2 hfind] at h
              cases h
          | some path =>
              obtain rfl := (Json.getString_eq_some_iff v path).1 htext
              rw [deleteImage_done hparse hfind] at h
              cases h
              rw [Json.text, hfind, Option.bind_some, htext, Option.map_some, after,
                Option.elim_some, Request.apply]
              refine hfollows.erase (fun inst => inst.imagePath = path) Instance.freed
                (fun i => ?_) (fun _ => rfl) _
              refine (hfollows i).key_eq_image_iff fun hpath => hfits i ?_
              exact ⟨json, hparse, .inr ⟨htype, hpath ▸ hfind⟩⟩

/-- The attributes of a command are set in the slot and in its layer alike. -/
theorem Layer.ShownBy.set {layer : Layer} {inst : Instance} (h : layer.ShownBy inst)
    (json : Json) : (layer.set json.attributes).ShownBy (inst.withAttributes json) := by
  have hheld : ∀ source : Source, source.HeldBy inst →
      source.HeldBy (inst.withAttributes json) := by
    intro source hsource
    cases source with
    | channel => exact hsource
    | image => exact hsource
  constructor
  case source => exact hheld _ h.source
  case isDraw => simp only [Layer.set, Json.attributes, Instance.withAttributes, h.isDraw]
  case posX => simp only [Layer.set, Json.attributes, Instance.withAttributes, h.posX]
  case posY => simp only [Layer.set, Json.attributes, Instance.withAttributes, h.posY]
  case scale => simp only [Layer.set, Json.attributes, Instance.withAttributes, h.scale]
  intro v hv
  simp only [Layer.set, Json.attributes] at hv
  simp only [Instance.withAttributes]
  cases hkey : json.text "chromakey" with
  | none =>
      rw [hkey] at hv
      exact h.chromakey v hv
  | some text =>
      rw [hkey] at hv
      exact Option.some.inj hv

theorem property_follows (hfollows : pool.Follows table)
    (htype : ev.type = .subscribePropertyChannel)
    (hfits : ∀ i, P.Names ev (pool.slot i) → (pool.slot i).instanceEnum = .instance00)
    (h : subscribeSidePropertyChannel P.parse ev.event pool = .done pool') :
    pool'.Follows (after (P.request env ev) table) := by
  cases hparse : P.parse ev.event with
  | none => simp [subscribeSidePropertyChannel, hparse] at h
  | some json =>
      rw [request_property htype hparse]
      cases hfind : json.find "channel_id" with
      | none =>
          rw [property_of_absent hparse hfind] at h
          cases h
          rw [Json.text, hfind]
          exact hfollows
      | some v =>
          cases htext : v.getString with
          | none =>
              rw [((named_of_mistyped hparse htext).1 hfind).2] at h
              cases h
          | some id =>
              obtain rfl := (Json.getString_eq_some_iff v id).1 htext
              have hkey : ∀ i, (table i).map Layer.key = some (.channel id) ↔
                  (pool.slot i).channelId = id := fun i =>
                (hfollows i).key_eq_channel_iff fun hid =>
                  hfits i ⟨json, hparse, .inl ⟨.inr htype, hid ▸ hfind⟩⟩
              rw [Json.text, hfind, Option.bind_some, htext, Option.map_some, after,
                Option.elim_some, Request.apply, Table.modify]
              rcases find?_or_unknown pool id with ⟨first, hfirst⟩ | hnone
              · obtain ⟨-, rfl⟩ := (property_eq_done_iff hparse hfind hfirst).1 h
                obtain ⟨hid, hbefore⟩ := Pool.first_of_find? hfirst
                have hplace : table.place? Layer.key (.channel id) = some first :=
                  Table.place?_eq_some_iff.2 ⟨(hkey first).2 hid, fun j hj =>
                    mt (hkey j).1 (hbefore j hj)⟩
                obtain ⟨layer, hlayer, -⟩ := Option.map_eq_some_iff.1 ((hkey first).2 hid)
                have hshows := hfollows first
                rw [hlayer] at hshows
                rw [hplace]
                dsimp only
                rw [hlayer]
                have hset : ((pool.slot first).withAttributes json).Shows
                    (some (layer.set json.attributes)) := Layer.ShownBy.set hshows json
                exact hfollows.update hset _
              · rw [property_of_unknown hparse hfind hnone] at h
                cases h
                rw [Table.place?_eq_none_iff.2 fun i => mt (hkey i).1 (hnone i)]
                exact hfollows

/-- A command that returns does to the pool what its request does to the table. -/
theorem executeCommand_follows (hfollows : pool.Follows table)
    (hsound : ∀ i, (pool.slot i).Sound)
    (hfits : ∀ i, P.Names ev (pool.slot i) → (pool.slot i).instanceEnum =
      if ev.type = .resourceDeleteStaticImage then .instanceLocal00 else .instance00)
    (h : executeCommand P env ev pool = .done pool') :
    pool'.Follows (after (P.request env ev) table) := by
  unfold executeCommand at h
  split at h
  case h_1 htype => exact addChannel_follows hfollows htype h
  case h_2 htype =>
    simp only [htype, reduceCtorEq, if_false] at hfits
    exact deleteChannel_follows hfollows hsound htype hfits h
  case h_3 htype =>
    simp only [htype, reduceCtorEq, if_false] at hfits
    exact property_follows hfollows htype hfits h
  case h_4 htype => exact addImage_follows hfollows htype h
  case h_5 htype =>
    simp only [htype, if_true] at hfits
    exact deleteImage_follows hfollows htype hfits h
  case h_6 =>
    cases h
    have hrequest : P.request env ev = none := by
      unfold Platform.request
      cases P.parse ev.event with
      | none => rfl
      | some json => simp only [Option.bind_eq_bind, Option.bind_some]
    rw [hrequest]
    exact hfollows

end Commands

/-! ## Runs -/

/-- What a step asks of the table. -/
def WorldAction.request (P : Platform) : WorldAction → Option Request
  | .command env ev => P.request env ev
  | .thread _ _ => none

/-- What the commands of a run have asked for, in order. -/
def requests (P : Platform) (as : List WorldAction) : List Request :=
  as.filterMap (WorldAction.request P)

/-- The table after the commands of a run. -/
def registry (P : Platform) (as : List WorldAction) : Table instanceMax Layer :=
  (requests P as).foldl (fun table r => r.apply table) .empty

theorem Instance.shows_frozen (inst : Instance) (l : Option Layer) :
    inst.frozen.Shows l ↔ inst.Shows l := by
  cases l with
  | none => exact Iff.rfl
  | some layer =>
      have hheld : ∀ source : Source, source.HeldBy inst.frozen ↔ source.HeldBy inst := by
        intro source
        cases source with
        | channel => exact Iff.rfl
        | image => exact Iff.rfl
      constructor
      · rintro ⟨hsource, hdraw, hx, hy, hscale, hchromakey⟩
        exact ⟨(hheld _).1 hsource, hdraw, hx, hy, hscale, hchromakey⟩
      · rintro ⟨hsource, hdraw, hx, hy, hscale, hchromakey⟩
        exact ⟨(hheld _).2 hsource, hdraw, hx, hy, hscale, hchromakey⟩

namespace World

variable {P : Platform} {w w' : World} {a : WorldAction} {as : List WorldAction}
  {table : Table instanceMax Layer}

theorem follows_step (hw : w.Sound) (hfollows : w.pool.Follows table) (hfits : w.Fits P a)
    (h : w.step P a = some w') : w'.pool.Follows (after (a.request P) table) := by
  cases a with
  | command env ev =>
      obtain ⟨-, -, -, pool, hexec, -, rfl⟩ := command_eq_some h
      exact executeCommand_follows hfollows (fun i => (hw i).inst) hfits hexec
  | thread i x =>
      obtain ⟨-, t, ht, rfl⟩ := thread_eq_some h
      have hshows : t.inst.Shows (table i) := by
        rw [← Instance.shows_frozen, (threadStep_spec ht).frozen, Instance.shows_frozen]
        exact hfollows i
      have hput : (w.put i t).pool.Follows (Function.update table i (table i)) :=
        hfollows.update hshows _
      rwa [Function.update_eq_self] at hput

theorem follows_run (hw : w.Sound) (hfollows : w.pool.Follows table)
    (hfits : Along (World.step P) (World.Fits P) w as)
    (h : run (World.step P) w as = some w') :
    w'.pool.Follows ((requests P as).foldl (fun table r => r.apply table) table) := by
  induction as generalizing w table with
  | nil =>
      cases h
      exact hfollows
  | cons a as ih =>
      obtain ⟨v, hv, hrun⟩ := run_cons_eq_some_iff.1 h
      have hrest := ih (hw.step hv) (follows_step hw hfollows hfits.1 hv) (hfits.2 v hv) hrun
      rw [requests, List.filterMap_cons]
      cases hrequest : a.request P with
      | none =>
          rw [hrequest] at hrest
          exact hrest
      | some r =>
          rw [hrequest] at hrest
          exact hrest

theorem startup_follows : startup.pool.Follows .empty := fun _ => rfl

end World

namespace Sample

/-- A channel is added and then drawn. -/
def drawChannel : List WorldAction :=
  [command 1 .subscribeAddChannel addChannel, command 2 .subscribePropertyChannel property]

theorem drawChannel_fits :
    Along (World.step platform) (World.Fits platform) World.startup drawChannel := by
  refine ⟨fun i => ?_, fun w hw => ⟨fun i => ?_, fun _ _ => trivial⟩⟩
  · rintro ⟨json, -, ⟨htype | htype, -⟩ | ⟨htype, -⟩⟩
    · exact nomatch htype
    · exact nomatch htype
    · exact nomatch htype
  · rintro ⟨json, hparse, ⟨-, hid⟩ | ⟨htype, -⟩⟩
    · have hobserved : (World.startup.step platform
          (command 1 .subscribeAddChannel addChannel)).map (fun w => decide (∀ i,
            (w.pool.slot i).channelId = "sora" → (w.pool.slot i).instanceEnum = .instance00)) =
            some true := by
        decide +kernel
      rw [hw] at hobserved
      obtain rfl : .object property = json := Option.some.inj hparse
      exact of_decide_eq_true (Option.some.inj hobserved) i (hid.unique rfl)
    · exact nomatch htype

end Sample

namespace World

variable {P : Platform} {w w' : World} {a : WorldAction} {as : List WorldAction}
  {table : Table instanceMax Layer}

/-- In every run in which no command names a slot that holds nothing or something of
another kind, the pool shows what the table holds after the requests of the commands, place
by place: the channels and images with their attributes, whatever the threads do between
the commands. -/
theorem run_registry (hfits : Along (World.step P) (World.Fits P) startup as)
    (h : run (World.step P) startup as = some w) : w.pool.Follows (registry P as) :=
  follows_run startup_sound startup_follows hfits h

theorem run_registry_draw :
    ∃ w, run (World.step Sample.platform) startup Sample.drawChannel = some w ∧
      (w.pool.slot 0).isDraw = 1 ∧
      w.pool.Follows (registry Sample.platform Sample.drawChannel) := by
  have hobserved : (run (World.step Sample.platform) startup Sample.drawChannel).map
      (fun w => (w.pool.slot 0).isDraw) = some 1 := by
    decide +kernel
  obtain ⟨w, hw, hdraw⟩ := Option.map_eq_some_iff.1 hobserved
  exact ⟨w, hw, hdraw, run_registry Sample.drawChannel_fits hw⟩

end World

/-! ## One key at a time -/

/-- The slot holds the channel or the image of that key. -/
def Instance.Holds (inst : Instance) : LayerKey → Prop
  | .channel id => inst.HoldsChannel id
  | .image path => inst.HoldsImage path

/-- The layer that the requests with a key have made, in order, as if there were no others. -/
def ownLayer (P : Platform) (as : List WorldAction) (k : LayerKey) : Option Layer :=
  ((requests P as).filter fun r => r.key = k).foldl (fun l r => r.effect l) none

/-- An add finds a free slot, and no slot that holds its key. -/
def World.Welcomes (P : Platform) (w : World) (a : WorldAction) : Prop :=
  ∀ layer, a.request P = some (.add layer) →
    (∃ i, w.pool.IsFree i) ∧ ∀ i, ¬ (w.pool.slot i).Holds layer.key

theorem Source.HeldBy.holds_iff {source : Source} {inst : Instance} (h : source.HeldBy inst)
    (k : LayerKey) : inst.Holds k ↔ source.key = k := by
  cases source with
  | channel id token multipleStream =>
      obtain ⟨⟨henum, hid⟩, -, -⟩ := h
      cases k with
      | channel => simp [Instance.Holds, Instance.HoldsChannel, key, henum, hid]
      | image => simp [Instance.Holds, Instance.HoldsImage, key, henum]
  | image path width height =>
      obtain ⟨⟨henum, hpath⟩, -, -⟩ := h
      cases k with
      | channel => simp [Instance.Holds, Instance.HoldsChannel, key, henum]
      | image => simp [Instance.Holds, Instance.HoldsImage, key, henum, hpath]

theorem Instance.Shows.holds_iff {inst : Instance} {l : Option Layer} (h : inst.Shows l)
    (k : LayerKey) : inst.Holds k ↔ ∃ layer, l = some layer ∧ layer.key = k := by
  cases l with
  | none =>
      have hfree : inst.instanceEnum = .min := h
      refine iff_of_false ?_ fun ⟨_, hl, _⟩ => nomatch hl
      intro hk
      cases k with
      | channel => exact nomatch hfree.symm.trans hk.1
      | image => exact nomatch hfree.symm.trans hk.1
  | some layer =>
      rw [h.source.holds_iff k]
      exact ⟨fun hk => ⟨layer, rfl, hk⟩, fun ⟨_, hl, hk⟩ => Option.some.inj hl ▸ hk⟩

/-- A request that is welcome does to the map what it does to its own layer. -/
theorem Request.lists_apply {table : Table instanceMax Layer} {m : LayerKey → Option Layer}
    {r : Request} (h : Table.Lists Layer.key table m)
    (hadd : ∀ layer, r = .add layer → table.free? ≠ none ∧ m layer.key = none) :
    Table.Lists Layer.key (r.apply table) (Function.update m r.key (r.effect (m r.key))) := by
  cases r with
  | add layer => exact h.insert (hadd layer rfl).1 (hadd layer rfl).2
  | remove key => exact h.erase
  | set id a => exact h.modify fun _ => rfl

namespace World

variable {P : Platform} {w w' : World} {a : WorldAction} {as : List WorldAction}
  {table : Table instanceMax Layer} {m : LayerKey → Option Layer}

theorem Welcomes.lists (hwelcomes : w.Welcomes P a) (hfollows : w.pool.Follows table)
    (hlists : Table.Lists Layer.key table m) {r : Request} (hrequest : a.request P = some r) :
    Table.Lists Layer.key (r.apply table) (Function.update m r.key (r.effect (m r.key))) := by
  refine Request.lists_apply hlists fun layer hr => ?_
  obtain ⟨⟨i, hfree⟩, hunheld⟩ := hwelcomes layer (hr ▸ hrequest)
  constructor
  · intro hfull
    exact Table.free?_eq_none_iff.1 hfull i ((hfollows i).eq_none_iff.2 hfree)
  · refine Option.eq_none_iff_forall_ne_some.2 fun other hother => ?_
    obtain ⟨hkey, j, hj⟩ := (hlists.eq_some_iff _ _).1 hother
    exact hunheld j (((hfollows j).holds_iff _).2 ⟨other, hj, hkey⟩)

theorem lists_run (hw : w.Sound) (hfollows : w.pool.Follows table)
    (hlists : Table.Lists Layer.key table m)
    (hfits : Along (World.step P) (World.Fits P) w as)
    (hwelcomes : Along (World.step P) (World.Welcomes P) w as)
    (h : run (World.step P) w as = some w') :
    Table.Lists Layer.key ((requests P as).foldl (fun table r => r.apply table) table)
      ((requests P as).foldl (fun m r => Function.update m r.key (r.effect (m r.key))) m) := by
  induction as generalizing w table m with
  | nil => exact hlists
  | cons a as ih =>
      obtain ⟨v, hv, hrun⟩ := run_cons_eq_some_iff.1 h
      have hnext := follows_step hw hfollows hfits.1 hv
      rw [requests, List.filterMap_cons]
      cases hrequest : a.request P with
      | none =>
          rw [hrequest] at hnext
          exact ih (hw.step hv) hnext hlists (hfits.2 v hv) (hwelcomes.2 v hv) hrun
      | some r =>
          rw [hrequest] at hnext
          exact ih (hw.step hv) hnext (hwelcomes.1.lists hfollows hlists hrequest)
            (hfits.2 v hv) (hwelcomes.2 v hv) hrun

/-- Channels and images do not disturb each other in what is asked for. In a run whose
commands fit and whose adds are welcome, one slot at most shows a key, and there the
attributes of its layer are what the requests with this key have made of them, whatever is
asked for under other keys in between. -/
theorem run_ownLayer (hfits : Along (World.step P) (World.Fits P) startup as)
    (hwelcomes : Along (World.step P) (World.Welcomes P) startup as)
    (h : run (World.step P) startup as = some w) (k : LayerKey) :
    (ownLayer P as k = none → ∀ i, ¬ (w.pool.slot i).Holds k) ∧
      ∀ layer, ownLayer P as k = some layer →
        ∃ i, layer.ShownBy (w.pool.slot i) ∧ ∀ j, (w.pool.slot j).Holds k ↔ j = i := by
  have hfollows := follows_run startup_sound startup_follows hfits h
  have hlists := lists_run startup_sound startup_follows .empty hfits hwelcomes h
  have hown := foldl_update_apply Request.key Request.effect (requests P as) (fun _ => none) k
  have hiff := hlists.eq_some_iff k
  rw [hown] at hiff
  constructor
  · intro hnone i hholds
    obtain ⟨layer, hi, hkey⟩ := ((hfollows i).holds_iff k).1 hholds
    exact nomatch hnone.symm.trans ((hiff layer).2 ⟨hkey, i, hi⟩)
  · intro layer hlayer
    obtain ⟨hkey, i, hi⟩ := (hiff layer).1 hlayer
    have hshows := hfollows i
    rw [hi] at hshows
    refine ⟨i, hshows, fun j => ⟨fun hholds => ?_, ?_⟩⟩
    · obtain ⟨other, hj, hother⟩ := ((hfollows j).holds_iff k).1 hholds
      exact hlists.unique j i other layer hj hi (hother.trans hkey.symm)
    · rintro rfl
      exact ((hfollows j).holds_iff k).2 ⟨layer, hi, hkey⟩

theorem run_ownLayer_draw :
    ∃ w layer, run (World.step Sample.platform) startup Sample.drawChannel = some w ∧
      ownLayer Sample.platform Sample.drawChannel (.channel "sora") = some layer ∧
      layer.isDraw = 1 ∧ ∃ i, layer.ShownBy (w.pool.slot i) ∧
        ∀ j, (w.pool.slot j).Holds (.channel "sora") ↔ j = i := by
  have hruns : (run (World.step Sample.platform) startup Sample.drawChannel).isSome := by
    decide +kernel
  have hobserved : (ownLayer Sample.platform Sample.drawChannel (.channel "sora")).map
      Layer.isDraw = some 1 := by
    decide +kernel
  have hwelcomes : Along (World.step Sample.platform) (World.Welcomes Sample.platform) startup
      Sample.drawChannel := by
    refine ⟨fun layer _ => ⟨⟨0, rfl⟩, fun i hi => ?_⟩, fun w _ => ⟨fun layer hadd => ?_,
      fun _ _ => trivial⟩⟩
    · obtain ⟨_, hnone, -⟩ := ((startup_follows i).holds_iff _).1 hi
      exact nomatch hnone
    · exact nomatch hadd
  obtain ⟨w, hw⟩ := Option.isSome_iff_exists.1 hruns
  obtain ⟨layer, hlayer, hdraw⟩ := Option.map_eq_some_iff.1 hobserved
  exact ⟨w, layer, hw, hlayer, hdraw,
    (run_ownLayer Sample.drawChannel_fits hwelcomes hw _).2 layer hlayer⟩

end World

end Bres
