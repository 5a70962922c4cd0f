import Bres.Pool.Command

/-!
# The change a command makes to one slot

`SlotChange P env ev pool i` holds of the records that slot `i` can have after a
queued command has been executed and has returned: it is kept, or it is the
lowest free slot and has been opened or shown, or it carries the name of the
command and has been closed, freed or updated. Every constructor carries the
guards of its case, so an invariant of the pool needs nothing else.
-/

namespace Bres

open Transition

variable {P : Platform} {env : Answers} {pool pool' : Pool}

inductive SlotChange (P : Platform) (env : Answers) (ev : SEvent) (pool : Pool)
    (i : Fin instanceMax) : Instance → Prop where
  | kept : SlotChange P env ev pool i (pool.slot i)
  | opened {json : Json} {id token multi server : String}
      (htype : ev.type = .subscribeAddChannel) (hparse : P.parse ev.event = some json)
      (hid : json.HasString "channel_id" id) (htoken : json.HasString "channel_token" token)
      (hmulti : json.HasString "channel_multiple_stream" multi)
      (hserver : json.HasString "signaling_server" server)
      (hindex : pool.freeIndex = i) (hsurvives : env.Survives (pool.slot i))
      (hdispatch : (pool.slot i).eventDispatchThread = .none)
      (hwebsockets : (pool.slot i).websocketsThread = .none) :
      SlotChange P env ev pool i (openedChannel id token multi env (pool.slot i))
  | shown {json : Json} {path posX posY : String} {x y : FloatValue} {image : Image}
      (htype : ev.type = .resourceAddStaticImage) (hparse : P.parse ev.event = some json)
      (hpath : json.HasString "path" path) (hposX : json.HasString "pos_x" posX)
      (hposY : json.HasString "pos_y" posY) (hload : env.stbiLoad path = some image)
      (hx : stof posX = .ok x) (hy : stof posY = .ok y) (hindex : pool.freeIndex = i)
      (hcopies : env.Copies P image) :
      SlotChange P env ev pool i (shownImage P path x y image env (pool.slot i))
  | closed {json : Json} {id : String}
      (htype : ev.type = .subscribeDeleteChannel) (hparse : P.parse ev.event = some json)
      (hid : json.HasString "channel_id" id) (hmatch : (pool.slot i).channelId = id)
      (hlive : (pool.slot i).Live) :
      SlotChange P env ev pool i (pool.slot i).closed
  | freed {json : Json} {path : String}
      (htype : ev.type = .resourceDeleteStaticImage) (hparse : P.parse ev.event = some json)
      (hpath : json.HasString "path" path) (hmatch : (pool.slot i).imagePath = path) :
      SlotChange P env ev pool i (pool.slot i).freed
  | updated {json : Json} {id : String}
      (htype : ev.type = .subscribePropertyChannel) (hparse : P.parse ev.event = some json)
      (hid : json.HasString "channel_id" id) (hmatch : (pool.slot i).channelId = id) :
      SlotChange P env ev pool i ((pool.slot i).withAttributes json)

theorem Platform.addsChannel_of_strings {ev : SEvent} {json : Json}
    {id token multi server : String} (htype : ev.type = .subscribeAddChannel)
    (hparse : P.parse ev.event = some json) (hid : json.HasString "channel_id" id)
    (htoken : json.HasString "channel_token" token)
    (hmulti : json.HasString "channel_multiple_stream" multi)
    (hserver : json.HasString "signaling_server" server) : P.AddsChannel ev := by
  refine ⟨htype, json, hparse, ?_⟩
  simp only [addChannelKeys, List.forall_mem_cons]
  exact ⟨⟨_, hid⟩, ⟨_, htoken⟩, ⟨_, hmulti⟩, ⟨_, hserver⟩, List.forall_mem_nil _⟩

theorem Platform.addsImage_of_strings {ev : SEvent} {json : Json} {path posX posY : String}
    {image : Image} (htype : ev.type = .resourceAddStaticImage)
    (hparse : P.parse ev.event = some json) (hpath : json.HasString "path" path)
    (hposX : json.HasString "pos_x" posX) (hposY : json.HasString "pos_y" posY)
    (hload : env.stbiLoad path = some image) : P.AddsImage env ev image := by
  refine ⟨htype, json, hparse, ?_, path, hpath, hload⟩
  simp only [addImageKeys, List.forall_mem_cons]
  exact ⟨⟨_, hpath⟩, ⟨_, hposX⟩, ⟨_, hposY⟩, List.forall_mem_nil _⟩

theorem addChannel_slot {ev : SEvent} (htype : ev.type = .subscribeAddChannel)
    (h : subscribeSideAddChannel P.parse ev.event env pool = .done pool')
    (j : Fin instanceMax) : SlotChange P env ev pool j (pool'.slot j) := by
  cases hparse : P.parse ev.event with
  | none => simp [subscribeSideAddChannel, hparse] at h
  | some json =>
      by_cases hrejects : pool.Rejects addChannelKeys json
      · rw [addChannel_of_rejects hparse hrejects] at h
        cases h
        exact .kept
      obtain ⟨i, id, token, multi, server, hindex, hid, htoken, hmulti, hserver, hadd⟩ :=
        addChannel_of_not_rejects hparse hrejects env
      rw [hadd] at h
      obtain ⟨r, hopen, rfl⟩ := (Outcome.mapState_eq_done_iff ..).1 h
      obtain ⟨id, token, multi, server, rfl, rfl, rfl, rfl, hsurvives, hdispatch,
        hwebsockets, rfl⟩ := openChannel_eq_done_iff.1 hopen
      by_cases hj : j = i
      · subst hj
        simp only [Function.update_self]
        exact .opened htype hparse hid htoken hmulti hserver hindex hsurvives hdispatch
          hwebsockets
      · simp only [Function.update_of_ne hj]
        exact .kept

theorem addImage_slot {ev : SEvent} (htype : ev.type = .resourceAddStaticImage)
    (h : resourceAddStaticImage P ev.event env pool = .done pool')
    (j : Fin instanceMax) : SlotChange P env ev pool j (pool'.slot j) := by
  cases hparse : P.parse ev.event with
  | none => simp [resourceAddStaticImage, hparse] at h
  | some json =>
      by_cases hrejects : pool.Rejects addImageKeys json
      · rw [addImage_of_rejects hparse hrejects] at h
        cases h
        exact .kept
      by_cases hmistyped : ∃ key ∈ addImageKeys, json.text key = none
      · rw [addImage_of_mistyped hparse hrejects hmistyped] at h
        cases h
      have htext : ∀ key ∈ addImageKeys, ∃ text, json.HasString key text := by
        intro key hkey
        obtain ⟨text, htext⟩ := Option.ne_none_iff_exists'.1
          fun hnone => hmistyped ⟨key, hkey, hnone⟩
        exact ⟨text, (Json.text_eq_some_iff ..).1 htext⟩
      obtain ⟨i, path, posX, posY, hindex, hpath, hposX, hposY, hadd⟩ :=
        addImage_of_texts hparse hrejects htext env
      rw [hadd] at h
      cases hload : env.stbiLoad path with
      | none =>
          rw [hload] at h
          cases h
          exact .kept
      | some image =>
          rw [hload] at h
          obtain ⟨r, hshow, rfl⟩ := (Outcome.mapState_eq_done_iff ..).1 h
          obtain ⟨x, y, hx, hy, hcopies, rfl⟩ := showImage_eq_done_iff.1 hshow
          by_cases hj : j = i
          · subst hj
            simp only [Function.update_self]
            exact .shown htype hparse hpath hposX hposY hload hx hy hindex hcopies
          · simp only [Function.update_of_ne hj]
            exact .kept

theorem deleteChannel_slot {ev : SEvent} (htype : ev.type = .subscribeDeleteChannel)
    (hsound : ∀ i, (pool.slot i).Sound)
    (h : subscribeSideDeleteChannel P.parse ev.event pool = .done pool')
    (j : Fin instanceMax) : SlotChange P env ev pool j (pool'.slot j) := by
  cases hparse : P.parse ev.event with
  | none => simp [subscribeSideDeleteChannel, hparse] at h
  | some json =>
      cases hfind : json.find "channel_id" with
      | none =>
          rw [deleteChannel_of_absent hparse hfind] at h
          cases h
          exact .kept
      | some v =>
          cases htext : v.getString with
          | none =>
              rw [((named_of_mistyped hparse htext).1 hfind).1] at h
              cases h
          | some id =>
              obtain rfl := (Json.getString_eq_some_iff v id).1 htext
              obtain ⟨hlive, rfl⟩ := (deleteChannel_eq_done_iff hparse hfind hsound).1 h
              by_cases hmatch : (pool.slot j).channelId = id
              · simp only [if_pos hmatch]
                exact .closed htype hparse hfind hmatch (hlive j hmatch)
              · simp only [if_neg hmatch]
                exact .kept

theorem deleteImage_slot {ev : SEvent} (htype : ev.type = .resourceDeleteStaticImage)
    (h : resourceDeleteStaticImage P ev.event pool = .done pool')
    (j : Fin instanceMax) : SlotChange P env ev pool j (pool'.slot j) := by
  cases hparse : P.parse ev.event with
  | none => simp [resourceDeleteStaticImage, hparse] at h
  | some json =>
      cases hfind : json.find "path" with
      | none =>
          rw [deleteImage_of_absent hparse hfind] at h
          cases h
          exact .kept
      | some v =>
          cases htext : v.getString with
          | none =>
              rw [(named_of_mistyped hparse htext).2 hfind] at h
              cases h
          | some path =>
              obtain rfl := (Json.getString_eq_some_iff v path).1 htext
              rw [deleteImage_done hparse hfind] at h
              cases h
              by_cases hmatch : (pool.slot j).imagePath = path
              · simp only [if_pos hmatch]
                exact .freed htype hparse hfind hmatch
              · simp only [if_neg hmatch]
                exact .kept

theorem property_slot {ev : SEvent} (htype : ev.type = .subscribePropertyChannel)
    (h : subscribeSidePropertyChannel P.parse ev.event pool = .done pool')
    (j : Fin instanceMax) : SlotChange P env ev pool j (pool'.slot j) := by
  cases hparse : P.parse ev.event with
  | none => simp [subscribeSidePropertyChannel, hparse] at h
  | some json =>
      cases hfind : json.find "channel_id" with
      | none =>
          rw [property_of_absent hparse hfind] at h
          cases h
          exact .kept
      | some v =>
          cases htext : v.getString with
          | none =>
              rw [((named_of_mistyped hparse htext).1 hfind).2] at h
              cases h
          | some id =>
              obtain rfl := (Json.getString_eq_some_iff v id).1 htext
              rw [property_of_id hparse hfind] at h
              cases hfirst : (List.finRange instanceMax).find? fun i =>
                  (pool.slot i).channelId = id with
              | none =>
                  rw [hfirst] at h
                  cases h
                  exact .kept
              | some i =>
                  rw [hfirst] at h
                  obtain ⟨_, hvisit, rfl⟩ := (Outcome.mapState_eq_done_iff ..).1 h
                  obtain ⟨_, hset, rfl⟩ := (Outcome.mapState_eq_done_iff ..).1 hvisit
                  obtain ⟨-, rfl⟩ := setAttributes_eq_done_iff.1 hset
                  have hmatch : (pool.slot i).channelId = id := by
                    simpa using List.find?_some hfirst
                  by_cases hj : j = i
                  · subst hj
                    simp only [Function.update_self]
                    exact .updated htype hparse hfind hmatch
                  · simp only [Function.update_of_ne hj]
                    exact .kept

/-- What a command that returns can have done to a slot. -/
theorem executeCommand_slot {ev : SEvent} (hsound : ∀ i, (pool.slot i).Sound)
    (h : executeCommand P env ev pool = .done pool') (i : Fin instanceMax) :
    SlotChange P env ev pool i (pool'.slot i) := by
  unfold executeCommand at h
  split at h
  case h_1 htype => exact addChannel_slot htype h i
  case h_2 htype => exact deleteChannel_slot htype hsound h i
  case h_3 htype => exact property_slot htype h i
  case h_4 htype => exact addImage_slot htype h i
  case h_5 htype => exact deleteImage_slot htype h i
  case h_6 =>
    cases h
    exact .kept

/-! ## Soundness of the slots -/

theorem Instance.startup_sound : Instance.startup.Sound where
  live_of_joinable h := by cases h
  joinable_of_channel h := by cases h
  joinable_of_rtc h := by cases h
  websocketsThread_eq := rfl
  order_eq := rfl

/-- Every command keeps the slots sound. -/
theorem SlotChange.sound {ev : SEvent} {i : Fin instanceMax} {inst : Instance}
    (h : SlotChange P env ev pool i inst) (hi : (pool.slot i).Sound) : inst.Sound := by
  cases h with
  | kept => exact hi
  | opened =>
      exact ⟨fun _ => ⟨rfl, rfl, rfl, webrtcInit_isUp _⟩, fun _ => rfl, fun _ => rfl, rfl,
        hi.order_eq⟩
  | shown =>
      refine ⟨fun h => ?_, nofun, hi.joinable_of_rtc, hi.websocketsThread_eq, rfl⟩
      obtain ⟨hdispatch, hwebsockets, hcontext, hrtc⟩ := hi.live_of_joinable h
      exact ⟨hdispatch, hwebsockets, hcontext, hrtc⟩
  | closed => exact ⟨nofun, nofun, nofun, rfl, hi.order_eq⟩
  | freed =>
      refine ⟨fun h => ?_, nofun, hi.joinable_of_rtc, hi.websocketsThread_eq, hi.order_eq⟩
      obtain ⟨hdispatch, hwebsockets, hcontext, hrtc⟩ := hi.live_of_joinable h
      exact ⟨hdispatch, hwebsockets, hcontext, hrtc⟩
  | updated =>
      refine ⟨fun h => ?_, hi.joinable_of_channel, hi.joinable_of_rtc,
        hi.websocketsThread_eq, hi.order_eq⟩
      obtain ⟨hdispatch, hwebsockets, hcontext, hrtc⟩ := hi.live_of_joinable h
      exact ⟨hdispatch, hwebsockets, hcontext, hrtc⟩

end Bres
